import CairnId.Http.ProvisioningRuns
import CairnId.Http.TokenRuns

/-!
# Provisioning side by side

A PATCH request reads the user, folds its operations over that copy and writes
every column back in a later step. In runs where no attribute that a PATCH
request has no operation on changes between its two steps, every attribute ends
with what the request that is about it gave.
-/

namespace CairnId

open Concurrency Concurrency.Sql Prog Database

namespace UserAttribute

def ofUpdate : (a : UserAttribute) → ScimUserUpdateInput → a.Value
  | .email, i => i.email
  | .externalId, i => i.scimExternalId
  | .displayName, i => i.displayName
  | .status, i => i.status

/-- What a status update gives. -/
def ofStatus : (a : UserAttribute) → UserStatus → Option a.Value
  | .status, given => some given
  | _, _ => none

/-- What a call gives the attribute of the user it is about. -/
def written (a : UserAttribute) : Call → Option a.Value
  | .db (.updateUserFromScim input) => some (a.ofUpdate input)
  | .db (.updateUserStatus _ _ given _ _) => a.ofStatus given
  | _ => none

/-- The attribute of a user in a world. -/
def inWorld (a : UserAttribute) (userId : UserId) (w : World) : Option a.Value :=
  ((w.store.tables .users).find? fun row => row.user.id = userId).map fun row => a.ofUser row.user

instance (a : UserAttribute) : DecidableEq a.Value := match a with
  | .email => inferInstanceAs (DecidableEq String)
  | .externalId => inferInstanceAs (DecidableEq (Option String))
  | .displayName => inferInstanceAs (DecidableEq String)
  | .status => inferInstanceAs (DecidableEq UserStatus)

instance (p : UserAttribute → Prop) [DecidablePred p] : Decidable (∀ a, p a) :=
  decidable_of_iff (p .email ∧ p .externalId ∧ p .displayName ∧ p .status)
    ⟨fun h a => by cases a <;> tauto, fun h => ⟨h _, h _, h _, h _⟩⟩

theorem ofUser_scimUpdated (a : UserAttribute) (input : ScimUserUpdateInput) (verified : Bool)
    (row : UserWithPassword) : a.ofUser (scimUpdated input verified row).user = a.ofUpdate input := by
  cases a <;> rfl

theorem ofUpdate_scimUserUpdateInput (a : UserAttribute) (state : AppState) (userId : UserId)
    (input : ScimUserInput) (instant : OffsetDateTime) :
    a.ofUpdate (scimUserUpdateInput state userId input instant) = a.ofInput input := by
  cases a <;> rfl

theorem ofUser_statusUpdated (a : UserAttribute) (status : UserStatus) (instant : OffsetDateTime)
    (row : UserWithPassword) :
    a.ofUser (statusUpdated status instant row).user = (a.ofStatus status).getD (a.ofUser row.user) := by
  cases a <;> rfl

end UserAttribute

namespace ProvisioningTask

/-- The request is about the attribute of the user. -/
def TargetsUser (userId : UserId) (a : UserAttribute) : ProvisioningTask → Prop
  | .patchUser _ u payload => u = userId ∧ payload.Targets a
  | .deleteUser _ u => u = userId ∧ a = .status
  | .updateUserStatus _ u _ => u = userId ∧ a = .status
  | _ => False

instance (userId : UserId) (a : UserAttribute) (task : ProvisioningTask) :
    Decidable (task.TargetsUser userId a) := by
  unfold TargetsUser
  split <;> infer_instance

/-- What the request gives the attribute, having read the user as in `h`. -/
def Gives (state : AppState) (h : List Ev) (a : UserAttribute) (v : a.Value) :
    ProvisioningTask → Prop
  | .patchUser _ userId payload => ∃ found input,
      ⟨.db (.getUserWithPassword state.organizationId userId), .ok (some found)⟩ ∈ h ∧
        scimPatchUserInput found.user payload = .ok input ∧ v = a.ofInput input
  | .deleteUser _ _ => a.ofStatus .suspended = some v
  | .updateUserStatus _ _ status => a.ofStatus status = some v
  | _ => False

def wroteUser (userId : UserId) (a : UserAttribute) (task : ProvisioningTask) (ev : Ev) :
    Option (Option a.Value) :=
  if task.TargetsUser userId a ∧ applied ev = true then (a.written ev.1).map some else none

end ProvisioningTask

/-- A user that the call read. -/
def readUser (organizationId : OrganizationId) (userId : UserId) : Ev → Option User
  | ⟨.db (.getUserWithPassword o u), .ok (some found)⟩ =>
    if o = organizationId ∧ u = userId then some found.user else none
  | _ => none

/-- Attributes that a PATCH request has no operation on are, when it writes the
    user, what they were when it read the user. -/
def PatchesFreshUser (state : AppState)
    (p : Pool Call.Answer ProvisioningTask World ProvisioningError ProvisioningAnswer) :
    Label ProvisioningTask Choice → Prop
  | .spawn _ => True
  | .run i _ => match p.threads[i]? with
    | some ⟨.patchUser _ userId payload, .call (.db (.updateUserFromScim _)) _⟩ =>
      ∀ found ∈ (own i p.trace).filterMap (readUser state.organizationId userId),
        ∀ row ∈ p.world.store.tables .users, row.user.id = userId →
          ∀ a : UserAttribute, ¬ payload.Targets a → a.ofUser row.user = a.ofUser found
    | _ => True

instance (state : AppState)
    (p : Pool Call.Answer ProvisioningTask World ProvisioningError ProvisioningAnswer)
    (l : Label ProvisioningTask Choice) : Decidable (PatchesFreshUser state p l) := by
  unfold PatchesFreshUser
  split
  · infer_instance
  · split <;> infer_instance

variable {P : Primitives} {state : AppState} {w₀ w' : World}
  {p : Pool Call.Answer ProvisioningTask World ProvisioningError ProvisioningAnswer}

/-- What a status update makes of the attributes. -/
theorem inWorld_updateUserStatus {u userId : UserId} {status : UserStatus} {instant : OffsetDateTime}
    {s s' : Store} (h : UserRewritten state.organizationId u (statusUpdated status instant)
      s.tables s'.tables) (a : UserAttribute) {w w' : World} (hs : w.store = s) (hs' : w'.store = s') :
    a.inWorld userId w' =
      if u = userId then (a.inWorld userId w).map ((a.ofStatus status).getD ·)
      else a.inWorld userId w := by
  subst hs hs'
  unfold UserAttribute.inWorld
  split
  · rename_i hu
    subst hu
    obtain ⟨row, hrow, hrow'⟩ := h.find?_self fun _ => rfl
    rw [hrow, hrow', Option.map_some, Option.map_some, Option.map_some, a.ofUser_statusUpdated]
  · rename_i hu
    rw [h.find?_of_ne (fun _ => rfl) (Ne.symm hu)]

/-- Nothing but blanks around it: what a PATCH request leaves as it is. -/
def UserAttribute.Settled (a : UserAttribute) (v : Option a.Value) : Prop :=
  ∀ x, v = some x → a.normalize x = x

/-- A PATCH request writes what it gives to the attributes it is about and
    keeps the others. -/
theorem inWorld_patchUser {headers : RequestHeaders} {u userId : UserId}
    {payload : ScimPatchRequest} {h : List Ev} {c : DbCall} {a : UserAttribute} {w : World}
    {r : Except DatabaseError c.Result}
    (hwrites : (ProvisioningTask.patchUser headers u payload).Writes P state h c)
    (hfresh : ∀ found ∈ h.filterMap (readUser state.organizationId u),
      ∀ row ∈ w.store.tables .users, row.user.id = u →
        ∀ a : UserAttribute, ¬ payload.Targets a → a.ofUser row.user = a.ofUser found)
    (hexec : c.exec w.store = (r, w'.store)) :
    (applied ⟨.db c, r⟩ = true ∧ u = userId ∧ payload.Targets a ∧
      a.inWorld userId w' = a.written (.db c) ∧ a.Settled (a.written (.db c))) ∨
    ((applied ⟨.db c, r⟩ = true → ¬ (u = userId ∧ payload.Targets a)) ∧
      (a.Settled (a.inWorld userId w) → a.inWorld userId w' = a.inWorld userId w)) := by
  obtain ⟨found, input, instant, hread, hinput, rfl⟩ := hwrites
  obtain ⟨hsettled, hkept⟩ := scimPatchUserInput_eq_ok hinput a
  rcases exec_updateUserFromScim hexec with ⟨outcome, rfl, happ, verified, hrew⟩ | ⟨hnot, hs⟩
  · by_cases hu : u = userId
    · subst hu
      obtain ⟨row, hrow, hrow'⟩ := hrew.find?_self fun _ => rfl
      rw [show (scimUserUpdateInput state u input instant).userId = u from rfl] at hrow hrow'
      have hafter : a.inWorld u w' = some (a.ofInput input) := by
        unfold UserAttribute.inWorld
        rw [hrow', Option.map_some, a.ofUser_scimUpdated, a.ofUpdate_scimUserUpdateInput]
      by_cases htarget : payload.Targets a
      · refine .inl ⟨happ, rfl, htarget, ?_, ?_⟩
        · rw [hafter]
          exact congrArg some (a.ofUpdate_scimUserUpdateInput ..).symm
        · intro x hx
          cases hx
          rw [a.ofUpdate_scimUserUpdateInput]
          exact hsettled
      · refine .inr ⟨fun _ h => htarget h.2, fun hgood => ?_⟩
        have hbefore : a.inWorld u w = some (a.ofUser row.user) := by
          unfold UserAttribute.inWorld
          rw [hrow, Option.map_some]
        have hsame : a.ofUser row.user = a.ofUser found.user := by
          refine hfresh found.user ?_ row (List.mem_of_find?_eq_some hrow)
            (by simpa using List.find?_some hrow) a htarget
          exact List.mem_filterMap.mpr ⟨_, hread, by simp [readUser]⟩
        rw [hafter, hbefore, hkept htarget, ← hsame, hgood _ hbefore]
    · refine .inr ⟨fun _ h => hu h.1, fun _ => ?_⟩
      unfold UserAttribute.inWorld
      rw [hrew.find?_of_ne (fun _ => rfl) (Ne.symm hu)]
  · refine .inr ⟨fun happ => ?_, fun _ => ?_⟩
    · cases r with
      | error e => cases happ
      | ok outcome => exact absurd happ (hnot outcome rfl)
    · unfold UserAttribute.inWorld
      rw [hs]

/-- A request that sets the status writes it and keeps the other attributes. -/
theorem step_userStatus {task : ProvisioningTask} {u userId : UserId} {a : UserAttribute}
    {status : UserStatus} {slug : String} {instant : OffsetDateTime} {w : World}
    {r : Except DatabaseError UserStatusMutationOutcome}
    (htask : task.TargetsUser userId a = (u = userId ∧ a = .status))
    (hexec : (DbCall.updateUserStatus state.organizationId u status slug instant).exec w.store =
      (r, w'.store)) :
    (∃ v, task.wroteUser userId a ⟨.db (.updateUserStatus state.organizationId u status slug instant), r⟩ =
        some v ∧ a.inWorld userId w' = v ∧ a.Settled v) ∨
    (task.wroteUser userId a ⟨.db (.updateUserStatus state.organizationId u status slug instant), r⟩ =
        none ∧
      (a.Settled (a.inWorld userId w) → a.inWorld userId w' = a.inWorld userId w)) := by
  rcases exec_updateUserStatus hexec with ⟨outcome, rfl, happ, hrew⟩ | ⟨hnot, hs⟩
  · rw [inWorld_updateUserStatus hrew a rfl rfl]
    by_cases htarget : u = userId ∧ a = .status
    · obtain ⟨rfl, rfl⟩ := htarget
      obtain ⟨row, hrow, -⟩ := hrew.find?_self fun _ => rfl
      refine .inl ⟨some status, ?_, ?_, fun x _ => rfl⟩
      · rw [ProvisioningTask.wroteUser, if_pos ⟨htask ▸ ⟨rfl, rfl⟩, happ⟩]
        rfl
      · rw [if_pos rfl, UserAttribute.inWorld, hrow]
        rfl
    · refine .inr ⟨if_neg fun h => htarget (htask ▸ h.1), fun _ => ?_⟩
      split
      · rename_i hu
        have ha : a ≠ .status := fun ha => htarget ⟨hu, ha⟩
        cases a with
        | status => exact absurd rfl ha
        | email | externalId | displayName => exact Option.map_id'
      · rfl
  · refine .inr ⟨if_neg fun h => ?_, fun _ => by simp only [UserAttribute.inWorld, hs]⟩
    cases r with
    | error e => cases h.2
    | ok outcome => exact hnot outcome rfl h.2

/-- One step of a run either makes the write of a request that is about the
    attribute or keeps the attribute. -/
theorem step_userAttribute {i : ℕ} {ch : Choice} {task : ProvisioningTask} {e : Call}
    {k : e.Answer → Prog Call Call.Answer ProvisioningError ProvisioningAnswer} {r : e.Answer}
    (hr : (provisioningMachine P state).ReachableBy (PatchesFreshUser state) w₀ p)
    (hA : PatchesFreshUser state p (.run i ch)) (ht : p.threads[i]? = some ⟨task, .call e k⟩)
    (hx : Call.exec P e ch p.world = some (r, w')) (userId : UserId) (a : UserAttribute) :
    (∃ v, task.wroteUser userId a ⟨e, r⟩ = some v ∧ a.inWorld userId w' = v ∧ a.Settled v) ∨
    (task.wroteUser userId a ⟨e, r⟩ = none ∧
      (a.Settled (a.inWorld userId p.world) → a.inWorld userId w' = a.inWorld userId p.world)) := by
  have hnot : ∀ {task : ProvisioningTask}, applied ⟨e, r⟩ = false →
      task.wroteUser userId a ⟨e, r⟩ = none := by
    intro task h
    simp [ProvisioningTask.wroteUser, h]
  have hleaves : e.Leaves .users → a.inWorld userId w' = a.inWorld userId p.world := by
    intro h
    simp only [UserAttribute.inWorld, h.exec hx]
  rcases (hr.reachable.sat sat_provisioning ht).1 with haside | ⟨c, rfl, hwrites⟩
  · exact .inr ⟨hnot (not_applied_of_aside haside r), fun _ => hleaves (haside.leaves nofun)⟩
  obtain ⟨-, -, ⟨herr, hs⟩ | hexec⟩ := Call.exec_db hx
  · refine .inr ⟨hnot ?_, fun _ => by simp only [UserAttribute.inWorld, hs]⟩
    rw [herr]
    exact applied_error c _
  cases task with
  | patchUser headers u payload =>
    have hfresh : ∀ found ∈ (own i p.trace).filterMap (readUser state.organizationId u),
        ∀ row ∈ p.world.store.tables .users, row.user.id = u →
          ∀ a : UserAttribute, ¬ payload.Targets a → a.ofUser row.user = a.ofUser found := by
      obtain ⟨_, _, _, -, -, rfl⟩ := id hwrites
      simpa only [PatchesFreshUser, ht] using hA
    have hinWorld : (applied ⟨.db c, r⟩ = true ∧ u = userId ∧ payload.Targets a ∧
        a.inWorld userId w' = a.written (.db c) ∧ a.Settled (a.written (.db c))) ∨
        ((applied ⟨.db c, r⟩ = true → ¬ (u = userId ∧ payload.Targets a)) ∧
          (a.Settled (a.inWorld userId p.world) →
            a.inWorld userId w' = a.inWorld userId p.world)) :=
      inWorld_patchUser hwrites hfresh hexec
    rcases hinWorld with ⟨happ, hu, htarget, hafter, hsettled⟩ | ⟨hne, hkeep⟩
    · refine .inl ⟨a.written (.db c), ?_, hafter, hsettled⟩
      obtain ⟨_, _, _, -, -, rfl⟩ := id hwrites
      rw [ProvisioningTask.wroteUser, if_pos ⟨⟨hu, htarget⟩, happ⟩]
      rfl
    · refine .inr ⟨if_neg fun h => hne h.2 h.1, hkeep⟩
  | deleteUser headers u =>
    obtain ⟨instant, rfl⟩ := hwrites
    exact step_userStatus rfl hexec
  | updateUserStatus headers u status =>
    obtain ⟨instant, rfl⟩ := hwrites
    exact step_userStatus rfl hexec
  | patchGroup headers g payload =>
    obtain ⟨_, _, _, _, -, -, -, rfl⟩ := hwrites
    refine .inr ⟨by simp [ProvisioningTask.wroteUser, ProvisioningTask.TargetsUser], fun _ => ?_⟩
    exact hleaves (Call.leaves_of_target (leavesUsers_replaceScimGroup _))
  | upsertGroupMembership headers g u role =>
    obtain ⟨_, rfl⟩ := hwrites
    refine .inr ⟨by simp [ProvisioningTask.wroteUser, ProvisioningTask.TargetsUser], fun _ => ?_⟩
    exact hleaves (Call.leaves_of_target (leavesUsers_upsertGroupMembership _ _))
  | deleteGroupMembership headers g u =>
    have hc : c = .deleteGroupMembership state.organizationId g u administratorsGroupSlug := hwrites
    subst hc
    refine .inr ⟨by simp [ProvisioningTask.wroteUser, ProvisioningTask.TargetsUser], fun _ => ?_⟩
    exact hleaves (Call.leaves_of_target (leavesUsers_deleteGroupMembership _ _ _ _))

/-- Every attribute that exactly one of the requests is about has the value that
    this request gave it, once all requests have succeeded. -/
def UsersKeepWhatWasGiven (state : AppState)
    (p : Pool Call.Answer ProvisioningTask World ProvisioningError ProvisioningAnswer) : Prop :=
  (∀ t ∈ p.threads, ∃ answer, t.outcome = some (.ok answer)) →
    ∀ (i : ℕ) (t : Thread Call.Answer ProvisioningTask ProvisioningError ProvisioningAnswer)
      (userId : UserId) (a : UserAttribute), p.threads[i]? = some t →
      t.request.TargetsUser userId a →
      (∀ (j : ℕ) (t' : Thread Call.Answer ProvisioningTask ProvisioningError ProvisioningAnswer),
        p.threads[j]? = some t' → t'.request.TargetsUser userId a → j = i) →
      ∃ row ∈ p.world.store.tables .users, row.user.id = userId ∧
        t.request.Gives state (own i p.trace) a (a.ofUser row.user)

/-- The write of a request that is about an attribute writes the attribute, with
    the value that the request gives. -/
theorem wroteUser_eq_some {task : ProvisioningTask} {h : List Ev} {c : DbCall}
    {r : Call.Answer (.db c)} {userId : UserId} {a : UserAttribute}
    (hwrites : task.Writes P state h c) (htarget : task.TargetsUser userId a)
    (happ : applied ⟨.db c, r⟩ = true) :
    ∃ v, task.wroteUser userId a ⟨.db c, r⟩ = some (some v) ∧ task.Gives state h a v := by
  rw [ProvisioningTask.wroteUser, if_pos ⟨htarget, happ⟩]
  cases task with
  | patchUser headers u payload =>
    obtain ⟨found, input, instant, hread, hinput, rfl⟩ := hwrites
    exact ⟨a.ofInput input, by rw [← a.ofUpdate_scimUserUpdateInput]; rfl, found, input, hread,
      hinput, rfl⟩
  | deleteUser headers u =>
    obtain ⟨instant, rfl⟩ := hwrites
    obtain ⟨rfl, rfl⟩ := htarget
    exact ⟨.suspended, rfl, rfl⟩
  | updateUserStatus headers u status =>
    obtain ⟨instant, rfl⟩ := hwrites
    obtain ⟨rfl, rfl⟩ := htarget
    exact ⟨status, rfl, rfl⟩
  | patchGroup | upsertGroupMembership | deleteGroupMembership => cases htarget

theorem ProvisioningTask.Gives.mono {task : ProvisioningTask} {h h' : List Ev} {a : UserAttribute} {v : a.Value}
    (hg : task.Gives state h a v) (hsub : h ⊆ h') : task.Gives state h' a v := by
  cases task with
  | patchUser headers u payload =>
    obtain ⟨found, input, hread, hrest⟩ := hg
    exact ⟨found, input, hsub hread, hrest⟩
  | _ => exact hg

/-- **Users keep what requests gave them**: in every run in which a PATCH request
    never writes back an attribute that has changed since it read the user. -/
theorem users_keep_what_was_given
    (h : (provisioningMachine P state).ReachableBy (PatchesFreshUser state) w₀ p) :
    UsersKeepWhatWasGiven state p := by
  intro hall i t userId a ht htarget honly
  obtain ⟨answer, ho⟩ := hall t (List.mem_of_getElem? ht)
  -- the request has made its write, so there is a last write
  obtain ⟨ev, hev, happ⟩ := h.reachable.post_of_outcome sat_provisioning ht ho
  obtain ⟨t', h₀, c, ht', -, hc, hwrites⟩ := writes_of_applied h.reachable hev happ
  rw [ht] at ht'
  cases ht'
  obtain ⟨e, r⟩ := ev
  dsimp only at hc
  subst hc
  obtain ⟨v, hwrote, -⟩ := wroteUser_eq_some hwrites htarget happ
  obtain ⟨last, hlast⟩ := Option.isSome_iff_exists.mp (Pool.lastWrite_isSome ht hev hwrote)
  -- no other request is about the attribute, so the last write is one of its own
  obtain ⟨j, t', ⟨e', r'⟩, ht', hev', hwrote'⟩ := Pool.lastWrite_eq_some hlast
  have hcond : t'.request.TargetsUser userId a ∧ applied ⟨e', r'⟩ = true := by
    by_contra hneg
    rw [ProvisioningTask.wroteUser, if_neg hneg] at hwrote'
    cases hwrote'
  obtain rfl := honly j t' ht' hcond.1
  rw [ht] at ht'
  cases ht'
  obtain ⟨t', h₀, c', ht', hsub, hc, hwrites'⟩ := writes_of_applied h.reachable hev' hcond.2
  rw [ht] at ht'
  cases ht'
  dsimp only at hc
  subst hc
  obtain ⟨v', hv', hgives⟩ := wroteUser_eq_some hwrites' htarget hcond.2
  rw [hwrote'] at hv'
  cases hv'
  -- and the attribute is what was written last
  have hget : a.inWorld userId p.world = some v' := by
    refine ((h.lastWrite_eq (a.inWorld userId) (ProvisioningTask.wroteUser userId a) a.Settled
      ?_).1 _ hlast).1
    intro p i ch task e k r w' hr hA ht hx
    exact step_userAttribute hr hA ht hx userId a
  obtain ⟨row, hrow, rfl⟩ := Option.map_eq_some_iff.mp hget
  exact ⟨row, List.mem_of_find?_eq_some hrow, by simpa using List.find?_some hrow,
    hgives.mono hsub⟩

namespace Sample

def tenantTables : Db
  | .organizations => [organization]
  | .users => [⟨user, none⟩]
  | _ => []

/-- An organization with one active user. -/
def tenant : World where
  store := ⟨tenantTables, fun t => by cases t <;> decide⟩
  clock := 0
  uuids := []

def noHeaders : RequestHeaders := ⟨none, none, none, none⟩

def displayNamePatch : ScimPatchRequest :=
  ⟨[scimPatchOpSchema], [⟨"replace", some "displayName", some (.string "Grace")⟩]⟩

/-- Thread 0 changes the display name, thread 1 deletes the user. -/
def renameAndDelete : List (Label ProvisioningTask Choice) :=
  [.spawn (.patchUser noHeaders 2 displayNamePatch), .spawn (.deleteUser noHeaders 2)]

/-- The clock, the write and the audit event. -/
def finishing (i uuid : ℕ) : List (Label ProvisioningTask Choice) :=
  [.run i {}, .run i {}, .run i { uuid := uuid }, .run i {}, .run i {}]

/-- The deletion falls between the read and the write of the other request. -/
def overtaken : List (Label ProvisioningTask Choice) :=
  renameAndDelete ++ .run 0 {} :: (finishing 1 50 ++ finishing 0 51)

def inTurn : List (Label ProvisioningTask Choice) :=
  renameAndDelete ++ finishing 1 50 ++ .run 0 {} :: finishing 0 51

/-- What a pool shows of the user and the threads. -/
def shown (p : Pool Call.Answer ProvisioningTask World ProvisioningError ProvisioningAnswer) :
    List (String × UserStatus) × List (Option Bool) :=
  ((p.world.store.tables .users).map fun row => (row.user.displayName, row.user.status),
    p.threads.map fun t => t.outcome.map (·.isOk))

end Sample

open Sample in
/-- The deletion first, then the new name. -/
theorem users_keep_what_was_given_in_turn : ∃ p,
    (provisioningMachine primitives appState).run (Machine.start tenant) inTurn = some p ∧
      shown p = ([("Grace", .suspended)], [some true, some true]) ∧
      UsersKeepWhatWasGiven appState p := by
  have hrun : ((provisioningMachine primitives appState).runBy (PatchesFreshUser appState)
      (Machine.start tenant) inTurn).map shown = some ([("Grace", .suspended)],
        [some true, some true]) := by
    decide
  obtain ⟨p, hp, hshown⟩ := Option.map_eq_some_iff.mp hrun
  exact ⟨p, Machine.run_of_runBy hp, hshown, users_keep_what_was_given (.runBy .start hp)⟩

open Sample in
/-- Both requests succeed, and the deleted user is active. -/
theorem deleted_user_active_again : ∃ p,
    (provisioningMachine primitives appState).run (Machine.start tenant) overtaken = some p ∧
      shown p = ([("Grace", .active)], [some true, some true]) ∧
      ¬ UsersKeepWhatWasGiven appState p := by
  have hrun : ((provisioningMachine primitives appState).run (Machine.start tenant) overtaken).map
      shown = some ([("Grace", .active)], [some true, some true]) := by
    decide
  obtain ⟨p, hp, hshown⟩ := Option.map_eq_some_iff.mp hrun
  refine ⟨p, hp, hshown, fun hkept => ?_⟩
  have hrequests : p.threads.map Thread.request =
      [.patchUser noHeaders 2 displayNamePatch, .deleteUser noHeaders 2] := Machine.run_requests hp
  obtain ⟨t₀, rest, hthreads, hrename, hrest⟩ := List.map_eq_cons_iff.mp hrequests
  obtain ⟨t₁, rest, rfl, hdelete, hrest⟩ := List.map_eq_cons_iff.mp hrest
  obtain rfl := List.map_eq_nil_iff.mp hrest
  have houtcomes : p.threads.map (fun t => t.outcome.map (·.isOk)) = [some true, some true] :=
    congrArg Prod.snd hshown
  have husers : (p.world.store.tables .users).map
      (fun row => (row.user.displayName, row.user.status)) = [("Grace", .active)] :=
    congrArg Prod.fst hshown
  have hdone := Thread.exists_outcome_ok (l := p.threads) (by simp [houtcomes])
  obtain ⟨row, hrow, -, hgives⟩ := hkept hdone 1 t₁ 2 .status (by simp [hthreads])
    (by rw [hdelete]; exact ⟨rfl, rfl⟩) (fun j t ht htarget => by
      match j, hthreads ▸ ht with
      | 0, ht =>
        cases ht
        rw [hrename] at htarget
        exact absurd htarget (by decide)
      | 1, _ => rfl)
  rw [hdelete] at hgives
  have hactive := List.mem_map_of_mem (f := fun row => (row.user.displayName, row.user.status)) hrow
  have hsuspended : some UserStatus.suspended = some row.user.status := hgives
  rw [husers, ← Option.some.inj hsuspended] at hactive
  simp at hactive

end CairnId
