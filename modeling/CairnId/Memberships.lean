import CairnId.Database.Memberships
import CairnId.Provisioning

/-!
# Group changes side by side

A PATCH request for a group reads the list of its members, edits the list and
replaces the members in a later step. In runs where the users that it neither adds
nor removes are members, at that step, as they were in its list, no request undoes
what another has done.
-/

namespace CairnId

open Concurrency Concurrency.Sql Prog Database

namespace ProvisioningTask

variable (P : Primitives) (groupId : GroupId) (userId : UserId)

/-- The request adds the user to the group. -/
def Adds : ProvisioningTask → Prop
  | .patchGroup _ g payload => g = groupId ∧ userId ∈ payload.added P
  | .upsertGroupMembership _ g u _ => g = groupId ∧ u = userId
  | _ => False

/-- The request removes the user from the group. -/
def Removes : ProvisioningTask → Prop
  | .patchGroup _ g payload => g = groupId ∧ userId ∈ payload.removed P
  | .deleteGroupMembership _ g u => g = groupId ∧ u = userId
  | _ => False

instance (task : ProvisioningTask) : Decidable (task.Adds P groupId userId) := by
  unfold Adds
  split <;> infer_instance

instance (task : ProvisioningTask) : Decidable (task.Removes P groupId userId) := by
  unfold Removes
  split <;> infer_instance

/-- PATCH requests for the group add members and remove filtered members; they do
    not replace or clear the list. -/
def Incremental : ProvisioningTask → Prop
  | .patchGroup _ g payload => g = groupId → payload.Incremental P
  | _ => True

end ProvisioningTask

/-- Whether the user of the call is a member after it. -/
def writtenMember (userId : UserId) : Call → Option Bool
  | .db (.replaceScimGroup input) => some (decide (userId ∈ input.memberUserIds))
  | .db (.upsertGroupMembership _ _) => some true
  | .db (.deleteGroupMembership _ _ _ _) => some false
  | _ => none

def ProvisioningTask.wroteMember (P : Primitives) (groupId : GroupId) (userId : UserId)
    (task : ProvisioningTask) (ev : Ev) : Option Bool :=
  if (task.Adds P groupId userId ∨ task.Removes P groupId userId) ∧ applied ev = true then
    writtenMember userId ev.1
  else none

/-- The members that the call read. -/
def readMembers : Ev → Option (List UserId)
  | ⟨.db (.listScimGroupMembersForGroups _ _), .ok members⟩ => some (members.map (·.userId))
  | _ => none

/-- Users that the request neither adds nor removes are members as in the list. -/
def FreshMembers (P : Primitives) (organizationId : OrganizationId) (groupId : GroupId)
    (payload : ScimPatchRequest) (db : Db) (read : List UserId) : Prop :=
  ∀ u ∈ read ++ (db .memberships).map (·.userId), u ∉ payload.added P → u ∉ payload.removed P →
    (u ∈ read ↔ IsMember organizationId groupId u db)

instance (P : Primitives) (o : OrganizationId) (g : GroupId) (payload : ScimPatchRequest) (db : Db)
    (read : List UserId) : Decidable (FreshMembers P o g payload db read) :=
  List.decidableBAll _ _

/-- Users that a PATCH request neither adds nor removes are members, when it
    replaces the members, as they were in the list that it read. -/
def PatchesFreshMembers (P : Primitives) (state : AppState)
    (p : Pool Call.Answer ProvisioningTask World ProvisioningError ProvisioningAnswer) :
    Label ProvisioningTask Choice → Prop
  | .spawn _ => True
  | .run i _ => match p.threads[i]? with
    | some ⟨.patchGroup _ groupId payload, .call (.db (.replaceScimGroup _)) _⟩ =>
      ∀ read ∈ (own i p.trace).filterMap readMembers,
        FreshMembers P state.organizationId groupId payload p.world.store.tables read
    | _ => True

def patchesFreshMembers (P : Primitives) (state : AppState)
    (p : Pool Call.Answer ProvisioningTask World ProvisioningError ProvisioningAnswer) :
    Label ProvisioningTask Choice → Bool
  | .spawn _ => true
  | .run i _ => match p.threads[i]? with
    | some ⟨.patchGroup _ groupId payload, .call (.db (.replaceScimGroup _)) _⟩ =>
      ((own i p.trace).filterMap readMembers).all fun read =>
        FreshMembers P state.organizationId groupId payload p.world.store.tables read
    | _ => true

theorem patchesFreshMembers_eq_true_iff {P : Primitives} {state : AppState}
    {p : Pool Call.Answer ProvisioningTask World ProvisioningError ProvisioningAnswer}
    {l : Label ProvisioningTask Choice} :
    patchesFreshMembers P state p l = true ↔ PatchesFreshMembers P state p l := by
  unfold patchesFreshMembers PatchesFreshMembers
  split
  · exact iff_of_true rfl trivial
  · split
    · simp only [List.all_eq_true, decide_eq_true_eq]
    · exact iff_of_true rfl trivial

instance (P : Primitives) (state : AppState)
    (p : Pool Call.Answer ProvisioningTask World ProvisioningError ProvisioningAnswer)
    (l : Label ProvisioningTask Choice) : Decidable (PatchesFreshMembers P state p l) :=
  decidable_of_iff _ patchesFreshMembers_eq_true_iff

variable {P : Primitives} {state : AppState} {w₀ w' : World}
  {p : Pool Call.Answer ProvisioningTask World ProvisioningError ProvisioningAnswer}

theorem keepsRefs_of_writes {task : ProvisioningTask} {h : List Ev} {c : DbCall}
    (hwrites : task.Writes P state h c) : c.tx.All Database.KeepsRefs := by
  cases task with
  | patchUser =>
    obtain ⟨_, _, _, -, -, rfl⟩ := hwrites
    exact keepsRefs_updateUserFromScim _
  | deleteUser | updateUserStatus =>
    obtain ⟨_, rfl⟩ := hwrites
    exact keepsRefs_updateUserStatus ..
  | patchGroup =>
    obtain ⟨_, _, _, _, -, -, -, rfl⟩ := hwrites
    exact keepsRefs_replaceScimGroup _
  | upsertGroupMembership =>
    obtain ⟨_, rfl⟩ := hwrites
    exact keepsRefs_upsertGroupMembership ..
  | deleteGroupMembership headers groupId userId =>
    have hc : c = .deleteGroupMembership state.organizationId groupId userId
      administratorsGroupSlug := hwrites
    subst hc
    exact keepsRefs_deleteGroupMembership ..

/-- The foreign keys of memberships hold in every run. -/
theorem refers_of_reachable (hrefers : schema.Refers .memberships w₀.store.tables)
    (h : (provisioningMachine P state).Reachable w₀ p) :
    schema.Refers .memberships p.world.store.tables := by
  refine h.invariant sat_provisioning
    (fun w _ => schema.Refers .memberships w.store.tables) hrefers ?_
  intro p i task e ch r w' _ hinv hpre hx
  replace hx : Call.exec P e ch p.world = some (r, w') := hx
  have hquiet : e.isQuiet = true → schema.Refers .memberships w'.store.tables := by
    intro hquiet
    rwa [Call.exec_of_isQuiet hquiet hx]
  have hwrite : ∀ c, e = .db c → c.tx.All Database.KeepsRefs →
      schema.Refers .memberships w'.store.tables := by
    rintro c rfl hc
    obtain ⟨-, -, ⟨-, hs⟩ | hexec⟩ := Call.exec_db hx
    · rwa [hs]
    · exact Tx.atomic_refers hc hexec hinv
  rcases hpre with (hq | ⟨event, rfl⟩) | ⟨c, rfl, hwrites⟩
  · exact hquiet hq
  · exact hwrite _ rfl (.bind (.perform trivial) fun _ => .ret _)
  · exact hwrite c rfl (keepsRefs_of_writes hwrites)

/-- The request has a write of the member, or the member is left alone. -/
def MemberStep (P : Primitives) (state : AppState) (groupId : GroupId) (userId : UserId)
    (task : ProvisioningTask) (ev : Ev) (w w' : World) : Prop :=
  (∃ v, task.wroteMember P groupId userId ev = some v ∧
    decide (IsMember state.organizationId groupId userId w'.store.tables) = v) ∨
  (task.wroteMember P groupId userId ev = none ∧
    (IsMember state.organizationId groupId userId w'.store.tables ↔
      IsMember state.organizationId groupId userId w.store.tables))

section steps

variable {groupId : GroupId} {userId : UserId} {w : World} {h : List Ev} {c : DbCall}
  {r : Except DatabaseError c.Result}

theorem memberStep_of_not_applied {task : ProvisioningTask} {ev : Ev} (hnot : applied ev = false)
    (hs : w'.store.tables .memberships = w.store.tables .memberships) :
    MemberStep P state groupId userId task ev w w' :=
  .inr ⟨by simp [ProvisioningTask.wroteMember, hnot], IsMember.congr hs ..⟩

theorem applied_replaceScimGroup {input : ScimGroupReplaceInput} {outcome : ScimGroupMutationOutcome}
    (h : outcome.isApplied = true) : applied ⟨.db (.replaceScimGroup input), .ok outcome⟩ = true := by
  cases outcome <;> first | rfl | cases h

theorem memberStep_patchGroup {headers : RequestHeaders} {g : GroupId} {payload : ScimPatchRequest}
    (hinc : (ProvisioningTask.patchGroup headers g payload).Incremental P groupId)
    (hrefers : schema.Refers .memberships w.store.tables)
    (hwrites : (ProvisioningTask.patchGroup headers g payload).Writes P state h c)
    (hfresh : ∀ read ∈ h.filterMap readMembers,
      FreshMembers P state.organizationId g payload w.store.tables read)
    (hexec : c.exec w.store = (r, w'.store)) :
    MemberStep P state groupId userId (.patchGroup headers g payload) ⟨.db c, r⟩ w w' := by
  obtain ⟨group, members, input, instant, -, hread, hinput, rfl⟩ := hwrites
  rcases exec_replaceScimGroup hrefers hexec with ⟨outcome, rfl, happ, heffect⟩ | ⟨hnot, hs⟩
  · by_cases hg : g = groupId
    · subst hg
      have hafter : IsMember state.organizationId g userId w'.store.tables ↔
          userId ∈ input.memberUserIds := by
        rw [heffect, if_pos ⟨rfl, rfl⟩]
        rfl
      by_cases htarget : userId ∈ payload.added P ∨ userId ∈ payload.removed P
      · refine .inl ⟨decide (userId ∈ input.memberUserIds), ?_, decide_eq_decide.mpr hafter⟩
        rw [ProvisioningTask.wroteMember, if_pos]
        · rfl
        · exact ⟨htarget.imp (⟨rfl, ·⟩) (⟨rfl, ·⟩), applied_replaceScimGroup happ⟩
      · -- the user is in the new list if it was in the list that was read
        obtain ⟨hadded, hremoved⟩ := not_or.mp htarget
        refine .inr ⟨if_neg fun h => htarget (h.1.imp And.right And.right), ?_⟩
        rw [hafter, (scimPatchGroupInput_eq_ok (hinc rfl) hinput userId).1 hremoved,
          or_iff_left hadded]
        have hmem : members.map (·.userId) ∈ h.filterMap readMembers :=
          List.mem_filterMap.mpr ⟨_, hread, rfl⟩
        by_cases hu : userId ∈ members.map (·.userId) ++
            (w.store.tables .memberships).map (·.userId)
        · exact hfresh _ hmem userId hu hadded hremoved
        · rw [List.mem_append, not_or] at hu
          refine iff_of_false hu.1 ?_
          rintro ⟨m, hm, -, -, rfl⟩
          exact hu.2 (List.mem_map_of_mem hm)
    · refine .inr ⟨if_neg ?_, ?_⟩
      · rintro ⟨hadds | hremoves, -⟩
        · exact hg hadds.1
        · exact hg hremoves.1
      · rw [heffect, if_neg]
        exact fun hsame => hg hsame.2
  · refine memberStep_of_not_applied ?_ (by rw [hs])
    cases r with
    | error e => rfl
    | ok outcome =>
      have := hnot outcome rfl
      cases outcome <;> first | rfl | exact absurd rfl this

theorem memberStep_upsert {headers : RequestHeaders} {g : GroupId} {u : UserId}
    {role : MembershipRole} (hrefers : schema.Refers .memberships w.store.tables)
    (hwrites : (ProvisioningTask.upsertGroupMembership headers g u role).Writes P state h c)
    (hexec : c.exec w.store = (r, w'.store)) :
    MemberStep P state groupId userId (.upsertGroupMembership headers g u role) ⟨.db c, r⟩ w w' := by
  obtain ⟨createdAt, rfl⟩ := hwrites
  rcases exec_upsertGroupMembership hrefers hexec with ⟨outcome, rfl, rfl, heffect⟩ | ⟨hnot, hs⟩
  · by_cases htarget : g = groupId ∧ u = userId
    · obtain ⟨rfl, rfl⟩ := htarget
      refine .inl ⟨true, if_pos ⟨.inl ⟨rfl, rfl⟩, rfl⟩, decide_eq_true ?_⟩
      exact (heffect ..).mpr (.inr ⟨rfl, rfl, rfl⟩)
    · refine .inr ⟨if_neg ?_, ?_⟩
      · rintro ⟨hadds | hremoves, -⟩
        · exact htarget hadds
        · exact hremoves
      · rw [heffect, or_iff_left fun hsame => htarget hsame.2]
  · refine memberStep_of_not_applied ?_ (by rw [hs])
    cases r with
    | error e => rfl
    | ok outcome =>
      have := hnot outcome rfl
      cases outcome <;> first | rfl | exact absurd rfl this

theorem memberStep_delete {headers : RequestHeaders} {g : GroupId} {u : UserId}
    (hwrites : (ProvisioningTask.deleteGroupMembership headers g u).Writes P state h c)
    (hexec : c.exec w.store = (r, w'.store)) :
    MemberStep P state groupId userId (.deleteGroupMembership headers g u) ⟨.db c, r⟩ w w' := by
  have hc : c = .deleteGroupMembership state.organizationId g u administratorsGroupSlug := hwrites
  subst hc
  rcases exec_deleteGroupMembership hexec with ⟨outcome, rfl, rfl, heffect⟩ | ⟨hnot, hs⟩
  · by_cases htarget : g = groupId ∧ u = userId
    · obtain ⟨rfl, rfl⟩ := htarget
      refine .inl ⟨false, if_pos ⟨.inr ⟨rfl, rfl⟩, rfl⟩, decide_eq_false ?_⟩
      exact fun hmember => ((heffect ..).mp hmember).2 ⟨rfl, rfl, rfl⟩
    · refine .inr ⟨if_neg ?_, ?_⟩
      · rintro ⟨hadds | hremoves, -⟩
        · exact hadds
        · exact htarget hremoves
      · rw [heffect, and_iff_left fun hsame => htarget hsame.2]
  · refine memberStep_of_not_applied ?_ (by rw [hs])
    cases r with
    | error e => rfl
    | ok outcome =>
      have := hnot outcome rfl
      cases outcome <;> first | rfl | exact absurd rfl this

end steps

/-- One step of a run either makes the write of a request that is about the member
    or leaves the member alone. -/
theorem step_member {groupId : GroupId} (hrefers : schema.Refers .memberships w₀.store.tables)
    {i : ℕ} {ch : Choice} {task : ProvisioningTask} {e : Call}
    {k : e.Answer → Prog Call Call.Answer ProvisioningError ProvisioningAnswer} {r : e.Answer}
    (hr : (provisioningMachine P state).Reachable w₀ p)
    (hinc : task.Incremental P groupId) (hA : PatchesFreshMembers P state p (.run i ch))
    (ht : p.threads[i]? = some ⟨task, .call e k⟩)
    (hx : Call.exec P e ch p.world = some (r, w')) (userId : UserId) :
    MemberStep P state groupId userId task ⟨e, r⟩ p.world w' := by
  have hnow := refers_of_reachable hrefers hr
  rcases (hr.sat sat_provisioning ht).1 with haside | ⟨c, rfl, hwrites⟩
  · refine memberStep_of_not_applied (not_applied_of_aside haside r) (Call.Leaves.exec ?_ hx)
    exact haside.leaves nofun
  obtain ⟨-, -, ⟨herr, hs⟩ | hexec⟩ := Call.exec_db hx
  · refine memberStep_of_not_applied ?_ (by rw [hs])
    rw [herr]
    exact applied_error c _
  cases task with
  | patchUser =>
    obtain ⟨_, _, _, -, -, rfl⟩ := hwrites
    refine .inr ⟨by simp [ProvisioningTask.wroteMember, ProvisioningTask.Adds,
      ProvisioningTask.Removes], IsMember.congr (Call.Leaves.exec ?_ hx) ..⟩
    exact Call.leaves_of_target (leavesMemberships_updateUserFromScim _)
  | deleteUser | updateUserStatus =>
    obtain ⟨_, rfl⟩ := hwrites
    refine .inr ⟨by simp [ProvisioningTask.wroteMember, ProvisioningTask.Adds,
      ProvisioningTask.Removes], IsMember.congr (Call.Leaves.exec ?_ hx) ..⟩
    exact Call.leaves_of_target (leavesMemberships_updateUserStatus ..)
  | patchGroup headers g payload =>
    refine memberStep_patchGroup hinc hnow hwrites ?_ hexec
    obtain ⟨_, _, _, _, -, -, -, rfl⟩ := id hwrites
    simpa only [PatchesFreshMembers, ht] using hA
  | upsertGroupMembership => exact memberStep_upsert hnow hwrites hexec
  | deleteGroupMembership => exact memberStep_delete hwrites hexec

/-- Once all requests have succeeded, a user that some request added and none
    removed is a member, a user that some request removed and none added is not, and
    a user that no request is about is a member as before. -/
def MembersKept (P : Primitives) (state : AppState) (groupId : GroupId) (w₀ : World)
    (p : Pool Call.Answer ProvisioningTask World ProvisioningError ProvisioningAnswer) : Prop :=
  (∀ t ∈ p.threads, ∃ answer, t.outcome = some (.ok answer)) → ∀ userId : UserId,
    ((∃ t ∈ p.threads, t.request.Adds P groupId userId) →
      (∀ t ∈ p.threads, ¬ t.request.Removes P groupId userId) →
      IsMember state.organizationId groupId userId p.world.store.tables) ∧
    ((∃ t ∈ p.threads, t.request.Removes P groupId userId) →
      (∀ t ∈ p.threads, ¬ t.request.Adds P groupId userId) →
      ¬ IsMember state.organizationId groupId userId p.world.store.tables) ∧
    ((∀ t ∈ p.threads, ¬ t.request.Adds P groupId userId ∧ ¬ t.request.Removes P groupId userId) →
      (IsMember state.organizationId groupId userId p.world.store.tables ↔
        IsMember state.organizationId groupId userId w₀.store.tables))

/-- The write of a request that is about a member. -/
theorem wroteMember_of_writes {groupId : GroupId} {userId : UserId} {task : ProvisioningTask}
    {h : List Ev} {c : DbCall} {r : Call.Answer (.db c)} (hinc : task.Incremental P groupId)
    (hwrites : task.Writes P state h c) (happ : applied ⟨.db c, r⟩ = true)
    (habout : task.Adds P groupId userId ∨ task.Removes P groupId userId) :
    ∃ v, task.wroteMember P groupId userId ⟨.db c, r⟩ = some v ∧
      (¬ task.Removes P groupId userId → v = true) ∧ (¬ task.Adds P groupId userId → v = false) := by
  rw [ProvisioningTask.wroteMember, if_pos ⟨habout, happ⟩]
  cases task with
  | patchGroup headers g payload =>
    obtain ⟨group, members, input, instant, -, -, hinput, rfl⟩ := hwrites
    obtain rfl : g = groupId := habout.elim And.left And.left
    have hinput := scimPatchGroupInput_eq_ok (hinc rfl) hinput userId
    refine ⟨decide (userId ∈ input.memberUserIds), rfl, fun hnot => ?_, fun hnot => ?_⟩
    · have hkept : userId ∉ payload.removed P := fun hu => hnot ⟨rfl, hu⟩
      have hadds := habout.resolve_right hnot
      exact decide_eq_true ((hinput.1 hkept).mpr (.inr hadds.2))
    · have hkept : userId ∉ payload.added P := fun hu => hnot ⟨rfl, hu⟩
      have hremoves := habout.resolve_left hnot
      exact decide_eq_false fun hmem => ((hinput.2 hkept).mp hmem).2 hremoves.2
  | upsertGroupMembership headers g u role =>
    obtain ⟨_, rfl⟩ := hwrites
    exact ⟨true, rfl, fun _ => rfl, fun hnot => absurd (habout.resolve_right id) hnot⟩
  | deleteGroupMembership headers g u =>
    have hc : c = .deleteGroupMembership state.organizationId g u administratorsGroupSlug := hwrites
    subst hc
    exact ⟨false, rfl, fun hnot => absurd (habout.resolve_left id) hnot, fun _ => rfl⟩
  | patchUser | deleteUser | updateUserStatus => exact absurd habout (by rintro (h | h) <;> cases h)

/-- A request that is about a member has made its write once it has succeeded. -/
theorem lastWrite_isSome_of_about {groupId : GroupId} {userId : UserId}
    (h : (provisioningMachine P state).Reachable w₀ p)
    (hinc : ∀ t ∈ p.threads, t.request.Incremental P groupId)
    (hall : ∀ t ∈ p.threads, ∃ answer, t.outcome = some (.ok answer))
    (habout : ∃ t ∈ p.threads, t.request.Adds P groupId userId ∨ t.request.Removes P groupId userId) :
    ∃ v, p.lastWrite (ProvisioningTask.wroteMember P groupId userId) = some v := by
  obtain ⟨t, hmem, habout⟩ := habout
  obtain ⟨i, ht⟩ := List.mem_iff_getElem?.mp hmem
  obtain ⟨answer, ho⟩ := hall t hmem
  obtain ⟨⟨e, r⟩, hev, happ⟩ := h.post_of_outcome sat_provisioning ht ho
  obtain ⟨t', h₀, c, ht', -, hc, hwrites⟩ := writes_of_applied h hev happ
  rw [ht] at ht'
  cases ht'
  dsimp only at hc
  subst hc
  obtain ⟨v, hwrote, -⟩ := wroteMember_of_writes (hinc t hmem) hwrites happ habout
  exact Option.isSome_iff_exists.mp (Pool.lastWrite_isSome ht hev hwrote)

/-- The last write says who wrote it. -/
theorem about_of_lastWrite {groupId : GroupId} {userId : UserId} {v : Bool}
    (h : (provisioningMachine P state).Reachable w₀ p)
    (hinc : ∀ t ∈ p.threads, t.request.Incremental P groupId)
    (hlast : p.lastWrite (ProvisioningTask.wroteMember P groupId userId) = some v) :
    ∃ t ∈ p.threads, (t.request.Adds P groupId userId ∨ t.request.Removes P groupId userId) ∧
      (¬ t.request.Removes P groupId userId → v = true) ∧
      (¬ t.request.Adds P groupId userId → v = false) := by
  obtain ⟨i, t, ⟨e, r⟩, ht, hev, hwrote⟩ := Pool.lastWrite_eq_some hlast
  have hcond : (t.request.Adds P groupId userId ∨ t.request.Removes P groupId userId) ∧
      applied ⟨e, r⟩ = true := by
    by_contra hneg
    rw [ProvisioningTask.wroteMember, if_neg hneg] at hwrote
    cases hwrote
  obtain ⟨t', h₀, c, ht', -, hc, hwrites⟩ := writes_of_applied h hev hcond.2
  rw [ht] at ht'
  cases ht'
  dsimp only at hc
  subst hc
  have hmem := List.mem_of_getElem? ht
  obtain ⟨v', hwrote', hvalue⟩ := wroteMember_of_writes (hinc t hmem) hwrites hcond.2 hcond.1
  rw [hwrote] at hwrote'
  cases hwrote'
  exact ⟨t, hmem, hcond.1, hvalue⟩

/-- **Group changes lose no member** in runs where a PATCH request replaces the
    members while the others are as in the list that it read. -/
theorem members_kept {groupId : GroupId} (hrefers : schema.Refers .memberships w₀.store.tables)
    (h : (provisioningMachine P state).ReachableBy (PatchesFreshMembers P state) w₀ p)
    (hinc : ∀ t ∈ p.threads, t.request.Incremental P groupId) : MembersKept P state groupId w₀ p := by
  intro hall userId
  have hvalue := (h.requests hinc).lastWrite_eq
    (fun w : World => decide (IsMember state.organizationId groupId userId w.store.tables))
    (ProvisioningTask.wroteMember P groupId userId) (fun _ => True) ?_
  · refine ⟨fun ⟨t, ht, hadds⟩ hnone => ?_, fun ⟨t, ht, hremoves⟩ hnone => ?_, fun hnone => ?_⟩
    · obtain ⟨v, hlast⟩ := lastWrite_isSome_of_about h.reachable hinc hall ⟨t, ht, .inl hadds⟩
      obtain ⟨t', ht', -, htrue, -⟩ := about_of_lastWrite h.reachable hinc hlast
      rw [htrue (hnone t' ht')] at hlast
      exact of_decide_eq_true (hvalue.1 _ hlast).1
    · obtain ⟨v, hlast⟩ := lastWrite_isSome_of_about h.reachable hinc hall ⟨t, ht, .inr hremoves⟩
      obtain ⟨t', ht', -, -, hfalse⟩ := about_of_lastWrite h.reachable hinc hlast
      rw [hfalse (hnone t' ht')] at hlast
      exact of_decide_eq_false (hvalue.1 _ hlast).1
    · refine decide_eq_decide.mp (hvalue.2 trivial ?_)
      cases hlast : p.lastWrite (ProvisioningTask.wroteMember P groupId userId) with
      | none => rfl
      | some v =>
        obtain ⟨t, ht, habout, -⟩ := about_of_lastWrite h.reachable hinc hlast
        exact absurd habout (not_or.mpr (hnone t ht))
  · intro p i ch task e k r w' hr hA ht hx
    rcases step_member hrefers hr.reachable (hA.2 _ (List.mem_of_getElem? ht)) hA.1 ht hx userId with
      ⟨v, hv, hafter⟩ | ⟨hnone, hkeep⟩
    · exact .inl ⟨v, hv, hafter, trivial⟩
    · exact .inr ⟨hnone, fun _ => decide_eq_decide.mpr hkeep⟩

namespace Sample

/-- Two identifiers and their texts. -/
def uuidPrimitives : Primitives :=
  { primitives with
    parseUuid := fun text =>
      if text = "00000000-0000-0000-0000-000000000002" then some 2
      else if text = "00000000-0000-0000-0000-000000000006" then some 6
      else none }

def colleague : User := ⟨6, 1, "bob@example.org", none, true, "Bob", .active, 0, 0, none⟩

def teamTables : Db
  | .organizations => [organization]
  | .users => [⟨user, none⟩, ⟨colleague, none⟩]
  | .groups => [⟨5, 1, "team", none, "Team", 0⟩]
  | _ => []

/-- An organization with two users and a group without members. -/
def team : World where
  store := ⟨teamTables, fun t => by cases t <;> decide⟩
  clock := 0
  uuids := []

def addMember (userId : String) : ScimPatchRequest :=
  ⟨[scimPatchOpSchema],
    [⟨"add", some "members", some (.array [.object [("value", .string userId)]])⟩]⟩

/-- Each of the two threads adds one of the users. -/
def addBoth : List (Label ProvisioningTask Choice) :=
  [.spawn (.patchGroup noHeaders 5 (addMember "00000000-0000-0000-0000-000000000002")),
    .spawn (.patchGroup noHeaders 5 (addMember "00000000-0000-0000-0000-000000000006"))]

/-- The clock, the replacement, the audit event and the answer. -/
def replacing (i uuid : ℕ) : List (Label ProvisioningTask Choice) :=
  [.run i {}, .run i {}, .run i { uuid := uuid }, .run i {}, .run i {}, .run i {}]

/-- Both requests read the list before one of them replaces the members. -/
def readTogether : List (Label ProvisioningTask Choice) :=
  addBoth ++ [.run 0 {}, .run 0 {}, .run 1 {}, .run 1 {}] ++ replacing 0 50 ++ replacing 1 51

def readInTurn : List (Label ProvisioningTask Choice) :=
  addBoth ++ [.run 0 {}, .run 0 {}] ++ replacing 0 50 ++ [.run 1 {}, .run 1 {}] ++ replacing 1 51

/-- What a pool shows of the members and the threads. -/
def shownMembers (p : Pool Call.Answer ProvisioningTask World ProvisioningError ProvisioningAnswer) :
    List UserId × List (Option Bool) :=
  ((p.world.store.tables .memberships).map (·.userId), p.threads.map fun t => t.outcome.map (·.isOk))

theorem incremental_addMember (userId : String) : (addMember userId).Incremental uuidPrimitives := by
  intro operation hmem
  rw [List.mem_singleton.mp hmem]
  have hop : ScimPatchOp.parse "add" = .ok .add := by decide
  simp only [ScimPatchOperation.Incremental, hop]

/-- The threads of a run of the two requests. -/
theorem addBoth_threads
    {p : Pool Call.Answer ProvisioningTask World ProvisioningError ProvisioningAnswer}
    (h : p.threads.map Thread.request = addBoth.filterMap Label.spawned) :
    ∃ t₀ t₁, p.threads = [t₀, t₁] ∧
      t₀.request = .patchGroup noHeaders 5 (addMember "00000000-0000-0000-0000-000000000002") ∧
      t₁.request = .patchGroup noHeaders 5 (addMember "00000000-0000-0000-0000-000000000006") := by
  obtain ⟨t₀, rest, hthreads, h₀, hrest⟩ := List.map_eq_cons_iff.mp h
  obtain ⟨t₁, rest, rfl, h₁, hrest⟩ := List.map_eq_cons_iff.mp hrest
  obtain rfl := List.map_eq_nil_iff.mp hrest
  exact ⟨t₀, t₁, hthreads, h₀, h₁⟩

end Sample

open Sample in
/-- One request after the other. -/
theorem members_kept_in_turn : ∃ p,
    (provisioningMachine uuidPrimitives appState).run (Machine.start team) readInTurn = some p ∧
      shownMembers p = ([2, 6], [some true, some true]) ∧
      MembersKept uuidPrimitives appState 5 team p := by
  have hrun : ((provisioningMachine uuidPrimitives appState).runBy
      (PatchesFreshMembers uuidPrimitives appState) (Machine.start team) readInTurn).map
        shownMembers = some ([2, 6], [some true, some true]) := by
    decide
  obtain ⟨p, hp, hshown⟩ := Option.map_eq_some_iff.mp hrun
  have hplain := Machine.run_of_runBy hp
  obtain ⟨t₀, t₁, hthreads, h₀, h₁⟩ := addBoth_threads (Machine.run_requests hplain)
  refine ⟨p, hplain, hshown, members_kept (fun m hm => nomatch hm) (.runBy .start hp) fun t ht => ?_⟩
  rw [hthreads] at ht
  rcases List.mem_pair.mp ht with rfl | rfl
  · rw [h₀]
    exact fun _ => incremental_addMember _
  · rw [h₁]
    exact fun _ => incremental_addMember _

open Sample in
/-- Both requests succeed, and the member that the first of them added is gone. -/
theorem added_member_lost : ∃ p,
    (provisioningMachine uuidPrimitives appState).run (Machine.start team) readTogether = some p ∧
      shownMembers p = ([6], [some true, some true]) ∧
      (∀ t ∈ p.threads, t.request.Incremental uuidPrimitives 5) ∧
      ¬ MembersKept uuidPrimitives appState 5 team p := by
  have hrun : ((provisioningMachine uuidPrimitives appState).run (Machine.start team)
      readTogether).map shownMembers = some ([6], [some true, some true]) := by
    decide
  obtain ⟨p, hp, hshown⟩ := Option.map_eq_some_iff.mp hrun
  obtain ⟨t₀, t₁, hthreads, h₀, h₁⟩ := addBoth_threads (Machine.run_requests hp)
  refine ⟨p, hp, hshown, fun t ht => ?_, fun hkept => ?_⟩
  · rw [hthreads] at ht
    rcases List.mem_pair.mp ht with rfl | rfl
    · rw [h₀]
      exact fun _ => incremental_addMember _
    · rw [h₁]
      exact fun _ => incremental_addMember _
  · have hmembers : (p.world.store.tables .memberships).map (·.userId) = [6] :=
      congrArg Prod.fst hshown
    have houtcomes : p.threads.map (fun t => t.outcome.map (·.isOk)) = [some true, some true] :=
      congrArg Prod.snd hshown
    have hdone := Thread.exists_outcome_ok (l := p.threads) (by simp [houtcomes])
    obtain ⟨m, hm, -, -, hu⟩ := (hkept hdone 2).1
      ⟨t₀, by simp [hthreads], by rw [h₀]; decide⟩ fun t ht => by
        rw [hthreads] at ht
        rcases List.mem_pair.mp ht with rfl | rfl
        · rw [h₀]
          decide
        · rw [h₁]
          decide
    have hmem := List.mem_map_of_mem (f := fun m => m.userId) hm
    rw [hmembers, hu] at hmem
    exact absurd hmem (by decide)

end CairnId
