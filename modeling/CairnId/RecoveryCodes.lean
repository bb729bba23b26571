import CairnId.Database.Issue
import CairnId.Http.MfaManagement
import CairnId.Http.TokenRuns

/-!
# Replacing recovery codes

A replacement revokes the codes that are active and then inserts ten new ones, each call on
its own. It is all or nothing as long as no insert fails and nothing else is revoked for the
user in between.

## Main definitions

- `activeRecoveryCodes` — the hashes of the active codes of a user
- `ReplaceTask` — a replacement
- `Undisturbed` — the condition on the steps

## Main results

- `replacement_all_or_nothing`
- `failed_insert_leaves_part`
-/

namespace CairnId

open Concurrency Concurrency.Sql Prog App Database

-- the active codes

/-- An active recovery code of the user. -/
def isActiveRecoveryCode (organizationId : OrganizationId) (userId : UserId)
    (c : MfaCredential) : Bool :=
  c.organizationId = organizationId ∧ c.userId = userId ∧ c.kind = .recoveryCode ∧
    c.secretMetadata.text? "status" = some "active"

/-- The hashes of the active recovery codes of a user. -/
def activeRecoveryCodes (organizationId : OrganizationId) (userId : UserId) (s : Store) :
    List (Option String) :=
  ((s.tables .mfaCredentials).filter (isActiveRecoveryCode organizationId userId)).map fun c =>
    c.secretMetadata.text? "code_hash"

theorem text?_metadataWithStatus (metadata : Json) (status : String) :
    (metadataWithStatus metadata status).text? "status" = some status := by
  have hobject : ∀ members : List (String × Json),
      (Json.object (members.filter (fun m => m.1 ≠ "status") ++
        [("status", .string status)])).text? "status" = some status := by
    intro members
    have hnone : (members.filter fun m => m.1 ≠ "status").find? (fun m => m.1 = "status") =
        none := by
      rw [List.find?_eq_none]
      intro m hm
      simpa using (List.mem_filter.mp hm).2
    simp only [Json.text?, Json.get?, List.find?_append, hnone]
    rfl
  unfold metadataWithStatus
  split
  · exact hobject _
  · rfl

variable {s s' : Store} {organizationId : OrganizationId} {userId : UserId}

/-- The credential after its revocation. -/
def revokedCode (instant : OffsetDateTime) (c : MfaCredential) : MfaCredential :=
  { c with
    secretMetadata := metadataWithStatus c.secretMetadata "revoked"
    lastUsedAt := some instant }

/-- Revoking takes all codes of the user, and none of another. -/
theorem activeRecoveryCodes_revoke {o : OrganizationId} {u : UserId} {instant : OffsetDateTime}
    {n : ℕ} (h : (DbCall.revokeActiveMfaCredentialsByKind o u .recoveryCode instant).exec s =
      (.ok n, s')) :
    activeRecoveryCodes organizationId userId s' =
      if o = organizationId ∧ u = userId then []
      else activeRecoveryCodes organizationId userId s := by
  have htable : s'.tables .mfaCredentials = (s.tables .mfaCredentials).map fun c =>
      if isActiveRecoveryCode o u c then revokedCode instant c else c := by
    obtain ⟨a, ha, hrun⟩ | ⟨a, s₁, ha, hrun, -⟩ | ⟨e, he, -⟩ := Tx.atomic_cases h
    · obtain ⟨updated, s₁, hupdate, hrun⟩ := Stmts.run_bind_eq_ok.mp hrun
      obtain ⟨-, htables⟩ := run_update_eq_ok hupdate
      cases hrun
      rw [htables, Function.update_self]
      rfl
    · obtain ⟨updated, s₂, hupdate, hrun⟩ := Stmts.run_bind_eq_ok.mp hrun
      cases hrun
    · cases he
  have hrevoked : ∀ c,
      isActiveRecoveryCode organizationId userId (revokedCode instant c) = false := by
    intro c
    have hstatus : (revokedCode instant c).secretMetadata.text? "status" = some "revoked" :=
      text?_metadataWithStatus _ _
    simp [isActiveRecoveryCode, hstatus]
  rw [activeRecoveryCodes, htable, activeRecoveryCodes]
  by_cases hsame : o = organizationId ∧ u = userId
  · obtain ⟨rfl, rfl⟩ := hsame
    rw [if_pos ⟨rfl, rfl⟩, List.map_eq_nil_iff, List.filter_eq_nil_iff]
    intro c hc
    obtain ⟨c, -, rfl⟩ := List.mem_map.mp hc
    by_cases hactive : isActiveRecoveryCode o u c = true
    · rw [if_pos hactive, hrevoked]
      exact Bool.false_ne_true
    · rwa [if_neg hactive]
  · have hother : ∀ c, isActiveRecoveryCode o u c = true →
        isActiveRecoveryCode organizationId userId c = false := by
      intro c hc
      simp only [isActiveRecoveryCode, decide_eq_true_eq, decide_eq_false_iff_not] at hc ⊢
      exact fun hc' => hsame ⟨hc.1.symm.trans hc'.1, hc.2.1.symm.trans hc'.2.1⟩
    rw [if_neg hsame]
    generalize s.tables .mfaCredentials = rows
    induction rows with
    | nil => rfl
    | cons c rows ih =>
      rw [List.map_cons, List.filter_cons, List.filter_cons]
      by_cases hactive : isActiveRecoveryCode o u c = true
      · rw [if_pos hactive, hrevoked, hother c hactive]
        exact ih
      · rw [if_neg hactive]
        by_cases hmine : isActiveRecoveryCode organizationId userId c = true
        · rw [if_pos hmine, if_pos hmine, List.map_cons, List.map_cons, ih]
        · rw [if_neg hmine, if_neg hmine, ih]

/-- An inserted code is one more. -/
theorem activeRecoveryCodes_create {c : MfaCredential}
    (h : (DbCall.createMfaCredential c).exec s = (.ok (), s')) :
    activeRecoveryCodes organizationId userId s' =
      activeRecoveryCodes organizationId userId s ++
        if isActiveRecoveryCode organizationId userId c then [c.secretMetadata.text? "code_hash"]
        else [] := by
  have htable : s'.tables = appended s.tables .mfaCredentials [c] := by
    obtain ⟨-, htables⟩ | ⟨herror, -⟩ := insertOne_atomic (t := .mfaCredentials) (r := c) h
    · exact htables
    · exact absurd rfl herror
  rw [activeRecoveryCodes, htable, appended_self, List.filter_append, List.map_append]
  by_cases hc : isActiveRecoveryCode organizationId userId c = true
  · rw [if_pos hc, List.filter_cons_of_pos hc]
    rfl
  · rw [if_neg hc, List.filter_cons_of_neg hc]
    rfl

/-- A revocation that failed changed nothing. -/
theorem exec_revokeCodes {P : Primitives} {o : OrganizationId} {u : UserId}
    {instant : OffsetDateTime} {c : Choice}
    {w w' : World} {r : Except DatabaseError ℕ}
    (h : Call.exec P (.db (.revokeActiveMfaCredentialsByKind o u .recoveryCode instant)) c w =
      some (r, w')) :
    (∃ n, r = .ok n ∧ c.fail = false ∧ (DbCall.revokeActiveMfaCredentialsByKind o u .recoveryCode
      instant).exec w.store = (.ok n, w'.store)) ∨
    (∃ err, r = .error err) ∧ w'.store = w.store := by
  by_cases hfail : c.fail = true
  · rw [Call.exec, if_pos hfail] at h
    cases h
    exact .inr ⟨⟨_, rfl⟩, rfl⟩
  · rw [Call.exec, if_neg hfail] at h
    obtain ⟨rfl, rfl⟩ := Prod.mk.inj (Option.some.inj h)
    generalize hr :
      (DbCall.revokeActiveMfaCredentialsByKind o u .recoveryCode instant).exec w.store = x
    obtain ⟨n | n, store⟩ := x
    · exact .inr ⟨⟨n, rfl⟩, Tx.atomic_error hr⟩
    · exact .inl ⟨n, rfl, Bool.eq_false_of_not_eq_true hfail, rfl⟩

theorem exec_createCode {P : Primitives} {credential : MfaCredential} {c : Choice} {w w' : World}
    {r : Except DatabaseError Unit}
    (h : Call.exec P (.db (.createMfaCredential credential)) c w = some (r, w')) :
    (r = .ok () ∧ (DbCall.createMfaCredential credential).exec w.store = (.ok (), w'.store)) ∨
      r ≠ .ok () ∧ w'.store = w.store := by
  obtain ⟨-, -, ⟨rfl, hs⟩ | hs⟩ := Call.exec_db h
  · exact .inr ⟨nofun, hs⟩
  · obtain ⟨rfl, -⟩ | ⟨hr, hstore⟩ := insertOne_atomic (t := .mfaCredentials) (r := credential) hs
    · exact .inl ⟨rfl, hs⟩
    · exact .inr ⟨hr, hstore⟩

-- one replacement

/-- A replacement of the codes of the user of a session. -/
structure ReplaceTask where
  session : AuthSession
  instant : OffsetDateTime

/-- The replacement is one of the user's codes. -/
def ReplaceTask.IsFor (task : ReplaceTask) (organizationId : OrganizationId) (userId : UserId) :
    Prop := task.session.organizationId = organizationId ∧ task.session.userId = userId

instance (task : ReplaceTask) (organizationId : OrganizationId) (userId : UserId) :
    Decidable (task.IsFor organizationId userId) := inferInstanceAs (Decidable (_ ∧ _))

variable (P : Primitives)

def ReplaceTask.handler (task : ReplaceTask) : App (List String × ℕ) :=
  replaceRecoveryCodesForSession P task.session task.instant

abbrev replaceMachine :
    Machine Call Call.Answer ReplaceTask World Choice ApiError (List String × ℕ) :=
  machine P (ReplaceTask.handler P)

abbrev ReplacePool := Pool Call.Answer ReplaceTask World ApiError (List String × ℕ)

/-- The codes were revoked with the calls `h`. -/
def Revoked (h : List Ev) : Prop :=
  ∃ o u kind instant n, ⟨.db (.revokeActiveMfaCredentialsByKind o u kind instant), .ok n⟩ ∈ h

/-- The call revoked codes. -/
def revokes : Ev → Bool
  | ⟨.db (.revokeActiveMfaCredentialsByKind ..), .ok _⟩ => true
  | _ => false

/-- The hash of a code that a call stored. -/
def storedHash : Ev → Option (Option String)
  | ⟨.db (.createMfaCredential c), .ok _⟩ => some (c.secretMetadata.text? "code_hash")
  | _ => none

/-- The hashes stored with the calls `h`, in the order of the calls. -/
def storedHashes (h : List Ev) : List (Option String) := (h.filterMap storedHash).reverse

/-- An insert failed. -/
def InsertFailed (h : List Ev) : Prop :=
  ∃ c err, ⟨.db (.createMfaCredential c), .error err⟩ ∈ h

/-- The new code is an active one of the user of the session. -/
def IsNewCode (task : ReplaceTask) (c : MfaCredential) : Prop :=
  isActiveRecoveryCode task.session.organizationId task.session.userId c = true

/-- A replacement reads nothing, revokes once and then inserts. -/
def replacePre (task : ReplaceTask) (h : List Ev) (e : Call) : Prop :=
  e.isQuiet = true ∨
  (e = .db (.revokeActiveMfaCredentialsByKind task.session.organizationId task.session.userId
    .recoveryCode task.instant) ∧ Quiet h) ∨
  ∃ c, e = .db (.createMfaCredential c) ∧ IsNewCode task c ∧ Revoked h

/-- What a replacement that has ended has stored. -/
def replacePost (h : List Ev) (o : Except ApiError (List String × ℕ)) : Prop :=
  (∀ codes n, o = .ok (codes, n) → storedHashes h = codes.map fun code => some (hashToken P code)) ∧
    ∀ e, o = .error e → Revoked h → InsertFailed h

variable {P} {h : List Ev} {task : ReplaceTask}

theorem Revoked.mono {h' : List Ev} (hr : Revoked h) (hsub : h ⊆ h') : Revoked h' := by
  obtain ⟨o, u, kind, instant, n, hmem⟩ := hr
  exact ⟨o, u, kind, instant, n, hsub hmem⟩

theorem Revoked.any_revokes (hr : Revoked h) : h.any revokes = true := by
  obtain ⟨o, u, kind, instant, n, hmem⟩ := hr
  exact List.any_eq_true.mpr ⟨_, hmem, rfl⟩

theorem Quiet.not_revoked (hq : Quiet h) : ¬Revoked h := by
  rintro ⟨o, u, kind, instant, n, hmem⟩
  cases hq _ hmem

theorem storedHashes_cons (ev : Ev) (h : List Ev) :
    storedHashes (ev :: h) = storedHashes h ++ (storedHash ev).toList := by
  rw [storedHashes, List.filterMap_cons, storedHashes]
  cases storedHash ev with
  | none => exact (List.append_nil _).symm
  | some v => exact List.reverse_cons

theorem Quiet.storedHashes (hq : Quiet h) : storedHashes h = [] := by
  induction h with
  | nil => rfl
  | cons ev h ih =>
    obtain ⟨hev, hq⟩ := quiet_cons.mp hq
    rw [storedHashes_cons, ih hq]
    unfold storedHash
    split
    · cases hev
    · rfl

theorem isNewCode_recoveryCode (code : String) (id : Uuid) :
    IsNewCode task ⟨id, task.session.organizationId, task.session.userId, .recoveryCode,
      "Recovery code", recoveryCodeMetadataJson "active" (hashToken P code), task.instant, none⟩ :=
  decide_eq_true ⟨rfl, rfl, rfl, rfl⟩

/-- Each insert stores the next code. -/
theorem sat_storeRecoveryCodes (codes : List String) (hr : Revoked h) :
    (storeRecoveryCodes P task.session task.instant codes).Sat (replacePre task)
      (fun h' o => (o = .ok () → storedHashes h' =
          storedHashes h ++ codes.map fun code => some (hashToken P code)) ∧
        ∀ e, o = .error e → InsertFailed h') h := by
  induction codes generalizing h with
  | nil => exact ⟨fun _ => (List.append_nil _).symm, fun e => nofun⟩
  | cons code codes ih =>
    refine sat_perform_bind.mpr ⟨.inl rfl, fun newId => ?_⟩
    have hr' : Revoked (⟨.newV4, newId⟩ :: h) := hr.mono (List.subset_cons_self ..)
    refine sat_db_bind (.inr (.inr ⟨_, rfl, isNewCode_recoveryCode code newId, hr'⟩)) (fun _ => ?_)
      fun err => ⟨nofun, fun e _ => ⟨_, err, .head _⟩⟩
    refine (ih (hr'.mono (List.subset_cons_self ..))).mono (fun _ _ => id) fun h' o hpost => ?_
    refine ⟨fun ho => ?_, hpost.2⟩
    rw [hpost.1 ho, storedHashes_cons, storedHashes_cons, List.map_cons]
    have hquiet : storedHash ⟨.newV4, newId⟩ = none := rfl
    rw [hquiet]
    simp only [Option.toList_none, List.append_nil, List.append_assoc]
    rfl

theorem all_generateRecoveryCodes : generateRecoveryCodes.All fun e => e.isQuiet = true := by
  refine .traverse (fun _ => ?_) _
  exact ⟨rfl, fun _ => trivial⟩

/-- What a replacement does. -/
theorem sat_replaceRecoveryCodesForSession (task : ReplaceTask) :
    (task.handler P).Sat (replacePre task) (replacePost P) [] := by
  refine Sat.skip_bind all_generateRecoveryCodes (fun _ _ _ he => .inl he) (fun l codes hl => ?_)
    fun l e hl => ⟨fun _ _ h => by simp at h, fun _ _ hr => ?_⟩
  · have hq : Quiet (l ++ []) := by simpa [Quiet] using hl
    refine sat_db_bind (.inr (.inl ⟨rfl, hq⟩)) (fun n => ?_) fun err => ⟨fun _ _ h => by simp at h,
      fun e _ hr => ?_⟩
    · have hr : Revoked (⟨.db (.revokeActiveMfaCredentialsByKind task.session.organizationId
          task.session.userId .recoveryCode task.instant), .ok n⟩ :: (l ++ [])) :=
        ⟨_, _, _, _, n, .head _⟩
      refine (sat_storeRecoveryCodes codes hr).bind (fun h' _ hpost => ⟨?_, fun _ h => by simp at h⟩)
        fun h' e hpost => ⟨fun _ _ h => by simp at h, fun _ _ _ => hpost.2 e rfl⟩
      rintro _ _ ⟨⟩
      rw [hpost.1 rfl, storedHashes_cons, hq.storedHashes]
      rfl
    · obtain ⟨o, u, kind, instant, n, hmem⟩ := hr
      obtain hmem | hmem := List.mem_cons.mp hmem
      · cases hmem
      · exact absurd ⟨o, u, kind, instant, n, hmem⟩ hq.not_revoked
  · have hq : Quiet (l ++ []) := by simpa [Quiet] using hl
    exact absurd hr hq.not_revoked

-- runs

section runs

variable (organizationId userId)

/-- No insert of a replacement for the user fails, and when one revokes the codes, those
    that have revoked before have ended. -/
def Undisturbed (p : ReplacePool) : Label ReplaceTask Choice → Prop
  | .spawn _ => True
  | .run i c => ∀ task e k, p.threads[i]? = some ⟨task, .call e k⟩ →
    task.IsFor organizationId userId →
    (∀ credential, e = .db (.createMfaCredential credential) → c.fail = false ∧
      ((DbCall.createMfaCredential credential).exec p.world.store).1 = .ok ()) ∧
    ∀ o u kind instant, e = .db (.revokeActiveMfaCredentialsByKind o u kind instant) →
      c.fail = false → ∀ j t, p.threads[j]? = some t → t.request.IsFor organizationId userId →
        Revoked (own j p.trace) → t.outcome ≠ none

/-- The condition on a call of a replacement for the user, computed. -/
def undisturbedCall (p : ReplacePool) (c : Choice) : Call → Bool
  | .db (.createMfaCredential credential) =>
    !c.fail && decide (((DbCall.createMfaCredential credential).exec p.world.store).1 = .ok ())
  | .db (.revokeActiveMfaCredentialsByKind ..) => c.fail || p.threads.zipIdx.all fun x =>
    !decide (x.1.request.IsFor organizationId userId) || !(own x.2 p.trace).any revokes ||
      x.1.outcome.isSome
  | _ => true

def undisturbed (p : ReplacePool) : Label ReplaceTask Choice → Bool
  | .spawn _ => true
  | .run i c => p.threads[i]?.all fun t => match t.rest with
    | .call e _ => !decide (t.request.IsFor organizationId userId) ||
      undisturbedCall organizationId userId p c e
    | _ => true

/-- Thread `i` has revoked the codes of the user and has not ended. -/
def Replacing (p : ReplacePool) (i : ℕ) : Prop :=
  ∃ t, p.threads[i]? = some t ∧ t.request.IsFor organizationId userId ∧ Revoked (own i p.trace) ∧
    t.outcome = none

/-- The active codes are those from the start, or those that the last replacement has
    stored, and only that one may not have ended. -/
structure ReplaceInv (w₀ : World) (p : ReplacePool) : Prop where
  codes : (activeRecoveryCodes organizationId userId p.world.store =
        activeRecoveryCodes organizationId userId w₀.store ∧
      ∀ i t, p.threads[i]? = some t → t.request.IsFor organizationId userId →
        ¬Revoked (own i p.trace)) ∨
    ∃ i t, p.threads[i]? = some t ∧ t.request.IsFor organizationId userId ∧
      Revoked (own i p.trace) ∧
      activeRecoveryCodes organizationId userId p.world.store = storedHashes (own i p.trace) ∧
      ∀ j, Replacing organizationId userId p j → j = i
  inserted : ∀ i t, p.threads[i]? = some t → t.request.IsFor organizationId userId →
    ¬InsertFailed (own i p.trace)

variable {organizationId userId} {w₀ : World} {p : ReplacePool}

theorem revoked_cons {ev : Ev} {h : List Ev} : Revoked (ev :: h) ↔ Revoked [ev] ∨ Revoked h := by
  constructor
  · rintro ⟨o, u, kind, instant, n, hmem⟩
    obtain hmem | hmem := List.mem_cons.mp hmem
    · exact .inl ⟨o, u, kind, instant, n, List.mem_singleton.mpr hmem⟩
    · exact .inr ⟨o, u, kind, instant, n, hmem⟩
  · rintro (hr | hr)
    · exact hr.mono fun e he => List.mem_singleton.mp he ▸ .head _
    · exact hr.mono (List.subset_cons_self ..)

theorem insertFailed_cons {ev : Ev} {h : List Ev} :
    InsertFailed (ev :: h) ↔ InsertFailed [ev] ∨ InsertFailed h := by
  constructor
  · rintro ⟨c, err, hmem⟩
    obtain hmem | hmem := List.mem_cons.mp hmem
    · exact .inl ⟨c, err, List.mem_singleton.mpr hmem⟩
    · exact .inr ⟨c, err, hmem⟩
  · rintro (⟨c, err, hmem⟩ | ⟨c, err, hmem⟩)
    · exact ⟨c, err, List.mem_singleton.mp hmem ▸ .head _⟩
    · exact ⟨c, err, .tail _ hmem⟩

/-- A call that neither revokes nor stores codes. -/
structure Idle (ev : Ev) : Prop where
  revoked : ¬Revoked [ev]
  stored : storedHash ev = none
  inserted : ¬InsertFailed [ev]

theorem Idle.of_isQuiet {ev : Ev} (hev : ev.1.isQuiet = true) : Idle ev := by
  have hq : Quiet [ev] := by simp [hev]
  refine ⟨hq.not_revoked, ?_, ?_⟩
  · have hnil := hq.storedHashes
    rw [storedHashes_cons] at hnil
    simpa [CairnId.storedHashes] using hnil
  · rintro ⟨c, err, hmem⟩
    cases hq _ hmem

section step

variable {i : ℕ} {task : ReplaceTask} {e : Call} {k : e.Answer → App (List String × ℕ)}
  {r : e.Answer} {w' : World}

/-- The pool after a call of thread `i`. -/
abbrev stepped (p : ReplacePool) (i : ℕ) (task : ReplaceTask) (e : Call)
    (k : e.Answer → App (List String × ℕ)) (r : e.Answer) (w' : World) : ReplacePool :=
  ⟨w', p.threads.set i ⟨task, k r⟩, ⟨i, ⟨e, r⟩, p.world⟩ :: p.trace⟩

variable (ht : p.threads[i]? = some ⟨task, .call e k⟩)

include ht

theorem stepped_self : (stepped p i task e k r w').threads[i]? = some ⟨task, k r⟩ :=
  List.getElem?_set_self (List.getElem?_eq_some_iff.mp ht).1

theorem stepped_request {j : ℕ} {t : Thread Call.Answer ReplaceTask ApiError (List String × ℕ)}
    (hj : (stepped p i task e k r w').threads[j]? = some t) :
    (j = i ∧ t.request = task) ∨ (j ≠ i ∧ p.threads[j]? = some t) := by
  by_cases hij : j = i
  · subst hij
    rw [stepped_self ht] at hj
    obtain rfl := Option.some.inj hj
    exact .inl ⟨rfl, rfl⟩
  · have hother : (p.threads.set i ⟨task, k r⟩)[j]? = p.threads[j]? :=
      List.getElem?_set_ne (Ne.symm hij)
    exact .inr ⟨hij, hother.symm.trans hj⟩

/-- A replacement that goes on after a call went on before. -/
theorem Replacing.before {j : ℕ}
    (hr : Replacing organizationId userId (stepped p i task e k r w') j)
    (hrevoked : j = i → task.IsFor organizationId userId → Revoked (own i p.trace)) :
    Replacing organizationId userId p j := by
  obtain ⟨t, hj, hfor, hrev, hout⟩ := hr
  obtain ⟨rfl, hrequest⟩ | ⟨hij, hj'⟩ := stepped_request ht hj
  · rw [hrequest] at hfor
    exact ⟨_, ht, hfor, hrevoked rfl hfor, rfl⟩
  · refine ⟨t, hj', hfor, ?_, hout⟩
    rwa [own_cons_of_ne (fun heq => hij heq.symm)] at hrev

/-- A call that leaves the codes of the user alone keeps the invariant. -/
theorem ReplaceInv.frame (hinv : ReplaceInv organizationId userId w₀ p)
    (hactive : activeRecoveryCodes organizationId userId w'.store =
      activeRecoveryCodes organizationId userId p.world.store)
    (hidle : task.IsFor organizationId userId → Idle ⟨e, r⟩) :
    ReplaceInv organizationId userId w₀ (stepped p i task e k r w') := by
  have howned : own i (stepped p i task e k r w').trace = ⟨e, r⟩ :: own i p.trace := own_cons_self
  have hrevoked : task.IsFor organizationId userId →
      Revoked (own i (stepped p i task e k r w').trace) → Revoked (own i p.trace) := by
    intro hfor hr
    rw [howned, revoked_cons] at hr
    exact hr.resolve_left (hidle hfor).revoked
  refine ⟨?_, fun j t hj hfor => ?_⟩
  · obtain ⟨hstart, hnone⟩ | ⟨l, t, hl, hfor, hrev, hstored, hlast⟩ := hinv.codes
    · refine .inl ⟨hactive.trans hstart, fun j t hj hfor hr => ?_⟩
      obtain ⟨rfl, hrequest⟩ | ⟨hij, hj'⟩ := stepped_request ht hj
      · rw [hrequest] at hfor
        exact hnone j _ ht hfor (hrevoked hfor hr)
      · rw [own_cons_of_ne (fun heq => hij heq.symm)] at hr
        exact hnone j t hj' hfor hr
    · have hlast' : ∀ j, Replacing organizationId userId (stepped p i task e k r w') j → j = l := by
        intro j hr
        refine hlast j (hr.before ht fun hji htask => ?_)
        subst hji
        obtain ⟨_, _, _, hr, _⟩ := hr
        exact hrevoked htask hr
      by_cases hli : l = i
      · subst hli
        have htask : task.IsFor organizationId userId := by
          obtain rfl := Option.some.inj (hl.symm.trans ht)
          exact hfor
        refine .inr ⟨l, _, stepped_self ht, htask, ?_, ?_, hlast'⟩
        · rw [howned]
          exact hrev.mono (List.subset_cons_self ..)
        · rw [howned, storedHashes_cons, (hidle htask).stored, hactive, hstored]
          exact (List.append_nil _).symm
      · have hother : (stepped p i task e k r w').threads[l]? = some t :=
          (List.getElem?_set_ne (Ne.symm hli)).trans hl
        have hown : own l (stepped p i task e k r w').trace = own l p.trace :=
          own_cons_of_ne fun heq => hli heq.symm
        exact .inr ⟨l, t, hother, hfor, hown ▸ hrev, by rw [hown, hactive, hstored], hlast'⟩
  · obtain ⟨rfl, hrequest⟩ | ⟨hij, hj'⟩ := stepped_request ht hj
    · rw [hrequest] at hfor
      rw [howned, insertFailed_cons, not_or]
      exact ⟨(hidle hfor).inserted, hinv.inserted j _ ht hfor⟩
    · rw [own_cons_of_ne (fun heq => hij heq.symm)]
      exact hinv.inserted j t hj' hfor

/-- A replacement that revokes is the last one. -/
theorem ReplaceInv.revoke {instant : OffsetDateTime} {n : ℕ}
    (he : (⟨e, r⟩ : Ev) = ⟨.db (.revokeActiveMfaCredentialsByKind organizationId userId
      .recoveryCode instant), .ok n⟩)
    (hinv : ReplaceInv organizationId userId w₀ p) (hfor : task.IsFor organizationId userId)
    (hq : Quiet (own i p.trace))
    (hactive : activeRecoveryCodes organizationId userId w'.store = [])
    (hended : ∀ j, ¬Replacing organizationId userId p j) :
    ReplaceInv organizationId userId w₀ (stepped p i task e k r w') := by
  have howned : own i (stepped p i task e k r w').trace = ⟨e, r⟩ :: own i p.trace := own_cons_self
  refine ⟨.inr ⟨i, _, stepped_self ht, hfor, ?_, ?_, fun j hr => ?_⟩, fun j t hj hfor' => ?_⟩
  · rw [howned, he]
    exact ⟨_, _, _, _, n, .head _⟩
  · rw [howned, storedHashes_cons, hq.storedHashes, hactive, he]
    rfl
  · by_contra hij
    exact hended j (hr.before ht fun hji => absurd hji hij)
  · obtain ⟨rfl, -⟩ | ⟨hij, hj'⟩ := stepped_request ht hj
    · rw [howned, insertFailed_cons, not_or]
      refine ⟨?_, hinv.inserted j _ ht hfor⟩
      rw [he]
      rintro ⟨c, err, hmem⟩
      cases List.mem_singleton.mp hmem
    · rw [own_cons_of_ne (fun heq => hij heq.symm)]
      exact hinv.inserted j t hj' hfor'

/-- The last replacement stores its next code. -/
theorem ReplaceInv.store {credential : MfaCredential}
    (he : (⟨e, r⟩ : Ev) = ⟨.db (.createMfaCredential credential), .ok ()⟩)
    (hinv : ReplaceInv organizationId userId w₀ p) (hfor : task.IsFor organizationId userId)
    (hr : Revoked (own i p.trace))
    (hactive : activeRecoveryCodes organizationId userId w'.store =
      activeRecoveryCodes organizationId userId p.world.store ++
        [credential.secretMetadata.text? "code_hash"]) :
    ReplaceInv organizationId userId w₀ (stepped p i task e k r w') := by
  have howned : own i (stepped p i task e k r w').trace = ⟨e, r⟩ :: own i p.trace := own_cons_self
  have hreplacing : Replacing organizationId userId p i := ⟨_, ht, hfor, hr, rfl⟩
  refine ⟨?_, fun j t hj hfor' => ?_⟩
  · obtain ⟨-, hnone⟩ | ⟨l, t, hl, -, -, hstored, hlast⟩ := hinv.codes
    · exact absurd hr (hnone i _ ht hfor)
    · obtain rfl : i = l := hlast i hreplacing
      refine .inr ⟨i, _, stepped_self ht, hfor, ?_, ?_, fun j hj => ?_⟩
      · rw [howned]
        exact hr.mono (List.subset_cons_self ..)
      · rw [howned, storedHashes_cons, hactive, hstored, he]
        rfl
      · exact hlast j (hj.before ht fun hji _ => hji ▸ hr)
  · obtain ⟨rfl, -⟩ | ⟨hij, hj'⟩ := stepped_request ht hj
    · rw [howned, insertFailed_cons, not_or]
      refine ⟨?_, hinv.inserted j _ ht hfor⟩
      rw [he]
      rintro ⟨c, err, hmem⟩
      cases List.mem_singleton.mp hmem
    · rw [own_cons_of_ne (fun heq => hij heq.symm)]
      exact hinv.inserted j t hj' hfor'

end step

/-- Each step of such a run keeps the invariant. -/
theorem ReplaceInv.step {i : ℕ} {task : ReplaceTask} {e : Call}
    {k : e.Answer → App (List String × ℕ)} {r : e.Answer} {w' : World} {c : Choice}
    (hinv : ReplaceInv organizationId userId w₀ p)
    (hA : Undisturbed organizationId userId p (.run i c))
    (ht : p.threads[i]? = some ⟨task, .call e k⟩) (hpre : replacePre task (own i p.trace) e)
    (hx : Call.exec P e c p.world = some (r, w')) :
    ReplaceInv organizationId userId w₀ (stepped p i task e k r w') := by
  obtain hquiet | ⟨rfl, hq⟩ | ⟨credential, rfl, hnew, hr⟩ := hpre
  · have hstore : w'.store = p.world.store := Call.exec_of_isQuiet hquiet hx
    exact hinv.frame ht (by rw [hstore]) fun _ => .of_isQuiet hquiet
  · obtain ⟨n, rfl, hfail, hs⟩ | ⟨⟨err, rfl⟩, hstore⟩ := exec_revokeCodes hx
    · have hactive := @activeRecoveryCodes_revoke _ _ organizationId userId _ _ _ _ hs
      by_cases hfor : task.IsFor organizationId userId
      · have hnone : activeRecoveryCodes organizationId userId w'.store = [] :=
          hactive.trans (if_pos hfor)
        have hended : ∀ j, ¬Replacing organizationId userId p j := by
          rintro j ⟨t, hj, hfor', hrevoked, hout⟩
          exact (hA _ _ _ ht hfor).2 _ _ _ _ rfl hfail j t hj hfor' hrevoked hout
        obtain ⟨rfl, rfl⟩ := hfor
        exact hinv.revoke ht rfl ⟨rfl, rfl⟩ hq hnone hended
      · exact hinv.frame ht (hactive.trans (if_neg hfor)) fun hfor' => absurd hfor' hfor
    · refine hinv.frame ht (by rw [hstore]) fun _ => ⟨?_, rfl, ?_⟩
      · rintro ⟨o, u, kind, instant, n, hmem⟩
        cases List.mem_singleton.mp hmem
      · rintro ⟨credential, err, hmem⟩
        cases List.mem_singleton.mp hmem
  · by_cases hfor : task.IsFor organizationId userId
    · obtain ⟨hfail, hok⟩ := (hA _ _ _ ht hfor).1 credential rfl
      rw [Call.exec, if_neg (Bool.eq_false_iff.mp hfail)] at hx
      obtain ⟨rfl, rfl⟩ := Prod.mk.inj (Option.some.inj hx)
      have hactive := @activeRecoveryCodes_create _ _ organizationId userId _ (Prod.ext hok rfl)
      obtain ⟨rfl, rfl⟩ := hfor
      rw [show isActiveRecoveryCode _ _ credential = true from hnew, if_pos rfl] at hactive
      exact hinv.store ht (congrArg (Sigma.mk _) hok) ⟨rfl, rfl⟩ hr hactive
    · refine hinv.frame ht ?_ fun hfor' => absurd hfor' hfor
      obtain ⟨rfl, hs⟩ | ⟨-, hstore⟩ := exec_createCode hx
      · have hother : isActiveRecoveryCode organizationId userId credential = false := by
          refine Bool.eq_false_iff.mpr fun hmine => hfor ?_
          have hnew' := of_decide_eq_true hnew
          have hmine' := of_decide_eq_true hmine
          exact ⟨hnew'.1.symm.trans hmine'.1, hnew'.2.1.symm.trans hmine'.2.1⟩
        rw [activeRecoveryCodes_create hs, hother]
        exact List.append_nil _
      · rw [hstore]

/-- A thread that has just been started has made no call. -/
theorem ReplaceInv.spawn (hreach : (replaceMachine P).Reachable w₀ p)
    (hinv : ReplaceInv organizationId userId w₀ p) (task : ReplaceTask) :
    ReplaceInv organizationId userId w₀
      { p with threads := p.threads ++ [⟨task, task.handler P⟩] } := by
  have hold : ∀ i t, (p.threads ++ [⟨task, task.handler P⟩])[i]? = some t →
      p.threads[i]? = some t ∨ own i p.trace = [] := by
    intro i t hi
    by_cases hlt : i < p.threads.length
    · rw [List.getElem?_append_left hlt] at hi
      exact .inl hi
    · exact .inr (Machine.own_eq_nil_of_le hreach (by omega))
  have hnotRevoked : ¬Revoked [] := by
    rintro ⟨o, u, kind, instant, n, hmem⟩
    cases hmem
  refine ⟨?_, fun i t hi hfor => ?_⟩
  · obtain ⟨hstart, hnone⟩ | ⟨l, t, hl, hfor, hr, hstored, hlast⟩ := hinv.codes
    · refine .inl ⟨hstart, fun i t hi hfor => ?_⟩
      obtain hi | hnil := hold i t hi
      · exact hnone i t hi hfor
      · rwa [hnil]
    · have hl' : (p.threads ++ [⟨task, task.handler P⟩])[l]? = some t := by
        rw [List.getElem?_append_left (List.getElem?_eq_some_iff.mp hl).1, hl]
      refine .inr ⟨l, t, hl', hfor, hr, hstored, ?_⟩
      rintro j ⟨t', hj, hfor', hr', hout⟩
      obtain hj | hnil := hold j t' hj
      · exact hlast j ⟨t', hj, hfor', hr', hout⟩
      · rw [hnil] at hr'
        exact absurd hr' hnotRevoked
  · obtain hi | hnil := hold i t hi
    · exact hinv.inserted i t hi hfor
    · rw [hnil]
      rintro ⟨credential, err, hmem⟩
      cases hmem

theorem ReplaceInv.of_reachableBy
    (hp : (replaceMachine P).ReachableBy (Undisturbed organizationId userId) w₀ p) :
    ReplaceInv organizationId userId w₀ p := by
  refine hp.invariant _ ?_ (fun p task hr hinv => hinv.spawn hr.reachable task)
    fun p i c task e k r w' hr hinv hA ht hx => ?_
  · exact ⟨.inl ⟨rfl, fun i t hi => by cases hi⟩, fun i t hi => by cases hi⟩
  · exact hinv.step hA ht (hr.reachable.sat sat_replaceRecoveryCodesForSession ht).1 hx

/-- **Replacing is all or nothing** in these runs: once every replacement has ended, the
    active codes are those from the start, or the ones that a replacement has answered with. -/
theorem replacement_all_or_nothing
    (hp : (replaceMachine P).ReachableBy (Undisturbed organizationId userId) w₀ p)
    (hended : ∀ t ∈ p.threads, t.outcome ≠ none) :
    activeRecoveryCodes organizationId userId p.world.store =
        activeRecoveryCodes organizationId userId w₀.store ∨
      ∃ t ∈ p.threads, t.request.IsFor organizationId userId ∧ ∃ codes n,
        t.outcome = some (.ok (codes, n)) ∧
          activeRecoveryCodes organizationId userId p.world.store =
            codes.map fun code => some (hashToken P code) := by
  have hinv := ReplaceInv.of_reachableBy hp
  obtain ⟨hstart, -⟩ | ⟨i, t, hi, hfor, hr, hstored, -⟩ := hinv.codes
  · exact .inl hstart
  · obtain ⟨o, ho⟩ := Option.ne_none_iff_exists'.mp (hended t (List.mem_of_getElem? hi))
    have hpost : replacePost P (own i p.trace) o :=
      hp.reachable.post_of_outcome sat_replaceRecoveryCodesForSession hi ho
    match o, ho, hpost with
    | .ok (codes, n), ho, hpost =>
      exact .inr ⟨t, List.mem_of_getElem? hi, hfor, codes, n, ho,
        hstored.trans (hpost.1 codes n rfl)⟩
    | .error e, ho, hpost => exact absurd (hpost.2 e rfl hr) (hinv.inserted i t hi hfor)

theorem Undisturbed.of_undisturbed {l : Label ReplaceTask Choice}
    (h : undisturbed organizationId userId p l = true) : Undisturbed organizationId userId p l := by
  cases l with
  | spawn task => trivial
  | run i c =>
    intro task e k ht hfor
    rw [undisturbed, ht, Option.all_some, decide_eq_true hfor] at h
    constructor
    · rintro credential rfl
      have hboth := Bool.and_eq_true_iff.mp h
      exact ⟨(Bool.not_eq_true' _).mp hboth.1, of_decide_eq_true hboth.2⟩
    · rintro o u kind instant rfl hfail j t hj hfor' hr hout
      have hall : c.fail = true ∨ _ := Bool.or_eq_true_iff.mp h
      have hj' := List.all_eq_true.mp (hall.resolve_left (Bool.eq_false_iff.mp hfail)) (t, j)
        (List.mem_zipIdx_iff_getElem?.mpr hj)
      simp [hfor', hr.any_revokes, hout] at hj'

end runs

namespace Sample

def oldCode : MfaCredential :=
  ⟨5, 1, 2, .recoveryCode, "Recovery code", recoveryCodeMetadataJson "active" "old", 0, none⟩

def oldCodeTables : Db
  | .organizations => [organization]
  | .users => [⟨user, some "secret"⟩]
  | .mfaCredentials => [oldCode]
  | _ => []

/-- A user with one recovery code. -/
def oldCodeWorld : World where
  store := ⟨oldCodeTables, fun t => by cases t <;> decide⟩
  clock := 0
  uuids := []

/-- A replacement whose calls are answered; the `failing`-th call fails. -/
def replacement (calls : ℕ) (failing : Option ℕ) : List (Label ReplaceTask Choice) :=
  .spawn ⟨session, 1⟩ :: (List.range calls).map fun j =>
    .run 0 { fail := failing = some j, uuid := .ofNat 128 (100 + j), text := toString j }

end Sample

open Sample in
theorem replacement_all_or_nothing_ten :
    ∃ p : ReplacePool, (replaceMachine primitives).ReachableBy (Undisturbed 1 2) oldCodeWorld p ∧
      (activeRecoveryCodes 1 2 p.world.store).length = 10 ∧
      (activeRecoveryCodes 1 2 p.world.store = [some "old"] ∨
        ∃ t ∈ p.threads, t.request.IsFor 1 2 ∧ ∃ codes n, t.outcome = some (.ok (codes, n)) ∧
          activeRecoveryCodes 1 2 p.world.store =
            codes.map fun code => some (hashToken primitives code)) := by
  have hrun : (((replaceMachine primitives).runBy (fun p l => undisturbed 1 2 p l = true)
      (Machine.start oldCodeWorld) (replacement 31 none)).map fun p =>
        ((activeRecoveryCodes 1 2 p.world.store).length,
          p.threads.all fun t => t.outcome.isSome)) = some (10, true) := by
    decide
  obtain ⟨p, hp, hshown⟩ := Option.map_eq_some_iff.mp hrun
  obtain ⟨hlength, hended⟩ := Prod.mk.inj hshown
  have hby : (replaceMachine primitives).ReachableBy (Undisturbed 1 2) oldCodeWorld p :=
    (Machine.ReachableBy.start.runBy hp).mono fun _ _ => .of_undisturbed
  refine ⟨p, hby, hlength, replacement_all_or_nothing hby fun t ht hnone => ?_⟩
  have hsome := List.all_eq_true.mp hended t ht
  rw [hnone] at hsome
  cases hsome

open Sample in
/-- The third insert fails: the old code is gone, and two codes that no caller was told
    are active. -/
theorem failed_insert_leaves_part :
    ∃ p : ReplacePool, (replaceMachine primitives).run (Machine.start oldCodeWorld)
        (replacement 17 (some 16)) = some p ∧ (∀ t ∈ p.threads, t.outcome ≠ none) ∧
      ¬(activeRecoveryCodes 1 2 p.world.store = activeRecoveryCodes 1 2 oldCodeWorld.store ∨
        ∃ t ∈ p.threads, t.request.IsFor 1 2 ∧ ∃ codes n, t.outcome = some (.ok (codes, n)) ∧
          activeRecoveryCodes 1 2 p.world.store =
            codes.map fun code => some (hashToken primitives code)) := by
  have hrun : ((replaceMachine primitives).run (Machine.start oldCodeWorld)
      (replacement 17 (some 16))).map (fun p => (activeRecoveryCodes 1 2 p.world.store,
        p.threads.all fun t => t.outcome.any fun o => !o.isOk)) =
          some ([some "0", some "1"], true) := by
    decide
  obtain ⟨p, hp, hshown⟩ := Option.map_eq_some_iff.mp hrun
  obtain ⟨hactive, hfailed⟩ := Prod.mk.inj hshown
  refine ⟨p, hp, fun t ht hnone => ?_, ?_⟩
  · have hfails := List.all_eq_true.mp hfailed t ht
    rw [hnone] at hfails
    cases hfails
  · rintro (hstart | ⟨t, ht, -, codes, n, hout, -⟩)
    · rw [hactive] at hstart
      exact absurd hstart (by decide)
    · have hfails := List.all_eq_true.mp hfailed t ht
      rw [hout] at hfails
      cases hfails

end CairnId
