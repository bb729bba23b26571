import CairnId.Database.Provisioning
import CairnId.Http.Provisioning
import CairnId.Http.RequestSpec

/-!
# Runs of provisioning requests

The requests that change users and groups side by side, and what each of them
writes: a PATCH request writes what it made of the resource that it read in an
earlier step.
-/

namespace CairnId

open Concurrency Prog App Database

inductive ProvisioningTask where
  | patchUser (headers : RequestHeaders) (userId : UserId) (payload : ScimPatchRequest)
  | deleteUser (headers : RequestHeaders) (userId : UserId)
  | updateUserStatus (headers : RequestHeaders) (userId : UserId) (status : UserStatus)
  | patchGroup (headers : RequestHeaders) (groupId : GroupId) (payload : ScimPatchRequest)
  | upsertGroupMembership (headers : RequestHeaders) (groupId : GroupId) (userId : UserId)
      (role : MembershipRole)
  | deleteGroupMembership (headers : RequestHeaders) (groupId : GroupId) (userId : UserId)

inductive ProvisioningError where
  | scim (e : ScimError)
  | api (e : ApiError)

inductive ProvisioningAnswer where
  | scim (result : ScimOperationResult)
  | user (user : User)
  | membership (membership : Membership)
  | deleted

/-- A program of the pool that answers with `f` of its result. -/
def answering {ε α : Type} (f : α → ProvisioningAnswer) (g : ε → ProvisioningError)
    (p : Prog Call Call.Answer ε α) : Prog Call Call.Answer ProvisioningError ProvisioningAnswer :=
  p.mapError g >>= fun a => .ret (f a)

namespace ProvisioningTask

variable (P : Primitives) (state : AppState)

def handler : ProvisioningTask → Prog Call Call.Answer ProvisioningError ProvisioningAnswer
  | .patchUser headers userId payload =>
    answering .scim .scim (scimPatchUserOperation P state headers userId payload)
  | .deleteUser headers userId =>
    answering .scim .scim (scimDeleteUserOperation state headers userId)
  | .updateUserStatus headers userId status =>
    answering .user .api (CairnId.updateUserStatus P state headers userId status)
  | .patchGroup headers groupId payload =>
    answering .scim .scim (scimPatchGroupOperation P state headers groupId payload)
  | .upsertGroupMembership headers groupId userId role =>
    answering .membership .api (CairnId.upsertGroupMembership P state headers groupId userId role)
  | .deleteGroupMembership headers groupId userId =>
    answering (fun _ => .deleted) .api (CairnId.deleteGroupMembership P state headers groupId userId)

/-- The call with which a request changes a user or a group, given the calls it
    has made before. -/
def Writes : ProvisioningTask → List Ev → DbCall → Prop
  | .patchUser _ userId payload, h, c => ∃ found input instant,
      ⟨.db (.getUserWithPassword state.organizationId userId), .ok (some found)⟩ ∈ h ∧
        scimPatchUserInput found.user payload = .ok input ∧
        c = .updateUserFromScim (scimUserUpdateInput state userId input instant)
  | .deleteUser _ userId, _, c => ∃ instant,
      c = .updateUserStatus state.organizationId userId .suspended administratorsGroupSlug instant
  | .updateUserStatus _ userId status, _, c => ∃ instant,
      c = .updateUserStatus state.organizationId userId status administratorsGroupSlug instant
  | .patchGroup _ groupId payload, h, c => ∃ group members input instant,
      ⟨.db (.getGroup state.organizationId groupId), .ok (some group)⟩ ∈ h ∧
        ⟨.db (.listScimGroupMembersForGroups state.organizationId [group.id]), .ok members⟩ ∈ h ∧
        scimPatchGroupInput P group members payload = .ok input ∧
        c = .replaceScimGroup (scimGroupReplaceInput state groupId input instant)
  | .upsertGroupMembership _ groupId userId role, _, c => ∃ createdAt,
      c = .upsertGroupMembership ⟨state.organizationId, userId, groupId, role, createdAt⟩
        administratorsGroupSlug
  | .deleteGroupMembership _ groupId userId, _, c =>
      c = .deleteGroupMembership state.organizationId groupId userId administratorsGroupSlug

end ProvisioningTask

/-- The write of a request was made. -/
def applied : Ev → Bool
  | ⟨.db (.updateUserFromScim _), .ok outcome⟩ => outcome.isApplied
  | ⟨.db (.updateUserStatus _ _ _ _ _), .ok outcome⟩ => outcome.isApplied
  | ⟨.db (.replaceScimGroup _), .ok (.applied _)⟩ => true
  | ⟨.db (.upsertGroupMembership _ _), .ok .applied⟩ => true
  | ⟨.db (.deleteGroupMembership _ _ _ _), .ok .applied⟩ => true
  | _ => false

/-- A call that changes neither users nor groups. -/
def Call.Aside (e : Call) : Prop := e.isQuiet = true ∨ ∃ event, e = .db (.insertAuditEvent event)

variable (P : Primitives) (state : AppState)

/-- Besides its write a request reads and leaves an audit event. -/
def provisioningPre (task : ProvisioningTask) (h : List Ev) (e : Call) : Prop :=
  e.Aside ∨ ∃ c, e = .db c ∧ task.Writes P state h c

/-- A request that succeeds has made its write. -/
def provisioningPost {ε α : Type} (h : List Ev) : Except ε α → Prop
  | .ok _ => ∃ ev ∈ h, applied ev = true
  | .error _ => True

abbrev provisioningMachine : Machine Call Call.Answer ProvisioningTask World Choice
    ProvisioningError ProvisioningAnswer where
  handler := ProvisioningTask.handler P state
  exec _ := Call.exec P

section rules

variable {P state} {task : ProvisioningTask} {ε α β : Type} {h : List Ev}

/-- A part that only reads. -/
theorem provisioning_skip {p : Prog Call Call.Answer ε α} {f : α → Prog Call Call.Answer ε β}
    (hp : p.All fun e => e.isQuiet = true)
    (hf : ∀ l a, (f a).Sat (provisioningPre P state task) provisioningPost (l ++ h)) :
    (p >>= f).Sat (provisioningPre P state task) provisioningPost h :=
  Sat.skip_bind hp (fun _ _ _ he => .inl (.inl he)) (fun l a _ => hf l a) fun _ _ _ => trivial

theorem provisioning_perform {e : Call} {f : e.Answer → Prog Call Call.Answer ε β}
    (he : e.isQuiet = true)
    (hf : ∀ r, (f r).Sat (provisioningPre P state task) provisioningPost (⟨e, r⟩ :: h)) :
    (Prog.perform e >>= f).Sat (provisioningPre P state task) provisioningPost h :=
  ⟨.inl (.inl he), hf⟩

/-- The part after the write. -/
theorem provisioning_tail {p : Prog Call Call.Answer ε α} (hp : p.All Call.Aside)
    (hdone : ∃ ev ∈ h, applied ev = true) :
    p.Sat (provisioningPre P state task) provisioningPost h := by
  induction p generalizing h with
  | ret a => exact hdone
  | fail e => trivial
  | call e k ih =>
    refine ⟨.inl hp.1, fun r => ih r (hp.2 r) ?_⟩
    obtain ⟨ev, hev, hap⟩ := hdone
    exact ⟨ev, List.mem_cons_of_mem _ hev, hap⟩

theorem Scim.sat_db_bind {c : DbCall} {f : c.Result → Scim β}
    (hpre : provisioningPre P state task h (.db c))
    (hok : ∀ a, (f a).Sat (provisioningPre P state task) provisioningPost (⟨.db c, .ok a⟩ :: h)) :
    (Scim.db c >>= f).Sat (provisioningPre P state task) provisioningPost h := by
  refine ⟨hpre, fun r => ?_⟩
  cases r with
  | ok a => exact hok a
  | error e => trivial

theorem Scim.all_db {c : DbCall} {Q : Call → Prop} (hc : Q (.db c)) : (Scim.db c).All Q := by
  refine ⟨hc, fun r => ?_⟩
  cases r <;> trivial

theorem Scim.all_insertAuditEvent (headers : RequestHeaders) (b : AuditEventBuilder) :
    (Scim.insertAuditEvent headers b).All Call.Aside :=
  .bind (.perform (.inl rfl)) fun _ => .bind (.perform (.inl rfl)) fun _ =>
    Scim.all_db (.inr ⟨_, rfl⟩)

theorem aside_insertAuditEvent (b : AuditEventBuilder) :
    (CairnId.insertAuditEvent b).All Call.Aside :=
  .bind (.perform (.inl rfl)) fun _ => .bind (.perform (.inl rfl)) fun _ =>
    all_app_db (.inr ⟨_, rfl⟩)

theorem sat_answering {f : α → ProvisioningAnswer} {g : ε → ProvisioningError}
    {p : Prog Call Call.Answer ε α} (hp : p.Sat (provisioningPre P state task) provisioningPost h) :
    (answering f g p).Sat (provisioningPre P state task) provisioningPost h := by
  have hmapped : (p.mapError g).Sat (provisioningPre P state task) provisioningPost h :=
    hp.mapError (fun _ _ h => h) fun _ _ h => h
  exact hmapped.bind (fun _ _ h => (sat_ret _).mpr h) fun _ _ h => h

end rules

section sat

variable {P state}

theorem sat_patchUser (headers : RequestHeaders) (userId : UserId) (payload : ScimPatchRequest) :
    (scimPatchUserOperation P state headers userId payload).Sat
      (provisioningPre P state (.patchUser headers userId payload)) provisioningPost [] := by
  unfold scimPatchUserOperation scimGetTenantUser
  rw [Prog.bind_assoc]
  refine Scim.sat_db_bind (.inl (.inl rfl)) fun found => ?_
  cases found with
  | none => trivial
  | some found =>
    cases hinput : scimPatchUserInput found.user payload with
    | error e =>
      simp only [pure_eq, ret_bind, hinput, Prog.ofExcept, fail_bind]
      trivial
    | ok input =>
      simp only [pure_eq, ret_bind, hinput, Prog.ofExcept]
      unfold scimApplyUserUpdate
      rw [Prog.bind_assoc]
      refine provisioning_perform rfl fun instant => ?_
      rw [Prog.bind_assoc]
      refine Scim.sat_db_bind (.inr ⟨_, rfl, found, input, instant, by simp, hinput, rfl⟩)
        fun outcome => ?_
      cases outcome with
      | applied user =>
        exact provisioning_tail (.bind (.ret user) fun _ =>
          .bind (Scim.all_insertAuditEvent ..) fun _ => .ret _) ⟨_, .head _, rfl⟩
      | notFound | wouldDeactivateLastOwner | emailAlreadyExists | externalIdAlreadyExists =>
        trivial

theorem sat_deleteUser (headers : RequestHeaders) (userId : UserId) :
    (scimDeleteUserOperation state headers userId).Sat
      (provisioningPre P state (.deleteUser headers userId)) provisioningPost [] := by
  refine provisioning_perform rfl fun now => ?_
  refine Scim.sat_db_bind (.inr ⟨_, rfl, now, rfl⟩) fun outcome => ?_
  cases outcome with
  | applied user =>
    exact provisioning_tail (.bind (Scim.all_insertAuditEvent ..) fun _ => .ret _)
      ⟨_, .head _, rfl⟩
  | notFound | wouldDeactivateLastOwner => trivial

theorem sat_updateUserStatus (headers : RequestHeaders) (userId : UserId) (status : UserStatus) :
    (updateUserStatus P state headers userId status).Sat
      (provisioningPre P state (.updateUserStatus headers userId status)) provisioningPost [] := by
  refine provisioning_skip (all_requireRecentAdminSession P state headers) fun l actor => ?_
  refine provisioning_skip (all_requireCsrf headers) fun l' _ => ?_
  refine provisioning_perform rfl fun now => ?_
  refine sat_db_bind (.inr ⟨_, rfl, now, rfl⟩) (fun outcome => ?_) fun _ => trivial
  cases outcome with
  | applied user =>
    exact provisioning_tail (.bind (aside_insertAuditEvent _) fun _ => .ret _) ⟨_, .head _, rfl⟩
  | notFound | wouldDeactivateLastOwner => trivial

theorem sat_patchGroup (headers : RequestHeaders) (groupId : GroupId)
    (payload : ScimPatchRequest) :
    (scimPatchGroupOperation P state headers groupId payload).Sat
      (provisioningPre P state (.patchGroup headers groupId payload)) provisioningPost [] := by
  unfold scimPatchGroupOperation scimGetTenantGroup
  rw [Prog.bind_assoc]
  refine Scim.sat_db_bind (.inl (.inl rfl)) fun found => ?_
  cases found with
  | none => trivial
  | some group =>
    refine Scim.sat_db_bind (.inl (.inl rfl)) fun members => ?_
    cases hinput : scimPatchGroupInput P group members payload with
    | error e =>
      simp only [Prog.ofExcept, fail_bind]
      trivial
    | ok input =>
      simp only [Prog.ofExcept, ret_bind]
      unfold scimApplyGroupReplace
      rw [Prog.bind_assoc]
      refine provisioning_perform rfl fun instant => ?_
      rw [Prog.bind_assoc]
      refine Scim.sat_db_bind
        (.inr ⟨_, rfl, group, members, input, instant, by simp, by simp, hinput, rfl⟩)
        fun outcome => ?_
      cases outcome with
      | applied group =>
        exact provisioning_tail (.bind (.ret group) fun _ =>
          .bind (Scim.all_insertAuditEvent ..) fun _ =>
          .bind (Scim.all_db (.inl rfl)) fun _ => .ret _) ⟨_, .head _, rfl⟩
      | notFound | slugAlreadyExists | externalIdAlreadyExists | memberNotFound
      | wouldModifyProtectedGroup => trivial

theorem sat_upsertGroupMembership (headers : RequestHeaders) (groupId : GroupId)
    (userId : UserId) (role : MembershipRole) :
    (upsertGroupMembership P state headers groupId userId role).Sat
      (provisioningPre P state (.upsertGroupMembership headers groupId userId role))
      provisioningPost [] := by
  refine provisioning_skip (all_requireRecentAdminSession P state headers) fun l actor => ?_
  refine provisioning_skip (all_requireCsrf headers) fun l' _ => ?_
  refine provisioning_perform rfl fun createdAt => ?_
  refine sat_db_bind (.inr ⟨_, rfl, createdAt, rfl⟩) (fun outcome => ?_) fun _ => trivial
  cases outcome with
  | applied =>
    refine provisioning_tail (.bind (all_app_db (.inl rfl)) fun stored => ?_) ⟨_, .head _, rfl⟩
    cases stored with
    | none => trivial
    | some stored => exact .bind (aside_insertAuditEvent _) fun _ => .ret _
  | notFound | wouldRemoveLastOwner => trivial

theorem sat_deleteGroupMembership (headers : RequestHeaders) (groupId : GroupId)
    (userId : UserId) :
    (deleteGroupMembership P state headers groupId userId).Sat
      (provisioningPre P state (.deleteGroupMembership headers groupId userId))
      provisioningPost [] := by
  refine provisioning_skip (all_requireRecentAdminSession P state headers) fun l actor => ?_
  refine provisioning_skip (all_requireCsrf headers) fun l' _ => ?_
  refine sat_db_bind (.inr ⟨_, rfl, rfl⟩) (fun outcome => ?_) fun _ => trivial
  cases outcome with
  | applied => exact provisioning_tail (aside_insertAuditEvent _) ⟨_, .head _, rfl⟩
  | notFound | wouldRemoveLastOwner => trivial

/-- Every request meets the specification of its kind. -/
theorem sat_provisioning (task : ProvisioningTask) :
    (task.handler P state).Sat (provisioningPre P state task) provisioningPost [] := by
  cases task with
  | patchUser => exact sat_answering (sat_patchUser ..)
  | deleteUser => exact sat_answering (sat_deleteUser ..)
  | updateUserStatus => exact sat_answering (sat_updateUserStatus ..)
  | patchGroup => exact sat_answering (sat_patchGroup ..)
  | upsertGroupMembership => exact sat_answering (sat_upsertGroupMembership ..)
  | deleteGroupMembership => exact sat_answering (sat_deleteGroupMembership ..)

end sat

theorem Call.Aside.leaves {e : Call} (h : e.Aside) {t : Tab} (ht : t ≠ .auditEvents) :
    e.Leaves t := by
  rcases h with h | ⟨event, rfl⟩
  · exact Call.leaves_of_isQuiet h t
  · exact leaves_insertAuditEvent event ht

theorem applied_error (c : DbCall) (e : DatabaseError) : applied ⟨.db c, .error e⟩ = false := by
  cases c <;> rfl

theorem not_applied_of_aside {e : Call} (h : e.Aside) (r : e.Answer) : applied ⟨e, r⟩ = false := by
  rcases h with h | ⟨event, rfl⟩
  · cases e with
    | db c => cases c <;> first | rfl | cases h
    | _ => rfl
  · rfl

section writes

variable {P state} {w₀ : World}
  {p : Pool Call.Answer ProvisioningTask World ProvisioningError ProvisioningAnswer}

/-- A write that was made is the write of its request. -/
theorem writes_of_applied (h : (provisioningMachine P state).Reachable w₀ p) {i : ℕ} {ev : Ev}
    (hev : ev ∈ own i p.trace) (happ : applied ev = true) :
    ∃ t h₀ c, p.threads[i]? = some t ∧ h₀ ⊆ own i p.trace ∧ ev.1 = .db c ∧
      t.request.Writes P state h₀ c := by
  obtain ⟨x, hx, rfl, rfl⟩ := mem_own.mp hev
  obtain ⟨tr₁, tr₂, htr⟩ := List.append_of_mem hx
  obtain ⟨t, ht, haside | ⟨c, hc, hwrites⟩⟩ := h.admissible sat_provisioning htr
  · rw [not_applied_of_aside haside] at happ
    cases happ
  · refine ⟨t, own x.thread tr₂, c, ht, fun ev' hev' => ?_, hc, hwrites⟩
    rw [htr, own_append]
    exact List.mem_append_right _ (mem_own_cons.mpr (.inr hev'))

end writes

end CairnId
