import CairnId.Database.OwnerGrants
import CairnId.Http.ProvisioningRuns
import CairnId.Http.ScimBulkJob

/-!
# The requests that change users and groups

The endpoints of SCIM, the Bulk job among them, and those of the administration, as one
family, so that any of them can be interleaved. All but one of them make nobody an owner.

## Main definitions

- `DirectoryTask` — the requests, with their handlers
- `Call.Subordinate` — a call that makes nobody an owner

## Main results

- `all_scimBulk` — a Bulk job makes nobody an owner
- `DirectoryTask.all_handler` — each request protects the group of the administrators
-/

namespace CairnId

open Concurrency Concurrency.Sql Prog Database

/-- A call that makes nobody an owner, and protects the group of the administrators where it
    protects one. -/
def Call.Subordinate (e : Call) : Prop :=
  ∀ c, e = .db c → c.granted = none ∧ c.Protects administratorsGroupSlug

theorem subordinate_db {c : DbCall} (hgranted : c.granted = none)
    (hprotects : c.Protects administratorsGroupSlug) : (Call.db c).Subordinate := by
  intro c' h
  cases h
  exact ⟨hgranted, hprotects⟩

theorem subordinate_of_isQuiet {e : Call} (h : e.isQuiet = true) : e.Subordinate := by
  cases e with
  | db c => cases c <;> first | exact subordinate_db rfl trivial | cases h
  | _ => exact fun c hc => by cases hc

theorem subordinate_nowUtc : Call.nowUtc.Subordinate := subordinate_of_isQuiet rfl

theorem subordinate_newV4 : Call.newV4.Subordinate := subordinate_of_isQuiet rfl

theorem subordinate_of_isQuery {c : DbCall} (h : c.isQuery = true) : (Call.db c).Subordinate :=
  subordinate_of_isQuiet h

theorem Call.Aside.subordinate {e : Call} (h : e.Aside) : e.Subordinate := by
  rcases h with h | ⟨event, rfl⟩
  · exact subordinate_of_isQuiet h
  · exact subordinate_db rfl trivial

/-- The writes of the requests protect the group of the administrators. -/
theorem ProvisioningTask.Writes.protects {P : Primitives} {state : AppState}
    {task : ProvisioningTask} {h : List Ev} {c : DbCall} (hwrites : task.Writes P state h c) :
    c.Protects administratorsGroupSlug := by
  cases task with
  | patchUser =>
    obtain ⟨found, input, instant, -, -, rfl⟩ := hwrites
    rfl
  | deleteUser | updateUserStatus =>
    obtain ⟨instant, rfl⟩ := hwrites
    rfl
  | patchGroup =>
    obtain ⟨group, members, input, instant, -, -, -, rfl⟩ := hwrites
    rfl
  | upsertGroupMembership =>
    obtain ⟨createdAt, rfl⟩ := hwrites
    rfl
  | deleteGroupMembership =>
    obtain rfl := hwrites
    rfl

/-- Only one kind of request makes owners. -/
theorem ProvisioningTask.Writes.granted {P : Primitives} {state : AppState}
    {task : ProvisioningTask} {h : List Ev} {c : DbCall} {u : UserId}
    (hwrites : task.Writes P state h c) (hgranted : c.granted = some u) :
    ∃ headers groupId, task = .upsertGroupMembership headers groupId u .owner := by
  cases task with
  | upsertGroupMembership headers groupId userId role =>
    obtain ⟨createdAt, rfl⟩ := hwrites
    obtain ⟨hrole, huser⟩ : role = .owner ∧ userId = u := by
      simpa [DbCall.granted] using hgranted
    exact ⟨headers, groupId, by rw [hrole, huser]⟩
  | patchUser =>
    obtain ⟨found, input, instant, -, -, rfl⟩ := hwrites
    cases hgranted
  | deleteUser | updateUserStatus =>
    obtain ⟨instant, rfl⟩ := hwrites
    cases hgranted
  | patchGroup =>
    obtain ⟨group, members, input, instant, -, -, -, rfl⟩ := hwrites
    cases hgranted
  | deleteGroupMembership =>
    obtain rfl := hwrites
    cases hgranted

variable {P : Primitives} {state : AppState}

theorem subordinate_of_provisioningPre {task : ProvisioningTask}
    (htask : ∀ headers groupId userId role,
      task ≠ .upsertGroupMembership headers groupId userId role) {h : List Ev} {e : Call}
    (hpre : provisioningPre P state task h e) : e.Subordinate := by
  rcases hpre with haside | ⟨c, rfl, hwrites⟩
  · exact haside.subordinate
  · refine subordinate_db (Option.eq_none_iff_forall_ne_some.mpr fun u hgranted => ?_)
      hwrites.protects
    obtain ⟨headers, groupId, rfl⟩ := hwrites.granted hgranted
    exact htask headers groupId u .owner rfl

-- the operations of SCIM

theorem all_scimApplyUserUpdate (userId : UserId) (input : ScimUserInput) :
    (scimApplyUserUpdate state userId input).All Call.Subordinate := by
  refine .bind (.perform subordinate_nowUtc) fun instant =>
    .bind (Scim.all_db (subordinate_db rfl rfl)) fun outcome => ?_
  split <;> trivial

theorem all_scimApplyGroupReplace (groupId : GroupId) (input : ScimGroupInput) :
    (scimApplyGroupReplace state groupId input).All Call.Subordinate := by
  refine .bind (.perform subordinate_nowUtc) fun instant =>
    .bind (Scim.all_db (subordinate_db rfl rfl)) fun outcome => ?_
  split <;> trivial

variable (headers : RequestHeaders)

theorem subordinate_insertAuditEvent (b : AuditEventBuilder) :
    (Scim.insertAuditEvent headers b).All Call.Subordinate :=
  (Scim.all_insertAuditEvent headers b).mono fun _ he => he.subordinate

/-- A check of the input makes no call. -/
theorem all_checked {α β : Type} {x : ScimResult α} {f : α → Scim β} {Q : Call → Prop}
    (hf : ∀ a, (f a).All Q) : (Prog.ofExcept x >>= f).All Q :=
  All.bind (All.ofExcept x) hf

-- the program has a name of its own, since the checks of its texts do not reduce
theorem all_newUser {o : OrganizationId} {email displayName : String} {p : Scim User}
    (h : newUser o email displayName = p) : p.All Call.Subordinate := by
  rw [← h, newUser]
  generalize scimNormalizeEmail email = checkedEmail
  refine all_checked fun email => ?_
  generalize (checkedString "display_name" displayName 160).mapError ScimError.ofDomain =
    checkedName
  refine all_checked fun displayName => ?_
  exact All.bind (All.perform subordinate_nowUtc) fun _ =>
    All.bind (All.perform subordinate_newV4) fun _ => All.ret _

theorem all_scimCreateUserOperation (payload : ScimUserRequest) :
    (scimCreateUserOperation P state headers payload).All Call.Subordinate := by
  unfold scimCreateUserOperation
  generalize scimUserInput payload = checkedInput
  refine all_checked fun input => ?_
  generalize hnew : newUser state.organizationId input.email input.displayName = creating
  refine All.bind (Scim.all_db (subordinate_of_isQuery rfl)) fun found => ?_
  dsimp only
  by_cases hfound : found.isSome = true
  · rw [if_pos hfound]
    exact All.fail _
  rw [if_neg hfound]
  refine All.bind ?_ fun taken => ?_
  · split
    · exact All.bind (Scim.all_db (subordinate_of_isQuery rfl)) fun _ => All.ret _
    · exact All.ret _
  by_cases htaken : taken = true
  · rw [if_pos htaken]
    exact All.fail _
  rw [if_neg htaken]
  refine All.bind (all_newUser hnew) fun user => ?_
  refine All.bind (Scim.all_db (subordinate_db rfl trivial)) fun _ => ?_
  exact All.bind (subordinate_insertAuditEvent headers _) fun _ => All.ret _

theorem all_scimReplaceUserOperation (userId : UserId) (payload : ScimUserRequest) :
    (scimReplaceUserOperation P state headers userId payload).All Call.Subordinate :=
  All.bind (All.ofExcept _) fun _ => All.bind (all_scimApplyUserUpdate ..) fun _ =>
    All.bind (subordinate_insertAuditEvent headers _) fun _ => All.ret _

theorem all_groupResourceResult (status : Nat) (group : Group) :
    (groupResourceResult P state status group).All Call.Subordinate :=
  All.bind (Scim.all_db (subordinate_of_isQuery rfl)) fun _ => All.ret _

theorem all_scimCreateGroupOperation (payload : ScimGroupRequest) :
    (scimCreateGroupOperation P state headers payload).All Call.Subordinate := by
  unfold scimCreateGroupOperation
  generalize scimGroupInput payload = checkedInput
  refine all_checked fun input => ?_
  refine All.bind (All.perform subordinate_nowUtc) fun now => ?_
  refine All.bind (All.perform subordinate_newV4) fun groupId => ?_
  generalize scimGroupSlug groupId input.externalId input.displayName = checkedSlug
  refine all_checked fun slug => ?_
  refine All.bind (All.bind (Scim.all_db (subordinate_db rfl trivial)) fun outcome => ?_)
    fun group => ?_
  · cases outcome <;> trivial
  · exact All.bind (subordinate_insertAuditEvent headers _) fun _ => all_groupResourceResult ..

theorem all_scimReplaceGroupOperation (groupId : GroupId) (payload : ScimGroupRequest) :
    (scimReplaceGroupOperation P state headers groupId payload).All Call.Subordinate :=
  All.bind (All.ofExcept _) fun _ => All.bind (all_scimApplyGroupReplace ..) fun _ =>
    All.bind (subordinate_insertAuditEvent headers _) fun _ => all_groupResourceResult ..

theorem all_scimDeleteGroupOperation (groupId : GroupId) :
    (scimDeleteGroupOperation state headers groupId).All Call.Subordinate := by
  refine All.bind (Scim.all_db (subordinate_db rfl rfl)) fun outcome => ?_
  split
  · exact All.bind (subordinate_insertAuditEvent headers _) fun _ => All.ret _
  all_goals trivial

theorem all_scimPatchUserOperation (userId : UserId) (payload : ScimPatchRequest) :
    (scimPatchUserOperation P state headers userId payload).All Call.Subordinate :=
  (sat_patchUser headers userId payload).all fun _ _ hpre =>
    subordinate_of_provisioningPre (fun _ _ _ _ h => by cases h) hpre

theorem all_scimDeleteUserOperation (userId : UserId) :
    (scimDeleteUserOperation state headers userId).All Call.Subordinate := by
  refine All.bind (All.perform subordinate_nowUtc) fun now =>
    All.bind (Scim.all_db (subordinate_db rfl rfl)) fun outcome => ?_
  split
  · exact All.bind (subordinate_insertAuditEvent headers _) fun _ => All.ret _
  all_goals trivial

theorem all_scimPatchGroupOperation (groupId : GroupId) (payload : ScimPatchRequest) :
    (scimPatchGroupOperation P state headers groupId payload).All Call.Subordinate :=
  (sat_patchGroup headers groupId payload).all fun _ _ hpre =>
    subordinate_of_provisioningPre (fun _ _ _ _ h => by cases h) hpre

-- the Bulk job

/-- Each operation of a Bulk request is one of those above. -/
theorem all_scimExecuteBulkOperation {headers : RequestHeaders}
    {operation : ScimBulkOperationRequest} {bulkReferences : BulkReferences}
    {p : Scim ScimOperationResult}
    (h : scimExecuteBulkOperation P state headers operation bulkReferences = p) :
    p.All Call.Subordinate := by
  rw [← h, scimExecuteBulkOperation]
  generalize ScimBulkMethod.parse operation.method = checkedMethod
  refine all_checked fun method => ?_
  generalize scimResolveBulkPathReferences operation.path bulkReferences = resolvedPath
  refine all_checked fun resolvedPath => ?_
  generalize scimBulkPath P resolvedPath = checkedPath
  refine all_checked fun path => ?_
  cases method with
  | post =>
    cases path with
    | users => exact all_checked fun _ => all_checked fun _ => all_scimCreateUserOperation ..
    | groups => exact all_checked fun _ => all_checked fun _ => all_scimCreateGroupOperation ..
    | user | group => exact All.fail _
  | put =>
    cases path with
    | user => exact all_checked fun _ => all_scimReplaceUserOperation ..
    | group => exact all_checked fun _ => all_scimReplaceGroupOperation ..
    | users | groups => exact All.fail _
  | patch =>
    cases path with
    | user => exact all_checked fun _ => all_scimPatchUserOperation ..
    | group => exact all_checked fun _ => all_scimPatchGroupOperation ..
    | users | groups => exact All.fail _
  | delete =>
    cases path with
    | user => exact all_checked fun _ => all_scimDeleteUserOperation ..
    | group => exact all_checked fun _ => all_scimDeleteGroupOperation ..
    | users | groups => exact All.fail _

section job

variable {E : Type} {R : E → Type} {Q : E → Prop}
  {execute : BulkItem → BulkReferences → Prog E R ScimError (Except ScimError ScimOperationResult)}
  (hexecute : ∀ item bulkReferences, (execute item bulkReferences).All Q)

include hexecute

theorem all_executeReady (failOnErrors : Option Nat) (items : List BulkItem) (job : BulkState) :
    (executeReady P execute failOnErrors items job).All Q := by
  induction items generalizing job with
  | nil => exact All.ret _
  | cons item items ih =>
    refine All.bind (hexecute item job.bulkReferences) fun answer => ?_
    dsimp only
    split
    · exact All.ret _
    · exact ih _

/-- What holds of the calls of each operation holds of the calls of the job. -/
theorem all_scimBulkRounds (order : IterationOrder BulkItem) (failOnErrors : Option Nat)
    (creatableBulkIds : List String) (pending : List BulkItem) (job : BulkState) :
    (scimBulkRounds P execute order failOnErrors creatableBulkIds pending job).All Q := by
  induction pending, job using scimBulkRounds.induct failOnErrors creatableBulkIds with
  | case1 pending job hend =>
    rw [scimBulkRounds, if_pos hend]
    exact All.ret _
  | case2 pending job hend hready =>
    rw [scimBulkRounds, if_neg hend, dif_pos hready]
    exact All.ret _
  | case3 pending job hend hready ih =>
    rw [scimBulkRounds, if_neg hend, dif_neg hready]
    exact All.bind (all_executeReady hexecute ..) fun next => ih next

end job

theorem all_scimBulk (order : IterationOrder BulkItem) (payload : ScimBulkRequest) :
    (scimBulk P state order headers payload).All Call.Subordinate := by
  unfold scimBulk
  dsimp only
  split
  · exact All.fail _
  split
  · exact All.fail _
  split
  · exact All.ret _
  generalize scimBulkFailOnErrors payload.failOnErrors = checkedLimit
  refine all_checked fun failOnErrors => ?_
  generalize validateScimBulkIds payload.operations = checkedIds
  refine all_checked fun _ => ?_
  generalize scimBulkJobOperations payload.operations = checkedOperations
  refine all_checked fun operations => ?_
  refine All.bind ?_ fun responses => All.ret _
  unfold scimBulkJob executeScimBulkJob
  refine all_checked fun dependencies => All.bind ?_ fun job => All.ret _
  refine all_scimBulkRounds (fun item bulkReferences => ?_) ..
  unfold executeItem
  generalize hexecute : scimExecuteBulkOperation P state headers item.operation.operation
    bulkReferences = executing
  exact (all_scimExecuteBulkOperation hexecute).attempt

-- the family

/-- The requests of SCIM and of the administration that change users and groups. -/
inductive DirectoryTask where
  | provisioning (task : ProvisioningTask)
  | createUser (headers : RequestHeaders) (payload : ScimUserRequest)
  | replaceUser (headers : RequestHeaders) (userId : UserId) (payload : ScimUserRequest)
  | createGroup (headers : RequestHeaders) (payload : ScimGroupRequest)
  | replaceGroup (headers : RequestHeaders) (groupId : GroupId) (payload : ScimGroupRequest)
  | deleteGroup (headers : RequestHeaders) (groupId : GroupId)
  | bulk (headers : RequestHeaders) (payload : ScimBulkRequest)

inductive DirectoryAnswer where
  | provisioning (answer : ProvisioningAnswer)
  | scim (result : ScimOperationResult)
  | bulk (response : Nat × Json)

/-- A program of SCIM that answers with `f` of its result. -/
def replying {α : Type} (f : α → DirectoryAnswer) (p : Scim α) :
    Prog Call Call.Answer ProvisioningError DirectoryAnswer :=
  p.mapError .scim >>= fun a => .ret (f a)

variable (P state) in
def DirectoryTask.handler (order : IterationOrder BulkItem) :
    DirectoryTask → Prog Call Call.Answer ProvisioningError DirectoryAnswer
  | .provisioning task => task.handler P state >>= fun a => .ret (.provisioning a)
  | .createUser headers payload =>
    replying .scim (scimCreateUserOperation P state headers payload)
  | .replaceUser headers userId payload =>
    replying .scim (scimReplaceUserOperation P state headers userId payload)
  | .createGroup headers payload =>
    replying .scim (scimCreateGroupOperation P state headers payload)
  | .replaceGroup headers groupId payload =>
    replying .scim (scimReplaceGroupOperation P state headers groupId payload)
  | .deleteGroup headers groupId =>
    replying .scim (scimDeleteGroupOperation state headers groupId)
  | .bulk headers payload => replying .bulk (scimBulk P state order headers payload)

variable (P state) in
abbrev directoryMachine (order : IterationOrder BulkItem) : Machine Call Call.Answer
    DirectoryTask World Choice ProvisioningError DirectoryAnswer where
  handler := DirectoryTask.handler P state order
  exec _ := Call.exec P

theorem all_replying {α : Type} {f : α → DirectoryAnswer} {p : Scim α}
    (hp : p.All Call.Subordinate) : (replying f p).All Call.Subordinate :=
  All.bind hp.mapError fun _ => All.ret _

/-- All requests but one kind make nobody an owner. -/
theorem DirectoryTask.all_subordinate (order : IterationOrder BulkItem) {task : DirectoryTask}
    (htask : ∀ provisioning, task ≠ .provisioning provisioning) :
    (task.handler P state order).All Call.Subordinate := by
  cases task with
  | provisioning task => exact absurd rfl (htask task)
  | createUser => exact all_replying (all_scimCreateUserOperation ..)
  | replaceUser => exact all_replying (all_scimReplaceUserOperation ..)
  | createGroup => exact all_replying (all_scimCreateGroupOperation ..)
  | replaceGroup => exact all_replying (all_scimReplaceGroupOperation ..)
  | deleteGroup => exact all_replying (all_scimDeleteGroupOperation ..)
  | bulk => exact all_replying (all_scimBulk ..)

/-- Every request protects the group of the administrators. -/
theorem DirectoryTask.all_handler (order : IterationOrder BulkItem) (task : DirectoryTask) :
    (task.handler P state order).All
      fun e => ∀ c, e = .db c → c.Protects administratorsGroupSlug := by
  by_cases htask : ∀ provisioning, task ≠ .provisioning provisioning
  · exact (all_subordinate order htask).mono fun _ he c hc => (he c hc).2
  · obtain ⟨provisioning, rfl⟩ : ∃ provisioning, task = .provisioning provisioning := by
      simpa using htask
    refine All.bind ((sat_provisioning provisioning).all fun _ _ hpre c hc => ?_) fun _ => All.ret _
    rcases hpre with haside | ⟨c', rfl, hwrites⟩
    · exact (haside.subordinate c hc).2
    · cases hc
      exact hwrites.protects

end CairnId
