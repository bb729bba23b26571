import Mathlib.Data.List.Perm.Basic
import Mathlib.Data.List.ReduceOption
import CairnId.Http.ScimBulk

/-!
# The SCIM Bulk job

The rounds in which the operations of a Bulk request are executed. The job is
stated over the execution of one operation, so that the same rounds serve the
operations of the service and the calls of a specification.

## Main definitions

- `executeScimBulkJob` — the rounds
- `scimBulkJob` — the job over the operations of the service
- `scimBulk` — the handler, after the bearer token has been accepted
-/

namespace CairnId

open Concurrency Prog

def ScimError.conflict (detail : String) : ScimError := ⟨409, detail, none⟩

/-- The order in which a `HashSet` gives its elements. -/
structure IterationOrder (α : Type) where
  order : List α → List α
  perm : ∀ l, (order l).Perm l

/-- An operation with its place in the request and the `bulkId`s it refers to. -/
structure BulkItem where
  index : Nat
  operation : ScimBulkJobOperation
  dependencies : List String

/-- The `bulkId` of a `POST`. -/
def ScimBulkJobOperation.creates (operation : ScimBulkJobOperation) : Option String :=
  if isPost operation.operation.method then operation.bulkId else none

structure BulkState where
  errorCount : Nat
  bulkReferences : BulkReferences
  failedBulkIds : List String
  responses : List (Option Json)

def limitReached (failOnErrors : Option Nat) (errorCount : Nat) : Bool := match failOnErrors with
  | none => false
  | some limit => limit ≤ errorCount

section job

variable (P : Primitives)

def scimBulkResultResourceId (result : ScimOperationResult) : Option Uuid := do
  P.parseUuid (← Json.asStr? (← (← result.body).get? "id"))

def scimBulkResponse (item : BulkItem) : Except ScimError ScimOperationResult → Json
  | .ok result => scimBulkSuccessResponse item.operation.method item.operation.bulkId result
  | .error error => scimBulkErrorResponse item.operation.method item.operation.bulkId error

/-- What the job notes when an operation has ended. -/
def BulkState.ended (job : BulkState) (item : BulkItem)
    (answer : Except ScimError ScimOperationResult) : BulkState :=
  let responses := job.responses.set item.index (some (scimBulkResponse item answer))
  match answer with
  | .ok result =>
    let created := match item.operation.creates, scimBulkResultResourceId P result with
      | some bulkId, some resourceId => [(bulkId, resourceId)]
      | _, _ => []
    { job with bulkReferences := created ++ job.bulkReferences, responses := responses }
  | .error _ => { job with
      errorCount := job.errorCount + 1
      failedBulkIds := item.operation.creates.toList ++ job.failedBulkIds
      responses := responses }

def scimBulkUnresolved : ScimError :=
  .conflict "SCIM Bulk bulkId references could not be resolved"

def recordUnresolvedOperations (failOnErrors : Option Nat) : List BulkItem → BulkState → BulkState
  | [], job => job
  | item :: items, job =>
    let job := job.ended P item (.error scimBulkUnresolved)
    if limitReached failOnErrors job.errorCount then job
    else recordUnresolvedOperations failOnErrors items job

def BulkItem.isReady (creatableBulkIds : List String) (job : BulkState) (item : BulkItem) : Bool :=
  scimBulkDependenciesAreReady item.dependencies job.bulkReferences creatableBulkIds
    job.failedBulkIds

def readyItems (creatableBulkIds : List String) (job : BulkState) (pending : List BulkItem) :
    List BulkItem := pending.filter (·.isReady creatableBulkIds job)

def waitingItems (creatableBulkIds : List String) (job : BulkState) (pending : List BulkItem) :
    List BulkItem := pending.filter fun item => !item.isReady creatableBulkIds job

theorem length_waitingItems {creatableBulkIds : List String} {job : BulkState}
    {pending : List BulkItem} (h : readyItems creatableBulkIds job pending ≠ []) :
    (waitingItems creatableBulkIds job pending).length < pending.length := by
  obtain ⟨item, hready⟩ := List.exists_mem_of_ne_nil _ h
  obtain ⟨hitem, hready⟩ := List.mem_filter.mp hready
  exact List.length_filter_lt_length_iff_exists.mpr ⟨item, hitem, by simp [hready]⟩

variable {E : Type} {R : E → Type}
  (execute : BulkItem → BulkReferences → Prog E R ScimError (Except ScimError ScimOperationResult))

/-- The operations of one round, until the limit is reached. -/
def executeReady (failOnErrors : Option Nat) :
    List BulkItem → BulkState → Prog E R ScimError BulkState
  | [], job => return job
  | item :: items, job => do
    let answer ← execute item job.bulkReferences
    let job := job.ended P item answer
    if limitReached failOnErrors job.errorCount then return job
    else executeReady failOnErrors items job

variable (order : IterationOrder BulkItem)

/-- The rounds. Those left over when a round ends at the limit are not visited
    again, since then the loop ends as well. -/
def scimBulkRounds (failOnErrors : Option Nat) (creatableBulkIds : List String)
    (pending : List BulkItem) (job : BulkState) : Prog E R ScimError BulkState :=
  if pending.isEmpty || limitReached failOnErrors job.errorCount then return job
  else if _h : readyItems creatableBulkIds job pending = [] then
    return recordUnresolvedOperations P failOnErrors (order.order pending) job
  else do
    let next ← executeReady P execute failOnErrors (readyItems creatableBulkIds job pending) job
    scimBulkRounds failOnErrors creatableBulkIds (waitingItems creatableBulkIds job pending) next
termination_by pending.length
decreasing_by exact length_waitingItems ‹_›

/-- The operations with the references that the job has collected for them. -/
def bulkItems (operations : List ScimBulkJobOperation) (dependencies : List (List String)) :
    List BulkItem :=
  (operations.zip dependencies).mapIdx fun index entry => ⟨index, entry.1, entry.2⟩

def BulkState.start (operations : Nat) : BulkState := ⟨0, [], [], List.replicate operations none⟩

def executeScimBulkJob (operations : List ScimBulkJobOperation) (failOnErrors : Option Nat) :
    Prog E R ScimError (List Json) := do
  let creatableBulkIds := operations.filterMap (·.creates)
  let dependencies ← Prog.ofExcept (operations.mapM fun operation =>
    scimBulkReferenceDependencies operation.operation)
  let job ← scimBulkRounds P execute order failOnErrors creatableBulkIds
    (bulkItems operations dependencies) (.start operations.length)
  return job.responses.reduceOption

end job

section handler

variable (P : Primitives) (state : AppState) (order : IterationOrder BulkItem)
  (headers : RequestHeaders)

def executeItem (item : BulkItem) (bulkReferences : BulkReferences) :
    Scim (Except ScimError ScimOperationResult) :=
  (scimExecuteBulkOperation P state headers item.operation.operation bulkReferences).attempt

/-- `execute_scim_bulk_job`, over the operations of the service. -/
def scimBulkJob (operations : List ScimBulkJobOperation) (failOnErrors : Option Nat) :
    Scim (List Json) :=
  executeScimBulkJob P (executeItem P state headers) order operations failOnErrors

def scimBulkResponseSchema : String := "urn:ietf:params:scim:api:messages:2.0:BulkResponse"

def scimBulkLimitResponse : Nat × Json :=
  (413, .object [("schemas", .array [.string scimErrorSchema]),
    ("detail", .string "SCIM Bulk operation limit exceeded"),
    ("status", .string "413"),
    ("maxOperations", .number scimBulkMaxOperations)])

def scimBulk (payload : ScimBulkRequest) : Scim (Nat × Json) := do
  if !payload.schemas.contains scimBulkRequestSchema then
    throw (.invalidValue "SCIM Bulk request must include BulkRequest schema")
  if payload.operations.isEmpty then
    throw (.invalidValue "SCIM Bulk request must include at least one operation")
  if scimBulkMaxOperations < payload.operations.length then
    return scimBulkLimitResponse
  let failOnErrors ← Prog.ofExcept (scimBulkFailOnErrors payload.failOnErrors)
  Prog.ofExcept (validateScimBulkIds payload.operations)
  let operations ← Prog.ofExcept (scimBulkJobOperations payload.operations)
  let responses ← scimBulkJob P state order headers operations failOnErrors
  return (200, .object [("schemas", .array [.string scimBulkResponseSchema]),
    ("Operations", .array responses)])

end handler

end CairnId
