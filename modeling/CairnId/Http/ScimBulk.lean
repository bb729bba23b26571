import Mathlib.Data.List.Infix
import CairnId.Http.ScimOperations

/-!
# SCIM Bulk

The job behind `POST /scim/v2/Bulk`: which operations of a request are executed, in
which order, and with what in place of their `bulkId:` references.

## Main definitions

- `executeScimBulkJob` — the job, over the execution of single operations
- `scimExecuteBulkOperation` — the execution of one operation
- `scimBulk` — the handler, after the bearer token has been accepted
-/

namespace CairnId

open Concurrency Prog App

-- scim_bulk/contract

structure ScimBulkOperationRequest where
  method : String
  bulkId : Option String
  path : String
  data : Option Json

structure ScimBulkRequest where
  schemas : List String
  failOnErrors : Option Nat
  operations : List ScimBulkOperationRequest

structure ScimBulkJobOperation where
  method : String
  bulkId : Option String
  operation : ScimBulkOperationRequest

def scimBulkRequestSchema : String := "urn:ietf:params:scim:api:messages:2.0:BulkRequest"
def scimErrorSchema : String := "urn:ietf:params:scim:api:messages:2.0:Error"
def scimBulkMaxOperations : Nat := 50

inductive ScimBulkMethod where
  | post
  | put
  | patch
  | delete
  deriving DecidableEq

inductive ScimBulkPath where
  | users
  | user (userId : UserId)
  | groups
  | group (groupId : GroupId)
  deriving DecidableEq

def isPost (method : String) : Bool := eqIgnoreAsciiCase method "POST"

def ScimBulkMethod.parse (value : String) : ScimResult ScimBulkMethod :=
  if isPost value then .ok .post
  else if eqIgnoreAsciiCase value "PUT" then .ok .put
  else if eqIgnoreAsciiCase value "PATCH" then .ok .patch
  else if eqIgnoreAsciiCase value "DELETE" then .ok .delete
  else .error (.invalidValue "unsupported SCIM Bulk method")

/-- `str::strip_prefix`. -/
def stripPrefix (lead value : String) : Option String :=
  if lead.toList.isPrefixOf value.toList then
    some (String.ofList (value.toList.drop lead.length))
  else none

section path

variable (P : Primitives)

def scimBulkPath (rawPath : String) : ScimResult ScimBulkPath :=
  let path := trim rawPath
  if path.isEmpty then .error (.invalidPath "SCIM Bulk path cannot be empty")
  else if "://".toList <:+: path.toList ∨ path.toList.contains '?' ∨ path.toList.contains '#' then
    .error (.invalidPath "SCIM Bulk path must be relative to the SCIM service root")
  else
    let path := String.ofList (path.toList.dropWhile (· = '/'))
    let path := (stripPrefix "scim/v2/" path).getD path
    let path := (stripPrefix "v2/" path).getD path
    let segments := splitAt '/' path
    if segments.any String.isEmpty then .error (.invalidPath "invalid SCIM Bulk path")
    else match segments with
      | ["Users"] => .ok .users
      | ["Users", userId] => match P.parseUuid userId with
        | some userId => .ok (.user userId)
        | none => .error (.invalidPath "SCIM Bulk user path must include a UUID")
      | ["Groups"] => .ok .groups
      | ["Groups", groupId] => match P.parseUuid groupId with
        | some groupId => .ok (.group groupId)
        | none => .error (.invalidPath "SCIM Bulk group path must include a UUID")
      | _ => .error (.invalidPath "unsupported SCIM Bulk path")

end path

def scimBulkFailOnErrors (value : Option Nat) : ScimResult (Option Nat) := match value with
  | none => .ok none
  | some limit =>
    if 1 ≤ limit ∧ limit ≤ scimBulkMaxOperations then .ok (some limit)
    else .error (.invalidValue "failOnErrors out of range")

/-- `str::to_ascii_uppercase`. -/
def asciiUppercase (value : String) : String :=
  String.ofList (value.toList.map fun c =>
    if 'a' ≤ c && c ≤ 'z' then Char.ofNat (c.toNat - 32) else c)

def scimBulkResponseMethod (value : String) : String :=
  let method := trim value
  if method.isEmpty then "UNKNOWN" else asciiUppercase method

def scimBulkId (value : Option String) : ScimResult (Option String) :=
  optionalScimString "bulkId" value 80

def scimBulkJobOperation (operation : ScimBulkOperationRequest) :
    ScimResult ScimBulkJobOperation := do
  let bulkId ← scimBulkId operation.bulkId
  return ⟨scimBulkResponseMethod operation.method, bulkId, operation⟩

def scimBulkJobOperations (operations : List ScimBulkOperationRequest) :
    ScimResult (List ScimBulkJobOperation) := operations.mapM scimBulkJobOperation

/-- The loop of `validate_scim_bulk_ids` with the identifiers already seen. -/
def validateScimBulkIdsFrom (seen : List String) : List ScimBulkOperationRequest → ScimResult Unit
  | [] => .ok ()
  | operation :: operations => do
    match ← scimBulkId operation.bulkId with
    | none => validateScimBulkIdsFrom seen operations
    | some bulkId =>
      if seen.contains bulkId then
        .error (.invalidValue "duplicate SCIM Bulk bulkId values are not allowed")
      else validateScimBulkIdsFrom (bulkId :: seen) operations

def validateScimBulkIds (operations : List ScimBulkOperationRequest) : ScimResult Unit :=
  validateScimBulkIdsFrom [] operations

def scimRequiredBulkId (value : Option String) : ScimResult String := do
  match ← scimBulkId value with
  | some bulkId => return bulkId
  | none => .error (.invalidValue "SCIM Bulk POST operations must include bulkId")

def scimErrorBody (error : ScimError) : Json :=
  .object ([("schemas", .array [.string scimErrorSchema]), ("detail", .string error.detail),
      ("status", .string (toString error.status))] ++
    (error.scimType.map fun scimType => ("scimType", Json.string scimType)).toList)

def scimBulkSuccessResponse (method : String) (bulkId : Option String)
    (result : ScimOperationResult) : Json :=
  .object ([("method", .string method), ("status", .string (toString result.status))] ++
    (bulkId.map fun bulkId => ("bulkId", Json.string bulkId)).toList ++
    (result.location.map fun location => ("location", Json.string location)).toList ++
    (result.body.map fun body => ("response", body)).toList)

def scimBulkErrorResponse (method : String) (bulkId : Option String) (error : ScimError) : Json :=
  .object ([("method", .string method), ("status", .string (toString error.status)),
      ("response", scimErrorBody error)] ++
    (bulkId.map fun bulkId => ("bulkId", Json.string bulkId)).toList)

-- scim_bulk/references

/-- The identifiers that `POST` operations created. -/
abbrev BulkReferences := List (String × Uuid)

def scimBulkReferenceName (reference : String) : ScimResult String := do
  match ← optionalScimString "bulkId reference" (some reference) 80 with
  | some name => return name
  | none => .error (.invalidValue "SCIM Bulk bulkId reference cannot be empty")

def scimBulkReferenceId (reference : String) (bulkReferences : BulkReferences) :
    ScimResult Uuid := do
  let reference ← scimBulkReferenceName reference
  match bulkReferences.lookup reference with
  | some resourceId => return resourceId
  | none =>
    .error (.invalidValue "SCIM Bulk bulkId reference must point to a successful POST operation")

/-- The reference in one text, if it is one. -/
def scimCollectBulkTextReferences (text : String) : ScimResult (List String) :=
  match stripPrefix "bulkId:" text with
  | some reference => return [← scimBulkReferenceName reference]
  | none => return []

def scimCollectBulkPathReferences (path : String) : ScimResult (List String) := do
  return (← (splitAt '/' path).mapM scimCollectBulkTextReferences).flatten

mutual

def scimCollectBulkValueReferences : Json → ScimResult (List String)
  | .string text => scimCollectBulkTextReferences text
  | .array values => scimCollectBulkArrayReferences values
  | .object members => scimCollectBulkObjectReferences members
  | .null | .bool _ | .number _ => .ok []

def scimCollectBulkArrayReferences : List Json → ScimResult (List String)
  | [] => .ok []
  | value :: values => do
    return (← scimCollectBulkValueReferences value) ++ (← scimCollectBulkArrayReferences values)

def scimCollectBulkObjectReferences : List (String × Json) → ScimResult (List String)
  | [] => .ok []
  | (_, value) :: members => do
    return (← scimCollectBulkValueReferences value) ++ (← scimCollectBulkObjectReferences members)

end

def scimBulkReferenceDependencies (operation : ScimBulkOperationRequest) :
    ScimResult (List String) := do
  let path ← scimCollectBulkPathReferences operation.path
  match operation.data with
  | some data => return path ++ (← scimCollectBulkValueReferences data)
  | none => return path

def scimBulkDependenciesAreReady (dependencies : List String) (bulkReferences : BulkReferences)
    (creatableBulkIds failedBulkIds : List String) : Bool :=
  dependencies.all fun reference => (bulkReferences.lookup reference).isSome ||
    failedBulkIds.contains reference || !creatableBulkIds.contains reference

def scimResolveBulkText (bulkReferences : BulkReferences) (text : String) : ScimResult String :=
  match stripPrefix "bulkId:" text with
  | some reference => return Uuid.hyphenated (← scimBulkReferenceId reference bulkReferences)
  | none => return text

def scimResolveBulkPathReferences (path : String) (bulkReferences : BulkReferences) :
    ScimResult String := do
  return "/".intercalate (← (splitAt '/' path).mapM (scimResolveBulkText bulkReferences))

mutual

def scimResolveBulkValueReferences (bulkReferences : BulkReferences) : Json → ScimResult Json
  | .string text => return .string (← scimResolveBulkText bulkReferences text)
  | .array values => return .array (← scimResolveBulkArrayReferences bulkReferences values)
  | .object members => return .object (← scimResolveBulkObjectReferences bulkReferences members)
  | .null => .ok .null
  | .bool b => .ok (.bool b)
  | .number n => .ok (.number n)

def scimResolveBulkArrayReferences (bulkReferences : BulkReferences) :
    List Json → ScimResult (List Json)
  | [] => .ok []
  | value :: values => do
    return (← scimResolveBulkValueReferences bulkReferences value) ::
      (← scimResolveBulkArrayReferences bulkReferences values)

def scimResolveBulkObjectReferences (bulkReferences : BulkReferences) :
    List (String × Json) → ScimResult (List (String × Json))
  | [] => .ok []
  | (key, value) :: members => do
    return (key, ← scimResolveBulkValueReferences bulkReferences value) ::
      (← scimResolveBulkObjectReferences bulkReferences members)

end

-- scim_bulk/operations

def scimBulkData {α : Type} (fromValue : Json → Option α) (operation : ScimBulkOperationRequest)
    (resourceName : String) (bulkReferences : BulkReferences) : ScimResult α := do
  match operation.data with
  | none => .error (.invalidValue "SCIM Bulk operation data is required for this method")
  | some data =>
    let data ← scimResolveBulkValueReferences bulkReferences data
    match fromValue data with
    | some payload => return payload
    | none => .error (.invalidValue ("invalid SCIM Bulk " ++ resourceName ++ " data"))

def scimBulkExpectNoData (operation : ScimBulkOperationRequest) : ScimResult Unit :=
  if operation.data.isSome then
    .error (.invalidValue "SCIM Bulk DELETE operations must not include data")
  else .ok ()

section operations

variable (P : Primitives) (state : AppState)

def scimExecuteBulkOperation (headers : RequestHeaders) (operation : ScimBulkOperationRequest)
    (bulkReferences : BulkReferences) : Scim ScimOperationResult := do
  let method ← Prog.ofExcept (ScimBulkMethod.parse operation.method)
  let resolvedPath ← Prog.ofExcept (scimResolveBulkPathReferences operation.path bulkReferences)
  let path ← Prog.ofExcept (scimBulkPath P resolvedPath)
  match method, path with
  | .post, .users =>
    let _ ← Prog.ofExcept (scimRequiredBulkId operation.bulkId)
    let payload ← Prog.ofExcept
      (scimBulkData ScimUserRequest.fromValue operation "User" bulkReferences)
    scimCreateUserOperation P state headers payload
  | .put, .user userId =>
    let payload ← Prog.ofExcept
      (scimBulkData ScimUserRequest.fromValue operation "User" bulkReferences)
    scimReplaceUserOperation P state headers userId payload
  | .patch, .user userId =>
    let payload ← Prog.ofExcept
      (scimBulkData ScimPatchRequest.fromValue operation "PatchOp" bulkReferences)
    scimPatchUserOperation P state headers userId payload
  | .delete, .user userId =>
    Prog.ofExcept (scimBulkExpectNoData operation)
    scimDeleteUserOperation state headers userId
  | .post, .groups =>
    let _ ← Prog.ofExcept (scimRequiredBulkId operation.bulkId)
    let payload ← Prog.ofExcept
      (scimBulkData (ScimGroupRequest.fromValue P) operation "Group" bulkReferences)
    scimCreateGroupOperation P state headers payload
  | .put, .group groupId =>
    let payload ← Prog.ofExcept
      (scimBulkData (ScimGroupRequest.fromValue P) operation "Group" bulkReferences)
    scimReplaceGroupOperation P state headers groupId payload
  | .patch, .group groupId =>
    let payload ← Prog.ofExcept
      (scimBulkData ScimPatchRequest.fromValue operation "PatchOp" bulkReferences)
    scimPatchGroupOperation P state headers groupId payload
  | .delete, .group groupId =>
    Prog.ofExcept (scimBulkExpectNoData operation)
    scimDeleteGroupOperation state headers groupId
  | _, _ => throw (.invalidValue "unsupported SCIM Bulk operation for path and method")

end operations

end CairnId
