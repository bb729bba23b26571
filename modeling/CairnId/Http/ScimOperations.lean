import CairnId.Http.Provisioning

/-!
# SCIM requests and operations

The request bodies of `scim_input` as serde reads them, and the operations of
`scim_operations` that create, replace and delete, next to those of
`CairnId.Http.Provisioning`.
-/

namespace CairnId

open Concurrency Prog App

-- what serde reads

/-- A field `Vec<T>` with `#[serde(default)]`. -/
def Json.optionalList {α : Type} (read : Json → Option α) : Option Json → Option (List α)
  | none => some []
  | some (.array values) => values.mapM read
  | _ => none

/-- A field `Option<T>` with `#[serde(default)]`. -/
def Json.optionalField {α : Type} (read : Json → Option α) : Option Json → Option (Option α)
  | none | some .null => some none
  | some value => (read value).map some

structure ScimUserRequest where
  schemas : List String
  userName : String
  externalId : Option String
  name : Option ScimNameRequest
  displayName : Option String
  active : Option Bool
  emails : List ScimEmailRequest

def ScimUserRequest.fromValue (value : Json) : Option ScimUserRequest := do
  match ← value.structFields
      ["schemas", "userName", "externalId", "name", "displayName", "active", "emails"] with
  | [schemas, userName, externalId, name, displayName, active, emails] =>
    return ⟨← Json.optionalList Json.asStr? schemas, ← Json.requiredString userName,
      ← Json.optionalString externalId, ← Json.optionalField ScimNameRequest.fromValue name,
      ← Json.optionalString displayName, ← Json.optionalBool active,
      ← Json.optionalList ScimEmailRequest.fromValue emails⟩
  | _ => none

structure ScimGroupRequest where
  schemas : List String
  externalId : Option String
  displayName : Option String
  members : List ScimGroupMemberRequest

def ScimPatchOperation.fromValue (value : Json) : Option ScimPatchOperation := do
  match ← value.structFields ["op", "path", "value"] with
  | [op, path, value] =>
    return ⟨← Json.requiredString op, ← Json.optionalString path,
      ← Json.optionalField some value⟩
  | _ => none

def ScimPatchRequest.fromValue (value : Json) : Option ScimPatchRequest := do
  match ← value.structFields ["schemas", "Operations"] with
  | [schemas, operations] =>
    return ⟨← Json.optionalList Json.asStr? schemas,
      ← Json.optionalList ScimPatchOperation.fromValue operations⟩
  | _ => none

-- scim_schemas

def validateOptionalRequestSchemas (schemas : List String) (requiredSchema errorMessage : String) :
    ScimResult Unit :=
  if schemas.isEmpty || schemas.contains requiredSchema then .ok ()
  else .error (.invalidValue errorMessage)

def validateScimUserRequestSchemas (schemas : List String) : ScimResult Unit :=
  validateOptionalRequestSchemas schemas scimUserSchema "unsupported SCIM user schema"

def validateScimGroupRequestSchemas (schemas : List String) : ScimResult Unit :=
  validateOptionalRequestSchemas schemas scimGroupSchema "unsupported SCIM group schema"

-- scim_input

def scimUserInput (payload : ScimUserRequest) : ScimResult ScimUserInput := do
  validateScimUserRequestSchemas payload.schemas
  let email ← scimNormalizeEmail payload.userName
  validateScimEmailValues email payload.emails
  let displayName ← scimDisplayName email payload.displayName payload.name
  let externalId ← optionalScimString "externalId" payload.externalId 256
  return ⟨email, externalId, false, displayName,
    if payload.active.getD true then .active else .suspended⟩

def scimGroupInput (payload : ScimGroupRequest) : ScimResult ScimGroupInput := do
  validateScimGroupRequestSchemas payload.schemas
  let some displayName ← optionalScimString "displayName" payload.displayName 160
    | throw (.invalidValue "displayName is required")
  let externalId ← optionalScimString "externalId" payload.externalId 256
  let memberUserIds ← uniqueScimGroupMemberUserIds
    (← payload.members.mapM scimGroupMemberUserIdFromRequest)
  return ⟨displayName, externalId, memberUserIds⟩

/-- The loop of `scim_group_slug`; `ended` tells whether the base ends with a
    hyphen. -/
def slugChars (ended : Bool) : List Char → List Char
  | [] => []
  | c :: cs =>
    if isAsciiAlphanumeric c then toAsciiLowercase c :: slugChars false cs
    else if ended then slugChars true cs
    else '-' :: slugChars true cs

def scimGroupSlug (groupId : GroupId) (externalId : Option String) (displayName : String) :
    ScimResult String :=
  let seed := externalId.getD displayName
  let base := ((slugChars false seed.toList).dropWhile (· = '-')).rdropWhile (· = '-')
  let base := if base.isEmpty then Uuid.hyphenated groupId else String.ofList base
  let slug := "scim-" ++ base
  -- every character is one byte long
  let slug := if 80 < slug.length then
      String.ofList ((slug.toList.take 80).rdropWhile (· = '-'))
    else slug
  (checkedString "slug" slug 80).mapError .ofDomain

-- operations

variable (P : Primitives) (state : AppState)

/-- `User::new`. -/
def newUser (organizationId : OrganizationId) (email displayName : String) : Scim User := do
  let email ← Prog.ofExcept (scimNormalizeEmail email)
  let displayName ← Prog.ofExcept
    ((checkedString "display_name" displayName 160).mapError .ofDomain)
  let now ← Scim.nowUtc
  let id ← Prog.perform Call.newV4
  return ⟨id, organizationId, email, none, false, displayName, .active, now, now, none⟩

def scimCreateUserOperation (headers : RequestHeaders) (payload : ScimUserRequest) :
    Scim ScimOperationResult := do
  let input ← Prog.ofExcept (scimUserInput payload)
  if (← Scim.db (.findUserByEmail state.organizationId input.email)).isSome then
    throw (.uniqueness "userName already exists")
  let externalIdTaken ← (match input.externalId with
    | some externalId => do
      return (← Scim.db (.findUserByScimExternalId state.organizationId externalId)).isSome
    | none => pure false)
  if externalIdTaken then
    throw (.uniqueness "externalId already exists")
  let user ← newUser state.organizationId input.email input.displayName
  let user := { user with
    scimExternalId := input.externalId
    emailVerified := input.emailVerified
    status := input.status }
  Scim.db (.createUser user none)
  Scim.insertAuditEvent headers
    ((AuditEventBuilder.system state.organizationId "scim.user_created"
      (Uuid.hyphenated user.id)).withMetadata
        (.object (scimUserMetadata user (user.status = .active))))
  return ⟨201, some (scimLocation state ("Users/" ++ Uuid.hyphenated user.id)),
    some (scimUserResource P state user)⟩

def scimReplaceUserOperation (headers : RequestHeaders) (userId : UserId)
    (payload : ScimUserRequest) : Scim ScimOperationResult := do
  let input ← Prog.ofExcept (scimUserInput payload)
  let user ← scimApplyUserUpdate state userId input
  Scim.insertAuditEvent headers
    ((AuditEventBuilder.system state.organizationId "scim.user_replaced"
      (Uuid.hyphenated user.id)).withMetadata
        (.object (scimUserMetadata user (user.status = .active))))
  return ⟨200, some (scimLocation state ("Users/" ++ Uuid.hyphenated user.id)),
    some (scimUserResource P state user)⟩

def scimGroupMetadata (group : Group) : List (String × Json) :=
  [("display_name", .string group.displayName), ("external_id", .ofText? group.scimExternalId)]

def groupResourceResult (status : Nat) (group : Group) : Scim ScimOperationResult := do
  let members ← Scim.db (.listScimGroupMembersForGroups state.organizationId [group.id])
  return ⟨status, some (scimLocation state ("Groups/" ++ Uuid.hyphenated group.id)),
    some (scimGroupResource P state group members)⟩

def scimCreateGroupOperation (headers : RequestHeaders) (payload : ScimGroupRequest) :
    Scim ScimOperationResult := do
  let input ← Prog.ofExcept (scimGroupInput payload)
  let now ← Scim.nowUtc
  let groupId ← Prog.perform Call.newV4
  let slug ← Prog.ofExcept (scimGroupSlug groupId input.externalId input.displayName)
  let group : Group :=
    ⟨groupId, state.organizationId, slug, input.externalId, input.displayName, now⟩
  let group ← (do
    match ← Scim.db (.createScimGroup group input.memberUserIds) with
    | .applied group => return group
    | .slugAlreadyExists =>
      throw (.uniqueness "displayName or externalId maps to an existing group slug")
    | .externalIdAlreadyExists => throw (.uniqueness "externalId already exists")
    | .memberNotFound => throw (.invalidValue "members.value must reference existing users")
    | .notFound | .wouldModifyProtectedGroup =>
      throw (.serverError "unexpected SCIM group create result"))
  Scim.insertAuditEvent headers
    ((AuditEventBuilder.system state.organizationId "scim.group_created"
      (Uuid.hyphenated group.id)).withMetadata (.object (scimGroupMetadata group ++
        [("member_count", .number input.memberUserIds.length)])))
  groupResourceResult P state 201 group

def scimReplaceGroupOperation (headers : RequestHeaders) (groupId : GroupId)
    (payload : ScimGroupRequest) : Scim ScimOperationResult := do
  let input ← Prog.ofExcept (scimGroupInput payload)
  let group ← scimApplyGroupReplace state groupId input
  Scim.insertAuditEvent headers
    ((AuditEventBuilder.system state.organizationId "scim.group_replaced"
      (Uuid.hyphenated group.id)).withMetadata (.object (scimGroupMetadata group ++
        [("member_count", .number input.memberUserIds.length)])))
  groupResourceResult P state 200 group

def scimDeleteGroupOperation (headers : RequestHeaders) (groupId : GroupId) :
    Scim ScimOperationResult := do
  match ← Scim.db (.deleteScimGroup state.organizationId groupId administratorsGroupSlug) with
  | .applied group =>
    Scim.insertAuditEvent headers
      ((AuditEventBuilder.system state.organizationId "scim.group_deleted"
        (Uuid.hyphenated group.id)).withMetadata (.object (scimGroupMetadata group)))
    return ⟨204, some (scimLocation state ("Groups/" ++ Uuid.hyphenated group.id)), none⟩
  | .notFound => throw (.notFound "SCIM group not found")
  | .wouldModifyProtectedGroup =>
    throw (.mutability 409 "administrators group cannot be modified through SCIM")
  | .slugAlreadyExists | .externalIdAlreadyExists | .memberNotFound =>
    throw (.serverError "unexpected SCIM group delete result")

def ScimGroupRequest.fromValue (value : Json) : Option ScimGroupRequest := do
  match ← value.structFields ["schemas", "externalId", "displayName", "members"] with
  | [schemas, externalId, displayName, members] =>
    return ⟨← Json.optionalList Json.asStr? schemas, ← Json.optionalString externalId,
      ← Json.optionalString displayName,
      ← Json.optionalList (ScimGroupMemberRequest.fromValue P) members⟩
  | _ => none

end CairnId
