import CairnId.Http.Quiet
import CairnId.Http.Request
import CairnId.Http.ScimPatchSpec

/-!
# Provisioning

The operations of `scim_operations` that change one user or one group, from the
point where the bearer token has been accepted, and the endpoints of the
administration that change the same rows: the status of a user and the members of
a group.
-/

namespace CairnId

open Concurrency Prog App

abbrev Scim := Prog Call Call.Answer ScimError

namespace Scim

/-- `From<DatabaseError>` on a failed method. -/
def db (c : DbCall) : Scim c.Result := .call (.db c) fun r => match r with
  | .ok a => .ret a
  | .error _ => .fail (.serverError "database error")

def nowUtc : Scim OffsetDateTime := Prog.perform Call.nowUtc

/-- A resolved address is not at hand here: only the user agent is recorded. -/
def insertAuditEvent (headers : RequestHeaders) (b : AuditEventBuilder) : Scim Unit := do
  let context := auditRequestContext { headers with sourceIp := none }
  let id ← Prog.perform Call.newV4
  let createdAt ← nowUtc
  db (.insertAuditEvent ((b.requestContext context.ipAddress context.userAgent).event id createdAt))

end Scim

/-- A database call of a run that did not fail. -/
theorem Scim.runs_db_ok {P : Primitives} {c : DbCall} {a : c.Result} {w w' : World}
    (h : (Scim.db c).Runs (Call.exec P) w (.ok a) w') : c.exec w.store = (.ok a, w'.store) := by
  obtain ⟨ch, r, w₁, hx, hrest⟩ := runs_call.mp h
  cases r with
  | error e => simp at hrest
  | ok b =>
    simp only [runs_ret, Except.ok.injEq] at hrest
    obtain ⟨rfl, rfl⟩ := hrest
    obtain ⟨-, -, ⟨herr, -⟩ | hexec⟩ := Call.exec_db hx
    · cases herr
    · exact hexec

structure ScimOperationResult where
  status : Nat
  location : Option String
  body : Option Json

variable (P : Primitives) (state : AppState)

def scimLocation (suffix : String) : String :=
  trimEndMatches '/' state.config.issuer ++ "/scim/v2/" ++ suffix

def scimTimestamp (timestamp : OffsetDateTime) : Json := .string (P.formatRfc3339 timestamp)

def scimUserResource (user : User) : Json :=
  .object ([("schemas", .array [.string scimUserSchema]),
    ("id", .string (Uuid.hyphenated user.id)),
    ("userName", .string user.email),
    ("displayName", .string user.displayName),
    ("name", .object [("formatted", .string user.displayName)]),
    ("active", .bool (user.status = .active)),
    ("emails", .array [.object [("value", .string user.email), ("type", .string "work"),
      ("primary", .bool true)]]),
    ("meta", .object [("resourceType", .string "User"),
      ("created", scimTimestamp P user.createdAt),
      ("lastModified", scimTimestamp P user.updatedAt),
      ("location", .string (scimLocation state ("Users/" ++ Uuid.hyphenated user.id)))])] ++
    (user.scimExternalId.map fun externalId => ("externalId", Json.string externalId)).toList)

def scimGroupMemberResource (member : ScimGroupMember) : Json :=
  .object [("value", .string (Uuid.hyphenated member.userId)),
    ("$ref", .string (scimLocation state ("Users/" ++ Uuid.hyphenated member.userId))),
    ("display", .string member.displayName), ("type", .string "User")]

def scimGroupResource (group : Group) (members : List ScimGroupMember) : Json :=
  .object ([("schemas", .array [.string scimGroupSchema]),
    ("id", .string (Uuid.hyphenated group.id)),
    ("displayName", .string group.displayName),
    ("members", .array (members.map (scimGroupMemberResource state))),
    ("meta", .object [("resourceType", .string "Group"),
      ("created", scimTimestamp P group.createdAt),
      ("lastModified", scimTimestamp P group.createdAt),
      ("location", .string (scimLocation state ("Groups/" ++ Uuid.hyphenated group.id)))])] ++
    (group.scimExternalId.map fun externalId => ("externalId", Json.string externalId)).toList)

-- users

def scimGetTenantUser (userId : UserId) : Scim User := do
  match ← Scim.db (.getUserWithPassword state.organizationId userId) with
  | some found => return found.user
  | none => throw (.notFound "SCIM user not found")

def scimUserUpdateInput (userId : UserId) (input : ScimUserInput) (instant : OffsetDateTime) :
    Database.ScimUserUpdateInput where
  organizationId := state.organizationId
  userId := userId
  email := input.email
  scimExternalId := input.externalId
  emailVerified := input.emailVerified
  displayName := input.displayName
  status := input.status
  protectedOwnerGroupSlug := administratorsGroupSlug
  instant := instant

def scimApplyUserUpdate (userId : UserId) (input : ScimUserInput) : Scim User := do
  let instant ← Scim.nowUtc
  match ← Scim.db (.updateUserFromScim (scimUserUpdateInput state userId input instant)) with
  | .applied user => return user
  | .notFound => throw (.notFound "SCIM user not found")
  | .wouldDeactivateLastOwner =>
    throw (.mutability 409 "administrators group must keep at least one active owner")
  | .emailAlreadyExists => throw (.uniqueness "userName already exists")
  | .externalIdAlreadyExists => throw (.uniqueness "externalId already exists")

def scimUserMetadata (user : User) (active : Bool) : List (String × Json) :=
  [("user_name", .string user.email), ("external_id", .ofText? user.scimExternalId),
    ("active", .bool active)]

def scimPatchUserOperation (headers : RequestHeaders) (userId : UserId)
    (payload : ScimPatchRequest) : Scim ScimOperationResult := do
  let currentUser ← scimGetTenantUser state userId
  let input ← Prog.ofExcept (scimPatchUserInput currentUser payload)
  let user ← scimApplyUserUpdate state userId input
  Scim.insertAuditEvent headers
    ((AuditEventBuilder.system state.organizationId "scim.user_patched"
      (Uuid.hyphenated user.id)).withMetadata (.object (scimUserMetadata user (user.status = .active) ++
        [("operation_count", .number payload.operationCount)])))
  return ⟨200, some (scimLocation state ("Users/" ++ Uuid.hyphenated user.id)),
    some (scimUserResource P state user)⟩

def scimDeleteUserOperation (headers : RequestHeaders) (userId : UserId) :
    Scim ScimOperationResult := do
  let now ← Scim.nowUtc
  match ← Scim.db (.updateUserStatus state.organizationId userId .suspended
      administratorsGroupSlug now) with
  | .applied user =>
    Scim.insertAuditEvent headers
      ((AuditEventBuilder.system state.organizationId "scim.user_deprovisioned"
        (Uuid.hyphenated user.id)).withMetadata (.object (scimUserMetadata user false)))
    return ⟨204, some (scimLocation state ("Users/" ++ Uuid.hyphenated user.id)), none⟩
  | .notFound => throw (.notFound "SCIM user not found")
  | .wouldDeactivateLastOwner =>
    throw (.mutability 409 "administrators group must keep at least one active owner")

/-- The names of `UserStatus` in JSON. -/
def UserStatus.text : UserStatus → String
  | .active => "active"
  | .suspended => "suspended"
  | .locked => "locked"

/-- `PUT /api/v1/users/{user_id}/status`. -/
def updateUserStatus (headers : RequestHeaders) (userId : UserId) (status : UserStatus) :
    App User := do
  let actor ← requireRecentAdminSession P state headers
  requireCsrf headers
  let now ← nowUtc
  match ← App.db (.updateUserStatus state.organizationId userId status administratorsGroupSlug
      now) with
  | .applied user =>
    insertAuditEvent
      ((AuditEventBuilder.user state.organizationId actor.userId "admin.user_status_updated"
        (Uuid.hyphenated user.id)).withMetadata (.object [("status", .string user.status.text)]))
    return user
  | .notFound => throw (.status 404 "user not found")
  | .wouldDeactivateLastOwner =>
    throw (.status 409 "administrators group must keep at least one active owner")

-- groups

def scimGetTenantGroup (groupId : GroupId) : Scim Group := do
  match ← Scim.db (.getGroup state.organizationId groupId) with
  | some group => return group
  | none => throw (.notFound "SCIM group not found")

def scimGroupReplaceInput (groupId : GroupId) (input : ScimGroupInput) (instant : OffsetDateTime) :
    Database.ScimGroupReplaceInput where
  organizationId := state.organizationId
  groupId := groupId
  displayName := input.displayName
  scimExternalId := input.externalId
  memberUserIds := input.memberUserIds
  protectedGroupSlug := administratorsGroupSlug
  instant := instant

def scimApplyGroupReplace (groupId : GroupId) (input : ScimGroupInput) : Scim Group := do
  let instant ← Scim.nowUtc
  match ← Scim.db (.replaceScimGroup (scimGroupReplaceInput state groupId input instant)) with
  | .applied group => return group
  | .notFound => throw (.notFound "SCIM group not found")
  | .externalIdAlreadyExists => throw (.uniqueness "externalId already exists")
  | .memberNotFound => throw (.invalidValue "members.value must reference existing users")
  | .wouldModifyProtectedGroup =>
    throw (.mutability 409 "administrators group cannot be modified through SCIM")
  | .slugAlreadyExists => throw (.serverError "unexpected SCIM group replace result")

def scimPatchGroupOperation (headers : RequestHeaders) (groupId : GroupId)
    (payload : ScimPatchRequest) : Scim ScimOperationResult := do
  let currentGroup ← scimGetTenantGroup state groupId
  let currentMembers ← Scim.db
    (.listScimGroupMembersForGroups state.organizationId [currentGroup.id])
  let input ← Prog.ofExcept (scimPatchGroupInput P currentGroup currentMembers payload)
  let group ← scimApplyGroupReplace state groupId input
  Scim.insertAuditEvent headers
    ((AuditEventBuilder.system state.organizationId "scim.group_patched"
      (Uuid.hyphenated group.id)).withMetadata (.object [
        ("display_name", .string group.displayName),
        ("external_id", .ofText? group.scimExternalId),
        ("member_count", .number input.memberUserIds.length),
        ("operation_count", .number payload.operationCount)]))
  let members ← Scim.db (.listScimGroupMembersForGroups state.organizationId [group.id])
  return ⟨200, some (scimLocation state ("Groups/" ++ Uuid.hyphenated group.id)),
    some (scimGroupResource P state group members)⟩

/-- The names of `MembershipRole` in JSON. -/
def MembershipRole.text : MembershipRole → String
  | .member => "member"
  | .owner => "owner"

/-- `PUT /api/v1/groups/{group_id}/memberships/{user_id}`. -/
def upsertGroupMembership (headers : RequestHeaders) (groupId : GroupId) (userId : UserId)
    (role : MembershipRole) : App Membership := do
  let actor ← requireRecentAdminSession P state headers
  requireCsrf headers
  let createdAt ← nowUtc
  match ← App.db (.upsertGroupMembership ⟨state.organizationId, userId, groupId, role, createdAt⟩
      administratorsGroupSlug) with
  | .applied =>
    let some stored ← App.db (.getGroupMembership state.organizationId groupId userId)
      | throw (.status 500 "membership missing")
    insertAuditEvent
      ((AuditEventBuilder.user state.organizationId actor.userId "admin.group_membership_upserted"
        (Uuid.hyphenated groupId)).withMetadata (.object [
          ("user_id", .string (Uuid.hyphenated userId)), ("role", .string stored.role.text)]))
    return stored
  | .notFound => throw (.status 404 "group or user not found")
  | .wouldRemoveLastOwner =>
    throw (.status 409 "administrators group must keep at least one owner")

/-- `DELETE /api/v1/groups/{group_id}/memberships/{user_id}`. -/
def deleteGroupMembership (headers : RequestHeaders) (groupId : GroupId) (userId : UserId) :
    App Unit := do
  let actor ← requireRecentAdminSession P state headers
  requireCsrf headers
  match ← App.db (.deleteGroupMembership state.organizationId groupId userId
      administratorsGroupSlug) with
  | .applied =>
    insertAuditEvent
      ((AuditEventBuilder.user state.organizationId actor.userId "admin.group_membership_deleted"
        (Uuid.hyphenated groupId)).withMetadata (.object [
          ("user_id", .string (Uuid.hyphenated userId))]))
  | .notFound => throw (.status 404 "membership not found")
  | .wouldRemoveLastOwner =>
    throw (.status 409 "administrators group must keep at least one owner")

end CairnId
