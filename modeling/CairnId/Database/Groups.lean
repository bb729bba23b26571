import Mathlib.Data.List.Sort
import CairnId.Database.Accounts

/-!
# Groups and memberships

The transactions of `crates/database/src/groups`, with the break-glass grant of
the administrators group.
-/

namespace CairnId.Database

open Concurrency Concurrency.Sql

def createGroup (group : Group) : Statements (End Unit) := do
  insert .groups group
  return .commit ()

def getGroup (organizationId : OrganizationId) (groupId : GroupId) :
    Statements (End (Option Group)) := do
  let db ← select
  return .commit ((db .groups).find? fun g => g.organizationId = organizationId ∧ g.id = groupId)

def userHasGroupRole (organizationId : OrganizationId) (userId : UserId) (groupSlug : String)
    (roles : List MembershipRole) : Statements (End Bool) := do
  if roles.isEmpty then
    return .commit false
  let db ← select
  return .commit ((db .memberships).any fun m =>
    m.organizationId = organizationId ∧ m.userId = userId ∧ m.role ∈ roles ∧
      ∃ g ∈ db .groups, g.id = m.groupId ∧ g.organizationId = m.organizationId ∧
        g.slug = groupSlug)

/-- `ORDER BY groups.slug`, in the order of Lean's strings. -/
def listUserGroupSlugs (organizationId : OrganizationId) (userId : UserId) :
    Statements (End (List String)) := do
  let db ← select
  let slugs := (db .memberships).filterMap fun m =>
    if m.organizationId = organizationId ∧ m.userId = userId then
      ((db .groups).find? fun g => g.id = m.groupId ∧ g.organizationId = m.organizationId).map
        (·.slug)
    else none
  return .commit (slugs.insertionSort (· ≤ ·))

-- memberships

def getGroupMembership (organizationId : OrganizationId) (groupId : GroupId) (userId : UserId) :
    Statements (End (Option Membership)) := do
  let db ← select
  return .commit ((db .memberships).find? fun m =>
    m.organizationId = organizationId ∧ m.groupId = groupId ∧ m.userId = userId)

inductive MembershipMutationOutcome where
  | applied
  | notFound
  | wouldRemoveLastOwner
  deriving DecidableEq

def lockedGroup (organizationId : OrganizationId) (groupId : GroupId) :
    Statements (Option Group) := do
  let rows ← lock .groups .update (fun _ g => g.organizationId = organizationId ∧ g.id = groupId)
  return rows.head?

def userExists (organizationId : OrganizationId) (userId : UserId) : Statements Bool := do
  let db ← select
  return (db .users).any fun u => u.user.organizationId = organizationId ∧ u.user.id = userId

def lockedMembershipRole (organizationId : OrganizationId) (groupId : GroupId) (userId : UserId) :
    Statements (Option MembershipRole) := do
  let rows ← lock .memberships .update
    (fun _ m => m.organizationId = organizationId ∧ m.groupId = groupId ∧ m.userId = userId)
  return rows.head?.map (·.role)

def wouldRemoveLastActiveOwner (organizationId : OrganizationId) (groupId : GroupId)
    (userId : UserId) : Statements Bool := do
  let db ← select
  let targetIsActiveOwner := (db .memberships).any fun m =>
    activeOwner db organizationId groupId m ∧ m.userId = userId
  let otherActiveOwnerCount ← activeGroupOwnerCountExcludingUser organizationId groupId userId
  return targetIsActiveOwner ∧ otherActiveOwnerCount = 0

/-- `INSERT INTO memberships … ON CONFLICT (user_id, group_id) DO UPDATE SET
    role = EXCLUDED.role`. -/
def upsertMembership (membership : Membership) : Statements Unit := do
  let _ ← upsert .memberships membership (fun m => { m with role := membership.role })

def upsertGroupMembership (membership : Membership) (protectedOwnerGroupSlug : String) :
    Statements (End MembershipMutationOutcome) := do
  let some group ← lockedGroup membership.organizationId membership.groupId
    | return .rollback .notFound
  if !(← userExists membership.organizationId membership.userId) then
    return .rollback .notFound
  let existingRole ←
    lockedMembershipRole membership.organizationId membership.groupId membership.userId
  let refused ← (if group.slug = protectedOwnerGroupSlug ∧ membership.role ≠ .owner ∧
      existingRole = some .owner then
      wouldRemoveLastActiveOwner membership.organizationId membership.groupId membership.userId
    else pure false)
  if refused then
    return .rollback .wouldRemoveLastOwner
  upsertMembership membership
  return .commit .applied

def deleteGroupMembership (organizationId : OrganizationId) (groupId : GroupId) (userId : UserId)
    (protectedOwnerGroupSlug : String) : Statements (End MembershipMutationOutcome) := do
  let some group ← lockedGroup organizationId groupId
    | return .rollback .notFound
  let some existingRole ← lockedMembershipRole organizationId groupId userId
    | return .rollback .notFound
  let refused ← (if group.slug = protectedOwnerGroupSlug ∧ existingRole = .owner then
      wouldRemoveLastActiveOwner organizationId groupId userId
    else pure false)
  if refused then
    return .rollback .wouldRemoveLastOwner
  let _ ← delete .memberships
    (fun _ m => m.organizationId = organizationId ∧ m.groupId = groupId ∧ m.userId = userId)
  return .commit .applied

-- scim groups

/-- `ORDER BY group_id, email, user_id`, in the order of Lean's strings. -/
def scimGroupMemberLe (a b : ScimGroupMember) : Bool :=
  a.groupId < b.groupId ∨ a.groupId = b.groupId ∧
    (a.email < b.email ∨ a.email = b.email ∧ a.userId ≤ b.userId)

/-- A membership with the user it is of, as the query joins them. -/
def scimGroupMember (db : Db) (m : Membership) : Option ScimGroupMember :=
  ((db .users).find? fun u => u.user.id = m.userId ∧ u.user.organizationId = m.organizationId).map
    fun u => ⟨m.groupId, m.userId, u.user.email, u.user.displayName, m.role, m.createdAt⟩

def listScimGroupMembersForGroups (organizationId : OrganizationId) (groupIds : List GroupId) :
    Statements (End (List ScimGroupMember)) := do
  let db ← select
  let members := ((db .memberships).filter fun m =>
    m.organizationId = organizationId ∧ m.groupId ∈ groupIds).filterMap (scimGroupMember db)
  return .commit (members.insertionSort fun a b => scimGroupMemberLe a b)

inductive ScimGroupMutationOutcome where
  | applied (group : Group)
  | notFound
  | slugAlreadyExists
  | externalIdAlreadyExists
  | memberNotFound
  | wouldModifyProtectedGroup

def groupSlugExists (organizationId : OrganizationId) (slug : String) : Statements Bool := do
  let db ← select
  return (db .groups).any fun g => g.organizationId = organizationId ∧ g.slug = slug

def groupExternalIdExists (organizationId : OrganizationId) (externalId : String)
    (excludedGroupId : Option GroupId) : Statements Bool := do
  let db ← select
  return (db .groups).any fun g =>
    g.organizationId = organizationId ∧ g.scimExternalId = some externalId ∧
      (excludedGroupId = none ∨ excludedGroupId ≠ some g.id)

/-- `COUNT(DISTINCT id)` of the listed users, compared with the length of the
    list: repeated ids fail. -/
def allUsersExist (organizationId : OrganizationId) (userIds : List UserId) : Statements Bool := do
  if userIds.isEmpty then
    return true
  let db ← select
  let found := (db .users).filter fun u =>
    u.user.organizationId = organizationId ∧ u.user.id ∈ userIds
  return (found.map (·.user.id)).eraseDups.length = userIds.length

def insertScimGroupMemberIds (organizationId : OrganizationId) (groupId : GroupId)
    (createdAt : OffsetDateTime) : List UserId → Statements Unit
  | [] => pure ()
  | userId :: userIds => do
    upsertMembership ⟨organizationId, userId, groupId, .member, createdAt⟩
    insertScimGroupMemberIds organizationId groupId createdAt userIds

def createScimGroup (group : Group) (memberUserIds : List UserId) :
    Statements (End ScimGroupMutationOutcome) := do
  if ← groupSlugExists group.organizationId group.slug then
    return .rollback .slugAlreadyExists
  let externalIdTaken ← (match group.scimExternalId with
    | some externalId => groupExternalIdExists group.organizationId externalId none
    | none => pure false)
  if externalIdTaken then
    return .rollback .externalIdAlreadyExists
  if !(← allUsersExist group.organizationId memberUserIds) then
    return .rollback .memberNotFound
  insert .groups group
  insertScimGroupMemberIds group.organizationId group.id group.createdAt memberUserIds
  return .commit (.applied group)

structure ScimGroupReplaceInput where
  organizationId : OrganizationId
  groupId : GroupId
  displayName : String
  scimExternalId : Option String
  memberUserIds : List UserId
  protectedGroupSlug : String
  instant : OffsetDateTime

def replaceScimGroup (input : ScimGroupReplaceInput) :
    Statements (End ScimGroupMutationOutcome) := do
  let some existingGroup ← lockedGroup input.organizationId input.groupId
    | return .rollback .notFound
  if existingGroup.slug = input.protectedGroupSlug then
    return .rollback .wouldModifyProtectedGroup
  let externalIdTaken ← (match input.scimExternalId with
    | some externalId => groupExternalIdExists input.organizationId externalId (some input.groupId)
    | none => pure false)
  if externalIdTaken then
    return .rollback .externalIdAlreadyExists
  if !(← allUsersExist input.organizationId input.memberUserIds) then
    return .rollback .memberNotFound
  let updated ← update .groups
    (fun _ g => g.organizationId = input.organizationId ∧ g.id = input.groupId)
    (fun g => { g with displayName := input.displayName, scimExternalId := input.scimExternalId })
  let updatedGroup ← fetchOne updated
  let _ ← delete .memberships (fun _ m => m.organizationId = input.organizationId ∧
    m.groupId = input.groupId ∧ m.userId ∉ input.memberUserIds)
  insertScimGroupMemberIds input.organizationId input.groupId input.instant input.memberUserIds
  return .commit (.applied updatedGroup)

def deleteScimGroup (organizationId : OrganizationId) (groupId : GroupId)
    (protectedGroupSlug : String) : Statements (End ScimGroupMutationOutcome) := do
  let some group ← lockedGroup organizationId groupId
    | return .rollback .notFound
  if group.slug = protectedGroupSlug then
    return .rollback .wouldModifyProtectedGroup
  let _ ← delete .groups (fun _ g => g.organizationId = organizationId ∧ g.id = groupId)
  -- ON DELETE CASCADE of memberships_group_organization_fk
  let _ ← delete .memberships
    (fun _ m => m.groupId = groupId ∧ m.organizationId = organizationId)
  return .commit (.applied group)

-- break glass

structure BreakGlassAdminRecovery where
  organizationId : OrganizationId
  userId : UserId
  userEmail : String
  userStatusBefore : UserStatus
  userStatusAfter : UserStatus
  adminGroupId : GroupId
  adminGroupCreated : Bool
  membershipRoleBefore : Option MembershipRole
  membershipRoleAfter : MembershipRole

def breakGlassGrantAdminOwner (organizationId : OrganizationId) (userId : UserId)
    (adminGroup : Group) (instant : OffsetDateTime) (auditEvent : AuditEvent) :
    Statements (End (Option BreakGlassAdminRecovery)) := do
  let organization ← lock .organizations .update (fun _ o => o.id = organizationId)
  Prog.failIf organization.isEmpty .notFound
  let some user ← lockedUserForUpdate organizationId userId
    | return .commit none
  let groupRows ← lock .groups .update
    (fun _ g => g.organizationId = organizationId ∧ g.slug = adminGroup.slug)
  let (adminGroupId, adminGroupCreated) ← (match groupRows with
    | row :: _ => pure (row.id, false)
    | [] => do
      insert .groups adminGroup
      pure (adminGroup.id, true))
  let membershipRoleBefore ← lockedMembershipRole organizationId adminGroupId userId
  upsertMembership ⟨organizationId, userId, adminGroupId, .owner, instant⟩
  let updated ← update .users
    (fun _ u => u.user.organizationId = organizationId ∧ u.user.id = userId)
    (fun u => { u with user := { u.user with status := .active, updatedAt := instant } })
  let updatedUser ← fetchOne updated
  insertAuditEventRecord auditEvent
  return .commit (some ⟨organizationId, userId, updatedUser.user.email, user.status,
    updatedUser.user.status, adminGroupId, adminGroupCreated, membershipRoleBefore, .owner⟩)

end CairnId.Database
