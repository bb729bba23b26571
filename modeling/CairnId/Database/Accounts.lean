import CairnId.Database.OAuth

/-!
# Users, sessions and account tokens

The transactions of `crates/database/src/users`, `auth_sessions` and
`account_tokens`, with the few statements of `email_outbox` and `audit` that
they run inside their own transaction.
-/

namespace CairnId.Database

open Concurrency Concurrency.Sql

def insertEmailOutboxMessageRecord (message : EmailOutboxMessage) : Statements Unit :=
  insert .emailOutbox message

def insertAuditEventRecord (event : AuditEvent) : Statements Unit :=
  insert .auditEvents event

def insertAuditEvent (event : AuditEvent) : Statements (End Unit) := do
  insertAuditEventRecord event
  return .commit ()

/-- `INSERT … ON CONFLICT (slug) DO NOTHING`. -/
def createOrganization (organization : Organization) : Statements (End Unit) := do
  let db ← select
  if (db .organizations).any fun o => o.slug = organization.slug then
    return .commit ()
  insert .organizations organization
  return .commit ()

-- users

def insertUser (user : User) (passwordHash : Option String) : Statements Unit :=
  insert .users ⟨user, passwordHash⟩

def createUser (user : User) (passwordHash : Option String) : Statements (End Unit) := do
  insertUser user passwordHash
  return .commit ()

def setUserLastLogin (id : UserId) (instant : OffsetDateTime) : Statements (End Unit) := do
  let _ ← update .users (fun _ u => u.user.id = id)
    (fun u => { u with user := { u.user with lastLoginAt := some instant, updatedAt := instant } })
  return .commit ()

def findUserByEmail (organizationId : OrganizationId) (email : String) :
    Statements (End (Option UserWithPassword)) := do
  let db ← select
  return .commit ((db .users).find? fun u =>
    u.user.organizationId = organizationId ∧ u.user.email = email)

def findUserByScimExternalId (organizationId : OrganizationId) (externalId : String) :
    Statements (End (Option User)) := do
  let db ← select
  return .commit (((db .users).find? fun u =>
    u.user.organizationId = organizationId ∧ u.user.scimExternalId = some externalId).map (·.user))

def getUserWithPassword (organizationId : OrganizationId) (userId : UserId) :
    Statements (End (Option UserWithPassword)) := do
  let db ← select
  return .commit ((db .users).find? fun u =>
    u.user.organizationId = organizationId ∧ u.user.id = userId)

def getUser (id : UserId) : Statements (End (Option User)) := do
  let db ← select
  return .commit (((db .users).find? fun u => u.user.id = id).map (·.user))

def lockedUserForUpdate (organizationId : OrganizationId) (userId : UserId) :
    Statements (Option User) := do
  let rows ← lock .users .update
    (fun _ u => u.user.organizationId = organizationId ∧ u.user.id = userId)
  return rows.head?.map (·.user)

def userEmailIsTaken (organizationId : OrganizationId) (userId : UserId) (email : String) :
    Statements Bool := do
  let db ← select
  return (db .users).any fun u =>
    u.user.organizationId = organizationId ∧ u.user.email = email ∧ u.user.id ≠ userId

def userScimExternalIdIsTaken (organizationId : OrganizationId) (userId : UserId)
    (externalId : String) : Statements Bool := do
  let db ← select
  return (db .users).any fun u =>
    u.user.organizationId = organizationId ∧ u.user.scimExternalId = some externalId ∧
      u.user.id ≠ userId

/-- A membership of an organization's group with its user, as the owner queries
    join them. -/
def activeOwner (db : Db) (organizationId : OrganizationId) (groupId : GroupId) (m : Membership) :
    Bool :=
  m.organizationId = organizationId ∧ m.groupId = groupId ∧ m.role = .owner ∧
    ∃ u ∈ db .users, u.user.id = m.userId ∧ u.user.organizationId = m.organizationId ∧
      u.user.status = .active

def activeGroupOwnerCountExcludingUser (organizationId : OrganizationId) (groupId : GroupId)
    (excludedUserId : UserId) : Statements Nat := do
  let db ← select
  return (db .memberships).countP fun m =>
    activeOwner db organizationId groupId m ∧ m.userId ≠ excludedUserId

def protectedOwnerGroupIdForUpdate (organizationId : OrganizationId)
    (protectedOwnerGroupSlug : String) : Statements (Option GroupId) := do
  let rows ← lock .groups .update
    (fun _ g => g.organizationId = organizationId ∧ g.slug = protectedOwnerGroupSlug)
  return rows.head?.map (·.id)

def userIsGroupOwner (organizationId : OrganizationId) (groupId : GroupId) (userId : UserId) :
    Statements Bool := do
  let db ← select
  return (db .memberships).any fun m =>
    m.organizationId = organizationId ∧ m.groupId = groupId ∧ m.userId = userId ∧ m.role = .owner

def deactivationWouldRemoveLastOwner (organizationId : OrganizationId) (userId : UserId)
    (currentStatus nextStatus : UserStatus) (protectedOwnerGroupSlug : String) :
    Statements Bool := do
  if currentStatus ≠ .active || nextStatus = .active then
    return false
  let some groupId ← protectedOwnerGroupIdForUpdate organizationId protectedOwnerGroupSlug
    | return false
  if !(← userIsGroupOwner organizationId groupId userId) then
    return false
  return (← activeGroupOwnerCountExcludingUser organizationId groupId userId) = 0

/-- `SET revoked_at = COALESCE(revoked_at, $1)` on sessions. -/
def AuthSessionRow.revoke (instant : OffsetDateTime) (r : AuthSessionRow) : AuthSessionRow :=
  { r with session := { r.session with revokedAt := r.session.revokedAt.or (some instant) } }

def revokeUserRuntimeCredentials (organizationId : OrganizationId) (userId : UserId)
    (instant : OffsetDateTime) : Statements Unit := do
  let _ ← update .authSessions
    (fun _ r => r.session.organizationId = organizationId ∧ r.session.userId = userId)
    (AuthSessionRow.revoke instant)
  let _ ← update .accessTokens
    (fun _ t => t.organizationId = organizationId ∧ t.userId = some userId)
    (AccessTokenRecord.revoke instant)
  let _ ← update .refreshTokens
    (fun _ t => t.organizationId = organizationId ∧ t.userId = some userId)
    (RefreshToken.revoke instant)

inductive UserStatusMutationOutcome where
  | applied (user : User)
  | notFound
  | wouldDeactivateLastOwner

def updateUserStatus (organizationId : OrganizationId) (userId : UserId) (status : UserStatus)
    (protectedOwnerGroupSlug : String) (instant : OffsetDateTime) :
    Statements (End UserStatusMutationOutcome) := do
  let some existingUser ← lockedUserForUpdate organizationId userId
    | return .rollback .notFound
  if ← deactivationWouldRemoveLastOwner organizationId userId existingUser.status status
      protectedOwnerGroupSlug then
    return .rollback .wouldDeactivateLastOwner
  let updated ← update .users
    (fun _ u => u.user.organizationId = organizationId ∧ u.user.id = userId)
    (fun u => { u with user := { u.user with status := status, updatedAt := instant } })
  let updatedRow ← fetchOne updated
  Prog.when (status ≠ .active) (revokeUserRuntimeCredentials organizationId userId instant)
  return .commit (.applied updatedRow.user)

structure ScimUserUpdateInput where
  organizationId : OrganizationId
  userId : UserId
  email : String
  scimExternalId : Option String
  emailVerified : Bool
  displayName : String
  status : UserStatus
  protectedOwnerGroupSlug : String
  instant : OffsetDateTime

inductive ScimUserUpdateOutcome where
  | applied (user : User)
  | notFound
  | wouldDeactivateLastOwner
  | emailAlreadyExists
  | externalIdAlreadyExists

def updateUserFromScim (input : ScimUserUpdateInput) : Statements (End ScimUserUpdateOutcome) := do
  let some existingUser ← lockedUserForUpdate input.organizationId input.userId
    | return .rollback .notFound
  if ← userEmailIsTaken input.organizationId input.userId input.email then
    return .rollback .emailAlreadyExists
  let externalIdTaken ← (match input.scimExternalId with
    | some externalId => userScimExternalIdIsTaken input.organizationId input.userId externalId
    | none => pure false)
  if externalIdTaken then
    return .rollback .externalIdAlreadyExists
  if ← deactivationWouldRemoveLastOwner input.organizationId input.userId existingUser.status
      input.status input.protectedOwnerGroupSlug then
    return .rollback .wouldDeactivateLastOwner
  let emailChanged : Bool := existingUser.email ≠ input.email
  let effectiveEmailVerified := !emailChanged && existingUser.emailVerified
  let updated ← update .users
    (fun _ u => u.user.organizationId = input.organizationId ∧ u.user.id = input.userId)
    (fun u => { u with user := { u.user with
      email := input.email
      scimExternalId := input.scimExternalId
      emailVerified := effectiveEmailVerified
      displayName := input.displayName
      status := input.status
      updatedAt := input.instant } })
  let updatedRow ← fetchOne updated
  Prog.when emailChanged do
    let _ ← update .accountTokens
      (fun _ t => t.organizationId = input.organizationId ∧ t.userId = some input.userId ∧
        t.consumedAt = none ∧ input.instant < t.expiresAt)
      (fun t => { t with consumedAt := t.consumedAt.or (some input.instant) })
  Prog.when (input.status ≠ .active)
    (revokeUserRuntimeCredentials input.organizationId input.userId input.instant)
  return .commit (.applied updatedRow.user)

def createBootstrapAdmin (user : User) (passwordHash : String) (adminGroup : Group)
    (adminMembership : Membership) : Statements (End Bool) := do
  let organization ← lock .organizations .update (fun _ o => o.id = user.organizationId)
  Prog.failIf organization.isEmpty .notFound
  let db ← select
  if (db .users).countP (fun u => u.user.organizationId = user.organizationId) > 0 then
    return .rollback false
  insertUser user (some passwordHash)
  insert .groups adminGroup
  insert .memberships adminMembership
  return .commit true

-- auth_sessions

def insertAuthSession (session : AuthSession) (context : SessionRequestContext) :
    Statements Unit :=
  insert .authSessions ⟨session, context⟩

def getAuthSession (id : SessionId) : Statements (End (Option AuthSession)) := do
  let db ← select
  return .commit (((db .authSessions).find? fun r => r.session.id = id).map (·.session))

/-- Unlike the other revocations this one overwrites an earlier `revoked_at`. -/
def revokeAuthSession (id : SessionId) (instant : OffsetDateTime) : Statements (End Unit) := do
  let _ ← update .authSessions (fun _ r => r.session.id = id)
    (fun r => { r with session := { r.session with revokedAt := some instant } })
  return .commit ()

def revokeUserBrowserSession (organizationId : OrganizationId) (userId : UserId)
    (sessionId : SessionId) (instant : OffsetDateTime) :
    Statements (End (Option AuthSession)) := do
  let updated ← update .authSessions
    (fun _ r => r.session.organizationId = organizationId ∧ r.session.userId = userId ∧
      r.session.id = sessionId ∧ r.session.revokedAt = none ∧ instant < r.session.expiresAt)
    (fun r => { r with session := { r.session with revokedAt := some instant } })
  return .commit (updated.head?.map (·.session))

def createAuthSessionWithNewContextNotification (session : AuthSession)
    (context : SessionRequestContext) (notification : Option EmailOutboxMessage) :
    Statements (End (Option Uuid)) := do
  let knownContext ← (if context.hasIdentifyingContext && notification.isSome then do
      let _ ← lock .users .update
        (fun _ u => u.user.organizationId = session.organizationId ∧ u.user.id = session.userId)
      let db ← select
      pure ((db .authSessions).any fun r =>
        r.session.organizationId = session.organizationId ∧ r.session.userId = session.userId ∧
          r.context = context)
    else pure true)
  insertAuthSession session context
  if knownContext then
    return .commit none
  match notification with
  | some message =>
    insertEmailOutboxMessageRecord message
    return .commit (some message.id)
  | none => return .commit none

def rotateAuthSessionWithContext (oldSessionId : SessionId) (newSession : AuthSession)
    (instant : OffsetDateTime) (context : SessionRequestContext) : Statements (End Unit) := do
  let revoked ← update .authSessions
    (fun _ r => r.session.id = oldSessionId ∧
      r.session.organizationId = newSession.organizationId ∧
      r.session.userId = newSession.userId ∧ r.session.revokedAt = none ∧
      instant < r.session.expiresAt)
    (fun r => { r with session := { r.session with revokedAt := some instant } })
  Prog.failIf (revoked.length ≠ 1) .notFound
  insertAuthSession newSession context
  return .commit ()

-- account_tokens

def insertAccountTokenRecord (token : AccountToken) : Statements Unit :=
  insert .accountTokens token

def insertAccountTokenAndEmailOutboxMessage (token : AccountToken) (message : EmailOutboxMessage) :
    Statements (End Unit) := do
  insertAccountTokenRecord token
  insertEmailOutboxMessageRecord message
  return .commit ()

def getAccountTokenByHash (tokenHash : String) (kind : AccountTokenKind) :
    Statements (End (Option AccountToken)) := do
  let db ← select
  return .commit ((db .accountTokens).find? fun t => t.tokenHash = tokenHash ∧ t.kind = kind)

/-- The user a token is for, as the `EXISTS` conditions of the consuming
    statements find it. -/
def tokenUserExists (db : Db) (userId : UserId) (p : UserWithPassword → Bool) (t : AccountToken) :
    Bool :=
  ∃ u ∈ db .users, u.user.organizationId = t.organizationId ∧ u.user.id = userId ∧
    u.user.email = t.email ∧ u.user.status = .active ∧ p u

/-- `email = (SELECT email FROM account_tokens WHERE id = $)`. -/
def emailOfToken (db : Db) (tokenId : Uuid) (u : UserWithPassword) : Bool :=
  ((db .accountTokens).find? fun t => t.id = tokenId).map (·.email) = some u.user.email

def consumeAccountTokenAndSetUserEmailVerified (tokenId : Uuid) (userId : UserId)
    (instant : OffsetDateTime) : Statements (End Bool) := do
  let consumed ← update .accountTokens
    (fun db t => t.id = tokenId ∧ t.userId = some userId ∧ t.kind = .emailVerification ∧
      t.consumedAt = none ∧ instant < t.expiresAt ∧ tokenUserExists db userId (fun _ => true) t)
    (fun t => { t with consumedAt := some instant })
  if consumed.length ≠ 1 then
    return .rollback false
  let updated ← update .users
    (fun db u => u.user.id = userId ∧ u.user.status = .active ∧ emailOfToken db tokenId u)
    (fun u => { u with user := { u.user with emailVerified := true, updatedAt := instant } })
  if updated.length ≠ 1 then
    return .rollback false
  return .commit true

def consumeAccountTokenAndSetUserPassword (tokenId : Uuid) (userId : UserId)
    (passwordHash : String) (emailVerified revokeSessions : Bool) (instant : OffsetDateTime) :
    Statements (End Bool) := do
  let consumed ← update .accountTokens
    (fun db t => t.id = tokenId ∧ t.userId = some userId ∧ t.kind = .invitation ∧
      t.consumedAt = none ∧ instant < t.expiresAt ∧
      tokenUserExists db userId (fun u => u.passwordHash = none) t)
    (fun t => { t with consumedAt := some instant })
  if consumed.length ≠ 1 then
    return .rollback false
  let updated ← update .users
    (fun db u => u.user.id = userId ∧ u.user.status = .active ∧ u.passwordHash = none ∧
      emailOfToken db tokenId u)
    (fun u => { u with
      passwordHash := some passwordHash
      user := { u.user with emailVerified := emailVerified, updatedAt := instant } })
  if updated.length ≠ 1 then
    return .rollback false
  Prog.when revokeSessions do
    let _ ← update .authSessions (fun _ r => r.session.userId = userId)
      (AuthSessionRow.revoke instant)
  return .commit true

def revokeLiveUserSessions (organizationId : OrganizationId) (userId : UserId)
    (instant : OffsetDateTime) : Statements Nat := do
  let sessions ← update .authSessions
    (fun _ r => r.session.organizationId = organizationId ∧ r.session.userId = userId ∧
      r.session.revokedAt = none)
    (AuthSessionRow.revoke instant)
  return sessions.length

def revokeLiveUserTokens (organizationId : OrganizationId) (userId : UserId)
    (instant : OffsetDateTime) : Statements (Nat × Nat) := do
  let access ← update .accessTokens
    (fun _ t => t.organizationId = organizationId ∧ t.userId = some userId ∧ t.revokedAt = none)
    (AccessTokenRecord.revoke instant)
  let refresh ← update .refreshTokens
    (fun _ t => t.organizationId = organizationId ∧ t.userId = some userId ∧ t.revokedAt = none)
    (RefreshToken.revoke instant)
  return (access.length, refresh.length)

def insertNotification (notification : Option EmailOutboxMessage) : Statements Unit :=
  match notification with
  | some message => insertEmailOutboxMessageRecord message
  | none => pure ()

structure PasswordRecoveryInput where
  organizationId : OrganizationId
  userId : UserId
  tokenId : Uuid
  passwordHash : String
  notification : Option EmailOutboxMessage
  instant : OffsetDateTime

structure PasswordMutation where
  sessionsRevoked : Nat
  accessTokensRevoked : Nat
  refreshTokensRevoked : Nat
  accountTokensConsumed : Nat
  notificationEmailOutboxId : Option Uuid

/-- `none` is the outcome `NotFound`. -/
def consumePasswordRecoveryTokenAndResetUserPassword (input : PasswordRecoveryInput) :
    Statements (End (Option PasswordMutation)) := do
  let consumed ← update .accountTokens
    (fun db t => t.id = input.tokenId ∧ t.organizationId = input.organizationId ∧
      t.userId = some input.userId ∧ t.kind = .passwordRecovery ∧ t.consumedAt = none ∧
      input.instant < t.expiresAt ∧
      tokenUserExists db input.userId (fun u => u.passwordHash.isSome) t)
    (fun t => { t with consumedAt := some input.instant })
  if consumed.length ≠ 1 then
    return .rollback none
  let updated ← update .users
    (fun db u => u.user.organizationId = input.organizationId ∧ u.user.id = input.userId ∧
      u.user.status = .active ∧ u.passwordHash.isSome ∧ emailOfToken db input.tokenId u)
    (fun u => { u with
      passwordHash := some input.passwordHash
      user := { u.user with emailVerified := true, updatedAt := input.instant } })
  if updated.length ≠ 1 then
    return .rollback none
  let others ← update .accountTokens
    (fun _ t => t.organizationId = input.organizationId ∧ t.userId = some input.userId ∧
      t.kind = .passwordRecovery ∧ t.id ≠ input.tokenId ∧ t.consumedAt = none ∧
      input.instant < t.expiresAt)
    (fun t => { t with consumedAt := some input.instant })
  let sessions ← revokeLiveUserSessions input.organizationId input.userId input.instant
  let (access, refresh) ← revokeLiveUserTokens input.organizationId input.userId input.instant
  insertNotification input.notification
  return .commit (some
    ⟨sessions, access, refresh, 1 + others.length, input.notification.map (·.id)⟩)

structure PasswordChangeInput where
  organizationId : OrganizationId
  userId : UserId
  passwordHash : String
  newSession : AuthSession
  context : SessionRequestContext
  notification : Option EmailOutboxMessage
  instant : OffsetDateTime

/-- `none` is the outcome `NotFound`. The user row is locked, but nothing that
    the caller read before is compared again. -/
def changeUserPasswordAndRotateSession (input : PasswordChangeInput) :
    Statements (End (Option (AuthSession × PasswordMutation))) := do
  let locked ← lock .users .update
    (fun _ u => u.user.organizationId = input.organizationId ∧ u.user.id = input.userId)
  if locked.isEmpty then
    return .commit none
  let _ ← update .users
    (fun _ u => u.user.organizationId = input.organizationId ∧ u.user.id = input.userId)
    (fun u => { u with
      passwordHash := some input.passwordHash
      user := { u.user with updatedAt := input.instant } })
  let sessions ← revokeLiveUserSessions input.organizationId input.userId input.instant
  insertAuthSession input.newSession input.context
  let (access, refresh) ← revokeLiveUserTokens input.organizationId input.userId input.instant
  let tokens ← update .accountTokens
    (fun _ t => t.organizationId = input.organizationId ∧ t.userId = some input.userId ∧
      t.kind = .passwordRecovery ∧ t.consumedAt = none ∧ input.instant < t.expiresAt)
    (fun t => { t with consumedAt := t.consumedAt.or (some input.instant) })
  insertNotification input.notification
  return .commit (some (input.newSession,
    ⟨sessions, access, refresh, tokens.length, input.notification.map (·.id)⟩))

end CairnId.Database
