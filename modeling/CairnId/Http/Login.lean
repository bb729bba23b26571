import CairnId.Http.Mfa
import CairnId.Http.RequestSpec
import CairnId.Validation

/-!
# Signing in

`auth_routes/login.rs`, `login/reauthenticate.rs` and `password.rs`: the requests
that insert a session, from the point where their body has been parsed.
-/

namespace CairnId

open Concurrency App

/-- What was sent along with a password. -/
structure MfaSubmission where
  totpCode : Option String
  recoveryCode : Option String
  mfaCode : Option String
  webauthnChallengeId : Option Uuid
  webauthnCredential : Option Json

/-- `mfa_code()`, and the rest of the submission. -/
def MfaSubmission.submitted (s : MfaSubmission) : SubmittedMfa where
  code := ((s.mfaCode.or s.totpCode).or s.recoveryCode).filter fun code => trim code ≠ ""
  webauthnChallengeId := s.webauthnChallengeId
  webauthnCredential := s.webauthnCredential

structure LoginRequest where
  email : String
  password : String
  mfa : MfaSubmission

structure ReauthenticateRequest where
  password : String
  mfa : MfaSubmission

structure ChangePasswordRequest where
  currentPassword : String
  newPassword : String

/-- The answers, of which those with a session set its cookie. -/
inductive AuthResponse where
  | mfaRequired (body : Json)
  | loggedIn (user : User) (sessionId : SessionId)
  | reauthenticated (session : AuthSession)
  | passwordChanged (session : AuthSession) (mutation : Database.PasswordMutation)

/-- `From<DomainError>`. -/
def ApiError.ofDomain (e : DomainError) : ApiError := .badRequest e.text

/-- The fields that the notifications to a user have in common. -/
def securityNotification (state : AppState) (id : Uuid) (recipientEmail subject bodyText kind : String)
    (metadata : List (String × Json)) (instant : OffsetDateTime) : EmailOutboxMessage where
  id := id
  organizationId := state.organizationId
  recipientEmail := recipientEmail
  subject := subject
  bodyText := bodyText
  template := kind
  actionPath := none
  deliveryTokenCiphertext := none
  deliveryTokenNonce := none
  status := "queued"
  attempts := 0
  lastError := none
  providerMessageId := none
  metadata := .object (("kind", .string kind) :: metadata)
  createdAt := instant
  updatedAt := instant
  nextAttemptAt := none
  sentAt := none

section notifications

variable (P : Primitives) (state : AppState)

/-- The lines that say when and from where. -/
def contextLines (context : SessionRequestContext) (instant : OffsetDateTime) : String :=
  "\n\nTime: " ++ P.formatRfc3339 instant ++ "\nIP address: " ++
    context.ipAddress.getD "Unknown" ++ "\nBrowser: " ++ context.userAgent.getD "Unknown" ++ "\n\n"

def newLoginNotificationEmail (user : User) (session : AuthSession)
    (context : SessionRequestContext) (instant : OffsetDateTime) : App EmailOutboxMessage := do
  let id ← newV4
  return securityNotification state id user.email "New Cairn Identity sign-in"
    ("A new Cairn Identity sign-in was detected." ++ contextLines P context instant ++
      "If this was you, no action is needed. If this was not you, change your password " ++
      "immediately and contact your administrator.")
    "new_login_notification"
    [("user_id", .string (Uuid.hyphenated user.id)),
      ("session_id", .string (Uuid.hyphenated session.id)),
      ("ip_address", .ofText? context.ipAddress), ("user_agent", .ofText? context.userAgent),
      ("logged_in_at", .string (P.formatRfc3339 instant))] instant

def passwordChangeNotificationEmail (user : User) (session : AuthSession)
    (context : SessionRequestContext) (instant : OffsetDateTime) : App EmailOutboxMessage := do
  let id ← newV4
  return securityNotification state id user.email "Your Cairn Identity password was changed"
    ("Your Cairn Identity password was changed." ++ contextLines P context instant ++
      "If this was you, no action is needed. If this was not you, reset your password " ++
      "immediately and contact your administrator.")
    "password_changed_notification"
    [("user_id", .string (Uuid.hyphenated user.id)),
      ("session_id", .string (Uuid.hyphenated session.id)),
      ("ip_address", .ofText? context.ipAddress), ("user_agent", .ofText? context.userAgent),
      ("changed_at", .string (P.formatRfc3339 instant))] instant

end notifications

variable (P : Primitives) (state : AppState)

/-- Record a failed attempt and refuse. -/
def recordAndRefuse {α : Type} (keys : List RateLimitKey) (error : ApiError) : App α := do
  recordRateLimitFailure credentialRateLimit keys
  throw error

/-- The user of an email address and password, as `login` finds them. -/
def verifyLoginCredentials (request : LoginRequest) (email : String) (keys : List RateLimitKey) :
    App User := do
  match ← db (.findUserByEmail state.organizationId email) with
  | none => recordAndRefuse keys (.status 401 "invalid credentials")
  | some userWithPassword => match userWithPassword.passwordHash with
    | none => recordAndRefuse keys (.status 401 "invalid credentials")
    | some passwordHash =>
      if userWithPassword.user.status ≠ .active then
        recordAndRefuse keys (.status 403 "user is not active")
      else if !P.verifyPassword request.password passwordHash then
        recordAndRefuse keys (.status 401 "invalid credentials")
      else return userWithPassword.user

def identifyingNotification (user : User) (session : AuthSession)
    (context : SessionRequestContext) (now : OffsetDateTime) : App (Option EmailOutboxMessage) :=
  if context.hasIdentifyingContext then do
    let message ← newLoginNotificationEmail P state user session context now
    return some message
  else return none

/-- Insert the session of a login and what goes with it. -/
def insertLoginSession (headers : RequestHeaders) (user : User)
    (method : Option MfaVerificationMethod) (keys : List RateLimitKey) : App AuthResponse := do
  let now ← nowUtc
  let session ← authenticatedSession user.organizationId user.id method now
  let context := auditRequestContext headers
  let notification ← identifyingNotification P state user session context now
  let notificationId ←
    db (.createAuthSessionWithNewContextNotification session context notification)
  db (.setUserLastLogin session.userId now)
  db (.clearRateLimitBucket ((keys.map (·.key)).headD ""))
  insertAuditEvent (((AuditEventBuilder.user session.organizationId session.userId
    "session.logged_in" (Uuid.hyphenated session.id)).requestContext context.ipAddress
    context.userAgent).withMetadata (.object [("acr", .string session.acr),
      ("amr", .array (session.amr.map .string)),
      ("new_context_notification_email_outbox_id",
        .ofText? (notificationId.map Uuid.hyphenated))]))
  return .loggedIn user session.id

def login (headers : RequestHeaders) (request : LoginRequest) : App AuthResponse := do
  requireCsrf headers
  let email ← Prog.ofExcept ((normalizeEmail request.email).mapError ApiError.ofDomain)
  let preCredentialKeys := loginPreCredentialRateLimitKeys P state.organizationId headers
  enforceRateLimit preCredentialKeys
  let user ← verifyLoginCredentials P state request email preCredentialKeys
  let verifiedUserKeys := loginVerifiedUserRateLimitKeys P state.organizationId user.id headers
  enforceRateLimit verifiedUserKeys
  match ← verifySubmittedMfa P state user.organizationId user.id request.mfa.submitted
      verifiedUserKeys credentialRateLimit with
  | .required body => return .mfaRequired body
  | .verified method => insertLoginSession P state headers user method verifiedUserKeys

/-- The checks of the password that `reauthenticate` and `change_password` share. -/
def verifySessionPassword (session : AuthSession) (password : String) (keys : List RateLimitKey) :
    App (User × String) := do
  let some userWithPassword ← db (.getUserWithPassword session.organizationId session.userId)
    | throw (.status 401 "user missing")
  let some passwordHash := userWithPassword.passwordHash
    | throw (.status 403 "password authentication unavailable")
  Prog.failIf (userWithPassword.user.status ≠ .active) (.status 403 "user is not active")
  if !P.verifyPassword password passwordHash then
    recordAndRefuse keys (.status 401 "invalid credentials")
  else return (userWithPassword.user, passwordHash)

/-- Replace the session and record that. -/
def replaceSession (headers : RequestHeaders) (current : AuthSession)
    (method : Option MfaVerificationMethod) (keys : List RateLimitKey) : App AuthResponse := do
  let now ← nowUtc
  let newSession ← authenticatedSession current.organizationId current.userId method now
  let context := auditRequestContext headers
  db (.rotateAuthSessionWithContext current.id newSession now context)
  db (.setUserLastLogin newSession.userId now)
  db (.clearRateLimitBucket ((keys.map (·.key)).headD ""))
  insertAuditEvent (((AuditEventBuilder.user newSession.organizationId newSession.userId
    "session.reauthenticated" (Uuid.hyphenated newSession.id)).requestContext context.ipAddress
    context.userAgent).withMetadata (.object
      [("previous_session_id", .string (Uuid.hyphenated current.id)),
        ("acr", .string newSession.acr), ("amr", .array (newSession.amr.map .string))]))
  return .reauthenticated newSession

def reauthenticate (headers : RequestHeaders) (request : ReauthenticateRequest) :
    App AuthResponse := do
  let current ← requireSession P state headers
  requireCsrf headers
  let keys := reauthenticationRateLimitKeys P current.organizationId current.userId headers
  enforceRateLimit keys
  let _ ← verifySessionPassword P current request.password keys
  match ← verifySubmittedMfa P state current.organizationId current.userId
      request.mfa.submitted keys credentialRateLimit with
  | .required body => return .mfaRequired body
  | .verified method => replaceSession headers current method keys

/-- The length is counted in bytes. -/
def validNewPassword (password : String) : Except ApiError String :=
  if password.utf8ByteSize < 12 then
    .error (.badRequest "password must be at least 12 characters")
  else .ok password

/-- The session that comes with the new password. -/
def changedPasswordSession (current : AuthSession) (hasActiveSecondFactor : Bool)
    (now : OffsetDateTime) : App AuthSession :=
  if hasActiveSecondFactor then rotatedSessionPreservingAuthContext current now
  else authenticatedSession current.organizationId current.userId none now

/-- The change itself, once the current password was verified. -/
def applyPasswordChange (headers : RequestHeaders) (current newSession : AuthSession) (user : User)
    (newPasswordHash : String) (keys : List RateLimitKey) (now : OffsetDateTime) :
    App AuthResponse := do
  let context := auditRequestContext headers
  let notification ← passwordChangeNotificationEmail P state user newSession context now
  let some (session, mutation) ← db (.changeUserPasswordAndRotateSession
      ⟨current.organizationId, current.userId, newPasswordHash, newSession, context,
        some notification, now⟩)
    | throw (.status 401 "user missing")
  db (.clearRateLimitBucket ((keys.map (·.key)).headD ""))
  insertAuditEvent (((AuditEventBuilder.user session.organizationId session.userId
    "account.password_changed" (Uuid.hyphenated session.userId)).requestContext context.ipAddress
    context.userAgent).withMetadata (.object
      [("previous_session_id", .string (Uuid.hyphenated current.id)),
        ("new_session_id", .string (Uuid.hyphenated session.id)),
        ("sessions_revoked", .number mutation.sessionsRevoked),
        ("access_tokens_revoked", .number mutation.accessTokensRevoked),
        ("refresh_tokens_revoked", .number mutation.refreshTokensRevoked),
        ("account_tokens_consumed", .number mutation.accountTokensConsumed),
        ("notification_email_outbox_id",
          .ofText? (mutation.notificationEmailOutboxId.map Uuid.hyphenated))]))
  return .passwordChanged session mutation

def changePassword (headers : RequestHeaders) (request : ChangePasswordRequest) :
    App AuthResponse := do
  let current ← requireSession P state headers
  requireCsrf headers
  let keys := reauthenticationRateLimitKeys P current.organizationId current.userId headers
  enforceRateLimit keys
  let (user, passwordHash) ← verifySessionPassword P current request.currentPassword keys
  let now ← nowUtc
  let secondFactors ← activeSecondFactorCount current.organizationId current.userId
  Prog.when (0 < secondFactors) (requireRecentMfaProof current now)
  let newPassword ← Prog.ofExcept (validNewPassword request.newPassword)
  Prog.failIf (P.verifyPassword newPassword passwordHash)
    (.badRequest "new password must differ from current password")
  let newPasswordHash ← hashPassword newPassword
  let newSession ← changedPasswordSession current (0 < secondFactors) now
  applyPasswordChange P state headers current newSession user newPasswordHash keys now

/-- `revoke_browser_session`: the user revokes another of their sessions. -/
def revokeOwnBrowserSession (headers : RequestHeaders) (sessionId : SessionId) :
    App SessionId := do
  let session ← requireSession P state headers
  requireCsrf headers
  Prog.failIf (sessionId = session.id) (.badRequest "use logout to revoke current session")
  let now ← nowUtc
  let some revoked ←
      db (.revokeUserBrowserSession session.organizationId session.userId sessionId now)
    | throw (.status 404 "browser session not found")
  -- this route does not resolve the sender's address
  let context := auditRequestContext { headers with sourceIp := none }
  insertAuditEvent (((AuditEventBuilder.user session.organizationId session.userId
    "session.revoked_by_user" (Uuid.hyphenated revoked.id)).requestContext context.ipAddress
    context.userAgent).withMetadata (.object
      [("current_session_id", .string (Uuid.hyphenated session.id)),
        ("revoked_session_acr", .string revoked.acr),
        ("revoked_session_amr", .array (revoked.amr.map .string))]))
  return revoked.id

/-- An administrator revokes a session of a user. -/
def revokeAdminUserBrowserSession (headers : RequestHeaders) (userId : UserId)
    (sessionId : SessionId) : App SessionId := do
  let actor ← requireRecentAdminSession P state headers
  requireCsrf headers
  let some _ ← db (.getUserWithPassword state.organizationId userId)
    | throw (.status 404 "user not found")
  Prog.failIf (sessionId = actor.id) (.badRequest "use logout to revoke current session")
  let now ← nowUtc
  let some revoked ← db (.revokeUserBrowserSession state.organizationId userId sessionId now)
    | throw (.status 404 "browser session not found")
  let context := auditRequestContext { headers with sourceIp := none }
  insertAuditEvent (((AuditEventBuilder.user state.organizationId actor.userId
    "admin.user_session_revoked" (Uuid.hyphenated revoked.id)).requestContext context.ipAddress
    context.userAgent).withMetadata (.object
      [("subject_user_id", .string (Uuid.hyphenated userId)),
        ("admin_session_id", .string (Uuid.hyphenated actor.id)),
        ("revoked_session_acr", .string revoked.acr),
        ("revoked_session_amr", .array (revoked.amr.map .string))]))
  return revoked.id

end CairnId
