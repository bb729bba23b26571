import CairnId.Audit
import CairnId.Http.App

/-!
# What a browser request brings along

Cookies, the CSRF check, the source of a request, throttling, and the session a
request is made in.
-/

namespace CairnId

open Concurrency App

/-- The headers that the handlers read, and the resolved address of the sender. -/
structure RequestHeaders where
  cookie : Option String
  csrf : Option String
  userAgent : Option String
  sourceIp : Option String

/-- `HeaderValue::from_str`: no control characters except tabs. -/
def isHeaderValue (value : String) : Bool :=
  value.toList.all fun c => (32 ≤ c.toNat && c.toNat ≠ 127) || c = '\t'

/-- `part.trim().split_once('=')`. -/
def splitCookie (part : String) : Option (String × String) :=
  let cs := (trim part).toList
  match cs.dropWhile (· ≠ '=') with
  | _ :: value => some (String.ofList (cs.takeWhile (· ≠ '=')), String.ofList value)
  | [] => none

def cookieValue (headers : RequestHeaders) (name : String) : Option String := do
  let header ← headers.cookie
  let cookies := (splitAt ';' header).filterMap splitCookie
  (cookies.find? fun c => c.1 = name).map (·.2)

def isCsrfTokenValue (token : String) : Bool :=
  32 ≤ token.utf8ByteSize && token.utf8ByteSize ≤ 128 &&
    token.toList.all fun c => isAsciiAlphanumeric c || c = '-' || c = '_'

def requireCsrf (headers : RequestHeaders) : App Unit := do
  let some cookieToken := cookieValue headers "cairn_csrf"
    | throw (.status 403 "missing CSRF cookie")
  let some headerToken := headers.csrf | throw (.status 403 "missing CSRF header")
  Prog.failIf (!isCsrfTokenValue cookieToken || !isCsrfTokenValue headerToken)
    (.status 403 "invalid CSRF token")
  Prog.failIf (cookieToken ≠ headerToken) (.status 403 "invalid CSRF token")

def truncateAuditRequestContextValue (value : String) : String :=
  String.ofList (value.toList.take 512)

def auditRequestContext (headers : RequestHeaders) : SessionRequestContext where
  ipAddress := headers.sourceIp.map truncateAuditRequestContextValue
  userAgent := headers.userAgent.map truncateAuditRequestContextValue

/-- `AuditEventBuilder::build` and the insert of the event. -/
def insertAuditEvent (b : AuditEventBuilder) : App Unit := do
  let id ← newV4
  let createdAt ← nowUtc
  db (.insertAuditEvent (b.event id createdAt))

-- throttling

structure RateLimitKey where
  key : String
  purpose : String

structure RateLimitPolicy where
  window : Duration
  maxAttempts : Int
  blockFor : Duration

/-- The `LOGIN_RATE_LIMIT_*` and `REAUTHENTICATION_RATE_LIMIT_*` constants. -/
def credentialRateLimit : RateLimitPolicy := ⟨.minutes 15, 5, .minutes 15⟩

/-- `max(1)` of the whole seconds left. -/
def retryAfterSeconds (blockedUntil now : OffsetDateTime) : Int :=
  max ((blockedUntil - now).tdiv 1000000) 1

def enforceRateLimitAt (now : OffsetDateTime) : List RateLimitKey → App Unit
  | [] => return ()
  | key :: keys => do
    let bucket ← db (.getRateLimitBucket key.key)
    let blocked := bucket.filter fun b => b.isBlocked now
    Prog.failIf blocked.isSome (.rateLimited (retryAfterSeconds
      ((blocked.bind (·.blockedUntil)).getD (now + Duration.seconds 1)) now))
    enforceRateLimitAt now keys

def enforceRateLimit (keys : List RateLimitKey) : App Unit := do
  let now ← nowUtc
  enforceRateLimitAt now keys

def recordRateLimitFailureAt (policy : RateLimitPolicy) (now : OffsetDateTime) :
    List RateLimitKey → App Unit
  | [] => return ()
  | key :: keys => do
    let _ ← db (.recordRateLimitFailure key.key key.purpose now policy.window policy.maxAttempts
      policy.blockFor)
    recordRateLimitFailureAt policy now keys

def recordRateLimitFailure (policy : RateLimitPolicy) (keys : List RateLimitKey) : App Unit := do
  let now ← nowUtc
  recordRateLimitFailureAt policy now keys

section keys

variable (P : Primitives) (organizationId : OrganizationId)

/-- `{prefix}:ip:{organization}:{hash of the address}`. -/
def sourceRateLimitKey (kind : String) (headers : RequestHeaders) (purpose : String) :
    RateLimitKey :=
  ⟨kind ++ ":ip:" ++ Uuid.hyphenated organizationId ++ ":" ++
    hashToken P (headers.sourceIp.getD "unknown"), purpose⟩

def userRateLimitKey (kind : String) (userId : UserId) (purpose : String) : RateLimitKey :=
  ⟨kind ++ ":user:" ++ Uuid.hyphenated organizationId ++ ":" ++ hashToken P (Uuid.hyphenated userId),
    purpose⟩

def loginPreCredentialRateLimitKeys (headers : RequestHeaders) : List RateLimitKey :=
  [sourceRateLimitKey P organizationId "login" headers "session.login.ip"]

def loginVerifiedUserRateLimitKeys (userId : UserId) (headers : RequestHeaders) :
    List RateLimitKey :=
  [userRateLimitKey P organizationId "login" userId "session.login.user",
    sourceRateLimitKey P organizationId "login" headers "session.login.ip"]

def reauthenticationRateLimitKeys (userId : UserId) (headers : RequestHeaders) :
    List RateLimitKey :=
  [userRateLimitKey P organizationId "reauth" userId "session.reauthenticate.user",
    sourceRateLimitKey P organizationId "reauth" headers "session.reauthenticate.ip"]

end keys

-- session_auth

variable (P : Primitives) (state : AppState)

def userAllowsRuntimeAccess (user : User) (organizationId : OrganizationId) : Bool :=
  user.organizationId = organizationId && user.status = .active

def sessionFromCookie (headers : RequestHeaders) : App (Option AuthSession) := do
  let some raw := cookieValue headers "cairn_session" | return none
  let some sessionId := P.parseUuid raw | return none
  let some session ← db (.getAuthSession sessionId) | return none
  if session.organizationId ≠ state.organizationId then return none
  if session.revokedAt.isSome then return none
  let now ← nowUtc
  if session.expiresAt ≤ now then return none
  let some user ← db (.getUser session.userId) | return none
  if !userAllowsRuntimeAccess user session.organizationId then return none
  return some session

def requireSession (headers : RequestHeaders) : App AuthSession := do
  let some session ← sessionFromCookie P state headers | throw (.status 401 "missing session")
  return session

/-- `ADMINISTRATORS_GROUP_SLUG`. -/
def administratorsGroupSlug : String := "administrators"

def requireAdminSession (headers : RequestHeaders) : App AuthSession := do
  let session ← requireSession P state headers
  let isAdmin ← db (.userHasGroupRole session.organizationId session.userId
    administratorsGroupSlug [.owner])
  Prog.failIf (!isAdmin) (.status 403 "admin privileges required")
  return session

/-- `MFA_DESTRUCTIVE_ACTION_MAX_AGE`. -/
def mfaDestructiveActionMaxAge : Duration := .minutes 15

def sessionHasMfaProof (session : AuthSession) : Bool :=
  ["urn:cairn:acr:password+totp", "urn:cairn:acr:password+recovery_code",
    "urn:cairn:acr:password+webauthn"].contains session.acr ||
    session.amr.any fun method => ["otp", "recovery", "mfa"].contains method

def requireRecentMfaProof (session : AuthSession) (now : OffsetDateTime) : App Unit :=
  Prog.failIf (!sessionHasMfaProof session ∨ session.createdAt + mfaDestructiveActionMaxAge < now)
    (.status 403 "fresh MFA verification required")

def requireRecentAdminSession (headers : RequestHeaders) : App AuthSession := do
  let session ← requireAdminSession P state headers
  let now ← nowUtc
  requireRecentMfaProof session now
  return session

end CairnId
