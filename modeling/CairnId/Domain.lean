import Mathlib.Init

/-!
# Domain records

The records of `crates/domain` and the row types of `crates/database/src/rows`.
Identifiers are 128 bit, instants count microseconds, and texts that the codec
maps to an enumeration are that enumeration.
-/

namespace CairnId

abbrev Uuid := BitVec 128
abbrev OffsetDateTime := Int
abbrev Duration := Int
abbrev Bytes := List UInt8

abbrev OrganizationId := Uuid
abbrev UserId := Uuid
abbrev GroupId := Uuid
abbrev ClientId := Uuid
abbrev SessionId := Uuid
abbrev RefreshTokenId := Uuid

instance : LawfulBEq Uuid := inferInstance

def Duration.seconds (n : Int) : Duration := n * 1000000
def Duration.minutes (n : Int) : Duration := .seconds (n * 60)
def Duration.hours (n : Int) : Duration := .minutes (n * 60)
def Duration.days (n : Int) : Duration := .hours (n * 24)

/-- JSON values as stored in `JSONB` columns. -/
inductive Json where
  | null
  | bool (b : Bool)
  | number (n : Int)
  | string (s : String)
  | array (xs : List Json)
  | object (members : List (String × Json))

namespace Json

def get? (v : Json) (key : String) : Option Json := match v with
  | .object members => (members.find? fun m => m.1 = key).map (·.2)
  | _ => none

def asStr? : Json → Option String
  | .string s => some s
  | _ => none

/-- `json!` of an optional text. -/
def ofText? : Option String → Json
  | some s => .string s
  | none => .null

/-- `value->>'key'`, for members that are texts. -/
def text? (v : Json) (key : String) : Option String := (v.get? key).bind asStr?

end Json

structure Organization where
  id : OrganizationId
  slug : String
  displayName : String
  createdAt : OffsetDateTime

inductive UserStatus where
  | active
  | suspended
  | locked
  deriving DecidableEq

structure User where
  id : UserId
  organizationId : OrganizationId
  email : String
  scimExternalId : Option String
  emailVerified : Bool
  displayName : String
  status : UserStatus
  createdAt : OffsetDateTime
  updatedAt : OffsetDateTime
  lastLoginAt : Option OffsetDateTime
  deriving DecidableEq

/-- A row of `users`. -/
structure UserWithPassword where
  user : User
  passwordHash : Option String
  deriving DecidableEq

structure Group where
  id : GroupId
  organizationId : OrganizationId
  slug : String
  scimExternalId : Option String
  displayName : String
  createdAt : OffsetDateTime
  deriving DecidableEq

inductive MembershipRole where
  | member
  | owner
  deriving DecidableEq

structure Membership where
  organizationId : OrganizationId
  userId : UserId
  groupId : GroupId
  role : MembershipRole
  createdAt : OffsetDateTime
  deriving DecidableEq

/-- A membership joined with its user. -/
structure ScimGroupMember where
  groupId : GroupId
  userId : UserId
  email : String
  displayName : String
  role : MembershipRole
  createdAt : OffsetDateTime
  deriving DecidableEq

inductive OidcGrantType where
  | authorizationCode
  | refreshToken
  | clientCredentials
  deriving DecidableEq

inductive OidcClientStatus where
  | active
  | disabled
  deriving DecidableEq

structure RedirectUri where
  value : String
  deriving DecidableEq

structure OidcClient where
  id : ClientId
  organizationId : OrganizationId
  clientId : String
  clientSecretHash : Option String
  consentPolicyTemplateId : Option Uuid
  name : String
  redirectUris : List RedirectUri
  postLogoutRedirectUris : List RedirectUri
  allowedScopes : List String
  grantTypes : List OidcGrantType
  publicClient : Bool
  requirePkce : Bool
  status : OidcClientStatus
  createdAt : OffsetDateTime
  deriving DecidableEq

namespace OidcClient

def allowsRedirectUri (c : OidcClient) (candidate : String) : Bool :=
  c.redirectUris.any fun uri => uri.value = candidate

def allowsPostLogoutRedirectUri (c : OidcClient) (candidate : String) : Bool :=
  c.postLogoutRedirectUris.any fun uri => uri.value = candidate

def allowsGrant (c : OidcClient) (grantType : OidcGrantType) : Bool :=
  c.grantTypes.contains grantType

end OidcClient

structure AuthSession where
  id : SessionId
  organizationId : OrganizationId
  userId : UserId
  acr : String
  amr : List String
  createdAt : OffsetDateTime
  expiresAt : OffsetDateTime
  revokedAt : Option OffsetDateTime
  deriving DecidableEq

/-- Where a session was created from. -/
structure SessionRequestContext where
  ipAddress : Option String
  userAgent : Option String
  deriving DecidableEq

def SessionRequestContext.hasIdentifyingContext (c : SessionRequestContext) : Bool :=
  c.ipAddress.isSome || c.userAgent.isSome

/-- A row of `auth_sessions`. -/
structure AuthSessionRow where
  session : AuthSession
  context : SessionRequestContext
  deriving DecidableEq

inductive ConsentGrantMode where
  | requiredOnce
  | alwaysRequired
  deriving DecidableEq

structure ConsentPolicyTemplate where
  id : Uuid
  organizationId : OrganizationId
  slug : String
  name : String
  grantMode : ConsentGrantMode
  createdAt : OffsetDateTime
  deriving DecidableEq

structure ConsentGrant where
  id : Uuid
  organizationId : OrganizationId
  userId : UserId
  clientId : ClientId
  scopes : List String
  createdAt : OffsetDateTime
  revokedAt : Option OffsetDateTime
  deriving DecidableEq

structure ConsentAuthorization where
  id : Uuid
  organizationId : OrganizationId
  userId : UserId
  sessionId : SessionId
  clientId : ClientId
  authorizationRequestHash : String
  scopes : List String
  createdAt : OffsetDateTime
  expiresAt : OffsetDateTime
  consumedAt : Option OffsetDateTime
  deriving DecidableEq

inductive PkceMethod where
  | s256
  deriving DecidableEq

structure AuthorizationCode where
  codeHash : String
  organizationId : OrganizationId
  userId : UserId
  sessionId : SessionId
  clientId : ClientId
  redirectUri : String
  scopes : List String
  nonce : Option String
  codeChallenge : String
  codeChallengeMethod : PkceMethod
  createdAt : OffsetDateTime
  expiresAt : OffsetDateTime
  usedAt : Option OffsetDateTime
  deriving DecidableEq

structure AccessTokenRecord where
  tokenHash : String
  organizationId : OrganizationId
  userId : Option UserId
  clientId : ClientId
  scopes : List String
  refreshFamilyId : Option Uuid
  createdAt : OffsetDateTime
  expiresAt : OffsetDateTime
  revokedAt : Option OffsetDateTime
  deriving DecidableEq

structure RefreshToken where
  id : RefreshTokenId
  tokenHash : String
  familyId : Uuid
  organizationId : OrganizationId
  userId : Option UserId
  clientId : ClientId
  scopes : List String
  createdAt : OffsetDateTime
  expiresAt : OffsetDateTime
  rotatedAt : Option OffsetDateTime
  revokedAt : Option OffsetDateTime
  deriving DecidableEq

inductive AccountTokenKind where
  | emailVerification
  | passwordRecovery
  | invitation
  deriving DecidableEq

structure AccountToken where
  id : Uuid
  organizationId : OrganizationId
  kind : AccountTokenKind
  userId : Option UserId
  email : String
  tokenHash : String
  createdByUserId : Option UserId
  createdAt : OffsetDateTime
  expiresAt : OffsetDateTime
  consumedAt : Option OffsetDateTime
  metadata : Json

inductive MfaKind where
  | totp
  | webAuthn
  | recoveryCode
  deriving DecidableEq

structure MfaCredential where
  id : Uuid
  organizationId : OrganizationId
  userId : UserId
  kind : MfaKind
  label : String
  secretMetadata : Json
  createdAt : OffsetDateTime
  lastUsedAt : Option OffsetDateTime

inductive WebAuthnChallengeKind where
  | registration
  | authentication
  deriving DecidableEq

structure WebAuthnChallenge where
  id : Uuid
  organizationId : OrganizationId
  userId : UserId
  kind : WebAuthnChallengeKind
  state : Json
  createdAt : OffsetDateTime
  expiresAt : OffsetDateTime
  consumedAt : Option OffsetDateTime

/-- A row of `signing_keys`; a key without private material only verifies. -/
structure SigningKeyRow where
  kid : String
  algorithm : String
  publicJwk : Json
  privateKeyCiphertext : Option Bytes
  privateKeyNonce : Option Bytes
  signingActive : Bool
  createdAt : OffsetDateTime
  retiredAt : Option OffsetDateTime

structure EmailOutboxMessage where
  id : Uuid
  organizationId : OrganizationId
  recipientEmail : String
  subject : String
  bodyText : String
  template : String
  actionPath : Option String
  deliveryTokenCiphertext : Option Bytes
  deliveryTokenNonce : Option Bytes
  status : String
  attempts : Int
  lastError : Option String
  providerMessageId : Option String
  metadata : Json
  createdAt : OffsetDateTime
  updatedAt : OffsetDateTime
  nextAttemptAt : Option OffsetDateTime
  sentAt : Option OffsetDateTime

inductive AuditActorKind where
  | user
  | client
  | system
  deriving DecidableEq

structure AuditEvent where
  id : Uuid
  organizationId : OrganizationId
  actorKind : AuditActorKind
  actorId : Option Uuid
  action : String
  target : String
  ipAddress : Option String
  userAgent : Option String
  metadata : Json
  createdAt : OffsetDateTime

structure RateLimitBucket where
  key : String
  purpose : String
  attempts : Int
  windowStart : OffsetDateTime
  blockedUntil : Option OffsetDateTime
  updatedAt : OffsetDateTime
  deriving DecidableEq

def RateLimitBucket.isBlocked (b : RateLimitBucket) (now : OffsetDateTime) : Bool :=
  b.blockedUntil.any fun blockedUntil => now < blockedUntil

end CairnId
