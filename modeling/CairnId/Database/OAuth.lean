import Mathlib.Data.List.Sort
import CairnId.Database.Schema

/-!
# Tokens, clients and consent

The transactions of `crates/database/src/oauth_tokens`, `oidc_clients` and
`consent_grants`. A method that runs one statement is a transaction of its own.
-/

namespace CairnId.Database

open Concurrency Concurrency.Sql

-- oauth_tokens

def insertAccessTokenRecord (token : AccessTokenRecord) : Statements Unit :=
  insert .accessTokens token

def insertRefreshTokenRecord (token : RefreshToken) : Statements Unit :=
  insert .refreshTokens token

/-- `if let Some(token) = refresh_token`. -/
def insertRefreshTokenRecords (token : Option RefreshToken) : Statements Unit := match token with
  | some token => insertRefreshTokenRecord token
  | none => pure ()

def insertAccessToken (token : AccessTokenRecord) : Statements (End Unit) := do
  insertAccessTokenRecord token
  return .commit ()

def getAccessToken (tokenHash : String) : Statements (End (Option AccessTokenRecord)) := do
  let db ← select
  return .commit ((db .accessTokens).find? fun t => t.tokenHash = tokenHash)

/-- Unlike the other revocations this one overwrites an earlier `revoked_at`. -/
def revokeAccessToken (tokenHash : String) (instant : OffsetDateTime) : Statements (End Unit) := do
  let _ ← update .accessTokens (fun _ t => t.tokenHash = tokenHash)
    (fun t => { t with revokedAt := some instant })
  return .commit ()

def insertAuthorizationCode (code : AuthorizationCode) : Statements (End Unit) := do
  insert .authorizationCodes code
  return .commit ()

def getAuthorizationCode (codeHash : String) : Statements (End (Option AuthorizationCode)) := do
  let db ← select
  return .commit ((db .authorizationCodes).find? fun c => c.codeHash = codeHash)

def consumeAuthorizationCodeAndInsertTokens (codeHash : String) (accessToken : AccessTokenRecord)
    (refreshToken : Option RefreshToken) (instant : OffsetDateTime) : Statements (End Bool) := do
  let consumed ← update .authorizationCodes
    (fun _ c => c.codeHash = codeHash ∧ c.usedAt = none ∧ instant < c.expiresAt)
    (fun c => { c with usedAt := some instant })
  if consumed.length ≠ 1 then
    return .rollback false
  insertAccessTokenRecord accessToken
  insertRefreshTokenRecords refreshToken
  return .commit true

def getRefreshToken (tokenHash : String) : Statements (End (Option RefreshToken)) := do
  let db ← select
  return .commit ((db .refreshTokens).find? fun t => t.tokenHash = tokenHash)

def rotateRefreshTokenAndInsertTokens (tokenHash : String) (accessToken : AccessTokenRecord)
    (refreshToken : Option RefreshToken) (instant : OffsetDateTime) : Statements (End Bool) := do
  let rotated ← update .refreshTokens
    (fun _ t => t.tokenHash = tokenHash ∧ t.rotatedAt = none ∧ t.revokedAt = none ∧
      instant < t.expiresAt)
    (fun t => { t with rotatedAt := some instant })
  if rotated.length ≠ 1 then
    return .rollback false
  insertAccessTokenRecord accessToken
  insertRefreshTokenRecords refreshToken
  return .commit true

/-- `SET revoked_at = COALESCE(revoked_at, $1)` on access tokens. -/
def AccessTokenRecord.revoke (instant : OffsetDateTime) (t : AccessTokenRecord) :
    AccessTokenRecord :=
  { t with revokedAt := t.revokedAt.or (some instant) }

/-- `SET revoked_at = COALESCE(revoked_at, $1)` on refresh tokens. -/
def RefreshToken.revoke (instant : OffsetDateTime) (t : RefreshToken) : RefreshToken :=
  { t with revokedAt := t.revokedAt.or (some instant) }

def revokeRefreshTokenFamilyAndAccessTokens (familyId : Uuid) (instant : OffsetDateTime) :
    Statements (End Unit) := do
  let _ ← update .refreshTokens (fun _ t => t.familyId = familyId) (RefreshToken.revoke instant)
  let _ ← update .accessTokens (fun _ t => t.refreshFamilyId = some familyId)
    (AccessTokenRecord.revoke instant)
  return .commit ()

-- oidc_clients

def createOidcClient (client : OidcClient) : Statements (End Unit) := do
  insert .oidcClients client
  return .commit ()

def getOidcClientByPublicId (clientId : String) : Statements (End (Option OidcClient)) := do
  let db ← select
  return .commit ((db .oidcClients).find? fun c => c.clientId = clientId)

def getOidcClient (id : ClientId) : Statements (End (Option OidcClient)) := do
  let db ← select
  return .commit ((db .oidcClients).find? fun c => c.id = id)

/-- `SET used_at = COALESCE(used_at, $1)` on authorization codes. -/
def AuthorizationCode.use (instant : OffsetDateTime) (c : AuthorizationCode) : AuthorizationCode :=
  { c with usedAt := c.usedAt.or (some instant) }

def invalidatePendingAuthorizationCodes (organizationId : OrganizationId) (clientId : ClientId)
    (instant : OffsetDateTime) : Statements Nat := do
  let codes ← update .authorizationCodes
    (fun _ c => c.organizationId = organizationId ∧ c.clientId = clientId ∧ c.usedAt = none ∧
      instant < c.expiresAt)
    (AuthorizationCode.use instant)
  return codes.length

def revokeActiveTokens (organizationId : OrganizationId) (clientId : ClientId)
    (instant : OffsetDateTime) : Statements (Nat × Nat) := do
  let access ← update .accessTokens
    (fun _ t => t.organizationId = organizationId ∧ t.clientId = clientId ∧ t.revokedAt = none)
    (AccessTokenRecord.revoke instant)
  let refresh ← update .refreshTokens
    (fun _ t => t.organizationId = organizationId ∧ t.clientId = clientId ∧ t.revokedAt = none)
    (RefreshToken.revoke instant)
  return (access.length, refresh.length)

structure ClientRuntimeCredentialMutation where
  authorizationCodesInvalidated : Nat
  accessTokensRevoked : Nat
  refreshTokensRevoked : Nat

def revokeClientRuntimeCredentials (organizationId : OrganizationId) (clientId : ClientId)
    (instant : OffsetDateTime) : Statements ClientRuntimeCredentialMutation := do
  let codes ← invalidatePendingAuthorizationCodes organizationId clientId instant
  let (access, refresh) ← revokeActiveTokens organizationId clientId instant
  return ⟨codes, access, refresh⟩

structure OidcClientStatusMutation where
  client : OidcClient
  credentials : ClientRuntimeCredentialMutation

def updateOidcClientStatus (organizationId : OrganizationId) (clientId : ClientId)
    (status : OidcClientStatus) (instant : OffsetDateTime) :
    Statements (End (Option OidcClientStatusMutation)) := do
  let locked ← lock .oidcClients .update
    (fun _ c => c.organizationId = organizationId ∧ c.id = clientId)
  if locked.isEmpty then
    return .commit none
  let updated ← update .oidcClients (fun _ c => c.organizationId = organizationId ∧ c.id = clientId)
    (fun c => { c with status := status })
  let client ← fetchOne updated
  let credentials ← (if status = .disabled then
      revokeClientRuntimeCredentials organizationId clientId instant
    else pure ⟨0, 0, 0⟩)
  return .commit (some ⟨client, credentials⟩)

structure OidcClientDetailsUpdate where
  name : String
  redirectUris : List RedirectUri
  postLogoutRedirectUris : List RedirectUri
  allowedScopes : List String
  consentPolicyTemplateId : Option Uuid

structure OidcClientDetailsMutation where
  client : OidcClient
  changedFields : List String
  credentials : ClientRuntimeCredentialMutation

/-- Whether two lists have the same members: the comparison of the `BTreeSet`s
    `redirect_uri_set` and `string_set`. -/
def sameSet {α : Type} [DecidableEq α] (xs ys : List α) : Bool :=
  xs.all (ys.contains ·) && ys.all (xs.contains ·)

def changedFields (existing : OidcClient) (details : OidcClientDetailsUpdate) : List String :=
  let field (changed : Bool) (name : String) : List String := if changed then [name] else []
  field (existing.name ≠ details.name) "name" ++
    field (existing.redirectUris ≠ details.redirectUris) "redirect_uris" ++
    field (existing.postLogoutRedirectUris ≠ details.postLogoutRedirectUris)
      "post_logout_redirect_uris" ++
    field (existing.allowedScopes ≠ details.allowedScopes) "allowed_scopes" ++
    field (existing.consentPolicyTemplateId ≠ details.consentPolicyTemplateId)
      "consent_policy_template_id"

def updateOidcClientDetails (organizationId : OrganizationId) (clientId : ClientId)
    (details : OidcClientDetailsUpdate) (instant : OffsetDateTime) :
    Statements (End (Option OidcClientDetailsMutation)) := do
  let locked ← lock .oidcClients .update
    (fun _ c => c.organizationId = organizationId ∧ c.id = clientId)
  let existing :: _ := locked | return .commit none
  let redirectUrisSecurityChanged :=
    !sameSet (existing.redirectUris.map (·.value)) (details.redirectUris.map (·.value))
  let allowedScopesSecurityChanged := !sameSet existing.allowedScopes details.allowedScopes
  let updated ← update .oidcClients (fun _ c => c.organizationId = organizationId ∧ c.id = clientId)
    (fun c => { c with
      name := details.name
      redirectUris := details.redirectUris
      postLogoutRedirectUris := details.postLogoutRedirectUris
      allowedScopes := details.allowedScopes
      consentPolicyTemplateId := details.consentPolicyTemplateId })
  let client ← fetchOne updated
  let codes ← (if redirectUrisSecurityChanged || allowedScopesSecurityChanged then
      invalidatePendingAuthorizationCodes organizationId clientId instant
    else pure 0)
  let tokens ← (if allowedScopesSecurityChanged then
      revokeActiveTokens organizationId clientId instant
    else pure (0, 0))
  return .commit (some ⟨client, changedFields existing details, ⟨codes, tokens.1, tokens.2⟩⟩)

def rotateOidcClientSecret (organizationId : OrganizationId) (clientId : ClientId)
    (clientSecretHash : String) : Statements (End Bool) := do
  let updated ← update .oidcClients
    (fun _ c => c.organizationId = organizationId ∧ c.id = clientId ∧ c.publicClient = false)
    (fun c => { c with clientSecretHash := some clientSecretHash })
  return .commit (updated.length = 1)

def getConsentPolicyTemplate (organizationId : OrganizationId) (id : Uuid) :
    Statements (End (Option ConsentPolicyTemplate)) := do
  let db ← select
  return .commit ((db .consentPolicyTemplates).find? fun t =>
    t.organizationId = organizationId ∧ t.id = id)

-- consent_grants

structure ConsentAuthorizationConsumption where
  organizationId : OrganizationId
  userId : UserId
  sessionId : SessionId
  clientId : ClientId
  authorizationRequestHash : String
  scopes : List String
  instant : OffsetDateTime

def createConsentAuthorization (authorization : ConsentAuthorization) : Statements (End Unit) := do
  insert .consentAuthorizations authorization
  return .commit ()

/-- `ORDER BY created_at DESC, id DESC`. -/
def consentAuthorizationLe (a b : ConsentAuthorization) : Bool :=
  b.createdAt < a.createdAt ∨ b.createdAt = a.createdAt ∧ b.id ≤ a.id

/-- The `SELECT` of `consume_consent_authorization`. -/
def pendingConsentAuthorizations (request : ConsentAuthorizationConsumption) :
    Statements (End (List ConsentAuthorization)) := do
  let db ← select
  let rows := (db .consentAuthorizations).filter fun a =>
    a.organizationId = request.organizationId ∧ a.userId = request.userId ∧
      a.sessionId = request.sessionId ∧ a.clientId = request.clientId ∧
      a.authorizationRequestHash = request.authorizationRequestHash ∧ a.consumedAt = none ∧
      request.instant < a.expiresAt
  return .commit (rows.insertionSort fun a b => consentAuthorizationLe a b)

/-- The `UPDATE` of `consume_consent_authorization`: whether it changed one row. -/
def markConsentAuthorizationConsumed (id : Uuid) (instant : OffsetDateTime) :
    Statements (End Bool) := do
  let updated ← update .consentAuthorizations (fun _ a => a.id = id ∧ a.consumedAt = none)
    (fun a => { a with consumedAt := some instant })
  return .commit (updated.length = 1)

def hasActiveConsentGrant (organizationId : OrganizationId) (userId : UserId) (clientId : ClientId)
    (scopes : List String) : Statements (End Bool) := do
  let db ← select
  return .commit ((db .consentGrants).any fun g =>
    g.organizationId = organizationId ∧ g.userId = userId ∧ g.clientId = clientId ∧
      g.revokedAt = none ∧ scopes.all (g.scopes.contains ·))

def createConsentGrant (grant : ConsentGrant) : Statements (End Unit) := do
  insert .consentGrants grant
  return .commit ()

structure ConsentGrantRevocation where
  grant : ConsentGrant
  consentGrantsRevoked : Nat
  authorizationCodesInvalidated : Nat
  accessTokensRevoked : Nat
  refreshTokensRevoked : Nat

/-- The grant is found joined with its user; the summary's email and display
    name are left out, since nothing else here reads them. -/
def revokeConsentGrantAndTokens (organizationId : OrganizationId) (clientId : Option ClientId)
    (userId : Option UserId) (grantId : Uuid) (instant : OffsetDateTime) :
    Statements (End (Option ConsentGrantRevocation)) := do
  let locked ← lock .consentGrants .update (fun db g =>
    g.organizationId = organizationId ∧ g.id = grantId ∧
      (clientId = none ∨ clientId = some g.clientId) ∧ (userId = none ∨ userId = some g.userId) ∧
      ∃ u ∈ db .users, u.user.id = g.userId ∧ u.user.organizationId = g.organizationId)
  let grant :: _ := locked | return .commit none
  let grants ← update .consentGrants
    (fun _ g => g.organizationId = organizationId ∧ g.userId = grant.userId ∧
      g.clientId = grant.clientId ∧ g.revokedAt = none)
    (fun g => { g with revokedAt := g.revokedAt.or (some instant) })
  let codes ← update .authorizationCodes
    (fun _ c => c.organizationId = organizationId ∧ c.userId = grant.userId ∧
      c.clientId = grant.clientId ∧ c.usedAt = none ∧ instant < c.expiresAt)
    (AuthorizationCode.use instant)
  let access ← update .accessTokens
    (fun _ t => t.organizationId = organizationId ∧ t.userId = some grant.userId ∧
      t.clientId = grant.clientId ∧ t.revokedAt = none)
    (AccessTokenRecord.revoke instant)
  let refresh ← update .refreshTokens
    (fun _ t => t.organizationId = organizationId ∧ t.userId = some grant.userId ∧
      t.clientId = grant.clientId ∧ t.revokedAt = none)
    (RefreshToken.revoke instant)
  return .commit (some
    ⟨{ grant with revokedAt := grant.revokedAt.or (some instant) },
      grants.length, codes.length, access.length, refresh.length⟩)

def revokeUserClientConsentAndTokens (organizationId : OrganizationId) (clientId : ClientId)
    (grantId : Uuid) (instant : OffsetDateTime) : Statements (End (Option ConsentGrantRevocation)) :=
  revokeConsentGrantAndTokens organizationId (some clientId) none grantId instant

def revokeCurrentUserConsentAndTokens (organizationId : OrganizationId) (userId : UserId)
    (grantId : Uuid) (instant : OffsetDateTime) : Statements (End (Option ConsentGrantRevocation)) :=
  revokeConsentGrantAndTokens organizationId none (some userId) grantId instant

end CairnId.Database
