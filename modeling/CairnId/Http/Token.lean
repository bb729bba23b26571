import CairnId.Http.Request
import CairnId.Http.Signing

/-!
# The token endpoint

The handlers behind `POST /oauth2/token` and `POST /oauth2/revoke`, from the
point where the form and the client authentication have been parsed.
-/

namespace CairnId

open Concurrency App

structure TokenRequest where
  grantType : String
  code : Option String
  redirectUri : Option String
  clientId : Option String
  clientSecret : Option String
  codeVerifier : Option String
  refreshToken : Option String
  scope : Option String
  deriving DecidableEq

structure TokenResponse where
  accessToken : String
  tokenType : String
  expiresIn : Int
  refreshToken : Option String
  idToken : Option String
  scope : Option String
  deriving DecidableEq

structure OAuthClientAuth where
  clientId : Option String
  clientSecret : Option String
  deriving DecidableEq

def requiredOauthFormParameter (value : Option String) (parameter : String) : App String :=
  match value.filter fun v => !isBlank v with
  | some v => return v
  | none => oauthError 400 (.invalidRequest ("missing " ++ parameter))

def requiredRefreshToken (refreshToken : Option String) : App String :=
  requiredOauthFormParameter refreshToken "refresh_token"

def requiredAuthorizationCodeVerifier (codeVerifier : Option String) : App String :=
  requiredOauthFormParameter codeVerifier "code_verifier"

def validateAuthorizationCodeRedirectUri (requestRedirectUri : Option String)
    (storedRedirectUri : String) : App Unit := do
  let redirectUri ← requiredOauthFormParameter requestRedirectUri "redirect_uri"
  refuseIf (redirectUri ≠ storedRedirectUri) 400 (.invalidGrant "redirect_uri mismatch")

def requireStoredTokenOrganization (tokenOrganizationId organizationId : OrganizationId) :
    App Unit :=
  refuseIf (tokenOrganizationId ≠ organizationId) 400
    (.invalidGrant "token does not belong to this issuer")

def requireClientBoundToStoredGrant (client : OidcClient) (organizationId : OrganizationId)
    (clientId : ClientId) : App Unit :=
  refuseIf (client.organizationId ≠ organizationId ∨ client.id ≠ clientId) 400
    (.invalidGrant "client does not match token grant")

def requireOauthClientOrganization (client : OidcClient) (organizationId : OrganizationId) :
    App Unit :=
  refuseIf (client.organizationId ≠ organizationId) 401 .invalidClient

def oidcClientIsActive (client : OidcClient) : Bool := client.status = .active

def requireOauthClientActive (client : OidcClient) : App Unit :=
  refuseIf (!oidcClientIsActive client) 401 .invalidClient

def OidcGrantType.asProtocolValue : OidcGrantType → String
  | .authorizationCode => "authorization_code"
  | .refreshToken => "refresh_token"
  | .clientCredentials => "client_credentials"

def requireTokenEndpointGrant (client : OidcClient) (grantType : OidcGrantType) : App Unit :=
  refuseIf (!client.allowsGrant grantType) 400
    (.unauthorizedClient ("client is not authorized to use " ++ grantType.asProtocolValue))

def requireConfidentialClientCredentialsClient (client : OidcClient) : App Unit :=
  refuseIf (client.publicClient ∨ client.clientSecretHash.isNone) 401 .invalidClient

def shouldIssueRefreshToken (scopes : List String) (client : OidcClient) : Bool :=
  client.allowsGrant .refreshToken && scopes.contains "offline_access"

def tokenResponseScope (scopes : List String) : Option String :=
  if scopes.isEmpty then none else some (" ".intercalate scopes)

def tokenRequestScopes (scope : Option String) : App (Option (List String)) := match scope with
  | none => return none
  | some scope => match parseScopes scope with
    | some scopes => return some scopes
    | none => oauthError 400 (.invalidScope "invalid scope")

def refreshTokenGrantedScopes (requestedScope : Option String) (originalScopes : List String) :
    App (List String) := do
  match ← tokenRequestScopes requestedScope with
  | none => return originalScopes
  | some requestedScopes =>
    if requestedScopes.any fun scope => !originalScopes.contains scope then
      oauthError 400 (.invalidScope "requested scope exceeds original grant")
    else return requestedScopes

variable (P : Primitives) (state : AppState)

def clientAuthenticates (client : OidcClient) (auth : OAuthClientAuth) : Bool :=
  auth.clientId = some client.clientId &&
    if client.publicClient then auth.clientSecret.isNone
    else match client.clientSecretHash, auth.clientSecret with
      | some expectedHash, some secret => verifyTokenHash P secret expectedHash
      | _, _ => false

def authenticateOauthClient (client : OidcClient) (auth : OAuthClientAuth) : App Unit :=
  refuseIf (!clientAuthenticates P client auth) 401 .invalidClient

def authenticatedClientFromRequest (auth : OAuthClientAuth) : App OidcClient := do
  let some clientId := auth.clientId | oauthError 401 .invalidClient
  let some client ← db (.getOidcClientByPublicId clientId) | oauthError 401 .invalidClient
  requireOauthClientOrganization client state.organizationId
  requireOauthClientActive client
  authenticateOauthClient P client auth
  return client

def tokenSubjectIsActive (organizationId : OrganizationId) (userId : Option UserId) :
    App Bool := do
  let some userId := userId | return true
  let some user ← db (.getUser userId) | return false
  return userAllowsRuntimeAccess user organizationId

def groupsClaimForUser (organizationId : OrganizationId) (userId : UserId)
    (scopes : List String) : App (Option (List String)) := do
  if scopes.contains "groups" then
    return some (← db (.listUserGroupSlugs organizationId userId))
  else return none

/-- The refresh token issued for a code, under a family of its own. -/
def codeRefreshRecord (stored : AuthorizationCode) (refresh : GeneratedSecret) (familyId : Uuid)
    (now : OffsetDateTime) : RefreshToken where
  id := refresh.id
  tokenHash := refresh.hash
  familyId := familyId
  organizationId := stored.organizationId
  userId := some stored.userId
  clientId := stored.clientId
  scopes := stored.scopes
  createdAt := now
  expiresAt := now + Duration.days 30
  rotatedAt := none
  revokedAt := none

def codeAccessRecord (stored : AuthorizationCode) (tokenHash : String) (familyId : Option Uuid)
    (now : OffsetDateTime) : AccessTokenRecord where
  tokenHash := tokenHash
  organizationId := stored.organizationId
  userId := some stored.userId
  clientId := stored.clientId
  scopes := stored.scopes
  refreshFamilyId := familyId
  createdAt := now
  expiresAt := now + Duration.minutes 15
  revokedAt := none

def authorizationCodeToken (request : TokenRequest) (auth : OAuthClientAuth) :
    App TokenResponse := do
  let code ← requiredOauthFormParameter request.code "code"
  let codeHash := hashToken P code
  let some stored ← db (.getAuthorizationCode codeHash)
    | oauthError 400 (.invalidGrant "unknown code")
  let now ← nowUtc
  refuseIf (stored.usedAt.isSome ∨ stored.expiresAt ≤ now) 400
    (.invalidGrant "code expired or already used")
  validateAuthorizationCodeRedirectUri request.redirectUri stored.redirectUri
  let client ← authenticatedClientFromRequest P state auth
  requireClientBoundToStoredGrant client stored.organizationId stored.clientId
  requireTokenEndpointGrant client .authorizationCode
  let verifier ← requiredAuthorizationCodeVerifier request.codeVerifier
  refuseIf (!verifyPkce P verifier stored.codeChallenge stored.codeChallengeMethod) 400
    (.invalidGrant "PKCE verification failed")
  let some user ← db (.getUser stored.userId) | oauthError 400 (.invalidGrant "user missing")
  refuseIf (!userAllowsRuntimeAccess user stored.organizationId) 400
    (.invalidGrant "session expired or revoked")
  let some authSession ← db (.getAuthSession stored.sessionId)
    | oauthError 400 (.invalidGrant "session missing")
  refuseIf (authSession.organizationId ≠ stored.organizationId ∨
      authSession.userId ≠ stored.userId ∨ authSession.revokedAt.isSome ∨
      authSession.expiresAt ≤ now) 400
    (.invalidGrant "session expired or revoked")
  let groups ← groupsClaimForUser stored.organizationId stored.userId stored.scopes
  let signing ← resolveSigningMaterial P state
  -- the ID token reads the clock for itself
  let issuedAt ← nowUtc
  let some idToken := issueIdToken P
      { issuer := state.config.issuer, client := client, user := user, scopes := stored.scopes,
        nonce := stored.nonce, authTime := some authSession.createdAt, amr := authSession.amr,
        acr := authSession.acr, groups := groups, signing := signing } issuedAt
    | oauthError 500 (.invalidRequest "token signing failed")
  let refresh ← (if shouldIssueRefreshToken stored.scopes client then do
      let refresh ← generateHashedSecret P 32
      let familyId ← newV4
      pure (some (refresh, codeRefreshRecord stored refresh familyId now))
    else pure none)
  let access ← generateHashedSecret P 32
  let accessRecord := codeAccessRecord stored access.hash (refresh.map (·.2.familyId)) now
  let consumed ← db (.consumeAuthorizationCodeAndInsertTokens codeHash accessRecord
    (refresh.map (·.2)) now)
  refuseIf (!consumed) 400 (.invalidGrant "code expired or already used")
  return ⟨access.value, "Bearer", 900, refresh.map (·.1.value), some idToken,
    tokenResponseScope stored.scopes⟩

/-- The successor of a refresh token, in its family. -/
def nextRefreshRecord (stored : RefreshToken) (refresh : GeneratedSecret) (scopes : List String)
    (now : OffsetDateTime) : RefreshToken where
  id := refresh.id
  tokenHash := refresh.hash
  familyId := stored.familyId
  organizationId := stored.organizationId
  userId := stored.userId
  clientId := stored.clientId
  scopes := scopes
  createdAt := now
  expiresAt := now + Duration.days 30
  rotatedAt := none
  revokedAt := none

def nextAccessRecord (stored : RefreshToken) (tokenHash : String) (scopes : List String)
    (now : OffsetDateTime) : AccessTokenRecord where
  tokenHash := tokenHash
  organizationId := stored.organizationId
  userId := stored.userId
  clientId := stored.clientId
  scopes := scopes
  refreshFamilyId := some stored.familyId
  createdAt := now
  expiresAt := now + Duration.minutes 15
  revokedAt := none

def refreshToken (request : TokenRequest) (auth : OAuthClientAuth) : App TokenResponse := do
  let rawRefresh ← requiredRefreshToken request.refreshToken
  let refreshHash := hashToken P rawRefresh
  let some stored ← db (.getRefreshToken refreshHash)
    | oauthError 400 (.invalidGrant "unknown refresh token")
  let now ← nowUtc
  requireStoredTokenOrganization stored.organizationId state.organizationId
  Prog.when stored.rotatedAt.isSome do
    db (.revokeRefreshTokenFamilyAndAccessTokens stored.familyId now)
    oauthError 400 (.invalidGrant "refresh token reuse detected")
  refuseIf (stored.revokedAt.isSome ∨ stored.expiresAt ≤ now) 400
    (.invalidGrant "refresh token expired or revoked")
  refuseIf (!(← tokenSubjectIsActive stored.organizationId stored.userId)) 400
    (.invalidGrant "refresh token expired or revoked")
  let some client ← db (.getOidcClient stored.clientId)
    | oauthError 400 (.invalidGrant "client missing")
  requireOauthClientActive client
  authenticateOauthClient P client auth
  requireTokenEndpointGrant client .refreshToken
  let grantedScopes ← refreshTokenGrantedScopes request.scope stored.scopes
  let access ← generateHashedSecret P 32
  let refresh ← (if shouldIssueRefreshToken grantedScopes client then do
      let refresh ← generateHashedSecret P 32
      pure (some (refresh, nextRefreshRecord stored refresh grantedScopes now))
    else pure none)
  let accessRecord := nextAccessRecord stored access.hash grantedScopes now
  let rotated ← db (.rotateRefreshTokenAndInsertTokens refreshHash accessRecord
    (refresh.map (·.2)) now)
  Prog.when (!rotated) do
    db (.revokeRefreshTokenFamilyAndAccessTokens stored.familyId now)
    oauthError 400 (.invalidGrant "refresh token reuse detected")
  return ⟨access.value, "Bearer", 900, refresh.map (·.1.value), none,
    tokenResponseScope grantedScopes⟩

def clientCredentialsToken (request : TokenRequest) (auth : OAuthClientAuth) :
    App TokenResponse := do
  let client ← authenticatedClientFromRequest P state auth
  requireConfidentialClientCredentialsClient client
  requireTokenEndpointGrant client .clientCredentials
  let requestedScopes := (← tokenRequestScopes request.scope).getD []
  refuseIf (requestedScopes.any fun scope => !client.allowedScopes.contains scope) 400
    (.invalidScope "invalid scope")
  let now ← nowUtc
  let access ← generateHashedSecret P 32
  db (.insertAccessToken
    { tokenHash := access.hash, organizationId := client.organizationId, userId := none,
      clientId := client.id, scopes := requestedScopes, refreshFamilyId := none,
      createdAt := now, expiresAt := now + Duration.minutes 15, revokedAt := none })
  return ⟨access.value, "Bearer", 900, none, none, tokenResponseScope requestedScopes⟩

inductive TokenTypeHint where
  | accessToken
  | refreshToken
  deriving DecidableEq

def tokenTypeHintLookupOrder (hint : Option String) : List TokenTypeHint :=
  if hint = some "refresh_token" then [.refreshToken, .accessToken]
  else [.accessToken, .refreshToken]

structure RevocationRequest where
  token : String
  tokenTypeHint : Option String

def revokeAccessTokenForClient (client : OidcClient) (tokenHash : String) (now : OffsetDateTime) :
    App Bool := do
  let some access ← db (.getAccessToken tokenHash) | return false
  if access.organizationId = client.organizationId && access.clientId = client.id then
    db (.revokeAccessToken tokenHash now)
    return true
  else return false

def revokeRefreshTokenForClient (client : OidcClient) (tokenHash : String)
    (now : OffsetDateTime) : App Bool := do
  let some refresh ← db (.getRefreshToken tokenHash) | return false
  if refresh.organizationId = client.organizationId && refresh.clientId = client.id then
    db (.revokeRefreshTokenFamilyAndAccessTokens refresh.familyId now)
    return true
  else return false

def revokeTokenForClient (client : OidcClient) (tokenHash : String) (now : OffsetDateTime) :
    List TokenTypeHint → App Unit
  | [] => return ()
  | hint :: hints => do
    let revoked ← (match hint with
      | .accessToken => revokeAccessTokenForClient client tokenHash now
      | .refreshToken => revokeRefreshTokenForClient client tokenHash now)
    if revoked then return () else revokeTokenForClient client tokenHash now hints

def revoke (request : RevocationRequest) (auth : OAuthClientAuth) : App Unit := do
  let token ← requiredOauthFormParameter (some request.token) "token"
  let client ← authenticatedClientFromRequest P state auth
  let now ← nowUtc
  revokeTokenForClient client (hashToken P token) now
    (tokenTypeHintLookupOrder request.tokenTypeHint)

end CairnId
