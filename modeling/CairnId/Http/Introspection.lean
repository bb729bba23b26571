import CairnId.Http.Token
import CairnId.Http.Urlencoded

/-!
# Introspection and UserInfo

The handlers behind `POST /oauth2/introspect` and `/oauth2/userinfo`, from the point
where the form and the client authentication have been parsed.
-/

namespace CairnId

open Concurrency App

structure IntrospectionRequest where
  token : String
  tokenTypeHint : Option String

-- oauth_token/introspection

def accessTokenActiveForClient (token : AccessTokenRecord) (client : OidcClient)
    (now : OffsetDateTime) : Bool :=
  token.organizationId = client.organizationId && token.clientId = client.id &&
    token.revokedAt.isNone && now < token.expiresAt

def refreshTokenActiveForClient (token : RefreshToken) (client : OidcClient)
    (now : OffsetDateTime) : Bool :=
  token.organizationId = client.organizationId && token.clientId = client.id &&
    token.rotatedAt.isNone && token.revokedAt.isNone && now < token.expiresAt

def inactiveIntrospectionResponse : Json := .object [("active", .bool false)]

def activeIntrospectionResponse (issuer : String) (client : OidcClient) (scopes : List String)
    (userId : Option UserId) (tokenType : Option String) (createdAt expiresAt : OffsetDateTime) :
    Json :=
  .object ([("active", .bool true), ("client_id", .string client.clientId),
      ("iss", .string (trimEndMatches '/' issuer)),
      ("iat", .number (OffsetDateTime.unixTimestamp createdAt)),
      ("exp", .number (OffsetDateTime.unixTimestamp expiresAt))] ++
    (if scopes.isEmpty then [] else [("scope", .string (" ".intercalate scopes))]) ++
    (userId.map fun userId => ("sub", Json.string (Uuid.hyphenated userId))).toList ++
    (tokenType.map fun tokenType => ("token_type", Json.string tokenType)).toList)

/-- Whether an introspection response says that the token is active. -/
def saysActive (response : Json) : Prop := response.get? "active" = some (.bool true)

-- token_status

variable (P : Primitives) (state : AppState)

def introspectAccessToken (client : OidcClient) (tokenHash : String) (now : OffsetDateTime) :
    App (Option Json) := do
  let some token ← db (.getAccessToken tokenHash) | return none
  if !accessTokenActiveForClient token client now then
    return some inactiveIntrospectionResponse
  else if !(← tokenSubjectIsActive token.organizationId token.userId) then
    return some inactiveIntrospectionResponse
  else return some (activeIntrospectionResponse state.config.issuer client token.scopes token.userId
    (some "Bearer") token.createdAt token.expiresAt)

def introspectRefreshToken (client : OidcClient) (tokenHash : String) (now : OffsetDateTime) :
    App (Option Json) := do
  let some token ← db (.getRefreshToken tokenHash) | return none
  if !refreshTokenActiveForClient token client now then
    return some inactiveIntrospectionResponse
  else if !(← tokenSubjectIsActive token.organizationId token.userId) then
    return some inactiveIntrospectionResponse
  else return some (activeIntrospectionResponse state.config.issuer client token.scopes token.userId
    none token.createdAt token.expiresAt)

def introspectionResponseForToken (client : OidcClient) (tokenHash : String)
    (now : OffsetDateTime) : List TokenTypeHint → App Json
  | [] => return inactiveIntrospectionResponse
  | hint :: hints => do
    let response ← (match hint with
      | .accessToken => introspectAccessToken state client tokenHash now
      | .refreshToken => introspectRefreshToken state client tokenHash now)
    match response with
    | some response => return response
    | none => introspectionResponseForToken client tokenHash now hints

def introspect (request : IntrospectionRequest) (auth : OAuthClientAuth) : App Json := do
  let token ← requiredOauthFormParameter (some request.token) "token"
  let client ← authenticatedClientFromRequest P state auth
  let now ← nowUtc
  introspectionResponseForToken state client (hashToken P token) now
    (tokenTypeHintLookupOrder request.tokenTypeHint)

-- oauth_http/bearer

inductive BearerTokenError where
  | missing
  | unsupportedScheme
  | multipleMethods
  | invalidRequest
  deriving DecidableEq

def isBearerTokenValue (token : String) : Bool :=
  !token.isEmpty && token.toList.all fun c =>
    isAsciiAlphanumeric c || ['-', '.', '_', '~', '+', '/', '='].contains c

/-- `HeaderValue::to_str`: visible ASCII, blanks and tabs. -/
def isVisibleAscii (value : String) : Bool :=
  value.toList.all fun c => (32 ≤ c.toNat && c.toNat < 127) || c = '\t'

/-- `char::is_ascii_whitespace`. -/
def isAsciiWhitespace (c : Char) : Bool :=
  [0x20, 0x9, 0xA, 0xC, 0xD].contains c.toNat

/-- `str::split_ascii_whitespace`. -/
def splitAsciiWhitespace (value : String) : List String :=
  ((value.toList.splitOnP isAsciiWhitespace).filter fun word => !word.isEmpty).map String.ofList

/-- The token in the `Authorization` headers. -/
def bearerToken (authorizationHeaders : List String) : Except BearerTokenError String :=
  match authorizationHeaders with
  | [] => .error .missing
  | [rawHeader] =>
    if !isVisibleAscii rawHeader then .error .invalidRequest
    else match splitAsciiWhitespace rawHeader with
      | [] => .error .missing
      | scheme :: parts =>
        if !eqIgnoreAsciiCase scheme "Bearer" then .error .unsupportedScheme
        else match parts with
          | [token] => if isBearerTokenValue token then .ok token else .error .invalidRequest
          | _ => .error .invalidRequest
  | _ :: _ :: _ => .error .invalidRequest

def queryContainsBearerToken (rawQuery : Option String) : Except BearerTokenError Bool :=
  match rawQuery with
  | none => .ok false
  | some query =>
    -- `OAUTH_QUERY_MAX_BYTES`
    if 8 * 1024 < query.utf8ByteSize then .error .invalidRequest
    else match parseUrlEncodedPairs query with
      | none => .error .invalidRequest
      | some pairs => .ok (pairs.any fun pair => pair.1 = "access_token")

def bearerTokenFromSources (authorizationHeaders : List String) (formAccessToken : Option String)
    (rawQuery : Option String) : Except BearerTokenError String := do
  if ← queryContainsBearerToken rawQuery then throw .invalidRequest
  match bearerToken authorizationHeaders, formAccessToken.filter fun token => !token.isEmpty with
  | .ok _, some _ => throw .multipleMethods
  | .ok token, none => return token
  | .error .missing, some token =>
    if isBearerTokenValue token then return token else throw .invalidRequest
  | .error error, _ => throw error

-- userinfo

/-- The response of UserInfo: the claims, or a `WWW-Authenticate` challenge. -/
inductive UserinfoResponse where
  | ok (claims : Json)
  | challenge (code : Nat) (error errorDescription scope : Option String)

def bearerTokenErrorResponse : BearerTokenError → UserinfoResponse
  | .missing | .unsupportedScheme => .challenge 401 none none none
  | .multipleMethods =>
    .challenge 400 (some "invalid_request") (some "multiple bearer token transport methods") none
  | .invalidRequest =>
    .challenge 400 (some "invalid_request") (some "invalid bearer token request") none

def invalidBearerToken (description : String) : UserinfoResponse :=
  .challenge 401 (some "invalid_token") (some description) none

def insufficientScope (description : String) : UserinfoResponse :=
  .challenge 403 (some "insufficient_scope") (some description) (some "openid")

def userinfo (user : User) (scopes : List String) (groups : Option (List String)) : Json :=
  .object ([("sub", .string (Uuid.hyphenated user.id))] ++
    (if "email" ∈ scopes then
      [("email", .string user.email), ("email_verified", .bool user.emailVerified)] else []) ++
    (if "profile" ∈ scopes then [("name", .string user.displayName)] else []) ++
    (groups.map fun groups => ("groups", Json.array (groups.map .string))).toList)

/-- The part of the handler that looks at the token. -/
def userinfoForToken (access : AccessTokenRecord) : App UserinfoResponse := do
  if access.organizationId ≠ state.organizationId then
    return invalidBearerToken "invalid bearer token"
  else if access.revokedAt.isSome then return invalidBearerToken "expired or revoked bearer token"
  else
    let now ← nowUtc
    if access.expiresAt ≤ now then return invalidBearerToken "expired or revoked bearer token"
    else
      let some client ← db (.getOidcClient access.clientId)
        | return invalidBearerToken "invalid bearer token"
      if client.organizationId ≠ access.organizationId ∨ !oidcClientIsActive client then
        return invalidBearerToken "invalid bearer token"
      else
        let some userId := access.userId
          | return insufficientScope "userinfo requires a user access token"
        if !access.scopes.contains "openid" then
          return insufficientScope "userinfo requires openid scope"
        else
          let some user ← db (.getUser userId) | throw (.status 500 "user token is inconsistent")
          if !userAllowsRuntimeAccess user access.organizationId then
            return invalidBearerToken "invalid bearer token"
          else
            let groups ← groupsClaimForUser access.organizationId user.id access.scopes
            return .ok (userinfo user access.scopes groups)

/-- What a UserInfo request brings along. -/
structure UserinfoRequest where
  authorizationHeaders : List String
  formAccessToken : Option String
  rawQuery : Option String

def UserinfoRequest.token (request : UserinfoRequest) : Except BearerTokenError String :=
  bearerTokenFromSources request.authorizationHeaders request.formAccessToken request.rawQuery

def userinfoResponseForBearerToken (request : UserinfoRequest) : App UserinfoResponse := do
  match request.token with
  | .error error => return bearerTokenErrorResponse error
  | .ok token =>
    let some access ← db (.getAccessToken (hashToken P token))
      | return invalidBearerToken "invalid bearer token"
    userinfoForToken state access

end CairnId
