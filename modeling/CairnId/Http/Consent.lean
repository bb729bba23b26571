import CairnId.Http.Authorize
import CairnId.Http.Urlencoded

/-!
# The authorization endpoint from its raw input, and `POST` of a consent

`GET` brings its parameters in the query, `POST` in a form. A consent is given for
the request that the `return_to` URL repeats.
-/

namespace CairnId

open Concurrency App

/-- `OAUTH_QUERY_MAX_BYTES`. -/
def oauthQueryMaxBytes : Nat := 8 * 1024

/-- `OAUTH_FORM_BODY_MAX_BYTES`. -/
def oauthFormBodyMaxBytes : Nat := 16 * 1024

def authorizationQueryPairs (rawQuery : Option String) :
    Except ApiError (List (String × String)) :=
  let query := rawQuery.getD ""
  if oauthQueryMaxBytes < query.utf8ByteSize then
    .error (.badRequest "authorization request too large")
  else match parseUrlEncodedPairs query with
    | some pairs => .ok pairs
    | none => .error (.badRequest "invalid authorization request")

def authorizationFormPairs (contentType : Option String) (body : Bytes) :
    Except ApiError (List (String × String)) :=
  if !requestHasUrlencodedContentType contentType then
    .error (.badRequest "content type must be application/x-www-form-urlencoded")
  else if oauthFormBodyMaxBytes < body.length then
    .error (.badRequest "authorization request too large")
  else match (String.fromUTF8? ⟨body.toArray⟩).bind parseUrlEncodedPairs with
    | some pairs => .ok pairs
    | none => .error (.badRequest "invalid authorization request")

/-- What the endpoint reads of a request besides the headers. -/
inductive AuthorizeInput where
  | get (rawQuery : Option String)
  | post (contentType : Option String) (body : Bytes)

def AuthorizeInput.pairs : AuthorizeInput → Except ApiError (List (String × String))
  | .get rawQuery => authorizationQueryPairs rawQuery
  | .post contentType body => authorizationFormPairs contentType body

variable (P : Primitives) (state : AppState)

def authorize (headers : RequestHeaders) (input : AuthorizeInput) : App RedirectResponse := do
  let queryPairs ← Prog.ofExcept input.pairs
  authorizeWithPairs P state headers queryPairs

-- consent

def sameScopeSet (left right : List String) : Bool :=
  left.length = right.length && left.all (right.contains ·)

def invalidConsentReturnTo {α : Type} : Except ApiError α :=
  .error (.badRequest "invalid consent return_to")

/-- The hash of the request that `return_to` repeats. -/
def validateConsentReturnTo (issuer returnTo : String) (client : OidcClient)
    (scopes : List String) : Except ApiError String := do
  let some parsedReturnTo := P.parseUrl returnTo | invalidConsentReturnTo
  let some issuerUrl := P.parseUrl issuer | throw (.status 500 "invalid issuer")
  if parsedReturnTo.origin ≠ issuerUrl.origin ∨ parsedReturnTo.path ≠ "/oauth2/authorize" ∨
      !parsedReturnTo.username.isEmpty ∨ parsedReturnTo.password.isSome ∨
      parsedReturnTo.fragment.isSome then
    invalidConsentReturnTo
  let queryPairs ← authorizationQueryPairs parsedReturnTo.query
  if (duplicateAuthorizationRequestParameter queryPairs).isSome then invalidConsentReturnTo
  let (request, parseError) := authorizationRequestFromQueryPairs queryPairs
  if parseError.isSome then invalidConsentReturnTo
  let .ok validated := request.validate P client | invalidConsentReturnTo
  if validated.prompt.isNone || validated.prompt.requiresConsent then invalidConsentReturnTo
  if !sameScopeSet validated.scopes scopes then throw (.badRequest "invalid consent scope")
  return authorizationRequestHash P issuer request

def consentScopesAllowed (scopes : List String) (client : OidcClient) : Bool :=
  scopes.all (client.allowedScopes.contains ·) &&
    (!scopes.contains "offline_access" || client.allowsGrant .refreshToken)

structure CreateConsentRequest where
  clientId : String
  returnTo : String
  scopes : List String

/-- `CONSENT_AUTHORIZATION_TTL`. -/
def consentAuthorizationTtl : Duration := .minutes 5

def newConsentGrant (session : AuthSession) (client : OidcClient) (scopes : List String) (id : Uuid)
    (now : OffsetDateTime) : ConsentGrant :=
  ⟨id, session.organizationId, session.userId, client.id, scopes, now, none⟩

def newConsentAuthorization (session : AuthSession) (client : OidcClient)
    (authorizationRequestHash : String) (scopes : List String) (id : Uuid) (now : OffsetDateTime) :
    ConsentAuthorization where
  id := id
  organizationId := session.organizationId
  userId := session.userId
  sessionId := session.id
  clientId := client.id
  authorizationRequestHash := authorizationRequestHash
  scopes := scopes
  createdAt := now
  expiresAt := now + consentAuthorizationTtl
  consumedAt := none

def createConsent (headers : RequestHeaders) (payload : CreateConsentRequest) :
    App ConsentGrant := do
  let session ← requireSession P state headers
  requireCsrf headers
  let some client ← db (.getOidcClientByPublicId payload.clientId)
    | throw (.badRequest "unknown client")
  requireClientInSessionOrganization client session
  Prog.failIf (!oidcClientIsActive client) (.badRequest "client disabled")
  Prog.failIf (!consentScopesAllowed payload.scopes client) (.badRequest "invalid consent scope")
  let hash ← Prog.ofExcept
    (validateConsentReturnTo P state.config.issuer payload.returnTo client payload.scopes)
  let now ← nowUtc
  let grantId ← newV4
  let grant := newConsentGrant session client payload.scopes grantId now
  db (.createConsentGrant grant)
  let authorizationId ← newV4
  db (.createConsentAuthorization
    (newConsentAuthorization session client hash payload.scopes authorizationId now))
  insertAuditEvent ((AuditEventBuilder.user state.organizationId session.userId
    "oauth.consent_granted" (Uuid.hyphenated client.id)).withMetadata
    (.object [("client_id", .string client.clientId),
      ("scopes", .array (payload.scopes.map .string))]))
  return grant

end CairnId
