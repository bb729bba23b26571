import Mathlib.Algebra.Group.Int.Defs
import CairnId.Authorization
import CairnId.Http.Token

/-!
# The authorization endpoint

`GET` and `POST /oauth2/authorize` from the point where the parameters have been
decoded, the URL that leads back to it, and `POST` of a consent.
-/

namespace CairnId

open Concurrency App Database

-- authorization/request

/-- The names that `authorization_request_parameter_name` knows. -/
def authorizationRequestParameters : List String :=
  ["response_type", "client_id", "redirect_uri", "scope", "state", "nonce", "max_age",
    "response_mode", "prompt", "display", "acr_values", "ui_locales", "claims_locales",
    "login_hint", "claims", "request", "request_uri", "code_challenge", "code_challenge_method"]

/-- The first name that occurs again after those in `seen`. -/
def firstDuplicate (seen : List String) : List (String × String) → Option String
  | [] => none
  | (name, _) :: pairs =>
    if name ∉ authorizationRequestParameters then firstDuplicate seen pairs
    else if seen.contains name then some name
    else firstDuplicate (seen ++ [name]) pairs

def duplicateAuthorizationRequestParameter (pairs : List (String × String)) : Option String :=
  firstDuplicate [] pairs

/-- The digits of a number, most significant first. -/
def parseDigits (value : Nat) : List Char → Option Nat
  | [] => some value
  | c :: cs => if c.isDigit then parseDigits (value * 10 + (c.toNat - '0'.toNat)) cs else none

/-- `str::parse::<i64>`. -/
def parseI64 (value : String) : Option Int :=
  let (negative, digits) := match value.toList with
    | '-' :: digits => (true, digits)
    | '+' :: digits => (false, digits)
    | digits => (false, digits)
  if digits.isEmpty then none
  else (parseDigits 0 digits).bind fun n =>
    let n : Int := if negative then -n else n
    if -2 ^ 63 ≤ n ∧ n < 2 ^ 63 then some n else none

/-- One parameter of the request; of a `max_age` that is no number the first is
    remembered. -/
def AuthorizationRequest.assign (r : AuthorizationRequest × Option AuthorizationError)
    (pair : String × String) : AuthorizationRequest × Option AuthorizationError :=
  let (request, parseError) := r
  let value := pair.2
  match pair.1 with
  | "response_type" => ({ request with responseType := value }, parseError)
  | "client_id" => ({ request with clientId := value }, parseError)
  | "redirect_uri" => ({ request with redirectUri := value }, parseError)
  | "scope" => ({ request with scope := value }, parseError)
  | "state" => ({ request with state := some value }, parseError)
  | "nonce" => ({ request with nonce := some value }, parseError)
  | "max_age" => match parseI64 value with
    | some maxAge => ({ request with maxAge := some maxAge }, parseError)
    | none => (request, parseError.or (some .invalidMaxAge))
  | "response_mode" => ({ request with responseMode := some value }, parseError)
  | "prompt" => ({ request with prompt := some value }, parseError)
  | "display" => ({ request with display := some value }, parseError)
  | "acr_values" => ({ request with acrValues := some value }, parseError)
  | "ui_locales" => ({ request with uiLocales := some value }, parseError)
  | "claims_locales" => ({ request with claimsLocales := some value }, parseError)
  | "login_hint" => ({ request with loginHint := some value }, parseError)
  | "claims" => ({ request with claims := some value }, parseError)
  | "request" => ({ request with request := some value }, parseError)
  | "request_uri" => ({ request with requestUri := some value }, parseError)
  | "code_challenge" => ({ request with codeChallenge := some value }, parseError)
  | "code_challenge_method" => ({ request with codeChallengeMethod := some value }, parseError)
  | _ => (request, parseError)

def AuthorizationRequest.blank : AuthorizationRequest :=
  ⟨"", "", "", "", none, none, none, none, none, none, none, none, none, none, none, none, none,
    none, none⟩

def authorizationRequestFromQueryPairs (pairs : List (String × String)) :
    AuthorizationRequest × Option AuthorizationError :=
  pairs.foldl AuthorizationRequest.assign (.blank, none)

-- authorization/redirect

inductive AuthorizeUrlPromptMode where
  | preserve
  | removeLogin
  | removeConsent
  deriving DecidableEq

/-- The prompt value that a mode leaves out. -/
def AuthorizeUrlPromptMode.removed : AuthorizeUrlPromptMode → Option String
  | .preserve => none
  | .removeLogin => some "login"
  | .removeConsent => some "consent"

def authorizeUrlPrompt (prompt : Option String) (promptMode : AuthorizeUrlPromptMode) :
    Option String := do
  let prompt ← trimmedNonempty prompt
  match promptMode.removed with
  | none => return prompt
  | some removed =>
    let values := (splitWhitespace prompt).filter (· ≠ removed)
    if values.isEmpty then none else some (" ".intercalate values)

/-- The parameters of the URL that leads back to a request. -/
def authorizeUrlParameters (request : AuthorizationRequest) (promptMode : AuthorizeUrlPromptMode) :
    List (String × String) :=
  let optional (name : String) (value : Option String) : List (String × String) :=
    (value.map fun value => (name, value)).toList
  [("response_type", request.responseType), ("client_id", request.clientId),
    ("redirect_uri", request.redirectUri), ("scope", request.scope)] ++
    optional "state" request.state ++ optional "nonce" request.nonce ++
    optional "display" request.display ++ optional "acr_values" request.acrValues ++
    optional "ui_locales" request.uiLocales ++ optional "claims_locales" request.claimsLocales ++
    optional "max_age" (request.maxAge.map toString) ++
    optional "response_mode" request.responseMode ++
    optional "prompt" (authorizeUrlPrompt request.prompt promptMode) ++
    optional "login_hint" request.loginHint ++ optional "claims" request.claims ++
    optional "code_challenge" request.codeChallenge ++
    optional "code_challenge_method" request.codeChallengeMethod

def authorizeUrlQuery (request : AuthorizationRequest) (promptMode : AuthorizeUrlPromptMode) :
    String :=
  "&".intercalate ((authorizeUrlParameters request promptMode).map fun p =>
    percentEncodeMinimal p.1 ++ "=" ++ percentEncodeMinimal p.2)

def currentAuthorizeUrl (issuer : String) (request : AuthorizationRequest)
    (promptMode : AuthorizeUrlPromptMode) : String :=
  trimEndMatches '/' issuer ++ "/oauth2/authorize?" ++ authorizeUrlQuery request promptMode

def authorizationErrorParts : AuthorizationError → String × String
  | .missingResponseType => ("invalid_request", "missing response_type")
  | .unsupportedResponseType => ("unsupported_response_type", "unsupported response type")
  | .unsupportedGrantType =>
    ("unauthorized_client", "client is not allowed to use authorization code flow")
  | .invalidScope => ("invalid_scope", "invalid scope")
  | .invalidMaxAge => ("invalid_request", "invalid max_age")
  | .invalidPrompt => ("invalid_request", "invalid prompt")
  | .invalidDisplay => ("invalid_request", "invalid display")
  | .unsupportedResponseMode => ("invalid_request", "unsupported response mode")
  | .unsupportedClaimsParameter => ("invalid_request", "unsupported claims parameter")
  | .unsupportedRequestParameter => ("request_not_supported", "unsupported request parameter")
  | .unsupportedRequestUriParameter =>
    ("request_uri_not_supported", "unsupported request_uri parameter")
  | .pkceRequired => ("invalid_request", "PKCE S256 is required")
  | .invalidPkceChallenge => ("invalid_request", "invalid PKCE code_challenge")
  | .invalidRedirectUri => ("invalid_request", "invalid redirect URI")

/-- `?`, or `&` after a query. -/
def querySeparator (uri : String) : String := if uri.toList.contains '?' then "&" else "?"

def stateParameter (state : Option String) : String :=
  (state.map fun state => "&state=" ++ percentEncodeMinimal state).getD ""

def appendAuthorizationResponseParams (redirectUri code : String) (state : Option String)
    (issuer : String) : String :=
  redirectUri ++ querySeparator redirectUri ++ "code=" ++ code ++ "&iss=" ++
    percentEncodeMinimal issuer ++ stateParameter state

def isOauthErrorTextCharacter (c : Char) : Bool :=
  let n := c.toNat
  (0x20 ≤ n && n ≤ 0x21) || (0x23 ≤ n && n ≤ 0x5B) || (0x5D ≤ n && n ≤ 0x7E)

def oauthErrorDescription (description : String) : String :=
  String.ofList (description.toList.map fun c => if isOauthErrorTextCharacter c then c else ' ')

def descriptionParameter (errorDescription : Option String) : String :=
  (errorDescription.map fun description =>
    "&error_description=" ++ percentEncodeMinimal (oauthErrorDescription description)).getD ""

def appendAuthorizationErrorResponseParams (redirectUri error : String)
    (errorDescription state : Option String) (issuer : String) : String :=
  redirectUri ++ querySeparator redirectUri ++ "error=" ++ percentEncodeMinimal error ++ "&iss=" ++
    percentEncodeMinimal issuer ++ descriptionParameter errorDescription ++ stateParameter state

/-- `Redirect::temporary`: a location that is no header value gives status 500. -/
inductive RedirectResponse where
  | temporary (location : String)
  | internalServerError
  deriving DecidableEq

def oauthRedirectResponse (target : String) : RedirectResponse :=
  if isHeaderValue target then .temporary target else .internalServerError

variable (P : Primitives) (state : AppState)

def authorizationRequestHash (issuer : String) (request : AuthorizationRequest) : String :=
  hashToken P (currentAuthorizeUrl issuer request .preserve)

def authorizationErrorRedirectWithCode (request : AuthorizationRequest)
    (errorCode errorDescription : String) : RedirectResponse :=
  oauthRedirectResponse (appendAuthorizationErrorResponseParams request.redirectUri errorCode
    (some errorDescription) request.state state.config.issuer)

def authorizationErrorRedirect (request : AuthorizationRequest) (error : AuthorizationError) :
    RedirectResponse :=
  authorizationErrorRedirectWithCode state request (authorizationErrorParts error).1
    (authorizationErrorParts error).2

-- authorize_route

def sessionExceedsMaxAge (session : AuthSession) (maxAge : Option Int) (now : OffsetDateTime) :
    Bool :=
  maxAge.any fun maxAge => maxAge <
    OffsetDateTime.unixTimestamp now - OffsetDateTime.unixTimestamp session.createdAt

def sessionSatisfiesRequestedAcr (sessionAcr : String) (requestedAcrValues : List String) : Bool :=
  requestedAcrValues.isEmpty || requestedAcrValues.contains sessionAcr

def requireClientInSessionOrganization (client : OidcClient) (session : AuthSession) : App Unit :=
  Prog.failIf (client.organizationId ≠ session.organizationId) (.badRequest "unknown client")

def clientConsentPolicyRequiresPrompt (organizationId : OrganizationId) (client : OidcClient) :
    App Bool := do
  let some templateId := client.consentPolicyTemplateId | return false
  let some template ← db (.getConsentPolicyTemplate organizationId templateId) | return true
  return template.grantMode = .alwaysRequired

/-- The loop of `consume_consent_authorization` over the rows it selected. -/
def consumeFirstConsentAuthorization (request : ConsentAuthorizationConsumption) :
    List ConsentAuthorization → App Bool
  | [] => return false
  | row :: rows => do
    if !request.scopes.all (row.scopes.contains ·) then
      consumeFirstConsentAuthorization request rows
    else if ← db (.markConsentAuthorizationConsumed row.id request.instant) then return true
    else consumeFirstConsentAuthorization request rows

def consumeConsentAuthorization (request : ConsentAuthorizationConsumption) : App Bool := do
  consumeFirstConsentAuthorization request (← db (.pendingConsentAuthorizations request))

/-- The detour over the login page. -/
def loginRedirect (request : AuthorizationRequest) (promptMode : AuthorizeUrlPromptMode) :
    RedirectResponse :=
  oauthRedirectResponse (state.config.publicWebOrigin ++ "/login?return_to=" ++
    percentEncodeMinimal (currentAuthorizeUrl state.config.issuer request promptMode))

/-- The detour over the consent page. -/
def consentRedirect (request : AuthorizationRequest) (client : OidcClient) (scopes : List String) :
    RedirectResponse :=
  oauthRedirectResponse (state.config.publicWebOrigin ++ "/consent?return_to=" ++
    percentEncodeMinimal (currentAuthorizeUrl state.config.issuer request .removeConsent) ++
    "&client_id=" ++ percentEncodeMinimal client.clientId ++ "&client_name=" ++
    percentEncodeMinimal client.name ++ "&scopes=" ++ percentEncodeMinimal (" ".intercalate scopes))

/-- `login_required` for a request that must not prompt. -/
def loginRequired (request : AuthorizationRequest) (description : String)
    (validated : ValidatedAuthorizationRequest) (promptMode : AuthorizeUrlPromptMode) :
    RedirectResponse :=
  if validated.prompt.isNone then
    authorizationErrorRedirectWithCode state request "login_required" description
  else loginRedirect state request promptMode

def newAuthorizationCode (client : OidcClient) (validated : ValidatedAuthorizationRequest)
    (session : AuthSession) (codeHash : String) (now : OffsetDateTime) : AuthorizationCode where
  codeHash := codeHash
  organizationId := session.organizationId
  userId := session.userId
  sessionId := session.id
  clientId := client.id
  redirectUri := validated.redirectUri
  scopes := validated.scopes
  nonce := validated.nonce
  codeChallenge := validated.codeChallenge
  codeChallengeMethod := validated.codeChallengeMethod
  createdAt := now
  expiresAt := now + Duration.minutes 5
  usedAt := none

/-- The end of the handler: the code and the redirect with it. -/
def issueAuthorizationCode (client : OidcClient) (validated : ValidatedAuthorizationRequest)
    (session : AuthSession) (now : OffsetDateTime) : App RedirectResponse := do
  let grant ← generateHashedSecret P 32
  db (.insertAuthorizationCode (newAuthorizationCode client validated session grant.hash now))
  return oauthRedirectResponse (appendAuthorizationResponseParams validated.redirectUri grant.value
    validated.state state.config.issuer)

def consumptionOf (request : AuthorizationRequest) (client : OidcClient)
    (validated : ValidatedAuthorizationRequest) (session : AuthSession) (now : OffsetDateTime) :
    ConsentAuthorizationConsumption where
  organizationId := session.organizationId
  userId := session.userId
  sessionId := session.id
  clientId := client.id
  authorizationRequestHash := authorizationRequestHash P state.config.issuer request
  scopes := validated.scopes
  instant := now

/-- The part of the handler that asks for consent. -/
def authorizeWithConsent (request : AuthorizationRequest) (client : OidcClient)
    (validated : ValidatedAuthorizationRequest) (session : AuthSession) (now : OffsetDateTime) :
    App RedirectResponse := do
  let hasConsent ← db (.hasActiveConsentGrant session.organizationId session.userId client.id
    validated.scopes)
  let policyRequiresConsent ← clientConsentPolicyRequiresPrompt session.organizationId client
  let promptRequiresConsent := validated.prompt.requiresConsent
  let policyConsentSatisfied ←
    (if policyRequiresConsent && !promptRequiresConsent && !validated.prompt.isNone then
      consumeConsentAuthorization (consumptionOf P state request client validated session now)
    else pure false)
  if !hasConsent || promptRequiresConsent || (policyRequiresConsent && !policyConsentSatisfied) then
    if validated.prompt.isNone then
      return authorizationErrorRedirectWithCode state request "consent_required" "consent required"
    else return consentRedirect state request client validated.scopes
  else issueAuthorizationCode P state client validated session now

/-- The part of the handler that looks at the session. -/
def authorizeWithSession (headers : RequestHeaders) (request : AuthorizationRequest)
    (client : OidcClient) (validated : ValidatedAuthorizationRequest) : App RedirectResponse := do
  match ← sessionFromCookie P state headers with
  | none =>
    return loginRequired state request "login required" validated
      (if validated.prompt.requiresLogin then .removeLogin else .preserve)
  | some session =>
    requireClientInSessionOrganization client session
    let now ← nowUtc
    if validated.prompt.requiresLogin then
      return loginRedirect state request .removeLogin
    else if sessionExceedsMaxAge session validated.maxAge now then
      return loginRequired state request "login required" validated .preserve
    else if !sessionSatisfiesRequestedAcr session.acr validated.acrValues then
      return loginRequired state request "requested acr_values require reauthentication" validated
        .preserve
    else authorizeWithConsent P state request client validated session now

def authorizeWithPairs (headers : RequestHeaders) (queryPairs : List (String × String)) :
    App RedirectResponse := do
  let duplicateParameter := duplicateAuthorizationRequestParameter queryPairs
  Prog.failIf (duplicateParameter = some "client_id" ∨ duplicateParameter = some "redirect_uri")
    (.badRequest "duplicate authorization request parameter")
  let (request, parseError) := authorizationRequestFromQueryPairs queryPairs
  let some client ← db (.getOidcClientByPublicId request.clientId)
    | throw (.badRequest "unknown client")
  Prog.failIf (!client.allowsRedirectUri request.redirectUri) (.badRequest "invalid redirect URI")
  if !oidcClientIsActive client then
    return authorizationErrorRedirectWithCode state request "unauthorized_client"
      "client is disabled"
  else if duplicateParameter.isSome then
    return authorizationErrorRedirectWithCode state request "invalid_request"
      "duplicate authorization request parameter"
  else match parseError with
    | some error => return authorizationErrorRedirect state request error
    | none => match request.validate P client with
      | .error .invalidRedirectUri => throw (.badRequest "invalid redirect URI")
      | .error error => return authorizationErrorRedirect state request error
      | .ok validated => authorizeWithSession P state headers request client validated

end CairnId
