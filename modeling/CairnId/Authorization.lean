import CairnId.Oidc

/-!
# Authorization requests

`crates/oidc/src/authorization` and the query parser in front of it: the
parameters of an authorization request, and what makes a request valid for a
client.
-/

namespace CairnId

structure AuthorizationRequest where
  responseType : String
  clientId : String
  redirectUri : String
  scope : String
  state : Option String
  nonce : Option String
  maxAge : Option Int
  responseMode : Option String
  prompt : Option String
  display : Option String
  acrValues : Option String
  uiLocales : Option String
  claimsLocales : Option String
  loginHint : Option String
  claims : Option String
  request : Option String
  requestUri : Option String
  codeChallenge : Option String
  codeChallengeMethod : Option String
  deriving DecidableEq

inductive AuthorizationPrompt where
  | default
  | none
  | login
  | consent
  | loginConsent
  deriving DecidableEq

namespace AuthorizationPrompt

def isNone (prompt : AuthorizationPrompt) : Bool := prompt = .none

def requiresLogin (prompt : AuthorizationPrompt) : Bool := prompt = .login ∨ prompt = .loginConsent

def requiresConsent (prompt : AuthorizationPrompt) : Bool :=
  prompt = .consent ∨ prompt = .loginConsent

end AuthorizationPrompt

inductive AuthorizationResponseMode where
  | query
  deriving DecidableEq

inductive AuthorizationDisplay where
  | default
  | page
  | popup
  | touch
  | wap
  deriving DecidableEq

structure ValidatedAuthorizationRequest where
  clientId : String
  redirectUri : String
  scopes : List String
  state : Option String
  nonce : Option String
  maxAge : Option Int
  responseMode : AuthorizationResponseMode
  prompt : AuthorizationPrompt
  display : AuthorizationDisplay
  acrValues : List String
  uiLocales : List String
  claimsLocales : List String
  loginHint : Option String
  codeChallenge : String
  codeChallengeMethod : PkceMethod
  deriving DecidableEq

/-- The errors of `OidcError` that an authorization request can meet. -/
inductive AuthorizationError where
  | missingResponseType
  | unsupportedResponseType
  | unsupportedGrantType
  | invalidRedirectUri
  | invalidScope
  | unsupportedRequestParameter
  | unsupportedRequestUriParameter
  | unsupportedClaimsParameter
  | invalidMaxAge
  | unsupportedResponseMode
  | invalidPrompt
  | invalidDisplay
  | pkceRequired
  | invalidPkceChallenge
  deriving DecidableEq

-- parsing

/-- The word that the characters start with, and the words after it. -/
def splitWords : List Char → List Char × List (List Char)
  | [] => ([], [])
  | c :: cs =>
    let (word, words) := splitWords cs
    if isWhiteSpace c then ([], if word.isEmpty then words else word :: words)
    else (c :: word, words)

/-- `str::split_whitespace`. -/
def splitWhitespace (value : String) : List String :=
  let (word, words) := splitWords value.toList
  (if word.isEmpty then words else word :: words).map String.ofList

/-- `value.map(str::trim).filter(|value| !value.is_empty())`. -/
def trimmedNonempty (value : Option String) : Option String :=
  (value.map trim).filter fun value => !value.isEmpty

def optionalParameterIsPresent (value : Option String) : Bool := (trimmedNonempty value).isSome

def parseResponseMode (responseMode : Option String) : Except AuthorizationError AuthorizationResponseMode :=
  match trimmedNonempty responseMode with
  | none | some "query" => .ok .query
  | some _ => .error .unsupportedResponseMode

def parseDisplay (display : Option String) : Except AuthorizationError AuthorizationDisplay :=
  match trimmedNonempty display with
  | none => .ok .default
  | some "page" => .ok .page
  | some "popup" => .ok .popup
  | some "touch" => .ok .touch
  | some "wap" => .ok .wap
  | some _ => .error .invalidDisplay

/-- The values in the order of their first occurrence. -/
def collectUnique (parsed : List String) : List String → List String
  | [] => parsed
  | value :: values =>
    collectUnique (if parsed.contains value then parsed else parsed ++ [value]) values

def parseSpaceDelimitedUnique (value : Option String) : List String :=
  collectUnique [] (splitWhitespace (value.getD ""))

def parsePrompt (prompt : Option String) : Except AuthorizationError AuthorizationPrompt :=
  match trimmedNonempty prompt with
  | none => .ok .default
  | some prompt =>
    let values := splitWhitespace prompt
    if values.contains "none" && 1 < values.length then .error .invalidPrompt
    else if ¬ values.Nodup then .error .invalidPrompt
    else if values.any fun value => value ∉ ["none", "login", "consent"] then .error .invalidPrompt
    else if values = ["none"] then .ok .none
    else match values.contains "login", values.contains "consent" with
      | true, true => .ok .loginConsent
      | true, false => .ok .login
      | false, true => .ok .consent
      | false, false => .error .invalidPrompt

variable (P : Primitives)

/-- The members of an object with one member of the given name. -/
def Json.onlyMember? (name : String) : Json → Option Json
  | .object [(key, value)] => if key = name then some value else none
  | _ => none

def additionalScopesForSupportedClaims (claims : Option String) : Except AuthorizationError (List String) :=
  match trimmedNonempty claims with
  | none => .ok []
  | some claims => match ((P.parseJson claims).bind (Json.onlyMember? "userinfo")).bind
      (Json.onlyMember? "name") |>.bind (Json.onlyMember? "essential") with
    | some (.bool true) => .ok ["profile"]
    | _ => .error .unsupportedClaimsParameter

/-- `Err` when the condition holds. -/
def AuthorizationError.refuseIf (c : Prop) [Decidable c] (e : AuthorizationError) : Except AuthorizationError Unit :=
  if c then .error e else .ok ()

def AuthorizationRequest.validate (request : AuthorizationRequest) (client : OidcClient) :
    Except AuthorizationError ValidatedAuthorizationRequest := do
  AuthorizationError.refuseIf request.responseType.isEmpty .missingResponseType
  AuthorizationError.refuseIf (request.responseType ≠ "code") .unsupportedResponseType
  AuthorizationError.refuseIf (!client.allowsGrant .authorizationCode) .unsupportedGrantType
  AuthorizationError.refuseIf (!client.allowsRedirectUri request.redirectUri) .invalidRedirectUri
  let some parsed := parseScopes request.scope | throw .invalidScope
  AuthorizationError.refuseIf (optionalParameterIsPresent request.request) .unsupportedRequestParameter
  AuthorizationError.refuseIf (optionalParameterIsPresent request.requestUri) .unsupportedRequestUriParameter
  let scopes := collectUnique parsed (← additionalScopesForSupportedClaims P request.claims)
  AuthorizationError.refuseIf (!scopes.contains "openid") .invalidScope
  AuthorizationError.refuseIf (scopes.any fun scope => !client.allowedScopes.contains scope) .invalidScope
  AuthorizationError.refuseIf (scopes.contains "offline_access" && !client.allowsGrant .refreshToken)
    .invalidScope
  AuthorizationError.refuseIf (request.maxAge.any fun maxAge => maxAge < 0) .invalidMaxAge
  let responseMode ← parseResponseMode request.responseMode
  let prompt ← parsePrompt request.prompt
  let display ← parseDisplay request.display
  let acrValues := parseSpaceDelimitedUnique request.acrValues
  let uiLocales := parseSpaceDelimitedUnique request.uiLocales
  let claimsLocales := parseSpaceDelimitedUnique request.claimsLocales
  let some codeChallenge := request.codeChallenge | throw .pkceRequired
  AuthorizationError.refuseIf (!validatePkceUnreserved codeChallenge) .invalidPkceChallenge
  AuthorizationError.refuseIf (request.codeChallengeMethod ≠ some "S256") .pkceRequired
  return ⟨request.clientId, request.redirectUri, scopes, request.state, request.nonce,
    request.maxAge, responseMode, prompt, display, acrValues, uiLocales, claimsLocales,
    request.loginHint, codeChallenge, .s256⟩

end CairnId
