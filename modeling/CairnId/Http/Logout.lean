import CairnId.Http.Token

/-!
# Logout

`POST /session/logout` and the RP-initiated `/oauth2/logout`, from the point
where the logout request has been parsed.
-/

namespace CairnId

open Concurrency App

structure EndSessionRequest where
  idTokenHint : Option String
  clientId : Option String
  postLogoutRedirectUri : Option String
  state : Option String
  deriving DecidableEq

variable (P : Primitives) (state : AppState)

def postLogoutRedirectTargetForClient (request : EndSessionRequest) (client : OidcClient)
    (postLogoutRedirectUri : String) : App (Option String) := do
  Prog.failIf (!client.allowsPostLogoutRedirectUri postLogoutRedirectUri)
    (.badRequest "invalid post_logout_redirect_uri")
  return some (appendPostLogoutRedirectParams postLogoutRedirectUri request.state)

def postLogoutRedirectTarget (request : EndSessionRequest) : App (Option String) := do
  let some postLogoutRedirectUri := request.postLogoutRedirectUri.filter fun uri => !uri.isEmpty
    | return none
  let some idTokenHint := request.idTokenHint.filter fun hint => !hint.isEmpty
    | throw (.badRequest "id_token_hint is required")
  let signing ← resolveSigningMaterial P state
  let some claims := validateLogoutIdTokenHintIssuer P idTokenHint state.config.issuer signing
    | throw (.badRequest "invalid id_token_hint")
  let clientId := (request.clientId.filter fun id => !id.isEmpty).getD claims.aud
  let some client ← db (.getOidcClientByPublicId clientId) | throw (.badRequest "unknown client")
  Prog.failIf (client.organizationId ≠ state.organizationId) (.badRequest "unknown client")
  Prog.failIf (!oidcClientIsActive client) (.badRequest "unknown client")
  Prog.failIf (claims.aud ≠ client.clientId) (.badRequest "invalid id_token_hint")
  postLogoutRedirectTargetForClient request client postLogoutRedirectUri

def revokeSessionForLogout (headers : RequestHeaders) (session : AuthSession)
    (initiator : String) : App Unit := do
  let now ← nowUtc
  db (.revokeAuthSession session.id now)
  -- these routes do not resolve the sender's address
  let context := auditRequestContext { headers with sourceIp := none }
  insertAuditEvent (((AuditEventBuilder.user session.organizationId session.userId
    "session.logged_out" (Uuid.hyphenated session.id)).requestContext context.ipAddress
    context.userAgent).withMetadata (.object [("initiator", .string initiator),
      ("acr", .string session.acr), ("amr", .array (session.amr.map .string))]))

/-- What the logout endpoints answer. -/
inductive LogoutResponse where
  | ok
  | redirect (location : String)
  /-- An error that `logout_error_response` turned into a response. -/
  | refused (error : ApiError)
  deriving DecidableEq

def logoutRedirectResponse (target : String) : App LogoutResponse := do
  Prog.failIf (!isHeaderValue target) (.status 500 "invalid logout redirect location")
  return .redirect target

/-- Log the browser's session out, if there is one. -/
def revokeBrowserSession (headers : RequestHeaders) (initiator : String) : App Unit := do
  match ← sessionFromCookie P state headers with
  | some session => revokeSessionForLogout headers session initiator
  | none => return ()

def endSessionResponse (headers : RequestHeaders) (request : EndSessionRequest) :
    App LogoutResponse := do
  match ← (postLogoutRedirectTarget P state request).attempt with
  | .error error => return .refused error
  | .ok redirectTarget =>
    revokeBrowserSession P state headers "rp_initiated"
    match redirectTarget with
    | some target => logoutRedirectResponse target
    | none => return .ok

def logout (headers : RequestHeaders) : App LogoutResponse := do
  requireCsrf headers
  revokeBrowserSession P state headers "browser"
  return .ok

end CairnId
