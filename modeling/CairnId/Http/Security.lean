import CairnId.Http.Network

/-!
# The web origin

The check of the configured origins at the start, and the check of the origin of each
request that changes something.

## Main definitions

- `validateOriginConfiguration`
- `validateApiBrowserOrigin`
-/

namespace CairnId

-- config/origin

inductive ConfigError where
  | invalidOrigin (name value reason : String)
  deriving DecidableEq

section config

variable (P : Primitives)

def isLoopbackHost (url : Url) : Bool :=
  url.host = some "localhost" || url.host = some "127.0.0.1" || url.host = some "[::1]"

def validatePublicOrigin (environment : Environment) (name value : String) :
    Except ConfigError Unit :=
  match P.parseUrl value with
  | none => .error (.invalidOrigin name value "must be an absolute URL")
  | some parsed =>
    if parsed.cannotBeABase || parsed.host.isNone then
      .error (.invalidOrigin name value "must include a host")
    else if parsed.username ≠ "" || parsed.password.isSome then
      .error (.invalidOrigin name value "must not include credentials")
    else if parsed.path ≠ "/" || parsed.query.isSome || parsed.fragment.isSome then
      .error (.invalidOrigin name value "must be an origin without path, query, or fragment")
    else if parsed.scheme = "https" then .ok ()
    else if parsed.scheme = "http" then
      if environment = .development && isLoopbackHost parsed then .ok ()
      else .error (.invalidOrigin name value
        "http is allowed only for localhost development origins")
    else .error (.invalidOrigin name value "must use http or https")

def validateOriginConfiguration (environment : Environment) (issuer publicWebOrigin : String) :
    Except ConfigError Unit := do
  validatePublicOrigin P environment "CAIRN_ISSUER" issuer
  validatePublicOrigin P environment "CAIRN_PUBLIC_WEB_ORIGIN" publicWebOrigin

end config

-- http/security

inductive Method where
  | get
  | head
  | options
  | post
  | put
  | patch
  | delete
  | other (name : String)
  deriving DecidableEq

def unsafeApiRequestPath (method : Method) (path : String) : Bool :=
  "/api/v1/".toList.isPrefixOf path.toList &&
    (method = .post || method = .put || method = .patch || method = .delete)

def invalidRequestOrigin : ApiError := .status 403 "invalid request origin"

/-- The serialized origin of the page a referer names. -/
def refererOrigin (P : Primitives) (referer : String) : Option String :=
  (P.parseUrl referer).map (·.origin)

def validateApiBrowserOrigin (P : Primitives) (config : ApiConfig) (method : Method)
    (path : String) (headers : HeaderMap) : Except ApiError Unit :=
  if !unsafeApiRequestPath method path then .ok ()
  else match headers.get "origin" with
    | some line => match line.toStr with
      | none => .error invalidRequestOrigin
      | some origin =>
        if origin ≠ config.publicWebOrigin then .error invalidRequestOrigin else .ok ()
    | none => match headers.get "referer" with
      | some line => match line.toStr with
        | none => .error invalidRequestOrigin
        | some referer =>
          if refererOrigin P referer ≠ some config.publicWebOrigin then
            .error invalidRequestOrigin
          else .ok ()
      | none => .ok ()

end CairnId
