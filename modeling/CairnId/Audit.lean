import CairnId.Oidc

/-!
# Audit events

`crates/audit`: redaction of metadata and the fields of an event. The identifier
and the instant of an event are drawn where it is built.
-/

namespace CairnId

def isAsciiAlphanumeric (c : Char) : Bool :=
  ('A' ≤ c && c ≤ 'Z') || ('a' ≤ c && c ≤ 'z') || ('0' ≤ c && c ≤ '9')

def toAsciiLowercase (c : Char) : Char :=
  if 'A' ≤ c && c ≤ 'Z' then Char.ofNat (c.toNat + 32) else c

/-- The loop of `normalize_metadata_key`. -/
def normalizeKeyChars (previousWasSeparator : Bool) : List Char → List Char
  | [] => []
  | c :: cs =>
    if isAsciiAlphanumeric c then toAsciiLowercase c :: normalizeKeyChars false cs
    else if previousWasSeparator then normalizeKeyChars true cs
    else '_' :: normalizeKeyChars true cs

/-- `str::trim_matches` of one character, on the list of characters. -/
def trimMatchesChars (c : Char) (cs : List Char) : List Char :=
  ((cs.dropWhile (· = c)).reverse.dropWhile (· = c)).reverse

def normalizeMetadataKey (key : String) : List Char :=
  trimMatchesChars '_' (normalizeKeyChars false key.toList)

def sensitiveNames : List String :=
  ["password", "secret", "client_secret", "token", "access_token", "refresh_token", "id_token",
    "authorization_code", "code", "code_verifier", "mfa_code", "totp_code", "otp_code",
    "recovery_code", "recovery_codes", "csrf_token", "private_key", "private_key_pem",
    "signing_private_key", "signing_private_key_pem", "key_encryption_key", "kek", "preview_url",
    "action_url", "magic_link", "verification_link", "recovery_link", "invitation_link",
    "client_data_json", "attestation_object", "authenticator_data", "signature"]

def sensitiveCompactNames : List String :=
  ["idtoken", "authorizationcode", "codeverifier", "mfacode", "totpcode", "otpcode",
    "recoverycode", "recoverycodes", "csrftoken", "privatekey", "privatekeypem",
    "signingprivatekey", "signingprivatekeypem", "keyencryptionkey", "previewurl", "actionurl",
    "magiclink", "verificationlink", "recoverylink", "invitationlink", "clientdatajson",
    "attestationobject", "authenticatordata"]

/-- `str::contains`, on lists of characters. -/
def containsChars (part : String) : List Char → Bool
  | [] => part.isEmpty
  | c :: cs => part.toList.isPrefixOf (c :: cs) || containsChars part cs

/-- `str::ends_with`, on lists of characters. -/
def endsWithChars (cs : List Char) (part : String) : Bool := part.toList.isSuffixOf cs

def isSensitiveMetadataKey (key : String) : Bool :=
  let normalized := normalizeMetadataKey key
  let compact := normalized.filter (· ≠ '_')
  sensitiveNames.any (fun name => name.toList = normalized) ||
    sensitiveCompactNames.any (fun name => name.toList = compact) ||
    ["_password", "_secret", "_token", "_private_key", "_private_key_pem"].any
      (endsWithChars normalized) ||
    containsChars "keyencryptionkey" compact || containsChars "recovery_code" normalized ||
    containsChars "recoverycode" compact

mutual

def redactSensitiveMetadata : Json → Json
  | .object members => .object (redactMembers members)
  | .array values => .array (redactValues values)
  | other => other

def redactMembers : List (String × Json) → List (String × Json)
  | [] => []
  | (key, value) :: members =>
    (key, if isSensitiveMetadataKey key then .string "[redacted]"
      else redactSensitiveMetadata value) :: redactMembers members

def redactValues : List Json → List Json
  | [] => []
  | value :: values => redactSensitiveMetadata value :: redactValues values

end

/-- `AuditEventBuilder`, whose setters are the fields. -/
structure AuditEventBuilder where
  organizationId : OrganizationId
  actorKind : AuditActorKind
  actorId : Option Uuid
  action : String
  target : String
  ipAddress : Option String := none
  userAgent : Option String := none
  metadata : Json := .object []

namespace AuditEventBuilder

def user (organizationId : OrganizationId) (actorId : Uuid) (action target : String) :
    AuditEventBuilder :=
  { organizationId, actorKind := .user, actorId := some actorId, action, target }

def system (organizationId : OrganizationId) (action target : String) : AuditEventBuilder :=
  { organizationId, actorKind := .system, actorId := none, action, target }

def requestContext (b : AuditEventBuilder) (ipAddress userAgent : Option String) :
    AuditEventBuilder :=
  { b with ipAddress, userAgent }

def withMetadata (b : AuditEventBuilder) (metadata : Json) : AuditEventBuilder :=
  { b with metadata := redactSensitiveMetadata metadata }

def event (b : AuditEventBuilder) (id : Uuid) (createdAt : OffsetDateTime) : AuditEvent :=
  ⟨id, b.organizationId, b.actorKind, b.actorId, b.action, b.target, b.ipAddress, b.userAgent,
    b.metadata, createdAt⟩

end AuditEventBuilder

end CairnId
