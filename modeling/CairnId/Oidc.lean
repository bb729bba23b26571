import CairnId.Domain

/-!
# Protocol functions without state

Scope strings, PKCE, OAuth error bodies and ID token claims, from `crates/oidc`
and `crates/authn`. What comes from a third-party crate is a field of
`Primitives`.
-/

namespace CairnId

/-- The Unicode property `White_Space`, which `str::trim` goes by. -/
def isWhiteSpace (c : Char) : Bool :=
  let n := c.toNat
  (0x9 ≤ n && n ≤ 0xD) || n = 0x20 || n = 0x85 || n = 0xA0 || n = 0x1680 ||
    (0x2000 ≤ n && n ≤ 0x200A) || n = 0x2028 || n = 0x2029 || n = 0x202F || n = 0x205F ||
    n = 0x3000

/-- `str::trim`. -/
def trim (value : String) : String :=
  String.ofList ((value.toList.dropWhile isWhiteSpace).reverse.dropWhile isWhiteSpace).reverse

/-- `value.trim().is_empty()`. -/
def isBlank (value : String) : Bool := value.toList.all isWhiteSpace

/-- `str::split` at one character, on the list of characters. -/
def splitChars (sep : Char) : List Char → List (List Char)
  | [] => [[]]
  | c :: cs => match splitChars sep cs with
    | [] => [[c]]
    | part :: parts => if c = sep then [] :: part :: parts else (c :: part) :: parts

def splitAt (sep : Char) (value : String) : List String :=
  (splitChars sep value.toList).map String.ofList

/-- `str::trim_end_matches` of one character. -/
def trimEndMatches (c : Char) (value : String) : String :=
  String.ofList (value.toList.reverse.dropWhile (· = c)).reverse

private def hexDigit (n : Nat) : Char := Char.ofNat (if n < 10 then 0x30 + n else 0x61 + (n - 10))

/-- The hyphenated form of an identifier. -/
def Uuid.hyphenated (u : Uuid) : String :=
  let digits := (List.range 32).map fun i => hexDigit ((u.toNat >>> (4 * (31 - i))) % 16)
  String.ofList (digits.take 8 ++ '-' :: (digits.drop 8).take 4 ++ '-' :: (digits.drop 12).take 4 ++
    '-' :: (digits.drop 16).take 4 ++ '-' :: digits.drop 20)

def upperHexDigit (n : Nat) : Char :=
  Char.ofNat (if n < 10 then 0x30 + n else 0x41 + (n - 10))

/-- The unreserved characters stay, every other byte becomes `%XX`. -/
def percentEncodeMinimal (value : String) : String :=
  String.ofList (value.toUTF8.toList.flatMap fun byte =>
    let c := Char.ofNat byte.toNat
    if ('A' ≤ c && c ≤ 'Z') || ('a' ≤ c && c ≤ 'z') || ('0' ≤ c && c ≤ '9') || c = '-' ||
        c = '.' || c = '_' || c = '~' then [c]
    else ['%', upperHexDigit (byte.toNat / 16), upperHexDigit (byte.toNat % 16)])

/-- The `state` parameter goes after what the registered URI already has. -/
def appendPostLogoutRedirectParams (postLogoutRedirectUri : String) (state : Option String) :
    String := match state with
  | none => postLogoutRedirectUri
  | some state =>
    let separator := if postLogoutRedirectUri.toList.contains '?' then "&" else "?"
    postLogoutRedirectUri ++ separator ++ "state=" ++ percentEncodeMinimal state

def OffsetDateTime.unixTimestamp (t : OffsetDateTime) : Int := Int.fdiv t 1000000

def scopeTokenIsValid (scope : String) : Bool :=
  !scope.isEmpty && scope.toList.all fun c =>
    let n := c.toNat
    n = 0x21 || (0x23 ≤ n && n ≤ 0x5B) || (0x5D ≤ n && n ≤ 0x7E)

/-- The loop of `parse_scopes`, with the scopes found so far. -/
def collectScopes (scopes : List String) : List String → Option (List String)
  | [] => some scopes
  | scope :: rest =>
    if !scopeTokenIsValid scope then none
    else if scopes.contains scope then collectScopes scopes rest
    else collectScopes (scopes ++ [scope]) rest

/-- `none` is `OidcError::InvalidScope`. -/
def parseScopes (scope : String) : Option (List String) := collectScopes [] (splitAt ' ' scope)

def isPkceUnreserved (c : Char) : Bool :=
  ('A' ≤ c && c ≤ 'Z') || ('a' ≤ c && c ≤ 'z') || ('0' ≤ c && c ≤ '9') || c = '-' || c = '.' ||
    c = '_' || c = '~'

def validatePkceUnreserved (value : String) : Bool :=
  43 ≤ value.utf8ByteSize && value.utf8ByteSize ≤ 128 && value.toList.all isPkceUnreserved

structure IdTokenClaims where
  iss : String
  sub : String
  aud : String
  exp : Int
  iat : Int
  authTime : Option Int
  nonce : Option String
  email : Option String
  emailVerified : Option Bool
  name : Option String
  amr : Option (List String)
  acr : Option String
  groups : Option (List String)
  deriving DecidableEq

/-- The key that signs ID tokens, decrypted. -/
structure SigningMaterial where
  keyId : String
  privateKeyPem : String
  publicJwk : Json

structure JwtHeader where
  alg : String
  kid : Option String
  deriving DecidableEq

abbrev KeyEncryptionKey := Bytes

/-- What the code reads off a parsed URL. -/
structure Url where
  scheme : String
  /-- `origin().ascii_serialization()`. -/
  origin : String
  cannotBeABase : Bool
  host : Option String
  username : String
  password : Option String
  path : String
  query : Option String
  fragment : Option String
  deriving DecidableEq

/-- What third-party crates compute. -/
structure Primitives where
  /-- URL-safe base64 without padding of the SHA-256 digest. -/
  digest : String → String
  /-- Argon2: the password against the stored hash. -/
  verifyPassword : String → String → Bool
  /-- AES-256-GCM with key, nonce, associated data and message. -/
  encrypt : KeyEncryptionKey → Bytes → String → String → Option Bytes
  /-- The plaintext, when it authenticates and is UTF-8. -/
  decrypt : KeyEncryptionKey → Bytes → String → Bytes → Option String
  /-- Modulus and exponent of a private key in PEM, in URL-safe base64. -/
  rsaComponents : String → Option (String × String)
  /-- Sign claims with a private key in PEM, under a `kid`. -/
  encodeJwt : String → String → IdTokenClaims → Option String
  decodeHeader : String → Option JwtHeader
  /-- Verify a token against the modulus and exponent of a public key. -/
  decodeJwt : String → String → String → Option IdTokenClaims
  /-- URL-safe base64 without padding. -/
  base64Decode : String → Option Bytes
  /-- `TotpProfile::verify_current` for a secret and a code at an instant. -/
  verifyTotp : String → String → OffsetDateTime → Option Bool
  /-- Whether a relying party can be built for an origin. -/
  webauthnOrigin : String → Bool
  /-- Whether a value is a serialized passkey. -/
  isPasskey : Json → Bool
  /-- The result of an assertion for the state of a challenge. -/
  finishPasskeyAuthentication : Json → Json → Option Json
  /-- `Passkey::update_credential`: whether a passkey changes, and to what; `none`
      when the result is not its own. -/
  updateCredential : Json → Json → Option (Bool × Json)
  passkeyCredentialId : Json → String
  /-- The passkey that a credential registers for the state of a challenge. -/
  finishPasskeyRegistration : Json → Json → Option Json
  /-- `TotpProfile::build` for an account name and a secret: the URL and the secret in base 32. -/
  totpProfile : String → String → Option (String × String)
  /-- `Uuid::parse_str`. -/
  parseUuid : String → Option Uuid
  /-- An instant in the format of RFC 3339. -/
  formatRfc3339 : OffsetDateTime → String
  /-- `serde_json::from_str`; the keys of an object are distinct. -/
  parseJson : String → Option Json
  /-- `Url::parse`. -/
  parseUrl : String → Option Url

/-- Primitives that fail on everything, for examples to build on. -/
def Primitives.inert : Primitives where
  digest token := token
  verifyPassword _ _ := false
  encrypt _ _ _ _ := none
  decrypt _ _ _ _ := none
  rsaComponents _ := none
  encodeJwt _ _ _ := none
  decodeHeader _ := none
  decodeJwt _ _ _ := none
  base64Decode _ := none
  verifyTotp _ _ _ := none
  webauthnOrigin _ := false
  isPasskey _ := false
  finishPasskeyAuthentication _ _ := none
  updateCredential _ _ := none
  passkeyCredentialId _ := ""
  finishPasskeyRegistration _ _ := none
  totpProfile _ _ := none
  parseUuid _ := none
  formatRfc3339 _ := ""
  parseJson _ := none
  parseUrl _ := none

variable (P : Primitives)

def hashToken (token : String) : String := P.digest token

/-- `constant_time_eq` compares the bytes of the two texts. -/
def verifyTokenHash (token expectedHash : String) : Bool := hashToken P token = expectedHash

def pkceChallenge (verifier : String) : PkceMethod → String
  | .s256 => P.digest verifier

def verifyPkce (verifier expectedChallenge : String) (method : PkceMethod) : Bool :=
  validatePkceUnreserved verifier && validatePkceUnreserved expectedChallenge &&
    pkceChallenge P verifier method = expectedChallenge

/-- `none` is `OidcError::InvalidSigningKey`. -/
def rsaPublicJwk (keyId privateKeyPem : String) : Option Json := do
  let (modulus, exponent) ← P.rsaComponents privateKeyPem
  return .object [("use", .string "sig"), ("alg", .string "RS256"), ("kid", .string keyId),
    ("kty", .string "RSA"), ("n", .string modulus), ("e", .string exponent)]

structure IdTokenIssueRequest where
  issuer : String
  client : OidcClient
  user : User
  scopes : List String
  nonce : Option String
  authTime : Option OffsetDateTime
  amr : List String
  acr : String
  groups : Option (List String)
  signing : SigningMaterial

/-- The claims of an ID token issued at `now`. -/
def idTokenClaims (request : IdTokenIssueRequest) (now : OffsetDateTime) : IdTokenClaims where
  iss := trimEndMatches '/' request.issuer
  sub := Uuid.hyphenated request.user.id
  aud := request.client.clientId
  exp := OffsetDateTime.unixTimestamp (now + Duration.minutes 10)
  iat := OffsetDateTime.unixTimestamp now
  authTime := request.authTime.map OffsetDateTime.unixTimestamp
  nonce := request.nonce
  email := if "email" ∈ request.scopes then some request.user.email else none
  emailVerified := if "email" ∈ request.scopes then some request.user.emailVerified else none
  name := if "profile" ∈ request.scopes then some request.user.displayName else none
  amr := some request.amr
  acr := some request.acr
  groups := request.groups

/-- `none` is `OidcError::TokenSigning`. -/
def issueIdToken (request : IdTokenIssueRequest) (now : OffsetDateTime) : Option String :=
  P.encodeJwt request.signing.privateKeyPem request.signing.keyId (idTokenClaims request now)

/-- `none` is `OidcError::InvalidIdTokenHint`. -/
def validateLogoutIdTokenHintIssuer (idTokenHint issuer : String) (signing : SigningMaterial) :
    Option IdTokenClaims := do
  let header ← P.decodeHeader idTokenHint
  if header.alg ≠ "RS256" || header.kid ≠ some signing.keyId then none
  let modulus ← signing.publicJwk.text? "n"
  let exponent ← signing.publicJwk.text? "e"
  let claims ← P.decodeJwt modulus exponent idTokenHint
  if claims.iss = trimEndMatches '/' issuer then some claims else none

theorem validateLogoutIdTokenHintIssuer_eq_some {idTokenHint issuer : String}
    {signing : SigningMaterial} {claims : IdTokenClaims} :
    validateLogoutIdTokenHintIssuer P idTokenHint issuer signing = some claims ↔
      P.decodeHeader idTokenHint = some ⟨"RS256", some signing.keyId⟩ ∧
        ∃ n e, signing.publicJwk.text? "n" = some n ∧ signing.publicJwk.text? "e" = some e ∧
          P.decodeJwt n e idTokenHint = some claims ∧ claims.iss = trimEndMatches '/' issuer := by
  unfold validateLogoutIdTokenHintIssuer
  cases hheader : P.decodeHeader idTokenHint with
  | none => simp
  | some header =>
    obtain ⟨alg, kid⟩ := header
    by_cases hok : alg = "RS256" ∧ kid = some signing.keyId
    · obtain ⟨rfl, rfl⟩ := hok
      simp [Option.bind_eq_some_iff]
    · have hbad : (decide (alg ≠ "RS256") || decide (kid ≠ some signing.keyId)) = true := by
        grind
      simp only [Option.bind_eq_bind, Option.bind_some, hbad, if_true, Option.bind_none,
        Option.some.injEq, JwtHeader.mk.injEq]
      simp [hok]

def signingKeyAad (keyId : String) : String := "cairnid:oidc-signing-key:" ++ keyId ++ ":RS256"

end CairnId
