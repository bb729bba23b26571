import Mathlib.Algebra.GroupWithZero.Nat
import CairnId.Http.Introspection
import CairnId.Text.Search

/-!
# Failures of release evidence

`operations_evidence/redaction.rs`: what counts as a credential in the text of an
artifact, and how the text of a failure is sanitised before it is reported. Texts are
lists of characters; every pattern is in ASCII, so a byte index is a character index.
-/

namespace CairnId

open Search

abbrev Text := List Char

def lowerText (value : Text) : Text := value.map toAsciiLowercase

/-- `str::len`. -/
def byteLength (value : Text) : ℕ := (value.map Char.utf8Size).sum

/-- A quotation mark or an apostrophe. -/
def isQuote (c : Char) : Bool := c = '\x22' || c = '\x27'

/-- `str::trim_matches`. -/
def trimText (drops : Char → Bool) (value : Text) : Text :=
  ((value.dropWhile drops).reverse.dropWhile drops).reverse

-- what counts as a credential

def credentialValueFragment (value : Text) : Text :=
  (value.dropWhile fun c => isAsciiWhitespace c || isQuote c).takeWhile fun c =>
    !(isAsciiWhitespace c || isQuote c || c = ',' || c = ';' || c = '}' || c = ']')

def placeholderValues : List String :=
  ["token", "bearer-token", "raw-token", "secret", "client-secret", "password", "value", "example",
    "example-token", "old-token", "new-token", "old-or-new-token-during-rotation",
    "old-or-invalid-token"]

def credentialValueIsPlaceholder (value : Text) : Bool :=
  let value := trimText isQuote (trimText isWhiteSpace value)
  let lower := lowerText value
  value.isEmpty ||
    (lower.head? = some '<' && lower.getLast? = some '>') ||
    (['$', '{'] <+: lower && lower.getLast? = some '}') ||
    (lower.head? = some '%' && lower.getLast? = some '%') ||
    "placeholder".toList <:+: lower || "redacted".toList <:+: lower ||
    value.all (· = '*') ||
    placeholderValues.any (·.toList = lower)

/-- The texts behind the occurrences of `bearer` that `contains_raw_bearer_value` looks
    at, from a position on. -/
def bearerCandidates (before : Text) : Text → List Text
  | [] => []
  | c :: rest =>
    let here := match (c :: rest).drop 6 with
      | [] => []
      | after :: more =>
        if "bearer".toList <+: lowerText (c :: rest) ∧ isAsciiWhitespace after ∧
            (before.all isWhiteSpace ∨ "authorization".toList <:+: lowerText before) then
          [credentialValueFragment (after :: more)]
        else []
    here ++ bearerCandidates (before ++ [c]) rest

def containsRawBearerValue (value : Text) : Bool :=
  (bearerCandidates [] value).any fun candidate => !credentialValueIsPlaceholder candidate

def isAssignmentKeyCharacter (c : Char) : Bool :=
  isAsciiAlphanumeric c || c = '_' || c = '-' || c = ':' || c = '$'

def assignmentKeyBefore (before : Text) : Text :=
  trimText isWhiteSpace (before.reverse.takeWhile isAssignmentKeyCharacter).reverse

def isSensitiveAssignmentKey (key : Text) : Bool :=
  let normalizedKey := lowerText (key.filter isAsciiAlphanumeric)
  ["clientsecret", "password", "secret", "token"].any fun name =>
    name.toList = normalizedKey || name.toList <:+ normalizedKey

/-- The values behind `=` and a sensitive key, from a position on. -/
def assignmentCandidates (before : Text) : Text → List Text
  | [] => []
  | c :: rest =>
    (if c = '=' ∧ isSensitiveAssignmentKey (assignmentKeyBefore before) then
      [credentialValueFragment rest] else []) ++ assignmentCandidates (before ++ [c]) rest

def containsSensitiveAssignmentValue (value : Text) : Bool :=
  (assignmentCandidates [] value).any fun candidate => !credentialValueIsPlaceholder candidate

def isCredentialShapedTokenFreeValue (value : Text) : Bool :=
  containsRawBearerValue value || containsSensitiveAssignmentValue value

-- the failures

def redactCaseInsensitiveSuffix (value needle : Text) : Text :=
  match indexOf needle (lowerText value) with
  | none => value
  | some index =>
    let «end» := index + needle.length
    value.take index ++ (value.take «end»).drop index ++ "<redacted>".toList

def secretValueMarkers : List String :=
  ["access_token", "api_key", "apikey", "authorization:", "client_secret", "cookie:", "id_token",
    "password=", "private_key", "providercredential", "rawtoken", "refresh_token", "secret=",
    "token="]

def maxFailureLength : ℕ := 512

def sanitizeReleaseEvidenceFailure (failure : Text) : Text :=
  if "must not be present in token-free".toList <:+: failure then failure
  else
    let redactedBearer := redactCaseInsensitiveSuffix failure "bearer ".toList
    if redactedBearer ≠ failure then redactedBearer
    else
      let lower := lowerText failure
      let echoed := (indexOf "got ".toList lower).filter fun index =>
        secretValueMarkers.any fun marker => marker.toList <:+: lower.drop (index + 4)
      match echoed with
      | some index => failure.take index ++ "got <redacted>".toList
      | none =>
        if maxFailureLength < byteLength failure then
          failure.take maxFailureLength ++ "... <truncated>".toList
        else failure

end CairnId
