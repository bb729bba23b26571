import CairnId.Validation

/-!
# URL-encoded forms

`urlencoded.rs` and the content type of a form. The encoder is
`percentEncodeMinimal`.
-/

namespace CairnId

/-- `str::split_once`, on lists of characters. -/
def splitOnceChars (sep : Char) (cs : List Char) : Option (List Char × List Char) :=
  match cs.dropWhile (· ≠ sep) with
  | _ :: rest => some (cs.takeWhile (· ≠ sep), rest)
  | [] => none

def hexNibble (byte : UInt8) : Option UInt8 :=
  let n := byte.toNat
  if 0x30 ≤ n ∧ n ≤ 0x39 then some (.ofNat (n - 0x30))
  else if 0x61 ≤ n ∧ n ≤ 0x66 then some (.ofNat (n - 0x61 + 10))
  else if 0x41 ≤ n ∧ n ≤ 0x46 then some (.ofNat (n - 0x41 + 10))
  else none

/-- The loop of `decode_component`: `+` is a blank and `%XX` a byte. -/
def decodeBytes : Bytes → Option Bytes
  | [] => some []
  | 0x25 :: high :: low :: bytes => do
    let high ← hexNibble high
    let low ← hexNibble low
    return (high <<< 4 ||| low) :: (← decodeBytes bytes)
  | 0x25 :: _ => none
  | 0x2B :: bytes => do return 0x20 :: (← decodeBytes bytes)
  | byte :: bytes => do return byte :: (← decodeBytes bytes)

def decodeComponent (value : String) : Option String := do
  String.fromUTF8? ⟨(← decodeBytes value.toUTF8.toList).toArray⟩

/-- One `name=value`; the value is empty without a `=`. -/
def parseUrlEncodedPair (pair : List Char) : Option (String × String) := do
  let (name, value) := (splitOnceChars '=' pair).getD (pair, [])
  return (← decodeComponent (.ofList name), ← decodeComponent (.ofList value))

def parseUrlEncodedPairs (input : String) : Option (List (String × String)) :=
  if input.isEmpty then some [] else (splitChars '&' input.toList).mapM parseUrlEncodedPair

def requestMediaType (contentType : Option String) : Option String :=
  contentType.map fun value => trim
    (((splitOnceChars ';' value.toList).map fun parts => String.ofList parts.1).getD value)

def requestHasUrlencodedContentType (contentType : Option String) : Bool :=
  (requestMediaType contentType).any (eqIgnoreAsciiCase · "application/x-www-form-urlencoded")

end CairnId
