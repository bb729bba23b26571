import CairnId.Http.App
import CairnId.Http.Urlencoded

/-!
# The form decoders by index

`decode_component` of `urlencoded.rs` and `form_url_decode_component` of
`oauth_http/client_auth.rs` with their index into the bytes, which
`CairnId.Http.Urlencoded` leaves out. An access past the end of the bytes would end
the program; here it is a result of its own.

## Main definitions

- `decodeComponentAt`, `formUrlDecodeComponent` — the two decoders
-/

namespace CairnId

/-- How a decoder ends without a text. -/
inductive DecodeFailure (ε : Type) where
  | refused (e : ε)
  | outOfBounds
  deriving DecidableEq

/-- `bytes[index]` -/
def byteAt {ε : Type} (bytes : Bytes) (index : ℕ) : Except (DecodeFailure ε) UInt8 :=
  match bytes[index]? with
  | some byte => .ok byte
  | none => .error .outOfBounds

structure UrlEncodedParseError where
  deriving DecidableEq

/-- `ok_or`. -/
def okOr {ε α : Type} (e : ε) : Option α → Except (DecodeFailure ε) α
  | some a => .ok a
  | none => .error (.refused e)

section decoder

variable {ε : Type} (hex : UInt8 → Option UInt8) (refusal : ε) (bytes : Bytes)

/-- The loop of a decoder. The two decoders differ in their error only. -/
def decodeFrom (index : ℕ) (decoded : Bytes) : Except (DecodeFailure ε) Bytes := do
  if index < bytes.length then
    let byte ← byteAt bytes index
    if byte = 0x2B then
      decodeFrom (index + 1) (decoded ++ [0x20])
    else if byte = 0x25 then
      if index + 2 ≥ bytes.length then
        throw (.refused refusal)
      let high ← okOr refusal (hex (← byteAt bytes (index + 1)))
      let low ← okOr refusal (hex (← byteAt bytes (index + 2)))
      decodeFrom (index + 3) (decoded ++ [high <<< 4 ||| low])
    else
      decodeFrom (index + 1) (decoded ++ [byte])
  else return decoded
  termination_by bytes.length - index

/-- A decoder, up to `String::from_utf8`. -/
def decodeText (value : String) : Except (DecodeFailure ε) String := do
  let decoded ← decodeFrom hex refusal value.toUTF8.toList 0 []
  okOr refusal (String.fromUTF8? ⟨decoded.toArray⟩)

end decoder

/-- `decode_component` of `urlencoded.rs`. -/
def decodeComponentAt (value : String) : Except (DecodeFailure UrlEncodedParseError) String :=
  decodeText hexNibble ⟨⟩ value

/-- `hex_value` of `client_auth.rs`. -/
def hexValue (byte : UInt8) : Option UInt8 :=
  let n := byte.toNat
  if 0x30 ≤ n ∧ n ≤ 0x39 then some (.ofNat (n - 0x30))
  else if 0x61 ≤ n ∧ n ≤ 0x66 then some (.ofNat (n - 0x61 + 10))
  else if 0x41 ≤ n ∧ n ≤ 0x46 then some (.ofNat (n - 0x41 + 10))
  else none

def invalidClientAuthEncoding : ApiError :=
  .oauth 400 (.invalidRequest "invalid client authentication encoding")

def formUrlDecodeComponent (value : String) : Except (DecodeFailure ApiError) String :=
  decodeText hexValue invalidClientAuthEncoding value

end CairnId
