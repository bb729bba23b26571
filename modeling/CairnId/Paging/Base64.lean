import Mathlib.Data.List.Basic

/-!
# URL-safe base64 without padding

Groups of three bytes as four digits of six bits; the bits that a shorter last group
leaves over are zero.

## Main results

- `decode_encode` — decoding gives back what was encoded
- `length_encode`, `alphabet_encode` — the length and the characters of an encoding
-/

namespace Base64

/-- The digits are `A`–`Z`, `a`–`z`, `0`–`9`, `-` and `_`. -/
def digitChar (d : ℕ) : Char :=
  if d < 26 then Char.ofNat (0x41 + d)
  else if d < 52 then Char.ofNat (0x61 + (d - 26))
  else if d < 62 then Char.ofNat (0x30 + (d - 52))
  else if d = 62 then '-' else '_'

def InAlphabet (c : Char) : Bool :=
  ('A' ≤ c && c ≤ 'Z') || ('a' ≤ c && c ≤ 'z') || ('0' ≤ c && c ≤ '9') || c = '-' || c = '_'

def charDigit (c : Char) : Option ℕ :=
  if 'A' ≤ c ∧ c ≤ 'Z' then some (c.toNat - 0x41)
  else if 'a' ≤ c ∧ c ≤ 'z' then some (c.toNat - 0x61 + 26)
  else if '0' ≤ c ∧ c ≤ '9' then some (c.toNat - 0x30 + 52)
  else if c = '-' then some 62
  else if c = '_' then some 63
  else none

def encode : List UInt8 → List Char
  | a :: b :: c :: bytes =>
    let n := a.toNat * 65536 + b.toNat * 256 + c.toNat
    digitChar (n / 262144) :: digitChar (n / 4096 % 64) :: digitChar (n / 64 % 64) ::
      digitChar (n % 64) :: encode bytes
  | [a, b] =>
    let n := a.toNat * 1024 + b.toNat * 4
    [digitChar (n / 4096), digitChar (n / 64 % 64), digitChar (n % 64)]
  | [a] => [digitChar (a.toNat / 4), digitChar (a.toNat * 16 % 64)]
  | [] => []

def decode : List Char → Option (List UInt8)
  | c₁ :: c₂ :: c₃ :: c₄ :: cs => do
    let n := (← charDigit c₁) * 262144 + (← charDigit c₂) * 4096 + (← charDigit c₃) * 64 +
      (← charDigit c₄)
    return .ofNat (n / 65536) :: .ofNat (n / 256 % 256) :: .ofNat (n % 256) :: (← decode cs)
  | [c₁, c₂, c₃] => do
    let n := (← charDigit c₁) * 4096 + (← charDigit c₂) * 64 + (← charDigit c₃)
    if n % 4 = 0 then some [.ofNat (n / 1024), .ofNat (n / 4 % 256)] else none
  | [c₁, c₂] => do
    let n := (← charDigit c₁) * 64 + (← charDigit c₂)
    if n % 16 = 0 then some [.ofNat (n / 16)] else none
  | [_] => none
  | [] => some []

theorem charDigit_digitChar {d : ℕ} (h : d < 64) : charDigit (digitChar d) = some d := by
  have hall : ∀ d < 64, charDigit (digitChar d) = some d := by decide
  exact hall d h

theorem alphabet_digitChar {d : ℕ} (h : d < 64) : InAlphabet (digitChar d) = true := by
  have hall : ∀ d < 64, InAlphabet (digitChar d) = true := by decide
  exact hall d h

theorem ofNat_eq {n : ℕ} {a : UInt8} (h : n = a.toNat) : UInt8.ofNat n = a := by
  rw [h, UInt8.ofNat_toNat]

/-- **Round trip**. -/
theorem decode_encode (bytes : List UInt8) : decode (encode bytes) = some bytes := by
  fun_induction encode bytes with
  | case1 a b c bytes n ih =>
    have ha := a.toNat_lt
    have hb := b.toNat_lt
    have hc := c.toNat_lt
    rw [decode, charDigit_digitChar (by omega), charDigit_digitChar (by omega),
      charDigit_digitChar (by omega), charDigit_digitChar (by omega), ih]
    have hn : n / 262144 * 262144 + n / 4096 % 64 * 4096 + n / 64 % 64 * 64 + n % 64 = n := by omega
    simp only [Option.bind_eq_bind, Option.bind_some, hn, Option.pure_def]
    rw [ofNat_eq (a := a) (by omega), ofNat_eq (a := b) (by omega), ofNat_eq (a := c) (by omega)]
  | case2 a b n =>
    have ha := a.toNat_lt
    have hb := b.toNat_lt
    rw [decode, charDigit_digitChar (by omega), charDigit_digitChar (by omega),
      charDigit_digitChar (by omega)]
    have hn : n / 4096 * 4096 + n / 64 % 64 * 64 + n % 64 = n := by omega
    simp only [Option.bind_eq_bind, Option.bind_some, hn]
    rw [if_pos (by omega), ofNat_eq (a := a) (by omega), ofNat_eq (a := b) (by omega)]
  | case3 a =>
    have ha := a.toNat_lt
    rw [decode, charDigit_digitChar (by omega), charDigit_digitChar (by omega)]
    have hn : a.toNat / 4 * 64 + a.toNat * 16 % 64 = a.toNat * 16 := by omega
    simp only [Option.bind_eq_bind, Option.bind_some, hn]
    rw [if_pos (by omega), ofNat_eq (a := a) (by omega)]
  | case4 => rfl

theorem length_encode (bytes : List UInt8) :
    3 * (encode bytes).length ≤ 4 * bytes.length + 2 := by
  fun_induction encode bytes with
  | case1 a b c bytes n ih =>
    simp only [List.length_cons]
    omega
  | case2 | case3 | case4 => simp

theorem encode_ne_nil {bytes : List UInt8} (h : bytes ≠ []) : encode bytes ≠ [] := by
  fun_cases encode bytes with
  | case1 | case2 | case3 => exact List.cons_ne_nil _ _
  | case4 => exact absurd rfl h

theorem alphabet_encode (bytes : List UInt8) : ∀ c ∈ encode bytes, InAlphabet c = true := by
  fun_induction encode bytes with
  | case1 a b c bytes n ih =>
    have ha := a.toNat_lt
    have hb := b.toNat_lt
    have hc := c.toNat_lt
    simp only [List.forall_mem_cons]
    exact ⟨alphabet_digitChar (by omega), alphabet_digitChar (by omega),
      alphabet_digitChar (by omega), alphabet_digitChar (by omega), ih⟩
  | case2 a b n =>
    have ha := a.toNat_lt
    have hb := b.toNat_lt
    simp only [List.forall_mem_cons]
    exact ⟨alphabet_digitChar (by omega), alphabet_digitChar (by omega),
      alphabet_digitChar (by omega), by simp⟩
  | case3 a =>
    have ha := a.toNat_lt
    simp only [List.forall_mem_cons]
    exact ⟨alphabet_digitChar (by omega), alphabet_digitChar (by omega), by simp⟩
  | case4 => simp

end Base64
