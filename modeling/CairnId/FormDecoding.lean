import CairnId.Http.ClientAuth
import CairnId.Http.UrlencodedSpec

/-!
# One form decoder, inverse to the encoder

The two decoders of the source walk bytes by index. Neither leaves the bytes, both
compute what `decodeBytes` computes, and what that is is said by a relation.

## Main definitions

- `Decodes` — the bytes that a text stands for
- `BadEscape` — a `%` without two hexadecimal digits behind it

## Main results

- `decodeFrom_eq` — the loop by index is the recursion
- `form_decoders` — the two decoders and the encoder
-/

namespace CairnId

-- what a text stands for

/-- The value of a hexadecimal digit. -/
inductive HexDigit : UInt8 → ℕ → Prop
  | digit {byte : UInt8} (h : 0x30 ≤ byte.toNat) (h' : byte.toNat ≤ 0x39) :
    HexDigit byte (byte.toNat - 0x30)
  | lower {byte : UInt8} (h : 0x61 ≤ byte.toNat) (h' : byte.toNat ≤ 0x66) :
    HexDigit byte (byte.toNat - 0x61 + 10)
  | upper {byte : UInt8} (h : 0x41 ≤ byte.toNat) (h' : byte.toNat ≤ 0x46) :
    HexDigit byte (byte.toNat - 0x41 + 10)

/-- The bytes that the bytes of a form stand for. -/
inductive Decodes : Bytes → Bytes → Prop
  | nil : Decodes [] []
  | plus {bytes decoded : Bytes} : Decodes bytes decoded →
    Decodes (0x2B :: bytes) (0x20 :: decoded)
  | escape {high low : UInt8} {h l : ℕ} {bytes decoded : Bytes} : HexDigit high h →
    HexDigit low l → Decodes bytes decoded →
    Decodes (0x25 :: high :: low :: bytes) (.ofNat (16 * h + l) :: decoded)
  | byte {byte : UInt8} {bytes decoded : Bytes} : byte ≠ 0x25 → byte ≠ 0x2B →
    Decodes bytes decoded → Decodes (byte :: bytes) (byte :: decoded)

/-- Some `%` is not followed by two hexadecimal digits. -/
def BadEscape (bytes : Bytes) : Prop :=
  ∃ before after, bytes = before ++ 0x25 :: after ∧
    ¬∃ high low rest h l, after = high :: low :: rest ∧ HexDigit high h ∧ HexDigit low l

theorem hexNibble_eq_some {byte value : UInt8} :
    hexNibble byte = some value ↔ ∃ n, HexDigit byte n ∧ value = .ofNat n := by
  constructor
  · intro h
    unfold hexNibble at h
    dsimp only at h
    split at h
    case isTrue hrange => exact ⟨_, .digit hrange.1 hrange.2, (Option.some.inj h).symm⟩
    split at h
    case isTrue hrange => exact ⟨_, .lower hrange.1 hrange.2, (Option.some.inj h).symm⟩
    split at h
    case isTrue hrange => exact ⟨_, .upper hrange.1 hrange.2, (Option.some.inj h).symm⟩
    cases h
  · rintro ⟨n, hn, rfl⟩
    unfold hexNibble
    dsimp only
    cases hn with
    | digit h h' => rw [if_pos ⟨h, h'⟩]
    | lower h h' => rw [if_neg (by omega), if_pos ⟨h, h'⟩]
    | upper h h' => rw [if_neg (by omega), if_neg (by omega), if_pos ⟨h, h'⟩]

theorem HexDigit.lt {byte : UInt8} {n : ℕ} (h : HexDigit byte n) : n < 16 := by
  cases h <;> omega

theorem HexDigit.ne_percent {byte : UInt8} {n : ℕ} (h : HexDigit byte n) : byte ≠ 0x25 := by
  rintro rfl
  have hvalue : (0x25 : UInt8).toNat = 37 := rfl
  cases h <;> omega

theorem escape_value {high low : UInt8} {h l : ℕ} (hh : HexDigit high h) (hl : HexDigit low l) :
    (UInt8.ofNat h <<< 4 ||| UInt8.ofNat l) = .ofNat (16 * h + l) := by
  have hall : ∀ h < 16, ∀ l < 16, (UInt8.ofNat h <<< 4 ||| UInt8.ofNat l) = .ofNat (16 * h + l) := by
    decide
  exact hall h hh.lt l hl.lt

theorem decodeBytes_of_decodes {bytes decoded : Bytes} (h : Decodes bytes decoded) :
    decodeBytes bytes = some decoded := by
  induction h with
  | nil => rfl
  | plus h ih =>
    rw [decodeBytes, ih]
    rfl
  | escape hh hl h ih =>
    rw [decodeBytes_percent (hexNibble_eq_some.mpr ⟨_, hh, rfl⟩)
      (hexNibble_eq_some.mpr ⟨_, hl, rfl⟩), ih, escape_value hh hl]
    rfl
  | byte hpercent hplus h ih =>
    rw [decodeBytes_cons hpercent hplus, ih]
    rfl

theorem badEscape_cons {byte : UInt8} {bytes : Bytes} (h : byte ≠ 0x25) :
    BadEscape (byte :: bytes) ↔ BadEscape bytes := by
  constructor
  · rintro ⟨before, after, hsplit, hbad⟩
    cases before with
    | nil => exact absurd (List.cons.inj hsplit).1 h
    | cons b before => exact ⟨before, after, (List.cons.inj hsplit).2, hbad⟩
  · rintro ⟨before, after, rfl, hbad⟩
    exact ⟨byte :: before, after, rfl, hbad⟩

theorem badEscape_escape {high low : UInt8} {h l : ℕ} {bytes : Bytes} (hh : HexDigit high h)
    (hl : HexDigit low l) : BadEscape (0x25 :: high :: low :: bytes) ↔ BadEscape bytes := by
  rw [← @badEscape_cons _ bytes hl.ne_percent,
    ← @badEscape_cons _ (low :: bytes) hh.ne_percent]
  constructor
  · rintro ⟨before, after, hsplit, hbad⟩
    cases before with
    | nil =>
      obtain ⟨-, rfl⟩ := List.cons.inj hsplit
      exact absurd ⟨high, low, bytes, h, l, rfl, hh, hl⟩ hbad
    | cons b before => exact ⟨before, after, (List.cons.inj hsplit).2, hbad⟩
  · rintro ⟨before, after, hsplit, hbad⟩
    exact ⟨0x25 :: before, after, by rw [hsplit]; rfl, hbad⟩

/-- What stands for bytes has no broken escape. -/
theorem Decodes.not_badEscape {bytes decoded : Bytes} (h : Decodes bytes decoded) :
    ¬BadEscape bytes := by
  induction h with
  | nil => exact fun ⟨before, after, hsplit, _⟩ => by simp at hsplit
  | plus h ih => rwa [badEscape_cons (by decide)]
  | escape hh hl h ih => rwa [badEscape_escape hh hl]
  | byte hpercent hplus h ih => rwa [badEscape_cons hpercent]

/-- Bytes stand for something unless an escape is broken. -/
theorem decodes_or_badEscape (bytes : Bytes) : (∃ decoded, Decodes bytes decoded) ∨ BadEscape bytes := by
  induction hn : bytes.length using Nat.strong_induction_on generalizing bytes with
  | h n ih =>
    match bytes with
    | [] => exact .inl ⟨_, .nil⟩
    | byte :: rest =>
      simp only [List.length_cons] at hn
      by_cases hpercent : byte = 0x25
      · subst hpercent
        by_cases hescape : ∃ high low rest' h l, rest = high :: low :: rest' ∧ HexDigit high h ∧
            HexDigit low l
        · obtain ⟨high, low, rest', h, l, rfl, hh, hl⟩ := hescape
          simp only [List.length_cons] at hn
          refine (ih rest'.length (by omega) rest' rfl).imp (fun ⟨decoded, hdecoded⟩ => ?_)
            (badEscape_escape hh hl).mpr
          exact ⟨_, .escape hh hl hdecoded⟩
        · exact .inr ⟨[], rest, rfl, hescape⟩
      · refine (ih rest.length (by omega) rest rfl).imp (fun ⟨decoded, hdecoded⟩ => ?_)
          (badEscape_cons hpercent).mpr
        by_cases hplus : byte = 0x2B
        · subst hplus
          exact ⟨_, .plus hdecoded⟩
        · exact ⟨_, .byte hpercent hplus hdecoded⟩

theorem decodeBytes_plus (bytes : Bytes) :
    decodeBytes (0x2B :: bytes) = (decodeBytes bytes).map (0x20 :: ·) := by
  rw [decodeBytes]
  cases decodeBytes bytes <;> rfl

theorem decodeBytes_of_badEscape {bytes : Bytes} (h : BadEscape bytes) : decodeBytes bytes = none := by
  induction hn : bytes.length using Nat.strong_induction_on generalizing bytes with
  | h n ih =>
    match bytes with
    | [] =>
      obtain ⟨before, after, hsplit, -⟩ := h
      simp at hsplit
    | byte :: rest =>
      simp only [List.length_cons] at hn
      by_cases hpercent : byte = 0x25
      · subst hpercent
        match rest with
        | [] => rfl
        | [_] => rfl
        | high :: low :: rest' =>
          simp only [List.length_cons] at hn
          rw [decodeBytes]
          cases hhigh : hexNibble high with
          | none => rfl
          | some value =>
            cases hlow : hexNibble low with
            | none => rfl
            | some value' =>
              obtain ⟨h₁, hh, -⟩ := hexNibble_eq_some.mp hhigh
              obtain ⟨l, hl, -⟩ := hexNibble_eq_some.mp hlow
              have hrest := ih rest'.length (by omega) ((badEscape_escape hh hl).mp h) rfl
              rw [hrest]
              rfl
      · have hrest := ih rest.length (by omega) ((badEscape_cons hpercent).mp h) rfl
        by_cases hplus : byte = 0x2B
        · subst hplus
          rw [decodeBytes_plus, hrest, Option.map_none]
        · rw [decodeBytes_cons hpercent hplus, hrest, Option.map_none]

theorem decodeBytes_eq_some {bytes decoded : Bytes} :
    decodeBytes bytes = some decoded ↔ Decodes bytes decoded := by
  refine ⟨fun h => ?_, decodeBytes_of_decodes⟩
  rcases decodes_or_badEscape bytes with ⟨decoded', hdecoded⟩ | hbad
  · have hsame := (decodeBytes_of_decodes hdecoded).symm.trans h
    rwa [← Option.some.inj hsame]
  · rw [decodeBytes_of_badEscape hbad] at h
    cases h

theorem decodeBytes_eq_none {bytes : Bytes} : decodeBytes bytes = none ↔ BadEscape bytes := by
  refine ⟨fun h => ?_, decodeBytes_of_badEscape⟩
  rcases decodes_or_badEscape bytes with ⟨decoded, hdecoded⟩ | hbad
  · rw [decodeBytes_of_decodes hdecoded] at h
    cases h
  · exact hbad

-- the loop by index

theorem byteAt_of_lt {ε : Type} {bytes : Bytes} {index : ℕ} (h : index < bytes.length) :
    (byteAt bytes index : Except (DecodeFailure ε) UInt8) = .ok bytes[index] := by
  rw [byteAt, List.getElem?_eq_getElem h]

/-- The loop by index is the recursion, and no access leaves the bytes. -/
theorem decodeFrom_eq {ε : Type} (refusal : ε) (bytes : Bytes) (index : ℕ) (decoded : Bytes) :
    decodeFrom hexNibble refusal bytes index decoded =
      okOr refusal ((decodeBytes (bytes.drop index)).map (decoded ++ ·)) := by
  induction hn : bytes.length - index using Nat.strong_induction_on generalizing index decoded with
  | h n ih =>
    rw [decodeFrom]
    by_cases hlt : index < bytes.length
    · have hdrop : bytes.drop index = bytes[index] :: bytes.drop (index + 1) :=
        List.drop_eq_getElem_cons hlt
      -- what was decoded before stands in front of what is decoded later
      have later (byte : UInt8) (rest : Option Bytes) :
          okOr refusal (rest.map (decoded ++ [byte] ++ ·)) =
            okOr refusal ((rest.map (byte :: ·)).map (decoded ++ ·)) := by
        cases rest <;> simp
      rw [if_pos hlt, byteAt_of_lt hlt, hdrop]
      show (if bytes[index] = 0x2B then _ else _) = _
      by_cases hplus : bytes[index] = 0x2B
      · rw [if_pos hplus, ih _ (by omega) (index + 1) _ rfl, hplus, decodeBytes_plus, later]
      · rw [if_neg hplus]
        by_cases hpercent : bytes[index] = 0x25
        · rw [if_pos hpercent, hpercent]
          by_cases hshort : index + 2 ≥ bytes.length
          · have hrest : (bytes.drop (index + 1)).length < 2 := by
              rw [List.length_drop]
              omega
            have hnone : decodeBytes (0x25 :: bytes.drop (index + 1)) = none := by
              match bytes.drop (index + 1), hrest with
              | [], _ => rfl
              | [_], _ => rfl
            rw [hnone, if_pos hshort]
            rfl
          · have hrest : bytes.drop (index + 1) =
                bytes[index + 1] :: bytes[index + 2] :: bytes.drop (index + 3) := by
              rw [List.drop_eq_getElem_cons (by omega : index + 1 < bytes.length),
                List.drop_eq_getElem_cons (by omega : index + 1 + 1 < bytes.length)]
            rw [if_neg hshort, byteAt_of_lt (by omega : index + 1 < bytes.length),
              byteAt_of_lt (by omega : index + 2 < bytes.length), hrest, decodeBytes]
            show ((okOr refusal (hexNibble bytes[index + 1])).bind fun high =>
              (okOr refusal (hexNibble bytes[index + 2])).bind fun low =>
                decodeFrom hexNibble refusal bytes (index + 3)
                  (decoded ++ [high <<< 4 ||| low])) = _
            cases hexNibble bytes[index + 1] with
            | none => rfl
            | some high =>
              cases hexNibble bytes[index + 2] with
              | none => rfl
              | some low =>
                show decodeFrom hexNibble refusal bytes (index + 3) _ = _
                rw [ih _ (by omega) (index + 3) _ rfl, later]
                cases decodeBytes (bytes.drop (index + 3)) <;> rfl
        · rw [if_neg hpercent, ih _ (by omega) (index + 1) _ rfl,
            decodeBytes_cons hpercent hplus, later]
    · rw [if_neg hlt, List.drop_of_length_le (by omega)]
      show Except.ok decoded = Except.ok (decoded ++ [])
      rw [List.append_nil]

theorem hexValue_eq : hexValue = hexNibble := rfl

theorem decodeText_eq {ε : Type} (refusal : ε) (value : String) :
    decodeText hexNibble refusal value = okOr refusal (decodeComponent value) := by
  rw [decodeText, decodeFrom_eq, List.drop_zero, decodeComponent]
  cases decodeBytes value.toUTF8.toList with
  | none => rfl
  | some decoded => rfl

/-- A text is refused when an escape in it is broken or what it stands for is no
    UTF-8. -/
theorem decodeComponent_eq_none (value : String) :
    decodeComponent value = none ↔ BadEscape value.toUTF8.toList ∨
      ∃ decoded : Bytes, Decodes value.toUTF8.toList decoded ∧
        ¬ByteArray.IsValidUTF8 ⟨decoded.toArray⟩ := by
  have hutf8 (decoded : Bytes) : String.fromUTF8? ⟨decoded.toArray⟩ = none ↔
      ¬ByteArray.IsValidUTF8 ⟨decoded.toArray⟩ := by
    unfold String.fromUTF8?
    split <;> simp [*]
  constructor
  · intro h
    cases hbytes : decodeBytes value.toUTF8.toList with
    | none => exact .inl (decodeBytes_eq_none.mp hbytes)
    | some decoded =>
      rw [decodeComponent, hbytes] at h
      exact .inr ⟨decoded, decodeBytes_eq_some.mp hbytes, (hutf8 decoded).mp h⟩
  · rintro (hbad | ⟨decoded, hdecoded, hinvalid⟩)
    · rw [decodeComponent, decodeBytes_eq_none.mpr hbad]
      rfl
    · rw [decodeComponent, decodeBytes_eq_some.mpr hdecoded]
      exact (hutf8 decoded).mpr hinvalid

/-- **The two decoders are one function** that refuses a text exactly when an escape
    in it is broken or what it stands for is no UTF-8, and the encoder's inverse. -/
theorem form_decoders :
    (∀ value : String,
      ((∃ text, decodeComponentAt value = .ok text ∧ formUrlDecodeComponent value = .ok text ∧
          decodeComponent value = some text) ∨
        (decodeComponentAt value = .error (.refused ⟨⟩) ∧
          formUrlDecodeComponent value = .error (.refused invalidClientAuthEncoding) ∧
          decodeComponent value = none)) ∧
      (decodeComponent value = none ↔ BadEscape value.toUTF8.toList ∨
        ∃ decoded : Bytes, Decodes value.toUTF8.toList decoded ∧
          ¬ByteArray.IsValidUTF8 ⟨decoded.toArray⟩)) ∧
    ∀ pairs : List (String × String), pairs ≠ [] →
      parseUrlEncodedPairs ("&".intercalate (pairs.map fun pair =>
        percentEncodeMinimal pair.1 ++ "=" ++ percentEncodeMinimal pair.2)) = some pairs := by
  refine ⟨fun value => ⟨?_, ?_⟩, fun pairs hpairs => ?_⟩
  · have hform : formUrlDecodeComponent value =
        okOr invalidClientAuthEncoding (decodeComponent value) := decodeText_eq _ value
    rw [decodeComponentAt, decodeText_eq, hform]
    cases decodeComponent value with
    | none => exact .inr ⟨rfl, rfl, rfl⟩
    | some text => exact .inl ⟨text, rfl, rfl, rfl⟩
  · exact decodeComponent_eq_none value
  · have hparse := parseUrlEncodedPairs_of_ne_nil (intercalate_encodePair_ne_nil hpairs)
    exact hparse.trans (parsePairs_intercalate hpairs)

/-- Two pairs with every kind of separator in them. -/
theorem form_decoders_separators :
    parseUrlEncodedPairs ("&".intercalate ([("a=b", "c&d"), ("", "100 %+é")].map fun pair =>
      percentEncodeMinimal pair.1 ++ "=" ++ percentEncodeMinimal pair.2)) =
      some [("a=b", "c&d"), ("", "100 %+é")] :=
  form_decoders.2 _ (List.cons_ne_nil _ _)

end CairnId
