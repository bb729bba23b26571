import CairnId.Codes
import CairnId.Database.Listings
import CairnId.Http.Authorize
import CairnId.Http.ScimBulkOrder
import CairnId.Http.UrlencodedSpec
import CairnId.Paging.Base64

/-!
# Pages of a list

`admin_query/pagination.rs`: the page that a list endpoint answers with, and the text
form of its cursor.

## Main definitions

- `encodeAdminListCursor`, `decodeListCursor` — the text form of a cursor
- `listPage` — a page with the cursor of the next
- `IsDateTime` — the instants that an `OffsetDateTime` can be

## Main results

- `decodeListCursor_encode` — decoding gives back what was encoded
-/

namespace CairnId

open Concurrency Concurrency.Sql Database

structure ListPage (α : Type) where
  items : List α
  nextCursor : Option String

/-- From the first second of the year -9999 to the last of the year 9999. -/
def IsDateTime (t : OffsetDateTime) : Prop :=
  Duration.seconds (-377705116800) ≤ t ∧ t < Duration.seconds 253402300800

instance (t : OffsetDateTime) : Decidable (IsDateTime t) := inferInstanceAs (Decidable (_ ∧ _))

def unixTimestampNanos (t : OffsetDateTime) : Int := t * 1000

def fromUnixTimestampNanos (nanos : Int) : Option OffsetDateTime :=
  let t := nanos.fdiv 1000
  if IsDateTime t then some t else none

/-- From -2¹²⁷ to 2¹²⁷ - 1. -/
def IsI128 (n : Int) : Prop :=
  -170141183460469231731687303715884105728 ≤ n ∧ n < 170141183460469231731687303715884105728

instance (n : Int) : Decidable (IsI128 n) := inferInstanceAs (Decidable (_ ∧ _))

/-- A decimal number with an optional sign. -/
def parseSigned (value : List Char) : Option Int :=
  let (negative, digits) := match value with
    | '-' :: digits => (true, digits)
    | '+' :: digits => (false, digits)
    | digits => (false, digits)
  if digits.isEmpty then none
  else (parseDigits 0 digits).map fun n => if negative then -(n : Int) else n

/-- `str::parse::<i128>`. -/
def parseI128 (value : List Char) : Option Int := (parseSigned value).filter fun n => IsI128 n

/-- `URL_SAFE_NO_PAD` of the bytes of `nanoseconds.id`. -/
def encodeAdminListCursor (cursor : ListCursor) : String :=
  let payload := toString (unixTimestampNanos cursor.createdAt) ++ "." ++
    Uuid.hyphenated cursor.tieBreakerId
  String.ofList (Base64.encode payload.toByteArray.data.toList)

section codec

variable (P : Primitives)

def decodeListCursor (value invalidCursorMessage : String) : Except ApiError ListCursor :=
  if value.isEmpty ∨ 128 < value.utf8ByteSize ∨ ¬ value.toList.all Base64.InAlphabet then
    .error (.badRequest invalidCursorMessage)
  else
    let decoded := (Base64.decode value.toList).bind fun bytes =>
      String.fromUTF8? ⟨bytes.toArray⟩
    match decoded.bind fun text => splitOnceChars '.' text.toList with
    | none => .error (.badRequest invalidCursorMessage)
    | some (createdAt, tieBreakerId) =>
      match (parseI128 createdAt).bind fromUnixTimestampNanos with
      | none => .error (.badRequest invalidCursorMessage)
      | some createdAt => match P.parseUuid (String.ofList tieBreakerId) with
        | none => .error (.badRequest invalidCursorMessage)
        | some tieBreakerId => .ok ⟨createdAt, tieBreakerId⟩

end codec

def listPage {α : Type} (rows : List α) (limit : Int) (cursorForItem : α → ListCursor) :
    ListPage α :=
  let limit := limit.toNat
  let hasMore := limit < rows.length
  let rows := if hasMore then rows.take limit else rows
  ⟨rows, if hasMore then (rows.getLast?.map cursorForItem).map encodeAdminListCursor else none⟩

-- numbers

theorem parseDigits_of_isDigit {l : List Char} (h : ∀ c ∈ l, c.isDigit = true) (n : ℕ) :
    parseDigits n l = some (Nat.ofDigitChars 10 l n) := by
  induction l generalizing n with
  | nil => rfl
  | cons c l ih =>
    rw [parseDigits, if_pos (h c (.head _)), ih fun c' hc' => h c' (.tail _ hc'),
      Nat.ofDigitChars_cons, Nat.mul_comm]

theorem isDigit_toDigits (n : ℕ) : ∀ c ∈ Nat.toDigits 10 n, c.isDigit = true :=
  fun _ hc => Nat.isDigit_of_mem_toDigits (by decide) (by decide) hc

theorem parseDigits_toDigits (n : ℕ) : parseDigits 0 (Nat.toDigits 10 n) = some n := by
  rw [parseDigits_of_isDigit (isDigit_toDigits n), Nat.ofDigitChars_ten_toDigits]

theorem toString_ofNat (n : ℕ) : (toString (n : Int)).toList = Nat.toDigits 10 n :=
  Nat.toList_repr

theorem toString_negSucc (n : ℕ) :
    (toString (Int.negSucc n)).toList = '-' :: Nat.toDigits 10 (n + 1) := by
  change ("-" ++ Nat.repr (n + 1)).toList = _
  rw [String.toList_append, Nat.toList_repr]
  rfl

/-- A decimal number is read back. -/
theorem parseSigned_toString (n : Int) : parseSigned (toString n).toList = some n := by
  have hempty : ∀ m, (Nat.toDigits 10 m).isEmpty = false := fun m =>
    List.isEmpty_eq_false_iff.mpr Nat.toDigits_ne_nil
  cases n with
  | ofNat m =>
    have hhead : ∀ c rest, Nat.toDigits 10 m = c :: rest → c.isDigit = true := fun c rest hm =>
      isDigit_toDigits m c (hm ▸ .head _)
    rw [Int.ofNat_eq_natCast, toString_ofNat]
    unfold parseSigned
    split
    rename_i negative digits hsign
    split at hsign
    · exact absurd (hhead _ _ ‹_›) (by decide)
    · exact absurd (hhead _ _ ‹_›) (by decide)
    · cases hsign
      simp [hempty, parseDigits_toDigits]
  | negSucc m =>
    rw [toString_negSucc]
    simp [parseSigned, hempty, parseDigits_toDigits, Int.negSucc_eq]

theorem parseI128_toString {n : Int} (h : IsI128 n) : parseI128 (toString n).toList = some n := by
  rw [parseI128, parseSigned_toString, Option.filter_some, if_pos (decide_eq_true h)]

-- the text form of a cursor

theorem fromUnixTimestampNanos_unixTimestampNanos {t : OffsetDateTime} (h : IsDateTime t) :
    fromUnixTimestampNanos (unixTimestampNanos t) = some t := by
  have hdiv : (t * 1000).fdiv 1000 = t := Int.mul_fdiv_cancel t (by decide)
  rw [fromUnixTimestampNanos, unixTimestampNanos]
  simp only [hdiv, if_pos h]

/-- A number of at most 21 digits has at most 22 characters. -/
theorem length_toString_le {n : Int} (hlower : -10 ^ 21 < n) (hupper : n < 10 ^ 21) :
    (toString n).length ≤ 22 := by
  have hdigits : ∀ m : ℕ, m < 10 ^ 21 → (Nat.toDigits 10 m).length ≤ 21 := fun m =>
    (Nat.length_toDigits_le_iff (by decide) (by decide)).mpr
  rw [← String.length_toList]
  cases n with
  | ofNat m =>
    rw [Int.ofNat_eq_natCast, toString_ofNat]
    have := hdigits m (by simp only [Int.ofNat_eq_natCast] at hupper; omega)
    omega
  | negSucc m =>
    rw [toString_negSucc, List.length_cons]
    have := hdigits (m + 1) (by simp only [Int.negSucc_eq] at hlower; omega)
    omega

theorem unixTimestampNanos_bounds {t : OffsetDateTime} (h : IsDateTime t) :
    -10 ^ 21 < unixTimestampNanos t ∧ unixTimestampNanos t < 10 ^ 21 := by
  have hscale : ∀ n : Int, -377705116800000000 ≤ n → n < 253402300800000000 →
      -10 ^ 21 < n * 1000 ∧ n * 1000 < 10 ^ 21 := by omega
  exact hscale t h.1 h.2

theorem isI128_of_bounds {n : Int} (h : -10 ^ 21 < n ∧ n < 10 ^ 21) : IsI128 n := by
  unfold IsI128
  omega

theorem utf8Size_toString (n : Int) : ∀ c ∈ (toString n).toList, c.utf8Size = 1 := by
  have hdigit : ∀ c : Char, c.isDigit = true → c.utf8Size = 1 := fun c hc => by
    rw [Char.isDigit_iff_toNat] at hc
    exact Char.utf8Size_eq_one_iff.mpr (UInt32.le_iff_toNat_le.mpr (hc.2.trans (by decide)))
  cases n with
  | ofNat m =>
    rw [Int.ofNat_eq_natCast, toString_ofNat]
    exact fun c hc => hdigit c (isDigit_toDigits m c hc)
  | negSucc m =>
    rw [toString_negSucc]
    exact List.forall_mem_cons.mpr ⟨rfl, fun c hc => hdigit c (isDigit_toDigits _ c hc)⟩

/-- No part of a number is a full stop. -/
theorem not_mem_toString (n : Int) : '.' ∉ (toString n).toList := by
  have hdigit : ∀ m, '.' ∉ Nat.toDigits 10 m := fun m hc =>
    absurd (isDigit_toDigits m _ hc) (by decide)
  cases n with
  | ofNat m =>
    rw [Int.ofNat_eq_natCast, toString_ofNat]
    exact hdigit m
  | negSucc m =>
    rw [toString_negSucc]
    exact List.not_mem_cons_of_ne_of_not_mem (by decide) (hdigit _)

theorem utf8ByteSize_hyphenated (u : Uuid) : (Uuid.hyphenated u).utf8ByteSize ≤ 36 := by
  have hdigit : ∀ d < 16,
      (Char.ofNat (if d < 10 then 0x30 + d else 0x61 + (d - 10))).utf8Size = 1 := by decide
  unfold Uuid.hyphenated
  rw [utf8ByteSize_ofList]
  · simp
  · have hall : ∀ c ∈ (List.range 32).map fun i =>
        Char.ofNat (if (u.toNat >>> (4 * (31 - i))) % 16 < 10 then
          0x30 + (u.toNat >>> (4 * (31 - i))) % 16 else 0x61 + ((u.toNat >>> (4 * (31 - i))) % 16 - 10)),
        c.utf8Size = 1 := by
      intro c hc
      obtain ⟨i, -, rfl⟩ := List.mem_map.mp hc
      exact hdigit _ (Nat.mod_lt _ (by decide))
    intro c hc
    simp only [List.mem_append, List.mem_cons] at hc
    rcases hc with (((hc | hc | hc) | hc | hc) | hc | hc) | hc | hc
    all_goals first
      | exact hall c (List.mem_of_mem_take (List.mem_of_mem_drop hc))
      | exact hall c (List.mem_of_mem_drop (List.mem_of_mem_take hc))
      | exact hall c (List.mem_of_mem_take hc)
      | exact hall c (List.mem_of_mem_drop hc)
      | exact hc ▸ rfl

theorem utf8Size_of_inAlphabet {c : Char} (h : Base64.InAlphabet c = true) : c.utf8Size = 1 := by
  rw [Char.utf8Size_eq_one_iff]
  simp only [Base64.InAlphabet, Bool.or_eq_true, Bool.and_eq_true, decide_eq_true_eq,
    Char.le_def] at h
  rcases h with ((((h | h) | h) | h) | h)
  · exact UInt32.le_trans h.2 (by decide)
  · exact UInt32.le_trans h.2 (by decide)
  · exact UInt32.le_trans h.2 (by decide)
  all_goals subst h; decide

/-- The text of a cursor: at most 59 bytes, so 79 digits. -/
theorem encodeAdminListCursor_spec {cursor : ListCursor} (h : IsDateTime cursor.createdAt) :
    ∃ bytes : Bytes, encodeAdminListCursor cursor = String.ofList (Base64.encode bytes) ∧
      bytes ≠ [] ∧ bytes.length ≤ 59 ∧
      String.fromUTF8? ⟨bytes.toArray⟩ = some (toString (unixTimestampNanos cursor.createdAt) ++
        "." ++ Uuid.hyphenated cursor.tieBreakerId) := by
  have hbounds := unixTimestampNanos_bounds h
  have hlength := length_toString_le hbounds.1 hbounds.2
  have hnumber := utf8ByteSize_ofList (utf8Size_toString (unixTimestampNanos cursor.createdAt))
  rw [String.ofList_toList, String.length_toList] at hnumber
  have hid := utf8ByteSize_hyphenated cursor.tieBreakerId
  have hstop : ".".utf8ByteSize = 1 := rfl
  set payload := toString (unixTimestampNanos cursor.createdAt) ++ "." ++
    Uuid.hyphenated cursor.tieBreakerId with hpayload
  have hsize : payload.toByteArray.data.toList.length = payload.utf8ByteSize := Array.length_toList
  have hbytes : payload.utf8ByteSize ≤ 59 ∧ 0 < payload.utf8ByteSize := by
    rw [hpayload, String.utf8ByteSize_append, String.utf8ByteSize_append]
    omega
  exact ⟨payload.toByteArray.data.toList, rfl, List.ne_nil_of_length_pos (hsize ▸ hbytes.2),
    hsize ▸ hbytes.1, fromUTF8?_toByteArray payload⟩

/-- **Round trip**: a cursor comes back from its text. -/
theorem decodeListCursor_encode {P : Primitives} (hparse : ParsesUuids P) {cursor : ListCursor}
    (h : IsDateTime cursor.createdAt) (message : String) :
    decodeListCursor P (encodeAdminListCursor cursor) message = .ok cursor := by
  obtain ⟨bytes, hencode, hne, hlength, htext⟩ := encodeAdminListCursor_spec h
  have halphabet := Base64.alphabet_encode bytes
  have hsize := utf8ByteSize_ofList fun c hc => utf8Size_of_inAlphabet (halphabet c hc)
  have hdigits := Base64.length_encode bytes
  have hsplit : splitOnceChars '.' (toString (unixTimestampNanos cursor.createdAt) ++ "." ++
      Uuid.hyphenated cursor.tieBreakerId).toList =
        some ((toString (unixTimestampNanos cursor.createdAt)).toList,
          (Uuid.hyphenated cursor.tieBreakerId).toList) := by
    rw [String.toList_append, String.toList_append, List.append_assoc]
    exact splitOnceChars_append (not_mem_toString _)
  have hnumber : (parseI128 (toString (unixTimestampNanos cursor.createdAt)).toList).bind
      fromUnixTimestampNanos = some cursor.createdAt := by
    rw [parseI128_toString (isI128_of_bounds (unixTimestampNanos_bounds h)), Option.bind_some,
      fromUnixTimestampNanos_unixTimestampNanos h]
  have haccepted : ¬ ((String.ofList (Base64.encode bytes)).isEmpty = true ∨
      128 < (String.ofList (Base64.encode bytes)).utf8ByteSize ∨
        ¬ (String.ofList (Base64.encode bytes)).toList.all Base64.InAlphabet = true) := by
    rw [String.toList_ofList, List.all_eq_true, hsize]
    rintro (hempty | hlong | hchar)
    · rw [String.isEmpty_iff] at hempty
      exact Base64.encode_ne_nil hne (by simpa using congrArg String.toList hempty)
    · omega
    · exact hchar halphabet
  rw [hencode, decodeListCursor, if_neg haccepted]
  simp only [String.toList_ofList, Base64.decode_encode, Option.bind_some, htext, hsplit, hnumber,
    String.ofList_toList, hparse cursor.tieBreakerId]

end CairnId
