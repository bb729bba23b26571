import Mathlib.Data.List.DropRight
import CairnId.Audit

/-!
# Checks of `crates/domain`

`checked_string` and `normalize_email`, with the text functions of the standard
library that they and the SCIM input use.
-/

namespace CairnId

/-- `str::to_ascii_lowercase`. -/
def asciiLowercase (value : String) : String := String.ofList (value.toList.map toAsciiLowercase)

/-- `str::eq_ignore_ascii_case`. -/
def eqIgnoreAsciiCase (a b : String) : Bool := asciiLowercase a = asciiLowercase b

inductive DomainError where
  | emptyField (field : String)
  | fieldTooLong (field : String) (max : Nat)
  | invalidEmail
  deriving DecidableEq

/-- `Display`. -/
def DomainError.text : DomainError → String
  | .emptyField field => "field `" ++ field ++ "` cannot be empty"
  | .fieldTooLong field max =>
    "field `" ++ field ++ "` is too long; maximum length is " ++ toString max
  | .invalidEmail => "invalid email address"

/-- The length is counted in bytes. -/
def checkedString (field value : String) (max : Nat) : Except DomainError String :=
  let value := trim value
  if value.isEmpty then .error (.emptyField field)
  else if max < value.utf8ByteSize then .error (.fieldTooLong field max)
  else .ok value

def normalizeEmail (email : String) : Except DomainError String := do
  let email ← checkedString "email" (asciiLowercase (trim email)) 320
  let hasSingleAt := email.toList.count '@' = 1
  let hasDomainDot := ((splitAt '@' email)[1]?).any fun domain => domain.toList.contains '.'
  if hasSingleAt ∧ hasDomainDot then return email else throw .invalidEmail

theorem trim_toList (value : String) : (trim value).toList =
    ((value.toList.dropWhile isWhiteSpace).reverse.dropWhile isWhiteSpace).reverse := by
  simp [trim]

/-- Trimming twice is trimming once. -/
@[simp] theorem trim_trim (value : String) : trim (trim value) = trim value := by
  have hend : ∀ l : List Char, (l.dropWhile isWhiteSpace).dropWhile isWhiteSpace =
      l.dropWhile isWhiteSpace := fun l => List.dropWhile_idempotent _ _
  -- a prefix of a list that starts with a character to keep starts with it too
  have hstart : ∀ l : List Char, l.dropWhile isWhiteSpace = l →
      (l.reverse.dropWhile isWhiteSpace).reverse.dropWhile isWhiteSpace =
        (l.reverse.dropWhile isWhiteSpace).reverse := by
    intro l hl
    rw [List.dropWhile_eq_self_iff] at hl ⊢
    intro hlen
    have hpre : (l.reverse.dropWhile isWhiteSpace).reverse <+: l := by
      rw [← List.reverse_suffix, List.reverse_reverse]
      exact List.dropWhile_suffix _
    have hpos := lt_of_lt_of_le hlen hpre.length_le
    rw [hpre.getElem]
    exact hl hpos
  apply String.toList_injective
  have hkept := hstart (value.toList.dropWhile isWhiteSpace) (hend _)
  rw [trim_toList (trim value), trim_toList value, hkept, List.reverse_reverse, hend]

theorem trim_eq_self {value : String}
    (hhead : ∀ c ∈ value.toList.head?, isWhiteSpace c = false)
    (hlast : ∀ c ∈ value.toList.getLast?, isWhiteSpace c = false) : trim value = value := by
  have hdrop : ∀ l : List Char, (∀ c ∈ l.head?, isWhiteSpace c = false) →
      l.dropWhile isWhiteSpace = l := by
    intro l hl
    cases l with
    | nil => rfl
    | cons c l => simp [List.dropWhile, hl c rfl]
  apply String.toList_injective
  rw [trim_toList, hdrop _ hhead, hdrop, List.reverse_reverse]
  intro c hc
  rw [List.head?_reverse] at hc
  exact hlast c hc

theorem isWhiteSpace_head_of_trim {value : String} (h : trim value = value) :
    ∀ c ∈ value.toList.head?, isWhiteSpace c = false := by
  have hlist : ((value.toList.dropWhile isWhiteSpace).reverse.dropWhile isWhiteSpace).reverse =
      value.toList := by
    rw [← trim_toList, h]
  -- the list is a prefix of what is left after the blank start, so nothing was dropped
  have hpre : value.toList <+: value.toList.dropWhile isWhiteSpace := by
    conv_lhs => rw [← hlist]
    rw [← List.reverse_suffix, List.reverse_reverse]
    exact List.dropWhile_suffix _
  have hsame : value.toList.dropWhile isWhiteSpace = value.toList :=
    ((List.dropWhile_suffix _).sublist.antisymm hpre.sublist)
  intro c hc
  cases hchars : value.toList with
  | nil =>
    rw [hchars] at hc
    cases hc
  | cons d chars =>
    rw [hchars] at hc hsame
    obtain rfl := Option.some.inj hc
    have hkept := List.dropWhile_eq_self_iff.mp hsame (Nat.zero_lt_succ _)
    simpa using hkept

theorem isWhiteSpace_last_of_trim {value : String} (h : trim value = value) :
    ∀ c ∈ value.toList.getLast?, isWhiteSpace c = false := by
  intro c hc
  have hlist : (value.toList.dropWhile isWhiteSpace).reverse.dropWhile isWhiteSpace =
      value.toList.reverse := by
    rw [← List.reverse_reverse (List.dropWhile _ (List.reverse _)), ← trim_toList, h]
  rw [← List.head?_reverse, ← hlist] at hc
  cases hchars : (value.toList.dropWhile isWhiteSpace).reverse.dropWhile isWhiteSpace with
  | nil =>
    rw [hchars] at hc
    cases hc
  | cons d chars =>
    have hkept := List.head_dropWhile_not isWhiteSpace (l :=
      (value.toList.dropWhile isWhiteSpace).reverse) (by rw [hchars]; exact List.cons_ne_nil _ _)
    rw [hchars] at hc
    obtain rfl := Option.some.inj hc
    simpa [hchars] using hkept

/-- A text between two others that are trimmed. -/
theorem trim_append_append {first sep last : String} (hfirst : trim first = first)
    (hlast : trim last = last) (hne : first ≠ "") (hne' : last ≠ "") :
    trim (first ++ sep ++ last) = first ++ sep ++ last := by
  have hlists : (first ++ sep ++ last).toList = first.toList ++ (sep.toList ++ last.toList) := by
    rw [String.toList_append, String.toList_append, List.append_assoc]
  have hfirstList : first.toList ≠ [] := fun hnil => hne (String.toList_eq_nil_iff.mp hnil)
  have hlastList : last.toList ≠ [] := fun hnil => hne' (String.toList_eq_nil_iff.mp hnil)
  apply trim_eq_self
  · rw [hlists, List.head?_append_of_ne_nil _ hfirstList]
    exact isWhiteSpace_head_of_trim hfirst
  · rw [hlists, List.getLast?_append_of_ne_nil _ (List.append_ne_nil_of_right_ne_nil _ hlastList),
      List.getLast?_append_of_ne_nil _ hlastList]
    exact isWhiteSpace_last_of_trim hlast

theorem mem_trim {value : String} {c : Char} (hc : isWhiteSpace c = false)
    (hmem : c ∈ value.toList) : c ∈ (trim value).toList := by
  have hdrop : ∀ l : List Char, c ∈ l → c ∈ l.dropWhile isWhiteSpace := by
    intro l hl
    rw [← List.takeWhile_append_dropWhile (p := isWhiteSpace) (l := l), List.mem_append] at hl
    refine hl.resolve_left fun htake => ?_
    rw [List.mem_takeWhile_imp htake] at hc
    cases hc
  rw [trim_toList, List.mem_reverse]
  exact hdrop _ (List.mem_reverse.mpr (hdrop _ hmem))

-- letter case

theorem toNat_toAsciiLowercase (c : Char) : (toAsciiLowercase c).toNat =
    if 0x41 ≤ c.toNat ∧ c.toNat ≤ 0x5A then c.toNat + 32 else c.toNat := by
  unfold toAsciiLowercase
  have hA : 'A' ≤ c ↔ 0x41 ≤ c.toNat := Iff.rfl
  have hZ : c ≤ 'Z' ↔ c.toNat ≤ 0x5A := Iff.rfl
  by_cases h : 0x41 ≤ c.toNat ∧ c.toNat ≤ 0x5A
  · have hvalid : (c.toNat + 32).isValidChar := .inl (by omega)
    rw [if_pos (by simpa [hA, hZ] using h), if_pos h, Char.ofNat, dif_pos hvalid]
    rfl
  · rw [if_neg (by simpa [hA, hZ] using h), if_neg h]

@[simp] theorem isWhiteSpace_toAsciiLowercase (c : Char) :
    isWhiteSpace (toAsciiLowercase c) = isWhiteSpace c := by
  unfold isWhiteSpace
  dsimp only
  rw [toNat_toAsciiLowercase]
  by_cases h : 0x41 ≤ c.toNat ∧ c.toNat ≤ 0x5A
  · rw [if_pos h, Bool.eq_iff_iff]
    simp only [Bool.or_eq_true, Bool.and_eq_true, decide_eq_true_eq]
    omega
  · rw [if_neg h]

/-- Only letters change. -/
theorem toAsciiLowercase_eq_iff {c d : Char} (hlower : ¬(0x61 ≤ d.toNat ∧ d.toNat ≤ 0x7A))
    (hupper : ¬(0x41 ≤ d.toNat ∧ d.toNat ≤ 0x5A)) : toAsciiLowercase c = d ↔ c = d := by
  rw [← Char.toNat_inj, ← Char.toNat_inj, toNat_toAsciiLowercase]
  split <;> omega

theorem asciiLowercase_toList (value : String) :
    (asciiLowercase value).toList = value.toList.map toAsciiLowercase := String.toList_ofList

theorem trim_asciiLowercase (value : String) :
    trim (asciiLowercase value) = asciiLowercase (trim value) := by
  have hsame : isWhiteSpace ∘ toAsciiLowercase = isWhiteSpace := by
    funext c
    exact isWhiteSpace_toAsciiLowercase c
  apply String.toList_injective
  rw [trim_toList, asciiLowercase_toList, asciiLowercase_toList, trim_toList, List.dropWhile_map,
    hsame, ← List.map_reverse, List.dropWhile_map, hsame, List.map_reverse]

theorem length_asciiLowercase (value : String) : (asciiLowercase value).length = value.length := by
  rw [← String.length_toList, asciiLowercase_toList, List.length_map, String.length_toList]

-- addresses

theorem length_le_utf8ByteSize (value : String) : value.length ≤ value.utf8ByteSize := by
  have hchars : ∀ l : List Char, l.length ≤ (String.ofList l).utf8ByteSize := by
    intro l
    induction l with
    | nil => exact Nat.le_refl 0
    | cons c l ih =>
      have hpos := Char.utf8Size_pos c
      rw [String.ofList_cons, String.utf8ByteSize_append, String.utf8ByteSize_singleton,
        List.length_cons]
      omega
  have hvalue := hchars value.toList
  rwa [String.ofList_toList, String.length_toList] at hvalue

theorem checkedString_eq_ok {field value text : String} {max : Nat}
    (h : checkedString field value max = .ok text) :
    text = trim value ∧ text ≠ "" ∧ text.utf8ByteSize ≤ max := by
  simp only [checkedString] at h
  by_cases hempty : (trim value).isEmpty = true
  · rw [if_pos hempty] at h
    cases h
  · rw [if_neg hempty] at h
    by_cases hlong : max < (trim value).utf8ByteSize
    · rw [if_pos hlong] at h
      cases h
    · rw [if_neg hlong] at h
      obtain rfl := Except.ok.inj h
      exact ⟨rfl, fun hnil => hempty (String.isEmpty_iff.mpr hnil), Nat.not_lt.mp hlong⟩

/-- The address that is accepted is the text without the white space around it, in
    lower case. -/
theorem normalizeEmail_eq_ok {email normalized : String}
    (h : normalizeEmail email = .ok normalized) :
    normalized = asciiLowercase (trim email) ∧ normalized ≠ "" ∧ normalized.length ≤ 320 := by
  unfold normalizeEmail at h
  cases hchecked : checkedString "email" (asciiLowercase (trim email)) 320 with
  | error e =>
    rw [hchecked] at h
    cases h
  | ok text =>
    obtain ⟨htext, hne, hbytes⟩ := checkedString_eq_ok hchecked
    have hlength := length_le_utf8ByteSize text
    rw [trim_asciiLowercase, trim_trim] at htext
    rw [hchecked] at h
    simp only [bind, Except.bind] at h
    split at h
    · rw [← Except.ok.inj h]
      exact ⟨htext, hne, hlength.trans hbytes⟩
    · cases h

theorem normalizeEmail_trim (email : String) : normalizeEmail (trim email) = normalizeEmail email := by
  unfold normalizeEmail
  rw [trim_trim]

end CairnId
