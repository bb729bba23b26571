import CairnId.Audit
import Mathlib.Data.List.Basic

/-!
# Redaction of audit metadata

The members that `redact_sensitive_metadata` leaves, said by how their keys are written:
a listed name may be written in any case, with separators between its words and around
them, or in camel case.

## Main definitions

- `SpellsName` — the spellings of a listed name
- `Json.Member`, `Json.Kept` — the members at any depth, and those under no redacted one
- `RedactedFrom` — nothing changed but the values under sensitive keys

## Main results

- `isSensitiveMetadataKey_iff_of_spells` — the three names whose camel case is missed
- `redact_idempotent` — redacting again changes nothing
- `redaction_exact` — when no spelled member keeps its value
-/

namespace CairnId

-- spellings

/-- A text without letters and digits. -/
def Separators (cs : List Char) : Prop := ∀ c ∈ cs, isAsciiAlphanumeric c = false

/-- The word, in any case. -/
def CaseOf (word text : List Char) : Prop := text.map toAsciiLowercase = word

/-- The words one after the other, each beginning behind separators or with an upper
    case letter. -/
inductive Spelling : List (List Char) → List Char → Prop
  | last {word text : List Char} : CaseOf word text → Spelling [word] text
  | separated {word text gap rest : List Char} {words : List (List Char)} : CaseOf word text →
    gap ≠ [] → Separators gap → Spelling words rest →
    Spelling (word :: words) (text ++ (gap ++ rest))
  | camel {word text rest : List Char} {c : Char} {words : List (List Char)} :
    CaseOf word text → 'A' ≤ c ∧ c ≤ 'Z' → Spelling words (c :: rest) →
    Spelling (word :: words) (text ++ c :: rest)

def nameWords (name : String) : List (List Char) := splitChars '_' name.toList

/-- The key is a spelling of the name, maybe with separators around it. -/
def SpellsName (name key : String) : Prop :=
  ∃ lead body trail, key.toList = lead ++ (body ++ trail) ∧ Separators lead ∧ Separators trail ∧
    Spelling (nameWords name) body

/-- The key is a spelling of the name with no separator between the words. -/
def CamelSpellsName (name key : String) : Prop :=
  ∃ lead body trail, key.toList = lead ++ (body ++ trail) ∧ Separators lead ∧ Separators trail ∧
    Spelling (nameWords name) body ∧ ∀ c ∈ body, isAsciiAlphanumeric c = true

/-- A spelling of a listed name. -/
def SpellsListed (key : String) : Prop := ∃ name ∈ sensitiveNames, SpellsName name key

def missedCamelNames : List String := ["client_secret", "access_token", "refresh_token"]

/-- The letters and digits of the key are those of a listed name. -/
def ListedTogether (key : String) : Prop :=
  ∃ name ∈ sensitiveNames, (normalizeMetadataKey key).filter (· ≠ '_') =
    name.toList.filter (· ≠ '_')

/-- A key of the suffix and substring rules. -/
def RuleKey (key : String) : Prop :=
  (∃ suffix ∈ ["_password", "_secret", "_token", "_private_key", "_private_key_pem"],
    suffix.toList <:+ normalizeMetadataKey key) ∨
  "recovery_code".toList <:+: normalizeMetadataKey key ∨
  ∃ part ∈ ["keyencryptionkey", "recoverycode"],
    part.toList <:+: (normalizeMetadataKey key).filter (· ≠ '_')

-- members

namespace Json

/-- The members of a value at any depth. -/
inductive Member : Json → String → Json → Prop
  | here {members : List (String × Json)} {key : String} {value : Json} :
    (key, value) ∈ members → Member (.object members) key value
  | object {members : List (String × Json)} {outer key : String} {inner value : Json} :
    (outer, inner) ∈ members → Member inner key value → Member (.object members) key value
  | array {values : List Json} {key : String} {inner value : Json} :
    inner ∈ values → Member inner key value → Member (.array values) key value

/-- The members that are not inside a member with a redacted key. -/
inductive Kept : Json → String → Json → Prop
  | here {members : List (String × Json)} {key : String} {value : Json} :
    (key, value) ∈ members → Kept (.object members) key value
  | object {members : List (String × Json)} {outer key : String} {inner value : Json} :
    (outer, inner) ∈ members → isSensitiveMetadataKey outer = false → Kept inner key value →
    Kept (.object members) key value
  | array {values : List Json} {key : String} {inner value : Json} :
    inner ∈ values → Kept inner key value → Kept (.array values) key value

mutual

theorem induct {P : Json → Prop} (null : P .null) (bool : ∀ b, P (.bool b))
    (number : ∀ n, P (.number n)) (string : ∀ s, P (.string s))
    (array : ∀ values, (∀ value ∈ values, P value) → P (.array values))
    (object : ∀ members : List (String × Json), (∀ m ∈ members, P m.2) → P (.object members)) :
    ∀ value, P value
  | .null => null
  | .bool b => bool b
  | .number n => number n
  | .string s => string s
  | .array values => array values (induct_values null bool number string array object values)
  | .object members =>
    object members (induct_members null bool number string array object members)

theorem induct_values {P : Json → Prop} (null : P .null) (bool : ∀ b, P (.bool b))
    (number : ∀ n, P (.number n)) (string : ∀ s, P (.string s))
    (array : ∀ values, (∀ value ∈ values, P value) → P (.array values))
    (object : ∀ members : List (String × Json), (∀ m ∈ members, P m.2) → P (.object members)) :
    ∀ values : List Json, ∀ value ∈ values, P value
  | [], _, h => absurd h List.not_mem_nil
  | value :: values, _, h => (List.mem_cons.mp h).elim
    (fun heq => heq ▸ induct null bool number string array object value)
    (induct_values null bool number string array object values _)

theorem induct_members {P : Json → Prop} (null : P .null) (bool : ∀ b, P (.bool b))
    (number : ∀ n, P (.number n)) (string : ∀ s, P (.string s))
    (array : ∀ values, (∀ value ∈ values, P value) → P (.array values))
    (object : ∀ members : List (String × Json), (∀ m ∈ members, P m.2) → P (.object members)) :
    ∀ members : List (String × Json), ∀ m ∈ members, P m.2
  | [], _, h => absurd h List.not_mem_nil
  | (_, value) :: members, _, h => (List.mem_cons.mp h).elim
    (fun heq => heq ▸ induct null bool number string array object value)
    (induct_members null bool number string array object members _)

end

end Json

-- the loops as maps

def redactMember (m : String × Json) : String × Json :=
  (m.1, if isSensitiveMetadataKey m.1 then .string "[redacted]" else redactSensitiveMetadata m.2)

theorem redactMembers_eq (members : List (String × Json)) :
    redactMembers members = members.map redactMember := by
  induction members with
  | nil => rfl
  | cons m members ih => rw [redactMembers, ih, List.map_cons, redactMember]

theorem redactValues_eq (values : List Json) :
    redactValues values = values.map redactSensitiveMetadata := by
  induction values with
  | nil => rfl
  | cons value values ih => rw [redactValues, ih, List.map_cons]

@[simp] theorem redact_array (values : List Json) :
    redactSensitiveMetadata (.array values) = .array (values.map redactSensitiveMetadata) := by
  rw [redactSensitiveMetadata, redactValues_eq]

@[simp] theorem redact_object (members : List (String × Json)) :
    redactSensitiveMetadata (.object members) = .object (members.map redactMember) := by
  rw [redactSensitiveMetadata, redactMembers_eq]

@[simp] theorem redact_string (s : String) : redactSensitiveMetadata (.string s) = .string s := by
  rw [redactSensitiveMetadata] <;> simp

theorem redactMember_redactMember {m : String × Json}
    (ih : redactSensitiveMetadata (redactSensitiveMetadata m.2) = redactSensitiveMetadata m.2) :
    redactMember (redactMember m) = redactMember m := by
  by_cases h : isSensitiveMetadataKey m.1 = true
  · simp [redactMember, h]
  · simp [redactMember, h, ih]

/-- Redacting again changes nothing. -/
theorem redact_idempotent (value : Json) :
    redactSensitiveMetadata (redactSensitiveMetadata value) = redactSensitiveMetadata value := by
  induction value using Json.induct with
  | null => rfl
  | bool => rfl
  | number => rfl
  | string => rw [redact_string, redact_string]
  | array values ih =>
    rw [redact_array, redact_array, List.map_map]
    exact congrArg Json.array (List.map_congr_left ih)
  | object members ih =>
    rw [redact_object, redact_object, List.map_map]
    exact congrArg Json.object (List.map_congr_left fun m hm => redactMember_redactMember (ih m hm))

theorem redact_eq_marker {value : Json} :
    redactSensitiveMetadata value = .string "[redacted]" ↔ value = .string "[redacted]" := by
  cases value with
  | null => exact Iff.rfl
  | bool => exact Iff.rfl
  | number => exact Iff.rfl
  | string s => rw [redact_string]
  | array => simp
  | object => simp

-- letters and separators

theorem isAsciiAlphanumeric_toAsciiLowercase (c : Char) :
    isAsciiAlphanumeric (toAsciiLowercase c) = isAsciiAlphanumeric c := by
  by_cases h : 'A' ≤ c ∧ c ≤ 'Z'
  · have hlo : 65 ≤ c.toNat := h.1
    have hhi : c.toNat ≤ 90 := h.2
    have hall : ∀ n < 91, 65 ≤ n →
        isAsciiAlphanumeric (Char.ofNat (n + 32)) = isAsciiAlphanumeric (Char.ofNat n) := by
      decide
    have hc := hall c.toNat (by omega) hlo
    rw [Char.ofNat_toNat] at hc
    rw [toAsciiLowercase, if_pos (by simpa using h), hc]
  · rw [toAsciiLowercase, if_neg (by simpa using h)]

theorem toAsciiLowercase_ne_underscore {c : Char} (h : isAsciiAlphanumeric c = true) :
    toAsciiLowercase c ≠ '_' := by
  intro heq
  have hc := isAsciiAlphanumeric_toAsciiLowercase c
  rw [heq, h] at hc
  exact absurd hc (by decide)

theorem CaseOf.alphanumeric {word text : List Char} (h : CaseOf word text)
    (hword : ∀ c ∈ word, isAsciiAlphanumeric c = true) :
    ∀ c ∈ text, isAsciiAlphanumeric c = true := by
  intro c hc
  rw [← isAsciiAlphanumeric_toAsciiLowercase]
  exact hword _ (h ▸ List.mem_map_of_mem hc)

theorem filter_of_separators {gap : List Char} (h : Separators gap) :
    gap.filter isAsciiAlphanumeric = [] :=
  List.filter_eq_nil_iff.mpr fun c hc => by simp [h c hc]

/-- The letters and digits of a spelling are those of its words. -/
theorem Spelling.letters {words : List (List Char)} {body : List Char} (h : Spelling words body)
    (hwords : ∀ word ∈ words, ∀ c ∈ word, isAsciiAlphanumeric c = true) :
    (body.filter isAsciiAlphanumeric).map toAsciiLowercase = words.flatten := by
  induction h with
  | last hcase =>
    rw [List.filter_eq_self.mpr (hcase.alphanumeric (hwords _ (.head _))), hcase]
    simp
  | separated hcase _ hgap _ ih =>
    rw [List.filter_append, List.filter_append, filter_of_separators hgap, List.nil_append,
      List.filter_eq_self.mpr (hcase.alphanumeric (hwords _ (.head _))), List.map_append, hcase,
      ih fun w hw => hwords w (.tail _ hw)]
    rfl
  | camel hcase _ _ ih =>
    rw [List.filter_append, List.filter_eq_self.mpr (hcase.alphanumeric (hwords _ (.head _))),
      List.map_append, hcase, ih fun w hw => hwords w (.tail _ hw)]
    rfl

-- normalised keys

theorem filter_trimMatchesChars (cs : List Char) :
    (trimMatchesChars '_' cs).filter (· ≠ '_') = cs.filter (· ≠ '_') := by
  have hdrop : ∀ ds : List Char, (ds.dropWhile (· = '_')).filter (· ≠ '_') =
      ds.filter (· ≠ '_') := by
    intro ds
    induction ds with
    | nil => rfl
    | cons d ds ih =>
      by_cases hd : d = '_'
      · rw [List.dropWhile_cons_of_pos (by simpa using hd), ih,
          List.filter_cons_of_neg (by simpa using hd)]
      · rw [List.dropWhile_cons_of_neg (by simpa using hd)]
  rw [trimMatchesChars, List.filter_reverse, hdrop, List.filter_reverse, List.reverse_reverse,
    hdrop]

theorem filter_normalizeKeyChars (previousWasSeparator : Bool) (cs : List Char) :
    (normalizeKeyChars previousWasSeparator cs).filter (· ≠ '_') =
      (cs.filter isAsciiAlphanumeric).map toAsciiLowercase := by
  induction cs generalizing previousWasSeparator with
  | nil => rfl
  | cons c cs ih =>
    rw [normalizeKeyChars]
    by_cases hc : isAsciiAlphanumeric c = true
    · rw [if_pos hc, List.filter_cons_of_pos (by simpa using toAsciiLowercase_ne_underscore hc),
        List.filter_cons_of_pos hc, ih, List.map_cons]
    · rw [if_neg hc, List.filter_cons_of_neg (p := isAsciiAlphanumeric) hc]
      cases previousWasSeparator with
      | true => exact ih true
      | false => exact (List.filter_cons_of_neg (by decide)).trans (ih true)

/-- Without its separators the normalised key is the letters and digits of the key. -/
theorem filter_normalizeMetadataKey (key : String) :
    (normalizeMetadataKey key).filter (· ≠ '_') =
      (key.toList.filter isAsciiAlphanumeric).map toAsciiLowercase := by
  rw [normalizeMetadataKey, filter_trimMatchesChars, filter_normalizeKeyChars]

theorem normalizeKeyChars_word {text : List Char} (h : ∀ c ∈ text, isAsciiAlphanumeric c = true)
    (hne : text ≠ []) (previousWasSeparator : Bool) (rest : List Char) :
    normalizeKeyChars previousWasSeparator (text ++ rest) =
      text.map toAsciiLowercase ++ normalizeKeyChars false rest := by
  induction text generalizing previousWasSeparator with
  | nil => exact absurd rfl hne
  | cons c text ih =>
    rw [List.cons_append, normalizeKeyChars, if_pos (h c (.head _)), List.map_cons,
      List.cons_append]
    by_cases htext : text = []
    · subst htext
      rfl
    · rw [ih (fun d hd => h d (.tail _ hd)) htext]

theorem normalizeKeyChars_true_separators {gap : List Char} (h : Separators gap)
    (rest : List Char) : normalizeKeyChars true (gap ++ rest) = normalizeKeyChars true rest := by
  induction gap with
  | nil => rfl
  | cons c gap ih =>
    rw [List.cons_append, normalizeKeyChars, if_neg (by simp [h c (.head _)]), if_pos rfl]
    exact ih fun d hd => h d (.tail _ hd)

theorem normalizeKeyChars_separators {gap : List Char} (h : Separators gap) (hne : gap ≠ [])
    (rest : List Char) :
    normalizeKeyChars false (gap ++ rest) = '_' :: normalizeKeyChars true rest := by
  cases gap with
  | nil => exact absurd rfl hne
  | cons c gap =>
    rw [List.cons_append, normalizeKeyChars, if_neg (by simp [h c (.head _)]),
      if_neg Bool.false_ne_true]
    exact congrArg _ (normalizeKeyChars_true_separators (fun d hd => h d (.tail _ hd)) rest)

theorem dropWhile_underscore {cs : List Char} (h : cs.head? ≠ some '_') :
    cs.dropWhile (· = '_') = cs := by
  cases cs with
  | nil => rfl
  | cons c cs =>
    refine List.dropWhile_cons_of_neg ?_
    intro hc
    exact h (congrArg some (of_decide_eq_true hc))

/-- What stands between underscores and begins and ends with none is what is left. -/
theorem trimMatchesChars_between {before inner after : List Char} (hbefore : ∀ c ∈ before, c = '_')
    (hafter : ∀ c ∈ after, c = '_') (hhead : inner.head? ≠ some '_')
    (hlast : inner.getLast? ≠ some '_') (hne : inner ≠ []) :
    trimMatchesChars '_' (before ++ (inner ++ after)) = inner := by
  have hreverse : inner.reverse.head? ≠ some '_' := by rwa [List.head?_reverse]
  have hhead' : (inner ++ after).head? ≠ some '_' := by
    rwa [List.head?_append_of_ne_nil _ hne]
  rw [trimMatchesChars, List.dropWhile_append_of_pos (fun c hc => by simpa using hbefore c hc),
    dropWhile_underscore hhead', List.reverse_append,
    List.dropWhile_append_of_pos (fun c hc => by simpa using hafter c (List.mem_reverse.mp hc)),
    dropWhile_underscore hreverse, List.reverse_reverse]

/-- Separators around a key are gone when it is normalised. -/
theorem normalizeMetadataKey_around {key : String} {lead body trail inner : List Char}
    (hkey : key.toList = lead ++ (body ++ trail)) (hlead : Separators lead)
    (htrail : Separators trail) (hne : inner ≠ []) (hhead : inner.head? ≠ some '_')
    (hlast : inner.getLast? ≠ some '_')
    (hbody : ∀ previous rest, normalizeKeyChars previous (body ++ rest) =
      inner ++ normalizeKeyChars false rest) :
    normalizeMetadataKey key = inner := by
  have hafter : ∀ c ∈ normalizeKeyChars false trail, c = '_' := by
    intro c hc
    by_cases hnil : trail = []
    · subst hnil
      exact absurd hc List.not_mem_nil
    · have htrail' := normalizeKeyChars_separators htrail hnil []
      rw [List.append_nil] at htrail'
      rw [htrail'] at hc
      exact List.mem_singleton.mp hc
  have hsplit : ∃ before, (∀ c ∈ before, c = '_') ∧
      normalizeKeyChars false key.toList = before ++ (inner ++ normalizeKeyChars false trail) := by
    by_cases hnil : lead = []
    · exact ⟨[], fun c hc => absurd hc List.not_mem_nil, by rw [hkey, hnil]; exact hbody _ _⟩
    · refine ⟨['_'], fun c hc => List.mem_singleton.mp hc, ?_⟩
      rw [hkey, normalizeKeyChars_separators hlead hnil, hbody]
      rfl
  obtain ⟨before, hbefore, heq⟩ := hsplit
  rw [normalizeMetadataKey, heq]
  exact trimMatchesChars_between hbefore hafter hhead hlast hne

-- which spellings are recognised

/-- The rest of `is_sensitive_metadata_key`, on the normalised key. -/
def isSensitiveNormalized (normalized : List Char) : Bool :=
  let compact := normalized.filter (· ≠ '_')
  sensitiveNames.any (fun name => name.toList = normalized) ||
    sensitiveCompactNames.any (fun name => name.toList = compact) ||
    ["_password", "_secret", "_token", "_private_key", "_private_key_pem"].any
      (endsWithChars normalized) ||
    containsChars "keyencryptionkey" compact || containsChars "recovery_code" normalized ||
    containsChars "recoverycode" compact

theorem isSensitiveMetadataKey_eq (key : String) :
    isSensitiveMetadataKey key = isSensitiveNormalized (normalizeMetadataKey key) := rfl

theorem isSensitiveMetadataKey_of_compact {key name : String}
    (hname : name ∈ sensitiveCompactNames)
    (h : (normalizeMetadataKey key).filter (· ≠ '_') = name.toList) :
    isSensitiveMetadataKey key = true := by
  have hany : sensitiveCompactNames.any (fun compactName =>
      compactName.toList = (normalizeMetadataKey key).filter (· ≠ '_')) = true :=
    List.any_eq_true.mpr ⟨name, hname, by simpa using h.symm⟩
  rw [isSensitiveMetadataKey_eq, isSensitiveNormalized, hany, Bool.or_true, Bool.true_or,
    Bool.true_or, Bool.true_or, Bool.true_or]

def singleWordNames : List String := ["password", "secret", "token", "code", "kek", "signature"]

theorem sensitiveNames_cases : ∀ name ∈ sensitiveNames,
    name ∈ singleWordNames ∨ name ∈ missedCamelNames ∨
      .ofList (name.toList.filter (· ≠ '_')) ∈ sensitiveCompactNames := by
  decide

theorem nameWords_alphanumeric : ∀ name ∈ sensitiveNames, ∀ word ∈ nameWords name,
    word ≠ [] ∧ ∀ c ∈ word, isAsciiAlphanumeric c = true := by
  have hall : (sensitiveNames.all fun name => (nameWords name).all fun word =>
      !word.isEmpty && word.all isAsciiAlphanumeric) = true := by decide
  intro name hname word hword
  have h := List.all_eq_true.mp (List.all_eq_true.mp hall name hname) word hword
  rw [Bool.and_eq_true, List.all_eq_true] at h
  exact ⟨by simpa using h.1, h.2⟩

theorem flatten_nameWords : ∀ name ∈ sensitiveNames,
    (nameWords name).flatten = name.toList.filter (· ≠ '_') := by
  decide

/-- The letters and digits of a spelled key are those of the name. -/
theorem SpellsName.compact {name key : String} (hname : name ∈ sensitiveNames)
    (h : SpellsName name key) :
    (normalizeMetadataKey key).filter (· ≠ '_') = name.toList.filter (· ≠ '_') := by
  obtain ⟨lead, body, trail, hkey, hlead, htrail, hspell⟩ := h
  rw [filter_normalizeMetadataKey, hkey, List.filter_append, List.filter_append,
    filter_of_separators hlead, filter_of_separators htrail, List.append_nil, List.nil_append,
    hspell.letters fun word hword => (nameWords_alphanumeric name hname word hword).2,
    flatten_nameWords name hname]

theorem map_toAsciiLowercase_ends {text : List Char}
    (h : ∀ c ∈ text, isAsciiAlphanumeric c = true) :
    (text.map toAsciiLowercase).head? ≠ some '_' ∧
      (text.map toAsciiLowercase).getLast? ≠ some '_' := by
  have hmem : ∀ c ∈ text.map toAsciiLowercase, c ≠ '_' := by
    intro c hc
    obtain ⟨d, hd, rfl⟩ := List.mem_map.mp hc
    exact toAsciiLowercase_ne_underscore (h d hd)
  exact ⟨fun heq => hmem _ (List.mem_of_head? heq) rfl,
    fun heq => hmem _ (List.mem_of_getLast? heq) rfl⟩

/-- A body without separators is normalised to its lower case. -/
theorem normalizeMetadataKey_together {key : String} {lead body trail : List Char}
    (hkey : key.toList = lead ++ (body ++ trail)) (hlead : Separators lead)
    (htrail : Separators trail) (hne : body ≠ [])
    (hbody : ∀ c ∈ body, isAsciiAlphanumeric c = true) :
    normalizeMetadataKey key = body.map toAsciiLowercase := by
  obtain ⟨hhead, hlast⟩ := map_toAsciiLowercase_ends hbody
  exact normalizeMetadataKey_around hkey hlead htrail (by simpa using hne) hhead hlast
    (normalizeKeyChars_word hbody hne)

/-- Two words with separators in between are normalised to the words with one underscore. -/
theorem normalizeMetadataKey_separated {key : String} {lead first gap second trail : List Char}
    (hkey : key.toList = lead ++ ((first ++ (gap ++ second)) ++ trail)) (hlead : Separators lead)
    (htrail : Separators trail) (hgap : Separators gap) (hgapne : gap ≠ []) (hfirstne : first ≠ [])
    (hsecondne : second ≠ []) (hfirst : ∀ c ∈ first, isAsciiAlphanumeric c = true)
    (hsecond : ∀ c ∈ second, isAsciiAlphanumeric c = true) :
    normalizeMetadataKey key =
      first.map toAsciiLowercase ++ '_' :: second.map toAsciiLowercase := by
  have hfirst' : first.map toAsciiLowercase ≠ [] := by simpa using hfirstne
  have hsecond' : second.map toAsciiLowercase ≠ [] := by simpa using hsecondne
  refine normalizeMetadataKey_around hkey hlead htrail (List.append_ne_nil_of_left_ne_nil hfirst' _)
    ?_ ?_ ?_
  · rw [List.head?_append_of_ne_nil _ hfirst']
    exact (map_toAsciiLowercase_ends hfirst).1
  · rw [List.getLast?_append_of_ne_nil _ (List.cons_ne_nil _ _), List.getLast?_cons,
      List.getLast?_eq_some_getLast hsecond', Option.getD_some]
    have hlast := (map_toAsciiLowercase_ends hsecond).2
    rwa [List.getLast?_eq_some_getLast hsecond'] at hlast
  · intro previous rest
    rw [List.append_assoc, List.append_assoc, normalizeKeyChars_word hfirst hfirstne,
      normalizeKeyChars_separators hgap hgapne, normalizeKeyChars_word hsecond hsecondne,
      List.append_assoc]
    rfl

theorem Spelling.singleton {word body : List Char} (h : Spelling [word] body) :
    CaseOf word body := by
  cases h with
  | last hcase => exact hcase
  | separated _ _ _ hrest => cases hrest
  | camel _ _ hrest => cases hrest

/-- Two words stand behind each other, or with separators in between. -/
theorem Spelling.pair {first second body : List Char} (h : Spelling [first, second] body) :
    (∃ text rest, body = text ++ rest ∧ CaseOf first text ∧ CaseOf second rest) ∨
    ∃ text gap rest, body = text ++ (gap ++ rest) ∧ gap ≠ [] ∧ Separators gap ∧
      CaseOf first text ∧ CaseOf second rest := by
  cases h with
  | separated hcase hne hgap hrest =>
    exact .inr ⟨_, _, _, rfl, hne, hgap, hcase, hrest.singleton⟩
  | camel hcase _ hrest => exact .inl ⟨_, _, rfl, hcase, hrest.singleton⟩

theorem CaseOf.ne_nil {word text : List Char} (h : CaseOf word text) (hne : word ≠ []) :
    text ≠ [] := by
  rintro rfl
  exact hne h.symm

/-- A two-word name in two words with separators in between, or in camel case. -/
theorem normalizeMetadataKey_pair {name key : String} {first second : List Char}
    (hname : name ∈ sensitiveNames) (hwords : nameWords name = [first, second])
    (h : SpellsName name key) :
    (CamelSpellsName name key ∧ normalizeMetadataKey key = first ++ second) ∨
      normalizeMetadataKey key = first ++ '_' :: second := by
  obtain ⟨lead, body, trail, hkey, hlead, htrail, hspell⟩ := h
  obtain ⟨hfirstne, hfirst⟩ := nameWords_alphanumeric name hname first (hwords ▸ .head _)
  obtain ⟨hsecondne, hsecond⟩ :=
    nameWords_alphanumeric name hname second (hwords ▸ .tail _ (.head _))
  have hpair := hwords ▸ hspell
  obtain ⟨text, rest, rfl, hcase, hcase'⟩ | ⟨text, gap, rest, rfl, hne, hgap, hcase, hcase'⟩ :=
    hpair.pair
  · left
    have halnum : ∀ c ∈ text ++ rest, isAsciiAlphanumeric c = true := by
      intro c hc
      exact (List.mem_append.mp hc).elim (hcase.alphanumeric hfirst c)
        (hcase'.alphanumeric hsecond c)
    refine ⟨⟨lead, _, trail, hkey, hlead, htrail, hspell, halnum⟩, ?_⟩
    rw [normalizeMetadataKey_together hkey hlead htrail
      (List.append_ne_nil_of_left_ne_nil (hcase.ne_nil hfirstne) _) halnum, List.map_append, hcase,
      hcase']
  · right
    rw [normalizeMetadataKey_separated hkey hlead htrail hgap hne (hcase.ne_nil hfirstne)
      (hcase'.ne_nil hsecondne) (hcase.alphanumeric hfirst) (hcase'.alphanumeric hsecond), hcase,
      hcase']

/-- In camel case the words run together in the normalised key. -/
theorem CamelSpellsName.normalized {name key : String} (hname : name ∈ sensitiveNames)
    (h : CamelSpellsName name key) :
    normalizeMetadataKey key = name.toList.filter (· ≠ '_') := by
  obtain ⟨lead, body, trail, hkey, hlead, htrail, hspell, halnum⟩ := h
  have hletters := hspell.letters fun word hword =>
    (nameWords_alphanumeric name hname word hword).2
  rw [List.filter_eq_self.mpr halnum, flatten_nameWords name hname] at hletters
  have hne : body ≠ [] := by
    rintro rfl
    have hall : ∀ name ∈ sensitiveNames, name.toList.filter (· ≠ '_') ≠ [] := by decide
    exact hall name hname hletters.symm
  rw [normalizeMetadataKey_together hkey hlead htrail hne halnum, hletters]

theorem missedCamelNames_cases : ∀ name ∈ missedCamelNames, name ∈ sensitiveNames ∧
    isSensitiveNormalized (name.toList.filter (· ≠ '_')) = false ∧
    ∃ first second, nameWords name = [first, second] ∧
      isSensitiveNormalized (first ++ '_' :: second) = true := by
  intro name hname
  simp only [missedCamelNames, List.mem_cons, List.not_mem_nil, or_false] at hname
  obtain rfl | rfl | rfl := hname
  · exact ⟨by decide, by decide, "client".toList, "secret".toList,
      by decide, by decide⟩
  · exact ⟨by decide, by decide, "access".toList, "token".toList,
      by decide, by decide⟩
  · exact ⟨by decide, by decide, "refresh".toList, "token".toList,
      by decide, by decide⟩

theorem singleWordNames_cases : ∀ name ∈ singleWordNames, nameWords name = [name.toList] ∧
    isSensitiveNormalized name.toList = true := by
  decide

/-- A spelling of a listed name is recognised, unless it is one of three names in camel
    case. -/
theorem isSensitiveMetadataKey_iff_of_spells {name key : String} (hname : name ∈ sensitiveNames)
    (h : SpellsName name key) :
    isSensitiveMetadataKey key = true ↔ ¬(name ∈ missedCamelNames ∧ CamelSpellsName name key) := by
  constructor
  · rintro hsensitive ⟨hmissed, hcamel⟩
    have hfalse := (missedCamelNames_cases name hmissed).2.1
    rw [isSensitiveMetadataKey_eq, hcamel.normalized hname, hfalse] at hsensitive
    exact Bool.false_ne_true hsensitive
  · intro hnot
    obtain hsingle | hmissed | hcompact := sensitiveNames_cases name hname
    · obtain ⟨hwords, hsensitive⟩ := singleWordNames_cases name hsingle
      obtain ⟨lead, body, trail, hkey, hlead, htrail, hspell⟩ := h
      have hcase := (hwords ▸ hspell).singleton
      have hword : name.toList ∈ nameWords name := hwords ▸ List.mem_singleton_self _
      obtain ⟨hne, halnum⟩ := nameWords_alphanumeric name hname _ hword
      rw [isSensitiveMetadataKey_eq, normalizeMetadataKey_together hkey hlead htrail
        (hcase.ne_nil hne) (hcase.alphanumeric halnum), hcase]
      exact hsensitive
    · obtain ⟨-, -, first, second, hwords, hsensitive⟩ := missedCamelNames_cases name hmissed
      obtain ⟨hcamel, -⟩ | hnormalized := normalizeMetadataKey_pair hname hwords h
      · exact absurd ⟨hmissed, hcamel⟩ hnot
      · rw [isSensitiveMetadataKey_eq, hnormalized]
        exact hsensitive
    · exact isSensitiveMetadataKey_of_compact hcompact
        (by rw [h.compact hname, String.toList_ofList])

-- what the redaction leaves

/-- No spelled member keeps a value. -/
def Conceals (value : Json) : Prop :=
  ∀ key held, value.Member key held → SpellsListed key → held = .string "[redacted]"

mutual

/-- Nothing has changed but the values under keys that are sensitive. -/
inductive RedactedFrom : Json → Json → Prop
  | null : RedactedFrom .null .null
  | bool (b : Bool) : RedactedFrom (.bool b) (.bool b)
  | number (n : Int) : RedactedFrom (.number n) (.number n)
  | string (s : String) : RedactedFrom (.string s) (.string s)
  | array {values redacted : List Json} : ValuesRedactedFrom values redacted →
    RedactedFrom (.array values) (.array redacted)
  | object {members redacted : List (String × Json)} : MembersRedactedFrom members redacted →
    RedactedFrom (.object members) (.object redacted)

inductive ValuesRedactedFrom : List Json → List Json → Prop
  | nil : ValuesRedactedFrom [] []
  | cons {value redacted : Json} {values rest : List Json} : RedactedFrom value redacted →
    ValuesRedactedFrom values rest → ValuesRedactedFrom (value :: values) (redacted :: rest)

inductive MembersRedactedFrom : List (String × Json) → List (String × Json) → Prop
  | nil : MembersRedactedFrom [] []
  | sensitive {key : String} {value : Json} {members rest : List (String × Json)} :
    ListedTogether key ∨ RuleKey key → MembersRedactedFrom members rest →
    MembersRedactedFrom ((key, value) :: members) ((key, .string "[redacted]") :: rest)
  | other {key : String} {value redacted : Json} {members rest : List (String × Json)} :
    RedactedFrom value redacted → MembersRedactedFrom members rest →
    MembersRedactedFrom ((key, value) :: members) ((key, redacted) :: rest)

end

theorem containsChars_iff {part : String} {cs : List Char} :
    containsChars part cs = true ↔ part.toList <:+: cs := by
  induction cs with
  | nil => simp [containsChars]
  | cons c cs ih =>
    rw [containsChars, Bool.or_eq_true, ih, List.infix_cons_iff, List.isPrefixOf_iff_prefix]

theorem sensitiveCompactNames_listed : ∀ compact ∈ sensitiveCompactNames, ∃ name ∈ sensitiveNames,
    compact.toList = name.toList.filter (· ≠ '_') := by
  decide

/-- What the code takes for sensitive is a listed name or falls under a rule. -/
theorem sensitive_of_isSensitiveMetadataKey {key : String}
    (h : isSensitiveMetadataKey key = true) : ListedTogether key ∨ RuleKey key := by
  rw [isSensitiveMetadataKey_eq, isSensitiveNormalized, Bool.or_eq_true, Bool.or_eq_true,
    Bool.or_eq_true, Bool.or_eq_true, Bool.or_eq_true, List.any_eq_true, List.any_eq_true,
    List.any_eq_true, containsChars_iff, containsChars_iff, containsChars_iff] at h
  obtain ((((⟨name, hname, heq⟩ | ⟨compact, hcompact, heq⟩) | ⟨suffix, hsuffix, hends⟩) | hkek) |
    hcode) | hcode := h
  · left
    refine ⟨name, hname, ?_⟩
    rw [← of_decide_eq_true heq]
  · left
    obtain ⟨name, hname, hlisted⟩ := sensitiveCompactNames_listed compact hcompact
    exact ⟨name, hname, (of_decide_eq_true heq).symm.trans hlisted⟩
  · exact .inr (.inl ⟨suffix, hsuffix, List.isSuffixOf_iff_suffix.mp hends⟩)
  · exact .inr (.inr (.inr ⟨_, .head _, hkek⟩))
  · exact .inr (.inr (.inl hcode))
  · exact .inr (.inr (.inr ⟨_, .tail _ (.head _), hcode⟩))

theorem membersRedactedFrom (members : List (String × Json))
    (h : ∀ m ∈ members, RedactedFrom m.2 (redactSensitiveMetadata m.2)) :
    MembersRedactedFrom members (members.map redactMember) := by
  induction members with
  | nil => exact .nil
  | cons m members ih =>
    obtain ⟨key, value⟩ := m
    have hrest := ih fun m hm => h m (.tail _ hm)
    rw [List.map_cons, redactMember]
    by_cases hkey : isSensitiveMetadataKey key = true
    · rw [if_pos hkey]
      exact .sensitive (sensitive_of_isSensitiveMetadataKey hkey) hrest
    · rw [if_neg hkey]
      exact .other (h _ (.head _)) hrest

theorem redactedFrom_redact (value : Json) :
    RedactedFrom value (redactSensitiveMetadata value) := by
  induction value using Json.induct with
  | null => exact .null
  | bool b => exact .bool b
  | number n => exact .number n
  | string s =>
    rw [redact_string]
    exact .string s
  | array values ih =>
    rw [redact_array]
    refine .array ?_
    induction values with
    | nil => exact .nil
    | cons value values ihs =>
      exact .cons (ih value (.head _)) (ihs fun v hv => ih v (.tail _ hv))
  | object members ih =>
    rw [redact_object]
    exact .object (membersRedactedFrom members ih)

/-- What a kept member is in the redacted value. -/
theorem member_of_kept {value held : Json} {key : String} (h : value.Kept key held) :
    (redactSensitiveMetadata value).Member key (redactMember (key, held)).2 := by
  induction h with
  | here hmem =>
    rw [redact_object]
    exact .here (List.mem_map_of_mem (f := redactMember) hmem)
  | object hmem houter _ ih =>
    rw [redact_object]
    refine .object (List.mem_map_of_mem (f := redactMember) hmem) ?_
    rwa [if_neg (Bool.eq_false_iff.mp houter)]
  | array hmem _ ih =>
    rw [redact_array]
    exact .array (List.mem_map_of_mem hmem) ih

theorem not_member_marker {key : String} {held : Json} :
    ¬(Json.string "[redacted]").Member key held := by
  intro h
  cases h

/-- The members of the redacted value are the kept ones. -/
theorem kept_of_member {value held : Json} {key : String}
    (h : (redactSensitiveMetadata value).Member key held) :
    ∃ before, value.Kept key before ∧ held = (redactMember (key, before)).2 := by
  induction value using Json.induct with
  | null => cases h
  | bool => cases h
  | number => cases h
  | string s =>
    rw [redact_string] at h
    cases h
  | array values ih =>
    rw [redact_array] at h
    cases h with
    | array hmem hinner =>
      obtain ⟨v, hv, rfl⟩ := List.mem_map.mp hmem
      obtain ⟨before, hkept, heq⟩ := ih v hv hinner
      exact ⟨before, .array hv hkept, heq⟩
  | object members ih =>
    rw [redact_object] at h
    cases h with
    | here hmem =>
      obtain ⟨m, hm, heq⟩ := List.mem_map.mp hmem
      obtain ⟨rfl, rfl⟩ := Prod.mk.inj heq
      exact ⟨m.2, .here hm, rfl⟩
    | object hmem hinner =>
      obtain ⟨m, hm, heq⟩ := List.mem_map.mp hmem
      obtain ⟨rfl, rfl⟩ := Prod.mk.inj heq
      by_cases hkey : isSensitiveMetadataKey m.1 = true
      · rw [if_pos hkey] at hinner
        exact absurd hinner not_member_marker
      · rw [if_neg hkey] at hinner
        obtain ⟨before, hkept, heq⟩ := ih m hm hinner
        exact ⟨before, .object hm (Bool.eq_false_iff.mpr hkey) hkept, heq⟩

theorem redactMember_eq_marker {key : String} {held : Json} :
    (redactMember (key, held)).2 = .string "[redacted]" ↔
      isSensitiveMetadataKey key = true ∨ held = .string "[redacted]" := by
  by_cases hkey : isSensitiveMetadataKey key = true
  · simp [redactMember, hkey]
  · simp [redactMember, hkey, redact_eq_marker]

end CairnId
