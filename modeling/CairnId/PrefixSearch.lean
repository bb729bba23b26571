import CairnId.Http.SearchFilters
import CairnId.Text.Like

/-!
# Searching for a prefix

A search text becomes a pattern of `LIKE` by `%` behind it, with the symbols in it that
`LIKE` gives a meaning left as they are.

## Main definitions

- `PlainSearch` — the texts that no row tells from a prefix
- `UserSearchIsPrefix`, `EventSearchIsPrefix`, `ExportIsPrefix` — the search is for a prefix

## Main results

- `like_append_iff` — `like` is the meaning of the pattern
- `prefix_search_exact` — when the search is for a prefix
-/

namespace CairnId

open Concurrency.Sql Database

-- patterns

/-- What `LIKE` matches. -/
abbrev Matches := Like.Likes '%' '_' '\\'

abbrev PlainChar := Like.Plain '%' '_' '\\'

theorem like_plain {c : Char} (h : PlainChar c) (pattern : List Char) (d : Char)
    (text : List Char) : like (c :: pattern) (d :: text) = (c = d && like pattern text) := by
  obtain ⟨hrun, hone, hescape⟩ := h
  exact like.eq_4 _ _ _ _ hrun hone fun _ _ heq _ => hescape heq

theorem like_cons_nil {c : Char} (hc : c ≠ '%') (pattern : List Char) :
    like (c :: pattern) [] = false := by
  refine like.eq_6 _ _ ?_ ?_ ?_ ?_ ?_
  · intro _ heq
    exact hc (List.cons.inj heq).1
  · exact fun _ _ _ _ heq => List.cons_ne_nil _ _ heq.symm
  · exact fun _ _ _ _ _ heq => List.cons_ne_nil _ _ heq.symm
  · exact fun _ _ _ _ _ heq => List.cons_ne_nil _ _ heq.symm
  · exact fun heq _ => List.cons_ne_nil _ _ heq

theorem matches_run_iff {pattern text : List Char} :
    Matches ('%' :: pattern) text ↔ ∃ rest, rest <:+ text ∧ Matches pattern rest := by
  constructor
  · intro h
    cases h with
    | run skipped hrest => exact ⟨_, List.suffix_append _ _, hrest⟩
    | literal hrun => exact absurd rfl hrun
  · rintro ⟨rest, ⟨skipped, rfl⟩, hrest⟩
    exact .run skipped hrest

theorem matches_one_iff {pattern text : List Char} {c : Char} :
    Matches ('_' :: pattern) (c :: text) ↔ Matches pattern text := by
  constructor
  · intro h
    cases h with
    | one _ hrest => exact hrest
    | literal _ hone => exact absurd rfl hone
  · exact .one c

theorem matches_escaped_iff {pattern text : List Char} {c d : Char} :
    Matches ('\\' :: c :: pattern) (d :: text) ↔ c = d ∧ Matches pattern text := by
  constructor
  · intro h
    cases h with
    | escaped _ hrest => exact ⟨rfl, hrest⟩
    | literal _ _ hescape => exact absurd rfl hescape
  · rintro ⟨rfl, hrest⟩
    exact .escaped c hrest

theorem matches_plain_iff {pattern text : List Char} {c d : Char} (h : PlainChar c) :
    Matches (c :: pattern) (d :: text) ↔ c = d ∧ Matches pattern text := by
  obtain ⟨hrun, hone, hescape⟩ := h
  constructor
  · intro h
    generalize hsubject : d :: text = subject at h
    cases h with
    | run => exact absurd rfl hrun
    | one => exact absurd rfl hone
    | escaped => exact absurd rfl hescape
    | literal _ _ _ hrest =>
      obtain ⟨rfl, rfl⟩ := List.cons.inj hsubject
      exact ⟨rfl, hrest⟩
  · rintro ⟨rfl, hrest⟩
    exact .literal hrun hone hescape hrest

theorem not_matches_nil {pattern : List Char} {c : Char} (h : c ≠ '%') :
    ¬Matches (c :: pattern) [] := by
  intro hmatches
  generalize hnil : ([] : List Char) = text at hmatches
  cases hmatches with
  | run => exact h rfl
  | one => cases hnil
  | escaped => cases hnil
  | literal => cases hnil

theorem like_nil_iff {text : List Char} : like [] text = true ↔ Matches [] text := by
  cases text with
  | nil => exact ⟨fun _ => .nil, fun _ => rfl⟩
  | cons c text =>
    constructor
    · intro h
      exact absurd h Bool.false_ne_true
    · intro h
      cases h

/-- `like` decides what a pattern with `%` at its end matches. -/
theorem like_append_iff {plain text : List Char} :
    like (plain ++ ['%']) text = true ↔ Matches (plain ++ ['%']) text := by
  induction plain using Like.induction_on '%' '_' '\\' generalizing text with
  | nil =>
    rw [List.nil_append, like, List.any_eq_true]
    simp only [List.mem_tails, like_nil_iff]
    exact matches_run_iff.symm
  | run_cons plain ih =>
    rw [List.cons_append, like, List.any_eq_true, matches_run_iff]
    simp only [List.mem_tails, ih]
  | one_cons plain ih =>
    cases text with
    | nil => simp [like_cons_nil, not_matches_nil]
    | cons c text => rw [List.cons_append, like, matches_one_iff, ih]
  | last =>
    cases text with
    | nil => simp [like_cons_nil, not_matches_nil]
    | cons c text =>
      show like ['\\', '%'] (c :: text) = true ↔ Matches ['\\', '%'] (c :: text)
      rw [like, matches_escaped_iff, Bool.and_eq_true, decide_eq_true_iff, like_nil_iff]
  | escaped_cons d plain ih =>
    cases text with
    | nil => simp [like_cons_nil, not_matches_nil]
    | cons c text =>
      rw [List.cons_append, List.cons_append, like, matches_escaped_iff, Bool.and_eq_true,
        decide_eq_true_iff, ih]
  | plain_cons d plain hplain ih =>
    cases text with
    | nil => simp [like_cons_nil hplain.1, not_matches_nil hplain.1]
    | cons c text =>
      rw [List.cons_append, like_plain hplain, matches_plain_iff hplain, Bool.and_eq_true,
        decide_eq_true_iff, ih]

-- what the filters hand on

theorem isEmpty_iff_trim {value : String} : (trim value).isEmpty = true ↔ trim value = "" :=
  String.isEmpty_iff

theorem adminAuditPrefixFilter_ok {value message : String} {searchPrefix : Option String}
    (h : adminAuditPrefixFilter value message = .ok searchPrefix) :
    searchPrefix = if trim value = "" then none else some (trim value) := by
  rw [adminAuditPrefixFilter] at h
  by_cases hlong : 128 < (trim value).utf8ByteSize
  · rw [if_pos hlong] at h
    cases h
  · rw [if_neg hlong] at h
    obtain rfl := Except.ok.inj h
    simp only [isEmpty_iff_trim]

theorem auditExportPrefix_ok {value message : String} {searchPrefix : Option String}
    (h : auditExportPrefix value message = .ok searchPrefix) :
    searchPrefix = if trim value = "" then none else some (asciiLowercase (trim value)) := by
  rw [auditExportPrefix] at h
  by_cases hlong : 128 < (trim value).utf8ByteSize
  · rw [if_pos hlong] at h
    cases h
  · rw [if_neg hlong] at h
    by_cases hempty : trim value = ""
    · rw [if_pos (isEmpty_iff_trim.mpr hempty)] at h
      rw [if_pos hempty, ← Except.ok.inj h]
    · rw [if_neg (fun hc => hempty (isEmpty_iff_trim.mp hc))] at h
      rw [if_neg hempty, ← Except.ok.inj h]

theorem accepted_of_length {value : String} (h : (trim value).utf8ByteSize ≤ 128)
    (message : String) :
    (∃ searchPrefix, adminAuditPrefixFilter value message = .ok searchPrefix) ∧
      ∃ searchPrefix, auditExportPrefix value message = .ok searchPrefix := by
  have hlong : ¬128 < (trim value).utf8ByteSize := by omega
  rw [adminAuditPrefixFilter, auditExportPrefix, if_neg hlong, if_neg hlong]
  refine ⟨⟨_, rfl⟩, ?_⟩
  by_cases hempty : (trim value).isEmpty = true
  · exact ⟨none, if_pos hempty⟩
  · exact ⟨_, if_neg hempty⟩

theorem toAsciiLowercase_toAsciiLowercase (c : Char) :
    toAsciiLowercase (toAsciiLowercase c) = toAsciiLowercase c := by
  rw [← Char.toNat_inj, toNat_toAsciiLowercase, toNat_toAsciiLowercase]
  by_cases h : 0x41 ≤ c.toNat ∧ c.toNat ≤ 0x5A
  · rw [if_pos h, if_neg (by omega)]
  · rw [if_neg h, if_neg h]

theorem asciiLowercase_asciiLowercase (value : String) :
    asciiLowercase (asciiLowercase value) = asciiLowercase value := by
  apply String.toList_injective
  rw [asciiLowercase_toList, asciiLowercase_toList, List.map_map]
  exact List.map_congr_left fun c _ => toAsciiLowercase_toAsciiLowercase c

theorem asciiLowercase_eq_empty {value : String} : asciiLowercase value = "" ↔ value = "" := by
  rw [← String.toList_inj, asciiLowercase_toList, ← String.toList_inj]
  exact List.map_eq_nil_iff

/-- The pattern of a text that was trimmed, with or without its upper case letters. -/
theorem prefixSearchPattern_of_read {value text : String} (h : text = trim value ∨
    text = asciiLowercase (trim value)) :
    prefixSearchPattern (if trim value = "" then none else some text) =
      if trim value = "" then none else some (asciiLowercase (trim value) ++ "%") := by
  by_cases hempty : trim value = ""
  · rw [if_pos hempty, if_pos hempty]
    rfl
  · have htrim : trim text = text := by
      obtain rfl | rfl := h
      · exact trim_trim value
      · rw [trim_asciiLowercase, trim_trim]
    have hlower : asciiLowercase text = asciiLowercase (trim value) := by
      obtain rfl | rfl := h
      · rfl
      · exact asciiLowercase_asciiLowercase _
    have hne : text ≠ "" := by
      obtain rfl | rfl := h
      · exact hempty
      · exact fun heq => hempty (asciiLowercase_eq_empty.mp heq)
    have hfilter : (!(trim text).isEmpty) = true := by
      rw [htrim]
      simpa using hne
    rw [if_neg hempty, if_neg hempty, prefixSearchPattern, Option.map_some, Option.filter_some,
      if_pos hfilter, Option.map_some, htrim, hlower]

-- what the search is meant to be

/-- The text is one that PostgreSQL can store, in ASCII. -/
def IsAsciiText (text : String) : Prop := ∀ c ∈ text.toList, 0 < c.toNat ∧ c.toNat < 128

def StartsWith (text start : String) : Prop := start.toList <+: text.toList

section search

variable (lower : String → String)

/-- The text has none of the three symbols, or it can begin no text in ASCII. -/
def PlainSearch (value : String) : Prop :=
  (IsAsciiText (trim value) ∧ ∀ c ∈ (trim value).toList, PlainChar c) ∨
    (¬IsAsciiText (trim value) ∧ ¬(IsAsciiText (lower (trim value)) ∧
      asciiLowercase (lower (trim value)) = lower (trim value)))

/-- The users that are found are those whose address or name begins with the text. -/
def UserSearchIsPrefix (value : String) : Prop :=
  ∀ searchPrefix, adminUserSearchPrefix value = .ok searchPrefix → ∀ user : User,
    IsAsciiText user.email → IsAsciiText user.displayName →
    (matchesPattern (prefixSearchPattern searchPrefix)
      [lower user.email, lower user.displayName] = true ↔
      StartsWith (lower user.email) (lower (trim value)) ∨
        StartsWith (lower user.displayName) (lower (trim value)))

/-- The events that a filter admits are those whose action or target begins with the
    text. -/
def EventFilterIsPrefix (value : String) (searchPrefix : Option String) : Prop :=
  ∀ event : AuditEvent,
    (IsAsciiText event.action →
      (matchesPattern (prefixSearchPattern searchPrefix) [lower event.action] = true ↔
        StartsWith (lower event.action) (lower (trim value)))) ∧
    (IsAsciiText event.target →
      (matchesPattern (prefixSearchPattern searchPrefix) [lower event.target] = true ↔
        StartsWith (lower event.target) (lower (trim value))))

def EventSearchIsPrefix (value : String) : Prop :=
  ∀ message searchPrefix, adminAuditPrefixFilter value message = .ok searchPrefix →
    EventFilterIsPrefix lower value searchPrefix

/-- The same for the export, whose rows are all inside the filter. -/
def ExportIsPrefix (value : String) : Prop :=
  ∀ message searchPrefix, auditExportPrefix value message = .ok searchPrefix →
    EventFilterIsPrefix lower value searchPrefix ∧
    ∀ (db : Db) organizationId filter after limit, ∀ event ∈ listAuditEventsPageFiltered lower db
      organizationId filter after limit,
      (filter.actionPrefix = searchPrefix → IsAsciiText event.action →
        StartsWith (lower event.action) (lower (trim value))) ∧
      (filter.targetPrefix = searchPrefix → IsAsciiText event.target →
        StartsWith (lower event.target) (lower (trim value)))

end search

-- one text against one row

section exactness

variable {lower : String → String}

/-- The pattern of the search text matches the row. -/
def Finds (lower : String → String) (value row : String) : Prop :=
  trim value = "" ∨ like ((asciiLowercase (trim value)).toList ++ ['%']) (lower row).toList = true

theorem matchesPattern_iff {value text : String} (h : text = trim value ∨
    text = asciiLowercase (trim value)) (rows : List String) (hrows : rows ≠ []) :
    matchesPattern (prefixSearchPattern (if trim value = "" then none else some text))
      (rows.map lower) = true ↔ ∃ row ∈ rows, Finds lower value row := by
  rw [prefixSearchPattern_of_read h, matchesPattern]
  by_cases hempty : trim value = ""
  · rw [if_pos hempty]
    obtain ⟨row, hrow⟩ := List.exists_mem_of_ne_nil rows hrows
    exact ⟨fun _ => ⟨row, hrow, .inl hempty⟩, fun _ => rfl⟩
  · have hpattern : (asciiLowercase (trim value) ++ "%").toList =
        (asciiLowercase (trim value)).toList ++ ['%'] := String.toList_append
    rw [if_neg hempty, Option.all_some, List.any_map, List.any_eq_true]
    simp only [Function.comp_apply, hpattern, Finds, hempty, false_or]

theorem matchesPattern_row {value text : String} (h : text = trim value ∨
    text = asciiLowercase (trim value)) (row : String) :
    matchesPattern (prefixSearchPattern (if trim value = "" then none else some text))
      [lower row] = true ↔ Finds lower value row := by
  have hmatches := @matchesPattern_iff lower value text h [row] (List.cons_ne_nil _ _)
  rw [List.map_singleton] at hmatches
  rw [hmatches]
  simp

theorem plainChar_toAsciiLowercase {c : Char} :
    PlainChar (toAsciiLowercase c) ↔ PlainChar c := by
  have hsymbol : ∀ d : Char, ¬PlainChar d → (toAsciiLowercase c = d ↔ c = d) := by
    intro d hd
    have hspecial : d = '%' ∨ d = '_' ∨ d = '\\' := by
      by_contra hnone
      simp only [not_or] at hnone
      exact hd hnone
    obtain rfl | rfl | rfl := hspecial <;> exact toAsciiLowercase_eq_iff (by decide) (by decide)
  have hrun := hsymbol '%' fun h => h.1 rfl
  have hone := hsymbol '_' fun h => h.2.1 rfl
  have hescape := hsymbol '\\' fun h => h.2.2 rfl
  simp only [PlainChar, Like.Plain, ne_eq, hrun, hone, hescape]

theorem isAsciiText_asciiLowercase {text : String} :
    IsAsciiText (asciiLowercase text) ↔ IsAsciiText text := by
  have hchar : ∀ c : Char, (0 < (toAsciiLowercase c).toNat ∧ (toAsciiLowercase c).toNat < 128) ↔
      (0 < c.toNat ∧ c.toNat < 128) := by
    intro c
    rw [toNat_toAsciiLowercase]
    split <;> omega
  unfold IsAsciiText
  rw [asciiLowercase_toList]
  simp only [List.forall_mem_map, hchar]

/-- A pattern with a character outside ASCII matches no row in ASCII. -/
theorem isAsciiText_of_like {value row : String} (hrow : IsAsciiText row)
    (h : like ((asciiLowercase value).toList ++ ['%']) row.toList = true) : IsAsciiText value := by
  rw [← isAsciiText_asciiLowercase]
  intro c hc
  by_contra hnot
  have hplain : PlainChar c := by
    refine ⟨?_, ?_, ?_⟩ <;> rintro rfl <;> exact hnot (by decide)
  have hmem := Like.mem_of_likes (like_append_iff.mp h) hplain (List.mem_append_left _ hc)
  exact hnot (hrow c hmem)

/-- A plain text finds the rows that begin with it. -/
theorem finds_iff_of_plain (hlower : ∀ text, IsAsciiText text → lower text = asciiLowercase text)
    {value row : String} (h : PlainSearch lower value) (hrow : IsAsciiText row) :
    Finds lower value row ↔ StartsWith (lower row) (lower (trim value)) := by
  have hrowLower : IsAsciiText (lower row) := by
    rw [hlower row hrow]
    exact isAsciiText_asciiLowercase.mpr hrow
  obtain ⟨hascii, hplain⟩ | ⟨hascii, hstart⟩ := h
  · have hplain' : ∀ c ∈ (asciiLowercase (trim value)).toList, PlainChar c := by
      rw [asciiLowercase_toList]
      exact List.forall_mem_map.mpr fun c hc => plainChar_toAsciiLowercase.mpr (hplain c hc)
    rw [Finds, like_append_iff, StartsWith, hlower (trim value) hascii]
    constructor
    · rintro (hempty | hlike)
      · rw [hempty]
        exact List.nil_prefix
      · exact (Like.likes_append_run_iff hplain').mp hlike
    · intro hbegins
      exact .inr ((Like.likes_append_run_iff hplain').mpr hbegins)
  · -- neither the pattern nor a row can have the character that is not in ASCII
    constructor
    · rintro (hempty | hlike)
      · rw [hempty] at hascii
        exact absurd (fun c hc => absurd hc List.not_mem_nil) hascii
      · exact absurd (isAsciiText_of_like hrowLower hlike) hascii
    · intro hbegins
      refine absurd ⟨fun c hc => hrowLower c (hbegins.subset hc), ?_⟩ hstart
      have hsame : ∀ c ∈ (lower row).toList, toAsciiLowercase c = c := by
        rw [hlower row hrow, asciiLowercase_toList]
        exact List.forall_mem_map.mpr fun c _ => toAsciiLowercase_toAsciiLowercase c
      apply String.toList_injective
      rw [asciiLowercase_toList]
      exact (List.map_congr_left fun c hc => hsame c (hbegins.subset hc)).trans (List.map_id _)

/-- Some row tells any other text from a prefix. -/
theorem exists_row_of_not_plain
    (hlower : ∀ text, IsAsciiText text → lower text = asciiLowercase text) {value : String}
    (h : ¬PlainSearch lower value) : ∃ row, IsAsciiText row ∧
      ¬(Finds lower value row ↔ StartsWith (lower row) (lower (trim value))) := by
  by_cases hascii : IsAsciiText (trim value)
  · have hspecial : ∃ c ∈ (asciiLowercase (trim value)).toList, ¬PlainChar c := by
      by_contra hnone
      refine h (.inl ⟨hascii, fun c hc => ?_⟩)
      by_contra hc'
      refine hnone ⟨toAsciiLowercase c, ?_, fun hp => hc' (plainChar_toAsciiLowercase.mp hp)⟩
      rw [asciiLowercase_toList]
      exact List.mem_map_of_mem hc
    obtain ⟨subject, hlikes, hnot, hmem⟩ :=
      Like.exists_likes_not_prefix (a := 'a') (by decide) (by decide) hspecial
    have hchars : ∀ c ∈ subject, (0 < c.toNat ∧ c.toNat < 128) ∧ toAsciiLowercase c = c := by
      intro c hc
      obtain hin | rfl | rfl := hmem c hc
      · refine ⟨isAsciiText_asciiLowercase.mpr hascii c hin, ?_⟩
        rw [asciiLowercase_toList] at hin
        obtain ⟨d, -, rfl⟩ := List.mem_map.mp hin
        exact toAsciiLowercase_toAsciiLowercase d
      · exact ⟨by decide, rfl⟩
      · exact ⟨by decide, rfl⟩
    have hrow : IsAsciiText (String.ofList subject) := by
      intro c hc
      rw [String.toList_ofList] at hc
      exact (hchars c hc).1
    have hsame : (lower (String.ofList subject)).toList = subject := by
      rw [hlower _ hrow, asciiLowercase_toList, String.toList_ofList]
      exact (List.map_congr_left fun c hc => (hchars c hc).2).trans (List.map_id _)
    refine ⟨String.ofList subject, hrow, fun hiff => hnot ?_⟩
    rw [StartsWith, Finds, hsame, hlower _ hascii, like_append_iff] at hiff
    exact hiff.mp (.inr hlikes)
  · have hstart : IsAsciiText (lower (trim value)) ∧
        asciiLowercase (lower (trim value)) = lower (trim value) := by
      by_contra hnot
      exact h (.inr ⟨hascii, hnot⟩)
    refine ⟨lower (trim value), hstart.1, fun hiff => hascii ?_⟩
    rw [StartsWith, hlower _ hstart.1, hstart.2] at hiff
    have hfinds := hiff.mpr (List.prefix_refl _)
    obtain hempty | hlike := hfinds
    · rw [hempty]
      exact fun c hc => absurd hc List.not_mem_nil
    · rw [hlower _ hstart.1, hstart.2] at hlike
      exact isAsciiText_of_like hstart.1 hlike

end exactness

-- the filters

section filters

variable {lower : String → String}

theorem EventFilterIsPrefix.of_plain
    (hlower : ∀ text, IsAsciiText text → lower text = asciiLowercase text) {value text : String}
    (htext : text = trim value ∨ text = asciiLowercase (trim value))
    (h : PlainSearch lower value) :
    EventFilterIsPrefix lower value (if trim value = "" then none else some text) := by
  have hrow : ∀ row, IsAsciiText row → (matchesPattern (prefixSearchPattern
      (if trim value = "" then none else some text)) [lower row] = true ↔
        StartsWith (lower row) (lower (trim value))) := by
    intro row hascii
    rw [matchesPattern_row htext, finds_iff_of_plain hlower h hascii]
  exact fun event => ⟨hrow event.action, hrow event.target⟩

theorem PlainSearch.of_events
    (hlower : ∀ text, IsAsciiText text → lower text = asciiLowercase text) {value text : String}
    (htext : text = trim value ∨ text = asciiLowercase (trim value))
    (h : EventFilterIsPrefix lower value (if trim value = "" then none else some text)) :
    PlainSearch lower value := by
  by_contra hplain
  obtain ⟨row, hascii, hnot⟩ := exists_row_of_not_plain hlower hplain
  let event : AuditEvent := ⟨0, 0, .user, none, row, row, none, none, .null, 0⟩
  exact hnot ((matchesPattern_row htext row).symm.trans ((h event).1 hascii))

theorem eventSearchIsPrefix_iff
    (hlower : ∀ text, IsAsciiText text → lower text = asciiLowercase text) {value : String}
    (haccepted : (trim value).utf8ByteSize ≤ 128) :
    EventSearchIsPrefix lower value ↔ PlainSearch lower value := by
  constructor
  · intro h
    obtain ⟨searchPrefix, hread⟩ := (accepted_of_length haccepted "").1
    have hfilter := h "" searchPrefix hread
    rw [adminAuditPrefixFilter_ok hread] at hfilter
    exact .of_events hlower (.inl rfl) hfilter
  · intro h message searchPrefix hread
    rw [adminAuditPrefixFilter_ok hread]
    exact .of_plain hlower (.inl rfl) h

theorem userSearchIsPrefix_iff
    (hlower : ∀ text, IsAsciiText text → lower text = asciiLowercase text) {value : String}
    (haccepted : (trim value).utf8ByteSize ≤ 128) :
    UserSearchIsPrefix lower value ↔ PlainSearch lower value := by
  have hmatches := fun email displayName => @matchesPattern_iff lower value (trim value)
    (.inl rfl) [email, displayName] (List.cons_ne_nil _ _)
  simp only [List.map_cons, List.map_nil, List.mem_cons, List.not_mem_nil, or_false,
    exists_eq_or_imp, exists_eq_left] at hmatches
  constructor
  · intro h
    by_contra hplain
    obtain ⟨row, hascii, hnot⟩ := exists_row_of_not_plain hlower hplain
    let user : User := ⟨0, 0, row, none, false, row, .active, 0, 0, none⟩
    obtain ⟨searchPrefix, hread⟩ :=
      (accepted_of_length haccepted "admin user search query too large").1
    have huser := h searchPrefix hread user hascii hascii
    rw [adminAuditPrefixFilter_ok hread, hmatches, or_self, or_self] at huser
    exact hnot huser
  · intro h searchPrefix hread user hemail hname
    rw [adminAuditPrefixFilter_ok hread, hmatches, finds_iff_of_plain hlower h hemail,
      finds_iff_of_plain hlower h hname]

theorem exportIsPrefix_iff
    (hlower : ∀ text, IsAsciiText text → lower text = asciiLowercase text) {value : String}
    (haccepted : (trim value).utf8ByteSize ≤ 128) :
    ExportIsPrefix lower value ↔ PlainSearch lower value := by
  constructor
  · intro h
    obtain ⟨searchPrefix, hread⟩ := (accepted_of_length haccepted "").2
    have hfilter := (h "" searchPrefix hread).1
    rw [auditExportPrefix_ok hread] at hfilter
    exact .of_events hlower (.inr rfl) hfilter
  · intro h message searchPrefix hread
    have hfilter : EventFilterIsPrefix lower value searchPrefix := by
      rw [auditExportPrefix_ok hread]
      exact .of_plain hlower (.inr rfl) h
    refine ⟨hfilter, ?_⟩
    intro db organizationId filter after limit event hmem
    have hin : event ∈ auditEventsMatching lower db organizationId filter := by
      rw [listAuditEventsPageFiltered, newestFirst] at hmem
      have hsorted := List.mem_of_mem_take hmem
      rw [List.mem_insertionSort] at hsorted
      exact (List.mem_filter.mp hsorted).1
    have hconditions := (List.mem_filter.mp hin).2
    simp only [Bool.and_eq_true] at hconditions
    obtain ⟨⟨⟨⟨⟨⟨-, haction⟩, htarget⟩, -⟩, -⟩, -⟩, -⟩ := hconditions
    constructor
    · rintro rfl hascii
      exact ((hfilter event).1 hascii).mp haction
    · rintro rfl hascii
      exact ((hfilter event).2 hascii).mp htarget

end filters

/-- An accepted search text is searched for as a prefix exactly when it is plain: in the
    user list, in the audit list and in the export. -/
theorem prefix_search_exact (lower : String → String)
    (hlower : ∀ text, IsAsciiText text → lower text = asciiLowercase text) (value : String)
    (haccepted : (trim value).utf8ByteSize ≤ 128) :
    (UserSearchIsPrefix lower value ∧ EventSearchIsPrefix lower value ∧
      ExportIsPrefix lower value) ↔ PlainSearch lower value := by
  rw [userSearchIsPrefix_iff hlower haccepted, eventSearchIsPrefix_iff hlower haccepted,
    exportIsPrefix_iff hlower haccepted, and_self, and_self]

theorem prefix_search_exact_login :
    (UserSearchIsPrefix asciiLowercase " user.login " ∧
      EventSearchIsPrefix asciiLowercase " user.login " ∧
      ExportIsPrefix asciiLowercase " user.login ") ↔
    PlainSearch asciiLowercase " user.login " :=
  prefix_search_exact asciiLowercase (fun _ _ => rfl) " user.login " (by decide)

/-- The underscore in an action stands for any character. -/
theorem underscore_widens_search :
    ¬EventSearchIsPrefix asciiLowercase "api_" ∧ ¬ExportIsPrefix asciiLowercase "api_" ∧
      matchesPattern (prefixSearchPattern (some "api_")) [asciiLowercase "apiX.created"] = true ∧
      ¬StartsWith (asciiLowercase "apiX.created") (asciiLowercase "api_") := by
  have hmatches : matchesPattern (prefixSearchPattern (some "api_"))
      [asciiLowercase "apiX.created"] = true := by decide
  have hstarts : ¬StartsWith (asciiLowercase "apiX.created") (asciiLowercase "api_") := by
    rw [StartsWith]
    decide
  have htrim : trim "api_" = "api_" := by decide
  have hascii : IsAsciiText "apiX.created" := by
    have hall : ("apiX.created".toList.all fun c => 0 < c.toNat && c.toNat < 128) = true := by
      decide
    intro c hc
    simpa using List.all_eq_true.mp hall c hc
  let event : AuditEvent := ⟨0, 0, .user, none, "apiX.created", "", none, none, .null, 0⟩
  have hfilter : ¬EventFilterIsPrefix asciiLowercase "api_" (some "api_") := by
    intro h
    have haction := (h event).1 hascii
    rw [htrim] at haction
    exact hstarts (haction.mp hmatches)
  refine ⟨fun h => hfilter (h "" _ ?_), fun h => hfilter (h "" _ ?_).1, hmatches, hstarts⟩
  · rfl
  · rfl

end CairnId
