import CairnId.Http.ScimFilterSpec

/-!
# SCIM filters do not fail open

What a filter that the parser takes says about the resources that are listed, and
which texts are taken for a filter.

## Main results

* `filters_constrain_iff` — when each condition is a constraint of the listing
* `literals_exact_iff` — when a value between quotes is read exactly
-/

namespace CairnId

open Concurrency.Prog Database

-- conditions and constraints

def User.Satisfies (user : User) : ScimCondition → Prop
  | .userName email => user.email = email
  | .externalId value => user.scimExternalId = some value
  | .active b => user.status = .active ↔ b = true
  | .displayName value => user.displayName = value

def Group.Satisfies (group : Group) : ScimCondition → Prop
  | .displayName value => group.displayName = value
  | .externalId value => group.scimExternalId = some value
  | .userName _ | .active _ => False

/-- The constraints are the conditions that the filter is written as, one for each and
    no two of one attribute, and what is listed satisfies every condition. -/
def ConstrainsAll {α : Type} (Of : ScimCondition → Prop) (filter : String)
    (constraints : List ScimCondition) (Listed : α → Prop) (Satisfies : α → ScimCondition → Prop) :
    Prop :=
  ∃ cs, FilterSays Of filter cs ∧ constraints.Perm cs ∧ (cs.map (·.attr)).Nodup ∧
    ∀ a, Listed a → ∀ c ∈ cs, Satisfies a c

def UserFilterConstrains (filter : String) (f : ScimUserListFilter) : Prop :=
  ConstrainsAll ScimCondition.OfUser filter f.constraints
    (fun user : User => ∃ db organizationId startIndex count,
      user ∈ (listScimUsersPageFiltered db organizationId f startIndex count).2) User.Satisfies

def GroupFilterConstrains (filter : String) (f : ScimGroupListFilter) : Prop :=
  ConstrainsAll ScimCondition.OfGroup filter f.constraints
    (fun group : Group => ∃ db organizationId startIndex count,
      group ∈ (listScimGroupsPageFiltered db organizationId f startIndex count).2) Group.Satisfies

/-- A condition of the filter compares the external identifier with blank text. -/
def AsksForBlank (filter : String) : Prop :=
  ∃ conditions, splitScimAndConditions filter = .ok conditions ∧
    ∃ condition ∈ conditions, (ScimCondition.externalId "").WrittenAs condition

theorem mem_of_mem_offsetPage {α : Type} {cursor : α → ListCursor} {startIndex count : Int}
    {rows : List α} {a : α} (h : a ∈ (offsetPage cursor startIndex count rows).2) : a ∈ rows := by
  have hsorted := List.mem_of_mem_drop (List.mem_of_mem_take h)
  exact (List.mem_insertionSort _).mp hsorted

theorem satisfies_of_listed {db : Db} {organizationId : OrganizationId} {f : ScimUserListFilter}
    {startIndex count : Int} {user : User}
    (h : user ∈ (listScimUsersPageFiltered db organizationId f startIndex count).2)
    {c : ScimCondition} (hc : c ∈ f.constraints) : user.Satisfies c := by
  have hmatch := (List.mem_filter.mp (mem_of_mem_offsetPage h)).2
  simp only [Bool.and_eq_true, Option.all_eq_true, decide_eq_true_eq] at hmatch
  obtain ⟨⟨⟨-, hname⟩, hexternal⟩, hactive⟩ := hmatch
  simp only [ScimUserListFilter.constraints, List.mem_append, List.mem_map,
    Option.mem_toList] at hc
  rcases hc with ⟨email, hset, rfl⟩ | ⟨value, hset, rfl⟩ | ⟨b, hset, rfl⟩
  · exact hname email hset
  · exact hexternal value hset
  · have hstatus := hactive b hset
    cases b with
    | true => simpa [User.Satisfies] using hstatus
    | false => simpa [User.Satisfies] using hstatus

theorem satisfies_of_listed_group {db : Db} {organizationId : OrganizationId}
    {f : ScimGroupListFilter} {startIndex count : Int} {group : Group}
    (h : group ∈ (listScimGroupsPageFiltered db organizationId f startIndex count).2)
    {c : ScimCondition} (hc : c ∈ f.constraints) : group.Satisfies c := by
  have hmatch := (List.mem_filter.mp (mem_of_mem_offsetPage h)).2
  simp only [Bool.and_eq_true, Option.all_eq_true, decide_eq_true_eq] at hmatch
  obtain ⟨⟨-, hname⟩, hexternal⟩ := hmatch
  simp only [ScimGroupListFilter.constraints, List.mem_append, List.mem_map,
    Option.mem_toList] at hc
  rcases hc with ⟨value, hset, rfl⟩ | ⟨value, hset, rfl⟩
  · exact hname value hset
  · exact hexternal value hset

/-- Conditions without blank ones are the constraints that they set. -/
theorem TakesConditions.perm_conditions {σ : Type} {step : σ → String → ScimResult σ}
    {constraints : σ → List ScimCondition} {constrain : σ → ScimCondition → σ}
    {Of : ScimCondition → Prop} (h : TakesConditions step constraints constrain Of) {start : σ}
    (hstart : constraints start = []) {filter : String} {cs : List ScimCondition}
    (hfilter : FilterSays Of filter cs) (hblank : ∀ c ∈ cs, ¬c.IsBlank) :
    (constraints (cs.foldl constrain start)).Perm cs := by
  obtain ⟨-, -, -, hall, hrepeats⟩ := hfilter
  have hkept := h.perm_foldl hall hrepeats (f := start) fun c _ => by
    rw [hstart]
    exact List.not_mem_nil
  rwa [hstart, List.append_nil, List.filter_eq_self.mpr fun c hc => by simpa using hblank c hc]
    at hkept

theorem constrainsAll_of_not_blank {σ α : Type} {step : σ → String → ScimResult σ}
    {constraints : σ → List ScimCondition} {constrain : σ → ScimCondition → σ}
    {Of : ScimCondition → Prop} (h : TakesConditions step constraints constrain Of) {start : σ}
    (hstart : constraints start = []) {filter : String} {cs : List ScimCondition}
    (hfilter : FilterSays Of filter cs) (hblank : ∀ c ∈ cs, ¬c.IsBlank) {Listed : α → Prop}
    {Satisfies : α → ScimCondition → Prop}
    (hlisted : ∀ a, Listed a → ∀ c ∈ constraints (cs.foldl constrain start), Satisfies a c) :
    ConstrainsAll Of filter (constraints (cs.foldl constrain start)) Listed Satisfies := by
  have hperm := h.perm_conditions hstart hfilter hblank
  obtain ⟨conditions, hwritten, hcs, hall, hrepeats⟩ := hfilter
  refine ⟨cs, ⟨conditions, hwritten, hcs, hall, hrepeats⟩, hperm, ?_, fun a ha c hc => ?_⟩
  · refine List.pairwise_map.mpr (hrepeats.imp_of_mem fun hc _ hsame heq => ?_)
    exact hblank _ hc (hsame heq)
  · exact hlisted a ha c (hperm.mem_iff.mpr hc)

/-- Fewer fields are set than conditions are written if one of them is blank. -/
theorem not_blank_of_perm {σ : Type} {step : σ → String → ScimResult σ}
    {constraints : σ → List ScimCondition} {constrain : σ → ScimCondition → σ}
    {Of : ScimCondition → Prop} (h : TakesConditions step constraints constrain Of) {start : σ}
    (hstart : constraints start = []) {filter : String} {cs cs' : List ScimCondition}
    (hfilter : FilterSays Of filter cs) (hfilter' : FilterSays Of filter cs')
    (hperm : (constraints (cs.foldl constrain start)).Perm cs') : ∀ c ∈ cs, ¬c.IsBlank := by
  obtain ⟨conditions, hsplit, hcs⟩ := hfilter.split
  obtain ⟨conditions', hsplit', hcs'⟩ := hfilter'.split
  obtain rfl := Except.ok.inj (hsplit.symm.trans hsplit')
  obtain ⟨-, -, -, hall, hrepeats⟩ := hfilter
  have hkept := h.perm_foldl hall hrepeats (f := start) fun c _ => by
    rw [hstart]
    exact List.not_mem_nil
  have hlength : (cs.filter fun c => ¬c.IsBlank).length = cs.length := by
    have hset := hkept.length_eq
    rw [hstart, List.append_nil, hperm.length_eq, ← hcs'.length_eq, hcs.length_eq] at hset
    exact hset.symm
  intro c hc
  have hall := List.filter_eq_self.mp (List.filter_sublist.eq_of_length hlength) c hc
  simpa using hall

/-- **A filter does not fail open** exactly if no condition of it on the external
    identifier of users is blank. -/
theorem filters_constrain_iff (filter : String) :
    (∀ f, scimUserFilter filter = .ok f →
      (UserFilterConstrains filter f ↔ ¬AsksForBlank filter)) ∧
    ∀ f, scimGroupFilter filter = .ok f → GroupFilterConstrains filter f := by
  constructor
  · intro f hf
    obtain ⟨cs, hfilter, rfl⟩ := scimUserFilter_eq_ok_iff.mp hf
    have hlisted : ∀ user : User, (∃ db organizationId startIndex count,
        user ∈ (listScimUsersPageFiltered db organizationId
          (cs.foldl ScimUserListFilter.constrain {}) startIndex count).2) →
        ∀ c ∈ (cs.foldl ScimUserListFilter.constrain {}).constraints, user.Satisfies c := by
      rintro user ⟨db, organizationId, startIndex, count, hlist⟩ c hc
      exact satisfies_of_listed hlist hc
    obtain ⟨conditions, hsplit, hcs⟩ := hfilter.split
    constructor
    · rintro ⟨cs', hfilter', hperm, -⟩ ⟨conditions', hsplit', text, htext, hblank⟩
      have hnot := not_blank_of_perm takesConditions_scimUserFilterStep rfl hfilter hfilter' hperm
      obtain rfl := Except.ok.inj (hsplit.symm.trans hsplit')
      obtain ⟨i, hi, rfl⟩ := List.getElem_of_mem htext
      have hsame := hblank.unique (hcs.get hi (hcs.length_eq ▸ hi))
      exact hnot _ (List.get_mem _ _) hsame.symm
    · intro hnot
      refine constrainsAll_of_not_blank takesConditions_scimUserFilterStep rfl hfilter ?_ hlisted
      rintro c hc rfl
      obtain ⟨i, hi, hc⟩ := List.getElem_of_mem hc
      have hwritten := hcs.get (hcs.length_eq ▸ hi) hi
      rw [show cs.get ⟨i, hi⟩ = .externalId "" from hc] at hwritten
      exact hnot ⟨conditions, hsplit, _, List.get_mem _ _, hwritten⟩
  · intro f hf
    obtain ⟨cs, hfilter, rfl⟩ := scimGroupFilter_eq_ok_iff.mp hf
    refine constrainsAll_of_not_blank takesConditions_scimGroupFilterStep rfl hfilter ?_ ?_
    · rintro c hc rfl
      obtain ⟨-, -, -, hall, -⟩ := hfilter
      exact hall _ hc rfl
    · rintro group ⟨db, organizationId, startIndex, count, hlist⟩ c hc
      exact satisfies_of_listed_group hlist hc

namespace Sample

def externalIdFilter : String := "externalId eq \"42\""

def blankFilter : String := "externalId eq \" \""

end Sample

open Sample in
theorem filters_constrain_externalId :
    scimUserFilter externalIdFilter = .ok { externalIdEq := some "42" } ∧
    UserFilterConstrains externalIdFilter { externalIdEq := some "42" } := by
  have hfilter : scimUserFilter externalIdFilter = .ok { externalIdEq := some "42" } := by
    decide
  refine ⟨hfilter, ((filters_constrain_iff externalIdFilter).1 _ hfilter).mpr ?_⟩
  rintro ⟨conditions, hsplit, condition, hmem, attr, rawValue, hcondition, -, text, hliteral,
    hblank, -⟩
  have hone : splitScimAndConditions externalIdFilter = .ok [externalIdFilter] := by decide
  obtain rfl := Except.ok.inj (hone.symm.trans hsplit)
  obtain rfl := List.mem_singleton.mp hmem
  have hparts : scimEqCondition externalIdFilter = .ok ("externalId", "\"42\"") := by decide
  obtain ⟨rfl, rfl⟩ := Prod.mk.inj (Except.ok.inj (hparts.symm.trans hcondition))
  have hread : scimFilterString "\"42\"" = .ok "42" := by decide
  obtain rfl := hliteral.unique (scimFilterString_eq_ok_iff.mp hread)
  exact absurd hblank (by decide)

open Sample in
/-- A filter for a blank external identifier lists every user. -/
theorem blank_externalId_lists_all : scimUserFilter blankFilter = .ok {} ∧
    ¬UserFilterConstrains blankFilter {} := by
  refine ⟨by decide, ?_⟩
  rintro ⟨cs, hfilter, hperm, -⟩
  obtain ⟨conditions, hsplit, hcs⟩ := hfilter.split
  have hone : splitScimAndConditions blankFilter = .ok [blankFilter] := by decide
  obtain rfl := Except.ok.inj (hone.symm.trans hsplit)
  obtain rfl : cs = [] := List.nil_perm.mp hperm
  cases hcs

-- literals

/-- The parser reads the value as what its text between the quotes denotes. -/
def ExactLiteral (value : String) : Prop :=
  ∀ text, scimFilterString value = .ok text ↔
    ∃ inner, (trim value).toList = quotationMark :: (inner ++ [quotationMark]) ∧
      Quoted.Denotes quotationMark backslash inner text.toList

/-- Between the first and the last quote of a value stands a quote without a
    backslash, and no backslash stands before another character. -/
def BareQuoteInside (value : String) : Prop :=
  ∃ inner text, (trim value).toList = quotationMark :: (inner ++ [quotationMark]) ∧
    Quoted.unescape quotationMark backslash false inner = some text ∧
    Quoted.bare quotationMark backslash false inner = true

/-- A string is complete before the value ends. -/
def TextAfterString (value : String) : Prop :=
  ∃ inner text rest, (trim value).toList = quotationMark :: (inner ++ quotationMark :: rest) ∧
    Quoted.Denotes quotationMark backslash inner text ∧ rest ≠ []

/-- A value of a condition of the filter is such a value. -/
def HasValue (Value : String → Prop) (filter : String) : Prop :=
  ∃ conditions, splitScimAndConditions filter = .ok conditions ∧ ∃ condition ∈ conditions,
    ∃ attr rawValue, scimEqCondition condition = .ok (attr, rawValue) ∧ Value rawValue

/-- Neither parser takes the filter if something stands after a complete string. -/
def RefusesTextAfterString (filter : String) : Prop :=
  HasValue TextAfterString filter →
    (∀ f, scimUserFilter filter ≠ .ok f) ∧ ∀ f, scimGroupFilter filter ≠ .ok f

/-- The filter is written as conditions of users or of groups. -/
def SaysSomething (filter : String) : Prop :=
  ∃ cs, FilterSays ScimCondition.OfUser filter cs ∨ FilterSays ScimCondition.OfGroup filter cs

theorem exactLiteral_iff (value : String) : ExactLiteral value ↔ ¬BareQuoteInside value := by
  constructor
  · rintro hexact ⟨inner, text, hvalue, hread, hbare⟩
    have hliteral : Literal value (String.ofList text) :=
      ⟨inner, hvalue, by rw [String.toList_ofList, hread]⟩
    obtain ⟨inner', hvalue', hdenotes⟩ :=
      (hexact _).mp (scimFilterString_eq_ok_iff.mpr hliteral)
    rw [hvalue] at hvalue'
    obtain rfl := List.append_cancel_right (List.cons.inj hvalue').2
    have hnot := ((Quoted.denotes_iff_unescape quotationMark_ne_backslash).mp hdenotes).2
    rw [hbare] at hnot
    cases hnot
  · intro hnot text
    rw [scimFilterString_eq_ok_iff]
    refine exists_congr fun inner => and_congr_right fun hvalue => ?_
    rw [Quoted.denotes_iff_unescape quotationMark_ne_backslash]
    constructor
    · intro hread
      refine ⟨hread, ?_⟩
      by_contra hbare
      exact hnot ⟨inner, _, hvalue, hread, by simpa using hbare⟩
    · exact And.left

theorem textAfterString_of_bareQuoteInside {value : String} (h : BareQuoteInside value) :
    TextAfterString value := by
  obtain ⟨inner, text, hvalue, hread, hbare⟩ := h
  obtain ⟨before, v, after, rfl, hdenotes⟩ := Quoted.exists_denotes_of_bare hbare hread
  refine ⟨before, v, after ++ [quotationMark], ?_, hdenotes, by simp⟩
  rw [hvalue, List.append_assoc, List.cons_append]

/-- A literal with text after a complete string has a bare quote. -/
theorem bareQuoteInside_of_literal {value text : String} (hliteral : Literal value text)
    (h : TextAfterString value) : BareQuoteInside value := by
  obtain ⟨inner, hvalue, hread⟩ := hliteral
  obtain ⟨before, v, rest, hvalue', hdenotes, hrest⟩ := h
  refine ⟨inner, _, hvalue, hread, ?_⟩
  have hsame : inner ++ [quotationMark] = (before ++ quotationMark :: rest.dropLast) ++
      [rest.getLast hrest] := by
    have htail := (List.cons.inj (hvalue.symm.trans hvalue')).2
    rw [htail, List.append_assoc, List.cons_append, List.dropLast_append_getLast]
  obtain ⟨rfl, -⟩ := List.append_inj' hsame rfl
  exact Quoted.bare_of_denotes quotationMark_ne_backslash hdenotes

/-- The value of a condition that is read is a literal, unless it is a truth value. -/
theorem literal_of_textAfterString {rawValue : String} {c : ScimCondition}
    (hread : c.ReadFrom rawValue) (h : TextAfterString rawValue) :
    ∃ text, Literal rawValue text := by
  cases c with
  | userName | externalId | displayName =>
    obtain ⟨text, hliteral, -⟩ := hread
    exact ⟨text, hliteral⟩
  | active b =>
    obtain ⟨inner, text, rest, hvalue, -⟩ := h
    have hraw : trim rawValue = if b then "true" else "false" := hread
    rw [hraw] at hvalue
    revert hvalue
    cases b with
    | true =>
      intro hvalue
      exact absurd (List.cons.inj hvalue).1 (by decide)
    | false =>
      intro hvalue
      exact absurd (List.cons.inj hvalue).1 (by decide)

theorem bareQuoteInside_of_filterSays {Of : ScimCondition → Prop} {filter : String}
    {cs : List ScimCondition} (hfilter : FilterSays Of filter cs)
    (h : HasValue TextAfterString filter) : HasValue BareQuoteInside filter := by
  obtain ⟨conditions, hsplit, condition, hmem, attr, rawValue, hcondition, htext⟩ := h
  obtain ⟨conditions', hsplit', hcs⟩ := hfilter.split
  obtain rfl := Except.ok.inj (hsplit.symm.trans hsplit')
  obtain ⟨i, hi, rfl⟩ := List.getElem_of_mem hmem
  obtain ⟨attr', rawValue', hcondition', -, hread⟩ := hcs.get hi (hcs.length_eq ▸ hi)
  obtain ⟨rfl, rfl⟩ := Prod.mk.inj (Except.ok.inj (hcondition.symm.trans hcondition'))
  obtain ⟨text, hliteral⟩ := literal_of_textAfterString hread htext
  exact ⟨conditions, hsplit, _, hmem, attr, rawValue, hcondition,
    bareQuoteInside_of_literal hliteral htext⟩

/-- **Literals are exact** unless a quote inside of one has no backslash. -/
theorem literals_exact_iff (value filter : String) :
    (ExactLiteral value ↔ ¬BareQuoteInside value) ∧
      (RefusesTextAfterString filter ↔
        ¬(SaysSomething filter ∧ HasValue BareQuoteInside filter)) := by
  refine ⟨exactLiteral_iff value, ?_⟩
  constructor
  · rintro hrefuses ⟨⟨cs, hfilter⟩, conditions, hsplit, condition, hmem, attr, rawValue,
      hcondition, hbare⟩
    obtain ⟨huser, hgroup⟩ := hrefuses ⟨conditions, hsplit, condition, hmem, attr, rawValue,
      hcondition, textAfterString_of_bareQuoteInside hbare⟩
    rcases hfilter with hfilter | hfilter
    · exact huser _ (scimUserFilter_eq_ok_iff.mpr ⟨cs, hfilter, rfl⟩)
    · exact hgroup _ (scimGroupFilter_eq_ok_iff.mpr ⟨cs, hfilter, rfl⟩)
  · intro hnot htext
    constructor
    · intro f hf
      obtain ⟨cs, hfilter, -⟩ := scimUserFilter_eq_ok_iff.mp hf
      exact hnot ⟨⟨cs, .inl hfilter⟩, bareQuoteInside_of_filterSays hfilter htext⟩
    · intro f hf
      obtain ⟨cs, hfilter, -⟩ := scimGroupFilter_eq_ok_iff.mp hf
      exact hnot ⟨⟨cs, .inr hfilter⟩, bareQuoteInside_of_filterSays hfilter htext⟩

namespace Sample

/-- Two literals with `or` between them. -/
def orValue : String := "\"a\" or externalId eq \"b\""

/-- What stands between the first and the last quote. -/
def orText : String := "a\" or externalId eq \"b"

def orFilter : String := "externalId eq " ++ orValue

end Sample

open Sample in
/-- Two literals with `or` between them are one longer text. -/
theorem or_is_read_as_text : scimUserFilter orFilter = .ok { externalIdEq := some orText } ∧
    ¬ExactLiteral orValue ∧ ¬RefusesTextAfterString orFilter := by
  have hfilter : scimUserFilter orFilter = .ok { externalIdEq := some orText } := by
    decide
  have hvalue : (trim orValue).toList =
      quotationMark :: (orText.toList ++ [quotationMark]) := by
    decide
  have htext : TextAfterString orValue :=
    ⟨"a".toList, "a".toList, " or externalId eq \"b\"".toList, by decide,
      .plain (by decide) (by decide) .nil, by decide⟩
  refine ⟨hfilter, fun hexact => ?_, fun hrefuses => ?_⟩
  · have hread : scimFilterString orValue = .ok orText := by decide
    obtain ⟨inner, hinner, hdenotes⟩ := (hexact _).mp hread
    have hbare := ((Quoted.denotes_iff_unescape quotationMark_ne_backslash).mp hdenotes).2
    rw [hvalue] at hinner
    obtain rfl := List.append_cancel_right (List.cons.inj hinner).2
    exact absurd hbare (by decide)
  · have hvalue : HasValue TextAfterString orFilter :=
      ⟨[orFilter], by decide, _, .head _, "externalId", orValue, by decide, htext⟩
    exact (hrefuses hvalue).1 _ hfilter

end CairnId
