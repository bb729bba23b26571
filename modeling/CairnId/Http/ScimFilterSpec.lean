import CairnId.Http.ScimFilter
import CairnId.Http.ScimPatchSpec
import CairnId.Text.Quoted

/-!
# What a SCIM filter says

Which texts the parser of `scim_query/filter.rs` takes, and for which conditions.

## Main definitions

* `Literal` — a value between quotes, as the code reads it
* `WrittenAnd` — a text with `and` between its conditions
* `ScimCondition` — what a condition asks for

## Main results

* `scimFilterString_eq_ok_iff`, `splitScimAndConditions_eq_ok_iff`
* `scimUserFilter_eq_ok_iff`, `scimGroupFilter_eq_ok_iff`
-/

namespace CairnId

open Concurrency.Prog

-- literals

/-- The value is a text between quotes whose escapes are those of a quote or a
    backslash. Bare quotes between the two are part of the text. -/
def Literal (value text : String) : Prop :=
  ∃ inner, (trim value).toList = quotationMark :: (inner ++ [quotationMark]) ∧
    Quoted.unescape quotationMark backslash false inner = some text.toList

theorem unescapeFilterChars_eq_ok_iff {escaped : Bool} {chars text : List Char} :
    unescapeFilterChars escaped chars = .ok text ↔
      Quoted.unescape quotationMark backslash escaped chars = some text := by
  induction chars generalizing escaped text with
  | nil => cases escaped <;> simp [unescapeFilterChars, Quoted.unescape]
  | cons c chars ih =>
    have hmap : ∀ x, (unescapeFilterChars false chars).map (c :: ·) = .ok x ↔
        (Quoted.unescape quotationMark backslash false chars).map (c :: ·) = some x := by
      intro x
      constructor
      · intro h
        obtain ⟨text', htext, rfl⟩ := except_map_eq_ok.mp h
        rw [ih.mp htext]
        rfl
      · intro h
        obtain ⟨text', htext, rfl⟩ := Option.map_eq_some_iff.mp h
        exact except_map_eq_ok.mpr ⟨text', ih.mpr htext, rfl⟩
    cases escaped with
    | true =>
      by_cases hc : c = quotationMark ∨ c = backslash
      · simpa [unescapeFilterChars, Quoted.unescape, hc] using hmap text
      · simp [unescapeFilterChars, Quoted.unescape, hc]
    | false =>
      by_cases hc : c = backslash
      · simpa [unescapeFilterChars, Quoted.unescape, hc] using ih
      · simpa [unescapeFilterChars, Quoted.unescape, hc] using hmap text

theorem quotationMark_ne_backslash : quotationMark ≠ backslash := by decide

/-- Between a first and a last quote. -/
theorem eq_cons_append_iff {chars : List Char} :
    (chars.head? = some quotationMark ∧ chars.getLast? = some quotationMark ∧ 2 ≤ chars.length) ↔
      chars = quotationMark :: (chars.tail.dropLast ++ [quotationMark]) := by
  constructor
  · rintro ⟨hhead, hlast, hlength⟩
    obtain ⟨c, rest, rfl⟩ : ∃ c rest, chars = c :: rest := by
      cases chars with
      | nil => cases hhead
      | cons c rest => exact ⟨c, rest, rfl⟩
    obtain rfl := Option.some.inj hhead
    have hne : rest ≠ [] := by
      rintro rfl
      simp at hlength
    rw [List.getLast?_cons_of_ne_nil hne, List.getLast?_eq_some_getLast hne] at hlast
    rw [List.tail_cons, ← Option.some.inj hlast, List.dropLast_append_getLast]
  · intro h
    rw [h]
    refine ⟨rfl, ?_, ?_⟩
    · rw [← List.cons_append, List.getLast?_concat]
    · simp

/-- The parser takes literals. -/
theorem scimFilterString_eq_ok_iff {value text : String} :
    scimFilterString value = .ok text ↔ Literal value text := by
  have hunquote : ∀ inner : List Char,
      (quotationMark :: (inner ++ [quotationMark])).tail.dropLast = inner := by
    intro inner
    simp
  have hcond : (decide ((trim value).toList.head? ≠ some quotationMark) ||
      decide ((trim value).toList.getLast? ≠ some quotationMark) ||
      decide ((trim value).toList.length < 2)) = true ↔
        ¬((trim value).toList.head? = some quotationMark ∧
          (trim value).toList.getLast? = some quotationMark ∧ 2 ≤ (trim value).toList.length) := by
    simp only [Bool.or_eq_true, decide_eq_true_eq, not_and_or, Nat.not_le, or_assoc]
  unfold scimFilterString Literal
  dsimp only
  constructor
  · intro h
    split at h
    · cases h
    · rename_i hquoted
      rw [hcond, not_not] at hquoted
      obtain ⟨chars, hchars, htext⟩ := except_bind_eq_ok.mp h
      obtain rfl := Except.ok.inj htext
      refine ⟨_, eq_cons_append_iff.mp hquoted, ?_⟩
      rw [String.toList_ofList]
      exact unescapeFilterChars_eq_ok_iff.mp hchars
  · rintro ⟨inner, hvalue, hread⟩
    have hquoted := eq_cons_append_iff.mpr
      (show (trim value).toList = quotationMark :: ((trim value).toList.tail.dropLast ++
        [quotationMark]) by rw [hvalue, hunquote])
    rw [if_neg (by rw [hcond, not_not]; exact hquoted), hvalue, hunquote,
      unescapeFilterChars_eq_ok_iff.mpr hread]
    exact congrArg Except.ok (String.ofList_toList ..)

theorem Literal.unique {value text text' : String} (h : Literal value text)
    (h' : Literal value text') : text = text' := by
  have hread := scimFilterString_eq_ok_iff.mpr h
  rw [scimFilterString_eq_ok_iff.mpr h'] at hread
  exact (Except.ok.inj hread).symm

-- conditions

/-- The keyword `and`, with a space on each side. -/
def startsWithAnd (chars : List Char) : Bool := asciiKeywordAt chars " and "

/-- The scan of the text from a state, before the rest. -/
def Outside (inString escaped : Bool) (text rest : List Char) : Prop :=
  Quoted.passes quotationMark backslash startsWithAnd inString escaped text rest = true

/-- The conditions of a text, with keywords between them that are outside of quotes. -/
inductive WrittenAnd : List Char → List String → Prop where
  | last {text : List Char} (h : Outside false false text []) :
      WrittenAnd text [trim (String.ofList text)]
  | and {text keyword rest : List Char} {conditions : List String}
      (h : Outside false false text (keyword ++ rest))
      (hkeyword : keyword.map toAsciiLowercase = " and ".toList)
      (hrest : WrittenAnd rest conditions) :
      WrittenAnd (text ++ (keyword ++ rest)) (trim (String.ofList text) :: conditions)

theorem scimAndCondition_eq_ok_iff {chars : List Char} {condition : String} :
    scimAndCondition chars = .ok condition ↔
      condition = trim (String.ofList chars.reverse) ∧ condition ≠ "" := by
  unfold scimAndCondition
  by_cases h : trim (String.ofList chars.reverse) = ""
  · rw [h, if_pos (by simp)]
    simp only [reduceCtorEq, false_iff]
    rintro ⟨rfl, hne⟩
    exact hne rfl
  · simp only [String.isEmpty_iff, h, if_false, Except.ok.injEq, eq_comm (b := condition)]
    constructor
    · rintro rfl
      exact ⟨rfl, h⟩
    · exact And.left

variable {inString escaped : Bool} {condition text keyword rest : List Char}
  {conditions : List String}

/-- The loop gets through a text that the scan gets through. -/
theorem splitLoop_of_outside (h : Outside inString escaped text rest) :
    splitScimAndConditionsLoop 0 inString escaped condition (text ++ rest) =
      splitScimAndConditionsLoop 0 false false (text.reverse ++ condition) rest := by
  induction text generalizing inString escaped condition with
  | nil =>
    obtain ⟨rfl, rfl⟩ : inString = false ∧ escaped = false := by
      simpa [Outside, Quoted.passes] using h
    rfl
  | cons c text ih =>
    have hreverse : (c :: text).reverse ++ condition = text.reverse ++ (c :: condition) := by simp
    rw [List.cons_append, splitScimAndConditionsLoop, if_neg (lt_irrefl 0), hreverse]
    unfold Outside at h
    rw [Quoted.passes] at h
    by_cases hescaped : escaped = true
    · rw [if_pos hescaped] at h ⊢
      exact ih h
    rw [if_neg hescaped] at h ⊢
    by_cases hbackslash : (inString && decide (c = backslash)) = true
    · rw [if_pos hbackslash] at h ⊢
      exact ih h
    rw [if_neg hbackslash] at h ⊢
    by_cases hquote : c = quotationMark
    · rw [if_pos hquote] at h ⊢
      exact ih h
    rw [if_neg hquote] at h ⊢
    by_cases hstop : (!inString && startsWithAnd (c :: (text ++ rest))) = true
    · rw [if_pos hstop] at h
      cases h
    · rw [if_neg hstop] at h
      rw [if_neg (show ¬(!inString && asciiKeywordAt (c :: (text ++ rest)) " and ") = true from hstop)]
      exact ih h

theorem splitLoop_skip {skipped : List Char} :
    splitScimAndConditionsLoop skipped.length false false [] (skipped ++ rest) =
      splitScimAndConditionsLoop 0 false false [] rest := by
  induction skipped with
  | nil => rfl
  | cons c skipped ih =>
    rw [List.cons_append, splitScimAndConditionsLoop, List.length_cons,
      if_pos (Nat.succ_pos skipped.length), Nat.add_sub_cancel]
    exact ih

theorem startsWithAnd_iff {chars : List Char} : startsWithAnd chars = true ↔
    ∃ keyword rest, chars = keyword ++ rest ∧ keyword.map toAsciiLowercase = " and ".toList := by
  unfold startsWithAnd asciiKeywordAt
  simp only [decide_eq_true_eq]
  constructor
  · intro h
    exact ⟨_, _, (List.take_append_drop " and ".length chars).symm, h⟩
  · rintro ⟨keyword, rest, rfl, h⟩
    have hlength : keyword.length = " and ".length := by
      have := congrArg List.length h
      rwa [List.length_map] at this
    rwa [← hlength, List.take_left]

/-- At a keyword the loop ends the condition. -/
theorem splitLoop_keyword (hkeyword : keyword.map toAsciiLowercase = " and ".toList) :
    splitScimAndConditionsLoop 0 false false condition (keyword ++ rest) = (do
      let condition ← scimAndCondition condition
      return condition :: (← splitScimAndConditionsLoop 0 false false [] rest)) := by
  have hstarts := startsWithAnd_iff.mpr ⟨keyword, rest, rfl, hkeyword⟩
  obtain ⟨c, keyword, rfl⟩ : ∃ c skipped, keyword = c :: skipped := by
    cases keyword with
    | nil => cases hkeyword
    | cons c skipped => exact ⟨c, skipped, rfl⟩
  obtain ⟨hc, htail⟩ := List.cons.inj hkeyword
  have hlength : keyword.length = " and ".length - 1 := by
    have := congrArg List.length htail
    rwa [List.length_map] at this
  have hquote : c ≠ quotationMark := by
    rintro rfl
    exact absurd hc (by decide)
  rw [List.cons_append, splitScimAndConditionsLoop, if_neg (lt_irrefl 0),
    if_neg Bool.false_ne_true, Bool.false_and, if_neg Bool.false_ne_true, if_neg hquote,
    if_pos (show (!false && asciiKeywordAt (c :: (keyword ++ rest)) " and ") = true from hstarts),
    ← hlength]
  simp only [splitLoop_skip]

/-- The first condition of the rest ends with the rest or at a keyword. -/
def FirstEnds (inString escaped : Bool) (condition rest : List Char) (conditions : List String) :
    Prop :=
  (Outside inString escaped rest [] ∧
    ∃ c, scimAndCondition (rest.reverse ++ condition) = .ok c ∧ conditions = [c]) ∨
  ∃ text keyword after c cs, rest = text ++ (keyword ++ after) ∧
    Outside inString escaped text (keyword ++ after) ∧
    keyword.map toAsciiLowercase = " and ".toList ∧
    scimAndCondition (text.reverse ++ condition) = .ok c ∧
    splitScimAndConditionsLoop 0 false false [] after = .ok cs ∧ conditions = c :: cs

theorem splitLoop_cases (hescaped : escaped = true → inString = true)
    (h : splitScimAndConditionsLoop 0 inString escaped condition rest = .ok conditions) :
    FirstEnds inString escaped condition rest conditions := by
  induction rest generalizing inString escaped condition with
  | nil =>
    left
    cases inString with
    | true => cases h
    | false =>
      obtain rfl : escaped = false := by simpa using hescaped
      obtain ⟨c, hc, hrest⟩ := except_bind_eq_ok.mp h
      exact ⟨rfl, c, hc, (Except.ok.inj hrest).symm⟩
  | cons d rest ih =>
    -- the step keeps its character in the condition
    have hnext : ∀ inString' escaped', (escaped' = true → inString' = true) →
        (∀ text after, Outside inString' escaped' text after →
          d :: (text ++ after) = d :: rest → Outside inString escaped (d :: text) after) →
        splitScimAndConditionsLoop 0 inString' escaped' (d :: condition) rest = .ok conditions →
        FirstEnds inString escaped condition (d :: rest) conditions := by
      intro inString' escaped' hescaped' houtside hloop
      rcases ih hescaped' hloop with ⟨hend, c, hc, hone⟩ |
        ⟨text, keyword, after, c, cs, rfl, hend, hkeyword, hc, hcs, hmore⟩
      · left
        exact ⟨houtside rest [] hend (by simp), c, by simpa using hc, hone⟩
      · right
        exact ⟨d :: text, keyword, after, c, cs, rfl, houtside text _ hend rfl, hkeyword,
          by simpa using hc, hcs, hmore⟩
    rw [splitScimAndConditionsLoop, if_neg (lt_irrefl 0)] at h
    unfold Outside at hnext
    split at h
    · rename_i hx
      refine hnext inString false (by simp) (fun text after hend _ => ?_) h
      rw [Quoted.passes, if_pos hx]
      exact hend
    rename_i hx
    split at h
    · rename_i hbackslash
      have hin : inString = true := by
        simp only [Bool.and_eq_true] at hbackslash
        exact hbackslash.1
      refine hnext inString true (fun _ => hin) (fun text after hend _ => ?_) h
      rw [Quoted.passes, if_neg hx, if_pos hbackslash]
      exact hend
    rename_i hbackslash
    split at h
    · rename_i hquote
      refine hnext (!inString) false (by simp) (fun text after hend _ => ?_) h
      rw [Quoted.passes, if_neg hx, if_neg hbackslash, if_pos hquote]
      exact hend
    rename_i hquote
    split at h
    · -- a keyword
      rename_i hstop
      obtain ⟨hin, hstarts⟩ : inString = false ∧ startsWithAnd (d :: rest) = true := by
        simpa [startsWithAnd] using hstop
      subst hin
      obtain rfl : escaped = false := by simpa using hx
      obtain ⟨keyword, after, hsplit, hkeyword⟩ := startsWithAnd_iff.mp hstarts
      have hloop : splitScimAndConditionsLoop 0 false false condition (d :: rest) =
          .ok conditions := by
        rw [splitScimAndConditionsLoop, if_neg (lt_irrefl 0), if_neg hx, if_neg hbackslash,
          if_neg hquote, if_pos hstop]
        exact h
      rw [hsplit, splitLoop_keyword hkeyword] at hloop
      obtain ⟨c, hc, hloop⟩ := except_bind_eq_ok.mp hloop
      obtain ⟨cs, hcs, hdone⟩ := except_bind_eq_ok.mp hloop
      right
      exact ⟨[], keyword, after, c, cs, hsplit, rfl, hkeyword, hc, hcs,
        (Except.ok.inj hdone).symm⟩
    · rename_i hstop
      refine hnext inString false (by simp) (fun text after hend htext => ?_) h
      rw [Quoted.passes, if_neg hx, if_neg hbackslash, if_neg hquote, htext]
      rw [if_neg (show ¬(!inString && startsWithAnd (d :: rest)) = true from hstop)]
      exact hend

theorem splitScimAndConditions_eq_ok_iff {value : String} :
    splitScimAndConditions value = .ok conditions ↔
      WrittenAnd value.toList conditions ∧ ∀ c ∈ conditions, c ≠ "" := by
  unfold splitScimAndConditions
  constructor
  · generalize value.toList = chars
    induction hn : chars.length using Nat.strong_induction_on generalizing chars conditions with
    | _ n ih =>
      intro h
      rcases splitLoop_cases (by simp) h with ⟨hend, c, hc, rfl⟩ |
        ⟨text, keyword, after, c, cs, rfl, hend, hkeyword, hc, hcs, rfl⟩
      · obtain ⟨rfl, hne⟩ := scimAndCondition_eq_ok_iff.mp hc
        rw [List.append_nil, List.reverse_reverse] at hne ⊢
        exact ⟨.last hend, by simpa using hne⟩
      · obtain ⟨rfl, hne⟩ := scimAndCondition_eq_ok_iff.mp hc
        have hlength : keyword.length = " and ".toList.length := by
          rw [← hkeyword, List.length_map]
        have hshorter : after.length < n := by
          rw [← hn, List.length_append, List.length_append, hlength]
          have : " and ".toList.length = 5 := rfl
          omega
        obtain ⟨hrest, hall⟩ := ih after.length hshorter after rfl hcs
        rw [List.append_nil, List.reverse_reverse] at hne ⊢
        exact ⟨.and hend hkeyword hrest, List.forall_mem_cons.mpr ⟨hne, hall⟩⟩
  · rintro ⟨hwritten, hne⟩
    generalize value.toList = chars at hwritten ⊢
    have hcondition : ∀ text : List Char, trim (String.ofList text) ≠ "" →
        scimAndCondition (text.reverse ++ []) = .ok (trim (String.ofList text)) := by
      intro text htext
      exact scimAndCondition_eq_ok_iff.mpr ⟨by simp, htext⟩
    induction hwritten with
    | @last text h =>
      have hloop := @splitLoop_of_outside _ _ [] _ _ h
      rw [List.append_nil] at hloop
      rw [hloop, splitScimAndConditionsLoop, hcondition text (hne _ (.head _))]
      rfl
    | @and text keyword rest conditions h hkeyword _ ih =>
      rw [splitLoop_of_outside h, splitLoop_keyword hkeyword, hcondition text (hne _ (.head _)),
        ih fun c hc => hne c (.tail _ hc)]
      rfl

-- what a condition asks for

inductive ScimFilterAttribute where
  | userName
  | externalId
  | active
  | displayName
  deriving DecidableEq

/-- The name of the attribute in lower case. -/
def ScimFilterAttribute.key : ScimFilterAttribute → String
  | .userName => "username"
  | .externalId => "externalid"
  | .active => "active"
  | .displayName => "displayname"

inductive ScimCondition where
  | userName (email : String)
  | externalId (value : String)
  | active (active : Bool)
  | displayName (value : String)
  deriving DecidableEq

namespace ScimCondition

def attr : ScimCondition → ScimFilterAttribute
  | userName _ => .userName
  | externalId _ => .externalId
  | active _ => .active
  | displayName _ => .displayName

/-- The value of the text asks for the condition. -/
def ReadFrom (rawValue : String) : ScimCondition → Prop
  | userName email => ∃ text, Literal rawValue text ∧ normalizeEmail text = .ok email
  | externalId value => ∃ text, Literal rawValue text ∧ value = trim text ∧ value.length ≤ 256
  | active b => trim rawValue = if b then "true" else "false"
  | displayName value => ∃ text, Literal rawValue text ∧ value = trim text ∧ value.length ≤ 160

/-- The text is `attribute eq value`. -/
def WrittenAs (condition : String) (c : ScimCondition) : Prop :=
  ∃ attr rawValue, scimEqCondition condition = .ok (attr, rawValue) ∧
    asciiLowercase attr = c.attr.key ∧ c.ReadFrom rawValue

/-- Users are filtered by their user name, external identifier and status. -/
def OfUser (c : ScimCondition) : Prop := c.attr ≠ .displayName

/-- Groups are filtered by their external identifier and display name, which are not blank. -/
def OfGroup : ScimCondition → Prop
  | externalId value | displayName value => value ≠ ""
  | userName _ | active _ => False

/-- An external identifier that is blank sets no field of the list filter. -/
def IsBlank (c : ScimCondition) : Prop := c = externalId ""

instance (c : ScimCondition) : Decidable c.IsBlank := inferInstanceAs (Decidable (c = _))

theorem attr_of_key {c : ScimCondition} {t : ScimFilterAttribute} (h : c.attr.key = t.key) :
    c.attr = t := by
  revert h
  cases c.attr <;> cases t <;> decide

/-- A text asks for one condition. -/
theorem WrittenAs.unique {condition : String} {c d : ScimCondition}
    (hc : WrittenAs condition c) (hd : WrittenAs condition d) : c = d := by
  obtain ⟨attr, rawValue, hcondition, hattr, hread⟩ := hc
  obtain ⟨attr', rawValue', hcondition', hattr', hread'⟩ := hd
  obtain ⟨rfl, rfl⟩ := Prod.mk.inj (Except.ok.inj (hcondition.symm.trans hcondition'))
  have hsame : c.attr = d.attr := attr_of_key (hattr.symm.trans hattr')
  cases c with
  | userName email =>
    cases d with
    | userName email' =>
      obtain ⟨text, htext, hemail⟩ := hread
      obtain ⟨text', htext', hemail'⟩ := hread'
      rw [htext.unique htext', hemail'] at hemail
      rw [Except.ok.inj hemail]
    | externalId | active | displayName => cases hsame
  | externalId value =>
    cases d with
    | externalId value' =>
      obtain ⟨text, htext, rfl, -⟩ := hread
      obtain ⟨text', htext', rfl, -⟩ := hread'
      rw [htext.unique htext']
    | userName | active | displayName => cases hsame
  | active b =>
    cases d with
    | active b' =>
      have hb : (if b then "true" else "false") = if b' then "true" else "false" :=
        hread.symm.trans hread'
      revert hb
      cases b <;> cases b' <;> decide
    | userName | externalId | displayName => cases hsame
  | displayName value =>
    cases d with
    | displayName value' =>
      obtain ⟨text, htext, rfl, -⟩ := hread
      obtain ⟨text', htext', rfl, -⟩ := hread'
      rw [htext.unique htext']
    | userName | externalId | active => cases hsame

end ScimCondition

-- list filters

namespace ScimUserListFilter

/-- The fields that are set. -/
def constraints (filter : ScimUserListFilter) : List ScimCondition :=
  filter.userNameEq.toList.map .userName ++ (filter.externalIdEq.toList.map .externalId ++
    filter.activeEq.toList.map .active)

def constrain (filter : ScimUserListFilter) : ScimCondition → ScimUserListFilter
  | .userName email => { filter with userNameEq := some email }
  | .externalId value => { filter with externalIdEq := if value = "" then none else some value }
  | .active active => { filter with activeEq := some active }
  | .displayName _ => filter

end ScimUserListFilter

namespace ScimGroupListFilter

def constraints (filter : ScimGroupListFilter) : List ScimCondition :=
  filter.displayNameEq.toList.map .displayName ++ filter.externalIdEq.toList.map .externalId

def constrain (filter : ScimGroupListFilter) : ScimCondition → ScimGroupListFilter
  | .displayName value => { filter with displayNameEq := some value }
  | .externalId value => { filter with externalIdEq := some value }
  | .userName _ | .active _ => filter

end ScimGroupListFilter

/-- Conditions of one attribute stand only after blank ones. -/
def NoRepeats (conditions : List ScimCondition) : Prop :=
  conditions.Pairwise fun c d => c.attr = d.attr → c.IsBlank

/-- The filter is written as the conditions. -/
def FilterSays (Of : ScimCondition → Prop) (filter : String) (cs : List ScimCondition) : Prop :=
  ∃ conditions, WrittenAnd filter.toList conditions ∧
    List.Forall₂ ScimCondition.WrittenAs conditions cs ∧ (∀ c ∈ cs, Of c) ∧ NoRepeats cs

/-- A step takes a condition of an attribute that is not constrained yet. -/
structure TakesConditions {σ : Type} (step : σ → String → ScimResult σ)
    (constraints : σ → List ScimCondition) (constrain : σ → ScimCondition → σ)
    (Of : ScimCondition → Prop) : Prop where
  step_iff : ∀ f condition f', step f condition = .ok f' ↔ ∃ c : ScimCondition,
    c.WrittenAs condition ∧ Of c ∧ c.attr ∉ (constraints f).map (·.attr) ∧ f' = constrain f c
  perm : ∀ f (c : ScimCondition), Of c → c.attr ∉ (constraints f).map (·.attr) →
    (constraints (constrain f c)).Perm (if c.IsBlank then constraints f else c :: constraints f)

namespace TakesConditions

variable {σ : Type} {step : σ → String → ScimResult σ} {constraints : σ → List ScimCondition}
  {constrain : σ → ScimCondition → σ} {Of : ScimCondition → Prop}
  (h : TakesConditions step constraints constrain Of) {f f' : σ}

include h

theorem attr_notMem_iff {c : ScimCondition} (hof : Of c)
    (hc : c.attr ∉ (constraints f).map (·.attr)) (t : ScimFilterAttribute) :
    t ∉ (constraints (constrain f c)).map (·.attr) ↔
      t ∉ (constraints f).map (·.attr) ∧ (c.attr = t → c.IsBlank) := by
  rw [((h.perm f c hof hc).map _).mem_iff]
  by_cases hblank : c.IsBlank
  · simp [hblank]
  · rw [if_neg hblank]
    simp only [List.map_cons, List.mem_cons, not_or, hblank, imp_false]
    rw [and_comm, eq_comm]

theorem foldlM_eq_ok_iff : conditions.foldlM step f = .ok f' ↔
    ∃ cs, List.Forall₂ ScimCondition.WrittenAs conditions cs ∧ (∀ c ∈ cs, Of c) ∧ NoRepeats cs ∧
      (∀ c ∈ cs, c.attr ∉ (constraints f).map (·.attr)) ∧ f' = cs.foldl constrain f := by
  induction conditions generalizing f with
  | nil =>
    constructor
    · intro hnil
      exact ⟨[], .nil, by simp, .nil, by simp, (Except.ok.inj hnil).symm⟩
    · rintro ⟨cs, hcs, -, -, -, rfl⟩
      cases hcs
      rfl
  | cons condition conditions ih =>
    rw [List.foldlM_cons, except_bind_eq_ok]
    constructor
    · rintro ⟨f₁, hstep, hrest⟩
      obtain ⟨c, hc, hof, hnew, rfl⟩ := (h.step_iff ..).mp hstep
      obtain ⟨cs, hcs, hall, hrepeats, hfresh, rfl⟩ := ih.mp hrest
      have hboth := fun d hd => (h.attr_notMem_iff hof hnew _).mp (hfresh d hd)
      exact ⟨c :: cs, .cons hc hcs, List.forall_mem_cons.mpr ⟨hof, hall⟩,
        .cons (fun d hd => (hboth d hd).2) hrepeats,
        List.forall_mem_cons.mpr ⟨hnew, fun d hd => (hboth d hd).1⟩, rfl⟩
    · rintro ⟨_, hcs, hall, hrepeats, hfresh, rfl⟩
      cases hcs with
      | @cons _ c _ cs hc hcs =>
        obtain ⟨hof, hall⟩ := List.forall_mem_cons.mp hall
        obtain ⟨hnew, hfresh⟩ := List.forall_mem_cons.mp hfresh
        obtain ⟨hfirst, hrepeats⟩ := List.pairwise_cons.mp hrepeats
        refine ⟨_, (h.step_iff ..).mpr ⟨c, hc, hof, hnew, rfl⟩, ih.mpr ⟨cs, hcs, hall, hrepeats, ?_, rfl⟩⟩
        intro d hd
        exact (h.attr_notMem_iff hof hnew _).mpr ⟨hfresh d hd, hfirst d hd⟩

/-- The constraints after a run: those of the conditions that are not blank. -/
theorem perm_foldl {cs : List ScimCondition} (hall : ∀ c ∈ cs, Of c) (hrepeats : NoRepeats cs)
    (hfresh : ∀ c ∈ cs, c.attr ∉ (constraints f).map (·.attr)) :
    (constraints (cs.foldl constrain f)).Perm
      (cs.filter (fun c => ¬ c.IsBlank) ++ constraints f) := by
  induction cs generalizing f with
  | nil => exact .refl _
  | cons c cs ih =>
    obtain ⟨hof, hall⟩ := List.forall_mem_cons.mp hall
    obtain ⟨hnew, hfresh⟩ := List.forall_mem_cons.mp hfresh
    obtain ⟨hfirst, hrepeats⟩ := List.pairwise_cons.mp hrepeats
    have hperm := ih (f := constrain f c) hall hrepeats fun d hd =>
      (h.attr_notMem_iff hof hnew _).mpr ⟨hfresh d hd, hfirst d hd⟩
    refine hperm.trans ?_
    by_cases hblank : c.IsBlank
    · have hstep := h.perm f c hof hnew
      rw [if_pos hblank] at hstep
      simpa [List.filter_cons, hblank] using hstep.append_left _
    · have hstep := h.perm f c hof hnew
      rw [if_neg hblank] at hstep
      simp only [List.filter_cons, hblank, not_false_eq_true, decide_true, if_true,
        List.cons_append]
      exact (hstep.append_left _).trans List.perm_middle

end TakesConditions

-- the steps of the two parsers

theorem optionalFilterString_eq_ok_iff {field text : String} {maxLen : ℕ} {result : Option String} :
    optionalFilterString field (some text) maxLen = .ok result ↔
      (trim text).length ≤ maxLen ∧
        result = if trim text = "" then none else some (trim text) := by
  unfold optionalFilterString optionalScimString
  dsimp only
  by_cases hblank : trim text = ""
  · have hempty : (trim text).isEmpty = true := by rw [hblank]; rfl
    rw [if_pos hempty, if_pos hblank, hblank]
    constructor
    · intro h
      exact ⟨Nat.zero_le _, (Except.ok.inj h).symm⟩
    · rintro ⟨-, rfl⟩
      rfl
  · rw [if_neg (by simpa using hblank), if_neg hblank]
    by_cases hlong : maxLen < (trim text).length
    · rw [if_pos hlong]
      simp only [reduceCtorEq, false_iff]
      rintro ⟨hle, -⟩
      omega
    · rw [if_neg hlong]
      constructor
      · intro h
        exact ⟨by omega, (Except.ok.inj h).symm⟩
      · rintro ⟨-, rfl⟩
        rfl

theorem unlessTaken_eq_ok_iff {β : Type} {taken : Bool} {e : ScimError} {k : PUnit → ScimResult β}
    {x : ScimResult β} {b : β} :
    (if taken = true then throw e >>= k else x) = .ok b ↔ taken = false ∧ x = .ok b := by
  cases taken with
  | true =>
    rw [if_pos rfl]
    constructor
    · intro h
      cases h
    · rintro ⟨h, -⟩
      cases h
  | false => simp

namespace ScimUserListFilter

theorem attr_mem_constraints (f : ScimUserListFilter) (t : ScimFilterAttribute) :
    t ∈ f.constraints.map (·.attr) ↔ t = .userName ∧ f.userNameEq.isSome ∨
      t = .externalId ∧ f.externalIdEq.isSome ∨ t = .active ∧ f.activeEq.isSome := by
  obtain ⟨userName, externalId, active⟩ := f
  cases userName <;> cases externalId <;> cases active <;>
    simp [constraints, ScimCondition.attr]

theorem perm_constrain (f : ScimUserListFilter) (c : ScimCondition) (hof : c.OfUser)
    (hnew : c.attr ∉ f.constraints.map (·.attr)) :
    (f.constrain c).constraints.Perm
      (if c.IsBlank then f.constraints else c :: f.constraints) := by
  rw [attr_mem_constraints] at hnew
  obtain ⟨userName, externalId, active⟩ := f
  cases c with
  | userName email =>
    obtain rfl : userName = none := by simpa [ScimCondition.attr] using hnew
    exact .refl _
  | externalId value =>
    obtain rfl : externalId = none := by simpa [ScimCondition.attr] using hnew
    by_cases hblank : value = ""
    · subst hblank
      exact .refl _
    · have hnot : ¬(ScimCondition.externalId value).IsBlank := fun h =>
        hblank (ScimCondition.externalId.inj h)
      rw [if_neg hnot]
      simp only [constraints, constrain, if_neg hblank]
      exact List.perm_middle
  | active b =>
    obtain rfl : active = none := by simpa [ScimCondition.attr] using hnew
    have hnot : ¬(ScimCondition.active b).IsBlank := by rintro ⟨⟩
    rw [if_neg hnot]
    simp only [constraints, constrain, Option.toList_none, Option.toList_some, List.map_nil,
      List.map_cons, List.append_nil, ← List.append_assoc]
    exact List.perm_append_singleton ..
  | displayName value => exact absurd rfl hof

end ScimUserListFilter

theorem scimUserFilterStep_eq_ok_iff {f f' : ScimUserListFilter} {condition : String} :
    scimUserFilterStep f condition = .ok f' ↔ ∃ c : ScimCondition, c.WrittenAs condition ∧
      c.OfUser ∧ c.attr ∉ f.constraints.map (·.attr) ∧ f' = f.constrain c := by
  simp only [ScimUserListFilter.attr_mem_constraints]
  constructor
  · intro h
    unfold scimUserFilterStep at h
    obtain ⟨⟨attr, rawValue⟩, hcondition, hrest⟩ := except_bind_eq_ok.mp h
    dsimp only at hrest
    split at hrest
    · rename_i hattr
      obtain ⟨htaken, hvalue⟩ := unlessTaken_eq_ok_iff.mp hrest
      obtain ⟨text, htext, hvalue⟩ := except_bind_eq_ok.mp hvalue
      obtain ⟨email, hemail, hdone⟩ := except_bind_eq_ok.mp hvalue
      refine ⟨.userName email, ⟨attr, rawValue, hcondition, hattr, text,
        scimFilterString_eq_ok_iff.mp htext, scimNormalizeEmail_eq_ok_iff.mp hemail⟩, by rintro ⟨⟩, ?_,
        (Except.ok.inj hdone).symm⟩
      simp [ScimCondition.attr, htaken]
    · rename_i hattr
      obtain ⟨htaken, hvalue⟩ := unlessTaken_eq_ok_iff.mp hrest
      obtain ⟨text, htext, hvalue⟩ := except_bind_eq_ok.mp hvalue
      obtain ⟨value, hoptional, hdone⟩ := except_bind_eq_ok.mp hvalue
      obtain ⟨hlength, rfl⟩ := optionalFilterString_eq_ok_iff.mp hoptional
      refine ⟨.externalId (trim text), ⟨attr, rawValue, hcondition, hattr, text,
        scimFilterString_eq_ok_iff.mp htext, rfl, hlength⟩, by rintro ⟨⟩, ?_, (Except.ok.inj hdone).symm⟩
      simp [ScimCondition.attr, htaken]
    · rename_i hattr
      obtain ⟨htaken, hvalue⟩ := unlessTaken_eq_ok_iff.mp hrest
      have hnew : ∀ b, ¬((ScimCondition.active b).attr = .userName ∧ f.userNameEq.isSome ∨
          (ScimCondition.active b).attr = .externalId ∧ f.externalIdEq.isSome ∨
          (ScimCondition.active b).attr = .active ∧ f.activeEq.isSome) := by
        intro b
        simp [ScimCondition.attr, htaken]
      split at hvalue
      · rename_i hraw
        exact ⟨.active true, ⟨attr, rawValue, hcondition, hattr, hraw⟩, by rintro ⟨⟩, hnew true,
          (Except.ok.inj hvalue).symm⟩
      · rename_i hraw
        exact ⟨.active false, ⟨attr, rawValue, hcondition, hattr, hraw⟩, by rintro ⟨⟩, hnew false,
          (Except.ok.inj hvalue).symm⟩
      · cases hvalue
    · cases hrest
  · rintro ⟨c, ⟨attr, rawValue, hcondition, hattr, hread⟩, hof, hnew, rfl⟩
    unfold scimUserFilterStep
    rw [hcondition]
    refine except_bind_eq_ok.mpr ⟨_, rfl, ?_⟩
    dsimp only
    cases c with
    | userName email =>
      obtain ⟨text, htext, hemail⟩ := hread
      have htaken : f.userNameEq.isSome = false := by simpa [ScimCondition.attr] using hnew
      have hkey : asciiLowercase attr = "username" := hattr
      simp only [hkey]
      refine unlessTaken_eq_ok_iff.mpr ⟨htaken, ?_⟩
      refine except_bind_eq_ok.mpr ⟨text, scimFilterString_eq_ok_iff.mpr htext, ?_⟩
      exact except_bind_eq_ok.mpr ⟨email, scimNormalizeEmail_eq_ok_iff.mpr hemail, rfl⟩
    | externalId value =>
      obtain ⟨text, htext, rfl, hlength⟩ := hread
      have htaken : f.externalIdEq.isSome = false := by simpa [ScimCondition.attr] using hnew
      have hkey : asciiLowercase attr = "externalid" := hattr
      simp only [hkey]
      refine unlessTaken_eq_ok_iff.mpr ⟨htaken, ?_⟩
      refine except_bind_eq_ok.mpr ⟨text, scimFilterString_eq_ok_iff.mpr htext, ?_⟩
      exact except_bind_eq_ok.mpr ⟨_, optionalFilterString_eq_ok_iff.mpr ⟨hlength, rfl⟩, rfl⟩
    | active b =>
      have htaken : f.activeEq.isSome = false := by simpa [ScimCondition.attr] using hnew
      have hkey : asciiLowercase attr = "active" := hattr
      simp only [hkey]
      refine unlessTaken_eq_ok_iff.mpr ⟨htaken, ?_⟩
      cases b with
      | true =>
        have hraw : trim rawValue = "true" := hread
        rw [hraw]
        rfl
      | false =>
        have hraw : trim rawValue = "false" := hread
        rw [hraw]
        rfl
    | displayName value => exact absurd rfl hof

namespace ScimGroupListFilter

theorem attr_mem_constraints (f : ScimGroupListFilter) (t : ScimFilterAttribute) :
    t ∈ f.constraints.map (·.attr) ↔ t = .displayName ∧ f.displayNameEq.isSome ∨
      t = .externalId ∧ f.externalIdEq.isSome := by
  obtain ⟨displayName, externalId⟩ := f
  cases displayName <;> cases externalId <;> simp [constraints, ScimCondition.attr]

theorem perm_constrain (f : ScimGroupListFilter) (c : ScimCondition) (hof : c.OfGroup)
    (hnew : c.attr ∉ f.constraints.map (·.attr)) :
    (f.constrain c).constraints.Perm
      (if c.IsBlank then f.constraints else c :: f.constraints) := by
  rw [attr_mem_constraints] at hnew
  obtain ⟨displayName, externalId⟩ := f
  cases c with
  | displayName value =>
    obtain rfl : displayName = none := by simpa [ScimCondition.attr] using hnew
    exact .refl _
  | externalId value =>
    obtain rfl : externalId = none := by simpa [ScimCondition.attr] using hnew
    have hnot : ¬(ScimCondition.externalId value).IsBlank := fun h =>
      hof (ScimCondition.externalId.inj h)
    rw [if_neg hnot]
    simp only [constraints, constrain, Option.toList_none, Option.toList_some, List.map_nil,
      List.map_cons, List.append_nil]
    exact List.perm_append_singleton ..
  | userName | active => exact hof.elim

end ScimGroupListFilter

theorem scimGroupFilterStep_eq_ok_iff {f f' : ScimGroupListFilter} {condition : String} :
    scimGroupFilterStep f condition = .ok f' ↔ ∃ c : ScimCondition, c.WrittenAs condition ∧
      c.OfGroup ∧ c.attr ∉ f.constraints.map (·.attr) ∧ f' = f.constrain c := by
  simp only [ScimGroupListFilter.attr_mem_constraints]
  constructor
  · intro h
    unfold scimGroupFilterStep at h
    obtain ⟨⟨attr, rawValue⟩, hcondition, hrest⟩ := except_bind_eq_ok.mp h
    dsimp only at hrest
    split at hrest
    · rename_i hattr
      obtain ⟨htaken, hvalue⟩ := unlessTaken_eq_ok_iff.mp hrest
      obtain ⟨text, htext, hvalue⟩ := except_bind_eq_ok.mp hvalue
      obtain ⟨value, hoptional, hdone⟩ := except_bind_eq_ok.mp hvalue
      obtain ⟨hlength, rfl⟩ := optionalFilterString_eq_ok_iff.mp hoptional
      by_cases hblank : trim text = ""
      · rw [if_pos hblank] at hdone
        cases hdone
      · rw [if_neg hblank] at hdone
        refine ⟨.displayName (trim text), ⟨attr, rawValue, hcondition, hattr, text,
          scimFilterString_eq_ok_iff.mp htext, rfl, hlength⟩, hblank, ?_,
          (Except.ok.inj hdone).symm⟩
        simp [ScimCondition.attr, htaken]
    · rename_i hattr
      obtain ⟨htaken, hvalue⟩ := unlessTaken_eq_ok_iff.mp hrest
      obtain ⟨text, htext, hvalue⟩ := except_bind_eq_ok.mp hvalue
      obtain ⟨value, hoptional, hdone⟩ := except_bind_eq_ok.mp hvalue
      obtain ⟨hlength, rfl⟩ := optionalFilterString_eq_ok_iff.mp hoptional
      by_cases hblank : trim text = ""
      · rw [if_pos hblank] at hdone
        cases hdone
      · rw [if_neg hblank] at hdone
        refine ⟨.externalId (trim text), ⟨attr, rawValue, hcondition, hattr, text,
          scimFilterString_eq_ok_iff.mp htext, rfl, hlength⟩, hblank, ?_,
          (Except.ok.inj hdone).symm⟩
        simp [ScimCondition.attr, htaken]
    · cases hrest
  · rintro ⟨c, ⟨attr, rawValue, hcondition, hattr, hread⟩, hof, hnew, rfl⟩
    unfold scimGroupFilterStep
    rw [hcondition]
    refine except_bind_eq_ok.mpr ⟨_, rfl, ?_⟩
    dsimp only
    cases c with
    | displayName value =>
      obtain ⟨text, htext, rfl, hlength⟩ := hread
      have htaken : f.displayNameEq.isSome = false := by simpa [ScimCondition.attr] using hnew
      have hkey : asciiLowercase attr = "displayname" := hattr
      simp only [hkey]
      refine unlessTaken_eq_ok_iff.mpr ⟨htaken, ?_⟩
      refine except_bind_eq_ok.mpr ⟨text, scimFilterString_eq_ok_iff.mpr htext, ?_⟩
      refine except_bind_eq_ok.mpr ⟨_, optionalFilterString_eq_ok_iff.mpr ⟨hlength, rfl⟩, ?_⟩
      rw [if_neg hof]
      rfl
    | externalId value =>
      obtain ⟨text, htext, rfl, hlength⟩ := hread
      have htaken : f.externalIdEq.isSome = false := by simpa [ScimCondition.attr] using hnew
      have hkey : asciiLowercase attr = "externalid" := hattr
      simp only [hkey]
      refine unlessTaken_eq_ok_iff.mpr ⟨htaken, ?_⟩
      refine except_bind_eq_ok.mpr ⟨text, scimFilterString_eq_ok_iff.mpr htext, ?_⟩
      refine except_bind_eq_ok.mpr ⟨_, optionalFilterString_eq_ok_iff.mpr ⟨hlength, rfl⟩, ?_⟩
      rw [if_neg hof]
      rfl
    | userName | active => exact hof.elim

-- the two parsers

theorem takesConditions_scimUserFilterStep :
    TakesConditions scimUserFilterStep ScimUserListFilter.constraints
      ScimUserListFilter.constrain ScimCondition.OfUser where
  step_iff _ _ _ := scimUserFilterStep_eq_ok_iff
  perm := ScimUserListFilter.perm_constrain

theorem takesConditions_scimGroupFilterStep :
    TakesConditions scimGroupFilterStep ScimGroupListFilter.constraints
      ScimGroupListFilter.constrain ScimCondition.OfGroup where
  step_iff _ _ _ := scimGroupFilterStep_eq_ok_iff
  perm := ScimGroupListFilter.perm_constrain

theorem ne_empty_of_writtenAs {condition : String} {c : ScimCondition}
    (h : c.WrittenAs condition) : condition ≠ "" := by
  rintro rfl
  obtain ⟨attr, rawValue, hcondition, -⟩ := h
  cases hcondition

theorem ne_empty_of_forall₂ {cs : List ScimCondition}
    (h : List.Forall₂ ScimCondition.WrittenAs conditions cs) : ∀ text ∈ conditions, text ≠ "" := by
  intro text htext
  obtain ⟨i, hi, rfl⟩ := List.getElem_of_mem htext
  exact ne_empty_of_writtenAs (h.get hi (h.length_eq ▸ hi))

/-- The conditions are those that the parser splits the filter into. -/
theorem FilterSays.split {Of : ScimCondition → Prop} {filter : String} {cs : List ScimCondition}
    (h : FilterSays Of filter cs) : ∃ conditions, splitScimAndConditions filter = .ok conditions ∧
      List.Forall₂ ScimCondition.WrittenAs conditions cs := by
  obtain ⟨conditions, hwritten, hcs, -, -⟩ := h
  exact ⟨conditions, splitScimAndConditions_eq_ok_iff.mpr ⟨hwritten, ne_empty_of_forall₂ hcs⟩, hcs⟩

/-- A parser that splits the filter and takes its conditions from the start. -/
theorem TakesConditions.filter_eq_ok_iff {σ : Type} {step : σ → String → ScimResult σ}
    {constraints : σ → List ScimCondition} {constrain : σ → ScimCondition → σ}
    {Of : ScimCondition → Prop} (h : TakesConditions step constraints constrain Of) {start f : σ}
    (hstart : constraints start = []) {filter : String} :
    (splitScimAndConditions filter >>= fun conditions => conditions.foldlM step start) = .ok f ↔
      ∃ cs, FilterSays Of filter cs ∧ f = cs.foldl constrain start := by
  rw [except_bind_eq_ok]
  constructor
  · rintro ⟨conditions, hsplit, hfold⟩
    obtain ⟨cs, hcs, hall, hrepeats, -, rfl⟩ := h.foldlM_eq_ok_iff.mp hfold
    obtain ⟨hwritten, -⟩ := splitScimAndConditions_eq_ok_iff.mp hsplit
    exact ⟨cs, ⟨conditions, hwritten, hcs, hall, hrepeats⟩, rfl⟩
  · rintro ⟨cs, ⟨conditions, hwritten, hcs, hall, hrepeats⟩, rfl⟩
    have hsplit := splitScimAndConditions_eq_ok_iff.mpr ⟨hwritten, ne_empty_of_forall₂ hcs⟩
    refine ⟨conditions, hsplit, h.foldlM_eq_ok_iff.mpr ⟨cs, hcs, hall, hrepeats, ?_, rfl⟩⟩
    intro c _
    rw [hstart]
    exact List.not_mem_nil

theorem scimUserFilter_eq_ok_iff {filter : String} {f : ScimUserListFilter} :
    scimUserFilter filter = .ok f ↔ ∃ cs, FilterSays ScimCondition.OfUser filter cs ∧
      f = cs.foldl ScimUserListFilter.constrain {} :=
  takesConditions_scimUserFilterStep.filter_eq_ok_iff rfl

theorem scimGroupFilter_eq_ok_iff {filter : String} {f : ScimGroupListFilter} :
    scimGroupFilter filter = .ok f ↔ ∃ cs, FilterSays ScimCondition.OfGroup filter cs ∧
      f = cs.foldl ScimGroupListFilter.constrain {} :=
  takesConditions_scimGroupFilterStep.filter_eq_ok_iff rfl

end CairnId
