import CairnId.Filters

/-!
# Quoting protects filter values

A value between quotes, with a backslash before its quotes and backslashes, is read
back from a filter whatever is in it. In the path of a PATCH operation it is not: the
path is cut at the first closing bracket.

## Main definitions

* `quoteText` — a value between quotes
* `ScimCondition.Renders` — the texts of a condition

## Main results

* `quoting_protects_iff` — which values are read back
-/

namespace CairnId

open Concurrency.Prog

def quoteText (text : String) : String :=
  String.ofList (quotationMark ::
    (Quoted.escapeText quotationMark backslash text.toList ++ [quotationMark]))

namespace ScimCondition

def valueText : ScimCondition → String
  | userName text | externalId text | displayName text => quoteText text
  | active b => if b then "true" else "false"

/-- `attribute eq value`, in any letter case of the attribute and the operator. -/
def Renders (text : String) (c : ScimCondition) : Prop :=
  ∃ attr op, asciiLowercase attr = c.attr.key ∧ asciiLowercase op = "eq" ∧
    text = attr ++ " " ++ op ++ " " ++ c.valueText

/-- Texts are trimmed, not blank and not too long; a user name is a normalized address. -/
def Valid : ScimCondition → Prop
  | userName email => normalizeEmail email = .ok email
  | externalId value => trim value = value ∧ value ≠ "" ∧ value.length ≤ 256
  | active _ => True
  | displayName value => trim value = value ∧ value ≠ "" ∧ value.length ≤ 160

end ScimCondition

-- values

theorem trim_quoteText (text : String) : trim (quoteText text) = quoteText text := by
  have hquote : isWhiteSpace quotationMark = false := by decide
  refine trim_eq_self (fun c hc => ?_) fun c hc => ?_
  · obtain rfl : quotationMark = c := by simpa [quoteText] using hc
    exact hquote
  · rw [quoteText, String.toList_ofList, ← List.cons_append, List.getLast?_concat] at hc
    obtain rfl := Option.some.inj hc
    exact hquote

theorem literal_quoteText (text : String) : Literal (quoteText text) text := by
  refine ⟨Quoted.escapeText quotationMark backslash text.toList, ?_,
    Quoted.unescape_escapeText quotationMark_ne_backslash text.toList⟩
  rw [trim_quoteText, quoteText, String.toList_ofList]

theorem ScimCondition.readFrom_valueText {c : ScimCondition} (hvalid : c.Valid) :
    c.ReadFrom c.valueText := by
  cases c with
  | userName email => exact ⟨email, literal_quoteText email, hvalid⟩
  | externalId value =>
    obtain ⟨htrim, -, hlength⟩ := hvalid
    exact ⟨value, literal_quoteText value, htrim.symm, hlength⟩
  | active b =>
    have htrim : ∀ text : String, text = "true" ∨ text = "false" → trim text = text := by
      rintro text (rfl | rfl) <;> decide
    cases b with
    | true => exact htrim _ (.inl rfl)
    | false => exact htrim _ (.inr rfl)
  | displayName value =>
    obtain ⟨htrim, -, hlength⟩ := hvalid
    exact ⟨value, literal_quoteText value, htrim.symm, hlength⟩

/-- A value begins and ends with a character that is not trimmed, the first of them is
    not the letter of the keyword, and the scan gets through it. -/
structure Protected (value : List Char) : Prop where
  head : ∃ c rest, value = c :: rest ∧ isWhiteSpace c = false ∧ toAsciiLowercase c ≠ 'a'
  last : ∀ c ∈ value.getLast?, isWhiteSpace c = false
  outside : ∀ rest, Outside false false value rest

theorem startsWithAnd_of_head {c : Char} {chars : List Char} (hc : toAsciiLowercase c ≠ ' ') :
    startsWithAnd (c :: chars) = false := by
  by_contra h
  obtain ⟨keyword, rest, hsplit, hkeyword⟩ := startsWithAnd_iff.mp (by simpa using h)
  cases keyword with
  | nil => cases hkeyword
  | cons d keyword =>
    obtain ⟨rfl, -⟩ := List.cons.inj hsplit
    exact hc (List.cons.inj hkeyword).1

theorem startsWithAnd_of_second {c d : Char} {chars : List Char} (hd : toAsciiLowercase d ≠ 'a') :
    startsWithAnd (c :: d :: chars) = false := by
  by_contra h
  obtain ⟨keyword, rest, hsplit, hkeyword⟩ := startsWithAnd_iff.mp (by simpa using h)
  rcases keyword with _ | ⟨a, _ | ⟨b, keyword⟩⟩
  · cases hkeyword
  · exact absurd (List.cons.inj hkeyword).2 (by decide)
  · obtain ⟨-, hrest⟩ := List.cons.inj hsplit
    obtain ⟨rfl, -⟩ := List.cons.inj hrest
    exact hd (List.cons.inj (List.cons.inj hkeyword).2).1

/-- Of the characters of a fixed text. -/
theorem forall_mem_of_all {p : Char → Prop} [DecidablePred p] {l : List Char}
    (h : (l.all fun c => decide (p c)) = true) : ∀ c ∈ l, p c := fun c hc =>
  of_decide_eq_true (List.all_eq_true.mp h c hc)

/-- The scan gets through a word. -/
theorem outside_word {word text rest : List Char}
    (hword : ∀ c ∈ word, c ≠ quotationMark ∧ toAsciiLowercase c ≠ ' ')
    (h : Outside false false text rest) : Outside false false (word ++ text) rest := by
  induction word with
  | nil => exact h
  | cons c word ih =>
    obtain ⟨⟨hquote, hspace⟩, hword⟩ := List.forall_mem_cons.mp hword
    unfold Outside
    rw [List.cons_append, Quoted.passes_of_not_stop hquote (startsWithAnd_of_head hspace)]
    exact ih hword

theorem outside_space {d : Char} {text rest : List Char} (hd : toAsciiLowercase d ≠ 'a')
    (h : Outside false false (d :: text) rest) : Outside false false (' ' :: d :: text) rest := by
  unfold Outside
  rw [Quoted.passes_of_not_stop (by decide) (startsWithAnd_of_second hd)]
  exact h

theorem protected_valueText (c : ScimCondition) : Protected c.valueText.toList := by
  have hquoted : ∀ text, Protected (quoteText text).toList := by
    intro text
    rw [quoteText, String.toList_ofList]
    refine ⟨⟨_, _, rfl, by decide, by decide⟩, fun c hc => ?_, fun rest => ?_⟩
    · rw [← List.cons_append, List.getLast?_concat] at hc
      obtain rfl := Option.some.inj hc
      decide
    · exact Quoted.passes_quoted quotationMark_ne_backslash text.toList
  cases c with
  | userName text | externalId text | displayName text => exact hquoted text
  | active b =>
    have hword : ∀ text : String, text = "true" ∨ text = "false" → Protected text.toList := by
      intro text htext
      refine ⟨?_, ?_, fun rest => ?_⟩
      · rcases htext with rfl | rfl
        · exact ⟨_, _, rfl, by decide, by decide⟩
        · exact ⟨_, _, rfl, by decide, by decide⟩
      · intro c hc
        rcases htext with rfl | rfl
        · obtain rfl := Option.some.inj hc
          decide
        · obtain rfl := Option.some.inj hc
          decide
      · rw [← List.append_nil text.toList]
        refine outside_word (forall_mem_of_all ?_) rfl
        rcases htext with rfl | rfl <;> decide
    cases b with
    | true => exact hword _ (.inl rfl)
    | false => exact hword _ (.inr rfl)

-- conditions

/-- The characters of a text that is a word in lower case. -/
theorem word_of_asciiLowercase {text key : String} (h : asciiLowercase text = key)
    (hkey : ∀ d ∈ key.toList, d ≠ quotationMark ∧ isWhiteSpace d = false ∧ d ≠ ' ') :
    ∀ c ∈ text.toList, c ≠ quotationMark ∧ isWhiteSpace c = false ∧ toAsciiLowercase c ≠ ' ' := by
  intro c hc
  have hmem : toAsciiLowercase c ∈ key.toList := by
    rw [← h, asciiLowercase_toList]
    exact List.mem_map_of_mem hc
  obtain ⟨hquote, hspace, hne⟩ := hkey _ hmem
  rw [isWhiteSpace_toAsciiLowercase] at hspace
  refine ⟨?_, hspace, hne⟩
  rintro rfl
  exact hquote (by decide)

theorem ScimFilterAttribute.key_letters (t : ScimFilterAttribute) :
    ∀ d ∈ t.key.toList, d ≠ quotationMark ∧ isWhiteSpace d = false ∧ d ≠ ' ' := by
  apply forall_mem_of_all
  cases t <;> decide

theorem eq_letters : ∀ d ∈ "eq".toList, d ≠ quotationMark ∧ isWhiteSpace d = false ∧ d ≠ ' ' :=
  forall_mem_of_all (by decide)

theorem span_append_cons {α : Type} {p : α → Bool} {l : List α} {d : α} (rest : List α)
    (hl : ∀ c ∈ l, p c = true) (hd : p d = false) :
    (l ++ d :: rest).takeWhile p = l ∧ (l ++ d :: rest).dropWhile p = d :: rest := by
  induction l with
  | nil => simp [hd]
  | cons c l ih =>
    obtain ⟨hc, hl⟩ := List.forall_mem_cons.mp hl
    simp [hc, ih hl]

/-- A condition with single spaces is read as its three parts. -/
theorem scimEqCondition_spaced {attr op value : String} (hattr : attr ≠ "")
    (hword : ∀ c ∈ attr.toList, isWhiteSpace c = false) (hop : asciiLowercase op = "eq")
    (hvalue : Protected value.toList) :
    scimEqCondition (attr ++ " " ++ op ++ " " ++ value) = .ok (attr, value) := by
  have hopWord : ∀ c ∈ op.toList, isWhiteSpace c = false := fun c hc =>
    (word_of_asciiLowercase hop eq_letters c hc).2.1
  obtain ⟨a, attrRest, hattrCons⟩ : ∃ a rest, attr.toList = a :: rest := by
    cases hlist : attr.toList with
    | nil => exact absurd (String.toList_eq_nil_iff.mp hlist) hattr
    | cons a rest => exact ⟨a, rest, rfl⟩
  obtain ⟨o, opRest, hopCons⟩ : ∃ o rest, op.toList = o :: rest := by
    cases hlist : op.toList with
    | nil =>
      rw [String.toList_eq_nil_iff.mp hlist] at hop
      exact absurd hop (by decide)
    | cons o rest => exact ⟨o, rest, rfl⟩
  obtain ⟨⟨v, valueRest, hvalueCons, hv, -⟩, hlast, -⟩ := hvalue
  have hlist : (attr ++ " " ++ op ++ " " ++ value).toList =
      attr.toList ++ ' ' :: (op.toList ++ ' ' :: value.toList) := by
    simp [String.toList_append]
  have hspace : isWhiteSpace ' ' = true := by decide
  have htrim : trim (attr ++ " " ++ op ++ " " ++ value) = attr ++ " " ++ op ++ " " ++ value := by
    refine trim_eq_self (fun c hc => ?_) fun c hc => ?_
    · rw [hlist, hattrCons] at hc
      obtain rfl := Option.some.inj hc
      exact hword a (hattrCons ▸ .head _)
    · have hsuffix : (attr ++ " " ++ op ++ " " ++ value).toList =
          (attr.toList ++ ' ' :: (op.toList ++ [' '])) ++ value.toList := by
        simp [hlist]
      rw [hsuffix, List.getLast?_append_of_ne_nil _ (hvalueCons ▸ List.cons_ne_nil v valueRest)]
        at hc
      exact hlast c hc
  unfold scimEqCondition
  rw [htrim, hlist]
  have hspan : ∀ word rest : List Char, (∀ c ∈ word, isWhiteSpace c = false) →
      (word ++ ' ' :: rest).takeWhile (fun c => !isWhiteSpace c) = word ∧
        (word ++ ' ' :: rest).dropWhile (fun c => !isWhiteSpace c) = ' ' :: rest :=
    fun word rest h => span_append_cons rest (by simpa using h) (by simp [hspace])
  obtain ⟨htake, hdrop⟩ := hspan attr.toList (op.toList ++ ' ' :: value.toList) hword
  obtain ⟨htake', hdrop'⟩ := hspan op.toList value.toList hopWord
  have ho : isWhiteSpace o = false := hopWord o (hopCons ▸ .head _)
  have hdropOp : (' ' :: (op.toList ++ ' ' :: value.toList)).dropWhile isWhiteSpace =
      op.toList ++ ' ' :: value.toList := by
    simp [hopCons, hspace, ho]
  have hdropValue : (' ' :: value.toList).dropWhile isWhiteSpace = value.toList := by
    simp [hvalueCons, hspace, hv]
  have hoperator : eqIgnoreAsciiCase (String.ofList op.toList) "eq" = true := by
    rw [String.ofList_toList, eqIgnoreAsciiCase, hop]
    decide
  dsimp only
  rw [htake, hdrop, hdropOp, htake', hdrop', hdropValue, hoperator]
  simp only [List.isEmpty_cons, Bool.false_eq_true, if_false, Bool.not_true, hattrCons, hvalueCons,
    Bool.or_self]
  rw [← hattrCons, ← hvalueCons, String.ofList_toList, String.ofList_toList]
  rfl

theorem ScimFilterAttribute.key_ne_empty (t : ScimFilterAttribute) : t.key ≠ "" := by
  cases t <;> decide

theorem ScimCondition.Renders.parts {text : String} {c : ScimCondition} (h : c.Renders text) :
    ∃ attr op, asciiLowercase attr = c.attr.key ∧ attr ≠ "" ∧ asciiLowercase op = "eq" ∧
      text = attr ++ " " ++ op ++ " " ++ c.valueText := by
  obtain ⟨attr, op, hattr, hop, rfl⟩ := h
  refine ⟨attr, op, hattr, ?_, hop, rfl⟩
  rintro rfl
  exact c.attr.key_ne_empty hattr.symm

/-- The text of a condition asks for it. -/
theorem ScimCondition.Renders.writtenAs {text : String} {c : ScimCondition} (h : c.Renders text)
    (hvalid : c.Valid) : c.WrittenAs text := by
  obtain ⟨attr, op, hattr, hne, hop, rfl⟩ := h.parts
  have hword := fun d hd => (word_of_asciiLowercase hattr c.attr.key_letters d hd).2.1
  exact ⟨attr, c.valueText, scimEqCondition_spaced hne hword hop (protected_valueText c), hattr,
    readFrom_valueText hvalid⟩

theorem ScimCondition.Renders.protected {text : String} {c : ScimCondition} (h : c.Renders text) :
    trim text = text ∧ ∀ rest, Outside false false text.toList rest := by
  obtain ⟨attr, op, hattr, hne, hop, rfl⟩ := h.parts
  have hattrWord := word_of_asciiLowercase hattr c.attr.key_letters
  have hopWord := word_of_asciiLowercase hop eq_letters
  obtain ⟨⟨v, valueRest, hvalueCons, hv, hfirst⟩, hlast, houtside⟩ := protected_valueText c
  have hlist : (attr ++ " " ++ op ++ " " ++ c.valueText).toList =
      attr.toList ++ ' ' :: (op.toList ++ ' ' :: c.valueText.toList) := by
    simp [String.toList_append]
  obtain ⟨o, opRest, hopCons, ho⟩ : ∃ o rest, op.toList = o :: rest ∧ toAsciiLowercase o = 'e' := by
    have hmap : op.toList.map toAsciiLowercase = "eq".toList := by
      rw [← hop, asciiLowercase_toList]
    obtain ⟨o, rest, hcons, ho, -⟩ := List.map_eq_cons_iff.mp hmap
    exact ⟨o, rest, hcons, ho⟩
  constructor
  · refine trim_eq_self (fun d hd => ?_) fun d hd => ?_
    · cases hcons : attr.toList with
      | nil => exact absurd (String.toList_eq_nil_iff.mp hcons) hne
      | cons a attrRest =>
        rw [hlist, hcons] at hd
        obtain rfl := Option.some.inj hd
        exact (hattrWord a (hcons ▸ .head _)).2.1
    · have hsuffix : (attr ++ " " ++ op ++ " " ++ c.valueText).toList =
          (attr.toList ++ ' ' :: (op.toList ++ [' '])) ++ c.valueText.toList := by
        simp [hlist]
      rw [hsuffix, List.getLast?_append_of_ne_nil _ (hvalueCons ▸ List.cons_ne_nil v valueRest)]
        at hd
      exact hlast d hd
  · intro rest
    have hvalueOutside : Outside false false (' ' :: c.valueText.toList) rest := by
      have hstart := houtside rest
      rw [hvalueCons] at hstart ⊢
      exact outside_space hfirst hstart
    have hopOutside : Outside false false (' ' :: (op.toList ++ ' ' :: c.valueText.toList)) rest := by
      have hstart := outside_word (fun d hd => ⟨(hopWord d hd).1, (hopWord d hd).2.2⟩) hvalueOutside
      rw [hopCons] at hstart ⊢
      exact outside_space (by rw [ho]; decide) hstart
    rw [hlist]
    exact outside_word (fun d hd => ⟨(hattrWord d hd).1, (hattrWord d hd).2.2⟩) hopOutside

-- filters

theorem writtenAnd_intercalate {texts : List String} (hne : texts ≠ [])
    (h : ∀ text ∈ texts, trim text = text ∧ ∀ rest, Outside false false text.toList rest) :
    WrittenAnd (" and ".intercalate texts).toList texts := by
  induction texts with
  | nil => exact absurd rfl hne
  | cons text texts ih =>
    obtain ⟨⟨htrim, houtside⟩, h⟩ := List.forall_mem_cons.mp h
    have hlast := WrittenAnd.last (houtside [])
    have hand := fun rest conditions =>
      @WrittenAnd.and text.toList " and ".toList rest conditions (houtside _) (by decide)
    rw [String.ofList_toList, htrim] at hlast
    by_cases hnil : texts = []
    · subst hnil
      rw [String.intercalate_singleton]
      exact hlast
    · have hmore := hand _ _ (ih hnil h)
      rw [String.ofList_toList, htrim] at hmore
      rw [String.intercalate_cons_of_ne_nil hnil, String.toList_append, String.toList_append,
        List.append_assoc]
      exact hmore

/-- Texts of valid conditions, with keywords between them, say the conditions. -/
theorem filterSays_intercalate {Of : ScimCondition → Prop} {texts : List String}
    {cs : List ScimCondition} (hne : cs ≠ []) (hattrs : (cs.map (·.attr)).Nodup)
    (hall : ∀ c ∈ cs, Of c ∧ c.Valid) (htexts : List.Forall₂ ScimCondition.Renders texts cs) :
    FilterSays Of (" and ".intercalate texts) cs := by
  have htextsNe : texts ≠ [] := by
    rintro rfl
    cases htexts
    exact hne rfl
  refine ⟨texts, writtenAnd_intercalate htextsNe fun text htext => ?_, ?_, fun c hc => (hall c hc).1, ?_⟩
  · obtain ⟨i, hi, rfl⟩ := List.getElem_of_mem htext
    exact (htexts.get hi (htexts.length_eq ▸ hi)).protected
  · refine List.forall₂_iff_get.mpr ⟨htexts.length_eq, fun i hi hi' => ?_⟩
    exact (htexts.get hi hi').writtenAs (hall _ (List.get_mem _ _)).2
  · refine (List.pairwise_map.mp hattrs).imp fun hdiff hsame => ?_
    exact absurd hsame hdiff

theorem not_isBlank_of_valid {c : ScimCondition} (hvalid : c.Valid) : ¬c.IsBlank := by
  rintro rfl
  exact hvalid.2.1 rfl

/-- A parser of filters reads back what was rendered. -/
theorem TakesConditions.filter_intercalate {σ : Type} {step : σ → String → ScimResult σ}
    {constraints : σ → List ScimCondition} {constrain : σ → ScimCondition → σ}
    {Of : ScimCondition → Prop} (h : TakesConditions step constraints constrain Of) {start : σ}
    (hstart : constraints start = []) {texts : List String} {cs : List ScimCondition} (hne : cs ≠ [])
    (hattrs : (cs.map (·.attr)).Nodup) (hall : ∀ c ∈ cs, Of c ∧ c.Valid)
    (htexts : List.Forall₂ ScimCondition.Renders texts cs) :
    ∃ f, (splitScimAndConditions (" and ".intercalate texts) >>= fun conditions =>
      conditions.foldlM step start) = .ok f ∧ (constraints f).Perm cs := by
  have hfilter := filterSays_intercalate hne hattrs hall htexts
  refine ⟨_, (h.filter_eq_ok_iff hstart).mpr ⟨cs, hfilter, rfl⟩, h.perm_conditions hstart hfilter ?_⟩
  intro c hc
  exact not_isBlank_of_valid (hall c hc).2

-- paths

/-- The path of the value of the address in a PATCH operation. -/
def emailValuePath (email : String) : String :=
  "emails[value eq " ++ quoteText email ++ "].value"

theorem toList_append_append (a b c : String) :
    (a ++ b ++ c).toList = a.toList ++ (b.toList ++ c.toList) := by
  rw [String.toList_append, String.toList_append, List.append_assoc]

theorem emailValuePath_toList (email : String) : (emailValuePath email).toList =
    "emails[value eq ".toList ++ ((quoteText email).toList ++ "].value".toList) :=
  toList_append_append ..

theorem trim_emailValuePath (email : String) : trim (emailValuePath email) = emailValuePath email := by
  refine trim_eq_self (fun c hc => ?_) fun c hc => ?_
  · rw [emailValuePath_toList] at hc
    obtain rfl : 'e' = c := Option.some.inj hc
    decide
  · rw [emailValuePath_toList, ← List.append_assoc,
      List.getLast?_append_of_ne_nil _ (by decide)] at hc
    obtain rfl : 'e' = c := by simpa using hc
    decide

theorem stripScimSchema_emailValuePath (email : String) :
    stripScimSchema scimUserSchema (emailValuePath email) = emailValuePath email := by
  unfold stripScimSchema
  dsimp only
  rw [if_neg]
  intro h
  have hschema : asciiLowercase (String.ofList
      ((emailValuePath email).toList.take scimUserSchema.length)) =
        asciiLowercase scimUserSchema :=
    of_decide_eq_true (Bool.and_eq_true_iff.mp h).1
  have hfirst := congrArg (fun text : String => text.toList.head?) hschema
  have hpath : (emailValuePath email).toList.head? = some 'e' := by
    rw [emailValuePath_toList]
    rfl
  have hlength : scimUserSchema.length ≠ 0 := by decide
  rw [asciiLowercase_toList, String.toList_ofList, List.head?_map, List.head?_take,
    if_neg hlength, hpath] at hfirst
  exact absurd hfirst (by decide)

/-- A path with a bracket is a path of a filtered address. -/
theorem scimPatchPath_emailValuePath (email : String) :
    scimPatchPath (emailValuePath email) = scimPatchEmailPath (emailValuePath email) := by
  have hlower : (asciiLowercase (emailValuePath email)).toList =
      "emails[value eq ".toList ++
        ((quoteText email).toList ++ "].value".toList).map toAsciiLowercase := by
    have hfirst : "emails[value eq ".toList.map toAsciiLowercase = "emails[value eq ".toList := by
      decide
    rw [asciiLowercase_toList, emailValuePath_toList, List.map_append, hfirst]
  have hbracket : '[' ∈ (asciiLowercase (emailValuePath email)).toList := by
    rw [hlower]
    exact List.mem_append_left _ (by decide)
  have hbegins : "emails[".toList.isPrefixOf (asciiLowercase (emailValuePath email)).toList := by
    rw [List.isPrefixOf_iff_prefix, hlower]
    have hshort : "emails[".toList <+: "emails[value eq ".toList := by decide
    exact hshort.trans (List.prefix_append ..)
  have hnonempty : (emailValuePath email).isEmpty = false := by
    rw [← Bool.not_eq_true, String.isEmpty_iff, ← String.toList_eq_nil_iff, emailValuePath_toList]
    exact List.append_ne_nil_of_left_ne_nil (by decide) _
  unfold scimPatchPath
  rw [trim_emailValuePath, stripScimSchema_emailValuePath]
  dsimp only
  rw [hnonempty, if_neg Bool.false_ne_true]
  generalize asciiLowercase (emailValuePath email) = lower at hbracket hbegins
  split
  case h_19 => exact if_pos hbegins
  all_goals exact absurd hbracket (by decide)

/-- What stands between the brackets, up to the first closing one, and after it. -/
theorem splitFilterPath_eq (before after : List Char) (email : String)
    (hpath : "value eq ".toList ++ ((quoteText email).toList ++ "].value".toList) =
      before ++ ']' :: after) (hbefore : ']' ∉ before) :
    splitFilterPath "emails" (emailValuePath email) "invalid SCIM email path"
      "unterminated SCIM email filter path" =
        .ok (String.ofList before, trim (String.ofList after)) := by
  have hlist : (emailValuePath email).toList = "emails".toList ++ '[' :: (before ++ ']' :: after) := by
    rw [emailValuePath_toList, ← hpath]
    rfl
  have hopen : ∀ c ∈ "emails".toList, decide (c ≠ '[') = true :=
    forall_mem_of_all (by decide)
  have hclose : ∀ c ∈ before, decide (c ≠ ']') = true := by
    intro c hc
    have hne : c ≠ ']' := fun heq => hbefore (heq ▸ hc)
    simpa using hne
  obtain ⟨htake, hdrop⟩ := span_append_cons (before ++ ']' :: after) hopen
    (d := '[') (by decide)
  obtain ⟨htake', hdrop'⟩ := span_append_cons after hclose (d := ']') (by decide)
  unfold splitFilterPath
  dsimp only
  rw [hlist, htake, hdrop, List.tail_cons, htake', hdrop']
  have hemails : eqIgnoreAsciiCase (String.ofList "emails".toList) "emails" = true := by decide
  rw [hemails]
  rfl

theorem quoteText_toList (text : String) : (quoteText text).toList = quotationMark ::
    (Quoted.escapeText quotationMark backslash text.toList ++ [quotationMark]) :=
  String.toList_ofList

/-- An address without a closing bracket is read back from the path. -/
theorem scimPatchEmailPath_of_notMem {email : String} (hemail : normalizeEmail email = .ok email)
    (h : ']' ∉ email.toList) : scimPatchEmailPath (emailValuePath email) =
      .ok (.emails (some (.value email)) .value) := by
  have hquoted : ']' ∉ (quoteText email).toList := by
    rw [quoteText_toList, List.mem_cons, List.mem_append,
      Quoted.mem_escapeText_iff (by decide), List.mem_singleton]
    rintro (heq | hmem | heq)
    · exact absurd heq (by decide)
    · exact h hmem
    · exact absurd heq (by decide)
  have hsplit := splitFilterPath_eq ("value eq ".toList ++ (quoteText email).toList)
    ".value".toList email (by rw [List.append_assoc]; rfl) (by
      rw [List.mem_append, not_or]
      exact ⟨by decide, hquoted⟩)
  have hcondition : String.ofList ("value eq ".toList ++ (quoteText email).toList) =
      "value" ++ " " ++ "eq" ++ " " ++ quoteText email := by
    apply String.toList_injective
    rw [String.toList_ofList, String.toList_append]
    rfl
  have hread : scimEqCondition ("value" ++ " " ++ "eq" ++ " " ++ quoteText email) =
      .ok ("value", quoteText email) :=
    scimEqCondition_spaced (by decide) (forall_mem_of_all (by decide)) (by decide)
      (protected_valueText (.userName email))
  have hfilter : scimEmailFilter ("value" ++ " " ++ "eq" ++ " " ++ quoteText email) =
      .ok (.value email) := by
    unfold scimEmailFilter
    rw [hread]
    refine except_bind_eq_ok.mpr ⟨_, rfl, ?_⟩
    have hkey : asciiLowercase "value" = "value" := by decide
    simp only [hkey]
    refine except_bind_eq_ok.mpr ⟨email, scimFilterString_eq_ok_iff.mpr (literal_quoteText email), ?_⟩
    exact except_bind_eq_ok.mpr ⟨email, scimNormalizeEmail_eq_ok_iff.mpr hemail, rfl⟩
  have hsuffix : trim (String.ofList ".value".toList) = ".value" := by decide
  unfold scimPatchEmailPath
  refine except_bind_eq_ok.mpr ⟨_, hsplit, ?_⟩
  dsimp only
  rw [hcondition, hsuffix]
  refine except_bind_eq_ok.mpr ⟨_, hfilter, ?_⟩
  rfl

/-- The path of an address with a closing bracket is cut inside of it. -/
theorem scimPatchEmailPath_of_mem {email : String} (h : ']' ∈ email.toList) :
    scimPatchEmailPath (emailValuePath email) ≠ .ok (.emails (some (.value email)) .value) := by
  obtain ⟨before, after, hescaped, hbefore⟩ := List.eq_append_cons_of_mem
    ((Quoted.mem_escapeText_iff (q := quotationMark) (e := backslash) (by decide)).mpr h)
  have hsplit := splitFilterPath_eq ("value eq ".toList ++ quotationMark :: before)
    (after ++ quotationMark :: "].value".toList) email (by
      rw [quoteText_toList, hescaped]
      simp only [List.append_assoc, List.cons_append, List.nil_append]) (by
      rw [List.mem_append, List.mem_cons, not_or, not_or]
      exact ⟨by decide, by decide, hbefore⟩)
  intro hpath
  obtain ⟨_, hfirst, hrest⟩ := except_bind_eq_ok.mp hpath
  obtain rfl := Except.ok.inj (hsplit.symm.trans hfirst)
  obtain ⟨filter, -, hrest⟩ := except_bind_eq_ok.mp hrest
  obtain ⟨attr, hattr, hdone⟩ := except_bind_eq_ok.mp hrest
  obtain ⟨-, rfl⟩ : _ ∧ attr = .value := by
    have := Except.ok.inj hdone
    injection this with hfilter hvalue
    exact ⟨hfilter, hvalue⟩
  -- the rest of the path still has a quote
  have hquote : quotationMark ∈ (trim (String.ofList
      (after ++ quotationMark :: "].value".toList))).toList := by
    refine mem_trim (by decide) ?_
    rw [String.toList_ofList]
    exact List.mem_append_right _ (.head _)
  generalize trim (String.ofList (after ++ quotationMark :: "].value".toList)) = suffix at hattr hquote
  have hvalue : ¬eqIgnoreAsciiCase suffix ".value" = true := by
    intro hsame
    have hlower : asciiLowercase suffix = asciiLowercase ".value" := of_decide_eq_true hsame
    have hmem : quotationMark ∈ (asciiLowercase suffix).toList := by
      rw [asciiLowercase_toList]
      exact List.mem_map.mpr ⟨_, hquote, by decide⟩
    rw [hlower] at hmem
    exact absurd hmem (by decide)
  rw [if_neg hvalue] at hattr
  split at hattr
  · cases hattr
  split at hattr
  · cases hattr
  split at hattr
  · cases hattr
  · cases hattr

/-- **Quoting protects the values of filters**, and in the path of a PATCH operation
    it protects an address exactly if no closing bracket is in it. -/
theorem quoting_protects_iff {texts : List String} {cs : List ScimCondition} {email : String}
    (hne : cs ≠ []) (hattrs : (cs.map (·.attr)).Nodup)
    (htexts : List.Forall₂ ScimCondition.Renders texts cs)
    (hemail : normalizeEmail email = .ok email) :
    ((∀ c ∈ cs, c.OfUser ∧ c.Valid) →
      ∃ f, scimUserFilter (" and ".intercalate texts) = .ok f ∧ f.constraints.Perm cs) ∧
    ((∀ c ∈ cs, c.OfGroup ∧ c.Valid) →
      ∃ f, scimGroupFilter (" and ".intercalate texts) = .ok f ∧ f.constraints.Perm cs) ∧
    (scimPatchPath (emailValuePath email) = .ok (.emails (some (.value email)) .value) ↔
      ']' ∉ email.toList) := by
  refine ⟨fun hall => ?_, fun hall => ?_, ?_⟩
  · exact takesConditions_scimUserFilterStep.filter_intercalate rfl hne hattrs hall htexts
  · exact takesConditions_scimGroupFilterStep.filter_intercalate rfl hne hattrs hall htexts
  · rw [scimPatchPath_emailValuePath]
    constructor
    · intro hpath hmem
      exact scimPatchEmailPath_of_mem hmem hpath
    · exact scimPatchEmailPath_of_notMem hemail

namespace Sample

/-- A display name with a keyword, a quote and a backslash. -/
def awkwardName : String := "R\" and \\D"

def awkwardTexts : List String :=
  ["DISPLAYNAME Eq " ++ quoteText awkwardName, "externalId eq \"42\""]

def awkwardConditions : List ScimCondition := [.displayName awkwardName, .externalId "42"]

def bracketEmail : String := "a]b@example.org"

def plainEmail : String := "ada@example.org"

end Sample

open Sample in
theorem quoting_protects_awkwardName :
    (∃ f, scimGroupFilter (" and ".intercalate awkwardTexts) = .ok f ∧
      f.constraints.Perm awkwardConditions) ∧
    scimPatchPath (emailValuePath plainEmail) =
      .ok (.emails (some (.value plainEmail)) .value) := by
  have hvalid : ∀ c ∈ awkwardConditions, c.OfGroup ∧ c.Valid := by
    intro c hc
    rcases List.mem_pair.mp hc with rfl | rfl
    · exact ⟨(by decide : awkwardName ≠ ""), by decide, by decide, by decide⟩
    · exact ⟨(by decide : "42" ≠ ""), by decide, by decide, by decide⟩
  have htexts : List.Forall₂ ScimCondition.Renders awkwardTexts awkwardConditions :=
    .cons ⟨"DISPLAYNAME", "Eq", by decide, by decide, by decide⟩
      (.cons ⟨"externalId", "eq", by decide, by decide, by decide⟩ .nil)
  have hquoted := quoting_protects_iff (by decide) (by decide) htexts
    (by decide : normalizeEmail plainEmail = .ok plainEmail)
  exact ⟨hquoted.2.1 hvalid, hquoted.2.2.mpr (by decide)⟩

open Sample in
/-- A normalized address that is not read back from its path. -/
theorem bracket_cuts_path : normalizeEmail bracketEmail = .ok bracketEmail ∧
    emailValuePath bracketEmail = "emails[value eq \"a]b@example.org\"].value" ∧
    scimPatchPath (emailValuePath bracketEmail) =
      .error (.invalidFilter "SCIM string filter value must be quoted") := by
  refine ⟨by decide, by decide, by decide⟩

end CairnId
