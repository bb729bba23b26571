import Mathlib.Data.List.Infix

/-!
# Replacing a pattern

All occurrences of a pattern, taken from the left so that none overlaps the one before, are
replaced by a text. What is left of the original are the pieces between them.

## Main definitions

- `replace`

## Main results

- `exists_pieces` — the text, and every replacement, is the same pieces with the pattern,
  or what replaces it, between them
- `isInfix_append_cons_iff` — a pattern does not cross a symbol that it does not have
-/

namespace Replace

variable {α : Type} [DecidableEq α]

/-- The number counts the symbols to drop of an occurrence that was replaced. -/
def replaceFrom (pattern replacement : List α) : ℕ → List α → List α
  | _, [] => []
  | skip + 1, _ :: text => replaceFrom pattern replacement skip text
  | 0, c :: text =>
    if pattern <+: c :: text then
      replacement ++ replaceFrom pattern replacement (pattern.length - 1) text
    else c :: replaceFrom pattern replacement 0 text

def replace (pattern replacement text : List α) : List α :=
  replaceFrom pattern replacement 0 text

variable {pattern replacement : List α}

theorem replaceFrom_eq_drop (skip : ℕ) (text : List α) :
    replaceFrom pattern replacement skip text = replace pattern replacement (text.drop skip) := by
  induction skip generalizing text with
  | zero => rfl
  | succ skip ih =>
    cases text with
    | nil => rfl
    | cons c text =>
      show replaceFrom pattern replacement skip text = _
      exact ih text

theorem replace_cons_of_not_starting {c : α} {text : List α} (h : ¬pattern <+: c :: text) :
    replace pattern replacement (c :: text) = c :: replace pattern replacement text := by
  show (if pattern <+: c :: text then _ else _) = _
  rw [if_neg h]
  rfl

theorem replace_append (hne : pattern ≠ []) (rest : List α) :
    replace pattern replacement (pattern ++ rest) =
      replacement ++ replace pattern replacement rest := by
  cases pattern with
  | nil => exact absurd rfl hne
  | cons p ps =>
    have hbegins : p :: ps <+: p :: (ps ++ rest) := List.prefix_append (p :: ps) rest
    have hdrop : (ps ++ rest).drop ((p :: ps).length - 1) = rest := List.drop_left
    rw [List.cons_append]
    show (if p :: ps <+: p :: (ps ++ rest) then _ else _) = _
    rw [if_pos hbegins, replaceFrom_eq_drop, hdrop]

/-- The text and its replacements have the same pieces. -/
theorem exists_pieces (hne : pattern ≠ []) (text : List α) :
    ∃ pieces : List (List α), pieces ≠ [] ∧ (∀ piece ∈ pieces, ¬pattern <:+: piece) ∧
      text = pattern.intercalate pieces ∧
      ∀ replacement, replace pattern replacement text = replacement.intercalate pieces := by
  induction hn : text.length using Nat.strong_induction_on generalizing text with
  | _ n ih =>
    by_cases hbegins : pattern <+: text
    · obtain ⟨rest, rfl⟩ := hbegins
      have hpos : 0 < pattern.length := List.length_pos_of_ne_nil hne
      rw [List.length_append] at hn
      obtain ⟨pieces, hpieces, hfree, htext, hreplace⟩ := ih rest.length (by omega) rest rfl
      refine ⟨[] :: pieces, List.cons_ne_nil _ _, ?_, ?_, ?_⟩
      · intro piece hmem
        rcases List.mem_cons.mp hmem with rfl | hmem
        · rwa [List.infix_nil]
        · exact hfree piece hmem
      · rw [List.intercalate_cons_of_ne_nil hpieces, ← htext, List.nil_append]
      · intro replacement
        rw [replace_append hne, hreplace, List.intercalate_cons_of_ne_nil hpieces, List.nil_append]
    · cases text with
      | nil =>
        refine ⟨[[]], List.cons_ne_nil _ _, ?_, rfl, fun replacement => rfl⟩
        intro piece hmem
        rw [List.mem_singleton.mp hmem, List.infix_nil]
        exact hne
      | cons c text =>
        rw [List.length_cons] at hn
        obtain ⟨pieces, hpieces, hfree, htext, hreplace⟩ := ih text.length (by omega) text rfl
        cases pieces with
        | nil => exact absurd rfl hpieces
        | cons piece pieces =>
          refine ⟨(c :: piece) :: pieces, List.cons_ne_nil _ _, ?_, ?_, ?_⟩
          · intro other hmem
            rcases List.mem_cons.mp hmem with rfl | hmem
            · have hstart : c :: piece <+: c :: text := by
                rw [htext]
                cases pieces with
                | nil => rw [List.intercalate_singleton]
                | cons next pieces =>
                  rw [List.intercalate_cons_cons, List.append_assoc]
                  exact List.prefix_append (c :: piece) _
              rw [List.infix_cons_iff]
              rintro (hhead | htail)
              · exact hbegins (hhead.trans hstart)
              · exact hfree piece List.mem_cons_self htail
            · exact hfree other (List.mem_cons_of_mem piece hmem)
          · rw [List.intercalate_cons_cons_left, ← htext]
          · intro replacement
            rw [replace_cons_of_not_starting hbegins, hreplace, List.intercalate_cons_cons_left]

-- where a pattern occurs

omit [DecidableEq α] in
theorem prefix_of_prefix_append_cons {before after : List α} {c : α} (hc : c ∉ pattern)
    (h : pattern <+: before ++ c :: after) : pattern <+: before := by
  have hcons : before ++ c :: after = (before ++ [c]) ++ after := by
    rw [List.append_assoc, List.singleton_append]
  have hstart : before ++ [c] <+: before ++ c :: after := by
    rw [hcons]
    exact List.prefix_append _ after
  rcases List.prefix_or_prefix_of_prefix h hstart with hshort | hlong
  · rcases List.prefix_concat_iff.mp hshort with rfl | hbefore
    · exact absurd (List.mem_append_right before List.mem_cons_self) hc
    · exact hbefore
  · exact absurd (hlong.subset (List.mem_append_right before List.mem_cons_self)) hc

omit [DecidableEq α] in
theorem isInfix_append_cons_iff {before after : List α} {c : α} (hne : pattern ≠ [])
    (hc : c ∉ pattern) :
    pattern <:+: before ++ c :: after ↔ pattern <:+: before ∨ pattern <:+: after := by
  constructor
  · intro h
    induction before with
    | nil =>
      rcases List.infix_cons_iff.mp h with hhead | htail
      · have hnil : pattern <+: [] := @prefix_of_prefix_append_cons _ _ [] after c hc hhead
        exact absurd (List.prefix_nil.mp hnil) hne
      · exact .inr htail
    | cons b before ih =>
      rcases List.infix_cons_iff.mp h with hhead | htail
      · exact .inl (prefix_of_prefix_append_cons hc hhead).isInfix
      · rcases ih htail with hbefore | hafter
        · exact .inl (List.infix_cons_iff.mpr (.inr hbefore))
        · exact .inr hafter
  · rintro (hbefore | hafter)
    · exact hbefore.trans (List.prefix_append before _).isInfix
    · exact (List.infix_cons_iff.mpr (.inr hafter)).trans
        (List.suffix_append before (c :: after)).isInfix

omit [DecidableEq α] in
/-- Nothing starts in a text without the first symbol of the pattern. -/
theorem isInfix_append_iff {first : α} {others before after : List α} (h : first ∉ before) :
    first :: others <:+: before ++ after ↔ first :: others <:+: after := by
  induction before with
  | nil => rfl
  | cons b before ih =>
    rw [List.mem_cons, not_or] at h
    rw [List.cons_append, List.infix_cons_iff, ih h.2]
    constructor
    · rintro (hhead | htail)
      · exact absurd (List.cons_prefix_cons.mp hhead).1 h.1
      · exact htail
    · exact .inr

omit [DecidableEq α] in
theorem not_isInfix_of_notMem {first : α} {others text : List α} (h : first ∉ text) :
    ¬first :: others <:+: text := fun hinside => h (hinside.subset List.mem_cons_self)

end Replace
