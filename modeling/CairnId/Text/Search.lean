import CairnId.Text.Replace

/-!
# The first occurrence of a pattern

## Main definitions

- `indexOf` — where a pattern first occurs

## Main results

- `indexOf_eq_some_iff`, `indexOf_eq_none_iff` — what the index says
- `indexOf_append`, `indexOf_take`, `indexOf_append_cons` — the index in a longer or shorter
  text
-/

namespace Search

open Replace

variable {α : Type} [DecidableEq α]

/-- `str::find`, on a list of symbols. -/
def indexOf (needle : List α) : List α → Option ℕ
  | [] => if needle = [] then some 0 else none
  | c :: text => if needle <+: c :: text then some 0 else (indexOf needle text).map (· + 1)

variable {needle text : List α} {i : ℕ}

theorem indexOf_eq_some_iff : indexOf needle text = some i ↔
    needle <+: text.drop i ∧ ∀ j < i, ¬needle <+: text.drop j := by
  induction text generalizing i with
  | nil =>
    rw [indexOf]
    by_cases hnil : needle = []
    · subst hnil
      rw [if_pos rfl, Option.some_inj]
      constructor
      · rintro rfl
        exact ⟨List.nil_prefix, fun j hj => absurd hj (Nat.not_lt_zero j)⟩
      · rintro ⟨-, hfirst⟩
        by_contra hi
        exact hfirst 0 (by omega) List.nil_prefix
    · rw [if_neg hnil]
      constructor
      · intro h
        cases h
      · rintro ⟨hbegins, -⟩
        rw [List.drop_nil] at hbegins
        exact absurd (List.prefix_nil.mp hbegins) hnil
  | cons c text ih =>
    rw [indexOf]
    by_cases hhead : needle <+: c :: text
    · rw [if_pos hhead, Option.some_inj]
      constructor
      · rintro rfl
        exact ⟨hhead, fun j hj => absurd hj (Nat.not_lt_zero j)⟩
      · rintro ⟨-, hfirst⟩
        by_contra hi
        exact hfirst 0 (by omega) hhead
    · rw [if_neg hhead, Option.map_eq_some_iff]
      constructor
      · rintro ⟨k, hk, rfl⟩
        obtain ⟨hbegins, hfirst⟩ := ih.mp hk
        refine ⟨hbegins, ?_⟩
        intro j hj
        cases j with
        | zero => exact hhead
        | succ j => exact hfirst j (by omega)
      · rintro ⟨hbegins, hfirst⟩
        cases i with
        | zero => exact absurd hbegins hhead
        | succ k =>
          refine ⟨k, ih.mpr ⟨hbegins, ?_⟩, rfl⟩
          exact fun j hj => hfirst (j + 1) (by omega)

theorem indexOf_eq_none_iff : indexOf needle text = none ↔ ¬needle <:+: text := by
  induction text with
  | nil =>
    rw [indexOf, List.infix_nil]
    by_cases hnil : needle = [] <;> simp [hnil]
  | cons c text ih =>
    rw [indexOf, List.infix_cons_iff]
    by_cases hhead : needle <+: c :: text
    · simp [hhead]
    · rw [if_neg hhead, Option.map_eq_none_iff, ih, not_or]
      exact ⟨fun h => ⟨hhead, h⟩, fun h => h.2⟩

theorem isInfix_of_indexOf (h : indexOf needle text = some i) : needle <:+: text := by
  by_contra hnone
  rw [indexOf_eq_none_iff.mpr hnone] at h
  cases h

theorem add_length_le_of_indexOf (h : indexOf needle text = some i) :
    i + needle.length ≤ text.length := by
  have hbegins := (indexOf_eq_some_iff.mp h).1
  have hle := hbegins.length_le
  rw [List.length_drop] at hle
  by_cases hi : i ≤ text.length
  · omega
  · -- an index behind the end would be a later one than the end
    have hnil : needle = [] := by
      rw [List.drop_eq_nil_of_le (by omega)] at hbegins
      exact List.prefix_nil.mp hbegins
    have hfirst := (indexOf_eq_some_iff.mp h).2 0 (by omega)
    exact absurd (hnil ▸ List.nil_prefix) hfirst

/-- Nothing that is added behind makes the pattern occur earlier. -/
theorem indexOf_append (h : indexOf needle text = some i) (rest : List α) :
    indexOf needle (text ++ rest) = some i := by
  have hle := add_length_le_of_indexOf h
  obtain ⟨hbegins, hfirst⟩ := indexOf_eq_some_iff.mp h
  refine indexOf_eq_some_iff.mpr ⟨?_, ?_⟩
  · rw [List.drop_append_of_le_length (by omega)]
    exact hbegins.trans (List.prefix_append _ _)
  · intro j hj hocc
    rw [List.drop_append_of_le_length (by omega)] at hocc
    refine hfirst j hj (List.prefix_of_prefix_length_le hocc (List.prefix_append _ _) ?_)
    rw [List.length_drop]
    omega

theorem indexOf_take (h : indexOf needle text = some i) {k : ℕ} (hk : i + needle.length ≤ k) :
    indexOf needle (text.take k) = some i := by
  obtain ⟨hbegins, hfirst⟩ := indexOf_eq_some_iff.mp h
  refine indexOf_eq_some_iff.mpr ⟨?_, ?_⟩
  · rw [List.drop_take, List.prefix_take_iff]
    exact ⟨hbegins, by omega⟩
  · intro j hj hocc
    rw [List.drop_take, List.prefix_take_iff] at hocc
    exact hfirst j hj hocc.1

/-- The text up to the end of the first occurrence ends with the pattern. -/
theorem take_of_indexOf (h : indexOf needle text = some i) :
    text.take (i + needle.length) = text.take i ++ needle := by
  obtain ⟨rest, hrest⟩ := (indexOf_eq_some_iff.mp h).1
  rw [List.take_add, ← hrest, List.take_left']
  rfl

/-- A pattern does not occur across a symbol that it does not have. -/
theorem indexOf_append_cons {before after : List α} {c : α} (hne : needle ≠ [])
    (hc : c ∉ needle) (hafter : ¬needle <:+: after) :
    indexOf needle (before ++ c :: after) = indexOf needle before := by
  cases hbefore : indexOf needle before with
  | some i => exact indexOf_append hbefore _
  | none =>
    rw [indexOf_eq_none_iff] at hbefore ⊢
    rw [isInfix_append_cons_iff hne hc, not_or]
    exact ⟨hbefore, hafter⟩

end Search
