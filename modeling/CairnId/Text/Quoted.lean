import Mathlib.Data.List.Induction

/-!
# Quoted text

Text between two quotes: an escape symbol stands before every quote and every escape
symbol of the value. A reader that only drops the escape symbols also takes text with
bare quotes; a scan of a longer text tells what is outside of its quotes.

## Main definitions

- `Denotes` — the text of a value
- `escapeText` — the one text that denotes a value
- `unescape` — the reader, and `bare` for what it lets through
- `passes` — the quotes of a text are closed, and outside of them it does not stop

## Main results

- `denotes_iff_eq_escapeText`, `denotes_iff_unescape`
- `passes_quoted` — a value between quotes is passed, whatever is in it
-/

namespace Quoted

variable {α : Type} (q e : α)

/-- The text between the quotes denotes the value. -/
inductive Denotes : List α → List α → Prop where
  | nil : Denotes [] []
  | plain {c : α} {text value : List α} (hq : c ≠ q) (he : c ≠ e) (h : Denotes text value) :
      Denotes (c :: text) (c :: value)
  | escaped {c : α} {text value : List α} (hc : c = q ∨ c = e) (h : Denotes text value) :
      Denotes (e :: c :: text) (c :: value)

variable [DecidableEq α]

def escapeText : List α → List α
  | [] => []
  | c :: value => if c = q ∨ c = e then e :: c :: escapeText value else c :: escapeText value

/-- Drops the escape symbols, which must stand before a quote or an escape symbol. -/
def unescape (escaped : Bool) : List α → Option (List α)
  | [] => if escaped then none else some []
  | c :: text =>
    if escaped then if c = q ∨ c = e then (unescape false text).map (c :: ·) else none
    else if c = e then unescape true text
    else (unescape false text).map (c :: ·)

/-- Some quote has no escape symbol before it. -/
def bare (escaped : Bool) : List α → Bool
  | [] => false
  | c :: text =>
    if escaped then bare false text
    else if c = e then bare true text
    else c = q || bare false text

/-- A scan of the text ends outside of quotes, and `stop` holds of no rest of the text
    that it meets there. -/
def passes (stop : List α → Bool) (inString escaped : Bool) : List α → List α → Bool
  | [], _ => !inString && !escaped
  | c :: text, rest =>
    if escaped then passes stop inString false text rest
    else if inString && c = e then passes stop inString true text rest
    else if c = q then passes stop (!inString) false text rest
    else if !inString && stop (c :: (text ++ rest)) then false
    else passes stop inString false text rest

variable {q e} {text value rest : List α} {stop : List α → Bool}

-- the grammar

theorem denotes_escapeText (value : List α) : Denotes q e (escapeText q e value) value := by
  induction value with
  | nil => exact .nil
  | cons c value ih =>
    unfold escapeText
    by_cases hc : c = q ∨ c = e
    · rw [if_pos hc]
      exact .escaped hc ih
    · rw [if_neg hc]
      obtain ⟨hq, he⟩ := not_or.mp hc
      exact .plain hq he ih

theorem denotes_iff_eq_escapeText : Denotes q e text value ↔ text = escapeText q e value := by
  constructor
  · intro h
    induction h with
    | nil => rfl
    | plain hq he _ ih => rw [escapeText, if_neg (not_or.mpr ⟨hq, he⟩), ih]
    | escaped hc _ ih => rw [escapeText, if_pos hc, ih]
  · rintro rfl
    exact denotes_escapeText value

/-- The reader reads what the grammar says where no quote is bare. -/
theorem denotes_iff_unescape (hne : q ≠ e) :
    Denotes q e text value ↔ unescape q e false text = some value ∧ bare q e false text = false := by
  constructor
  · intro h
    induction h with
    | nil => exact ⟨rfl, rfl⟩
    | plain hq he _ ih => simp [unescape, bare, hq, he, ih]
    | escaped hc _ ih => simp [unescape, bare, hc, ih]
  · rintro ⟨hread, hbare⟩
    induction text using List.twoStepInduction generalizing value with
    | nil =>
      obtain rfl : value = [] := by simpa [unescape, eq_comm] using hread
      exact .nil
    | singleton c =>
      by_cases he : c = e
      · simp [unescape, he] at hread
      · have hq : c ≠ q := by simpa [bare, he] using hbare
        obtain rfl : value = [c] := by simpa [unescape, he, eq_comm] using hread
        exact .plain hq he .nil
    | cons_cons c d text ih₁ ih₂ =>
      by_cases he : c = e
      · subst he
        by_cases hd : d = q ∨ d = c
        · simp only [unescape, Bool.false_eq_true, if_false, if_true, hd, Option.map_eq_some_iff]
            at hread
          obtain ⟨v, hv, rfl⟩ := hread
          exact .escaped hd (ih₁ hv (by simpa [bare] using hbare))
        · simp [unescape, hd] at hread
      · have hq : c ≠ q ∧ bare q e false (d :: text) = false := by
          rw [bare] at hbare
          simpa [he] using hbare
        rw [unescape] at hread
        simp only [Bool.false_eq_true, if_false, he, Option.map_eq_some_iff] at hread
        obtain ⟨v, hv, rfl⟩ := hread
        exact .plain hq.1 he (ih₂ d hv hq.2)

theorem unescape_escapeText (hne : q ≠ e) (value : List α) :
    unescape q e false (escapeText q e value) = some value :=
  ((denotes_iff_unescape hne).mp (denotes_escapeText value)).1

theorem Denotes.unique (hne : q ≠ e) {v : List α} (h : Denotes q e text value)
    (hv : Denotes q e text v) : value = v := by
  have hread := ((denotes_iff_unescape hne).mp h).1
  have hread' := ((denotes_iff_unescape hne).mp hv).1
  exact Option.some.inj (hread.symm.trans hread')

theorem mem_escapeText_iff {c : α} (hc : c ≠ e) : c ∈ escapeText q e value ↔ c ∈ value := by
  induction value with
  | nil => rfl
  | cons d value ih =>
    unfold escapeText
    split
    · simp [hc, ih]
    · simp [ih]

-- bare quotes

theorem bare_of_denotes (hne : q ≠ e) (h : Denotes q e text value) :
    bare q e false (text ++ q :: rest) = true := by
  induction h with
  | nil => simp [bare, hne]
  | plain hq he _ ih => simpa [bare, hq, he] using ih
  | escaped hc _ ih => simpa [bare] using ih

/-- What stands before the first bare quote denotes a value. -/
theorem exists_denotes_of_bare (hbare : bare q e false text = true)
    (hread : unescape q e false text = some value) :
    ∃ before v after, text = before ++ q :: after ∧ Denotes q e before v := by
  induction text using List.twoStepInduction generalizing value with
  | nil => cases hbare
  | singleton c =>
    by_cases he : c = e
    · simp [unescape, he] at hread
    · obtain rfl : c = q := by simpa [bare, he] using hbare
      exact ⟨[], [], [], rfl, .nil⟩
  | cons_cons c d text ih₁ ih₂ =>
    by_cases he : c = e
    · subst he
      by_cases hd : d = q ∨ d = c
      · simp only [unescape, Bool.false_eq_true, if_false, if_true, hd, Option.map_eq_some_iff]
          at hread
        obtain ⟨v, hv, rfl⟩ := hread
        obtain ⟨before, w, after, rfl, hw⟩ := ih₁ (by simpa [bare] using hbare) hv
        exact ⟨c :: d :: before, d :: w, after, rfl, .escaped hd hw⟩
      · simp [unescape, hd] at hread
    · by_cases hq : c = q
      · subst hq
        exact ⟨[], [], d :: text, rfl, .nil⟩
      · have hrest : bare q e false (d :: text) = true := by
          rw [bare] at hbare
          simpa [he, hq] using hbare
        rw [unescape] at hread
        simp only [Bool.false_eq_true, if_false, he, Option.map_eq_some_iff] at hread
        obtain ⟨v, hv, rfl⟩ := hread
        obtain ⟨before, w, after, htext, hw⟩ := ih₂ d hrest hv
        exact ⟨c :: before, c :: w, after, by rw [htext]; rfl, .plain hq he hw⟩

-- the scan

@[simp] theorem passes_quote :
    passes q e stop false false (q :: text) rest = passes q e stop true false text rest := by
  simp [passes]

theorem passes_of_not_stop {c : α} (hq : c ≠ q) (hstop : stop (c :: (text ++ rest)) = false) :
    passes q e stop false false (c :: text) rest = passes q e stop false false text rest := by
  simp [passes, hq, hstop]

/-- The scan gets through a value, whatever is in it. -/
theorem passes_escapeText (hne : q ≠ e) (value : List α) :
    passes q e stop true false (escapeText q e value ++ q :: text) rest =
      passes q e stop false false text rest := by
  induction value with
  | nil => simp [escapeText, passes, hne]
  | cons c value ih =>
    unfold escapeText
    by_cases hc : c = q ∨ c = e
    · rw [if_pos hc]
      simpa [passes] using ih
    · rw [if_neg hc]
      obtain ⟨hq, he⟩ := not_or.mp hc
      simpa [passes, hq, he] using ih

theorem passes_quoted (hne : q ≠ e) (value : List α) :
    passes q e stop false false (q :: (escapeText q e value ++ [q])) rest = true := by
  rw [passes_quote, passes_escapeText hne]
  rfl

end Quoted
