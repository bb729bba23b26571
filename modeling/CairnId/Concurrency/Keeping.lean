import CairnId.Concurrency.Sql

/-!
# Rows that stay and rows that are new

Some rows of a database count, by what they say. Statements that only write rows that do
not count, or write what counts so that it still does, keep them over a whole transaction.
The other way round, what statements write bounds the rows that are new.

## Main definitions

- `Keeping` — which rows count, and what may become of one
- `Kept` — the rows that count are still there
- `Stmt.Keeps` — a statement that keeps them
- `NewRows` — the rows that were not there before meet a condition
- `Stmt.WritesOnly` — a statement that writes no other rows

## Main results

- `Stmts.run_kept`, `Tx.atomic_kept` — statements that keep them, in sequence
- `Stmts.run_newRows`, `Tx.atomic_newRows` — statements that write no others, in sequence
-/

namespace Concurrency.Sql

variable {Tab : Type} {Rec : Tab → Type} {Key : Type}

/-- Which rows count, and what may become of a row that does. -/
structure Keeping (Rec : Tab → Type) where
  counts : (t : Tab) → Rec t → Prop
  step : (t : Tab) → Rec t → Rec t → Prop
  refl : ∀ t r, step t r r
  trans : ∀ t a b c, step t a b → step t b c → step t a c
  carry : ∀ t a b, counts t a → step t a b → counts t b

/-- Every row that counts is still there, as far as it may have changed. -/
def Kept (K : Keeping Rec) (db db' : Tables Rec) : Prop :=
  ∀ t, ∀ r ∈ db t, K.counts t r → ∃ r' ∈ db' t, K.step t r r'

namespace Kept

variable {K : Keeping Rec} {db db' db'' : Tables Rec}

theorem refl (K : Keeping Rec) (db : Tables Rec) : Kept K db db :=
  fun t r hr _ => ⟨r, hr, K.refl t r⟩

theorem trans (h : Kept K db db') (h' : Kept K db' db'') : Kept K db db'' := by
  intro t r hr hcounts
  obtain ⟨r', hr', hstep⟩ := h t r hr hcounts
  obtain ⟨r'', hr'', hstep'⟩ := h' t r' hr' (K.carry t r r' hcounts hstep)
  exact ⟨r'', hr'', K.trans t r r' r'' hstep hstep'⟩

/-- One table has changed. -/
theorem of_table [DecidableEq Tab] {t : Tab} {rows : List (Rec t)}
    (h : ∀ r ∈ db t, K.counts t r → ∃ r' ∈ rows, K.step t r r') :
    Kept K db (Function.update db t rows) := by
  intro t' r hr hcounts
  by_cases ht : t' = t
  · subst ht
    rw [Function.update_self]
    exact h r hr hcounts
  · rw [Function.update_of_ne ht]
    exact ⟨r, hr, K.refl t' r⟩

end Kept

/-- The statement leaves the rows that count, or makes of them what they may become. -/
def Stmt.Keeps (S : Schema Rec Key) (K : Keeping Rec) : Stmt Rec → Prop
  | .select | .lock _ _ _ | .insert _ _ => True
  | .update t p f => ∀ db r, p db r = true → K.counts t r → K.step t r (f r)
  | .upsert t r f => ∀ old, S.key t old = S.key t r → K.counts t old → K.step t old (f old)
  | .delete t p => ∀ db r, p db r = true → ¬K.counts t r

theorem Stmt.Keeps.of_target {S : Schema Rec Key} {K : Keeping Rec} {e : Stmt Rec}
    (h : e.target = none) : e.Keeps S K := by
  cases e <;> trivial

variable {S : Schema Rec Key} {K : Keeping Rec} {db db' : Tables Rec}

theorem kept_updated [DecidableEq Tab] {t : Tab} {p : Tables Rec → Rec t → Bool}
    {f : Rec t → Rec t} (h : ∀ r, p db r = true → K.counts t r → K.step t r (f r)) :
    Kept K db (Function.update db t (Stmt.updated t p f db)) := by
  refine .of_table fun r hr hcounts => ⟨_, List.mem_map_of_mem hr, ?_⟩
  split
  · exact h r ‹_› hcounts
  · exact K.refl t r

theorem Stmt.Keeps.effect [DecidableEq Tab] {e : Stmt Rec} (he : e.Keeps S K)
    (h : Stmt.Effect S e db db') : Kept K db db' := by
  cases h with
  | none => exact .refl K db
  | update t p f he' =>
    subst he'
    exact kept_updated fun r hp => he db r hp
  | insert t r he' =>
    exact .of_table fun r' hr' _ => ⟨r', List.mem_append_left _ hr', K.refl t r'⟩
  | upsert t r f he' =>
    subst he'
    exact kept_updated fun old hp => he old (by simpa using hp)
  | delete t p he' =>
    subst he'
    refine .of_table fun r hr hcounts => ⟨r, List.mem_filter.mpr ⟨hr, ?_⟩, K.refl t r⟩
    have hnot : ¬p db r = true := fun hp => he db r hp hcounts
    simpa using hnot

section run

variable {ε α : Type} [DecidableEq Tab] [DecidableEq Key] {lift : SqlError → ε} {s s' : Store S}

/-- Statements that keep what counts, in sequence. -/
theorem Stmts.run_kept {p : Stmts Rec ε α} (hp : p.All fun e => e.Keeps S K) {a : α}
    (hr : Stmts.run lift p s = .ok (a, s')) : Kept K s.tables s'.tables :=
  Stmts.run_rel (Kept K) (Kept.refl K) (fun _ _ _ h h' => h.trans h')
    (fun _ _ _ he h => he.effect h) hp hr

/-- A transaction of such statements. -/
theorem Tx.atomic_kept {p : Tx Rec ε α} (hp : p.All fun e => e.Keeps S K) {o : Except ε α}
    (hr : Tx.atomic lift p s = (o, s')) : Kept K s.tables s'.tables :=
  Tx.atomic_rel (Kept K) (Kept.refl K) (fun _ _ _ h h' => h.trans h')
    (fun _ _ _ he h => he.effect h) hp hr

end run

-- new rows

/-- A row that was not there before meets the condition. -/
def NewRows (N : (t : Tab) → Rec t → Prop) (db db' : Tables Rec) : Prop :=
  ∀ t, ∀ r ∈ db' t, r ∈ db t ∨ N t r

/-- The statement writes only rows that meet the condition. -/
def Stmt.WritesOnly (S : Schema Rec Key) (N : (t : Tab) → Rec t → Prop) : Stmt Rec → Prop
  | .select | .lock _ _ _ | .delete _ _ => True
  | .update t p f => ∀ db r, p db r = true → N t (f r)
  | .insert t r => N t r
  | .upsert t r f => N t r ∧ ∀ old, S.key t old = S.key t r → N t (f old)

theorem Stmt.WritesOnly.of_target {N : (t : Tab) → Rec t → Prop} {e : Stmt Rec}
    (h : e.target = none) : e.WritesOnly S N := by
  cases e with
  | select | lock => trivial
  | update | insert | upsert | delete => cases h

namespace NewRows

variable {N : (t : Tab) → Rec t → Prop} {db'' : Tables Rec}

theorem refl (N : (t : Tab) → Rec t → Prop) (db : Tables Rec) : NewRows N db db :=
  fun _ _ hr => .inl hr

theorem trans (h : NewRows N db db') (h' : NewRows N db' db'') : NewRows N db db'' := by
  intro t r hr
  rcases h' t r hr with hr' | hnew
  · exact h t r hr'
  · exact .inr hnew

/-- One table has changed. -/
theorem of_table [DecidableEq Tab] {t : Tab} {rows : List (Rec t)}
    (h : ∀ r ∈ rows, r ∈ db t ∨ N t r) : NewRows N db (Function.update db t rows) := by
  intro t' r hr
  by_cases ht : t' = t
  · subst ht
    rw [Function.update_self] at hr
    exact h r hr
  · rw [Function.update_of_ne ht] at hr
    exact .inl hr

theorem of_updated [DecidableEq Tab] {t : Tab} {p : Tables Rec → Rec t → Bool}
    {f : Rec t → Rec t} (h : ∀ r, p db r = true → N t (f r)) :
    NewRows N db (Function.update db t (Stmt.updated t p f db)) := by
  refine .of_table fun r hr => ?_
  obtain ⟨old, hold, rfl⟩ := List.mem_map.mp hr
  split
  · exact .inr (h old ‹_›)
  · exact .inl hold

end NewRows

theorem Stmt.WritesOnly.effect [DecidableEq Tab] {N : (t : Tab) → Rec t → Prop} {e : Stmt Rec}
    (he : e.WritesOnly S N) (h : Stmt.Effect S e db db') : NewRows N db db' := by
  cases h with
  | none => exact .refl N db
  | update t p f he' =>
    subst he'
    exact .of_updated fun r hp => he db r hp
  | insert t r he' =>
    have hnew : N t r := by
      rcases he' with rfl | ⟨f, rfl⟩
      · exact he
      · exact he.1
    refine .of_table fun r' hr' => ?_
    rcases List.mem_append.mp hr' with hold | hr'
    · exact .inl hold
    · exact .inr (List.mem_singleton.mp hr' ▸ hnew)
  | upsert t r f he' =>
    subst he'
    exact .of_updated fun old hp => he.2 old (by simpa using hp)
  | delete t p he' => exact .of_table fun r hr => .inl (List.mem_filter.mp hr).1

section run

variable {ε α : Type} [DecidableEq Tab] [DecidableEq Key] {lift : SqlError → ε} {s s' : Store S}
  {N : (t : Tab) → Rec t → Prop}

/-- Statements that write no other rows, in sequence. -/
theorem Stmts.run_newRows {p : Stmts Rec ε α} (hp : p.All fun e => e.WritesOnly S N) {a : α}
    (hr : Stmts.run lift p s = .ok (a, s')) : NewRows N s.tables s'.tables :=
  Stmts.run_rel (NewRows N) (NewRows.refl N) (fun _ _ _ h h' => h.trans h')
    (fun _ _ _ he h => he.effect h) hp hr

/-- A transaction of such statements. -/
theorem Tx.atomic_newRows {p : Tx Rec ε α} (hp : p.All fun e => e.WritesOnly S N)
    {o : Except ε α} (hr : Tx.atomic lift p s = (o, s')) : NewRows N s.tables s'.tables :=
  Tx.atomic_rel (NewRows N) (NewRows.refl N) (fun _ _ _ h h' => h.trans h')
    (fun _ _ _ he h => he.effect h) hp hr

end run

end Concurrency.Sql
