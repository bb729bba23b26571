import Mathlib.Data.List.Pairwise
import Mathlib.Logic.Function.Basic
import CairnId.Concurrency.Prog

/-!
# Tables, statements and transactions

A database is a family of tables of typed rows. A transaction is a program
whose calls are SQL statements, ending in a commit or a rollback. This file
gives transactions their meaning when nothing runs in between their statements.

## Main definitions

- `Schema` — primary keys, unique indexes and foreign keys
- `Store` — tables whose unique indexes hold
- `Stmt` — the statements a transaction is made of
- `Tx.atomic` — a whole transaction as one step
-/

namespace Concurrency.Sql

variable {Tab : Type} {Rec : Tab → Type} {Key : Type}

/-- The contents of every table. -/
abbrev Tables (Rec : Tab → Type) := (t : Tab) → List (Rec t)

/-- `key` is the primary key, `indexes` the entries of a row in the other unique
    indexes of its table, and `refs` the entries of other tables that its foreign
    keys need. -/
structure Schema (Rec : Tab → Type) (Key : Type) where
  key : (t : Tab) → Rec t → Key
  indexes : (t : Tab) → Rec t → List Key
  refs : (t : Tab) → Rec t → List (Tab × Key)

inductive SqlError where
  | uniqueViolation
  | foreignKeyViolation
  | rowNotFound
  | connection
  deriving DecidableEq

/-- The strengths of a row lock, weakest first. -/
inductive LockMode where
  | keyShare
  | share
  | noKeyUpdate
  | update
  deriving DecidableEq

/-- Whether two transactions cannot hold the two locks on one row. -/
def LockMode.conflicts : LockMode → LockMode → Bool
  | .keyShare, .update => true
  | .keyShare, _ => false
  | .share, .noKeyUpdate => true
  | .share, .update => true
  | .share, _ => false
  | .noKeyUpdate, .keyShare => false
  | .noKeyUpdate, _ => true
  | .update, _ => true

namespace Schema

variable (S : Schema Rec Key)

/-- Every entry of a row in a unique index of its table. -/
def entries (t : Tab) (r : Rec t) : List Key := S.key t r :: S.indexes t r

/-- No unique index forbids the two rows together. -/
def Compatible (t : Tab) (a b : Rec t) : Prop := ∀ k ∈ S.entries t a, k ∉ S.entries t b

def Unique (t : Tab) (rows : List (Rec t)) : Prop := rows.Pairwise (S.Compatible t)

instance [DecidableEq Key] (t : Tab) (a b : Rec t) : Decidable (S.Compatible t a b) :=
  inferInstanceAs (Decidable (∀ k ∈ S.entries t a, k ∉ S.entries t b))

instance [DecidableEq Key] (t : Tab) (rows : List (Rec t)) : Decidable (S.Unique t rows) :=
  inferInstanceAs (Decidable (rows.Pairwise (S.Compatible t)))

/-- The rows that the foreign keys of `r` need are there. -/
def RefsPresent (db : Tables Rec) (t : Tab) (r : Rec t) : Prop :=
  ∀ x ∈ S.refs t r, ∃ r' ∈ db x.1, x.2 ∈ S.entries x.1 r'

instance [DecidableEq Key] (db : Tables Rec) (t : Tab) (r : Rec t) :
    Decidable (S.RefsPresent db t r) :=
  inferInstanceAs (Decidable (∀ x ∈ S.refs t r, ∃ r' ∈ db x.1, x.2 ∈ S.entries x.1 r'))

variable {S}

theorem Compatible.symm {t : Tab} {a b : Rec t} (h : S.Compatible t a b) : S.Compatible t b a :=
  fun k hb ha => h k ha hb

instance (t : Tab) : Std.Symm (S.Compatible t) := ⟨fun _ _ h => h.symm⟩

/-- In a table whose unique indexes hold, a row is determined by any of its
    entries. -/
theorem Unique.eq_of_entry {t : Tab} {rows : List (Rec t)} (h : S.Unique t rows) {a b : Rec t}
    (ha : a ∈ rows) (hb : b ∈ rows) {k : Key} (hka : k ∈ S.entries t a) (hkb : k ∈ S.entries t b) :
    a = b := by
  by_contra hne
  exact List.Pairwise.forall h ha hb hne k hka hkb

theorem Unique.eq_of_key {t : Tab} {rows : List (Rec t)} (h : S.Unique t rows) {a b : Rec t}
    (ha : a ∈ rows) (hb : b ∈ rows) (hk : S.key t a = S.key t b) : a = b :=
  h.eq_of_entry ha hb (k := S.key t a) (by simp [entries]) (by simp [entries, hk])

/-- A condition that goes by an index entry finds the row with that entry. -/
theorem Unique.find?_eq_some {t : Tab} {rows : List (Rec t)} (h : S.Unique t rows)
    {p : Rec t → Bool} {r : Rec t} (hr : r ∈ rows) (hp : p r = true) {k : Key}
    (hk : ∀ r', p r' = true → k ∈ S.entries t r') : rows.find? p = some r := by
  obtain ⟨r', hr'⟩ := Option.isSome_iff_exists.mp (List.find?_isSome.mpr ⟨r, hr, hp⟩)
  rw [hr', h.eq_of_entry (List.mem_of_find?_eq_some hr') hr (hk r' (List.find?_some hr')) (hk r hp)]

/-- It finds no other row. -/
theorem Unique.filter_eq_singleton {t : Tab} {rows : List (Rec t)} (h : S.Unique t rows)
    {p : Rec t → Bool} {r : Rec t} (hr : r ∈ rows) (hp : p r = true) {k : Key}
    (hk : ∀ r', p r' = true → k ∈ S.entries t r') : rows.filter p = [r] := by
  have hmem : r ∈ rows.filter p := List.mem_filter.mpr ⟨hr, hp⟩
  have hfound : ∀ r' ∈ rows.filter p, k ∈ S.entries t r' := fun r' hr' =>
    hk r' (List.mem_filter.mp hr').2
  have hpairwise := List.Pairwise.filter p h
  match hrows : rows.filter p with
  | [] => simp [hrows] at hmem
  | [r'] =>
    rw [hrows, List.mem_singleton] at hmem
    rw [hmem]
  | a :: b :: rest =>
    rw [hrows] at hpairwise hfound
    exact absurd (hfound b (by simp))
      (List.rel_of_pairwise_cons hpairwise (by simp) k (hfound a (by simp)))

/-- Changing rows without their entries keeps the indexes. -/
theorem Unique.map {t : Tab} {rows : List (Rec t)} (h : S.Unique t rows) {f : Rec t → Rec t}
    (hf : ∀ r ∈ rows, S.entries t (f r) = S.entries t r) : S.Unique t (rows.map f) := by
  refine List.pairwise_map.mpr (h.imp_of_mem fun {a b} ha hb hab k hka hkb => ?_)
  rw [hf a ha] at hka
  rw [hf b hb] at hkb
  exact hab k hka hkb

/-- A row without an entry that is taken can be added. -/
theorem Unique.append {t : Tab} {rows : List (Rec t)} (h : S.Unique t rows) {r : Rec t}
    (hfresh : ∀ r' ∈ rows, S.Compatible t r' r) : S.Unique t (rows ++ [r]) :=
  List.pairwise_append.mpr ⟨h, List.pairwise_singleton .., fun a ha b hb => by
    rw [List.mem_singleton.mp hb]
    exact hfresh a ha⟩

/-- What a row needs is still there in larger tables. -/
theorem RefsPresent.mono {db db' : Tables Rec} {t : Tab} {r : Rec t} (h : S.RefsPresent db t r)
    (hsub : ∀ x ∈ S.refs t r, db x.1 ⊆ db' x.1) : S.RefsPresent db' t r := by
  intro x hx
  obtain ⟨r', hr', hk⟩ := h x hx
  exact ⟨r', hsub x hx hr', hk⟩

end Schema

/-- Tables whose unique indexes hold. -/
structure Store (S : Schema Rec Key) where
  tables : Tables Rec
  unique : ∀ t, S.Unique t (tables t)

namespace Store

variable {S : Schema Rec Key} [DecidableEq Tab]

def empty (S : Schema Rec Key) : Store S := ⟨fun _ => [], fun _ => List.Pairwise.nil⟩

/-- Replace the contents of one table. -/
def set (s : Store S) (t : Tab) (rows : List (Rec t)) (h : S.Unique t rows) : Store S where
  tables := Function.update s.tables t rows
  unique t' := by
    by_cases ht : t' = t
    · subst ht
      simpa using h
    · simpa [Function.update_of_ne ht] using s.unique t'

@[simp] theorem set_tables (s : Store S) (t : Tab) (rows : List (Rec t)) (h : S.Unique t rows) :
    (s.set t rows h).tables = Function.update s.tables t rows := rfl

/-- Replace the contents of one table, or fail when a unique index forbids it. -/
def replace [DecidableEq Key] (s : Store S) (t : Tab) (rows : List (Rec t)) :
    Except SqlError (Store S) :=
  if h : S.Unique t rows then .ok (s.set t rows h) else .error .uniqueViolation

theorem replace_of_unique [DecidableEq Key] {s : Store S} {t : Tab} {rows : List (Rec t)}
    (h : S.Unique t rows) : s.replace t rows = .ok (s.set t rows h) := dif_pos h

theorem replace_eq_ok [DecidableEq Key] {s s' : Store S} {t : Tab} {rows : List (Rec t)} :
    s.replace t rows = .ok s' → s'.tables = Function.update s.tables t rows := by
  intro h
  unfold replace at h
  split at h
  · cases h
    rfl
  · cases h

end Store

-- ════════════════════════════════════════════════════════════════════════
-- Statements
-- ════════════════════════════════════════════════════════════════════════

/-- SQL statements. Conditions see the database as of the start of the
    statement, next to the row they are about. -/
inductive Stmt (Rec : Tab → Type) where
  /-- `SELECT`: everything the statement sees. -/
  | select
  /-- `SELECT … FOR …`: the rows locked. -/
  | lock (t : Tab) (m : LockMode) (p : Tables Rec → Rec t → Bool)
  /-- `UPDATE … RETURNING`: the rows changed, as they are afterwards. -/
  | update (t : Tab) (p : Tables Rec → Rec t → Bool) (f : Rec t → Rec t)
  | insert (t : Tab) (r : Rec t)
  /-- `INSERT … ON CONFLICT` on the primary key `DO UPDATE`: the row as it is
      afterwards. -/
  | upsert (t : Tab) (r : Rec t) (f : Rec t → Rec t)
  /-- `DELETE … RETURNING`: the rows deleted. -/
  | delete (t : Tab) (p : Tables Rec → Rec t → Bool)

namespace Stmt

/-- What a statement answers. -/
abbrev Answer : Stmt Rec → Type
  | .select => Tables Rec
  | .lock t _ _ => List (Rec t)
  | .update t _ _ => List (Rec t)
  | .insert _ _ => Unit
  | .upsert t _ _ => Rec t
  | .delete t _ => List (Rec t)

/-- The rows of a table after an update. -/
def updated (t : Tab) (p : Tables Rec → Rec t → Bool) (f : Rec t → Rec t) (db : Tables Rec) :
    List (Rec t) :=
  (db t).map fun r => if p db r then f r else r

/-- The table that a statement writes. -/
def target : Stmt Rec → Option Tab
  | .select | .lock _ _ _ => none
  | .update t _ _ | .insert t _ | .upsert t _ _ | .delete t _ => some t

/-- A statement run against a store that nobody else uses. -/
def exec [DecidableEq Tab] [DecidableEq Key] {S : Schema Rec Key} :
    (e : Stmt Rec) → Store S → Except SqlError (e.Answer × Store S)
  | .select, s => .ok (s.tables, s)
  | .lock t _ p, s => .ok ((s.tables t).filter (p s.tables), s)
  | .update t p f, s => do
    let s' ← s.replace t (updated t p f s.tables)
    return (((s.tables t).filter (p s.tables)).map f, s')
  | .insert t r, s => do
    let s' ← s.replace t (s.tables t ++ [r])
    if S.RefsPresent s'.tables t r then return ((), s') else throw .foreignKeyViolation
  | .upsert t r f, s => do
    match (s.tables t).find? fun r' => S.key t r' = S.key t r with
    | some old =>
      let s' ← s.replace t (updated t (fun _ r' => S.key t r' = S.key t r) f s.tables)
      return (f old, s')
    | none =>
      let s' ← s.replace t (s.tables t ++ [r])
      if S.RefsPresent s'.tables t r then return (r, s') else throw .foreignKeyViolation
  | .delete t p, s => do
    let s' ← s.replace t ((s.tables t).filter fun r => !p s.tables r)
    return ((s.tables t).filter (p s.tables), s')

/-- How a statement changes the tables. -/
inductive Effect (S : Schema Rec Key) [DecidableEq Tab] (e : Stmt Rec) (db : Tables Rec) :
    Tables Rec → Prop
  | none : Effect S e db db
  | update (t p f) (he : e = .update t p f) :
      Effect S e db (Function.update db t (updated t p f db))
  | insert (t r) (he : e = .insert t r ∨ ∃ f, e = .upsert t r f) :
      Effect S e db (Function.update db t (db t ++ [r]))
  | upsert (t r f) (he : e = .upsert t r f) [DecidableEq Key] :
      Effect S e db
        (Function.update db t (updated t (fun _ r' => decide (S.key t r' = S.key t r)) f db))
  | delete (t p) (he : e = .delete t p) :
      Effect S e db (Function.update db t ((db t).filter fun r => !p db r))

/-- The other tables stay as they are. -/
theorem Effect.frame [DecidableEq Tab] {S : Schema Rec Key} {e : Stmt Rec} {db db' : Tables Rec}
    (h : Effect S e db db') {t : Tab} (ht : e.target ≠ some t) : db' t = db t := by
  cases h with
  | none => rfl
  | update t' p f he =>
    subst he
    exact Function.update_of_ne (fun h => ht (congrArg some h.symm)) ..
  | insert t' r he =>
    rcases he with rfl | ⟨f, rfl⟩
    · exact Function.update_of_ne (fun h => ht (congrArg some h.symm)) ..
    · exact Function.update_of_ne (fun h => ht (congrArg some h.symm)) ..
  | upsert t' r f he =>
    subst he
    exact Function.update_of_ne (fun h => ht (congrArg some h.symm)) ..
  | delete t' p he =>
    subst he
    exact Function.update_of_ne (fun h => ht (congrArg some h.symm)) ..

theorem effect_of_exec [DecidableEq Tab] [DecidableEq Key] {S : Schema Rec Key} {e : Stmt Rec}
    {s s' : Store S} {a : e.Answer} (h : e.exec s = .ok (a, s')) :
    Effect S e s.tables s'.tables := by
  cases e with
  | select =>
    cases h
    exact .none
  | lock t m p =>
    cases h
    exact .none
  | update t p f =>
    simp only [exec, bind, Except.bind] at h
    split at h
    · cases h
    · rename_i s₁ hs
      cases h
      rw [Store.replace_eq_ok hs]
      exact .update t p f rfl
  | insert t r =>
    simp only [exec, bind, Except.bind] at h
    split at h
    · cases h
    · rename_i s₁ hs
      split at h
      · cases h
        rw [Store.replace_eq_ok hs]
        exact .insert t r (.inl rfl)
      · cases h
  | upsert t r f =>
    simp only [exec, bind, Except.bind] at h
    split at h
    · split at h
      · cases h
      · rename_i s₁ hs
        cases h
        rw [Store.replace_eq_ok hs]
        exact .upsert t r f rfl
    · split at h
      · cases h
      · rename_i s₁ hs
        split at h
        · cases h
          rw [Store.replace_eq_ok hs]
          exact .insert t r (.inr ⟨f, rfl⟩)
        · cases h
  | delete t p =>
    simp only [exec, bind, Except.bind] at h
    split at h
    · cases h
    · rename_i s₁ hs
      cases h
      rw [Store.replace_eq_ok hs]
      exact .delete t p rfl

end Stmt

-- ════════════════════════════════════════════════════════════════════════
-- How rows change over time
-- ════════════════════════════════════════════════════════════════════════

/-- What may become of a row (`step`) of the tables that never lose one
    (`durable`). -/
structure Evolution (Rec : Tab → Type) where
  step : (t : Tab) → Rec t → Rec t → Prop
  refl : ∀ t r, step t r r
  trans : ∀ t a b c, step t a b → step t b c → step t a c
  durable : Tab → Prop

/-- The statement changes rows of durable tables only along the evolution and adds
    only rows of `ins` to them. -/
def Stmt.Respects (S : Schema Rec Key) (V : Evolution Rec) (ins : Tables Rec) : Stmt Rec → Prop
  | .select => True
  | .lock _ _ _ => True
  | .update t p f => V.durable t → ∀ db r, p db r = true → V.step t r (f r)
  | .insert t r => V.durable t → r ∈ ins t
  | .upsert t r f => V.durable t → r ∈ ins t ∧ ∀ old, S.key t old = S.key t r → V.step t old (f old)
  | .delete t _ => ¬ V.durable t

/-- The durable tables after are those before with rows evolved and rows of `ins`
    added. -/
structure Grows (V : Evolution Rec) (ins db db' : Tables Rec) : Prop where
  kept : ∀ t, V.durable t → ∀ r ∈ db t, ∃ r' ∈ db' t, V.step t r r'
  origin : ∀ t, V.durable t → ∀ r' ∈ db' t,
    (∃ r ∈ db t, V.step t r r') ∨ ∃ r ∈ ins t, V.step t r r'

namespace Grows

variable {V : Evolution Rec} {ins db db' db'' : Tables Rec}

theorem refl (ins db : Tables Rec) : Grows V ins db db :=
  ⟨fun t _ r hr => ⟨r, hr, V.refl t r⟩, fun t _ r hr => .inl ⟨r, hr, V.refl t r⟩⟩

theorem trans (h : Grows V ins db db') (h' : Grows V ins db' db'') : Grows V ins db db'' := by
  constructor
  · intro t ht r hr
    obtain ⟨r', hr', hs⟩ := h.kept t ht r hr
    obtain ⟨r'', hr'', hs'⟩ := h'.kept t ht r' hr'
    exact ⟨r'', hr'', V.trans t _ _ _ hs hs'⟩
  · intro t ht r'' hr''
    rcases h'.origin t ht r'' hr'' with ⟨r', hr', hs'⟩ | hins
    · rcases h.origin t ht r' hr' with ⟨r, hr, hs⟩ | ⟨r, hr, hs⟩
      · exact .inl ⟨r, hr, V.trans t _ _ _ hs hs'⟩
      · exact .inr ⟨r, hr, V.trans t _ _ _ hs hs'⟩
    · exact .inr hins

/-- Only one table changes. -/
private theorem of_table [DecidableEq Tab] {t : Tab} {rows : List (Rec t)}
    (hkept : V.durable t → ∀ r ∈ db t, ∃ r' ∈ rows, V.step t r r')
    (horigin : V.durable t → ∀ r' ∈ rows,
      (∃ r ∈ db t, V.step t r r') ∨ ∃ r ∈ ins t, V.step t r r') :
    Grows V ins db (Function.update db t rows) := by
  constructor
  · intro t' ht' r hr
    by_cases h : t' = t
    · subst h
      simpa using hkept ht' r hr
    · rw [Function.update_of_ne h]
      exact ⟨r, hr, V.refl t' r⟩
  · intro t' ht' r' hr'
    by_cases h : t' = t
    · subst h
      exact horigin ht' r' (by simpa using hr')
    · rw [Function.update_of_ne h] at hr'
      exact .inl ⟨r', hr', V.refl t' r'⟩

private theorem of_updated [DecidableEq Tab] {t : Tab} {p : Tables Rec → Rec t → Bool}
    {f : Rec t → Rec t} (h : V.durable t → ∀ r, p db r = true → V.step t r (f r)) :
    Grows V ins db (Function.update db t (Stmt.updated t p f db)) := by
  have hstep : V.durable t → ∀ r, V.step t r (if p db r then f r else r) := by
    intro ht r
    split
    · exact h ht r ‹_›
    · exact V.refl t r
  refine of_table (fun ht r hr => ⟨_, List.mem_map_of_mem hr, hstep ht r⟩) fun ht r' hr' => ?_
  obtain ⟨r, hr, rfl⟩ := List.mem_map.mp hr'
  exact .inl ⟨r, hr, hstep ht r⟩

private theorem of_append [DecidableEq Tab] {t : Tab} {r : Rec t} (h : V.durable t → r ∈ ins t) :
    Grows V ins db (Function.update db t (db t ++ [r])) := by
  refine of_table (fun _ r hr => ⟨r, by simp [hr], V.refl t r⟩) fun ht r' hr' => ?_
  rcases List.mem_append.mp hr' with hr' | hr'
  · exact .inl ⟨r', hr', V.refl t r'⟩
  · rw [List.mem_singleton] at hr'
    subst hr'
    exact .inr ⟨r', h ht, V.refl t r'⟩

theorem of_effect [DecidableEq Tab] {S : Schema Rec Key} {e : Stmt Rec}
    (he : e.Respects S V ins) (h : Stmt.Effect S e db db') : Grows V ins db db' := by
  cases h with
  | none => exact refl ins db
  | update t p f he' =>
    subst he'
    exact of_updated fun ht r hp => he ht db r hp
  | insert t r he' =>
    rcases he' with rfl | ⟨f, rfl⟩
    · exact of_append he
    · exact of_append fun ht => (he ht).1
  | upsert t r f he' =>
    subst he'
    exact of_updated fun ht old hp => (he ht).2 old (by simpa using hp)
  | delete t p he' =>
    subst he'
    refine of_table (fun hd => absurd hd he) fun _ r' hr' => .inl ⟨r', ?_, V.refl t r'⟩
    exact (List.mem_filter.mp hr').1

end Grows

-- ════════════════════════════════════════════════════════════════════════
-- Foreign keys
-- ════════════════════════════════════════════════════════════════════════

/-- The foreign keys of a table hold. -/
def Schema.Refers (S : Schema Rec Key) (t : Tab) (db : Tables Rec) : Prop :=
  ∀ r ∈ db t, S.RefsPresent db t r

instance [DecidableEq Key] (S : Schema Rec Key) (t : Tab) (db : Tables Rec) :
    Decidable (S.Refers t db) :=
  inferInstanceAs (Decidable (∀ r ∈ db t, S.RefsPresent db t r))

/-- The statement keeps the entries that rows of `t` refer to, and what they refer
    to. Inserts are checked. -/
def Stmt.KeepsRefs (S : Schema Rec Key) (t : Tab) : Stmt Rec → Prop
  | .select | .lock _ _ _ | .insert _ _ => True
  | .update t' _ f | .upsert t' _ f => (t' = t → ∀ r, S.refs t' (f r) = S.refs t' r) ∧
      ∀ m r k, (t', k) ∈ S.refs t m → k ∈ S.entries t' r → k ∈ S.entries t' (f r)
  | .delete t' _ => ∀ m k, (t', k) ∉ S.refs t m

theorem Stmt.KeepsRefs.of_target {S : Schema Rec Key} {t : Tab} {e : Stmt Rec}
    (h : e.target = none) : e.KeepsRefs S t := by
  cases e <;> trivial

section refers

variable [DecidableEq Tab] {S : Schema Rec Key} {t : Tab} {db : Tables Rec}

theorem Schema.Refers.updated (h : S.Refers t db) {t' : Tab} {p : Tables Rec → Rec t' → Bool}
    {f : Rec t' → Rec t'} (hrefs : t' = t → ∀ r, S.refs t' (f r) = S.refs t' r)
    (hentries : ∀ m r k, (t', k) ∈ S.refs t m → k ∈ S.entries t' r → k ∈ S.entries t' (f r)) :
    S.Refers t (Function.update db t' (Stmt.updated t' p f db)) := by
  have present : ∀ m, S.RefsPresent db t m →
      S.RefsPresent (Function.update db t' (Stmt.updated t' p f db)) t m := by
    intro m hm x hx
    obtain ⟨r, hr, hk⟩ := hm x hx
    by_cases ht : x.1 = t'
    · obtain ⟨_, k⟩ := x
      subst ht
      refine ⟨if p db r then f r else r, ?_, ?_⟩
      · rw [Function.update_self]
        exact List.mem_map_of_mem hr
      · split
        · exact hentries m r k hx hk
        · exact hk
    · exact ⟨r, by rwa [Function.update_of_ne ht], hk⟩
  intro m hm
  by_cases ht : t = t'
  · subst ht
    rw [Function.update_self] at hm
    obtain ⟨r, hr, rfl⟩ := List.mem_map.mp hm
    have hsame : S.refs t (if p db r then f r else r) = S.refs t r := by
      split
      · exact hrefs rfl r
      · rfl
    intro x hx
    rw [hsame] at hx
    exact present r (h r hr) x hx
  · rw [Function.update_of_ne ht] at hm
    exact present m (h m hm)

theorem Schema.Refers.append (h : S.Refers t db) {t' : Tab} {r : Rec t'}
    (hr : S.RefsPresent (Function.update db t' (db t' ++ [r])) t' r) :
    S.Refers t (Function.update db t' (db t' ++ [r])) := by
  have hsub : ∀ t'', db t'' ⊆ Function.update db t' (db t' ++ [r]) t'' := by
    intro t'' x hx
    by_cases ht : t'' = t'
    · subst ht
      simp [hx]
    · rwa [Function.update_of_ne ht]
  have present : ∀ m, S.RefsPresent db t m →
      S.RefsPresent (Function.update db t' (db t' ++ [r])) t m := by
    intro m hm x hx
    obtain ⟨r', hr', hk⟩ := hm x hx
    exact ⟨r', hsub _ hr', hk⟩
  intro m hm
  by_cases ht : t = t'
  · subst ht
    rw [Function.update_self] at hm
    rcases List.mem_append.mp hm with hm | hm
    · exact present m (h m hm)
    · rw [List.mem_singleton] at hm
      subst hm
      exact hr
  · rw [Function.update_of_ne ht] at hm
    exact present m (h m hm)

theorem Schema.Refers.deleted (h : S.Refers t db) {t' : Tab} {p : Rec t' → Bool}
    (hnot : ∀ m k, (t', k) ∉ S.refs t m) :
    S.Refers t (Function.update db t' ((db t').filter p)) := by
  have present : ∀ m, S.RefsPresent db t m →
      S.RefsPresent (Function.update db t' ((db t').filter p)) t m := by
    intro m hm x hx
    obtain ⟨r', hr', hk⟩ := hm x hx
    have ht : x.1 ≠ t' := fun ht => hnot m x.2 (ht ▸ hx)
    exact ⟨r', by rwa [Function.update_of_ne ht], hk⟩
  intro m hm
  by_cases ht : t = t'
  · subst ht
    rw [Function.update_self] at hm
    exact present m (h m (List.mem_of_mem_filter hm))
  · rw [Function.update_of_ne ht] at hm
    exact present m (h m hm)

theorem Stmt.KeepsRefs.exec [DecidableEq Key] {e : Stmt Rec} (he : e.KeepsRefs S t) {s s' : Store S}
    {a : e.Answer} (h : e.exec s = .ok (a, s')) (hrefers : S.Refers t s.tables) :
    S.Refers t s'.tables := by
  cases e with
  | select | lock =>
    cases h
    exact hrefers
  | update t' p f =>
    simp only [Stmt.exec, bind, Except.bind] at h
    split at h
    · cases h
    · rename_i s₁ hs
      cases h
      rw [Store.replace_eq_ok hs]
      exact hrefers.updated he.1 he.2
  | insert t' r =>
    simp only [Stmt.exec, bind, Except.bind] at h
    split at h
    · cases h
    · rename_i s₁ hs
      split at h
      · rename_i hpresent
        cases h
        rw [Store.replace_eq_ok hs] at hpresent ⊢
        exact hrefers.append hpresent
      · cases h
  | upsert t' r f =>
    simp only [Stmt.exec, bind, Except.bind] at h
    split at h
    · split at h
      · cases h
      · rename_i s₁ hs
        cases h
        rw [Store.replace_eq_ok hs]
        exact hrefers.updated he.1 he.2
    · split at h
      · cases h
      · rename_i s₁ hs
        split at h
        · rename_i hpresent
          cases h
          rw [Store.replace_eq_ok hs] at hpresent ⊢
          exact hrefers.append hpresent
        · cases h
  | delete t' p =>
    simp only [Stmt.exec, bind, Except.bind] at h
    split at h
    · cases h
    · rename_i s₁ hs
      cases h
      rw [Store.replace_eq_ok hs]
      exact hrefers.deleted he

end refers

-- ════════════════════════════════════════════════════════════════════════
-- Transactions
-- ════════════════════════════════════════════════════════════════════════

/-- How a transaction that met no error ends. -/
inductive End (α : Type) where
  | commit (a : α)
  | rollback (a : α)

/-- Statements in sequence; errors roll back. -/
abbrev Stmts (Rec : Tab → Type) (ε : Type) : Type → Type := Prog (Stmt Rec) Stmt.Answer ε

abbrev Tx (Rec : Tab → Type) (ε α : Type) := Stmts Rec ε (End α)

namespace Stmts

variable {ε α β : Type}

variable [DecidableEq Tab] [DecidableEq Key] {S : Schema Rec Key} (lift : SqlError → ε)

/-- Run statements with nothing in between. -/
def run (p : Stmts Rec ε α) (s : Store S) : Except ε (α × Store S) :=
  p.runWith (fun e s => (e.exec s).mapError lift) s

variable {lift}

@[simp] theorem run_ret (a : α) (s : Store S) :
    run lift (Prog.ret a : Stmts Rec ε α) s = .ok (a, s) := rfl

@[simp] theorem run_fail (e : ε) (s : Store S) :
    run lift (Prog.fail e : Stmts Rec ε α) s = .error e := rfl

theorem run_call (e : Stmt Rec) (k : e.Answer → Stmts Rec ε α) (s : Store S) :
    run lift (Prog.call e k : Stmts Rec ε α) s = match e.exec s with
      | .ok (a, s') => run lift (k a) s'
      | .error err => .error (lift err) := by
  simp only [run, Prog.runWith]
  cases e.exec s <;> rfl

/-- A run of two parts that succeeds is a run of each. -/
theorem run_bind_eq_ok {p : Stmts Rec ε α} {f : α → Stmts Rec ε β} {s s' : Store S} {b : β} :
    run lift (p >>= f) s = .ok (b, s') ↔
      ∃ a s₁, run lift p s = .ok (a, s₁) ∧ run lift (f a) s₁ = .ok (b, s') := by
  unfold run
  rw [Prog.runWith_bind]
  cases p.runWith (fun e s => (e.exec s).mapError lift) s with
  | ok x =>
    obtain ⟨a, s₁⟩ := x
    simp [and_assoc]
  | error err => simp

theorem run_perform_eq_ok {e : Stmt Rec} {s s' : Store S} {a : e.Answer} :
    run lift (Prog.perform e : Stmts Rec ε e.Answer) s = .ok (a, s') ↔ e.exec s = .ok (a, s') := by
  rw [Prog.perform, run_call]
  cases e.exec s with
  | ok x =>
    obtain ⟨a', s₁⟩ := x
    simp
  | error err => simp

/-- **Relation rule**: a preorder on tables that every admissible statement
    respects holds between the start and the end of a run of such statements. -/
theorem run_rel {P : Stmt Rec → Prop} (Rel : Tables Rec → Tables Rec → Prop)
    (hrefl : ∀ db, Rel db db) (htrans : ∀ a b c, Rel a b → Rel b c → Rel a c)
    (hstep : ∀ e db db', P e → Stmt.Effect S e db db' → Rel db db')
    {p : Stmts Rec ε α} (hp : p.All P) {s s' : Store S} {a : α}
    (hr : Stmts.run lift p s = .ok (a, s')) : Rel s.tables s'.tables := by
  induction p generalizing s with
  | ret a =>
    cases hr
    exact hrefl _
  | fail e => cases hr
  | call e k ih =>
    rw [run_call] at hr
    split at hr
    · rename_i b s₁ hs
      exact htrans _ _ _ (hstep e _ _ hp.1 (Stmt.effect_of_exec hs)) (ih b (hp.2 b) hr)
    · cases hr

/-- A table that no statement writes stays as it is. -/
theorem run_frame {t : Tab} {p : Stmts Rec ε α} (hp : p.All fun e => e.target ≠ some t)
    {s s' : Store S} {a : α} (hr : Stmts.run lift p s = .ok (a, s')) :
    s'.tables t = s.tables t :=
  run_rel (fun db db' => db' t = db t) (fun _ => rfl) (fun _ _ _ h h' => h'.trans h)
    (fun _ _ _ he h => h.frame he) hp hr

/-- Statements that only read leave the store as it is. -/
theorem run_readonly {p : Stmts Rec ε α} (hp : p.All fun e => e.target = none) {s s' : Store S}
    {a : α} (hr : Stmts.run lift p s = .ok (a, s')) : s' = s := by
  have htables : s'.tables = s.tables := by
    funext t
    exact run_frame (hp.mono fun e he => by simp [he]) hr
  cases s
  cases s'
  cases htables
  rfl

/-- Foreign keys that every statement keeps hold at the end. -/
theorem run_refers {t : Tab} {p : Stmts Rec ε α} (hp : p.All (Stmt.KeepsRefs S t)) {s s' : Store S}
    {a : α} (hr : Stmts.run lift p s = .ok (a, s')) (h : S.Refers t s.tables) :
    S.Refers t s'.tables := by
  induction p generalizing s with
  | ret a =>
    cases hr
    exact h
  | fail e => cases hr
  | call e k ih =>
    rw [run_call] at hr
    split at hr
    · rename_i b s₁ hs
      exact ih b (hp.2 b) hr (hp.1.exec hs h)
    · cases hr

end Stmts

namespace Tx

variable {ε α : Type} [DecidableEq Tab] [DecidableEq Key] {S : Schema Rec Key}

/-- A whole transaction as one step: its changes stay only if it commits. -/
def atomic (lift : SqlError → ε) (p : Tx Rec ε α) (s : Store S) : Except ε α × Store S :=
  match Stmts.run lift p s with
  | .ok (.commit a, s') => (.ok a, s')
  | .ok (.rollback a, _) => (.ok a, s)
  | .error e => (.error e, s)

variable {lift : SqlError → ε} {p : Tx Rec ε α} {s s' : Store S}

/-- A transaction commits its run, or leaves the store as it was. -/
theorem atomic_cases {o : Except ε α} (h : atomic lift p s = (o, s')) :
    (∃ a, o = .ok a ∧ Stmts.run lift p s = .ok (.commit a, s')) ∨
      (∃ a s₁, o = .ok a ∧ Stmts.run lift p s = .ok (.rollback a, s₁) ∧ s' = s) ∨
      (∃ e, o = .error e ∧ s' = s) := by
  unfold atomic at h
  split at h <;> cases h
  · exact .inl ⟨_, rfl, ‹_›⟩
  · exact .inr (.inl ⟨_, _, rfl, ‹_›, rfl⟩)
  · exact .inr (.inr ⟨_, rfl, rfl⟩)

/-- A transaction that answers with an error has no effect. -/
theorem atomic_error {e : ε} (h : atomic lift p s = (.error e, s')) : s' = s := by
  rcases atomic_cases h with ⟨a, ha, -⟩ | ⟨a, s₁, ha, -, -⟩ | ⟨e', -, hs⟩
  · cases ha
  · cases ha
  · exact hs

/-- A transaction that commits what it applies and rolls back the rest. -/
theorem atomic_applied (Applied : α → Prop) (Effect : Store S → Prop)
    (hrun : ∀ b s₁, Stmts.run lift p s = .ok (b, s₁) →
      (∃ a, b = .commit a ∧ Applied a ∧ Effect s₁) ∨ ∃ a, b = .rollback a ∧ ¬ Applied a)
    {o : Except ε α} (h : atomic lift p s = (o, s')) :
    (∃ a, o = .ok a ∧ Applied a ∧ Effect s') ∨ ((∀ a, o = .ok a → ¬ Applied a) ∧ s' = s) := by
  rcases atomic_cases h with ⟨a, rfl, hr⟩ | ⟨a, s₁, rfl, hr, rfl⟩ | ⟨e, rfl, rfl⟩
  · rcases hrun _ _ hr with ⟨a', ha', happlied, heffect⟩ | ⟨a', ha', -⟩
    · cases ha'
      exact .inl ⟨a, rfl, happlied, heffect⟩
    · cases ha'
  · rcases hrun _ _ hr with ⟨a', ha', -, -⟩ | ⟨a', ha', hnot⟩
    · cases ha'
    · cases ha'
      exact .inr ⟨fun a ha => by cases ha; exact hnot, rfl⟩
  · exact .inr ⟨nofun, rfl⟩

theorem atomic_rel {P : Stmt Rec → Prop} (Rel : Tables Rec → Tables Rec → Prop)
    (hrefl : ∀ db, Rel db db) (htrans : ∀ a b c, Rel a b → Rel b c → Rel a c)
    (hstep : ∀ e db db', P e → Stmt.Effect S e db db' → Rel db db')
    (hp : p.All P) {o : Except ε α} (hr : atomic lift p s = (o, s')) : Rel s.tables s'.tables := by
  rcases atomic_cases hr with ⟨a, -, hrun⟩ | ⟨a, s₁, -, -, rfl⟩ | ⟨e, -, rfl⟩
  · exact Stmts.run_rel Rel hrefl htrans hstep hp hrun
  · exact hrefl _
  · exact hrefl _

/-- **Frame rule**: a table that no statement writes stays as it is. -/
theorem atomic_frame {t : Tab} (hp : p.All fun e => e.target ≠ some t) {o : Except ε α}
    (hr : atomic lift p s = (o, s')) : s'.tables t = s.tables t :=
  atomic_rel (fun db db' => db' t = db t) (fun _ => rfl) (fun _ _ _ h h' => h'.trans h)
    (fun _ _ _ he h => h.frame he) hp hr

theorem atomic_refers {t : Tab} (hp : p.All (Stmt.KeepsRefs S t)) {o : Except ε α}
    (hr : atomic lift p s = (o, s')) (h : S.Refers t s.tables) : S.Refers t s'.tables := by
  rcases atomic_cases hr with ⟨a, -, hrun⟩ | ⟨a, s₁, -, -, rfl⟩ | ⟨e, -, rfl⟩
  · exact Stmts.run_refers hp hrun h
  · exact h
  · exact h

/-- A transaction of statements that respect an evolution moves the tables along
    it. -/
theorem atomic_grows {V : Evolution Rec} {ins : Tables Rec}
    (hp : p.All fun e => e.Respects S V ins) {o : Except ε α} (hr : atomic lift p s = (o, s')) :
    Grows V ins s.tables s'.tables :=
  atomic_rel (Grows V ins) (Grows.refl ins) (fun _ _ _ h h' => h.trans h') (fun _ _ _ he h => .of_effect he h)
    hp hr

end Tx

end Concurrency.Sql
