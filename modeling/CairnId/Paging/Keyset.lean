import Mathlib.Data.List.Sort

/-!
# Keyset pagination

A list is shown page by page, greatest key first: a page holds the first rows below
the key that ended the page before, and its last row is the cursor of the next. To
see whether there is a next page, one row more than the page holds is fetched.

## Main definitions

- `remaining` — the rows that are still to come
- `fetch` — one page
- `Followed` — the pages from one cursor to the end, with the table of each

## Main results

- `followed_remaining`, `Followed.eq_remaining` — over a fixed table the pages are the rows in order
- `Followed.once` — over changing tables a row that is always there is shown once
-/

namespace Keyset

variable {α K : Type} [LinearOrder K] (key : α → K)

/-- The rows below the cursor, greatest key first. -/
def remaining (rows : List α) (after : Option K) : List α :=
  (rows.filter fun r => after.all fun k => key r < k).insertionSort fun a b => key b ≤ key a

structure Page (α K : Type) where
  items : List α
  next : Option K

/-- The page after a cursor. -/
def fetch (limit : ℕ) (rows : List α) (after : Option K) : Page α K :=
  let found := (remaining key rows after).take (limit + 1)
  ⟨found.take limit, if limit < found.length then (found.take limit).getLast?.map key else none⟩

/-- The pages from a cursor to the end, each over its own table, show these items. -/
inductive Followed (limit : ℕ) : List (List α) → Option K → List α → Prop
  | last {rows after} : (fetch key limit rows after).next = none →
      Followed limit [rows] after (fetch key limit rows after).items
  | more {rows after k tables items} : (fetch key limit rows after).next = some k →
      Followed limit tables (some k) items →
      Followed limit (rows :: tables) after ((fetch key limit rows after).items ++ items)

variable {key} {limit : ℕ} {rows : List α} {after : Option K} {r : α}

-- the rows below a cursor

theorem mem_remaining : r ∈ remaining key rows after ↔ r ∈ rows ∧ ∀ k ∈ after, key r < k := by
  rw [remaining, (List.perm_insertionSort _ _).mem_iff, List.mem_filter, Option.all_eq_true]
  simp

theorem pairwise_remaining (hkeys : (rows.map key).Nodup) :
    (remaining key rows after).Pairwise fun a b => key b < key a := by
  have hsorted : (remaining key rows after).Pairwise fun a b => key b ≤ key a :=
    List.pairwise_insertionSort _ _
  have hnodup : (remaining key rows after).Pairwise fun a b => key a ≠ key b := by
    have hfilter : ((rows.filter fun r => after.all fun k => key r < k).map key).Nodup :=
      hkeys.sublist (List.filter_sublist.map key)
    exact List.pairwise_map.mp (((List.perm_insertionSort _ _).map key).nodup_iff.mpr hfilter)
  exact (hsorted.and hnodup).imp fun h => lt_of_le_of_ne h.1 h.2.symm

theorem nodup_remaining (hkeys : (rows.map key).Nodup) : (remaining key rows after).Nodup :=
  (pairwise_remaining hkeys).imp fun h => by
    rintro rfl
    exact lt_irrefl _ h

/-- What comes after the first rows is what is below the last of them. -/
theorem remaining_next (hkeys : (rows.map key).Nodup) {n : ℕ} {last : α}
    (hlast : ((remaining key rows after).take n).getLast? = some last) :
    remaining key rows (some (key last)) = (remaining key rows after).drop n := by
  have hsorted : (remaining key rows after).Pairwise fun a b => key b < key a :=
    pairwise_remaining hkeys
  have hsplit := List.take_append_drop n (remaining key rows after)
  rw [← hsplit, List.pairwise_append] at hsorted
  have hmem : last ∈ (remaining key rows after).take n := List.mem_of_getLast? hlast
  have hbefore : ∀ a ∈ (remaining key rows after).take n, key last ≤ key a := by
    obtain ⟨front, hfront⟩ := List.getLast?_eq_some_iff.mp hlast
    intro a ha
    rw [hfront] at ha hsorted
    rcases List.mem_append.mp ha with ha | ha
    · exact ((List.pairwise_append.mp hsorted.1).2.2 a ha last (.head _)).le
    · rw [List.mem_singleton.mp ha]
  refine List.Perm.eq_of_pairwise (fun a b _ _ h h' => absurd h h'.asymm) (pairwise_remaining hkeys)
    hsorted.2.1 ((List.perm_ext_iff_of_nodup (nodup_remaining hkeys)
      ((nodup_remaining hkeys).sublist (List.drop_sublist n _))).mpr fun a => ?_)
  rw [mem_remaining]
  constructor
  · rintro ⟨ha, hlt⟩
    have hlt : key a < key last := hlt _ rfl
    have hbelow : a ∈ remaining key rows after := mem_remaining.mpr ⟨ha, fun k hk =>
      hlt.trans ((mem_remaining.mp (List.mem_of_mem_take hmem)).2 k hk)⟩
    rw [← hsplit, List.mem_append] at hbelow
    exact hbelow.resolve_left fun htake => absurd hlt (hbefore a htake).not_gt
  · intro ha
    refine ⟨(mem_remaining.mp (List.mem_of_mem_drop ha)).1, ?_⟩
    rintro k ⟨⟩
    exact hsorted.2.2 last hmem a ha

-- one page

theorem fetch_items : (fetch key limit rows after).items = (remaining key rows after).take limit := by
  simp [fetch, List.take_take]

/-- Without a next cursor the page shows everything that was left. -/
theorem fetch_items_of_none (hlimit : 0 < limit) (h : (fetch key limit rows after).next = none) :
    (fetch key limit rows after).items = remaining key rows after := by
  rw [fetch_items]
  refine List.take_of_length_le ?_
  by_contra hlong
  have hmore : limit < ((remaining key rows after).take (limit + 1)).length := by
    rw [List.length_take]
    omega
  simp only [fetch, if_pos hmore, Option.map_eq_none_iff, List.getLast?_eq_none_iff,
    List.take_eq_nil_iff] at h
  rcases h with h | h | h
  · omega
  · omega
  · simp [h] at hmore

/-- The next cursor is the key of the last row of the page, and what is below it is what
    the page leaves. -/
theorem remaining_of_next (hkeys : (rows.map key).Nodup) {k : K}
    (h : (fetch key limit rows after).next = some k) :
    limit < (remaining key rows after).length ∧
      (∃ last ∈ (fetch key limit rows after).items, key last = k) ∧
        remaining key rows (some k) = (remaining key rows after).drop limit := by
  rw [fetch_items]
  simp only [fetch] at h
  split at h
  · rename_i hmore
    rw [List.length_take] at hmore
    rw [List.take_take, Nat.min_eq_left (Nat.le_succ limit)] at h
    obtain ⟨last, hlast, rfl⟩ := Option.map_eq_some_iff.mp h
    exact ⟨by omega, ⟨last, List.mem_of_getLast? hlast, rfl⟩, remaining_next hkeys hlast⟩
  · cases h

theorem exists_next_of_lt (hlimit : 0 < limit) (h : limit < (remaining key rows after).length) :
    ∃ k, (fetch key limit rows after).next = some k := by
  refine Option.ne_none_iff_exists'.mp fun hnone => ?_
  have := congrArg List.length (fetch_items_of_none hlimit hnone)
  rw [fetch_items, List.length_take] at this
  omega

-- over a fixed table

/-- **Termination**: over a fixed table the pages come to an end, and have shown all. -/
theorem followed_remaining (hkeys : (rows.map key).Nodup) (hlimit : 0 < limit) (after : Option K) :
    ∃ n, Followed key limit (List.replicate n rows) after (remaining key rows after) := by
  induction hlen : (remaining key rows after).length using Nat.strong_induction_on
    generalizing after with
  | _ m ih =>
  cases hnext : (fetch key limit rows after).next with
  | none =>
    refine ⟨1, ?_⟩
    rw [← fetch_items_of_none hlimit hnext]
    exact .last hnext
  | some k =>
    obtain ⟨hlt, -, hbelow⟩ := remaining_of_next hkeys hnext
    obtain ⟨n, hn⟩ := ih _ (by rw [hbelow, List.length_drop]; omega) (some k) rfl
    refine ⟨n + 1, ?_⟩
    have := Followed.more hnext hn
    rwa [fetch_items, hbelow, List.take_append_drop] at this

/-- Over a fixed table nothing but all the rows in order can have been shown. -/
theorem Followed.eq_remaining (hkeys : (rows.map key).Nodup) (hlimit : 0 < limit)
    {tables : List (List α)} {items : List α} (h : Followed key limit tables after items)
    (hfixed : ∀ table ∈ tables, table = rows) : items = remaining key rows after := by
  induction h with
  | @last table after hnext =>
    obtain rfl := hfixed table (.head _)
    exact fetch_items_of_none hlimit hnext
  | @more table after k tables items hnext _ ih =>
    obtain rfl := hfixed table (.head _)
    obtain ⟨-, -, hbelow⟩ := remaining_of_next hkeys hnext
    rw [ih fun t ht => hfixed t (.tail _ ht), fetch_items, hbelow, List.take_append_drop]

-- over changing tables

/-- A key is that of one row, among rows with different keys. -/
theorem countP_key {l : List α} (hl : l.Pairwise fun a b => key b < key a) (hr : r ∈ l) :
    l.countP (fun a => key a = key r) = 1 := by
  obtain ⟨front, back, rfl⟩ := List.append_of_mem hr
  obtain ⟨-, hback, hfront⟩ := List.pairwise_append.mp hl
  have hback := (List.pairwise_cons.mp hback).1
  rw [List.countP_append, List.countP_cons_of_pos (by simp),
    List.countP_eq_zero.mpr fun a ha => by simpa using (hfront a ha r (.head _)).ne',
    List.countP_eq_zero.mpr fun a ha => by simpa using (hback a ha).ne]

theorem countP_key_eq_zero {l : List α} {k : K} (hl : ∀ a ∈ l, key a ≠ k) :
    l.countP (fun a => key a = k) = 0 :=
  List.countP_eq_zero.mpr fun a ha => by simpa using hl a ha

/-- **Exactly once**: a row that is in every table, whatever else of it changes, is shown
    once if it is below the first cursor, and not at all otherwise. -/
theorem Followed.once (hlimit : 0 < limit) {tables : List (List α)} {items : List α} {k : K}
    (h : Followed key limit tables after items)
    (htables : ∀ table ∈ tables, (table.map key).Nodup ∧ ∃ r ∈ table, key r = k) :
    items.countP (fun a => key a = k) = if ∀ c ∈ after, k < c then 1 else 0 := by
  induction h with
  | @last table after hnext =>
    obtain ⟨hkeys, r, hr, rfl⟩ := htables table (.head _)
    rw [fetch_items_of_none hlimit hnext]
    split
    · exact countP_key (pairwise_remaining hkeys) (mem_remaining.mpr ⟨hr, ‹_›⟩)
    · rename_i hnot
      refine countP_key_eq_zero fun a ha heq => hnot fun c hc => ?_
      exact heq ▸ (mem_remaining.mp ha).2 c hc
  | @more table after c tables items hnext _ ih =>
    obtain ⟨hkeys, r, hr, rfl⟩ := htables table (.head _)
    obtain ⟨-, ⟨last, hlast, rfl⟩, hbelow⟩ := remaining_of_next hkeys hnext
    rw [List.countP_append, ih fun t ht => htables t (.tail _ ht)]
    rw [fetch_items] at hlast ⊢
    have hsorted : (remaining key table after).Pairwise fun a b => key b < key a :=
      pairwise_remaining hkeys
    rw [← List.take_append_drop limit (remaining key table after), List.pairwise_append] at hsorted
    by_cases hlater : key r < key last
    · -- still to come: it is below the cursor, and so is not on this page
      have hafter : ∀ c ∈ after, key r < c := fun c hc =>
        hlater.trans ((mem_remaining.mp (List.mem_of_mem_take hlast)).2 c hc)
      have hrest : r ∈ (remaining key table after).drop limit :=
        hbelow ▸ mem_remaining.mpr ⟨hr, by rintro k ⟨⟩; exact hlater⟩
      rw [if_pos (by rintro k ⟨⟩; exact hlater), if_pos hafter,
        countP_key_eq_zero fun a ha => (hsorted.2.2 a ha r hrest).ne', Nat.zero_add]
    · rw [if_neg fun hall => hlater (hall _ rfl), Nat.add_zero]
      split
      · rename_i hafter
        refine countP_key hsorted.1 ?_
        have hmem : r ∈ remaining key table after := mem_remaining.mpr ⟨hr, hafter⟩
        rw [← List.take_append_drop limit (remaining key table after), List.mem_append,
          ← hbelow] at hmem
        exact hmem.resolve_right fun hrest => hlater ((mem_remaining.mp hrest).2 _ rfl)
      · rename_i hnot
        refine countP_key_eq_zero fun a ha heq => hnot fun c hc => ?_
        exact heq ▸ (mem_remaining.mp (List.mem_of_mem_take ha)).2 c hc

end Keyset
