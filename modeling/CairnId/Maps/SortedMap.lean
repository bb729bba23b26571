import Mathlib.Data.List.Pairwise
import Mathlib.Order.Lattice

/-!
# Maps as sorted lists

Finite maps as lists of pairs with increasing keys, so that two maps with the same
entries are one list.

## Main definitions

- `get`, `insert`, `erase`, `ofList` — the operations
- `Sorted` — the keys increase

## Main results

- `Sorted.ext` — a map is known by its entries
- `get_insert`, `get_erase`, `get_filter` — the entries after an operation
-/

namespace SortedMap

variable {κ β γ : Type} [LinearOrder κ]

def get (k : κ) (l : List (κ × β)) : Option β := (l.find? fun m => m.1 = k).map (·.2)

/-- An entry of the key is replaced. -/
def insert (k : κ) (v : β) : List (κ × β) → List (κ × β)
  | [] => [(k, v)]
  | m :: l => if m.1 = k then (k, v) :: l
    else if k < m.1 then (k, v) :: m :: l
    else m :: insert k v l

def erase (k : κ) (l : List (κ × β)) : List (κ × β) := l.filter fun m => m.1 ≠ k

def Sorted (l : List (κ × β)) : Prop := l.Pairwise fun m n => m.1 < n.1

instance [DecidableEq κ] (l : List (κ × β)) : Decidable (Sorted l) :=
  inferInstanceAs (Decidable (l.Pairwise _))

variable {k k' : κ} {v : β} {l l' : List (κ × β)}

@[simp] theorem get_nil : get k ([] : List (κ × β)) = none := rfl

theorem get_cons (m : κ × β) (l : List (κ × β)) :
    get k (m :: l) = if m.1 = k then some m.2 else get k l := by
  unfold get
  by_cases h : m.1 = k
  · simp [h]
  · simp [h]

theorem get_eq_none_iff : get k l = none ↔ ∀ m ∈ l, m.1 ≠ k := by
  simp [get]

theorem mem_of_get (h : get k l = some v) : (k, v) ∈ l := by
  obtain ⟨m, hm, rfl⟩ := Option.map_eq_some_iff.mp h
  have hkey : m.1 = k := by simpa using List.find?_some hm
  exact hkey ▸ List.mem_of_find?_eq_some hm

theorem Sorted.get_of_mem (hl : Sorted l) (h : (k, v) ∈ l) : get k l = some v := by
  induction l with
  | nil => cases h
  | cons m l ih =>
    obtain ⟨hfirst, hrest⟩ := List.pairwise_cons.mp hl
    rw [get_cons]
    rcases List.mem_cons.mp h with rfl | h
    · exact if_pos rfl
    · rw [if_neg (ne_of_lt (hfirst _ h))]
      exact ih hrest h

theorem Sorted.get_eq_some_iff (hl : Sorted l) : get k l = some v ↔ (k, v) ∈ l :=
  ⟨mem_of_get, hl.get_of_mem⟩

/-- Two maps with the same entries are the same list. -/
theorem Sorted.ext (hl : Sorted l) (hl' : Sorted l') (h : ∀ k, get k l = get k l') : l = l' := by
  have hnodup : ∀ {l : List (κ × β)}, Sorted l → l.Nodup := fun hl =>
    List.Pairwise.imp (fun hlt heq => absurd (congrArg Prod.fst heq) (ne_of_lt hlt)) hl
  have hperm : l.Perm l' := by
    refine (List.perm_ext_iff_of_nodup (hnodup hl) (hnodup hl')).mpr fun m => ?_
    rw [← hl.get_eq_some_iff, h, hl'.get_eq_some_iff]
  exact hperm.eq_of_pairwise (fun a b _ _ hab hba => absurd hba (lt_asymm hab)) hl hl'

-- the operations

@[simp] theorem get_insert : get k' (insert k v l) = if k = k' then some v else get k' l := by
  induction l with
  | nil => simp [insert, get_cons]
  | cons m l ih =>
    unfold insert
    by_cases hm : m.1 = k
    · rw [if_pos hm, get_cons, get_cons, hm]
      split <;> rfl
    · rw [if_neg hm]
      by_cases hlt : k < m.1
      · rw [if_pos hlt, get_cons]
      · rw [if_neg hlt, get_cons, ih, get_cons]
        by_cases hk : k = k'
        · rw [if_pos hk, if_pos hk, if_neg (fun h => hm (h.trans hk.symm))]
        · rw [if_neg hk, if_neg hk]

theorem insert_ne_nil (k : κ) (v : β) (l : List (κ × β)) : insert k v l ≠ [] := by
  intro h
  have hget : get k (insert k v l) = some v := by
    rw [get_insert, if_pos rfl]
  rw [h] at hget
  cases hget

theorem mem_insert {m : κ × β} (h : m ∈ insert k v l) : m = (k, v) ∨ m ∈ l := by
  induction l with
  | nil => exact .inl (List.mem_singleton.mp h)
  | cons n l ih =>
    unfold insert at h
    split at h
    · exact (List.mem_cons.mp h).imp id (.tail _)
    · split at h
      · exact List.mem_cons.mp h
      · rcases List.mem_cons.mp h with rfl | h
        · exact .inr (.head _)
        · exact (ih h).imp id (.tail _)

theorem Sorted.insert (hl : Sorted l) : Sorted (insert k v l) := by
  induction l with
  | nil => exact List.pairwise_singleton ..
  | cons m l ih =>
    obtain ⟨hfirst, hrest⟩ := List.pairwise_cons.mp hl
    unfold SortedMap.insert
    by_cases hm : m.1 = k
    · rw [if_pos hm]
      exact .cons (fun n hn => hm ▸ hfirst n hn) hrest
    · rw [if_neg hm]
      by_cases hlt : k < m.1
      · rw [if_pos hlt]
        refine .cons (fun n hn => ?_) hl
        rcases List.mem_cons.mp hn with rfl | hn
        · exact hlt
        · exact lt_trans hlt (hfirst n hn)
      · rw [if_neg hlt]
        refine .cons (fun n hn => ?_) (ih hrest)
        rcases mem_insert hn with rfl | hn
        · exact lt_of_le_of_ne (not_lt.mp hlt) hm
        · exact hfirst n hn

/-- Inserting an entry that is there changes nothing. -/
theorem Sorted.insert_of_get (hl : Sorted l) (h : get k l = some v) : SortedMap.insert k v l = l := by
  refine hl.insert.ext hl fun k' => ?_
  rw [get_insert]
  split
  · rename_i heq
    rw [← heq, h]
  · rfl

theorem get_filter {p : κ → Bool} :
    get k (l.filter fun m => p m.1) = if p k then get k l else none := by
  induction l with
  | nil => simp
  | cons m l ih =>
    rw [List.filter_cons]
    by_cases hk : m.1 = k
    · subst hk
      by_cases hp : p m.1 = true
      · rw [if_pos hp, if_pos hp, get_cons, get_cons, if_pos rfl, if_pos rfl]
      · rw [if_neg hp, ih]
        rw [if_neg hp, if_neg hp]
    · by_cases hp : p m.1 = true
      · rw [if_pos hp, get_cons, get_cons, if_neg hk, if_neg hk, ih]
      · rw [if_neg hp, get_cons, if_neg hk, ih]

theorem Sorted.filter (hl : Sorted l) (p : κ × β → Bool) : Sorted (l.filter p) :=
  List.Pairwise.filter p hl

theorem get_erase : get k' (erase k l) = if k' = k then none else get k' l := by
  unfold erase
  rw [get_filter (p := fun a => decide (a ≠ k))]
  by_cases h : k' = k
  · simp [h]
  · simp [h]

theorem Sorted.erase (hl : Sorted l) : Sorted (erase k l) := hl.filter _

-- maps of a list of entries

/-- The entries are inserted one after another. -/
def ofList (l : List (κ × β)) : List (κ × β) := l.foldl (fun held m => insert m.1 m.2 held) []

theorem get_eq_some_iff_of_nodup (hl : (l.map Prod.fst).Nodup) :
    get k l = some v ↔ (k, v) ∈ l := by
  refine ⟨mem_of_get, fun h => ?_⟩
  induction l with
  | nil => cases h
  | cons m l ih =>
    rw [List.map_cons, List.nodup_cons] at hl
    obtain ⟨hfirst, hrest⟩ := hl
    rw [get_cons]
    rcases List.mem_cons.mp h with rfl | h
    · exact if_pos rfl
    · have hne : ¬m.1 = k := by
        intro hkey
        rw [hkey] at hfirst
        exact hfirst (List.mem_map.mpr ⟨(k, v), h, rfl⟩)
      rw [if_neg hne]
      exact ih hrest h

theorem get_of_perm (hl : (l.map Prod.fst).Nodup) (h : l.Perm l') : get k l = get k l' := by
  have hl' : (l'.map Prod.fst).Nodup := (h.map Prod.fst).nodup_iff.mp hl
  apply Option.ext
  intro v
  rw [get_eq_some_iff_of_nodup hl, get_eq_some_iff_of_nodup hl', h.mem_iff]

theorem sorted_ofList (l : List (κ × β)) : Sorted (ofList l) := by
  have hfold : ∀ held : List (κ × β), Sorted held →
      Sorted (l.foldl (fun held m => SortedMap.insert m.1 m.2 held) held) := by
    induction l with
    | nil => exact fun held hheld => hheld
    | cons m l ih => exact fun held hheld => ih _ hheld.insert
  exact hfold [] .nil

theorem get_ofList (hl : (l.map Prod.fst).Nodup) : get k (ofList l) = get k l := by
  have hfold : ∀ held : List (κ × β),
      get k (l.foldl (fun held m => insert m.1 m.2 held) held) =
        (get k l).or (get k held) := by
    induction l with
    | nil => exact fun held => rfl
    | cons m l ih =>
      intro held
      rw [List.map_cons, List.nodup_cons] at hl
      obtain ⟨hfirst, hrest⟩ := hl
      rw [List.foldl_cons, ih hrest, get_insert, get_cons]
      by_cases hkey : m.1 = k
      · have hnone : get k l = none := by
          rw [get_eq_none_iff]
          intro n hn hnkey
          exact hfirst (hkey.trans hnkey.symm ▸ List.mem_map_of_mem hn)
        rw [if_pos hkey, if_pos hkey, hnone]
        rfl
      · rw [if_neg hkey, if_neg hkey]
  rw [ofList, hfold, get_nil, Option.or_none]

/-- The order in which the entries are written is not kept. -/
theorem ofList_of_perm (hl : (l.map Prod.fst).Nodup) (h : l.Perm l') : ofList l = ofList l' := by
  have hl' : (l'.map Prod.fst).Nodup := (h.map Prod.fst).nodup_iff.mp hl
  apply (sorted_ofList l).ext (sorted_ofList l')
  intro k
  rw [get_ofList hl, get_ofList hl', get_of_perm hl h]

theorem Sorted.nodup_keys (hl : Sorted l) : (l.map Prod.fst).Nodup := by
  rw [List.Nodup, List.pairwise_map]
  exact List.Pairwise.imp (fun hlt => ne_of_lt hlt) hl

theorem Sorted.ofList_eq (hl : Sorted l) : ofList l = l := by
  apply (sorted_ofList l).ext hl
  intro k
  exact get_ofList hl.nodup_keys

end SortedMap
