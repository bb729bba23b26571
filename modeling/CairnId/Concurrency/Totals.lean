import Mathlib.Algebra.BigOperators.Group.Finset.Basic
import Mathlib.Algebra.Order.BigOperators.Group.Finset
import CairnId.Concurrency.Pool

/-!
# Totals over the threads of a pool

A quantity that depends on what a thread has done and has still to do, summed over the
threads. One step changes one summand.

## Main results

- `total_run` — the total after a call
- `total_spawn` — the total after a start
-/

namespace Concurrency

variable {E : Type} {R : E → Type} {Q W C ε α : Type}

/-- The call that a program makes next. -/
def Prog.next : Prog E R ε α → Option E
  | .call e _ => some e
  | _ => none

/-- The call that thread `i` makes next. -/
def Pool.next (p : Pool R Q W ε α) (i : ℕ) : Option E := p.threads[i]?.bind fun t => t.rest.next

/-- What thread `i` contributes to a total. -/
def Pool.share (f : List (Event R) → Thread R Q ε α → ℕ) (p : Pool R Q W ε α) (i : ℕ) : ℕ :=
  match p.threads[i]? with
  | some t => f (own i p.trace) t
  | none => 0

def Pool.total (f : List (Event R) → Thread R Q ε α → ℕ) (p : Pool R Q W ε α) : ℕ :=
  ∑ i ∈ Finset.range p.threads.length, p.share f i

variable {f g : List (Event R) → Thread R Q ε α → ℕ} {M : Machine E R Q W C ε α} {w : W}
  {p : Pool R Q W ε α}

theorem next_of_thread {i : ℕ} {q : Q} {e : E} {k : R e → Prog E R ε α}
    (ht : p.threads[i]? = some ⟨q, .call e k⟩) : p.next i = some e := by
  rw [Pool.next, ht]
  rfl

theorem share_of_thread {i : ℕ} {t : Thread R Q ε α} (ht : p.threads[i]? = some t) :
    p.share f i = f (own i p.trace) t := by
  rw [Pool.share, ht]

theorem exists_thread {i : ℕ} (hi : i ∈ Finset.range p.threads.length) :
    ∃ t, p.threads[i]? = some t :=
  ⟨_, List.getElem?_eq_getElem (Finset.mem_range.mp hi)⟩

theorem total_le (h : ∀ i t, p.threads[i]? = some t → f (own i p.trace) t ≤ g (own i p.trace) t) :
    p.total f ≤ p.total g := by
  refine Finset.sum_le_sum fun i hi => ?_
  obtain ⟨t, ht⟩ := exists_thread hi
  rw [share_of_thread ht, share_of_thread ht]
  exact h i _ ht

theorem total_eq_zero (h : ∀ i t, p.threads[i]? = some t → f (own i p.trace) t = 0) :
    p.total f = 0 := by
  refine Finset.sum_eq_zero fun i hi => ?_
  obtain ⟨t, ht⟩ := exists_thread hi
  rw [share_of_thread ht]
  exact h i _ ht

theorem total_add : (p.total fun h t => f h t + g h t) = p.total f + p.total g := by
  rw [Pool.total, Pool.total, Pool.total, ← Finset.sum_add_distrib]
  refine Finset.sum_congr rfl fun i hi => ?_
  obtain ⟨t, ht⟩ := exists_thread hi
  rw [share_of_thread ht, share_of_thread ht, share_of_thread ht]

/-- A thread contributes no more than all threads. -/
theorem le_total {i : ℕ} {t : Thread R Q ε α} (ht : p.threads[i]? = some t) :
    f (own i p.trace) t ≤ p.total f := by
  have hi : i ∈ Finset.range p.threads.length :=
    Finset.mem_range.mpr (List.getElem?_eq_some_iff.mp ht).1
  have hle := Finset.single_le_sum (f := fun i => p.share f i) (fun _ _ => Nat.zero_le _) hi
  rwa [share_of_thread ht] at hle

/-- A call changes what its thread contributes. -/
theorem total_run {i : ℕ} {q : Q} {e : E} {k : R e → Prog E R ε α} {r : R e} {w' : W}
    (ht : p.threads[i]? = some ⟨q, .call e k⟩) :
    Pool.total f ⟨w', p.threads.set i ⟨q, k r⟩, ⟨i, ⟨e, r⟩, p.world⟩ :: p.trace⟩ +
        f (own i p.trace) ⟨q, .call e k⟩ =
      p.total f + f (⟨e, r⟩ :: own i p.trace) ⟨q, k r⟩ := by
  have hlt := (List.getElem?_eq_some_iff.mp ht).1
  have hi : i ∈ Finset.range p.threads.length := Finset.mem_range.mpr hlt
  let p' : Pool R Q W ε α := ⟨w', p.threads.set i ⟨q, k r⟩, ⟨i, ⟨e, r⟩, p.world⟩ :: p.trace⟩
  have hlength : p'.threads.length = p.threads.length := List.length_set
  have hself : p'.share f i = f (⟨e, r⟩ :: own i p.trace) ⟨q, k r⟩ := by
    have ht' : p'.threads[i]? = some ⟨q, k r⟩ := List.getElem?_set_self hlt
    rw [share_of_thread ht']
    exact congrArg (f · _) own_cons_self
  have hother : ∀ j ∈ (Finset.range p.threads.length).erase i, p'.share f j = p.share f j := by
    intro j hj
    have hij : i ≠ j := (Finset.ne_of_mem_erase hj).symm
    have hget : p'.threads[j]? = p.threads[j]? := List.getElem?_set_ne hij
    have hown : own j p'.trace = own j p.trace := own_cons_of_ne hij
    rw [Pool.share, Pool.share, hget, hown]
  have hafter : p'.total f = p'.share f i + ∑ j ∈ (Finset.range p.threads.length).erase i,
      p.share f j := by
    rw [Pool.total, hlength, ← Finset.add_sum_erase _ _ hi, Finset.sum_congr rfl hother]
  have hbefore : p.total f = p.share f i + ∑ j ∈ (Finset.range p.threads.length).erase i,
      p.share f j := (Finset.add_sum_erase _ _ hi).symm
  rw [hself] at hafter
  rw [share_of_thread ht] at hbefore
  change p'.total f + _ = _
  omega

/-- A thread that starts contributes what it does with nothing done. -/
theorem total_spawn (h : M.Reachable w p) (q : Q) :
    Pool.total f { p with threads := p.threads ++ [⟨q, M.handler q⟩] } =
      p.total f + f [] ⟨q, M.handler q⟩ := by
  let p' : Pool R Q W ε α := { p with threads := p.threads ++ [⟨q, M.handler q⟩] }
  have hlength : p'.threads.length = p.threads.length + 1 := List.length_append
  have hold : ∀ j ∈ Finset.range p.threads.length, p'.share f j = p.share f j := by
    intro j hj
    have hget : p'.threads[j]? = p.threads[j]? :=
      List.getElem?_append_left (Finset.mem_range.mp hj)
    rw [Pool.share, Pool.share, hget]
  have hnew : p'.share f p.threads.length = f [] ⟨q, M.handler q⟩ := by
    have ht : p'.threads[p.threads.length]? = some ⟨q, M.handler q⟩ := List.getElem?_concat_length
    rw [share_of_thread ht]
    exact congrArg (f · _) (Machine.own_eq_nil_of_le h le_rfl)
  change p'.total f = _
  rw [Pool.total, hlength, Finset.sum_range_succ, Finset.sum_congr rfl hold, hnew, Pool.total]

end Concurrency
