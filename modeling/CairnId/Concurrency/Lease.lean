import Mathlib.Data.List.Nodup
import Mathlib.Data.List.Pairwise
import Mathlib.Data.List.Perm.Subperm
import Mathlib.Logic.Relation

/-!
# Leases of an item of work

The books kept about one item of a work queue. Workers lease the item under
rising numbers; a worker completes it, or gives it back for another try. A lease
may be granted again while another is out, and a worker may never hear of the
lease it was granted.

## Main definitions

- `Ledger` — the books about one item
- `Ledger.Step` — what can happen to it
- `Ledger.Reaches` — the books that can come about

## Main results

- `Ledger.Reaches.completed_le` — completions need leases granted again
- `Ledger.Reaches.leases_le` — leases are bounded by the numbers that are given back
- `Ledger.Reaches.returned_of_tail` — without such leases one worker holds the item
-/

namespace Concurrency.Lease

inductive Phase where
  | waiting
  | leased
  | closed
  deriving DecidableEq

@[ext] structure Ledger (ι : Type) where
  phase : Phase
  /-- The number of leases granted, and the number of the latest. -/
  issued : ℕ
  /-- Who heard of a lease, and its number, the latest first. -/
  leases : List (ι × ℕ)
  /-- How many leases somebody heard of were granted while another was out. -/
  reclaims : ℕ
  completed : List ι
  returned : List ι

namespace Ledger

variable {ι : Type}

/-- The books about a new item. -/
def new : Ledger ι := ⟨.waiting, 0, [], 0, [], []⟩

def holders (l : Ledger ι) : List ι := l.leases.map Prod.fst

/-- Grant a lease, of which nobody may hear. -/
def grant (l : Ledger ι) (who : Option ι) : Ledger ι :=
  { l with
    phase := .leased
    issued := l.issued + 1
    leases := who.toList.map (·, l.issued + 1) ++ l.leases }

/-- Grant a lease while another is out. -/
def regrant (l : Ledger ι) (who : Option ι) : Ledger ι :=
  { l.grant who with reclaims := who.toList.length + l.reclaims }

def complete (l : Ledger ι) (i : ι) : Ledger ι := { l with completed := i :: l.completed }

/-- Give the item back, which opens it again when `reopens`. -/
def giveBack (l : Ledger ι) (i : ι) (reopens : Bool) : Ledger ι :=
  { l with
    phase := if reopens then .waiting else l.phase
    returned := i :: l.returned }

def close (l : Ledger ι) : Ledger ι := { l with phase := .closed }

/-- A worker that holds a lease and has not reported on it. -/
def Open (l : Ledger ι) (i : ι) (n : ℕ) : Prop :=
  (i, n) ∈ l.leases ∧ i ∉ l.completed ∧ i ∉ l.returned

/-- What can happen to an item that workers give back only under numbers below
    `bound`. -/
inductive Step (bound : ℕ) : Ledger ι → Ledger ι → Prop
  | grant {l : Ledger ι} (who : Option ι) (hphase : l.phase = .waiting)
      (hnew : ∀ i ∈ who, i ∉ l.holders) : Step bound l (l.grant who)
  | regrant {l : Ledger ι} (who : Option ι) (hphase : l.phase = .leased)
      (hnew : ∀ i ∈ who, i ∉ l.holders) : Step bound l (l.regrant who)
  | complete {l : Ledger ι} (i : ι) (n : ℕ) (hopen : l.Open i n) : Step bound l (l.complete i)
  | giveBack {l : Ledger ι} (i : ι) (n : ℕ) (reopens : Bool) (hopen : l.Open i n)
      (hbound : n < bound) (hphase : reopens = true → l.phase = .leased) :
      Step bound l (l.giveBack i reopens)
  | close {l : Ledger ι} (hphase : l.phase = .leased) : Step bound l l.close

/-- The books that can come about from those of a new item. -/
def Reaches (bound : ℕ) (l : Ledger ι) : Prop := Relation.ReflTransGen (Step bound) new l

-- the invariant

/-- Books that are in order. -/
structure Sound (bound : ℕ) (l : Ledger ι) : Prop where
  holders : l.holders.Nodup
  numbers : ∀ x ∈ l.leases, 1 ≤ x.2 ∧ x.2 ≤ l.issued
  rising : l.leases.Pairwise fun x y => y.2 < x.2
  reports : (l.completed ++ l.returned).Nodup
  completed : ∀ i ∈ l.completed, i ∈ l.holders
  returned : ∀ i ∈ l.returned, ∃ n, (i, n) ∈ l.leases ∧ n < bound
  /-- Each lease that somebody heard of, except the first, follows one that was given
      back or was granted while another was out. -/
  granted : l.leases.length + (if l.phase = .waiting then 1 else 0) ≤
    1 + l.returned.length + l.reclaims
  /-- Who was not granted the latest lease gave it back. -/
  alone : l.reclaims = 0 → (∀ x ∈ l.leases.tail, x.1 ∈ l.returned) ∧
    (l.phase = .waiting → ∀ x ∈ l.leases, x.1 ∈ l.returned)

theorem sound_new (bound : ℕ) : (new : Ledger ι).Sound bound where
  holders := List.nodup_nil
  numbers := by simp [new]
  rising := List.Pairwise.nil
  reports := List.nodup_nil
  completed := by simp [new]
  returned := by simp [new]
  granted := by simp [new]
  alone := by simp [new]

variable {bound : ℕ} {l l' : Ledger ι}

theorem holders_grant (who : Option ι) : (l.grant who).holders = who.toList ++ l.holders := by
  simp [holders, grant, Function.comp_def]

/-- The parts of the invariant that do not depend on why the lease was granted. -/
theorem Sound.grant_holders (h : l.Sound bound) {who : Option ι}
    (hnew : ∀ i ∈ who, i ∉ l.holders) :
    (l.grant who).holders.Nodup ∧
      (∀ x ∈ (l.grant who).leases, 1 ≤ x.2 ∧ x.2 ≤ l.issued + 1) ∧
      (l.grant who).leases.Pairwise fun x y => y.2 < x.2 := by
  cases who with
  | none =>
    refine ⟨h.holders, fun x hx => ?_, h.rising⟩
    have := h.numbers x hx
    omega
  | some i =>
    have hi : i ∉ l.holders := hnew i rfl
    refine ⟨?_, fun x hx => ?_, ?_⟩
    · rw [holders_grant]
      exact List.nodup_cons.mpr ⟨hi, h.holders⟩
    · simp only [grant, Option.toList_some, List.map_cons, List.map_nil, List.cons_append,
        List.nil_append, List.mem_cons] at hx
      obtain rfl | hx := hx
      · simp
      · have := h.numbers x hx
        omega
    · refine List.pairwise_cons.mpr ⟨fun x hx => ?_, h.rising⟩
      have := h.numbers x hx
      change x.2 < l.issued + 1
      omega

theorem Sound.mono_leases (h : l.Sound bound) (who : Option ι) :
    (∀ i ∈ l.completed, i ∈ (l.grant who).holders) ∧
      ∀ i ∈ l.returned, ∃ n, (i, n) ∈ (l.grant who).leases ∧ n < bound := by
  constructor
  · intro i hi
    rw [holders_grant]
    exact List.mem_append_right _ (h.completed i hi)
  · intro i hi
    obtain ⟨n, hn, hlt⟩ := h.returned i hi
    exact ⟨n, List.mem_append_right _ hn, hlt⟩

theorem length_grant (who : Option ι) :
    (l.grant who).leases.length = who.toList.length + l.leases.length := by
  simp [grant]

theorem Sound.grant (h : l.Sound bound) {who : Option ι} (hphase : l.phase = .waiting)
    (hnew : ∀ i ∈ who, i ∉ l.holders) : (l.grant who).Sound bound := by
  obtain ⟨hholders, hnumbers, hrising⟩ := h.grant_holders hnew
  obtain ⟨hcompleted, hreturned⟩ := h.mono_leases who
  refine ⟨hholders, hnumbers, hrising, h.reports, hcompleted, hreturned, ?_, ?_⟩
  · have hgranted := h.granted
    rw [if_pos hphase] at hgranted
    rw [length_grant, if_neg (by simp [Ledger.grant])]
    have hwho : who.toList.length ≤ 1 := by cases who <;> simp
    change _ ≤ 1 + l.returned.length + l.reclaims
    omega
  · intro hreclaims
    have hall := (h.alone hreclaims).2 hphase
    refine ⟨?_, fun hwaiting => by simp [Ledger.grant] at hwaiting⟩
    cases who with
    | none => exact fun x hx => hall x (List.mem_of_mem_tail hx)
    | some i => exact hall

theorem Sound.regrant (h : l.Sound bound) {who : Option ι} (hphase : l.phase = .leased)
    (hnew : ∀ i ∈ who, i ∉ l.holders) : (l.regrant who).Sound bound := by
  obtain ⟨hholders, hnumbers, hrising⟩ := h.grant_holders hnew
  obtain ⟨hcompleted, hreturned⟩ := h.mono_leases who
  refine ⟨hholders, hnumbers, hrising, h.reports, hcompleted, hreturned, ?_, ?_⟩
  · have hgranted := h.granted
    rw [if_neg (by simp [hphase])] at hgranted
    rw [if_neg (by simp [Ledger.regrant, Ledger.grant])]
    change (l.grant who).leases.length + 0 ≤
      1 + l.returned.length + (who.toList.length + l.reclaims)
    rw [length_grant]
    omega
  · intro hreclaims
    have hreclaims : who.toList.length + l.reclaims = 0 := hreclaims
    refine ⟨?_, fun hwaiting => by simp [Ledger.regrant, Ledger.grant] at hwaiting⟩
    cases who with
    | none => exact (h.alone (by simpa using hreclaims)).1
    | some i => simp at hreclaims

theorem Sound.complete (h : l.Sound bound) {i : ι} {n : ℕ} (hopen : l.Open i n) :
    (l.complete i).Sound bound where
  holders := h.holders
  numbers := h.numbers
  rising := h.rising
  reports := by
    change (i :: (l.completed ++ l.returned)).Nodup
    refine List.nodup_cons.mpr ⟨?_, h.reports⟩
    rw [List.mem_append]
    rintro (hi | hi)
    · exact hopen.2.1 hi
    · exact hopen.2.2 hi
  completed := by
    intro j hj
    obtain rfl | hj := List.mem_cons.mp hj
    · exact List.mem_map_of_mem hopen.1
    · exact h.completed j hj
  returned := h.returned
  granted := h.granted
  alone := h.alone

/-- A worker that has not given the item back was granted the latest lease. -/
theorem Sound.head_of_open (h : l.Sound bound) (hreclaims : l.reclaims = 0) {i : ι} {n : ℕ}
    (hopen : l.Open i n) : l.leases.head? = some (i, n) ∧ l.phase ≠ .waiting := by
  obtain ⟨htail, hwaiting⟩ := h.alone hreclaims
  constructor
  · cases hl : l.leases with
    | nil => simp [Open, hl] at hopen
    | cons x xs =>
      have hmem := hopen.1
      rw [hl] at hmem
      obtain rfl | hmem := List.mem_cons.mp hmem
      · rfl
      · rw [hl] at htail
        exact absurd (htail _ hmem) hopen.2.2
  · intro hphase
    exact hopen.2.2 (hwaiting hphase _ hopen.1)

theorem Sound.giveBack (h : l.Sound bound) {i : ι} {n : ℕ} {reopens : Bool} (hopen : l.Open i n)
    (hbound : n < bound) : (l.giveBack i reopens).Sound bound where
  holders := h.holders
  numbers := h.numbers
  rising := h.rising
  reports := by
    change (l.completed ++ i :: l.returned).Nodup
    rw [List.nodup_middle]
    refine List.nodup_cons.mpr ⟨?_, h.reports⟩
    rw [List.mem_append]
    rintro (hi | hi)
    · exact hopen.2.1 hi
    · exact hopen.2.2 hi
  completed := h.completed
  returned := by
    intro j hj
    obtain rfl | hj := List.mem_cons.mp hj
    · exact ⟨n, hopen.1, hbound⟩
    · exact h.returned j hj
  granted := by
    have hgranted := h.granted
    change l.leases.length + _ ≤ 1 + (l.returned.length + 1) + l.reclaims
    split <;> split at hgranted <;> omega
  alone := by
    intro hreclaims
    obtain ⟨hhead, -⟩ := h.head_of_open hreclaims hopen
    obtain ⟨htail, -⟩ := h.alone hreclaims
    refine ⟨fun x hx => List.mem_cons_of_mem _ (htail x hx), fun _ x hx => ?_⟩
    change x ∈ l.leases at hx
    rw [List.eq_cons_of_mem_head? hhead] at hx
    obtain rfl | hx := List.mem_cons.mp hx
    · exact List.mem_cons_self
    · exact List.mem_cons_of_mem _ (htail x hx)

theorem Sound.close (h : l.Sound bound) : l.close.Sound bound where
  holders := h.holders
  numbers := h.numbers
  rising := h.rising
  reports := h.reports
  completed := h.completed
  returned := h.returned
  granted := by
    have hgranted := h.granted
    rw [if_neg (by simp [Ledger.close])]
    change l.leases.length + 0 ≤ 1 + l.returned.length + l.reclaims
    omega
  alone := fun hreclaims =>
    ⟨(h.alone hreclaims).1, fun hwaiting => by simp [Ledger.close] at hwaiting⟩

theorem Step.sound (h : Step bound l l') (hl : l.Sound bound) : l'.Sound bound := by
  cases h with
  | grant who hphase hnew => exact hl.grant hphase hnew
  | regrant who hphase hnew => exact hl.regrant hphase hnew
  | complete i n hopen => exact hl.complete hopen
  | giveBack i n reopens hopen hbound _ => exact hl.giveBack hopen hbound
  | close _ => exact hl.close

/-- Books that come about are in order. -/
theorem Reaches.sound (h : l.Reaches bound) : l.Sound bound := by
  induction h with
  | refl => exact sound_new bound
  | tail _ hstep ih => exact hstep.sound ih

theorem Reaches.step (h : l.Reaches bound) (hs : Step bound l l') : l'.Reaches bound := h.tail hs

-- what follows

/-- A closed item stays closed. -/
theorem Step.closed (h : Step bound l l') (hl : l.phase = .closed) : l'.phase = .closed := by
  cases h with
  | grant _ hphase _ => simp [hl] at hphase
  | regrant _ hphase _ => simp [hl] at hphase
  | complete => exact hl
  | giveBack i n reopens hopen hbound hphase =>
    cases reopens with
    | true => simp [hl] at hphase
    | false => exact hl
  | close => rfl

theorem Sound.nodup_leases (h : l.Sound bound) : l.leases.Nodup :=
  List.Nodup.of_map _ h.holders

/-- The number of a lease tells whose it is. -/
theorem Sound.eq_of_number (h : l.Sound bound) {x y : ι × ℕ} (hx : x ∈ l.leases)
    (hy : y ∈ l.leases) (hnumber : x.2 = y.2) : x = y := by
  by_contra hne
  have hsymm : Std.Symm fun x y : ι × ℕ => x.2 ≠ y.2 := ⟨fun _ _ h => h.symm⟩
  have hpair : l.leases.Pairwise fun x y => x.2 ≠ y.2 := h.rising.imp fun hlt => by omega
  exact List.Pairwise.forall hpair hx hy hne hnumber

/-- The item is completed at most once more often than it was leased again while
    a lease was out. -/
theorem Sound.completed_le (h : l.Sound bound) : l.completed.length ≤ 1 + l.reclaims := by
  have hsub : (l.completed ++ l.returned) ⊆ l.holders := by
    intro i hi
    obtain hi | hi := List.mem_append.mp hi
    · exact h.completed i hi
    · obtain ⟨n, hn, -⟩ := h.returned i hi
      exact List.mem_map_of_mem hn
  have hlen := (h.reports.subperm hsub).length_le
  rw [List.length_append, Ledger.holders, List.length_map] at hlen
  have hgranted := h.granted
  omega

/-- The numbers under which the item was given back are different and below the
    bound. -/
theorem Sound.returned_lt (h : l.Sound bound) : l.returned.length ≤ bound - 1 := by
  have hchoose : ∀ i : ι, ∃ n : ℕ, i ∈ l.returned → (i, n) ∈ l.leases ∧ n < bound := by
    intro i
    by_cases hi : i ∈ l.returned
    · obtain ⟨n, hn⟩ := h.returned i hi
      exact ⟨n, fun _ => hn⟩
    · exact ⟨0, fun hi' => absurd hi' hi⟩
  choose number hnumber using hchoose
  have hnodup : (l.returned.map number).Nodup := by
    refine List.Nodup.map_on (fun i hi j hj heq => ?_) (List.Nodup.of_append_right h.reports)
    exact congrArg Prod.fst (h.eq_of_number (hnumber i hi).1 (hnumber j hj).1 heq)
  have hrange : l.returned.map number ⊆ (List.range' 1 (bound - 1)) := by
    intro n hn
    obtain ⟨i, hi, rfl⟩ := List.mem_map.mp hn
    have hpos := (h.numbers _ (hnumber i hi).1).1
    have hlt := (hnumber i hi).2
    rw [List.mem_range'_1]
    omega
  simpa using (hnodup.subperm hrange).length_le

/-- The leases that somebody heard of are at most the bound and those granted while
    another was out. -/
theorem Sound.leases_le (h : l.Sound bound) (hbound : 0 < bound) :
    l.leases.length ≤ bound + l.reclaims := by
  have hgranted := h.granted
  have hreturned := h.returned_lt
  omega

theorem Reaches.completed_le (h : l.Reaches bound) : l.completed.length ≤ 1 + l.reclaims :=
  h.sound.completed_le

theorem Reaches.leases_le (h : l.Reaches bound) (hbound : 0 < bound) :
    l.leases.length ≤ bound + l.reclaims := h.sound.leases_le hbound

/-- When no lease was granted while another was out, at most one worker has not
    given the item back. -/
theorem Reaches.returned_of_tail (h : l.Reaches bound) (hreclaims : l.reclaims = 0) :
    ∀ x ∈ l.leases.tail, x.1 ∈ l.returned := (h.sound.alone hreclaims).1

end Ledger

end Concurrency.Lease
