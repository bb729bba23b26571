import Mathlib.Data.List.Pairwise
import CairnId.Concurrency.Prog

/-!
# Interleaved programs

A pool runs any number of programs side by side over one shared world. Each
step either starts a new program or lets one running program make its next
call; the calls of different programs interleave freely. The choices a step
depends on (which thread, and whatever the surroundings decide) are part of its
label, so a run is a list of labels and can be evaluated.

## Main results

- `Reachable.sat` — every thread still meets the specification of its program
- `Reachable.invariant` — an invariant of the world and the trace holds in every
  reachable pool when each admissible call preserves it
- `ReachableBy.lastWrite_eq` — a part of the world that calls either write or keep
  has the value written last
-/

namespace Concurrency

/-- The programs that requests `Q` start, and what a call does to the world.
    `exec i e c w` is the effect of call `e` made by thread `i` under the
    external choice `c`; `none` means that the call cannot happen now. -/
structure Machine (E : Type) (R : E → Type) (Q W C ε α : Type) where
  handler : Q → Prog E R ε α
  exec : ℕ → (e : E) → C → W → Option (R e × W)

structure Thread {E : Type} (R : E → Type) (Q ε α : Type) where
  request : Q
  rest : Prog E R ε α

/-- One call of the past: who made it, what it was and was answered, and the
    world it was made in. -/
structure Entry {E : Type} (R : E → Type) (W : Type) where
  thread : ℕ
  event : Event R
  before : W

/-- The calls made by one thread, newest first. -/
def own {E : Type} {R : E → Type} {W : Type} (i : ℕ) (tr : List (Entry R W)) : List (Event R) :=
  tr.filterMap fun x => if x.thread = i then some x.event else none

structure Pool {E : Type} (R : E → Type) (Q W ε α : Type) where
  world : W
  threads : List (Thread R Q ε α)
  trace : List (Entry R W)

inductive Label (Q C : Type) where
  | spawn (q : Q)
  | run (i : ℕ) (c : C)

variable {E : Type} {R : E → Type} {Q W C ε α : Type}

/-- The request that a label starts. -/
def Label.spawned : Label Q C → Option Q
  | .spawn q => some q
  | .run _ _ => none

namespace Thread

/-- The result of a thread that has ended. -/
def outcome (t : Thread R Q ε α) : Option (Except ε α) := match t.rest with
  | .ret a => some (.ok a)
  | .fail e => some (.error e)
  | .call _ _ => none

theorem outcome_eq_ok {t : Thread R Q ε α} {a : α} : t.outcome = some (.ok a) ↔ t.rest = .ret a := by
  unfold outcome
  cases t.rest <;> simp

theorem outcome_eq_error {t : Thread R Q ε α} {e : ε} :
    t.outcome = some (.error e) ↔ t.rest = .fail e := by
  unfold outcome
  cases t.rest <;> simp

/-- The threads whose outcomes are shown to be answers have answered. -/
theorem exists_outcome_ok {l : List (Thread R Q ε α)}
    (h : ∀ o ∈ l.map fun t => t.outcome.map (·.isOk), o = some true) :
    ∀ t ∈ l, ∃ a, t.outcome = some (.ok a) := by
  intro t ht
  have hok := h _ (List.mem_map_of_mem ht)
  match ho : t.outcome with
  | some (.ok a) => exact ⟨a, rfl⟩
  | some (.error e) => simp [ho, Except.isOk, Except.toBool] at hok
  | none => simp [ho] at hok

end Thread

section own

variable {i j : ℕ} {x : Entry R W} {tr : List (Entry R W)}

@[simp] theorem own_nil : own i ([] : List (Entry R W)) = [] := rfl

@[simp] theorem own_cons_self : own x.thread (x :: tr) = x.event :: own x.thread tr := by
  simp [own]

theorem own_cons_of_ne (h : x.thread ≠ i) : own i (x :: tr) = own i tr := by
  simp [own, h]

theorem own_append (tr' : List (Entry R W)) : own i (tr' ++ tr) = own i tr' ++ own i tr := by
  simp [own]

theorem mem_own {ev : Event R} : ev ∈ own i tr ↔ ∃ x ∈ tr, x.thread = i ∧ x.event = ev := by
  simp only [own, List.mem_filterMap]
  refine ⟨fun ⟨x, hx, h⟩ => ?_, fun ⟨x, hx, hi, h⟩ => ⟨x, hx, by simp [hi, h]⟩⟩
  split at h
  · exact ⟨x, hx, ‹_›, Option.some.inj h⟩
  · cases h

theorem mem_own_cons {ev : Event R} :
    ev ∈ own i (x :: tr) ↔ (x.thread = i ∧ x.event = ev) ∨ ev ∈ own i tr := by
  simp [mem_own]

end own

/-- The world before the calls `tr` were made, of which `w` is the world after. -/
def worldAfter (w : W) : List (Entry R W) → W
  | [] => w
  | x :: tr => worldAfter x.before tr

section once

variable {κ : Type} {f : Event R → Option κ} {tr : List (Entry R W)} {x y : Entry R W}

/-- No two calls of the trace have the same key, for calls that have one. -/
def Once (f : Event R → Option κ) (tr : List (Entry R W)) : Prop :=
  tr.Pairwise fun x y => ∀ k, f x.event = some k → f y.event ≠ some k

theorem once_nil : Once f ([] : List (Entry R W)) := List.Pairwise.nil

theorem once_cons :
    Once f (x :: tr) ↔ (∀ y ∈ tr, ∀ k, f x.event = some k → f y.event ≠ some k) ∧ Once f tr :=
  List.pairwise_cons

theorem Once.cons_of_none (h : Once f tr) (hx : f x.event = none) : Once f (x :: tr) :=
  once_cons.mpr ⟨fun y _ k hk => by simp [hx] at hk, h⟩

theorem Once.eq (h : Once f tr) (hx : x ∈ tr) (hy : y ∈ tr) {k : κ} (hxk : f x.event = some k)
    (hyk : f y.event = some k) : x = y := by
  by_contra hne
  have hsymm : Std.Symm fun x y : Entry R W => ∀ k, f x.event = some k → f y.event ≠ some k :=
    ⟨fun x y h k hy hx => h k hx hy⟩
  exact List.Pairwise.forall h hx hy hne k hxk hyk

end once

namespace Machine

variable (M : Machine E R Q W C ε α)

/-- One step of the pool; `none` when the label is not possible. -/
def step (p : Pool R Q W ε α) : Label Q C → Option (Pool R Q W ε α)
  | .spawn q => some { p with threads := p.threads ++ [⟨q, M.handler q⟩] }
  | .run i c => match p.threads[i]? with
    | some ⟨q, .call e k⟩ => match M.exec i e c p.world with
      | some (r, w) => some
          { world := w
            threads := p.threads.set i ⟨q, k r⟩
            trace := ⟨i, ⟨e, r⟩, p.world⟩ :: p.trace }
      | none => none
    | _ => none

/-- A run: the pool after a list of labels. -/
def run (p : Pool R Q W ε α) : List (Label Q C) → Option (Pool R Q W ε α)
  | [] => some p
  | l :: ls => (M.step p l).bind fun p' => run p' ls

def start (w : W) : Pool R Q W ε α := ⟨w, [], []⟩

/-- The pools that runs from an initial world `w` reach. -/
inductive Reachable (w : W) : Pool R Q W ε α → Prop
  | start : Reachable w (start w)
  | step {p p'} (l : Label Q C) : Reachable w p → M.step p l = some p' → Reachable w p'

variable {M}

theorem Reachable.run {w : W} {p p' : Pool R Q W ε α} {ls : List (Label Q C)}
    (h : M.Reachable w p) (hr : M.run p ls = some p') : M.Reachable w p' := by
  induction ls generalizing p with
  | nil =>
    cases hr
    exact h
  | cons l ls ih =>
    simp only [Machine.run, Option.bind_eq_some_iff] at hr
    obtain ⟨q, hq, hr⟩ := hr
    exact ih (h.step l hq) hr

/-- Everything a `run` label can do. -/
theorem step_run_eq {p p' : Pool R Q W ε α} {i : ℕ} {c : C} (h : M.step p (.run i c) = some p') :
    ∃ q e k r w, p.threads[i]? = some ⟨q, .call e k⟩ ∧ M.exec i e c p.world = some (r, w) ∧
      p' = ⟨w, p.threads.set i ⟨q, k r⟩, ⟨i, ⟨e, r⟩, p.world⟩ :: p.trace⟩ := by
  simp only [step] at h
  split at h
  · rename_i q e k ht
    split at h
    · rename_i r w hx
      cases h
      exact ⟨q, e, k, r, w, ht, hx, rfl⟩
    · cases h
  · cases h

/-- The requests of a run are those that its labels start. -/
theorem run_requests {p p' : Pool R Q W ε α} {ls : List (Label Q C)} (h : M.run p ls = some p') :
    p'.threads.map Thread.request =
      p.threads.map Thread.request ++ ls.filterMap Label.spawned := by
  induction ls generalizing p with
  | nil =>
    cases h
    simp
  | cons l ls ih =>
    simp only [Machine.run, Option.bind_eq_some_iff] at h
    obtain ⟨p₁, hl, h⟩ := h
    rw [ih h]
    cases l with
    | spawn q =>
      cases hl
      simp [Label.spawned]
    | run i c =>
      obtain ⟨q, e, k, r, w', ht, -, rfl⟩ := step_run_eq hl
      have hset : (p.threads.set i ⟨q, k r⟩).map Thread.request = p.threads.map Thread.request := by
        rw [List.map_set]
        refine List.ext_getElem? fun j => ?_
        by_cases hij : i = j
        · subst hij
          rw [List.getElem?_set_self (by simpa using (List.getElem?_eq_some_iff.mp ht).1)]
          simp [ht]
        · rw [List.getElem?_set_ne hij]
      rw [hset]
      rfl

-- ════════════════════════════════════════════════════════════════════════
-- Threads keep the specification of their program
-- ════════════════════════════════════════════════════════════════════════

section sat

variable {pre : Q → List (Event R) → E → Prop} {post : Q → List (Event R) → Except ε α → Prop}
  {w : W} {p : Pool R Q W ε α}

theorem Reachable.thread_lt (h : M.Reachable w p) : ∀ x ∈ p.trace, x.thread < p.threads.length := by
  induction h with
  | start => simp [Machine.start]
  | step l _ hs ih =>
    cases l with
    | spawn q =>
      cases hs
      intro x hx
      have := ih x hx
      simp only [List.length_append, List.length_singleton]
      omega
    | run i c =>
      obtain ⟨q, e, k, r, w', ht, -, rfl⟩ := step_run_eq hs
      have hi : i < _ := (List.getElem?_eq_some_iff.mp ht).1
      intro x hx
      rcases List.mem_cons.mp hx with rfl | hx
      · simpa using hi
      · simpa using ih x hx

theorem own_eq_nil_of_le (h : M.Reachable w p) {i : ℕ} (hi : p.threads.length ≤ i) :
    own i p.trace = [] := by
  rw [own, List.filterMap_eq_nil_iff]
  intro x hx
  have := h.thread_lt x hx
  rw [if_neg (by omega)]

/-- Every thread meets what its program was shown to meet, with the calls it
    has made as history. -/
theorem Reachable.sat (hs : ∀ q, (M.handler q).Sat (pre q) (post q) [])
    (h : M.Reachable w p) {i : ℕ} {t : Thread R Q ε α} (ht : p.threads[i]? = some t) :
    t.rest.Sat (pre t.request) (post t.request) (own i p.trace) := by
  induction h generalizing i t with
  | start => simp [Machine.start] at ht
  | @step p p' l hr hstep ih =>
    cases l with
    | spawn q =>
      cases hstep
      rcases Nat.lt_or_ge i p.threads.length with hi | hi
      · rw [List.getElem?_append_left hi] at ht
        exact ih ht
      · -- the new thread has made no call yet
        rw [List.getElem?_append_right hi] at ht
        have ht' := List.mem_of_getElem? ht
        rw [List.mem_singleton] at ht'
        subst ht'
        rw [own_eq_nil_of_le hr hi]
        exact hs q
    | run j c =>
      obtain ⟨q, e, k, r, w', htj, -, rfl⟩ := step_run_eq hstep
      by_cases hij : j = i
      · subst hij
        rw [List.getElem?_set_self (List.getElem?_eq_some_iff.mp htj).1] at ht
        cases ht
        simpa [own] using (ih htj).2 r
      · rw [List.getElem?_set_ne hij] at ht
        rw [own_cons_of_ne (by simpa using hij)]
        exact ih ht

/-- What a thread ensures at its end. -/
theorem Reachable.post_of_outcome (hs : ∀ q, (M.handler q).Sat (pre q) (post q) [])
    (h : M.Reachable w p) {i : ℕ} {t : Thread R Q ε α} (ht : p.threads[i]? = some t)
    {o : Except ε α} (ho : t.outcome = some o) : post t.request (own i p.trace) o := by
  have hsat := h.sat hs ht
  cases o with
  | ok a => simpa [Thread.outcome_eq_ok.mp ho] using hsat
  | error e => simpa [Thread.outcome_eq_error.mp ho] using hsat

/-- **Invariant rule**: an invariant of world and trace that every admissible
    call preserves holds in every reachable pool. -/
theorem Reachable.invariant (hs : ∀ q, (M.handler q).Sat (pre q) (post q) [])
    (I : W → List (Entry R W) → Prop) (hI : I w [])
    (hstep : ∀ p i q e c r w', M.Reachable w p → I p.world p.trace → pre q (own i p.trace) e →
      M.exec i e c p.world = some (r, w') → I w' (⟨i, ⟨e, r⟩, p.world⟩ :: p.trace))
    (h : M.Reachable w p) : I p.world p.trace := by
  induction h with
  | start => exact hI
  | @step p p' l hr hl ih =>
    cases l with
    | spawn q =>
      cases hl
      exact ih
    | run i c =>
      obtain ⟨q, e, k, r, w', ht, hx, rfl⟩ := step_run_eq hl
      exact hstep p i q e c r w' hr ih (hr.sat hs ht).1 hx

/-- Every call of the trace was executed in the world recorded with it, and
    that world has since changed only along a preorder that every admissible call
    respects. -/
theorem Reachable.executed_admissible (hs : ∀ q, (M.handler q).Sat (pre q) (post q) [])
    (Rel : W → W → Prop) (hrefl : ∀ w, Rel w w) (htrans : ∀ a b c, Rel a b → Rel b c → Rel a c)
    (hstep : ∀ p i q e c r w', M.Reachable w p → pre q (own i p.trace) e →
      M.exec i e c p.world = some (r, w') → Rel p.world w') (h : M.Reachable w p)
    {x : Entry R W} (hx : x ∈ p.trace) :
    ∃ c w', M.exec x.thread x.event.1 c x.before = some (x.event.2, w') ∧ Rel w' p.world := by
  induction h with
  | start => simp [Machine.start] at hx
  | @step p p' l hr hl ih =>
    cases l with
    | spawn q =>
      cases hl
      exact ih hx
    | run i c =>
      obtain ⟨q, e, k, r, w', ht, hexec, rfl⟩ := step_run_eq hl
      rcases List.mem_cons.mp hx with rfl | hx
      · exact ⟨c, w', hexec, hrefl w'⟩
      · obtain ⟨c', w'', hx', hrel⟩ := ih hx
        exact ⟨c', w'', hx',
          htrans _ _ _ hrel (hstep _ _ _ _ _ _ _ hr (hr.sat hs ht).1 hexec)⟩

theorem Reachable.executed (Rel : W → W → Prop) (hrefl : ∀ w, Rel w w)
    (htrans : ∀ a b c, Rel a b → Rel b c → Rel a c)
    (hstep : ∀ i e c w r w', M.exec i e c w = some (r, w') → Rel w w') (h : M.Reachable w p)
    {x : Entry R W} (hx : x ∈ p.trace) :
    ∃ c w', M.exec x.thread x.event.1 c x.before = some (x.event.2, w') ∧ Rel w' p.world :=
  h.executed_admissible (fun q => Prog.Sat.trivial (M.handler q)) Rel hrefl htrans
    (fun _ _ _ _ _ _ _ _ _ hexec => hstep _ _ _ _ _ _ hexec) hx

/-- The world of a pool that a run goes on to has changed along the preorder. -/
theorem run_rel (Rel : W → W → Prop) (hrefl : ∀ w, Rel w w)
    (htrans : ∀ a b c, Rel a b → Rel b c → Rel a c)
    (hstep : ∀ i e c w r w', M.exec i e c w = some (r, w') → Rel w w') {p' : Pool R Q W ε α}
    {ls : List (Label Q C)} (h : M.run p ls = some p') : Rel p.world p'.world := by
  induction ls generalizing p with
  | nil =>
    cases h
    exact hrefl _
  | cons l ls ih =>
    simp only [Machine.run, Option.bind_eq_some_iff] at h
    obtain ⟨p₁, hl, h⟩ := h
    refine htrans _ _ _ ?_ (ih h)
    cases l with
    | spawn q =>
      cases hl
      exact hrefl _
    | run i c =>
      obtain ⟨q, e, k, r, w', -, hexec, rfl⟩ := step_run_eq hl
      exact hstep _ _ _ _ _ _ hexec

/-- The world of a pool that a run goes on to has changed along a preorder that every
    admissible call respects. -/
theorem Reachable.run_admissible (hs : ∀ q, (M.handler q).Sat (pre q) (post q) [])
    (Rel : W → W → Prop) (hrefl : ∀ w, Rel w w) (htrans : ∀ a b c, Rel a b → Rel b c → Rel a c)
    (hstep : ∀ p i q e c r w', M.Reachable w p → pre q (own i p.trace) e →
      M.exec i e c p.world = some (r, w') → Rel p.world w') (h : M.Reachable w p)
    {p' : Pool R Q W ε α} {ls : List (Label Q C)} (hr : M.run p ls = some p') :
    Rel p.world p'.world := by
  induction ls generalizing p with
  | nil =>
    cases hr
    exact hrefl _
  | cons l ls ih =>
    simp only [Machine.run, Option.bind_eq_some_iff] at hr
    obtain ⟨p₁, hl, hr⟩ := hr
    refine htrans _ _ _ ?_ (ih (h.step l hl) hr)
    cases l with
    | spawn q =>
      cases hl
      exact hrefl _
    | run i c =>
      obtain ⟨q, e, k, r, w', ht, hexec, rfl⟩ := step_run_eq hl
      exact hstep _ _ _ _ _ _ _ h (h.sat hs ht).1 hexec

/-- A step that reaches a pool leaves the requests of its threads in place. -/
theorem request_of_step {p p' : Pool R Q W ε α} {l : Label Q C} (h : M.step p l = some p')
    {i : ℕ} {t : Thread R Q ε α} (ht : p.threads[i]? = some t) :
    ∃ t', p'.threads[i]? = some t' ∧ t'.request = t.request := by
  cases l with
  | spawn q =>
    cases h
    exact ⟨t, by rw [List.getElem?_append_left (List.getElem?_eq_some_iff.mp ht).1, ht], rfl⟩
  | run j c =>
    obtain ⟨q, e, k, r, w', htj, -, rfl⟩ := step_run_eq h
    by_cases hij : j = i
    · subst hij
      refine ⟨⟨q, k r⟩, List.getElem?_set_self (List.getElem?_eq_some_iff.mp htj).1, ?_⟩
      rw [htj] at ht
      cases ht
      rfl
    · exact ⟨t, by rw [List.getElem?_set_ne hij, ht], rfl⟩

/-- Every call of the trace was made from a reachable pool, by the thread that
    still stands at its place. -/
theorem Reachable.before (h : M.Reachable w p) {tr₁ tr₂ : List (Entry R W)} {x : Entry R W}
    (htr : p.trace = tr₁ ++ x :: tr₂) :
    ∃ p₀ t k, M.Reachable w p₀ ∧ p₀.world = x.before ∧ p₀.trace = tr₂ ∧
      p₀.threads[x.thread]? = some ⟨t.request, .call x.event.1 k⟩ ∧
      p.threads[x.thread]? = some t := by
  induction h generalizing tr₁ with
  | start => simp [Machine.start] at htr
  | @step p p' l hr hl ih =>
    have carry : ∀ {tr₁}, p.trace = tr₁ ++ x :: tr₂ →
        ∃ p₀ t k, M.Reachable w p₀ ∧ p₀.world = x.before ∧ p₀.trace = tr₂ ∧
          p₀.threads[x.thread]? = some ⟨t.request, .call x.event.1 k⟩ ∧
          p'.threads[x.thread]? = some t := by
      intro tr₁ htr
      obtain ⟨p₀, t, k, h₀, hw, ht₀, hcall, ht⟩ := ih htr
      obtain ⟨t', ht', hq⟩ := request_of_step hl ht
      exact ⟨p₀, t', k, h₀, hw, ht₀, hq ▸ hcall, ht'⟩
    cases l with
    | spawn q =>
      cases hl
      exact carry htr
    | run i c =>
      obtain ⟨q, e, k, r, w', ht, -, rfl⟩ := step_run_eq hl
      cases tr₁ with
      | cons y tr₁ =>
        simp only [List.cons_append, List.cons.injEq] at htr
        exact carry htr.2
      | nil =>
        simp only [List.nil_append, List.cons.injEq] at htr
        obtain ⟨rfl, rfl⟩ := htr
        exact ⟨p, ⟨q, k r⟩, k, hr, rfl, rfl, ht,
          List.getElem?_set_self (List.getElem?_eq_some_iff.mp ht).1⟩

/-- A call of the trace led from the world recorded with it to the world that the
    next call was made in. -/
theorem Reachable.exec_worldAfter (h : M.Reachable w p) {tr₁ tr₂ : List (Entry R W)}
    {x : Entry R W} (htr : p.trace = tr₁ ++ x :: tr₂) :
    ∃ c, M.exec x.thread x.event.1 c x.before = some (x.event.2, worldAfter p.world tr₁) := by
  induction h generalizing tr₁ with
  | start => simp [Machine.start] at htr
  | @step p p' l hr hl ih =>
    cases l with
    | spawn q =>
      cases hl
      exact ih htr
    | run i c =>
      obtain ⟨q, e, k, r, w', ht, hexec, rfl⟩ := step_run_eq hl
      cases tr₁ with
      | nil =>
        simp only [List.nil_append, List.cons.injEq] at htr
        obtain ⟨rfl, -⟩ := htr
        exact ⟨c, hexec⟩
      | cons y tr₁ =>
        simp only [List.cons_append, List.cons.injEq] at htr
        obtain ⟨rfl, htr⟩ := htr
        exact ih htr

/-- Every call of the trace was admissible for the request of its thread when
    it was made. -/
theorem Reachable.admissible (hs : ∀ q, (M.handler q).Sat (pre q) (post q) [])
    (h : M.Reachable w p) {tr₁ tr₂ : List (Entry R W)} {x : Entry R W}
    (htr : p.trace = tr₁ ++ x :: tr₂) :
    ∃ t, p.threads[x.thread]? = some t ∧ pre t.request (own x.thread tr₂) x.event.1 := by
  obtain ⟨p₀, t, k, h₀, -, rfl, hcall, ht⟩ := h.before htr
  exact ⟨t, ht, (h₀.sat hs hcall).1⟩

/-- A kind of call that a thread makes only when it has not made one before is made
    once by each thread. -/
theorem Reachable.unique_call (hs : ∀ q, (M.handler q).Sat (pre q) (post q) [])
    {K : E → Prop} (hK : ∀ q h e, pre q h e → K e → ∀ ev ∈ h, ¬K ev.1) (h : M.Reachable w p)
    {x y : Entry R W} (hx : x ∈ p.trace) (hy : y ∈ p.trace) (hKx : K x.event.1)
    (hKy : K y.event.1) (hthread : x.thread = y.thread) : x = y := by
  obtain ⟨tr₁, tr₂, htr⟩ := List.append_of_mem hx
  have earlier {x y : Entry R W} (hKx : K x.event.1) (hKy : K y.event.1)
      (hthread : x.thread = y.thread) {tr₁ tr₂ : List (Entry R W)}
      (htr : p.trace = tr₁ ++ x :: tr₂) (hy : y ∈ tr₂) : False := by
    obtain ⟨t, -, hpre⟩ := h.admissible hs htr
    exact hK _ _ _ hpre hKx y.event (mem_own.mpr ⟨y, hy, hthread.symm, rfl⟩) hKy
  rw [htr, List.mem_append, List.mem_cons] at hy
  rcases hy with hy | rfl | hy
  · obtain ⟨tr₃, tr₄, rfl⟩ := List.append_of_mem hy
    have hsplit : p.trace = tr₃ ++ y :: (tr₄ ++ x :: tr₂) := by simp [htr]
    exact (earlier hKy hKx hthread.symm hsplit (by simp)).elim
  · rfl
  · exact (earlier hKx hKy hthread htr hy).elim

end sat

-- ════════════════════════════════════════════════════════════════════════
-- Runs whose steps meet a condition
-- ════════════════════════════════════════════════════════════════════════

section conditions

variable (M) in
/-- The pools that runs reach whose steps all meet the condition `A`, which may
    depend on the pool before the step. -/
inductive ReachableBy (A : Pool R Q W ε α → Label Q C → Prop) (w : W) : Pool R Q W ε α → Prop
  | start : ReachableBy A w (start w)
  | step {p p'} (l : Label Q C) : ReachableBy A w p → A p l → M.step p l = some p' →
      ReachableBy A w p'

variable {A : Pool R Q W ε α → Label Q C → Prop} {w : W} {p : Pool R Q W ε α}

theorem ReachableBy.reachable (h : M.ReachableBy A w p) : M.Reachable w p := by
  induction h with
  | start => exact .start
  | step l _ _ hs ih => exact ih.step l hs

/-- A weaker condition admits the run as well. -/
theorem ReachableBy.mono {B : Pool R Q W ε α → Label Q C → Prop} (h : M.ReachableBy A w p)
    (hAB : ∀ p l, A p l → B p l) : M.ReachableBy B w p := by
  induction h with
  | start => exact .start
  | step l _ hA hl ih => exact ih.step l (hAB _ l hA) hl

/-- What holds of all requests of a pool held at every step that led to it. -/
theorem ReachableBy.requests (h : M.ReachableBy A w p) {I : Q → Prop}
    (hI : ∀ t ∈ p.threads, I t.request) :
    M.ReachableBy (fun p l => A p l ∧ ∀ t ∈ p.threads, I t.request) w p := by
  induction h with
  | start => exact .start
  | @step p p' l _ hA hl ih =>
    have hbefore : ∀ t ∈ p.threads, I t.request := by
      intro t ht
      obtain ⟨i, hi⟩ := List.mem_iff_getElem?.mp ht
      obtain ⟨t', ht', hrequest⟩ := request_of_step hl hi
      exact hrequest ▸ hI t' (List.mem_of_getElem? ht')
    exact (ih hbefore).step l ⟨hA, hbefore⟩ hl

variable (M A) in
/-- A run that stops at a step that does not meet the condition. -/
def runBy [∀ p l, Decidable (A p l)] (p : Pool R Q W ε α) : List (Label Q C) → Option (Pool R Q W ε α)
  | [] => some p
  | l :: ls => if A p l then (M.step p l).bind fun p' => runBy p' ls else none

theorem run_of_runBy [∀ p l, Decidable (A p l)] {p' : Pool R Q W ε α} {ls : List (Label Q C)}
    (h : M.runBy A p ls = some p') : M.run p ls = some p' := by
  induction ls generalizing p with
  | nil => exact h
  | cons l ls ih =>
    simp only [Machine.runBy, Option.ite_none_right_eq_some, Option.bind_eq_some_iff] at h
    obtain ⟨-, q, hq, h⟩ := h
    simp only [Machine.run, Option.bind_eq_some_iff]
    exact ⟨q, hq, ih h⟩

theorem ReachableBy.runBy [∀ p l, Decidable (A p l)] {p' : Pool R Q W ε α} {ls : List (Label Q C)}
    (h : M.ReachableBy A w p) (hr : M.runBy A p ls = some p') : M.ReachableBy A w p' := by
  induction ls generalizing p with
  | nil =>
    cases hr
    exact h
  | cons l ls ih =>
    simp only [Machine.runBy, Option.ite_none_right_eq_some, Option.bind_eq_some_iff] at hr
    obtain ⟨hA, q, hq, hr⟩ := hr
    exact ih (h.step l hA hq) hr

/-- **Invariant rule** for such runs, over whole pools. -/
theorem ReachableBy.invariant (I : Pool R Q W ε α → Prop) (hstart : I (Machine.start w))
    (hspawn : ∀ p q, M.ReachableBy A w p → I p →
      I { p with threads := p.threads ++ [⟨q, M.handler q⟩] })
    (hrun : ∀ p i c q e k r w', M.ReachableBy A w p → I p → A p (.run i c) →
      p.threads[i]? = some ⟨q, .call e k⟩ → M.exec i e c p.world = some (r, w') →
      I ⟨w', p.threads.set i ⟨q, k r⟩, ⟨i, ⟨e, r⟩, p.world⟩ :: p.trace⟩)
    (h : M.ReachableBy A w p) : I p := by
  induction h with
  | start => exact hstart
  | @step p p' l hr hA hl ih =>
    cases l with
    | spawn q =>
      cases hl
      exact hspawn p q hr ih
    | run i c =>
      obtain ⟨q, e, k, r, w', ht, hx, rfl⟩ := step_run_eq hl
      exact hrun p i c q e k r w' hr ih hA ht hx

end conditions

end Machine

-- ════════════════════════════════════════════════════════════════════════
-- A part of the world that only some requests write
-- ════════════════════════════════════════════════════════════════════════

section lastWrite

variable {V : Type}

/-- What the latest write of the run gave, where `wrote q ev` is what the call
    `ev` of a request `q` gives. -/
def Pool.lastWrite (wrote : Q → Event R → Option V) (p : Pool R Q W ε α) : Option V :=
  p.trace.findSome? fun x => p.threads[x.thread]?.bind fun t => wrote t.request x.event

/-- The latest write was made by one of the threads. -/
theorem Pool.lastWrite_eq_some {wrote : Q → Event R → Option V} {p : Pool R Q W ε α} {v : V}
    (h : p.lastWrite wrote = some v) :
    ∃ i t ev, p.threads[i]? = some t ∧ ev ∈ own i p.trace ∧ wrote t.request ev = some v := by
  obtain ⟨x, hx, hv⟩ := List.exists_of_findSome?_eq_some h
  obtain ⟨t, ht, hv⟩ := Option.bind_eq_some_iff.mp hv
  exact ⟨x.thread, t, x.event, ht, mem_own.mpr ⟨x, hx, rfl, rfl⟩, hv⟩

theorem Pool.lastWrite_isSome {wrote : Q → Event R → Option V} {p : Pool R Q W ε α} {i : ℕ}
    {t : Thread R Q ε α} {ev : Event R} {v : V} (ht : p.threads[i]? = some t)
    (hev : ev ∈ own i p.trace) (hv : wrote t.request ev = some v) : (p.lastWrite wrote).isSome := by
  obtain ⟨x, hx, rfl, rfl⟩ := mem_own.mp hev
  rw [Pool.lastWrite, List.findSome?_isSome_iff]
  exact ⟨x, hx, by simp [ht, hv]⟩

variable {M : Machine E R Q W C ε α} {A : Pool R Q W ε α → Label Q C → Prop} {w : W}
  {p : Pool R Q W ε α}

/-- Threads added later have made none of the calls. -/
theorem lastWrite_spawn {wrote : Q → Event R → Option V} (h : M.Reachable w p) (q : Q) :
    Pool.lastWrite wrote { p with threads := p.threads ++ [⟨q, M.handler q⟩] } =
      p.lastWrite wrote := by
  have hlt := h.thread_lt
  simp only [Pool.lastWrite]
  generalize p.trace = tr at hlt
  induction tr with
  | nil => rfl
  | cons x tr ih =>
    rw [List.findSome?_cons, List.findSome?_cons, List.getElem?_append_left (hlt x (by simp)),
      ih fun y hy => hlt y (by simp [hy])]

theorem lastWrite_run {wrote : Q → Event R → Option V} {i : ℕ} {q : Q} {e : E}
    {k : R e → Prog E R ε α} (ht : p.threads[i]? = some ⟨q, .call e k⟩) (r : R e) (w' : W) :
    Pool.lastWrite wrote ⟨w', p.threads.set i ⟨q, k r⟩, ⟨i, ⟨e, r⟩, p.world⟩ :: p.trace⟩ =
      (wrote q ⟨e, r⟩).or (p.lastWrite wrote) := by
  have hi := (List.getElem?_eq_some_iff.mp ht).1
  have hrequest : ∀ j : ℕ, (p.threads.set i ⟨q, k r⟩)[j]?.map Thread.request =
      p.threads[j]?.map Thread.request := by
    intro j
    by_cases hij : i = j
    · subst hij
      simp [List.getElem?_set_self hi, ht]
    · rw [List.getElem?_set_ne hij]
  have hbind : ∀ x : Entry R W, ((p.threads.set i ⟨q, k r⟩)[x.thread]?.bind fun t =>
      wrote t.request x.event) = p.threads[x.thread]?.bind fun t => wrote t.request x.event := by
    intro x
    have := congrArg (fun o => o.bind fun q => wrote q x.event) (hrequest x.thread)
    simpa only [Option.bind_map, Function.comp_def] using this
  simp only [Pool.lastWrite, hbind, List.findSome?_cons, ht, Option.bind_some]
  cases wrote q ⟨e, r⟩ <;> rfl

/-- **Last write rule**: where each call either writes a value or keeps the one
    that is there, the value is the one written last. A value that is not `Good`
    need not be kept; every value written is. -/
theorem Machine.ReachableBy.lastWrite_eq (get : W → V) (wrote : Q → Event R → Option V)
    (Good : V → Prop)
    (hstep : ∀ p i c q e k r w', M.ReachableBy A w p → A p (.run i c) →
      p.threads[i]? = some ⟨q, .call e k⟩ → M.exec i e c p.world = some (r, w') →
      (∃ v, wrote q ⟨e, r⟩ = some v ∧ get w' = v ∧ Good v) ∨
        (wrote q ⟨e, r⟩ = none ∧ (Good (get p.world) → get w' = get p.world)))
    (h : M.ReachableBy A w p) :
    (∀ v, p.lastWrite wrote = some v → get p.world = v ∧ Good v) ∧
      (Good (get w) → p.lastWrite wrote = none → get p.world = get w) := by
  refine h.invariant (I := fun p =>
    (∀ v, p.lastWrite wrote = some v → get p.world = v ∧ Good v) ∧
      (Good (get w) → p.lastWrite wrote = none → get p.world = get w)) ?_ ?_ ?_
  · exact ⟨nofun, fun _ _ => rfl⟩
  · intro p q hr ih
    simpa only [lastWrite_spawn hr.reachable q] using ih
  · intro p i c q e k r w' hr ih hA ht hx
    rw [lastWrite_run ht]
    rcases hstep p i c q e k r w' hr hA ht hx with ⟨v, hwrote, hset⟩ | ⟨hwrote, hkeep⟩
    · rw [hwrote]
      refine ⟨fun v' hv' => ?_, fun _ => nofun⟩
      cases hv'
      exact hset
    · rw [hwrote]
      constructor
      · intro v hv
        obtain ⟨hget, hgood⟩ := ih.1 v hv
        exact ⟨(hkeep (hget ▸ hgood)).trans hget, hgood⟩
      · intro hgood hnone
        have hget := ih.2 hgood hnone
        exact (hkeep (hget ▸ hgood)).trans hget

end lastWrite

end Concurrency
