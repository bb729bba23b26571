import Mathlib.Data.List.Forall2

/-!
# Programs as trees of calls

A request handler is modelled as the tree of calls it makes to its
surroundings: each node names a call and branches on the answer. The tree says
nothing about what the calls do, so one program can be run atomically,
interleaved with others, or with each call expanded into smaller calls.

## Main definitions

- `Prog` — call trees with results and errors
- `Prog.interp` — replace every call by a program over other calls
- `Prog.runWith` — run a tree uninterrupted against a state
- `Prog.Runs` — the uninterrupted runs of a tree whose calls depend on choices
- `Prog.All` — a property of every call
- `Prog.Gives` — a property of every result
- `Prog.Sat` — a program logic over the history of calls already made
-/

namespace Concurrency

/-- A program that makes calls `e : E`, receives answers in `R e`, and ends with
    a result in `α` or an error in `ε`. -/
inductive Prog (E : Type) (R : E → Type) (ε α : Type) where
  | ret (a : α)
  | fail (e : ε)
  | call (e : E) (k : R e → Prog E R ε α)

/-- A call together with the answer it got. -/
abbrev Event {E : Type} (R : E → Type) := (e : E) × R e

namespace Prog

variable {E : Type} {R : E → Type} {ε α β : Type}

/-- Sequential composition. -/
def bind : Prog E R ε α → (α → Prog E R ε β) → Prog E R ε β
  | .ret a, f => f a
  | .fail e, _ => .fail e
  | .call e k, f => .call e fun r => (k r).bind f

instance : Monad (Prog E R ε) where
  pure := .ret
  bind := .bind

/-- Handle an error. -/
def tryCatch : Prog E R ε α → (ε → Prog E R ε α) → Prog E R ε α
  | .ret a, _ => .ret a
  | .fail e, f => f e
  | .call e k, f => .call e fun r => (k r).tryCatch f

instance : MonadExceptOf ε (Prog E R ε) where
  throw := .fail
  tryCatch := .tryCatch

/-- Run a program only under a condition. -/
def when (c : Prop) [Decidable c] (p : Prog E R ε Unit) : Prog E R ε Unit :=
  if c then p else .ret ()

/-- End with an error under a condition. -/
def failIf (c : Prop) [Decidable c] (e : ε) : Prog E R ε Unit := when c (.fail e)

/-- Translate the errors of a program. -/
def mapError {ε' : Type} (f : ε → ε') : Prog E R ε α → Prog E R ε' α
  | .ret a => .ret a
  | .fail e => .fail (f e)
  | .call e k => .call e fun r => (k r).mapError f

/-- Run a program and return how it ended. -/
def attempt {ε' : Type} : Prog E R ε α → Prog E R ε' (Except ε α)
  | .ret a => .ret (.ok a)
  | .fail e => .ret (.error e)
  | .call e k => .call e fun r => (k r).attempt

/-- A computation that makes no call. -/
def ofExcept : Except ε α → Prog E R ε α
  | .ok a => .ret a
  | .error e => .fail e

/-- Run a program for each element of a list, in order. -/
def traverse (f : α → Prog E R ε β) : List α → Prog E R ε (List β)
  | [] => .ret []
  | a :: as => do
    let b ← f a
    let bs ← traverse f as
    return b :: bs

/-- Make one call and return its answer. -/
def perform (e : E) : Prog E R ε (R e) := .call e .ret

@[simp] theorem pure_eq (a : α) : (pure a : Prog E R ε α) = .ret a := rfl

@[simp] theorem throw_eq (e : ε) : (throw e : Prog E R ε α) = .fail e := rfl

@[simp] theorem ret_bind (a : α) (f : α → Prog E R ε β) : (Prog.ret a >>= f) = f a := rfl

@[simp] theorem fail_bind (e : ε) (f : α → Prog E R ε β) :
    ((.fail e : Prog E R ε α) >>= f) = .fail e := rfl

@[simp] theorem call_bind (e : E) (k : R e → Prog E R ε α) (f : α → Prog E R ε β) :
    (Prog.call e k >>= f) = .call e fun r => k r >>= f := rfl

@[simp] theorem perform_bind (e : E) (f : R e → Prog E R ε β) :
    (perform e >>= f) = .call e f := rfl

theorem bind_assoc {γ : Type} (p : Prog E R ε α) (f : α → Prog E R ε β) (g : β → Prog E R ε γ) :
    (p >>= f) >>= g = p >>= fun a => f a >>= g := by
  induction p with
  | ret a => rfl
  | fail e => rfl
  | call e k ih => exact congrArg (Prog.call e) (funext ih)

theorem bind_ret (p : Prog E R ε α) : p >>= .ret = p := by
  induction p with
  | ret a => rfl
  | fail e => rfl
  | call e k ih => exact congrArg (Prog.call e) (funext ih)

/-- A computation of two parts that succeeds succeeds in each. -/
theorem except_bind_eq_ok {x : Except ε α} {f : α → Except ε β} {b : β} :
    (x >>= f) = .ok b ↔ ∃ a, x = .ok a ∧ f a = .ok b := by
  cases x <;> simp [Bind.bind, Except.bind]

theorem except_map_eq_ok {x : Except ε α} {f : α → β} {b : β} :
    x.map f = .ok b ↔ ∃ a, x = .ok a ∧ f a = b := by
  cases x <;> simp [Except.map]

/-- A preorder that every step of a loop respects holds between its start and
    its end. -/
theorem foldlM_rel {σ : Type} {f : σ → α → Except ε σ} (Rel : σ → σ → Prop) (hrefl : ∀ s, Rel s s)
    (htrans : ∀ a b c, Rel a b → Rel b c → Rel a c) {l : List α}
    (hstep : ∀ a ∈ l, ∀ s s', f s a = .ok s' → Rel s s') {s s' : σ}
    (h : l.foldlM f s = .ok s') : Rel s s' := by
  induction l generalizing s with
  | nil =>
    cases h
    exact hrefl _
  | cons a l ih =>
    rw [List.foldlM_cons, except_bind_eq_ok] at h
    obtain ⟨s₁, ha, h⟩ := h
    exact htrans _ _ _ (hstep a (by simp) _ _ ha) (ih (fun b hb => hstep b (by simp [hb])) h)

/-- A loop whose steps follow a specification follows its fold. -/
theorem foldlM_refines {σ τ : Type} {f : σ → α → Except ε σ} {spec : τ → α → τ}
    (Rel : σ → τ → Prop) {l : List α}
    (hstep : ∀ a ∈ l, ∀ s t s', Rel s t → f s a = .ok s' → Rel s' (spec t a)) {s s' : σ} {t : τ}
    (hrel : Rel s t) (h : l.foldlM f s = .ok s') : Rel s' (l.foldl spec t) := by
  induction l generalizing s t with
  | nil =>
    cases h
    exact hrel
  | cons a l ih =>
    rw [List.foldlM_cons, except_bind_eq_ok] at h
    obtain ⟨s₁, ha, h⟩ := h
    exact ih (fun b hb => hstep b (by simp [hb])) (hstep a (by simp) s t s₁ hrel ha) h

/-- Run a program over `E` by running a program over `E'` for each of its calls. -/
def interp {E' : Type} {R' : E' → Type} (h : (e : E) → Prog E' R' ε (R e)) :
    Prog E R ε α → Prog E' R' ε α
  | .ret a => .ret a
  | .fail e => .fail e
  | .call e k => (h e).bind fun r => (k r).interp h

/-- Run a program to its end against a state, with nothing in between its calls. -/
def runWith {S : Type} (h : (e : E) → S → Except ε (R e × S)) :
    Prog E R ε α → S → Except ε (α × S)
  | .ret a, s => .ok (a, s)
  | .fail e, _ => .error e
  | .call e k, s => match h e s with
    | .ok (r, s') => (k r).runWith h s'
    | .error err => .error err

theorem runWith_bind {S : Type} (h : (e : E) → S → Except ε (R e × S)) (p : Prog E R ε α)
    (f : α → Prog E R ε β) (s : S) :
    (p >>= f).runWith h s = match p.runWith h s with
      | .ok (a, s') => (f a).runWith h s'
      | .error err => .error err := by
  induction p generalizing s with
  | ret a => rfl
  | fail e => rfl
  | call e k ih =>
    rw [call_bind]
    simp only [runWith]
    cases h e s with
    | ok x => exact ih x.1 x.2
    | error err => rfl

theorem interp_bind {E' : Type} {R' : E' → Type} (h : (e : E) → Prog E' R' ε (R e))
    (p : Prog E R ε α) (f : α → Prog E R ε β) :
    (p >>= f).interp h = p.interp h >>= fun a => (f a).interp h := by
  induction p with
  | ret a => rfl
  | fail e => rfl
  | call e k ih =>
    rw [call_bind]
    simp only [interp, ih]
    exact (bind_assoc (h e) _ _).symm

theorem interp_ofExcept {E' : Type} {R' : E' → Type} (h : (e : E) → Prog E' R' ε (R e))
    (x : Except ε α) : (ofExcept x : Prog E R ε α).interp h = ofExcept x := by
  cases x <;> rfl

/-- Every result of the program has the property, whatever the answers. -/
def Gives (Q : α → Prop) : Prog E R ε α → Prop
  | .ret a => Q a
  | .fail _ => True
  | .call _ k => ∀ r, (k r).Gives Q

theorem gives_ret {Q : α → Prop} (a : α) :
    (Prog.ret a : Prog E R ε α).Gives Q ↔ Q a := Iff.rfl

theorem gives_call {Q : α → Prop} (e : E) (k : R e → Prog E R ε α) :
    (Prog.call e k).Gives Q ↔ ∀ r, (k r).Gives Q := Iff.rfl

theorem Gives.ret {Q : α → Prop} {a : α} (h : Q a) : (Prog.ret a : Prog E R ε α).Gives Q := h

theorem Gives.fail {Q : α → Prop} (e : ε) : (Prog.fail e : Prog E R ε α).Gives Q := True.intro

theorem Gives.trivial (p : Prog E R ε α) : p.Gives fun _ => True := by
  induction p with
  | ret a => exact True.intro
  | fail e => exact True.intro
  | call e k ih => exact ih

theorem Gives.mono {Q Q' : α → Prop} {p : Prog E R ε α} (hp : p.Gives Q) (h : ∀ a, Q a → Q' a) :
    p.Gives Q' := by
  induction p with
  | ret a => exact h a hp
  | fail e => exact True.intro
  | call e k ih => exact fun r => ih r (hp r)

theorem Gives.bind {Q : α → Prop} {Q' : β → Prop} {p : Prog E R ε α} {f : α → Prog E R ε β}
    (hp : p.Gives Q) (hf : ∀ a, Q a → (f a).Gives Q') : (p >>= f).Gives Q' := by
  induction p with
  | ret a => exact hf a hp
  | fail e => exact True.intro
  | call e k ih => exact fun r => ih r (hp r)

/-- What the last part of a program gives. -/
theorem Gives.last {Q : β → Prop} {p : Prog E R ε α} {f : α → Prog E R ε β}
    (hf : ∀ a, (f a).Gives Q) : (p >>= f).Gives Q := (Gives.trivial p).bind fun a _ => hf a

theorem Gives.attempt {ε' : Type} {Q : α → Prop} {p : Prog E R ε α} (hp : p.Gives Q) :
    (p.attempt : Prog E R ε' (Except ε α)).Gives fun o => ∀ a, o = .ok a → Q a := by
  induction p with
  | ret a =>
    rintro b h
    cases h
    exact hp
  | fail e => exact fun a => nofun
  | call e k ih => exact fun r => ih r (hp r)

/-- A program of which only results with the property matter may be followed by
    any program that agrees on those. -/
theorem Gives.bind_congr {Q : α → Prop} {p : Prog E R ε α} {f g : α → Prog E R ε β}
    (hp : p.Gives Q) (h : ∀ a, Q a → f a = g a) : p >>= f = p >>= g := by
  induction p with
  | ret a => exact h a hp
  | fail e => rfl
  | call e k ih => exact congrArg (Prog.call e) (funext fun r => ih r (hp r))

theorem Gives.runWith {Q : α → Prop} {p : Prog E R ε α} (hp : p.Gives Q) {S : Type}
    {h : (e : E) → S → Except ε (R e × S)} {s s' : S} {a : α}
    (hrun : p.runWith h s = .ok (a, s')) : Q a := by
  induction p generalizing s with
  | ret b =>
    cases hrun
    exact hp
  | fail e => cases hrun
  | call e k ih =>
    simp only [Prog.runWith] at hrun
    split at hrun
    · exact ih _ (hp _) hrun
    · cases hrun

-- results are looked for with these rules, not by running the program
attribute [irreducible] Gives

-- ════════════════════════════════════════════════════════════════════════
-- Uninterrupted runs
-- ════════════════════════════════════════════════════════════════════════

section runs

variable {W C : Type} (exec : (e : E) → C → W → Option (R e × W))

/-- Run a program to its end, with nothing in between its calls and one choice
    for each of them. -/
def play : List C → Prog E R ε α → W → Option (Except ε α × W)
  | _, .ret a, w => some (.ok a, w)
  | _, .fail e, w => some (.error e, w)
  | [], .call _ _, _ => none
  | c :: cs, .call e k, w => (exec e c w).bind fun x => play cs (k x.1) x.2

/-- Started in `w`, the program can end with outcome `o` in `w'`. -/
def Runs (p : Prog E R ε α) (w : W) (o : Except ε α) (w' : W) : Prop :=
  ∃ cs, play exec cs p w = some (o, w')

variable {exec} {w w' : W} {o : Except ε α}

@[simp] theorem runs_ret {a : α} :
    (Prog.ret a : Prog E R ε α).Runs exec w o w' ↔ o = .ok a ∧ w' = w := by
  simp [Runs, play, eq_comm]

@[simp] theorem runs_fail {e : ε} :
    (Prog.fail e : Prog E R ε α).Runs exec w o w' ↔ o = .error e ∧ w' = w := by
  simp [Runs, play, eq_comm]

theorem runs_call {e : E} {k : R e → Prog E R ε α} :
    (Prog.call e k).Runs exec w o w' ↔
      ∃ c r w₁, exec e c w = some (r, w₁) ∧ (k r).Runs exec w₁ o w' := by
  constructor
  · rintro ⟨_ | ⟨c, cs⟩, h⟩
    · cases h
    · obtain ⟨⟨r, w₁⟩, hx, h⟩ := Option.bind_eq_some_iff.mp h
      exact ⟨c, r, w₁, hx, cs, h⟩
  · rintro ⟨c, r, w₁, hx, cs, h⟩
    exact ⟨c :: cs, by simp [play, hx, h]⟩

theorem runs_perform {e : E} {o : Except ε (R e)} :
    (Prog.perform e : Prog E R ε (R e)).Runs exec w o w' ↔
      ∃ c r, exec e c w = some (r, w') ∧ o = .ok r := by
  simp only [Prog.perform, runs_call, runs_ret]
  grind

/-- **Sequence rule**: a run of two parts is a run of the first and, unless that
    failed, a run of the second. -/
theorem runs_bind {p : Prog E R ε β} {f : β → Prog E R ε α} :
    (p >>= f).Runs exec w o w' ↔
      (∃ b w₁, p.Runs exec w (.ok b) w₁ ∧ (f b).Runs exec w₁ o w') ∨
        ∃ e, o = .error e ∧ p.Runs exec w (.error e) w' := by
  induction p generalizing w with
  | ret b => simp [and_assoc]
  | fail e =>
    simp only [fail_bind, runs_fail]
    grind
  | call e k ih =>
    rw [call_bind]
    simp only [runs_call, ih]
    grind

/-- A run is one under any semantics that allows all its calls. -/
theorem Runs.mono {exec' : (e : E) → C → W → Option (R e × W)} {p : Prog E R ε α}
    (h : p.Runs exec w o w') (hx : ∀ e c w x, exec e c w = some x → exec' e c w = some x) :
    p.Runs exec' w o w' := by
  induction p generalizing w with
  | ret a => exact runs_ret.mpr (runs_ret.mp h)
  | fail e => exact runs_fail.mpr (runs_fail.mp h)
  | call e k ih =>
    obtain ⟨c, r, w₁, he, hk⟩ := runs_call.mp h
    exact runs_call.mpr ⟨c, r, w₁, hx e c w _ he, ih r hk⟩

/-- A run of two parts that succeeds is a run of each. -/
theorem runs_bind_ok {p : Prog E R ε β} {f : β → Prog E R ε α} {a : α} :
    (p >>= f).Runs exec w (.ok a) w' ↔
      ∃ b w₁, p.Runs exec w (.ok b) w₁ ∧ (f b).Runs exec w₁ (.ok a) w' := by
  simp [runs_bind]

theorem runs_when {c : Prop} [Decidable c] {p : Prog E R ε Unit} {o : Except ε Unit} :
    (Prog.when c p).Runs exec w o w' ↔
      (c ∧ p.Runs exec w o w') ∨ (¬c ∧ o = .ok () ∧ w' = w) := by
  unfold Prog.when
  split <;> simp [*]

theorem runs_failIf {c : Prop} [Decidable c] {e : ε} {o : Except ε Unit} :
    (Prog.failIf c e : Prog E R ε Unit).Runs exec w o w' ↔
      (c ∧ o = .error e ∧ w' = w) ∨ (¬c ∧ o = .ok () ∧ w' = w) := by
  rw [Prog.failIf, runs_when, runs_fail]

theorem runs_mapError {ε' : Type} {f : ε → ε'} {p : Prog E R ε α} {o : Except ε' α} :
    (p.mapError f).Runs exec w o w' ↔ ∃ o', p.Runs exec w o' w' ∧ o = o'.mapError f := by
  induction p generalizing w with
  | ret a =>
    simp only [mapError, runs_ret]
    grind [Except.mapError]
  | fail e =>
    simp only [mapError, runs_fail]
    grind [Except.mapError]
  | call e k ih =>
    simp only [mapError, runs_call, ih]
    grind

theorem runs_mapError_ok {ε' : Type} {f : ε → ε'} {p : Prog E R ε α} {a : α} :
    (p.mapError f).Runs exec w (.ok a) w' ↔ p.Runs exec w (.ok a) w' := by
  rw [runs_mapError]
  constructor
  · rintro ⟨o' | o', h, ho⟩
    · cases ho
    · cases ho
      exact h
  · exact fun h => ⟨_, h, rfl⟩

theorem runs_attempt {ε' : Type} {p : Prog E R ε α} {o : Except ε' (Except ε α)} :
    (p.attempt).Runs exec w o w' ↔ ∃ o', o = .ok o' ∧ p.Runs exec w o' w' := by
  induction p generalizing w with
  | ret a =>
    simp only [attempt, runs_ret]
    grind
  | fail e =>
    simp only [attempt, runs_ret, runs_fail]
    grind
  | call e k ih =>
    simp only [attempt, runs_call, ih]
    grind

@[simp] theorem runs_ofExcept {x : Except ε α} :
    (ofExcept x : Prog E R ε α).Runs exec w o w' ↔ o = x ∧ w' = w := by
  cases x <;> simp [ofExcept]

/-- What each element's run ensures, for a whole list. -/
theorem runs_traverse_ok {f : α → Prog E R ε β} {S : α → β → Prop} {as : List α} {bs : List β}
    (hf : ∀ a b w w', (f a).Runs exec w (.ok b) w' → S a b)
    (h : (traverse f as).Runs exec w (.ok bs) w') : List.Forall₂ S as bs := by
  induction as generalizing bs w w' with
  | nil =>
    obtain ⟨hb, -⟩ := runs_ret.mp h
    cases hb
    exact .nil
  | cons a as ih =>
    obtain ⟨b, w₁, ha, hrest⟩ := runs_bind_ok.mp h
    obtain ⟨bs', w₂, has, hrest⟩ := runs_bind_ok.mp hrest
    obtain ⟨hb, -⟩ := runs_ret.mp hrest
    cases hb
    exact .cons (hf a b _ _ ha) (ih has)

end runs

-- ════════════════════════════════════════════════════════════════════════
-- Properties of every call
-- ════════════════════════════════════════════════════════════════════════

/-- Every call of the program has the property, whatever the answers. -/
def All (P : E → Prop) : Prog E R ε α → Prop
  | .ret _ => True
  | .fail _ => True
  | .call e k => P e ∧ ∀ r, (k r).All P

namespace All

variable {P : E → Prop}

theorem ret (a : α) : (Prog.ret a : Prog E R ε α).All P := True.intro

theorem fail (e : ε) : (Prog.fail e : Prog E R ε α).All P := True.intro

theorem trivial (p : Prog E R ε α) : p.All fun _ => True := by
  induction p with
  | ret a => exact True.intro
  | fail e => exact True.intro
  | call e k ih => exact ⟨True.intro, ih⟩

theorem perform {e : E} (h : P e) : (Prog.perform e : Prog E R ε (R e)).All P :=
  ⟨h, fun _ => True.intro⟩

theorem bind {p : Prog E R ε α} {f : α → Prog E R ε β} (hp : p.All P) (hf : ∀ a, (f a).All P) :
    (p >>= f).All P := by
  induction p with
  | ret a => exact hf a
  | fail e => exact True.intro
  | call e k ih => exact ⟨hp.1, fun r => ih r (hp.2 r)⟩

theorem mono {P' : E → Prop} {p : Prog E R ε α} (hp : p.All P) (h : ∀ e, P e → P' e) :
    p.All P' := by
  induction p with
  | ret a => exact True.intro
  | fail e => exact True.intro
  | call e k ih => exact ⟨h e hp.1, fun r => ih r (hp.2 r)⟩

theorem when {c : Prop} [Decidable c] {p : Prog E R ε Unit} (hp : p.All P) :
    (Prog.when c p).All P := by
  unfold Prog.when
  split
  · exact hp
  · exact True.intro

theorem mapError {ε' : Type} {f : ε → ε'} {p : Prog E R ε α} (hp : p.All P) :
    (p.mapError f).All P := by
  induction p with
  | ret a => exact True.intro
  | fail e => exact True.intro
  | call e k ih => exact ⟨hp.1, fun r => ih r (hp.2 r)⟩

theorem tryCatch {p : Prog E R ε α} {f : ε → Prog E R ε α} (hp : p.All P) (hf : ∀ e, (f e).All P) :
    (p.tryCatch f).All P := by
  induction p with
  | ret a => exact True.intro
  | fail e => exact hf e
  | call e k ih => exact ⟨hp.1, fun r => ih r (hp.2 r)⟩

theorem attempt {ε' : Type} {p : Prog E R ε α} (hp : p.All P) :
    (p.attempt : Prog E R ε' (Except ε α)).All P := by
  induction p with
  | ret a => exact True.intro
  | fail e => exact True.intro
  | call e k ih => exact ⟨hp.1, fun r => ih r (hp.2 r)⟩

theorem ofExcept (x : Except ε α) : (Prog.ofExcept x : Prog E R ε α).All P := by
  cases x <;> exact True.intro

theorem traverse {f : α → Prog E R ε β} (hf : ∀ a, (f a).All P) (as : List α) :
    (Prog.traverse f as).All P := by
  induction as with
  | nil => exact True.intro
  | cons a as ih => exact .bind (hf a) fun _ => .bind ih fun _ => .ret _

/-- A preorder that every admissible call respects holds between the start and
    the end of a run. -/
theorem runs_rel {W C : Type} {exec : (e : E) → C → W → Option (R e × W)} {p : Prog E R ε α}
    (hp : p.All P) (Rel : W → W → Prop) (hrefl : ∀ w, Rel w w) (htrans : ∀ a b c, Rel a b → Rel b c → Rel a c)
    (hstep : ∀ e c w r w', P e → exec e c w = some (r, w') → Rel w w') {w w' : W}
    {o : Except ε α} (hr : p.Runs exec w o w') : Rel w w' := by
  induction p generalizing w with
  | ret a =>
    obtain ⟨-, rfl⟩ := runs_ret.mp hr
    exact hrefl _
  | fail e =>
    obtain ⟨-, rfl⟩ := runs_fail.mp hr
    exact hrefl _
  | call e k ih =>
    obtain ⟨c, r, w₁, hx, hr⟩ := runs_call.mp hr
    exact htrans _ _ _ (hstep _ _ _ _ _ hp.1 hx) (ih r (hp.2 r) hr)

end All

-- ════════════════════════════════════════════════════════════════════════
-- A logic over the calls already made
-- ════════════════════════════════════════════════════════════════════════

/-- Every call of the program meets `pre` given the calls made before it, and
    every end meets `post`. Histories are newest first, and nothing is assumed
    about the answers. -/
def Sat (pre : List (Event R) → E → Prop) (post : List (Event R) → Except ε α → Prop) :
    List (Event R) → Prog E R ε α → Prop
  | h, .ret a => post h (.ok a)
  | h, .fail e => post h (.error e)
  | h, .call e k => pre h e ∧ ∀ r, (k r).Sat pre post (⟨e, r⟩ :: h)

variable {pre : List (Event R) → E → Prop} {post : List (Event R) → Except ε α → Prop}
  {h : List (Event R)}

@[simp] theorem sat_ret (a : α) : (Prog.ret a).Sat pre post h ↔ post h (.ok a) := Iff.rfl

@[simp] theorem sat_fail (e : ε) : (Prog.fail e).Sat pre post h ↔ post h (.error e) := Iff.rfl

@[simp] theorem sat_call (e : E) (k : R e → Prog E R ε α) :
    (Prog.call e k).Sat pre post h ↔ pre h e ∧ ∀ r, (k r).Sat pre post (⟨e, r⟩ :: h) := Iff.rfl

theorem sat_perform_bind {e : E} {f : R e → Prog E R ε α} :
    (perform e >>= f).Sat pre post h ↔ pre h e ∧ ∀ r, (f r).Sat pre post (⟨e, r⟩ :: h) := Iff.rfl

/-- A property of every call, as a specification. -/
theorem Sat.of_all {Q : E → Prop} {p : Prog E R ε α} (hp : p.All Q) :
    p.Sat (fun _ e => Q e) (fun _ _ => True) h := by
  induction p generalizing h with
  | ret a => exact True.intro
  | fail e => exact True.intro
  | call e k ih => exact ⟨hp.1, fun r => ih r (hp.2 r)⟩

/-- What a specification says of each call alone. -/
theorem Sat.all {Q : E → Prop} {p : Prog E R ε α} (hp : p.Sat pre post h)
    (hQ : ∀ h e, pre h e → Q e) : p.All Q := by
  induction p generalizing h with
  | ret a => exact True.intro
  | fail e => exact True.intro
  | call e k ih => exact ⟨hQ _ _ hp.1, fun r => ih r (hp.2 r)⟩

theorem Sat.trivial (p : Prog E R ε α) : p.Sat (fun _ _ => True) (fun _ _ => True) h := by
  induction p generalizing h with
  | ret a => exact True.intro
  | fail e => exact True.intro
  | call e k ih => exact ⟨True.intro, fun r => ih r⟩

/-- **Consequence rule**: weaken what is shown of calls and ends. -/
theorem Sat.mono {pre' : List (Event R) → E → Prop} {post' : List (Event R) → Except ε α → Prop}
    {p : Prog E R ε α} (hp : p.Sat pre post h) (hpre : ∀ h e, pre h e → pre' h e)
    (hpost : ∀ h o, post h o → post' h o) : p.Sat pre' post' h := by
  induction p generalizing h with
  | ret a => exact hpost _ _ hp
  | fail e => exact hpost _ _ hp
  | call e k ih => exact ⟨hpre _ _ hp.1, fun r => ih r (hp.2 r)⟩

/-- **Sequence rule**: the continuation is verified from whatever the first
    program ensures. -/
theorem Sat.bind {p : Prog E R ε α} {f : α → Prog E R ε β}
    {post' : List (Event R) → Except ε β → Prop} (hp : p.Sat pre post h)
    (hok : ∀ h a, post h (.ok a) → (f a).Sat pre post' h)
    (herr : ∀ h e, post h (.error e) → post' h (.error e)) : (p >>= f).Sat pre post' h := by
  induction p generalizing h with
  | ret a => exact hok _ _ hp
  | fail e => exact herr _ _ hp
  | call e k ih => exact ⟨hp.1, fun r => ih r (hp.2 r)⟩

/-- **Skip rule**: of a program all of whose calls have `Q` and that ensures `known`,
    only these are known of the history it adds. -/
theorem Sat.known_bind {Q : E → Prop} {known : List (Event R) → Except ε α → Prop}
    {p : Prog E R ε α} {f : α → Prog E R ε β} {post' : List (Event R) → Except ε β → Prop}
    (hp : p.All Q) (hk : p.Sat (fun _ _ => True) known h)
    (hpre : ∀ l e, (∀ ev ∈ l, Q ev.1) → Q e → pre (l ++ h) e)
    (hok : ∀ l a, (∀ ev ∈ l, Q ev.1) → known (l ++ h) (.ok a) → (f a).Sat pre post' (l ++ h))
    (herr : ∀ l e, (∀ ev ∈ l, Q ev.1) → known (l ++ h) (.error e) → post' (l ++ h) (.error e)) :
    (p >>= f).Sat pre post' h := by
  suffices ∀ l, (∀ ev ∈ l, Q ev.1) → p.Sat (fun _ _ => True) known (l ++ h) →
      (p >>= f).Sat pre post' (l ++ h) from this [] (by simp) hk
  clear hk
  intro l hl hk
  induction p generalizing l with
  | ret a => exact hok l a hl hk
  | fail e => exact herr l e hl hk
  | call e k ih =>
    refine ⟨hpre l e hl hp.1, fun r => ih r (hp.2 r) (⟨e, r⟩ :: l) ?_ (hk.2 r)⟩
    simpa using ⟨hp.1, hl⟩

theorem Sat.skip_bind {Q : E → Prop} {p : Prog E R ε α} {f : α → Prog E R ε β}
    {post' : List (Event R) → Except ε β → Prop} (hp : p.All Q)
    (hpre : ∀ l e, (∀ ev ∈ l, Q ev.1) → Q e → pre (l ++ h) e)
    (hok : ∀ l a, (∀ ev ∈ l, Q ev.1) → (f a).Sat pre post' (l ++ h))
    (herr : ∀ l e, (∀ ev ∈ l, Q ev.1) → post' (l ++ h) (.error e)) :
    (p >>= f).Sat pre post' h :=
  known_bind hp (Sat.trivial p) hpre (fun l a hl _ => hok l a hl) fun l e hl _ => herr l e hl

/-- **Handler rule**: an error is followed by its handler. -/
theorem Sat.tryCatch {p : Prog E R ε α} {f : ε → Prog E R ε α}
    {post' : List (Event R) → Except ε α → Prop} (hp : p.Sat pre post h)
    (hok : ∀ h a, post h (.ok a) → post' h (.ok a))
    (herr : ∀ h e, post h (.error e) → (f e).Sat pre post' h) :
    (p.tryCatch f).Sat pre post' h := by
  induction p generalizing h with
  | ret a => exact hok _ _ hp
  | fail e => exact herr _ _ hp
  | call e k ih => exact ⟨hp.1, fun r => ih r (hp.2 r)⟩

/-- **Frame rule**: the history from before a program is still there after it. -/
theorem Sat.subset {p : Prog E R ε α} (hp : p.Sat pre post h) :
    p.Sat pre (fun h' o => h ⊆ h' ∧ post h' o) h := by
  suffices ∀ l, p.Sat pre post (l ++ h) →
      p.Sat pre (fun h' o => h ⊆ h' ∧ post h' o) (l ++ h) from this [] hp
  clear hp
  intro l hp
  induction p generalizing l with
  | ret a => exact ⟨List.subset_append_right l h, hp⟩
  | fail e => exact ⟨List.subset_append_right l h, hp⟩
  | call e k ih => exact ⟨hp.1, fun r => ih r (⟨e, r⟩ :: l) (hp.2 r)⟩

/-- Translating errors changes only the error that ends a program. -/
theorem Sat.mapError {ε' : Type} {f : ε → ε'} {p : Prog E R ε α}
    {post' : List (Event R) → Except ε' α → Prop} (hp : p.Sat pre post h)
    (hok : ∀ h a, post h (.ok a) → post' h (.ok a))
    (herr : ∀ h e, post h (.error e) → post' h (.error (f e))) :
    (p.mapError f).Sat pre post' h := by
  induction p generalizing h with
  | ret a => exact hok _ _ hp
  | fail e => exact herr _ _ hp
  | call e k ih => exact ⟨hp.1, fun r => ih r (hp.2 r)⟩

theorem sat_when_bind {c : Prop} [Decidable c] {p : Prog E R ε Unit} {f : Unit → Prog E R ε α}
    (hc : c → (p >>= f).Sat pre post h) (hn : ¬c → (f ()).Sat pre post h) :
    (when c p >>= f).Sat pre post h := by
  unfold when
  split
  · exact hc ‹_›
  · exact hn ‹_›

/-- Every call of the history was admissible when it was made. -/
def Admissible (pre : List (Event R) → E → Prop) : List (Event R) → Prop
  | [] => True
  | ev :: h => pre h ev.1 ∧ Admissible pre h

/-- **History rule**: the calls already made may be assumed to have been
    admissible. -/
theorem Sat.admissible {p : Prog E R ε α} (hp : p.Sat pre post h) (hh : Admissible pre h) :
    p.Sat (fun h e => Admissible pre h ∧ pre h e) (fun h o => Admissible pre h ∧ post h o) h := by
  induction p generalizing h with
  | ret a => exact ⟨hh, hp⟩
  | fail e => exact ⟨hh, hp⟩
  | call e k ih => exact ⟨⟨hh, hp.1⟩, fun r => ih r (hp.2 r) ⟨hp.1, hh⟩⟩

/-- **Run rule**: an invariant of state and history that every admissible call
    preserves holds at the end of a run, next to what the program ensures. -/
theorem Sat.runs {W C : Type} {exec : (e : E) → C → W → Option (R e × W)} {p : Prog E R ε α}
    (I : W → List (Event R) → Prop)
    (hstep : ∀ h e c w r w', I w h → pre h e → exec e c w = some (r, w') → I w' (⟨e, r⟩ :: h))
    (hp : p.Sat pre post h) {w w' : W} {o : Except ε α} (hI : I w h) (hr : p.Runs exec w o w') :
    ∃ h', I w' h' ∧ post h' o := by
  induction p generalizing w h with
  | ret a =>
    obtain ⟨rfl, rfl⟩ := runs_ret.mp hr
    exact ⟨h, hI, hp⟩
  | fail e =>
    obtain ⟨rfl, rfl⟩ := runs_fail.mp hr
    exact ⟨h, hI, hp⟩
  | call e k ih =>
    obtain ⟨c, r, w₁, hx, hr⟩ := runs_call.mp hr
    exact ih r (hp.2 r) (hstep _ _ _ _ _ _ hI hp.1 hx) hr

end Prog

end Concurrency
