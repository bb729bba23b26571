import CairnId.Database.Evolution
import CairnId.Http.App

/-!
# Handlers before their first write

Every handler reads and checks before it writes. A history is quiet while only
reads, the clock and random sources have been called; the rules below carry a
specification through such a part of a handler.
-/

namespace CairnId

open Concurrency Prog

abbrev Ev := Event Call.Answer

/-- The calls that leave the store alone. -/
def Call.isQuiet : Call → Bool
  | .db c => c.isQuery
  | _ => true

/-- Nothing has been written yet. -/
def Quiet (h : List Ev) : Prop := ∀ ev ∈ h, ev.1.isQuiet = true

@[simp] theorem quiet_nil : Quiet [] := by simp [Quiet]

@[simp] theorem quiet_cons {ev : Ev} {h : List Ev} :
    Quiet (ev :: h) ↔ ev.1.isQuiet = true ∧ Quiet h := by simp [Quiet]

@[simp] theorem quiet_append {l h : List Ev} : Quiet (l ++ h) ↔ Quiet l ∧ Quiet h := by
  simp [Quiet, or_imp, forall_and]

/-- What a call does to the world. -/
theorem Call.exec_db {P : Primitives} {c : DbCall} {ch : Choice} {w w' : World}
    {r : Except DatabaseError c.Result} (h : Call.exec P (.db c) ch w = some (r, w')) :
    w'.clock = w.clock ∧ w'.uuids = w.uuids ∧
      ((r = .error (.sqlx .connection) ∧ w'.store = w.store) ∨ c.exec w.store = (r, w'.store)) := by
  simp only [Call.exec] at h
  split at h
  · cases h
    exact ⟨rfl, rfl, .inl ⟨rfl, rfl⟩⟩
  · cases h
    exact ⟨rfl, rfl, .inr rfl⟩

/-- A database call of a run that did not fail. -/
theorem App.runs_db_ok {P : Primitives} {c : DbCall} {a : c.Result} {w w' : World}
    (h : (App.db c).Runs (Call.exec P) w (.ok a) w') : c.exec w.store = (.ok a, w'.store) := by
  obtain ⟨ch, r, w₁, hx, h⟩ := runs_call.mp h
  cases r with
  | error e => simp at h
  | ok b =>
    simp only [runs_ret, Except.ok.injEq] at h
    obtain ⟨rfl, rfl⟩ := h
    obtain ⟨-, -, ⟨h, -⟩ | h⟩ := Call.exec_db hx
    · cases h
    · exact h

/-- A query that the database answers. -/
theorem App.runs_db_of_exec {P : Primitives} {c : DbCall} {a : c.Result} {w : World}
    (h : c.exec w.store = (.ok a, w.store)) : (App.db c).Runs (Call.exec P) w (.ok a) w := by
  refine runs_call.mpr ⟨{}, .ok a, w, ?_, runs_ret.mpr ⟨rfl, rfl⟩⟩
  simp [Call.exec, h]

theorem App.runs_db_reliably {P : Primitives} {c : DbCall} {o : Except ApiError c.Result}
    {w w' : World} (h : (App.db c).Runs (Call.execReliably P) w o w') :
    o = (c.exec w.store).1.mapError ApiError.ofDatabase ∧
      w' = { w with store := (c.exec w.store).2 } := by
  obtain ⟨ch, r, w₁, hx, h⟩ := runs_call.mp h
  simp only [Call.execReliably, Call.exec, Option.ite_none_left_eq_some] at hx
  obtain ⟨hfail, hx⟩ := hx
  rw [if_neg hfail] at hx
  cases hx
  cases hr : (c.exec w.store).1 with
  | error e =>
    rw [hr] at h
    exact runs_fail.mp h
  | ok a =>
    rw [hr] at h
    exact runs_ret.mp h

theorem runs_of_reliably {P : Primitives} {ε α : Type} {p : Prog Call Call.Answer ε α}
    {w w' : World} {o : Except ε α} (h : p.Runs (Call.execReliably P) w o w') :
    p.Runs (Call.exec P) w o w' :=
  h.mono fun e ch w x hx => by
    rw [Call.execReliably, Option.ite_none_left_eq_some] at hx
    exact hx.2

theorem Call.exec_of_isQuiet {P : Primitives} {e : Call} {ch : Choice} {w w' : World}
    {r : e.Answer} (he : e.isQuiet = true) (h : Call.exec P e ch w = some (r, w')) :
    w'.store = w.store := by
  cases e with
  | db c =>
    obtain ⟨-, -, ⟨-, hs⟩ | hs⟩ := exec_db h
    · exact hs
    · rw [← DbCall.exec_of_isQuery he w.store, hs]
  | nowUtc | newV4 | generateSecret | hashPassword | generateNonce | generateRsaKey
  | startPasskeyAuthentication | startPasskeyRegistration =>
    simp only [Call.exec] at h
    grind

theorem Call.exec_clock {P : Primitives} {e : Call} {ch : Choice} {w w' : World}
    {r : e.Answer} (h : Call.exec P e ch w = some (r, w')) : w.clock ≤ w'.clock := by
  cases e with
  | db c => rw [(exec_db h).1]
  | nowUtc | newV4 | generateSecret | hashPassword | generateNonce | generateRsaKey
  | startPasskeyAuthentication | startPasskeyRegistration =>
    simp only [Call.exec] at h
    grind

theorem runs_clock {P : Primitives} {ε α : Type} {p : Prog Call Call.Answer ε α} {w w' : World}
    {o : Except ε α} (h : p.Runs (Call.exec P) w o w') : w.clock ≤ w'.clock :=
  (All.trivial p).runs_rel (fun w w' : World => w.clock ≤ w'.clock) (fun _ => le_refl _)
    (fun _ _ _ => le_trans) (fun _ _ _ _ _ _ hx => Call.exec_clock hx) h

theorem runs_nowUtc {P : Primitives} {ε : Type} {now : OffsetDateTime} {w w' : World}
    (h : (Prog.perform Call.nowUtc : Prog Call Call.Answer ε OffsetDateTime).Runs (Call.exec P) w
      (.ok now) w') : w.clock ≤ now ∧ now = w'.clock := by
  obtain ⟨ch, t, hx, ht⟩ := runs_perform.mp h
  cases ht
  simp only [Call.exec, Option.ite_none_right_eq_some] at hx
  obtain ⟨hle, hx⟩ := hx
  cases hx
  exact ⟨hle, rfl⟩

theorem runs_generateNonce {P : Primitives} {ε : Type} {nonce : Bytes} {w w' : World}
    (h : (Prog.perform Call.generateNonce : Prog Call Call.Answer ε Bytes).Runs (Call.exec P) w
      (.ok nonce) w') : nonce.length = 12 := by
  obtain ⟨ch, n, hx, hn⟩ := runs_perform.mp h
  cases hn
  simp only [Call.exec, Option.ite_none_right_eq_some] at hx
  obtain ⟨hlen, hx⟩ := hx
  cases hx
  exact hlen

/-- The call leaves a table alone. -/
def Call.Leaves (t : Tab) (e : Call) : Prop :=
  ∀ c, e = .db c → ∀ s, (c.exec s).2.tables t = s.tables t

theorem Call.leaves_of_isQuiet {e : Call} (h : e.isQuiet = true) (t : Tab) : e.Leaves t := by
  rintro c rfl s
  rw [DbCall.exec_of_isQuery h]

theorem Call.leaves_of_target {c : DbCall} {t : Tab} (h : c.tx.All fun e => e.target ≠ some t) :
    (Call.db c).Leaves t := by
  rintro _ ⟨⟩ s
  exact Sql.Tx.atomic_frame h rfl

/-- In a run, too. -/
theorem Call.Leaves.exec {P : Primitives} {e : Call} {t : Tab} (h : e.Leaves t) {ch : Choice}
    {w w' : World} {r : e.Answer} (hx : Call.exec P e ch w = some (r, w')) :
    w'.store.tables t = w.store.tables t := by
  cases e with
  | db c =>
    obtain ⟨-, -, ⟨-, hs⟩ | hs⟩ := Call.exec_db hx
    · rw [hs]
    · rw [← h c rfl w.store, hs]
  | _ => rw [Call.exec_of_isQuiet rfl hx]

/-- A table that no call of a run writes. -/
theorem runs_leaves {P : Primitives} {ε α : Type} {p : Prog Call Call.Answer ε α} {t : Tab}
    (hp : p.All (Call.Leaves t)) {w w' : World} {o : Except ε α}
    (h : p.Runs (Call.exec P) w o w') : w'.store.tables t = w.store.tables t :=
  hp.runs_rel (fun w w' : World => w'.store.tables t = w.store.tables t) (fun _ => rfl)
    (fun _ _ _ h h' => h'.trans h) (fun _ _ _ _ _ he hx => he.exec hx) h

theorem runs_uuids {P : Primitives} {ε α : Type} {p : Prog Call Call.Answer ε α} {w w' : World}
    {o : Except ε α} (h : p.Runs (Call.exec P) w o w') : w.uuids ⊆ w'.uuids := by
  refine (All.trivial p).runs_rel (fun w w' : World => w.uuids ⊆ w'.uuids)
    (fun _ => List.Subset.refl _) (fun _ _ _ => List.Subset.trans)
    (fun e ch w r w' _ hx => ?_) h
  cases e with
  | db c => rw [(Call.exec_db hx).2.1]; exact List.Subset.refl _
  | nowUtc | newV4 | generateSecret | hashPassword | generateNonce | generateRsaKey
  | startPasskeyAuthentication | startPasskeyRegistration =>
    simp only [Call.exec] at hx
    grind

/-- A run of quiet calls leaves the store as it was. -/
theorem runs_quiet {P : Primitives} {ε α : Type} {p : Prog Call Call.Answer ε α}
    (hp : p.All fun e => e.isQuiet = true) {w w' : World} {o : Except ε α}
    (h : p.Runs (Call.exec P) w o w') : w'.store = w.store :=
  hp.runs_rel (fun w w' : World => w'.store = w.store) (fun _ => rfl) (fun _ _ _ h h' => h'.trans h)
    (fun _ _ _ _ _ he hx => Call.exec_of_isQuiet he hx) h

section rules

variable {α β : Type} {pre : List Ev → Call → Prop} {post : List Ev → Except ApiError β → Prop}
  {h : List Ev}

/-- A specification that allows quiet calls and quiet failures. -/
structure AllowsQuiet (pre : List Ev → Call → Prop) (post : List Ev → Except ApiError β → Prop) :
    Prop where
  call : ∀ h e, Quiet h → e.isQuiet = true → pre h e
  fail : ∀ h err, Quiet h → post h (.error err)

/-- The program meets the specification after any quiet history `h`. -/
def QuietSat (pre : List Ev → Call → Prop) (post : List Ev → Except ApiError β → Prop)
    (h : List Ev) (p : App β) : Prop := Quiet h → p.Sat pre post h

namespace QuietSat

variable (hs : AllowsQuiet pre post)

include hs

theorem fail (err : ApiError) : QuietSat pre post h (.fail err) := fun hq => hs.fail h err hq

theorem perform {e : Call} {f : e.Answer → App β} (he : e.isQuiet = true)
    (hf : ∀ r, QuietSat pre post (⟨e, r⟩ :: h) (f r)) :
    QuietSat pre post h (Prog.perform e >>= f) :=
  fun hq => ⟨hs.call h e hq he, fun r => hf r (by simpa using ⟨he, hq⟩)⟩

theorem db {c : DbCall} {f : c.Result → App β} (hc : c.isQuery = true)
    (hf : ∀ a, QuietSat pre post (⟨.db c, .ok a⟩ :: h) (f a)) :
    QuietSat pre post h (App.db c >>= f) :=
  fun hq => App.sat_db_bind (hs.call h _ hq hc) (fun a => hf a (by simpa using ⟨hc, hq⟩))
    fun e => hs.fail _ _ (by simpa using ⟨hc, hq⟩)

theorem failIf {c : Prop} [Decidable c] {err : ApiError} {f : Unit → App β}
    (hf : ¬c → QuietSat pre post h (f ())) : QuietSat pre post h (Prog.failIf c err >>= f) :=
  fun hq => sat_when_bind (fun _ => hs.fail h err hq) fun hc => hf hc hq

theorem refuseIf {c : Prop} [Decidable c] {code : Nat} {body : OAuthErrorBody} {f : Unit → App β}
    (hf : ¬c → QuietSat pre post h (f ())) :
    QuietSat pre post h (App.refuseIf c code body >>= f) := failIf hs hf

/-- A part that makes only quiet calls, of whose answers nothing is needed. -/
theorem skip {p : App α} {f : α → App β} (hp : p.All fun e => e.isQuiet = true)
    (hf : ∀ l a, QuietSat pre post (l ++ h) (f a)) : QuietSat pre post h (p >>= f) := by
  intro hq
  have happ : ∀ l : List Ev, (∀ ev ∈ l, ev.1.isQuiet = true) → Quiet (l ++ h) :=
    fun l hl => quiet_append.mpr ⟨hl, hq⟩
  exact Sat.skip_bind hp (fun l e hl he => hs.call _ e (happ l hl) he)
    (fun l a hl => hf l a (happ l hl)) fun l e hl => hs.fail _ e (happ l hl)

end QuietSat

theorem all_app_db {c : DbCall} {Q : Call → Prop} (hc : Q (.db c)) : (App.db c).All Q := by
  refine ⟨hc, fun r => ?_⟩
  cases r <;> trivial

/-- A database call that only reads. -/
theorem App.all_db {c : DbCall} (hc : c.isQuery = true) :
    (App.db c).All fun e => e.isQuiet = true := by
  refine ⟨hc, fun r => ?_⟩
  cases r <;> trivial

theorem App.all_generateHashedSecret (P : Primitives) (n : Nat) :
    (App.generateHashedSecret P n).All fun e => e.isQuiet = true :=
  ⟨rfl, fun _ => ⟨rfl, fun _ => trivial⟩⟩

end rules

end CairnId
