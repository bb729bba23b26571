import CairnId.Http.Quiet

/-!
# Runs of the application

What holds in every run, whatever requests it is made of: identifiers are given
out once, and a row once read is still there, evolved.
-/

namespace CairnId

open Concurrency Concurrency.Sql

/-- Rows of durable tables are still there, evolved. -/
def Kept (db db' : Db) : Prop :=
  ∀ t, evolution.durable t → ∀ r ∈ db t, ∃ r' ∈ db' t, RowStep t r r'

theorem Kept.refl (db : Db) : Kept db db := fun t _ r hr => ⟨r, hr, RowStep.refl t r⟩

theorem Kept.trans {a b c : Db} (h : Kept a b) (h' : Kept b c) : Kept a c := by
  intro t ht r hr
  obtain ⟨r', hr', hs⟩ := h t ht r hr
  obtain ⟨r'', hr'', hs'⟩ := h' t ht r' hr'
  exact ⟨r'', hr'', RowStep.trans t r r' r'' hs hs'⟩

variable {P : Primitives}

/-- Every call moves the store along the evolution. -/
theorem Call.exec_grows {e : Call} {ch : Choice} {w w' : World} {r : e.Answer}
    (h : e.exec P ch w = some (r, w')) :
    w'.store = w.store ∨
      ∃ c, e = .db c ∧ Grows evolution c.inserts w.store.tables w'.store.tables := by
  cases e with
  | db c =>
    obtain ⟨-, -, ⟨-, hs⟩ | hs⟩ := exec_db h
    · exact .inl hs
    · refine .inr ⟨c, rfl, ?_⟩
      have := c.exec_grows w.store
      rwa [hs] at this
  | _ => exact .inl (exec_of_isQuiet rfl h)

theorem Call.exec_kept {e : Call} {ch : Choice} {w w' : World} {r : e.Answer}
    (h : e.exec P ch w = some (r, w')) : Kept w.store.tables w'.store.tables := by
  rcases exec_grows h with hs | ⟨c, -, hg⟩
  · rw [hs]
    exact Kept.refl _
  · exact hg.kept

variable {Q α : Type} {handler : Q → App α} {w₀ : World}
  {p : Pool Call.Answer Q World ApiError α}

/-- The entries of a run with what they were executed in and what became of it. -/
theorem executed (h : (machine P handler).Reachable w₀ p) {x : Entry Call.Answer World}
    (hx : x ∈ p.trace) : ∃ ch w', x.event.1.exec P ch x.before = some (x.event.2, w') ∧
      Kept w'.store.tables p.world.store.tables :=
  h.executed (fun w w' : World => Kept w.store.tables w'.store.tables) (fun _ => Kept.refl _)
    (fun _ _ _ => Kept.trans) (fun _ _ _ _ _ _ h => Call.exec_kept h) hx

/-- Rows that were not there at the start were inserted by a call of the run. -/
theorem exists_inserted (h : (machine P handler).Reachable w₀ p) {t : Tab}
    (ht : evolution.durable t) {r : Row t} (hr : r ∈ p.world.store.tables t) :
    (∃ r₀ ∈ w₀.store.tables t, RowStep t r₀ r) ∨
      ∃ x ∈ p.trace, ∃ c, x.event.1 = .db c ∧ ∃ r₀ ∈ c.inserts t, RowStep t r₀ r := by
  have inv : ∀ r ∈ p.world.store.tables t, (∃ r₀ ∈ w₀.store.tables t, RowStep t r₀ r) ∨
      ∃ x ∈ p.trace, ∃ c, x.event.1 = .db c ∧ ∃ r₀ ∈ c.inserts t, RowStep t r₀ r := by
    refine h.invariant (fun q => Prog.Sat.trivial (handler q))
      (fun w tr => ∀ r ∈ w.store.tables t, (∃ r₀ ∈ w₀.store.tables t, RowStep t r₀ r) ∨
        ∃ x ∈ tr, ∃ c, x.event.1 = .db c ∧ ∃ r₀ ∈ c.inserts t, RowStep t r₀ r)
      (fun r hr => .inl ⟨r, hr, RowStep.refl t r⟩) ?_
    intro p i q e ch a w' _ hinv _ hexec r' hr'
    -- a row that was there before has a source already
    have carry : ∀ r ∈ p.world.store.tables t, RowStep t r r' →
        (∃ r₀ ∈ w₀.store.tables t, RowStep t r₀ r') ∨
          ∃ x ∈ (⟨i, ⟨e, a⟩, p.world⟩ :: p.trace : List (Entry Call.Answer World)),
            ∃ c, x.event.1 = .db c ∧ ∃ r₀ ∈ c.inserts t, RowStep t r₀ r' := by
      intro r hr hs
      rcases hinv r hr with ⟨r₀, hr₀, hs₀⟩ | ⟨x, hx, c, hc, r₀, hr₀, hs₀⟩
      · exact .inl ⟨r₀, hr₀, RowStep.trans t _ _ _ hs₀ hs⟩
      · exact .inr ⟨x, .tail _ hx, c, hc, r₀, hr₀, RowStep.trans t _ _ _ hs₀ hs⟩
    rcases Call.exec_grows hexec with hstore | ⟨c, rfl, hgrows⟩
    · rw [hstore] at hr'
      exact carry r' hr' (RowStep.refl t r')
    · rcases hgrows.origin t ht r' hr' with ⟨r, hr, hs⟩ | ⟨r₀, hr₀, hs⟩
      · exact carry r hr hs
      · exact .inr ⟨_, .head _, c, rfl, r₀, hr₀, hs⟩
  exact inv r hr

/-- An answer of a query came from a store on the way. -/
theorem query_reachable (h : (machine P handler).Reachable w₀ p) {i : ℕ} {c : DbCall}
    {a : c.Result} (hc : c.isQuery = true) (hmem : ⟨.db c, .ok a⟩ ∈ own i p.trace) :
    ∃ p₀ : Pool Call.Answer Q World ApiError α, (machine P handler).Reachable w₀ p₀ ∧
      p₀.trace ⊆ p.trace ∧ (c.exec p₀.world.store).1 = .ok a ∧
      Kept p₀.world.store.tables p.world.store.tables := by
  obtain ⟨⟨j, ev, w⟩, hx, -, hev⟩ := mem_own.mp hmem
  dsimp only at hev
  subst hev
  obtain ⟨ch, w', hexec, hkept⟩ := executed h hx
  obtain ⟨tr₁, tr₂, htr⟩ := List.append_of_mem hx
  obtain ⟨p₀, -, -, h₀, rfl, rfl, -, -⟩ := h.before htr
  obtain ⟨-, -, ⟨herr, -⟩ | hs⟩ := Call.exec_db hexec
  · cases herr
  · refine ⟨p₀, h₀, ?_, by rw [hs], ?_⟩
    · rw [htr]
      exact fun y hy => List.mem_append_right _ (.tail _ hy)
    · rwa [← Call.exec_of_isQuiet (e := .db c) hc hexec]

theorem query_before (h : (machine P handler).Reachable w₀ p) {i : ℕ} {c : DbCall}
    {a : c.Result} (hc : c.isQuery = true) (hmem : ⟨.db c, .ok a⟩ ∈ own i p.trace) :
    ∃ s : Store, (c.exec s).1 = .ok a ∧ Kept s.tables p.world.store.tables := by
  obtain ⟨p₀, -, -, hs, hkept⟩ := query_reachable h hc hmem
  exact ⟨p₀.world.store, hs, hkept⟩

theorem getAuthorizationCode_kept (h : (machine P handler).Reachable w₀ p) {i : ℕ} {hash : String}
    {stored : AuthorizationCode}
    (hmem : ⟨.db (.getAuthorizationCode hash), .ok (some stored)⟩ ∈ own i p.trace) :
    stored.codeHash = hash ∧
      ∃ c ∈ p.world.store.tables .authorizationCodes, RowStep .authorizationCodes stored c := by
  obtain ⟨s, hs, hkept⟩ := query_before h rfl hmem
  have hfind : (s.tables .authorizationCodes).find? (fun c => c.codeHash = hash) = some stored :=
    Except.ok.inj hs
  exact ⟨by simpa using List.find?_some hfind,
    hkept .authorizationCodes (by simp [evolution]) stored (List.mem_of_find?_eq_some hfind)⟩

theorem getRefreshToken_kept (h : (machine P handler).Reachable w₀ p) {i : ℕ} {hash : String}
    {stored : RefreshToken}
    (hmem : ⟨.db (.getRefreshToken hash), .ok (some stored)⟩ ∈ own i p.trace) :
    stored.tokenHash = hash ∧
      ∃ t ∈ p.world.store.tables .refreshTokens, RowStep .refreshTokens stored t := by
  obtain ⟨s, hs, hkept⟩ := query_before h rfl hmem
  have hfind : (s.tables .refreshTokens).find? (fun t => t.tokenHash = hash) = some stored :=
    Except.ok.inj hs
  exact ⟨by simpa using List.find?_some hfind,
    hkept .refreshTokens (by simp [evolution]) stored (List.mem_of_find?_eq_some hfind)⟩

/-- An identifier that a call drew. -/
def drawnUuid : Ev → Option Uuid
  | ⟨.newV4, u⟩ => some u
  | _ => none

theorem Call.exec_uuids {e : Call} {ch : Choice} {w w' : World} {r : e.Answer}
    (h : e.exec P ch w = some (r, w')) :
    (∃ u, drawnUuid ⟨e, r⟩ = some u ∧ u ∉ w.uuids ∧ w'.uuids = u :: w.uuids) ∨
      (drawnUuid ⟨e, r⟩ = none ∧ w'.uuids = w.uuids) := by
  cases e with
  | db c => exact .inr ⟨rfl, (exec_db h).2.1⟩
  | newV4 =>
    simp only [Call.exec] at h
    split at h
    · cases h
    · cases h
      exact .inl ⟨_, rfl, ‹_›, rfl⟩
  | nowUtc | generateSecret | hashPassword | generateNonce | generateRsaKey
  | startPasskeyAuthentication | startPasskeyRegistration =>
    simp only [Call.exec] at h
    refine .inr ⟨rfl, ?_⟩
    grind

/-- What has been drawn is on record, and nothing is drawn twice. -/
structure DrawInv (w : World) (tr : List (Entry Call.Answer World)) : Prop where
  recorded : ∀ x ∈ tr, ∀ u, drawnUuid x.event = some u → u ∈ w.uuids
  once : Once drawnUuid tr

theorem drawInv_of_reachable (h : (machine P handler).Reachable w₀ p) :
    DrawInv p.world p.trace := by
  refine h.invariant (fun q => Prog.Sat.trivial (handler q)) DrawInv ⟨by simp, once_nil⟩ ?_
  intro p i q e ch r w' _ hinv _ hexec
  rcases Call.exec_uuids hexec with ⟨u, hu, hfresh, hw⟩ | ⟨hu, hw⟩
  · refine ⟨fun x hx u' hu' => ?_, once_cons.mpr ⟨fun y hy u' hu' hy' => ?_, hinv.once⟩⟩
    · rw [hw]
      rcases List.mem_cons.mp hx with rfl | hx
      · rw [hu] at hu'
        cases hu'
        exact .head _
      · exact .tail _ (hinv.recorded x hx u' hu')
    · rw [hu] at hu'
      cases hu'
      exact hfresh (hinv.recorded y hy _ hy')
  · refine ⟨fun x hx u' hu' => ?_, hinv.once.cons_of_none hu⟩
    rw [hw]
    rcases List.mem_cons.mp hx with rfl | hx
    · rw [hu] at hu'
      cases hu'
    · exact hinv.recorded x hx u' hu'

/-- `Uuid::new_v4` gives out an identifier to one thread only. -/
theorem newV4_thread_unique (h : (machine P handler).Reachable w₀ p) {i j : ℕ} {u : Uuid}
    (hi : ⟨.newV4, u⟩ ∈ own i p.trace) (hj : ⟨.newV4, u⟩ ∈ own j p.trace) : i = j := by
  obtain ⟨x, hx, rfl, hxu⟩ := mem_own.mp hi
  obtain ⟨y, hy, rfl, hyu⟩ := mem_own.mp hj
  rw [(drawInv_of_reachable h).once.eq hx hy (k := u) (by rw [hxu]; rfl) (by rw [hyu]; rfl)]

end CairnId
