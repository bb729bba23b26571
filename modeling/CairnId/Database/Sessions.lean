import CairnId.Database.Evolution

/-!
# The methods that insert sessions

What becomes of `auth_sessions`, exactly.
-/

namespace CairnId

open Concurrency Concurrency.Sql

namespace Database

/-- `revoked_at` as the replacement of a session sets it. -/
def AuthSessionRow.replaced (instant : OffsetDateTime) (r : AuthSessionRow) : AuthSessionRow :=
  { r with session := { r.session with revokedAt := some instant } }

/-- The row that a replacement takes the place of. -/
def isReplaceable (oldSessionId : SessionId) (newSession : AuthSession) (instant : OffsetDateTime)
    (r : AuthSessionRow) : Bool :=
  r.session.id = oldSessionId ∧ r.session.organizationId = newSession.organizationId ∧
    r.session.userId = newSession.userId ∧ r.session.revokedAt = none ∧
    instant < r.session.expiresAt

variable {s s' : Store}

/-- A replacement revokes one row that was neither revoked nor expired and inserts its
    successor, or changes nothing. -/
theorem exec_rotateAuthSessionWithContext {oldSessionId : SessionId} {newSession : AuthSession}
    {instant : OffsetDateTime} {context : SessionRequestContext} {o : Except DatabaseError Unit}
    (h : (DbCall.rotateAuthSessionWithContext oldSessionId newSession instant context).exec s =
      (o, s')) :
    (o = .ok () ∧ (∃ r ∈ s.tables .authSessions,
        isReplaceable oldSessionId newSession instant r = true) ∧
      s'.tables .authSessions = ((s.tables .authSessions).map fun r =>
        if isReplaceable oldSessionId newSession instant r then AuthSessionRow.replaced instant r
        else r) ++ [⟨newSession, context⟩]) ∨
      ((∃ e, o = .error e) ∧ s' = s) := by
  rcases Tx.atomic_cases h with ⟨a, rfl, hrun⟩ | ⟨a, s₁, -, hrun, -⟩ | ⟨e, rfl, rfl⟩
  · obtain ⟨revoked, s₁, hupdate, hrun⟩ := Stmts.run_bind_eq_ok.mp hrun
    obtain ⟨hrows, htables⟩ := run_update_eq_ok hupdate
    obtain ⟨_, s₂, hone, hrun⟩ := Stmts.run_bind_eq_ok.mp hrun
    by_cases hlen : revoked.length ≠ 1
    · rw [Prog.failIf, Prog.when, if_pos hlen] at hone
      cases hone
    · rw [Prog.failIf, Prog.when, if_neg hlen] at hone
      cases hone
      obtain ⟨_, s₃, hinsert, hrun⟩ := Stmts.run_bind_eq_ok.mp hrun
      cases hrun
      refine .inl ⟨rfl, ?_, ?_⟩
      · obtain ⟨r', hr'⟩ := List.length_eq_one_iff.mp (not_not.mp hlen)
        have hmem : r' ∈ revoked := by simp [hr']
        rw [hrows] at hmem
        obtain ⟨r, hr, -⟩ := List.mem_map.mp hmem
        obtain ⟨hr, hreplaceable⟩ := List.mem_filter.mp hr
        exact ⟨r, hr, hreplaceable⟩
      · rw [run_insert_eq_ok hinsert, htables, Function.update_self, Function.update_self]
        rfl
  · obtain ⟨revoked, s₂, -, hrun⟩ := Stmts.run_bind_eq_ok.mp hrun
    obtain ⟨_, s₃, -, hrun⟩ := Stmts.run_bind_eq_ok.mp hrun
    obtain ⟨_, s₄, -, hrun⟩ := Stmts.run_bind_eq_ok.mp hrun
    cases hrun
  · exact .inr ⟨⟨e, rfl⟩, rfl⟩

end Database

/-- What no method changes of a session. -/
theorem RowStep.authSession {a b : AuthSessionRow} (h : RowStep .authSessions a b) :
    b.session.id = a.session.id ∧ b.session.organizationId = a.session.organizationId ∧
      b.session.userId = a.session.userId ∧ b.session.acr = a.session.acr ∧
      b.session.amr = a.session.amr ∧ b.session.createdAt = a.session.createdAt ∧
      b.session.expiresAt = a.session.expiresAt ∧
      (b.session.revokedAt = none → a.session.revokedAt = none) := by
  obtain ⟨⟨s⟩, _⟩ := a
  obtain ⟨⟨s'⟩, _⟩ := b
  simp only [RowStep, AuthSession.mk.injEq] at h
  obtain ⟨⟨rfl, rfl, rfl, rfl, rfl, rfl, rfl, -⟩, hrevoked⟩ := h
  exact ⟨rfl, rfl, rfl, rfl, rfl, rfl, rfl, hrevoked⟩

end CairnId
