import CairnId.Database.Evolution

/-!
# The two transactions that issue tokens

Redeeming a code and rotating a refresh token run the same three statements: a
conditional update that must hit one row, and the inserts of the new tokens.
Their effect is given exactly.
-/

namespace CairnId

open Concurrency Concurrency.Sql

namespace Database

/-- The common shape of the two transactions. -/
def claimAndIssue (t : Tab) (p : Db → Row t → Bool) (f : Row t → Row t)
    (access : AccessTokenRecord) (refresh : Option RefreshToken) : Statements (End Bool) := do
  let claimed ← update t p f
  if claimed.length ≠ 1 then
    return .rollback false
  insertAccessTokenRecord access
  insertRefreshTokenRecords refresh
  return .commit true

/-- Rows added at the end of a table. -/
def appended (db : Db) (t : Tab) (rows : List (Row t)) : Db := Function.update db t (db t ++ rows)

@[simp] theorem appended_self (db : Db) (t : Tab) (rows : List (Row t)) :
    appended db t rows t = db t ++ rows := by simp [appended]

theorem appended_of_ne {db : Db} {t t' : Tab} {rows : List (Row t)} (h : t' ≠ t) :
    appended db t rows t' = db t' := by simp [appended, h]

/-- The tables after a successful claim. -/
def issued (t : Tab) (p : Db → Row t → Bool) (f : Row t → Row t) (access : AccessTokenRecord)
    (refresh : Option RefreshToken) (db : Db) : Db :=
  appended (appended (Function.update db t (Stmt.updated t p f db)) .accessTokens [access])
    .refreshTokens refresh.toList

variable {t : Tab} {p : Db → Row t → Bool} {f : Row t → Row t} {access : AccessTokenRecord}
  {refresh : Option RefreshToken} {s s' : Store}

theorem run_insertRefreshTokenRecords {a : Unit}
    (h : Stmts.run DatabaseError.sqlx (insertRefreshTokenRecords refresh) s = .ok (a, s')) :
    s'.tables = appended s.tables .refreshTokens refresh.toList := by
  cases refresh with
  | none =>
    cases h
    simp [appended]
  | some r => exact run_insert_eq_ok h

/-- A claim either hits exactly one row and issues the tokens, or changes
    nothing. -/
theorem claimAndIssue_atomic {o : Except DatabaseError Bool}
    (h : Tx.atomic DatabaseError.sqlx (claimAndIssue t p f access refresh) s = (o, s')) :
    (o = .ok true ∧ (∃ r, (s.tables t).filter (p s.tables) = [r]) ∧
      s'.tables = issued t p f access refresh s.tables) ∨ (o ≠ .ok true ∧ s' = s) := by
  rcases Tx.atomic_cases h with ⟨a, rfl, hrun⟩ | ⟨a, s₁, rfl, hrun, rfl⟩ | ⟨e, rfl, rfl⟩
  · obtain ⟨claimed, s₁, hu, hrun⟩ := Stmts.run_bind_eq_ok.mp hrun
    obtain ⟨hrows, htables⟩ := run_update_eq_ok hu
    split at hrun
    · cases hrun
    · rename_i hlen
      obtain ⟨_, s₂, ha, hrun⟩ := Stmts.run_bind_eq_ok.mp hrun
      obtain ⟨_, s₃, hr, hrun⟩ := Stmts.run_bind_eq_ok.mp hrun
      cases hrun
      refine .inl ⟨rfl, List.length_eq_one_iff.mp (by simpa [hrows] using hlen), ?_⟩
      rw [run_insertRefreshTokenRecords hr, run_insert_eq_ok ha, htables]
      rfl
  · obtain ⟨claimed, s₂, hu, hrun⟩ := Stmts.run_bind_eq_ok.mp hrun
    split at hrun
    · cases hrun
      exact .inr ⟨by simp, rfl⟩
    · obtain ⟨_, s₃, -, hrun⟩ := Stmts.run_bind_eq_ok.mp hrun
      obtain ⟨_, s₄, -, hrun⟩ := Stmts.run_bind_eq_ok.mp hrun
      cases hrun
  · exact .inr ⟨by simp, rfl⟩

/-- What tokens refer to is still there when other tables have changed. -/
private theorem refs_of_tokens {db db' : Db} {t' : Tab}
    (ht' : t' = .accessTokens ∨ t' = .refreshTokens) {new : Row t'}
    (h : schema.RefsPresent db t' new) (hframe : ∀ t, t ≠ .authorizationCodes →
      t ≠ .accessTokens → t ≠ .refreshTokens → db' t = db t) :
    schema.RefsPresent db' t' new := h.mono fun x hx => by
  have hsame : db' x.1 = db x.1 := by
    rcases ref_of_token ht' hx with hx | hx | hx <;> rw [hx] <;> exact hframe _ nofun nofun nofun
  rw [hsame]
  exact List.Subset.refl _

/-- A claim of one row succeeds when the new tokens are new and what they refer to is
    there. -/
theorem claimAndIssue_ok (ht : t = .authorizationCodes ∨ t = .refreshTokens)
    (hf : ∀ r, schema.entries t (f r) = schema.entries t r)
    {r : Row t} (hclaim : (s.tables t).filter (p s.tables) = [r])
    (haccess : ∀ old ∈ s.tables .accessTokens, old.tokenHash ≠ access.tokenHash)
    (haccessRefs : schema.RefsPresent s.tables .accessTokens access)
    (hrefresh : ∀ new ∈ refresh, (∀ old ∈ s.tables .refreshTokens, old.id ≠ new.id ∧
      old.tokenHash ≠ new.tokenHash) ∧ schema.RefsPresent s.tables .refreshTokens new) :
    (Tx.atomic DatabaseError.sqlx (claimAndIssue t p f access refresh) s).1 = .ok true := by
  obtain ⟨s₁, hupdate⟩ := run_update_of_entries (p := p) hf s
  obtain ⟨-, htables₁⟩ := run_update_eq_ok hupdate
  have hframe₁ : ∀ t', t' ≠ .authorizationCodes → t' ≠ .refreshTokens →
      s₁.tables t' = s.tables t' := by
    intro t' hcodes hrefresh
    rw [htables₁, Function.update_of_ne (by rintro rfl; exact ht.elim hcodes hrefresh)]
  have hrows₁ : ∀ r' ∈ s₁.tables t, ∃ r ∈ s.tables t, schema.entries t r' = schema.entries t r := by
    rw [htables₁, Function.update_self]
    intro r' hr'
    obtain ⟨r, hr, rfl⟩ := List.mem_map.mp hr'
    refine ⟨r, hr, ?_⟩
    split
    · exact hf r
    · rfl
  obtain ⟨s₂, hinsert⟩ := run_insert_of_compatible (t := .accessTokens) (r := access) (s := s₁)
    (by
      intro old hold
      rw [hframe₁ .accessTokens (by rintro ⟨⟩) (by rintro ⟨⟩)] at hold
      simpa [Schema.Compatible, Schema.entries, schema] using haccess old hold)
    (refs_of_tokens (.inl rfl) haccessRefs fun t' hcodes haccess hrefresh => by
      rw [Function.update_of_ne haccess, hframe₁ t' hcodes hrefresh])
  have hframe₂ : ∀ t', t' ≠ .accessTokens → s₂.tables t' = s₁.tables t' := fun t' h => by
    rw [run_insert_eq_ok hinsert, Function.update_of_ne h]
  have hrefresh₂ : ∀ r' ∈ s₂.tables .refreshTokens, ∃ r ∈ s.tables .refreshTokens,
      schema.entries .refreshTokens r' = schema.entries .refreshTokens r := by
    rw [hframe₂ .refreshTokens (by rintro ⟨⟩)]
    rcases ht with rfl | rfl
    · rw [htables₁, Function.update_of_ne (by decide)]
      exact fun r hr => ⟨r, hr, rfl⟩
    · exact hrows₁
  have hinserts : ∃ s₃, Stmts.run DatabaseError.sqlx (insertRefreshTokenRecords refresh) s₂ =
      .ok ((), s₃) := by
    cases refresh with
    | none => exact ⟨s₂, rfl⟩
    | some new =>
      obtain ⟨hfresh, hrefs⟩ := hrefresh new rfl
      refine run_insert_of_compatible (t := .refreshTokens) (fun r' hr' => ?_)
        (refs_of_tokens (.inr rfl) hrefs fun t' hcodes haccess hrefresh => by
          rw [Function.update_of_ne hrefresh, hframe₂ t' haccess, hframe₁ t' hcodes hrefresh])
      obtain ⟨r, hr, hentries⟩ := hrefresh₂ r' hr'
      unfold Schema.Compatible
      rw [hentries]
      simpa [Schema.entries, schema] using hfresh r hr
  obtain ⟨s₃, hinserts⟩ := hinserts
  have hrun : Stmts.run DatabaseError.sqlx (claimAndIssue t p f access refresh) s =
      .ok (.commit true, s₃) := by
    refine Stmts.run_bind_eq_ok.mpr ⟨_, s₁, hupdate, ?_⟩
    simp only [hclaim, List.map_cons, List.map_nil, List.length_singleton, ne_eq, not_true_eq_false,
      if_false]
    exact Stmts.run_bind_eq_ok.mpr ⟨_, s₂, hinsert, Stmts.run_bind_eq_ok.mpr ⟨_, s₃, hinserts, rfl⟩⟩
  simp only [Tx.atomic, hrun]

/-- The common shape of the methods that insert one row. -/
def insertOne (t : Tab) (r : Row t) : Statements (End Unit) := do
  insert t r
  return .commit ()

/-- One insert either adds the row or changes nothing. -/
theorem insertOne_atomic {t : Tab} {r : Row t} {o : Except DatabaseError Unit}
    (h : Tx.atomic DatabaseError.sqlx (insertOne t r) s = (o, s')) :
    (o = .ok () ∧ s'.tables = appended s.tables t [r]) ∨ (o ≠ .ok () ∧ s' = s) := by
  rcases Tx.atomic_cases h with ⟨a, rfl, hrun⟩ | ⟨a, s₁, rfl, hrun, rfl⟩ | ⟨e, rfl, rfl⟩
  · obtain ⟨_, s₁, hinsert, hrun⟩ := Stmts.run_bind_eq_ok.mp hrun
    cases hrun
    exact .inl ⟨rfl, run_insert_eq_ok hinsert⟩
  · obtain ⟨_, s₂, -, hrun⟩ := Stmts.run_bind_eq_ok.mp hrun
    cases hrun
  · exact .inr ⟨nofun, rfl⟩

end Database

open Database

variable {hash : String} {access : AccessTokenRecord} {refresh : Option RefreshToken}
  {instant : OffsetDateTime} {s : Store}

/-- The condition of the `UPDATE` that redeems a code. -/
def AuthorizationCode.redeemable (hash : String) (instant : OffsetDateTime)
    (c : AuthorizationCode) : Bool :=
  c.codeHash = hash ∧ c.usedAt = none ∧ instant < c.expiresAt

/-- The condition of the `UPDATE` that rotates a refresh token. -/
def RefreshToken.rotatable (hash : String) (instant : OffsetDateTime) (t : RefreshToken) : Bool :=
  t.tokenHash = hash ∧ t.rotatedAt = none ∧ t.revokedAt = none ∧ instant < t.expiresAt

/-- A code was redeemed: one live code is now used, and its tokens are there. -/
structure Redeemed (hash : String) (access : AccessTokenRecord) (refresh : Option RefreshToken)
    (instant : OffsetDateTime) (db db' : Db) : Prop where
  claimed : ∃ c ∈ db .authorizationCodes, c.redeemable hash instant
  codes : db' .authorizationCodes = (db .authorizationCodes).map fun c =>
    if c.redeemable hash instant then { c with usedAt := some instant } else c
  accessTokens : db' .accessTokens = db .accessTokens ++ [access]
  refreshTokens : db' .refreshTokens = db .refreshTokens ++ refresh.toList
  frame : ∀ t, t ≠ .authorizationCodes → t ≠ .accessTokens → t ≠ .refreshTokens → db' t = db t

/-- A refresh token was rotated: one live token is now rotated, and its
    successors are there. -/
structure Rotated (hash : String) (access : AccessTokenRecord) (refresh : Option RefreshToken)
    (instant : OffsetDateTime) (db db' : Db) : Prop where
  claimed : ∃ t ∈ db .refreshTokens, t.rotatable hash instant
  accessTokens : db' .accessTokens = db .accessTokens ++ [access]
  refreshTokens : db' .refreshTokens = ((db .refreshTokens).map fun t =>
    if t.rotatable hash instant then { t with rotatedAt := some instant } else t) ++ refresh.toList
  frame : ∀ t, t ≠ .accessTokens → t ≠ .refreshTokens → db' t = db t

private theorem mem_of_filter_eq_singleton {α : Type} {l : List α} {p : α → Bool}
    (h : ∃ a, l.filter p = [a]) : ∃ a ∈ l, p a := by
  obtain ⟨a, ha⟩ := h
  have : a ∈ l.filter p := by simp [ha]
  exact ⟨a, List.mem_filter.mp this⟩

theorem exec_consumeAuthorizationCodeAndInsertTokens {o : Except DatabaseError Bool} {s s' : Store}
    (h : (DbCall.consumeAuthorizationCodeAndInsertTokens hash access refresh instant).exec s =
      (o, s')) :
    (o = .ok true ∧ Redeemed hash access refresh instant s.tables s'.tables) ∨
      (o ≠ .ok true ∧ s' = s) := by
  refine (claimAndIssue_atomic h).imp_left ?_
  rintro ⟨rfl, hc, ht⟩
  refine ⟨rfl, mem_of_filter_eq_singleton hc, ?_, ?_, ?_, ?_⟩
  · rw [ht]
    rfl
  · rw [ht]
    rfl
  · rw [ht]
    rfl
  · intro t h₁ h₂ h₃
    rw [ht, issued, appended_of_ne h₃, appended_of_ne h₂, Function.update_of_ne h₁]

theorem exec_rotateRefreshTokenAndInsertTokens {o : Except DatabaseError Bool} {s s' : Store}
    (h : (DbCall.rotateRefreshTokenAndInsertTokens hash access refresh instant).exec s = (o, s')) :
    (o = .ok true ∧ Rotated hash access refresh instant s.tables s'.tables) ∨
      (o ≠ .ok true ∧ s' = s) := by
  refine (claimAndIssue_atomic h).imp_left ?_
  rintro ⟨rfl, hc, ht⟩
  refine ⟨rfl, mem_of_filter_eq_singleton hc, ?_, ?_, ?_⟩
  · rw [ht]
    rfl
  · rw [ht]
    rfl
  · intro t h₁ h₂
    rw [ht, issued, appended_of_ne h₂, appended_of_ne h₁, Function.update_of_ne h₂]

/-- Rotating a live refresh token succeeds when the new tokens are new and what they
    refer to is there. -/
theorem rotateRefreshTokenAndInsertTokens_ok {old : RefreshToken}
    (hold : old ∈ s.tables .refreshTokens) (hlive : old.rotatable old.tokenHash instant = true)
    (haccess : ∀ t ∈ s.tables .accessTokens, t.tokenHash ≠ access.tokenHash)
    (haccessRefs : schema.RefsPresent s.tables .accessTokens access)
    (hrefresh : ∀ new ∈ refresh, (∀ t ∈ s.tables .refreshTokens, t.id ≠ new.id ∧
      t.tokenHash ≠ new.tokenHash) ∧ schema.RefsPresent s.tables .refreshTokens new) :
    ((DbCall.rotateRefreshTokenAndInsertTokens old.tokenHash access refresh instant).exec s).1 =
      .ok true := by
  refine claimAndIssue_ok (t := .refreshTokens) (.inr rfl) (fun _ => rfl) (r := old) ?_ haccess
    haccessRefs hrefresh
  have hrotatable := hlive
  simp only [RefreshToken.rotatable, decide_eq_true_eq] at hrotatable
  refine (s.unique .refreshTokens).filter_eq_singleton hold (by simpa using hrotatable)
    (k := .text old.tokenHash) fun t ht => ?_
  simp only [decide_eq_true_eq] at ht
  simp [schema, Schema.entries, ht.1]

end CairnId
