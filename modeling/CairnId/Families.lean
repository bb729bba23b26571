import CairnId.Http.TokenRuns

/-!
# Refresh token families

A family is started by redeeming a code and continued by rotating its newest
token. Whatever requests run side by side, a family has at most one live token,
a token is rotated at most once, and rights only narrow along the family.
-/

namespace CairnId

open Concurrency Concurrency.Sql

/-- Neither rotated nor revoked. -/
def RefreshToken.live (t : RefreshToken) : Prop := t.rotatedAt = none ∧ t.revokedAt = none

abbrev Trace := List (Entry Call.Answer World)

/-- Thread `i` redeemed the code with this hash for the tokens. -/
def Redeems (tr : Trace) (i : ℕ) (hash : String) (access : AccessTokenRecord)
    (refresh : Option RefreshToken) : Prop :=
  ∃ now, ⟨.db (.consumeAuthorizationCodeAndInsertTokens hash access refresh now), .ok true⟩ ∈
    own i tr

/-- Thread `i` rotated the refresh token with this hash for the tokens. -/
def Rotates (tr : Trace) (i : ℕ) (hash : String) (access : AccessTokenRecord)
    (refresh : Option RefreshToken) : Prop :=
  ∃ now, ⟨.db (.rotateRefreshTokenAndInsertTokens hash access refresh now), .ok true⟩ ∈ own i tr

/-- The rights lie within those of the code. -/
def AuthorizationCode.covers (c : AuthorizationCode) (organizationId : OrganizationId)
    (userId : Option UserId) (clientId : ClientId) (scopes : List String) : Prop :=
  organizationId = c.organizationId ∧ userId = some c.userId ∧ clientId = c.clientId ∧
    scopes ⊆ c.scopes

theorem RowStep.refreshToken {a b : RefreshToken} (h : RowStep .refreshTokens a b) :
    b.id = a.id ∧ b.tokenHash = a.tokenHash ∧ b.familyId = a.familyId ∧
      b.organizationId = a.organizationId ∧ b.userId = a.userId ∧ b.clientId = a.clientId ∧
      b.scopes = a.scopes ∧ (b.live → a.live) := by
  obtain ⟨heq, hrotated, hrevoked⟩ := h
  have hlive : b.live → a.live := fun h => ⟨hrotated h.1, hrevoked h.2⟩
  cases a
  cases b
  simp only [RefreshToken.mk.injEq] at heq
  simp_all

theorem RowStep.accessToken {a b : AccessTokenRecord} (h : RowStep .accessTokens a b) :
    b.tokenHash = a.tokenHash ∧ b.refreshFamilyId = a.refreshFamilyId ∧
      b.organizationId = a.organizationId ∧ b.userId = a.userId ∧ b.clientId = a.clientId ∧
      b.scopes = a.scopes := by
  obtain ⟨heq, -⟩ := h
  cases a
  cases b
  simp only [AccessTokenRecord.mk.injEq] at heq
  simp_all

theorem RowStep.authorizationCode {a b : AuthorizationCode} (h : RowStep .authorizationCodes a b) :
    b = { a with usedAt := b.usedAt } ∧ (b.usedAt = none → a.usedAt = none) := by
  obtain ⟨heq, hused⟩ := h
  refine ⟨?_, hused⟩
  cases a
  cases b
  simp only [AuthorizationCode.mk.injEq] at heq
  simp_all

theorem AuthorizationCode.covers_of_step {a b : AuthorizationCode}
    (h : RowStep .authorizationCodes a b) {o : OrganizationId} {u : Option UserId} {cl : ClientId}
    {sc : List String} (hc : a.covers o u cl sc) : b.covers o u cl sc := by
  rw [h.authorizationCode.1]
  exact hc

/-- Rows with the same primary key are one row. -/
theorem refreshToken_eq_of_id {s : Store} {t t' : RefreshToken}
    (ht : t ∈ s.tables .refreshTokens) (ht' : t' ∈ s.tables .refreshTokens) (h : t.id = t'.id) :
    t = t' :=
  (s.unique .refreshTokens).eq_of_key ht ht' (congrArg Key.id h)

theorem refreshToken_eq_of_hash {s : Store} {t t' : RefreshToken}
    (ht : t ∈ s.tables .refreshTokens) (ht' : t' ∈ s.tables .refreshTokens)
    (h : t.tokenHash = t'.tokenHash) : t = t' := by
  refine (s.unique .refreshTokens).eq_of_entry ht ht' (k := .text t.tokenHash) ?_ ?_
  · simp [Schema.entries, schema]
  · simp [Schema.entries, schema, h]

/-- The hash of the token that a call rotated. -/
def rotatedHash : Ev → Option String
  | ⟨.db (.rotateRefreshTokenAndInsertTokens hash _ _ _), .ok true⟩ => some hash
  | _ => none

structure FamilyInv (w : World) (tr : Trace) : Prop where
  /-- Who starts a family drew its identifier. -/
  starter : ∀ i hash access r, Redeems tr i hash access (some r) →
    ⟨.newV4, r.familyId⟩ ∈ own i tr
  /-- Every token of a family is covered by the code that started the family. -/
  covered : ∀ i hash access r, Redeems tr i hash access (some r) →
    ∃ c ∈ w.store.tables .authorizationCodes, c.codeHash = hash ∧
      (∀ t ∈ w.store.tables .refreshTokens, t.familyId = r.familyId →
        c.covers t.organizationId t.userId t.clientId t.scopes) ∧
      ∀ a ∈ w.store.tables .accessTokens, a.refreshFamilyId = some r.familyId →
        c.covers a.organizationId a.userId a.clientId a.scopes
  started : ∀ t ∈ w.store.tables .refreshTokens,
    ∃ i hash access r, Redeems tr i hash access (some r) ∧ r.familyId = t.familyId
  started_access : ∀ a ∈ w.store.tables .accessTokens, ∀ f, a.refreshFamilyId = some f →
    ∃ i hash access r, Redeems tr i hash access (some r) ∧ r.familyId = f
  live_unique : ∀ t ∈ w.store.tables .refreshTokens, ∀ t' ∈ w.store.tables .refreshTokens,
    t.familyId = t'.familyId → t.live → t'.live → t = t'
  /-- What a token was rotated for lies within its rights. -/
  rotated : ∀ i hash access refresh, Rotates tr i hash access refresh →
    ∃ t ∈ w.store.tables .refreshTokens, t.tokenHash = hash ∧ ¬t.live ∧
      access.refreshFamilyId = some t.familyId ∧ access.scopes ⊆ t.scopes ∧
      ∀ r ∈ refresh, r.familyId = t.familyId ∧ r.scopes ⊆ t.scopes
  rotated_once : Once rotatedHash tr
  refresh_origin : ∀ t ∈ w.store.tables .refreshTokens, ∃ r i hash access,
    RowStep .refreshTokens r t ∧
      (Redeems tr i hash access (some r) ∨ Rotates tr i hash access (some r))
  access_origin : ∀ a ∈ w.store.tables .accessTokens, a.refreshFamilyId.isSome →
    ∃ a₀ i hash refresh, RowStep .accessTokens a₀ a ∧
      ((Redeems tr i hash a₀ refresh ∧ a₀.refreshFamilyId = refresh.map (·.familyId)) ∨
        Rotates tr i hash a₀ refresh)

theorem FamilyInv.initial (clock : OffsetDateTime) : FamilyInv (World.initial clock) [] where
  starter := by simp [Redeems]
  covered := by simp [Redeems]
  started := by simp [World.initial, Store.empty]
  started_access := by simp [World.initial, Store.empty]
  live_unique := by simp [World.initial, Store.empty]
  rotated := by simp [Rotates]
  rotated_once := once_nil
  refresh_origin := by simp [World.initial, Store.empty]
  access_origin := by simp [World.initial, Store.empty]

/-- No token of a family is new. -/
structure NoNewTokens (db db' : Db) : Prop where
  kept : Kept db db'
  refresh : ∀ t' ∈ db' .refreshTokens, ∃ t ∈ db .refreshTokens, RowStep .refreshTokens t t'
  access : ∀ a' ∈ db' .accessTokens, a'.refreshFamilyId.isSome →
    ∃ a ∈ db .accessTokens, RowStep .accessTokens a a'

theorem NoNewTokens.refl (db : Db) : NoNewTokens db db where
  kept := .refl db
  refresh t ht := ⟨t, ht, RowStep.refl _ t⟩
  access a ha _ := ⟨a, ha, RowStep.refl _ a⟩

/-- The event neither redeems a code nor rotates a token. -/
def IssuesNothing (ev : Ev) : Prop := ∀ hash access refresh now,
  ev ≠ ⟨.db (.consumeAuthorizationCodeAndInsertTokens hash access refresh now), .ok true⟩ ∧
  ev ≠ ⟨.db (.rotateRefreshTokenAndInsertTokens hash access refresh now), .ok true⟩

variable {w w' : World} {tr : Trace} {x : Entry Call.Answer World}

theorem redeems_cons_of_issuesNothing (hx : IssuesNothing x.event) {i : ℕ} {hash : String}
    {access : AccessTokenRecord} {refresh : Option RefreshToken} :
    Redeems (x :: tr) i hash access refresh ↔ Redeems tr i hash access refresh := by
  simp only [Redeems, mem_own_cons, (hx hash access refresh _).1, and_false, false_or]

theorem rotates_cons_of_issuesNothing (hx : IssuesNothing x.event) {i : ℕ} {hash : String}
    {access : AccessTokenRecord} {refresh : Option RefreshToken} :
    Rotates (x :: tr) i hash access refresh ↔ Rotates tr i hash access refresh := by
  simp only [Rotates, mem_own_cons, (hx hash access refresh _).2, and_false, false_or]

theorem rotatedHash_of_issuesNothing {ev : Ev} (h : IssuesNothing ev) : rotatedHash ev = none := by
  unfold rotatedHash
  split
  · exact absurd rfl (h _ _ _ _).2
  · rfl

/-- The invariant survives steps that issue nothing. -/
theorem FamilyInv.of_noNewTokens (h : FamilyInv w tr) (hx : IssuesNothing x.event)
    (hn : NoNewTokens w.store.tables w'.store.tables) : FamilyInv w' (x :: tr) where
  starter i hash access r hr :=
    mem_own_cons.mpr (.inr (h.starter i hash access r ((redeems_cons_of_issuesNothing hx).mp hr)))
  covered i hash access r hr := by
    obtain ⟨c, hc, rfl, ht, ha⟩ :=
      h.covered i hash access r ((redeems_cons_of_issuesNothing hx).mp hr)
    obtain ⟨c', hc', hstep⟩ := hn.kept .authorizationCodes (by simp [evolution]) c hc
    refine ⟨c', hc', by rw [hstep.authorizationCode.1], fun t' ht' hf => ?_, fun a' ha' hf => ?_⟩
    · obtain ⟨t, htm, hs⟩ := hn.refresh t' ht'
      obtain ⟨-, -, hfam, ho, hu, hcl, hsc, -⟩ := hs.refreshToken
      rw [ho, hu, hcl, hsc]
      exact AuthorizationCode.covers_of_step hstep (ht t htm (hfam ▸ hf))
    · obtain ⟨a, ham, hs⟩ := hn.access a' ha' (by simp [hf])
      obtain ⟨-, hfam, ho, hu, hcl, hsc⟩ := hs.accessToken
      rw [ho, hu, hcl, hsc]
      exact AuthorizationCode.covers_of_step hstep (ha a ham (hfam ▸ hf))
  started t' ht' := by
    obtain ⟨t, ht, hs⟩ := hn.refresh t' ht'
    obtain ⟨i, hash, access, r, hr, hf⟩ := h.started t ht
    exact ⟨i, hash, access, r, (redeems_cons_of_issuesNothing hx).mpr hr,
      hf.trans hs.refreshToken.2.2.1.symm⟩
  started_access a' ha' f hf := by
    obtain ⟨a, ha, hs⟩ := hn.access a' ha' (by simp [hf])
    obtain ⟨i, hash, access, r, hr, hrf⟩ := h.started_access a ha f (by rw [← hs.accessToken.2.1, hf])
    exact ⟨i, hash, access, r, (redeems_cons_of_issuesNothing hx).mpr hr, hrf⟩
  live_unique t₁ h₁ t₂ h₂ hf hl₁ hl₂ := by
    obtain ⟨s₁, hs₁, hst₁⟩ := hn.refresh t₁ h₁
    obtain ⟨s₂, hs₂, hst₂⟩ := hn.refresh t₂ h₂
    obtain ⟨hid₁, -, hf₁, -, -, -, -, hlive₁⟩ := hst₁.refreshToken
    obtain ⟨hid₂, -, hf₂, -, -, -, -, hlive₂⟩ := hst₂.refreshToken
    have := h.live_unique s₁ hs₁ s₂ hs₂ (by rw [← hf₁, hf, hf₂]) (hlive₁ hl₁) (hlive₂ hl₂)
    exact refreshToken_eq_of_id h₁ h₂ (by rw [hid₁, hid₂, this])
  rotated i hash access refresh hr := by
    obtain ⟨t, ht, hhash, hdead, hfam, hsc, hr'⟩ :=
      h.rotated i hash access refresh ((rotates_cons_of_issuesNothing hx).mp hr)
    obtain ⟨t', ht', hs⟩ := hn.kept .refreshTokens (by simp [evolution]) t ht
    obtain ⟨-, hh, hf, -, -, -, hscopes, hlive⟩ := hs.refreshToken
    refine ⟨t', ht', hh.trans hhash, fun hl => hdead (hlive hl), ?_, ?_, ?_⟩
    · rw [hf, hfam]
    · rwa [hscopes]
    · rw [hf, hscopes]
      exact hr'
  rotated_once := h.rotated_once.cons_of_none (rotatedHash_of_issuesNothing hx)
  refresh_origin t' ht' := by
    obtain ⟨t, ht, hs⟩ := hn.refresh t' ht'
    obtain ⟨r, i, hash, access, hrt, ho⟩ := h.refresh_origin t ht
    exact ⟨r, i, hash, access, RowStep.trans _ _ _ _ hrt hs,
      ho.imp (redeems_cons_of_issuesNothing hx).mpr (rotates_cons_of_issuesNothing hx).mpr⟩
  access_origin a' ha' hsome := by
    obtain ⟨a, ha, hs⟩ := hn.access a' ha' hsome
    obtain ⟨a₀, i, hash, refresh, hrt, ho⟩ :=
      h.access_origin a ha (by rwa [← hs.accessToken.2.1])
    exact ⟨a₀, i, hash, refresh, RowStep.trans _ _ _ _ hrt hs,
      ho.imp (.imp_left (redeems_cons_of_issuesNothing hx).mpr)
        (rotates_cons_of_issuesNothing hx).mpr⟩

theorem noNewTokens_of_issuesNoFamily {P : Primitives} {e : Call} {ch : Choice} {r : e.Answer}
    (he : e.issuesNoFamily) (h : e.exec P ch w = some (r, w')) :
    NoNewTokens w.store.tables w'.store.tables := by
  rcases Call.exec_grows h with hs | ⟨c, rfl, hg⟩
  · rw [hs]
    exact .refl _
  · have hrefresh : c.inserts .refreshTokens = [] := by
      cases c <;> first | rfl | cases he
    have haccess : ∀ a ∈ c.inserts .accessTokens, a.refreshFamilyId = none := by
      intro a ha
      cases c with
      | insertAccessToken token =>
        rw [List.mem_singleton.mp ha]
        exact he
      | _ => first | exact absurd ha List.not_mem_nil | cases he
    refine ⟨hg.kept, fun t' ht' => ?_, fun a' ha' hsome => ?_⟩
    · rcases hg.origin .refreshTokens (by simp [evolution]) t' ht' with h | ⟨t, ht, -⟩
      · exact h
      · simp [hrefresh] at ht
    · rcases hg.origin .accessTokens (by simp [evolution]) a' ha' with h | ⟨a, ha, hs⟩
      · exact h
      · rw [hs.accessToken.2.1, haccess a ha] at hsome
        cases hsome

section issue

variable {P : Primitives} {state : AppState} {w₀ : World}
  {p : Pool Call.Answer TokenTask World ApiError (Option TokenResponse)}
  {i : ℕ} {hash : String} {access : AccessTokenRecord} {refresh : Option RefreshToken}
  {now : OffsetDateTime} {request : TokenRequest} {auth : OAuthClientAuth}

/-- A family is not started before its identifier is used. -/
theorem FamilyInv.not_started (h : FamilyInv p.world p.trace)
    (hreach : (tokenMachine P state).Reachable w₀ p) (hq : Quiet (own i p.trace)) {f : Uuid}
    (hf : ⟨.newV4, f⟩ ∈ own i p.trace) {j : ℕ} {hash : String} {access : AccessTokenRecord}
    {r : RefreshToken} (hr : Redeems p.trace j hash access (some r)) : r.familyId ≠ f := by
  rintro rfl
  obtain rfl := newV4_thread_unique hreach hf (h.starter j hash access r hr)
  obtain ⟨now, hmem⟩ := hr
  simpa [Call.isQuiet, DbCall.isQuery] using hq _ hmem

theorem redeems_cons_consume {x : Entry Call.Answer World}
    (hx : x.event = ⟨.db (.consumeAuthorizationCodeAndInsertTokens hash access refresh now),
      .ok true⟩) {j : ℕ} {hash' : String} {access' : AccessTokenRecord}
    {refresh' : Option RefreshToken} :
    Redeems (x :: tr) j hash' access' refresh' ↔
      (x.thread = j ∧ hash = hash' ∧ access = access' ∧ refresh = refresh') ∨
        Redeems tr j hash' access' refresh' := by
  simp only [Redeems, mem_own_cons, hx, exists_or]
  refine or_congr_left ⟨?_, ?_⟩
  · rintro ⟨now', hj, heq⟩
    cases heq
    exact ⟨hj, rfl, rfl, rfl⟩
  · rintro ⟨hj, rfl, rfl, rfl⟩
    exact ⟨now, hj, rfl⟩

theorem rotates_cons_consume {x : Entry Call.Answer World}
    (hx : x.event = ⟨.db (.consumeAuthorizationCodeAndInsertTokens hash access refresh now),
      .ok true⟩) {j : ℕ} {hash' : String} {access' : AccessTokenRecord}
    {refresh' : Option RefreshToken} :
    Rotates (x :: tr) j hash' access' refresh' ↔ Rotates tr j hash' access' refresh' := by
  simp [Rotates, mem_own_cons, hx]

/-- A refresh token issued for a code has the code's rights and a family that
    the thread drew. -/
theorem CodeRedemption.refresh_of_some {h : List Ev} {stored : AuthorizationCode}
    {client : OidcClient} {session : AuthSession} {r : RefreshToken}
    (hr : CodeRedemption P request auth h hash access (some r) now stored client session) :
    ∃ secret, ⟨.newV4, r.familyId⟩ ∈ h ∧ r = codeRefreshRecord stored secret r.familyId now := by
  have := hr.refresh_eq
  split at this
  · obtain ⟨secret, f, hf, heq⟩ := this
    cases heq
    exact ⟨secret, hf, rfl⟩
  · cases this

/-- The invariant survives the redemption of a code. -/
theorem FamilyInv.redeem (h : FamilyInv p.world p.trace)
    (hreach : (tokenMachine P state).Reachable w₀ p) (hq : Quiet (own i p.trace))
    {stored : AuthorizationCode} {client : OidcClient} {session : AuthSession}
    (hr : CodeRedemption P request auth (own i p.trace) hash access refresh now stored client
      session)
    (hd : Redeemed hash access refresh now p.world.store.tables w'.store.tables) :
    FamilyInv w' (⟨i, ⟨.db (.consumeAuthorizationCodeAndInsertTokens hash access refresh now),
      .ok true⟩, p.world⟩ :: p.trace) := by
  obtain ⟨hhash, c, hc, hstep⟩ := getAuthorizationCode_kept hreach hr.checked.code_read
  have hmark : ∀ c ∈ p.world.store.tables .authorizationCodes,
      ∃ c' ∈ w'.store.tables .authorizationCodes, RowStep .authorizationCodes c c' := by
    intro c hc
    rw [hd.codes]
    refine ⟨_, List.mem_map_of_mem hc, ?_⟩
    split
    · exact ⟨rfl, nofun⟩
    · exact RowStep.refl _ c
  have hrefresh : ∀ t, t ∈ w'.store.tables .refreshTokens ↔
      t ∈ p.world.store.tables .refreshTokens ∨ refresh = some t := by
    simp [hd.refreshTokens]
  have haccess : ∀ a, a ∈ w'.store.tables .accessTokens ↔
      a ∈ p.world.store.tables .accessTokens ∨ a = access := by
    simp [hd.accessTokens]
  obtain ⟨tokenHash, haccess_eq⟩ := hr.access_eq
  -- the family of the new tokens is new
  have hfresh : ∀ r, refresh = some r → ∀ {j hash access r'},
      Redeems p.trace j hash access (some r') → r'.familyId ≠ r.familyId := by
    rintro r rfl j hash access r' hr'
    obtain ⟨-, hdraw, -⟩ := hr.refresh_of_some
    exact h.not_started hreach hq hdraw hr'
  constructor
  case starter =>
    intro j hash' access' r hred'
    rcases (redeems_cons_consume rfl).mp hred' with ⟨rfl, rfl, rfl, rfl⟩ | hred
    · obtain ⟨-, hdraw, -⟩ := hr.refresh_of_some
      exact mem_own_cons.mpr (.inr hdraw)
    · exact mem_own_cons.mpr (.inr (h.starter _ _ _ _ hred))
  case covered =>
    intro j hash' access' r hred'
    rcases (redeems_cons_consume rfl).mp hred' with ⟨rfl, rfl, rfl, rfl⟩ | hred
    · obtain ⟨secret, -, heq⟩ := hr.refresh_of_some
      obtain ⟨c', hc', hstep'⟩ := hmark c hc
      have hcover : c'.covers stored.organizationId (some stored.userId) stored.clientId
          stored.scopes :=
        AuthorizationCode.covers_of_step (RowStep.trans _ _ _ _ hstep hstep')
          ⟨rfl, rfl, rfl, fun _ hs => hs⟩
      refine ⟨c', hc', ?_, fun t ht hf => ?_, fun a ha hf => ?_⟩
      · rw [hstep'.authorizationCode.1, hstep.authorizationCode.1]
        exact hhash
      · rcases (hrefresh t).mp ht with ht | ht
        · obtain ⟨_, _, _, _, hred, hf'⟩ := h.started t ht
          exact absurd (hf'.trans hf) (hfresh r rfl hred)
        · cases ht
          rw [heq]
          exact hcover
      · rcases (haccess a).mp ha with ha | rfl
        · obtain ⟨_, _, _, _, hred, hf'⟩ := h.started_access a ha _ hf
          exact absurd hf' (hfresh r rfl hred)
        · rw [haccess_eq]
          exact hcover
    · obtain ⟨c₀, hc₀, rfl, ht₀, ha₀⟩ := h.covered _ _ _ _ hred
      obtain ⟨c', hc', hstep'⟩ := hmark c₀ hc₀
      refine ⟨c', hc', by rw [hstep'.authorizationCode.1], fun t ht hf => ?_, fun a ha hf => ?_⟩
      · rcases (hrefresh t).mp ht with ht | ht
        · exact AuthorizationCode.covers_of_step hstep' (ht₀ t ht hf)
        · exact absurd hf.symm (hfresh t ht hred)
      · rcases (haccess a).mp ha with ha | rfl
        · exact AuthorizationCode.covers_of_step hstep' (ha₀ a ha hf)
        · rw [haccess_eq] at hf
          obtain ⟨r', hr', hrf⟩ := Option.map_eq_some_iff.mp hf
          exact absurd hrf.symm (hfresh r' hr' hred)
  case started =>
    intro t ht
    rcases (hrefresh t).mp ht with ht | rfl
    · obtain ⟨j, hash', access', r, hred, hf⟩ := h.started t ht
      exact ⟨j, hash', access', r, (redeems_cons_consume rfl).mpr (.inr hred), hf⟩
    · exact ⟨i, hash, access, t, (redeems_cons_consume rfl).mpr (.inl ⟨rfl, rfl, rfl, rfl⟩), rfl⟩
  case started_access =>
    intro a ha f hf
    rcases (haccess a).mp ha with ha | rfl
    · obtain ⟨j, hash', access', r, hred, hf⟩ := h.started_access a ha f hf
      exact ⟨j, hash', access', r, (redeems_cons_consume rfl).mpr (.inr hred), hf⟩
    · rw [haccess_eq] at hf
      obtain ⟨r', rfl, hrf⟩ := Option.map_eq_some_iff.mp hf
      exact ⟨i, hash, a, r', (redeems_cons_consume rfl).mpr (.inl ⟨rfl, rfl, rfl, rfl⟩), hrf⟩
  case live_unique =>
    intro t ht t' ht' hf hl hl'
    rcases (hrefresh t).mp ht with ht | ht <;> rcases (hrefresh t').mp ht' with ht' | ht'
    · exact h.live_unique t ht t' ht' hf hl hl'
    · obtain ⟨_, _, _, _, hred, hf'⟩ := h.started t ht
      exact absurd (hf'.trans hf) (hfresh t' ht' hred)
    · obtain ⟨_, _, _, _, hred, hf'⟩ := h.started t' ht'
      exact absurd (hf'.trans hf.symm) (hfresh t ht hred)
    · exact Option.some.inj (ht.symm.trans ht')
  case rotated =>
    intro j hash' access' refresh' hrot
    obtain ⟨t, ht, hrest⟩ := h.rotated _ _ _ _ ((rotates_cons_consume rfl).mp hrot)
    exact ⟨t, (hrefresh t).mpr (.inl ht), hrest⟩
  case rotated_once => exact h.rotated_once.cons_of_none rfl
  case refresh_origin =>
    intro t ht
    rcases (hrefresh t).mp ht with ht | rfl
    · obtain ⟨r, j, hash', access', hs, ho⟩ := h.refresh_origin t ht
      exact ⟨r, j, hash', access', hs, ho.imp (fun h => (redeems_cons_consume rfl).mpr (.inr h))
        (rotates_cons_consume rfl).mpr⟩
    · exact ⟨t, i, hash, access, RowStep.refl _ t,
        .inl ((redeems_cons_consume rfl).mpr (.inl ⟨rfl, rfl, rfl, rfl⟩))⟩
  case access_origin =>
    intro a ha hsome
    rcases (haccess a).mp ha with ha | rfl
    · obtain ⟨a₀, j, hash', refresh', hs, ho⟩ := h.access_origin a ha hsome
      exact ⟨a₀, j, hash', refresh', hs,
        ho.imp (.imp_left fun h => (redeems_cons_consume rfl).mpr (.inr h))
          (rotates_cons_consume rfl).mpr⟩
    · exact ⟨a, i, hash, refresh, RowStep.refl _ a,
        .inl ⟨(redeems_cons_consume rfl).mpr (.inl ⟨rfl, rfl, rfl, rfl⟩), by rw [haccess_eq]; rfl⟩⟩

theorem redeems_cons_rotate {x : Entry Call.Answer World}
    (hx : x.event = ⟨.db (.rotateRefreshTokenAndInsertTokens hash access refresh now),
      .ok true⟩) {j : ℕ} {hash' : String} {access' : AccessTokenRecord}
    {refresh' : Option RefreshToken} :
    Redeems (x :: tr) j hash' access' refresh' ↔ Redeems tr j hash' access' refresh' := by
  simp [Redeems, mem_own_cons, hx]

theorem rotates_cons_rotate {x : Entry Call.Answer World}
    (hx : x.event = ⟨.db (.rotateRefreshTokenAndInsertTokens hash access refresh now),
      .ok true⟩) {j : ℕ} {hash' : String} {access' : AccessTokenRecord}
    {refresh' : Option RefreshToken} :
    Rotates (x :: tr) j hash' access' refresh' ↔
      (x.thread = j ∧ hash = hash' ∧ access = access' ∧ refresh = refresh') ∨
        Rotates tr j hash' access' refresh' := by
  simp only [Rotates, mem_own_cons, hx, exists_or]
  refine or_congr_left ⟨?_, ?_⟩
  · rintro ⟨now', hj, heq⟩
    cases heq
    exact ⟨hj, rfl, rfl, rfl⟩
  · rintro ⟨hj, rfl, rfl, rfl⟩
    exact ⟨now, hj, rfl⟩

theorem rotates_of_rotatedHash {x : Entry Call.Answer World} (hx : x ∈ tr) {hash : String}
    (h : rotatedHash x.event = some hash) :
    ∃ access refresh, Rotates tr x.thread hash access refresh := by
  unfold rotatedHash at h
  split at h
  · rename_i hash' access refresh now hev
    cases h
    exact ⟨access, refresh, now, mem_own.mpr ⟨x, hx, rfl, hev⟩⟩
  · cases h

theorem RefreshRotation.refresh_of_some {h : List Ev} {stored : RefreshToken} {client : OidcClient}
    {scopes : List String} {r : RefreshToken}
    (hr : RefreshRotation P request auth h hash access (some r) now stored client scopes) :
    ∃ secret, r = nextRefreshRecord stored secret scopes now := by
  have := hr.refresh_eq
  split at this
  · obtain ⟨secret, heq⟩ := this
    exact ⟨secret, Option.some.inj heq⟩
  · cases this

/-- The invariant survives a rotation. -/
theorem FamilyInv.rotate (h : FamilyInv p.world p.trace)
    (hreach : (tokenMachine P state).Reachable w₀ p) {stored : RefreshToken} {client : OidcClient}
    {scopes : List String}
    (hr : RefreshRotation P request auth (own i p.trace) hash access refresh now stored client
      scopes)
    (hd : Rotated hash access refresh now p.world.store.tables w'.store.tables) :
    FamilyInv w' (⟨i, ⟨.db (.rotateRefreshTokenAndInsertTokens hash access refresh now),
      .ok true⟩, p.world⟩ :: p.trace) := by
  obtain ⟨hhash, t₀, ht₀, hstep⟩ := getRefreshToken_kept hreach hr.checked.token_read
  obtain ⟨-, hh₀, hf₀, ho₀, hu₀, hcl₀, hsc₀, -⟩ := hstep.refreshToken
  -- the token that the update hit is the one the request had read
  have hlive₀ : t₀.live ∧ t₀.rotatable hash now = true := by
    obtain ⟨t, ht, hrot⟩ := hd.claimed
    have hrot' := hrot
    simp only [RefreshToken.rotatable, decide_eq_true_eq] at hrot'
    obtain rfl := refreshToken_eq_of_hash ht ht₀ (by rw [hh₀, hhash, hrot'.1])
    exact ⟨⟨hrot'.2.1, hrot'.2.2.1⟩, hrot⟩
  let mark (t : RefreshToken) : RefreshToken :=
    if t.rotatable hash now then { t with rotatedAt := some now } else t
  have hmark : ∀ t, RowStep .refreshTokens t (mark t) := by
    intro t
    dsimp only [mark]
    split
    · exact ⟨rfl, (by rintro ⟨⟩), id⟩
    · exact RowStep.refl _ t
  have hrefresh : ∀ t', t' ∈ w'.store.tables .refreshTokens ↔
      (∃ t ∈ p.world.store.tables .refreshTokens, mark t = t') ∨ refresh = some t' := by
    simp [hd.refreshTokens, mark]
  have haccess : ∀ a, a ∈ w'.store.tables .accessTokens ↔
      a ∈ p.world.store.tables .accessTokens ∨ a = access := by
    simp [hd.accessTokens]
  have hcodes : w'.store.tables .authorizationCodes = p.world.store.tables .authorizationCodes :=
    hd.frame _ (by simp) (by simp)
  obtain ⟨tokenHash, haccess_eq⟩ := hr.access_eq
  have hdead : ¬(mark t₀).live := by
    simp [mark, hlive₀.2, RefreshToken.live]
  -- a live token of the family before the step can only be the one rotated
  have hother : ∀ t ∈ p.world.store.tables .refreshTokens, t.familyId = stored.familyId →
      ¬(mark t).live := by
    intro t ht hf hl
    obtain ⟨-, -, -, -, -, -, -, hlive⟩ := (hmark t).refreshToken
    have : t = t₀ := h.live_unique t ht t₀ ht₀ (by rw [hf, hf₀]) (hlive hl) hlive₀.1
    exact hdead (this ▸ hl)
  constructor
  case starter =>
    intro j hash' access' r hred
    exact mem_own_cons.mpr (.inr (h.starter _ _ _ _ ((redeems_cons_rotate rfl).mp hred)))
  case covered =>
    intro j hash' access' r hred
    obtain ⟨c, hc, rfl, ht, ha⟩ := h.covered _ _ _ _ ((redeems_cons_rotate rfl).mp hred)
    have hnew : stored.familyId = r.familyId →
        c.covers stored.organizationId stored.userId stored.clientId scopes := by
      intro hf
      obtain ⟨h₁, h₂, h₃, h₄⟩ := ht t₀ ht₀ (by rw [hf₀, hf])
      rw [← ho₀, ← hu₀, ← hcl₀]
      exact ⟨h₁, h₂, h₃, fun s hs => h₄ (hsc₀ ▸ hr.narrowed hs)⟩
    refine ⟨c, hcodes ▸ hc, rfl, fun t' ht' hf => ?_, fun a ha' hf => ?_⟩
    · rcases (hrefresh t').mp ht' with ⟨t, htm, rfl⟩ | rfl
      · obtain ⟨-, -, hfam, ho, hu, hcl, hsc, -⟩ := (hmark t).refreshToken
        rw [ho, hu, hcl, hsc]
        exact ht t htm (hfam ▸ hf)
      · obtain ⟨secret, heq⟩ := hr.refresh_of_some
        rw [heq] at hf ⊢
        exact hnew hf
    · rcases (haccess a).mp ha' with ha' | rfl
      · exact ha a ha' hf
      · rw [haccess_eq] at hf ⊢
        exact hnew (Option.some.inj hf)
  case started =>
    intro t' ht'
    rcases (hrefresh t').mp ht' with ⟨t, ht, rfl⟩ | rfl
    · obtain ⟨j, hash', access', r, hred, hf⟩ := h.started t ht
      exact ⟨j, hash', access', r, (redeems_cons_rotate rfl).mpr hred,
        hf.trans (hmark t).refreshToken.2.2.1.symm⟩
    · obtain ⟨secret, heq⟩ := hr.refresh_of_some
      obtain ⟨j, hash', access', r, hred, hf⟩ := h.started t₀ ht₀
      exact ⟨j, hash', access', r, (redeems_cons_rotate rfl).mpr hred, by rw [hf, hf₀, heq]; rfl⟩
  case started_access =>
    intro a ha f hf
    rcases (haccess a).mp ha with ha | rfl
    · obtain ⟨j, hash', access', r, hred, hrf⟩ := h.started_access a ha f hf
      exact ⟨j, hash', access', r, (redeems_cons_rotate rfl).mpr hred, hrf⟩
    · obtain ⟨j, hash', access', r, hred, hrf⟩ := h.started t₀ ht₀
      rw [haccess_eq] at hf
      exact ⟨j, hash', access', r, (redeems_cons_rotate rfl).mpr hred,
        by rw [hrf, hf₀]; exact Option.some.inj hf⟩
  case live_unique =>
    intro t₁ h₁ t₂ h₂ hf hl₁ hl₂
    rcases (hrefresh t₁).mp h₁ with ⟨s₁, hs₁, rfl⟩ | hn₁ <;>
      rcases (hrefresh t₂).mp h₂ with ⟨s₂, hs₂, rfl⟩ | hn₂
    · obtain ⟨-, -, hf₁, -, -, -, -, hlive₁⟩ := (hmark s₁).refreshToken
      obtain ⟨-, -, hf₂, -, -, -, -, hlive₂⟩ := (hmark s₂).refreshToken
      rw [h.live_unique s₁ hs₁ s₂ hs₂ (by rw [← hf₁, hf, hf₂]) (hlive₁ hl₁) (hlive₂ hl₂)]
    · subst hn₂
      obtain ⟨secret, heq⟩ := hr.refresh_of_some
      rw [(hmark s₁).refreshToken.2.2.1, heq] at hf
      exact absurd hl₁ (hother s₁ hs₁ hf)
    · subst hn₁
      obtain ⟨secret, heq⟩ := hr.refresh_of_some
      rw [(hmark s₂).refreshToken.2.2.1, heq] at hf
      exact absurd hl₂ (hother s₂ hs₂ hf.symm)
    · exact Option.some.inj (hn₁.symm.trans hn₂)
  case rotated =>
    intro j hash' access' refresh' hrot
    rcases (rotates_cons_rotate rfl).mp hrot with ⟨rfl, rfl, rfl, rfl⟩ | hrot
    · obtain ⟨-, hh, hf, -, -, -, hsc, -⟩ := (hmark t₀).refreshToken
      refine ⟨mark t₀, (hrefresh _).mpr (.inl ⟨t₀, ht₀, rfl⟩), by rw [hh, hh₀, hhash], hdead,
        ?_, ?_, fun r hr' => ?_⟩
      · rw [haccess_eq, hf, hf₀]
        rfl
      · rw [haccess_eq, hsc, hsc₀]
        exact hr.narrowed
      · cases hr'
        obtain ⟨secret, heq⟩ := hr.refresh_of_some
        rw [heq, hf, hf₀, hsc, hsc₀]
        exact ⟨rfl, hr.narrowed⟩
    · obtain ⟨t, ht, hth, hdead, hfam, hsc', hrest⟩ := h.rotated _ _ _ _ hrot
      obtain ⟨-, hh, hf, -, -, -, hsc, hlive⟩ := (hmark t).refreshToken
      refine ⟨mark t, (hrefresh _).mpr (.inl ⟨t, ht, rfl⟩), by rw [hh, hth],
        fun hl => hdead (hlive hl), ?_, ?_, ?_⟩
      · rw [hf, hfam]
      · rwa [hsc]
      · rw [hf, hsc]
        exact hrest
  case rotated_once =>
    refine once_cons.mpr ⟨fun y hy hash' hh hy' => ?_, h.rotated_once⟩
    cases hh
    obtain ⟨access', refresh', hrot⟩ := rotates_of_rotatedHash hy hy'
    obtain ⟨t, ht, hth, hdead', -⟩ := h.rotated _ _ _ _ hrot
    exact hdead' (refreshToken_eq_of_hash ht₀ ht (by rw [hth, hh₀, hhash]) ▸ hlive₀.1)
  case refresh_origin =>
    intro t' ht'
    rcases (hrefresh t').mp ht' with ⟨t, ht, rfl⟩ | rfl
    · obtain ⟨r, j, hash', access', hs, ho⟩ := h.refresh_origin t ht
      exact ⟨r, j, hash', access', RowStep.trans _ _ _ _ hs (hmark t),
        ho.imp (redeems_cons_rotate rfl).mpr fun h => (rotates_cons_rotate rfl).mpr (.inr h)⟩
    · exact ⟨t', i, hash, access, RowStep.refl _ t',
        .inr ((rotates_cons_rotate rfl).mpr (.inl ⟨rfl, rfl, rfl, rfl⟩))⟩
  case access_origin =>
    intro a ha hsome
    rcases (haccess a).mp ha with ha | rfl
    · obtain ⟨a₀, j, hash', refresh', hs, ho⟩ := h.access_origin a ha hsome
      exact ⟨a₀, j, hash', refresh', hs, ho.imp (.imp_left (redeems_cons_rotate rfl).mpr)
        fun h => (rotates_cons_rotate rfl).mpr (.inr h)⟩
    · exact ⟨a, i, hash, refresh, RowStep.refl _ a,
        .inr ((rotates_cons_rotate rfl).mpr (.inl ⟨rfl, rfl, rfl, rfl⟩))⟩

end issue

theorem issuesNothing_of_issuesNoFamily {e : Call} (he : e.issuesNoFamily) (r : e.Answer) :
    IssuesNothing ⟨e, r⟩ := by
  intro hash access refresh now
  constructor
  · intro heq
    cases heq
    cases he
  · intro heq
    cases heq
    cases he

variable {P : Primitives} {state : AppState} {clock : OffsetDateTime}
  {p : Pool Call.Answer TokenTask World ApiError (Option TokenResponse)}

theorem familyInv_of_reachable (h : (tokenMachine P state).Reachable (World.initial clock) p) :
    FamilyInv p.world p.trace := by
  refine h.invariant (TokenTask.sat P state) FamilyInv (FamilyInv.initial clock) ?_
  intro p i q e ch r w' hreach hinv hpre hexec
  replace hexec : e.exec P ch p.world = some (r, w') := hexec
  have hother : e.issuesNoFamily → FamilyInv w' (⟨i, ⟨e, r⟩, p.world⟩ :: p.trace) := fun he =>
    hinv.of_noNewTokens (issuesNothing_of_issuesNoFamily he r)
      (noNewTokens_of_issuesNoFamily he hexec)
  cases q with
  | authorizationCode request auth =>
    obtain ⟨hq, hquiet | ⟨hash, access, refresh, now, stored, client, session, rfl, hr⟩⟩ := hpre
    · exact hother (Call.issuesNoFamily_of_isQuiet hquiet)
    · rcases Call.exec_consume hexec with ⟨rfl, hd⟩ | ⟨hne, hs⟩
      · exact hinv.redeem hreach hq hr hd
      · refine hinv.of_noNewTokens ?_ (by rw [hs]; exact .refl _)
        intro _ _ _ _
        exact ⟨fun heq => by cases heq; exact hne rfl, nofun⟩
  | refreshToken request auth =>
    rcases hpre with ⟨hq, hquiet | ⟨hash, access, refresh, now, stored, client, scopes, rfl, hr⟩⟩ |
      ⟨-, hash, stored, now, rfl, -⟩
    · exact hother (Call.issuesNoFamily_of_isQuiet hquiet)
    · rcases Call.exec_rotate hexec with ⟨rfl, hd⟩ | ⟨hne, hs⟩
      · exact hinv.rotate hreach hr hd
      · refine hinv.of_noNewTokens ?_ (by rw [hs]; exact .refl _)
        intro _ _ _ _
        exact ⟨nofun, fun heq => by cases heq; exact hne rfl⟩
    · exact hother rfl
  | clientCredentials request auth => exact hother hpre
  | revoke request auth => exact hother hpre
  | method c hc => exact hother hpre

/-- The refresh token was issued for a code, or for another token of its family,
    with rights within those of its source. -/
def RefreshToken.WithinSource (tr : Trace) (db : Db) (t : RefreshToken) : Prop :=
  ∃ r i hash access, RowStep .refreshTokens r t ∧
    ((Redeems tr i hash access (some r) ∧ ∃ c ∈ db .authorizationCodes, c.codeHash = hash ∧
        c.covers t.organizationId t.userId t.clientId t.scopes) ∨
      (Rotates tr i hash access (some r) ∧ ∃ t' ∈ db .refreshTokens, t'.tokenHash = hash ∧
        t'.familyId = t.familyId ∧ t.scopes ⊆ t'.scopes))

/-- The same for an access token of a family. -/
def AccessTokenRecord.WithinSource (tr : Trace) (db : Db) (a : AccessTokenRecord) : Prop :=
  ∃ a₀ i hash refresh, RowStep .accessTokens a₀ a ∧
    ((Redeems tr i hash a₀ refresh ∧ ∃ c ∈ db .authorizationCodes, c.codeHash = hash ∧
        c.covers a.organizationId a.userId a.clientId a.scopes) ∨
      (Rotates tr i hash a₀ refresh ∧ ∃ t' ∈ db .refreshTokens, t'.tokenHash = hash ∧
        a.refreshFamilyId = some t'.familyId ∧ a.scopes ⊆ t'.scopes))

/-- What it means that the families of a run are linear. -/
structure LinearFamilies (P : Primitives)
    (p : Pool Call.Answer TokenTask World ApiError (Option TokenResponse)) : Prop where
  live_unique : ∀ t ∈ p.world.store.tables .refreshTokens,
    ∀ t' ∈ p.world.store.tables .refreshTokens, t.familyId = t'.familyId →
      t.live → t'.live → t = t'
  presented_once : ∀ i j request request' auth auth' token token',
    TokenTask.Answered p i (.refreshToken request auth) →
    TokenTask.Answered p j (.refreshToken request' auth') →
    request.refreshToken = some token → request'.refreshToken = some token' →
    hashToken P token = hashToken P token' → i = j
  refresh_source : ∀ t ∈ p.world.store.tables .refreshTokens,
    t.WithinSource p.trace p.world.store.tables
  access_source : ∀ a ∈ p.world.store.tables .accessTokens, a.refreshFamilyId.isSome →
    a.WithinSource p.trace p.world.store.tables
  /-- A family with a token was started by redeeming a code, and the code covers
      all its tokens. -/
  started : ∀ f, ((∃ t ∈ p.world.store.tables .refreshTokens, t.familyId = f) ∨
      ∃ a ∈ p.world.store.tables .accessTokens, a.refreshFamilyId = some f) →
    ∃ i access r, ∃ c ∈ p.world.store.tables .authorizationCodes,
      Redeems p.trace i c.codeHash access (some r) ∧ r.familyId = f ∧
      (∀ t ∈ p.world.store.tables .refreshTokens, t.familyId = f →
        c.covers t.organizationId t.userId t.clientId t.scopes) ∧
      ∀ a ∈ p.world.store.tables .accessTokens, a.refreshFamilyId = some f →
        c.covers a.organizationId a.userId a.clientId a.scopes

/-- A refresh request that answered with tokens rotated the token it presented. -/
theorem rotates_of_answered (h : (tokenMachine P state).Reachable (World.initial clock) p) {i : ℕ}
    {request : TokenRequest} {auth : OAuthClientAuth} {token : String}
    (ha : TokenTask.Answered p i (.refreshToken request auth))
    (htoken : request.refreshToken = some token) :
    ∃ x ∈ p.trace, x.thread = i ∧ rotatedHash x.event = some (hashToken P token) := by
  obtain ⟨t, response, ht, hreq, ho⟩ := ha
  have hpost := h.post_of_outcome (TokenTask.sat P state) ht ho
  rw [hreq] at hpost
  obtain ⟨hash, access, refresh, now, stored, client, scopes, h', heq, hr⟩ := hpost
  obtain ⟨x, hx, hi, hev⟩ := mem_own.mp (heq ▸ List.mem_cons_self : _ ∈ own i p.trace)
  obtain ⟨token', htoken', rfl⟩ := hr.checked.presented
  rw [htoken] at htoken'
  cases htoken'
  exact ⟨x, hx, hi, by rw [hev]; rfl⟩

/-- **Refresh token families are linear**, in every run from an empty store. -/
theorem refreshFamilies_linear (h : (tokenMachine P state).Reachable (World.initial clock) p) :
    LinearFamilies P p := by
  have hinv := familyInv_of_reachable h
  constructor
  case live_unique => exact hinv.live_unique
  case presented_once =>
    intro i j request request' auth auth' token token' ha ha' ht ht' hhash
    obtain ⟨x, hx, rfl, hxh⟩ := rotates_of_answered h ha ht
    obtain ⟨y, hy, rfl, hyh⟩ := rotates_of_answered h ha' ht'
    rw [hinv.rotated_once.eq hx hy hxh (hhash ▸ hyh)]
  case refresh_source =>
    intro t ht
    obtain ⟨r, i, hash, access, hs, hred | hrot⟩ := hinv.refresh_origin t ht
    · obtain ⟨c, hc, hh, hcover, -⟩ := hinv.covered _ _ _ _ hred
      exact ⟨r, i, hash, access, hs, .inl ⟨hred, c, hc, hh, hcover t ht hs.refreshToken.2.2.1⟩⟩
    · obtain ⟨t', ht', hh, -, -, -, hnew⟩ := hinv.rotated _ _ _ _ hrot
      obtain ⟨-, -, hf, -, -, -, hsc, -⟩ := hs.refreshToken
      obtain ⟨hf', hsc'⟩ := hnew r rfl
      exact ⟨r, i, hash, access, hs, .inr ⟨hrot, t', ht', hh, by rw [hf, hf'], by rwa [hsc]⟩⟩
  case access_source =>
    intro a ha hsome
    obtain ⟨a₀, i, hash, refresh, hs, ⟨hred, hfam⟩ | hrot⟩ := hinv.access_origin a ha hsome
    · rw [hs.accessToken.2.1, hfam, Option.isSome_map] at hsome
      obtain ⟨r, rfl⟩ := Option.isSome_iff_exists.mp hsome
      obtain ⟨c, hc, hh, -, hcover⟩ := hinv.covered _ _ _ _ hred
      refine ⟨a₀, i, hash, some r, hs, .inl ⟨hred, c, hc, hh, hcover a ha ?_⟩⟩
      rw [hs.accessToken.2.1, hfam]
      rfl
    · obtain ⟨t', ht', hh, -, hf', hsc', -⟩ := hinv.rotated _ _ _ _ hrot
      obtain ⟨-, hf, -, -, -, hsc⟩ := hs.accessToken
      exact ⟨a₀, i, hash, refresh, hs, .inr ⟨hrot, t', ht', hh, by rw [hf, hf'], by rwa [hsc]⟩⟩
  case started =>
    intro f hf
    have hstarted : ∃ i hash access r, Redeems p.trace i hash access (some r) ∧ r.familyId = f := by
      rcases hf with ⟨t, ht, rfl⟩ | ⟨a, ha, hf⟩
      · exact hinv.started t ht
      · exact hinv.started_access a ha f hf
    obtain ⟨i, hash, access, r, hred, rfl⟩ := hstarted
    obtain ⟨c, hc, rfl, ht, ha⟩ := hinv.covered _ _ _ _ hred
    exact ⟨i, access, r, c, hc, hred, rfl, ht, ha⟩

/-- After a code exchange and a refresh the family has its rotated and its live
    token. -/
theorem refreshFamilies_linear_after_refresh :
    ∃ p, Sample.after (Sample.setup ++ Sample.exchange ++ Sample.refresh) = some p ∧
      (p.world.store.tables .refreshTokens).map (fun t => (t.tokenHash, t.familyId, t.rotatedAt)) =
        [("r1", 11, some 0), ("r2", 11, none)] ∧
      LinearFamilies Sample.primitives p := by
  have hrun : (Sample.after (Sample.setup ++ Sample.exchange ++ Sample.refresh)).map (fun p =>
      (p.world.store.tables .refreshTokens).map fun t => (t.tokenHash, t.familyId, t.rotatedAt)) =
      some [("r1", 11, some 0), ("r2", 11, none)] := by decide
  obtain ⟨p, hp, hrows⟩ := Option.map_eq_some_iff.mp hrun
  exact ⟨p, hp, hrows, refreshFamilies_linear (Machine.Reachable.start.run hp)⟩

end CairnId
