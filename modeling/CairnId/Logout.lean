import CairnId.Http.LogoutSpec
import CairnId.Http.TokenRuns
import CairnId.KeyRotation
import CairnId.Publication

/-!
# Logout across key rotations

ID tokens are signed with the key that is active when they are issued, and a
logout request is checked against the key that is active when it arrives. Runs
of rotations, retirements, token requests and logout requests: as long as the
two are the same key, the hint is accepted, and whatever is refused leaves the
browser's session alone.
-/

namespace CairnId

open Concurrency Prog Database

/-- The JWT library verifies exactly what was signed with the matching key. -/
structure Primitives.Jwt (P : Primitives) : Prop where
  nonempty : ∀ pem kid claims token, P.encodeJwt pem kid claims = some token → token ≠ ""
  header : ∀ pem kid claims token, P.encodeJwt pem kid claims = some token →
    P.decodeHeader token = some ⟨"RS256", some kid⟩
  verifies : ∀ pem kid claims token n e, P.encodeJwt pem kid claims = some token →
    P.rsaComponents pem = some (n, e) → P.decodeJwt n e token = some claims
  signed : ∀ n e token claims, P.decodeJwt n e token = some claims →
    ∃ pem kid, P.rsaComponents pem = some (n, e) ∧ P.encodeJwt pem kid claims = some token

variable (P : Primitives) (state : AppState)

/-- The public JWK is that of the private key. -/
def KeyPair (privateKeyPem : String) (publicJwk : Json) : Prop :=
  ∃ n e, P.rsaComponents privateKeyPem = some (n, e) ∧ publicJwk.text? "n" = some n ∧
    publicJwk.text? "e" = some e

/-- The signing material in use. -/
def Resolves (w : World) (m : SigningMaterial) : Prop :=
  ∃ w', (resolveSigningMaterial P state).Runs (Call.exec P) w (.ok m) w'

/-- What holds of an installation that has been set up. -/
structure Consistent (w : World) : Prop where
  organization : ∃ o ∈ w.store.tables .organizations, o.id = state.organizationId
  auditEvents : ∀ e ∈ w.store.tables .auditEvents, e.id ∈ w.uuids
  /-- `RedirectUri::parse` refuses the empty text. -/
  redirectUris : ∀ c ∈ w.store.tables .oidcClients, ∀ uri ∈ c.postLogoutRedirectUris,
    uri.value ≠ ""
  staticKey : ∀ m ∈ state.config.signing, KeyPair P m.privateKeyPem m.publicJwk
  signingKeys : ∀ k ∈ w.store.tables .signingKeys, ∀ key ciphertext nonce pem,
    state.config.keyEncryptionKey = some key → k.privateKeyCiphertext = some ciphertext →
    k.privateKeyNonce = some nonce → P.decrypt key nonce (signingKeyAad k.kid) ciphertext = some pem →
    KeyPair P pem k.publicJwk

/-- An ID token, the public identifier of the client that got it, and the key that
    was in use. -/
structure IssuedIdToken where
  idToken : String
  clientId : String
  signing : SigningMaterial

/-- The token was issued by the code request made with `auth` in `w`. -/
structure IssuedIdToken.IssuedIn (x : IssuedIdToken) (w : World) (auth : OAuthClientAuth)
    (o : Except ApiError TokenResponse) : Prop where
  answered : ∃ response, o = .ok response ∧ response.idToken = some x.idToken
  client : auth.clientId = some x.clientId
  signing : Resolves P state w x.signing

/-- A token that a code request issued, in any later state of the run. -/
structure IssuedIdToken.Valid (x : IssuedIdToken) (w : World) : Prop where
  signed : ∃ claims, P.encodeJwt x.signing.privateKeyPem x.signing.keyId claims = some x.idToken ∧
    claims.aud = x.clientId ∧ claims.iss = trimEndMatches '/' state.config.issuer
  client : ∃ c ∈ w.store.tables .oidcClients, c.clientId = x.clientId ∧
    c.organizationId = state.organizationId ∧ oidcClientIsActive c = true

/-- Runs of key operations, code requests and logout requests, each uninterrupted,
    with the ID tokens that have been issued. -/
inductive LogoutRun : World → List IssuedIdToken → Prop
  | start {w : World} : Consistent P state w → LogoutRun w []
  | rotate {w w' : World} {issued : List IssuedIdToken}
      {o : Except CommandError SigningKeyRotationReport} : LogoutRun w issued →
      (rotateSigningKey P state.config).Runs (Call.exec P) w o w' → LogoutRun w' issued
  | retire {w w' : World} {issued : List IssuedIdToken} {kid : String}
      {o : Except CommandError Bool} : LogoutRun w issued →
      (retireSigningKey kid).Runs (Call.exec P) w o w' → LogoutRun w' issued
  | issue {w w' : World} {issued new : List IssuedIdToken} {request : TokenRequest}
      {auth : OAuthClientAuth} {o : Except ApiError TokenResponse} : LogoutRun w issued →
      (authorizationCodeToken P state request auth).Runs (Call.exec P) w o w' →
      (∀ x ∈ new, x.IssuedIn P state w auth o) → LogoutRun w' (new ++ issued)
  | endSession {w w' : World} {issued : List IssuedIdToken} {headers : RequestHeaders}
      {request : EndSessionRequest} {o : Except ApiError LogoutResponse} : LogoutRun w issued →
      (endSessionResponse P state headers request).Runs (Call.exec P) w o w' →
      LogoutRun w' issued

/-- The session that the browser's cookie names is in use. -/
structure BrowserSession (headers : RequestHeaders) (w : World) (session : AuthSession) : Prop where
  cookie : ∃ raw, cookieValue headers "cairn_session" = some raw ∧
    P.parseUuid raw = some session.id
  organization : session.organizationId = state.organizationId
  unrevoked : session.revokedAt = none
  unexpired : w.clock < session.expiresAt
  user : ∃ u ∈ w.store.tables .users, u.user.id = session.userId ∧
    userAllowsRuntimeAccess u.user session.organizationId = true

/-- A session in use before is revoked afterwards, unless it has expired meanwhile. -/
def SessionEnded (headers : RequestHeaders) (w w' : World) : Prop :=
  ∀ r ∈ w.store.tables .authSessions, BrowserSession P state headers w r.session →
    r.session.expiresAt ≤ w'.clock ∨
      ∃ instant, { r with session := { r.session with revokedAt := some instant } } ∈
        w'.store.tables .authSessions

/-- What a redirect rests on: a token of this issuer, signed with the key in use,
    whose audience is an active client that has registered the URI. -/
def RedirectJustified (w : World) (request : EndSessionRequest) (target : String) : Prop :=
  ∃ hint uri m pem claims, request.idTokenHint = some hint ∧
    request.postLogoutRedirectUri = some uri ∧ Resolves P state w m ∧
    KeyPair P pem m.publicJwk ∧ P.encodeJwt pem m.keyId claims = some hint ∧
    claims.iss = trimEndMatches '/' state.config.issuer ∧
    ∃ c ∈ w.store.tables .oidcClients, c.clientId = claims.aud ∧
      c.organizationId = state.organizationId ∧ oidcClientIsActive c = true ∧
      c.allowsPostLogoutRedirectUri uri = true ∧
      target = appendPostLogoutRedirectParams uri request.state

section resolve

variable {P state} {w w' : World} {m : SigningMaterial}

/-- Where signing material comes from. -/
theorem runs_resolveSigningMaterial
    (h : (resolveSigningMaterial P state).Runs (Call.exec P) w (.ok m) w') :
    (state.config.keyEncryptionKey = none ∧ state.config.signing = some m) ∨
      ∃ key stored, state.config.keyEncryptionKey = some key ∧
        (DbCall.activeSigningKey.exec w.store).1 = .ok stored ∧
        ((stored = none ∧ state.config.signing = some m) ∨
          ∃ material, stored = some material ∧ decryptSigningMaterial P material key = .ok m) := by
  obtain ⟨found, w₁, hread, hrest⟩ := runs_bind_ok.mp h
  have hstatic : found = none → state.config.signing = some m := by
    rintro rfl
    dsimp only at hrest
    split at hrest
    · rename_i signing hs
      simp only [pure_eq, runs_ret, Except.ok.injEq] at hrest
      rw [hs, hrest.1]
    · simp [App.oauthError] at hrest
  cases hkey : state.config.keyEncryptionKey with
  | none =>
    simp only [hkey, pure_eq, runs_ret, Except.ok.injEq] at hread
    exact .inl ⟨rfl, hstatic hread.1⟩
  | some key =>
    simp only [hkey] at hread
    obtain ⟨stored, w₂, hdb, hread⟩ := runs_bind_ok.mp hread
    simp only [pure_eq, runs_ret, Except.ok.injEq] at hread
    refine .inr ⟨key, stored, rfl, congrArg Prod.fst (App.runs_db_ok hdb), ?_⟩
    cases stored with
    | none => exact .inl ⟨rfl, hstatic hread.1⟩
    | some material =>
      obtain ⟨rfl, -⟩ := hread
      simp only [Option.map_some] at hrest
      split at hrest
      · rename_i signing hdec
        simp only [pure_eq, runs_ret, Except.ok.injEq] at hrest
        exact .inr ⟨material, rfl, by rw [hdec, hrest.1]⟩
      · simp [App.oauthError] at hrest

/-- Only the signing keys matter. -/
theorem Resolves.congr {w₁ : World} (h : Resolves P state w m)
    (hs : w₁.store.tables .signingKeys = w.store.tables .signingKeys) :
    Resolves P state w₁ m := by
  obtain ⟨w₂, h⟩ := h
  refine ⟨w₁, ?_⟩
  rcases runs_resolveSigningMaterial h with ⟨hkey, hsigning⟩ | ⟨key, stored, hkey, hexec, hfrom⟩
  · simp [resolveSigningMaterial, hkey, hsigning]
  · have hdb : (App.db .activeSigningKey).Runs (Call.exec P) w₁ (.ok stored) w₁ := by
      have hexec₁ : (DbCall.activeSigningKey.exec w₁.store).1 = .ok stored := by
        rw [← hexec]
        show Except.ok _ = Except.ok _
        rw [hs]
      refine runs_call.mpr ⟨{}, .ok stored, w₁, ?_, by simp⟩
      simp only [Call.exec, hexec₁]
      rw [if_neg (by decide), DbCall.exec_of_isQuery (c := .activeSigningKey) rfl]
    simp only [resolveSigningMaterial, hkey]
    rw [Prog.bind_assoc]
    refine runs_bind_ok.mpr ⟨stored, w₁, hdb, ?_⟩
    rcases hfrom with ⟨rfl, hsigning⟩ | ⟨material, rfl, hdec⟩
    · simp [hsigning]
    · simp [hdec]

theorem Resolves.of_store {w₁ : World} (h : Resolves P state w m) (hs : w₁.store = w.store)
    {o : Except ApiError SigningMaterial}
    (hr : (resolveSigningMaterial P state).Runs (Call.execReliably P) w₁ o w') :
    o = .ok m ∧ w' = w₁ := by
  obtain ⟨w₂, h⟩ := h
  rcases runs_resolveSigningMaterial h with ⟨hkey, hsigning⟩ | ⟨key, stored, hkey, hexec, hfrom⟩
  · simpa [resolveSigningMaterial, hkey, hsigning] using hr
  · rw [← hs] at hexec
    simp only [resolveSigningMaterial, hkey] at hr
    rw [Prog.bind_assoc] at hr
    rcases runs_bind.mp hr with ⟨stored', w₃, hdb, hrest⟩ | ⟨e, -, hdb⟩
    · obtain ⟨ho, hw⟩ := App.runs_db_reliably hdb
      rw [hexec] at ho
      cases ho
      have hw : w₃ = w₁ := by
        rw [hw, DbCall.exec_of_isQuery (c := .activeSigningKey) rfl]
      rcases hfrom with ⟨rfl, hsigning⟩ | ⟨material, rfl, hdec⟩
      · simpa [hsigning, hw] using hrest
      · simpa [hdec, hw] using hrest
    · obtain ⟨ho, -⟩ := App.runs_db_reliably hdb
      rw [hexec] at ho
      cases ho

theorem Resolves.unique {m' : SigningMaterial} (h : Resolves P state w m)
    (h' : Resolves P state w m') : m = m' := by
  obtain ⟨w₁, h⟩ := h
  obtain ⟨w₂, h'⟩ := h'
  rcases runs_resolveSigningMaterial h with ⟨hkey, hm⟩ | ⟨key, stored, hkey, hexec, hfrom⟩ <;>
    rcases runs_resolveSigningMaterial h' with
      ⟨hkey', hm'⟩ | ⟨key', stored', hkey', hexec', hfrom'⟩ <;>
    grind

theorem Consistent.keyPair (hw : Consistent P state w) (h : Resolves P state w m) :
    KeyPair P m.privateKeyPem m.publicJwk := by
  obtain ⟨w₁, h⟩ := h
  rcases runs_resolveSigningMaterial h with ⟨-, hm⟩ | ⟨key, stored, hkey, hexec, ⟨-, hm⟩ |
    ⟨material, rfl, hdec⟩⟩
  · exact hw.staticKey m hm
  · exact hw.staticKey m hm
  · obtain ⟨hsome, -⟩ := atomic_activeSigningKey
      (Prod.ext hexec rfl : DbCall.activeSigningKey.exec w.store = (_, _))
    obtain ⟨k, hk, -, hmaterial⟩ := hsome material rfl
    have hrow := material?_eq_some hmaterial
    subst hrow
    obtain ⟨-, hjwk, hpem⟩ := decryptSigningMaterial_eq_ok hdec
    rw [hjwk]
    exact hw.signingKeys _ hk key _ _ _ hkey rfl rfl hpem

end resolve

section issue

variable {P state} {w w' : World} {auth : OAuthClientAuth}

/-- The ID token of a code request, and the client it is for. -/
theorem runs_authorizationCodeToken {request : TokenRequest} {response : TokenResponse}
    (h : (authorizationCodeToken P state request auth).Runs (Call.exec P) w (.ok response) w') :
    ∃ issue : IdTokenIssueRequest, ∃ now idToken, response.idToken = some idToken ∧
      issueIdToken P issue now = some idToken ∧ issue.issuer = state.config.issuer ∧
      Resolves P state w issue.signing ∧ issue.client ∈ w.store.tables .oidcClients ∧
      auth.clientId = some issue.client.clientId ∧
      issue.client.organizationId = state.organizationId ∧
      oidcClientIsActive issue.client = true := by
  obtain ⟨code, w₁, h₁, hrest⟩ := runs_bind_ok.mp h
  obtain ⟨found, w₂, h₂, hrest⟩ := runs_bind_ok.mp hrest
  cases found with
  | none => simp [App.oauthError] at hrest
  | some stored =>
  obtain ⟨now, w₃, h₃, hrest⟩ := runs_bind_ok.mp hrest
  obtain ⟨_, w₄, h₄, hrest⟩ := runs_bind_ok.mp hrest
  obtain ⟨_, w₅, h₅, hrest⟩ := runs_bind_ok.mp hrest
  obtain ⟨client, w₆, h₆, hrest⟩ := runs_bind_ok.mp hrest
  obtain ⟨_, w₇, h₇, hrest⟩ := runs_bind_ok.mp hrest
  obtain ⟨_, w₈, h₈, hrest⟩ := runs_bind_ok.mp hrest
  obtain ⟨verifier, w₉, h₉, hrest⟩ := runs_bind_ok.mp hrest
  obtain ⟨_, w₁₀, h₁₀, hrest⟩ := runs_bind_ok.mp hrest
  obtain ⟨foundUser, w₁₁, h₁₁, hrest⟩ := runs_bind_ok.mp hrest
  cases foundUser with
  | none => simp [App.oauthError] at hrest
  | some user =>
  obtain ⟨_, w₁₂, h₁₂, hrest⟩ := runs_bind_ok.mp hrest
  obtain ⟨foundSession, w₁₃, h₁₃, hrest⟩ := runs_bind_ok.mp hrest
  cases foundSession with
  | none => simp [App.oauthError] at hrest
  | some session =>
  obtain ⟨_, w₁₄, h₁₄, hrest⟩ := runs_bind_ok.mp hrest
  obtain ⟨groups, w₁₅, h₁₅, hrest⟩ := runs_bind_ok.mp hrest
  obtain ⟨signing, w₁₆, h₁₆, hrest⟩ := runs_bind_ok.mp hrest
  obtain ⟨issuedAt, w₁₇, -, hrest⟩ := runs_bind_ok.mp hrest
  have hs₅ : w₅.store = w.store := calc
    w₅.store = w₄.store := runs_quiet (.bind (all_requiredOauthFormParameter ..) fun _ =>
      .when (.fail _)) h₅
    _ = w₃.store := runs_quiet (.when (.fail _)) h₄
    _ = w₂.store := runs_quiet (.perform rfl) h₃
    _ = w₁.store := runs_quiet (App.all_db rfl) h₂
    _ = w.store := runs_quiet (all_requiredOauthFormParameter ..) h₁
  have hs₁₅ : w₁₅.store = w₅.store := calc
    w₁₅.store = w₁₄.store := runs_quiet (all_groupsClaimForUser ..) h₁₅
    _ = w₁₃.store := runs_quiet (.when (.fail _)) h₁₄
    _ = w₁₂.store := runs_quiet (App.all_db rfl) h₁₃
    _ = w₁₁.store := runs_quiet (.when (.fail _)) h₁₂
    _ = w₁₀.store := runs_quiet (App.all_db rfl) h₁₁
    _ = w₉.store := runs_quiet (.when (.fail _)) h₁₀
    _ = w₈.store := runs_quiet (all_requiredOauthFormParameter ..) h₉
    _ = w₇.store := runs_quiet (.when (.fail _)) h₈
    _ = w₆.store := runs_quiet (.when (.fail _)) h₇
    _ = w₅.store := runs_quiet (all_authenticatedClientFromRequest ..) h₆
  obtain ⟨hmem, hid, horg, hactive⟩ := runs_authenticatedClientFromRequest h₆
  rw [hs₅] at hmem
  have hresolves : Resolves P state w signing :=
    Resolves.congr ⟨w₁₆, h₁₆⟩ (by rw [hs₁₅, hs₅])
  split at hrest
  · rename_i idToken hissue
    obtain ⟨refresh, w₁₈, -, hrest⟩ := runs_bind_ok.mp hrest
    obtain ⟨access, w₁₉, -, hrest⟩ := runs_bind_ok.mp hrest
    obtain ⟨consumed, w₂₀, -, hrest⟩ := runs_bind_ok.mp hrest
    obtain ⟨_, w₂₁, -, hrest⟩ := runs_bind_ok.mp hrest
    simp only [pure_eq, runs_ret, Except.ok.injEq] at hrest
    obtain ⟨rfl, -⟩ := hrest
    exact ⟨_, issuedAt, idToken, rfl, hissue, rfl, hresolves, hmem, hid, horg, hactive⟩
  · simp [App.oauthError] at hrest

end issue

section consistent

variable {P state} {w w' : World}

/-- What a step has to keep for the installation to stay consistent. -/
theorem Consistent.of_tables (h : Consistent P state w)
    (horg : w'.store.tables .organizations = w.store.tables .organizations)
    (hclients : w'.store.tables .oidcClients = w.store.tables .oidcClients)
    (haudit : ∀ e ∈ w'.store.tables .auditEvents, e.id ∈ w'.uuids)
    (hkeys : ∀ k ∈ w'.store.tables .signingKeys, ∀ key ciphertext nonce pem,
      state.config.keyEncryptionKey = some key → k.privateKeyCiphertext = some ciphertext →
      k.privateKeyNonce = some nonce →
      P.decrypt key nonce (signingKeyAad k.kid) ciphertext = some pem →
      KeyPair P pem k.publicJwk) : Consistent P state w' where
  organization := horg ▸ h.organization
  auditEvents := haudit
  redirectUris := hclients ▸ h.redirectUris
  staticKey := h.staticKey
  signingKeys := hkeys

/-- A part of a run that writes none of the tables concerned. -/
theorem Consistent.of_runs (h : Consistent P state w) {ε α : Type} {p : Prog Call Call.Answer ε α}
    {o : Except ε α} (hr : p.Runs (Call.exec P) w o w')
    (hp : ∀ t ∈ [Tab.organizations, .oidcClients, .auditEvents, .signingKeys],
      p.All (Call.Leaves t)) : Consistent P state w' := by
  have htables : ∀ t ∈ [Tab.organizations, .oidcClients, .auditEvents, .signingKeys],
      w'.store.tables t = w.store.tables t := fun t ht => runs_leaves (hp t ht) hr
  refine h.of_tables (htables _ (by simp)) (htables _ (by simp)) ?_ ?_
  · rw [htables _ (by simp)]
    exact fun e he => runs_uuids hr (h.auditEvents e he)
  · rw [htables _ (by simp)]
    exact h.signingKeys

theorem Consistent.of_quiet (h : Consistent P state w) {ε α : Type} {p : Prog Call Call.Answer ε α}
    {o : Except ε α} (hr : p.Runs (Call.exec P) w o w') (hp : p.All fun e => e.isQuiet = true) :
    Consistent P state w' :=
  h.of_runs hr fun t _ => hp.mono fun _ he => Call.leaves_of_isQuiet he t

/-- A generated key is encrypted next to its own public JWK. -/
theorem runs_generateEncryptedSigningKey_keyPair {key : KeyEncryptionKey} {k : SigningKeyMaterial}
    (h : (generateEncryptedSigningKey P key).Runs (Call.exec P) w (.ok k) w') :
    k.privateKeyNonce.length = 12 ∧ ∃ pem, KeyPair P pem k.publicJwk ∧
      P.encrypt key k.privateKeyNonce (signingKeyAad k.kid) pem = some k.privateKeyCiphertext := by
  obtain ⟨pem, w₁, -, hrest⟩ := runs_bind_ok.mp h
  cases pem with
  | none => simp at hrest
  | some pem =>
    obtain ⟨u, w₂, -, hrest⟩ := runs_bind_ok.mp hrest
    dsimp only at hrest
    split at hrest
    · rename_i jwk hjwk
      obtain ⟨nonce, w₃, hnonce, hrest⟩ := runs_bind_ok.mp hrest
      split at hrest
      · rename_i ciphertext henc
        obtain ⟨createdAt, w₄, -, hrest⟩ := runs_bind_ok.mp hrest
        simp only [pure_eq, runs_ret, Except.ok.injEq] at hrest
        obtain ⟨rfl, -⟩ := hrest
        refine ⟨runs_generateNonce hnonce, pem, ?_, henc⟩
        obtain ⟨⟨n, e⟩, hcomponents, hjwk⟩ := Option.bind_eq_some_iff.mp hjwk
        cases hjwk
        exact ⟨n, e, hcomponents, rfl, rfl⟩
      · simp at hrest
    · simp at hrest

theorem leaves_upsertSigningKeyMaterial (k : SigningKeyMaterial) {t : Tab}
    (ht : t ≠ .signingKeys) : (Call.db (.upsertSigningKeyMaterial k)).Leaves t := by
  refine Call.leaves_of_target ?_
  have hne : some Tab.signingKeys ≠ some t := fun h => ht (Option.some.inj h).symm
  exact .bind (.when (.bind (.perform hne) fun _ => .ret _)) fun _ =>
    .bind (.perform hne) fun _ => .ret _

theorem leaves_retireSigningKey (kid : String) (instant : OffsetDateTime) {t : Tab}
    (ht : t ≠ .signingKeys) : (Call.db (.retireSigningKey kid instant)).Leaves t := by
  refine Call.leaves_of_target ?_
  have hne : some Tab.signingKeys ≠ some t := fun h => ht (Option.some.inj h).symm
  exact .bind (.perform hne) fun _ => .ret _

theorem all_command_db {c : DbCall} {Q : Call → Prop} (hc : Q (.db c)) :
    (Command.db c).All Q := by
  refine ⟨hc, fun r => ?_⟩
  cases r <;> trivial

theorem all_rotateSigningKey (config : ApiConfig) {t : Tab} (ht : t ≠ .signingKeys) :
    (rotateSigningKey P config).All (Call.Leaves t) := by
  unfold rotateSigningKey
  split
  · trivial
  · refine .bind (.mapError ((all_generateEncryptedSigningKey _).mono fun _ he =>
      Call.leaves_of_isQuiet he t)) fun k => .bind (.perform (Call.leaves_of_isQuiet rfl t)) fun _ =>
      .bind (all_command_db (leaves_upsertSigningKeyMaterial k ht)) fun _ => .ret _

theorem Consistent.rotate (hP : P.Aead) (h : Consistent P state w)
    {o : Except CommandError SigningKeyRotationReport}
    (hr : (rotateSigningKey P state.config).Runs (Call.exec P) w o w') : Consistent P state w' := by
  have hframe : ∀ t, t ≠ .signingKeys → w'.store.tables t = w.store.tables t := fun t ht =>
    runs_leaves (all_rotateSigningKey _ ht) hr
  refine h.of_tables (hframe .organizations nofun) (hframe .oidcClients nofun) ?_ ?_
  · rw [hframe .auditEvents nofun]
    exact fun e he => runs_uuids hr (h.auditEvents e he)
  unfold rotateSigningKey at hr
  cases hkey : state.config.keyEncryptionKey with
  | none => exact fun _ _ _ _ _ _ hk => by cases hk
  | some key =>
  rw [hkey] at hr
  have hsame : ∀ {s : Store}, s = w.store → ∀ k ∈ s.tables .signingKeys, ∀ key' ciphertext nonce pem,
      some key = some key' → k.privateKeyCiphertext = some ciphertext →
      k.privateKeyNonce = some nonce →
      P.decrypt key' nonce (signingKeyAad k.kid) ciphertext = some pem →
      KeyPair P pem k.publicJwk := by
    rintro _ rfl k hk key' ciphertext nonce pem hk'
    exact h.signingKeys k hk key' ciphertext nonce pem (hkey.trans hk')
  rcases runs_bind.mp hr with ⟨k, w₁, hgen, hrest⟩ | ⟨e, -, hgen⟩
  rotate_left
  · exact hsame (runs_quiet (.mapError (all_generateEncryptedSigningKey _)) hgen)
  have hs₁ := runs_quiet (.mapError (all_generateEncryptedSigningKey _)) hgen
  rcases runs_bind.mp hrest with ⟨now, w₂, hnow, hrest⟩ | ⟨e, -, hnow⟩
  rotate_left
  · exact hsame ((runs_quiet (.perform rfl) hnow).trans hs₁)
  have hs₂ := (runs_quiet (.perform rfl) hnow).trans hs₁
  have hup : ∃ o', (Command.db (.upsertSigningKeyMaterial k)).Runs (Call.exec P) w₂ o' w' := by
    rcases runs_bind.mp hrest with ⟨_, w₃, hup, hret⟩ | ⟨e, -, hup⟩
    · obtain ⟨-, rfl⟩ := runs_ret.mp hret
      exact ⟨_, hup⟩
    · exact ⟨_, hup⟩
  obtain ⟨o', hup⟩ := hup
  have hgen := runs_mapError_ok.mp hgen
  rcases runs_upsertSigningKeyMaterial (runs_generateEncryptedSigningKey hgen).1 hup with
    ⟨-, hactivated⟩ | ⟨-, hs⟩
  · obtain ⟨hlen, pem, hpair, henc⟩ := runs_generateEncryptedSigningKey_keyPair hgen
    intro k' hk' key' ciphertext nonce pem' hk hc hn hdec
    cases hk
    rcases hactivated.others k' hk' with rfl | ⟨k₀, hk₀, -, rfl⟩
    · cases hc
      cases hn
      have := hP.decrypt_encrypt _ _ _ _ _ hlen henc
      rw [show P.decrypt key k.privateKeyNonce (signingKeyAad k.kid) k.privateKeyCiphertext =
        some pem' from hdec] at this
      cases this
      exact hpair
    · exact hsame hs₂ k₀ hk₀ key ciphertext nonce pem' rfl hc hn hdec
  · exact hsame (hs.trans hs₂)

theorem all_retireSigningKey (kid : String) {t : Tab} (ht : t ≠ .signingKeys) :
    (retireSigningKey kid).All (Call.Leaves t) :=
  .bind (.perform (Call.leaves_of_isQuiet rfl t)) fun _ =>
    all_command_db (leaves_retireSigningKey _ _ ht)

theorem Consistent.retire (h : Consistent P state w) {kid : String}
    {o : Except CommandError Bool}
    (hr : (retireSigningKey kid).Runs (Call.exec P) w o w') : Consistent P state w' := by
  have hframe : ∀ t, t ≠ .signingKeys → w'.store.tables t = w.store.tables t := fun t ht =>
    runs_leaves (all_retireSigningKey kid ht) hr
  refine h.of_tables (hframe .organizations nofun) (hframe .oidcClients nofun) ?_ ?_
  · rw [hframe .auditEvents nofun]
    exact fun e he => runs_uuids hr (h.auditEvents e he)
  rcases runs_bind.mp hr with ⟨instant, w₁, hnow, hdb⟩ | ⟨e, -, hnow⟩
  · have hs₁ : w₁.store = w.store := runs_quiet (.perform rfl) hnow
    rcases Command.runs_db hdb with ⟨e, -, hs⟩ | ⟨r, hx, -⟩
    · rw [hs, hs₁]
      exact h.signingKeys
    · rcases atomic_retireSigningKey hx with ⟨-, hrows⟩ | ⟨-, hs⟩
      · rw [hrows, hs₁]
        intro k hk key ciphertext nonce pem hkey hc hn hdec
        obtain ⟨k₀, hk₀, rfl⟩ := List.mem_map.mp hk
        obtain ⟨hkid, hjwk⟩ := retire_kid kid instant k₀
        rw [hjwk]
        have hparts : (SigningKeyRow.retire kid instant k₀).privateKeyCiphertext =
              k₀.privateKeyCiphertext ∧
            (SigningKeyRow.retire kid instant k₀).privateKeyNonce = k₀.privateKeyNonce := by
          unfold SigningKeyRow.retire
          split <;> exact ⟨rfl, rfl⟩
        exact h.signingKeys k₀ hk₀ key ciphertext nonce pem hkey (hparts.1 ▸ hc) (hparts.2 ▸ hn)
          (hkid ▸ hdec)
      · rw [hs, hs₁]
        exact h.signingKeys
  · rw [runs_quiet (.perform rfl) hnow]
    exact h.signingKeys

theorem leaves_consume {hash : String} {access : AccessTokenRecord}
    {refresh : Option RefreshToken} {now : OffsetDateTime} {t : Tab}
    (ht : t ∉ [Tab.authorizationCodes, .accessTokens, .refreshTokens]) :
    (Call.db (.consumeAuthorizationCodeAndInsertTokens hash access refresh now)).Leaves t := by
  refine Call.leaves_of_target ?_
  have hne : ∀ t' ∈ [Tab.authorizationCodes, .accessTokens, .refreshTokens], some t' ≠ some t :=
    fun t' ht' h => ht (Option.some.inj h ▸ ht')
  refine .bind (.perform (hne _ (by simp))) fun consumed => ?_
  split
  · trivial
  · refine .bind (.perform (hne _ (by simp))) fun _ => .bind ?_ fun _ => .ret _
    cases refresh with
    | none => trivial
    | some r => exact .perform (hne _ (by simp))

theorem all_authorizationCodeToken (request : TokenRequest) (auth : OAuthClientAuth) {t : Tab}
    (ht : t ∉ [Tab.authorizationCodes, .accessTokens, .refreshTokens]) :
    (authorizationCodeToken P state request auth).All (Call.Leaves t) := by
  refine (sat_authorizationCodeToken P state request auth).all fun hist e he => ?_
  obtain ⟨-, hq | ⟨_, _, _, _, _, _, _, rfl, -⟩⟩ := he
  · exact Call.leaves_of_isQuiet hq t
  · exact leaves_consume ht

theorem Consistent.issue (h : Consistent P state w) {request : TokenRequest}
    {auth : OAuthClientAuth} {o : Except ApiError TokenResponse}
    (hr : (authorizationCodeToken P state request auth).Runs (Call.exec P) w o w') :
    Consistent P state w' := by
  refine h.of_runs hr fun t ht => all_authorizationCodeToken request auth ?_
  simp only [List.mem_cons, List.not_mem_nil, or_false] at ht
  rcases ht with rfl | rfl | rfl | rfl <;> decide

theorem leaves_revokeAuthSession (id : SessionId) (instant : OffsetDateTime) {t : Tab}
    (ht : t ≠ .authSessions) : (Call.db (.revokeAuthSession id instant)).Leaves t :=
  Call.leaves_of_target (.bind (.perform fun h => ht (Option.some.inj h).symm) fun _ => .ret _)

/-- The identifier of an audit event is drawn before it is inserted. -/
theorem Consistent.insertAuditEvent (h : Consistent P state w) {b : AuditEventBuilder}
    {o : Except ApiError Unit} (hr : (insertAuditEvent b).Runs (Call.exec P) w o w') :
    Consistent P state w' := by
  have hframe : ∀ t, t ≠ .auditEvents → w'.store.tables t = w.store.tables t := fun t ht =>
    runs_leaves (all_insertAuditEvent b ht) hr
  refine h.of_tables (hframe .organizations nofun) (hframe .oidcClients nofun) ?_
    (hframe .signingKeys nofun ▸ h.signingKeys)
  have hsame : ∀ {w₁ : World}, w₁.store = w.store → w.uuids ⊆ w₁.uuids →
      ∀ e ∈ w₁.store.tables .auditEvents, e.id ∈ w₁.uuids :=
    fun hs hu e he => hu (h.auditEvents e (hs ▸ he))
  rcases runs_bind.mp hr with ⟨id, w₁, hid, hrest⟩ | ⟨e, -, hid⟩
  rotate_left
  · exact hsame (runs_quiet (.perform rfl) hid) (runs_uuids hid)
  have hs₁ : w₁.store = w.store := runs_quiet (.perform rfl) hid
  have hdrawn : id ∈ w₁.uuids := by
    obtain ⟨ch, u, hx, hu⟩ := runs_perform.mp hid
    cases hu
    simp only [Call.exec, Option.ite_none_left_eq_some] at hx
    obtain ⟨-, hx⟩ := hx
    cases hx
    exact .head _
  rcases runs_bind.mp hrest with ⟨createdAt, w₂, hnow, hdb⟩ | ⟨e, -, hnow⟩
  rotate_left
  · exact hsame ((runs_quiet (.perform rfl) hnow).trans hs₁)
      (List.Subset.trans (runs_uuids hid) (runs_uuids hnow))
  have hs₂ : w₂.store = w.store := (runs_quiet (.perform rfl) hnow).trans hs₁
  have hu₂ : w.uuids ⊆ w₂.uuids := List.Subset.trans (runs_uuids hid) (runs_uuids hnow)
  obtain ⟨ch, r, w₃, hx, hend⟩ := runs_call.mp hdb
  have hw : w' = w₃ := by
    cases r with
    | ok _ => exact (runs_ret.mp hend).2
    | error _ => exact (runs_fail.mp hend).2
  subst hw
  obtain ⟨-, huuids, ⟨-, hs⟩ | hs⟩ := Call.exec_db hx
  · exact hsame (hs.trans hs₂) (huuids ▸ hu₂)
  · intro e he
    rw [huuids]
    rcases Sql.Tx.atomic_cases hs with ⟨a, -, hrun⟩ | ⟨a, s₁, -, hrun, -⟩ | ⟨err, -, hs⟩
    · obtain ⟨_, s₁, hins, hret⟩ := Sql.Stmts.run_bind_eq_ok.mp hrun
      cases hret
      rw [run_insert_eq_ok hins, Function.update_self] at he
      rcases List.mem_append.mp he with he | he
      · exact hu₂ (h.auditEvents e (hs₂ ▸ he))
      · rw [List.mem_singleton.mp he]
        exact runs_uuids hnow hdrawn
    · obtain ⟨_, s₂, -, hret⟩ := Sql.Stmts.run_bind_eq_ok.mp hrun
      cases hret
    · rw [hs, hs₂] at he
      exact hu₂ (h.auditEvents e he)

theorem Consistent.revokeSessionForLogout (h : Consistent P state w) {headers : RequestHeaders}
    {session : AuthSession} {initiator : String} {o : Except ApiError Unit}
    (hr : (revokeSessionForLogout headers session initiator).Runs (Call.exec P) w o w') :
    Consistent P state w' := by
  have hrevoke : ∀ {w w' : World} {o : Except ApiError Unit} (now : OffsetDateTime),
      Consistent P state w → (App.db (.revokeAuthSession session.id now)).Runs (Call.exec P) w o w' →
        Consistent P state w' := fun now h hr =>
    h.of_runs hr fun t ht => all_app_db (leaves_revokeAuthSession _ _ (by rintro rfl; simp at ht))
  rcases runs_bind.mp hr with ⟨now, w₁, hnow, hrest⟩ | ⟨e, -, hnow⟩
  · have h₁ := h.of_quiet hnow (.perform rfl)
    rcases runs_bind.mp hrest with ⟨_, w₂, hdb, hrest⟩ | ⟨e, -, hdb⟩
    · exact (hrevoke now h₁ hdb).insertAuditEvent hrest
    · exact hrevoke now h₁ hdb
  · exact h.of_quiet hnow (.perform rfl)

theorem Consistent.revokeBrowserSession (h : Consistent P state w) {headers : RequestHeaders}
    {initiator : String} {o : Except ApiError Unit}
    (hr : (revokeBrowserSession P state headers initiator).Runs (Call.exec P) w o w') :
    Consistent P state w' := by
  rcases runs_bind.mp hr with ⟨found, w₁, hread, hrest⟩ | ⟨e, -, hread⟩
  · have h₁ := h.of_quiet hread (all_sessionFromCookie P state headers)
    cases found with
    | some session => exact h₁.revokeSessionForLogout hrest
    | none =>
      obtain ⟨-, rfl⟩ := runs_ret.mp hrest
      exact h₁
  · exact h.of_quiet hread (all_sessionFromCookie P state headers)

theorem Consistent.endSession (h : Consistent P state w) {headers : RequestHeaders}
    {request : EndSessionRequest} {o : Except ApiError LogoutResponse}
    (hr : (endSessionResponse P state headers request).Runs (Call.exec P) w o w') :
    Consistent P state w' := by
  rcases runs_bind.mp hr with ⟨found, w₁, htarget, hrest⟩ | ⟨e, -, htarget⟩
  · have h₁ := h.of_quiet htarget (.attempt (all_postLogoutRedirectTarget request))
    cases found with
    | error e =>
      obtain ⟨-, rfl⟩ := runs_ret.mp hrest
      exact h₁
    | ok target =>
      rcases runs_bind.mp hrest with ⟨_, w₂, hrevoke, hrest⟩ | ⟨e, -, hrevoke⟩
      · have h₂ := h₁.revokeBrowserSession hrevoke
        cases target with
        | none =>
          obtain ⟨-, rfl⟩ := runs_ret.mp hrest
          exact h₂
        | some target => exact h₂.of_quiet hrest (.bind (.when (.fail _)) fun _ => .ret _)
      · exact h₁.revokeBrowserSession hrevoke
  · exact h.of_quiet htarget (.attempt (all_postLogoutRedirectTarget request))

end consistent

section refusals

variable {P state} {w w' : World} {request : EndSessionRequest}

/-- What a target rests on. -/
theorem redirectJustified_of_runs (hJ : P.Jwt) {target : String}
    (h : (postLogoutRedirectTarget P state request).Runs (Call.exec P) w (.ok (some target)) w') :
    RedirectJustified P state w request target := by
  unfold postLogoutRedirectTarget at h
  split at h
  · rename_i uri huri
    split at h
    · rename_i hint hhint
      obtain ⟨m, w₁, hresolve, hrest⟩ := runs_bind_ok.mp h
      split at hrest
      · rename_i claims hclaims
        obtain ⟨found, w₂, hdb, hrest⟩ := runs_bind_ok.mp hrest
        have hs₁ : w₁.store = w.store := runs_quiet (all_resolveSigningMaterial ..) hresolve
        have hfound := Except.ok.inj (Prod.mk.inj (App.runs_db_ok hdb)).1
        rw [hs₁] at hfound
        cases found with
        | none => simp at hrest
        | some c =>
          obtain ⟨_, w₃, horg, hrest⟩ := runs_bind_ok.mp hrest
          obtain ⟨_, w₄, hactive, hrest⟩ := runs_bind_ok.mp hrest
          obtain ⟨_, w₅, haud, hrest⟩ := runs_bind_ok.mp hrest
          obtain ⟨_, w₆, hregistered, hrest⟩ := runs_bind_ok.mp hrest
          have hpassed : ∀ {C : Prop} [Decidable C] {e : ApiError} {v v' : World} {u : Unit},
              (Prog.failIf C e : App Unit).Runs (Call.exec P) v (.ok u) v' → ¬C := by
            intro C _ e v v' u hr
            rcases runs_failIf.mp hr with ⟨-, he, -⟩ | ⟨hC, -⟩
            · cases he
            · exact hC
          simp only [pure_eq, runs_ret, Except.ok.injEq, Option.some.injEq] at hrest
          have horg := hpassed horg
          have hactive := hpassed hactive
          have haud := hpassed haud
          have hregistered := hpassed hregistered
          rw [validateLogoutIdTokenHintIssuer_eq_some] at hclaims
          obtain ⟨hheader, n, e, hn, he, hdecode, hiss⟩ := hclaims
          obtain ⟨pem, kid, hcomponents, hencode⟩ := hJ.signed n e hint claims hdecode
          have hkid : kid = m.keyId := by
            rw [hJ.header _ _ _ _ hencode] at hheader
            simpa using hheader
          refine ⟨hint, uri, m, pem, claims, Option.eq_some_of_filter_eq_some hhint,
            Option.eq_some_of_filter_eq_some huri, ⟨w₁, hresolve⟩, ⟨n, e, hcomponents, hn, he⟩,
            hkid ▸ hencode, hiss, c, List.mem_of_find?_eq_some hfound, ?_, ?_, ?_, ?_, hrest.1⟩
          · exact (not_not.mp haud).symm
          · exact not_not.mp horg
          · simpa using hactive
          · simpa using hregistered
      · simp at hrest
    · simp at h
  · simp at h

/-- The answers of the endpoint, and what comes with them. -/
theorem runs_endSessionResponse {headers : RequestHeaders} {o : Except ApiError LogoutResponse}
    (hJ : P.Jwt) (h : (endSessionResponse P state headers request).Runs (Call.exec P) w o w') :
    (∀ target, o = .ok (.redirect target) → RedirectJustified P state w request target) ∧
      ∀ e, o = .ok (.refused e) → w'.store = w.store := by
  rcases runs_bind.mp h with ⟨found, w₁, htarget, hrest⟩ | ⟨e, rfl, -⟩
  rotate_left
  · exact ⟨nofun, nofun⟩
  obtain ⟨found', hfound, htarget⟩ := runs_attempt.mp htarget
  cases hfound
  have hs₁ : w₁.store = w.store := runs_quiet (all_postLogoutRedirectTarget request) htarget
  cases found with
  | error e =>
    obtain ⟨rfl, rfl⟩ := runs_ret.mp hrest
    exact ⟨nofun, fun _ _ => hs₁⟩
  | ok target =>
    rcases runs_bind.mp hrest with ⟨_, w₂, -, hrest⟩ | ⟨e, rfl, -⟩
    rotate_left
    · exact ⟨nofun, nofun⟩
    cases target with
    | none =>
      obtain ⟨rfl, -⟩ := runs_ret.mp hrest
      exact ⟨nofun, nofun⟩
    | some target =>
      rcases runs_bind.mp hrest with ⟨_, w₃, -, hrest⟩ | ⟨e, rfl, -⟩
      · obtain ⟨rfl, -⟩ := runs_ret.mp hrest
        refine ⟨fun t ht => ?_, nofun⟩
        cases ht
        exact redirectJustified_of_runs hJ htarget
      · exact ⟨nofun, nofun⟩

end refusals

section acceptance

variable {P state} {w w' : World} {headers : RequestHeaders}

theorem exec_revokeAuthSession (id : SessionId) (instant : OffsetDateTime) (s : Store) :
    ∃ s', (DbCall.revokeAuthSession id instant).exec s = (.ok (), s') ∧
      s'.tables = Function.update s.tables .authSessions ((s.tables .authSessions).map fun r =>
        if r.session.id = id then { r with session := { r.session with revokedAt := some instant } }
        else r) := by
  obtain ⟨s', hrun⟩ := run_update_of_entries (t := .authSessions)
    (p := fun _ r => decide (r.session.id = id))
    (f := fun r => { r with session := { r.session with revokedAt := some instant } })
    (fun _ => rfl) s
  refine ⟨s', ?_, ?_⟩
  · have hcommit : Sql.Stmts.run DatabaseError.sqlx (Database.revokeAuthSession id instant) s =
        .ok (.commit (), s') := Sql.Stmts.run_bind_eq_ok.mpr ⟨_, s', hrun, rfl⟩
    show Sql.Tx.atomic DatabaseError.sqlx (Database.revokeAuthSession id instant) s = _
    rw [Sql.Tx.atomic, hcommit]
  · rw [(run_update_eq_ok hrun).2]
    simp [Sql.Stmt.updated]

theorem exec_insertAuditEvent {event : AuditEvent} {s : Store}
    (hnew : ∀ e ∈ s.tables .auditEvents, e.id ≠ event.id)
    (horg : ∃ o ∈ s.tables .organizations, o.id = event.organizationId) :
    ∃ s', (DbCall.insertAuditEvent event).exec s = (.ok (), s') := by
  obtain ⟨s', hrun⟩ := run_insert_of_compatible (t := .auditEvents) (r := event) (s := s)
    (by
      intro e he k hk hk'
      simp only [Sql.Schema.entries, schema, List.mem_cons, List.not_mem_nil, or_false] at hk hk'
      rw [hk] at hk'
      exact hnew e he (Key.id.inj hk'))
    (by
      obtain ⟨o, ho, hid⟩ := horg
      intro x hx
      simp only [schema, List.mem_cons, List.not_mem_nil, or_false] at hx
      subst hx
      refine ⟨o, by simpa using ho, ?_⟩
      simp [Sql.Schema.entries, schema, hid])
  refine ⟨s', ?_⟩
  have hcommit : Sql.Stmts.run DatabaseError.sqlx (Database.insertAuditEvent event) s =
      .ok (.commit (), s') := Sql.Stmts.run_bind_eq_ok.mpr ⟨_, s', hrun, rfl⟩
  show Sql.Tx.atomic DatabaseError.sqlx (Database.insertAuditEvent event) s = _
  rw [Sql.Tx.atomic, hcommit]

/-- The query of a method that only reads. -/
theorem runs_query_reliably {c : DbCall} (hc : c.isQuery = true) {a : c.Result}
    (ha : (c.exec w.store).1 = .ok a) {o : Except ApiError c.Result}
    (h : (App.db c).Runs (Call.execReliably P) w o w') : o = .ok a ∧ w' = w := by
  obtain ⟨ho, hw⟩ := App.runs_db_reliably h
  rw [ha] at ho
  exact ⟨ho, by rw [hw, DbCall.exec_of_isQuery hc]⟩

theorem runs_nowUtc_reliably {o : Except ApiError OffsetDateTime}
    (h : App.nowUtc.Runs (Call.execReliably P) w o w') :
    ∃ now, o = .ok now ∧ w.clock ≤ now ∧ w' = { w with clock := now } := by
  obtain ⟨ch, t, hx, rfl⟩ := runs_perform.mp h
  simp only [Call.execReliably, Call.exec, Option.ite_none_left_eq_some,
    Option.ite_none_right_eq_some] at hx
  obtain ⟨-, hle, hx⟩ := hx
  cases hx
  exact ⟨_, rfl, hle, rfl⟩

theorem runs_newV4_reliably {o : Except ApiError Uuid}
    (h : App.newV4.Runs (Call.execReliably P) w o w') :
    ∃ u, o = .ok u ∧ u ∉ w.uuids ∧ w' = { w with uuids := u :: w.uuids } := by
  obtain ⟨ch, u, hx, rfl⟩ := runs_perform.mp h
  simp only [Call.execReliably, Call.exec, Option.ite_none_left_eq_some] at hx
  obtain ⟨-, hfresh, hx⟩ := hx
  cases hx
  exact ⟨_, rfl, hfresh, rfl⟩

/-- The lookup of the browser's session finds a session in use, unless it expires
    at that moment. -/
theorem runs_sessionFromCookie_reliably {o : Except ApiError (Option AuthSession)}
    (h : (sessionFromCookie P state headers).Runs (Call.execReliably P) w o w') :
    ∃ found, o = .ok found ∧ w'.store = w.store ∧ w'.uuids = w.uuids ∧ w.clock ≤ w'.clock ∧
      (∀ session, found = some session → session.organizationId = state.organizationId) ∧
      ∀ r ∈ w.store.tables .authSessions, BrowserSession P state headers w r.session →
        found = some r.session ∨ r.session.expiresAt ≤ w'.clock := by
  unfold sessionFromCookie at h
  cases hraw : cookieValue headers "cairn_session" with
  | none =>
    rw [hraw] at h
    obtain ⟨rfl, rfl⟩ := runs_ret.mp h
    refine ⟨none, rfl, rfl, rfl, le_refl _, nofun, fun r _ hr => ?_⟩
    obtain ⟨raw, hcookie, -⟩ := hr.cookie
    rw [hraw] at hcookie
    cases hcookie
  | some raw =>
  rw [hraw] at h
  cases hid : P.parseUuid raw with
  | none =>
    simp only [hid] at h
    obtain ⟨rfl, rfl⟩ := runs_ret.mp h
    refine ⟨none, rfl, rfl, rfl, le_refl _, nofun, fun r _ hr => ?_⟩
    obtain ⟨raw', hcookie, hparse⟩ := hr.cookie
    rw [hraw] at hcookie
    cases hcookie
    rw [hid] at hparse
    cases hparse
  | some id =>
  simp only [hid] at h
  -- every answer but the last stands for a session that is not in use
  have hget : ∀ r ∈ w.store.tables .authSessions, BrowserSession P state headers w r.session →
      (DbCall.getAuthSession id).exec w.store = (.ok (some r.session), w.store) := by
    intro r hr hb
    obtain ⟨raw', hcookie, hparse⟩ := hb.cookie
    rw [hraw] at hcookie
    cases hcookie
    rw [hid, Option.some.injEq] at hparse
    have hfind : (w.store.tables .authSessions).find? (fun r => decide (r.session.id = id)) =
        some r :=
      (w.store.unique .authSessions).find?_eq_some hr (by simp [hparse]) (k := .id id)
        fun r' hr' => by simp [Sql.Schema.entries, schema, of_decide_eq_true hr']
    have hexec : ((DbCall.getAuthSession id).exec w.store).1 =
        .ok (((w.store.tables .authSessions).find? fun r => decide (r.session.id = id)).map
          (·.session)) := rfl
    rw [hfind] at hexec
    exact Prod.ext hexec rfl
  obtain ⟨found, hfound⟩ : ∃ found, ((DbCall.getAuthSession id).exec w.store).1 = .ok found :=
    ⟨_, rfl⟩
  have hread : ∀ r ∈ w.store.tables .authSessions, BrowserSession P state headers w r.session →
      found = some r.session := by
    intro r hr hb
    rw [hget r hr hb] at hfound
    exact (Except.ok.inj hfound).symm
  rcases runs_bind.mp h with ⟨found', w₁, hdb, hrest⟩ | ⟨e, -, hdb⟩
  rotate_left
  · cases (runs_query_reliably rfl hfound hdb).1
  obtain ⟨ho, rfl⟩ := runs_query_reliably rfl hfound hdb
  cases ho
  cases found with
  | none =>
    obtain ⟨rfl, rfl⟩ := runs_ret.mp hrest
    exact ⟨none, rfl, rfl, rfl, le_refl _, nofun, fun r hr hb => .inl (hread r hr hb)⟩
  | some session =>
  have hlive : ∀ r ∈ w₁.store.tables .authSessions, BrowserSession P state headers w₁ r.session →
      BrowserSession P state headers w₁ session ∧ r.session = session := by
    intro r hr hb
    have heq : session = r.session := Option.some.inj (hread r hr hb)
    exact ⟨heq ▸ hb, heq.symm⟩
  dsimp only at hrest
  by_cases horg : session.organizationId ≠ state.organizationId
  · rw [if_pos horg] at hrest
    obtain ⟨rfl, rfl⟩ := runs_ret.mp hrest
    exact ⟨none, rfl, rfl, rfl, le_refl _, nofun, fun r hr hb =>
      absurd (hlive r hr hb).1.organization horg⟩
  rw [if_neg horg] at hrest
  by_cases hrevoked : session.revokedAt.isSome = true
  · rw [if_pos hrevoked] at hrest
    obtain ⟨rfl, rfl⟩ := runs_ret.mp hrest
    refine ⟨none, rfl, rfl, rfl, le_refl _, nofun, fun r hr hb => ?_⟩
    rw [(hlive r hr hb).1.unrevoked] at hrevoked
    cases hrevoked
  rw [if_neg hrevoked] at hrest
  rcases runs_bind.mp hrest with ⟨now, w₂, hnow, hrest⟩ | ⟨e, -, hnow⟩
  rotate_left
  · obtain ⟨_, he, -⟩ := runs_nowUtc_reliably hnow
    cases he
  obtain ⟨now', hnow', hle, rfl⟩ := runs_nowUtc_reliably hnow
  obtain rfl : now = now' := Except.ok.inj hnow'
  by_cases hexpired : session.expiresAt ≤ now
  · rw [if_pos hexpired] at hrest
    obtain ⟨rfl, rfl⟩ := runs_ret.mp hrest
    refine ⟨none, rfl, rfl, rfl, hle, nofun, fun r hr hb => .inr ?_⟩
    rw [(hlive r hr hb).2]
    exact hexpired
  rw [if_neg hexpired] at hrest
  obtain ⟨user, huser⟩ : ∃ user, ((DbCall.getUser session.userId).exec w₁.store).1 = .ok user :=
    ⟨_, rfl⟩
  rcases runs_bind.mp hrest with ⟨user', w₃, hdb, hrest⟩ | ⟨e, -, hdb⟩
  rotate_left
  · cases (runs_query_reliably rfl (by exact huser) hdb).1
  obtain ⟨ho, rfl⟩ := runs_query_reliably rfl (by exact huser) hdb
  cases ho
  have hallowed : ∀ r ∈ w₁.store.tables .authSessions, BrowserSession P state headers w₁ r.session →
      ∃ u, user = some u ∧ userAllowsRuntimeAccess u session.organizationId = true := by
    intro r hr hb
    obtain ⟨u, hu, huid, hallows⟩ := (hlive r hr hb).1.user
    refine ⟨u.user, ?_, hallows⟩
    have hfind : (w₁.store.tables .users).find? (fun u => decide (u.user.id = session.userId)) =
        some u :=
      (w₁.store.unique .users).find?_eq_some hu (by simp [huid]) (k := .id session.userId)
        fun u' hu' => by simp [Sql.Schema.entries, schema, of_decide_eq_true hu']
    exact (Except.ok.inj huser).symm.trans (congrArg (Option.map (·.user)) hfind)
  cases user with
  | none =>
    obtain ⟨rfl, rfl⟩ := runs_ret.mp hrest
    refine ⟨none, rfl, rfl, rfl, hle, nofun, fun r hr hb => ?_⟩
    obtain ⟨u, hu, -⟩ := hallowed r hr hb
    cases hu
  | some user =>
  dsimp only at hrest
  by_cases hallows : (!userAllowsRuntimeAccess user session.organizationId) = true
  · rw [if_pos hallows] at hrest
    obtain ⟨rfl, rfl⟩ := runs_ret.mp hrest
    refine ⟨none, rfl, rfl, rfl, hle, nofun, fun r hr hb => ?_⟩
    obtain ⟨u, hu, hu'⟩ := hallowed r hr hb
    cases hu
    rw [hu'] at hallows
    cases hallows
  · rw [if_neg hallows] at hrest
    obtain ⟨rfl, rfl⟩ := runs_ret.mp hrest
    refine ⟨some session, rfl, rfl, rfl, hle, fun s hs => ?_, fun r hr hb => .inl ?_⟩
    · cases hs
      exact not_not.mp horg
    · rw [(hlive r hr hb).2]

theorem runs_insertAuditEvent_reliably (hw : Consistent P state w) {b : AuditEventBuilder}
    (hb : b.organizationId = state.organizationId) {o : Except ApiError Unit}
    (h : (insertAuditEvent b).Runs (Call.execReliably P) w o w') : o = .ok () := by
  rcases runs_bind.mp h with ⟨id, w₁, hid, hrest⟩ | ⟨e, -, hid⟩
  rotate_left
  · obtain ⟨_, he, -⟩ := runs_newV4_reliably hid
    cases he
  obtain ⟨id', hid', hfresh, rfl⟩ := runs_newV4_reliably hid
  obtain rfl : id = id' := Except.ok.inj hid'
  rcases runs_bind.mp hrest with ⟨createdAt, w₂, hcreated, hdb⟩ | ⟨e, -, hcreated⟩
  rotate_left
  · obtain ⟨_, he, -⟩ := runs_nowUtc_reliably hcreated
    cases he
  obtain ⟨_, _, -, rfl⟩ := runs_nowUtc_reliably hcreated
  have hexec : ∃ s', (DbCall.insertAuditEvent (b.event id createdAt)).exec w.store = (.ok (), s') :=
    exec_insertAuditEvent
      (fun e he heq => hfresh ((show id = e.id from heq.symm) ▸ hw.auditEvents e he))
      (hw.organization.imp fun org ⟨horgs, hid⟩ => ⟨horgs, hid.trans hb.symm⟩)
  obtain ⟨s', hexec⟩ := hexec
  obtain ⟨ho, -⟩ := App.runs_db_reliably hdb
  rwa [show (DbCall.insertAuditEvent (b.event id createdAt)).exec _ = _ from hexec] at ho

/-- The logout of a session of this organization does not fail. -/
theorem runs_revokeSessionForLogout_reliably (hw : Consistent P state w) {session : AuthSession}
    (horg : session.organizationId = state.organizationId) {initiator : String}
    {o : Except ApiError Unit}
    (h : (revokeSessionForLogout headers session initiator).Runs (Call.execReliably P) w o w') :
    o = .ok () ∧ ∃ instant, w'.store.tables .authSessions =
      (w.store.tables .authSessions).map fun r => if r.session.id = session.id then
        { r with session := { r.session with revokedAt := some instant } } else r := by
  rcases runs_bind.mp h with ⟨now, w₁, hnow, hrest⟩ | ⟨e, -, hnow⟩
  rotate_left
  · obtain ⟨_, he, -⟩ := runs_nowUtc_reliably hnow
    cases he
  obtain ⟨now', hnow', -, hw₁⟩ := runs_nowUtc_reliably hnow
  obtain rfl : now = now' := Except.ok.inj hnow'
  have hc₁ := hw.of_quiet (runs_of_reliably hnow) (.perform rfl)
  obtain ⟨s, hexec, htables⟩ := exec_revokeAuthSession session.id now w₁.store
  rcases runs_bind.mp hrest with ⟨_, w₂, hdb, hrest⟩ | ⟨e, -, hdb⟩
  rotate_left
  · obtain ⟨ho, -⟩ := App.runs_db_reliably hdb
    rw [hexec] at ho
    cases ho
  have hc₂ := hc₁.of_runs (runs_of_reliably hdb) fun t ht =>
    all_app_db (leaves_revokeAuthSession _ _ (by rintro rfl; simp at ht))
  obtain ⟨-, hw₂⟩ := App.runs_db_reliably hdb
  refine ⟨runs_insertAuditEvent_reliably hc₂ horg hrest, now, ?_⟩
  rw [runs_leaves (t := .authSessions) (all_insertAuditEvent _ nofun) (runs_of_reliably hrest), hw₂,
    hexec, htables, Function.update_self, hw₁]

theorem runs_revokeBrowserSession_reliably (hw : Consistent P state w) {initiator : String}
    {o : Except ApiError Unit}
    (h : (revokeBrowserSession P state headers initiator).Runs (Call.execReliably P) w o w') :
    o = .ok () ∧ SessionEnded P state headers w w' := by
  rcases runs_bind.mp h with ⟨found, w₁, hread, hrest⟩ | ⟨e, -, hread⟩
  rotate_left
  · obtain ⟨_, he, -⟩ := runs_sessionFromCookie_reliably hread
    cases he
  obtain ⟨_, hfound, hs₁, -, -, horg, hlive⟩ := runs_sessionFromCookie_reliably hread
  cases hfound
  have hc₁ := hw.of_quiet (runs_of_reliably hread) (all_sessionFromCookie P state headers)
  cases found with
  | none =>
    obtain ⟨rfl, rfl⟩ := runs_ret.mp hrest
    refine ⟨rfl, fun r hr hb => .inl ?_⟩
    rcases hlive r hr hb with hnone | hexpired
    · cases hnone
    · exact hexpired
  | some session =>
    obtain ⟨rfl, instant, hrows⟩ :=
      runs_revokeSessionForLogout_reliably hc₁ (horg session rfl) hrest
    refine ⟨rfl, fun r hr hb => ?_⟩
    rcases hlive r hr hb with hsome | hexpired
    · cases hsome
      refine .inr ⟨instant, ?_⟩
      rw [hrows, hs₁]
      exact List.mem_map.mpr ⟨r, hr, if_pos rfl⟩
    · exact .inl (hexpired.trans (runs_clock (runs_of_reliably hrest)))

theorem isHeaderValue_appendPostLogoutRedirectParams {uri : String}
    (h : isHeaderValue uri = true) (value : Option String) :
    isHeaderValue (appendPostLogoutRedirectParams uri value) = true := by
  cases value with
  | none => exact h
  | some value =>
    have hstate := isHeaderValue_percentEncodeMinimal value
    unfold isHeaderValue at h hstate ⊢
    simp only [appendPostLogoutRedirectParams, String.toList_append, List.all_append, h, hstate,
      Bool.true_and, Bool.and_true]
    split <;> decide

/-- The target of a request that presents a token under the key that signed it. -/
theorem runs_postLogoutRedirectTarget_reliably (hJ : P.Jwt) (hw : Consistent P state w)
    {x : IssuedIdToken} (hx : x.Valid P state w) (hkey : Resolves P state w x.signing)
    {request : EndSessionRequest} {c : OidcClient} (hc : c ∈ w.store.tables .oidcClients)
    (hcid : c.clientId = x.clientId) {uri : String}
    (huri : c.allowsPostLogoutRedirectUri uri = true)
    (hhint : request.idTokenHint = some x.idToken)
    (hclient : request.clientId = none ∨ request.clientId = some x.clientId)
    (htarget : request.postLogoutRedirectUri = some uri)
    {o : Except ApiError (Option String)}
    (h : (postLogoutRedirectTarget P state request).Runs (Call.execReliably P) w o w') :
    o = .ok (some (appendPostLogoutRedirectParams uri request.state)) ∧ w' = w := by
  obtain ⟨claims, hencode, haud, hiss⟩ := hx.signed
  obtain ⟨n, e, hcomponents, hn, he⟩ := hw.keyPair hkey
  have hclaims : validateLogoutIdTokenHintIssuer P x.idToken state.config.issuer x.signing =
      some claims :=
    (validateLogoutIdTokenHintIssuer_eq_some P).mpr ⟨hJ.header _ _ _ _ hencode, n, e, hn, he,
      hJ.verifies _ _ _ _ _ _ hencode hcomponents, hiss⟩
  have huri' : uri ≠ "" := by
    simp only [OidcClient.allowsPostLogoutRedirectUri, List.any_eq_true, decide_eq_true_eq] at huri
    obtain ⟨u, hu, rfl⟩ := huri
    exact hw.redirectUris c hc u hu
  have hfilter : request.postLogoutRedirectUri.filter (fun uri => !uri.isEmpty) = some uri := by
    rw [htarget, Option.filter_some_pos]
    simpa using huri'
  have hhintFilter : request.idTokenHint.filter (fun hint => !hint.isEmpty) = some x.idToken := by
    rw [hhint, Option.filter_some_pos]
    simpa using hJ.nonempty _ _ _ _ hencode
  have hid : (request.clientId.filter fun id => !id.isEmpty).getD claims.aud = x.clientId := by
    rcases hclient with hnone | hsome
    · rw [hnone]
      exact haud
    · rw [hsome, haud]
      by_cases hempty : x.clientId.isEmpty = true
      · simp [Option.filter, hempty]
      · simp [Option.filter, hempty]
  have hfind : ((DbCall.getOidcClientByPublicId x.clientId).exec w.store).1 = .ok (some c) := by
    refine congrArg Except.ok ((w.store.unique .oidcClients).find?_eq_some hc (by simp [hcid])
      (k := .text x.clientId) fun c' hc' => ?_)
    simp [Sql.Schema.entries, schema, of_decide_eq_true hc']
  obtain ⟨c', hc', hcid', horg, hactive⟩ := hx.client
  have hcc' : c = c' := (w.store.unique .oidcClients).eq_of_entry hc hc' (k := .text x.clientId)
    (by simp [Sql.Schema.entries, schema, hcid]) (by simp [Sql.Schema.entries, schema, hcid'])
  subst hcc'
  simp only [postLogoutRedirectTarget, hfilter, hhintFilter] at h
  rcases runs_bind.mp h with ⟨m, w₁, hresolve, hrest⟩ | ⟨err, -, hresolve⟩
  rotate_left
  · cases (hkey.of_store rfl hresolve).1
  obtain ⟨hm, rfl⟩ := hkey.of_store rfl hresolve
  cases hm
  simp only [hclaims] at hrest
  generalize (request.clientId.filter fun id => !id.isEmpty).getD claims.aud = clientId at hrest hid
  subst hid
  rcases runs_bind.mp hrest with ⟨found, w₂, hdb, hrest⟩ | ⟨err, -, hdb⟩
  rotate_left
  · cases (runs_query_reliably rfl hfind hdb).1
  obtain ⟨hfound, rfl⟩ := runs_query_reliably rfl hfind hdb
  cases hfound
  simpa [Prog.failIf, Prog.when, horg, hactive, haud, hcid, huri,
    postLogoutRedirectTargetForClient] using hrest

theorem runs_endSessionResponse_reliably (hw : Consistent P state w) {request : EndSessionRequest}
    {target : String} (htarget : isHeaderValue target = true)
    (haccepted : ∀ o w', (postLogoutRedirectTarget P state request).Runs (Call.execReliably P) w o
      w' → o = .ok (some target) ∧ w' = w) {o : Except ApiError LogoutResponse}
    (h : (endSessionResponse P state headers request).Runs (Call.execReliably P) w o w') :
    o = .ok (.redirect target) ∧ SessionEnded P state headers w w' := by
  rcases runs_bind.mp h with ⟨found, w₁, hread, hrest⟩ | ⟨e, -, hread⟩
  rotate_left
  · obtain ⟨_, he, -⟩ := runs_attempt.mp hread
    cases he
  obtain ⟨_, hfound, hread⟩ := runs_attempt.mp hread
  cases hfound
  obtain ⟨rfl, rfl⟩ := haccepted _ _ hread
  rcases runs_bind.mp hrest with ⟨_, w₂, hrevoke, hrest⟩ | ⟨e, -, hrevoke⟩
  rotate_left
  · cases (runs_revokeBrowserSession_reliably hw hrevoke).1
  obtain ⟨-, hended⟩ := runs_revokeBrowserSession_reliably hw hrevoke
  have hredirect : o = .ok (.redirect target) ∧ w' = w₂ := by
    simpa [logoutRedirectResponse, Prog.failIf, Prog.when, htarget] using hrest
  obtain ⟨rfl, rfl⟩ := hredirect
  exact ⟨rfl, hended⟩

end acceptance

section runs

variable {P state} {w : World} {issued : List IssuedIdToken}

/-- A step that leaves the clients alone leaves the tokens valid. -/
theorem IssuedIdToken.Valid.of_clients {x : IssuedIdToken} {w' : World} (h : x.Valid P state w)
    (hc : w'.store.tables .oidcClients = w.store.tables .oidcClients) : x.Valid P state w' :=
  ⟨h.signed, hc ▸ h.client⟩

theorem IssuedIdToken.IssuedIn.valid {x : IssuedIdToken} {w' : World} {request : TokenRequest}
    {auth : OAuthClientAuth} {o : Except ApiError TokenResponse}
    (hr : (authorizationCodeToken P state request auth).Runs (Call.exec P) w o w')
    (h : x.IssuedIn P state w auth o) : x.Valid P state w := by
  obtain ⟨response, rfl, htoken⟩ := h.answered
  obtain ⟨issue, now, idToken, hid, hissue, hissuer, hresolves, hmem, hclient, horg, hactive⟩ :=
    runs_authorizationCodeToken hr
  rw [htoken] at hid
  cases hid
  rw [h.client, Option.some.injEq] at hclient
  have hsigning := h.signing.unique hresolves
  exact {
    signed := ⟨idTokenClaims issue now, by rw [hsigning]; exact hissue, hclient.symm, by
      rw [← hissuer]; rfl⟩
    client := ⟨issue.client, hmem, hclient.symm, horg, hactive⟩ }

theorem all_endSessionResponse (headers : RequestHeaders) (request : EndSessionRequest) :
    (endSessionResponse P state headers request).All (Call.Leaves .oidcClients) :=
  all_endSessionResponse_of (Q := Call.Leaves .oidcClients) headers (fun _ he => Call.leaves_of_isQuiet he _)
    (fun _ _ => leaves_revokeAuthSession _ _ nofun) (fun _ => leaves_insertAuditEvent _ nofun)
    request

theorem LogoutRun.valid (hP : P.Aead) (h : LogoutRun P state w issued) :
    Consistent P state w ∧ ∀ x ∈ issued, x.Valid P state w := by
  induction h with
  | start hw => exact ⟨hw, by simp⟩
  | rotate _ hr ih =>
    exact ⟨ih.1.rotate hP hr, fun x hx =>
      (ih.2 x hx).of_clients (runs_leaves (t := .oidcClients) (all_rotateSigningKey _ nofun) hr)⟩
  | retire _ hr ih =>
    exact ⟨ih.1.retire hr, fun x hx =>
      (ih.2 x hx).of_clients (runs_leaves (t := .oidcClients) (all_retireSigningKey _ nofun) hr)⟩
  | issue _ hr hnew ih =>
    have hclients := runs_leaves (t := .oidcClients)
      (all_authorizationCodeToken _ _ (by decide)) hr
    refine ⟨ih.1.issue hr, fun x hx => ?_⟩
    rcases List.mem_append.mp hx with hx | hx
    · exact ((hnew x hx).valid hr).of_clients hclients
    · exact (ih.2 x hx).of_clients hclients
  | endSession _ hr ih =>
    exact ⟨ih.1.endSession hr, fun x hx =>
      (ih.2 x hx).of_clients (runs_leaves (all_endSessionResponse ..) hr)⟩

end runs

namespace Sample

def keyId : String := generatedKeyId 5

def keySealings : List Sealing :=
  [⟨kek, signingKeyAad (generatedKeyId 5), "pem5", [5]⟩,
    ⟨kek, signingKeyAad (generatedKeyId 6), "pem6", [6]⟩]

/-- The claims of the one token that is signed. -/
def claims : IdTokenClaims where
  iss := "https://id"
  sub := Uuid.hyphenated 2
  aud := "app"
  exp := 600
  iat := 0
  authTime := some 0
  nonce := none
  email := none
  emailVerified := none
  name := none
  amr := some ["pwd"]
  acr := some "urn:cairnid:pwd"
  groups := none

/-- A cipher for two private keys, and a signer for one token. -/
def logoutPrimitives : Primitives :=
  { sealingPrimitives keySealings with
    rsaComponents := fun pem => some (pem, "AQAB")
    encodeJwt := fun pem kid c =>
      if pem = "pem5" ∧ kid = keyId ∧ c = claims then some "a.b.c" else none
    decodeHeader := fun token => if token = "a.b.c" then some ⟨"RS256", some keyId⟩ else none
    decodeJwt := fun n e token =>
      if n = "pem5" ∧ e = "AQAB" ∧ token = "a.b.c" then some claims else none
    parseUuid := fun text => if text = "4" then some 4 else none }

theorem logoutPrimitives_aead : logoutPrimitives.Aead :=
  have h : (sealingPrimitives keySealings).Aead := sealingPrimitives_aead (by decide)
  ⟨h.decrypt_encrypt, h.decrypt_other⟩

theorem encodeJwt_eq_some {pem kid token : String} {c : IdTokenClaims} :
    logoutPrimitives.encodeJwt pem kid c = some token ↔
      (pem = "pem5" ∧ kid = keyId ∧ c = claims) ∧ "a.b.c" = token := by
  simp only [logoutPrimitives, Option.ite_none_right_eq_some, Option.some.injEq]

theorem logoutPrimitives_jwt : logoutPrimitives.Jwt where
  nonempty pem kid c token h := by
    rw [← (encodeJwt_eq_some.mp h).2]
    decide
  header pem kid c token h := by
    obtain ⟨⟨-, rfl, -⟩, rfl⟩ := encodeJwt_eq_some.mp h
    rfl
  verifies pem kid c token n e h hc := by
    obtain ⟨⟨rfl, -, rfl⟩, rfl⟩ := encodeJwt_eq_some.mp h
    cases hc
    rfl
  signed n e token c h := by
    simp only [logoutPrimitives, Option.ite_none_right_eq_some, Option.some.injEq] at h
    obtain ⟨⟨rfl, rfl, rfl⟩, rfl⟩ := h
    exact ⟨"pem5", keyId, rfl, encodeJwt_eq_some.mpr ⟨⟨rfl, rfl, rfl⟩, rfl⟩⟩

def logoutState : AppState := stateWith kek

def logoutClient : OidcClient :=
  { client with postLogoutRedirectUris := [⟨"https://app/bye"⟩, ⟨"https://app/\nbye"⟩] }

def logoutKey : SigningKeyRow where
  kid := keyId
  algorithm := "RS256"
  publicJwk := .object [("kid", .string keyId), ("n", .string "pem5"), ("e", .string "AQAB")]
  privateKeyCiphertext := some [5]
  privateKeyNonce := some nonce
  signingActive := true
  createdAt := 0
  retiredAt := none

def logoutTables : Db
  | .organizations => [organization]
  | .users => [⟨user, some "secret"⟩]
  | .oidcClients => [logoutClient]
  | .authSessions => [⟨session, ⟨none, none⟩⟩]
  | .authorizationCodes => [code]
  | .signingKeys => [logoutKey]
  | _ => []

def logoutWorld : World where
  store := ⟨logoutTables, fun t => by cases t <;> decide⟩
  clock := 0
  uuids := []

theorem logoutWorld_consistent : Consistent logoutPrimitives logoutState logoutWorld where
  organization := ⟨organization, List.mem_singleton_self _, rfl⟩
  auditEvents := nofun
  redirectUris := by
    intro c hc
    rw [List.mem_singleton.mp (hc : c ∈ [logoutClient])]
    decide
  staticKey := nofun
  signingKeys := by
    intro k hk key ciphertext nonce pem hkey hc hn hdec
    rw [List.mem_singleton.mp (hk : k ∈ [logoutKey])] at hc hn hdec ⊢
    cases hkey
    cases hc
    cases hn
    have hpem : logoutPrimitives.decrypt kek Sample.nonce (signingKeyAad logoutKey.kid) [5] =
        some "pem5" := by decide
    cases hdec.symm.trans hpem
    exact ⟨"pem5", "AQAB", rfl, rfl, rfl⟩

/-- The code is exchanged. -/
def issuing : List Choice :=
  [{}, {}, {}, {}, {}, {}, {}, { text := "r1" }, { uuid := 10 }, { uuid := 11 }, { text := "a1" },
    { uuid := 12 }, {}]

def rotatingTo : List Choice :=
  [{ text := "pem6" }, { uuid := 6 }, { bytes := nonce }, {}, {}, {}]

/-- The worlds after the exchange, and after the rotation that follows. -/
def afterIssue : Option (Option String × World) :=
  (play (Call.exec logoutPrimitives) issuing
    (authorizationCodeToken logoutPrimitives logoutState codeRequest auth) logoutWorld).map
      fun x => (x.1.toOption.bind (·.idToken), x.2)

def afterRotation : Option World := do
  let x ← afterIssue
  (play (Call.exec logoutPrimitives) rotatingTo (rotateSigningKey logoutPrimitives
    logoutState.config) x.2).map (·.2)

def logoutHeaders : RequestHeaders := ⟨some "cairn_session=4", none, none, none⟩

def logoutRequest (uri : String) : EndSessionRequest :=
  ⟨some "a.b.c", none, some uri, some "x y"⟩

/-- The answer to a logout request and the sessions afterwards. -/
def answer (choices : List Choice) (uri : String) (w : World) :
    Option (Except ApiError LogoutResponse × List (Option OffsetDateTime)) :=
  (play (Call.execReliably logoutPrimitives) choices
    (endSessionResponse logoutPrimitives logoutState logoutHeaders (logoutRequest uri)) w).map
      fun x => (x.1, (x.2.store.tables .authSessions).map (·.session.revokedAt))

theorem runs_of_answer {choices : List Choice} {uri : String} {w : World}
    {o : Except ApiError LogoutResponse} {rs : List (Option OffsetDateTime)}
    (h : answer choices uri w = some (o, rs)) :
    ∃ w', (endSessionResponse logoutPrimitives logoutState logoutHeaders
      (logoutRequest uri)).Runs (Call.execReliably logoutPrimitives) w o w' := by
  obtain ⟨⟨o', w'⟩, hplay, hpair⟩ := Option.map_eq_some_iff.mp h
  cases hpair
  exact ⟨w', choices, hplay⟩

/-- The calls of a logout that ends a session. -/
def loggingOut : List Choice := [{}, {}, {}, {}, {}, {}, {}, { uuid := 50 }, {}, {}]

/-- The exchange, with the token it issued. -/
theorem exists_issued : ∃ m w, LogoutRun logoutPrimitives logoutState w [⟨"a.b.c", "app", m⟩] ∧
    m.keyId = keyId ∧ Resolves logoutPrimitives logoutState w m ∧
    afterIssue = some (some "a.b.c", w) := by
  have hresolve : (play (Call.exec logoutPrimitives) [{}]
      (resolveSigningMaterial logoutPrimitives logoutState) logoutWorld).map
        (fun x => x.1.toOption.map (·.keyId)) = some (some keyId) := by decide
  obtain ⟨⟨o, w₀⟩, hplay, ho⟩ := Option.map_eq_some_iff.mp hresolve
  obtain ⟨m, hm, hkid⟩ := Option.map_eq_some_iff.mp ho
  cases o with
  | error e => cases hm
  | ok m' =>
  cases hm
  have hm : Resolves logoutPrimitives logoutState logoutWorld m := ⟨w₀, [{}], hplay⟩
  have hissue : afterIssue.map (·.1) = some (some "a.b.c") := by decide
  obtain ⟨⟨token, w⟩, hafter, htoken⟩ := Option.map_eq_some_iff.mp hissue
  obtain ⟨⟨o, w'⟩, hrun, hpair⟩ := Option.map_eq_some_iff.mp hafter
  simp only [Prod.mk.injEq] at hpair
  obtain ⟨hidToken, rfl⟩ := hpair
  replace htoken : token = some "a.b.c" := htoken
  rw [htoken] at hidToken
  obtain ⟨response, ho, hidToken⟩ := Option.bind_eq_some_iff.mp hidToken
  cases o with
  | error e => cases ho
  | ok response' =>
  cases ho
  have hr : (authorizationCodeToken logoutPrimitives logoutState codeRequest auth).Runs
      (Call.exec logoutPrimitives) logoutWorld (.ok response) w' := ⟨issuing, hrun⟩
  have hrun : LogoutRun logoutPrimitives logoutState w' ([⟨"a.b.c", "app", m⟩] ++ []) := by
    refine .issue (.start logoutWorld_consistent) hr fun x hx => ?_
    rw [List.mem_singleton.mp hx]
    exact ⟨⟨response, rfl, hidToken⟩, rfl, hm⟩
  exact ⟨m, w', hrun, hkid,
    hm.congr (runs_leaves (all_authorizationCodeToken _ _ (by decide)) hr), htoken ▸ hafter⟩

end Sample

end CairnId
