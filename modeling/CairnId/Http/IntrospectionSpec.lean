import CairnId.Database.Consent
import CairnId.Http.Introspection
import CairnId.Http.Quiet

/-!
# What introspection, UserInfo and refresh answer at one instant

Each of the three handlers, run with nothing else going on, is reduced to one
condition on the rows it reads.

## Main definitions

- `Call.execUndisturbed` — the calls of a request that nothing disturbs
- `AccessTokenRecord.Live`, `RefreshToken.Live` — the tokens that count
-/

namespace CairnId

open Concurrency Concurrency.Sql Prog App Database

variable {P : Primitives} {state : AppState} {w w' : World}

/-- The database answers, the clock stands still, and what is drawn is new. -/
def Call.undisturbed (P : Primitives) (w : World) (ch : Choice) : Call → Bool
  | .nowUtc => ch.time = w.clock
  | .newV4 => (w.store.tables .refreshTokens).all fun token => token.id ≠ ch.uuid
  | .generateSecret _ =>
    ((w.store.tables .accessTokens).all fun token => token.tokenHash ≠ hashToken P ch.text) &&
      (w.store.tables .refreshTokens).all fun token => token.tokenHash ≠ hashToken P ch.text
  | _ => !ch.fail

def Call.execUndisturbed (P : Primitives) (e : Call) (ch : Choice) (w : World) :
    Option (e.Answer × World) :=
  if e.undisturbed P w ch then e.exec P ch w else none

theorem Call.execUndisturbed_eq_some {e : Call} {ch : Choice} {x : e.Answer × World} :
    e.execUndisturbed P ch w = some x ↔ e.undisturbed P w ch = true ∧ e.exec P ch w = some x :=
  Option.ite_none_right_eq_some

section undisturbed

variable {α β : Type} {o : Except ApiError β}

theorem undisturbed_db {c : DbCall} {a : c.Result} {s' : Store} {f : c.Result → App β}
    (h : c.exec w.store = (.ok a, s')) :
    (db c >>= f).Runs (Call.execUndisturbed P) w o w' ↔
      (f a).Runs (Call.execUndisturbed P) { w with store := s' } o w' := by
  rw [db, call_bind, runs_call]
  constructor
  · rintro ⟨ch, r, w₁, hx, hrest⟩
    obtain ⟨hfail, hx⟩ := Call.execUndisturbed_eq_some.mp hx
    simp only [Call.undisturbed, Bool.not_eq_true'] at hfail
    simp only [Call.exec, hfail, Bool.false_eq_true, if_false, h, Option.some.injEq,
      Prod.mk.injEq] at hx
    obtain ⟨rfl, rfl⟩ := hx
    exact hrest
  · exact fun hrest => ⟨{}, .ok a, _, by simp [Call.execUndisturbed, Call.undisturbed, Call.exec, h],
      hrest⟩

theorem undisturbed_query {c : DbCall} {a : c.Result} {f : c.Result → App β}
    (h : c.exec w.store = (.ok a, w.store)) :
    (db c >>= f).Runs (Call.execUndisturbed P) w o w' ↔
      (f a).Runs (Call.execUndisturbed P) w o w' := undisturbed_db h

theorem undisturbed_nowUtc {f : OffsetDateTime → App β} :
    (nowUtc >>= f).Runs (Call.execUndisturbed P) w o w' ↔
      (f w.clock).Runs (Call.execUndisturbed P) w o w' := by
  rw [nowUtc, perform_bind, runs_call]
  constructor
  · rintro ⟨ch, r, w₁, hx, hrest⟩
    obtain ⟨htime, hx⟩ := Call.execUndisturbed_eq_some.mp hx
    simp only [Call.undisturbed, decide_eq_true_eq] at htime
    simp only [Call.exec, htime, le_refl, if_true, Option.some.injEq, Prod.mk.injEq] at hx
    obtain ⟨rfl, rfl⟩ := hx
    exact hrest
  · refine fun hrest => ⟨{ time := w.clock }, w.clock, w, ?_, hrest⟩
    simp [Call.execUndisturbed, Call.undisturbed, Call.exec]

/-- What is drawn is new. -/
theorem undisturbed_generateHashedSecret {n : Nat} {f : GeneratedSecret → App β}
    (h : (generateHashedSecret P n >>= f).Runs (Call.execUndisturbed P) w o w') :
    ∃ secret w₁, w₁.store = w.store ∧
      (∀ token ∈ w.store.tables .accessTokens, token.tokenHash ≠ secret.hash) ∧
      (∀ token ∈ w.store.tables .refreshTokens, token.id ≠ secret.id ∧
        token.tokenHash ≠ secret.hash) ∧
      (f secret).Runs (Call.execUndisturbed P) w₁ o w' := by
  simp only [generateHashedSecret, newV4, perform_bind, call_bind] at h
  obtain ⟨ch, value, w₁, hx, h⟩ := runs_call.mp h
  obtain ⟨hvalue, hx⟩ := Call.execUndisturbed_eq_some.mp hx
  cases hx
  obtain ⟨ch', id, w₂, hx, h⟩ := runs_call.mp h
  obtain ⟨hid, hx⟩ := Call.execUndisturbed_eq_some.mp hx
  simp only [Call.undisturbed, Bool.and_eq_true, List.all_eq_true, decide_eq_true_eq] at hvalue hid
  simp only [Call.exec, Option.ite_none_left_eq_some] at hx
  obtain ⟨-, hx⟩ := hx
  cases hx
  exact ⟨⟨ch'.uuid, ch.text, hashToken P ch.text⟩, { w with uuids := ch'.uuid :: w.uuids }, rfl,
    hvalue.1, fun token ht => ⟨hid token ht, hvalue.2 token ht⟩, h⟩

theorem runs_refuseIf_bind {C : Type} {exec : (e : Call) → C → World → Option (e.Answer × World)}
    {c : Prop} [Decidable c] {code : Nat} {body : OAuthErrorBody} {f : Unit → App β} :
    (refuseIf c code body >>= f).Runs exec w o w' ↔
      (c ∧ o = .error (.oauth code body) ∧ w' = w) ∨ (¬c ∧ (f ()).Runs exec w o w') := by
  by_cases hc : c
  · simp [refuseIf, Prog.failIf, Prog.when, hc]
  · simp [refuseIf, Prog.failIf, Prog.when, hc]

end undisturbed

-- clients and subjects

/-- What `tokenSubjectIsActive` answers. -/
def subjectIsActive (db : Db) (organizationId : OrganizationId) (userId : Option UserId) : Bool :=
  match userId with
  | none => true
  | some userId => match (db .users).find? fun u => u.user.id = userId with
    | some row => userAllowsRuntimeAccess row.user organizationId
    | none => false

/-- The issuer lets the client authenticate. -/
def OidcClient.admitted (state : AppState) (client : OidcClient) : Bool :=
  client.organizationId = state.organizationId && oidcClientIsActive client

def AccessTokenRecord.honoured (db : Db) (now : OffsetDateTime) (token : AccessTokenRecord) : Bool :=
  token.revokedAt.isNone && now < token.expiresAt &&
    subjectIsActive db token.organizationId token.userId

def RefreshToken.honoured (db : Db) (now : OffsetDateTime) (token : RefreshToken) : Bool :=
  token.rotatedAt.isNone && token.revokedAt.isNone && now < token.expiresAt &&
    subjectIsActive db token.organizationId token.userId

section handlers

variable {β : Type} {o : Except ApiError β} {client : OidcClient} {auth : OAuthClientAuth}

theorem undisturbed_tokenSubjectIsActive {organizationId : OrganizationId} {userId : Option UserId}
    {f : Bool → App β} :
    (tokenSubjectIsActive organizationId userId >>= f).Runs (Call.execUndisturbed P) w o w' ↔
      (f (subjectIsActive w.store.tables organizationId userId)).Runs
        (Call.execUndisturbed P) w o w' := by
  cases userId with
  | none => exact Iff.rfl
  | some userId =>
    rw [tokenSubjectIsActive, bind_assoc, undisturbed_query (c := .getUser userId)
      (a := ((w.store.tables .users).find? fun u => u.user.id = userId).map (·.user)) rfl]
    unfold subjectIsActive
    dsimp only
    cases (w.store.tables .users).find? fun u => u.user.id = userId <;> exact Iff.rfl

theorem undisturbed_authenticatedClient (hclient : client ∈ w.store.tables .oidcClients)
    (hauth : clientAuthenticates P client auth = true) {f : OidcClient → App β} :
    (authenticatedClientFromRequest P state auth >>= f).Runs (Call.execUndisturbed P) w o w' ↔
      (client.admitted state = true ∧ (f client).Runs (Call.execUndisturbed P) w o w') ∨
        (client.admitted state = false ∧ o = .error (.oauth 401 .invalidClient) ∧ w' = w) := by
  have hid : auth.clientId = some client.clientId := by
    simp only [clientAuthenticates, Bool.and_eq_true, decide_eq_true_eq] at hauth
    exact hauth.1
  rw [authenticatedClientFromRequest, hid, bind_assoc,
    undisturbed_query (getOidcClientByPublicId_of_mem hclient)]
  simp only [requireOauthClientOrganization, requireOauthClientActive, authenticateOauthClient,
    bind_assoc, runs_refuseIf_bind, hauth, OidcClient.admitted]
  by_cases horg : client.organizationId = state.organizationId <;>
    cases hactive : oidcClientIsActive client <;> simp [horg]

-- introspection

variable {access : AccessTokenRecord} {refresh : RefreshToken} {hash : String}

theorem getAccessToken_of_mem {s : Store} (h : access ∈ s.tables .accessTokens) :
    (DbCall.getAccessToken access.tokenHash).exec s = (.ok (some access), s) := by
  have hfind : (s.tables .accessTokens).find? (fun t => t.tokenHash = access.tokenHash) =
      some access :=
    (s.unique .accessTokens).find?_eq_some h (by simp) (k := .text access.tokenHash)
      (by intro t ht; simp only [decide_eq_true_eq] at ht; simp [schema, Schema.entries, ht])
  exact congrArg (fun a => (Except.ok a, s)) hfind

theorem getAccessToken_of_not_mem {s : Store}
    (h : ∀ t ∈ s.tables .accessTokens, t.tokenHash ≠ hash) :
    (DbCall.getAccessToken hash).exec s = (.ok none, s) := by
  have hfind : (s.tables .accessTokens).find? (fun t => t.tokenHash = hash) = none := by
    simpa using h
  exact congrArg (fun a => (Except.ok a, s)) hfind

theorem getRefreshToken_of_mem {s : Store} (h : refresh ∈ s.tables .refreshTokens) :
    (DbCall.getRefreshToken refresh.tokenHash).exec s = (.ok (some refresh), s) := by
  have hfind : (s.tables .refreshTokens).find? (fun t => t.tokenHash = refresh.tokenHash) =
      some refresh :=
    (s.unique .refreshTokens).find?_eq_some h (by simp) (k := .text refresh.tokenHash)
      (by intro t ht; simp only [decide_eq_true_eq] at ht; simp [schema, Schema.entries, ht])
  exact congrArg (fun a => (Except.ok a, s)) hfind

theorem getRefreshToken_of_not_mem {s : Store}
    (h : ∀ t ∈ s.tables .refreshTokens, t.tokenHash ≠ hash) :
    (DbCall.getRefreshToken hash).exec s = (.ok none, s) := by
  have hfind : (s.tables .refreshTokens).find? (fun t => t.tokenHash = hash) = none := by
    simpa using h
  exact congrArg (fun a => (Except.ok a, s)) hfind

@[simp] theorem saysActive_activeIntrospectionResponse {issuer : String} {scopes : List String}
    {userId : Option UserId} {tokenType : Option String} {createdAt expiresAt : OffsetDateTime} :
    saysActive (activeIntrospectionResponse issuer client scopes userId tokenType createdAt
      expiresAt) := by
  simp [saysActive, activeIntrospectionResponse, Json.get?]

@[simp] theorem not_saysActive_inactiveIntrospectionResponse :
    ¬ saysActive inactiveIntrospectionResponse := by
  simp [saysActive, inactiveIntrospectionResponse, Json.get?]

/-- A client learns whether its own access token is live. -/
theorem introspectAccessToken_own (haccess : access ∈ w.store.tables .accessTokens)
    (horg : access.organizationId = client.organizationId) (hid : access.clientId = client.id) :
    ∃ response, (saysActive response ↔ access.honoured w.store.tables w.clock = true) ∧
      ∀ (f : Option Json → App β) (o : Except ApiError β) (w' : World),
        (introspectAccessToken state client access.tokenHash w.clock >>= f).Runs
          (Call.execUndisturbed P) w o w' ↔
            (f (some response)).Runs (Call.execUndisturbed P) w o w' := by
  have hactive : accessTokenActiveForClient access client w.clock =
      (access.revokedAt.isNone && decide (w.clock < access.expiresAt)) := by
    simp [accessTokenActiveForClient, horg, hid]
  simp only [introspectAccessToken, Prog.bind_assoc,
    undisturbed_query (getAccessToken_of_mem haccess)]
  rw [hactive, AccessTokenRecord.honoured]
  cases access.revokedAt.isNone && decide (w.clock < access.expiresAt) with
  | false => exact ⟨inactiveIntrospectionResponse, by simp, fun f o w' => Iff.rfl⟩
  | true =>
    simp only [Bool.not_true, Bool.false_eq_true, if_false, Prog.bind_assoc,
      undisturbed_tokenSubjectIsActive, Bool.true_and]
    cases subjectIsActive w.store.tables access.organizationId access.userId with
    | false => exact ⟨inactiveIntrospectionResponse, by simp, fun f o w' => Iff.rfl⟩
    | true => exact ⟨_, iff_of_true saysActive_activeIntrospectionResponse rfl,
        fun f o w' => Iff.rfl⟩

/-- A client learns whether its own refresh token is live. -/
theorem introspectRefreshToken_own (hrefresh : refresh ∈ w.store.tables .refreshTokens)
    (horg : refresh.organizationId = client.organizationId) (hid : refresh.clientId = client.id) :
    ∃ response, (saysActive response ↔ refresh.honoured w.store.tables w.clock = true) ∧
      ∀ (f : Option Json → App β) (o : Except ApiError β) (w' : World),
        (introspectRefreshToken state client refresh.tokenHash w.clock >>= f).Runs
          (Call.execUndisturbed P) w o w' ↔
            (f (some response)).Runs (Call.execUndisturbed P) w o w' := by
  have hactive : refreshTokenActiveForClient refresh client w.clock =
      (refresh.rotatedAt.isNone && refresh.revokedAt.isNone &&
        decide (w.clock < refresh.expiresAt)) := by
    simp [refreshTokenActiveForClient, horg, hid]
  simp only [introspectRefreshToken, Prog.bind_assoc,
    undisturbed_query (getRefreshToken_of_mem hrefresh)]
  rw [hactive, RefreshToken.honoured]
  cases refresh.rotatedAt.isNone && refresh.revokedAt.isNone &&
      decide (w.clock < refresh.expiresAt) with
  | false => exact ⟨inactiveIntrospectionResponse, by simp, fun f o w' => Iff.rfl⟩
  | true =>
    simp only [Bool.not_true, Bool.false_eq_true, if_false, Prog.bind_assoc,
      undisturbed_tokenSubjectIsActive, Bool.true_and]
    cases subjectIsActive w.store.tables refresh.organizationId refresh.userId with
    | false => exact ⟨inactiveIntrospectionResponse, by simp, fun f o w' => Iff.rfl⟩
    | true => exact ⟨_, iff_of_true saysActive_activeIntrospectionResponse rfl,
        fun f o w' => Iff.rfl⟩

/-- What an endpoint does with the token and the client it was given. -/
theorem undisturbed_introspect {token : String} {hint : Option String}
    (hclient : client ∈ w.store.tables .oidcClients)
    (hauth : clientAuthenticates P client auth = true) {o : Except ApiError Json} :
    (introspect P state ⟨token, hint⟩ auth).Runs (Call.execUndisturbed P) w o w' →
      (isBlank token = false ∧ client.admitted state = true ∧
        (introspectionResponseForToken state client (hashToken P token) w.clock
          (tokenTypeHintLookupOrder hint)).Runs (Call.execUndisturbed P) w o w') ∨
        ((isBlank token = true ∨ client.admitted state = false) ∧ ∃ e, o = .error e) := by
  intro h
  cases hblank : isBlank token with
  | true =>
    simp only [introspect, requiredOauthFormParameter, Option.filter_some, hblank, Bool.not_true,
      Bool.false_eq_true, if_false, oauthError, fail_bind, runs_fail] at h
    exact .inr ⟨.inl rfl, _, h.1⟩
  | false =>
    simp only [introspect, requiredOauthFormParameter, Option.filter_some, hblank, Bool.not_false,
      if_true, pure_eq, ret_bind, undisturbed_authenticatedClient hclient hauth,
      undisturbed_nowUtc] at h
    rcases h with ⟨hadmitted, h⟩ | ⟨hadmitted, ho, -⟩
    · exact .inl ⟨rfl, hadmitted, h⟩
    · exact .inr ⟨.inr hadmitted, _, ho⟩

/-- What introspection says of an access token of the client. -/
theorem introspect_own_access (haccess : access ∈ w.store.tables .accessTokens)
    (hclient : client ∈ w.store.tables .oidcClients)
    (horg : access.organizationId = client.organizationId) (hid : access.clientId = client.id)
    (hauth : clientAuthenticates P client auth = true) {token : String} {hint : Option String}
    (htoken : hashToken P token = access.tokenHash)
    (hhint : hint = some "refresh_token" →
      ∀ t ∈ w.store.tables .refreshTokens, t.tokenHash ≠ access.tokenHash)
    {o : Except ApiError Json}
    (h : (introspect P state ⟨token, hint⟩ auth).Runs (Call.execUndisturbed P) w o w') :
    (∃ response, o = .ok response ∧ saysActive response) ↔ isBlank token = false ∧
      client.admitted state = true ∧ access.honoured w.store.tables w.clock = true := by
  rcases undisturbed_introspect hclient hauth h with
    ⟨hblank, hadmitted, hrest⟩ | ⟨hrefused, e, rfl⟩
  · have hlookup : ∃ hints, (introspectionResponseForToken state client access.tokenHash w.clock
        (.accessToken :: hints)).Runs (Call.execUndisturbed P) w o w' := by
      rw [htoken, tokenTypeHintLookupOrder] at hrest
      split at hrest
      · rename_i hr
        rw [introspectionResponseForToken] at hrest
        simp only [introspectRefreshToken, Prog.bind_assoc,
          undisturbed_query (getRefreshToken_of_not_mem (hhint hr))] at hrest
        exact ⟨_, hrest⟩
      · exact ⟨_, hrest⟩
    obtain ⟨hints, hlookup⟩ := hlookup
    rw [introspectionResponseForToken] at hlookup
    obtain ⟨response, hanswer, hrun⟩ := introspectAccessToken_own (β := Json) haccess horg hid
    obtain ⟨rfl, -⟩ := runs_ret.mp ((hrun _ _ _).mp hlookup)
    simp [hblank, hadmitted, hanswer]
  · refine iff_of_false (by simp) ?_
    rintro ⟨hblank, hadmitted, -⟩
    simp [hblank, hadmitted] at hrefused

/-- What introspection says of a refresh token of the client. -/
theorem introspect_own_refresh (hrefresh : refresh ∈ w.store.tables .refreshTokens)
    (hclient : client ∈ w.store.tables .oidcClients)
    (horg : refresh.organizationId = client.organizationId) (hid : refresh.clientId = client.id)
    (hauth : clientAuthenticates P client auth = true) {token : String} {hint : Option String}
    (htoken : hashToken P token = refresh.tokenHash)
    (hhint : hint ≠ some "refresh_token" →
      ∀ t ∈ w.store.tables .accessTokens, t.tokenHash ≠ refresh.tokenHash)
    {o : Except ApiError Json}
    (h : (introspect P state ⟨token, hint⟩ auth).Runs (Call.execUndisturbed P) w o w') :
    (∃ response, o = .ok response ∧ saysActive response) ↔ isBlank token = false ∧
      client.admitted state = true ∧ refresh.honoured w.store.tables w.clock = true := by
  rcases undisturbed_introspect hclient hauth h with
    ⟨hblank, hadmitted, hrest⟩ | ⟨hrefused, e, rfl⟩
  · have hlookup : ∃ hints, (introspectionResponseForToken state client refresh.tokenHash w.clock
        (.refreshToken :: hints)).Runs (Call.execUndisturbed P) w o w' := by
      rw [htoken, tokenTypeHintLookupOrder] at hrest
      split at hrest
      · exact ⟨_, hrest⟩
      · rename_i hr
        rw [introspectionResponseForToken] at hrest
        simp only [introspectAccessToken, Prog.bind_assoc,
          undisturbed_query (getAccessToken_of_not_mem (hhint hr))] at hrest
        exact ⟨_, hrest⟩
    obtain ⟨hints, hlookup⟩ := hlookup
    rw [introspectionResponseForToken] at hlookup
    obtain ⟨response, hanswer, hrun⟩ := introspectRefreshToken_own (β := Json) hrefresh horg hid
    obtain ⟨rfl, -⟩ := runs_ret.mp ((hrun _ _ _).mp hlookup)
    simp [hblank, hadmitted, hanswer]
  · refine iff_of_false (by simp) ?_
    rintro ⟨hblank, hadmitted, -⟩
    simp [hblank, hadmitted] at hrefused

-- UserInfo

theorem getOidcClient_of_mem {s : Store} (h : client ∈ s.tables .oidcClients) :
    (DbCall.getOidcClient client.id).exec s = (.ok (some client), s) := by
  have hfind : (s.tables .oidcClients).find? (fun c => c.id = client.id) = some client :=
    (s.unique .oidcClients).find?_eq_some h (by simp) (k := .id client.id)
      (by intro c hc; simp only [decide_eq_true_eq] at hc; simp [schema, Schema.entries, hc])
  exact congrArg (fun a => (Except.ok a, s)) hfind

theorem not_isBlank_of_isBearerTokenValue {token : String} (h : isBearerTokenValue token = true) :
    isBlank token = false := by
  simp only [isBearerTokenValue, Bool.and_eq_true, Bool.not_eq_true', List.all_eq_true] at h
  obtain ⟨hnonempty, hchars⟩ := h
  obtain ⟨c, cs, hcs⟩ : ∃ c cs, token.toList = c :: cs := by
    refine List.exists_cons_of_ne_nil fun hnil => ?_
    rw [String.toList_eq_nil_iff] at hnil
    simp [hnil] at hnonempty
  have hc := hchars c (by simp [hcs])
  have hrange : 0x21 ≤ c.toNat ∧ c.toNat ≤ 0x7E := by
    simp only [isAsciiAlphanumeric, Char.le_def, UInt32.le_iff_toNat_le, Bool.or_eq_true,
      Bool.and_eq_true, decide_eq_true_eq, List.contains_eq_mem, List.mem_cons, List.not_mem_nil,
      or_false] at hc
    rcases hc with ((hc | hc) | hc) | rfl | rfl | rfl | rfl | rfl | rfl | rfl
    · exact ⟨le_trans (by decide) hc.1, le_trans hc.2 (by decide)⟩
    · exact ⟨le_trans (by decide) hc.1, le_trans hc.2 (by decide)⟩
    · exact ⟨le_trans (by decide) hc.1, le_trans hc.2 (by decide)⟩
    all_goals decide
  have hnot : isWhiteSpace c = false := by
    simp only [isWhiteSpace, Bool.or_eq_false_iff, Bool.and_eq_false_iff, decide_eq_false_iff_not]
    omega
  simp [isBlank, hcs, hnot]

theorem bearerToken_eq_ok {headers : List String} {token : String}
    (h : bearerToken headers = .ok token) : isBearerTokenValue token = true := by
  unfold bearerToken at h
  grind

theorem bearerTokenFromSources_eq_ok {headers : List String} {form query : Option String}
    {token : String} (h : bearerTokenFromSources headers form query = .ok token) :
    isBearerTokenValue token = true := by
  rw [bearerTokenFromSources, except_bind_eq_ok] at h
  obtain ⟨found, -, h⟩ := h
  dsimp only at h
  split at h
  · cases h
  · split at h
    · cases h
    · cases h
      exact bearerToken_eq_ok ‹_›
    · split at h
      · cases h
        assumption
      · cases h
    · cases h

/-- When UserInfo answers with claims. -/
theorem userinfo_own_access (haccess : access ∈ w.store.tables .accessTokens)
    (hclient : client ∈ w.store.tables .oidcClients)
    (horg : access.organizationId = client.organizationId) (hid : access.clientId = client.id)
    {userId : UserId} (huser : access.userId = some userId)
    (hrow : ∃ row ∈ w.store.tables .users, row.user.id = userId)
    (hopenid : "openid" ∈ access.scopes) {request : UserinfoRequest} {token : String}
    (hrequest : request.token = .ok token) (htoken : hashToken P token = access.tokenHash)
    {o : Except ApiError UserinfoResponse}
    (h : (userinfoResponseForBearerToken P state request).Runs (Call.execUndisturbed P) w o w') :
    (∃ claims, o = .ok (.ok claims)) ↔
      client.admitted state = true ∧ access.honoured w.store.tables w.clock = true := by
  rw [userinfoResponseForBearerToken, hrequest] at h
  dsimp only at h
  rw [htoken, undisturbed_query (getAccessToken_of_mem haccess)] at h
  dsimp only [userinfoForToken] at h
  rw [OidcClient.admitted, AccessTokenRecord.honoured, huser, horg]
  rw [huser, horg] at h
  by_cases hissuer : client.organizationId = state.organizationId
  swap
  · rw [if_pos hissuer] at h
    simp [(runs_ret.mp h).1, hissuer, invalidBearerToken]
  rw [if_neg (not_not_intro hissuer)] at h
  cases hrevoked : access.revokedAt with
  | some instant =>
    rw [if_pos (by simp [hrevoked])] at h
    simp [(runs_ret.mp h).1, invalidBearerToken]
  | none =>
  rw [if_neg (by simp [hrevoked]), undisturbed_nowUtc] at h
  by_cases hexpired : access.expiresAt ≤ w.clock
  · rw [if_pos hexpired] at h
    simp [(runs_ret.mp h).1, invalidBearerToken, not_lt.mpr hexpired]
  rw [if_neg hexpired, hid, undisturbed_query (getOidcClient_of_mem hclient)] at h
  dsimp only at h
  cases hactive : oidcClientIsActive client with
  | false =>
    rw [if_pos (by simp [hactive])] at h
    simp [(runs_ret.mp h).1, invalidBearerToken]
  | true =>
  rw [if_neg (by simp [hactive]), if_neg (by simpa using hopenid),
    undisturbed_query (c := .getUser userId)
      (a := ((w.store.tables .users).find? fun u => u.user.id = userId).map (·.user)) rfl] at h
  obtain ⟨row, hrow⟩ : ∃ row, ((w.store.tables .users).find? fun u => u.user.id = userId) =
      some row := by
    obtain ⟨row, hmem, hid⟩ := hrow
    exact Option.isSome_iff_exists.mp (List.find?_isSome.mpr ⟨row, hmem, by simpa using hid⟩)
  rw [subjectIsActive, hrow]
  rw [hrow] at h
  dsimp only [Option.map_some] at h ⊢
  cases hallowed : userAllowsRuntimeAccess row.user client.organizationId with
  | false =>
    rw [if_pos (by simp [hallowed])] at h
    simp [(runs_ret.mp h).1, invalidBearerToken]
  | true =>
  rw [if_neg (by simp [hallowed]), groupsClaimForUser] at h
  refine iff_of_true ?_ (by simp [hissuer, lt_of_not_ge hexpired])
  split at h
  · rw [Prog.bind_assoc, undisturbed_query (c := .listUserGroupSlugs client.organizationId
      row.user.id) (a := _) rfl] at h
    exact ⟨_, (runs_ret.mp h).1⟩
  · exact ⟨_, (runs_ret.mp h).1⟩

-- refresh

/-- When a refresh request without a scope parameter succeeds. -/
theorem refreshToken_own (hrefresh : refresh ∈ w.store.tables .refreshTokens)
    (hrefs : schema.RefsPresent w.store.tables .refreshTokens refresh)
    (hclient : client ∈ w.store.tables .oidcClients)
    (horg : refresh.organizationId = client.organizationId) (hid : refresh.clientId = client.id)
    (hgrant : client.allowsGrant .refreshToken = true)
    (hauth : clientAuthenticates P client auth = true) {request : TokenRequest} {token : String}
    (hrequest : request.refreshToken = some token) (hscope : request.scope = none)
    (htoken : hashToken P token = refresh.tokenHash) {o : Except ApiError TokenResponse}
    (h : (refreshToken P state request auth).Runs (Call.execUndisturbed P) w o w') :
    (∃ response, o = .ok response) ↔ isBlank token = false ∧ client.admitted state = true ∧
      refresh.honoured w.store.tables w.clock = true := by
  cases hblank : isBlank token with
  | true =>
    simp only [refreshToken, requiredRefreshToken, requiredOauthFormParameter, hrequest,
      Option.filter_some, hblank, Bool.not_true, Bool.false_eq_true, if_false, oauthError,
      fail_bind, runs_fail] at h
    simp [h.1]
  | false =>
  simp only [refreshToken, requiredRefreshToken, requiredOauthFormParameter, hrequest,
    Option.filter_some, hblank, Bool.not_false, if_true, pure_eq, ret_bind] at h
  rw [htoken, undisturbed_query (getRefreshToken_of_mem hrefresh)] at h
  dsimp only at h
  rw [undisturbed_nowUtc, requireStoredTokenOrganization, runs_refuseIf_bind, horg] at h
  rw [OidcClient.admitted, RefreshToken.honoured, horg]
  rcases h with ⟨hissuer, rfl, -⟩ | ⟨hissuer, h⟩
  · simp [hissuer]
  cases hrotated : refresh.rotatedAt with
  | some instant =>
    rw [hrotated, Prog.when, if_pos (by simp), Prog.bind_assoc] at h
    rcases runs_bind.mp h with ⟨_, w₁, -, h⟩ | ⟨e, rfl, -⟩
    · simp [(runs_fail.mp h).1]
    · simp
  | none =>
  rw [hrotated, Prog.when, if_neg (by simp), ret_bind, runs_refuseIf_bind] at h
  rcases h with ⟨hdead, rfl, -⟩ | ⟨hlive, h⟩
  · rcases hdead with hrevoked | hexpired
    · simp [Option.isSome_iff_ne_none.mp hrevoked]
    · simp [not_lt.mpr hexpired]
  rw [not_or, Bool.not_eq_true, Option.isSome_eq_false_iff, Option.isNone_iff_eq_none, not_le]
    at hlive
  rw [undisturbed_tokenSubjectIsActive, runs_refuseIf_bind] at h
  rcases h with ⟨hinactive, rfl, -⟩ | ⟨hsubject, h⟩
  · simp only [Bool.not_eq_true'] at hinactive
    simp [hinactive]
  rw [hid, undisturbed_query (getOidcClient_of_mem hclient)] at h
  dsimp only [requireOauthClientActive, authenticateOauthClient, requireTokenEndpointGrant] at h
  rw [runs_refuseIf_bind] at h
  rcases h with ⟨hdisabled, rfl, -⟩ | ⟨hactive, h⟩
  · simp only [Bool.not_eq_true'] at hdisabled
    simp [hdisabled]
  rw [hauth, hgrant, runs_refuseIf_bind, runs_refuseIf_bind, hscope] at h
  simp only [Bool.not_true, Bool.false_eq_true, false_and, not_false_eq_true, true_and, false_or,
    refreshTokenGrantedScopes, tokenRequestScopes, pure_eq, ret_bind] at h
  refine iff_of_true ?_ ?_
  swap
  · simp only [Bool.not_eq_true', Bool.not_eq_false, ne_eq, not_not] at hissuer hactive hsubject
    exact ⟨rfl, by simp [hissuer, hactive], by simp [hlive, hsubject]⟩
  obtain ⟨accessSecret, w₁, hstore₁, haccess, -, h⟩ := undisturbed_generateHashedSecret h
  obtain ⟨next, w₂, hstore₂, hnext, h⟩ : ∃ (next : Option (GeneratedSecret × RefreshToken))
      (w₂ : World), w₂.store = w.store ∧ (∀ new ∈ next.map (·.2),
        (∀ t ∈ w.store.tables .refreshTokens, t.id ≠ new.id ∧ t.tokenHash ≠ new.tokenHash) ∧
          schema.RefsPresent w.store.tables .refreshTokens new) ∧
      Runs (Call.execUndisturbed P) (do
        let rotated ← db (.rotateRefreshTokenAndInsertTokens refresh.tokenHash
          (nextAccessRecord refresh accessSecret.hash refresh.scopes w.clock) (next.map (·.2))
          w.clock)
        Prog.when (!rotated) do
          db (.revokeRefreshTokenFamilyAndAccessTokens refresh.familyId w.clock)
          oauthError 400 (.invalidGrant "refresh token reuse detected")
        return (⟨accessSecret.value, "Bearer", 900, next.map (·.1.value), none,
          tokenResponseScope refresh.scopes⟩ : TokenResponse)) w₂ o w' := by
    split at h
    · rw [Prog.bind_assoc] at h
      obtain ⟨secret, w₂, hstore₂, -, hnew, h⟩ := undisturbed_generateHashedSecret h
      rw [hstore₁] at hstore₂ hnew
      refine ⟨some (secret, nextRefreshRecord refresh secret refresh.scopes w.clock), w₂, hstore₂,
        ?_, h⟩
      rintro _ ⟨⟩
      exact ⟨hnew, hrefs⟩
    · exact ⟨none, w₁, hstore₁, by rintro _ ⟨⟩, h⟩
  have hrotate : ((DbCall.rotateRefreshTokenAndInsertTokens refresh.tokenHash
      (nextAccessRecord refresh accessSecret.hash refresh.scopes w.clock) (next.map (·.2))
      w.clock).exec w₂.store).1 = .ok true := by
    refine rotateRefreshTokenAndInsertTokens_ok (by rwa [hstore₂]) ?_ (by rwa [hstore₂])
      (by rwa [hstore₂]) (by rwa [hstore₂])
    simp [RefreshToken.rotatable, hrotated, hlive]
  rw [undisturbed_db (Prod.ext hrotate rfl)] at h
  exact ⟨_, (runs_ret.mp h).1⟩

end handlers

end CairnId
