import CairnId.Http.IntrospectionSpec
import CairnId.Http.TokenRuns

/-!
# Introspection tells the truth

What introspection says of a token is what UserInfo and the refresh grant do with it,
and other clients learn nothing and change nothing.
-/

namespace CairnId

open Concurrency Concurrency.Sql Prog App

section truth

variable {P : Primitives} {state : AppState} {w w' : World} {client : OidcClient}
  {auth : OAuthClientAuth} {hash : String}

/-- No token with the hash is a token of the client. -/
def Foreign (client : OidcClient) (hash : String) (db : Db) : Prop :=
  (∀ t ∈ db .accessTokens, t.tokenHash = hash → t.clientId ≠ client.id) ∧
    ∀ t ∈ db .refreshTokens, t.tokenHash = hash → t.clientId ≠ client.id

theorem Foreign.accessToken {db : Db} (h : Foreign client hash db) {token : AccessTokenRecord}
    (hfind : (db .accessTokens).find? (fun t => t.tokenHash = hash) = some token) :
    token.clientId ≠ client.id :=
  h.1 token (List.mem_of_find?_eq_some hfind) (by simpa using List.find?_some hfind)

theorem Foreign.refreshToken {db : Db} (h : Foreign client hash db) {token : RefreshToken}
    (hfind : (db .refreshTokens).find? (fun t => t.tokenHash = hash) = some token) :
    token.clientId ≠ client.id :=
  h.2 token (List.mem_of_find?_eq_some hfind) (by simpa using List.find?_some hfind)

/-- A database call that only reads, however it ends. -/
theorem runs_query {c : DbCall} (hc : c.isQuery = true) {o : Except ApiError c.Result}
    (h : (App.db c).Runs (Call.exec P) w o w') :
    w'.store = w.store ∧ ∀ a, o = .ok a → (c.exec w.store).1 = .ok a := by
  refine ⟨runs_quiet (App.all_db hc) h, ?_⟩
  rintro a rfl
  rw [App.runs_db_ok h]

/-- Introspection by another client says inactive. -/
theorem introspectionResponseForToken_foreign {now : OffsetDateTime} {hints : List TokenTypeHint}
    (hforeign : Foreign client hash w.store.tables) {response : Json}
    (h : (introspectionResponseForToken state client hash now hints).Runs (Call.exec P) w
      (.ok response) w') : response = inactiveIntrospectionResponse := by
  induction hints generalizing w with
  | nil =>
    obtain ⟨hr, -⟩ := runs_ret.mp h
    cases hr
    rfl
  | cons hint hints ih =>
    obtain ⟨found, w₁, hlookup, hrest⟩ := runs_bind_ok.mp h
    have hfound : w₁.store = w.store ∧
        (found = none ∨ found = some inactiveIntrospectionResponse) := by
      cases hint with
      | accessToken =>
        obtain ⟨stored, w₂, hdb, hlookup⟩ := runs_bind_ok.mp hlookup
        obtain ⟨hstore, hanswer⟩ := runs_query rfl hdb
        cases stored with
        | none =>
          obtain ⟨hr, rfl⟩ := runs_ret.mp hlookup
          cases hr
          exact ⟨hstore, .inl rfl⟩
        | some token =>
          have hother := hforeign.accessToken (Except.ok.inj (hanswer _ rfl))
          dsimp only at hlookup
          rw [if_pos (by simp [accessTokenActiveForClient, hother])] at hlookup
          obtain ⟨hr, rfl⟩ := runs_ret.mp hlookup
          cases hr
          exact ⟨hstore, .inr rfl⟩
      | refreshToken =>
        obtain ⟨stored, w₂, hdb, hlookup⟩ := runs_bind_ok.mp hlookup
        obtain ⟨hstore, hanswer⟩ := runs_query rfl hdb
        cases stored with
        | none =>
          obtain ⟨hr, rfl⟩ := runs_ret.mp hlookup
          cases hr
          exact ⟨hstore, .inl rfl⟩
        | some token =>
          have hother := hforeign.refreshToken (Except.ok.inj (hanswer _ rfl))
          dsimp only at hlookup
          rw [if_pos (by simp [refreshTokenActiveForClient, hother])] at hlookup
          obtain ⟨hr, rfl⟩ := runs_ret.mp hlookup
          cases hr
          exact ⟨hstore, .inr rfl⟩
    obtain ⟨hstore, rfl | rfl⟩ := hfound
    · exact ih (hstore ▸ hforeign) hrest
    · obtain ⟨hr, -⟩ := runs_ret.mp hrest
      cases hr
      rfl

/-- It says so unless something fails. -/
theorem undisturbed_introspectionResponseForToken_foreign {now : OffsetDateTime}
    {hints : List TokenTypeHint} (hforeign : Foreign client hash w.store.tables)
    {o : Except ApiError Json}
    (h : (introspectionResponseForToken state client hash now hints).Runs (Call.execUndisturbed P)
      w o w') : o = .ok inactiveIntrospectionResponse := by
  induction hints with
  | nil => exact (runs_ret.mp h).1
  | cons hint hints ih =>
    cases hint with
    | accessToken =>
      rw [introspectionResponseForToken] at h
      simp only [introspectAccessToken, Prog.bind_assoc] at h
      rw [undisturbed_query (c := .getAccessToken hash) (a := _) rfl] at h
      cases hfind : (w.store.tables .accessTokens).find? (fun t => t.tokenHash = hash) with
      | none =>
        rw [hfind] at h
        exact ih h
      | some token =>
        rw [hfind] at h
        dsimp only at h
        rw [if_pos (by simp [accessTokenActiveForClient, hforeign.accessToken hfind])] at h
        exact (runs_ret.mp h).1
    | refreshToken =>
      rw [introspectionResponseForToken] at h
      simp only [introspectRefreshToken, Prog.bind_assoc] at h
      rw [undisturbed_query (c := .getRefreshToken hash) (a := _) rfl] at h
      cases hfind : (w.store.tables .refreshTokens).find? (fun t => t.tokenHash = hash) with
      | none =>
        rw [hfind] at h
        exact ih h
      | some token =>
        rw [hfind] at h
        dsimp only at h
        rw [if_pos (by simp [refreshTokenActiveForClient, hforeign.refreshToken hfind])] at h
        exact (runs_ret.mp h).1

theorem revokeAccessTokenForClient_foreign {now : OffsetDateTime}
    (hforeign : Foreign client hash w.store.tables) {o : Except ApiError Bool}
    (h : (revokeAccessTokenForClient client hash now).Runs (Call.exec P) w o w') :
    w'.store = w.store ∧ ∀ revoked, o = .ok revoked → revoked = false := by
  rcases runs_bind.mp h with ⟨stored, w₂, hdb, h⟩ | ⟨e, rfl, hdb⟩
  · obtain ⟨hstore, hanswer⟩ := runs_query rfl hdb
    cases stored with
    | none =>
      obtain ⟨rfl, rfl⟩ := runs_ret.mp h
      exact ⟨hstore, fun _ hr => (Except.ok.inj hr).symm⟩
    | some token =>
      have hother := hforeign.accessToken (Except.ok.inj (hanswer _ rfl))
      dsimp only at h
      rw [if_neg (by simp [hother])] at h
      obtain ⟨rfl, rfl⟩ := runs_ret.mp h
      exact ⟨hstore, fun _ hr => (Except.ok.inj hr).symm⟩
  · exact ⟨(runs_query rfl hdb).1, by rintro _ ⟨⟩⟩

theorem revokeRefreshTokenForClient_foreign {now : OffsetDateTime}
    (hforeign : Foreign client hash w.store.tables) {o : Except ApiError Bool}
    (h : (revokeRefreshTokenForClient client hash now).Runs (Call.exec P) w o w') :
    w'.store = w.store ∧ ∀ revoked, o = .ok revoked → revoked = false := by
  rcases runs_bind.mp h with ⟨stored, w₂, hdb, h⟩ | ⟨e, rfl, hdb⟩
  · obtain ⟨hstore, hanswer⟩ := runs_query rfl hdb
    cases stored with
    | none =>
      obtain ⟨rfl, rfl⟩ := runs_ret.mp h
      exact ⟨hstore, fun _ hr => (Except.ok.inj hr).symm⟩
    | some token =>
      have hother := hforeign.refreshToken (Except.ok.inj (hanswer _ rfl))
      dsimp only at h
      rw [if_neg (by simp [hother])] at h
      obtain ⟨rfl, rfl⟩ := runs_ret.mp h
      exact ⟨hstore, fun _ hr => (Except.ok.inj hr).symm⟩
  · exact ⟨(runs_query rfl hdb).1, by rintro _ ⟨⟩⟩

/-- Revocation by another client changes nothing. -/
theorem revokeTokenForClient_foreign {now : OffsetDateTime} {hints : List TokenTypeHint}
    (hforeign : Foreign client hash w.store.tables) {o : Except ApiError Unit}
    (h : (revokeTokenForClient client hash now hints).Runs (Call.exec P) w o w') :
    w'.store = w.store := by
  induction hints generalizing w with
  | nil => rw [(runs_ret.mp h).2]
  | cons hint hints ih =>
    rcases runs_bind.mp h with ⟨revoked, w₁, hrevoke, hrest⟩ | ⟨e, rfl, hrevoke⟩
    · have hlookup : w₁.store = w.store ∧ ∀ b, Except.ok (ε := ApiError) revoked = .ok b → b = false := by
        cases hint with
        | accessToken => exact revokeAccessTokenForClient_foreign hforeign hrevoke
        | refreshToken => exact revokeRefreshTokenForClient_foreign hforeign hrevoke
      obtain ⟨hstore, hfalse⟩ := hlookup
      rw [hfalse revoked rfl, if_neg (by simp)] at hrest
      rw [ih (hstore ▸ hforeign) hrest, hstore]
    · cases hint with
      | accessToken => exact (revokeAccessTokenForClient_foreign hforeign hrevoke).1
      | refreshToken => exact (revokeRefreshTokenForClient_foreign hforeign hrevoke).1

theorem requiredOauthFormParameter_eq_ok {value parameter token : String}
    (h : (requiredOauthFormParameter (some value) parameter).Runs (Call.exec P) w (.ok token) w') :
    token = value ∧ w' = w := by
  simp only [requiredOauthFormParameter, Option.filter_some] at h
  cases hblank : isBlank value with
  | true => simp [hblank, oauthError] at h
  | false =>
    simp only [hblank, Bool.not_false, if_true, pure_eq, runs_ret, Except.ok.injEq] at h
    exact h

/-- The client that authenticates is the one with the identifier it gives. -/
theorem authenticated_client (hclient : client ∈ w.store.tables .oidcClients)
    (hid : auth.clientId = some client.clientId) {found : OidcClient}
    (h : (authenticatedClientFromRequest P state auth).Runs (Call.exec P) w (.ok found) w') :
    found = client := by
  obtain ⟨hfound, hfoundId, -⟩ := runs_authenticatedClientFromRequest h
  rw [hid, Option.some.injEq] at hfoundId
  exact (w.store.unique .oidcClients).eq_of_entry hfound hclient (k := .text client.clientId)
    (by simp [schema, Schema.entries, hfoundId]) (by simp [schema, Schema.entries])

theorem introspect_foreign (hclient : client ∈ w.store.tables .oidcClients)
    (hid : auth.clientId = some client.clientId) {request : IntrospectionRequest}
    (hforeign : Foreign client (hashToken P request.token) w.store.tables) {response : Json}
    (h : (introspect P state request auth).Runs (Call.exec P) w (.ok response) w') :
    response = inactiveIntrospectionResponse := by
  obtain ⟨token, w₁, htoken, hrest⟩ := runs_bind_ok.mp h
  obtain ⟨rfl, rfl⟩ := requiredOauthFormParameter_eq_ok htoken
  obtain ⟨found, w₂, hfound, hrest⟩ := runs_bind_ok.mp hrest
  obtain ⟨now, w₃, hnow, hrest⟩ := runs_bind_ok.mp hrest
  have hstore : w₃.store = w₁.store := by
    rw [runs_quiet (.perform rfl) hnow, runs_quiet (all_authenticatedClientFromRequest ..) hfound]
  rw [authenticated_client hclient hid hfound] at hrest
  exact introspectionResponseForToken_foreign (hstore ▸ hforeign) hrest

theorem revoke_foreign (hclient : client ∈ w.store.tables .oidcClients)
    (hid : auth.clientId = some client.clientId) {request : RevocationRequest}
    (hforeign : Foreign client (hashToken P request.token) w.store.tables)
    {o : Except ApiError Unit} (h : (revoke P state request auth).Runs (Call.exec P) w o w') :
    w'.store = w.store := by
  rcases runs_bind.mp h with ⟨token, w₁, htoken, hrest⟩ | ⟨e, -, h⟩
  swap
  · exact runs_quiet (all_requiredOauthFormParameter ..) h
  obtain ⟨rfl, rfl⟩ := requiredOauthFormParameter_eq_ok htoken
  rcases runs_bind.mp hrest with ⟨found, w₂, hfound, hrest⟩ | ⟨e, -, h⟩
  swap
  · exact runs_quiet (all_authenticatedClientFromRequest ..) h
  rcases runs_bind.mp hrest with ⟨now, w₃, hnow, hrest⟩ | ⟨e, -, h⟩
  swap
  · rw [runs_quiet (.perform rfl) h, runs_quiet (all_authenticatedClientFromRequest ..) hfound]
  have hstore : w₃.store = w₁.store := by
    rw [runs_quiet (.perform rfl) hnow, runs_quiet (all_authenticatedClientFromRequest ..) hfound]
  rw [authenticated_client hclient hid hfound] at hrest
  rw [revokeTokenForClient_foreign (hstore ▸ hforeign) hrest, hstore]

/-- The organization of a client is that of its tokens. -/
theorem organization_of_ref (hclient : client ∈ w.store.tables .oidcClients) {t : Tab} {r : Row t}
    (hrefs : schema.RefsPresent w.store.tables t r) (organizationId : OrganizationId)
    (hmem : (.oidcClients, .tenant client.id organizationId) ∈ schema.refs t r) :
    organizationId = client.organizationId := by
  obtain ⟨owner, howner, hentry⟩ := hrefs _ hmem
  have htenant : client.id = owner.id ∧ organizationId = owner.organizationId := by
    simpa [schema, Schema.entries] using hentry
  have := (w.store.unique .oidcClients).eq_of_key howner hclient (by simp [schema, htenant.1])
  rw [htenant.2, this]

/-- Introspection agrees with UserInfo on user access tokens and with the refresh grant
    on refresh tokens, and tokens of other clients are out of reach. -/
theorem introspection_tells_truth (haccess : schema.Refers .accessTokens w.store.tables)
    (hrefresh : schema.Refers .refreshTokens w.store.tables)
    (hclient : client ∈ w.store.tables .oidcClients) (hint : Option String) :
    (∀ access ∈ w.store.tables .accessTokens, access.clientId = client.id →
      access.userId.isSome = true → "openid" ∈ access.scopes →
      (hint = some "refresh_token" →
        ∀ t ∈ w.store.tables .refreshTokens, t.tokenHash ≠ access.tokenHash) →
      ∀ token, hashToken P token = access.tokenHash → clientAuthenticates P client auth = true →
      ∀ request : UserinfoRequest, request.token = .ok token →
      ∀ o₁ w₁ o₂ w₂,
        (introspect P state ⟨token, hint⟩ auth).Runs (Call.execUndisturbed P) w o₁ w₁ →
        (userinfoResponseForBearerToken P state request).Runs (Call.execUndisturbed P) w o₂ w₂ →
        ((∃ response, o₁ = .ok response ∧ saysActive response) ↔ ∃ claims, o₂ = .ok (.ok claims))) ∧
    (∀ refresh ∈ w.store.tables .refreshTokens, refresh.clientId = client.id →
      client.allowsGrant .refreshToken = true →
      (hint ≠ some "refresh_token" →
        ∀ t ∈ w.store.tables .accessTokens, t.tokenHash ≠ refresh.tokenHash) →
      ∀ token, hashToken P token = refresh.tokenHash → clientAuthenticates P client auth = true →
      ∀ request : TokenRequest, request.refreshToken = some token → request.scope = none →
      ∀ o₁ w₁ o₂ w₂,
        (introspect P state ⟨token, hint⟩ auth).Runs (Call.execUndisturbed P) w o₁ w₁ →
        (refreshToken P state request auth).Runs (Call.execUndisturbed P) w o₂ w₂ →
        ((∃ response, o₁ = .ok response ∧ saysActive response) ↔ ∃ tokens, o₂ = .ok tokens)) ∧
    (auth.clientId = some client.clientId →
      ∀ token, Foreign client (hashToken P token) w.store.tables →
      (∀ response w', (introspect P state ⟨token, hint⟩ auth).Runs (Call.exec P) w (.ok response) w' →
        response = inactiveIntrospectionResponse) ∧
      (clientAuthenticates P client auth = true → client.admitted state = true →
        isBlank token = false → ∀ o w',
        (introspect P state ⟨token, hint⟩ auth).Runs (Call.execUndisturbed P) w o w' →
        o = .ok inactiveIntrospectionResponse) ∧
      ∀ o w', (revoke P state ⟨token, hint⟩ auth).Runs (Call.exec P) w o w' →
        w'.store = w.store) := by
  refine ⟨?_, ?_, ?_⟩
  · intro access hmem hid huser hopenid hhint token htoken hauth request hrequest o₁ w₁ o₂ w₂
      hintrospect huserinfo
    obtain ⟨userId, huser⟩ := Option.isSome_iff_exists.mp huser
    have hrefs := haccess access hmem
    have horg := organization_of_ref hclient hrefs access.organizationId (by simp [schema, hid])
    obtain ⟨row, hrow, hentry⟩ := hrefs _ (user_ref_of_accessToken huser)
    have hrowId : row.user.id = userId := by
      simp only [schema, Schema.entries, List.mem_cons, List.mem_append, reduceCtorEq, false_or,
        Key.tenant.injEq, List.not_mem_nil, Option.mem_toList, Option.map_eq_some_iff, or_false,
        and_false, exists_false] at hentry
      exact hentry.1.symm
    rw [introspect_own_access hmem hclient horg hid hauth htoken hhint hintrospect,
      userinfo_own_access hmem hclient horg hid huser ⟨row, hrow, hrowId⟩ hopenid hrequest htoken
        huserinfo]
    simp [not_isBlank_of_isBearerTokenValue (bearerTokenFromSources_eq_ok hrequest)]
  · intro refresh hmem hid hgrant hhint token htoken hauth request hrequest hscope o₁ w₁ o₂ w₂
      hintrospect hrun
    have hrefs := hrefresh refresh hmem
    have horg := organization_of_ref hclient hrefs refresh.organizationId (by simp [schema, hid])
    rw [introspect_own_refresh hmem hclient horg hid hauth htoken hhint hintrospect,
      refreshToken_own hmem hrefs hclient horg hid hgrant hauth hrequest hscope htoken hrun]
  · intro hid token hforeign
    refine ⟨fun response w' h => introspect_foreign hclient hid hforeign h, ?_,
      fun o w' h => revoke_foreign hclient hid hforeign h⟩
    intro hauth hadmitted hblank o w' h
    rcases undisturbed_introspect hclient hauth h with ⟨-, -, hrest⟩ | ⟨hrefused, -⟩
    · exact undisturbed_introspectionResponseForToken_foreign hforeign hrest
    · simp [hblank, hadmitted] at hrefused

end truth

namespace Sample

def userToken : AccessTokenRecord := ⟨"a", 1, some 2, 3, ["openid"], none, 0, 100, none⟩

def familyToken : RefreshToken := ⟨30, "r", 31, 1, some 2, 3, ["openid"], 0, 100, none, none⟩

def grantedTables : Db
  | .organizations => [organization]
  | .users => [⟨user, none⟩]
  | .oidcClients => [client]
  | .accessTokens => [userToken]
  | .refreshTokens => [familyToken]
  | _ => []

/-- A client with an access token and a refresh token of a user. -/
def granted : World where
  store := ⟨grantedTables, fun t => by cases t <;> decide⟩
  clock := 0
  uuids := []

def sameHashTables : Db
  | .accessTokens => [{ userToken with tokenHash := "r", revokedAt := some 0 }]
  | t => grantedTables t

/-- The access token is revoked and has the hash of the refresh token. -/
def sameHash : World where
  store := ⟨sameHashTables, fun t => by cases t <;> decide⟩
  clock := 0
  uuids := []

def refreshing : TokenRequest :=
  ⟨"refresh_token", none, none, some "app", none, none, some "r", none⟩

def bearing : UserinfoRequest := ⟨["Bearer a"], none, none⟩

/-- Whether a run answered, and what introspection said. -/
def saidActive (x : Except ApiError Json × World) : Option Bool := match x.1 with
  | .ok response => match response.get? "active" with
    | some (.bool active) => some active
    | _ => none
  | .error _ => none

/-- Whether a run answered with the user's claims. -/
def saidClaims : Except ApiError UserinfoResponse → Bool
  | .ok (.ok _) => true
  | .ok (.challenge ..) | .error _ => false

end Sample

open Sample in
/-- Introspection looks at the access token with the same hash and says inactive, while
    a refresh succeeds. -/
theorem introspection_shadows_refreshToken :
    schema.Refers .accessTokens sameHash.store.tables ∧
      schema.Refers .refreshTokens sameHash.store.tables ∧
      client ∈ sameHash.store.tables .oidcClients ∧
      familyToken ∈ sameHash.store.tables .refreshTokens ∧ familyToken.clientId = client.id ∧
      client.allowsGrant .refreshToken = true ∧
      hashToken primitives "r" = familyToken.tokenHash ∧
      clientAuthenticates primitives client auth = true ∧
      refreshing.refreshToken = some "r" ∧ refreshing.scope = none ∧
      ∃ o₁ w₁ o₂ w₂,
        (introspect primitives appState ⟨"r", none⟩ auth).Runs (Call.execUndisturbed primitives)
          sameHash o₁ w₁ ∧
        (refreshToken primitives appState refreshing auth).Runs (Call.execUndisturbed primitives)
          sameHash o₂ w₂ ∧
        ¬ ((∃ response, o₁ = .ok response ∧ saysActive response) ↔ ∃ tokens, o₂ = .ok tokens) := by
  have hintrospect : (play (Call.execUndisturbed primitives) (List.replicate 5 {})
      (introspect primitives appState ⟨"r", none⟩ auth) sameHash).map saidActive =
      some (some false) := by decide
  have hrefresh : (play (Call.execUndisturbed primitives)
      [{}, {}, {}, {}, { text := "x" }, { uuid := 40 }, {}]
      (refreshToken primitives appState refreshing auth) sameHash).map (fun x => x.1.isOk) =
      some true := by decide
  obtain ⟨⟨o₁, w₁⟩, hplay₁, hsaid⟩ := Option.map_eq_some_iff.mp hintrospect
  obtain ⟨⟨o₂, w₂⟩, hplay₂, hok⟩ := Option.map_eq_some_iff.mp hrefresh
  refine ⟨by decide, by decide, .head _, .head _, rfl, rfl, rfl, rfl, rfl, rfl,
    o₁, w₁, o₂, w₂, ⟨_, hplay₁⟩, ⟨_, hplay₂⟩, fun hiff => ?_⟩
  cases o₂ with
  | error e => cases hok
  | ok tokens =>
    obtain ⟨response, rfl, hactive⟩ := hiff.mpr ⟨tokens, rfl⟩
    simp [saidActive, saysActive] at hsaid hactive
    simp [hactive] at hsaid

open Sample in
theorem introspection_tells_truth_granted :
    (∃ o₁ w₁ o₂ w₂,
      (introspect primitives appState ⟨"a", none⟩ auth).Runs (Call.execUndisturbed primitives)
        granted o₁ w₁ ∧
      (userinfoResponseForBearerToken primitives appState bearing).Runs
        (Call.execUndisturbed primitives) granted o₂ w₂ ∧
      (∃ response, o₁ = .ok response ∧ saysActive response) ∧ ∃ claims, o₂ = .ok (.ok claims)) := by
  have hintrospect : (play (Call.execUndisturbed primitives) (List.replicate 5 {})
      (introspect primitives appState ⟨"a", none⟩ auth) granted).isSome = true := by
    decide
  have huserinfo : (play (Call.execUndisturbed primitives) (List.replicate 4 {})
      (userinfoResponseForBearerToken primitives appState bearing) granted).map
        (fun x => saidClaims x.1) = some true := by decide
  obtain ⟨⟨o₁, w₁⟩, hplay₁⟩ := Option.isSome_iff_exists.mp hintrospect
  obtain ⟨⟨o₂, w₂⟩, hplay₂, hclaims⟩ := Option.map_eq_some_iff.mp huserinfo
  have hok : ∃ claims, o₂ = .ok (.ok claims) := by
    rcases o₂ with _ | claims | _
    · cases hclaims
    · exact ⟨claims, rfl⟩
    · cases hclaims
  exact ⟨o₁, w₁, o₂, w₂, ⟨_, hplay₁⟩, ⟨_, hplay₂⟩,
    ((introspection_tells_truth (by decide) (by decide) (.head _) none).1 userToken
      (.head _) rfl rfl (.head _) (by rintro ⟨⟩) "a" rfl rfl bearing (by decide) o₁ w₁ o₂ w₂
      ⟨_, hplay₁⟩ ⟨_, hplay₂⟩).mpr hok, hok⟩

end CairnId
