import CairnId.Database.Issue
import CairnId.Http.Runs
import CairnId.Http.TokenSpec

/-!
# Runs of the token endpoint

Any number of token and revocation requests, interleaved with any other method
of `Database` that issues no token: code issue, consent revocation, changes of
users and clients, password resets.
-/

namespace CairnId

open Concurrency Concurrency.Sql Prog App

/-- The methods that insert tokens; only the token endpoint calls them. -/
def DbCall.issuesTokens : DbCall → Bool
  | .insertAccessToken _ | .consumeAuthorizationCodeAndInsertTokens ..
  | .rotateRefreshTokenAndInsertTokens .. => true
  | _ => false

inductive TokenTask where
  | authorizationCode (request : TokenRequest) (auth : OAuthClientAuth)
  | refreshToken (request : TokenRequest) (auth : OAuthClientAuth)
  | clientCredentials (request : TokenRequest) (auth : OAuthClientAuth)
  | revoke (request : RevocationRequest) (auth : OAuthClientAuth)
  /-- Any other method, called by some other handler. -/
  | method (c : DbCall) (h : c.issuesTokens = false)

variable (P : Primitives) (state : AppState)

/-- The tokens a task answers with, if it is a token request. -/
def TokenTask.handler : TokenTask → App (Option TokenResponse)
  | .authorizationCode request auth => do
    return some (← authorizationCodeToken P state request auth)
  | .refreshToken request auth => do
    return some (← CairnId.refreshToken P state request auth)
  | .clientCredentials request auth => do
    return some (← clientCredentialsToken P state request auth)
  | .revoke request auth => do
    CairnId.revoke P state request auth
    return none
  | .method c _ => do
    let _ ← db c
    return none

abbrev tokenMachine : Machine Call Call.Answer TokenTask World Choice ApiError (Option TokenResponse) :=
  machine P (TokenTask.handler P state)

/-- Calls that issue no token of a family. -/
def Call.issuesNoFamily : Call → Prop
  | .db (.insertAccessToken access) => access.refreshFamilyId = none
  | .db c => c.issuesTokens = false
  | _ => True

theorem Call.issuesNoFamily_of_isQuiet {e : Call} (h : e.isQuiet = true) : e.issuesNoFamily := by
  cases e with
  | db c => cases c <;> first | rfl | cases h
  | _ => trivial

/-- What a task has done before each of its calls. -/
def TokenTask.pre : TokenTask → List Ev → Call → Prop
  | .authorizationCode request auth => codePre P request auth
  | .refreshToken request auth => refreshPre P request auth
  | _ => fun _ e => e.issuesNoFamily

/-- What the answer of a task says about its calls. -/
def TokenTask.post : TokenTask → List Ev → Except ApiError (Option TokenResponse) → Prop
  | .authorizationCode request auth, h, .ok (some r) => codePost P request auth h (.ok r)
  | .authorizationCode _ _, _, .ok none => False
  | .authorizationCode request auth, h, .error e => codePost P request auth h (.error e)
  | .refreshToken request auth, h, .ok (some r) => refreshPost P request auth h (.ok r)
  | .refreshToken _ _, _, .ok none => False
  | .refreshToken request auth, h, .error e => refreshPost P request auth h (.error e)
  | _, _, _ => True

theorem all_db_issuesNoFamily {c : DbCall} (hc : (Call.db c).issuesNoFamily) :
    (App.db c).All Call.issuesNoFamily := by
  refine ⟨hc, fun r => ?_⟩
  cases r <;> trivial

theorem all_authenticatedClientFromRequest (auth : OAuthClientAuth) :
    (authenticatedClientFromRequest P state auth).All fun e => e.isQuiet = true := by
  unfold authenticatedClientFromRequest
  split
  · refine .bind (all_db rfl) fun found => ?_
    split
    · exact .bind (.when (.fail _)) fun _ => .bind (.when (.fail _)) fun _ =>
        .bind (.when (.fail _)) fun _ => .ret _
    · trivial
  · trivial

variable {P state} in
/-- The client that a request authenticated as. -/
theorem runs_authenticatedClientFromRequest {client : OidcClient}
    {auth : OAuthClientAuth} {w w' : World}
    (h : (authenticatedClientFromRequest P state auth).Runs (Call.exec P) w (.ok client) w') :
    client ∈ w.store.tables .oidcClients ∧ auth.clientId = some client.clientId ∧
      client.organizationId = state.organizationId ∧ oidcClientIsActive client = true := by
  unfold authenticatedClientFromRequest at h
  split at h
  · rename_i clientId hid
    obtain ⟨found, w₁, hdb, hrest⟩ := runs_bind_ok.mp h
    have hfound : (w.store.tables .oidcClients).find? (fun c => c.clientId = clientId) = found :=
      Except.ok.inj (Prod.mk.inj (App.runs_db_ok hdb)).1
    split at hrest
    · rename_i client'
      obtain ⟨_, w₂, horg, hrest⟩ := runs_bind_ok.mp hrest
      obtain ⟨_, w₃, hactive, hrest⟩ := runs_bind_ok.mp hrest
      obtain ⟨_, w₄, -, hrest⟩ := runs_bind_ok.mp hrest
      simp only [pure_eq, runs_ret, Except.ok.injEq] at hrest
      obtain ⟨rfl, -⟩ := hrest
      have hid' := List.find?_some hfound
      refine ⟨List.mem_of_find?_eq_some hfound, ?_, ?_, ?_⟩
      · rw [hid]
        simpa using (by simpa using hid' : client.clientId = clientId).symm
      · rcases runs_failIf.mp horg with ⟨-, he, -⟩ | ⟨horg, -⟩
        · cases he
        · simpa using horg
      · rcases runs_failIf.mp hactive with ⟨-, he, -⟩ | ⟨hactive, -⟩
        · cases he
        · simpa using hactive
    · simp [App.oauthError] at hrest
  · simp [App.oauthError] at h

theorem all_requiredOauthFormParameter (value : Option String) (parameter : String) :
    (requiredOauthFormParameter value parameter).All fun e => e.isQuiet = true := by
  unfold requiredOauthFormParameter
  split <;> trivial

theorem all_clientCredentialsToken (request : TokenRequest) (auth : OAuthClientAuth) :
    (clientCredentialsToken P state request auth).All Call.issuesNoFamily := by
  have quiet {α : Type} {p : App α} (hp : p.All fun e => e.isQuiet = true) :
      p.All Call.issuesNoFamily := hp.mono fun _ => Call.issuesNoFamily_of_isQuiet
  refine .bind (quiet (all_authenticatedClientFromRequest ..)) fun client =>
    .bind (.when (.fail _)) fun _ => .bind (.when (.fail _)) fun _ => .bind ?_ fun scopes =>
    .bind (.when (.fail _)) fun _ => .bind (.perform trivial) fun now =>
    .bind (quiet (all_generateHashedSecret ..)) fun access =>
    .bind (all_db_issuesNoFamily rfl) fun _ => .ret _
  unfold tokenRequestScopes
  split
  · trivial
  · split <;> trivial

theorem all_revokeTokenForClient (client : OidcClient) (hash : String) (now : OffsetDateTime)
    (hints : List TokenTypeHint) :
    (revokeTokenForClient client hash now hints).All Call.issuesNoFamily := by
  induction hints with
  | nil => trivial
  | cons hint hints ih =>
    refine .bind ?_ fun revoked => ?_
    · cases hint
      all_goals
        refine .bind (all_db_issuesNoFamily rfl) fun found => ?_
        split
        · split
          · exact .bind (all_db_issuesNoFamily rfl) fun _ => .ret _
          · trivial
        · trivial
    · split
      · trivial
      · exact ih

theorem all_revoke (request : RevocationRequest) (auth : OAuthClientAuth) :
    (revoke P state request auth).All Call.issuesNoFamily :=
  .bind ((all_requiredOauthFormParameter ..).mono fun _ => Call.issuesNoFamily_of_isQuiet) fun _ =>
    .bind ((all_authenticatedClientFromRequest ..).mono fun _ => Call.issuesNoFamily_of_isQuiet)
      fun _ => .bind (.perform trivial) fun _ => all_revokeTokenForClient ..

theorem DbCall.issuesNoFamily_of_not_issuesTokens {c : DbCall} (h : c.issuesTokens = false) :
    (Call.db c).issuesNoFamily := by
  cases c <;> first | rfl | cases h

/-- Every task keeps to its specification. -/
theorem TokenTask.sat (task : TokenTask) :
    (task.handler P state).Sat (task.pre P) (task.post P) [] := by
  cases task with
  | authorizationCode request auth =>
    exact (sat_authorizationCodeToken P state request auth).bind (fun h r hr => hr)
      fun h e he => he
  | refreshToken request auth =>
    exact (sat_refreshToken state request auth).bind (fun h r hr => hr) fun h e he => he
  | clientCredentials request auth =>
    exact .of_all (.bind (all_clientCredentialsToken P state request auth) fun _ => .ret _)
  | revoke request auth =>
    exact .of_all (.bind (all_revoke P state request auth) fun _ => .ret _)
  | method c hc =>
    exact .of_all (.bind (all_db_issuesNoFamily (DbCall.issuesNoFamily_of_not_issuesTokens hc))
      fun _ => .ret _)

/-- Thread `i` is the given task and has answered with tokens. -/
def TokenTask.Answered (p : Pool Call.Answer TokenTask World ApiError (Option TokenResponse))
    (i : ℕ) (task : TokenTask) : Prop :=
  ∃ t response, p.threads[i]? = some t ∧ t.request = task ∧ t.outcome = some (.ok (some response))

section exec

variable {P} {hash : String} {access : AccessTokenRecord} {refresh : Option RefreshToken}
  {now : OffsetDateTime} {ch : Choice} {w w' : World} {r : Except DatabaseError Bool}

theorem Call.exec_consume
    (h : Call.exec P (.db (.consumeAuthorizationCodeAndInsertTokens hash access refresh now)) ch w =
      some (r, w')) :
    (r = .ok true ∧ Redeemed hash access refresh now w.store.tables w'.store.tables) ∨
      (r ≠ .ok true ∧ w'.store = w.store) := by
  obtain ⟨-, -, ⟨rfl, hs⟩ | hs⟩ := Call.exec_db h
  · exact .inr ⟨nofun, hs⟩
  · exact exec_consumeAuthorizationCodeAndInsertTokens hs

theorem Call.exec_rotate
    (h : Call.exec P (.db (.rotateRefreshTokenAndInsertTokens hash access refresh now)) ch w =
      some (r, w')) :
    (r = .ok true ∧ Rotated hash access refresh now w.store.tables w'.store.tables) ∨
      (r ≠ .ok true ∧ w'.store = w.store) := by
  obtain ⟨-, -, ⟨rfl, hs⟩ | hs⟩ := Call.exec_db h
  · exact .inr ⟨nofun, hs⟩
  · exact exec_rotateRefreshTokenAndInsertTokens hs

end exec

namespace Sample

/-- Digests and password hashes that are the identity, and a signer that signs
    everything. -/
def primitives : Primitives :=
  { Primitives.inert with
    verifyPassword := fun password hash => password = hash
    encodeJwt := fun _ _ _ => some "jwt" }

def appState : AppState where
  organizationId := 1
  config :=
    { environment := .development, issuer := "https://id", publicWebOrigin := "https://id",
      bootstrapSetupSecretHash := none, signing := some ⟨"kid", "pem", .null⟩,
      keyEncryptionKey := none }

def organization : Organization := ⟨1, "default", "Default", 0⟩

def user : User := ⟨2, 1, "ada@example.org", none, true, "Ada", .active, 0, 0, none⟩

def client : OidcClient where
  id := 3
  organizationId := 1
  clientId := "app"
  clientSecretHash := none
  consentPolicyTemplateId := none
  name := "App"
  redirectUris := [⟨"https://app/callback"⟩]
  postLogoutRedirectUris := [⟨"https://app/bye"⟩]
  allowedScopes := ["openid", "offline_access"]
  grantTypes := [.authorizationCode, .refreshToken]
  publicClient := true
  requirePkce := true
  status := .active
  createdAt := 0

def session : AuthSession := ⟨4, 1, 2, "urn:cairnid:pwd", ["pwd"], 0, 1000, none⟩

def verifier : String := "aaaaaaaaaaaaaaaaaaaaaaaaaaaaaaaaaaaaaaaaaaa"

def code : AuthorizationCode :=
  ⟨"code", 1, 2, 4, 3, "https://app/callback", ["openid", "offline_access"], none, verifier, .s256,
    0, 100, none⟩

def auth : OAuthClientAuth := ⟨some "app", none⟩

def codeRequest : TokenRequest :=
  ⟨"authorization_code", some "code", some "https://app/callback", some "app", none, some verifier,
    none, none⟩

def refreshRequest : TokenRequest :=
  ⟨"refresh_token", none, none, some "app", none, none, some "r1", none⟩

/-- A user with a session and a code: threads 0 to 4. -/
def setup : List (Label TokenTask Choice) :=
  [.spawn (.method (.createOrganization organization) rfl), .run 0 {},
    .spawn (.method (.createUser user (some "secret")) rfl), .run 1 {},
    .spawn (.method (.createOidcClient client) rfl), .run 2 {},
    .spawn (.method (.createAuthSessionWithNewContextNotification session ⟨none, none⟩ none) rfl),
    .run 3 {}, .spawn (.method (.insertAuthorizationCode code) rfl), .run 4 {}]

/-- The code is exchanged: thread 5. -/
def exchange : List (Label TokenTask Choice) :=
  .spawn (.authorizationCode codeRequest auth) ::
    ([{}, {}, {}, {}, {}, {}, { text := "r1" }, { uuid := 10 }, { uuid := 11 }, { text := "a1" },
      { uuid := 12 }, {}] : List Choice).map (.run 5)

/-- The code is presented again: thread 6. -/
def replay : List (Label TokenTask Choice) :=
  [.spawn (.authorizationCode codeRequest auth), .run 6 {}, .run 6 {}]

/-- The refresh token is used: thread 6. -/
def refresh : List (Label TokenTask Choice) :=
  .spawn (.refreshToken refreshRequest auth) ::
    ([{}, {}, {}, {}, { text := "a2" }, { uuid := 20 }, { text := "r2" }, { uuid := 21 },
      {}] : List Choice).map (.run 6)

/-- What is left after a run from an empty store. -/
def after (labels : List (Label TokenTask Choice)) :
    Option (Pool Call.Answer TokenTask World ApiError (Option TokenResponse)) :=
  (tokenMachine primitives appState).run (Machine.start (World.initial 0)) labels

end Sample

end CairnId
