import CairnId.Database.Consent
import CairnId.Http.AuthorizeSpec
import CairnId.Http.TokenRuns

/-!
# What an authorization code stands for

A code that the authorization endpoint inserts is backed by the request, the
client, the session and a consent, as they are in the store.
-/

namespace CairnId

open Concurrency Prog App Database

/-- Everything that a code inserted for the parameters `pairs`, between the worlds
    `w` and `w'`, stands for. -/
structure Backed (P : Primitives) (headers : RequestHeaders) (pairs : List (String × String))
    (w w' : World) (code : AuthorizationCode) (client : OidcClient) (session : AuthSession) :
    Prop where
  unrepeated : ∀ name ∈ authorizationRequestParameters, (pairs.map Prod.fst).count name ≤ 1
  client_registered : client ∈ w.store.tables .oidcClients ∧ client.id = code.clientId ∧
    client.clientId = (parameter pairs "client_id").getD ""
  client_active : client.status = .active
  client_organization : client.organizationId = session.organizationId
  redirectUri : code.redirectUri = (parameter pairs "redirect_uri").getD "" ∧
    ∃ uri ∈ client.redirectUris, uri.value = code.redirectUri
  responseType : parameter pairs "response_type" = some "code"
  responseMode : ∀ mode, parameter pairs "response_mode" = some mode →
    trim mode = "" ∨ trim mode = "query"
  request_blank : ∀ value, parameter pairs "request" = some value → trim value = ""
  requestUri_blank : ∀ value, parameter pairs "request_uri" = some value → trim value = ""
  scopes_nodup : code.scopes.Nodup
  openid : "openid" ∈ code.scopes
  scopes_allowed : code.scopes ⊆ client.allowedScopes
  offline_access : "offline_access" ∈ code.scopes → .refreshToken ∈ client.grantTypes
  codeChallenge : parameter pairs "code_challenge" = some code.codeChallenge ∧
    43 ≤ code.codeChallenge.utf8ByteSize ∧ code.codeChallenge.utf8ByteSize ≤ 128 ∧
    ∀ c ∈ code.codeChallenge.toList, isPkceUnreserved c = true
  codeChallengeMethod : parameter pairs "code_challenge_method" = some "S256" ∧
    code.codeChallengeMethod = .s256
  prompt : ∀ prompt, parameter pairs "prompt" = some prompt →
    "login" ∉ splitWhitespace (trim prompt) ∧ "consent" ∉ splitWhitespace (trim prompt)
  session_stored : (∃ row ∈ w.store.tables .authSessions, row.session = session) ∧
    session.id = code.sessionId ∧ session.organizationId = code.organizationId ∧
    session.userId = code.userId
  session_cookie : (cookieValue headers "cairn_session").bind P.parseUuid = some session.id
  session_unrevoked : session.revokedAt = none
  session_unexpired : ∃ t, w.clock ≤ t ∧ t ≤ w'.clock ∧ t < session.expiresAt
  user_active : ∃ row ∈ w.store.tables .users, row.user.id = session.userId ∧
    row.user.organizationId = session.organizationId ∧ row.user.status = .active
  issued_now : w.clock ≤ code.createdAt ∧ code.createdAt ≤ w'.clock
  maxAge : ∀ value, parameter pairs "max_age" = some value → ∃ maxAge, parseI64 value = some maxAge ∧
    OffsetDateTime.unixTimestamp code.createdAt - OffsetDateTime.unixTimestamp session.createdAt ≤
      maxAge
  acr : ∀ value, parameter pairs "acr_values" = some value → splitWhitespace value ≠ [] →
    session.acr ∈ splitWhitespace value
  consent : ∃ grant ∈ w.store.tables .consentGrants, grant.organizationId = code.organizationId ∧
    grant.userId = code.userId ∧ grant.clientId = code.clientId ∧ grant.revokedAt = none ∧
    code.scopes ⊆ grant.scopes

-- what a run of the endpoint has read

variable {P : Primitives} {state : AppState} {headers : RequestHeaders}
  {pairs : List (String × String)} {w₀ w w' : World} {h : List Ev}

/-- The tables that the endpoint does not write are those of `db`. -/
def ReadOnly (db db' : Db) : Prop :=
  ∀ t, t ≠ .consentAuthorizations → t ≠ .authorizationCodes → db' t = db t

/-- A request started in `w₀` is in `w` after the calls `h`. -/
structure AuthorizeInv (P : Primitives) (state : AppState) (headers : RequestHeaders)
    (pairs : List (String × String)) (w₀ w : World) (h : List Ev) : Prop where
  tables : ReadOnly w₀.store.tables w.store.tables
  clock : w₀.clock ≤ w.clock
  times : ∀ t, ⟨.nowUtc, t⟩ ∈ h → w₀.clock ≤ t ∧ t ≤ w.clock
  queries : ∀ (c : DbCall) (a : c.Result), c.isQuery = true → ⟨.db c, .ok a⟩ ∈ h →
    ∃ s : Store, (c.exec s).1 = .ok a ∧ ReadOnly w₀.store.tables s.tables
  codes : ∀ code ∈ w.store.tables .authorizationCodes,
    code ∈ w₀.store.tables .authorizationCodes ∨
      ∃ request client validated session now codeHash,
        code = newAuthorizationCode client validated session codeHash now ∧
        CodeGrounds P state headers pairs h request client validated session now

/-- The history and the clock go on; the store is given. -/
theorem AuthorizeInv.cons (hinv : AuthorizeInv P state headers pairs w₀ w h) {e : Call}
    {ch : Choice} {r : e.Answer} (hx : Call.exec P e ch w = some (r, w'))
    (htables : ReadOnly w.store.tables w'.store.tables)
    (hcodes : ∀ code ∈ w'.store.tables .authorizationCodes,
      code ∈ w.store.tables .authorizationCodes ∨
        ∃ request client validated session now codeHash,
          code = newAuthorizationCode client validated session codeHash now ∧
          CodeGrounds P state headers pairs h request client validated session now) :
    AuthorizeInv P state headers pairs w₀ w' (⟨e, r⟩ :: h) := by
  have hclock := Call.exec_clock hx
  have hsub := List.subset_cons_self (⟨e, r⟩ : Ev) h
  refine ⟨fun t h₁ h₂ => (htables t h₁ h₂).trans (hinv.tables t h₁ h₂), hinv.clock.trans hclock,
    fun t ht => ?_, fun c a hc hmem => ?_, fun code hcode => ?_⟩
  · rcases List.mem_cons.mp ht with heq | ht
    · cases heq
      simp only [Call.exec, Option.ite_none_right_eq_some] at hx
      obtain ⟨hle, hx⟩ := hx
      cases hx
      exact ⟨hinv.clock.trans hle, le_refl _⟩
    · exact ⟨(hinv.times t ht).1, (hinv.times t ht).2.trans hclock⟩
  · rcases List.mem_cons.mp hmem with heq | hmem
    · cases heq
      obtain ⟨-, -, ⟨herr, -⟩ | hs⟩ := Call.exec_db hx
      · cases herr
      · exact ⟨w.store, by rw [hs], hinv.tables⟩
    · exact hinv.queries c a hc hmem
  · rcases hcodes code hcode with hcode | ⟨request, client, validated, session, now, hash, rfl, hg⟩
    · refine (hinv.codes code hcode).imp_right ?_
      rintro ⟨request, client, validated, session, now, hash, heq, hg⟩
      exact ⟨request, client, validated, session, now, hash, heq, hg.mono hsub⟩
    · exact .inr ⟨request, client, validated, session, now, hash, rfl, hg.mono hsub⟩

theorem AuthorizeInv.step {e : Call} {ch : Choice} {r : e.Answer}
    (hinv : AuthorizeInv P state headers pairs w₀ w h) (hpre : authorizePre P state headers pairs h e)
    (hx : Call.exec P e ch w = some (r, w')) :
    AuthorizeInv P state headers pairs w₀ w' (⟨e, r⟩ :: h) := by
  rcases hpre with ⟨-, hquiet | ⟨_, _, _, _, now, row, rfl, -, -⟩ |
    ⟨request, client, validated, session, now, hash, rfl, hg⟩⟩
  · have hs := Call.exec_of_isQuiet hquiet hx
    exact hinv.cons hx (fun t _ _ => by rw [hs]) fun code hcode => .inl (by rwa [hs] at hcode)
  · have hleaves (t : Tab) (ht : t ≠ .consentAuthorizations) :
        (Call.db (.markConsentAuthorizationConsumed row.id now)).Leaves t :=
      Call.leaves_of_target (.bind (.perform fun heq => ht (Option.some.inj heq).symm) fun _ => .ret _)
    refine hinv.cons hx (fun t ht _ => (hleaves t ht).exec hx) fun code hcode => .inl ?_
    rwa [(hleaves .authorizationCodes nofun).exec hx] at hcode
  · obtain ⟨-, -, ⟨-, hs⟩ | hs⟩ := Call.exec_db hx
    · exact hinv.cons hx (fun t _ _ => by rw [hs]) fun code hcode => .inl (by rwa [hs] at hcode)
    · rcases insertOne_atomic hs with ⟨-, ht⟩ | ⟨-, hs⟩
      · refine hinv.cons hx (fun t _ hne => by rw [ht, appended_of_ne hne]) fun code hcode => ?_
        rw [ht, appended_self, List.mem_append, List.mem_singleton] at hcode
        exact hcode.imp_right fun heq => ⟨request, client, validated, session, now, hash, heq, hg⟩
      · exact hinv.cons hx (fun t _ _ => by rw [hs]) fun code hcode => .inl (by rwa [hs] at hcode)

section grounds

variable {request : AuthorizationRequest} {client : OidcClient}
  {validated : ValidatedAuthorizationRequest} {session : AuthSession} {now : OffsetDateTime}

/-- The parsed request holds the parameters. -/
theorem AuthorizeChecked.request_eq
    (hc : AuthorizeChecked P state headers pairs h request client validated session now) :
    request = .ofParameters (parameter pairs) ∧
      ∀ value, parameter pairs "max_age" = some value → (parseI64 value).isSome := by
  have hparsed : (authorizationRequestFromQueryPairs pairs).2 = none := by rw [hc.parsed]
  have hp := authorizationRequestFromQueryPairs_eq hparsed
  rwa [hc.parsed] at hp

theorem AuthorizeChecked.maxAge_le
    (hc : AuthorizeChecked P state headers pairs h request client validated session now)
    {value : String} (hvalue : parameter pairs "max_age" = some value) :
    ∃ maxAge, parseI64 value = some maxAge ∧
      OffsetDateTime.unixTimestamp now - OffsetDateTime.unixTimestamp session.createdAt ≤
        maxAge := by
  obtain ⟨rfl, hparsed⟩ := hc.request_eq
  obtain ⟨maxAge, hmaxAge⟩ := Option.isSome_iff_exists.mp (hparsed value hvalue)
  have hkept := hc.maxAge_kept
  rw [hc.valid.kept] at hkept
  simp only [sessionExceedsMaxAge, AuthorizationRequest.ofParameters, hvalue, Option.bind_some,
    hmaxAge, Option.any_some, decide_eq_false_iff_not, not_lt] at hkept
  exact ⟨maxAge, hmaxAge, hkept⟩

theorem AuthorizeChecked.acr_mem
    (hc : AuthorizeChecked P state headers pairs h request client validated session now)
    {value : String} (hvalue : parameter pairs "acr_values" = some value)
    (hne : splitWhitespace value ≠ []) : session.acr ∈ splitWhitespace value := by
  obtain ⟨rfl, -⟩ := hc.request_eq
  have hacr := hc.acr_satisfied
  rw [hc.valid.kept] at hacr
  simp only [sessionSatisfiesRequestedAcr, AuthorizationRequest.ofParameters, hvalue,
    parseSpaceDelimitedUnique, Option.getD_some, Bool.or_eq_true, List.isEmpty_iff,
    List.contains_iff_mem, mem_collectUnique, List.not_mem_nil, false_or] at hacr
  refine hacr.resolve_left fun hnil => ?_
  obtain ⟨word, hword⟩ := List.exists_mem_of_ne_nil _ hne
  have hmem : word ∈ collectUnique [] (splitWhitespace value) := by simp [hword]
  simp [hnil] at hmem

/-- A code with all its grounds is backed by the store that the request found. -/
theorem CodeGrounds.backed (hinv : AuthorizeInv P state headers pairs w₀ w h)
    (hg : CodeGrounds P state headers pairs h request client validated session now)
    (codeHash : String) :
    Backed P headers pairs w₀ w (newAuthorizationCode client validated session codeHash now) client
      session := by
  have hc := hg.checked
  have hv := hc.valid
  have hrequest := hc.request_eq.1
  obtain ⟨raw, id, hraw, hid, hsession⟩ := hc.session_checked.session_read
  obtain ⟨t, ht, hexpires⟩ := hc.session_checked.unexpired
  obtain ⟨user, huser, huserOrg, huserActive⟩ := hc.session_checked.user_active
  -- each answer came from a store with the tables of the first one
  obtain ⟨sc, hsc, tc⟩ := hinv.queries _ _ rfl hc.client_read
  obtain ⟨ss, hss, ts⟩ := hinv.queries _ _ rfl hsession
  obtain ⟨su, hsu, tu⟩ := hinv.queries _ _ rfl huser
  obtain ⟨sg, hsg, tg⟩ := hinv.queries _ _ rfl hg.consent_read
  have hclient := getOidcClientByPublicId_eq_ok hsc
  obtain ⟨⟨row, hrow, rfl⟩, hsessionId⟩ := getAuthSession_eq_ok hss
  obtain ⟨⟨userRow, huserRow, rfl⟩, huserId⟩ := getUser_eq_ok hsu
  obtain ⟨grant, hgrant, hconsent⟩ := hasActiveConsentGrant_eq_ok hsg
  rw [tc .oidcClients nofun nofun] at hclient
  rw [ts .authSessions nofun nofun] at hrow
  rw [tu .users nofun nofun] at huserRow
  rw [tg .consentGrants nofun nofun] at hgrant
  have hredirectUri : validated.redirectUri = request.redirectUri := by rw [hv.kept]
  obtain ⟨parsed, additional, hparsed, -, hscopes⟩ := hv.scopes_eq
  have hchallenge := hv.codeChallenge_valid
  simp only [validatePkceUnreserved, Bool.and_eq_true, decide_eq_true_eq, List.all_eq_true]
    at hchallenge
  subst hrequest
  exact
    { unrepeated := fun name hname => count_of_duplicate_eq_none hc.unrepeated hname
      client_registered := ⟨hclient.1, rfl, hclient.2⟩
      client_active := hc.client_active
      client_organization := hc.client_organization
      redirectUri := ⟨hredirectUri, by
        show ∃ uri ∈ client.redirectUris, uri.value = validated.redirectUri
        rw [hredirectUri]
        simpa [OidcClient.allowsRedirectUri] using hv.redirectUri⟩
      responseType := by
        have htype := hv.responseType
        simp only [AuthorizationRequest.ofParameters] at htype
        cases hp : parameter pairs "response_type" <;> simp_all
      responseMode := fun _ hmode => trim_of_parseResponseMode hv.responseMode hmode
      request_blank := fun _ hvalue => trim_of_not_present hv.request_blank hvalue
      requestUri_blank := fun _ hvalue => trim_of_not_present hv.requestUri_blank hvalue
      scopes_nodup := by
        show validated.scopes.Nodup
        rw [hscopes]
        exact nodup_collectUnique (nodup_of_parseScopes hparsed)
      openid := hv.openid
      scopes_allowed := hv.scopes_allowed
      offline_access := fun hoffline => by
        simpa [OidcClient.allowsGrant] using hv.offline_access hoffline
      codeChallenge := ⟨hv.codeChallenge, hchallenge.1.1, hchallenge.1.2, hchallenge.2⟩
      codeChallengeMethod := ⟨hv.codeChallengeMethod, by
        show validated.codeChallengeMethod = .s256
        rw [hv.kept]⟩
      prompt := fun _ hprompt => not_mem_of_parsePrompt hv.prompt hc.login_not_required
        hg.consent_not_prompted hprompt
      session_stored := ⟨⟨row, hrow, rfl⟩, rfl, rfl, rfl⟩
      session_cookie := by rw [hraw, Option.bind_some, hid, hsessionId]
      session_unrevoked := hc.session_checked.unrevoked
      session_unexpired := ⟨t, (hinv.times t ht).1, (hinv.times t ht).2, hexpires⟩
      user_active := ⟨userRow, huserRow, huserId, huserOrg, huserActive⟩
      issued_now := hinv.times now hc.now_read
      maxAge := fun value hvalue => hc.maxAge_le hvalue
      acr := fun value hvalue hne => hc.acr_mem hvalue hne
      consent := ⟨grant, hgrant, hconsent⟩ }

end grounds

/-- **No code without its grounds.** A code that is in the store after a request to
    the authorization endpoint, and was not before, is backed by the parameters of
    the request, its session cookie and the store. -/
theorem inserted_code_is_backed {o : Except ApiError RedirectResponse}
    (hrun : (authorizeWithPairs P state headers pairs).Runs (Call.exec P) w o w')
    {code : AuthorizationCode} (hcode : code ∈ w'.store.tables .authorizationCodes)
    (hnew : code ∉ w.store.tables .authorizationCodes) :
    ∃ client session, Backed P headers pairs w w' code client session := by
  have hstart : AuthorizeInv P state headers pairs w w [] :=
    ⟨fun _ _ _ => rfl, le_refl _, by simp, by simp, fun code hcode => .inl hcode⟩
  obtain ⟨h, hinv, -⟩ := sat_authorizeWithPairs.runs (AuthorizeInv P state headers pairs w)
    (fun _ _ _ _ _ _ hinv hpre hx => hinv.step hpre hx) hstart hrun
  obtain ⟨request, client, validated, session, now, hash, rfl, hg⟩ :=
    (hinv.codes code hcode).resolve_left hnew
  exact ⟨client, session, hg.backed hinv hash⟩

namespace Sample

/-- The session cookie is an identifier. -/
def browserPrimitives : Primitives :=
  { primitives with
    parseUuid := fun text => if text = "00000000-0000-0000-0000-000000000004" then some 4 else none }

def consentGrant : ConsentGrant := ⟨7, 1, 2, 3, ["openid", "offline_access"], 0, none⟩

def browserTables : Db
  | .organizations => [organization]
  | .users => [⟨user, some "secret"⟩]
  | .oidcClients => [client]
  | .authSessions => [⟨session, ⟨none, none⟩⟩]
  | .consentGrants => [consentGrant]
  | _ => []

/-- A user who is logged in and has consented. -/
def browser : World where
  store := ⟨browserTables, fun t => by cases t <;> decide⟩
  clock := 0
  uuids := []

def cookies : RequestHeaders :=
  ⟨some "cairn_session=00000000-0000-0000-0000-000000000004", none, none, none⟩

def authorizePairs : List (String × String) :=
  [("response_type", "code"), ("client_id", "app"), ("redirect_uri", "https://app/callback"),
    ("scope", "openid"), ("max_age", "60"), ("code_challenge", verifier),
    ("code_challenge_method", "S256")]

/-- The code that the request gets. -/
def issuedCode : AuthorizationCode :=
  ⟨"c1", 1, 2, 4, 3, "https://app/callback", ["openid"], none, verifier, .s256, 0,
    Duration.minutes 5, none⟩

end Sample

open Sample in
theorem inserted_code_is_backed_authorizePairs :
    ∃ o w', (authorizeWithPairs browserPrimitives appState cookies authorizePairs).Runs
        (Call.exec browserPrimitives) browser o w' ∧
      issuedCode ∈ w'.store.tables .authorizationCodes ∧
      ∃ client session, Backed browserPrimitives cookies authorizePairs browser w' issuedCode client
        session := by
  have hplay : (play (Call.exec browserPrimitives)
      ([{}, {}, {}, {}, {}, {}, { text := "c1" }, { uuid := 9 }, {}] : List Choice)
      (authorizeWithPairs browserPrimitives appState cookies authorizePairs) browser).map
        (fun x => x.2.store.tables .authorizationCodes) = some [issuedCode] := by decide
  obtain ⟨⟨o, w'⟩, hw, hcodes⟩ := Option.map_eq_some_iff.mp hplay
  have hcode : issuedCode ∈ w'.store.tables .authorizationCodes := by
    rw [show w'.store.tables .authorizationCodes = [issuedCode] from hcodes]
    exact List.mem_singleton_self _
  exact ⟨o, w', ⟨_, hw⟩, hcode, inserted_code_is_backed ⟨_, hw⟩ hcode List.not_mem_nil⟩

end CairnId
