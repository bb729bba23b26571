import Mathlib.Data.List.Perm.Subperm
import CairnId.Database.Consent
import CairnId.Grounds
import CairnId.Http.ConsentSpec

/-!
# The scopes of a stored consent

A consent is stored with exactly the scopes of the request in its `return_to`, and it is
found by a later request of the same client for them. The handler does not compare the
client of `return_to` with the client that the consent is stored for.

## Main definitions

- `returnToRequest` — the request in a `return_to`
- `Covers` — scopes that are those of a request
- `Unrevoked` — a consent grant is stored and not revoked

## Main results

- `stored_consent_covers_request`
- `consent_stored_for_another_client`
-/

namespace CairnId

open Concurrency Concurrency.Sql Prog App Database

-- the request in `return_to`

variable (P : Primitives)

/-- The request that a `return_to` repeats. -/
def returnToRequest (returnTo : String) : Option AuthorizationRequest :=
  (P.parseUrl returnTo).bind fun url => (authorizationQueryPairs url.query).toOption.map fun pairs =>
    (authorizationRequestFromQueryPairs pairs).1

/-- The scopes are those of the request, each once, and the client may have them. -/
structure Covers (request : AuthorizationRequest) (client : OidcClient)
    (validated : ValidatedAuthorizationRequest) (scopes : List String) : Prop where
  valid : request.validate P client = .ok validated
  perm : scopes.Perm validated.scopes
  nodup : scopes.Nodup
  allowed : scopes ⊆ client.allowedScopes

variable {P}

theorem perm_of_sameScopeSet {left right : List String} (hnodup : left.Nodup)
    (h : sameScopeSet left right = true) : right.Perm left := by
  rw [sameScopeSet, Bool.and_eq_true, decide_eq_true_eq, List.all_eq_true] at h
  obtain ⟨hlength, hall⟩ := h
  have hsubset : left ⊆ right := fun scope hscope => by simpa using hall scope hscope
  have hsubperm : left.Subperm right := List.subperm_of_subset hnodup hsubset
  exact (hsubperm.perm_of_length_le hlength.ge).symm

theorem Validated.nodup {request : AuthorizationRequest} {client : OidcClient}
    {validated : ValidatedAuthorizationRequest} (h : Validated P request client validated) :
    validated.scopes.Nodup := by
  obtain ⟨parsed, additional, hparsed, -, hscopes⟩ := h.scopes_eq
  rw [hscopes]
  exact nodup_collectUnique (nodup_of_parseScopes hparsed)

/-- The scopes depend on `scope` and `claims` only. -/
theorem Validated.scopes_congr {request request' : AuthorizationRequest}
    {client client' : OidcClient} {validated validated' : ValidatedAuthorizationRequest}
    (h : Validated P request client validated) (h' : Validated P request' client' validated')
    (hscope : request'.scope = request.scope) (hclaims : request'.claims = request.claims) :
    validated'.scopes = validated.scopes := by
  obtain ⟨parsed, additional, hparsed, hadditional, hscopes⟩ := h.scopes_eq
  obtain ⟨parsed', additional', hparsed', hadditional', hscopes'⟩ := h'.scopes_eq
  rw [hscope, hparsed] at hparsed'
  rw [hclaims, hadditional] at hadditional'
  obtain rfl := Option.some.inj hparsed'
  obtain rfl := Except.ok.inj hadditional'
  rw [hscopes, hscopes']

/-- What is known of a `return_to` that was accepted. -/
theorem validateConsentReturnTo_eq_ok {issuer returnTo hash : String} {client : OidcClient}
    {scopes : List String}
    (h : validateConsentReturnTo P issuer returnTo client scopes = .ok hash) :
    ∃ request validated, returnToRequest P returnTo = some request ∧
      Covers P request client validated scopes ∧ hash = authorizationRequestHash P issuer request := by
  unfold validateConsentReturnTo at h
  cases hurl : P.parseUrl returnTo with
  | none =>
    rw [hurl] at h
    cases h
  | some url =>
    rw [hurl] at h
    dsimp only at h
    cases hissuer : P.parseUrl issuer with
    | none =>
      rw [hissuer] at h
      cases h
    | some issuerUrl =>
      rw [hissuer] at h
      dsimp only at h
      split at h
      · cases h
      obtain ⟨pairs, hpairs, h⟩ := except_bind_eq_ok.mp h
      split at h
      · cases h
      split at h
      · cases h
      split at h
      · rename_i validated hvalid
        split at h
        · cases h
        split at h
        · cases h
        rename_i hscopes
        obtain rfl := Except.ok.inj h
        have hv := AuthorizationRequest.validate_eq_ok.mp hvalid
        have hperm := perm_of_sameScopeSet hv.nodup (by simpa using hscopes)
        have hrequest : returnToRequest P returnTo =
            some (authorizationRequestFromQueryPairs pairs).1 := by
          rw [returnToRequest, hurl, Option.bind_some, hpairs]
          rfl
        exact ⟨_, validated, hrequest,
          { valid := hvalid
            perm := hperm
            nodup := hperm.nodup_iff.mpr hv.nodup
            allowed := fun scope hscope => hv.scopes_allowed (hperm.subset hscope) }, rfl⟩
      · cases h

-- what is asked for

variable (P) (state : AppState) (headers : RequestHeaders) (pairs : List (String × String))

/-- The endpoint looks for a grant of the scopes that it has validated, for the user of
    the session. -/
def grantReadPre (h : List Ev) (e : Call) : Prop :=
  ∀ organizationId userId clientId scopes,
    e = .db (.hasActiveConsentGrant organizationId userId clientId scopes) →
    ∃ request client validated session now,
      AuthorizeChecked P state headers pairs h request client validated session now ∧
        organizationId = session.organizationId ∧ userId = session.userId ∧
        clientId = client.id ∧ scopes = validated.scopes

/-- The call does not look for a grant. -/
def NotGrantRead (e : Call) : Prop :=
  ∀ organizationId userId clientId scopes,
    e ≠ .db (.hasActiveConsentGrant organizationId userId clientId scopes)

variable {P state headers pairs} {h : List Ev}

theorem NotGrantRead.pre {e : Call} (he : NotGrantRead e) :
    grantReadPre P state headers pairs h e :=
  fun _ _ _ _ heq => absurd heq (he _ _ _ _)

theorem sat_of_notGrantRead {α : Type} {p : App α} (hp : p.All NotGrantRead) :
    p.Sat (grantReadPre P state headers pairs) (fun _ _ => True) h :=
  (Sat.of_all hp).mono (fun _ _ he => he.pre) fun _ _ => id

theorem all_consumeFirstConsentAuthorization (request : ConsentAuthorizationConsumption)
    (rows : List ConsentAuthorization) :
    (consumeFirstConsentAuthorization request rows).All NotGrantRead := by
  induction rows with
  | nil => trivial
  | cons row rows ih =>
    rw [consumeFirstConsentAuthorization]
    split
    · exact ih
    · refine .bind (all_app_db (by simp [NotGrantRead])) fun marked => ?_
      split
      · trivial
      · exact ih

theorem all_clientConsentPolicyRequiresPrompt (organizationId : OrganizationId)
    (client : OidcClient) :
    (clientConsentPolicyRequiresPrompt organizationId client).All NotGrantRead := by
  unfold clientConsentPolicyRequiresPrompt
  split
  · refine .bind (all_app_db (by simp [NotGrantRead])) fun found => ?_
    split <;> trivial
  · trivial

theorem all_issueAuthorizationCode (client : OidcClient)
    (validated : ValidatedAuthorizationRequest) (session : AuthSession) (now : OffsetDateTime) :
    (issueAuthorizationCode P state client validated session now).All NotGrantRead := by
  refine .bind (.bind (.perform (by simp [NotGrantRead])) fun _ =>
    .bind (.perform (by simp [NotGrantRead])) fun _ => .ret _) fun grant => ?_
  exact .bind (all_app_db (by simp [NotGrantRead])) fun _ => .ret _

/-- The part that asks for consent looks for a grant first. -/
theorem sat_authorizeWithConsent_grantRead {request : AuthorizationRequest} {client : OidcClient}
    {validated : ValidatedAuthorizationRequest} {session : AuthSession} {now : OffsetDateTime}
    (hc : AuthorizeChecked P state headers pairs h request client validated session now) :
    (authorizeWithConsent P state request client validated session now).Sat
      (grantReadPre P state headers pairs) (fun _ _ => True) h := by
  unfold authorizeWithConsent
  refine sat_db_bind ?_ (fun hasConsent => sat_of_notGrantRead ?_) fun _ => trivial
  · rintro _ _ _ _ ⟨⟩
    exact ⟨request, client, validated, session, now, hc, rfl, rfl, rfl, rfl⟩
  · refine .bind (all_clientConsentPolicyRequiresPrompt _ _) fun required => .bind ?_ fun satisfied => ?_
    · split
      · exact .bind (all_app_db (by simp [NotGrantRead])) fun rows =>
          all_consumeFirstConsentAuthorization _ rows
      · trivial
    · split
      · split <;> trivial
      · exact all_issueAuthorizationCode ..

theorem sat_sessionFromCookie (hq : Quiet h) :
    (sessionFromCookie P state headers).Sat (fun _ _ => True)
      (fun h o => ∀ session, o = .ok (some session) → SessionChecked P state headers h session)
      h := by
  have hs : AllowsQuiet (fun _ _ => True) (fun h (o : Except ApiError (Option AuthSession)) =>
      ∀ session, o = .ok (some session) → SessionChecked P state headers h session) :=
    ⟨fun _ _ _ _ => trivial, fun _ _ _ => nofun⟩
  have hsat : QuietSat (fun _ _ => True) (fun h (o : Except ApiError (Option AuthSession)) =>
      ∀ session, o = .ok (some session) → SessionChecked P state headers h session) h
      (sessionFromCookie P state headers >>= .ret) := by
    refine quietSat_sessionFromCookie hs fun l found hfound _ => ?_
    intro session hsession
    obtain rfl := Except.ok.inj hsession
    exact hfound session rfl
  rw [← bind_ret (sessionFromCookie P state headers)]
  exact hsat hq

/-- What the authorization endpoint has checked when it looks for a grant. -/
theorem sat_authorizeWithPairs_grantRead :
    (authorizeWithPairs P state headers pairs).Sat (grantReadPre P state headers pairs)
      (fun _ _ => True) [] := by
  unfold authorizeWithPairs
  refine sat_when_bind (fun _ => trivial) fun _ => ?_
  refine sat_db_bind (NotGrantRead.pre (by simp [NotGrantRead])) (fun found => ?_) fun _ => trivial
  split
  case _ client =>
    refine sat_when_bind (fun _ => trivial) fun _ => ?_
    split
    · trivial
    split
    · trivial
    rename_i hactive hduplicate
    split
    · trivial
    rename_i hparse
    split
    · trivial
    · trivial
    rename_i validated hvalid
    have hsession := all_sessionFromCookie_of (Q := NotGrantRead) P state headers
      (fun _ => by simp [NotGrantRead]) (by simp [NotGrantRead]) fun _ => by simp [NotGrantRead]
    refine Sat.known_bind hsession (sat_sessionFromCookie (by simp [Call.isQuiet, DbCall.isQuery]))
      (fun _ _ _ he => he.pre) (fun l found _ hknown => ?_) fun _ _ _ _ => trivial
    cases found with
    | none => trivial
    | some session =>
      refine sat_when_bind (fun _ => trivial) fun horg => ?_
      refine sat_perform_bind.mpr ⟨NotGrantRead.pre (by simp [NotGrantRead]), fun now => ?_⟩
      split
      · trivial
      split
      · trivial
      split
      · trivial
      rename_i hlogin hmaxAge hacr
      exact sat_authorizeWithConsent_grantRead
        { parsed := Prod.ext rfl hparse
          unrepeated := by simpa using hduplicate
          client_read := by simp
          client_active := by simpa [oidcClientIsActive] using hactive
          valid := AuthorizationRequest.validate_eq_ok.mp hvalid
          session_checked := (hknown session rfl).mono (List.subset_cons_self ..)
          client_organization := not_not.mp horg
          now_read := .head _
          login_not_required := by simpa using hlogin
          maxAge_kept := by simpa using hmaxAge
          acr_satisfied := by simpa using hacr }
  case _ => trivial

-- what is stored

theorem consentPre_createConsentGrant {payload : CreateConsentRequest} {grant : ConsentGrant}
    (hpre : consentPre P state headers payload h (.db (.createConsentGrant grant))) :
    ∃ session client requestHash id now,
      ConsentChecked P state headers payload h session client requestHash now ∧
        grant = newConsentGrant session client payload.scopes id now := by
  obtain hq | ⟨session, client, requestHash, now, hc, ⟨id, heq⟩ | ⟨_, heq⟩⟩ | ⟨_, heq⟩ := hpre
  · cases hq
  · cases heq
    exact ⟨session, client, requestHash, id, now, hc, rfl⟩
  · cases heq
  · cases heq

theorem consentPre_createConsentAuthorization {payload : CreateConsentRequest}
    {row : ConsentAuthorization}
    (hpre : consentPre P state headers payload h (.db (.createConsentAuthorization row))) :
    row.scopes = payload.scopes := by
  obtain hq | ⟨_, _, _, _, -, ⟨_, heq⟩ | ⟨_, heq⟩⟩ | ⟨_, heq⟩ := hpre
  · cases hq
  · cases heq
  · cases heq
    rfl
  · cases heq

/-- The grant is stored and not revoked. -/
def Unrevoked (grant : ConsentGrant) (s : Store) : Prop :=
  ∃ row ∈ s.tables .consentGrants, row.id = grant.id ∧ row.revokedAt = none

/-- The requests ask the same client for the same scopes. -/
structure AsksTheSame (request request' : AuthorizationRequest) : Prop where
  clientId : request.clientId = request'.clientId
  scope : request.scope = request'.scope
  claims : request.claims = request'.claims

theorem hasActiveConsentGrant_of_mem {s : Store} {grant : ConsentGrant}
    (hgrant : grant ∈ s.tables .consentGrants) (hrevoked : grant.revokedAt = none)
    {scopes : List String} (hscopes : scopes ⊆ grant.scopes) :
    ((DbCall.hasActiveConsentGrant grant.organizationId grant.userId grant.clientId scopes).exec
      s).1 = .ok true := by
  have hany : (s.tables .consentGrants).any (fun g => g.organizationId = grant.organizationId ∧
      g.userId = grant.userId ∧ g.clientId = grant.clientId ∧ g.revokedAt = none ∧
      scopes.all (g.scopes.contains ·)) = true := by
    refine List.any_eq_true.mpr ⟨grant, hgrant, decide_eq_true ⟨rfl, rfl, rfl, hrevoked, ?_⟩⟩
    exact List.all_eq_true.mpr fun scope hscope => List.contains_iff_mem.mpr (hscopes hscope)
  exact congrArg Except.ok hany

-- runs

/-- What is known before the calls of the two endpoints, next to which anything runs. -/
def consentTaskPre (P : Primitives) (state : AppState) {Q : Type} :
    ConsentTask ⊕ Q → List Ev → Call → Prop
  | .inl (.createConsent headers payload), h, e => consentPre P state headers payload h e
  | .inl (.authorize headers input), h, e =>
    ∃ pairs, input.pairs = .ok pairs ∧ grantReadPre P state headers pairs h e
  | .inr _, _, _ => True

section runs

variable {Q : Type} {other : Q → App Unit} {w₀ : World}
  {p : Pool Call.Answer (ConsentTask ⊕ Q) World ApiError Unit}

theorem sat_consentTasks (task : ConsentTask ⊕ Q) :
    (Sum.elim (ConsentTask.handler P state) other task).Sat (consentTaskPre P state task)
      (fun _ _ => True) [] := by
  match task with
  | .inl (.createConsent headers payload) =>
    exact sat_createConsent.bind (fun _ _ _ => trivial) fun _ _ _ => trivial
  | .inl (.authorize headers input) =>
    have hsat : (authorize P state headers input).Sat
        (consentTaskPre P state (.inl (.authorize headers input) : ConsentTask ⊕ Q))
        (fun _ _ => True) [] := by
      unfold authorize
      cases hpairs : input.pairs with
      | error e => trivial
      | ok pairs =>
        exact sat_authorizeWithPairs_grantRead.mono (fun h e hpre => ⟨pairs, hpairs, hpre⟩)
          fun _ _ => id
    exact hsat.bind (fun _ _ _ => trivial) fun _ _ _ => trivial
  | .inr q => exact Sat.trivial (other q)

variable (hp : (machine P (Sum.elim (ConsentTask.handler P state) other)).Reachable w₀ p)

include hp

theorem admissible_of_mem {x : Entry Call.Answer World} (hx : x ∈ p.trace) :
    ∃ t hist, p.threads[x.thread]? = some t ∧ hist ⊆ own x.thread p.trace ∧
      consentTaskPre P state t.request hist x.event.1 := by
  obtain ⟨tr₁, tr₂, htr⟩ := List.append_of_mem hx
  obtain ⟨t, ht, hpre⟩ := hp.admissible (fun q => sat_consentTasks q) htr
  have hsub : own x.thread tr₂ ⊆ own x.thread p.trace := by
    rw [htr, own_append, own_cons_self]
    exact fun ev hmem => List.mem_append_right _ (.tail _ hmem)
  exact ⟨t, _, ht, hsub, hpre⟩

/-- A client that a request read is still there under its identifiers. -/
theorem client_kept {i : ℕ} {clientId : String} {client : OidcClient}
    (hread : ⟨.db (.getOidcClientByPublicId clientId), .ok (some client)⟩ ∈ own i p.trace) :
    ∃ row ∈ p.world.store.tables .oidcClients, row.id = client.id ∧ row.clientId = clientId := by
  obtain ⟨s, hs, hkept⟩ := query_before hp rfl hread
  obtain ⟨hmem, hid⟩ := getOidcClientByPublicId_eq_ok hs
  obtain ⟨row, hrow, hstep⟩ := hkept .oidcClients (by simp [evolution]) client hmem
  exact ⟨row, hrow, hstep.1, hstep.2.2.trans hid⟩

/-- Clients that were read have one identifier if and only if they were read under one name. -/
theorem client_id_eq_iff {i j : ℕ} {name name' : String} {client client' : OidcClient}
    (hread : ⟨.db (.getOidcClientByPublicId name), .ok (some client)⟩ ∈ own i p.trace)
    (hread' : ⟨.db (.getOidcClientByPublicId name'), .ok (some client')⟩ ∈ own j p.trace) :
    client'.id = client.id ↔ name' = name := by
  obtain ⟨row, hrow, hid, hname⟩ := client_kept hp hread
  obtain ⟨row', hrow', hid', hname'⟩ := client_kept hp hread'
  have hunique := p.world.store.unique .oidcClients
  constructor
  · intro heq
    have hrows : row' = row :=
      hunique.eq_of_key hrow' hrow (congrArg Key.id (hid'.trans (heq.trans hid.symm)))
    rw [← hname', hrows, hname]
  · intro heq
    have hentry : ∀ r : OidcClient, Key.text r.clientId ∈ schema.entries .oidcClients r := fun r => by
      simp [schema, Schema.entries]
    have hkey : Key.text row'.clientId ∈ schema.entries .oidcClients row := by
      rw [hname', heq, ← hname]
      exact hentry row
    have hrows : row' = row := hunique.eq_of_entry hrow' hrow (hentry row') hkey
    rw [← hid', hrows, hid]

theorem kept_before {x : Entry Call.Answer World} (hx : x ∈ p.trace) :
    Kept x.before.store.tables p.world.store.tables := by
  obtain ⟨ch, w', hexec, hkept⟩ := executed hp hx
  exact (Call.exec_kept hexec).trans hkept

/-- A stored grant that is not revoked is as it was stored. -/
theorem grant_of_unrevoked {i : ℕ} {grant : ConsentGrant}
    (hstored : ⟨.db (.createConsentGrant grant), .ok ()⟩ ∈ own i p.trace)
    {x : Entry Call.Answer World} (hx : x ∈ p.trace) (hunrevoked : Unrevoked grant x.before.store) :
    { grant with revokedAt := none } ∈ x.before.store.tables .consentGrants := by
  obtain ⟨row, hrow, hid, hrevoked⟩ := hunrevoked
  obtain ⟨y, hy, -, hev⟩ := mem_own.mp hstored
  obtain ⟨ch, w₁, hexec, hkept⟩ := executed hp hy
  rw [hev] at hexec
  obtain ⟨-, -, ⟨herror, -⟩ | hinsert⟩ := Call.exec_db hexec
  · cases herror
  have htable : w₁.store.tables = appended y.before.store.tables .consentGrants [grant] := by
    obtain ⟨-, htables⟩ | ⟨herror, -⟩ := insertOne_atomic (t := .consentGrants) (r := grant) hinsert
    · exact htables
    · exact absurd rfl herror
  have hmem : grant ∈ w₁.store.tables .consentGrants := by
    rw [htable]
    simp [appended]
  -- both are the same row at the end of the run
  obtain ⟨last, hlast, hstep⟩ := hkept .consentGrants (by simp [evolution]) grant hmem
  obtain ⟨last', hlast', hstep'⟩ := kept_before hp hx .consentGrants (by simp [evolution]) row hrow
  have hlastId := congrArg ConsentGrant.id hstep.1
  have hlastId' := congrArg ConsentGrant.id hstep'.1
  have hids : last'.id = last.id := hlastId'.trans (hid.trans hlastId.symm)
  obtain rfl : last' = last :=
    (p.world.store.unique .consentGrants).eq_of_key hlast' hlast (congrArg Key.id hids)
  have hsame : { grant with revokedAt := none } = row := by
    rw [← hstep.1, ← hstep'.1, hrevoked]
  rwa [hsame]

/-- **A stored consent covers the scopes of the request** in its `return_to`. A later
    request of the same kind looks for a grant of the same client if and only if
    `return_to` names the client that the consent was given for, and then it finds the
    grant while it is not revoked. -/
theorem stored_consent_covers_request {i : ℕ}
    {t : Thread Call.Answer (ConsentTask ⊕ Q) ApiError Unit} {headers : RequestHeaders}
    {payload : CreateConsentRequest} {grant : ConsentGrant} (ht : p.threads[i]? = some t)
    (htask : t.request = .inl (.createConsent headers payload))
    (hstored : ⟨.db (.createConsentGrant grant), .ok ()⟩ ∈ own i p.trace) :
    ∃ request client validated, returnToRequest P payload.returnTo = some request ∧
      client.id = grant.clientId ∧ client.clientId = payload.clientId ∧
      Covers P request client validated grant.scopes ∧
      (∀ row r, ⟨.db (.createConsentAuthorization row), r⟩ ∈ own i p.trace →
        row.scopes = grant.scopes) ∧
      ∀ x ∈ p.trace, ∀ t' headers' input pairs organizationId clientId scopes found,
        p.threads[x.thread]? = some t' → t'.request = .inl (.authorize headers' input) →
        input.pairs = .ok pairs →
        AsksTheSame (authorizationRequestFromQueryPairs pairs).1 request →
        x.event = ⟨.db (.hasActiveConsentGrant organizationId grant.userId clientId scopes),
          .ok found⟩ →
        (clientId = grant.clientId ↔ request.clientId = payload.clientId) ∧
          (request.clientId = payload.clientId → Unrevoked grant x.before.store →
            found = true) := by
  obtain ⟨y, hy, rfl, hev⟩ := mem_own.mp hstored
  obtain ⟨t₁, hist, ht₁, hhist, hpre⟩ := admissible_of_mem hp hy
  obtain rfl : t₁ = t := Option.some.inj (ht₁.symm.trans ht)
  rw [htask, hev] at hpre
  obtain ⟨session, client, requestHash, id, now, hc, rfl⟩ := consentPre_createConsentGrant hpre
  obtain ⟨request, validated, hrequest, hcovers, -⟩ := validateConsentReturnTo_eq_ok hc.returnTo
  have hread := hhist hc.client_read
  have hname : client.clientId = payload.clientId := by
    obtain ⟨s, hs, -⟩ := query_before hp rfl hread
    exact (getOidcClientByPublicId_eq_ok hs).2
  refine ⟨request, client, validated, hrequest, rfl, hname, hcovers, fun row r hrow => ?_, ?_⟩
  · obtain ⟨z, hz, hthread, hevz⟩ := mem_own.mp hrow
    obtain ⟨t₂, hist₂, ht₂, -, hpre₂⟩ := admissible_of_mem hp hz
    rw [hthread] at ht₂
    obtain rfl : t₂ = t₁ := Option.some.inj (ht₂.symm.trans ht)
    rw [htask, hevz] at hpre₂
    exact consentPre_createConsentAuthorization hpre₂
  · intro x hx t' headers' input pairs organizationId clientId scopes found ht' htask' hpairs hsame
      hevx
    obtain ⟨t₂, hist₂, ht₂, hhist₂, hpre₂⟩ := admissible_of_mem hp hx
    obtain rfl : t₂ = t' := Option.some.inj (ht₂.symm.trans ht')
    rw [htask', hevx] at hpre₂
    obtain ⟨pairs', hpairs', hpre₂⟩ := hpre₂
    obtain rfl := Except.ok.inj (hpairs.symm.trans hpairs')
    obtain ⟨request', client', validated', session', now', hc', rfl, huser, rfl, rfl⟩ :=
      hpre₂ _ _ _ _ rfl
    have hparsed : (authorizationRequestFromQueryPairs pairs).1 = request' := by rw [hc'.parsed]
    rw [hparsed] at hsame
    have hclient : client'.id = client.id ↔ request'.clientId = payload.clientId :=
      client_id_eq_iff hp hread (hhist₂ hc'.client_read)
    rw [hsame.clientId] at hclient
    refine ⟨hclient, fun hcondition hunrevoked => ?_⟩
    have hmem := grant_of_unrevoked hp hstored hx hunrevoked
    have hscopes : validated'.scopes ⊆ payload.scopes := by
      rw [(AuthorizationRequest.validate_eq_ok.mp hcovers.valid).scopes_congr hc'.valid hsame.scope
        hsame.claims]
      exact hcovers.perm.symm.subset
    have horganization : session'.organizationId = session.organizationId := by
      rw [hc'.session_checked.organization, hc.session_checked.organization]
    have hfound := hasActiveConsentGrant_of_mem hmem rfl hscopes
    obtain ⟨ch, w', hexec, -⟩ := executed hp hx
    rw [hevx] at hexec
    obtain ⟨-, -, ⟨herror, -⟩ | hquery⟩ := Call.exec_db hexec
    · cases herror
    · rw [horganization, hclient.mpr hcondition] at hquery
      exact Except.ok.inj ((congrArg Prod.fst hquery).symm.trans hfound)

end runs

/-- A grant that a call stored. -/
def storedGrant : Entry Call.Answer World → Option ConsentGrant
  | ⟨_, ⟨.db (.createConsentGrant grant), .ok _⟩, _⟩ => some grant
  | _ => none

theorem mem_own_of_storedGrant {x : Entry Call.Answer World} {grant : ConsentGrant}
    {tr : List (Entry Call.Answer World)} (hx : x ∈ tr) (h : storedGrant x = some grant) :
    ⟨.db (.createConsentGrant grant), .ok ()⟩ ∈ own x.thread tr := by
  refine mem_own.mpr ⟨x, hx, rfl, ?_⟩
  unfold storedGrant at h
  split at h
  · obtain rfl := Option.some.inj h
    rfl
  · cases h

/-- A search for a grant, what it answered, and the grants that there were. -/
structure GrantAnswer where
  organizationId : OrganizationId
  userId : UserId
  clientId : ClientId
  scopes : List String
  found : Bool
  grants : List ConsentGrant
  deriving DecidableEq

def grantAnswer : Entry Call.Answer World → Option GrantAnswer
  | ⟨_, ⟨.db (.hasActiveConsentGrant o u c scopes), .ok found⟩, w⟩ =>
    some ⟨o, u, c, scopes, found, w.store.tables .consentGrants⟩
  | _ => none

theorem event_of_grantAnswer {x : Entry Call.Answer World} {a : GrantAnswer}
    (h : grantAnswer x = some a) :
    x.event = ⟨.db (.hasActiveConsentGrant a.organizationId a.userId a.clientId a.scopes),
      .ok a.found⟩ ∧ x.before.store.tables .consentGrants = a.grants := by
  unfold grantAnswer at h
  split at h
  · obtain rfl := Option.some.inj h
    exact ⟨rfl, rfl⟩
  · cases h

namespace Sample

def idUrl (path : String) (query : Option String) : Url :=
  ⟨"https", "https://id", false, some "id", "", none, path, query, none⟩

def consentQuery (clientId : String) : String :=
  "response_type=code&client_id=" ++ clientId ++
    "&redirect_uri=https://app/callback&scope=openid&code_challenge=" ++ verifier ++
    "&code_challenge_method=S256"

/-- The URLs that occur are known. -/
def consentPrimitives : Primitives :=
  { browserPrimitives with
    parseUrl := fun text =>
      if text = "https://id" then some (idUrl "/" none)
      else (["app", "mail"].find? fun clientId =>
        text = "https://id/oauth2/authorize?" ++ consentQuery clientId).map fun clientId =>
          idUrl "/oauth2/authorize" (some (consentQuery clientId)) }

def consentPairs (clientId : String) : List (String × String) :=
  [("response_type", "code"), ("client_id", clientId), ("redirect_uri", "https://app/callback"),
    ("scope", "openid"), ("code_challenge", verifier), ("code_challenge_method", "S256")]

def consentToken : String := "bbbbbbbbbbbbbbbbbbbbbbbbbbbbbbbb"

def consentHeaders : RequestHeaders :=
  ⟨some ("cairn_session=00000000-0000-0000-0000-000000000004; cairn_csrf=" ++ consentToken),
    some consentToken, none, none⟩

/-- A consent for the client `app` to a request of a client. -/
def consentPayload (clientId : String) : CreateConsentRequest :=
  ⟨"app", "https://id/oauth2/authorize?" ++ consentQuery clientId, ["openid"]⟩

def twoClientsTables : Db
  | .oidcClients => [client, { client with id := 9, clientId := "mail" }]
  | .consentGrants => []
  | t => browserTables t

/-- A user who is logged in, and two clients with one redirect URI. -/
def twoClients : World where
  store := ⟨twoClientsTables, fun t => by cases t <;> decide⟩
  clock := 0
  uuids := []

/-- A consent and then, up to the search for a grant, the request that it is for. -/
def consentThenAuthorize (clientId : String) : List (Label (ConsentTask ⊕ Empty) Choice) :=
  [.spawn (.inl (.createConsent consentHeaders (consentPayload clientId))),
    .spawn (.inl (.authorize cookies (.get (some (consentQuery clientId)))))] ++
  ((List.range 12).map fun j => .run 0 { uuid := .ofNat 128 (30 + j) }) ++
  List.replicate 6 (.run 1 {})

abbrev consentPool (clientId : String) :
    Option (Pool Call.Answer (ConsentTask ⊕ Empty) World ApiError Unit) :=
  (machine consentPrimitives (Sum.elim (ConsentTask.handler consentPrimitives appState)
    Empty.elim)).run (Machine.start twoClients) (consentThenAuthorize clientId)

/-- The grant of that consent. -/
def sharedGrant : ConsentGrant := ⟨35, 1, 2, 3, ["openid"], 0, none⟩

end Sample

/-- What the two requests of that run do. -/
theorem consentPool_shown (clientId : String) (c : ClientId) (found : Bool)
    (h : (Sample.consentPool clientId).map (fun p => p.trace.map fun x =>
      (x.thread, storedGrant x, grantAnswer x)) =
      some ((1, none, some ⟨1, 2, c, ["openid"], found, [Sample.sharedGrant]⟩) ::
        List.replicate 5 (1, none, none) ++ List.replicate 5 (0, none, none) ++
        (0, some Sample.sharedGrant, none) :: List.replicate 6 (0, none, none))) :
    ∃ p x, Sample.consentPool clientId = some p ∧
      p.threads.map Thread.request =
        [.inl (.createConsent Sample.consentHeaders (Sample.consentPayload clientId)),
          .inl (.authorize Sample.cookies (.get (some (Sample.consentQuery clientId))))] ∧
      ⟨.db (.createConsentGrant Sample.sharedGrant), .ok ()⟩ ∈ own 0 p.trace ∧
      x ∈ p.trace ∧ x.thread = 1 ∧ Unrevoked Sample.sharedGrant x.before.store ∧
      x.event = ⟨.db (.hasActiveConsentGrant 1 2 c ["openid"]), .ok found⟩ := by
  obtain ⟨p, hp, hshown⟩ := Option.map_eq_some_iff.mp h
  have hrequests := Machine.run_requests hp
  have hgrant : ((0, some Sample.sharedGrant, none) : ℕ × Option ConsentGrant × Option GrantAnswer) ∈
      p.trace.map fun x => (x.thread, storedGrant x, grantAnswer x) := by
    rw [hshown]
    simp
  have hanswer : ((1, none, some ⟨1, 2, c, ["openid"], found, [Sample.sharedGrant]⟩) :
      ℕ × Option ConsentGrant × Option GrantAnswer) ∈
      p.trace.map fun x => (x.thread, storedGrant x, grantAnswer x) := by
    rw [hshown]
    simp
  obtain ⟨y, hy, hyshown⟩ := List.mem_map.mp hgrant
  obtain ⟨x, hx, hxshown⟩ := List.mem_map.mp hanswer
  simp only [Prod.mk.injEq] at hyshown hxshown
  obtain ⟨hythread, hystored, -⟩ := hyshown
  obtain ⟨hxthread, -, hxanswer⟩ := hxshown
  obtain ⟨hevent, hgrants⟩ := event_of_grantAnswer hxanswer
  have hstored := mem_own_of_storedGrant hy hystored
  rw [hythread] at hstored
  refine ⟨p, x, hp, hrequests, hstored, hx, hxthread, ⟨Sample.sharedGrant, ?_, rfl, rfl⟩, hevent⟩
  rw [hgrants]
  exact .head _

open Sample in
theorem stored_consent_covers_request_app :
    ∃ p request client validated, consentPool "app" = some p ∧
      ⟨.db (.createConsentGrant sharedGrant), .ok ()⟩ ∈ own 0 p.trace ∧
      returnToRequest consentPrimitives (consentPayload "app").returnTo = some request ∧
      client.clientId = "app" ∧ Covers consentPrimitives request client validated ["openid"] := by
  obtain ⟨p, x, hp, hrequests, hstored, -⟩ :=
    consentPool_shown "app" 3 true (by decide +kernel)
  have hget := congrArg (fun l => l[0]?) hrequests
  simp only [List.getElem?_map, List.getElem?_cons_zero, Option.map_eq_some_iff] at hget
  obtain ⟨t, ht, htask⟩ := hget
  obtain ⟨request, client, validated, hrequest, -, hname, hcovers, -⟩ :=
    stored_consent_covers_request (Machine.Reachable.start.run hp) ht htask hstored
  exact ⟨p, request, client, validated, hp, hstored, hrequest, hname, hcovers⟩

open Sample in
/-- The consent names `app`, its `return_to` the client `mail`. The consent is stored for
    `app`, and the request of `return_to` does not find it. -/
theorem consent_stored_for_another_client :
    ∃ p x pairs, consentPool "mail" = some p ∧
      p.threads.map Thread.request =
        [.inl (.createConsent consentHeaders (consentPayload "mail")),
          .inl (.authorize cookies (.get (some (consentQuery "mail"))))] ∧
      (AuthorizeInput.get (some (consentQuery "mail"))).pairs = .ok pairs ∧
      returnToRequest consentPrimitives (consentPayload "mail").returnTo =
        some (authorizationRequestFromQueryPairs pairs).1 ∧
      ⟨.db (.createConsentGrant sharedGrant), .ok ()⟩ ∈ own 0 p.trace ∧
      x ∈ p.trace ∧ x.thread = 1 ∧ Unrevoked sharedGrant x.before.store ∧
      x.event = ⟨.db (.hasActiveConsentGrant sharedGrant.organizationId sharedGrant.userId 9
        sharedGrant.scopes), .ok false⟩ := by
  obtain ⟨p, x, hp, hrequests, hstored, hx, hthread, hunrevoked, hevent⟩ :=
    consentPool_shown "mail" 9 false (by decide +kernel)
  have hpairs : (AuthorizeInput.get (some (consentQuery "mail"))).pairs = .ok (consentPairs "mail") := by
    rw [AuthorizeInput.pairs, authorizationQueryPairs, if_neg (by decide +kernel)]
    have hparse : parseUrlEncodedPairs (consentQuery "mail") = some (consentPairs "mail") := by
      decide +kernel
    rw [Option.getD_some, hparse]
  have hrequest : returnToRequest consentPrimitives (consentPayload "mail").returnTo =
      some (authorizationRequestFromQueryPairs (consentPairs "mail")).1 := by decide +kernel
  exact ⟨p, x, consentPairs "mail", hp, hrequests, hpairs, hrequest, hstored, hx, hthread,
    hunrevoked, hevent⟩

end CairnId
