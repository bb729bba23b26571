import Mathlib.Data.List.Induction
import CairnId.AuthorizationSpec
import CairnId.Http.Authorize
import CairnId.Http.RequestSpec

/-!
# What the authorization endpoint has checked

What is known when the handler spends a consent and when it inserts a code, in
terms of the calls it made before. Nothing is assumed about the answers of the
database here.
-/

namespace CairnId

open Concurrency Prog App Database

-- parameters

theorem firstDuplicate_eq_none {seen : List String} {pairs : List (String × String)}
    (h : firstDuplicate seen pairs = none) {name : String}
    (hname : name ∈ authorizationRequestParameters) :
    (pairs.map Prod.fst).count name ≤ if name ∈ seen then 0 else 1 := by
  induction pairs generalizing seen with
  | nil => simp
  | cons p pairs ih =>
    obtain ⟨n, v⟩ := p
    simp only [firstDuplicate] at h
    rw [List.map_cons]
    split at h
    · have hne : n ≠ name := fun heq => absurd hname (heq ▸ ‹_›)
      rw [List.count_cons_of_ne hne]
      exact ih h
    · split at h
      · cases h
      · rename_i hseen
        have hcount := ih h
        by_cases heq : n = name
        · subst heq
          have hn : n ∉ seen := by simpa using hseen
          rw [List.count_cons_self, if_neg hn]
          simpa using hcount
        · rw [List.count_cons_of_ne heq]
          simpa [Ne.symm heq] using hcount

/-- No known parameter occurs twice. -/
theorem count_of_duplicate_eq_none {pairs : List (String × String)}
    (h : duplicateAuthorizationRequestParameter pairs = none) {name : String}
    (hname : name ∈ authorizationRequestParameters) : (pairs.map Prod.fst).count name ≤ 1 := by
  simpa using firstDuplicate_eq_none h hname

/-- The value of a parameter, the last one if there are several. -/
def parameter (pairs : List (String × String)) (name : String) : Option String :=
  (pairs.reverse.find? fun p => p.1 = name).map (·.2)

theorem parameter_concat (pairs : List (String × String)) (p : String × String) (name : String) :
    parameter (pairs ++ [p]) name = if p.1 = name then some p.2 else parameter pairs name := by
  simp only [parameter, List.reverse_append, List.reverse_singleton, List.singleton_append,
    List.find?_cons]
  split <;> simp_all

/-- The request with the given parameters. -/
def AuthorizationRequest.ofParameters (get : String → Option String) : AuthorizationRequest where
  responseType := (get "response_type").getD ""
  clientId := (get "client_id").getD ""
  redirectUri := (get "redirect_uri").getD ""
  scope := (get "scope").getD ""
  state := get "state"
  nonce := get "nonce"
  maxAge := (get "max_age").bind parseI64
  responseMode := get "response_mode"
  prompt := get "prompt"
  display := get "display"
  acrValues := get "acr_values"
  uiLocales := get "ui_locales"
  claimsLocales := get "claims_locales"
  loginHint := get "login_hint"
  claims := get "claims"
  request := get "request"
  requestUri := get "request_uri"
  codeChallenge := get "code_challenge"
  codeChallengeMethod := get "code_challenge_method"

/-- A parameter that leaves no error overrides the ones before it. -/
theorem AuthorizationRequest.assign_ofParameters {get : String → Option String}
    {p : String × String} {parseError : Option AuthorizationError}
    (h : (assign (ofParameters get, parseError) p).2 = none) :
    (assign (ofParameters get, parseError) p).1 =
      ofParameters fun name => if p.1 = name then some p.2 else get name := by
  obtain ⟨name, value⟩ := p
  unfold assign at h ⊢
  dsimp only at h ⊢
  split at h
  case h_7 =>
    split at h
    · rename_i m hm
      simp [ofParameters, hm]
    · simp at h
  case h_20 => simp_all [ofParameters]
  all_goals simp [ofParameters]

/-- An error is kept, and an unreadable `max_age` is one. -/
theorem AuthorizationRequest.assign_error {r : AuthorizationRequest × Option AuthorizationError}
    {p : String × String} (h : (assign r p).2 = none) :
    r.2 = none ∧ (p.1 = "max_age" → (parseI64 p.2).isSome) := by
  obtain ⟨name, value⟩ := p
  unfold assign at h
  dsimp only at h ⊢
  split at h
  case h_7 =>
    split at h
    · rename_i m hm
      exact ⟨h, by simp [hm]⟩
    · simp at h
  case h_20 => exact ⟨h, fun hm => by contradiction⟩
  all_goals exact ⟨h, by simp⟩

/-- A request without errors is made of the values of its parameters. -/
theorem authorizationRequestFromQueryPairs_eq {pairs : List (String × String)}
    (h : (authorizationRequestFromQueryPairs pairs).2 = none) :
    (authorizationRequestFromQueryPairs pairs).1 = .ofParameters (parameter pairs) ∧
      ∀ v, parameter pairs "max_age" = some v → (parseI64 v).isSome := by
  induction pairs using List.reverseRecOn with
  | nil => exact ⟨rfl, nofun⟩
  | append_singleton pairs p ih =>
    unfold authorizationRequestFromQueryPairs at h ih ⊢
    rw [List.foldl_append, List.foldl_cons, List.foldl_nil] at h ⊢
    obtain ⟨hr, hparse⟩ := AuthorizationRequest.assign_error h
    obtain ⟨hrequest, hmax⟩ := ih hr
    rw [← Prod.eta (pairs.foldl _ _), hrequest] at h ⊢
    simp only [AuthorizationRequest.assign_ofParameters h, funext (parameter_concat pairs p),
      true_and]
    intro v hv
    split at hv
    · cases hv
      exact hparse ‹_›
    · exact hmax v hv

-- the handler

variable (P : Primitives) (state : AppState) (headers : RequestHeaders)
  (pairs : List (String × String))

/-- What the handler has checked with the calls `h` before it asks for consent. -/
structure AuthorizeChecked (h : List Ev) (request : AuthorizationRequest) (client : OidcClient)
    (validated : ValidatedAuthorizationRequest) (session : AuthSession) (now : OffsetDateTime) :
    Prop where
  parsed : authorizationRequestFromQueryPairs pairs = (request, none)
  unrepeated : duplicateAuthorizationRequestParameter pairs = none
  client_read : ⟨.db (.getOidcClientByPublicId request.clientId), .ok (some client)⟩ ∈ h
  client_active : client.status = .active
  valid : Validated P request client validated
  session_checked : SessionChecked P state headers h session
  client_organization : client.organizationId = session.organizationId
  now_read : ⟨.nowUtc, now⟩ ∈ h
  login_not_required : validated.prompt.requiresLogin = false
  maxAge_kept : sessionExceedsMaxAge session validated.maxAge now = false
  acr_satisfied : sessionSatisfiesRequestedAcr session.acr validated.acrValues = true

/-- The consent authorization `row` was found for the request and covers its scopes. -/
def ConsentFound (h : List Ev) (request : AuthorizationRequest) (client : OidcClient)
    (validated : ValidatedAuthorizationRequest) (session : AuthSession) (now : OffsetDateTime)
    (row : ConsentAuthorization) : Prop :=
  validated.scopes ⊆ row.scopes ∧ ∃ rows, row ∈ rows ∧
    ⟨.db (.pendingConsentAuthorizations (consumptionOf P state request client validated session now)),
      .ok rows⟩ ∈ h

/-- What the handler has checked before it inserts a code. -/
structure CodeGrounds (h : List Ev) (request : AuthorizationRequest) (client : OidcClient)
    (validated : ValidatedAuthorizationRequest) (session : AuthSession) (now : OffsetDateTime) :
    Prop where
  checked : AuthorizeChecked P state headers pairs h request client validated session now
  consent_read : ⟨.db (.hasActiveConsentGrant session.organizationId session.userId client.id
    validated.scopes), .ok true⟩ ∈ h
  consent_not_prompted : validated.prompt.requiresConsent = false
  policy : client.consentPolicyTemplateId = none ∨
    (∃ id template, client.consentPolicyTemplateId = some id ∧
      ⟨.db (.getConsentPolicyTemplate session.organizationId id), .ok (some template)⟩ ∈ h ∧
      template.grantMode ≠ .alwaysRequired) ∨
    ∃ row, ConsentFound P state h request client validated session now row ∧
      ⟨.db (.markConsentAuthorizationConsumed row.id now), .ok true⟩ ∈ h

/-- No code has been inserted by these calls. -/
def Unissued (h : List Ev) : Prop := ∀ code r, ⟨.db (.insertAuthorizationCode code), r⟩ ∉ h

/-- An authorization request reads, spends a consent that it found, and ends with
    the insert of a code. -/
def authorizePre (h : List Ev) (e : Call) : Prop :=
  Unissued h ∧ (e.isQuiet = true ∨
    (∃ request client validated session now row,
      e = .db (.markConsentAuthorizationConsumed row.id now) ∧
      AuthorizeChecked P state headers pairs h request client validated session now ∧
      ConsentFound P state h request client validated session now row) ∨
    ∃ request client validated session now codeHash,
      e = .db (.insertAuthorizationCode
        (newAuthorizationCode client validated session codeHash now)) ∧
      CodeGrounds P state headers pairs h request client validated session now)

variable {P state headers pairs} {h h' : List Ev} {request : AuthorizationRequest}
  {client : OidcClient} {validated : ValidatedAuthorizationRequest} {session : AuthSession}
  {now : OffsetDateTime}

theorem AuthorizeChecked.mono
    (hc : AuthorizeChecked P state headers pairs h request client validated session now)
    (hsub : h ⊆ h') :
    AuthorizeChecked P state headers pairs h' request client validated session now :=
  { hc with
    client_read := hsub hc.client_read
    session_checked := hc.session_checked.mono hsub
    now_read := hsub hc.now_read }

theorem ConsentFound.mono {row : ConsentAuthorization}
    (hc : ConsentFound P state h request client validated session now row) (hsub : h ⊆ h') :
    ConsentFound P state h' request client validated session now row :=
  ⟨hc.1, hc.2.imp fun _ hrows => ⟨hrows.1, hsub hrows.2⟩⟩

theorem CodeGrounds.mono
    (hc : CodeGrounds P state headers pairs h request client validated session now)
    (hsub : h ⊆ h') : CodeGrounds P state headers pairs h' request client validated session now where
  checked := hc.checked.mono hsub
  consent_read := hsub hc.consent_read
  consent_not_prompted := hc.consent_not_prompted
  policy := hc.policy.imp_right <| .imp
    (fun ⟨id, template, hid, hev, hmode⟩ => ⟨id, template, hid, hsub hev, hmode⟩)
    fun ⟨row, hrow, hev⟩ => ⟨row, hrow.mono hsub, hsub hev⟩

theorem unissued_cons {ev : Ev} (hu : Unissued h) (hev : ∀ code, ev.1 ≠ .db (.insertAuthorizationCode code)) :
    Unissued (ev :: h) := by
  intro code r hmem
  rcases List.mem_cons.mp hmem with rfl | hmem
  · exact hev code rfl
  · exact hu code r hmem

theorem Quiet.unissued (hq : Quiet h) : Unissued h := by
  intro code r hmem
  simpa [Call.isQuiet, DbCall.isQuery] using hq _ hmem

theorem authorizePre_allowsQuiet {β : Type} :
    AllowsQuiet (β := β) (authorizePre P state headers pairs) fun _ _ => True where
  call _ _ hq he := ⟨hq.unissued, .inl he⟩
  fail _ _ _ := trivial

/-- The loop over the consent authorizations that were found: each was spent by
    somebody else, until one could be spent. -/
theorem sat_consumeFirstConsentAuthorization {all rows : List ConsentAuthorization}
    (hu : Unissued h)
    (hc : AuthorizeChecked P state headers pairs h request client validated session now)
    (hall : ⟨.db (.pendingConsentAuthorizations
      (consumptionOf P state request client validated session now)), .ok all⟩ ∈ h)
    (hrows : rows ⊆ all) :
    (consumeFirstConsentAuthorization (consumptionOf P state request client validated session now)
      rows).Sat (authorizePre P state headers pairs)
      (fun h' o => h ⊆ h' ∧ Unissued h' ∧ (o = .ok true →
        ∃ row, ConsentFound P state h' request client validated session now row ∧
          ⟨.db (.markConsentAuthorizationConsumed row.id now), .ok true⟩ ∈ h')) h := by
  induction rows generalizing h with
  | nil => exact ⟨List.Subset.refl _, hu, nofun⟩
  | cons row rows ih =>
    obtain ⟨hrow, hrows⟩ := List.cons_subset.mp hrows
    rw [consumeFirstConsentAuthorization]
    split
    · exact ih hu hc hall hrows
    rename_i hscopes
    simp only [consumptionOf, Bool.not_eq_true', Bool.not_eq_false, List.all_eq_true,
      List.contains_iff_mem] at hscopes
    have hfound : ConsentFound P state h request client validated session now row :=
      ⟨fun scope => hscopes scope, all, hrow, hall⟩
    refine sat_db_bind ⟨hu, .inr (.inl ⟨_, _, _, _, _, row, rfl, hc, hfound⟩)⟩
      (fun marked => ?_) fun e => ?_
    · have hu' : Unissued (⟨.db (.markConsentAuthorizationConsumed row.id now), .ok marked⟩ :: h) :=
        unissued_cons hu (by simp)
      have hsub := List.subset_cons_self
        (⟨.db (.markConsentAuthorizationConsumed row.id now), .ok marked⟩ : Ev) h
      split
      · rename_i hmarked
        subst hmarked
        exact ⟨hsub, hu', fun _ => ⟨row, hfound.mono hsub, .head _⟩⟩
      · exact (ih hu' (hc.mono hsub) (hsub hall) hrows).mono (fun _ _ => id)
          fun _ _ hpost => ⟨List.Subset.trans hsub hpost.1, hpost.2⟩
    · exact ⟨List.subset_cons_self .., unissued_cons hu (by simp), nofun⟩

/-- The last call. -/
theorem sat_issueAuthorizationCode (hu : Unissued h)
    (hc : CodeGrounds P state headers pairs h request client validated session now) :
    (issueAuthorizationCode P state client validated session now).Sat
      (authorizePre P state headers pairs) (fun _ _ => True) h := by
  refine ⟨⟨hu, .inl rfl⟩, fun value => ⟨⟨unissued_cons hu (by simp), .inl rfl⟩, fun id => ?_⟩⟩
  have hu' : Unissued (⟨.newV4, id⟩ :: ⟨.generateSecret 32, value⟩ :: h) :=
    unissued_cons (unissued_cons hu (by simp)) (by simp)
  refine sat_db_bind ⟨hu', .inr (.inr ⟨_, _, _, _, _, _, rfl, hc.mono ?_⟩)⟩ (fun _ => trivial)
    fun _ => trivial
  exact fun ev hev => .tail _ (.tail _ hev)

theorem quietSat_clientConsentPolicyRequiresPrompt {β : Type} {pre : List Ev → Call → Prop}
    {post : List Ev → Except ApiError β → Prop} (hs : AllowsQuiet pre post)
    {organizationId : OrganizationId} {f : Bool → App β}
    (hf : ∀ l required, (required = false → client.consentPolicyTemplateId = none ∨
      ∃ id template, client.consentPolicyTemplateId = some id ∧
        ⟨.db (.getConsentPolicyTemplate organizationId id), .ok (some template)⟩ ∈ l ++ h ∧
        template.grantMode ≠ .alwaysRequired) → QuietSat pre post (l ++ h) (f required)) :
    QuietSat pre post h (clientConsentPolicyRequiresPrompt organizationId client >>= f) := by
  unfold clientConsentPolicyRequiresPrompt
  split
  case _ id hid =>
    rw [Prog.bind_assoc]
    refine .db hs rfl fun found => ?_
    split
    case _ template =>
      exact hf [_] _ fun hmode => .inr ⟨id, template, hid, by simp, by simpa using hmode⟩
    case _ => exact hf [_] true nofun
  case _ hnone => exact hf [] false fun _ => .inl (Option.eq_none_iff_forall_ne_some.mpr hnone)

/-- What the end of the handler needs to know of the consent. -/
theorem sat_consentDecision (hu : Unissued h)
    (hc : AuthorizeChecked P state headers pairs h request client validated session now)
    {hasConsent policyRequires satisfied : Bool}
    (hconsent : hasConsent = true → ⟨.db (.hasActiveConsentGrant session.organizationId
      session.userId client.id validated.scopes), .ok true⟩ ∈ h)
    (hpolicy : (policyRequires && !satisfied) = false → client.consentPolicyTemplateId = none ∨
      (∃ id template, client.consentPolicyTemplateId = some id ∧
        ⟨.db (.getConsentPolicyTemplate session.organizationId id), .ok (some template)⟩ ∈ h ∧
        template.grantMode ≠ .alwaysRequired) ∨
      ∃ row, ConsentFound P state h request client validated session now row ∧
        ⟨.db (.markConsentAuthorizationConsumed row.id now), .ok true⟩ ∈ h) :
    (if !hasConsent || validated.prompt.requiresConsent || (policyRequires && !satisfied) then
      if validated.prompt.isNone then
        return authorizationErrorRedirectWithCode state request "consent_required"
          "consent required"
      else return consentRedirect state request client validated.scopes
    else issueAuthorizationCode P state client validated session now : App RedirectResponse).Sat
      (authorizePre P state headers pairs) (fun _ _ => True) h := by
  split
  · split <;> trivial
  · rename_i hgo
    simp only [Bool.or_eq_true, not_or, Bool.not_eq_true, Bool.not_eq_false'] at hgo
    exact sat_issueAuthorizationCode hu
      { checked := hc
        consent_read := hconsent hgo.1.1
        consent_not_prompted := hgo.1.2
        policy := hpolicy hgo.2 }

/-- The part that asks for consent. -/
theorem quietSat_authorizeWithConsent
    (hc : AuthorizeChecked P state headers pairs h request client validated session now) :
    QuietSat (authorizePre P state headers pairs) (fun _ _ => True) h
      (authorizeWithConsent P state request client validated session now) := by
  have hs : AllowsQuiet (β := RedirectResponse) (authorizePre P state headers pairs)
    fun _ _ => True := authorizePre_allowsQuiet
  refine .db hs rfl fun hasConsent => ?_
  refine quietSat_clientConsentPolicyRequiresPrompt hs fun l required hrequired => ?_
  have hsub : h ⊆ l ++ ⟨.db (.hasActiveConsentGrant session.organizationId session.userId
      client.id validated.scopes), .ok hasConsent⟩ :: h := fun ev hev => by simp [hev]
  dsimp only
  by_cases hspend : (required && !validated.prompt.requiresConsent && !validated.prompt.isNone) = true
  · rw [if_pos hspend, consumeConsentAuthorization, Prog.bind_assoc]
    refine .db hs rfl fun rows hq => ?_
    refine (sat_consumeFirstConsentAuthorization hq.unissued
      (hc.mono (List.subset_cons_of_subset _ hsub)) (.head _) (List.Subset.refl _)).bind ?_
      fun _ _ _ => trivial
    rintro h' satisfied ⟨hsub', hu, hsatisfied⟩
    refine sat_consentDecision hu (hc.mono fun ev hev => hsub' (.tail _ (hsub hev))) ?_ ?_
    · rintro rfl
      exact hsub' (by simp)
    · intro hdecided
      cases hreq : required with
      | false =>
        rcases hrequired hreq with hnone | ⟨id, template, hid, hev, hmode⟩
        · exact .inl hnone
        · exact .inr (.inl ⟨id, template, hid, hsub' (.tail _ hev), hmode⟩)
      | true =>
        subst hreq
        exact .inr (.inr (hsatisfied (by simpa using hdecided)))
  · rw [if_neg hspend]
    intro hq
    refine sat_consentDecision hq.unissued (hc.mono hsub) ?_ ?_
    · rintro rfl
      simp
    · intro hdecided
      exact (hrequired (by simpa using hdecided)).imp_right .inl

/-- The part that looks at the session. -/
theorem quietSat_authorizeWithSession
    (hparsed : authorizationRequestFromQueryPairs pairs = (request, none))
    (hunrepeated : duplicateAuthorizationRequestParameter pairs = none)
    (hclient : ⟨.db (.getOidcClientByPublicId request.clientId), .ok (some client)⟩ ∈ h)
    (hactive : client.status = .active) (hvalid : Validated P request client validated) :
    QuietSat (authorizePre P state headers pairs) (fun _ _ => True) h
      (authorizeWithSession P state headers request client validated) := by
  have hs : AllowsQuiet (β := RedirectResponse) (authorizePre P state headers pairs)
    fun _ _ => True := authorizePre_allowsQuiet
  refine quietSat_sessionFromCookie hs fun l found hfound => ?_
  cases found with
  | none => exact fun _ => trivial
  | some session =>
    refine .failIf hs fun horg => .perform hs rfl fun now => ?_
    split
    · exact fun _ => trivial
    split
    · exact fun _ => trivial
    split
    · exact fun _ => trivial
    rename_i hlogin hmaxAge hacr
    have hsub : l ++ h ⊆ ⟨.nowUtc, now⟩ :: (l ++ h) := List.subset_cons_self ..
    exact quietSat_authorizeWithConsent
      { parsed := hparsed
        unrepeated := hunrepeated
        client_read := by simp [hclient]
        client_active := hactive
        valid := hvalid
        session_checked := (hfound session rfl).mono hsub
        client_organization := not_not.mp horg
        now_read := .head _
        login_not_required := by simpa using hlogin
        maxAge_kept := by simpa using hmaxAge
        acr_satisfied := by simpa using hacr }

/-- What the authorization endpoint has checked before each of its calls. -/
theorem sat_authorizeWithPairs :
    (authorizeWithPairs P state headers pairs).Sat (authorizePre P state headers pairs)
      (fun _ _ => True) [] := by
  have hs : AllowsQuiet (β := RedirectResponse) (authorizePre P state headers pairs)
    fun _ _ => True := authorizePre_allowsQuiet
  suffices QuietSat (authorizePre P state headers pairs) (fun _ _ => True) []
    (authorizeWithPairs P state headers pairs) from this (by simp)
  refine .failIf hs fun _ => .db hs rfl fun found => ?_
  split
  case _ client =>
    refine .failIf hs fun _ => ?_
    split
    · exact fun _ => trivial
    split
    · exact fun _ => trivial
    rename_i hactive hduplicate
    split
    · exact fun _ => trivial
    rename_i hparse
    split
    · exact .fail hs _
    · exact fun _ => trivial
    · rename_i validated hvalid
      exact quietSat_authorizeWithSession (Prod.ext rfl hparse) (by simpa using hduplicate)
        (by simp) (by simpa [oidcClientIsActive] using hactive)
        (AuthorizationRequest.validate_eq_ok.mp hvalid)
  case _ => exact .fail hs _

end CairnId
