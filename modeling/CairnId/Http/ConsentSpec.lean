import CairnId.Http.AuthorizeSpec
import CairnId.Http.Consent
import CairnId.Http.Runs

/-!
# Requests for authorization and consent, interleaved

What a consent is given on, and the machine of the two endpoints.
-/

namespace CairnId

open Concurrency Prog App Database

variable (P : Primitives) (state : AppState) (headers : RequestHeaders)
  (payload : CreateConsentRequest)

/-- What the handler has checked with the calls `h` before it records a consent. -/
structure ConsentChecked (h : List Ev) (session : AuthSession) (client : OidcClient)
    (requestHash : String) (now : OffsetDateTime) : Prop where
  session_checked : SessionChecked P state headers h session
  client_read : ⟨.db (.getOidcClientByPublicId payload.clientId), .ok (some client)⟩ ∈ h
  client_organization : client.organizationId = session.organizationId
  client_active : client.status = .active
  scopes_allowed : consentScopesAllowed payload.scopes client = true
  returnTo : validateConsentReturnTo P state.config.issuer payload.returnTo client payload.scopes =
    .ok requestHash
  now_read : ⟨.nowUtc, now⟩ ∈ h

/-- A consent is recorded as a grant and as an authorization of one request. -/
def consentPre (h : List Ev) (e : Call) : Prop :=
  e.isQuiet = true ∨ (∃ session client requestHash now, ConsentChecked P state headers payload h
      session client requestHash now ∧
    ((∃ id, e = .db (.createConsentGrant (newConsentGrant session client payload.scopes id now))) ∨
      ∃ id, e = .db (.createConsentAuthorization
        (newConsentAuthorization session client requestHash payload.scopes id now)))) ∨
  ∃ event, e = .db (.insertAuditEvent event)

variable {P state headers payload}

theorem ConsentChecked.mono {h h' : List Ev} {session : AuthSession} {client : OidcClient}
    {requestHash : String} {now : OffsetDateTime}
    (hc : ConsentChecked P state headers payload h session client requestHash now) (hsub : h ⊆ h') :
    ConsentChecked P state headers payload h' session client requestHash now :=
  { hc with
    session_checked := hc.session_checked.mono hsub
    client_read := hsub hc.client_read
    now_read := hsub hc.now_read }

theorem consentPre_allowsQuiet {β : Type} :
    AllowsQuiet (β := β) (consentPre P state headers payload) fun _ _ => True where
  call _ _ _ he := .inl he
  fail _ _ _ := trivial

theorem sat_createConsent :
    (createConsent P state headers payload).Sat (consentPre P state headers payload)
      (fun _ _ => True) [] := by
  have hs : AllowsQuiet (β := ConsentGrant) (consentPre P state headers payload)
    fun _ _ => True := consentPre_allowsQuiet
  suffices QuietSat (consentPre P state headers payload) (fun _ _ => True) []
    (createConsent P state headers payload) from this (by simp)
  refine quietSat_requireSession hs fun l session hsession => ?_
  refine .skip hs (all_requireCsrf headers) fun l₁ _ => .db hs rfl fun found => ?_
  split
  case _ client =>
    refine .failIf hs fun horg => .failIf hs fun hactive => .failIf hs fun hscopes => ?_
    cases hreturn : validateConsentReturnTo P state.config.issuer payload.returnTo client
      payload.scopes with
    | error e => exact fun _ => trivial
    | ok requestHash =>
      refine .perform hs rfl fun now => .perform hs rfl fun grantId _ => ?_
      have hc : ConsentChecked P state headers payload
          (⟨.newV4, grantId⟩ :: ⟨.nowUtc, now⟩ ::
            ⟨.db (.getOidcClientByPublicId payload.clientId), .ok (some client)⟩ ::
            (l₁ ++ (l ++ []))) session client requestHash now :=
        { session_checked := hsession.mono fun ev hev => by simp_all
          client_read := by simp
          client_organization := not_not.mp horg
          client_active := by simpa [oidcClientIsActive] using hactive
          scopes_allowed := by simpa using hscopes
          returnTo := hreturn
          now_read := by simp }
      refine sat_db_bind (.inr (.inl ⟨_, _, _, _, hc, .inl ⟨_, rfl⟩⟩)) (fun _ => ?_)
        fun _ => trivial
      refine ⟨.inl rfl, fun authorizationId => ?_⟩
      refine sat_db_bind (.inr (.inl ⟨_, _, _, _,
        hc.mono fun ev hev => .tail _ (.tail _ hev), .inr ⟨_, rfl⟩⟩)) (fun _ => ?_) fun _ => trivial
      refine ⟨.inl rfl, fun auditId => ⟨.inl rfl, fun createdAt => ?_⟩⟩
      exact sat_db_bind (.inr (.inr ⟨_, rfl⟩)) (fun _ => trivial) fun _ => trivial
  case _ => exact fun _ => trivial

theorem sat_authorize (headers : RequestHeaders) (input : AuthorizeInput) :
    (authorize P state headers input).Sat
      (fun h e => ∃ pairs, input.pairs = .ok pairs ∧ authorizePre P state headers pairs h e)
      (fun _ _ => True) [] := by
  unfold authorize
  cases hpairs : input.pairs with
  | error e => trivial
  | ok pairs =>
    exact sat_authorizeWithPairs.mono (fun h e hpre => ⟨pairs, rfl, hpre⟩) fun _ _ => id

-- the machine

inductive ConsentTask where
  | createConsent (headers : RequestHeaders) (payload : CreateConsentRequest)
  | authorize (headers : RequestHeaders) (input : AuthorizeInput)

variable (P state)

def ConsentTask.handler : ConsentTask → App Unit
  | .createConsent headers payload => do
    let _ ← CairnId.createConsent P state headers payload
  | .authorize headers input => do
    let _ ← CairnId.authorize P state headers input

abbrev consentMachine : Machine Call Call.Answer ConsentTask World Choice ApiError Unit :=
  machine P (ConsentTask.handler P state)

/-- What a task has checked before each of its calls. -/
def ConsentTask.pre : ConsentTask → List Ev → Call → Prop
  | .createConsent headers payload => consentPre P state headers payload
  | .authorize headers input => fun h e =>
    ∃ pairs, input.pairs = .ok pairs ∧ authorizePre P state headers pairs h e

theorem ConsentTask.sat (task : ConsentTask) :
    (task.handler P state).Sat (task.pre P state) (fun _ _ => True) [] := by
  cases task with
  | createConsent headers payload =>
    exact sat_createConsent.bind (fun _ _ _ => trivial) fun _ _ _ => trivial
  | authorize headers input =>
    exact (sat_authorize headers input).bind (fun _ _ _ => trivial) fun _ _ _ => trivial

end CairnId
