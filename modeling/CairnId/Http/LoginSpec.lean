import CairnId.Http.Login

/-!
# What a request has verified when it inserts a session

In terms of the calls that the request made before. Nothing is assumed about the
answers of the database here.

## Main definitions

- `PasswordVerified`, `FactorVerified` — what was verified of what was submitted
- `sessionPre` — a session is inserted once, on the grounds given
-/

namespace CairnId

open Concurrency Prog App

/-- The session that a call inserts. -/
def Call.opens : Call → Option AuthSession
  | .db (.createAuthSessionWithNewContextNotification session _ _) => some session
  | .db (.rotateAuthSessionWithContext _ session _ _) => some session
  | .db (.changeUserPasswordAndRotateSession input) => some input.newSession
  | _ => none

/-- Of the other calls, those that leave the sessions alone. -/
def Call.keepsSessions (e : Call) : Bool := e.isQuiet || match e with
  | .db (.recordRateLimitFailure ..) | .db (.clearRateLimitBucket _) | .db (.setUserLastLogin ..)
  | .db (.insertAuditEvent _) | .db (.createMfaCredential _) | .db (.markMfaCredentialUsed ..)
  | .db (.updateMfaCredentialMetadata ..) | .db (.consumeActiveRecoveryCode ..)
  | .db (.revokeMfaCredential ..) | .db (.revokeActiveMfaCredentialsByKind ..)
  | .db (.insertWebauthnChallenge _) | .db (.consumeWebauthnChallenge ..) => true
  | _ => false

def Call.isFactorRead : Call → Bool
  | .db (.listMfaCredentials ..) => true
  | _ => false

/-- The call leaves the sessions alone and does not read the factors of a user. -/
def Call.isPlain (e : Call) : Bool := e.keepsSessions && !e.isFactorRead

theorem Call.keepsSessions_of_isPlain {e : Call} (h : e.isPlain = true) :
    e.keepsSessions = true := (Bool.and_eq_true_iff.mp h).1

theorem Call.isFactorRead_of_isPlain {e : Call} (h : e.isPlain = true) : e.isFactorRead = false := by
  simpa using (Bool.and_eq_true_iff.mp h).2

theorem Call.opens_of_keepsSessions {e : Call} (h : e.keepsSessions = true) : e.opens = none := by
  cases e with
  | db c => cases c <;> first | rfl | cases h
  | _ => rfl

theorem Call.leaves_of_keepsSessions {e : Call} (h : e.keepsSessions = true) :
    e.Leaves .authSessions := by
  rcases Bool.or_eq_true_iff.mp h with h | h
  · exact Call.leaves_of_isQuiet h _
  split at h
  · exact Call.leaves_of_target (.bind (.perform nofun) fun _ => .bind (.perform nofun) fun _ =>
      .ret _)
  · exact Call.leaves_of_target (.bind (.perform nofun) fun _ => .ret _)
  · exact Call.leaves_of_target (.bind (.perform nofun) fun _ => .ret _)
  · exact leaves_insertAuditEvent _ nofun
  · exact Call.leaves_of_target (.bind (.perform nofun) fun _ => .ret _)
  · exact Call.leaves_of_target (.bind (.perform nofun) fun _ => .ret _)
  · exact Call.leaves_of_target (.bind (.perform nofun) fun _ => .ret _)
  · exact Call.leaves_of_target (.bind (.perform nofun) fun _ => .ret _)
  · refine Call.leaves_of_target (.bind (.perform nofun) fun rows => ?_)
    split
    · exact .bind (.perform nofun) fun _ => .ret _
    · trivial
  · exact Call.leaves_of_target (.bind (.perform nofun) fun _ => .ret _)
  · exact Call.leaves_of_target (.bind (.perform nofun) fun _ => .ret _)
  · refine Call.leaves_of_target (.bind (.perform nofun) fun rows => ?_)
    split
    · exact .bind (.perform nofun) fun _ => .ret _
    · trivial
  · cases h

def Plain (h : List Ev) : Prop := ∀ ev ∈ h, ev.1.isPlain = true

/-- The calls `h` insert no session. -/
def Unopened (h : List Ev) : Prop := ∀ ev ∈ h, ev.1.opens = none

@[simp] theorem plain_nil : Plain [] := by simp [Plain]

@[simp] theorem plain_cons {ev : Ev} {h : List Ev} :
    Plain (ev :: h) ↔ ev.1.isPlain = true ∧ Plain h := by simp [Plain]

@[simp] theorem plain_append {l h : List Ev} : Plain (l ++ h) ↔ Plain l ∧ Plain h := by
  simp [Plain, or_imp, forall_and]

@[simp] theorem unopened_cons {ev : Ev} {h : List Ev} :
    Unopened (ev :: h) ↔ ev.1.opens = none ∧ Unopened h := by simp [Unopened]

@[simp] theorem unopened_append {l h : List Ev} :
    Unopened (l ++ h) ↔ Unopened l ∧ Unopened h := by
  simp [Unopened, or_imp, forall_and]

theorem Plain.unopened {h : List Ev} (hh : Plain h) : Unopened h :=
  fun ev hev => Call.opens_of_keepsSessions (Call.keepsSessions_of_isPlain (hh ev hev))

/-- The user was read with the calls `h`. -/
inductive UserRead (h : List Ev) : OrganizationId → UserId → UserWithPassword → Prop
  | byEmail (organizationId email found) :
    ⟨.db (.findUserByEmail organizationId email), .ok (some found)⟩ ∈ h →
      UserRead h found.user.organizationId found.user.id found
  | byId (organizationId userId found) :
    ⟨.db (.getUserWithPassword organizationId userId), .ok (some found)⟩ ∈ h →
      UserRead h organizationId userId found

/-- A credential of the user was listed as active with the calls `h`. -/
def ListedActive (h : List Ev) (organizationId : OrganizationId) (userId : UserId)
    (kind : MfaKind) (credential : MfaCredential) : Prop :=
  ∃ rows, ⟨.db (.listMfaCredentials organizationId userId kind), .ok rows⟩ ∈ h ∧
    credential ∈ rows ∧ mfaMetadataStatus credential = "active"

section facts

variable (P : Primitives) (state : AppState) (h : List Ev)

/-- The password is that of the active user. -/
def PasswordVerified (password : String) (organizationId : OrganizationId) (userId : UserId) :
    Prop :=
  ∃ found hash, UserRead h organizationId userId found ∧ found.user.status = .active ∧
    found.passwordHash = some hash ∧ P.verifyPassword password hash = true

/-- A second factor was verified with what was submitted, against a credential that
    was listed as active. -/
def FactorVerified (submitted : SubmittedMfa) (organizationId : OrganizationId) (userId : UserId) :
    MfaVerificationMethod → Prop
  | .totp => ∃ credential code secret t, ListedActive h organizationId userId .totp credential ∧
      submitted.code = some code ∧ totpSecret P state credential = .ok secret ∧
      ⟨.nowUtc, t⟩ ∈ h ∧ P.verifyTotp secret code t = some true
  | .recoveryCode => ∃ credential code t,
      ListedActive h organizationId userId .recoveryCode credential ∧ submitted.code = some code ∧
      credential.secretMetadata.text? "code_hash" = some (hashToken P code) ∧
      ⟨.db (.consumeActiveRecoveryCode credential.organizationId credential.userId
        (hashToken P code) t), .ok true⟩ ∈ h
  | .webAuthn => ∃ credential id assertion t challenge passkey result,
      ListedActive h organizationId userId .webAuthn credential ∧
      submitted.webauthnChallengeId = some id ∧ submitted.webauthnCredential = some assertion ∧
      ⟨.nowUtc, t⟩ ∈ h ∧
      ⟨.db (.consumeWebauthnChallenge id organizationId userId .authentication t),
        .ok (some challenge)⟩ ∈ h ∧
      P.finishPasskeyAuthentication assertion challenge.state = some result ∧
      passkeyFromCredential P credential = .ok passkey ∧
      (P.updateCredential passkey result).isSome

/-- Where the user was seen to have a second factor, one was verified. -/
def FactorRequired (organizationId : OrganizationId) (userId : UserId)
    (method : Option MfaVerificationMethod) : Prop :=
  ∀ kind credential, kind ≠ .recoveryCode →
    ListedActive h organizationId userId kind credential → method.isSome

/-- The session has the authentication context of a request that verified its
    password and, if there was one, the second factor. -/
structure FreshContext (submitted : SubmittedMfa) (method : Option MfaVerificationMethod)
    (session : AuthSession) : Prop where
  createdAt : ⟨.nowUtc, session.createdAt⟩ ∈ h
  acr : session.acr = (method.map (·.acr)).getD "urn:cairn:acr:password"
  amr : session.amr = (method.map (·.amr)).getD ["pwd"]
  factor : ∀ m ∈ method,
    FactorVerified P state h submitted session.organizationId session.userId m

/-- The session has the authentication context of a session that was recently
    created with a second factor. -/
def PreservedContext (session : AuthSession) : Prop :=
  ∃ id current now, ⟨.db (.getAuthSession id), .ok (some current)⟩ ∈ h ∧
    session = { current with
      id := session.id, expiresAt := now + Duration.hours 12, revokedAt := none } ∧
    now ≤ current.createdAt + mfaDestructiveActionMaxAge

/-- The session is the one that a login or a reauthentication with this password
    and this second factor inserts. -/
def SignInGround (password : String) (submitted : SubmittedMfa) (session : AuthSession) : Prop :=
  PasswordVerified P h password session.organizationId session.userId ∧
    session.expiresAt = session.createdAt + Duration.hours 12 ∧
    ∃ method, FreshContext P state h submitted method session ∧
      FactorRequired h session.organizationId session.userId method

/-- The session is the one that a change of this password inserts. -/
def PasswordChangeGround (password : String) (session : AuthSession) : Prop :=
  PasswordVerified P h password session.organizationId session.userId ∧
    ((session.expiresAt = session.createdAt + Duration.hours 12 ∧
        FreshContext P state h ⟨none, none, none⟩ none session) ∨ PreservedContext h session)

end facts

-- the call with which each of the three requests inserts its session

def CreatesSession (e : Call) (session : AuthSession) : Prop :=
  ∃ context notification,
    e = .db (.createAuthSessionWithNewContextNotification session context notification)

/-- The session replaced is revoked at the time at which the new one is created. -/
def ReplacesSession (e : Call) (session : AuthSession) : Prop :=
  ∃ old context, e = .db (.rotateAuthSessionWithContext old session session.createdAt context)

def ChangesPassword (e : Call) (session : AuthSession) : Prop :=
  ∃ input, e = .db (.changeUserPasswordAndRotateSession input) ∧ input.newSession = session

/-- A request inserts at most one session, with the given call and on the given grounds,
    and otherwise leaves the sessions alone. -/
def sessionPre (Opens : Call → AuthSession → Prop) (Ground : List Ev → AuthSession → Prop)
    (h : List Ev) (e : Call) : Prop :=
  e.keepsSessions = true ∨ ∃ session, e.opens = some session ∧ Opens e session ∧ Unopened h ∧
    Ground h session

section rules

variable {Opens : Call → AuthSession → Prop} {Ground : List Ev → AuthSession → Prop}
  {h : List Ev} {α : Type}

/-- A program that leaves the sessions alone. -/
theorem sat_of_keepsSessions {p : App α} (hp : p.All fun e => e.keepsSessions = true) :
    p.Sat (sessionPre Opens Ground) (fun _ _ => True) h :=
  (Sat.of_all hp).mono (fun _ _ he => .inl he) fun _ _ _ => trivial

/-- A part of a handler that leaves the sessions alone. -/
theorem sat_part_bind {β : Type} {p : App α} {f : α → App β}
    {known : List Ev → Except ApiError α → Prop} (hp : p.All fun e => e.keepsSessions = true)
    (hk : p.Sat (fun _ _ => True) known h)
    (hok : ∀ l a, Unopened l → known (l ++ h) (.ok a) →
      (f a).Sat (sessionPre Opens Ground) (fun _ _ => True) (l ++ h)) :
    (p >>= f).Sat (sessionPre Opens Ground) (fun _ _ => True) h :=
  .known_bind hp hk (fun _ _ _ he => .inl he)
    (fun l a hl ha => hok l a (fun ev hev => Call.opens_of_keepsSessions (hl ev hev)) ha)
    fun _ _ _ _ => trivial

/-- A part that makes plain calls. -/
theorem sat_plain_bind {β : Type} {p : App α} {f : α → App β}
    {known : List Ev → Except ApiError α → Prop} (hp : p.All fun e => e.isPlain = true)
    (hk : p.Sat (fun _ _ => True) known h)
    (hok : ∀ l a, Plain l → known (l ++ h) (.ok a) →
      (f a).Sat (sessionPre Opens Ground) (fun _ _ => True) (l ++ h)) :
    (p >>= f).Sat (sessionPre Opens Ground) (fun _ _ => True) h :=
  .known_bind hp hk (fun _ _ _ he => .inl (Call.keepsSessions_of_isPlain he)) hok
    fun _ _ _ _ => trivial

end rules

-- the parts of the handlers

variable {P : Primitives} {state : AppState}

theorem isPlain_recordRateLimitFailure (policy : RateLimitPolicy) (keys : List RateLimitKey) :
    (recordRateLimitFailure policy keys).All fun e => e.isPlain = true := by
  refine .bind (.perform rfl) fun now => ?_
  induction keys with
  | nil => trivial
  | cons key keys ih => exact .bind (all_app_db rfl) fun _ => ih

theorem isPlain_enforceRateLimit (keys : List RateLimitKey) :
    (enforceRateLimit keys).All fun e => e.isPlain = true := by
  refine .bind (.perform rfl) fun now => ?_
  induction keys with
  | nil => trivial
  | cons key keys ih => exact .bind (all_app_db rfl) fun _ => .bind (.when (.fail _)) fun _ => ih

theorem isPlain_recordAndRefuse {α : Type} (keys : List RateLimitKey) (error : ApiError) :
    (recordAndRefuse keys error : App α).All fun e => e.isPlain = true :=
  .bind (isPlain_recordRateLimitFailure ..) fun _ => .fail _

theorem isPlain_insertAuditEvent (b : AuditEventBuilder) :
    (insertAuditEvent b).All fun e => e.isPlain = true :=
  .bind (.perform rfl) fun _ => .bind (.perform rfl) fun _ => all_app_db rfl

theorem isPlain_requireSession (headers : RequestHeaders) :
    (requireSession P state headers).All fun e => e.isPlain = true :=
  all_requireSession_of P state headers (fun _ => rfl) rfl fun _ => rfl

/-- A request that is refused for its failures has no answer. -/
theorem sat_recordAndThrow {α : Type} {h : List Ev} (policy : RateLimitPolicy)
    (keys : List RateLimitKey) (error : ApiError) :
    (recordRateLimitFailure policy keys >>= fun _ => throw error : App α).Sat (fun _ _ => True)
      (fun _ o => ∀ a, o ≠ .ok a) h :=
  (Sat.trivial (recordRateLimitFailure policy keys)).bind (fun _ _ _ _ => nofun)
    fun _ _ _ _ => nofun

theorem sat_recordAndRefuse {α : Type} {h : List Ev} {Known : List Ev → α → Prop}
    (keys : List RateLimitKey) (error : ApiError) :
    (recordAndRefuse keys error : App α).Sat (fun _ _ => True)
      (fun h o => ∀ a, o = .ok a → Known h a) h :=
  (sat_recordAndThrow credentialRateLimit keys error).mono (fun _ _ h => h)
    fun _ _ hno a ha => absurd ha (hno a)

theorem isPlain_verifyLoginCredentials (request : LoginRequest) (email : String)
    (keys : List RateLimitKey) :
    (verifyLoginCredentials P state request email keys).All fun e => e.isPlain = true := by
  refine .bind (all_app_db rfl) fun found => ?_
  split
  · exact isPlain_recordAndRefuse ..
  · split
    · exact isPlain_recordAndRefuse ..
    · split
      · exact isPlain_recordAndRefuse ..
      · split
        · exact isPlain_recordAndRefuse ..
        · trivial

theorem sat_verifyLoginCredentials (request : LoginRequest) (email : String)
    (keys : List RateLimitKey) {h : List Ev} :
    (verifyLoginCredentials P state request email keys).Sat (fun _ _ => True)
      (fun h o => ∀ user, o = .ok user →
        PasswordVerified P h request.password user.organizationId user.id) h := by
  refine sat_db_bind trivial (fun found => ?_) fun _ _ => nofun
  split
  · exact sat_recordAndRefuse ..
  case _ found =>
    split
    · exact sat_recordAndRefuse ..
    case _ hash hhash =>
      split
      · exact sat_recordAndRefuse ..
      case _ hactive =>
        split
        · exact sat_recordAndRefuse ..
        case _ hverified =>
          rintro _ ⟨⟩
          exact ⟨found, hash, .byEmail _ _ _ (.head _), not_not.mp hactive, hhash,
            by simpa using hverified⟩

theorem isPlain_verifySessionPassword (session : AuthSession) (password : String)
    (keys : List RateLimitKey) :
    (verifySessionPassword P session password keys).All fun e => e.isPlain = true := by
  refine .bind (all_app_db rfl) fun found => ?_
  split
  · split
    · refine .bind (.when (.fail _)) fun _ => ?_
      split
      · exact isPlain_recordAndRefuse ..
      · trivial
    · trivial
  · trivial

theorem sat_verifySessionPassword (session : AuthSession) (password : String)
    (keys : List RateLimitKey) {h : List Ev} :
    (verifySessionPassword P session password keys).Sat (fun _ _ => True)
      (fun h o => ∀ found, o = .ok found →
        PasswordVerified P h password session.organizationId session.userId) h := by
  refine sat_db_bind trivial (fun found => ?_) fun _ _ => nofun
  split
  case _ found =>
    split
    case _ hash hhash =>
      refine sat_when_bind (fun _ _ => nofun) fun hactive => ?_
      split
      · exact sat_recordAndRefuse ..
      case _ hverified =>
        rintro _ ⟨⟩
        exact ⟨found, hash, .byId _ _ _ (by simp), not_not.mp hactive, hhash,
          by simpa using hverified⟩
    · exact fun _ => nofun
  · exact fun _ => nofun

-- second factors

/-- A property of the calls that verify a second factor, once the factors are read. -/
structure VerifyCalls (Q : Call → Prop) : Prop where
  clock : Q .nowUtc
  uuid : Q .newV4
  start : ∀ passkeys, Q (.startPasskeyAuthentication passkeys)
  used : ∀ id instant, Q (.db (.markMfaCredentialUsed id instant))
  spend : ∀ organizationId userId hash instant,
    Q (.db (.consumeActiveRecoveryCode organizationId userId hash instant))
  update : ∀ id metadata used, Q (.db (.updateMfaCredentialMetadata id metadata used))
  challenge : ∀ challenge, Q (.db (.insertWebauthnChallenge challenge))
  consume : ∀ id organizationId userId kind instant,
    Q (.db (.consumeWebauthnChallenge id organizationId userId kind instant))

theorem verifyCalls_isPlain : VerifyCalls fun e => e.isPlain = true where
  clock := rfl
  uuid := rfl
  start _ := rfl
  used _ _ := rfl
  spend _ _ _ _ := rfl
  update _ _ _ := rfl
  challenge _ := rfl
  consume _ _ _ _ _ := rfl

section verifyCalls

variable {Q : Call → Prop} (hQ : VerifyCalls Q)

include hQ

theorem VerifyCalls.verifyTotpCredentials (code : String) (credentials : List MfaCredential) :
    (verifyTotpCredentials P state code credentials).All Q := by
  induction credentials with
  | nil => trivial
  | cons credential credentials ih =>
    refine .bind (.bind (.ofExcept _) fun _ => .bind (.perform hQ.clock) fun _ => ?_) fun valid => ?_
    · split <;> trivial
    · split
      · exact .bind (.perform hQ.clock) fun _ => .bind (all_app_db (hQ.used ..)) fun _ => .ret _
      · exact ih

theorem VerifyCalls.consumeRecoveryCode (code : String) (credentials : List MfaCredential) :
    (consumeRecoveryCode P code credentials).All Q := by
  induction credentials with
  | nil => trivial
  | cons credential credentials ih =>
    unfold CairnId.consumeRecoveryCode
    split
    · split
      · exact .bind (.perform hQ.clock) fun _ => all_app_db (hQ.spend ..)
      · exact ih
    · trivial

theorem VerifyCalls.updateAssertedPasskey (result : Json) (now : OffsetDateTime)
    (credentials : List MfaCredential) :
    (updateAssertedPasskey P result now credentials).All Q := by
  induction credentials with
  | nil => trivial
  | cons credential credentials ih =>
    refine .bind (.ofExcept _) fun passkey => ?_
    split
    · exact ih
    · exact .bind (all_app_db (hQ.update ..)) fun _ => .ret _
    · exact .bind (all_app_db (hQ.used ..)) fun _ => .ret _

theorem VerifyCalls.verifyWebauthnAssertion (organizationId : OrganizationId) (userId : UserId)
    (credentials : List MfaCredential) (challengeId : Uuid) (assertion : Json) :
    (verifyWebauthnAssertion P state organizationId userId credentials challengeId
      assertion).All Q := by
  refine .bind (.when (.fail _)) fun _ => .bind (.perform hQ.clock) fun now =>
    .bind (all_app_db (hQ.consume ..)) fun challenge => ?_
  split
  · refine .bind (.when (.fail _)) fun _ => ?_
    split
    · exact hQ.updateAssertedPasskey ..
    · trivial
  · trivial

theorem VerifyCalls.mfaRequiredResponse (organizationId : OrganizationId) (userId : UserId)
    (active : ActiveMfaCredentials) :
    (mfaRequiredResponse P state organizationId userId active).All Q := by
  refine .bind ?_ fun _ => .ret _
  split
  · trivial
  · refine .bind (.ofExcept _) fun _ => .bind (.when (.fail _)) fun _ =>
      .bind (.perform (hQ.start _)) fun started => ?_
    split
    · exact .bind (.perform hQ.clock) fun _ => .bind (.perform hQ.uuid) fun _ =>
        .bind (all_app_db (hQ.challenge _)) fun _ => .ret _
    · trivial

theorem VerifyCalls.verifyMfaCodeAgainstCredentials (totp recoveryCodes : List MfaCredential)
    (code : String) :
    (verifyMfaCodeAgainstCredentials P state totp recoveryCodes code).All Q := by
  refine .bind (hQ.verifyTotpCredentials ..) fun valid => ?_
  split
  · trivial
  · refine .bind (hQ.consumeRecoveryCode ..) fun consumed => ?_
    split <;> trivial

end verifyCalls

/-- The code is that of the credential at a time that was read. -/
def TotpMatches (P : Primitives) (state : AppState) (h : List Ev) (code : String)
    (credential : MfaCredential) : Prop :=
  ∃ secret t, totpSecret P state credential = .ok secret ∧ ⟨.nowUtc, t⟩ ∈ h ∧
    P.verifyTotp secret code t = some true

theorem sat_verifyTotpCode (credential : MfaCredential) (code : String) {h : List Ev} :
    (verifyTotpCode P state credential code).Sat (fun _ _ => True)
      (fun h o => o = .ok true → TotpMatches P state h code credential) h := by
  unfold verifyTotpCode
  cases hsecret : totpSecret P state credential with
  | error e => rintro ⟨⟩
  | ok secret =>
    simp only [Prog.ofExcept, ret_bind, nowUtc, perform_bind]
    refine ⟨trivial, fun t => ?_⟩
    beta_reduce
    split
    case _ valid hvalid =>
      rintro ⟨⟩
      exact ⟨secret, t, hsecret, .head _, hvalid⟩
    · rintro ⟨⟩

theorem sat_verifyTotpCredentials (code : String) (credentials : List MfaCredential)
    {h : List Ev} :
    (verifyTotpCredentials P state code credentials).Sat (fun _ _ => True)
      (fun h o => o = .ok true → ∃ c ∈ credentials, TotpMatches P state h code c) h := by
  induction credentials generalizing h with
  | nil => exact fun h => nomatch h
  | cons credential credentials ih =>
    refine (sat_verifyTotpCode credential code).bind (fun h valid hvalid => ?_) fun _ _ _ => nofun
    split
    case _ htrue =>
      subst htrue
      obtain ⟨secret, t, hsecret, ht, hmatch⟩ := hvalid rfl
      refine ⟨trivial, fun now => sat_db_bind trivial (fun _ _ => ?_) fun _ => nofun⟩
      exact ⟨credential, .head _, secret, t, hsecret, .tail _ (.tail _ ht), hmatch⟩
    · refine ih.mono (fun _ _ => id) fun h o hfound ho => ?_
      obtain ⟨c, hc, hmatch⟩ := hfound ho
      exact ⟨c, .tail _ hc, hmatch⟩

theorem sat_consumeRecoveryCode (code : String) (credentials : List MfaCredential) {h : List Ev} :
    (consumeRecoveryCode P code credentials).Sat (fun _ _ => True)
      (fun h o => o = .ok true → ∃ c ∈ credentials, ∃ t,
        c.secretMetadata.text? "code_hash" = some (hashToken P code) ∧
          ⟨.db (.consumeActiveRecoveryCode c.organizationId c.userId (hashToken P code) t),
            .ok true⟩ ∈ h) h := by
  induction credentials with
  | nil => exact fun h => nomatch h
  | cons credential credentials ih =>
    unfold consumeRecoveryCode
    split
    case _ codeHash hhash =>
      split
      case _ heq =>
        subst heq
        refine ⟨trivial, fun now => ⟨trivial, fun r => ?_⟩⟩
        cases r with
        | error e => exact fun h => nomatch h
        | ok consumed =>
          rintro ⟨⟩
          exact ⟨credential, .head _, now, hhash, .head _⟩
      · refine ih.mono (fun _ _ => id) fun h o hfound ho => ?_
        obtain ⟨c, hc, hconsumed⟩ := hfound ho
        exact ⟨c, .tail _ hc, hconsumed⟩
    · exact fun h => nomatch h

theorem sat_updateAssertedPasskey (result : Json) (now : OffsetDateTime)
    (credentials : List MfaCredential) {h : List Ev} :
    (updateAssertedPasskey P result now credentials).Sat (fun _ _ => True)
      (fun h' o => (∀ ev ∈ h, ev ∈ h') ∧ ∀ method, o = .ok method → method = .webAuthn ∧
        ∃ c ∈ credentials, ∃ passkey, passkeyFromCredential P c = .ok passkey ∧
          (P.updateCredential passkey result).isSome) h := by
  induction credentials with
  | nil => exact ⟨fun _ => id, fun _ => nofun⟩
  | cons credential credentials ih =>
    unfold updateAssertedPasskey
    cases hpasskey : passkeyFromCredential P credential with
    | error e => exact ⟨fun _ => id, fun _ => nofun⟩
    | ok passkey =>
      dsimp only [Prog.ofExcept, ret_bind]
      split
      · refine ih.mono (fun _ _ => id) fun h' o hfound => ⟨hfound.1, fun method ho => ?_⟩
        obtain ⟨hmethod, c, hc, hrest⟩ := hfound.2 method ho
        exact ⟨hmethod, c, .tail _ hc, hrest⟩
      all_goals
        rename_i hupdate
        refine sat_db_bind trivial (fun _ => ⟨fun _ => .tail _, ?_⟩) fun _ =>
          ⟨fun _ => .tail _, fun _ => nofun⟩
        rintro _ ⟨⟩
        exact ⟨rfl, credential, .head _, passkey, hpasskey, by simp [hupdate]⟩

theorem sat_verifyWebauthnAssertion (organizationId : OrganizationId) (userId : UserId)
    (credentials : List MfaCredential) (challengeId : Uuid) (assertion : Json) {h : List Ev} :
    (verifyWebauthnAssertion P state organizationId userId credentials challengeId assertion).Sat
      (fun _ _ => True)
      (fun h o => ∀ method, o = .ok method → method = .webAuthn ∧
        ∃ c ∈ credentials, ∃ t challenge passkey result, ⟨.nowUtc, t⟩ ∈ h ∧
          ⟨.db (.consumeWebauthnChallenge challengeId organizationId userId .authentication t),
            .ok (some challenge)⟩ ∈ h ∧
          P.finishPasskeyAuthentication assertion challenge.state = some result ∧
          passkeyFromCredential P c = .ok passkey ∧
          (P.updateCredential passkey result).isSome) h := by
  refine sat_when_bind (fun _ _ => nofun) fun _ => ⟨trivial, fun now => ?_⟩
  refine sat_db_bind trivial (fun found => ?_) fun _ _ => nofun
  split
  case _ challenge =>
    refine sat_when_bind (fun _ _ => nofun) fun _ => ?_
    split
    case _ result hresult =>
      refine (sat_updateAssertedPasskey result now credentials).mono (fun _ _ => id) ?_
      intro h' o hfound method ho
      obtain ⟨hmethod, c, hc, passkey, hpasskey, hupdate⟩ := hfound.2 method ho
      exact ⟨hmethod, c, hc, now, challenge, passkey, result, hfound.1 _ (.tail _ (.head _)),
        hfound.1 _ (.head _), hresult, hpasskey, hupdate⟩
    · exact fun _ => nofun
  · exact fun _ => nofun

theorem sat_verifyMfaCodeAgainstCredentials (totp recoveryCodes : List MfaCredential)
    (code : String) {h : List Ev} :
    (verifyMfaCodeAgainstCredentials P state totp recoveryCodes code).Sat (fun _ _ => True)
      (fun h o => ∀ method, o = .ok (some method) →
        (method = .totp ∧ ∃ c ∈ totp, TotpMatches P state h code c) ∨
          (method = .recoveryCode ∧ ∃ c ∈ recoveryCodes, ∃ t,
            c.secretMetadata.text? "code_hash" = some (hashToken P code) ∧
              ⟨.db (.consumeActiveRecoveryCode c.organizationId c.userId (hashToken P code) t),
                .ok true⟩ ∈ h)) h := by
  refine (sat_verifyTotpCredentials code totp).bind (fun h valid hvalid => ?_) fun _ _ _ _ => nofun
  split
  case _ htrue =>
    subst htrue
    rintro _ ⟨⟩
    exact .inl ⟨rfl, hvalid rfl⟩
  · refine (sat_consumeRecoveryCode code recoveryCodes).bind (fun h consumed hconsumed => ?_)
      fun _ _ _ _ => nofun
    split
    case _ htrue =>
      subst htrue
      rintro _ ⟨⟩
      exact .inr ⟨rfl, hconsumed rfl⟩
    · exact fun _ => nofun

theorem keepsSessions_verifySubmittedMfa (organizationId : OrganizationId) (userId : UserId)
    (submitted : SubmittedMfa) (keys : List RateLimitKey) (policy : RateLimitPolicy) :
    (verifySubmittedMfa P state organizationId userId submitted keys policy).All
      fun e => e.keepsSessions = true := by
  have plain {α : Type} {p : App α} (hp : p.All fun e => e.isPlain = true) :
      p.All fun e => e.keepsSessions = true := hp.mono fun _ => Call.keepsSessions_of_isPlain
  have hrecord (error : ApiError) : (do
      recordRateLimitFailure policy keys
      throw error : App MfaVerificationMethod).All fun e => e.keepsSessions = true :=
    .bind (plain (isPlain_recordRateLimitFailure ..)) fun _ => .fail _
  refine .bind (.bind (.bind (all_app_db rfl) fun _ => .ret _) fun _ =>
    .bind (.bind (all_app_db rfl) fun _ => .ret _) fun _ =>
    .bind (.bind (all_app_db rfl) fun _ => .ret _) fun _ => .ret _) fun active => ?_
  split
  · trivial
  split
  · exact .bind (.tryCatch (plain (verifyCalls_isPlain.verifyWebauthnAssertion ..)) hrecord)
      fun _ => .ret _
  · split
    · exact .bind (plain (verifyCalls_isPlain.mfaRequiredResponse ..)) fun _ => .ret _
    · refine .bind (plain (verifyCalls_isPlain.verifyMfaCodeAgainstCredentials ..)) fun _ =>
        .bind (.when ?_) fun _ => .ret _
      exact .bind (plain (isPlain_recordRateLimitFailure ..)) fun _ => .fail _

theorem ListedActive.of_mem {h : List Ev} {organizationId : OrganizationId} {userId : UserId}
    {kind : MfaKind} {rows : List MfaCredential} {credential : MfaCredential}
    (hrows : ⟨.db (.listMfaCredentials organizationId userId kind), .ok rows⟩ ∈ h)
    (hc : credential ∈ rows.filter fun c => mfaMetadataStatus c = "active") :
    ListedActive h organizationId userId kind credential := by
  obtain ⟨hmem, hactive⟩ := List.mem_filter.mp hc
  exact ⟨rows, hrows, hmem, by simpa using hactive⟩

theorem ListedActive.mono {h h' : List Ev} {organizationId : OrganizationId} {userId : UserId}
    {kind : MfaKind} {credential : MfaCredential}
    (hc : ListedActive h organizationId userId kind credential) (hsub : h ⊆ h') :
    ListedActive h' organizationId userId kind credential :=
  hc.imp fun _ hrows => ⟨hsub hrows.1, hrows.2⟩

theorem FactorRequired.of_isSome {h : List Ev} {organizationId : OrganizationId} {userId : UserId}
    {method : Option MfaVerificationMethod} (hm : method.isSome) :
    FactorRequired h organizationId userId method := fun _ _ _ _ => hm

theorem ListedActive.of_plain {l h : List Ev} {organizationId : OrganizationId} {userId : UserId}
    {kind : MfaKind} {credential : MfaCredential} (hl : Plain l)
    (hc : ListedActive (l ++ h) organizationId userId kind credential) :
    ListedActive h organizationId userId kind credential := by
  obtain ⟨rows, hrows, hc⟩ := hc
  rcases List.mem_append.mp hrows with hrows | hrows
  · cases Call.isFactorRead_of_isPlain (hl _ hrows)
  · exact ⟨rows, hrows, hc⟩

theorem FactorRequired.append {l h : List Ev} {organizationId : OrganizationId} {userId : UserId}
    {method : Option MfaVerificationMethod} (hl : Plain l)
    (hr : FactorRequired h organizationId userId method) :
    FactorRequired (l ++ h) organizationId userId method :=
  fun kind c hkind hc => hr kind c hkind (hc.of_plain hl)

theorem UserRead.mono {h h' : List Ev} {organizationId : OrganizationId} {userId : UserId}
    {found : UserWithPassword} (hu : UserRead h organizationId userId found) (hsub : h ⊆ h') :
    UserRead h' organizationId userId found := by
  cases hu with
  | byEmail _ email _ hev => exact .byEmail _ email _ (hsub hev)
  | byId _ _ _ hev => exact .byId _ _ _ (hsub hev)

theorem PasswordVerified.mono {h h' : List Ev} {password : String}
    {organizationId : OrganizationId} {userId : UserId}
    (hp : PasswordVerified P h password organizationId userId) (hsub : h ⊆ h') :
    PasswordVerified P h' password organizationId userId := by
  obtain ⟨found, hash, hread, hrest⟩ := hp
  exact ⟨found, hash, hread.mono hsub, hrest⟩

theorem FactorVerified.mono {h h' : List Ev} {submitted : SubmittedMfa}
    {organizationId : OrganizationId} {userId : UserId} {method : MfaVerificationMethod}
    (hf : FactorVerified P state h submitted organizationId userId method) (hsub : h ⊆ h') :
    FactorVerified P state h' submitted organizationId userId method := by
  cases method with
  | totp =>
    obtain ⟨c, code, secret, t, hc, hcode, hsecret, ht, hmatch⟩ := hf
    exact ⟨c, code, secret, t, hc.mono hsub, hcode, hsecret, hsub ht, hmatch⟩
  | recoveryCode =>
    obtain ⟨c, code, t, hc, hcode, hhash, hconsumed⟩ := hf
    exact ⟨c, code, t, hc.mono hsub, hcode, hhash, hsub hconsumed⟩
  | webAuthn =>
    obtain ⟨c, id, assertion, t, challenge, passkey, result, hc, hid, hassertion, ht, hconsumed,
      hrest⟩ := hf
    exact ⟨c, id, assertion, t, challenge, passkey, result, hc.mono hsub, hid, hassertion, hsub ht,
      hsub hconsumed, hrest⟩

/-- **Factor rule**: what a verified second factor rests on, after a history in which
    the factors have not been read. -/
theorem sat_verifySubmittedMfa (organizationId : OrganizationId) (userId : UserId)
    (submitted : SubmittedMfa) (keys : List RateLimitKey) (policy : RateLimitPolicy) {h : List Ev}
    (hreads : ∀ ev ∈ h, ev.1.isFactorRead = false) :
    (verifySubmittedMfa P state organizationId userId submitted keys policy).Sat (fun _ _ => True)
      (fun h o => ∀ method, o = .ok (.verified method) →
        (∀ m ∈ method, FactorVerified P state h submitted organizationId userId m) ∧
          FactorRequired h organizationId userId method) h := by
  refine ⟨trivial, fun totp => ?_⟩
  rcases totp with e | totp
  · exact fun _ => by rintro ⟨⟩
  refine ⟨trivial, fun recoveryCodes => ?_⟩
  rcases recoveryCodes with e | recoveryCodes
  · exact fun _ => by rintro ⟨⟩
  refine ⟨trivial, fun webauthn => ?_⟩
  rcases webauthn with e | webauthn
  · exact fun _ => by rintro ⟨⟩
  let read : List Ev :=
    ⟨.db (.listMfaCredentials organizationId userId .webAuthn), .ok webauthn⟩ ::
      ⟨.db (.listMfaCredentials organizationId userId .recoveryCode), .ok recoveryCodes⟩ ::
      ⟨.db (.listMfaCredentials organizationId userId .totp), .ok totp⟩ :: h
  let active : ActiveMfaCredentials :=
    ⟨totp.filter fun c => mfaMetadataStatus c = "active",
      recoveryCodes.filter fun c => mfaMetadataStatus c = "active",
      webauthn.filter fun c => mfaMetadataStatus c = "active"⟩
  show (if !active.requiresMfa then _ else _ : App MfaVerification).Sat _ _ read
  split
  case _ hnone =>
    -- no factor was listed as active
    rintro _ ⟨⟩
    refine ⟨(by rintro _ ⟨⟩), fun kind c hkind hlisted => ?_⟩
    obtain ⟨rows, hrows, hc, hactive⟩ := hlisted
    have hc : c ∈ rows.filter fun c => mfaMetadataStatus c = "active" :=
      List.mem_filter.mpr ⟨hc, by simpa using hactive⟩
    simp only [ActiveMfaCredentials.requiresMfa, Bool.not_or, Bool.not_not, Bool.and_eq_true,
      List.isEmpty_iff, active] at hnone
    rcases List.mem_cons.mp hrows with heq | hrows
    · cases heq
      simp [hnone.2] at hc
    rcases List.mem_cons.mp hrows with heq | hrows
    · cases heq
      exact absurd rfl hkind
    rcases List.mem_cons.mp hrows with heq | hrows
    · cases heq
      simp [hnone.1] at hc
    · cases hreads _ hrows
  case _ =>
    split
    case _ id assertion hid hassertion =>
      have hverify : (verifyWebauthnAssertion P state organizationId userId active.webauthn id
          assertion).Sat (fun _ _ => True) (fun h o => ∀ method, o = .ok method →
            FactorVerified P state h submitted organizationId userId method) read := by
        refine (sat_verifyWebauthnAssertion organizationId userId active.webauthn id
          assertion).subset.mono (fun _ _ h => h) fun h' o hread method ho => ?_
        obtain ⟨hsub, hfound⟩ := hread
        obtain ⟨rfl, c, hc, t, challenge, passkey, result, ht, hconsumed, hresult, hpasskey,
          hupdate⟩ := hfound method ho
        have hlisted := ListedActive.of_mem (h := h') (hsub (.head _)) hc
        exact ⟨c, id, assertion, t, challenge, passkey, result, hlisted, hid, hassertion, ht,
          hconsumed, hresult, hpasskey, hupdate⟩
      have hcaught : ((verifyWebauthnAssertion P state organizationId userId active.webauthn id
          assertion).tryCatch fun error => do
            recordRateLimitFailure policy keys
            throw error).Sat (fun _ _ => True) (fun h o => ∀ method, o = .ok method →
              FactorVerified P state h submitted organizationId userId method) read :=
        hverify.tryCatch (fun _ _ hok => hok) fun h' error _ =>
          (sat_recordAndThrow policy keys error).mono (fun _ _ h => h)
            fun _ _ hno a ha => absurd ha (hno a)
      refine hcaught.bind (fun h' method hfactor => ?_) fun _ _ _ _ => by rintro ⟨⟩
      rintro _ ⟨⟩
      exact ⟨fun m hm => Option.some.inj hm ▸ hfactor method rfl, .of_isSome rfl⟩
    case _ =>
      split
      · exact (Sat.trivial (mfaRequiredResponse P state organizationId userId active)).bind
          (fun _ _ _ _ => (by rintro ⟨⟩)) fun _ _ _ _ => by rintro ⟨⟩
      case _ code hcode =>
        refine (sat_verifyMfaCodeAgainstCredentials active.totp active.recoveryCodes
          code).subset.bind (fun h' method hread => ?_) fun _ _ _ _ => by rintro ⟨⟩
        obtain ⟨hsub, hfound⟩ := hread
        refine sat_when_bind (fun _ => ?_) fun hsome => ?_
        · exact (sat_recordAndThrow policy keys _).bind (fun _ a hno => absurd rfl (hno a))
            fun _ _ _ _ => by rintro ⟨⟩
        rintro _ ⟨⟩
        refine ⟨fun m hm => ?_, .of_isSome (by simpa [Option.isSome_iff_ne_none] using hsome)⟩
        subst hm
        rcases hfound m rfl with ⟨rfl, c, hc, secret, t, hsecret, ht, hmatch⟩ |
          ⟨rfl, c, hc, t, hhash, hconsumed⟩
        · have hlisted := ListedActive.of_mem (h := h') (hsub (.tail _ (.tail _ (.head _)))) hc
          exact ⟨c, code, secret, t, hlisted, hcode, hsecret, ht, hmatch⟩
        · have hlisted := ListedActive.of_mem (h := h') (hsub (.tail _ (.head _))) hc
          exact ⟨c, code, t, hlisted, hcode, hhash, hconsumed⟩

-- the handlers

/-- The session of `authenticated_session`. -/
def freshSession (id : SessionId) (organizationId : OrganizationId) (userId : UserId)
    (method : Option MfaVerificationMethod) (now : OffsetDateTime) : AuthSession :=
  ⟨id, organizationId, userId, (method.map (·.acr)).getD "urn:cairn:acr:password",
    (method.map (·.amr)).getD ["pwd"], now, now + Duration.hours 12, none⟩

theorem isPlain_identifyingNotification (user : User) (session : AuthSession)
    (context : SessionRequestContext) (now : OffsetDateTime) :
    (identifyingNotification P state user session context now).All fun e => e.isPlain = true := by
  unfold identifyingNotification
  split
  · exact .bind (.bind (.perform rfl) fun _ => .ret _) fun _ => .ret _
  · trivial

section handlers

variable {Ground : List Ev → AuthSession → Prop} {h : List Ev}

theorem sat_insertLoginSession (headers : RequestHeaders) (user : User)
    (method : Option MfaVerificationMethod) (keys : List RateLimitKey) (hh : Unopened h)
    (hground : ∀ l id now, Plain l → ⟨.nowUtc, now⟩ ∈ l →
      Ground (l ++ h) (freshSession id user.organizationId user.id method now)) :
    (insertLoginSession P state headers user method keys).Sat (sessionPre CreatesSession Ground)
      (fun _ _ => True) h := by
  simp only [insertLoginSession, authenticatedSession, nowUtc, newV4, perform_bind, call_bind,
    pure_eq, ret_bind]
  refine ⟨.inl rfl, fun now => ⟨.inl rfl, fun id => ?_⟩⟩
  refine sat_plain_bind (isPlain_identifyingNotification ..) (Sat.trivial _) fun l _ hl _ => ?_
  refine sat_db_bind (.inr ⟨_, rfl, ⟨_, _, rfl⟩, ?_, ?_⟩) (fun _ => ?_) fun _ => trivial
  · simp [hl.unopened, hh, Call.opens]
  · have hplain : Plain (l ++ [⟨.newV4, id⟩, ⟨.nowUtc, now⟩]) := by
      simpa using ⟨hl, rfl, rfl⟩
    have := hground _ id now hplain (by simp)
    rwa [List.append_assoc] at this
  · exact sat_of_keepsSessions (.bind (all_app_db rfl) fun _ => .bind (all_app_db rfl) fun _ =>
      .bind ((isPlain_insertAuditEvent _).mono fun _ => Call.keepsSessions_of_isPlain) fun _ => .ret _)

theorem sat_replaceSession (headers : RequestHeaders) (current : AuthSession)
    (method : Option MfaVerificationMethod) (keys : List RateLimitKey) (hh : Unopened h)
    (hground : ∀ l id now, Plain l → ⟨.nowUtc, now⟩ ∈ l →
      Ground (l ++ h) (freshSession id current.organizationId current.userId method now)) :
    (replaceSession headers current method keys).Sat (sessionPre ReplacesSession Ground)
      (fun _ _ => True) h := by
  refine ⟨.inl rfl, fun now => ⟨.inl rfl, fun id => ?_⟩⟩
  refine sat_db_bind (.inr ⟨_, rfl, ⟨_, _, rfl⟩, ?_, ?_⟩) (fun _ => ?_) fun _ => trivial
  · simp [hh, Call.opens]
  · have hplain : Plain [⟨.newV4, id⟩, ⟨.nowUtc, now⟩] := by
      simpa using ⟨rfl, rfl⟩
    exact hground _ id now hplain (by simp)
  · exact sat_of_keepsSessions (.bind (all_app_db rfl) fun _ => .bind (all_app_db rfl) fun _ =>
      .bind ((isPlain_insertAuditEvent _).mono fun _ => Call.keepsSessions_of_isPlain) fun _ => .ret _)

end handlers

/-- What a sign-in with a verified password and factor establishes. -/
theorem SignInGround.of_verified {l h : List Ev} {password : String} {submitted : SubmittedMfa}
    {id : SessionId} {organizationId : OrganizationId} {userId : UserId}
    {method : Option MfaVerificationMethod} {now : OffsetDateTime}
    (hpassword : PasswordVerified P h password organizationId userId)
    (hfactor : ∀ m ∈ method, FactorVerified P state h submitted organizationId userId m)
    (hrequired : FactorRequired h organizationId userId method) (hl : Plain l)
    (hnow : ⟨.nowUtc, now⟩ ∈ l) :
    SignInGround P state (l ++ h) password submitted
      (freshSession id organizationId userId method now) := by
  have hsub : h ⊆ l ++ h := List.subset_append_right l h
  refine ⟨hpassword.mono hsub, rfl, method, ?_, hrequired.append hl⟩
  exact
    { createdAt := List.mem_append_left _ hnow
      acr := rfl
      amr := rfl
      factor := fun m hm => (hfactor m hm).mono hsub }

theorem sat_login (headers : RequestHeaders) (request : LoginRequest) :
    (login P state headers request).Sat (sessionPre CreatesSession fun h =>
        SignInGround P state h request.password request.mfa.submitted)
      (fun _ _ => True) [] := by
  unfold login
  refine sat_plain_bind (all_requireCsrf headers) (Sat.trivial _) fun l₁ _ hl₁ _ => ?_
  generalize (normalizeEmail request.email).mapError ApiError.ofDomain = normalized
  cases normalized with
  | error error => trivial
  | ok email =>
    simp only [Prog.ofExcept, ret_bind]
    refine sat_plain_bind (isPlain_enforceRateLimit _) (Sat.trivial _) fun l₂ _ hl₂ _ => ?_
    refine sat_plain_bind (isPlain_verifyLoginCredentials ..) (sat_verifyLoginCredentials ..)
      fun l₃ user hl₃ hpassword => ?_
    refine sat_plain_bind (isPlain_enforceRateLimit _) (Sat.trivial _) fun l₄ _ hl₄ _ => ?_
    have hplain : Plain (l₄ ++ (l₃ ++ (l₂ ++ (l₁ ++ [])))) := by simp [hl₁, hl₂, hl₃, hl₄]
    have hpassword := (hpassword user rfl).mono (List.subset_append_right l₄ _)
    generalize l₄ ++ (l₃ ++ (l₂ ++ (l₁ ++ []))) = h at hplain hpassword
    refine sat_part_bind (keepsSessions_verifySubmittedMfa ..)
      (sat_verifySubmittedMfa _ _ _ _ _ fun ev hev => Call.isFactorRead_of_isPlain (hplain ev hev))
      fun l₅ verification hl₅ hverified => ?_
    cases verification with
    | required body => trivial
    | verified method =>
      obtain ⟨hfactor, hrequired⟩ := hverified method rfl
      refine sat_insertLoginSession headers user method _ ?_ fun l id now hl hnow => ?_
      · exact unopened_append.mpr ⟨hl₅, hplain.unopened⟩
      · exact .of_verified (hpassword.mono (List.subset_append_right l₅ h)) hfactor hrequired hl
          hnow

theorem sat_reauthenticate (headers : RequestHeaders) (request : ReauthenticateRequest) :
    (reauthenticate P state headers request).Sat (sessionPre ReplacesSession fun h =>
        SignInGround P state h request.password request.mfa.submitted)
      (fun _ _ => True) [] := by
  unfold reauthenticate
  refine sat_plain_bind (isPlain_requireSession headers) (Sat.trivial _) fun l₁ current hl₁ _ => ?_
  refine sat_plain_bind (all_requireCsrf headers) (Sat.trivial _) fun l₂ _ hl₂ _ => ?_
  refine sat_plain_bind (isPlain_enforceRateLimit _) (Sat.trivial _) fun l₃ _ hl₃ _ => ?_
  refine sat_plain_bind (isPlain_verifySessionPassword ..) (sat_verifySessionPassword ..)
    fun l₄ found hl₄ hpassword => ?_
  have hplain : Plain (l₄ ++ (l₃ ++ (l₂ ++ (l₁ ++ [])))) := by simp [hl₁, hl₂, hl₃, hl₄]
  have hpassword := hpassword found rfl
  generalize l₄ ++ (l₃ ++ (l₂ ++ (l₁ ++ []))) = h at hplain hpassword
  refine sat_part_bind (keepsSessions_verifySubmittedMfa ..)
    (sat_verifySubmittedMfa _ _ _ _ _ fun ev hev => Call.isFactorRead_of_isPlain (hplain ev hev))
    fun l₅ verification hl₅ hverified => ?_
  cases verification with
  | required body => trivial
  | verified method =>
    obtain ⟨hfactor, hrequired⟩ := hverified method rfl
    refine sat_replaceSession headers current method _ ?_ fun l id now hl hnow => ?_
    · exact unopened_append.mpr ⟨hl₅, hplain.unopened⟩
    · exact .of_verified (hpassword.mono (List.subset_append_right l₅ h)) hfactor hrequired hl hnow

theorem keepsSessions_activeSecondFactorCount (organizationId : OrganizationId)
    (userId : UserId) :
    (activeSecondFactorCount organizationId userId).All fun e => e.keepsSessions = true :=
  .bind (.bind (all_app_db rfl) fun _ => .ret _) fun _ =>
    .bind (.bind (all_app_db rfl) fun _ => .ret _) fun _ => .ret _

theorem sat_applyPasswordChange {Ground : List Ev → AuthSession → Prop} {h : List Ev}
    (headers : RequestHeaders) (current newSession : AuthSession) (user : User)
    (newPasswordHash : String) (keys : List RateLimitKey) (now : OffsetDateTime) (hh : Unopened h)
    (hground : ∀ l, Ground (l ++ h) newSession) :
    (applyPasswordChange P state headers current newSession user newPasswordHash keys now).Sat
      (sessionPre ChangesPassword Ground) (fun _ _ => True) h := by
  simp only [applyPasswordChange, passwordChangeNotificationEmail, newV4, perform_bind, call_bind,
    pure_eq, ret_bind]
  refine ⟨.inl rfl, fun id => ?_⟩
  refine sat_db_bind (.inr ⟨_, rfl, ⟨_, rfl, rfl⟩, ?_, hground [_]⟩) (fun changed => ?_)
    fun _ => trivial
  · simp [hh, Call.opens]
  · split
    · exact sat_of_keepsSessions (.bind (all_app_db rfl) fun _ =>
        .bind ((isPlain_insertAuditEvent _).mono fun _ => Call.keepsSessions_of_isPlain) fun _ => .ret _)
    · trivial

theorem sat_recentMfaProof {c : Prop} [Decidable c] (session : AuthSession) (now : OffsetDateTime)
    {h : List Ev} :
    (Prog.when c (requireRecentMfaProof session now)).Sat (fun _ _ => True)
      (fun _ o => o = .ok () → c → now ≤ session.createdAt + mfaDestructiveActionMaxAge) h := by
  unfold Prog.when requireRecentMfaProof
  split
  · rw [← bind_ret (Prog.failIf _ _)]
    refine sat_when_bind (fun _ => nofun) fun hrecent _ _ => ?_
    exact not_lt.mp fun hlt => hrecent (.inr hlt)
  case _ hc => exact fun _ h => absurd h hc

theorem isPlain_hashPassword (password : String) :
    (hashPassword password).All fun e => e.isPlain = true := by
  refine .bind (.perform rfl) fun hash => ?_
  split <;> trivial

theorem sat_changePassword (headers : RequestHeaders) (request : ChangePasswordRequest) :
    (changePassword P state headers request).Sat (sessionPre ChangesPassword fun h =>
        PasswordChangeGround P state h request.currentPassword)
      (fun _ _ => True) [] := by
  unfold changePassword
  refine sat_plain_bind (isPlain_requireSession headers) sat_requireSession
    fun l₁ current hl₁ hchecked => ?_
  obtain ⟨_, sessionId, -, -, hread⟩ := (hchecked current rfl).session_read
  refine sat_plain_bind (all_requireCsrf headers) (Sat.trivial _) fun l₂ _ hl₂ _ => ?_
  refine sat_plain_bind (isPlain_enforceRateLimit _) (Sat.trivial _) fun l₃ _ hl₃ _ => ?_
  refine sat_plain_bind (isPlain_verifySessionPassword ..) (sat_verifySessionPassword ..)
    fun l₄ verified hl₄ hpassword => ?_
  obtain ⟨user, passwordHash⟩ := verified
  have hplain : Plain (l₄ ++ (l₃ ++ (l₂ ++ (l₁ ++ [])))) := by simp [hl₁, hl₂, hl₃, hl₄]
  have hpassword := hpassword _ rfl
  have hread : ⟨.db (.getAuthSession sessionId), .ok (some current)⟩ ∈
      l₄ ++ (l₃ ++ (l₂ ++ (l₁ ++ []))) := by simp_all
  generalize l₄ ++ (l₃ ++ (l₂ ++ (l₁ ++ []))) = h at hplain hpassword hread
  simp only [nowUtc, perform_bind]
  refine ⟨.inl rfl, fun now => ?_⟩
  refine sat_part_bind (keepsSessions_activeSecondFactorCount ..) (Sat.trivial _)
    fun l₅ secondFactors hl₅ _ => ?_
  refine sat_plain_bind (.when (.when (.fail _))) (sat_recentMfaProof current now)
    fun l₆ _ hl₆ hrecent => ?_
  generalize validNewPassword request.newPassword = validated
  cases validated with
  | error error => trivial
  | ok newPassword =>
    simp only [Prog.ofExcept, ret_bind]
    refine sat_when_bind (fun _ => trivial) fun _ => ?_
    refine sat_plain_bind (isPlain_hashPassword newPassword) (Sat.trivial _) fun l₇ hash hl₇ _ => ?_
    have hsub : h ⊆ l₇ ++ (l₆ ++ (l₅ ++ (⟨.nowUtc, now⟩ :: h))) := fun ev hev => by simp [hev]
    have hopen : Unopened (l₇ ++ (l₆ ++ (l₅ ++ (⟨.nowUtc, now⟩ :: h)))) := by
      simp [hl₇.unopened, hl₆.unopened, show Unopened l₅ from hl₅, hplain.unopened, Call.opens]
    have hnow : (⟨.nowUtc, now⟩ : Ev) ∈ l₇ ++ (l₆ ++ (l₅ ++ (⟨.nowUtc, now⟩ :: h))) := by simp
    generalize l₇ ++ (l₆ ++ (l₅ ++ (⟨.nowUtc, now⟩ :: h))) = h' at hsub hopen hnow
    simp only [changedPasswordSession]
    split
    case _ hfactors =>
      simp only [rotatedSessionPreservingAuthContext, newV4, perform_bind, call_bind, pure_eq,
        ret_bind]
      refine ⟨.inl rfl, fun id => sat_applyPasswordChange _ _ _ _ _ _ _ ?_ ?_⟩
      · exact unopened_cons.mpr ⟨rfl, hopen⟩
      · intro l
        refine ⟨hpassword.mono fun ev hev => ?_, .inr ⟨sessionId, current, now, ?_, rfl,
          hrecent rfl (by simpa using hfactors)⟩⟩
        · exact List.mem_append_right l (List.mem_cons_of_mem _ (hsub hev))
        · exact List.mem_append_right l (List.mem_cons_of_mem _ (hsub hread))
    case _ =>
      simp only [authenticatedSession, newV4, perform_bind, call_bind, pure_eq, ret_bind]
      refine ⟨.inl rfl, fun id => sat_applyPasswordChange _ _ _ _ _ _ _ ?_ ?_⟩
      · exact unopened_cons.mpr ⟨rfl, hopen⟩
      · intro l
        refine ⟨hpassword.mono fun ev hev => ?_, .inl ⟨rfl, ?_⟩⟩
        · exact List.mem_append_right l (List.mem_cons_of_mem _ (hsub hev))
        · exact
            { createdAt := List.mem_append_right l (List.mem_cons_of_mem _ hnow)
              acr := rfl
              amr := rfl
              factor := by rintro _ ⟨⟩ }

end CairnId
