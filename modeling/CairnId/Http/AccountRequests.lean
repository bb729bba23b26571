import CairnId.Http.LoginSpec
import CairnId.Http.LogoutSpec
import CairnId.Http.MfaManagement

/-!
# The requests that sign in, sign out and manage factors

As one family, so that any of them can be interleaved.
-/

namespace CairnId

open Concurrency Prog App

inductive AccountRequest where
  | login (headers : RequestHeaders) (request : LoginRequest)
  | reauthenticate (headers : RequestHeaders) (request : ReauthenticateRequest)
  | changePassword (headers : RequestHeaders) (request : ChangePasswordRequest)
  | logout (headers : RequestHeaders)
  | endSession (headers : RequestHeaders) (request : EndSessionRequest)
  | revokeOwnBrowserSession (headers : RequestHeaders) (sessionId : SessionId)
  | revokeAdminUserBrowserSession (headers : RequestHeaders) (userId : UserId)
      (sessionId : SessionId)
  | startTotpMfa (headers : RequestHeaders) (label : Option String)
  | confirmTotpMfa (headers : RequestHeaders) (request : ConfirmTotpMfaRequest)
  | startWebauthnMfa (headers : RequestHeaders) (label : Option String)
  | finishWebauthnMfa (headers : RequestHeaders) (request : FinishWebAuthnMfaRequest)
  | revokeSessionMfaCredential (headers : RequestHeaders) (credentialId : Uuid)
  | regenerateSessionRecoveryCodes (headers : RequestHeaders)

inductive AccountAnswer where
  | auth (response : AuthResponse)
  | logout (response : LogoutResponse)
  | revoked (sessionId : SessionId)
  | body (json : Json)

variable (P : Primitives) (state : AppState)

def AccountRequest.handler : AccountRequest → App AccountAnswer
  | .login headers request => do return .auth (← CairnId.login P state headers request)
  | .reauthenticate headers request => do
    return .auth (← CairnId.reauthenticate P state headers request)
  | .changePassword headers request => do
    return .auth (← CairnId.changePassword P state headers request)
  | .logout headers => do return .logout (← CairnId.logout P state headers)
  | .endSession headers request => do
    return .logout (← endSessionResponse P state headers request)
  | .revokeOwnBrowserSession headers sessionId => do
    return .revoked (← CairnId.revokeOwnBrowserSession P state headers sessionId)
  | .revokeAdminUserBrowserSession headers userId sessionId => do
    return .revoked (← CairnId.revokeAdminUserBrowserSession P state headers userId sessionId)
  | .startTotpMfa headers label => do return .body (← CairnId.startTotpMfa P state headers label)
  | .confirmTotpMfa headers request => do
    return .body (← CairnId.confirmTotpMfa P state headers request)
  | .startWebauthnMfa headers label => do
    return .body (← CairnId.startWebauthnMfa P state headers label)
  | .finishWebauthnMfa headers request => do
    return .body (← CairnId.finishWebauthnMfa P state headers request)
  | .revokeSessionMfaCredential headers credentialId => do
    return .body (← CairnId.revokeSessionMfaCredential P state headers credentialId)
  | .regenerateSessionRecoveryCodes headers => do
    return .body (← CairnId.regenerateSessionRecoveryCodes P state headers)

abbrev accountMachine : Machine Call Call.Answer AccountRequest World Choice ApiError AccountAnswer :=
  machine P (AccountRequest.handler P state)

variable {P state}

/-- A property of the calls that manage factors. -/
structure FactorCalls (Q : Call → Prop) : Prop where
  quiet : ∀ e : Call, e.isQuiet = true → Q e
  audit : ∀ event, Q (.db (.insertAuditEvent event))
  create : ∀ credential, Q (.db (.createMfaCredential credential))
  update : ∀ id metadata used, Q (.db (.updateMfaCredentialMetadata id metadata used))
  revoke : ∀ organizationId userId id instant,
    Q (.db (.revokeMfaCredential organizationId userId id instant))
  sweep : ∀ organizationId userId kind instant,
    Q (.db (.revokeActiveMfaCredentialsByKind organizationId userId kind instant))
  challenge : ∀ challenge, Q (.db (.insertWebauthnChallenge challenge))
  consume : ∀ id organizationId userId kind instant,
    Q (.db (.consumeWebauthnChallenge id organizationId userId kind instant))

section management

variable {Q : Call → Prop}

theorem all_activeSecondFactorCount_of (hquiet : ∀ e : Call, e.isQuiet = true → Q e)
    (organizationId : OrganizationId) (userId : UserId) :
    (activeSecondFactorCount organizationId userId).All Q :=
  .bind (.bind (all_app_db (hquiet _ rfl)) fun _ => .ret _) fun _ =>
    .bind (.bind (all_app_db (hquiet _ rfl)) fun _ => .ret _) fun _ => .ret _

theorem all_requireRecentEnrollmentAuthentication_of (hquiet : ∀ e : Call, e.isQuiet = true → Q e)
    (session : AuthSession) (now : OffsetDateTime) :
    (requireRecentEnrollmentAuthentication session now).All Q := by
  refine .bind (all_activeSecondFactorCount_of hquiet ..) fun n => ?_
  split
  · exact .when (.fail _)
  · exact .when (.fail _)

variable (hQ : FactorCalls Q) (headers : RequestHeaders)

include hQ

theorem FactorCalls.insertMfaAuditEvent (session : AuthSession) (action target : String)
    (metadata : Json) : (insertMfaAuditEvent session action target metadata).All Q :=
  all_insertAuditEvent_of _ hQ.quiet hQ.audit

theorem FactorCalls.encryptSecret (secret : String) (key : KeyEncryptionKey) (aad : String) :
    ((encryptSecret P secret key aad).mapError ApiError.ofOidc).All Q := by
  refine .mapError (.bind (.perform (hQ.quiet _ rfl)) fun nonce => ?_)
  split <;> trivial

theorem FactorCalls.storeRecoveryCodes (session : AuthSession) (instant : OffsetDateTime)
    (codes : List String) : (storeRecoveryCodes P session instant codes).All Q := by
  induction codes with
  | nil => trivial
  | cons code codes ih =>
    exact .bind (.perform (hQ.quiet _ rfl)) fun _ =>
      .bind (all_app_db (hQ.create _)) fun _ => ih

theorem FactorCalls.replaceRecoveryCodesForSession (session : AuthSession)
    (instant : OffsetDateTime) : (replaceRecoveryCodesForSession P session instant).All Q := by
  refine .bind (.traverse (fun _ => .perform (hQ.quiet _ rfl)) _) fun codes => ?_
  exact .bind (all_app_db (hQ.sweep ..)) fun _ =>
    .bind (hQ.storeRecoveryCodes session instant codes) fun _ => .ret _

theorem FactorCalls.startTotpMfa (label : Option String) :
    (startTotpMfa P state headers label).All Q := by
  refine .bind ((all_requireSession P state headers).mono hQ.quiet) fun session => ?_
  refine .bind (all_requireCsrf headers) fun _ => .bind (.perform (hQ.quiet _ rfl)) fun now => ?_
  refine .bind (all_requireRecentEnrollmentAuthentication_of hQ.quiet ..) fun _ => ?_
  refine .bind (all_app_db (hQ.quiet _ rfl)) fun user => ?_
  split
  · refine .bind (.ofExcept _) fun key => .bind (.perform (hQ.quiet _ rfl)) fun secret => ?_
    split
    · exact .bind (hQ.encryptSecret ..) fun _ => .bind (.perform (hQ.quiet _ rfl)) fun _ =>
        .bind (all_app_db (hQ.create _)) fun _ => .bind (hQ.insertMfaAuditEvent ..) fun _ => .ret _
    · trivial
  · trivial

theorem FactorCalls.pendingTotpEnrollment (session : AuthSession) (credentialId : Uuid)
    (now : OffsetDateTime) : (pendingTotpEnrollment session credentialId now).All Q := by
  refine .bind (all_app_db (hQ.quiet _ rfl)) fun credentials => ?_
  split
  · exact .bind (.when (.fail _)) fun _ => .ret _
  · trivial

theorem FactorCalls.confirmTotpMfa (request : ConfirmTotpMfaRequest) :
    (confirmTotpMfa P state headers request).All Q := by
  refine .bind ((all_requireSession P state headers).mono hQ.quiet) fun session => ?_
  refine .bind (all_requireCsrf headers) fun _ => .bind (.perform (hQ.quiet _ rfl)) fun now => ?_
  refine .bind (all_requireRecentEnrollmentAuthentication_of hQ.quiet ..) fun _ => ?_
  refine .bind (hQ.pendingTotpEnrollment ..) fun credential => ?_
  refine .bind (.bind (.ofExcept _) fun _ => .bind (.perform (hQ.quiet _ rfl)) fun _ => ?_)
    fun valid => .bind (.when (.fail _)) fun _ => ?_
  · split <;> trivial
  exact .bind (.ofExcept _) fun _ => .bind (all_app_db (hQ.update ..)) fun _ =>
    .bind (hQ.replaceRecoveryCodesForSession ..) fun _ =>
    .bind (hQ.insertMfaAuditEvent ..) fun _ => .ret _

theorem FactorCalls.startWebauthnMfa (label : Option String) :
    (startWebauthnMfa P state headers label).All Q := by
  refine .bind ((all_requireSession P state headers).mono hQ.quiet) fun session => ?_
  refine .bind (all_requireCsrf headers) fun _ => .bind (.perform (hQ.quiet _ rfl)) fun now => ?_
  refine .bind (all_requireRecentEnrollmentAuthentication_of hQ.quiet ..) fun _ => ?_
  refine .bind (all_app_db (hQ.quiet _ rfl)) fun user => ?_
  split
  · refine .bind (.bind (all_app_db (hQ.quiet _ rfl)) fun _ => .ret _) fun active =>
      .bind (.ofExcept _) fun passkeys => .bind (.when (.fail _)) fun _ =>
      .bind (.perform (hQ.quiet _ rfl)) fun started => ?_
    split
    · exact .bind (.perform (hQ.quiet _ rfl)) fun _ => .bind (all_app_db (hQ.challenge _)) fun _ =>
        .bind (hQ.insertMfaAuditEvent ..) fun _ => .ret _
    · trivial
  · trivial

theorem FactorCalls.finishWebauthnMfa (request : FinishWebAuthnMfaRequest) :
    (finishWebauthnMfa P state headers request).All Q := by
  refine .bind ((all_requireSession P state headers).mono hQ.quiet) fun session => ?_
  refine .bind (all_requireCsrf headers) fun _ => .bind (.perform (hQ.quiet _ rfl)) fun now => ?_
  refine .bind (all_requireRecentEnrollmentAuthentication_of hQ.quiet ..) fun _ => ?_
  refine .bind (all_app_db (hQ.consume ..)) fun challenge => ?_
  split
  · refine .bind (.when (.fail _)) fun _ => ?_
    split
    · exact .bind (all_app_db (hQ.quiet _ rfl)) fun _ => .bind (.when (.fail _)) fun _ =>
        .bind (.perform (hQ.quiet _ rfl)) fun _ => .bind (all_app_db (hQ.create _)) fun _ =>
        .bind (hQ.insertMfaAuditEvent ..) fun _ => .ret _
    · trivial
  · trivial

theorem FactorCalls.revokeSessionMfaCredential (credentialId : Uuid) :
    (revokeSessionMfaCredential P state headers credentialId).All Q := by
  refine .bind ((all_requireSession P state headers).mono hQ.quiet) fun session => ?_
  refine .bind (all_requireCsrf headers) fun _ => .bind (.perform (hQ.quiet _ rfl)) fun now => ?_
  refine .bind (.when (.fail _)) fun _ => .bind (all_app_db (hQ.revoke ..)) fun revoked => ?_
  split
  · refine .bind (.bind (all_activeSecondFactorCount_of hQ.quiet ..) fun n => ?_) fun _ =>
      .bind (hQ.insertMfaAuditEvent ..) fun _ => .ret _
    split
    · exact all_app_db (hQ.sweep ..)
    · trivial
  · trivial

theorem FactorCalls.regenerateSessionRecoveryCodes :
    (regenerateSessionRecoveryCodes P state headers).All Q := by
  refine .bind ((all_requireSession P state headers).mono hQ.quiet) fun session => ?_
  refine .bind (all_requireCsrf headers) fun _ => .bind (.perform (hQ.quiet _ rfl)) fun now => ?_
  exact .bind (.when (.fail _)) fun _ => .bind (all_activeSecondFactorCount_of hQ.quiet ..) fun _ =>
    .bind (.when (.fail _)) fun _ => .bind (hQ.replaceRecoveryCodesForSession ..) fun _ =>
    .bind (hQ.insertMfaAuditEvent ..) fun _ => .ret _

end management

end CairnId
