import CairnId.Http.Mfa
import CairnId.Http.RequestSpec
import CairnId.Paging.Base64

/-!
# Managing second factors

`apps/api/src/http/mfa_routes`: enrolling and confirming factors, revoking them, and
new recovery codes. The answers are their JSON bodies.
-/

namespace CairnId

open Concurrency App

/-- `From<OidcError>`. -/
def ApiError.ofOidc (_ : OidcError) : ApiError := .status 500 "OIDC operation failed"

def requireRecentAuthentication (session : AuthSession) (now : OffsetDateTime) : App Unit :=
  Prog.failIf (session.createdAt + mfaDestructiveActionMaxAge < now)
    (.status 403 "fresh authentication required")

def requireRecentEnrollmentAuthentication (session : AuthSession) (now : OffsetDateTime) :
    App Unit := do
  let secondFactors ← activeSecondFactorCount session.organizationId session.userId
  if 0 < secondFactors then requireRecentMfaProof session now
  else requireRecentAuthentication session now

/-- `generate_recovery_codes`: ten codes of twelve bytes. -/
def generateRecoveryCodes : App (List String) :=
  Prog.traverse (fun _ => Prog.perform (Call.generateSecret 12)) (List.range 10)

def recoveryCodeMetadataJson (status codeHash : String) : Json :=
  .object [("status", .string status), ("code_hash", .string codeHash)]

def base64Encode (bytes : Bytes) : String := String.ofList (Base64.encode bytes)

def totpMetadataJson (status : String) (encryptedSecret : EncryptedSecret) : Json :=
  .object [("status", .string status), ("algorithm", .string "SHA1"), ("digits", .number 6),
    ("period", .number 30), ("secret_ciphertext", .string (base64Encode encryptedSecret.ciphertext)),
    ("secret_nonce", .string (base64Encode encryptedSecret.nonce))]

/-- A label that was sent and is not blank. -/
def chosenLabel (label : Option String) (default : String) : String :=
  (label.filter fun value => trim value ≠ "").getD default

variable (P : Primitives) (state : AppState)

def storeRecoveryCodes (session : AuthSession) (instant : OffsetDateTime) : List String → App Unit
  | [] => return ()
  | code :: codes => do
    let id ← newV4
    db (.createMfaCredential ⟨id, session.organizationId, session.userId, .recoveryCode,
      "Recovery code", recoveryCodeMetadataJson "active" (hashToken P code), instant, none⟩)
    storeRecoveryCodes session instant codes

/-- The new codes, and how many were revoked. -/
def replaceRecoveryCodesForSession (session : AuthSession) (instant : OffsetDateTime) :
    App (List String × ℕ) := do
  let recoveryCodes ← generateRecoveryCodes
  let recoveryCodesRevoked ← db (.revokeActiveMfaCredentialsByKind session.organizationId
    session.userId .recoveryCode instant)
  storeRecoveryCodes P session instant recoveryCodes
  return (recoveryCodes, recoveryCodesRevoked)

def insertMfaAuditEvent (session : AuthSession) (action target : String) (metadata : Json) :
    App Unit :=
  insertAuditEvent ((AuditEventBuilder.user session.organizationId session.userId action
    target).withMetadata metadata)

-- TOTP

def startTotpMfa (headers : RequestHeaders) (label : Option String) : App Json := do
  let session ← requireSession P state headers
  requireCsrf headers
  let now ← nowUtc
  requireRecentEnrollmentAuthentication session now
  let some user ← db (.getUser session.userId) | throw (.status 401 "user missing")
  let key ← Prog.ofExcept (requireKeyEncryptionKey state)
  let secret ← Prog.perform (Call.generateSecret 20)
  let some (url, base32) := P.totpProfile user.email secret
    | throw (.status 400 "authentication error")
  let encryptedSecret ← (encryptSecret P secret key
    (totpCredentialAad session.organizationId session.userId)).mapError ApiError.ofOidc
  let id ← newV4
  db (.createMfaCredential ⟨id, session.organizationId, session.userId, .totp,
    chosenLabel label "Authenticator app", totpMetadataJson "pending" encryptedSecret, now, none⟩)
  insertMfaAuditEvent session "mfa.totp_enrollment_started" (Uuid.hyphenated id) (.object [])
  return .object [("credential_id", .string (Uuid.hyphenated id)), ("otpauth_url", .string url),
    ("secret_base32", .string base32)]

structure ConfirmTotpMfaRequest where
  credentialId : Uuid
  code : String

/-- The enrollment that a confirmation names, while it lasts. -/
def pendingTotpEnrollment (session : AuthSession) (credentialId : Uuid) (now : OffsetDateTime) :
    App MfaCredential := do
  let credentials ← db (.listMfaCredentials session.organizationId session.userId .totp)
  let some credential := credentials.find? fun credential =>
      credential.id = credentialId ∧ mfaMetadataStatus credential = "pending"
    | throw (.status 400 "unknown pending TOTP enrollment")
  Prog.failIf (credential.createdAt + Duration.minutes 10 < now)
    (.status 400 "expired pending TOTP enrollment")
  return credential

def confirmTotpMfa (headers : RequestHeaders) (request : ConfirmTotpMfaRequest) : App Json := do
  let session ← requireSession P state headers
  requireCsrf headers
  let now ← nowUtc
  requireRecentEnrollmentAuthentication session now
  let credential ← pendingTotpEnrollment session request.credentialId now
  let valid ← verifyTotpCode P state credential request.code
  Prog.failIf (!valid) (.status 401 "invalid TOTP code")
  let encryptedSecret ← Prog.ofExcept (encryptedSecretFromTotpMetadata P credential)
  db (.updateMfaCredentialMetadata credential.id (totpMetadataJson "active" encryptedSecret)
    (some now))
  let (recoveryCodes, recoveryCodesRevoked) ← replaceRecoveryCodesForSession P session now
  insertMfaAuditEvent session "mfa.totp_enabled" (Uuid.hyphenated credential.id)
    (.object [("recovery_codes_revoked", .number recoveryCodesRevoked)])
  return .object [("status", .string "enabled"),
    ("recovery_codes", .array (recoveryCodes.map .string))]

-- webauthn

def startWebauthnMfa (headers : RequestHeaders) (label : Option String) : App Json := do
  let session ← requireSession P state headers
  requireCsrf headers
  let now ← nowUtc
  requireRecentEnrollmentAuthentication session now
  let some user ← db (.getUser session.userId) | throw (.status 401 "user missing")
  let activeCredentials ←
    activeCredentialsForUser session.organizationId session.userId .webAuthn
  let passkeys ← Prog.ofExcept (passkeysFromCredentials P activeCredentials)
  requireWebauthn P state
  let some (options, registrationState) ← Prog.perform (Call.startPasskeyRegistration
      session.userId user.email user.displayName (passkeys.map P.passkeyCredentialId))
    | throw (.status 400 "passkey registration could not start")
  let id ← newV4
  db (.insertWebauthnChallenge ⟨id, session.organizationId, session.userId, .registration,
    registrationState, now, now + Duration.minutes 5, none⟩)
  insertMfaAuditEvent session "mfa.webauthn_enrollment_started" (Uuid.hyphenated id) (.object [])
  return .object [("challenge_id", .string (Uuid.hyphenated id)), ("options", options),
    ("label", .string (label.getD "Passkey"))]

structure FinishWebAuthnMfaRequest where
  challengeId : Uuid
  credential : Json
  label : Option String

def finishWebauthnMfa (headers : RequestHeaders) (request : FinishWebAuthnMfaRequest) :
    App Json := do
  let session ← requireSession P state headers
  requireCsrf headers
  let now ← nowUtc
  requireRecentEnrollmentAuthentication session now
  let some challenge ← db (.consumeWebauthnChallenge request.challengeId session.organizationId
      session.userId .registration now)
    | throw (.status 400 "invalid or expired passkey challenge")
  requireWebauthn P state
  let some passkey := P.finishPasskeyRegistration request.credential challenge.state
    | throw (.status 401 "invalid passkey registration")
  let credentialId := P.passkeyCredentialId passkey
  let registered ←
    db (.findActiveWebauthnCredentialByCredentialId session.organizationId credentialId)
  Prog.failIf registered.isSome (.status 409 "passkey is already registered")
  let id ← newV4
  db (.createMfaCredential ⟨id, session.organizationId, session.userId, .webAuthn,
    chosenLabel request.label "Passkey", webauthnPasskeyMetadataJson P "active" passkey, now, none⟩)
  insertMfaAuditEvent session "mfa.webauthn_enabled" (Uuid.hyphenated id)
    (.object [("credential_id", .string credentialId)])
  return .object [("status", .string "enabled"), ("credential_id", .string (Uuid.hyphenated id)),
    ("label", .string (chosenLabel request.label "Passkey"))]

-- management

def MfaKind.text : MfaKind → String
  | .totp => "totp"
  | .webAuthn => "web_authn"
  | .recoveryCode => "recovery_code"

/-- Without another factor the recovery codes go too. -/
def revokeUnneededRecoveryCodes (session : AuthSession) (now : OffsetDateTime) : App ℕ := do
  let secondFactors ← activeSecondFactorCount session.organizationId session.userId
  if secondFactors = 0 then
    db (.revokeActiveMfaCredentialsByKind session.organizationId session.userId .recoveryCode now)
  else return 0

def revokeSessionMfaCredential (headers : RequestHeaders) (credentialId : Uuid) : App Json := do
  let session ← requireSession P state headers
  requireCsrf headers
  let now ← nowUtc
  requireRecentMfaProof session now
  let some revoked ←
      db (.revokeMfaCredential session.organizationId session.userId credentialId now)
    | throw (.status 404 "MFA credential not found")
  let recoveryCodesRevoked ← revokeUnneededRecoveryCodes session now
  insertMfaAuditEvent session "mfa.credential_revoked" (Uuid.hyphenated revoked.id)
    (.object [("kind", .string revoked.kind.text), ("label", .string revoked.label),
      ("recovery_codes_revoked", .number recoveryCodesRevoked)])
  return .object [("id", .string (Uuid.hyphenated revoked.id)), ("kind", .string revoked.kind.text),
    ("label", .string revoked.label), ("status", .string (mfaMetadataStatus revoked)),
    ("created_at", .string (P.formatRfc3339 revoked.createdAt)),
    ("last_used_at", .ofText? (revoked.lastUsedAt.map P.formatRfc3339))]

def regenerateSessionRecoveryCodes (headers : RequestHeaders) : App Json := do
  let session ← requireSession P state headers
  requireCsrf headers
  let now ← nowUtc
  requireRecentMfaProof session now
  let secondFactors ← activeSecondFactorCount session.organizationId session.userId
  Prog.failIf (secondFactors = 0) (.status 409 "active MFA credential required")
  let (recoveryCodes, recoveryCodesRevoked) ← replaceRecoveryCodesForSession P session now
  insertMfaAuditEvent session "mfa.recovery_codes_regenerated" (Uuid.hyphenated session.userId)
    (.object [("recovery_codes_issued", .number recoveryCodes.length),
      ("recovery_codes_revoked", .number recoveryCodesRevoked)])
  return .object [("status", .string "regenerated"),
    ("recovery_codes", .array (recoveryCodes.map .string))]

end CairnId
