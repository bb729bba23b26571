import CairnId.Http.Request
import CairnId.Http.Signing

/-!
# Second factors

`apps/api/src/http/mfa`: which factors a user has, and the verification of what
was submitted with a password.
-/

namespace CairnId

open Concurrency App

def mfaMetadataStatus (credential : MfaCredential) : String :=
  (credential.secretMetadata.text? "status").getD ""

def invalidMfaMetadata : ApiError := .status 500 "invalid MFA metadata"

inductive MfaVerificationMethod where
  | totp
  | recoveryCode
  | webAuthn
  deriving DecidableEq

namespace MfaVerificationMethod

def acr : MfaVerificationMethod → String
  | .totp => "urn:cairn:acr:password+totp"
  | .recoveryCode => "urn:cairn:acr:password+recovery_code"
  | .webAuthn => "urn:cairn:acr:password+webauthn"

def amr : MfaVerificationMethod → List String
  | .totp => ["pwd", "otp"]
  | .recoveryCode => ["pwd", "recovery"]
  | .webAuthn => ["pwd", "mfa", "user"]

end MfaVerificationMethod

/-- A session for a verified password and, if there was one, a second factor. -/
def authenticatedSession (organizationId : OrganizationId) (userId : UserId)
    (mfaMethod : Option MfaVerificationMethod) (now : OffsetDateTime) : App AuthSession := do
  let id ← newV4
  return ⟨id, organizationId, userId, (mfaMethod.map (·.acr)).getD "urn:cairn:acr:password",
    (mfaMethod.map (·.amr)).getD ["pwd"], now, now + Duration.hours 12, none⟩

def rotatedSessionPreservingAuthContext (session : AuthSession) (now : OffsetDateTime) :
    App AuthSession := do
  let id ← newV4
  return { session with id := id, expiresAt := now + Duration.hours 12, revokedAt := none }

def activeCredentialsForUser (organizationId : OrganizationId) (userId : UserId) (kind : MfaKind) :
    App (List MfaCredential) := do
  let credentials ← db (.listMfaCredentials organizationId userId kind)
  return credentials.filter fun c => mfaMetadataStatus c = "active"

def activeSecondFactorCount (organizationId : OrganizationId) (userId : UserId) : App Nat := do
  let totp ← activeCredentialsForUser organizationId userId .totp
  let webauthn ← activeCredentialsForUser organizationId userId .webAuthn
  return totp.length + webauthn.length

structure ActiveMfaCredentials where
  totp : List MfaCredential
  recoveryCodes : List MfaCredential
  webauthn : List MfaCredential

def ActiveMfaCredentials.requiresMfa (active : ActiveMfaCredentials) : Bool :=
  !active.totp.isEmpty || !active.webauthn.isEmpty

def activeMfaCredentialsForUser (organizationId : OrganizationId) (userId : UserId) :
    App ActiveMfaCredentials := do
  let totp ← activeCredentialsForUser organizationId userId .totp
  let recoveryCodes ← activeCredentialsForUser organizationId userId .recoveryCode
  let webauthn ← activeCredentialsForUser organizationId userId .webAuthn
  return ⟨totp, recoveryCodes, webauthn⟩

variable (P : Primitives) (state : AppState)

def requireKeyEncryptionKey : Except ApiError KeyEncryptionKey :=
  match state.config.keyEncryptionKey with
  | some key => .ok key
  | none => .error (.status 428 "CAIRN_KEY_ENCRYPTION_KEY is required for MFA")

def encryptedSecretFromTotpMetadata (credential : MfaCredential) :
    Except ApiError EncryptedSecret := do
  let some ciphertext := credential.secretMetadata.text? "secret_ciphertext"
    | .error invalidMfaMetadata
  let some nonce := credential.secretMetadata.text? "secret_nonce" | .error invalidMfaMetadata
  let some ciphertext := P.base64Decode ciphertext | .error invalidMfaMetadata
  let some nonce := P.base64Decode nonce | .error invalidMfaMetadata
  return ⟨ciphertext, nonce⟩

def totpCredentialAad (organizationId : OrganizationId) (userId : UserId) : String :=
  "cairnid:mfa:totp:" ++ Uuid.hyphenated organizationId ++ ":" ++ Uuid.hyphenated userId

/-- The secret of a credential, as `verify_totp_code` reads it. -/
def totpSecret (credential : MfaCredential) : Except ApiError String := do
  let encryptedSecret ← encryptedSecretFromTotpMetadata P credential
  let key ← requireKeyEncryptionKey state
  match decryptSecret P encryptedSecret key
      (totpCredentialAad credential.organizationId credential.userId) with
  | .ok secret => return secret
  | .error _ => throw (.status 500 "MFA decryption failed")

def verifyTotpCode (credential : MfaCredential) (code : String) : App Bool := do
  let secret ← Prog.ofExcept (totpSecret P state credential)
  let now ← nowUtc
  match P.verifyTotp secret code now with
  | some valid => return valid
  | none => throw (.status 400 "authentication error")

/-- The TOTP loop of `verify_mfa_code_against_credentials`. -/
def verifyTotpCredentials (code : String) : List MfaCredential → App Bool
  | [] => return false
  | credential :: credentials => do
    let valid ← verifyTotpCode P state credential code
    if valid then
      let now ← nowUtc
      db (.markMfaCredentialUsed credential.id now)
      return true
    else verifyTotpCredentials code credentials

def consumeRecoveryCode (code : String) : List MfaCredential → App Bool
  | [] => return false
  | credential :: credentials => do
    let some codeHash := credential.secretMetadata.text? "code_hash" | throw invalidMfaMetadata
    if codeHash = hashToken P code then
      let now ← nowUtc
      db (.consumeActiveRecoveryCode credential.organizationId credential.userId codeHash now)
    else consumeRecoveryCode code credentials

def verifyMfaCodeAgainstCredentials (totp recoveryCodes : List MfaCredential) (code : String) :
    App (Option MfaVerificationMethod) := do
  if ← verifyTotpCredentials P state code totp then return some .totp
  if ← consumeRecoveryCode P code recoveryCodes then return some .recoveryCode
  return none

-- webauthn

def passkeyFromCredential (credential : MfaCredential) : Except ApiError Json :=
  match credential.secretMetadata.get? "passkey" with
  | some passkey => if P.isPasskey passkey then .ok passkey else .error invalidMfaMetadata
  | none => .error invalidMfaMetadata

def passkeysFromCredentials : List MfaCredential → Except ApiError (List Json)
  | [] => .ok []
  | credential :: credentials => do
    let passkey ← passkeyFromCredential P credential
    let passkeys ← passkeysFromCredentials credentials
    return passkey :: passkeys

/-- `webauthn(state)?`. -/
def requireWebauthn : App Unit :=
  Prog.failIf (!P.webauthnOrigin state.config.publicWebOrigin) (.status 400 "authentication error")

def startWebauthnAuthenticationChallenge (organizationId : OrganizationId) (userId : UserId)
    (credentials : List MfaCredential) : App Json := do
  let passkeys ← Prog.ofExcept (passkeysFromCredentials P credentials)
  requireWebauthn P state
  let some (options, authenticationState) ← Prog.perform (Call.startPasskeyAuthentication passkeys)
    | throw (.status 400 "passkey authentication could not start")
  let now ← nowUtc
  let id ← newV4
  db (.insertWebauthnChallenge
    ⟨id, organizationId, userId, .authentication, authenticationState, now, now + Duration.minutes 5, none⟩)
  return .object [("challenge_id", .string (Uuid.hyphenated id)), ("options", options)]

def webauthnPasskeyMetadataJson (status : String) (passkey : Json) : Json :=
  .object [("status", .string status), ("credential_id", .string (P.passkeyCredentialId passkey)),
    ("passkey", passkey)]

/-- The loop of `verify_webauthn_assertion` over the user's passkeys. -/
def updateAssertedPasskey (result : Json) (now : OffsetDateTime) :
    List MfaCredential → App MfaVerificationMethod
  | [] => throw (.status 401 "unknown passkey credential")
  | credential :: credentials => do
    let passkey ← Prog.ofExcept (passkeyFromCredential P credential)
    match P.updateCredential passkey result with
    | none => updateAssertedPasskey result now credentials
    | some (true, updated) =>
      db (.updateMfaCredentialMetadata credential.id
        (webauthnPasskeyMetadataJson P "active" updated) (some now))
      return .webAuthn
    | some (false, _) =>
      db (.markMfaCredentialUsed credential.id now)
      return .webAuthn

def verifyWebauthnAssertion (organizationId : OrganizationId) (userId : UserId)
    (credentials : List MfaCredential) (challengeId : Uuid) (assertion : Json) :
    App MfaVerificationMethod := do
  Prog.failIf credentials.isEmpty (.status 401 "passkey is not enabled")
  let now ← nowUtc
  let some challenge ←
      db (.consumeWebauthnChallenge challengeId organizationId userId .authentication now)
    | throw (.status 400 "invalid or expired passkey challenge")
  requireWebauthn P state
  let some result := P.finishPasskeyAuthentication assertion challenge.state
    | throw (.status 401 "invalid passkey assertion")
  updateAssertedPasskey P result now credentials

/-- The answer that asks for a second factor. -/
def mfaRequiredResponse (organizationId : OrganizationId) (userId : UserId)
    (active : ActiveMfaCredentials) : App Json := do
  let methods : List Json :=
    (if active.webauthn.isEmpty then [] else [.string "webauthn"]) ++
      (if active.totp.isEmpty then [] else [.string "totp"]) ++
      (if active.recoveryCodes.isEmpty then [] else [.string "recovery_code"])
  let webauthn ← (if active.webauthn.isEmpty then pure .null
    else startWebauthnAuthenticationChallenge P state organizationId userId active.webauthn)
  return .object [("status", .string "mfa_required"), ("methods", .array methods),
    ("webauthn", webauthn)]

structure SubmittedMfa where
  code : Option String
  webauthnChallengeId : Option Uuid
  webauthnCredential : Option Json

inductive MfaVerification where
  | verified (method : Option MfaVerificationMethod)
  | required (response : Json)

def verifySubmittedMfa (organizationId : OrganizationId) (userId : UserId)
    (submitted : SubmittedMfa) (keys : List RateLimitKey) (policy : RateLimitPolicy) :
    App MfaVerification := do
  let active ← activeMfaCredentialsForUser organizationId userId
  if !active.requiresMfa then return .verified none
  match submitted.webauthnChallengeId, submitted.webauthnCredential with
  | some challengeId, some assertion =>
    let method ← (verifyWebauthnAssertion P state organizationId userId active.webauthn challengeId
      assertion).tryCatch fun error => do
        recordRateLimitFailure policy keys
        throw error
    return .verified (some method)
  | _, _ => match submitted.code with
    | none => return .required (← mfaRequiredResponse P state organizationId userId active)
    | some code =>
      let method ←
        verifyMfaCodeAgainstCredentials P state active.totp active.recoveryCodes code
      Prog.when method.isNone do
        recordRateLimitFailure policy keys
        throw (.status 401 "invalid MFA credential")
      return .verified method

end CairnId
