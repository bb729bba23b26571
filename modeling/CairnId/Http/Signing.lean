import CairnId.Http.App

/-!
# Signing material

Encryption of secrets under the key-encryption key, and the choice between the
signing keys of the database and the statically configured one.
-/

namespace CairnId

open Concurrency App

structure EncryptedSecret where
  ciphertext : Bytes
  nonce : Bytes

/-- The failures of `crates/oidc` that these functions can report. -/
inductive OidcError where
  | invalidSigningKey
  | signingKeyGeneration
  | signingKeyEncryption
  | signingKeyDecryption
  | secretEncryption
  | secretDecryption
  deriving DecidableEq

/-- The error's `Display` text. -/
def OidcError.text : OidcError → String
  | .invalidSigningKey => "stored signing key is invalid"
  | .signingKeyGeneration => "signing key generation failed"
  | .signingKeyEncryption => "signing key encryption failed"
  | .signingKeyDecryption => "signing key decryption failed"
  | .secretEncryption => "secret encryption failed"
  | .secretDecryption => "secret decryption failed"

/-- The cipher undoes its own encryption, and authenticates key and associated
    data. -/
structure Primitives.Aead (P : Primitives) : Prop where
  decrypt_encrypt : ∀ key nonce aad m c, nonce.length = 12 →
    P.encrypt key nonce aad m = some c → P.decrypt key nonce aad c = some m
  decrypt_other : ∀ key nonce aad m c key' aad', nonce.length = 12 →
    P.encrypt key nonce aad m = some c → (key' ≠ key ∨ aad' ≠ aad) →
      P.decrypt key' nonce aad' c = none

variable (P : Primitives)

def decryptSecret (encrypted : EncryptedSecret) (key : KeyEncryptionKey) (aad : String) :
    Except OidcError String :=
  if encrypted.nonce.length ≠ 12 then .error .secretDecryption
  else match P.decrypt key encrypted.nonce aad encrypted.ciphertext with
    | some plaintext => .ok plaintext
    | none => .error .secretDecryption

/-- Text that does not decode as UTF-8 is `InvalidSigningKey` in the source; here
    it is one with the failed decryption. -/
def decryptSigningPrivateKeyPem (stored : SigningKeyMaterial) (key : KeyEncryptionKey) :
    Except OidcError String :=
  if stored.privateKeyNonce.length ≠ 12 then .error .invalidSigningKey
  else match P.decrypt key stored.privateKeyNonce (signingKeyAad stored.kid)
      stored.privateKeyCiphertext with
    | some pem => .ok pem
    | none => .error .signingKeyDecryption

def decryptSigningMaterial (stored : SigningKeyMaterial) (key : KeyEncryptionKey) :
    Except OidcError SigningMaterial := do
  if stored.algorithm ≠ "RS256" || stored.retiredAt.isSome then throw .invalidSigningKey
  let pem ← decryptSigningPrivateKeyPem P stored key
  return ⟨stored.kid, pem, stored.publicJwk⟩

variable {P} in
theorem decryptSigningMaterial_eq_ok {stored : SigningKeyMaterial} {key : KeyEncryptionKey}
    {m : SigningMaterial} (h : decryptSigningMaterial P stored key = .ok m) :
    m.keyId = stored.kid ∧ m.publicJwk = stored.publicJwk ∧
      P.decrypt key stored.privateKeyNonce (signingKeyAad stored.kid) stored.privateKeyCiphertext =
        some m.privateKeyPem := by
  unfold decryptSigningMaterial at h
  split at h
  · cases h
  · cases hpem : decryptSigningPrivateKeyPem P stored key with
    | error e =>
      rw [hpem] at h
      cases h
    | ok pem =>
      rw [hpem] at h
      cases h
      refine ⟨rfl, rfl, ?_⟩
      unfold decryptSigningPrivateKeyPem at hpem
      split at hpem
      · cases hpem
      · split at hpem <;> cases hpem
        assumption

def encryptSecret (secret : String) (key : KeyEncryptionKey) (aad : String) :
    Prog Call Call.Answer OidcError EncryptedSecret := do
  let nonce ← Prog.perform Call.generateNonce
  match P.encrypt key nonce aad secret with
  | some ciphertext => return ⟨ciphertext, nonce⟩
  | none => throw .secretEncryption

def encryptSigningMaterial (signing : SigningMaterial) (key : KeyEncryptionKey) :
    Prog Call Call.Answer OidcError SigningKeyMaterial := do
  let nonce ← Prog.perform Call.generateNonce
  match P.encrypt key nonce (signingKeyAad signing.keyId) signing.privateKeyPem with
  | some ciphertext =>
    let createdAt ← Prog.perform Call.nowUtc
    return ⟨signing.keyId, "RS256", signing.publicJwk, ciphertext, nonce, true, createdAt, none⟩
  | none => throw .signingKeyEncryption

/-- The name of a key generated with this identifier. -/
def generatedKeyId (id : Uuid) : String := "rs256-" ++ Uuid.hyphenated id

def generateEncryptedSigningKey (key : KeyEncryptionKey) :
    Prog Call Call.Answer OidcError SigningKeyMaterial := do
  let some privateKeyPem ← Prog.perform Call.generateRsaKey | throw .signingKeyGeneration
  let id ← Prog.perform Call.newV4
  let keyId := generatedKeyId id
  match rsaPublicJwk P keyId privateKeyPem with
  | some publicJwk => encryptSigningMaterial P ⟨keyId, privateKeyPem, publicJwk⟩ key
  | none => throw .invalidSigningKey

def reencryptSigningKeyMaterial (old new : KeyEncryptionKey) (stored : SigningKeyMaterial) :
    Prog Call Call.Answer OidcError SigningKeyMaterial := do
  Prog.failIf (stored.algorithm ≠ "RS256") .invalidSigningKey
  let privateKeyPem ← Prog.ofExcept (decryptSigningPrivateKeyPem P stored old)
  let nonce ← Prog.perform Call.generateNonce
  match P.encrypt new nonce (signingKeyAad stored.kid) privateKeyPem with
  | some ciphertext => return { stored with
      privateKeyCiphertext := ciphertext, privateKeyNonce := nonce }
  | none => throw .signingKeyEncryption

/-- The active database key under a key-encryption key, else the static one. -/
def resolveSigningMaterial (state : AppState) : App SigningMaterial := do
  let stored ← (match state.config.keyEncryptionKey with
    | some key => do
      let stored ← db .activeSigningKey
      pure (stored.map fun material => (key, material))
    | none => pure none)
  match stored with
  | some (key, material) => match decryptSigningMaterial P material key with
    | .ok signing => return signing
    | .error err => oauthError 500 (.invalidRequest err.text)
  | none => match state.config.signing with
    | some signing => return signing
    | none => oauthError 500 (.invalidRequest "RS256 signing key is not configured")

/-- The keys of the JWK set: those of the database, else the static one. -/
def jwkSetFromSources (activeKeys : List SigningKeyRow) (staticSigning : Option SigningMaterial) :
    List Json :=
  if !activeKeys.isEmpty then activeKeys.map (·.publicJwk)
  else (staticSigning.map (·.publicJwk)).toList

def jwks (state : AppState) : App (List Json) := do
  let activeKeys ← db .activeJwks
  return jwkSetFromSources activeKeys state.config.signing

end CairnId
