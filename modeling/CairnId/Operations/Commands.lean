import CairnId.Http.Quiet
import CairnId.Http.Signing

/-!
# Operator commands

The commands `cairn-api signing-key` and `cairn-api key-encryption`, and the
check of the signing key that the API makes when it starts.
-/

namespace CairnId

open Concurrency Prog

/-- What `Box<dyn Error>` holds here. -/
inductive CommandError where
  | config (message : String)
  | oidc (e : OidcError)
  | database (e : DatabaseError)
  deriving DecidableEq

abbrev Command := Prog Call Call.Answer CommandError

namespace Command

def db (c : DbCall) : Command c.Result := .call (.db c) fun r => match r with
  | .ok a => .ret a
  | .error e => .fail (.database e)

def nowUtc : Command OffsetDateTime := Prog.perform Call.nowUtc

section runs

variable {P : Primitives} {w w' : World}

theorem runs_db {c : DbCall} {o : Except CommandError c.Result}
    (h : (db c).Runs (Call.exec P) w o w') :
    (∃ e, o = .error e ∧ w'.store = w.store) ∨
      ∃ r, c.exec w.store = (r, w'.store) ∧ o = r.mapError .database := by
  obtain ⟨ch, r, w₁, hx, h⟩ := runs_call.mp h
  obtain ⟨-, -, ⟨rfl, hs⟩ | hs⟩ := Call.exec_db hx
  · obtain ⟨rfl, rfl⟩ := runs_fail.mp h
    exact .inl ⟨_, rfl, hs⟩
  · refine .inr ⟨r, ?_⟩
    cases r with
    | error e =>
      obtain ⟨rfl, rfl⟩ := runs_fail.mp h
      exact ⟨hs, rfl⟩
    | ok a =>
      obtain ⟨rfl, rfl⟩ := runs_ret.mp h
      exact ⟨hs, rfl⟩

theorem runs_db_ok {c : DbCall} {a : c.Result}
    (h : (db c).Runs (Call.exec P) w (.ok a) w') : c.exec w.store = (.ok a, w'.store) := by
  rcases runs_db h with ⟨e, he, -⟩ | ⟨r, hx, hr⟩
  · cases he
  · cases r with
    | error e => cases hr
    | ok b =>
      cases hr
      exact hx

theorem runs_db_uuids {c : DbCall} {o : Except CommandError c.Result}
    (h : (db c).Runs (Call.exec P) w o w') : w'.uuids = w.uuids := by
  obtain ⟨ch, r, w₁, hx, h⟩ := runs_call.mp h
  have hu := (Call.exec_db hx).2.1
  cases r with
  | error e =>
    obtain ⟨-, rfl⟩ := runs_fail.mp h
    exact hu
  | ok a =>
    obtain ⟨-, rfl⟩ := runs_ret.mp h
    exact hu

theorem all_db {c : DbCall} (hc : c.isQuery = true) :
    (db c).All fun e => e.isQuiet = true := by
  refine ⟨hc, fun r => ?_⟩
  cases r <;> trivial

end runs

end Command

open Command

variable (P : Primitives)

def ensureStartupSigningKey (config : ApiConfig) : Command Unit := do
  Prog.failIf (config.keyEncryptionKey.isNone ∧ config.signing.isNone ∧
      config.environment = .production)
    (.config "production requires CAIRN_KEY_ENCRYPTION_KEY or legacy CAIRN_SIGNING_* material")
  match config.keyEncryptionKey with
  | none => return ()
  | some keyEncryptionKey =>
    let active ← db .activeSigningKey
    if active.isSome then return ()
    let key ← (match config.signing with
      | some signing => encryptSigningMaterial P signing keyEncryptionKey
      | none => generateEncryptedSigningKey P keyEncryptionKey).mapError .oidc
    db (.upsertSigningKeyMaterial key)

structure SigningKeyRotationReport where
  status : String
  activeKid : String
  active : Bool
  completedAt : OffsetDateTime

/-- `cairn-api signing-key rotate`. -/
def rotateSigningKey (config : ApiConfig) : Command SigningKeyRotationReport := do
  match config.keyEncryptionKey with
  | none => throw (.config "CAIRN_KEY_ENCRYPTION_KEY is required to rotate signing keys")
  | some keyEncryptionKey =>
    let key ← (generateEncryptedSigningKey P keyEncryptionKey).mapError .oidc
    let completedAt ← nowUtc
    db (.upsertSigningKeyMaterial key)
    return ⟨"rotated", key.kid, key.signingActive, completedAt⟩

/-- `cairn-api signing-key retire <kid>`: whether it was found. -/
def retireSigningKey (kid : String) : Command Bool := do
  let retiredAt ← nowUtc
  db (.retireSigningKey kid retiredAt)

-- key-encryption

/-- A text member of an outbox message's metadata that is not empty. -/
def metadataStr (metadata : Json) (field : String) : Option String :=
  (metadata.text? field).filter fun value => !value.isEmpty

def accountTokenDeliveryAad (kind accountTokenId : String) : String :=
  "cairnid:account-token-delivery:" ++ kind ++ ":" ++ accountTokenId

def requiredMetadataStr (metadata : Json) (field : String) (emailOutboxId : Uuid) :
    Command String := match metadataStr metadata field with
  | some value => return value
  | none => throw (.config ("email_outbox " ++ Uuid.hyphenated emailOutboxId ++
      " is missing metadata field " ++ field))

def reencryptEmailOutboxDeliveryToken (old new : KeyEncryptionKey)
    (token : EmailOutboxDeliveryToken) : Command ReencryptedEmailOutboxDeliveryToken := do
  let kind ← requiredMetadataStr token.metadata "kind" token.id
  let accountTokenId ← requiredMetadataStr token.metadata "account_token_id" token.id
  let aad := accountTokenDeliveryAad kind accountTokenId
  let value ← (Prog.ofExcept (decryptSecret P
    ⟨token.deliveryTokenCiphertext, token.deliveryTokenNonce⟩ old aad)).mapError .oidc
  let encrypted ← (encryptSecret P value new aad).mapError .oidc
  return ⟨token.id, encrypted.ciphertext, encrypted.nonce⟩

structure KeyEncryptionRotationReport where
  status : String
  signingKeys : Nat
  emailDeliveryTokens : Nat
  completedAt : OffsetDateTime

/-- `cairn-api key-encryption rotate`, with the two keys of its environment. -/
def rotateKeyEncryption (old new : KeyEncryptionKey) : Command KeyEncryptionRotationReport := do
  let signingKeys ← db .listEncryptedSigningKeyMaterials
  let reencryptedSigningKeys ← Prog.traverse
    (fun key => (reencryptSigningKeyMaterial P old new key).mapError CommandError.oidc) signingKeys
  let tokens ← db .listEmailOutboxDeliveryTokens
  let reencryptedTokens ← Prog.traverse (reencryptEmailOutboxDeliveryToken P old new) tokens
  -- the NOW() of the transaction
  let now ← nowUtc
  db (.applyKeyEncryptionRotation reencryptedSigningKeys reencryptedTokens now)
  let completedAt ← nowUtc
  return ⟨"rotated", reencryptedSigningKeys.length, reencryptedTokens.length, completedAt⟩

end CairnId
