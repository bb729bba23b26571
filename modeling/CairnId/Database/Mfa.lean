import Mathlib.Data.List.Sort
import CairnId.Database.Accounts

/-!
# Second factors and throttling

The transactions of `crates/database/src/mfa` and `rate_limit.rs`.
-/

namespace CairnId.Database

open Concurrency Concurrency.Sql

/-- `jsonb_set(metadata, '\x7bstatus\x7d', …, true)`, and `metadata_with_status` on the
    Rust side, which also replaces a value that is not an object. -/
def metadataWithStatus (metadata : Json) (status : String) : Json := match metadata with
  | .object members =>
    .object (members.filter (fun m => m.1 ≠ "status") ++ [("status", .string status)])
  | _ => .object [("status", .string status)]

def listMfaCredentials (organizationId : OrganizationId) (userId : UserId) (kind : MfaKind) :
    Statements (End (List MfaCredential)) := do
  let db ← select
  let rows := (db .mfaCredentials).filter fun c =>
    c.organizationId = organizationId ∧ c.userId = userId ∧ c.kind = kind
  return .commit (rows.insertionSort fun a b => b.createdAt ≤ a.createdAt)

def findActiveWebauthnCredentialByCredentialId (organizationId : OrganizationId)
    (credentialId : String) : Statements (End (Option MfaCredential)) := do
  let db ← select
  return .commit ((db .mfaCredentials).find? fun c => c.organizationId = organizationId ∧
    c.kind = .webAuthn ∧ c.secretMetadata.text? "status" = some "active" ∧
    c.secretMetadata.text? "credential_id" = some credentialId)

def createMfaCredential (credential : MfaCredential) : Statements (End Unit) := do
  insert .mfaCredentials credential
  return .commit ()

def markMfaCredentialUsed (id : Uuid) (instant : OffsetDateTime) : Statements (End Unit) := do
  let _ ← update .mfaCredentials (fun _ c => c.id = id)
    (fun c => { c with lastUsedAt := some instant })
  return .commit ()

def updateMfaCredentialMetadata (id : Uuid) (secretMetadata : Json)
    (lastUsedAt : Option OffsetDateTime) : Statements (End Unit) := do
  let _ ← update .mfaCredentials (fun _ c => c.id = id)
    (fun c => { c with secretMetadata := secretMetadata, lastUsedAt := lastUsedAt })
  return .commit ()

def consumeActiveRecoveryCode (organizationId : OrganizationId) (userId : UserId)
    (codeHash : String) (instant : OffsetDateTime) : Statements (End Bool) := do
  let updated ← update .mfaCredentials
    (fun _ c => c.organizationId = organizationId ∧ c.userId = userId ∧ c.kind = .recoveryCode ∧
      c.secretMetadata.text? "status" = some "active" ∧
      c.secretMetadata.text? "code_hash" = some codeHash)
    (fun c => { c with
      secretMetadata := metadataWithStatus c.secretMetadata "consumed"
      lastUsedAt := some instant })
  return .commit (updated.length > 0)

def revokeMfaCredential (organizationId : OrganizationId) (userId : UserId) (credentialId : Uuid)
    (instant : OffsetDateTime) : Statements (End (Option MfaCredential)) := do
  let rows ← lock .mfaCredentials .update
    (fun _ c => c.organizationId = organizationId ∧ c.userId = userId ∧ c.id = credentialId ∧
      (c.kind = .totp ∨ c.kind = .webAuthn))
  let row :: _ := rows | return .commit none
  let credential := { row with
    secretMetadata := metadataWithStatus row.secretMetadata "revoked"
    lastUsedAt := some instant }
  let _ ← update .mfaCredentials (fun _ c => c.id = credential.id)
    (fun c => { c with
      secretMetadata := credential.secretMetadata
      lastUsedAt := credential.lastUsedAt })
  return .commit (some credential)

def revokeActiveMfaCredentialsByKind (organizationId : OrganizationId) (userId : UserId)
    (kind : MfaKind) (instant : OffsetDateTime) : Statements (End Nat) := do
  let updated ← update .mfaCredentials
    (fun _ c => c.organizationId = organizationId ∧ c.userId = userId ∧ c.kind = kind ∧
      c.secretMetadata.text? "status" = some "active")
    (fun c => { c with
      secretMetadata := metadataWithStatus c.secretMetadata "revoked"
      lastUsedAt := some instant })
  return .commit updated.length

def insertWebauthnChallenge (challenge : WebAuthnChallenge) : Statements (End Unit) := do
  insert .webauthnChallenges challenge
  return .commit ()

def consumeWebauthnChallenge (id : Uuid) (organizationId : OrganizationId) (userId : UserId)
    (kind : WebAuthnChallengeKind) (instant : OffsetDateTime) :
    Statements (End (Option WebAuthnChallenge)) := do
  let rows ← lock .webauthnChallenges .update
    (fun _ c => c.id = id ∧ c.organizationId = organizationId ∧ c.userId = userId ∧
      c.kind = kind ∧ c.consumedAt = none ∧ instant < c.expiresAt)
  let row :: _ := rows | return .commit none
  let _ ← update .webauthnChallenges (fun _ c => c.id = id)
    (fun c => { c with consumedAt := some instant })
  return .commit (some row)

-- rate_limit_buckets

def getRateLimitBucket (key : String) : Statements (End (Option RateLimitBucket)) := do
  let db ← select
  return .commit ((db .rateLimitBuckets).find? fun b => b.key = key)

/-- The bucket after one more failure. -/
def failedBucket (existing : Option RateLimitBucket) (key purpose : String) (now : OffsetDateTime)
    (window : Duration) (maxAttempts : Int) (blockFor : Duration) : RateLimitBucket :=
  let fresh : RateLimitBucket := ⟨key, purpose, 1, now, none, now⟩
  let bucket := match existing with
    | some bucket =>
      if now < bucket.windowStart + window then
        { bucket with attempts := bucket.attempts + 1, updatedAt := now }
      else fresh
    | none => fresh
  if maxAttempts ≤ bucket.attempts then
    { bucket with blockedUntil := some (now + blockFor) }
  else bucket

def recordRateLimitFailure (key purpose : String) (now : OffsetDateTime) (window : Duration)
    (maxAttempts : Int) (blockFor : Duration) : Statements (End RateLimitBucket) := do
  let existing ← lock .rateLimitBuckets .update (fun _ b => b.key = key)
  let bucket := failedBucket existing.head? key purpose now window maxAttempts blockFor
  let _ ← upsert .rateLimitBuckets bucket (fun _ => bucket)
  return .commit bucket

def clearRateLimitBucket (key : String) : Statements (End Unit) := do
  let _ ← delete .rateLimitBuckets (fun _ b => b.key = key)
  return .commit ()

end CairnId.Database
