import CairnId.Http.Login
import CairnId.Http.MfaManagement
import CairnId.Operations.Email

/-!
# The emails of the account lifecycle

`apps/api/src/http/account_lifecycle`: the emails with a link for an address to verify, a
password to recover or an invitation to accept, and the notice of a password that was
recovered.

## Main definitions

- `queueAccountLifecycleEmail`
- `passwordRecoveryCompletedNotificationEmail`
-/

namespace CairnId

open Concurrency App

variable (P : Primitives) (state : AppState)

-- notifications

def passwordRecoveryCompletedNotificationEmail (token : AccountToken) (userId : UserId)
    (context : SessionRequestContext) (instant : OffsetDateTime) : App EmailOutboxMessage := do
  let id ← newV4
  return securityNotification state id token.email "Your Cairn Identity password was reset"
    ("Your Cairn Identity password was reset using account recovery." ++
      contextLines P context instant ++
      "If this was you, no action is needed. If this was not you, contact your " ++
      "administrator immediately.")
    "password_recovered_notification"
    [("account_token_id", .string (Uuid.hyphenated token.id)),
      ("user_id", .string (Uuid.hyphenated userId)),
      ("ip_address", .ofText? context.ipAddress), ("user_agent", .ofText? context.userAgent),
      ("recovered_at", .string (P.formatRfc3339 instant))] instant

-- delivery

structure AccountLifecycleEmail where
  kind : AccountTokenKind
  userId : Option UserId
  email : String
  createdByUserId : Option UserId
  ttl : Duration
  template : String
  subject : String
  actionPath : String
  bodyIntro : String
  metadata : Json

def accountTokenKindLabel : AccountTokenKind → String
  | .emailVerification => "email_verification"
  | .passwordRecovery => "password_recovery"
  | .invitation => "invitation"

def accountTokenAad (kind : AccountTokenKind) (tokenId : Uuid) : String :=
  "cairnid:account-token-delivery:" ++ accountTokenKindLabel kind ++ ":" ++ Uuid.hyphenated tokenId

/-- The text of an email with a link. -/
def lifecycleBody (bodyIntro : String) : String :=
  bodyIntro ++ ("\n\nOpen this link to continue: " ++ (actionUrlMarker ++
    "\n\nIf you did not request this email, ignore it."))

/-- A development server without a key stores the message without its token. -/
def encryptedDelivery (secret aad : String) : App (Option EncryptedSecret) :=
  match state.config.keyEncryptionKey with
  | some key => do
    let encrypted ← (encryptSecret P secret key aad).mapError ApiError.ofOidc
    return some encrypted
  | none =>
    if state.config.environment = .development then return none
    else throw (.status 500
      "CAIRN_KEY_ENCRYPTION_KEY is required for account lifecycle email delivery")

/-- The token and the message that `queue_account_lifecycle_email` inserts. -/
def accountLifecycleRecords (request : AccountLifecycleEmail) :
    App (AccountToken × EmailOutboxMessage) := do
  let secret ← generateHashedSecret P 32
  let now ← nowUtc
  let delivery ← encryptedDelivery P state secret.value (accountTokenAad request.kind secret.id)
  let id ← newV4
  return ({
    id := secret.id
    organizationId := state.organizationId
    kind := request.kind
    userId := request.userId
    email := request.email
    tokenHash := secret.hash
    createdByUserId := request.createdByUserId
    createdAt := now
    expiresAt := now + request.ttl
    consumedAt := none
    metadata := request.metadata }, {
    id := id
    organizationId := state.organizationId
    recipientEmail := request.email
    subject := request.subject
    bodyText := lifecycleBody request.bodyIntro
    template := request.template
    actionPath := some request.actionPath
    deliveryTokenCiphertext := delivery.map (·.ciphertext)
    deliveryTokenNonce := delivery.map (·.nonce)
    status := "queued"
    attempts := 0
    lastError := none
    providerMessageId := none
    metadata := .object [("account_token_id", .string (Uuid.hyphenated secret.id)),
      ("kind", .string (accountTokenKindLabel request.kind)),
      ("encrypted_delivery_token", .bool delivery.isSome)]
    createdAt := now
    updatedAt := now
    nextAttemptAt := none
    sentAt := none })

/-- What `queued_delivery_response` tells of a message in the queue. -/
structure QueuedDelivery where
  emailOutboxId : Uuid
  recipientEmail : String
  expiresAt : OffsetDateTime

def queueAccountLifecycleEmail (request : AccountLifecycleEmail) : App QueuedDelivery := do
  let (token, message) ← accountLifecycleRecords P state request
  db (.insertAccountTokenAndEmailOutboxMessage token message)
  return ⟨message.id, message.recipientEmail, token.expiresAt⟩

end CairnId
