import CairnId.Concurrency.Pool
import CairnId.Database.EmailOutbox
import CairnId.Operations.Email

/-!
# The delivery of emails

`apps/api/src/email/delivery.rs` and `provider.rs`: a worker claims a batch of messages,
hands each to the provider and records how that ended. Any number of workers run side by
side with the programs that queue messages or re-encrypt their tokens. A statement may be
executed although its answer is lost, and a worker may stop at any point.

## Main definitions

- `deliverOnce` — one pass of a worker
- `outboxMachine` — the workers and everybody else who writes the table
-/

namespace CairnId

open Concurrency Prog

inductive EmailProviderConfig where
  | disabled
  | stdout
  | command (path : String)
  deriving DecidableEq

/-- `email_delivery_from_env` clamps every number. -/
structure EmailDeliveryConfig where
  provider : EmailProviderConfig
  batchSize : ℕ
  maxAttempts : ℕ
  retrySeconds : ℕ
  sendingTimeoutSeconds : ℕ
  batchSize_pos : 1 ≤ batchSize
  maxAttempts_pos : 1 ≤ maxAttempts

structure DeliverySettings where
  api : ApiConfig
  emailDelivery : EmailDeliveryConfig

/-- All of the source's `EmailDeliveryError`; the errors of rendering are a type of
    their own. -/
inductive DeliveryError where
  | disabled
  | rendering (e : EmailDeliveryError)
  | providerCommand (text : String)
  | providerCommandJoin
  | payloadSerialization
  | database (e : DatabaseError)
  deriving DecidableEq

/-- The `Display` text of an error of rendering. -/
def EmailDeliveryError.text : EmailDeliveryError → String
  | .missingKeyEncryptionKey =>
    "CAIRN_KEY_ENCRYPTION_KEY is required to render lifecycle email action URLs"
  | .missingMessageField id field =>
    "email outbox message " ++ Uuid.hyphenated id ++ " is missing " ++ field
  | .invalidMetadata id field =>
    "email outbox message " ++ Uuid.hyphenated id ++ " has invalid metadata field " ++ field
  | .tokenDecryption _ => "email outbox token decryption failed"

namespace DeliveryError

/-- The error's `Display` text. -/
def text : DeliveryError → String
  | .disabled => "email delivery is disabled"
  | .rendering e => e.text
  | .providerCommand text => "email provider command failed: " ++ text
  | .providerCommandJoin => "email provider command task failed"
  | .payloadSerialization => "email provider payload serialization failed"
  | .database _ => "database operation failed"

/-- Trying again would not help. -/
def isPermanent : DeliveryError → Bool
  | .rendering _ => true
  | .payloadSerialization => true
  | _ => false

end DeliveryError

def truncateError (error : String) : String := String.ofList (error.toList.take 500)

/-- `ExitStatus`, with its `Display` text. -/
structure ExitStatus where
  success : Bool
  text : String

/-- How the command of a provider went. -/
inductive CommandRun where
  /-- The blocking task did not end. -/
  | panicked
  | notStarted (error : String)
  | noStdin
  | notWritten (error : String)
  | notAwaited (error : String)
  | exited (status : ExitStatus) (stdout stderr : String)

/-- The provider took the message. -/
def CommandRun.tookMessage : CommandRun → Bool
  | .exited status _ _ => status.success
  | _ => false

-- what happens outside

inductive DeliveryCall where
  | nowUtc
  | claimEmailOutboxMessages (limit : ℕ) (instant staleSendingBefore : OffsetDateTime)
  | markEmailOutboxSent (id : Uuid) (providerMessageId : Option String) (instant : OffsetDateTime)
  | markEmailOutboxRetry (id : Uuid) (lastError : String) (nextAttemptAt instant : OffsetDateTime)
  | markEmailOutboxFailed (id : Uuid) (lastError : String) (instant : OffsetDateTime)
  /-- Print the message. -/
  | printPayload (payload : EmailCommandPayload)
  /-- Run the command of the provider with the message as its input. -/
  | runCommand (path : String) (payload : EmailCommandPayload)
  | insertEmailOutboxMessage (message : EmailOutboxMessage)
  | applyKeyEncryptionRotation (tokens : List ReencryptedEmailOutboxDeliveryToken)

abbrev DeliveryCall.Answer : DeliveryCall → Type
  | .nowUtc => OffsetDateTime
  | .claimEmailOutboxMessages .. => Except DatabaseError Batch
  | .markEmailOutboxSent .. | .markEmailOutboxRetry .. | .markEmailOutboxFailed .. =>
    Except DatabaseError Bool
  | .printPayload _ => Unit
  | .runCommand .. => CommandRun
  | .insertEmailOutboxMessage _ | .applyKeyEncryptionRotation _ => Except DatabaseError Unit

abbrev Delivery := Prog DeliveryCall DeliveryCall.Answer DeliveryError

abbrev DeliveryEvent := Event DeliveryCall.Answer

structure OutboxWorld where
  outbox : Outbox
  clock : OffsetDateTime

/-- What becomes of a statement. -/
inductive Link where
  | answered
  /-- It is not executed. -/
  | refused
  /-- It is executed, and its answer is lost. -/
  | lost
  deriving DecidableEq

structure OutboxChoice where
  link : Link := .answered
  time : OffsetDateTime := 0
  /-- The rows that other transactions hold. -/
  locked : List Uuid := []
  picked : List Uuid := []
  command : CommandRun := .panicked

/-- A statement with its answer and the table that it leaves. -/
def OutboxWorld.reply {α : Type} (w : OutboxWorld) (link : Link) (a : α) (o : Outbox) :
    Except DatabaseError α × OutboxWorld := match link with
  | .answered => (.ok a, { w with outbox := o })
  | .refused => (.error (.sqlx .connection), w)
  | .lost => (.error (.sqlx .connection), { w with outbox := o })

/-- The clock, with which `NOW()` agrees, does not run backwards. -/
def DeliveryCall.exec : (e : DeliveryCall) → OutboxChoice → OutboxWorld →
    Option (e.Answer × OutboxWorld)
  | .nowUtc, ch, w =>
    if w.clock ≤ ch.time then some (ch.time, { w with clock := ch.time }) else none
  | .claimEmailOutboxMessages limit instant stale, ch, w =>
    if h : Selects limit (w.outbox.candidates instant stale ch.locked) ch.picked then
      some (w.reply ch.link (w.outbox.batch instant ch.picked h.1)
        (w.outbox.claim instant ch.picked))
    else none
  | .markEmailOutboxSent id providerMessageId instant, ch, w =>
    let (marked, o) := w.outbox.markSent id providerMessageId instant
    some (w.reply ch.link marked o)
  | .markEmailOutboxRetry id lastError nextAttemptAt instant, ch, w =>
    let (marked, o) := w.outbox.markRetry id lastError nextAttemptAt instant
    some (w.reply ch.link marked o)
  | .markEmailOutboxFailed id lastError instant, ch, w =>
    let (marked, o) := w.outbox.markFailed id lastError instant
    some (w.reply ch.link marked o)
  | .printPayload _, _, w => some ((), w)
  | .runCommand .., ch, w => some (ch.command, w)
  | .insertEmailOutboxMessage message, ch, w => match w.outbox.insert message with
    | some o => some (w.reply ch.link () o)
    | none => some (.error (.sqlx .uniqueViolation), w)
  | .applyKeyEncryptionRotation tokens, ch, w =>
    if w.clock ≤ ch.time then
      some ({ w with clock := ch.time }.reply ch.link () (w.outbox.reencrypt ch.time tokens))
    else none

-- one pass

namespace Delivery

def nowUtc : Delivery OffsetDateTime := Prog.perform DeliveryCall.nowUtc

/-- A statement with `?`. -/
def ofAnswer {α : Type} (a : Except DatabaseError α) : Delivery α :=
  Prog.ofExcept (a.mapError DeliveryError.database)

end Delivery

open Delivery

variable (P : Primitives) (parseReceipt : String → Option (Option String))

/-- `run_command` once the command has ended: the provider's identifier of the message.
    `parseReceipt` reads a `CommandReceipt`. -/
def commandReceipt : CommandRun → Except DeliveryError (Option String)
  | .panicked => .error .providerCommandJoin
  | .notStarted error => .error (.providerCommand error)
  | .noStdin => .error (.providerCommand "failed to open provider stdin")
  | .notWritten error => .error (.providerCommand error)
  | .notAwaited error => .error (.providerCommand error)
  | .exited status stdout stderr =>
    if !status.success then
      .error (.providerCommand
        ("exit status " ++ status.text ++ "; stderr: " ++ truncateError stderr))
    else if trim stdout = "" then .ok none
    else match parseReceipt (trim stdout) with
      | some providerMessageId => .ok providerMessageId
      | none => .error .payloadSerialization

def sendEmail (settings : DeliverySettings) (payload : EmailCommandPayload) :
    Delivery (Option String) := match settings.emailDelivery.provider with
  | .disabled => throw .disabled
  | .stdout =>
    if settings.api.environment = .production then
      throw (.providerCommand "stdout provider is development-only")
    else do
      Prog.perform (DeliveryCall.printPayload payload)
      return none
  | .command path => do
    let run ← Prog.perform (DeliveryCall.runCommand path payload)
    Prog.ofExcept (commandReceipt parseReceipt run)

structure EmailDeliveryReport where
  claimed : ℕ
  sent : ℕ
  retried : ℕ
  failed : ℕ
  deriving DecidableEq

/-- The `delivery_result` of a message. -/
def deliveryResult (settings : DeliverySettings) (message : EmailOutboxMessage) :
    Delivery (Option String) := do
  let rendered ← Prog.ofExcept ((renderEmail P message settings.api).mapError .rendering)
  sendEmail parseReceipt settings rendered

/-- What is recorded of the `delivery_result` of a message. -/
def recordDelivery (settings : DeliverySettings) (message : EmailOutboxMessage)
    (report : EmailDeliveryReport) : Except DeliveryError (Option String) →
    Delivery EmailDeliveryReport
  | .ok providerMessageId => do
    let now ← nowUtc
    let marked ← Prog.perform (DeliveryCall.markEmailOutboxSent message.id providerMessageId now)
    let _ ← ofAnswer marked
    return { report with sent := report.sent + 1 }
  | .error error => do
    let failedAt ← nowUtc
    let lastError := truncateError error.text
    if error.isPermanent ∨ settings.emailDelivery.maxAttempts ≤ message.attempts then
      let marked ← Prog.perform (DeliveryCall.markEmailOutboxFailed message.id lastError failedAt)
      let _ ← ofAnswer marked
      return { report with failed := report.failed + 1 }
    else
      let nextAttemptAt := failedAt + Duration.seconds settings.emailDelivery.retrySeconds
      let marked ← Prog.perform
        (DeliveryCall.markEmailOutboxRetry message.id lastError nextAttemptAt failedAt)
      let _ ← ofAnswer marked
      return { report with retried := report.retried + 1 }

/-- The body of the loop. -/
def deliverMessage (settings : DeliverySettings) (message : EmailOutboxMessage)
    (report : EmailDeliveryReport) : Delivery EmailDeliveryReport := do
  let result ← (deliveryResult P parseReceipt settings message).attempt
  recordDelivery settings message report result

def deliverMessages (settings : DeliverySettings) : List EmailOutboxMessage →
    EmailDeliveryReport → Delivery EmailDeliveryReport
  | [], report => return report
  | message :: messages, report => do
    let report ← deliverMessage P parseReceipt settings message report
    deliverMessages settings messages report

def deliverOnce (settings : DeliverySettings) : Delivery EmailDeliveryReport := do
  Prog.failIf (settings.emailDelivery.provider = .disabled) .disabled
  Prog.failIf (settings.api.environment = .production ∧ settings.api.keyEncryptionKey.isNone)
    (.rendering .missingKeyEncryptionKey)
  let now ← nowUtc
  let staleSendingBefore := now - Duration.seconds settings.emailDelivery.sendingTimeoutSeconds
  let claimed ← Prog.perform (DeliveryCall.claimEmailOutboxMessages settings.emailDelivery.batchSize
    now staleSendingBefore)
  let batch ← ofAnswer claimed
  deliverMessages P parseReceipt settings batch.messages ⟨batch.messages.length, 0, 0, 0⟩

/-- Everything that writes the table. -/
inductive OutboxRequest where
  | deliver
  | enqueue (message : NewMessage)
  | reencrypt (tokens : List ReencryptedEmailOutboxDeliveryToken)

def outboxHandler (settings : DeliverySettings) : OutboxRequest →
    Delivery (Option EmailDeliveryReport)
  | .deliver => do
    let report ← deliverOnce P parseReceipt settings
    return some report
  | .enqueue message => do
    let inserted ← Prog.perform (DeliveryCall.insertEmailOutboxMessage message.message)
    let _ ← ofAnswer inserted
    return none
  | .reencrypt tokens => do
    let applied ← Prog.perform (DeliveryCall.applyKeyEncryptionRotation tokens)
    let _ ← ofAnswer applied
    return none

/-- Workers that share their settings, next to everybody else who writes the table. -/
def outboxMachine (settings : DeliverySettings) : Machine DeliveryCall DeliveryCall.Answer
    OutboxRequest OutboxWorld OutboxChoice DeliveryError (Option EmailDeliveryReport) where
  handler := outboxHandler P parseReceipt settings
  exec _ := DeliveryCall.exec

def OutboxWorld.initial (clock : OffsetDateTime) : OutboxWorld := ⟨.empty, clock⟩

end CairnId
