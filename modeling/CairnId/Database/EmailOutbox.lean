import Mathlib.Data.List.Nodup
import CairnId.Database.Schema
import CairnId.Database.SigningKeys

/-!
# The email outbox

`crates/database/src/email_outbox`: the statements that put messages into the
queue, hand them out to the workers that deliver them, and record how that ended.
Rows are found by their primary key; what a statement does to the table is said by
what it does to the row of each key.

## Main definitions

- `Outbox` — the rows of the table
- `Selects` — the rows that `FOR UPDATE SKIP LOCKED` may pick
- `Outbox.claim`, `Outbox.markSent`, `Outbox.markRetry`, `Outbox.markFailed`
- `Outbox.queueSummary`
-/

namespace CairnId

/-- The rows of `email_outbox`. -/
structure Outbox where
  messages : List EmailOutboxMessage
  nodup : (messages.map EmailOutboxMessage.id).Nodup

namespace EmailOutboxMessage

/-- The condition under which a worker may take the message. -/
def Claimable (m : EmailOutboxMessage) (instant staleSendingBefore : OffsetDateTime) : Prop :=
  ((m.status = "queued" ∨ m.status = "retry") ∧ ∀ next ∈ m.nextAttemptAt, next ≤ instant) ∨
    (m.status = "sending" ∧ m.updatedAt ≤ staleSendingBefore)

instance (m : EmailOutboxMessage) (instant staleSendingBefore : OffsetDateTime) :
    Decidable (m.Claimable instant staleSendingBefore) :=
  inferInstanceAs (Decidable (((m.status = "queued" ∨ m.status = "retry") ∧
    ∀ next ∈ m.nextAttemptAt, next ≤ instant) ∨
      (m.status = "sending" ∧ m.updatedAt ≤ staleSendingBefore)))

def claim (instant : OffsetDateTime) (m : EmailOutboxMessage) : EmailOutboxMessage :=
  { m with
    status := "sending"
    attempts := m.attempts + 1
    lastError := none
    updatedAt := instant }

def sent (providerMessageId : Option String) (instant : OffsetDateTime)
    (m : EmailOutboxMessage) : EmailOutboxMessage :=
  { m with
    status := "sent"
    sentAt := some instant
    updatedAt := instant
    providerMessageId := providerMessageId
    lastError := none
    nextAttemptAt := none }

def retry (lastError : String) (nextAttemptAt instant : OffsetDateTime)
    (m : EmailOutboxMessage) : EmailOutboxMessage :=
  { m with
    status := "retry"
    lastError := some lastError
    nextAttemptAt := some nextAttemptAt
    updatedAt := instant }

def failed (lastError : String) (instant : OffsetDateTime) (m : EmailOutboxMessage) :
    EmailOutboxMessage :=
  { m with
    status := "failed"
    lastError := some lastError
    nextAttemptAt := none
    updatedAt := instant }

/-- What `apply_key_encryption_rotation` makes of a message. -/
def reencrypted (now : OffsetDateTime) (m : EmailOutboxMessage)
    (token : ReencryptedEmailOutboxDeliveryToken) : EmailOutboxMessage :=
  if m.id = token.id then
    { m with
      deliveryTokenCiphertext := some token.deliveryTokenCiphertext
      deliveryTokenNonce := some token.deliveryTokenNonce
      updatedAt := now }
  else m

end EmailOutboxMessage

/-- The messages handed to a worker. -/
structure Batch where
  messages : List EmailOutboxMessage
  nodup : (messages.map EmailOutboxMessage.id).Nodup

/-- A message as the handlers put it into the queue. -/
structure NewMessage where
  message : EmailOutboxMessage
  status : message.status = "queued"
  attempts : message.attempts = 0
  nextAttemptAt : message.nextAttemptAt = none
  sentAt : message.sentAt = none

/-- `ORDER BY created_at LIMIT … FOR UPDATE SKIP LOCKED` may pick these of the
    candidates that nobody has locked; rows created at the same time have no order. -/
def Selects (limit : ℕ) (candidates : List EmailOutboxMessage) (picked : List Uuid) : Prop :=
  picked.Nodup ∧ picked ⊆ candidates.map EmailOutboxMessage.id ∧
    picked.length = min limit candidates.length ∧
    ∀ m ∈ candidates, m.id ∉ picked → ∀ m' ∈ candidates, m'.id ∈ picked →
      m'.createdAt ≤ m.createdAt

instance (limit : ℕ) (candidates : List EmailOutboxMessage) (picked : List Uuid) :
    Decidable (Selects limit candidates picked) :=
  inferInstanceAs (Decidable (picked.Nodup ∧
    picked ⊆ candidates.map EmailOutboxMessage.id ∧
    picked.length = min limit candidates.length ∧
    ∀ m ∈ candidates, m.id ∉ picked → ∀ m' ∈ candidates, m'.id ∈ picked →
      m'.createdAt ≤ m.createdAt))

structure EmailOutboxQueueSummary where
  queued : ℕ
  retry : ℕ
  retryDue : ℕ
  sending : ℕ
  staleSending : ℕ
  failed : ℕ
  sent : ℕ
  unfinished : ℕ
  oldestUnfinishedAt : Option OffsetDateTime
  nextRetryAt : Option OffsetDateTime
  deriving DecidableEq

namespace Outbox

def empty : Outbox := ⟨[], List.nodup_nil⟩

/-- The row with the primary key. -/
def find (o : Outbox) (id : Uuid) : Option EmailOutboxMessage :=
  o.messages.find? fun m => m.id = id

/-- `UPDATE`, with a new row for each row. -/
def modify (o : Outbox) (f : EmailOutboxMessage → EmailOutboxMessage) (hf : ∀ m, (f m).id = m.id) :
    Outbox where
  messages := o.messages.map f
  nodup := by
    rw [List.map_map, show EmailOutboxMessage.id ∘ f = EmailOutboxMessage.id from funext hf]
    exact o.nodup

/-- `insert_email_outbox_message_record`; `none` when the primary key is taken. -/
def insert (o : Outbox) (m : EmailOutboxMessage) : Option Outbox :=
  if h : m.id ∈ o.messages.map EmailOutboxMessage.id then none
  else some
    { messages := o.messages ++ [m]
      nodup := by
        rw [List.map_append]
        refine List.Nodup.append o.nodup (List.nodup_singleton _) ?_
        simpa using h }

/-- The rows that the sub-select may pick when `locked` are the rows others hold. -/
def candidates (o : Outbox) (instant staleSendingBefore : OffsetDateTime) (locked : List Uuid) :
    List EmailOutboxMessage :=
  o.messages.filter fun m => m.Claimable instant staleSendingBefore ∧ m.id ∉ locked

/-- `claim_email_outbox_messages`, once the rows are picked. -/
def claim (o : Outbox) (instant : OffsetDateTime) (picked : List Uuid) : Outbox :=
  o.modify (fun m => if m.id ∈ picked then m.claim instant else m) fun m => by
    split <;> rfl

/-- The rows that the statement returns, in any order. -/
def claimed (o : Outbox) (instant : OffsetDateTime) (picked : List Uuid) :
    List EmailOutboxMessage :=
  picked.filterMap fun id => (o.find id).map (EmailOutboxMessage.claim instant)

/-- An update of the row with the primary key if it is still being sent, and whether
    there is such a row. -/
def markSending (o : Outbox) (id : Uuid) (f : EmailOutboxMessage → EmailOutboxMessage)
    (hf : ∀ m, (f m).id = m.id) : Bool × Outbox :=
  (o.messages.any fun m => m.id = id ∧ m.status = "sending",
    o.modify (fun m => if m.id = id ∧ m.status = "sending" then f m else m) fun m => by
      split
      · exact hf m
      · rfl)

/-- `mark_email_outbox_sent`. -/
def markSent (o : Outbox) (id : Uuid) (providerMessageId : Option String)
    (instant : OffsetDateTime) : Bool × Outbox :=
  o.markSending id (EmailOutboxMessage.sent providerMessageId instant) fun _ => rfl

/-- `mark_email_outbox_retry`. -/
def markRetry (o : Outbox) (id : Uuid) (lastError : String)
    (nextAttemptAt instant : OffsetDateTime) : Bool × Outbox :=
  o.markSending id (EmailOutboxMessage.retry lastError nextAttemptAt instant) fun _ => rfl

/-- `mark_email_outbox_failed`. -/
def markFailed (o : Outbox) (id : Uuid) (lastError : String) (instant : OffsetDateTime) :
    Bool × Outbox :=
  o.markSending id (EmailOutboxMessage.failed lastError instant) fun _ => rfl

/-- The part of `apply_key_encryption_rotation` that is about this table. -/
def reencrypt (o : Outbox) (now : OffsetDateTime)
    (tokens : List ReencryptedEmailOutboxDeliveryToken) : Outbox :=
  o.modify (fun m => tokens.foldl (EmailOutboxMessage.reencrypted now) m) fun m => by
    induction tokens generalizing m with
    | nil => rfl
    | cons token tokens ih =>
      rw [List.foldl_cons, ih, EmailOutboxMessage.reencrypted]
      split <;> rfl

/-- `COUNT(*) FILTER (WHERE …)`. -/
def count (o : Outbox) (p : EmailOutboxMessage → Bool) : ℕ := o.messages.countP p

/-- `MIN(…) FILTER (WHERE …)`, over the values that are not `NULL`. -/
def earliest (o : Outbox) (f : EmailOutboxMessage → Option OffsetDateTime) :
    Option OffsetDateTime := (o.messages.filterMap f).min?

/-- `email_outbox_queue_summary`. -/
def queueSummary (o : Outbox) (instant staleSendingBefore : OffsetDateTime) :
    EmailOutboxQueueSummary where
  queued := o.count fun m => m.status = "queued"
  retry := o.count fun m => m.status = "retry"
  retryDue := o.count fun m => m.status = "retry" ∧ ∀ next ∈ m.nextAttemptAt, next ≤ instant
  sending := o.count fun m => m.status = "sending"
  staleSending := o.count fun m => m.status = "sending" ∧ m.updatedAt ≤ staleSendingBefore
  failed := o.count fun m => m.status = "failed"
  sent := o.count fun m => m.status = "sent"
  unfinished := o.count fun m => m.status ∈ ["queued", "retry", "sending", "failed"]
  oldestUnfinishedAt := o.earliest fun m =>
    if m.status ∈ ["queued", "retry", "sending", "failed"] then some m.createdAt else none
  nextRetryAt := o.earliest fun m =>
    if m.status = "retry" then m.nextAttemptAt.filter (instant < ·) else none

-- rows by their primary key

theorem find_eq_some {o : Outbox} {id : Uuid} {m : EmailOutboxMessage} :
    o.find id = some m ↔ m ∈ o.messages ∧ m.id = id := by
  constructor
  · intro h
    exact ⟨List.mem_of_find?_eq_some h, by simpa using List.find?_some h⟩
  · rintro ⟨hm, rfl⟩
    have hsome : (o.find m.id).isSome := List.find?_isSome.mpr ⟨m, hm, by simp⟩
    obtain ⟨m', hm'⟩ := Option.isSome_iff_exists.mp hsome
    have hid : m'.id = m.id := by simpa using List.find?_some hm'
    rw [hm', List.inj_on_of_nodup_map o.nodup (List.mem_of_find?_eq_some hm') hm hid]

@[simp] theorem find_empty (id : Uuid) : empty.find id = none := rfl

theorem id_of_find {o : Outbox} {id : Uuid} {m : EmailOutboxMessage} (h : o.find id = some m) :
    m.id = id := (find_eq_some.mp h).2

@[simp] theorem find_modify {o : Outbox} {f : EmailOutboxMessage → EmailOutboxMessage}
    {hf : ∀ m, (f m).id = m.id} (id : Uuid) : (o.modify f hf).find id = (o.find id).map f := by
  have hcomp : (fun m : EmailOutboxMessage => decide (m.id = id)) ∘ f =
      fun m => decide (m.id = id) := by
    funext m
    simp [hf m]
  rw [find, modify, List.find?_map, hcomp]
  rfl

theorem find_insert {o o' : Outbox} {m : EmailOutboxMessage} (h : o.insert m = some o')
    (id : Uuid) : o'.find id = if m.id = id then some m else o.find id := by
  unfold insert at h
  split at h
  · cases h
  · rename_i hnew
    cases h
    have happend : (o.messages ++ [m]).find? (fun m' => m'.id = id) =
        (o.find id).or (if m.id = id then some m else none) := by
      rw [List.find?_append, List.find?_cons, List.find?_nil]
      by_cases hid : m.id = id <;> simp [hid, find]
    refine happend.trans ?_
    by_cases hid : m.id = id
    · have hnone : o.find id = none := by
        rw [find, List.find?_eq_none]
        intro m' hm' heq
        have heq : m'.id = id := by simpa using heq
        exact hnew (List.mem_map.mpr ⟨m', hm', heq.trans hid.symm⟩)
      simp [hid, hnone]
    · simp [hid]

/-- A new message takes a key that no row has. -/
theorem find_of_insert {o o' : Outbox} {m : EmailOutboxMessage} (h : o.insert m = some o') :
    o.find m.id = none := by
  unfold insert at h
  split at h
  · cases h
  · rename_i hnew
    rw [find, List.find?_eq_none]
    intro m' hm' heq
    exact hnew (List.mem_map.mpr ⟨m', hm', by simpa using heq⟩)

theorem find_claim {o : Outbox} {instant : OffsetDateTime} {picked : List Uuid} (id : Uuid) :
    (o.claim instant picked).find id =
      (o.find id).map fun m => if id ∈ picked then m.claim instant else m := by
  rw [claim, find_modify]
  refine Option.map_congr fun m hm => ?_
  rw [id_of_find hm]

theorem find_markSending {o : Outbox} {id : Uuid} {f : EmailOutboxMessage → EmailOutboxMessage}
    {hf : ∀ m, (f m).id = m.id} (id' : Uuid) :
    (o.markSending id f hf).2.find id' =
      (o.find id').map fun m => if id' = id ∧ m.status = "sending" then f m else m := by
  rw [markSending, find_modify]
  refine Option.map_congr fun m hm => ?_
  rw [id_of_find hm]

/-- A mark is answered by whether the message was being sent. -/
theorem markSending_fst {o : Outbox} {id : Uuid} {f : EmailOutboxMessage → EmailOutboxMessage}
    {hf : ∀ m, (f m).id = m.id} :
    (o.markSending id f hf).1 = true ↔ ∃ m, o.find id = some m ∧ m.status = "sending" := by
  simp only [markSending, List.any_eq_true, decide_eq_true_eq, find_eq_some]
  constructor
  · rintro ⟨m, hm, hid, hs⟩
    exact ⟨m, ⟨hm, hid⟩, hs⟩
  · rintro ⟨m, ⟨hm, hid⟩, hs⟩
    exact ⟨m, hm, hid, hs⟩

/-- The rows that a claim returns are the rows picked, as it leaves them. -/
theorem mem_claimed {o : Outbox} {instant : OffsetDateTime} {picked : List Uuid}
    {m : EmailOutboxMessage} :
    m ∈ o.claimed instant picked ↔ m.id ∈ picked ∧ (o.claim instant picked).find m.id = some m := by
  simp only [claimed, List.mem_filterMap, Option.map_eq_some_iff, find_claim]
  constructor
  · rintro ⟨id, hid, m', hm', rfl⟩
    have hkey : m'.id = id := id_of_find hm'
    subst hkey
    exact ⟨hid, m', hm', if_pos hid⟩
  · rintro ⟨hid, m', hm', h⟩
    have hpicked : (if m.id ∈ picked then m'.claim instant else m') = m'.claim instant :=
      if_pos hid
    exact ⟨m.id, hid, m', hm', hpicked.symm.trans h⟩

theorem map_id_claimed {o : Outbox} {instant : OffsetDateTime} {picked : List Uuid} :
    (o.claimed instant picked).map EmailOutboxMessage.id =
      picked.filter fun id => (o.find id).isSome := by
  induction picked with
  | nil => rfl
  | cons id picked ih =>
    rw [claimed, List.filterMap_cons, List.filter_cons]
    cases hm : o.find id with
    | none => simpa [claimed] using ih
    | some m =>
      have hkey : m.id = id := id_of_find hm
      have hid : (m.claim instant).id = id := hkey
      simp only [Option.map_some, Option.isSome_some, if_true, List.map_cons, hid]
      exact congrArg (id :: ·) ih

theorem nodup_claimed {o : Outbox} {instant : OffsetDateTime} {picked : List Uuid}
    (h : picked.Nodup) : ((o.claimed instant picked).map EmailOutboxMessage.id).Nodup := by
  rw [map_id_claimed]
  exact h.filter _

end Outbox

-- what re-encryption leaves as it was

/-- The message with its token and its time of change from another. -/
def EmailOutboxMessage.withTokenOf (m' m : EmailOutboxMessage) : EmailOutboxMessage :=
  { m' with
    deliveryTokenCiphertext := m.deliveryTokenCiphertext
    deliveryTokenNonce := m.deliveryTokenNonce
    updatedAt := m.updatedAt }

/-- The messages differ at most in their token and their time of change. -/
def SameButToken (m m' : EmailOutboxMessage) : Prop := m'.withTokenOf m = m

theorem SameButToken.refl (m : EmailOutboxMessage) : SameButToken m m := rfl

theorem SameButToken.trans {m m' m'' : EmailOutboxMessage} (h : SameButToken m m')
    (h' : SameButToken m' m'') : SameButToken m m'' := by
  have hmid : m''.withTokenOf m = (m''.withTokenOf m').withTokenOf m := rfl
  rw [SameButToken, hmid, h', h]

namespace SameButToken

variable {m m' : EmailOutboxMessage}

theorem eq (h : SameButToken m m') : m'.withTokenOf m = m := h

theorem id (h : SameButToken m m') : m'.id = m.id := by
  have heq : (m'.withTokenOf m).id = m.id := congrArg EmailOutboxMessage.id h.eq
  exact heq

theorem status (h : SameButToken m m') : m'.status = m.status := by
  have heq : (m'.withTokenOf m).status = m.status := congrArg EmailOutboxMessage.status h.eq
  exact heq

theorem attempts (h : SameButToken m m') : m'.attempts = m.attempts := by
  have heq : (m'.withTokenOf m).attempts = m.attempts := congrArg EmailOutboxMessage.attempts h.eq
  exact heq

theorem nextAttemptAt (h : SameButToken m m') : m'.nextAttemptAt = m.nextAttemptAt := by
  have heq : (m'.withTokenOf m).nextAttemptAt = m.nextAttemptAt :=
    congrArg EmailOutboxMessage.nextAttemptAt h.eq
  exact heq

theorem lastError (h : SameButToken m m') : m'.lastError = m.lastError := by
  have heq : (m'.withTokenOf m).lastError = m.lastError :=
    congrArg EmailOutboxMessage.lastError h.eq
  exact heq

theorem providerMessageId (h : SameButToken m m') : m'.providerMessageId = m.providerMessageId := by
  have heq : (m'.withTokenOf m).providerMessageId = m.providerMessageId :=
    congrArg EmailOutboxMessage.providerMessageId h.eq
  exact heq

end SameButToken

theorem sameButToken_reencrypted (now : OffsetDateTime) (m : EmailOutboxMessage)
    (token : ReencryptedEmailOutboxDeliveryToken) : SameButToken m (m.reencrypted now token) := by
  unfold EmailOutboxMessage.reencrypted
  split <;> rfl

theorem reencrypted_foldl (now : OffsetDateTime)
    (tokens : List ReencryptedEmailOutboxDeliveryToken) (m : EmailOutboxMessage) :
    SameButToken m (tokens.foldl (EmailOutboxMessage.reencrypted now) m) ∧
      ((tokens.foldl (EmailOutboxMessage.reencrypted now) m).updatedAt = m.updatedAt ∨
        (tokens.foldl (EmailOutboxMessage.reencrypted now) m).updatedAt = now) := by
  induction tokens generalizing m with
  | nil => exact ⟨SameButToken.refl m, .inl rfl⟩
  | cons token tokens ih =>
    rw [List.foldl_cons]
    obtain ⟨hsame, hupdated⟩ := ih (m.reencrypted now token)
    refine ⟨(sameButToken_reencrypted now m token).trans hsame, ?_⟩
    obtain hupdated | hupdated := hupdated
    · rw [hupdated, EmailOutboxMessage.reencrypted]
      split
      · exact .inr rfl
      · exact .inl rfl
    · exact .inr hupdated

/-- A batch is what a claim returns. -/
def Outbox.batch (o : Outbox) (instant : OffsetDateTime) (picked : List Uuid)
    (h : picked.Nodup) : Batch := ⟨o.claimed instant picked, Outbox.nodup_claimed h⟩

end CairnId
