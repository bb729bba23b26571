import CairnId.Operations.Delivery

/-!
# What one pass of a worker does

A worker claims once. It hands each message that it claimed to the provider at most once,
and marks it once: as sent when the provider took it, and for another try only when the
provider did not and the attempts are not used up.

## Main definitions

- `outboxPre` — what a program may do next
- `deliveryPost` — what the report of a pass says

## Main results

- `sat_outboxHandler`
-/

namespace CairnId

open Concurrency Prog Delivery

-- reading a history

/-- The messages that a call claimed. -/
def claimedMessages : DeliveryEvent → List EmailOutboxMessage
  | ⟨.claimEmailOutboxMessages .., .ok batch⟩ => batch.messages
  | _ => []

def DeliveryCall.isClaim : DeliveryCall → Bool
  | .claimEmailOutboxMessages .. => true
  | _ => false

/-- The message that a call hands to the provider. -/
def DeliveryCall.handedOver : DeliveryCall → Option Uuid
  | .printPayload payload => some payload.id
  | .runCommand _ payload => some payload.id
  | _ => none

/-- The message that a call marks. -/
def DeliveryCall.marked : DeliveryCall → Option Uuid
  | .markEmailOutboxSent id _ _ => some id
  | .markEmailOutboxRetry id _ _ _ => some id
  | .markEmailOutboxFailed id _ _ => some id
  | _ => none

/-- The message that the provider took with a call. -/
def taken : DeliveryEvent → Option Uuid
  | ⟨.printPayload payload, _⟩ => some payload.id
  | ⟨.runCommand _ payload, run⟩ => if run.tookMessage then some payload.id else none
  | _ => none

/-- The message of a call that the provider took, and its identifier there. -/
def receipt (parseReceipt : String → Option (Option String)) :
    DeliveryEvent → Option (Uuid × Option String)
  | ⟨.printPayload payload, _⟩ => some (payload.id, none)
  | ⟨.runCommand _ payload, run⟩ => match commandReceipt parseReceipt run with
    | .ok providerMessageId => some (payload.id, providerMessageId)
    | .error _ => none
  | _ => none

def DeliveryCall.isSentMark : DeliveryCall → Bool
  | .markEmailOutboxSent .. => true
  | _ => false

def DeliveryCall.isRetryMark : DeliveryCall → Bool
  | .markEmailOutboxRetry .. => true
  | _ => false

def DeliveryCall.isFailedMark : DeliveryCall → Bool
  | .markEmailOutboxFailed .. => true
  | _ => false

abbrev DeliveryHistory := List DeliveryEvent

/-- The messages that a worker claimed. -/
def claimedIn (h : DeliveryHistory) : List EmailOutboxMessage := h.flatMap claimedMessages

def Unmarked (h : DeliveryHistory) (id : Uuid) : Prop := ∀ ev ∈ h, ev.1.marked ≠ some id

/-- Nothing was done about the message. -/
def Untouched (h : DeliveryHistory) (id : Uuid) : Prop :=
  Unmarked h id ∧ ∀ ev ∈ h, ev.1.handedOver ≠ some id

/-- What a worker has to report of its calls. -/
def tally (h : DeliveryHistory) : EmailDeliveryReport where
  claimed := (claimedIn h).length
  sent := h.countP fun ev => ev.1.isSentMark
  retried := h.countP fun ev => ev.1.isRetryMark
  failed := h.countP fun ev => ev.1.isFailedMark

variable (P : Primitives) (parseReceipt : String → Option (Option String))

/-- What a worker may do after the calls `h`. -/
def deliveryPre (settings : DeliverySettings) (h : DeliveryHistory) : DeliveryCall → Prop
  | .nowUtc => True
  | .claimEmailOutboxMessages limit instant stale =>
    limit = settings.emailDelivery.batchSize ∧ ⟨.nowUtc, instant⟩ ∈ h ∧
      stale = instant - Duration.seconds settings.emailDelivery.sendingTimeoutSeconds ∧
      ∀ ev ∈ h, ev.1 = .nowUtc
  | .printPayload payload => ∃ m ∈ claimedIn h, renderEmail P m settings.api = .ok payload ∧
      Untouched h m.id
  | .runCommand _ payload => ∃ m ∈ claimedIn h, renderEmail P m settings.api = .ok payload ∧
      Untouched h m.id
  | .markEmailOutboxSent id providerMessageId instant => (∃ m ∈ claimedIn h, m.id = id) ∧
      ⟨.nowUtc, instant⟩ ∈ h ∧ Unmarked h id ∧
      ∃ ev ∈ h, receipt parseReceipt ev = some (id, providerMessageId)
  | .markEmailOutboxRetry id _ nextAttemptAt instant =>
    (∃ m ∈ claimedIn h, m.id = id ∧ m.attempts < settings.emailDelivery.maxAttempts) ∧
      ⟨.nowUtc, instant⟩ ∈ h ∧ Unmarked h id ∧ (∀ ev ∈ h, taken ev ≠ some id) ∧
      nextAttemptAt = instant + Duration.seconds settings.emailDelivery.retrySeconds
  | .markEmailOutboxFailed id lastError instant =>
    (∃ m ∈ claimedIn h, m.id = id ∧ ∃ error : DeliveryError,
      lastError = truncateError error.text ∧
        (error.isPermanent ∨ settings.emailDelivery.maxAttempts ≤ m.attempts)) ∧
      ⟨.nowUtc, instant⟩ ∈ h ∧ Unmarked h id
  | .insertEmailOutboxMessage _ => False
  | .applyKeyEncryptionRotation _ => False

/-- What the report of a pass says. -/
def deliveryPost (h : DeliveryHistory) (o : Except DeliveryError EmailDeliveryReport) : Prop :=
  ∀ report, o = .ok report → report = tally h ∧
    report.sent + report.retried + report.failed = report.claimed ∧
    ∀ m ∈ claimedIn h, ∃ ev ∈ h, ev.1.marked = some m.id

def outboxPre (settings : DeliverySettings) (q : OutboxRequest) (h : DeliveryHistory)
    (e : DeliveryCall) : Prop := match q with
  | .deliver => deliveryPre P parseReceipt settings h e
  | .enqueue message => e = .insertEmailOutboxMessage message.message
  | .reencrypt tokens => e = .applyKeyEncryptionRotation tokens

def outboxPost (q : OutboxRequest) (h : DeliveryHistory)
    (o : Except DeliveryError (Option EmailDeliveryReport)) : Prop := match q with
  | .deliver => ∀ report, o = .ok (some report) → deliveryPost h (.ok report)
  | _ => ∀ report, o ≠ .ok (some report)

-- histories that grow

theorem Unmarked.of_append {l h : DeliveryHistory} {id : Uuid} (hh : Unmarked h id)
    (hl : Unmarked l id) : Unmarked (l ++ h) id := by
  intro ev hev
  obtain hev | hev := List.mem_append.mp hev
  · exact hl ev hev
  · exact hh ev hev

theorem mem_claimedIn_append {l h : DeliveryHistory} {m : EmailOutboxMessage}
    (hm : m ∈ claimedIn h) : m ∈ claimedIn (l ++ h) := by
  rw [claimedIn, List.flatMap_append]
  exact List.mem_append_right _ hm

variable {P parseReceipt} {settings : DeliverySettings} {h : DeliveryHistory}
  {m : EmailOutboxMessage}

theorem renderEmail_id {config : ApiConfig} {payload : EmailCommandPayload}
    (hrender : renderEmail P m config = .ok payload) : payload.id = m.id := by
  unfold renderEmail at hrender
  split at hrender
  · obtain ⟨actionUrl, -, hpayload⟩ := except_bind_eq_ok.mp hrender
    obtain rfl := Except.ok.inj hpayload
    rfl
  · obtain rfl := Except.ok.inj hrender
    rfl

/-- A message of which there is a receipt was taken. -/
theorem taken_of_receipt {ev : DeliveryEvent} {id : Uuid} {providerMessageId : Option String}
    (hreceipt : receipt parseReceipt ev = some (id, providerMessageId)) : taken ev = some id := by
  unfold receipt at hreceipt
  split at hreceipt
  · cases hreceipt
    rfl
  · rename_i path payload run
    split at hreceipt
    · rename_i hrun
      cases hreceipt
      have htook : run.tookMessage = true := by
        unfold commandReceipt at hrun
        split at hrun <;> try cases hrun
        rename_i status stdout stderr
        by_cases hstatus : status.success = true
        · exact hstatus
        · rw [if_pos (by simpa using hstatus)] at hrun
          cases hrun
      exact if_pos htook
    · cases hreceipt
  · cases hreceipt

-- one message

/-- The calls about one message. -/
def Concerns (id : Uuid) (l : DeliveryHistory) : Prop :=
  ∀ ev ∈ l, claimedMessages ev = [] ∧ (∀ id', ev.1.marked = some id' → id' = id) ∧
    ∀ id', ev.1.handedOver = some id' → id' = id

theorem Concerns.untouched {id id' : Uuid} {l : DeliveryHistory} (hl : Concerns id l)
    (hne : id' ≠ id) (hh : Untouched h id') : Untouched (l ++ h) id' := by
  constructor
  · refine hh.1.of_append fun ev hev hmarked => ?_
    exact hne ((hl ev hev).2.1 id' hmarked)
  · intro ev hev hhanded
    obtain hev | hev := List.mem_append.mp hev
    · exact hne ((hl ev hev).2.2 id' hhanded)
    · exact hh.2 ev hev hhanded

theorem Concerns.claimedIn {id : Uuid} {l : DeliveryHistory} (hl : Concerns id l) :
    claimedIn (l ++ h) = claimedIn h := by
  rw [CairnId.claimedIn, List.flatMap_append, List.flatMap_eq_nil_iff.mpr fun ev hev =>
    (hl ev hev).1]
  rfl

/-- What is known after one message: every call was about it, and a report counts it. -/
def MessageDone (m : EmailOutboxMessage) (report : EmailDeliveryReport) (h h' : DeliveryHistory)
    (o : Except DeliveryError EmailDeliveryReport) : Prop :=
  ∃ l, h' = l ++ h ∧ Concerns m.id l ∧ ∀ report', o = .ok report' → report' = tally h' ∧
    report'.claimed = report.claimed ∧
    report'.sent + report'.retried + report'.failed =
      report.sent + report.retried + report.failed + 1 ∧
    ∃ ev ∈ l, ev.1.marked = some m.id

/-- A mark, and the reading of the clock before it, are about the message. -/
theorem concerns_mark {id : Uuid} {e : DeliveryCall} (r : e.Answer) (instant : OffsetDateTime)
    (hmarked : e.marked = some id) : Concerns id [⟨e, r⟩, ⟨.nowUtc, instant⟩] := by
  intro ev hev
  obtain rfl | hev := List.mem_cons.mp hev
  · cases e <;> cases hmarked <;> exact ⟨rfl, fun id' h => (Option.some.inj h).symm, nofun⟩
  · obtain rfl := List.mem_singleton.mp hev
    exact ⟨rfl, nofun, nofun⟩

theorem tally_mark {e : DeliveryCall} {r : e.Answer} {instant : OffsetDateTime} {id : Uuid}
    (hmarked : e.marked = some id) :
    tally (⟨e, r⟩ :: ⟨.nowUtc, instant⟩ :: h) =
      { claimed := (tally h).claimed
        sent := (tally h).sent + e.isSentMark.toNat
        retried := (tally h).retried + e.isRetryMark.toNat
        failed := (tally h).failed + e.isFailedMark.toNat } := by
  have hclaimed : claimedIn (⟨e, r⟩ :: ⟨.nowUtc, instant⟩ :: h) = claimedIn h :=
    (concerns_mark r instant hmarked).claimedIn
  have hcount : ∀ p : DeliveryCall → Bool, p .nowUtc = false →
      (⟨e, r⟩ :: ⟨.nowUtc, instant⟩ :: h : DeliveryHistory).countP (fun ev => p ev.1) =
        h.countP (fun ev => p ev.1) + (p e).toNat := by
    intro p hp
    rw [List.countP_cons, List.countP_cons, hp]
    cases p e <;> rfl
  rw [tally, hclaimed, hcount _ rfl, hcount _ rfl, hcount _ rfl]
  rfl

/-- The end of a message, once it is marked. -/
theorem sat_ofAnswer {report report' : EmailDeliveryReport} {e : DeliveryCall}
    {instant : OffsetDateTime} {r : e.Answer} {answer : Except DatabaseError Bool}
    (hreport : report = tally h) (hmarked : e.marked = some m.id)
    (hreport' : report' =
      { claimed := report.claimed
        sent := report.sent + e.isSentMark.toNat
        retried := report.retried + e.isRetryMark.toNat
        failed := report.failed + e.isFailedMark.toNat })
    (hone : e.isSentMark.toNat + e.isRetryMark.toNat + e.isFailedMark.toNat = 1) :
    (do let _ ← ofAnswer answer; return report' : Delivery EmailDeliveryReport).Sat
      (deliveryPre P parseReceipt settings) (MessageDone m report h)
      (⟨e, r⟩ :: ⟨.nowUtc, instant⟩ :: h) := by
  have hconcerns := concerns_mark r instant hmarked
  cases answer with
  | error err => exact ⟨_, rfl, hconcerns, nofun⟩
  | ok marked =>
    refine ⟨_, rfl, hconcerns, fun report'' ho => ?_⟩
    obtain rfl := Except.ok.inj ho
    refine ⟨?_, ?_, ?_, _, List.mem_cons_self, hmarked⟩
    · rw [hreport', tally_mark hmarked, hreport]
    · rw [hreport']
    · rw [hreport']
      dsimp only
      omega

/-- The result of a delivery against the calls that were made for it. -/
def ResultOfCalls (parseReceipt : String → Option (Option String)) (h : DeliveryHistory)
    (id : Uuid) : Except DeliveryError (Option String) → Prop
  | .ok providerMessageId => ∃ ev ∈ h, receipt parseReceipt ev = some (id, providerMessageId)
  | .error error => error.isPermanent = true ∨ ∀ ev ∈ h, taken ev ≠ some id

theorem sat_recordDelivery {report : EmailDeliveryReport}
    {result : Except DeliveryError (Option String)} (hm : m ∈ claimedIn h)
    (hunmarked : Unmarked h m.id) (hresult : ResultOfCalls parseReceipt h m.id result)
    (hreport : report = tally h) :
    (recordDelivery settings m report result).Sat (deliveryPre P parseReceipt settings)
      (MessageDone m report h) h := by
  have hunmarked' : ∀ instant, Unmarked (⟨.nowUtc, instant⟩ :: h) m.id := fun instant =>
    hunmarked.of_append (l := [⟨.nowUtc, instant⟩]) fun ev hev => by
      obtain rfl := List.mem_singleton.mp hev
      nofun
  have hm' : ∀ instant : OffsetDateTime, m ∈ claimedIn (⟨.nowUtc, instant⟩ :: h) := fun instant =>
    mem_claimedIn_append (l := [⟨.nowUtc, instant⟩]) hm
  cases result with
  | ok providerMessageId =>
    obtain ⟨ev, hev, hreceipt⟩ := hresult
    refine ⟨trivial, fun now => ⟨⟨⟨m, hm' now, rfl⟩, List.mem_cons_self, hunmarked' now, ev,
      List.mem_cons_of_mem _ hev, hreceipt⟩, fun answer => ?_⟩⟩
    exact sat_ofAnswer hreport rfl rfl rfl
  | error error =>
    refine ⟨trivial, fun failedAt => ?_⟩
    change Prog.Sat _ _ _ (ite _ _ _)
    split
    · rename_i hpermanent
      refine ⟨⟨⟨m, hm' failedAt, rfl, error, rfl, hpermanent⟩, List.mem_cons_self,
        hunmarked' failedAt⟩, fun answer => ?_⟩
      exact sat_ofAnswer hreport rfl rfl rfl
    · rename_i htemporary
      rw [not_or, not_le] at htemporary
      obtain ⟨hnotPermanent, hattempts⟩ := htemporary
      have htaken := hresult.resolve_left hnotPermanent
      refine ⟨⟨⟨m, hm' failedAt, rfl, hattempts⟩, List.mem_cons_self, hunmarked' failedAt,
        fun ev hev => ?_, rfl⟩, fun answer => ?_⟩
      · obtain rfl | hev := List.mem_cons.mp hev
        · nofun
        · exact htaken ev hev
      · exact sat_ofAnswer hreport rfl rfl rfl

theorem not_taken (huntouched : Untouched h m.id) : ∀ ev ∈ h, taken ev ≠ some m.id := by
  intro ev hev htaken
  refine huntouched.2 ev hev ?_
  unfold taken at htaken
  split at htaken
  · exact htaken
  · split at htaken
    · exact htaken
    · cases htaken
  · cases htaken

/-- The calls of a delivery are about its message, and its result agrees with them. -/
def DeliveryDone (parseReceipt : String → Option (Option String)) (m : EmailOutboxMessage)
    (h h' : DeliveryHistory)
    (o : Except DeliveryError (Except DeliveryError (Option String))) : Prop :=
  ∃ l result, o = .ok result ∧ h' = l ++ h ∧ Concerns m.id l ∧ Unmarked l m.id ∧
    tally h' = tally h ∧ ResultOfCalls parseReceipt h' m.id result

/-- A delivery that fails without a call. -/
theorem deliveryDone_nil (huntouched : Untouched h m.id) (error : DeliveryError) :
    DeliveryDone parseReceipt m h h (.ok (.error error)) :=
  ⟨[], .error error, rfl, rfl, fun _ hev => absurd hev List.not_mem_nil,
    fun _ hev => absurd hev List.not_mem_nil, rfl, .inr (not_taken huntouched)⟩

theorem attempt_ofExcept {α : Type} (x : Except DeliveryError α) :
    ((Prog.ofExcept x : Delivery α).attempt : Delivery (Except DeliveryError α)) = .ret x := by
  cases x <;> rfl

/-- An error after which the message may be tried again leaves it with the worker. -/
theorem resultOfCalls_command {run : CommandRun} {path : String} {payload : EmailCommandPayload}
    (huntouched : Untouched h m.id) (hid : payload.id = m.id) :
    ResultOfCalls parseReceipt (⟨.runCommand path payload, run⟩ :: h) m.id
      (commandReceipt parseReceipt run) := by
  cases hrun : commandReceipt parseReceipt run with
  | ok providerMessageId =>
    refine ⟨_, List.mem_cons_self, ?_⟩
    simp only [receipt, hrun, hid]
  | error error =>
    by_cases htook : run.tookMessage = true
    · -- the provider took it, but its receipt cannot be read
      left
      unfold CommandRun.tookMessage at htook
      split at htook
      · rename_i status stdout stderr
        rw [commandReceipt, if_neg (by simp [htook])] at hrun
        split at hrun
        · cases hrun
        · split at hrun
          · cases hrun
          · obtain rfl := Except.error.inj hrun
            rfl
      · cases htook
    · right
      intro ev hev
      obtain rfl | hev := List.mem_cons.mp hev
      · rw [taken, if_neg htook]
        nofun
      · exact not_taken huntouched ev hev

/-- A single handover is about its message. -/
theorem concerns_handover {e : DeliveryCall} {r : e.Answer} {id : Uuid}
    (hhanded : e.handedOver = some id) : Concerns id [⟨e, r⟩] ∧ Unmarked [⟨e, r⟩] id ∧
      tally (⟨e, r⟩ :: h) = tally h := by
  have hclaimed : claimedMessages ⟨e, r⟩ = [] := by
    cases e <;> first | rfl | cases hhanded
  have hmarked : e.marked = none := by
    cases e <;> first | rfl | cases hhanded
  have hcount : e.isSentMark = false ∧ e.isRetryMark = false ∧ e.isFailedMark = false := by
    cases e <;> first | exact ⟨rfl, rfl, rfl⟩ | cases hhanded
  obtain ⟨hsent, hretry, hfailed⟩ := hcount
  refine ⟨fun ev hev => ?_, fun ev hev => ?_, ?_⟩
  · obtain rfl := List.mem_singleton.mp hev
    exact ⟨hclaimed, by simp [hmarked], fun id' h => Option.some.inj (h.symm.trans hhanded)⟩
  · obtain rfl := List.mem_singleton.mp hev
    simp [hmarked]
  · simp [tally, claimedIn, hclaimed, hsent, hretry, hfailed]

theorem sat_sendEmail {payload : EmailCommandPayload} (hm : m ∈ claimedIn h)
    (hrender : renderEmail P m settings.api = .ok payload) (huntouched : Untouched h m.id) :
    ((sendEmail parseReceipt settings payload).attempt : Delivery _).Sat
      (deliveryPre P parseReceipt settings) (DeliveryDone parseReceipt m h) h := by
  have hid := renderEmail_id hrender
  unfold sendEmail
  split
  · exact deliveryDone_nil huntouched .disabled
  · split
    · exact deliveryDone_nil huntouched _
    · refine ⟨⟨m, hm, hrender, huntouched⟩, fun r => ?_⟩
      obtain ⟨hconcerns, hunmarked, htally⟩ := concerns_handover (h := h) (r := r)
        (e := .printPayload payload) (congrArg some hid)
      exact ⟨_, .ok none, rfl, rfl, hconcerns, hunmarked, htally, _, List.mem_cons_self,
        congrArg (fun id => some (id, none)) hid⟩
  · rename_i path _
    refine ⟨⟨m, hm, hrender, huntouched⟩, fun run => ?_⟩
    obtain ⟨hconcerns, hunmarked, htally⟩ := concerns_handover (h := h) (r := run)
      (e := .runCommand path payload) (congrArg some hid)
    have hresult : ResultOfCalls parseReceipt (⟨.runCommand path payload, run⟩ :: h) m.id
        (commandReceipt parseReceipt run) := resultOfCalls_command huntouched hid
    change ((Prog.ofExcept (commandReceipt parseReceipt run)).attempt : Delivery _).Sat _ _ _
    rw [attempt_ofExcept]
    exact ⟨_, _, rfl, rfl, hconcerns, hunmarked, htally, hresult⟩

theorem sat_deliveryResult (hm : m ∈ claimedIn h) (huntouched : Untouched h m.id) :
    ((deliveryResult P parseReceipt settings m).attempt : Delivery _).Sat
      (deliveryPre P parseReceipt settings) (DeliveryDone parseReceipt m h) h := by
  unfold deliveryResult
  cases hrender : renderEmail P m settings.api with
  | error e => exact deliveryDone_nil huntouched (.rendering e)
  | ok payload => exact sat_sendEmail hm hrender huntouched

theorem sat_deliverMessage {report : EmailDeliveryReport} (hm : m ∈ claimedIn h)
    (huntouched : Untouched h m.id) (hreport : report = tally h) :
    (deliverMessage P parseReceipt settings m report).Sat (deliveryPre P parseReceipt settings)
      (MessageDone m report h) h := by
  refine (sat_deliveryResult hm huntouched).bind (fun h' result hpost => ?_) fun h' e hpost => ?_
  · obtain ⟨l, _, ho, rfl, hconcerns, hunmarked, htally, hresult⟩ := hpost
    obtain rfl := Except.ok.inj ho
    refine (sat_recordDelivery (mem_claimedIn_append hm) (huntouched.1.of_append hunmarked) hresult
      (hreport.trans htally.symm)).mono (fun _ _ => id) fun h'' o hdone => ?_
    obtain ⟨l', rfl, hconcerns', hok⟩ := hdone
    refine ⟨l' ++ l, (List.append_assoc ..).symm, fun ev hev => ?_, fun report' ho => ?_⟩
    · obtain hev | hev := List.mem_append.mp hev
      · exact hconcerns' ev hev
      · exact hconcerns ev hev
    · obtain ⟨htally', hclaimed, hsum, ev, hev, hmarked⟩ := hok report' ho
      exact ⟨htally', hclaimed, hsum, ev, List.mem_append_left _ hev, hmarked⟩
  · obtain ⟨_, _, ho, -⟩ := hpost
    cases ho

/-- The loop, with the messages `ms` still to do. -/
theorem sat_deliverMessages {ms : List EmailOutboxMessage} {report : EmailDeliveryReport}
    (hms : ∀ m ∈ ms, m ∈ claimedIn h) (hnodup : (ms.map EmailOutboxMessage.id).Nodup)
    (huntouched : ∀ m ∈ ms, Untouched h m.id) (hreport : report = tally h)
    (hsum : report.sent + report.retried + report.failed + ms.length = report.claimed)
    (hdone : ∀ m ∈ claimedIn h, m ∈ ms ∨ ∃ ev ∈ h, ev.1.marked = some m.id) :
    (deliverMessages P parseReceipt settings ms report).Sat (deliveryPre P parseReceipt settings)
      deliveryPost h := by
  induction ms generalizing h report with
  | nil =>
    intro report' ho
    obtain rfl := Except.ok.inj ho
    refine ⟨hreport, by simpa using hsum, fun m hm => ?_⟩
    exact (hdone m hm).resolve_left (List.not_mem_nil)
  | cons m ms ih =>
    obtain ⟨hnew, hnodup⟩ := List.nodup_cons.mp hnodup
    refine (sat_deliverMessage (hms m List.mem_cons_self) (huntouched m List.mem_cons_self)
      hreport).bind (fun h' report' hpost => ?_) fun h' e _ => nofun
    obtain ⟨l, rfl, hconcerns, hok⟩ := hpost
    obtain ⟨htally, hclaimed, hsum', ev, hev, hmarked⟩ := hok report' rfl
    refine ih (fun m' hm' => mem_claimedIn_append (hms m' (List.mem_cons_of_mem _ hm'))) hnodup
      (fun m' hm' => ?_) htally ?_ fun m' hm' => ?_
    · have hne : m'.id ≠ m.id := fun heq => hnew (List.mem_map.mpr ⟨m', hm', heq⟩)
      exact hconcerns.untouched hne (huntouched m' (List.mem_cons_of_mem _ hm'))
    · rw [List.length_cons] at hsum
      omega
    · rw [hconcerns.claimedIn] at hm'
      obtain hm' | ⟨ev', hev', hmarked'⟩ := hdone m' hm'
      · obtain rfl | hm' := List.mem_cons.mp hm'
        · exact .inr ⟨ev, List.mem_append_left _ hev, hmarked⟩
        · exact .inl hm'
      · exact .inr ⟨ev', List.mem_append_right _ hev', hmarked'⟩

theorem sat_deliverOnce :
    (deliverOnce P parseReceipt settings).Sat (deliveryPre P parseReceipt settings)
      deliveryPost [] := by
  refine sat_when_bind (fun _ => nofun) fun _ => sat_when_bind (fun _ => nofun) fun _ => ?_
  refine ⟨trivial, fun now => ⟨⟨rfl, List.mem_cons_self, rfl, ?_⟩, fun claimed => ?_⟩⟩
  · intro ev hev
    obtain rfl := List.mem_singleton.mp hev
    rfl
  cases claimed with
  | error e => exact nofun
  | ok batch =>
    have hclaimed : claimedIn [⟨.claimEmailOutboxMessages settings.emailDelivery.batchSize now
        (now - Duration.seconds settings.emailDelivery.sendingTimeoutSeconds), .ok batch⟩,
        ⟨.nowUtc, now⟩] = batch.messages := by
      simp [claimedIn, claimedMessages]
    refine sat_deliverMessages (fun m hm => hclaimed ▸ hm) batch.nodup (fun m hm => ?_) ?_ ?_
      fun m hm => .inl (hclaimed ▸ hm)
    · have huntouched : ∀ ev ∈ [⟨.claimEmailOutboxMessages settings.emailDelivery.batchSize now
          (now - Duration.seconds settings.emailDelivery.sendingTimeoutSeconds), .ok batch⟩,
          (⟨.nowUtc, now⟩ : DeliveryEvent)], ev.1.marked = none ∧ ev.1.handedOver = none := by
        intro ev hev
        simp only [List.mem_cons, List.not_mem_nil, or_false] at hev
        obtain rfl | rfl := hev <;> exact ⟨rfl, rfl⟩
      exact ⟨fun ev hev => by simp [(huntouched ev hev).1],
        fun ev hev => by simp [(huntouched ev hev).2]⟩
    · rw [tally, hclaimed]
      rfl
    · simp

/-- Every program keeps to what it may do. -/
theorem sat_outboxHandler (q : OutboxRequest) :
    (outboxHandler P parseReceipt settings q).Sat (outboxPre P parseReceipt settings q)
      (outboxPost q) [] := by
  cases q with
  | deliver =>
    refine sat_deliverOnce.bind (fun h' report hpost => ?_) fun h' e _ => nofun
    intro report' ho
    cases ho
    exact hpost
  | enqueue message =>
    refine ⟨rfl, fun inserted => ?_⟩
    cases inserted <;> exact fun report ho => by cases ho
  | reencrypt tokens =>
    refine ⟨rfl, fun applied => ?_⟩
    cases applied <;> exact fun report ho => by cases ho

end CairnId
