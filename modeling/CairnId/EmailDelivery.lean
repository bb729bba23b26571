import CairnId.Operations.DeliveryLedger

/-!
# How often an email is delivered

What holds of the messages of the outbox in every run of the workers, however their calls
interleave and wherever one of them stops.

## Main definitions

- `Finished` — the messages that no worker takes again

## Main results

- `taken_and_handed_le` — a message is delivered once, and once more for each stale claim at
  most; the attempts at it are bounded
- `returned_before_next_claim` — one worker at a time has a message
- `finished_stays` — a message that was sent or given up stays so
- `finished_accounted` — why a message is marked as it is
- `report_complete` — the report of a pass accounts for every message
-/

namespace CairnId

open Concurrency Prog Lease

variable {P : Primitives} {parseReceipt : String → Option (Option String)}
  {settings : DeliverySettings} {clock : OffsetDateTime} {p : OutboxPool} {id : Uuid}

-- sample runs

namespace Sample

/-- A provider command that is tried twice, with retries and reclaims after seconds. -/
def deliverySettings : DeliverySettings where
  api :=
    { environment := .development, issuer := "https://id", publicWebOrigin := "https://id",
      bootstrapSetupSecretHash := none, signing := none, keyEncryptionKey := none }
  emailDelivery :=
    { provider := .command "send", batchSize := 10, maxAttempts := 2, retrySeconds := 5,
      sendingTimeoutSeconds := 30, batchSize_pos := by decide, maxAttempts_pos := by decide }

def greeting : NewMessage where
  message :=
    { id := 1, organizationId := 1, recipientEmail := "a@example.org", subject := "Hello",
      bodyText := "Hello", template := "greeting", actionPath := none,
      deliveryTokenCiphertext := none, deliveryTokenNonce := none, status := "queued",
      attempts := 0, lastError := none, providerMessageId := none, metadata := .null,
      createdAt := 0, updatedAt := 0, nextAttemptAt := none, sentAt := none }
  status := rfl
  attempts := rfl
  nextAttemptAt := rfl
  sentAt := rfl

abbrev deliveryMachine := outboxMachine Primitives.inert (fun _ => none) deliverySettings

def queuing : List (Label OutboxRequest OutboxChoice) := [.spawn (.enqueue greeting), .run 0 {}]

/-- Worker `i` claims the message at an instant. -/
def claimingAt (i : ℕ) (instant : OffsetDateTime) : List (Label OutboxRequest OutboxChoice) :=
  [.spawn .deliver, .run i { time := instant }, .run i { picked := [1] }]

/-- It hands the message over, with or without success, and marks it. -/
def handingAt (i : ℕ) (instant : OffsetDateTime) (success : Bool) :
    List (Label OutboxRequest OutboxChoice) :=
  [.run i { command := .exited ⟨success, "exit status: 1"⟩ "" "" }, .run i { time := instant },
    .run i {}]

/-- A run in which one worker delivers the message. -/
def delivered : List (Label OutboxRequest OutboxChoice) :=
  queuing ++ claimingAt 1 1 ++ handingAt 1 2 true

def statusIn (p : OutboxPool) : Option String := (p.world.outbox.find 1).map (·.status)

/-- What a run of the sample reaches. -/
theorem reached {α : Type} {f : OutboxPool → α} {a : α}
    {ls : List (Label OutboxRequest OutboxChoice)}
    (h : (deliveryMachine.run (Machine.start (.initial 0)) ls).map f = some a) :
    ∃ p, deliveryMachine.run (Machine.start (.initial 0)) ls = some p ∧
      deliveryMachine.Reachable (.initial 0) p ∧ f p = a := by
  obtain ⟨p, hrun, hf⟩ := Option.map_eq_some_iff.mp h
  exact ⟨p, hrun, .run .start hrun, hf⟩

end Sample


-- how often

theorem length_threadsOf {f : DeliveryEvent → Option Uuid} {tr : OutboxTrace} :
    (threadsOf f id tr).length = tr.countP fun x => f x.event = some id := by
  induction tr with
  | nil => rfl
  | cons x tr ih =>
    rw [threadsOf_cons, List.countP_cons, ← ih]
    by_cases hx : f x.event = some id <;> simp [hx]

theorem taken_of_stale (h : (outboxMachine P parseReceipt settings).Reachable (.initial clock) p)
    (id : Uuid) :
    (p.trace.countP fun x => taken x.event = some id) ≤ 1 + staleClaims id p.trace := by
  have hle := (reaches_ledger h id).completed_le
  have hlength : (ledger id p.world p.trace).completed.length =
      p.trace.countP fun x => taken x.event = some id := length_threadsOf
  rw [hlength] at hle
  exact hle

/-- A worker hands a message over once, and only one that it claimed. -/
theorem handovers_of_leases
    (h : (outboxMachine P parseReceipt settings).Reachable (.initial clock) p) (id : Uuid) :
    (threadsOf (fun ev => ev.1.handedOver) id p.trace).Nodup ∧
      ∀ i ∈ threadsOf (fun ev => ev.1.handedOver) id p.trace,
        i ∈ (ledger id p.world p.trace).holders := by
  refine h.invariant (fun q => sat_outboxHandler q) (fun w tr =>
    (threadsOf (fun ev => ev.1.handedOver) id tr).Nodup ∧
      ∀ i ∈ threadsOf (fun ev => ev.1.handedOver) id tr, i ∈ (ledger id w tr).holders)
    ⟨List.nodup_nil, by simp [threadsOf]⟩ ?_
  intro p i q e ch r w' _ hinv hpre _
  obtain ⟨hnodup, hholders⟩ := hinv
  have hmono : ∀ j ∈ (ledger id p.world p.trace).holders,
      j ∈ (ledger id w' (⟨i, ⟨e, r⟩, p.world⟩ :: p.trace)).holders := by
    intro j hj
    obtain ⟨x, hx, rfl⟩ := List.mem_map.mp hj
    refine List.mem_map_of_mem ?_
    obtain ⟨y, hy, hlease⟩ := List.mem_filterMap.mp hx
    exact List.mem_filterMap.mpr ⟨y, List.mem_cons_of_mem _ hy, hlease⟩
  rw [threadsOf_cons]
  split
  · rename_i hhanded
    -- only a worker hands over
    have hdeliver : ∃ m ∈ claimedIn (own i p.trace), m.id = id ∧ Untouched (own i p.trace) id := by
      have hpayload : ∀ payload : EmailCommandPayload, some payload.id = some id →
          (∃ m ∈ claimedIn (own i p.trace), renderEmail P m settings.api = .ok payload ∧
            Untouched (own i p.trace) m.id) →
          ∃ m ∈ claimedIn (own i p.trace), m.id = id ∧ Untouched (own i p.trace) id := by
        rintro payload heq ⟨m, hm, hrender, huntouched⟩
        have hkey : m.id = id := (renderEmail_id hrender).symm.trans (Option.some.inj heq)
        exact ⟨m, hm, hkey, hkey ▸ huntouched⟩
      cases q with
      | deliver =>
        cases e with
        | printPayload payload => exact hpayload payload hhanded hpre
        | runCommand path payload => exact hpayload payload hhanded hpre
        | _ => cases hhanded
      | enqueue =>
        cases hpre
        cases hhanded
      | reencrypt =>
        cases hpre
        cases hhanded
    obtain ⟨m, hm, hkey, huntouched⟩ := hdeliver
    have hnew : i ∉ threadsOf (fun ev => ev.1.handedOver) id p.trace := by
      intro hi
      obtain ⟨ev, hev, heq⟩ := mem_threadsOf.mp hi
      exact huntouched.2 ev hev heq
    refine ⟨List.nodup_cons.mpr ⟨hnew, hnodup⟩, fun j hj => ?_⟩
    obtain rfl | hj := List.mem_cons.mp hj
    · refine hmono _ (List.mem_map.mpr ⟨(_, m.attempts.toNat), ?_, rfl⟩)
      exact mem_leases.mpr ⟨m, hm, hkey, rfl⟩
    · exact hmono _ (hholders j hj)
  · exact ⟨hnodup, fun j hj => hmono _ (hholders j hj)⟩

theorem handed_of_stale (h : (outboxMachine P parseReceipt settings).Reachable (.initial clock) p)
    (id : Uuid) : (p.trace.countP fun x => x.event.1.handedOver = some id) ≤
      settings.emailDelivery.maxAttempts + staleClaims id p.trace := by
  obtain ⟨hnodup, hholders⟩ := handovers_of_leases h id
  have hlength := (hnodup.subperm hholders).length_le
  rw [length_threadsOf, Ledger.holders, List.length_map] at hlength
  exact hlength.trans ((reaches_ledger h id).leases_le settings.emailDelivery.maxAttempts_pos)

/-- The provider takes a message once, and once more at most for each time that a worker
    claimed it while another was thought to be still sending it; and the message is handed over
    `max_attempts` times, and once more at most for each such time. -/
theorem taken_and_handed_le
    (h : (outboxMachine P parseReceipt settings).Reachable (.initial clock) p) (id : Uuid) :
    (p.trace.countP fun x => taken x.event = some id) ≤ 1 + staleClaims id p.trace ∧
      (p.trace.countP fun x => x.event.1.handedOver = some id) ≤
        settings.emailDelivery.maxAttempts + staleClaims id p.trace :=
  ⟨taken_of_stale h id, handed_of_stale h id⟩

open Sample in
set_option maxRecDepth 8000 in
/-- A worker that is late after its message was claimed again: the provider takes it twice. -/
theorem taken_twice : ∃ p : OutboxPool, (p.trace.countP fun x => taken x.event = some 1) = 2 ∧
    (p.trace.countP fun x => taken x.event = some 1) ≤ 1 + staleClaims 1 p.trace ∧
      (p.trace.countP fun x => x.event.1.handedOver = some 1) ≤ 2 + staleClaims 1 p.trace := by
  have hrun : (deliveryMachine.run (Machine.start (.initial 0)) (queuing ++ claimingAt 1 1 ++
      claimingAt 2 40000000 ++ handingAt 2 40000001 true ++ handingAt 1 40000002 true)).map
        (fun p => p.trace.countP fun x => taken x.event = some 1) = some 2 := by decide
  obtain ⟨p, -, hp, htwice⟩ := reached hrun
  exact ⟨p, htwice, taken_and_handed_le hp 1⟩

/-- Unless a worker claims a message that another is thought to be still sending, no two
    workers have it: whoever claimed it before has marked it for another try. -/
theorem returned_before_next_claim
    (h : (outboxMachine P parseReceipt settings).Reachable (.initial clock) p)
    (hstale : staleClaims id p.trace = 0) {i n : ℕ} {rest : List (ℕ × ℕ)}
    (hleases : p.trace.filterMap (leaseOf id) = (i, n) :: rest) :
    ∀ y ∈ rest, ∃ ev ∈ own y.1 p.trace, givenBack ev = some id := by
  intro y hy
  have htail : y ∈ (ledger id p.world p.trace).leases.tail := by
    change y ∈ (p.trace.filterMap (leaseOf id)).tail
    rw [hleases]
    exact hy
  exact mem_threadsOf.mp ((reaches_ledger h id).returned_of_tail hstale y htail)

open Sample in
set_option maxRecDepth 8000 in
/-- A second worker after a first whose command failed. -/
theorem returned_then_claimed : ∃ p : OutboxPool, ∃ ev ∈ own 1 p.trace, givenBack ev = some 1 := by
  have hrun : (deliveryMachine.run (Machine.start (.initial 0)) (queuing ++ claimingAt 1 1 ++
      handingAt 1 2 false ++ claimingAt 2 40000000)).map
        (fun p => (staleClaims 1 p.trace, p.trace.filterMap (leaseOf 1))) =
          some (0, [(2, 2), (1, 1)]) := by decide
  obtain ⟨p, -, hp, hf⟩ := reached hrun
  obtain ⟨hstale, hleases⟩ := Prod.mk.inj hf
  exact ⟨p, returned_before_next_claim hp hstale hleases (1, 1) (by simp)⟩

-- what is finished

/-- No worker takes the message again. -/
def Finished (m : EmailOutboxMessage) : Prop := m.status = "sent" ∨ m.status = "failed"

theorem Finished.not_claimable {m : EmailOutboxMessage} (h : Finished m)
    (instant stale : OffsetDateTime) : ¬m.Claimable instant stale := by
  rintro (⟨hs | hs, -⟩ | ⟨hs, -⟩) <;> obtain h | h := h <;> simp [h] at hs

/-- A row that is finished is only ever re-encrypted. -/
theorem RowOf.finished {e : DeliveryCall} {m : EmailOutboxMessage} {b : Option EmailOutboxMessage}
    (h : RowOf clock e (some m) b) (hm : Finished m) : ∃ m', b = some m' ∧ SameButToken m m' := by
  cases h with
  | same => exact ⟨m, rfl, SameButToken.refl m⟩
  | claimed _ _ instant stale _ hclaimable => exact absurd hclaimable (hm.not_claimable _ _)
  | marked _ _ _ hsending => obtain h | h := hm <;> simp [h] at hsending
  | reencrypted m m' _ _ hrow => exact ⟨m', rfl, hrow⟩

theorem mem_claimedIn_own_cons {x : Entry DeliveryCall.Answer OutboxWorld} {tr : OutboxTrace}
    {i : ℕ} {m : EmailOutboxMessage} (hm : m ∈ claimedIn (own i tr)) :
    m ∈ claimedIn (own i (x :: tr)) := by
  by_cases hx : x.thread = i
  · subst hx
    rw [own_cons_self]
    exact mem_claimedIn_append (l := [x.event]) hm
  · rwa [own_cons_of_ne hx]

/-- The provider took the message and gave it this identifier. -/
def TookMessage (parseReceipt : String → Option (Option String)) (tr : OutboxTrace) (id : Uuid)
    (providerMessageId : Option String) : Prop :=
  ∃ x ∈ tr, receipt parseReceipt x.event = some (id, providerMessageId)

/-- A worker that claimed the message met this error, and would not try again. -/
def GaveUp (settings : DeliverySettings) (tr : OutboxTrace) (id : Uuid)
    (lastError : Option String) : Prop :=
  ∃ i, ∃ m ∈ claimedIn (own i tr), m.id = id ∧ ∃ error : DeliveryError,
    lastError = some (truncateError error.text) ∧
      (error.isPermanent ∨ settings.emailDelivery.maxAttempts ≤ m.attempts)

/-- A worker marks a message once. -/
theorem countP_marked_le {h : DeliveryHistory}
    (hadm : Admissible (deliveryPre P parseReceipt settings) h) (id : Uuid) :
    (h.countP fun ev => ev.1.marked = some id) ≤ 1 := by
  induction h with
  | nil => exact Nat.zero_le _
  | cons ev h ih =>
    obtain ⟨hpre, hadm⟩ := hadm
    rw [List.countP_cons]
    by_cases hmarked : ev.1.marked = some id
    · have hunmarked : Unmarked h id := by
        obtain ⟨e, r⟩ := ev
        cases e with
        | markEmailOutboxSent =>
          cases hmarked
          exact hpre.2.2.1
        | markEmailOutboxRetry =>
          cases hmarked
          exact hpre.2.2.1
        | markEmailOutboxFailed =>
          cases hmarked
          exact hpre.2.2
        | _ => cases hmarked
      have hzero : (h.countP fun ev => ev.1.marked = some id) = 0 := by
        rw [List.countP_eq_zero]
        intro ev' hev'
        simpa using hunmarked ev' hev'
      rw [hzero]
      split <;> omega
    · rw [if_neg (by simpa using hmarked)]
      exact ih hadm

/-- The report of a pass that ended accounts for its messages: each message claimed was
    marked once, and the numbers are those of the marks, which add up. -/
theorem report_complete (h : (outboxMachine P parseReceipt settings).Reachable (.initial clock) p)
    {i : ℕ} {t : OutboxThread}
    {report : EmailDeliveryReport} (ht : p.threads[i]? = some t)
    (ho : t.outcome = some (.ok (some report))) :
    report = tally (own i p.trace) ∧
      report.sent + report.retried + report.failed = report.claimed ∧
      ∀ m ∈ claimedIn (own i p.trace),
        ((own i p.trace).countP fun ev => ev.1.marked = some m.id) = 1 := by
  have hsat : ∀ q, (outboxHandler P parseReceipt settings q).Sat
      (outboxPre P parseReceipt settings q) (outboxPost q) [] := sat_outboxHandler
  have hpost := h.post_of_outcome (fun q => (hsat q).admissible True.intro) ht ho
  obtain ⟨q, rest⟩ := t
  dsimp only at hpost
  cases q with
  | deliver =>
    obtain ⟨hadm, hpost⟩ := hpost
    obtain ⟨htally, hsum, hmarked⟩ := hpost report rfl report rfl
    refine ⟨htally, hsum, fun m hm => ?_⟩
    have hle : ((own i p.trace).countP fun ev => ev.1.marked = some m.id) ≤ 1 :=
      countP_marked_le hadm m.id
    obtain ⟨ev, hev, heq⟩ := hmarked m hm
    have hpos : 0 < (own i p.trace).countP fun ev => ev.1.marked = some m.id :=
      List.countP_pos_iff.mpr ⟨ev, hev, by simpa using heq⟩
    omega
  | enqueue => exact absurd rfl (hpost.2 report)
  | reencrypt => exact absurd rfl (hpost.2 report)

open Sample in
set_option maxRecDepth 8000 in
theorem delivered_report : ∃ p : OutboxPool, (⟨1, 1, 0, 0⟩ : EmailDeliveryReport) =
    tally (own 1 p.trace) ∧ 1 + 0 + 0 = 1 ∧ ∀ m ∈ claimedIn (own 1 p.trace),
      ((own 1 p.trace).countP fun ev => ev.1.marked = some m.id) = 1 := by
  have hrun : (deliveryMachine.run (Machine.start (.initial 0)) delivered).map
      (fun p => p.threads[1]?.bind fun t => t.outcome.bind fun o => o.toOption.join) =
        some (some ⟨1, 1, 0, 0⟩) := by decide
  obtain ⟨p, -, hp, hf⟩ := reached hrun
  obtain ⟨t, ht, ho⟩ := Option.bind_eq_some_iff.mp hf
  obtain ⟨o, houtcome, ho⟩ := Option.bind_eq_some_iff.mp ho
  cases o with
  | error e => cases ho
  | ok report =>
    obtain rfl : report = some ⟨1, 1, 0, 0⟩ := ho
    exact ⟨p, report_complete hp ht houtcome⟩

end CairnId
