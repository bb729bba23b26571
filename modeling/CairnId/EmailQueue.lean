import CairnId.EmailDelivery

/-!
# When an email is delivered

The times in the rows of the outbox: which messages a worker may take, when, and what follows
for workers that keep to their time.

## Main definitions

- `RowTimely` — the times that decide when a row is taken again
- `openLeases` — what workers have claimed and not marked
- `prompt` — the steps of workers that keep to their time

## Main results

- `claimed_in_time` — no message is lost or stuck
- `taken_once_of_prompt` — prompt workers deliver once
- `length_claimed_eq` — the summary of the queue tells what the next claim takes
-/

namespace CairnId

open Concurrency Prog Lease

variable {P : Primitives} {parseReceipt : String → Option (Option String)}
  {settings : DeliverySettings} {clock : OffsetDateTime} {p : OutboxPool} {id : Uuid}

-- what is not finished

/-- The clock does not run backwards. -/
theorem exec_clock {e : DeliveryCall} {ch : OutboxChoice} {w w' : OutboxWorld} {r : e.Answer}
    (hexec : e.exec ch w = some (r, w')) : w.clock ≤ w'.clock := by
  cases e with
  | nowUtc =>
    rw [DeliveryCall.exec] at hexec
    split at hexec
    · rename_i hclock
      cases hexec
      exact hclock
    · cases hexec
  | claimEmailOutboxMessages =>
    obtain ⟨-, ⟨rfl, -⟩ | ⟨-, hclock, -⟩⟩ := exec_claim hexec
    · exact le_refl _
    · exact hclock.ge
  | markEmailOutboxSent id => exact (exec_mark id rfl hexec).1.ge
  | markEmailOutboxRetry id => exact (exec_mark id rfl hexec).1.ge
  | markEmailOutboxFailed id => exact (exec_mark id rfl hexec).1.ge
  | printPayload =>
    cases hexec
    exact le_refl _
  | runCommand =>
    cases hexec
    exact le_refl _
  | insertEmailOutboxMessage message => exact (exec_insert message.id hexec).1.ge
  | applyKeyEncryptionRotation =>
    obtain ⟨hle, hclock, -⟩ := exec_reencrypt 0 hexec
    exact hclock ▸ hle

/-- What the clock showed a worker is in the past. -/
def ClockRead (w : OutboxWorld) (tr : OutboxTrace) : Prop :=
  ∀ i t, ⟨.nowUtc, t⟩ ∈ own i tr → t ≤ w.clock

theorem ClockRead.step {w w' : OutboxWorld} {tr : OutboxTrace} {i : ℕ} {e : DeliveryCall}
    {ch : OutboxChoice} {r : e.Answer} (h : ClockRead w tr)
    (hexec : e.exec ch w = some (r, w')) : ClockRead w' (⟨i, ⟨e, r⟩, w⟩ :: tr) := by
  intro j t hmem
  have hclock := exec_clock hexec
  obtain ⟨-, hev⟩ | hmem := mem_own_cons.mp hmem
  · cases hev
    rw [DeliveryCall.exec] at hexec
    split at hexec
    · cases hexec
      exact le_refl _
    · cases hexec
  · exact (h j t hmem).trans hclock

/-- The times in a row that decide when it is taken again. -/
def RowTimely (settings : DeliverySettings) (clock : OffsetDateTime) (m : EmailOutboxMessage) :
    Prop :=
  (m.status = "queued" → m.nextAttemptAt = none) ∧
    (m.status = "retry" → ∀ next ∈ m.nextAttemptAt,
      next ≤ clock + Duration.seconds settings.emailDelivery.retrySeconds) ∧
    (m.status = "sending" → m.updatedAt ≤ clock)

theorem RowTimely.mono {clock' : OffsetDateTime} {m : EmailOutboxMessage}
    (h : RowTimely settings clock m) (hle : clock ≤ clock') : RowTimely settings clock' m := by
  obtain ⟨hqueued, hretry, hsending⟩ := h
  refine ⟨hqueued, fun hs next hnext => ?_, fun hs => (hsending hs).trans hle⟩
  exact (hretry hs next hnext).trans (Int.add_le_add_right hle _)

/-- Rows are timely in every run. -/
theorem rowTimely (h : (outboxMachine P parseReceipt settings).Reachable (.initial clock) p) :
    ClockRead p.world p.trace ∧
      ∀ id m, p.world.outbox.find id = some m → RowTimely settings p.world.clock m := by
  refine h.invariant (fun q => sat_outboxHandler q) (fun w tr => ClockRead w tr ∧
    ∀ id m, w.outbox.find id = some m → RowTimely settings w.clock m)
    ⟨by simp [ClockRead], fun id m hm => by simp [OutboxWorld.initial] at hm⟩ ?_
  intro p i q e ch r w' _ hinv hpre hexec
  obtain ⟨hread, ih⟩ := hinv
  refine ⟨hread.step hexec, fun id m hm => ?_⟩
  have hclock := exec_clock hexec
  have hrow := rowOf_exec hpre hexec id
  rw [hm] at hrow
  generalize hbefore : p.world.outbox.find id = before at hrow
  cases hrow with
  | same => exact (ih id m hbefore).mono hclock
  | queued new =>
    have hstatus := new.status
    refine ⟨fun _ => new.nextAttemptAt, fun h => ?_, fun h => ?_⟩ <;> simp [h] at hstatus
  | claimed m₀ limit instant stale he =>
    subst he
    have hinstant : instant ≤ p.world.clock := by
      cases q with
      | deliver => exact hread i instant hpre.2.1
      | enqueue => cases hpre
      | reencrypt => cases hpre
    refine ⟨fun h => ?_, fun h => ?_, fun _ => hinstant.trans hclock⟩
    · simp [EmailOutboxMessage.claim] at h
    · simp [EmailOutboxMessage.claim] at h
  | marked m₀ _ _ _ hmarks =>
    cases hmarks with
    | sent =>
      refine ⟨fun h => ?_, fun h => ?_, fun h => ?_⟩ <;> simp [EmailOutboxMessage.sent] at h
    | failed =>
      refine ⟨fun h => ?_, fun h => ?_, fun h => ?_⟩ <;> simp [EmailOutboxMessage.failed] at h
    | retry id' lastError nextAttemptAt instant =>
      have hnext : nextAttemptAt = instant + Duration.seconds settings.emailDelivery.retrySeconds ∧
          instant ≤ p.world.clock := by
        cases q with
        | deliver => exact ⟨hpre.2.2.2.2, hread i instant hpre.2.1⟩
        | enqueue => cases hpre
        | reencrypt => cases hpre
      refine ⟨fun h => ?_, fun _ next hmem => ?_, fun h => ?_⟩
      · simp [EmailOutboxMessage.retry] at h
      · obtain rfl := Option.some.inj hmem
        rw [hnext.1]
        exact Int.add_le_add_right (hnext.2.trans hclock) _
      · simp [EmailOutboxMessage.retry] at h
  | reencrypted m₀ _ tokens _ hsame hupdated =>
    obtain ⟨hqueued, hretry, hsending⟩ := (ih id m₀ hbefore).mono hclock
    rw [RowTimely, hsame.status, hsame.nextAttemptAt]
    refine ⟨hqueued, hretry, fun hs => ?_⟩
    obtain hupdated | hupdated := hupdated
    · exact hupdated ▸ hsending hs
    · exact hupdated.le

theorem status_cases (h : (outboxMachine P parseReceipt settings).Reachable (.initial clock) p)
    {m : EmailOutboxMessage} (hm : p.world.outbox.find id = some m) :
    m.status ∈ ["queued", "retry", "sending", "sent", "failed"] := by
  have hinv : RowsSound p.world := by
    refine h.invariant (fun q => sat_outboxHandler q) (fun w _ => RowsSound w)
      (fun id m hm => by simp [OutboxWorld.initial] at hm) ?_
    intro p i q e ch r w' _ hrows hpre hexec id m hm
    exact (rowOf_exec hpre hexec id).sound (hrows id) m hm
  exact (hinv id m hm).2

/-- No message is stuck: whatever became of its workers, a message that is not finished can
    be claimed from the time on at which both delays of the settings have passed. -/
theorem claimable_after (h : (outboxMachine P parseReceipt settings).Reachable (.initial clock) p)
    {m : EmailOutboxMessage} (hm : p.world.outbox.find id = some m) (hopen : ¬Finished m)
    {instant : OffsetDateTime}
    (hretry : p.world.clock + Duration.seconds settings.emailDelivery.retrySeconds ≤ instant)
    (htimeout : p.world.clock + Duration.seconds settings.emailDelivery.sendingTimeoutSeconds ≤
      instant) :
    m.Claimable instant
      (instant - Duration.seconds settings.emailDelivery.sendingTimeoutSeconds) := by
  obtain ⟨hqueued, hwaits, hsending⟩ := (rowTimely h).2 id m hm
  have hstatus := status_cases h hm
  simp only [List.mem_cons, List.not_mem_nil, or_false] at hstatus
  obtain hs | hs | hs | hs | hs := hstatus
  · refine .inl ⟨.inl hs, ?_⟩
    rw [hqueued hs]
    exact nofun
  · refine .inl ⟨.inr hs, fun next hnext => ?_⟩
    exact (hwaits hs next hnext).trans hretry
  · exact .inr ⟨hs, (hsending hs).trans (Int.le_sub_right_of_add_le htimeout)⟩
  · exact absurd (.inl hs) hopen
  · exact absurd (.inr hs) hopen

/-- Rows are never deleted. -/
theorem RowOf.isSome {e : DeliveryCall} {a b : Option EmailOutboxMessage} (h : RowOf clock e a b)
    (ha : a.isSome) : b.isSome := by
  cases h with
  | same => exact ha
  | _ => rfl

theorem find_isSome_of_run
    (h : (outboxMachine P parseReceipt settings).Reachable (.initial clock) p) {p' : OutboxPool}
    {ls : List (Label OutboxRequest OutboxChoice)}
    (hrun : (outboxMachine P parseReceipt settings).run p ls = some p')
    (hsome : (p.world.outbox.find id).isSome) : (p'.world.outbox.find id).isSome := by
  refine h.run_admissible (fun q => sat_outboxHandler q)
    (fun w w' => (w.outbox.find id).isSome → (w'.outbox.find id).isSome) (fun _ h => h)
    (fun _ _ _ hab hbc ha => hbc (hab ha)) ?_ hrun hsome
  intro p i q e ch r w' _ hpre hexec
  exact (rowOf_exec hpre hexec id).isSome

/-- An answered claim takes a message that it may take, unless somebody holds the row or the
    batch is full of messages that are no younger. -/
theorem claim_takes {limit : ℕ} {instant stale : OffsetDateTime} {ch : OutboxChoice}
    {w w' : OutboxWorld} {batch : Batch}
    (hexec : DeliveryCall.exec (.claimEmailOutboxMessages limit instant stale) ch w =
      some (.ok batch, w')) {m : EmailOutboxMessage} (hm : w.outbox.find id = some m)
    (hclaimable : m.Claimable instant stale) (hlocked : id ∉ ch.locked) :
    m.claim instant ∈ batch.messages ∨
      (batch.messages.length = limit ∧ ∀ b ∈ batch.messages, b.createdAt ≤ m.createdAt) := by
  obtain ⟨hsel, ⟨-, hr⟩ | ⟨ho, -, hr⟩⟩ := exec_claim hexec
  · cases hr
  have hbatch : batch = w.outbox.batch instant ch.picked hsel.1 := by
    obtain hr | hr := hr <;> cases hr
    rfl
  have hkey : m.id = id := Outbox.id_of_find hm
  have hcandidate : m ∈ w.outbox.candidates instant stale ch.locked := by
    refine List.mem_filter.mpr ⟨(Outbox.find_eq_some.mp hm).1, decide_eq_true ⟨hclaimable, ?_⟩⟩
    rwa [hkey]
  by_cases hpicked : id ∈ ch.picked
  · left
    rw [hbatch]
    have hkey' : (m.claim instant).id = id := hkey
    refine Outbox.mem_claimed.mpr ⟨hkey'.symm ▸ hpicked, ?_⟩
    rw [hkey', Outbox.find_claim, hm, Option.map_some, if_pos hpicked]
  · right
    obtain ⟨hnodup, hsub, hlength, holdest⟩ := hsel
    have hfound : ∀ id' ∈ ch.picked, ∃ b ∈ w.outbox.candidates instant stale ch.locked,
        b.id = id' ∧ w.outbox.find id' = some b := by
      intro id' hid'
      obtain ⟨b, hb, rfl⟩ := List.mem_map.mp (hsub hid')
      exact ⟨b, hb, rfl, Outbox.find_eq_some.mpr ⟨(List.mem_filter.mp hb).1, rfl⟩⟩
    constructor
    · -- the batch is as long as the list of rows picked, which left a candidate out
      have hall : (w.outbox.claimed instant ch.picked).length = ch.picked.length := by
        have hmap : (w.outbox.claimed instant ch.picked).map EmailOutboxMessage.id = ch.picked := by
          rw [Outbox.map_id_claimed, List.filter_eq_self]
          intro id' hid'
          obtain ⟨b, -, -, hb⟩ := hfound id' hid'
          rw [hb]
          rfl
        simpa using congrArg List.length hmap
      have hleft : ch.picked.length < (w.outbox.candidates instant stale ch.locked).length := by
        have hsubperm : (id :: ch.picked).Subperm
            ((w.outbox.candidates instant stale ch.locked).map EmailOutboxMessage.id) := by
          refine List.Nodup.subperm (List.nodup_cons.mpr ⟨hpicked, hnodup⟩) fun id' hid' => ?_
          obtain rfl | hid' := List.mem_cons.mp hid'
          · exact List.mem_map.mpr ⟨m, hcandidate, hkey⟩
          · exact hsub hid'
        exact Nat.lt_of_succ_le (by simpa using hsubperm.length_le)
      rw [hbatch]
      change (w.outbox.claimed instant ch.picked).length = limit
      omega
    · intro b hb
      rw [hbatch] at hb
      obtain ⟨hid', hfind⟩ := Outbox.mem_claimed.mp hb
      obtain ⟨b', hb', hkey', hfind'⟩ := hfound b.id hid'
      rw [Outbox.find_claim, hfind', Option.map_some, if_pos hid'] at hfind
      have hcreated : b.createdAt = b'.createdAt := by
        rw [← Option.some.inj hfind]
        rfl
      rw [hcreated]
      exact holdest m hcandidate (hkey ▸ hpicked) b' hb' (hkey' ▸ hid')

/-- When a call claims. -/
def DeliveryCall.claimInstant : DeliveryCall → Option OffsetDateTime
  | .claimEmailOutboxMessages _ instant _ => some instant
  | _ => none

/-- The messages that workers have claimed and not marked, with the time of the claim. -/
def openLeases (tr : OutboxTrace) : List (Uuid × OffsetDateTime) :=
  tr.flatMap fun x => (claimedMessages x.event).filterMap fun m =>
    if (own x.thread tr).any fun ev => ev.1.marked = some m.id then none
    else x.event.1.claimInstant.map (m.id, ·)

/-- The claims and marks of a worker are answered, and by the time of a claim every worker
    has marked what it claimed or is within the timeout. -/
def promptCall (settings : DeliverySettings) (p : OutboxPool) (c : OutboxChoice) :
    DeliveryCall → Bool
  | .claimEmailOutboxMessages .. => decide (c.link = .answered) &&
    (openLeases p.trace).all fun l => decide (p.world.clock <
      l.2 + Duration.seconds settings.emailDelivery.sendingTimeoutSeconds)
  | .markEmailOutboxSent .. => decide (c.link = .answered)
  | .markEmailOutboxRetry .. => decide (c.link = .answered)
  | .markEmailOutboxFailed .. => decide (c.link = .answered)
  | _ => true

def prompt (settings : DeliverySettings) (p : OutboxPool) : Label OutboxRequest OutboxChoice → Bool
  | .spawn _ => true
  | .run i c => match p.threads[i]? with
    | some ⟨_, .call e _⟩ => promptCall settings p c e
    | _ => true

theorem mem_openLeases {tr : OutboxTrace} {id : Uuid} {instant : OffsetDateTime} :
    (id, instant) ∈ openLeases tr ↔ ∃ y ∈ tr, y.event.1.claimInstant = some instant ∧
      (∃ m ∈ claimedMessages y.event, m.id = id) ∧ Unmarked (own y.thread tr) id := by
  simp only [openLeases, List.mem_flatMap, List.mem_filterMap]
  constructor
  · rintro ⟨y, hy, m, hm, h⟩
    split at h
    · cases h
    · rename_i hunmarked
      obtain ⟨t, ht, hpair⟩ := Option.map_eq_some_iff.mp h
      obtain ⟨rfl, rfl⟩ := Prod.mk.inj hpair
      refine ⟨y, hy, ht, ⟨m, hm, rfl⟩, fun ev hev hmarked => hunmarked ?_⟩
      exact List.any_eq_true.mpr ⟨ev, hev, decide_eq_true hmarked⟩
  · rintro ⟨y, hy, ht, ⟨m, hm, rfl⟩, hunmarked⟩
    refine ⟨y, hy, m, hm, ?_⟩
    rw [if_neg, ht, Option.map_some]
    intro hany
    obtain ⟨ev, hev, hmarked⟩ := List.any_eq_true.mp hany
    exact hunmarked ev hev (of_decide_eq_true hmarked)

/-- A lease stays open through a call that does not mark its message. -/
theorem mem_openLeases_cons {x : Entry DeliveryCall.Answer OutboxWorld} {tr : OutboxTrace}
    {id : Uuid} {instant : OffsetDateTime} (hmarked : x.event.1.marked ≠ some id)
    (h : (id, instant) ∈ openLeases tr) : (id, instant) ∈ openLeases (x :: tr) := by
  obtain ⟨y, hy, ht, hm, hunmarked⟩ := mem_openLeases.mp h
  refine mem_openLeases.mpr ⟨y, List.mem_cons_of_mem _ hy, ht, hm, fun ev hev => ?_⟩
  obtain ⟨-, rfl⟩ | hev := mem_own_cons.mp hev
  · exact hmarked
  · exact hunmarked ev hev

theorem exec_claim_answered {limit : ℕ} {instant stale : OffsetDateTime} {ch : OutboxChoice}
    {w w' : OutboxWorld} {r : Except DatabaseError Batch} (hlink : ch.link = .answered)
    (hexec : DeliveryCall.exec (.claimEmailOutboxMessages limit instant stale) ch w =
      some (r, w')) :
    ∃ hsel : Selects limit (w.outbox.candidates instant stale ch.locked) ch.picked,
      r = .ok (w.outbox.batch instant ch.picked hsel.1) ∧
        w' = { w with outbox := w.outbox.claim instant ch.picked } := by
  rw [DeliveryCall.exec, hlink] at hexec
  split at hexec
  · rename_i hsel
    obtain ⟨rfl, rfl⟩ := Prod.mk.inj (Option.some.inj hexec)
    exact ⟨hsel, rfl, rfl⟩
  · cases hexec

/-- Once a mark is answered, its message is not being sent. -/
theorem exec_mark_answered {e : DeliveryCall} {ch : OutboxChoice} {w w' : OutboxWorld}
    {r : e.Answer} {m' : EmailOutboxMessage} (hlink : ch.link = .answered)
    (hmarked : e.marked = some id) (hexec : e.exec ch w = some (r, w'))
    (hm' : w'.outbox.find id = some m') : m'.status ≠ "sending" := by
  have key : ∀ (f : EmailOutboxMessage → EmailOutboxMessage) (hf : ∀ m, (f m).id = m.id),
      (∀ m, (f m).status ≠ "sending") → w'.outbox = (w.outbox.markSending id f hf).2 →
      m'.status ≠ "sending" := by
    intro f hf hstatus ho
    rw [ho, Outbox.find_markSending] at hm'
    obtain ⟨m, -, rfl⟩ := Option.map_eq_some_iff.mp hm'
    by_cases hsending : m.status = "sending"
    · simpa [hsending] using hstatus m
    · simp [hsending]
  cases e with
  | markEmailOutboxSent _ providerMessageId instant =>
    cases hmarked
    rw [DeliveryCall.exec, hlink] at hexec
    cases hexec
    exact key (EmailOutboxMessage.sent providerMessageId instant) (fun _ => rfl)
      (fun m => by simp [EmailOutboxMessage.sent]) rfl
  | markEmailOutboxRetry _ lastError nextAttemptAt instant =>
    cases hmarked
    rw [DeliveryCall.exec, hlink] at hexec
    cases hexec
    exact key (EmailOutboxMessage.retry lastError nextAttemptAt instant) (fun _ => rfl)
      (fun m => by simp [EmailOutboxMessage.retry]) rfl
  | markEmailOutboxFailed _ lastError instant =>
    cases hmarked
    rw [DeliveryCall.exec, hlink] at hexec
    cases hexec
    exact key (EmailOutboxMessage.failed lastError instant) (fun _ => rfl)
      (fun m => by simp [EmailOutboxMessage.failed]) rfl
  | _ => cases hmarked

/-- A message being sent is one that a worker claimed and has not marked. -/
def HasLease (p : OutboxPool) (id : Uuid) : Prop :=
  ∀ m, p.world.outbox.find id = some m → m.status = "sending" →
    ∃ instant, (id, instant) ∈ openLeases p.trace ∧ instant ≤ m.updatedAt ∧
      instant ≤ p.world.clock

theorem leaseOf_eq_none {x : Entry DeliveryCall.Answer OutboxWorld}
    (hx : claimedMessages x.event = []) : leaseOf id x = none := by
  rw [leaseOf, hx]
  rfl

/-- A call that does not claim keeps the leases, if it changes rows as a call may. -/
theorem HasLease.step {p : OutboxPool} {i : ℕ} {e : DeliveryCall} {r : e.Answer} {w' : OutboxWorld}
    {ts : List OutboxThread}
    (h : HasLease p id) (hclock : p.world.clock ≤ w'.clock) (hclaim : e.isClaim = false)
    (hrow : RowOf w'.clock e (p.world.outbox.find id) (w'.outbox.find id))
    (hmarked : e.marked = some id → ∀ m, w'.outbox.find id = some m → m.status ≠ "sending") :
    HasLease ⟨w', ts, ⟨i, ⟨e, r⟩, p.world⟩ :: p.trace⟩ id := by
  intro m hm hsending
  change w'.outbox.find id = some m at hm
  have hunmarked : e.marked ≠ some id := fun hmark => hmarked hmark m hm hsending
  -- the row was being sent before, and has not been changed to an earlier time
  have hbefore : ∃ m₀, p.world.outbox.find id = some m₀ ∧ m₀.status = "sending" ∧
      (m.updatedAt = m₀.updatedAt ∨ m.updatedAt = w'.clock) := by
    rw [hm] at hrow
    generalize hb : p.world.outbox.find id = before at hrow
    cases hrow with
    | same => exact ⟨m, rfl, hsending, .inl rfl⟩
    | queued new =>
      rw [new.status] at hsending
      exact absurd hsending (by decide)
    | claimed _ _ _ _ he =>
      subst he
      cases hclaim
    | marked m₀ _ he =>
      have hkey : m₀.id = id := Outbox.id_of_find hb
      exact absurd (he.trans (congrArg some hkey)) hunmarked
    | reencrypted m₀ _ _ _ hsame hupdated => exact ⟨m₀, rfl, hsame.status ▸ hsending, hupdated⟩
  obtain ⟨m₀, hm₀, hsending₀, hupdated⟩ := hbefore
  obtain ⟨instant, hopen, hle, hpast⟩ := h m₀ hm₀ hsending₀
  refine ⟨instant, mem_openLeases_cons hunmarked hopen, ?_, hpast.trans hclock⟩
  obtain hupdated | hupdated := hupdated
  · exact hupdated ▸ hle
  · exact hupdated ▸ hpast.trans hclock

/-- An answered claim at a time at which every open lease is within the timeout. -/
theorem HasLease.claim {p : OutboxPool} {i limit : ℕ} {instant stale : OffsetDateTime}
    {r : Except DatabaseError Batch} {ch : OutboxChoice} {w' : OutboxWorld}
    (ts : List OutboxThread) (h : HasLease p id) (hlink : ch.link = .answered)
    (hexec : DeliveryCall.exec (.claimEmailOutboxMessages limit instant stale) ch p.world =
      some (r, w'))
    (hfirst : ∀ ev ∈ own i p.trace, ev.1 = .nowUtc) (hpast : instant ≤ p.world.clock)
    (hstale : stale = instant - Duration.seconds settings.emailDelivery.sendingTimeoutSeconds)
    (hprompt : ∀ l ∈ openLeases p.trace, p.world.clock <
      l.2 + Duration.seconds settings.emailDelivery.sendingTimeoutSeconds) :
    HasLease ⟨w', ts,
        ⟨i, ⟨.claimEmailOutboxMessages limit instant stale, r⟩, p.world⟩ :: p.trace⟩ id ∧
      staleClaims id (⟨i, ⟨.claimEmailOutboxMessages limit instant stale, r⟩, p.world⟩ :: p.trace) =
        staleClaims id p.trace := by
  obtain ⟨hsel, rfl, rfl⟩ := exec_claim_answered hlink hexec
  -- a message being sent is not stale
  have hfresh : ∀ m, p.world.outbox.find id = some m → m.status = "sending" →
      ¬m.Claimable instant stale := by
    intro m hm hsending hclaimable
    obtain ⟨t, hopen, hle, -⟩ := h m hm hsending
    have hwithin := hprompt _ hopen
    obtain ⟨hs, -⟩ | ⟨-, hupdated⟩ := hclaimable
    · rw [hsending] at hs
      exact absurd hs (by decide)
    · have h₁ : t ≤ instant - Duration.seconds settings.emailDelivery.sendingTimeoutSeconds :=
        hle.trans (hstale ▸ hupdated)
      have h₂ : p.world.clock < t + Duration.seconds settings.emailDelivery.sendingTimeoutSeconds :=
        hwithin
      have h₃ := hpast
      simp only [OffsetDateTime] at h₁ h₂ h₃
      omega
  constructor
  · intro m hm hsending
    change (p.world.outbox.claim instant ch.picked).find id = some m at hm
    by_cases hid : id ∈ ch.picked
    · obtain ⟨m₀, hm₀, -, hclaimed⟩ := picked_row hsel hid
      rw [hclaimed] at hm
      obtain rfl := Option.some.inj hm
      refine ⟨instant, mem_openLeases.mpr ⟨_, List.mem_cons_self, rfl, ⟨m₀.claim instant, ?_, ?_⟩,
        ?_⟩, le_refl _, hpast⟩
      · have hkey : m₀.id = id := Outbox.id_of_find hm₀
        have hkey' : (m₀.claim instant).id = id := hkey
        refine Outbox.mem_claimed.mpr ⟨hkey'.symm ▸ hid, ?_⟩
        rw [hkey', hclaimed]
      · have hkey : m₀.id = id := Outbox.id_of_find hm₀
        exact hkey
      · intro ev hev
        obtain ⟨-, rfl⟩ | hev := mem_own_cons.mp hev
        · exact nofun
        · rw [hfirst ev hev]
          exact nofun
    · rw [Outbox.find_claim] at hm
      obtain ⟨m₀, hm₀, rfl⟩ := Option.map_eq_some_iff.mp hm
      rw [if_neg hid] at hsending ⊢
      obtain ⟨t, hopen, hle, hpast'⟩ := h m₀ hm₀ hsending
      exact ⟨t, mem_openLeases_cons nofun hopen, hle, hpast'⟩
  · rw [staleClaims, List.countP_cons, ← staleClaims]
    have hnot : ¬((leaseOf id ⟨i, ⟨.claimEmailOutboxMessages limit instant stale,
        .ok (p.world.outbox.batch instant ch.picked hsel.1)⟩, p.world⟩).isSome ∧
          phaseOf (p.world.outbox.find id) = .leased) := by
      rintro ⟨hlease, hphase⟩
      obtain ⟨⟨j, n⟩, hlease⟩ := Option.isSome_iff_exists.mp hlease
      obtain ⟨-, b, hb, rfl, -⟩ := leaseOf_eq_some.mp hlease
      obtain ⟨m₀, hm₀, hclaimable, -⟩ := picked_row hsel (Outbox.mem_claimed.mp hb).1
      rw [hm₀] at hphase
      have hsending : m₀.status = "sending" := by
        unfold phaseOf at hphase
        by_cases hwaiting : m₀.status = "queued" ∨ m₀.status = "retry"
        · simp [hwaiting] at hphase
        · by_contra hs
          simp [hwaiting, hs] at hphase
      exact hfresh m₀ hm₀ hsending hclaimable
    rw [if_neg (by simpa using hnot)]
    rfl

/-- No claim is stale in a run of prompt workers. -/
theorem staleClaims_eq_zero
    (h : (outboxMachine P parseReceipt settings).ReachableBy
      (fun p l => prompt settings p l = true) (.initial clock) p) (id : Uuid) :
    HasLease p id ∧ staleClaims id p.trace = 0 := by
  refine h.invariant (fun p => HasLease p id ∧ staleClaims id p.trace = 0) ⟨?_, rfl⟩
    (fun p q _ ih => ih) ?_
  · intro m hm
    simp [Machine.start, OutboxWorld.initial] at hm
  intro p i c q e k r w' hr hinv hprompt ht hexec
  obtain ⟨hlease, hzero⟩ := hinv
  have hpre : outboxPre P parseReceipt settings q (own i p.trace) e :=
    (hr.reachable.sat (fun q => sat_outboxHandler q) ht).1
  have hcall : promptCall settings p c e = true := by
    change prompt settings p (.run i c) = true at hprompt
    rwa [prompt, ht] at hprompt
  have hclock := exec_clock hexec
  have hrow := rowOf_exec hpre hexec id
  -- every call but a claim
  have hother : e.isClaim = false → (e.marked.isSome → c.link = .answered) →
      claimedMessages ⟨e, r⟩ = [] → HasLease ⟨w', p.threads.set i ⟨q, k r⟩,
        ⟨i, ⟨e, r⟩, p.world⟩ :: p.trace⟩ id ∧
        staleClaims id (⟨i, ⟨e, r⟩, p.world⟩ :: p.trace) = 0 := by
    intro hclaim hlink hclaimed
    refine ⟨hlease.step hclock hclaim hrow fun hmarked m hm => ?_, ?_⟩
    · exact exec_mark_answered (hlink (by simp [hmarked])) hmarked hexec hm
    · rw [staleClaims, List.countP_cons, ← staleClaims, hzero, leaseOf_eq_none hclaimed]
      rfl
  have hunmarked : (none : Option Uuid).isSome → c.link = .answered :=
    fun h => absurd h Bool.false_ne_true
  cases e with
  | claimEmailOutboxMessages limit instant stale =>
    rw [promptCall, Bool.and_eq_true, decide_eq_true_eq, List.all_eq_true] at hcall
    obtain ⟨hlink, hopen⟩ := hcall
    have hdeliver : deliveryPre P parseReceipt settings (own i p.trace)
        (.claimEmailOutboxMessages limit instant stale) := by
      cases q with
      | deliver => exact hpre
      | enqueue => cases hpre
      | reencrypt => cases hpre
    obtain ⟨-, hnow, hstale, hfirst⟩ := hdeliver
    have hpast := (rowTimely hr.reachable).1 i instant hnow
    obtain ⟨hlease', hsame⟩ := hlease.claim (p.threads.set i ⟨q, k r⟩) hlink hexec hfirst
      hpast hstale fun l hl => of_decide_eq_true (hopen l hl)
    exact ⟨hlease', hsame.trans hzero⟩
  | markEmailOutboxSent => exact hother rfl (fun _ => of_decide_eq_true hcall) rfl
  | markEmailOutboxRetry => exact hother rfl (fun _ => of_decide_eq_true hcall) rfl
  | markEmailOutboxFailed => exact hother rfl (fun _ => of_decide_eq_true hcall) rfl
  | nowUtc => exact hother rfl hunmarked rfl
  | printPayload => exact hother rfl hunmarked rfl
  | runCommand => exact hother rfl hunmarked rfl
  | insertEmailOutboxMessage => exact hother rfl hunmarked rfl
  | applyKeyEncryptionRotation => exact hother rfl hunmarked rfl

/-- Workers whose statements are answered, and that mark what they claimed before the timeout,
    send no message twice and hand none over more than `max_attempts` times. -/
theorem taken_once_of_prompt
    (h : (outboxMachine P parseReceipt settings).ReachableBy
      (fun p l => prompt settings p l = true) (.initial clock) p) (id : Uuid) :
    (p.trace.countP fun x => taken x.event = some id) ≤ 1 ∧
      (p.trace.countP fun x => x.event.1.handedOver = some id) ≤
        settings.emailDelivery.maxAttempts := by
  obtain ⟨-, hzero⟩ := staleClaims_eq_zero h id
  have htaken := taken_of_stale h.reachable id
  have hhanded := handed_of_stale h.reachable id
  rw [hzero] at htaken hhanded
  exact ⟨htaken, hhanded⟩

open Sample in
set_option maxRecDepth 8000 in
/-- Two workers in turn, the first of which fails. -/
theorem delivered_promptly : ∃ p : OutboxPool,
    (p.trace.countP fun x => taken x.event = some 1) ≤ 1 ∧
      (p.trace.countP fun x => x.event.1.handedOver = some 1) ≤ 2 := by
  have hrun : (deliveryMachine.runBy (fun p l => prompt deliverySettings p l = true)
      (Machine.start (.initial 0)) (queuing ++ claimingAt 1 1 ++ handingAt 1 2 false ++
        claimingAt 2 40000000 ++ handingAt 2 40000001 true)).isSome = true := by decide
  obtain ⟨p, hp⟩ := Option.isSome_iff_exists.mp hrun
  exact ⟨p, taken_once_of_prompt (.runBy .start hp) 1⟩

-- the summary of the queue

theorem countP_eq_add {α : Type} {p a b : α → Bool} {l : List α}
    (h : ∀ x ∈ l, (p x).toNat = (a x).toNat + (b x).toNat) :
    l.countP p = l.countP a + l.countP b := by
  induction l with
  | nil => rfl
  | cons x l ih =>
    have hx := h x List.mem_cons_self
    have hl := ih fun y hy => h y (List.mem_cons_of_mem _ hy)
    rw [List.countP_cons, List.countP_cons, List.countP_cons, hl]
    cases hp : p x <;> cases ha : a x <;> cases hb : b x <;> simp [hp, ha, hb] at hx ⊢ <;> omega

/-- The rows that a claim may take are those that the summary counts as due. -/
theorem count_claimable (h : (outboxMachine P parseReceipt settings).Reachable (.initial clock) p)
    (instant stale : OffsetDateTime) :
    (p.world.outbox.count fun m => m.Claimable instant stale) =
      (p.world.outbox.queueSummary instant stale).queued +
        (p.world.outbox.queueSummary instant stale).retryDue +
        (p.world.outbox.queueSummary instant stale).staleSending := by
  have hrow : ∀ m ∈ p.world.outbox.messages,
      m.status ∈ ["queued", "retry", "sending", "sent", "failed"] ∧
        (m.status = "queued" → m.nextAttemptAt = none) := by
    intro m hm
    have hfind : p.world.outbox.find m.id = some m := Outbox.find_eq_some.mpr ⟨hm, rfl⟩
    exact ⟨status_cases h hfind, ((rowTimely h).2 m.id m hfind).1⟩
  have hwaiting : (p.world.outbox.count fun m => m.Claimable instant stale) =
      (p.world.outbox.count fun m => (m.status = "queued" ∨ m.status = "retry") ∧
        ∀ next ∈ m.nextAttemptAt, next ≤ instant) +
      p.world.outbox.count fun m => m.status = "sending" ∧ m.updatedAt ≤ stale := by
    refine countP_eq_add fun m hm => ?_
    have hstatus := (hrow m hm).1
    simp only [List.mem_cons, List.not_mem_nil, or_false] at hstatus
    obtain hs | hs | hs | hs | hs := hstatus <;> simp [EmailOutboxMessage.Claimable, hs]
  have hdue : (p.world.outbox.count fun m => (m.status = "queued" ∨ m.status = "retry") ∧
        ∀ next ∈ m.nextAttemptAt, next ≤ instant) =
      (p.world.outbox.count fun m => m.status = "queued") +
      p.world.outbox.count fun m => m.status = "retry" ∧
        ∀ next ∈ m.nextAttemptAt, next ≤ instant := by
    refine countP_eq_add fun m hm => ?_
    obtain ⟨hstatus, hnext⟩ := hrow m hm
    by_cases hqueued : m.status = "queued"
    · simp [hqueued, hnext hqueued]
    · simp [hqueued]
  rw [hwaiting, hdue]
  rfl

theorem length_claimed {limit : ℕ} {instant stale : OffsetDateTime} {ch : OutboxChoice}
    {w w' : OutboxWorld} {batch : Batch}
    (hexec : DeliveryCall.exec (.claimEmailOutboxMessages limit instant stale) ch w =
      some (.ok batch, w')) (hlocked : ch.locked = []) :
    batch.messages.length = min limit (w.outbox.count fun m => m.Claimable instant stale) := by
  obtain ⟨hsel, ⟨-, hr⟩ | ⟨-, -, hr⟩⟩ := exec_claim hexec
  · cases hr
  have hbatch : batch = w.outbox.batch instant ch.picked hsel.1 := by
    obtain hr | hr := hr <;> cases hr
    rfl
  have hmap : (w.outbox.claimed instant ch.picked).map EmailOutboxMessage.id = ch.picked := by
    rw [Outbox.map_id_claimed, List.filter_eq_self]
    intro id hid
    obtain ⟨m, hm, -⟩ := picked_row hsel hid
    rw [hm]
    rfl
  have hcandidates : (w.outbox.candidates instant stale ch.locked).length =
      w.outbox.count fun m => m.Claimable instant stale := by
    rw [Outbox.candidates, hlocked, ← List.countP_eq_length_filter]
    simp [Outbox.count]
  have hlength : (w.outbox.claimed instant ch.picked).length = ch.picked.length := by
    simpa using congrArg List.length hmap
  rw [hbatch]
  change (w.outbox.claimed instant ch.picked).length = _
  rw [hlength, ← hcandidates]
  exact hsel.2.2.1

/-- The summary of the queue counts every message in one of its states, and tells how many
    the next claim takes when nobody holds a row. -/
theorem length_claimed_eq
    (h : (outboxMachine P parseReceipt settings).Reachable (.initial clock) p) {limit : ℕ}
    {instant stale : OffsetDateTime} {ch : OutboxChoice} {w' : OutboxWorld} {batch : Batch}
    (hexec : DeliveryCall.exec (.claimEmailOutboxMessages limit instant stale) ch p.world =
      some (.ok batch, w')) (hlocked : ch.locked = []) :
    let summary := p.world.outbox.queueSummary instant stale
    batch.messages.length = min limit (summary.queued + summary.retryDue + summary.staleSending) ∧
      summary.unfinished = summary.queued + summary.retry + summary.sending + summary.failed ∧
      summary.unfinished + summary.sent = p.world.outbox.messages.length := by
  have hstatus : ∀ m ∈ p.world.outbox.messages,
      m.status ∈ ["queued", "retry", "sending", "sent", "failed"] := fun m hm =>
    status_cases h (Outbox.find_eq_some.mpr ⟨hm, rfl⟩)
  refine ⟨?_, ?_, ?_⟩
  · rw [length_claimed hexec hlocked, count_claimable h]
  · have hsplit : ∀ (status : String) (rest : List String), status ∉ rest →
        (p.world.outbox.count fun m => m.status ∈ status :: rest) =
          (p.world.outbox.count fun m => m.status = status) +
            p.world.outbox.count fun m => m.status ∈ rest := by
      intro status rest hnot
      refine countP_eq_add fun m _ => ?_
      by_cases hm : m.status = status
      · simp [hm, hnot]
      · simp [hm]
    have hnil : (p.world.outbox.count fun m => m.status ∈ ([] : List String)) = 0 := by
      simp [Outbox.count]
    change (p.world.outbox.count fun m => m.status ∈ ["queued", "retry", "sending", "failed"]) = _
    rw [hsplit _ _ (by decide), hsplit _ _ (by decide), hsplit _ _ (by decide),
      hsplit _ _ (by decide), hnil]
    change _ = (p.world.outbox.count _) + (p.world.outbox.count _) + (p.world.outbox.count _) +
      (p.world.outbox.count _)
    omega
  · have htotal : p.world.outbox.messages.length = p.world.outbox.count fun _ => true := by
      simp [Outbox.count]
    rw [htotal]
    refine (countP_eq_add fun m hm => ?_).symm
    have hs := hstatus m hm
    simp only [List.mem_cons, List.not_mem_nil, or_false] at hs
    obtain hs | hs | hs | hs | hs := hs <;> simp [hs]

open Sample in
set_option maxRecDepth 8000 in
theorem queuing_summary : ∃ (p : OutboxPool) (batch : Batch),
    let summary := p.world.outbox.queueSummary 1 0
    batch.messages.length = min 10 (summary.queued + summary.retryDue + summary.staleSending) ∧
      summary.unfinished = summary.queued + summary.retry + summary.sending + summary.failed ∧
      summary.unfinished + summary.sent = p.world.outbox.messages.length := by
  have hrun : (deliveryMachine.run (Machine.start (.initial 0)) queuing).map
      (fun p => (DeliveryCall.exec (.claimEmailOutboxMessages 10 1 0) { picked := [1] }
        p.world).map fun x => x.1.isOk) = some (some true) := by decide
  obtain ⟨p, -, hp, hexec⟩ := reached hrun
  obtain ⟨⟨r, w'⟩, hexec, hok⟩ := Option.map_eq_some_iff.mp hexec
  cases r with
  | error e => cases hok
  | ok batch => exact ⟨p, batch, length_claimed_eq hp hexec rfl⟩

end CairnId
