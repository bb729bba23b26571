import CairnId.Concurrency.Lease
import CairnId.Operations.DeliverySpec

/-!
# The books about an email

Any number of workers deliver the messages of the outbox while others queue messages and
re-encrypt their tokens. The books of a lease are kept about each message: every run of the
workers is one that the books allow.

## Main definitions

- `ledger` — the books about a message in a run
- `RowOf` — what a call makes of a row

## Main results

- `rowOf_exec` — everything that a call does to a row
- `ledger_step` — a call is at most one entry in the books
- `reaches_ledger` — the refinement, over whole runs
-/

namespace CairnId

open Concurrency Prog Lease

abbrev OutboxTrace := List (Entry DeliveryCall.Answer OutboxWorld)

abbrev OutboxThread := Thread DeliveryCall.Answer OutboxRequest DeliveryError
  (Option EmailDeliveryReport)

abbrev OutboxPool := Pool DeliveryCall.Answer OutboxRequest OutboxWorld DeliveryError
  (Option EmailDeliveryReport)

-- the books

/-- Where a message stands; one that is not queued yet waits. -/
def phaseOf : Option EmailOutboxMessage → Phase
  | none => .waiting
  | some m =>
    if m.status = "queued" ∨ m.status = "retry" then .waiting
    else if m.status = "sending" then .leased
    else .closed

/-- The lease on a message that a call was answered with. -/
def leaseOf (id : Uuid) (x : Entry DeliveryCall.Answer OutboxWorld) : Option (ℕ × ℕ) :=
  ((claimedMessages x.event).find? fun m => m.id = id).map fun m => (x.thread, m.attempts.toNat)

/-- The message that a call marks for another try. -/
def givenBack : DeliveryEvent → Option Uuid
  | ⟨.markEmailOutboxRetry id _ _ _, _⟩ => some id
  | _ => none

/-- The threads of the calls that did something to the message. -/
def threadsOf (f : DeliveryEvent → Option Uuid) (id : Uuid) (tr : OutboxTrace) : List ℕ :=
  tr.filterMap fun x => if f x.event = some id then some x.thread else none

/-- The claims by which a worker took a message that was being sent. -/
def staleClaims (id : Uuid) (tr : OutboxTrace) : ℕ :=
  tr.countP fun x => (leaseOf id x).isSome ∧ phaseOf (x.before.outbox.find id) = .leased

/-- The books about a message. -/
def ledger (id : Uuid) (w : OutboxWorld) (tr : OutboxTrace) : Ledger ℕ where
  phase := phaseOf (w.outbox.find id)
  issued := ((w.outbox.find id).map fun m => m.attempts.toNat).getD 0
  leases := tr.filterMap (leaseOf id)
  reclaims := staleClaims id tr
  completed := threadsOf taken id tr
  returned := threadsOf givenBack id tr

/-- Rows as they can come about: with one of the five states, and attempts counted up. -/
def RowsSound (w : OutboxWorld) : Prop :=
  ∀ id m, w.outbox.find id = some m → 0 ≤ m.attempts ∧
    m.status ∈ ["queued", "retry", "sending", "sent", "failed"]

section history

variable {id : Uuid} {tr : OutboxTrace} {x : Entry DeliveryCall.Answer OutboxWorld} {i : ℕ}

theorem mem_threadsOf {f : DeliveryEvent → Option Uuid} :
    i ∈ threadsOf f id tr ↔ ∃ ev ∈ own i tr, f ev = some id := by
  simp only [threadsOf, List.mem_filterMap, Option.ite_none_right_eq_some, Option.some.injEq,
    mem_own]
  constructor
  · rintro ⟨x, hx, hf, rfl⟩
    exact ⟨x.event, ⟨x, hx, rfl, rfl⟩, hf⟩
  · rintro ⟨_, ⟨x, hx, rfl, rfl⟩, hf⟩
    exact ⟨x, hx, hf, rfl⟩

theorem threadsOf_cons {f : DeliveryEvent → Option Uuid} :
    threadsOf f id (x :: tr) =
      if f x.event = some id then x.thread :: threadsOf f id tr else threadsOf f id tr := by
  rw [threadsOf, List.filterMap_cons]
  split <;> rename_i h <;> split at h <;> simp_all [threadsOf]

theorem nodup_claimedMessages (ev : DeliveryEvent) :
    ((claimedMessages ev).map EmailOutboxMessage.id).Nodup := by
  unfold claimedMessages
  split
  · rename_i batch
    exact batch.nodup
  · exact List.nodup_nil

theorem leaseOf_eq_some {n : ℕ} : leaseOf id x = some (i, n) ↔
    x.thread = i ∧ ∃ m ∈ claimedMessages x.event, m.id = id ∧ m.attempts.toNat = n := by
  rw [leaseOf, Option.map_eq_some_iff]
  constructor
  · rintro ⟨m, hm, h⟩
    obtain ⟨rfl, rfl⟩ := Prod.mk.inj h
    exact ⟨rfl, m, List.mem_of_find?_eq_some hm, by simpa using List.find?_some hm, rfl⟩
  · rintro ⟨rfl, m, hm, rfl, rfl⟩
    refine ⟨m, ?_, rfl⟩
    have hsome : ((claimedMessages x.event).find? fun m' => m'.id = m.id).isSome :=
      List.find?_isSome.mpr ⟨m, hm, by simp⟩
    obtain ⟨m', hm'⟩ := Option.isSome_iff_exists.mp hsome
    have hid : m'.id = m.id := by simpa using List.find?_some hm'
    rw [hm', List.inj_on_of_nodup_map (nodup_claimedMessages x.event)
      (List.mem_of_find?_eq_some hm') hm hid]

/-- The leases of a thread are the messages that it claimed. -/
theorem mem_leases {n : ℕ} : (i, n) ∈ tr.filterMap (leaseOf id) ↔
    ∃ m ∈ claimedIn (own i tr), m.id = id ∧ m.attempts.toNat = n := by
  simp only [List.mem_filterMap, leaseOf_eq_some, claimedIn, List.mem_flatMap, mem_own]
  constructor
  · rintro ⟨x, hx, hi, m, hm, hid, hn⟩
    exact ⟨m, ⟨x.event, ⟨x, hx, hi, rfl⟩, hm⟩, hid, hn⟩
  · rintro ⟨m, ⟨_, ⟨x, hx, hi, rfl⟩, hm⟩, hid, hn⟩
    exact ⟨x, hx, hi, m, hm, hid, hn⟩

end history

-- what a call does to the rows

theorem reply_eq {α : Type} {w w' : OutboxWorld} {link : Link} {a : α} {o : Outbox}
    {r : Except DatabaseError α} (h : w.reply link a o = (r, w')) :
    (w' = w ∧ r = .error (.sqlx .connection)) ∨
      (w'.outbox = o ∧ w'.clock = w.clock ∧ (r = .ok a ∨ r = .error (.sqlx .connection))) := by
  cases link with
  | answered =>
    obtain ⟨rfl, rfl⟩ := Prod.mk.inj h
    exact .inr ⟨rfl, rfl, .inl rfl⟩
  | refused =>
    obtain ⟨rfl, rfl⟩ := Prod.mk.inj h
    exact .inl ⟨rfl, rfl⟩
  | lost =>
    obtain ⟨rfl, rfl⟩ := Prod.mk.inj h
    exact .inr ⟨rfl, rfl, .inr rfl⟩

variable {ch : OutboxChoice} {w w' : OutboxWorld}

theorem exec_claim {limit : ℕ} {instant stale : OffsetDateTime} {r : Except DatabaseError Batch}
    (h : DeliveryCall.exec (.claimEmailOutboxMessages limit instant stale) ch w = some (r, w')) :
    ∃ hsel : Selects limit (w.outbox.candidates instant stale ch.locked) ch.picked,
      (w' = w ∧ r = .error (.sqlx .connection)) ∨
        (w'.outbox = w.outbox.claim instant ch.picked ∧ w'.clock = w.clock ∧
          (r = .ok (w.outbox.batch instant ch.picked hsel.1) ∨
            r = .error (.sqlx .connection))) := by
  rw [DeliveryCall.exec] at h
  split at h
  · rename_i hsel
    exact ⟨hsel, reply_eq (Option.some.inj h)⟩
  · cases h

/-- The three marks. -/
inductive Marks (m : EmailOutboxMessage) : DeliveryCall → EmailOutboxMessage → Prop
  | sent (id : Uuid) (providerMessageId : Option String) (instant : OffsetDateTime) :
    Marks m (.markEmailOutboxSent id providerMessageId instant) (m.sent providerMessageId instant)
  | retry (id : Uuid) (lastError : String) (nextAttemptAt instant : OffsetDateTime) :
    Marks m (.markEmailOutboxRetry id lastError nextAttemptAt instant)
      (m.retry lastError nextAttemptAt instant)
  | failed (id : Uuid) (lastError : String) (instant : OffsetDateTime) :
    Marks m (.markEmailOutboxFailed id lastError instant) (m.failed lastError instant)

/-- A mark changes the row of its message, if that is being sent. -/
theorem exec_mark {e : DeliveryCall} {r : e.Answer} {id : Uuid} (id' : Uuid)
    (hmarked : e.marked = some id) (h : e.exec ch w = some (r, w')) :
    w'.clock = w.clock ∧ (w'.outbox.find id' = w.outbox.find id' ∨
      ∃ m m', id' = id ∧ m.status = "sending" ∧ w.outbox.find id' = some m ∧
        w'.outbox.find id' = some m' ∧ Marks m e m') := by
  have key : ∀ (f : EmailOutboxMessage → EmailOutboxMessage) (hf : ∀ m, (f m).id = m.id)
      (r : Except DatabaseError Bool), (∀ m, Marks m e (f m)) →
      w.reply ch.link (w.outbox.markSending id f hf).1 (w.outbox.markSending id f hf).2 = (r, w') →
      w'.clock = w.clock ∧ (w'.outbox.find id' = w.outbox.find id' ∨
        ∃ m m', id' = id ∧ m.status = "sending" ∧ w.outbox.find id' = some m ∧
          w'.outbox.find id' = some m' ∧ Marks m e m') := by
    intro f hf r hmarks hreply
    obtain ⟨rfl, -⟩ | ⟨ho, hclock, -⟩ := reply_eq hreply
    · exact ⟨rfl, .inl rfl⟩
    refine ⟨hclock, ?_⟩
    rw [ho, Outbox.find_markSending]
    cases hm : w.outbox.find id' with
    | none => exact .inl rfl
    | some m =>
      by_cases hrow : id' = id ∧ m.status = "sending"
      · exact .inr ⟨m, f m, hrow.1, hrow.2, rfl, by simp [hrow], hmarks m⟩
      · exact .inl (by simp [hrow])
  cases e with
  | markEmailOutboxSent _ providerMessageId instant =>
    cases hmarked
    exact key (EmailOutboxMessage.sent providerMessageId instant) (fun _ => rfl)
      r (fun m => .sent ..) (Option.some.inj h)
  | markEmailOutboxRetry _ lastError nextAttemptAt instant =>
    cases hmarked
    exact key (EmailOutboxMessage.retry lastError nextAttemptAt instant) (fun _ => rfl)
      r (fun m => .retry ..) (Option.some.inj h)
  | markEmailOutboxFailed _ lastError instant =>
    cases hmarked
    exact key (EmailOutboxMessage.failed lastError instant) (fun _ => rfl)
      r (fun m => .failed ..) (Option.some.inj h)
  | _ => cases hmarked

theorem exec_insert {message : EmailOutboxMessage} {r : Except DatabaseError Unit} (id : Uuid)
    (h : DeliveryCall.exec (.insertEmailOutboxMessage message) ch w = some (r, w')) :
    w'.clock = w.clock ∧ (w'.outbox.find id = w.outbox.find id ∨
      (message.id = id ∧ w.outbox.find id = none ∧ w'.outbox.find id = some message)) := by
  rw [DeliveryCall.exec] at h
  split at h
  · rename_i o ho
    obtain ⟨rfl, -⟩ | ⟨hw', hclock, -⟩ := reply_eq (Option.some.inj h)
    · exact ⟨rfl, .inl rfl⟩
    refine ⟨hclock, ?_⟩
    rw [hw', Outbox.find_insert ho]
    by_cases hid : message.id = id
    · subst hid
      exact .inr ⟨rfl, Outbox.find_of_insert ho, if_pos rfl⟩
    · exact .inl (if_neg hid)
  · obtain ⟨-, rfl⟩ := Prod.mk.inj (Option.some.inj h)
    exact ⟨rfl, .inl rfl⟩

/-- Re-encryption changes no more than tokens. -/
theorem exec_reencrypt {tokens : List ReencryptedEmailOutboxDeliveryToken}
    {r : Except DatabaseError Unit} (id : Uuid)
    (h : DeliveryCall.exec (.applyKeyEncryptionRotation tokens) ch w = some (r, w')) :
    w.clock ≤ ch.time ∧ w'.clock = ch.time ∧ (w'.outbox.find id = w.outbox.find id ∨
      ∃ m m', w.outbox.find id = some m ∧ w'.outbox.find id = some m' ∧ SameButToken m m' ∧
        (m'.updatedAt = m.updatedAt ∨ m'.updatedAt = ch.time)) := by
  rw [DeliveryCall.exec] at h
  split at h
  · rename_i hclock
    obtain ⟨rfl, -⟩ | ⟨hw', hclock', -⟩ := reply_eq (Option.some.inj h)
    · exact ⟨hclock, rfl, .inl rfl⟩
    refine ⟨hclock, hclock', ?_⟩
    rw [hw', Outbox.reencrypt, Outbox.find_modify]
    cases hm : w.outbox.find id with
    | none => exact .inl rfl
    | some m =>
      obtain ⟨hsame, hupdated⟩ := reencrypted_foldl ch.time tokens m
      exact .inr ⟨m, _, rfl, rfl, hsame, hupdated⟩
  · cases h

-- one call against the books

theorem phaseOf_claimable {m : EmailOutboxMessage} {instant stale : OffsetDateTime}
    (h : m.Claimable instant stale) :
    phaseOf (some m) = .waiting ∨ phaseOf (some m) = .leased := by
  obtain ⟨hstatus, -⟩ | ⟨hstatus, -⟩ := h
  · exact .inl (if_pos hstatus)
  · refine .inr ?_
    rw [phaseOf, if_neg (by simp [hstatus]), if_pos hstatus]

theorem phaseOf_sending {m : EmailOutboxMessage} (h : m.status = "sending") :
    phaseOf (some m) = .leased := by
  rw [phaseOf, if_neg (by simp [h]), if_pos h]

/-- The row that a claim picked, before and after. -/
theorem picked_row {limit : ℕ} {instant stale : OffsetDateTime} {o : Outbox}
    {locked picked : List Uuid} {id : Uuid}
    (hsel : Selects limit (o.candidates instant stale locked) picked)
    (hid : id ∈ picked) : ∃ m, o.find id = some m ∧ m.Claimable instant stale ∧
      (o.claim instant picked).find id = some (m.claim instant) := by
  obtain ⟨m, hm, rfl⟩ := List.mem_map.mp (hsel.2.1 hid)
  obtain ⟨hmem, hrow⟩ := List.mem_filter.mp hm
  have hrow : m.Claimable instant stale ∧ m.id ∉ locked := of_decide_eq_true hrow
  have hfind := Outbox.find_eq_some.mpr ⟨hmem, rfl⟩
  refine ⟨m, hfind, hrow.1, ?_⟩
  rw [Outbox.find_claim, hfind, Option.map_some, if_pos hid]

section step

variable {P : Primitives} {parseReceipt : String → Option (Option String)}
  {settings : DeliverySettings} {q : OutboxRequest} {i : ℕ} {tr : OutboxTrace} {e : DeliveryCall}
  {r : e.Answer} {id : Uuid}

variable (tr) in
/-- A call that neither claims the message nor reports on it. -/
theorem reports_of_quiet {x : Entry DeliveryCall.Answer OutboxWorld} (hlease : leaseOf id x = none)
    (htaken : taken x.event ≠ some id) (hgiven : givenBack x.event ≠ some id) :
    (x :: tr).filterMap (leaseOf id) = tr.filterMap (leaseOf id) ∧
      staleClaims id (x :: tr) = staleClaims id tr ∧
      threadsOf taken id (x :: tr) = threadsOf taken id tr ∧
      threadsOf givenBack id (x :: tr) = threadsOf givenBack id tr := by
  refine ⟨?_, ?_, ?_, ?_⟩
  · rw [List.filterMap_cons, hlease]
  · rw [staleClaims, List.countP_cons, hlease]
    rfl
  · rw [threadsOf_cons, if_neg htaken]
  · rw [threadsOf_cons, if_neg hgiven]

/-- It leaves the books alone, if it leaves the state of the message alone. -/
theorem ledger_of_quiet {x : Entry DeliveryCall.Answer OutboxWorld}
    (hlease : leaseOf id x = none) (htaken : taken x.event ≠ some id)
    (hgiven : givenBack x.event ≠ some id)
    (hphase : phaseOf (w'.outbox.find id) = phaseOf (w.outbox.find id))
    (hattempts : ((w'.outbox.find id).map fun m => m.attempts.toNat).getD 0 =
      ((w.outbox.find id).map fun m => m.attempts.toNat).getD 0) :
    ledger id w' (x :: tr) = ledger id w tr := by
  obtain ⟨hleases, hreclaims, hcompleted, hreturned⟩ :=
    reports_of_quiet tr hlease htaken hgiven
  exact Ledger.ext hphase hattempts hleases hreclaims hcompleted hreturned

/-- A claim that took the message, answered with a lease on it or not. -/
theorem ledger_claim {x : Entry DeliveryCall.Answer OutboxWorld} {who : Option ℕ}
    {m : EmailOutboxMessage} {instant : OffsetDateTime} (hbefore : x.before = w)
    (hlease : leaseOf id x = who.map (·, m.attempts.toNat + 1))
    (htaken : taken x.event ≠ some id) (hgiven : givenBack x.event ≠ some id)
    (hm : w.outbox.find id = some m) (hattempts : 0 ≤ m.attempts)
    (hm' : w'.outbox.find id = some (m.claim instant)) :
    ledger id w' (x :: tr) = if phaseOf (w.outbox.find id) = .leased
      then (ledger id w tr).regrant who else (ledger id w tr).grant who := by
  have hissued : (m.claim instant).attempts.toNat = m.attempts.toNat + 1 := by
    change (m.attempts + 1).toNat = _
    omega
  have hphase : phaseOf (some (m.claim instant)) = .leased := phaseOf_sending rfl
  have hleases : (x :: tr).filterMap (leaseOf id) =
      who.toList.map (·, m.attempts.toNat + 1) ++ tr.filterMap (leaseOf id) := by
    rw [List.filterMap_cons, hlease]
    cases who <;> rfl
  have hcompleted : threadsOf taken id (x :: tr) = threadsOf taken id tr := by
    rw [threadsOf_cons, if_neg htaken]
  have hreturned : threadsOf givenBack id (x :: tr) = threadsOf givenBack id tr := by
    rw [threadsOf_cons, if_neg hgiven]
  have hreclaims : staleClaims id (x :: tr) = staleClaims id tr +
      if phaseOf (w.outbox.find id) = .leased then who.toList.length else 0 := by
    rw [staleClaims, List.countP_cons, ← staleClaims, hlease, hbefore]
    by_cases hleased : phaseOf (w.outbox.find id) = .leased
    · cases who <;> simp [hleased]
    · cases who <;> simp [hleased]
  split
  · rename_i hleased
    rw [if_pos hleased] at hreclaims
    refine Ledger.ext ?_ ?_ ?_ (hreclaims.trans (Nat.add_comm ..)) hcompleted hreturned
    · change phaseOf (w'.outbox.find id) = .leased
      rw [hm', hphase]
    · change ((w'.outbox.find id).map _).getD 0 = ((w.outbox.find id).map _).getD 0 + 1
      rw [hm', hm]
      exact hissued
    · change (x :: tr).filterMap (leaseOf id) =
        who.toList.map (·, ((w.outbox.find id).map _).getD 0 + 1) ++ tr.filterMap (leaseOf id)
      rw [hm, hleases]
      rfl
  · rename_i hwaiting
    rw [if_neg hwaiting] at hreclaims
    refine Ledger.ext ?_ ?_ ?_ hreclaims hcompleted hreturned
    · change phaseOf (w'.outbox.find id) = .leased
      rw [hm', hphase]
    · change ((w'.outbox.find id).map _).getD 0 = ((w.outbox.find id).map _).getD 0 + 1
      rw [hm', hm]
      exact hissued
    · change (x :: tr).filterMap (leaseOf id) =
        who.toList.map (·, ((w.outbox.find id).map _).getD 0 + 1) ++ tr.filterMap (leaseOf id)
      rw [hm, hleases]
      rfl

theorem isClaim_of_mem {ev : DeliveryEvent} {m : EmailOutboxMessage} (hm : m ∈ claimedMessages ev) :
    ev.1.isClaim = true := by
  unfold claimedMessages at hm
  split at hm
  · rfl
  · exact absurd hm List.not_mem_nil

/-- A worker that has not claimed has no lease. -/
theorem not_mem_holders (hfirst : ∀ ev ∈ own i tr, ev.1 = .nowUtc) :
    i ∉ (ledger id w tr).holders := by
  intro hi
  obtain ⟨⟨j, n⟩, hlease, rfl⟩ := List.mem_map.mp hi
  obtain ⟨m, hm, -, -⟩ := mem_leases.mp hlease
  obtain ⟨ev, hev, hm⟩ := List.mem_flatMap.mp hm
  have hclaim := isClaim_of_mem hm
  rw [hfirst ev hev] at hclaim
  cases hclaim

theorem step_claim {limit : ℕ} {instant stale : OffsetDateTime} {r : Except DatabaseError Batch}
    {bound : ℕ} (hrows : RowsSound w) (hfirst : ∀ ev ∈ own i tr, ev.1 = .nowUtc)
    (hexec : DeliveryCall.exec (.claimEmailOutboxMessages limit instant stale) ch w =
      some (r, w')) :
    ledger id w' (⟨i, ⟨.claimEmailOutboxMessages limit instant stale, r⟩, w⟩ :: tr) =
        ledger id w tr ∨
      Ledger.Step bound (ledger id w tr)
        (ledger id w' (⟨i, ⟨.claimEmailOutboxMessages limit instant stale, r⟩, w⟩ :: tr)) := by
  obtain ⟨hsel, ⟨rfl, rfl⟩ | ⟨ho, -, hr⟩⟩ := exec_claim hexec
  · exact .inl (ledger_of_quiet rfl nofun nofun rfl rfl)
  by_cases hid : id ∈ ch.picked
  · right
    obtain ⟨m, hm, hclaimable, hm'⟩ := picked_row hsel hid
    rw [← ho] at hm'
    have hattempts := (hrows id m hm).1
    have hwho : ∃ who : Option ℕ, (∀ j ∈ who, j ∉ (ledger id w tr).holders) ∧
        leaseOf id ⟨i, ⟨.claimEmailOutboxMessages limit instant stale, r⟩, w⟩ =
          who.map (·, m.attempts.toNat + 1) := by
      obtain rfl | rfl := hr
      · refine ⟨some i, fun j hj => ?_, leaseOf_eq_some.mpr ⟨rfl, m.claim instant, ?_, ?_, ?_⟩⟩
        · obtain rfl := Option.some.inj hj
          exact not_mem_holders hfirst
        · have hkey : (m.claim instant).id = id := Outbox.id_of_find (o := w.outbox) (m := m) hm
          refine Outbox.mem_claimed.mpr ⟨hkey.symm ▸ hid, ?_⟩
          rw [hkey, ← ho, hm']
        · exact Outbox.id_of_find (o := w.outbox) (m := m) hm
        · change (m.attempts + 1).toNat = _
          omega
      · exact ⟨none, nofun, rfl⟩
    obtain ⟨who, hnew, hlease⟩ := hwho
    rw [ledger_claim rfl hlease nofun nofun hm hattempts hm']
    obtain hphase | hphase := phaseOf_claimable hclaimable
    · rw [← hm] at hphase
      rw [if_neg (by simp [hphase])]
      exact .grant who hphase hnew
    · rw [← hm] at hphase
      rw [if_pos hphase]
      exact .regrant who hphase hnew
  · left
    have hsame : w'.outbox.find id = w.outbox.find id := by
      rw [ho, Outbox.find_claim]
      simp [hid]
    refine ledger_of_quiet ?_ nofun nofun (by rw [hsame]) (by rw [hsame])
    obtain rfl | rfl := hr
    · rw [leaseOf, Option.map_eq_none_iff, List.find?_eq_none]
      intro m hm heq
      have hkey : m.id = id := by simpa using heq
      exact hid (hkey ▸ (Outbox.mem_claimed.mp hm).1)
    · rfl

/-- Marking a message as sent or as failed closes it. -/
theorem step_close {bound : ℕ} {m m' : EmailOutboxMessage}
    {x : Entry DeliveryCall.Answer OutboxWorld}
    (hlease : leaseOf id x = none) (htaken : taken x.event ≠ some id)
    (hgiven : givenBack x.event ≠ some id) (hm : w.outbox.find id = some m)
    (hsending : m.status = "sending") (hm' : w'.outbox.find id = some m')
    (hclosed : phaseOf (some m') = .closed) (hattempts : m'.attempts = m.attempts) :
    Ledger.Step bound (ledger id w tr) (ledger id w' (x :: tr)) := by
  have hphase : (ledger id w tr).phase = .leased := by
    change phaseOf (w.outbox.find id) = _
    rw [hm, phaseOf_sending hsending]
  have heq : ledger id w' (x :: tr) = (ledger id w tr).close := by
    obtain ⟨hleases, hreclaims, hcompleted, hreturned⟩ :=
      reports_of_quiet tr hlease htaken hgiven
    refine Ledger.ext ?_ ?_ hleases hreclaims hcompleted hreturned
    · change phaseOf (w'.outbox.find id) = .closed
      rw [hm', hclosed]
    · change ((w'.outbox.find id).map _).getD 0 = ((w.outbox.find id).map _).getD 0
      rw [hm, hm', Option.map_some, Option.map_some, hattempts]
  rw [heq]
  exact .close hphase

/-- Marking a message for another try gives it back. -/
theorem step_giveBack {bound n : ℕ} {lastError : String} {nextAttemptAt instant : OffsetDateTime}
    {r : Except DatabaseError Bool}
    (hopen : (ledger id w tr).Open i n) (hbound : n < bound)
    (hexec : DeliveryCall.exec (.markEmailOutboxRetry id lastError nextAttemptAt instant) ch w =
      some (r, w')) :
    Ledger.Step bound (ledger id w tr) (ledger id w'
      (⟨i, ⟨.markEmailOutboxRetry id lastError nextAttemptAt instant, r⟩, w⟩ :: tr)) := by
  have hreturned : ∀ w', (ledger id w'
      (⟨i, ⟨.markEmailOutboxRetry id lastError nextAttemptAt instant, r⟩, w⟩ :: tr)).returned =
        i :: threadsOf givenBack id tr := by
    intro w'
    exact threadsOf_cons.trans (if_pos rfl)
  have hcompleted : threadsOf taken id
      (⟨i, ⟨.markEmailOutboxRetry id lastError nextAttemptAt instant, r⟩, w⟩ :: tr) =
        threadsOf taken id tr := by
    rw [threadsOf_cons, if_neg nofun]
  obtain ⟨-, hsame | ⟨m, m', -, hsending, hm, hm', hmarks⟩⟩ := exec_mark id rfl hexec
  · have heq : ledger id w'
        (⟨i, ⟨.markEmailOutboxRetry id lastError nextAttemptAt instant, r⟩, w⟩ :: tr) =
          (ledger id w tr).giveBack i false := by
      refine Ledger.ext ?_ ?_ rfl rfl hcompleted (hreturned w')
      · change phaseOf (w'.outbox.find id) = phaseOf (w.outbox.find id)
        rw [hsame]
      · change ((w'.outbox.find id).map _).getD 0 = ((w.outbox.find id).map _).getD 0
        rw [hsame]
    rw [heq]
    exact .giveBack i n false hopen hbound nofun
  · cases hmarks
    have heq : ledger id w'
        (⟨i, ⟨.markEmailOutboxRetry id lastError nextAttemptAt instant, r⟩, w⟩ :: tr) =
          (ledger id w tr).giveBack i true := by
      refine Ledger.ext ?_ ?_ rfl rfl hcompleted (hreturned w')
      · change phaseOf (w'.outbox.find id) = .waiting
        rw [hm', phaseOf]
        exact if_pos (Or.inr rfl)
      · change ((w'.outbox.find id).map _).getD 0 = ((w.outbox.find id).map _).getD 0
        rw [hm, hm']
        rfl
    rw [heq]
    refine .giveBack i n true hopen hbound fun _ => ?_
    change phaseOf (w.outbox.find id) = _
    rw [hm, phaseOf_sending hsending]

theorem marked_of_givenBack {ev : DeliveryEvent} (h : givenBack ev = some id) :
    ev.1.marked = some id := by
  unfold givenBack at h
  split at h
  · exact h
  · cases h

theorem handedOver_of_taken {ev : DeliveryEvent} (h : taken ev = some id) :
    ev.1.handedOver = some id := by
  unfold taken at h
  split at h
  · exact h
  · split at h
    · exact h
    · cases h
  · cases h

/-- A message that a worker claimed and did not report on is open in the books. -/
theorem open_of_claimed {m : EmailOutboxMessage} (hm : m ∈ claimedIn (own i tr)) (hid : m.id = id)
    (hunmarked : Unmarked (own i tr) id) (htaken : ∀ ev ∈ own i tr, taken ev ≠ some id) :
    (ledger id w tr).Open i m.attempts.toNat := by
  refine ⟨mem_leases.mpr ⟨m, hm, hid, rfl⟩, fun hi => ?_, fun hi => ?_⟩
  · obtain ⟨ev, hev, h⟩ := mem_threadsOf.mp hi
    exact htaken ev hev h
  · obtain ⟨ev, hev, h⟩ := mem_threadsOf.mp hi
    exact hunmarked ev hev (marked_of_givenBack h)

/-- A handover that the provider takes completes the message. -/
theorem step_handover {bound : ℕ} {payload : EmailCommandPayload}
    (hpre : ∃ m ∈ claimedIn (own i tr), renderEmail P m settings.api = .ok payload ∧
      Untouched (own i tr) m.id) (hclaimed : claimedMessages ⟨e, r⟩ = [])
    (hgiven : givenBack ⟨e, r⟩ = none)
    (htaken : taken ⟨e, r⟩ = none ∨ taken ⟨e, r⟩ = some payload.id) :
    ledger id w (⟨i, ⟨e, r⟩, w⟩ :: tr) = ledger id w tr ∨
      Ledger.Step bound (ledger id w tr) (ledger id w (⟨i, ⟨e, r⟩, w⟩ :: tr)) := by
  have hlease : leaseOf id ⟨i, ⟨e, r⟩, w⟩ = none := by
    rw [leaseOf, hclaimed]
    rfl
  have hgiven' : givenBack ⟨e, r⟩ ≠ some id := by simp [hgiven]
  by_cases hid : taken ⟨e, r⟩ = some id
  · right
    obtain ⟨m, hm, hrender, huntouched⟩ := hpre
    have hkey : m.id = id := by
      rw [hid] at htaken
      obtain h | h := htaken
      · cases h
      · rw [← renderEmail_id hrender]
        exact (Option.some.inj h).symm
    have heq : ledger id w (⟨i, ⟨e, r⟩, w⟩ :: tr) = (ledger id w tr).complete i := by
      refine Ledger.ext rfl rfl ?_ ?_ (threadsOf_cons.trans (if_pos hid))
        (threadsOf_cons.trans (if_neg hgiven'))
      · change List.filterMap (leaseOf id) (_ :: tr) = _
        rw [List.filterMap_cons, hlease]
        rfl
      · change staleClaims id (_ :: tr) = _
        rw [staleClaims, List.countP_cons, hlease]
        rfl
    rw [heq]
    refine .complete i m.attempts.toNat (open_of_claimed hm hkey ?_ fun ev hev h => ?_)
    · exact hkey ▸ huntouched.1
    · exact huntouched.2 ev hev (hkey ▸ handedOver_of_taken h)
  · exact .inl (ledger_of_quiet hlease hid hgiven' rfl rfl)

variable (id) in
/-- **Step lemma**: a call leaves the books alone or makes an entry in them. -/
theorem ledger_step (hrows : RowsSound w)
    (hpre : outboxPre P parseReceipt settings q (own i tr) e)
    (hexec : e.exec ch w = some (r, w')) :
    ledger id w' (⟨i, ⟨e, r⟩, w⟩ :: tr) = ledger id w tr ∨
      Ledger.Step settings.emailDelivery.maxAttempts (ledger id w tr)
        (ledger id w' (⟨i, ⟨e, r⟩, w⟩ :: tr)) := by
  have hdeliver : deliveryPre P parseReceipt settings (own i tr) e ∨
      (∃ message : NewMessage, e = .insertEmailOutboxMessage message.message) ∨
      ∃ tokens, e = .applyKeyEncryptionRotation tokens := by
    cases q with
    | deliver => exact .inl hpre
    | enqueue message => exact .inr (.inl ⟨message, hpre⟩)
    | reencrypt tokens => exact .inr (.inr ⟨tokens, hpre⟩)
  have hsilent : none ≠ some id := (Option.some_ne_none id).symm
  cases e with
  | nowUtc =>
    rw [DeliveryCall.exec] at hexec
    split at hexec
    · cases hexec
      exact .inl (ledger_of_quiet rfl hsilent hsilent rfl rfl)
    · cases hexec
  | claimEmailOutboxMessages limit instant stale =>
    obtain hpre | ⟨_, h⟩ | ⟨_, h⟩ := hdeliver
    · exact step_claim hrows hpre.2.2.2 hexec
    · cases h
    · cases h
  | markEmailOutboxSent id' providerMessageId instant =>
    obtain ⟨-, hsame | ⟨m, m', rfl, hsending, hm, hm', hmarks⟩⟩ := exec_mark id rfl hexec
    · exact .inl (ledger_of_quiet rfl hsilent hsilent (by rw [hsame]) (by rw [hsame]))
    · cases hmarks
      exact .inr (step_close rfl hsilent hsilent hm hsending hm' rfl rfl)
  | markEmailOutboxFailed id' lastError instant =>
    obtain ⟨-, hsame | ⟨m, m', rfl, hsending, hm, hm', hmarks⟩⟩ := exec_mark id rfl hexec
    · exact .inl (ledger_of_quiet rfl hsilent hsilent (by rw [hsame]) (by rw [hsame]))
    · cases hmarks
      exact .inr (step_close rfl hsilent hsilent hm hsending hm' rfl rfl)
  | markEmailOutboxRetry id' lastError nextAttemptAt instant =>
    obtain hpre | ⟨_, h⟩ | ⟨_, h⟩ := hdeliver
    · by_cases hid : id' = id
      · subst hid
        obtain ⟨⟨m, hm, hkey, hlt⟩, -, hunmarked, htaken, -⟩ := hpre
        have hpos := settings.emailDelivery.maxAttempts_pos
        exact .inr (step_giveBack (open_of_claimed hm hkey hunmarked htaken) (by omega) hexec)
      · have hgiven : givenBack ⟨.markEmailOutboxRetry id' lastError nextAttemptAt instant, r⟩ ≠
            some id := fun h => hid (Option.some.inj h)
        obtain ⟨-, hsame | ⟨m, m', rfl, -⟩⟩ := exec_mark id rfl hexec
        · exact .inl (ledger_of_quiet rfl hsilent hgiven (by rw [hsame]) (by rw [hsame]))
        · exact absurd rfl hid
    · cases h
    · cases h
  | printPayload payload =>
    cases hexec
    obtain hpre | ⟨_, h⟩ | ⟨_, h⟩ := hdeliver
    · exact step_handover hpre rfl rfl (.inr rfl)
    · cases h
    · cases h
  | runCommand path payload =>
    cases hexec
    obtain hpre | ⟨_, h⟩ | ⟨_, h⟩ := hdeliver
    · refine step_handover hpre rfl rfl ?_
      rw [taken]
      split
      · exact .inr rfl
      · exact .inl rfl
    · cases h
    · cases h
  | insertEmailOutboxMessage message =>
    obtain hpre | ⟨new, h⟩ | ⟨_, h⟩ := hdeliver
    · exact (hpre : False).elim
    · cases h
      obtain ⟨-, hsame | ⟨-, hnone, hm⟩⟩ := exec_insert id hexec
      · exact .inl (ledger_of_quiet rfl hsilent hsilent (by rw [hsame]) (by rw [hsame]))
      · refine .inl (ledger_of_quiet rfl hsilent hsilent ?_ ?_)
        · rw [hm, hnone]
          exact if_pos (Or.inl new.status)
        · rw [hm, hnone, Option.map_some, new.attempts]
          rfl
    · cases h
  | applyKeyEncryptionRotation tokens =>
    obtain ⟨-, -, hsame | ⟨m, m', hm, hm', hrow, -⟩⟩ := exec_reencrypt id hexec
    · exact .inl (ledger_of_quiet rfl hsilent hsilent (by rw [hsame]) (by rw [hsame]))
    · have hstatus : m'.status = m.status := hrow.status
      have hattempts : m'.attempts = m.attempts := hrow.attempts
      refine .inl (ledger_of_quiet rfl hsilent hsilent ?_ ?_)
      · rw [hm, hm', phaseOf, phaseOf, hstatus]
      · rw [hm, hm', Option.map_some, Option.map_some, hattempts]

end step

-- whole runs

section runs

variable {P : Primitives} {parseReceipt : String → Option (Option String)}
  {settings : DeliverySettings}

/-- What a call of a run makes of a row. -/
inductive RowOf (clock : OffsetDateTime) (e : DeliveryCall) : Option EmailOutboxMessage →
    Option EmailOutboxMessage → Prop
  | same (m : Option EmailOutboxMessage) : RowOf clock e m m
  | queued (new : NewMessage) (he : e = .insertEmailOutboxMessage new.message) :
    RowOf clock e none (some new.message)
  | claimed (m : EmailOutboxMessage) (limit : ℕ) (instant stale : OffsetDateTime)
    (he : e = .claimEmailOutboxMessages limit instant stale) (h : m.Claimable instant stale) :
    RowOf clock e (some m) (some (m.claim instant))
  | marked (m m' : EmailOutboxMessage) (he : e.marked = some m.id) (hm : m.status = "sending")
    (h : Marks m e m') : RowOf clock e (some m) (some m')
  | reencrypted (m m' : EmailOutboxMessage) (tokens : List ReencryptedEmailOutboxDeliveryToken)
    (he : e = .applyKeyEncryptionRotation tokens) (h : SameButToken m m')
    (hupdated : m'.updatedAt = m.updatedAt ∨ m'.updatedAt = clock) :
    RowOf clock e (some m) (some m')

/-- Everything that a call of a run does to a row. -/
theorem rowOf_exec {q : OutboxRequest} {h : DeliveryHistory} {e : DeliveryCall} {r : e.Answer}
    (hpre : outboxPre P parseReceipt settings q h e) (hexec : e.exec ch w = some (r, w'))
    (id : Uuid) : RowOf w'.clock e (w.outbox.find id) (w'.outbox.find id) := by
  have hmark : ∀ id', e.marked = some id' →
      RowOf w'.clock e (w.outbox.find id) (w'.outbox.find id) := by
    intro id' hmarked
    obtain ⟨-, hsame | ⟨m, m', rfl, hsending, hm, hm', hmarks⟩⟩ :=
      exec_mark id hmarked hexec
    · rw [hsame]
      exact .same _
    · rw [hm, hm']
      exact .marked m m' (hmarked.trans (congrArg some (Outbox.id_of_find hm).symm)) hsending hmarks
  cases e with
  | nowUtc =>
    rw [DeliveryCall.exec] at hexec
    split at hexec
    · cases hexec
      exact .same _
    · cases hexec
  | claimEmailOutboxMessages limit instant stale =>
    obtain ⟨hsel, ⟨rfl, -⟩ | ⟨ho, -, -⟩⟩ := exec_claim hexec
    · exact .same _
    · by_cases hid : id ∈ ch.picked
      · obtain ⟨m, hm, hclaimable, hm'⟩ := picked_row hsel hid
        rw [ho, hm, hm']
        exact .claimed m limit instant stale rfl hclaimable
      · have hsame : w'.outbox.find id = w.outbox.find id := by
          rw [ho, Outbox.find_claim]
          simp [hid]
        rw [hsame]
        exact .same _
  | markEmailOutboxSent => exact hmark _ rfl
  | markEmailOutboxRetry => exact hmark _ rfl
  | markEmailOutboxFailed => exact hmark _ rfl
  | printPayload =>
    cases hexec
    exact .same _
  | runCommand =>
    cases hexec
    exact .same _
  | insertEmailOutboxMessage message =>
    obtain ⟨-, hsame | ⟨-, hnone, hm⟩⟩ := exec_insert id hexec
    · rw [hsame]
      exact .same _
    · rw [hnone, hm]
      cases q with
      | deliver => exact (hpre : False).elim
      | enqueue new =>
        cases hpre
        exact .queued new rfl
      | reencrypt => cases hpre
  | applyKeyEncryptionRotation tokens =>
    obtain ⟨-, hclock, hsame | ⟨m, m', hm, hm', hrow, hupdated⟩⟩ := exec_reencrypt id hexec
    · rw [hsame]
      exact .same _
    · rw [hm, hm', hclock]
      exact .reencrypted m m' tokens rfl hrow hupdated

/-- A condition on rows that every change keeps. -/
theorem RowOf.sound {clock : OffsetDateTime} {e : DeliveryCall} {a b : Option EmailOutboxMessage}
    (h : RowOf clock e a b)
    (ha : ∀ m ∈ a, 0 ≤ m.attempts ∧
      m.status ∈ ["queued", "retry", "sending", "sent", "failed"]) :
    ∀ m ∈ b, 0 ≤ m.attempts ∧ m.status ∈ ["queued", "retry", "sending", "sent", "failed"] := by
  cases h with
  | same => exact ha
  | queued new =>
    intro m hm
    obtain rfl := Option.some.inj hm
    rw [new.attempts, new.status]
    simp
  | claimed m =>
    intro m' hm'
    obtain rfl := Option.some.inj hm'
    have hattempts := (ha m rfl).1
    refine ⟨?_, by simp [EmailOutboxMessage.claim]⟩
    change 0 ≤ m.attempts + 1
    omega
  | marked m m' _ _ hmarks =>
    intro m'' hm''
    obtain rfl := Option.some.inj hm''
    have hattempts := (ha m rfl).1
    cases hmarks with
    | sent => exact ⟨hattempts, by simp [EmailOutboxMessage.sent]⟩
    | retry => exact ⟨hattempts, by simp [EmailOutboxMessage.retry]⟩
    | failed => exact ⟨hattempts, by simp [EmailOutboxMessage.failed]⟩
  | reencrypted m m' _ _ hrow =>
    intro m'' hm''
    obtain rfl := Option.some.inj hm''
    rw [hrow.attempts, hrow.status]
    exact ha m rfl

variable {clock : OffsetDateTime} {p : OutboxPool}

/-- **Refinement**: in every run, what happened to a message is something that the books
    of a lease allow. -/
theorem reaches_ledger (h : (outboxMachine P parseReceipt settings).Reachable (.initial clock) p)
    (id : Uuid) : (ledger id p.world p.trace).Reaches settings.emailDelivery.maxAttempts := by
  have hinv : RowsSound p.world ∧ ∀ id,
      (ledger id p.world p.trace).Reaches settings.emailDelivery.maxAttempts := by
    refine h.invariant (fun q => sat_outboxHandler q) (fun w tr => RowsSound w ∧ ∀ id,
      (ledger id w tr).Reaches settings.emailDelivery.maxAttempts)
      ⟨fun id m hm => ?_, fun id => ?_⟩ ?_
    · simp [OutboxWorld.initial] at hm
    · exact Relation.ReflTransGen.refl
    · intro p i q e ch r w' _ ⟨hrows, hreaches⟩ hpre hexec
      refine ⟨fun id m hm => ?_, fun id => ?_⟩
      · exact (rowOf_exec hpre hexec id).sound (hrows id) m hm
      · obtain heq | hstep := ledger_step id hrows hpre hexec
        · exact heq ▸ hreaches id
        · exact (hreaches id).step hstep
  exact hinv.2 id

end runs

end CairnId
