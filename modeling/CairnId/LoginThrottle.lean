import CairnId.Concurrency.Totals
import CairnId.Http.ThrottleSpec
import CairnId.Sessions

/-!
# The throttle of logins

A login checks the bucket of its source, verifies the password and records a failure, each
on its own. The number of wrong guesses is bounded as long as no more logins are let past
the check than there are failures left to count.

## Main definitions

- `wrongGuesses`, `recordedFailures`, `inFlight` — what the logins of a source have done
- `OneWindow` — the times of the logins lie in one window
- `WithinLimit` — the condition on the steps

## Main results

- `throttle_bounds_guesses`
- `six_guesses_before_the_block`
-/

namespace CairnId

open Concurrency Prog App Database

/-- A login from one source. -/
structure SourceLogin (source : Option String) where
  headers : RequestHeaders
  request : LoginRequest
  isFrom : headers.sourceIp = source

variable (P : Primitives) (state : AppState) {source : Option String}

def SourceLogin.handler (q : SourceLogin source) : App AuthResponse :=
  login P state q.headers q.request

variable (source) in
abbrev throttleMachine :
    Machine Call Call.Answer (SourceLogin source) World Choice ApiError AuthResponse :=
  machine P (SourceLogin.handler P state)

abbrev ThrottlePool (source : Option String) :=
  Pool Call.Answer (SourceLogin source) World ApiError AuthResponse

-- what the logins have done

section counts

variable (p : ThrottlePool source)

/-- The number of wrong passwords that were verified. -/
def wrongGuesses : ℕ := p.total fun h t => h.countP (wrongGuess P t.request.request.password)

/-- The number of failures recorded in the bucket of the source. -/
def recordedFailures : ℕ :=
  p.total fun h _ => h.countP (recordsFailure (loginSourceKey P state.organizationId source))

/-- A login that has read the bucket and has not ended counts. -/
def flight (key : String) (h : List Ev)
    (t : Thread Call.Answer (SourceLogin source) ApiError AuthResponse) : ℕ :=
  if h.any (readsBucket key) && t.outcome.isNone then 1 else 0

/-- The number of logins that have read the bucket and have not ended. -/
def inFlight : ℕ := p.total (flight (loginSourceKey P state.organizationId source))

def sourceBucket : Option RateLimitBucket :=
  bucketAt (loginSourceKey P state.organizationId source) p.world.store

end counts

-- conditions

section conditions

variable (start : OffsetDateTime) (p : ThrottlePool source)

/-- A time that is read is before the end of the window, and one that is recorded is not
    before its start. -/
def callInWindow (key : String) (c : Choice) : Call → Bool
  | .nowUtc => c.time < start + credentialRateLimit.window
  | .db (.recordRateLimitFailure k _ now ..) => k ≠ key || start ≤ now
  | _ => true

/-- The times of the logins lie in the window from `start`. -/
def OneWindow : Label (SourceLogin source) Choice → Prop
  | .spawn _ => True
  | .run i c => ∀ e ∈ p.next i,
    callInWindow start (loginSourceKey P state.organizationId source) c e = true

instance (l : Label (SourceLogin source) Choice) : Decidable (OneWindow P state start p l) :=
  match l with
  | .spawn _ => isTrue trivial
  | .run i c => inferInstanceAs (Decidable (∀ e ∈ p.next i,
    callInWindow start (loginSourceKey P state.organizationId source) c e = true))

/-- Before the limit is reached a login reads the bucket first only if the failures
    counted and the logins in flight leave room for one more, and no record fails. -/
def callWithinLimit (key : String) (h : List Ev) (c : Choice) : Call → Bool
  | .db (.getRateLimitBucket k) => k ≠ key || h.any (readsBucket key) ||
    credentialRateLimit.maxAttempts ≤ recordedFailures P state p ||
    recordedFailures P state p + inFlight P state p < credentialRateLimit.maxAttempts
  | .db (.recordRateLimitFailure k purpose now window maxAttempts blockFor) => k ≠ key ||
    !c.fail && ((DbCall.recordRateLimitFailure k purpose now window maxAttempts blockFor).exec
      p.world.store).1.isOk
  | _ => true

def WithinLimit : Label (SourceLogin source) Choice → Prop
  | .spawn _ => True
  | .run i c => ∀ e ∈ p.next i, callWithinLimit P state p
    (loginSourceKey P state.organizationId source) (own i p.trace) c e = true

instance (l : Label (SourceLogin source) Choice) : Decidable (WithinLimit P state p l) :=
  match l with
  | .spawn _ => isTrue trivial
  | .run i c => inferInstanceAs (Decidable (∀ e ∈ p.next i, callWithinLimit P state p
    (loginSourceKey P state.organizationId source) (own i p.trace) c e = true))

variable (source) in
/-- A bucket from before the window has expired and blocks no more. -/
def Fresh (s : Sql.Store schema) : Prop :=
  ∀ b ∈ bucketAt (loginSourceKey P state.organizationId source) s,
    b.windowStart + credentialRateLimit.window ≤ start ∧ ∀ u ∈ b.blockedUntil, u ≤ start

end conditions

-- one login

section login

variable {P state} {h : List Ev} {key password : String}

theorem SourceLogin.sat (q : SourceLogin source) :
    (q.handler P state).Sat (throttlePre (loginSourceKey P state.organizationId source))
      (fun h _ => throttlePost P (loginSourceKey P state.organizationId source)
        q.request.password h) [] :=
  sat_login_throttle q.headers q.request (by rw [q.isFrom])

theorem isGuess_of_wrongGuess {ev : Ev} (h : wrongGuess P password ev = true) :
    ev.1.isGuess = true := by
  unfold wrongGuess at h
  split at h
  · rfl
  · cases h

theorem BucketCall.guess {e : Call} (hcall : BucketCall key h e) (he : e.isGuess = true) :
    h.any (readsBucket key) = true ∧ ∀ ev ∈ h, ev.1.isGuess = false := by
  cases e with
  | db c => cases c <;> first | exact hcall | cases he
  | _ => cases he

/-- A login guesses once, and it has read the bucket before. -/
theorem countP_wrongGuess (hh : Admissible (throttlePre key) h) :
    h.countP (wrongGuess P password) ≤ 1 ∧
      (h.any (wrongGuess P password) = true → h.any (readsBucket key) = true) := by
  induction h with
  | nil => exact ⟨Nat.zero_le _, fun hnil => by cases hnil⟩
  | cons ev h ih =>
    obtain ⟨⟨-, hcall⟩, hh⟩ := hh
    obtain ⟨hcount, hread⟩ := ih hh
    rw [List.countP_cons, List.any_cons, List.any_cons]
    by_cases hwrong : wrongGuess P password ev = true
    · obtain ⟨hbefore, hnone⟩ := hcall.guess (isGuess_of_wrongGuess hwrong)
      have hzero : h.countP (wrongGuess P password) = 0 := by
        refine List.countP_eq_zero.mpr fun ev' hev' hwrong' => ?_
        have hguess' := isGuess_of_wrongGuess hwrong'
        rw [hnone ev' hev'] at hguess'
        cases hguess'
      refine ⟨?_, fun _ => by rw [hbefore, Bool.or_true]⟩
      rw [hzero, if_pos hwrong]
    · rw [if_neg hwrong]
      refine ⟨hcount, fun hany => ?_⟩
      rw [Bool.eq_false_iff.mpr hwrong, Bool.false_or] at hany
      rw [hread hany, Bool.or_true]

end login

-- calls

section calls

variable {P} {key : String} {h : List Ev}

/-- The calls of a login that leave the table of buckets alone. -/
theorem Call.OffBucket.leaves {e : Call} (he : e.OffBucket key)
    (hclear : ∀ k, e ≠ .db (.clearRateLimitBucket k)) : e.Leaves .rateLimitBuckets := by
  unfold Call.OffBucket at he
  split at he
  · exact he.elim
  · exact he.elim
  · exact absurd rfl (hclear _)
  · refine Call.leaves_of_target (.bind ?_ fun known => .bind (.perform nofun) fun _ => ?_)
    · split
      · exact .bind (.perform nofun) fun _ => .bind (.perform nofun) fun _ => .ret _
      · exact .ret _
    · split
      · exact .ret _
      · split
        · exact .bind (.perform nofun) fun _ => .ret _
        · exact .ret _
  · exact Call.leaves_of_target (.bind (.perform nofun) fun _ => .ret _)
  · exact leaves_insertAuditEvent _ nofun
  · exact Call.leaves_of_target (.bind (.perform nofun) fun _ => .ret _)
  · exact Call.leaves_of_target (.bind (.perform nofun) fun _ => .ret _)
  · exact Call.leaves_of_target (.bind (.perform nofun) fun _ => .ret _)
  · exact Call.leaves_of_target (.bind (.perform nofun) fun _ => .ret _)
  · refine Call.leaves_of_target (.bind (.perform nofun) fun rows => ?_)
    split
    · exact .bind (.perform nofun) fun _ => .ret _
    · trivial
  · exact Call.leaves_of_isQuiet he _

/-- Only a record of the key changes its bucket. -/
theorem bucketAt_of_bucketCall {e : Call} (hcall : BucketCall key h e)
    (hrecord : ∀ purpose now window maxAttempts blockFor,
      e ≠ .db (.recordRateLimitFailure key purpose now window maxAttempts blockFor))
    {c : Choice} {w w' : World} {r : e.Answer} (hx : Call.exec P e c w = some (r, w')) :
    bucketAt key w'.store = bucketAt key w.store := by
  have hquiet : e.isQuiet = true → bucketAt key w'.store = bucketAt key w.store := fun he => by
    rw [Call.exec_of_isQuiet he hx]
  have hleaves : e.Leaves .rateLimitBuckets → bucketAt key w'.store = bucketAt key w.store := by
    intro he
    rw [bucketAt, he.exec hx, bucketAt]
  unfold BucketCall at hcall
  split at hcall
  · exact hquiet rfl
  · rename_i k purpose now window maxAttempts blockFor
    have hne : key ≠ k := by
      rintro rfl
      exact hrecord _ _ _ _ _ rfl
    obtain ⟨-, -, ⟨-, hs⟩ | hs⟩ := Call.exec_db hx
    · rw [hs]
    · obtain ⟨bucket, -, -, -, hother⟩ | ⟨-, hs⟩ := exec_recordRateLimitFailure hs
      · exact hother key hne
      · rw [hs]
  · exact hquiet rfl
  · by_cases hclear : ∃ k, e = .db (.clearRateLimitBucket k)
    · obtain ⟨k, rfl⟩ := hclear
      have hne : key ≠ k := Ne.symm hcall
      obtain ⟨-, -, ⟨-, hs⟩ | hs⟩ := Call.exec_db hx
      · rw [hs]
      · exact exec_clearRateLimitBucket hs hne
    · exact hleaves (hcall.leaves fun k heq => hclear ⟨k, heq⟩)

end calls

-- runs

section runs

variable {P state} {start : OffsetDateTime} {w₀ : World} {p : ThrottlePool source}

/-- What a thread has done was admissible. -/
theorem admissible_of_reachable (hr : (throttleMachine P state source).Reachable w₀ p) {i : ℕ}
    {t : Thread Call.Answer (SourceLogin source) ApiError AuthResponse}
    (ht : p.threads[i]? = some t) :
    Admissible (throttlePre (loginSourceKey P state.organizationId source)) (own i p.trace) := by
  have hsat := hr.sat (fun q => q.sat.admissible trivial) ht
  obtain ⟨request, rest⟩ := t
  cases rest with
  | ret a => exact hsat.1
  | fail e => exact hsat.1
  | call e k => exact hsat.1.1

/-- A thread that has recorded a failure has ended. -/
theorem outcome_of_recorded (hr : (throttleMachine P state source).Reachable w₀ p) {i : ℕ}
    {t : Thread Call.Answer (SourceLogin source) ApiError AuthResponse}
    (ht : p.threads[i]? = some t)
    (hrecorded : (own i p.trace).any
      (recordsFailure (loginSourceKey P state.organizationId source)) = true) :
    t.outcome.isNone = false := by
  have hsat := hr.sat SourceLogin.sat ht
  obtain ⟨request, rest⟩ := t
  cases rest with
  | ret a => rfl
  | fail e => rfl
  | call e k =>
    obtain ⟨ev, hev, hrecords⟩ := List.any_eq_true.mp hrecorded
    rw [hsat.1.1.unrecorded ev hev] at hrecords
    cases hrecords

/-- A thread that has read the bucket and goes on saw no block. -/
theorem passed_of_outcome (hr : (throttleMachine P state source).Reachable w₀ p) {i : ℕ}
    {t : Thread Call.Answer (SourceLogin source) ApiError AuthResponse}
    (ht : p.threads[i]? = some t) (hout : t.outcome.isNone = true) {b : RateLimitBucket}
    (hb : ⟨.db (.getRateLimitBucket (loginSourceKey P state.organizationId source)),
      .ok (some b)⟩ ∈ own i p.trace) :
    ∃ now, ⟨.nowUtc, now⟩ ∈ own i p.trace ∧ b.isBlocked now = false := by
  have hsat := hr.sat SourceLogin.sat ht
  obtain ⟨request, rest⟩ := t
  cases rest with
  | ret a => cases hout
  | fail e => cases hout
  | call e k => exact hsat.1.1.passed b hb

-- one step

section step

variable {i : ℕ} {q : SourceLogin source} {e : Call} {k : e.Answer → App AuthResponse}
  {r : e.Answer} {w' : World}

/-- The pool after a call of a login. -/
abbrev throttled (p : ThrottlePool source) (i : ℕ) (q : SourceLogin source) (e : Call)
    (k : e.Answer → App AuthResponse) (r : e.Answer) (w' : World) : ThrottlePool source :=
  ⟨w', p.threads.set i ⟨q, k r⟩, ⟨i, ⟨e, r⟩, p.world⟩ :: p.trace⟩

variable (ht : p.threads[i]? = some ⟨q, .call e k⟩)

include ht

theorem recordedFailures_throttled :
    recordedFailures P state (throttled p i q e k r w') = recordedFailures P state p +
      if recordsFailure (loginSourceKey P state.organizationId source) ⟨e, r⟩ = true
      then 1 else 0 := by
  have htotal : recordedFailures P state (throttled p i q e k r w') + (own i p.trace).countP
      (recordsFailure (loginSourceKey P state.organizationId source)) =
    recordedFailures P state p + (⟨e, r⟩ :: own i p.trace).countP
      (recordsFailure (loginSourceKey P state.organizationId source)) := total_run ht
  rw [List.countP_cons] at htotal
  omega

theorem inFlight_throttled :
    inFlight P state (throttled p i q e k r w') +
        (if (own i p.trace).any (readsBucket (loginSourceKey P state.organizationId source)) = true
          then 1 else 0) =
      inFlight P state p + flight (loginSourceKey P state.organizationId source)
        (⟨e, r⟩ :: own i p.trace) ⟨q, k r⟩ := by
  have htotal : inFlight P state (throttled p i q e k r w') +
      flight (loginSourceKey P state.organizationId source) (own i p.trace) ⟨q, .call e k⟩ =
    inFlight P state p + flight (loginSourceKey P state.organizationId source)
      (⟨e, r⟩ :: own i p.trace) ⟨q, k r⟩ := total_run ht
  have hrunning : flight (loginSourceKey P state.organizationId source) (own i p.trace)
      ⟨q, .call e k⟩ = if (own i p.trace).any
        (readsBucket (loginSourceKey P state.organizationId source)) = true then 1 else 0 := by
    rw [flight]
    exact if_congr (by simp [Thread.outcome]) rfl rfl
  rw [hrunning] at htotal
  exact htotal

end step

theorem recordsFailure_iff {key : String} {e : Call} {r : e.Answer}
    (h : recordsFailure key ⟨e, r⟩ = true) : ∃ purpose now window maxAttempts blockFor,
      e = .db (.recordRateLimitFailure key purpose now window maxAttempts blockFor) := by
  unfold recordsFailure at h
  split at h
  · rename_i k purpose now window maxAttempts blockFor bucket heq
    cases heq
    obtain rfl := of_decide_eq_true h
    exact ⟨purpose, now, window, maxAttempts, blockFor, rfl⟩
  · cases h

/-- The bucket counts `n` failures of the window, and is blocked past it from the limit on. -/
structure Counting (start : OffsetDateTime) (n : ℕ) (b : RateLimitBucket) : Prop where
  positive : 0 < n
  attempts : b.attempts = n
  opened : start ≤ b.windowStart
  blocked : credentialRateLimit.maxAttempts ≤ n →
    ∃ u, b.blockedUntil = some u ∧ start + credentialRateLimit.window ≤ u
  free : n < credentialRateLimit.maxAttempts → b.blockedUntil = none

/-- The first failure of the window. -/
theorem Counting.first {key purpose : String} {now : OffsetDateTime}
    {existing : Option RateLimitBucket} (hstart : start ≤ now)
    (hexpired : ∀ b ∈ existing, b.windowStart + credentialRateLimit.window ≤ start) :
    Counting start 1 (failedBucket existing key purpose now credentialRateLimit.window
      credentialRateLimit.maxAttempts credentialRateLimit.blockFor) := by
  rw [failedBucket_of_expired fun b hb => le_trans (hexpired b hb) hstart]
  exact ⟨Nat.one_pos, rfl, hstart, fun hlimit => absurd hlimit (by decide), fun _ => rfl⟩

/-- One more failure of the window. -/
theorem Counting.next {n : ℕ} {b : RateLimitBucket} {key purpose : String} {now : OffsetDateTime}
    (hb : Counting start n b) (hstart : start ≤ now)
    (hnow : now < start + credentialRateLimit.window) :
    Counting start (n + 1) (failedBucket (some b) key purpose now credentialRateLimit.window
      credentialRateLimit.maxAttempts credentialRateLimit.blockFor) := by
  have hwindow : now < b.windowStart + credentialRateLimit.window :=
    lt_of_lt_of_le hnow (Int.add_le_add_right hb.opened _)
  have hcast : ((n + 1 : ℕ) : ℤ) = n + 1 := by omega
  rw [failedBucket_of_window hwindow]
  refine ⟨Nat.succ_pos n, ?_, hb.opened, fun hlimit => ?_, fun hfree => ?_⟩
  · change b.attempts + 1 = _
    rw [hb.attempts, hcast]
  · refine ⟨now + credentialRateLimit.blockFor, ?_, Int.add_le_add_right hstart _⟩
    rw [hcast] at hlimit
    exact if_pos (by rwa [hb.attempts])
  · rw [hcast] at hfree
    have hbefore : (n : ℤ) < credentialRateLimit.maxAttempts := by omega
    change (if _ then _ else b.blockedUntil) = none
    rw [if_neg (by rw [hb.attempts]; exact not_le.mpr hfree), hb.free hbefore]

variable (P state start w₀ p) in
/-- The bucket counts the failures that were recorded. -/
structure CountInv : Prop where
  clock : ∀ x ∈ p.trace, ∀ t, x.event = ⟨.nowUtc, t⟩ → t < start + credentialRateLimit.window
  bucket : (recordedFailures P state p = 0 ∧ sourceBucket P state p =
      bucketAt (loginSourceKey P state.organizationId source) w₀.store) ∨
    ∃ b, sourceBucket P state p = some b ∧ Counting start (recordedFailures P state p) b

theorem CountInv.step {i : ℕ} {q : SourceLogin source} {e : Call}
    {k : e.Answer → App AuthResponse} {r : e.Answer} {w' : World} {c : Choice}
    (hinv : CountInv P state start w₀ p) (hfresh : Fresh P state source start w₀.store)
    (hA : OneWindow P state start p (.run i c)) (ht : p.threads[i]? = some ⟨q, .call e k⟩)
    (hpre : throttlePre (loginSourceKey P state.organizationId source) (own i p.trace) e)
    (hx : Call.exec P e c p.world = some (r, w')) :
    CountInv P state start w₀ (throttled p i q e k r w') := by
  have hwindow := hA e (next_of_thread ht)
  refine ⟨fun x hmem t hevent => ?_, ?_⟩
  · obtain rfl | hmem := List.mem_cons.mp hmem
    · cases hevent
      have htime : t = c.time := by
        simp only [Call.exec, Option.ite_none_right_eq_some] at hx
        exact (congrArg Prod.fst (Option.some.inj hx.2)).symm
      rw [htime]
      exact of_decide_eq_true hwindow
    · exact hinv.clock x hmem t hevent
  · rw [recordedFailures_throttled ht, sourceBucket]
    by_cases hrecord : recordsFailure (loginSourceKey P state.organizationId source) ⟨e, r⟩ = true
    · rw [if_pos hrecord]
      obtain ⟨purpose, now, window, maxAttempts, blockFor, rfl⟩ := recordsFailure_iff hrecord
      obtain ⟨-, hnow, hpolicy⟩ := hpre.2 rfl
      obtain ⟨y, hy, -, hread⟩ := mem_own.mp hnow
      have hbefore := hinv.clock y hy now hread
      have hstart : start ≤ now := by simpa [callInWindow] using hwindow
      obtain ⟨-, -, ⟨rfl, -⟩ | hs⟩ := Call.exec_db hx
      · cases hrecord
      obtain ⟨bucket, rfl, hbucket, hafter, -⟩ | ⟨⟨err, rfl⟩, -⟩ := exec_recordRateLimitFailure hs
      · refine .inr ⟨bucket, hafter, ?_⟩
        obtain ⟨rfl, rfl, rfl⟩ : credentialRateLimit.window = window ∧
            credentialRateLimit.maxAttempts = maxAttempts ∧
            credentialRateLimit.blockFor = blockFor := by
          rw [hpolicy]
          exact ⟨rfl, rfl, rfl⟩
        rw [hbucket]
        obtain ⟨hzero, hold⟩ | ⟨b, hb, hcounts⟩ := hinv.bucket
        · rw [hzero]
          refine .first hstart fun b hb => (hfresh b ?_).1
          rwa [← hold]
        · rw [show bucketAt _ p.world.store = some b from hb]
          exact hcounts.next hstart hbefore
      · cases hrecord
    · rw [if_neg hrecord, Nat.add_zero]
      have hkept : bucketAt (loginSourceKey P state.organizationId source) w'.store =
          sourceBucket P state p := by
        by_cases hcall : ∃ purpose now window maxAttempts blockFor, e = .db
            (.recordRateLimitFailure (loginSourceKey P state.organizationId source) purpose now
              window maxAttempts blockFor)
        · obtain ⟨purpose, now, window, maxAttempts, blockFor, rfl⟩ := hcall
          obtain ⟨-, -, ⟨-, hs⟩ | hs⟩ := Call.exec_db hx
          · rw [hs, sourceBucket]
          obtain ⟨bucket, rfl, -⟩ | ⟨-, hs⟩ := exec_recordRateLimitFailure hs
          · exact absurd (decide_eq_true rfl) hrecord
          · rw [hs, sourceBucket]
        · exact bucketAt_of_bucketCall hpre.2 (fun purpose now window maxAttempts blockFor heq =>
            hcall ⟨purpose, now, window, maxAttempts, blockFor, heq⟩) hx
      rw [hkept]
      exact hinv.bucket

variable (P state p) in
/-- The failures recorded and the logins in flight are within the limit. -/
structure LimitInv : Prop where
  limit : recordedFailures P state p + inFlight P state p ≤ credentialRateLimit.maxAttempts
  kept : ∀ i, (own i p.trace).any
    (losesFailure (loginSourceKey P state.organizationId source)) = false

/-- A login that reads a bucket at its limit is refused. -/
theorem refused_of_blocked (hr : (throttleMachine P state source).Reachable w₀ p)
    (hclock : ∀ x ∈ p.trace, ∀ t, x.event = ⟨.nowUtc, t⟩ → t < start + credentialRateLimit.window)
    {i : ℕ} {t : Thread Call.Answer (SourceLogin source) ApiError AuthResponse}
    (ht : p.threads[i]? = some t) {b : RateLimitBucket}
    (hb : ⟨.db (.getRateLimitBucket (loginSourceKey P state.organizationId source)),
      .ok (some b)⟩ ∈ own i p.trace) {u : OffsetDateTime} (hu : b.blockedUntil = some u)
    (hlate : start + credentialRateLimit.window ≤ u) : t.outcome.isNone = false := by
  refine Bool.eq_false_iff.mpr fun hout => ?_
  obtain ⟨now, hnow, hfree⟩ := passed_of_outcome hr ht hout hb
  obtain ⟨y, hy, -, hread⟩ := mem_own.mp hnow
  have hblocked : b.isBlocked now = true := by
    rw [RateLimitBucket.isBlocked, hu]
    exact decide_eq_true (lt_of_lt_of_le (hclock y hy now hread) hlate)
  rw [hfree] at hblocked
  cases hblocked

theorem flight_le_one {key : String} {h : List Ev}
    {t : Thread Call.Answer (SourceLogin source) ApiError AuthResponse} : flight key h t ≤ 1 := by
  unfold flight
  split
  · exact le_rfl
  · exact Nat.zero_le 1

theorem flight_eq_zero {key : String} {h : List Ev}
    {t : Thread Call.Answer (SourceLogin source) ApiError AuthResponse}
    (hout : t.outcome.isNone = false) : flight key h t = 0 := by
  rw [flight, hout, Bool.and_false]
  rfl

section limit

variable {i : ℕ} {q : SourceLogin source} {e : Call} {k : e.Answer → App AuthResponse}
  {r : e.Answer} {w' : World} {c : Choice}

/-- A read of the bucket by a login that has not read it before. -/
theorem flight_of_firstRead (hcount : CountInv P state start w₀ p)
    (hcount' : CountInv P state start w₀ (throttled p i q e k r w'))
    (hr' : (throttleMachine P state source).Reachable w₀ (throttled p i q e k r w'))
    (ht : p.threads[i]? = some ⟨q, .call e k⟩) (hx : Call.exec P e c p.world = some (r, w'))
    (hread : readsBucket (loginSourceKey P state.organizationId source) ⟨e, r⟩ = true)
    (hlimit : credentialRateLimit.maxAttempts ≤ recordedFailures P state p) :
    flight (loginSourceKey P state.organizationId source) (⟨e, r⟩ :: own i p.trace)
      ⟨q, k r⟩ = 0 := by
  have ht' : (throttled p i q e k r w').threads[i]? = some ⟨q, k r⟩ :=
    List.getElem?_set_self (List.getElem?_eq_some_iff.mp ht).1
  have hown : own i (throttled p i q e k r w').trace = ⟨e, r⟩ :: own i p.trace := own_cons_self
  obtain ⟨hzero, -⟩ | ⟨b, hb, hcounts⟩ := hcount.bucket
  · rw [hzero] at hlimit
    exact absurd hlimit (by decide)
  obtain ⟨u, hu, hlate⟩ := hcounts.blocked hlimit
  refine flight_eq_zero (refused_of_blocked hr' hcount'.clock ht' ?_ hu hlate)
  rw [hown]
  unfold readsBucket at hread
  split at hread
  · rename_i key bucket heq
    cases heq
    obtain rfl := of_decide_eq_true hread
    obtain ⟨-, -, ⟨hfail, -⟩ | hs⟩ := Call.exec_db hx
    · cases hfail
    rw [exec_getRateLimitBucket] at hs
    have hbucket : bucket = some b := (Except.ok.inj (congrArg Prod.fst hs)).symm.trans hb
    rw [hbucket]
    exact .head _
  · cases hread

theorem LimitInv.step (hinv : LimitInv P state p) (hcount : CountInv P state start w₀ p)
    (hcount' : CountInv P state start w₀ (throttled p i q e k r w'))
    (hr' : (throttleMachine P state source).Reachable w₀ (throttled p i q e k r w'))
    (hA : WithinLimit P state p (.run i c)) (ht : p.threads[i]? = some ⟨q, .call e k⟩)
    (hpre : throttlePre (loginSourceKey P state.organizationId source) (own i p.trace) e)
    (hx : Call.exec P e c p.world = some (r, w')) :
    LimitInv P state (throttled p i q e k r w') := by
  have hcall := hA e (next_of_thread ht)
  have hown : own i (throttled p i q e k r w').trace = ⟨e, r⟩ :: own i p.trace := own_cons_self
  have hlimit := hinv.limit
  have hrecorded := @recordedFailures_throttled P state _ p i q e k r w' ht
  have hflight := @inFlight_throttled P state _ p i q e k r w' ht
  have hone : flight (loginSourceKey P state.organizationId source) (⟨e, r⟩ :: own i p.trace)
      ⟨q, k r⟩ ≤ 1 := flight_le_one
  refine ⟨?_, fun j => ?_⟩
  · by_cases hrecord : recordsFailure (loginSourceKey P state.organizationId source) ⟨e, r⟩ = true
    · -- the login that records a failure lands
      have ht' : (throttled p i q e k r w').threads[i]? = some ⟨q, k r⟩ :=
        List.getElem?_set_self (List.getElem?_eq_some_iff.mp ht).1
      have hlanded := outcome_of_recorded hr' ht' (by rw [hown, List.any_cons, hrecord]; rfl)
      have hread : (own i p.trace).any
          (readsBucket (loginSourceKey P state.organizationId source)) = true := by
        obtain ⟨purpose, now, window, maxAttempts, blockFor, rfl⟩ := recordsFailure_iff hrecord
        exact (hpre.2 rfl).1
      rw [if_pos hrecord] at hrecorded
      rw [if_pos hread, flight_eq_zero hlanded] at hflight
      omega
    · rw [if_neg hrecord] at hrecorded
      by_cases hread : (own i p.trace).any
          (readsBucket (loginSourceKey P state.organizationId source)) = true
      · rw [if_pos hread] at hflight
        omega
      · rw [if_neg hread] at hflight
        by_cases hfirst : readsBucket (loginSourceKey P state.organizationId source) ⟨e, r⟩ = true
        · by_cases hfull : credentialRateLimit.maxAttempts ≤ recordedFailures P state p
          · rw [flight_of_firstRead hcount hcount' hr' ht hx hfirst hfull] at hflight
            omega
          · have hroom : recordedFailures P state p + inFlight P state p <
                credentialRateLimit.maxAttempts := by
              unfold readsBucket at hfirst
              split at hfirst
              · rename_i key bucket heq
                cases heq
                simpa [callWithinLimit, of_decide_eq_true hfirst, hread, hfull] using hcall
              · cases hfirst
            omega
        · have hstill : flight (loginSourceKey P state.organizationId source)
              (⟨e, r⟩ :: own i p.trace) ⟨q, k r⟩ = 0 := by
            rw [flight, List.any_cons, Bool.eq_false_iff.mpr hfirst, Bool.eq_false_iff.mpr hread]
            rfl
          omega
  · by_cases hij : j = i
    · subst hij
      rw [hown, List.any_cons, hinv.kept j, Bool.or_false]
      refine Bool.eq_false_iff.mpr fun hlost => ?_
      unfold losesFailure at hlost
      split at hlost
      · rename_i key purpose now window maxAttempts blockFor err heq
        cases heq
        obtain rfl := of_decide_eq_true hlost
        have hok : c.fail = false ∧ ((DbCall.recordRateLimitFailure
            (loginSourceKey P state.organizationId source) purpose now window maxAttempts
              blockFor).exec p.world.store).1.isOk = true := by
          simpa [callWithinLimit] using hcall
        rw [Call.exec, if_neg (Bool.eq_false_iff.mp hok.1)] at hx
        have hanswer := congrArg Prod.fst (Option.some.inj hx)
        dsimp only at hanswer
        rw [hanswer] at hok
        cases hok.2
      · cases hlost
    · rw [own_cons_of_ne (fun heq => hij heq.symm)]
      exact hinv.kept j

end limit

/-- A login that starts has done nothing. -/
theorem recordedFailures_spawn (hr : (throttleMachine P state source).Reachable w₀ p)
    (q : SourceLogin source) :
    recordedFailures P state { p with
        threads := p.threads ++ [⟨q, (throttleMachine P state source).handler q⟩] } =
      recordedFailures P state p := total_spawn hr q

theorem inFlight_spawn (hr : (throttleMachine P state source).Reachable w₀ p)
    (q : SourceLogin source) :
    inFlight P state { p with
        threads := p.threads ++ [⟨q, (throttleMachine P state source).handler q⟩] } =
      inFlight P state p := total_spawn hr q

theorem CountInv.of_reachableBy (hfresh : Fresh P state source start w₀.store)
    (hp : (throttleMachine P state source).ReachableBy (OneWindow P state start) w₀ p) :
    CountInv P state start w₀ p := by
  refine hp.invariant _ ?_ (fun p q hr hinv => ⟨hinv.clock, ?_⟩)
    fun p i c q e k r w' hr hinv hA ht hx => ?_
  · exact ⟨fun x hx => absurd hx List.not_mem_nil, .inl ⟨rfl, rfl⟩⟩
  · rw [recordedFailures_spawn hr.reachable]
    exact hinv.bucket
  · exact hinv.step hfresh hA ht (hr.reachable.sat SourceLogin.sat ht).1 hx

/-- No failure is lost: in every run of one window the bucket counts the failures that
    were recorded. -/
theorem attempts_eq_recordedFailures (hfresh : Fresh P state source start w₀.store)
    (hp : (throttleMachine P state source).ReachableBy (OneWindow P state start) w₀ p)
    (hsome : 0 < recordedFailures P state p) :
    ∃ b, sourceBucket P state p = some b ∧ b.attempts = recordedFailures P state p := by
  obtain ⟨hzero, -⟩ | ⟨b, hb, hcounts⟩ := (CountInv.of_reachableBy hfresh hp).bucket
  · exact absurd hzero (Nat.pos_iff_ne_zero.mp hsome)
  · exact ⟨b, hb, hcounts.attempts⟩

theorem LimitInv.of_reachableBy (hfresh : Fresh P state source start w₀.store)
    (hp : (throttleMachine P state source).ReachableBy
      (fun p l => OneWindow P state start p l ∧ WithinLimit P state p l) w₀ p) :
    CountInv P state start w₀ p ∧ LimitInv P state p := by
  refine hp.invariant (fun p => CountInv P state start w₀ p ∧ LimitInv P state p) ?_
    (fun p q hr hinv => ?_) fun p i c q e k r w' hr hinv hA ht hx => ?_
  · have hnone : ((0 : ℕ) : ℤ) + ((0 : ℕ) : ℤ) ≤ credentialRateLimit.maxAttempts := by decide
    exact ⟨⟨fun x hx => absurd hx List.not_mem_nil, .inl ⟨rfl, rfl⟩⟩, hnone, fun i => rfl⟩
  · refine ⟨⟨hinv.1.clock, ?_⟩, ?_, hinv.2.kept⟩
    · rw [recordedFailures_spawn hr.reachable]
      exact hinv.1.bucket
    · rw [recordedFailures_spawn hr.reachable, inFlight_spawn hr.reachable]
      exact hinv.2.limit
  · have hpre := (hr.reachable.sat SourceLogin.sat ht).1
    have hstep : (throttleMachine P state source).step p (.run i c) =
        some (throttled p i q e k r w') := by
      simp only [Machine.step, ht, show (throttleMachine P state source).exec i e c p.world =
        some (r, w') from hx]
    have hcount' := hinv.1.step hfresh hA.1 ht hpre hx
    exact ⟨hcount', hinv.2.step hinv.1 hcount' (hr.reachable.step _ hstep) hA.2 ht hpre hx⟩

/-- A wrong guess was recorded, or its login is in flight. -/
theorem wrongGuesses_le (hr : (throttleMachine P state source).Reachable w₀ p)
    (hkept : ∀ i, (own i p.trace).any
      (losesFailure (loginSourceKey P state.organizationId source)) = false) :
    wrongGuesses P p ≤ recordedFailures P state p + inFlight P state p := by
  rw [recordedFailures, inFlight, ← total_add]
  refine total_le fun i t ht => ?_
  have honce : (own i p.trace).countP (wrongGuess P t.request.request.password) ≤ 1 ∧
      ((own i p.trace).any (wrongGuess P t.request.request.password) = true →
        (own i p.trace).any (readsBucket (loginSourceKey P state.organizationId source)) = true) :=
    countP_wrongGuess (admissible_of_reachable hr ht)
  by_cases hwrong : (own i p.trace).any (wrongGuess P t.request.request.password) = true
  · by_cases hout : t.outcome = none
    · have hflying : flight (loginSourceKey P state.organizationId source) (own i p.trace) t = 1 := by
        rw [flight, honce.2 hwrong, hout]
        rfl
      have hle := honce.1
      omega
    · obtain ⟨o, ho⟩ := Option.ne_none_iff_exists'.mp hout
      have hpost : throttlePost P (loginSourceKey P state.organizationId source)
          t.request.request.password (own i p.trace) := hr.post_of_outcome SourceLogin.sat ht ho
      have hrecorded : (own i p.trace).any
          (recordsFailure (loginSourceKey P state.organizationId source)) = true := by
        obtain hrecorded | hlost := hpost hwrong
        · exact hrecorded
        · rw [hkept i] at hlost
          cases hlost
      have hpositive := List.countP_pos_iff.mpr (List.any_eq_true.mp hrecorded)
      have hle := honce.1
      omega
  · have hzero : (own i p.trace).countP (wrongGuess P t.request.request.password) = 0 := by
      refine List.countP_eq_zero.mpr fun ev hev hguess => hwrong ?_
      exact List.any_eq_true.mpr ⟨ev, hev, hguess⟩
    omega

/-- A failure recorded while the bucket is blocked leaves the block or extends it. -/
def KeepsBlock (key : String) (x : Entry Call.Answer World) : Prop :=
  ∀ purpose now window maxAttempts blockFor b b' u,
    x.event = ⟨.db (.recordRateLimitFailure key purpose now window maxAttempts blockFor), .ok b'⟩ →
    bucketAt key x.before.store = some b → b.blockedUntil = some u → now < u →
    ∃ u', b'.blockedUntil = some u' ∧ u ≤ u'

/-- Within the limit no failure is recorded while the bucket is blocked. -/
theorem LimitInv.keepsBlock (hlimit : LimitInv P state p) (hcount : CountInv P state start w₀ p)
    (hfresh : Fresh P state source start w₀.store) {i : ℕ} {q : SourceLogin source} {e : Call}
    {k : e.Answer → App AuthResponse} {r : e.Answer} {c : Choice}
    (hA : OneWindow P state start p (.run i c)) (ht : p.threads[i]? = some ⟨q, .call e k⟩)
    (hpre : throttlePre (loginSourceKey P state.organizationId source) (own i p.trace) e) :
    KeepsBlock (loginSourceKey P state.organizationId source) ⟨i, ⟨e, r⟩, p.world⟩ := by
  intro purpose now window maxAttempts blockFor b b' u hevent hb hu hfuture
  cases hevent
  have hwindow := hA _ (next_of_thread ht)
  have hstart : start ≤ now := by simpa [callInWindow] using hwindow
  obtain ⟨hread, -⟩ := hpre.2 rfl
  obtain ⟨-, hold⟩ | ⟨b₁, hb₁, hcounts⟩ := hcount.bucket
  · -- a block from before the window has passed
    have hpast := (hfresh b (hold.symm.trans hb)).2 u hu
    exact absurd (le_trans hpast hstart) (not_le.mpr hfuture)
  · obtain rfl := Option.some.inj (hb.symm.trans hb₁)
    have hflying : 1 ≤ inFlight P state p := by
      have hle := le_total (f := flight (loginSourceKey P state.organizationId source)) ht
      rw [flight, hread] at hle
      exact hle
    have hfree := hcounts.free (by have := hlimit.limit; omega)
    rw [hu] at hfree
    cases hfree

theorem keepsBlock_of_reachableBy (hfresh : Fresh P state source start w₀.store)
    (hp : (throttleMachine P state source).ReachableBy
      (fun p l => OneWindow P state start p l ∧ WithinLimit P state p l) w₀ p) :
    ∀ x ∈ p.trace, KeepsBlock (loginSourceKey P state.organizationId source) x := by
  refine hp.invariant (fun p => ∀ x ∈ p.trace,
    KeepsBlock (loginSourceKey P state.organizationId source) x) ?_ (fun p q _ hinv => hinv)
      fun p i c q e k r w' hr hinv hA ht hx x hmem => ?_
  · exact fun x hx => absurd hx List.not_mem_nil
  · obtain ⟨hcount, hlimit⟩ := LimitInv.of_reachableBy hfresh hr
    obtain rfl | hmem := List.mem_cons.mp hmem
    · exact hlimit.keepsBlock hcount hfresh hA.1 ht (hr.reachable.sat SourceLogin.sat ht).1
    · exact hinv x hmem

/-- **The throttle bounds guesses** in these runs: no more wrong passwords are verified than
    the limit, the bucket counts every failure recorded, and a failure recorded while the
    bucket is blocked leaves the block. -/
theorem throttle_bounds_guesses (hfresh : Fresh P state source start w₀.store)
    (hp : (throttleMachine P state source).ReachableBy
      (fun p l => OneWindow P state start p l ∧ WithinLimit P state p l) w₀ p) :
    wrongGuesses P p ≤ credentialRateLimit.maxAttempts ∧
    (0 < recordedFailures P state p → ∃ b, sourceBucket P state p = some b ∧
      b.attempts = recordedFailures P state p) ∧
    ∀ x ∈ p.trace, KeepsBlock (loginSourceKey P state.organizationId source) x := by
  obtain ⟨hcount, hlimit⟩ := LimitInv.of_reachableBy hfresh hp
  have hguesses := wrongGuesses_le hp.reachable hlimit.kept
  refine ⟨?_, fun hsome => ?_, keepsBlock_of_reachableBy hfresh hp⟩
  · have hle := hlimit.limit
    omega
  · exact attempts_eq_recordedFailures hfresh (hp.mono fun _ _ h => h.1) hsome

end runs

namespace Sample

def wrongLogin : SourceLogin none :=
  ⟨sessionHeaders "", ⟨"ada@example.org", "guess", totpSubmission⟩, rfl⟩

/-- Calls of one login at one time. -/
def loginSteps (i calls : ℕ) (time : OffsetDateTime) : List (Label (SourceLogin none) Choice) :=
  List.replicate calls (.run i { time := time })

/-- Five wrong logins one after the other, and a sixth. -/
def sixLogins : List (Label (SourceLogin none) Choice) :=
  ((List.range 5).flatMap fun i => .spawn wrongLogin :: loginSteps i 5 (Duration.seconds i)) ++
    .spawn wrongLogin :: loginSteps 5 2 (Duration.seconds 5)

/-- Six wrong logins that all read the bucket before any of them records a failure. -/
def racingLogins : List (Label (SourceLogin none) Choice) :=
  List.replicate 6 (.spawn wrongLogin) ++ (List.range 6).flatMap fun i => loginSteps i 3 0

theorem fresh_account : Fresh accountPrimitives accountState none 0 account.store := by
  have hnone : bucketAt (loginSourceKey accountPrimitives accountState.organizationId none)
      account.store = none := rfl
  intro b hb
  rw [hnone] at hb
  cases hb

end Sample

open Sample in
theorem throttle_bounds_guesses_sixLogins :
    ∃ p : ThrottlePool none, ((throttleMachine accountPrimitives accountState none).runBy
        (fun p l => OneWindow accountPrimitives accountState 0 p l ∧
          WithinLimit accountPrimitives accountState p l)
        (Machine.start account) sixLogins) = some p ∧
      recordedFailures accountPrimitives accountState p = 5 ∧
      wrongGuesses accountPrimitives p ≤ credentialRateLimit.maxAttempts := by
  have hrun : (((throttleMachine accountPrimitives accountState none).runBy
      (fun p l => OneWindow accountPrimitives accountState 0 p l ∧
        WithinLimit accountPrimitives accountState p l)
      (Machine.start account) sixLogins).map fun p =>
        recordedFailures accountPrimitives accountState p) = some 5 := by
    decide
  obtain ⟨p, hp, hrecorded⟩ := Option.map_eq_some_iff.mp hrun
  exact ⟨p, hp, hrecorded, (throttle_bounds_guesses fresh_account (.runBy .start hp)).1⟩

open Sample in
/-- Six passwords are verified before the bucket is blocked. -/
theorem six_guesses_before_the_block :
    ∃ p : ThrottlePool none, ((throttleMachine accountPrimitives accountState none).runBy
        (OneWindow accountPrimitives accountState 0) (Machine.start account) racingLogins) = some p ∧
      Fresh accountPrimitives accountState none 0 account.store ∧
      sourceBucket accountPrimitives accountState p = none ∧
      credentialRateLimit.maxAttempts < wrongGuesses accountPrimitives p := by
  have hrun : (((throttleMachine accountPrimitives accountState none).runBy
      (OneWindow accountPrimitives accountState 0) (Machine.start account) racingLogins).map fun p =>
        (wrongGuesses accountPrimitives p, sourceBucket accountPrimitives accountState p)) =
          some (6, none) := by
    decide
  obtain ⟨p, hp, hshown⟩ := Option.map_eq_some_iff.mp hrun
  obtain ⟨hguesses, hbucket⟩ := Prod.mk.inj hshown
  exact ⟨p, hp, fresh_account, hbucket, by rw [hguesses]; decide⟩

end CairnId
