import CairnId.Database.RateLimits
import CairnId.Http.LoginSpec

/-!
# What a login does with the bucket of its source

A login reads the bucket before it looks at the password, and a failure that it records
there is its last call.

## Main definitions

- `wrongGuess` — a password was verified and was wrong
- `throttlePre`, `throttlePost` — the calls of a login, and what it has recorded at its end

## Main results

- `sat_login_throttle`
-/

namespace CairnId

open Concurrency Prog App

/-- The bucket of a source. -/
def loginSourceKey (P : Primitives) (organizationId : OrganizationId) (source : Option String) :
    String :=
  "login" ++ ":ip:" ++ Uuid.hyphenated organizationId ++ ":" ++
    hashToken P (source.getD "unknown")

-- calls and their answers

def Call.isGuess : Call → Bool
  | .db (.findUserByEmail ..) => true
  | _ => false

/-- The user that was found has a password, and it is not this one. -/
def wrongGuess (P : Primitives) (password : String) : Ev → Bool
  | ⟨.db (.findUserByEmail ..), .ok (some found)⟩ => found.user.status = .active &&
      found.passwordHash.any fun hash => !P.verifyPassword password hash
  | _ => false

/-- A failure was recorded in the bucket. -/
def recordsFailure (key : String) : Ev → Bool
  | ⟨.db (.recordRateLimitFailure k ..), .ok _⟩ => k = key
  | _ => false

/-- A failure could not be recorded in the bucket. -/
def losesFailure (key : String) : Ev → Bool
  | ⟨.db (.recordRateLimitFailure k ..), .error _⟩ => k = key
  | _ => false

/-- The bucket was read. -/
def readsBucket (key : String) : Ev → Bool
  | ⟨.db (.getRateLimitBucket k), .ok _⟩ => k = key
  | _ => false

/-- The calls of a login that neither guess nor touch the bucket. -/
def Call.OffBucket (key : String) : Call → Prop
  | .db (.findUserByEmail ..) | .db (.getRateLimitBucket _) => False
  | .db (.clearRateLimitBucket k) => k ≠ key
  | .db (.createAuthSessionWithNewContextNotification ..) | .db (.setUserLastLogin ..)
  | .db (.insertAuditEvent _) | .db (.markMfaCredentialUsed ..)
  | .db (.updateMfaCredentialMetadata ..) | .db (.consumeActiveRecoveryCode ..)
  | .db (.insertWebauthnChallenge _) | .db (.consumeWebauthnChallenge ..) => True
  | e => e.isQuiet = true

-- the specification

section spec

variable (P : Primitives) (key password : String)

/-- With the calls `h` no failure was recorded, and the bucket was not seen to be blocked. -/
structure Admitted (h : List Ev) : Prop where
  unrecorded : ∀ ev ∈ h, recordsFailure key ev = false
  passed : ∀ b, ⟨.db (.getRateLimitBucket key), .ok (some b)⟩ ∈ h →
    ∃ t, ⟨.nowUtc, t⟩ ∈ h ∧ b.isBlocked t = false

/-- What holds of a call for which the bucket matters. -/
def BucketCall (h : List Ev) : Call → Prop
  | .db (.findUserByEmail ..) =>
    h.any (readsBucket key) = true ∧ ∀ ev ∈ h, ev.1.isGuess = false
  | .db (.recordRateLimitFailure k _ now window maxAttempts blockFor) => k = key →
    h.any (readsBucket key) = true ∧ ⟨.nowUtc, now⟩ ∈ h ∧
      credentialRateLimit = ⟨window, maxAttempts, blockFor⟩
  | .db (.getRateLimitBucket _) => True
  | e => e.OffBucket key

def throttlePre (h : List Ev) (e : Call) : Prop := Admitted key h ∧ BucketCall key h e

/-- A wrong guess was recorded, unless the record failed. -/
def throttlePost (h : List Ev) : Prop :=
  h.any (wrongGuess P password) = true →
    h.any (recordsFailure key) = true ∨ h.any (losesFailure key) = true

end spec

variable {P : Primitives} {state : AppState} {key password : String} {h : List Ev}

/-- Nothing is recorded in the bucket, and no guess was wrong. -/
structure Ready (P : Primitives) (key password : String) (h : List Ev) : Prop
    extends Admitted key h where
  right : h.any (wrongGuess P password) = false

theorem Ready.nil : Ready P key password [] :=
  ⟨⟨fun _ hev => absurd hev List.not_mem_nil, fun _ hev => absurd hev List.not_mem_nil⟩, rfl⟩

theorem Ready.post (hr : Ready P key password h) : throttlePost P key password h := fun hwrong => by
  rw [hr.right] at hwrong
  cases hwrong

theorem Call.OffBucket.bucketCall {e : Call} (he : e.OffBucket key) : BucketCall key h e := by
  cases e with
  | db c => cases c <;> first | exact he | cases he
  | _ => exact he

theorem Admitted.cons {ev : Ev} (hA : Admitted key h) (hrecord : recordsFailure key ev = false)
    (hread : ∀ b, ev = ⟨.db (.getRateLimitBucket key), .ok (some b)⟩ →
      ∃ t, ⟨.nowUtc, t⟩ ∈ h ∧ b.isBlocked t = false) : Admitted key (ev :: h) := by
  refine ⟨fun ev' hmem => ?_, fun b hmem => ?_⟩
  · obtain rfl | hmem := List.mem_cons.mp hmem
    · exact hrecord
    · exact hA.unrecorded ev' hmem
  · have hseen : ∃ t, ⟨.nowUtc, t⟩ ∈ h ∧ b.isBlocked t = false := by
      obtain heq | hmem := List.mem_cons.mp hmem
      · exact hread b heq.symm
      · exact hA.passed b hmem
    obtain ⟨t, ht, hb⟩ := hseen
    exact ⟨t, .tail _ ht, hb⟩

/-- An event that is neither a read of the bucket, nor a record, nor a wrong guess. -/
theorem Ready.cons {ev : Ev} (hr : Ready P key password h)
    (hrecord : recordsFailure key ev = false)
    (hwrong : wrongGuess P password ev = false)
    (hread : ∀ b, ev = ⟨.db (.getRateLimitBucket key), .ok (some b)⟩ →
      ∃ t, ⟨.nowUtc, t⟩ ∈ h ∧ b.isBlocked t = false) : Ready P key password (ev :: h) where
  toAdmitted := hr.toAdmitted.cons hrecord hread
  right := by rw [List.any_cons, hwrong, hr.right, Bool.or_false]

theorem Ready.cons_offBucket {e : Call} (he : e.OffBucket key) (r : e.Answer)
    (hr : Ready P key password h) : Ready P key password (⟨e, r⟩ :: h) := by
  refine hr.cons ?_ ?_ fun b heq => ?_
  · cases e with
    | db c => cases c <;> first | rfl | cases he
    | _ => rfl
  · cases e with
    | db c => cases c <;> first | rfl | cases he
    | _ => rfl
  · cases heq
    cases he

/-- A program that leaves the bucket alone. -/
theorem Ready.sat_offBucket {α : Type} {p : App α} (hp : p.All (Call.OffBucket key))
    (hr : Ready P key password h) :
    p.Sat (throttlePre key) (fun h' _ => Ready P key password h' ∧ h ⊆ h') h := by
  suffices ∀ l, Ready P key password (l ++ h) →
      p.Sat (throttlePre key) (fun h' _ => Ready P key password h' ∧ h ⊆ h') (l ++ h) from this [] hr
  clear hr
  intro l hr
  induction p generalizing l with
  | ret a => exact ⟨hr, List.subset_append_right l h⟩
  | fail e => exact ⟨hr, List.subset_append_right l h⟩
  | call e k ih =>
    exact ⟨⟨hr.toAdmitted, hp.1.bucketCall⟩,
      fun r => ih r (hp.2 r) (⟨e, r⟩ :: l) (hr.cons_offBucket hp.1 r)⟩

-- the checks

/-- What a check leaves behind: it adds no guess, and when it passes nothing was blocked. -/
structure Checked (P : Primitives) (key password : String) (h h' : List Ev) : Prop where
  right : h'.any (wrongGuess P password) = false
  kept : h ⊆ h'
  guesses : ∀ ev ∈ h', ev.1.isGuess = true → ev ∈ h

theorem sat_enforceRateLimitAt {now : OffsetDateTime} (keys : List RateLimitKey)
    (hr : Ready P key password h) (hnow : ⟨.nowUtc, now⟩ ∈ h) :
    (enforceRateLimitAt now keys).Sat (throttlePre key) (fun h' o => Checked P key password h h' ∧
      (o = .ok () → Admitted key h' ∧ ∀ k ∈ keys, h'.any (readsBucket k.key) = true)) h := by
  induction keys generalizing h with
  | nil =>
    exact ⟨⟨hr.right, List.Subset.refl h, fun _ hev _ => hev⟩, fun _ => ⟨hr.toAdmitted, nofun⟩⟩
  | cons k keys ih =>
    have hstep : ∀ r, (∀ b, r = .ok (some b) → b.isBlocked now = false) →
        Ready P key password (⟨.db (.getRateLimitBucket k.key), r⟩ :: h) := by
      intro r hfree
      refine hr.cons rfl rfl fun b heq => ?_
      cases heq
      exact ⟨now, hnow, hfree b rfl⟩
    have hadded : ∀ r, Checked P key password h (⟨.db (.getRateLimitBucket k.key), r⟩ :: h) := by
      intro r
      refine ⟨?_, List.subset_cons_self .., fun ev hev hguess => ?_⟩
      · rw [List.any_cons, hr.right]
        rfl
      · obtain rfl | hev := List.mem_cons.mp hev
        · cases hguess
        · exact hev
    refine sat_db_bind ⟨hr.toAdmitted, trivial⟩ (fun bucket => ?_) fun e => ⟨hadded _, nofun⟩
    refine sat_when_bind (fun _ => ⟨hadded _, nofun⟩) fun hfree => ?_
    have hready := hstep (.ok bucket) fun b hb => by
      cases hb
      by_contra hblocked
      simp [Option.filter, Bool.eq_true_of_not_eq_false hblocked] at hfree
    refine (ih hready (.tail _ hnow)).mono (fun _ _ => id) fun h' o hpost => ?_
    obtain ⟨hchecked, hok⟩ := hpost
    refine ⟨⟨hchecked.right, fun ev hev => hchecked.kept (.tail _ hev), fun ev hev hguess => ?_⟩,
      fun ho => ?_⟩
    · exact (hadded (.ok bucket)).guesses ev (hchecked.guesses ev hev hguess) hguess
    · obtain ⟨hA, hreads⟩ := hok ho
      refine ⟨hA, fun k' hk' => ?_⟩
      obtain rfl | hk' := List.mem_cons.mp hk'
      · exact List.any_eq_true.mpr ⟨_, hchecked.kept (.head _), decide_eq_true rfl⟩
      · exact hreads k' hk'

/-- **Check rule**: past a check the buckets have been read and nothing was blocked. -/
theorem sat_enforceRateLimit_bind {α : Type} {post : List Ev → Except ApiError α → Prop}
    {keys : List RateLimitKey} {f : Unit → App α} (hr : Ready P key password h)
    (hpost : ∀ h' e, h'.any (wrongGuess P password) = false → post h' (.error e))
    (hok : ∀ h', Checked P key password h h' → Ready P key password h' →
      (∀ k ∈ keys, h'.any (readsBucket k.key) = true) → (f ()).Sat (throttlePre key) post h') :
    (enforceRateLimit keys >>= f).Sat (throttlePre key) post h := by
  have hclock : (Call.nowUtc).OffBucket key := rfl
  rw [enforceRateLimit, bind_assoc]
  refine sat_perform_bind.mpr ⟨⟨hr.toAdmitted, hclock.bucketCall⟩, fun now => ?_⟩
  refine (sat_enforceRateLimitAt keys (hr.cons_offBucket hclock now) (.head _)).bind
    (fun h' _ hchecked => ?_) fun h' e hchecked => hpost h' e hchecked.1.right
  obtain ⟨hchecked, hpassed⟩ := hchecked
  obtain ⟨hA, hreads⟩ := hpassed rfl
  refine hok h' ⟨hchecked.right, fun ev hev => hchecked.kept (.tail _ hev), fun ev hev hguess => ?_⟩
    ⟨hA, hchecked.right⟩ hreads
  obtain rfl | hev := List.mem_cons.mp (hchecked.guesses ev hev hguess)
  · cases hguess
  · exact hev

-- records

/-- The source's bucket comes last of the buckets in which a failure is recorded. -/
theorem sat_recordAndRefuse_source {α : Type} {k : RateLimitKey} (hk : k.key = key)
    (error : ApiError) (hA : Admitted key h) (hread : h.any (readsBucket key) = true) :
    (recordAndRefuse [k] error : App α).Sat (throttlePre key) (fun h' o =>
      (h'.any (recordsFailure key) = true ∨ h'.any (losesFailure key) = true) ∧
        ∀ a, o ≠ .ok a) h := by
  have hclock : (Call.nowUtc).OffBucket key := rfl
  rw [recordAndRefuse, recordRateLimitFailure, bind_assoc]
  refine sat_perform_bind.mpr ⟨⟨hA, hclock.bucketCall⟩, fun now => ?_⟩
  have hA' : Admitted key (⟨.nowUtc, now⟩ :: h) := hA.cons rfl nofun
  have hread' : ((⟨.nowUtc, now⟩ : Ev) :: h).any (readsBucket key) = true := by
    rw [List.any_cons, hread, Bool.or_true]
  rw [recordRateLimitFailureAt, bind_assoc]
  refine sat_db_bind ⟨hA', fun _ => ⟨hread', .head _, rfl⟩⟩ (fun bucket => ?_) fun e => ?_
  · exact ⟨.inl (List.any_eq_true.mpr ⟨_, .head _, decide_eq_true hk⟩), nofun⟩
  · exact ⟨.inr (List.any_eq_true.mpr ⟨_, .head _, decide_eq_true hk⟩), nofun⟩

/-- Of the two buckets of a verified user the source's is the last. -/
theorem sat_recordVerifiedUser {α : Type} {user source : RateLimitKey} (hu : user.key ≠ key)
    (error : ApiError) (hr : Ready P key password h)
    (hread : h.any (readsBucket key) = true) :
    (recordRateLimitFailure credentialRateLimit [user, source] >>= fun _ => throw error : App α).Sat
      (throttlePre key) (fun h' o =>
        h'.any (wrongGuess P password) = false ∧ ∀ a, o ≠ .ok a) h := by
  have hclock : (Call.nowUtc).OffBucket key := rfl
  rw [recordRateLimitFailure, bind_assoc]
  refine sat_perform_bind.mpr ⟨⟨hr.toAdmitted, hclock.bucketCall⟩, fun now => ?_⟩
  have hr₁ := hr.cons_offBucket hclock now
  rw [recordRateLimitFailureAt, bind_assoc]
  refine sat_db_bind ⟨hr₁.toAdmitted, fun heq => absurd heq hu⟩ (fun bucket => ?_) fun e => ?_
  · have hr₂ : Ready P key password (⟨.db (.recordRateLimitFailure user.key user.purpose now
        credentialRateLimit.window credentialRateLimit.maxAttempts credentialRateLimit.blockFor),
          .ok bucket⟩ :: ⟨.nowUtc, now⟩ :: h) :=
      hr₁.cons (decide_eq_false hu) rfl nofun
    have hread₂ : ((⟨.db (.recordRateLimitFailure user.key user.purpose now
        credentialRateLimit.window credentialRateLimit.maxAttempts credentialRateLimit.blockFor),
          .ok bucket⟩ : Ev) :: ⟨.nowUtc, now⟩ :: h).any (readsBucket key) = true := by
      rw [List.any_cons, List.any_cons, hread, Bool.or_true, Bool.or_true]
    rw [recordRateLimitFailureAt, bind_assoc]
    refine sat_db_bind ⟨hr₂.toAdmitted, fun _ => ⟨hread₂, .tail _ (.head _), rfl⟩⟩ (fun _ => ?_)
      fun e => ?_
    · refine ⟨?_, nofun⟩
      rw [List.any_cons, hr₂.right]
      rfl
    · refine ⟨?_, nofun⟩
      rw [List.any_cons, hr₂.right]
      rfl
  · refine ⟨?_, nofun⟩
    rw [List.any_cons, hr₁.right]
    rfl

-- the credentials

theorem sat_verifyLoginCredentials_throttle (request : LoginRequest) (email : String)
    {k : RateLimitKey} (hk : k.key = key) (hr : Ready P key request.password h)
    (hread : h.any (readsBucket key) = true) (hnone : ∀ ev ∈ h, ev.1.isGuess = false) :
    (verifyLoginCredentials P state request email [k]).Sat (throttlePre key) (fun h' o =>
      throttlePost P key request.password h' ∧
        ∀ user, o = .ok user → Ready P key request.password h' ∧ h ⊆ h') h := by
  have hrefused : ∀ (found : Option UserWithPassword) (error : ApiError),
      (recordAndRefuse [k] error : App User).Sat (throttlePre key) (fun h' o =>
        throttlePost P key request.password h' ∧ ∀ user, o = .ok user →
          Ready P key request.password h' ∧ h ⊆ h')
        (⟨.db (.findUserByEmail state.organizationId email), .ok found⟩ :: h) := by
    intro found error
    have hA : Admitted key (⟨.db (.findUserByEmail state.organizationId email), .ok found⟩ :: h) :=
      hr.toAdmitted.cons rfl nofun
    refine (sat_recordAndRefuse_source hk error hA ?_).mono (fun _ _ => id) fun h' o hpost => ?_
    · rw [List.any_cons, hread, Bool.or_true]
    · exact ⟨fun _ => hpost.1, fun user ho => absurd ho (hpost.2 user)⟩
  refine sat_db_bind ⟨hr.toAdmitted, hread, hnone⟩ (fun found => ?_) fun e => ⟨?_, nofun⟩
  · split
    · exact hrefused ..
    case _ found =>
      split
      · exact hrefused ..
      case _ hash hhash =>
        split
        · exact hrefused ..
        · split
          · exact hrefused ..
          case _ hverified =>
            have hright : wrongGuess P request.password ⟨.db (.findUserByEmail
                state.organizationId email), .ok (some found)⟩ = false := by
              have hverify : P.verifyPassword request.password hash = true := by
                simpa using hverified
              simp [wrongGuess, hhash, hverify]
            have hready := hr.cons rfl hright fun b heq => by cases heq
            refine ⟨hready.post, fun user _ => ⟨hready, List.subset_cons_self ..⟩⟩
  · exact (hr.cons rfl rfl fun b heq => by cases heq).post

-- the second factor

theorem verifyCalls_offBucket : VerifyCalls (Call.OffBucket key) where
  clock := rfl
  uuid := rfl
  start _ := rfl
  used _ _ := trivial
  spend _ _ _ _ := trivial
  update _ _ _ := trivial
  challenge _ := trivial
  consume _ _ _ _ _ := trivial

theorem offBucket_activeMfaCredentialsForUser (organizationId : OrganizationId) (userId : UserId) :
    (activeMfaCredentialsForUser organizationId userId).All (Call.OffBucket key) :=
  .bind (.bind (all_app_db rfl) fun _ => .ret _) fun _ =>
    .bind (.bind (all_app_db rfl) fun _ => .ret _) fun _ =>
    .bind (.bind (all_app_db rfl) fun _ => .ret _) fun _ => .ret _

theorem sat_verifySubmittedMfa_throttle (organizationId : OrganizationId) (userId : UserId)
    (submitted : SubmittedMfa) {user source : RateLimitKey} (hu : user.key ≠ key)
    (hr : Ready P key password h) (hread : h.any (readsBucket key) = true) :
    (verifySubmittedMfa P state organizationId userId submitted [user, source]
      credentialRateLimit).Sat (throttlePre key) (fun h' o =>
        h'.any (wrongGuess P password) = false ∧ ∀ v, o = .ok v → Ready P key password h') h := by
  have hrecord : ∀ {α : Type} (error : ApiError) h', Ready P key password h' → h ⊆ h' →
      (recordRateLimitFailure credentialRateLimit [user, source] >>= fun _ =>
        throw error : App α).Sat (throttlePre key) (fun h' o => h'.any (wrongGuess P password) = false ∧ ∀ a, o ≠ .ok a)
        h' := by
    intro α error h' hr' hsub
    obtain ⟨ev, hev, hreads⟩ := List.any_eq_true.mp hread
    exact sat_recordVerifiedUser hu error hr' (List.any_eq_true.mpr ⟨ev, hsub hev, hreads⟩)
  refine (hr.sat_offBucket (offBucket_activeMfaCredentialsForUser ..)).bind
    (fun h₁ active hr₁ => ?_) fun h₁ e hr₁ => ⟨hr₁.1.right, nofun⟩
  obtain ⟨hr₁, hsub₁⟩ := hr₁
  split
  · exact ⟨hr₁.right, fun _ _ => hr₁⟩
  split
  case _ challengeId assertion _ _ =>
    have hverify : (verifyWebauthnAssertion P state organizationId userId active.webauthn
        challengeId assertion).Sat (throttlePre key)
          (fun h' _ => Ready P key password h' ∧ h₁ ⊆ h') h₁ :=
      hr₁.sat_offBucket (verifyCalls_offBucket.verifyWebauthnAssertion ..)
    have hcaught : ((verifyWebauthnAssertion P state organizationId userId active.webauthn
        challengeId assertion).tryCatch fun error => do
          recordRateLimitFailure credentialRateLimit [user, source]
          throw error).Sat (throttlePre key) (fun h' o => h'.any (wrongGuess P password) = false ∧
            ∀ v, o = .ok v → Ready P key password h') h₁ := by
      refine hverify.tryCatch (fun h' a hok => ⟨hok.1.right, fun _ _ => hok.1⟩)
        fun h' error herr => ?_
      refine (hrecord error h' herr.1 fun ev hev => herr.2 (hsub₁ hev)).mono (fun _ _ => id)
        fun h' o hpost => ⟨hpost.1, fun v ho => absurd ho (hpost.2 v)⟩
    refine hcaught.bind (fun h' method hpost => ?_) fun h' e hpost => ⟨hpost.1, nofun⟩
    exact ⟨hpost.1, fun _ _ => hpost.2 method rfl⟩
  · split
    · refine (hr₁.sat_offBucket (verifyCalls_offBucket.mfaRequiredResponse ..)).bind
        (fun h' body hr' => ⟨hr'.1.right, fun _ _ => hr'.1⟩) fun h' e hr' => ⟨hr'.1.right, nofun⟩
    case _ code _ =>
      refine (hr₁.sat_offBucket (verifyCalls_offBucket.verifyMfaCodeAgainstCredentials ..)).bind
        (fun h' method hr' => ?_) fun h' e hr' => ⟨hr'.1.right, nofun⟩
      refine sat_when_bind (fun _ => ?_) fun _ => ⟨hr'.1.right, fun _ _ => hr'.1⟩
      refine (hrecord _ h' hr'.1 fun ev hev => hr'.2 (hsub₁ hev)).bind
        (fun h' a hpost => absurd rfl (hpost.2 a)) fun h' e hpost => ⟨hpost.1, nofun⟩

-- the login

theorem offBucket_insertLoginSession (headers : RequestHeaders) (user : User)
    (method : Option MfaVerificationMethod) {userKey source : RateLimitKey}
    (hu : userKey.key ≠ key) :
    (insertLoginSession P state headers user method [userKey, source]).All
      (Call.OffBucket key) := by
  have hnotification : ∀ session context now,
      (identifyingNotification P state user session context now).All (Call.OffBucket key) := by
    intro session context now
    unfold identifyingNotification
    split
    · exact .bind (.bind (.perform rfl) fun _ => .ret _) fun _ => .ret _
    · trivial
  exact .bind (.perform rfl) fun _ => .bind (.bind (.perform rfl) fun _ => .ret _) fun _ =>
    .bind (hnotification ..) fun _ => .bind (all_app_db trivial) fun _ =>
    .bind (all_app_db trivial) fun _ => .bind (all_app_db hu) fun _ =>
    .bind (.bind (.perform rfl) fun _ => .bind (.perform rfl) fun _ => all_app_db trivial)
      fun _ => .ret _

/-- The bucket of a user is not the bucket of a source. -/
theorem userKey_ne_sourceKey (userId : UserId) (purpose : String) (source : Option String) :
    (userRateLimitKey P state.organizationId "login" userId purpose).key ≠
      loginSourceKey P state.organizationId source := by
  have hkinds : ∀ user source : String,
      "login" ++ ":user:" ++ user ≠ "login" ++ ":ip:" ++ source := by
    intro user source heq
    have hchars := congrArg String.toList heq
    simp only [String.toList_append, List.append_assoc] at hchars
    have hrest := List.append_cancel_left hchars
    have huser : ":user:".toList = [':', 'u', 's', 'e', 'r', ':'] := by decide
    have hip : ":ip:".toList = [':', 'i', 'p', ':'] := by decide
    rw [huser, hip] at hrest
    exact absurd (List.cons.inj (List.cons.inj hrest).2).1 (by decide)
  have hsplit : ∀ a b c d e : String, a ++ b ++ c ++ d ++ e = a ++ b ++ (c ++ d ++ e) := by
    intro a b c d e
    simp only [String.append_assoc]
  rw [userRateLimitKey, loginSourceKey, hsplit, hsplit]
  exact hkinds _ _

/-- What a login does once its headers are accepted. -/
theorem sat_throttledLogin (headers : RequestHeaders) (request : LoginRequest) (email : String)
    {source : RateLimitKey} (hs : source.key = key)
    (hu : ∀ userId purpose,
      (userRateLimitKey P state.organizationId "login" userId purpose).key ≠ key)
    (hr : Ready P key request.password h) (hnone : ∀ ev ∈ h, ev.1.isGuess = false) :
    (do
      enforceRateLimit [source]
      let user ← verifyLoginCredentials P state request email [source]
      let verifiedUserKeys := [userRateLimitKey P state.organizationId "login" user.id
        "session.login.user", source]
      enforceRateLimit verifiedUserKeys
      match ← verifySubmittedMfa P state user.organizationId user.id request.mfa.submitted
          verifiedUserKeys credentialRateLimit with
      | .required body => return AuthResponse.mfaRequired body
      | .verified method => insertLoginSession P state headers user method verifiedUserKeys
      : App AuthResponse).Sat (throttlePre key)
        (fun h _ => throttlePost P key request.password h) h := by
  have hsafe : ∀ h' : List Ev, h'.any (wrongGuess P request.password) = false →
      throttlePost P key request.password h' := by
    intro h' hright hwrong
    rw [hright] at hwrong
    cases hwrong
  refine sat_enforceRateLimit_bind hr (fun h' _ => hsafe h') fun h₁ hchecked hr₁ hreads₁ => ?_
  have hread₁ : h₁.any (readsBucket key) = true := hs ▸ hreads₁ source (.head _)
  have hnone₁ : ∀ ev ∈ h₁, ev.1.isGuess = false := by
    intro ev hev
    by_contra hguess
    have hguess := Bool.eq_true_of_not_eq_false hguess
    rw [hnone ev (hchecked.guesses ev hev hguess)] at hguess
    cases hguess
  refine (sat_verifyLoginCredentials_throttle request email hs hr₁ hread₁ hnone₁).bind
    (fun h₂ user hpost => ?_) fun h₂ e hpost => hpost.1
  obtain ⟨hr₂, -⟩ := hpost.2 user rfl
  refine sat_enforceRateLimit_bind hr₂ (fun h' _ => hsafe h') fun h₃ _ hr₃ hreads₃ => ?_
  have hread₃ : h₃.any (readsBucket key) = true := hs ▸ hreads₃ source (.tail _ (.head _))
  refine (sat_verifySubmittedMfa_throttle user.organizationId user.id request.mfa.submitted
    (hu user.id "session.login.user") hr₃ hread₃).bind (fun h₄ verification hpost => ?_)
    fun h₄ e hpost => hsafe h₄ hpost.1
  have hr₄ := hpost.2 verification rfl
  cases verification with
  | required body => exact hr₄.post
  | verified method =>
    exact (hr₄.sat_offBucket (offBucket_insertLoginSession headers user method
      (hu user.id "session.login.user"))).mono (fun _ _ => id) fun _ _ hr₅ => hr₅.1.post

theorem sat_login_throttle (headers : RequestHeaders) (request : LoginRequest)
    (hkey : loginSourceKey P state.organizationId headers.sourceIp = key) :
    (login P state headers request).Sat (throttlePre key)
      (fun h _ => throttlePost P key request.password h) [] := by
  have hu : ∀ userId purpose,
      (userRateLimitKey P state.organizationId "login" userId purpose).key ≠ key := by
    rw [← hkey]
    exact fun userId purpose => userKey_ne_sourceKey userId purpose headers.sourceIp
  have hnone : ∀ l : List Ev, (∀ ev ∈ l, False) → l = [] := fun l hl =>
    List.eq_nil_iff_forall_not_mem.mpr hl
  unfold login
  refine Sat.skip_bind (all_requireCsrf headers) (fun _ _ _ (hfalse : False) => hfalse.elim)
    (fun l _ hl => ?_) fun l e hl => ?_
  · obtain rfl := hnone l hl
    generalize (normalizeEmail request.email).mapError ApiError.ofDomain = normalized
    cases normalized with
    | error error => exact Ready.nil.post
    | ok email =>
      exact sat_throttledLogin headers request email hkey hu Ready.nil fun _ hev =>
        absurd hev List.not_mem_nil
  · obtain rfl := hnone l hl
    exact Ready.nil.post

end CairnId
