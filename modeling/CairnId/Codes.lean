import CairnId.Families

/-!
# Authorization codes

A code is redeemed at most once, by the party it was issued to, and a request
that does not redeem it changes nothing.
-/

namespace CairnId

open Concurrency Concurrency.Sql

theorem utf8Size_of_isPkceUnreserved {c : Char} (h : isPkceUnreserved c = true) :
    c.utf8Size = 1 := by
  rw [Char.utf8Size_eq_one_iff]
  simp only [isPkceUnreserved, Bool.or_eq_true, Bool.and_eq_true, decide_eq_true_eq, Char.le_def] at h
  rcases h with ((((((h | h) | h) | h) | h) | h) | h)
  · exact UInt32.le_trans h.2 (by decide)
  · exact UInt32.le_trans h.2 (by decide)
  · exact UInt32.le_trans h.2 (by decide)
  all_goals subst h; decide

theorem utf8ByteSize_ofList {l : List Char} (h : ∀ c ∈ l, c.utf8Size = 1) :
    (String.ofList l).utf8ByteSize = l.length := by
  induction l with
  | nil => rfl
  | cons c l ih =>
    rw [String.ofList_cons, String.utf8ByteSize_append, String.utf8ByteSize_singleton,
      h c (by simp), ih fun c hc => h c (by simp [hc]), List.length_cons, Nat.add_comm]

/-- An accepted verifier has 43 to 128 characters. -/
theorem length_of_validatePkceUnreserved {value : String} (h : validatePkceUnreserved value = true) :
    43 ≤ value.length ∧ value.length ≤ 128 := by
  simp only [validatePkceUnreserved, Bool.and_eq_true, decide_eq_true_eq, List.all_eq_true] at h
  have hsize : value.utf8ByteSize = value.length := by
    conv_lhs => rw [← String.ofList_toList (s := value)]
    rw [utf8ByteSize_ofList fun c hc => utf8Size_of_isPkceUnreserved (h.2 c hc),
      String.length_toList]
  omega
/-- The hash of the code that a call redeemed. -/
def redeemedHash : Ev → Option String
  | ⟨.db (.consumeAuthorizationCodeAndInsertTokens hash _ _ _), .ok true⟩ => some hash
  | _ => none

theorem redeemedHash_eq_some {ev : Ev} {hash : String} (h : redeemedHash ev = some hash) :
    ∃ access refresh now,
      ev = ⟨.db (.consumeAuthorizationCodeAndInsertTokens hash access refresh now), .ok true⟩ := by
  unfold redeemedHash at h
  split at h
  · cases h
    exact ⟨_, _, _, rfl⟩
  · cases h

/-- A redeemed code is used, and no code is redeemed twice. -/
structure RedeemInv (w : World) (tr : Trace) : Prop where
  used : ∀ x ∈ tr, ∀ hash, redeemedHash x.event = some hash →
    ∃ c ∈ w.store.tables .authorizationCodes, c.codeHash = hash ∧ c.usedAt ≠ none
  once : Once redeemedHash tr

variable {P : Primitives} {Q α : Type} {handler : Q → App α} {w₀ : World}

theorem redeemInv_of_reachable {p : Pool Call.Answer Q World ApiError α}
    (h : (machine P handler).Reachable w₀ p) : RedeemInv p.world p.trace := by
  refine h.invariant (fun q => Prog.Sat.trivial (handler q)) RedeemInv ⟨by simp, once_nil⟩ ?_
  intro p i q e ch r w' _ hinv _ hexec
  replace hexec : e.exec P ch p.world = some (r, w') := hexec
  have hkept := Call.exec_kept hexec .authorizationCodes (by simp [evolution])
  have hused : ∀ x ∈ p.trace, ∀ hash, redeemedHash x.event = some hash →
      ∃ c ∈ w'.store.tables .authorizationCodes, c.codeHash = hash ∧ c.usedAt ≠ none := by
    intro x hx hash hh
    obtain ⟨c, hc, hhash, hu⟩ := hinv.used x hx hash hh
    obtain ⟨c', hc', hstep⟩ := hkept c hc
    obtain ⟨heq, hu'⟩ := hstep.authorizationCode
    exact ⟨c', hc', by rw [heq]; exact hhash, fun hn => hu (hu' hn)⟩
  refine ⟨fun x hx => ?_, once_cons.mpr ⟨fun y hy hash hh hy' => ?_, hinv.once⟩⟩
  · rcases List.mem_cons.mp hx with rfl | hx
    · intro hash hh
      obtain ⟨access, refresh, now, hev⟩ := redeemedHash_eq_some hh
      cases hev
      rcases Call.exec_consume hexec with ⟨-, hd⟩ | ⟨hne, -⟩
      · obtain ⟨c, hc, hred⟩ := hd.claimed
        refine ⟨{ c with usedAt := some now }, ?_, ?_, (by rintro ⟨⟩)⟩
        · rw [hd.codes]
          exact List.mem_map.mpr ⟨c, hc, by rw [if_pos hred]⟩
        · simp only [AuthorizationCode.redeemable, decide_eq_true_eq] at hred
          exact hred.1
      · exact absurd rfl hne
    · exact hused x hx
  · -- the update finds the code unused, but the earlier redemption used it
    obtain ⟨access, refresh, now, hev⟩ := redeemedHash_eq_some hh
    cases hev
    obtain ⟨c, hc, hhash, hu⟩ := hinv.used y hy hash hy'
    rcases Call.exec_consume hexec with ⟨-, hd⟩ | ⟨hne, -⟩
    · obtain ⟨c', hc', hred⟩ := hd.claimed
      simp only [AuthorizationCode.redeemable, decide_eq_true_eq] at hred
      have : c = c' := (p.world.store.unique .authorizationCodes).eq_of_key hc hc'
        (congrArg Key.text (hhash.trans hred.1.symm))
      exact hu (this ▸ hred.2.1)
    · exact absurd rfl hne

/-- The call `x` redeemed the code `c` for `request`, made as `client`. -/
structure ProperRedemption (P : Primitives) (request : TokenRequest) (auth : OAuthClientAuth)
    (x : Entry Call.Answer World) (c : AuthorizationCode) (client : OidcClient)
    (access : AccessTokenRecord) (refresh : Option RefreshToken) (now : OffsetDateTime) :
    Prop where
  event : x.event =
    ⟨.db (.consumeAuthorizationCodeAndInsertTokens c.codeHash access refresh now), .ok true⟩
  /-- One access token and at most one refresh token are inserted, in the step
      that marks the code used. -/
  effect : ∃ ch w', x.event.1.exec P ch x.before = some (x.event.2, w') ∧
    Redeemed c.codeHash access refresh now x.before.store.tables w'.store.tables
  presented : request.code.map (hashToken P) = some c.codeHash
  redirectUri : request.redirectUri = some c.redirectUri
  client_authenticates : clientAuthenticates P client auth = true
  client_bound : client.organizationId = c.organizationId ∧ client.id = c.clientId
  verifier : ∃ verifier, request.codeVerifier = some verifier ∧ 43 ≤ verifier.length ∧
    verifier.length ≤ 128 ∧ P.digest verifier = c.codeChallenge
  access_rights : access.organizationId = c.organizationId ∧ access.userId = some c.userId ∧
    access.clientId = c.clientId ∧ access.scopes = c.scopes
  refresh_iff : refresh.isSome ↔
    "offline_access" ∈ c.scopes ∧ client.allowsGrant .refreshToken = true
  refresh_rights : ∀ r ∈ refresh, r.organizationId = c.organizationId ∧
    r.userId = some c.userId ∧ r.clientId = c.clientId ∧ r.scopes = c.scopes
  family_shared : access.refreshFamilyId = refresh.map (·.familyId)
  family_fresh : ∀ r ∈ refresh,
    (∀ t ∈ x.before.store.tables .refreshTokens, t.familyId ≠ r.familyId) ∧
    ∀ a ∈ x.before.store.tables .accessTokens, a.refreshFamilyId ≠ some r.familyId

/-- What it means that the codes of a run are redeemed properly. -/
structure ProperRedemptions (P : Primitives)
    (p : Pool Call.Answer TokenTask World ApiError (Option TokenResponse)) : Prop where
  once : ∀ i j request request' auth auth' code code',
    TokenTask.Answered p i (.authorizationCode request auth) →
    TokenTask.Answered p j (.authorizationCode request' auth') →
    request.code = some code → request'.code = some code' →
    hashToken P code = hashToken P code' → i = j
  answered : ∀ i request auth, TokenTask.Answered p i (.authorizationCode request auth) →
    ∃ x ∈ p.trace, x.thread = i ∧ ∃ c ∈ p.world.store.tables .authorizationCodes,
      ∃ client clientId access refresh now, auth.clientId = some clientId ∧
        ⟨.db (.getOidcClientByPublicId clientId), .ok (some client)⟩ ∈ own i p.trace ∧
        ProperRedemption P request auth x c client access refresh now
  /-- No call of a request without an answer changes anything. -/
  refused : ∀ i t request auth, p.threads[i]? = some t →
    t.request = .authorizationCode request auth →
    ¬TokenTask.Answered p i (.authorizationCode request auth) →
    ∀ x ∈ p.trace, x.thread = i →
      ∃ ch w', x.event.1.exec P ch x.before = some (x.event.2, w') ∧ w'.store = x.before.store

variable {state : AppState} {clock : OffsetDateTime}
  {p : Pool Call.Answer TokenTask World ApiError (Option TokenResponse)}

/-- A code request that answered with tokens redeemed the code in its last call. -/
theorem redeems_of_answered (h : (tokenMachine P state).Reachable (World.initial clock) p) {i : ℕ}
    {request : TokenRequest} {auth : OAuthClientAuth}
    (ha : TokenTask.Answered p i (.authorizationCode request auth)) :
    ∃ hash access refresh now stored client session tr₁ x tr₂,
      p.trace = tr₁ ++ x :: tr₂ ∧ x.thread = i ∧
      x.event = ⟨.db (.consumeAuthorizationCodeAndInsertTokens hash access refresh now),
        .ok true⟩ ∧
      Quiet (own i tr₂) ∧
      CodeRedemption P request auth (own i tr₂) hash access refresh now stored client session := by
  obtain ⟨t, response, ht, hreq, ho⟩ := ha
  have hpost := h.post_of_outcome (TokenTask.sat P state) ht ho
  rw [hreq] at hpost
  obtain ⟨hash, access, refresh, now, stored, client, session, h', heq, -⟩ := hpost
  obtain ⟨x, hx, rfl, hev⟩ := mem_own.mp (heq ▸ List.mem_cons_self : _ ∈ own i p.trace)
  obtain ⟨tr₁, tr₂, htr⟩ := List.append_of_mem hx
  obtain ⟨t', ht', hpre⟩ := h.admissible (TokenTask.sat P state) htr
  rw [ht] at ht'
  cases ht'
  rw [hreq, hev] at hpre
  obtain ⟨hq, hquiet | ⟨_, _, _, _, stored, client, session, hcall, hr⟩⟩ := hpre
  · cases hquiet
  · cases hcall
    exact ⟨hash, access, refresh, now, stored, client, session, tr₁, x, tr₂, htr, rfl, hev, hq, hr⟩

/-- Once its code is redeemed, a request can only answer with tokens. -/
theorem answered_of_redeems (h : (tokenMachine P state).Reachable (World.initial clock) p) {i : ℕ}
    {t : Thread Call.Answer TokenTask ApiError (Option TokenResponse)} {request : TokenRequest}
    {auth : OAuthClientAuth} (ht : p.threads[i]? = some t)
    (hreq : t.request = .authorizationCode request auth) {hash : String}
    {access : AccessTokenRecord} {refresh : Option RefreshToken} {now : OffsetDateTime}
    (hmem : ⟨.db (.consumeAuthorizationCodeAndInsertTokens hash access refresh now), .ok true⟩ ∈
      own i p.trace) : TokenTask.Answered p i (.authorizationCode request auth) := by
  have hsat := h.sat (TokenTask.sat P state) ht
  rw [hreq] at hsat
  match hrest : t.rest with
  | .call e k =>
    rw [hrest] at hsat
    have := hsat.1.1 _ hmem
    simp [Call.isQuiet, DbCall.isQuery] at this
  | .fail e =>
    rw [hrest] at hsat
    exact absurd hmem (hsat _ _ _ _)
  | .ret none =>
    rw [hrest] at hsat
    exact hsat.elim
  | .ret (some response) => exact ⟨t, response, ht, hreq, Thread.outcome_eq_ok.mpr hrest⟩

theorem properRedemption_of_answered
    (h : (tokenMachine P state).Reachable (World.initial clock) p) {i : ℕ}
    {request : TokenRequest} {auth : OAuthClientAuth}
    (ha : TokenTask.Answered p i (.authorizationCode request auth)) :
    ∃ x ∈ p.trace, x.thread = i ∧ ∃ c ∈ p.world.store.tables .authorizationCodes,
      ∃ client clientId access refresh now, auth.clientId = some clientId ∧
        ⟨.db (.getOidcClientByPublicId clientId), .ok (some client)⟩ ∈ own i p.trace ∧
        ProperRedemption P request auth x c client access refresh now := by
  obtain ⟨hash, access, refresh, now, stored, client, session, tr₁, x, tr₂, htr, rfl, hev, hq, hr⟩ :=
    redeems_of_answered h ha
  have hx : x ∈ p.trace := by simp [htr]
  have hsub : own x.thread tr₂ ⊆ own x.thread p.trace := by
    intro ev hmem
    rw [htr, own_append]
    exact List.mem_append_right _ (mem_own_cons.mpr (.inr hmem))
  obtain ⟨p₀, t, k, h₀, hw₀, rfl, -, -⟩ := h.before htr
  obtain ⟨hhash, c, hc, hstep⟩ := getAuthorizationCode_kept h (hsub hr.checked.code_read)
  obtain ⟨clientId, hid, hread⟩ := hr.checked.client_read
  obtain ⟨tokenHash, haccess⟩ := hr.access_eq
  have hceq := hstep.authorizationCode.1
  have hchash : c.codeHash = hash := by rw [hceq]; exact hhash
  refine ⟨x, hx, rfl, c, hc, client, clientId, access, refresh, now, hid, hsub hread, ?_⟩
  constructor
  case event => rw [hchash, hev]
  case effect =>
    obtain ⟨ch, w', hexec, -⟩ := executed h hx
    refine ⟨ch, w', hexec, ?_⟩
    obtain ⟨j, ev, w⟩ := x
    dsimp only at hev
    subst hev
    rcases Call.exec_consume hexec with ⟨-, hd⟩ | ⟨hne, -⟩
    · rw [hchash]
      exact hd
    · exact absurd rfl hne
  case presented =>
    obtain ⟨code, hcode, rfl⟩ := hr.checked.presented
    rw [hcode, hchash]
    rfl
  case redirectUri => rw [hceq]; exact hr.checked.redirectUri
  case client_authenticates => exact hr.checked.client_authenticates
  case client_bound => rw [hceq]; exact hr.checked.client_bound
  case verifier =>
    obtain ⟨verifier, hv, hpkce⟩ := hr.checked.verifier
    simp only [verifyPkce, Bool.and_eq_true, decide_eq_true_eq] at hpkce
    obtain ⟨h₁, h₂⟩ := length_of_validatePkceUnreserved hpkce.1.1
    refine ⟨verifier, hv, h₁, h₂, ?_⟩
    rw [hceq]
    exact hpkce.2
  case access_rights => rw [hceq, haccess]; exact ⟨rfl, rfl, rfl, rfl⟩
  case refresh_iff =>
    have hiff := hr.refresh_eq
    rw [hceq]
    split at hiff
    case isTrue hissue =>
      obtain ⟨_, _, _, rfl⟩ := hiff
      simpa [shouldIssueRefreshToken, and_comm] using hissue
    case isFalse hissue =>
      subst hiff
      simpa [shouldIssueRefreshToken, and_comm] using hissue
  case refresh_rights =>
    rintro r ⟨⟩
    obtain ⟨secret, -, heq⟩ := hr.refresh_of_some
    rw [hceq, heq]
    exact ⟨rfl, rfl, rfl, rfl⟩
  case family_shared => rw [haccess]; rfl
  case family_fresh =>
    rintro r ⟨⟩
    obtain ⟨secret, hdraw, -⟩ := hr.refresh_of_some
    have hinv := familyInv_of_reachable h₀
    rw [← hw₀]
    refine ⟨fun t ht hf => ?_, fun a ha hf => ?_⟩
    · obtain ⟨_, _, _, _, hred, hf'⟩ := hinv.started t ht
      exact hinv.not_started h₀ hq hdraw hred (hf'.trans hf)
    · obtain ⟨_, _, _, _, hred, hf'⟩ := hinv.started_access a ha _ hf
      exact hinv.not_started h₀ hq hdraw hred hf'

/-- **Codes are redeemed at most once, by the right party**, and refused requests
    change nothing. -/
theorem authorizationCodes_redeemed_properly
    (h : (tokenMachine P state).Reachable (World.initial clock) p) : ProperRedemptions P p := by
  constructor
  case once =>
    intro i j request request' auth auth' code code' ha ha' hcode hcode' hhash
    obtain ⟨x, hx, rfl, c, -, _, _, _, _, _, -, -, hp⟩ := properRedemption_of_answered h ha
    obtain ⟨y, hy, rfl, c', -, _, _, _, _, _, -, -, hp'⟩ := properRedemption_of_answered h ha'
    have hxh : redeemedHash x.event = some (hashToken P code) := by
      have := hp.presented
      rw [hcode] at this
      rw [hp.event, Option.some.inj this]
      rfl
    have hyh : redeemedHash y.event = some (hashToken P code) := by
      have := hp'.presented
      rw [hcode'] at this
      rw [hp'.event, hhash, Option.some.inj this]
      rfl
    rw [(redeemInv_of_reachable h).once.eq hx hy hxh hyh]
  case answered => exact fun i request auth ha => properRedemption_of_answered h ha
  case refused =>
    intro i t request auth ht hreq hna x hx hi
    obtain ⟨ch, w', hexec, -⟩ := executed h hx
    refine ⟨ch, w', hexec, ?_⟩
    obtain ⟨tr₁, tr₂, htr⟩ := List.append_of_mem hx
    obtain ⟨t', ht', hpre⟩ := h.admissible (TokenTask.sat P state) htr
    rw [hi, ht] at ht'
    cases ht'
    rw [hreq] at hpre
    obtain ⟨-, hquiet | ⟨hash, access, refresh, now, _, _, _, hcall, -⟩⟩ := hpre
    · exact Call.exec_of_isQuiet hquiet hexec
    · obtain ⟨j, ⟨e, r⟩, w⟩ := x
      dsimp only at hcall
      subst hcall
      rcases Call.exec_consume hexec with ⟨rfl, -⟩ | ⟨-, hs⟩
      · exact absurd (answered_of_redeems h ht hreq (mem_own.mpr ⟨_, hx, hi, rfl⟩)) hna
      · exact hs

/-- Two requests present one code: the first answers. -/
theorem authorizationCodes_redeemed_properly_presented_twice :
    ∃ p, Sample.after (Sample.setup ++ Sample.exchange ++ Sample.replay) = some p ∧
      p.threads.map (fun t => t.outcome.map (·.isOk)) =
        [some true, some true, some true, some true, some true, some true, some false] ∧
      ProperRedemptions Sample.primitives p := by
  have hrun : (Sample.after (Sample.setup ++ Sample.exchange ++ Sample.replay)).map (fun p =>
      p.threads.map fun t => t.outcome.map (·.isOk)) =
      some [some true, some true, some true, some true, some true, some true, some false] := by
    decide
  obtain ⟨p, hp, houtcomes⟩ := Option.map_eq_some_iff.mp hrun
  exact ⟨p, hp, houtcomes,
    authorizationCodes_redeemed_properly (Machine.Reachable.start.run hp)⟩

end CairnId
