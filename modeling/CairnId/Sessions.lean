import CairnId.Database.Sessions
import CairnId.Http.AccountRequests
import CairnId.Http.TokenRuns

/-!
# Sessions and the authentication behind them

Runs of any requests that sign in, sign out, change the password or manage
factors. A session that a password change inserts copies the authentication
context of an earlier one, so what is known of a session goes back to the request
that verified the password.
-/

namespace CairnId

open Concurrency Prog App Database

variable {P : Primitives} {state : AppState}

/-- The password that a request sent along as proof. -/
def AccountRequest.password : AccountRequest → Option String
  | .login _ request => some request.password
  | .reauthenticate _ request => some request.password
  | .changePassword _ request => some request.currentPassword
  | _ => none

/-- The second factor that a request sent along. -/
def AccountRequest.submitted : AccountRequest → SubmittedMfa
  | .login _ request => request.mfa.submitted
  | .reauthenticate _ request => request.mfa.submitted
  | _ => ⟨none, none, none⟩

variable (P state) in
/-- What a request has established when it inserts a session. -/
def AccountRequest.Ground : AccountRequest → List Ev → AuthSession → Prop
  | .login _ request => fun h => SignInGround P state h request.password request.mfa.submitted
  | .reauthenticate _ request => fun h =>
    SignInGround P state h request.password request.mfa.submitted
  | .changePassword _ request => fun h => PasswordChangeGround P state h request.currentPassword
  | _ => fun _ _ => False

/-- The call with which a request inserts its session. -/
def AccountRequest.Opens : AccountRequest → Call → AuthSession → Prop
  | .login .. => CreatesSession
  | .reauthenticate .. => ReplacesSession
  | .changePassword .. => ChangesPassword
  | _ => fun _ _ => False

/-- The requests that end sessions. -/
def AccountRequest.signsOut : AccountRequest → Bool
  | .logout _ | .endSession .. | .revokeOwnBrowserSession .. | .revokeAdminUserBrowserSession .. =>
    true
  | _ => false

/-- The calls that end a session. -/
def Call.endsSession : Call → Bool
  | .db (.revokeAuthSession ..) | .db (.revokeUserBrowserSession ..) => true
  | _ => false

variable (P state) in
def AccountRequest.sessionPre (q : AccountRequest) (h : List Ev) (e : Call) : Prop :=
  CairnId.sessionPre q.Opens (q.Ground P state) h e ∨ (q.signsOut = true ∧ e.endsSession = true)

theorem factorCalls_keepsSessions : FactorCalls fun e => e.keepsSessions = true where
  quiet e he := by simp [Call.keepsSessions, he]
  audit _ := rfl
  create _ := rfl
  update _ _ _ := rfl
  revoke _ _ _ _ := rfl
  sweep _ _ _ _ := rfl
  challenge _ := rfl
  consume _ _ _ _ _ := rfl

/-- The calls of a request that ends sessions. -/
def Call.signsOut (e : Call) : Prop := e.keepsSessions = true ∨ e.endsSession = true

theorem signsOut_revokeOwnBrowserSession (headers : RequestHeaders) (sessionId : SessionId) :
    (revokeOwnBrowserSession P state headers sessionId).All Call.signsOut := by
  refine .bind ((all_requireSession P state headers).mono fun e he =>
    .inl (by simp [Call.keepsSessions, he])) fun session => ?_
  refine .bind (all_requireCsrf headers) fun _ => .bind (.when (.fail _)) fun _ =>
    .bind (.perform (.inl rfl)) fun now => .bind (all_app_db (.inr rfl)) fun revoked => ?_
  split
  · exact .bind (all_insertAuditEvent_of _ (fun e he => .inl (by simp [Call.keepsSessions, he]))
      fun _ => .inl rfl) fun _ => .ret _
  · trivial

theorem signsOut_revokeAdminUserBrowserSession (headers : RequestHeaders) (userId : UserId)
    (sessionId : SessionId) :
    (revokeAdminUserBrowserSession P state headers userId sessionId).All Call.signsOut := by
  refine .bind ((all_requireRecentAdminSession P state headers).mono fun e he =>
    .inl (by simp [Call.keepsSessions, he])) fun actor => ?_
  refine .bind (all_requireCsrf headers) fun _ => .bind (all_app_db (.inl rfl)) fun user => ?_
  split
  · refine .bind (.when (.fail _)) fun _ => .bind (.perform (.inl rfl)) fun now =>
      .bind (all_app_db (.inr rfl)) fun revoked => ?_
    split
    · exact .bind (all_insertAuditEvent_of _ (fun e he => .inl (by simp [Call.keepsSessions, he]))
        fun _ => .inl rfl) fun _ => .ret _
    · trivial
  · trivial

theorem AccountRequest.sat_session (q : AccountRequest) :
    (q.handler P state).Sat (q.sessionPre P state) (fun _ _ => True) [] := by
  have answer {α : Type} {p : App α} {f : α → AccountAnswer}
      (hp : p.Sat (q.sessionPre P state) (fun _ _ => True) []) :
      (p >>= fun a => pure (f a)).Sat (q.sessionPre P state) (fun _ _ => True) [] :=
    hp.bind (fun _ _ _ => trivial) fun _ _ _ => trivial
  have signsIn {α : Type} {p : App α}
      (hp : p.Sat (CairnId.sessionPre q.Opens (q.Ground P state)) (fun _ _ => True) []) :
      p.Sat (q.sessionPre P state) (fun _ _ => True) [] :=
    hp.mono (fun _ _ he => .inl he) fun _ _ _ => trivial
  have keeps {α : Type} {p : App α} (hp : p.All fun e => e.keepsSessions = true) :
      p.Sat (q.sessionPre P state) (fun _ _ => True) [] :=
    (Sat.of_all hp).mono (fun _ _ he => .inl (.inl he)) fun _ _ _ => trivial
  have signsOut {α : Type} {p : App α} (hq : q.signsOut = true) (hp : p.All Call.signsOut) :
      p.Sat (q.sessionPre P state) (fun _ _ => True) [] :=
    (Sat.of_all hp).mono (fun _ _ he => he.imp .inl fun he => ⟨hq, he⟩) fun _ _ _ => trivial
  have quiet (e : Call) (he : e.isQuiet = true) : Call.signsOut e :=
    .inl (by simp [Call.keepsSessions, he])
  cases q with
  | login headers request => exact answer (signsIn (sat_login headers request))
  | reauthenticate headers request => exact answer (signsIn (sat_reauthenticate headers request))
  | changePassword headers request => exact answer (signsIn (sat_changePassword headers request))
  | logout headers =>
    exact answer (signsOut rfl (all_logout_of headers quiet (fun _ _ => .inr rfl) fun _ => .inl rfl))
  | endSession headers request =>
    exact answer (signsOut rfl
      (all_endSessionResponse_of headers quiet (fun _ _ => .inr rfl) (fun _ => .inl rfl) request))
  | revokeOwnBrowserSession headers id =>
    exact answer (signsOut rfl (signsOut_revokeOwnBrowserSession headers id))
  | revokeAdminUserBrowserSession headers user id =>
    exact answer (signsOut rfl (signsOut_revokeAdminUserBrowserSession headers user id))
  | startTotpMfa headers label =>
    exact answer (keeps (factorCalls_keepsSessions.startTotpMfa headers label))
  | confirmTotpMfa headers request =>
    exact answer (keeps (factorCalls_keepsSessions.confirmTotpMfa headers request))
  | startWebauthnMfa headers label =>
    exact answer (keeps (factorCalls_keepsSessions.startWebauthnMfa headers label))
  | finishWebauthnMfa headers request =>
    exact answer (keeps (factorCalls_keepsSessions.finishWebauthnMfa headers request))
  | revokeSessionMfaCredential headers id =>
    exact answer (keeps (factorCalls_keepsSessions.revokeSessionMfaCredential headers id))
  | regenerateSessionRecoveryCodes headers =>
    exact answer (keeps (factorCalls_keepsSessions.regenerateSessionRecoveryCodes headers))

-- the request behind a session

/-- The second factors that the session's `acr` or `amr` names. -/
def AuthSession.Names (session : AuthSession) (method : MfaVerificationMethod) : Prop :=
  session.acr = method.acr ∨ ∃ value ∈ method.amr, value ≠ "pwd" ∧ value ∈ session.amr

/-- A session names the factor that was verified and no other. -/
theorem FreshContext.eq_of_names {h : List Ev} {submitted : SubmittedMfa}
    {method : Option MfaVerificationMethod} {session : AuthSession}
    (hs : FreshContext P state h submitted method session) {m : MfaVerificationMethod}
    (hm : session.Names m) : method = some m := by
  simp only [AuthSession.Names, hs.acr, hs.amr] at hm
  revert hm
  rcases method with _ | _ | _ | _ <;> cases m <;> decide

variable {w₀ : World} {p : Pool Call.Answer AccountRequest World ApiError AccountAnswer}

variable (P state p) in
/-- A request of the run verified the password, and the factor that the session names,
    at the time at which the session says it was created. -/
def Rooted (session : AuthSession) : Prop :=
  ∃ i t password method, p.threads[i]? = some t ∧ t.request.password = some password ∧
    PasswordVerified P (own i p.trace) password session.organizationId session.userId ∧
    FreshContext P state (own i p.trace) t.request.submitted method session ∧
    session.expiresAt ≤ session.createdAt + Duration.hours 12 + mfaDestructiveActionMaxAge

theorem FreshContext.mono {h h' : List Ev} {submitted : SubmittedMfa}
    {method : Option MfaVerificationMethod} {session session' : AuthSession}
    (hs : FreshContext P state h submitted method session) (hsub : h ⊆ h')
    (horg : session'.organizationId = session.organizationId)
    (huser : session'.userId = session.userId) (hacr : session'.acr = session.acr)
    (hamr : session'.amr = session.amr) (hcreated : session'.createdAt = session.createdAt) :
    FreshContext P state h' submitted method session' where
  createdAt := hcreated ▸ hsub hs.createdAt
  acr := hacr.trans hs.acr
  amr := hamr.trans hs.amr
  factor m hm := by
    rw [horg, huser]
    exact (hs.factor m hm).mono hsub

/-- A session with the authentication context of a rooted one is rooted. -/
theorem Rooted.congr {session session' : AuthSession} (hs : Rooted P state p session)
    (horg : session'.organizationId = session.organizationId)
    (huser : session'.userId = session.userId) (hacr : session'.acr = session.acr)
    (hamr : session'.amr = session.amr) (hcreated : session'.createdAt = session.createdAt)
    (hexpires : session'.expiresAt ≤
      session'.createdAt + Duration.hours 12 + mfaDestructiveActionMaxAge) :
    Rooted P state p session' := by
  obtain ⟨i, t, password, method, ht, hpassword, hverified, hcontext, -⟩ := hs
  refine ⟨i, t, password, method, ht, hpassword, ?_,
    hcontext.mono (List.Subset.refl _) horg huser hacr hamr hcreated, hexpires⟩
  rwa [horg, huser]

theorem Rooted.of_rowStep {a b : AuthSessionRow} (hs : RowStep .authSessions a b)
    (ha : Rooted P state p a.session) : Rooted P state p b.session := by
  obtain ⟨-, horg, huser, hacr, hamr, hcreated, hexpires, -⟩ := hs.authSession
  refine ha.congr horg huser hacr hamr hcreated ?_
  obtain ⟨_, _, _, _, -, -, -, -, hle⟩ := ha
  rwa [hexpires, hcreated]

/-- Requests keep what they have done. -/
theorem Rooted.step {p' : Pool Call.Answer AccountRequest World ApiError AccountAnswer}
    {l : Label AccountRequest Choice} (hl : (accountMachine P state).step p l = some p')
    {session : AuthSession} (hs : Rooted P state p session) : Rooted P state p' session := by
  obtain ⟨i, t, password, method, ht, hpassword, hverified, hcontext, hexpires⟩ := hs
  obtain ⟨t', ht', hrequest⟩ := Machine.request_of_step hl ht
  have hsub : own i p.trace ⊆ own i p'.trace := by
    cases l with
    | spawn q =>
      cases hl
      exact List.Subset.refl _
    | run j c =>
      obtain ⟨q, e, k, r, w', -, -, rfl⟩ := Machine.step_run_eq hl
      exact fun ev hev => mem_own_cons.mpr (.inr hev)
  rw [← hrequest] at hpassword hcontext
  exact ⟨i, t', password, method, ht', hpassword, hverified.mono hsub,
    hcontext.mono hsub rfl rfl rfl rfl rfl, hexpires⟩

/-- The rows that a call inserts into `auth_sessions`. -/
theorem Call.opens_of_inserts {c : DbCall} {r : AuthSessionRow} (hr : r ∈ c.inserts .authSessions) :
    (Call.db c).opens = some r.session := by
  cases c <;> simp only [DbCall.inserts, List.not_mem_nil, List.mem_singleton] at hr
  all_goals
    subst hr
    rfl

theorem Call.opens_of_endsSession {e : Call} (h : e.endsSession = true) : e.opens = none := by
  cases e with
  | db c => cases c <;> first | rfl | cases h
  | _ => rfl

theorem getAuthSession_stored {id : SessionId} {ch : Choice} {w w' : World}
    {session : AuthSession}
    (h : Call.exec P (.db (.getAuthSession id)) ch w = some (.ok (some session), w')) :
    ∃ row ∈ w.store.tables .authSessions, row.session = session := by
  obtain ⟨-, -, ⟨h, -⟩ | h⟩ := Call.exec_db h
  · cases h
  · have hfind : ((w.store.tables .authSessions).find? fun r => r.session.id = id).map (·.session) =
        some session := Except.ok.inj (Prod.ext_iff.mp h).1
    obtain ⟨row, hrow, hsession⟩ := Option.map_eq_some_iff.mp hfind
    exact ⟨row, List.mem_of_find?_eq_some hrow, hsession⟩

theorem freshExpiry_le {session : AuthSession}
    (h : session.expiresAt = session.createdAt + Duration.hours 12) :
    session.expiresAt ≤ session.createdAt + Duration.hours 12 + mfaDestructiveActionMaxAge := by
  have hle : ∀ a b : Int, 0 ≤ b → a ≤ a + b := by omega
  rw [h]
  exact hle _ _ (by decide)

/-- A session is rooted when it is inserted, if those that were read before are. -/
theorem AccountRequest.Ground.rooted {i : ℕ}
    {t : Thread Call.Answer AccountRequest ApiError AccountAnswer} (ht : p.threads[i]? = some t)
    {session : AuthSession} (hg : t.request.Ground P state (own i p.trace) session)
    (hread : ∀ id current, ⟨.db (.getAuthSession id), .ok (some current)⟩ ∈ own i p.trace →
      Rooted P state p current) : Rooted P state p session := by
  obtain ⟨q, rest⟩ := t
  cases q with
  | login headers request =>
    obtain ⟨hpassword, hexpires, method, hcontext, -⟩ := hg
    exact ⟨i, _, request.password, method, ht, rfl, hpassword, hcontext, freshExpiry_le hexpires⟩
  | reauthenticate headers request =>
    obtain ⟨hpassword, hexpires, method, hcontext, -⟩ := hg
    exact ⟨i, _, request.password, method, ht, rfl, hpassword, hcontext, freshExpiry_le hexpires⟩
  | changePassword headers request =>
    obtain ⟨hpassword, ⟨hexpires, hcontext⟩ | ⟨id, current, now, hcurrent, hsession, hrecent⟩⟩ := hg
    · exact ⟨i, _, request.currentPassword, none, ht, rfl, hpassword, hcontext,
        freshExpiry_le hexpires⟩
    · rw [hsession]
      refine (hread id current hcurrent).congr rfl rfl rfl rfl rfl ?_
      show now + Duration.hours 12 ≤ _
      have hle : ∀ a b c d : Int, a ≤ b + c → a + d ≤ b + d + c := by omega
      exact hle _ _ _ _ hrecent
  | _ => exact hg.elim

/-- Every session of the run is rooted, and every session that was read is. -/
theorem rooted_of_reachable (hw : w₀.store.tables .authSessions = [])
    (h : (accountMachine P state).Reachable w₀ p) :
    (∀ r ∈ p.world.store.tables .authSessions, Rooted P state p r.session) ∧
      ∀ i id current, ⟨.db (.getAuthSession id), .ok (some current)⟩ ∈ own i p.trace →
        Rooted P state p current := by
  induction h with
  | start => simp [Machine.start, hw]
  | @step p p' l hreach hl ih =>
    obtain ⟨hstored, hread⟩ := ih
    cases l with
    | spawn q =>
      have hstep {session : AuthSession} (hs : Rooted P state p session) :
          Rooted P state p' session := hs.step hl
      cases hl
      exact ⟨fun r hr => hstep (hstored r hr), fun i id current hc => hstep (hread i id current hc)⟩
    | run i c =>
      have hstep {session : AuthSession} (hs : Rooted P state p session) :
          Rooted P state p' session := hs.step hl
      obtain ⟨q, e, k, a, w', ht, hexec, rfl⟩ := Machine.step_run_eq hl
      constructor
      · intro r' hr'
        rcases Call.exec_grows hexec with hstore | ⟨c, rfl, hgrows⟩
        · exact hstep (hstored r' (hstore ▸ hr'))
        rcases hgrows.origin .authSessions (by simp [evolution]) r' hr' with
          ⟨r, hr, hs⟩ | ⟨r, hr, hs⟩
        · exact (hstep (hstored r hr)).of_rowStep hs
        -- the row was inserted by this call
        have hopens := Call.opens_of_inserts hr
        rcases (hreach.sat AccountRequest.sat_session ht).1 with
          (hkeeps | ⟨session, hsession, -, -, hground⟩) | ⟨-, hends⟩
        · rw [Call.opens_of_keepsSessions hkeeps] at hopens
          cases hopens
        · obtain rfl := Option.some.inj (hsession.symm.trans hopens)
          exact (hstep (hground.rooted ht fun id current => hread i id current)).of_rowStep hs
        · rw [Call.opens_of_endsSession hends] at hopens
          cases hopens
      · intro j id current hc
        rcases mem_own_cons.mp hc with ⟨rfl, hev⟩ | hc
        · dsimp only at hev
          cases hev
          obtain ⟨row, hrow, rfl⟩ := getAuthSession_stored (P := P) hexec
          exact hstep (hstored row hrow)
        · exact hstep (hread j id current hc)

/-- The user that a request read was stored then. -/
theorem UserRead.stored {Q α : Type} {handler : Q → App α}
    {p : Pool Call.Answer Q World ApiError α} (h : (machine P handler).Reachable w₀ p) {i : ℕ}
    {organizationId : OrganizationId} {userId : UserId} {found : UserWithPassword}
    (hu : UserRead (own i p.trace) organizationId userId found) :
    ∃ x ∈ p.trace, x.thread = i ∧ found ∈ x.before.store.tables .users ∧
      found.user.organizationId = organizationId ∧ found.user.id = userId := by
  cases hu with
  | byEmail organizationId email _ hev =>
    obtain ⟨x, hx, hi, hev⟩ := mem_own.mp hev
    obtain ⟨ch, w', hexec, -⟩ := executed h hx
    rw [hev] at hexec
    obtain ⟨-, -, ⟨herr, -⟩ | hs⟩ := Call.exec_db hexec
    · cases herr
    · have hfind : (x.before.store.tables .users).find? (fun u =>
          u.user.organizationId = organizationId ∧ u.user.email = email) = some found :=
        Except.ok.inj (Prod.ext_iff.mp hs).1
      exact ⟨x, hx, hi, List.mem_of_find?_eq_some hfind, rfl, rfl⟩
  | byId _ _ _ hev =>
    obtain ⟨x, hx, hi, hev⟩ := mem_own.mp hev
    obtain ⟨ch, w', hexec, -⟩ := executed h hx
    rw [hev] at hexec
    obtain ⟨-, -, ⟨herr, -⟩ | hs⟩ := Call.exec_db hexec
    · cases herr
    · have hfind : (x.before.store.tables .users).find? (fun u =>
          u.user.organizationId = organizationId ∧ u.user.id = userId) = some found :=
        Except.ok.inj (Prod.ext_iff.mp hs).1
      have hfound := List.find?_some hfind
      simp only [decide_eq_true_eq] at hfound
      exact ⟨x, hx, hi, List.mem_of_find?_eq_some hfind, hfound⟩

-- replacements

/-- The session that a call replaced. -/
def replacedSession : Ev → Option SessionId
  | ⟨.db (.rotateAuthSessionWithContext old _ _ _), .ok _⟩ => some old
  | _ => none

theorem replacedSession_eq_some {ev : Ev} {old : SessionId} (h : replacedSession ev = some old) :
    ∃ session instant context,
      ev = ⟨.db (.rotateAuthSessionWithContext old session instant context), .ok ()⟩ := by
  unfold replacedSession at h
  split at h
  · cases h
    exact ⟨_, _, _, rfl⟩
  · cases h

/-- A session that a call replaces was not revoked before, and is revoked from then on. -/
theorem replaced_revoked {old : SessionId} {session : AuthSession} {instant : OffsetDateTime}
    {context : SessionRequestContext} {ch : Choice} {w w' : World}
    (h : Call.exec P (.db (.rotateAuthSessionWithContext old session instant context)) ch w =
      some (.ok (), w')) :
    (∃ r ∈ w.store.tables .authSessions, r.session.id = old ∧ r.session.revokedAt = none ∧
        instant < r.session.expiresAt) ∧
      ∃ r ∈ w'.store.tables .authSessions, r.session.id = old ∧ r.session.revokedAt ≠ none := by
  obtain ⟨-, -, ⟨h, -⟩ | h⟩ := Call.exec_db h
  · cases h
  rcases exec_rotateAuthSessionWithContext h with ⟨-, ⟨r, hr, hreplaceable⟩, htable⟩ | ⟨⟨e, h⟩, -⟩
  · have hcond : r.session.id = old ∧ r.session.organizationId = session.organizationId ∧
        r.session.userId = session.userId ∧ r.session.revokedAt = none ∧
        instant < r.session.expiresAt := by simpa [isReplaceable] using hreplaceable
    obtain ⟨hid, -, -, hrevoked, hexpires⟩ := hcond
    refine ⟨⟨r, hr, hid, hrevoked, hexpires⟩, AuthSessionRow.replaced instant r, ?_, hid, nofun⟩
    rw [htable]
    exact List.mem_append_left _ (List.mem_map.mpr ⟨r, hr, by rw [if_pos hreplaceable]⟩)
  · cases h

/-- A session that is revoked stays revoked. -/
theorem Kept.revoked {s s' : Store} (h : Kept s.tables s'.tables) {r r' : AuthSessionRow}
    (hr : r ∈ s.tables .authSessions) (hrevoked : r.session.revokedAt ≠ none)
    (hr' : r' ∈ s'.tables .authSessions) (hid : r'.session.id = r.session.id) :
    r'.session.revokedAt ≠ none := by
  obtain ⟨r'', hr'', hs⟩ := h .authSessions (by simp [evolution]) r hr
  obtain ⟨hid', -, -, -, -, -, -, hmark⟩ := hs.authSession
  have heq : r'' = r' := (s'.unique .authSessions).eq_of_key hr'' hr'
    (congrArg Key.id (hid'.trans hid.symm))
  exact fun hnone => hrevoked (hmark (heq ▸ hnone))

theorem once_replacedSession (h : (accountMachine P state).Reachable w₀ p) :
    Once replacedSession p.trace := by
  refine h.invariant AccountRequest.sat_session (fun _ tr => Once replacedSession tr) once_nil ?_
  intro p i q e ch a w' hr honce _ hexec
  refine once_cons.mpr ⟨fun y hy old hold hold' => ?_, honce⟩
  obtain ⟨session, instant, context, hev⟩ := replacedSession_eq_some hold
  obtain ⟨session', instant', context', hev'⟩ := replacedSession_eq_some hold'
  cases hev
  -- the earlier replacement left the session revoked
  obtain ⟨ch', w₁, hexec', hkept⟩ := executed hr hy
  rw [hev'] at hexec'
  obtain ⟨-, r, hr, hid, hrevoked⟩ := replaced_revoked (P := P) hexec'
  obtain ⟨⟨r', hr', hid', hunrevoked, -⟩, -⟩ := replaced_revoked (P := P) hexec
  exact hkept.revoked hr hrevoked hr' (hid'.trans hid.symm) hunrevoked

/-- Each call of a `reauthenticate` request leaves the sessions alone, or puts a new one in
    the place of one that was neither revoked nor expired. -/
theorem reauthenticate_step (h : (accountMachine P state).Reachable w₀ p)
    {tr₁ tr₂ : List (Entry Call.Answer World)} {x : Entry Call.Answer World}
    (htr : p.trace = tr₁ ++ x :: tr₂) {t : Thread Call.Answer AccountRequest ApiError AccountAnswer}
    (ht : p.threads[x.thread]? = some t) {headers : RequestHeaders}
    {request : ReauthenticateRequest} (hq : t.request = .reauthenticate headers request) :
    (worldAfter p.world tr₁).store.tables .authSessions = x.before.store.tables .authSessions ∨
      ∃ old session context, replacedSession x.event = some old ∧
        ⟨.nowUtc, session.createdAt⟩ ∈ own x.thread tr₂ ∧
        (∃ r ∈ x.before.store.tables .authSessions, r.session.id = old ∧
          r.session.revokedAt = none ∧ session.createdAt < r.session.expiresAt) ∧
        (worldAfter p.world tr₁).store.tables .authSessions =
          ((x.before.store.tables .authSessions).map fun r =>
            if isReplaceable old session session.createdAt r then
              AuthSessionRow.replaced session.createdAt r else r) ++ [⟨session, context⟩] := by
  obtain ⟨t', ht', hpre⟩ := h.admissible AccountRequest.sat_session htr
  obtain rfl := Option.some.inj (ht'.symm.trans ht)
  obtain ⟨ch, hexec⟩ : ∃ ch, Call.exec P x.event.1 ch x.before =
      some (x.event.2, worldAfter p.world tr₁) := h.exec_worldAfter htr
  rw [hq] at hpre
  rcases hpre with (hkeeps | ⟨session, -, ⟨old, context, he⟩, -, hground⟩) | ⟨hsignsOut, -⟩
  · exact .inl ((Call.leaves_of_keepsSessions hkeeps).exec hexec)
  · obtain ⟨i, ⟨e, a⟩, before⟩ := x
    dsimp only at he hexec hground ⊢
    subst he
    obtain ⟨-, -, ⟨-, hs⟩ | hs⟩ := Call.exec_db hexec
    · exact .inl (by rw [hs])
    rcases exec_rotateAuthSessionWithContext hs with ⟨rfl, -, htable⟩ | ⟨-, hs⟩
    · obtain ⟨-, -, method, hcontext, -⟩ := hground
      exact .inr ⟨old, session, context, rfl, hcontext.createdAt, (replaced_revoked hexec).1, htable⟩
    · exact .inl (by rw [hs])
  · cases hsignsOut

variable (P state p) in
/-- At the time at which the session says it was created, a request of the run verified
    the password of its user, and every second factor that the session names. -/
def AuthenticatedIn (session : AuthSession) : Prop :=
  ∃ i t, p.threads[i]? = some t ∧ ⟨.nowUtc, session.createdAt⟩ ∈ own i p.trace ∧
    (∃ x ∈ p.trace, ∃ found password hash, x.thread = i ∧ t.request.password = some password ∧
      found ∈ x.before.store.tables .users ∧
      found.user.organizationId = session.organizationId ∧ found.user.id = session.userId ∧
      found.user.status = .active ∧ found.passwordHash = some hash ∧
      P.verifyPassword password hash = true) ∧
    ∀ m, session.Names m → FactorVerified P state (own i p.trace) t.request.submitted
      session.organizationId session.userId m

theorem Rooted.authenticatedIn (h : (accountMachine P state).Reachable w₀ p)
    {session : AuthSession} (hs : Rooted P state p session) :
    AuthenticatedIn P state p session ∧
      session.expiresAt ≤ session.createdAt + Duration.hours 12 + mfaDestructiveActionMaxAge := by
  obtain ⟨i, t, password, method, ht, hpassword, ⟨found, hash, hread, hactive, hhash, hverified⟩,
    hcontext, hexpires⟩ := hs
  obtain ⟨x, hx, hi, hstored, horg, huser⟩ := hread.stored h
  refine ⟨⟨i, t, ht, hcontext.createdAt, ⟨x, hx, found, password, hash, hi, hpassword, hstored, horg,
    huser, hactive, hhash, hverified⟩, fun m hm => hcontext.factor m ?_⟩, hexpires⟩
  exact hcontext.eq_of_names hm

/-- **Sessions and authentication**: in every run of requests that sign in and out, change
    the password and manage factors, a revoked session stays revoked; a session is
    replaced once, by a request that otherwise inserts nothing, while it is neither revoked
    nor expired; and every session was authenticated when it says, and ends in time. -/
theorem sessions_rest_on_authentication (hw : w₀.store.tables .authSessions = [])
    (h : (accountMachine P state).Reachable w₀ p) :
    (∀ ls p', (accountMachine P state).run p ls = some p' →
      ∀ r ∈ p.world.store.tables .authSessions, r.session.revokedAt ≠ none →
        ∀ r' ∈ p'.world.store.tables .authSessions, r'.session.id = r.session.id →
          r'.session.revokedAt ≠ none) ∧
    Once replacedSession p.trace ∧
    (∀ tr₁ x tr₂ t headers request, p.trace = tr₁ ++ x :: tr₂ → p.threads[x.thread]? = some t →
      t.request = .reauthenticate headers request →
      (worldAfter p.world tr₁).store.tables .authSessions = x.before.store.tables .authSessions ∨
        ∃ old session context, replacedSession x.event = some old ∧
          ⟨.nowUtc, session.createdAt⟩ ∈ own x.thread tr₂ ∧
          (∃ r ∈ x.before.store.tables .authSessions, r.session.id = old ∧
            r.session.revokedAt = none ∧ session.createdAt < r.session.expiresAt) ∧
          (worldAfter p.world tr₁).store.tables .authSessions =
            ((x.before.store.tables .authSessions).map fun r =>
              if isReplaceable old session session.createdAt r then
                AuthSessionRow.replaced session.createdAt r else r) ++ [⟨session, context⟩]) ∧
    ∀ r ∈ p.world.store.tables .authSessions, AuthenticatedIn P state p r.session ∧
      r.session.expiresAt ≤
        r.session.createdAt + Duration.hours 12 + mfaDestructiveActionMaxAge := by
  refine ⟨fun ls p' hrun r hr hrevoked r' hr' hid => ?_, once_replacedSession h,
    fun tr₁ x tr₂ t headers request htr ht hq => reauthenticate_step h htr ht hq,
    fun r hr => ((rooted_of_reachable hw h).1 r hr).authenticatedIn h⟩
  have hkept : Kept p.world.store.tables p'.world.store.tables :=
    Machine.run_rel (fun w w' : World => Kept w.store.tables w'.store.tables)
      (fun _ => Kept.refl _) (fun _ _ _ => Kept.trans) (fun _ _ _ _ _ _ hx => Call.exec_kept hx) hrun
  exact hkept.revoked hr hrevoked hr' hid

namespace Sample

/-- The secret of every authenticator is `seed`, and its code always `000000`. -/
def accountPrimitives : Primitives :=
  { primitives with
    decrypt := fun _ _ _ _ => some "seed"
    base64Decode := fun _ => some (List.replicate 12 0)
    verifyTotp := fun secret code _ => some (secret = "seed" && code = "000000")
    parseUuid := fun text =>
      if text = "login" then some 113 else if text = "again" then some 214 else none }

def accountState : AppState :=
  { appState with config := { appState.config with keyEncryptionKey := some [] } }

def authenticator : MfaCredential where
  id := 7
  organizationId := 1
  userId := 2
  kind := .totp
  label := "Authenticator app"
  secretMetadata := .object [("status", .string "active"), ("secret_ciphertext", .string ""),
    ("secret_nonce", .string "")]
  createdAt := 0
  lastUsedAt := none

def accountTables : Db
  | .organizations => [organization]
  | .users => [⟨user, some "secret"⟩]
  | .mfaCredentials => [authenticator]
  | _ => []

/-- A user with an authenticator who is not logged in. -/
def account : World where
  store := ⟨accountTables, fun t => by cases t <;> decide⟩
  clock := 0
  uuids := []

def csrfToken : String := "aaaaaaaaaaaaaaaaaaaaaaaaaaaaaaaa"

/-- The headers of a browser with this session cookie. -/
def sessionHeaders (session : String) : RequestHeaders :=
  ⟨some ("cairn_session=" ++ session ++ "; cairn_csrf=" ++ csrfToken), some csrfToken, none, none⟩

def totpSubmission : MfaSubmission := ⟨some "000000", none, none, none, none⟩

/-- Calls of one thread at one time, each with an identifier of its own. -/
def accountSteps (i calls firstUuid : Nat) (time : OffsetDateTime) :
    List (Label AccountRequest Choice) :=
  (List.range calls).map fun j =>
    .run i { uuid := .ofNat 128 (firstUuid + j), text := "longer secret", time := time }

/-- Log in, reauthenticate and change the password. -/
def threeSessions : List (Label AccountRequest Choice) :=
  .spawn (.login (sessionHeaders "") ⟨"ada@example.org", "secret", totpSubmission⟩) ::
    accountSteps 0 20 100 1 ++
  .spawn (.reauthenticate (sessionHeaders "login") ⟨"secret", totpSubmission⟩) ::
    accountSteps 1 21 200 2 ++
  .spawn (.changePassword (sessionHeaders "again") ⟨"secret", "longer secret"⟩) ::
    accountSteps 2 18 300 3

end Sample

open Sample in
theorem sessions_rest_on_authentication_threeSessions :
    ∃ p, (accountMachine accountPrimitives accountState).run (Machine.start account)
        threeSessions = some p ∧
      (p.world.store.tables .authSessions).map (fun r => (r.session.createdAt,
        r.session.expiresAt, r.session.revokedAt)) =
          [(1, Duration.hours 12 + 1, some 2), (2, Duration.hours 12 + 2, some 3),
            (2, Duration.hours 12 + 3, none)] ∧
      Once replacedSession p.trace ∧
      ∀ r ∈ p.world.store.tables .authSessions,
        AuthenticatedIn accountPrimitives accountState p r.session ∧
        r.session.expiresAt ≤
          r.session.createdAt + Duration.hours 12 + mfaDestructiveActionMaxAge := by
  have hrun : ((accountMachine accountPrimitives accountState).run (Machine.start account)
      threeSessions).map (fun p => (p.world.store.tables .authSessions).map fun r =>
        (r.session.createdAt, r.session.expiresAt, r.session.revokedAt)) =
      some [(1, Duration.hours 12 + 1, some 2), (2, Duration.hours 12 + 2, some 3),
        (2, Duration.hours 12 + 3, none)] := by decide
  obtain ⟨p, hp, hshown⟩ := Option.map_eq_some_iff.mp hrun
  obtain ⟨-, honce, -, hauthenticated⟩ :=
    sessions_rest_on_authentication (by rfl) (Machine.Reachable.start.run hp)
  exact ⟨p, hp, hshown, honce, hauthenticated⟩

end CairnId
