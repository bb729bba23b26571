import CairnId.Oidc
import CairnId.Http.Quiet
import CairnId.Http.Request

/-!
# What the parts of a browser request do to the store

The session lookup and the checks only read; an audit event is one insert.
-/

namespace CairnId

open Concurrency Prog App

variable (P : Primitives) (state : AppState)

theorem leaves_insertAuditEvent (event : AuditEvent) {t : Tab} (ht : t ≠ .auditEvents) :
    (Call.db (.insertAuditEvent event)).Leaves t :=
  Call.leaves_of_target (.bind (.perform fun h => ht (Option.some.inj h).symm) fun _ => .ret _)

theorem all_insertAuditEvent (b : AuditEventBuilder) {t : Tab} (ht : t ≠ .auditEvents) :
    (insertAuditEvent b).All (Call.Leaves t) :=
  .bind (.perform (Call.leaves_of_isQuiet rfl t)) fun _ =>
    .bind (.perform (Call.leaves_of_isQuiet rfl t)) fun _ =>
    all_app_db (leaves_insertAuditEvent _ ht)

theorem all_sessionFromCookie_of {Q : Call → Prop} (headers : RequestHeaders)
    (hsession : ∀ id, Q (.db (.getAuthSession id))) (hnow : Q .nowUtc)
    (huser : ∀ id, Q (.db (.getUser id))) : (sessionFromCookie P state headers).All Q := by
  unfold sessionFromCookie
  split
  · split
    · refine .bind (all_app_db (hsession _)) fun found => ?_
      split
      · split
        · trivial
        · split
          · trivial
          · refine .bind (.perform hnow) fun now => ?_
            split
            · trivial
            · refine .bind (all_app_db (huser _)) fun user => ?_
              split
              · split <;> trivial
              · trivial
      · trivial
    · trivial
  · trivial

theorem all_sessionFromCookie (headers : RequestHeaders) :
    (sessionFromCookie P state headers).All fun e => e.isQuiet = true :=
  all_sessionFromCookie_of P state headers (fun _ => rfl) rfl fun _ => rfl

theorem all_requireSession_of {Q : Call → Prop} (headers : RequestHeaders)
    (hsession : ∀ id, Q (.db (.getAuthSession id))) (hnow : Q .nowUtc)
    (huser : ∀ id, Q (.db (.getUser id))) : (requireSession P state headers).All Q := by
  refine .bind (all_sessionFromCookie_of P state headers hsession hnow huser) fun found => ?_
  split <;> trivial

theorem all_requireSession (headers : RequestHeaders) :
    (requireSession P state headers).All fun e => e.isQuiet = true :=
  all_requireSession_of P state headers (fun _ => rfl) rfl fun _ => rfl

theorem all_requireCsrf {Q : Call → Prop} (headers : RequestHeaders) :
    (requireCsrf headers).All Q := by
  unfold requireCsrf
  split
  · split
    · exact .bind (.when (.fail _)) fun _ => .when (.fail _)
    · trivial
  · trivial

theorem all_requireRecentAdminSession (headers : RequestHeaders) :
    (requireRecentAdminSession P state headers).All fun e => e.isQuiet = true := by
  refine .bind (.bind (all_requireSession P state headers) fun session =>
    .bind (App.all_db rfl) fun _ => .bind (.when (.fail _)) fun _ => .ret _) fun session => ?_
  exact .bind (.perform rfl) fun now => .bind (.when (.fail _)) fun _ => .ret _

-- the session

variable (headers : RequestHeaders)

/-- What the session lookup has found out with the calls `h`. -/
structure SessionChecked (h : List Ev) (session : AuthSession) : Prop where
  session_read : ∃ raw id, cookieValue headers "cairn_session" = some raw ∧
    P.parseUuid raw = some id ∧ ⟨.db (.getAuthSession id), .ok (some session)⟩ ∈ h
  organization : session.organizationId = state.organizationId
  unrevoked : session.revokedAt = none
  unexpired : ∃ t, ⟨.nowUtc, t⟩ ∈ h ∧ t < session.expiresAt
  user_active : ∃ user, ⟨.db (.getUser session.userId), .ok (some user)⟩ ∈ h ∧
    user.organizationId = session.organizationId ∧ user.status = .active

variable {P state headers}

theorem SessionChecked.mono {h h' : List Ev} {session : AuthSession}
    (hs : SessionChecked P state headers h session) (hsub : h ⊆ h') :
    SessionChecked P state headers h' session where
  session_read := by
    obtain ⟨raw, id, hraw, hid, hev⟩ := hs.session_read
    exact ⟨raw, id, hraw, hid, hsub hev⟩
  organization := hs.organization
  unrevoked := hs.unrevoked
  unexpired := hs.unexpired.imp fun _ ht => ⟨hsub ht.1, ht.2⟩
  user_active := hs.user_active.imp fun _ hu => ⟨hsub hu.1, hu.2⟩

section rules

variable {β : Type} {pre : List Ev → Call → Prop} {post : List Ev → Except ApiError β → Prop}
  {h : List Ev} (hs : AllowsQuiet pre post)

include hs

/-- **Session rule**: a session that the lookup returns has been checked. -/
theorem quietSat_sessionFromCookie {f : Option AuthSession → App β}
    (hf : ∀ l found, (∀ session ∈ found, SessionChecked P state headers (l ++ h) session) →
      QuietSat pre post (l ++ h) (f found)) :
    QuietSat pre post h (sessionFromCookie P state headers >>= f) := by
  have hnone (l : List Ev) : QuietSat pre post (l ++ h) (f none) := hf l none nofun
  unfold sessionFromCookie
  split
  case _ raw hraw =>
    split
    case _ id hid =>
      rw [Prog.bind_assoc]
      refine .db hs rfl fun found => ?_
      split
      case _ session =>
        split
        · exact hnone [_]
        split
        · exact hnone [_]
        rename_i horg hrevoked
        rw [Prog.bind_assoc]
        refine .perform hs rfl fun t => ?_
        split
        · exact hnone [_, _]
        rename_i hexpires
        rw [Prog.bind_assoc]
        refine .db hs rfl fun user => ?_
        split
        case _ user =>
          split
          · exact hnone [_, _, _]
          rename_i hallows
          simp only [userAllowsRuntimeAccess, Bool.not_eq_true', Bool.not_eq_false,
            Bool.and_eq_true, decide_eq_true_eq] at hallows
          refine hf [_, _, _] (some session) fun _ heq => ?_
          cases heq
          exact
            { session_read := ⟨raw, id, hraw, hid, by simp⟩
              organization := not_not.mp horg
              unrevoked := by simpa using hrevoked
              unexpired := ⟨t, by simp, not_le.mp hexpires⟩
              user_active := ⟨user, by simp, hallows⟩ }
        case _ => exact hnone [_, _, _]
      case _ => exact hnone [_]
    case _ => exact hnone []
  case _ => exact hnone []

theorem quietSat_requireSession {f : AuthSession → App β}
    (hf : ∀ l session, SessionChecked P state headers (l ++ h) session →
      QuietSat pre post (l ++ h) (f session)) :
    QuietSat pre post h (requireSession P state headers >>= f) := by
  rw [requireSession, Prog.bind_assoc]
  refine quietSat_sessionFromCookie hs fun l found hfound => ?_
  cases found with
  | none => exact .fail hs _
  | some session => exact hf l session (hfound session rfl)

end rules

/-- What a request knows of the session it was made in. -/
theorem sat_requireSession :
    (requireSession P state headers).Sat (fun _ _ => True)
      (fun h o => ∀ session, o = .ok session → SessionChecked P state headers h session) [] := by
  have hs : AllowsQuiet (fun _ _ => True) (fun h (o : Except ApiError AuthSession) =>
      ∀ session, o = .ok session → SessionChecked P state headers h session) :=
    ⟨fun _ _ _ _ => trivial, fun _ _ _ => nofun⟩
  have hsat : QuietSat (fun _ _ => True) (fun h (o : Except ApiError AuthSession) =>
      ∀ session, o = .ok session → SessionChecked P state headers h session) []
      (requireSession P state headers >>= .ret) := by
    refine quietSat_requireSession hs fun l session hchecked _ => ?_
    rintro _ ⟨⟩
    exact hchecked
  rw [← bind_ret (requireSession P state headers)]
  exact hsat quiet_nil

-- header values

theorem isHeaderValue_append (a b : String) :
    isHeaderValue (a ++ b) = (isHeaderValue a && isHeaderValue b) := by
  simp only [isHeaderValue, String.toList_append, List.all_append]

/-- An encoded text has no character that a header could not carry. -/
theorem isHeaderValue_percentEncodeMinimal (value : String) :
    isHeaderValue (percentEncodeMinimal value) = true := by
  have hhex : ∀ n, n < 16 → 32 ≤ (upperHexDigit n).toNat ∧ (upperHexDigit n).toNat ≠ 127 := by
    decide
  simp only [isHeaderValue, percentEncodeMinimal, String.toList_ofList, List.all_flatMap,
    List.all_eq_true]
  intro byte _ c hc
  split at hc
  · rename_i hunreserved
    rw [List.mem_singleton] at hc
    subst hc
    simp only [Bool.or_eq_true, Bool.and_eq_true, decide_eq_true_eq, Char.le_def,
      UInt32.le_iff_toNat_le] at hunreserved ⊢
    rcases hunreserved with (((((h | h) | h) | h) | h) | h) | h
    · exact .inl ⟨le_trans (by decide) h.1, (lt_of_le_of_lt h.2 (by decide)).ne⟩
    · exact .inl ⟨le_trans (by decide) h.1, (lt_of_le_of_lt h.2 (by decide)).ne⟩
    · exact .inl ⟨le_trans (by decide) h.1, (lt_of_le_of_lt h.2 (by decide)).ne⟩
    all_goals
      rw [h]
      decide
  · have h₁ := hhex (byte.toNat / 16) (by have := byte.toNat_lt; omega)
    have h₂ := hhex (byte.toNat % 16) (by omega)
    simp only [List.mem_cons, List.not_mem_nil, or_false] at hc
    rcases hc with rfl | rfl | rfl
    · decide
    · simp [h₁]
    · simp [h₂]

end CairnId
