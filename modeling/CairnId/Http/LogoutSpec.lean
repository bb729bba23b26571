import CairnId.Http.Logout
import CairnId.Http.RequestSpec
import CairnId.Http.TokenSpec

/-!
# What a logout calls

Reads, and then the revocation of one session and its audit event.
-/

namespace CairnId

open Concurrency Prog App

variable {P : Primitives} {state : AppState}

theorem all_postLogoutRedirectTarget (request : EndSessionRequest) :
    (postLogoutRedirectTarget P state request).All fun e => e.isQuiet = true := by
  unfold postLogoutRedirectTarget
  split
  · split
    · refine .bind (all_resolveSigningMaterial ..) fun signing => ?_
      split
      · refine .bind (App.all_db rfl) fun found => ?_
        split
        · exact .bind (.when (.fail _)) fun _ => .bind (.when (.fail _)) fun _ =>
            .bind (.when (.fail _)) fun _ => .bind (.when (.fail _)) fun _ => .ret _
        · trivial
      · trivial
    · trivial
  · trivial

theorem all_insertAuditEvent_of {Q : Call → Prop} (b : AuditEventBuilder)
    (hquiet : ∀ e : Call, e.isQuiet = true → Q e) (haudit : ∀ event, Q (.db (.insertAuditEvent event))) :
    (insertAuditEvent b).All Q :=
  .bind (.perform (hquiet _ rfl)) fun _ => .bind (.perform (hquiet _ rfl)) fun _ =>
    all_app_db (haudit _)

section logout

variable {Q : Call → Prop} (headers : RequestHeaders)
  (hquiet : ∀ e : Call, e.isQuiet = true → Q e)
  (hrevoke : ∀ id instant, Q (.db (.revokeAuthSession id instant)))
  (haudit : ∀ event, Q (.db (.insertAuditEvent event)))

include hquiet hrevoke haudit

theorem all_revokeBrowserSession_of (initiator : String) :
    (revokeBrowserSession P state headers initiator).All Q := by
  refine .bind ((all_sessionFromCookie P state headers).mono hquiet) fun session => ?_
  cases session with
  | none => trivial
  | some session =>
    exact .bind (.perform (hquiet _ rfl)) fun now => .bind (all_app_db (hrevoke _ _)) fun _ =>
      all_insertAuditEvent_of _ hquiet haudit

theorem all_endSessionResponse_of (request : EndSessionRequest) :
    (endSessionResponse P state headers request).All Q := by
  refine .bind (.attempt ((all_postLogoutRedirectTarget request).mono hquiet)) fun found => ?_
  cases found with
  | error e => trivial
  | ok target =>
    refine .bind (all_revokeBrowserSession_of headers hquiet hrevoke haudit _) fun _ => ?_
    cases target with
    | none => trivial
    | some target => exact .bind (.when (.fail _)) fun _ => .ret _

theorem all_logout_of : (logout P state headers).All Q :=
  .bind (all_requireCsrf headers) fun _ =>
    .bind (all_revokeBrowserSession_of headers hquiet hrevoke haudit _) fun _ => .ret _

end logout

end CairnId
