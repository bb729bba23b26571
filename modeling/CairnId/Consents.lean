import Mathlib.Data.List.Perm.Subperm
import CairnId.Database.Consent
import CairnId.Grounds
import CairnId.Http.ConsentSpec

/-!
# Consent that is asked for every time

For a client whose policy always requires consent, every code is paid for with a
consent authorization that nothing else has spent.
-/

namespace CairnId

open Concurrency Concurrency.Sql Prog App Database

abbrev ConsentPool := Pool Call.Answer ConsentTask World ApiError Unit

/-- The policy of the client requires a prompt: its template has that grant mode or
    does not exist. -/
def AlwaysRequiresConsent (db : Db) (client : OidcClient) : Prop :=
  ∃ id, client.consentPolicyTemplateId = some id ∧
    ∀ template ∈ db .consentPolicyTemplates, template.organizationId = client.organizationId →
      template.id = id → template.grantMode = .alwaysRequired

/-- What the request that inserted `code` has to do with the consent authorization
    `row`, as it was given. -/
structure SpentFor (P : Primitives) (state : AppState) (w₀ : World) (p : ConsentPool)
    (code : AuthorizationCode) (row : ConsentAuthorization) : Prop where
  /-- The request that inserted the code spent the consent, which is for this request. -/
  request : ∃ (i : ℕ) (t : Thread Call.Answer ConsentTask ApiError Unit) (headers : RequestHeaders)
    (input : AuthorizeInput) (pairs : List (String × String)),
    p.threads[i]? = some t ∧ t.request = .authorize headers input ∧ input.pairs = .ok pairs ∧
    ⟨.db (.insertAuthorizationCode code), .ok ()⟩ ∈ own i p.trace ∧
    ⟨.db (.markConsentAuthorizationConsumed row.id code.createdAt), .ok true⟩ ∈ own i p.trace ∧
    row.authorizationRequestHash = authorizationRequestHash P state.config.issuer
      (authorizationRequestFromQueryPairs pairs).1
  /-- The consent was there before, or its user gave it in its session. -/
  given : row ∈ w₀.store.tables .consentAuthorizations ∨
    ∃ (j : ℕ) (t : Thread Call.Answer ConsentTask ApiError Unit) (headers : RequestHeaders)
      (payload : CreateConsentRequest) (session : AuthSession),
      p.threads[j]? = some t ∧ t.request = .createConsent headers payload ∧
      ⟨.db (.createConsentAuthorization row), .ok ()⟩ ∈ own j p.trace ∧
      SessionChecked P state headers (own j p.trace) session ∧
      session.id = row.sessionId ∧ session.userId = row.userId
  unspent : row.consumedAt = none
  organization : row.organizationId = code.organizationId
  user : row.userId = code.userId
  session : row.sessionId = code.sessionId
  client : row.clientId = code.clientId
  scopes : code.scopes ⊆ row.scopes
  unexpired : code.createdAt < row.expiresAt
  consumed : { row with consumedAt := some code.createdAt } ∈
    p.world.store.tables .consentAuthorizations

/-- The codes inserted for a client in the course of a run. -/
def newCodes (w₀ : World) (p : ConsentPool) (client : OidcClient) : List AuthorizationCode :=
  (p.world.store.tables .authorizationCodes).filter fun code =>
    code.clientId = client.id ∧ code ∉ w₀.store.tables .authorizationCodes

/-- A consent that a call recorded for a client. -/
def recordedConsent (client : OidcClient) (x : Entry Call.Answer World) :
    Option ConsentAuthorization :=
  match x.event with
  | ⟨.db (.createConsentAuthorization row), .ok _⟩ => if row.clientId = client.id then some row else none
  | _ => none

/-- The consents for a client that were not spent before the run, and those given in
    its course. -/
def consentsGiven (w₀ : World) (p : ConsentPool) (client : OidcClient) :
    List ConsentAuthorization :=
  (w₀.store.tables .consentAuthorizations).filter
    (fun row => row.clientId = client.id ∧ row.consumedAt = none) ++
  p.trace.filterMap (recordedConsent client)

-- lists

theorem exists_mem_of_forall₂ {α β : Type} {R : α → β → Prop} {l : List α} {bs : List β}
    (h : List.Forall₂ R l bs) {b : β} (hb : b ∈ bs) : ∃ a ∈ l, R a b := by
  induction h with
  | nil => cases hb
  | cons hR _ ih =>
    rcases List.mem_cons.mp hb with rfl | hb
    · exact ⟨_, .head _, hR⟩
    · exact (ih hb).imp fun _ ha => ⟨.tail _ ha.1, ha.2⟩

/-- A relation that is total on the left and injective matches a list without
    repetitions with another one. -/
theorem exists_forall₂_nodup {α β : Type} {R : α → β → Prop} {l : List α} (hl : l.Nodup)
    (htotal : ∀ a ∈ l, ∃ b, R a b) (hinj : ∀ a a' b, R a b → R a' b → a = a') :
    ∃ bs, List.Forall₂ R l bs ∧ bs.Nodup := by
  induction l with
  | nil => exact ⟨[], .nil, .nil⟩
  | cons a l ih =>
    obtain ⟨ha, hl⟩ := List.nodup_cons.mp hl
    obtain ⟨b, hb⟩ := htotal a (.head _)
    obtain ⟨bs, hbs, hnodup⟩ := ih hl fun a ha => htotal a (.tail _ ha)
    refine ⟨b :: bs, .cons hb hbs, List.nodup_cons.mpr ⟨fun hmem => ?_, hnodup⟩⟩
    obtain ⟨a', ha', hR⟩ := exists_mem_of_forall₂ hbs hmem
    exact ha (hinj a' a b hR hb ▸ ha')

-- steps

/-- The calls that the two endpoints make. -/
theorem ConsentTask.pre_cases {P : Primitives} {state : AppState} {task : ConsentTask} {h : List Ev}
    {e : Call} (hpre : task.pre P state h e) :
    (e.isQuiet = true ∨ (∃ grant, e = .db (.createConsentGrant grant)) ∨
      ∃ event, e = .db (.insertAuditEvent event)) ∨
    (∃ id instant, e = .db (.markConsentAuthorizationConsumed id instant)) ∨
    (∃ code, e = .db (.insertAuthorizationCode code)) ∨
    ∃ row, e = .db (.createConsentAuthorization row) := by
  cases task with
  | createConsent headers payload =>
    rcases hpre with hq | ⟨_, _, _, _, -, ⟨_, rfl⟩ | ⟨_, rfl⟩⟩ | ⟨_, rfl⟩
    · exact .inl (.inl hq)
    · exact .inl (.inr (.inl ⟨_, rfl⟩))
    · exact .inr (.inr (.inr ⟨_, rfl⟩))
    · exact .inl (.inr (.inr ⟨_, rfl⟩))
  | authorize headers input =>
    obtain ⟨pairs, -, -, hq | ⟨_, _, _, _, _, _, rfl, -⟩ | ⟨_, _, _, _, _, _, rfl, -⟩⟩ := hpre
    · exact .inl (.inl hq)
    · exact .inr (.inl ⟨_, _, rfl⟩)
    · exact .inr (.inr (.inl ⟨_, rfl⟩))

/-- Only an authorization request inserts a code, with grounds and as its last call. -/
theorem ConsentTask.pre_insertAuthorizationCode {P : Primitives} {state : AppState}
    {task : ConsentTask} {h : List Ev} {code : AuthorizationCode}
    (hpre : task.pre P state h (.db (.insertAuthorizationCode code))) :
    Unissued h ∧ ∃ headers input pairs request client validated session now codeHash,
      task = .authorize headers input ∧ input.pairs = .ok pairs ∧
      code = newAuthorizationCode client validated session codeHash now ∧
      CodeGrounds P state headers pairs h request client validated session now := by
  cases task with
  | createConsent headers payload =>
    rcases hpre with hq | ⟨_, _, _, _, -, ⟨_, heq⟩ | ⟨_, heq⟩⟩ | ⟨_, heq⟩
    · cases hq
    all_goals cases heq
  | authorize headers input =>
    obtain ⟨pairs, hpairs, hu, hq | ⟨_, _, _, _, _, _, heq, -⟩ |
      ⟨request, client, validated, session, now, hash, heq, hg⟩⟩ := hpre
    · cases hq
    · cases heq
    · cases heq
      exact ⟨hu, headers, input, pairs, request, client, validated, session, now, hash, rfl,
        hpairs, rfl, hg⟩

/-- Only a consent request records a consent. -/
theorem ConsentTask.pre_createConsentAuthorization {P : Primitives} {state : AppState}
    {task : ConsentTask} {h : List Ev} {row : ConsentAuthorization}
    (hpre : task.pre P state h (.db (.createConsentAuthorization row))) :
    ∃ headers payload session client requestHash id now,
      task = .createConsent headers payload ∧
      row = newConsentAuthorization session client requestHash payload.scopes id now ∧
      ConsentChecked P state headers payload h session client requestHash now := by
  cases task with
  | createConsent headers payload =>
    rcases hpre with hq | ⟨session, client, hash, now, hc, ⟨_, heq⟩ | ⟨id, heq⟩⟩ | ⟨_, heq⟩
    · cases hq
    · cases heq
    · cases heq
      exact ⟨headers, payload, session, client, hash, id, now, rfl, rfl, hc⟩
    · cases heq
  | authorize headers input =>
    obtain ⟨pairs, -, -, hq | ⟨_, _, _, _, _, _, heq, -⟩ | ⟨_, _, _, _, _, _, heq, -⟩⟩ := hpre
    · cases hq
    all_goals cases heq

/-- The consent that a call spent. -/
def markedId : Ev → Option Uuid
  | ⟨.db (.markConsentAuthorizationConsumed id _), .ok true⟩ => some id
  | _ => none

/-- What a run keeps about codes and consents. -/
structure ConsentInv (w₀ w : World) (tr : List (Entry Call.Answer World)) : Prop where
  clients : w.store.tables .oidcClients = w₀.store.tables .oidcClients
  templates : w.store.tables .consentPolicyTemplates = w₀.store.tables .consentPolicyTemplates
  codes : ∀ code ∈ w.store.tables .authorizationCodes,
    code ∈ w₀.store.tables .authorizationCodes ∨
      ∃ x ∈ tr, x.event = ⟨.db (.insertAuthorizationCode code), .ok ()⟩
  rows : ∀ row ∈ w.store.tables .consentAuthorizations, row.consumedAt = none →
    row ∈ w₀.store.tables .consentAuthorizations ∨
      ∃ x ∈ tr, x.event = ⟨.db (.createConsentAuthorization row), .ok ()⟩
  marks : ∀ x ∈ tr, ∀ id instant,
    x.event = ⟨.db (.markConsentAuthorizationConsumed id instant), .ok true⟩ →
    ∃ row ∈ w.store.tables .consentAuthorizations, row.id = id ∧ row.consumedAt = some instant
  once : Once markedId tr

variable {P : Primitives} {state : AppState} {w₀ w w' : World}
  {tr : List (Entry Call.Answer World)}

/-- A call that is none of the three that matter, and leaves their tables alone. -/
theorem ConsentInv.frame (hinv : ConsentInv w₀ w tr) {x : Entry Call.Answer World}
    (htables : ∀ t, t = .oidcClients ∨ t = .consentPolicyTemplates ∨ t = .authorizationCodes ∨
      t = .consentAuthorizations → w'.store.tables t = w.store.tables t)
    (hmark : ∀ id instant,
      x.event ≠ ⟨.db (.markConsentAuthorizationConsumed id instant), .ok true⟩) :
    ConsentInv w₀ w' (x :: tr) where
  clients := by rw [htables _ (.inl rfl), hinv.clients]
  templates := by rw [htables _ (.inr (.inl rfl)), hinv.templates]
  codes code hcode := by
    rw [htables _ (.inr (.inr (.inl rfl)))] at hcode
    exact (hinv.codes code hcode).imp_right fun ⟨y, hy, hev⟩ => ⟨y, .tail _ hy, hev⟩
  rows row hrow hunspent := by
    rw [htables _ (.inr (.inr (.inr rfl)))] at hrow
    exact (hinv.rows row hrow hunspent).imp_right fun ⟨y, hy, hev⟩ => ⟨y, .tail _ hy, hev⟩
  marks y hy id instant hev := by
    rw [htables _ (.inr (.inr (.inr rfl)))]
    rcases List.mem_cons.mp hy with rfl | hy
    · exact absurd hev (hmark id instant)
    · exact hinv.marks y hy id instant hev
  once := hinv.once.cons_of_none (by
    unfold markedId
    split
    · rename_i id instant heq
      exact absurd heq (hmark id instant)
    · rfl)

theorem ConsentAuthorization.spend_of_spent {id : Uuid} {instant : OffsetDateTime}
    {a : ConsentAuthorization} (h : a.consumedAt ≠ none) : a.spend id instant = a := by
  simp [ConsentAuthorization.spend, h]

/-- An attempt to spend a consent. -/
theorem ConsentInv.mark (hinv : ConsentInv w₀ w tr) {i : ℕ} {id : Uuid} {instant : OffsetDateTime}
    {ch : Choice} {r : Except DatabaseError Bool}
    (hx : Call.exec P (.db (.markConsentAuthorizationConsumed id instant)) ch w = some (r, w')) :
    ConsentInv w₀ w' (⟨i, ⟨.db (.markConsentAuthorizationConsumed id instant), r⟩, w⟩ :: tr) := by
  have hsame (hs : w'.store = w.store) (hr : r ≠ .ok true) :
      ConsentInv w₀ w' (⟨i, ⟨.db (.markConsentAuthorizationConsumed id instant), r⟩, w⟩ :: tr) :=
    hinv.frame (fun t _ => by rw [hs]) fun id' instant' heq => by
      cases heq
      exact hr rfl
  obtain ⟨-, -, ⟨rfl, hs⟩ | hs⟩ := Call.exec_db hx
  · exact hsame hs (by rintro ⟨⟩)
  rcases exec_markConsentAuthorizationConsumed hs with ⟨hr, hs⟩ | ⟨htables, hunspent⟩
  · exact hsame hs hr
  have hrows : w'.store.tables .consentAuthorizations =
      (w.store.tables .consentAuthorizations).map (ConsentAuthorization.spend id instant) := by
    rw [htables, Function.update_self]
  have hother (t : Tab) (ht : t ≠ .consentAuthorizations) :
      w'.store.tables t = w.store.tables t := by rw [htables, Function.update_of_ne ht]
  refine ⟨by rw [hother .oidcClients (by rintro ⟨⟩), hinv.clients], by rw [hother .consentPolicyTemplates (by rintro ⟨⟩), hinv.templates],
    fun code hcode => ?_, fun row hrow hnone => ?_, fun y hy id' instant' hev => ?_, ?_⟩
  · rw [hother .authorizationCodes (by rintro ⟨⟩)] at hcode
    refine (hinv.codes code hcode).imp_right ?_
    rintro ⟨y, hy, hev⟩
    exact ⟨y, .tail _ hy, hev⟩
  · rw [hrows] at hrow
    obtain ⟨a, ha, rfl⟩ := List.mem_map.mp hrow
    unfold ConsentAuthorization.spend at hnone ⊢
    split at hnone
    · cases hnone
    · rw [if_neg ‹_›]
      refine (hinv.rows a ha hnone).imp_right ?_
      rintro ⟨y, hy, hev⟩
      exact ⟨y, .tail _ hy, hev⟩
  · rw [hrows]
    rcases List.mem_cons.mp hy with rfl | hy
    · cases hev
      obtain ⟨a, ha, rfl, hnone⟩ := hunspent rfl
      exact ⟨_, List.mem_map_of_mem ha, by simp [ConsentAuthorization.spend, hnone]⟩
    · obtain ⟨row, hrow, hid, hsome⟩ := hinv.marks y hy id' instant' hev
      refine ⟨_, List.mem_map_of_mem hrow, ?_⟩
      rw [ConsentAuthorization.spend_of_spent (by simp [hsome])]
      exact ⟨hid, hsome⟩
  · refine once_cons.mpr ⟨fun y hy k hk hyk => ?_, hinv.once⟩
    -- a consent with this identifier was spent before, so it could not be spent now
    have hr : r = .ok true := by
      rcases r with e | marked
      · cases hk
      · cases marked
        · cases hk
        · rfl
    subst hr
    obtain rfl : id = k := Option.some.inj hk
    obtain ⟨a, ha, haid, hnone⟩ := hunspent rfl
    unfold markedId at hyk
    split at hyk
    · rename_i id' instant' heq
      cases hyk
      obtain ⟨row, hrow, hid, hsome⟩ := hinv.marks y hy _ instant' heq
      have heq := (w.store.unique .consentAuthorizations).eq_of_key ha hrow
        (congrArg Key.id (haid.trans hid.symm))
      rw [heq, hsome] at hnone
      cases hnone
    · cases hyk

/-- The insert of a code, or of a consent authorization. -/
theorem ConsentInv.insert (hinv : ConsentInv w₀ w tr) {i : ℕ} {c : DbCall} {ch : Choice}
    {r : Except DatabaseError c.Result} (hx : Call.exec P (.db c) ch w = some (r, w'))
    (hc : (∃ code, c = .insertAuthorizationCode code) ∨
      ∃ row, c = .createConsentAuthorization row) :
    ConsentInv w₀ w' (⟨i, ⟨.db c, r⟩, w⟩ :: tr) := by
  have hmark (id : Uuid) (instant : OffsetDateTime) :
      (⟨.db c, r⟩ : Ev) ≠ ⟨.db (.markConsentAuthorizationConsumed id instant), .ok true⟩ := by
    rcases hc with ⟨_, rfl⟩ | ⟨_, rfl⟩ <;> exact nofun
  obtain ⟨-, -, ⟨-, hs⟩ | hs⟩ := Call.exec_db hx
  · exact hinv.frame (fun t _ => by rw [hs]) hmark
  rcases hc with ⟨code, rfl⟩ | ⟨row, rfl⟩
  · rcases insertOne_atomic hs with ⟨rfl, ht⟩ | ⟨-, hs⟩
    · have hother (t : Tab) (hne : t ≠ .authorizationCodes) :
          w'.store.tables t = w.store.tables t := by rw [ht, appended_of_ne hne]
      have hstill : ConsentInv w₀ w (⟨i, ⟨.db (.insertAuthorizationCode code), .ok ()⟩, w⟩ :: tr) :=
        hinv.frame (fun _ _ => rfl) hmark
      refine { hstill with
        clients := by rw [hother .oidcClients nofun, hinv.clients]
        templates := by rw [hother .consentPolicyTemplates nofun, hinv.templates]
        codes := fun code' hcode => ?_
        rows := by
          rw [hother .consentAuthorizations nofun]
          exact hstill.rows
        marks := by
          rw [hother .consentAuthorizations nofun]
          exact hstill.marks }
      rw [ht, appended_self, List.mem_append, List.mem_singleton] at hcode
      rcases hcode with hcode | rfl
      · exact (hinv.codes code' hcode).imp_right fun ⟨y, hy, hev⟩ => ⟨y, .tail _ hy, hev⟩
      · exact .inr ⟨_, .head _, rfl⟩
    · exact hinv.frame (fun t _ => by rw [hs]) hmark
  · rcases insertOne_atomic hs with ⟨rfl, ht⟩ | ⟨-, hs⟩
    · have hother (t : Tab) (hne : t ≠ .consentAuthorizations) :
          w'.store.tables t = w.store.tables t := by rw [ht, appended_of_ne hne]
      have hstill : ConsentInv w₀ w (⟨i, ⟨.db (.createConsentAuthorization row), .ok ()⟩, w⟩ :: tr) :=
        hinv.frame (fun _ _ => rfl) hmark
      refine { hstill with
        clients := by rw [hother .oidcClients nofun, hinv.clients]
        templates := by rw [hother .consentPolicyTemplates nofun, hinv.templates]
        codes := by
          rw [hother .authorizationCodes nofun]
          exact hstill.codes
        rows := fun row' hrow hnone => ?_
        marks := fun y hy id instant hev => ?_ }
      · rw [ht, appended_self, List.mem_append, List.mem_singleton] at hrow
        rcases hrow with hrow | rfl
        · exact (hinv.rows row' hrow hnone).imp_right fun ⟨y, hy, hev⟩ => ⟨y, .tail _ hy, hev⟩
        · exact .inr ⟨_, .head _, rfl⟩
      · rw [ht, appended_self]
        obtain ⟨row', hrow, h⟩ := hstill.marks y hy id instant hev
        exact ⟨row', List.mem_append_left _ hrow, h⟩
    · exact hinv.frame (fun t _ => by rw [hs]) hmark

theorem consentInv_of_reachable {p : ConsentPool} (h : (consentMachine P state).Reachable w₀ p) :
    ConsentInv w₀ p.world p.trace := by
  refine h.invariant (ConsentTask.sat P state) (ConsentInv w₀)
    ⟨rfl, rfl, fun _ hcode => .inl hcode, fun _ hrow _ => .inl hrow, by simp, once_nil⟩ ?_
  intro p i task e ch r w' _ hinv hpre hx
  replace hx : Call.exec P e ch p.world = some (r, w') := hx
  rcases ConsentTask.pre_cases hpre with
    (hq | ⟨grant, rfl⟩ | ⟨event, rfl⟩) | ⟨id, instant, rfl⟩ | ⟨code, rfl⟩ | ⟨row, rfl⟩
  · have hs := Call.exec_of_isQuiet hq hx
    refine hinv.frame (fun t _ => by rw [hs]) fun id instant heq => ?_
    cases heq
    cases hq
  · have hleaves (t : Tab) (ht : t ≠ .consentGrants) : (Call.db (.createConsentGrant grant)).Leaves t :=
      Call.leaves_of_target (.bind (.perform fun heq => ht (Option.some.inj heq).symm) fun _ => .ret _)
    refine hinv.frame (fun t ht => (hleaves t ?_).exec hx) fun id instant => nofun
    rcases ht with rfl | rfl | rfl | rfl <;> exact nofun
  · refine hinv.frame (fun t ht => (leaves_insertAuditEvent event ?_).exec hx) fun id instant => nofun
    rcases ht with rfl | rfl | rfl | rfl <;> exact nofun
  · exact hinv.mark hx
  · exact hinv.insert hx (.inl ⟨code, rfl⟩)
  · exact hinv.insert hx (.inr ⟨row, rfl⟩)

-- runs

section runs

variable {p : ConsentPool} (h : (consentMachine P state).Reachable w₀ p)

include h

/-- The clients and templates that a request reads are those from the start. -/
theorem consent_reads {i : ℕ} {c : DbCall} {a : c.Result} (hc : c.isQuery = true)
    (hmem : ⟨.db c, .ok a⟩ ∈ own i p.trace) :
    ∃ s : Store, (c.exec s).1 = .ok a ∧
      s.tables .oidcClients = w₀.store.tables .oidcClients ∧
      s.tables .consentPolicyTemplates = w₀.store.tables .consentPolicyTemplates := by
  obtain ⟨p₀, h₀, -, hs, -⟩ := query_reachable h hc hmem
  have hinv := consentInv_of_reachable h₀
  exact ⟨p₀.world.store, hs, hinv.clients, hinv.templates⟩

/-- A request with grounds for a code of a client that always requires consent has
    spent one. -/
theorem CodeGrounds.spent {client : OidcClient} (hclient : client ∈ w₀.store.tables .oidcClients)
    (hpolicy : AlwaysRequiresConsent w₀.store.tables client) {i : ℕ} {hist : List Ev}
    (hhist : hist ⊆ own i p.trace) {headers : RequestHeaders} {pairs : List (String × String)}
    {request : AuthorizationRequest} {client' : OidcClient}
    {validated : ValidatedAuthorizationRequest} {session : AuthSession} {now : OffsetDateTime}
    (hg : CodeGrounds P state headers pairs hist request client' validated session now)
    (hid : client'.id = client.id) :
    ∃ row, ConsentFound P state hist request client' validated session now row ∧
      ⟨.db (.markConsentAuthorizationConsumed row.id now), .ok true⟩ ∈ hist := by
  obtain ⟨s, hs, hclients, -⟩ := consent_reads h rfl (hhist hg.checked.client_read)
  have hread := (getOidcClientByPublicId_eq_ok hs).1
  rw [hclients] at hread
  obtain rfl : client' = client :=
    (w₀.store.unique .oidcClients).eq_of_key hread hclient (congrArg Key.id hid)
  obtain ⟨templateId, htemplateId, hmode⟩ := hpolicy
  rcases hg.policy with hnone | ⟨id, template, hid, htemplate, hne⟩ | hspent
  · rw [htemplateId] at hnone
    cases hnone
  · rw [htemplateId] at hid
    cases hid
    obtain ⟨s, hs, -, htemplates⟩ := consent_reads h rfl (hhist htemplate)
    obtain ⟨hmem, horg, hid⟩ := getConsentPolicyTemplate_eq_ok hs
    rw [htemplates] at hmem
    exact absurd (hmode template hmem (horg.trans hg.checked.client_organization.symm) hid) hne
  · exact hspent

/-- A consent that was found and spent is now marked. -/
theorem ConsentFound.consumed {i : ℕ} {hist : List Ev} (hhist : hist ⊆ own i p.trace)
    {request : AuthorizationRequest} {client : OidcClient}
    {validated : ValidatedAuthorizationRequest} {session : AuthSession} {now : OffsetDateTime}
    {row : ConsentAuthorization}
    (hfound : ConsentFound P state hist request client validated session now row)
    (hmark : ⟨.db (.markConsentAuthorizationConsumed row.id now), .ok true⟩ ∈ hist) :
    { row with consumedAt := some now } ∈ p.world.store.tables .consentAuthorizations := by
  obtain ⟨-, rows, hrow, hread⟩ := hfound
  obtain ⟨s, hs, hkept⟩ := query_before h rfl (hhist hread)
  have hrow := (pendingConsentAuthorizations_eq_ok hs hrow).1
  obtain ⟨row', hrow', hstep⟩ := hkept .consentAuthorizations (by simp [evolution]) row hrow
  obtain ⟨x, hx, -, hev⟩ := mem_own.mp (hhist hmark)
  obtain ⟨row'', hrow'', hid, hat⟩ := (consentInv_of_reachable h).marks x hx _ _ hev
  obtain rfl : row' = row'' := (p.world.store.unique .consentAuthorizations).eq_of_key hrow' hrow''
    (congrArg Key.id ((congrArg ConsentAuthorization.id hstep.1).trans hid.symm))
  rwa [← hstep.1, ← hat]

/-- A code was inserted by an authorization request that had grounds for it. -/
theorem inserted_by_authorize {x : Entry Call.Answer World} (hx : x ∈ p.trace)
    {code : AuthorizationCode} (hev : x.event.1 = .db (.insertAuthorizationCode code)) :
    ∃ t headers input pairs hist request client validated session now codeHash,
      p.threads[x.thread]? = some t ∧ t.request = .authorize headers input ∧
      input.pairs = .ok pairs ∧ hist ⊆ own x.thread p.trace ∧
      code = newAuthorizationCode client validated session codeHash now ∧
      CodeGrounds P state headers pairs hist request client validated session now := by
  obtain ⟨tr₁, tr₂, htr⟩ := List.append_of_mem hx
  obtain ⟨t, ht, hpre⟩ := h.admissible (ConsentTask.sat P state) htr
  rw [hev] at hpre
  have hsub : own x.thread tr₂ ⊆ own x.thread p.trace := by
    rw [htr, own_append, own_cons_self]
    exact fun ev hmem => List.mem_append_right _ (.tail _ hmem)
  obtain ⟨-, headers, input, pairs, request, client, validated, session, now, hash, hrequest,
    hpairs, hcode, hg⟩ := ConsentTask.pre_insertAuthorizationCode hpre
  exact ⟨t, headers, input, pairs, _, request, client, validated, session, now, hash, ht,
    hrequest, hpairs, hsub, hcode, hg⟩

/-- A consent that is not spent was there from the start, or its user gave it. -/
theorem consent_given {i : ℕ} {hist : List Ev} (hhist : hist ⊆ own i p.trace)
    {request : AuthorizationRequest} {client : OidcClient}
    {validated : ValidatedAuthorizationRequest} {session : AuthSession} {now : OffsetDateTime}
    {row : ConsentAuthorization}
    (hfound : ConsentFound P state hist request client validated session now row) :
    row ∈ w₀.store.tables .consentAuthorizations ∨
      ∃ j t headers payload session', p.threads[j]? = some t ∧
        t.request = .createConsent headers payload ∧
        ⟨.db (.createConsentAuthorization row), .ok ()⟩ ∈ own j p.trace ∧
        SessionChecked P state headers (own j p.trace) session' ∧
        session'.id = row.sessionId ∧ session'.userId = row.userId := by
  obtain ⟨-, rows, hrow, hread⟩ := hfound
  obtain ⟨p₀, h₀, hsub, hs, -⟩ := query_reachable h rfl (hhist hread)
  obtain ⟨hmem, -, -, -, -, -, hunspent, -⟩ := pendingConsentAuthorizations_eq_ok hs hrow
  refine ((consentInv_of_reachable h₀).rows row hmem hunspent).imp_right fun ⟨y, hy, hev⟩ => ?_
  obtain ⟨tr₁, tr₂, htr⟩ := List.append_of_mem (hsub hy)
  obtain ⟨t, ht, hpre⟩ := h.admissible (ConsentTask.sat P state) htr
  have hsub' : own y.thread tr₂ ⊆ own y.thread p.trace := by
    rw [htr, own_append, own_cons_self]
    exact fun ev hmem => List.mem_append_right _ (.tail _ hmem)
  rw [hev] at hpre
  obtain ⟨headers, payload, session', _, _, _, _, hrequest, rfl, hc⟩ :=
    ConsentTask.pre_createConsentAuthorization hpre
  exact ⟨y.thread, t, headers, payload, session', ht, hrequest,
    mem_own.mpr ⟨y, hsub hy, rfl, hev⟩, hc.session_checked.mono hsub', rfl, rfl⟩

/-- The consent that a code of a client with such a policy was paid for with. -/
theorem exists_spentFor {client : OidcClient} (hclient : client ∈ w₀.store.tables .oidcClients)
    (hpolicy : AlwaysRequiresConsent w₀.store.tables client) {code : AuthorizationCode}
    (hcode : code ∈ newCodes w₀ p client) : ∃ row, SpentFor P state w₀ p code row := by
  have hinv := consentInv_of_reachable h
  simp only [newCodes, List.mem_filter, decide_eq_true_eq] at hcode
  obtain ⟨x, hx, hev⟩ := (hinv.codes code hcode.1).resolve_left hcode.2.2
  obtain ⟨t, headers, input, pairs, hist, request, client', validated, session, now, hash, ht,
    hrequest, hpairs, hhist, rfl, hg⟩ := inserted_by_authorize h hx (congrArg Sigma.fst hev)
  obtain ⟨row, hfound, hmark⟩ := hg.spent h hclient hpolicy hhist hcode.2.1
  obtain ⟨rows, hrow, hread⟩ := hfound.2
  obtain ⟨s, hs, -⟩ := query_before h rfl (hhist hread)
  obtain ⟨-, horg, huser, hsession, hclientId, hhash, hunspent, hexpires⟩ :=
    pendingConsentAuthorizations_eq_ok hs hrow
  have hparsed := hg.checked.parsed
  exact ⟨row,
    { request := ⟨x.thread, t, headers, input, pairs, ht, hrequest, hpairs,
        mem_own.mpr ⟨x, hx, rfl, hev⟩, hhist hmark, by rw [hparsed]; exact hhash⟩
      given := consent_given h hhist hfound
      unspent := hunspent
      organization := horg
      user := huser
      session := hsession
      client := hclientId
      scopes := hfound.1
      unexpired := hexpires
      consumed := hfound.consumed h hhist hmark }⟩

/-- An authorization request inserts one code only. -/
theorem insert_unique {i : ℕ} {code code' : AuthorizationCode}
    (hcode : ⟨.db (.insertAuthorizationCode code), .ok ()⟩ ∈ own i p.trace)
    (hcode' : ⟨.db (.insertAuthorizationCode code'), .ok ()⟩ ∈ own i p.trace) : code = code' := by
  obtain ⟨x, hx, rfl, hev⟩ := mem_own.mp hcode
  obtain ⟨y, hy, hthread, hev'⟩ := mem_own.mp hcode'
  have hxy : x = y := by
    refine h.unique_call (ConsentTask.sat P state)
      (K := fun e => ∃ code, e = .db (.insertAuthorizationCode code)) ?_ hx hy
      ⟨code, by rw [hev]⟩ ⟨code', by rw [hev']⟩ hthread.symm
    rintro task hist e hpre ⟨code, rfl⟩ ⟨e, r⟩ hmem ⟨code', rfl⟩
    exact (ConsentTask.pre_insertAuthorizationCode hpre).1 code' r hmem
  subst hxy
  rw [hev] at hev'
  cases hev'
  rfl

theorem spentFor_injective {code code' : AuthorizationCode} {row : ConsentAuthorization}
    (hcode : SpentFor P state w₀ p code row) (hcode' : SpentFor P state w₀ p code' row) :
    code = code' := by
  obtain ⟨i, -, -, -, -, -, -, -, hinsert, hmark, -⟩ := hcode.request
  obtain ⟨j, -, -, -, -, -, -, -, hinsert', hmark', -⟩ := hcode'.request
  obtain ⟨x, hx, rfl, hev⟩ := mem_own.mp hmark
  obtain ⟨y, hy, rfl, hev'⟩ := mem_own.mp hmark'
  have hxy := (consentInv_of_reachable h).once.eq hx hy (k := row.id) (by rw [hev]; rfl)
    (by rw [hev']; rfl)
  rw [← hxy] at hinsert'
  exact insert_unique h hinsert hinsert'

end runs

/-- A consent that a code was paid for with is one of those given. -/
theorem SpentFor.mem_consentsGiven {p : ConsentPool} {client : OidcClient}
    {code : AuthorizationCode} {row : ConsentAuthorization}
    (hspent : SpentFor P state w₀ p code row) (hcode : code ∈ newCodes w₀ p client) :
    row ∈ consentsGiven w₀ p client := by
  simp only [newCodes, List.mem_filter, decide_eq_true_eq] at hcode
  have hclient := hspent.client.trans hcode.2.1
  rcases hspent.given with hrow | ⟨j, -, -, -, -, -, -, hev, -⟩
  · exact List.mem_append_left _ (List.mem_filter.mpr ⟨hrow, by simp [hclient, hspent.unspent]⟩)
  · obtain ⟨x, hx, -, hev⟩ := mem_own.mp hev
    exact List.mem_append_right _ (List.mem_filterMap.mpr ⟨x, hx, by simp [recordedConsent, hev, hclient]⟩)

/-- **Every code is paid for with a consent of its own.** In every run of requests for
    authorization and consent, the codes of a client that always requires consent are
    matched one to one with consents that were given for these requests and are now
    spent, so there are no more codes than consents. -/
theorem codes_paid_with_consents {p : ConsentPool} (h : (consentMachine P state).Reachable w₀ p)
    {client : OidcClient} (hclient : client ∈ w₀.store.tables .oidcClients)
    (hpolicy : AlwaysRequiresConsent w₀.store.tables client) :
    (∃ spent, List.Forall₂ (SpentFor P state w₀ p) (newCodes w₀ p client) spent ∧ spent.Nodup) ∧
      (newCodes w₀ p client).length ≤ (consentsGiven w₀ p client).length := by
  have hnodup : (newCodes w₀ p client).Nodup :=
    .filter _ ((p.world.store.unique .authorizationCodes).imp fun {code code'} hne heq =>
      hne (.text code.codeHash) (.head _) (by rw [heq]; exact .head _))
  obtain ⟨spent, hspent, hdistinct⟩ := exists_forall₂_nodup hnodup
    (fun code hcode => exists_spentFor h hclient hpolicy hcode)
    fun _ _ _ => spentFor_injective h
  refine ⟨⟨spent, hspent, hdistinct⟩, ?_⟩
  rw [hspent.length_eq]
  refine (List.subperm_of_subset hdistinct fun row hrow => ?_).length_le
  obtain ⟨code, hcode, hs⟩ := exists_mem_of_forall₂ hspent hrow
  exact hs.mem_consentsGiven hcode

namespace Sample

def strictClient : OidcClient :=
  { client with consentPolicyTemplateId := some 8, redirectUris := [⟨"app:/cb"⟩] }

def strictPairs : List (String × String) :=
  [("response_type", "code"), ("client_id", "app"), ("redirect_uri", "app:/cb"),
    ("scope", "openid"), ("code_challenge", verifier), ("code_challenge_method", "S256")]

def strictQuery : String :=
  "response_type=code&client_id=app&redirect_uri=app:/cb&scope=openid&code_challenge=" ++ verifier ++
    "&code_challenge_method=S256"

/-- A consent for that request which has not been spent. -/
def pendingConsent : ConsentAuthorization where
  id := 21
  organizationId := 1
  userId := 2
  sessionId := 4
  clientId := 3
  authorizationRequestHash :=
    authorizationRequestHash browserPrimitives "https://id" (.ofParameters (parameter strictPairs))
  scopes := ["openid"]
  createdAt := 0
  expiresAt := 100
  consumedAt := none

def strictTables : Db
  | .consentPolicyTemplates => [⟨8, 1, "strict", "Strict", .alwaysRequired, 0⟩]
  | .oidcClients => [strictClient]
  | .consentAuthorizations => [pendingConsent]
  | t => browserTables t

/-- A user who is logged in, and a client that always requires consent. -/
def strict : World where
  store := ⟨strictTables, fun t => by cases t <;> decide⟩
  clock := 0
  uuids := []

/-- Both requests find the consent before either spends it. -/
def oneConsentTwoRequests : List (Label ConsentTask Choice) :=
  [.spawn (.authorize cookies (.get (some strictQuery))),
    .spawn (.authorize cookies (.get (some strictQuery)))] ++
  (List.replicate 8 ({} : Choice)).map (.run 0) ++ (List.replicate 8 ({} : Choice)).map (.run 1) ++
  [.run 1 {}, .run 0 {}, .run 1 { text := "c1" }, .run 1 { uuid := 23 }, .run 1 {}]

end Sample

open Sample in
theorem codes_paid_with_consents_strict :
    ∃ p : ConsentPool, (consentMachine browserPrimitives appState).run (Machine.start strict)
        oneConsentTwoRequests = some p ∧
      (newCodes strict p strictClient).map (·.codeHash) = ["c1"] ∧
      p.threads.map (fun t => t.outcome.map (·.isOk)) = [some true, some true] ∧
      (∃ spent, List.Forall₂ (SpentFor browserPrimitives appState strict p)
        (newCodes strict p strictClient) spent ∧ spent.Nodup) ∧
      (newCodes strict p strictClient).length ≤ (consentsGiven strict p strictClient).length := by
  have hrun : ((consentMachine browserPrimitives appState).run (Machine.start strict)
      oneConsentTwoRequests).map (fun p => ((newCodes strict p strictClient).map (·.codeHash),
        p.threads.map fun t => t.outcome.map (·.isOk))) =
      some (["c1"], [some true, some true]) := by decide +kernel
  obtain ⟨p, hp, hshown⟩ := Option.map_eq_some_iff.mp hrun
  simp only [Prod.mk.injEq] at hshown
  have hclient : strictClient ∈ strict.store.tables .oidcClients := .head _
  exact ⟨p, hp, hshown.1, hshown.2, codes_paid_with_consents (Machine.Reachable.start.run hp)
    hclient ⟨8, rfl, by decide⟩⟩

end CairnId
