import Mathlib.Data.Prod.Lex
import CairnId.Database.Schema
import CairnId.Paging.Keyset
import CairnId.Validation

/-!
# Listings

The methods that read a page of users, audit events or consent grants, newest first:
`users/queries.rs`, `audit.rs` and `consent_grants/listings.rs`. What PostgreSQL's
`lower` does to a text depends on the collation, so it is a parameter.

## Main definitions

- `ListCursor` — `(created_at, id)`, with its order
- `newestFirst` — the end that the queries share
-/

namespace CairnId

open Concurrency Concurrency.Sql

@[ext] structure ListCursor where
  createdAt : OffsetDateTime
  tieBreakerId : Uuid

namespace ListCursor

/-- Identifiers are compared byte by byte, so as numbers. -/
def toLexPair (c : ListCursor) : Int ×ₗ ℕ := toLex (c.createdAt, c.tieBreakerId.toNat)

theorem toLexPair_injective : Function.Injective toLexPair := by
  intro a b h
  have h := Prod.ext_iff.mp (toLex_inj.mp h)
  exact ListCursor.ext h.1 (BitVec.eq_of_toNat_eq h.2)

instance : LinearOrder ListCursor := .lift' toLexPair toLexPair_injective

theorem lt_iff {a b : ListCursor} : a < b ↔ a.createdAt < b.createdAt ∨
    a.createdAt = b.createdAt ∧ a.tieBreakerId < b.tieBreakerId :=
  Prod.Lex.toLex_lt_toLex.trans (by rw [BitVec.lt_def])

theorem le_iff {a b : ListCursor} : a ≤ b ↔ a.createdAt < b.createdAt ∨
    a.createdAt = b.createdAt ∧ a.tieBreakerId ≤ b.tieBreakerId :=
  Prod.Lex.toLex_le_toLex.trans (by rw [BitVec.le_def])

end ListCursor

structure UserListFilter where
  searchPrefix : Option String
  status : Option UserStatus

structure AuditEventListFilter where
  actionPrefix : Option String
  targetPrefix : Option String
  actorKind : Option AuditActorKind
  actorId : Option Uuid
  createdFrom : Option OffsetDateTime
  createdTo : Option OffsetDateTime

structure ConsentGrantListFilter where
  revoked : Option Bool

structure ConsentGrantSummary where
  id : Uuid
  organizationId : OrganizationId
  userId : UserId
  userEmail : String
  userDisplayName : String
  clientId : ClientId
  scopes : List String
  createdAt : OffsetDateTime
  revokedAt : Option OffsetDateTime

structure UserConsentGrantSummary where
  id : Uuid
  organizationId : OrganizationId
  userId : UserId
  clientId : ClientId
  clientPublicId : String
  clientName : String
  scopes : List String
  createdAt : OffsetDateTime
  revokedAt : Option OffsetDateTime

namespace Database

def prefixSearchPattern (value : Option String) : Option String :=
  ((value.map trim).filter fun value => !value.isEmpty).map fun value => asciiLowercase value ++ "%"

/-- `text LIKE pattern`; no pattern ends with the escape character. -/
def like : List Char → List Char → Bool
  | '%' :: pattern, text => text.tails.any fun rest => like pattern rest
  | '_' :: pattern, _ :: text => like pattern text
  | '\\' :: c :: pattern, d :: text => c = d && like pattern text
  | c :: pattern, d :: text => c = d && like pattern text
  | [], [] => true
  | _, _ => false

/-- `$n::text IS NULL OR … LIKE $n OR …`. -/
def matchesPattern (pattern : Option String) (texts : List String) : Bool :=
  pattern.all fun pattern => texts.any fun text => like pattern.toList text.toList

section queries

variable {α : Type} (lower : String → String)

/-- `$n::timestamptz IS NULL OR created_at < $n OR (created_at = $n AND id < $m)`. -/
def isBehind (after : Option ListCursor) (row : ListCursor) : Bool := match after with
  | none => true
  | some after => row.createdAt < after.createdAt ||
    (row.createdAt = after.createdAt && row.tieBreakerId < after.tieBreakerId)

/-- The rows behind the cursor, `ORDER BY created_at DESC, id DESC LIMIT $n`. -/
def newestFirst (cursor : α → ListCursor) (after : Option ListCursor) (limit : Int)
    (rows : List α) : List α :=
  ((rows.filter fun r => isBehind after (cursor r)).insertionSort fun a b =>
    (cursor b).createdAt < (cursor a).createdAt ∨ (cursor b).createdAt = (cursor a).createdAt ∧
      (cursor b).tieBreakerId ≤ (cursor a).tieBreakerId).take limit.toNat

def usersMatching (db : Db) (organizationId : OrganizationId) (filter : UserListFilter) :
    List User :=
  ((db .users).map (·.user)).filter fun user =>
    user.organizationId = organizationId &&
    matchesPattern (prefixSearchPattern filter.searchPrefix)
      [lower user.email, lower user.displayName] &&
    filter.status.all (user.status = ·)

def listUsersPageFiltered (db : Db) (organizationId : OrganizationId) (filter : UserListFilter)
    (after : Option ListCursor) (limit : Int) : List User :=
  newestFirst (fun user => ⟨user.createdAt, user.id⟩) after limit
    (usersMatching lower db organizationId filter)

def auditEventsMatching (db : Db) (organizationId : OrganizationId)
    (filter : AuditEventListFilter) : List AuditEvent :=
  (db .auditEvents).filter fun event =>
    event.organizationId = organizationId &&
    matchesPattern (prefixSearchPattern filter.actionPrefix) [lower event.action] &&
    matchesPattern (prefixSearchPattern filter.targetPrefix) [lower event.target] &&
    filter.actorKind.all (event.actorKind = ·) &&
    filter.actorId.all (event.actorId = some ·) &&
    filter.createdFrom.all (· ≤ event.createdAt) &&
    filter.createdTo.all (event.createdAt < ·)

def listAuditEventsPageFiltered (db : Db) (organizationId : OrganizationId)
    (filter : AuditEventListFilter) (after : Option ListCursor) (limit : Int) : List AuditEvent :=
  newestFirst (fun event => ⟨event.createdAt, event.id⟩) after limit
    (auditEventsMatching lower db organizationId filter)

def userSecurityEvents (db : Db) (organizationId : OrganizationId) (userId : UserId) :
    List AuditEvent :=
  let userIdText := Uuid.hyphenated userId
  (db .auditEvents).filter fun event =>
    event.organizationId = organizationId &&
    (event.target = userIdText ||
      (event.actorKind = .user && event.actorId = some userId) ||
      event.metadata.text? "subject_user_id" = some userIdText ||
      event.metadata.text? "user_id" = some userIdText)

def listUserSecurityEventsPage (db : Db) (organizationId : OrganizationId) (userId : UserId)
    (after : Option ListCursor) (limit : Int) : List AuditEvent :=
  newestFirst (fun event => ⟨event.createdAt, event.id⟩) after limit
    (userSecurityEvents db organizationId userId)

/-- `$n::boolean IS NULL OR (revoked_at IS NOT NULL) = $n`. -/
def ConsentGrantListFilter.selects (filter : ConsentGrantListFilter) (grant : ConsentGrant) : Bool :=
  filter.revoked.all (grant.revokedAt.isSome = ·)

/-- The grants of the client, each joined with its user. -/
def clientConsentGrants (db : Db) (organizationId : OrganizationId) (clientId : ClientId)
    (filter : ConsentGrantListFilter) : List ConsentGrantSummary :=
  ((db .consentGrants).filter fun grant => grant.organizationId = organizationId &&
    grant.clientId = clientId && ConsentGrantListFilter.selects filter grant).flatMap fun grant =>
      ((db .users).filter fun row => row.user.id = grant.userId &&
        row.user.organizationId = grant.organizationId).map fun row =>
          ⟨grant.id, grant.organizationId, grant.userId, row.user.email, row.user.displayName,
            grant.clientId, grant.scopes, grant.createdAt, grant.revokedAt⟩

def listConsentGrantsForClientPageFiltered (db : Db) (organizationId : OrganizationId)
    (clientId : ClientId) (filter : ConsentGrantListFilter) (after : Option ListCursor)
    (limit : Int) : List ConsentGrantSummary :=
  newestFirst (fun grant => ⟨grant.createdAt, grant.id⟩) after limit
    (clientConsentGrants db organizationId clientId filter)

/-- The grants of the user, each joined with its client. -/
def userConsentGrants (db : Db) (organizationId : OrganizationId) (userId : UserId)
    (filter : ConsentGrantListFilter) : List UserConsentGrantSummary :=
  ((db .consentGrants).filter fun grant => grant.organizationId = organizationId &&
    grant.userId = userId && ConsentGrantListFilter.selects filter grant).flatMap fun grant =>
      ((db .oidcClients).filter fun client => client.id = grant.clientId &&
        client.organizationId = grant.organizationId).map fun client =>
          ⟨grant.id, grant.organizationId, grant.userId, grant.clientId, client.clientId,
            client.name, grant.scopes, grant.createdAt, grant.revokedAt⟩

def listConsentGrantsForUserPageFiltered (db : Db) (organizationId : OrganizationId)
    (userId : UserId) (filter : ConsentGrantListFilter) (after : Option ListCursor)
    (limit : Int) : List UserConsentGrantSummary :=
  newestFirst (fun grant => ⟨grant.createdAt, grant.id⟩) after limit
    (userConsentGrants db organizationId userId filter)

end queries

-- newest first is greatest cursor first

theorem isBehind_eq (after : Option ListCursor) (row : ListCursor) :
    isBehind after row = after.all fun after => row < after := by
  cases after with
  | none => rfl
  | some after =>
    rw [Bool.eq_iff_iff]
    simp [isBehind, ListCursor.lt_iff]

theorem insertionSort_congr {α : Type} {r r' : α → α → Prop} [DecidableRel r] [DecidableRel r']
    (h : ∀ a b, r a b ↔ r' a b) (l : List α) : l.insertionSort r = l.insertionSort r' := by
  obtain rfl : r = r' := funext₂ fun a b => propext (h a b)
  congr!

theorem newestFirst_eq {α : Type} (cursor : α → ListCursor) (after : Option ListCursor) (limit : Int)
    (rows : List α) :
    newestFirst cursor after limit rows =
      (Keyset.remaining cursor rows after).take limit.toNat := by
  unfold newestFirst Keyset.remaining
  simp only [isBehind_eq]
  exact congrArg _ (insertionSort_congr (fun a b => ListCursor.le_iff.symm) _)

-- rows have different cursors

section nodup

variable {lower : String → String} {organizationId : OrganizationId}

theorem nodup_of_id {α : Type} {rows : List α} {cursor : α → ListCursor}
    (h : rows.Pairwise fun a b => (cursor a).tieBreakerId ≠ (cursor b).tieBreakerId) :
    (rows.map cursor).Nodup :=
  List.pairwise_map.mpr (h.imp fun hne heq => hne (congrArg ListCursor.tieBreakerId heq))

theorem pairwise_key (s : Store) {t : Tab} {id : Row t → Uuid}
    (hid : ∀ r, schema.key t r = .id (id r)) :
    (s.tables t).Pairwise fun a b => id a ≠ id b := by
  refine (s.unique t).imp fun {a b} h heq => h (schema.key t a) (.head _) ?_
  rw [hid, heq, ← hid]
  exact .head _

/-- Joined with a row that its key determines, a table keeps its identifiers apart. -/
theorem pairwise_join {α β γ : Type} {rows : List α} {joined : α → List β} {f : α → β → γ}
    {id : α → Uuid} {id' : γ → Uuid} (hrows : rows.Pairwise fun a b => id a ≠ id b)
    (hjoined : ∀ a, (joined a).length ≤ 1) (hf : ∀ a b, id' (f a b) = id a) :
    (rows.flatMap fun a => (joined a).map (f a)).Pairwise fun a b => id' a ≠ id' b := by
  refine List.pairwise_flatMap.mpr ⟨fun a _ => ?_, hrows.imp fun {a b} hne x hx y hy => ?_⟩
  · have hlength : ((joined a).map (f a)).length ≤ 1 := by rw [List.length_map]; exact hjoined a
    match h : (joined a).map (f a), hlength with
    | [], _ => exact .nil
    | [_], _ => exact List.pairwise_singleton _ _
  · obtain ⟨b₁, -, rfl⟩ := List.mem_map.mp hx
    obtain ⟨b₂, -, rfl⟩ := List.mem_map.mp hy
    rw [hf, hf]
    exact hne

theorem length_filter_key (s : Store) {t : Tab} {p : Row t → Bool} {k : Key}
    (hp : ∀ r, p r = true → k ∈ schema.entries t r) : ((s.tables t).filter p).length ≤ 1 := by
  rcases h : (s.tables t).filter p with _ | ⟨r, rows⟩
  · exact Nat.zero_le _
  · have hr : r ∈ (s.tables t).filter p := by rw [h]; exact .head _
    obtain ⟨hmem, hpr⟩ := List.mem_filter.mp hr
    rw [(s.unique t).filter_eq_singleton hmem hpr hp] at h
    rw [← h, List.length_singleton]

theorem nodup_usersMatching (s : Store) (filter : UserListFilter) :
    ((usersMatching lower s.tables organizationId filter).map fun user =>
      (⟨user.createdAt, user.id⟩ : ListCursor)).Nodup := by
  refine nodup_of_id (.filter _ (List.pairwise_map.mpr ?_))
  exact pairwise_key s (t := .users) fun _ => rfl

theorem nodup_auditEvents (s : Store) (p : AuditEvent → Bool) :
    (((s.tables .auditEvents).filter p).map fun event =>
      (⟨event.createdAt, event.id⟩ : ListCursor)).Nodup := by
  refine nodup_of_id (.filter _ ?_)
  exact pairwise_key s (t := .auditEvents) fun _ => rfl

theorem nodup_clientConsentGrants (s : Store) (clientId : ClientId)
    (filter : ConsentGrantListFilter) :
    ((clientConsentGrants s.tables organizationId clientId filter).map fun grant =>
      (⟨grant.createdAt, grant.id⟩ : ListCursor)).Nodup := by
  refine nodup_of_id (pairwise_join (.filter _ (pairwise_key s (t := .consentGrants) fun _ => rfl))
    (fun grant => length_filter_key s (k := .id grant.userId) fun row hrow => ?_) fun _ _ => rfl)
  simp only [Bool.and_eq_true, decide_eq_true_eq] at hrow
  simp [Schema.entries, schema, hrow.1]

theorem nodup_userConsentGrants (s : Store) (userId : UserId) (filter : ConsentGrantListFilter) :
    ((userConsentGrants s.tables organizationId userId filter).map fun grant =>
      (⟨grant.createdAt, grant.id⟩ : ListCursor)).Nodup := by
  refine nodup_of_id (pairwise_join (.filter _ (pairwise_key s (t := .consentGrants) fun _ => rfl))
    (fun grant => length_filter_key s (k := .id grant.clientId) fun client hclient => ?_)
    fun _ _ => rfl)
  simp only [Bool.and_eq_true, decide_eq_true_eq] at hclient
  simp [Schema.entries, schema, hclient.1]

end nodup

end Database

end CairnId
