import CairnId.Bulk
import CairnId.Http.Pagination
import CairnId.Memberships

/-!
# Following a list to its end

The endpoints that list users, audit events and consent grants by `(created_at, id)`.
A request has its filter and its limit parsed, and the cursor as text; the requests that
follow a list each read their own state of the database.

## Main definitions

- `ListEndpoint` — the endpoints with their filters
- `FollowedList` — the requests from one cursor to the end

## Main results

- `followedList_iff` — text cursors page as the cursors do
- `lists_everything_once` — a list that is followed shows every row once, newest first
-/

namespace CairnId

open Concurrency Concurrency.Sql Database

inductive ListEndpoint where
  | users (filter : UserListFilter)
  | auditEvents (filter : AuditEventListFilter)
  | adminUserSecurityEvents (userId : UserId)
  | securityActivity (userId : UserId)
  | clientConsentGrants (clientId : ClientId) (filter : ConsentGrantListFilter)
  | sessionConsentGrants (userId : UserId) (filter : ConsentGrantListFilter)

namespace ListEndpoint

abbrev Item : ListEndpoint → Type
  | .users _ => User
  | .auditEvents _ => AuditEvent
  | .adminUserSecurityEvents _ => AuditEvent
  | .securityActivity _ => AuditEvent
  | .clientConsentGrants _ _ => ConsentGrantSummary
  | .sessionConsentGrants _ _ => UserConsentGrantSummary

def cursorForItem : (e : ListEndpoint) → e.Item → ListCursor
  | .users _, user => ⟨user.createdAt, user.id⟩
  | .auditEvents _, event => ⟨event.createdAt, event.id⟩
  | .adminUserSecurityEvents _, event => ⟨event.createdAt, event.id⟩
  | .securityActivity _, event => ⟨event.createdAt, event.id⟩
  | .clientConsentGrants _ _, grant => ⟨grant.createdAt, grant.id⟩
  | .sessionConsentGrants _ _, grant => ⟨grant.createdAt, grant.id⟩

def invalidCursorMessage : ListEndpoint → String
  | .securityActivity _ => "invalid session security activity cursor"
  | _ => "invalid admin list cursor"

section requests

variable (P : Primitives) (lower : String → String) (organizationId : OrganizationId)

def fetchRows (db : Db) : (e : ListEndpoint) → Option ListCursor → Int → List e.Item
  | .users filter => listUsersPageFiltered lower db organizationId filter
  | .auditEvents filter => listAuditEventsPageFiltered lower db organizationId filter
  | .adminUserSecurityEvents userId => listUserSecurityEventsPage db organizationId userId
  | .securityActivity userId => listUserSecurityEventsPage db organizationId userId
  | .clientConsentGrants clientId filter =>
    listConsentGrantsForClientPageFiltered db organizationId clientId filter
  | .sessionConsentGrants userId filter =>
    listConsentGrantsForUserPageFiltered db organizationId userId filter

/-- The rows that the filter of the endpoint selects. -/
def matching (db : Db) : (e : ListEndpoint) → List e.Item
  | .users filter => usersMatching lower db organizationId filter
  | .auditEvents filter => auditEventsMatching lower db organizationId filter
  | .adminUserSecurityEvents userId => userSecurityEvents db organizationId userId
  | .securityActivity userId => userSecurityEvents db organizationId userId
  | .clientConsentGrants clientId filter =>
    Database.clientConsentGrants db organizationId clientId filter
  | .sessionConsentGrants userId filter => userConsentGrants db organizationId userId filter

/-- One request: the limit and one row more are fetched behind the cursor. -/
def respond (e : ListEndpoint) (limit : Int) (db : Db) (cursor : Option String) :
    Except ApiError (ListPage e.Item) := do
  let after ← match cursor with
    | none => pure none
    | some value => some <$> decodeListCursor P value e.invalidCursorMessage
  return listPage (fetchRows lower organizationId db e after (limit + 1)) limit e.cursorForItem

/-- The requests from a cursor to the end, each with the database it read, show these items. -/
inductive FollowedList (e : ListEndpoint) (limit : Int) :
    List Store → Option String → List e.Item → Prop
  | last {store : Store} {cursor page} :
      respond P lower organizationId e limit store.tables cursor = .ok page →
      page.nextCursor = none → FollowedList e limit [store] cursor page.items
  | more {store : Store} {cursor page next stores items} :
      respond P lower organizationId e limit store.tables cursor = .ok page →
      page.nextCursor = some next → FollowedList e limit stores (some next) items →
      FollowedList e limit (store :: stores) cursor (page.items ++ items)

end requests

section page

variable {P : Primitives} {lower : String → String} {organizationId : OrganizationId}
  {e : ListEndpoint} {limit : Int}

theorem fetchRows_eq (db : Db) (after : Option ListCursor) :
    fetchRows lower organizationId db e after limit =
      (Keyset.remaining e.cursorForItem (matching lower organizationId db e) after).take
        limit.toNat := by
  cases e <;> exact newestFirst_eq _ _ _ _

theorem nodup_matching (s : Store) (e : ListEndpoint) :
    ((matching lower organizationId s.tables e).map e.cursorForItem).Nodup := by
  cases e with
  | users filter => exact nodup_usersMatching s filter
  | auditEvents filter => exact nodup_auditEvents s _
  | adminUserSecurityEvents userId => exact nodup_auditEvents s _
  | securityActivity userId => exact nodup_auditEvents s _
  | clientConsentGrants clientId filter => exact nodup_clientConsentGrants s clientId filter
  | sessionConsentGrants userId filter => exact nodup_userConsentGrants s userId filter

/-- With one row more than the limit, the page that is answered is the one to fetch. -/
theorem listPage_eq (hlimit : 0 < limit) (rows : List e.Item) (after : Option ListCursor) :
    listPage ((Keyset.remaining e.cursorForItem rows after).take (limit + 1).toNat) limit
        e.cursorForItem =
      ⟨(Keyset.fetch e.cursorForItem limit.toNat rows after).items,
        (Keyset.fetch e.cursorForItem limit.toNat rows after).next.map encodeAdminListCursor⟩ := by
  have hsucc : (limit + 1).toNat = limit.toNat + 1 := by omega
  rw [listPage, Keyset.fetch, hsucc]
  generalize hfound : (Keyset.remaining e.cursorForItem rows after).take (limit.toNat + 1) = found
  by_cases hmore : limit.toNat < found.length
  · simp only [if_pos hmore]
  · simp only [if_neg hmore, List.take_of_length_le (Nat.le_of_not_lt hmore), Option.map_none]

/-- A request with the text of a cursor fetches the page behind that cursor. -/
theorem respond_eq (hparse : ParsesUuids P) (hlimit : 0 < limit) (db : Db)
    {after : Option ListCursor} (hafter : ∀ c ∈ after, IsDateTime c.createdAt) :
    respond P lower organizationId e limit db (after.map encodeAdminListCursor) =
      .ok ⟨(Keyset.fetch e.cursorForItem limit.toNat (matching lower organizationId db e) after).items,
        (Keyset.fetch e.cursorForItem limit.toNat (matching lower organizationId db e) after).next.map
          encodeAdminListCursor⟩ := by
  rw [← listPage_eq hlimit, ← fetchRows_eq]
  cases after with
  | none => rfl
  | some cursor =>
    have hdecode := decodeListCursor_encode hparse (hafter cursor rfl) e.invalidCursorMessage
    simp only [respond, Option.map_some, hdecode]
    rfl

/-- Rows whose `created_at` is an instant. -/
def Dated (lower : String → String) (organizationId : OrganizationId) (e : ListEndpoint)
    (s : Store) : Prop :=
  ∀ r ∈ matching lower organizationId s.tables e, IsDateTime (e.cursorForItem r).createdAt

/-- The cursors that the pages give are those of rows. -/
theorem isDateTime_next {s : Store} (hdated : Dated lower organizationId e s)
    {after : Option ListCursor} {cursor : ListCursor}
    (h : (Keyset.fetch e.cursorForItem limit.toNat (matching lower organizationId s.tables e)
      after).next = some cursor) : IsDateTime cursor.createdAt := by
  obtain ⟨-, ⟨last, hlast, rfl⟩, -⟩ := Keyset.remaining_of_next (nodup_matching s e) h
  rw [Keyset.fetch_items] at hlast
  exact hdated last (Keyset.mem_remaining.mp (List.mem_of_mem_take hlast)).1

/-- **Refinement**: following the texts is following the cursors. -/
theorem followedList_iff (hparse : ParsesUuids P) (hlimit : 0 < limit) {stores : List Store}
    (hdated : ∀ s ∈ stores, Dated lower organizationId e s) {after : Option ListCursor}
    (hafter : ∀ c ∈ after, IsDateTime c.createdAt) {items : List e.Item} :
    FollowedList P lower organizationId e limit stores (after.map encodeAdminListCursor) items ↔
      Keyset.Followed e.cursorForItem limit.toNat
        (stores.map fun s => matching lower organizationId s.tables e) after items := by
  constructor
  · intro h
    generalize htext : after.map encodeAdminListCursor = text at h
    induction h generalizing after with
    | @last store text page hpage hnext =>
      subst htext
      rw [respond_eq hparse hlimit _ hafter] at hpage
      obtain rfl := Except.ok.inj hpage
      exact .last (Option.map_eq_none_iff.mp hnext)
    | @more store text page next stores items hpage hnext hrest ih =>
      subst htext
      rw [respond_eq hparse hlimit _ hafter] at hpage
      obtain rfl := Except.ok.inj hpage
      obtain ⟨cursor, hcursor, rfl⟩ := Option.map_eq_some_iff.mp hnext
      refine .more hcursor (ih (fun s hs => hdated s (.tail _ hs)) ?_ rfl)
      rintro c ⟨⟩
      exact isDateTime_next (hdated store (.head _)) hcursor
  · intro h
    generalize htables : (stores.map fun s => matching lower organizationId s.tables e) = tables at h
    induction h generalizing stores with
    | @last rows after hnext =>
      obtain ⟨store, rest, rfl, rfl, hrest⟩ := List.map_eq_cons_iff.mp htables
      obtain rfl := List.map_eq_nil_iff.mp hrest
      exact .last (respond_eq hparse hlimit _ hafter) (Option.map_eq_none_iff.mpr hnext)
    | @more rows after cursor tables items hnext _ ih =>
      obtain ⟨store, rest, rfl, rfl, hrest⟩ := List.map_eq_cons_iff.mp htables
      have hcursor : ∀ c ∈ some cursor, IsDateTime c.createdAt := by
        rintro c ⟨⟩
        exact isDateTime_next (hdated store (.head _)) hnext
      exact .more (respond_eq hparse hlimit _ hafter) (Option.map_eq_some_iff.mpr ⟨cursor, hnext, rfl⟩)
        (ih (fun s hs => hdated s (.tail _ hs)) hcursor hrest)

theorem perm_remaining {α : Type} (cursor : α → ListCursor) (rows : List α) :
    (Keyset.remaining cursor rows none).Perm rows := by
  refine (List.perm_insertionSort _ _).trans (.of_eq (List.filter_eq_self.mpr fun _ _ => ?_))
  rfl

theorem isDateTime_none : ∀ c ∈ (none : Option ListCursor), IsDateTime c.createdAt := nofun

/-- On a fixed database the requests come to an end. -/
theorem followedList_terminates (hparse : ParsesUuids P) (hlimit : 0 < limit) {s : Store}
    (hdated : Dated lower organizationId e s) :
    ∃ n items, FollowedList P lower organizationId e limit (List.replicate n s) none items := by
  have hpos : 0 < limit.toNat := by omega
  obtain ⟨n, hn⟩ := Keyset.followed_remaining (nodup_matching s e) hpos none
  rw [← List.map_replicate (f := fun s : Store => matching lower organizationId s.tables e)] at hn
  have hdated : ∀ t ∈ List.replicate n s, Dated lower organizationId e t :=
    fun t ht => List.eq_of_mem_replicate ht ▸ hdated
  exact ⟨n, _, (followedList_iff hparse hlimit hdated isDateTime_none).mpr hn⟩

/-- They show the rows of the list in their order. -/
theorem followedList_fixed (hparse : ParsesUuids P) (hlimit : 0 < limit) {s : Store}
    (hdated : Dated lower organizationId e s) {n : ℕ} {items : List e.Item}
    (h : FollowedList P lower organizationId e limit (List.replicate n s) none items) :
    items = Keyset.remaining e.cursorForItem (matching lower organizationId s.tables e) none := by
  have hdated : ∀ t ∈ List.replicate n s, Dated lower organizationId e t :=
    fun t ht => List.eq_of_mem_replicate ht ▸ hdated
  have hfollowed : Keyset.Followed e.cursorForItem limit.toNat _ none items :=
    (followedList_iff hparse hlimit hdated isDateTime_none).mp h
  refine hfollowed.eq_remaining (nodup_matching s e) (by omega) fun table htable => ?_
  rw [List.map_replicate] at htable
  exact List.eq_of_mem_replicate htable

/-- On changing databases a row that is always in the list is shown once. -/
theorem followedList_once (hparse : ParsesUuids P) (hlimit : 0 < limit) {stores : List Store}
    (hdated : ∀ s ∈ stores, Dated lower organizationId e s) {items : List e.Item}
    (h : FollowedList P lower organizationId e limit stores none items) {row : ListCursor}
    (hrow : ∀ s ∈ stores, ∃ r ∈ matching lower organizationId s.tables e, e.cursorForItem r = row) :
    items.countP (fun item => e.cursorForItem item = row) = 1 := by
  have hfollowed : Keyset.Followed e.cursorForItem limit.toNat _ none items :=
    (followedList_iff hparse hlimit hdated isDateTime_none).mp h
  refine (hfollowed.once (by omega) fun table htable => ?_).trans (if_pos nofun)
  obtain ⟨s, hs, rfl⟩ := List.mem_map.mp htable
  exact ⟨nodup_matching s e, hrow s hs⟩

end page

end ListEndpoint

open ListEndpoint

/-- **Everything once**: followed on one state of the database, a list ends, and has shown the
    rows that it selects, each once and in strictly decreasing order; followed while other
    rows come and go, it shows every row that stayed once; and the text of a cursor is read
    back as that cursor. -/
theorem lists_everything_once {P : Primitives} (hparse : ParsesUuids P) (lower : String → String)
    (organizationId : OrganizationId) (e : ListEndpoint) {limit : Int} (hlimit : 1 ≤ limit) :
    (∀ s : Store, Dated lower organizationId e s →
      (∃ n items, FollowedList P lower organizationId e limit (List.replicate n s) none items) ∧
      ∀ n items, FollowedList P lower organizationId e limit (List.replicate n s) none items →
        items.Pairwise (fun a b => e.cursorForItem b < e.cursorForItem a) ∧
        items.Perm (matching lower organizationId s.tables e)) ∧
    (∀ (stores : List Store) (items : List e.Item) (row : ListCursor),
      (∀ s ∈ stores, Dated lower organizationId e s) →
      FollowedList P lower organizationId e limit stores none items →
      (∀ s ∈ stores, ∃ r ∈ matching lower organizationId s.tables e, e.cursorForItem r = row) →
      items.countP (fun item => e.cursorForItem item = row) = 1) ∧
    ∀ (cursor : ListCursor) (message : String), IsDateTime cursor.createdAt →
      decodeListCursor P (encodeAdminListCursor cursor) message = .ok cursor := by
  refine ⟨fun s hdated => ⟨followedList_terminates hparse hlimit hdated, fun n items h => ?_⟩,
    fun stores items row hdated h hrow => followedList_once hparse hlimit hdated h hrow,
    fun cursor message h => decodeListCursor_encode hparse h message⟩
  rw [followedList_fixed hparse hlimit hdated h]
  exact ⟨Keyset.pairwise_remaining (nodup_matching s e), perm_remaining _ _⟩

namespace Sample

theorem team_dated :
    Dated asciiLowercase 1 (.users ⟨none, some .active⟩) team.store := by
  change ∀ r ∈ usersMatching asciiLowercase teamTables 1 ⟨none, some .active⟩, IsDateTime r.createdAt
  decide

/-- Two users of one instant, a page for each. -/
theorem lists_everything_once_team : ∃ n items,
    FollowedList hexPrimitives asciiLowercase 1 (.users ⟨none, some .active⟩) 1
      (List.replicate n team.store) none items ∧ items.Perm [user, colleague] := by
  obtain ⟨hfixed, -, -⟩ := lists_everything_once hexPrimitives_parsesUuids asciiLowercase 1
    (.users ⟨none, some .active⟩) (le_refl (1 : Int))
  obtain ⟨⟨n, items, hitems⟩, hall⟩ := hfixed team.store team_dated
  refine ⟨n, items, hitems, (hall n items hitems).2.trans (.of_eq ?_)⟩
  change usersMatching asciiLowercase teamTables 1 ⟨none, some .active⟩ = _
  decide

end Sample

end CairnId
