import CairnId.Database.OwnerGuards

/-!
# Where an owner comes from

Three methods of `Database` make a user the owner of a group; after any other, whoever
owns the group with a slug has owned it before. A group that is new has no owner: the
foreign keys of memberships do not let one wait for it.

## Main definitions

- `Tame` — a statement that leaves alone what memberships refer to
- `DbCall.granted` — the user whom a method may make an owner

## Main results

- `DbCall.tx_tame` — every method but the deletion of a group is made of such statements
- `DbCall.exec_refers_memberships` — memberships keep the groups and users they refer to
- `DbCall.isOwner_of_exec` — an owner was one before, or is the user of a grant
-/

namespace CairnId

open Concurrency Concurrency.Sql Prog

namespace Database

/-- The tables that memberships refer to, and their own. -/
def membershipTables : List Tab := [.organizations, .users, .groups, .memberships]

/-- Users and groups stay what memberships refer to, and only the user who is granted it
    gets the role of an owner. -/
def Tame (granted : Option UserId) : Stmt Row → Prop
  | .update .users _ f => ∀ r, (f r).user.id = r.user.id ∧
      (f r).user.organizationId = r.user.organizationId
  | .update .groups _ f => ∀ g, (f g).id = g.id ∧ (f g).organizationId = g.organizationId ∧
      (f g).slug = g.slug
  | .insert .memberships m => m.role = .owner → granted = some m.userId
  | .upsert .memberships m f => (m.role = .owner → granted = some m.userId) ∧
      ∀ old, f old = { old with role := m.role }
  | .update t _ _ | .upsert t _ _ => t ∉ membershipTables
  | .delete t _ => t = .memberships ∨ t ∉ membershipTables
  | .select | .lock _ _ _ | .insert _ _ => True

section tame

variable {granted : Option UserId}

theorem tame_of_target {e : Stmt Row} (h : e.target = none) : Tame granted e := by
  cases e with
  | select | lock => trivial
  | update | insert | upsert | delete => cases h

/-- A statement that has nothing to do with memberships. -/
theorem tame_of_not_mem {e : Stmt Row} (h : ∀ t ∈ e.target, t ∉ membershipTables) :
    Tame granted e := by
  cases e with
  | select | lock => trivial
  | update t p f | upsert t r f =>
    have ht := h t rfl
    cases t with
    | organizations | users | groups | memberships => exact absurd (by decide) ht
    | _ => exact ht
  | insert t r =>
    have ht := h t rfl
    cases t with
    | memberships => exact absurd (by decide) ht
    | _ => trivial
  | delete t p => exact .inr (h t rfl)

theorem tame_of_reads {α : Type} {p : Statements α} (hp : p.All Reads) :
    p.All (Tame granted) := hp.mono fun _ he => tame_of_target he

theorem tame_of_within {α : Type} {p : Statements α} {tabs : List Tab}
    (htabs : ∀ t ∈ membershipTables, t ∉ tabs) (hp : p.All (Within tabs)) :
    p.All (Tame granted) :=
  hp.mono fun _ he => tame_of_not_mem fun t ht hmem => htabs t hmem (he t ht)

theorem tame_of_credentials {α : Type} {p : Statements α} (hp : p.All (Within credentialTables)) :
    p.All (Tame granted) := tame_of_within (by decide) hp

/-- The update of a table that memberships have nothing to do with. -/
theorem tame_update {t : Tab} (ht : t ∉ membershipTables) (p : Db → Row t → Bool)
    (f : Row t → Row t) : (update t p f).All (Tame granted) :=
  .perform (tame_of_not_mem fun _ h => Option.some.inj h ▸ ht)

theorem tame_insert {t : Tab} (ht : t ≠ .memberships) (r : Row t) :
    (insert t r).All (Tame granted) := by
  refine .perform ?_
  cases t with
  | memberships => exact absurd rfl ht
  | _ => trivial

theorem tame_updateUsers (p : Db → UserWithPassword → Bool)
    {f : UserWithPassword → UserWithPassword} (hid : ∀ r, (f r).user.id = r.user.id)
    (ho : ∀ r, (f r).user.organizationId = r.user.organizationId) :
    (update .users p f).All (Tame granted) := .perform fun r => ⟨hid r, ho r⟩

theorem tame_upsertMembership {m : Membership} (h : m.role = .owner → granted = some m.userId) :
    (upsertMembership m).All (Tame granted) :=
  .bind (.perform ⟨h, fun _ => rfl⟩) fun _ => .ret _

theorem tame_insertScimGroupMemberIds (o : OrganizationId) (g : GroupId) (i : OffsetDateTime)
    (us : List UserId) : (insertScimGroupMemberIds o g i us).All (Tame granted) := by
  induction us with
  | nil => trivial
  | cons u us ih => exact .bind (tame_upsertMembership nofun) fun _ => ih

theorem tame_revokeUserRuntimeCredentials (o : OrganizationId) (u : UserId) (i : OffsetDateTime) :
    (revokeUserRuntimeCredentials o u i).All (Tame granted) :=
  tame_of_credentials (within_revokeUserRuntimeCredentials (by decide) (by decide) (by decide) ..)

-- the methods

theorem tame_createBootstrapAdmin (user : User) (hash : String) (group : Group)
    {membership : Membership} (h : membership.role = .owner → granted = some membership.userId) :
    (createBootstrapAdmin user hash group membership).All (Tame granted) := by
  refine .bind (tame_of_reads (reads_lock ..)) fun org => .bind (.when (.fail _)) fun _ =>
    .bind (tame_of_reads reads_select) fun db => ?_
  split
  · trivial
  · exact .bind (tame_insert (by decide) _) fun _ => .bind (tame_insert (by decide) _) fun _ =>
      .bind (.perform h) fun _ => .ret _

theorem tame_updateUserStatus (o : OrganizationId) (u : UserId) (status : UserStatus)
    (slug : String) (i : OffsetDateTime) :
    (updateUserStatus o u status slug i).All (Tame granted) := by
  refine .bind (tame_of_reads (reads_lockedUserForUpdate ..)) fun existing => ?_
  split
  · refine .bind (tame_of_reads (reads_deactivationWouldRemoveLastOwner ..)) fun refused => ?_
    split
    · trivial
    · exact .bind (tame_updateUsers _ (fun _ => rfl) fun _ => rfl) fun _ =>
        .bind (all_fetchOne _) fun _ =>
        .bind (.when (tame_revokeUserRuntimeCredentials ..)) fun _ => .ret _
  · trivial

theorem tame_updateUserFromScim (input : ScimUserUpdateInput) :
    (updateUserFromScim input).All (Tame granted) := by
  refine .bind (tame_of_reads (reads_lockedUserForUpdate ..)) fun existing => ?_
  split
  · refine .bind (tame_of_reads (.bind reads_select fun _ => .ret _)) fun taken => ?_
    split
    · trivial
    refine .bind (tame_of_reads (reads_userExternalIdTaken ..)) fun taken => ?_
    split
    · trivial
    refine .bind (tame_of_reads (reads_deactivationWouldRemoveLastOwner ..)) fun refused => ?_
    split
    · trivial
    exact .bind (tame_updateUsers _ (fun _ => rfl) fun _ => rfl) fun _ =>
      .bind (all_fetchOne _) fun _ =>
      .bind (.when (.bind (tame_update (by decide) _ _) fun _ => .ret _)) fun _ =>
      .bind (.when (tame_revokeUserRuntimeCredentials ..)) fun _ => .ret _
  · trivial

theorem tame_consumeAccountTokenAndSetUserEmailVerified (t : Uuid) (u : UserId)
    (i : OffsetDateTime) :
    (consumeAccountTokenAndSetUserEmailVerified t u i).All (Tame granted) := by
  refine .bind (tame_update (by decide) _ _) fun consumed => ?_
  split
  · trivial
  refine .bind (tame_updateUsers _ (fun _ => rfl) fun _ => rfl) fun updated => ?_
  split <;> trivial

theorem tame_consumeAccountTokenAndSetUserPassword (t : Uuid) (u : UserId) (hash : String)
    (verified revoke : Bool) (i : OffsetDateTime) :
    (consumeAccountTokenAndSetUserPassword t u hash verified revoke i).All (Tame granted) := by
  refine .bind (tame_update (by decide) _ _) fun consumed => ?_
  split
  · trivial
  refine .bind (tame_updateUsers _ (fun _ => rfl) fun _ => rfl) fun updated => ?_
  split
  · trivial
  · exact .bind (.when (.bind (tame_update (by decide) _ _) fun _ => .ret _)) fun _ => .ret _

theorem tame_consumePasswordRecoveryTokenAndResetUserPassword (input : PasswordRecoveryInput) :
    (consumePasswordRecoveryTokenAndResetUserPassword input).All (Tame granted) := by
  refine .bind (tame_update (by decide) _ _) fun consumed => ?_
  split
  · trivial
  refine .bind (tame_updateUsers _ (fun _ => rfl) fun _ => rfl) fun updated => ?_
  split
  · trivial
  apply tame_of_credentials
  exact .bind (within_update (by decide) ..) fun _ =>
    .bind (within_revokeLiveUserSessions (by decide) ..) fun _ =>
    .bind (within_revokeLiveUserTokens (by decide) (by decide) ..) fun _ =>
    .bind (within_insertNotification (by decide) _) fun _ => .ret _

theorem tame_changeUserPasswordAndRotateSession (input : PasswordChangeInput) :
    (changeUserPasswordAndRotateSession input).All (Tame granted) := by
  refine .bind (tame_of_reads (reads_lock ..)) fun locked => ?_
  split
  · trivial
  refine .bind (tame_updateUsers _ (fun _ => rfl) fun _ => rfl) fun _ => ?_
  apply tame_of_credentials
  exact .bind (within_revokeLiveUserSessions (by decide) ..) fun _ =>
    .bind (within_insert (by decide) _) fun _ =>
    .bind (within_revokeLiveUserTokens (by decide) (by decide) ..) fun _ =>
    .bind (within_update (by decide) ..) fun _ =>
    .bind (within_insertNotification (by decide) _) fun _ => .ret _

theorem tame_upsertGroupMembership {m : Membership} (slug : String)
    (h : m.role = .owner → granted = some m.userId) :
    (upsertGroupMembership m slug).All (Tame granted) := by
  refine .bind (tame_of_reads (reads_lockedGroup ..)) fun group => ?_
  split
  · refine .bind (tame_of_reads (reads_userExists ..)) fun found => ?_
    split
    · trivial
    refine .bind (tame_of_reads (reads_lockedMembershipRole ..)) fun role =>
      .bind (tame_of_reads (reads_lastOwnerCheck ..)) fun refused => ?_
    split
    · trivial
    · exact .bind (tame_upsertMembership h) fun _ => .ret _
  · trivial

theorem tame_deleteGroupMembership (o : OrganizationId) (g : GroupId) (u : UserId)
    (slug : String) : (deleteGroupMembership o g u slug).All (Tame granted) := by
  refine .bind (tame_of_reads (reads_lockedGroup ..)) fun group => ?_
  split
  · refine .bind (tame_of_reads (reads_lockedMembershipRole ..)) fun role => ?_
    split
    · refine .bind (tame_of_reads (reads_lastOwnerCheck ..)) fun refused => ?_
      split
      · trivial
      · exact .bind (.perform (.inl rfl)) fun _ => .ret _
    · trivial
  · trivial

theorem tame_createScimGroup (g : Group) (us : List UserId) :
    (createScimGroup g us).All (Tame granted) := by
  refine .bind (tame_of_reads (.bind reads_select fun _ => .ret _)) fun taken => ?_
  split
  · trivial
  refine .bind (tame_of_reads (reads_groupExternalIdTaken ..)) fun taken => ?_
  split
  · trivial
  refine .bind (tame_of_reads (reads_allUsersExist ..)) fun found => ?_
  split
  · trivial
  · exact .bind (tame_insert (by decide) _) fun _ =>
      .bind (tame_insertScimGroupMemberIds ..) fun _ => .ret _

theorem tame_replaceScimGroup (input : ScimGroupReplaceInput) :
    (replaceScimGroup input).All (Tame granted) := by
  refine .bind (tame_of_reads (reads_lockedGroup ..)) fun group => ?_
  split
  · split
    · trivial
    refine .bind (tame_of_reads (reads_groupExternalIdTaken ..)) fun taken => ?_
    split
    · trivial
    refine .bind (tame_of_reads (reads_allUsersExist ..)) fun found => ?_
    split
    · trivial
    exact .bind (.perform fun _ => ⟨rfl, rfl, rfl⟩) fun _ => .bind (all_fetchOne _) fun _ =>
      .bind (.perform (.inl rfl)) fun _ => .bind (tame_insertScimGroupMemberIds ..) fun _ => .ret _
  · trivial

theorem tame_breakGlassGrantAdminOwner (o : OrganizationId) {u : UserId} (g : Group)
    (i : OffsetDateTime) (event : AuditEvent) (h : granted = some u) :
    (breakGlassGrantAdminOwner o u g i event).All (Tame granted) := by
  refine .bind (tame_of_reads (reads_lock ..)) fun org => .bind (.when (.fail _)) fun _ =>
    .bind (tame_of_reads (reads_lockedUserForUpdate ..)) fun user => ?_
  split
  · refine .bind (tame_of_reads (reads_lock ..)) fun rows => .bind ?_ fun group => ?_
    · split
      · trivial
      · exact .bind (tame_insert (by decide) _) fun _ => .ret _
    · exact .bind (tame_of_reads (reads_lockedMembershipRole ..)) fun _ =>
        .bind (tame_upsertMembership fun _ => h) fun _ =>
        .bind (tame_updateUsers _ (fun _ => rfl) fun _ => rfl) fun _ =>
        .bind (all_fetchOne _) fun _ => .bind (tame_insert (by decide) _) fun _ => .ret _
  · trivial

end tame

end Database

open Database

namespace DbCall

/-- The user whom a method may make an owner. -/
def granted : DbCall → Option UserId
  | .createBootstrapAdmin _ _ _ m | .upsertGroupMembership m _ =>
    if m.role = .owner then some m.userId else none
  | .breakGlassGrantAdminOwner _ u _ _ _ => some u
  | _ => none

/-- The method deletes a group. -/
def deletesGroup : DbCall → Bool
  | .deleteScimGroup .. => true
  | _ => false

theorem tx_tame {c : DbCall} (hc : c.deletesGroup = false) : c.tx.All (Tame c.granted) := by
  by_cases hwrites : ∀ t ∈ membershipTables, t ∉ c.writes
  · exact tame_of_within hwrites c.tx_writes
  cases c with
  | createOrganization =>
    refine .bind (tame_of_reads reads_select) fun db => ?_
    split
    · trivial
    · exact .bind (tame_insert (by decide) _) fun _ => .ret _
  | createUser | createGroup => exact .bind (tame_insert (by decide) _) fun _ => .ret _
  | createBootstrapAdmin => exact tame_createBootstrapAdmin _ _ _ fun h => if_pos h
  | setUserLastLogin =>
    exact .bind (tame_updateUsers _ (fun _ => rfl) fun _ => rfl) fun _ => .ret _
  | updateUserStatus => exact tame_updateUserStatus ..
  | updateUserFromScim => exact tame_updateUserFromScim _
  | consumeAccountTokenAndSetUserEmailVerified =>
    exact tame_consumeAccountTokenAndSetUserEmailVerified ..
  | consumeAccountTokenAndSetUserPassword => exact tame_consumeAccountTokenAndSetUserPassword ..
  | consumePasswordRecoveryTokenAndResetUserPassword =>
    exact tame_consumePasswordRecoveryTokenAndResetUserPassword _
  | changeUserPasswordAndRotateSession => exact tame_changeUserPasswordAndRotateSession _
  | upsertGroupMembership => exact tame_upsertGroupMembership _ fun h => if_pos h
  | deleteGroupMembership => exact tame_deleteGroupMembership ..
  | createScimGroup => exact tame_createScimGroup ..
  | replaceScimGroup => exact tame_replaceScimGroup _
  | deleteScimGroup => cases hc
  | breakGlassGrantAdminOwner => exact tame_breakGlassGrantAdminOwner _ _ _ _ rfl
  | _ => exact absurd (by simp [writes, membershipTables]) hwrites

end DbCall

namespace Database

-- ════════════════════════════════════════════════════════════════════════
-- What such statements keep
-- ════════════════════════════════════════════════════════════════════════

section keeps

variable {granted : Option UserId} {e : Stmt Row} {s s' : Store}

theorem mem_membershipTables {m : Membership} {t : Tab} {k : Key}
    (h : (t, k) ∈ schema.refs .memberships m) : t ∈ membershipTables ∧ t ≠ .memberships := by
  simp only [schema, List.mem_cons, Prod.mk.injEq, List.not_mem_nil, or_false] at h
  rcases h with ⟨rfl, -⟩ | ⟨rfl, -⟩ | ⟨rfl, -⟩ <;> decide

/-- They keep what memberships refer to. -/
theorem Tame.keepsRefs (he : Tame granted e) : KeepsRefs e := by
  cases e with
  | select | lock | insert => trivial
  | update t p f =>
    cases t with
    | users =>
      refine ⟨fun ht => absurd ht (by decide), fun m r k hk hr => ?_⟩
      obtain rfl : k = .tenant m.userId m.organizationId := by simpa [schema] using hk
      simp [Schema.entries, schema] at hr
      simp [Schema.entries, schema, he r, hr]
    | groups =>
      refine ⟨fun ht => absurd ht (by decide), fun m r k hk hr => ?_⟩
      obtain rfl : k = .tenant m.groupId m.organizationId := by simpa [schema] using hk
      simp [Schema.entries, schema] at hr
      simp [Schema.entries, schema, he r, hr]
    | organizations | memberships => exact absurd (by decide) he
    | _ =>
      exact ⟨fun ht => absurd ht (by decide), fun m r k hk _ =>
        absurd (mem_membershipTables hk).1 (by decide)⟩
  | upsert t r f =>
    cases t with
    | memberships =>
      refine ⟨fun _ old => ?_, fun m r k hk _ => absurd rfl (mem_membershipTables hk).2⟩
      rw [he.2 old]
      rfl
    | organizations | users | groups => exact absurd (by decide) he
    | _ =>
      exact ⟨fun ht => absurd ht (by decide), fun m r k hk _ =>
        absurd (mem_membershipTables hk).1 (by decide)⟩
  | delete t p =>
    intro m k hk
    obtain ⟨hmem, hne⟩ := mem_membershipTables hk
    exact he.elim hne fun hnot => hnot hmem

/-- The groups, by what memberships refer to and their slugs. -/
def groupIdentities : Keeping Row where
  counts
    | .groups, _ => True
    | _, _ => False
  step
    | .groups, a, b => b.id = a.id ∧ b.organizationId = a.organizationId ∧ b.slug = a.slug
    | _, _, _ => True
  refl t r := by cases t <;> simp
  trans t a b c h h' := by
    cases t with
    | groups => exact ⟨h'.1.trans h.1, h'.2.1.trans h.2.1, h'.2.2.trans h.2.2⟩
    | _ => trivial
  carry t a b ha h := by
    cases t with
    | groups => trivial
    | _ => exact ha

theorem Tame.keepsGroups (he : Tame granted e) : e.Keeps schema groupIdentities := by
  cases e with
  | select | lock | insert => trivial
  | update t p f =>
    intro db r _ hcounts
    cases t with
    | groups => exact he r
    | _ => exact hcounts.elim
  | upsert t r f =>
    intro old _ hcounts
    cases t with
    | groups => exact absurd (by decide) he
    | _ => exact hcounts.elim
  | delete t p =>
    intro db r _ hcounts
    cases t with
    | groups => exact he.elim nofun fun h => h (by decide)
    | _ => exact hcounts.elim

/-- Only the user who is granted it becomes an owner. -/
def OwnersOnly (granted : Option UserId) : (t : Tab) → Row t → Prop
  | .memberships, m => m.role = .owner → granted = some m.userId
  | _, _ => True

theorem Tame.writesOnly (he : Tame granted e) : e.WritesOnly schema (OwnersOnly granted) := by
  cases e with
  | select | lock | delete => trivial
  | update t p f =>
    intro db r _
    cases t with
    | memberships => exact absurd (by decide) he
    | _ => trivial
  | insert t r =>
    cases t with
    | memberships => exact he
    | _ => trivial
  | upsert t r f =>
    cases t with
    | memberships =>
      refine ⟨he.1, fun old hkey hrole => ?_⟩
      rw [he.2 old] at hrole ⊢
      have hsame : old.userId = r.userId ∧ old.groupId = r.groupId := by
        simpa [schema] using hkey
      show granted = some old.userId
      rw [hsame.1]
      exact he.1 hrole
    | _ => exact ⟨trivial, fun _ _ => trivial⟩

-- the deletion of a group

/-- A deletion takes the group and its memberships away, or nothing. -/
theorem exec_deleteScimGroup {o : OrganizationId} {id : GroupId} {slug : String}
    {r : Except DatabaseError ScimGroupMutationOutcome}
    (h : (DbCall.deleteScimGroup o id slug).exec s = (r, s')) :
    s' = s ∨
      s'.tables .groups = (s.tables .groups).filter
          (fun g => !decide (g.organizationId = o ∧ g.id = id)) ∧
        s'.tables .memberships = (s.tables .memberships).filter
          (fun m => !decide (m.groupId = id ∧ m.organizationId = o)) := by
  rcases Tx.atomic_cases h with ⟨a, -, hrun⟩ | ⟨a, s₁, -, -, hs⟩ | ⟨e, -, hs⟩
  · obtain ⟨group, s₁, hlock, hrest⟩ := Stmts.run_bind_eq_ok.mp hrun
    obtain rfl := (Stmts.run_readonly (reads_lockedGroup ..) hlock).symm
    cases group with
    | none => cases hrest
    | some group =>
      dsimp only at hrest
      split at hrest
      · cases hrest
      obtain ⟨groups, s₁, hgroups, hrest⟩ := Stmts.run_bind_eq_ok.mp hrest
      obtain ⟨members, s₂, hmembers, hrest⟩ := Stmts.run_bind_eq_ok.mp hrest
      cases hrest
      have h₁ := run_delete_eq_ok hgroups
      have h₂ := run_delete_eq_ok hmembers
      refine .inr ⟨?_, ?_⟩
      · rw [h₂, Function.update_of_ne (by decide), h₁, Function.update_self]
      · rw [h₂, Function.update_self, h₁, Function.update_of_ne (by decide)]
  · exact .inl hs
  · exact .inl hs

end keeps

end Database

namespace DbCall

variable {c : DbCall} {s : Store} {slug : String} {o : OrganizationId} {u : UserId}

/-- Memberships keep the groups and users that they refer to. -/
theorem exec_refers_memberships (c : DbCall) (hrefers : schema.Refers .memberships s.tables) :
    schema.Refers .memberships (c.exec s).2.tables := by
  by_cases hc : c.deletesGroup = false
  · refine Tx.atomic_refers ?_ (rfl : Tx.atomic DatabaseError.sqlx c.tx s = _) hrefers
    exact (tx_tame hc).mono fun _ he => he.keepsRefs
  cases c with
  | deleteScimGroup o id slug =>
    obtain ⟨r, s', hexec⟩ : ∃ r s', (DbCall.deleteScimGroup o id slug).exec s = (r, s') :=
      ⟨_, _, rfl⟩
    have hframe {t : Tab} (ht : t ∉ (DbCall.deleteScimGroup o id slug).writes) :
        s'.tables t = s.tables t := by
      have h := exec_frame ht s
      rwa [hexec] at h
    rw [hexec]
    rcases exec_deleteScimGroup hexec with hsame | ⟨hgroups, hmembers⟩
    · rwa [hsame]
    · intro m hm x hx
      rw [hmembers, List.mem_filter] at hm
      obtain ⟨hm, hstays⟩ := hm
      obtain ⟨r, hr, hk⟩ := hrefers m hm x hx
      by_cases ht : x.1 = .groups
      · obtain ⟨t, k⟩ := x
        obtain rfl : t = .groups := ht
        obtain rfl : k = .tenant m.groupId m.organizationId := by simpa [schema] using hx
        obtain ⟨hid, horg⟩ : m.groupId = r.id ∧ m.organizationId = r.organizationId := by
          simpa [Schema.entries, schema] using hk
        refine ⟨r, ?_, hk⟩
        rw [hgroups, List.mem_filter]
        refine ⟨hr, ?_⟩
        rw [Bool.not_eq_true', decide_eq_false_iff_not] at hstays ⊢
        exact fun hdeleted => hstays ⟨hid.trans hdeleted.2, horg.trans hdeleted.1⟩
      · refine ⟨r, ?_, hk⟩
        rw [hframe]
        · exact hr
        · simp only [writes, List.mem_cons, List.not_mem_nil, or_false, not_or]
          exact ⟨ht, (mem_membershipTables hx).2⟩
  | _ => exact absurd rfl hc

/-- **Provenance**: whoever owns a group after a method has owned it before, or is the user
    whom the method makes an owner. -/
theorem isOwner_of_exec (hrefers : schema.Refers .memberships s.tables)
    (howner : IsOwner slug o u (c.exec s).2.tables) :
    IsOwner slug o u s.tables ∨ c.granted = some u := by
  obtain ⟨g, hg, hgo, hslug, m, hm, hmo, hmg, rfl, hrole⟩ := howner
  by_cases hc : c.deletesGroup = false
  · have hexec : Tx.atomic DatabaseError.sqlx c.tx s = (_, (c.exec s).2) := rfl
    have hnew : NewRows (OwnersOnly c.granted) s.tables (c.exec s).2.tables :=
      Tx.atomic_newRows ((tx_tame hc).mono fun _ he => he.writesOnly) hexec
    have hkept : Kept groupIdentities s.tables (c.exec s).2.tables :=
      Tx.atomic_kept ((tx_tame hc).mono fun _ he => he.keepsGroups) hexec
    rcases hnew .memberships m hm with hold | hgranted
    · -- the group that the membership refers to is the one it is of now
      obtain ⟨g₀, hg₀, hentry⟩ := hrefers m hold (.groups, .tenant m.groupId m.organizationId)
        (by simp [schema])
      obtain ⟨hid, horg⟩ : m.groupId = g₀.id ∧ m.organizationId = g₀.organizationId := by
        simpa [Schema.entries, schema] using hentry
      obtain ⟨g', hg', hid', -, hslug'⟩ := hkept .groups g₀ hg₀ trivial
      have hsame : g' = g := ((c.exec s).2.unique .groups).eq_of_key hg' hg (by
        simp [schema, hid', ← hid, hmg])
      subst hsame
      refine .inl ⟨g₀, hg₀, horg.symm.trans hmo, hslug'.symm.trans hslug, m, hold, hmo, hid, rfl,
        hrole⟩
    · exact .inr (hgranted hrole)
  · cases c with
    | deleteScimGroup o' id slug' =>
      left
      obtain ⟨r, s', hexec⟩ : ∃ r s', (DbCall.deleteScimGroup o' id slug').exec s = (r, s') :=
        ⟨_, _, rfl⟩
      rw [hexec] at hg hm
      rcases exec_deleteScimGroup hexec with hsame | ⟨hgroups, hmembers⟩
      · rw [hsame] at hg hm
        exact ⟨g, hg, hgo, hslug, m, hm, hmo, hmg, rfl, hrole⟩
      · rw [hgroups] at hg
        rw [hmembers] at hm
        exact ⟨g, (List.mem_filter.mp hg).1, hgo, hslug, m, (List.mem_filter.mp hm).1, hmo, hmg,
          rfl, hrole⟩
    | _ => exact absurd rfl hc

end DbCall

end CairnId
