import CairnId.Concurrency.Keeping
import CairnId.Database.Frames
import CairnId.Database.Memberships

/-!
# The owners of a protected group

Who owns the group with a slug, and the methods of `Database` that leave its owners as
they are: all that protect the slug but the four that look who is left.

## Main definitions

- `IsOwner` — a user owns the group with a slug
- `HasActiveOwner` — the group has an owner who is active
- `DbCall.Protects` — a method that protects the group with a slug
- `DbCall.isGuarded` — a method that looks who is left

## Main results

- `userHasGroupRole_owner` — what the query for a role finds
- `DbCall.exec_keepsOwners` — methods without a guard keep the owners
-/

namespace CairnId

open Concurrency Concurrency.Sql Prog

namespace Database

/-- The user owns the group of the organization with the slug. -/
def IsOwner (slug : String) (organizationId : OrganizationId) (userId : UserId) (db : Db) : Prop :=
  ∃ g ∈ db .groups, g.organizationId = organizationId ∧ g.slug = slug ∧
    ∃ m ∈ db .memberships, m.organizationId = organizationId ∧ m.groupId = g.id ∧
      m.userId = userId ∧ m.role = .owner

/-- The user is an active user of the organization. -/
def IsActive (organizationId : OrganizationId) (userId : UserId) (db : Db) : Prop :=
  ∃ row ∈ db .users, row.user.id = userId ∧ row.user.organizationId = organizationId ∧
    row.user.status = .active

/-- The group with the slug is there, and one of its owners is active. -/
def HasActiveOwner (slug : String) (organizationId : OrganizationId) (db : Db) : Prop :=
  ∃ userId, IsOwner slug organizationId userId db ∧ IsActive organizationId userId db

instance (slug : String) (o : OrganizationId) (u : UserId) (db : Db) :
    Decidable (IsOwner slug o u db) :=
  inferInstanceAs (Decidable (∃ g ∈ db .groups, g.organizationId = o ∧ g.slug = slug ∧
    ∃ m ∈ db .memberships, _))

variable {slug : String} {o : OrganizationId} {u : UserId} {db db' : Db} {s s' : Store}

theorem userHasGroupRole_owner {r : Except DatabaseError Bool}
    (h : (DbCall.userHasGroupRole o u slug [.owner]).exec s = (r, s')) :
    s' = s ∧ (r = .ok true ↔ IsOwner slug o u s.tables) := by
  cases h
  refine ⟨rfl, ?_⟩
  show Except.ok ((s.tables .memberships).any _) = .ok true ↔ _
  simp only [Except.ok.injEq, List.any_eq_true, decide_eq_true_eq, IsOwner, List.mem_singleton]
  constructor
  · rintro ⟨m, hm, rfl, rfl, hrole, g, hg, hid, ho, hslug⟩
    exact ⟨g, hg, ho, hslug, m, hm, rfl, hid.symm, rfl, hrole⟩
  · rintro ⟨g, hg, rfl, rfl, m, hm, ho, hid, rfl, hrole⟩
    exact ⟨m, hm, ho, rfl, hrole, g, hg, hid.symm, ho.symm, rfl⟩

-- ════════════════════════════════════════════════════════════════════════
-- What keeps the owners of a group
-- ════════════════════════════════════════════════════════════════════════

/-- The group, its owners, and the users who are active. -/
def ownersOf (groupId : GroupId) : Keeping Row where
  counts
    | .users, r => r.user.status = .active
    | .groups, g => g.id = groupId
    | .memberships, m => m.groupId = groupId ∧ m.role = .owner
    | _, _ => False
  step
    | .users, a, b => b.user.id = a.user.id ∧ b.user.organizationId = a.user.organizationId ∧
        (a.user.status = .active → b.user.status = .active)
    | .groups, a, b => b.id = a.id ∧ b.organizationId = a.organizationId ∧ b.slug = a.slug
    | .memberships, a, b => b = a
    | _, _, _ => True
  refl t r := by cases t <;> simp
  trans t a b c h h' := by
    cases t with
    | users => exact ⟨h'.1.trans h.1, h'.2.1.trans h.2.1, fun ha => h'.2.2 (h.2.2 ha)⟩
    | groups => exact ⟨h'.1.trans h.1, h'.2.1.trans h.2.1, h'.2.2.trans h.2.2⟩
    | memberships => exact Eq.trans h' h
    | _ => trivial
  carry t a b ha h := by
    cases t with
    | users => exact h.2.2 ha
    | groups => exact h.1.trans ha
    | memberships =>
      obtain rfl : b = a := h
      exact ha
    | _ => exact ha

variable {gid : GroupId}

/-- The statement keeps the owners of the group. -/
abbrev KeepsOwners (gid : GroupId) (e : Stmt Row) : Prop := e.Keeps schema (ownersOf gid)

theorem HasActiveOwner.of_kept {g : Group} (hg : g ∈ db .groups) (ho : g.organizationId = o)
    (hslug : g.slug = slug) (hid : g.id = gid)
    (howner : ∃ m ∈ db .memberships, activeOwner db o gid m = true)
    (hkept : Kept (ownersOf gid) db db') : HasActiveOwner slug o db' := by
  obtain ⟨m, hm, hactive⟩ := howner
  simp only [activeOwner, decide_eq_true_eq] at hactive
  obtain ⟨hmo, hmg, hrole, row, hrow, hrowId, hrowOrg, hstatus⟩ := hactive
  obtain ⟨g', hg', hid', ho', hslug'⟩ := hkept .groups g hg hid
  obtain ⟨m', hm', rfl⟩ := hkept .memberships m hm ⟨hmg, hrole⟩
  obtain ⟨row', hrow', hrowId', hrowOrg', hstatus'⟩ := hkept .users row hrow hstatus
  refine ⟨m'.userId, ⟨g', hg', ho'.trans ho, hslug'.trans hslug, m', hm', hmo, ?_, rfl, hrole⟩,
    row', hrow', hrowId'.trans hrowId, ?_, hstatus' hstatus⟩
  · rw [hid', hid, hmg]
  · rw [hrowOrg', hrowOrg, hmo]

/-- An active owner, as the owner queries find one. -/
theorem hasActiveOwner_iff : HasActiveOwner slug o db ↔ ∃ g ∈ db .groups, g.organizationId = o ∧
    g.slug = slug ∧ ∃ m ∈ db .memberships, activeOwner db o g.id m = true := by
  simp only [activeOwner, decide_eq_true_eq]
  constructor
  · rintro ⟨u, ⟨g, hg, ho, hslug, m, hm, hmo, hmg, rfl, hrole⟩, row, hrow, hid, horg, hstatus⟩
    exact ⟨g, hg, ho, hslug, m, hm, hmo, hmg, hrole, row, hrow, hid, horg.trans hmo.symm, hstatus⟩
  · rintro ⟨g, hg, ho, hslug, m, hm, hmo, hmg, hrole, row, hrow, hid, horg, hstatus⟩
    exact ⟨m.userId, ⟨g, hg, ho, hslug, m, hm, hmo, hmg, rfl, hrole⟩, row, hrow, hid,
      horg.trans hmo, hstatus⟩

theorem keepsOwners_of_within {α : Type} {p : Statements α} {tabs : List Tab}
    (htabs : .users ∉ tabs ∧ .groups ∉ tabs ∧ .memberships ∉ tabs) (hp : p.All (Within tabs)) :
    p.All (KeepsOwners gid) := by
  refine hp.mono fun e he => ?_
  have hother : ∀ {t : Tab} (r : Row t), t ∈ tabs → ¬(ownersOf gid).counts t r := by
    intro t r ht
    cases t with
    | users => exact absurd ht htabs.1
    | groups => exact absurd ht htabs.2.1
    | memberships => exact absurd ht htabs.2.2
    | _ => exact not_false
  cases e with
  | select | lock | insert => trivial
  | update t p f => exact fun db r _ hcounts => absurd hcounts (hother r (he t rfl))
  | upsert t r f => exact fun old _ hcounts => absurd hcounts (hother old (he t rfl))
  | delete t p => exact fun db r _ => hother r (he t rfl)

theorem keepsOwners_of_reads {α : Type} {p : Statements α} (hp : p.All Reads) :
    p.All (KeepsOwners gid) := hp.mono fun _ he => .of_target he

theorem keepsOwners_insert {t : Tab} (r : Row t) : (insert t r).All (KeepsOwners gid) :=
  .perform trivial

/-- Users who stay who they are, and active if they were. -/
theorem keepsOwners_updateUsers (p : Db → UserWithPassword → Bool)
    {f : UserWithPassword → UserWithPassword} (hid : ∀ r, (f r).user.id = r.user.id)
    (ho : ∀ r, (f r).user.organizationId = r.user.organizationId)
    (hstatus : ∀ r, r.user.status = .active → (f r).user.status = .active) :
    (update .users p f).All (KeepsOwners gid) :=
  .perform fun _ r _ _ => ⟨hid r, ho r, hstatus r⟩

theorem keepsOwners_update {t : Tab} (ht : t ≠ .users ∧ t ≠ .groups ∧ t ≠ .memberships)
    (p : Db → Row t → Bool) (f : Row t → Row t) : (update t p f).All (KeepsOwners gid) :=
  keepsOwners_of_within
    ⟨by simpa using ht.1.symm, by simpa using ht.2.1.symm, by simpa using ht.2.2.symm⟩
    (within_update (List.mem_singleton_self t) p f)

/-- A membership of another group, or of an owner. -/
theorem keepsOwners_upsertMembership {m : Membership} (h : m.groupId ≠ gid ∨ m.role = .owner) :
    (upsertMembership m).All (KeepsOwners gid) := by
  refine .bind (.perform fun old hkey hcounts => ?_) fun _ => .ret _
  obtain ⟨hgroup, hrole⟩ : old.groupId = gid ∧ old.role = .owner := hcounts
  have hsame : old.groupId = m.groupId := by
    have : old.userId = m.userId ∧ old.groupId = m.groupId := by simpa [schema] using hkey
    exact this.2
  rcases h with h | h
  · exact absurd (hsame.symm.trans hgroup) h
  · obtain ⟨_, _, _, _, _⟩ := old
    cases hrole
    show ({ role := m.role, .. } : Membership) = _
    rw [h]

theorem keepsOwners_insertScimGroupMemberIds {g : GroupId} (hg : g ≠ gid) (o : OrganizationId)
    (i : OffsetDateTime) (us : List UserId) :
    (insertScimGroupMemberIds o g i us).All (KeepsOwners gid) := by
  induction us with
  | nil => trivial
  | cons u us ih => exact .bind (keepsOwners_upsertMembership (.inl hg)) fun _ => ih

-- the methods that need no guard

theorem keepsOwners_createBootstrapAdmin (user : User) (hash : String) (group : Group)
    (membership : Membership) :
    (createBootstrapAdmin user hash group membership).All (KeepsOwners gid) := by
  refine .bind (keepsOwners_of_reads (reads_lock ..)) fun org => .bind (.when (.fail _)) fun _ =>
    .bind (keepsOwners_of_reads reads_select) fun db => ?_
  split
  · trivial
  · exact .bind (keepsOwners_insert _) fun _ => .bind (keepsOwners_insert _) fun _ =>
      .bind (keepsOwners_insert _) fun _ => .ret _

theorem keepsOwners_consumeAccountTokenAndSetUserEmailVerified (t : Uuid) (u : UserId)
    (i : OffsetDateTime) :
    (consumeAccountTokenAndSetUserEmailVerified t u i).All (KeepsOwners gid) := by
  refine .bind (keepsOwners_update (by simp) _ _) fun consumed => ?_
  split
  · trivial
  refine .bind (keepsOwners_updateUsers _ (fun _ => rfl) (fun _ => rfl) fun _ h => h)
    fun updated => ?_
  split <;> trivial

theorem keepsOwners_consumeAccountTokenAndSetUserPassword (t : Uuid) (u : UserId) (hash : String)
    (verified revoke : Bool) (i : OffsetDateTime) :
    (consumeAccountTokenAndSetUserPassword t u hash verified revoke i).All (KeepsOwners gid) := by
  refine .bind (keepsOwners_update (by simp) _ _) fun consumed => ?_
  split
  · trivial
  refine .bind (keepsOwners_updateUsers _ (fun _ => rfl) (fun _ => rfl) fun _ h => h)
    fun updated => ?_
  split
  · trivial
  · exact .bind (.when (.bind (keepsOwners_update (by simp) _ _) fun _ => .ret _)) fun _ => .ret _

/-- The tables that passwords and tokens are in. -/
def credentialTables : List Tab :=
  [.accountTokens, .authSessions, .accessTokens, .refreshTokens, .emailOutbox]

theorem keepsOwners_of_credentials {α : Type} {p : Statements α}
    (hp : p.All (Within credentialTables)) : p.All (KeepsOwners gid) :=
  keepsOwners_of_within (by simp [credentialTables]) hp

theorem keepsOwners_consumePasswordRecoveryTokenAndResetUserPassword
    (input : PasswordRecoveryInput) :
    (consumePasswordRecoveryTokenAndResetUserPassword input).All (KeepsOwners gid) := by
  refine .bind (keepsOwners_update (by simp) _ _) fun consumed => ?_
  split
  · trivial
  refine .bind (keepsOwners_updateUsers _ (fun _ => rfl) (fun _ => rfl) fun _ h => h)
    fun updated => ?_
  split
  · trivial
  apply keepsOwners_of_credentials
  exact .bind (within_update (by simp [credentialTables]) ..) fun _ =>
    .bind (within_revokeLiveUserSessions (by simp [credentialTables]) ..) fun _ =>
    .bind (within_revokeLiveUserTokens (by simp [credentialTables]) (by simp [credentialTables]) ..)
      fun _ => .bind (within_insertNotification (by simp [credentialTables]) _) fun _ => .ret _

theorem keepsOwners_changeUserPasswordAndRotateSession (input : PasswordChangeInput) :
    (changeUserPasswordAndRotateSession input).All (KeepsOwners gid) := by
  refine .bind (keepsOwners_of_reads (reads_lock ..)) fun locked => ?_
  split
  · trivial
  refine .bind (keepsOwners_updateUsers _ (fun _ => rfl) (fun _ => rfl) fun _ h => h) fun _ => ?_
  apply keepsOwners_of_credentials
  exact .bind (within_revokeLiveUserSessions (by simp [credentialTables]) ..) fun _ =>
    .bind (within_insert (by simp [credentialTables]) _) fun _ =>
    .bind (within_revokeLiveUserTokens (by simp [credentialTables]) (by simp [credentialTables]) ..)
      fun _ => .bind (within_update (by simp [credentialTables]) ..) fun _ =>
    .bind (within_insertNotification (by simp [credentialTables]) _) fun _ => .ret _

theorem keepsOwners_breakGlassGrantAdminOwner (o : OrganizationId) (u : UserId) (g : Group)
    (i : OffsetDateTime) (event : AuditEvent) :
    (breakGlassGrantAdminOwner o u g i event).All (KeepsOwners gid) := by
  refine .bind (keepsOwners_of_reads (reads_lock ..)) fun org => .bind (.when (.fail _)) fun _ =>
    .bind (keepsOwners_of_reads (reads_lockedUserForUpdate ..)) fun user => ?_
  split
  · refine .bind (keepsOwners_of_reads (reads_lock ..)) fun rows => .bind ?_ fun group => ?_
    · split
      · trivial
      · exact .bind (keepsOwners_insert _) fun _ => .ret _
    · exact .bind (keepsOwners_of_reads (reads_lockedMembershipRole ..)) fun _ =>
        .bind (keepsOwners_upsertMembership (.inr rfl)) fun _ =>
        .bind (keepsOwners_updateUsers _ (fun _ => rfl) (fun _ => rfl) fun _ _ => rfl) fun _ =>
        .bind (all_fetchOne _) fun _ => .bind (keepsOwners_insert _) fun _ => .ret _
  · trivial

section groups

variable {g : Group}

/-- The group that a lock finds is the one with the id. -/
theorem eq_of_lockedGroup {g' : Group} {s₁ : Store} (hg : g ∈ s.tables .groups)
    (h : Stmts.run DatabaseError.sqlx (lockedGroup o g.id) s = .ok (some g', s₁)) :
    g' = g ∧ g.organizationId = o := by
  obtain ⟨rows, s₂, hlock, hrest⟩ := Stmts.run_bind_eq_ok.mp h
  cases hlock
  have hhead : ((s.tables .groups).filter fun row => row.organizationId = o ∧ row.id = g.id).head? =
      some g' := congrArg Prod.fst (Except.ok.inj hrest)
  obtain ⟨hmem, hrow⟩ := List.mem_filter.mp (List.mem_of_head? hhead)
  obtain ⟨ho, hid⟩ : g'.organizationId = o ∧ g'.id = g.id := by simpa using hrow
  obtain rfl := (s.unique .groups).eq_of_key hmem hg (by simp [schema, hid])
  exact ⟨rfl, ho⟩

/-- A new group has a new id. -/
theorem ne_id_of_insert {group : Group} {a : Unit} (hg : g ∈ s.tables .groups)
    (h : Stmts.run DatabaseError.sqlx (insert .groups group) s = .ok (a, s')) :
    group.id ≠ g.id := by
  have hunique := s'.unique .groups
  rw [run_insert_eq_ok h, Function.update_self] at hunique
  have hcompatible := (List.pairwise_append.mp hunique).2.2 g hg group (List.mem_singleton_self _)
  intro hid
  exact hcompatible (.id g.id) (by simp [Schema.entries, schema])
    (by simp [Schema.entries, schema, hid])

theorem kept_createScimGroup (hg : g ∈ s.tables .groups) (group : Group) (us : List UserId)
    {b : End ScimGroupMutationOutcome}
    (h : Stmts.run DatabaseError.sqlx (createScimGroup group us) s = .ok (b, s')) :
    Kept (ownersOf g.id) s.tables s'.tables := by
  obtain ⟨taken, s₁, hread, hrest⟩ := Stmts.run_bind_eq_ok.mp h
  obtain rfl := (Stmts.run_readonly (.bind reads_select fun _ => .ret _) hread).symm
  split at hrest
  · cases hrest
    exact .refl _ _
  obtain ⟨taken, s₁, hread, hrest⟩ := Stmts.run_bind_eq_ok.mp hrest
  obtain rfl := (Stmts.run_readonly (reads_groupExternalIdTaken ..) hread).symm
  split at hrest
  · cases hrest
    exact .refl _ _
  obtain ⟨found, s₁, hread, hrest⟩ := Stmts.run_bind_eq_ok.mp hrest
  obtain rfl := (Stmts.run_readonly (reads_allUsersExist ..) hread).symm
  split at hrest
  · cases hrest
    exact .refl _ _
  obtain ⟨_, s₁, hinsert, hrest⟩ := Stmts.run_bind_eq_ok.mp hrest
  have hmembers : (insertScimGroupMemberIds group.organizationId group.id group.createdAt us).All
      (KeepsOwners g.id) := keepsOwners_insertScimGroupMemberIds (ne_id_of_insert hg hinsert) ..
  have hkept : Kept (ownersOf g.id) s.tables s₁.tables :=
    Stmts.run_kept (keepsOwners_insert _) hinsert
  refine hkept.trans (Stmts.run_kept ?_ hrest)
  exact .bind hmembers fun _ => .ret _

/-- Another group is replaced. -/
theorem kept_replaceScimGroup (hg : g ∈ s.tables .groups) {input : ScimGroupReplaceInput}
    (hslug : input.protectedGroupSlug = g.slug) {b : End ScimGroupMutationOutcome}
    (h : Stmts.run DatabaseError.sqlx (replaceScimGroup input) s = .ok (b, s')) :
    Kept (ownersOf g.id) s.tables s'.tables := by
  obtain ⟨existing, s₁, hlock, hrest⟩ := Stmts.run_bind_eq_ok.mp h
  obtain rfl := (Stmts.run_readonly (reads_lockedGroup ..) hlock).symm
  cases existing with
  | none =>
    cases hrest
    exact .refl _ _
  | some existing =>
    dsimp only at hrest
    by_cases hid : input.groupId = g.id
    · obtain ⟨rfl, -⟩ := eq_of_lockedGroup hg (hid ▸ hlock)
      rw [if_pos hslug.symm] at hrest
      cases hrest
      exact .refl _ _
    split at hrest
    · cases hrest
      exact .refl _ _
    refine Stmts.run_kept ?_ hrest
    refine .bind (keepsOwners_of_reads (reads_groupExternalIdTaken ..)) fun taken => ?_
    split
    · trivial
    refine .bind (keepsOwners_of_reads (reads_allUsersExist ..)) fun found => ?_
    split
    · trivial
    refine .bind (.perform fun _ _ _ _ => ⟨rfl, rfl, rfl⟩) fun _ => .bind (all_fetchOne _) fun _ =>
      .bind (.perform fun db m hm hcounts => ?_) fun _ =>
        .bind (keepsOwners_insertScimGroupMemberIds hid ..) fun _ => .ret _
    exact hid ((of_decide_eq_true hm).2.1.symm.trans hcounts.1)

/-- Another group is deleted. -/
theorem kept_deleteScimGroup (hg : g ∈ s.tables .groups) {id : GroupId} {protectedSlug : String}
    (hslug : protectedSlug = g.slug) {b : End ScimGroupMutationOutcome}
    (h : Stmts.run DatabaseError.sqlx (deleteScimGroup o id protectedSlug) s = .ok (b, s')) :
    Kept (ownersOf g.id) s.tables s'.tables := by
  obtain ⟨existing, s₁, hlock, hrest⟩ := Stmts.run_bind_eq_ok.mp h
  obtain rfl := (Stmts.run_readonly (reads_lockedGroup ..) hlock).symm
  cases existing with
  | none =>
    cases hrest
    exact .refl _ _
  | some existing =>
    dsimp only at hrest
    by_cases hid : id = g.id
    · subst hid
      obtain ⟨rfl, -⟩ := eq_of_lockedGroup hg hlock
      rw [if_pos hslug.symm] at hrest
      cases hrest
      exact .refl _ _
    split at hrest
    · cases hrest
      exact .refl _ _
    refine Stmts.run_kept ?_ hrest
    refine .bind (.perform fun db r hr hcounts => ?_) fun _ =>
      .bind (.perform fun db m hm hcounts => ?_) fun _ => .ret _
    · exact hid ((of_decide_eq_true hr).2.symm.trans hcounts)
    · exact hid ((of_decide_eq_true hm).1.symm.trans hcounts.1)

/-- A membership of another group is written. -/
theorem kept_upsertGroupMembership {m : Membership} (hid : m.groupId ≠ gid)
    (protectedSlug : String) :
    (upsertGroupMembership m protectedSlug).All (KeepsOwners gid) := by
  refine .bind (keepsOwners_of_reads (reads_lockedGroup ..)) fun group => ?_
  split
  · refine .bind (keepsOwners_of_reads (reads_userExists ..)) fun found => ?_
    split
    · trivial
    refine .bind (keepsOwners_of_reads (reads_lockedMembershipRole ..)) fun role =>
      .bind (keepsOwners_of_reads (reads_lastOwnerCheck ..)) fun refused => ?_
    split
    · trivial
    · exact .bind (keepsOwners_upsertMembership (.inl hid)) fun _ => .ret _
  · trivial

/-- A membership of another group is deleted. -/
theorem kept_deleteGroupMembership {id : GroupId} (hid : id ≠ gid) (o : OrganizationId)
    (u : UserId) (protectedSlug : String) :
    (deleteGroupMembership o id u protectedSlug).All (KeepsOwners gid) := by
  refine .bind (keepsOwners_of_reads (reads_lockedGroup ..)) fun group => ?_
  split
  · refine .bind (keepsOwners_of_reads (reads_lockedMembershipRole ..)) fun role => ?_
    split
    · refine .bind (keepsOwners_of_reads (reads_lastOwnerCheck ..)) fun refused => ?_
      split
      · trivial
      · refine .bind (.perform fun db m hm hcounts => ?_) fun _ => .ret _
        exact hid ((of_decide_eq_true hm).2.1.symm.trans hcounts.1)
    · trivial
  · trivial

end groups

end Database

open Database

namespace DbCall

/-- The method protects the group with the slug, where it protects one. -/
def Protects (slug : String) : DbCall → Prop
  | .upsertGroupMembership _ protectedSlug | .deleteGroupMembership _ _ _ protectedSlug
  | .updateUserStatus _ _ _ protectedSlug _ | .deleteScimGroup _ _ protectedSlug =>
    protectedSlug = slug
  | .updateUserFromScim input => input.protectedOwnerGroupSlug = slug
  | .replaceScimGroup input => input.protectedGroupSlug = slug
  | _ => True

/-- The methods that can take an owner away, and look who is left before they do. -/
def isGuarded : DbCall → Bool
  | .upsertGroupMembership .. | .deleteGroupMembership .. | .updateUserStatus ..
  | .updateUserFromScim .. => true
  | _ => false

/-- What a transaction keeps on every run it keeps as a step. -/
theorem exec_kept_of_run {c : DbCall} {s : Store} {K : Keeping Row}
    (h : ∀ b s', Stmts.run DatabaseError.sqlx c.tx s = .ok (b, s') → Kept K s.tables s'.tables) :
    Kept K s.tables (c.exec s).2.tables := by
  obtain ⟨r, s', hexec⟩ : ∃ r s', c.exec s = (r, s') := ⟨_, _, rfl⟩
  rw [hexec]
  rcases Tx.atomic_cases hexec with ⟨a, -, hrun⟩ | ⟨a, s₁, -, -, rfl⟩ | ⟨e, -, rfl⟩
  · exact h _ _ hrun
  · exact .refl K _
  · exact .refl K _

theorem exec_kept_of_all {c : DbCall} {s : Store} {K : Keeping Row}
    (h : c.tx.All fun e => e.Keeps schema K) : Kept K s.tables (c.exec s).2.tables :=
  exec_kept_of_run fun _ _ hrun => Stmts.run_kept h hrun

/-- A method without a guard keeps the owners of the group it protects. -/
theorem exec_keepsOwners {c : DbCall} {s : Store} {g : Group} (hg : g ∈ s.tables .groups)
    (hprotects : c.Protects g.slug) (hguard : c.isGuarded = false) :
    Kept (ownersOf g.id) s.tables (c.exec s).2.tables := by
  by_cases hwrites : .users ∉ c.writes ∧ .groups ∉ c.writes ∧ .memberships ∉ c.writes
  · exact exec_kept_of_all (keepsOwners_of_within hwrites c.tx_writes)
  cases c with
  | createUser | createGroup =>
    exact exec_kept_of_all (.bind (keepsOwners_insert _) fun _ => .ret _)
  | createBootstrapAdmin => exact exec_kept_of_all (keepsOwners_createBootstrapAdmin ..)
  | setUserLastLogin =>
    exact exec_kept_of_all (.bind (keepsOwners_updateUsers _ (fun _ => rfl) (fun _ => rfl)
      fun _ h => h) fun _ => .ret _)
  | consumeAccountTokenAndSetUserEmailVerified =>
    exact exec_kept_of_all (keepsOwners_consumeAccountTokenAndSetUserEmailVerified ..)
  | consumeAccountTokenAndSetUserPassword =>
    exact exec_kept_of_all (keepsOwners_consumeAccountTokenAndSetUserPassword ..)
  | consumePasswordRecoveryTokenAndResetUserPassword =>
    exact exec_kept_of_all (keepsOwners_consumePasswordRecoveryTokenAndResetUserPassword _)
  | changeUserPasswordAndRotateSession =>
    exact exec_kept_of_all (keepsOwners_changeUserPasswordAndRotateSession _)
  | breakGlassGrantAdminOwner =>
    exact exec_kept_of_all (keepsOwners_breakGlassGrantAdminOwner ..)
  | createScimGroup => exact exec_kept_of_run fun _ _ => kept_createScimGroup hg _ _
  | replaceScimGroup => exact exec_kept_of_run fun _ _ => kept_replaceScimGroup hg hprotects
  | deleteScimGroup => exact exec_kept_of_run fun _ _ => kept_deleteScimGroup hg hprotects
  | upsertGroupMembership | deleteGroupMembership | updateUserStatus | updateUserFromScim =>
    cases hguard
  | _ => exact absurd ⟨by simp [writes], by simp [writes], by simp [writes]⟩ hwrites

end DbCall

end CairnId
