import CairnId.Database.Provisioning

/-!
# The members of a group

What the methods make of the members of a group, exactly. A membership refers to a
group of its organization; an upsert needs that, since its conflict is on the user
and the group alone.
-/

namespace CairnId

open Concurrency Concurrency.Sql Prog

namespace Database

/-- The user has a membership. -/
def IsMember (organizationId : OrganizationId) (groupId : GroupId) (userId : UserId) (db : Db) :
    Prop :=
  ∃ m ∈ db .memberships, m.organizationId = organizationId ∧ m.groupId = groupId ∧ m.userId = userId

instance (o : OrganizationId) (g : GroupId) (u : UserId) (db : Db) : Decidable (IsMember o g u db) :=
  inferInstanceAs (Decidable (∃ m ∈ db .memberships, _))

theorem IsMember.congr {db db' : Db} (h : db' .memberships = db .memberships) (o : OrganizationId)
    (g : GroupId) (u : UserId) : IsMember o g u db' ↔ IsMember o g u db := by
  rw [IsMember, IsMember, h]

section keepsRefs

/-- The statement keeps the foreign keys of memberships. -/
abbrev KeepsRefs (e : Stmt Row) : Prop := e.KeepsRefs schema .memberships

theorem keepsRefs_of_reads {α : Type} {p : Statements α} (hp : p.All Reads) : p.All KeepsRefs :=
  hp.mono fun _ he => .of_target he

/-- Users keep their id and their organization. -/
theorem keepsRefs_updateUsers (p : Db → UserWithPassword → Bool) {f : UserWithPassword → UserWithPassword}
    (hid : ∀ r, (f r).user.id = r.user.id) (ho : ∀ r, (f r).user.organizationId = r.user.organizationId) :
    (update .users p f).All KeepsRefs := by
  refine .perform ⟨nofun, fun m r k hk hr => ?_⟩
  have hk' : k = .tenant m.userId m.organizationId := by simpa [schema] using hk
  subst hk'
  simp [Schema.entries, schema] at hr
  simp [Schema.entries, schema, hid, ho, hr]

theorem keepsRefs_updateGroups (p : Db → Group → Bool) {f : Group → Group}
    (hid : ∀ r, (f r).id = r.id) (ho : ∀ r, (f r).organizationId = r.organizationId) :
    (update .groups p f).All KeepsRefs := by
  refine .perform ⟨nofun, fun m r k hk hr => ?_⟩
  have hk' : k = .tenant m.groupId m.organizationId := by simpa [schema] using hk
  subst hk'
  simp [Schema.entries, schema] at hr
  simp [Schema.entries, schema, hid, ho, hr]

theorem keepsRefs_upsertMembership (m : Membership) : (upsertMembership m).All KeepsRefs :=
  .bind (.perform ⟨fun _ _ => rfl, fun m r k hk _ => by simp [schema] at hk⟩) fun _ => .ret _

theorem keepsRefs_deleteMemberships (p : Db → Membership → Bool) :
    (delete .memberships p).All KeepsRefs :=
  .perform fun m k hk => by simp [schema] at hk

theorem keepsRefs_revokeUserRuntimeCredentials (o : OrganizationId) (u : UserId)
    (i : OffsetDateTime) : (revokeUserRuntimeCredentials o u i).All KeepsRefs :=
  .bind (.perform ⟨nofun, fun m r k hk _ => by simp [schema] at hk⟩) fun _ =>
    .bind (.perform ⟨nofun, fun m r k hk _ => by simp [schema] at hk⟩) fun _ =>
      .bind (.perform ⟨nofun, fun m r k hk _ => by simp [schema] at hk⟩) fun _ => .ret _

theorem keepsRefs_insertScimGroupMemberIds (o : OrganizationId) (g : GroupId)
    (i : OffsetDateTime) (us : List UserId) :
    (insertScimGroupMemberIds o g i us).All KeepsRefs := by
  induction us with
  | nil => trivial
  | cons u us ih => exact .bind (keepsRefs_upsertMembership _) fun _ => ih

theorem keepsRefs_replaceScimGroup (input : ScimGroupReplaceInput) :
    (replaceScimGroup input).All KeepsRefs := by
  refine .bind (keepsRefs_of_reads (reads_lockedGroup ..)) fun group => ?_
  split
  · split
    · trivial
    refine .bind (keepsRefs_of_reads (reads_groupExternalIdTaken ..)) fun taken => ?_
    split
    · trivial
    refine .bind (keepsRefs_of_reads (reads_allUsersExist ..)) fun found => ?_
    split
    · trivial
    exact .bind (keepsRefs_updateGroups _ (fun _ => rfl) fun _ => rfl) fun updated =>
      .bind (all_fetchOne _) fun _ => .bind (keepsRefs_deleteMemberships _) fun _ =>
        .bind (keepsRefs_insertScimGroupMemberIds ..) fun _ => .ret _
  · trivial

theorem keepsRefs_upsertGroupMembership (m : Membership) (slug : String) :
    (upsertGroupMembership m slug).All KeepsRefs := by
  refine .bind (keepsRefs_of_reads (reads_lockedGroup ..)) fun group => ?_
  split
  · refine .bind (keepsRefs_of_reads (reads_userExists ..)) fun found => ?_
    split
    · trivial
    refine .bind (keepsRefs_of_reads (reads_lockedMembershipRole ..)) fun role =>
      .bind (keepsRefs_of_reads (reads_lastOwnerCheck ..)) fun refused => ?_
    split
    · trivial
    · exact .bind (keepsRefs_upsertMembership m) fun _ => .ret _
  · trivial

theorem keepsRefs_deleteGroupMembership (o : OrganizationId) (g : GroupId) (u : UserId)
    (slug : String) : (deleteGroupMembership o g u slug).All KeepsRefs := by
  refine .bind (keepsRefs_of_reads (reads_lockedGroup ..)) fun group => ?_
  split
  · refine .bind (keepsRefs_of_reads (reads_lockedMembershipRole ..)) fun role => ?_
    split
    · refine .bind (keepsRefs_of_reads (reads_lastOwnerCheck ..)) fun refused => ?_
      split
      · trivial
      · exact .bind (keepsRefs_deleteMemberships _) fun _ => .ret _
    · trivial
  · trivial

theorem keepsRefs_updateUserStatus (o : OrganizationId) (u : UserId) (status : UserStatus)
    (slug : String) (i : OffsetDateTime) : (updateUserStatus o u status slug i).All KeepsRefs := by
  refine .bind (keepsRefs_of_reads (reads_lockedUserForUpdate ..)) fun existing => ?_
  split
  · refine .bind (keepsRefs_of_reads (reads_deactivationWouldRemoveLastOwner ..)) fun refused => ?_
    split
    · trivial
    · exact .bind (keepsRefs_updateUsers _ (fun _ => rfl) fun _ => rfl) fun _ =>
        .bind (all_fetchOne _) fun _ =>
          .bind (.when (keepsRefs_revokeUserRuntimeCredentials ..)) fun _ => .ret _
  · trivial

theorem keepsRefs_updateUserFromScim (input : ScimUserUpdateInput) :
    (updateUserFromScim input).All KeepsRefs := by
  refine .bind (keepsRefs_of_reads (reads_lockedUserForUpdate ..)) fun existing => ?_
  split
  · refine .bind (keepsRefs_of_reads (.bind reads_select fun _ => .ret _)) fun taken => ?_
    split
    · trivial
    refine .bind (keepsRefs_of_reads (reads_userExternalIdTaken ..)) fun taken => ?_
    split
    · trivial
    refine .bind (keepsRefs_of_reads (reads_deactivationWouldRemoveLastOwner ..)) fun refused => ?_
    split
    · trivial
    refine .bind (keepsRefs_updateUsers _ (fun _ => rfl) fun _ => rfl) fun _ =>
      .bind (all_fetchOne _) fun _ => .bind (.when (.bind (.perform ⟨(by rintro ⟨⟩), fun m r k hk _ => ?_⟩)
        fun _ => .ret _)) fun _ =>
          .bind (.when (keepsRefs_revokeUserRuntimeCredentials ..)) fun _ => .ret _
    simp [schema] at hk
  · trivial

end keepsRefs

section leaves

/-- The statement leaves the memberships alone. -/
abbrev LeavesMemberships (e : Stmt Row) : Prop := e.target ≠ some .memberships

theorem leavesMemberships_of_reads {α : Type} {p : Statements α} (hp : p.All Reads) :
    p.All LeavesMemberships := hp.mono fun e he => by simp [LeavesMemberships, he]

theorem leavesMemberships_revokeUserRuntimeCredentials (o : OrganizationId) (u : UserId)
    (i : OffsetDateTime) : (revokeUserRuntimeCredentials o u i).All LeavesMemberships :=
  .bind (.perform nofun) fun _ => .bind (.perform nofun) fun _ => .bind (.perform nofun) fun _ =>
    .ret _

theorem leavesMemberships_updateUserStatus (o : OrganizationId) (u : UserId) (status : UserStatus)
    (slug : String) (i : OffsetDateTime) :
    (updateUserStatus o u status slug i).All LeavesMemberships := by
  refine .bind (leavesMemberships_of_reads (reads_lockedUserForUpdate ..)) fun existing => ?_
  split
  · refine .bind (leavesMemberships_of_reads (reads_deactivationWouldRemoveLastOwner ..))
      fun refused => ?_
    split
    · trivial
    · exact .bind (.perform (by rintro ⟨⟩)) fun _ => .bind (all_fetchOne _) fun _ =>
        .bind (.when (leavesMemberships_revokeUserRuntimeCredentials ..)) fun _ => .ret _
  · trivial

theorem leavesMemberships_updateUserFromScim (input : ScimUserUpdateInput) :
    (updateUserFromScim input).All LeavesMemberships := by
  refine .bind (leavesMemberships_of_reads (reads_lockedUserForUpdate ..)) fun existing => ?_
  split
  · refine .bind (leavesMemberships_of_reads (.bind reads_select fun _ => .ret _)) fun taken => ?_
    split
    · trivial
    refine .bind (leavesMemberships_of_reads (reads_userExternalIdTaken ..)) fun taken => ?_
    split
    · trivial
    refine .bind (leavesMemberships_of_reads (reads_deactivationWouldRemoveLastOwner ..))
      fun refused => ?_
    split
    · trivial
    exact .bind (.perform (by rintro ⟨⟩)) fun _ => .bind (all_fetchOne _) fun _ =>
      .bind (.when (.bind (.perform (by rintro ⟨⟩)) fun _ => .ret _)) fun _ =>
        .bind (.when (leavesMemberships_revokeUserRuntimeCredentials ..)) fun _ => .ret _
  · trivial

end leaves

section effects

variable {s s' : Store}

/-- The group is there. -/
def GroupThere (organizationId : OrganizationId) (groupId : GroupId) (db : Db) : Prop :=
  ∃ g ∈ db .groups, g.organizationId = organizationId ∧ g.id = groupId

theorem run_lockedGroup {o : OrganizationId} {g : GroupId} {group : Group}
    (h : Stmts.run DatabaseError.sqlx (lockedGroup o g) s = .ok (some group, s')) :
    GroupThere o g s.tables ∧ s = s' := by
  obtain rfl := (Stmts.run_readonly (reads_lockedGroup ..) h).symm
  obtain ⟨rows, s₁, hlock, hrest⟩ := Stmts.run_bind_eq_ok.mp h
  cases hlock
  have hhead : ((s.tables .groups).filter fun row => row.organizationId = o ∧ row.id = g).head? =
      some group := congrArg Prod.fst (Except.ok.inj hrest)
  have hmem := List.mem_filter.mp (List.mem_of_head? hhead)
  exact ⟨⟨group, hmem.1, by simpa using hmem.2⟩, rfl⟩

/-- Memberships of a group are of its organization. -/
theorem organizationId_of_refers (hrefers : schema.Refers .memberships s.tables)
    {o : OrganizationId} {g : GroupId} (hgroup : GroupThere o g s.tables) {m : Membership}
    (hm : m ∈ s.tables .memberships) (hg : m.groupId = g) : m.organizationId = o := by
  obtain ⟨group, hmem, rfl, rfl⟩ := hgroup
  obtain ⟨group', hmem', hentry⟩ := hrefers m hm (.groups, .tenant m.groupId m.organizationId)
    (by simp [schema])
  obtain ⟨hid, ho⟩ : m.groupId = group'.id ∧ m.organizationId = group'.organizationId := by
    simpa [Schema.entries, schema] using hentry
  rw [ho, (s.unique .groups).eq_of_key hmem' hmem (by simp [schema, ← hid, hg])]

theorem run_upsertMembership {m : Membership} {a : Unit}
    (hrefers : schema.Refers .memberships s.tables)
    (hgroup : GroupThere m.organizationId m.groupId s.tables)
    (h : Stmts.run DatabaseError.sqlx (upsertMembership m) s = .ok (a, s'))
    (o : OrganizationId) (g : GroupId) (u : UserId) :
    IsMember o g u s'.tables ↔ IsMember o g u s.tables ∨
      (m.organizationId = o ∧ m.groupId = g ∧ m.userId = u) := by
  obtain ⟨row, s₁, hupsert, hrest⟩ := Stmts.run_bind_eq_ok.mp h
  cases hrest
  rcases run_upsert_eq_ok hupsert with ⟨old, hold, hkey, -, htables⟩ | ⟨-, -, htables⟩
  · -- the row that is there is a membership of the same group and user
    have hsame : IsMember o g u s'.tables ↔ IsMember o g u s.tables := by
      simp only [IsMember, htables, Function.update_self, Stmt.updated, List.mem_map]
      constructor
      · rintro ⟨_, ⟨r, hr, rfl⟩, hm⟩
        refine ⟨r, hr, ?_⟩
        split at hm <;> exact hm
      · rintro ⟨r, hr, hm⟩
        refine ⟨_, ⟨r, hr, rfl⟩, ?_⟩
        split <;> exact hm
    rw [hsame, iff_self_or]
    rintro ⟨rfl, rfl, rfl⟩
    obtain ⟨hu, hg⟩ : old.userId = m.userId ∧ old.groupId = m.groupId := by
      simpa [schema] using hkey
    exact ⟨old, hold, organizationId_of_refers hrefers hgroup hold hg, hg, hu⟩
  · simp only [IsMember, htables, Function.update_self, List.mem_append, List.mem_singleton]
    constructor
    · rintro ⟨r, hr | rfl, hm⟩
      · exact .inl ⟨r, hr, hm⟩
      · exact .inr hm
    · rintro (⟨r, hr, hm⟩ | hm)
      · exact ⟨r, .inl hr, hm⟩
      · exact ⟨m, .inr rfl, hm⟩

theorem leavesGroups_upsertMembership (m : Membership) :
    (upsertMembership m).All fun e => e.target ≠ some .groups :=
  .bind (.perform nofun) fun _ => .ret _

theorem run_insertScimGroupMemberIds {o : OrganizationId} {g : GroupId} {i : OffsetDateTime}
    {us : List UserId} {a : Unit} (hrefers : schema.Refers .memberships s.tables)
    (hgroup : GroupThere o g s.tables)
    (h : Stmts.run DatabaseError.sqlx (insertScimGroupMemberIds o g i us) s = .ok (a, s'))
    (o' : OrganizationId) (g' : GroupId) (u' : UserId) :
    IsMember o' g' u' s'.tables ↔ IsMember o' g' u' s.tables ∨ (o = o' ∧ g = g' ∧ u' ∈ us) := by
  induction us generalizing s with
  | nil =>
    cases h
    simp
  | cons u us ih =>
    obtain ⟨_, s₁, hupsert, hrest⟩ := Stmts.run_bind_eq_ok.mp h
    have hgroup₁ : GroupThere o g s₁.tables := by
      rw [GroupThere, Stmts.run_frame (leavesGroups_upsertMembership _) hupsert]
      exact hgroup
    rw [ih (Stmts.run_refers (keepsRefs_upsertMembership _) hupsert hrefers) hgroup₁ hrest,
      run_upsertMembership hrefers hgroup hupsert o' g' u']
    simp only [List.mem_cons]
    grind

theorem run_deleteMemberships {p : Db → Membership → Bool} {rows : List Membership}
    (h : Stmts.run DatabaseError.sqlx (delete .memberships p) s = .ok (rows, s'))
    (o : OrganizationId) (g : GroupId) (u : UserId) :
    IsMember o g u s'.tables ↔ ∃ m ∈ s.tables .memberships, p s.tables m = false ∧
      m.organizationId = o ∧ m.groupId = g ∧ m.userId = u := by
  simp only [IsMember, run_delete_eq_ok h, Function.update_self, List.mem_filter, Bool.not_eq_true',
    and_assoc]

def ScimGroupMutationOutcome.isApplied : ScimGroupMutationOutcome → Bool
  | .applied _ => true
  | _ => false

/-- The statements of a replacement that is committed, or why it is not. -/
theorem run_replaceScimGroup {input : ScimGroupReplaceInput} {b : End ScimGroupMutationOutcome}
    {s₁ : Store}
    (hrun : Stmts.run DatabaseError.sqlx (replaceScimGroup input) s = .ok (b, s₁)) :
    (∃ group s₂ s₃ updated deleted, b = .commit (.applied group) ∧
      GroupThere input.organizationId input.groupId s.tables ∧
      Stmts.run DatabaseError.sqlx (update .groups
        (fun _ g => g.organizationId = input.organizationId ∧ g.id = input.groupId)
        (fun g => { g with
          displayName := input.displayName, scimExternalId := input.scimExternalId })) s =
        .ok (updated, s₂) ∧
      Stmts.run DatabaseError.sqlx (delete .memberships (fun _ m =>
        m.organizationId = input.organizationId ∧ m.groupId = input.groupId ∧
          m.userId ∉ input.memberUserIds)) s₂ = .ok (deleted, s₃) ∧
      Stmts.run DatabaseError.sqlx (insertScimGroupMemberIds input.organizationId input.groupId
        input.instant input.memberUserIds) s₃ = .ok ((), s₁)) ∨
    ∃ a, b = .rollback a ∧ ¬a.isApplied = true ∧ (a = .memberNotFound →
      Stmts.run DatabaseError.sqlx (allUsersExist input.organizationId input.memberUserIds) s =
        .ok (false, s)) := by
  obtain ⟨group, s₂, hlock, hrest⟩ := Stmts.run_bind_eq_ok.mp hrun
  cases group with
  | none =>
    cases hrest
    exact .inr ⟨_, rfl, by rintro ⟨⟩, by rintro ⟨⟩⟩
  | some group =>
    obtain ⟨hgroup, rfl⟩ := run_lockedGroup hlock
    dsimp only at hrest
    split at hrest
    · cases hrest
      exact .inr ⟨_, rfl, by rintro ⟨⟩, by rintro ⟨⟩⟩
    obtain ⟨taken, s₃, hread, hrest⟩ := Stmts.run_bind_eq_ok.mp hrest
    obtain rfl := (Stmts.run_readonly (reads_groupExternalIdTaken ..) hread).symm
    split at hrest
    · cases hrest
      exact .inr ⟨_, rfl, by rintro ⟨⟩, by rintro ⟨⟩⟩
    obtain ⟨found, s₃, hread, hrest⟩ := Stmts.run_bind_eq_ok.mp hrest
    obtain rfl := (Stmts.run_readonly (reads_allUsersExist ..) hread).symm
    cases found with
    | false =>
      cases hrest
      exact .inr ⟨_, rfl, by rintro ⟨⟩, fun _ => hread⟩
    | true =>
      obtain ⟨updated, s₃, hupdate, hrest⟩ := Stmts.run_bind_eq_ok.mp hrest
      obtain ⟨updatedGroup, s₄, hfetch, hrest⟩ := Stmts.run_bind_eq_ok.mp hrest
      obtain ⟨-, rfl⟩ := run_fetchOne_eq_ok hfetch
      obtain ⟨deleted, s₄, hdelete, hrest⟩ := Stmts.run_bind_eq_ok.mp hrest
      obtain ⟨_, s₅, hinsert, hrest⟩ := Stmts.run_bind_eq_ok.mp hrest
      cases hrest
      exact .inl ⟨updatedGroup, s₃, s₄, updated, deleted, rfl, hgroup, hupdate, hdelete, hinsert⟩

section replacement

variable {input : ScimGroupReplaceInput} {s₂ s₃ : Store} {updated : List Group}
  {deleted : List Membership}

/-- Up to the insertions a replacement keeps the foreign keys, the group and the rows
    of the listed users. -/
theorem replacing_of_refers (hrefers : schema.Refers .memberships s.tables)
    (hgroup : GroupThere input.organizationId input.groupId s.tables)
    (hupdate : Stmts.run DatabaseError.sqlx (update .groups
        (fun _ g => g.organizationId = input.organizationId ∧ g.id = input.groupId)
        (fun g => { g with
          displayName := input.displayName, scimExternalId := input.scimExternalId })) s =
        .ok (updated, s₂))
    (hdelete : Stmts.run DatabaseError.sqlx (delete .memberships (fun _ m =>
        m.organizationId = input.organizationId ∧ m.groupId = input.groupId ∧
          m.userId ∉ input.memberUserIds)) s₂ = .ok (deleted, s₃)) :
    schema.Refers .memberships s₃.tables ∧
      GroupThere input.organizationId input.groupId s₃.tables ∧
      s₂.tables .memberships = s.tables .memberships := by
  have hrefers₂ : schema.Refers .memberships s₂.tables := by
    refine Stmts.run_refers ?_ hupdate hrefers
    exact keepsRefs_updateGroups _ (fun _ => rfl) fun _ => rfl
  have hgroup₂ : GroupThere input.organizationId input.groupId s₂.tables := by
    obtain ⟨group, hmem, ho, hg⟩ := hgroup
    rw [GroupThere, (run_update_eq_ok hupdate).2, Function.update_self]
    refine ⟨_, List.mem_map_of_mem hmem, ?_⟩
    split <;> exact ⟨ho, hg⟩
  have hgroups₃ : s₃.tables .groups = s₂.tables .groups := by
    refine Stmts.run_frame ?_ hdelete
    exact .perform (by rintro ⟨⟩)
  refine ⟨Stmts.run_refers (keepsRefs_deleteMemberships _) hdelete hrefers₂, ?_, ?_⟩
  · rwa [GroupThere, hgroups₃]
  · refine Stmts.run_frame ?_ hupdate
    exact .perform (by rintro ⟨⟩)

end replacement

/-- A replacement makes the listed users the members, or has no effect. -/
theorem exec_replaceScimGroup {input : ScimGroupReplaceInput} (hrefers : schema.Refers .memberships s.tables)
    {r : Except DatabaseError ScimGroupMutationOutcome}
    (h : (DbCall.replaceScimGroup input).exec s = (r, s')) :
    (∃ a, r = .ok a ∧ a.isApplied = true ∧ ∀ o g u, IsMember o g u s'.tables ↔
      if input.organizationId = o ∧ input.groupId = g then u ∈ input.memberUserIds
      else IsMember o g u s.tables) ∨
      ((∀ a, r = .ok a → ¬ a.isApplied = true) ∧ s' = s) := by
  refine Tx.atomic_applied (fun a => a.isApplied = true)
    (fun s' => ∀ o g u, IsMember o g u s'.tables ↔
      if input.organizationId = o ∧ input.groupId = g then u ∈ input.memberUserIds
      else IsMember o g u s.tables) (fun b s₁ hrun => ?_) h
  rcases run_replaceScimGroup hrun with
    ⟨group, s₂, s₃, updated, deleted, rfl, hgroup, hupdate, hdelete, hinsert⟩ | ⟨a, rfl, hnot, -⟩
  swap
  · exact .inr ⟨a, rfl, hnot⟩
  refine .inl ⟨_, rfl, rfl, fun o g u => ?_⟩
  obtain ⟨hrefers₃, hgroup₃, hmembers₂⟩ := replacing_of_refers hrefers hgroup hupdate hdelete
  rw [run_insertScimGroupMemberIds hrefers₃ hgroup₃ hinsert, run_deleteMemberships hdelete,
    hmembers₂]
  simp only [decide_eq_false_iff_not]
  split
  · rename_i hsame
    obtain ⟨rfl, rfl⟩ := hsame
    constructor
    · rintro (⟨m, -, hnot, ho, hg, rfl⟩ | ⟨-, -, hu⟩)
      · by_contra hu
        exact hnot ⟨ho, hg, hu⟩
      · exact hu
    · exact fun hu => .inr ⟨rfl, rfl, hu⟩
  · rename_i hother
    constructor
    · rintro (⟨m, hm, -, hmember⟩ | ⟨ho, hg, -⟩)
      · exact ⟨m, hm, hmember⟩
      · exact absurd ⟨ho, hg⟩ hother
    · rintro ⟨m, hm, rfl, rfl, rfl⟩
      exact .inl ⟨m, hm, fun h => hother ⟨h.1.symm, h.2.1.symm⟩, rfl, rfl, rfl⟩

/-- An upsert adds the user, or has no effect. -/
theorem exec_upsertGroupMembership {m : Membership} {slug : String}
    (hrefers : schema.Refers .memberships s.tables)
    {r : Except DatabaseError MembershipMutationOutcome}
    (h : (DbCall.upsertGroupMembership m slug).exec s = (r, s')) :
    (∃ a, r = .ok a ∧ a = .applied ∧ ∀ o g u, IsMember o g u s'.tables ↔
      IsMember o g u s.tables ∨ (m.organizationId = o ∧ m.groupId = g ∧ m.userId = u)) ∨
      ((∀ a, r = .ok a → ¬ a = .applied) ∧ s' = s) := by
  refine Tx.atomic_applied (fun a => a = .applied) (fun s' => ∀ o g u, IsMember o g u s'.tables ↔
      IsMember o g u s.tables ∨ (m.organizationId = o ∧ m.groupId = g ∧ m.userId = u))
    (fun b s₁ hrun => ?_) h
  obtain ⟨group, s₂, hlock, hrest⟩ := Stmts.run_bind_eq_ok.mp hrun
  cases group with
  | none =>
    cases hrest
    exact .inr ⟨_, rfl, nofun⟩
  | some group =>
    obtain ⟨hgroup, rfl⟩ := run_lockedGroup hlock
    obtain ⟨found, s₃, hread, hrest⟩ := Stmts.run_bind_eq_ok.mp hrest
    obtain rfl := (Stmts.run_readonly (reads_userExists ..) hread).symm
    split at hrest
    · cases hrest
      exact .inr ⟨_, rfl, nofun⟩
    obtain ⟨role, s₃, hread, hrest⟩ := Stmts.run_bind_eq_ok.mp hrest
    obtain rfl := (Stmts.run_readonly (reads_lockedMembershipRole ..) hread).symm
    obtain ⟨refused, s₃, hread, hrest⟩ := Stmts.run_bind_eq_ok.mp hrest
    obtain rfl := (Stmts.run_readonly (reads_lastOwnerCheck ..) hread).symm
    split at hrest
    · cases hrest
      exact .inr ⟨_, rfl, nofun⟩
    obtain ⟨_, s₃, hupsert, hrest⟩ := Stmts.run_bind_eq_ok.mp hrest
    cases hrest
    exact .inl ⟨_, rfl, rfl, run_upsertMembership hrefers hgroup hupsert⟩

/-- A deletion removes the user, or has no effect. -/
theorem exec_deleteGroupMembership {o : OrganizationId} {g : GroupId} {u : UserId} {slug : String}
    {r : Except DatabaseError MembershipMutationOutcome}
    (h : (DbCall.deleteGroupMembership o g u slug).exec s = (r, s')) :
    (∃ a, r = .ok a ∧ a = .applied ∧ ∀ o' g' u', IsMember o' g' u' s'.tables ↔
      IsMember o' g' u' s.tables ∧ ¬ (o = o' ∧ g = g' ∧ u = u')) ∨
      ((∀ a, r = .ok a → ¬ a = .applied) ∧ s' = s) := by
  refine Tx.atomic_applied (fun a => a = .applied) (fun s' => ∀ o' g' u', IsMember o' g' u' s'.tables ↔
      IsMember o' g' u' s.tables ∧ ¬ (o = o' ∧ g = g' ∧ u = u')) (fun b s₁ hrun => ?_) h
  obtain ⟨group, s₂, hlock, hrest⟩ := Stmts.run_bind_eq_ok.mp hrun
  obtain rfl := (Stmts.run_readonly (reads_lockedGroup ..) hlock).symm
  cases group with
  | none =>
    cases hrest
    exact .inr ⟨_, rfl, nofun⟩
  | some group =>
    obtain ⟨role, s₃, hread, hrest⟩ := Stmts.run_bind_eq_ok.mp hrest
    obtain rfl := (Stmts.run_readonly (reads_lockedMembershipRole ..) hread).symm
    cases role with
    | none =>
      cases hrest
      exact .inr ⟨_, rfl, nofun⟩
    | some role =>
      obtain ⟨refused, s₃, hread, hrest⟩ := Stmts.run_bind_eq_ok.mp hrest
      obtain rfl := (Stmts.run_readonly (reads_lastOwnerCheck ..) hread).symm
      split at hrest
      · cases hrest
        exact .inr ⟨_, rfl, nofun⟩
      obtain ⟨_, s₃, hdelete, hrest⟩ := Stmts.run_bind_eq_ok.mp hrest
      cases hrest
      refine .inl ⟨_, rfl, rfl, fun o' g' u' => ?_⟩
      rw [run_deleteMemberships hdelete, IsMember]
      simp only [decide_eq_false_iff_not]
      constructor
      · rintro ⟨m, hm, hnot, rfl, rfl, rfl⟩
        refine ⟨⟨m, hm, rfl, rfl, rfl⟩, ?_⟩
        rintro ⟨rfl, rfl, rfl⟩
        exact hnot ⟨rfl, rfl, rfl⟩
      · rintro ⟨⟨m, hm, rfl, rfl, rfl⟩, hnot⟩
        refine ⟨m, hm, ?_, rfl, rfl, rfl⟩
        rintro ⟨rfl, rfl, rfl⟩
        exact hnot ⟨rfl, rfl, rfl⟩

end effects

end Database

end CairnId
