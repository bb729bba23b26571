import CairnId.Database.Evolution

/-!
# The transactions of provisioning

What the methods that change a user's attributes or a group's members make of the
tables of users and memberships, exactly.
-/

namespace CairnId

open Concurrency Concurrency.Sql Prog

namespace Database

/-- The statement only reads. -/
abbrev Reads (e : Stmt Row) : Prop := e.target = none

theorem reads_lock (t : Tab) (m : LockMode) (p : Db → Row t → Bool) : (lock t m p).All Reads :=
  .perform rfl

theorem reads_select : select.All Reads := .perform rfl

theorem reads_lockedUserForUpdate (o : OrganizationId) (u : UserId) :
    (lockedUserForUpdate o u).All Reads := .bind (reads_lock ..) fun _ => .ret _

theorem reads_activeGroupOwnerCountExcludingUser (o : OrganizationId) (g : GroupId) (u : UserId) :
    (activeGroupOwnerCountExcludingUser o g u).All Reads := .bind reads_select fun _ => .ret _

theorem reads_deactivationWouldRemoveLastOwner (o : OrganizationId) (u : UserId)
    (current next : UserStatus) (slug : String) :
    (deactivationWouldRemoveLastOwner o u current next slug).All Reads := by
  unfold deactivationWouldRemoveLastOwner
  split
  · trivial
  refine .bind (.bind (reads_lock ..) fun _ => .ret _) fun g => ?_
  split
  · refine .bind (.bind reads_select fun _ => .ret _) fun owner => ?_
    split
    · trivial
    · exact .bind (reads_activeGroupOwnerCountExcludingUser ..) fun _ => .ret _
  · trivial

theorem leaves_revokeUserRuntimeCredentials (o : OrganizationId) (u : UserId) (i : OffsetDateTime) :
    (revokeUserRuntimeCredentials o u i).All fun e => e.target ≠ some .users :=
  .bind (.perform nofun) fun _ => .bind (.perform nofun) fun _ => .bind (.perform nofun) fun _ =>
    .ret _

/-- `WHERE organization_id = $ AND id = $`. -/
def isTenantUser (organizationId : OrganizationId) (userId : UserId) (u : UserWithPassword) : Bool :=
  u.user.organizationId = organizationId ∧ u.user.id = userId

theorem run_fetchOne_eq_ok {α : Type} {rows : List α} {a : α} {s s' : Store}
    (h : Stmts.run DatabaseError.sqlx (fetchOne rows) s = .ok (a, s')) : a ∈ rows ∧ s = s' := by
  cases rows with
  | nil => cases h
  | cons r rows =>
    cases h
    exact ⟨List.mem_cons_self, rfl⟩

/-- One user, found by organization and id, is rewritten. -/
def UserRewritten (o : OrganizationId) (u : UserId) (f : UserWithPassword → UserWithPassword)
    (db db' : Db) : Prop :=
  (∃ row ∈ db .users, isTenantUser o u row = true) ∧
    db' .users = (db .users).map fun row => if isTenantUser o u row then f row else row

section rewritten

variable {o : OrganizationId} {u : UserId} {f : UserWithPassword → UserWithPassword} {s s' : Store}

theorem UserRewritten.find?_eq (h : UserRewritten o u f s.tables s'.tables)
    (hid : ∀ row, (f row).user.id = row.user.id) (userId : UserId) :
    (s'.tables .users).find? (fun row => row.user.id = userId) =
      ((s.tables .users).find? fun row => row.user.id = userId).map fun row =>
        if isTenantUser o u row then f row else row := by
  rw [h.2, List.find?_map]
  congr 2
  funext row
  by_cases hrow : isTenantUser o u row = true
  · simp [hrow, hid]
  · simp [hrow]

/-- The user itself. -/
theorem UserRewritten.find?_self (h : UserRewritten o u f s.tables s'.tables)
    (hid : ∀ row, (f row).user.id = row.user.id) :
    ∃ row, (s.tables .users).find? (fun row => row.user.id = u) = some row ∧
      (s'.tables .users).find? (fun row => row.user.id = u) = some (f row) := by
  obtain ⟨row, hrow, htenant⟩ := h.1
  have hfound : (s.tables .users).find? (fun row => row.user.id = u) = some row := by
    have hrowId : row.user.id = u := by simp_all [isTenantUser]
    refine (s.unique .users).find?_eq_some hrow (by simpa using hrowId) (k := .id u) ?_
    intro row' hrow'
    simp only [decide_eq_true_eq] at hrow'
    simp [Schema.entries, schema, hrow']
  refine ⟨row, hfound, ?_⟩
  rw [h.find?_eq hid, hfound, Option.map_some, if_pos htenant]

/-- Every other user. -/
theorem UserRewritten.find?_of_ne (h : UserRewritten o u f s.tables s'.tables)
    (hid : ∀ row, (f row).user.id = row.user.id) {userId : UserId} (hne : userId ≠ u) :
    (s'.tables .users).find? (fun row => row.user.id = userId) =
      (s.tables .users).find? fun row => row.user.id = userId := by
  rw [h.find?_eq hid]
  cases hfind : (s.tables .users).find? fun row => row.user.id = userId with
  | none => rfl
  | some row =>
    have hrow : row.user.id = userId := by simpa using List.find?_some hfind
    have hnot : ¬ isTenantUser o u row = true := by simp [isTenantUser, hrow, hne]
    rw [Option.map_some, if_neg hnot]

end rewritten

/-- The statements that write one user row: the update, its answer, and then
    anything that leaves the table of users alone. -/
theorem run_updateTenantUser {o : OrganizationId} {u : UserId}
    {f : UserWithPassword → UserWithPassword} {β : Type}
    {rest : UserWithPassword → Statements (End β)} {s s' : Store} {b : End β}
    (hleave : ∀ row, (rest row).All fun e => e.target ≠ some .users)
    (h : Stmts.run DatabaseError.sqlx (do
      let updated ← update .users
        (fun _ row => row.user.organizationId = o ∧ row.user.id = u) f
      let row ← fetchOne updated
      rest row) s = .ok (b, s')) : UserRewritten o u f s.tables s'.tables := by
  obtain ⟨updated, s₁, hu, hrest⟩ := Stmts.run_bind_eq_ok.mp h
  obtain ⟨rfl, htables⟩ := run_update_eq_ok hu
  obtain ⟨row, s₂, hf, hrest⟩ := Stmts.run_bind_eq_ok.mp hrest
  obtain ⟨hrow, rfl⟩ := run_fetchOne_eq_ok hf
  constructor
  · obtain ⟨old, hold, -⟩ := List.mem_map.mp hrow
    exact ⟨old, (List.mem_filter.mp hold).1, (List.mem_filter.mp hold).2⟩
  · rw [Stmts.run_frame (hleave row) hrest, htables, Function.update_self]
    rfl

def UserStatusMutationOutcome.isApplied : UserStatusMutationOutcome → Bool
  | .applied _ => true
  | _ => false

/-- The row that a status update makes of a user. -/
def statusUpdated (status : UserStatus) (instant : OffsetDateTime) (u : UserWithPassword) :
    UserWithPassword :=
  { u with user := { u.user with status := status, updatedAt := instant } }

/-- A status update writes one row or has no effect. -/
theorem exec_updateUserStatus {o : OrganizationId} {u : UserId} {status : UserStatus}
    {slug : String} {i : OffsetDateTime} {s s' : Store}
    {r : Except DatabaseError UserStatusMutationOutcome}
    (h : (DbCall.updateUserStatus o u status slug i).exec s = (r, s')) :
    (∃ a, r = .ok a ∧ a.isApplied = true ∧
      UserRewritten o u (statusUpdated status i) s.tables s'.tables) ∨
      ((∀ a, r = .ok a → ¬ a.isApplied = true) ∧ s' = s) := by
  refine Tx.atomic_applied (fun a => a.isApplied = true)
    (fun s' => UserRewritten o u (statusUpdated status i) s.tables s'.tables)
    (fun b s₁ hrun => ?_) h
  obtain ⟨existing, s₂, hlock, hrest⟩ := Stmts.run_bind_eq_ok.mp hrun
  obtain rfl := (Stmts.run_readonly (reads_lockedUserForUpdate ..) hlock).symm
  split at hrest
  · obtain ⟨refused, s₃, hread, hrest⟩ := Stmts.run_bind_eq_ok.mp hrest
    obtain rfl := (Stmts.run_readonly (reads_deactivationWouldRemoveLastOwner ..) hread).symm
    split at hrest
    · cases hrest
      exact .inr ⟨_, rfl, (by rintro ⟨⟩)⟩
    have hwrite := run_updateTenantUser (fun row =>
      .bind (.when (leaves_revokeUserRuntimeCredentials o u i)) fun _ => .ret _) hrest
    obtain ⟨updated, s₃, -, hrest⟩ := Stmts.run_bind_eq_ok.mp hrest
    obtain ⟨row, s₄, -, hrest⟩ := Stmts.run_bind_eq_ok.mp hrest
    obtain ⟨_, s₅, -, hrest⟩ := Stmts.run_bind_eq_ok.mp hrest
    cases hrest
    exact .inl ⟨_, rfl, rfl, hwrite⟩
  · cases hrest
    exact .inr ⟨_, rfl, (by rintro ⟨⟩)⟩

def ScimUserUpdateOutcome.isApplied : ScimUserUpdateOutcome → Bool
  | .applied _ => true
  | _ => false

theorem reads_userExternalIdTaken (o : OrganizationId) (u : UserId) (externalId : Option String) :
    (match externalId with
      | some externalId => userScimExternalIdIsTaken o u externalId
      | none => pure false).All Reads := by
  split
  · exact .bind reads_select fun _ => .ret _
  · trivial

/-- The row that a SCIM update makes of a user. -/
def scimUpdated (input : ScimUserUpdateInput) (emailVerified : Bool) (u : UserWithPassword) :
    UserWithPassword :=
  { u with user := { u.user with
    email := input.email
    scimExternalId := input.scimExternalId
    emailVerified := emailVerified
    displayName := input.displayName
    status := input.status
    updatedAt := input.instant } }

/-- A SCIM update writes one row or has no effect. -/
theorem exec_updateUserFromScim {input : ScimUserUpdateInput} {s s' : Store}
    {r : Except DatabaseError ScimUserUpdateOutcome}
    (h : (DbCall.updateUserFromScim input).exec s = (r, s')) :
    (∃ a, r = .ok a ∧ a.isApplied = true ∧ ∃ emailVerified, UserRewritten input.organizationId
      input.userId (scimUpdated input emailVerified) s.tables s'.tables) ∨
      ((∀ a, r = .ok a → ¬ a.isApplied = true) ∧ s' = s) := by
  refine Tx.atomic_applied (fun a => a.isApplied = true)
    (fun s' => ∃ emailVerified, UserRewritten input.organizationId input.userId
      (scimUpdated input emailVerified) s.tables s'.tables)
    (fun b s₁ hrun => ?_) h
  obtain ⟨existing, s₂, hlock, hrest⟩ := Stmts.run_bind_eq_ok.mp hrun
  obtain rfl := (Stmts.run_readonly (reads_lockedUserForUpdate ..) hlock).symm
  cases existing with
  | none =>
    cases hrest
    exact .inr ⟨_, rfl, (by rintro ⟨⟩)⟩
  | some existingUser =>
    obtain ⟨taken, s₃, hread, hrest⟩ := Stmts.run_bind_eq_ok.mp hrest
    obtain rfl := (Stmts.run_readonly (.bind reads_select fun _ => .ret _) hread).symm
    split at hrest
    · cases hrest
      exact .inr ⟨_, rfl, (by rintro ⟨⟩)⟩
    obtain ⟨taken, s₃, hread, hrest⟩ := Stmts.run_bind_eq_ok.mp hrest
    obtain rfl := (Stmts.run_readonly (reads_userExternalIdTaken ..) hread).symm
    split at hrest
    · cases hrest
      exact .inr ⟨_, rfl, (by rintro ⟨⟩)⟩
    obtain ⟨refused, s₃, hread, hrest⟩ := Stmts.run_bind_eq_ok.mp hrest
    obtain rfl := (Stmts.run_readonly (reads_deactivationWouldRemoveLastOwner ..) hread).symm
    split at hrest
    · cases hrest
      exact .inr ⟨_, rfl, (by rintro ⟨⟩)⟩
    have hwrite : UserRewritten input.organizationId input.userId (scimUpdated input
        (!decide (existingUser.email ≠ input.email) && existingUser.emailVerified)) s.tables
        s₁.tables := by
      refine run_updateTenantUser (fun row => ?_) hrest
      exact .bind (.when (.bind (.perform (by rintro ⟨⟩)) fun _ => .ret _)) fun _ =>
        .bind (.when (leaves_revokeUserRuntimeCredentials ..)) fun _ => .ret _
    obtain ⟨updated, s₃, -, hrest⟩ := Stmts.run_bind_eq_ok.mp hrest
    obtain ⟨row, s₄, -, hrest⟩ := Stmts.run_bind_eq_ok.mp hrest
    obtain ⟨_, s₅, -, hrest⟩ := Stmts.run_bind_eq_ok.mp hrest
    obtain ⟨_, s₆, -, hrest⟩ := Stmts.run_bind_eq_ok.mp hrest
    cases hrest
    exact .inl ⟨_, rfl, rfl, _, hwrite⟩

-- groups

theorem reads_lockedGroup (o : OrganizationId) (g : GroupId) : (lockedGroup o g).All Reads :=
  .bind (reads_lock ..) fun _ => .ret _

theorem reads_lockedMembershipRole (o : OrganizationId) (g : GroupId) (u : UserId) :
    (lockedMembershipRole o g u).All Reads := .bind (reads_lock ..) fun _ => .ret _

theorem reads_userExists (o : OrganizationId) (u : UserId) : (userExists o u).All Reads :=
  .bind reads_select fun _ => .ret _

theorem reads_wouldRemoveLastActiveOwner (o : OrganizationId) (g : GroupId) (u : UserId) :
    (wouldRemoveLastActiveOwner o g u).All Reads :=
  .bind reads_select fun _ => .bind (reads_activeGroupOwnerCountExcludingUser ..) fun _ => .ret _

theorem reads_groupExternalIdTaken (o : OrganizationId) (g : Option GroupId)
    (externalId : Option String) :
    (match externalId with
      | some externalId => groupExternalIdExists o externalId g
      | none => pure false).All Reads := by
  split
  · exact .bind reads_select fun _ => .ret _
  · trivial

theorem reads_allUsersExist (o : OrganizationId) (us : List UserId) :
    (allUsersExist o us).All Reads := by
  unfold allUsersExist
  split
  · trivial
  · exact .bind reads_select fun _ => .ret _

theorem reads_lastOwnerCheck {c : Prop} [Decidable c] (o : OrganizationId) (g : GroupId)
    (u : UserId) :
    (if c then wouldRemoveLastActiveOwner o g u else pure false).All Reads := by
  split
  · exact reads_wouldRemoveLastActiveOwner ..
  · trivial

/-- The statement leaves the users alone. -/
abbrev LeavesUsers (e : Stmt Row) : Prop := e.target ≠ some .users

theorem leavesUsers_of_reads {α : Type} {p : Statements α} (hp : p.All Reads) :
    p.All LeavesUsers := hp.mono fun e he => by simp [LeavesUsers, he]

theorem leavesUsers_insertScimGroupMemberIds (o : OrganizationId) (g : GroupId)
    (i : OffsetDateTime) (us : List UserId) :
    (insertScimGroupMemberIds o g i us).All LeavesUsers := by
  induction us with
  | nil => trivial
  | cons u us ih => exact .bind (.bind (.perform nofun) fun _ => .ret _) fun _ => ih

theorem leavesUsers_replaceScimGroup (input : ScimGroupReplaceInput) :
    (replaceScimGroup input).All LeavesUsers := by
  refine .bind (leavesUsers_of_reads (reads_lockedGroup ..)) fun group => ?_
  split
  · split
    · trivial
    refine .bind (leavesUsers_of_reads (reads_groupExternalIdTaken ..)) fun taken => ?_
    split
    · trivial
    refine .bind (leavesUsers_of_reads (reads_allUsersExist ..)) fun found => ?_
    split
    · trivial
    refine .bind (.perform nofun) fun updated => .bind ?_ fun _ => .bind (.perform nofun) fun _ =>
      .bind (leavesUsers_insertScimGroupMemberIds ..) fun _ => .ret _
    cases updated <;> trivial
  · trivial

theorem leavesUsers_upsertGroupMembership (m : Membership) (slug : String) :
    (upsertGroupMembership m slug).All LeavesUsers := by
  refine .bind (leavesUsers_of_reads (reads_lockedGroup ..)) fun group => ?_
  split
  · refine .bind (leavesUsers_of_reads (reads_userExists ..)) fun found => ?_
    split
    · trivial
    refine .bind (leavesUsers_of_reads (reads_lockedMembershipRole ..)) fun role =>
      .bind (leavesUsers_of_reads (reads_lastOwnerCheck ..)) fun refused => ?_
    split
    · trivial
    · exact .bind (.bind (.perform nofun) fun _ => .ret _) fun _ => .ret _
  · trivial

theorem leavesUsers_deleteGroupMembership (o : OrganizationId) (g : GroupId) (u : UserId)
    (slug : String) : (deleteGroupMembership o g u slug).All LeavesUsers := by
  refine .bind (leavesUsers_of_reads (reads_lockedGroup ..)) fun group => ?_
  split
  · refine .bind (leavesUsers_of_reads (reads_lockedMembershipRole ..)) fun role => ?_
    split
    · refine .bind (leavesUsers_of_reads (reads_lastOwnerCheck ..)) fun refused => ?_
      split
      · trivial
      · exact .bind (.perform nofun) fun _ => .ret _
    · trivial
  · trivial

end Database

end CairnId
