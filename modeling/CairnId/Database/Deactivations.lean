import CairnId.Database.LastOwner

/-!
# Who is left when a user goes

Two methods can deactivate a user, and look before they do whether the protected group
keeps an active owner.

## Main definitions

- `DeactivationEndangers` — the deactivation of the last active owner
- `ScimEndangers` — a SCIM update that comes as far as that

## Main results

- `exec_status_of_endangers`, `exec_status_congr`, `exec_status_safe` — the status update
- `exec_scim_of_endangers`, `exec_scim_congr`, `exec_scim_safe` — the SCIM update
-/

namespace CairnId

open Concurrency Concurrency.Sql Prog

namespace Database

variable {slug : String} {o : OrganizationId} {u : UserId} {gid : GroupId} {db db' : Db}
  {s s' : Store}

-- update_user_status and update_user_from_scim

section deactivation

variable {g : Group} {row : UserWithPassword} {next : UserStatus}

/-- The deactivation that would take the last active owner away. -/
def DeactivationEndangers (o : OrganizationId) (u : UserId) (next : UserStatus) (slug : String)
    (db : Db) : Prop :=
  next ≠ .active ∧ ∃ g ∈ db .groups, g.organizationId = o ∧ g.slug = slug ∧
    LastActiveOwner o g.id u db

instance (o : OrganizationId) (u : UserId) (next : UserStatus) (slug : String) (db : Db) :
    Decidable (DeactivationEndangers o u next slug db) :=
  inferInstanceAs (Decidable (_ ∧ ∃ g ∈ db .groups, _))

/-- The row of an active owner. -/
theorem active_of_activeOwner {m : Membership} (hrow : row ∈ s.tables .users)
    (hactive : activeOwner s.tables o gid m = true) (huser : m.userId = row.user.id) :
    row.user.status = .active := by
  obtain ⟨-, -, -, row', hrow', hid, -, hstatus⟩ := of_decide_eq_true hactive
  obtain rfl := (s.unique .users).eq_of_key hrow' hrow (by simp [schema, hid, huser])
  exact hstatus

theorem run_protectedOwnerGroupId_of_mem (hg : g ∈ s.tables .groups) :
    Stmts.run DatabaseError.sqlx (protectedOwnerGroupIdForUpdate g.organizationId g.slug) s =
      .ok (some g.id, s) := by
  have hrows : (s.tables .groups).filter (fun g' => g'.organizationId = g.organizationId ∧
      g'.slug = g.slug) = [g] :=
    (s.unique .groups).filter_eq_singleton hg (by simp) (k := .named g.organizationId g.slug)
      fun g' hg' => by simp [Schema.entries, schema, of_decide_eq_true hg']
  show Except.ok ((((s.tables .groups).filter _).head?).map _, s) = _
  rw [hrows]
  rfl

theorem run_protectedOwnerGroupId_none
    (h : ∀ g ∈ s.tables .groups, ¬(g.organizationId = o ∧ g.slug = slug)) :
    Stmts.run DatabaseError.sqlx (protectedOwnerGroupIdForUpdate o slug) s = .ok (none, s) := by
  have hrows : (s.tables .groups).filter (fun g => g.organizationId = o ∧ g.slug = slug) = [] := by
    refine List.filter_eq_nil_iff.mpr fun g hg => ?_
    rw [decide_eq_true_eq]
    exact h g hg
  show Except.ok ((((s.tables .groups).filter _).head?).map _, s) = _
  rw [hrows]
  rfl

/-- Whether an owner is the last active one. -/
theorem lastActiveOwner_iff_of_active (hrow : row ∈ s.tables .users)
    (hstatus : row.user.status = .active) :
    LastActiveOwner row.user.organizationId gid row.user.id s.tables ↔
      (∃ m ∈ s.tables .memberships, m.organizationId = row.user.organizationId ∧ m.groupId = gid ∧
        m.userId = row.user.id ∧ m.role = .owner) ∧
      ∀ m ∈ s.tables .memberships, activeOwner s.tables row.user.organizationId gid m = true →
        m.userId = row.user.id := by
  refine and_congr_left fun _ => exists_congr fun m => and_congr_right fun _ => ?_
  constructor
  · rintro ⟨hactive, huser⟩
    obtain ⟨ho, hg, hrole, -⟩ := of_decide_eq_true hactive
    exact ⟨ho, hg, huser, hrole⟩
  · rintro ⟨ho, hg, huser, hrole⟩
    exact ⟨decide_eq_true ⟨ho, hg, hrole, row, hrow, huser.symm, ho.symm, hstatus⟩, huser⟩

theorem run_userIsGroupOwner (o : OrganizationId) (id : GroupId) (u : UserId) (s : Store) :
    Stmts.run DatabaseError.sqlx (userIsGroupOwner o id u) s =
      .ok (decide (∃ m ∈ s.tables .memberships, m.organizationId = o ∧ m.groupId = id ∧
        m.userId = u ∧ m.role = .owner), s) := by
  show Except.ok ((s.tables .memberships).any _, s) = _
  congr 2
  rw [Bool.eq_iff_iff, List.any_eq_true, decide_eq_true_eq]
  simp only [decide_eq_true_eq]

/-- The check that a deactivation makes. -/
theorem run_deactivationWouldRemoveLastOwner (hrow : row ∈ s.tables .users) (next : UserStatus)
    (slug : String) : Stmts.run DatabaseError.sqlx (deactivationWouldRemoveLastOwner
        row.user.organizationId row.user.id row.user.status next slug) s =
      .ok (decide (DeactivationEndangers row.user.organizationId row.user.id next slug s.tables),
        s) := by
  unfold deactivationWouldRemoveLastOwner
  by_cases hearly : row.user.status ≠ .active ∨ next = .active
  · have hnot : ¬DeactivationEndangers row.user.organizationId row.user.id next slug s.tables := by
      rintro ⟨hnext, g, -, -, -, ⟨m, -, hactive, huser⟩, -⟩
      exact hearly.elim (fun hstatus => hstatus (active_of_activeOwner hrow hactive huser)) hnext
    rw [if_pos (by simpa using hearly), decide_eq_false hnot]
    rfl
  · obtain ⟨hstatus, hnext⟩ := not_or.mp hearly
    rw [not_not] at hstatus
    rw [if_neg (by simpa using hearly)]
    by_cases hgroup : ∃ g ∈ s.tables .groups, g.organizationId = row.user.organizationId ∧
        g.slug = slug
    · obtain ⟨g, hg, ho, rfl⟩ := hgroup
      have hlocked := run_protectedOwnerGroupId_of_mem hg
      rw [ho] at hlocked
      have hendangers : DeactivationEndangers row.user.organizationId row.user.id next g.slug
          s.tables ↔ LastActiveOwner row.user.organizationId g.id row.user.id s.tables := by
        constructor
        · rintro ⟨-, g', hg', ho', hslug, hlast⟩
          obtain rfl := eq_of_slug hg' hg (ho'.trans ho.symm) hslug
          exact hlast
        · exact fun hlast => ⟨hnext, g, hg, ho, rfl, hlast⟩
      rw [lastActiveOwner_iff_of_active hrow hstatus] at hendangers
      rw [run_bind_of_ok hlocked]
      dsimp only
      by_cases howns : ∃ m ∈ s.tables .memberships, m.organizationId = row.user.organizationId ∧
          m.groupId = g.id ∧ m.userId = row.user.id ∧ m.role = .owner
      · rw [run_bind_of_ok (run_userIsGroupOwner ..), decide_eq_true howns,
          if_neg (by decide)]
        show Except.ok (decide _, s) = _
        congr 2
        rw [decide_eq_decide, otherOwners_eq_zero_iff, hendangers]
        exact (and_iff_right howns).symm
      · have hnot : ¬DeactivationEndangers row.user.organizationId row.user.id next g.slug
            s.tables := fun h => howns (hendangers.mp h).1
        rw [run_bind_of_ok (run_userIsGroupOwner ..), decide_eq_false howns, decide_eq_false hnot]
        rfl
    · have hnone : ∀ g ∈ s.tables .groups,
          ¬(g.organizationId = row.user.organizationId ∧ g.slug = slug) :=
        fun g hg hsame => hgroup ⟨g, hg, hsame⟩
      have hnot : ¬DeactivationEndangers row.user.organizationId row.user.id next slug
          s.tables := by
        rintro ⟨-, g, hg, ho, hslug, -⟩
        exact hnone g hg ⟨ho, hslug⟩
      rw [run_bind_of_ok (run_protectedOwnerGroupId_none hnone), decide_eq_false hnot]
      rfl

theorem run_lockedUserForUpdate_of_mem (hrow : row ∈ s.tables .users) :
    Stmts.run DatabaseError.sqlx (lockedUserForUpdate row.user.organizationId row.user.id) s =
      .ok (some row.user, s) := by
  have hrows : (s.tables .users).filter (fun u => u.user.organizationId =
      row.user.organizationId ∧ u.user.id = row.user.id) = [row] :=
    (s.unique .users).filter_eq_singleton hrow (by simp) (k := .id row.user.id)
      fun u hu => by simp [Schema.entries, schema, (of_decide_eq_true hu).2]
  show Except.ok ((((s.tables .users).filter _).head?).map _, s) = _
  rw [hrows]
  rfl

theorem run_lockedUserForUpdate_none
    (h : ∀ row ∈ s.tables .users, ¬(row.user.organizationId = o ∧ row.user.id = u)) :
    Stmts.run DatabaseError.sqlx (lockedUserForUpdate o u) s = .ok (none, s) := by
  have hrows : (s.tables .users).filter (fun row => row.user.organizationId = o ∧
      row.user.id = u) = [] := by
    refine List.filter_eq_nil_iff.mpr fun row hrow => ?_
    rw [decide_eq_true_eq]
    exact h row hrow
  show Except.ok ((((s.tables .users).filter _).head?).map _, s) = _
  rw [hrows]
  rfl

/-- A user whose status is written leaves an active owner, unless it was the last one and
    is deactivated. -/
theorem hasActiveOwner_rewritten {f : UserWithPassword → UserWithPassword} {o' : OrganizationId}
    (howner : HasActiveOwner slug o' s.tables)
    (hwrite : UserRewritten o u f s.tables s'.tables)
    (hid : ∀ r, (f r).user.id = r.user.id)
    (horg : ∀ r, (f r).user.organizationId = r.user.organizationId)
    (hstatus : ∀ r, (f r).user.status = next)
    (hgroups : s'.tables .groups = s.tables .groups)
    (hmembers : s'.tables .memberships = s.tables .memberships) :
    HasActiveOwner slug o' s'.tables ↔
      ¬(o' = o ∧ DeactivationEndangers o u next slug s.tables) := by
  have hrows : ∀ row, row ∈ s'.tables .users ↔ ∃ r ∈ s.tables .users,
      (if isTenantUser o u r then f r else r) = row := by
    intro row
    rw [hwrite.2, List.mem_map]
  constructor
  · rintro ⟨v, ⟨g, hg, ho, hslug, m, hm, hmo, hmg, rfl, hrole⟩, row, hrow, hrowId, hrowOrg, hactive⟩
      ⟨rfl, hnext, g', hg', ho', hslug', -, hlast⟩
    obtain ⟨r, hr, hsame⟩ := (hrows row).mp hrow
    rw [hgroups] at hg
    rw [hmembers] at hm
    obtain rfl := eq_of_slug hg hg' (ho.trans ho'.symm) (hslug.trans hslug'.symm)
    split at hsame
    · rw [← hsame, hstatus] at hactive
      exact hnext hactive
    · subst hsame
      have howns : m.userId = u := by
        refine hlast m hm (decide_eq_true ⟨hmo, hmg, hrole, r, hr, hrowId, ?_, hactive⟩)
        rw [hrowOrg, hmo]
      have htenant : isTenantUser o' u r = true := decide_eq_true ⟨hrowOrg, hrowId.trans howns⟩
      exact absurd htenant ‹_›
  · intro hnot
    obtain ⟨g, hg, rfl, rfl, m, hm, hactive⟩ := hasActiveOwner_iff.mp howner
    have hkept : ∀ m ∈ s.tables .memberships, activeOwner s.tables g.organizationId g.id m = true →
        ¬(g.organizationId = o ∧ m.userId = u ∧ next ≠ .active) →
        HasActiveOwner g.slug g.organizationId s'.tables := by
      intro m hm hactive hother
      obtain ⟨hmo, hmg, hrole, row, hrow, hrowId, hrowOrg, hrowStatus⟩ := of_decide_eq_true hactive
      refine ⟨m.userId, ⟨g, hgroups ▸ hg, rfl, rfl, m, hmembers ▸ hm, hmo, hmg, rfl, hrole⟩,
        _, (hrows _).mpr ⟨row, hrow, rfl⟩, ?_⟩
      split
      · rename_i htenant
        obtain ⟨hto, htu⟩ := of_decide_eq_true htenant
        refine ⟨(hid row).trans hrowId, (horg row).trans (hrowOrg.trans hmo), ?_⟩
        rw [hstatus]
        by_contra hnext
        exact hother ⟨hmo.symm.trans (hrowOrg.symm.trans hto), hrowId.symm.trans htu, hnext⟩
      · exact ⟨hrowId, hrowOrg.trans hmo, hrowStatus⟩
    by_cases hsame : g.organizationId = o ∧ next ≠ .active
    · obtain ⟨rfl, hnext⟩ := hsame
      have hlast : ¬LastActiveOwner g.organizationId g.id u s.tables :=
        fun hlast => hnot ⟨rfl, hnext, g, hg, rfl, rfl, hlast⟩
      obtain ⟨m', hm', hactive', hne⟩ := (not_lastActiveOwner_iff ⟨m, hm, hactive⟩).mp hlast
      exact hkept m' hm' hactive' fun h => hne h.2.1
    · exact hkept m hm hactive fun h => hsame ⟨h.1, h.2.2⟩

-- update_user_status

/-- The statements that write a status. -/
def writeStatus (o : OrganizationId) (u : UserId) (status : UserStatus) (i : OffsetDateTime) :
    Statements (End UserStatusMutationOutcome) := do
  let updated ← update .users
    (fun _ row => row.user.organizationId = o ∧ row.user.id = u) (statusUpdated status i)
  let updatedRow ← fetchOne updated
  Prog.when (status ≠ .active) (revokeUserRuntimeCredentials o u i)
  return .commit (.applied updatedRow.user)

/-- A status update of a user who is there. -/
theorem run_updateUserStatus (hrow : row ∈ s.tables .users) (status : UserStatus) (slug : String)
    (i : OffsetDateTime) : Stmts.run DatabaseError.sqlx
        (updateUserStatus row.user.organizationId row.user.id status slug i) s =
      if DeactivationEndangers row.user.organizationId row.user.id status slug s.tables then
        .ok (.rollback .wouldDeactivateLastOwner, s)
      else Stmts.run DatabaseError.sqlx
        (writeStatus row.user.organizationId row.user.id status i) s := by
  unfold updateUserStatus
  rw [run_bind_of_ok (run_lockedUserForUpdate_of_mem hrow)]
  dsimp only
  rw [run_bind_of_ok (run_deactivationWouldRemoveLastOwner hrow ..)]
  by_cases hendangers :
      DeactivationEndangers row.user.organizationId row.user.id status slug s.tables
  · rw [if_pos hendangers, decide_eq_true hendangers]
    rfl
  · rw [if_neg hendangers, decide_eq_false hendangers]
    rfl

theorem exec_status_none
    (h : ∀ row ∈ s.tables .users, ¬(row.user.organizationId = o ∧ row.user.id = u))
    (status : UserStatus) (slug : String) (i : OffsetDateTime) :
    (DbCall.updateUserStatus o u status slug i).exec s = (.ok .notFound, s) := by
  have hrun : Stmts.run DatabaseError.sqlx (updateUserStatus o u status slug i) s =
      .ok (.rollback .notFound, s) := by
    unfold updateUserStatus
    rw [run_bind_of_ok (run_lockedUserForUpdate_none h)]
    rfl
  exact atomic_of_rollback hrun

/-- The row of a user whose deactivation is refused. -/
theorem DeactivationEndangers.user (h : DeactivationEndangers o u next slug db) :
    ∃ row ∈ db .users, row.user.organizationId = o ∧ row.user.id = u := by
  obtain ⟨-, g, -, -, -, ⟨m, -, hactive, huser⟩, -⟩ := h
  obtain ⟨ho, -, -, row, hrow, hid, horg, -⟩ := of_decide_eq_true hactive
  exact ⟨row, hrow, horg.trans ho, hid.trans huser⟩

theorem DeactivationEndangers.hasActiveOwner (h : DeactivationEndangers o u next slug db) :
    HasActiveOwner slug o db := by
  obtain ⟨-, g, hg, rfl, rfl, hlast⟩ := h
  exact hlast.hasActiveOwner hg

theorem exec_status_of_endangers {status : UserStatus}
    (h : DeactivationEndangers o u status slug s.tables) (i : OffsetDateTime) :
    (DbCall.updateUserStatus o u status slug i).exec s = (.ok .wouldDeactivateLastOwner, s) := by
  obtain ⟨row, hrow, rfl, rfl⟩ := h.user
  have hrun := run_updateUserStatus hrow status slug i
  rw [if_pos h] at hrun
  exact atomic_of_rollback hrun

theorem exec_status_congr {status : UserStatus} {slug' : String} {i : OffsetDateTime}
    (h : ¬DeactivationEndangers o u status slug s.tables)
    (h' : ¬DeactivationEndangers o u status slug' s.tables) :
    (DbCall.updateUserStatus o u status slug i).exec s =
      (DbCall.updateUserStatus o u status slug' i).exec s := by
  by_cases hthere : ∃ row ∈ s.tables .users, row.user.organizationId = o ∧ row.user.id = u
  · obtain ⟨row, hrow, rfl, rfl⟩ := hthere
    have hrun := run_updateUserStatus hrow status slug i
    have hrun' := run_updateUserStatus hrow status slug' i
    rw [if_neg h] at hrun
    rw [if_neg h'] at hrun'
    exact atomic_congr (hrun.trans hrun'.symm)
  · have hnone : ∀ row ∈ s.tables .users, ¬(row.user.organizationId = o ∧ row.user.id = u) :=
      fun row hrow hsame => hthere ⟨row, hrow, hsame⟩
    rw [exec_status_none hnone, exec_status_none hnone]

-- the write of a user's row

/-- One row is rewritten, with entries that no other row has. -/
theorem unique_rewritten {t : Tab} {rows : List (Row t)} (h : schema.Unique t rows)
    {p : Row t → Bool} {f : Row t → Row t}
    (hone : ∀ a ∈ rows, ∀ b ∈ rows, p a = true → p b = true → a = b)
    (hfresh : ∀ a ∈ rows, p a = true → ∀ b ∈ rows, ¬p b = true → schema.Compatible t b (f a)) :
    schema.Unique t (rows.map fun r => if p r then f r else r) := by
  refine List.pairwise_map.mpr (h.imp_of_mem fun {a b} ha hb hab => ?_)
  by_cases hpa : p a = true
  · by_cases hpb : p b = true
    · obtain rfl := hone a ha b hb hpa hpb
      exact absurd List.mem_cons_self (hab (schema.key t a) List.mem_cons_self)
    · rw [if_pos hpa, if_neg hpb]
      exact (hfresh a ha hpa b hb hpb).symm
  · by_cases hpb : p b = true
    · rw [if_neg hpa, if_pos hpb]
      exact hfresh b hb hpb a ha hpa
    · rwa [if_neg hpa, if_neg hpb]

/-- The statements that write a user's row succeed, when what follows the write does. -/
theorem run_writeUser {f : UserWithPassword → UserWithPassword} {β : Type} {b : β}
    {k : UserWithPassword → Statements β} (hrow : row ∈ s.tables .users)
    (hfresh : ∀ r ∈ s.tables .users, r.user.id ≠ row.user.id →
      schema.Compatible .users r (f row))
    (hrest : ∀ s₁ : Store, ∃ s', Stmts.run DatabaseError.sqlx (k (f row)) s₁ = .ok (b, s')) :
    ∃ s', Stmts.run DatabaseError.sqlx (do
      let updated ← update .users (fun _ r => r.user.organizationId = row.user.organizationId ∧
        r.user.id = row.user.id) f
      let updatedRow ← fetchOne updated
      k updatedRow) s = .ok (b, s') := by
  let p : Db → UserWithPassword → Bool := fun _ r =>
    r.user.organizationId = row.user.organizationId ∧ r.user.id = row.user.id
  have heq : ∀ r ∈ s.tables .users, p s.tables r = true → r = row := by
    intro r hr hp
    exact (s.unique .users).eq_of_key hr hrow (by simp [schema, (of_decide_eq_true hp).2])
  have hunique : schema.Unique .users (Stmt.updated .users p f s.tables) := by
    refine unique_rewritten (s.unique .users) (fun a ha c hc hpa hpc => ?_)
      fun a ha hpa c hc hpc => ?_
    · rw [heq a ha hpa, heq c hc hpc]
    · obtain rfl := heq a ha hpa
      refine hfresh c hc fun hid => hpc ?_
      have hsame : c = a := (s.unique .users).eq_of_key hc ha (by simp [schema, hid])
      rw [hsame]
      exact hpa
  have hrows : (s.tables .users).filter (p s.tables) = [row] :=
    (s.unique .users).filter_eq_singleton hrow (by simp [p]) (k := .id row.user.id) fun r hp => by
      simp [Schema.entries, schema, (of_decide_eq_true hp).2]
  have hupdate : Stmts.run DatabaseError.sqlx (update .users p f) s =
      .ok ([f row], s.set .users _ hunique) := by
    refine Stmts.run_perform_eq_ok.mpr ?_
    simp only [Stmt.exec]
    rw [Store.replace_of_unique hunique, hrows]
    rfl
  obtain ⟨s', hdone⟩ := hrest (s.set .users _ hunique)
  refine ⟨s', ?_⟩
  rw [run_bind_of_ok hupdate]
  exact hdone

theorem run_revokeUserRuntimeCredentials (o : OrganizationId) (u : UserId) (i : OffsetDateTime)
    (s : Store) :
    ∃ s', Stmts.run DatabaseError.sqlx (revokeUserRuntimeCredentials o u i) s = .ok ((), s') := by
  unfold revokeUserRuntimeCredentials
  obtain ⟨s₁, hsessions⟩ := run_update_of_entries (t := .authSessions)
    (f := AuthSessionRow.revoke i)
    (p := fun _ r => r.session.organizationId = o ∧ r.session.userId = u) (fun _ => rfl) s
  obtain ⟨s₂, haccess⟩ := run_update_of_entries (t := .accessTokens)
    (f := AccessTokenRecord.revoke i)
    (p := fun _ t => t.organizationId = o ∧ t.userId = some u) (fun _ => rfl) s₁
  obtain ⟨s₃, hrefresh⟩ := run_update_of_entries (t := .refreshTokens) (f := RefreshToken.revoke i)
    (p := fun _ t => t.organizationId = o ∧ t.userId = some u) (fun _ => rfl) s₂
  refine ⟨s₃, ?_⟩
  rw [run_bind_of_ok hsessions, run_bind_of_ok haccess, run_bind_of_ok hrefresh]
  rfl

/-- A user who is there stays compatible with the others, whatever the status. -/
theorem run_writeStatus_exists (hrow : row ∈ s.tables .users) (status : UserStatus)
    (i : OffsetDateTime) : ∃ s', Stmts.run DatabaseError.sqlx
      (writeStatus row.user.organizationId row.user.id status i) s =
        .ok (.commit (.applied (statusUpdated status i row).user), s') := by
  refine run_writeUser (f := statusUpdated status i) (k := fun updatedRow => do
    Prog.when (status ≠ .active)
      (revokeUserRuntimeCredentials row.user.organizationId row.user.id i)
    return End.commit (UserStatusMutationOutcome.applied updatedRow.user)) hrow
    (fun r hr hid => ?_) fun s₁ => ?_
  · intro k hk hk'
    exact hid (congrArg (·.user.id) ((s.unique .users).eq_of_entry hr hrow hk hk'))
  · by_cases hstatus : status ≠ .active
    · obtain ⟨s', hrevoke⟩ :=
        run_revokeUserRuntimeCredentials row.user.organizationId row.user.id i s₁
      refine ⟨s', ?_⟩
      rw [Prog.when, if_pos hstatus, run_bind_of_ok hrevoke]
      rfl
    · refine ⟨s₁, ?_⟩
      rw [Prog.when, if_neg hstatus]
      rfl

theorem hasActiveOwner_exec_status {status : UserStatus} {i : OffsetDateTime} {o' : OrganizationId}
    {protectedSlug : String} {user : User} (howner : HasActiveOwner slug o' s.tables)
    (happlied : (DbCall.updateUserStatus o u status protectedSlug i).exec s =
      (.ok (.applied user), s')) :
    HasActiveOwner slug o' s'.tables ↔
      ¬(o' = o ∧ DeactivationEndangers o u status slug s.tables) := by
  rcases exec_updateUserStatus happlied with ⟨_, -, -, hwrite⟩ | ⟨hnot, -⟩
  · refine hasActiveOwner_rewritten howner hwrite (fun _ => rfl) (fun _ => rfl) (fun _ => rfl) ?_ ?_
    · have hframe := DbCall.exec_frame (c := .updateUserStatus o u status protectedSlug i)
        (t := .groups) (by simp [DbCall.writes]) s
      rwa [happlied] at hframe
    · have hframe := DbCall.exec_frame (c := .updateUserStatus o u status protectedSlug i)
        (t := .memberships) (by simp [DbCall.writes]) s
      rwa [happlied] at hframe
  · exact absurd rfl (hnot _ rfl)

theorem exec_status_safe {status : UserStatus} {o' : OrganizationId} {protectedSlug : String}
    {i : OffsetDateTime} (howner : HasActiveOwner slug o' s.tables)
    (hsafe : o' = o → ¬DeactivationEndangers o u status slug s.tables) : HasActiveOwner slug o'
      ((DbCall.updateUserStatus o u status protectedSlug i).exec s).2.tables := by
  obtain ⟨r, s', hexec⟩ : ∃ r s', (DbCall.updateUserStatus o u status protectedSlug i).exec s =
    (r, s') := ⟨_, _, rfl⟩
  rw [hexec]
  rcases exec_updateUserStatus hexec with ⟨a, rfl, happlied, -⟩ | ⟨-, rfl⟩
  · cases a with
    | applied user => exact (hasActiveOwner_exec_status howner hexec).mpr fun h => hsafe h.1 h.2
    | notFound | wouldDeactivateLastOwner => cases happlied
  · exact howner

theorem exec_status_unchecked {status : UserStatus} {free : String}
    (hfree : ∀ g ∈ s.tables .groups, g.slug ≠ free)
    (h : DeactivationEndangers o u status slug s.tables) (i : OffsetDateTime) :
    ¬HasActiveOwner slug o ((DbCall.updateUserStatus o u status free i).exec s).2.tables := by
  have howner := h.hasActiveOwner
  have hendangers := h
  obtain ⟨row, hrow, rfl, rfl⟩ := h.user
  have hrun := run_updateUserStatus hrow status free i
  rw [if_neg fun ⟨_, g, hg, _, hslug, _⟩ => hfree g hg hslug] at hrun
  obtain ⟨s', hwrite⟩ := run_writeStatus_exists hrow status i
  have hexec : (DbCall.updateUserStatus row.user.organizationId row.user.id status free i).exec s =
      (.ok (.applied (statusUpdated status i row).user), s') := atomic_of_commit (hrun.trans hwrite)
  rw [hexec]
  intro hafter
  exact (hasActiveOwner_exec_status howner hexec).mp hafter ⟨rfl, hendangers⟩

end deactivation

-- update_user_from_scim

section scim

variable {input : ScimUserUpdateInput} {row : UserWithPassword}

/-- Another user of the organization has the email address. -/
def EmailTaken (input : ScimUserUpdateInput) (db : Db) : Prop :=
  ∃ r ∈ db .users, r.user.organizationId = input.organizationId ∧ r.user.email = input.email ∧
    r.user.id ≠ input.userId

/-- Another user of the organization has the external id. -/
def ExternalIdTaken (input : ScimUserUpdateInput) (db : Db) : Prop :=
  ∃ externalId ∈ input.scimExternalId, ∃ r ∈ db .users,
    r.user.organizationId = input.organizationId ∧ r.user.scimExternalId = some externalId ∧
      r.user.id ≠ input.userId

instance (input : ScimUserUpdateInput) (db : Db) : Decidable (EmailTaken input db) :=
  inferInstanceAs (Decidable (∃ r ∈ db .users, _))

instance (input : ScimUserUpdateInput) (db : Db) : Decidable (ExternalIdTaken input db) :=
  inferInstanceAs (Decidable (∃ externalId ∈ input.scimExternalId, ∃ r ∈ db .users, _))

/-- The update that would take the last active owner away. -/
def ScimEndangers (input : ScimUserUpdateInput) (slug : String) (db : Db) : Prop :=
  ¬EmailTaken input db ∧ ¬ExternalIdTaken input db ∧
    DeactivationEndangers input.organizationId input.userId input.status slug db

theorem run_userEmailIsTaken (input : ScimUserUpdateInput) (s : Store) :
    Stmts.run DatabaseError.sqlx
      (userEmailIsTaken input.organizationId input.userId input.email) s =
        .ok (decide (EmailTaken input s.tables), s) := by
  show Except.ok ((s.tables .users).any _, s) = _
  congr 2
  rw [Bool.eq_iff_iff, List.any_eq_true, decide_eq_true_eq]
  simp only [decide_eq_true_eq]
  rfl

theorem run_userExternalIdTaken (input : ScimUserUpdateInput) (s : Store) :
    Stmts.run DatabaseError.sqlx (match input.scimExternalId with
      | some externalId => userScimExternalIdIsTaken input.organizationId input.userId externalId
      | none => pure false) s = .ok (decide (ExternalIdTaken input s.tables), s) := by
  cases hid : input.scimExternalId with
  | none =>
    have hnot : ¬ExternalIdTaken input s.tables := by
      rintro ⟨externalId, hmem, -⟩
      rw [hid] at hmem
      cases hmem
    rw [decide_eq_false hnot]
    rfl
  | some externalId =>
    show Except.ok ((s.tables .users).any _, s) = _
    congr 2
    rw [Bool.eq_iff_iff, List.any_eq_true, decide_eq_true_eq, ExternalIdTaken, hid]
    simp only [decide_eq_true_eq, Option.mem_some_iff, exists_eq_left']

/-- The statements that write what a SCIM update makes of a user. -/
def writeScimUser (input : ScimUserUpdateInput) (existingUser : User) :
    Statements (End ScimUserUpdateOutcome) := do
  let emailChanged : Bool := existingUser.email ≠ input.email
  let updated ← update .users
    (fun _ r => r.user.organizationId = input.organizationId ∧ r.user.id = input.userId)
    (scimUpdated input (!emailChanged && existingUser.emailVerified))
  let updatedRow ← fetchOne updated
  Prog.when emailChanged do
    let _ ← update .accountTokens
      (fun _ t => t.organizationId = input.organizationId ∧ t.userId = some input.userId ∧
        t.consumedAt = none ∧ input.instant < t.expiresAt)
      (fun t => { t with consumedAt := t.consumedAt.or (some input.instant) })
  Prog.when (input.status ≠ .active)
    (revokeUserRuntimeCredentials input.organizationId input.userId input.instant)
  return .commit (.applied updatedRow.user)

/-- A SCIM update of a user who is there. -/
theorem run_updateUserFromScim (hrow : row ∈ s.tables .users)
    (ho : input.organizationId = row.user.organizationId) (hid : input.userId = row.user.id) :
    Stmts.run DatabaseError.sqlx (updateUserFromScim input) s =
      if EmailTaken input s.tables then .ok (.rollback .emailAlreadyExists, s)
      else if ExternalIdTaken input s.tables then .ok (.rollback .externalIdAlreadyExists, s)
      else if DeactivationEndangers input.organizationId input.userId input.status
          input.protectedOwnerGroupSlug s.tables then
        .ok (.rollback .wouldDeactivateLastOwner, s)
      else Stmts.run DatabaseError.sqlx (writeScimUser input row.user) s := by
  have hlocked := run_lockedUserForUpdate_of_mem hrow
  have hcheck := run_deactivationWouldRemoveLastOwner hrow input.status
    input.protectedOwnerGroupSlug
  rw [← ho, ← hid] at hlocked hcheck
  unfold updateUserFromScim
  rw [run_bind_of_ok hlocked]
  dsimp only
  rw [run_bind_of_ok (run_userEmailIsTaken input s)]
  by_cases hemail : EmailTaken input s.tables
  · rw [if_pos hemail, decide_eq_true hemail]
    rfl
  rw [if_neg hemail, decide_eq_false hemail, if_neg Bool.false_ne_true]
  refine (run_bind_of_ok (run_userExternalIdTaken input s)).trans ?_
  by_cases hexternal : ExternalIdTaken input s.tables
  · rw [if_pos hexternal, decide_eq_true hexternal]
    rfl
  rw [if_neg hexternal, decide_eq_false hexternal, if_neg Bool.false_ne_true,
    run_bind_of_ok hcheck]
  by_cases hendangers : DeactivationEndangers input.organizationId input.userId input.status
      input.protectedOwnerGroupSlug s.tables
  · rw [if_pos hendangers, decide_eq_true hendangers]
    rfl
  · rw [if_neg hendangers, decide_eq_false hendangers]
    rfl

theorem exec_scim_none (h : ∀ row ∈ s.tables .users,
      ¬(row.user.organizationId = input.organizationId ∧ row.user.id = input.userId)) :
    (DbCall.updateUserFromScim input).exec s = (.ok .notFound, s) := by
  have hrun : Stmts.run DatabaseError.sqlx (updateUserFromScim input) s =
      .ok (.rollback .notFound, s) := by
    unfold updateUserFromScim
    rw [run_bind_of_ok (run_lockedUserForUpdate_none h)]
    rfl
  exact atomic_of_rollback hrun

/-- Neither the email address nor the external id makes the row incompatible with another. -/
theorem compatible_scimUpdated (ho : input.organizationId = row.user.organizationId)
    (hid : input.userId = row.user.id) (hemail : ¬EmailTaken input s.tables)
    (hexternal : ¬ExternalIdTaken input s.tables) (verified : Bool) :
    ∀ r ∈ s.tables .users, r.user.id ≠ row.user.id →
      schema.Compatible .users r (scimUpdated input verified row) := by
  intro r hr hne k hk hk'
  have hentries : ∀ (r : UserWithPassword) (k : Key), k ∈ schema.entries .users r ↔
      k = .id r.user.id ∨ k = .tenant r.user.id r.user.organizationId ∨
        k = .named r.user.organizationId r.user.email ∨
        ∃ e ∈ r.user.scimExternalId, k = .scimExternalId r.user.organizationId e := by
    intro r k
    simp only [Schema.entries, schema, List.mem_cons, List.mem_append, Option.mem_toList,
      Option.mem_def, Option.map_eq_some_iff, List.not_mem_nil, or_false, or_assoc]
    simp only [eq_comm]
  rw [hentries] at hk hk'
  rcases hk with rfl | rfl | rfl | ⟨e, he, rfl⟩
  · have hsame : r.user.id = row.user.id := by simpa [scimUpdated] using hk'
    exact hne hsame
  · have hsame : r.user.id = row.user.id ∧ r.user.organizationId = row.user.organizationId := by
      simpa [scimUpdated] using hk'
    exact hne hsame.1
  · have hsame : r.user.organizationId = row.user.organizationId ∧ r.user.email = input.email := by
      simpa [scimUpdated] using hk'
    exact hemail ⟨r, hr, hsame.1.trans ho.symm, hsame.2, hid ▸ hne⟩
  · have hsame : r.user.organizationId = row.user.organizationId ∧
        input.scimExternalId = some e := by
      simpa [scimUpdated, and_comm] using hk'
    exact hexternal ⟨e, hsame.2, r, hr, hsame.1.trans ho.symm, he, hid ▸ hne⟩

theorem run_writeScimUser_exists (hrow : row ∈ s.tables .users)
    (ho : input.organizationId = row.user.organizationId) (hid : input.userId = row.user.id)
    (hemail : ¬EmailTaken input s.tables) (hexternal : ¬ExternalIdTaken input s.tables) :
    ∃ user s', Stmts.run DatabaseError.sqlx (writeScimUser input row.user) s =
      .ok (.commit (.applied user), s') := by
  let verified := !decide (row.user.email ≠ input.email) && row.user.emailVerified
  refine ⟨(scimUpdated input verified row).user, ?_⟩
  unfold writeScimUser
  rw [ho, hid]
  refine run_writeUser (f := scimUpdated input verified) hrow
    (compatible_scimUpdated ho hid hemail hexternal verified) fun s₁ => ?_
  obtain ⟨s₂, htokens⟩ : ∃ s₂, Stmts.run DatabaseError.sqlx
      (Prog.when (decide (row.user.email ≠ input.email) = true) do
        let _ ← update .accountTokens
          (fun _ t => t.organizationId = row.user.organizationId ∧ t.userId = some row.user.id ∧
            t.consumedAt = none ∧ input.instant < t.expiresAt)
          (fun t => { t with consumedAt := t.consumedAt.or (some input.instant) })) s₁ =
        .ok ((), s₂) := by
    by_cases hchanged : row.user.email ≠ input.email
    · obtain ⟨s₂, hupdate⟩ := run_update_of_entries (t := .accountTokens)
        (f := fun t => { t with consumedAt := t.consumedAt.or (some input.instant) })
        (p := fun _ t => t.organizationId = row.user.organizationId ∧
          t.userId = some row.user.id ∧ t.consumedAt = none ∧ input.instant < t.expiresAt)
        (fun _ => rfl) s₁
      refine ⟨s₂, ?_⟩
      rw [Prog.when, if_pos (decide_eq_true hchanged), run_bind_of_ok hupdate]
      rfl
    · refine ⟨s₁, ?_⟩
      rw [Prog.when, if_neg (by simpa using hchanged)]
      rfl
  rw [run_bind_of_ok htokens]
  by_cases hstatus : input.status ≠ .active
  · obtain ⟨s₃, hrevoke⟩ := run_revokeUserRuntimeCredentials row.user.organizationId row.user.id
      input.instant s₂
    refine ⟨s₃, ?_⟩
    rw [Prog.when, if_pos hstatus, run_bind_of_ok hrevoke]
    rfl
  · refine ⟨s₂, ?_⟩
    rw [Prog.when, if_neg hstatus]
    rfl

/-- The same update under the protection of a slug. -/
def protecting (input : ScimUserUpdateInput) (slug : String) : ScimUserUpdateInput :=
  { input with protectedOwnerGroupSlug := slug }

theorem run_protecting (hrow : row ∈ s.tables .users)
    (ho : input.organizationId = row.user.organizationId) (hid : input.userId = row.user.id)
    (slug : String) : Stmts.run DatabaseError.sqlx (updateUserFromScim (protecting input slug)) s =
      if EmailTaken input s.tables then .ok (.rollback .emailAlreadyExists, s)
      else if ExternalIdTaken input s.tables then .ok (.rollback .externalIdAlreadyExists, s)
      else if DeactivationEndangers input.organizationId input.userId input.status slug
          s.tables then
        .ok (.rollback .wouldDeactivateLastOwner, s)
      else Stmts.run DatabaseError.sqlx (writeScimUser input row.user) s :=
  run_updateUserFromScim hrow ho hid

theorem exec_scim_of_endangers (h : ScimEndangers input slug s.tables) :
    (DbCall.updateUserFromScim (protecting input slug)).exec s =
      (.ok .wouldDeactivateLastOwner, s) := by
  obtain ⟨hemail, hexternal, hendangers⟩ := h
  obtain ⟨row, hrow, ho, hid⟩ := hendangers.user
  have hrun := run_protecting hrow ho.symm hid.symm slug
  rw [if_neg hemail, if_neg hexternal, if_pos hendangers] at hrun
  exact atomic_of_rollback hrun

theorem exec_scim_congr {slug' : String} (h : ¬ScimEndangers input slug s.tables)
    (h' : ¬ScimEndangers input slug' s.tables) :
    (DbCall.updateUserFromScim (protecting input slug)).exec s =
      (DbCall.updateUserFromScim (protecting input slug')).exec s := by
  by_cases hthere : ∃ row ∈ s.tables .users,
      row.user.organizationId = input.organizationId ∧ row.user.id = input.userId
  · obtain ⟨row, hrow, ho, hid⟩ := hthere
    have hrun := run_protecting hrow ho.symm hid.symm slug
    have hrun' := run_protecting hrow ho.symm hid.symm slug'
    refine atomic_congr (hrun.trans (Eq.trans ?_ hrun'.symm))
    by_cases hemail : EmailTaken input s.tables
    · rw [if_pos hemail, if_pos hemail]
    rw [if_neg hemail, if_neg hemail]
    by_cases hexternal : ExternalIdTaken input s.tables
    · rw [if_pos hexternal, if_pos hexternal]
    rw [if_neg hexternal, if_neg hexternal,
      if_neg fun hendangers => h ⟨hemail, hexternal, hendangers⟩,
      if_neg fun hendangers => h' ⟨hemail, hexternal, hendangers⟩]
  · have hnone : ∀ row ∈ s.tables .users,
        ¬(row.user.organizationId = input.organizationId ∧ row.user.id = input.userId) :=
      fun row hrow hsame => hthere ⟨row, hrow, hsame⟩
    have hnotFound : ∀ slug : String,
        (DbCall.updateUserFromScim (protecting input slug)).exec s = (.ok .notFound, s) :=
      fun slug => exec_scim_none hnone
    rw [hnotFound, hnotFound]

/-- An update that is made has a free email address and a free external id. -/
theorem free_of_applied {user : User}
    (happlied : (DbCall.updateUserFromScim input).exec s = (.ok (.applied user), s')) :
    ¬EmailTaken input s.tables ∧ ¬ExternalIdTaken input s.tables := by
  by_cases hthere : ∃ row ∈ s.tables .users,
      row.user.organizationId = input.organizationId ∧ row.user.id = input.userId
  · obtain ⟨row, hrow, ho, hid⟩ := hthere
    have hrun := run_updateUserFromScim hrow ho.symm hid.symm
    constructor
    · intro hemail
      rw [if_pos hemail] at hrun
      cases happlied.symm.trans (atomic_of_rollback hrun)
    · intro hexternal
      by_cases hemail : EmailTaken input s.tables
      · rw [if_pos hemail] at hrun
        cases happlied.symm.trans (atomic_of_rollback hrun)
      · rw [if_neg hemail, if_pos hexternal] at hrun
        cases happlied.symm.trans (atomic_of_rollback hrun)
  · have hnone : ∀ row ∈ s.tables .users,
        ¬(row.user.organizationId = input.organizationId ∧ row.user.id = input.userId) :=
      fun row hrow hsame => hthere ⟨row, hrow, hsame⟩
    cases happlied.symm.trans (exec_scim_none hnone)

theorem hasActiveOwner_exec_scim {o' : OrganizationId} {user : User}
    (howner : HasActiveOwner slug o' s.tables)
    (happlied : (DbCall.updateUserFromScim input).exec s = (.ok (.applied user), s')) :
    HasActiveOwner slug o' s'.tables ↔ ¬(o' = input.organizationId ∧
      DeactivationEndangers input.organizationId input.userId input.status slug s.tables) := by
  rcases exec_updateUserFromScim happlied with ⟨_, -, -, _, hwrite⟩ | ⟨hnot, -⟩
  · refine hasActiveOwner_rewritten howner hwrite (fun _ => rfl) (fun _ => rfl) (fun _ => rfl) ?_ ?_
    · have hframe := DbCall.exec_frame (c := .updateUserFromScim input) (t := .groups)
        (by simp [DbCall.writes]) s
      rwa [happlied] at hframe
    · have hframe := DbCall.exec_frame (c := .updateUserFromScim input) (t := .memberships)
        (by simp [DbCall.writes]) s
      rwa [happlied] at hframe
  · exact absurd rfl (hnot _ rfl)

theorem exec_scim_safe {o' : OrganizationId} (howner : HasActiveOwner slug o' s.tables)
    (hsafe : o' = input.organizationId → ¬ScimEndangers input slug s.tables) :
    HasActiveOwner slug o' ((DbCall.updateUserFromScim input).exec s).2.tables := by
  obtain ⟨r, s', hexec⟩ : ∃ r s', (DbCall.updateUserFromScim input).exec s = (r, s') := ⟨_, _, rfl⟩
  rw [hexec]
  rcases exec_updateUserFromScim hexec with ⟨a, rfl, happlied, -⟩ | ⟨-, rfl⟩
  · cases a with
    | applied user =>
      refine (hasActiveOwner_exec_scim howner hexec).mpr fun ⟨ho, hendangers⟩ => ?_
      obtain ⟨hemail, hexternal⟩ := free_of_applied hexec
      exact hsafe ho ⟨hemail, hexternal, hendangers⟩
    | notFound | wouldDeactivateLastOwner | emailAlreadyExists | externalIdAlreadyExists =>
      cases happlied
  · exact howner

theorem exec_scim_unchecked {free : String} (hfree : ∀ g ∈ s.tables .groups, g.slug ≠ free)
    (h : ScimEndangers input slug s.tables) : ¬HasActiveOwner slug input.organizationId
      ((DbCall.updateUserFromScim (protecting input free)).exec s).2.tables := by
  obtain ⟨hemail, hexternal, hendangers⟩ := h
  obtain ⟨row, hrow, ho, hid⟩ := hendangers.user
  have hrun := run_protecting hrow ho.symm hid.symm free
  rw [if_neg hemail, if_neg hexternal,
    if_neg fun ⟨_, g, hg, _, hslug, _⟩ => hfree g hg hslug] at hrun
  obtain ⟨user, s', hwrite⟩ := run_writeScimUser_exists hrow ho.symm hid.symm hemail hexternal
  have hexec : (DbCall.updateUserFromScim (protecting input free)).exec s =
      (.ok (.applied user), s') := atomic_of_commit (hrun.trans hwrite)
  rw [hexec]
  intro hafter
  exact (hasActiveOwner_exec_scim hendangers.hasActiveOwner hexec).mp hafter ⟨rfl, hendangers⟩

end scim

end Database

end CairnId
