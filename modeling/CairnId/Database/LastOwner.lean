import CairnId.Database.Owners

/-!
# Who is left when a membership goes

Two methods can take the role of an owner away from a user, and look before they do whether
another owner is left who is active. What each refuses is exactly what would leave the
group without one; with all else it does what it does without a look.

## Main definitions

- `LastActiveOwner` — nobody else owns the group and is active
- `UpsertEndangers`, `DeleteEndangers` — what would take the last active owner away

## Main results

- `exec_upsert_of_endangers`, `exec_upsert_congr`, `exec_upsert_safe` — the upsert
- `exec_delete_of_endangers`, `exec_delete_congr`, `exec_delete_safe` — the deletion
-/

namespace CairnId

open Concurrency Concurrency.Sql Prog

namespace Database

-- ════════════════════════════════════════════════════════════════════════
-- Methods that look who is left
-- ════════════════════════════════════════════════════════════════════════

variable {slug : String} {o : OrganizationId} {u : UserId} {db db' : Db} {s s' : Store}

/-- The user is an active owner of the group, and nobody else is. -/
def LastActiveOwner (organizationId : OrganizationId) (groupId : GroupId) (userId : UserId)
    (db : Db) : Prop :=
  (∃ m ∈ db .memberships, activeOwner db organizationId groupId m = true ∧ m.userId = userId) ∧
    ∀ m ∈ db .memberships, activeOwner db organizationId groupId m = true → m.userId = userId

instance (o : OrganizationId) (g : GroupId) (u : UserId) (db : Db) :
    Decidable (LastActiveOwner o g u db) := inferInstanceAs (Decidable (_ ∧ _))

theorem run_bind_of_ok {α β : Type} {p : Statements α} {f : α → Statements β} {a : α}
    {s s₁ : Store} (h : Stmts.run DatabaseError.sqlx p s = .ok (a, s₁)) :
    Stmts.run DatabaseError.sqlx (p >>= f) s = Stmts.run DatabaseError.sqlx (f a) s₁ := by
  unfold Stmts.run at h ⊢
  rw [Prog.runWith_bind, h]

theorem otherOwners_eq_zero_iff (o : OrganizationId) (g : GroupId) (u : UserId) (db : Db) :
    ((db .memberships).countP fun m => activeOwner db o g m ∧ m.userId ≠ u) = 0 ↔
      ∀ m ∈ db .memberships, activeOwner db o g m = true → m.userId = u := by
  rw [List.countP_eq_zero]
  refine forall₂_congr fun m _ => ?_
  rw [decide_eq_true_eq, not_and, not_not]

theorem run_wouldRemoveLastActiveOwner (o : OrganizationId) (g : GroupId) (u : UserId)
    (s : Store) : Stmts.run DatabaseError.sqlx (wouldRemoveLastActiveOwner o g u) s =
      .ok (decide (LastActiveOwner o g u s.tables), s) := by
  show Except.ok (decide _, s) = _
  congr 2
  rw [decide_eq_decide, LastActiveOwner, ← otherOwners_eq_zero_iff]
  refine and_congr_left fun _ => ?_
  simp only [List.any_eq_true, decide_eq_true_eq]

/-- The role that a lock finds is that of the membership. -/
theorem run_lockedMembershipRole {m : Membership} (hm : m ∈ s.tables .memberships) :
    Stmts.run DatabaseError.sqlx (lockedMembershipRole m.organizationId m.groupId m.userId) s =
      .ok (some m.role, s) := by
  have hrows : (s.tables .memberships).filter (fun m' => m'.organizationId = m.organizationId ∧
      m'.groupId = m.groupId ∧ m'.userId = m.userId) = [m] :=
    (s.unique .memberships).filter_eq_singleton hm (by simp) (k := .pair m.userId m.groupId)
      fun m' hm' => by
        have hsame := of_decide_eq_true hm'
        simp [Schema.entries, schema, hsame.2.1, hsame.2.2]
  show Except.ok ((((s.tables .memberships).filter _).head?).map _, s) = _
  rw [hrows]
  rfl

theorem run_lockedMembershipRole_none {g : GroupId}
    (h : ∀ m ∈ s.tables .memberships, ¬(m.organizationId = o ∧ m.groupId = g ∧ m.userId = u)) :
    Stmts.run DatabaseError.sqlx (lockedMembershipRole o g u) s = .ok (none, s) := by
  have hrows : (s.tables .memberships).filter (fun m => m.organizationId = o ∧ m.groupId = g ∧
      m.userId = u) = [] := by
    refine List.filter_eq_nil_iff.mpr fun m hm => ?_
    rw [decide_eq_true_eq]
    exact h m hm
  show Except.ok ((((s.tables .memberships).filter _).head?).map _, s) = _
  rw [hrows]
  rfl

theorem run_lockedGroup_of_mem {g : Group} (hg : g ∈ s.tables .groups) :
    Stmts.run DatabaseError.sqlx (lockedGroup g.organizationId g.id) s = .ok (some g, s) := by
  have hrows : (s.tables .groups).filter (fun g' => g'.organizationId = g.organizationId ∧
      g'.id = g.id) = [g] :=
    (s.unique .groups).filter_eq_singleton hg (by simp) (k := .id g.id) fun g' hg' => by
      simp [Schema.entries, schema, (of_decide_eq_true hg').2]
  show Except.ok (((s.tables .groups).filter _).head?, s) = _
  rw [hrows]
  rfl

theorem run_lockedGroup_none {g : GroupId}
    (h : ∀ g' ∈ s.tables .groups, ¬(g'.organizationId = o ∧ g'.id = g)) :
    Stmts.run DatabaseError.sqlx (lockedGroup o g) s = .ok (none, s) := by
  have hrows : (s.tables .groups).filter (fun g' => g'.organizationId = o ∧ g'.id = g) = [] := by
    refine List.filter_eq_nil_iff.mpr fun g' hg' => ?_
    rw [decide_eq_true_eq]
    exact h g' hg'
  show Except.ok (((s.tables .groups).filter _).head?, s) = _
  rw [hrows]
  rfl

/-- Only one group of an organization has a slug. -/
theorem eq_of_slug {g g' : Group} (hg : g ∈ s.tables .groups) (hg' : g' ∈ s.tables .groups)
    (ho : g.organizationId = g'.organizationId) (hslug : g.slug = g'.slug) : g = g' :=
  (s.unique .groups).eq_of_entry hg hg' (k := .named g.organizationId g.slug)
    (by simp [Schema.entries, schema]) (by simp [Schema.entries, schema, ho, hslug])

/-- The last active owner makes the group have one. -/
theorem LastActiveOwner.hasActiveOwner {g : Group} (hg : g ∈ db .groups)
    (h : LastActiveOwner g.organizationId g.id u db) :
    HasActiveOwner g.slug g.organizationId db := by
  obtain ⟨m, hm, hactive, -⟩ := h.1
  exact hasActiveOwner_iff.mpr ⟨g, hg, rfl, rfl, m, hm, hactive⟩

/-- Whether somebody else is left. -/
theorem not_lastActiveOwner_iff {g : Group}
    (howner : ∃ m ∈ db .memberships, activeOwner db g.organizationId g.id m = true) :
    ¬LastActiveOwner g.organizationId g.id u db ↔
      ∃ m ∈ db .memberships, activeOwner db g.organizationId g.id m = true ∧ m.userId ≠ u := by
  constructor
  · intro hnot
    by_contra hnone
    have hall : ∀ m ∈ db .memberships, activeOwner db g.organizationId g.id m = true →
        m.userId = u := by
      intro m hm hactive
      by_contra hne
      exact hnone ⟨m, hm, hactive, hne⟩
    obtain ⟨m, hm, hactive⟩ := howner
    exact hnot ⟨⟨m, hm, hactive, hall m hm hactive⟩, hall⟩
  · rintro ⟨m, hm, hactive, hne⟩ hlast
    exact hne (hlast.2 m hm hactive)

-- upsert_group_membership

section upsert

variable {m : Membership} {g : Group}

/-- The upsert that would take the last active owner away. -/
def UpsertEndangers (m : Membership) (slug : String) (db : Db) : Prop :=
  ∃ g ∈ db .groups, g.organizationId = m.organizationId ∧ g.id = m.groupId ∧ g.slug = slug ∧
    m.role ≠ .owner ∧ LastActiveOwner m.organizationId g.id m.userId db

/-- The statements that write a membership. -/
def writeMembership (m : Membership) : Statements (End MembershipMutationOutcome) := do
  upsertMembership m
  return .commit .applied

/-- The check that an upsert makes. -/
theorem run_demotion {role : Option MembershipRole}
    (hlast : LastActiveOwner m.organizationId g.id m.userId s.tables → role = some .owner) :
    Stmts.run DatabaseError.sqlx (if g.slug = slug ∧ m.role ≠ .owner ∧ role = some .owner then
        wouldRemoveLastActiveOwner m.organizationId g.id m.userId else pure false) s =
      .ok (decide (g.slug = slug ∧ m.role ≠ .owner ∧
        LastActiveOwner m.organizationId g.id m.userId s.tables), s) := by
  by_cases hslug : g.slug = slug ∧ m.role ≠ .owner
  · by_cases howner : role = some .owner
    · rw [if_pos ⟨hslug.1, hslug.2, howner⟩, run_wouldRemoveLastActiveOwner]
      simp [hslug]
    · rw [if_neg fun h => howner h.2.2]
      have hnot : ¬LastActiveOwner m.organizationId g.id m.userId s.tables :=
        fun h => howner (hlast h)
      simp [hnot]
  · rw [if_neg fun h => hslug ⟨h.1, h.2.1⟩]
    have hnot : ¬(g.slug = slug ∧ m.role ≠ .owner ∧
        LastActiveOwner m.organizationId g.id m.userId s.tables) := fun h => hslug ⟨h.1, h.2.1⟩
    rw [decide_eq_false hnot]
    rfl

/-- The role that the lock of an upsert finds. -/
theorem run_lockedMembershipRole_exists (o : OrganizationId) (g : GroupId) (u : UserId)
    (s : Store) : ∃ role, Stmts.run DatabaseError.sqlx (lockedMembershipRole o g u) s =
      .ok (role, s) ∧ (LastActiveOwner o g u s.tables → role = some .owner) := by
  by_cases h : ∃ m ∈ s.tables .memberships, m.organizationId = o ∧ m.groupId = g ∧ m.userId = u
  · obtain ⟨m, hm, rfl, rfl, rfl⟩ := h
    refine ⟨_, run_lockedMembershipRole hm, fun hlast => ?_⟩
    obtain ⟨m', hm', hactive, huser⟩ := hlast.1
    obtain ⟨ho, hg, hrole, -⟩ := of_decide_eq_true hactive
    obtain rfl := (s.unique .memberships).eq_of_key hm' hm (by simp [schema, hg, huser])
    rw [hrole]
  · have hnone : ∀ m ∈ s.tables .memberships,
        ¬(m.organizationId = o ∧ m.groupId = g ∧ m.userId = u) := fun m hm hsame =>
      h ⟨m, hm, hsame⟩
    refine ⟨none, run_lockedMembershipRole_none hnone, fun hlast => ?_⟩
    obtain ⟨m, hm, hactive, huser⟩ := hlast.1
    obtain ⟨ho, hg, -⟩ := of_decide_eq_true hactive
    exact absurd ⟨ho, hg, huser⟩ (hnone m hm)

/-- An upsert in a group that is there. -/
theorem run_upsertGroupMembership (hg : g ∈ s.tables .groups)
    (ho : m.organizationId = g.organizationId) (hid : m.groupId = g.id) (slug : String) :
    Stmts.run DatabaseError.sqlx (upsertGroupMembership m slug) s =
      if ∃ row ∈ s.tables .users, row.user.organizationId = m.organizationId ∧
          row.user.id = m.userId then
        if g.slug = slug ∧ m.role ≠ .owner ∧
            LastActiveOwner m.organizationId g.id m.userId s.tables then
          .ok (.rollback .wouldRemoveLastOwner, s)
        else Stmts.run DatabaseError.sqlx (writeMembership m) s
      else .ok (.rollback .notFound, s) := by
  have hlocked : Stmts.run DatabaseError.sqlx (lockedGroup m.organizationId m.groupId) s =
      .ok (some g, s) := by
    rw [ho, hid]
    exact run_lockedGroup_of_mem hg
  have hexists : Stmts.run DatabaseError.sqlx (userExists m.organizationId m.userId) s =
      .ok (decide (∃ row ∈ s.tables .users, row.user.organizationId = m.organizationId ∧
        row.user.id = m.userId), s) := by
    show Except.ok ((s.tables .users).any _, s) = _
    congr 2
    rw [Bool.eq_iff_iff, List.any_eq_true, decide_eq_true_eq]
    simp only [decide_eq_true_eq]
  unfold upsertGroupMembership
  rw [run_bind_of_ok hlocked]
  dsimp only
  rw [run_bind_of_ok hexists]
  by_cases huser : ∃ row ∈ s.tables .users, row.user.organizationId = m.organizationId ∧
      row.user.id = m.userId
  · obtain ⟨role, hrole, hlast⟩ :=
      run_lockedMembershipRole_exists m.organizationId m.groupId m.userId s
    rw [if_pos huser, decide_eq_true huser, if_neg (by decide), run_bind_of_ok hrole]
    rw [hid] at hlast ⊢
    rw [run_bind_of_ok (run_demotion hlast)]
    by_cases hdemotes : g.slug = slug ∧ m.role ≠ .owner ∧
        LastActiveOwner m.organizationId g.id m.userId s.tables
    · rw [if_pos hdemotes, decide_eq_true hdemotes]
      rfl
    · rw [if_neg hdemotes, decide_eq_false hdemotes]
      rfl
  · rw [if_neg huser, decide_eq_false huser]
    rfl

/-- The rows after a membership is written. -/
theorem mem_writeMembership {b : End MembershipMutationOutcome}
    (h : Stmts.run DatabaseError.sqlx (writeMembership m) s = .ok (b, s')) :
    b = .commit .applied ∧ s'.tables .users = s.tables .users ∧
      s'.tables .groups = s.tables .groups ∧
      (∀ row, ¬(row.userId = m.userId ∧ row.groupId = m.groupId) →
        (row ∈ s'.tables .memberships ↔ row ∈ s.tables .memberships)) ∧
      ∀ row ∈ s'.tables .memberships, row.userId = m.userId ∧ row.groupId = m.groupId →
        row.role = m.role := by
  obtain ⟨_, s₁, hwrite, hrest⟩ := Stmts.run_bind_eq_ok.mp h
  cases hrest
  have hwithin : (upsertMembership m).All (Within [.memberships]) :=
    within_upsertMembership (List.mem_singleton_self _) m
  refine ⟨rfl, run_frame_of_within hwithin (by decide) hwrite,
    run_frame_of_within hwithin (by decide) hwrite, ?_⟩
  obtain ⟨_, s₂, hupsert, hrest⟩ := Stmts.run_bind_eq_ok.mp hwrite
  cases hrest
  have hkey : ∀ row : Membership, schema.key .memberships row = schema.key .memberships m ↔
      row.userId = m.userId ∧ row.groupId = m.groupId := by
    intro row
    simp [schema]
  rcases run_upsert_eq_ok hupsert with ⟨old, hold, holdKey, -, htables⟩ | ⟨hnone, -, htables⟩
  · rw [htables, Function.update_self]
    constructor
    · intro row hrow
      constructor
      · intro hmem
        obtain ⟨r, hr, rfl⟩ := List.mem_map.mp hmem
        split at hrow
        · exact absurd ((hkey r).mp (of_decide_eq_true ‹_›)) hrow
        · rw [if_neg ‹_›]
          exact hr
      · intro hmem
        refine List.mem_map.mpr ⟨row, hmem, if_neg ?_⟩
        rw [decide_eq_true_eq, hkey]
        exact hrow
    · intro row hmem hrow
      obtain ⟨r, hr, rfl⟩ := List.mem_map.mp hmem
      split
      · rfl
      · rename_i hne
        rw [if_neg hne] at hrow
        exact absurd (decide_eq_true ((hkey r).mpr hrow)) hne
  · rw [htables, Function.update_self]
    constructor
    · intro row hrow
      rw [List.mem_append, List.mem_singleton]
      refine or_iff_left ?_
      rintro rfl
      exact hrow ⟨rfl, rfl⟩
    · intro row hmem hrow
      rcases List.mem_append.mp hmem with hmem | hmem
      · exact absurd ((hkey row).mpr hrow) (hnone row hmem)
      · rw [List.mem_singleton.mp hmem]

theorem activeOwner_congr (h : db' .users = db .users) (o : OrganizationId) (g : GroupId)
    (m : Membership) : activeOwner db' o g m = activeOwner db o g m := by
  unfold activeOwner
  rw [h]

/-- An active owner of a group that is there. -/
theorem hasActiveOwner_of_group (hg : g ∈ s.tables .groups) :
    HasActiveOwner g.slug g.organizationId s.tables ↔
      ∃ m ∈ s.tables .memberships, activeOwner s.tables g.organizationId g.id m = true := by
  rw [hasActiveOwner_iff]
  constructor
  · rintro ⟨g', hg', ho, hslug, howner⟩
    obtain rfl := eq_of_slug hg' hg ho hslug
    exact howner
  · exact fun howner => ⟨g, hg, rfl, rfl, howner⟩

/-- A membership that is written leaves an active owner, unless it was the last one's and
    takes the role away. -/
theorem hasActiveOwner_writeMembership (hg : g ∈ s.tables .groups)
    (ho : m.organizationId = g.organizationId) (hid : m.groupId = g.id)
    (howner : HasActiveOwner g.slug g.organizationId s.tables)
    {b : End MembershipMutationOutcome}
    (h : Stmts.run DatabaseError.sqlx (writeMembership m) s = .ok (b, s')) :
    HasActiveOwner g.slug g.organizationId s'.tables ↔
      ¬(m.role ≠ .owner ∧ LastActiveOwner m.organizationId g.id m.userId s.tables) := by
  obtain ⟨-, husers, hgroups, hothers, hwritten⟩ := mem_writeMembership h
  have hg' : g ∈ s'.tables .groups := hgroups ▸ hg
  rw [hasActiveOwner_of_group hg] at howner
  rw [hasActiveOwner_of_group hg', ho]
  simp only [activeOwner_congr husers]
  constructor
  · rintro ⟨m', hm', hactive⟩ ⟨hrole, hlast⟩
    obtain ⟨-, hgroup, howns, -⟩ := of_decide_eq_true hactive
    by_cases hsame : m'.userId = m.userId ∧ m'.groupId = m.groupId
    · exact hrole ((hwritten m' hm' hsame).symm.trans howns)
    · have hold : m' ∈ s.tables .memberships := (hothers m' hsame).mp hm'
      exact hsame ⟨hlast.2 m' hold hactive, hgroup.trans hid.symm⟩
  · intro hnot
    by_cases hrole : m.role = .owner
    · -- the row that is written is still an owner's
      obtain ⟨m', hm', hactive⟩ := howner
      by_cases hsame : m'.userId = m.userId ∧ m'.groupId = m.groupId
      · have hkept : Kept (ownersOf g.id) s.tables s'.tables :=
          Stmts.run_kept (.bind (keepsOwners_upsertMembership (.inr hrole)) fun _ => .ret _) h
        obtain ⟨-, hgroup, howns, -⟩ := of_decide_eq_true hactive
        obtain ⟨_, hm'', rfl⟩ := hkept .memberships m' hm' ⟨hgroup, howns⟩
        exact ⟨_, hm'', hactive⟩
      · exact ⟨m', (hothers m' hsame).mpr hm', hactive⟩
    · have hlast : ¬LastActiveOwner g.organizationId g.id m.userId s.tables :=
        fun hlast => hnot ⟨hrole, hlast⟩
      obtain ⟨m', hm', hactive, hne⟩ := (not_lastActiveOwner_iff howner).mp hlast
      exact ⟨m', (hothers m' fun hsame => hne hsame.1).mpr hm', hactive⟩

/-- A membership that is there can be written. -/
theorem run_writeMembership_exists {m' : Membership} (hm' : m' ∈ s.tables .memberships)
    (hkey : m'.userId = m.userId ∧ m'.groupId = m.groupId) :
    ∃ s', Stmts.run DatabaseError.sqlx (writeMembership m) s = .ok (.commit .applied, s') := by
  let p : Db → Membership → Bool := fun _ r =>
    schema.key .memberships r = schema.key .memberships m
  have hunique : schema.Unique .memberships
      (Stmt.updated .memberships p (fun r => { r with role := m.role }) s.tables) :=
    (s.unique .memberships).map fun r _ => by
      split <;> rfl
  have hfound : ((s.tables .memberships).find? fun r =>
      schema.key .memberships r = schema.key .memberships m).isSome :=
    List.find?_isSome.mpr ⟨m', hm', by simp [schema, hkey]⟩
  obtain ⟨old, hold⟩ := Option.isSome_iff_exists.mp hfound
  have hupsert : Stmts.run DatabaseError.sqlx (upsert .memberships m fun r =>
      { r with role := m.role }) s =
        .ok ({ old with role := m.role }, s.set .memberships _ hunique) := by
    refine Stmts.run_perform_eq_ok.mpr ?_
    simp only [Stmt.exec, hold]
    rw [Store.replace_of_unique hunique]
    rfl
  refine ⟨s.set .memberships _ hunique, ?_⟩
  unfold writeMembership upsertMembership
  rw [Prog.bind_assoc, run_bind_of_ok hupsert]
  rfl

theorem atomic_of_commit {α : Type} {p : Statements (End α)} {a : α}
    (h : Stmts.run DatabaseError.sqlx p s = .ok (.commit a, s')) :
    Tx.atomic DatabaseError.sqlx p s = (.ok a, s') := by
  unfold Tx.atomic
  rw [h]

theorem atomic_of_rollback {α : Type} {p : Statements (End α)} {a : α}
    (h : Stmts.run DatabaseError.sqlx p s = .ok (.rollback a, s')) :
    Tx.atomic DatabaseError.sqlx p s = (.ok a, s) := by
  unfold Tx.atomic
  rw [h]

theorem atomic_congr {α : Type} {p q : Statements (End α)} {s : Store}
    (h : Stmts.run DatabaseError.sqlx p s = Stmts.run DatabaseError.sqlx q s) :
    Tx.atomic DatabaseError.sqlx p s = Tx.atomic DatabaseError.sqlx q s := by
  unfold Tx.atomic
  rw [h]

/-- In a group that is not there nothing is written. -/
theorem exec_upsert_none
    (hnone : ∀ g ∈ s.tables .groups, ¬(g.organizationId = m.organizationId ∧ g.id = m.groupId))
    (slug : String) : (DbCall.upsertGroupMembership m slug).exec s = (.ok .notFound, s) := by
  have hrun : Stmts.run DatabaseError.sqlx (upsertGroupMembership m slug) s =
      .ok (.rollback .notFound, s) := by
    unfold upsertGroupMembership
    rw [run_bind_of_ok (run_lockedGroup_none hnone)]
    rfl
  exact atomic_of_rollback hrun

/-- Whether the check of an upsert refuses it. -/
theorem upsertEndangers_iff (hg : g ∈ s.tables .groups) (ho : m.organizationId = g.organizationId)
    (hid : m.groupId = g.id) : UpsertEndangers m slug s.tables ↔ g.slug = slug ∧ m.role ≠ .owner ∧
      LastActiveOwner m.organizationId g.id m.userId s.tables := by
  constructor
  · rintro ⟨g', hg', -, hid', hrest⟩
    obtain rfl := (s.unique .groups).eq_of_key hg' hg (by simp [schema, hid', hid])
    exact hrest
  · exact fun hrest => ⟨g, hg, ho.symm, hid.symm, hrest⟩

/-- An upsert that would take the last active owner away is refused. -/
theorem exec_upsert_of_endangers (h : UpsertEndangers m slug s.tables) :
    (DbCall.upsertGroupMembership m slug).exec s = (.ok .wouldRemoveLastOwner, s) := by
  obtain ⟨g, hg, ho, hid, rfl, hrole, hlast⟩ := h
  -- the last owner's user is there
  obtain ⟨m', -, hactive, huser⟩ := hlast.1
  obtain ⟨hmo, -, -, row, hrow, hrowId, hrowOrg, -⟩ := of_decide_eq_true hactive
  have hthere : ∃ row ∈ s.tables .users, row.user.organizationId = m.organizationId ∧
      row.user.id = m.userId := ⟨row, hrow, hrowOrg.trans hmo, hrowId.trans huser⟩
  have hrun := run_upsertGroupMembership hg ho.symm hid.symm g.slug
  rw [if_pos hthere, if_pos ⟨rfl, hrole, hlast⟩] at hrun
  exact atomic_of_rollback hrun

/-- What an upsert does does not depend on the slug, unless it is refused. -/
theorem exec_upsert_congr {slug' : String} (h : ¬UpsertEndangers m slug s.tables)
    (h' : ¬UpsertEndangers m slug' s.tables) :
    (DbCall.upsertGroupMembership m slug).exec s =
      (DbCall.upsertGroupMembership m slug').exec s := by
  by_cases hgroup : ∃ g ∈ s.tables .groups, g.organizationId = m.organizationId ∧ g.id = m.groupId
  · obtain ⟨g, hg, ho, hid⟩ := hgroup
    rw [upsertEndangers_iff hg ho.symm hid.symm] at h h'
    have hrun := run_upsertGroupMembership hg ho.symm hid.symm slug
    have hrun' := run_upsertGroupMembership hg ho.symm hid.symm slug'
    rw [if_neg h] at hrun
    rw [if_neg h'] at hrun'
    exact atomic_congr (hrun.trans hrun'.symm)
  · have hnone : ∀ g ∈ s.tables .groups,
        ¬(g.organizationId = m.organizationId ∧ g.id = m.groupId) := fun g hg hsame =>
      hgroup ⟨g, hg, hsame⟩
    rw [exec_upsert_none hnone, exec_upsert_none hnone]

/-- Without the check, an upsert takes the last active owner away where the check refuses it. -/
theorem exec_upsert_unchecked {free : String} (hfree : ∀ g ∈ s.tables .groups, g.slug ≠ free)
    (hendangers : UpsertEndangers m slug s.tables) :
    ¬HasActiveOwner slug m.organizationId
      ((DbCall.upsertGroupMembership m free).exec s).2.tables := by
  obtain ⟨g, hg, ho, hid, rfl, hrole, hlast⟩ := hendangers
  obtain ⟨m', hm', hactive, huser⟩ := hlast.1
  obtain ⟨hmo, hgroup, -, row, hrow, hrowId, hrowOrg, -⟩ := of_decide_eq_true hactive
  have hthere : ∃ row ∈ s.tables .users, row.user.organizationId = m.organizationId ∧
      row.user.id = m.userId := ⟨row, hrow, hrowOrg.trans hmo, hrowId.trans huser⟩
  have hrun := run_upsertGroupMembership hg ho.symm hid.symm free
  rw [if_pos hthere, if_neg fun h => hfree g hg h.1] at hrun
  obtain ⟨s', hwrite⟩ := run_writeMembership_exists hm' ⟨huser, hgroup.trans hid⟩
  have hexec : (DbCall.upsertGroupMembership m free).exec s = (.ok .applied, s') :=
    atomic_of_commit (hrun.trans hwrite)
  have howner : HasActiveOwner g.slug g.organizationId s.tables :=
    (hasActiveOwner_of_group hg).mpr ⟨m', hm', by rw [ho]; exact hactive⟩
  rw [hexec, ← ho, hasActiveOwner_writeMembership hg ho.symm hid.symm howner hwrite, not_not]
  exact ⟨hrole, hlast⟩

/-- An upsert that does not endanger the group leaves it an active owner. -/
theorem exec_upsert_safe {protectedSlug : String} (howner : HasActiveOwner slug o s.tables)
    (hsafe : o = m.organizationId → ¬UpsertEndangers m slug s.tables) :
    HasActiveOwner slug o
      ((DbCall.upsertGroupMembership m protectedSlug).exec s).2.tables := by
  obtain ⟨g, hg, rfl, rfl, hactive⟩ := hasActiveOwner_iff.mp howner
  by_cases hid : m.groupId = g.id
  · by_cases ho : m.organizationId = g.organizationId
    · have hrun := run_upsertGroupMembership hg ho hid protectedSlug
      by_cases hthere : ∃ row ∈ s.tables .users, row.user.organizationId = m.organizationId ∧
          row.user.id = m.userId
      · rw [if_pos hthere] at hrun
        split at hrun
        · have hexec : (DbCall.upsertGroupMembership m protectedSlug).exec s =
              (.ok .wouldRemoveLastOwner, s) := atomic_of_rollback hrun
          rwa [hexec]
        have hexec : (DbCall.upsertGroupMembership m protectedSlug).exec s =
            Tx.atomic DatabaseError.sqlx (writeMembership m) s := atomic_congr hrun
        rw [hexec]
        obtain ⟨r, s', hstep⟩ : ∃ r s', Tx.atomic DatabaseError.sqlx (writeMembership m) s =
          (r, s') := ⟨_, _, rfl⟩
        rw [hstep]
        rcases Tx.atomic_cases hstep with ⟨a, -, hwrite⟩ | ⟨a, s₁, -, -, rfl⟩ | ⟨e, -, rfl⟩
        · refine (hasActiveOwner_writeMembership hg ho hid howner hwrite).mpr fun hlast => ?_
          exact hsafe ho.symm ((upsertEndangers_iff hg ho hid).mpr ⟨rfl, hlast⟩)
        · exact howner
        · exact howner
      · rw [if_neg hthere] at hrun
        have hexec : (DbCall.upsertGroupMembership m protectedSlug).exec s = (.ok .notFound, s) :=
          atomic_of_rollback hrun
        rwa [hexec]
    · rw [exec_upsert_none]
      · exact howner
      · rintro g' hg' ⟨ho', hid'⟩
        obtain rfl := (s.unique .groups).eq_of_key hg' hg (by simp [schema, hid', hid])
        exact ho ho'.symm
  · exact .of_kept hg rfl rfl rfl hactive
      (DbCall.exec_kept_of_all (kept_upsertGroupMembership hid protectedSlug))

end upsert

-- delete_group_membership

section delete

variable {id : GroupId} {g : Group}

/-- The deletion that would take the last active owner away. -/
def DeleteEndangers (o : OrganizationId) (id : GroupId) (u : UserId) (slug : String) (db : Db) :
    Prop :=
  ∃ g ∈ db .groups, g.organizationId = o ∧ g.id = id ∧ g.slug = slug ∧ LastActiveOwner o g.id u db

/-- The statements that delete a membership. -/
def eraseMembership (o : OrganizationId) (id : GroupId) (u : UserId) :
    Statements (End MembershipMutationOutcome) := do
  let _ ← Database.delete .memberships
    (fun _ m => m.organizationId = o ∧ m.groupId = id ∧ m.userId = u)
  return .commit .applied

theorem run_eraseMembership (o : OrganizationId) (id : GroupId) (u : UserId) (s : Store) :
    ∃ s', Stmts.run DatabaseError.sqlx (eraseMembership o id u) s = .ok (.commit .applied, s') ∧
      s'.tables .users = s.tables .users ∧ s'.tables .groups = s.tables .groups ∧
      ∀ m, m ∈ s'.tables .memberships ↔ m ∈ s.tables .memberships ∧
        ¬(m.organizationId = o ∧ m.groupId = id ∧ m.userId = u) := by
  let p : Db → Membership → Bool := fun _ m =>
    m.organizationId = o ∧ m.groupId = id ∧ m.userId = u
  have hunique : schema.Unique .memberships ((s.tables .memberships).filter fun m =>
      !p s.tables m) := List.Pairwise.filter _ (s.unique .memberships)
  have hdelete : Stmts.run DatabaseError.sqlx (Database.delete .memberships p) s =
      .ok ((s.tables .memberships).filter (p s.tables), s.set .memberships _ hunique) := by
    refine Stmts.run_perform_eq_ok.mpr ?_
    simp only [Stmt.exec]
    rw [Store.replace_of_unique hunique]
    rfl
  refine ⟨s.set .memberships _ hunique, ?_, rfl, rfl, fun m => ?_⟩
  · unfold eraseMembership
    rw [run_bind_of_ok hdelete]
    rfl
  · rw [Store.set_tables, Function.update_self, List.mem_filter, Bool.not_eq_true',
      decide_eq_false_iff_not]

/-- A deletion in a group that is there. -/
theorem run_deleteGroupMembership (hg : g ∈ s.tables .groups) (u : UserId) (slug : String) :
    Stmts.run DatabaseError.sqlx (deleteGroupMembership g.organizationId g.id u slug) s =
      if ∃ m ∈ s.tables .memberships, m.organizationId = g.organizationId ∧ m.groupId = g.id ∧
          m.userId = u then
        if g.slug = slug ∧ LastActiveOwner g.organizationId g.id u s.tables then
          .ok (.rollback .wouldRemoveLastOwner, s)
        else Stmts.run DatabaseError.sqlx (eraseMembership g.organizationId g.id u) s
      else .ok (.rollback .notFound, s) := by
  unfold deleteGroupMembership
  rw [run_bind_of_ok (run_lockedGroup_of_mem hg)]
  dsimp only
  by_cases hthere : ∃ m ∈ s.tables .memberships, m.organizationId = g.organizationId ∧
      m.groupId = g.id ∧ m.userId = u
  · rw [if_pos hthere]
    obtain ⟨role, hrole, hlast⟩ := run_lockedMembershipRole_exists g.organizationId g.id u s
    obtain ⟨m, hm, hmo, hmg, hmu⟩ := hthere
    have hsome := run_lockedMembershipRole hm
    rw [hmo, hmg, hmu, hrole] at hsome
    obtain rfl : role = some m.role := congrArg Prod.fst (Except.ok.inj hsome)
    rw [run_bind_of_ok hrole]
    dsimp only
    by_cases howner : g.slug = slug ∧ m.role = .owner
    · rw [if_pos howner, run_bind_of_ok (run_wouldRemoveLastActiveOwner ..)]
      by_cases hlastOwner : LastActiveOwner g.organizationId g.id u s.tables
      · rw [decide_eq_true hlastOwner, if_pos rfl, if_pos ⟨howner.1, hlastOwner⟩]
        rfl
      · rw [decide_eq_false hlastOwner, if_neg Bool.false_ne_true, if_neg fun h => hlastOwner h.2]
        rfl
    · rw [if_neg howner, if_neg fun h => howner ⟨h.1, Option.some.inj (hlast h.2)⟩]
      rfl
  · rw [if_neg hthere]
    have hnone : ∀ m ∈ s.tables .memberships,
        ¬(m.organizationId = g.organizationId ∧ m.groupId = g.id ∧ m.userId = u) :=
      fun m hm hsame => hthere ⟨m, hm, hsame⟩
    rw [run_bind_of_ok (run_lockedMembershipRole_none hnone)]
    rfl

theorem exec_delete_none
    (hnone : ∀ g ∈ s.tables .groups, ¬(g.organizationId = o ∧ g.id = id)) (u : UserId)
    (slug : String) : (DbCall.deleteGroupMembership o id u slug).exec s = (.ok .notFound, s) := by
  have hrun : Stmts.run DatabaseError.sqlx (deleteGroupMembership o id u slug) s =
      .ok (.rollback .notFound, s) := by
    unfold deleteGroupMembership
    rw [run_bind_of_ok (run_lockedGroup_none hnone)]
    rfl
  exact atomic_of_rollback hrun

theorem deleteEndangers_iff (hg : g ∈ s.tables .groups) :
    DeleteEndangers g.organizationId g.id u slug s.tables ↔
      g.slug = slug ∧ LastActiveOwner g.organizationId g.id u s.tables := by
  constructor
  · rintro ⟨g', hg', -, hid', hrest⟩
    obtain rfl := (s.unique .groups).eq_of_key hg' hg (by simp [schema, hid'])
    exact hrest
  · exact fun hrest => ⟨g, hg, rfl, rfl, hrest⟩

/-- The last active owner has a membership. -/
theorem LastActiveOwner.membership (h : LastActiveOwner o id u db) : ∃ m ∈ db .memberships,
    m.organizationId = o ∧ m.groupId = id ∧ m.userId = u := by
  obtain ⟨m, hm, hactive, huser⟩ := h.1
  obtain ⟨ho, hg, -⟩ := of_decide_eq_true hactive
  exact ⟨m, hm, ho, hg, huser⟩

/-- A membership that is deleted leaves an active owner, unless it was the last one's. -/
theorem hasActiveOwner_eraseMembership (hg : g ∈ s.tables .groups)
    (howner : HasActiveOwner g.slug g.organizationId s.tables)
    (husers : s'.tables .users = s.tables .users) (hgroups : s'.tables .groups = s.tables .groups)
    (hmembers : ∀ m, m ∈ s'.tables .memberships ↔ m ∈ s.tables .memberships ∧
      ¬(m.organizationId = g.organizationId ∧ m.groupId = g.id ∧ m.userId = u)) :
    HasActiveOwner g.slug g.organizationId s'.tables ↔
      ¬LastActiveOwner g.organizationId g.id u s.tables := by
  have hg' : g ∈ s'.tables .groups := hgroups ▸ hg
  rw [hasActiveOwner_of_group hg'] at *
  rw [hasActiveOwner_of_group hg] at howner
  rw [not_lastActiveOwner_iff howner]
  simp only [activeOwner_congr husers]
  refine exists_congr fun m => ?_
  rw [hmembers, and_assoc, and_congr_right_iff]
  intro _
  constructor
  · rintro ⟨hnot, hactive⟩
    obtain ⟨ho, hgroup, -⟩ := of_decide_eq_true hactive
    exact ⟨hactive, fun huser => hnot ⟨ho, hgroup, huser⟩⟩
  · exact fun ⟨hactive, hne⟩ => ⟨fun hsame => hne hsame.2.2, hactive⟩

/-- A deletion that would take the last active owner away is refused. -/
theorem exec_delete_of_endangers (h : DeleteEndangers o id u slug s.tables) :
    (DbCall.deleteGroupMembership o id u slug).exec s = (.ok .wouldRemoveLastOwner, s) := by
  obtain ⟨g, hg, rfl, rfl, rfl, hlast⟩ := h
  have hrun := run_deleteGroupMembership hg u g.slug
  rw [if_pos hlast.membership, if_pos ⟨rfl, hlast⟩] at hrun
  exact atomic_of_rollback hrun

theorem exec_delete_congr {slug' : String} (h : ¬DeleteEndangers o id u slug s.tables)
    (h' : ¬DeleteEndangers o id u slug' s.tables) :
    (DbCall.deleteGroupMembership o id u slug).exec s =
      (DbCall.deleteGroupMembership o id u slug').exec s := by
  by_cases hgroup : ∃ g ∈ s.tables .groups, g.organizationId = o ∧ g.id = id
  · obtain ⟨g, hg, rfl, rfl⟩ := hgroup
    rw [deleteEndangers_iff hg] at h h'
    have hrun := run_deleteGroupMembership hg u slug
    have hrun' := run_deleteGroupMembership hg u slug'
    rw [if_neg h] at hrun
    rw [if_neg h'] at hrun'
    exact atomic_congr (hrun.trans hrun'.symm)
  · have hnone : ∀ g ∈ s.tables .groups, ¬(g.organizationId = o ∧ g.id = id) :=
      fun g hg hsame => hgroup ⟨g, hg, hsame⟩
    rw [exec_delete_none hnone, exec_delete_none hnone]

theorem exec_delete_unchecked {free : String} (hfree : ∀ g ∈ s.tables .groups, g.slug ≠ free)
    (hendangers : DeleteEndangers o id u slug s.tables) :
    ¬HasActiveOwner slug o ((DbCall.deleteGroupMembership o id u free).exec s).2.tables := by
  obtain ⟨g, hg, rfl, rfl, rfl, hlast⟩ := hendangers
  have hrun := run_deleteGroupMembership hg u free
  rw [if_pos hlast.membership, if_neg fun h => hfree g hg h.1] at hrun
  obtain ⟨s', herase, husers, hgroups, hmembers⟩ :=
    run_eraseMembership g.organizationId g.id u s
  have hexec : (DbCall.deleteGroupMembership g.organizationId g.id u free).exec s =
      (.ok .applied, s') := atomic_of_commit (hrun.trans herase)
  rw [hexec, hasActiveOwner_eraseMembership hg (hlast.hasActiveOwner hg) husers hgroups hmembers,
    not_not]
  exact hlast

theorem exec_delete_safe {o' : OrganizationId} {protectedSlug : String}
    (howner : HasActiveOwner slug o' s.tables)
    (hsafe : o' = o → ¬DeleteEndangers o id u slug s.tables) :
    HasActiveOwner slug o'
      ((DbCall.deleteGroupMembership o id u protectedSlug).exec s).2.tables := by
  obtain ⟨g, hg, rfl, rfl, hactive⟩ := hasActiveOwner_iff.mp howner
  by_cases hid : id = g.id
  · subst hid
    by_cases ho : o = g.organizationId
    · subst ho
      have hrun := run_deleteGroupMembership hg u protectedSlug
      split at hrun
      · split at hrun
        · have hexec : (DbCall.deleteGroupMembership g.organizationId g.id u protectedSlug).exec s =
              (.ok .wouldRemoveLastOwner, s) := atomic_of_rollback hrun
          rwa [hexec]
        obtain ⟨s', herase, husers, hgroups, hmembers⟩ :=
          run_eraseMembership g.organizationId g.id u s
        have hexec : (DbCall.deleteGroupMembership g.organizationId g.id u protectedSlug).exec s =
            (.ok .applied, s') := atomic_of_commit (hrun.trans herase)
        rw [hexec]
        refine (hasActiveOwner_eraseMembership hg howner husers hgroups hmembers).mpr
          fun hlast => ?_
        exact hsafe rfl ((deleteEndangers_iff hg).mpr ⟨rfl, hlast⟩)
      · have hexec : (DbCall.deleteGroupMembership g.organizationId g.id u protectedSlug).exec s =
            (.ok .notFound, s) := atomic_of_rollback hrun
        rwa [hexec]
    · rw [exec_delete_none]
      · exact howner
      · rintro g' hg' ⟨ho', hid'⟩
        obtain rfl := (s.unique .groups).eq_of_key hg' hg (by simp [schema, hid'])
        exact ho ho'.symm
  · exact .of_kept hg rfl rfl rfl hactive
      (DbCall.exec_kept_of_all (kept_deleteGroupMembership hid o u protectedSlug))

end delete

end Database

end CairnId
