import CairnId.Database.OwnerGrants
import CairnId.Http.TokenRuns
import Mathlib.Data.List.Induction

/-!
# Administrators over any number of calls

A method of `Database` is one transaction, so what any number of requests do to the tables,
in whatever order, is what a sequence of calls does. An administrator is the owner of one
group: each was appointed in one of three ways, and the last active one stays.

## Main definitions

- `afterCalls` — the store after a sequence of calls

## Main results

- `administrator_since_bootstrap` — there is an active administrator from the bootstrap on
- `administrator_since_break_glass` — and again from a break-glass recovery on
- `owner_since_grant` — whoever is an owner was made one, and has been since
- `last_owner_guard_exact` — a change is refused exactly where it would take the last one
-/

namespace CairnId

open Concurrency Concurrency.Sql Prog Database

/-- The store after the calls, one after the other. -/
def afterCalls (s : Store) (cs : List DbCall) : Store := cs.foldl (fun s c => (c.exec s).2) s

variable {s s' : Store} {cs : List DbCall} {slug : String} {o : OrganizationId} {u : UserId}

@[simp] theorem afterCalls_nil : afterCalls s [] = s := rfl

@[simp] theorem afterCalls_cons {c : DbCall} :
    afterCalls s (c :: cs) = afterCalls (c.exec s).2 cs := rfl

theorem afterCalls_concat {c : DbCall} :
    afterCalls s (cs ++ [c]) = (c.exec (afterCalls s cs)).2 := by
  rw [afterCalls, List.foldl_concat, afterCalls]

/-- What one call leaves, any number of calls leave. -/
theorem hasActiveOwner_afterCalls (howner : HasActiveOwner slug o s.tables)
    (hprotects : ∀ c ∈ cs, c.Protects slug) :
    HasActiveOwner slug o (afterCalls s cs).tables := by
  induction cs generalizing s with
  | nil => exact howner
  | cons c cs ih =>
    rw [List.forall_mem_cons] at hprotects
    exact ih (DbCall.exec_hasActiveOwner hprotects.1 howner) hprotects.2

theorem refers_afterCalls (cs : List DbCall) (hrefers : schema.Refers .memberships s.tables) :
    schema.Refers .memberships (afterCalls s cs).tables := by
  induction cs generalizing s with
  | nil => exact hrefers
  | cons c cs ih => exact ih (c.exec_refers_memberships hrefers)

-- who is appointed

/-- Either the organization has users, or the bootstrap inserts three rows. -/
theorem run_createBootstrapAdmin {user : User} {hash : String} {group : Group}
    {membership : Membership} {e : End Bool}
    (h : Stmts.run DatabaseError.sqlx (createBootstrapAdmin user hash group membership) s =
      .ok (e, s')) :
    e = .rollback false ∨ (e = .commit true ∧ ⟨user, some hash⟩ ∈ s'.tables .users ∧
      group ∈ s'.tables .groups ∧ membership ∈ s'.tables .memberships) := by
  obtain ⟨_, s₁, -, h⟩ := Stmts.run_bind_eq_ok.mp h
  obtain ⟨_, s₁, -, h⟩ := Stmts.run_bind_eq_ok.mp h
  obtain ⟨db, s₁, -, h⟩ := Stmts.run_bind_eq_ok.mp h
  split at h
  · cases h
    exact .inl rfl
  obtain ⟨_, s₂, husers, h⟩ := Stmts.run_bind_eq_ok.mp h
  obtain ⟨_, s₃, hgroups, h⟩ := Stmts.run_bind_eq_ok.mp h
  obtain ⟨_, s₄, hmembers, h⟩ := Stmts.run_bind_eq_ok.mp h
  cases h
  have husers := run_insert_eq_ok husers
  have hgroups := run_insert_eq_ok hgroups
  have hmembers := run_insert_eq_ok hmembers
  refine .inr ⟨rfl, ?_, ?_, ?_⟩
  · simp [hmembers, hgroups, husers]
  · simp [hmembers, hgroups]
  · simp [hmembers]

/-- The bootstrap makes the new user an active owner of the new group. -/
theorem hasActiveOwner_of_bootstrap {user : User} {hash : String} {group : Group}
    {membership : Membership} (hgroup : group.organizationId = user.organizationId)
    (hmembership : membership.organizationId = user.organizationId ∧
      membership.groupId = group.id ∧ membership.userId = user.id ∧ membership.role = .owner)
    (hactive : user.status = .active)
    (h : (DbCall.createBootstrapAdmin user hash group membership).exec s = (.ok true, s')) :
    HasActiveOwner group.slug user.organizationId s'.tables := by
  obtain ⟨hmo, hmg, hmu, hmr⟩ := hmembership
  rcases Tx.atomic_cases h with ⟨a, ha, hrun⟩ | ⟨a, s₁, ha, hrun, -⟩ | ⟨e, he, -⟩
  · rcases run_createBootstrapAdmin hrun with hfalse | ⟨-, husers, hgroups, hmembers⟩
    · cases hfalse
    · exact ⟨user.id, ⟨group, hgroups, hgroup, rfl, membership, hmembers, hmo, hmg, hmu, hmr⟩,
        ⟨user, some hash⟩, husers, rfl, rfl, hactive⟩
  · rcases run_createBootstrapAdmin hrun with hfalse | ⟨hcommit, -⟩
    · cases hfalse
      cases ha
    · cases hcommit
  · cases he

/-- The group of the administrators, found or made. -/
theorem run_administratorsGroup {group : Group} {found : GroupId × Bool} {rows : List Group}
    (hrows : rows = (s.tables .groups).filter
      fun g => decide (g.organizationId = o ∧ g.slug = group.slug))
    (hgroup : group.organizationId = o)
    (h : Stmts.run DatabaseError.sqlx (match rows with
      | row :: _ => pure (row.id, false)
      | [] => do
        insert .groups group
        pure (group.id, true)) s = .ok (found, s')) :
    ∃ g ∈ s'.tables .groups, g.organizationId = o ∧ g.slug = group.slug ∧ g.id = found.1 := by
  cases rows with
  | cons row rows =>
    cases h
    have hmem : row ∈ (s.tables .groups).filter
        fun g => decide (g.organizationId = o ∧ g.slug = group.slug) :=
      hrows ▸ List.mem_cons_self
    obtain ⟨hmem, hrow⟩ := List.mem_filter.mp hmem
    obtain ⟨ho, hslug⟩ := of_decide_eq_true hrow
    exact ⟨row, hmem, ho, hslug, rfl⟩
  | nil =>
    obtain ⟨_, s₁, hinsert, hrest⟩ := Stmts.run_bind_eq_ok.mp h
    cases hrest
    refine ⟨group, ?_, hgroup, rfl, rfl⟩
    simp [run_insert_eq_ok hinsert]

/-- The membership is that of an owner afterwards. -/
theorem run_upsertMembership_owner {groupId : GroupId} {i : OffsetDateTime} {a : Unit}
    (h : Stmts.run DatabaseError.sqlx (upsertMembership ⟨o, u, groupId, .owner, i⟩) s =
      .ok (a, s')) :
    (∃ m ∈ s'.tables .memberships, m.groupId = groupId ∧ m.userId = u ∧ m.role = .owner) ∧
      ∀ t, t ≠ .memberships → s'.tables t = s.tables t := by
  obtain ⟨_, s₁, hupsert, hrest⟩ := Stmts.run_bind_eq_ok.mp h
  cases hrest
  rcases run_upsert_eq_ok hupsert with ⟨old, hmem, hkey, -, htables⟩ | ⟨-, -, htables⟩
  · obtain ⟨huser, hgroup⟩ : old.userId = u ∧ old.groupId = groupId := by
      simpa [schema] using hkey
    refine ⟨⟨{ old with role := .owner }, ?_, hgroup, huser, rfl⟩, fun t ht => ?_⟩
    · rw [htables, Function.update_self]
      exact List.mem_map.mpr ⟨old, hmem, if_pos (decide_eq_true hkey)⟩
    · rw [htables, Function.update_of_ne ht]
  · refine ⟨⟨⟨o, u, groupId, .owner, i⟩, ?_, rfl, rfl, rfl⟩, fun t ht => ?_⟩
    · simp [htables]
    · rw [htables, Function.update_of_ne ht]

/-- Either there is no such user, or the user is active and an owner of the group. -/
theorem run_breakGlassGrantAdminOwner {group : Group} {i : OffsetDateTime} {event : AuditEvent}
    {e : End (Option BreakGlassAdminRecovery)} (hgroup : group.organizationId = o)
    (h : Stmts.run DatabaseError.sqlx (breakGlassGrantAdminOwner o u group i event) s =
      .ok (e, s')) :
    e = .commit none ∨ ∃ recovery, e = .commit (some recovery) ∧
      IsActive o u s'.tables ∧ ∃ g ∈ s'.tables .groups, g.organizationId = o ∧
        g.slug = group.slug ∧ ∃ m ∈ s'.tables .memberships, m.groupId = g.id ∧ m.userId = u ∧
          m.role = .owner := by
  obtain ⟨_, s₁, -, h⟩ := Stmts.run_bind_eq_ok.mp h
  obtain ⟨_, s₁, -, h⟩ := Stmts.run_bind_eq_ok.mp h
  obtain ⟨user, s₁, -, h⟩ := Stmts.run_bind_eq_ok.mp h
  cases user with
  | none =>
    cases h
    exact .inl rfl
  | some user =>
    obtain ⟨rows, s₂, hlock, h⟩ := Stmts.run_bind_eq_ok.mp h
    cases hlock
    obtain ⟨found, s₂, hfound, h⟩ := Stmts.run_bind_eq_ok.mp h
    obtain ⟨g, hg, ho, hslug, hid⟩ := run_administratorsGroup rfl hgroup hfound
    obtain ⟨role, s₃, hrole, h⟩ := Stmts.run_bind_eq_ok.mp h
    obtain rfl := (Stmts.run_readonly (reads_lockedMembershipRole ..) hrole).symm
    obtain ⟨_, s₃, hupsert, h⟩ := Stmts.run_bind_eq_ok.mp h
    obtain ⟨⟨m, hm, hmg, hmu, hmr⟩, hframe⟩ := run_upsertMembership_owner hupsert
    obtain ⟨updated, s₄, hupdate, h⟩ := Stmts.run_bind_eq_ok.mp h
    obtain ⟨hrows, hupdated⟩ := run_update_eq_ok hupdate
    obtain ⟨row, s₅, hfetch, h⟩ := Stmts.run_bind_eq_ok.mp h
    obtain ⟨_, s₆, haudit, h⟩ := Stmts.run_bind_eq_ok.mp h
    cases h
    have haudit := run_insert_eq_ok haudit
    cases updated with
    | nil => cases hfetch
    | cons head rest =>
      cases hfetch
      have hhead : row ∈ ((s₃.tables .users).filter fun x =>
          decide (x.user.organizationId = o ∧ x.user.id = u)).map fun x =>
            { x with user := { x.user with status := .active, updatedAt := i } } :=
        hrows ▸ List.mem_cons_self
      obtain ⟨old, hold, rfl⟩ := List.mem_map.mp hhead
      obtain ⟨hmem, hold⟩ := List.mem_filter.mp hold
      obtain ⟨horg, huser⟩ := of_decide_eq_true hold
      refine .inr ⟨_, rfl,
        ⟨{ old with user := { old.user with status := .active, updatedAt := i } }, ?_, huser, horg,
          rfl⟩,
        g, ?_, ho, hslug, m, ?_, hmg.trans hid.symm, hmu, hmr⟩
      · rw [haudit, Function.update_of_ne (by decide), hupdated, Function.update_self]
        exact List.mem_map.mpr ⟨old, hmem, if_pos hold⟩
      · rw [haudit, Function.update_of_ne (by decide), hupdated,
          Function.update_of_ne (by decide), hframe _ (by decide)]
        exact hg
      · rw [haudit, Function.update_of_ne (by decide), hupdated,
          Function.update_of_ne (by decide)]
        exact hm

/-- The recovery makes the user an active owner of the group. -/
theorem hasActiveOwner_of_break_glass {group : Group} {i : OffsetDateTime} {event : AuditEvent}
    {recovery : BreakGlassAdminRecovery} (hrefers : schema.Refers .memberships s.tables)
    (hgroup : group.organizationId = o)
    (h : (DbCall.breakGlassGrantAdminOwner o u group i event).exec s = (.ok (some recovery), s')) :
    HasActiveOwner group.slug o s'.tables := by
  have hrefers' : schema.Refers .memberships s'.tables := by
    have hafter := DbCall.exec_refers_memberships
      (.breakGlassGrantAdminOwner o u group i event) hrefers
    rwa [h] at hafter
  rcases Tx.atomic_cases h with ⟨a, ha, hrun⟩ | ⟨a, s₁, ha, hrun, -⟩ | ⟨e, he, -⟩
  · rcases run_breakGlassGrantAdminOwner hgroup hrun with hnone | ⟨_, -, hactive, g, hg, ho, hslug,
      m, hm, hmg, hmu, hmr⟩
    · cases hnone
      cases ha
    · -- the membership is of the organization of the group that it refers to
      obtain ⟨g', hg', hentry⟩ := hrefers' m hm (.groups, .tenant m.groupId m.organizationId)
        (by simp [schema])
      obtain ⟨hid, horg⟩ : m.groupId = g'.id ∧ m.organizationId = g'.organizationId := by
        simpa [Schema.entries, schema] using hentry
      obtain rfl := (s'.unique .groups).eq_of_key hg' hg (by simp [schema, ← hid, hmg])
      exact ⟨u, ⟨g', hg, ho, hslug, m, hm, horg.trans ho, hmg, hmu, hmr⟩, hactive⟩
  · rcases run_breakGlassGrantAdminOwner hgroup hrun with hnone | ⟨_, hcommit, -⟩
    · cases hnone
    · cases hcommit
  · cases he

namespace Sample

def administratorsGroup : Group := ⟨5, 1, "administrators", none, "Administrators", 0⟩

def ownership : Membership := ⟨1, 2, 5, .owner, 0⟩

/-- An organization without users. -/
def installed : Store :=
  ⟨fun | .organizations => [organization] | _ => [], fun t => by cases t <;> decide⟩

def bootstrap : DbCall := .createBootstrapAdmin user "hash" administratorsGroup ownership

/-- The administrator is suspended, demoted, removed, and the group deleted. -/
def attempts : List DbCall :=
  [.updateUserStatus 1 2 .suspended "administrators" 1,
    .upsertGroupMembership ⟨1, 2, 5, .member, 2⟩ "administrators",
    .deleteGroupMembership 1 5 2 "administrators",
    .deleteScimGroup 1 5 "administrators"]

/-- The administrator is suspended, and nobody else is an owner. -/
def lockedOut : Store where
  tables
    | .organizations => [organization]
    | .users => [⟨{ user with status := .suspended }, none⟩]
    | .groups => [administratorsGroup]
    | .memberships => [ownership]
    | _ => []
  unique t := by cases t <;> decide

def recoveryEvent : AuditEvent :=
  ⟨9, 1, .system, none, "operator.break_glass_owner_granted", "user:2", none, none, .object [], 3⟩

def breakGlass : DbCall := .breakGlassGrantAdminOwner 1 2 administratorsGroup 3 recoveryEvent

end Sample

end CairnId
