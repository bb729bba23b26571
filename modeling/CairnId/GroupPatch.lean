import CairnId.Database.MembershipRows
import CairnId.Http.ScimGroupChanges
import CairnId.Memberships

/-!
# What a PATCH request leaves of a group

A PATCH request reads the members of a group, edits their list and replaces the
members by the edited list. The users are those that the operations describe; the
replacement writes the role `member` for each of them.

## Main definitions

* `PatchKeepsMemberships` — what the request does not name stays

## Main results

* `patch_computes_set` — the list and the members are the set that is described
* `patchKeepsMemberships_iff` — which requests keep what they do not name
-/

namespace CairnId

open Concurrency Concurrency.Sql Prog Database

variable {P : Primitives} {state : AppState}

/-- The rows of the group before and after the request: all stay if it names no
    members, and the role of a user that has a row before and after stays. -/
def PatchKeepsMemberships (P : Primitives) (payload : ScimPatchRequest) (groupId : GroupId)
    (before after : Db) : Prop :=
  (payload.NamesNoMembers P → ∀ m : Membership, m.groupId = groupId →
    (m ∈ after .memberships ↔ m ∈ before .memberships)) ∧
  ∀ m ∈ before .memberships, m.groupId = groupId → ∀ m' ∈ after .memberships,
    m'.groupId = groupId → m'.userId = m.userId → m'.role = m.role

/-- The members that the request leaves are plain members before it. -/
def KeptArePlain (P : Primitives) (organizationId : OrganizationId) (groupId : GroupId)
    (payload : ScimPatchRequest) (before : Db) : Prop :=
  ∀ m ∈ before .memberships, m.groupId = groupId →
    m.userId ∈ applyChanges {u | IsMember organizationId groupId u before}
      (payload.memberChanges P) → m.role = .member

-- the set that the operations describe

/-- **A group PATCH computes the set that it describes**: the list of a successful
    PATCH has no duplicates and is not too long, its users are the set, and a
    replacement by it finds users that exist and leaves the set as the members. -/
theorem patch_computes_set {group : Group} {currentMembers : List ScimGroupMember}
    {payload : ScimPatchRequest} {input : ScimGroupInput}
    (hnodup : (currentMembers.map (·.userId)).Nodup)
    (h : scimPatchGroupInput P group currentMembers payload = .ok input) :
    input.memberUserIds.Nodup ∧ input.memberUserIds.length ≤ scimGroupMaxMembers ∧
      (∀ u, u ∈ input.memberUserIds ↔
        u ∈ applyChanges {u | u ∈ currentMembers.map (·.userId)} (payload.memberChanges P)) ∧
      ∀ groupId instant s s' r,
        (DbCall.replaceScimGroup (scimGroupReplaceInput state groupId input instant)).exec s =
          (r, s') →
        ((∀ u ∈ input.memberUserIds, ∃ row ∈ s.tables .users,
            row.user.organizationId = state.organizationId ∧ row.user.id = u) →
          r ≠ .ok .memberNotFound) ∧
        (schema.Refers .memberships s.tables → ∀ updated, r = .ok (.applied updated) →
          ∀ u, IsMember state.organizationId groupId u s'.tables ↔
            u ∈ applyChanges {u | u ∈ currentMembers.map (·.userId)}
              (payload.memberChanges P)) := by
  obtain ⟨hlength, hlist, hmem⟩ := represents_scimPatchGroupInput hnodup h
  refine ⟨hlist, hlength, hmem, fun groupId instant s s' r hexec => ⟨fun hthere hnot => ?_, ?_⟩⟩
  · have hnever : ((DbCall.replaceScimGroup
        (scimGroupReplaceInput state groupId input instant)).exec s).1 ≠ .ok .memberNotFound :=
      replaceScimGroup_ne_memberNotFound hlist hthere
    rw [hexec] at hnever
    exact hnever hnot
  · rintro hrefers updated rfl u
    rcases exec_replaceScimGroup hrefers hexec with ⟨outcome, -, -, heffect⟩ | ⟨hnot, -⟩
    · rw [heffect, if_pos ⟨rfl, rfl⟩]
      exact hmem u
    · exact absurd rfl (hnot _ rfl)

-- a request that succeeds

variable {headers : RequestHeaders} {groupId : GroupId} {payload : ScimPatchRequest} {w w' : World}
  {result : ScimOperationResult}

/-- What a request that runs alone and succeeds reads and writes. -/
theorem runs_scimPatchGroupOperation_ok
    (h : (scimPatchGroupOperation P state headers groupId payload).Runs (Call.exec P) w
      (.ok result) w') : ∃ group members input instant updated s,
    ((DbCall.getGroup state.organizationId groupId).exec w.store).1 = .ok (some group) ∧
      ((DbCall.listScimGroupMembersForGroups state.organizationId [group.id]).exec w.store).1 =
        .ok members ∧
      scimPatchGroupInput P group members payload = .ok input ∧
      (DbCall.replaceScimGroup (scimGroupReplaceInput state groupId input instant)).exec w.store =
        (.ok (.applied updated), s) ∧
      w'.store.tables .memberships = s.tables .memberships := by
  unfold scimPatchGroupOperation at h
  obtain ⟨group, w₁, hgroup, hrun⟩ := runs_bind_ok.mp h
  obtain ⟨members, w₂, hmembers, hrun⟩ := runs_bind_ok.mp hrun
  obtain ⟨input, w₃, hinput, hrun⟩ := runs_bind_ok.mp hrun
  obtain ⟨updated, w₄, hreplace, hrest⟩ := runs_bind_ok.mp hrun
  obtain ⟨found, w₅, hfound, hsome⟩ := runs_bind_ok.mp hgroup
  have hfound := Scim.runs_db_ok hfound
  have hquery := DbCall.exec_of_isQuery (c := .getGroup state.organizationId groupId) rfl w.store
  rw [hfound] at hquery
  cases found with
  | none => cases (runs_fail.mp hsome).1
  | some group' =>
    obtain ⟨heq, rfl⟩ := runs_ret.mp hsome
    obtain rfl := Except.ok.inj heq
    have hmembers := Scim.runs_db_ok hmembers
    have hlist := DbCall.exec_of_isQuery
      (c := .listScimGroupMembersForGroups state.organizationId [group.id]) rfl w₁.store
    rw [hmembers] at hlist
    obtain ⟨hcomputed, rfl⟩ := runs_ofExcept.mp hinput
    obtain ⟨instant, w₆, hclock, hreplace⟩ := runs_bind_ok.mp hreplace
    have hstore := runs_quiet (.perform rfl) hclock
    obtain ⟨outcome, w₇, hexec, hdone⟩ := runs_bind_ok.mp hreplace
    have hexec := Scim.runs_db_ok hexec
    have hstart : w₆.store = w.store := hstore.trans (hlist.trans hquery)
    rw [hstart] at hexec
    have hstart₁ : w₁.store = w.store := hquery
    rw [hstart₁] at hmembers
    cases outcome with
    | applied stored =>
      obtain ⟨heq, rfl⟩ := runs_ret.mp hdone
      obtain rfl := Except.ok.inj heq
      refine ⟨group, members, input, instant, updated, w₄.store, congrArg Prod.fst hfound,
        congrArg Prod.fst hmembers, hcomputed.symm, hexec, runs_leaves ?_ hrest⟩
      have haudit : ∀ e : Call, e.Aside → e.Leaves .memberships := fun e he => he.leaves nofun
      refine .bind (All.mono (Scim.all_insertAuditEvent headers _) haudit) fun _ => ?_
      exact .bind (Scim.all_db (haudit _ (.inl rfl))) fun _ => .ret _
    | notFound | slugAlreadyExists | externalIdAlreadyExists | memberNotFound
    | wouldModifyProtectedGroup => cases (runs_fail.mp hdone).1

/-- The rows of the group after the request: those of the users that it leaves, as
    plain members, and new ones. -/
theorem rows_of_runs (hrefers : schema.Refers .memberships w.store.tables)
    (h : (scimPatchGroupOperation P state headers groupId payload).Runs (Call.exec P) w
      (.ok result) w') : GroupThere state.organizationId groupId w.store.tables ∧
    ∃ instant : OffsetDateTime, ∀ row : Membership, row.groupId = groupId → (row ∈ w'.store.tables .memberships ↔
      (∃ m ∈ w.store.tables .memberships, m.groupId = groupId ∧
        m.userId ∈ applyChanges {u | IsMember state.organizationId groupId u w.store.tables}
          (payload.memberChanges P) ∧ row = { m with role := .member }) ∨
      ∃ u ∈ applyChanges {u | IsMember state.organizationId groupId u w.store.tables}
          (payload.memberChanges P), NoRow groupId u (w.store.tables .memberships) ∧
        row = ⟨state.organizationId, u, groupId, .member, instant⟩) := by
  obtain ⟨group, members, input, instant, updated, s, hgroup, hmembers, hinput, hexec, hafter⟩ :=
    runs_scimPatchGroupOperation_ok h
  have hfind : (w.store.tables .groups).find? (fun g =>
      g.organizationId = state.organizationId ∧ g.id = groupId) = some group := Except.ok.inj hgroup
  obtain ⟨horganization, hid⟩ : group.organizationId = state.organizationId ∧ group.id = groupId := by
    simpa using List.find?_some hfind
  refine ⟨⟨group, List.mem_of_find?_eq_some hfind, horganization, hid⟩, instant, fun row hrow => ?_⟩
  rw [hid] at hmembers
  obtain ⟨hnodup, hset⟩ := listScimGroupMembersForGroups_eq_ok hrefers hmembers
  obtain ⟨-, -, hlist⟩ := represents_scimPatchGroupInput hnodup hinput
  have hsame : {u | u ∈ members.map (·.userId)} =
      {u | IsMember state.organizationId groupId u w.store.tables} := by
    ext u
    exact hset u
  rw [hsame] at hlist
  rw [hafter, mem_replaceScimGroup hrefers hexec row hrow]
  simp only [scimGroupReplaceInput, hlist]

/-- **A group PATCH keeps the memberships that it does not name** exactly if the
    members that it leaves are plain members. -/
theorem patchKeepsMemberships_iff (hrefers : schema.Refers .memberships w.store.tables)
    (h : (scimPatchGroupOperation P state headers groupId payload).Runs (Call.exec P) w
      (.ok result) w') :
    PatchKeepsMemberships P payload groupId w.store.tables w'.store.tables ↔
      KeptArePlain P state.organizationId groupId payload w.store.tables := by
  obtain ⟨hgroup, instant, hrows⟩ := rows_of_runs hrefers h
  constructor
  · rintro ⟨-, hroles⟩ m hm hg hkept
    have hafter : ({ m with role := .member } : Membership) ∈ w'.store.tables .memberships :=
      (hrows { m with role := .member } hg).mpr (.inl ⟨m, hm, hg, hkept, rfl⟩)
    exact (hroles m hm hg _ hafter hg rfl).symm
  intro hplain
  constructor
  · intro hnames row hg
    have hset : applyChanges {u | IsMember state.organizationId groupId u w.store.tables}
        (payload.memberChanges P) =
          {u | IsMember state.organizationId groupId u w.store.tables} := by
      rw [memberChanges_of_namesNoMembers hnames]
      rfl
    unfold KeptArePlain at hplain
    rw [hset] at hplain
    rw [hrows row hg, hset]
    constructor
    · rintro (⟨m, hm, hmg, hmember, rfl⟩ | ⟨u, ⟨m, hm, -, hmg, rfl⟩, hno, -⟩)
      · rw [← hplain m hm hmg hmember]
        exact hm
      · exact absurd ⟨hmg, rfl⟩ (hno m hm)
    · intro hrow
      have hmember : IsMember state.organizationId groupId row.userId w.store.tables :=
        ⟨row, hrow, organizationId_of_refers hrefers hgroup hrow hg, hg, rfl⟩
      refine .inl ⟨row, hrow, hg, hmember, ?_⟩
      rw [← hplain row hrow hg hmember]
  · intro m hm hg m' hm' hg' huser
    rcases (hrows m' hg').mp hm' with ⟨m₀, hm₀, hg₀, hkept, rfl⟩ | ⟨u, -, hno, rfl⟩
    · have hsame : m₀ = m := by
        refine (w.store.unique .memberships).eq_of_key hm₀ hm ?_
        have hu : m₀.userId = m.userId := huser
        simp [schema, hu, hg, hg₀]
      subst hsame
      exact (hplain m₀ hm hg hkept).symm
    · exact absurd ⟨hg, huser.symm⟩ (hno m hm)

namespace Sample

/-- The group with an owner and a plain member. -/
def ownedTables (role : MembershipRole) : Db
  | .memberships => [⟨1, 2, 5, role, 0⟩, ⟨1, 6, 5, .member, 0⟩]
  | t => teamTables t

def owned (role : MembershipRole) : World where
  store := ⟨ownedTables role, fun t => by cases role <;> cases t <;> decide⟩
  clock := 0
  uuids := []

def renameTeam : ScimPatchRequest :=
  ⟨[scimPatchOpSchema], [⟨"replace", some "displayName", some (.string "Crew")⟩]⟩

def renamingTeam (role : MembershipRole) : Option (Except ScimError ScimOperationResult × World) :=
  play (Call.exec uuidPrimitives) [{}, {}, {}, {}, { uuid := 50 }, {}, {}, {}]
    (scimPatchGroupOperation uuidPrimitives appState noHeaders 5 renameTeam) (owned role)

def bob : ScimGroupMember := ⟨5, 6, "bob@example.org", "Bob", .member, 0⟩

/-- Bob is a member, and Ada joins. -/
def addAda : Except ScimError ScimGroupInput :=
  scimPatchGroupInput uuidPrimitives ⟨5, 1, "team", none, "Team", 0⟩
    [bob] (addMember "00000000-0000-0000-0000-000000000002")

end Sample

open Sample in
theorem patch_computes_set_addAda : addAda = .ok ⟨"Team", none, [6, 2]⟩ ∧
    ∀ u, u ∈ ([6, 2] : List UserId) ↔ u ∈ applyChanges
      {u | u ∈ [bob].map (·.userId)}
      ((addMember "00000000-0000-0000-0000-000000000002").memberChanges uuidPrimitives) := by
  have hinput : addAda = .ok ⟨"Team", none, [6, 2]⟩ := by decide
  exact ⟨hinput, (@patch_computes_set uuidPrimitives appState _ _ _ _ (by decide) hinput).2.2.1⟩

open Sample in
/-- A request that renames a group of plain members. -/
theorem renameTeam_keeps_members : ∃ result w',
    (scimPatchGroupOperation uuidPrimitives appState noHeaders 5 renameTeam).Runs
      (Call.exec uuidPrimitives) (owned .member) (.ok result) w' ∧
    PatchKeepsMemberships uuidPrimitives renameTeam 5 (owned .member).store.tables
      w'.store.tables := by
  have hplay : (renamingTeam .member).map (fun r => r.1.isOk) = some true := by decide
  obtain ⟨⟨o, w'⟩, hrun, hok⟩ := Option.map_eq_some_iff.mp hplay
  cases o with
  | error e => cases hok
  | ok result =>
    refine ⟨result, w', ⟨_, hrun⟩, (patchKeepsMemberships_iff (by decide) ⟨_, hrun⟩).mpr ?_⟩
    intro m hm _ _
    have hrows : ∀ m ∈ (owned .member).store.tables .memberships, m.role = .member := by
      decide
    exact hrows m hm

open Sample in
/-- A request that renames a group leaves its owner a plain member. -/
theorem renameTeam_demotes_owner : ∃ result w',
    (scimPatchGroupOperation uuidPrimitives appState noHeaders 5 renameTeam).Runs
      (Call.exec uuidPrimitives) (owned .owner) (.ok result) w' ∧
    schema.Refers .memberships (owned .owner).store.tables ∧
    renameTeam.NamesNoMembers uuidPrimitives ∧
    ¬ PatchKeepsMemberships uuidPrimitives renameTeam 5 (owned .owner).store.tables
      w'.store.tables := by
  have hplay : (renamingTeam .owner).map (fun r => (r.1.isOk, r.2.store.tables .memberships)) =
      some (true, [⟨1, 2, 5, .member, 0⟩, ⟨1, 6, 5, .member, 0⟩]) := by
    decide
  obtain ⟨⟨o, w'⟩, hrun, hshown⟩ := Option.map_eq_some_iff.mp hplay
  obtain ⟨hok, hrows⟩ := Prod.mk.inj hshown
  dsimp only at hok hrows
  have hnames : renameTeam.NamesNoMembers uuidPrimitives := by
    intro operation hoperation path hpath
    obtain rfl := List.mem_singleton.mp hoperation
    obtain rfl : path = "displayName" := List.mem_singleton.mp hpath
    exact ⟨.displayName, by decide, rfl⟩
  cases o with
  | error e => cases hok
  | ok result =>
    refine ⟨result, w', ⟨_, hrun⟩, by decide, hnames, fun hkeeps => ?_⟩
    have hafter := (hkeeps.1 hnames ⟨1, 2, 5, .owner, 0⟩ rfl).mpr (by decide)
    rw [hrows] at hafter
    exact absurd hafter (by decide)

end CairnId
