import Mathlib.Data.List.Nodup
import Mathlib.Data.List.Sort
import CairnId.Database.Memberships

/-!
# The membership rows of a replaced group

Which rows a replacement of the members leaves, with their roles and dates, and
what the queries before it say about the rows.
-/

namespace CairnId

open Concurrency Concurrency.Sql Prog

/-- The row after a replacement that lists the users. -/
def Membership.listed (g : GroupId) (us : List UserId) (m : Membership) : Membership :=
  if m.groupId = g ∧ m.userId ∈ us then { m with role := .member } else m

namespace Database

-- the queries

theorem eraseDups_of_nodup {α : Type} [BEq α] [LawfulBEq α] {l : List α} (h : l.Nodup) :
    l.eraseDups = l := by
  induction l with
  | nil => rfl
  | cons a l ih =>
    obtain ⟨hnew, hnodup⟩ := List.nodup_cons.mp h
    have hfilter : l.filter (fun b => !b == a) = l := by
      refine List.filter_eq_self.mpr fun b hb => ?_
      have hne : b ≠ a := fun heq => hnew (heq ▸ hb)
      simpa using hne
    rw [List.eraseDups_cons, hfilter, ih hnodup]

variable {s s' : Store}

/-- Users that exist pass the check, if none is listed twice. -/
theorem run_allUsersExist {o : OrganizationId} {us : List UserId} (hnodup : us.Nodup)
    (hthere : ∀ u ∈ us, ∃ row ∈ s.tables .users, row.user.organizationId = o ∧ row.user.id = u) :
    Stmts.run DatabaseError.sqlx (allUsersExist o us) s = .ok (true, s) := by
  have hids : ((s.tables .users).map (·.user.id)).Nodup := by
    refine List.pairwise_map.mpr ((s.unique .users).imp fun {a b} hcompatible heq => ?_)
    exact hcompatible (.id a.user.id) (by simp [Schema.entries, schema])
      (by simp [Schema.entries, schema, heq])
  let found := ((s.tables .users).filter fun row =>
    row.user.organizationId = o ∧ row.user.id ∈ us).map (·.user.id)
  have hfound : found.Nodup := hids.sublist (List.filter_sublist.map _)
  have hmem : ∀ u, u ∈ found ↔ u ∈ us := by
    intro u
    simp only [found, List.mem_map, List.mem_filter, decide_eq_true_eq]
    constructor
    · rintro ⟨row, ⟨-, -, hu⟩, rfl⟩
      exact hu
    · intro hu
      obtain ⟨row, hrow, ho, rfl⟩ := hthere u hu
      exact ⟨row, ⟨hrow, ho, hu⟩, rfl⟩
  have hlength : found.length = us.length :=
    ((List.perm_ext_iff_of_nodup hfound hnodup).mpr hmem).length_eq
  unfold allUsersExist
  split
  · rfl
  · show Except.ok (decide (found.eraseDups.length = us.length), s) = _
    rw [eraseDups_of_nodup hfound, hlength]
    simp

theorem map_filterMap_eq_map {α β γ : Type} {f : α → Option β} {p : β → γ} {q : α → γ} {l : List α}
    (h : ∀ a ∈ l, ∃ b, f a = some b ∧ p b = q a) : (l.filterMap f).map p = l.map q := by
  induction l with
  | nil => rfl
  | cons a l ih =>
    obtain ⟨b, hb, hp⟩ := h a (.head _)
    rw [List.filterMap_cons_some hb, List.map_cons, List.map_cons, hp,
      ih fun a' ha' => h a' (.tail _ ha')]

/-- Of a group whose rows have users, the query lists each member once. -/
theorem listScimGroupMembersForGroups_eq_ok {o : OrganizationId} {g : GroupId}
    {members : List ScimGroupMember} (hrefers : schema.Refers .memberships s.tables)
    (h : ((DbCall.listScimGroupMembersForGroups o [g]).exec s).1 = .ok members) :
    (members.map (·.userId)).Nodup ∧
      ∀ u, u ∈ members.map (·.userId) ↔ IsMember o g u s.tables := by
  let rows := (s.tables .memberships).filter fun m => m.organizationId = o ∧ m.groupId ∈ [g]
  have hlisted : members = (rows.filterMap (scimGroupMember s.tables)).insertionSort
      fun a b => scimGroupMemberLe a b := (Except.ok.inj h).symm
  have hperm : members.Perm (rows.filterMap (scimGroupMember s.tables)) :=
    hlisted ▸ List.perm_insertionSort _ _
  have hmember : ∀ m ∈ rows, ∃ member, scimGroupMember s.tables m = some member ∧
      member.userId = m.userId := by
    intro m hm
    obtain ⟨row, hrow, hentry⟩ := hrefers m (List.mem_of_mem_filter hm)
      (.users, .tenant m.userId m.organizationId) (by simp [schema])
    obtain ⟨hid, ho⟩ : m.userId = row.user.id ∧ m.organizationId = row.user.organizationId := by
      simpa [Schema.entries, schema] using hentry
    have hfind : ((s.tables .users).find? fun u =>
        u.user.id = m.userId ∧ u.user.organizationId = m.organizationId).isSome :=
      List.find?_isSome.mpr ⟨row, hrow, by simp [hid, ho]⟩
    obtain ⟨found, hfound⟩ := Option.isSome_iff_exists.mp hfind
    exact ⟨_, congrArg (Option.map _) hfound, rfl⟩
  have hsame : (members.map (·.userId)).Perm (rows.map (·.userId)) :=
    map_filterMap_eq_map hmember ▸ hperm.map _
  refine ⟨hsame.nodup_iff.mpr (List.pairwise_map.mpr ?_), fun u => ?_⟩
  · -- two rows of one group and user have one key
    refine ((s.unique .memberships).filter _).imp_of_mem fun {a b} ha hb hcompatible heq => ?_
    have hgroup : ∀ m ∈ rows, m.groupId = g := by
      intro m hm
      have hm := (List.mem_filter.mp hm).2
      simp only [List.mem_singleton, decide_eq_true_eq] at hm
      exact hm.2
    exact hcompatible (.pair a.userId a.groupId) (by simp [Schema.entries, schema])
      (by simp [Schema.entries, schema, heq, hgroup a ha, hgroup b hb])
  · rw [hsame.mem_iff]
    simp [rows, IsMember, and_assoc]

-- the rows

/-- No row of the group is of the user. -/
def NoRow (g : GroupId) (u : UserId) (rows : List Membership) : Prop :=
  ∀ m ∈ rows, ¬(m.groupId = g ∧ m.userId = u)

theorem mem_upsertMembership {o : OrganizationId} {u : UserId} {g : GroupId} {i : OffsetDateTime}
    {a : Unit} (h : Stmts.run DatabaseError.sqlx (upsertMembership ⟨o, u, g, .member, i⟩) s =
      .ok (a, s')) (row : Membership) :
    row ∈ s'.tables .memberships ↔ (∃ m ∈ s.tables .memberships, m.listed g [u] = row) ∨
      NoRow g u (s.tables .memberships) ∧ row = ⟨o, u, g, .member, i⟩ := by
  obtain ⟨_, s₁, hupsert, hrest⟩ := Stmts.run_bind_eq_ok.mp h
  cases hrest
  rcases run_upsert_eq_ok hupsert with ⟨old, hold, hkey, -, htables⟩ | ⟨hnone, -, htables⟩
  · obtain ⟨hu, hg⟩ : old.userId = u ∧ old.groupId = g := by simpa [schema] using hkey
    have hrow : ¬NoRow g u (s.tables .memberships) := fun hno => hno old hold ⟨hg, hu⟩
    simp only [htables, Function.update_self, Stmt.updated, List.mem_map, hrow, false_and,
      or_false]
    refine exists_congr fun m => and_congr_right fun _ => ?_
    have hkeys : schema.key .memberships m = schema.key .memberships (⟨o, u, g, .member, i⟩ : Membership) ↔
        m.groupId = g ∧ m.userId ∈ [u] := by
      simp [schema, and_comm]
    simp only [Membership.listed, decide_eq_true_eq, hkeys]
  · have hno : NoRow g u (s.tables .memberships) := by
      rintro m hm ⟨rfl, rfl⟩
      exact hnone m hm rfl
    have hsame : ∀ m ∈ s.tables .memberships, m.listed g [u] = m := by
      intro m hm
      refine if_neg fun hmu => hno m hm ⟨hmu.1, List.mem_singleton.mp hmu.2⟩
    simp only [htables, Function.update_self, List.mem_append, List.mem_singleton, hno, true_and]
    refine or_congr_left ⟨fun hrow => ⟨row, hrow, hsame row hrow⟩, ?_⟩
    rintro ⟨m, hm, rfl⟩
    rwa [hsame m hm]

theorem Membership.listed_keys (g : GroupId) (us : List UserId) (m : Membership) :
    (m.listed g us).groupId = m.groupId ∧ (m.listed g us).userId = m.userId := by
  unfold Membership.listed
  split <;> exact ⟨rfl, rfl⟩

theorem Membership.listed_cons {g : GroupId} {u : UserId} {us : List UserId} (m : Membership) :
    (m.listed g [u]).listed g us = m.listed g (u :: us) := by
  unfold Membership.listed
  by_cases hg : m.groupId = g
  · by_cases hu : m.userId = u
    · simp [hg, hu]
    · simp [hg, hu]
  · simp [hg]

/-- The rows after the insertion of the listed users. -/
theorem mem_insertScimGroupMemberIds {o : OrganizationId} {g : GroupId} {i : OffsetDateTime}
    {us : List UserId} {a : Unit}
    (h : Stmts.run DatabaseError.sqlx (insertScimGroupMemberIds o g i us) s = .ok (a, s'))
    (row : Membership) :
    row ∈ s'.tables .memberships ↔ (∃ m ∈ s.tables .memberships, m.listed g us = row) ∨
      ∃ u ∈ us, NoRow g u (s.tables .memberships) ∧ row = ⟨o, u, g, .member, i⟩ := by
  induction us generalizing s with
  | nil =>
    cases h
    simp [Membership.listed]
  | cons u us ih =>
    obtain ⟨_, s₁, hupsert, hrest⟩ := Stmts.run_bind_eq_ok.mp h
    have hrows := mem_upsertMembership hupsert
    have hnew : (⟨o, u, g, .member, i⟩ : Membership).listed g us = ⟨o, u, g, .member, i⟩ := by
      unfold Membership.listed
      split <;> rfl
    -- a user has a row after the first insertion, or had one before
    have hno : ∀ v, NoRow g v (s₁.tables .memberships) ↔
        v ≠ u ∧ NoRow g v (s.tables .memberships) := by
      intro v
      constructor
      · intro hv
        constructor
        · rintro rfl
          by_cases hs : NoRow g v (s.tables .memberships)
          · exact hv _ ((hrows _).mpr (.inr ⟨hs, rfl⟩)) ⟨rfl, rfl⟩
          · simp only [NoRow, not_forall, not_not] at hs
            obtain ⟨m, hm, hkeys⟩ := hs
            have hlisted := Membership.listed_keys g [v] m
            exact hv _ ((hrows _).mpr (.inl ⟨m, hm, rfl⟩)) ⟨by rw [hlisted.1]; exact hkeys.1,
              by rw [hlisted.2]; exact hkeys.2⟩
        · intro m hm hkeys
          have hlisted := Membership.listed_keys g [u] m
          exact hv _ ((hrows _).mpr (.inl ⟨m, hm, rfl⟩)) ⟨by rw [hlisted.1]; exact hkeys.1,
            by rw [hlisted.2]; exact hkeys.2⟩
      · rintro ⟨hne, hv⟩ m hm hkeys
        rcases (hrows m).mp hm with ⟨m₀, hm₀, rfl⟩ | ⟨-, rfl⟩
        · have hlisted := Membership.listed_keys g [u] m₀
          rw [hlisted.1, hlisted.2] at hkeys
          exact hv m₀ hm₀ hkeys
        · exact hne hkeys.2.symm
    rw [ih hrest]
    simp only [hno, hrows]
    constructor
    · rintro (⟨m, ⟨m₀, hm₀, rfl⟩ | ⟨hs, rfl⟩, rfl⟩ | ⟨v, hv, ⟨-, hs⟩, rfl⟩)
      · exact .inl ⟨m₀, hm₀, (Membership.listed_cons m₀).symm⟩
      · exact .inr ⟨u, .head _, hs, hnew⟩
      · exact .inr ⟨v, .tail _ hv, hs, rfl⟩
    · rintro (⟨m₀, hm₀, rfl⟩ | ⟨v, hv, hs, rfl⟩)
      · exact .inl ⟨_, .inl ⟨m₀, hm₀, rfl⟩, Membership.listed_cons m₀⟩
      · by_cases heq : v = u
        · subst heq
          exact .inl ⟨_, .inr ⟨hs, rfl⟩, hnew⟩
        · rcases List.mem_cons.mp hv with rfl | hv
          · exact absurd rfl heq
          · exact .inr ⟨v, hv, ⟨heq, hs⟩, rfl⟩

-- the replacement

variable {input : ScimGroupReplaceInput}

/-- **The rows of a replaced group**: those of the listed users stay, as plain
    members, and the others of the list get new ones. -/
theorem mem_replaceScimGroup (hrefers : schema.Refers .memberships s.tables) {group : Group}
    (h : (DbCall.replaceScimGroup input).exec s = (.ok (.applied group), s')) (row : Membership)
    (hg : row.groupId = input.groupId) :
    row ∈ s'.tables .memberships ↔
      (∃ m ∈ s.tables .memberships, m.groupId = input.groupId ∧
        m.userId ∈ input.memberUserIds ∧ row = { m with role := .member }) ∨
      ∃ u ∈ input.memberUserIds, NoRow input.groupId u (s.tables .memberships) ∧
        row = ⟨input.organizationId, u, input.groupId, .member, input.instant⟩ := by
  rcases Tx.atomic_cases h with ⟨a, ha, hrun⟩ | ⟨a, s₁, ha, hrun, -⟩ | ⟨e, he, -⟩
  · rcases run_replaceScimGroup hrun with
      ⟨group', s₂, s₃, updated, deleted, -, hgroup, hupdate, hdelete, hinsert⟩ | ⟨a', ha', -, -⟩
    swap
    · cases ha'
    obtain ⟨hrefers₃, hgroup₃, hmembers₂⟩ := replacing_of_refers hrefers hgroup hupdate hdelete
    -- of the group, the rows that are left before the insertion are those of listed users
    have hleft : ∀ m, m.groupId = input.groupId → (m ∈ s₃.tables .memberships ↔
        m ∈ s.tables .memberships ∧ m.userId ∈ input.memberUserIds) := by
      intro m hm
      rw [run_delete_eq_ok hdelete, Function.update_self, List.mem_filter, hmembers₂]
      refine and_congr_right fun hmem => ?_
      have ho := organizationId_of_refers hrefers hgroup hmem hm
      simp [ho, hm]
    have hno : ∀ u ∈ input.memberUserIds, (NoRow input.groupId u (s₃.tables .memberships) ↔
        NoRow input.groupId u (s.tables .memberships)) := by
      intro u hu
      constructor
      · rintro hno m hm ⟨hmg, rfl⟩
        exact hno m ((hleft m hmg).mpr ⟨hm, hu⟩) ⟨hmg, rfl⟩
      · rintro hno m hm ⟨hmg, rfl⟩
        exact hno m ((hleft m hmg).mp hm).1 ⟨hmg, rfl⟩
    rw [mem_insertScimGroupMemberIds hinsert]
    refine or_congr ?_ (exists_congr fun u => and_congr_right fun hu => by rw [hno u hu])
    constructor
    · rintro ⟨m, hm, rfl⟩
      rw [(Membership.listed_keys _ _ m).1] at hg
      obtain ⟨hm, hu⟩ := (hleft m hg).mp hm
      exact ⟨m, hm, hg, hu, if_pos ⟨hg, hu⟩⟩
    · rintro ⟨m, hm, hmg, hu, rfl⟩
      exact ⟨m, (hleft m hmg).mpr ⟨hm, hu⟩, if_pos ⟨hmg, hu⟩⟩
  · rcases run_replaceScimGroup hrun with ⟨group', s₂, s₃, _, _, hb, -⟩ | ⟨a', hb, hnot, -⟩
    · cases hb
    · cases ha
      cases hb
      exact absurd rfl hnot
  · cases he

/-- A replacement finds the members if they exist and none is listed twice. -/
theorem replaceScimGroup_ne_memberNotFound (hnodup : input.memberUserIds.Nodup)
    (hthere : ∀ u ∈ input.memberUserIds, ∃ row ∈ s.tables .users,
      row.user.organizationId = input.organizationId ∧ row.user.id = u) :
    ((DbCall.replaceScimGroup input).exec s).1 ≠ .ok .memberNotFound := by
  intro hr
  have hexec : (DbCall.replaceScimGroup input).exec s =
      (((DbCall.replaceScimGroup input).exec s).1, ((DbCall.replaceScimGroup input).exec s).2) := rfl
  rcases Tx.atomic_cases hexec with
    ⟨a, ha, hrun⟩ | ⟨a, s₁, ha, hrun, -⟩ | ⟨e, he, -⟩
  · rcases run_replaceScimGroup hrun with ⟨group, _, _, _, _, hb, -⟩ | ⟨a', hb, -, -⟩
    · cases hb
      rw [hr] at ha
      cases ha
    · cases hb
  · rcases run_replaceScimGroup hrun with ⟨group, _, _, _, _, hb, -⟩ | ⟨a', hb, -, hfound⟩
    · cases hb
    · cases hb
      rw [hr] at ha
      cases ha
      have hcheck := hfound rfl
      rw [run_allUsersExist hnodup hthere] at hcheck
      cases hcheck
  · rw [hr] at he
    cases he

end Database

end CairnId
