import Mathlib.Data.List.Nodup
import Mathlib.Data.List.Perm.Basic
import Mathlib.Data.Set.Insert
import CairnId.Http.ScimPatchSpec

/-!
# The membership changes of a PATCH request

What the operations of a request ask of the set of a group's members, and that the
list which the operations compute is that set, without duplicates.

## Main definitions

* `MemberChange` — a change to a set of users
* `ScimPatchRequest.memberChanges` — the changes that a request asks for, in order

## Main results

* `represents_scimPatchGroupInput` — the operations make these changes
-/

namespace CairnId

open Concurrency.Prog

/-- A change to a set of users. -/
inductive MemberChange where
  | insert (users : List UserId)
  | set (users : List UserId)
  | exchange (old new : UserId)
  | clear
  | delete (user : UserId)

def MemberChange.apply : MemberChange → Set UserId → Set UserId
  | .insert users, members => members ∪ {u | u ∈ users}
  | .set users, _ => {u | u ∈ users}
  | .exchange old new, members => Insert.insert new (members \ {old})
  | .clear, _ => ∅
  | .delete user, members => members \ {user}

/-- The set after changes one after the other. -/
def applyChanges (members : Set UserId) (changes : List MemberChange) : Set UserId :=
  changes.foldl (fun members change => change.apply members) members

variable (P : Primitives)

/-- What `add` or `replace` asks for at a path. -/
def ScimGroupPatchPath.change (replace : Bool) (value : Json) :
    ScimGroupPatchPath → Option MemberChange
  | .members none valueOnly => (membersOfPatchValue P valueOnly value).toOption.map
    (if replace then .set else .insert)
  | .members (some userId) valueOnly =>
    if replace then
      (scimGroupSingleMemberUserIdFromPatchValue P value valueOnly).toOption.map (.exchange userId)
    else some (.insert [userId])
  | .displayName | .externalId | .schemas => none

/-- What `remove` asks for at a path. -/
def ScimGroupPatchPath.removal : ScimGroupPatchPath → Option MemberChange
  | .members none _ => some .clear
  | .members (some userId) _ => some (.delete userId)
  | .displayName | .externalId | .schemas => none

/-- The changes that an operation asks for, in the order of its paths. -/
def ScimPatchOperation.memberChanges (operation : ScimPatchOperation) : List MemberChange :=
  match ScimPatchOp.parse operation.op with
  | .ok .remove => (operation.path.bind fun path =>
      (scimGroupPatchPath P path).toOption.bind (·.removal)).toList
  | .ok op => operation.pathValues.flatMap fun x =>
      ((scimGroupPatchPath P x.1).toOption.bind (·.change P (op = .replace) x.2)).toList
  | .error _ => []

def ScimPatchRequest.memberChanges (request : ScimPatchRequest) : List MemberChange :=
  request.operations.flatMap (·.memberChanges P)

/-- Every path of the request is an attribute other than the members. -/
def ScimPatchRequest.NamesNoMembers (request : ScimPatchRequest) : Prop :=
  ∀ operation ∈ request.operations, ∀ path ∈ operation.paths, ∃ parsed,
    scimGroupPatchPath P path = .ok parsed ∧ parsed.isMembers = false

variable {P}

theorem applyChanges_flatMap {α : Type} (members : Set UserId) (l : List α)
    (changes : α → List MemberChange) : applyChanges members (l.flatMap changes) =
      l.foldl (fun members x => applyChanges members (changes x)) members := by
  induction l generalizing members with
  | nil => rfl
  | cons x l ih =>
    rw [List.flatMap_cons, applyChanges, List.foldl_append]
    exact ih _

theorem mem_paths_of_mem_pathValues {operation : ScimPatchOperation} {x : String × Json}
    (h : x ∈ operation.pathValues) : x.1 ∈ operation.paths := by
  obtain ⟨op, path, value⟩ := operation
  unfold ScimPatchOperation.pathValues at h
  split at h
  · rename_i hpath hvalue
    dsimp only at hpath hvalue
    subst hpath
    simp_all [ScimPatchOperation.paths]
  · rename_i hpath hvalue
    dsimp only at hpath hvalue
    subst hpath hvalue
    exact List.mem_map_of_mem h
  · cases h

/-- A request that names no members asks for no change of them. -/
theorem memberChanges_of_namesNoMembers {request : ScimPatchRequest}
    (h : request.NamesNoMembers P) : request.memberChanges P = [] := by
  refine List.flatMap_eq_nil_iff.mpr fun operation hoperation => ?_
  have hnone : ∀ path ∈ operation.paths, ∀ parsed, scimGroupPatchPath P path = .ok parsed →
      parsed.removal = none ∧ ∀ replace value, parsed.change P replace value = none := by
    intro path hpath parsed hparsed
    obtain ⟨parsed', hparsed', hnot⟩ := h operation hoperation path hpath
    rw [hparsed] at hparsed'
    cases hparsed'
    cases parsed with
    | members => cases hnot
    | displayName | externalId | schemas => exact ⟨rfl, fun _ _ => rfl⟩
  have hchanges : ∀ replace, operation.pathValues.flatMap (fun x =>
      ((scimGroupPatchPath P x.1).toOption.bind (·.change P replace x.2)).toList) = [] := by
    intro replace
    refine List.flatMap_eq_nil_iff.mpr fun x hx => ?_
    cases hparsed : scimGroupPatchPath P x.1 with
    | error => rfl
    | ok parsed =>
      have hchange := (hnone x.1 (mem_paths_of_mem_pathValues hx) parsed hparsed).2 replace x.2
      simp [Except.toOption, hchange]
  unfold ScimPatchOperation.memberChanges
  split
  · cases hpath : operation.path with
    | none => rfl
    | some path =>
      have hmem : path ∈ operation.paths := by simp [ScimPatchOperation.paths, hpath]
      cases hparsed : scimGroupPatchPath P path with
      | error => simp [hparsed, Except.toOption]
      | ok parsed =>
        have hremoval := (hnone path hmem parsed hparsed).1
        simp [hparsed, Except.toOption, hremoval]
  · exact hchanges _
  · rfl

-- the list that the operations compute

/-- The list has the elements of the set, each of them once. -/
def Represents (list : List UserId) (members : Set UserId) : Prop :=
  list.Nodup ∧ ∀ u, u ∈ list ↔ u ∈ members

variable {list : List UserId} {members : Set UserId} {s s' : ScimGroupPatchState}

theorem nodup_pushMissing (hnodup : list.Nodup) (users : List UserId) :
    (ScimGroupPatchState.pushMissing list users).Nodup := by
  induction users generalizing list with
  | nil => exact hnodup
  | cons user users ih =>
    rw [ScimGroupPatchState.pushMissing]
    refine ih ?_
    split
    · exact hnodup
    · rename_i hnew
      have hnew : user ∉ list := by simpa using hnew
      refine List.nodup_append.mpr ⟨hnodup, by simp, ?_⟩
      rintro a ha b hb rfl
      exact hnew (List.mem_singleton.mp hb ▸ ha)

theorem Represents.addMemberUserIds (h : Represents s.memberUserIds members)
    {users : List UserId} (hadd : s.addMemberUserIds users = .ok s') :
    Represents s'.memberUserIds ((MemberChange.insert users).apply members) := by
  refine ⟨?_, fun u => ?_⟩
  · simp only [ScimGroupPatchState.addMemberUserIds] at hadd
    split at hadd
    · cases hadd
    · cases hadd
      exact nodup_pushMissing h.1 users
  · rw [mem_addMemberUserIds hadd, h.2]
    rfl

theorem Represents.delete (h : Represents list members) (user : UserId) :
    Represents (list.filter (· ≠ user)) ((MemberChange.delete user).apply members) := by
  refine ⟨h.1.filter _, fun u => ?_⟩
  simp [MemberChange.apply, h.2]

/-- The exchange collapses two entries when the new user is a member already. -/
theorem Represents.exchange (h : Represents list members) {old : UserId} (new : UserId) {i : ℕ}
    (hi : list.findIdx? (· = old) = some i) :
    Represents (if new = old then list else if list.contains new then list.eraseIdx i
      else list.set i new) ((MemberChange.exchange old new).apply members) := by
  obtain ⟨hlt, hold, -⟩ := List.findIdx?_eq_some_iff_getElem.mp hi
  have hold : list[i] = old := by simpa using hold
  have hmem : old ∈ list := hold ▸ List.getElem_mem hlt
  have herase : list.eraseIdx i = list.erase old := by
    rw [← hold, h.1.erase_getElem]
  split
  · rename_i heq
    subst heq
    refine ⟨h.1, fun u => ?_⟩
    simp only [MemberChange.apply, Set.mem_insert_iff, Set.mem_sdiff, Set.mem_singleton_iff, ← h.2]
    by_cases hu : u = new
    · simp [hu, hmem]
    · simp [hu]
  · rename_i hne
    split
    · rename_i hnew
      have hnew : new ∈ list := by simpa using hnew
      rw [herase]
      refine ⟨h.1.erase old, fun u => ?_⟩
      simp only [MemberChange.apply, h.1.mem_erase_iff, Set.mem_insert_iff, Set.mem_sdiff,
        Set.mem_singleton_iff, ← h.2]
      by_cases hu : u = new
      · simp [hu, hnew, hne]
      · simp [hu, and_comm]
    · rename_i hnew
      have hnew : new ∉ list := by simpa using hnew
      have hperm : (list.set i new).Perm (new :: list.erase old) :=
        herase ▸ List.set_perm_cons_eraseIdx hlt new
      refine ⟨hperm.nodup_iff.mpr (List.nodup_cons.mpr ⟨?_, h.1.erase old⟩), fun u => ?_⟩
      · exact fun hmem' => hnew (List.mem_of_mem_erase hmem')
      · simp only [hperm.mem_iff, MemberChange.apply, List.mem_cons, h.1.mem_erase_iff,
          Set.mem_insert_iff, Set.mem_sdiff, Set.mem_singleton_iff, ← h.2, and_comm]

-- the users that a value lists

theorem uniqueScimGroupMemberUserIds_eq_ok {userIds users : List UserId}
    (h : uniqueScimGroupMemberUserIds userIds = .ok users) :
    users = userIds ∧ users.Nodup ∧ users.length ≤ scimGroupMaxMembers := by
  unfold uniqueScimGroupMemberUserIds at h
  split at h
  · cases h
  · rename_i hle
    split at h
    · rename_i hnodup
      cases h
      exact ⟨rfl, hnodup, Nat.not_lt.mp hle⟩
    · cases h

theorem nodup_membersOfPatchValue {valueOnly : Bool} {value : Json} {users : List UserId}
    (h : membersOfPatchValue P valueOnly value = .ok users) : users.Nodup := by
  have hread : ∀ read : Json → ScimResult UserId,
      scimGroupUserIdsFromPatchValue read value = .ok users → users.Nodup := by
    intro read hread
    unfold scimGroupUserIdsFromPatchValue at hread
    split at hread
    · obtain ⟨userIds, -, hunique⟩ := except_bind_eq_ok.mp hread
      exact (uniqueScimGroupMemberUserIds_eq_ok hunique).2.1
    · obtain ⟨userId, -, hunique⟩ := except_bind_eq_ok.mp hread
      exact (uniqueScimGroupMemberUserIds_eq_ok hunique).2.1
  unfold membersOfPatchValue at h
  split at h
  · exact hread _ h
  · exact hread _ h

-- one path, one operation, a request

theorem Represents.replaceFilteredMemberUserId (h : Represents s.memberUserIds members)
    {old : UserId} {value : Json} {valueOnly : Bool}
    (hstep : s.replaceFilteredMemberUserId P old value valueOnly = .ok s') :
    ∃ new, scimGroupSingleMemberUserIdFromPatchValue P value valueOnly = .ok new ∧
      Represents s'.memberUserIds ((MemberChange.exchange old new).apply members) := by
  obtain ⟨new, hread, hrest⟩ := except_bind_eq_ok.mp hstep
  refine ⟨new, hread, ?_⟩
  split at hrest
  · rename_i i hi
    have hexchange := h.exchange new hi
    by_cases hsame : new = old
    · rw [if_pos hsame] at hrest hexchange
      cases hrest
      exact hexchange
    · rw [if_neg hsame] at hrest hexchange
      by_cases hthere : s.memberUserIds.contains new = true
      · rw [if_pos hthere] at hrest hexchange
        cases hrest
        exact hexchange
      · rw [if_neg hthere] at hrest hexchange
        cases hrest
        exact hexchange
  · cases hrest

/-- `add` and `replace` at a path make the change that they ask for. -/
theorem represents_applyScimGroupPatchPathValue {replace : Bool} {path : ScimGroupPatchPath}
    {value : Json} (h : Represents s.memberUserIds members)
    (hstep : applyScimGroupPatchPathValue P replace s path value = .ok s') :
    Represents s'.memberUserIds (applyChanges members (path.change P replace value).toList) := by
  cases path with
  | displayName | externalId | schemas =>
    rw [memberUserIds_applyScimGroupPatchPathValue hstep rfl]
    exact h
  | members filter valueOnly =>
    cases filter with
    | none =>
      obtain ⟨users, hread, hrest⟩ := except_bind_eq_ok.mp hstep
      rw [ScimGroupPatchPath.change, hread]
      cases replace with
      | true =>
        cases hrest
        exact ⟨nodup_membersOfPatchValue hread, fun u => Iff.rfl⟩
      | false => exact h.addMemberUserIds hrest
    | some userId =>
      cases replace with
      | true =>
        obtain ⟨new, hread, hnew⟩ := h.replaceFilteredMemberUserId hstep
        rw [ScimGroupPatchPath.change, hread]
        exact hnew
      | false =>
        obtain ⟨user, -, hrest⟩ := except_bind_eq_ok.mp hstep
        split at hrest
        · cases hrest
        · rename_i hsame
          rw [not_not] at hsame
          subst hsame
          exact h.addMemberUserIds hrest

theorem represents_removeScimGroupPatchPath {path : ScimGroupPatchPath}
    (h : Represents s.memberUserIds members)
    (hstep : removeScimGroupPatchPath s path = .ok s') :
    Represents s'.memberUserIds (applyChanges members path.removal.toList) := by
  cases path with
  | externalId =>
    cases hstep
    exact h
  | members filter valueOnly =>
    cases filter with
    | none =>
      cases hstep
      exact ⟨List.nodup_nil, fun u => by simp [applyChanges, ScimGroupPatchPath.removal,
        MemberChange.apply]⟩
    | some userId =>
      cases hstep
      exact h.delete userId
  | displayName | schemas => cases hstep

/-- An operation makes the changes that it asks for, one after the other. -/
theorem represents_applyScimGroupPatchOperation {operation : ScimPatchOperation}
    (h : Represents s.memberUserIds members)
    (hstep : applyScimGroupPatchOperation P s operation = .ok s') :
    Represents s'.memberUserIds (applyChanges members (operation.memberChanges P)) := by
  have hvalues : ∀ op, ScimPatchOp.parse operation.op = .ok op → op ≠ .remove →
      Represents s'.memberUserIds (applyChanges members (operation.pathValues.flatMap fun x =>
        ((scimGroupPatchPath P x.1).toOption.bind (·.change P (op = .replace) x.2)).toList)) := by
    intro op hop hne
    rw [applyChanges_flatMap]
    refine foldlM_refines (fun (s : ScimGroupPatchState) members =>
      Represents s.memberUserIds members) (fun x _ s members s' hrel hx => ?_) h
        (foldlM_pathValues hop hne hstep)
    obtain ⟨parsed, hparsed, hx⟩ := except_bind_eq_ok.mp hx
    rw [hparsed]
    exact represents_applyScimGroupPatchPathValue hrel hx
  obtain ⟨op, hop, hrest⟩ := except_bind_eq_ok.mp hstep
  unfold ScimPatchOperation.memberChanges
  cases op with
  | add =>
    rw [hop]
    exact hvalues .add hop (by decide)
  | replace =>
    rw [hop]
    exact hvalues .replace hop (by decide)
  | remove =>
    obtain ⟨opText, path, value⟩ := operation
    cases path with
    | none => cases hrest
    | some path =>
      obtain ⟨parsed, hparsed, hrest⟩ := except_bind_eq_ok.mp hrest
      simp only [hop, Option.bind_some, hparsed, Except.toOption]
      exact represents_removeScimGroupPatchPath h hrest

theorem memberUserIds_intoInput {input : ScimGroupInput} (h : s.intoInput = .ok input) :
    input.memberUserIds = s.memberUserIds ∧ s.memberUserIds.length ≤ scimGroupMaxMembers := by
  unfold ScimGroupPatchState.intoInput at h
  split at h
  · cases h
  · rename_i hle
    obtain ⟨text, -, h⟩ := except_bind_eq_ok.mp h
    cases text with
    | none => cases h
    | some text =>
      obtain rfl := Except.ok.inj h
      exact ⟨rfl, Nat.not_lt.mp hle⟩

/-- **A PATCH computes the set that it describes.** -/
theorem represents_scimPatchGroupInput {group : Group} {currentMembers : List ScimGroupMember}
    {payload : ScimPatchRequest} {input : ScimGroupInput}
    (hnodup : (currentMembers.map (·.userId)).Nodup)
    (h : scimPatchGroupInput P group currentMembers payload = .ok input) :
    input.memberUserIds.length ≤ scimGroupMaxMembers ∧
      Represents input.memberUserIds
        (applyChanges {u | u ∈ currentMembers.map (·.userId)} (payload.memberChanges P)) := by
  obtain ⟨operations, hops, hfold⟩ := except_bind_eq_ok.mp h
  obtain ⟨s, hs, hinto⟩ := except_bind_eq_ok.mp hfold
  rw [ScimPatchRequest.intoValidatedOperations_eq_ok hops] at hs
  obtain ⟨hmembers, hlength⟩ := memberUserIds_intoInput hinto
  refine ⟨by rwa [hmembers], ?_⟩
  rw [hmembers, ScimPatchRequest.memberChanges, applyChanges_flatMap]
  have hstart : Represents (ScimGroupPatchState.fromGroup group currentMembers).memberUserIds
      {u | u ∈ currentMembers.map (·.userId)} := ⟨hnodup, fun u => Iff.rfl⟩
  refine foldlM_refines (fun (s : ScimGroupPatchState) members =>
    Represents s.memberUserIds members) ?_ hstart hs
  intro operation _ s members s' hrel hstep
  exact represents_applyScimGroupPatchOperation hrel hstep

end CairnId
