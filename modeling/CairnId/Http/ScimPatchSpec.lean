import CairnId.Concurrency.Prog
import CairnId.Http.ScimPatch

/-!
# What a PATCH request is about

The attributes of a user and the members of a group that the paths of a PATCH
request name. Whatever else the folded copy holds is what was read.
-/

namespace CairnId

open Concurrency.Prog

/-- The attributes that SCIM and the status endpoint write. -/
inductive UserAttribute where
  | email
  | externalId
  | displayName
  | status
  deriving DecidableEq

namespace UserAttribute

abbrev Value : UserAttribute → Type
  | .email => String
  | .externalId => Option String
  | .displayName => String
  | .status => UserStatus

def ofState : (a : UserAttribute) → ScimPatchState → a.Value
  | .email, s => s.email
  | .externalId, s => s.externalId
  | .displayName, s => s.displayName
  | .status, s => s.status

def ofUser (a : UserAttribute) (user : User) : a.Value := a.ofState (.fromUser user)

def ofInput : (a : UserAttribute) → ScimUserInput → a.Value
  | .email, i => i.email
  | .externalId, i => i.externalId
  | .displayName, i => i.displayName
  | .status, i => i.status

/-- What `intoInput` makes of a value. -/
def normalize : (a : UserAttribute) → a.Value → a.Value
  | .email, v => v
  | .externalId, v => v
  | .displayName, v => trim v
  | .status, v => v

@[simp] theorem normalize_normalize (a : UserAttribute) (v : a.Value) :
    a.normalize (a.normalize v) = a.normalize v := by
  cases a <;> simp [normalize]

end UserAttribute

/-- The attribute that a path writes. -/
def ScimPatchPath.target : ScimPatchPath → Option UserAttribute
  | .userName | .emails _ .resource | .emails _ .value => some .email
  | .externalId => some .externalId
  | .displayName | .name | .nameFormatted | .nameGivenName | .nameFamilyName => some .displayName
  | .active => some .status
  | .emails _ .type | .emails _ .primary | .schemas => none

/-- The paths that an operation names: its own, or those of its value's members. -/
def ScimPatchOperation.paths (operation : ScimPatchOperation) : List String :=
  match operation.path, operation.value with
  | some path, _ => [path]
  | none, some (.object members) => members.map (·.1)
  | none, _ => []

namespace ScimPatchRequest

/-- The request has an operation on the attribute. -/
def Targets (request : ScimPatchRequest) (a : UserAttribute) : Prop :=
  ∃ operation ∈ request.operations, ∃ path ∈ operation.paths,
    ∃ parsed, scimPatchPath path = .ok parsed ∧ parsed.target = some a

instance (request : ScimPatchRequest) (a : UserAttribute) : Decidable (request.Targets a) :=
  decidable_of_iff (request.operations.any fun operation => operation.paths.any fun path =>
      (scimPatchPath path).toOption.bind ScimPatchPath.target = some a) (by
    simp only [Targets, List.any_eq_true, decide_eq_true_eq, Option.bind_eq_some_iff]
    refine exists_congr fun operation => and_congr_right fun _ => exists_congr fun path =>
      and_congr_right fun _ => exists_congr fun parsed => and_congr_left fun _ => ?_
    cases scimPatchPath path <;> simp [Except.toOption])

theorem intoValidatedOperations_eq_ok {request : ScimPatchRequest}
    {operations : List ScimPatchOperation} (h : request.intoValidatedOperations = .ok operations) :
    operations = request.operations := by
  unfold intoValidatedOperations at h
  split at h
  · cases h
  split at h
  · cases h
  split at h
  · cases h
  · cases h
    rfl

end ScimPatchRequest

theorem scimNormalizeEmail_eq_ok_iff {email normalized : String} :
    scimNormalizeEmail email = .ok normalized ↔ normalizeEmail email = .ok normalized := by
  unfold scimNormalizeEmail
  cases normalizeEmail email <;> simp [Except.mapError]

theorem optionalScimString_eq_some {field value text : String} {maxLen : Nat}
    (h : optionalScimString field (some value) maxLen = .ok (some text)) : text = trim value := by
  simp only [optionalScimString] at h
  split at h
  · cases h
  split at h
  · cases h
  · cases h
    rfl

section users

variable {s s' : ScimPatchState} {a : UserAttribute}

/-- A member of the value of an operation is applied like an operation. -/
theorem forEachMember_rel {σ : Type} {step : σ → String → Json → ScimResult σ}
    (Rel : σ → σ → Prop) (hrefl : ∀ s, Rel s s) (htrans : ∀ a b c, Rel a b → Rel b c → Rel a c)
    {value : Json} (hstep : ∀ members, value = .object members → ∀ m ∈ members, ∀ s s',
      step s m.1 m.2 = .ok s' → Rel s s') {s s' : σ}
    (h : forEachMember step s value = .ok s') : Rel s s' := by
  unfold forEachMember at h
  split at h
  · rename_i members
    split at h
    · cases h
    · exact foldlM_rel Rel hrefl htrans (fun m hm => hstep members rfl m hm) h
  · cases h

theorem ofState_setUserName (email : String) (ha : a ≠ .email) :
    a.ofState (s.setUserName email) = a.ofState s := by
  unfold ScimPatchState.setUserName
  split
  · cases a <;> first | rfl | exact absurd rfl ha
  · rfl

theorem ofState_setDisplayName (displayName : String) (ha : a ≠ .displayName) :
    a.ofState (s.setDisplayName displayName) = a.ofState s := by
  cases a <;> first | rfl | exact absurd rfl ha

theorem ofState_rebuildDisplayName (ha : a ≠ .displayName)
    (h : s.rebuildDisplayNameFromPatchParts = .ok s') : a.ofState s' = a.ofState s := by
  obtain ⟨text, -, h⟩ := except_bind_eq_ok.mp h
  cases text with
  | none => cases h
  | some text =>
    cases h
    cases a <;> first | rfl | exact absurd rfl ha

/-- A path leaves every other attribute alone. -/
theorem ofState_applyScimPatchPathValue {path : ScimPatchPath} {value : Json}
    (h : applyScimPatchPathValue s path value = .ok s') (ha : path.target ≠ some a) :
    a.ofState s' = a.ofState s := by
  have hne : ∀ b, path.target = some b → a ≠ b := fun b hb hab => ha (hab ▸ hb)
  cases path with
  | userName =>
    obtain ⟨_, -, h⟩ := except_bind_eq_ok.mp h
    obtain ⟨email, -, h⟩ := except_bind_eq_ok.mp h
    cases h
    exact ofState_setUserName email (hne _ rfl)
  | externalId =>
    obtain ⟨_, -, h⟩ := except_bind_eq_ok.mp h
    cases h
    cases a <;> first | rfl | exact absurd rfl (hne _ rfl)
  | displayName | nameFormatted =>
    obtain ⟨text, -, h⟩ := except_bind_eq_ok.mp h
    cases h
    exact ofState_setDisplayName text (hne _ rfl)
  | active =>
    obtain ⟨_, -, h⟩ := except_bind_eq_ok.mp h
    cases h
    cases a <;> first | rfl | exact absurd rfl (hne _ rfl)
  | name =>
    simp only [applyScimPatchPathValue] at h
    split at h
    · obtain ⟨text, -, h⟩ := except_bind_eq_ok.mp h
      cases h
      exact ofState_setDisplayName text (hne _ rfl)
    · cases h
  | nameGivenName | nameFamilyName =>
    obtain ⟨_, -, h⟩ := except_bind_eq_ok.mp h
    rw [ofState_rebuildDisplayName (hne _ rfl) h]
    cases a <;> rfl
  | emails filter attr =>
    obtain ⟨_, -, h⟩ := except_bind_eq_ok.mp h
    cases attr with
    | resource =>
      obtain ⟨email, -, h⟩ := except_bind_eq_ok.mp h
      cases h
      exact ofState_setUserName email (hne _ rfl)
    | value =>
      obtain ⟨_, -, h⟩ := except_bind_eq_ok.mp h
      obtain ⟨email, -, h⟩ := except_bind_eq_ok.mp h
      cases h
      exact ofState_setUserName email (hne _ rfl)
    | type | primary =>
      obtain ⟨_, -, h⟩ := except_bind_eq_ok.mp h
      cases h
      rfl
  | schemas =>
    obtain ⟨_, -, h⟩ := except_bind_eq_ok.mp h
    cases h
    rfl

theorem ofState_removeScimPatchPath {path : ScimPatchPath}
    (h : removeScimPatchPath s path = .ok s') (ha : path.target ≠ some a) :
    a.ofState s' = a.ofState s := by
  cases path with
  | externalId =>
    cases h
    cases a <;> first | rfl | exact absurd rfl ha
  | emails filter attr =>
    obtain ⟨_, -, h⟩ := except_bind_eq_ok.mp h
    cases h
  | userName | displayName | active | name | nameFormatted | nameGivenName | nameFamilyName
  | schemas => cases h

theorem ofState_applyScimPatchOperation {operation : ScimPatchOperation}
    (h : applyScimPatchOperation s operation = .ok s')
    (ha : ∀ path ∈ operation.paths, ∀ parsed, scimPatchPath path = .ok parsed →
      parsed.target ≠ some a) : a.ofState s' = a.ofState s := by
  obtain ⟨opText, path, value⟩ := operation
  obtain ⟨op, -, h⟩ := except_bind_eq_ok.mp h
  cases op with
  | add | replace =>
    cases value with
    | none => cases h
    | some value =>
      cases path with
      | some path =>
        obtain ⟨parsed, hparsed, h⟩ := except_bind_eq_ok.mp h
        exact ofState_applyScimPatchPathValue h
          (ha path (by simp [ScimPatchOperation.paths]) _ hparsed)
      | none =>
        refine forEachMember_rel (fun s s' => a.ofState s' = a.ofState s) (fun _ => rfl)
          (fun _ _ _ h h' => h'.trans h) ?_ h
        rintro members rfl m hm s s' h
        obtain ⟨parsed, hparsed, h⟩ := except_bind_eq_ok.mp h
        exact ofState_applyScimPatchPathValue h
          (ha m.1 (List.mem_map_of_mem hm) _ hparsed)
  | remove =>
    cases path with
    | none => cases h
    | some path =>
      obtain ⟨parsed, hparsed, h⟩ := except_bind_eq_ok.mp h
      exact ofState_removeScimPatchPath h (ha path (by simp [ScimPatchOperation.paths]) _ hparsed)

theorem ofInput_intoInput {input : ScimUserInput} (h : s.intoInput = .ok input)
    (a : UserAttribute) : a.ofInput input = a.normalize (a.ofState s) := by
  obtain ⟨text, htext, h⟩ := except_bind_eq_ok.mp h
  cases text with
  | none => cases h
  | some text =>
    cases h
    cases a with
    | displayName => exact optionalScimString_eq_some htext
    | email | externalId | status => rfl

/-- The input that a PATCH request makes of a user: attributes that it has no
    operation on are those of the user. -/
theorem scimPatchUserInput_eq_ok {user : User} {payload : ScimPatchRequest}
    {input : ScimUserInput} (h : scimPatchUserInput user payload = .ok input) (a : UserAttribute) :
    a.normalize (a.ofInput input) = a.ofInput input ∧
      (¬ payload.Targets a → a.ofInput input = a.normalize (a.ofUser user)) := by
  obtain ⟨operations, hops, h⟩ := except_bind_eq_ok.mp h
  obtain ⟨s, hs, h⟩ := except_bind_eq_ok.mp h
  rw [ofInput_intoInput h a]
  refine ⟨a.normalize_normalize _, fun hnot => ?_⟩
  rw [ScimPatchRequest.intoValidatedOperations_eq_ok hops] at hs
  refine congrArg a.normalize (foldlM_rel (fun s s' => a.ofState s' = a.ofState s) (fun _ => rfl)
    (fun _ _ _ h h' => h'.trans h) (fun operation hoperation s s' h => ?_) hs)
  exact ofState_applyScimPatchOperation h fun path hpath parsed hparsed htarget =>
    hnot ⟨operation, hoperation, path, hpath, parsed, hparsed, htarget⟩

end users

section groups

variable (P : Primitives)

namespace ScimGroupPatchPath

def isMembers : ScimGroupPatchPath → Bool
  | .members _ _ => true
  | _ => false

/-- The users that a path with a value names. -/
def named (value : Json) : ScimGroupPatchPath → List UserId
  | .members none valueOnly => (membersOfPatchValue P valueOnly value).toOption.getD []
  | .members (some userId) _ => [userId]
  | _ => []

end ScimGroupPatchPath

namespace ScimPatchOperation

/-- The paths of an operation with their values. -/
def pathValues (operation : ScimPatchOperation) : List (String × Json) :=
  match operation.path, operation.value with
  | some path, some value => [(path, value)]
  | none, some (.object members) => members
  | _, _ => []

/-- The users that the operation adds to a group. -/
def added (operation : ScimPatchOperation) : List UserId :=
  match ScimPatchOp.parse operation.op with
  | .ok .add => operation.pathValues.flatMap fun x =>
    ((scimGroupPatchPath P x.1).toOption.map (·.named P x.2)).getD []
  | _ => []

/-- The users that the operation removes from a group by a filter. -/
def removed (operation : ScimPatchOperation) : List UserId :=
  match ScimPatchOp.parse operation.op, operation.path.map (scimGroupPatchPath P) with
  | .ok .remove, some (.ok (.members (some userId) _)) => [userId]
  | _, _ => []

/-- The operation adds members, removes a filtered member, or leaves the members
    alone. -/
def Incremental (operation : ScimPatchOperation) : Prop :=
  match ScimPatchOp.parse operation.op with
  | .ok .replace => ∀ x ∈ operation.pathValues,
    (scimGroupPatchPath P x.1).toOption.all fun path => !path.isMembers
  | .ok .remove => operation.path.all fun path =>
    (scimGroupPatchPath P path).toOption.all fun
      | .members none _ => false
      | _ => true
  | _ => True

end ScimPatchOperation

namespace ScimPatchRequest

def added (request : ScimPatchRequest) : List UserId := request.operations.flatMap (·.added P)

def removed (request : ScimPatchRequest) : List UserId := request.operations.flatMap (·.removed P)

/-- Every operation does. -/
def Incremental (request : ScimPatchRequest) : Prop :=
  ∀ operation ∈ request.operations, operation.Incremental P

end ScimPatchRequest

variable {P} {s s' : ScimGroupPatchState} {u : UserId}

theorem mem_pushMissing (members userIds : List UserId) :
    u ∈ ScimGroupPatchState.pushMissing members userIds ↔ u ∈ members ∨ u ∈ userIds := by
  induction userIds generalizing members with
  | nil => simp [ScimGroupPatchState.pushMissing]
  | cons id userIds ih =>
    rw [ScimGroupPatchState.pushMissing, ih]
    split
    · rename_i hmem
      have := List.contains_iff_mem.mp hmem
      grind
    · grind

theorem mem_addMemberUserIds {userIds : List UserId} (h : s.addMemberUserIds userIds = .ok s') :
    u ∈ s'.memberUserIds ↔ u ∈ s.memberUserIds ∨ u ∈ userIds := by
  simp only [ScimGroupPatchState.addMemberUserIds] at h
  split at h
  · cases h
  · cases h
    exact mem_pushMissing _ _

/-- `add` with a path and a value adds the users that they name. -/
theorem mem_applyScimGroupPatchPathValue_add {path : ScimGroupPatchPath} {value : Json}
    (h : applyScimGroupPatchPathValue P false s path value = .ok s') :
    u ∈ s'.memberUserIds ↔ u ∈ s.memberUserIds ∨ u ∈ path.named P value := by
  cases path with
  | displayName | externalId | schemas =>
    obtain ⟨_, -, h⟩ := except_bind_eq_ok.mp h
    cases h
    simp [ScimGroupPatchPath.named]
  | members filter valueOnly =>
    cases filter with
    | none =>
      obtain ⟨userIds, hread, h⟩ := except_bind_eq_ok.mp h
      rw [mem_addMemberUserIds h, ScimGroupPatchPath.named, hread]
      rfl
    | some filtered =>
      obtain ⟨userId, -, hrest⟩ := except_bind_eq_ok.mp h
      split at hrest
      · cases hrest
      · rename_i hsame
        simp only [ne_eq, not_not] at hsame
        subst hsame
        exact mem_addMemberUserIds hrest

theorem memberUserIds_applyScimGroupPatchPathValue {path : ScimGroupPatchPath} {value : Json}
    {replace : Bool} (h : applyScimGroupPatchPathValue P replace s path value = .ok s')
    (hpath : path.isMembers = false) : s'.memberUserIds = s.memberUserIds := by
  cases path with
  | displayName | externalId | schemas =>
    obtain ⟨_, -, h⟩ := except_bind_eq_ok.mp h
    cases h
    rfl
  | members => cases hpath

/-- A fold whose steps add users adds them all. -/
theorem mem_foldlM_added {α : Type} {step : ScimGroupPatchState → α → ScimResult ScimGroupPatchState}
    {adds : α → List UserId} {l : List α}
    (hstep : ∀ x ∈ l, ∀ s s', step s x = .ok s' →
      (u ∈ s'.memberUserIds ↔ u ∈ s.memberUserIds ∨ u ∈ adds x))
    (h : l.foldlM step s = .ok s') :
    u ∈ s'.memberUserIds ↔ u ∈ s.memberUserIds ∨ u ∈ l.flatMap adds := by
  induction l generalizing s with
  | nil =>
    cases h
    simp
  | cons x l ih =>
    rw [List.foldlM_cons, except_bind_eq_ok] at h
    obtain ⟨s₁, hx, hrest⟩ := h
    rw [ih (fun y hy => hstep y (by simp [hy])) hrest, hstep x (by simp) s s₁ hx,
      List.flatMap_cons, List.mem_append, or_assoc]

/-- `add` and `replace` go through the paths of the operation. -/
theorem foldlM_pathValues {operation : ScimPatchOperation} {op : ScimPatchOp}
    (hop : ScimPatchOp.parse operation.op = .ok op) (hne : op ≠ .remove)
    (h : applyScimGroupPatchOperation P s operation = .ok s') :
    operation.pathValues.foldlM (fun s x => do
      applyScimGroupPatchPathValue P (op = ScimPatchOp.replace) s (← scimGroupPatchPath P x.1) x.2) s =
        .ok s' := by
  obtain ⟨opText, path, value⟩ := operation
  obtain ⟨op', hop', hrest⟩ := except_bind_eq_ok.mp h
  rw [hop] at hop'
  cases hop'
  cases op with
  | add | replace =>
    cases value with
    | none => cases hrest
    | some value =>
      cases path with
      | some path => simpa [ScimPatchOperation.pathValues] using hrest
      | none =>
        dsimp only at hrest
        unfold forEachMember at hrest
        split at hrest
        · split at hrest
          · cases hrest
          · exact hrest
        · cases hrest
  | remove => exact absurd rfl hne

/-- What an operation does to the members. -/
theorem mem_applyScimGroupPatchOperation {operation : ScimPatchOperation}
    (h : applyScimGroupPatchOperation P s operation = .ok s') (hinc : operation.Incremental P) :
    u ∈ s'.memberUserIds ↔
      (u ∈ s.memberUserIds ∨ u ∈ operation.added P) ∧ u ∉ operation.removed P := by
  obtain ⟨op, hop, hrest⟩ := except_bind_eq_ok.mp h
  simp only [ScimPatchOperation.Incremental, hop] at hinc
  simp only [ScimPatchOperation.added, ScimPatchOperation.removed, hop]
  cases op with
  | add =>
    have hadded : u ∈ s'.memberUserIds ↔ u ∈ s.memberUserIds ∨ u ∈ operation.pathValues.flatMap
        fun x => ((scimGroupPatchPath P x.1).toOption.map (·.named P x.2)).getD [] := by
      refine mem_foldlM_added (fun x _ s s' hx => ?_) (foldlM_pathValues hop nofun h)
      obtain ⟨parsed, hparsed, hx⟩ := except_bind_eq_ok.mp hx
      rw [mem_applyScimGroupPatchPathValue_add hx, hparsed]
      rfl
    simpa using hadded
  | replace =>
    have hkept : s'.memberUserIds = s.memberUserIds := by
      refine foldlM_rel (fun s s' : ScimGroupPatchState => s'.memberUserIds = s.memberUserIds)
        (fun _ => rfl) (fun _ _ _ h h' => h'.trans h) (fun x hx s s' hstep => ?_)
        (foldlM_pathValues hop nofun h)
      obtain ⟨parsed, hparsed, hstep⟩ := except_bind_eq_ok.mp hstep
      have hnot := hinc x hx
      rw [hparsed] at hnot
      exact memberUserIds_applyScimGroupPatchPathValue hstep (by simpa [Except.toOption] using hnot)
    simp [hkept]
  | remove =>
    obtain ⟨opText, path, value⟩ := operation
    cases path with
    | none => cases hrest
    | some path =>
      obtain ⟨parsed, hparsed, hrest⟩ := except_bind_eq_ok.mp hrest
      simp only [Option.map_some, hparsed]
      simp only [Option.all_some, hparsed, Except.toOption] at hinc
      cases parsed with
      | members filter valueOnly =>
        cases filter with
        | none => cases hinc
        | some userId =>
          cases hrest
          simp [ScimGroupPatchState.removeMemberUserId]
      | externalId =>
        cases hrest
        simp
      | displayName | schemas => cases hrest

/-- A request that does not remove a user. -/
theorem mem_foldlM_of_not_removed {operations : List ScimPatchOperation}
    (hinc : ∀ operation ∈ operations, operation.Incremental P)
    (hnot : u ∉ operations.flatMap (·.removed P))
    (h : operations.foldlM (applyScimGroupPatchOperation P) s = .ok s') :
    u ∈ s'.memberUserIds ↔ u ∈ s.memberUserIds ∨ u ∈ operations.flatMap (·.added P) := by
  refine mem_foldlM_added (fun operation hmem s s' hstep => ?_) h
  have hkept : u ∉ operation.removed P := fun hu => hnot (List.mem_flatMap.mpr ⟨_, hmem, hu⟩)
  rw [mem_applyScimGroupPatchOperation hstep (hinc operation hmem), and_iff_left hkept]

/-- A request that does not add a user. -/
theorem mem_foldlM_of_not_added {operations : List ScimPatchOperation}
    (hinc : ∀ operation ∈ operations, operation.Incremental P)
    (hnot : u ∉ operations.flatMap (·.added P))
    (h : operations.foldlM (applyScimGroupPatchOperation P) s = .ok s') :
    u ∈ s'.memberUserIds ↔ u ∈ s.memberUserIds ∧ u ∉ operations.flatMap (·.removed P) := by
  induction operations generalizing s with
  | nil =>
    cases h
    simp
  | cons operation operations ih =>
    rw [List.foldlM_cons, except_bind_eq_ok] at h
    obtain ⟨s₁, hone, hrest⟩ := h
    simp only [List.flatMap_cons, List.mem_append, not_or] at hnot ⊢
    rw [ih (fun op hop => hinc op (by simp [hop])) hnot.2 hrest,
      mem_applyScimGroupPatchOperation hone (hinc operation (by simp))]
    simp [hnot.1, and_assoc]

/-- The members that a PATCH request makes of a group. -/
theorem scimPatchGroupInput_eq_ok {group : Group} {members : List ScimGroupMember}
    {payload : ScimPatchRequest} {input : ScimGroupInput} (hinc : payload.Incremental P)
    (h : scimPatchGroupInput P group members payload = .ok input) (u : UserId) :
    (u ∉ payload.removed P → (u ∈ input.memberUserIds ↔
      u ∈ members.map (·.userId) ∨ u ∈ payload.added P)) ∧
    (u ∉ payload.added P → (u ∈ input.memberUserIds ↔
      u ∈ members.map (·.userId) ∧ u ∉ payload.removed P)) := by
  obtain ⟨operations, hops, h⟩ := except_bind_eq_ok.mp h
  obtain ⟨s, hs, h⟩ := except_bind_eq_ok.mp h
  rw [ScimPatchRequest.intoValidatedOperations_eq_ok hops] at hs
  have hmembers : input.memberUserIds = s.memberUserIds := by
    unfold ScimGroupPatchState.intoInput at h
    split at h
    · cases h
    · obtain ⟨text, -, h⟩ := except_bind_eq_ok.mp h
      cases text with
      | none => cases h
      | some text =>
        cases h
        rfl
  rw [hmembers]
  exact ⟨fun hnot => mem_foldlM_of_not_removed hinc hnot hs,
    fun hnot => mem_foldlM_of_not_added hinc hnot hs⟩

end groups

end CairnId
