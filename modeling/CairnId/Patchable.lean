import CairnId.Http.ScimUserSpec
import CairnId.Provisioning

/-!
# Users that a PATCH request can deactivate

Which bodies of a user leave a display name that every later PATCH request accepts.

## Main results

* `stays_patchable_iff` — when an accepted user can be deactivated
-/

namespace CairnId

open Concurrency.Prog

-- requests that deactivate

/-- The operation sets `active` to false, by its path or by the members of its value. -/
def ScimPatchOperation.SetsInactive (operation : ScimPatchOperation) : Prop :=
  (ScimPatchOp.parse operation.op = .ok .add ∨ ScimPatchOp.parse operation.op = .ok .replace) ∧
    ∃ value, operation.value = some value ∧ match operation.path with
      | some path => scimPatchPath path = .ok .active ∧ scimBoolValue "active" value = .ok false
      | none => ∃ members, value = .object members ∧ members ≠ [] ∧ ∀ m ∈ members,
        scimPatchPath m.1 = .ok .active ∧ scimBoolValue "active" m.2 = .ok false

/-- A PATCH request that only sets `active` to false. -/
structure ScimPatchRequest.OnlyDeactivates (request : ScimPatchRequest) : Prop where
  schema : scimPatchOpSchema ∈ request.schemas
  nonempty : request.operations ≠ []
  few : request.operations.length ≤ scimPatchMaxOperations
  inactive : ∀ operation ∈ request.operations, operation.SetsInactive

def ScimPatchState.suspend (s : ScimPatchState) : ScimPatchState := { s with status := .suspended }

@[simp] theorem ScimPatchState.suspend_suspend (s : ScimPatchState) :
    s.suspend.suspend = s.suspend := rfl

theorem applyScimPatchPathValue_active {s : ScimPatchState} {value : Json}
    (h : scimBoolValue "active" value = .ok false) :
    applyScimPatchPathValue s .active value = .ok s.suspend := by
  show (do let b ← scimBoolValue "active" value; pure _) = _
  rw [h]
  rfl

/-- A fold whose every step suspends. -/
theorem foldlM_suspend {α : Type} {step : ScimPatchState → α → ScimResult ScimPatchState}
    {l : List α} (hne : l ≠ []) (hstep : ∀ x ∈ l, ∀ s, step s x = .ok s.suspend)
    (s : ScimPatchState) : l.foldlM step s = .ok s.suspend := by
  induction l generalizing s with
  | nil => exact absurd rfl hne
  | cons x l ih =>
    rw [List.foldlM_cons, hstep x (.head _)]
    show l.foldlM step s.suspend = _
    by_cases hrest : l = []
    · rw [hrest]
      rfl
    · exact ih hrest (fun y hy => hstep y (.tail _ hy)) s.suspend

theorem applyScimPatchOperation_inactive {operation : ScimPatchOperation}
    (h : operation.SetsInactive) (s : ScimPatchState) :
    applyScimPatchOperation s operation = .ok s.suspend := by
  obtain ⟨op, path, value⟩ := operation
  obtain ⟨hop, v, rfl, hvalue⟩ := h
  cases path with
  | some path =>
    obtain ⟨hpath, hfalse⟩ := hvalue
    rw [applyScimPatchOperation_path hop, hpath]
    exact applyScimPatchPathValue_active hfalse
  | none =>
    obtain ⟨members, rfl, hne, hmembers⟩ := hvalue
    rw [applyScimPatchOperation_resource hop, forEachMember_object hne]
    refine foldlM_suspend hne (fun m hm s => ?_) s
    obtain ⟨hpath, hfalse⟩ := hmembers m hm
    rw [hpath]
    exact applyScimPatchPathValue_active hfalse

/-- The request is decided by the display name that is stored. -/
theorem scimPatchUserInput_inactive {request : ScimPatchRequest} (h : request.OnlyDeactivates)
    (user : User) :
    scimPatchUserInput user request = (ScimPatchState.fromUser user).suspend.intoInput := by
  unfold scimPatchUserInput
  rw [intoValidatedOperations_eq h.schema h.nonempty h.few]
  show (do (← request.operations.foldlM applyScimPatchOperation _).intoInput) = _
  rw [foldlM_suspend h.nonempty fun operation hmem s =>
    applyScimPatchOperation_inactive (h.inactive operation hmem) s]
  exact except_ok_bind ..

-- display names that fit

/-- Both parts of the name are as long as they may be. -/
def ScimNameRequest.BothFull (name : ScimNameRequest) : Prop :=
  given name.formatted = none ∧ ∃ givenName familyName, given name.givenName = some givenName ∧
    given name.familyName = some familyName ∧ givenName.length = 80 ∧ familyName.length = 80

/-- No name is given. -/
def ScimUserRequest.Nameless (payload : ScimUserRequest) : Prop :=
  ∀ name, payload.name = some name → given name.formatted = none ∧ name.parts = []

/-- The display name comes from two full names, or from a user name that is longer than
    a display name may be. -/
def ScimUserRequest.DisplayNameTooLong (payload : ScimUserRequest) : Prop :=
  given payload.displayName = none ∧
    ((∃ name, payload.name = some name ∧ name.BothFull) ∨
      (payload.Nameless ∧ 160 < (trim payload.userName).length))

theorem reads_of_formatted {name : ScimNameRequest} {userName formatted : String}
    (h : given name.formatted = some formatted) : name.reads userName = formatted := by
  unfold ScimNameRequest.reads
  rw [h]

theorem reads_of_parts {name : ScimNameRequest} {userName : String}
    (h : given name.formatted = none) : name.reads userName =
      if name.parts = [] then userName else " ".intercalate name.parts := by
  unfold ScimNameRequest.reads
  rw [h]

theorem length_reads_le_iff {name : ScimNameRequest} {userName : String} (hfits : name.Fits) :
    (name.reads userName).length ≤ 160 ↔
      ¬name.BothFull ∧ (given name.formatted = none → name.parts = [] → userName.length ≤ 160) := by
  cases hformatted : given name.formatted with
  | some formatted =>
    rw [reads_of_formatted hformatted]
    refine iff_of_true (hfits.1 formatted hformatted) ⟨fun hfull => ?_, fun hnone => ?_⟩
    · rw [hfull.1] at hformatted
      cases hformatted
    · cases hnone
  | none =>
    have hparts := hfits.2 hformatted
    rw [reads_of_parts hformatted]
    by_cases hempty : name.parts = []
    · rw [if_pos hempty]
      have hnotFull : ¬name.BothFull := by
        rintro ⟨-, givenName, familyName, hgiven, -⟩
        have hmem : givenName ∈ name.parts := mem_parts.mpr (.inl hgiven)
        rw [hempty] at hmem
        cases hmem
      simp [hnotFull, hempty]
    · rw [if_neg hempty]
      simp only [hempty, false_implies, implies_true, and_true]
      rcases intercalate_parts hempty with ⟨part, hone, hjoin⟩ |
        ⟨givenName, familyName, hgiven, hfamily, hjoin⟩
      · have hshort : part.length ≤ 80 := hparts part (hone ▸ List.mem_singleton.mpr rfl)
        rw [hjoin]
        refine iff_of_true (by omega) ?_
        rintro ⟨-, g, f, hg, hf, -⟩
        unfold ScimNameRequest.parts at hone
        rw [hg, hf] at hone
        cases hone
      · have hlong : givenName.length ≤ 80 := hparts _ (mem_parts.mpr (.inl hgiven))
        have hlong' : familyName.length ≤ 80 := hparts _ (mem_parts.mpr (.inr hfamily))
        have hspace : " ".length = 1 := rfl
        rw [hjoin, String.length_append, String.length_append, hspace]
        constructor
        · rintro hshort ⟨-, g, f, hg, hf, hgfull, hffull⟩
          obtain rfl := Option.some.inj (hgiven.symm.trans hg)
          obtain rfl := Option.some.inj (hfamily.symm.trans hf)
          omega
        · intro hnotFull
          by_contra hover
          exact hnotFull ⟨hformatted, givenName, familyName, hgiven, hfamily, by omega, by omega⟩

theorem length_readsDisplayName_le_iff {payload : ScimUserRequest} {input : ScimUserInput}
    (h : ReadsUser payload input) :
    input.displayName.length ≤ 160 ↔ ¬payload.DisplayNameTooLong := by
  have hemail : input.email.length = (trim payload.userName).length :=
    (trim_of_normalized h.email).2.2
  rw [h.displayName]
  unfold readsDisplayName ScimUserRequest.DisplayNameTooLong ScimUserRequest.Nameless
  cases hgiven : given payload.displayName with
  | some d =>
    refine iff_of_true (h.nameFits.1 d hgiven) ?_
    rintro ⟨⟨⟩, -⟩
  | none =>
    cases hname : payload.name with
    | none =>
      dsimp only
      rw [hemail]
      simp
    | some name =>
      have hfits : name.Fits := h.nameFits.2 hgiven name hname
      dsimp only
      rw [length_reads_le_iff hfits, hemail]
      simp only [Option.some.injEq, exists_eq_left', forall_eq', true_and, not_or, not_and, not_lt,
        and_imp]

-- the promise

/-- The display name is one that a PATCH request takes, and a user with what was
    accepted is deactivated by a request that does only that. -/
structure StaysPatchable (input : ScimUserInput) : Prop where
  nonempty : input.displayName ≠ ""
  trimmed : trim input.displayName = input.displayName
  short : input.displayName.length ≤ 160
  deactivates : ∀ user : User, user.email = input.email →
    user.scimExternalId = input.externalId → user.displayName = input.displayName →
    user.status = input.status → ∀ request : ScimPatchRequest, request.OnlyDeactivates →
      scimPatchUserInput user request = .ok
        ⟨user.email, user.scimExternalId, user.emailVerified, user.displayName, .suspended⟩

/-- An accepted user can be deactivated, unless the display name was put together without
    the limit on it. -/
theorem stays_patchable_iff {payload : ScimUserRequest} {input : ScimUserInput}
    (h : scimUserInput payload = .ok input) :
    StaysPatchable input ↔ ¬payload.DisplayNameTooLong := by
  have hreads := scimUserInput_eq_ok h
  rw [← length_readsDisplayName_le_iff hreads]
  obtain ⟨htrimEmail, hneEmail, -⟩ := trim_of_normalized hreads.email
  have hshown : trim input.displayName = input.displayName ∧ input.displayName ≠ "" := by
    rw [hreads.displayName]
    exact trim_readsDisplayName htrimEmail hneEmail
  refine ⟨fun hstays => hstays.short, fun hshort => ⟨hshown.2, hshown.1, hshort, ?_⟩⟩
  intro user _ _ hdisplayName _ request hrequest
  rw [scimPatchUserInput_inactive hrequest]
  refine intoInput_eq_ok_iff.mpr ⟨user.displayName, ?_, hdisplayName ▸ hshort, rfl⟩
  show given (some user.displayName) = some user.displayName
  rw [hdisplayName]
  exact given_of_trimmed hshown.1 hshown.2

theorem optionalScimString_too_long {field value : String} {maxLen : Nat}
    (htrim : trim value = value) (hlong : maxLen < value.length) :
    optionalScimString field (some value) maxLen =
      .error (.invalidValue (field ++ " exceeds maximum length")) := by
  have hne : ¬value.isEmpty = true := by
    intro hempty
    rw [String.isEmpty_iff.mp hempty] at hlong
    cases hlong
  unfold optionalScimString
  dsimp only
  rw [htrim, if_neg hne, if_pos hlong]

theorem intoInput_error {s : ScimPatchState} {e : ScimError}
    (h : optionalScimString "displayName" (some s.displayName) 160 = .error e) :
    s.intoInput = .error e := by
  unfold ScimPatchState.intoInput
  rw [h]
  rfl

/-- A display name that is too long refuses every request that only deactivates. -/
theorem scimPatchUserInput_inactive_too_long {user : User} {request : ScimPatchRequest}
    (htrim : trim user.displayName = user.displayName) (hlong : 160 < user.displayName.length)
    (hrequest : request.OnlyDeactivates) : scimPatchUserInput user request =
      .error (.invalidValue ("displayName" ++ " exceeds maximum length")) := by
  rw [scimPatchUserInput_inactive hrequest]
  exact intoInput_error (optionalScimString_too_long htrim hlong)

namespace Sample

def adaRequest : ScimUserRequest :=
  ⟨[scimUserSchema], "Ada@example.org", none, none, some " Ada ", none, []⟩

def adaInput : ScimUserInput := ⟨"ada@example.org", none, false, "Ada", .active⟩

def fullName : ScimNameRequest :=
  ⟨none, some (String.ofList (List.replicate 80 'a')), some (String.ofList (List.replicate 80 'b'))⟩

def fullNameRequest : ScimUserRequest :=
  ⟨[scimUserSchema], "ada@example.org", none, some fullName, none, none, []⟩

def fullNameInput : ScimUserInput :=
  ⟨"ada@example.org", none, false, String.ofList (List.replicate 80 'a' ++ ' ' ::
    List.replicate 80 'b'), .active⟩

def deactivate : ScimPatchRequest :=
  ⟨[scimPatchOpSchema], [⟨"replace", some "active", some (.bool false)⟩]⟩

end Sample

open Sample in
theorem stays_patchable_ada : scimUserInput adaRequest = .ok adaInput ∧ StaysPatchable adaInput := by
  have hinput : scimUserInput adaRequest = .ok adaInput := by decide
  refine ⟨hinput, (stays_patchable_iff hinput).mpr fun hlong => ?_⟩
  exact absurd hlong.1 (by decide)

open Sample in
/-- Two names of eighty characters are accepted, and the user that they are stored for
    cannot be deactivated. -/
theorem fullName_not_patchable :
    scimUserInput fullNameRequest = .ok fullNameInput ∧
    ¬StaysPatchable fullNameInput ∧
    deactivate.OnlyDeactivates ∧
    scimPatchUserInput { user with displayName := fullNameInput.displayName } deactivate =
      .error (.invalidValue ("displayName" ++ " exceeds maximum length")) := by
  have hlength : fullNameInput.displayName.length = 161 := String.length_ofList
  have hchars : fullNameInput.displayName.toList =
      List.replicate 80 'a' ++ ' ' :: List.replicate 80 'b' := String.toList_ofList
  have htrim : trim fullNameInput.displayName = fullNameInput.displayName := by
    have hhead : (List.replicate 80 'a' ++ ' ' :: List.replicate 80 'b').head? = some 'a' := rfl
    have hlast : (List.replicate 80 'a' ++ ' ' :: List.replicate 80 'b').getLast? = some 'b' := rfl
    apply trim_eq_self
    · rw [hchars, hhead]
      rintro _ ⟨⟩
      decide
    · rw [hchars, hlast]
      rintro _ ⟨⟩
      decide
  have hrequest : deactivate.OnlyDeactivates := by
    refine ⟨by decide, List.cons_ne_nil _ _, by decide, fun operation hoperation => ?_⟩
    obtain rfl := List.mem_singleton.mp hoperation
    exact ⟨.inr (by decide), _, rfl, by decide, by decide⟩
  refine ⟨by decide +kernel, fun hstays => ?_, hrequest,
    scimPatchUserInput_inactive_too_long htrim (by rw [hlength]; decide) hrequest⟩
  have hshort := hstays.short
  rw [hlength] at hshort
  exact absurd hshort (by decide)

end CairnId
