import CairnId.Http.ScimOperations

/-!
# How the body of a user is read

The display name, the address and the other attributes that `scim_user_input` makes of
a request, and those that a PATCH request makes of a stored user, with the inputs that
are accepted.

## Main definitions

* `given` — the text that an optional field gives
* `ScimNameRequest.reads`, `ScimUserRequest.reads` — the display name of a body

## Main results

* `scimDisplayName_eq_ok_iff` — when a display name is accepted, and which
-/

namespace CairnId

open Concurrency.Prog

theorem pure_eq_ok_iff {α : Type} {a b : α} : (pure a : ScimResult α) = .ok b ↔ b = a :=
  ⟨fun h => (Except.ok.inj h).symm, fun h => h ▸ rfl⟩

theorem except_ok_bind {α β : Type} (a : α) (f : α → ScimResult β) :
    ((Except.ok a : ScimResult α) >>= f) = f a := rfl

-- optional texts

/-- The text that an optional field gives: blank text is none. -/
def given (value : Option String) : Option String :=
  (value.map trim).filter fun text => !text.isEmpty

theorem given_some {value : String} : given (some value) =
    if trim value = "" then none else some (trim value) := by
  unfold given
  by_cases hempty : trim value = ""
  · simp [hempty, Option.filter]
  · simp [hempty, Option.filter]

theorem given_eq_some {value : Option String} {text : String} (h : given value = some text) :
    trim text = text ∧ text ≠ "" := by
  cases value with
  | none => cases h
  | some value =>
    rw [given_some] at h
    by_cases hempty : trim value = ""
    · rw [if_pos hempty] at h
      cases h
    · rw [if_neg hempty] at h
      obtain rfl := Option.some.inj h
      exact ⟨trim_trim value, hempty⟩

theorem given_of_trimmed {text : String} (htrim : trim text = text) (hne : text ≠ "") :
    given (some text) = some text := by
  rw [given_some, htrim, if_neg hne]

theorem optionalScimString_eq_ok_iff {field : String} {value result : Option String}
    {maxLen : Nat} : optionalScimString field value maxLen = .ok result ↔
      result = given value ∧ ∀ text, given value = some text → text.length ≤ maxLen := by
  cases value with
  | none =>
    have hnone : given none = none := rfl
    simp only [optionalScimString, hnone, Except.ok.injEq, reduceCtorEq, false_implies,
      implies_true, and_true]
    exact eq_comm
  | some value =>
    rw [given_some]
    simp only [optionalScimString]
    by_cases hempty : trim value = ""
    · rw [if_pos (String.isEmpty_iff.mpr hempty), if_pos hempty]
      simp [eq_comm]
    · rw [if_neg (fun h => hempty (String.isEmpty_iff.mp h)), if_neg hempty]
      by_cases hlong : maxLen < (trim value).length
      · rw [if_pos hlong]
        refine iff_of_false (by rintro ⟨⟩) fun hboth => ?_
        exact absurd (hboth.2 _ rfl) (Nat.not_le.mpr hlong)
      · rw [if_neg hlong]
        simp only [Except.ok.injEq, Option.some.injEq, forall_eq', eq_comm (a := result),
          Nat.not_lt.mp hlong, and_true]

-- names

def ScimNameRequest.parts (name : ScimNameRequest) : List String :=
  (given name.givenName).toList ++ (given name.familyName).toList

/-- The lengths that are checked: those of the parts are not, behind a formatted name. -/
def ScimNameRequest.Fits (name : ScimNameRequest) : Prop :=
  (∀ text, given name.formatted = some text → text.length ≤ 160) ∧
    (given name.formatted = none → ∀ part ∈ name.parts, part.length ≤ 80)

/-- The name as it is formatted, or by its parts, or else the user name. -/
def ScimNameRequest.reads (name : ScimNameRequest) (userName : String) : String :=
  match given name.formatted with
  | some formatted => formatted
  | none => if name.parts = [] then userName else " ".intercalate name.parts

/-- The display name of a body. -/
def readsDisplayName (userName : String) (displayName : Option String)
    (name : Option ScimNameRequest) : String :=
  match given displayName with
  | some displayName => displayName
  | none => match name with
    | some name => name.reads userName
    | none => userName

def DisplayNameFits (displayName : Option String) (name : Option ScimNameRequest) : Prop :=
  (∀ text, given displayName = some text → text.length ≤ 160) ∧
    (given displayName = none → ∀ n, name = some n → n.Fits)

theorem mem_parts {name : ScimNameRequest} {part : String} : part ∈ name.parts ↔
    given name.givenName = some part ∨ given name.familyName = some part := by
  rw [ScimNameRequest.parts, List.mem_append, Option.mem_toList, Option.mem_toList]

theorem scimDisplayName_name_eq_ok_iff {userName shown : String} {name : ScimNameRequest} :
    scimDisplayName userName none (some name) = .ok shown ↔
      name.Fits ∧ shown = name.reads userName := by
  have hnone : given none = none := rfl
  unfold scimDisplayName
  rw [except_bind_eq_ok]
  simp only [optionalScimString_eq_ok_iff, hnone, reduceCtorEq, false_implies, implies_true,
    and_true, exists_eq_left]
  rw [except_bind_eq_ok]
  simp only [optionalScimString_eq_ok_iff, and_assoc, exists_eq_left]
  unfold ScimNameRequest.Fits ScimNameRequest.reads
  cases hformatted : given name.formatted with
  | some formatted =>
    dsimp only
    rw [and_assoc]
    refine and_congr_right fun _ => ?_
    rw [and_iff_right (by rintro ⟨⟩)]
    exact pure_eq_ok_iff
  | none =>
    dsimp only
    simp only [reduceCtorEq, false_implies, implies_true, true_and, forall_const]
    rw [except_bind_eq_ok]
    simp only [optionalScimString_eq_ok_iff, and_assoc, exists_eq_left]
    rw [except_bind_eq_ok]
    simp only [optionalScimString_eq_ok_iff, and_assoc, exists_eq_left]
    have hparts : (∀ part ∈ name.parts, part.length ≤ 80) ↔
        (∀ text, given name.givenName = some text → text.length ≤ 80) ∧
          ∀ text, given name.familyName = some text → text.length ≤ 80 := by
      simp only [mem_parts, or_imp, forall_and]
    rw [hparts, and_assoc]
    refine and_congr_right fun _ => and_congr_right fun _ => ?_
    show (if (!name.parts.isEmpty) = true then _ else _) = _ ↔ _
    by_cases hempty : name.parts = []
    · rw [if_pos hempty, hempty]
      exact pure_eq_ok_iff
    · rw [if_neg hempty, if_pos (by simpa using hempty)]
      exact pure_eq_ok_iff

theorem scimDisplayName_eq_ok_iff {userName shown : String} {displayName : Option String}
    {name : Option ScimNameRequest} : scimDisplayName userName displayName name = .ok shown ↔
      DisplayNameFits displayName name ∧ shown = readsDisplayName userName displayName name := by
  cases hgiven : given displayName with
  | some d =>
    have hreads : readsDisplayName userName displayName name = d := by
      unfold readsDisplayName
      rw [hgiven]
    rw [hreads]
    unfold scimDisplayName DisplayNameFits
    rw [except_bind_eq_ok]
    simp only [optionalScimString_eq_ok_iff, hgiven, and_assoc, exists_eq_left]
    refine and_congr_right fun _ => ?_
    rw [and_iff_right (by rintro ⟨⟩)]
    exact pure_eq_ok_iff
  | none =>
    have hsame : scimDisplayName userName displayName name = scimDisplayName userName none name := by
      have hread : optionalScimString "displayName" displayName 160 = .ok none :=
        optionalScimString_eq_ok_iff.mpr ⟨hgiven.symm, fun text htext => by
          rw [hgiven] at htext
          cases htext⟩
      unfold scimDisplayName
      rw [hread]
      rfl
    rw [hsame]
    unfold readsDisplayName DisplayNameFits
    rw [hgiven]
    simp only [reduceCtorEq, false_implies, implies_true, true_and, forall_const]
    cases name with
    | some name =>
      rw [scimDisplayName_name_eq_ok_iff]
      simp
    | none =>
      simp only [reduceCtorEq, false_implies, implies_true, true_and]
      exact pure_eq_ok_iff

-- addresses

theorem trim_of_normalized {email normalized : String}
    (h : scimNormalizeEmail email = .ok normalized) :
    trim normalized = normalized ∧ normalized ≠ "" ∧
      normalized.length = (trim email).length := by
  obtain ⟨rfl, hne, -⟩ := normalizeEmail_eq_ok (scimNormalizeEmail_eq_ok_iff.mp h)
  refine ⟨?_, hne, length_asciiLowercase _⟩
  rw [trim_asciiLowercase, trim_trim]

-- display names

theorem intercalate_parts {name : ScimNameRequest} (hne : name.parts ≠ []) :
    (∃ part, name.parts = [part] ∧ " ".intercalate name.parts = part) ∨
    ∃ givenName familyName, given name.givenName = some givenName ∧
      given name.familyName = some familyName ∧
      " ".intercalate name.parts = givenName ++ " " ++ familyName := by
  unfold ScimNameRequest.parts at hne ⊢
  cases hgiven : given name.givenName with
  | none =>
    cases hfamily : given name.familyName with
    | none =>
      rw [hgiven, hfamily] at hne
      exact absurd rfl hne
    | some familyName =>
      exact .inl ⟨familyName, rfl, String.intercalate_singleton⟩
  | some givenName =>
    cases hfamily : given name.familyName with
    | none => exact .inl ⟨givenName, rfl, String.intercalate_singleton⟩
    | some familyName =>
      refine .inr ⟨givenName, familyName, rfl, rfl, ?_⟩
      show " ".intercalate [givenName, familyName] = _
      rw [String.intercalate_cons_cons, String.intercalate_singleton]

theorem trim_reads {name : ScimNameRequest} {userName : String} (htrim : trim userName = userName)
    (hne : userName ≠ "") :
    trim (name.reads userName) = name.reads userName ∧ name.reads userName ≠ "" := by
  unfold ScimNameRequest.reads
  cases hformatted : given name.formatted with
  | some formatted => exact given_eq_some hformatted
  | none =>
    dsimp only
    by_cases hparts : name.parts = []
    · rw [if_pos hparts]
      exact ⟨htrim, hne⟩
    · rw [if_neg hparts]
      rcases intercalate_parts hparts with ⟨part, hone, hjoin⟩ |
        ⟨givenName, familyName, hgiven, hfamily, hjoin⟩
      · have hpart : part ∈ name.parts := by
          rw [hone]
          exact List.mem_singleton.mpr rfl
        rw [hjoin]
        rcases mem_parts.mp hpart with hgiven | hfamily
        · exact given_eq_some hgiven
        · exact given_eq_some hfamily
      · obtain ⟨htrimGiven, hneGiven⟩ := given_eq_some hgiven
        obtain ⟨htrimFamily, hneFamily⟩ := given_eq_some hfamily
        rw [hjoin]
        refine ⟨trim_append_append htrimGiven htrimFamily hneGiven hneFamily, fun hnil => ?_⟩
        have hempty := String.append_eq_empty_iff.mp hnil
        exact hneFamily hempty.2

theorem trim_readsDisplayName {userName : String} {displayName : Option String}
    {name : Option ScimNameRequest} (htrim : trim userName = userName) (hne : userName ≠ "") :
    trim (readsDisplayName userName displayName name) =
        readsDisplayName userName displayName name ∧
      readsDisplayName userName displayName name ≠ "" := by
  unfold readsDisplayName
  cases hgiven : given displayName with
  | some d => exact given_eq_some hgiven
  | none =>
    cases name with
    | none => exact ⟨htrim, hne⟩
    | some name => exact trim_reads htrim hne

-- requests

/-- What `scim_user_input` checks and makes of a request. -/
structure ReadsUser (payload : ScimUserRequest) (input : ScimUserInput) : Prop where
  email : scimNormalizeEmail payload.userName = .ok input.email
  emails : validateScimEmailValues input.email payload.emails = .ok ()
  nameFits : DisplayNameFits payload.displayName payload.name
  displayName : input.displayName = readsDisplayName input.email payload.displayName payload.name
  externalId : input.externalId = given payload.externalId
  externalIdFits : ∀ text, given payload.externalId = some text → text.length ≤ 256
  status : input.status = if payload.active.getD true then .active else .suspended
  emailVerified : input.emailVerified = false

theorem scimUserInput_eq_ok {payload : ScimUserRequest} {input : ScimUserInput}
    (h : scimUserInput payload = .ok input) : ReadsUser payload input := by
  obtain ⟨-, -, h⟩ := except_bind_eq_ok.mp h
  obtain ⟨email, hemail, h⟩ := except_bind_eq_ok.mp h
  obtain ⟨_, hemails, h⟩ := except_bind_eq_ok.mp h
  obtain ⟨displayName, hdisplayName, h⟩ := except_bind_eq_ok.mp h
  obtain ⟨externalId, hexternalId, h⟩ := except_bind_eq_ok.mp h
  obtain rfl := Except.ok.inj h
  obtain ⟨hfits, hshown⟩ := scimDisplayName_eq_ok_iff.mp hdisplayName
  obtain ⟨hid, hidFits⟩ := optionalScimString_eq_ok_iff.mp hexternalId
  exact ⟨hemail, hemails, hfits, hshown, hid, hidFits, rfl, rfl⟩

theorem intoInput_eq_ok_iff {s : ScimPatchState} {input : ScimUserInput} :
    s.intoInput = .ok input ↔ ∃ shown, given (some s.displayName) = some shown ∧
      shown.length ≤ 160 ∧ input = ⟨s.email, s.externalId, s.emailVerified, shown, s.status⟩ := by
  unfold ScimPatchState.intoInput
  rw [except_bind_eq_ok]
  simp only [optionalScimString_eq_ok_iff, and_assoc, exists_eq_left]
  cases hshown : given (some s.displayName) with
  | none => exact iff_of_false (by rintro ⟨-, ⟨⟩⟩) (by rintro ⟨_, ⟨⟩, _⟩)
  | some shown =>
    simp only [Option.some.injEq, forall_eq', exists_eq_left']
    exact and_congr_right fun _ => pure_eq_ok_iff

-- PATCH operations with a value

section Operations

variable {s : ScimPatchState} {op : String} {value : Json}
  (hop : ScimPatchOp.parse op = .ok .add ∨ ScimPatchOp.parse op = .ok .replace)
include hop

theorem applyScimPatchOperation_path (path : String) :
    applyScimPatchOperation s ⟨op, some path, some value⟩ =
      (do applyScimPatchPathValue s (← scimPatchPath path) value) := by
  unfold applyScimPatchOperation
  dsimp only
  rcases hop with hop | hop
  · rw [hop]
    exact except_ok_bind ..
  · rw [hop]
    exact except_ok_bind ..

theorem applyScimPatchOperation_resource :
    applyScimPatchOperation s ⟨op, none, some value⟩ =
      forEachMember (fun s attr value => do applyScimPatchPathValue s (← scimPatchPath attr) value)
        s value := by
  unfold applyScimPatchOperation
  dsimp only
  rcases hop with hop | hop
  · rw [hop]
    exact except_ok_bind ..
  · rw [hop]
    exact except_ok_bind ..

omit hop in
theorem forEachMember_object {σ : Type} {step : σ → String → Json → ScimResult σ} {state : σ}
    {members : List (String × Json)} (hne : members ≠ []) :
    forEachMember step state (.object members) =
      members.foldlM (fun state m => step state m.1 m.2) state := by
  unfold forEachMember
  exact if_neg fun h => hne (List.isEmpty_iff.mp h)

end Operations

theorem intoValidatedOperations_eq {request : ScimPatchRequest}
    (hschema : scimPatchOpSchema ∈ request.schemas) (hne : request.operations ≠ [])
    (hfew : request.operations.length ≤ scimPatchMaxOperations) :
    request.intoValidatedOperations = .ok request.operations := by
  unfold ScimPatchRequest.intoValidatedOperations
  rw [if_neg (by simpa using hschema), if_neg (by simpa using hne), if_neg (Nat.not_lt.mpr hfew)]

end CairnId
