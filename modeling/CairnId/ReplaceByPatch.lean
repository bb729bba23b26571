import Mathlib.Data.String.Basic
import CairnId.Http.ScimUserSpec
import CairnId.Maps.SortedMap
import CairnId.Provisioning

/-!
# A whole user replaced by PATCH

A body that PUT accepts, given as the value of one PATCH operation without a path: the
attributes are applied one after another, in the order of their names.

## Main results

* `patch_agrees_iff` — when the two requests make the same of the attributes given
-/

namespace CairnId

open Concurrency.Prog
open SortedMap (Sorted)

-- the two requests

/-- The attributes of a body, in the order in which a map holds them. -/
def replacedAttributes : List (String × ScimPatchPath) :=
  [("active", .active), ("displayName", .displayName), ("emails", .emails none .resource),
    ("externalId", .externalId), ("name", .name), ("userName", .userName)]

/-- The attributes that the body gives. -/
def givenMembers (body : List (String × Json)) : List (String × Json) :=
  replacedAttributes.filterMap fun a => (SortedMap.get a.1 body).map fun value => (a.1, value)

/-- The request whose value is written with these members. -/
def replaceRequest (written : List (String × Json)) : ScimPatchRequest :=
  ⟨[scimPatchOpSchema], [⟨"replace", none, some (.object (SortedMap.ofList written))⟩]⟩

/-- The PATCH request with the attributes of the body, in whatever order, succeeds and
    makes of each what PUT makes of it. -/
def PatchAgrees (user : User) (body : List (String × Json)) (input : ScimUserInput) : Prop :=
  ∀ written, written.Perm (givenMembers body) →
    ∃ patched, scimPatchUserInput user (replaceRequest written) = .ok patched ∧
      patched.email = input.email ∧
      (SortedMap.get "externalId" body ≠ none → patched.externalId = input.externalId) ∧
      (SortedMap.get "active" body ≠ none → patched.status = input.status) ∧
      (SortedMap.get "displayName" body ≠ none ∨ SortedMap.get "name" body ≠ none →
        patched.displayName = input.displayName)

-- the order of the members

theorem sorted_givenMembers (body : List (String × Json)) : Sorted (givenMembers body) := by
  have hnames : replacedAttributes.Pairwise fun a b => a.1 < b.1 := by
    decide
  refine List.Pairwise.filterMap _ (fun a a' hlt m hm m' hm' => ?_) hnames
  obtain ⟨value, -, rfl⟩ := Option.map_eq_some_iff.mp hm
  obtain ⟨value', -, rfl⟩ := Option.map_eq_some_iff.mp hm'
  exact hlt

theorem ofList_written {body written : List (String × Json)}
    (h : written.Perm (givenMembers body)) : SortedMap.ofList written = givenMembers body := by
  have hsorted := sorted_givenMembers body
  rw [← hsorted.ofList_eq]
  exact (SortedMap.ofList_of_perm hsorted.nodup_keys h.symm).symm

-- one attribute

/-- The value of an attribute, where it is given. -/
def applyGiven (s : ScimPatchState) (path : ScimPatchPath) : Option Json → ScimResult ScimPatchState
  | none => .ok s
  | some value => applyScimPatchPathValue s path value

theorem foldlM_givenMembers (s : ScimPatchState) (body : List (String × Json)) :
    (givenMembers body).foldlM (fun s m => do
      applyScimPatchPathValue s (← scimPatchPath m.1) m.2) s =
    replacedAttributes.foldlM (fun s a => applyGiven s a.2 (SortedMap.get a.1 body)) s := by
  have hpaths : ∀ a ∈ replacedAttributes, scimPatchPath a.1 = .ok a.2 := by
    decide
  unfold givenMembers
  revert hpaths
  generalize replacedAttributes = l
  intro hpaths
  induction l generalizing s with
  | nil => rfl
  | cons a l ih =>
    obtain ⟨hpath, hrest⟩ := List.forall_mem_cons.mp hpaths
    rw [List.filterMap_cons, List.foldlM_cons]
    cases hvalue : SortedMap.get a.1 body with
    | none =>
      rw [applyGiven, except_ok_bind]
      exact ih s hrest
    | some value =>
      dsimp only [Option.map_some]
      rw [List.foldlM_cons, hpath, except_ok_bind, applyGiven]
      exact bind_congr fun s' => ih s' hrest

section Steps

variable {s s' : ScimPatchState} {given? : Option Json}

theorem applyGiven_some {path : ScimPatchPath} {value : Json} :
    applyGiven s path (some value) = applyScimPatchPathValue s path value := rfl

theorem applyGiven_none {path : ScimPatchPath} : applyGiven s path none = .ok s' ↔ s' = s :=
  pure_eq_ok_iff

theorem scimRequiredStringValue_eq_ok_iff {field text value : String} {maxLen : Nat} :
    scimRequiredStringValue field (.string value) maxLen = .ok text ↔
      given (some value) = some text ∧ text.length ≤ maxLen := by
  unfold scimRequiredStringValue
  rw [except_bind_eq_ok]
  simp only [optionalScimString_eq_ok_iff, and_assoc, exists_eq_left]
  cases hgiven : given (some value) with
  | none => exact iff_of_false (by rintro ⟨-, ⟨⟩⟩) (by rintro ⟨⟨⟩, -⟩)
  | some shown =>
    dsimp only
    rw [pure_eq_ok_iff]
    constructor
    · rintro ⟨hfits, rfl⟩
      exact ⟨rfl, hfits _ rfl⟩
    · rintro ⟨hsame, hfits⟩
      obtain rfl := Option.some.inj hsame
      exact ⟨fun t ht => Option.some.inj ht ▸ hfits, rfl⟩

def ScimPatchState.setActive (s : ScimPatchState) : Option Bool → ScimPatchState
  | none => s
  | some b => { s with status := if b then .active else .suspended }

theorem applyGiven_active {active : Option Bool} (h : Json.optionalBool given? = some active) :
    applyGiven s .active given? = .ok s' ↔ given? ≠ some .null ∧ s' = s.setActive active := by
  cases given? with
  | none =>
    obtain rfl := Option.some.inj h
    rw [applyGiven_none]
    exact (and_iff_right (by rintro ⟨⟩)).symm
  | some value =>
    cases value with
    | null => exact iff_of_false (by rintro ⟨⟩) fun hboth => hboth.1 rfl
    | bool b =>
      obtain rfl := Option.some.inj h
      have hne : some (Json.bool b) ≠ some .null := by rintro ⟨⟩
      rw [and_iff_right hne]
      exact pure_eq_ok_iff
    | number n => cases h
    | string text => cases h
    | array values => cases h
    | object members => cases h

/-- A display name that is given is set, unless it is blank. -/
def ScimPatchState.setGivenName? (s : ScimPatchState) : Option String → ScimPatchState
  | none => s
  | some displayName => s.setDisplayName displayName

theorem applyGiven_displayName {displayName : Option String}
    (h : Json.optionalString given? = some displayName)
    (hfits : ∀ text, given displayName = some text → text.length ≤ 160) :
    applyGiven s .displayName given? = .ok s' ↔
      (given? ≠ none → given displayName ≠ none) ∧
        s' = s.setGivenName? (given displayName) := by
  cases given? with
  | none =>
    obtain rfl := Option.some.inj h
    rw [applyGiven_none]
    exact (and_iff_right fun hne => absurd rfl hne).symm
  | some value =>
    have hgiven : (some value : Option Json) ≠ none := by rintro ⟨⟩
    rw [applyGiven_some]
    cases value with
    | null =>
      obtain rfl := Option.some.inj h
      exact iff_of_false (by rintro ⟨⟩) fun hboth => hboth.1 hgiven rfl
    | string text =>
      obtain rfl := Option.some.inj h
      show (do return s.setDisplayName (← scimRequiredStringValue _ (.string text) _)) = _ ↔ _
      rw [except_bind_eq_ok]
      simp only [scimRequiredStringValue_eq_ok_iff, and_assoc]
      cases hshown : given (some text) with
      | none => exact iff_of_false (by rintro ⟨_, ⟨⟩, -⟩) fun hboth => hboth.1 hgiven rfl
      | some shown =>
        have hne : some shown ≠ none := by rintro ⟨⟩
        simp only [Option.some.injEq, exists_eq_left', hfits shown hshown, true_and]
        rw [and_iff_right fun _ => hne]
        exact pure_eq_ok_iff
    | bool b => cases h
    | number n => cases h
    | array values => cases h
    | object members => cases h

theorem applyGiven_externalId {externalId : Option String}
    (h : Json.optionalString given? = some externalId)
    (hfits : ∀ text, given externalId = some text → text.length ≤ 256) :
    applyGiven s .externalId given? = .ok s' ↔ s' = { s with
      externalId := if given?.isSome then given externalId else s.externalId } := by
  cases given? with
  | none => exact applyGiven_none
  | some value =>
    rw [applyGiven_some]
    have hread : scimOptionalStringValue "externalId" value 256 = .ok (given externalId) := by
      cases value with
      | null =>
        obtain rfl := Option.some.inj h
        rfl
      | string text =>
        obtain rfl := Option.some.inj h
        show optionalScimString "externalId" (some text) 256 = _
        exact optionalScimString_eq_ok_iff.mpr ⟨rfl, hfits⟩
      | bool b => cases h
      | number n => cases h
      | array values => cases h
      | object members => cases h
    have happly : applyScimPatchPathValue s .externalId value =
        (do return { s with externalId := ← scimOptionalStringValue "externalId" value 256 }) := rfl
    rw [happly, hread, except_ok_bind]
    exact pure_eq_ok_iff

/-- The display name that a name makes, by the address of the moment. -/
def ScimPatchState.setName (s : ScimPatchState) : Option ScimNameRequest → ScimPatchState
  | none => s
  | some name => s.setDisplayName (name.reads s.email)

theorem applyGiven_name {name : Option ScimNameRequest}
    (h : Json.optionalField ScimNameRequest.fromValue given? = some name) :
    applyGiven s .name given? = .ok s' ↔
      given? ≠ some .null ∧ (∀ n, name = some n → n.Fits) ∧ s' = s.setName name := by
  by_cases hnull : given? = some .null
  · subst hnull
    exact iff_of_false (by rintro ⟨⟩) fun hboth => hboth.1 rfl
  · rw [and_iff_right hnull]
    cases given? with
    | none =>
      obtain rfl := Option.some.inj h
      rw [applyGiven_none]
      exact (and_iff_right (by rintro _ ⟨⟩)).symm
    | some value =>
      have hread : (ScimNameRequest.fromValue value).map some = some name := by
        cases value with
        | null => exact absurd rfl hnull
        | bool b => exact h
        | number n => exact h
        | string text => exact h
        | array values => exact h
        | object members => exact h
      obtain ⟨n, hvalue, rfl⟩ := Option.map_eq_some_iff.mp hread
      rw [applyGiven_some]
      have happly : applyScimPatchPathValue s .name value =
          (do return s.setDisplayName (← scimDisplayName s.email none (some n))) := by
        unfold applyScimPatchPathValue
        dsimp only
        rw [hvalue]
      rw [happly, except_bind_eq_ok]
      simp only [scimDisplayName_name_eq_ok_iff, and_assoc, Option.some.injEq, forall_eq']
      have hswap : ∀ a : String, (n.Fits ∧ a = n.reads s.email ∧
          pure (s.setDisplayName a) = (Except.ok s' : ScimResult _)) ↔
          a = n.reads s.email ∧ n.Fits ∧ s' = s.setDisplayName a := by
        intro a
        rw [pure_eq_ok_iff, and_left_comm]
      simp only [hswap, exists_eq_left]
      exact Iff.rfl

theorem forM_eq_ok {α : Type} {check : α → ScimResult Unit} {l : List α}
    (h : l.forM check = .ok ()) : ∀ a ∈ l, check a = .ok () := by
  induction l with
  | nil => exact fun a ha => nomatch ha
  | cons b l ih =>
    obtain ⟨_, hfirst, hrest⟩ := except_bind_eq_ok.mp h
    intro a ha
    rcases List.mem_cons.mp ha with rfl | ha
    · exact hfirst
    · exact ih hrest a ha

theorem normalized_of_validate {email : String} {emails : List ScimEmailRequest}
    (h : validateScimEmailValues email emails = .ok ()) :
    ∀ e ∈ emails, scimNormalizeEmail e.value = .ok email := by
  obtain ⟨_, hall, -⟩ := except_bind_eq_ok.mp h
  intro e he
  have hone : validateScimEmailValue email e = .ok () := forM_eq_ok hall e he
  obtain ⟨normalized, hnormalized, hrest⟩ := except_bind_eq_ok.mp hone
  by_cases hsame : normalized = email
  · exact hsame ▸ hnormalized
  · rw [if_pos hsame] at hrest
    cases hrest

theorem scimEmailFromPatchValue_array {email : String} {values : List Json}
    {first : ScimEmailRequest} {rest : List ScimEmailRequest}
    (hread : values.mapM ScimEmailRequest.fromValue = some (first :: rest))
    (hvalid : validateScimEmailValues email (first :: rest) = .ok ()) :
    scimEmailFromPatchValue (.array values) = .ok email := by
  have hmem : ((first :: rest).find? ScimEmailRequest.isPrimary).getD first ∈ first :: rest := by
    cases hfind : (first :: rest).find? ScimEmailRequest.isPrimary with
    | none => exact .head _
    | some e => exact List.mem_of_find?_eq_some hfind
  have hselected := normalized_of_validate hvalid _ hmem
  unfold scimEmailFromPatchValue
  dsimp only
  rw [hread]
  dsimp only
  rw [hselected, except_ok_bind, hvalid]
  rfl

theorem applyGiven_emails {email : String} {emails : List ScimEmailRequest}
    (h : Json.optionalList ScimEmailRequest.fromValue given? = some emails)
    (hvalid : validateScimEmailValues email emails = .ok ()) :
    applyGiven s (.emails none .resource) given? = .ok s' ↔
      given? ≠ some (.array []) ∧ s' = if given?.isSome then s.setUserName email else s := by
  cases given? with
  | none =>
    rw [applyGiven_none]
    exact (and_iff_right (by rintro ⟨⟩)).symm
  | some value =>
    cases value with
    | array values =>
      rw [applyGiven_some]
      have happly : applyScimPatchPathValue s (.emails none .resource) (.array values) =
          (do return s.setUserName (← scimEmailFromPatchValue (.array values))) := rfl
      rw [happly]
      cases emails with
      | nil =>
        have hnil : values = [] := by
          cases values with
          | nil => rfl
          | cons value values =>
            change List.mapM _ (value :: values) = some [] at h
            rw [List.mapM_cons] at h
            obtain ⟨first, -, hrest⟩ := Option.bind_eq_some_iff.mp h
            obtain ⟨rest, -, hlist⟩ := Option.bind_eq_some_iff.mp hrest
            cases hlist
        rw [hnil]
        exact iff_of_false (by rintro ⟨⟩) fun hboth => hboth.1 rfl
      | cons first rest =>
        have hne : some (Json.array values) ≠ some (.array []) := by
          rintro ⟨⟩
          cases h
        rw [scimEmailFromPatchValue_array h hvalid, and_iff_right hne]
        exact pure_eq_ok_iff
    | null => cases h
    | bool b => cases h
    | number n => cases h
    | string text => cases h
    | object members => cases h

theorem applyGiven_userName {userName email : String}
    (h : given? = some (.string userName)) (hemail : scimNormalizeEmail userName = .ok email) :
    applyGiven s .userName given? = .ok s' ↔ s' = s.setUserName email := by
  subst h
  obtain ⟨htrim, hne, hlength⟩ := trim_of_normalized hemail
  obtain ⟨-, -, hshort⟩ := normalizeEmail_eq_ok (scimNormalizeEmail_eq_ok_iff.mp hemail)
  have htext : trim userName ≠ "" := by
    intro hnil
    rw [hnil] at hlength
    exact hne (String.length_eq_zero_iff.mp hlength)
  have hread : scimRequiredStringValue "userName" (.string userName) 320 =
      .ok (trim userName) := by
    rw [scimRequiredStringValue_eq_ok_iff, given_some, if_neg htext]
    exact ⟨rfl, hlength ▸ hshort⟩
  have hagain : scimNormalizeEmail (trim userName) = .ok email := by
    rw [scimNormalizeEmail_eq_ok_iff, normalizeEmail_trim]
    exact scimNormalizeEmail_eq_ok_iff.mp hemail
  rw [applyGiven_some]
  show (do return s.setUserName (← scimNormalizeEmail
    (← scimRequiredStringValue "userName" (.string userName) 320))) = _ ↔ _
  rw [hread, except_ok_bind, hagain, except_ok_bind]
  exact pure_eq_ok_iff

end Steps

-- the body

/-- What serde reads of the attributes of a body. -/
structure ReadsBody (body : List (String × Json)) (payload : ScimUserRequest) : Prop where
  userName : SortedMap.get "userName" body = some (.string payload.userName)
  externalId : Json.optionalString (SortedMap.get "externalId" body) = some payload.externalId
  name : Json.optionalField ScimNameRequest.fromValue (SortedMap.get "name" body) =
    some payload.name
  displayName : Json.optionalString (SortedMap.get "displayName" body) = some payload.displayName
  active : Json.optionalBool (SortedMap.get "active" body) = some payload.active
  emails : Json.optionalList ScimEmailRequest.fromValue (SortedMap.get "emails" body) =
    some payload.emails

theorem fromValue_eq_some {body : List (String × Json)} {payload : ScimUserRequest}
    (h : ScimUserRequest.fromValue (.object body) = some payload) : ReadsBody body payload := by
  obtain ⟨schemas, -, hread⟩ := Option.bind_eq_some_iff.mp h
  obtain ⟨userName, huserName, hread⟩ := Option.bind_eq_some_iff.mp hread
  obtain ⟨externalId, hexternalId, hread⟩ := Option.bind_eq_some_iff.mp hread
  obtain ⟨name, hname, hread⟩ := Option.bind_eq_some_iff.mp hread
  obtain ⟨displayName, hdisplayName, hread⟩ := Option.bind_eq_some_iff.mp hread
  obtain ⟨active, hactive, hread⟩ := Option.bind_eq_some_iff.mp hread
  obtain ⟨emails, hemails, hread⟩ := Option.bind_eq_some_iff.mp hread
  obtain rfl := Option.some.inj hread
  refine ⟨?_, hexternalId, hname, hdisplayName, hactive, hemails⟩
  show SortedMap.get "userName" body = some (.string userName)
  change Json.requiredString (SortedMap.get "userName" body) = some userName at huserName
  cases hvalue : SortedMap.get "userName" body with
  | none =>
    rw [hvalue] at huserName
    cases huserName
  | some value =>
    rw [hvalue] at huserName
    cases value with
    | string text => rw [Option.some.inj huserName]
    | null => cases huserName
    | bool b => cases huserName
    | number n => cases huserName
    | array values => cases huserName
    | object members => cases huserName

-- the operation

namespace ScimPatchState

variable (s : ScimPatchState) (email : String)

@[simp] theorem setUserName_email : (s.setUserName email).email = email := by
  unfold setUserName
  split
  · rfl
  · rename_i hsame
    exact not_not.mp hsame

@[simp] theorem setUserName_externalId : (s.setUserName email).externalId = s.externalId := by
  unfold setUserName
  split <;> rfl

@[simp] theorem setUserName_displayName : (s.setUserName email).displayName = s.displayName := by
  unfold setUserName
  split <;> rfl

@[simp] theorem setUserName_status : (s.setUserName email).status = s.status := by
  unfold setUserName
  split <;> rfl

/-- The attributes of the body, one after another. -/
def replacedBy (body : List (String × Json)) (payload : ScimUserRequest) : ScimPatchState :=
  let named := (s.setActive payload.active).setGivenName? (given payload.displayName)
  let addressed := if (SortedMap.get "emails" body).isSome then named.setUserName email else named
  let identified := { addressed with
    externalId := if (SortedMap.get "externalId" body).isSome then given payload.externalId
      else addressed.externalId }
  (identified.setName payload.name).setUserName email

variable {s email} {body : List (String × Json)} {payload : ScimUserRequest}

theorem setActive_eq (active : Option Bool) : s.setActive active = { s with
    status := match active with
      | none => s.status
      | some b => if b then .active else .suspended } := by
  cases active <;> rfl

theorem replacedBy_email : (s.replacedBy email body payload).email = email := by
  unfold replacedBy
  exact setUserName_email _ _

theorem replacedBy_externalId : (s.replacedBy email body payload).externalId =
    if (SortedMap.get "externalId" body).isSome then given payload.externalId
    else s.externalId := by
  unfold replacedBy
  rw [setUserName_externalId]
  have hname : ∀ t : ScimPatchState, (t.setName payload.name).externalId = t.externalId := by
    intro t
    cases payload.name <;> rfl
  have hkept : ((s.setActive payload.active).setGivenName? (given payload.displayName)).externalId =
      s.externalId := by
    rw [setActive_eq]
    cases given payload.displayName <;> rfl
  rw [hname]
  dsimp only
  by_cases hemails : (SortedMap.get "emails" body).isSome = true
  · rw [if_pos hemails, setUserName_externalId, hkept]
  · rw [if_neg hemails, hkept]

theorem replacedBy_status : (s.replacedBy email body payload).status = match payload.active with
    | none => s.status
    | some b => if b then .active else .suspended := by
  unfold replacedBy
  rw [setUserName_status]
  have hname : ∀ t : ScimPatchState, (t.setName payload.name).status = t.status := by
    intro t
    cases payload.name <;> rfl
  have hset : ((s.setActive payload.active).setGivenName? (given payload.displayName)).status =
      (s.setActive payload.active).status := by
    cases given payload.displayName <;> rfl
  rw [hname]
  dsimp only
  by_cases hemails : (SortedMap.get "emails" body).isSome = true
  · rw [if_pos hemails, setUserName_status, hset, setActive_eq]
  · rw [if_neg hemails, hset, setActive_eq]

theorem replacedBy_displayName : (s.replacedBy email body payload).displayName =
    match payload.name with
    | some name => name.reads (if (SortedMap.get "emails" body).isSome then email else s.email)
    | none => (given payload.displayName).getD s.displayName := by
  unfold replacedBy
  rw [setUserName_displayName]
  have hemail : ((s.setActive payload.active).setGivenName? (given payload.displayName)).email =
      s.email := by
    rw [setActive_eq]
    cases given payload.displayName <;> rfl
  have hset : ((s.setActive payload.active).setGivenName?
      (given payload.displayName)).displayName = (given payload.displayName).getD s.displayName := by
    rw [setActive_eq]
    cases given payload.displayName <;> rfl
  cases payload.name with
  | some name =>
    show name.reads (ScimPatchState.email _) = _
    by_cases hemails : (SortedMap.get "emails" body).isSome = true
    · rw [if_pos hemails, if_pos hemails]
      exact congrArg name.reads (setUserName_email _ _)
    · rw [if_neg hemails, if_neg hemails]
      exact congrArg name.reads hemail
  | none =>
    show ScimPatchState.displayName _ = _
    by_cases hemails : (SortedMap.get "emails" body).isSome = true
    · rw [if_pos hemails]
      exact (setUserName_displayName _ _).trans hset
    · rw [if_neg hemails]
      exact hset

end ScimPatchState

/-- What the attributes must be for the operation to succeed. -/
structure Applies (body : List (String × Json)) (payload : ScimUserRequest) : Prop where
  active : SortedMap.get "active" body ≠ some .null
  displayName : SortedMap.get "displayName" body ≠ none → given payload.displayName ≠ none
  emails : SortedMap.get "emails" body ≠ some (.array [])
  name : SortedMap.get "name" body ≠ some .null
  nameFits : ∀ n, payload.name = some n → n.Fits

theorem foldlM_replacedAttributes {body : List (String × Json)} {payload : ScimUserRequest}
    {input : ScimUserInput} (hbody : ReadsBody body payload) (hreads : ReadsUser payload input)
    {s s' : ScimPatchState} :
    replacedAttributes.foldlM (fun s a => applyGiven s a.2 (SortedMap.get a.1 body)) s = .ok s' ↔
      Applies body payload ∧ s' = s.replacedBy input.email body payload := by
  unfold replacedAttributes
  simp only [List.foldlM_cons, List.foldlM_nil, except_bind_eq_ok,
    applyGiven_active hbody.active, applyGiven_displayName hbody.displayName hreads.nameFits.1,
    applyGiven_emails hbody.emails hreads.emails,
    applyGiven_externalId hbody.externalId hreads.externalIdFits, applyGiven_name hbody.name,
    applyGiven_userName hbody.userName hreads.email, and_assoc, exists_and_left, exists_eq_left,
    pure_eq_ok_iff]
  constructor
  · rintro ⟨hactive, hdisplayName, hemails, hname, hfits, hstate⟩
    exact ⟨⟨hactive, hdisplayName, hemails, hname, hfits⟩, hstate⟩
  · rintro ⟨⟨hactive, hdisplayName, hemails, hname, hfits⟩, hstate⟩
    exact ⟨hactive, hdisplayName, hemails, hname, hfits, hstate⟩

theorem scimPatchUserInput_replace {user : User} {body written : List (String × Json)}
    {payload : ScimUserRequest} {input patched : ScimUserInput} (hbody : ReadsBody body payload)
    (hreads : ReadsUser payload input) (hwritten : written.Perm (givenMembers body)) :
    scimPatchUserInput user (replaceRequest written) = .ok patched ↔ Applies body payload ∧
      ((ScimPatchState.fromUser user).replacedBy input.email body payload).intoInput =
        .ok patched := by
  have hne : givenMembers body ≠ [] := by
    have hmem : ("userName", Json.string payload.userName) ∈ givenMembers body := by
      refine List.mem_filterMap.mpr ⟨("userName", .userName), by decide, ?_⟩
      dsimp only
      rw [hbody.userName]
      rfl
    exact List.ne_nil_of_mem hmem
  have hop : ScimPatchOp.parse "replace" = .ok .add ∨ ScimPatchOp.parse "replace" = .ok .replace :=
    .inr (by decide)
  have hrun : scimPatchUserInput user (replaceRequest written) =
      (do (← replacedAttributes.foldlM (fun s a => applyGiven s a.2 (SortedMap.get a.1 body))
        (.fromUser user)).intoInput) := by
    have hfew : (replaceRequest written).operations.length ≤ scimPatchMaxOperations := by
      show 1 ≤ 20
      decide
    unfold scimPatchUserInput
    rw [intoValidatedOperations_eq (List.mem_singleton.mpr rfl) (List.cons_ne_nil _ _) hfew,
      except_ok_bind, replaceRequest, List.foldlM_cons, applyScimPatchOperation_resource hop,
      ofList_written hwritten, forEachMember_object hne, foldlM_givenMembers]
    simp only [List.foldlM_nil, bind_pure]
  rw [hrun, except_bind_eq_ok]
  simp only [foldlM_replacedAttributes hbody hreads, and_assoc, exists_and_left, exists_eq_left]

-- when the requests agree

/-- The address when the name is read: `emails` comes before `name`, `userName` after. -/
def addressOfName (user : User) (body : List (String × Json)) (payload : ScimUserRequest) :
    String :=
  if (SortedMap.get "emails" body).isSome then asciiLowercase (trim payload.userName)
  else user.email

/-- Every attribute given has a value that PATCH takes, a name reads as the display name
    that comes before it, and by the same address as in PUT, and a display name that is
    left alone is one that PATCH takes. -/
structure PatchTakes (user : User) (body : List (String × Json)) (payload : ScimUserRequest) :
    Prop extends Applies body payload where
  named : ∀ n, payload.name = some n → ∃ shown,
    given (some (n.reads (addressOfName user body payload))) = some shown ∧ shown.length ≤ 160 ∧
    (∀ d, given payload.displayName = some d → shown = d) ∧
    (given payload.displayName = none → shown = n.reads (asciiLowercase (trim payload.userName)))
  stored : SortedMap.get "displayName" body = none → SortedMap.get "name" body = none →
    ∃ shown, given (some user.displayName) = some shown ∧ shown.length ≤ 160

section Agreement

variable {user : User} {body : List (String × Json)} {payload : ScimUserRequest}

theorem ReadsBody.name_none (h : ReadsBody body payload)
    (hnull : SortedMap.get "name" body ≠ some .null) :
    payload.name = none ↔ SortedMap.get "name" body = none := by
  have hname := h.name
  cases hvalue : SortedMap.get "name" body with
  | none =>
    rw [hvalue] at hname
    exact iff_of_true (Option.some.inj hname).symm rfl
  | some value =>
    rw [hvalue] at hname hnull
    refine iff_of_false (fun hnone => ?_) (by rintro ⟨⟩)
    rw [hnone] at hname
    have hread : (ScimNameRequest.fromValue value).map some = some none := by
      cases value with
      | null => exact absurd rfl hnull
      | bool b => exact hname
      | number n => exact hname
      | string text => exact hname
      | array values => exact hname
      | object members => exact hname
    obtain ⟨n, -, hn⟩ := Option.map_eq_some_iff.mp hread
    cases hn

theorem ReadsBody.displayName_none (h : ReadsBody body payload)
    (hnone : SortedMap.get "displayName" body = none) : given payload.displayName = none := by
  have hread := h.displayName
  rw [hnone] at hread
  rw [← Option.some.inj hread]
  rfl

theorem ReadsBody.active_some (h : ReadsBody body payload)
    (hgiven : SortedMap.get "active" body ≠ none)
    (hnull : SortedMap.get "active" body ≠ some .null) : ∃ b, payload.active = some b := by
  have hread := h.active
  cases hvalue : SortedMap.get "active" body with
  | none => exact absurd hvalue hgiven
  | some value =>
    rw [hvalue] at hread hnull
    cases value with
    | null => exact absurd rfl hnull
    | bool b => exact ⟨b, (Option.some.inj hread).symm⟩
    | number n => cases hread
    | string text => cases hread
    | array values => cases hread
    | object members => cases hread

/-- What the operation makes of the display name. -/
def replacedDisplayName (user : User) (body : List (String × Json)) (payload : ScimUserRequest) :
    String :=
  match payload.name with
  | some name => name.reads (addressOfName user body payload)
  | none => (given payload.displayName).getD user.displayName

/-- The result of the request, whatever the order of the members. -/
theorem scimPatchUserInput_eq_ok_iff {input patched : ScimUserInput}
    {written : List (String × Json)} (hbody : ReadsBody body payload)
    (hreads : ReadsUser payload input) (hwritten : written.Perm (givenMembers body)) :
    scimPatchUserInput user (replaceRequest written) = .ok patched ↔ Applies body payload ∧
      ∃ shown, given (some (replacedDisplayName user body payload)) = some shown ∧
        shown.length ≤ 160 ∧ patched =
          ⟨input.email, if (SortedMap.get "externalId" body).isSome then given payload.externalId
              else user.scimExternalId,
            ((ScimPatchState.fromUser user).replacedBy input.email body payload).emailVerified,
            shown, match payload.active with
              | none => user.status
              | some b => if b then .active else .suspended⟩ := by
  have hemail : input.email = asciiLowercase (trim payload.userName) :=
    (normalizeEmail_eq_ok (scimNormalizeEmail_eq_ok_iff.mp hreads.email)).1
  have hdisplayName : ((ScimPatchState.fromUser user).replacedBy input.email body
      payload).displayName = replacedDisplayName user body payload := by
    rw [ScimPatchState.replacedBy_displayName, hemail]
    rfl
  rw [scimPatchUserInput_replace hbody hreads hwritten, intoInput_eq_ok_iff, hdisplayName,
    ScimPatchState.replacedBy_email, ScimPatchState.replacedBy_externalId,
    ScimPatchState.replacedBy_status]
  exact Iff.rfl

/-- PATCH with a whole user agrees with PUT exactly when `PatchTakes` holds. -/
theorem patch_agrees_iff {input : ScimUserInput}
    (hrequest : ScimUserRequest.fromValue (.object body) = some payload)
    (h : scimUserInput payload = .ok input) :
    PatchAgrees user body input ↔ PatchTakes user body payload := by
  have hbody := fromValue_eq_some hrequest
  have hreads := scimUserInput_eq_ok h
  have hemail : input.email = asciiLowercase (trim payload.userName) :=
    (normalizeEmail_eq_ok (scimNormalizeEmail_eq_ok_iff.mp hreads.email)).1
  constructor
  · intro hagrees
    obtain ⟨patched, hrun, -, -, -, hname⟩ := hagrees _ (.refl _)
    obtain ⟨happlies, shown, hshown, hshort, rfl⟩ :=
      (scimPatchUserInput_eq_ok_iff hbody hreads (.refl _)).mp hrun
    dsimp only at hname
    refine ⟨happlies, fun n hn => ?_, fun hnoDisplay hnoName => ?_⟩
    · have hgivenName : SortedMap.get "name" body ≠ none := by
        intro hnone
        rw [(hbody.name_none happlies.name).mpr hnone] at hn
        cases hn
      have hsame := hname (.inr hgivenName)
      rw [replacedDisplayName, hn] at hshown
      rw [hreads.displayName] at hsame
      unfold readsDisplayName at hsame
      rw [hn] at hsame
      refine ⟨shown, hshown, hshort, fun d hd => ?_, fun hnone => ?_⟩
      · rw [hsame, hd]
      · rw [hsame, hnone, ← hemail]
    · rw [replacedDisplayName, (hbody.name_none happlies.name).mpr hnoName,
        hbody.displayName_none hnoDisplay] at hshown
      exact ⟨shown, hshown, hshort⟩
  · intro htakes written hwritten
    have happlies := htakes.toApplies
    obtain ⟨shown, hshown, hshort, hsame⟩ : ∃ shown,
        given (some (replacedDisplayName user body payload)) = some shown ∧ shown.length ≤ 160 ∧
        (SortedMap.get "displayName" body ≠ none ∨ SortedMap.get "name" body ≠ none →
          shown = input.displayName) := by
      rw [hreads.displayName]
      unfold replacedDisplayName readsDisplayName
      cases hn : payload.name with
      | some n =>
        obtain ⟨shown, hshown, hshort, hdisplay, hfallback⟩ := htakes.named n hn
        refine ⟨shown, hshown, hshort, fun _ => ?_⟩
        cases hd : given payload.displayName with
        | some d => exact hdisplay d hd
        | none =>
          dsimp only
          rw [hemail]
          exact hfallback hd
      | none =>
        have hnoName := (hbody.name_none happlies.name).mp hn
        cases hd : given payload.displayName with
        | some d =>
          obtain ⟨htrim, hne⟩ := given_eq_some hd
          exact ⟨d, given_of_trimmed htrim hne, hreads.nameFits.1 d hd, fun _ => rfl⟩
        | none =>
          have hnoDisplay : SortedMap.get "displayName" body = none := by
            by_contra hgiven
            exact happlies.displayName hgiven hd
          obtain ⟨shown, hshown, hshort⟩ := htakes.stored hnoDisplay hnoName
          refine ⟨shown, hshown, hshort, ?_⟩
          rintro (hgiven | hgiven)
          · exact absurd hnoDisplay hgiven
          · exact absurd hnoName hgiven
    refine ⟨_, (scimPatchUserInput_eq_ok_iff hbody hreads hwritten).mpr
      ⟨happlies, shown, hshown, hshort, rfl⟩, rfl, fun hgiven => ?_, fun hgiven => ?_, hsame⟩
    · dsimp only
      rw [if_pos (Option.isSome_iff_ne_none.mpr hgiven), hreads.externalId]
    · obtain ⟨b, hb⟩ := hbody.active_some hgiven happlies.active
      dsimp only
      rw [hreads.status, hb]
      rfl

end Agreement

namespace Sample

def renamedBody : List (String × Json) :=
  [("displayName", .string "Ada"), ("userName", .string "ada@example.org")]

def renamedRequest : ScimUserRequest :=
  ⟨[], "ada@example.org", none, none, some "Ada", none, []⟩

def renamedInput : ScimUserInput := ⟨"ada@example.org", none, false, "Ada", .active⟩

/-- A body with a display name and another name. -/
def namedTwice : List (String × Json) :=
  [("displayName", .string "Ada"), ("name", .object [("formatted", .string "Countess Lovelace")]),
    ("userName", .string "ada@example.org")]

end Sample

open Sample in
theorem patch_agrees_renamed : ScimUserRequest.fromValue (.object renamedBody) = some renamedRequest ∧
    scimUserInput renamedRequest = .ok renamedInput ∧ PatchAgrees user renamedBody renamedInput := by
  have hrequest : ScimUserRequest.fromValue (.object renamedBody) = some renamedRequest := by
    rfl
  have hinput : scimUserInput renamedRequest = .ok renamedInput := by decide
  have hactive : SortedMap.get "active" renamedBody = none := by decide
  have hemails : SortedMap.get "emails" renamedBody = none := by decide
  have hname : SortedMap.get "name" renamedBody = none := by decide
  have happlies : Applies renamedBody renamedRequest := by
    refine ⟨?_, fun _ => by decide, ?_, ?_, by rintro _ ⟨⟩⟩
    · rw [hactive]
      rintro ⟨⟩
    · rw [hemails]
      rintro ⟨⟩
    · rw [hname]
      rintro ⟨⟩
  refine ⟨hrequest, hinput, (patch_agrees_iff hrequest hinput).mpr
    ⟨happlies, by rintro _ ⟨⟩, fun hnone => ?_⟩⟩
  exact absurd hnone (by decide)

open Sample in
/-- PUT keeps the display name, and PATCH the other one. -/
theorem namedTwice_disagrees : ∃ payload,
    ScimUserRequest.fromValue (.object namedTwice) = some payload ∧
    scimUserInput payload = .ok renamedInput ∧ ¬PatchAgrees user namedTwice renamedInput := by
  have hput : (ScimUserRequest.fromValue (.object namedTwice)).map scimUserInput =
      some (.ok renamedInput) := by
    decide
  have hpatch : scimPatchUserInput user (replaceRequest (givenMembers namedTwice)) =
      .ok ⟨"ada@example.org", none, true, "Countess Lovelace", .active⟩ := by
    decide
  obtain ⟨payload, hrequest, hinput⟩ := Option.map_eq_some_iff.mp hput
  refine ⟨payload, hrequest, hinput, fun hagrees => ?_⟩
  obtain ⟨patched, hrun, -, -, -, hname⟩ := hagrees _ (.refl _)
  obtain rfl := Except.ok.inj (hpatch.symm.trans hrun)
  have hsame := hname (.inl (by decide))
  exact absurd hsame (by decide)

end CairnId
