import CairnId.Http.ScimBulkJob

/-!
# References of Bulk operations

What a `bulkId:` reference of an operation is, for the traversal that collects
them and for the one that puts identifiers in their place.

## Main definitions

- `Json.texts`, `Json.mapTexts` — the texts at any depth of a value
- `ScimBulkOperationRequest.RefersTo` — the operation names a `bulkId`
- `substituted` — a text with an identifier in place of its reference
-/

namespace CairnId

open Concurrency Prog

mutual

/-- The texts at any depth of a value. -/
def Json.texts : Json → List String
  | .string text => [text]
  | .array values => Json.arrayTexts values
  | .object members => Json.objectTexts members
  | .null | .bool _ | .number _ => []

def Json.arrayTexts : List Json → List String
  | [] => []
  | value :: values => value.texts ++ Json.arrayTexts values

def Json.objectTexts : List (String × Json) → List String
  | [] => []
  | (_, value) :: members => value.texts ++ Json.objectTexts members

end

mutual

/-- A value with each of its texts replaced, and nothing else changed. -/
def Json.mapTexts (f : String → String) : Json → Json
  | .string text => .string (f text)
  | .array values => .array (Json.mapArrayTexts f values)
  | .object members => .object (Json.mapObjectTexts f members)
  | .null => .null
  | .bool b => .bool b
  | .number n => .number n

def Json.mapArrayTexts (f : String → String) : List Json → List Json
  | [] => []
  | value :: values => value.mapTexts f :: Json.mapArrayTexts f values

def Json.mapObjectTexts (f : String → String) : List (String × Json) → List (String × Json)
  | [] => []
  | (key, value) :: members => (key, value.mapTexts f) :: Json.mapObjectTexts f members

end

/-- The texts of an operation that can be references: the segments of its path and
    the texts of its data. -/
def ScimBulkOperationRequest.texts (operation : ScimBulkOperationRequest) : List String :=
  splitAt '/' operation.path ++ (operation.data.map Json.texts).getD []

/-- The name in a reference, or why it is malformed. -/
def referenceIn (text : String) : Option (ScimResult String) :=
  (stripPrefix "bulkId:" text).map scimBulkReferenceName

def ScimBulkOperationRequest.RefersTo (operation : ScimBulkOperationRequest) (name : String) :
    Prop := ∃ text ∈ operation.texts, referenceIn text = some (.ok name)

/-- Some reference of the operation is empty or too long. -/
def ScimBulkOperationRequest.Malformed (operation : ScimBulkOperationRequest) (error : ScimError) :
    Prop := ∃ text ∈ operation.texts, referenceIn text = some (.error error)

/-- The text with the identifier in place of its reference. -/
def substituted (bulkReferences : BulkReferences) (text : String) : String :=
  match referenceIn text with
  | some (.ok name) => ((bulkReferences.lookup name).map Uuid.hyphenated).getD text
  | _ => text

-- the collecting traversal

theorem scimCollectBulkTextReferences_eq (text : String) :
    scimCollectBulkTextReferences text = match referenceIn text with
      | some (.ok name) => .ok [name]
      | some (.error error) => .error error
      | none => .ok [] := by
  unfold scimCollectBulkTextReferences referenceIn
  cases stripPrefix "bulkId:" text with
  | none => rfl
  | some raw =>
    dsimp only [Option.map_some]
    cases scimBulkReferenceName raw <;> rfl

/-- What a traversal of several texts collects. -/
def collectTexts (texts : List String) : ScimResult (List String) := do
  return (← texts.mapM scimCollectBulkTextReferences).flatten

theorem collectTexts_append (texts texts' : List String) :
    collectTexts (texts ++ texts') = do
      return (← collectTexts texts) ++ (← collectTexts texts') := by
  simp [collectTexts, List.mapM_append]

mutual

theorem scimCollectBulkValueReferences_eq (value : Json) :
    scimCollectBulkValueReferences value = collectTexts value.texts := by
  match value with
  | .string text =>
    simp [scimCollectBulkValueReferences, Json.texts, collectTexts]
  | .array values =>
    exact scimCollectBulkArrayReferences_eq values
  | .object members =>
    exact scimCollectBulkObjectReferences_eq members
  | .null | .bool _ | .number _ => rfl

theorem scimCollectBulkArrayReferences_eq (values : List Json) :
    scimCollectBulkArrayReferences values = collectTexts (Json.arrayTexts values) := by
  match values with
  | [] => rfl
  | value :: values =>
    rw [scimCollectBulkArrayReferences, Json.arrayTexts, collectTexts_append,
      scimCollectBulkValueReferences_eq value, scimCollectBulkArrayReferences_eq values]

theorem scimCollectBulkObjectReferences_eq (members : List (String × Json)) :
    scimCollectBulkObjectReferences members = collectTexts (Json.objectTexts members) := by
  match members with
  | [] => rfl
  | (_, value) :: members =>
    rw [scimCollectBulkObjectReferences, Json.objectTexts, collectTexts_append,
      scimCollectBulkValueReferences_eq value, scimCollectBulkObjectReferences_eq members]

end

theorem scimBulkReferenceDependencies_eq (operation : ScimBulkOperationRequest) :
    scimBulkReferenceDependencies operation = collectTexts operation.texts := by
  unfold scimBulkReferenceDependencies ScimBulkOperationRequest.texts
  cases operation.data with
  | none => simp [scimCollectBulkPathReferences, collectTexts]
  | some data =>
    simp only [scimCollectBulkValueReferences_eq, Option.map_some, Option.getD_some,
      collectTexts_append]
    rfl

/-- A traversal that succeeds has collected the names in the texts. -/
theorem mem_collectTexts {texts names : List String} (h : collectTexts texts = .ok names)
    {name : String} : name ∈ names ↔ ∃ text ∈ texts, referenceIn text = some (.ok name) := by
  induction texts generalizing names with
  | nil =>
    cases h
    simp
  | cons text texts ih =>
    rw [← List.singleton_append, collectTexts_append, except_bind_eq_ok] at h
    obtain ⟨first, hfirst, h⟩ := h
    obtain ⟨rest, hrest, h⟩ := except_bind_eq_ok.mp h
    cases h
    have hone : name ∈ first ↔ referenceIn text = some (.ok name) := by
      simp only [collectTexts, List.mapM_cons, scimCollectBulkTextReferences_eq] at hfirst
      cases href : referenceIn text with
      | none =>
        rw [href] at hfirst
        cases hfirst
        simp
      | some reference =>
        rw [href] at hfirst
        cases reference with
        | error error => cases hfirst
        | ok name' =>
          cases hfirst
          simp [eq_comm]
    rw [List.mem_append, hone, ih hrest]
    simp

/-- A traversal fails exactly at a malformed reference. -/
theorem collectTexts_error {texts : List String} {error : ScimError}
    (h : collectTexts texts = .error error) :
    ∃ text ∈ texts, referenceIn text = some (.error error) := by
  induction texts with
  | nil => cases h
  | cons text texts ih =>
    rw [← List.singleton_append, collectTexts_append] at h
    cases hfirst : collectTexts [text] with
    | ok first =>
      rw [hfirst] at h
      cases hrest : collectTexts texts with
      | ok rest =>
        rw [hrest] at h
        cases h
      | error error' =>
        rw [hrest] at h
        cases h
        obtain ⟨text', htext, href⟩ := ih hrest
        exact ⟨text', .tail _ htext, href⟩
    | error error' =>
      rw [hfirst] at h
      cases h
      refine ⟨text, .head _, ?_⟩
      simp only [collectTexts, List.mapM_cons, scimCollectBulkTextReferences_eq] at hfirst
      cases href : referenceIn text with
      | none =>
        rw [href] at hfirst
        cases hfirst
      | some reference =>
        rw [href] at hfirst
        cases reference with
        | error error => cases hfirst; rfl
        | ok name' => cases hfirst

/-- A traversal does not get past a malformed reference. -/
theorem collectTexts_of_malformed {texts : List String} {text : String} {error : ScimError}
    (htext : text ∈ texts) (href : referenceIn text = some (.error error)) :
    ∃ error', collectTexts texts = .error error' := by
  obtain ⟨before, after, rfl⟩ := List.append_of_mem htext
  have hone : collectTexts [text] = .error error := by
    simp only [collectTexts, List.mapM_cons, scimCollectBulkTextReferences_eq, href]
    rfl
  rw [collectTexts_append, ← List.singleton_append, collectTexts_append, hone]
  cases collectTexts before with
  | ok names => exact ⟨error, rfl⟩
  | error error' => exact ⟨error', rfl⟩

theorem exists_malformed {operation : ScimBulkOperationRequest} {error : ScimError}
    (h : scimBulkReferenceDependencies operation = .error error) : operation.Malformed error :=
  collectTexts_error (scimBulkReferenceDependencies_eq operation ▸ h)

theorem scimBulkReferenceDependencies_of_malformed {operation : ScimBulkOperationRequest}
    {error : ScimError} (h : operation.Malformed error) :
    ∃ error', scimBulkReferenceDependencies operation = .error error' := by
  obtain ⟨text, htext, href⟩ := h
  rw [scimBulkReferenceDependencies_eq]
  exact collectTexts_of_malformed htext href

theorem mem_scimBulkReferenceDependencies {operation : ScimBulkOperationRequest}
    {dependencies : List String} (h : scimBulkReferenceDependencies operation = .ok dependencies)
    {name : String} : name ∈ dependencies ↔ operation.RefersTo name :=
  mem_collectTexts (scimBulkReferenceDependencies_eq operation ▸ h)

-- the substituting traversal

/-- Every reference in the text has an identifier. -/
def Resolvable (bulkReferences : BulkReferences) (text : String) : Prop :=
  ∀ reference, referenceIn text = some reference →
    ∃ name resourceId, reference = .ok name ∧ bulkReferences.lookup name = some resourceId

section resolve

variable {bulkReferences : BulkReferences}

theorem scimResolveBulkText_of_resolvable {text : String} (h : Resolvable bulkReferences text) :
    scimResolveBulkText bulkReferences text = .ok (substituted bulkReferences text) := by
  unfold scimResolveBulkText substituted
  cases hraw : stripPrefix "bulkId:" text with
  | none => simp [referenceIn, hraw, pure, Except.pure]
  | some raw =>
    have href : referenceIn text = some (scimBulkReferenceName raw) := by simp [referenceIn, hraw]
    obtain ⟨name, resourceId, hname, hlookup⟩ := h _ href
    rw [href, hname]
    simp [scimBulkReferenceId, hname, hlookup, Bind.bind, Except.bind, pure, Except.pure]

theorem scimBulkReferenceId_of_none {raw name : String}
    (hname : scimBulkReferenceName raw = .ok name) (hlookup : bulkReferences.lookup name = none) :
    ∃ error, scimBulkReferenceId raw bulkReferences = .error error := by
  unfold scimBulkReferenceId
  simp [hname, hlookup, Bind.bind, Except.bind]

theorem scimResolveBulkText_of_not_resolvable {text : String} (h : ¬Resolvable bulkReferences text) :
    ∃ error, scimResolveBulkText bulkReferences text = .error error := by
  unfold Resolvable at h
  push Not at h
  obtain ⟨reference, href, hnone⟩ := h
  obtain ⟨raw, hraw, rfl⟩ := Option.map_eq_some_iff.mp href
  unfold scimResolveBulkText
  rw [hraw]
  cases hname : scimBulkReferenceName raw with
  | error error =>
    exact ⟨error, by simp [scimBulkReferenceId, hname, Bind.bind, Except.bind]⟩
  | ok name =>
    cases hlookup : bulkReferences.lookup name with
    | some resourceId => exact absurd hlookup (hnone name resourceId hname)
    | none =>
      obtain ⟨error, herror⟩ := scimBulkReferenceId_of_none hname hlookup
      exact ⟨error, by simp only [herror]; rfl⟩

theorem mapM_resolve_of_resolvable {texts : List String}
    (h : ∀ text ∈ texts, Resolvable bulkReferences text) :
    texts.mapM (scimResolveBulkText bulkReferences) =
      .ok (texts.map (substituted bulkReferences)) := by
  induction texts with
  | nil => rfl
  | cons text texts ih =>
    rw [List.mapM_cons, scimResolveBulkText_of_resolvable (h text (.head _)),
      ih fun text' htext => h text' (.tail _ htext)]
    rfl

theorem mapM_resolve_of_not_resolvable {texts : List String}
    (h : ∃ text ∈ texts, ¬Resolvable bulkReferences text) :
    ∃ error, texts.mapM (scimResolveBulkText bulkReferences) = .error error := by
  induction texts with
  | nil => simp at h
  | cons text texts ih =>
    rw [List.mapM_cons]
    by_cases hfirst : Resolvable bulkReferences text
    · rw [scimResolveBulkText_of_resolvable hfirst]
      obtain ⟨text', htext, hnot⟩ := h
      rcases List.mem_cons.mp htext with rfl | htext
      · exact absurd hfirst hnot
      · obtain ⟨error, herror⟩ := ih ⟨text', htext, hnot⟩
        exact ⟨error, by rw [herror]; rfl⟩
    · obtain ⟨error, herror⟩ := scimResolveBulkText_of_not_resolvable hfirst
      exact ⟨error, by rw [herror]; rfl⟩

theorem scimResolveBulkPathReferences_of_resolvable {path : String}
    (h : ∀ text ∈ splitAt '/' path, Resolvable bulkReferences text) :
    scimResolveBulkPathReferences path bulkReferences =
      .ok ("/".intercalate ((splitAt '/' path).map (substituted bulkReferences))) := by
  rw [scimResolveBulkPathReferences, mapM_resolve_of_resolvable h]
  rfl

mutual

theorem scimResolveBulkValueReferences_of_resolvable (value : Json)
    (h : ∀ text ∈ value.texts, Resolvable bulkReferences text) :
    scimResolveBulkValueReferences bulkReferences value =
      .ok (value.mapTexts (substituted bulkReferences)) := by
  match value with
  | .string text =>
    rw [scimResolveBulkValueReferences,
      scimResolveBulkText_of_resolvable (h text (by simp [Json.texts]))]
    rfl
  | .array values =>
    rw [scimResolveBulkValueReferences, scimResolveBulkArrayReferences_of_resolvable values h]
    rfl
  | .object members =>
    rw [scimResolveBulkValueReferences, scimResolveBulkObjectReferences_of_resolvable members h]
    rfl
  | .null | .bool _ | .number _ => rfl

theorem scimResolveBulkArrayReferences_of_resolvable (values : List Json)
    (h : ∀ text ∈ Json.arrayTexts values, Resolvable bulkReferences text) :
    scimResolveBulkArrayReferences bulkReferences values =
      .ok (Json.mapArrayTexts (substituted bulkReferences) values) := by
  match values with
  | [] => rfl
  | value :: values =>
    rw [Json.arrayTexts, List.forall_mem_append] at h
    rw [scimResolveBulkArrayReferences, scimResolveBulkValueReferences_of_resolvable value h.1,
      scimResolveBulkArrayReferences_of_resolvable values h.2]
    rfl

theorem scimResolveBulkObjectReferences_of_resolvable (members : List (String × Json))
    (h : ∀ text ∈ Json.objectTexts members, Resolvable bulkReferences text) :
    scimResolveBulkObjectReferences bulkReferences members =
      .ok (Json.mapObjectTexts (substituted bulkReferences) members) := by
  match members with
  | [] => rfl
  | (_, value) :: members =>
    rw [Json.objectTexts, List.forall_mem_append] at h
    rw [scimResolveBulkObjectReferences, scimResolveBulkValueReferences_of_resolvable value h.1,
      scimResolveBulkObjectReferences_of_resolvable members h.2]
    rfl

end

mutual

theorem scimResolveBulkValueReferences_of_not_resolvable (value : Json)
    (h : ∃ text ∈ value.texts, ¬Resolvable bulkReferences text) :
    ∃ error, scimResolveBulkValueReferences bulkReferences value = .error error := by
  match value with
  | .string text =>
    obtain ⟨text', htext, hnot⟩ := h
    rw [Json.texts, List.mem_singleton] at htext
    obtain ⟨error, herror⟩ := scimResolveBulkText_of_not_resolvable (htext ▸ hnot)
    exact ⟨error, by rw [scimResolveBulkValueReferences, herror]; rfl⟩
  | .array values =>
    obtain ⟨error, herror⟩ := scimResolveBulkArrayReferences_of_not_resolvable values h
    exact ⟨error, by rw [scimResolveBulkValueReferences, herror]; rfl⟩
  | .object members =>
    obtain ⟨error, herror⟩ := scimResolveBulkObjectReferences_of_not_resolvable members h
    exact ⟨error, by rw [scimResolveBulkValueReferences, herror]; rfl⟩
  | .null | .bool _ | .number _ => simp [Json.texts] at h

theorem scimResolveBulkArrayReferences_of_not_resolvable (values : List Json)
    (h : ∃ text ∈ Json.arrayTexts values, ¬Resolvable bulkReferences text) :
    ∃ error, scimResolveBulkArrayReferences bulkReferences values = .error error := by
  match values with
  | [] => simp [Json.arrayTexts] at h
  | value :: values =>
    rw [scimResolveBulkArrayReferences]
    by_cases hfirst : ∀ text ∈ value.texts, Resolvable bulkReferences text
    · obtain ⟨error, herror⟩ := scimResolveBulkArrayReferences_of_not_resolvable values (by
        obtain ⟨text, htext, hnot⟩ := h
        rcases List.mem_append.mp htext with htext | htext
        · exact absurd (hfirst text htext) hnot
        · exact ⟨text, htext, hnot⟩)
      exact ⟨error, by
        rw [scimResolveBulkValueReferences_of_resolvable value hfirst, herror]; rfl⟩
    · push Not at hfirst
      obtain ⟨error, herror⟩ := scimResolveBulkValueReferences_of_not_resolvable value hfirst
      exact ⟨error, by rw [herror]; rfl⟩

theorem scimResolveBulkObjectReferences_of_not_resolvable (members : List (String × Json))
    (h : ∃ text ∈ Json.objectTexts members, ¬Resolvable bulkReferences text) :
    ∃ error, scimResolveBulkObjectReferences bulkReferences members = .error error := by
  match members with
  | [] => simp [Json.objectTexts] at h
  | (_, value) :: members =>
    rw [scimResolveBulkObjectReferences]
    by_cases hfirst : ∀ text ∈ value.texts, Resolvable bulkReferences text
    · obtain ⟨error, herror⟩ := scimResolveBulkObjectReferences_of_not_resolvable members (by
        obtain ⟨text, htext, hnot⟩ := h
        rcases List.mem_append.mp htext with htext | htext
        · exact absurd (hfirst text htext) hnot
        · exact ⟨text, htext, hnot⟩)
      exact ⟨error, by
        rw [scimResolveBulkValueReferences_of_resolvable value hfirst, herror]; rfl⟩
    · push Not at hfirst
      obtain ⟨error, herror⟩ := scimResolveBulkValueReferences_of_not_resolvable value hfirst
      exact ⟨error, by rw [herror]; rfl⟩

end

end resolve

-- the execution of one operation

theorem ofExcept_bind_fails {E ε α β : Type} {R : E → Type} {x : Except ε α}
    {f : α → Prog E R ε β} (h : ∀ a, x = .ok a → ∃ error, f a = .fail error) :
    ∃ error, (Prog.ofExcept x >>= f) = .fail error := by
  cases x with
  | ok a => exact h a rfl
  | error error => exact ⟨error, rfl⟩

/-- The operation that an execution works on has identifiers in place of all its
    references, and nothing else changed. -/
def Sees (operation : ScimBulkOperationRequest) (bulkReferences : BulkReferences) : Prop :=
  scimResolveBulkPathReferences operation.path bulkReferences =
      .ok ("/".intercalate ((splitAt '/' operation.path).map (substituted bulkReferences))) ∧
    ∀ data, operation.data = some data →
      scimResolveBulkValueReferences bulkReferences data =
        .ok (data.mapTexts (substituted bulkReferences))

theorem sees_of_lookup {operation : ScimBulkOperationRequest} {bulkReferences : BulkReferences}
    (hwell : ∀ error, ¬operation.Malformed error)
    (h : ∀ name, operation.RefersTo name → (bulkReferences.lookup name).isSome) :
    Sees operation bulkReferences := by
  have hall : ∀ text ∈ operation.texts, Resolvable bulkReferences text := by
    rintro text htext (error | name) href
    · exact absurd ⟨text, htext, href⟩ (hwell error)
    · obtain ⟨resourceId, hlookup⟩ := Option.isSome_iff_exists.mp (h name ⟨text, htext, href⟩)
      exact ⟨name, resourceId, rfl, hlookup⟩
  rw [ScimBulkOperationRequest.texts, List.forall_mem_append] at hall
  refine ⟨scimResolveBulkPathReferences_of_resolvable hall.1, fun data hdata => ?_⟩
  rw [hdata, Option.map_some, Option.getD_some] at hall
  exact scimResolveBulkValueReferences_of_resolvable data hall.2

section execution

variable {P : Primitives} {state : AppState} {headers : RequestHeaders}
  {operation : ScimBulkOperationRequest} {bulkReferences : BulkReferences}

theorem scimBulkData_of_not_resolvable {α : Type} {fromValue : Json → Option α} {name : String}
    {data : Json} (hdata : operation.data = some data)
    (h : ∃ text ∈ data.texts, ¬Resolvable bulkReferences text) (payload : α) :
    scimBulkData fromValue operation name bulkReferences ≠ .ok payload := by
  obtain ⟨error, herror⟩ := scimResolveBulkValueReferences_of_not_resolvable data h
  rw [scimBulkData, hdata]
  simp only [herror]
  nofun

/-- An operation with a reference that is not resolved is refused before it calls
    anything. -/
theorem scimExecuteBulkOperation_of_not_resolvable
    (h : ∃ text ∈ operation.texts, ¬Resolvable bulkReferences text) :
    ∃ error, scimExecuteBulkOperation P state headers operation bulkReferences = .fail error := by
  refine ofExcept_bind_fails fun method _ => ofExcept_bind_fails fun resolvedPath hpath =>
    ofExcept_bind_fails fun path _ => ?_
  -- the path is resolved, so the reference is in the data
  obtain ⟨data, hdata, hnot⟩ : ∃ data, operation.data = some data ∧
      ∃ text ∈ data.texts, ¬Resolvable bulkReferences text := by
    obtain ⟨text, htext, hnot⟩ := h
    rcases List.mem_append.mp htext with htext | htext
    · obtain ⟨error, herror⟩ := mapM_resolve_of_not_resolvable ⟨text, htext, hnot⟩
      rw [scimResolveBulkPathReferences, herror] at hpath
      cases hpath
    · cases hdata : operation.data with
      | none => simp [hdata] at htext
      | some data => exact ⟨data, rfl, text, by simpa [hdata] using htext, hnot⟩
  have hnoData : ∀ u, scimBulkExpectNoData operation ≠ .ok u := by
    simp [scimBulkExpectNoData, hdata]
  cases method <;> cases path <;>
    first
    | exact ⟨_, rfl⟩
    | exact ofExcept_bind_fails fun u hu => (hnoData u hu).elim
    | exact ofExcept_bind_fails fun _ hpayload =>
        (scimBulkData_of_not_resolvable hdata hnot _ hpayload).elim
    | exact ofExcept_bind_fails fun _ _ => ofExcept_bind_fails fun _ hpayload =>
        (scimBulkData_of_not_resolvable hdata hnot _ hpayload).elim

theorem scimExecuteBulkOperation_of_lookup {name : String} (hrefers : operation.RefersTo name)
    (hlookup : bulkReferences.lookup name = none) :
    ∃ error, scimExecuteBulkOperation P state headers operation bulkReferences = .fail error := by
  obtain ⟨text, htext, href⟩ := hrefers
  refine scimExecuteBulkOperation_of_not_resolvable ⟨text, htext, fun hres => ?_⟩
  obtain ⟨name', resourceId, hname, hsome⟩ := hres _ href
  cases hname
  rw [hlookup] at hsome
  cases hsome

end execution

end CairnId
