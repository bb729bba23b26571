import CairnId.Http.ScimProjection

/-!
# What a projection leaves of a resource

A projection taken attribute by attribute: what it leaves of the value of each
attribute depends only on which paths are listed.

## Main definitions

* `RenderedMap` — the shape of the resources that are projected
* `included`, `excluded` — what is left of an attribute

## Main results

* `shows_include`, `shows_exclude` — the attributes after a projection
-/

namespace CairnId

open SortedMap (Sorted)

theorem get?_object (members : JsonMap) (key : String) :
    (Json.object members).get? key = SortedMap.get key members := rfl

-- resources

/-- A value of an attribute: a text, a truth value, an object or a list of objects. -/
inductive RenderedValue : Json → Prop where
  | string (text : String) : RenderedValue (.string text)
  | bool (b : Bool) : RenderedValue (.bool b)
  | object {members : JsonMap} (hsorted : Sorted members) (hne : members ≠ []) :
      RenderedValue (.object members)
  | array {items : List JsonMap} (hitems : ∀ members ∈ items, Sorted members ∧ members ≠ []) :
      RenderedValue (.array (items.map .object))

/-- Besides `schemas` and `id`, which are always returned. -/
structure RenderedMap (resource : JsonMap) : Prop where
  sorted : Sorted resource
  value : ∀ key v, SortedMap.get key resource = some v → key ≠ "schemas" → key ≠ "id" →
    RenderedValue v

-- what is left of a value

def keepMembers (keep : String → Bool) (members : JsonMap) : JsonMap :=
  members.filter fun m => keep m.1

/-- The object with the members that are kept, and the items of a list likewise, if
    anything of them is left. -/
def restrict (keep : String → Bool) : Json → Option Json
  | .object members =>
    if keepMembers keep members = [] then none else some (.object (keepMembers keep members))
  | .array items =>
    let items := items.map fun item => match item with
      | .object members => Json.object (keepMembers keep members)
      | item => item
    if items.all Json.isEmptyObject then none else some (.array items)
  | _ => none

/-- What is left of the attribute when the listed paths are included. -/
def included (paths : List ScimProjectionPath) (key : String) (value : Json) : Option Json :=
  if key = "schemas" ∨ key = "id" ∨ ⟨key, none⟩ ∈ paths then some value
  else restrict (fun sub => ⟨key, some sub⟩ ∈ paths) value

/-- What is left of the attribute when the listed paths are excluded. -/
def excluded (paths : List ScimProjectionPath) (key : String) (value : Json) : Option Json :=
  if key = "schemas" ∨ key = "id" then some value
  else if ⟨key, none⟩ ∈ paths then none
  else if ∀ path ∈ paths, path.top ≠ key then some value
  else match value with
    | .object _ | .array _ => restrict (fun sub => ⟨key, some sub⟩ ∉ paths) value
    | value => some value

/-- The map shows what `f` leaves of each attribute of the resource. -/
structure Shows (resource : JsonMap) (f : String → Json → Option Json) (target : JsonMap) :
    Prop where
  sorted : Sorted target
  entries : ∀ key, SortedMap.get key target = (SortedMap.get key resource).bind (f key)

variable {resource target target' : JsonMap} {paths : List ScimProjectionPath}
  {path : ScimProjectionPath} {f g : String → Json → Option Json}

theorem Shows.unique (h : Shows resource f target) (h' : Shows resource f target') :
    target = target' :=
  h.sorted.ext h'.sorted fun key => by rw [h.entries, h'.entries]

/-- A step that changes the entry of one attribute. -/
theorem Shows.change (h : Shows resource f target) (top : String) (hsorted : Sorted target')
    (hframe : ∀ key, key ≠ top → SortedMap.get key target' = SortedMap.get key target)
    (hothers : ∀ key, key ≠ top → g key = f key)
    (htop : SortedMap.get top target' = (SortedMap.get top resource).bind (g top)) :
    Shows resource g target' := by
  refine ⟨hsorted, fun key => ?_⟩
  by_cases hkey : key = top
  · rw [hkey, htop]
  · rw [hframe key hkey, h.entries, hothers key hkey]

-- members of an object

section Members

variable {members : JsonMap} {keep keep' : String → Bool} {sub : String}

theorem get_keepMembers (key : String) : SortedMap.get key (keepMembers keep members) =
    if keep key then SortedMap.get key members else none :=
  SortedMap.get_filter

theorem sorted_keepMembers (hsorted : Sorted members) : Sorted (keepMembers keep members) :=
  hsorted.filter _

theorem keepMembers_insert_none (hsorted : Sorted members)
    (hkeep : ∀ s, keep' s = (keep s || decide (s = sub)))
    (hget : SortedMap.get sub members = none) :
    keepMembers keep' members = keepMembers keep members := by
  apply (sorted_keepMembers hsorted).ext (sorted_keepMembers hsorted)
  intro key
  rw [get_keepMembers, get_keepMembers, hkeep]
  by_cases hkey : key = sub
  · rw [hkey, hget, ite_self, ite_self]
  · simp [hkey]

/-- An object that keeps one more member. -/
theorem keepMembers_insert {value : Json} (hsorted : Sorted members)
    (hkeep : ∀ s, keep' s = (keep s || decide (s = sub)))
    (hget : SortedMap.get sub members = some value) :
    keepMembers keep' members = SortedMap.insert sub value (keepMembers keep members) := by
  apply (sorted_keepMembers hsorted).ext (sorted_keepMembers hsorted).insert
  intro key
  rw [SortedMap.get_insert, get_keepMembers, get_keepMembers, hkeep]
  by_cases hkey : sub = key
  · rw [if_pos hkey, ← hkey, hget]
    simp
  · simp [hkey, Ne.symm hkey]

/-- An object that keeps one member fewer. -/
theorem keepMembers_erase (hkeep : ∀ s, keep' s = (keep s && decide (s ≠ sub))) :
    keepMembers keep' members = SortedMap.erase sub (keepMembers keep members) := by
  unfold SortedMap.erase keepMembers
  rw [List.filter_filter]
  apply List.filter_congr
  intro m _
  rw [hkeep, Bool.and_comm]

theorem keepMembers_all (hkeep : ∀ s, keep s = true) : keepMembers keep members = members :=
  List.filter_eq_self.mpr fun _ _ => hkeep _

end Members

-- items of a list

theorem isEmptyObject_object {members : JsonMap} :
    (Json.object members).isEmptyObject = true ↔ members = [] := by
  cases members with
  | nil => exact iff_of_true rfl rfl
  | cons m members => exact iff_of_false Bool.noConfusion (List.cons_ne_nil _ _)

theorem all_isEmptyObject {items : List JsonMap} :
    (items.map Json.object).all Json.isEmptyObject = true ↔ ∀ members ∈ items, members = [] := by
  rw [List.all_map, List.all_eq_true]
  exact forall₂_congr fun _ _ => isEmptyObject_object

theorem restrict_object (keep : String → Bool) (members : JsonMap) :
    restrict keep (.object members) =
      if keepMembers keep members = [] then none
      else some (.object (keepMembers keep members)) := rfl

theorem restrict_array (keep : String → Bool) (items : List JsonMap) :
    restrict keep (.array (items.map .object)) =
      if ∀ members ∈ items, keepMembers keep members = [] then none
      else some (.array ((items.map (keepMembers keep)).map .object)) := by
  have hitems : ((items.map Json.object).map fun item => match item with
      | .object members => Json.object (keepMembers keep members)
      | item => item) = (items.map (keepMembers keep)).map Json.object := by
    rw [List.map_map, List.map_map]
    rfl
  show (if List.all _ _ = true then none else some _) = _
  rw [hitems]
  refine if_congr ?_ rfl rfl
  rw [all_isEmptyObject]
  simp

-- paths

theorem mem_append_path {key : String} {sub : Option String} :
    ⟨key, sub⟩ ∈ paths ++ [path] ↔ ⟨key, sub⟩ ∈ paths ∨ ⟨key, sub⟩ = path := by
  rw [List.mem_append, List.mem_singleton]

theorem mem_append_other {key : String} {sub : Option String} (hkey : key ≠ path.top) :
    ⟨key, sub⟩ ∈ paths ++ [path] ↔ ⟨key, sub⟩ ∈ paths := by
  rw [mem_append_path]
  refine or_iff_left ?_
  rintro rfl
  exact hkey rfl

theorem included_append_other {key : String} (hkey : key ≠ path.top) :
    included (paths ++ [path]) key = included paths key := by
  funext value
  unfold included
  simp only [mem_append_other hkey]

theorem excluded_append_other {key : String} (hkey : key ≠ path.top) :
    excluded (paths ++ [path]) key = excluded paths key := by
  have hall : (∀ p ∈ paths ++ [path], p.top ≠ key) ↔ ∀ p ∈ paths, p.top ≠ key := by
    simp [or_imp, forall_and, Ne.symm hkey]
  funext value
  unfold excluded
  simp only [mem_append_other hkey, hall]

-- one path included

theorem included_of_listed {key : String} {value : Json}
    (hlisted : key = "schemas" ∨ key = "id" ∨ ⟨key, none⟩ ∈ paths) :
    included paths key value = some value := if_pos hlisted

theorem included_of_unlisted {key : String} {value : Json}
    (hlisted : ¬(key = "schemas" ∨ key = "id" ∨ ⟨key, none⟩ ∈ paths)) :
    included paths key value = restrict (fun sub => ⟨key, some sub⟩ ∈ paths) value :=
  if_neg hlisted

theorem Shows.copyTop (h : Shows resource (included paths) target)
    (hlisted : path.top = "schemas" ∨ path.top = "id" ∨ path.sub = none) :
    Shows resource (included (paths ++ [path]))
      (scimCopyTopAttribute (.object resource) target path.top) := by
  have hwhole : ∀ value, included (paths ++ [path]) path.top value = some value := by
    intro value
    apply included_of_listed
    refine hlisted.imp id (Or.imp id fun hsub => ?_)
    rw [← hsub]
    exact List.mem_append_right _ (List.mem_singleton.mpr rfl)
  unfold scimCopyTopAttribute
  rw [get?_object]
  cases hvalue : SortedMap.get path.top resource with
  | none =>
    refine h.change path.top h.sorted (fun _ _ => rfl) (fun _ hkey => included_append_other hkey) ?_
    rw [h.entries, hvalue]
    rfl
  | some value =>
    refine h.change path.top h.sorted.insert (fun key hkey => ?_)
      (fun _ hkey => included_append_other hkey) ?_
    · rw [SortedMap.get_insert, if_neg (Ne.symm hkey)]
    · rw [SortedMap.get_insert, if_pos rfl, hvalue]
      exact (hwhole value).symm

/-- The sub-attributes that the listed paths include. -/
def keptSubs (paths : List ScimProjectionPath) (top sub : String) : Bool :=
  ⟨top, none⟩ ∈ paths ∨ ⟨top, some sub⟩ ∈ paths

theorem keptSubs_append {top sub : String} (s : String) :
    keptSubs (paths ++ [⟨top, some sub⟩]) top s = (keptSubs paths top s || decide (s = sub)) := by
  unfold keptSubs
  rw [← Bool.decide_or, decide_eq_decide, mem_append_path, mem_append_path]
  simp [or_assoc]

/-- A value of which something is left whenever it is listed. -/
theorem included_eq_restrict {top : String} {value : Json}
    (hreturned : ¬(top = "schemas" ∨ top = "id"))
    (hwhole : ⟨top, none⟩ ∈ paths → restrict (fun _ => true) value = some value) :
    included paths top value = restrict (keptSubs paths top) value := by
  by_cases hlisted : ⟨top, none⟩ ∈ paths
  · have hkept : keptSubs paths top = fun _ => true := by
      funext sub
      exact decide_eq_true (.inl hlisted)
    rw [included_of_listed (.inr (.inr hlisted)), hkept, hwhole hlisted]
  · have hkept : keptSubs paths top = fun sub => decide (⟨top, some sub⟩ ∈ paths) := by
      funext sub
      exact decide_eq_decide.mpr (or_iff_right hlisted)
    rw [hkept, included_of_unlisted]
    rintro (hkey | hkey | hkey)
    · exact hreturned (.inl hkey)
    · exact hreturned (.inr hkey)
    · exact hlisted hkey

theorem restrict_object_all {members : JsonMap} (hne : members ≠ []) :
    restrict (fun _ => true) (.object members) = some (.object members) := by
  rw [restrict_object, keepMembers_all fun _ => rfl, if_neg hne]

theorem map_keepMembers_all (items : List JsonMap) :
    items.map (keepMembers fun _ => true) = items := by
  conv_rhs => rw [← List.map_id items]
  apply List.map_congr_left
  intro members _
  exact keepMembers_all fun _ => rfl

theorem restrict_array_all {items : List JsonMap} (hitems : ∀ members ∈ items, members ≠ [])
    (hne : items ≠ []) :
    restrict (fun _ => true) (.array (items.map .object)) = some (.array (items.map .object)) := by
  rw [restrict_array, map_keepMembers_all, if_neg]
  intro hall
  obtain ⟨members, hmembers⟩ := List.exists_mem_of_ne_nil items hne
  have hempty := hall members hmembers
  rw [keepMembers_all fun _ => rfl] at hempty
  exact hitems members hmembers hempty

-- what the step finds in the target

theorem getD_restrict_object (keep : String → Bool) (members : JsonMap) :
    (restrict keep (.object members)).getD (.object []) = .object (keepMembers keep members) := by
  rw [restrict_object]
  by_cases hempty : keepMembers keep members = []
  · rw [if_pos hempty, hempty]
    rfl
  · rw [if_neg hempty]
    rfl

theorem getD_restrict_array (keep : String → Bool) (items : List JsonMap) :
    (restrict keep (.array (items.map .object))).getD
        (.array (List.replicate items.length (.object []))) =
      .array ((items.map (keepMembers keep)).map .object) := by
  rw [restrict_array]
  by_cases hempty : ∀ members ∈ items, keepMembers keep members = []
  · have hblank : items.map (keepMembers keep) = List.replicate items.length [] :=
      List.map_eq_replicate_iff.mpr hempty
    rw [if_pos hempty, hblank, List.map_replicate]
    rfl
  · rw [if_neg hempty]
    rfl

/-- The item of a list that a further sub-attribute is copied to. -/
theorem scimCopyItem_keepMembers {keep keep' : String → Bool} {sub : String} {members : JsonMap}
    (hsorted : Sorted members) (hkeep : ∀ s, keep' s = (keep s || decide (s = sub))) :
    scimCopyItem sub (.object members) (.object (keepMembers keep members)) =
      .object (keepMembers keep' members) := by
  unfold scimCopyItem
  rw [get?_object]
  cases hget : SortedMap.get sub members with
  | none => rw [keepMembers_insert_none hsorted hkeep hget]
  | some value => rw [keepMembers_insert hsorted hkeep hget]

theorem zipWith_scimCopyItem {keep keep' : String → Bool} {sub : String} {items : List JsonMap}
    (hsorted : ∀ members ∈ items, Sorted members)
    (hkeep : ∀ s, keep' s = (keep s || decide (s = sub))) :
    List.zipWith (scimCopyItem sub) (items.map .object)
      ((items.map (keepMembers keep)).map .object) =
      (items.map (keepMembers keep')).map .object := by
  induction items with
  | nil => rfl
  | cons members items ih =>
    obtain ⟨hmembers, hitems⟩ := List.forall_mem_cons.mp hsorted
    rw [List.map_cons, List.map_cons, List.map_cons, List.map_cons, List.map_cons,
      List.zipWith_cons_cons, scimCopyItem_keepMembers hmembers hkeep, ih hitems]

theorem get_scimRemoveEmptyProjectedArray {top : String} {items : List JsonMap}
    (hentry : SortedMap.get top target = some (.array (items.map .object))) (key : String) :
    SortedMap.get key (scimRemoveEmptyProjectedArray target top) =
      if key = top ∧ ∀ members ∈ items, members = [] then none else SortedMap.get key target := by
  unfold scimRemoveEmptyProjectedArray
  rw [hentry]
  dsimp only
  by_cases hempty : ∀ members ∈ items, members = []
  · rw [if_pos (all_isEmptyObject.mpr hempty), SortedMap.get_erase]
    exact if_congr (and_iff_left hempty).symm rfl rfl
  · rw [if_neg fun hall => hempty (all_isEmptyObject.mp hall), if_neg fun hkey => hempty hkey.2]

theorem sorted_scimRemoveEmptyProjectedArray (h : Sorted target) (top : String) :
    Sorted (scimRemoveEmptyProjectedArray target top) := by
  unfold scimRemoveEmptyProjectedArray
  split
  · split
    · exact h.erase
    · exact h
  · exact h

section CopySub

variable {top sub : String} (hreturned : ¬(top = "schemas" ∨ top = "id"))
include hreturned

theorem scimCopyProjectionPath_sub :
    scimCopyProjectionPath (.object resource) target ⟨top, some sub⟩ =
      match SortedMap.get top resource with
      | some (.object sourceObject) =>
        match SortedMap.get sub sourceObject with
        | none => target
        | some value =>
          match (SortedMap.get top target).getD (.object []) with
          | .object members =>
            SortedMap.insert top (.object (SortedMap.insert sub value members)) target
          | _ => target
      | some (.array sourceArray) =>
        let blank := List.replicate sourceArray.length (Json.object [])
        match (SortedMap.get top target).getD (.array blank) with
        | .array items =>
          let items := if items.length ≠ sourceArray.length then blank else items
          scimRemoveEmptyProjectedArray (SortedMap.insert top
            (.array (List.zipWith (scimCopyItem sub) sourceArray items)) target) top
        | _ => target
      | _ => target := by
  have hpath : ¬(⟨top, some sub⟩ : ScimProjectionPath).isAlwaysReturned = true := by
    simpa [ScimProjectionPath.isAlwaysReturned] using hreturned
  unfold scimCopyProjectionPath
  rw [if_neg hpath]
  rfl

/-- A value that has no attributes of its own. -/
theorem Shows.copySub_leaf {value : Json} (h : Shows resource (included paths) target)
    (hvalue : SortedMap.get top resource = some value)
    (hleaf : (∃ text, value = .string text) ∨ ∃ b, value = .bool b) :
    Shows resource (included (paths ++ [⟨top, some sub⟩]))
      (scimCopyProjectionPath (.object resource) target ⟨top, some sub⟩) := by
  have hstep : scimCopyProjectionPath (.object resource) target ⟨top, some sub⟩ = target := by
    rw [scimCopyProjectionPath_sub hreturned, hvalue]
    rcases hleaf with ⟨text, rfl⟩ | ⟨b, rfl⟩ <;> rfl
  have hnone : ∀ keep, restrict keep value = none := by
    rcases hleaf with ⟨text, rfl⟩ | ⟨b, rfl⟩ <;> exact fun _ => rfl
  rw [hstep]
  refine h.change top h.sorted (fun _ _ => rfl) (fun _ hkey => included_append_other hkey) ?_
  rw [h.entries, hvalue]
  have hlisted : ⟨top, none⟩ ∈ paths ++ [⟨top, some sub⟩] ↔ ⟨top, none⟩ ∈ paths := by
    simp
  unfold included
  simp only [hlisted, hnone, Option.bind_some]

theorem Shows.copySub_object {source : JsonMap} (h : Shows resource (included paths) target)
    (hsource : SortedMap.get top resource = some (.object source))
    (hsorted : Sorted source) (hne : source ≠ []) :
    Shows resource (included (paths ++ [⟨top, some sub⟩]))
      (scimCopyProjectionPath (.object resource) target ⟨top, some sub⟩) := by
  have hkept : ∀ paths, included paths top (.object source) =
      restrict (keptSubs paths top) (.object source) := fun _ =>
    included_eq_restrict hreturned fun _ => restrict_object_all hne
  have hentry : SortedMap.get top target = restrict (keptSubs paths top) (.object source) := by
    rw [h.entries, hsource, Option.bind_some, hkept]
  rw [scimCopyProjectionPath_sub hreturned, hsource]
  dsimp only
  cases hsub : SortedMap.get sub source with
  | none =>
    refine h.change top h.sorted (fun _ _ => rfl) (fun _ hkey => included_append_other hkey) ?_
    rw [hentry, hsource, Option.bind_some, hkept, restrict_object, restrict_object,
      keepMembers_insert_none hsorted keptSubs_append hsub]
  | some value =>
    rw [hentry, getD_restrict_object]
    refine h.change top h.sorted.insert (fun key hkey => ?_)
      (fun _ hkey => included_append_other hkey) ?_
    · rw [SortedMap.get_insert, if_neg (Ne.symm hkey)]
    · rw [SortedMap.get_insert, if_pos rfl, hsource, Option.bind_some, hkept, restrict_object,
        keepMembers_insert hsorted keptSubs_append hsub, if_neg (SortedMap.insert_ne_nil _ _ _)]

theorem Shows.copySub_array {source : List JsonMap} (h : Shows resource (included paths) target)
    (hsource : SortedMap.get top resource = some (.array (source.map .object)))
    (hitems : ∀ members ∈ source, Sorted members ∧ members ≠ [])
    (hgood : ⟨top, none⟩ ∈ paths → source ≠ []) :
    Shows resource (included (paths ++ [⟨top, some sub⟩]))
      (scimCopyProjectionPath (.object resource) target ⟨top, some sub⟩) := by
  have hkept : included paths top (.array (source.map .object)) =
      restrict (keptSubs paths top) (.array (source.map .object)) :=
    included_eq_restrict hreturned fun hlisted =>
      restrict_array_all (fun members hmembers => (hitems members hmembers).2) (hgood hlisted)
  have hkept' : included (paths ++ [⟨top, some sub⟩]) top (.array (source.map .object)) =
      restrict (keptSubs (paths ++ [⟨top, some sub⟩]) top) (.array (source.map .object)) := by
    refine included_eq_restrict hreturned fun hlisted =>
      restrict_array_all (fun members hmembers => (hitems members hmembers).2) (hgood ?_)
    simpa using hlisted
  have hentry : (SortedMap.get top target).getD
      (.array (List.replicate (source.map Json.object).length (.object []))) =
      .array ((source.map (keepMembers (keptSubs paths top))).map .object) := by
    rw [h.entries, hsource, Option.bind_some, hkept, List.length_map, getD_restrict_array]
  rw [scimCopyProjectionPath_sub hreturned, hsource]
  dsimp only
  rw [hentry]
  dsimp only
  rw [if_neg (not_not.mpr (by simp)), zipWith_scimCopyItem
    (fun members hmembers => (hitems members hmembers).1) keptSubs_append]
  have hinserted : SortedMap.get top (SortedMap.insert top (.array
      ((source.map (keepMembers (keptSubs (paths ++ [⟨top, some sub⟩]) top))).map .object)) target) =
      some (.array ((source.map (keepMembers (keptSubs (paths ++ [⟨top, some sub⟩]) top))).map
        .object)) := by
    rw [SortedMap.get_insert, if_pos rfl]
  have hget := get_scimRemoveEmptyProjectedArray hinserted
  refine h.change top (sorted_scimRemoveEmptyProjectedArray h.sorted.insert top) (fun key hkey => ?_)
    (fun _ hkey => included_append_other hkey) ?_
  · rw [hget, if_neg fun hboth => hkey hboth.1, SortedMap.get_insert, if_neg (Ne.symm hkey)]
  · rw [hget, hsource, Option.bind_some, hkept', restrict_array, SortedMap.get_insert, if_pos rfl]
    refine if_congr ?_ rfl rfl
    simp

end CopySub

/-- A list without items that is listed itself and by a sub-attribute. -/
def EmptyListTwice (resource : Json) (paths : List ScimProjectionPath) : Prop :=
  ∃ top, top ≠ "schemas" ∧ top ≠ "id" ∧ resource.get? top = some (.array []) ∧
    ⟨top, none⟩ ∈ paths ∧ ∃ sub, ⟨top, some sub⟩ ∈ paths

theorem Shows.copy (hrendered : RenderedMap resource) (h : Shows resource (included paths) target)
    (hgood : ¬EmptyListTwice (.object resource) (paths ++ [path])) :
    Shows resource (included (paths ++ [path]))
      (scimCopyProjectionPath (.object resource) target path) := by
  obtain ⟨top, sub⟩ := path
  by_cases hreturned : top = "schemas" ∨ top = "id"
  · have hpath : (⟨top, sub⟩ : ScimProjectionPath).isAlwaysReturned = true := by
      simpa [ScimProjectionPath.isAlwaysReturned] using hreturned
    unfold scimCopyProjectionPath
    rw [if_pos hpath]
    exact h.copyTop (hreturned.imp id .inl)
  · cases sub with
    | none =>
      have hpath : ¬(⟨top, none⟩ : ScimProjectionPath).isAlwaysReturned = true := by
        simpa [ScimProjectionPath.isAlwaysReturned] using hreturned
      unfold scimCopyProjectionPath
      rw [if_neg hpath]
      exact h.copyTop (.inr (.inr rfl))
    | some sub =>
      obtain ⟨hschemas, hid⟩ := not_or.mp hreturned
      cases hvalue : SortedMap.get top resource with
      | none =>
        rw [scimCopyProjectionPath_sub hreturned, hvalue]
        refine h.change top h.sorted (fun _ _ => rfl) (fun _ hkey => included_append_other hkey) ?_
        rw [h.entries, hvalue]
        rfl
      | some value =>
        cases hrendered.value top value hvalue hschemas hid with
        | string text => exact h.copySub_leaf hreturned hvalue (.inl ⟨text, rfl⟩)
        | bool b => exact h.copySub_leaf hreturned hvalue (.inr ⟨b, rfl⟩)
        | object hsorted hne => exact h.copySub_object hreturned hvalue hsorted hne
        | array hitems =>
          refine h.copySub_array hreturned hvalue hitems fun hlisted hempty => hgood ?_
          refine ⟨top, hschemas, hid, ?_, List.mem_append_left _ hlisted, sub, ?_⟩
          · rw [get?_object, hvalue, hempty]
            rfl
          · exact List.mem_append_right _ (List.mem_singleton.mpr rfl)

/-- The paths copied one after another. -/
theorem Shows.copyAll (hrendered : RenderedMap resource) {rest : List ScimProjectionPath}
    (h : Shows resource (included paths) target)
    (hgood : ¬EmptyListTwice (.object resource) (paths ++ rest)) :
    Shows resource (included (paths ++ rest))
      (rest.foldl (scimCopyProjectionPath (.object resource)) target) := by
  induction rest generalizing paths target with
  | nil =>
    rw [List.append_nil]
    exact h
  | cons path rest ih =>
    have hlist : paths ++ path :: rest = (paths ++ [path]) ++ rest := by
      rw [List.append_assoc, List.singleton_append]
    rw [hlist] at hgood ⊢
    refine ih (h.copy hrendered fun htwice => hgood ?_) hgood
    obtain ⟨top, hschemas, hid, hvalue, hwhole, sub, hsub⟩ := htwice
    exact ⟨top, hschemas, hid, hvalue, List.mem_append_left _ hwhole, sub,
      List.mem_append_left _ hsub⟩

/-- Nothing is left of a value of which nothing is kept. -/
theorem RenderedValue.restrict_none {value : Json} (h : RenderedValue value) :
    restrict (fun _ => false) value = none := by
  have hmembers : ∀ members : JsonMap, keepMembers (fun _ => false) members = [] := fun _ =>
    List.filter_eq_nil_iff.mpr fun _ _ => Bool.false_ne_true
  cases h with
  | string text => rfl
  | bool b => rfl
  | object hsorted hne => rw [restrict_object, if_pos (hmembers _)]
  | array hitems => rw [restrict_array, if_pos fun members _ => hmembers members]

theorem get_scimCopyTopAttribute (attr key : String) :
    SortedMap.get key (scimCopyTopAttribute (.object resource) target attr) =
      if attr = key then (SortedMap.get key resource).or (SortedMap.get key target)
      else SortedMap.get key target := by
  unfold scimCopyTopAttribute
  rw [get?_object]
  by_cases hkey : attr = key
  · subst hkey
    cases hvalue : SortedMap.get attr resource with
    | none => rw [if_pos rfl, Option.none_or]
    | some value => rw [if_pos rfl, SortedMap.get_insert, if_pos rfl, Option.some_or]
  · cases hvalue : SortedMap.get attr resource with
    | none => rw [if_neg hkey]
    | some value => rw [if_neg hkey, SortedMap.get_insert, if_neg hkey]

theorem sorted_scimCopyTopAttribute (h : Sorted target) (source : Json) (attr : String) :
    Sorted (scimCopyTopAttribute source target attr) := by
  unfold scimCopyTopAttribute
  split
  · exact h.insert
  · exact h

/-- What is returned whatever is asked for. -/
theorem shows_returned (hrendered : RenderedMap resource) :
    Shows resource (included [])
      (scimCopyTopAttribute (.object resource)
        (scimCopyTopAttribute (.object resource) [] "schemas") "id") := by
  refine ⟨sorted_scimCopyTopAttribute (sorted_scimCopyTopAttribute .nil _ _) _ _, fun key => ?_⟩
  rw [get_scimCopyTopAttribute, get_scimCopyTopAttribute, SortedMap.get_nil, Option.or_none]
  by_cases hreturned : key = "schemas" ∨ key = "id"
  · have hwhole : ∀ value, included [] key value = some value := fun value =>
      included_of_listed (hreturned.imp id .inl)
    have hbind : (SortedMap.get key resource).bind (included [] key) =
        SortedMap.get key resource := by
      rw [funext hwhole]
      exact Option.bind_fun_some _
    rw [hbind]
    rcases hreturned with rfl | rfl
    · rw [if_neg (by decide), if_pos rfl]
    · rw [if_pos rfl, if_neg (by decide), Option.or_none]
  · obtain ⟨hschemas, hid⟩ := not_or.mp hreturned
    rw [if_neg (Ne.symm hid), if_neg (Ne.symm hschemas)]
    cases hvalue : SortedMap.get key resource with
    | none => rfl
    | some value =>
      have hnone := (hrendered.value key value hvalue hschemas hid).restrict_none
      rw [Option.bind_some, included_of_unlisted]
      · simpa using hnone.symm
      · rintro (hkey | hkey | hkey)
        · exact hschemas hkey
        · exact hid hkey
        · cases hkey

/-- The attributes after an inclusion. -/
theorem shows_include (hrendered : RenderedMap resource) (hgood : ¬EmptyListTwice (.object resource) paths) :
    ∃ result, scimIncludeProjection (.object resource) paths = .object result ∧
      Shows resource (included paths) result :=
  ⟨_, rfl, (shows_returned hrendered).copyAll hrendered hgood⟩

-- one path excluded

/-- The sub-attributes that the listed paths do not exclude. -/
def keptWithout (paths : List ScimProjectionPath) (top sub : String) : Bool :=
  ⟨top, none⟩ ∉ paths ∧ ⟨top, some sub⟩ ∉ paths

theorem keptWithout_append {top sub : String} (s : String) :
    keptWithout (paths ++ [⟨top, some sub⟩]) top s =
      (keptWithout paths top s && decide (s ≠ sub)) := by
  unfold keptWithout
  rw [← Bool.decide_and, decide_eq_decide, mem_append_path, mem_append_path]
  simp [and_assoc]

def Mentions (paths : List ScimProjectionPath) (top : String) : Prop := ∃ path ∈ paths, path.top = top

section RemoveSub

variable {top sub : String} {members : JsonMap} {items : List JsonMap}
  (hreturned : ¬(top = "schemas" ∨ top = "id"))

theorem excluded_of_unmentioned {value : Json} (hmention : ¬Mentions paths top) :
    excluded paths top value = some value := by
  have hnone : ∀ path ∈ paths, path.top ≠ top := fun path hpath htop =>
    hmention ⟨path, hpath, htop⟩
  have hwhole : ⟨top, none⟩ ∉ paths := fun hlisted => hnone _ hlisted rfl
  unfold excluded
  rw [if_neg hwhole, if_pos hnone, ite_self]

theorem keptWithout_of_unmentioned (hmention : ¬Mentions paths top) :
    keptWithout paths top = fun _ => true := by
  funext sub
  apply decide_eq_true
  exact ⟨fun hlisted => hmention ⟨_, hlisted, rfl⟩, fun hlisted => hmention ⟨_, hlisted, rfl⟩⟩

theorem mentions_append : Mentions (paths ++ [⟨top, some sub⟩]) top :=
  ⟨_, List.mem_append_right _ (List.mem_singleton.mpr rfl), rfl⟩

include hreturned

theorem excluded_of_mentioned {value : Json} (hvalue : RenderedValue value)
    (hcontainer : (∃ members, value = .object members) ∨ ∃ items, value = .array items)
    (hmention : Mentions paths top) :
    excluded paths top value = restrict (keptWithout paths top) value := by
  have hsome : ¬∀ path ∈ paths, path.top ≠ top := by
    obtain ⟨path, hpath, htop⟩ := hmention
    exact fun hnone => hnone path hpath htop
  unfold excluded
  rw [if_neg hreturned]
  by_cases hwhole : ⟨top, none⟩ ∈ paths
  · have hkept : keptWithout paths top = fun _ => false := by
      funext sub
      exact decide_eq_false fun hboth => hboth.1 hwhole
    rw [if_pos hwhole, hkept, hvalue.restrict_none]
  · have hkept : keptWithout paths top = fun sub => decide (⟨top, some sub⟩ ∉ paths) := by
      funext sub
      exact decide_eq_decide.mpr (and_iff_right hwhole)
    rw [if_neg hwhole, if_neg hsome, hkept]
    rcases hcontainer with ⟨members, rfl⟩ | ⟨items, rfl⟩ <;> rfl

/-- What the step finds of an object. -/
theorem excluded_object (hvalue : RenderedValue (.object members)) :
    (excluded paths top (.object members) = none ∧
      keepMembers (keptWithout paths top) members = []) ∨
    excluded paths top (.object members) =
      some (.object (keepMembers (keptWithout paths top) members)) := by
  by_cases hmention : Mentions paths top
  · rw [excluded_of_mentioned hreturned hvalue (.inl ⟨members, rfl⟩) hmention, restrict_object]
    by_cases hempty : keepMembers (keptWithout paths top) members = []
    · exact .inl ⟨if_pos hempty, hempty⟩
    · exact .inr (if_neg hempty)
  · right
    rw [excluded_of_unmentioned hmention, keptWithout_of_unmentioned hmention,
      keepMembers_all fun _ => rfl]

/-- What the step finds of a list. -/
theorem excluded_array (hvalue : RenderedValue (.array (items.map .object))) :
    (excluded paths top (.array (items.map .object)) = none ∧
      ∀ members ∈ items, keepMembers (keptWithout paths top) members = []) ∨
    excluded paths top (.array (items.map .object)) =
      some (.array ((items.map (keepMembers (keptWithout paths top))).map .object)) := by
  by_cases hmention : Mentions paths top
  · rw [excluded_of_mentioned hreturned hvalue (.inr ⟨_, rfl⟩) hmention, restrict_array]
    by_cases hempty : ∀ members ∈ items, keepMembers (keptWithout paths top) members = []
    · exact .inl ⟨if_pos hempty, hempty⟩
    · exact .inr (if_neg hempty)
  · right
    rw [excluded_of_unmentioned hmention, keptWithout_of_unmentioned hmention, map_keepMembers_all]

theorem scimRemoveProjectionPath_sub :
    scimRemoveProjectionPath target ⟨top, some sub⟩ =
      match SortedMap.get top target with
      | some (.object members) =>
        if (SortedMap.erase sub members).isEmpty then SortedMap.erase top target
        else SortedMap.insert top (.object (SortedMap.erase sub members)) target
      | some (.array items) =>
        let items := items.map fun item => match item with
          | .object members => .object (SortedMap.erase sub members)
          | item => item
        if items.all Json.isEmptyObject then SortedMap.erase top target
        else SortedMap.insert top (.array items) target
      | _ => target := by
  have hpath : ¬(⟨top, some sub⟩ : ScimProjectionPath).isAlwaysReturned = true := by
    simpa [ScimProjectionPath.isAlwaysReturned] using hreturned
  unfold scimRemoveProjectionPath
  exact if_neg hpath

theorem Shows.removeSub_object (h : Shows resource (excluded paths) target)
    (hsource : SortedMap.get top resource = some (.object members))
    (hvalue : RenderedValue (.object members)) :
    Shows resource (excluded (paths ++ [⟨top, some sub⟩]))
      (scimRemoveProjectionPath target ⟨top, some sub⟩) := by
  have hentry : SortedMap.get top target = excluded paths top (.object members) := by
    rw [h.entries, hsource, Option.bind_some]
  have hafter : excluded (paths ++ [⟨top, some sub⟩]) top (.object members) =
      restrict (keptWithout (paths ++ [⟨top, some sub⟩]) top) (.object members) :=
    excluded_of_mentioned hreturned hvalue (.inl ⟨members, rfl⟩) mentions_append
  have herase : keepMembers (keptWithout (paths ++ [⟨top, some sub⟩]) top) members =
      SortedMap.erase sub (keepMembers (keptWithout paths top) members) :=
    keepMembers_erase keptWithout_append
  rw [restrict_object, herase] at hafter
  rw [scimRemoveProjectionPath_sub hreturned]
  rcases excluded_object hreturned hvalue with ⟨hnone, hempty⟩ | hleft
  · rw [hentry, hnone]
    refine h.change top h.sorted (fun _ _ => rfl) (fun _ hkey => excluded_append_other hkey) ?_
    rw [hentry, hnone, hsource, Option.bind_some, hafter, hempty]
    rfl
  · rw [hentry, hleft]
    dsimp only
    by_cases hempty : SortedMap.erase sub (keepMembers (keptWithout paths top) members) = []
    · rw [if_pos (List.isEmpty_iff.mpr hempty)]
      refine h.change top h.sorted.erase (fun key hkey => ?_)
        (fun _ hkey => excluded_append_other hkey) ?_
      · rw [SortedMap.get_erase, if_neg hkey]
      · rw [SortedMap.get_erase, if_pos rfl, hsource, Option.bind_some, hafter, if_pos hempty]
    · rw [if_neg fun hnil => hempty (List.isEmpty_iff.mp hnil)]
      refine h.change top h.sorted.insert (fun key hkey => ?_)
        (fun _ hkey => excluded_append_other hkey) ?_
      · rw [SortedMap.get_insert, if_neg (Ne.symm hkey)]
      · rw [SortedMap.get_insert, if_pos rfl, hsource, Option.bind_some, hafter, if_neg hempty]

theorem Shows.removeSub_array (h : Shows resource (excluded paths) target)
    (hsource : SortedMap.get top resource = some (.array (items.map .object)))
    (hvalue : RenderedValue (.array (items.map .object))) :
    Shows resource (excluded (paths ++ [⟨top, some sub⟩]))
      (scimRemoveProjectionPath target ⟨top, some sub⟩) := by
  have hentry : SortedMap.get top target = excluded paths top (.array (items.map .object)) := by
    rw [h.entries, hsource, Option.bind_some]
  have hafter : excluded (paths ++ [⟨top, some sub⟩]) top (.array (items.map .object)) =
      restrict (keptWithout (paths ++ [⟨top, some sub⟩]) top) (.array (items.map .object)) :=
    excluded_of_mentioned hreturned hvalue (.inr ⟨_, rfl⟩) mentions_append
  have herase : ∀ members, keepMembers (keptWithout (paths ++ [⟨top, some sub⟩]) top) members =
      SortedMap.erase sub (keepMembers (keptWithout paths top) members) := fun members =>
    keepMembers_erase keptWithout_append
  rw [restrict_array] at hafter
  rw [scimRemoveProjectionPath_sub hreturned]
  rcases excluded_array hreturned hvalue with ⟨hnone, hempty⟩ | hleft
  · rw [hentry, hnone]
    refine h.change top h.sorted (fun _ _ => rfl) (fun _ hkey => excluded_append_other hkey) ?_
    rw [hentry, hnone, hsource, Option.bind_some, hafter, if_pos]
    intro members hmembers
    rw [herase, hempty members hmembers]
    rfl
  · have hitems : (((items.map (keepMembers (keptWithout paths top))).map Json.object).map
        fun item => match item with
          | .object members => .object (SortedMap.erase sub members)
          | item => item) =
        (items.map (keepMembers (keptWithout (paths ++ [⟨top, some sub⟩]) top))).map
          Json.object := by
      rw [List.map_map, List.map_map, List.map_map]
      apply List.map_congr_left
      intro members _
      show Json.object _ = Json.object _
      rw [herase]
    rw [hentry, hleft]
    dsimp only
    rw [hitems]
    by_cases hempty : ∀ members ∈ items,
        keepMembers (keptWithout (paths ++ [⟨top, some sub⟩]) top) members = []
    · rw [if_pos (all_isEmptyObject.mpr (by simpa using hempty))]
      refine h.change top h.sorted.erase (fun key hkey => ?_)
        (fun _ hkey => excluded_append_other hkey) ?_
      · rw [SortedMap.get_erase, if_neg hkey]
      · rw [SortedMap.get_erase, if_pos rfl, hsource, Option.bind_some, hafter, if_pos hempty]
    · rw [if_neg fun hall => hempty (by simpa using all_isEmptyObject.mp hall)]
      refine h.change top h.sorted.insert (fun key hkey => ?_)
        (fun _ hkey => excluded_append_other hkey) ?_
      · rw [SortedMap.get_insert, if_neg (Ne.symm hkey)]
      · rw [SortedMap.get_insert, if_pos rfl, hsource, Option.bind_some, hafter, if_neg hempty]

/-- A value that has no attributes of its own. -/
theorem Shows.removeSub_leaf {value : Json} (h : Shows resource (excluded paths) target)
    (hvalue : SortedMap.get top resource = some value)
    (hleaf : (∃ text, value = .string text) ∨ ∃ b, value = .bool b) :
    Shows resource (excluded (paths ++ [⟨top, some sub⟩]))
      (scimRemoveProjectionPath target ⟨top, some sub⟩) := by
  have hcases : ∀ paths, excluded paths top value =
      if ⟨top, none⟩ ∈ paths then none else some value := by
    intro paths
    unfold excluded
    rw [if_neg hreturned]
    rcases hleaf with ⟨text, rfl⟩ | ⟨b, rfl⟩ <;> simp only [ite_self]
  have hlisted : ⟨top, none⟩ ∈ paths ++ [⟨top, some sub⟩] ↔ ⟨top, none⟩ ∈ paths := by
    simp
  have hentry : SortedMap.get top target = if ⟨top, none⟩ ∈ paths then none else some value := by
    rw [h.entries, hvalue, Option.bind_some, hcases]
  have hstep : scimRemoveProjectionPath target ⟨top, some sub⟩ = target := by
    rw [scimRemoveProjectionPath_sub hreturned, hentry]
    by_cases hwhole : ⟨top, none⟩ ∈ paths
    · rw [if_pos hwhole]
    · rw [if_neg hwhole]
      rcases hleaf with ⟨text, rfl⟩ | ⟨b, rfl⟩ <;> rfl
  rw [hstep]
  refine h.change top h.sorted (fun _ _ => rfl) (fun _ hkey => excluded_append_other hkey) ?_
  rw [hentry, hvalue, Option.bind_some, hcases]
  exact if_congr hlisted.symm rfl rfl

end RemoveSub

theorem Shows.remove (hrendered : RenderedMap resource)
    (h : Shows resource (excluded paths) target) :
    Shows resource (excluded (paths ++ [path])) (scimRemoveProjectionPath target path) := by
  obtain ⟨top, sub⟩ := path
  by_cases hreturned : top = "schemas" ∨ top = "id"
  · have hpath : (⟨top, sub⟩ : ScimProjectionPath).isAlwaysReturned = true := by
      simpa [ScimProjectionPath.isAlwaysReturned] using hreturned
    unfold scimRemoveProjectionPath
    rw [if_pos hpath]
    refine h.change top h.sorted (fun _ _ => rfl) (fun _ hkey => excluded_append_other hkey) ?_
    rw [h.entries]
    have hwhole : ∀ paths, excluded paths top = some := by
      intro paths
      funext value
      exact if_pos hreturned
    show _ = Option.bind (SortedMap.get top resource) (excluded _ top)
    rw [hwhole, hwhole]
  · obtain ⟨hschemas, hid⟩ := not_or.mp hreturned
    cases sub with
    | none =>
      have hpath : ¬(⟨top, none⟩ : ScimProjectionPath).isAlwaysReturned = true := by
        simpa [ScimProjectionPath.isAlwaysReturned] using hreturned
      have hgone : ∀ value, excluded (paths ++ [⟨top, none⟩]) top value = none := by
        intro value
        unfold excluded
        rw [if_neg hreturned, if_pos (List.mem_append_right _ (List.mem_singleton.mpr rfl))]
      unfold scimRemoveProjectionPath
      rw [if_neg hpath]
      refine h.change top h.sorted.erase (fun key hkey => ?_)
        (fun _ hkey => excluded_append_other hkey) ?_
      · rw [SortedMap.get_erase, if_neg hkey]
      · rw [SortedMap.get_erase, if_pos rfl, funext hgone]
        exact (Option.bind_fun_none _).symm
    | some sub =>
      cases hvalue : SortedMap.get top resource with
      | none =>
        have hentry : SortedMap.get top target = none := by
          rw [h.entries, hvalue]
          rfl
        rw [scimRemoveProjectionPath_sub hreturned, hentry]
        refine h.change top h.sorted (fun _ _ => rfl) (fun _ hkey => excluded_append_other hkey) ?_
        rw [hentry, hvalue]
        rfl
      | some value =>
        have hrenderedValue := hrendered.value top value hvalue hschemas hid
        cases hrenderedValue with
        | string text => exact h.removeSub_leaf hreturned hvalue (.inl ⟨text, rfl⟩)
        | bool b => exact h.removeSub_leaf hreturned hvalue (.inr ⟨b, rfl⟩)
        | object hsorted hne => exact h.removeSub_object hreturned hvalue (.object hsorted hne)
        | array hitems => exact h.removeSub_array hreturned hvalue (.array hitems)

/-- The paths removed one after another. -/
theorem Shows.removeAll (hrendered : RenderedMap resource) {rest : List ScimProjectionPath}
    (h : Shows resource (excluded paths) target) :
    Shows resource (excluded (paths ++ rest)) (rest.foldl scimRemoveProjectionPath target) := by
  induction rest generalizing paths target with
  | nil =>
    rw [List.append_nil]
    exact h
  | cons path rest ih =>
    have hlist : paths ++ path :: rest = (paths ++ [path]) ++ rest := by
      rw [List.append_assoc, List.singleton_append]
    rw [hlist]
    exact ih (h.remove hrendered)

/-- The attributes after an exclusion. -/
theorem shows_exclude (hrendered : RenderedMap resource) :
    ∃ result, scimExcludeProjection (.object resource) paths = .object result ∧
      Shows resource (excluded paths) result := by
  have hwhole : ∀ key, excluded [] key = some := by
    intro key
    funext value
    apply excluded_of_unmentioned
    rintro ⟨path, hpath, htop⟩
    cases hpath
  have hstart : Shows resource (excluded []) resource := by
    refine ⟨hrendered.sorted, fun key => ?_⟩
    rw [hwhole key]
    exact (Option.bind_fun_some _).symm
  exact ⟨_, rfl, hstart.removeAll hrendered⟩

end CairnId
