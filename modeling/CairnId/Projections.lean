import CairnId.Http.ScimProjectionSpec
import CairnId.Memberships

/-!
# SCIM projections

What a projection of a user or of a group shows, and whether the order of the listed
paths matters.

## Main results

* `projection_exact_iff` — when a projection depends only on the attributes asked for
-/

namespace CairnId

open SortedMap (Sorted)

-- rendered resources

inductive ScimResource where
  | user (user : User)
  | group (group : Group) (members : List ScimGroupMember)

def ScimResource.render (P : Primitives) (state : AppState) : ScimResource → Json
  | .user u => (scimUserResource P state u).canon
  | .group g members => (scimGroupResource P state g members).canon

section Canon

variable {held members : JsonMap}

theorem sorted_canonMembers (h : Sorted held) : Sorted (Json.canonMembers held members) := by
  induction members generalizing held with
  | nil => exact h
  | cons m members ih => exact ih h.insert

theorem canonMembers_ne_nil (h : held ≠ [] ∨ members ≠ []) :
    Json.canonMembers held members ≠ [] := by
  induction members generalizing held with
  | nil => exact h.resolve_right (not_not.mpr rfl)
  | cons m members ih => exact ih (.inl (SortedMap.insert_ne_nil _ _ _))

theorem get_canonMembers {key : String} {v : Json}
    (h : SortedMap.get key (Json.canonMembers held members) = some v) :
    (∃ m ∈ members, m.1 = key ∧ m.2.canon = v) ∨ SortedMap.get key held = some v := by
  induction members generalizing held with
  | nil => exact .inr h
  | cons m members ih =>
    rcases ih h with ⟨n, hn, hkey, hvalue⟩ | hheld
    · exact .inl ⟨n, .tail _ hn, hkey, hvalue⟩
    · rw [SortedMap.get_insert] at hheld
      by_cases hkey : m.1 = key
      · rw [if_pos hkey] at hheld
        exact .inl ⟨m, .head _, hkey, Option.some.inj hheld⟩
      · rw [if_neg hkey] at hheld
        exact .inr hheld

theorem rendered_object (hne : members ≠ []) : RenderedValue (Json.object members).canon := by
  show RenderedValue (.object (Json.canonMembers [] members))
  exact .object (sorted_canonMembers .nil) (canonMembers_ne_nil (.inr hne))

theorem canonItems_object (items : List JsonMap) :
    Json.canonItems (items.map .object) = (items.map (Json.canonMembers [])).map .object := by
  induction items with
  | nil => rfl
  | cons members items ih =>
    rw [List.map_cons, List.map_cons, List.map_cons, ← ih]
    rfl

theorem rendered_array (items : List JsonMap) (hne : ∀ members ∈ items, members ≠ []) :
    RenderedValue (Json.array (items.map .object)).canon := by
  show RenderedValue (.array (Json.canonItems (items.map .object)))
  rw [canonItems_object]
  refine .array fun members hmembers => ?_
  obtain ⟨written, hwritten, rfl⟩ := List.mem_map.mp hmembers
  exact ⟨sorted_canonMembers .nil, canonMembers_ne_nil (.inr (hne written hwritten))⟩

theorem renderedMap_canon (h : ∀ m ∈ members, m.1 ≠ "schemas" → m.1 ≠ "id" →
    RenderedValue m.2.canon) : RenderedMap (Json.canonMembers [] members) := by
  refine ⟨sorted_canonMembers .nil, fun key v hget hschemas hid => ?_⟩
  rcases get_canonMembers hget with ⟨m, hm, rfl, rfl⟩ | hnone
  · exact h m hm hschemas hid
  · cases hnone

end Canon

variable (P : Primitives) (state : AppState)

theorem rendered_externalId {externalId : Option String} {m : String × Json}
    (hm : m ∈ (externalId.map fun externalId => ("externalId", Json.string externalId)).toList) :
    RenderedValue m.2.canon := by
  obtain ⟨text, -, rfl⟩ := Option.map_eq_some_iff.mp (Option.mem_toList.mp hm)
  exact .string text

theorem renderedMap_user (u : User) :
    ∃ members, (scimUserResource P state u).canon = .object members ∧ RenderedMap members := by
  refine ⟨_, rfl, renderedMap_canon fun m hm hschemas hid => ?_⟩
  rcases List.mem_append.mp hm with hm | hm
  · simp only [List.mem_cons, List.not_mem_nil, or_false] at hm
    rcases hm with rfl | rfl | rfl | rfl | rfl | rfl | rfl | rfl
    · exact absurd rfl hschemas
    · exact absurd rfl hid
    · exact .string _
    · exact .string _
    · exact rendered_object (List.cons_ne_nil _ _)
    · exact .bool _
    · refine rendered_array [_] fun members hmembers => ?_
      rw [List.mem_singleton.mp hmembers]
      exact List.cons_ne_nil _ _
    · exact rendered_object (List.cons_ne_nil _ _)
  · exact rendered_externalId hm

theorem renderedMap_group (g : Group) (members : List ScimGroupMember) :
    ∃ resource, (scimGroupResource P state g members).canon = .object resource ∧
      RenderedMap resource := by
  refine ⟨_, rfl, renderedMap_canon fun m hm hschemas hid => ?_⟩
  rcases List.mem_append.mp hm with hm | hm
  · simp only [List.mem_cons, List.not_mem_nil, or_false] at hm
    rcases hm with rfl | rfl | rfl | rfl | rfl
    · exact absurd rfl hschemas
    · exact absurd rfl hid
    · exact .string _
    · have hitems : members.map (scimGroupMemberResource state) =
          (members.map fun member => _).map Json.object := (List.map_map ..).symm
      rw [hitems]
      refine rendered_array _ fun item hitem => ?_
      obtain ⟨member, -, rfl⟩ := List.mem_map.mp hitem
      exact List.cons_ne_nil _ _
    · exact rendered_object (List.cons_ne_nil _ _)
  · exact rendered_externalId hm

theorem ScimResource.render_eq (resource : ScimResource) :
    ∃ members, resource.render P state = .object members ∧ RenderedMap members := by
  cases resource with
  | user u => exact renderedMap_user P state u
  | group g members => exact renderedMap_group P state g members

-- what a projection promises

/-- The value shows nothing that the whole does not: it is the whole, or an object with
    some of its members, or a list of such objects in the place of the whole ones. -/
def NothingNew (value whole : Json) : Prop :=
  value = whole ∨
  (∃ members members', value = .object members ∧ whole = .object members' ∧ members ⊆ members') ∨
  ∃ items items' : List JsonMap, value = .array (items.map .object) ∧
    whole = .array (items'.map .object) ∧ List.Forall₂ (· ⊆ ·) items items'

def ScimProjection.leaves : ScimProjection → String → Json → Option Json
  | .default => fun _ value => some value
  | .include paths => included paths
  | .exclude paths => excluded paths

/-- The same attributes asked for. -/
inductive ScimProjection.Asks : ScimProjection → ScimProjection → Prop where
  | default : Asks .default .default
  | «include» {paths paths' : List ScimProjectionPath} (h : ∀ path, path ∈ paths' ↔ path ∈ paths) :
      Asks (.include paths) (.include paths')
  | exclude {paths paths' : List ScimProjectionPath} (h : ∀ path, path ∈ paths' ↔ path ∈ paths) :
      Asks (.exclude paths) (.exclude paths')

/-- The result is the same whatever the order and the repetition of the paths, it is an
    object with what the projection leaves of each attribute, and nothing else. -/
structure ProjectionExact (resource : Json) (projection : ScimProjection) : Prop where
  setOnly : ∀ projection', projection.Asks projection' →
    scimApplyProjection resource projection' = scimApplyProjection resource projection
  object : ∃ result, scimApplyProjection resource projection = .object result ∧ Sorted result
  attributes : ∀ key, (scimApplyProjection resource projection).get? key =
    (resource.get? key).bind (projection.leaves key)
  nothingNew : ∀ key value, (scimApplyProjection resource projection).get? key = some value →
    ∃ whole, resource.get? key = some whole ∧ NothingNew value whole

theorem keepMembers_subset (keep : String → Bool) (members : JsonMap) :
    keepMembers keep members ⊆ members := fun _ hm => List.mem_of_mem_filter hm

theorem RenderedValue.restrict_nothingNew {keep : String → Bool} {value whole : Json}
    (hwhole : RenderedValue whole) (h : restrict keep whole = some value) :
    NothingNew value whole := by
  right
  cases hwhole with
  | string text => cases h
  | bool b => cases h
  | @object members hsorted hne =>
    left
    rw [restrict_object] at h
    by_cases hempty : keepMembers keep members = []
    · rw [if_pos hempty] at h
      cases h
    · rw [if_neg hempty] at h
      exact ⟨_, _, (Option.some.inj h).symm, rfl, keepMembers_subset keep members⟩
  | @array items hitems =>
    right
    rw [restrict_array] at h
    by_cases hempty : ∀ members ∈ items, keepMembers keep members = []
    · rw [if_pos hempty] at h
      cases h
    · rw [if_neg hempty] at h
      refine ⟨_, _, (Option.some.inj h).symm, rfl, ?_⟩
      rw [List.forall₂_map_left_iff]
      exact List.forall₂_same.mpr fun members _ => keepMembers_subset keep members

theorem NothingNew.refl (value : Json) : NothingNew value value := .inl rfl

theorem RenderedMap.leaves_nothingNew {resource : JsonMap} (hrendered : RenderedMap resource)
    {projection : ScimProjection} {key : String} {value whole : Json}
    (hwhole : SortedMap.get key resource = some whole)
    (h : projection.leaves key whole = some value) : NothingNew value whole := by
  cases projection with
  | default =>
    rw [Option.some.inj h]
    exact .refl _
  | «include» paths =>
    by_cases hlisted : key = "schemas" ∨ key = "id" ∨ ⟨key, none⟩ ∈ paths
    · rw [← Option.some.inj ((included_of_listed hlisted).symm.trans h)]
      exact .refl _
    · obtain ⟨hschemas, hid, -⟩ : ¬key = "schemas" ∧ ¬key = "id" ∧ ¬⟨key, none⟩ ∈ paths := by
        simpa only [not_or] using hlisted
      exact (hrendered.value key whole hwhole hschemas hid).restrict_nothingNew
        ((included_of_unlisted hlisted).symm.trans h)
  | exclude paths =>
    change excluded paths key whole = some value at h
    unfold excluded at h
    split at h
    · rw [Option.some.inj h]
      exact .refl _
    · rename_i hreturned
      obtain ⟨hschemas, hid⟩ := not_or.mp hreturned
      have hvalue := hrendered.value key whole hwhole hschemas hid
      split at h
      · cases h
      · split at h
        · rw [Option.some.inj h]
          exact .refl _
        · cases hvalue with
          | string text =>
            rw [← Option.some.inj h]
            exact .refl _
          | bool b =>
            rw [← Option.some.inj h]
            exact .refl _
          | object hsorted hne => exact (RenderedValue.object hsorted hne).restrict_nothingNew h
          | array hitems => exact (RenderedValue.array hitems).restrict_nothingNew h

theorem ScimProjection.Asks.leaves_eq {projection projection' : ScimProjection}
    (h : projection.Asks projection') : projection'.leaves = projection.leaves := by
  cases h with
  | default => rfl
  | «include» h =>
    funext key value
    show included _ key value = included _ key value
    unfold included
    simp only [h]
  | exclude h =>
    funext key value
    show excluded _ key value = excluded _ key value
    unfold excluded
    simp only [h]

theorem EmptyListTwice.congr {resource : Json} {paths paths' : List ScimProjectionPath}
    (h : ∀ path, path ∈ paths' ↔ path ∈ paths) (htwice : EmptyListTwice resource paths') :
    EmptyListTwice resource paths := by
  obtain ⟨top, hschemas, hid, hvalue, hwhole, sub, hsub⟩ := htwice
  exact ⟨top, hschemas, hid, hvalue, (h _).mp hwhole, sub, (h _).mp hsub⟩

/-- No list without items is listed twice by an inclusion. -/
def ScimProjection.Untangled (projection : ScimProjection) (resource : Json) : Prop :=
  ∀ paths, projection = .include paths → ¬EmptyListTwice resource paths

theorem shows_apply {resource : JsonMap} (hrendered : RenderedMap resource)
    {projection : ScimProjection} (h : projection.Untangled (.object resource)) :
    ∃ result, scimApplyProjection (.object resource) projection = .object result ∧
      Shows resource projection.leaves result := by
  cases projection with
  | default =>
    refine ⟨resource, rfl, hrendered.sorted, fun key => ?_⟩
    exact (Option.bind_fun_some _).symm
  | «include» paths => exact shows_include hrendered (h paths rfl)
  | exclude paths => exact shows_exclude hrendered

theorem ScimProjection.Asks.untangled {projection projection' : ScimProjection} {resource : Json}
    (hasks : projection.Asks projection') (h : projection.Untangled resource) :
    projection'.Untangled resource := by
  rintro paths rfl
  cases hasks with
  | «include» hpaths => exact fun htwice => h _ rfl (htwice.congr hpaths)

theorem projectionExact_of_untangled {resource : JsonMap} (hrendered : RenderedMap resource)
    {projection : ScimProjection} (h : projection.Untangled (.object resource)) :
    ProjectionExact (.object resource) projection := by
  obtain ⟨result, hresult, hshows⟩ := shows_apply hrendered h
  refine ⟨fun projection' hasks => ?_, ⟨result, hresult, hshows.sorted⟩, fun key => ?_,
    fun key value hvalue => ?_⟩
  · obtain ⟨result', hresult', hshows'⟩ := shows_apply hrendered (hasks.untangled h)
    rw [hasks.leaves_eq] at hshows'
    rw [hresult, hresult', hshows'.unique hshows]
  · rw [hresult]
    exact hshows.entries key
  · rw [hresult] at hvalue
    have hbind := (hshows.entries key).symm.trans hvalue
    obtain ⟨whole, hwhole, hleaves⟩ := Option.bind_eq_some_iff.mp hbind
    exact ⟨whole, hwhole, hrendered.leaves_nothingNew hwhole hleaves⟩

-- the paths in another order

section Tangled

variable {resource : JsonMap} {top sub : String}
  (hreturned : ¬(top = "schemas" ∨ top = "id"))
include hreturned

theorem get_copy_whole (target : JsonMap) {value : Json}
    (hvalue : SortedMap.get top resource = some value) :
    SortedMap.get top (scimCopyProjectionPath (.object resource) target ⟨top, none⟩) =
      some value := by
  have hpath : ¬(⟨top, none⟩ : ScimProjectionPath).isAlwaysReturned = true := by
    simpa [ScimProjectionPath.isAlwaysReturned] using hreturned
  unfold scimCopyProjectionPath
  rw [if_neg hpath]
  show SortedMap.get top (scimCopyTopAttribute (.object resource) target top) = some value
  rw [get_scimCopyTopAttribute, if_pos rfl, hvalue]
  rfl

/-- The list that was asked for is taken away again. -/
theorem get_copy_sub {target : JsonMap} (hvalue : SortedMap.get top resource = some (.array []))
    (hentry : SortedMap.get top target = some (.array [])) :
    SortedMap.get top (scimCopyProjectionPath (.object resource) target ⟨top, some sub⟩) = none := by
  rw [scimCopyProjectionPath_sub hreturned, hvalue]
  dsimp only
  rw [hentry]
  dsimp only [Option.getD_some]
  have hinserted : SortedMap.get top (SortedMap.insert top (Json.array []) target) =
      some (.array (([] : List JsonMap).map .object)) := by
    rw [SortedMap.get_insert, if_pos rfl]
    rfl
  have hget := get_scimRemoveEmptyProjectedArray hinserted top
  exact hget.trans (if_pos ⟨rfl, fun members hmembers => nomatch hmembers⟩)

end Tangled

theorem not_setOnly_of_emptyListTwice {resource : JsonMap} {paths : List ScimProjectionPath}
    (h : EmptyListTwice (.object resource) paths) :
    ∃ paths₁ paths₂, (∀ path, path ∈ paths₁ ↔ path ∈ paths) ∧ (∀ path, path ∈ paths₂ ↔ path ∈ paths) ∧
      scimIncludeProjection (.object resource) paths₁ ≠
        scimIncludeProjection (.object resource) paths₂ := by
  obtain ⟨top, hschemas, hid, hvalue, hwhole, sub, hsub⟩ := h
  have hreturned : ¬(top = "schemas" ∨ top = "id") := not_or.mpr ⟨hschemas, hid⟩
  refine ⟨paths ++ [⟨top, none⟩], paths ++ [⟨top, none⟩] ++ [⟨top, some sub⟩], fun path => ?_,
    fun path => ?_, fun heq => ?_⟩
  · rw [List.mem_append, List.mem_singleton]
    refine or_iff_left_of_imp ?_
    rintro rfl
    exact hwhole
  · rw [List.mem_append, List.mem_append, List.mem_singleton, List.mem_singleton]
    refine (or_iff_left_of_imp ?_).trans (or_iff_left_of_imp ?_)
    · rintro rfl
      exact .inl hsub
    · rintro rfl
      exact hwhole
  · unfold scimIncludeProjection at heq
    dsimp only at heq
    rw [List.foldl_concat, List.foldl_concat, List.foldl_concat] at heq
    have hget := congrArg (SortedMap.get top) (Json.object.inj heq)
    rw [ get_copy_whole hreturned _ hvalue,
      get_copy_sub hreturned hvalue (get_copy_whole hreturned _ hvalue)] at hget
    cases hget

-- the promise

/-- A projection of a user or of a group depends only on the attributes asked for, unless
    an inclusion lists a list without items both itself and by a sub-attribute. -/
theorem projection_exact_iff (resource : ScimResource) (projection : ScimProjection) :
    ProjectionExact (resource.render P state) projection ↔
      projection.Untangled (resource.render P state) := by
  obtain ⟨members, hrender, hrendered⟩ := resource.render_eq P state
  rw [hrender]
  constructor
  · rintro hexact paths rfl htwice
    obtain ⟨paths₁, paths₂, hpaths₁, hpaths₂, hne⟩ := not_setOnly_of_emptyListTwice htwice
    apply hne
    have h₁ := hexact.setOnly (.include paths₁) (.include hpaths₁)
    have h₂ := hexact.setOnly (.include paths₂) (.include hpaths₂)
    exact h₁.trans h₂.symm
  · exact projectionExact_of_untangled hrendered

namespace Sample

def deserted : Json :=
  (ScimResource.group ⟨5, 1, "team", none, "Team", 0⟩ []).render uuidPrimitives appState

def shownMembersOf (attributes : String) : Except ScimError Bool := do
  let paths ← scimProjectionPaths .group attributes
  return ((scimApplyProjection deserted (.include paths)).get? "members").isSome

end Sample

open Sample in
/-- Of a group without members, the members are shown or not, as the paths are ordered. -/
theorem members_order_matters :
    shownMembersOf "members.value,members" = .ok true ∧
    shownMembersOf "members,members.value" = .ok false ∧
    ∃ paths, scimProjectionPaths .group "members,members.value" = .ok paths ∧
      ¬ProjectionExact deserted (.include paths) := by
  refine ⟨by decide, by decide, [⟨"members", none⟩, ⟨"members", some "value"⟩],
    by decide, fun hexact => ?_⟩
  have hswapped := hexact.setOnly _ (.include fun _ => List.mem_reverse)
  have hshown := congrArg (fun shown => (shown.get? "members").isSome) hswapped
  exact absurd hshown (by decide)

end CairnId
