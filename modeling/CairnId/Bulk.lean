import Mathlib.Logic.Relation
import Mathlib.Tactic.Ring
import CairnId.Http.ScimBulkOrder
import CairnId.Provisioning

/-!
# Bulk jobs

What a SCIM Bulk job executes, in which order, and what its executions see.

## Main results

- `scimBulkJob_executes_resolved` — every operation is executed at most once, and never
  on an unresolved reference
- `scimBulkJob_in_depth_order` — when all references point back, operations are executed
  by the depth of their references
-/

namespace CairnId

open Concurrency Prog

-- the operations of a request

/-- The operations as the job gets them. -/
structure Accepted (requests : List ScimBulkOperationRequest)
    (operations : List ScimBulkJobOperation) : Prop where
  ids : validateScimBulkIds requests = .ok ()
  operations : scimBulkJobOperations requests = .ok operations

theorem mapM_ok_forall₂ {ε α β : Type} {f : α → Except ε β} {as : List α} {bs : List β}
    (h : as.mapM f = .ok bs) : List.Forall₂ (fun a b => f a = .ok b) as bs := by
  induction as generalizing bs with
  | nil =>
    cases h
    exact .nil
  | cons a as ih =>
    rw [List.mapM_cons] at h
    obtain ⟨b, hb, h⟩ := except_bind_eq_ok.mp h
    obtain ⟨bs', hbs, h⟩ := except_bind_eq_ok.mp h
    cases h
    exact .cons hb (ih hbs)

theorem mapM_error {ε α β : Type} {f : α → Except ε β} {as : List α} {e : ε}
    (h : as.mapM f = .error e) : ∃ a ∈ as, f a = .error e := by
  induction as with
  | nil => cases h
  | cons a as ih =>
    rw [List.mapM_cons] at h
    cases hfirst : f a with
    | error e' =>
      rw [hfirst] at h
      cases h
      exact ⟨a, .head _, hfirst⟩
    | ok b =>
      rw [hfirst] at h
      cases hrest : as.mapM f with
      | ok bs =>
        rw [hrest] at h
        cases h
      | error e' =>
        rw [hrest] at h
        cases h
        obtain ⟨a', ha', he⟩ := ih hrest
        exact ⟨a', .tail _ ha', he⟩

theorem bulkId_of_scimBulkJobOperation {request : ScimBulkOperationRequest}
    {operation : ScimBulkJobOperation} (h : scimBulkJobOperation request = .ok operation) :
    scimBulkId request.bulkId = .ok operation.bulkId ∧ operation.operation = request := by
  obtain ⟨bulkId, hbulkId, h⟩ := except_bind_eq_ok.mp h
  obtain rfl := Except.ok.inj h
  exact ⟨hbulkId, rfl⟩

/-- No `bulkId` is given twice, nor one that was seen before. -/
theorem pairwise_of_validateScimBulkIdsFrom {requests : List ScimBulkOperationRequest}
    {operations : List ScimBulkJobOperation} {seen : List String}
    (hids : validateScimBulkIdsFrom seen requests = .ok ())
    (hops : List.Forall₂ (fun request operation => scimBulkJobOperation request = .ok operation)
      requests operations) :
    (∀ operation ∈ operations, ∀ name, operation.bulkId = some name → name ∉ seen) ∧
      operations.Pairwise fun a b => ∀ name, a.bulkId = some name → b.bulkId ≠ some name := by
  induction hops generalizing seen with
  | nil => simp
  | @cons request operation requests operations hop _ ih =>
    rw [validateScimBulkIdsFrom, (bulkId_of_scimBulkJobOperation hop).1] at hids
    cases hbulkId : operation.bulkId with
    | none =>
      rw [hbulkId] at hids
      obtain ⟨hseen, hpairwise⟩ := ih hids
      exact ⟨List.forall_mem_cons.mpr ⟨by simp [hbulkId], hseen⟩,
        List.pairwise_cons.mpr ⟨by simp [hbulkId], hpairwise⟩⟩
    | some bulkId =>
      rw [hbulkId] at hids
      obtain ⟨_, hok, hids⟩ := except_bind_eq_ok.mp hids
      obtain rfl := Except.ok.inj hok
      dsimp only at hids
      split at hids
      · cases hids
      · rename_i hnew
        obtain ⟨hseen, hpairwise⟩ := ih hids
        refine ⟨List.forall_mem_cons.mpr ⟨?_, fun operation' h' name hname hmem =>
          hseen operation' h' name hname (.tail _ hmem)⟩, List.pairwise_cons.mpr ⟨?_, hpairwise⟩⟩
        · rintro name hname
          rw [hbulkId] at hname
          cases hname
          simpa using hnew
        · rintro operation' h' name hname hname'
          rw [hbulkId] at hname
          cases hname
          exact hseen operation' h' bulkId hname' (.head _)

theorem ScimBulkJobOperation.bulkId_of_creates {operation : ScimBulkJobOperation} {name : String}
    (h : operation.creates = some name) : operation.bulkId = some name := by
  unfold creates at h
  split at h
  · exact h
  · cases h

section items

variable {operations : List ScimBulkJobOperation} {dependencies : List (List String)}

theorem mem_bulkItems {item : BulkItem} : item ∈ bulkItems operations dependencies ↔
    operations[item.index]? = some item.operation ∧
      dependencies[item.index]? = some item.dependencies := by
  simp only [bulkItems, List.mem_mapIdx, List.getElem_zip]
  constructor
  · rintro ⟨i, hi, rfl⟩
    rw [List.length_zip, Nat.lt_min] at hi
    exact ⟨List.getElem?_eq_getElem hi.1, List.getElem?_eq_getElem hi.2⟩
  · rintro ⟨hoperation, hdependencies⟩
    obtain ⟨hi, hoperation⟩ := List.getElem?_eq_some_iff.mp hoperation
    obtain ⟨hi', hdependencies⟩ := List.getElem?_eq_some_iff.mp hdependencies
    exact ⟨item.index, by simp [hi, hi'], by rw [hoperation, hdependencies]⟩

theorem index_bulkItems : (bulkItems operations dependencies).map BulkItem.index =
    List.range (operations.zip dependencies).length := by
  refine List.ext_getElem (by simp [bulkItems]) fun i hi hi' => ?_
  simp [bulkItems]

end items

section accepted

variable {requests : List ScimBulkOperationRequest} {operations : List ScimBulkJobOperation}
  {dependencies : List (List String)}

theorem Accepted.creates_eq (h : Accepted requests operations) {i j : ℕ}
    {a b : ScimBulkJobOperation} (ha : operations[i]? = some a) (hb : operations[j]? = some b)
    {name : String} (hname : a.creates = some name) (hname' : b.creates = some name) : i = j := by
  obtain ⟨-, hpairwise⟩ := pairwise_of_validateScimBulkIdsFrom h.ids (mapM_ok_forall₂ h.operations)
  rw [List.pairwise_iff_getElem] at hpairwise
  obtain ⟨hi, rfl⟩ := List.getElem?_eq_some_iff.mp ha
  obtain ⟨hj, rfl⟩ := List.getElem?_eq_some_iff.mp hb
  replace hname := ScimBulkJobOperation.bulkId_of_creates hname
  replace hname' := ScimBulkJobOperation.bulkId_of_creates hname'
  by_contra hne
  rcases Nat.lt_or_gt_of_ne hne with hlt | hlt
  · exact hpairwise i j hi hj hlt name hname hname'
  · exact hpairwise j i hj hi hlt name hname' hname

theorem Accepted.distinct (h : Accepted requests operations) :
    Distinct (bulkItems operations dependencies) := by
  have hindex : ∀ a ∈ bulkItems operations dependencies, ∀ b ∈ bulkItems operations dependencies,
      a.index = b.index → a = b := by
    intro a ha b hb heq
    obtain ⟨hoperation, hdependencies⟩ := mem_bulkItems.mp ha
    obtain ⟨hoperation', hdependencies'⟩ := mem_bulkItems.mp hb
    rw [heq, hoperation'] at hoperation
    rw [heq, hdependencies'] at hdependencies
    obtain ⟨i, o, d⟩ := a
    cases hoperation
    cases hdependencies
    cases heq
    rfl
  refine ⟨hindex, fun a ha b hb name hname hname' => hindex a ha b hb ?_⟩
  exact h.creates_eq (mem_bulkItems.mp ha).1 (mem_bulkItems.mp hb).1 hname hname'

end accepted

-- what a job executes

/-- The operation at `i` names the `POST` at `j`. -/
def WaitsFor (operations : List ScimBulkJobOperation) (i j : ℕ) : Prop :=
  ∃ a b name, operations[i]? = some a ∧ operations[j]? = some b ∧ a.operation.RefersTo name ∧
    b.creates = some name

/-- The operation is on a cycle of references, or waits for one that is. -/
def WaitsForCycle (operations : List ScimBulkJobOperation) (i : ℕ) : Prop :=
  ∃ j, Relation.ReflTransGen (WaitsFor operations) i j ∧
    Relation.TransGen (WaitsFor operations) j j

theorem WaitsForCycle.exists_next {operations : List ScimBulkJobOperation} {i : ℕ}
    (h : WaitsForCycle operations i) :
    ∃ j, WaitsFor operations i j ∧ WaitsForCycle operations j := by
  obtain ⟨k, hik, hkk⟩ := h
  rcases hik.cases_head with rfl | ⟨j, hij, hjk⟩
  · obtain ⟨j, hij, hji⟩ := Relation.TransGen.head'_iff.mp hkk
    exact ⟨j, hij, i, hji, hkk⟩
  · exact ⟨j, hij, k, hjk, hkk⟩

/-- One execution of a job, given those before it. -/
structure ExecutesResolved (P : Primitives) (operations : List ScimBulkJobOperation)
    (failOnErrors : Option Nat) (h : BulkHistory) (e : BulkExecution) : Prop where
  operation : operations[e.item.index]? = some e.item.operation
  once : ∀ ev ∈ h, ev.1.item.index ≠ e.item.index
  reference : ∀ name, e.item.operation.operation.RefersTo name →
    (∃ resourceId, Created P h name resourceId ∧
      e.bulkReferences.lookup name = some resourceId) ∨
    ((Failed h name ∨ ∀ operation ∈ operations, operation.creates ≠ some name) ∧
      e.bulkReferences.lookup name = none)
  acyclic : ¬WaitsForCycle operations e.item.index
  limit : ∀ limit, failOnErrors = some limit → failures h < limit

/-- One response for each operation, in request order: that of its execution, or the
    refusal of an operation that was never executed. -/
structure Answered (operations : List ScimBulkJobOperation) (h : BulkHistory)
    (responses : List Json) : Prop where
  length : responses.length = operations.length
  executed : ∀ ev ∈ h, responses[ev.1.item.index]? = some (scimBulkResponse ev.1.item ev.2)
  refused : ∀ i operation, operations[i]? = some operation →
    (∀ ev ∈ h, ev.1.item.index ≠ i) → responses[i]? =
      some (scimBulkErrorResponse operation.method operation.bulkId scimBulkUnresolved)

section job

variable {P : Primitives} {requests : List ScimBulkOperationRequest}
  {operations : List ScimBulkJobOperation} {dependencies : List (List String)}
  {failOnErrors : Option Nat} {h : BulkHistory} {e : BulkExecution}

theorem dependencies_getElem? (hdeps : operations.mapM (fun operation =>
      scimBulkReferenceDependencies operation.operation) = .ok dependencies) {i : ℕ}
    {operation : ScimBulkJobOperation} (hi : operations[i]? = some operation) :
    ∃ names, dependencies[i]? = some names ∧
      scimBulkReferenceDependencies operation.operation = .ok names := by
  have hall := mapM_ok_forall₂ hdeps
  obtain ⟨hlt, rfl⟩ := List.getElem?_eq_some_iff.mp hi
  have hlt' : i < dependencies.length := hall.length_eq ▸ hlt
  exact ⟨_, List.getElem?_eq_getElem hlt', hall.get hlt hlt'⟩

theorem mem_creatable {name : String} :
    name ∈ operations.filterMap (·.creates) ↔
      ∃ operation ∈ operations, operation.creates = some name := List.mem_filterMap

variable (hacc : Accepted requests operations)
  (hdeps : operations.mapM (fun operation =>
    scimBulkReferenceDependencies operation.operation) = .ok dependencies)

/-- The items, limits and creatable `bulkId`s that `executeScimBulkJob` runs with. -/
abbrev JobRuns (P : Primitives) (operations : List ScimBulkJobOperation)
    (dependencies : List (List String)) (failOnErrors : Option Nat) :
    BulkHistory → BulkExecution → Prop :=
  MayRun P operations.length (bulkItems operations dependencies)
    (operations.filterMap (·.creates)) failOnErrors

include hacc hdeps

/-- What an operation waits for has been executed when it is executed. -/
theorem executed_of_waitsFor (hh : Admissible (JobRuns P operations dependencies failOnErrors) h)
    (he : JobRuns P operations dependencies failOnErrors h e) {j : ℕ}
    (hwaits : WaitsFor operations e.item.index j) : ∃ ev ∈ h, ev.1.item.index = j := by
  obtain ⟨a, b, name, ha, hb, hrefers, hcreates⟩ := hwaits
  obtain ⟨hoperation, hdependencies⟩ := mem_bulkItems.mp he.item
  obtain ⟨names, hnames, hcollected⟩ := dependencies_getElem? hdeps ha
  rw [hdependencies] at hnames
  cases hnames
  have hname := (mem_scimBulkReferenceDependencies hcollected).mpr hrefers
  obtain ⟨names', hnames', -⟩ := dependencies_getElem? hdeps hb
  have hitem : ⟨j, b, names'⟩ ∈ bulkItems operations dependencies :=
    mem_bulkItems.mpr ⟨hb, hnames'⟩
  obtain ⟨ev, hev, hitem⟩ := executed_before hacc.distinct he hh
    (mem_creatable.mpr ⟨b, List.mem_of_getElem? hb, hcreates⟩) hname hitem hcreates
  exact ⟨ev, hev, by rw [hitem]⟩

/-- Nothing that waits for a cycle is executed. -/
theorem not_waitsForCycle (hh : Admissible (JobRuns P operations dependencies failOnErrors) h) :
    ∀ ev ∈ h, ¬WaitsForCycle operations ev.1.item.index := by
  induction h with
  | nil => simp
  | cons first h ih =>
    have hbefore := ih hh.2
    refine List.forall_mem_cons.mpr ⟨fun hcycle => ?_, hbefore⟩
    obtain ⟨j, hwaits, hnext⟩ := hcycle.exists_next
    obtain ⟨ev, hev, rfl⟩ := executed_of_waitsFor hacc hdeps hh.2 hh.1 hwaits
    exact hbefore ev hev hnext

theorem executesResolved_of_runs
    (hh : Admissible (JobRuns P operations dependencies failOnErrors) h)
    (he : JobRuns P operations dependencies failOnErrors h e) :
    ExecutesResolved P operations failOnErrors h e := by
  obtain ⟨hoperation, hdependencies⟩ := mem_bulkItems.mp he.item
  refine ⟨hoperation, he.once, fun name hrefers => ?_, ?_, fun limit hlimit => ?_⟩
  · obtain ⟨names, hnames, hcollected⟩ := dependencies_getElem? hdeps hoperation
    rw [hdependencies] at hnames
    cases hnames
    have hname := (mem_scimBulkReferenceDependencies hcollected).mpr hrefers
    have hready := he.ready
    simp only [BulkItem.isReady, scimBulkDependenciesAreReady, List.all_eq_true, Bool.or_eq_true,
      Bool.not_eq_true', List.contains_iff_mem] at hready
    rw [he.references]
    rcases hready name hname with (hlookup | hfailed) | hnot
    · obtain ⟨resourceId, hlookup⟩ := Option.isSome_iff_exists.mp hlookup
      exact .inl ⟨resourceId, created_of_lookup hlookup, hlookup⟩
    · have hfailed' : Failed h name := mem_failedBulkIds.mp hfailed
      exact .inr ⟨.inl hfailed', lookup_of_failed hacc.distinct hh hfailed'⟩
    · have hnone : ∀ operation ∈ operations, operation.creates ≠ some name := by
        intro operation hmem hcreates
        have := mem_creatable.mpr ⟨operation, hmem, hcreates⟩
        simp [this] at hnot
      refine .inr ⟨.inr hnone, lookup_of_not_creatable hh fun item hitem => ?_⟩
      exact hnone _ (List.mem_of_getElem? (mem_bulkItems.mp hitem).1)
  · exact not_waitsForCycle hacc hdeps (h := ⟨e, .error scimBulkUnresolved⟩ :: h) ⟨he, hh⟩ _
      (.head _)
  · have hreached := he.limit
    subst hlimit
    simpa [limitReached, replay_errorCount] using hreached

omit hacc hdeps in
/-- Nothing is dropped from a list that has a value everywhere. -/
theorem reduceOption_of_isSome {α : Type} {l : List (Option α)} (hl : ∀ a ∈ l, a.isSome) :
    l.reduceOption.map some = l := by
  induction l with
  | nil => rfl
  | cons a l ih =>
    obtain ⟨a, rfl⟩ := Option.isSome_iff_exists.mp (hl a (.head _))
    rw [List.reduceOption_cons_of_some, List.map_cons, ih fun b hb => hl b (.tail _ hb)]

omit hacc in
theorem answered_of_settled (hh : Admissible (JobRuns P operations dependencies failOnErrors) h)
    {job : BulkState} (hjob : Settled P operations.length (bulkItems operations dependencies) h job) :
    Answered operations h job.responses.reduceOption := by
  obtain ⟨rest, rfl, hcover, hrest, hnodup⟩ := hjob
  have hlt : ∀ item ∈ bulkItems operations dependencies, item.index < operations.length :=
    fun item hitem => (List.getElem?_eq_some_iff.mp (mem_bulkItems.mp hitem).1).1
  set final := (rest.foldl (fun job item => job.ended P item (.error scimBulkUnresolved))
    (replay P operations.length h)).responses with hfinal
  have hlength : final.length = operations.length := by
    rw [hfinal, refused_responses_length, replay_responses_length]
  have hexecuted : ∀ ev ∈ h,
      final[ev.1.item.index]? = some (some (scimBulkResponse ev.1.item ev.2)) := by
    intro ev hev
    rw [hfinal, refused_responses fun item hitem => ((hrest item hitem).2 ev hev).symm]
    exact replay_responses hh hev (hlt _ (item_of_admissible hh ev hev))
  have hrefused : ∀ i operation, operations[i]? = some operation →
      (∀ ev ∈ h, ev.1.item.index ≠ i) → final[i]? = some
        (some (scimBulkErrorResponse operation.method operation.bulkId scimBulkUnresolved)) := by
    intro i operation hi hnot
    obtain ⟨names, hnames, -⟩ := dependencies_getElem? hdeps hi
    have hitem : (⟨i, operation, names⟩ : BulkItem) ∈ bulkItems operations dependencies :=
      mem_bulkItems.mpr ⟨hi, hnames⟩
    rcases hcover _ hitem with hmem | ⟨ev, hev, heq⟩
    · exact refused_response hmem hnodup (by
        rw [replay_responses_length]
        exact hlt _ hitem)
    · exact absurd (congrArg BulkItem.index heq) (hnot ev hev)
  have hsome : ∀ a ∈ final, a.isSome := by
    intro a ha
    obtain ⟨i, hi⟩ := List.mem_iff_getElem?.mp ha
    have hi' : i < operations.length := hlength ▸ (List.getElem?_eq_some_iff.mp hi).1
    by_cases hran : ∃ ev ∈ h, ev.1.item.index = i
    · obtain ⟨ev, hev, rfl⟩ := hran
      rw [hexecuted ev hev] at hi
      cases hi
      rfl
    · rw [hrefused i _ (List.getElem?_eq_getElem hi') fun ev hev heq => hran ⟨ev, hev, heq⟩]
        at hi
      cases hi
      rfl
  have hmap := reduceOption_of_isSome hsome
  have hread : ∀ {i : ℕ} {response : Json}, final[i]? = some (some response) →
      final.reduceOption[i]? = some response := by
    intro i response hi
    rw [← hmap, List.getElem?_map, Option.map_eq_some_iff] at hi
    obtain ⟨response', hi, heq⟩ := hi
    cases heq
    exact hi
  refine ⟨?_, fun ev hev => hread (hexecuted ev hev),
    fun i operation hi hnot => hread (hrefused i operation hi hnot)⟩
  rw [← hlength, ← List.length_map (f := some), hmap]

omit hacc hdeps in
/-- A job makes at most as many executions as it has operations. -/
theorem length_le_of_admissible
    (hh : Admissible (JobRuns P operations dependencies failOnErrors) h) :
    h.length ≤ operations.length := by
  have hnodup : (h.map fun ev => ev.1.item.index).Nodup := by
    induction h with
    | nil => exact List.nodup_nil
    | cons first h ih =>
      refine List.nodup_cons.mpr ⟨fun hmem => ?_, ih hh.2⟩
      obtain ⟨ev, hev, heq⟩ := List.mem_map.mp hmem
      exact hh.1.once ev hev heq
  have hsub : (h.map fun ev => ev.1.item.index) ⊆ List.range operations.length := by
    intro i hi
    obtain ⟨ev, hev, rfl⟩ := List.mem_map.mp hi
    exact List.mem_range.mpr
      (List.getElem?_eq_some_iff.mp (mem_bulkItems.mp (item_of_admissible hh ev hev)).1).1
  simpa using (List.subperm_of_subset hnodup hsub).length_le

end job

theorem executeScimBulkJob_of_ok {P : Primitives} {E : Type} {R : E → Type}
    {execute : BulkItem → BulkReferences →
      Prog E R ScimError (Except ScimError ScimOperationResult)} {order : IterationOrder BulkItem}
    {operations : List ScimBulkJobOperation} {dependencies : List (List String)}
    {failOnErrors : Option Nat} (hdeps : operations.mapM (fun operation =>
      scimBulkReferenceDependencies operation.operation) = .ok dependencies) :
    executeScimBulkJob P execute order operations failOnErrors =
      scimBulkRounds P execute order failOnErrors (operations.filterMap (·.creates))
        (bulkItems operations dependencies) (.start operations.length) >>= fun job =>
          Prog.ret job.responses.reduceOption := by
  rw [executeScimBulkJob, hdeps]
  rfl

namespace Sample

def renameTo (text : String) : ScimBulkOperationRequest :=
  ⟨"PATCH", none, "/Users/00000000-0000-0000-0000-000000000002", some (.object
    [("schemas", .array [.string scimPatchOpSchema]),
      ("Operations", .array [.object [("op", .string "replace"), ("path", .string "displayName"),
        ("value", .string text)]])])⟩

def createEve : ScimBulkOperationRequest :=
  ⟨"POST", some "eve", "/Users", some (.object [("userName", .string "eve@example.org")])⟩

/-- A new user, a display name that names it, and another display name. -/
def renames : List ScimBulkOperationRequest :=
  [createEve, renameTo "bulkId:eve", renameTo "Zoe"]

def renameOperations : List ScimBulkJobOperation :=
  [⟨"POST", some "eve", createEve⟩, ⟨"PATCH", none, renameTo "bulkId:eve"⟩,
    ⟨"PATCH", none, renameTo "Zoe"⟩]

theorem renames_accepted : Accepted renames renameOperations := ⟨by decide +kernel, by rfl⟩

def requestOrder : IterationOrder BulkItem := ⟨id, List.Perm.refl⟩

/-- The references of the operations: one, in the second. -/
theorem references_of_renames : ∀ operation ∈ renameOperations,
    ∀ text ∈ operation.operation.texts, referenceIn text = none ∨
      (operation.operation = renameTo "bulkId:eve" ∧ text = "bulkId:eve") := by
  have hcreate : ∀ text ∈ createEve.texts, (referenceIn text).isNone := by decide +kernel
  have hrename : ∀ text ∈ (renameTo "bulkId:eve").texts,
      (referenceIn text).isNone ∨ text = "bulkId:eve" := by decide +kernel
  have hother : ∀ text ∈ (renameTo "Zoe").texts, (referenceIn text).isNone := by decide +kernel
  refine List.forall_mem_cons.mpr ⟨fun text h => .inl (by simpa using hcreate text h),
    List.forall_mem_cons.mpr ⟨fun text h => ?_, List.forall_mem_singleton.mpr fun text h => ?_⟩⟩
  · exact (hrename text h).imp (by simp) fun h => ⟨rfl, h⟩
  · exact .inl (by simpa using hother text h)

theorem referenceIn_eve : referenceIn "bulkId:eve" = some (.ok "eve") := by rfl

/-- An operation with an empty reference next to one without references. -/
def emptyReference : List ScimBulkOperationRequest :=
  [createEve, ⟨"DELETE", none, "/Users/bulkId:", none⟩]

def emptyReferenceOperations : List ScimBulkJobOperation :=
  [⟨"POST", some "eve", createEve⟩, ⟨"DELETE", none, ⟨"DELETE", none, "/Users/bulkId:", none⟩⟩]

end Sample

/-- Every reference names a `POST` earlier in the request. -/
def PointsBack (operations : List ScimBulkJobOperation) : Prop :=
  ∀ (i : ℕ) (operation : ScimBulkJobOperation), operations[i]? = some operation →
    ∀ text ∈ operation.operation.texts, ∀ reference, referenceIn text = some reference →
      ∃ name, reference = .ok name ∧ ∃ j < i, ∃ post : ScimBulkJobOperation,
        operations[j]? = some post ∧ post.creates = some name

section order

variable {requests : List ScimBulkOperationRequest} {operations : List ScimBulkJobOperation}
  {dependencies : List (List String)}

theorem PointsBack.exists_dependencies (hback : PointsBack operations) :
    ∃ dependencies, operations.mapM (fun operation =>
      scimBulkReferenceDependencies operation.operation) = .ok dependencies := by
  cases hdeps : operations.mapM fun operation =>
      scimBulkReferenceDependencies operation.operation with
  | ok dependencies => exact ⟨dependencies, rfl⟩
  | error error =>
    obtain ⟨operation, hmem, herror⟩ := mapM_error hdeps
    obtain ⟨i, hi⟩ := List.mem_iff_getElem?.mp hmem
    obtain ⟨text, htext, href⟩ := exists_malformed herror
    obtain ⟨name, hname, -⟩ := hback i operation hi text htext _ href
    cases hname

/-- The depth of the references is a depth of the items. -/
theorem isDepth_referenceDepth (hacc : Accepted requests operations)
    (hback : PointsBack operations) (hdeps : operations.mapM (fun operation =>
      scimBulkReferenceDependencies operation.operation) = .ok dependencies) :
    IsDepth (bulkItems operations dependencies) (referenceDepth (WaitsFor operations)) := by
  -- a name among the dependencies of an item is that of an earlier `POST`
  have hearlier : ∀ item ∈ bulkItems operations dependencies, ∀ name ∈ item.dependencies,
      item.operation.operation.RefersTo name ∧ ∃ post ∈ bulkItems operations dependencies,
        post.operation.creates = some name ∧ post.index < item.index := by
    intro item hitem name hname
    obtain ⟨hoperation, hdependencies⟩ := mem_bulkItems.mp hitem
    obtain ⟨names, hnames, hcollected⟩ := dependencies_getElem? hdeps hoperation
    rw [hdependencies] at hnames
    cases hnames
    have hrefers := (mem_scimBulkReferenceDependencies hcollected).mp hname
    refine ⟨hrefers, ?_⟩
    obtain ⟨text, htext, href⟩ := hrefers
    obtain ⟨name', hname', j, hj, post, hpost, hcreates⟩ :=
      hback item.index item.operation hoperation text htext _ href
    cases hname'
    obtain ⟨names', hnames', -⟩ := dependencies_getElem? hdeps hpost
    exact ⟨⟨j, post, names'⟩, mem_bulkItems.mpr ⟨hpost, hnames'⟩, hcreates, hj⟩
  constructor
  · intro item hitem name hname post hpost hcreates
    obtain ⟨hrefers, post', hpost', hcreates', hlt⟩ := hearlier item hitem name hname
    cases hacc.distinct.creates post hpost post' hpost' name hcreates hcreates'
    exact referenceDepth_lt hlt ⟨_, _, name, (mem_bulkItems.mp hitem).1,
      (mem_bulkItems.mp hpost).1, hrefers, hcreates⟩
  · intro item hitem d hd
    obtain ⟨j, -, ⟨a, post, name, ha, hpost, hrefers, hcreates⟩, hj⟩ := exists_of_referenceDepth hd
    obtain ⟨hoperation, hdependencies⟩ := mem_bulkItems.mp hitem
    rw [hoperation] at ha
    cases ha
    obtain ⟨names, hnames, hcollected⟩ := dependencies_getElem? hdeps hoperation
    rw [hdependencies] at hnames
    cases hnames
    obtain ⟨names', hnames', -⟩ := dependencies_getElem? hdeps hpost
    exact ⟨name, (mem_scimBulkReferenceDependencies hcollected).mpr hrefers, ⟨j, post, names'⟩,
      mem_bulkItems.mpr ⟨hpost, hnames'⟩, hcreates, hj⟩
  · intro item hitem name hname
    obtain ⟨-, post, hpost, hcreates, -⟩ := hearlier item hitem name hname
    exact ⟨post, hpost, hcreates⟩

end order

/-- **Bulk jobs run in order of reference depth.** When every reference points to an
    earlier `POST`, the job is the execution of its operations one after another by
    depth, those of one depth in request order; so it is their execution in request order
    when the depth never decreases along the request. -/
theorem scimBulkJob_in_depth_order {P : Primitives} (hparse : ParsesUuids P) (state : AppState)
    (order : IterationOrder BulkItem) (headers : RequestHeaders)
    {requests : List ScimBulkOperationRequest} {operations : List ScimBulkJobOperation}
    (hacc : Accepted requests operations) (hback : PointsBack operations)
    (failOnErrors : Option Nat) :
    ∃ dependencies, operations.mapM (fun operation =>
        scimBulkReferenceDependencies operation.operation) = .ok dependencies ∧
      scimBulkJob P state order headers operations failOnErrors =
        executeSequentially P (executeItem P state headers) failOnErrors
          (byDepth (referenceDepth (WaitsFor operations)) (bulkItems operations dependencies))
            (.start operations.length) >>= (fun job => Prog.ret job.responses.reduceOption) ∧
      ((∀ i j, i ≤ j → j < operations.length → referenceDepth (WaitsFor operations) i ≤
        referenceDepth (WaitsFor operations) j) →
        byDepth (referenceDepth (WaitsFor operations)) (bulkItems operations dependencies) =
          bulkItems operations dependencies) := by
  obtain ⟨dependencies, hdeps⟩ := hback.exists_dependencies
  have hlength : (bulkItems operations dependencies).length = operations.length := by
    have hall := (mapM_ok_forall₂ hdeps).length_eq
    simp [bulkItems, ← hall]
  have hlt : ∀ item ∈ bulkItems operations dependencies,
      referenceDepth (WaitsFor operations) item.index < operations.length := fun item hitem =>
    referenceDepth_le.trans_lt (List.getElem?_eq_some_iff.mp (mem_bulkItems.mp hitem).1).1
  refine ⟨dependencies, hdeps, ?_, fun hmono => byDepth_of_sorted (hlength ▸ hlt) ?_⟩
  · rw [scimBulkJob, executeScimBulkJob_of_ok hdeps]
    congr 1
    have hcreatable : ∀ name, name ∈ operations.filterMap (·.creates) ↔
        ∃ post ∈ bulkItems operations dependencies, post.operation.creates = some name := by
      intro name
      rw [mem_creatable]
      constructor
      · rintro ⟨operation, hmem, hcreates⟩
        obtain ⟨i, hi⟩ := List.mem_iff_getElem?.mp hmem
        obtain ⟨names, hnames, -⟩ := dependencies_getElem? hdeps hi
        exact ⟨⟨i, operation, names⟩, mem_bulkItems.mpr ⟨hi, hnames⟩, hcreates⟩
      · rintro ⟨post, hpost, hcreates⟩
        exact ⟨_, List.mem_of_getElem? (mem_bulkItems.mp hpost).1, hcreates⟩
    have hstart : KnowsBelow (bulkItems operations dependencies)
        (referenceDepth (WaitsFor operations)) 0 (.start operations.length) := fun name => by
      simp [BulkState.Knows, BulkState.start]
    have hexecute : ∀ item bulkReferences,
        (executeItem P state headers item bulkReferences).Gives (AnswersWithId P item) :=
      executeItem_gives hparse
    have hrounds : scimBulkRounds P (executeItem P state headers) order failOnErrors _ _ _ = _ :=
      scimBulkRounds_eq (isDepth_referenceDepth hacc hback hdeps) hacc.distinct hcreatable hexecute
        (k := operations.length) (by simpa using hlt) (.inr hstart)
    simpa [byDepth, hlength, List.range_eq_range'] using hrounds
  · rw [List.pairwise_iff_getElem]
    intro i j hi hj hij
    have hindex : ∀ {i : ℕ} (hi : i < (bulkItems operations dependencies).length),
        (bulkItems operations dependencies)[i].index = i := by
      intro i hi
      simp [bulkItems]
    rw [hindex hi, hindex hj]
    exact hmono i j hij.le (hlength ▸ hj)

namespace Sample

/-- The value of a hexadecimal digit. -/
def hexValue (c : Char) : ℕ := if c.toNat < 0x3A then c.toNat - 0x30 else c.toNat - 0x57

/-- The number in the hexadecimal digits of a text, which may be hyphenated. -/
def parseHex (text : String) : Uuid :=
  BitVec.ofNat 128 (((text.toList.filter (· ≠ '-')).map hexValue).foldl (fun n d => n * 16 + d) 0)

theorem foldl_digits (n k a : ℕ) :
    ((List.range k).map fun i => (n >>> (4 * (k - 1 - i))) % 16).foldl (fun n d => n * 16 + d) a =
      a * 16 ^ k + n % 16 ^ k := by
  induction k generalizing a with
  | zero => simp [Nat.mod_one]
  | succ k ih =>
    have hshift : ∀ i, k + 1 - 1 - (i + 1) = k - 1 - i := by omega
    rw [List.range_succ_eq_map, List.map_cons, List.map_map, List.foldl_cons]
    simp only [Function.comp_def, Nat.succ_eq_add_one, hshift]
    rw [ih, Nat.shiftRight_eq_div_pow, Nat.pow_succ, Nat.mod_mul, 
      show 2 ^ (4 * (k + 1 - 1 - 0)) = 16 ^ k by rw [Nat.add_sub_cancel, Nat.sub_zero, Nat.pow_mul]]
    ring

theorem hexDigits (l : List Char) (hl : ∀ c ∈ l, c ≠ '-') :
    (l.take 8 ++ '-' :: (l.drop 8).take 4 ++ '-' :: (l.drop 12).take 4 ++
      '-' :: (l.drop 16).take 4 ++ '-' :: l.drop 20).filter (· ≠ '-') = l := by
  have hsub : ∀ l' : List Char, l'.Sublist l → l'.filter (· ≠ '-') = l' := fun l' h =>
    List.filter_eq_self.mpr fun c hc => by simpa using hl c (h.subset hc)
  have hpart : ∀ i, ((l.drop i).take 4).filter (· ≠ '-') = (l.drop i).take 4 := fun i =>
    hsub _ ((List.take_sublist _ _).trans (List.drop_sublist _ _))
  simp only [List.filter_append, List.filter_cons, hpart, hsub _ (List.take_sublist 8 l),
    hsub _ (List.drop_sublist 20 l), List.append_assoc, ne_eq, not_true, decide_false,
    Bool.false_eq_true, if_false]
  rw [show l.drop 20 = ((l.drop 16).drop 4) by rw [List.drop_drop], List.take_append_drop,
    show l.drop 16 = ((l.drop 12).drop 4) by rw [List.drop_drop], List.take_append_drop,
    show l.drop 12 = ((l.drop 8).drop 4) by rw [List.drop_drop], List.take_append_drop,
    List.take_append_drop]

theorem parseHex_hyphenated (u : Uuid) : parseHex (Uuid.hyphenated u) = u := by
  have hdigit : ∀ d < 16, hexValue (Char.ofNat (if d < 10 then 0x30 + d else 0x61 + (d - 10))) = d ∧
      Char.ofNat (if d < 10 then 0x30 + d else 0x61 + (d - 10)) ≠ '-' := by decide
  have hlt : ∀ i, (u.toNat >>> (4 * (31 - i))) % 16 < 16 := fun i => Nat.mod_lt _ (by decide)
  unfold parseHex Uuid.hyphenated
  rw [String.toList_ofList, hexDigits _ fun c hc => ?_, List.map_map]
  · refine (congrArg (fun l => BitVec.ofNat 128 (l.foldl (fun n d => n * 16 + d) 0))
      (List.map_congr_left fun i _ => (hdigit _ (hlt i)).1)).trans ?_
    have := foldl_digits u.toNat 32 0
    rw [this]
    simp [Nat.mod_eq_of_lt u.isLt]
  · obtain ⟨i, -, rfl⟩ := List.mem_map.mp hc
    exact (hdigit _ (hlt i)).2

def hexPrimitives : Primitives := { primitives with parseUuid := fun text => some (parseHex text) }

theorem hexPrimitives_parsesUuids : ParsesUuids hexPrimitives :=
  fun u => congrArg some (parseHex_hyphenated u)

theorem renames_pointBack : PointsBack renameOperations := by
  intro i operation hi text htext reference href
  rcases references_of_renames operation (List.mem_of_getElem? hi) text htext with
    hnone | ⟨hoperation, rfl⟩
  · rw [hnone] at href
    cases href
  · rw [referenceIn_eve] at href
    cases href
    refine ⟨"eve", rfl, 0, ?_, ⟨"POST", some "eve", createEve⟩, rfl, by rfl⟩
    -- the operation is not the first, which has no such reference
    rcases i with _ | i
    · cases hi
      exact absurd (congrArg ScimBulkOperationRequest.method hoperation) (by decide)
    · omega

/-- Every choice offers another identifier. -/
def bulkChoices : List Choice := (List.range 30).map fun i => { uuid := 100 + i }

def renameItems : List BulkItem := bulkItems renameOperations [[], ["eve"], []]

/-- The display names that a run leaves. -/
def displayNames (x : Option (Except ScimError (List Json) × World)) : Option (List String) :=
  x.map fun x => (x.2.store.tables .users).map fun row => row.user.displayName

end Sample

open Sample in
theorem scimBulkJob_in_depth_order_renames : ∃ dependencies,
    renameOperations.mapM (fun operation =>
      scimBulkReferenceDependencies operation.operation) = .ok dependencies ∧
    scimBulkJob hexPrimitives appState requestOrder noHeaders renameOperations none =
      executeSequentially hexPrimitives (executeItem hexPrimitives appState noHeaders) none
        (byDepth (referenceDepth (WaitsFor renameOperations))
          (bulkItems renameOperations dependencies))
          (.start 3) >>= (fun job => Prog.ret job.responses.reduceOption) := by
  obtain ⟨dependencies, hdeps, hjob, -⟩ := scimBulkJob_in_depth_order hexPrimitives_parsesUuids
    appState requestOrder noHeaders renames_accepted renames_pointBack none
  exact ⟨dependencies, hdeps, hjob⟩

open Sample in
/-- The last operation has no reference, so it overtakes the one before it: both change
    the display name of one user, and the job keeps the one written first in the request. -/
theorem renames_overtake : Accepted renames renameOperations ∧ PointsBack renameOperations ∧
    displayNames (play (Call.exec hexPrimitives) bulkChoices
      (scimBulkJob hexPrimitives appState requestOrder noHeaders renameOperations none) tenant) =
        some ["00000000-0000-0000-0000-000000000066", "eve@example.org"] ∧
    displayNames (play (Call.exec hexPrimitives) bulkChoices
      (executeSequentially hexPrimitives (executeItem hexPrimitives appState noHeaders) none
        renameItems (.start 3) >>= fun job => Prog.ret job.responses.reduceOption) tenant) =
        some ["Zoe", "eve@example.org"] :=
  ⟨renames_accepted, renames_pointBack, by decide +kernel, by decide +kernel⟩

end CairnId
