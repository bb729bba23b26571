import CairnId.Bulk

/-!
# The iteration order of the hash sets of a Bulk job

A job iterates two of its hash sets: the references of an operation, to see
whether it is ready, and the pending operations, to report them when none is. The
others are only asked for their members.

## Main definitions

* `stuckRounds` — the rounds, with the operations that are left over
* `HashOrders` — the orders in which a run iterates its sets
* `runJob` — a run over operations that behave deterministically
* `CutShort` — the limit of errors falls among the operations that are left over
-/

namespace CairnId

open Concurrency Prog

-- the references of an operation

/-- The operation with its references in the order of an iteration. -/
def BulkItem.reorder (order : IterationOrder String) (item : BulkItem) : BulkItem :=
  { item with dependencies := order.order item.dependencies }

section reorder

variable {order : IterationOrder String} {creatableBulkIds : List String} {job : BulkState}

theorem isReady_reorder (item : BulkItem) :
    (item.reorder order).isReady creatableBulkIds job = item.isReady creatableBulkIds job :=
  (order.perm item.dependencies).all_eq

theorem readyItems_reorder (pending : List BulkItem) :
    readyItems creatableBulkIds job (pending.map (·.reorder order)) =
      (readyItems creatableBulkIds job pending).map (·.reorder order) := by
  simp only [readyItems, List.filter_map, Function.comp_def, isReady_reorder]

theorem waitingItems_reorder (pending : List BulkItem) :
    waitingItems creatableBulkIds job (pending.map (·.reorder order)) =
      (waitingItems creatableBulkIds job pending).map (·.reorder order) := by
  simp only [waitingItems, List.filter_map, Function.comp_def, isReady_reorder]

theorem bulkItems_reorder (operations : List ScimBulkJobOperation)
    (dependencies : List (List String)) :
    bulkItems operations (dependencies.map order.order) =
      (bulkItems operations dependencies).map (·.reorder order) := by
  refine List.ext_getElem (by simp [bulkItems]) fun i hi hi' => ?_
  simp [bulkItems, BulkItem.reorder]

end reorder

-- the rounds

section rounds

variable (P : Primitives) {E : Type} {R : E → Type}
  (execute : BulkItem → BulkReferences → Prog E R ScimError (Except ScimError ScimOperationResult))
  (failOnErrors : Option Nat) (creatableBulkIds : List String)

/-- The rounds, with the operations that are left over when none is ready. -/
def stuckRounds (pending : List BulkItem) (job : BulkState) :
    Prog E R ScimError (BulkState × List BulkItem) :=
  if pending.isEmpty || limitReached failOnErrors job.errorCount then return (job, [])
  else if _h : readyItems creatableBulkIds job pending = [] then return (job, pending)
  else do
    let next ← executeReady P execute failOnErrors (readyItems creatableBulkIds job pending) job
    stuckRounds (waitingItems creatableBulkIds job pending) next
termination_by pending.length
decreasing_by exact length_waitingItems ‹_›

variable {P execute failOnErrors creatableBulkIds}

/-- The order of the pending operations matters only once none is ready. -/
theorem scimBulkRounds_eq_stuckRounds (order : IterationOrder BulkItem) (pending : List BulkItem)
    (job : BulkState) :
    scimBulkRounds P execute order failOnErrors creatableBulkIds pending job =
      stuckRounds P execute failOnErrors creatableBulkIds pending job >>= fun x =>
        .ret (recordUnresolvedOperations P failOnErrors (order.order x.2) x.1) := by
  induction hlen : pending.length using Nat.strong_induction_on generalizing pending job with
  | _ n ih =>
    rw [scimBulkRounds, stuckRounds]
    split
    · have hnil : order.order [] = [] := (order.perm []).eq_nil
      rw [pure_eq, pure_eq, ret_bind, hnil]
      rfl
    · split
      · rfl
      · rename_i hready
        rw [Prog.bind_assoc]
        congr 1
        funext next
        exact ih _ (hlen ▸ length_waitingItems hready) _ _ rfl

theorem executeReady_reorder {order : IterationOrder String}
    (hexecute : ∀ item references, execute (item.reorder order) references =
      execute item references) (items : List BulkItem) (job : BulkState) :
    executeReady P execute failOnErrors (items.map (·.reorder order)) job =
      executeReady P execute failOnErrors items job := by
  induction items generalizing job with
  | nil => rfl
  | cons item items ih =>
    rw [List.map_cons, executeReady, executeReady, hexecute]
    congr 1
    funext answer
    show (if limitReached failOnErrors (job.ended P item answer).errorCount then
      pure (job.ended P item answer) else _) = _
    rw [ih]
    rfl

/-- The order of the references does not matter at all. -/
theorem stuckRounds_reorder {order : IterationOrder String}
    (hexecute : ∀ item references, execute (item.reorder order) references =
      execute item references) (pending : List BulkItem) (job : BulkState) :
    stuckRounds P execute failOnErrors creatableBulkIds (pending.map (·.reorder order)) job =
      stuckRounds P execute failOnErrors creatableBulkIds pending job >>= fun x =>
        .ret (x.1, x.2.map (·.reorder order)) := by
  induction hlen : pending.length using Nat.strong_induction_on generalizing pending job with
  | _ n ih =>
    rw [stuckRounds, stuckRounds, readyItems_reorder, waitingItems_reorder, List.isEmpty_map]
    split
    · rfl
    · by_cases hready : readyItems creatableBulkIds job pending = []
      · rw [dif_pos hready, dif_pos (by rw [hready]; rfl)]
        rfl
      · rw [dif_neg hready, dif_neg (by simpa using hready), Prog.bind_assoc,
          executeReady_reorder hexecute]
        congr 1
        funext next
        exact ih _ (hlen ▸ length_waitingItems hready) _ _ rfl

-- the responses of the rounds

theorem executeReady_responses (items : List BulkItem) (job : BulkState) :
    (executeReady P execute failOnErrors items job).Gives fun next =>
      next.responses.length = job.responses.length ∧
        ∀ i, (∀ item ∈ items, item.index ≠ i) → next.responses[i]? = job.responses[i]? := by
  induction items generalizing job with
  | nil => exact .ret ⟨rfl, fun _ _ => rfl⟩
  | cons item items ih =>
    rw [executeReady]
    refine Gives.last fun answer => ?_
    dsimp only
    have hother : ∀ i, item.index ≠ i →
        (job.ended P item answer).responses[i]? = job.responses[i]? := by
      intro i hne
      rw [ended_responses, List.getElem?_set_ne hne]
    have hlength : (job.ended P item answer).responses.length = job.responses.length := by
      rw [ended_responses, List.length_set]
    split
    · exact .ret ⟨hlength, fun i hi => hother i (hi item (.head _))⟩
    · refine (ih (job.ended P item answer)).mono fun next hnext => ?_
      refine ⟨hnext.1.trans hlength, fun i hi => ?_⟩
      rw [hnext.2 i fun item' hitem' => hi item' (.tail _ hitem')]
      exact hother i (hi item (.head _))

/-- Operations that are left over have no response. -/
theorem stuckRounds_responses {pending : List BulkItem} {job : BulkState}
    (hnodup : (pending.map BulkItem.index).Nodup) :
    (stuckRounds P execute failOnErrors creatableBulkIds pending job).Gives fun x =>
      x.1.responses.length = job.responses.length ∧ x.2.Sublist pending ∧
        ∀ item ∈ x.2, x.1.responses[item.index]? = job.responses[item.index]? := by
  induction hlen : pending.length using Nat.strong_induction_on generalizing pending job with
  | _ n ih =>
    rw [stuckRounds]
    split
    · exact .ret ⟨rfl, List.nil_sublist _, by simp⟩
    · split
      · exact .ret ⟨rfl, List.Sublist.refl _, fun _ _ => rfl⟩
      · rename_i hready
        have hwaiting : (waitingItems creatableBulkIds job pending).Sublist pending :=
          List.filter_sublist
        refine (executeReady_responses _ job).bind fun next hnext => ?_
        refine (ih _ (hlen ▸ length_waitingItems hready) (hnodup.sublist (hwaiting.map _)) rfl).mono
          fun x hx => ?_
        obtain ⟨hlength, hsub, hkept⟩ := hx
        refine ⟨hlength.trans hnext.1, hsub.trans hwaiting, fun item hitem => ?_⟩
        have hwaits := hsub.subset hitem
        rw [hkept item hitem, hnext.2]
        -- an operation of the round has another index, since it was ready
        intro item' hran heq
        obtain ⟨hmem, hisReady⟩ := List.mem_filter.mp hran
        obtain ⟨hmem', hwaits⟩ := List.mem_filter.mp hwaits
        rw [List.inj_on_of_nodup_map hnodup hmem hmem' heq] at hisReady
        simp [hisReady] at hwaits

theorem recordUnresolvedOperations_some {limit : ℕ} (rest : List BulkItem) (job : BulkState)
    (h : job.errorCount < limit) :
    recordUnresolvedOperations P (some limit) rest job =
      (rest.take (limit - job.errorCount)).foldl
        (fun job item => job.ended P item (.error scimBulkUnresolved)) job := by
  induction rest generalizing job with
  | nil => simp [recordUnresolvedOperations]
  | cons item rest ih =>
    obtain ⟨k, hk⟩ := Nat.exists_eq_add_of_lt h
    have hleft : limit - job.errorCount = k + 1 := by omega
    have hcount : (job.ended P item (.error scimBulkUnresolved)).errorCount =
        job.errorCount + 1 := rfl
    rw [hleft, List.take_succ_cons, List.foldl_cons, recordUnresolvedOperations]
    by_cases hlast : limit ≤ job.errorCount + 1
    · have hzero : k = 0 := by omega
      rw [if_pos (by simpa [limitReached, hcount] using hlast), hzero, List.take_zero,
        List.foldl_nil]
    · rw [if_neg (by simpa [limitReached, hcount] using hlast), ih _ (by omega), hcount]
      congr 2
      omega

end rounds

-- runs with operations that behave deterministically

/-- What the behaviour of an operation may depend on. -/
structure BulkCall where
  index : Nat
  operation : ScimBulkOperationRequest
  bulkReferences : BulkReferences

abbrev BulkCallAnswer (_ : BulkCall) : Type := Except ScimError ScimOperationResult

def callItem (item : BulkItem) (bulkReferences : BulkReferences) :
    Prog BulkCall BulkCallAnswer ScimError (Except ScimError ScimOperationResult) :=
  Prog.perform (R := BulkCallAnswer) ⟨item.index, item.operation.operation, bulkReferences⟩

/-- Execute an operation on the store, and note it. -/
def answered {σ : Type} (behave : BulkCall → σ → Except ScimError ScimOperationResult × σ)
    (call : BulkCall) (x : σ × List (Event BulkCallAnswer)) :
    Except ScimError (Except ScimError ScimOperationResult × σ × List (Event BulkCallAnswer)) :=
  .ok ((behave call x.1).1, (behave call x.1).2, ⟨call, (behave call x.1).1⟩ :: x.2)

/-- The orders in which the sets of one run are iterated. -/
structure HashOrders where
  pending : IterationOrder BulkItem
  dependencies : IterationOrder String

/-- The order in which a set lists its elements, and its reverse. -/
def IterationOrder.listed {α : Type} : IterationOrder α := ⟨id, List.Perm.refl⟩

def IterationOrder.reversed {α : Type} : IterationOrder α := ⟨List.reverse, List.reverse_perm⟩

section job

variable (P : Primitives)

/-- `execute_scim_bulk_job` with the given orders, up to the responses of all
    operations, those of the operations without one left open. -/
def scimBulkJobResponses {E : Type} {R : E → Type}
    (execute : BulkItem → BulkReferences →
      Prog E R ScimError (Except ScimError ScimOperationResult))
    (hash : HashOrders) (operations : List ScimBulkJobOperation) (failOnErrors : Option Nat) :
    Prog E R ScimError (List (Option Json)) := do
  let creatableBulkIds := operations.filterMap (·.creates)
  let dependencies ← Prog.ofExcept (operations.mapM fun operation =>
    scimBulkReferenceDependencies operation.operation)
  let job ← scimBulkRounds P execute hash.pending failOnErrors creatableBulkIds
    (bulkItems operations (dependencies.map hash.dependencies.order)) (.start operations.length)
  return job.responses

theorem executeScimBulkJob_eq_responses {E : Type} {R : E → Type}
    (execute : BulkItem → BulkReferences →
      Prog E R ScimError (Except ScimError ScimOperationResult))
    (order : IterationOrder BulkItem) (operations : List ScimBulkJobOperation)
    (failOnErrors : Option Nat) :
    executeScimBulkJob P execute order operations failOnErrors =
      scimBulkJobResponses P execute ⟨order, .listed⟩ operations failOnErrors >>=
        fun responses => .ret responses.reduceOption := by
  simp only [executeScimBulkJob, scimBulkJobResponses, Prog.bind_assoc, pure_eq, ret_bind]
  congr 1
  funext dependencies
  rw [show dependencies.map IterationOrder.listed.order = dependencies from List.map_id _]

variable {σ : Type} (behave : BulkCall → σ → Except ScimError ScimOperationResult × σ)
  (operations : List ScimBulkJobOperation)

/-- A run from a store: the responses, the store it leaves and the executions, the
    last one first. -/
def runJob (failOnErrors : Option Nat) (hash : HashOrders) (s : σ) :
    Except ScimError (List (Option Json) × σ × List (Event BulkCallAnswer)) :=
  (scimBulkJobResponses P callItem hash operations failOnErrors).runWith (answered behave) (s, [])

/-- Without a limit of errors, so many operations fail and these are never ready. -/
def Leaves (s : σ) (failed : ℕ) (stuck : List BulkItem) : Prop :=
  ∃ dependencies job x, operations.mapM (fun operation =>
      scimBulkReferenceDependencies operation.operation) = .ok dependencies ∧
    (stuckRounds P callItem none (operations.filterMap (·.creates))
      (bulkItems operations dependencies) (.start operations.length)).runWith (answered behave)
        (s, []) = .ok ((job, stuck), x) ∧ job.errorCount = failed

/-- The limit is reached after some of the operations that are never ready, and
    before the last of them. -/
def CutShort (failOnErrors : Option Nat) (s : σ) : Prop :=
  ∃ limit failed stuck, failOnErrors = some limit ∧ Leaves P behave operations s failed stuck ∧
    failed < limit ∧ limit < failed + stuck.length

end job

section run

variable {P : Primitives} {σ : Type}
  (behave : BulkCall → σ → Except ScimError ScimOperationResult × σ)
  (creatableBulkIds : List String)

theorem errorCount_le_ended (job : BulkState) (item : BulkItem)
    (answer : Except ScimError ScimOperationResult) :
    job.errorCount ≤ (job.ended P item answer).errorCount := by
  cases answer with
  | ok result => exact le_refl job.errorCount
  | error error => exact Nat.le_succ job.errorCount

theorem runWith_callItem_bind {α : Type} (item : BulkItem) (bulkReferences : BulkReferences)
    (x : σ × List (Event BulkCallAnswer)) : ∃ answer x',
      ∀ f : Except ScimError ScimOperationResult → Prog BulkCall BulkCallAnswer ScimError α,
        (callItem item bulkReferences >>= f).runWith (answered behave) x =
          (f answer).runWith (answered behave) x' :=
  ⟨_, _, fun _ => rfl⟩

/-- A round always ends, and does not forget errors. -/
theorem exists_run_executeReady (failOnErrors : Option Nat) (items : List BulkItem)
    (job : BulkState) (x : σ × List (Event BulkCallAnswer)) : ∃ next x',
      (executeReady P callItem failOnErrors items job).runWith (answered behave) x =
        .ok (next, x') ∧ job.errorCount ≤ next.errorCount := by
  induction items generalizing job x with
  | nil => exact ⟨job, x, rfl, le_refl _⟩
  | cons item items ih =>
    rw [executeReady]
    obtain ⟨answer, x₁, hstep⟩ :=
      runWith_callItem_bind behave item job.bulkReferences x
    have hle := errorCount_le_ended (P := P) job item answer
    rw [hstep]
    dsimp only
    split
    · exact ⟨_, x₁, rfl, hle⟩
    · obtain ⟨next, x', hrun, hmore⟩ := ih (job.ended P item answer) x₁
      exact ⟨next, x', hrun, hle.trans hmore⟩

/-- A round with a limit is the round without, or it stops at the limit. -/
theorem run_executeReady_some (limit : ℕ) (items : List BulkItem) (job : BulkState)
    (x : σ × List (Event BulkCallAnswer)) (hlimit : job.errorCount < limit) : ∃ next x',
      (executeReady P callItem none items job).runWith (answered behave) x = .ok (next, x') ∧
      (next.errorCount < limit →
        (executeReady P callItem (some limit) items job).runWith (answered behave) x =
          .ok (next, x')) ∧
      (limit ≤ next.errorCount → ∃ stopped x'',
        (executeReady P callItem (some limit) items job).runWith (answered behave) x =
          .ok (stopped, x'') ∧ limit ≤ stopped.errorCount) := by
  induction items generalizing job x with
  | nil => exact ⟨job, x, rfl, fun _ => rfl, fun h => absurd hlimit (Nat.not_lt.mpr h)⟩
  | cons item items ih =>
    rw [executeReady, executeReady]
    obtain ⟨answer, x₁, hstep⟩ :=
      runWith_callItem_bind behave item job.bulkReferences x
    rw [hstep, hstep]
    dsimp only
    rw [if_neg (by simp [limitReached])]
    by_cases hreached : limit ≤ (job.ended P item answer).errorCount
    · obtain ⟨next, x', hrun, hle⟩ := exists_run_executeReady behave none items
        (job.ended P item answer) x₁
      refine ⟨next, x', hrun, fun h => ?_, fun _ => ⟨job.ended P item answer, x₁, ?_, hreached⟩⟩
      · omega
      · rw [if_pos (by simpa [limitReached] using hreached)]
        rfl
    · rw [if_neg (by simpa [limitReached] using hreached)]
      exact ih _ x₁ (by omega)

/-- The rounds always end, and do not forget errors. -/
theorem exists_run_stuckRounds (failOnErrors : Option Nat) (pending : List BulkItem)
    (job : BulkState) (x : σ × List (Event BulkCallAnswer)) : ∃ next rest x',
      (stuckRounds P callItem failOnErrors creatableBulkIds pending job).runWith
        (answered behave) x = .ok ((next, rest), x') ∧ job.errorCount ≤ next.errorCount := by
  induction hlen : pending.length using Nat.strong_induction_on generalizing pending job x with
  | _ n ih =>
    rw [stuckRounds]
    split
    · exact ⟨job, [], x, rfl, le_refl _⟩
    · split
      · exact ⟨job, pending, x, rfl, le_refl _⟩
      · rename_i hready
        obtain ⟨next, x₁, hround, hle⟩ := exists_run_executeReady (P := P) behave
          failOnErrors (readyItems creatableBulkIds job pending) job x
        obtain ⟨last, rest, x', hrun, hmore⟩ :=
          ih _ (hlen ▸ length_waitingItems hready) _ next x₁ rfl
        refine ⟨last, rest, x', ?_, hle.trans hmore⟩
        rw [runWith_bind, hround]
        exact hrun

/-- The rounds with a limit are those without, or they stop at the limit and leave
    nothing to report. -/
theorem run_stuckRounds_some (limit : ℕ) (pending : List BulkItem) (job : BulkState)
    (x : σ × List (Event BulkCallAnswer)) : ∃ next rest x',
      (stuckRounds P callItem none creatableBulkIds pending job).runWith (answered behave) x =
        .ok ((next, rest), x') ∧
      (next.errorCount < limit →
        (stuckRounds P callItem (some limit) creatableBulkIds pending job).runWith
          (answered behave) x = .ok ((next, rest), x')) ∧
      (limit ≤ next.errorCount → ∃ stopped x'',
        (stuckRounds P callItem (some limit) creatableBulkIds pending job).runWith
          (answered behave) x = .ok ((stopped, []), x'')) := by
  have hstop (pending : List BulkItem) (job : BulkState) (x : σ × List (Event BulkCallAnswer))
      (hreached : limit ≤ job.errorCount) :
      (stuckRounds P callItem (some limit) creatableBulkIds pending job).runWith
        (answered behave) x = .ok ((job, []), x) := by
    rw [stuckRounds, if_pos (by simp [limitReached, hreached])]
    rfl
  induction hlen : pending.length using Nat.strong_induction_on generalizing pending job x with
  | _ n ih =>
    by_cases hreached : limit ≤ job.errorCount
    · obtain ⟨next, rest, x', hrun, hle⟩ := exists_run_stuckRounds (P := P) behave
        creatableBulkIds none pending job x
      exact ⟨next, rest, x', hrun, fun h => by omega, fun _ => ⟨job, x, hstop pending job x hreached⟩⟩
    have hnone : limitReached none job.errorCount = false := rfl
    have hsome : limitReached (some limit) job.errorCount = false := by
      simpa [limitReached] using hreached
    rw [stuckRounds, stuckRounds, hnone, hsome]
    split
    · exact ⟨job, [], x, rfl, fun _ => rfl, fun h => absurd h hreached⟩
    · split
      · exact ⟨job, pending, x, rfl, fun _ => rfl, fun h => absurd h hreached⟩
      · rename_i hready
        obtain ⟨next, x₁, hround, hsame, hstopped⟩ := run_executeReady_some (P := P)
          behave limit (readyItems creatableBulkIds job pending) job x
          (by omega)
        rw [runWith_bind, runWith_bind, hround]
        by_cases hnext : limit ≤ next.errorCount
        · obtain ⟨stopped, x₂, hrun, hle⟩ := hstopped hnext
          obtain ⟨last, rest, x', hlast, hmore⟩ := exists_run_stuckRounds (P := P)
            behave creatableBulkIds none
            (waitingItems creatableBulkIds job pending) next x₁
          refine ⟨last, rest, x', hlast, fun h => by omega, fun _ => ⟨stopped, x₂, ?_⟩⟩
          rw [hrun]
          exact hstop _ _ _ hle
        · rw [hsame (by omega)]
          exact ih _ (hlen ▸ length_waitingItems hready) _ next x₁ rfl

end run

-- the report of the operations that are left over

section report

variable {P : Primitives} {rest : List BulkItem} {job : BulkState}

/-- The operations that are left over, as a run iterates them. -/
def HashOrders.report (hash : HashOrders) (rest : List BulkItem) : List BulkItem :=
  hash.pending.order (rest.map (·.reorder hash.dependencies))

theorem HashOrders.length_report (hash : HashOrders) : (hash.report rest).length = rest.length := by
  rw [report, (hash.pending.perm _).length_eq, List.length_map]

theorem HashOrders.mem_report (hash : HashOrders) {item : BulkItem} :
    item ∈ hash.report rest ↔ ∃ item' ∈ rest, item'.reorder hash.dependencies = item := by
  rw [report, (hash.pending.perm _).mem_iff, List.mem_map]

theorem HashOrders.nodup_report (hash : HashOrders) (hnodup : (rest.map BulkItem.index).Nodup) :
    ((hash.report rest).map BulkItem.index).Nodup := by
  rw [report, ((hash.pending.perm _).map _).nodup_iff, List.map_map]
  exact hnodup

/-- A report of all of them is the same in every order. -/
theorem refused_report (hash : HashOrders) (hnodup : (rest.map BulkItem.index).Nodup)
    (hlt : ∀ item ∈ rest, item.index < job.responses.length) :
    ((hash.report rest).foldl (fun job item => job.ended P item (.error scimBulkUnresolved))
        job).responses =
      (rest.foldl (fun job item => job.ended P item (.error scimBulkUnresolved)) job).responses := by
  refine List.ext_getElem? fun i => ?_
  by_cases hi : ∃ item ∈ rest, item.index = i
  · obtain ⟨item, hitem, rfl⟩ := hi
    have hreported := @refused_response P _ job _
      (hash.mem_report.mpr ⟨item, hitem, rfl⟩) (hash.nodup_report hnodup) (hlt item hitem)
    rw [refused_response hitem hnodup (hlt item hitem)]
    exact hreported
  · have hnone : ∀ item ∈ rest, item.index ≠ i := fun item hitem heq => hi ⟨item, hitem, heq⟩
    rw [refused_responses hnone, refused_responses]
    intro item hitem
    obtain ⟨item', hitem', rfl⟩ := hash.mem_report.mp hitem
    exact hnone item' hitem'

end report

section independence

variable {P : Primitives} {σ : Type}
  {behave : BulkCall → σ → Except ScimError ScimOperationResult × σ}
  {operations : List ScimBulkJobOperation} {failOnErrors : Option Nat} {s : σ}
  {dependencies : List (List String)} {job : BulkState} {rest : List BulkItem}
  {x : σ × List (Event BulkCallAnswer)}

/-- What a run leaves, by the rounds and the report of what they leave over. -/
theorem runJob_eq (hdeps : operations.mapM (fun operation =>
      scimBulkReferenceDependencies operation.operation) = .ok dependencies)
    (hrun : (stuckRounds P callItem failOnErrors (operations.filterMap (·.creates))
      (bulkItems operations dependencies) (.start operations.length)).runWith (answered behave)
        (s, []) = .ok ((job, rest), x)) (hash : HashOrders) :
    runJob P behave operations failOnErrors hash s =
      .ok ((recordUnresolvedOperations P failOnErrors (hash.report rest) job).responses, x) := by
  rw [runJob, scimBulkJobResponses, hdeps]
  simp only [Prog.ofExcept, ret_bind, scimBulkRounds_eq_stuckRounds, bulkItems_reorder]
  rw [stuckRounds_reorder (fun _ _ => rfl), runWith_bind, runWith_bind, runWith_bind, hrun]
  rfl

theorem nodup_bulkItems : ((bulkItems operations dependencies).map BulkItem.index).Nodup := by
  rw [index_bulkItems]
  exact List.nodup_range

/-- What is left over has places in the request, and no responses there. -/
theorem leftover_of_run (hrun : (stuckRounds P callItem failOnErrors
      (operations.filterMap (·.creates)) (bulkItems operations dependencies)
        (.start operations.length)).runWith (answered behave) (s, []) = .ok ((job, rest), x)) :
    (rest.map BulkItem.index).Nodup ∧
      ∀ item ∈ rest, item.index < job.responses.length ∧
        job.responses[item.index]? = some none := by
  obtain ⟨hlength, hsub, hkept⟩ := (stuckRounds_responses nodup_bulkItems).runWith hrun
  refine ⟨nodup_bulkItems.sublist (hsub.map _), fun item hitem => ?_⟩
  have hplace := (mem_bulkItems.mp (hsub.subset hitem)).1
  have hlt : item.index < operations.length := (List.getElem?_eq_some_iff.mp hplace).1
  have hstart : (BulkState.start operations.length).responses.length = operations.length := by
    simp [BulkState.start]
  refine ⟨by rw [hlength, hstart]; exact hlt, ?_⟩
  rw [hkept item hitem]
  simp [BulkState.start, hlt]

theorem report_listed (rest : List BulkItem) :
    HashOrders.report ⟨.listed, .listed⟩ rest = rest := List.map_id rest

theorem report_reversed (rest : List BulkItem) :
    HashOrders.report ⟨.reversed, .listed⟩ rest = rest.reverse :=
  congrArg List.reverse (List.map_id rest)

/-- A report that is cut short differs between a set's order and its reverse. -/
theorem report_cut {limit : ℕ} (hnodup : (rest.map BulkItem.index).Nodup)
    (hopen : ∀ item ∈ rest, item.index < job.responses.length ∧
      job.responses[item.index]? = some none)
    (hlimit : job.errorCount < limit) (hcut : limit < job.errorCount + rest.length) :
    (recordUnresolvedOperations P (some limit) rest job).responses ≠
      (recordUnresolvedOperations P (some limit) rest.reverse job).responses := by
  rw [recordUnresolvedOperations_some _ _ hlimit, recordUnresolvedOperations_some _ _ hlimit]
  cases rest with
  | nil => simp only [List.length_nil, Nat.add_zero] at hcut; omega
  | cons item rest =>
    obtain ⟨k, hk⟩ := Nat.exists_eq_add_of_lt hlimit
    have hleft : limit - job.errorCount = k + 1 := by omega
    have hshort : k + 1 ≤ rest.reverse.length := by
      rw [List.length_reverse]
      rw [List.length_cons] at hcut
      omega
    obtain ⟨hlt, hnone⟩ := hopen item (.head _)
    rw [hleft, List.reverse_cons, List.take_append_of_le_length hshort]
    intro heq
    -- the first operation is reported in the one order and not in the other
    have hfirst : item ∈ (item :: rest).take (k + 1) := .head _
    have hreported := @refused_response P _ job _ hfirst
      (hnodup.sublist ((List.take_sublist _ _).map _)) hlt
    have hopen' := @refused_responses P (rest.reverse.take (k + 1)) job item.index
      fun item' hitem' hindex => by
        rw [List.map_cons, List.nodup_cons] at hnodup
        have hmem : item' ∈ rest := List.mem_reverse.mp (List.mem_of_mem_take hitem')
        exact hnodup.1 (hindex ▸ List.mem_map_of_mem hmem)
    rw [heq, hopen', hnone] at hreported
    cases hreported

/-- **Hash order.** Two runs on the same operations and store execute the same
    operations in the same order and give each operation the same response, unless the
    limit of errors falls among the operations that are never ready. -/
theorem hash_order_independent_iff (P : Primitives) {σ : Type}
    (behave : BulkCall → σ → Except ScimError ScimOperationResult × σ)
    (operations : List ScimBulkJobOperation) (failOnErrors : Option Nat) (s : σ) :
    (∀ hash hash', runJob P behave operations failOnErrors hash s =
      runJob P behave operations failOnErrors hash' s) ↔
        ¬CutShort P behave operations failOnErrors s := by
  constructor
  · rintro hsame ⟨limit, failed, stuck, rfl, ⟨dependencies, job, x, hdeps, hrun, rfl⟩, hlt, hcut⟩
    obtain ⟨next, rest, x', hrun', hlimited, -⟩ := run_stuckRounds_some (P := P) behave
      (operations.filterMap (·.creates)) limit (bulkItems operations dependencies) (.start operations.length) (s, [])
    rw [hrun] at hrun'
    cases hrun'
    have hrun := hlimited hlt
    obtain ⟨hnodup, hopen⟩ := leftover_of_run hrun
    have heq := hsame ⟨.listed, .listed⟩ ⟨.reversed, .listed⟩
    rw [runJob_eq hdeps hrun, runJob_eq hdeps hrun, report_listed, report_reversed] at heq
    exact report_cut hnodup hopen hlt hcut (congrArg Prod.fst (Except.ok.inj heq))
  · intro hwhole
    cases hdeps : operations.mapM (fun operation =>
        scimBulkReferenceDependencies operation.operation) with
    | error error =>
      intro hash hash'
      rw [runJob, runJob, scimBulkJobResponses, scimBulkJobResponses, hdeps]
      rfl
    | ok dependencies =>
      obtain ⟨job, rest, x, hrun, -⟩ := exists_run_stuckRounds (P := P) behave
        (operations.filterMap (·.creates)) failOnErrors
        (bulkItems operations dependencies) (.start operations.length) (s, [])
      obtain ⟨hnodup, hopen⟩ := leftover_of_run hrun
      have hlt : ∀ item ∈ rest, item.index < job.responses.length :=
        fun item hitem => (hopen item hitem).1
      have hall : ∀ hash : HashOrders,
          (recordUnresolvedOperations P failOnErrors (hash.report rest) job).responses =
            (rest.foldl (fun job item => job.ended P item (.error scimBulkUnresolved))
              job).responses := by
        intro hash
        cases failOnErrors with
        | none => rw [recordUnresolvedOperations_none, refused_report hash hnodup hlt]
        | some limit =>
          obtain ⟨next, rest', x', hfree, hsame, hstopped⟩ := run_stuckRounds_some (P := P)
            behave (operations.filterMap (·.creates)) limit (bulkItems operations dependencies) (.start operations.length) (s, [])
          by_cases hlimit : next.errorCount < limit
          · have heq := hrun.symm.trans (hsame hlimit)
            cases heq
            have hfits : ¬limit < job.errorCount + rest.length := fun hcut =>
              hwhole ⟨limit, _, rest, rfl, ⟨dependencies, job, x, hdeps, hfree, rfl⟩, hlimit, hcut⟩
            rw [recordUnresolvedOperations_some _ _ hlimit, List.take_of_length_le,
              refused_report hash hnodup hlt]
            rw [hash.length_report]
            omega
          · obtain ⟨stopped, x'', hstop⟩ := hstopped (Nat.not_lt.mp hlimit)
            have heq := hrun.symm.trans hstop
            cases heq
            have hnil : hash.report [] = [] := (hash.pending.perm []).eq_nil
            rw [hnil]
            rfl
      intro hash hash'
      rw [runJob_eq hdeps hrun, runJob_eq hdeps hrun, hall hash, hall hash']

end independence

namespace Sample

/-- A new group with a member that a reference names. -/
def createTeam (bulkId member : String) : ScimBulkOperationRequest :=
  ⟨"POST", some bulkId, "/Groups", some (.object [("displayName", .string bulkId),
    ("members", .array [.object [("value", .string member)]])])⟩

/-- Two groups that wait for each other. -/
def crossed : List ScimBulkOperationRequest :=
  [createTeam "a" "bulkId:b", createTeam "b" "bulkId:a"]

def crossedOperations : List ScimBulkJobOperation :=
  [⟨"POST", some "a", createTeam "a" "bulkId:b"⟩, ⟨"POST", some "b", createTeam "b" "bulkId:a"⟩]

def crossedDependencies : List (List String) := [["b"], ["a"]]

/-- The run never gets to an operation. -/
def idle (_ : BulkCall) (_ : Unit) : Except ScimError ScimOperationResult × Unit :=
  (.error scimBulkUnresolved, ())

end Sample

open Sample in
/-- With a limit of one error, the order decides which group is reported. -/
theorem crossed_report_depends_on_order : Accepted crossed crossedOperations ∧
    (runJob primitives idle crossedOperations (some 1) ⟨.listed, .listed⟩ ()).map
        (fun x => x.1.reduceOption) =
      .ok [scimBulkErrorResponse "POST" (some "a") scimBulkUnresolved] ∧
    (runJob primitives idle crossedOperations (some 1) ⟨.reversed, .listed⟩ ()).map
        (fun x => x.1.reduceOption) =
      .ok [scimBulkErrorResponse "POST" (some "b") scimBulkUnresolved] := by
  have hdeps : crossedOperations.mapM (fun operation =>
      scimBulkReferenceDependencies operation.operation) = .ok crossedDependencies := by rfl
  have hready : readyItems (crossedOperations.filterMap (·.creates))
      (.start crossedOperations.length) (bulkItems crossedOperations crossedDependencies) = [] := by
    rfl
  have hrun : (stuckRounds primitives callItem (some 1) (crossedOperations.filterMap (·.creates))
      (bulkItems crossedOperations crossedDependencies)
        (.start crossedOperations.length)).runWith (answered idle) ((), []) =
      .ok ((.start 2, bulkItems crossedOperations crossedDependencies), (), []) := by
    rw [stuckRounds, if_neg (by decide), dif_pos hready]
    rfl
  refine ⟨⟨by decide, by rfl⟩, ?_, ?_⟩
  · rw [runJob_eq hdeps hrun, report_listed]
    rfl
  · rw [runJob_eq hdeps hrun, report_reversed]
    rfl

end CairnId
