import CairnId.Http.ScimBulkReferences

/-!
# The executions of a Bulk job

The job over calls, one for each execution of an operation. What the job knows is
a function of the executions so far and their answers (`replay`), so what it does
next is stated of the history alone.

## Main results

- `executeReady_sat`, `scimBulkRounds_sat` — when the job executes an operation, and
  what it leaves when it ends
- `executeScimBulkJob_interp` — the job over any executions is the job over calls,
  with each call expanded
-/

namespace CairnId

open Concurrency Prog

structure BulkExecution where
  item : BulkItem
  bulkReferences : BulkReferences

abbrev BulkAnswer (_ : BulkExecution) : Type := Except ScimError ScimOperationResult

abbrev BulkHistory := List (Event BulkAnswer)

def performItem (item : BulkItem) (bulkReferences : BulkReferences) :
    Prog BulkExecution BulkAnswer ScimError (Except ScimError ScimOperationResult) :=
  Prog.perform (R := BulkAnswer) ⟨item, bulkReferences⟩

section interp

variable {P : Primitives} {E : Type} {R : E → Type} {order : IterationOrder BulkItem}
  {failOnErrors : Option Nat}
  (execute : BulkItem → BulkReferences → Prog E R ScimError (Except ScimError ScimOperationResult))

theorem executeReady_interp (items : List BulkItem) (job : BulkState) :
    (executeReady P performItem failOnErrors items job).interp
      (fun e => execute e.item e.bulkReferences) =
        executeReady P execute failOnErrors items job := by
  induction items generalizing job with
  | nil => rfl
  | cons item items ih =>
    simp only [executeReady, performItem, perform_bind, interp]
    refine congrArg (execute item job.bulkReferences).bind (funext fun answer => ?_)
    split
    · rfl
    · exact ih _

theorem scimBulkRounds_interp (creatableBulkIds : List String) (pending : List BulkItem)
    (job : BulkState) :
    (scimBulkRounds P performItem order failOnErrors creatableBulkIds pending job).interp
      (fun e => execute e.item e.bulkReferences) =
        scimBulkRounds P execute order failOnErrors creatableBulkIds pending job := by
  induction hlen : pending.length using Nat.strong_induction_on generalizing pending job with
  | _ n ih =>
    rw [scimBulkRounds, scimBulkRounds]
    split
    · rfl
    · split
      · rfl
      · rename_i hready
        rw [interp_bind, executeReady_interp]
        congr 1
        funext next
        exact ih _ (hlen ▸ length_waitingItems hready) _ _ rfl

/-- **Expansion**: the job over any executions is the job over calls. -/
theorem executeScimBulkJob_interp (operations : List ScimBulkJobOperation) :
    (executeScimBulkJob P performItem order operations failOnErrors).interp
      (fun e => execute e.item e.bulkReferences) =
        executeScimBulkJob P execute order operations failOnErrors := by
  simp only [executeScimBulkJob, interp_bind, interp_ofExcept, scimBulkRounds_interp]
  rfl

end interp

-- what the job knows

section replay

variable (P : Primitives) (n : ℕ)

/-- The state of the job after the executions of a history. -/
def replay (h : BulkHistory) : BulkState :=
  h.foldr (fun ev job => job.ended P ev.1.item ev.2) (.start n)

/-- How many executions of the history answered an error. -/
def failures (h : BulkHistory) : ℕ := h.countP fun ev => !ev.2.isOk

variable {P n} {h : BulkHistory} {ev : Event BulkAnswer} {name : String}

theorem replay_cons : replay P n (ev :: h) = (replay P n h).ended P ev.1.item ev.2 := rfl

theorem ended_responses (job : BulkState) (item : BulkItem)
    (answer : Except ScimError ScimOperationResult) : (job.ended P item answer).responses =
      job.responses.set item.index (some (scimBulkResponse item answer)) := by
  cases answer <;> rfl

theorem replay_errorCount : (replay P n h).errorCount = failures h := by
  induction h with
  | nil => rfl
  | cons ev h ih =>
    obtain ⟨e, answer⟩ := ev
    cases answer with
    | ok result => simpa [replay_cons, BulkState.ended, failures, Except.isOk, Except.toBool] using ih
    | error error => simpa [replay_cons, BulkState.ended, failures, Except.isOk, Except.toBool] using ih

/-- The history has a `POST` of the `bulkId` that created a resource. -/
def Created (P : Primitives) (h : BulkHistory) (name : String) (resourceId : Uuid) : Prop :=
  ∃ ev ∈ h, ev.1.item.operation.creates = some name ∧
    ∃ result, ev.2 = .ok result ∧ scimBulkResultResourceId P result = some resourceId

/-- The history has a `POST` of the `bulkId` that failed. -/
def Failed (h : BulkHistory) (name : String) : Prop :=
  ∃ ev ∈ h, ev.1.item.operation.creates = some name ∧ ∃ error, ev.2 = .error error

theorem created_of_lookup {resourceId : Uuid}
    (hlookup : (replay P n h).bulkReferences.lookup name = some resourceId) :
    Created P h name resourceId := by
  induction h with
  | nil => simp [replay, BulkState.start] at hlookup
  | cons ev h ih =>
    have later : (replay P n h).bulkReferences.lookup name = some resourceId →
        Created P (ev :: h) name resourceId := fun hlookup => by
      obtain ⟨ev', hev, hcreates, hresult⟩ := ih hlookup
      exact ⟨ev', .tail _ hev, hcreates, hresult⟩
    obtain ⟨e, answer⟩ := ev
    cases answer with
    | error error => exact later hlookup
    | ok result =>
      simp only [replay_cons, BulkState.ended] at hlookup
      split at hlookup
      · rename_i bulkId id hcreates hid
        rw [List.singleton_append, List.lookup_cons] at hlookup
        split at hlookup
        · rename_i hname
          cases hlookup
          rw [beq_iff_eq] at hname
          exact ⟨_, .head _, hname ▸ hcreates, result, rfl, hid⟩
        · exact later hlookup
      · exact later hlookup

theorem mem_failedBulkIds : name ∈ (replay P n h).failedBulkIds ↔ Failed h name := by
  induction h with
  | nil => simp [replay, BulkState.start, Failed]
  | cons ev h ih =>
    obtain ⟨e, answer⟩ := ev
    cases answer with
    | ok result => simpa [replay_cons, BulkState.ended, Failed] using ih
    | error error =>
      simp only [replay_cons, BulkState.ended, List.mem_append, Option.mem_toList, ih]
      simp [Failed]

/-- What is ready stays ready. -/
theorem isReady_ended {creatableBulkIds : List String} {job : BulkState} {item item' : BulkItem}
    {answer : Except ScimError ScimOperationResult}
    (hready : item.isReady creatableBulkIds job = true) :
    item.isReady creatableBulkIds (job.ended P item' answer) = true := by
  simp only [BulkItem.isReady, scimBulkDependenciesAreReady, List.all_eq_true, Bool.or_eq_true]
    at hready ⊢
  intro name hname
  refine (hready name hname).imp_left (Or.imp ?_ ?_)
  · intro hlookup
    cases answer with
    | error error => exact hlookup
    | ok result =>
      simp only [BulkState.ended]
      split
      · rw [List.singleton_append, List.lookup_cons]
        split
        · rfl
        · exact hlookup
      · exact hlookup
  · intro hfailed
    cases answer with
    | ok result => exact hfailed
    | error error =>
      simp only [List.contains_iff_mem] at hfailed ⊢
      exact List.mem_append_right _ hfailed

end replay

-- the rounds

section rounds

variable (P : Primitives) (n : ℕ) (items : List BulkItem) (creatableBulkIds : List String)
  (failOnErrors : Option Nat)

/-- When the job executes an operation. -/
structure MayRun (h : BulkHistory) (e : BulkExecution) : Prop where
  item : e.item ∈ items
  once : ∀ ev ∈ h, ev.1.item.index ≠ e.item.index
  references : e.bulkReferences = (replay P n h).bulkReferences
  ready : e.item.isReady creatableBulkIds (replay P n h) = true
  limit : limitReached failOnErrors (replay P n h).errorCount = false

/-- The state of a job that has ended: the operations that are left over are refused. -/
def Settled (h : BulkHistory) (job : BulkState) : Prop :=
  ∃ rest : List BulkItem, job = rest.foldl (fun job item => job.ended P item (.error scimBulkUnresolved))
      (replay P n h) ∧
    (∀ item ∈ items, item ∈ rest ∨ ∃ ev ∈ h, ev.1.item = item) ∧
    (∀ item ∈ rest, item ∈ items ∧ ∀ ev ∈ h, ev.1.item.index ≠ item.index) ∧
    (rest.map BulkItem.index).Nodup

variable {P n items creatableBulkIds failOnErrors} {h : BulkHistory}

theorem executeReady_sat {ready : List BulkItem} (hitems : ∀ item ∈ ready, item ∈ items)
    (hnodup : (ready.map BulkItem.index).Nodup)
    (hfresh : ∀ item ∈ ready, ∀ ev ∈ h, ev.1.item.index ≠ item.index)
    (hready : ∀ item ∈ ready, item.isReady creatableBulkIds (replay P n h) = true)
    (hlimit : limitReached failOnErrors (replay P n h).errorCount = false) :
    (executeReady P performItem failOnErrors ready (replay P n h)).Sat
      (MayRun P n items creatableBulkIds failOnErrors)
      (fun h' o => o = .ok (replay P n h') ∧ ∃ l, h' = l ++ h ∧ (∀ ev ∈ l, ev.1.item ∈ ready) ∧
        (limitReached failOnErrors (replay P n h').errorCount = false →
          ∀ item ∈ ready, ∃ ev ∈ l, ev.1.item = item)) h := by
  induction ready generalizing h with
  | nil => exact ⟨rfl, [], rfl, by simp, by simp⟩
  | cons item ready ih =>
    rw [List.map_cons, List.nodup_cons] at hnodup
    refine ⟨⟨hitems item (.head _), hfresh item (.head _), rfl, hready item (.head _), hlimit⟩,
      fun answer => ?_⟩
    change (if limitReached failOnErrors (replay P n (⟨⟨item, _⟩, answer⟩ :: h)).errorCount then
      Prog.ret _ else executeReady P performItem failOnErrors ready _).Sat _ _ _
    split
    · rename_i hreached
      refine ⟨rfl, [⟨⟨item, _⟩, answer⟩], rfl, by simp, fun hnot => ?_⟩
      rw [hreached] at hnot
      cases hnot
    · rename_i hnot
      refine (ih (fun item' h' => hitems item' (.tail _ h')) hnodup.2 ?_ ?_
        (by simpa using hnot)).mono (fun _ _ hrun => hrun) ?_
      · intro item' hitem' ev hev
        rcases List.mem_cons.mp hev with rfl | hev
        · exact fun heq => hnodup.1 (heq ▸ List.mem_map_of_mem hitem')
        · exact hfresh item' (.tail _ hitem') ev hev
      · exact fun item' hitem' => isReady_ended (hready item' (.tail _ hitem'))
      · rintro h' o ⟨rfl, l, rfl, hl, hall⟩
        refine ⟨rfl, l ++ [⟨⟨item, _⟩, answer⟩], by simp, ?_, fun hnot item' hitem' => ?_⟩
        · intro ev hev
          rcases List.mem_append.mp hev with hev | hev
          · exact .tail _ (hl ev hev)
          · rw [List.mem_singleton.mp hev]
            exact .head _
        · rcases List.mem_cons.mp hitem' with rfl | hitem'
          · exact ⟨_, List.mem_append_right _ (.head _), rfl⟩
          · obtain ⟨ev, hev, rfl⟩ := hall hnot item' hitem'
            exact ⟨ev, by simp [hev], rfl⟩

theorem recordUnresolvedOperations_none (rest : List BulkItem) (job : BulkState) :
    recordUnresolvedOperations P none rest job =
      rest.foldl (fun job item => job.ended P item (.error scimBulkUnresolved)) job := by
  induction rest generalizing job with
  | nil => rfl
  | cons item rest ih => exact ih _

theorem scimBulkRounds_sat {order : IterationOrder BulkItem} {pending : List BulkItem}
    (hnodup : (items.map BulkItem.index).Nodup) (hsub : pending.Sublist items)
    (hcover : limitReached failOnErrors (replay P n h).errorCount = false →
      ∀ item ∈ items, item ∈ pending ∨ ∃ ev ∈ h, ev.1.item = item)
    (hfresh : limitReached failOnErrors (replay P n h).errorCount = false →
      ∀ item ∈ pending, ∀ ev ∈ h, ev.1.item.index ≠ item.index) :
    (scimBulkRounds P performItem order failOnErrors creatableBulkIds pending
      (replay P n h)).Sat (MayRun P n items creatableBulkIds failOnErrors)
      (fun h' o => ∃ job, o = .ok job ∧ (failOnErrors = none → Settled P n items h' job)) h := by
  induction hlen : pending.length using Nat.strong_induction_on generalizing pending h with
  | _ m ih =>
  rw [scimBulkRounds]
  split
  · rename_i hend
    refine ⟨_, rfl, fun hnone => ⟨[], rfl, fun item hitem => ?_, by simp, by simp⟩⟩
    subst hnone
    -- without a limit the loop ends only when nothing is left
    have hempty : pending = [] := by simpa [limitReached] using hend
    simpa [hempty] using hcover rfl item hitem
  · rename_i hgo
    simp only [Bool.or_eq_true, not_or, Bool.not_eq_true] at hgo
    have hpending := hsub.subset
    have hnodup' : ∀ l : List BulkItem, l.Sublist pending → (l.map BulkItem.index).Nodup :=
      fun l hl => hnodup.sublist ((hl.trans hsub).map _)
    split
    · refine ⟨_, rfl, fun hnone => ⟨order.order pending, ?_, fun item hitem => ?_,
        fun item hitem => ?_, ?_⟩⟩
      · rw [hnone, recordUnresolvedOperations_none]
      · exact (hcover hgo.2 item hitem).imp_left (order.perm pending).mem_iff.mpr
      · have hitem' := (order.perm pending).mem_iff.mp hitem
        exact ⟨hpending hitem', hfresh hgo.2 item hitem'⟩
      · exact ((order.perm pending).map _).nodup_iff.mpr (hnodup' pending (List.Sublist.refl _))
    · rename_i hready
      have hsubready : (readyItems creatableBulkIds (replay P n h) pending).Sublist pending :=
        List.filter_sublist
      have hround : (executeReady P performItem failOnErrors
          (readyItems creatableBulkIds (replay P n h) pending) (replay P n h)).Sat
            (MayRun P n items creatableBulkIds failOnErrors) _ h :=
        executeReady_sat (fun item hitem => hpending (hsubready.subset hitem))
          (hnodup' _ hsubready) (fun item hitem => hfresh hgo.2 item (hsubready.subset hitem))
          (fun item hitem => (List.mem_filter.mp hitem).2) hgo.2
      refine hround.bind ?_ ?_
      · rintro h' job ⟨hjob, l, rfl, hl, hall⟩
        cases hjob
        refine ih _ (hlen ▸ length_waitingItems hready)
          (List.filter_sublist.trans hsub) ?_ ?_ rfl
        · intro hnot item hitem
          rcases hcover hgo.2 item hitem with hwaiting | ⟨ev, hev, rfl⟩
          · by_cases hisReady : item.isReady creatableBulkIds (replay P n h) = true
            · obtain ⟨ev, hev, rfl⟩ := hall hnot item (List.mem_filter.mpr ⟨hwaiting, hisReady⟩)
              exact .inr ⟨ev, by simp [hev], rfl⟩
            · exact .inl (List.mem_filter.mpr ⟨hwaiting, by simpa using hisReady⟩)
          · exact .inr ⟨ev, by simp [hev], rfl⟩
        · intro _ item hitem ev hev
          obtain ⟨hitem, hwaits⟩ := List.mem_filter.mp hitem
          rcases List.mem_append.mp hev with hev | hev
          · -- an operation of this round has another index, since it was ready
            obtain ⟨hran, hisReady⟩ := List.mem_filter.mp (hl ev hev)
            intro hindex
            have heq := List.inj_on_of_nodup_map (hnodup' pending (List.Sublist.refl _)) hran hitem
              hindex
            rw [heq] at hisReady
            simp [hisReady] at hwaits
          · exact hfresh hgo.2 item hitem ev hev
      · rintro h' e ⟨hjob, -⟩
        cases hjob

end rounds

-- what the history of a job shows

section history

variable {P : Primitives} {n : ℕ} {items : List BulkItem} {creatableBulkIds : List String}
  {failOnErrors : Option Nat} {h : BulkHistory} {name : String}

/-- The operations have different places and create different `bulkId`s. -/
structure Distinct (items : List BulkItem) : Prop where
  index : ∀ a ∈ items, ∀ b ∈ items, a.index = b.index → a = b
  creates : ∀ a ∈ items, ∀ b ∈ items, ∀ name, a.operation.creates = some name →
    b.operation.creates = some name → a = b

theorem item_of_admissible (hh : Admissible (MayRun P n items creatableBulkIds failOnErrors) h) :
    ∀ ev ∈ h, ev.1.item ∈ items := by
  induction h with
  | nil => simp
  | cons ev h ih => exact List.forall_mem_cons.mpr ⟨hh.1.item, ih hh.2⟩

theorem event_eq (hh : Admissible (MayRun P n items creatableBulkIds failOnErrors) h)
    {ev ev' : Event BulkAnswer} (hev : ev ∈ h) (hev' : ev' ∈ h)
    (hindex : ev.1.item.index = ev'.1.item.index) : ev = ev' := by
  induction h with
  | nil => cases hev
  | cons first h ih =>
    rcases List.mem_cons.mp hev with heq | hev <;> rcases List.mem_cons.mp hev' with heq' | hev'
    · exact heq.trans heq'.symm
    · exact absurd hindex.symm (heq ▸ hh.1.once ev' hev')
    · exact absurd hindex (heq' ▸ hh.1.once ev hev)
    · exact ih hh.2 hev hev'

/-- A `bulkId` whose `POST` failed has no identifier. -/
theorem lookup_of_failed (hitems : Distinct items)
    (hh : Admissible (MayRun P n items creatableBulkIds failOnErrors) h) (hfailed : Failed h name) :
    (replay P n h).bulkReferences.lookup name = none := by
  by_contra hsome
  obtain ⟨resourceId, hlookup⟩ := Option.ne_none_iff_exists'.mp hsome
  obtain ⟨ev, hev, hcreates, error, herror⟩ := hfailed
  obtain ⟨ev', hev', hcreates', result, hresult, -⟩ := created_of_lookup hlookup
  have hitem := hitems.creates _ (item_of_admissible hh ev hev) _ (item_of_admissible hh ev' hev')
    name hcreates hcreates'
  cases event_eq hh hev hev' (congrArg BulkItem.index hitem)
  rw [herror] at hresult
  cases hresult

/-- A `bulkId` that no `POST` of the job has gets no identifier. -/
theorem lookup_of_not_creatable
    (hh : Admissible (MayRun P n items creatableBulkIds failOnErrors) h)
    (hnone : ∀ item ∈ items, item.operation.creates ≠ some name) :
    (replay P n h).bulkReferences.lookup name = none := by
  by_contra hsome
  obtain ⟨resourceId, hlookup⟩ := Option.ne_none_iff_exists'.mp hsome
  obtain ⟨ev, hev, hcreates, -⟩ := created_of_lookup hlookup
  exact hnone _ (item_of_admissible hh ev hev) hcreates

/-- A `POST` that an executed operation waited for was executed before. -/
theorem executed_before (hitems : Distinct items)
    {e : BulkExecution} (he : MayRun P n items creatableBulkIds failOnErrors h e)
    (hh : Admissible (MayRun P n items creatableBulkIds failOnErrors) h)
    (hcreatable : name ∈ creatableBulkIds) (hname : name ∈ e.item.dependencies) {item : BulkItem}
    (hitem : item ∈ items) (hcreates : item.operation.creates = some name) :
    ∃ ev ∈ h, ev.1.item = item := by
  have hready := he.ready
  simp only [BulkItem.isReady, scimBulkDependenciesAreReady, List.all_eq_true, Bool.or_eq_true,
    Bool.not_eq_true', List.contains_iff_mem] at hready
  rcases hready name hname with (hlookup | hfailed) | hnot
  · obtain ⟨resourceId, hlookup⟩ := Option.isSome_iff_exists.mp hlookup
    obtain ⟨ev, hev, hcreates', -⟩ := created_of_lookup hlookup
    exact ⟨ev, hev, hitems.creates _ (item_of_admissible hh ev hev) _ hitem name hcreates' hcreates⟩
  · obtain ⟨ev, hev, hcreates', -⟩ := mem_failedBulkIds.mp hfailed
    exact ⟨ev, hev, hitems.creates _ (item_of_admissible hh ev hev) _ hitem name hcreates' hcreates⟩
  · simp [hcreatable] at hnot

-- the responses

theorem replay_responses_length : (replay P n h).responses.length = n := by
  induction h with
  | nil => simp [replay, BulkState.start]
  | cons ev h ih => rw [replay_cons, ended_responses, List.length_set, ih]

theorem replay_responses (hh : Admissible (MayRun P n items creatableBulkIds failOnErrors) h)
    {ev : Event BulkAnswer} (hev : ev ∈ h) (hlt : ev.1.item.index < n) :
    (replay P n h).responses[ev.1.item.index]? = some (some (scimBulkResponse ev.1.item ev.2)) := by
  induction h with
  | nil => cases hev
  | cons first h ih =>
    rw [replay_cons, ended_responses]
    rcases List.mem_cons.mp hev with rfl | hev
    · rw [List.getElem?_set_self (by rwa [replay_responses_length])]
    · rw [List.getElem?_set_ne (hh.1.once ev hev).symm]
      exact ih hh.2 hev

/-- The refusals of a job that has ended leave the other responses in place. -/
theorem refused_responses {rest : List BulkItem} {job : BulkState} {i : ℕ}
    (hi : ∀ item ∈ rest, item.index ≠ i) :
    (rest.foldl (fun job item => job.ended P item (.error scimBulkUnresolved)) job).responses[i]? =
      job.responses[i]? := by
  induction rest generalizing job with
  | nil => rfl
  | cons item rest ih =>
    rw [List.foldl_cons, ih fun item' hitem' => hi item' (.tail _ hitem'), ended_responses,
      List.getElem?_set_ne (hi item (.head _))]

theorem refused_response {rest : List BulkItem} {job : BulkState} {item : BulkItem}
    (hitem : item ∈ rest) (hnodup : (rest.map BulkItem.index).Nodup)
    (hlt : item.index < job.responses.length) :
    (rest.foldl (fun job item => job.ended P item (.error scimBulkUnresolved))
        job).responses[item.index]? =
      some (some (scimBulkResponse item (.error scimBulkUnresolved))) := by
  induction rest generalizing job with
  | nil => cases hitem
  | cons first rest ih =>
    rw [List.map_cons, List.nodup_cons] at hnodup
    rw [List.foldl_cons]
    rcases List.mem_cons.mp hitem with rfl | hitem
    · have hother : ∀ item' ∈ rest, item'.index ≠ item.index := by
        intro item' hitem' heq
        exact hnodup.1 (heq ▸ List.mem_map_of_mem hitem')
      rw [refused_responses hother, ended_responses, List.getElem?_set_self hlt]
    · exact ih hitem hnodup.2 (by rwa [ended_responses, List.length_set])

theorem refused_responses_length {rest : List BulkItem} {job : BulkState} :
    (rest.foldl (fun job item => job.ended P item (.error scimBulkUnresolved))
      job).responses.length = job.responses.length := by
  induction rest generalizing job with
  | nil => rfl
  | cons item rest ih => rw [List.foldl_cons, ih, ended_responses, List.length_set]

end history

end CairnId
