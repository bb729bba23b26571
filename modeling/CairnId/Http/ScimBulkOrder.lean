import Mathlib.Order.Lattice.Nat
import Mathlib.Order.Interval.Finset.Nat
import Mathlib.Data.Finset.Lattice.Fold
import CairnId.Http.ScimBulkSpec

/-!
# The order of a Bulk job

When every reference points back, the rounds of a job are the levels of a depth: an
operation without references has depth 0, any other is one level below the deepest
operation it refers to.

## Main definitions

- `referenceDepth` — the depth, for a relation between places
- `executeSequentially` — the operations of a list one after another
-/

namespace CairnId

open Concurrency Prog

-- depth

section depth

open Classical in
/-- One more than the greatest depth of the earlier places that `i` waits for. -/
noncomputable def referenceDepth (waits : ℕ → ℕ → Prop) (i : ℕ) : ℕ :=
  (Finset.range i).attach.sup fun j => if waits i j then referenceDepth waits j + 1 else 0
termination_by i
decreasing_by exact Finset.mem_range.mp j.2

variable {waits : ℕ → ℕ → Prop} {i j d : ℕ}

theorem referenceDepth_lt (hlt : j < i) (hwaits : waits i j) :
    referenceDepth waits j < referenceDepth waits i := by
  classical
  rw [referenceDepth.eq_def waits i]
  have hle := Finset.le_sup (f := fun j : {j // j ∈ Finset.range i} =>
    if waits i j then referenceDepth waits j + 1 else 0)
      (Finset.mem_attach _ ⟨j, Finset.mem_range.mpr hlt⟩)
  rw [if_pos hwaits] at hle
  exact hle

theorem exists_of_referenceDepth (h : referenceDepth waits i = d + 1) :
    ∃ j < i, waits i j ∧ referenceDepth waits j = d := by
  rw [referenceDepth.eq_def] at h
  have hne : ((Finset.range i).attach).Nonempty := by
    by_contra hempty
    rw [Finset.not_nonempty_iff_eq_empty.mp hempty, Finset.sup_empty] at h
    cases h
  classical
  obtain ⟨⟨j, hj⟩, -, hsup⟩ := Finset.exists_mem_eq_sup _ hne fun j : {j // j ∈ Finset.range i} =>
    if waits i j then referenceDepth waits j + 1 else 0
  rw [hsup] at h
  dsimp only at h
  split at h
  · exact ⟨j, Finset.mem_range.mp hj, ‹_›, by omega⟩
  · cases h

theorem referenceDepth_le : referenceDepth waits i ≤ i := by
  induction i using Nat.strong_induction_on with
  | _ i ih =>
    cases h : referenceDepth waits i with
    | zero => omega
    | succ d =>
      obtain ⟨j, hj, -, rfl⟩ := exists_of_referenceDepth h
      have := ih j hj
      omega

end depth

/-- The operations of a list by their depth, those of one depth in the order of the list. -/
def byDepth (depth : ℕ → ℕ) (items : List BulkItem) : List BulkItem :=
  (List.range items.length).flatMap fun d => items.filter fun item => depth item.index = d

section sorted

variable {depth : ℕ → ℕ} {items : List BulkItem}

/-- Where the depth never decreases, the levels below one and that level are the levels
    up to it. -/
theorem filter_lt_append_filter_eq (hsorted : items.Pairwise fun a b => depth a.index ≤ depth b.index)
    (d : ℕ) : (items.filter fun item => depth item.index < d) ++
      (items.filter fun item => depth item.index = d) =
        items.filter fun item => depth item.index < d + 1 := by
  induction items with
  | nil => rfl
  | cons item items ih =>
    obtain ⟨hall, hsorted⟩ := List.pairwise_cons.mp hsorted
    simp only [List.filter_cons, decide_eq_true_eq]
    rcases Nat.lt_trichotomy (depth item.index) d with hlt | heq | hgt
    · rw [if_pos hlt, if_neg (by omega), if_pos (by omega), List.cons_append, ih hsorted]
    · have hnone : items.filter (fun item => depth item.index < d) = [] := by
        simp only [List.filter_eq_nil_iff, decide_eq_true_eq]
        intro item' hitem'
        have := hall item' hitem'
        omega
      have := ih hsorted
      rw [hnone, List.nil_append] at this
      rw [if_neg (by omega), if_pos heq, if_pos (by omega), hnone, List.nil_append, this]
    · rw [if_neg (by omega), if_neg (by omega), if_neg (by omega), ih hsorted]

/-- A list along which the depth never decreases is in order already. -/
theorem byDepth_of_sorted (hdepth : ∀ item ∈ items, depth item.index < items.length)
    (hsorted : items.Pairwise fun a b => depth a.index ≤ depth b.index) :
    byDepth depth items = items := by
  have hlevels : ∀ n, (List.range n).flatMap (fun d =>
      items.filter fun item => depth item.index = d) =
        items.filter fun item => depth item.index < n := by
    intro n
    induction n with
    | zero => simp
    | succ n ih =>
      rw [List.range_succ, List.flatMap_append, ih, List.flatMap_singleton,
        filter_lt_append_filter_eq hsorted]
  rw [byDepth, hlevels, List.filter_eq_self]
  simpa using hdepth

end sorted

-- one after another

section sequential

variable (P : Primitives) {E : Type} {R : E → Type}
  (execute : BulkItem → BulkReferences → Prog E R ScimError (Except ScimError ScimOperationResult))
  (failOnErrors : Option Nat)

/-- Execute operations one after another, with the identifiers known by then, and stop
    at the limit of errors. -/
def executeSequentially : List BulkItem → BulkState → Prog E R ScimError BulkState
  | [], job => return job
  | item :: items, job =>
    if limitReached failOnErrors job.errorCount then return job
    else do
      let answer ← execute item job.bulkReferences
      executeSequentially items (job.ended P item answer)

variable {P execute failOnErrors}

theorem executeSequentially_of_limitReached {job : BulkState}
    (h : limitReached failOnErrors job.errorCount = true) (items : List BulkItem) :
    executeSequentially P execute failOnErrors items job = .ret job := by
  cases items with
  | nil => rfl
  | cons item items => rw [executeSequentially, if_pos h, pure_eq]

theorem executeReady_eq {job : BulkState}
    (h : limitReached failOnErrors job.errorCount = false) (items : List BulkItem) :
    executeReady P execute failOnErrors items job =
      executeSequentially P execute failOnErrors items job := by
  induction items generalizing job with
  | nil => rfl
  | cons item items ih =>
    rw [executeReady, executeSequentially, if_neg (by simp [h])]
    congr 1
    funext answer
    dsimp only
    split
    · rw [executeSequentially_of_limitReached ‹_›, pure_eq]
    · rename_i hnot
      exact ih (by simpa using hnot)

theorem executeSequentially_append (items items' : List BulkItem) (job : BulkState) :
    executeSequentially P execute failOnErrors (items ++ items') job =
      executeSequentially P execute failOnErrors items job >>=
        executeSequentially P execute failOnErrors items' := by
  induction items generalizing job with
  | nil => rfl
  | cons item items ih =>
    rw [List.cons_append, executeSequentially, executeSequentially]
    split
    · rw [pure_eq, ret_bind, executeSequentially_of_limitReached ‹_›]
    · rw [Prog.bind_assoc]
      congr 1
      funext answer
      exact ih _

end sequential

-- the levels

/-- What the job knows of a `bulkId`: its identifier, or that its `POST` failed. -/
def BulkState.Knows (job : BulkState) (name : String) : Prop :=
  (job.bulkReferences.lookup name).isSome ∨ name ∈ job.failedBulkIds

section levels

variable {P : Primitives} {E : Type} {R : E → Type}
  {execute : BulkItem → BulkReferences → Prog E R ScimError (Except ScimError ScimOperationResult)}
  {failOnErrors : Option Nat} {order : IterationOrder BulkItem}

/-- A `POST` that succeeds answers with the identifier of what it created. -/
def AnswersWithId (P : Primitives) (item : BulkItem)
    (answer : Except ScimError ScimOperationResult) : Prop :=
  ∀ result, answer = .ok result → item.operation.creates.isSome →
    (scimBulkResultResourceId P result).isSome

theorem knows_ended {job : BulkState} {item : BulkItem}
    {answer : Except ScimError ScimOperationResult} (hanswer : AnswersWithId P item answer)
    {name : String} : (job.ended P item answer).Knows name ↔
      job.Knows name ∨ item.operation.creates = some name := by
  cases answer with
  | error error =>
    simp only [BulkState.Knows, BulkState.ended, List.mem_append, Option.mem_toList]
    tauto
  | ok result =>
    simp only [BulkState.Knows, BulkState.ended]
    cases hcreates : item.operation.creates with
    | none => simp
    | some bulkId =>
      obtain ⟨resourceId, hid⟩ := Option.isSome_iff_exists.mp (hanswer result rfl (by simp [hcreates]))
      simp only [hid, List.singleton_append, List.lookup_cons]
      by_cases hname : name = bulkId
      · simp [hname]
      · rw [show (name == bulkId) = false by simpa using hname]
        simp [Ne.symm hname]

/-- After a level the job knows what it knew and what the level creates, unless it has
    stopped. -/
theorem executeSequentially_gives
    (hexecute : ∀ item bulkReferences, (execute item bulkReferences).Gives (AnswersWithId P item))
    (items : List BulkItem) (job : BulkState) :
    (executeSequentially P execute failOnErrors items job).Gives fun next =>
      limitReached failOnErrors next.errorCount = true ∨ ∀ name,
        next.Knows name ↔ job.Knows name ∨ ∃ item ∈ items, item.operation.creates = some name := by
  induction items generalizing job with
  | nil => exact .ret (.inr fun name => by simp)
  | cons item items ih =>
    rw [executeSequentially]
    split
    · exact .ret (.inl ‹_›)
    · refine (hexecute item job.bulkReferences).bind fun answer hanswer => ?_
      refine (ih (job.ended P item answer)).mono fun next => Or.imp_right fun hknows name => ?_
      rw [hknows, knows_ended hanswer]
      simp [or_assoc]

variable {items : List BulkItem} {creatableBulkIds : List String} {depth : ℕ → ℕ}

/-- A depth of the items by their references. -/
structure IsDepth (items : List BulkItem) (depth : ℕ → ℕ) : Prop where
  lt : ∀ item ∈ items, ∀ name ∈ item.dependencies, ∀ post ∈ items,
    post.operation.creates = some name → depth post.index < depth item.index
  pred : ∀ item ∈ items, ∀ d, depth item.index = d + 1 →
    ∃ name ∈ item.dependencies, ∃ post ∈ items, post.operation.creates = some name ∧
      depth post.index = d
  closed : ∀ item ∈ items, ∀ name ∈ item.dependencies, ∃ post ∈ items,
    post.operation.creates = some name

/-- The job knows what the levels above `d` create, and nothing else. -/
def KnowsBelow (items : List BulkItem) (depth : ℕ → ℕ) (d : ℕ) (job : BulkState) : Prop :=
  ∀ name, job.Knows name ↔ ∃ post ∈ items, post.operation.creates = some name ∧
    depth post.index < d

theorem isReady_iff (hdepth : IsDepth items depth) (hitems : Distinct items)
    (hcreatable : ∀ name, name ∈ creatableBulkIds ↔
      ∃ post ∈ items, post.operation.creates = some name)
    {d : ℕ} {job : BulkState} (hknows : KnowsBelow items depth d job) {item : BulkItem}
    (hitem : item ∈ items) (hd : d ≤ depth item.index) :
    item.isReady creatableBulkIds job = true ↔ depth item.index = d := by
  simp only [BulkItem.isReady, scimBulkDependenciesAreReady, List.all_eq_true, Bool.or_eq_true,
    Bool.not_eq_true', List.contains_iff_mem]
  constructor
  · intro hready
    rcases Nat.eq_or_lt_of_le hd with heq | hlt
    · exact heq.symm
    · -- one of the references is to a level that is still to come
      obtain ⟨name, hname, post, hpost, hcreates, hpred⟩ :=
        hdepth.pred item hitem (depth item.index - 1) (by omega)
      have hnot : ¬job.Knows name := by
        rw [hknows]
        rintro ⟨post', hpost', hcreates', hbelow⟩
        rw [hitems.creates post' hpost' post hpost name hcreates' hcreates] at hbelow
        omega
      rcases hready name hname with hknown | hmissing
      · exact absurd hknown hnot
      · have := (hcreatable name).mpr ⟨post, hpost, hcreates⟩
        simp [this] at hmissing
  · intro heq name hname
    obtain ⟨post, hpost, hcreates⟩ := hdepth.closed item hitem name hname
    exact .inl ((hknows name).mpr ⟨post, hpost, hcreates,
      heq ▸ hdepth.lt item hitem name hname post hpost hcreates⟩)

/-- Below the deepest level there is an operation of every depth. -/
theorem exists_depth (hdepth : IsDepth items depth) {d : ℕ} {item : BulkItem}
    (hitem : item ∈ items) (hd : d ≤ depth item.index) : ∃ item' ∈ items, depth item'.index = d := by
  induction hk : depth item.index - d generalizing item with
  | zero => exact ⟨item, hitem, by omega⟩
  | succ k ih =>
    obtain ⟨-, -, post, hpost, -, hpred⟩ :=
      hdepth.pred item hitem (depth item.index - 1) (by omega)
    exact ih hpost (by omega) (by omega)

/-- **Levels**: from level `d` on, the rounds are the levels one after another. -/
theorem scimBulkRounds_eq (hdepth : IsDepth items depth) (hitems : Distinct items)
    (hcreatable : ∀ name, name ∈ creatableBulkIds ↔
      ∃ post ∈ items, post.operation.creates = some name)
    (hexecute : ∀ item bulkReferences, (execute item bulkReferences).Gives (AnswersWithId P item))
    {k d : ℕ} (hk : ∀ item ∈ items, depth item.index < d + k) {job : BulkState}
    (hjob : limitReached failOnErrors job.errorCount = true ∨ KnowsBelow items depth d job) :
    scimBulkRounds P execute order failOnErrors creatableBulkIds
        (items.filter fun item => d ≤ depth item.index) job =
      executeSequentially P execute failOnErrors ((List.range' d k).flatMap fun d =>
        items.filter fun item => depth item.index = d) job := by
  induction k generalizing d job with
  | zero =>
    have hnone : items.filter (fun item => d ≤ depth item.index) = [] := by
      simp only [List.filter_eq_nil_iff, decide_eq_true_eq]
      intro item hitem
      have := hk item hitem
      omega
    rw [hnone, scimBulkRounds, if_pos (by simp)]
    rfl
  | succ k ih =>
    by_cases hreached : limitReached failOnErrors job.errorCount = true
    · rw [scimBulkRounds, if_pos (by simp [hreached]),
        executeSequentially_of_limitReached hreached, pure_eq]
    rw [Bool.not_eq_true] at hreached
    have hknows : KnowsBelow items depth d job := hjob.resolve_left (by simp [hreached])
    rcases List.eq_nil_or_concat (items.filter fun item => d ≤ depth item.index) with
      hnone | ⟨_, last, hsome⟩
    · -- nothing is left, and every later level is empty
      have hempty : ((List.range' d (k + 1)).flatMap fun d =>
          items.filter fun item => depth item.index = d) = [] := by
        simp only [List.flatMap_eq_nil_iff, List.mem_range'_1, List.filter_eq_nil_iff,
          decide_eq_true_eq]
        rintro d' ⟨hd', -⟩ item hitem heq
        have : item ∈ items.filter fun item => d ≤ depth item.index :=
          List.mem_filter.mpr ⟨hitem, by simp; omega⟩
        rw [hnone] at this
        cases this
      rw [hnone, hempty, scimBulkRounds, if_pos (by simp)]
      rfl
    · have hready : readyItems creatableBulkIds job (items.filter fun item =>
          d ≤ depth item.index) = items.filter fun item => depth item.index = d := by
        rw [readyItems, List.filter_filter]
        refine List.filter_congr fun item hitem => ?_
        by_cases hd : d ≤ depth item.index
        · rw [Bool.eq_iff_iff, Bool.and_eq_true,
            isReady_iff hdepth hitems hcreatable hknows hitem hd]
          simp [hd]
        · simp [hd]
          omega
      have hwaiting : waitingItems creatableBulkIds job (items.filter fun item =>
          d ≤ depth item.index) = items.filter fun item => d + 1 ≤ depth item.index := by
        rw [waitingItems, List.filter_filter]
        refine List.filter_congr fun item hitem => ?_
        by_cases hd : d ≤ depth item.index
        · have := isReady_iff hdepth hitems hcreatable hknows hitem hd
          by_cases heq : depth item.index = d
          · simp [this.mpr heq, heq]
          · rw [Bool.not_eq_true _ |>.mp (mt this.mp heq)]
            simp [hd]
            omega
        · simp [hd]
          omega
      have hnonempty : items.filter (fun item => depth item.index = d) ≠ [] := by
        have hlast : last ∈ items.filter fun item => d ≤ depth item.index := by simp [hsome]
        obtain ⟨hmem, hd⟩ := List.mem_filter.mp hlast
        obtain ⟨item, hitem, heq⟩ := exists_depth hdepth hmem (by simpa using hd)
        exact List.ne_nil_of_mem (List.mem_filter.mpr ⟨hitem, by simpa using heq⟩)
      rw [scimBulkRounds, if_neg (by simp [hreached, hsome]), dif_neg (by rwa [hready]), hready,
        hwaiting, executeReady_eq hreached, List.range'_succ, List.flatMap_cons,
        executeSequentially_append]
      refine (executeSequentially_gives hexecute _ job).bind_congr fun next hnext => ?_
      refine ih (fun item hitem => by have := hk item hitem; omega) (hnext.imp_right ?_)
      intro hgives name
      rw [hgives, hknows]
      constructor
      · rintro (⟨post, hpost, hcreates, hlt⟩ | ⟨post, hpost, hcreates⟩)
        · exact ⟨post, hpost, hcreates, by omega⟩
        · obtain ⟨hpost, heq⟩ := List.mem_filter.mp hpost
          exact ⟨post, hpost, hcreates, by simp at heq; omega⟩
      · rintro ⟨post, hpost, hcreates, hlt⟩
        by_cases heq : depth post.index = d
        · exact .inr ⟨post, List.mem_filter.mpr ⟨hpost, by simpa using heq⟩, hcreates⟩
        · exact .inl ⟨post, hpost, hcreates, by omega⟩

end levels

-- the operations of the service

section service

variable {P : Primitives} {state : AppState} {headers : RequestHeaders}

/-- `Uuid::parse_str` reads what `Uuid::to_string` writes. -/
def ParsesUuids (P : Primitives) : Prop := ∀ id : Uuid, P.parseUuid (Uuid.hyphenated id) = some id

theorem scimBulkResultResourceId_user (status : ℕ) (location : Option String) (user : User) :
    scimBulkResultResourceId P ⟨status, location, some (scimUserResource P state user)⟩ =
      P.parseUuid (Uuid.hyphenated user.id) := by
  simp [scimBulkResultResourceId, scimUserResource, Json.get?, Json.asStr?]

theorem scimBulkResultResourceId_group (status : ℕ) (location : Option String) (group : Group)
    (members : List ScimGroupMember) :
    scimBulkResultResourceId P ⟨status, location, some (scimGroupResource P state group members)⟩ =
      P.parseUuid (Uuid.hyphenated group.id) := by
  simp [scimBulkResultResourceId, scimGroupResource, Json.get?, Json.asStr?]

theorem scimCreateUserOperation_gives (hparse : ParsesUuids P) (payload : ScimUserRequest) :
    (scimCreateUserOperation P state headers payload).Gives fun result =>
      (scimBulkResultResourceId P result).isSome := by
  unfold scimCreateUserOperation
  refine Gives.last fun input => Gives.last fun byEmail => ?_
  dsimp only
  by_cases hbyEmail : byEmail.isSome = true
  · rw [if_pos hbyEmail]
    exact .fail _
  rw [if_neg hbyEmail]
  refine Gives.last fun externalIdTaken => ?_
  by_cases htaken : externalIdTaken = true
  · rw [if_pos htaken]
    exact .fail _
  rw [if_neg htaken]
  refine Gives.last fun user => Gives.last fun _ => Gives.last fun _ => ?_
  exact .ret (Option.isSome_of_eq_some ((scimBulkResultResourceId_user _ _ _).trans (hparse _)))

theorem scimCreateGroupOperation_gives (hparse : ParsesUuids P) (payload : ScimGroupRequest) :
    (scimCreateGroupOperation P state headers payload).Gives fun result =>
      (scimBulkResultResourceId P result).isSome := by
  unfold scimCreateGroupOperation
  refine Gives.last fun input => Gives.last fun now => Gives.last fun groupId =>
    Gives.last fun slug => Gives.last fun group => Gives.last fun _ => Gives.last fun members => ?_
  exact .ret (Option.isSome_of_eq_some
    ((scimBulkResultResourceId_group _ _ _ _).trans (hparse _)))

theorem executeItem_gives (hparse : ParsesUuids P) (item : BulkItem)
    (bulkReferences : BulkReferences) :
    (executeItem P state headers item bulkReferences).Gives (AnswersWithId P item) := by
  by_cases hpost : isPost item.operation.operation.method = true
  · have hgives : (scimExecuteBulkOperation P state headers item.operation.operation
        bulkReferences).Gives fun result => (scimBulkResultResourceId P result).isSome := by
      unfold scimExecuteBulkOperation
      rw [ScimBulkMethod.parse, if_pos hpost]
      rw [Prog.ofExcept, ret_bind]
      refine Gives.last fun resolvedPath => Gives.last fun path => ?_
      cases path with
      | users =>
        exact Gives.last fun _ => Gives.last fun payload =>
          scimCreateUserOperation_gives hparse payload
      | groups =>
        exact Gives.last fun _ => Gives.last fun payload =>
          scimCreateGroupOperation_gives hparse payload
      | user _ | group _ => exact .fail _
    exact hgives.attempt.mono fun answer hanswer result hresult _ => hanswer result hresult
  · refine (Gives.trivial _).mono fun answer _ result _ hcreates => ?_
    simp [ScimBulkJobOperation.creates, hpost] at hcreates

end service

end CairnId
