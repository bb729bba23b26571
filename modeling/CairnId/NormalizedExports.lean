import CairnId.AuthorizationSpec
import CairnId.Evidence.NormalizedResult
import CairnId.ExportFormats
import CairnId.Validation

/-!
# What the normalizer makes of an export

The normalizer takes the complete passing exports, in any order of the logs and the modules,
and the validator of conformance results takes what it makes of them, unless two modules of
the plan have one last instance.

## Main definitions

- `ReadsTest` — what a log says, whatever the plan is
- `PassingExport` — an export in terms of its plan and of what its logs say

## Main results

- `normalizer_accepts_exactly` — which packages have a result
- `normalizer_ignores_order` — the order of logs and modules
- `normalized_result_validates` — what the validator says of the result
-/

namespace CairnId

open Concurrency.Prog (except_bind_eq_ok)

-- texts without white space around them

/-- A text as `string_field` gives it. -/
structure Trimmed (text : String) : Prop where
  trim : trim text = text
  ne_empty : text ≠ ""

theorem Trimmed.trimmedNonempty {text : String} (h : Trimmed text) :
    trimmedNonempty (some text) = some text := by
  rw [trimmedNonempty_some, h.trim, if_neg h.ne_empty]

theorem Trimmed.isBlank {text : String} (h : Trimmed text) : isBlank text = false := by
  by_contra hblank
  rw [Bool.not_eq_false, CairnId.isBlank, List.all_eq_true] at hblank
  have hnil : text.toList.dropWhile isWhiteSpace = [] :=
    List.dropWhile_eq_nil_iff.mpr hblank
  have htrim := h.trim
  rw [CairnId.trim, hnil] at htrim
  exact h.ne_empty htrim.symm

theorem trimmed_of_stringField {value : Json} {keys : List String} {label text : String}
    (h : stringField value keys label = .ok text) : Trimmed text := by
  rw [stringField, okOrElse_eq_ok, Option.filter_eq_some_iff] at h
  obtain ⟨hfound, hsome⟩ := h
  obtain ⟨raw, -, rfl⟩ := Option.map_eq_some_iff.mp hfound
  exact ⟨trim_trim raw, by simpa [String.isEmpty_iff] using hsome⟩

theorem trimmed_of_parsePlanModules {index : ℕ} {values : List Json}
    {modules : List OidfPlanModule} (h : parsePlanModules index values = .ok modules) :
    ∀ module ∈ modules, Trimmed module.testModule := by
  induction values generalizing index modules with
  | nil =>
    obtain rfl := Except.ok.inj h
    exact fun _ hmem => absurd hmem List.not_mem_nil
  | cons value values ih =>
    rw [parsePlanModules] at h
    obtain ⟨testModule, hmodule, h⟩ := except_bind_eq_ok.mp h
    obtain ⟨instances, -, h⟩ := except_bind_eq_ok.mp h
    obtain ⟨others, hothers, h⟩ := except_bind_eq_ok.mp h
    obtain rfl := Except.ok.inj h
    intro module hmem
    cases hmem with
    | head => exact trimmed_of_stringField hmodule
    | tail _ hmem => exact ih hothers module hmem

theorem trimmed_of_parsePlanIndex {index : Json} {plan : OidfPlanIndex}
    (h : parsePlanIndex index = .ok plan) : ∀ module ∈ plan.modules, Trimmed module.testModule := by
  rw [parsePlanIndex] at h
  obtain ⟨planName, -, h⟩ := except_bind_eq_ok.mp h
  obtain ⟨values, -, h⟩ := except_bind_eq_ok.mp h
  obtain ⟨modules, hmodules, h⟩ := except_bind_eq_ok.mp h
  obtain rfl := Except.ok.inj h
  exact trimmed_of_parsePlanModules hmodules

-- what a log says

section normalizer

variable {P : Primitives} {calendar : Calendar} {sha256Json : Json → String}
  {profileName publishedResultUrl : String} {index value : Json} {values : List Json}
  {expected : List (String × String)} {plan : OidfPlanIndex} {test : OidfTestLog}
  {logged : LoggedTest} {tests : List LoggedTest}

/-- What is checked of each log that is read. -/
structure SoundTest (P : Primitives) (test : OidfTestLog) : Prop where
  testId : Trimmed test.testId
  testModuleName : Trimmed test.testModuleName
  suiteVersion : Trimmed test.suiteVersion
  origin : validateSuiteOrigin P "exportedFrom" test.exportedFrom = .ok ()

theorem soundTest_of_parseTestLog {name : String}
    (h : parseTestLog P calendar name value = .ok test) : SoundTest P test := by
  rw [parseTestLog] at h
  obtain ⟨exportedFrom, -, h⟩ := except_bind_eq_ok.mp h
  obtain ⟨⟨⟩, horigin, h⟩ := except_bind_eq_ok.mp h
  obtain ⟨exportedAtText, -, h⟩ := except_bind_eq_ok.mp h
  obtain ⟨exportedAt, -, h⟩ := except_bind_eq_ok.mp h
  obtain ⟨suiteVersion, hversion, h⟩ := except_bind_eq_ok.mp h
  obtain ⟨testInfo, -, h⟩ := except_bind_eq_ok.mp h
  obtain ⟨testId, hid, h⟩ := except_bind_eq_ok.mp h
  obtain ⟨testModuleName, hmodule, h⟩ := except_bind_eq_ok.mp h
  obtain ⟨status, -, h⟩ := except_bind_eq_ok.mp h
  obtain ⟨result, -, h⟩ := except_bind_eq_ok.mp h
  dsimp only at h
  split at h
  · cases h
  split at h
  · cases h
  obtain rfl := Except.ok.inj h
  exact ⟨trimmed_of_stringField hid, trimmed_of_stringField hmodule,
    trimmed_of_stringField hversion, horigin⟩

-- the instances that are expected

theorem mem_keys_insert {κ β : Type} [LinearOrder κ] {k k' : κ} {v : β} {l : List (κ × β)} :
    k' ∈ (SortedMap.insert k v l).map Prod.fst ↔ k' = k ∨ k' ∈ l.map Prod.fst := by
  have hkeys : ∀ held : List (κ × β),
      k' ∈ held.map Prod.fst ↔ ¬SortedMap.get k' held = none := by
    intro held
    rw [SortedMap.get_eq_none_iff]
    simp
  rw [hkeys, hkeys, SortedMap.get_insert]
  by_cases h : k = k'
  · simp [h]
  · simp [h, Ne.symm h]

theorem mem_keys_ofList {κ β : Type} [LinearOrder κ] {k : κ} {l : List (κ × β)} :
    k ∈ (SortedMap.ofList l).map Prod.fst ↔ k ∈ l.map Prod.fst := by
  have hfold : ∀ held : List (κ × β),
      k ∈ (l.foldl (fun held m => SortedMap.insert m.1 m.2 held) held).map Prod.fst ↔
        k ∈ l.map Prod.fst ∨ k ∈ held.map Prod.fst := by
    induction l with
    | nil => simp
    | cons m l ih =>
      intro held
      rw [List.foldl_cons, ih, mem_keys_insert, List.map_cons, List.mem_cons]
      tauto
  exact (hfold []).trans (by simp)

def OidfPlanIndex.lastInstances (plan : OidfPlanIndex) : List String :=
  plan.modules.map OidfPlanModule.lastInstance

theorem mem_keys_expectedInstances {id : String} :
    id ∈ (expectedInstances plan).map Prod.fst ↔ id ∈ plan.lastInstances := by
  rw [expectedInstances, mem_keys_ofList, List.map_map]
  rfl

theorem nodup_testIds (h : tests.Pairwise Compatible) :
    (tests.map fun logged => logged.test.testId).Nodup := by
  rw [List.Nodup, List.pairwise_map]
  exact h.imp fun hcompatible => hcompatible.testId

namespace CompleteExport

theorem logsTest
    (h : CompleteExport P calendar profileName publishedResultUrl index values plan tests)
    (hmem : logged ∈ tests) :
    ∃ value, LogsTest P calendar (expectedInstances plan) value logged := by
  obtain ⟨value, -, hlogs⟩ := h.exists_value hmem
  exact ⟨value, hlogs⟩

/-- The logs are one for each instance that is expected, and of its module. -/
theorem identities_perm
    (h : CompleteExport P calendar profileName publishedResultUrl index values plan tests) :
    (tests.map fun logged => (logged.test.testId, logged.test.testModuleName)).Perm
      (expectedInstances plan) := by
  have hsorted : SortedMap.Sorted (expectedInstances plan) := SortedMap.sorted_ofList _
  have hkeys := nodup_testIds h.compatible
  have hnodup : (tests.map fun logged =>
      (logged.test.testId, logged.test.testModuleName)).Nodup := by
    refine List.Nodup.of_map Prod.fst ?_
    rw [List.map_map]
    exact hkeys
  refine (List.perm_ext_iff_of_nodup hnodup (List.Nodup.of_map _ hsorted.nodup_keys)).mpr ?_
  rintro ⟨id, name⟩
  constructor
  · intro hmem
    obtain ⟨logged, hlogged, heq⟩ := List.mem_map.mp hmem
    obtain ⟨rfl, rfl⟩ := Prod.mk.inj heq
    obtain ⟨value, hlogs⟩ := h.logsTest hlogged
    exact SortedMap.mem_of_get hlogs.expected
  · intro hmem
    obtain ⟨logged, hlogged, hid⟩ := h.covered _ hmem
    obtain ⟨value, hlogs⟩ := h.logsTest hlogged
    have heq := hsorted.get_of_mem hmem
    have hfound : SortedMap.get logged.test.testId (expectedInstances plan) = some name :=
      hid ▸ heq
    rw [hlogs.expected] at hfound
    refine List.mem_map.mpr ⟨logged, hlogged, ?_⟩
    rw [hid, Option.some.inj hfound]

theorem testIds_perm
    (h : CompleteExport P calendar profileName publishedResultUrl index values plan tests) :
    (tests.map fun logged => logged.test.testId).Perm plan.lastInstances.dedup := by
  have hperm := h.identities_perm.map Prod.fst
  rw [List.map_map] at hperm
  refine hperm.trans ?_
  have hsorted : SortedMap.Sorted (expectedInstances plan) := SortedMap.sorted_ofList _
  rw [List.perm_ext_iff_of_nodup hsorted.nodup_keys (List.nodup_dedup _)]
  intro id
  rw [mem_keys_expectedInstances, List.mem_dedup]

/-- The instances of a complete export have no white space around them: those of the logs
    have none. -/
theorem trimmed_lastInstance
    (h : CompleteExport P calendar profileName publishedResultUrl index values plan tests)
    {module : OidfPlanModule} (hmodule : module ∈ plan.modules) : Trimmed module.lastInstance := by
  have hmem : module.lastInstance ∈ plan.lastInstances := List.mem_map_of_mem hmodule
  rw [← List.mem_dedup, ← h.testIds_perm.mem_iff] at hmem
  obtain ⟨logged, hlogged, hid⟩ := List.mem_map.mp hmem
  obtain ⟨value, hlogs⟩ := h.logsTest hlogged
  rw [← hid]
  exact (soundTest_of_parseTestLog hlogs.parsed).testId

end CompleteExport

-- complete exports by what their logs say

variable (P calendar) in
/-- What one log says, whatever the plan is. -/
structure ReadsTest (value : Json) (logged : LoggedTest) : Prop where
  clean : rejectForbiddenLogFields "$" value = .ok ()
  parsed : parseTestLog P calendar "" value = .ok logged.test
  formatted : calendar.formatRfc3339 logged.test.exportedAt = some logged.exportedAt

variable (P calendar) in
/-- The index has a plan of the profile, in which every module has an instance, and the logs
    are of one suite and correspond one to one to the instances and their modules. -/
structure PassingExport (profile : ExportProfile) (publishedResultUrl : String) (index : Json)
    (values : List Json) (plan : OidfPlanIndex) (tests : List LoggedTest) : Prop where
  origin : validateSuiteOrigin P "published_result_url" publishedResultUrl = .ok ()
  parsed : parsePlanIndex index = .ok plan
  planName : plan.planName = profile.planName
  modules : plan.modules ≠ []
  instances : ∀ module ∈ plan.modules, module.instances ≠ []
  logged : List.Forall₂ (ReadsTest P calendar) values tests
  identities : (tests.map fun logged => (logged.test.testId, logged.test.testModuleName)).Perm
    (expectedInstances plan)
  oneSuite : ∀ a ∈ tests, ∀ b ∈ tests,
    a.test.exportedFrom = b.test.exportedFrom ∧ a.test.suiteVersion = b.test.suiteVersion

theorem ReadsTest.unique {logged' : LoggedTest} (h : ReadsTest P calendar value logged)
    (h' : ReadsTest P calendar value logged') : logged = logged' := by
  obtain ⟨test, text⟩ := logged
  obtain ⟨test', text'⟩ := logged'
  obtain rfl : test = test' := Except.ok.inj (h.parsed.symm.trans h'.parsed)
  obtain rfl : text = text' := Option.some.inj (h.formatted.symm.trans h'.formatted)
  rfl

theorem exists_readsTest (h : List.Forall₂ (ReadsTest P calendar) values tests)
    (hmem : logged ∈ tests) : ∃ value, ReadsTest P calendar value logged := by
  induction h with
  | nil => exact absurd hmem List.not_mem_nil
  | cons hreads _ ih =>
    cases hmem with
    | head => exact ⟨_, hreads⟩
    | tail _ hmem => exact ih hmem

theorem logsTest_iff : LogsTest P calendar expected value logged ↔
    ReadsTest P calendar value logged ∧
      SortedMap.get logged.test.testId expected = some logged.test.testModuleName :=
  ⟨fun h => ⟨⟨h.clean, h.parsed, h.formatted⟩, h.expected⟩,
    fun h => ⟨h.1.clean, h.1.parsed, h.2, h.1.formatted⟩⟩

theorem forall₂_readsTest_unique {tests' : List LoggedTest}
    (h : List.Forall₂ (ReadsTest P calendar) values tests)
    (h' : List.Forall₂ (ReadsTest P calendar) values tests') : tests = tests' := by
  induction h generalizing tests' with
  | nil =>
    cases h'
    rfl
  | cons hreads _ ih =>
    cases h' with
    | cons hreads' hrest =>
      obtain rfl := hreads.unique hreads'
      rw [ih hrest]

theorem requireInstances_eq_ok {modules : List OidfPlanModule} :
    requireInstances modules = .ok () ↔ ∀ module ∈ modules, module.instances ≠ [] := by
  induction modules with
  | nil => simp [requireInstances]
  | cons module modules ih =>
    rw [requireInstances, List.forall_mem_cons]
    by_cases h : module.instances = []
    · simp [h]
    · simp [h, ih]

theorem requirePlan_eq_ok {profile : ExportProfile} : requirePlan profile plan = .ok () ↔
    plan.planName = profile.planName ∧ plan.modules ≠ [] ∧
      ∀ module ∈ plan.modules, module.instances ≠ [] := by
  rw [requirePlan, ← requireInstances_eq_ok]
  by_cases hname : plan.planName = profile.planName
  · by_cases hmodules : plan.modules = []
    · simp [hname, hmodules]
    · simp [hname, hmodules]
  · simp [hname]

/-- The two ways to say that an export is complete. -/
theorem completeExport_iff {profile : ExportProfile}
    (hprofile : exportProfile profileName = .ok profile) :
    CompleteExport P calendar profileName publishedResultUrl index values plan tests ↔
      PassingExport P calendar profile publishedResultUrl index values plan tests := by
  have hsorted : SortedMap.Sorted (expectedInstances plan) := SortedMap.sorted_ofList _
  constructor
  · intro h
    obtain ⟨_, hprofile', hplan⟩ := h.profile
    obtain rfl := Except.ok.inj (hprofile.symm.trans hprofile')
    obtain ⟨hname, hmodules, hinstances⟩ := requirePlan_eq_ok.mp hplan
    have hlogged := h.logged.imp fun _ _ hlogs => (logsTest_iff.mp hlogs).1
    exact ⟨h.origin, h.parsed, hname, hmodules, hinstances, hlogged, h.identities_perm,
      fun a ha b hb => h.sameSuite ha hb⟩
  · intro h
    have hlogged : ∀ tests' ⊆ tests, ∀ values',
        List.Forall₂ (ReadsTest P calendar) values' tests' →
        List.Forall₂ (LogsTest P calendar (expectedInstances plan)) values' tests' := by
      intro tests' hsubset values' hreads
      induction hreads with
      | nil => exact .nil
      | @cons value logged _ rest hfirst _ ih =>
        rw [List.cons_subset] at hsubset
        have hidentity := h.identities.mem_iff.mp (List.mem_map_of_mem hsubset.1)
        exact .cons (logsTest_iff.mpr ⟨hfirst, hsorted.get_of_mem hidentity⟩) (ih hsubset.2)
    have hids : (tests.map fun logged => logged.test.testId).Nodup := by
      have hperm := h.identities.map Prod.fst
      rw [List.map_map] at hperm
      exact hperm.nodup_iff.mpr hsorted.nodup_keys
    refine ⟨⟨profile, hprofile, requirePlan_eq_ok.mpr ⟨h.planName, h.modules, h.instances⟩⟩,
      h.origin, h.parsed, hlogged tests (List.Subset.refl _) values h.logged, ?_, ?_⟩
    · rw [List.Nodup, List.pairwise_map] at hids
      refine hids.imp_of_mem ?_
      intro a b ha hb hne
      exact ⟨(h.oneSuite a ha b hb).1, (h.oneSuite a ha b hb).2, hne⟩
    · intro m hm
      obtain ⟨logged, hlogged, heq⟩ := List.mem_map.mp (h.identities.mem_iff.mpr hm)
      exact ⟨logged, hlogged, congrArg Prod.fst heq⟩

theorem PassingExport.tests_eq {profile : ExportProfile} {plan' : OidfPlanIndex}
    {tests' : List LoggedTest}
    (h : PassingExport P calendar profile publishedResultUrl index values plan tests)
    (h' : PassingExport P calendar profile publishedResultUrl index values plan' tests') :
    plan = plan' ∧ tests = tests' :=
  ⟨Except.ok.inj (h.parsed.symm.trans h'.parsed), forall₂_readsTest_unique h.logged h'.logged⟩

-- the order of logs and modules

theorem mem_of_mem_ofList {κ β : Type} [LinearOrder κ] {m : κ × β} {l : List (κ × β)}
    (h : m ∈ SortedMap.ofList l) : m ∈ l := by
  have hfold : ∀ held : List (κ × β),
      m ∈ l.foldl (fun held m => SortedMap.insert m.1 m.2 held) held → m ∈ l ∨ m ∈ held := by
    clear h
    induction l with
    | nil => exact fun _ h => .inr h
    | cons first l ih =>
      intro held h
      have hinserted := ih _ h
      rw [List.mem_cons]
      rcases hinserted with h | h
      · exact .inl (.inr h)
      · rcases SortedMap.mem_insert h with heq | h
        · exact .inl (.inl heq)
        · exact .inr h
  exact (hfold [] h).resolve_right List.not_mem_nil

/-- The map of entries that agree on their keys does not depend on their order. -/
theorem ofList_of_perm_of_agree {κ β : Type} [LinearOrder κ] {l l' : List (κ × β)}
    (hagree : ∀ m ∈ l, ∀ n ∈ l, m.1 = n.1 → m.2 = n.2) (h : l.Perm l') :
    SortedMap.ofList l = SortedMap.ofList l' := by
  have hget : ∀ {k : κ} {v : β} {held : List (κ × β)}, held.Perm l →
      (SortedMap.get k (SortedMap.ofList held) = some v ↔ (k, v) ∈ l) := by
    intro k v held hheld
    rw [(SortedMap.sorted_ofList held).get_eq_some_iff]
    constructor
    · exact fun hmem => hheld.mem_iff.mp (mem_of_mem_ofList hmem)
    · intro hmem
      have hkey : k ∈ (SortedMap.ofList held).map Prod.fst :=
        mem_keys_ofList.mpr (List.mem_map_of_mem (hheld.mem_iff.mpr hmem))
      obtain ⟨m, hm, rfl⟩ := List.mem_map.mp hkey
      have hvalue := hagree m (hheld.mem_iff.mp (mem_of_mem_ofList hm)) _ hmem rfl
      obtain rfl : m.2 = v := hvalue
      exact hm
  apply (SortedMap.sorted_ofList l).ext (SortedMap.sorted_ofList l')
  intro k
  apply Option.ext
  intro v
  exact (hget (.refl l)).trans (hget h.symm).symm

theorem selection_perm {plan' : OidfPlanIndex} (h : plan.modules.Perm plan'.modules) :
    plan.selection.Perm plan'.selection := h.map _

theorem conformanceJson_of_perm {profile : ExportProfile} {format : OidfExportSourceFormat}
    {plan' : OidfPlanIndex} {warning : Bool} {text from' version : String}
    {records records' : List ProvenanceLogRecord} (hname : plan.planName = plan'.planName)
    (hmodules : plan.modules.Perm plan'.modules) (hrecords : records.Perm records') :
    conformanceJson sha256Json profile publishedResultUrl format plan warning text from' version
        records =
      conformanceJson sha256Json profile publishedResultUrl format plan' warning text from'
        version records' := by
  have hinstances : selectedInstances plan = selectedInstances plan' :=
    selectedInstances_eq_iff.mpr (selection_perm hmodules)
  have hvalues : selectedInstanceValues plan = selectedInstanceValues plan' :=
    congrArg (List.map _) hinstances
  have hnames : (plan.modules.map OidfPlanModule.testModule).insertionSort (· ≤ ·) =
      (plan'.modules.map OidfPlanModule.testModule).insertionSort (· ≤ ·) :=
    insertionSort_eq_of_perm id Function.injective_id (hmodules.map _)
  have hlogs : (records.map ProvenanceLogRecord.fields).insertionSort (· ≤ ·) =
      (records'.map ProvenanceLogRecord.fields).insertionSort (· ≤ ·) :=
    insertionSort_eq_of_perm id Function.injective_id (hrecords.map _)
  simp only [conformanceJson, oidfExportProvenance, hvalues, hmodules.length_eq, hnames, hlogs,
    hname]

/-- A module with the instance of another one has its name. -/
def InstancesNameModules (plan : OidfPlanIndex) : Prop :=
  ∀ a ∈ plan.modules, ∀ b ∈ plan.modules,
    a.lastInstance = b.lastInstance → a.testModule = b.testModule

theorem InstancesNameModules.of_perm {plan' : OidfPlanIndex} (h : InstancesNameModules plan)
    (hperm : plan.modules.Perm plan'.modules) : InstancesNameModules plan' :=
  fun a ha b hb => h a (hperm.mem_iff.mpr ha) b (hperm.mem_iff.mpr hb)

theorem InstancesNameModules.expectedInstances_eq {plan' : OidfPlanIndex}
    (h : InstancesNameModules plan) (hperm : plan.modules.Perm plan'.modules) :
    expectedInstances plan = expectedInstances plan' := by
  refine ofList_of_perm_of_agree ?_ (hperm.map _)
  intro m hm n hn hkey
  obtain ⟨a, ha, rfl⟩ := List.mem_map.mp hm
  obtain ⟨b, hb, rfl⟩ := List.mem_map.mp hn
  exact h a ha b hb hkey

/-- The logs and the modules of a passing export may be in another order. -/
theorem PassingExport.of_perm {profile : ExportProfile} {index' : Json} {values' : List Json}
    {plan' : OidfPlanIndex} (hinstances : InstancesNameModules plan)
    (hplan : parsePlanIndex index' = .ok plan') (hname : plan.planName = plan'.planName)
    (hmodules : plan.modules.Perm plan'.modules) (hvalues : values.Perm values')
    (h : PassingExport P calendar profile publishedResultUrl index values plan tests) :
    ∃ tests', tests.Perm tests' ∧
      PassingExport P calendar profile publishedResultUrl index' values' plan' tests' := by
  obtain ⟨tests', hlogged, htests⟩ := List.perm_comp_forall₂ hvalues.symm h.logged
  refine ⟨tests', htests.symm, h.origin, hplan, hname.symm.trans h.planName, ?_, ?_, hlogged,
    ?_, ?_⟩
  · intro hnil
    exact h.modules (List.perm_nil.mp (hnil ▸ hmodules))
  · intro module hmodule
    exact h.instances module (hmodules.mem_iff.mpr hmodule)
  · rw [← hinstances.expectedInstances_eq hmodules]
    exact (htests.map _).trans h.identities
  · intro a ha b hb
    exact h.oneSuite a (htests.mem_iff.mp ha) b (htests.mem_iff.mp hb)

/-- The results of two orders of a passing export. -/
theorem exportResult_of_perm {profile : ExportProfile} {format : OidfExportSourceFormat}
    {plan' : OidfPlanIndex} {tests' : List LoggedTest} {completed completed' : LoggedTest}
    (h : PassingExport P calendar profile publishedResultUrl index values plan tests)
    (hname : plan.planName = plan'.planName) (hmodules : plan.modules.Perm plan'.modules)
    (htests : tests.Perm tests') (htext : OneCompletionText tests)
    (hcompleted : CompletedBy tests completed) (hcompleted' : CompletedBy tests' completed') :
    exportResult sha256Json profile publishedResultUrl format plan tests completed =
      exportResult sha256Json profile publishedResultUrl format plan' tests' completed' := by
  obtain ⟨hmem, hmax⟩ := hcompleted.le_of_perm (.refl _)
  obtain ⟨hmem', hmax'⟩ := hcompleted'.le_of_perm htests
  have hwarning : tests.any LoggedTest.isWarning = tests'.any LoggedTest.isWarning :=
    htests.any_eq
  obtain ⟨hfrom, hversion⟩ := h.oneSuite completed hmem completed' hmem'
  unfold exportResult
  rw [hwarning, htext completed hmem completed' hmem' hmax hmax', hfrom, hversion]
  exact conformanceJson_of_perm hname hmodules (htests.map _)

variable (P calendar sha256Json profileName publishedResultUrl) in
/-- A result stays what it is in another order. -/
theorem normalize_of_perm {path path' : ExportPath} {package package' : OidfExportPackage}
    {plan plan' : OidfPlanIndex} {result : Json}
    (hread : OidfExportPackage.read path = .ok package)
    (hread' : OidfExportPackage.read path' = .ok package')
    (hformat : package.sourceFormat = package'.sourceFormat)
    (hvalues : (package.testLogs.map NamedJson.value).Perm
      (package'.testLogs.map NamedJson.value))
    (hplan : parsePlanIndex package.indexJson = .ok plan)
    (hplan' : parsePlanIndex package'.indexJson = .ok plan')
    (hname : plan.planName = plan'.planName) (hmodules : plan.modules.Perm plan'.modules)
    (hinstances : InstancesNameModules plan)
    (htext : ∀ tests, List.Forall₂ (ReadsTest P calendar)
      (package.testLogs.map NamedJson.value) tests → OneCompletionText tests)
    (h : normalizeOpenidConformanceExport P calendar sha256Json profileName path
      publishedResultUrl = .ok result) :
    normalizeOpenidConformanceExport P calendar sha256Json profileName path'
      publishedResultUrl = .ok result := by
  obtain ⟨profile, _, tests, completed, hprofile, hcomplete, hcompleted, rfl⟩ :=
    (normalize_eq_ok hread).mp h
  obtain rfl := Except.ok.inj (hplan.symm.trans hcomplete.parsed)
  have hpassing := (completeExport_iff hprofile).mp hcomplete
  obtain ⟨tests', htests, hpassing'⟩ := hpassing.of_perm hinstances hplan' hname hmodules hvalues
  have hcomplete' := (completeExport_iff hprofile).mpr hpassing'
  obtain ⟨completed', hcompleted'⟩ := hcomplete'.exists_completedBy
  rw [hformat, exportResult_of_perm hpassing hname hmodules htests
    (htext tests hpassing.logged) hcompleted hcompleted']
  exact (normalize_eq_ok hread').mpr
    ⟨profile, plan', tests', completed', hprofile, hcomplete', hcompleted', rfl⟩

theorem OneCompletionText.of_perm {tests tests' : List LoggedTest} (h : OneCompletionText tests)
    (hperm : tests.Perm tests') : OneCompletionText tests' := by
  intro a ha b hb hmax hmax'
  exact h a (hperm.mem_iff.mpr ha) b (hperm.mem_iff.mpr hb)
    (fun other hother => hmax other (hperm.mem_iff.mp hother))
    (fun other hother => hmax' other (hperm.mem_iff.mp hother))

end normalizer

-- the validator on what the normalizer makes

section validator

variable {P : Primitives} {calendar : Calendar} {sha256Json : Json → String}
  {profileName publishedResultUrl : String} {profile : ExportProfile}
  {format : OidfExportSourceFormat} {plan : OidfPlanIndex} {warning : Bool}
  {text exportedFrom version : String} {records : List ProvenanceLogRecord}

theorem any_eq_false_of_forall {α : Type} {p : α → Bool} {previous : Option α}
    (h : ∀ a ∈ previous, p a = false) : ¬previous.any p = true := by
  cases previous with
  | none => exact Bool.false_ne_true
  | some a =>
    rw [Option.any_some, h a rfl]
    exact Bool.false_ne_true

theorem collectModuleNames_of_sorted {names : List String} (index : ℕ) (previous : Option String)
    (htrimmed : ∀ name ∈ names, Trimmed name) (hsorted : names.Pairwise (· ≤ ·))
    (hprevious : ∀ first ∈ previous, ∀ name ∈ names, first ≤ name) :
    collectModuleNames index previous (names.map .string) = ([], names) := by
  induction names generalizing index previous with
  | nil => rfl
  | cons name names ih =>
    rw [List.forall_mem_cons] at htrimmed
    rw [List.pairwise_cons] at hsorted
    have hname : trimmedNonempty (Json.string name).asStr? = some name :=
      htrimmed.1.trimmedNonempty
    have horder : ¬(previous.any fun first => name < first) = true := by
      refine any_eq_false_of_forall fun first hfirst => ?_
      exact decide_eq_false (not_lt.mpr (hprevious first hfirst name (.head _)))
    rw [List.map_cons, collectModuleNames, hname]
    dsimp only
    rw [if_neg horder, ih (index + 1) (some name) htrimmed.2 hsorted.2]
    intro first hfirst other hother
    obtain rfl := Option.some.inj hfirst
    exact hsorted.1 other hother

def selectedInstance (selected : String × String) : Json :=
  .object [("module_name", .string selected.1), ("test_id", .string selected.2)]

theorem collectSelectedInstances_of_sorted {instances : List (String × String)} (index : ℕ)
    (previous : Option (String × String))
    (htrimmed : ∀ selected ∈ instances, Trimmed selected.1 ∧ Trimmed selected.2)
    (hsorted : instances.Pairwise fun a b => [a.1, a.2] ≤ [b.1, b.2])
    (hprevious : ∀ first ∈ previous, ∀ selected ∈ instances,
      [first.1, first.2] ≤ [selected.1, selected.2]) :
    collectSelectedInstances index previous (instances.map selectedInstance) =
      ([], instances.map Prod.fst) := by
  induction instances generalizing index previous with
  | nil => rfl
  | cons selected instances ih =>
    rw [List.forall_mem_cons] at htrimmed
    rw [List.pairwise_cons] at hsorted
    have hname : trimmedNonempty ((selectedInstance selected).text? "module_name") =
        some selected.1 := htrimmed.1.1.trimmedNonempty
    have hid : trimmedNonempty ((selectedInstance selected).text? "test_id") =
        some selected.2 := htrimmed.1.2.trimmedNonempty
    have horder : ¬(previous.any fun first =>
        [selected.1, selected.2] < [first.1, first.2]) = true := by
      refine any_eq_false_of_forall fun first hfirst => ?_
      exact decide_eq_false (not_lt.mpr (hprevious first hfirst selected (.head _)))
    rw [List.map_cons, collectSelectedInstances, hname, hid]
    dsimp only
    rw [if_neg horder, ih (index + 1) (some selected) htrimmed.2 hsorted.2]
    · rfl
    · intro first hfirst other hother
      obtain rfl := Option.some.inj hfirst
      exact hsorted.1 other hother

theorem selectedInstances_perm : (selectedInstances plan).Perm plan.selection :=
  List.perm_insertionSort _ _

theorem selectedInstances_sorted :
    (selectedInstances plan).Pairwise fun a b => [a.1, a.2] ≤ [b.1, b.2] := by
  have htotal : Std.Total fun a b : String × String => [a.1, a.2] ≤ [b.1, b.2] :=
    ⟨fun a b => le_total _ _⟩
  have htrans : IsTrans (String × String) fun a b => [a.1, a.2] ≤ [b.1, b.2] :=
    ⟨fun a b c => le_trans⟩
  exact List.pairwise_insertionSort _ _

def moduleNames (plan : OidfPlanIndex) : List String :=
  (plan.modules.map OidfPlanModule.testModule).insertionSort (· ≤ ·)

theorem moduleNames_perm :
    (moduleNames plan).Perm (plan.modules.map OidfPlanModule.testModule) :=
  List.perm_insertionSort _ _

theorem moduleNames_sorted : (moduleNames plan).Pairwise (· ≤ ·) :=
  List.pairwise_insertionSort _ _

/-- Pairs in order have their first parts in order. -/
theorem map_fst_selectedInstances :
    (selectedInstances plan).map Prod.fst = moduleNames plan := by
  have hfirsts : ((selectedInstances plan).map Prod.fst).Pairwise (· ≤ ·) := by
    rw [List.pairwise_map]
    refine selectedInstances_sorted.imp ?_
    intro a b h
    by_contra hlt
    rw [not_le] at hlt
    exact absurd h (not_le.mpr (List.Lex.rel hlt))
  have hperm : ((selectedInstances plan).map Prod.fst).Perm (moduleNames plan) := by
    refine (selectedInstances_perm.map Prod.fst).trans ?_
    rw [OidfPlanIndex.selection, List.map_map]
    exact moduleNames_perm.symm
  exact hperm.eq_of_pairwise (fun a b _ _ => le_antisymm) hfirsts moduleNames_sorted

/-- What a provenance of the normalizer is made of. -/
structure SoundProvenance (P : Primitives) (sha256Json : Json → String) (plan : OidfPlanIndex)
    (exportedFrom version : String) (records : List ProvenanceLogRecord) : Prop where
  digests : ∀ value, isSha256Hex (sha256Json value) = true
  modules : plan.modules ≠ []
  bounded : plan.modules.length < 2 ^ 64
  logged : records ≠ []
  fewer : records.length ≤ plan.modules.length
  names : ∀ module ∈ plan.modules, Trimmed module.testModule
  instances : ∀ module ∈ plan.modules, Trimmed module.lastInstance
  origin : validateSuiteOrigin P "exportedFrom" exportedFrom = .ok ()
  version : Trimmed version

/-- The two ways to check an origin. -/
theorem requireOpenidCertificationUrl_eq_nil {label label' url : String}
    (h : validateSuiteOrigin P label url = .ok ()) :
    requireOpenidCertificationUrl P label' url = [] := by
  unfold validateSuiteOrigin at h
  unfold requireOpenidCertificationUrl
  cases hurl : P.parseUrl url with
  | none =>
    rw [hurl] at h
    cases h
  | some url =>
    rw [hurl] at h
    dsimp only at h ⊢
    split at h
    · rename_i horigin
      exact if_pos horigin
    · cases h

theorem asU64?_natCast {count : ℕ} (h : count < 2 ^ 64) :
    (Json.number count).asU64? = some count := by
  have hbounds : 0 ≤ (count : ℤ) ∧ (count : ℤ) < 2 ^ 64 := ⟨Int.natCast_nonneg _, mod_cast h⟩
  rw [Json.asU64?, if_pos hbounds, Int.toNat_natCast]

theorem requirePositiveUsize_length {value : Json} {key : String} (label : String) {count : ℕ}
    (hvalue : value.get? key = some (.number count)) (hpos : 0 < count) (hcount : count < 2 ^ 64) :
    requirePositiveUsize value key label = ([], some count) := by
  rw [requirePositiveUsize, hvalue, Option.bind_some, asU64?_natCast hcount]
  exact if_pos hpos

/-- The array of a list that is not empty. -/
theorem validateModuleNames_of_sorted {provenance : Json} {count : ℕ} {names : List String}
    (hvalue : provenance.get? "module_names" = some (.array (names.map .string)))
    (hne : names ≠ []) (hcount : names.length = count)
    (hnames : collectModuleNames 0 none (names.map .string) = ([], names)) :
    validateModuleNames provenance (some count) = ([], some names) := by
  obtain ⟨first, rest, rfl⟩ := List.exists_cons_of_ne_nil hne
  have hlength : ¬((Json.string first :: rest.map Json.string).length ≠ count) := by
    simpa using hcount
  unfold validateModuleNames
  rw [hvalue]
  rw [List.map_cons] at hnames ⊢
  simp only [Option.bind_some, Json.asArray?, hnames, Option.any_some, hlength, decide_false,
    Bool.false_eq_true, if_false, List.nil_append]

theorem validateSelectedInstances_of_sorted {provenance : Json} {count : ℕ}
    {instances : List (String × String)}
    (hvalue : provenance.get? "selected_instances" =
      some (.array (instances.map selectedInstance)))
    (hne : instances ≠ []) (hcount : instances.length = count)
    (hinstances : collectSelectedInstances 0 none (instances.map selectedInstance) =
      ([], instances.map Prod.fst)) :
    validateSelectedInstances provenance (some count) (some (instances.map Prod.fst)) = [] := by
  obtain ⟨first, rest, rfl⟩ := List.exists_cons_of_ne_nil hne
  have hlength : ¬((selectedInstance first :: rest.map selectedInstance).length ≠ count) := by
    simpa using hcount
  unfold validateSelectedInstances
  rw [hvalue]
  rw [List.map_cons] at hinstances ⊢
  simp only [Option.bind_some, Json.asArray?, hinstances, Option.any_some, hlength, decide_false,
    Bool.false_eq_true, if_false, List.nil_append, ne_eq, not_true_eq_false]

/-- A provenance with nothing to report but its counts. -/
theorem provenanceFailures_of_counts {provenance : Json} {planModuleCount testLogCount : ℕ}
    {names : List String}
    (hplan : requirePositiveUsize provenance "plan_module_count"
      "oidf_export_provenance.plan_module_count" = ([], some planModuleCount))
    (hlog : requirePositiveUsize provenance "test_log_count"
      "oidf_export_provenance.test_log_count" = ([], some testLogCount))
    (hnames : validateModuleNames provenance (some planModuleCount) = ([], some names))
    (hinstances : validateSelectedInstances provenance (some planModuleCount) (some names) = [])
    (hformat : requireSourceFormat provenance = [])
    (hfrom : requireExportedFrom P provenance = [])
    (hversion : requireNonEmptyString provenance "suite_version"
      "oidf_export_provenance.suite_version" = [])
    (hschema : requireStringField provenance "schema" oidfExportProvenanceSchema
      "oidf_export_provenance.schema" = [])
    (hnormalizer : requireStringField provenance "normalizer" oidfExportNormalizer
      "oidf_export_provenance.normalizer" = [])
    (hmodules : requireSha256Hex provenance "plan_modules_sha256"
      "oidf_export_provenance.plan_modules_sha256" = [])
    (hlogs : requireSha256Hex provenance "test_logs_sha256"
      "oidf_export_provenance.test_logs_sha256" = []) :
    provenanceFailures P provenance =
      requireSameCount (some planModuleCount) (some testLogCount) := by
  simp only [provenanceFailures, hplan, hlog, hnames, hinstances, hformat, hfrom, hversion,
    hschema, hnormalizer, hmodules, hlogs, List.nil_append, List.append_nil]

theorem provenanceFailures_oidfExportProvenance (format : OidfExportSourceFormat)
    (h : SoundProvenance P sha256Json plan exportedFrom version records) :
    provenanceFailures P
        (oidfExportProvenance sha256Json format plan exportedFrom version records) =
      if records.length = plan.modules.length then []
      else ["oidf_export_provenance.test_log_count must match plan_module_count, got " ++
        toString records.length] := by
  have hplanCount : (oidfExportProvenance sha256Json format plan exportedFrom version
      records).get? "plan_module_count" = some (.number plan.modules.length) := by
    simp [oidfExportProvenance, Json.get?]
  have hlogCount : (oidfExportProvenance sha256Json format plan exportedFrom version
      records).get? "test_log_count" = some (.number records.length) := by
    simp [oidfExportProvenance, Json.get?]
  have hnameValues : (oidfExportProvenance sha256Json format plan exportedFrom version
      records).get? "module_names" = some (.array ((moduleNames plan).map .string)) := by
    simp [oidfExportProvenance, Json.get?, moduleNames]
  have hinstanceValues : (oidfExportProvenance sha256Json format plan exportedFrom version
      records).get? "selected_instances" =
        some (.array ((selectedInstances plan).map selectedInstance)) := by
    simp [oidfExportProvenance, Json.get?, selectedInstanceValues, selectedInstance]
  have hfirst := List.length_pos_of_ne_nil h.modules
  have hsecond := List.length_pos_of_ne_nil h.logged
  have hnameLength : (moduleNames plan).length = plan.modules.length := by
    rw [moduleNames_perm.length_eq, List.length_map]
  have hinstanceLength : (selectedInstances plan).length = plan.modules.length := by
    rw [selectedInstances_perm.length_eq, OidfPlanIndex.selection, List.length_map]
  have hnames := validateModuleNames_of_sorted hnameValues
    (List.ne_nil_of_length_pos (hnameLength ▸ hfirst)) hnameLength <| by
      refine collectModuleNames_of_sorted 0 none ?_ moduleNames_sorted (by simp)
      intro name hname
      obtain ⟨module, hmodule, rfl⟩ := List.mem_map.mp (moduleNames_perm.mem_iff.mp hname)
      exact h.names module hmodule
  have hinstances := validateSelectedInstances_of_sorted hinstanceValues
    (List.ne_nil_of_length_pos (hinstanceLength ▸ hfirst)) hinstanceLength <| by
      refine collectSelectedInstances_of_sorted 0 none ?_ selectedInstances_sorted (by simp)
      intro selected hselected
      obtain ⟨module, hmodule, rfl⟩ :=
        List.mem_map.mp (selectedInstances_perm.mem_iff.mp hselected)
      exact ⟨h.names module hmodule, h.instances module hmodule⟩
  rw [map_fst_selectedInstances] at hinstances
  have hdigest := h.digests
  have hformat : requireSourceFormat
      (oidfExportProvenance sha256Json format plan exportedFrom version records) = [] := by
    cases format <;> simp [requireSourceFormat, oidfExportProvenance, Json.text?, Json.get?,
      Json.asStr?, OidfExportSourceFormat.asStr]
  have hfrom : requireExportedFrom P
      (oidfExportProvenance sha256Json format plan exportedFrom version records) = [] := by
    simp [requireExportedFrom, oidfExportProvenance, Json.text?, Json.get?, Json.asStr?,
      requireOpenidCertificationUrl_eq_nil h.origin]
  have hversion : requireNonEmptyString
      (oidfExportProvenance sha256Json format plan exportedFrom version records)
      "suite_version" "oidf_export_provenance.suite_version" = [] := by
    simp [requireNonEmptyString, oidfExportProvenance, Json.text?, Json.get?, Json.asStr?,
      h.version.isBlank]
  have hschema : requireStringField
      (oidfExportProvenance sha256Json format plan exportedFrom version records)
      "schema" oidfExportProvenanceSchema "oidf_export_provenance.schema" = [] := by
    simp [requireStringField, oidfExportProvenance, Json.text?, Json.get?, Json.asStr?,
      oidfExportProvenanceSchema]
  have hnormalizer : requireStringField
      (oidfExportProvenance sha256Json format plan exportedFrom version records)
      "normalizer" oidfExportNormalizer "oidf_export_provenance.normalizer" = [] := by
    simp [requireStringField, oidfExportProvenance, Json.text?, Json.get?, Json.asStr?,
      oidfExportNormalizer]
  have hsha : ∀ key label, (key = "plan_modules_sha256" ∨ key = "test_logs_sha256") →
      requireSha256Hex
        (oidfExportProvenance sha256Json format plan exportedFrom version records) key label =
          [] := by
    rintro key label (rfl | rfl)
    · simp [requireSha256Hex, oidfExportProvenance, Json.text?, Json.get?, Json.asStr?, hdigest]
    · simp [requireSha256Hex, oidfExportProvenance, Json.text?, Json.get?, Json.asStr?, hdigest]
  have hplan := requirePositiveUsize_length "oidf_export_provenance.plan_module_count"
    hplanCount hfirst h.bounded
  have hlog := requirePositiveUsize_length "oidf_export_provenance.test_log_count"
    hlogCount hsecond (lt_of_le_of_lt h.fewer h.bounded)
  rw [provenanceFailures_of_counts hplan hlog hnames hinstances hformat hfrom hversion hschema
    hnormalizer (hsha _ _ (.inl rfl)) (hsha _ _ (.inr rfl))]
  by_cases hsame : records.length = plan.modules.length
  · simp [requireSameCount, hsame]
  · simp [requireSameCount, hsame]

-- no field of the result is forbidden

theorem rejectForbiddenMembers_eq_nil {path : String} {members : List (String × Json)}
    (hkeys : ∀ m ∈ members, ¬forbiddenOpenidResultFields.contains (normalizedFieldKey m.1) = true)
    (hvalues : ∀ m ∈ members, ∀ path, rejectForbiddenOpenidResultFields path m.2 = []) :
    rejectForbiddenMembers path members = [] := by
  induction members with
  | nil => rfl
  | cons m members ih =>
    rw [List.forall_mem_cons] at hkeys hvalues
    obtain ⟨key, child⟩ := m
    rw [rejectForbiddenMembers, if_neg hkeys.1, hvalues.1, ih hkeys.2 hvalues.2]
    rfl

theorem rejectForbiddenValues_eq_nil {path : String} {index : ℕ} {values : List Json}
    (h : ∀ value ∈ values, ∀ path, rejectForbiddenOpenidResultFields path value = []) :
    rejectForbiddenValues path index values = [] := by
  induction values generalizing index with
  | nil => rfl
  | cons value values ih =>
    rw [List.forall_mem_cons] at h
    rw [rejectForbiddenValues, h.1, ih h.2]
    rfl

theorem rejectForbidden_moduleNames (names : List String) (path : String) :
    rejectForbiddenOpenidResultFields path (.array (names.map .string)) = [] := by
  rw [rejectForbiddenOpenidResultFields]
  refine rejectForbiddenValues_eq_nil fun value hvalue path => ?_
  obtain ⟨name, -, rfl⟩ := List.mem_map.mp hvalue
  rfl

theorem rejectForbidden_selectedInstances (path : String) :
    rejectForbiddenOpenidResultFields path (.array (selectedInstanceValues plan)) = [] := by
  rw [rejectForbiddenOpenidResultFields]
  refine rejectForbiddenValues_eq_nil fun value hvalue path => ?_
  obtain ⟨selected, -, rfl⟩ := List.mem_map.mp hvalue
  rw [rejectForbiddenOpenidResultFields]
  refine rejectForbiddenMembers_eq_nil ?_ ?_
  · simp only [List.forall_mem_cons]
    exact ⟨by decide, by decide, fun _ h => absurd h List.not_mem_nil⟩
  · simp only [List.forall_mem_cons]
    exact ⟨fun _ => rfl, fun _ => rfl, fun _ h => absurd h List.not_mem_nil⟩

theorem rejectForbidden_provenance (path : String) :
    rejectForbiddenOpenidResultFields path
      (oidfExportProvenance sha256Json format plan exportedFrom version records) = [] := by
  unfold oidfExportProvenance
  rw [rejectForbiddenOpenidResultFields]
  refine rejectForbiddenMembers_eq_nil ?_ ?_
  · simp only [List.forall_mem_cons]
    exact ⟨by decide, by decide, by decide, by decide, by decide, by decide, by decide,
      by decide, by decide, by decide, by decide, fun _ h => absurd h List.not_mem_nil⟩
  · simp only [List.forall_mem_cons]
    exact ⟨fun _ => rfl, fun _ => rfl, fun _ => rfl, fun _ => rfl, fun _ => rfl, fun _ => rfl,
      fun _ => rfl, rejectForbidden_moduleNames _, rejectForbidden_selectedInstances,
      fun _ => rfl, fun _ => rfl, fun _ h => absurd h List.not_mem_nil⟩

theorem rejectForbidden_conformanceJson (path : String) :
    rejectForbiddenOpenidResultFields path (conformanceJson sha256Json profile publishedResultUrl
      format plan warning text exportedFrom version records) = [] := by
  unfold conformanceJson
  rw [rejectForbiddenOpenidResultFields]
  refine rejectForbiddenMembers_eq_nil ?_ ?_
  · simp only [List.forall_mem_cons]
    exact ⟨by decide, by decide, by decide, by decide, by decide, by decide, by decide,
      by decide, fun _ h => absurd h List.not_mem_nil⟩
  · simp only [List.forall_mem_cons]
    exact ⟨fun _ => rfl, fun _ => rfl, fun _ => rfl, fun _ => rfl, fun _ => rfl, fun _ => rfl,
      fun _ => rfl, rejectForbidden_provenance, fun _ h => absurd h List.not_mem_nil⟩

theorem validateOpenidFinishedStatusResult_of_fields {value : Json} {path status result : String}
    (hstatus : value.text? "status" = some status) (hresult : value.text? "result" = some result)
    (hfinished : eqIgnoreAsciiCase status "FINISHED" = true)
    (hpassing : (eqIgnoreAsciiCase result "PASSED" || eqIgnoreAsciiCase result "WARNING") = true) :
    validateOpenidFinishedStatusResult value path = [] := by
  have hfields : statusResultFields value = some (status, result) := by
    rw [statusResultFields, hstatus, hresult]
    rfl
  have hfound : openidStatusResult value = some (status, result) := by
    rw [openidStatusResult, hfields]
    rfl
  simp only [validateOpenidFinishedStatusResult, hfound, hfinished, hpassing, if_true,
    List.append_nil]

/-- A result with nothing to report but its counts. -/
theorem validateOpenidConformanceResult_conformanceJson {label : String}
    (h : SoundProvenance P sha256Json plan exportedFrom version records)
    (htime : (calendar.parseRfc3339 text).isSome = true)
    (horigin : validateSuiteOrigin P label publishedResultUrl = .ok ()) :
    (validateOpenidConformanceResult P calendar (validateOpenidNormalizedResult P calendar)
        (conformanceJson sha256Json profile publishedResultUrl format plan warning text
          exportedFrom version records)
        profile.certificationProfile profile.planName).failures =
      if records.length = plan.modules.length then []
      else ["oidf_export_provenance.test_log_count must match plan_module_count, got " ++
        toString records.length] := by
  generalize hresult : conformanceJson sha256Json profile publishedResultUrl format plan warning
    text exportedFrom version records = result
  have hfailures : rejectNonEmptyArray result "failures" = [] := by
    subst hresult
    simp [rejectNonEmptyArray, conformanceJson, Json.get?]
  have herrors : rejectNonEmptyArray result "errors" = [] := by
    subst hresult
    simp [rejectNonEmptyArray, conformanceJson, Json.get?]
  have hfailed : rejectTrueBool result "failed" = [] := by
    subst hresult
    simp [rejectTrueBool, conformanceJson, Json.get?]
  have hforbidden : rejectForbiddenOpenidResultFields "$" result = [] := by
    subst hresult
    exact rejectForbidden_conformanceJson _
  have hraw : ¬((result.get? "testLogExports").isSome = true ∨
      (result.get? "planInfo").isSome = true) := by
    subst hresult
    simp [conformanceJson, Json.get?]
  have hsource : (requireConformanceSource result).failures = [] := by
    subst hresult
    simp [requireConformanceSource, conformanceJson, Json.text?, Json.get?, Json.asStr?]
  have hname : requireOpenidPlanName result profile.planName = [] := by
    subst hresult
    simp [requireOpenidPlanName, openidPlanName, conformanceJson, Json.get?, Json.asStr?]
  have hcompleted : (requireRfc3339Timestamp calendar result "completed_at"
      "OpenID conformance result").failures = [] := by
    subst hresult
    obtain ⟨moment, hmoment⟩ := Option.isSome_iff_exists.mp htime
    simp [requireRfc3339Timestamp, conformanceJson, Json.text?, Json.get?, Json.asStr?, hmoment]
  have hstatus : validateOpenidFinishedStatusResult result "OpenID conformance result" = [] := by
    subst hresult
    exact validateOpenidFinishedStatusResult_of_fields rfl rfl (by decide)
      (by cases warning <;> decide)
  have hprofile : requireCertificationProfile result profile.certificationProfile = [] := by
    subst hresult
    simp [requireCertificationProfile, conformanceJson, Json.get?, Json.asStr?]
  have hurl : requirePublishedResultUrl P result = [] := by
    subst hresult
    simp [requirePublishedResultUrl, conformanceJson, Json.get?, Json.asStr?,
      requireOpenidCertificationUrl_eq_nil horigin]
  have hprovenance : (validateOidfExportProvenance P result).failures =
      if records.length = plan.modules.length then []
      else ["oidf_export_provenance.test_log_count must match plan_module_count, got " ++
        toString records.length] := by
    subst hresult
    rw [← provenanceFailures_oidfExportProvenance format h]
    simp [validateOidfExportProvenance, conformanceJson, Json.get?]
  simp only [validateOpenidConformanceResult, if_neg hraw, hfailures, herrors, hfailed,
    hforbidden, validateOpenidNormalizedResult]
  split
  · simp [hsource, hname, hcompleted, hstatus, hprofile, hurl, hprovenance]
  · simp [hsource, hname, hcompleted, hstatus, hprofile, hurl, hprovenance]

/-- The provenance of a complete export. -/
theorem soundProvenance_of_complete {index : Json} {values : List Json}
    {tests : List LoggedTest} {completed : LoggedTest}
    (hdigests : ∀ value, isSha256Hex (sha256Json value) = true)
    (hbounded : plan.modules.length < 2 ^ 64)
    (hcomplete : CompleteExport P calendar profileName publishedResultUrl index values plan tests)
    (hprofile : exportProfile profileName = .ok profile) (hcompleted : completed ∈ tests) :
    SoundProvenance P sha256Json plan completed.test.exportedFrom completed.test.suiteVersion
      (tests.map LoggedTest.record) := by
  have hpassing := (completeExport_iff hprofile).mp hcomplete
  obtain ⟨value, hlogs⟩ := hcomplete.logsTest hcompleted
  have hsound := soundTest_of_parseTestLog hlogs.parsed
  have hlength := hcomplete.testIds_perm.length_eq
  have hdedup := (List.dedup_sublist plan.lastInstances).length_le
  rw [List.length_map] at hlength
  rw [OidfPlanIndex.lastInstances, List.length_map] at hdedup
  refine ⟨hdigests, hpassing.modules, hbounded, ?_, ?_, trimmed_of_parsePlanIndex hpassing.parsed,
    fun module hmodule => hcomplete.trimmed_lastInstance hmodule, hsound.origin,
    hsound.suiteVersion⟩
  · exact List.ne_nil_of_mem (List.mem_map_of_mem hcompleted)
  · rw [List.length_map, hlength]
    exact hdedup

theorem length_dedup_eq_iff {l : List String} : l.dedup.length = l.length ↔ l.Nodup := by
  constructor
  · intro h
    exact List.dedup_eq_self.mp ((List.dedup_sublist l).eq_of_length h)
  · intro h
    rw [h.dedup]

end validator

namespace Sample

def suiteHash : String := String.ofList (List.replicate 64 '0')

theorem isSha256Hex_suiteHash : isSha256Hex suiteHash = true := by decide

/-- Two modules with one instance, and its log. -/
def sharedTree : FileTree where
  files := [⟨["index.json"], suiteIndex [planModule "discovery" "x", planModule "discovery" "x"]⟩,
    ⟨["test-logs", "test-log-x.json"], suiteLog "x" "discovery"⟩]
  distinct := by decide
  rooted := by decide
  named := by decide
  leaves := by decide

/-- Two modules and their logs. -/
def pairTree : FileTree where
  files := [⟨["index.json"], suiteIndex [planModule "discovery" "x", planModule "userinfo" "y"]⟩,
    ⟨["test-logs", "test-log-x.json"], suiteLog "x" "discovery"⟩,
    ⟨["test-logs", "test-log-y.json"], suiteLog "y" "userinfo"⟩]
  distinct := by decide
  rooted := by decide
  named := by decide
  leaves := by decide

/-- The modules the other way round. -/
def swappedTree : FileTree where
  files := [⟨["index.json"], suiteIndex [planModule "userinfo" "y", planModule "discovery" "x"]⟩,
    ⟨["test-logs", "test-log-x.json"], suiteLog "x" "discovery"⟩,
    ⟨["test-logs", "test-log-y.json"], suiteLog "y" "userinfo"⟩]
  distinct := by decide
  rooted := by decide
  named := by decide
  leaves := by decide

/-- The result of an archive with its files in a given order. -/
def archiveResult (order : List TreeFile) : Except String Json :=
  normalizeOpenidConformanceExport suitePrimitives suiteCalendar (fun _ => suiteHash) "config-op"
    (.archive (order.map TreeFile.member)) "https://www.certification.openid.net/plan"

/-- What is read of an archive that has a result. -/
theorem read_of_archiveResult {tree : FileTree} {order : List TreeFile} {last : TreeFile}
    (horder : order.Perm tree.files)
    (hlast : (order.filter TreeFile.isIndex).getLast? = some last)
    (h : (archiveResult order).isOk = true) :
    (∃ result, archiveResult order = .ok result) ∧
    OidfExportPackage.read (.archive (order.map TreeFile.member)) =
      .ok ⟨.zip, last.value, (order.filter TreeFile.isArchivedLog).map fun file =>
        ⟨file.relativePath, file.value⟩⟩ := by
  have hsome : ∃ result, archiveResult order = .ok result := by
    cases hresult : archiveResult order with
    | ok result => exact ⟨result, rfl⟩
    | error e =>
      rw [hresult] at h
      cases h
  obtain ⟨result, hresult⟩ := hsome
  obtain ⟨package, hread⟩ := exists_read hresult
  obtain rfl := FileTree.readZip_member horder hlast hread
  exact ⟨⟨result, hresult⟩, hread⟩

end Sample

open Sample

-- the results

section results

variable (P : Primitives) (calendar : Calendar) (sha256Json : Json → String)
  (profileName publishedResultUrl : String)

/-- The normalizer takes the passing exports. What it makes of one is a warning where some log
    is one, and was completed with the last log. -/
theorem normalizer_accepts_exactly {profile : ExportProfile} {path : ExportPath}
    {package : OidfExportPackage} (hprofile : exportProfile profileName = .ok profile)
    (hread : OidfExportPackage.read path = .ok package) :
    ((∃ result, normalizeOpenidConformanceExport P calendar sha256Json profileName path
        publishedResultUrl = .ok result) ↔
      ∃ plan tests, PassingExport P calendar profile publishedResultUrl package.indexJson
        (package.testLogs.map NamedJson.value) plan tests) ∧
    ∀ result plan tests,
      normalizeOpenidConformanceExport P calendar sha256Json profileName path
        publishedResultUrl = .ok result →
      PassingExport P calendar profile publishedResultUrl package.indexJson
        (package.testLogs.map NamedJson.value) plan tests →
      result.text? "result" =
          some (if tests.any LoggedTest.isWarning then "WARNING" else "PASSED") ∧
        ∃ last ∈ tests, result.text? "completed_at" = some last.exportedAt ∧
          ∀ other ∈ tests, other.test.exportedAt.instant ≤ last.test.exportedAt.instant := by
  constructor
  · constructor
    · rintro ⟨result, hresult⟩
      obtain ⟨_, plan, tests, -, -, hcomplete, -⟩ := (normalize_eq_ok hread).mp hresult
      exact ⟨plan, tests, (completeExport_iff hprofile).mp hcomplete⟩
    · rintro ⟨plan, tests, hpassing⟩
      exact exists_normalize sha256Json hread (.refl _) ((completeExport_iff hprofile).mpr hpassing)
  · intro result plan tests hresult hpassing
    obtain ⟨profile', plan', tests', completed, -, hcomplete, hcompleted, rfl⟩ :=
      (normalize_eq_ok hread).mp hresult
    obtain ⟨rfl, rfl⟩ := hpassing.tests_eq ((completeExport_iff hprofile).mp hcomplete)
    obtain ⟨hmem, hmax⟩ := hcompleted.le_of_perm (.refl _)
    refine ⟨?_, completed, hmem, ?_, hmax⟩
    · simp [exportResult, conformanceJson, Json.text?, Json.get?, Json.asStr?]
    · simp [exportResult, conformanceJson, Json.text?, Json.get?, Json.asStr?]

theorem pair_accepted : ∃ plan tests, PassingExport suitePrimitives suiteCalendar
    ⟨"Config OP", "oidcc-config-certification-test-plan"⟩
    "https://www.certification.openid.net/plan"
    (suiteIndex [planModule "discovery" "x", planModule "userinfo" "y"])
    [suiteLog "x" "discovery", suiteLog "y" "userinfo"] plan tests := by
  obtain ⟨hsome, hread⟩ := read_of_archiveResult (.refl pairTree.files) rfl (by decide)
  exact (normalizer_accepts_exactly suitePrimitives suiteCalendar (fun _ => suiteHash)
    "config-op" "https://www.certification.openid.net/plan" rfl hread).1.mp hsome

/-- The order of the logs and of the modules does not matter, as long as an instance has one
    module and the latest time is written in one way. -/
theorem normalizer_ignores_order {path path' : ExportPath} {package package' : OidfExportPackage}
    {plan plan' : OidfPlanIndex} (hread : OidfExportPackage.read path = .ok package)
    (hread' : OidfExportPackage.read path' = .ok package')
    (hformat : package.sourceFormat = package'.sourceFormat)
    (hvalues : (package.testLogs.map NamedJson.value).Perm
      (package'.testLogs.map NamedJson.value))
    (hplan : parsePlanIndex package.indexJson = .ok plan)
    (hplan' : parsePlanIndex package'.indexJson = .ok plan')
    (hname : plan.planName = plan'.planName) (hmodules : plan.modules.Perm plan'.modules)
    (hinstances : InstancesNameModules plan)
    (htext : ∀ tests, List.Forall₂ (ReadsTest P calendar)
      (package.testLogs.map NamedJson.value) tests → OneCompletionText tests) (result : Json) :
    normalizeOpenidConformanceExport P calendar sha256Json profileName path
        publishedResultUrl = .ok result ↔
      normalizeOpenidConformanceExport P calendar sha256Json profileName path'
        publishedResultUrl = .ok result := by
  constructor
  · exact normalize_of_perm P calendar sha256Json profileName publishedResultUrl hread hread'
      hformat hvalues hplan hplan' hname hmodules hinstances htext
  · refine normalize_of_perm P calendar sha256Json profileName publishedResultUrl hread' hread
      hformat.symm hvalues.symm hplan' hplan hname.symm hmodules.symm
      (hinstances.of_perm hmodules) ?_
    intro tests' hlogged'
    obtain ⟨tests, hlogged, htests⟩ := List.perm_comp_forall₂ hvalues hlogged'
    exact (htext tests hlogged).of_perm htests

/-- The logs from the last to the first, and the modules the other way round. -/
theorem swapped_same : ∃ result, archiveResult pairTree.files = .ok result ∧
    archiveResult swappedTree.files.reverse = .ok result := by
  obtain ⟨⟨result, hresult⟩, hread⟩ := read_of_archiveResult (.refl pairTree.files) rfl (by decide)
  obtain ⟨-, hread'⟩ :=
    read_of_archiveResult (List.reverse_perm swappedTree.files) rfl (by decide)
  have hplan : parsePlanIndex (suiteIndex [planModule "discovery" "x",
      planModule "userinfo" "y"]) = .ok ⟨"oidcc-config-certification-test-plan",
        [⟨"discovery", ["x"]⟩, ⟨"userinfo", ["y"]⟩]⟩ := rfl
  have hplan' : parsePlanIndex (suiteIndex [planModule "userinfo" "y",
      planModule "discovery" "x"]) = .ok ⟨"oidcc-config-certification-test-plan",
        [⟨"userinfo", ["y"]⟩, ⟨"discovery", ["x"]⟩]⟩ := rfl
  refine ⟨result, hresult, (normalizer_ignores_order suitePrimitives suiteCalendar
    (fun _ => suiteHash) "config-op" "https://www.certification.openid.net/plan" hread hread' rfl
    (List.Perm.swap _ _ _) hplan hplan' rfl (List.Perm.swap _ _ _) ?_ ?_ result).mp hresult⟩
  · intro a ha b hb heq
    simp only [List.mem_cons, List.not_mem_nil, or_false] at ha hb
    rcases ha with rfl | rfl <;> rcases hb with rfl | rfl
    · rfl
    · exact absurd heq (by decide)
    · exact absurd heq (by decide)
    · rfl
  · intro tests hlogged a ha b hb _ _
    have htext : ∀ logged ∈ tests, logged.exportedAt = "1970-01-01T00:00:00Z" := by
      intro logged hmem
      obtain ⟨value, hreads⟩ := exists_readsTest hlogged hmem
      exact (Option.some.inj hreads.formatted).symm
    rw [htext a ha, htext b hb]

end results

/-- The validator has nothing to report of a result of the normalizer, unless two modules of
    the plan have one last instance: then the counts of modules and logs differ. -/
theorem normalized_result_validates (P : Primitives) (calendar : Calendar)
    (sha256Json : Json → String) (profileName publishedResultUrl : String)
    {profile : ExportProfile} {path : ExportPath} {package : OidfExportPackage}
    {plan : OidfPlanIndex} {result : Json}
    (hdigests : ∀ value, isSha256Hex (sha256Json value) = true)
    (hformats : ∀ moment text, calendar.formatRfc3339 moment = some text →
      (calendar.parseRfc3339 text).isSome = true)
    (hprofile : exportProfile profileName = .ok profile)
    (hread : OidfExportPackage.read path = .ok package)
    (hplan : parsePlanIndex package.indexJson = .ok plan)
    (hbounded : plan.modules.length < 2 ^ 64)
    (hresult : normalizeOpenidConformanceExport P calendar sha256Json profileName path
      publishedResultUrl = .ok result) :
    (validateOpenidConformanceResult P calendar (validateOpenidNormalizedResult P calendar)
        result profile.certificationProfile profile.planName).failures =
      if plan.lastInstances.Nodup then []
      else ["oidf_export_provenance.test_log_count must match plan_module_count, got " ++
        toString plan.lastInstances.dedup.length] := by
  obtain ⟨_, _, tests, completed, hprofile', hcomplete, hcompleted, rfl⟩ :=
    (normalize_eq_ok hread).mp hresult
  obtain rfl := Except.ok.inj (hprofile.symm.trans hprofile')
  obtain rfl := Except.ok.inj (hplan.symm.trans hcomplete.parsed)
  have hsound := soundProvenance_of_complete hdigests hbounded hcomplete hprofile hcompleted.1
  have htime := hformats _ _ (hcomplete.formatted hcompleted.1)
  have hlength : (tests.map LoggedTest.record).length = plan.lastInstances.dedup.length := by
    have hperm := hcomplete.testIds_perm.length_eq
    rw [List.length_map] at hperm ⊢
    exact hperm
  have hmodules : plan.lastInstances.length = plan.modules.length := List.length_map _
  refine (validateOpenidConformanceResult_conformanceJson hsound htime hcomplete.origin).trans ?_
  rw [hlength, ← hmodules]
  simp only [length_dedup_eq_iff]

/-- Two modules with one instance are taken by the normalizer, with one log for both, and
    what it makes of them is reported. -/
theorem shared_instance_reported : ∃ result, archiveResult sharedTree.files = .ok result ∧
    (validateOpenidConformanceResult suitePrimitives suiteCalendar
      (validateOpenidNormalizedResult suitePrimitives suiteCalendar) result "Config OP"
      "oidcc-config-certification-test-plan").failures =
      ["oidf_export_provenance.test_log_count must match plan_module_count, got 1"] := by
  obtain ⟨⟨result, hresult⟩, hread⟩ := read_of_archiveResult (.refl sharedTree.files) rfl
    (by decide)
  have hplan : parsePlanIndex (suiteIndex [planModule "discovery" "x",
      planModule "discovery" "x"]) = .ok ⟨"oidcc-config-certification-test-plan",
        [⟨"discovery", ["x"]⟩, ⟨"discovery", ["x"]⟩]⟩ := rfl
  have hvalidates := normalized_result_validates suitePrimitives suiteCalendar
    (fun _ => suiteHash) "config-op" "https://www.certification.openid.net/plan"
    (fun _ => isSha256Hex_suiteHash) (fun _ _ _ => rfl) rfl hread hplan (by decide) hresult
  exact ⟨result, hresult, hvalidates⟩

end CairnId
