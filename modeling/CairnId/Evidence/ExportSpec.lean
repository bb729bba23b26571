import CairnId.Concurrency.Prog
import CairnId.Evidence.ExportNormalizer
import Mathlib.Data.List.Perm.Basic

/-!
# What the export normalizer computes

The loop over the test logs accepts by conditions that do not depend on the order of the
logs, and only the time of completion depends on it.

## Main definitions

- `LoggedTest`, `LogsTest` — what one log says
- `Compatible` — two tests of one export
- `CompleteExport` — an index and the test logs are an export of its plan
- `latest` — the time of completion

## Main results

- `foldlM_addTestLog_eq_ok` — what the loop accepts, and what it computes
- `CompleteExport.of_perm` — the order of the logs does not matter
- `normalize_eq_ok` — when a package has a result, and which
-/

namespace CairnId

open Concurrency.Prog (except_bind_eq_ok)

@[simp]
theorem okOrElse_eq_ok {α : Type} {message : String} {o : Option α} {a : α} :
    okOrElse message o = .ok a ↔ o = some a := by
  cases o <;> simp [okOrElse]

-- the latest of some moments

/-- The current time is kept when it is as late. -/
def later (current : Option Moment) (moment : Moment) : Option Moment :=
  match current with
  | some current => if moment.instant ≤ current.instant then some current else some moment
  | none => some moment

def latest (moments : List Moment) : Option Moment := moments.foldl later none

theorem foldl_later (moments : List Moment) (current : Moment) :
    ∃ moment ∈ current :: moments, moments.foldl later (some current) = some moment ∧
      ∀ other ∈ current :: moments, other.instant ≤ moment.instant := by
  induction moments generalizing current with
  | nil => exact ⟨current, .head _, rfl, by simp⟩
  | cons next moments ih =>
    rw [List.foldl_cons, later]
    by_cases hle : next.instant ≤ current.instant
    · rw [if_pos hle]
      obtain ⟨moment, hmem, hfold, hmax⟩ := ih current
      have hcurrent := hmax current (.head _)
      refine ⟨moment, ?_, hfold, ?_⟩
      · cases hmem with
        | head => exact .head _
        | tail _ h => exact .tail _ (.tail _ h)
      · intro other hother
        simp only [List.mem_cons] at hother hmax
        rcases hother with rfl | rfl | h
        · exact hcurrent
        · omega
        · exact hmax other (.inr h)
    · rw [if_neg hle]
      obtain ⟨moment, hmem, hfold, hmax⟩ := ih next
      have hnext := hmax next (.head _)
      refine ⟨moment, .tail _ hmem, hfold, ?_⟩
      intro other hother
      cases hother with
      | head => omega
      | tail _ h => exact hmax other h

theorem latest_cons (moment : Moment) (moments : List Moment) :
    latest (moment :: moments) = moments.foldl later (some moment) := rfl

/-- The latest is one of the moments, and none is later. -/
theorem latest_spec {moments : List Moment} {moment : Moment} (h : latest moments = some moment) :
    moment ∈ moments ∧ ∀ other ∈ moments, other.instant ≤ moment.instant := by
  cases moments with
  | nil => cases h
  | cons first moments =>
    obtain ⟨found, hmem, hfold, hmax⟩ := foldl_later moments first
    rw [latest_cons, hfold] at h
    obtain rfl := Option.some.inj h
    exact ⟨hmem, hmax⟩

theorem exists_latest {moments : List Moment} (hne : moments ≠ []) :
    ∃ moment, latest moments = some moment := by
  cases moments with
  | nil => exact absurd rfl hne
  | cons first moments =>
    obtain ⟨found, -, hfold, -⟩ := foldl_later moments first
    exact ⟨found, hfold⟩

/-- Of moments as late as each other, the first one counts. -/
theorem latest_cons_of_le {moment : Moment} {moments : List Moment}
    (h : ∀ other ∈ moments, other.instant ≤ moment.instant) :
    latest (moment :: moments) = some moment := by
  rw [latest_cons]
  induction moments with
  | nil => rfl
  | cons next moments ih =>
    rw [List.foldl_cons, later, if_pos (h next (.head _))]
    exact ih fun other hother => h other (.tail _ hother)

-- one test log

structure LoggedTest where
  test : OidfTestLog
  /-- When it was exported, in RFC 3339. -/
  exportedAt : String

def LoggedTest.record (logged : LoggedTest) : ProvenanceLogRecord :=
  ⟨logged.test.testModuleName, logged.test.testId, logged.test.status, logged.test.result,
    logged.exportedAt, logged.test.exportedFrom, logged.test.suiteVersion⟩

def LoggedTest.isWarning (logged : LoggedTest) : Bool :=
  eqIgnoreAsciiCase logged.test.result "WARNING"

/-- Tests of one export: of one suite, and of different instances. -/
structure Compatible (a b : LoggedTest) : Prop where
  exportedFrom : a.test.exportedFrom = b.test.exportedFrom
  suiteVersion : a.test.suiteVersion = b.test.suiteVersion
  testId : a.test.testId ≠ b.test.testId

theorem Compatible.symm {a b : LoggedTest} (h : Compatible a b) : Compatible b a :=
  ⟨h.exportedFrom.symm, h.suiteVersion.symm, h.testId.symm⟩

section normalizer

variable (P : Primitives) (calendar : Calendar) (sha256Json : Json → String)

/-- The log is one of an expected instance. Its name is in messages only. -/
structure LogsTest (expected : List (String × String)) (value : Json) (logged : LoggedTest) :
    Prop where
  clean : rejectForbiddenLogFields "$" value = .ok ()
  parsed : parseTestLog P calendar "" value = .ok logged.test
  expected : SortedMap.get logged.test.testId expected = some logged.test.testModuleName
  formatted : calendar.formatRfc3339 logged.test.exportedAt = some logged.exportedAt

variable {P calendar sha256Json} {expected expected' : List (String × String)}
  {value : Json} {values values' : List Json} {logged logged' : LoggedTest}
  {tests tests' : List LoggedTest} {state state' : ExportState}

theorem LogsTest.unique (h : LogsTest P calendar expected value logged)
    (h' : LogsTest P calendar expected' value logged') : logged = logged' := by
  obtain ⟨test, text⟩ := logged
  obtain ⟨test', text'⟩ := logged'
  obtain rfl : test = test' := Except.ok.inj (h.parsed.symm.trans h'.parsed)
  obtain rfl : text = text' := Option.some.inj (h.formatted.symm.trans h'.formatted)
  rfl

theorem parseTestLog_eq_ok (name : String) {test : OidfTestLog} :
    parseTestLog P calendar name value = .ok test ↔
      parseTestLog P calendar "" value = .ok test := by
  simp only [parseTestLog, except_bind_eq_ok, okOrElse_eq_ok]

-- the loop over the test logs

def ExportState.add (state : ExportState) (logged : LoggedTest) : ExportState where
  matchedInstances := logged.test.testId :: state.matchedInstances
  sawWarning := state.sawWarning || logged.isWarning
  completedAt := later state.completedAt logged.test.exportedAt
  exportedFrom := some logged.test.exportedFrom
  suiteVersion := some logged.test.suiteVersion
  provenanceLogs := state.provenanceLogs ++ [logged.record]

/-- The test goes with what the loop has seen. -/
structure Fits (state : ExportState) (logged : LoggedTest) : Prop where
  exportedFrom : ∀ seen ∈ state.exportedFrom, seen = logged.test.exportedFrom
  suiteVersion : ∀ seen ∈ state.suiteVersion, seen = logged.test.suiteVersion
  testId : logged.test.testId ∉ state.matchedInstances

theorem requireConsistentExportField_eq_ok {seen : Option String} {value label : String}
    {result : Option String} : requireConsistentExportField seen value label = .ok result ↔
      (∀ existing ∈ seen, existing = value) ∧ result = some value := by
  unfold requireConsistentExportField
  cases seen with
  | none => simp [eq_comm]
  | some existing =>
    by_cases h : existing = value
    · simp [h, eq_comm]
    · simp [h]

theorem addTestLog_eq_ok {log : NamedJson} :
    addTestLog P calendar expected state log = .ok state' ↔
      ∃ logged, LogsTest P calendar expected log.value logged ∧ Fits state logged ∧
        state' = state.add logged := by
  unfold addTestLog
  simp only [except_bind_eq_ok, okOrElse_eq_ok, requireConsistentExportField_eq_ok,
    parseTestLog_eq_ok]
  constructor
  · rintro ⟨⟨⟩, hclean, test, hparsed, from', ⟨hfrom, rfl⟩, version, ⟨hversion, rfl⟩, module,
      hexpected, hrest⟩
    split at hrest
    · exact absurd hrest nofun
    rename_i hmodule
    split at hrest
    · exact absurd hrest nofun
    rename_i hmatched
    obtain ⟨text, hformatted, hrest⟩ := except_bind_eq_ok.mp hrest
    rw [okOrElse_eq_ok] at hformatted
    rw [ne_eq, not_not] at hmodule
    subst hmodule
    have hfresh : test.testId ∉ state.matchedInstances := by simpa using hmatched
    exact ⟨⟨test, text⟩, ⟨hclean, hparsed, hexpected, hformatted⟩, ⟨hfrom, hversion, hfresh⟩,
      (Except.ok.inj hrest).symm⟩
  · rintro ⟨⟨test, text⟩, hlogs, hfits, rfl⟩
    refine ⟨(), hlogs.clean, test, hlogs.parsed, _, ⟨hfits.exportedFrom, rfl⟩, _,
      ⟨hfits.suiteVersion, rfl⟩, test.testModuleName, hlogs.expected, ?_⟩
    have hfresh : ¬state.matchedInstances.contains test.testId = true := by
      simpa using hfits.testId
    rw [if_neg (not_not.mpr rfl), if_neg hfresh]
    exact except_bind_eq_ok.mpr ⟨text, okOrElse_eq_ok.mpr hlogs.formatted, rfl⟩

/-- Every test goes with what was seen before the loop and with every other one. -/
def FitTogether (state : ExportState) (tests : List LoggedTest) : Prop :=
  (∀ logged ∈ tests, Fits state logged) ∧ tests.Pairwise Compatible

theorem fits_add_iff : Fits state logged → (Fits (state.add logged) logged' ↔
    Fits state logged' ∧ Compatible logged logged') := by
  intro hfits
  constructor
  · intro h
    have hfrom := h.exportedFrom _ rfl
    have hversion := h.suiteVersion _ rfl
    have hfresh : logged'.test.testId ∉ logged.test.testId :: state.matchedInstances := h.testId
    rw [List.mem_cons, not_or] at hfresh
    refine ⟨⟨?_, ?_, hfresh.2⟩, ⟨hfrom, hversion, fun heq => hfresh.1 heq.symm⟩⟩
    · intro seen hseen
      exact (hfits.exportedFrom seen hseen).trans hfrom
    · intro seen hseen
      exact (hfits.suiteVersion seen hseen).trans hversion
  · rintro ⟨h, hcompatible⟩
    refine ⟨?_, ?_, ?_⟩
    · intro seen hseen
      exact (Option.some.inj hseen).symm.trans hcompatible.exportedFrom
    · intro seen hseen
      exact (Option.some.inj hseen).symm.trans hcompatible.suiteVersion
    · show logged'.test.testId ∉ logged.test.testId :: state.matchedInstances
      rw [List.mem_cons, not_or]
      exact ⟨fun heq => hcompatible.testId heq.symm, h.testId⟩

theorem fitTogether_cons : FitTogether state (logged :: tests) ↔
    Fits state logged ∧ FitTogether (state.add logged) tests := by
  unfold FitTogether
  rw [List.forall_mem_cons, List.pairwise_cons]
  constructor
  · rintro ⟨⟨hfits, hothers⟩, hcompatible, hpairwise⟩
    refine ⟨hfits, ?_, hpairwise⟩
    intro other hother
    exact (fits_add_iff hfits).mpr ⟨hothers other hother, hcompatible other hother⟩
  · rintro ⟨hfits, hothers, hpairwise⟩
    have hboth := fun other hother => (fits_add_iff hfits).mp (hothers other hother)
    exact ⟨⟨hfits, fun other hother => (hboth other hother).1⟩,
      fun other hother => (hboth other hother).2, hpairwise⟩

theorem foldlM_addTestLog_eq_ok {logs : List NamedJson} :
    logs.foldlM (addTestLog P calendar expected) state = .ok state' ↔
      ∃ tests, List.Forall₂ (LogsTest P calendar expected) (logs.map NamedJson.value) tests ∧
        FitTogether state tests ∧ state' = tests.foldl ExportState.add state := by
  induction logs generalizing state with
  | nil =>
    constructor
    · intro h
      exact ⟨[], .nil, ⟨by simp, .nil⟩, (Except.ok.inj h).symm⟩
    · rintro ⟨tests, hlogged, -, rfl⟩
      obtain rfl : tests = [] := by simpa using hlogged
      rfl
  | cons log logs ih =>
    rw [List.foldlM_cons, except_bind_eq_ok]
    constructor
    · rintro ⟨next, hstep, hrest⟩
      obtain ⟨logged, hlogs, hfits, rfl⟩ := addTestLog_eq_ok.mp hstep
      obtain ⟨tests, hlogged, htogether, rfl⟩ := ih.mp hrest
      exact ⟨logged :: tests, .cons hlogs hlogged, fitTogether_cons.mpr ⟨hfits, htogether⟩, rfl⟩
    · rintro ⟨tests, hlogged, htogether, rfl⟩
      rw [List.map_cons] at hlogged
      cases hlogged with
      | cons hlogs hlogged =>
        obtain ⟨hfits, htogether⟩ := fitTogether_cons.mp htogether
        exact ⟨_, addTestLog_eq_ok.mpr ⟨_, hlogs, hfits, rfl⟩,
          ih.mpr ⟨_, hlogged, htogether, rfl⟩⟩

def ExportState.start : ExportState := ⟨[], false, none, none, none, []⟩

theorem fitTogether_start : FitTogether .start tests ↔ tests.Pairwise Compatible := by
  refine ⟨And.right, fun h => ⟨?_, h⟩⟩
  intro logged hlogged
  exact ⟨nofun, nofun, List.not_mem_nil⟩

-- the variables after the loop

theorem mem_matchedInstances_foldl {id : String} :
    id ∈ (tests.foldl ExportState.add state).matchedInstances ↔
      (∃ logged ∈ tests, logged.test.testId = id) ∨ id ∈ state.matchedInstances := by
  induction tests generalizing state with
  | nil => simp
  | cons logged tests ih =>
    rw [List.foldl_cons, ih]
    show _ ∨ id ∈ logged.test.testId :: state.matchedInstances ↔ _
    simp only [List.mem_cons, exists_eq_or_imp]
    constructor
    · rintro (h | rfl | h)
      exacts [.inl (.inr h), .inl (.inl rfl), .inr h]
    · rintro ((rfl | h) | h)
      exacts [.inr (.inl rfl), .inl h, .inr (.inr h)]

theorem sawWarning_foldl : (tests.foldl ExportState.add state).sawWarning =
    (state.sawWarning || tests.any LoggedTest.isWarning) := by
  induction tests generalizing state with
  | nil => simp
  | cons logged tests ih =>
    rw [List.foldl_cons, ih, List.any_cons, ← Bool.or_assoc]
    rfl

theorem completedAt_foldl : (tests.foldl ExportState.add state).completedAt =
    (tests.map fun logged => logged.test.exportedAt).foldl later state.completedAt := by
  induction tests generalizing state with
  | nil => rfl
  | cons logged tests ih => exact ih

theorem provenanceLogs_foldl : (tests.foldl ExportState.add state).provenanceLogs =
    state.provenanceLogs ++ tests.map LoggedTest.record := by
  induction tests generalizing state with
  | nil => simp
  | cons logged tests ih =>
    rw [List.foldl_cons, ih, List.map_cons, ← List.singleton_append, ← List.append_assoc]
    rfl

/-- The suite of the last test is the one of every test. -/
theorem suite_foldl (state : ExportState) (hpairwise : tests.Pairwise Compatible) (hmem : logged ∈ tests) :
    (tests.foldl ExportState.add state).exportedFrom = some logged.test.exportedFrom ∧
      (tests.foldl ExportState.add state).suiteVersion = some logged.test.suiteVersion := by
  induction tests generalizing state logged with
  | nil => exact absurd hmem List.not_mem_nil
  | cons first tests ih =>
    rw [List.foldl_cons]
    rw [List.pairwise_cons] at hpairwise
    by_cases hnil : tests = []
    · subst hnil
      obtain rfl := List.mem_singleton.mp hmem
      exact ⟨rfl, rfl⟩
    · obtain ⟨next, hnext⟩ := List.exists_mem_of_ne_nil tests hnil
      have hlast := ih (state.add first) hpairwise.2 hnext
      have hfirst := hpairwise.1 next hnext
      rw [List.mem_cons] at hmem
      rcases hmem with rfl | hmem
      · rw [hfirst.exportedFrom, hfirst.suiteVersion]
        exact hlast
      · exact ih _ hpairwise.2 hmem

-- complete exports

variable (P calendar) in
/-- The index has a plan of the profile, and the values are one test log for each instance it
    selects. The tests are what the logs say. -/
structure CompleteExport (profileName publishedResultUrl : String) (index : Json)
    (values : List Json) (plan : OidfPlanIndex) (tests : List LoggedTest) : Prop where
  profile : ∃ profile, exportProfile profileName = .ok profile ∧ requirePlan profile plan = .ok ()
  origin : validateSuiteOrigin P "published_result_url" publishedResultUrl = .ok ()
  parsed : parsePlanIndex index = .ok plan
  logged : List.Forall₂ (LogsTest P calendar (expectedInstances plan)) values tests
  compatible : tests.Pairwise Compatible
  covered : ∀ instance' ∈ expectedInstances plan,
    ∃ logged ∈ tests, logged.test.testId = instance'.1

/-- The test whose time is the time of completion. -/
def CompletedBy (tests : List LoggedTest) (completed : LoggedTest) : Prop :=
  completed ∈ tests ∧
    latest (tests.map fun logged => logged.test.exportedAt) = some completed.test.exportedAt

variable {profileName publishedResultUrl : String} {profile : ExportProfile} {index : Json}
  {plan : OidfPlanIndex} {path : ExportPath} {package : OidfExportPackage} {result : Json}

theorem requireMatchedInstances_eq_ok {matched : List String} :
    requireMatchedInstances matched expected = .ok () ↔ ∀ m ∈ expected, m.1 ∈ matched := by
  induction expected with
  | nil => simp [requireMatchedInstances]
  | cons m expected ih =>
    rw [requireMatchedInstances, List.forall_mem_cons]
    by_cases h : m.1 ∈ matched
    · rw [if_pos (List.contains_iff_mem.mpr h), ih]
      simp [h]
    · rw [if_neg (fun hmem => h (List.contains_iff_mem.mp hmem))]
      simp [h]

theorem modules_ne_nil_of_requirePlan (h : requirePlan profile plan = .ok ()) :
    plan.modules ≠ [] := by
  intro hnil
  unfold requirePlan at h
  rw [hnil] at h
  split at h <;> cases h

theorem planName_of_requirePlan (h : requirePlan profile plan = .ok ()) :
    plan.planName = profile.planName := by
  by_contra hne
  rw [requirePlan, if_pos hne] at h
  cases h

theorem expectedInstances_ne_nil (h : plan.modules ≠ []) : expectedInstances plan ≠ [] := by
  obtain ⟨modules, module, hmodules⟩ := List.eq_nil_or_concat plan.modules |>.resolve_left h
  unfold expectedInstances SortedMap.ofList
  rw [hmodules, List.concat_eq_append, List.map_append, List.foldl_append]
  exact SortedMap.insert_ne_nil _ _ _

namespace CompleteExport

theorem exists_value
    (h : CompleteExport P calendar profileName publishedResultUrl index values plan tests)
    (hmem : logged ∈ tests) :
    ∃ value ∈ values, LogsTest P calendar (expectedInstances plan) value logged := by
  have hlogged := h.logged
  clear h
  induction hlogged with
  | nil => exact absurd hmem List.not_mem_nil
  | cons hlogs _ ih =>
    cases hmem with
    | head => exact ⟨_, .head _, hlogs⟩
    | tail _ hmem =>
      obtain ⟨value, hvalue, hlogs⟩ := ih hmem
      exact ⟨value, .tail _ hvalue, hlogs⟩

theorem tests_ne_nil
    (h : CompleteExport P calendar profileName publishedResultUrl index values plan tests) :
    tests ≠ [] := by
  rintro rfl
  obtain ⟨profile, -, hplan⟩ := h.profile
  obtain ⟨m, hm⟩ := List.exists_mem_of_ne_nil _
    (expectedInstances_ne_nil (modules_ne_nil_of_requirePlan hplan))
  obtain ⟨logged, hlogged, -⟩ := h.covered m hm
  exact List.not_mem_nil hlogged

theorem planName
    (h : CompleteExport P calendar profileName publishedResultUrl index values plan tests)
    (hprofile : exportProfile profileName = .ok profile) : plan.planName = profile.planName := by
  obtain ⟨_, hprofile', hplan⟩ := h.profile
  obtain rfl := Except.ok.inj (hprofile.symm.trans hprofile')
  exact planName_of_requirePlan hplan

/-- The tests are of one suite. -/
theorem sameSuite
    (h : CompleteExport P calendar profileName publishedResultUrl index values plan tests)
    (hmem : logged ∈ tests) (hmem' : logged' ∈ tests) :
    logged.test.exportedFrom = logged'.test.exportedFrom ∧
      logged.test.suiteVersion = logged'.test.suiteVersion := by
  obtain ⟨hfrom, hversion⟩ := suite_foldl .start h.compatible hmem
  obtain ⟨hfrom', hversion'⟩ := suite_foldl .start h.compatible hmem'
  exact ⟨Option.some.inj (hfrom.symm.trans hfrom'), Option.some.inj (hversion.symm.trans hversion')⟩

theorem exists_completedBy
    (h : CompleteExport P calendar profileName publishedResultUrl index values plan tests) :
    ∃ completed, CompletedBy tests completed := by
  obtain ⟨moment, hlatest⟩ := exists_latest (mt List.map_eq_nil_iff.mp h.tests_ne_nil)
  obtain ⟨completed, hmem, rfl⟩ := List.mem_map.mp (latest_spec hlatest).1
  exact ⟨completed, hmem, hlatest⟩

theorem formatted
    (h : CompleteExport P calendar profileName publishedResultUrl index values plan tests)
    (hmem : logged ∈ tests) :
    calendar.formatRfc3339 logged.test.exportedAt = some logged.exportedAt := by
  obtain ⟨value, -, hlogs⟩ := h.exists_value hmem
  exact hlogs.formatted

/-- The logs may be in another order. -/
theorem of_perm (hperm : values.Perm values')
    (h : CompleteExport P calendar profileName publishedResultUrl index values plan tests) :
    ∃ tests', tests.Perm tests' ∧
      CompleteExport P calendar profileName publishedResultUrl index values' plan tests' := by
  obtain ⟨tests', hlogged, htests⟩ := List.perm_comp_forall₂ hperm.symm h.logged
  refine ⟨tests', htests.symm, h.profile, h.origin, h.parsed, hlogged, ?_, ?_⟩
  · exact (htests.symm.pairwise_iff fun hcompatible => hcompatible.symm).mp h.compatible
  · intro m hm
    obtain ⟨logged, hmem, hid⟩ := h.covered m hm
    exact ⟨logged, htests.mem_iff.mpr hmem, hid⟩

/-- What the logs say does not depend on the plan. -/
theorem tests_eq
    (h : CompleteExport P calendar profileName publishedResultUrl index values plan tests)
    {index' : Json} {plan' : OidfPlanIndex}
    (h' : CompleteExport P calendar profileName publishedResultUrl index' values plan' tests') :
    tests = tests' := by
  have hfirst := h.logged
  have hsecond := h'.logged
  clear h h'
  induction hfirst generalizing tests' with
  | nil =>
    cases hsecond
    rfl
  | cons hlogs hfirst ih =>
    cases hsecond with
    | cons hlogs' hsecond =>
      obtain rfl := hlogs.unique hlogs'
      rw [ih hsecond]

end CompleteExport

/-- The result of a complete export. -/
def exportResult (sha256Json : Json → String) (profile : ExportProfile)
    (publishedResultUrl : String) (sourceFormat : OidfExportSourceFormat) (plan : OidfPlanIndex)
    (tests : List LoggedTest) (completed : LoggedTest) : Json :=
  conformanceJson sha256Json profile publishedResultUrl sourceFormat plan
    (tests.any LoggedTest.isWarning) completed.exportedAt completed.test.exportedFrom
    completed.test.suiteVersion (tests.map LoggedTest.record)

theorem conformanceResult_eq_ok {sourceFormat : OidfExportSourceFormat}
    (hpairwise : tests.Pairwise Compatible) {completed : LoggedTest}
    (hcompleted : CompletedBy tests completed)
    (hformatted : calendar.formatRfc3339 completed.test.exportedAt = some completed.exportedAt) :
    conformanceResult calendar sha256Json profile publishedResultUrl sourceFormat plan
        (tests.foldl ExportState.add .start) = .ok result ↔
      (∀ m ∈ expectedInstances plan, ∃ logged ∈ tests, logged.test.testId = m.1) ∧
      result = exportResult sha256Json profile publishedResultUrl sourceFormat plan tests
        completed := by
  obtain ⟨hfrom, hversion⟩ := suite_foldl .start hpairwise hcompleted.1
  have hat : (tests.foldl ExportState.add .start).completedAt =
      some completed.test.exportedAt := completedAt_foldl.trans hcompleted.2
  have hwarning : (tests.foldl ExportState.add .start).sawWarning =
      tests.any LoggedTest.isWarning := sawWarning_foldl
  have hrecords : (tests.foldl ExportState.add .start).provenanceLogs =
      tests.map LoggedTest.record := provenanceLogs_foldl
  have hcovered : requireMatchedInstances (tests.foldl ExportState.add .start).matchedInstances
      (expectedInstances plan) = .ok () ↔
      ∀ m ∈ expectedInstances plan, ∃ logged ∈ tests, logged.test.testId = m.1 := by
    rw [requireMatchedInstances_eq_ok]
    simp only [mem_matchedInstances_foldl, ExportState.start, List.not_mem_nil, or_false]
  unfold conformanceResult
  rw [except_bind_eq_ok, hat, hfrom, hversion, hwarning, hrecords, ← hcovered]
  constructor
  · rintro ⟨⟨⟩, hmatched, hrest⟩
    simp only [except_bind_eq_ok, okOrElse_eq_ok, Option.some.injEq, exists_eq_left',
      hformatted] at hrest
    exact ⟨hmatched, (Except.ok.inj hrest).symm⟩
  · rintro ⟨hmatched, rfl⟩
    refine ⟨(), hmatched, ?_⟩
    simp only [except_bind_eq_ok, okOrElse_eq_ok]
    exact ⟨_, rfl, _, rfl, _, rfl, _, hformatted, rfl⟩

/-- The result of a package whose index and logs are a complete export. -/
theorem normalize_eq_ok (hread : OidfExportPackage.read path = .ok package) :
    normalizeOpenidConformanceExport P calendar sha256Json profileName path publishedResultUrl =
        .ok result ↔
      ∃ profile plan tests completed, exportProfile profileName = .ok profile ∧
        CompleteExport P calendar profileName publishedResultUrl package.indexJson
          (package.testLogs.map NamedJson.value) plan tests ∧ CompletedBy tests completed ∧
        result = exportResult sha256Json profile publishedResultUrl package.sourceFormat plan tests
          completed := by
  unfold normalizeOpenidConformanceExport
  simp only [except_bind_eq_ok, hread, Except.ok.injEq, exists_eq_left']
  constructor
  · rintro ⟨profile, hprofile, ⟨⟩, horigin, plan, hparsed, ⟨⟩, hplan, state, hfold, hresult⟩
    obtain ⟨tests, hlogged, htogether, rfl⟩ := foldlM_addTestLog_eq_ok.mp hfold
    have hpairwise := fitTogether_start.mp htogether
    obtain ⟨⟨⟩, hmatched, -⟩ := except_bind_eq_ok.mp hresult
    rw [requireMatchedInstances_eq_ok] at hmatched
    simp only [mem_matchedInstances_foldl, List.not_mem_nil, or_false] at hmatched
    have hcomplete : CompleteExport P calendar profileName publishedResultUrl package.indexJson
        (package.testLogs.map NamedJson.value) plan tests :=
      ⟨⟨profile, hprofile, hplan⟩, horigin, hparsed, hlogged, hpairwise, hmatched⟩
    obtain ⟨completed, hcompleted⟩ := hcomplete.exists_completedBy
    have hformatted := hcomplete.formatted hcompleted.1
    exact ⟨profile, plan, tests, completed, hprofile, hcomplete, hcompleted,
      ((conformanceResult_eq_ok hpairwise hcompleted hformatted).mp hresult).2⟩
  · rintro ⟨profile, plan, tests, completed, hprofile, hcomplete, hcompleted, hresult⟩
    obtain ⟨_, hprofile', hplan⟩ := hcomplete.profile
    obtain rfl := Except.ok.inj (hprofile.symm.trans hprofile')
    have hfold := foldlM_addTestLog_eq_ok.mpr
      ⟨tests, hcomplete.logged, fitTogether_start.mpr hcomplete.compatible, rfl⟩
    have hformatted := hcomplete.formatted hcompleted.1
    exact ⟨profile, hprofile, (), hcomplete.origin, plan, hcomplete.parsed, (), hplan, _, hfold,
      (conformanceResult_eq_ok hcomplete.compatible hcompleted hformatted).mpr
        ⟨hcomplete.covered, hresult⟩⟩

theorem exists_read (h : normalizeOpenidConformanceExport P calendar sha256Json profileName path
    publishedResultUrl = .ok result) : ∃ package, OidfExportPackage.read path = .ok package := by
  unfold normalizeOpenidConformanceExport at h
  simp only [except_bind_eq_ok] at h
  obtain ⟨-, -, -, -, package, hread, -⟩ := h
  exact ⟨package, hread⟩

theorem exists_normalize (sha256Json : Json → String)
    (hread : OidfExportPackage.read path = .ok package)
    (hperm : values.Perm (package.testLogs.map NamedJson.value))
    (h : CompleteExport P calendar profileName publishedResultUrl package.indexJson values plan
      tests) : ∃ result, normalizeOpenidConformanceExport P calendar sha256Json profileName path
        publishedResultUrl = .ok result := by
  obtain ⟨tests', -, hcomplete⟩ := h.of_perm hperm
  obtain ⟨profile, hprofile, -⟩ := h.profile
  obtain ⟨completed, hcompleted⟩ := hcomplete.exists_completedBy
  exact ⟨_, (normalize_eq_ok hread).mpr
    ⟨profile, plan, tests', completed, hprofile, hcomplete, hcompleted, rfl⟩⟩

/-- Where the first log is as late as any, its time is the time of completion. -/
theorem completed_of_first {completed : LoggedTest} {others : List Json}
    (h : CompleteExport P calendar profileName publishedResultUrl index (value :: others) plan
      tests) (hlogs : LogsTest P calendar expected value logged)
    (hmax : ∀ other ∈ tests, other.test.exportedAt.instant ≤ logged.test.exportedAt.instant)
    (hcompleted : CompletedBy tests completed) : completed.exportedAt = logged.exportedAt := by
  have hformatted := h.formatted hcompleted.1
  have hlogged := h.logged
  cases hlogged with
  | cons hfirst hrest =>
    obtain rfl := hlogs.unique hfirst
    have hlatest := hcompleted.2
    rw [List.map_cons, latest_cons_of_le] at hlatest
    · rw [← Option.some.inj hlatest, hlogs.formatted] at hformatted
      exact (Option.some.inj hformatted).symm
    · intro moment hmoment
      obtain ⟨other, hother, rfl⟩ := List.mem_map.mp hmoment
      exact hmax other (.tail _ hother)

end normalizer

end CairnId
