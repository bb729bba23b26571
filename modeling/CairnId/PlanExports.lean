import CairnId.Evidence.Conformance
import CairnId.Http.TokenRuns

/-!
# Raw plan exports

What a raw plan export that is accepted says about the modules of its plan: the modules
are looked up by their latest instance, and the outcome of a log by the first place that
has one.

## Main definitions

- `Serves` — the entry is the log of the module
- `EveryModulePassed` — each module has an entry of its own, which passed
- `DistinctInstances`, `NothingHidden` — what the validator does not check

## Main results

- `validateTestExports_ok` — what holds of the entries when nothing is reported
- `plan_export_exact` — when an accepted export has every module passed
-/

namespace CairnId

-- what is claimed of an export

def planModules (value : Json) : List Json :=
  ((valueAtPath value ["planInfo", "modules"]).bind Json.asArray?).getD []

def testLogExports (value : Json) : List Json :=
  ((value.get? "testLogExports").bind Json.asArray?).getD []

/-- The entry has the latest instance of the module, and its name. -/
def Serves (module testExport : Json) : Prop :=
  ∃ testId moduleName, planModuleInstance module = some (testId, moduleName) ∧
    testExport.text? "testId" = some testId ∧ testExport.text? "testModuleName" = some moduleName

def IsFinished (status : String) : Prop := eqIgnoreAsciiCase status "FINISHED" = true

def IsPassing (result : String) : Prop :=
  eqIgnoreAsciiCase result "PASSED" = true ∨ eqIgnoreAsciiCase result "WARNING" = true

/-- Status and result, as far as they are recorded, are those of a passed test. -/
def RecordsPass (testInfo : Json) : Prop :=
  (∀ status, testInfo.text? "status" = some status → IsFinished status) ∧
    ∀ result, testInfo.text? "result" = some result → IsPassing result

/-- What the entry's `testInfo` records, when it has one. -/
def InfoPassed (testExport : Json) : Prop :=
  ∀ «export» testInfo, testExport.get? "export" = some «export» →
    «export».get? "testInfo" = some testInfo → RecordsPass testInfo

/-- Every module has an entry of its own that matches it and passed. -/
def EveryModulePassed (value : Json) : Prop :=
  ∃ entryOf : ℕ → ℕ,
    (∀ i j, i < (planModules value).length → j < (planModules value).length →
      entryOf i = entryOf j → i = j) ∧
    ∀ i module, (planModules value)[i]? = some module → ∃ testExport,
      (testLogExports value)[entryOf i]? = some testExport ∧ Serves module testExport ∧
        InfoPassed testExport

-- what the validator leaves open

/-- No two modules have the same latest instance. -/
def DistinctInstances (value : Json) : Prop :=
  ((planModules value).filterMap fun module => (planModuleInstance module).map Prod.fst).Nodup

/-- A `testInfo` that is not looked at records nothing but a passed test: the export has
    a status and a result itself, or one of the two is missing in `testInfo`. -/
def NothingHidden (value : Json) : Prop :=
  ∀ testExport ∈ testLogExports value, (∃ module ∈ planModules value, Serves module testExport) →
    ∀ «export» testInfo, testExport.get? "export" = some «export» →
      «export».get? "testInfo" = some testInfo →
      (statusResultFields «export»).isSome = true ∨ statusResultFields testInfo = none →
      RecordsPass testInfo

-- the modules

theorem mem_nonBlank {text : Option String} {value : String} (h : nonBlank text = some value) :
    text = some value ∧ nonBlank (some value) = some value := by
  obtain ⟨rfl, hblank⟩ := Option.filter_eq_some_iff.mp h
  exact ⟨rfl, h⟩

theorem nonBlank_of_planModuleInstance {module : Json} {testId moduleName : String}
    (h : planModuleInstance module = some (testId, moduleName)) :
    nonBlank (some testId) = some testId ∧ nonBlank (some moduleName) = some moduleName := by
  unfold planModuleInstance at h
  dsimp only at h
  split at h
  · rename_i name instances hname hinstances
    split at h
    · cases h
    · obtain ⟨latest, hlatest, heq⟩ := Option.map_eq_some_iff.mp h
      obtain ⟨rfl, rfl⟩ := Prod.mk.inj heq
      exact ⟨(mem_nonBlank hlatest).2, (mem_nonBlank hname).2⟩
  · cases h

theorem collectPlanModules_ok {index : ℕ} {expectedLogs logs : ExpectedLogs} {modules : List Json}
    (h : collectPlanModules index expectedLogs modules = ([], logs)) :
    ∃ instances : List (String × String), modules.map planModuleInstance = instances.map some ∧
      logs = instances.foldl (fun held m => SortedMap.insert m.1 m.2 held) expectedLogs := by
  induction modules generalizing index expectedLogs with
  | nil => exact ⟨[], rfl, (Prod.mk.inj h).2.symm⟩
  | cons module modules ih =>
    rw [collectPlanModules] at h
    cases hmodule : planModuleInstance module with
    | none =>
      rw [hmodule] at h
      exact absurd (Prod.mk.inj h).1 (List.cons_ne_nil _ _)
    | some identity =>
      rw [hmodule] at h
      obtain ⟨instances, hinstances, hlogs⟩ := ih h
      refine ⟨identity :: instances, ?_, hlogs⟩
      rw [List.map_cons, hmodule, hinstances, List.map_cons]

theorem validatePlanModules_ok {value : Json} (h : (validatePlanModules value).failures = []) :
    ∃ instances : List (String × String),
      (planModules value).map planModuleInstance = instances.map some ∧
      (validatePlanModules value).expectedLogs = some (SortedMap.ofList instances) := by
  unfold validatePlanModules at h ⊢
  unfold planModules
  cases hmodules : (valueAtPath value ["planInfo", "modules"]).bind Json.asArray? with
  | none =>
    rw [hmodules] at h
    exact absurd h (List.cons_ne_nil _ _)
  | some modules =>
    rw [hmodules] at h
    cases modules with
    | nil => exact absurd h (List.cons_ne_nil _ _)
    | cons module modules =>
      dsimp only at h ⊢
      cases hcollect : collectPlanModules 0 [] (module :: modules) with
      | mk failures logs =>
        rw [hcollect] at h
        dsimp only at h
        by_cases hempty : logs.isEmpty = true
        · rw [if_pos hempty] at h
          exact absurd h (List.append_ne_nil_of_right_ne_nil _ (List.cons_ne_nil _ _))
        · rw [if_neg hempty] at h ⊢
          dsimp only at h
          subst h
          obtain ⟨instances, hinstances, hlogs⟩ := collectPlanModules_ok hcollect
          exact ⟨instances, hinstances, congrArg some hlogs⟩

-- the entries

theorem testExportIdentity_eq_some_iff {testExport : Json} {testId moduleName : String} :
    testExportIdentity testExport = some (testId, moduleName) ↔
      nonBlank (testExport.text? "testId") = some testId ∧
        nonBlank (testExport.text? "testModuleName") = some moduleName := by
  unfold testExportIdentity
  cases nonBlank (testExport.text? "testId") <;>
    cases nonBlank (testExport.text? "testModuleName") <;> simp

theorem testExportIdentity_of_serves {module testExport : Json} {testId moduleName : String}
    (hmodule : planModuleInstance module = some (testId, moduleName))
    (h : Serves module testExport) :
    testExportIdentity testExport = some (testId, moduleName) := by
  obtain ⟨id', name', hmodule', hid, hname⟩ := h
  obtain ⟨rfl, rfl⟩ := Prod.mk.inj (Option.some.inj (hmodule.symm.trans hmodule'))
  obtain ⟨hid', hname'⟩ := nonBlank_of_planModuleInstance hmodule
  rw [testExportIdentity_eq_some_iff, hid, hname]
  exact ⟨hid', hname'⟩

/-- The export of the entry has an outcome, and it is that of a passed test. -/
def ExportPassed (testExport : Json) : Prop :=
  ∃ «export» status result, testExport.get? "export" = some «export» ∧
    openidStatusResult «export» = some (status, result) ∧ IsFinished status ∧ IsPassing result

section entries

variable {P : Primitives} {calendar : Calendar} {logs : ExpectedLogs} {seen seen' : List String}
  {testExport : Json} {path : String}

theorem exportPassed_of_ok (h : validateExport P calendar path testExport = []) :
    ExportPassed testExport := by
  unfold validateExport at h
  cases hexport : testExport.get? "export" with
  | none =>
    rw [hexport] at h
    exact absurd h (List.cons_ne_nil _ _)
  | some «export» =>
    rw [hexport] at h
    have hstatus := (List.append_eq_nil_iff.mp h).2
    unfold validateOpenidFinishedStatusResult at hstatus
    cases houtcome : openidStatusResult «export» with
    | none =>
      rw [houtcome] at hstatus
      exact absurd hstatus (List.cons_ne_nil _ _)
    | some outcome =>
      obtain ⟨status, result⟩ := outcome
      rw [houtcome] at hstatus
      obtain ⟨hfinished, hpassing⟩ := List.append_eq_nil_iff.mp hstatus
      refine ⟨«export», status, result, hexport, houtcome, ?_, ?_⟩
      · by_contra hnot
        unfold IsFinished at hnot
        rw [if_neg hnot] at hfinished
        exact List.cons_ne_nil _ _ hfinished
      · by_contra hnot
        rw [IsPassing, ← Bool.or_eq_true] at hnot
        rw [if_neg hnot] at hpassing
        exact List.cons_ne_nil _ _ hpassing

/-- An entry that is matched is expected, was not seen before and is seen now. -/
theorem matchTestExport_ok (h : matchTestExport path (some logs) seen testExport = ([], seen')) :
    (∀ testId moduleName, testExportIdentity testExport = some (testId, moduleName) →
      SortedMap.get testId logs = some moduleName ∧ testId ∉ seen) ∧
    ∀ testId, testId ∈ seen' ↔ testId ∈ seen ∨
      ∃ moduleName, testExportIdentity testExport = some (testId, moduleName) := by
  unfold matchTestExport at h
  cases hidentity : testExportIdentity testExport with
  | none =>
    rw [hidentity] at h
    obtain rfl := (Prod.mk.inj h).2
    simp
  | some identity =>
    obtain ⟨testId, moduleName⟩ := identity
    rw [hidentity] at h
    dsimp only at h
    cases hget : SortedMap.get testId logs with
    | none =>
      rw [hget] at h
      exact absurd (Prod.mk.inj h).1 (List.cons_ne_nil _ _)
    | some expectedModule =>
      rw [hget] at h
      dsimp only at h
      by_cases hname : expectedModule = moduleName
      · rw [if_pos hname] at h
        by_cases hseen : seen.contains testId = true
        · rw [if_pos hseen] at h
          exact absurd (Prod.mk.inj h).1 (List.cons_ne_nil _ _)
        · rw [if_neg hseen] at h
          obtain rfl := (Prod.mk.inj h).2
          refine ⟨?_, ?_⟩
          · intro other name heq
            obtain ⟨rfl, rfl⟩ := Prod.mk.inj (Option.some.inj heq)
            exact ⟨hget.trans (congrArg some hname),
              fun hmem => hseen (List.contains_iff_mem.mpr hmem)⟩
          · intro other
            rw [List.mem_cons]
            constructor
            · rintro (rfl | hmem)
              · exact .inr ⟨moduleName, rfl⟩
              · exact .inl hmem
            · rintro (hmem | ⟨name, heq⟩)
              · exact .inr hmem
              · exact .inl (Prod.mk.inj (Option.some.inj heq)).1.symm
      · rw [if_neg hname] at h
        exact absurd (Prod.mk.inj h).1 (List.cons_ne_nil _ _)

/-- When nothing is reported every entry has passed, those that name a log are expected
    and no two of them name the same, and these are the logs that were seen. -/
theorem validateTestExports_ok {index : ℕ} {testExports : List Json}
    (h : validateTestExports P calendar (some logs) index seen testExports = ([], seen')) :
    (∀ testExport ∈ testExports, ExportPassed testExport) ∧
    (∀ testExport ∈ testExports, ∀ testId moduleName,
      testExportIdentity testExport = some (testId, moduleName) →
      SortedMap.get testId logs = some moduleName ∧ testId ∉ seen) ∧
    testExports.Pairwise (fun a b => ∀ testId name name',
      testExportIdentity a = some (testId, name) → testExportIdentity b ≠ some (testId, name')) ∧
    ∀ testId, testId ∈ seen' ↔ testId ∈ seen ∨ ∃ testExport ∈ testExports, ∃ moduleName,
      testExportIdentity testExport = some (testId, moduleName) := by
  induction testExports generalizing index seen with
  | nil =>
    obtain rfl := (Prod.mk.inj h).2
    exact ⟨fun _ hmem => absurd hmem List.not_mem_nil, fun _ hmem => absurd hmem List.not_mem_nil,
      .nil, fun _ => by simp⟩
  | cons testExport testExports ih =>
    rw [validateTestExports] at h
    cases hone : validateTestExport P calendar index testExport (some logs) seen with
    | mk failures seen₁ =>
      rw [hone] at h
      dsimp only at h
      cases hrest : validateTestExports P calendar (some logs) (index + 1) seen₁ testExports with
      | mk others seen₂ =>
        rw [hrest] at h
        obtain ⟨hfailures, hseen⟩ := Prod.mk.inj h
        obtain ⟨rfl, rfl⟩ := List.append_eq_nil_iff.mp hfailures
        dsimp only at hseen
        subst hseen
        obtain ⟨hpassed, hexpected, hpairwise, hmem⟩ := ih hrest
        unfold validateTestExport at hone
        dsimp only at hone
        cases hmatch : matchTestExport ("testLogExports[" ++ toString index ++ "]") (some logs) seen
          testExport with
        | mk matched seen₃ =>
          rw [hmatch] at hone
          obtain ⟨hnil, rfl⟩ := Prod.mk.inj hone
          obtain ⟨hnil, hexport⟩ := List.append_eq_nil_iff.mp hnil
          obtain ⟨-, rfl⟩ := List.append_eq_nil_iff.mp hnil
          obtain ⟨hfirst, hseen⟩ := matchTestExport_ok hmatch
          refine ⟨List.forall_mem_cons.mpr ⟨exportPassed_of_ok hexport, hpassed⟩, ?_, ?_, ?_⟩
          · refine List.forall_mem_cons.mpr ⟨hfirst, ?_⟩
            intro other hother testId moduleName hidentity
            obtain ⟨hget, hnot⟩ := hexpected other hother testId moduleName hidentity
            exact ⟨hget, fun hin => hnot ((hseen testId).mpr (.inl hin))⟩
          · refine .cons ?_ hpairwise
            intro other hother testId name name' hidentity hidentity'
            obtain ⟨-, hnot⟩ := hexpected other hother testId name' hidentity'
            exact hnot ((hseen testId).mpr (.inr ⟨name, hidentity⟩))
          · intro testId
            rw [hmem, hseen, or_assoc]
            simp only [List.mem_cons, exists_eq_or_imp]

end entries

-- an accepted export

/-- What is known when nothing is reported: the modules have these instances, and the
    entries are as they are expected. -/
structure AcceptedExport (value : Json) (instances : List (String × String)) : Prop where
  modules : (planModules value).map planModuleInstance = instances.map some
  passed : ∀ testExport ∈ testLogExports value, ExportPassed testExport
  expected : ∀ testExport ∈ testLogExports value, ∀ testId moduleName,
    testExportIdentity testExport = some (testId, moduleName) →
    SortedMap.get testId (SortedMap.ofList instances) = some moduleName
  distinct : (testLogExports value).Pairwise fun a b => ∀ testId name name',
    testExportIdentity a = some (testId, name) → testExportIdentity b ≠ some (testId, name')
  present : ∀ testId moduleName,
    SortedMap.get testId (SortedMap.ofList instances) = some moduleName →
    ∃ testExport ∈ testLogExports value, ∃ name,
      testExportIdentity testExport = some (testId, name)

theorem mem_of_missingTestLogs {logs : ExpectedLogs} {seen : List String} {log : String × String}
    (h : missingTestLogs logs seen = []) (hlog : log ∈ logs) : log.1 ∈ seen := by
  have hnone := List.filter_eq_nil_iff.mp (List.map_eq_nil_iff.mp h) log hlog
  simpa using hnone

theorem accepted_of_ok {P : Primitives} {calendar : Calendar}
    {validateOpenidNormalizedResult : Json → String → String → EvidenceReport → EvidenceReport}
    {value : Json} {profileName expectedPlanName : String}
    (hraw : (value.get? "testLogExports").isSome = true ∨ (value.get? "planInfo").isSome = true)
    (h : (validateOpenidConformanceResult P calendar validateOpenidNormalizedResult value
      profileName expectedPlanName).failures = []) :
    ∃ instances, AcceptedExport value instances := by
  unfold validateOpenidConformanceResult at h
  dsimp only at h
  rw [if_pos hraw] at h
  obtain ⟨hplan, hlogs⟩ := List.append_eq_nil_iff.mp h
  obtain ⟨-, hplan⟩ := List.append_eq_nil_iff.mp hplan
  obtain ⟨instances, hinstances, hexpected⟩ := validatePlanModules_ok hplan
  rw [hexpected] at hlogs
  unfold validateTestLogExports at hlogs
  refine ⟨instances, ?_⟩
  cases hexports : (value.get? "testLogExports").bind Json.asArray? with
  | none =>
    rw [hexports] at hlogs
    exact absurd hlogs (List.cons_ne_nil _ _)
  | some testExports =>
    rw [hexports] at hlogs
    have hlist : testLogExports value = testExports := by rw [testLogExports, hexports]; rfl
    cases testExports with
    | nil => exact absurd hlogs (List.cons_ne_nil _ _)
    | cons first others =>
      dsimp only at hlogs
      cases hrun : validateTestExports P calendar (some (SortedMap.ofList instances)) 0 []
        (first :: others) with
      | mk failures seen =>
        rw [hrun] at hlogs
        obtain ⟨hnil, hmissing⟩ := List.append_eq_nil_iff.mp hlogs
        dsimp only at hnil
        subst hnil
        obtain ⟨hpassed, hexpected, hdistinct, hseen⟩ := validateTestExports_ok hrun
        rw [← hlist] at hpassed hexpected hdistinct hseen
        refine ⟨hinstances, hpassed, ?_, hdistinct, ?_⟩
        · exact fun testExport hmem testId name hid => (hexpected testExport hmem testId name hid).1
        · intro testId moduleName hget
          have hin : testId ∈ seen := mem_of_missingTestLogs hmissing (SortedMap.mem_of_get hget)
          exact ((hseen testId).mp hin).resolve_left List.not_mem_nil

namespace AcceptedExport

variable {value : Json} {instances : List (String × String)} (h : AcceptedExport value instances)

include h

theorem instance_of_module {i : ℕ} {module : Json} (hi : (planModules value)[i]? = some module) :
    ∃ testId moduleName, planModuleInstance module = some (testId, moduleName) ∧
      instances[i]? = some (testId, moduleName) := by
  have hat := congrArg (·[i]?) h.modules
  simp only [List.getElem?_map, hi, Option.map_some] at hat
  obtain ⟨⟨testId, moduleName⟩, hinstance, heq⟩ := Option.map_eq_some_iff.mp hat.symm
  exact ⟨testId, moduleName, heq.symm, hinstance⟩

theorem filterMap_eq : ((planModules value).filterMap fun module =>
    (planModuleInstance module).map Prod.fst) = instances.map Prod.fst := by
  have hmap := congrArg (List.filterMap fun o => o.map Prod.fst) h.modules
  rw [List.filterMap_map, List.filterMap_map] at hmap
  exact hmap.trans (List.filterMap_eq_map (f := Prod.fst) ▸ rfl)

/-- Two entries for one instance are the same entry. -/
theorem entry_unique {k l : ℕ} {a b : Json} {testId name name' : String}
    (hk : (testLogExports value)[k]? = some a) (hl : (testLogExports value)[l]? = some b)
    (ha : testExportIdentity a = some (testId, name))
    (hb : testExportIdentity b = some (testId, name')) : k = l := by
  obtain ⟨hklt, rfl⟩ := List.getElem?_eq_some_iff.mp hk
  obtain ⟨hllt, rfl⟩ := List.getElem?_eq_some_iff.mp hl
  have hpairwise := List.pairwise_iff_getElem.mp h.distinct
  by_contra hne
  obtain hlt | hlt := Nat.lt_or_gt_of_ne hne
  · exact hpairwise k l hklt hllt hlt testId name name' ha hb
  · exact hpairwise l k hllt hklt hlt testId name' name hb ha

theorem distinctInstances_iff : DistinctInstances value ↔ (instances.map Prod.fst).Nodup := by
  rw [DistinctInstances, h.filterMap_eq]

/-- With an entry of its own for each module no two have the same latest instance. -/
theorem distinct_of_passed (hpassed : EveryModulePassed value) : DistinctInstances value := by
  obtain ⟨entryOf, hinjective, hserved⟩ := hpassed
  rw [h.distinctInstances_iff, List.nodup_iff_getElem?_ne_getElem?]
  intro i j hij hj hsame
  rw [List.length_map] at hj
  have hlength : (planModules value).length = instances.length := by
    have hmap := congrArg List.length h.modules
    rwa [List.length_map, List.length_map] at hmap
  have hgiven : ∀ k < instances.length, ∃ testExport name, ∃ testId,
      (instances.map Prod.fst)[k]? = some testId ∧
      (testLogExports value)[entryOf k]? = some testExport ∧
      testExportIdentity testExport = some (testId, name) := by
    intro k hk
    obtain ⟨testId, moduleName, hmodule, hinstance⟩ :=
      h.instance_of_module (List.getElem?_eq_getElem (hlength ▸ hk))
    obtain ⟨testExport, hentry, hserves, -⟩ := hserved k _ (List.getElem?_eq_getElem (hlength ▸ hk))
    refine ⟨testExport, moduleName, testId, ?_, hentry,
      testExportIdentity_of_serves hmodule hserves⟩
    rw [List.getElem?_map, hinstance]
    rfl
  obtain ⟨a, nameA, testId, hida, hentrya, ha⟩ := hgiven i (by omega)
  obtain ⟨b, nameB, testId', hidb, hentryb, hb⟩ := hgiven j hj
  obtain rfl : testId = testId' := Option.some.inj (hida.symm.trans (hsame.trans hidb))
  have hentries := h.entry_unique hentrya hentryb ha hb
  have hmodules := hinjective i j (by omega) (by omega) hentries
  omega

/-- With distinct instances each module has an entry of its own. -/
theorem exists_entry (hdistinct : DistinctInstances value) {i : ℕ} {module : Json}
    (hi : (planModules value)[i]? = some module) :
    ∃ (k : ℕ) (testExport : Json), (testLogExports value)[k]? = some testExport ∧
      Serves module testExport := by
  obtain ⟨testId, moduleName, hmodule, hinstance⟩ := h.instance_of_module hi
  have hnodup := h.distinctInstances_iff.mp hdistinct
  have hget : SortedMap.get testId (SortedMap.ofList instances) = some moduleName := by
    rw [SortedMap.get_ofList hnodup, SortedMap.get_eq_some_iff_of_nodup hnodup]
    exact List.mem_of_getElem? hinstance
  obtain ⟨testExport, hmem, name, hidentity⟩ := h.present testId moduleName hget
  obtain rfl : moduleName = name :=
    Option.some.inj (hget.symm.trans (h.expected testExport hmem testId name hidentity))
  obtain ⟨k, hk⟩ := List.mem_iff_getElem?.mp hmem
  obtain ⟨hid, hname⟩ := testExportIdentity_eq_some_iff.mp hidentity
  exact ⟨k, testExport, hk, testId, moduleName, hmodule, (mem_nonBlank hid).1,
    (mem_nonBlank hname).1⟩

end AcceptedExport

/-- What `testInfo` records is what was looked at, unless something came before it. -/
theorem recordsPass_of_exportPassed {testExport «export» testInfo : Json}
    (h : ExportPassed testExport) (hexport : testExport.get? "export" = some «export»)
    (hinfo : «export».get? "testInfo" = some testInfo) (hnone : statusResultFields «export» = none)
    (hboth : statusResultFields testInfo ≠ none) : RecordsPass testInfo := by
  obtain ⟨export', status, result, hexport', houtcome, hfinished, hpassing⟩ := h
  obtain rfl := Option.some.inj (hexport.symm.trans hexport')
  obtain ⟨⟨status', result'⟩, hfields⟩ := Option.ne_none_iff_exists'.mp hboth
  have hlooked : openidStatusResult «export» = some (status', result') := by
    rw [openidStatusResult, hnone, hinfo, Option.bind_some, hfields]
    rfl
  obtain ⟨rfl, rfl⟩ := Prod.mk.inj (Option.some.inj (houtcome.symm.trans hlooked))
  unfold statusResultFields at hfields
  obtain ⟨s, hs, hfields⟩ := Option.bind_eq_some_iff.mp hfields
  obtain ⟨r, hr, hfields⟩ := Option.bind_eq_some_iff.mp hfields
  obtain ⟨rfl, rfl⟩ := Prod.mk.inj (Option.some.inj hfields)
  constructor
  · intro other hother
    rwa [Option.some.inj (hother.symm.trans hs)]
  · intro other hother
    rwa [Option.some.inj (hother.symm.trans hr)]

/-- An accepted raw export has every module passed exactly when the modules have distinct
    latest instances and no outcome in a `testInfo` is hidden. -/
theorem plan_export_exact (P : Primitives) (calendar : Calendar)
    (validateOpenidNormalizedResult : Json → String → String → EvidenceReport → EvidenceReport)
    (value : Json) (profileName expectedPlanName : String)
    (hraw : (value.get? "testLogExports").isSome = true ∨ (value.get? "planInfo").isSome = true)
    (hpass : (validateOpenidConformanceResult P calendar validateOpenidNormalizedResult value
      profileName expectedPlanName).failures = []) :
    EveryModulePassed value ↔ DistinctInstances value ∧ NothingHidden value := by
  obtain ⟨instances, haccepted⟩ := accepted_of_ok hraw hpass
  constructor
  · intro hpassed
    refine ⟨haccepted.distinct_of_passed hpassed, ?_⟩
    rintro testExport hmem ⟨module, hmodule, hserves⟩ «export» testInfo hexport hinfo -
    obtain ⟨entryOf, -, hserved⟩ := hpassed
    obtain ⟨i, hi⟩ := List.mem_iff_getElem?.mp hmodule
    obtain ⟨k, hk⟩ := List.mem_iff_getElem?.mp hmem
    obtain ⟨other, hentry, hserves', hinfoPassed⟩ := hserved i module hi
    obtain ⟨testId, moduleName, hinstance, -⟩ := haccepted.instance_of_module hi
    have hsame := haccepted.entry_unique hk hentry (testExportIdentity_of_serves hinstance hserves)
      (testExportIdentity_of_serves hinstance hserves')
    rw [← hsame, hk] at hentry
    obtain rfl := Option.some.inj hentry
    exact hinfoPassed «export» testInfo hexport hinfo
  · rintro ⟨hdistinct, hhidden⟩
    have hentries : ∀ i : ℕ, ∃ k : ℕ, ∀ module, (planModules value)[i]? = some module →
        ∃ testExport, (testLogExports value)[k]? = some testExport ∧ Serves module testExport := by
      intro i
      cases hi : (planModules value)[i]? with
      | none =>
        refine ⟨0, fun module hmodule => ?_⟩
        cases hmodule
      | some module =>
        obtain ⟨k, testExport, hk, hserves⟩ := haccepted.exists_entry hdistinct hi
        refine ⟨k, fun other hother => ⟨testExport, hk, ?_⟩⟩
        exact Option.some.inj hother ▸ hserves
    choose entryOf hentryOf using hentries
    refine ⟨entryOf, ?_, ?_⟩
    · intro i j hi hj hsame
      obtain ⟨testExport, hentry, hserves⟩ := hentryOf i _ (List.getElem?_eq_getElem hi)
      obtain ⟨other, hother, hserves'⟩ := hentryOf j _ (List.getElem?_eq_getElem hj)
      obtain ⟨testId, name, hmodule, hinstance⟩ :=
        haccepted.instance_of_module (List.getElem?_eq_getElem hi)
      obtain ⟨testId', name', hmodule', hinstance'⟩ :=
        haccepted.instance_of_module (List.getElem?_eq_getElem hj)
      rw [hsame, hother] at hentry
      obtain rfl := Option.some.inj hentry
      have hidentity := testExportIdentity_of_serves hmodule hserves
      rw [testExportIdentity_of_serves hmodule' hserves'] at hidentity
      obtain ⟨rfl, rfl⟩ := Prod.mk.inj (Option.some.inj hidentity)
      have hnodup := haccepted.distinctInstances_iff.mp hdistinct
      have hids : (instances.map Prod.fst)[i]? = (instances.map Prod.fst)[j]? := by
        rw [List.getElem?_map, List.getElem?_map, hinstance, hinstance']
      have hilt : i < (instances.map Prod.fst).length := by
        rw [List.length_map]
        exact (List.getElem?_eq_some_iff.mp hinstance).1
      exact (List.getElem?_inj hilt hnodup).mp hids
    · intro i module hi
      obtain ⟨testExport, hentry, hserves⟩ := hentryOf i module hi
      refine ⟨testExport, hentry, hserves, ?_⟩
      intro «export» testInfo hexport hinfo
      have hmem := List.mem_of_getElem? hentry
      by_cases hlooked : (statusResultFields «export»).isSome = true ∨
          statusResultFields testInfo = none
      · exact hhidden testExport hmem ⟨module, List.mem_of_getElem? hi, hserves⟩ «export» testInfo
          hexport hinfo hlooked
      · rw [not_or, Bool.not_eq_true, Option.isSome_eq_false_iff, Option.isNone_iff_eq_none]
          at hlooked
        exact recordsPass_of_exportPassed (haccepted.passed testExport hmem) hexport hinfo
          hlooked.1 hlooked.2

namespace Sample

/-- Every URL is one of the certification host, and every timestamp the epoch. -/
def suitePrimitives : Primitives :=
  { primitives with
    parseUrl := fun _ => some ⟨"https", "https://www.certification.openid.net", false,
      some "www.certification.openid.net", "", none, "/", none, none⟩ }

def suiteCalendar : Calendar where
  parseRfc3339 _ := some ⟨0, 0⟩
  formatRfc3339 _ := some "1970-01-01T00:00:00Z"
  utc _ _ _ _ _ _ := none

def planModule (name instanceId : String) : Json :=
  .object [("testModule", .string name), ("instances", .array [.string instanceId])]

/-- An entry whose export has a status and a result next to its `testInfo`. -/
def testLog (name instanceId status result infoResult : String) : Json :=
  .object [("testId", .string instanceId), ("testModuleName", .string name),
    ("export", .object [("exportedAt", .string "1970-01-01T00:00:00Z"),
      ("exportedFrom", .string "https://www.certification.openid.net/"),
      ("status", .string status), ("result", .string result),
      ("testInfo", .object [("status", .string "FINISHED"), ("result", .string infoResult)])])]

def planExport (modules testLogs : List Json) : Json :=
  .object [("exportedAt", .string "1970-01-01T00:00:00Z"),
    ("exportedFrom", .string "https://www.certification.openid.net/"),
    ("planInfo", .object [("planName", .string "oidcc-config-certification-test-plan"),
      ("modules", .array modules)]), ("testLogExports", .array testLogs)]

def openidResult (value : Json) : EvidenceReport :=
  validateOpenidConformanceResult suitePrimitives suiteCalendar (fun _ _ _ report => report) value
    "Config OP" "oidcc-config-certification-test-plan"

end Sample

open Sample

theorem plan_export_exact_discovery :
    let value := planExport [planModule "discovery" "x"]
      [testLog "discovery" "x" "FINISHED" "PASSED" "PASSED"]
    EveryModulePassed value ↔ DistinctInstances value ∧ NothingHidden value :=
  plan_export_exact suitePrimitives suiteCalendar (fun _ _ _ report => report) _ "Config OP"
    "oidcc-config-certification-test-plan" (by decide) (by decide)

/-- Two modules with one log are accepted, and so is a log whose `testInfo` says that the
    test failed. -/
theorem unpassed_exports_accepted :
    ((openidResult (planExport [planModule "discovery" "x", planModule "keys" "x"]
      [testLog "keys" "x" "FINISHED" "PASSED" "PASSED"])).failures = [] ∧
      ¬EveryModulePassed (planExport [planModule "discovery" "x", planModule "keys" "x"]
        [testLog "keys" "x" "FINISHED" "PASSED" "PASSED"])) ∧
    (openidResult (planExport [planModule "discovery" "x"]
      [testLog "discovery" "x" "FINISHED" "PASSED" "FAILED"])).failures = [] ∧
      ¬EveryModulePassed (planExport [planModule "discovery" "x"]
        [testLog "discovery" "x" "FINISHED" "PASSED" "FAILED"]) := by
  have hshared : (openidResult (planExport [planModule "discovery" "x", planModule "keys" "x"]
      [testLog "keys" "x" "FINISHED" "PASSED" "PASSED"])).failures = [] := by decide
  refine ⟨⟨hshared, ?_⟩, by decide, ?_⟩
  · intro hpassed
    obtain ⟨instances, haccepted⟩ := accepted_of_ok (by decide) hshared
    have hdistinct := haccepted.distinct_of_passed hpassed
    unfold DistinctInstances at hdistinct
    exact absurd hdistinct (by decide)
  · rintro ⟨entryOf, -, hserved⟩
    obtain ⟨testExport, hentry, -, hinfo⟩ := hserved 0 _ rfl
    obtain rfl : testExport = testLog "discovery" "x" "FINISHED" "PASSED" "FAILED" :=
      List.mem_singleton.mp (List.mem_of_getElem? hentry)
    have hpassing := (hinfo _ _ rfl rfl).2 "FAILED" rfl
    unfold IsPassing at hpassing
    exact absurd hpassing (by decide)

end CairnId
