import CairnId.Evidence.Timestamp
import CairnId.Maps.SortedMap
import Mathlib.Data.String.Basic

/-!
# Conformance results

`operations_evidence/oidc/conformance.rs` with `common.rs`, `plan_export.rs` and
`redaction.rs`, and the helpers of `validation/` they use. A function that pushes to
`failures` gives what it pushes.

## Main definitions

- `validateOpenidPlanExport` — a raw plan export
- `validateOpenidConformanceResult`
-/

namespace CairnId

namespace Json

def asArray? : Json → Option (List Json)
  | .array values => some values
  | _ => none

def asBool? : Json → Option Bool
  | .bool b => some b
  | _ => none

end Json

-- validation

def valueAtPath (value : Json) : List String → Option Json
  | [] => some value
  | segment :: path => (value.get? segment).bind fun current => valueAtPath current path

def rejectNonEmptyArray (value : Json) (field : String) : List String :=
  if ((value.get? field).bind Json.asArray?).any fun values => !values.isEmpty then
    [field ++ " must be empty or absent"]
  else []

def rejectTrueBool (value : Json) (field : String) : List String :=
  if ((value.get? field).bind Json.asBool?).any id then [field ++ " must be false or absent"]
  else []

def requireNonEmptyStringAtPathDynamic (value : Json) (start : String) (path : List String) :
    List String :=
  match (valueAtPath value path).bind Json.asStr? with
  | some text =>
    if text.isEmpty then [start ++ "." ++ ".".intercalate path ++ " must not be empty"] else []
  | none => [start ++ "." ++ ".".intercalate path ++ " must be a non-empty string"]

def requireOpenidExportTimestampAtPath (calendar : Calendar) (value : Json) (path : List String)
    (label : String) : List String :=
  match (valueAtPath value path).bind Json.asStr? with
  | none => [label ++ " must be an OpenID suite export timestamp"]
  | some timestamp =>
    if (parseReleaseEvidenceTimestamp calendar timestamp).isSome then []
    else [label ++ " must be an OpenID suite export timestamp"]

-- redaction

def forbiddenOpenidResultFields : List String :=
  ["authorization", "authorizationheader", "bearertoken", "clientsecret", "cookie", "idtoken",
    "password", "privatekey", "requestheader", "requestheaders", "secret", "sessioncookie",
    "token"]

/-- A field's name without what is neither letter nor digit, in lower case. -/
def normalizedFieldKey (key : String) : String :=
  String.ofList ((key.toList.filter isAsciiAlphanumeric).map toAsciiLowercase)

mutual

def rejectForbiddenOpenidResultFields (path : String) : Json → List String
  | .object members => rejectForbiddenMembers path members
  | .array values => rejectForbiddenValues path 0 values
  | _ => []

def rejectForbiddenMembers (path : String) : List (String × Json) → List String
  | [] => []
  | (key, child) :: members =>
    let childPath := path ++ "." ++ key
    (if forbiddenOpenidResultFields.contains (normalizedFieldKey key) then
      [childPath ++ " must not be present in token-free OpenID result evidence"] else []) ++
      rejectForbiddenOpenidResultFields childPath child ++ rejectForbiddenMembers path members

def rejectForbiddenValues (path : String) (index : Nat) : List Json → List String
  | [] => []
  | child :: values =>
    rejectForbiddenOpenidResultFields (path ++ "[" ++ toString index ++ "]") child ++
      rejectForbiddenValues path (index + 1) values

end

-- common

def openidCertificationHost : String := "www.certification.openid.net"

def openidPlanName (value : Json) : Option String :=
  ((value.get? "plan_name").or <| (value.get? "planName").or <| (value.get? "test_plan").or <|
    (value.get? "testPlan").or <| (valueAtPath value ["plan", "name"]).or <|
    (valueAtPath value ["plan", "planName"]).or <| (valueAtPath value ["planInfo", "planName"]).or
      (valueAtPath value ["planInfo", "plan_name"])).bind Json.asStr?

def requireOpenidPlanName (value : Json) (expectedPlanName : String) : List String :=
  match openidPlanName value with
  | some actual =>
    if actual = expectedPlanName then []
    else ["plan name must be " ++ expectedPlanName ++ ", got " ++ actual]
  | none => ["plan name must be " ++ expectedPlanName]

def statusResultFields (value : Json) : Option (String × String) := do
  let status ← value.text? "status"
  let result ← value.text? "result"
  return (status, result)

def openidStatusResult (value : Json) : Option (String × String) :=
  (statusResultFields value).or <| ((value.get? "testInfo").bind statusResultFields).or <|
    ((valueAtPath value ["testInfo", "testInfo"]).bind statusResultFields).or <|
    ((value.get? "export").bind statusResultFields).or <|
    ((valueAtPath value ["export", "testInfo"]).bind statusResultFields).or
      ((valueAtPath value ["export", "testInfo", "testInfo"]).bind statusResultFields)

def validateOpenidFinishedStatusResult (value : Json) (path : String) : List String :=
  match openidStatusResult value with
  | none => [path ++ ".status and " ++ path ++ ".result must be present"]
  | some (status, result) =>
    (if eqIgnoreAsciiCase status "FINISHED" then []
      else [path ++ ".status must be FINISHED, got " ++ status]) ++
    (if eqIgnoreAsciiCase result "PASSED" || eqIgnoreAsciiCase result "WARNING" then []
      else [path ++ ".result must be PASSED or WARNING, got " ++ result])

section validation

variable (P : Primitives) (calendar : Calendar)

def requireOpenidCertificationUrl (label value : String) : List String :=
  match P.parseUrl value with
  | some url =>
    if url.scheme = "https" ∧ url.host = some openidCertificationHost ∧ url.username = "" ∧
        url.password = none then []
    else [label ++ " must be an HTTPS URL on " ++ openidCertificationHost ++ " without credentials"]
  | none => [label ++ " must be a valid OpenID certification URL"]

def requireOpenidCertificationUrlAtPath (value : Json) (path : List String) (label : String) :
    List String :=
  match (valueAtPath value path).bind Json.asStr? with
  | none => [label ++ " must be an OpenID certification HTTPS URL"]
  | some url => requireOpenidCertificationUrl P label url

-- plan_export

def nonBlank (text : Option String) : Option String := text.filter fun text => !isBlank text

/-- The latest instance of a module, with the module's name. -/
def planModuleInstance (module : Json) : Option (String × String) :=
  let moduleName :=
    nonBlank (((module.get? "testModule").or (module.get? "testModuleName")).bind Json.asStr?)
  match moduleName, (module.get? "instances").bind Json.asArray? with
  | some moduleName, some instances =>
    if instances.isEmpty then none
    else (nonBlank (instances.reverse.findSome? Json.asStr?)).map fun latestInstance =>
      (latestInstance, moduleName)
  | _, _ => none

abbrev ExpectedLogs := List (String × String)

/-- The loop over the modules. -/
def collectPlanModules (index : Nat) (expectedLogs : ExpectedLogs) :
    List Json → List String × ExpectedLogs
  | [] => ([], expectedLogs)
  | module :: modules => match planModuleInstance module with
    | some (latestInstance, moduleName) =>
      collectPlanModules (index + 1) (SortedMap.insert latestInstance moduleName expectedLogs)
        modules
    | none =>
      let (failures, expectedLogs) := collectPlanModules (index + 1) expectedLogs modules
      (("planInfo.modules[" ++ toString index ++
        "].instances must include a completed test instance") :: failures, expectedLogs)

structure PlanModules where
  checks : List String
  failures : List String
  expectedLogs : Option ExpectedLogs

def validatePlanModules (value : Json) : PlanModules :=
  match (valueAtPath value ["planInfo", "modules"]).bind Json.asArray? with
  | none | some [] => ⟨[], ["planInfo.modules must be a non-empty array"], none⟩
  | some modules =>
    let (failures, expectedLogs) := collectPlanModules 0 [] modules
    if expectedLogs.isEmpty then
      ⟨[], failures ++ ["planInfo.modules must include completed module instances"], none⟩
    else
      ⟨["OpenID conformance plan lists completed module instances"], failures, some expectedLogs⟩

/-- What the entry says it is a log of. -/
def testExportIdentity (testExport : Json) : Option (String × String) := do
  let testId ← nonBlank (testExport.text? "testId")
  let moduleName ← nonBlank (testExport.text? "testModuleName")
  return (testId, moduleName)

/-- The entry against the expected instances, with the instances seen so far. -/
def matchTestExport (path : String) (expectedLogs : Option ExpectedLogs) (seenLogs : List String)
    (testExport : Json) : List String × List String :=
  match expectedLogs, testExportIdentity testExport with
  | some expectedLogs, some (testId, moduleName) =>
    match SortedMap.get testId expectedLogs with
    | some expectedModule =>
      if expectedModule = moduleName then
        if seenLogs.contains testId then
          ([path ++ ".testId duplicates module instance " ++ testId], seenLogs)
        else ([], testId :: seenLogs)
      else ([path ++ ".testModuleName must be " ++ expectedModule ++ " for module instance " ++
        testId ++ ", got " ++ moduleName], seenLogs)
    | none => ([path ++ ".testId must match a planInfo.modules instance, got " ++ testId], seenLogs)
  | _, _ => ([], seenLogs)

def validateExport (path : String) (testExport : Json) : List String :=
  match testExport.get? "export" with
  | none => [path ++ ".export must be present"]
  | some «export» =>
    requireOpenidExportTimestampAtPath calendar «export» ["exportedAt"]
        (path ++ ".export.exportedAt") ++
      requireOpenidCertificationUrlAtPath P «export» ["exportedFrom"]
        (path ++ ".export.exportedFrom") ++
      validateOpenidFinishedStatusResult «export» (path ++ ".export")

def validateTestExport (index : Nat) (testExport : Json) (expectedLogs : Option ExpectedLogs)
    (seenLogs : List String) : List String × List String :=
  let path := "testLogExports[" ++ toString index ++ "]"
  let (failures, seenLogs) := matchTestExport path expectedLogs seenLogs testExport
  (requireNonEmptyStringAtPathDynamic testExport path ["testId"] ++
    requireNonEmptyStringAtPathDynamic testExport path ["testModuleName"] ++ failures ++
    validateExport P calendar path testExport, seenLogs)

def validateTestExports (expectedLogs : Option ExpectedLogs) (index : Nat)
    (seenLogs : List String) : List Json → List String × List String
  | [] => ([], seenLogs)
  | testExport :: testExports =>
    let (failures, seenLogs) := validateTestExport P calendar index testExport expectedLogs seenLogs
    let (others, seenLogs) := validateTestExports expectedLogs (index + 1) seenLogs testExports
    (failures ++ others, seenLogs)

def missingTestLogs (expectedLogs : ExpectedLogs) (seenLogs : List String) : List String :=
  (expectedLogs.filter fun log => !seenLogs.contains log.1).map fun log =>
    "testLogExports must include module " ++ log.2 ++ " instance " ++ log.1

def validateTestLogExports (value : Json) (expectedLogs : Option ExpectedLogs) : List String :=
  match (value.get? "testLogExports").bind Json.asArray? with
  | none | some [] => ["testLogExports must be a non-empty array"]
  | some testExports =>
    let (failures, seenLogs) := validateTestExports P calendar expectedLogs 0 [] testExports
    failures ++ (expectedLogs.map fun logs => missingTestLogs logs seenLogs).getD []

structure EvidenceReport where
  checks : List String
  failures : List String

def validateOpenidPlanExport (value : Json) (profileName expectedPlanName : String)
    (report : EvidenceReport) : EvidenceReport :=
  let exportedAt := requireOpenidExportTimestampAtPath calendar value ["exportedAt"] "exportedAt"
  let plan := validatePlanModules value
  let failures := report.failures ++ requireOpenidPlanName value expectedPlanName ++ exportedAt ++
    requireOpenidCertificationUrlAtPath P value ["exportedFrom"] "exportedFrom" ++ plan.failures ++
    validateTestLogExports P calendar value plan.expectedLogs
  let checks := report.checks ++
    (if exportedAt.isEmpty then ["OpenID conformance plan export timestamp is valid"] else []) ++
    plan.checks
  ⟨if failures.isEmpty then
    checks ++ [profileName ++ " OpenID conformance plan export passed"] else checks, failures⟩

/-- A result that is not a raw export goes to `validate_openid_normalized_result`, which is
    a parameter. -/
def validateOpenidConformanceResult
    (validateOpenidNormalizedResult : Json → String → String → EvidenceReport → EvidenceReport)
    (value : Json) (profileName expectedPlanName : String) : EvidenceReport :=
  let report : EvidenceReport := ⟨[], rejectNonEmptyArray value "failures" ++
    rejectNonEmptyArray value "errors" ++ rejectTrueBool value "failed" ++
    rejectForbiddenOpenidResultFields "$" value⟩
  if (value.get? "testLogExports").isSome ∨ (value.get? "planInfo").isSome then
    validateOpenidPlanExport P calendar value profileName expectedPlanName report
  else validateOpenidNormalizedResult value profileName expectedPlanName report

end validation

end CairnId
