import CairnId.Evidence.Conformance
import Mathlib.Data.List.Sort

/-!
# The export normalizer

`operations_evidence/oidc/conformance/export_normalizer.rs`: an export of the conformance
suite, unpacked in a directory or zipped, becomes one result. A message leaves out what a
library says of its own error.

## Main definitions

- `FileTree` — the files of a directory
- `OidfExportPackage.readDir`, `OidfExportPackage.readZip`
- `normalizeOpenidConformanceExport`
-/

namespace CairnId

/-- `Option::ok_or_else`. -/
def okOrElse {α : Type} (message : String) : Option α → Except String α
  | some a => .ok a
  | none => .error message

-- the file system and the archive

def IsFileName (name : String) : Prop := name ≠ "" ∧ name ≠ "." ∧ name ≠ ".." ∧ '/' ∉ name.toList

instance (name : String) : Decidable (IsFileName name) :=
  inferInstanceAs (Decidable (_ ∧ _ ∧ _ ∧ _))

structure TreeFile where
  path : List String
  value : Json

/-- The JSON files of a directory, by their paths from it. A file is no directory of
    another one. -/
structure FileTree where
  files : List TreeFile
  distinct : (files.map TreeFile.path).Nodup
  rooted : ∀ file ∈ files, file.path ≠ []
  named : ∀ file ∈ files, ∀ name ∈ file.path, IsFileName name
  leaves : ∀ file ∈ files, ∀ other ∈ files, file.path <+: other.path → file.path = other.path

namespace FileTree

/-- The contents of the file at a path. -/
def read? (tree : FileTree) (path : List String) : Option Json :=
  (tree.files.find? fun file => file.path = path).map TreeFile.value

def isFile (tree : FileTree) (path : List String) : Bool := (tree.read? path).isSome

def isDir (tree : FileTree) (path : List String) : Bool :=
  tree.files.any fun file => path.isPrefixOf file.path && path ≠ file.path

end FileTree

/-- A member as the library yields it. -/
structure ZipMember where
  name : String
  /-- What it holds, unless that is not JSON. -/
  contents : Option Json

/-- `is_dir` of the library: by the last character of the name. -/
def ZipMember.isDir (member : ZipMember) : Bool :=
  member.name.toList.getLast?.any fun c => c = '/' || c = '\\'

-- reading a package

inductive OidfExportSourceFormat where
  | directory
  | zip

def OidfExportSourceFormat.asStr : OidfExportSourceFormat → String
  | .directory => "directory"
  | .zip => "zip"

structure NamedJson where
  name : String
  value : Json

structure OidfExportPackage where
  sourceFormat : OidfExportSourceFormat
  indexJson : Json
  testLogs : List NamedJson

def testLogPrefix : String := "test-logs/test-log-"

def testLogSuffix : String := ".json"

/-- `Path::join`. -/
def joinPath (path : String) (name : String) : String :=
  if path.isEmpty || endsWithChars path.toList "/" then path ++ name else path ++ "/" ++ name

/-- The components that are a name. -/
def normalizeZipEntryName (name : String) : String :=
  "/".intercalate ((splitAt '/' name).filter fun part => part ≠ "" && part ≠ "." && part ≠ "..")

/-- What is at the path, when it is a file: a directory opens, but cannot be read. -/
def readJsonFile (root : String) (tree : FileTree) (path : List String) : Except String Json :=
  okOrElse ("failed to read " ++ path.foldl joinPath root) (tree.read? path)

def readJsonFromReader (member : ZipMember) (name : String) : Except String Json :=
  okOrElse ("malformed JSON in " ++ name) member.contents

/-- The loop over the entries of `test-logs`. -/
def readTestLogs (root : String) (tree : FileTree) : List String → Except String (List NamedJson)
  | [] => .ok []
  | fileName :: entries =>
    if "test-log-".toList.isPrefixOf fileName.toList &&
        endsWithChars fileName.toList testLogSuffix then do
      let value ← readJsonFile root tree ["test-logs", fileName]
      let testLogs ← readTestLogs root tree entries
      return ⟨"test-logs/" ++ fileName, value⟩ :: testLogs
    else readTestLogs root tree entries

/-- What the loop over the members has found. -/
structure ZipContents where
  indexJson : Option Json
  testLogs : List NamedJson

def readZipMember (contents : ZipContents) (member : ZipMember) : Except String ZipContents :=
  if member.isDir then .ok contents
  else
    let name := normalizeZipEntryName member.name
    if name = "test-logs/index.json" ∨ name = "index.json" then do
      let value ← readJsonFromReader member name
      return { contents with indexJson := some value }
    else if testLogPrefix.toList.isPrefixOf name.toList &&
        endsWithChars name.toList testLogSuffix then do
      let value ← readJsonFromReader member name
      return { contents with testLogs := contents.testLogs ++ [⟨name, value⟩] }
    else .ok contents

namespace OidfExportPackage

/-- With the entries of `test-logs` in the order they are listed in. -/
def readDir (root : String) (tree : FileTree) (entries : List String) :
    Except String OidfExportPackage := do
  let indexPath ← okOrElse "OIDF export directory must contain index.json" <|
    if tree.isFile ["test-logs", "index.json"] then some ["test-logs", "index.json"]
    else if tree.isFile ["index.json"] then some ["index.json"] else none
  let indexJson ← readJsonFile root tree indexPath
  if !tree.isDir ["test-logs"] then throw "OIDF export directory must contain test-logs"
  let testLogs ← readTestLogs root tree entries
  if testLogs.isEmpty then throw "OIDF export must contain test-logs/test-log-*.json"
  return ⟨.directory, indexJson, testLogs⟩

def readZip (members : List ZipMember) : Except String OidfExportPackage := do
  let contents ← members.foldlM readZipMember ⟨none, []⟩
  let indexJson ← okOrElse "OIDF ZIP export must contain index.json" contents.indexJson
  if contents.testLogs.isEmpty then
    throw "OIDF ZIP export must contain test-logs/test-log-*.json"
  return ⟨.zip, indexJson, contents.testLogs⟩

end OidfExportPackage

/-- What is at the path of the export: a directory, with the path as it is displayed and the
    entries of its `test-logs`, or the members of an archive. -/
inductive ExportPath where
  | directory (root : String) (tree : FileTree) (entries : List String)
  | archive (members : List ZipMember)

def OidfExportPackage.read : ExportPath → Except String OidfExportPackage
  | .directory root tree entries => OidfExportPackage.readDir root tree entries
  | .archive members => OidfExportPackage.readZip members

-- profiles, fields and the plan

structure ExportProfile where
  certificationProfile : String
  planName : String

def exportProfile (profile : String) : Except String ExportProfile :=
  match asciiLowercase (trim profile) with
  | "config-op" | "config" | "configuration" | "oidcc-config-certification-test-plan" =>
    .ok ⟨"Config OP", "oidcc-config-certification-test-plan"⟩
  | "basic-op" | "basic" | "oidcc-basic-certification-test-plan" =>
    .ok ⟨"Basic OP", "oidcc-basic-certification-test-plan"⟩
  | _ => .error "OpenID conformance export profile must be config-op or basic-op"

def stringField (value : Json) (keys : List String) (label : String) : Except String String :=
  okOrElse (label ++ " must be present")
    (((keys.findSome? value.text?).map trim).filter fun text => !text.isEmpty)

structure OidfPlanModule where
  testModule : String
  instances : List String

structure OidfPlanIndex where
  planName : String
  modules : List OidfPlanModule

def parsePlanModules (index : Nat) : List Json → Except String (List OidfPlanModule)
  | [] => .ok []
  | module :: modules => do
    let testModule ← stringField module ["testModule", "test_module", "testModuleName"]
      ("modules[" ++ toString index ++ "].testModule")
    let instances ← okOrElse ("modules[" ++ toString index ++ "].instances must be an array")
      ((module.get? "instances").bind Json.asArray?)
    let others ← parsePlanModules (index + 1) modules
    return ⟨testModule, (instances.filterMap Json.asStr?).filter fun text => !isBlank text⟩ ::
      others

def parsePlanIndex (value : Json) : Except String OidfPlanIndex := do
  let planValue := (value.get? "planInfo").getD value
  let planName ← stringField planValue ["planName", "plan_name", "name"] "plan name"
  let modules ← okOrElse "OIDF export index.json must contain modules"
    ((planValue.get? "modules").bind Json.asArray?)
  let modules ← parsePlanModules 0 modules
  return ⟨planName, modules⟩

/-- The instance that counts: each module has one, once that is checked. -/
def OidfPlanModule.lastInstance (module : OidfPlanModule) : String := module.instances.getLastD ""

def requireInstances : List OidfPlanModule → Except String Unit
  | [] => .ok ()
  | module :: modules =>
    if module.instances.isEmpty then
      .error ("OIDF export module " ++ module.testModule ++ " must include at least one instance")
    else requireInstances modules

/-- The checks of the plan against the profile. -/
def requirePlan (profile : ExportProfile) (plan : OidfPlanIndex) : Except String Unit :=
  if plan.planName ≠ profile.planName then
    .error ("OIDF export plan name must be " ++ profile.planName ++ ", got " ++ plan.planName)
  else if plan.modules.isEmpty then .error "OIDF export planInfo.modules must be non-empty"
  else requireInstances plan.modules

def expectedInstances (plan : OidfPlanIndex) : List (String × String) :=
  SortedMap.ofList (plan.modules.map fun module => (module.lastInstance, module.testModule))

-- test logs

def forbiddenLogFieldKeys : List String :=
  ["authorization", "authorizationheader", "bearertoken", "clientsecret", "cookie", "idtoken",
    "password", "privatekey", "requestheader", "requestheaders", "secret", "sessioncookie",
    "token"]

def childPath (parent key : String) : String :=
  if parent = "$" then "$." ++ key else parent ++ "." ++ key

def looksLikeCompactJwt (value : String) : Bool :=
  let parts := splitAt '.' value
  parts.length = 3 && parts.all (fun part => 16 ≤ part.utf8ByteSize) &&
    value.toList.all fun c => isAsciiAlphanumeric c || c = '-' || c = '_' || c = '.'

def looksLikeRawCredential (value : String) : Bool :=
  let trimmed := trim value
  let lower := (asciiLowercase trimmed).toList
  "bearer ".toList.isPrefixOf lower || "basic ".toList.isPrefixOf lower ||
    containsChars "authorization: bearer " lower || containsChars "client_secret=" lower ||
    containsChars "password=" lower || containsChars "refresh_token=" lower ||
    containsChars "access_token=" lower || looksLikeCompactJwt trimmed

mutual

def rejectForbiddenLogFields (path : String) : Json → Except String Unit
  | .object members => rejectForbiddenLogMembers path members
  | .array values => rejectForbiddenLogValues path 0 values
  | .string text =>
    if looksLikeRawCredential text then
      .error ("OIDF export test log contains forbidden credential-shaped value at " ++ path)
    else .ok ()
  | .null | .bool _ | .number _ => .ok ()

def rejectForbiddenLogMembers (path : String) : List (String × Json) → Except String Unit
  | [] => .ok ()
  | (key, child) :: members => do
    let childPath := childPath path key
    if forbiddenLogFieldKeys.contains (normalizedFieldKey key) then
      throw ("OIDF export test log contains forbidden secret-bearing field at " ++ childPath)
    rejectForbiddenLogFields childPath child
    rejectForbiddenLogMembers path members

def rejectForbiddenLogValues (path : String) (index : Nat) : List Json → Except String Unit
  | [] => .ok ()
  | child :: values => do
    rejectForbiddenLogFields (path ++ "[" ++ toString index ++ "]") child
    rejectForbiddenLogValues path (index + 1) values

end

structure OidfTestLog where
  testId : String
  testModuleName : String
  status : String
  result : String
  exportedAt : Moment
  exportedFrom : String
  suiteVersion : String

def requireConsistentExportField (seen : Option String) (value label : String) :
    Except String (Option String) :=
  match seen with
  | some existing =>
    if existing ≠ value then
      .error ("OIDF export " ++ label ++ " must be consistent across test logs")
    else .ok (some existing)
  | none => .ok (some value)

/-- A record of the provenance, as the tuple of texts it is. -/
structure ProvenanceLogRecord where
  testModuleName : String
  testId : String
  status : String
  result : String
  exportedAt : String
  exportedFrom : String
  suiteVersion : String

/-- Tuples are compared field by field. -/
def ProvenanceLogRecord.fields (record : ProvenanceLogRecord) : List String :=
  [record.testModuleName, record.testId, record.status, record.result, record.exportedAt,
    record.exportedFrom, record.suiteVersion]

/-- The variables of the loop over the test logs. -/
structure ExportState where
  matchedInstances : List String
  sawWarning : Bool
  completedAt : Option Moment
  exportedFrom : Option String
  suiteVersion : Option String
  provenanceLogs : List ProvenanceLogRecord

section normalizer

variable (P : Primitives) (calendar : Calendar) (sha256Json : Json → String)

def validateSuiteOrigin (label value : String) : Except String Unit :=
  match P.parseUrl value with
  | none => .error (label ++ " must be a valid URL")
  | some url =>
    if url.scheme = "https" ∧ url.host = some "www.certification.openid.net" ∧
        url.username = "" ∧ url.password = none then .ok ()
    else .error (label ++
      " must be an HTTPS URL on www.certification.openid.net without credentials")

def suiteTimestamp (value : String) : Except String Moment :=
  okOrElse "OIDF export timestamp must be RFC3339 or OpenID suite format"
    (parseReleaseEvidenceTimestamp calendar value)

def parseTestLog (name : String) (value : Json) : Except String OidfTestLog := do
  let exportedFrom ← stringField value ["exportedFrom"] "exportedFrom"
  validateSuiteOrigin P "exportedFrom" exportedFrom
  let exportedAt ← stringField value ["exportedAt"] "exportedAt"
  let exportedAt ← suiteTimestamp calendar exportedAt
  let suiteVersion ← stringField value ["exportedVersion"] "exportedVersion"
  let testInfo ← okOrElse (name ++ " must contain testInfo")
    ((value.get? "testInfo").map fun testInfo => (testInfo.get? "testInfo").getD testInfo)
  let testId ← stringField testInfo ["testId", "id"] "testInfo.testId"
  let testModuleName ← stringField testInfo ["testName", "testModuleName"] "testInfo.testName"
  let status ← stringField testInfo ["status"] "testInfo.status"
  let result ← stringField testInfo ["result"] "testInfo.result"
  if !eqIgnoreAsciiCase status "FINISHED" then
    throw ("OIDF export test " ++ testId ++ " status must be FINISHED, got " ++ status)
  if !(eqIgnoreAsciiCase result "PASSED" || eqIgnoreAsciiCase result "WARNING") then
    throw ("OIDF export test " ++ testId ++ " result must be PASSED or WARNING, got " ++ result)
  return ⟨testId, testModuleName, asciiUppercase status, asciiUppercase result, exportedAt,
    exportedFrom, suiteVersion⟩

/-- The body of the loop over the test logs. -/
def addTestLog (expectedInstances : List (String × String)) (state : ExportState)
    (log : NamedJson) : Except String ExportState := do
  rejectForbiddenLogFields "$" log.value
  let «export» ← parseTestLog P calendar log.name log.value
  let exportedFrom ← requireConsistentExportField state.exportedFrom «export».exportedFrom
    "exportedFrom"
  let suiteVersion ← requireConsistentExportField state.suiteVersion «export».suiteVersion
    "exportedVersion"
  let expectedModule ← okOrElse
    ("OIDF export test log " ++ «export».testId ++ " does not match any plan module instance")
    (SortedMap.get «export».testId expectedInstances)
  if expectedModule ≠ «export».testModuleName then
    throw ("OIDF export test log " ++ «export».testId ++ " module must be " ++ expectedModule ++
      ", got " ++ «export».testModuleName)
  if state.matchedInstances.contains «export».testId then
    throw ("OIDF export has duplicate test log for " ++ «export».testId)
  let exportedAt ← okOrElse "failed to format exportedAt"
    (calendar.formatRfc3339 «export».exportedAt)
  return {
    matchedInstances := «export».testId :: state.matchedInstances
    sawWarning := state.sawWarning || eqIgnoreAsciiCase «export».result "WARNING"
    -- times are compared by the instant, whatever offset they are written with
    completedAt := match state.completedAt with
      | some current =>
        if «export».exportedAt.instant ≤ current.instant then some current
        else some «export».exportedAt
      | none => some «export».exportedAt
    exportedFrom := exportedFrom
    suiteVersion := suiteVersion
    provenanceLogs := state.provenanceLogs ++ [⟨«export».testModuleName, «export».testId,
      «export».status, «export».result, exportedAt, «export».exportedFrom,
      «export».suiteVersion⟩] }

def requireMatchedInstances (matchedInstances : List String) :
    List (String × String) → Except String Unit
  | [] => .ok ()
  | (testId, moduleName) :: expectedInstances =>
    if matchedInstances.contains testId then
      requireMatchedInstances matchedInstances expectedInstances
    else .error ("OIDF export is missing test log for module " ++ moduleName ++ " instance " ++
      testId)

/-- The module names and their last instances, sorted as pairs are. -/
def selectedInstances (plan : OidfPlanIndex) : List (String × String) :=
  (plan.modules.map fun module => (module.testModule, module.lastInstance)).insertionSort
    fun a b => [a.1, a.2] ≤ [b.1, b.2]

def selectedInstanceValues (plan : OidfPlanIndex) : List Json :=
  (selectedInstances plan).map fun selected =>
    .object [("module_name", .string selected.1), ("test_id", .string selected.2)]

def oidfExportProvenance (sourceFormat : OidfExportSourceFormat) (plan : OidfPlanIndex)
    (exportedFrom suiteVersion : String) (provenanceLogs : List ProvenanceLogRecord) : Json :=
  let moduleNames := (plan.modules.map OidfPlanModule.testModule).insertionSort (· ≤ ·)
  let planModulesDigestInput := Json.object [("plan_name", .string plan.planName),
    ("selected_instances", .array (selectedInstanceValues plan))]
  let sortedLogs := (provenanceLogs.map ProvenanceLogRecord.fields).insertionSort (· ≤ ·)
  .object [
    ("schema", .string "cairnid.oidf-export-provenance.v1"),
    ("normalizer", .string "cairn-api conformance oidcc-normalize-export"),
    ("source_format", .string sourceFormat.asStr),
    ("exported_from", .string exportedFrom),
    ("suite_version", .string suiteVersion),
    ("plan_module_count", .number plan.modules.length),
    ("test_log_count", .number sortedLogs.length),
    ("module_names", .array (moduleNames.map .string)),
    ("selected_instances", .array (selectedInstanceValues plan)),
    ("plan_modules_sha256", .string (sha256Json planModulesDigestInput)),
    ("test_logs_sha256", .string (sha256Json
      (.object [("logs", .array (sortedLogs.map fun fields => .array (fields.map .string)))])))]

def conformanceJson (profile : ExportProfile) (publishedResultUrl : String)
    (sourceFormat : OidfExportSourceFormat) (plan : OidfPlanIndex) (sawWarning : Bool)
    (completedAt exportedFrom suiteVersion : String)
    (provenanceLogs : List ProvenanceLogRecord) : Json :=
  .object [
    ("source", .string "openid-conformance-suite"),
    ("certification_profile", .string profile.certificationProfile),
    ("plan_name", .string profile.planName),
    ("status", .string "FINISHED"),
    ("result", .string (if sawWarning then "WARNING" else "PASSED")),
    ("completed_at", .string completedAt),
    ("published_result_url", .string publishedResultUrl),
    ("oidf_export_provenance", oidfExportProvenance sha256Json sourceFormat plan exportedFrom
      suiteVersion provenanceLogs)]

/-- What follows the loop over the test logs. -/
def conformanceResult (profile : ExportProfile) (publishedResultUrl : String)
    (sourceFormat : OidfExportSourceFormat) (plan : OidfPlanIndex) (state : ExportState) :
    Except String Json := do
  requireMatchedInstances state.matchedInstances (expectedInstances plan)
  let completedAt ← okOrElse "OIDF export must include at least one matching test log"
    state.completedAt
  let exportedFrom ← okOrElse "OIDF export must include exportedFrom" state.exportedFrom
  let suiteVersion ← okOrElse "OIDF export must include exportedVersion" state.suiteVersion
  let completedAt ← okOrElse "failed to format completed_at" (calendar.formatRfc3339 completedAt)
  return conformanceJson sha256Json profile publishedResultUrl sourceFormat plan state.sawWarning
    completedAt exportedFrom suiteVersion state.provenanceLogs

def normalizeOpenidConformanceExport (profile : String) (exportPath : ExportPath)
    (publishedResultUrl : String) : Except String Json := do
  let profile ← exportProfile profile
  validateSuiteOrigin P "published_result_url" publishedResultUrl
  let package ← OidfExportPackage.read exportPath
  let plan ← parsePlanIndex package.indexJson
  requirePlan profile plan
  let state ← package.testLogs.foldlM (addTestLog P calendar (expectedInstances plan))
    ⟨[], false, none, none, none, []⟩
  conformanceResult calendar sha256Json profile publishedResultUrl package.sourceFormat plan state

end normalizer

end CairnId
