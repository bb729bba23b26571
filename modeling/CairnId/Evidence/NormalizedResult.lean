import CairnId.Evidence.Conformance

/-!
# Normalized conformance results

`operations_evidence/oidc/conformance/normalized.rs`, and `require_rfc3339_timestamp` of
`validation/timestamps.rs`. A function that pushes to `checks` and to `failures` gives what
it pushes.

## Main definitions

- `collectModuleNames`, `collectSelectedInstances` — the loops over the provenance
- `validateOidfExportProvenance`
- `validateOpenidNormalizedResult`
-/

namespace CairnId

/-- `Value::as_u64`. -/
def Json.asU64? : Json → Option ℕ
  | .number n => if 0 ≤ n ∧ n < 2 ^ 64 then some n.toNat else none
  | _ => none

namespace EvidenceReport

def empty : EvidenceReport := ⟨[], []⟩

def check (text : String) : EvidenceReport := ⟨[text], []⟩

def failure (text : String) : EvidenceReport := ⟨[], [text]⟩

/-- What is pushed after what was pushed. -/
def append (first second : EvidenceReport) : EvidenceReport :=
  ⟨first.checks ++ second.checks, first.failures ++ second.failures⟩

instance : Append EvidenceReport := ⟨append⟩

@[simp] theorem failures_append (first second : EvidenceReport) :
    (first ++ second).failures = first.failures ++ second.failures := rfl

@[simp] theorem failures_check (text : String) : (check text).failures = [] := rfl

@[simp] theorem failures_failure (text : String) : (failure text).failures = [text] := rfl

end EvidenceReport

-- fields

def requireStringField (value : Json) (key expected label : String) : List String :=
  match value.text? key with
  | some actual =>
    if actual = expected then [] else [label ++ " must be " ++ expected ++ ", got " ++ actual]
  | none => [label ++ " must be " ++ expected]

def requireNonEmptyString (value : Json) (key label : String) : List String :=
  match value.text? key with
  | some actual =>
    if !isBlank actual then [] else [label ++ " must be a non-empty string"]
  | none => [label ++ " must be a non-empty string"]

/-- The count is a `usize`, which holds what a `u64` does. -/
def requirePositiveUsize (value : Json) (key label : String) : List String × Option ℕ :=
  match (value.get? key).bind Json.asU64? with
  | some count =>
    if 0 < count then ([], some count)
    else ([label ++ " must be a positive integer"], none)
  | none => ([label ++ " must be a positive integer"], none)

def isAsciiHexdigit (c : Char) : Bool :=
  ('0' ≤ c && c ≤ '9') || ('a' ≤ c && c ≤ 'f') || ('A' ≤ c && c ≤ 'F')

def isSha256Hex (hash : String) : Bool :=
  hash.utf8ByteSize = 64 && hash.toList.all isAsciiHexdigit

def requireSha256Hex (value : Json) (key label : String) : List String :=
  match value.text? key with
  | some hash =>
    if isSha256Hex hash then [] else [label ++ " must be a 64-character SHA-256 hex digest"]
  | none => [label ++ " must be a 64-character SHA-256 hex digest"]

-- module names

/-- The loop over the names: what it pushes, and the names it has taken. It ends at a name
    that is out of order. -/
def collectModuleNames (index : ℕ) (previous : Option String) :
    List Json → List String × List String
  | [] => ([], [])
  | moduleName :: moduleNames => match trimmedNonempty moduleName.asStr? with
    | none =>
      let (failures, names) := collectModuleNames (index + 1) previous moduleNames
      (("oidf_export_provenance.module_names[" ++ toString index ++
        "] must be a non-empty string") :: failures, names)
    | some moduleName =>
      if previous.any fun previous => moduleName < previous then
        (["oidf_export_provenance.module_names must be sorted"], [])
      else
        let (failures, names) := collectModuleNames (index + 1) (some moduleName) moduleNames
        (failures, moduleName :: names)

def validateModuleNames (provenance : Json) (planModuleCount : Option ℕ) :
    List String × Option (List String) :=
  match (provenance.get? "module_names").bind Json.asArray? with
  | none | some [] => (["oidf_export_provenance.module_names must be a non-empty array"], none)
  | some moduleNames =>
    let (failures, names) := collectModuleNames 0 none moduleNames
    ((if planModuleCount.any fun planModuleCount => moduleNames.length ≠ planModuleCount then
        ["oidf_export_provenance.module_names length must match plan_module_count, got " ++
          toString moduleNames.length]
      else []) ++ failures, some names)

-- selected instances

/-- The loop over the instances: what it pushes, and the names of the modules it has taken.
    It ends at an instance that is out of order, as pairs are. -/
def collectSelectedInstances (index : ℕ) (previous : Option (String × String)) :
    List Json → List String × List String
  | [] => ([], [])
  | instance' :: instances =>
    let label := "oidf_export_provenance.selected_instances[" ++ toString index ++ "]"
    match trimmedNonempty (instance'.text? "module_name") with
    | none =>
      let (failures, names) := collectSelectedInstances (index + 1) previous instances
      ((label ++ ".module_name must be a non-empty string") :: failures, names)
    | some moduleName => match trimmedNonempty (instance'.text? "test_id") with
      | none =>
        let (failures, names) := collectSelectedInstances (index + 1) previous instances
        ((label ++ ".test_id must be a non-empty string") :: failures, names)
      | some testId =>
        if previous.any fun previous => [moduleName, testId] < [previous.1, previous.2] then
          (["oidf_export_provenance.selected_instances must be sorted"], [])
        else
          let (failures, names) :=
            collectSelectedInstances (index + 1) (some (moduleName, testId)) instances
          (failures, moduleName :: names)

def validateSelectedInstances (provenance : Json) (planModuleCount : Option ℕ)
    (moduleNames : Option (List String)) : List String :=
  match (provenance.get? "selected_instances").bind Json.asArray? with
  | none | some [] => ["oidf_export_provenance.selected_instances must be a non-empty array"]
  | some instances =>
    let (failures, selectedModuleNames) := collectSelectedInstances 0 none instances
    (if planModuleCount.any fun planModuleCount => instances.length ≠ planModuleCount then
      ["oidf_export_provenance.selected_instances length must match plan_module_count, got " ++
        toString instances.length]
    else []) ++ failures ++
    if moduleNames.any fun moduleNames => selectedModuleNames ≠ moduleNames then
      ["oidf_export_provenance.selected_instances module_name values must match module_names"]
    else []

-- provenance

def oidfExportProvenanceSchema : String := "cairnid.oidf-export-provenance.v1"

def oidfExportNormalizer : String := "cairn-api conformance oidcc-normalize-export"

def requireSourceFormat (provenance : Json) : List String :=
  match provenance.text? "source_format" with
  | some sourceFormat =>
    if sourceFormat = "zip" ∨ sourceFormat = "directory" then []
    else ["oidf_export_provenance.source_format must be zip or directory, got " ++ sourceFormat]
  | none => ["oidf_export_provenance.source_format must be zip or directory"]

def requireSameCount : Option ℕ → Option ℕ → List String
  | some planModuleCount, some testLogCount =>
    if testLogCount ≠ planModuleCount then
      ["oidf_export_provenance.test_log_count must match plan_module_count, got " ++
        toString testLogCount]
    else []
  | _, _ => []

section validation

variable (P : Primitives) (calendar : Calendar)

def requireExportedFrom (provenance : Json) : List String :=
  match provenance.text? "exported_from" with
  | some exportedFrom =>
    requireOpenidCertificationUrl P "oidf_export_provenance.exported_from" exportedFrom
  | none => ["oidf_export_provenance.exported_from must be an OpenID certification HTTPS URL"]

/-- What is pushed about a provenance. -/
def provenanceFailures (provenance : Json) : List String :=
  let (planFailures, planModuleCount) := requirePositiveUsize provenance "plan_module_count"
    "oidf_export_provenance.plan_module_count"
  let (testFailures, testLogCount) := requirePositiveUsize provenance "test_log_count"
    "oidf_export_provenance.test_log_count"
  let (nameFailures, moduleNames) := validateModuleNames provenance planModuleCount
  requireStringField provenance "schema" oidfExportProvenanceSchema
      "oidf_export_provenance.schema" ++
    requireStringField provenance "normalizer" oidfExportNormalizer
      "oidf_export_provenance.normalizer" ++
    requireSourceFormat provenance ++ requireExportedFrom P provenance ++
    requireNonEmptyString provenance "suite_version" "oidf_export_provenance.suite_version" ++
    planFailures ++ testFailures ++ requireSameCount planModuleCount testLogCount ++
    nameFailures ++ validateSelectedInstances provenance planModuleCount moduleNames ++
    requireSha256Hex provenance "plan_modules_sha256"
      "oidf_export_provenance.plan_modules_sha256" ++
    requireSha256Hex provenance "test_logs_sha256" "oidf_export_provenance.test_logs_sha256"

def validateOidfExportProvenance (value : Json) : EvidenceReport :=
  match value.get? "oidf_export_provenance" with
  | none => .failure
    "oidf_export_provenance must be present and emitted by oidcc-normalize-export"
  | some provenance =>
    let failures := provenanceFailures P provenance
    ⟨if failures.isEmpty then ["OpenID conformance result includes OIDF export provenance"]
      else [], failures⟩

-- the result

def requireRfc3339Timestamp (value : Json) (field evidenceKind : String) : EvidenceReport :=
  match value.text? field with
  | none => .failure (field ++ " must be present for " ++ evidenceKind ++ " evidence")
  | some timestamp =>
    if (calendar.parseRfc3339 timestamp).isNone then
      .failure (field ++ " must be an RFC3339 timestamp")
    else .check (evidenceKind ++ " completion timestamp is valid")

def requireConformanceSource (value : Json) : EvidenceReport :=
  match value.text? "source" with
  | some "openid-conformance-suite" | some "OpenID Foundation conformance suite"
  | some "oidf-conformance-suite" => .check "OpenID conformance result identifies suite source"
  | some source => .failure ("source must be openid-conformance-suite, got " ++ source)
  | none => .failure "source must be openid-conformance-suite"

def requireCertificationProfile (value : Json) (profileName : String) : List String :=
  match ((value.get? "certification_profile").or (value.get? "profile")).bind Json.asStr? with
  | some actualProfile =>
    if actualProfile ≠ profileName then
      ["certification_profile must be " ++ profileName ++ ", got " ++ actualProfile]
    else []
  | none => []

def requirePublishedResultUrl (value : Json) : List String :=
  match ((value.get? "published_result_url").or <| (value.get? "result_url").or
      (value.get? "url")).bind Json.asStr? with
  | some url => requireOpenidCertificationUrl P "published_result_url" url
  | none => ["published_result_url must be present for normalized OpenID conformance result"]

def validateOpenidNormalizedResult (value : Json) (profileName expectedPlanName : String)
    (report : EvidenceReport) : EvidenceReport :=
  let report := report ++ requireConformanceSource value ++
    ⟨[], requireOpenidPlanName value expectedPlanName⟩ ++
    requireRfc3339Timestamp calendar value "completed_at" "OpenID conformance result" ++
    ⟨[], validateOpenidFinishedStatusResult value "OpenID conformance result"⟩ ++
    ⟨[], requireCertificationProfile value profileName⟩ ++
    ⟨[], requirePublishedResultUrl P value⟩ ++ validateOidfExportProvenance P value
  if report.failures.isEmpty then
    report ++ .check (profileName ++ " OpenID conformance result passed")
  else report

end validation

end CairnId
