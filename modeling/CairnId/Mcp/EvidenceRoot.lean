import CairnId.Evidence.ExportNormalizer
import CairnId.FileSystem.Resolve

/-!
# The evidence root of the MCP server

`apps/mcp/src/main.rs`: the root that is checked at start-up, the requests of the two tools
that read a directory, and the resolution of that directory below the root, on a POSIX
system. A path is the text it is written as.

## Main definitions

- `components`, `kernelSteps` — a path as the standard library and as the kernel take it
- `symlinkMetadata`, `canonicalize`, `readDir` — what the system answers
- `resolveEvidenceDirInRoots`
- `evidenceStatus`, `evidenceCheck`
-/

namespace CairnId

open FileSystem (Node Step Failure walk)

-- paths

/-- A name in a directory. -/
abbrev FileName := { name : String // IsFileName name ∧ '\x00' ∉ name.toList }

/-- A file system whose files hold `α`. -/
abbrev Disk (α : Type) := Node FileName α

/-- `Component`, without the prefixes of other systems. -/
inductive Component
  | rootDir
  | curDir
  | parentDir
  | normal (name : String)
  deriving DecidableEq

/-- `Path::is_absolute`. -/
def isAbsolute (path : String) : Bool := path.toList.head? = some '/'

def partComponent (part : String) : Option Component :=
  if part = "" ∨ part = "." then none
  else if part = ".." then some .parentDir else some (.normal part)

/-- `Path::components`: a `.` counts at the start of a relative path only. -/
def components (path : String) : List Component :=
  let parts := splitAt '/' path
  (if isAbsolute path then [.rootDir] else if parts.head? = some "." then [.curDir] else []) ++
    parts.filterMap partComponent

def kernelStep (part : String) : Step FileName :=
  if h : IsFileName part ∧ '\x00' ∉ part.toList then .name ⟨part, h⟩
  else if part = ".." then .parent else .self

/-- Empty parts do not count, but for the last one, which is like a `.`. -/
def kernelStepsOfParts : List String → List (Step FileName)
  | [] => []
  | [part] => [kernelStep part]
  | part :: parts =>
    if part = "" then kernelStepsOfParts parts else kernelStep part :: kernelStepsOfParts parts

/-- An absolute path as the kernel takes it. -/
def kernelSteps (path : String) : List (Step FileName) := kernelStepsOfParts (splitAt '/' path)

/-- The path of names from the root. -/
def absolutePath (names : List FileName) : String := "/" ++ "/".intercalate (names.map Subtype.val)

/-- `Path::starts_with`. -/
def pathStartsWith (path base : String) : Bool := (components base).isPrefixOf (components path)

-- what the system answers for an absolute path

/-- The links the kernel follows on one path. -/
def maxSymlinks : ℕ := 40

section disk

variable {α : Type} (disk : Disk α)

/-- The names a path leads to. A path with a null character is not passed on. -/
def lookUp (follow : Bool) (path : String) : Except Failure (List FileName) :=
  if path.toList.contains '\x00' then .error .invalidInput
  else walk disk follow maxSymlinks [] (kernelSteps path)

/-- `fs::symlink_metadata`. -/
def symlinkMetadata (path : String) : Except Failure (Disk α) := do
  let names ← lookUp disk false path
  match disk.at? names with
  | some node => return node
  | none => throw .notFound

/-- `Path::canonicalize`. -/
def canonicalize (path : String) : Except Failure String :=
  (lookUp disk true path).map absolutePath

/-- `fs::read_dir`. -/
def readDir (path : String) : Except Failure (List (FileName × Disk α)) := do
  let names ← lookUp disk true path
  match disk.at? names with
  | some (.directory entries) => return entries
  | _ => throw .notDirectory

-- the root at start-up

inductive StartupEvidenceRootErrorKind
  | inspectFailed
  | notDirectory
  | symlink
  deriving DecidableEq

structure StartupEvidenceRoot where
  supplied : String
  canonical : String

def absoluteStartupEvidenceRoot (currentDir : Option String) (root : String) :
    Except StartupEvidenceRootErrorKind String :=
  if isAbsolute root then .ok root
  else match currentDir with
    | some currentDir => .ok (joinPath currentDir root)
    | none => .error .inspectFailed

def canonicalStartupEvidenceRoot (path : String) : Except StartupEvidenceRootErrorKind String :=
  match symlinkMetadata disk path with
  | .error _ => .error .inspectFailed
  | .ok metadata =>
    if metadata.isSymlink then .error .symlink
    else if !metadata.isDirectory then .error .notDirectory
    else match canonicalize disk path with
      | .ok canonical => .ok canonical
      | .error _ => .error .inspectFailed

/-- With the current directory, when it can be read. -/
def startupEvidenceRoot (currentDir value : Option String) :
    Except StartupEvidenceRootErrorKind StartupEvidenceRoot := do
  let supplied ← (match value.or currentDir with
    | some root => .ok root
    | none => .error .inspectFailed : Except StartupEvidenceRootErrorKind String)
  let supplied ← absoluteStartupEvidenceRoot currentDir supplied
  let canonical ← canonicalStartupEvidenceRoot disk supplied
  return ⟨supplied, canonical⟩

end disk

-- requests

structure McpEvidenceRequestError where
  code : String
  failureCode : String
  message : String
  deriving DecidableEq

namespace McpEvidenceRequestError

def driveRelativeOrRootStyleRelativePath : McpEvidenceRequestError :=
  ⟨"drive_relative_or_root_style_relative_path", "artifact_path_failure",
    "evidence_dir must be a relative path without a drive prefix or root prefix, or an absolute path inside the allowlisted evidence root"⟩

def emptyEvidenceDir : McpEvidenceRequestError :=
  ⟨"empty_evidence_dir", "missing_evidence", "evidence_dir must be a non-empty path"⟩

def evidenceContractFailed : McpEvidenceRequestError :=
  ⟨"evidence_contract_failed", "stale_or_invalid_scaffold",
    "release evidence failed the required contract"⟩

def evidenceReadFailed : McpEvidenceRequestError :=
  ⟨"evidence_read_failed", "artifact_path_failure", "release evidence files could not be read"⟩

def invalidEvidenceJson : McpEvidenceRequestError :=
  ⟨"invalid_evidence_json", "internal_error", "release evidence JSON could not be processed"⟩

def invalidEvidenceDir : McpEvidenceRequestError :=
  ⟨"invalid_evidence_dir", "artifact_path_failure",
    "evidence_dir must be a string path when provided"⟩

def invalidMaxAgeDays : McpEvidenceRequestError :=
  ⟨"invalid_max_age_days", "invalid_request",
    "max_age_days must be an integer from 1 through 365"⟩

def missingEvidenceDir : McpEvidenceRequestError :=
  ⟨"missing_evidence_dir", "missing_evidence", "evidence_dir must be an existing directory"⟩

def nonDirectoryEvidenceDir : McpEvidenceRequestError :=
  ⟨"non_directory_evidence_dir", "artifact_path_failure", "evidence_dir must be a directory"⟩

def outsideAllowlistedRoot : McpEvidenceRequestError :=
  ⟨"outside_allowlisted_root", "artifact_path_failure",
    "evidence_dir must resolve inside the allowlisted evidence root"⟩

def parentTraversal : McpEvidenceRequestError :=
  ⟨"parent_traversal", "artifact_path_failure", "evidence_dir must not contain parent traversal"⟩

def symlinkEntry : McpEvidenceRequestError :=
  ⟨"symlink_entry", "artifact_path_failure", "evidence_dir must not contain symlink entries"⟩

def symlinkedEvidenceDir : McpEvidenceRequestError :=
  ⟨"symlinked_evidence_dir", "artifact_path_failure", "evidence_dir must not be a symlink"⟩

def unknownArgument : McpEvidenceRequestError :=
  ⟨"unknown_argument", "invalid_request", "only evidence_dir and max_age_days are accepted"⟩

end McpEvidenceRequestError

structure EvidenceDirectoryRequest where
  evidenceDir : Option String
  maxAgeDays : Option Int

def optionalStringArgument (value : Option Json) (invalidError : McpEvidenceRequestError) :
    Except McpEvidenceRequestError (Option String) :=
  match value with
  | none | some .null => .ok none
  | some (.string value) => .ok (some value)
  | some _ => .error invalidError

def optionalI64Argument (value : Option Json) (invalidError : McpEvidenceRequestError) :
    Except McpEvidenceRequestError (Option Int) :=
  match value with
  | none | some .null => .ok none
  | some (.number value) =>
    if -2 ^ 63 ≤ value ∧ value < 2 ^ 63 then .ok (some value) else .error invalidError
  | some _ => .error invalidError

def validateMaxAgeDays : Option Int → Except McpEvidenceRequestError Unit
  | none => .ok ()
  | some value =>
    if 1 ≤ value ∧ value ≤ 365 then .ok () else .error .invalidMaxAgeDays

def parseEvidenceDirectoryRequest (arguments : List (String × Json)) :
    Except McpEvidenceRequestError EvidenceDirectoryRequest := do
  if arguments.any fun argument => argument.1 ≠ "evidence_dir" && argument.1 ≠ "max_age_days" then
    throw .unknownArgument
  let evidenceDir ← optionalStringArgument ((Json.object arguments).get? "evidence_dir")
    .invalidEvidenceDir
  let maxAgeDays ← optionalI64Argument ((Json.object arguments).get? "max_age_days")
    .invalidMaxAgeDays
  validateMaxAgeDays maxAgeDays
  return ⟨evidenceDir, maxAgeDays⟩

-- the boundary, by the text of the paths

inductive EvidenceDirPathBoundary
  | insideRoot
  | insideRootWithParentTraversal
  | outsideRoot
  deriving DecidableEq

def insideBoundary (hasParentTraversal : Bool) : EvidenceDirPathBoundary :=
  if hasParentTraversal then .insideRootWithParentTraversal else .insideRoot

/-- The loop over the components of a relative path. -/
def relativeBoundaryFrom (depth : ℕ) (hasParentTraversal : Bool) :
    List Component → EvidenceDirPathBoundary
  | [] => insideBoundary hasParentTraversal
  | .normal _ :: rest => relativeBoundaryFrom (depth + 1) hasParentTraversal rest
  | .curDir :: rest => relativeBoundaryFrom depth hasParentTraversal rest
  | .parentDir :: rest =>
    if depth = 0 then .outsideRoot else relativeBoundaryFrom (depth - 1) true rest
  | .rootDir :: _ => .outsideRoot

def relativeEvidenceDirPathBoundary (requested : String) : EvidenceDirPathBoundary :=
  relativeBoundaryFrom 0 false (components requested)

/-- The loop over the components of an absolute path. -/
def lexicalKeyFrom (key : List String) (hasParentTraversal : Bool) :
    List Component → List String × Bool
  | [] => (key, hasParentTraversal)
  | .normal name :: rest => lexicalKeyFrom (key ++ [name]) hasParentTraversal rest
  | .parentDir :: rest => lexicalKeyFrom key.dropLast true rest
  | .rootDir :: rest | .curDir :: rest => lexicalKeyFrom key hasParentTraversal rest

def lexicalAbsolutePathKey (path : String) : Option (List String × Bool) :=
  if !isAbsolute path then none else some (lexicalKeyFrom [] false (components path))

def absoluteEvidenceDirPathBoundary (root requested : String) : EvidenceDirPathBoundary :=
  match lexicalAbsolutePathKey root, lexicalAbsolutePathKey requested with
  | some (rootKey, _), some (requestedKey, hasParentTraversal) =>
    if requestedKey.length < rootKey.length ||
        !((rootKey.zip requestedKey).all fun pair => pair.1 = pair.2) then .outsideRoot
    else insideBoundary hasParentTraversal
  | _, _ => .outsideRoot

def EvidenceDirPathBoundary.rank : EvidenceDirPathBoundary → ℕ
  | insideRoot => 0
  | insideRootWithParentTraversal => 1
  | outsideRoot => 2

def bestAbsoluteEvidenceDirPathBoundary (root canonicalRoot requested : String) :
    EvidenceDirPathBoundary :=
  let suppliedRootBoundary := absoluteEvidenceDirPathBoundary root requested
  let canonicalRootBoundary := absoluteEvidenceDirPathBoundary canonicalRoot requested
  if suppliedRootBoundary.rank ≤ canonicalRootBoundary.rank then suppliedRootBoundary
  else canonicalRootBoundary

def evidenceDirPathBoundary (root canonicalRoot requested : String) : EvidenceDirPathBoundary :=
  if isAbsolute requested then bestAbsoluteEvidenceDirPathBoundary root canonicalRoot requested
  else relativeEvidenceDirPathBoundary requested

def rejectDriveRelativeOrRootStyleRelativePath (path : String) :
    Except McpEvidenceRequestError Unit :=
  if isAbsolute path then .ok ()
  else if (components path).any fun component => component = .rootDir then
    .error .driveRelativeOrRootStyleRelativePath
  else .ok ()

def rejectBoundaryEscapeOrParentTraversal (root canonicalRoot requested : String) :
    Except McpEvidenceRequestError Unit :=
  match evidenceDirPathBoundary root canonicalRoot requested with
  | .insideRoot => .ok ()
  | .insideRootWithParentTraversal => .error .parentTraversal
  | .outsideRoot => .error .outsideAllowlistedRoot

-- the directory

section disk

variable {α ρ : Type} (disk : Disk α)

def canonicalExistingDirectory (path : String) : Except McpEvidenceRequestError String :=
  match symlinkMetadata disk path with
  | .error .notFound => .error .missingEvidenceDir
  | .error _ => .error .evidenceReadFailed
  | .ok metadata =>
    if metadata.isSymlink then .error .symlinkedEvidenceDir
    else if !metadata.isDirectory then .error .nonDirectoryEvidenceDir
    else match canonicalize disk path with
      | .ok canonical => .ok canonical
      | .error _ => .error .evidenceReadFailed

def rejectSymlinkEntries (evidenceDir : String) : Except McpEvidenceRequestError Unit :=
  match readDir disk evidenceDir with
  | .error _ => .error .evidenceReadFailed
  | .ok entries =>
    if entries.any fun entry => entry.2.isSymlink then .error .symlinkEntry else .ok ()

/-- `Path::join`. -/
def joinRequested (base requested : String) : String :=
  if isAbsolute requested then requested else joinPath base requested

def resolveEvidenceDirInRoots (root canonicalRoot : String) (value : Option String) :
    Except McpEvidenceRequestError String := do
  let requested := trim (value.getD "release-evidence")
  if requested.isEmpty then throw .emptyEvidenceDir
  rejectDriveRelativeOrRootStyleRelativePath requested
  rejectBoundaryEscapeOrParentTraversal root canonicalRoot requested
  let evidenceDir ← canonicalExistingDirectory disk (joinRequested canonicalRoot requested)
  if !pathStartsWith evidenceDir canonicalRoot then throw .outsideAllowlistedRoot
  rejectSymlinkEntries disk evidenceDir
  return evidenceDir

-- the tools

inductive ReleaseEvidenceError
  | invalidMaxAge
  | notDirectory (path : String)
  | existingScaffoldFile (path : String)
  | json
  | io

def mcpReleaseEvidenceError : ReleaseEvidenceError → McpEvidenceRequestError
  | .invalidMaxAge => .invalidMaxAgeDays
  | .notDirectory _ => .nonDirectoryEvidenceDir
  | .existingScaffoldFile _ => .evidenceContractFailed
  | .json => .invalidEvidenceJson
  | .io => .evidenceReadFailed

/-- `check_release_evidence`, up to the validation of what is in the directory. -/
def checkReleaseEvidence
    (validate : List (FileName × Disk α) → Int → Except ReleaseEvidenceError ρ)
    (evidenceDir : String) (maxAgeDays : Int) : Except ReleaseEvidenceError ρ :=
  if ¬(1 ≤ maxAgeDays ∧ maxAgeDays ≤ 365) then .error .invalidMaxAge
  else match readDir disk evidenceDir with
    | .error _ => .error (.notDirectory evidenceDir)
    | .ok entries => validate entries maxAgeDays

/-- The answer of a tool. -/
inductive CallToolResult (ρ : Type)
  | summary (report : ρ)
  | incomplete (report : ρ)
  | error (error : McpEvidenceRequestError)
  deriving DecidableEq

section tools

variable (defaultMaxAgeDays : Int)
  (validate : List (FileName × Disk α) → Int → Except ReleaseEvidenceError ρ)
  (isReady : ρ → Bool) (roots : StartupEvidenceRoot)

def releaseEvidenceReportForRoots (request : EvidenceDirectoryRequest) :
    Except McpEvidenceRequestError ρ := do
  let evidenceDir ←
    resolveEvidenceDirInRoots disk roots.supplied roots.canonical request.evidenceDir
  match checkReleaseEvidence disk validate evidenceDir
      (request.maxAgeDays.getD defaultMaxAgeDays) with
  | .ok report => return report
  | .error e => throw (mcpReleaseEvidenceError e)

def evidenceReport (arguments : List (String × Json)) : Except McpEvidenceRequestError ρ := do
  let request ← parseEvidenceDirectoryRequest arguments
  releaseEvidenceReportForRoots disk defaultMaxAgeDays validate roots request

def evidenceStatus (arguments : List (String × Json)) : CallToolResult ρ :=
  match evidenceReport disk defaultMaxAgeDays validate roots arguments with
  | .ok report => .summary report
  | .error e => .error e

def evidenceCheck (arguments : List (String × Json)) : CallToolResult ρ :=
  match evidenceReport disk defaultMaxAgeDays validate roots arguments with
  | .ok report => if isReady report then .summary report else .incomplete report
  | .error e => .error e

end tools

end disk

end CairnId
