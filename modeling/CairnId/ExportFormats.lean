import CairnId.Evidence.ExportSpec
import CairnId.Http.UrlencodedSpec
import CairnId.PlanExports
import Mathlib.Data.List.Dedup

/-!
# Exports as directories and as archives

An export of the conformance suite may be a directory or the ZIP archive of that directory.
When the two have the same result, whatever order the members of the archive are in.

## Main definitions

- `FileTree.ListedAs`, `FileTree.ZippedAs` — a listing of the test logs, and an archive
- `SameButSourceFormat` — two outcomes that differ in the source format alone
- `FormatIndependent` — what has to hold of the files

## Main results

- `readDir_eq_ok`, `readZip_eq_ok` — what the two readers take from the files
- `export_formats_exact` — when the two have the same result
-/

namespace CairnId

open Concurrency.Prog (except_bind_eq_ok)

-- names of files and of members

/-- The path as the name of a member. -/
def TreeFile.relativePath (file : TreeFile) : String := "/".intercalate file.path

def TreeFile.member (file : TreeFile) : ZipMember := ⟨file.relativePath, some file.value⟩

theorem splitAt_path {path : List String} (hne : path ≠ []) (h : ∀ name ∈ path, IsFileName name) :
    splitAt '/' ("/".intercalate path) = path :=
  splitAt_intercalate rfl hne fun name hname => (h name hname).2.2.2

theorem normalizeZipEntryName_intercalate {path : List String} (hne : path ≠ [])
    (h : ∀ name ∈ path, IsFileName name) :
    normalizeZipEntryName ("/".intercalate path) = "/".intercalate path := by
  rw [normalizeZipEntryName, splitAt_path hne h, List.filter_eq_self.mpr]
  intro name hname
  obtain ⟨hempty, hdot, hdots, -⟩ := h name hname
  simp [hempty, hdot, hdots]

theorem intercalate_inj {path : List String} (path' : List String) (hne : path ≠ []) (hne' : path' ≠ [])
    (h : ∀ name ∈ path, IsFileName name) (h' : ∀ name ∈ path', IsFileName name) :
    "/".intercalate path = "/".intercalate path' ↔ path = path' := by
  constructor
  · intro heq
    rw [← splitAt_path hne h, heq, splitAt_path hne' h']
  · exact congrArg _

-- the files a reader looks for

def isTestLogName (name : String) : Bool :=
  "test-log-".toList.isPrefixOf name.toList && endsWithChars name.toList testLogSuffix

namespace TreeFile

def isIndex (file : TreeFile) : Bool :=
  file.path = ["test-logs", "index.json"] || file.path = ["index.json"]

/-- A test log of the directory. -/
def isDirectLog (file : TreeFile) : Bool := match file.path with
  | [folder, name] => folder = "test-logs" && isTestLogName name
  | _ => false

/-- A test log of the archive. -/
def isArchivedLog (file : TreeFile) : Bool :=
  testLogPrefix.toList.isPrefixOf file.relativePath.toList &&
    endsWithChars file.relativePath.toList testLogSuffix

theorem isDirectLog_iff {file : TreeFile} : file.isDirectLog ↔
    ∃ name, file.path = ["test-logs", name] ∧ isTestLogName name := by
  unfold isDirectLog
  constructor
  · intro h
    split at h
    · rename_i folder name hpath
      rw [Bool.and_eq_true, decide_eq_true_eq] at h
      exact ⟨name, h.1 ▸ hpath, h.2⟩
    · cases h
  · rintro ⟨name, hpath, hname⟩
    rw [hpath]
    simpa using hname

theorem isArchivedLog_of_isDirectLog {file : TreeFile} (h : file.isDirectLog) :
    file.isArchivedLog := by
  obtain ⟨name, hpath, hname⟩ := isDirectLog_iff.mp h
  have htext : file.relativePath.toList = "test-logs/".toList ++ name.toList := by
    rw [relativePath, hpath, String.intercalate_cons_of_ne_nil (List.cons_ne_nil _ _),
      String.intercalate_singleton, String.toList_append]
    rfl
  rw [isTestLogName, Bool.and_eq_true, List.isPrefixOf_iff_prefix, endsWithChars,
    List.isSuffixOf_iff_suffix] at hname
  rw [isArchivedLog, Bool.and_eq_true, List.isPrefixOf_iff_prefix, endsWithChars,
    List.isSuffixOf_iff_suffix, htext]
  refine ⟨?_, hname.2.trans (List.suffix_append _ _)⟩
  show "test-logs/".toList ++ "test-log-".toList <+: _
  exact (List.prefix_append_right_inj _).mpr hname.1

end TreeFile

namespace FileTree

variable {tree : FileTree} {file : TreeFile}

theorem eq_of_path_eq {other : TreeFile} (h : file ∈ tree.files) (hother : other ∈ tree.files)
    (hpath : file.path = other.path) : file = other :=
  List.inj_on_of_nodup_map tree.distinct h hother hpath

theorem read?_eq_some_iff {path : List String} {value : Json} : tree.read? path = some value ↔
    ∃ file ∈ tree.files, file.path = path ∧ file.value = value := by
  unfold read?
  rw [Option.map_eq_some_iff]
  constructor
  · rintro ⟨file, hfind, hvalue⟩
    exact ⟨file, List.mem_of_find?_eq_some hfind, by simpa using List.find?_some hfind, hvalue⟩
  · rintro ⟨file, hmem, hpath, hvalue⟩
    cases hfind : tree.files.find? fun file => file.path = path with
    | none =>
      rw [List.find?_eq_none] at hfind
      exact absurd (decide_eq_true hpath) (hfind file hmem)
    | some found =>
      have hfound : found.path = path := by simpa using List.find?_some hfind
      obtain rfl := eq_of_path_eq (List.mem_of_find?_eq_some hfind) hmem (hfound.trans hpath.symm)
      exact ⟨found, rfl, hvalue⟩

theorem read?_of_mem (h : file ∈ tree.files) : tree.read? file.path = some file.value :=
  read?_eq_some_iff.mpr ⟨file, h, rfl, rfl⟩

theorem isFile_iff {path : List String} :
    tree.isFile path ↔ ∃ file ∈ tree.files, file.path = path := by
  rw [isFile, Option.isSome_iff_exists]
  simp only [read?_eq_some_iff]
  constructor
  · rintro ⟨_, file, hmem, hpath, -⟩
    exact ⟨file, hmem, hpath⟩
  · rintro ⟨file, hmem, hpath⟩
    exact ⟨_, file, hmem, hpath, rfl⟩

theorem isDir_iff {path : List String} :
    tree.isDir path ↔ ∃ file ∈ tree.files, path <+: file.path ∧ path ≠ file.path := by
  simp [isDir, List.any_eq_true]

-- listings and archives

/-- The entries of `test-logs`, in some order. -/
structure ListedAs (tree : FileTree) (entries : List String) : Prop where
  nodup : entries.Nodup
  mem_iff : ∀ name, name ∈ entries ↔ ∃ file ∈ tree.files, ["test-logs", name] <+: file.path

/-- The members of an archive of the files: one for each file, in some order, with members
    for directories or without. -/
def ZippedAs (tree : FileTree) (members : List ZipMember) : Prop :=
  ∃ directories : List ZipMember, (∀ directory ∈ directories, directory.isDir) ∧
    members.Perm (tree.files.map TreeFile.member ++ directories)

/-- Every entry of `test-logs` named like a test log is a file. -/
def LogsAreFiles (tree : FileTree) : Prop :=
  ∀ file ∈ tree.files, ∀ name, ["test-logs", name] <+: file.path → isTestLogName name →
    file.path = ["test-logs", name]

/-- The index of the directory. -/
def index? (tree : FileTree) : Option Json :=
  (tree.read? ["test-logs", "index.json"]).or (tree.read? ["index.json"])

def directLogs (tree : FileTree) : List TreeFile := tree.files.filter TreeFile.isDirectLog

def archivedLogs (tree : FileTree) : List TreeFile := tree.files.filter TreeFile.isArchivedLog

theorem exists_listedAs (tree : FileTree) : ∃ entries, tree.ListedAs entries := by
  refine ⟨(tree.files.filterMap fun file =>
    if file.path.head? = some "test-logs" then file.path[1]? else none).dedup,
    List.nodup_dedup _, ?_⟩
  intro name
  rw [List.mem_dedup, List.mem_filterMap]
  refine exists_congr fun file => and_congr_right fun _ => ?_
  rcases file.path with _ | ⟨folder, _ | ⟨entry, path⟩⟩
  · simp
  · simp
  · by_cases hfolder : folder = "test-logs"
    · simp [hfolder, eq_comm]
    · simp [hfolder, eq_comm]

-- reading the directory

theorem perm_directLogs (hlogs : tree.LogsAreFiles) {entries : List String}
    (hlisted : tree.ListedAs entries) :
    ((entries.filter isTestLogName).map fun name => tree.read? ["test-logs", name]).Perm
      (tree.directLogs.map fun file => some file.value) := by
  have hpaths : ((entries.filter isTestLogName).map fun name => ["test-logs", name]).Perm
      (tree.directLogs.map TreeFile.path) := by
    rw [List.perm_ext_iff_of_nodup]
    · intro path
      simp only [List.mem_map, List.mem_filter, hlisted.mem_iff, directLogs,
        TreeFile.isDirectLog_iff]
      constructor
      · rintro ⟨name, ⟨⟨file, hfile, hunder⟩, hname⟩, rfl⟩
        have hpath := hlogs file hfile name hunder hname
        exact ⟨file, ⟨hfile, name, hpath, hname⟩, hpath⟩
      · rintro ⟨file, ⟨hfile, name, hpath, hname⟩, rfl⟩
        exact ⟨name, ⟨⟨file, hfile, hpath ▸ List.prefix_refl _⟩, hname⟩, hpath.symm⟩
    · refine (hlisted.nodup.filter _).map ?_
      intro a b hab
      simpa using hab
    · exact tree.distinct.sublist (List.filter_sublist.map _)
  have hread := hpaths.map tree.read?
  rw [List.map_map, List.map_map] at hread
  have hvalues : tree.directLogs.map (tree.read? ∘ TreeFile.path) =
      tree.directLogs.map fun file => some file.value :=
    List.map_congr_left fun file hfile => read?_of_mem (List.mem_of_mem_filter hfile)
  rw [hvalues] at hread
  exact hread

theorem logsAreFiles_iff {entries : List String} (hlisted : tree.ListedAs entries) :
    tree.LogsAreFiles ↔
      ∀ name ∈ entries, isTestLogName name → (tree.read? ["test-logs", name]).isSome := by
  constructor
  · intro hlogs name hentry hname
    obtain ⟨file, hfile, hunder⟩ := (hlisted.mem_iff name).mp hentry
    exact isFile_iff.mpr ⟨file, hfile, hlogs file hfile name hunder hname⟩
  · intro hread file hfile name hunder hname
    have hentry := (hlisted.mem_iff name).mpr ⟨file, hfile, hunder⟩
    obtain ⟨log, hlog, hpath⟩ := isFile_iff.mp (hread name hentry hname)
    rw [← hpath] at hunder ⊢
    exact (tree.leaves log hlog file hfile hunder).symm

theorem readJsonFile_eq_ok {root : String} {path : List String} {value : Json} :
    readJsonFile root tree path = .ok value ↔ tree.read? path = some value := okOrElse_eq_ok

theorem readTestLogs_cons (root name : String) (entries : List String) :
    readTestLogs root tree (name :: entries) = if isTestLogName name then do
      let value ← readJsonFile root tree ["test-logs", name]
      let testLogs ← readTestLogs root tree entries
      return ⟨"test-logs/" ++ name, value⟩ :: testLogs
    else readTestLogs root tree entries := rfl

theorem readTestLogs_eq_ok {root : String} {entries : List String} {logs : List NamedJson}
    (h : readTestLogs root tree entries = .ok logs) :
    (entries.filter isTestLogName).map (fun name => tree.read? ["test-logs", name]) =
      logs.map fun log => some log.value := by
  induction entries generalizing logs with
  | nil =>
    obtain rfl := Except.ok.inj h
    rfl
  | cons name entries ih =>
    rw [readTestLogs_cons] at h
    by_cases hname : isTestLogName name = true
    · rw [if_pos hname] at h
      obtain ⟨value, hread, h⟩ := except_bind_eq_ok.mp h
      obtain ⟨others, hothers, h⟩ := except_bind_eq_ok.mp h
      obtain rfl := Except.ok.inj h
      rw [List.filter_cons_of_pos hname, List.map_cons, List.map_cons, ih hothers,
        readJsonFile_eq_ok.mp hread]
    · rw [if_neg hname] at h
      rw [List.filter_cons_of_neg hname]
      exact ih h

theorem exists_readTestLogs_iff (root : String) {entries : List String} :
    (∃ logs, readTestLogs root tree entries = .ok logs) ↔
      ∀ name ∈ entries, isTestLogName name → (tree.read? ["test-logs", name]).isSome := by
  induction entries with
  | nil => exact ⟨fun _ => by simp, fun _ => ⟨[], rfl⟩⟩
  | cons name entries ih =>
    rw [readTestLogs_cons, List.forall_mem_cons, ← ih]
    by_cases hname : isTestLogName name = true
    · rw [if_pos hname]
      simp only [except_bind_eq_ok, readJsonFile_eq_ok, hname, true_imp_iff,
        Option.isSome_iff_exists]
      constructor
      · rintro ⟨_, value, hread, logs, hlogs, -⟩
        exact ⟨⟨value, hread⟩, logs, hlogs⟩
      · rintro ⟨⟨value, hread⟩, logs, hlogs⟩
        exact ⟨_, value, hread, logs, hlogs, rfl⟩
    · rw [if_neg hname]
      exact ⟨fun h => ⟨fun h' => absurd h' hname, h⟩, And.right⟩

theorem indexPath_iff {value : Json} :
    (∃ path, (if tree.isFile ["test-logs", "index.json"] then some ["test-logs", "index.json"]
      else if tree.isFile ["index.json"] then some ["index.json"] else none) = some path ∧
      tree.read? path = some value) ↔ tree.index? = some value := by
  unfold index? isFile
  cases hfirst : tree.read? ["test-logs", "index.json"] with
  | some first => simp [hfirst]
  | none =>
    cases hsecond : tree.read? ["index.json"] with
    | some second => simp [hsecond]
    | none => simp

theorem isDir_of_directLogs (h : tree.directLogs ≠ []) : tree.isDir ["test-logs"] := by
  obtain ⟨file, hfile⟩ := List.exists_mem_of_ne_nil _ h
  obtain ⟨hmem, hlog⟩ := List.mem_filter.mp hfile
  obtain ⟨name, hpath, -⟩ := TreeFile.isDirectLog_iff.mp hlog
  refine isDir_iff.mpr ⟨file, hmem, ?_, ?_⟩
  · rw [hpath]
    exact ⟨[name], rfl⟩
  · rw [hpath]
    simp

theorem readDir_eq_ok {root : String} {entries : List String} {package : OidfExportPackage}
    (hlisted : tree.ListedAs entries)
    (h : OidfExportPackage.readDir root tree entries = .ok package) :
    tree.LogsAreFiles ∧ package.sourceFormat = .directory ∧
      tree.index? = some package.indexJson ∧
      (package.testLogs.map NamedJson.value).Perm (tree.directLogs.map TreeFile.value) := by
  unfold OidfExportPackage.readDir at h
  obtain ⟨path, hpath, h⟩ := except_bind_eq_ok.mp h
  obtain ⟨index, hindex, h⟩ := except_bind_eq_ok.mp h
  rw [okOrElse_eq_ok] at hpath
  rw [readJsonFile_eq_ok] at hindex
  split at h
  · cases h
  obtain ⟨logs, hlogs, h⟩ := except_bind_eq_ok.mp h
  split at h
  · cases h
  obtain rfl := Except.ok.inj h
  have hfiles := (logsAreFiles_iff hlisted).mpr ((exists_readTestLogs_iff root).mp ⟨logs, hlogs⟩)
  have hperm := perm_directLogs hfiles hlisted
  rw [readTestLogs_eq_ok hlogs] at hperm
  refine ⟨hfiles, rfl, indexPath_iff.mp ⟨path, hpath, hindex⟩, ?_⟩
  have hvalues := hperm.filterMap id
  simpa [List.filterMap_map, Function.comp_def] using hvalues

theorem exists_readDir (root : String) {entries : List String} {index : Json}
    (hlisted : tree.ListedAs entries) (hfiles : tree.LogsAreFiles)
    (hindex : tree.index? = some index) (hne : tree.directLogs ≠ []) :
    ∃ package, OidfExportPackage.readDir root tree entries = .ok package := by
  obtain ⟨path, hpath, hread⟩ := indexPath_iff.mpr hindex
  obtain ⟨logs, hlogs⟩ :=
    (exists_readTestLogs_iff root).mpr ((logsAreFiles_iff hlisted).mp hfiles)
  have hlength := (perm_directLogs hfiles hlisted).length_eq
  rw [readTestLogs_eq_ok hlogs, List.length_map, List.length_map] at hlength
  have hsome : ¬logs.isEmpty = true := by
    rw [List.isEmpty_iff]
    rintro rfl
    exact hne (List.eq_nil_of_length_eq_zero hlength.symm)
  refine ⟨⟨.directory, index, logs⟩, ?_⟩
  unfold OidfExportPackage.readDir
  refine except_bind_eq_ok.mpr ⟨path, okOrElse_eq_ok.mpr hpath, ?_⟩
  refine except_bind_eq_ok.mpr ⟨index, readJsonFile_eq_ok.mpr hread, ?_⟩
  rw [isDir_of_directLogs hne, Bool.not_true, if_neg Bool.false_ne_true]
  refine except_bind_eq_ok.mpr ⟨logs, hlogs, ?_⟩
  rw [if_neg hsome]
  rfl

-- reading the archive

theorem isIndex_iff (hfile : file ∈ tree.files) : file.isIndex ↔
    file.relativePath = "test-logs/index.json" ∨ file.relativePath = "index.json" := by
  have hlong := intercalate_inj ["test-logs", "index.json"] (tree.rooted file hfile)
    (List.cons_ne_nil _ _) (tree.named file hfile) (by decide)
  have hshort := intercalate_inj ["index.json"] (tree.rooted file hfile)
    (List.cons_ne_nil _ _) (tree.named file hfile) (by decide)
  rw [TreeFile.isIndex, Bool.or_eq_true, decide_eq_true_eq, decide_eq_true_eq, ← hlong, ← hshort]
  rfl

theorem isDir_of_isIndex (h : file.isIndex) : file.member.isDir = false := by
  rw [TreeFile.isIndex, Bool.or_eq_true, decide_eq_true_eq, decide_eq_true_eq] at h
  show file.relativePath.toList.getLast?.any (fun c => c = '/' || c = '\\') = false
  unfold TreeFile.relativePath
  rcases h with h | h
  · rw [h]
    decide
  · rw [h]
    decide

theorem isDir_of_isArchivedLog (h : file.isArchivedLog) : file.member.isDir = false := by
  rw [TreeFile.isArchivedLog, Bool.and_eq_true, endsWithChars, List.isSuffixOf_iff_suffix] at h
  obtain ⟨start, hname⟩ := h.2
  unfold ZipMember.isDir TreeFile.member
  rw [← hname, List.getLast?_append]
  rfl

theorem not_isArchivedLog_of_isIndex (h : file.isIndex) : file.isArchivedLog = false := by
  rw [TreeFile.isIndex, Bool.or_eq_true, decide_eq_true_eq, decide_eq_true_eq] at h
  unfold TreeFile.isArchivedLog TreeFile.relativePath
  rcases h with h | h
  · rw [h]
    decide
  · rw [h]
    decide

/-- What a file's member adds to what the loop has found. -/
theorem readZipMember_member (hfile : file ∈ tree.files) (contents : ZipContents) :
    readZipMember contents file.member = .ok
      (if file.isIndex then { contents with indexJson := some file.value }
      else if file.isArchivedLog then
        { contents with testLogs := contents.testLogs ++ [⟨file.relativePath, file.value⟩] }
      else contents) := by
  have hname : normalizeZipEntryName file.member.name = file.relativePath :=
    normalizeZipEntryName_intercalate (tree.rooted file hfile) (tree.named file hfile)
  unfold readZipMember
  by_cases hindex : file.isIndex = true
  · rw [isDir_of_isIndex hindex, if_neg Bool.false_ne_true, if_pos hindex, hname,
      if_pos ((isIndex_iff hfile).mp hindex)]
    rfl
  · have hnot := fun h => hindex ((isIndex_iff hfile).mpr h)
    by_cases hlog : file.isArchivedLog = true
    · rw [isDir_of_isArchivedLog hlog, if_neg Bool.false_ne_true, if_neg hindex, if_pos hlog,
        hname, if_neg hnot]
      exact if_pos hlog
    · rw [if_neg hindex, if_neg hlog, hname, if_neg hnot]
      split
      · rfl
      · exact if_neg hlog

theorem foldlM_member {order : List TreeFile} (h : ∀ file ∈ order, file ∈ tree.files)
    (contents : ZipContents) :
    (order.map TreeFile.member).foldlM readZipMember contents = .ok
      ⟨((order.filter TreeFile.isIndex).getLast?.map TreeFile.value).or contents.indexJson,
        contents.testLogs ++ (order.filter TreeFile.isArchivedLog).map fun file =>
          ⟨file.relativePath, file.value⟩⟩ := by
  induction order generalizing contents with
  | nil => simp [pure, Except.pure]
  | cons file order ih =>
    rw [List.map_cons, List.foldlM_cons, readZipMember_member (h file (.head _))]
    refine (ih (fun other hother => h other (.tail _ hother)) _).trans ?_
    congr 1
    by_cases hindex : file.isIndex = true
    · have hlog : ¬file.isArchivedLog = true := by
        rw [not_isArchivedLog_of_isIndex hindex]
        exact Bool.false_ne_true
      rw [if_pos hindex, List.filter_cons_of_pos hindex, List.filter_cons_of_neg hlog,
        List.getLast?_cons]
      cases (order.filter TreeFile.isIndex).getLast? <;> rfl
    · rw [if_neg hindex, List.filter_cons_of_neg hindex]
      by_cases hlog : file.isArchivedLog = true
      · rw [if_pos hlog, List.filter_cons_of_pos hlog, List.map_cons, ← List.append_cons]
      · rw [if_neg hlog, List.filter_cons_of_neg hlog]

theorem foldlM_filter_isDir (members : List ZipMember) (contents : ZipContents) :
    (members.filter fun member => !member.isDir).foldlM readZipMember contents =
      members.foldlM readZipMember contents := by
  induction members generalizing contents with
  | nil => rfl
  | cons member members ih =>
    by_cases hdir : member.isDir = true
    · have hstep : readZipMember contents member = .ok contents := if_pos hdir
      rw [List.filter_cons_of_neg (by simpa using hdir), List.foldlM_cons, hstep, ih]
      rfl
    · rw [List.filter_cons_of_pos (by simpa using hdir), List.foldlM_cons, List.foldlM_cons]
      exact congrArg _ (funext ih)

/-- The files in the order of an archive, without those whose names are taken for
    directories. -/
theorem exists_order {members : List ZipMember} (h : tree.ZippedAs members) :
    ∃ order : List TreeFile, (order.Perm (tree.files.filter fun file => !file.member.isDir)) ∧
      members.foldlM readZipMember ⟨none, []⟩ =
        (order.map TreeFile.member).foldlM readZipMember ⟨none, []⟩ := by
  obtain ⟨directories, hdirs, hperm⟩ := h
  have hkept := hperm.filter fun member => !member.isDir
  have hnone : directories.filter (fun member => !member.isDir) = [] := by
    rw [List.filter_eq_nil_iff]
    intro directory hdirectory
    simp [hdirs directory hdirectory]
  rw [List.filter_append, hnone, List.append_nil, List.filter_map] at hkept
  have hgraph : List.Forall₂ (fun member file => member = TreeFile.member file)
      ((tree.files.filter ((fun member => !member.isDir) ∘ TreeFile.member)).map TreeFile.member)
      (tree.files.filter ((fun member => !member.isDir) ∘ TreeFile.member)) := by
    rw [List.forall₂_map_left_iff]
    exact List.forall₂_same.mpr fun _ _ => rfl
  obtain ⟨order, horder, hfiles⟩ := List.perm_comp_forall₂ hkept hgraph
  refine ⟨order, hfiles, ?_⟩
  rw [← foldlM_filter_isDir]
  congr 1
  rw [← List.forall₂_eq_eq_eq, List.forall₂_map_right_iff]
  exact horder

theorem readZip_eq_ok {members : List ZipMember} {package : OidfExportPackage}
    (hzipped : tree.ZippedAs members) (h : OidfExportPackage.readZip members = .ok package) :
    package.sourceFormat = .zip ∧
      (∃ file ∈ tree.files, file.isIndex ∧ file.value = package.indexJson) ∧
      (package.testLogs.map NamedJson.value).Perm (tree.archivedLogs.map TreeFile.value) := by
  obtain ⟨order, horder, hfold⟩ := exists_order hzipped
  have hmem : ∀ file ∈ order, file ∈ tree.files := fun file hfile =>
    List.mem_of_mem_filter (horder.mem_iff.mp hfile)
  unfold OidfExportPackage.readZip at h
  rw [hfold, foldlM_member hmem] at h
  obtain ⟨contents, hcontents, h⟩ := except_bind_eq_ok.mp h
  obtain rfl := Except.ok.inj hcontents
  obtain ⟨index, hindex, h⟩ := except_bind_eq_ok.mp h
  rw [okOrElse_eq_ok, Option.or_none, Option.map_eq_some_iff] at hindex
  obtain ⟨file, hlast, hvalue⟩ := hindex
  obtain ⟨hfile, hisIndex⟩ := List.mem_filter.mp (List.mem_of_getLast? hlast)
  split at h
  · cases h
  obtain rfl := Except.ok.inj h
  refine ⟨rfl, ⟨file, hmem file hfile, hisIndex, hvalue⟩, ?_⟩
  have hlogs := horder.filter TreeFile.isArchivedLog
  have hkept : (tree.files.filter fun file => !file.member.isDir).filter TreeFile.isArchivedLog =
      tree.archivedLogs := by
    rw [List.filter_filter]
    refine List.filter_congr fun file _ => ?_
    cases hlog : file.isArchivedLog with
    | true => simp [isDir_of_isArchivedLog hlog]
    | false => rfl
  rw [hkept] at hlogs
  have hvalues := hlogs.map TreeFile.value
  simpa [List.map_map, Function.comp_def] using hvalues

theorem zippedAs_of_perm {order : List TreeFile} (h : order.Perm tree.files) :
    tree.ZippedAs (order.map TreeFile.member) := by
  refine ⟨[], fun _ hdirectory => absurd hdirectory List.not_mem_nil, ?_⟩
  rw [List.append_nil]
  exact h.map _

/-- The archive of files with an index and a test log can be read. -/
theorem exists_readZip {members : List ZipMember} (hzipped : tree.ZippedAs members)
    (hfile : file ∈ tree.files) (hindex : file.isIndex) (hne : tree.archivedLogs ≠ []) :
    ∃ package, OidfExportPackage.readZip members = .ok package := by
  obtain ⟨order, horder, hfold⟩ := exists_order hzipped
  have hmem : ∀ file ∈ order, file ∈ tree.files := fun file hfile =>
    List.mem_of_mem_filter (horder.mem_iff.mp hfile)
  have hkept : ∀ file ∈ tree.files, file.member.isDir = false → file ∈ order := by
    intro file hfile hdir
    exact horder.mem_iff.mpr (List.mem_filter.mpr ⟨hfile, by simp [hdir]⟩)
  obtain ⟨log, hlog⟩ := List.exists_mem_of_ne_nil _ hne
  obtain ⟨hlogFile, hisLog⟩ := List.mem_filter.mp hlog
  have hlogs : log ∈ order.filter TreeFile.isArchivedLog :=
    List.mem_filter.mpr ⟨hkept log hlogFile (isDir_of_isArchivedLog hisLog), hisLog⟩
  have hindexes : file ∈ order.filter TreeFile.isIndex :=
    List.mem_filter.mpr ⟨hkept file hfile (isDir_of_isIndex hindex), hindex⟩
  have hlast := List.getLast?_eq_some_getLast (List.ne_nil_of_mem hindexes)
  generalize (order.filter TreeFile.isIndex).getLast _ = last at hlast
  refine ⟨⟨.zip, last.value, (order.filter TreeFile.isArchivedLog).map fun file =>
    ⟨file.relativePath, file.value⟩⟩, ?_⟩
  unfold OidfExportPackage.readZip
  rw [hfold, foldlM_member hmem]
  refine except_bind_eq_ok.mpr ⟨_, rfl, except_bind_eq_ok.mpr ⟨last.value, ?_, ?_⟩⟩
  · rw [hlast]
    rfl
  · rw [if_neg]
    · rfl
    · simpa using List.ne_nil_of_mem hlogs

/-- An archive without directories, with the files in the order given. -/
theorem readZip_member {order : List TreeFile} (h : order.Perm tree.files) {last : TreeFile}
    (hlast : (order.filter TreeFile.isIndex).getLast? = some last)
    {package : OidfExportPackage}
    (hread : OidfExportPackage.readZip (order.map TreeFile.member) = .ok package) :
    package = ⟨.zip, last.value, (order.filter TreeFile.isArchivedLog).map fun file =>
        ⟨file.relativePath, file.value⟩⟩ := by
  unfold OidfExportPackage.readZip at hread
  rw [foldlM_member fun file hfile => h.mem_iff.mp hfile] at hread
  obtain ⟨contents, hcontents, hread⟩ := except_bind_eq_ok.mp hread
  obtain rfl := Except.ok.inj hcontents
  obtain ⟨index, hindex, hread⟩ := except_bind_eq_ok.mp hread
  rw [okOrElse_eq_ok, hlast] at hindex
  obtain rfl := Option.some.inj hindex
  split at hread
  · cases hread
  · exact (Except.ok.inj hread).symm

end FileTree

-- outcomes that differ in the source format

def Json.without (key : String) : Json → Json
  | .object members => .object (members.filter fun m => m.1 ≠ key)
  | value => value

def withoutSourceFormat : Json → Json
  | .object members => .object (members.map fun m =>
      if m.1 = "oidf_export_provenance" then (m.1, m.2.without "source_format") else m)
  | value => value

inductive SameButSourceFormat : Except String Json → Except String Json → Prop
  | ok {a b : Json} (h : withoutSourceFormat a = withoutSourceFormat b) :
    SameButSourceFormat (.ok a) (.ok b)
  | error (e e' : String) : SameButSourceFormat (.error e) (.error e')

def OidfPlanIndex.selection (plan : OidfPlanIndex) : List (String × String) :=
  plan.modules.map fun module => (module.testModule, module.lastInstance)

section json

variable {sha256Json : Json → String} {profile : ExportProfile} {publishedResultUrl : String}
  {format format' : OidfExportSourceFormat} {plan plan' : OidfPlanIndex} {warning warning' : Bool}
  {text text' from' from'' version version' : String} {records records' : List ProvenanceLogRecord}

theorem insertionSort_eq_of_perm {α β : Type} [LinearOrder β] (key : α → β)
    (hkey : Function.Injective key) {l l' : List α} (h : l.Perm l') :
    l.insertionSort (fun a b => key a ≤ key b) = l'.insertionSort fun a b => key a ≤ key b := by
  have hperm := (List.perm_insertionSort (fun a b => key a ≤ key b) l).trans
    (h.trans (List.perm_insertionSort (fun a b => key a ≤ key b) l').symm)
  have htotal : Std.Total fun a b => key a ≤ key b := ⟨fun a b => le_total _ _⟩
  have htrans : IsTrans α fun a b => key a ≤ key b := ⟨fun a b c => le_trans⟩
  refine hperm.eq_of_pairwise (fun a b _ _ hab hba => hkey (le_antisymm hab hba)) ?_ ?_
  · exact List.pairwise_insertionSort _ l
  · exact List.pairwise_insertionSort _ l'

theorem selectedInstances_eq_iff : selectedInstances plan = selectedInstances plan' ↔
    plan.selection.Perm plan'.selection := by
  constructor
  · intro h
    have hsorted := List.perm_insertionSort (fun a b : String × String => [a.1, a.2] ≤ [b.1, b.2])
      plan.selection
    have hsorted' := List.perm_insertionSort
      (fun a b : String × String => [a.1, a.2] ≤ [b.1, b.2]) plan'.selection
    exact hsorted.symm.trans ((List.Perm.of_eq h).trans hsorted')
  · intro h
    refine insertionSort_eq_of_perm (fun a : String × String => [a.1, a.2]) ?_ h
    rintro ⟨a, b⟩ ⟨c, d⟩ heq
    simpa using heq

theorem selectedInstances_of_values
    (h : selectedInstanceValues plan = selectedInstanceValues plan') :
    selectedInstances plan = selectedInstances plan' := by
  refine List.map_injective_iff.mpr ?_ h
  rintro ⟨a, b⟩ ⟨c, d⟩ heq
  simpa using heq

theorem fields_of_same (h :
    withoutSourceFormat (conformanceJson sha256Json profile publishedResultUrl format plan warning
      text from' version records) =
    withoutSourceFormat (conformanceJson sha256Json profile publishedResultUrl format' plan'
      warning' text' from'' version' records')) :
    text = text' ∧ plan.selection.Perm plan'.selection ∧ records.length = records'.length := by
  simp [withoutSourceFormat, Json.without, conformanceJson, oidfExportProvenance] at h
  obtain ⟨-, htext, -, -, -, hlength, -, hvalues, -⟩ := h
  exact ⟨htext, selectedInstances_eq_iff.mp (selectedInstances_of_values hvalues),
    by omega⟩

theorem same_of_fields (hname : plan.planName = plan'.planName)
    (hselection : plan.selection.Perm plan'.selection) (hrecords : records.Perm records') :
    withoutSourceFormat (conformanceJson sha256Json profile publishedResultUrl format plan warning
      text from' version records) =
    withoutSourceFormat (conformanceJson sha256Json profile publishedResultUrl format' plan'
      warning text from' version records') := by
  have hinstances := selectedInstances_eq_iff.mpr hselection
  have hvalues : selectedInstanceValues plan = selectedInstanceValues plan' := by
    rw [selectedInstanceValues, hinstances]
    rfl
  have hcount : plan.modules.length = plan'.modules.length := by
    simpa [OidfPlanIndex.selection] using hselection.length_eq
  have hnames : (plan.modules.map OidfPlanModule.testModule).insertionSort (· ≤ ·) =
      (plan'.modules.map OidfPlanModule.testModule).insertionSort (· ≤ ·) := by
    refine insertionSort_eq_of_perm id Function.injective_id ?_
    have hfirst := hselection.map Prod.fst
    simpa [OidfPlanIndex.selection, Function.comp_def] using hfirst
  have hlogs : (records.map ProvenanceLogRecord.fields).insertionSort (· ≤ ·) =
      (records'.map ProvenanceLogRecord.fields).insertionSort (· ≤ ·) :=
    insertionSort_eq_of_perm id Function.injective_id (hrecords.map _)
  simp [withoutSourceFormat, Json.without, conformanceJson, oidfExportProvenance, hvalues, hcount,
    hnames, hlogs, hname]

end json

-- the two formats

section formats

variable (P : Primitives) (calendar : Calendar) (sha256Json : Json → String)
  (profileName publishedResultUrl : String) (tree : FileTree)

/-- The directory and every archive of it have the same result, but for the source format, or
    both have none. -/
def FormatsAgree : Prop :=
  ∀ root entries members, tree.ListedAs entries → tree.ZippedAs members →
    SameButSourceFormat
      (normalizeOpenidConformanceExport P calendar sha256Json profileName
        (.directory root tree entries) publishedResultUrl)
      (normalizeOpenidConformanceExport P calendar sha256Json profileName (.archive members)
        publishedResultUrl)

/-- What the reader of directories takes is a complete export. -/
structure CompleteDirectory (index : Json) (plan : OidfPlanIndex) (tests : List LoggedTest) :
    Prop where
  logsAreFiles : tree.LogsAreFiles
  indexed : tree.index? = some index
  complete : CompleteExport P calendar profileName publishedResultUrl index
    (tree.directLogs.map TreeFile.value) plan tests

/-- No file is a test log of the archive alone. -/
def NoNestedLogs : Prop := ∀ file ∈ tree.files, file.isArchivedLog → file.isDirectLog

/-- The tests of the latest time have it written in one way. -/
def OneCompletionText (tests : List LoggedTest) : Prop :=
  ∀ a ∈ tests, ∀ b ∈ tests,
    (∀ other ∈ tests, other.test.exportedAt.instant ≤ a.test.exportedAt.instant) →
    (∀ other ∈ tests, other.test.exportedAt.instant ≤ b.test.exportedAt.instant) →
    a.exportedAt = b.exportedAt

/-- A complete directory has no log that only the archive takes, one text for the time of
    completion, and no index that selects other instances. Where the directory is not
    complete, no index is complete with the logs of the archive. -/
def FormatIndependent : Prop :=
  (∀ index plan tests,
    CompleteDirectory P calendar profileName publishedResultUrl tree index plan tests →
    NoNestedLogs tree ∧ OneCompletionText tests ∧
      ∀ file ∈ tree.files, file.isIndex → ∃ plan', plan.selection.Perm plan'.selection ∧
        CompleteExport P calendar profileName publishedResultUrl file.value
          (tree.directLogs.map TreeFile.value) plan' tests) ∧
  ((∀ index plan tests,
    ¬CompleteDirectory P calendar profileName publishedResultUrl tree index plan tests) →
    ∀ file ∈ tree.files, file.isIndex → ∀ plan tests,
      ¬CompleteExport P calendar profileName publishedResultUrl file.value
        (tree.archivedLogs.map TreeFile.value) plan tests)

end formats

section agree

variable {P : Primitives} {calendar : Calendar} {sha256Json : Json → String}
  {profileName publishedResultUrl : String} {tree : FileTree} {index : Json}
  {plan : OidfPlanIndex} {tests : List LoggedTest}

theorem archivedLogs_eq (h : NoNestedLogs tree) : tree.archivedLogs = tree.directLogs := by
  refine List.filter_congr fun file hfile => ?_
  cases hdirect : file.isDirectLog with
  | true => exact TreeFile.isArchivedLog_of_isDirectLog hdirect
  | false =>
    rw [Bool.eq_false_iff] at hdirect ⊢
    exact fun harchived => hdirect (h file hfile harchived)

theorem noNestedLogs_of_length
    (h : tree.archivedLogs.length = tree.directLogs.length) : NoNestedLogs tree := by
  have hsublist : tree.directLogs.Sublist tree.archivedLogs :=
    List.monotone_filter_right _ fun file hdirect =>
      TreeFile.isArchivedLog_of_isDirectLog hdirect
  have heq := hsublist.eq_of_length h.symm
  intro file hfile harchived
  have hmem : file ∈ tree.archivedLogs := List.mem_filter.mpr ⟨hfile, harchived⟩
  rw [← heq] at hmem
  exact (List.mem_filter.mp hmem).2

theorem read_archive {members : List ZipMember} {package : OidfExportPackage}
    (h : OidfExportPackage.readZip members = .ok package) :
    OidfExportPackage.read (.archive members) = .ok package := h

theorem index?_eq_some (h : tree.index? = some index) :
    ∃ file ∈ tree.files, file.isIndex ∧ file.value = index := by
  unfold FileTree.index? at h
  rw [Option.or_eq_some_iff, FileTree.read?_eq_some_iff] at h
  rcases h with ⟨file, hfile, hpath, hvalue⟩ | ⟨-, h⟩
  · exact ⟨file, hfile, by simp [TreeFile.isIndex, hpath], hvalue⟩
  · obtain ⟨file, hfile, hpath, hvalue⟩ := FileTree.read?_eq_some_iff.mp h
    exact ⟨file, hfile, by simp [TreeFile.isIndex, hpath], hvalue⟩

theorem ne_nil_of_complete {files : List TreeFile}
    (h : CompleteExport P calendar profileName publishedResultUrl index
      (files.map TreeFile.value) plan tests) : files ≠ [] := by
  rintro rfl
  have hlogged := h.logged
  rw [List.map_nil, List.forall₂_nil_left_iff] at hlogged
  exact h.tests_ne_nil hlogged

/-- A complete directory has a result. -/
theorem CompleteDirectory.exists_result (sha256Json : Json → String) (root : String)
    {entries : List String}
    (hlisted : tree.ListedAs entries)
    (h : CompleteDirectory P calendar profileName publishedResultUrl tree index plan tests) :
    ∃ result, normalizeOpenidConformanceExport P calendar sha256Json profileName
      (.directory root tree entries) publishedResultUrl = .ok result := by
  obtain ⟨package, hread⟩ := FileTree.exists_readDir root hlisted h.logsAreFiles
    h.indexed (ne_nil_of_complete h.complete)
  obtain ⟨-, -, hindex, hperm⟩ := FileTree.readDir_eq_ok hlisted hread
  obtain rfl := Option.some.inj (h.indexed.symm.trans hindex)
  exact exists_normalize sha256Json hread hperm.symm h.complete

/-- The result is the one of the tests, in the order a reader has them in. -/
def ResultOf (sha256Json : Json → String) (profileName publishedResultUrl : String)
    (sourceFormat : OidfExportSourceFormat) (plan : OidfPlanIndex) (tests : List LoggedTest)
    (result : Json) : Prop :=
  ∃ profile order completed, exportProfile profileName = .ok profile ∧ tests.Perm order ∧
    CompletedBy order completed ∧
    result = exportResult sha256Json profile publishedResultUrl sourceFormat plan order completed

theorem normalize_directory {root : String} {entries : List String} {result : Json}
    (hlisted : tree.ListedAs entries)
    (h : normalizeOpenidConformanceExport P calendar sha256Json profileName
      (.directory root tree entries) publishedResultUrl = .ok result) :
    ∃ index plan tests,
      CompleteDirectory P calendar profileName publishedResultUrl tree index plan tests ∧
      ResultOf sha256Json profileName publishedResultUrl .directory plan tests result := by
  obtain ⟨package, hread⟩ := exists_read h
  obtain ⟨hfiles, hformat, hindex, hperm⟩ := FileTree.readDir_eq_ok hlisted hread
  obtain ⟨profile, plan, order, completed, hprofile, hcomplete, hcompleted, hresult⟩ :=
    (normalize_eq_ok hread).mp h
  obtain ⟨tests, htests, hcomplete⟩ := hcomplete.of_perm hperm
  rw [hformat] at hresult
  exact ⟨package.indexJson, plan, tests, ⟨hfiles, hindex, hcomplete⟩, profile, order, completed,
    hprofile, htests.symm, hcompleted, hresult⟩

theorem normalize_archive {members : List ZipMember} {result : Json}
    (hzipped : tree.ZippedAs members)
    (h : normalizeOpenidConformanceExport P calendar sha256Json profileName (.archive members)
      publishedResultUrl = .ok result) :
    ∃ file ∈ tree.files, file.isIndex ∧ ∃ plan tests,
      CompleteExport P calendar profileName publishedResultUrl file.value
        (tree.archivedLogs.map TreeFile.value) plan tests ∧
      ResultOf sha256Json profileName publishedResultUrl .zip plan tests result := by
  obtain ⟨package, hread⟩ := exists_read h
  obtain ⟨hformat, ⟨file, hfile, hindex, hvalue⟩, hperm⟩ := FileTree.readZip_eq_ok hzipped hread
  obtain ⟨profile, plan, order, completed, hprofile, hcomplete, hcompleted, hresult⟩ :=
    (normalize_eq_ok hread).mp h
  obtain ⟨tests, htests, hcomplete⟩ := hcomplete.of_perm hperm
  rw [hformat] at hresult
  rw [← hvalue] at hcomplete
  exact ⟨file, hfile, hindex, plan, tests, hcomplete, profile, order, completed, hprofile,
    htests.symm, hcompleted, hresult⟩

theorem CompletedBy.le_of_perm {order : List LoggedTest} {completed : LoggedTest}
    (h : CompletedBy order completed) (hperm : tests.Perm order) : completed ∈ tests ∧
      ∀ other ∈ tests, other.test.exportedAt.instant ≤ completed.test.exportedAt.instant := by
  refine ⟨hperm.mem_iff.mpr h.1, ?_⟩
  intro other hother
  exact (latest_spec h.2).2 _ (List.mem_map_of_mem (hperm.mem_iff.mp hother))

/-- Two results of the same tests. -/
theorem same_of_tests {index' : Json} {values values' : List Json} {plan' : OidfPlanIndex}
    {format format' : OidfExportSourceFormat} {result result' : Json}
    (h : CompleteExport P calendar profileName publishedResultUrl index values plan tests)
    (h' : CompleteExport P calendar profileName publishedResultUrl index' values' plan' tests)
    (hselection : plan.selection.Perm plan'.selection) (htext : OneCompletionText tests)
    (hresult : ResultOf sha256Json profileName publishedResultUrl format plan tests result)
    (hresult' : ResultOf sha256Json profileName publishedResultUrl format' plan' tests result') :
    withoutSourceFormat result = withoutSourceFormat result' := by
  obtain ⟨profile, order, completed, hprofile, hperm, hcompleted, rfl⟩ := hresult
  obtain ⟨_, order', completed', hprofile', hperm', hcompleted', rfl⟩ := hresult'
  obtain rfl := Except.ok.inj (hprofile.symm.trans hprofile')
  obtain ⟨hmem, hmax⟩ := hcompleted.le_of_perm hperm
  obtain ⟨hmem', hmax'⟩ := hcompleted'.le_of_perm hperm'
  have horders := hperm.symm.trans hperm'
  have hwarning : order.any LoggedTest.isWarning = order'.any LoggedTest.isWarning :=
    horders.any_eq
  obtain ⟨hfrom, hversion⟩ := h.sameSuite hmem hmem'
  unfold exportResult
  rw [hwarning, htext completed hmem completed' hmem' hmax hmax', hfrom, hversion]
  exact same_of_fields ((h.planName hprofile).trans (h'.planName hprofile).symm) hselection
    (horders.map _)

theorem sameButSourceFormat_iff {x y : Except String Json} : SameButSourceFormat x y ↔
    (∀ a, x = .ok a → ∃ b, y = .ok b ∧ withoutSourceFormat a = withoutSourceFormat b) ∧
      ((∀ a, x ≠ .ok a) → ∀ b, y ≠ .ok b) := by
  constructor
  · rintro (h | ⟨e, e'⟩)
    · refine ⟨?_, fun hnone => absurd rfl (hnone _)⟩
      intro a ha
      exact ⟨_, rfl, Except.ok.inj ha ▸ h⟩
    · exact ⟨fun _ ha => absurd ha nofun, fun _ _ hb => absurd hb nofun⟩
  · rintro ⟨hok, herror⟩
    cases x with
    | ok a =>
      obtain ⟨b, rfl, h⟩ := hok a rfl
      exact .ok h
    | error e =>
      cases y with
      | ok b => exact absurd rfl (herror (fun _ => nofun) b)
      | error e' => exact .error e e'

theorem formatsAgree_of_independent
    (h : FormatIndependent P calendar profileName publishedResultUrl tree) :
    FormatsAgree P calendar sha256Json profileName publishedResultUrl tree := by
  intro root entries members hlisted hzipped
  obtain ⟨hcomplete, hincomplete⟩ := h
  rw [sameButSourceFormat_iff]
  constructor
  · intro result hresult
    obtain ⟨index, plan, tests, hdirectory, hof⟩ := normalize_directory hlisted hresult
    obtain ⟨hnested, htext, hindexes⟩ := hcomplete index plan tests hdirectory
    obtain ⟨file, hfile, hindex, -⟩ := index?_eq_some hdirectory.indexed
    have hlogs := archivedLogs_eq hnested
    have hne : tree.archivedLogs ≠ [] := hlogs ▸ ne_nil_of_complete hdirectory.complete
    obtain ⟨package, hread⟩ := FileTree.exists_readZip hzipped hfile hindex hne
    obtain ⟨-, ⟨last, hlast, hlastIndex, hvalue⟩, hperm⟩ := FileTree.readZip_eq_ok hzipped hread
    obtain ⟨plan', hselection, hlastComplete⟩ := hindexes last hlast hlastIndex
    rw [hlogs] at hperm
    rw [hvalue] at hlastComplete
    obtain ⟨archived, harchived⟩ :=
      exists_normalize sha256Json (read_archive hread) hperm.symm hlastComplete
    refine ⟨archived, harchived, ?_⟩
    obtain ⟨other, hother, hotherIndex, plan'', tests'', hcomplete'', hof''⟩ :=
      normalize_archive hzipped harchived
    obtain ⟨plan₂, hselection₂, hcomplete₂⟩ := hindexes other hother hotherIndex
    rw [hlogs] at hcomplete''
    obtain rfl := hcomplete₂.tests_eq hcomplete''
    obtain rfl := Except.ok.inj (hcomplete₂.parsed.symm.trans hcomplete''.parsed)
    exact same_of_tests hdirectory.complete hcomplete'' hselection₂ htext hof hof''
  · intro hnone result hresult
    obtain ⟨file, hfile, hindex, plan, tests, hcomplete, -⟩ := normalize_archive hzipped hresult
    refine hincomplete ?_ file hfile hindex plan tests hcomplete
    intro index plan tests hdirectory
    obtain ⟨result, hresult⟩ := hdirectory.exists_result sha256Json root hlisted
    exact hnone result hresult

-- what agreement asks of the files

theorem CompleteDirectory.unique {index' : Json} {plan' : OidfPlanIndex}
    {tests' : List LoggedTest}
    (h : CompleteDirectory P calendar profileName publishedResultUrl tree index plan tests)
    (h' : CompleteDirectory P calendar profileName publishedResultUrl tree index' plan' tests') :
    plan = plan' ∧ tests = tests' := by
  obtain rfl := Option.some.inj (h.indexed.symm.trans h'.indexed)
  exact ⟨Except.ok.inj (h.complete.parsed.symm.trans h'.complete.parsed),
    h.complete.tests_eq h'.complete⟩

/-- The result of an archive with its files in a given order. -/
theorem normalize_order {order : List TreeFile} {last : TreeFile} {result : Json}
    (hperm : order.Perm tree.files)
    (hlast : (order.filter TreeFile.isIndex).getLast? = some last)
    (h : normalizeOpenidConformanceExport P calendar sha256Json profileName
      (.archive (order.map TreeFile.member)) publishedResultUrl = .ok result) :
    ∃ profile plan tests completed, exportProfile profileName = .ok profile ∧
      CompleteExport P calendar profileName publishedResultUrl last.value
        ((order.filter TreeFile.isArchivedLog).map TreeFile.value) plan tests ∧
      CompletedBy tests completed ∧
      result = exportResult sha256Json profile publishedResultUrl .zip plan tests completed := by
  obtain ⟨package, hread⟩ := exists_read h
  obtain rfl := FileTree.readZip_member hperm hlast hread
  have hresult := (normalize_eq_ok hread).mp h
  rw [List.map_map] at hresult
  exact hresult

/-- Where the formats agree, an archive of a complete directory is complete, in any order of
    its files, and says the same of the plan and the time of completion. -/
theorem exists_archive_tests
    (hagree : FormatsAgree P calendar sha256Json profileName publishedResultUrl tree)
    (h : CompleteDirectory P calendar profileName publishedResultUrl tree index plan tests) :
    ∃ text, ∀ (order : List TreeFile) (last : TreeFile), order.Perm tree.files →
      (order.filter TreeFile.isIndex).getLast? = some last →
      ∃ plan' tests' completed,
        CompleteExport P calendar profileName publishedResultUrl last.value
          ((order.filter TreeFile.isArchivedLog).map TreeFile.value) plan' tests' ∧
        CompletedBy tests' completed ∧ completed.exportedAt = text ∧
        plan.selection.Perm plan'.selection ∧ tests'.length = tests.length := by
  obtain ⟨entries, hlisted⟩ := tree.exists_listedAs
  obtain ⟨result, hresult⟩ := h.exists_result sha256Json "" hlisted
  obtain ⟨_, _, _, hdirectory, profile, listed, completed, hprofile, hperm, -, rfl⟩ :=
    normalize_directory hlisted hresult
  obtain ⟨rfl, rfl⟩ := h.unique hdirectory
  refine ⟨completed.exportedAt, fun order last horder hlast => ?_⟩
  have hsame := hagree "" entries _ hlisted (FileTree.zippedAs_of_perm horder)
  obtain ⟨archived, harchived, hequal⟩ := (sameButSourceFormat_iff.mp hsame).1 _ hresult
  obtain ⟨_, plan', tests', completed', hprofile', hcomplete', hcompleted', rfl⟩ :=
    normalize_order horder hlast harchived
  obtain rfl := Except.ok.inj (hprofile.symm.trans hprofile')
  obtain ⟨htext, hselection, hlength⟩ := fields_of_same hequal
  rw [List.length_map, List.length_map] at hlength
  exact ⟨plan', tests', completed', hcomplete', hcompleted', htext.symm, hselection,
    hlength.symm.trans hperm.length_eq.symm⟩

theorem CompleteExport.length_eq {values : List Json}
    (h : CompleteExport P calendar profileName publishedResultUrl index values plan tests) :
    values.length = tests.length := h.logged.length_eq

/-- An order of the files with a given index last. -/
theorem exists_order_last {file : TreeFile} (hfile : file ∈ tree.files) (hindex : file.isIndex) :
    ∃ order : List TreeFile, order.Perm tree.files ∧
      (order.filter TreeFile.isIndex).getLast? = some file := by
  obtain ⟨before, after, hfiles⟩ := List.append_of_mem hfile
  refine ⟨before ++ after ++ [file], ?_, ?_⟩
  · rw [hfiles]
    have hlast : (before ++ after ++ [file]).Perm (file :: (before ++ after)) :=
      List.perm_append_singleton file (before ++ after)
    exact hlast.trans List.perm_middle.symm
  · rw [List.filter_append, List.filter_cons_of_pos hindex, List.filter_nil,
      List.getLast?_concat]

theorem exists_last {order : List TreeFile} {file : TreeFile} (hfile : file ∈ order)
    (hindex : file.isIndex) :
    ∃ last, (order.filter TreeFile.isIndex).getLast? = some last :=
  ⟨_, List.getLast?_eq_some_getLast (List.ne_nil_of_mem (List.mem_filter.mpr ⟨hfile, hindex⟩))⟩

theorem independent_of_formatsAgree
    (hagree : FormatsAgree P calendar sha256Json profileName publishedResultUrl tree) :
    FormatIndependent P calendar profileName publishedResultUrl tree := by
  constructor
  · intro index plan tests hdirectory
    obtain ⟨text, harchive⟩ := exists_archive_tests hagree hdirectory
    obtain ⟨file, hfile, hindex, -⟩ := index?_eq_some hdirectory.indexed
    have hnested : NoNestedLogs tree := by
      obtain ⟨last, hlast⟩ := exists_last hfile hindex
      obtain ⟨_, tests', _, hcomplete', -, -, -, hlength⟩ :=
        harchive tree.files last (.refl _) hlast
      refine noNestedLogs_of_length ?_
      have harchived := hcomplete'.length_eq
      have hdirect := hdirectory.complete.length_eq
      rw [List.length_map] at harchived hdirect
      exact harchived.trans (hlength.trans hdirect.symm)
    have hlogs := archivedLogs_eq hnested
    -- the tests of any archive are the ones of the directory, in another order
    have htests : ∀ {order : List TreeFile} {index' : Json} {plan' : OidfPlanIndex}
        {tests' : List LoggedTest}, order.Perm tree.files →
        CompleteExport P calendar profileName publishedResultUrl index'
          ((order.filter TreeFile.isArchivedLog).map TreeFile.value) plan' tests' →
        tests'.Perm tests ∧ CompleteExport P calendar profileName publishedResultUrl index'
          (tree.directLogs.map TreeFile.value) plan' tests := by
      intro order index' plan' tests' horder hcomplete'
      have hvalues := (horder.filter TreeFile.isArchivedLog).map TreeFile.value
      obtain ⟨tests'', hperm, hcomplete''⟩ := hcomplete'.of_perm hvalues
      have hcomplete : CompleteExport P calendar profileName publishedResultUrl index'
          (tree.directLogs.map TreeFile.value) plan' tests'' := hlogs ▸ hcomplete''
      obtain rfl := hcomplete.tests_eq hdirectory.complete
      exact ⟨hperm, hcomplete⟩
    -- a test of the latest time is the one that counts, when its log comes first
    have htext : ∀ logged ∈ tests,
        (∀ other ∈ tests, other.test.exportedAt.instant ≤ logged.test.exportedAt.instant) →
        logged.exportedAt = text := by
      intro logged hlogged hmax
      obtain ⟨value, hvalue, hlogs'⟩ := hdirectory.complete.exists_value hlogged
      obtain ⟨log, hlog, rfl⟩ := List.mem_map.mp hvalue
      obtain ⟨hlogFile, hisLog⟩ := List.mem_filter.mp hlog
      obtain ⟨before, after, hfiles⟩ := List.append_of_mem hlogFile
      have horder : (log :: (before ++ after)).Perm tree.files :=
        hfiles ▸ List.perm_middle.symm
      obtain ⟨last, hlast⟩ := exists_last (horder.mem_iff.mpr hfile) hindex
      obtain ⟨plan', tests', completed, hcomplete', hcompleted, rfl, -, -⟩ :=
        harchive _ last horder hlast
      have hperm := (htests horder hcomplete').1
      rw [List.filter_cons_of_pos (TreeFile.isArchivedLog_of_isDirectLog hisLog),
        List.map_cons] at hcomplete'
      exact (completed_of_first hcomplete' hlogs'
        (fun other hother => hmax other (hperm.mem_iff.mp hother)) hcompleted).symm
    refine ⟨hnested, ?_, ?_⟩
    · intro a ha b hb hmax hmax'
      exact (htext a ha hmax).trans (htext b hb hmax').symm
    · intro other hother hotherIndex
      obtain ⟨order, horder, hlast⟩ := exists_order_last hother hotherIndex
      obtain ⟨plan', tests', -, hcomplete', -, -, hselection, -⟩ :=
        harchive order other horder hlast
      exact ⟨plan', hselection, (htests horder hcomplete').2⟩
  · intro hnone file hfile hindex plan tests hcomplete
    obtain ⟨order, horder, hlast⟩ := exists_order_last hfile hindex
    obtain ⟨entries, hlisted⟩ := tree.exists_listedAs
    have hsame := hagree "" entries _ hlisted (FileTree.zippedAs_of_perm horder)
    have hzipped := FileTree.zippedAs_of_perm horder
    obtain ⟨package, hread⟩ := FileTree.exists_readZip hzipped hfile hindex
      (ne_nil_of_complete hcomplete)
    obtain rfl := FileTree.readZip_member horder hlast hread
    have hvalues := ((horder.filter TreeFile.isArchivedLog).map TreeFile.value).symm
    obtain ⟨result, hresult⟩ := exists_normalize sha256Json (read_archive hread)
      (by rw [List.map_map]; exact hvalues) hcomplete
    refine (sameButSourceFormat_iff.mp hsame).2 ?_ result hresult
    intro other hother
    obtain ⟨index, plan, tests, hdirectory, -⟩ := normalize_directory hlisted hother
    exact hnone index plan tests hdirectory

end agree

-- when an export means the same unpacked or zipped

theorem export_formats_exact (P : Primitives) (calendar : Calendar) (sha256Json : Json → String)
    (profileName publishedResultUrl : String) (tree : FileTree) :
    FormatsAgree P calendar sha256Json profileName publishedResultUrl tree ↔
      FormatIndependent P calendar profileName publishedResultUrl tree :=
  ⟨independent_of_formatsAgree, formatsAgree_of_independent⟩

namespace Sample

def suiteLog (testId name : String) : Json :=
  .object [("exportedAt", .string "1970-01-01T00:00:00Z"),
    ("exportedFrom", .string "https://www.certification.openid.net/"),
    ("exportedVersion", .string "5.1.0"),
    ("testInfo", .object [("testId", .string testId), ("testName", .string name),
      ("status", .string "FINISHED"), ("result", .string "PASSED")])]

def suiteIndex (modules : List Json) : Json :=
  .object [("planName", .string "oidcc-config-certification-test-plan"),
    ("modules", .array modules)]

/-- A complete export with a second index, which has no modules. -/
def exportTree : FileTree where
  files := [⟨["test-logs", "index.json"], suiteIndex [planModule "discovery" "x"]⟩,
    ⟨["test-logs", "test-log-x.json"], suiteLog "x" "discovery"⟩,
    ⟨["index.json"], suiteIndex []⟩]
  distinct := by decide
  rooted := by decide
  named := by decide
  leaves := by decide

def normalized (path : ExportPath) : Except String Json :=
  normalizeOpenidConformanceExport suitePrimitives suiteCalendar (fun _ => "") "config-op" path
    "https://www.certification.openid.net/plan"

end Sample

open Sample

/-- The directory has a result by the index in `test-logs`, and the archive with its members
    in the order of the files none, by the last one. -/
theorem second_index_differs :
    exportTree.ListedAs ["index.json", "test-log-x.json"] ∧
      exportTree.ZippedAs (exportTree.files.map TreeFile.member) ∧
      (normalized (.directory "export" exportTree ["index.json", "test-log-x.json"])).isOk ∧
      ¬(normalized (.archive (exportTree.files.map TreeFile.member))).isOk ∧
      ¬FormatsAgree suitePrimitives suiteCalendar (fun _ => "") "config-op"
        "https://www.certification.openid.net/plan" exportTree := by
  have hlisted : exportTree.ListedAs ["index.json", "test-log-x.json"] := by
    refine ⟨by decide, fun name => ?_⟩
    simp [exportTree, List.cons_prefix_cons]
  have hzipped : exportTree.ZippedAs (exportTree.files.map TreeFile.member) :=
    FileTree.zippedAs_of_perm (.refl _)
  have hdirectory : (normalized
      (.directory "export" exportTree ["index.json", "test-log-x.json"])).isOk := by
    decide
  have harchive : ¬(normalized (.archive (exportTree.files.map TreeFile.member))).isOk := by
    decide
  refine ⟨hlisted, hzipped, hdirectory, harchive, fun hagree => ?_⟩
  have hsame : SameButSourceFormat
      (normalized (.directory "export" exportTree ["index.json", "test-log-x.json"]))
      (normalized (.archive (exportTree.files.map TreeFile.member))) :=
    hagree "export" _ _ hlisted hzipped
  generalize normalized (.directory "export" exportTree ["index.json", "test-log-x.json"]) = x
    at hdirectory hsame
  generalize normalized (.archive (exportTree.files.map TreeFile.member)) = y at harchive hsame
  cases hsame with
  | ok => exact harchive rfl
  | error => cases hdirectory

end CairnId
