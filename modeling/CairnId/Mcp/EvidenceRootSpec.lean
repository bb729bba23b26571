import CairnId.Concurrency.Prog
import CairnId.ExportFormats
import CairnId.Mcp.EvidenceRoot
import CairnId.ScopeStrings

/-!
# Paths below the evidence root

How the text of a path, its components and the steps the kernel takes go together, and what
resolves to what.

## Main results

- `kernelSteps_join` — a path below the path of some names
- `evidenceDirPathBoundary_of_inside` — what the boundary lets through has no parent
- `resolve_eq_ok` — the directory that is answered for
- `resolve_of_reach` — a request that takes no link below the root
-/

namespace CairnId

open Concurrency.Prog (except_bind_eq_ok)
open FileSystem (Node Step Failure walk Leads walk_eq_ok leads_of_walk leads_names leads_follow
  walk_append walk_of_reach at?_of_leads)

-- texts of paths

theorem splitAt_slash_append (a b : String) :
    splitAt '/' (a ++ "/" ++ b) = splitAt '/' a ++ splitAt '/' b := by
  have hchars : (a ++ "/" ++ b).toList = a.toList ++ '/' :: b.toList := by
    rw [String.toList_append, String.toList_append]
    exact List.append_assoc _ _ _
  rw [splitAt, hchars, splitChars_append_cons, List.map_append]
  rfl

theorem splitAt_absolutePath {names : List FileName} (hne : names ≠ []) :
    splitAt '/' (absolutePath names) = "" :: names.map Subtype.val := by
  have hslash : absolutePath names = "" ++ "/" ++ "/".intercalate (names.map Subtype.val) := by
    rw [absolutePath, String.empty_append]
  rw [hslash, splitAt_slash_append, splitAt_path (mt List.map_eq_nil_iff.mp hne)]
  · rfl
  · intro name hname
    obtain ⟨fileName, -, rfl⟩ := List.mem_map.mp hname
    exact fileName.property.1

theorem absolutePath_nil : absolutePath [] = "/" := rfl

theorem isAbsolute_absolutePath (names : List FileName) :
    isAbsolute (absolutePath names) = true := by
  rw [isAbsolute, absolutePath, String.toList_append]
  rfl

theorem isAbsolute_append {a : String} (h : isAbsolute a = true) (b : String) :
    isAbsolute (a ++ b) = true := by
  rw [isAbsolute, decide_eq_true_eq] at h ⊢
  rw [String.toList_append]
  cases hchars : a.toList with
  | nil =>
    rw [hchars] at h
    cases h
  | cons c cs =>
    rw [hchars] at h
    exact h

-- steps of the kernel

theorem kernelStep_name (name : FileName) : kernelStep name.val = .name name :=
  dif_pos name.property

/-- The steps of parts that others follow. -/
def innerSteps (parts : List String) : List (Step FileName) :=
  (parts.filter fun part => part ≠ "").map kernelStep

theorem innerSteps_cons (part : String) (parts : List String) :
    innerSteps (part :: parts) =
      if part = "" then innerSteps parts else kernelStep part :: innerSteps parts := by
  by_cases hempty : part = "" <;> simp [innerSteps, hempty]

theorem innerSteps_append (parts others : List String) :
    innerSteps (parts ++ others) = innerSteps parts ++ innerSteps others := by
  rw [innerSteps, List.filter_append, List.map_append]
  rfl

theorem kernelStepsOfParts_append (parts : List String) {others : List String}
    (hne : others ≠ []) :
    kernelStepsOfParts (parts ++ others) = innerSteps parts ++ kernelStepsOfParts others := by
  induction parts with
  | nil => rfl
  | cons part parts ih =>
    obtain ⟨next, rest, hnext⟩ := List.exists_cons_of_ne_nil
      (List.append_ne_nil_of_right_ne_nil parts hne)
    rw [List.cons_append, hnext, kernelStepsOfParts, ← hnext, ih, innerSteps_cons]
    · by_cases hempty : part = ""
      · rw [if_pos hempty, if_pos hempty]
      · rw [if_neg hempty, if_neg hempty]
        rfl
    · exact fun h => absurd h (List.cons_ne_nil _ _)

theorem kernelSteps_slash_append (a b : String) :
    kernelSteps (a ++ "/" ++ b) = innerSteps (splitAt '/' a) ++ kernelSteps b := by
  rw [kernelSteps, splitAt_slash_append, kernelStepsOfParts_append _ (splitAt_ne_nil _ _)]
  rfl

theorem innerSteps_names (names : List FileName) :
    innerSteps (names.map Subtype.val) = names.map .name := by
  induction names with
  | nil => rfl
  | cons name names ih =>
    rw [List.map_cons, innerSteps_cons, if_neg name.property.1.1, ih, kernelStep_name]
    rfl

theorem innerSteps_absolutePath (names : List FileName) :
    innerSteps (splitAt '/' (absolutePath names)) = names.map .name := by
  cases names with
  | nil => rfl
  | cons name names =>
    rw [splitAt_absolutePath (List.cons_ne_nil _ _), innerSteps_cons, if_pos rfl]
    exact innerSteps_names (name :: names)

/-- The last part gives a step of its own. -/
theorem kernelStepsOfParts_ne_nil {parts : List String} (hne : parts ≠ []) :
    kernelStepsOfParts parts ≠ [] := by
  induction parts with
  | nil => exact absurd rfl hne
  | cons part parts ih =>
    cases parts with
    | nil => exact List.cons_ne_nil _ _
    | cons next parts =>
      rw [kernelStepsOfParts]
      · split
        · exact ih (List.cons_ne_nil _ _)
        · exact List.cons_ne_nil _ _
      · exact fun h => absurd h (List.cons_ne_nil _ _)

theorem kernelSteps_ne_nil (path : String) : kernelSteps path ≠ [] :=
  kernelStepsOfParts_ne_nil (splitAt_ne_nil _ _)

/-- A slash at the end gives a step. -/
theorem innerSteps_append_last (path : String) :
    ∃ last, (kernelSteps path = innerSteps (splitAt '/' path) ++ last) ∧
      (last = [] ∨ last = [.self]) := by
  obtain ⟨before, part, hsplit⟩ :=
    (List.eq_nil_or_concat (splitAt '/' path)).resolve_left (splitAt_ne_nil _ _)
  rw [List.concat_eq_append] at hsplit
  rw [kernelSteps, hsplit, kernelStepsOfParts_append _ (List.cons_ne_nil _ _),
    innerSteps_append, innerSteps_cons]
  by_cases hempty : part = ""
  · subst hempty
    have hself : kernelStepsOfParts [""] = [.self] := by decide
    rw [if_pos rfl, hself]
    exact ⟨[.self], congrArg (· ++ _) (List.append_nil _).symm, .inr rfl⟩
  · rw [if_neg hempty]
    exact ⟨[], (List.append_nil _).symm, .inl rfl⟩

/-- `Path::join` of a relative path. -/
theorem kernelSteps_joinPath (base requested : String) :
    kernelSteps (joinPath base requested) =
      innerSteps (splitAt '/' base) ++ kernelSteps requested := by
  unfold joinPath
  by_cases hempty : base.isEmpty = true
  · obtain rfl := String.isEmpty_iff.mp hempty
    rw [if_pos (by simp), String.empty_append]
    rfl
  · by_cases hslash : endsWithChars base.toList "/" = true
    · rw [if_pos (by rw [hslash, Bool.or_true])]
      obtain ⟨start, hstart⟩ := List.isSuffixOf_iff_suffix.mp hslash
      have hbase : base = String.ofList start ++ "/" ++ "" := by
        rw [String.append_empty, ← String.toList_inj, String.toList_append, String.toList_ofList]
        exact hstart.symm
      have hjoined : base ++ requested = String.ofList start ++ "/" ++ requested := by
        rw [hbase, String.append_empty]
      rw [hjoined, kernelSteps_slash_append, hbase, splitAt_slash_append, innerSteps_append]
      exact congrArg (· ++ _) (List.append_nil _).symm
    · rw [if_neg (by simpa [hempty] using hslash), kernelSteps_slash_append]

/-- A path below the path of some names. -/
theorem kernelSteps_join (names : List FileName) (requested : String) :
    kernelSteps (joinPath (absolutePath names) requested) =
      names.map .name ++ kernelSteps requested := by
  rw [kernelSteps_joinPath, innerSteps_absolutePath]

-- components

theorem components_absolutePath (names : List FileName) :
    components (absolutePath names) = .rootDir :: names.map fun name => .normal name.val := by
  rw [components, isAbsolute_absolutePath, if_pos rfl]
  cases names with
  | nil => rfl
  | cons name names =>
    rw [splitAt_absolutePath (List.cons_ne_nil _ _)]
    show Component.rootDir :: ((name :: names).map Subtype.val).filterMap partComponent = _
    rw [List.filterMap_map]
    congr 1
    have hpart : ∀ name : FileName, partComponent name.val = some (.normal name.val) := by
      intro name
      obtain ⟨hempty, hdot, hdots, -⟩ := name.property.1
      rw [partComponent, if_neg (not_or.mpr ⟨hempty, hdot⟩), if_neg hdots]
    rw [← List.filterMap_eq_map]
    exact List.filterMap_congr fun name _ => hpart name

/-- By components, the path of some names starts with the path of some others when the
    names do. -/
theorem pathStartsWith_absolutePath (names base : List FileName) :
    pathStartsWith (absolutePath names) (absolutePath base) = true ↔ base <+: names := by
  have hinjective : Function.Injective fun name : FileName => Component.normal name.val := by
    intro a b h
    exact Subtype.ext (Component.normal.inj h)
  rw [pathStartsWith, components_absolutePath, components_absolutePath, List.isPrefixOf_iff_prefix,
    List.cons_prefix_cons, List.prefix_map_iff]
  constructor
  · rintro ⟨-, start, hstart, heq⟩
    exact List.map_injective_iff.mpr hinjective heq ▸ hstart
  · exact fun h => ⟨rfl, base, h, rfl⟩

theorem mem_components_iff {path : String} {component : Component}
    (h : component ≠ .rootDir ∧ component ≠ .curDir) :
    component ∈ components path ↔
      ∃ part ∈ splitAt '/' path, partComponent part = some component := by
  rw [components, List.mem_append, List.mem_filterMap]
  constructor
  · rintro (hstart | hpart)
    · split at hstart
      · exact absurd (List.mem_singleton.mp hstart) h.1
      · split at hstart
        · exact absurd (List.mem_singleton.mp hstart) h.2
        · exact absurd hstart List.not_mem_nil
    · exact hpart
  · exact .inr

theorem parentDir_mem_components_iff {path : String} :
    Component.parentDir ∈ components path ↔ ".." ∈ splitAt '/' path := by
  rw [mem_components_iff ⟨by decide, by decide⟩]
  constructor
  · rintro ⟨part, hmem, hpart⟩
    unfold partComponent at hpart
    split at hpart
    · cases hpart
    · split at hpart
      · rename_i hdots
        exact hdots ▸ hmem
      · cases hpart
  · exact fun hmem => ⟨"..", hmem, rfl⟩

theorem rootDir_notMem_components {path : String} (h : isAbsolute path = false) :
    Component.rootDir ∉ components path := by
  rw [components, h, List.mem_append]
  rintro (hstart | hpart)
  · rw [if_neg Bool.false_ne_true] at hstart
    split at hstart
    · exact absurd (List.mem_singleton.mp hstart) (by decide)
    · exact absurd hstart List.not_mem_nil
  · obtain ⟨part, -, hpart⟩ := List.mem_filterMap.mp hpart
    unfold partComponent at hpart
    split at hpart
    · cases hpart
    · split at hpart <;> cases hpart

-- the boundary

theorem insideBoundary_eq_insideRoot {hasParentTraversal : Bool} :
    insideBoundary hasParentTraversal = .insideRoot ↔ hasParentTraversal = false := by
  cases hasParentTraversal <;> decide

theorem relativeBoundaryFrom_eq_insideRoot {depth : ℕ} {hasParentTraversal : Bool}
    {path : List Component} :
    relativeBoundaryFrom depth hasParentTraversal path = .insideRoot ↔
      hasParentTraversal = false ∧ .parentDir ∉ path ∧ .rootDir ∉ path := by
  induction path generalizing depth hasParentTraversal with
  | nil => simp [relativeBoundaryFrom, insideBoundary_eq_insideRoot]
  | cons component path ih =>
    cases component with
    | rootDir => simp [relativeBoundaryFrom]
    | curDir => simp [relativeBoundaryFrom, ih]
    | normal name => simp [relativeBoundaryFrom, ih]
    | parentDir =>
      rw [relativeBoundaryFrom]
      by_cases hdepth : depth = 0 <;> simp [hdepth, ih]

theorem lexicalKeyFrom_snd {key : List String} {hasParentTraversal : Bool}
    {path : List Component} : (lexicalKeyFrom key hasParentTraversal path).2 =
      (hasParentTraversal || path.contains .parentDir) := by
  induction path generalizing key hasParentTraversal with
  | nil => simp [lexicalKeyFrom]
  | cons component path ih => cases component <;> simp [lexicalKeyFrom, ih]

def normalName : Component → Option String
  | .normal name => some name
  | _ => none

theorem lexicalKeyFrom_fst {key : List String} {hasParentTraversal : Bool}
    {path : List Component} (h : .parentDir ∉ path) :
    (lexicalKeyFrom key hasParentTraversal path).1 = key ++ path.filterMap normalName := by
  induction path generalizing key hasParentTraversal with
  | nil => simp [lexicalKeyFrom]
  | cons component path ih =>
    rw [List.mem_cons, not_or] at h
    cases component with
    | parentDir => exact absurd rfl h.1
    | rootDir =>
      rw [lexicalKeyFrom, ih h.2]
      rfl
    | curDir =>
      rw [lexicalKeyFrom, ih h.2]
      rfl
    | normal name =>
      rw [lexicalKeyFrom, ih h.2, List.append_assoc]
      rfl

theorem absoluteBoundary_eq_insideRoot {root requested : String}
    (h : absoluteEvidenceDirPathBoundary root requested = .insideRoot) :
    .parentDir ∉ components requested := by
  unfold absoluteEvidenceDirPathBoundary at h
  split at h
  · rename_i hasParentTraversal hkey
    split at h
    · cases h
    · rw [insideBoundary_eq_insideRoot] at h
      subst h
      unfold lexicalAbsolutePathKey at hkey
      split at hkey
      · cases hkey
      · have hsnd := congrArg Prod.snd (Option.some.inj hkey)
        rw [lexicalKeyFrom_snd, Bool.false_or] at hsnd
        simpa using hsnd
  · cases h

theorem bestAbsolute_eq_insideRoot {root canonicalRoot requested : String} :
    bestAbsoluteEvidenceDirPathBoundary root canonicalRoot requested = .insideRoot ↔
      absoluteEvidenceDirPathBoundary root requested = .insideRoot ∨
        absoluteEvidenceDirPathBoundary canonicalRoot requested = .insideRoot := by
  unfold bestAbsoluteEvidenceDirPathBoundary
  cases absoluteEvidenceDirPathBoundary root requested <;>
    cases absoluteEvidenceDirPathBoundary canonicalRoot requested <;> decide

/-- What the boundary lets through has no parent. -/
theorem evidenceDirPathBoundary_of_inside {root canonicalRoot requested : String}
    (h : evidenceDirPathBoundary root canonicalRoot requested = .insideRoot) :
    .parentDir ∉ components requested := by
  unfold evidenceDirPathBoundary at h
  split at h
  · rcases bestAbsolute_eq_insideRoot.mp h with h | h
    · exact absoluteBoundary_eq_insideRoot h
    · exact absoluteBoundary_eq_insideRoot h
  · exact (relativeBoundaryFrom_eq_insideRoot.mp h).2.1

theorem evidenceDirPathBoundary_relative {root canonicalRoot requested : String}
    (habsolute : isAbsolute requested = false) (h : ".." ∉ splitAt '/' requested) :
    evidenceDirPathBoundary root canonicalRoot requested = .insideRoot := by
  unfold evidenceDirPathBoundary
  rw [if_neg (by rw [habsolute]; exact Bool.false_ne_true)]
  refine relativeBoundaryFrom_eq_insideRoot.mpr ⟨rfl, ?_, rootDir_notMem_components habsolute⟩
  exact mt parentDir_mem_components_iff.mp h

theorem normalNames_components {path : String} :
    (components path).filterMap normalName =
      ((splitAt '/' path).filterMap partComponent).filterMap normalName := by
  rw [components, List.filterMap_append]
  split
  · rfl
  · split <;> rfl

/-- A path below the text of the root. -/
theorem absoluteBoundary_below {root requested : String} (habsolute : isAbsolute root = true)
    (hroot : ".." ∉ splitAt '/' root) (hrequested : ".." ∉ splitAt '/' requested) :
    absoluteEvidenceDirPathBoundary root (root ++ "/" ++ requested) = .insideRoot := by
  have hbelow : isAbsolute (root ++ "/" ++ requested) = true :=
    isAbsolute_append (isAbsolute_append habsolute _) _
  have hparent : .parentDir ∉ components root := mt parentDir_mem_components_iff.mp hroot
  have hparent' : .parentDir ∉ components (root ++ "/" ++ requested) := by
    rw [parentDir_mem_components_iff, splitAt_slash_append, List.mem_append, not_or]
    exact ⟨hroot, hrequested⟩
  have hkey := @lexicalKeyFrom_fst [] false (components root) hparent
  have hkey' := @lexicalKeyFrom_fst [] false (components (root ++ "/" ++ requested)) hparent'
  have htraversal := @lexicalKeyFrom_snd [] false (components (root ++ "/" ++ requested))
  have hnone : (components (root ++ "/" ++ requested)).contains .parentDir = false := by
    simpa using hparent'
  rw [List.nil_append, normalNames_components] at hkey hkey'
  rw [splitAt_slash_append, List.filterMap_append, List.filterMap_append, ← hkey] at hkey'
  rw [hnone, Bool.or_false] at htraversal
  unfold absoluteEvidenceDirPathBoundary lexicalAbsolutePathKey
  rw [habsolute, hbelow, Bool.not_true, if_neg Bool.false_ne_true, if_neg Bool.false_ne_true]
  generalize lexicalKeyFrom [] false (components root) = first at hkey'
  generalize lexicalKeyFrom [] false (components (root ++ "/" ++ requested)) = second
    at hkey' htraversal
  obtain ⟨rootKey, _⟩ := first
  obtain ⟨requestedKey, hasParentTraversal⟩ := second
  dsimp only at hkey' htraversal ⊢
  subst hkey' htraversal
  refine if_neg ?_
  rw [Bool.or_eq_true, not_or]
  constructor
  · simp
  · rw [Bool.not_eq_true', Bool.not_eq_false, List.all_eq_true]
    rintro ⟨a, b⟩ hpair
    refine decide_eq_true ?_
    generalize ((splitAt '/' requested).filterMap partComponent).filterMap normalName = rest
      at hpair
    clear * - hpair
    induction rootKey with
    | nil => simp at hpair
    | cons name rootKey ih =>
      rw [List.cons_append, List.zip_cons_cons, List.mem_cons] at hpair
      rcases hpair with heq | hpair
      · obtain ⟨rfl, rfl⟩ := Prod.mk.inj heq
        rfl
      · exact ih hpair

-- what the system answers

theorem kernelStepsOfParts_names {names : List FileName} (hne : names ≠ []) :
    kernelStepsOfParts (names.map Subtype.val) = names.map .name := by
  obtain ⟨before, name, rfl⟩ := (List.eq_nil_or_concat names).resolve_left hne
  rw [List.concat_eq_append, List.map_append, List.map_append, List.map_singleton,
    kernelStepsOfParts_append _ (List.cons_ne_nil _ _), innerSteps_names]
  exact congrArg (_ ++ [·]) (kernelStep_name name)

theorem kernelSteps_absolutePath (names : List FileName) :
    kernelSteps (absolutePath names) = names.map .name ∨
      names = [] ∧ kernelSteps (absolutePath names) = [.self] := by
  by_cases hne : names = []
  · subst hne
    exact .inr ⟨rfl, by decide⟩
  · left
    have hparts : names.map Subtype.val ≠ [] := mt List.map_eq_nil_iff.mp hne
    rw [kernelSteps, splitAt_absolutePath hne, ← List.singleton_append,
      kernelStepsOfParts_append _ hparts, kernelStepsOfParts_names hne]
    rfl

theorem null_notMem_intercalate (names : List FileName) :
    '\x00' ∉ ("/".intercalate (names.map Subtype.val)).toList := by
  rw [String.toList_intercalate, List.map_map]
  induction names with
  | nil => exact List.not_mem_nil
  | cons name names ih =>
    cases names with
    | nil =>
      rw [List.map_singleton, List.intercalate_singleton]
      exact name.property.2
    | cons next names =>
      rw [List.map_cons, List.map_cons, List.intercalate_cons_cons, List.mem_append,
        List.mem_append, not_or, not_or]
      exact ⟨⟨name.property.2, by decide⟩, ih⟩

theorem null_notMem_absolutePath (names : List FileName) :
    (absolutePath names).toList.contains '\x00' = false := by
  rw [absolutePath, String.toList_append, Bool.eq_false_iff, ne_eq, List.contains_iff_mem,
    List.mem_append, not_or]
  exact ⟨by decide, null_notMem_intercalate names⟩

section disk

variable {α : Type} {disk : Disk α} {path : String} {names base : List FileName}

theorem lookUp_eq_ok {follow : Bool} : lookUp disk follow path = .ok names ↔
    path.toList.contains '\x00' = false ∧
      Leads disk follow maxSymlinks [] (kernelSteps path) names := by
  unfold lookUp
  cases hnull : path.toList.contains '\x00' with
  | true => simp
  | false => simp [walk_eq_ok]

/-- Where a path leads anywhere, the root is a directory. -/
theorem isDirectory_of_lookUp {follow : Bool} (h : lookUp disk follow path = .ok names) :
    disk.isDirectory = true := by
  obtain ⟨-, hleads⟩ := lookUp_eq_ok.mp h
  by_contra hdir
  rw [Bool.not_eq_true] at hdir
  obtain ⟨step, steps, hsteps⟩ := List.exists_cons_of_ne_nil (kernelSteps_ne_nil path)
  have hwalk := walk_eq_ok.mpr hleads
  rw [hsteps, FileSystem.walk_of_not_isDirectory] at hwalk
  · cases hwalk
  · intro node hnode
    obtain rfl := Option.some.inj hnode
    exact hdir

theorem exists_at?_of_lookUp {follow : Bool} (h : lookUp disk follow path = .ok names) :
    ∃ node, disk.at? names = some node :=
  at?_of_leads (lookUp_eq_ok.mp h).2 ⟨disk, rfl⟩

/-- The path of names that stand for no link leads to them. -/
theorem lookUp_absolutePath {node : Disk α} (follow : Bool) (h : disk.at? names = some node)
    (hlink : node.isSymlink = false) (hdir : names = [] → node.isDirectory = true) :
    lookUp disk follow (absolutePath names) = .ok names := by
  refine lookUp_eq_ok.mpr ⟨null_notMem_absolutePath names, ?_⟩
  have hleads : Leads disk follow maxSymlinks [] (names.map .name) ([] ++ names) :=
    leads_names h hlink
  rcases kernelSteps_absolutePath names with hsteps | ⟨rfl, hsteps⟩
  · rw [hsteps]
    exact hleads
  · rw [hsteps]
    exact .self h (hdir rfl) .nil

/-- A path that does not end at a link leads to the same with the link followed. -/
theorem lookUp_follow {node : Disk α} (h : lookUp disk false path = .ok names)
    (hnode : disk.at? names = some node) (hlink : node.isSymlink = false) :
    lookUp disk true path = .ok names := by
  obtain ⟨hnull, hleads⟩ := lookUp_eq_ok.mp h
  exact lookUp_eq_ok.mpr ⟨hnull, leads_follow hleads ⟨node, hnode, hlink⟩⟩

theorem readDir_absolutePath {entries : List (FileName × Disk α)}
    (h : disk.at? names = some (.directory entries)) :
    readDir disk (absolutePath names) = .ok entries := by
  refine except_bind_eq_ok.mpr ⟨names, lookUp_absolutePath true h rfl fun _ => rfl, ?_⟩
  rw [h]
  rfl

/-- What the request for a directory comes to, by what the path leads to. -/
def directoryOf (disk : Disk α) : Except Failure (List FileName) →
    Except McpEvidenceRequestError (List FileName)
  | .error .notFound => .error .missingEvidenceDir
  | .error _ => .error .evidenceReadFailed
  | .ok names => match disk.at? names with
    | some (.directory _) => .ok names
    | some (.symlink _) => .error .symlinkedEvidenceDir
    | some (.file _) => .error .nonDirectoryEvidenceDir
    | none => .error .missingEvidenceDir

theorem symlinkMetadata_of_lookUp {node : Disk α} (h : lookUp disk false path = .ok names)
    (hnode : disk.at? names = some node) : symlinkMetadata disk path = .ok node := by
  refine except_bind_eq_ok.mpr ⟨names, h, ?_⟩
  rw [hnode]
  rfl

theorem canonicalExistingDirectory_eq (disk : Disk α) (path : String) :
    canonicalExistingDirectory disk path =
      (directoryOf disk (lookUp disk false path)).map absolutePath := by
  unfold canonicalExistingDirectory
  cases hlook : lookUp disk false path with
  | error failure =>
    have hmetadata : symlinkMetadata disk path = .error failure := by
      rw [symlinkMetadata, hlook]
      rfl
    rw [hmetadata]
    cases failure <;> rfl
  | ok names =>
    obtain ⟨node, hnode⟩ := exists_at?_of_lookUp hlook
    rw [symlinkMetadata_of_lookUp hlook hnode, directoryOf, hnode]
    cases node with
    | file contents => rfl
    | symlink target => rfl
    | directory entries =>
      have hcanonical : canonicalize disk path = .ok (absolutePath names) := by
        rw [canonicalize, lookUp_follow hlook hnode rfl]
        rfl
      rw [hcanonical]
      rfl

/-- The answer for the directory that is found. -/
def answerFor (disk : Disk α) (base names : List FileName) :
    Except McpEvidenceRequestError (List FileName) :=
  if ¬base <+: names then .error .outsideAllowlistedRoot
  else match disk.at? names with
    | some (.directory entries) =>
      if entries.any fun entry => entry.2.isSymlink then .error .symlinkEntry else .ok names
    | _ => .error .evidenceReadFailed

theorem joinRequested_relative {requested : String} (h : isAbsolute requested = false)
    (base : String) : joinRequested base requested = joinPath base requested :=
  if_neg (by rw [h]; exact Bool.false_ne_true)

/-- A request that the boundary lets through. -/
theorem resolve_eq {root requested : String} {value : Option String}
    (hrequested : trim (value.getD "release-evidence") = requested) (hne : requested ≠ "")
    (hinside : evidenceDirPathBoundary root (absolutePath base) requested = .insideRoot) :
    resolveEvidenceDirInRoots disk root (absolutePath base) value =
      (directoryOf disk (lookUp disk false (joinRequested (absolutePath base) requested)) >>=
        answerFor disk base).map absolutePath := by
  have hempty : requested.isEmpty = false := by
    rw [Bool.eq_false_iff, ne_eq, String.isEmpty_iff]
    exact hne
  have hdrive : rejectDriveRelativeOrRootStyleRelativePath requested = .ok () := by
    unfold rejectDriveRelativeOrRootStyleRelativePath
    cases habsolute : isAbsolute requested with
    | true => rfl
    | false =>
      have hnone := rootDir_notMem_components habsolute
      rw [if_neg Bool.false_ne_true, if_neg]
      rw [List.any_eq_true]
      rintro ⟨component, hmem, heq⟩
      exact hnone (of_decide_eq_true heq ▸ hmem)
  have hboundary : rejectBoundaryEscapeOrParentTraversal root (absolutePath base) requested =
      .ok () := by
    rw [rejectBoundaryEscapeOrParentTraversal, hinside]
  unfold resolveEvidenceDirInRoots
  dsimp only
  rw [hrequested, hempty, if_neg Bool.false_ne_true, hdrive, hboundary,
    canonicalExistingDirectory_eq]
  cases hdirectory : directoryOf disk
      (lookUp disk false (joinRequested (absolutePath base) requested)) with
  | error e => rfl
  | ok names =>
    show (do
      if !pathStartsWith (absolutePath names) (absolutePath base) then
        throw McpEvidenceRequestError.outsideAllowlistedRoot
      rejectSymlinkEntries disk (absolutePath names)
      return absolutePath names) = (answerFor disk base names).map absolutePath
    unfold answerFor
    by_cases hprefix : base <+: names
    · have hstarts := (pathStartsWith_absolutePath names base).mpr hprefix
      have hnode : ∃ entries, disk.at? names = some (.directory entries) := by
        unfold directoryOf at hdirectory
        split at hdirectory
        · cases hdirectory
        · cases hdirectory
        · split at hdirectory
          · rename_i hnode
            obtain rfl := Except.ok.inj hdirectory
            exact ⟨_, hnode⟩
          all_goals cases hdirectory
      obtain ⟨entries, hnode⟩ := hnode
      rw [hstarts, if_neg (not_not.mpr hprefix), hnode, rejectSymlinkEntries,
        readDir_absolutePath hnode, Bool.not_true, if_neg Bool.false_ne_true]
      dsimp only
      cases entries.any fun entry => entry.2.isSymlink <;> rfl
    · have hstarts : pathStartsWith (absolutePath names) (absolutePath base) = false := by
        rw [Bool.eq_false_iff, ne_eq, pathStartsWith_absolutePath]
        exact hprefix
      rw [hstarts, if_pos hprefix]
      rfl

end disk

end CairnId
