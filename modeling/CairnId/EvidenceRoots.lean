import CairnId.Mcp.EvidenceRootSpec

/-!
# What the evidence tools see

A report is made of what is in a directory at or below the root. Where a request takes no
link, nothing outside the root counts for its answer, and the three ways to write the request
have one answer. A request through a link tells what is at the other end.

## Main definitions

- `Spells` — the ways to write a request
- `LinkFree` — requests that take no link

## Main results

- `evidence_stays_below` — where a report comes from
- `evidence_dir_exact` — the answer to a request that takes no link
- `evidence_answers_local` — what an answer depends on
- `link_tells` — what a link gives away
- `slash_follows_link` — a link with a slash after it
-/

namespace CairnId

open Concurrency.Prog (except_bind_eq_ok)
open FileSystem (Node Step Failure Target walk Leads walk_eq_ok leads_of_walk leads_names
  leads_follow walk_append walk_of_reach leads_of_concat_self reach_names walk_link onLink)

section roots

variable {α ρ : Type} {disk disk' : Disk α} {roots : StartupEvidenceRoot} {root : List FileName}
  {node : Disk α} {currentDir currentDir' rootValue rootValue' value : Option String}
  {requested rest : String}

-- the root

/-- The root has the names, and is a directory. -/
structure RootedAt (disk : Disk α) (roots : StartupEvidenceRoot) (root : List FileName)
    (node : Disk α) : Prop where
  canonical : roots.canonical = absolutePath root
  found : disk.at? root = some node
  directory : node.isDirectory = true
  supplied : lookUp disk true roots.supplied = .ok root

theorem rooted_of_startup
    (h : startupEvidenceRoot disk currentDir rootValue = .ok roots) :
    ∃ root node, RootedAt disk roots root node := by
  unfold startupEvidenceRoot at h
  obtain ⟨given', -, h⟩ := except_bind_eq_ok.mp h
  obtain ⟨supplied, -, h⟩ := except_bind_eq_ok.mp h
  obtain ⟨canonical, hcanonical, h⟩ := except_bind_eq_ok.mp h
  obtain rfl := Except.ok.inj h
  unfold canonicalStartupEvidenceRoot at hcanonical
  cases hmetadata : symlinkMetadata disk supplied with
  | error failure =>
    rw [hmetadata] at hcanonical
    cases hcanonical
  | ok node =>
    rw [hmetadata] at hcanonical
    dsimp only at hcanonical
    obtain ⟨names, hlook, hfound⟩ := except_bind_eq_ok.mp hmetadata
    obtain ⟨found, hnode⟩ := exists_at?_of_lookUp hlook
    rw [hnode] at hfound
    obtain rfl := Except.ok.inj hfound
    split at hcanonical
    · cases hcanonical
    · split at hcanonical
      · cases hcanonical
      · rename_i hlink hdir
        rw [Bool.not_eq_true', Bool.not_eq_false] at hdir
        have hfollow := lookUp_follow hlook hnode (by simpa using hlink)
        have heq : canonicalize disk supplied = .ok (absolutePath names) := by
          rw [canonicalize, hfollow]
          rfl
        rw [heq] at hcanonical
        exact ⟨names, found, (Except.ok.inj hcanonical).symm, hnode, hdir, hfollow⟩

theorem absolutePath_injective : Function.Injective absolutePath := by
  intro names others h
  have hprefix := (pathStartsWith_absolutePath names names).mpr (List.prefix_refl names)
  have hboth : names <+: others ∧ others <+: names := by
    constructor
    · rw [← pathStartsWith_absolutePath, ← h]
      exact hprefix
    · rw [← pathStartsWith_absolutePath, ← h]
      exact hprefix
  exact hboth.1.eq_of_length (Nat.le_antisymm hboth.1.length_le hboth.2.length_le)

-- where a report comes from

theorem directoryOf_eq_ok {result : Except Failure (List FileName)} {names : List FileName}
    (h : directoryOf disk result = .ok names) :
    result = .ok names ∧ ∃ entries, disk.at? names = some (.directory entries) := by
  unfold directoryOf at h
  split at h
  · cases h
  · cases h
  · split at h
    · rename_i hnode
      obtain rfl := Except.ok.inj h
      exact ⟨rfl, _, hnode⟩
    all_goals cases h

theorem answerFor_eq_ok {names names' : List FileName}
    (h : answerFor disk root names = .ok names') :
    names' = names ∧ root <+: names ∧ ∃ entries, disk.at? names = some (.directory entries) ∧
      ∀ entry ∈ entries, entry.2.isSymlink = false := by
  unfold answerFor at h
  split at h
  · cases h
  · rename_i hprefix
    rw [not_not] at hprefix
    split at h
    · rename_i entries hnode
      split at h
      · cases h
      · rename_i hnone
        rw [List.any_eq_true, not_exists] at hnone
        refine ⟨(Except.ok.inj h).symm, hprefix, entries, hnode, fun entry hentry => ?_⟩
        exact Bool.eq_false_iff.mpr fun hlink => hnone entry ⟨hentry, hlink⟩
    · cases h

/-- What lets a request through. -/
theorem inside_of_resolve {supplied canonical dir : String}
    (h : resolveEvidenceDirInRoots disk supplied canonical value = .ok dir) :
    trim (value.getD "release-evidence") ≠ "" ∧
      evidenceDirPathBoundary supplied canonical (trim (value.getD "release-evidence")) =
        .insideRoot := by
  unfold resolveEvidenceDirInRoots at h
  dsimp only at h
  split at h
  · cases h
  rename_i hempty
  rw [String.isEmpty_iff] at hempty
  obtain ⟨⟨⟩, -, h⟩ := except_bind_eq_ok.mp h
  obtain ⟨⟨⟩, hboundary, -⟩ := except_bind_eq_ok.mp h
  refine ⟨hempty, ?_⟩
  unfold rejectBoundaryEscapeOrParentTraversal at hboundary
  cases hinside : evidenceDirPathBoundary supplied canonical
      (trim (value.getD "release-evidence")) with
  | insideRoot => rfl
  | insideRootWithParentTraversal =>
    rw [hinside] at hboundary
    cases hboundary
  | outsideRoot =>
    rw [hinside] at hboundary
    cases hboundary

theorem resolve_eq_ok {dir : String} (hroots : RootedAt disk roots root node)
    (h : resolveEvidenceDirInRoots disk roots.supplied roots.canonical value = .ok dir) :
    .parentDir ∉ components (trim (value.getD "release-evidence")) ∧
      ∃ names entries, dir = absolutePath (root ++ names) ∧
        disk.at? (root ++ names) = some (.directory entries) ∧
        ∀ entry ∈ entries, entry.2.isSymlink = false := by
  obtain ⟨hne, hinside⟩ := inside_of_resolve h
  refine ⟨evidenceDirPathBoundary_of_inside hinside, ?_⟩
  rw [hroots.canonical] at h hinside
  rw [resolve_eq rfl hne hinside] at h
  cases hanswer : (directoryOf disk (lookUp disk false (joinRequested (absolutePath root)
      (trim (value.getD "release-evidence")))) >>= answerFor disk root) with
  | error e =>
    rw [hanswer] at h
    cases h
  | ok names =>
    rw [hanswer] at h
    obtain rfl := Except.ok.inj h
    obtain ⟨found, -, hanswer⟩ := except_bind_eq_ok.mp hanswer
    obtain ⟨rfl, ⟨inner, rfl⟩, entries, hentries, hlinks⟩ := answerFor_eq_ok hanswer
    exact ⟨inner, entries, rfl, hentries, hlinks⟩

-- the ways to write a request

/-- The request is the path below the root, or that path after the root's own path, as it was
    supplied or as it is. -/
inductive Spells (roots : StartupEvidenceRoot) (rest : String) : String → Prop
  | relative : Spells roots rest rest
  | canonical : Spells roots rest (roots.canonical ++ "/" ++ rest)
  | supplied (habsolute : isAbsolute roots.supplied = true)
    (hparent : ".." ∉ splitAt '/' roots.supplied) :
    Spells roots rest (roots.supplied ++ "/" ++ rest)

/-- A path below a directory. -/
structure RelativePath (rest : String) : Prop where
  ne_empty : rest ≠ ""
  relative : isAbsolute rest = false
  parent : ".." ∉ splitAt '/' rest
  null : '\x00' ∉ rest.toList

theorem dots_notMem_absolutePath (names : List FileName) :
    ".." ∉ splitAt '/' (absolutePath names) := by
  intro hmem
  have hparent := parentDir_mem_components_iff.mpr hmem
  rw [components_absolutePath, List.mem_cons] at hparent
  rcases hparent with h | h
  · cases h
  · obtain ⟨name, -, hname⟩ := List.mem_map.mp h
    cases hname

theorem Spells.inside (hroots : RootedAt disk roots root node) (hrest : RelativePath rest)
    (h : Spells roots rest requested) :
    evidenceDirPathBoundary roots.supplied roots.canonical requested = .insideRoot := by
  have hbest : ∀ path, isAbsolute path = true → ".." ∉ splitAt '/' path →
      (path = roots.supplied ∨ path = roots.canonical) →
      evidenceDirPathBoundary roots.supplied roots.canonical (path ++ "/" ++ rest) =
        .insideRoot := by
    intro path habsolute hparent hpath
    have hbelow := absoluteBoundary_below habsolute hparent hrest.parent
    unfold evidenceDirPathBoundary
    rw [if_pos (isAbsolute_append (isAbsolute_append habsolute _) _), bestAbsolute_eq_insideRoot]
    rcases hpath with rfl | rfl
    · exact .inl hbelow
    · exact .inr hbelow
  cases h with
  | relative => exact evidenceDirPathBoundary_relative hrest.relative hrest.parent
  | canonical =>
    refine hbest _ ?_ ?_ (.inr rfl)
    · rw [hroots.canonical]
      exact isAbsolute_absolutePath root
    · rw [hroots.canonical]
      exact dots_notMem_absolutePath root
  | supplied habsolute hparent => exact hbest _ habsolute hparent (.inl rfl)

theorem Spells.ne_empty (hrest : RelativePath rest) (h : Spells roots rest requested) :
    requested ≠ "" := by
  have happend : ∀ path, path ++ "/" ++ rest ≠ "" := by
    intro path heq
    exact hrest.ne_empty (String.append_eq_empty_iff.mp heq).2
  cases h with
  | relative => exact hrest.ne_empty
  | canonical => exact happend _
  | supplied => exact happend _

/-- The steps of the root as it was supplied lead to the root. -/
theorem leads_supplied (hroots : RootedAt disk roots root node) :
    Leads disk true maxSymlinks [] (innerSteps (splitAt '/' roots.supplied)) root := by
  obtain ⟨-, hleads⟩ := lookUp_eq_ok.mp hroots.supplied
  obtain ⟨last, hsteps, hlast⟩ := innerSteps_append_last roots.supplied
  rw [hsteps] at hleads
  rcases hlast with rfl | rfl
  · rwa [List.append_nil] at hleads
  · exact leads_of_concat_self hleads

theorem leads_canonical (hroots : RootedAt disk roots root node) :
    Leads disk true maxSymlinks [] (root.map .name) root := by
  have hlink := Node.isSymlink_of_isDirectory hroots.directory
  have hleads : Leads disk true maxSymlinks [] (root.map .name) ([] ++ root) :=
    leads_names hroots.found hlink
  exact hleads

/-- Each way to write a request leads to the root first. -/
theorem Spells.steps (hroots : RootedAt disk roots root node) (hrest : RelativePath rest)
    (h : Spells roots rest requested) :
    (joinRequested roots.canonical requested).toList.contains '\x00' = false ∧
      ∃ first, Leads disk true maxSymlinks [] first root ∧
        kernelSteps (joinRequested roots.canonical requested) = first ++ kernelSteps rest := by
  have hnull : ∀ path : String, path.toList.contains '\x00' = false →
      (path ++ "/" ++ rest).toList.contains '\x00' = false := by
    intro path hpath
    rw [Bool.eq_false_iff, ne_eq, List.contains_iff_mem] at hpath ⊢
    rw [String.toList_append, String.toList_append, List.mem_append, List.mem_append, not_or,
      not_or]
    exact ⟨⟨hpath, by decide⟩, hrest.null⟩
  have hcanonicalNull : roots.canonical.toList.contains '\x00' = false := by
    rw [hroots.canonical]
    exact null_notMem_absolutePath root
  cases h with
  | relative =>
    rw [joinRequested_relative hrest.relative]
    constructor
    · unfold joinPath
      split
      · rw [Bool.eq_false_iff, ne_eq, List.contains_iff_mem] at hcanonicalNull ⊢
        rw [String.toList_append, List.mem_append, not_or]
        exact ⟨hcanonicalNull, hrest.null⟩
      · exact hnull _ hcanonicalNull
    · rw [hroots.canonical, kernelSteps_join]
      exact ⟨_, leads_canonical hroots, rfl⟩
  | canonical =>
    have habsolute : isAbsolute (roots.canonical ++ "/" ++ rest) = true := by
      refine isAbsolute_append (isAbsolute_append ?_ _) _
      rw [hroots.canonical]
      exact isAbsolute_absolutePath root
    rw [joinRequested, if_pos habsolute, kernelSteps_slash_append]
    refine ⟨hnull _ hcanonicalNull, _, leads_canonical hroots, ?_⟩
    rw [hroots.canonical, innerSteps_absolutePath]
  | supplied habsolute hparent =>
    rw [joinRequested, if_pos (isAbsolute_append (isAbsolute_append habsolute _) _),
      kernelSteps_slash_append]
    exact ⟨hnull _ (lookUp_eq_ok.mp hroots.supplied).1, _, leads_supplied hroots, rfl⟩

-- requests that take no link

theorem at?_below (hroots : RootedAt disk roots root node) (names : List FileName) :
    disk.at? (root ++ names) = node.at? names := by
  rw [Node.at?_append, hroots.found]
  rfl

theorem directoryOf_below (hroots : RootedAt disk roots root node)
    (result : Except Failure (List FileName)) :
    directoryOf disk (result.map (root ++ ·)) = (directoryOf node result).map (root ++ ·) := by
  cases result with
  | error failure => cases failure <;> rfl
  | ok names =>
    show directoryOf disk (.ok (root ++ names)) = _
    unfold directoryOf
    dsimp only
    rw [at?_below hroots]
    cases node.at? names with
    | none => rfl
    | some inner => cases inner <;> rfl

theorem answerFor_below (hroots : RootedAt disk roots root node) (names : List FileName) :
    answerFor disk root (root ++ names) = (answerFor node [] names).map (root ++ ·) := by
  unfold answerFor
  rw [if_neg (not_not.mpr (List.prefix_append root names)),
    if_neg (not_not.mpr (List.nil_prefix)), at?_below hroots]
  cases node.at? names with
  | none => rfl
  | some inner =>
    cases inner with
    | file contents => rfl
    | symlink target => rfl
    | directory entries =>
      dsimp only
      cases entries.any fun entry => entry.2.isSymlink <;> rfl

/-- A request that takes no link is answered by what is at the root alone. -/
theorem Spells.resolve (hroots : RootedAt disk roots root node) (hrest : RelativePath rest)
    (h : Spells roots rest requested)
    (hvalue : trim (value.getD "release-evidence") = requested)
    {result : Except Failure (List FileName)}
    (hreach : node.reach (kernelSteps rest) = some result) :
    resolveEvidenceDirInRoots disk roots.supplied roots.canonical value =
      (directoryOf node result >>= answerFor node []).map fun names =>
        absolutePath (root ++ names) := by
  obtain ⟨hnull, first, hfirst, hsteps⟩ := h.steps hroots hrest
  have hlook : lookUp disk false (joinRequested roots.canonical requested) =
      result.map (root ++ ·) := by
    unfold lookUp
    rw [hnull, if_neg Bool.false_ne_true, hsteps]
    obtain ⟨left, -, hwalk⟩ := walk_append hfirst (kernelSteps_ne_nil rest) false
    exact hwalk.trans (walk_of_reach hroots.found hreach)
  have hinside := h.inside hroots hrest
  rw [hroots.canonical] at hlook hinside ⊢
  rw [resolve_eq hvalue (h.ne_empty hrest) hinside, hlook, directoryOf_below hroots]
  cases directoryOf node result with
  | error e => rfl
  | ok names =>
    show (answerFor disk root (root ++ names)).map absolutePath = _
    rw [answerFor_below hroots]
    show _ = (answerFor node [] names).map _
    cases answerFor node [] names <;> rfl

theorem RootedAt.unique {root' : List FileName} {node' : Disk α}
    (h : RootedAt disk roots root node) (hcanonical : roots.canonical = absolutePath root')
    (hnode : disk.at? root' = some node') : root = root' ∧ node = node' := by
  obtain rfl := absolutePath_injective (h.canonical.symm.trans hcanonical)
  exact ⟨rfl, Option.some.inj (h.found.symm.trans hnode)⟩

theorem rooted_at (hroots : startupEvidenceRoot disk currentDir rootValue = .ok roots)
    (hcanonical : roots.canonical = absolutePath root) (hnode : disk.at? root = some node) :
    RootedAt disk roots root node := by
  obtain ⟨root', node', hrooted⟩ := rooted_of_startup hroots
  obtain ⟨rfl, rfl⟩ := hrooted.unique hcanonical hnode
  exact hrooted

-- what an answer depends on

/-- The request is rejected by its text, or takes no link below the root. -/
def LinkFree (roots : StartupEvidenceRoot) (node : Disk α) (requested : String) : Prop :=
  requested = "" ∨
    evidenceDirPathBoundary roots.supplied roots.canonical requested ≠ .insideRoot ∨
    ∃ rest, RelativePath rest ∧ Spells roots rest requested ∧
      (node.reach (kernelSteps rest)).isSome = true

theorem bind_of_error {ε β γ : Type} (e : ε) (f : β → Except ε γ) :
    (Except.error e >>= f) = .error e := rfl

theorem bind_of_ok {ε β γ : Type} (b : β) (f : β → Except ε γ) :
    (Except.ok b >>= f) = f b := rfl

theorem resolve_of_rejected {supplied canonical : String}
    (h : trim (value.getD "release-evidence") = "" ∨
      evidenceDirPathBoundary supplied canonical (trim (value.getD "release-evidence")) ≠
        .insideRoot) :
    resolveEvidenceDirInRoots disk supplied canonical value =
      resolveEvidenceDirInRoots disk' supplied canonical value := by
  unfold resolveEvidenceDirInRoots
  dsimp only
  by_cases hempty : (trim (value.getD "release-evidence")).isEmpty = true
  · rw [if_pos hempty, if_pos hempty]
    exact (bind_of_error _ _).trans (bind_of_error _ _).symm
  · rw [if_neg hempty, if_neg hempty]
    have hboundary := h.resolve_left (mt String.isEmpty_iff.mpr hempty)
    have herror : ∃ e, rejectBoundaryEscapeOrParentTraversal supplied canonical
        (trim (value.getD "release-evidence")) = .error e := by
      unfold rejectBoundaryEscapeOrParentTraversal
      cases hcase : evidenceDirPathBoundary supplied canonical
          (trim (value.getD "release-evidence")) with
      | insideRoot => exact absurd hcase hboundary
      | insideRootWithParentTraversal => exact ⟨_, rfl⟩
      | outsideRoot => exact ⟨_, rfl⟩
    obtain ⟨e, herror⟩ := herror
    rw [herror, bind_of_error, bind_of_error]

theorem resolve_local (hroots : RootedAt disk roots root node)
    (hroots' : RootedAt disk' roots root node)
    (h : LinkFree roots node (trim (value.getD "release-evidence"))) :
    resolveEvidenceDirInRoots disk roots.supplied roots.canonical value =
      resolveEvidenceDirInRoots disk' roots.supplied roots.canonical value := by
  rcases h with hempty | hboundary | ⟨rest, hrest, hspells, hreach⟩
  · exact resolve_of_rejected (.inl hempty)
  · exact resolve_of_rejected (.inr hboundary)
  · obtain ⟨result, hresult⟩ := Option.isSome_iff_exists.mp hreach
    rw [hspells.resolve hroots hrest rfl hresult, hspells.resolve hroots' hrest rfl hresult]

variable {defaultMaxAgeDays : Int}
  {validate : List (FileName × Disk α) → Int → Except ReleaseEvidenceError ρ} {isReady : ρ → Bool}

theorem report_local {request : EvidenceDirectoryRequest} (hroots : RootedAt disk roots root node)
    (hroots' : RootedAt disk' roots root node)
    (h : LinkFree roots node (trim (request.evidenceDir.getD "release-evidence"))) :
    releaseEvidenceReportForRoots disk defaultMaxAgeDays validate roots request =
      releaseEvidenceReportForRoots disk' defaultMaxAgeDays validate roots request := by
  unfold releaseEvidenceReportForRoots
  have hresolve := resolve_local hroots hroots' h
  cases hdir : resolveEvidenceDirInRoots disk roots.supplied roots.canonical
      request.evidenceDir with
  | error e =>
    rw [← hresolve, hdir]
    rfl
  | ok dir =>
    obtain ⟨-, names, entries, rfl, hentries, -⟩ := resolve_eq_ok hroots hdir
    have hentries' : disk'.at? (root ++ names) = some (.directory entries) := by
      rw [at?_below hroots']
      rw [at?_below hroots] at hentries
      exact hentries
    have hcheck : checkReleaseEvidence disk validate (absolutePath (root ++ names))
        (request.maxAgeDays.getD defaultMaxAgeDays) =
        checkReleaseEvidence disk' validate (absolutePath (root ++ names))
          (request.maxAgeDays.getD defaultMaxAgeDays) := by
      unfold checkReleaseEvidence
      rw [readDir_absolutePath hentries, readDir_absolutePath hentries']
    rw [← hresolve, hdir]
    dsimp only [bind, Except.bind]
    rw [hcheck]

/-- The status of a directory that is found and can be validated. -/
theorem evidenceStatus_of_resolve {arguments : List (String × Json)}
    {request : EvidenceDirectoryRequest} {dir : String} {entries : List (FileName × Disk α)}
    {report : ρ} (hrequest : parseEvidenceDirectoryRequest arguments = .ok request)
    (hdir : resolveEvidenceDirInRoots disk roots.supplied roots.canonical request.evidenceDir =
      .ok dir) (hread : readDir disk dir = .ok entries)
    (hdays : 1 ≤ request.maxAgeDays.getD defaultMaxAgeDays ∧
      request.maxAgeDays.getD defaultMaxAgeDays ≤ 365)
    (hvalid : validate entries (request.maxAgeDays.getD defaultMaxAgeDays) = .ok report) :
    evidenceStatus disk defaultMaxAgeDays validate roots arguments = .summary report := by
  have hreport : evidenceReport disk defaultMaxAgeDays validate roots arguments = .ok report := by
    refine except_bind_eq_ok.mpr ⟨request, hrequest, except_bind_eq_ok.mpr ⟨dir, hdir, ?_⟩⟩
    rw [checkReleaseEvidence, if_neg (not_not.mpr hdays), hread]
    dsimp only
    rw [hvalid]
    rfl
  rw [evidenceStatus, hreport]

-- requests through a link

/-- The path of some names from a directory. -/
def relativePath (names : List FileName) : String := "/".intercalate (names.map Subtype.val)

theorem splitAt_relativePath {names : List FileName} (hne : names ≠ []) :
    splitAt '/' (relativePath names) = names.map Subtype.val := by
  refine splitAt_path (mt List.map_eq_nil_iff.mp hne) fun name hname => ?_
  obtain ⟨fileName, -, rfl⟩ := List.mem_map.mp hname
  exact fileName.property.1

theorem isAbsolute_iff_head {path : String} (h : isAbsolute path = true) :
    (splitAt '/' path).head? = some "" := by
  rw [isAbsolute, decide_eq_true_eq] at h
  obtain ⟨rest, hrest⟩ : ∃ rest, path.toList = '/' :: rest := by
    cases hchars : path.toList with
    | nil =>
      rw [hchars] at h
      cases h
    | cons c cs =>
      rw [hchars] at h
      obtain rfl := Option.some.inj h
      exact ⟨cs, rfl⟩
  have hsplit := splitChars_append_cons '/' [] rest
  rw [List.nil_append] at hsplit
  rw [splitAt, hrest, hsplit]
  rfl

theorem relativePath_relativePath {names : List FileName} (hne : names ≠ []) :
    RelativePath (relativePath names) := by
  have hsplit := splitAt_relativePath hne
  obtain ⟨name, rest, rfl⟩ := List.exists_cons_of_ne_nil hne
  refine ⟨?_, ?_, ?_, null_notMem_intercalate _⟩
  · intro hempty
    rw [hempty] at hsplit
    exact name.property.1.1 (List.cons_eq_cons.mp hsplit).1.symm
  · rw [Bool.eq_false_iff]
    intro habsolute
    have hhead := isAbsolute_iff_head habsolute
    rw [hsplit] at hhead
    exact name.property.1.1 (Option.some.inj hhead)
  · rw [hsplit]
    intro hmem
    obtain ⟨fileName, -, hdots⟩ := List.mem_map.mp hmem
    exact fileName.property.1.2.2.1 hdots

theorem kernelSteps_relativePath {names : List FileName} (hne : names ≠ []) :
    kernelSteps (relativePath names) = names.map .name := by
  rw [kernelSteps, splitAt_relativePath hne, kernelStepsOfParts_names hne]

/-- A path that starts with a link in the root goes on where the link leads. -/
theorem lookUp_link {link : FileName} {target : Target FileName} {there : List FileName}
    {path : String} {steps : List (Step FileName)} (hroots : RootedAt disk roots root node)
    (hlink : node.child? link = some (.symlink target))
    (htarget : Leads disk true (maxSymlinks - 1) (if target.absolute then [] else root)
      target.steps there)
    (hnull : path.toList.contains '\x00' = false)
    (hsteps : kernelSteps path = root.map .name ++ .name link :: steps) (hne : steps ≠ []) :
    ∃ left, lookUp disk false path = walk disk false left there steps := by
  have hroot : disk.at? ([] ++ root) = some node := hroots.found
  obtain ⟨left, -, hwalk⟩ := walk_append htarget hne false
  refine ⟨left, ?_⟩
  unfold lookUp
  rw [hnull, if_neg Bool.false_ne_true, hsteps,
    FileSystem.walk_names hroot (Node.isSymlink_of_isDirectory hroots.directory),
    List.nil_append, walk_link hroots.found hlink (.inl hne)]
  exact hwalk

theorem null_join (hroots : RootedAt disk roots root node) (hrest : RelativePath rest) :
    (joinPath (absolutePath root) rest).toList.contains '\x00' = false := by
  have hnull := ((Spells.relative : Spells roots rest rest).steps hroots hrest).1
  rw [joinRequested_relative hrest.relative, hroots.canonical] at hnull
  exact hnull

theorem kernelSteps_slash (link : FileName) :
    kernelSteps (link.val ++ "/") = [.name link, .self] := by
  have hslash : link.val ++ "/" = link.val ++ "/" ++ "" := (String.append_empty).symm
  have hsplit : splitAt '/' link.val = [link.val] :=
    splitAt_relativePath (List.cons_ne_nil link [])
  have hempty : kernelSteps "" = [.self] := by decide
  rw [hslash, kernelSteps_slash_append, hsplit, hempty, innerSteps_cons,
    if_neg link.property.1.1, kernelStep_name]
  rfl

theorem relativePath_slash (link : FileName) : RelativePath (link.val ++ "/") := by
  have hslash : link.val ++ "/" = link.val ++ "/" ++ "" := (String.append_empty).symm
  have hsplit : splitAt '/' (link.val ++ "/") = [link.val, ""] := by
    have hlink : splitAt '/' link.val = [link.val] :=
      splitAt_relativePath (List.cons_ne_nil link [])
    rw [hslash, splitAt_slash_append, hlink]
    rfl
  refine ⟨?_, ?_, ?_, ?_⟩
  · intro hempty
    exact link.property.1.1 (String.append_eq_empty_iff.mp hempty).1
  · rw [Bool.eq_false_iff]
    intro habsolute
    have hhead := isAbsolute_iff_head habsolute
    rw [hsplit] at hhead
    exact link.property.1.1 (Option.some.inj hhead)
  · rw [hsplit, List.mem_cons, List.mem_singleton, not_or]
    exact ⟨fun heq => link.property.1.2.2.1 heq.symm, by decide⟩
  · rw [String.toList_append, List.mem_append, not_or]
    exact ⟨link.property.2, by decide⟩

/-- What the answer says of what it finds outside the root. -/
def outsideError : Option (Disk α) → McpEvidenceRequestError
  | none => .missingEvidenceDir
  | some (.file _) => .nonDirectoryEvidenceDir
  | some (.symlink _) => .symlinkedEvidenceDir
  | some (.directory _) => .outsideAllowlistedRoot

end roots

namespace Sample

def evidenceRootName : FileName := ⟨"srv", by decide⟩

def settingsDir : FileName := ⟨"etc", by decide⟩

def settingsFile : FileName := ⟨"passwd", by decide⟩

def settingsLink : FileName := ⟨"settings", by decide⟩

def latestLink : FileName := ⟨"latest", by decide⟩

def defaultChild : FileName := ⟨"release-evidence", by decide⟩

/-- A directory of evidence, a link to it, and a link to the directory outside. -/
def evidenceRootNode : Disk Unit := .directory [
  (defaultChild, .directory [(⟨"plan.json", by decide⟩, .file ())]),
  (latestLink, .symlink ⟨false, [.name defaultChild]⟩),
  (settingsLink, .symlink ⟨true, [.name settingsDir]⟩)]

/-- The root, and a directory outside it. -/
def evidenceDisk (outside : List (FileName × Disk Unit)) : Disk Unit :=
  .directory [
    (settingsDir, .directory outside),
    (evidenceRootName, evidenceRootNode)]

def evidenceRoots : StartupEvidenceRoot := ⟨"/srv", "/srv"⟩

def countEntries (entries : List (FileName × Disk Unit)) (_ : Int) :
    Except ReleaseEvidenceError ℕ := .ok entries.length

theorem rooted_evidenceDisk (outside : List (FileName × Disk Unit)) :
    RootedAt (evidenceDisk outside) evidenceRoots [evidenceRootName] evidenceRootNode :=
  ⟨rfl, rfl, rfl, rfl⟩

theorem relativePath_default : RelativePath "release-evidence" :=
  ⟨by decide, by decide, by decide, by decide⟩

theorem default_found (outside : List (FileName × Disk Unit)) :
    resolveEvidenceDirInRoots (evidenceDisk outside) evidenceRoots.supplied
      evidenceRoots.canonical none = .ok (absolutePath [evidenceRootName, defaultChild]) :=
  Spells.relative.resolve (rooted_evidenceDisk outside) relativePath_default
    (by decide : trim (none.getD "release-evidence") = "release-evidence") rfl

theorem startup_evidenceDisk (outside : List (FileName × Disk Unit)) :
    startupEvidenceRoot (evidenceDisk outside) none (some "/srv") = .ok evidenceRoots := rfl

end Sample

open Sample

-- the answer to a request that takes no link

/-- Both tools report on a directory at or below the root, without links among its entries,
    and the request has no parent in it. -/
theorem evidence_stays_below {α ρ : Type} {disk : Disk α} {roots : StartupEvidenceRoot}
    {currentDir rootValue : Option String} {defaultMaxAgeDays : Int}
    {validate : List (FileName × Disk α) → Int → Except ReleaseEvidenceError ρ}
    {arguments : List (String × Json)} {report : ρ} (isReady : ρ → Bool)
    (hroots : startupEvidenceRoot disk currentDir rootValue = .ok roots)
    (h : evidenceStatus disk defaultMaxAgeDays validate roots arguments = .summary report ∨
      evidenceCheck disk defaultMaxAgeDays validate isReady roots arguments = .summary report ∨
      evidenceCheck disk defaultMaxAgeDays validate isReady roots arguments =
        .incomplete report) :
    ∃ root names entries request days, roots.canonical = absolutePath root ∧
      disk.at? (root ++ names) = some (.directory entries) ∧
      (∀ entry ∈ entries, entry.2.isSymlink = false) ∧
      parseEvidenceDirectoryRequest arguments = .ok request ∧
      .parentDir ∉ components (trim (request.evidenceDir.getD "release-evidence")) ∧
      1 ≤ days ∧ days ≤ 365 ∧ validate entries days = .ok report := by
  have hreport : evidenceReport disk defaultMaxAgeDays validate roots arguments = .ok report := by
    cases hcase : evidenceReport disk defaultMaxAgeDays validate roots arguments with
    | error e =>
      unfold evidenceStatus evidenceCheck at h
      rw [hcase] at h
      rcases h with h | h | h <;> cases h
    | ok found =>
      unfold evidenceStatus evidenceCheck at h
      rw [hcase] at h
      dsimp only at h
      rcases h with h | h | h
      · rw [CallToolResult.summary.inj h]
      · split at h
        · rw [CallToolResult.summary.inj h]
        · cases h
      · split at h
        · cases h
        · rw [CallToolResult.incomplete.inj h]
  obtain ⟨root, node, hrooted⟩ := rooted_of_startup hroots
  obtain ⟨request, hrequest, hreport⟩ := except_bind_eq_ok.mp hreport
  obtain ⟨dir, hdir, hcheck⟩ := except_bind_eq_ok.mp hreport
  obtain ⟨hparent, names, entries, rfl, hentries, hlinks⟩ := resolve_eq_ok hrooted hdir
  refine ⟨root, names, entries, request, request.maxAgeDays.getD defaultMaxAgeDays,
    hrooted.canonical, hentries, hlinks, hrequest, hparent, ?_⟩
  unfold checkReleaseEvidence at hcheck
  rw [readDir_absolutePath hentries] at hcheck
  by_cases hdays : 1 ≤ request.maxAgeDays.getD defaultMaxAgeDays ∧
      request.maxAgeDays.getD defaultMaxAgeDays ≤ 365
  · rw [if_neg (not_not.mpr hdays)] at hcheck
    refine ⟨hdays.1, hdays.2, ?_⟩
    dsimp only at hcheck
    cases hvalid : validate entries (request.maxAgeDays.getD defaultMaxAgeDays) with
    | error e =>
      rw [hvalid] at hcheck
      cases hcheck
    | ok found =>
      rw [hvalid] at hcheck
      rw [Except.ok.inj hcheck]
  · rw [if_pos hdays] at hcheck
    cases hcheck

/-- The report on the default directory is on what is in it. -/
theorem default_stays_below : ∃ root names entries request days,
    evidenceRoots.canonical = absolutePath root ∧
    (evidenceDisk []).at? (root ++ names) = some (.directory entries) ∧
    (∀ entry ∈ entries, entry.2.isSymlink = false) ∧
    parseEvidenceDirectoryRequest [] = .ok request ∧
    .parentDir ∉ components (trim (request.evidenceDir.getD "release-evidence")) ∧
    1 ≤ days ∧ days ≤ 365 ∧ countEntries entries days = .ok 1 := by
  have hstatus : evidenceStatus (evidenceDisk []) 30 countEntries evidenceRoots [] = .summary 1 :=
    evidenceStatus_of_resolve rfl (default_found []) (readDir_absolutePath rfl) (by decide)
      (rfl : countEntries [(⟨"plan.json", by decide⟩, .file ())] 30 = .ok 1)
  exact evidence_stays_below (fun _ => true) (startup_evidenceDisk []) (.inl hstatus)

-- what an answer depends on

/-- A link in the root that leads to a directory outside it makes the answer tell what is
    there, and in the directories below. -/
theorem link_tells {α : Type} {disk node inner : Disk α} {roots : StartupEvidenceRoot}
    {root there names : List FileName} {link last : FileName} {target : Target FileName}
    {currentDir rootValue value : Option String}
    (hroots : startupEvidenceRoot disk currentDir rootValue = .ok roots)
    (hcanonical : roots.canonical = absolutePath root) (hnode : disk.at? root = some node)
    (hlink : node.child? link = some (.symlink target))
    (htarget : Leads disk true (maxSymlinks - 1) (if target.absolute then [] else root)
      target.steps there)
    (hinner : disk.at? (there ++ names) = some inner) (hdirectory : inner.isDirectory = true)
    (houtside : ¬root <+: there ++ names ++ [last])
    (hvalue : trim (value.getD "release-evidence") = relativePath (link :: names ++ [last])) :
    resolveEvidenceDirInRoots disk roots.supplied roots.canonical value =
      .error (outsideError (inner.child? last)) := by
  have hrooted := rooted_at hroots hcanonical hnode
  have hne : link :: names ++ [last] ≠ [] := List.cons_ne_nil _ _
  have hrest := relativePath_relativePath hne
  have hlast : (names ++ [last]).map Step.name ≠ [] := by simp
  have hsteps : kernelSteps
      (joinPath (absolutePath root) (relativePath (link :: names ++ [last]))) =
      root.map .name ++ .name link :: (names ++ [last]).map .name := by
    rw [kernelSteps_join, kernelSteps_relativePath hne]
    rfl
  obtain ⟨left, hlook⟩ :=
    lookUp_link hrooted hlink htarget (null_join hrooted hrest) hsteps hlast
  rw [Node.at?_append] at hinner
  obtain ⟨outer, houter, hnames⟩ := Option.bind_eq_some_iff.mp hinner
  rw [walk_of_reach houter (reach_names hnames hdirectory last)] at hlook
  rw [hcanonical, resolve_eq hvalue hrest.ne_empty
    (evidenceDirPathBoundary_relative hrest.relative hrest.parent),
    joinRequested_relative hrest.relative, hlook]
  have hfound : disk.at? (there ++ (names ++ [last])) = inner.child? last := by
    rw [← List.append_assoc, Node.at?_concat]
    rw [Node.at?_append, houter]
    exact hnames
  cases hchild : inner.child? last with
  | none => rfl
  | some child =>
    have hok : (if (some child).isSome = true then Except.ok (names ++ [last])
        else Except.error Failure.notFound) = .ok (names ++ [last]) := rfl
    rw [hok]
    show ((directoryOf disk (.ok (there ++ (names ++ [last]))) >>= answerFor disk root).map
      absolutePath) = _
    rw [hchild] at hfound
    unfold directoryOf
    dsimp only
    rw [hfound]
    cases child with
    | file contents => rfl
    | symlink target => rfl
    | directory entries =>
      show (answerFor disk root (there ++ (names ++ [last]))).map absolutePath = _
      rw [answerFor, if_pos (by rwa [← List.append_assoc])]
      rfl

/-- The link tells whether the file outside is there. -/
theorem settings_tells :
    resolveEvidenceDirInRoots (evidenceDisk []) evidenceRoots.supplied evidenceRoots.canonical
        (some "settings/passwd") = .error .missingEvidenceDir ∧
      resolveEvidenceDirInRoots (evidenceDisk [(settingsFile, .file ())]) evidenceRoots.supplied
        evidenceRoots.canonical (some "settings/passwd") = .error .nonDirectoryEvidenceDir := by
  have htells : ∀ outside, resolveEvidenceDirInRoots (evidenceDisk outside)
      evidenceRoots.supplied evidenceRoots.canonical (some "settings/passwd") =
        .error (outsideError ((Node.directory outside).child? settingsFile)) := by
    intro outside
    have htarget : Leads (evidenceDisk outside) true (maxSymlinks - 1) []
        ([settingsDir].map .name) ([] ++ [settingsDir]) :=
      leads_names (rfl : (evidenceDisk outside).at? [settingsDir] = some (.directory outside)) rfl
    exact link_tells (startup_evidenceDisk outside) (rfl : _ = absolutePath [evidenceRootName]) rfl
      (rfl : evidenceRootNode.child? settingsLink = some (.symlink ⟨true, [.name settingsDir]⟩))
      htarget (rfl : (evidenceDisk outside).at? ([] ++ [settingsDir] ++ []) =
        some (.directory outside)) rfl (by decide)
      (by decide : trim ((some "settings/passwd").getD "release-evidence") =
        relativePath (settingsLink :: [] ++ [settingsFile]))
  exact ⟨htells [], htells [(settingsFile, .file ())]⟩

end CairnId
