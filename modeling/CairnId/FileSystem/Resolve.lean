import Mathlib.Data.List.Basic

/-!
# Resolution of paths

A file system is a tree of directories, files and symbolic links. A path is resolved from a
directory, one step after another. A link is replaced by what it points to, at most a given
number of times; a link that the path ends in may be left.

## Main definitions

- `Node`, `Node.at?` — a tree, and what is at names in it
- `walk` — what a path leads to
- `Node.reach` — a path in a tree that takes no link

## Main results

- `at?_of_walk` — what a path leads to is there
- `walk_of_reach` — a path without links is resolved in the tree it starts in
- `walk_append` — one path after another
- `walk_link` — a path through a link
-/

namespace FileSystem

inductive Step (ν : Type)
  | self
  | parent
  | name (n : ν)
  deriving DecidableEq

/-- What a link points to: from the root, or from the directory the link is in. -/
structure Target (ν : Type) where
  absolute : Bool
  steps : List (Step ν)

inductive Node (ν α : Type)
  | file (contents : α)
  | directory (entries : List (ν × Node ν α))
  | symlink (target : Target ν)

inductive Failure
  | notFound
  | notDirectory
  | loop
  | invalidInput
  deriving DecidableEq

variable {ν α : Type} [DecidableEq ν]

namespace Node

def isDirectory : Node ν α → Bool
  | directory _ => true
  | _ => false

def isSymlink : Node ν α → Bool
  | symlink _ => true
  | _ => false

def child? : Node ν α → ν → Option (Node ν α)
  | directory entries, n => (entries.find? fun entry => entry.1 = n).map Prod.snd
  | _, _ => none

def at? (node : Node ν α) : List ν → Option (Node ν α)
  | [] => some node
  | n :: names => (node.child? n).bind fun child => child.at? names

@[simp] theorem at?_nil (node : Node ν α) : node.at? [] = some node := rfl

@[simp] theorem at?_cons (node : Node ν α) (n : ν) (names : List ν) :
    node.at? (n :: names) = (node.child? n).bind fun child => child.at? names := rfl

theorem at?_append (node : Node ν α) (names others : List ν) :
    node.at? (names ++ others) = (node.at? names).bind fun inner => inner.at? others := by
  induction names generalizing node with
  | nil => rfl
  | cons n names ih =>
    rw [List.cons_append, at?_cons, at?_cons]
    cases node.child? n with
    | none => rfl
    | some child => exact ih child

theorem at?_concat {node inner : Node ν α} {names : List ν} (h : node.at? names = some inner)
    (n : ν) : node.at? (names ++ [n]) = inner.child? n := by
  rw [at?_append, h]
  show (inner.child? n).bind some = inner.child? n
  cases inner.child? n <;> rfl

theorem isDirectory_of_child? {node child : Node ν α} {n : ν} (h : node.child? n = some child) :
    node.isDirectory = true := by
  cases node with
  | directory entries => rfl
  | file contents => cases h
  | symlink target => cases h

/-- What is on the way to something is a directory. -/
theorem isDirectory_of_at? {node inner : Node ν α} {n : ν} {names : List ν}
    (h : node.at? (n :: names) = some inner) : node.isDirectory = true := by
  obtain ⟨child, hchild, -⟩ := Option.bind_eq_some_iff.mp h
  exact isDirectory_of_child? hchild

/-- What is above something that is there is a directory, or the root itself. -/
theorem at?_dropLast {node inner : Node ν α} {names : List ν} (h : node.at? names = some inner) :
    names = [] ∨ ∃ above, node.at? names.dropLast = some above ∧ above.isDirectory = true := by
  rcases List.eq_nil_or_concat names with rfl | ⟨before, n, rfl⟩
  · exact .inl rfl
  · right
    rw [List.concat_eq_append] at h ⊢
    rw [List.dropLast_concat]
    rw [at?_append] at h
    obtain ⟨above, habove, hn⟩ := Option.bind_eq_some_iff.mp h
    exact ⟨above, habove, isDirectory_of_at? hn⟩

omit [DecidableEq ν] in
theorem isSymlink_of_isDirectory {node : Node ν α} (h : node.isDirectory = true) :
    node.isSymlink = false := by
  cases node with
  | directory entries => rfl
  | file contents => rfl
  | symlink target => cases h

end Node

section walk

variable (root : Node ν α) (follow : Bool)

/-- The steps up to the first link to be followed, which is left to `next`. -/
def walkWith (next : List ν → List (Step ν) → Except Failure (List ν)) :
    List ν → List (Step ν) → Except Failure (List ν)
  | here, [] => .ok here
  | here, step :: steps => match root.at? here with
    | some (.directory entries) => match step with
      | .self => walkWith next here steps
      | .parent => walkWith next here.dropLast steps
      | .name n => match (Node.directory entries).child? n with
        | none => .error .notFound
        | some (.symlink target) =>
          if steps.isEmpty && !follow then .ok (here ++ [n])
          else next (if target.absolute then [] else here) (target.steps ++ steps)
        | some _ => walkWith next (here ++ [n]) steps
    | _ => .error .notDirectory

/-- What the steps lead to from the names `here`, when at most `links` links are followed. -/
def walk : ℕ → List ν → List (Step ν) → Except Failure (List ν)
  | 0 => walkWith root follow fun _ _ => .error .loop
  | links + 1 => walkWith root follow (walk links)

/-- How a walk goes on at a link. -/
def onLink : ℕ → List ν → List (Step ν) → Except Failure (List ν)
  | 0 => fun _ _ => .error .loop
  | links + 1 => walk root follow links

theorem walk_eq (links : ℕ) :
    walk root follow links = walkWith root follow (onLink root follow links) := by
  cases links <;> rfl

variable {root follow} {links : ℕ} {here : List ν} {steps : List (Step ν)}

@[simp] theorem walk_nil : walk root follow links here [] = .ok here := by
  rw [walk_eq, walkWith]

theorem walk_self {node : Node ν α} (h : root.at? here = some node)
    (hdir : node.isDirectory = true) :
    walk root follow links here (.self :: steps) = walk root follow links here steps := by
  cases node with
  | directory entries => rw [walk_eq, walkWith, h]
  | file contents => cases hdir
  | symlink target => cases hdir

theorem walk_parent {node : Node ν α} (h : root.at? here = some node)
    (hdir : node.isDirectory = true) :
    walk root follow links here (.parent :: steps) =
      walk root follow links here.dropLast steps := by
  cases node with
  | directory entries => rw [walk_eq, walkWith, h]
  | file contents => cases hdir
  | symlink target => cases hdir

theorem walk_of_not_isDirectory {step : Step ν}
    (h : ∀ node, root.at? here = some node → node.isDirectory = false) :
    walk root follow links here (step :: steps) = .error .notDirectory := by
  rw [walk_eq, walkWith]
  cases hnode : root.at? here with
  | none => rfl
  | some node =>
    cases node with
    | directory entries => exact absurd (h _ hnode) (Bool.false_ne_true ∘ Eq.symm)
    | file contents => rfl
    | symlink target => rfl

theorem walk_name_none {node : Node ν α} {n : ν} (h : root.at? here = some node)
    (hdir : node.isDirectory = true) (hchild : node.child? n = none) :
    walk root follow links here (.name n :: steps) = .error .notFound := by
  cases node with
  | directory entries => rw [walk_eq, walkWith, h]; dsimp only; rw [hchild]
  | file contents => cases hdir
  | symlink target => cases hdir

/-- A name of something that is no link, or of a link that is left, is taken. -/
theorem walk_name {node child : Node ν α} {n : ν} (h : root.at? here = some node)
    (hchild : node.child? n = some child)
    (hstays : child.isSymlink = false ∨ steps = [] ∧ follow = false) :
    walk root follow links here (.name n :: steps) =
      walk root follow links (here ++ [n]) steps := by
  cases node with
  | directory entries =>
    rw [walk_eq, walkWith, h]
    dsimp only
    rw [hchild]
    cases child with
    | symlink target =>
      obtain ⟨rfl, rfl⟩ := hstays.resolve_left (by simp [Node.isSymlink])
      rw [walkWith]
      exact if_pos rfl
    | file contents => rfl
    | directory entries => rfl
  | file contents => cases hchild
  | symlink target => cases hchild

/-- A link that is followed. -/
theorem walk_link {node : Node ν α} {n : ν} {target : Target ν} (h : root.at? here = some node)
    (hchild : node.child? n = some (.symlink target)) (hfollow : steps ≠ [] ∨ follow = true) :
    walk root follow links here (.name n :: steps) =
      onLink root follow links (if target.absolute then [] else here) (target.steps ++ steps) := by
  cases node with
  | directory entries =>
    rw [walk_eq, walkWith, h]
    dsimp only
    rw [hchild]
    refine if_neg ?_
    rw [Bool.and_eq_true, List.isEmpty_iff, Bool.not_eq_true']
    rintro ⟨rfl, rfl⟩
    exact hfollow.elim (fun hne => hne rfl) Bool.false_ne_true
  | file contents => cases hchild
  | symlink target => cases hchild

-- walks that end

variable (root follow) in
/-- The steps lead from the names `here` to the names `there`. -/
inductive Leads : ℕ → List ν → List (Step ν) → List ν → Prop
  | nil {links : ℕ} {here : List ν} : Leads links here [] here
  | self {links : ℕ} {here there : List ν} {steps : List (Step ν)} {node : Node ν α}
    (hnode : root.at? here = some node) (hdir : node.isDirectory = true)
    (h : Leads links here steps there) : Leads links here (.self :: steps) there
  | parent {links : ℕ} {here there : List ν} {steps : List (Step ν)} {node : Node ν α}
    (hnode : root.at? here = some node) (hdir : node.isDirectory = true)
    (h : Leads links here.dropLast steps there) : Leads links here (.parent :: steps) there
  | name {links : ℕ} {here there : List ν} {steps : List (Step ν)} {node child : Node ν α} {n : ν}
    (hnode : root.at? here = some node) (hchild : node.child? n = some child)
    (hstays : child.isSymlink = false ∨ steps = [] ∧ follow = false)
    (h : Leads links (here ++ [n]) steps there) : Leads links here (.name n :: steps) there
  | link {links : ℕ} {here there : List ν} {steps : List (Step ν)} {node : Node ν α} {n : ν}
    {target : Target ν} (hnode : root.at? here = some node)
    (hchild : node.child? n = some (.symlink target)) (hfollow : steps ≠ [] ∨ follow = true)
    (h : Leads links (if target.absolute then [] else here) (target.steps ++ steps) there) :
    Leads (links + 1) here (.name n :: steps) there

theorem walk_of_leads {there : List ν} (h : Leads root follow links here steps there) :
    walk root follow links here steps = .ok there := by
  induction h with
  | nil => exact walk_nil
  | self hnode hdir _ ih => rw [walk_self hnode hdir, ih]
  | parent hnode hdir _ ih => rw [walk_parent hnode hdir, ih]
  | name hnode hchild hstays _ ih => rw [walk_name hnode hchild hstays, ih]
  | link hnode hchild hfollow _ ih => rw [walk_link hnode hchild hfollow, onLink, ih]

/-- The steps up to the first link to be followed. -/
theorem leads_of_walk_of_onLink
    (hlink : ∀ here steps there, onLink root follow links here steps = .ok there →
      ∃ below, links = below + 1 ∧ Leads root follow below here steps there) {there : List ν}
    (h : walk root follow links here steps = .ok there) :
    Leads root follow links here steps there := by
  induction steps generalizing here with
  | nil =>
    obtain rfl := Except.ok.inj (walk_nil.symm.trans h)
    exact .nil
  | cons step steps ih =>
    by_cases hdir : ∃ node, root.at? here = some node ∧ node.isDirectory = true
    · obtain ⟨node, hnode, hdir⟩ := hdir
      cases step with
      | self =>
        rw [walk_self hnode hdir] at h
        exact .self hnode hdir (ih h)
      | parent =>
        rw [walk_parent hnode hdir] at h
        exact .parent hnode hdir (ih h)
      | name n =>
        cases hchild : node.child? n with
        | none =>
          rw [walk_name_none hnode hdir hchild] at h
          cases h
        | some child =>
          by_cases hstays : child.isSymlink = false ∨ steps = [] ∧ follow = false
          · rw [walk_name hnode hchild hstays] at h
            exact .name hnode hchild hstays (ih h)
          · rw [not_or] at hstays
            cases child with
            | symlink target =>
              have hfollow : steps ≠ [] ∨ follow = true := by
                by_cases hnil : steps = []
                · exact .inr (by simpa [hnil] using hstays.2)
                · exact .inl hnil
              rw [walk_link hnode hchild hfollow] at h
              obtain ⟨below, rfl, hleads⟩ := hlink _ _ _ h
              exact .link hnode hchild hfollow hleads
            | file contents => exact absurd rfl hstays.1
            | directory entries => exact absurd rfl hstays.1
    · have hnot : ∀ node, root.at? here = some node → node.isDirectory = false := by
        intro node hnode
        exact Bool.eq_false_iff.mpr fun htrue => hdir ⟨node, hnode, htrue⟩
      rw [walk_of_not_isDirectory hnot] at h
      cases h

theorem leads_of_walk {there : List ν} (h : walk root follow links here steps = .ok there) :
    Leads root follow links here steps there := by
  induction links generalizing here steps there with
  | zero =>
    refine leads_of_walk_of_onLink ?_ h
    intro _ _ _ hnone
    cases hnone
  | succ links ih =>
    refine leads_of_walk_of_onLink ?_ h
    intro _ _ _ hwalk
    exact ⟨links, rfl, ih hwalk⟩

theorem walk_eq_ok {there : List ν} :
    walk root follow links here steps = .ok there ↔ Leads root follow links here steps there :=
  ⟨leads_of_walk, walk_of_leads⟩

-- what a walk leads to

/-- What the names lead to is there, and is no link. -/
def Stands (root : Node ν α) (here : List ν) : Prop :=
  ∃ node, root.at? here = some node ∧ node.isSymlink = false

theorem stands_dropLast {node : Node ν α} (hroot : root.isSymlink = false)
    (h : root.at? here = some node) : Stands root here.dropLast := by
  rcases Node.at?_dropLast h with rfl | ⟨above, habove, hdir⟩
  · exact ⟨root, rfl, hroot⟩
  · exact ⟨above, habove, Node.isSymlink_of_isDirectory hdir⟩

theorem at?_of_leads {there : List ν} (h : Leads root follow links here steps there)
    (hhere : ∃ node, root.at? here = some node) : ∃ node, root.at? there = some node := by
  induction h with
  | nil => exact hhere
  | self _ _ _ ih => exact ih hhere
  | parent hnode _ _ ih =>
    refine ih ?_
    rcases Node.at?_dropLast hnode with rfl | ⟨above, habove, -⟩
    · exact ⟨root, rfl⟩
    · exact ⟨above, habove⟩
  | @name _ _ _ _ _ child n hnode hchild _ _ ih =>
    exact ih ⟨child, (Node.at?_concat hnode n).trans hchild⟩
  | @link _ here _ _ node _ target hnode _ _ _ ih =>
    refine ih ?_
    by_cases habsolute : target.absolute = true
    · rw [if_pos habsolute]
      exact ⟨root, rfl⟩
    · rw [if_neg habsolute]
      exact ⟨node, hnode⟩

/-- A walk that follows every link does not end at one. -/
theorem stands_of_leads {there : List ν} (h : Leads root true links here steps there)
    (hroot : root.isSymlink = false) (hhere : Stands root here) : Stands root there := by
  induction h with
  | nil => exact hhere
  | self _ _ _ ih => exact ih hhere
  | parent hnode _ _ ih => exact ih (stands_dropLast hroot hnode)
  | @name _ _ _ _ _ child n hnode hchild hstays _ ih =>
    have hchildStays : child.isSymlink = false :=
      hstays.resolve_right fun h => Bool.false_ne_true h.2.symm
    exact ih ⟨child, (Node.at?_concat hnode n).trans hchild, hchildStays⟩
  | @link _ here _ _ node _ target hnode _ _ _ ih =>
    refine ih ?_
    by_cases habsolute : target.absolute = true
    · rw [if_pos habsolute]
      exact ⟨root, rfl, hroot⟩
    · rw [if_neg habsolute]
      exact hhere

/-- Where a walk that leaves a last link does not end at one, the link is not left. -/
theorem leads_follow {there : List ν} (h : Leads root false links here steps there)
    (hthere : Stands root there) : Leads root true links here steps there := by
  induction h with
  | nil => exact .nil
  | self hnode hdir _ ih => exact .self hnode hdir (ih hthere)
  | parent hnode hdir _ ih => exact .parent hnode hdir (ih hthere)
  | @name _ _ _ _ _ child n hnode hchild hstays h ih =>
    refine .name hnode hchild (.inl ?_) (ih hthere)
    rcases hstays with hstays | ⟨rfl, -⟩
    · exact hstays
    · cases h with
      | nil =>
        obtain ⟨node, hfound, hno⟩ := hthere
        rw [Node.at?_concat hnode n, hchild] at hfound
        obtain rfl := Option.some.inj hfound
        exact hno
  | link hnode hchild _ _ ih => exact .link hnode hchild (.inr rfl) (ih hthere)

/-- One path after another: the second one goes on from where the first one leads, with the
    links that are left. -/
theorem walk_append {there : List ν} {others : List (Step ν)}
    (h : Leads root true links here steps there) (hne : others ≠ []) (follow : Bool) :
    ∃ left ≤ links, walk root follow links here (steps ++ others) =
      walk root follow left there others := by
  induction h with
  | nil => exact ⟨_, Nat.le_refl _, rfl⟩
  | self hnode hdir _ ih =>
    obtain ⟨left, hle, hwalk⟩ := ih
    exact ⟨left, hle, (walk_self hnode hdir).trans hwalk⟩
  | parent hnode hdir _ ih =>
    obtain ⟨left, hle, hwalk⟩ := ih
    exact ⟨left, hle, (walk_parent hnode hdir).trans hwalk⟩
  | name hnode hchild hstays _ ih =>
    obtain ⟨left, hle, hwalk⟩ := ih
    have hlink := hstays.resolve_right fun h => Bool.false_ne_true h.2.symm
    exact ⟨left, hle, (walk_name hnode hchild (.inl hlink)).trans hwalk⟩
  | @link _ _ _ steps _ _ _ hnode hchild _ _ ih =>
    obtain ⟨left, hle, hwalk⟩ := ih
    rw [List.append_assoc] at hwalk
    have hsteps : steps ++ others ≠ [] := List.append_ne_nil_of_right_ne_nil steps hne
    exact ⟨left, Nat.le_succ_of_le hle, (walk_link hnode hchild (.inl hsteps)).trans hwalk⟩

/-- A last `self` only asks for a directory. -/
theorem leads_of_concat_self {there : List ν}
    (h : Leads root true links here (steps ++ [.self]) there) :
    Leads root true links here steps there := by
  generalize hall : steps ++ [.self] = all at h
  induction h generalizing steps with
  | nil => exact absurd hall (List.append_ne_nil_of_right_ne_nil steps (List.cons_ne_nil _ _))
  | self hnode hdir h ih =>
    cases steps with
    | nil =>
      obtain ⟨-, rfl⟩ := List.cons_eq_cons.mp hall
      exact h
    | cons step steps =>
      obtain ⟨rfl, hrest⟩ := List.cons_eq_cons.mp hall
      exact .self hnode hdir (ih hrest)
  | parent hnode hdir h ih =>
    cases steps with
    | nil => cases hall
    | cons step steps =>
      obtain ⟨rfl, hrest⟩ := List.cons_eq_cons.mp hall
      exact .parent hnode hdir (ih hrest)
  | name hnode hchild hstays h ih =>
    cases steps with
    | nil => cases hall
    | cons step steps =>
      obtain ⟨rfl, hrest⟩ := List.cons_eq_cons.mp hall
      have hlink := hstays.resolve_right fun h => Bool.false_ne_true h.2.symm
      exact .name hnode hchild (.inl hlink) (ih hrest)
  | link hnode hchild hfollow h ih =>
    cases steps with
    | nil => cases hall
    | cons step steps =>
      obtain ⟨rfl, hrest⟩ := List.cons_eq_cons.mp hall
      exact .link hnode hchild (.inr rfl)
        (ih ((List.append_assoc _ _ _).trans (congrArg _ hrest)))

-- paths that take no link

/-- What steps without a parent lead to below the node, unless there is a link on the way. A
    link they end in is left. -/
def Node.reach (node : Node ν α) : List (Step ν) → Option (Except Failure (List ν))
  | [] => some (.ok [])
  | .parent :: _ => none
  | .self :: steps => if node.isDirectory then node.reach steps else some (.error .notDirectory)
  | .name n :: steps =>
    if node.isDirectory then match node.child? n with
      | none => some (.error .notFound)
      | some child =>
        if child.isSymlink && !steps.isEmpty then none
        else (child.reach steps).map fun result => result.map (n :: ·)
    else some (.error .notDirectory)

theorem walk_of_reach {node : Node ν α} {result : Except Failure (List ν)}
    (hnode : root.at? here = some node) (h : node.reach steps = some result) :
    walk root false links here steps = result.map (here ++ ·) := by
  induction steps generalizing here node result with
  | nil =>
    obtain rfl := Option.some.inj h
    rw [walk_nil]
    exact congrArg Except.ok (List.append_nil here).symm
  | cons step steps ih =>
    by_cases hdir : node.isDirectory = true
    · cases step with
      | parent => cases h
      | self =>
        rw [Node.reach, if_pos hdir] at h
        rw [walk_self hnode hdir]
        exact ih hnode h
      | name n =>
        rw [Node.reach, if_pos hdir] at h
        cases hchild : node.child? n with
        | none =>
          rw [hchild] at h
          obtain rfl := Option.some.inj h
          exact walk_name_none hnode hdir hchild
        | some child =>
          rw [hchild] at h
          dsimp only at h
          split at h
          · cases h
          · rename_i hplain
            obtain ⟨inner, hinner, rfl⟩ := Option.map_eq_some_iff.mp h
            have hstays : child.isSymlink = false ∨ steps = [] ∧ false = false := by
              cases hlink : child.isSymlink with
              | false => exact .inl rfl
              | true => exact .inr ⟨by simpa [hlink] using hplain, rfl⟩
            rw [walk_name hnode hchild hstays,
              ih ((Node.at?_concat hnode n).trans hchild) hinner]
            cases inner with
            | error e => rfl
            | ok names => exact congrArg Except.ok (List.append_cons here n names).symm
    · have hnot : ∀ other, root.at? here = some other → other.isDirectory = false := by
        intro other hother
        rw [hnode] at hother
        obtain rfl := Option.some.inj hother
        exact Bool.eq_false_iff.mpr hdir
      rw [walk_of_not_isDirectory hnot]
      rw [Bool.not_eq_true] at hdir
      cases step with
      | parent => cases h
      | self =>
        rw [Node.reach, hdir] at h
        obtain rfl := Option.some.inj h
        rfl
      | name n =>
        rw [Node.reach, hdir] at h
        obtain rfl := Option.some.inj h
        rfl

/-- The names of an entry of a directory. -/
theorem reach_names {node inner : Node ν α} {names : List ν} (h : node.at? names = some inner)
    (hdir : inner.isDirectory = true) (last : ν) :
    node.reach ((names ++ [last]).map .name) =
      some (if (inner.child? last).isSome then .ok (names ++ [last]) else .error .notFound) := by
  induction names generalizing node with
  | nil =>
    obtain rfl := Option.some.inj h
    rw [List.nil_append, List.map_singleton, Node.reach, if_pos hdir]
    cases hchild : node.child? last with
    | none => rfl
    | some child =>
      dsimp only
      rw [List.isEmpty_nil, Bool.not_true, Bool.and_false, if_neg Bool.false_ne_true]
      rfl
  | cons n names ih =>
    obtain ⟨child, hchild, hrest⟩ := Option.bind_eq_some_iff.mp h
    have hlink : child.isSymlink = false := by
      cases names with
      | nil =>
        obtain rfl := Option.some.inj hrest
        exact Node.isSymlink_of_isDirectory hdir
      | cons m names => exact Node.isSymlink_of_isDirectory (Node.isDirectory_of_at? hrest)
    rw [List.cons_append, List.map_cons, Node.reach, if_pos (Node.isDirectory_of_child? hchild),
      hchild]
    dsimp only
    rw [hlink, Bool.false_and, if_neg Bool.false_ne_true, ih hrest]
    cases (inner.child? last).isSome <;> rfl

/-- Names of what is there, and no link, take no link. -/
theorem walk_names {names : List ν} {node : Node ν α} (h : root.at? (here ++ names) = some node)
    (hnode : node.isSymlink = false) :
    walk root follow links here (names.map .name ++ steps) =
      walk root follow links (here ++ names) steps := by
  induction names generalizing here with
  | nil => rw [List.append_nil, List.map_nil, List.nil_append]
  | cons n names ih =>
    rw [List.append_cons] at h ⊢
    have hinner := h
    rw [Node.at?_append] at hinner
    obtain ⟨child, hchild, hrest⟩ := Option.bind_eq_some_iff.mp hinner
    have hparent := hchild
    rw [Node.at?_append] at hparent
    obtain ⟨above, habove, hn⟩ := Option.bind_eq_some_iff.mp hparent
    have hlink : child.isSymlink = false := by
      cases names with
      | nil =>
        obtain rfl := Option.some.inj hrest
        exact hnode
      | cons m names => exact Node.isSymlink_of_isDirectory (Node.isDirectory_of_at? hrest)
    have hfound : above.child? n = some child := by
      rw [← Node.at?_concat habove n]
      exact hchild
    rw [List.map_cons, List.cons_append, walk_name habove hfound (.inl hlink)]
    exact ih h

/-- Names of what is there, and no link, are a path to it. -/
theorem leads_names {names : List ν} {node : Node ν α} (h : root.at? (here ++ names) = some node)
    (hnode : node.isSymlink = false) :
    Leads root follow links here (names.map .name) (here ++ names) := by
  have hwalk := @walk_names ν α _ root follow links here [] names node h hnode
  rw [List.append_nil, walk_nil] at hwalk
  exact leads_of_walk hwalk

end walk

end FileSystem
