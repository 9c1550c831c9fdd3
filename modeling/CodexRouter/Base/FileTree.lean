/-
# File trees

A tree of directories, files and links, as a list of what stands at which path from its root.
A subtree is moved to the same path of another tree (`rename`), and missing parents are created
(`createDirAll`); what is found at a path afterwards is read off the trees before
(`get_of_rename`, `get_of_createDirAll`).
-/
import Mathlib.Data.List.Infix

/-- What stands at a path: a link with the content it leads to, if it leads to a file. -/
inductive FileNode (C : Type) where
  | dir
  | file (content : C)
  | link (target : Option C)
  deriving DecidableEq

/-- A directory. -/
def FileNode.isDir {C : Type} : FileNode C → Bool
  | .dir => true
  | _ => false

/-- The entries of a tree. -/
abbrev FileTree (C : Type) := List (List String × FileNode C)

namespace FileTree

variable {C : Type}

/-- What stands at a path. -/
def get (tree : FileTree C) (path : List String) : Option (FileNode C) := tree.lookup path

/-- The paths of a tree. -/
def paths (tree : FileTree C) : List (List String) := tree.map (·.1)

/-- The entries at a path and below it. -/
def below (tree : FileTree C) (path : List String) : FileTree C := tree.filter fun entry => path <+: entry.1

/-- The other entries. -/
def without (tree : FileTree C) (path : List String) : FileTree C := tree.filter fun entry => ¬ path <+: entry.1

/-- `create_dir_all`. -/
def createDirAll (tree : FileTree C) (path : List String) : Option (FileTree C) :=
  if path.inits.all fun top => (tree.get top).all FileNode.isDir then
    some (tree ++ (path.inits.filter fun top => (tree.get top).isNone).map fun top => (top, .dir))
  else none

/-- What can be put in the place of what stands at a path: a file replaces a file or a link, a
directory an empty directory. -/
def replaceable (tree : FileTree C) (path : List String) (node : FileNode C) : Bool :=
  match tree.get path with
  | none => true
  | some .dir => node.isDir && tree.paths.all fun other => ¬ (path <+: other ∧ path ≠ other)
  | some _ => !node.isDir

/-- `rename`, to the same path in another tree. -/
def rename (source destination : FileTree C) (path : List String) : Option (FileTree C × FileTree C) :=
  (source.get path).bind fun node =>
    if (destination.get path.dropLast).any FileNode.isDir && destination.replaceable path node then
      some (source.without path, destination.without path ++ source.below path)
    else none

/-! ## What is found afterwards -/

variable {tree tree' source source' destination destination' : FileTree C} {path other : List String}
  {node : FileNode C}

theorem get_filter (tree : FileTree C) (p : List String → Bool) (other : List String) :
    get (tree.filter fun entry => p entry.1) other = if p other then tree.get other else none := by
  induction tree with
  | nil => simp [get]
  | cons entry rest ih =>
    obtain ⟨top, node⟩ := entry
    rw [get] at ih ⊢
    by_cases hsame : other = top
    · subst hsame
      cases hp : p other with
      | true => simp [hp, get]
      | false => rw [List.filter_cons_of_neg (by simp [hp]), ih, hp, if_neg Bool.false_ne_true, if_neg Bool.false_ne_true]
    · have hskip : get ((top, node) :: rest) other = get rest other := by
        simp [get, List.lookup_cons, beq_eq_false_iff_ne.mpr hsame]
      rw [hskip, ← ih, List.filter_cons]
      split
      · simp [List.lookup_cons, beq_eq_false_iff_ne.mpr hsame]
      · rfl

theorem get_below (tree : FileTree C) (path other : List String) :
    (tree.below path).get other = if path <+: other then tree.get other else none := by
  rw [below, get_filter tree fun other => decide (path <+: other)]
  simp

theorem get_without (tree : FileTree C) (path other : List String) :
    (tree.without path).get other = if path <+: other then none else tree.get other := by
  rw [without, get_filter tree fun other => decide (¬ path <+: other)]
  by_cases h : path <+: other <;> simp [h]

theorem get_append (tree tree' : FileTree C) (other : List String) :
    get (tree ++ tree') other = (tree.get other).or (tree'.get other) := List.lookup_append

theorem mem_paths_of_get (h : tree.get path = some node) : path ∈ tree.paths := by
  induction tree with
  | nil => cases h
  | cons entry rest ih =>
    rw [get, List.lookup_cons] at h
    split at h
    · rename_i hsame
      rw [beq_iff_eq.mp hsame]
      exact List.mem_cons_self
    · exact List.mem_cons_of_mem _ (ih h)

theorem mem_paths_iff : path ∈ tree.paths ↔ ∃ node, tree.get path = some node := by
  constructor
  · intro h
    obtain ⟨⟨top, node⟩, hmem, rfl⟩ := List.mem_map.mp h
    cases hget : tree.get top with
    | some node => exact ⟨node, rfl⟩
    | none =>
      rw [get, List.lookup_eq_none_iff] at hget
      simpa using hget (top, node) hmem
  · rintro ⟨node, hget⟩
    exact mem_paths_of_get hget

/-- What can be replaced at a path depends on what is at and below it. -/
theorem replaceable_congr (h : ∀ other, path <+: other → tree.get other = tree'.get other) :
    tree.replaceable path node = tree'.replaceable path node := by
  have hempty : (tree.paths.all fun other => ¬ (path <+: other ∧ path ≠ other))
      = tree'.paths.all fun other => ¬ (path <+: other ∧ path ≠ other) := by
    rw [Bool.eq_iff_iff, List.all_eq_true, List.all_eq_true]
    simp only [decide_eq_true_eq]
    constructor
    · rintro hall other hmem ⟨hpfx, hne⟩
      rw [mem_paths_iff, ← h other hpfx, ← mem_paths_iff] at hmem
      exact hall other hmem ⟨hpfx, hne⟩
    · rintro hall other hmem ⟨hpfx, hne⟩
      rw [mem_paths_iff, h other hpfx, ← mem_paths_iff] at hmem
      exact hall other hmem ⟨hpfx, hne⟩
  rw [replaceable, replaceable, h path (List.prefix_refl path), hempty]

theorem get_map_dir (tops : List (List String)) (other : List String) :
    get (tops.map fun top => (top, (.dir : FileNode C))) other = if other ∈ tops then some .dir else none := by
  induction tops with
  | nil => simp [get]
  | cons top rest ih =>
    rw [List.map_cons, get, List.lookup_cons]
    by_cases hsame : other = top
    · simp [hsame]
    · rw [beq_eq_false_iff_ne.mpr hsame]
      show get _ other = _
      rw [ih]
      simp [hsame]

/-- Created directories are the missing ones. -/
theorem get_of_createDirAll (h : tree.createDirAll path = some tree') (other : List String) :
    tree'.get other = (tree.get other).or (if other <+: path then some .dir else none) := by
  rw [createDirAll] at h
  split at h
  · rw [← Option.some.inj h, get_append, get_map_dir]
    cases hget : tree.get other with
    | some node => rfl
    | none => simp [hget]
  · cases h

/-- Directories are created where no file is in the way. -/
theorem exists_createDirAll (h : ∀ top, top <+: path → ∀ node, tree.get top = some node → node = .dir) :
    ∃ tree', tree.createDirAll path = some tree' := by
  rw [createDirAll, if_pos]
  · exact ⟨_, rfl⟩
  · rw [List.all_eq_true]
    intro top htop
    rw [Option.all_eq_true]
    intro node hnode
    rw [h top ((List.mem_inits _ _).mp htop) node hnode]
    rfl

/-- What is moved. -/
theorem get_of_rename (h : rename source destination path = some (source', destination')) :
    (∃ node, source.get path = some node ∧ destination.replaceable path node = true)
      ∧ (∀ other, source'.get other = if path <+: other then none else source.get other)
      ∧ ∀ other, destination'.get other = if path <+: other then source.get other else destination.get other := by
  rw [rename, Option.bind_eq_some_iff] at h
  obtain ⟨node, hnode, h⟩ := h
  split at h
  · rename_i hcond
    rw [Bool.and_eq_true] at hcond
    obtain ⟨rfl, rfl⟩ := Prod.mk.inj (Option.some.inj h)
    refine ⟨⟨node, hnode, hcond.2⟩, get_without source path, ?_⟩
    intro other
    rw [get_append, get_without, get_below]
    by_cases hbelow : path <+: other
    · simp [hbelow]
    · simp [hbelow]
  · cases h

theorem exists_rename (hnode : source.get path = some node) (hparent : destination.get path.dropLast = some .dir)
    (hroom : destination.replaceable path node = true) :
    ∃ source' destination', rename source destination path = some (source', destination') := by
  rw [rename, hnode, Option.bind_some, if_pos]
  · exact ⟨_, _, rfl⟩
  · rw [hparent, hroom]
    rfl

/-- Whether every entry stands in a directory is found by going through the entries. -/
theorem parents_of_dropLast {entries : FileTree C}
    (h : ∀ path ∈ entries.paths, path ≠ [] → entries.get path.dropLast = some .dir)
    (path : List String) (name : String) (hmem : path ++ [name] ∈ entries.paths) : entries.get path = some .dir := by
  have hdir := h (path ++ [name]) hmem (List.concat_ne_nil name path)
  rwa [List.dropLast_concat] at hdir

end FileTree

/-- The tree of a directory: every entry stands in a directory. -/
structure DirTree (C : Type) where
  entries : FileTree C
  root : entries.get [] = some .dir
  parents : ∀ path name, path ++ [name] ∈ entries.paths → entries.get path = some .dir
  nodup : entries.paths.Nodup

namespace DirTree

variable {C : Type} (tree : DirTree C) {path other : List String} {node : FileNode C}

/-- `read_dir`, by the paths of the entries. -/
def children (path : List String) : List (List String) :=
  tree.entries.paths.filter fun other => other ≠ [] ∧ other.dropLast = path

/-- A bound of the lengths of the paths. -/
def depth : ℕ := (tree.entries.paths.map List.length).foldr max 0

/-- All proper tops of an entry are directories. -/
theorem get_of_prefix (h : path ∈ tree.entries.paths) (hpfx : other <+: path) (hne : other ≠ path) :
    tree.entries.get other = some .dir := by
  induction path using List.reverseRecOn with
  | nil => exact absurd (List.prefix_nil.mp hpfx) hne
  | append_singleton top name ih =>
    have hdir := tree.parents top name h
    rcases List.prefix_concat_iff.mp hpfx with heq | hpfx
    · exact absurd heq hne
    · by_cases hsame : other = top
      · rw [hsame]
        exact hdir
      · exact ih (FileTree.mem_paths_of_get hdir) hpfx hsame

theorem length_le_depth (h : path ∈ tree.entries.paths) : path.length ≤ tree.depth := by
  have hle : ∀ lengths : List ℕ, ∀ n ∈ lengths, n ≤ lengths.foldr max 0 := by
    intro lengths
    induction lengths with
    | nil =>
      intro n hn
      cases hn
    | cons first rest ih =>
      intro n hn
      rw [List.foldr_cons]
      rcases List.mem_cons.mp hn with rfl | hn
      · exact le_max_left _ _
      · exact le_trans (ih n hn) (le_max_right _ _)
  exact hle _ _ (List.mem_map_of_mem h)

end DirTree
