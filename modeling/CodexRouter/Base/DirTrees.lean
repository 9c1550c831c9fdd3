/-
# Operations on directory trees

Directories are created, files written and whole directories removed in a tree whose entries stand in
directories, which it stays.  What a directory contains is a tree of its own (`subtree`), and what
is found after each operation is read off the tree before it.
-/
import CodexRouter.Base.FileTree
import Mathlib.Data.List.Nodup

namespace FileTree

variable {C : Type} {tree : FileTree C} {path other : List String} {node : FileNode C}

/-- What stands below a path, by the paths from there. -/
def subtree (tree : FileTree C) (path : List String) : FileTree C :=
  (tree.below path).map fun entry => (entry.1.drop path.length, entry.2)

/-- The tree at a path of another one. -/
def graft (tree : FileTree C) (path : List String) : FileTree C :=
  tree.map fun entry => (path ++ entry.1, entry.2)

/-- A node in the place of what stands at a path. -/
def put (tree : FileTree C) (path : List String) (node : FileNode C) : FileTree C :=
  (tree.filter fun entry => entry.1 ≠ path) ++ [(path, node)]

/-- What is not below the path, or above an entry that cannot be removed. -/
def survives (path : List String) (stuck : List (List String)) (other : List String) : Bool :=
  !(path <+: other) || stuck.any fun top => other <+: top

/-- What `remove_dir_all` leaves when the entries `stuck` cannot be removed: these and the directories
above them. -/
def removeAll (tree : FileTree C) (path : List String) (stuck : List (List String)) : FileTree C :=
  tree.filter fun entry => survives path stuck entry.1

/-- The tree at a path, if something stands there. -/
def subtree? (tree : FileTree C) (path : List String) : Option (FileTree C) :=
  (tree.get path).map fun _ => tree.subtree path

/-- `remove_dir`. -/
def removeDir (tree : FileTree C) (path : List String) (failed : Bool) : FileTree C :=
  if failed || tree.paths.any fun other => path <+: other ∧ path ≠ other then tree
  else tree.filter fun entry => entry.1 ≠ path

theorem get_subtree (tree : FileTree C) (path other : List String) :
    (tree.subtree path).get other = tree.get (path ++ other) := by
  induction tree with
  | nil => rfl
  | cons entry rest ih =>
    obtain ⟨top, node⟩ := entry
    rw [subtree, below, get] at ih ⊢
    rw [get, List.lookup_cons]
    by_cases hpfx : path <+: top
    · rw [List.filter_cons_of_pos (by simpa using hpfx), List.map_cons, List.lookup_cons]
      obtain ⟨rest', rfl⟩ := hpfx
      rw [List.drop_left]
      by_cases hsame : other = rest'
      · simp [hsame]
      · rw [beq_eq_false_iff_ne.mpr hsame, beq_eq_false_iff_ne.mpr (by simpa using hsame)]
        exact ih
    · rw [List.filter_cons_of_neg (by simpa using hpfx)]
      have hother : path ++ other ≠ top := fun h => hpfx ⟨other, h⟩
      rw [beq_eq_false_iff_ne.mpr hother]
      exact ih

theorem get_graft (tree : FileTree C) (path other : List String) :
    (tree.graft path).get other = if path <+: other then tree.get (other.drop path.length) else none := by
  induction tree with
  | nil => simp [graft, get]
  | cons entry rest ih =>
    obtain ⟨top, node⟩ := entry
    rw [graft, get] at ih ⊢
    rw [List.map_cons, List.lookup_cons]
    by_cases hpfx : path <+: other
    · obtain ⟨rest', rfl⟩ := hpfx
      rw [if_pos (List.prefix_append _ _), List.drop_left] at ih ⊢
      rw [get, List.lookup_cons]
      by_cases hsame : rest' = top
      · simp [hsame]
      · rw [beq_eq_false_iff_ne.mpr hsame, beq_eq_false_iff_ne.mpr (by simpa using hsame)]
        exact ih
    · rw [if_neg hpfx] at ih ⊢
      have hother : other ≠ path ++ top := fun h => hpfx ⟨top, h.symm⟩
      rw [beq_eq_false_iff_ne.mpr hother]
      exact ih

theorem get_put (tree : FileTree C) (path : List String) (node : FileNode C) (other : List String) :
    (tree.put path node).get other = if other = path then some node else tree.get other := by
  rw [put, get_append, get_filter tree fun other => decide (other ≠ path)]
  by_cases hsame : other = path
  · simp [hsame, get]
  · simp [hsame, get, List.lookup_cons, beq_eq_false_iff_ne.mpr hsame]

theorem survives_of_not_prefix {stuck : List (List String)} (h : ¬ path <+: other) :
    survives path stuck other = true := by
  rw [survives, decide_eq_false h]
  rfl

theorem survives_nil (h : path <+: other) : survives path [] other = false := by
  rw [survives, decide_eq_true h]
  rfl

/-- The directories above what stays do. -/
theorem survives_of_prefix {stuck : List (List String)} {top : List String} (hpfx : top <+: other)
    (h : survives path stuck other = true) : survives path stuck top = true := by
  rw [survives, Bool.or_eq_true, Bool.not_eq_true', decide_eq_false_iff_not, List.any_eq_true] at h ⊢
  rcases h with hout | ⟨left, hleft, hbelow⟩
  · exact .inl fun habove => hout (habove.trans hpfx)
  · exact .inr ⟨left, hleft, decide_eq_true (hpfx.trans (of_decide_eq_true hbelow))⟩

theorem get_removeAll (tree : FileTree C) (path : List String) (stuck : List (List String)) (other : List String) :
    (tree.removeAll path stuck).get other = if survives path stuck other then tree.get other else none :=
  get_filter tree (survives path stuck) other

/-- Nothing outside of the directory is removed. -/
theorem get_removeAll_of_not_prefix {stuck : List (List String)} (h : ¬ path <+: other) :
    (tree.removeAll path stuck).get other = tree.get other := by
  rw [get_removeAll, survives_of_not_prefix h, if_pos rfl]

/-- The new paths are those of the missing directories. -/
theorem paths_of_createDirAll {tree' : FileTree C} (h : tree.createDirAll path = some tree') :
    tree'.paths = tree.paths ++ path.inits.filter fun top => (tree.get top).isNone := by
  rw [createDirAll] at h
  split at h
  · rw [← Option.some.inj h, paths, List.map_append, List.map_map]
    exact congrArg _ (List.map_id _)
  · cases h

/-- Above a created directory there are directories only. -/
theorem eq_dir_of_createDirAll {tree' : FileTree C} (h : tree.createDirAll path = some tree') (hpfx : other <+: path)
    (hget : tree.get other = some node) : node = .dir := by
  rw [createDirAll] at h
  split at h
  · rename_i hall
    have hnode := List.all_eq_true.mp hall other ((List.mem_inits _ _).mpr hpfx)
    rw [hget, Option.all_some] at hnode
    cases node with
    | dir => rfl
    | file content => cases hnode
    | link target => cases hnode
  · cases h

theorem get_removeDir_of_ne {failed : Bool} (h : other ≠ path) :
    (tree.removeDir path failed).get other = tree.get other := by
  rw [removeDir]
  split
  · rfl
  · rw [get_filter tree fun other => decide (other ≠ path), if_pos (by simpa using h)]

/-- An empty directory is removed. -/
theorem get_removeDir (h : ∀ other, path <+: other → other ≠ path → tree.get other = none) (other : List String) :
    (tree.removeDir path false).get other = if other = path then none else tree.get other := by
  have hempty : (tree.paths.any fun other => path <+: other ∧ path ≠ other) = false := by
    rw [List.any_eq_false]
    intro other hmem hbelow
    obtain ⟨hpfx, hne⟩ := of_decide_eq_true hbelow
    obtain ⟨node, hget⟩ := mem_paths_iff.mp hmem
    rw [h other hpfx hne.symm] at hget
    cases hget
  rw [removeDir, hempty, Bool.or_false, if_neg Bool.false_ne_true,
    get_filter tree fun other => decide (other ≠ path)]
  by_cases hsame : other = path
  · simp [hsame]
  · simp [hsame]

end FileTree

/-- The tops of a list are different. -/
theorem nodup_inits {α : Type} (l : List α) : l.inits.Nodup := by
  induction l with
  | nil => simp
  | cons a l ih =>
    rw [List.inits_cons, List.nodup_cons]
    refine ⟨by simp, ih.map fun s t h => (List.cons.inj h).2⟩

/-- A file. -/
def FileNode.isFile {C : Type} : FileNode C → Bool
  | .file _ => true
  | _ => false

namespace DirTree

variable {C : Type} {tree tree' : DirTree C} {path other : List String}

/-- A path is one of a directory. -/
def isDir (tree : DirTree C) (path : List String) : Bool := (tree.entries.get path).any FileNode.isDir

theorem isDir_iff : tree.isDir path = true ↔ tree.entries.get path = some .dir := by
  rw [isDir, Option.any_eq_true]
  constructor
  · rintro ⟨node, hget, hdir⟩
    cases node with
    | dir => exact hget
    | file content => cases hdir
    | link target => cases hdir
  · intro hget
    exact ⟨.dir, hget, rfl⟩

/-! ## The operations -/

/-- A node in a directory, in the place of anything but a directory. -/
def put (tree : DirTree C) (path : List String) (node : FileNode C) (hne : path ≠ [])
    (hdir : tree.entries.get path.dropLast = some .dir) (hfree : tree.entries.get path ≠ some .dir) : DirTree C where
  entries := tree.entries.put path node
  root := by
    rw [FileTree.get_put, if_neg hne.symm]
    exact tree.root
  parents := by
    intro top name hmem
    obtain ⟨node', hget⟩ := FileTree.mem_paths_iff.mp hmem
    rw [FileTree.get_put] at hget
    have hparent : tree.entries.get top = some .dir := by
      split at hget
      · rename_i hsame
        rw [← hsame, List.dropLast_concat] at hdir
        exact hdir
      · exact tree.parents top name (FileTree.mem_paths_of_get hget)
    rw [FileTree.get_put, if_neg]
    · exact hparent
    · rintro rfl
      exact hfree hparent
  nodup := by
    have hold : ((tree.entries.filter fun entry => entry.1 ≠ path).map (·.1)).Nodup :=
      tree.nodup.sublist (List.filter_sublist.map _)
    rw [FileTree.paths, FileTree.put, List.map_append, List.map_singleton]
    refine hold.append (List.nodup_singleton _) ?_
    intro other hmem hother
    obtain ⟨entry, hentry, rfl⟩ := List.mem_map.mp hmem
    rw [List.mem_singleton] at hother
    simpa [hother] using (List.mem_filter.mp hentry).2

/-- `create_dir`. -/
def createDir (tree : DirTree C) (path : List String) : Option (DirTree C) :=
  if h : path ≠ [] ∧ tree.isDir path.dropLast ∧ (tree.entries.get path).isNone then
    some (tree.put path .dir h.1 (isDir_iff.mp h.2.1) (by rw [Option.isNone_iff_eq_none.mp h.2.2]; simp))
  else none

/-- `File::create`, with what is written to the file. -/
def writeFile (tree : DirTree C) (path : List String) (content : C) : Option (DirTree C) :=
  if h : path ≠ [] ∧ tree.isDir path.dropLast ∧ (tree.entries.get path).all FileNode.isFile then
    some (tree.put path (.file content) h.1 (isDir_iff.mp h.2.1) (by
      intro hdir
      rw [hdir] at h
      exact absurd h.2.2 (by simp [FileNode.isFile])))
  else none

/-- `create_dir_all`. -/
def createDirAll (tree : DirTree C) (path : List String) : Option (DirTree C) :=
  match h : tree.entries.createDirAll path with
  | none => none
  | some entries => some {
      entries := entries
      root := by
        rw [FileTree.get_of_createDirAll h, tree.root]
        rfl
      parents := by
        intro top name hmem
        obtain ⟨node, hget⟩ := FileTree.mem_paths_iff.mp hmem
        rw [FileTree.get_of_createDirAll h] at hget ⊢
        cases hold : tree.entries.get (top ++ [name]) with
        | some node' =>
          rw [tree.parents top name (FileTree.mem_paths_of_get hold)]
          rfl
        | none =>
          rw [hold, Option.none_or] at hget
          split at hget
          · rename_i hpfx
            have htop : top <+: path := (List.prefix_append top [name]).trans hpfx
            rw [if_pos htop]
            cases htopget : tree.entries.get top with
            | none => rfl
            | some node' =>
              rw [FileTree.eq_dir_of_createDirAll h htop htopget]
              rfl
          · cases hget
      nodup := by
        rw [FileTree.paths_of_createDirAll h]
        refine tree.nodup.append ((nodup_inits path).filter _) ?_
        intro other hmem hnew
        obtain ⟨node, hget⟩ := FileTree.mem_paths_iff.mp hmem
        have hnone := (List.mem_filter.mp hnew).2
        rw [hget] at hnone
        cases hnone }

/-- `remove_dir_all`, but for what cannot be removed. -/
def removeAll (tree : DirTree C) (path : List String) (hne : path ≠ []) (stuck : List (List String)) : DirTree C where
  entries := tree.entries.removeAll path stuck
  root := by
    rw [FileTree.get_removeAll_of_not_prefix (fun h => hne (List.prefix_nil.mp h))]
    exact tree.root
  parents := by
    intro top name hmem
    obtain ⟨node, hget⟩ := FileTree.mem_paths_iff.mp hmem
    rw [FileTree.get_removeAll] at hget ⊢
    split at hget
    · rename_i hleft
      rw [FileTree.survives_of_prefix (List.prefix_append top [name]) hleft, if_pos rfl]
      exact tree.parents top name (FileTree.mem_paths_of_get hget)
    · cases hget
  nodup := tree.nodup.sublist (List.filter_sublist.map _)

/-- A directory's own tree. -/
def subtree (tree : DirTree C) (path : List String) (h : tree.entries.get path = some .dir) : DirTree C where
  entries := tree.entries.subtree path
  root := by
    rw [FileTree.get_subtree, List.append_nil]
    exact h
  parents := by
    intro top name hmem
    obtain ⟨node, hget⟩ := FileTree.mem_paths_iff.mp hmem
    rw [FileTree.get_subtree, ← List.append_assoc] at hget
    rw [FileTree.get_subtree]
    exact tree.parents _ _ (FileTree.mem_paths_of_get hget)
  nodup := by
    rw [FileTree.paths, FileTree.subtree, List.map_map]
    have hbelow : ((tree.entries.below path).map (·.1)).Nodup := tree.nodup.sublist (List.filter_sublist.map _)
    refine List.Nodup.map_on ?_ hbelow.of_map
    intro entry hentry entry' hentry' hsame
    obtain ⟨rest, hrest⟩ := of_decide_eq_true (List.mem_filter.mp hentry).2
    obtain ⟨rest', hrest'⟩ := of_decide_eq_true (List.mem_filter.mp hentry').2
    have hpath : entry.1 = entry'.1 := by
      have htails : rest = rest' := by
        simpa [← hrest, ← hrest'] using hsame
      rw [← hrest, ← hrest', htails]
    exact List.inj_on_of_nodup_map hbelow hentry hentry' hpath

/-- The tree of what is a directory. -/
def subtree? (tree : DirTree C) (path : List String) : Option (DirTree C) :=
  if h : tree.isDir path then some (tree.subtree path (isDir_iff.mp h)) else none

/-! ## What is found afterwards -/

theorem get_of_createDir (h : tree.createDir path = some tree') :
    path ≠ [] ∧ tree.entries.get path = none
      ∧ ∀ other, tree'.entries.get other = if other = path then some .dir else tree.entries.get other := by
  rw [createDir] at h
  split at h
  · rename_i hcond
    obtain rfl := Option.some.inj h
    exact ⟨hcond.1, Option.isNone_iff_eq_none.mp hcond.2.2, FileTree.get_put _ _ _⟩
  · cases h

theorem get_of_writeFile {content : C} (h : tree.writeFile path content = some tree') (other : List String) :
    tree'.entries.get other = if other = path then some (.file content) else tree.entries.get other := by
  rw [writeFile] at h
  split at h
  · obtain rfl := Option.some.inj h
    exact FileTree.get_put _ _ _ _
  · cases h

theorem entries_of_createDirAll (h : tree.createDirAll path = some tree') :
    tree.entries.createDirAll path = some tree'.entries := by
  rw [createDirAll] at h
  split at h
  · cases h
  · rename_i entries hentries
    rw [← Option.some.inj h]
    exact hentries

theorem get_of_createDirAll (h : tree.createDirAll path = some tree') (other : List String) :
    tree'.entries.get other = (tree.entries.get other).or (if other <+: path then some .dir else none) :=
  FileTree.get_of_createDirAll (entries_of_createDirAll h) other

/-- Created directories are not in the place of anything else. -/
theorem get_eq_some_iff_of_createDirAll {node : FileNode C} (h : tree.createDirAll path = some tree')
    (hnode : node ≠ .dir) (other : List String) :
    tree'.entries.get other = some node ↔ tree.entries.get other = some node := by
  rw [get_of_createDirAll h]
  cases tree.entries.get other with
  | some node' => rfl
  | none =>
    rw [Option.none_or]
    split
    · simp [hnode.symm]
    · rfl

theorem get_of_subtree? {sub : DirTree C} (h : tree.subtree? path = some sub) (other : List String) :
    sub.entries.get other = tree.entries.get (path ++ other) := by
  rw [subtree?] at h
  split at h
  · rw [← Option.some.inj h]
    exact FileTree.get_subtree _ _ _
  · cases h

/-- Nothing is below what is not there. -/
theorem get_below_of_none (h : tree.entries.get path = none) (hpfx : path <+: other) :
    tree.entries.get other = none := by
  cases hget : tree.entries.get other with
  | none => rfl
  | some node =>
    by_cases hsame : path = other
    · rw [hsame, hget] at h
      cases h
    · rw [tree.get_of_prefix (FileTree.mem_paths_of_get hget) hpfx hsame] at h
      cases h

end DirTree
