/-
# A disk

Directories and files, by their paths from one root, and the operations of `std::fs` on them: a place is removed with
what is below it, missing directories are made, a file is written, and a tree is copied into another place.

* `get_copyTree` : a copied tree is laid over what stood at the place;
* `exists_copyTree` : a tree can be copied to a free place below directories;
* `copyTree_dir` : a directory stays one.
-/
import Mathlib.Data.List.Infix

/-- What stands at a path. -/
inductive DiskNode (C : Type) where
  | dir
  | file (content : C)
  deriving DecidableEq

/-- The entries of a disk; each one stands in a directory. -/
structure Disk (C : Type) where
  entries : List (List String × DiskNode C)
  rooted : ∀ entry ∈ entries, ∀ top ∈ entry.1.inits, top ≠ entry.1 → entries.lookup top = some .dir

namespace Disk

variable {C : Type}

/-! ## Operations -/

/-- What stands at a path. -/
def get (disk : Disk C) (path : List String) : Option (DiskNode C) := disk.entries.lookup path

theorem exists_entry {entries : List (List String × DiskNode C)} {path : List String} {node : DiskNode C}
    (h : entries.lookup path = some node) : (path, node) ∈ entries := by
  induction entries with
  | nil => cases h
  | cons entry rest ih =>
    rw [List.lookup_cons] at h
    split at h
    · rename_i hsame
      rw [beq_iff_eq.mp hsame, ← Option.some.inj h]
      exact List.mem_cons_self
    · exact List.mem_cons_of_mem _ (ih h)

/-- Above an entry there are directories. -/
theorem get_top {disk : Disk C} {path top : List String} (h : (disk.get path).isSome) (htop : top <+: path)
    (hne : top ≠ path) : disk.get top = some .dir := by
  obtain ⟨node, hnode⟩ := Option.isSome_iff_exists.mp h
  exact disk.rooted _ (exists_entry hnode) top ((List.mem_inits _ _).mpr htop) hne

theorem lookup_filter (entries : List (List String × DiskNode C)) (p : List String → Bool) (path : List String) :
    (entries.filter fun entry => p entry.1).lookup path = if p path then entries.lookup path else none := by
  induction entries with
  | nil => simp
  | cons entry rest ih =>
    obtain ⟨top, node⟩ := entry
    rw [List.lookup_cons]
    by_cases hsame : path = top
    · subst hsame
      cases hp : p path with
      | true => simp [hp]
      | false => rw [List.filter_cons_of_neg (by simp [hp]), ih, hp, if_neg Bool.false_ne_true, if_neg Bool.false_ne_true]
    · rw [beq_eq_false_iff_ne.mpr hsame, List.filter_cons]
      dsimp only
      rw [← ih]
      split
      · rw [List.lookup_cons, beq_eq_false_iff_ne.mpr hsame]
      · rfl

/-- `remove_dir_all`, or `remove_file`. -/
def remove (disk : Disk C) (path : List String) : Disk C where
  entries := disk.entries.filter fun entry => ¬ path <+: entry.1
  rooted := by
    intro entry hentry top htop hne
    obtain ⟨hmem, hkept⟩ := List.mem_filter.mp hentry
    have hapart : ¬ path <+: top := fun h => of_decide_eq_true hkept (h.trans ((List.mem_inits _ _).mp htop))
    rw [lookup_filter disk.entries fun other => decide (¬ path <+: other), decide_eq_true hapart, if_pos rfl]
    exact disk.rooted entry hmem top htop hne

theorem get_remove (disk : Disk C) (path other : List String) :
    (disk.remove path).get other = if path <+: other then none else disk.get other := by
  rw [get, remove, lookup_filter disk.entries fun other => decide (¬ path <+: other)]
  by_cases h : path <+: other <;> simp [h, get]

theorem lookup_map_dir (tops : List (List String)) (other : List String) :
    (tops.map fun top => (top, (.dir : DiskNode C))).lookup other = if other ∈ tops then some .dir else none := by
  induction tops with
  | nil => simp
  | cons top rest ih =>
    rw [List.map_cons, List.lookup_cons]
    by_cases hsame : other = top
    · simp [hsame]
    · rw [beq_eq_false_iff_ne.mpr hsame]
      dsimp only
      rw [ih]
      simp [hsame]

/-- A disk with the missing directories of a path. -/
def made (disk : Disk C) (path : List String) : List (List String × DiskNode C) :=
  disk.entries ++ (path.inits.filter fun top => (disk.get top).isNone).map fun top => (top, .dir)

theorem lookup_made (disk : Disk C) (path other : List String) :
    (disk.made path).lookup other = (disk.get other).or (if other <+: path then some .dir else none) := by
  rw [made, List.lookup_append, lookup_map_dir, get]
  cases hget : disk.entries.lookup other with
  | some node => rfl
  | none => simp [get, hget]

/-- `create_dir_all`. -/
def createDirAll [DecidableEq C] (disk : Disk C) (path : List String) : Option (Disk C) :=
  if h : ∀ top ∈ path.inits, disk.get top = none ∨ disk.get top = some .dir then
    some {
      entries := disk.made path
      rooted := by
        intro entry hentry top htop hne
        rw [lookup_made]
        rcases List.mem_append.mp hentry with hmem | hmem
        · rw [get, disk.rooted entry hmem top htop hne]
          rfl
        · obtain ⟨made, hmade, rfl⟩ := List.mem_map.mp hmem
          have hpath : top <+: path :=
            ((List.mem_inits _ _).mp htop).trans ((List.mem_inits _ _).mp (List.mem_filter.mp hmade).1)
          rcases h top ((List.mem_inits _ _).mpr hpath) with hnone | hdir
          · rw [hnone, if_pos hpath]
            rfl
          · rw [hdir]
            rfl }
  else none

/-- Write a file into a directory. -/
def writeFile [DecidableEq C] (disk : Disk C) (path : List String) (content : C) : Option (Disk C) :=
  if h : (∀ top ∈ path.inits, top ≠ path → disk.get top = some .dir) ∧ disk.get path ≠ some .dir then
    some {
      entries := (path, .file content) :: disk.entries
      rooted := by
        intro entry hentry top htop hne
        have hold : disk.get top = some .dir := by
          rcases List.mem_cons.mp hentry with rfl | hmem
          · exact h.1 top htop hne
          · exact disk.rooted entry hmem top htop hne
        have hother : top ≠ path := by
          rintro rfl
          exact h.2 hold
        rw [List.lookup_cons, beq_eq_false_iff_ne.mpr hother]
        exact hold }
  else none

variable [DecidableEq C] {disk disk' : Disk C} {path other source destination : List String} {content : C}

theorem get_createDirAll (h : disk.createDirAll path = some disk') (other : List String) :
    disk'.get other = (disk.get other).or (if other <+: path then some .dir else none)
      ∧ (other <+: path → disk.get other = none ∨ disk.get other = some .dir) := by
  rw [createDirAll] at h
  split at h
  · rename_i hfree
    rw [← Option.some.inj h]
    exact ⟨lookup_made disk path other, fun hother => hfree other ((List.mem_inits _ _).mpr hother)⟩
  · cases h

theorem exists_createDirAll (h : ∀ top, top <+: path → disk.get top = none ∨ disk.get top = some .dir) :
    ∃ disk', disk.createDirAll path = some disk' := by
  rw [createDirAll, dif_pos fun top htop => h top ((List.mem_inits _ _).mp htop)]
  exact ⟨_, rfl⟩

theorem get_writeFile (h : disk.writeFile path content = some disk') (other : List String) :
    disk'.get other = (if other = path then some (.file content) else disk.get other)
      ∧ disk.get path ≠ some .dir := by
  rw [writeFile] at h
  split at h
  · rename_i hroom
    rw [← Option.some.inj h, get, List.lookup_cons]
    refine ⟨?_, hroom.2⟩
    by_cases hsame : other = path
    · rw [beq_iff_eq.mpr hsame, if_pos hsame]
    · rw [beq_eq_false_iff_ne.mpr hsame, if_neg hsame]
      rfl
  · cases h

theorem exists_writeFile (htops : ∀ top, top <+: path → top ≠ path → disk.get top = some .dir)
    (hroom : disk.get path ≠ some .dir) : ∃ disk', disk.writeFile path content = some disk' := by
  rw [writeFile, dif_pos ⟨fun top htop => htops top ((List.mem_inits _ _).mp htop), hroom⟩]
  exact ⟨_, rfl⟩

/-! ## Copying -/

/-- Copy a directory, without what is in it, or a file. -/
def copyEntry (disk : Disk C) (destination : List String) : DiskNode C → Option (Disk C)
  | .dir => disk.createDirAll destination
  | .file content => (disk.createDirAll destination.dropLast).bind fun disk => disk.writeFile destination content

/-- Copy what stands at one path below a place. -/
def copyPath (disk : Disk C) (source destination : List String) (copied : Disk C) (path : List String) :
    Option (Disk C) :=
  (disk.get path).elim (some copied) (copied.copyEntry (destination ++ path.drop source.length))

/-- The paths at a place and below it. -/
def pathsBelow (disk : Disk C) (source : List String) : List (List String) :=
  (disk.entries.map (·.1)).filter fun path => source <+: path

/-- Copy what stands at a place and below it, entry by entry.  What is copied into itself is read again and again,
until its paths are too long. -/
def copyTree (disk : Disk C) (source destination : List String) : Option (Disk C) :=
  if source <+: destination ∨ disk.get source = none then none
  else (disk.pathsBelow source).foldlM (disk.copyPath source destination) disk

/-- A tree laid over what stands at a place. -/
def overlay (under : List String → Option (DiskNode C)) (destination : List String)
    (tree : List String → Option (DiskNode C)) (path : List String) : Option (DiskNode C) :=
  if destination <+: path then (tree (path.drop destination.length)).or (under path)
  else if path <+: destination then (under path).or (some .dir)
  else under path

/-- The tree at a place. -/
def tree (disk : Disk C) (path : List String) (below : List String) : Option (DiskNode C) := disk.get (path ++ below)

theorem get_copyEntry {node : DiskNode C} (h : disk.copyEntry destination node = some disk') (other : List String) :
    disk'.get other = (if other = destination then some node
        else if other <+: destination then some .dir else disk.get other)
      ∧ (other <+: destination → other ≠ destination → disk.get other = none ∨ disk.get other = some .dir)
      ∧ (disk.get destination = some .dir → node = .dir) := by
  cases node with
  | dir =>
    obtain ⟨hget, hfree⟩ := get_createDirAll h other
    refine ⟨?_, fun hother _ => hfree hother, fun _ => rfl⟩
    rw [hget]
    by_cases hother : other <+: destination
    · rw [if_pos hother, if_pos hother, ite_self]
      rcases hfree hother with hnone | hdir
      · rw [hnone]
        rfl
      · rw [hdir]
        rfl
    · have hne : other ≠ destination := by
        rintro rfl
        exact hother (List.prefix_refl _)
      rw [if_neg hother, if_neg hother, if_neg hne, Option.or_none]
  | file content =>
    obtain ⟨made, hmade, hwrite⟩ := Option.bind_eq_some_iff.mp h
    obtain ⟨hget, hfree⟩ := get_createDirAll hmade other
    obtain ⟨hget', hroom⟩ := get_writeFile hwrite other
    rcases List.eq_nil_or_concat' destination with rfl | ⟨front, name, rfl⟩
    · have hroot : made.get [] = some .dir := by
        obtain ⟨hnil, hnilfree⟩ := get_createDirAll hmade []
        rw [hnil, List.dropLast_nil, if_pos (List.prefix_refl _)]
        rcases hnilfree (List.prefix_refl _) with hnone | hdir
        · rw [hnone]
          rfl
        · rw [hdir]
          rfl
      exact absurd hroot hroom
    · rw [List.dropLast_concat] at hget hfree
      have hdest : made.get (front ++ [name]) = disk.get (front ++ [name]) := by
        rw [(get_createDirAll hmade _).1, List.dropLast_concat, if_neg, Option.or_none]
        exact fun hle => absurd hle.length_le (by simp)
      refine ⟨?_, fun hother hne => hfree ((List.prefix_concat_iff.mp hother).resolve_left hne), ?_⟩
      · rw [hget']
        by_cases hsame : other = front ++ [name]
        · rw [if_pos hsame, if_pos hsame]
        · rw [if_neg hsame, if_neg hsame, hget]
          by_cases hother : other <+: front
          · rw [if_pos hother, if_pos (hother.trans (List.prefix_append _ _))]
            rcases hfree hother with hnone | hdir
            · rw [hnone]
              rfl
            · rw [hdir]
              rfl
          · have hno : ¬ other <+: front ++ [name] := fun hle =>
              hother ((List.prefix_concat_iff.mp hle).resolve_left hsame)
            rw [if_neg hother, if_neg hno, Option.or_none]
      · intro hdir
        rw [hdest] at hroom
        exact absurd hdir hroom

theorem exists_copyEntry {node : DiskNode C}
    (htops : ∀ top, top <+: destination → top ≠ destination → disk.get top = none ∨ disk.get top = some .dir)
    (hplace : disk.get destination = none ∨ disk.get destination = some node) (hne : destination ≠ []) :
    ∃ disk', disk.copyEntry destination node = some disk' := by
  cases node with
  | dir =>
    apply exists_createDirAll
    intro top htop
    by_cases hsame : top = destination
    · rw [hsame]
      exact hplace
    · exact htops top htop hsame
  | file content =>
    obtain ⟨front, name, rfl⟩ := (List.eq_nil_or_concat' destination).resolve_left hne
    have hlonger : ∀ top, top <+: front → top ≠ front ++ [name] := by
      rintro top htop rfl
      exact absurd htop.length_le (by simp)
    have hfront : ∀ top, top <+: front → disk.get top = none ∨ disk.get top = some .dir :=
      fun top htop => htops top (htop.trans (List.prefix_append _ _)) (hlonger top htop)
    obtain ⟨made, hmade⟩ := exists_createDirAll hfront
    have hwrite : ∃ disk', made.writeFile (front ++ [name]) content = some disk' := by
      apply exists_writeFile
      · intro top htop hne
        have hfront := (List.prefix_concat_iff.mp htop).resolve_left hne
        obtain ⟨hget, hfree⟩ := get_createDirAll hmade top
        rw [hget, if_pos hfront]
        rcases hfree hfront with hnone | hdir
        · rw [hnone]
          rfl
        · rw [hdir]
          rfl
      · rw [(get_createDirAll hmade _).1, if_neg fun hle => absurd hle.length_le (by simp), Option.or_none]
        rcases hplace with hnone | hfile
        · rw [hnone]
          exact (Option.some_ne_none _).symm
        · rw [hfile]
          simp
    obtain ⟨disk', hdisk'⟩ := hwrite
    refine ⟨disk', ?_⟩
    rw [copyEntry, List.dropLast_concat, hmade]
    exact hdisk'

/-- How far a tree is copied: a place is as it was, or as it will be; it is as it will be at and above what was copied. -/
def Laid (disk : Disk C) (source destination : List String) (done : List (List String)) (copied : Disk C) : Prop :=
  ∀ other, copied.get other = overlay disk.get destination (disk.tree source) other
    ∨ (copied.get other = disk.get other
        ∧ ∀ below, source ++ below ∈ done → (disk.get (source ++ below)).isSome → ¬ other <+: destination ++ below)

omit [DecidableEq C] in
theorem overlay_append (under tree : List String → Option (DiskNode C)) (destination below : List String) :
    overlay under destination tree (destination ++ below) = (tree below).or (under (destination ++ below)) := by
  rw [overlay, if_pos (List.prefix_append _ _), List.drop_left]

theorem laid_copyEntry {done : List (List String)} {copied copied' : Disk C} {below : List String}
    {node : DiskNode C} (hlaid : Laid disk source destination done copied) (hnode : disk.get (source ++ below) = some node)
    (h : copied.copyEntry (destination ++ below) node = some copied') :
    Laid disk source destination ((source ++ below) :: done) copied' := by
  intro other
  obtain ⟨hget, hfree, -⟩ := get_copyEntry h other
  rw [hget]
  by_cases hsame : other = destination ++ below
  · left
    rw [if_pos hsame, hsame, overlay_append, tree, hnode]
    rfl
  · rw [if_neg hsame]
    by_cases hother : other <+: destination ++ below
    · left
      rw [if_pos hother]
      by_cases hdestination : destination <+: other
      · -- a directory of the tree
        obtain ⟨rest, rfl⟩ := hdestination
        have hrest : rest <+: below := (List.prefix_append_right_inj _).mp hother
        have hne : source ++ rest ≠ source ++ below := fun heq => hsame (by rw [List.append_cancel_left heq])
        rw [overlay_append, tree, get_top (Option.isSome_iff_exists.mpr ⟨node, hnode⟩)
          ((List.prefix_append_right_inj _).mpr hrest) hne]
        rfl
      · -- a directory above the place
        have habove : other <+: destination :=
          (List.prefix_or_prefix_of_prefix hother (List.prefix_append _ _)).resolve_right hdestination
        have hlater : overlay disk.get destination (disk.tree source) other = (disk.get other).or (some .dir) := by
          rw [overlay, if_neg hdestination, if_pos habove]
        rw [hlater]
        rcases hlaid other with hcopied | ⟨hcopied, -⟩
        · rw [hlater] at hcopied
          rw [← hcopied]
          rcases hfree hother hsame with hnone | hdir
          · rw [hnone] at hcopied
            cases hold : disk.get other with
            | none => rw [hold] at hcopied; cases hcopied
            | some old => rw [hold] at hcopied; cases hcopied
          · exact hdir.symm
        · rcases hfree hother hsame with hnone | hdir
          · rw [← hcopied, hnone]
            rfl
          · rw [← hcopied, hdir]
            rfl
    · rw [if_neg hother]
      rcases hlaid other with hlater | ⟨hbefore, huntouched⟩
      · exact .inl hlater
      · refine .inr ⟨hbefore, fun below' hmem hsome => ?_⟩
        rcases List.mem_cons.mp hmem with heq | hmem
        · rw [List.append_cancel_left heq]
          exact hother
        · exact huntouched below' hmem hsome

omit [DecidableEq C] in
theorem mem_pathsBelow {below : List String} (h : (disk.get (source ++ below)).isSome) :
    source ++ below ∈ disk.pathsBelow source := by
  obtain ⟨node, hnode⟩ := Option.isSome_iff_exists.mp h
  refine List.mem_filter.mpr ⟨List.mem_map_of_mem (f := (·.1)) (exists_entry hnode), decide_eq_true ?_⟩
  exact List.prefix_append _ _

theorem laid_copyPath {done : List (List String)} {copied copied' : Disk C}
    (hlaid : Laid disk source destination done copied) (hpath : source <+: path)
    (h : disk.copyPath source destination copied path = some copied') :
    Laid disk source destination (path :: done) copied' := by
  obtain ⟨below, rfl⟩ := hpath
  rw [copyPath, List.drop_left] at h
  cases hnode : disk.get (source ++ below) with
  | none =>
    rw [hnode] at h
    rw [← Option.some.inj h]
    intro other
    refine (hlaid other).imp_right fun ⟨hbefore, huntouched⟩ => ⟨hbefore, fun below' hmem hsome => ?_⟩
    rcases List.mem_cons.mp hmem with heq | hmem
    · rw [heq, hnode] at hsome
      cases hsome
    · exact huntouched below' hmem hsome
  | some node =>
    rw [hnode] at h
    exact laid_copyEntry hlaid hnode h

theorem laid_foldlM {paths done : List (List String)} {copied copied' : Disk C}
    (hpaths : ∀ path ∈ paths, source <+: path) (hlaid : Laid disk source destination done copied)
    (h : paths.foldlM (disk.copyPath source destination) copied = some copied') :
    Laid disk source destination (paths.reverse ++ done) copied' := by
  induction paths generalizing done copied with
  | nil =>
    rw [← Option.some.inj h]
    exact hlaid
  | cons path rest ih =>
    rw [List.foldlM_cons] at h
    obtain ⟨next, hnext, hrest⟩ := Option.bind_eq_some_iff.mp h
    rw [List.reverse_cons, List.append_assoc]
    exact ih (fun p hp => hpaths p (List.mem_cons_of_mem _ hp))
      (laid_copyPath hlaid (hpaths path List.mem_cons_self) hnext) hrest

theorem copyTree_eq_some (h : disk.copyTree source destination = some disk') :
    ¬ source <+: destination ∧ (disk.get source).isSome
      ∧ (disk.pathsBelow source).foldlM (disk.copyPath source destination) disk = some disk' := by
  rw [copyTree] at h
  split at h
  · cases h
  · rename_i hcond
    rw [not_or] at hcond
    exact ⟨hcond.1, Option.isSome_iff_ne_none.mpr hcond.2, h⟩

omit [DecidableEq C] in
theorem source_of_mem_pathsBelow (h : path ∈ disk.pathsBelow source) : source <+: path :=
  of_decide_eq_true (List.mem_filter.mp h).2

/-- A copied tree is laid over what stood at the place. -/
theorem get_copyTree (h : disk.copyTree source destination = some disk') (other : List String) :
    disk'.get other = overlay disk.get destination (disk.tree source) other := by
  obtain ⟨-, hsome, hfold⟩ := copyTree_eq_some h
  have hstart : Laid disk source destination [] disk := fun other => .inr ⟨rfl, fun _ hmem => nomatch hmem⟩
  rcases laid_foldlM (fun _ => source_of_mem_pathsBelow) hstart hfold other with hlater | ⟨hbefore, huntouched⟩
  · exact hlater
  · have hno : ∀ below, (disk.get (source ++ below)).isSome → ¬ other <+: destination ++ below := by
      intro below hbelow
      refine huntouched below ?_ hbelow
      rw [List.append_nil, List.mem_reverse]
      exact mem_pathsBelow hbelow
    rw [hbefore]
    by_cases hdestination : destination <+: other
    · obtain ⟨rest, rfl⟩ := hdestination
      rw [overlay_append]
      cases hrest : disk.tree source rest with
      | none => rfl
      | some node => exact absurd (List.prefix_refl _) (hno rest (by rw [tree] at hrest; rw [hrest]; rfl))
    · have habove : ¬ other <+: destination := by
        have hroot := hno [] (by rwa [List.append_nil])
        rwa [List.append_nil] at hroot
      rw [overlay, if_neg hdestination, if_neg habove]

/-- A tree can be copied to a free place below directories. -/
theorem exists_copyTree (hapart : ¬ source <+: destination) (hsource : (disk.get source).isSome)
    (htops : ∀ top, top <+: destination → top ≠ destination → disk.get top = none ∨ disk.get top = some .dir)
    (hfree : ∀ below, disk.get (destination ++ below) = none) :
    ∃ disk', disk.copyTree source destination = some disk' := by
  have hne : destination ≠ [] := by
    rintro rfl
    have hnone := hfree source
    rw [List.nil_append] at hnone
    rw [hnone] at hsource
    cases hsource
  have hfold : ∀ (paths done : List (List String)) (copied : Disk C), (∀ path ∈ paths, source <+: path) →
      Laid disk source destination done copied →
      ∃ copied', paths.foldlM (disk.copyPath source destination) copied = some copied' := by
    intro paths
    induction paths with
    | nil => exact fun _ copied _ _ => ⟨copied, rfl⟩
    | cons path rest ih =>
      intro done copied hpaths hlaid
      have hpath := hpaths path List.mem_cons_self
      have hstep : ∃ next, disk.copyPath source destination copied path = some next := by
        obtain ⟨below, rfl⟩ := hpath
        rw [copyPath, List.drop_left]
        cases hnode : disk.get (source ++ below) with
        | none => exact ⟨copied, rfl⟩
        | some node =>
          refine exists_copyEntry ?_ ?_ (by simp [hne])
          · intro top htop htopne
            by_cases hdestination : destination <+: top
            · obtain ⟨front, rfl⟩ := hdestination
              have hfront : disk.get (source ++ front) = some .dir := by
                refine get_top (Option.isSome_iff_exists.mpr ⟨node, hnode⟩)
                  ((List.prefix_append_right_inj _).mpr ((List.prefix_append_right_inj _).mp htop)) ?_
                exact fun heq => htopne (by rw [List.append_cancel_left heq])
              rcases hlaid (destination ++ front) with hcopied | ⟨hcopied, -⟩
              · rw [overlay_append, tree, hfront] at hcopied
                exact .inr hcopied
              · exact .inl (hcopied.trans (hfree front))
            · have habove : top <+: destination :=
                (List.prefix_or_prefix_of_prefix htop (List.prefix_append _ _)).resolve_right hdestination
              have htopfree := htops top habove fun heq => hdestination (heq ▸ List.prefix_refl _)
              rcases hlaid top with hcopied | ⟨hcopied, -⟩
              · rw [overlay, if_neg hdestination, if_pos habove] at hcopied
                rcases htopfree with hnone | hdir
                · exact .inr (by rw [hcopied, hnone]; rfl)
                · exact .inr (by rw [hcopied, hdir]; rfl)
              · rw [hcopied]
                exact htopfree
          · rcases hlaid (destination ++ below) with hcopied | ⟨hcopied, -⟩
            · rw [overlay_append, tree, hnode] at hcopied
              exact .inr hcopied
            · exact .inl (hcopied.trans (hfree below))
      obtain ⟨next, hnext⟩ := hstep
      obtain ⟨copied', hcopied'⟩ := ih (path :: done) next (fun p hp => hpaths p (List.mem_cons_of_mem _ hp))
        (laid_copyPath hlaid hpath hnext)
      refine ⟨copied', ?_⟩
      rw [List.foldlM_cons, hnext]
      exact hcopied'
  have hstart : Laid disk source destination [] disk := fun other => .inr ⟨rfl, fun _ hmem => nomatch hmem⟩
  rw [copyTree, if_neg (not_or.mpr ⟨hapart, Option.isSome_iff_ne_none.mp hsource⟩)]
  exact hfold _ [] disk (fun _ => source_of_mem_pathsBelow) hstart

/-- A directory stays one. -/
theorem copyTree_dir (h : disk.copyTree source destination = some disk') (hdir : disk.get other = some .dir) :
    disk'.get other = some .dir := by
  have hfold : ∀ (paths : List (List String)) (copied copied' : Disk C),
      paths.foldlM (disk.copyPath source destination) copied = some copied' → copied.get other = some .dir →
      copied'.get other = some .dir := by
    intro paths
    induction paths with
    | nil =>
      intro copied copied' hsame hcopied
      rw [← Option.some.inj hsame]
      exact hcopied
    | cons path rest ih =>
      intro copied copied' hfold hcopied
      rw [List.foldlM_cons] at hfold
      obtain ⟨next, hnext, hrest⟩ := Option.bind_eq_some_iff.mp hfold
      refine ih next copied' hrest ?_
      rw [copyPath] at hnext
      cases hnode : disk.get path with
      | none =>
        rw [hnode] at hnext
        rw [← Option.some.inj hnext]
        exact hcopied
      | some node =>
        rw [hnode] at hnext
        obtain ⟨hget, -, hplace⟩ := get_copyEntry hnext other
        rw [hget]
        by_cases hsame : other = destination ++ path.drop source.length
        · rw [if_pos hsame, hplace (hsame ▸ hcopied)]
        · rw [if_neg hsame, hcopied, ite_self]
  exact hfold _ disk disk' (copyTree_eq_some h).2.2 hdir

end Disk
