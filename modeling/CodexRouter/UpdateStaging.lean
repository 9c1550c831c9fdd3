/-
# Staged updates

`extract_and_verify_archive` unpacks the archive of a release into a new directory beside the
installation and verifies the release there.  A name of the archive is joined to the path of that
directory segment by segment, and a joined path is read as the file system reads it: it can lead to
the directory above, and out of the parent directory.  No accepted name does (`joinAll_of_safe`), so
nothing outside of the new directory changes (`extract_confined`), and a release that is handed over
has the files of the archive and no others (`extract_exact`).
-/
import CodexRouter.Base.DirTrees
import CodexRouter.Base.Segments
import CodexRouter.UpdateRollback

namespace CodexRouter

open Text

/-! ## Names -/

/-- `sanitize_version`. -/
def sanitizeVersion (value : String) : String :=
  mapChars (fun c => if isAsciiAlphanumeric c || c = '.' || c = '-' || c = '_' then c else '_') value

/-- The conditions on a segment of a name. -/
def isUnsafeSegment (segment : String) : Bool :=
  segment = "" || segment = "." || segment = ".." || contains segment ":"

/-- `safe_archive_name`. -/
def safeArchiveName (value : String) : Except String String :=
  if value = "" || contains value "\\" || startsWith value "/" || value.toList.any fun c => c.toNat < 0x20 then
    .error "the update ZIP contains an absolute or invalid path"
  else
    let directory := endsWith value "/"
    let trimmed := trimEndMatches (· = '/') value
    if trimmed = "" then .error "the update ZIP contains an empty path"
    else if (split (· = '/') trimmed).any isUnsafeSegment then
      .error "the update ZIP contains a non-canonical or traversal path"
    else .ok (if directory then trimmed ++ "/" else trimmed)

/-- A component of a path, as the file system reads it; nothing is above the directory the paths start
in. -/
def joinComponent (path : List String) (component : String) : Option (List String) :=
  if component = "" || component = "." then some path
  else if component = ".." then (if path = [] then none else some path.dropLast)
  else some (path ++ [toAsciiLowercase component])

/-- `PathBuf::join`.  What starts with a separator, or names a volume or a stream, leads elsewhere. -/
def joinSegment (path : List String) (segment : String) : Option (List String) :=
  if startsWith segment "/" || startsWith segment "\\" || contains segment ":" then none
  else (split (fun c => c = '/' || c = '\\') segment).foldlM joinComponent path

/-! ## Archives -/

/-- An entry of an archive. -/
structure PackageEntry (C : Type) where
  name : String
  readable : Bool
  unixMode : Option ℕ
  /-- The declared size. -/
  size : ℕ
  /-- What copying the entry writes, and whether it comes to the end. -/
  content : C
  whole : Bool

namespace PackageEntry

variable {C : Type} (entry : PackageEntry C)

/-- A file, by its name. -/
def isFile : Bool := !endsWith entry.name "/"

/-- The name up to ASCII case. -/
def canonical : String := toAsciiLowercase (trimEndMatches (· = '/') entry.name)

/-- The path below the new directory. -/
def path : List String := (split (· = '/') (trimEndMatches (· = '/') entry.name)).map toAsciiLowercase

end PackageEntry

/-- What the loop over the entries keeps. -/
structure Admitted where
  rootName : Option String
  seen : List String
  totalSize : ℕ
  deriving DecidableEq, Repr

def maxArchiveEntries : ℕ := 50000

def maxUncompressedBytes : ℕ := 8 * 1024 * 1024 * 1024

/-- The checks of a round of the loop, with the segments of the name. -/
def admitEntry {C : Type} (entry : PackageEntry C) (so : Admitted) : Except String (List String × Admitted) :=
  if !entry.readable then .error "could not read an update ZIP entry"
  else if entry.unixMode.any fun mode => mode &&& 0o170000 = 0o120000 then
    .error "the update ZIP contains a symbolic link"
  else
    match safeArchiveName entry.name with
    | .error e => .error e
    | .ok name =>
      let trimmed := trimEndMatches (· = '/') name
      if toAsciiLowercase trimmed ∈ so.seen then .error "the update ZIP contains duplicate case-insensitive paths"
      else
        match (split (· = '/') trimmed).head? with
        | none => .error "the update ZIP contains an empty path"
        | some first =>
          if so.rootName.any fun root => !eqIgnoreAsciiCase root first then
            .error "the update ZIP contains more than one release root"
          else if 2 ^ 64 ≤ so.totalSize + entry.size then .error "the update ZIP size overflowed"
          else if maxUncompressedBytes < so.totalSize + entry.size then
            .error "the update ZIP exceeds the safe uncompressed-size limit"
          else
            .ok (split (· = '/') trimmed,
              ⟨some (so.rootName.getD first), toAsciiLowercase trimmed :: so.seen, so.totalSize + entry.size⟩)

/-- The accesses to the file system that can fail. -/
inductive ExtractStep where
  | createContainer
  | createDir (name : String)
  | createParent (name : String)
  | createFile (name : String)
  | verify
  deriving DecidableEq, Repr

/-- An access that does not fail by itself. -/
def unlessFails {α : Type} (failed : Bool) (result : Option α) : Option α := if failed then none else result

/-- The parent directory of the installation, and the names that led out of it. -/
structure StagingWorld (C : Type) where
  tree : DirTree C
  outside : List String

section

variable {C : Type} (libs : ReleaseLibs C) (fails : ExtractStep → Bool)

/-- The end of a round: the directory or the file of the entry. -/
def placeEntry (container : List String) (entry : PackageEntry C) (segments : List String) (world : StagingWorld C) :
    Except String Unit × StagingWorld C :=
  match segments.foldlM joinSegment container with
  | none => (.ok (), { world with outside := world.outside ++ [entry.name] })
  | some path =>
    if !entry.isFile then
      match unlessFails (fails (.createDir entry.name)) (world.tree.createDirAll path) with
      | none => (.error ioError, world)
      | some tree => (.ok (), { world with tree := tree })
    else
      match unlessFails (fails (.createParent entry.name)) (world.tree.createDirAll path.dropLast) with
      | none => (.error ioError, world)
      | some tree =>
        match unlessFails (fails (.createFile entry.name)) (tree.writeFile path entry.content) with
        | none => (.error ioError, { world with tree := tree })
        | some tree => (if entry.whole then .ok () else .error ioError, { world with tree := tree })

/-- The loop over the entries. -/
def extractAll (container : List String) : List (PackageEntry C) → Admitted → StagingWorld C →
    Except String Admitted × StagingWorld C
  | [], so, world => (.ok so, world)
  | entry :: rest, so, world =>
    match admitEntry entry so with
    | .error e => (.error e, world)
    | .ok (segments, so) =>
      match placeEntry fails container entry segments world with
      | (.error e, world) => (.error e, world)
      | (.ok (), world) => extractAll container rest so world

/-- `extract_and_verify_archive` behind the creation of its directory; the archive is what `ZipArchive::new`
reads. -/
def unpackArchive (container : List String) (archive : Except String (List (PackageEntry C))) (world : StagingWorld C) :
    Except String (List String) × StagingWorld C :=
  match archive with
  | .error e => (.error e, world)
  | .ok entries =>
    if entries.isEmpty || maxArchiveEntries < entries.length then
      (.error "the update ZIP has an invalid number of entries", world)
    else
      match extractAll fails container entries ⟨none, [], 0⟩ world with
      | (.error e, world) => (.error e, world)
      | (.ok so, world) =>
        match so.rootName.bind (joinSegment container) with
        | none => (.error "the update ZIP has no release root", world)
        | some staged =>
          if fails .verify then (.error ioError, world)
          else
            match verifyReleaseRoot libs (world.tree.entries.subtree staged) true with
            | .error e => (.error e, world)
            | .ok () => (.ok staged, world)

/-- The name of the directory an archive is unpacked into. -/
def stagingName (version suffix : String) : String :=
  toAsciiLowercase (".codex-router-update-" ++ sanitizeVersion version ++ "-" ++ suffix)

/-- `extract_and_verify_archive`, with what cannot be removed after an error. -/
def extractAndVerifyArchive (stuck : List (List String)) (container : String)
    (archive : Except String (List (PackageEntry C))) (parent : DirTree C) :
    Except String (List String) × StagingWorld C :=
  match unlessFails (fails .createContainer) (parent.createDir [container]) with
  | none => (.error "could not create the same-volume update staging area", ⟨parent, []⟩)
  | some tree =>
    match unpackArchive libs fails [container] archive ⟨tree, []⟩ with
    | (.ok staged, world) => (.ok staged, world)
    | (.error e, world) =>
      (.error e, { world with tree := world.tree.removeAll [container] (List.cons_ne_nil _ _) stuck })

end

/-! ## Where names lead -/

theorem ignoresCase_slash : IgnoresCase fun c => decide (c = '/') := ignoresCase_eq (.inl (by decide))

section

variable {C : Type} {entry entry' : PackageEntry C} {value name : String} {path : List String}

/-- What is known of the segments of an accepted name. -/
structure SafeSegment (segment : String) : Prop where
  notUnsafe : isUnsafeSegment segment = false
  slash : '/' ∉ segment.toList
  backslash : '\\' ∉ segment.toList

theorem of_safeArchiveName (h : safeArchiveName value = .ok name) :
    trimEndMatches (· = '/') name = trimEndMatches (· = '/') value
      ∧ ∀ segment ∈ split (· = '/') (trimEndMatches (· = '/') value), SafeSegment segment := by
  rw [safeArchiveName] at h
  split at h
  · cases h
  rename_i hstart
  simp only [Bool.or_eq_true, not_or, Bool.not_eq_true] at hstart
  have hback : '\\' ∉ value.toList := by
    intro hc
    have hfound := (contains_ofList_singleton value '\\').mpr hc
    rw [show String.ofList ['\\'] = "\\" from rfl, hstart.1.1.2] at hfound
    cases hfound
  dsimp only at h
  split at h
  · cases h
  split at h
  · cases h
  rename_i hsegments
  constructor
  · rw [← Except.ok.inj h]
    split
    · rw [show "/" = String.ofList ['/'] from rfl, trimEndMatches_append (by decide), trimEndMatches_trimEndMatches]
    · exact trimEndMatches_trimEndMatches _ _
  · intro segment hsegment
    rw [List.any_eq_true, not_exists] at hsegments
    constructor
    · cases hunsafe : isUnsafeSegment segment with
      | false => rfl
      | true => exact absurd ⟨hsegment, hunsafe⟩ (hsegments segment)
    · intro hc
      simpa using (of_mem_split hsegment hc).1
    · intro hc
      have hmem := (of_mem_split hsegment hc).2
      rw [trimEndMatches, String.toList_ofList, List.mem_reverse] at hmem
      exact hback (List.mem_reverse.mp ((List.dropWhile_sublist _).mem hmem))

/-- A safe segment leads to what it names in the directory. -/
theorem joinSegment_of_safe {segment : String} (h : SafeSegment segment) (path : List String) :
    joinSegment path segment = some (path ++ [toAsciiLowercase segment]) := by
  have hparts := h.notUnsafe
  simp only [isUnsafeSegment, Bool.or_eq_false_iff, decide_eq_false_iff_not] at hparts
  obtain ⟨⟨⟨hempty, hdot⟩, hdots⟩, hcolon⟩ := hparts
  have hstart : ∀ c : Char, c ∉ segment.toList → startsWith segment (String.ofList [c]) = false := by
    intro c hc
    rw [startsWith, String.toList_ofList]
    cases hlist : segment.toList with
    | nil => rfl
    | cons d rest =>
      rw [hlist, List.mem_cons, not_or] at hc
      rw [List.isPrefixOf_cons_cons, beq_eq_false_iff_ne.mpr hc.1, Bool.false_and]
  have hsplit : split (fun c => c = '/' || c = '\\') segment = [segment] := by
    apply split_eq_self
    intro c hc
    rw [Bool.or_eq_false_iff, decide_eq_false_iff_not, decide_eq_false_iff_not]
    constructor
    · rintro rfl
      exact h.slash hc
    · rintro rfl
      exact h.backslash hc
  rw [joinSegment, show ("/" : String) = String.ofList ['/'] from rfl, hstart _ h.slash,
    show ("\\" : String) = String.ofList ['\\'] from rfl, hstart _ h.backslash, hcolon, if_neg (by decide), hsplit]
  show (joinComponent path segment).bind some = _
  rw [joinComponent, if_neg (by simp [hempty, hdot]), if_neg hdots]
  rfl

/-- **Joined names stay below the directory** they are joined to. -/
theorem joinAll_of_safe {segments : List String} (h : ∀ segment ∈ segments, SafeSegment segment) (path : List String) :
    segments.foldlM joinSegment path = some (path ++ segments.map toAsciiLowercase) := by
  induction segments generalizing path with
  | nil =>
    rw [List.map_nil, List.append_nil]
    rfl
  | cons segment rest ih =>
    rw [List.foldlM_cons, joinSegment_of_safe (h segment List.mem_cons_self)]
    show rest.foldlM joinSegment (path ++ [toAsciiLowercase segment]) = _
    rw [ih fun other hother => h other (List.mem_cons_of_mem _ hother), List.map_cons, List.append_assoc]
    rfl

/-- A name that is not accepted leads out of the directory, or to the file of an installation beside it. -/
example : [".."].foldlM joinSegment ["staging"] = some []
    ∧ ["..", "router", "codex-router.exe"].foldlM joinSegment ["staging"] = some ["router", "codex-router.exe"]
    ∧ ["..", ".."].foldlM joinSegment ["staging"] = none := by decide +kernel

theorem path_eq_split (entry : PackageEntry C) : entry.path = split (· = '/') entry.canonical :=
  (split_toAsciiLowercase ignoresCase_slash _).symm

/-- Entries of one path have one name, up to the letter case. -/
theorem canonical_eq_of_path (h : entry.path = entry'.path) : entry.canonical = entry'.canonical := by
  rw [path_eq_split, path_eq_split] at h
  exact split_injective h

/-! ## The rounds of the loop -/

/-- What the checks say of an entry. -/
structure EntryAdmitted (entry : PackageEntry C) (so so' : Admitted) (segments : List String) : Prop where
  lowered : segments.map toAsciiLowercase = entry.path
  safe : ∀ segment ∈ segments, SafeSegment segment
  new : entry.canonical ∉ so.seen
  seen : so'.seen = entry.canonical :: so.seen
  root : ∃ root, so'.rootName = some root ∧ entry.path.head? = some (toAsciiLowercase root)
    ∧ (so.rootName = some root ∨ so.rootName = none ∧ SafeSegment root)

variable {so so' : Admitted} {segments : List String}

theorem entryAdmitted_of_admitEntry (h : admitEntry entry so = .ok (segments, so')) :
    EntryAdmitted entry so so' segments := by
  rw [admitEntry] at h
  split at h
  · cases h
  split at h
  · cases h
  split at h
  · cases h
  rename_i name hname
  obtain ⟨htrimmed, hsafe⟩ := of_safeArchiveName hname
  dsimp only at h
  rw [htrimmed] at h
  split at h
  · cases h
  rename_i hnew
  split at h
  · cases h
  rename_i first hfirst
  split at h
  · cases h
  rename_i hroot
  split at h
  · cases h
  split at h
  · cases h
  obtain ⟨rfl, rfl⟩ := Prod.mk.inj (Except.ok.inj h)
  have hhead : entry.path.head? = some (toAsciiLowercase first) := by
    rw [PackageEntry.path, List.head?_map, hfirst]
    rfl
  refine ⟨rfl, hsafe, hnew, rfl, ?_⟩
  cases hso : so.rootName with
  | none => exact ⟨first, rfl, hhead, .inr ⟨rfl, hsafe first (List.mem_of_mem_head? hfirst)⟩⟩
  | some root =>
    rw [hso, Option.any_some, Bool.not_eq_true', Bool.not_eq_false, eqIgnoreAsciiCase, beq_iff_eq] at hroot
    exact ⟨root, rfl, hroot ▸ hhead, .inl rfl⟩

theorem EntryAdmitted.path_ne_nil (h : EntryAdmitted entry so so' segments) : entry.path ≠ [] := by
  obtain ⟨root, -, hhead, -⟩ := h.root
  intro hnil
  rw [hnil] at hhead
  cases hhead

/-- The new directory is there, and outside of it nothing has changed. -/
structure Confined (container : List String) (start : DirTree C) (world : StagingWorld C) : Prop where
  outside : world.outside = []
  there : world.tree.entries.get container = some .dir
  frame : ∀ other, ¬ container <+: other → world.tree.entries.get other = start.entries.get other

variable {container : List String} {start tree : DirTree C} {world world' : StagingWorld C}
  {fails : ExtractStep → Bool} {result : Except String Unit}

/-- Creating directories below the new one. -/
theorem Confined.createDirAll (h : Confined container start world)
    (hcreate : world.tree.createDirAll (container ++ path) = some tree) :
    Confined container start { world with tree := tree } where
  outside := h.outside
  there := by
    rw [DirTree.get_of_createDirAll hcreate, h.there]
    rfl
  frame := by
    intro other hother
    rw [DirTree.get_of_createDirAll hcreate, ← h.frame other hother]
    split
    · rename_i hpfx
      -- a top of the path that is not below the container is above it
      have habove : other <+: container := by
        rcases le_total other.length container.length with hle | hle
        · exact List.prefix_of_prefix_length_le hpfx (List.prefix_append _ _) hle
        · exact absurd (List.prefix_of_prefix_length_le (List.prefix_append _ _) hpfx hle) hother
      rw [world.tree.get_of_prefix (FileTree.mem_paths_of_get h.there) habove]
      · rfl
      · rintro rfl
        exact hother (List.prefix_refl _)
    · rw [Option.or_none]

/-- Writing a file below it. -/
theorem Confined.writeFile {content : C} (h : Confined container start world) (hne : path ≠ [])
    (hwrite : world.tree.writeFile (container ++ path) content = some tree) :
    Confined container start { world with tree := tree } where
  outside := h.outside
  there := by
    rw [DirTree.get_of_writeFile hwrite, if_neg (by simpa using hne)]
    exact h.there
  frame := by
    intro other hother
    rw [DirTree.get_of_writeFile hwrite, if_neg]
    · exact h.frame other hother
    · rintro rfl
      exact hother (List.prefix_append _ _)

theorem of_unlessFails {α : Type} {failed : Bool} {o : Option α} {a : α} (h : unlessFails failed o = some a) :
    o = some a := by
  rw [unlessFails] at h
  split at h
  · cases h
  · exact h

/-- What the end of a round can do. -/
theorem placeEntry_cases (hadmitted : EntryAdmitted entry so so' segments)
    (h : placeEntry fails container entry segments world = (result, world')) :
    (∃ e, result = .error e) ∧ world' = world
    ∨ entry.isFile = false ∧ result = .ok ()
      ∧ (∃ tree, world.tree.createDirAll (container ++ entry.path) = some tree ∧ world' = { world with tree := tree })
    ∨ entry.isFile = true ∧ ∃ tree, world.tree.createDirAll (container ++ entry.path.dropLast) = some tree
      ∧ ((∃ e, result = .error e) ∧ world' = { world with tree := tree }
        ∨ (result = .ok () → entry.whole = true)
          ∧ ∃ tree', tree.writeFile (container ++ entry.path) entry.content = some tree'
            ∧ world' = { world with tree := tree' }) := by
  rw [placeEntry, joinAll_of_safe hadmitted.safe, hadmitted.lowered] at h
  dsimp only at h
  rw [List.dropLast_append_of_ne_nil hadmitted.path_ne_nil] at h
  split at h
  · rename_i hdir
    rw [Bool.not_eq_true'] at hdir
    split at h
    · obtain ⟨rfl, rfl⟩ := Prod.mk.inj h
      exact .inl ⟨⟨_, rfl⟩, rfl⟩
    · rename_i tree htree
      obtain ⟨rfl, rfl⟩ := Prod.mk.inj h
      exact .inr (.inl ⟨hdir, rfl, tree, of_unlessFails htree, rfl⟩)
  · rename_i hfile
    rw [Bool.not_eq_true', Bool.not_eq_false] at hfile
    split at h
    · obtain ⟨rfl, rfl⟩ := Prod.mk.inj h
      exact .inl ⟨⟨_, rfl⟩, rfl⟩
    · rename_i tree htree
      refine .inr (.inr ⟨hfile, tree, of_unlessFails htree, ?_⟩)
      split at h
      · obtain ⟨rfl, rfl⟩ := Prod.mk.inj h
        exact .inl ⟨⟨_, rfl⟩, rfl⟩
      · rename_i tree' htree'
        obtain ⟨hresult, rfl⟩ := Prod.mk.inj h
        refine .inr ⟨?_, tree', of_unlessFails htree', rfl⟩
        rintro rfl
        split at hresult
        · assumption
        · cases hresult

/-- A round stays in the new directory. -/
theorem Confined.place (hconfined : Confined container start world) (hadmitted : EntryAdmitted entry so so' segments)
    (h : placeEntry fails container entry segments world = (result, world')) : Confined container start world' := by
  rcases placeEntry_cases hadmitted h with ⟨-, rfl⟩ | ⟨-, -, tree, htree, rfl⟩
    | ⟨-, tree, htree, ⟨-, rfl⟩ | ⟨-, tree', htree', rfl⟩⟩
  · exact hconfined
  · exact hconfined.createDirAll htree
  · exact hconfined.createDirAll htree
  · exact (hconfined.createDirAll htree).writeFile hadmitted.path_ne_nil htree'

/-- **The loop stays in the new directory**, however it ends. -/
theorem Confined.loop {entries : List (PackageEntry C)} {ended : Except String Admitted}
    (hconfined : Confined container start world)
    (h : extractAll fails container entries so world = (ended, world')) : Confined container start world' := by
  induction entries generalizing so world with
  | nil =>
    obtain ⟨-, rfl⟩ := Prod.mk.inj h
    exact hconfined
  | cons entry rest ih =>
    rw [extractAll] at h
    split at h
    · obtain ⟨-, rfl⟩ := Prod.mk.inj h
      exact hconfined
    · rename_i segments so₁ hadmit
      cases hplace : placeEntry fails container entry segments world with
      | mk result world₁ =>
        have hnext := hconfined.place (entryAdmitted_of_admitEntry hadmit) hplace
        rw [hplace] at h
        cases result with
        | error e =>
          obtain ⟨-, rfl⟩ := Prod.mk.inj h
          exact hnext
        | ok u => exact ih hnext h

/-- The new directory has the files of the entries that were gone through. -/
structure Unpacked (container : List String) (done : List (PackageEntry C)) (so : Admitted) (tree : DirTree C) :
    Prop where
  files : ∀ path content, tree.entries.get (container ++ path) = some (.file content)
    ↔ ∃ entry ∈ done, entry.isFile = true ∧ entry.path = path ∧ entry.content = content
  links : ∀ path target, tree.entries.get (container ++ path) ≠ some (.link target)
  dirs : ∀ path, path ≠ [] → tree.entries.get (container ++ path) = some .dir → ∃ entry ∈ done, path <+: entry.path
  seen : ∀ entry ∈ done, entry.canonical ∈ so.seen
  root : ∀ entry ∈ done, ∃ root, so.rootName = some root ∧ entry.path.head? = some (toAsciiLowercase root)
  safe : ∀ root, so.rootName = some root → SafeSegment root
  whole : ∀ entry ∈ done, entry.isFile = true → entry.whole = true

variable {done : List (PackageEntry C)}

/-- A round adds its entry. -/
theorem Unpacked.place (h : Unpacked container done so world.tree) (hadmitted : EntryAdmitted entry so so' segments)
    (hplace : placeEntry fails container entry segments world = (.ok (), world')) :
    Unpacked container (done ++ [entry]) so' world'.tree := by
  obtain ⟨root, hroot, hhead, hbefore⟩ := hadmitted.root
  have hold : ∀ other ∈ done, ∃ root, so'.rootName = some root ∧ other.path.head? = some (toAsciiLowercase root) := by
    intro other hother
    obtain ⟨first, hfirst, hotherHead⟩ := h.root other hother
    rcases hbefore with hbefore | ⟨hnone, -⟩
    · rw [hbefore, Option.some.injEq] at hfirst
      exact ⟨root, hroot, hfirst ▸ hotherHead⟩
    · rw [hnone] at hfirst
      cases hfirst
  have hsafe : ∀ other, so'.rootName = some other → SafeSegment other := by
    intro other hother
    rw [hroot, Option.some.injEq] at hother
    subst hother
    rcases hbefore with hbefore | ⟨-, hroot⟩
    · exact h.safe root hbefore
    · exact hroot
  have hseen : ∀ other ∈ done ++ [entry], other.canonical ∈ so'.seen := by
    intro other hother
    rw [hadmitted.seen]
    rcases List.mem_append.mp hother with hother | hother
    · exact List.mem_cons_of_mem _ (h.seen other hother)
    · rw [List.mem_singleton.mp hother]
      exact List.mem_cons_self
  have hroots : ∀ other ∈ done ++ [entry], ∃ root, so'.rootName = some root
      ∧ other.path.head? = some (toAsciiLowercase root) := by
    intro other hother
    rcases List.mem_append.mp hother with hother | hother
    · exact hold other hother
    · rw [List.mem_singleton.mp hother]
      exact ⟨root, hroot, hhead⟩
  have hdirs : ∀ {top : List String} {tree : DirTree C}, top <+: entry.path →
      world.tree.createDirAll (container ++ top) = some tree → ∀ path, path ≠ [] →
      tree.entries.get (container ++ path) = some .dir → ∃ other ∈ done ++ [entry], path <+: other.path := by
    intro top tree htop htree path hne hget
    rw [DirTree.get_of_createDirAll htree, Option.or_eq_some_iff] at hget
    rcases hget with hget | ⟨-, hget⟩
    · obtain ⟨other, hother, hpfx⟩ := h.dirs path hne hget
      exact ⟨other, List.mem_append_left _ hother, hpfx⟩
    · split at hget
      · rename_i hpfx
        exact ⟨entry, List.mem_append_right _ (List.mem_singleton.mpr rfl),
          ((List.prefix_append_right_inj _).mp hpfx).trans htop⟩
      · cases hget
  rcases placeEntry_cases hadmitted hplace with ⟨⟨e, herror⟩, -⟩ | ⟨hdir, -, tree, htree, rfl⟩
    | ⟨hfile, tree, htree, ⟨⟨e, herror⟩, -⟩ | ⟨hwhole, tree', htree', rfl⟩⟩
  · cases herror
  · refine ⟨?_, ?_, ?_, hseen, hroots, hsafe, ?_⟩
    · intro path content
      rw [DirTree.get_eq_some_iff_of_createDirAll htree (by simp), h.files]
      simp [or_and_right, exists_or, hdir]
    · intro path target hlink
      rw [DirTree.get_eq_some_iff_of_createDirAll htree (by simp)] at hlink
      exact h.links path target hlink
    · intro path hne hget
      exact hdirs (List.prefix_refl _) htree path hne hget
    · intro other hother hotherFile
      rcases List.mem_append.mp hother with hother | hother
      · exact h.whole other hother hotherFile
      · rw [List.mem_singleton.mp hother, hdir] at hotherFile
        cases hotherFile
  · cases herror
  · refine ⟨?_, ?_, ?_, hseen, hroots, hsafe, ?_⟩
    · intro path content
      rw [DirTree.get_of_writeFile htree']
      simp only [List.append_right_inj]
      split
      · rename_i hsame
        have hpath : entry.path = path := hsame.symm
        subst hpath
        constructor
        · intro hcontent
          exact ⟨entry, List.mem_append_right _ (List.mem_singleton.mpr rfl), hfile, rfl, by simpa using hcontent⟩
        · rintro ⟨other, hother, -, hpath, rfl⟩
          rcases List.mem_append.mp hother with hother | hother
          · -- an entry of the same path has the same name, which was seen before
            exact absurd (canonical_eq_of_path hpath ▸ h.seen other hother) hadmitted.new
          · rw [List.mem_singleton.mp hother]
      · rename_i hpath
        rw [DirTree.get_eq_some_iff_of_createDirAll htree (by simp), h.files]
        have hnot : entry.path ≠ path := fun hsame => hpath hsame.symm
        simp [or_and_right, exists_or, hnot]
    · intro path target hlink
      rw [DirTree.get_of_writeFile htree'] at hlink
      split at hlink
      · cases hlink
      · rw [DirTree.get_eq_some_iff_of_createDirAll htree (by simp)] at hlink
        exact h.links path target hlink
    · intro path hne hget
      rw [DirTree.get_of_writeFile htree'] at hget
      split at hget
      · cases hget
      · exact hdirs (List.dropLast_prefix _) htree path hne hget
    · intro other hother hotherFile
      rcases List.mem_append.mp hother with hother | hother
      · exact h.whole other hother hotherFile
      · rw [List.mem_singleton.mp hother]
        exact hwhole rfl

/-- The loop goes through all entries. -/
theorem Unpacked.loop {entries : List (PackageEntry C)} (h : Unpacked container done so world.tree)
    (hloop : extractAll fails container entries so world = (.ok so', world')) :
    Unpacked container (done ++ entries) so' world'.tree := by
  induction entries generalizing done so world with
  | nil =>
    obtain ⟨hso, rfl⟩ := Prod.mk.inj hloop
    obtain rfl := Except.ok.inj hso
    rw [List.append_nil]
    exact h
  | cons entry rest ih =>
    rw [extractAll] at hloop
    split at hloop
    · cases hloop
    · rename_i segments so₁ hadmit
      cases hplace : placeEntry fails container entry segments world with
      | mk result world₁ =>
        rw [hplace] at hloop
        cases result with
        | error e => cases hloop
        | ok u =>
          have hnext := ih (h.place (entryAdmitted_of_admitEntry hadmit) hplace) hloop
          rwa [List.append_assoc, List.singleton_append] at hnext

end

/-! ## The whole archive -/

section

variable {C : Type} {libs : ReleaseLibs C} {fails : ExtractStep → Bool} {stuck : List (List String)}
  {container : String} {archive : Except String (List (PackageEntry C))} {parent tree : DirTree C}
  {result : Except String (List String)} {world : StagingWorld C}

theorem confined_of_createDir (h : parent.createDir [container] = some tree) :
    Confined [container] parent ⟨tree, []⟩ := by
  obtain ⟨-, -, hget⟩ := DirTree.get_of_createDir h
  refine ⟨rfl, ?_, ?_⟩
  · rw [hget, if_pos rfl]
  · intro other hother
    rw [hget, if_neg]
    rintro rfl
    exact hother (List.prefix_refl _)

theorem unpacked_of_createDir (h : parent.createDir [container] = some tree) :
    Unpacked [container] [] ⟨none, [], 0⟩ tree := by
  obtain ⟨-, hnone, hget⟩ := DirTree.get_of_createDir h
  have hbelow : ∀ path, tree.entries.get ([container] ++ path) = if path = [] then some .dir else none := by
    intro path
    rw [hget]
    simp only [List.append_right_eq_self]
    split
    · rfl
    · exact DirTree.get_below_of_none hnone (List.prefix_append _ _)
  refine ⟨?_, ?_, ?_, by simp, by simp, by simp, by simp⟩
  · intro path content
    rw [hbelow]
    split <;> simp
  · intro path target
    rw [hbelow]
    split <;> simp
  · intro path hne hget
    rw [hbelow, if_neg hne] at hget
    cases hget

theorem confined_of_unpackArchive {path : List String} {before : StagingWorld C} (h : Confined path parent before)
    (hunpack : unpackArchive libs fails path archive before = (result, world)) : Confined path parent world := by
  cases archive with
  | error e =>
    obtain ⟨-, rfl⟩ := Prod.mk.inj hunpack
    exact h
  | ok entries =>
  rw [unpackArchive] at hunpack
  split at hunpack
  · obtain ⟨-, rfl⟩ := Prod.mk.inj hunpack
    exact h
  cases hloop : extractAll fails path entries ⟨none, [], 0⟩ before with
  | mk ended after =>
    have hafter := h.loop hloop
    rw [hloop] at hunpack
    have hworld : after = world := by
      cases ended with
      | error e => exact (Prod.mk.inj hunpack).2
      | ok so =>
        dsimp only at hunpack
        split at hunpack
        · exact (Prod.mk.inj hunpack).2
        split at hunpack
        · exact (Prod.mk.inj hunpack).2
        split at hunpack
        · exact (Prod.mk.inj hunpack).2
        · exact (Prod.mk.inj hunpack).2
    exact hworld ▸ hafter

/-- **An archive changes nothing outside of the directory it is unpacked into**, whatever its entries are named and
wherever the work stops; after an error that directory is gone, if all of it can be removed. -/
theorem extract_confined (libs : ReleaseLibs C) (fails : ExtractStep → Bool) (stuck : List (List String))
    (container : String) (archive : Except String (List (PackageEntry C))) (parent : DirTree C) :
    (extractAndVerifyArchive libs fails stuck container archive parent).2.outside = []
      ∧ (∀ other, ¬ [container] <+: other →
        (extractAndVerifyArchive libs fails stuck container archive parent).2.tree.entries.get other
          = parent.entries.get other)
      ∧ (∀ e, (extractAndVerifyArchive libs fails stuck container archive parent).1 = .error e → stuck = [] →
        ∀ other, (extractAndVerifyArchive libs fails stuck container archive parent).2.tree.entries.get other
          = parent.entries.get other) := by
  rw [extractAndVerifyArchive]
  split
  · exact ⟨rfl, fun _ _ => rfl, fun _ _ _ _ => rfl⟩
  rename_i tree hcreate
  have hcreate := of_unlessFails hcreate
  cases hunpack : unpackArchive libs fails [container] archive ⟨tree, []⟩ with
  | mk result world =>
    have hconfined := confined_of_unpackArchive (confined_of_createDir hcreate) hunpack
    cases result with
    | ok staged =>
      refine ⟨hconfined.outside, hconfined.frame, ?_⟩
      intro e herror
      cases herror
    | error e =>
      have hframe : ∀ other, ¬ [container] <+: other →
          (world.tree.entries.removeAll [container] stuck).get other = parent.entries.get other := by
        intro other hother
        rw [FileTree.get_removeAll_of_not_prefix hother]
        exact hconfined.frame other hother
      refine ⟨hconfined.outside, hframe, ?_⟩
      rintro e - rfl other
      by_cases hbelow : [container] <+: other
      · show (world.tree.entries.removeAll [container] []).get other = _
        rw [FileTree.get_removeAll, FileTree.survives_nil hbelow, if_neg Bool.false_ne_true]
        exact (DirTree.get_below_of_none (DirTree.get_of_createDir hcreate).2.1 hbelow).symm
      · exact hframe other hbelow

/-- Nothing was there before an archive is unpacked. -/
theorem extract_fresh (h : extractAndVerifyArchive libs fails stuck container archive parent = (result, world)) :
    (∃ e, result = .error e) ∧ world = ⟨parent, []⟩ ∨ parent.entries.get [container] = none := by
  rw [extractAndVerifyArchive] at h
  split at h
  · obtain ⟨rfl, rfl⟩ := Prod.mk.inj h
    exact .inl ⟨⟨_, rfl⟩, rfl⟩
  · rename_i tree hcreate
    exact .inr (DirTree.get_of_createDir (of_unlessFails hcreate)).2.1

/-- The release that is handed over: the files of the archive below its root, and verified. -/
structure StagedRelease (libs : ReleaseLibs C) (entries : List (PackageEntry C)) (root : String) (release : DirTree C) :
    Prop where
  verified : verifyReleaseRoot libs release.entries true = .ok ()
  files : ∀ path content, release.entries.get path = some (.file content)
    ↔ ∃ entry ∈ entries, entry.isFile = true ∧ entry.path = root :: path ∧ entry.content = content
  links : ∀ path target, release.entries.get path ≠ some (.link target)
  rooted : ∀ entry ∈ entries, entry.path.head? = some root
  whole : ∀ entry ∈ entries, entry.isFile = true → entry.whole = true

/-- A verified release has a manifest. -/
theorem exists_manifest {release : FileTree C} {strict : Bool} (h : verifyReleaseRoot libs release strict = .ok ()) :
    ∃ node, release.get manifestPath = some node := by
  rw [verifyReleaseRoot, loadReleaseManifest, contentAt] at h
  cases hget : release.get manifestPath with
  | some node => exact ⟨node, rfl⟩
  | none =>
    rw [hget] at h
    cases h

/-- **A staged release has the files of the archive**, all of them whole, and no others, and it is verified. -/
theorem extract_exact {staged : List String}
    (h : extractAndVerifyArchive libs fails stuck container archive parent = (.ok staged, world)) :
    ∃ entries root release, archive = .ok entries ∧ staged = [container, root]
      ∧ world.tree.subtree? staged = some release ∧ StagedRelease libs entries root release
      ∧ ∀ name path, world.tree.entries.get (container :: name :: path) ≠ none → name = root := by
  rw [extractAndVerifyArchive] at h
  split at h
  · cases h
  rename_i tree hcreate
  have hcreate := of_unlessFails hcreate
  cases hunpack : unpackArchive libs fails [container] archive ⟨tree, []⟩ with
  | mk result world' =>
    rw [hunpack] at h
    cases result with
    | error e => cases h
    | ok staged' =>
      obtain ⟨hstaged, rfl⟩ := Prod.mk.inj h
      obtain rfl := Except.ok.inj hstaged
      cases archive with
      | error e => cases hunpack
      | ok entries =>
        rw [unpackArchive] at hunpack
        split at hunpack
        · cases hunpack
        rename_i hsize
        cases hloop : extractAll fails [container] entries ⟨none, [], 0⟩ ⟨tree, []⟩ with
        | mk ended after =>
          rw [hloop] at hunpack
          cases ended with
          | error e => cases hunpack
          | ok so =>
            dsimp only at hunpack
            split at hunpack
            · cases hunpack
            rename_i staged₁ hjoin
            split at hunpack
            · cases hunpack
            split at hunpack
            · cases hunpack
            rename_i hverified
            obtain ⟨hstaged₁, rfl⟩ := Prod.mk.inj hunpack
            obtain rfl := Except.ok.inj hstaged₁
            have hdone := (unpacked_of_createDir hcreate).loop hloop
            rw [List.nil_append] at hdone
            obtain ⟨root, hroot, hjoined⟩ := Option.bind_eq_some_iff.mp hjoin
            rw [joinSegment_of_safe (hdone.safe root hroot), Option.some.injEq] at hjoined
            subst hjoined
            have hdir : after.tree.isDir ([container] ++ [toAsciiLowercase root]) = true := by
              obtain ⟨node, hnode⟩ := exists_manifest hverified
              rw [FileTree.get_subtree] at hnode
              exact DirTree.isDir_iff.mpr (after.tree.parents _ _ (FileTree.mem_paths_of_get hnode))
            have hget : ∀ path, (after.tree.entries.subtree ([container] ++ [toAsciiLowercase root])).get path
                = after.tree.entries.get ([container] ++ toAsciiLowercase root :: path) := fun path => by
              rw [FileTree.get_subtree]
              rfl
            have hrooted : ∀ entry ∈ entries, entry.path.head? = some (toAsciiLowercase root) := by
              intro entry hentry
              obtain ⟨root', hroot', hhead⟩ := hdone.root entry hentry
              rw [hroot, Option.some.injEq] at hroot'
              exact hroot' ▸ hhead
            refine ⟨entries, toAsciiLowercase root,
              after.tree.subtree _ (DirTree.isDir_iff.mp hdir), rfl, rfl, dif_pos hdir,
              ⟨hverified, ?_, ?_, hrooted, hdone.whole⟩, ?_⟩
            · intro path content
              exact (Eq.congr_left (hget path)).trans (hdone.files _ _)
            · intro path target hlink
              exact hdone.links _ target ((hget path).symm.trans hlink)
            · intro name path hget
              -- what stands below the new directory is a file of an entry or above one
              have hentry : ∃ entry ∈ entries, name :: path <+: entry.path := by
                cases hnode : after.tree.entries.get ([container] ++ name :: path) with
                | none => exact absurd hnode hget
                | some node =>
                  cases node with
                  | dir => exact hdone.dirs _ (List.cons_ne_nil _ _) hnode
                  | file content =>
                    obtain ⟨entry, hentry, -, hpath, -⟩ := (hdone.files _ _).mp hnode
                    exact ⟨entry, hentry, hpath ▸ List.prefix_refl _⟩
                  | link target => exact absurd hnode (hdone.links _ target)
              obtain ⟨entry, hentry, rest, hrest⟩ := hentry
              have hhead := hrooted entry hentry
              rw [← hrest] at hhead
              exact Option.some.inj hhead

end

end CodexRouter
