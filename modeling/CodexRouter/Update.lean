/-
# Updates

`begin_update_transaction` puts a staged release in the place of the installed one.  It verifies
both, finds the paths of the installation that its manifest does not manage, moves the installation
aside, moves the staged release to its place, and moves what is not managed over, path by path;
`rollback` takes all of this back.

The file system and `path_key` compare names up to ASCII case: the names here are the lowered ones.
Every access to the file system can fail by itself, as `fails` says, besides failing for what it
finds.
-/
import CodexRouter.Base.FileTree
import CodexRouter.Base.Text
import Mathlib.Data.List.Sort
import Mathlib.Data.String.Basic

namespace CodexRouter

open Text

/-! ## Manifests -/

/-- `ReleaseManifestEntry`. -/
structure ReleaseManifestEntry where
  path : String
  bytes : ℕ
  sha256 : String
  deriving DecidableEq, Repr

/-- What is read off the content of a file. -/
structure ReleaseLibs (C : Type) where
  /-- The entries of a manifest, as `serde_json` reads them. -/
  manifest : C → Option (List ReleaseManifestEntry)
  size : C → ℕ
  /-- SHA-256 in hexadecimal. -/
  sha256 : C → String

/-- The components of a manifest path behind its start. -/
def safeComponents : List String → Option (List String)
  | [] => some []
  | component :: rest =>
    if component = "" || component = "." then safeComponents rest
    else if component = ".." || contains component ":" then none
    else (safeComponents rest).map (toAsciiLowercase component :: ·)

/-- `safe_manifest_path`. -/
def safeManifestPath (value : String) : Except String (List String) :=
  if value = "" || contains value "\\" || endsWith value "/" then
    .error "release-manifest.json contains an invalid path"
  else if startsWith value "/" || startsWith value "./" || value = "." then
    .error "release-manifest.json contains an unsafe path"
  else
    match safeComponents (split (· = '/') value) with
    | none => .error "release-manifest.json contains an unsafe path"
    | some [] => .error "release-manifest.json contains an empty path"
    | some path => .ok path

/-- The path of the manifest. -/
def manifestPath : List String := ["release-manifest.json"]

/-- `normalize_sha256`. -/
def normalizeSha256 (value : String) : Option String :=
  let digest := (stripPrefix (trim value) "sha256:").getD (trim value)
  if digest.length = 64 && digest.toList.all fun c => isAsciiDigit c || ('a' ≤ c && c ≤ 'f') || ('A' ≤ c && c ≤ 'F') then
    some (toAsciiLowercase digest)
  else none

/-- The order of `path_key`. -/
def pathKeyLe (a b : List String) : Bool := join "/" a ≤ join "/" b

/-- The content that is read at a path; a link is followed. -/
def contentAt {C : Type} (tree : FileTree C) (path : List String) : Option C :=
  match tree.get path with
  | some (.file content) => some content
  | some (.link target) => target
  | _ => none

section

variable {C : Type} (libs : ReleaseLibs C)

/-- `load_release_manifest`. -/
def loadReleaseManifest (tree : FileTree C) : Except String (List ReleaseManifestEntry) :=
  match contentAt tree manifestPath with
  | none => .error "release-manifest.json is missing"
  | some content =>
    match libs.manifest content with
    | none => .error "release-manifest.json is invalid"
    | some entries => .ok entries

/-- One round of the loop of `verify_release_root`. -/
def checkReleaseFile (tree : FileTree C) (entry : ReleaseManifestEntry) (path : List String) : Except String Unit :=
  match tree.get path with
  | none => .error ("release file is missing: " ++ entry.path)
  | some _ =>
    match contentAt tree path with
    | none => .error ("release file size mismatch: " ++ entry.path)
    | some content =>
      if libs.size content ≠ entry.bytes then .error ("release file size mismatch: " ++ entry.path)
      else
        match normalizeSha256 entry.sha256 with
        | none => .error ("release file has an invalid SHA-256: " ++ entry.path)
        | some expected =>
          if libs.sha256 content ≠ expected then .error ("release file SHA-256 mismatch: " ++ entry.path) else .ok ()

/-- The loop of `verify_release_root`, with the paths it has gone through. -/
def checkReleaseFiles (tree : FileTree C) : List (List String) → List ReleaseManifestEntry →
    Except String (List (List String))
  | expected, [] => .ok expected
  | expected, entry :: rest =>
    match safeManifestPath entry.path with
    | .error e => .error e
    | .ok path =>
      if path ∈ expected then .error "release-manifest.json contains duplicate paths"
      else
        match checkReleaseFile libs tree entry path with
        | .error e => .error e
        | .ok () => checkReleaseFiles tree (expected ++ [path]) rest

/-- `collect_files`. -/
def collectFiles (tree : FileTree C) : Except String (List (List String)) :=
  if tree.any fun entry => entry.2 matches .link _ then .error "the release contains an unsupported filesystem entry"
  else .ok ((tree.filter fun entry => entry.2 matches .file _).map (·.1))

/-- `verify_release_root`. -/
def verifyReleaseRoot (tree : FileTree C) (rejectUnmanagedFiles : Bool) : Except String Unit :=
  match loadReleaseManifest libs tree with
  | .error e => .error e
  | .ok entries =>
    if entries = [] then .error "release-manifest.json is empty"
    else
      match checkReleaseFiles libs tree [] entries with
      | .error e => .error e
      | .ok expected =>
        if (contentAt tree ["codex-router.exe"]).isNone then
          .error "the staged release does not contain Codex-Router.exe"
        else if !rejectUnmanagedFiles then .ok ()
        else
          match collectFiles tree with
          | .error e => .error e
          | .ok actual =>
            let actual := actual.filter (· ≠ manifestPath)
            let unknown := (actual.filter (· ∉ expected)).insertionSort (pathKeyLe · ·)
            let missing := (expected.filter (· ∉ actual)).insertionSort (pathKeyLe · ·)
            match (unknown ++ missing).head? with
            | some detail => .error ("the staged release does not match its file manifest: " ++ join "/" detail)
            | none => .ok ()

/-- The loop of `managed_paths`. -/
def safeManifestPaths : List ReleaseManifestEntry → Except String (List (List String))
  | [] => .ok []
  | entry :: rest =>
    match safeManifestPath entry.path with
    | .error e => .error e
    | .ok path => (safeManifestPaths rest).map (path :: ·)

/-- `managed_paths`. -/
def managedPaths (tree : FileTree C) : Except String (List (List String)) :=
  match loadReleaseManifest libs tree with
  | .error e => .error e
  | .ok entries => (safeManifestPaths entries).map (manifestPath :: ·)

end

/-! ## Paths that are not managed -/

/-- The path is not managed, and nothing below it is. -/
def isUnmanaged (managed : List (List String)) (path : List String) : Bool :=
  let isManaged := managed.any (· = path)
  let hasManagedDescendant := managed.any fun item => path <+: item ∧ path ≠ item
  !isManaged && !hasManagedDescendant

/-- Visit paths in turn and join what they give. -/
def visitAll (visit : List String → Except String (List (List String))) :
    List (List String) → Except String (List (List String))
  | [] => .ok []
  | path :: rest =>
    match visit path with
    | .error e => .error e
    | .ok out => (visitAll visit rest).map (out ++ ·)

section

variable {C : Type}

/-- `visit`, down to a depth. -/
def visit (tree : DirTree C) (managed : List (List String)) : ℕ → List String → Except String (List (List String))
  | 0, _ => .ok []
  | depth + 1, path =>
    match tree.entries.get path with
    | none => .error "the path is gone"
    | some (.link _) => .error "the installed directory contains an unsupported symbolic link"
    | some node =>
      if isUnmanaged managed path then .ok [path]
      else if node.isDir then visitAll (visit tree managed depth) (tree.children path)
      else .ok []

/-- `maximal_unmanaged_paths`. -/
def maximalUnmanagedPaths (tree : DirTree C) (managed : List (List String)) : Except String (List (List String)) :=
  (visitAll (visit tree managed tree.depth) (tree.children [])).map (·.insertionSort (pathKeyLe · ·))

end

/-- `paths_overlap`. -/
def pathsOverlap (left right : List String) : Bool := left <+: right ∨ right <+: left

/-! ## Steps -/

/-- The accesses to the file system that can fail. -/
inductive UpdateStep where
  | verifyInstalled
  | verifyStaged
  | readInstalled
  | readStaged
  | listInstalled
  | backup
  | activate
  | reactivate
  | createParent (path : List String)
  | preserve (path : List String)
  | verifyActivated
  | restoreParent (path : List String)
  | restore (path : List String)
  | deactivate
  | reinstall
  deriving DecidableEq, Repr

/-- The text of an error of the file system. -/
def ioError : String := "the file system failed"

/-- An access that does not fail by itself. -/
def perform {α : Type} (fails : UpdateStep → Bool) (step : UpdateStep) (result : Option α) : Option α :=
  if fails step then none else result

/-- `create_dir_all`, which has nothing to do, and nothing to fail in, where the directory is there. -/
def createMissing {C : Type} (fails : UpdateStep → Bool) (step : UpdateStep) (tree : FileTree C) (path : List String) :
    Option (FileTree C) :=
  if (tree.get path).any FileNode.isDir then some tree else perform fails step (tree.createDirAll path)

/-- A reading access with what it reads. -/
def readWith {α : Type} (fails : UpdateStep → Bool) (step : UpdateStep) (result : Except String α) : Except String α :=
  if fails step then .error ioError else result

/-- The router root, the staged root and the backup root. -/
structure UpdateWorld (C : Type) where
  router : Option (FileTree C)
  staged : Option (FileTree C)
  backup : Option (FileTree C)

/-- `AppliedUpdate`. -/
structure AppliedUpdate where
  preservedPaths : List (List String)
  deriving DecidableEq, Repr

namespace UpdateWorld

variable {C : Type} (world : UpdateWorld C)

/-- Create the parent of a path in the router root. -/
def createParent (fails : UpdateStep → Bool) (path : List String) : Option (UpdateWorld C) :=
  (world.router.bind fun router => createMissing fails (.createParent path) router path.dropLast).map
    fun router => { world with router := some router }

/-- Create the parent of a path in the backup. -/
def restoreParent (fails : UpdateStep → Bool) (path : List String) : Option (UpdateWorld C) :=
  (world.backup.bind fun backup => createMissing fails (.restoreParent path) backup path.dropLast).map
    fun backup => { world with backup := some backup }

/-- Move a path from the backup to the router root. -/
def preserve (path : List String) : Option (UpdateWorld C) :=
  world.backup.bind fun backup => world.router.bind fun router =>
    (FileTree.rename backup router path).map fun (backup, router) =>
      { world with router := some router, backup := some backup }

/-- Move a path back, if it is there. -/
def restore (path : List String) : Option (UpdateWorld C) :=
  world.router.bind fun router => world.backup.bind fun backup =>
    if (router.get path).isNone then some world
    else (FileTree.rename router backup path).map fun (router, backup) =>
      { world with router := some router, backup := some backup }

/-- Move the installation aside. -/
def moveAside : Option (UpdateWorld C) :=
  if world.router.isSome ∧ world.backup.isNone then some { world with router := none, backup := world.router } else none

/-- Move the staged release to the router root. -/
def activate : Option (UpdateWorld C) :=
  if world.staged.isSome ∧ world.router.isNone then some { world with router := world.staged, staged := none } else none

/-- Move the router root back to the staging path. -/
def deactivate : Option (UpdateWorld C) :=
  if world.router.isSome ∧ world.staged.isNone then some { world with router := none, staged := world.router } else none

/-- Move the backup to the router root. -/
def reinstall : Option (UpdateWorld C) :=
  if world.backup.isSome ∧ world.router.isNone then some { world with router := world.backup, backup := none } else none

end UpdateWorld

/-! ## The transaction -/

section

variable {C : Type} (libs : ReleaseLibs C) (fails : UpdateStep → Bool)

/-- `begin_update_transaction` up to the first move: the paths to preserve. -/
def planUpdate (installed staged : DirTree C) : Except String (List (List String)) :=
  match readWith fails .verifyInstalled (verifyReleaseRoot libs installed.entries false) with
  | .error e => .error ("the installed release failed validation: " ++ e)
  | .ok () =>
    match readWith fails .verifyStaged (verifyReleaseRoot libs staged.entries true) with
    | .error e => .error ("the staged release failed validation: " ++ e)
    | .ok () =>
      match readWith fails .readInstalled (managedPaths libs installed.entries) with
      | .error e => .error e
      | .ok oldManaged =>
        match readWith fails .readStaged (managedPaths libs staged.entries) with
        | .error e => .error e
        | .ok newManaged =>
          match readWith fails .listInstalled (maximalUnmanagedPaths installed oldManaged) with
          | .error e => .error e
          | .ok preserve =>
            match preserve.find? fun path => newManaged.any (pathsOverlap path) with
            | some path => .error ("the new release conflicts with preserved user data: " ++ join "\\" path)
            | none => .ok preserve

/-- How the loop of moves ends. -/
inductive MovesEnd where
  | done
  | noParent
  | notMoved (path : List String)
  deriving DecidableEq, Repr

/-- The loop of moves, with the paths that are moved already. -/
def moveAll : List (List String) → List (List String) → UpdateWorld C → MovesEnd × List (List String) × UpdateWorld C
  | [], moved, world => (.done, moved, world)
  | path :: rest, moved, world =>
    match world.createParent fails path with
    | none => (.noParent, moved, world)
    | some world =>
      match perform fails (.preserve path) (world.preserve path) with
      | none => (.notMoved path, moved, world)
      | some world => moveAll rest (moved ++ [path]) world

/-- The loop of `rollback`, with the error that ends it. -/
def restoreAll : List (List String) → UpdateWorld C → Option String × UpdateWorld C
  | [], world => (none, world)
  | path :: rest, world =>
    match world.restoreParent fails path with
    | none => (some ioError, world)
    | some world =>
      match perform fails (.restore path) (world.restore path) with
      | none => (some ("could not restore preserved data: " ++ join "\\" path), world)
      | some world => restoreAll rest world

/-- `rollback`. -/
def rollback (transaction : AppliedUpdate) (world : UpdateWorld C) : Except String Unit × UpdateWorld C :=
  match restoreAll fails transaction.preservedPaths.reverse world with
  | (some e, world) => (.error e, world)
  | (none, world) =>
    if world.staged.isSome then
      (.error "the original update staging path unexpectedly exists during rollback", world)
    else
      match perform fails .deactivate world.deactivate with
      | none => (.error "could not move the failed update back to staging", world)
      | some world =>
        match perform fails .reinstall world.reinstall with
        | none => (.error "could not restore the previous release directory", world)
        | some world => (.ok (), world)

/-- Roll back and give up with an error. -/
def rollBackWith (moved : List (List String)) (world : UpdateWorld C) (error : String) (failed : String → String) :
    Except String AppliedUpdate × UpdateWorld C :=
  match rollback fails ⟨moved⟩ world with
  | (.ok (), world) => (.error error, world)
  | (.error e, world) => (.error (failed e), world)

/-- `begin_update_transaction` behind the activation. -/
def finishUpdate (preserve : List (List String)) (world : UpdateWorld C) : Except String AppliedUpdate × UpdateWorld C :=
  match moveAll fails preserve [] world with
  | (.noParent, _, world) => (.error ioError, world)
  | (.notMoved path, moved, world) =>
    rollBackWith fails moved world ("could not preserve user data: " ++ join "\\" path) fun e =>
      "could not preserve user data (" ++ ioError ++ ") and rollback failed (" ++ e ++ ")"
  | (.done, moved, world) =>
    match readWith fails .verifyActivated (verifyReleaseRoot libs (world.router.getD []) false) with
    | .error e =>
      rollBackWith fails moved world
        ("activated release validation failed: " ++ e ++ "; the previous version was restored") fun e' =>
        "activated release validation failed: " ++ e ++ "; rollback failed: " ++ e'
    | .ok () => (.ok ⟨moved⟩, world)

/-- `begin_update_transaction`; something can be at the path of the backup already. -/
def beginUpdateTransaction (installed staged : DirTree C) (backup : Option (FileTree C)) :
    Except String AppliedUpdate × UpdateWorld C :=
  let world : UpdateWorld C := ⟨some installed.entries, some staged.entries, backup⟩
  match planUpdate libs fails installed staged with
  | .error e => (.error e, world)
  | .ok preserve =>
    if backup.isSome then (.error "the unique update rollback directory already exists", world)
    else
      match perform fails .backup world.moveAside with
      | none => (.error "could not move the installed release to backup", world)
      | some world =>
        match perform fails .activate world.activate with
        | none =>
          (.error "could not activate the staged release", (perform fails .reactivate world.reinstall).getD world)
        | some world => finishUpdate libs fails preserve world

end

end CodexRouter
