/-
# Installations

`install_portable_archive` stages the archive of a release, puts the release in the place of an
installation that is there, and removes what is not needed any more: the backup of the old
installation when the new one is complete, the new directory after an error.  Every step can fail, and
so can those that take others back.  Whatever fails, each file of the user is in the installation or in
the backup (`install_keeps`); and an installation that ends well has the files of the archive and those
of the user (`install_complete`).
-/
import CodexRouter.UpdateStaging

namespace CodexRouter

/-! ## The installation -/

/-- What fails while an archive is installed. -/
structure InstallFaults where
  extract : ExtractStep → Bool
  update : UpdateStep → Bool
  /-- `create_shortcuts`. -/
  shortcuts : Bool
  /-- What cannot be removed of the new directory and of the backup, by the paths from there. -/
  stuckContainer : List (List String)
  stuckBackup : List (List String)
  /-- `remove_dir` of the new directory. -/
  removeContainer : Bool

/-- What the names in the parent directory are made of: the name of the installation, the version, and the unique
ends of the names of the new directory and of the backup. -/
structure InstallNames where
  leaf : String
  version : String
  stagingSuffix : String
  backupSuffix : String

/-- The name of the new directory. -/
def InstallNames.container (names : InstallNames) : String :=
  stagingName (sanitizeVersion (Text.trim names.version)) names.stagingSuffix

/-- The name of the backup. -/
def InstallNames.backup (names : InstallNames) : String := names.leaf ++ ".rollback-" ++ names.backupSuffix

section

variable {C : Type} (libs : ReleaseLibs C) (faults : InstallFaults) (names : InstallNames)

/-- `commit`, as to the backup. -/
def commitUpdate (world : UpdateWorld C) : Except String Unit × UpdateWorld C :=
  if faults.stuckBackup = [] then (.ok (), { world with backup := none })
  else
    (.error "the update succeeded, but its rollback backup could not be removed",
      { world with backup := world.backup.map fun backup => backup.removeAll [] faults.stuckBackup })

/-- The installation is replaced. -/
def replaceInstallation (installed release : DirTree C) (backup : Option (FileTree C)) :
    Except String Unit × UpdateWorld C :=
  match beginUpdateTransaction libs faults.update installed release backup with
  | (.error _, world) => (.error "could not replace the existing verified installation", world)
  | (.ok transaction, world) =>
    if faults.shortcuts then
      match rollback faults.update transaction world with
      | (.ok (), world) =>
        (.error "could not create the Start menu shortcut; the previous installation was restored", world)
      | (.error e, world) =>
        (.error ("shortcut creation failed (" ++ ioError ++ ") and installation rollback failed (" ++ e ++ ")"), world)
    else commitUpdate faults world

/-- The first installation. -/
def activateFirst (release : FileTree C) (backup : Option (FileTree C)) : Except String Unit × UpdateWorld C :=
  match perform faults.update .activate (UpdateWorld.activate ⟨none, some release, backup⟩) with
  | none => (.error "could not activate the verified installation", ⟨none, some release, backup⟩)
  | some world =>
    if faults.shortcuts then
      (.error "could not create the Start menu shortcut",
        (perform faults.update .deactivate world.deactivate).getD world)
    else (.ok (), world)

/-- The parent directory with the installation, the staged release and the backup in it. -/
def assemble (staged : List String) (rest : FileTree C) (world : UpdateWorld C) : FileTree C :=
  rest ++ (world.router.getD []).graft [names.leaf] ++ (world.staged.getD []).graft staged
    ++ (world.backup.getD []).graft [names.backup]

/-- `install_portable_archive` behind the extraction. -/
def activateRelease (staged : List String) (tree : DirTree C) : Except String Unit × FileTree C :=
  match tree.subtree? staged with
  | none => (.error ioError, tree.entries)
  | some release =>
    let backup := tree.entries.subtree? [names.backup]
    let rest := ((tree.entries.without [names.leaf]).without staged).without [names.backup]
    let ended :=
      match tree.subtree? [names.leaf] with
      | some installed => replaceInstallation libs faults installed release backup
      | none => activateFirst faults release.entries backup
    (ended.1, assemble names staged rest ended.2)

/-- `install_portable_archive`, where no file is in the way. -/
def stageAndActivate (archive : Except String (List (PackageEntry C))) (parent : DirTree C) :
    Except String Unit × FileTree C × List String :=
  match extractAndVerifyArchive libs faults.extract faults.stuckContainer names.container archive parent with
  | (.error e, world) => (.error e, world.tree.entries, world.outside)
  | (.ok staged, world) =>
    match activateRelease libs faults names staged world.tree with
    | (.error e, tree) => (.error e, tree.removeAll [names.container] faults.stuckContainer, world.outside)
    | (.ok (), tree) => (.ok (), tree.removeDir [names.container] faults.removeContainer, world.outside)

/-- `install_portable_archive`, with the parent directory afterwards and the names that led out of it. -/
def installPortableArchive (archive : Except String (List (PackageEntry C))) (parent : DirTree C) :
    Except String Unit × FileTree C × List String :=
  if sanitizeVersion (Text.trim names.version) = "" then (.error "the installer version is empty", parent.entries, [])
  else
    match parent.entries.get [names.leaf] with
    | none | some .dir => stageAndActivate libs faults names archive parent
    | _ => (.error "the installation destination is a file", parent.entries, [])

end

/-! ## Nothing is lost on the way -/

/-- What stands at a path of the installation stands there in the router root or in the backup. -/
def Holds {C : Type} (place : List String) (node : FileNode C) (world : UpdateWorld C) : Prop :=
  (∃ router, world.router = some router ∧ router.get place = some node)
    ∨ ∃ backup, world.backup = some backup ∧ backup.get place = some node

section

variable {C : Type} {libs : ReleaseLibs C} {fails : UpdateStep → Bool} {installed staged : DirTree C}
  {backup : Option (FileTree C)} {managed preserve moved : List (List String)} {router tree : FileTree C}
  {world : UpdateWorld C} {place : List String} {node : FileNode C}

/-- While paths are moved nothing is lost. -/
theorem Midway.holds (h : Midway installed staged preserve moved router tree)
    (hget : installed.entries.get place = some node) (release : Option (FileTree C)) :
    Holds place node ⟨some router, release, some tree⟩ := by
  by_cases hbelow : ∃ path ∈ moved, path <+: place
  · obtain ⟨path, hpath, hpfx⟩ := hbelow
    exact .inl ⟨router, rfl, (h.overlaid.brought path hpath place hpfx).trans hget⟩
  · refine .inr ⟨tree, rfl, (h.drained.kept place ?_).trans hget⟩
    intro path hpath hpfx
    exact hbelow ⟨path, hpath, hpfx⟩

theorem perform_eq_some {α : Type} {step : UpdateStep} {result : Option α} {a : α}
    (h : perform fails step result = some a) : result = some a := by
  rw [perform] at h
  split at h
  · cases h
  · exact h

/-- The loop of the rollback can stop anywhere between two paths. -/
theorem midway_of_restoreAll (plan : UpdatePlan installed staged managed preserve) {error : Option String}
    (h : Midway installed staged preserve moved router tree)
    (hrun : restoreAll fails moved ⟨some router, none, some tree⟩ = (error, world)) :
    ∃ left router' tree', world = ⟨some router', none, some tree'⟩
      ∧ Midway installed staged preserve left router' tree' ∧ (error = none → left = []) := by
  induction moved generalizing router tree with
  | nil =>
    obtain ⟨-, rfl⟩ := Prod.mk.inj hrun
    exact ⟨[], router, tree, rfl, h, fun _ => rfl⟩
  | cons path rest ih =>
    have hpath := h.sub path List.mem_cons_self
    have hparent : tree.get path.dropLast = some .dir := by
      rw [h.drained.kept _ (not_moved_above plan h.sub hpath (List.prefix_refl _))]
      exact plan.get_above hpath (List.prefix_refl _)
    have hcreated : UpdateWorld.restoreParent ⟨some router, none, some tree⟩ fails path
        = some ⟨some router, none, some tree⟩ := by
      rw [UpdateWorld.restoreParent, Option.bind_some, createMissing, hparent]
      rfl
    rw [restoreAll, hcreated] at hrun
    dsimp only at hrun
    split at hrun
    · obtain ⟨rfl, rfl⟩ := Prod.mk.inj hrun
      exact ⟨path :: rest, router, tree, rfl, h, fun herror => by cases herror⟩
    · rename_i world₁ hperform
      have hrestore := perform_eq_some hperform
      obtain ⟨node, hnode⟩ := FileTree.mem_paths_iff.mp (plan.mem_paths hpath)
      have hthere : router.get path = some node := by
        rw [h.overlaid.brought path List.mem_cons_self path (List.prefix_refl _)]
        exact hnode
      rw [UpdateWorld.restore, Option.bind_some, Option.bind_some, hthere, Option.isNone_some,
        if_neg Bool.false_ne_true, Option.map_eq_some_iff] at hrestore
      obtain ⟨⟨router₁, tree₁⟩, hrename, rfl⟩ := hrestore
      have hnodup := List.nodup_cons.mp h.nodup
      obtain ⟨hover, hdrained⟩ := overlaid_restore plan h.sub hnodup.1 h.overlaid h.drained hrename
      exact ih ⟨fun other hother => h.sub other (List.mem_cons_of_mem _ hother), hnodup.2, hover, hdrained⟩ hrun

/-- **A rollback loses nothing**, wherever it stops. -/
theorem holds_of_rollback (plan : UpdatePlan installed staged managed preserve) {result : Except String Unit}
    (h : Midway installed staged preserve moved router tree) (hget : installed.entries.get place = some node)
    (hrun : rollback fails ⟨moved⟩ ⟨some router, none, some tree⟩ = (result, world)) : Holds place node world := by
  have hreversed : Midway installed staged preserve moved.reverse router tree :=
    ⟨fun path hpath => h.sub path (List.mem_reverse.mp hpath), List.nodup_reverse.mpr h.nodup,
      h.overlaid.congr fun _ => List.mem_reverse, h.drained.congr fun _ => List.mem_reverse⟩
  rw [rollback] at hrun
  split at hrun
  · rename_i e world₁ hrestored
    obtain ⟨-, rfl⟩ := Prod.mk.inj hrun
    obtain ⟨left, router₁, tree₁, rfl, hmid, -⟩ := midway_of_restoreAll plan hreversed hrestored
    exact hmid.holds hget none
  rename_i world₁ hrestored
  obtain ⟨left, router₁, tree₁, rfl, hmid, hleft⟩ := midway_of_restoreAll plan hreversed hrestored
  obtain rfl := hleft rfl
  rw [if_neg (by simp)] at hrun
  split at hrun
  · obtain ⟨-, rfl⟩ := Prod.mk.inj hrun
    exact hmid.holds hget none
  rename_i world₂ hdeactivated
  have hdeactivated := perform_eq_some hdeactivated
  rw [UpdateWorld.deactivate, if_pos (by simp), Option.some.injEq] at hdeactivated
  subst hdeactivated
  -- all paths are back, so the backup is the installation
  have hback : tree₁.get place = some node := (hmid.drained.kept place (by simp)).trans hget
  split at hrun
  · obtain ⟨-, rfl⟩ := Prod.mk.inj hrun
    exact .inr ⟨tree₁, rfl, hback⟩
  rename_i world₃ hreinstalled
  have hreinstalled := perform_eq_some hreinstalled
  rw [UpdateWorld.reinstall, if_pos (by simp), Option.some.injEq] at hreinstalled
  subst hreinstalled
  obtain ⟨-, rfl⟩ := Prod.mk.inj hrun
  exact .inl ⟨tree₁, rfl, hback⟩

/-- How the beginning of an update ends, whatever fails. -/
theorem begin_ends {result : Except String AppliedUpdate}
    (hrun : beginUpdateTransaction libs fails installed staged backup = (result, world)) :
    (∃ e, result = .error e) ∧ world = ⟨some installed.entries, some staged.entries, backup⟩
    ∨ backup = none ∧ (∃ e, result = .error e)
      ∧ (∀ place node, installed.entries.get place = some node → Holds place node world)
    ∨ backup = none ∧ ∃ managed preserve router tree, managedPaths libs installed.entries = .ok managed
      ∧ UpdatePlan installed staged managed preserve ∧ result = .ok ⟨preserve⟩
      ∧ world = ⟨some router, none, some tree⟩ ∧ Midway installed staged preserve preserve router tree := by
  rw [beginUpdateTransaction] at hrun
  split at hrun
  · obtain ⟨rfl, rfl⟩ := Prod.mk.inj hrun
    exact .inl ⟨⟨_, rfl⟩, rfl⟩
  rename_i preserve hplan
  cases backup with
  | some old =>
    obtain ⟨rfl, rfl⟩ := Prod.mk.inj hrun
    exact .inl ⟨⟨_, rfl⟩, rfl⟩
  | none =>
    rw [Option.isSome_none, if_neg Bool.false_ne_true] at hrun
    split at hrun
    · obtain ⟨rfl, rfl⟩ := Prod.mk.inj hrun
      exact .inl ⟨⟨_, rfl⟩, rfl⟩
    rename_i world₁ haside
    have haside := perform_eq_some haside
    rw [UpdateWorld.moveAside, if_pos (by simp), Option.some.injEq] at haside
    subst haside
    split at hrun
    · obtain ⟨rfl, rfl⟩ := Prod.mk.inj hrun
      refine .inr (.inl ⟨rfl, ⟨_, rfl⟩, ?_⟩)
      intro place node hget
      rw [perform]
      split
      · exact .inr ⟨installed.entries, rfl, hget⟩
      · exact .inl ⟨installed.entries, rfl, hget⟩
    rename_i world₂ hactivated
    have hactivated := perform_eq_some hactivated
    rw [UpdateWorld.activate, if_pos (by simp), Option.some.injEq] at hactivated
    subst hactivated
    obtain ⟨managed, hmanaged, plan⟩ := updatePlan_of_planUpdate hplan
    have hrolled : ∀ {moved router tree error failed}, Midway installed staged preserve moved router tree →
        rollBackWith fails moved ⟨some router, none, some tree⟩ error failed = (result, world) →
        (∃ e, result = .error e) ∧ ∀ place node, installed.entries.get place = some node → Holds place node world := by
      intro moved router tree error failed hmid hback
      rw [rollBackWith] at hback
      cases hrollback : rollback fails ⟨moved⟩ ⟨some router, none, some tree⟩ with
      | mk ended after =>
        rw [hrollback] at hback
        have hworld : after = world ∧ ∃ e, result = .error e := by
          cases ended with
          | error e =>
            obtain ⟨rfl, rfl⟩ := Prod.mk.inj hback
            exact ⟨rfl, _, rfl⟩
          | ok u =>
            obtain ⟨rfl, rfl⟩ := Prod.mk.inj hback
            exact ⟨rfl, _, rfl⟩
        refine ⟨hworld.2, ?_⟩
        intro place node hget
        exact hworld.1 ▸ holds_of_rollback plan hmid hget hrollback
    rw [finishUpdate] at hrun
    dsimp only at hrun
    cases hmoves : moveAll fails preserve [] ⟨some staged.entries, none, some installed.entries⟩ with
    | mk fin rest =>
      obtain ⟨moved, world₃⟩ := rest
      obtain ⟨router, tree, rfl, hmid, hall⟩ :=
        midway_of_moveAll plan (midway_nil preserve) (fun path hpath => hpath) hmoves
      rw [hmoves] at hrun
      cases fin with
      | noParent =>
        obtain ⟨rfl, rfl⟩ := Prod.mk.inj hrun
        exact .inr (.inl ⟨rfl, ⟨_, rfl⟩, fun place node hget => hmid.holds hget none⟩)
      | notMoved path =>
        obtain ⟨herror, hholds⟩ := hrolled hmid hrun
        exact .inr (.inl ⟨rfl, herror, hholds⟩)
      | done =>
        obtain rfl : moved = preserve := by simpa using hall rfl
        dsimp only at hrun
        split at hrun
        · obtain ⟨herror, hholds⟩ := hrolled hmid hrun
          exact .inr (.inl ⟨rfl, herror, hholds⟩)
        · obtain ⟨rfl, rfl⟩ := Prod.mk.inj hrun
          exact .inr (.inr ⟨rfl, managed, moved, router, tree, hmanaged, plan, rfl, rfl, hmid⟩)

end

/-! ## The parent directory -/

/-- The old manifest does not manage the path. -/
def UserData {C : Type} (libs : ReleaseLibs C) (installed : FileTree C) (place : List String) : Prop :=
  place ≠ [] ∧ ∀ managed, managedPaths libs installed = .ok managed → Unmanaged managed place

section

variable {C : Type} {libs : ReleaseLibs C} {faults : InstallFaults} {names : InstallNames}
  {installed release : DirTree C} {backup : Option (FileTree C)} {result : Except String Unit} {world : UpdateWorld C} {place : List String}
  {node : FileNode C}

/-- The files of the user are not lost when an installation is replaced. -/
theorem keeps_of_replace (hrun : replaceInstallation libs faults installed release backup = (result, world))
    (hget : installed.entries.get place = some node) (huser : UserData libs installed.entries place) :
    (∃ router, world.router = some router ∧ router.get place = some node)
      ∨ backup = none ∧ ∃ tree, world.backup = some tree ∧ tree.get place = some node := by
  rw [replaceInstallation] at hrun
  cases hbegin : beginUpdateTransaction libs faults.update installed release backup with
  | mk ended after =>
    rw [hbegin] at hrun
    rcases begin_ends hbegin with ⟨⟨e, rfl⟩, rfl⟩ | ⟨hbackup, ⟨e, rfl⟩, hholds⟩ |
      ⟨hbackup, managed, preserve, router, tree, hmanaged, plan, rfl, rfl, hmid⟩
    · obtain ⟨-, rfl⟩ := Prod.mk.inj hrun
      exact .inl ⟨_, rfl, hget⟩
    · obtain ⟨-, rfl⟩ := Prod.mk.inj hrun
      exact (hholds place node hget).imp_right fun h => ⟨hbackup, h⟩
    · dsimp only at hrun
      split at hrun
      · cases hrollback : rollback faults.update ⟨preserve⟩ ⟨some router, none, some tree⟩ with
        | mk ended' after' =>
          have hholds := holds_of_rollback plan hmid hget hrollback
          rw [hrollback] at hrun
          have hworld : after' = world := by
            cases ended' with
            | error e => exact (Prod.mk.inj hrun).2
            | ok u => exact (Prod.mk.inj hrun).2
          exact hworld ▸ hholds.imp_right fun h => ⟨hbackup, h⟩
      · -- the release is in its place, with the files of the user
        have hkeeps := keepsUserData plan hmid
        have hfree := huser.2 managed hmanaged
        have hrouter : router.get place = some node := by
          by_cases hnode : node = .dir
          · rw [hnode] at hget ⊢
            exact hkeeps.kept place huser.1 hget hfree
          · exact (hkeeps.files place node hnode).mpr (.inr ⟨hget, hfree⟩)
        refine .inl ⟨router, ?_, hrouter⟩
        rw [commitUpdate] at hrun
        split at hrun
        · rw [← (Prod.mk.inj hrun).2]
        · rw [← (Prod.mk.inj hrun).2]

/-- An installation that is replaced well. -/
theorem replace_ok (hrun : replaceInstallation libs faults installed release backup = (.ok (), world)) :
    ∃ managed router, managedPaths libs installed.entries = .ok managed ∧ backup = none
      ∧ world = ⟨some router, none, none⟩ ∧ KeepsUserData managed installed.entries release.entries router := by
  rw [replaceInstallation] at hrun
  cases hbegin : beginUpdateTransaction libs faults.update installed release backup with
  | mk ended after =>
    rw [hbegin] at hrun
    rcases begin_ends hbegin with ⟨⟨e, rfl⟩, rfl⟩ | ⟨hbackup, ⟨e, rfl⟩, hholds⟩ |
      ⟨hbackup, managed, preserve, router, tree, hmanaged, plan, rfl, rfl, hmid⟩
    · cases hrun
    · cases hrun
    · dsimp only at hrun
      split at hrun
      · split at hrun
        · cases hrun
        · cases hrun
      · rw [commitUpdate] at hrun
        split at hrun
        · obtain ⟨-, rfl⟩ := Prod.mk.inj hrun
          exact ⟨managed, router, hmanaged, hbackup, rfl, keepsUserData plan hmid⟩
        · cases hrun

theorem first_ok {release : FileTree C} (hrun : activateFirst faults release backup = (.ok (), world)) :
    world = ⟨some release, none, backup⟩ := by
  rw [activateFirst] at hrun
  split at hrun
  · cases hrun
  rename_i world₁ hactivated
  have hactivated := perform_eq_some hactivated
  rw [UpdateWorld.activate, if_pos (by simp), Option.some.injEq] at hactivated
  subst hactivated
  split at hrun
  · cases hrun
  · exact (Prod.mk.inj hrun).2.symm

theorem backup_ne_leaf (names : InstallNames) : names.backup ≠ names.leaf := by
  intro h
  have hlength := congrArg String.length h
  rw [InstallNames.backup, String.length_append, String.length_append] at hlength
  have hpos : 0 < ".rollback-".length := by decide
  omega

/-! What is found where the parent directory is put together. -/

variable {staged other : List String} {rest tree : FileTree C}

theorem get_assemble_leaf (hstaged : ¬ staged <+: names.leaf :: place) (hrest : rest.get (names.leaf :: place) = none) :
    (assemble names staged rest world).get (names.leaf :: place) = (world.router.getD []).get place := by
  rw [assemble, FileTree.get_append, FileTree.get_append, FileTree.get_append, FileTree.get_graft, FileTree.get_graft,
    FileTree.get_graft, hrest, if_neg hstaged, if_pos (by simp), if_neg (by simp [backup_ne_leaf])]
  simp

theorem get_assemble_backup (hstaged : ¬ staged <+: names.backup :: place)
    (hrest : rest.get (names.backup :: place) = none) :
    (assemble names staged rest world).get (names.backup :: place) = (world.backup.getD []).get place := by
  rw [assemble, FileTree.get_append, FileTree.get_append, FileTree.get_append, FileTree.get_graft, FileTree.get_graft,
    FileTree.get_graft, hrest, if_neg hstaged, if_neg (by simp [(backup_ne_leaf names).symm]), if_pos (by simp)]
  simp

theorem get_assemble_other (hleaf : ¬ [names.leaf] <+: other) (hstaged : ¬ staged <+: other)
    (hbackup : ¬ [names.backup] <+: other) : (assemble names staged rest world).get other = rest.get other := by
  rw [assemble, FileTree.get_append, FileTree.get_append, FileTree.get_append, FileTree.get_graft, FileTree.get_graft,
    FileTree.get_graft, if_neg hstaged, if_neg hleaf, if_neg hbackup, Option.or_none, Option.or_none, Option.or_none]

end

/-! ## Whole installations -/

section

variable {C : Type} {libs : ReleaseLibs C} {faults : InstallFaults} {names : InstallNames}
  {archive : Except String (List (PackageEntry C))} {parent : DirTree C} {result ended : Except String Unit}
  {final : FileTree C} {outside : List String}

theorem install_cases (hrun : installPortableArchive libs faults names archive parent = (result, final, outside)) :
    (∃ e, result = .error e) ∧ final = parent.entries ∧ outside = []
    ∨ (parent.entries.get [names.leaf] = none ∨ parent.entries.get [names.leaf] = some .dir)
      ∧ stageAndActivate libs faults names archive parent = (result, final, outside) := by
  rw [installPortableArchive] at hrun
  split at hrun
  · obtain ⟨rfl, hrest⟩ := Prod.mk.inj hrun
    obtain ⟨rfl, rfl⟩ := Prod.mk.inj hrest
    exact .inl ⟨⟨_, rfl⟩, rfl, rfl⟩
  split at hrun
  · rename_i hleaf
    exact .inr ⟨.inl hleaf, hrun⟩
  · rename_i hleaf
    exact .inr ⟨.inr hleaf, hrun⟩
  · obtain ⟨rfl, hrest⟩ := Prod.mk.inj hrun
    obtain ⟨rfl, rfl⟩ := Prod.mk.inj hrest
    exact .inl ⟨⟨_, rfl⟩, rfl, rfl⟩

/-- The staging, and what happens behind it. -/
theorem stage_cases (hrun : stageAndActivate libs faults names archive parent = (result, final, outside)) :
    ∃ ended world, extractAndVerifyArchive libs faults.extract faults.stuckContainer names.container archive parent
        = (ended, world) ∧ outside = world.outside
      ∧ ((∃ e, ended = .error e ∧ result = .error e) ∧ final = world.tree.entries
        ∨ ∃ staged tree, ended = .ok staged ∧ activateRelease libs faults names staged world.tree = (result, tree)
          ∧ (∀ other, ¬ [names.container] <+: other → final.get other = tree.get other)
          ∧ (result = .ok () → final = tree.removeDir [names.container] faults.removeContainer)) := by
  rw [stageAndActivate] at hrun
  cases hextract : extractAndVerifyArchive libs faults.extract faults.stuckContainer names.container archive parent with
  | mk ended world =>
    refine ⟨ended, world, rfl, ?_⟩
    rw [hextract] at hrun
    cases ended with
    | error e =>
      obtain ⟨rfl, hrest⟩ := Prod.mk.inj hrun
      obtain ⟨rfl, rfl⟩ := Prod.mk.inj hrest
      exact ⟨rfl, .inl ⟨⟨e, rfl, rfl⟩, rfl⟩⟩
    | ok staged =>
      dsimp only at hrun
      cases hactivate : activateRelease libs faults names staged world.tree with
      | mk ended tree =>
        rw [hactivate] at hrun
        cases ended with
        | error e =>
          obtain ⟨rfl, hrest⟩ := Prod.mk.inj hrun
          obtain ⟨rfl, rfl⟩ := Prod.mk.inj hrest
          refine ⟨rfl, .inr ⟨staged, tree, rfl, hactivate, ?_, fun hok => by cases hok⟩⟩
          exact fun other hother => FileTree.get_removeAll_of_not_prefix hother
        | ok u =>
          obtain ⟨rfl, hrest⟩ := Prod.mk.inj hrun
          obtain ⟨rfl, rfl⟩ := Prod.mk.inj hrest
          refine ⟨rfl, .inr ⟨staged, tree, rfl, hactivate, ?_, fun _ => rfl⟩⟩
          intro other hother
          refine FileTree.get_removeDir_of_ne ?_
          rintro rfl
          exact hother (List.prefix_refl _)

/-- The rest of the parent directory. -/
structure RestOf (names : InstallNames) (staged : List String) (tree rest : FileTree C) : Prop where
  leaf : ∀ place, rest.get (names.leaf :: place) = none
  backup : ∀ place, rest.get (names.backup :: place) = none
  release : ∀ other, staged <+: other → rest.get other = none
  same : ∀ other, ¬ [names.leaf] <+: other → ¬ staged <+: other → ¬ [names.backup] <+: other →
    rest.get other = tree.get other

theorem restOf_without (names : InstallNames) (staged : List String) (tree : FileTree C) :
    RestOf names staged tree (((tree.without [names.leaf]).without staged).without [names.backup]) := by
  have hget : ∀ other, (((tree.without [names.leaf]).without staged).without [names.backup]).get other
      = if [names.backup] <+: other then none else if staged <+: other then none
        else if [names.leaf] <+: other then none else tree.get other := by
    intro other
    rw [FileTree.get_without, FileTree.get_without, FileTree.get_without]
  constructor
  · intro place
    rw [hget, if_pos (c := [names.leaf] <+: names.leaf :: place) (List.prefix_append [names.leaf] place), ite_self,
      ite_self]
  · intro place
    rw [hget, if_pos (c := [names.backup] <+: names.backup :: place) (List.prefix_append [names.backup] place)]
  · intro other hother
    rw [hget, if_pos (c := staged <+: other) hother, ite_self]
  · intro other hleaf hstaged hbackup
    rw [hget, if_neg hbackup, if_neg hstaged, if_neg hleaf]

/-- What is activated, and where the parts of the parent directory come from. -/
theorem activate_cases {tree : DirTree C} {release : DirTree C} {staged : List String} {after : FileTree C}
    (hstaged : tree.subtree? staged = some release)
    (hrun : activateRelease libs faults names staged tree = (result, after)) :
    ∃ world rest, after = assemble names staged rest world ∧ RestOf names staged tree.entries rest
      ∧ ((∃ installed, tree.subtree? [names.leaf] = some installed
          ∧ replaceInstallation libs faults installed release (tree.entries.subtree? [names.backup]) = (result, world))
        ∨ tree.subtree? [names.leaf] = none
          ∧ activateFirst faults release.entries (tree.entries.subtree? [names.backup]) = (result, world)) := by
  rw [activateRelease, hstaged] at hrun
  dsimp only at hrun
  obtain ⟨rfl, rfl⟩ := Prod.mk.inj hrun
  refine ⟨_, _, rfl, restOf_without names staged tree.entries, ?_⟩
  cases tree.subtree? [names.leaf] with
  | some installed => exact .inl ⟨installed, rfl, rfl⟩
  | none => exact .inr ⟨rfl, rfl⟩

theorem KeepsUserData.congr {managed : List (List String)} {installed installed' staged new new' : FileTree C}
    (h : KeepsUserData managed installed staged new) (hinstalled : ∀ path, installed.get path = installed'.get path)
    (hnew : ∀ path, new.get path = new'.get path) : KeepsUserData managed installed' staged new' where
  files place node := by
    rw [← hinstalled, ← hnew]
    exact h.files place node
  kept place := by
    rw [← hinstalled, ← hnew]
    exact h.kept place
  dirs place := by
    rw [← hinstalled, ← hnew]
    exact h.dirs place

theorem managedPaths_congr {tree tree' : FileTree C} (h : ∀ path, tree.get path = tree'.get path) :
    managedPaths libs tree = managedPaths libs tree' := by
  have hcontent : contentAt tree manifestPath = contentAt tree' manifestPath := by
    rw [contentAt, contentAt, h]
  rw [managedPaths, managedPaths, loadReleaseManifest, loadReleaseManifest, hcontent]

/-- **An installation changes only what is its own**: the archive cannot reach anything beside the installation, the
new directory and the backup, whatever its entries are named and whatever fails. -/
theorem install_confined (libs : ReleaseLibs C) (faults : InstallFaults) (names : InstallNames)
    (archive : Except String (List (PackageEntry C))) (parent : DirTree C) :
    (installPortableArchive libs faults names archive parent).2.2 = []
      ∧ ∀ other, ¬ [names.leaf] <+: other → ¬ [names.container] <+: other → ¬ [names.backup] <+: other →
        (installPortableArchive libs faults names archive parent).2.1.get other = parent.entries.get other := by
  cases hrun : installPortableArchive libs faults names archive parent with
  | mk result rest =>
    obtain ⟨final, outside⟩ := rest
    rcases install_cases hrun with ⟨-, rfl, rfl⟩ | ⟨-, hstage⟩
    · exact ⟨rfl, fun _ _ _ _ => rfl⟩
    obtain ⟨ended, world, hextract, rfl, hends⟩ := stage_cases hstage
    obtain ⟨houtside, hframe, -⟩ :=
      extract_confined libs faults.extract faults.stuckContainer names.container archive parent
    rw [hextract] at houtside hframe
    refine ⟨houtside, ?_⟩
    intro other hleaf hcontainer hbackup
    rw [← hframe other hcontainer]
    rcases hends with ⟨-, rfl⟩ | ⟨staged, tree, rfl, hactivate, hfinal, -⟩
    · rfl
    obtain ⟨entries, root, release, -, rfl, hstaged, -, -⟩ := extract_exact hextract
    obtain ⟨world', rest, rfl, hrest, -⟩ := activate_cases hstaged hactivate
    have hout : ¬ [names.container, root] <+: other := fun h =>
      hcontainer ((List.prefix_append [names.container] [root]).trans h)
    show final.get other = _
    rw [hfinal other hcontainer, get_assemble_other hleaf hout hbackup, hrest.same other hleaf hout hbackup]

/-- The tree at a path depends on what is found below it. -/
theorem exists_subtree? {tree : DirTree C} {path : List String} {sub : DirTree C} (tree' : DirTree C)
    (h : tree.subtree? path = some sub)
    (hsame : ∀ other, tree'.entries.get (path ++ other) = tree.entries.get (path ++ other)) :
    ∃ sub', tree'.subtree? path = some sub' ∧ ∀ other, sub'.entries.get other = sub.entries.get other := by
  have hdir : tree.isDir path = true := by
    rw [DirTree.subtree?] at h
    split at h
    · assumption
    · cases h
  have hdir' : tree'.isDir path = true := by
    have hroot := hsame []
    rw [List.append_nil] at hroot
    rwa [DirTree.isDir, hroot]
  refine ⟨tree'.subtree path (DirTree.isDir_iff.mp hdir'), dif_pos hdir', ?_⟩
  intro other
  rw [DirTree.get_of_subtree? h, ← hsame]
  exact FileTree.get_subtree _ _ _

theorem isDir_of_subtree? {tree : DirTree C} {path : List String} {sub : DirTree C}
    (h : tree.subtree? path = some sub) : tree.entries.get path = some .dir := by
  have hroot := DirTree.get_of_subtree? h []
  rwa [sub.root, List.append_nil, eq_comm] at hroot

theorem subtree?_eq_none_iff {tree : FileTree C} {path : List String} :
    tree.subtree? path = none ↔ tree.get path = none := Option.map_eq_none_iff

/-- **An installation that ends well** has the verified files of the archive, with those of the user when another one
was there before; and nothing else of the parent directory has changed, if the new directory can be removed. -/
theorem install_complete (hleaf : names.container ≠ names.leaf) (hbackup : names.container ≠ names.backup)
    (hrun : installPortableArchive libs faults names archive parent = (.ok (), final, outside)) :
    ∃ entries root release, archive = .ok entries ∧ StagedRelease libs entries root release
      ∧ (∀ installed, parent.subtree? [names.leaf] = some installed → ∃ managed,
        managedPaths libs installed.entries = .ok managed
          ∧ KeepsUserData managed installed.entries release.entries (final.subtree [names.leaf]))
      ∧ (parent.entries.get [names.leaf] = none → ∀ place, final.get (names.leaf :: place) = release.entries.get place)
      ∧ (faults.removeContainer = false → ∀ other, ¬ [names.leaf] <+: other →
        final.get other = parent.entries.get other) := by
  rcases install_cases hrun with ⟨⟨e, herror⟩, -⟩ | ⟨hthere, hstage⟩
  · cases herror
  obtain ⟨ended, world, hextract, -, hends⟩ := stage_cases hstage
  rcases extract_fresh hextract with ⟨⟨e, rfl⟩, -⟩ | hfresh
  · rcases hends with ⟨⟨e', -, herror⟩, -⟩ | ⟨staged, tree, hok, -⟩
    · cases herror
    · cases hok
  have hframe := (extract_confined libs faults.extract faults.stuckContainer names.container archive parent).2.1
  rw [hextract] at hframe
  rcases hends with ⟨⟨e, -, herror⟩, -⟩ | ⟨staged, tree, rfl, hactivate, hfinal, hremoved⟩
  · cases herror
  obtain ⟨entries, root, release, rfl, rfl, hstaged, hrelease, honly⟩ := extract_exact hextract
  obtain ⟨world', rest, rfl, hrest, hcases⟩ := activate_cases hstaged hactivate
  have hout : ∀ other, ¬ [names.container] <+: names.leaf :: other := fun other h =>
    hleaf (List.cons_prefix_cons.mp h).1
  have hstagedOut : ∀ other, ¬ [names.container, root] <+: names.leaf :: other := fun other h =>
    hleaf (List.cons_prefix_cons.mp h).1
  have hrouter : ∀ place, final.get (names.leaf :: place) = (world'.router.getD []).get place := by
    intro place
    rw [hfinal _ (hout place), get_assemble_leaf (hstagedOut place) (hrest.leaf place)]
  -- the staged release has gone, and what stood at the path of the backup stands there
  have hworld : world'.staged = none
      ∧ ∀ place, (world'.backup.getD []).get place = world.tree.entries.get (names.backup :: place) := by
    have hbefore : ∀ place, ((world.tree.entries.subtree? [names.backup]).getD []).get place
        = world.tree.entries.get (names.backup :: place) := by
      intro place
      cases hsub : world.tree.entries.subtree? [names.backup] with
      | none =>
        exact (DirTree.get_below_of_none (subtree?_eq_none_iff.mp hsub) (List.prefix_append [names.backup] place)).symm
      | some sub =>
        obtain ⟨node, -, rfl⟩ := Option.map_eq_some_iff.mp hsub
        exact FileTree.get_subtree _ _ _
    rcases hcases with ⟨installed, -, hreplace⟩ | ⟨-, hfirst⟩
    · obtain ⟨managed, router, -, hnone, rfl, -⟩ := replace_ok hreplace
      rw [hnone] at hbefore
      exact ⟨rfl, hbefore⟩
    · obtain rfl := first_ok hfirst
      exact ⟨rfl, hbefore⟩
  refine ⟨entries, root, release, rfl, hrelease, ?_, ?_, ?_⟩
  · intro installed hinstalled
    obtain ⟨installed', hinstalled', hsame⟩ := exists_subtree? world.tree hinstalled
      fun other => hframe _ (hout other)
    rcases hcases with ⟨installed₁, hinstalled₁, hreplace⟩ | ⟨hnone, -⟩
    · rw [hinstalled', Option.some.injEq] at hinstalled₁
      subst hinstalled₁
      obtain ⟨managed, router, hmanaged, -, rfl, hkeeps⟩ := replace_ok hreplace
      refine ⟨managed, ?_, ?_⟩
      · rwa [← managedPaths_congr hsame]
      · refine hkeeps.congr hsame fun place => ?_
        rw [FileTree.get_subtree]
        exact (hrouter place).symm
    · rw [hinstalled'] at hnone
      cases hnone
  · intro hnone place
    rcases hcases with ⟨installed, hinstalled, -⟩ | ⟨-, hfirst⟩
    · have hdir := isDir_of_subtree? hinstalled
      rw [hframe _ (hout []), hnone] at hdir
      cases hdir
    · obtain rfl := first_ok hfirst
      exact hrouter place
  · intro hgone other hother
    have hafter : ∀ other, ¬ [names.leaf] <+: other → ¬ [names.container, root] <+: other →
        (assemble names [names.container, root] rest world').get other = world.tree.entries.get other := by
      intro other hother hstagedOther
      by_cases hbelow : [names.backup] <+: other
      · obtain ⟨place, rfl⟩ := hbelow
        exact (get_assemble_backup hstagedOther (hrest.backup place)).trans (hworld.2 place)
      · rw [get_assemble_other hother hstagedOther hbelow, hrest.same other hother hstagedOther hbelow]
    have hempty : ∀ name path,
        (assemble names [names.container, root] rest world').get (names.container :: name :: path) = none := by
      intro name path
      by_cases hroot : name = root
      · subst hroot
        rw [assemble, FileTree.get_append, FileTree.get_append, FileTree.get_append, FileTree.get_graft,
          FileTree.get_graft, FileTree.get_graft, hworld.1, hrest.release _ (by simp), if_neg (by simp [Ne.symm hleaf]),
          if_neg (c := [names.backup] <+: _) (by simp [Ne.symm hbackup])]
        simp [FileTree.get]
      · rw [hafter]
        · by_contra hthere
          exact hroot (honly name path hthere)
        · simp [Ne.symm hleaf]
        · simp [Ne.symm hroot]
    by_cases hcontainer : [names.container] <+: other
    · rw [DirTree.get_below_of_none hfresh hcontainer, hremoved rfl, hgone, FileTree.get_removeDir]
      · split
        · rfl
        · rename_i hne
          obtain ⟨_ | ⟨name, path⟩, rfl⟩ := hcontainer
          · exact absurd rfl hne
          · exact hempty name path
      · rintro below ⟨_ | ⟨name, path⟩, rfl⟩ hne
        · exact absurd rfl hne
        · exact hempty name path
    · rw [hfinal other hcontainer, hafter other hother, hframe other hcontainer]
      exact fun h => hcontainer ((List.prefix_append [names.container] [root]).trans h)

end

namespace UpdateRun

/-- The directory of the installation. -/
def parent : DirTree Content where
  entries := [([], .dir), (["router"], .dir), (["router", "codex-router.exe"], .file .oldRouter),
    (["router", "release-manifest.json"], .file .oldManifest), (["router", "assets"], .dir),
    (["router", "assets", "logo.txt"], .file .logo), (["router", "assets", "notes.txt"], .file .notes)]
  root := rfl
  parents := FileTree.parents_of_dropLast (by decide +kernel)
  nodup := by decide +kernel

/-- The archive of the new release. -/
def archive : List (PackageEntry Content) :=
  [⟨"R/", true, some 0o040755, 0, .logo, true⟩, ⟨"R/Codex-Router.exe", true, some 0o100600, 8, .newRouter, true⟩,
    ⟨"R/release-manifest.json", true, some 0o100600, 119, .newManifest, true⟩]

def names : InstallNames := ⟨"router", "2.0.0", "7-1", "7-2"⟩

/-- The installation that is there. -/
def present : DirTree Content := parent.subtree ["router"] rfl

theorem subtree?_parent : parent.subtree? [names.leaf] = some present := dif_pos rfl

/-- Neither can the file of the user be moved to the new release, nor the old one be put back. -/
def stuckFaults : InstallFaults where
  extract _ := false
  update step := step = .preserve ["assets", "notes.txt"] || step = .reinstall
  shortcuts := false
  stuckContainer := []
  stuckBackup := []
  removeContainer := false

/-- Nothing fails. -/
def noFaults : InstallFaults where
  extract _ := false
  update _ := false
  shortcuts := false
  stuckContainer := []
  stuckBackup := []
  removeContainer := false

theorem install_complete_sample : ∃ final outside,
    installPortableArchive libs noFaults names (.ok archive) parent = (.ok (), final, outside)
      ∧ ∃ entries root release, Except.ok archive = (Except.ok entries : Except String _)
        ∧ StagedRelease libs entries root release
        ∧ (∀ installed, parent.subtree? [names.leaf] = some installed → ∃ managed,
          managedPaths libs installed.entries = .ok managed
            ∧ KeepsUserData managed installed.entries release.entries (final.subtree [names.leaf]))
        ∧ (parent.entries.get [names.leaf] = none → ∀ place,
          final.get (names.leaf :: place) = release.entries.get place)
        ∧ (noFaults.removeContainer = false → ∀ other, ¬ [names.leaf] <+: other →
          final.get other = parent.entries.get other) := by
  have hends : (installPortableArchive libs noFaults names (.ok archive) parent).1.isOk = true := by decide +kernel
  cases hrun : installPortableArchive libs noFaults names (.ok archive) parent with
  | mk result rest =>
    obtain ⟨final, outside⟩ := rest
    rw [hrun] at hends
    cases result with
    | error e => cases hends
    | ok u => exact ⟨final, outside, rfl, install_complete (by decide +kernel) (by decide +kernel) hrun⟩

end UpdateRun

end CodexRouter
