/-
# The three configuration files

`write_all_files` replaces the model catalog, the channel manifest and the configuration of Router,
which marks the commit and is replaced last.  When one of them cannot be written, all three are put
back.
-/
import CodexRouter.Base.StagedFiles

namespace CodexRouter

/-! ## The paths -/

/-- A path, by its components. -/
abbrev FilePath := List String

/-- The directories that the paths stand in. -/
structure ConfigRoots where
  /-- The directory of the executable. -/
  routerRoot : FilePath
  /-- `state_root` of it. -/
  stateRoot : FilePath
  /-- `resolve_codex_home` of the configuration. -/
  codexHome : FilePath
  deriving DecidableEq, Repr

namespace ConfigRoots

variable (roots : ConfigRoots)

/-- `model_catalog_path`. -/
def modelCatalogPath : FilePath :=
  let stable := roots.stateRoot ++ ["model-catalog.json"]
  if stable ≠ roots.routerRoot ++ ["model-catalog.json"] then stable
  else roots.routerRoot ++ ["config"] ++ ["model-catalog.json"]

/-- The path of the channel manifest. -/
def channelsPath : FilePath := roots.routerRoot ++ ["config"] ++ ["sub2api-channels.json"]

/-- `config_path`. -/
def configPath : FilePath := roots.stateRoot ++ ["codex-router-config.json"]

/-- `stale_codex_home_catalog_path`. -/
def staleCodexHomeCatalogPath : FilePath := roots.codexHome ++ ["model-catalog.codex-router.json"]

/-- The paths differ in their file names. -/
theorem nodup_paths : [roots.modelCatalogPath, roots.channelsPath, roots.configPath,
    roots.staleCodexHomeCatalogPath].Nodup := by
  have hcatalog : roots.modelCatalogPath.getLast? = some "model-catalog.json" := by
    unfold modelCatalogPath
    dsimp only
    split <;> exact List.getLast?_concat
  have hchannels : roots.channelsPath.getLast? = some "sub2api-channels.json" := List.getLast?_concat
  have hconfig : roots.configPath.getLast? = some "codex-router-config.json" := List.getLast?_concat
  have hstale : roots.staleCodexHomeCatalogPath.getLast? = some "model-catalog.codex-router.json" :=
    List.getLast?_concat
  apply List.Nodup.of_map (fun path => path.getLast?)
  simp [hcatalog, hchannels, hconfig, hstale]

end ConfigRoots

/-! ## Writing -/

/-- The texts of `catalog_document`, of `build_channel_manifest` and of the configuration. -/
structure ConfigDocuments (C : Type) where
  catalog : C
  channels : C
  config : C

/-- What goes wrong. -/
structure CommitFaults where
  createDir : Bool
  read : FilePath → Bool
  write : FilePath → Option WriteFault
  /-- In the rollback. -/
  restore : FilePath → Option WriteFault
  removeStale : Bool

/-- How `write_all_files` fails. -/
inductive CommitError where
  /-- Before the first write. -/
  | notStarted
  /-- 配置文件提交失败，已恢复应用前文件 -/
  | restored
  /-- 配置文件提交失败，且自动回滚未完全成功 -/
  | notRestored
  deriving DecidableEq, Repr

section

variable {C : Type} (faults : CommitFaults) (roots : ConfigRoots)

/-- The writes, in their order. -/
def configWrites (documents : ConfigDocuments C) : List (FilePath × Option C) :=
  [(roots.modelCatalogPath, some documents.catalog), (roots.channelsPath, some documents.channels)]
    ++ [(roots.configPath, some documents.config)]

/-- `write_all_files`, on the documents if they can be serialized: the result, the files, and the files at all
moments in between. -/
def writeAllFiles (documents : Option (ConfigDocuments C)) (files : Files FilePath C) :
    Except CommitError Unit × Files FilePath C × List (Files FilePath C) :=
  match documents with
  | none => (.error .notStarted, files, [])
  | some documents =>
    let writes := configWrites roots documents
    if faults.createDir || writes.any fun write => faults.read write.1 then (.error .notStarted, files, [])
    else
      let written := files.commit faults.write writes
      let moments := files.commitMoments faults.write writes
      if written.1 then
        let stale := written.2.replace (if faults.removeStale then some .kept else none)
          roots.staleCodexHomeCatalogPath none
        (.ok (), stale.2, moments ++ [stale.2])
      else
        let paths := writes.map Prod.fst
        let restored := Files.putBack faults.restore files paths written.2
        (.error (if restored.1 then .restored else .notRestored), restored.2,
          moments ++ Files.putBackMoments faults.restore files paths written.2)

variable {faults} {roots} {documents : Option (ConfigDocuments C)} {docs : ConfigDocuments C}
  {files : Files FilePath C}

/-- The writes are to different paths. -/
theorem nodup_configWrites (roots : ConfigRoots) (docs : ConfigDocuments C) :
    ((configWrites roots docs).map Prod.fst).Nodup :=
  roots.nodup_paths.sublist (List.sublist_append_left [_, _, _] [_])

/-- The path of the stale catalog is none of them. -/
theorem stale_notMem_configWrites (roots : ConfigRoots) (docs : ConfigDocuments C) :
    roots.staleCodexHomeCatalogPath ∉ (configWrites roots docs).map Prod.fst := by
  have hdisjoint : List.Disjoint ((configWrites roots docs).map Prod.fst) [roots.staleCodexHomeCatalogPath] :=
    List.disjoint_of_nodup_append roots.nodup_paths
  exact fun hmem => hdisjoint hmem List.mem_cons_self

/-- A failed call leaves every file as it was. -/
theorem writeAllFiles_error (hrestore : ∀ path, faults.restore path = none) {e : CommitError}
    (h : (writeAllFiles faults roots documents files).1 = .error e) :
    (writeAllFiles faults roots documents files).2.1 = files := by
  have hnone : faults.restore = fun _ => none := funext hrestore
  unfold writeAllFiles at h ⊢
  cases documents with
  | none => rfl
  | some docs =>
    dsimp only at h ⊢
    split
    · rfl
    · split
      · rename_i hstart hdone
        rw [if_neg hstart, if_pos hdone] at h
        cases h
      · rw [hnone, Files.putBack_commit fun path hpath => hpath]

/-- A call that ends well wrote all files, without a fault at any of them, and no other file but the stale
catalog is touched. -/
theorem writeAllFiles_ok (h : (writeAllFiles faults roots documents files).1 = .ok ()) :
    ∃ docs, documents = some docs
      ∧ (∀ write ∈ configWrites roots docs, faults.write write.1 = none
        ∧ (writeAllFiles faults roots documents files).2.1 write.1 = write.2)
      ∧ ∀ path, path ∉ (configWrites roots docs).map Prod.fst → path ≠ roots.staleCodexHomeCatalogPath →
        (writeAllFiles faults roots documents files).2.1 path = files path := by
  unfold writeAllFiles at h ⊢
  cases documents with
  | none => cases h
  | some docs =>
    refine ⟨docs, rfl, ?_⟩
    dsimp only at h ⊢
    split
    · rename_i hstart
      rw [if_pos hstart] at h
      cases h
    · rename_i hstart
      rw [if_neg hstart] at h
      split
      · rename_i hdone
        constructor
        · intro write hwrite
          have hne : write.1 ≠ roots.staleCodexHomeCatalogPath := by
            intro heq
            exact stale_notMem_configWrites roots docs (heq ▸ List.mem_map_of_mem hwrite)
          obtain ⟨c, hc⟩ : ∃ c, write = (write.1, some c) := by
            rcases List.mem_append.mp hwrite with hwrite | hwrite
            · rcases List.mem_cons.mp hwrite with rfl | hwrite
              · exact ⟨_, rfl⟩
              · rw [List.mem_singleton.mp hwrite]
                exact ⟨_, rfl⟩
            · rw [List.mem_singleton.mp hwrite]
              exact ⟨_, rfl⟩
          refine ⟨Files.commit_ok_faults hdone (hc ▸ hwrite), ?_⟩
          dsimp only
          rw [Files.replace_other hne]
          exact Files.commit_ok (nodup_configWrites roots docs) hdone hwrite
        · intro path hpath hstale
          dsimp only
          rw [Files.replace_other hstale, Files.commit_other hpath]
      · rename_i hfailed
        rw [if_neg hfailed] at h
        cases h

/-- At every moment the configuration is new only if the other two files are. -/
theorem writeAllFiles_moments (hrestore : ∀ path, faults.restore path = none) {moment : Files FilePath C}
    (h : moment ∈ (writeAllFiles faults roots (some docs) files).2.2)
    (hnew : moment roots.configPath = some docs.config) :
    moment roots.configPath = files roots.configPath
      ∨ (moment roots.modelCatalogPath = some docs.catalog ∧ moment roots.channelsPath = some docs.channels) := by
  have hnone : faults.restore = fun _ => none := funext hrestore
  have hnodup := nodup_configWrites roots docs
  have hcatalog : (roots.modelCatalogPath, some docs.catalog) ∈ configWrites roots docs := List.mem_cons_self
  have hchannels : (roots.channelsPath, some docs.channels) ∈ configWrites roots docs :=
    List.mem_cons_of_mem _ List.mem_cons_self
  have hcommit : moment ∈ files.commitMoments faults.write (configWrites roots docs) →
      moment roots.configPath = files roots.configPath
        ∨ (moment roots.modelCatalogPath = some docs.catalog ∧ moment roots.channelsPath = some docs.channels) := by
    intro hmoment
    rcases Files.commitMoments_last hnodup hmoment with hold | hgone | hothers
    · exact .inl hold
    · rw [hnew] at hgone
      cases hgone
    · exact .inr ⟨hothers _ List.mem_cons_self, hothers _ (List.mem_cons_of_mem _ List.mem_cons_self)⟩
  unfold writeAllFiles at h
  dsimp only at h
  split at h
  · cases h
  · split at h
    · rename_i hdone
      rcases List.mem_append.mp h with hmoment | hmoment
      · exact hcommit hmoment
      · have hstale := stale_notMem_configWrites roots docs
        have hwritten : ∀ write ∈ configWrites roots docs, moment write.1 = write.2 := by
          intro write hwrite
          have hne : write.1 ≠ roots.staleCodexHomeCatalogPath := fun heq => hstale (heq ▸ List.mem_map_of_mem hwrite)
          rw [List.mem_singleton.mp hmoment, Files.replace_other hne, Files.commit_ok hnodup hdone hwrite]
        exact .inr ⟨hwritten _ hcatalog, hwritten _ hchannels⟩
    · rename_i hfailed
      rcases List.mem_append.mp h with hmoment | hmoment
      · exact hcommit hmoment
      · rw [hnone] at hmoment
        rcases Files.putBackMoments_cases hmoment roots.configPath with heq | heq
        · have hlast : roots.configPath ∉ [(roots.modelCatalogPath, some docs.catalog),
              (roots.channelsPath, some docs.channels)].map Prod.fst := by
            intro hmem
            rw [configWrites, List.map_append] at hnodup
            exact List.disjoint_of_nodup_append hnodup hmem List.mem_cons_self
          rcases Files.commit_failed_last hlast (Bool.eq_false_iff.mpr hfailed) with hold | hgone
          · exact .inl (heq.trans hold)
          · rw [hnew] at heq
            cases heq.trans hgone
        · exact .inl heq

/-- The three files are written together: a failed call leaves every file as it was; a call that ends well wrote
all of them, without a fault at any; and at every moment the configuration is new only if the others are. -/
theorem writeAllFiles_allOrNothing (faults : CommitFaults) (hrestore : ∀ path, faults.restore path = none)
    (roots : ConfigRoots) (documents : Option (ConfigDocuments C)) (files : Files FilePath C) :
    (∀ e, (writeAllFiles faults roots documents files).1 = .error e →
      (writeAllFiles faults roots documents files).2.1 = files)
    ∧ ((writeAllFiles faults roots documents files).1 = .ok () → ∃ docs, documents = some docs
      ∧ (∀ write ∈ configWrites roots docs, faults.write write.1 = none
        ∧ (writeAllFiles faults roots documents files).2.1 write.1 = write.2)
      ∧ ∀ path, path ∉ (configWrites roots docs).map Prod.fst → path ≠ roots.staleCodexHomeCatalogPath →
        (writeAllFiles faults roots documents files).2.1 path = files path)
    ∧ ∀ docs, documents = some docs → ∀ moment ∈ (writeAllFiles faults roots documents files).2.2,
      moment roots.configPath = some docs.config → moment roots.configPath = files roots.configPath
        ∨ (moment roots.modelCatalogPath = some docs.catalog ∧ moment roots.channelsPath = some docs.channels) := by
  refine ⟨fun e => writeAllFiles_error hrestore, writeAllFiles_ok, ?_⟩
  rintro docs rfl moment hmoment
  exact writeAllFiles_moments hrestore hmoment

/-- The manifest cannot be written, and is gone then: the catalog and the manifest are put back. -/
theorem writeAllFiles_secondFails :
    let roots : ConfigRoots := ⟨["router"], ["state"], ["home", ".codex"]⟩
    let faults : CommitFaults := ⟨false, fun _ => false,
      fun path => if path = roots.channelsPath then some .lost else none, fun _ => none, false⟩
    let files : Files FilePath String := fun path => if path = roots.configPath then none else some "old"
    (writeAllFiles faults roots (some ⟨"catalog", "channels", "config"⟩) files).1 = .error .restored
      ∧ (writeAllFiles faults roots (some ⟨"catalog", "channels", "config"⟩) files).2.1 = files := by
  intro roots faults files
  have hfails : (writeAllFiles faults roots (some ⟨"catalog", "channels", "config"⟩) files).1
      = .error .restored := by rfl
  exact ⟨hfails, (writeAllFiles_allOrNothing faults (fun _ => rfl) roots _ files).1 _ hfails⟩

end

end CodexRouter
