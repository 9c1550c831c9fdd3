/-
# Restoring a profile

`restore_full_state` replaces `config.toml` and `auth.json` in the Codex home: the configuration by a merge
of the live one with the snapshot, the login by the snapshot's, unless the live one is a ChatGPT login.  When
one of the two cannot be replaced, both are put back.

The live login is looked at once, and a look that fails counts as no login: `restoresProfile_iff` says when
that overwrites it.
-/
import CodexRouter.Base.JsonText
import CodexRouter.Base.StagedFiles
import CodexRouter.Base.Utf8
import CodexRouter.WindowsSandbox

namespace CodexRouter

open Text

/-! ## What is read -/

/-- The two files. -/
inductive CodexFile where
  | config
  | auth
  deriving DecidableEq, Repr

/-- `str::from_utf8`. -/
def fromUtf8 (bytes : List UInt8) : Option String :=
  if Utf8.encode (Utf8.decodeLossy bytes) = bytes then some (String.ofList (Utf8.decodeLossy bytes)) else none

/-- A ChatGPT login. -/
def isChatgptLogin (auth : Value) : Bool :=
  auth.getStr "auth_mode" = some "chatgpt" && ((auth.get "tokens").bind Value.asObject).isSome

/-- `read_auth_info`, its `valid_chatgpt`, on what is read of the file. -/
def readAuthInfo (serde : Serde) (content : Option (List UInt8)) : Bool :=
  ((content.bind fromUtf8).bind serde.fromStr).any isChatgptLogin

/-- The parts of `StateManifest` that a restore reads. -/
structure StateManifest where
  configPresent : Bool
  authPresent : Bool
  deriving DecidableEq, Repr

/-- A snapshot: what its `config.toml` reads as, and its login, decrypted. -/
structure StateSnapshot where
  manifest : StateManifest
  config : Option String
  auth : Option (List UInt8)
  deriving DecidableEq, Repr

/-- What a restore makes use of. -/
structure RestoreEnv where
  serde : Serde
  /-- `merge_codex_route_config`, `none` on invalid TOML. -/
  mergeRouteConfig : String → String → Option String
  /-- `preserve_router_provider_for_history`. -/
  preserveRouterProvider : String → String

/-- What can fail before the files are replaced. -/
inductive RestoreStep where
  | createHome
  | readConfig
  | readSnapshotConfig
  | readAuthInfo
  | decryptAuth
  | readAuth
  deriving DecidableEq, Repr

/-- What goes wrong. -/
structure RestoreFaults where
  step : RestoreStep → Bool
  write : CodexFile → Option WriteFault
  /-- In the rollback. -/
  restore : CodexFile → Option WriteFault

/-- How a restore fails. -/
inductive RestoreError where
  /-- Before the files are replaced. -/
  | notStarted
  /-- Codex 状态提交失败，已恢复切换前文件 -/
  | restored
  /-- Codex 状态提交失败，且自动回滚未完全成功 -/
  | notRestored
  deriving DecidableEq, Repr

/-! ## The restore -/

section

variable (env : RestoreEnv) (faults : RestoreFaults) (snapshot : StateSnapshot)

/-- The text of the snapshot's configuration. -/
def snapshotConfig : Option String :=
  if snapshot.manifest.configPresent then
    if faults.step .readSnapshotConfig then none else snapshot.config
  else some ""

/-- The merge of the live configuration with a snapshot's. -/
def mergedConfig (current : Option (List UInt8)) (target : String) : Option String :=
  (match current with
    | none => some target
    | some bytes => (fromUtf8 bytes).bind fun text =>
      (env.mergeRouteConfig text target).map (SandboxText.preserveWindowsSandboxConfig text)).map env.preserveRouterProvider

/-- What `config.toml` is to hold; it is removed for a blank text. -/
def configContent (merged : String) : Option (List UInt8) :=
  if trim merged = "" then none else some (Utf8.encode merged.toList)

/-- `keep_current_auth`: a live login that is seen is kept. -/
def keepsAuth (files : Files CodexFile (List UInt8)) : Bool :=
  !faults.step .readAuthInfo && readAuthInfo env.serde (files .auth)

/-- What `auth.json` is to hold, if it is replaced; `none` outside is a login that cannot be decrypted. -/
def authContent (keepCurrentAuth : Bool) : Option (Option (List UInt8)) :=
  if snapshot.manifest.authPresent && !keepCurrentAuth then
    if faults.step .decryptAuth then none else snapshot.auth.map some
  else some none

/-- The replacements, in their order. -/
def restoreWrites (config : Option (List UInt8)) (keepCurrentAuth : Bool) (auth : Option (List UInt8)) :
    List (CodexFile × Option (List UInt8)) :=
  (.config, config) :: if keepCurrentAuth then [] else [(.auth, auth)]

/-- `restore_full_state`. -/
def restoreFullState (files : Files CodexFile (List UInt8)) :
    Except RestoreError Unit × Files CodexFile (List UInt8) :=
  if faults.step .createHome || faults.step .readConfig then (.error .notStarted, files)
  else
    match (snapshotConfig faults snapshot).bind (mergedConfig env (files .config)) with
    | none => (.error .notStarted, files)
    | some merged =>
      match authContent faults snapshot (keepsAuth env faults files) with
      | none => (.error .notStarted, files)
      | some auth =>
        if faults.step .readAuth then (.error .notStarted, files)
        else
          let written := files.commit faults.write (restoreWrites (configContent merged) (keepsAuth env faults files) auth)
          if written.1 then (.ok (), written.2)
          else
            let restored := Files.putBack faults.restore files [.config, .auth] written.2
            (.error (if restored.1 then .restored else .notRestored), restored.2)

end

/-! ## What a restore is to do -/

section

variable (env : RestoreEnv) (faults : RestoreFaults) (snapshot : StateSnapshot) (files : Files CodexFile (List UInt8))

/-- The login that the snapshot holds, if it holds one. -/
def StateSnapshot.login (snapshot : StateSnapshot) : Option (List UInt8) :=
  if snapshot.manifest.authPresent then snapshot.auth else none

/-- A restore that fails changes nothing; one that ends well leaves the merged configuration, and the live login
or the snapshot's, and the live one if it is a ChatGPT login. -/
structure RestoresProfile : Prop where
  failed : ∀ e, (restoreFullState env faults snapshot files).1 = .error e →
    (restoreFullState env faults snapshot files).2 = files
  config : (restoreFullState env faults snapshot files).1 = .ok () →
    ∃ merged, (snapshotConfig faults snapshot).bind (mergedConfig env (files .config)) = some merged
      ∧ (restoreFullState env faults snapshot files).2 .config = configContent merged
  auth : (restoreFullState env faults snapshot files).1 = .ok () →
    (restoreFullState env faults snapshot files).2 .auth = files .auth
      ∨ (restoreFullState env faults snapshot files).2 .auth = snapshot.login
  live : (restoreFullState env faults snapshot files).1 = .ok () → readAuthInfo env.serde (files .auth) = true →
    (restoreFullState env faults snapshot files).2 .auth = files .auth

/-- Nothing but the look at the live login can fail: a fault at a file counts if something is written or removed
there. -/
structure OthersWork : Prop where
  steps : ∀ step, faults.step step = true → step = .readAuthInfo
    ∨ (step = .readSnapshotConfig ∧ snapshot.manifest.configPresent = false)
    ∨ (step = .decryptAuth ∧ snapshot.manifest.authPresent = false)
  merge : ∃ merged, (snapshotConfig faults snapshot).bind (mergedConfig env (files .config)) = some merged
    ∧ (faults.write .config = none ∨ (configContent merged = none ∧ files .config = none))
  login : snapshot.manifest.authPresent = true → snapshot.auth.isSome = true
  write : faults.write .auth = none ∨ (snapshot.login = none ∧ files .auth = none)

/-- The live login is a ChatGPT login, the look at it fails, nothing else does, and the snapshot has another
login or none. -/
structure LoginLost : Prop where
  live : readAuthInfo env.serde (files .auth) = true
  unseen : faults.step .readAuthInfo = true
  others : OthersWork env faults snapshot files
  differs : snapshot.login ≠ files .auth

end

section

variable {env : RestoreEnv} {faults : RestoreFaults} {snapshot : StateSnapshot}
  {files : Files CodexFile (List UInt8)} {merged : String} {auth : Option (List UInt8)}

/-- A restore that ends well replaced the files it planned to. -/
theorem restoreFullState_ok (h : (restoreFullState env faults snapshot files).1 = .ok ()) :
    ∃ merged auth, (snapshotConfig faults snapshot).bind (mergedConfig env (files .config)) = some merged
      ∧ authContent faults snapshot (keepsAuth env faults files) = some auth
      ∧ (∀ step ∈ [RestoreStep.createHome, .readConfig, .readAuth], faults.step step = false)
      ∧ (files.commit faults.write (restoreWrites (configContent merged) (keepsAuth env faults files) auth)).1 = true
      ∧ (restoreFullState env faults snapshot files).2
        = (files.commit faults.write (restoreWrites (configContent merged) (keepsAuth env faults files) auth)).2 := by
  unfold restoreFullState at h ⊢
  split at h
  · cases h
  · rename_i hstart
    rw [if_neg hstart]
    rw [Bool.or_eq_true, not_or, Bool.not_eq_true, Bool.not_eq_true] at hstart
    split at h
    · cases h
    · rename_i merged hmerged
      rw [hmerged]
      dsimp only at h ⊢
      split at h
      · cases h
      · rename_i auth hauth
        split at h
        · cases h
        · rename_i hread
          rw [hauth]
          simp only [if_neg hread]
          rw [Bool.not_eq_true] at hread
          split at h
          · rename_i hwritten
            rw [if_pos hwritten]
            exact ⟨merged, auth, rfl, rfl, by simp [hstart.1, hstart.2, hread], hwritten, rfl⟩
          · cases h

/-- Where all of it works, the restore ends well. -/
theorem restoreFullState_of_works
    (hmerged : (snapshotConfig faults snapshot).bind (mergedConfig env (files .config)) = some merged)
    (hauth : authContent faults snapshot (keepsAuth env faults files) = some auth)
    (hsteps : ∀ step ∈ [RestoreStep.createHome, .readConfig, .readAuth], faults.step step = false)
    (hwritten : (files.commit faults.write (restoreWrites (configContent merged) (keepsAuth env faults files) auth)).1
      = true) :
    (restoreFullState env faults snapshot files).1 = .ok () := by
  have hhome := hsteps .createHome (by simp)
  have hread := hsteps .readConfig (by simp)
  have hreadAuth := hsteps .readAuth (by simp)
  unfold restoreFullState
  rw [hhome, hread, hmerged]
  simp only [Bool.or_self, Bool.false_eq_true, if_false]
  rw [hauth]
  simp only [hreadAuth, Bool.false_eq_true, if_false, hwritten, if_true]

/-- A restore that fails changes nothing. -/
theorem restoreFullState_error (hrestore : ∀ file, faults.restore file = none) {e : RestoreError}
    (h : (restoreFullState env faults snapshot files).1 = .error e) :
    (restoreFullState env faults snapshot files).2 = files := by
  have hnone : faults.restore = fun _ => none := funext hrestore
  unfold restoreFullState at h ⊢
  split
  · rfl
  · rename_i hstart
    rw [if_neg hstart] at h
    split
    · rfl
    · rename_i merged hmerged
      rw [hmerged] at h
      dsimp only at h ⊢
      split
      · rfl
      · rename_i auth hauth
        rw [hauth] at h
        dsimp only at h
        split
        · rfl
        · rename_i hread
          rw [if_neg hread] at h
          split
          · rename_i hwritten
            rw [if_pos hwritten] at h
            cases h
          · rw [hnone, Files.putBack_commit]
            intro file _
            cases file <;> simp

theorem nodup_restoreWrites (config : Option (List UInt8)) (keep : Bool) (auth : Option (List UInt8)) :
    ((restoreWrites config keep auth).map Prod.fst).Nodup := by
  cases keep <;> simp [restoreWrites]

/-- A login that is seen is not touched. -/
theorem auth_of_keeps (config auth : Option (List UInt8)) :
    (files.commit faults.write (restoreWrites config true auth)).2 .auth = files .auth :=
  Files.commit_other (by simp [restoreWrites])

theorem authContent_present (h : snapshot.manifest.authPresent = true) : authContent faults snapshot false
    = if faults.step .decryptAuth then none else snapshot.auth.map some := by
  rw [authContent, h]
  rfl

/-- The snapshot's login is what is written. -/
theorem authContent_false (h : authContent faults snapshot false = some auth) : auth = snapshot.login := by
  unfold authContent at h
  unfold StateSnapshot.login
  rw [Bool.not_false, Bool.and_true] at h
  split
  · rename_i hpresent
    rw [if_pos hpresent] at h
    split at h
    · cases h
    · obtain ⟨login, hlogin, rfl⟩ := Option.map_eq_some_iff.mp h
      exact hlogin.symm
  · rename_i hpresent
    rw [if_neg hpresent] at h
    exact (Option.some.inj h).symm

/-- Both files are replaced if no fault counts. -/
theorem commit_restoreWrites_iff (config auth : Option (List UInt8)) :
    (files.commit faults.write (restoreWrites config false auth)).1 = true
      ↔ (faults.write .config = none ∨ (config = none ∧ files .config = none))
        ∧ (faults.write .auth = none ∨ (auth = none ∧ files .auth = none)) := by
  rw [← Files.replace_fst_iff, ← Files.replace_fst_iff]
  show (files.commit faults.write [(.config, config), (.auth, auth)]).1 = true ↔ _
  cases hfirst : (files.replace (faults.write .config) .config config).1 with
  | false =>
    rw [Files.commit_cons_of_failed hfirst, hfirst]
    simp
  | true =>
    rw [Files.commit_cons_of_ok hfirst]
    have hkept : (files.replace (faults.write .config) .config config).2 .auth = files .auth :=
      Files.replace_other (by decide)
    have hsecond : ((files.replace (faults.write .config) .config config).2.replace (faults.write .auth) .auth auth).1
        = (files.replace (faults.write .auth) .auth auth).1 := by
      rw [Bool.eq_iff_iff, Files.replace_fst_iff, Files.replace_fst_iff, hkept]
    rw [← hsecond]
    cases hok : ((files.replace (faults.write .config) .config config).2.replace (faults.write .auth) .auth auth).1 with
    | true =>
      rw [Files.commit_cons_of_ok hok]
      simp [Files.commit]
    | false =>
      rw [Files.commit_cons_of_failed hok, hok]
      simp

/-- A restore that does not see the login ends well if and only if everything else works. -/
theorem OthersWork.of_ok (hunseen : keepsAuth env faults files = false)
    (h : (restoreFullState env faults snapshot files).1 = .ok ()) : OthersWork env faults snapshot files := by
  obtain ⟨merged, auth, hmerged, hauth, hsteps, hwritten, -⟩ := restoreFullState_ok h
  rw [hunseen] at hauth hwritten
  obtain ⟨hconfig, hlogin⟩ := (commit_restoreWrites_iff _ _).mp hwritten
  rw [authContent_false hauth] at hlogin
  refine ⟨?_, ⟨merged, hmerged, hconfig⟩, ?_, hlogin⟩
  · intro step hfails
    cases step with
    | createHome => rw [hsteps .createHome (by simp)] at hfails; cases hfails
    | readConfig => rw [hsteps .readConfig (by simp)] at hfails; cases hfails
    | readAuth => rw [hsteps .readAuth (by simp)] at hfails; cases hfails
    | readAuthInfo => exact .inl rfl
    | readSnapshotConfig =>
      refine .inr (.inl ⟨rfl, Bool.eq_false_iff.mpr fun hpresent => ?_⟩)
      rw [snapshotConfig, if_pos hpresent, if_pos hfails] at hmerged
      cases hmerged
    | decryptAuth =>
      refine .inr (.inr ⟨rfl, Bool.eq_false_iff.mpr fun hpresent => ?_⟩)
      rw [authContent_present hpresent, if_pos hfails] at hauth
      cases hauth
  · intro hpresent
    rw [authContent_present hpresent] at hauth
    split at hauth
    · cases hauth
    · obtain ⟨login, hlogin, -⟩ := Option.map_eq_some_iff.mp hauth
      rw [hlogin]
      rfl

/-- Without a look at the login, the snapshot's is written. -/
theorem OthersWork.ok (h : OthersWork env faults snapshot files) (hunseen : faults.step .readAuthInfo = true) :
    (restoreFullState env faults snapshot files).1 = .ok () := by
  have hkeeps : keepsAuth env faults files = false := by rw [keepsAuth, hunseen]; rfl
  obtain ⟨merged, hmerged, hconfig⟩ := h.merge
  have hsteps : ∀ step ∈ [RestoreStep.createHome, .readConfig, .readAuth], faults.step step = false := by
    intro step hstep
    rw [Bool.eq_false_iff]
    intro hfails
    rcases h.steps step hfails with rfl | ⟨rfl, -⟩ | ⟨rfl, -⟩ <;> simp at hstep
  have hauth : authContent faults snapshot false = some snapshot.login := by
    unfold authContent StateSnapshot.login
    cases hpresent : snapshot.manifest.authPresent with
    | false => rfl
    | true =>
      have hdecrypt : faults.step .decryptAuth = false := by
        rw [Bool.eq_false_iff]
        intro hfails
        rcases h.steps _ hfails with heq | ⟨heq, -⟩ | ⟨-, habsent⟩
        · cases heq
        · cases heq
        · rw [hpresent] at habsent
          cases habsent
      obtain ⟨login, hlogin⟩ := Option.isSome_iff_exists.mp (h.login hpresent)
      simp [hdecrypt, hlogin]
  rw [← hkeeps] at hauth
  refine restoreFullState_of_works hmerged hauth hsteps ?_
  rw [hkeeps]
  exact (commit_restoreWrites_iff _ _).mpr ⟨hconfig, h.write⟩

/-- What a restore that does not see the login leaves in its place. -/
theorem auth_of_unseen (hunseen : keepsAuth env faults files = false)
    (h : (restoreFullState env faults snapshot files).1 = .ok ()) :
    (restoreFullState env faults snapshot files).2 .auth = snapshot.login := by
  obtain ⟨merged, auth, -, hauth, -, hwritten, hfiles⟩ := restoreFullState_ok h
  rw [hunseen] at hauth hwritten hfiles
  rw [hfiles, Files.commit_ok (nodup_restoreWrites _ _ _) hwritten (by simp [restoreWrites]; rfl), authContent_false hauth]

/-- A restore does what it is to do, except where the look at a live login fails and nothing else does. -/
theorem restoresProfile_iff (env : RestoreEnv) (faults : RestoreFaults)
    (hrestore : ∀ file, faults.restore file = none) (snapshot : StateSnapshot)
    (files : Files CodexFile (List UInt8)) :
    RestoresProfile env faults snapshot files ↔ ¬ LoginLost env faults snapshot files := by
  constructor
  · intro hrestores hlost
    have hkeeps : keepsAuth env faults files = false := by rw [keepsAuth, hlost.unseen]; rfl
    have hok := hlost.others.ok hlost.unseen
    exact hlost.differs ((auth_of_unseen hkeeps hok).symm.trans (hrestores.live hok hlost.live))
  · intro hsafe
    have hkept : keepsAuth env faults files = true → (restoreFullState env faults snapshot files).1 = .ok () →
        (restoreFullState env faults snapshot files).2 .auth = files .auth := by
      intro hkeeps h
      obtain ⟨merged, auth, -, -, -, -, hfiles⟩ := restoreFullState_ok h
      rw [hfiles, hkeeps, auth_of_keeps]
    refine ⟨fun e => restoreFullState_error hrestore, fun h => ?_, fun h => ?_, fun h hlive => ?_⟩
    · obtain ⟨merged, auth, hmerged, -, -, hwritten, hfiles⟩ := restoreFullState_ok h
      exact ⟨merged, hmerged, by rw [hfiles]; exact Files.commit_ok (nodup_restoreWrites _ _ _) hwritten (by simp [restoreWrites])⟩
    · cases hkeeps : keepsAuth env faults files with
      | true => exact .inl (hkept hkeeps h)
      | false => exact .inr (auth_of_unseen hkeeps h)
    · cases hkeeps : keepsAuth env faults files with
      | true => exact hkept hkeeps h
      | false =>
        have hunseen : faults.step .readAuthInfo = true := by
          rw [keepsAuth, hlive, Bool.and_true, Bool.not_eq_false'] at hkeeps
          exact hkeeps
        by_contra hdiffers
        rw [auth_of_unseen hkeeps h] at hdiffers
        exact hsafe ⟨hlive, hunseen, OthersWork.of_ok hkeeps h, hdiffers⟩

/-- A live login, and a snapshot of another one; the configurations are not there. -/
def loginText : String := "\x7b\"auth_mode\":\"chatgpt\",\"tokens\":\x7b\x7d\x7d"

/-- A Codex home with a live login only. -/
def liveLogin : Files CodexFile (List UInt8)
  | .config => none
  | .auth => some (Utf8.encode loginText.toList)

/-- A snapshot that holds neither file. -/
def emptySnapshot : StateSnapshot := ⟨⟨false, false⟩, none, none⟩

/-- A restore where no history provider is added and nothing is merged. -/
def plainRestore : RestoreEnv := ⟨(JsonLexicon.plain 128).serde, fun _ target => some target, id⟩

/-- The look at the live login fails, or nothing does. -/
def lookFails (fails : Bool) : RestoreFaults :=
  ⟨fun step => fails && step = .readAuthInfo, fun _ => none, fun _ => none⟩

/-- The login is seen and kept. -/
theorem restoresProfile_seen : RestoresProfile plainRestore (lookFails false) emptySnapshot liveLogin :=
  (restoresProfile_iff plainRestore (lookFails false) (fun _ => rfl) emptySnapshot liveLogin).mpr
    fun hlost => by cases hlost.unseen

/-- The login is not seen, and removed. -/
theorem not_restoresProfile_unseen :
    readAuthInfo plainRestore.serde (liveLogin .auth) = true
      ∧ (restoreFullState plainRestore (lookFails true) emptySnapshot liveLogin).2 .auth = none
      ∧ ¬ RestoresProfile plainRestore (lookFails true) emptySnapshot liveLogin := by
  have hlive : readAuthInfo plainRestore.serde (liveLogin .auth) = true := by decide +kernel
  have hok : (restoreFullState plainRestore (lookFails true) emptySnapshot liveLogin).1 = .ok () := by rfl
  have hgone : (restoreFullState plainRestore (lookFails true) emptySnapshot liveLogin).2 .auth = none := by rfl
  refine ⟨hlive, hgone, fun hrestores => ?_⟩
  have hkept := hrestores.live hok hlive
  rw [hgone] at hkept
  cases hkept

end

end CodexRouter
