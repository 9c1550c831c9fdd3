/-
# Runs of the cutover

The snapshot of an attempt, and with it a whole run: `cutover_crash_safe` says what holds in every
state of any sequence of runs, with commands that fail and crashes at any moment, as long as no
backup lies in another one's place.
-/
import CodexRouter.CutoverSafety

namespace CodexRouter

/-! ## Copying into the snapshot directory -/

section

variable {V : Type} {snapshot tree : Tree V} {names names' path : List String}

theorem copyTo_self : copyTo snapshot names tree (names ++ path) = (tree path).or (snapshot (names ++ path)) := by
  rw [copyTo, if_pos (List.prefix_append names path), List.drop_left]

/-- A place apart from the copy is left as it is. -/
theorem copyTo_apart (h : ¬ names <+: names') (h' : ¬ names' <+: names) :
    copyTo snapshot names tree (names' ++ path) = snapshot (names' ++ path) := by
  have hbelow : ¬ names <+: names' ++ path := by
    intro hpre
    rcases List.prefix_or_prefix_of_prefix hpre (List.prefix_append names' path) with hpre | hpre
    · exact h hpre
    · exact h' hpre
  have habove : ¬ names' ++ path <+: names := fun hpre => h' ((List.prefix_append names' path).trans hpre)
  rw [copyTo, if_neg hbelow, if_neg habove]

/-- What is found after a copy was there, or lies on the way to it or in it. -/
theorem copyTo_ne_none (h : copyTo snapshot names tree path ≠ none) :
    snapshot path ≠ none ∨ path <+: names ∨ names <+: path := by
  rw [copyTo] at h
  split at h
  · rename_i hpre
    exact .inr (.inr hpre)
  · split at h
    · rename_i hpre
      exact .inr (.inl hpre)
    · exact .inl h

/-- A safe backup name names a place below the snapshot directory. -/
theorem names_ne_nil {spec : SnapshotSpec} (h : safeBackupName spec.backupName = true) : spec.names ≠ [] := by
  rw [safeBackupName, Bool.and_eq_true, decide_eq_true_eq, List.all_eq_true] at h
  obtain ⟨hne, hall⟩ := h
  rw [SnapshotSpec.names]
  cases hname : spec.backupName with
  | nil => exact absurd hname hne
  | cons first rest =>
    rw [hname] at hall
    cases first with
    | normal name => simp
    | special =>
      have hspecial := hall .special List.mem_cons_self
      simp at hspecial

end

/-! ## The snapshot of an attempt -/

section

variable {V : Type} {manifest : CutoverManifest} {w w' : CutoverWorld V} {past : List CutoverEvent}
  {spec : SnapshotSpec} {specs : List SnapshotSpec} {journal : CutoverJournal}

/-- A run before its snapshot is complete: no stage in the journal needs it. -/
structure Unarmed (manifest : CutoverManifest) (past : List CutoverEvent) (w : CutoverWorld V) : Prop where
  log : w.log = past
  invariant : CutoverInvariant manifest w
  quiet : ∀ journal, w.journal = some journal → requiresRecovery journal.stage = false

/-- The specs have been copied, and nothing else is in the snapshot directory. -/
structure Copied (specs : List SnapshotSpec) (w : CutoverWorld V) : Prop where
  holds : SnapshotHolds specs w
  only : ∀ path, w.snapshot path ≠ none → path = [] ∨ ∃ spec ∈ specs, path <+: spec.names ∨ spec.names <+: path

theorem stable_unarmed (past : List CutoverEvent) : Stable (cutoverActions V) (Unarmed manifest past) := by
  intro w change w' hw h
  have hinvariant : CutoverInvariant manifest w' := stable_invariant hw.invariant h
  have heq := writesOld_eq h
  refine ⟨?_, hinvariant, ?_⟩
  · rw [heq]
    exact hw.log
  · rw [heq]
    exact hw.quiet

theorem stable_copied (specs : List SnapshotSpec) : Stable (cutoverActions V) (Copied specs) := by
  intro w change w' hw h
  rw [writesOld_eq h]
  exact ⟨hw.holds, hw.only⟩

/-- The actions of a snapshot go on the log, and nothing else depends on them yet. -/
theorem Unarmed.did (hw : Unarmed manifest past w) {a : CutoverAction} {ok : Bool}
    (ha : keepsSnapshot a = false) (hlog : w'.log = w.log ++ [.did a ok]) (hjournal : w'.journal = w.journal) :
    Unarmed manifest (past ++ [.did a ok]) w' := by
  have hsaved : savedJournal (.did a ok) = none := by
    cases a with
    | save journal => cases ha
    | _ => rfl
  refine ⟨by rw [hlog, hw.log], ⟨?_, ?_, ?_, ?_⟩, by rw [hjournal]; exact hw.quiet⟩
  · rw [hlog, justified_concat]
    refine ⟨hw.invariant.allowed, ?_⟩
    cases a with
    | save journal => cases ha
    | run command => cases ha
    | _ => trivial
  · rw [hlog, hjournal, lastSaved_concat_of_none hsaved, hw.invariant.journal]
  · intro journal hsome hrequires
    rw [hjournal] at hsome
    rw [hw.quiet journal hsome] at hrequires
    cases hrequires
  · intro before journal hlast
    rw [hlog] at hlast
    have hevent := (List.append_inj' hlast rfl).2
    rw [List.cons.injEq] at hevent
    obtain ⟨hsame, -⟩ := hevent
    rw [hsame] at hsaved
    cases hsaved

theorem Unarmed.breaks (hw : Unarmed manifest past w) {a : CutoverAction} (ha : keepsSnapshot a = false)
    (left : Tree V) : Unarmed manifest (past ++ [.did a false]) (breaksCutover w a left) := by
  cases a with
  | clearSnapshot => exact hw.did rfl rfl rfl
  | copySource spec => exact hw.did rfl rfl rfl
  | _ => cases ha

theorem copied_of_clear (h : succeedsCutover w .clearSnapshot = some w') :
    Copied [] w' ∧ w'.log = w.log ++ [.did .clearSnapshot true] ∧ w'.journal = w.journal := by
  rw [← Option.some.inj h]
  refine ⟨⟨fun spec hspec => absurd hspec List.not_mem_nil, ?_⟩, rfl, rfl⟩
  intro path hpath
  left
  by_contra hne
  exact hpath (if_neg hne)

/-- A copy joins those before it when no backup lies in its place. -/
theorem Copied.copy (hw : Copied specs w)
    (hapart : ∀ other ∈ specs, ¬ other.names <+: spec.names ∧ ¬ spec.names <+: other.names)
    (h : succeedsCutover w (.copySource spec) = some w') :
    Copied (specs ++ [spec]) w' ∧ w'.log = w.log ++ [.did (.copySource spec) true] ∧ w'.journal = w.journal := by
  rw [succeedsCutover] at h
  split at h
  · rename_i hok
    rw [Bool.and_eq_true] at hok
    obtain ⟨hsafe, hsource⟩ := hok
    rw [← Option.some.inj h]
    refine ⟨⟨?_, ?_⟩, rfl, rfl⟩
    · intro other hother
      show (Function.update w.taken spec (w.sources spec.source) other []).isSome = true
        ∧ ∀ path, copyTo w.snapshot spec.names (w.sources spec.source) (other.names ++ path)
          = Function.update w.taken spec (w.sources spec.source) other path
      rcases List.mem_append.mp hother with hother | hother
      · have hne : other ≠ spec := by
          intro heq
          have hnot := (hapart other hother).1
          rw [heq] at hnot
          exact hnot (List.prefix_refl _)
        obtain ⟨hroot, hpaths⟩ := hw.holds other hother
        rw [Function.update_of_ne hne]
        refine ⟨hroot, fun path => ?_⟩
        rw [copyTo_apart (hapart other hother).2 (hapart other hother).1, hpaths path]
      · rw [List.mem_singleton.mp hother, Function.update_self]
        refine ⟨hsource, fun path => ?_⟩
        -- nothing was there before
        have hempty : w.snapshot (spec.names ++ path) = none := by
          by_contra hfound
          rcases hw.only _ hfound with hnil | ⟨other, hother, hpre | hpre⟩
          · exact names_ne_nil hsafe (List.append_eq_nil_iff.mp hnil).1
          · exact (hapart other hother).2 ((List.prefix_append _ _).trans hpre)
          · rcases List.prefix_or_prefix_of_prefix hpre (List.prefix_append spec.names path) with hpre | hpre
            · exact (hapart other hother).1 hpre
            · exact (hapart other hother).2 hpre
        rw [copyTo_self, hempty, Option.or_none]
    · intro path hpath
      rcases copyTo_ne_none hpath with hbefore | hon
      · rcases hw.only path hbefore with hnil | ⟨other, hother, hon⟩
        · exact .inl hnil
        · exact .inr ⟨other, List.mem_append_left _ hother, hon⟩
      · exact .inr ⟨spec, by simp, hon⟩
  · cases h

/-- The splits of the actions of a snapshot. -/
theorem split_snapshotActions {done rest : List CutoverAction} {a : CutoverAction}
    (h : snapshotActions manifest = done ++ a :: rest) :
    done = [] ∧ a = .clearSnapshot ∨ ∃ copies spec others, manifest.snapshots = copies ++ spec :: others
      ∧ done = .clearSnapshot :: copies.map .copySource ∧ a = .copySource spec := by
  rw [snapshotActions] at h
  cases done with
  | nil =>
    rw [List.nil_append, List.cons.injEq] at h
    exact .inl ⟨rfl, h.1.symm⟩
  | cons first done =>
    rw [List.cons_append, List.cons.injEq] at h
    obtain ⟨rfl, h⟩ := h
    obtain ⟨copies, tail, hsplit, rfl, htail⟩ := List.map_eq_append_iff.mp h
    obtain ⟨spec, others, rfl, rfl, -⟩ := List.map_eq_cons_iff.mp htail
    exact .inr ⟨copies, spec, others, hsplit, rfl, rfl⟩

/-- An attempt, from the snapshot on. -/
theorem safe_attemptCutover (hapart : NamesApart manifest) (hw : Unarmed manifest past w)
    (hstanding : Standing manifest past) :
    Safe (cutoverActions V) (CutoverInvariant manifest) EndsWell (attemptCutover manifest journal) w := by
  refine safe_runAll (C := fun done w => Unarmed manifest (past ++ succeeded done) w
    ∧ ∀ copies, done = .clearSnapshot :: copies.map .copySource → Copied copies w) ?_ ?_ ?_ ?_ ?_ ?_
  · rintro done w change w' ⟨hunarmed, hcopied⟩ h
    exact ⟨stable_unarmed _ hunarmed h, fun copies hdone => stable_copied _ (hcopied copies hdone) h⟩
  · refine ⟨?_, fun copies hdone => by cases hdone⟩
    rw [succeeded, List.map_nil, List.append_nil]
    exact hw
  · rintro done a rest hsplit w left w' ⟨hunarmed, -⟩ h
    rw [← Option.some.inj h]
    rcases split_snapshotActions hsplit with ⟨-, rfl⟩ | ⟨copies, spec, others, -, -, rfl⟩
    · exact (hunarmed.breaks rfl left).invariant
    · exact (hunarmed.breaks rfl left).invariant
  · rintro done a rest hsplit w w' ⟨hunarmed, hcopied⟩ h
    rcases split_snapshotActions hsplit with ⟨rfl, rfl⟩ | ⟨copies, spec, others, hspecs, rfl, rfl⟩
    · obtain ⟨hclear, hlog, hjournal⟩ := copied_of_clear h
      have hdid := hunarmed.did rfl hlog hjournal
      refine ⟨hdid.invariant, ?_, ?_⟩
      · rw [succeeded_append, ← List.append_assoc]
        exact hdid
      · intro copies hdone
        have hnil : copies = [] := by simpa using hdone
        rw [hnil]
        exact hclear
    · have hpairs : ∀ other ∈ copies, ¬ other.names <+: spec.names ∧ ¬ spec.names <+: other.names := by
        intro other hother
        rw [NamesApart, hspecs, List.pairwise_append] at hapart
        exact hapart.2.2 other hother spec List.mem_cons_self
      obtain ⟨hcopy, hlog, hjournal⟩ := (hcopied copies rfl).copy hpairs h
      have hdid := hunarmed.did rfl hlog hjournal
      refine ⟨hdid.invariant, ?_, ?_⟩
      · rw [succeeded_append, ← List.append_assoc]
        exact hdid
      · intro copies' hdone
        have hsame : copies' = copies ++ [spec] := by
          have hmap : (copies ++ [spec]).map CutoverAction.copySource = copies'.map .copySource := by
            simpa using hdone
          refine ((List.map_injective_iff.mpr ?_) hmap).symm
          intro a b hab
          injection hab
        rw [hsame]
        exact hcopy
  · rintro done a rest hsplit w left w' ⟨hunarmed, -⟩ h
    have hfails : keepsSnapshot a = false ∧ answered a = false ∧ breaksCutover w a left = w' := by
      rcases split_snapshotActions hsplit with ⟨-, rfl⟩ | ⟨copies, spec, others, -, -, rfl⟩
      · exact ⟨rfl, rfl, Option.some.inj h⟩
      · exact ⟨rfl, rfl, Option.some.inj h⟩
    obtain ⟨hkeeps, hanswered, rfl⟩ := hfails
    have hbroken := hunarmed.breaks hkeeps left
    refine ⟨hbroken.invariant, safe_done (stable_unarmed _) hbroken ?_⟩
    intro w hunarmed
    exact endsWell_of_broken hstanding.inRun hanswered hunarmed.log
  · rintro w ⟨hunarmed, hcopied⟩
    have hholds := (hcopied manifest.snapshots rfl).holds
    have hduring : During manifest (past ++ succeeded (snapshotActions manifest)) w :=
      ⟨hunarmed.log, hunarmed.invariant, hholds⟩
    have hcommits : ∀ saved : CutoverJournal, .save saved ∈ snapshotActions manifest → saved.stage ≠ .committed := by
      intro saved hmem
      rw [snapshotActions] at hmem
      simp at hmem
    have hstanding₁ := hstanding.append hcommits
    refine safe_setStages hduring hstanding₁.uncommitted (by simp) ?_
    intro w hduring
    have hstanding₂ := hstanding₁.append (commits_stageActions journal.nextAttempt [.snapshotComplete] (by simp))
    refine safe_startShadow past hduring hstanding₂ ?_
    rw [succeeded_append, List.append_assoc]

end

/-! ## Every run -/

section

variable {V : Type} {manifest : CutoverManifest} {w : CutoverWorld V}

/-- A run keeps the invariant at every moment and ends well. -/
theorem safe_cutover (hapart : NamesApart manifest) (hw : CutoverInvariant manifest w) :
    CutoverInvariant manifest (startCutover manifest w).1
      ∧ Safe (cutoverActions V) (CutoverInvariant manifest) EndsWell (startCutover manifest w).2
        (startCutover manifest w).1 := by
  have hbegan : CutoverInvariant manifest (startCutover manifest w).1 := by
    refine ⟨justified_concat.mpr ⟨hw.allowed, trivial⟩, ?_, hw.snapshot, ?_⟩
    · show w.journal = lastSaved (w.log ++ [.began (w.journal.map (·.stage))])
      rw [lastSaved_concat_of_none rfl, hw.journal]
    · intro before journal hlast
      have hevent := (List.append_inj' hlast rfl).2
      cases hevent
  refine ⟨hbegan, ?_⟩
  have hrun : ∃ old stage run, w.log ++ [CutoverEvent.began (w.journal.map (·.stage))] = old ++ .began stage :: run
      ∧ SameRun run := ⟨_, _, [], rfl, fun _ hmem => absurd hmem List.not_mem_nil⟩
  show Safe (cutoverActions V) (CutoverInvariant manifest) EndsWell (cutover manifest w.journal) _
  rw [cutover]
  by_cases hcommitted : (w.journal.getD ⟨.snapshotComplete, 0, none⟩).stage = .committed
  · -- nothing is done behind a commit
    obtain ⟨journal, hjournal⟩ : ∃ journal, w.journal = some journal := by
      cases hnone : w.journal with
      | none =>
        rw [hnone] at hcommitted
        cases hcommitted
      | some journal => exact ⟨journal, rfl⟩
    rw [if_pos hcommitted]
    refine safe_done (C := fun w' => w'.log = w.log ++ [.began (w.journal.map (·.stage))] ∧ w'.journal = some journal)
      ?_ ⟨rfl, hjournal⟩ ?_
    · rintro w₁ change w₂ ⟨hlog, hsome⟩ h
      rw [writesOld_eq h]
      exact ⟨hlog, hsome⟩
    · rintro w' ⟨hlog, hsome⟩
      rw [hjournal] at hcommitted
      refine ⟨w.log, _, [], hlog, fun _ hmem => absurd hmem List.not_mem_nil, fun _ => ⟨journal, hsome, ?_⟩⟩
      have hstage : journal.stage = .committed := hcommitted
      simp [hstage]
  · rw [if_neg hcommitted]
    have hfree : Uncommitted (w.log ++ [.began (w.journal.map (·.stage))]) := by
      refine uncommitted_began ?_ fun _ hmem => absurd hmem List.not_mem_nil
      refine uncommitted_of_lastSaved hw.allowed ?_
      intro journal hsaved hstage
      rw [← hw.journal] at hsaved
      rw [hsaved] at hcommitted
      exact hcommitted hstage
    cases hrecover : w.journal.any (requiresRecovery ·.stage) with
    | true =>
      obtain ⟨journal, hjournal, hrequires⟩ := Option.any_eq_true _ _ |>.mp hrecover
      have hduring : During manifest (w.log ++ [.began (w.journal.map (·.stage))]) (startCutover manifest w).1 :=
        ⟨rfl, hbegan, hw.snapshot journal hjournal hrequires⟩
      rw [if_pos rfl]
      refine safe_rollback hduring hfree ?_ ?_
      · intro w' hduring'
        have hstanding : Standing manifest ((w.log ++ [.began (w.journal.map (·.stage))])
            ++ succeeded (rollbackActions manifest (w.journal.getD ⟨.snapshotComplete, 0, none⟩) "CR-MIG-0007")) := by
          refine ⟨inRun_append hrun (sameRun_succeeded _),
            uncommitted_append hfree (uncommitted_succeeded commits_rollbackActions), ?_⟩
          exact ⟨w.log, _, _, by rw [List.append_assoc]; rfl, sameRun_succeeded _, fun _ => ⟨_, _, [], (List.append_nil _).symm⟩⟩
        refine safe_attemptCutover hapart ⟨hduring'.log, hduring'.invariant, ?_⟩ hstanding
        intro saved hsaved
        obtain ⟨front, hfront⟩ := rollbackActions_concat manifest
          (w.journal.getD ⟨.snapshotComplete, 0, none⟩) "CR-MIG-0007"
        have hlast := hduring'.invariant.journal
        rw [hduring'.log, hfront, succeeded_append, ← List.append_assoc] at hlast
        rw [hsaved] at hlast
        have hhealthy := hlast.trans (lastSaved_concat_save _ _)
        rw [Option.some.inj hhealthy]
        rfl
      · intro done a ha w' hduring'
        refine safe_done (stable_during _) hduring' ?_
        intro w'' hduring''
        exact endsWell_of_broken hrun ha hduring''.log
    | false =>
      rw [if_neg Bool.false_ne_true]
      have hnone : ∀ journal, w.journal = some journal → requiresRecovery journal.stage = false := by
        intro journal hjournal
        rw [hjournal] at hrecover
        exact hrecover
      have hrecovered : Recovered manifest (w.log ++ [.began (w.journal.map (·.stage))]) := by
        refine ⟨w.log, _, [], rfl, fun _ hmem => absurd hmem List.not_mem_nil, ?_⟩
        intro hstage
        rw [Option.any_map] at hstage
        have hfalse : w.journal.any (requiresRecovery ·.stage) = true := hstage
        rw [hrecover] at hfalse
        cases hfalse
      exact safe_attemptCutover hapart ⟨rfl, hbegan, hnone⟩ ⟨hrun, hfree, hrecovered⟩

/-- The world before the first run. -/
def CutoverWorld.Fresh (w : CutoverWorld V) : Prop := w.journal = none ∧ w.log = []

theorem CutoverWorld.Fresh.invariant (h : w.Fresh) : CutoverInvariant manifest w := by
  obtain ⟨hjournal, hlog⟩ := h
  refine ⟨?_, ?_, ?_, ?_⟩
  · rw [hlog]
    exact justified_nil
  · rw [hjournal, hlog]
    rfl
  · intro journal hsome
    rw [hjournal] at hsome
    cases hsome
  · intro before journal hlast
    rw [hlog] at hlast
    simp at hlast

theorem recovers_cutover (hapart : NamesApart manifest) :
    Recovers (cutoverActions V) (startCutover manifest) (CutoverInvariant manifest) EndsWell :=
  ⟨fun hw h => stable_invariant hw h, fun hw => safe_cutover hapart hw⟩

end

/-- What holds in a state of a run. -/
structure CrashSafe {V : Type} (manifest : CutoverManifest) (w : CutoverWorld V) (p : Option CutoverProg) : Prop where
  /-- The journal says committed only when the new stack has taken over and has passed its test;
  behind that no journal is written and no command is run. -/
  committed : ∀ journal, w.journal = some journal → journal.stage = .committed →
    ∃ before after, w.log = before ++ .did (.save journal) true :: after ∧ Served before
      ∧ ∀ e ∈ after, savedJournal e = none ∧ ∀ command ok, e ≠ .did (.run command) ok
  /-- The new stack is started only behind a complete snapshot and the tests of the shadow stack. -/
  started : ∀ before ok after, w.log = before ++ .did (.run .newStart) ok :: after → Readied manifest before
  /-- A run that finds an interrupted stage rolls back first. -/
  recovered : ∀ before command ok after, w.log = before ++ .did (.run command) ok :: after →
    command ∈ [CutoverCommand.shadowStart, .oldStop, .newStart] → Recovered manifest before
  /-- A stage that needs the snapshot has it. -/
  snapshot : ∀ journal, w.journal = some journal → requiresRecovery journal.stage = true →
    SnapshotHolds manifest.snapshots w
  /-- A run that ends without a failure of its rollback or its snapshot is committed or rolled back. -/
  ended : ∀ r, p = some (.done r) → EndsWell r w

section

variable {V : Type} {manifest : CutoverManifest} {w₀ w : CutoverWorld V} {p : Option CutoverProg}
  {moments : List (Moment (Tree V) (OldWrite V))}

theorem committed_of_invariant (hw : CutoverInvariant manifest w) {journal : CutoverJournal}
    (hjournal : w.journal = some journal) (hstage : journal.stage = .committed) :
    ∃ before after, w.log = before ++ .did (.save journal) true :: after ∧ Served before
      ∧ ∀ e ∈ after, savedJournal e = none ∧ ∀ command ok, e ≠ .did (.run command) ok := by
  rw [hw.journal] at hjournal
  obtain ⟨before, after, hsplit, hafter⟩ := split_of_lastSaved hjournal
  refine ⟨before, after, hsplit, (hw.allowed before _ after hsplit).2 hstage, ?_⟩
  intro e he
  refine ⟨hafter e he, ?_⟩
  rintro command ok rfl
  obtain ⟨mid, rest, rfl⟩ := List.append_of_mem he
  have hcommand := hw.allowed (before ++ .did (.save journal) true :: mid) (.did (.run command) ok) rest
    (by rw [hsplit]; simp)
  exact hcommand.1 journal (by simp) hstage

/-- **The cutover is crash safe** when no backup lies in another one's place: over all sequences of
runs, commands that fail, and crashes. -/
theorem cutover_crash_safe (hapart : NamesApart manifest) (hfresh : w₀.Fresh)
    (h : exec ((cutoverActions V).step (startCutover manifest)) anyStep (w₀, none) moments = some (w, p)) :
    CrashSafe manifest w p := by
  obtain ⟨hw, hprogram⟩ := safe_of_exec (recovers_cutover hapart) h hfresh.invariant
  refine ⟨fun journal => committed_of_invariant hw, ?_, ?_, hw.snapshot, ?_⟩
  · intro before ok after hsplit
    exact (hw.allowed before _ after hsplit).2.1 rfl
  · intro before command ok after hsplit hcommand
    exact (hw.allowed before _ after hsplit).2.2 hcommand
  · intro r hr
    exact hprogram _ hr w .refl

/-! ## Writes of the old stack -/

/-- A write stays in a file that is written to. -/
theorem mem_held_replay {tree : Tree V} {path : List String} {v : V} (hv : v ∈ held tree path)
    (writes : List (List String × V)) : v ∈ held (replay tree writes) path := by
  induction writes generalizing tree with
  | nil => exact hv
  | cons write rest ih =>
    refine ih ?_
    show v ∈ held (writeTo tree write.1 write.2) path
    by_cases hpath : path = write.1
    · have hwritten : writeTo tree write.1 write.2 path = some (.file (held tree write.1 ++ [write.2])) := if_pos hpath
      rw [held, hwritten, ← hpath]
      exact List.mem_append_left _ hv
    · have hkept : writeTo tree write.1 write.2 path = tree path := if_neg hpath
      rw [held, hkept]
      exact hv

end

/-! ## Runs -/

namespace CutoverRun

/-- One source. -/
def oneSource : CutoverManifest := ⟨[⟨"legacy-state.txt", [.normal "legacy-state.txt"]⟩]⟩

/-- Two sources with one backup name. -/
def sharedName : CutoverManifest := ⟨[⟨"accounts.db", [.normal "state"]⟩, ⟨"settings.db", [.normal "state"]⟩]⟩

/-- Every source is a file that holds a write of its name. -/
def world : CutoverWorld String where
  journal := none
  sources source path := if path = [] then some (.file [source]) else none
  snapshot _ := none
  oldRunning := true
  taken _ _ := none
  since _ := []
  log := []

/-- A cutover without a failure. -/
def straight : List (Moment (Tree String) (OldWrite String)) := .begins :: List.replicate 14 .succeeds

/-- The snapshot is complete. -/
def copied : List (Moment (Tree String) (OldWrite String)) := .begins :: List.replicate 4 .succeeds

/-- The shadow stack does not start, and the old stack has written in the meantime. -/
def failedShadow : List (Moment (Tree String) (OldWrite String)) :=
  [.begins, .succeeds, .succeeds, .succeeds, .others ⟨"legacy-state.txt", [], "new account"⟩, .fails (fun _ => none),
    .succeeds, .succeeds, .succeeds, .succeeds, .succeeds, .succeeds]

/-- The run of a manifest from the world. -/
abbrev run (manifest : CutoverManifest) (moments : List (Moment (Tree String) (OldWrite String))) :
    Option (CutoverWorld String × Option CutoverProg) :=
  exec ((cutoverActions String).step (startCutover manifest)) anyStep (world, none) moments

theorem crashSafe_straight : ∃ w p, run oneSource straight = some (w, p)
    ∧ w.journal = some ⟨.committed, 1, none⟩ ∧ CrashSafe oneSource w p := by
  have hjournal : (run oneSource straight).map (·.1.journal) = some (some ⟨.committed, 1, none⟩) := by decide
  obtain ⟨⟨w, p⟩, hrun, hw⟩ := Option.map_eq_some_iff.mp hjournal
  exact ⟨w, p, hrun, hw, cutover_crash_safe (List.pairwise_singleton _ _) ⟨rfl, rfl⟩ hrun⟩

/-- The second copy takes the place of the first. -/
theorem not_snapshotHolds_of_sharedName : ∃ w p, run sharedName copied = some (w, p)
    ∧ w.journal = some ⟨.snapshotComplete, 1, none⟩ ∧ ¬ SnapshotHolds sharedName.snapshots w := by
  have hstate : (run sharedName copied).map (fun s => (s.1.journal, s.1.snapshot ["state"],
      s.1.taken ⟨"accounts.db", [.normal "state"]⟩ []))
      = some (some ⟨.snapshotComplete, 1, none⟩, some (.file ["settings.db"]), some (.file ["accounts.db"])) := by
    decide
  obtain ⟨⟨w, p⟩, hrun, hw⟩ := Option.map_eq_some_iff.mp hstate
  simp only [Prod.mk.injEq] at hw
  obtain ⟨hjournal, hsnapshot, htaken⟩ := hw
  refine ⟨w, p, hrun, hjournal, ?_⟩
  intro hholds
  have hfirst := (hholds ⟨"accounts.db", [.normal "state"]⟩ (by decide)).2 []
  rw [htaken] at hfirst
  have hshown : w.snapshot ["state"] = some (.file ["accounts.db"]) := hfirst
  rw [hsnapshot] at hshown
  exact absurd hshown (by decide)

end CutoverRun

end CodexRouter
