/-
# Crash safety of the cutover

What holds of the journal, the snapshot and the commands that were run, over all runs with all
their crashes.  `Allowed` says of each thing that is done what has been done before it;
`CutoverInvariant` adds what the journal and the snapshot directory hold, and is kept at every
moment of a run (`safe_cutover`).
-/
import CodexRouter.Cutover

namespace CodexRouter

/-! ## What is done before what -/

/-- Actions that succeeded, one after the other. -/
def succeeded (actions : List CutoverAction) : List CutoverEvent := actions.map (.did · true)

@[simp] theorem succeeded_append (l l' : List CutoverAction) : succeeded (l ++ l') = succeeded l ++ succeeded l' :=
  List.map_append

/-- The journal that an event writes. -/
def savedJournal : CutoverEvent → Option CutoverJournal
  | .did (.save journal) true => some journal
  | _ => none

/-- The journal after the events. -/
def lastSaved (log : List CutoverEvent) : Option CutoverJournal := (log.filterMap savedJournal).getLast?

/-- No event begins a run. -/
def SameRun (events : List CutoverEvent) : Prop := ∀ stage, .began stage ∉ events

section

variable (manifest : CutoverManifest)

/-- What an attempt does before it starts the new stack. -/
def untilOldStop (journal : CutoverJournal) : List CutoverAction :=
  snapshotActions manifest ++ stageActions journal [.snapshotComplete] ++ [.run .shadowStart, .run .shadowHealth]
    ++ stageActions journal [.shadowReady] ++ [.run .preCutoverSmoke]
    ++ stageActions journal [.preCutoverSmokePassed, .cutoverBegin] ++ [.run .oldStop]

/-- Nothing has been committed. -/
def Uncommitted (before : List CutoverEvent) : Prop :=
  ∀ journal : CutoverJournal, .did (.save journal) true ∈ before → journal.stage ≠ .committed

/-- The attempt has a complete snapshot, and the shadow stack is healthy and has passed its test. -/
def Readied (before : List CutoverEvent) : Prop :=
  ∃ front journal, before = front ++ succeeded (untilOldStop manifest journal)

/-- When the run found an interrupted stage, it has rolled back first. -/
def Recovered (before : List CutoverEvent) : Prop :=
  ∃ front stage since, before = front ++ .began stage :: since ∧ SameRun since
    ∧ (stage.any requiresRecovery = true →
      ∃ journal code rest, since = succeeded (rollbackActions manifest journal code) ++ rest)

/-- The new stack has taken over and has passed its test. -/
def Served (before : List CutoverEvent) : Prop :=
  ∃ front journal, before = front
    ++ succeeded ([.run .oldStop, .run .newStart, .run .postCutoverSmoke] ++ stageActions journal [.postCutoverSmokePassed])

/-- What must have been done before an event. -/
def Allowed (before : List CutoverEvent) : CutoverEvent → Prop
  | .began _ => True
  | .did (.run command) _ => Uncommitted before ∧ (command = .newStart → Readied manifest before)
      ∧ (command ∈ [CutoverCommand.shadowStart, .oldStop, .newStart] → Recovered manifest before)
  | .did (.save journal) true => Uncommitted before ∧ (journal.stage = .committed → Served before)
  | .did _ _ => True

end

/-! ## The invariant -/

section

variable {V : Type}

/-- Write to a tree in turn. -/
def replay (tree : Tree V) (writes : List (List String × V)) : Tree V :=
  writes.foldl (fun tree write => writeTo tree write.1 write.2) tree

variable (manifest : CutoverManifest)

/-- The snapshot directory holds what each source was when it was copied. -/
def SnapshotHolds (specs : List SnapshotSpec) (w : CutoverWorld V) : Prop :=
  ∀ spec ∈ specs, (w.taken spec []).isSome = true ∧ ∀ path, w.snapshot (spec.names ++ path) = w.taken spec path

/-- A source is what a copy of it was, with the writes since it was put back. -/
def PutBack (w : CutoverWorld V) (source : String) : Prop :=
  ∃ spec ∈ manifest.snapshots, spec.source = source ∧ w.sources source = replay (w.taken spec) (w.since source)

/-- What holds at every moment. -/
structure CutoverInvariant (w : CutoverWorld V) : Prop where
  allowed : Justified (Allowed manifest) w.log
  journal : w.journal = lastSaved w.log
  snapshot : ∀ journal, w.journal = some journal → requiresRecovery journal.stage = true →
    SnapshotHolds manifest.snapshots w
  rolledBack : ∀ before journal, w.log = before ++ [.did (.save journal) true] → journal.stage = .rollbackHealthy →
    ∀ spec ∈ manifest.snapshots, PutBack manifest w spec.source

/-- No backup lies in another one's place. -/
def NamesApart : Prop :=
  manifest.snapshots.Pairwise fun spec other => ¬ spec.names <+: other.names ∧ ¬ other.names <+: spec.names

end

/-! ## The journal in the log -/

section

variable {log : List CutoverEvent} {event : CutoverEvent} {journal : CutoverJournal}

theorem lastSaved_concat_save (log : List CutoverEvent) (journal : CutoverJournal) :
    lastSaved (log ++ [.did (.save journal) true]) = some journal := by
  rw [lastSaved, List.filterMap_append]
  show (_ ++ [journal]).getLast? = _
  rw [List.getLast?_append, List.getLast?_singleton]
  rfl

theorem lastSaved_concat_of_none (h : savedJournal event = none) : lastSaved (log ++ [event]) = lastSaved log := by
  rw [lastSaved, List.filterMap_append, List.filterMap_cons, h, List.filterMap_nil, List.append_nil, lastSaved]

/-- A log with a journal splits at its last one. -/
theorem split_of_lastSaved (h : lastSaved log = some journal) : ∃ before after,
    log = before ++ .did (.save journal) true :: after ∧ ∀ e ∈ after, savedJournal e = none := by
  induction log using List.reverseRecOn with
  | nil => cases h
  | append_singleton log event ih =>
    cases hsaved : savedJournal event with
    | none =>
      rw [lastSaved_concat_of_none hsaved] at h
      obtain ⟨before, after, rfl, hafter⟩ := ih h
      refine ⟨before, after ++ [event], by simp, ?_⟩
      intro e he
      rcases List.mem_append.mp he with he | he
      · exact hafter e he
      · rw [List.mem_singleton.mp he]
        exact hsaved
    | some journal' =>
      have hevent : event = .did (.save journal') true := by
        cases event with
        | began stage => cases hsaved
        | did action ok =>
          cases action with
          | save written =>
            cases ok with
            | true => rw [Option.some.inj hsaved]
            | false => cases hsaved
          | _ => cases hsaved
      rw [hevent, lastSaved_concat_save, Option.some.injEq] at h
      exact ⟨log, [], by rw [hevent, h], fun e he => absurd he List.not_mem_nil⟩

/-- A committed journal is the last one. -/
theorem uncommitted_of_lastSaved {manifest : CutoverManifest} (hallowed : Justified (Allowed manifest) log)
    (h : ∀ journal, lastSaved log = some journal → journal.stage ≠ .committed) : Uncommitted log := by
  intro journal hmem hcommitted
  obtain ⟨before, after, rfl⟩ := List.append_of_mem hmem
  -- no journal is written behind a committed one
  have hafter : ∀ e ∈ after, savedJournal e = none := by
    intro e he
    by_contra hsaved
    obtain ⟨journal', hjournal'⟩ := Option.ne_none_iff_exists'.mp hsaved
    obtain ⟨mid, rest, rfl⟩ := List.append_of_mem he
    have hevent : e = .did (.save journal') true := by
      cases e with
      | began stage => cases hjournal'
      | did action ok =>
        cases action with
        | save written =>
          cases ok with
          | true => rw [Option.some.inj hjournal']
          | false => cases hjournal'
        | _ => cases hjournal'
    have hstep := hallowed (before ++ .did (.save journal) true :: mid) e rest (by simp)
    rw [hevent] at hstep
    exact hstep.1 journal (by simp) hcommitted
  have hlast : lastSaved (before ++ .did (.save journal) true :: after) = some journal := by
    have hnone : after.filterMap savedJournal = [] := List.filterMap_eq_nil_iff.mpr hafter
    rw [lastSaved, List.filterMap_append, List.filterMap_cons, hnone]
    show (_ ++ [journal]).getLast? = _
    rw [List.getLast?_append, List.getLast?_singleton]
    rfl
  exact h journal hlast hcommitted

end

/-! ## What the actions keep -/

section

variable {V : Type} {manifest : CutoverManifest} {w w' : CutoverWorld V} {change : OldWrite V}

/-- The old stack writes to the sources only. -/
theorem writesOld_eq (h : writesOld w change = some w') : w' = { w with
    sources := Function.update w.sources change.source
      (writeTo (w.sources change.source) change.path change.value)
    since := Function.update w.since change.source (w.since change.source ++ [(change.path, change.value)]) } := by
  rw [writesOld] at h
  split at h
  · exact (Option.some.inj h).symm
  · cases h

theorem PutBack.write {source : String} (hput : PutBack manifest w source) (h : writesOld w change = some w') :
    PutBack manifest w' source := by
  obtain ⟨spec, hspec, hsource, hreplay⟩ := hput
  rw [writesOld_eq h]
  refine ⟨spec, hspec, hsource, ?_⟩
  by_cases hchange : source = change.source
  · subst hchange
    simp only [Function.update_self]
    rw [hreplay, replay, replay, List.foldl_append]
    rfl
  · simp only [Function.update_of_ne hchange]
    exact hreplay

theorem stable_invariant : Stable (cutoverActions V) (CutoverInvariant manifest) := by
  intro w change w' hw h
  have heq := writesOld_eq h
  constructor
  · rw [heq]
    exact hw.allowed
  · rw [heq]
    exact hw.journal
  · rw [heq]
    exact hw.snapshot
  · intro before journal hlog hstage spec hspec
    rw [heq] at hlog
    exact (hw.rolledBack before journal hlog hstage spec hspec).write h

/-- The actions that leave the snapshot directory alone. -/
def keepsSnapshot : CutoverAction → Bool
  | .save _ => true
  | .run _ => true
  | .restoreSource _ => true
  | _ => false

/-- A run that has done these things, with the snapshot in place. -/
structure During (manifest : CutoverManifest) (past : List CutoverEvent) (w : CutoverWorld V) : Prop where
  log : w.log = past
  invariant : CutoverInvariant manifest w
  holds : SnapshotHolds manifest.snapshots w

theorem stable_during (past : List CutoverEvent) : Stable (cutoverActions V) (During manifest past) := by
  intro w change w' hw h
  have hinvariant : CutoverInvariant manifest w' := stable_invariant hw.invariant h
  have heq := writesOld_eq h
  refine ⟨?_, hinvariant, ?_⟩
  · rw [heq]
    exact hw.log
  · rw [heq]
    exact hw.holds

/-- What an action does that leaves the snapshot directory alone. -/
theorem kept_of_succeeds {a : CutoverAction} (hkeeps : keepsSnapshot a = true) (h : succeedsCutover w a = some w') :
    w'.log = w.log ++ [.did a true] ∧ w'.snapshot = w.snapshot ∧ w'.taken = w.taken
      ∧ w'.journal = (savedJournal (.did a true)).or w.journal
      ∧ ∀ source, (∀ spec, a = .restoreSource spec → spec.source ≠ source) →
        w'.sources source = w.sources source ∧ w'.since source = w.since source := by
  cases a with
  | clearSnapshot => cases hkeeps
  | copySource spec => cases hkeeps
  | save journal =>
    rw [← Option.some.inj h]
    exact ⟨rfl, rfl, rfl, rfl, fun _ _ => ⟨rfl, rfl⟩⟩
  | run command =>
    rw [← Option.some.inj h]
    exact ⟨rfl, rfl, rfl, rfl, fun _ _ => ⟨rfl, rfl⟩⟩
  | restoreSource spec =>
    rw [succeedsCutover] at h
    split at h
    · rw [← Option.some.inj h]
      refine ⟨rfl, rfl, rfl, rfl, ?_⟩
      intro source hne
      have hsource : source ≠ spec.source := fun heq => hne spec rfl heq.symm
      exact ⟨Function.update_of_ne hsource _ _, Function.update_of_ne hsource _ _⟩
    · cases h

/-- A source that is put back is what its copy was. -/
theorem putBack_of_restore {spec : SnapshotSpec} (hspec : spec ∈ manifest.snapshots)
    (hholds : SnapshotHolds manifest.snapshots w) (h : succeedsCutover w (.restoreSource spec) = some w') :
    PutBack manifest w' spec.source := by
  rw [succeedsCutover] at h
  split at h
  · rw [← Option.some.inj h]
    refine ⟨spec, hspec, rfl, ?_⟩
    show Function.update w.sources spec.source _ spec.source
      = replay (w.taken spec) (Function.update w.since spec.source [] spec.source)
    rw [Function.update_self, Function.update_self]
    funext path
    exact (hholds spec hspec).2 path
  · cases h

theorem PutBack.of_succeeds {a : CutoverAction} {source : String} (hput : PutBack manifest w source)
    (hkeeps : keepsSnapshot a = true) (hmem : ∀ spec, a = .restoreSource spec → spec ∈ manifest.snapshots)
    (hholds : SnapshotHolds manifest.snapshots w) (h : succeedsCutover w a = some w') :
    PutBack manifest w' source := by
  by_cases hsame : ∃ spec, a = .restoreSource spec ∧ spec.source = source
  · obtain ⟨spec, rfl, rfl⟩ := hsame
    exact putBack_of_restore (hmem spec rfl) hholds h
  · obtain ⟨-, -, htaken, -, hothers⟩ := kept_of_succeeds hkeeps h
    obtain ⟨hsources, hsince⟩ := hothers source fun spec ha heq => hsame ⟨spec, ha, heq⟩
    obtain ⟨spec, hspec, hsource, hreplay⟩ := hput
    exact ⟨spec, hspec, hsource, by rw [hsources, hsince, htaken, hreplay]⟩

/-- What an action leaves that fails or is interrupted, other than a write of the journal. -/
theorem kept_of_breaks (w : CutoverWorld V) {a : CutoverAction} (hkeeps : keepsSnapshot a = true) (hsave : ∀ journal, a ≠ .save journal)
    (left : Tree V) : (breaksCutover w a left).log = w.log ++ [.did a false]
      ∧ (breaksCutover w a left).snapshot = w.snapshot ∧ (breaksCutover w a left).taken = w.taken
      ∧ (breaksCutover w a left).journal = w.journal := by
  cases a with
  | save journal => exact absurd rfl (hsave journal)
  | run command => exact ⟨rfl, rfl, rfl, rfl⟩
  | clearSnapshot => cases hkeeps
  | copySource spec => cases hkeeps
  | restoreSource spec => exact ⟨rfl, rfl, rfl, rfl⟩

/-- What breaks is on the log, and the invariant is kept. -/
theorem During.breaks {past : List CutoverEvent} (hw : During manifest past w) {a : CutoverAction}
    (hkeeps : keepsSnapshot a = true) (hsave : ∀ journal, a ≠ .save journal)
    (hallowed : Allowed manifest past (.did a false)) (left : Tree V) :
    During manifest (past ++ [.did a false]) (breaksCutover w a left) := by
  obtain ⟨hlog, hsnapshot, htaken, hjournal⟩ := kept_of_breaks w hkeeps hsave left
  have hholds : SnapshotHolds manifest.snapshots (breaksCutover w a left) := by
    rw [SnapshotHolds, hsnapshot, htaken]
    exact hw.holds
  rw [hw.log] at hlog
  refine ⟨hlog, ⟨?_, ?_, fun _ _ _ => hholds, ?_⟩, hholds⟩
  · rw [hlog, justified_concat, ← hw.log]
    exact ⟨hw.invariant.allowed, hw.log ▸ hallowed⟩
  · rw [hjournal, hlog, lastSaved_concat_of_none (by cases a <;> rfl), hw.invariant.journal, hw.log]
  · intro before journal hlast
    rw [hlog] at hlast
    have hevent := (List.append_inj' hlast rfl).2
    cases hevent

/-- A success is on the log, and the invariant is kept; behind a rollback all sources must have been
put back. -/
theorem During.succeeds {past : List CutoverEvent} (hw : During manifest past w) {a : CutoverAction}
    (hkeeps : keepsSnapshot a = true) (hallowed : Allowed manifest past (.did a true))
    (hrolled : ∀ journal, a = .save journal → journal.stage = .rollbackHealthy →
      ∀ spec ∈ manifest.snapshots, PutBack manifest w spec.source)
    (h : succeedsCutover w a = some w') : During manifest (past ++ [.did a true]) w' := by
  obtain ⟨hlog, hsnapshot, htaken, hjournal, hothers⟩ := kept_of_succeeds hkeeps h
  have hholds : SnapshotHolds manifest.snapshots w' := by
    rw [SnapshotHolds, hsnapshot, htaken]
    exact hw.holds
  rw [hw.log] at hlog
  refine ⟨hlog, ⟨?_, ?_, fun _ _ _ => hholds, ?_⟩, hholds⟩
  · rw [hlog, justified_concat, ← hw.log]
    exact ⟨hw.invariant.allowed, hw.log ▸ hallowed⟩
  · rw [hjournal, hlog, hw.invariant.journal, hw.log]
    cases hsaved : savedJournal (.did a true) with
    | none => rw [lastSaved_concat_of_none hsaved, Option.none_or]
    | some journal =>
      cases a with
      | save written =>
        rw [lastSaved_concat_save, ← Option.some.inj hsaved]
        rfl
      | _ => cases hsaved
  · intro before journal hlast hstage spec hspec
    rw [hlog] at hlast
    have hevent := (List.append_inj' hlast rfl).2
    rw [List.cons.injEq] at hevent
    obtain ⟨hsame, -⟩ := hevent
    injection hsame with ha
    subst ha
    have hput := hrolled journal rfl hstage spec hspec
    exact hput.of_succeeds hkeeps (fun _ h => by cases h) hw.holds h

end

/-! ## Phases of a run -/

/-- A failure that a cutover answers by rolling back. -/
def answered : CutoverAction → Bool
  | .save _ => true
  | .run command => command ∉ [.newStop, .oldStart, .rollbackHealth]
  | _ => false

/-- A run whose rollback and snapshot have not failed ends committed or rolled back. -/
def EndsWell {V : Type} (_ : Except String CutoverJournal) (w : CutoverWorld V) : Prop :=
  ∃ old stage run, w.log = old ++ .began stage :: run ∧ SameRun run
    ∧ ((∀ a, .did a false ∈ run → answered a = true) →
      ∃ journal, w.journal = some journal ∧ journal.stage ∈ [CutoverStage.committed, .rollbackHealthy])

section

variable {V : Type} {manifest : CutoverManifest} {w : CutoverWorld V}
  {past : List CutoverEvent} {next : Option CutoverAction → CutoverProg} {all : List CutoverAction}

/-- **A phase**: actions that leave the snapshot directory alone, each one allowed by what has been
done before it. -/
theorem safe_phase (hw : During manifest past w) (hkeeps : ∀ a ∈ all, keepsSnapshot a = true)
    (hrestores : ∀ spec, .restoreSource spec ∈ all → spec ∈ manifest.snapshots)
    (hallowed : ∀ done a rest, all = done ++ a :: rest → ∀ ok, Allowed manifest (past ++ succeeded done) (.did a ok))
    (hrolled : ∀ done journal rest, all = done ++ .save journal :: rest → journal.stage = .rollbackHealthy →
      ∀ spec ∈ manifest.snapshots, .restoreSource spec ∈ done)
    (hnext : ∀ w, During manifest (past ++ succeeded all) w →
      Safe (cutoverActions V) (CutoverInvariant manifest) EndsWell (next none) w)
    (hfail : ∀ done a rest, all = done ++ a :: rest → (∀ journal, a ≠ .save journal) → ∀ w,
      During manifest (past ++ succeeded done ++ [.did a false]) w →
      Safe (cutoverActions V) (CutoverInvariant manifest) EndsWell (next (some a)) w) :
    Safe (cutoverActions V) (CutoverInvariant manifest) EndsWell (Prog.runAll next all) w := by
  refine safe_runAll (C := fun done w => During manifest (past ++ succeeded done) w
    ∧ ∀ spec, .restoreSource spec ∈ done → PutBack manifest w spec.source) ?_ ?_ ?_ ?_ ?_ ?_
  · rintro done w change w' ⟨hduring, hput⟩ h
    exact ⟨stable_during _ hduring h, fun spec hspec => (hput spec hspec).write h⟩
  · refine ⟨?_, fun spec hspec => absurd hspec List.not_mem_nil⟩
    rw [succeeded, List.map_nil, List.append_nil]
    exact hw
  · rintro done a rest hsplit w left w' ⟨hduring, -⟩ h
    rw [← Option.some.inj h]
    by_cases hsave : ∃ journal, a = .save journal
    · obtain ⟨journal, rfl⟩ := hsave
      exact hduring.invariant
    · push Not at hsave
      have hmem : a ∈ all := by rw [hsplit]; simp
      exact (hduring.breaks (hkeeps a hmem) hsave (hallowed done a rest hsplit false) left).invariant
  · rintro done a rest hsplit w w' ⟨hduring, hput⟩ h
    have hmem : a ∈ all := by rw [hsplit]; simp
    have hrolled' : ∀ journal, a = .save journal → journal.stage = .rollbackHealthy →
        ∀ spec ∈ manifest.snapshots, PutBack manifest w spec.source := by
      rintro journal rfl hstage spec hspec
      exact hput spec (hrolled done journal rest hsplit hstage spec hspec)
    have hafter := hduring.succeeds (hkeeps a hmem) (hallowed done a rest hsplit true) hrolled' h
    refine ⟨hafter.invariant, ?_, ?_⟩
    · rw [succeeded_append, ← List.append_assoc]
      exact hafter
    · intro spec hspec
      rcases List.mem_append.mp hspec with hspec | hspec
      · refine (hput spec hspec).of_succeeds (hkeeps a hmem) ?_ hduring.holds h
        rintro spec' rfl
        exact hrestores spec' hmem
      · rw [List.mem_singleton] at hspec
        subst hspec
        exact putBack_of_restore (hrestores spec hmem) hduring.holds h
  · rintro done a rest hsplit w left w' ⟨hduring, -⟩ h
    by_cases hsave : ∃ journal, a = .save journal
    · obtain ⟨journal, rfl⟩ := hsave
      cases h
    · push Not at hsave
      have hmem : a ∈ all := by rw [hsplit]; simp
      have hbreaks : breaksCutover w a left = w' := by
        cases a with
        | save journal => exact absurd rfl (hsave journal)
        | _ => exact Option.some.inj h
      rw [← hbreaks]
      have hafter := hduring.breaks (hkeeps a hmem) hsave (hallowed done a rest hsplit false) left
      exact ⟨hafter.invariant, hfail done a rest hsplit hsave _ hafter⟩
  · rintro w ⟨hduring, -⟩
    exact hnext w hduring

end

/-! ## What is allowed -/

section

variable {manifest : CutoverManifest} {before : List CutoverEvent} {journal : CutoverJournal}

theorem uncommitted_append {l l' : List CutoverEvent} (h : Uncommitted l) (h' : Uncommitted l') :
    Uncommitted (l ++ l') := by
  intro journal hmem
  rcases List.mem_append.mp hmem with hmem | hmem
  · exact h journal hmem
  · exact h' journal hmem

theorem uncommitted_succeeded {actions : List CutoverAction}
    (h : ∀ journal : CutoverJournal, .save journal ∈ actions → journal.stage ≠ .committed) :
    Uncommitted (succeeded actions) := by
  intro journal hmem
  obtain ⟨action, haction, heq⟩ := List.mem_map.mp hmem
  injection heq with heq
  exact h journal (heq ▸ haction)

/-- The start of a run commits nothing. -/
theorem uncommitted_began {old run : List CutoverEvent} {stage : Option CutoverStage} (hold : Uncommitted old)
    (hrun : Uncommitted run) : Uncommitted (old ++ .began stage :: run) := by
  refine uncommitted_append hold ?_
  intro journal hmem
  rcases List.mem_cons.mp hmem with hmem | hmem
  · cases hmem
  · exact hrun journal hmem

theorem sameRun_append {l l' : List CutoverEvent} (h : SameRun l) (h' : SameRun l') : SameRun (l ++ l') := by
  intro stage hmem
  rcases List.mem_append.mp hmem with hmem | hmem
  · exact h stage hmem
  · exact h' stage hmem

theorem sameRun_succeeded (actions : List CutoverAction) : SameRun (succeeded actions) := by
  intro stage hmem
  obtain ⟨action, -, heq⟩ := List.mem_map.mp hmem
  cases heq

/-- The commands that need nothing but that nothing has been committed. -/
def unguarded : CutoverAction → Bool
  | .run command => command ∉ [.shadowStart, .oldStop, .newStart]
  | .save journal => journal.stage ≠ .committed
  | _ => true

theorem allowed_of_unguarded {a : CutoverAction} (h : Uncommitted before) (ha : unguarded a = true) (ok : Bool) :
    Allowed manifest before (.did a ok) := by
  cases a with
  | run command =>
    rw [unguarded, decide_eq_true_eq] at ha
    refine ⟨h, ?_, ?_⟩
    · rintro rfl
      exact absurd (by simp) ha
    · exact fun hcommand => absurd hcommand ha
  | save journal =>
    rw [unguarded, decide_eq_true_eq] at ha
    cases ok with
    | true => exact ⟨h, fun hstage => absurd hstage ha⟩
    | false => trivial
  | _ => trivial

/-- The actions of a rollback, one by one. -/
theorem mem_rollbackActions {code : String} {a : CutoverAction} (h : a ∈ rollbackActions manifest journal code) :
    a = .save (journal.setStage .rollbackBegin (some code)) ∨ a = .run .newStop
      ∨ (∃ spec ∈ manifest.snapshots, a = .restoreSource spec) ∨ a = .run .oldStart ∨ a = .run .rollbackHealth
      ∨ a = .save (journal.setStage .rollbackHealthy (some code)) := by
  simp only [rollbackActions, List.mem_append, List.mem_cons, List.not_mem_nil, or_false, List.mem_map] at h
  rcases h with ((h | h) | ⟨spec, hspec, rfl⟩) | h | h | h
  · exact .inl h
  · exact .inr (.inl h)
  · exact .inr (.inr (.inl ⟨spec, hspec, rfl⟩))
  · exact .inr (.inr (.inr (.inl h)))
  · exact .inr (.inr (.inr (.inr (.inl h))))
  · exact .inr (.inr (.inr (.inr (.inr h))))

theorem rollback_unguarded {code : String} {a : CutoverAction} (h : a ∈ rollbackActions manifest journal code) :
    keepsSnapshot a = true ∧ unguarded a = true := by
  rcases mem_rollbackActions h with rfl | rfl | ⟨spec, -, rfl⟩ | rfl | rfl | rfl
  · exact ⟨rfl, rfl⟩
  · exact ⟨rfl, rfl⟩
  · exact ⟨rfl, rfl⟩
  · exact ⟨rfl, rfl⟩
  · exact ⟨rfl, rfl⟩
  · exact ⟨rfl, rfl⟩

theorem uncommitted_unguarded {actions : List CutoverAction} (h : ∀ a ∈ actions, unguarded a = true) :
    Uncommitted (succeeded actions) := by
  refine uncommitted_succeeded ?_
  intro journal hmem
  have hstage := h _ hmem
  rw [unguarded, decide_eq_true_eq] at hstage
  exact hstage

/-- The journal is healthy again in the last action of a rollback only, behind all sources. -/
theorem restored_of_healthy {code : String} {done rest : List CutoverAction} {saved : CutoverJournal}
    (hsplit : rollbackActions manifest journal code = done ++ .save saved :: rest)
    (hstage : saved.stage = .rollbackHealthy) {spec : SnapshotSpec} (hspec : spec ∈ manifest.snapshots) :
    .restoreSource spec ∈ done := by
  have hmem : CutoverAction.restoreSource spec ∈ rollbackActions manifest journal code := by
    simp only [rollbackActions, List.mem_append, List.mem_map]
    exact .inl (.inr ⟨spec, hspec, rfl⟩)
  rw [hsplit] at hmem
  rcases List.mem_append.mp hmem with hmem | hmem
  · exact hmem
  · exfalso
    rcases List.mem_cons.mp hmem with hmem | hmem
    · cases hmem
    · -- the save would stand in front of a restore
      have hlast : rollbackActions manifest journal code
          = ([.save (journal.setStage .rollbackBegin (some code)), .run .newStop]
            ++ manifest.snapshots.map .restoreSource ++ [.run .oldStart, .run .rollbackHealth])
            ++ [.save (journal.setStage .rollbackHealthy (some code))] := by
        simp [rollbackActions]
      rw [hlast] at hsplit
      obtain ⟨front, last, rfl⟩ : ∃ front last, rest = front ++ [last] :=
        ⟨_, _, (List.dropLast_append_getLast (List.ne_nil_of_mem hmem)).symm⟩
      rw [← List.cons_append, ← List.append_assoc] at hsplit
      have hfront := (List.append_inj' hsplit rfl).1
      have hsave : CutoverAction.save saved ∈ [.save (journal.setStage .rollbackBegin (some code)), .run .newStop]
          ++ manifest.snapshots.map .restoreSource ++ [.run .oldStart, .run .rollbackHealth] := by
        rw [hfront]
        simp
      simp only [List.mem_append, List.mem_cons, List.not_mem_nil, or_false, List.mem_map, reduceCtorEq,
        CutoverAction.save.injEq, and_false, exists_false] at hsave
      rw [hsave] at hstage
      cases hstage

end

/-! ## Where a run stands -/

/-- The events of a run that has rolled back if it had to, and has committed nothing. -/
structure Standing (manifest : CutoverManifest) (past : List CutoverEvent) : Prop where
  inRun : ∃ old stage run, past = old ++ .began stage :: run ∧ SameRun run
  uncommitted : Uncommitted past
  recovered : Recovered manifest past

section

variable {V : Type} {manifest : CutoverManifest} {w : CutoverWorld V} {past : List CutoverEvent}
  {journal : CutoverJournal}

/-- A history is in a run, and more of the run. -/
theorem inRun_append {more : List CutoverEvent} (h : ∃ old stage run, past = old ++ .began stage :: run ∧ SameRun run)
    (hmore : SameRun more) : ∃ old stage run, past ++ more = old ++ .began stage :: run ∧ SameRun run := by
  obtain ⟨old, stage, run, rfl, hrun⟩ := h
  exact ⟨old, stage, run ++ more, by simp, sameRun_append hrun hmore⟩

theorem Recovered.append {more : List CutoverEvent} (h : Recovered manifest past) (hmore : SameRun more) :
    Recovered manifest (past ++ more) := by
  obtain ⟨front, stage, run, rfl, hrun, hrolled⟩ := h
  refine ⟨front, stage, run ++ more, by simp, sameRun_append hrun hmore, ?_⟩
  intro hstage
  obtain ⟨journal, code, rest, rfl⟩ := hrolled hstage
  exact ⟨journal, code, rest ++ more, by simp⟩

theorem Standing.append {actions : List CutoverAction} (h : Standing manifest past)
    (hcommits : ∀ journal : CutoverJournal, .save journal ∈ actions → journal.stage ≠ .committed) :
    Standing manifest (past ++ succeeded actions) :=
  ⟨inRun_append h.inRun (sameRun_succeeded actions), uncommitted_append h.uncommitted (uncommitted_succeeded hcommits),
    h.recovered.append (sameRun_succeeded actions)⟩

/-- A run that broke where no rollback answers may end anyhow. -/
theorem endsWell_of_broken {done : List CutoverAction} {a : CutoverAction} {r : Except String CutoverJournal}
    (hrun : ∃ old stage run, past = old ++ .began stage :: run ∧ SameRun run) (ha : answered a = false)
    (hlog : w.log = past ++ succeeded done ++ [.did a false]) : EndsWell r w := by
  have hsame : SameRun [.did a false] := by
    intro stage hmem
    cases List.mem_singleton.mp hmem
  obtain ⟨old, stage, run, hsplit, hrun'⟩ := inRun_append hrun (sameRun_append (sameRun_succeeded done) hsame)
  refine ⟨old, stage, run, ?_, hrun', ?_⟩
  · rw [hlog, List.append_assoc, hsplit]
  · intro hanswered
    -- the failure is in the run, since it does not begin one
    have hmem : CutoverEvent.did a false ∈ run := by
      have hlast : (past ++ (succeeded done ++ [CutoverEvent.did a false])).getLast?
          = some (CutoverEvent.did a false) := by
        simp
      rw [hsplit] at hlast
      rcases List.eq_nil_or_concat run with rfl | ⟨front, last, rfl⟩
      · simp at hlast
      · rw [List.concat_eq_append, ← List.cons_append, ← List.append_assoc, List.getLast?_append,
          List.getLast?_singleton] at hlast
        rw [← Option.some.inj hlast, List.concat_eq_append]
        simp
    rw [hanswered a hmem] at ha
    cases ha

/-- A run that has just written a final stage ends well. -/
theorem endsWell_of_saved {r : Except String CutoverJournal} {front : List CutoverEvent}
    (hrun : ∃ old stage run, past = old ++ .began stage :: run ∧ SameRun run)
    (hpast : past = front ++ [.did (.save journal) true])
    (hstage : journal.stage ∈ [CutoverStage.committed, .rollbackHealthy]) (hw : During manifest past w) :
    EndsWell r w := by
  obtain ⟨old, stage, run, hsplit, hrun'⟩ := hrun
  refine ⟨old, stage, run, hw.log.trans hsplit, hrun', fun _ => ⟨journal, ?_, hstage⟩⟩
  rw [hw.invariant.journal, hw.log, hpast, lastSaved_concat_save]

/-! ## Rolling back -/

/-- A rollback goes on when all of it has succeeded, and may end anyhow when it fails. -/
theorem safe_rollback {code : String} {next : Option CutoverAction → CutoverProg} (hw : During manifest past w)
    (hfree : Uncommitted past)
    (hnext : ∀ w, During manifest (past ++ succeeded (rollbackActions manifest journal code)) w →
      Safe (cutoverActions V) (CutoverInvariant manifest) EndsWell (next none) w)
    (hfail : ∀ done a, answered a = false → ∀ w, During manifest (past ++ succeeded done ++ [.did a false]) w →
      Safe (cutoverActions V) (CutoverInvariant manifest) EndsWell (next (some a)) w) :
    Safe (cutoverActions V) (CutoverInvariant manifest) EndsWell
      (Prog.runAll next (rollbackActions manifest journal code)) w := by
  refine safe_phase hw (fun a ha => (rollback_unguarded ha).1) ?_ ?_ ?_ hnext ?_
  · intro spec hspec
    rcases mem_rollbackActions hspec with h | h | ⟨spec', hspec', h⟩ | h | h | h
    · cases h
    · cases h
    · injection h with h
      exact h ▸ hspec'
    · cases h
    · cases h
    · cases h
  · intro done a rest hsplit ok
    have hmem : ∀ b ∈ done, b ∈ rollbackActions manifest journal code := by
      intro b hb
      rw [hsplit]
      exact List.mem_append_left _ hb
    refine allowed_of_unguarded (uncommitted_append hfree (uncommitted_unguarded ?_)) ?_ ok
    · exact fun b hb => (rollback_unguarded (hmem b hb)).2
    · have ha : a ∈ rollbackActions manifest journal code := by rw [hsplit]; simp
      exact (rollback_unguarded ha).2
  · exact fun done saved rest hsplit hstage spec hspec => restored_of_healthy hsplit hstage hspec
  · intro done a rest hsplit hsave w hduring
    refine hfail done a ?_ w hduring
    have hmem : a ∈ rollbackActions manifest journal code := by rw [hsplit]; simp
    rcases mem_rollbackActions hmem with rfl | rfl | ⟨spec, -, rfl⟩ | rfl | rfl | rfl
    · exact absurd rfl (hsave _)
    · rfl
    · rfl
    · rfl
    · rfl
    · exact absurd rfl (hsave _)

/-- What a rollback writes last. -/
theorem rollbackActions_concat (manifest : CutoverManifest) (journal : CutoverJournal) (code : String) :
    ∃ front, rollbackActions manifest journal code
      = front ++ [.save (journal.setStage .rollbackHealthy (some code))] :=
  ⟨[.save (journal.setStage .rollbackBegin (some code)), .run .newStop] ++ manifest.snapshots.map .restoreSource
    ++ [.run .oldStart, .run .rollbackHealth], by simp [rollbackActions]⟩

theorem commits_rollbackActions {code : String} (saved : CutoverJournal)
    (h : .save saved ∈ rollbackActions manifest journal code) : saved.stage ≠ .committed := by
  have hunguarded := (rollback_unguarded h).2
  rw [unguarded, decide_eq_true_eq] at hunguarded
  exact hunguarded

theorem safe_abandon {code error : String} (hw : During manifest past w) (hstanding : Standing manifest past) :
    Safe (cutoverActions V) (CutoverInvariant manifest) EndsWell (abandon manifest journal code error) w := by
  refine safe_rollback hw hstanding.uncommitted ?_ ?_
  · intro w hduring
    refine safe_done (stable_during _) hduring ?_
    intro w hduring
    obtain ⟨front, hfront⟩ := rollbackActions_concat manifest journal code
    have hlast : past ++ succeeded (rollbackActions manifest journal code)
        = (past ++ succeeded front) ++ [.did (.save (journal.setStage .rollbackHealthy (some code))) true] := by
      rw [hfront, succeeded_append, List.append_assoc]
      rfl
    have hstage : (journal.setStage .rollbackHealthy (some code)).stage
        ∈ [CutoverStage.committed, .rollbackHealthy] := by
      simp [CutoverJournal.setStage]
    exact endsWell_of_saved (hstanding.append commits_rollbackActions).inRun hlast hstage hduring
  · intro done a ha w hduring
    refine safe_done (stable_during _) hduring ?_
    intro w hduring
    exact endsWell_of_broken hstanding.inRun ha hduring.log

end

/-! ## The new stack -/

section

variable {V : Type} {manifest : CutoverManifest} {w : CutoverWorld V} {past : List CutoverEvent}
  {journal : CutoverJournal}

/-- Writing stages that neither commit nor end a rollback. -/
theorem safe_setStages {stages : List CutoverStage} {next : CutoverProg} (hw : During manifest past w)
    (hfree : Uncommitted past) (hstages : ∀ stage ∈ stages, stage ≠ .committed ∧ stage ≠ .rollbackHealthy)
    (hnext : ∀ w, During manifest (past ++ succeeded (stageActions journal stages)) w →
      Safe (cutoverActions V) (CutoverInvariant manifest) EndsWell next w) :
    Safe (cutoverActions V) (CutoverInvariant manifest) EndsWell (setStages journal stages next) w := by
  have hmem : ∀ a ∈ stageActions journal stages, ∃ stage ∈ stages, a = .save (journal.setStage stage none) := by
    intro a ha
    obtain ⟨stage, hstage, rfl⟩ := List.mem_map.mp ha
    exact ⟨stage, hstage, rfl⟩
  have hunguarded : ∀ a ∈ stageActions journal stages, keepsSnapshot a = true ∧ unguarded a = true := by
    intro a ha
    obtain ⟨stage, hstage, rfl⟩ := hmem a ha
    refine ⟨rfl, ?_⟩
    rw [unguarded, decide_eq_true_eq]
    exact (hstages stage hstage).1
  refine safe_phase hw (fun a ha => (hunguarded a ha).1) ?_ ?_ ?_ hnext ?_
  · intro spec hspec
    obtain ⟨stage, -, h⟩ := hmem _ hspec
    cases h
  · intro done a rest hsplit ok
    have hdone : ∀ b ∈ done, unguarded b = true := by
      intro b hb
      refine (hunguarded b ?_).2
      rw [hsplit]
      exact List.mem_append_left _ hb
    have ha : a ∈ stageActions journal stages := by rw [hsplit]; simp
    exact allowed_of_unguarded (uncommitted_append hfree (uncommitted_unguarded hdone)) (hunguarded a ha).2 ok
  · intro done saved rest hsplit hstage
    have hsaved : CutoverAction.save saved ∈ stageActions journal stages := by rw [hsplit]; simp
    obtain ⟨stage, hmem', heq⟩ := hmem _ hsaved
    injection heq with heq
    rw [heq] at hstage
    exact absurd hstage (hstages stage hmem').2
  · intro done a rest hsplit hsave
    have ha : a ∈ stageActions journal stages := by rw [hsplit]; simp
    obtain ⟨stage, -, rfl⟩ := hmem a ha
    exact absurd rfl (hsave _)

theorem commits_stageActions (journal : CutoverJournal) (stages : List CutoverStage) (h : .committed ∉ stages)
    (saved : CutoverJournal) (hsaved : .save saved ∈ stageActions journal stages) : saved.stage ≠ .committed := by
  obtain ⟨stage, hstage, heq⟩ := List.mem_map.mp hsaved
  injection heq with heq
  rw [← heq]
  rintro rfl
  exact h hstage

theorem commits_run (commands : List CutoverCommand) (saved : CutoverJournal)
    (hsaved : .save saved ∈ commands.map CutoverAction.run) : saved.stage ≠ .committed := by
  obtain ⟨command, -, heq⟩ := List.mem_map.mp hsaved
  cases heq

/-- Commands in turn, each one allowed. -/
theorem safe_run (commands : List CutoverCommand) {next : Option CutoverAction → CutoverProg}
    (hw : During manifest past w) (hstanding : Standing manifest past)
    (hready : ∀ done rest, commands = done ++ .newStart :: rest →
      Readied manifest (past ++ succeeded (done.map .run)))
    (hnext : ∀ w, During manifest (past ++ succeeded (commands.map .run)) w →
      Safe (cutoverActions V) (CutoverInvariant manifest) EndsWell (next none) w)
    (hfail : ∀ a past' w, During manifest past' w → Standing manifest past' →
      Safe (cutoverActions V) (CutoverInvariant manifest) EndsWell (next (some a)) w) :
    Safe (cutoverActions V) (CutoverInvariant manifest) EndsWell (Prog.runAll next (commands.map .run)) w := by
  have hsplits : ∀ done a rest, commands.map CutoverAction.run = done ++ a :: rest →
      ∃ done' command rest', commands = done' ++ command :: rest' ∧ done = done'.map .run ∧ a = .run command := by
    intro done a rest hsplit
    obtain ⟨done', tail, rfl, rfl, htail⟩ := List.map_eq_append_iff.mp hsplit
    obtain ⟨command, rest', rfl, rfl, -⟩ := List.map_eq_cons_iff.mp htail
    exact ⟨done', command, rest', rfl, rfl, rfl⟩
  refine safe_phase hw ?_ ?_ ?_ ?_ hnext ?_
  · intro a ha
    obtain ⟨command, -, rfl⟩ := List.mem_map.mp ha
    rfl
  · intro spec hspec
    obtain ⟨command, -, h⟩ := List.mem_map.mp hspec
    cases h
  · intro done a rest hsplit ok
    obtain ⟨done', command, rest', hcommands, rfl, rfl⟩ := hsplits done a rest hsplit
    have hpast := hstanding.append (commits_run done')
    refine ⟨hpast.uncommitted, ?_, fun _ => hpast.recovered⟩
    rintro rfl
    exact hready done' rest' hcommands
  · intro done saved rest hsplit
    obtain ⟨done', command, rest', -, -, h⟩ := hsplits done _ rest hsplit
    cases h
  · intro done a rest hsplit hsave w hduring
    obtain ⟨done', command, rest', hcommands, rfl, rfl⟩ := hsplits done a rest hsplit
    refine hfail _ _ w hduring ?_
    have hpast := hstanding.append (commits_run done')
    have hsame : SameRun [.did (.run command) false] := by
      intro stage hmem
      cases List.mem_singleton.mp hmem
    refine ⟨inRun_append hpast.inRun hsame, uncommitted_append hpast.uncommitted ?_, hpast.recovered.append hsame⟩
    intro saved hmem
    cases List.mem_singleton.mp hmem

/-- Committing, behind the test of the new stack. -/
theorem safe_commit {front : List CutoverEvent} (hw : During manifest past w) (hstanding : Standing manifest past)
    (hpast : past = front ++ succeeded [.run .oldStop, .run .newStart, .run .postCutoverSmoke]) :
    Safe (cutoverActions V) (CutoverInvariant manifest) EndsWell
      (setStages journal [.postCutoverSmokePassed, .committed] (.done (.ok (journal.setStage .committed none)))) w := by
  have hserved : Served (past ++ succeeded [.save (journal.setStage .postCutoverSmokePassed none)]) := by
    refine ⟨front, journal, ?_⟩
    rw [succeeded_append, hpast, List.append_assoc]
    rfl
  have hpassed : Uncommitted (past ++ succeeded [.save (journal.setStage .postCutoverSmokePassed none)]) := by
    refine uncommitted_append hstanding.uncommitted (uncommitted_unguarded ?_)
    intro a ha
    rw [List.mem_singleton.mp ha]
    rfl
  refine safe_phase hw ?_ ?_ ?_ ?_ ?_ ?_
  · intro a ha
    obtain ⟨stage, -, rfl⟩ := List.mem_map.mp ha
    rfl
  · intro spec hspec
    obtain ⟨stage, -, h⟩ := List.mem_map.mp hspec
    cases h
  · intro done a rest hsplit ok
    have hcases : (done = [] ∧ a = .save (journal.setStage .postCutoverSmokePassed none))
        ∨ done = [.save (journal.setStage .postCutoverSmokePassed none)] ∧ a = .save (journal.setStage .committed none) := by
      rw [stageActions, List.map_cons, List.map_cons, List.map_nil] at hsplit
      rcases done with _ | ⟨first, _ | ⟨second, more⟩⟩
      · rw [List.nil_append, List.cons.injEq] at hsplit
        exact .inl ⟨rfl, hsplit.1.symm⟩
      · simp only [List.cons_append, List.nil_append, List.cons.injEq] at hsplit
        obtain ⟨rfl, rfl, -⟩ := hsplit
        exact .inr ⟨rfl, rfl⟩
      · simp at hsplit
    rcases hcases with ⟨rfl, rfl⟩ | ⟨rfl, rfl⟩
    · refine allowed_of_unguarded ?_ rfl ok
      exact uncommitted_append hstanding.uncommitted (uncommitted_unguarded fun _ h => absurd h List.not_mem_nil)
    · cases ok with
      | true => exact ⟨hpassed, fun _ => hserved⟩
      | false => trivial
  · intro done saved rest hsplit hstage
    have hmem : CutoverAction.save saved ∈ stageActions journal [.postCutoverSmokePassed, .committed] := by
      rw [hsplit]
      simp
    simp only [stageActions, List.map_cons, List.map_nil, List.mem_cons, List.not_mem_nil, or_false,
      CutoverAction.save.injEq] at hmem
    rcases hmem with rfl | rfl
    · cases hstage
    · cases hstage
  · intro w hduring
    refine safe_done (stable_during _) hduring ?_
    intro w hduring
    have hlast : past ++ succeeded (stageActions journal [.postCutoverSmokePassed, .committed])
        = (past ++ succeeded [.save (journal.setStage .postCutoverSmokePassed none)])
          ++ [.did (.save (journal.setStage .committed none)) true] := by
      rw [List.append_assoc]
      rfl
    have hstage : (journal.setStage .committed none).stage ∈ [CutoverStage.committed, .rollbackHealthy] := by
      simp [CutoverJournal.setStage]
    exact endsWell_of_saved (inRun_append hstanding.inRun (sameRun_succeeded _)) hlast hstage hduring
  · intro done a rest hsplit hsave
    have ha : a ∈ stageActions journal [.postCutoverSmokePassed, .committed] := by rw [hsplit]; simp
    obtain ⟨stage, -, rfl⟩ := List.mem_map.mp ha
    exact absurd rfl (hsave _)

/-- From `old_stop` on. -/
theorem safe_finishCutover (front : List CutoverEvent) (hw : During manifest past w)
    (hstanding : Standing manifest past)
    (hpast : past ++ succeeded [.run .oldStop] = front ++ succeeded (untilOldStop manifest journal)) :
    Safe (cutoverActions V) (CutoverInvariant manifest) EndsWell (finishCutover manifest journal) w := by
  refine safe_run [.oldStop, .newStart, .postCutoverSmoke] hw hstanding ?_ ?_ ?_
  · intro done rest hsplit
    have hdone : done = [.oldStop] := by
      rcases done with _ | ⟨first, _ | ⟨second, _ | ⟨third, more⟩⟩⟩
      · simp at hsplit
      · simp only [List.cons_append, List.nil_append, List.cons.injEq] at hsplit
        rw [hsplit.1]
      · simp at hsplit
      · simp at hsplit
    rw [hdone]
    exact ⟨front, journal, hpast⟩
  · intro w hduring
    exact safe_commit hduring (hstanding.append (commits_run [.oldStop, .newStart, .postCutoverSmoke])) rfl
  · exact fun a past' w hduring hstanding' => safe_abandon hduring hstanding'

/-- From the shadow stack on. -/
theorem safe_startShadow (front : List CutoverEvent) (hw : During manifest past w)
    (hstanding : Standing manifest past)
    (hpast : past = front ++ succeeded (snapshotActions manifest ++ stageActions journal [.snapshotComplete])) :
    Safe (cutoverActions V) (CutoverInvariant manifest) EndsWell (startShadow manifest journal) w := by
  refine safe_run [.shadowStart, .shadowHealth] hw hstanding ?_ ?_ ?_
  · intro done rest hsplit
    have hmem : CutoverCommand.newStart ∈ [CutoverCommand.shadowStart, .shadowHealth] := by rw [hsplit]; simp
    simp at hmem
  · intro w hduring
    have hstanding₁ := hstanding.append
      (commits_run [.shadowStart, .shadowHealth])
    refine safe_setStages hduring hstanding₁.uncommitted (by simp) ?_
    intro w hduring
    have hstanding₂ := hstanding₁.append (commits_stageActions journal [.shadowReady] (by simp))
    refine safe_run [.preCutoverSmoke] hduring hstanding₂ ?_ ?_ ?_
    · intro done rest hsplit
      have hmem : CutoverCommand.newStart ∈ [CutoverCommand.preCutoverSmoke] := by rw [hsplit]; simp
      simp at hmem
    · intro w hduring
      have hstanding₃ := hstanding₂.append (commits_run [.preCutoverSmoke])
      refine safe_setStages hduring hstanding₃.uncommitted (by simp) ?_
      intro w hduring
      have hstanding₄ := hstanding₃.append (commits_stageActions journal
        [.preCutoverSmokePassed, .cutoverBegin] (by simp))
      refine safe_finishCutover front hduring hstanding₄ ?_
      rw [hpast, untilOldStop]
      simp [succeeded]
    · exact fun a past' w hduring hstanding' => safe_abandon hduring hstanding'
  · exact fun a past' w hduring hstanding' => safe_abandon hduring hstanding'

end

end CodexRouter
