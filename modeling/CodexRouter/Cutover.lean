/-
# The shadow cutover

`run_shadow_cutover` takes the router from an old stack to a new one.  It copies the snapshot
sources, starts the new stack in the shadow of the old one, stops the old one, starts the new one,
and writes into a journal how far it has come; when a command fails, and when it finds an
interrupted stage in the journal, it rolls back: it stops the new stack, puts the sources back from
the snapshot and starts the old stack.

A run is a program (`cutover`) of actions on a world that outlives it.  The old stack writes to the
sources as long as it runs.
-/
import CodexRouter.Base.Crash
import Mathlib.Data.List.Infix

namespace CodexRouter

/-! ## Manifest and journal -/

/-- A component of a path. -/
inductive PathComponent where
  | normal (name : String)
  | special
  deriving DecidableEq, Repr

/-- `SnapshotSpec`, the backup name by its components. -/
structure SnapshotSpec where
  source : String
  backupName : List PathComponent
  deriving DecidableEq, Repr

/-- `safe_backup_name`. -/
def safeBackupName (path : List PathComponent) : Bool :=
  path ≠ [] && path.all fun component => component ≠ .special

/-- The path of a backup in the snapshot directory. -/
def SnapshotSpec.names (spec : SnapshotSpec) : List String :=
  spec.backupName.filterMap fun
    | .normal name => some name
    | .special => none

/-- The commands of a manifest. -/
inductive CutoverCommand where
  | shadowStart
  | shadowHealth
  | preCutoverSmoke
  | oldStop
  | newStart
  | postCutoverSmoke
  | newStop
  | oldStart
  | rollbackHealth
  deriving DecidableEq, Repr

/-- `CutoverManifest`, less what the commands are. -/
structure CutoverManifest where
  snapshots : List SnapshotSpec

/-- `CutoverStage`. -/
inductive CutoverStage where
  | snapshotComplete
  | shadowReady
  | preCutoverSmokePassed
  | cutoverBegin
  | postCutoverSmokePassed
  | rollbackBegin
  | rollbackHealthy
  | committed
  deriving DecidableEq, Repr

/-- `CutoverJournal`, less its time. -/
structure CutoverJournal where
  stage : CutoverStage
  attempts : ℕ
  failureCode : Option String
  deriving DecidableEq, Repr

/-- The journal that `set_stage` writes. -/
def CutoverJournal.setStage (journal : CutoverJournal) (stage : CutoverStage) (failureCode : Option String) :
    CutoverJournal :=
  { journal with stage := stage, failureCode := failureCode }

/-- `requires_recovery`. -/
def requiresRecovery (stage : CutoverStage) : Bool :=
  stage ∈ [.snapshotComplete, .shadowReady, .preCutoverSmokePassed, .cutoverBegin, .postCutoverSmokePassed,
    .rollbackBegin]

/-! ## Actions -/

/-- What a run does, one after the other. -/
inductive CutoverAction where
  /-- `save_journal`. -/
  | save (journal : CutoverJournal)
  /-- `run_command`. -/
  | run (command : CutoverCommand)
  /-- Make the snapshot directory anew. -/
  | clearSnapshot
  /-- The body of the loop of `create_snapshot`. -/
  | copySource (spec : SnapshotSpec)
  /-- The body of the loop of `restore_snapshot`. -/
  | restoreSource (spec : SnapshotSpec)
  deriving DecidableEq, Repr

abbrev CutoverProg := Prog CutoverAction (Except String CutoverJournal)

section

variable (manifest : CutoverManifest) (journal : CutoverJournal)

/-- The actions of `create_snapshot`. -/
def snapshotActions : List CutoverAction := .clearSnapshot :: manifest.snapshots.map .copySource

/-- The actions of `rollback`. -/
def rollbackActions (failureCode : String) : List CutoverAction :=
  [.save (journal.setStage .rollbackBegin (some failureCode)), .run .newStop]
    ++ manifest.snapshots.map .restoreSource
    ++ [.run .oldStart, .run .rollbackHealth, .save (journal.setStage .rollbackHealthy (some failureCode))]

/-- The error of a rollback that fails at an action. -/
def rollbackError : CutoverAction → String
  | .run .newStop => "CR-MIG-0007"
  | .save _ => "write cutover journal"
  | _ => "CR-MIG-0008"

/-- Roll back and give up with an error. -/
def abandon (failureCode error : String) : CutoverProg :=
  Prog.runAll (fun failed => .done (.error (failed.elim error rollbackError)))
    (rollbackActions manifest journal failureCode)

/-- The actions that write stages into the journal. -/
def stageActions (stages : List CutoverStage) : List CutoverAction :=
  stages.map fun stage => .save (journal.setStage stage none)

/-- Write stages into the journal and go on. -/
def setStages (stages : List CutoverStage) (next : CutoverProg) : CutoverProg :=
  Prog.runAll (fun failed => failed.elim next fun _ => .done (.error "write cutover journal"))
    (stageActions journal stages)

/-- `run_shadow_cutover` behind `old_stop`. -/
def finishCutover : CutoverProg :=
  Prog.runAll (fun failed => failed.elim
      (setStages journal [.postCutoverSmokePassed, .committed] (.done (.ok (journal.setStage .committed none))))
      fun _ => abandon manifest journal "CR-MIG-0007"
        "CR-MIG-0007: post-cutover smoke failed and the old stack was restored")
    [.run .oldStop, .run .newStart, .run .postCutoverSmoke]

/-- `run_shadow_cutover` from the shadow stack on. -/
def startShadow : CutoverProg :=
  Prog.runAll (fun failed => failed.elim
      (setStages journal [.shadowReady]
        (Prog.runAll (fun failed => failed.elim
            (setStages journal [.preCutoverSmokePassed, .cutoverBegin] (finishCutover manifest journal))
            fun _ => abandon manifest journal "CR-MIG-0006" "CR-MIG-0006: pre-cutover smoke failed")
          [.run .preCutoverSmoke]))
      fun _ => abandon manifest journal "CR-MIG-0006" "CR-MIG-0006: shadow stack failed readiness checks")
    [.run .shadowStart, .run .shadowHealth]

/-- The number of the next attempt. -/
def CutoverJournal.nextAttempt : CutoverJournal :=
  { journal with attempts := min (journal.attempts + 1) 4294967295 }

/-- `run_shadow_cutover` from the snapshot on. -/
def attemptCutover : CutoverProg :=
  Prog.runAll (fun failed => failed.elim
      (setStages journal.nextAttempt [.snapshotComplete] (startShadow manifest journal.nextAttempt))
      fun _ => .done (.error "CR-MIG-0002: create cutover snapshot"))
    (snapshotActions manifest)

end

/-- `run_shadow_cutover`, for the journal that it loads. -/
def cutover (manifest : CutoverManifest) (stored : Option CutoverJournal) : CutoverProg :=
  let journal := stored.getD ⟨.snapshotComplete, 0, none⟩
  if journal.stage = .committed then .done (.ok journal)
  else if stored.any (requiresRecovery ·.stage) then
    Prog.runAll (fun failed => failed.elim
        (attemptCutover manifest (journal.setStage .rollbackHealthy (some "CR-MIG-0007")))
        fun action => .done (.error (rollbackError action)))
      (rollbackActions manifest journal "CR-MIG-0007")
  else attemptCutover manifest journal

/-! ## The world -/

/-- A place in a tree; a file by the writes it holds. -/
inductive Node (V : Type) where
  | dir
  | file (writes : List V)
  deriving DecidableEq, Repr

/-- A tree of directories and files, by the path from its root. -/
abbrev Tree (V : Type) := List String → Option (Node V)

/-- What a run has done. -/
inductive CutoverEvent where
  | began (stage : Option CutoverStage)
  | did (action : CutoverAction) (ok : Bool)
  deriving DecidableEq, Repr

/-- What outlives a run.  The last three members only record what happened. -/
structure CutoverWorld (V : Type) where
  journal : Option CutoverJournal
  sources : String → Tree V
  snapshot : Tree V
  oldRunning : Bool
  /-- A source when it was last copied for a snapshot. -/
  taken : SnapshotSpec → Tree V
  /-- The writes to a source since it was last put back. -/
  since : String → List (List String × V)
  log : List CutoverEvent

/-- A write of the old stack. -/
structure OldWrite (V : Type) where
  source : String
  path : List String
  value : V
  deriving DecidableEq

section

variable {V : Type}

/-- The writes that a place in a tree holds. -/
def held (tree : Tree V) (path : List String) : List V :=
  match tree path with
  | some (.file writes) => writes
  | _ => []

/-- Write to a file. -/
def writeTo (tree : Tree V) (path : List String) (value : V) : Tree V :=
  fun p => if p = path then some (.file (held tree path ++ [value])) else tree p

/-- `copy_tree` to a place in the snapshot directory: the directories above are made, and the tree
is laid over what is there. -/
def copyTo (snapshot : Tree V) (names : List String) (tree : Tree V) : Tree V := fun path =>
  if names <+: path then (tree (path.drop names.length)).or (snapshot path)
  else if path <+: names then (snapshot path).or (some .dir)
  else snapshot path

variable (w : CutoverWorld V)

/-- Note what was done. -/
def CutoverWorld.note (action : CutoverAction) (ok : Bool) : CutoverWorld V :=
  { w with log := w.log ++ [.did action ok] }

/-- Put a tree in the place of a source. -/
def CutoverWorld.putBack (source : String) (tree : Tree V) : CutoverWorld V :=
  { w with
    sources := Function.update w.sources source tree
    since := Function.update w.since source [] }

/-- Whether the old stack runs after a command. -/
def runsAfter (oldRunning : Bool) (command : CutoverCommand) (ok : Bool) : Bool :=
  match command, ok with
  | .oldStop, true => false
  | .oldStart, _ => true
  | _, _ => oldRunning

/-- What an action that succeeds does. -/
def succeedsCutover (action : CutoverAction) : Option (CutoverWorld V) :=
  match action with
  | .save journal => some ({ w with journal := some journal }.note action true)
  | .run command => some ({ w with oldRunning := runsAfter w.oldRunning command true }.note action true)
  | .clearSnapshot => some ({ w with snapshot := fun path => if path = [] then some .dir else none }.note action true)
  | .copySource spec =>
    if safeBackupName spec.backupName && (w.sources spec.source []).isSome then
      some ({ w with
        snapshot := copyTo w.snapshot spec.names (w.sources spec.source)
        taken := Function.update w.taken spec (w.sources spec.source) }.note action true)
    else none
  | .restoreSource spec =>
    if (w.snapshot spec.names).isSome then
      some ((w.putBack spec.source fun path => w.snapshot (spec.names ++ path)).note action true)
    else none

/-- What an action leaves that fails or is interrupted: the tree that it works on is any. -/
def breaksCutover (action : CutoverAction) (left : Tree V) : CutoverWorld V :=
  match action with
  | .save _ => w
  | .run command => { w with oldRunning := runsAfter w.oldRunning command false }.note action false
  | .clearSnapshot => { w with snapshot := left }.note action false
  | .copySource _ => { w with snapshot := left }.note action false
  | .restoreSource spec => (w.putBack spec.source left).note action false

/-- The old stack writes as long as it runs. -/
def writesOld (change : OldWrite V) : Option (CutoverWorld V) :=
  if w.oldRunning then
    some { w with
      sources := Function.update w.sources change.source
        (writeTo (w.sources change.source) change.path change.value)
      since := Function.update w.since change.source (w.since change.source ++ [(change.path, change.value)]) }
  else none

end

/-- The actions on the world.  A journal is written as a whole or not at all, and a run whose write
fails ends there. -/
def cutoverActions (V : Type) : Actions (CutoverWorld V) CutoverAction (Tree V) (OldWrite V) where
  succeeds action w := succeedsCutover w action
  fails action left w :=
    match action with
    | .save _ => none
    | action => some (breaksCutover w action left)
  torn action left w := some (breaksCutover w action left)
  others change w := writesOld w change

/-- A run begins with the journal. -/
def startCutover {V : Type} (manifest : CutoverManifest) (w : CutoverWorld V) : CutoverWorld V × CutoverProg :=
  ({ w with log := w.log ++ [.began (w.journal.map (·.stage))] }, cutover manifest w.journal)

end CodexRouter
