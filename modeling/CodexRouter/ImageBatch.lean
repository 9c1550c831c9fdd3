/-
# Image batches

The rows of an image batch, the store operations of `data_ops.rs` on them, and the
two parties that use them: the worker `run_image_batch`, which takes one item after
the other, and any number of calls of `image_batch_cancel`.  Each store operation
is atomic, but a party's operations are not: between the worker's look at an item
and its update, a cancel can come in.

A state holds the rows and the position of every party.  `batchStep` performs the
next operation of one party.
-/
import CodexRouter.Base.Run
import CodexRouter.Base.Text

namespace CodexRouter

/-! ## Rows -/

/-- The status of a batch or of an item. -/
inductive JobStatus where
  | queued
  | running
  | completed
  | failed
  | cancelled
  deriving DecidableEq, Repr

/-- `completed`, `failed` and `cancelled` are final. -/
def JobStatus.terminal : JobStatus → Bool
  | .queued => false
  | .running => false
  | .completed => true
  | .failed => true
  | .cancelled => true

/-- A row of `image_batch_items`. -/
structure BatchItem where
  customId : String
  status : JobStatus := .queued
  outputRef : Option String := none
  errorCode : Option String := none
  deriving DecidableEq, Repr

/-- A row of `image_batches` with its items.  The primary key of the items is the
batch and the custom id. -/
structure ImageBatch where
  status : JobStatus
  items : List BatchItem
  deriving DecidableEq, Repr

/-- `image_batch_create`. -/
def imageBatchCreate (customIds : List String) : ImageBatch :=
  ⟨.queued, customIds.map fun id => { customId := id }⟩

/-- `image_batch_start`. -/
def imageBatchStart (batch : ImageBatch) : ImageBatch :=
  if batch.status = .queued then { batch with status := .running } else batch

/-- `image_batch_item_update` on one row. -/
def BatchItem.update (customId : String) (status : JobStatus)
    (outputRef errorCode : Option String) (item : BatchItem) : BatchItem :=
  if item.customId = customId then
    { item with
      status := status
      outputRef := outputRef.or item.outputRef
      errorCode := errorCode }
  else item

/-- `image_batch_item_update`. -/
def imageBatchItemUpdate (batch : ImageBatch) (customId : String) (status : JobStatus)
    (outputRef errorCode : Option String) : ImageBatch :=
  { batch with items := batch.items.map (BatchItem.update customId status outputRef errorCode) }

/-- `image_batch_finish`. -/
def imageBatchFinish (batch : ImageBatch) (status : JobStatus) : ImageBatch :=
  { batch with status := status }

/-- `image_batch_cancel_pending` on one row. -/
def BatchItem.cancelPending (item : BatchItem) : BatchItem :=
  if item.status = .queued then
    { item with status := .cancelled, errorCode := some "CR-REQ-0008" }
  else item

/-- `image_batch_cancel_pending`. -/
def imageBatchCancelPending (batch : ImageBatch) : ImageBatch :=
  { batch with items := batch.items.map BatchItem.cancelPending }

/-- `batch_item_state`. -/
def batchItemState (batch : ImageBatch) (customId : String) : Option JobStatus :=
  (batch.items.find? (·.customId = customId)).map BatchItem.status

/-! ## The two rules for the end of a batch -/

/-- The status the worker ends a batch with. -/
def workerOutcome (items : List BatchItem) : JobStatus :=
  if 0 < items.length && (items.filter (·.status = .cancelled)).length = items.length then .cancelled
  else if 0 < items.length && (items.filter (·.status = .failed)).length = items.length then .failed
  else .completed

/-- The status a cancel call ends a batch with. -/
def cancelOutcome (items : List BatchItem) : JobStatus :=
  if items.any (·.status = .completed) then .completed else .cancelled

/-- An item that is left to do. -/
def BatchItem.active (item : BatchItem) : Bool :=
  item.status = .queued || item.status = .running

/-! ## The parties -/

/-- `upstream_error_code`. -/
def upstreamErrorCode (status : ℕ) : String :=
  ([(400, "CR-UP-0001"), (401, "CR-UP-0002"), (403, "CR-UP-0003"), (404, "CR-UP-0004"),
    (408, "CR-UP-0005"), (409, "CR-UP-0006"), (413, "CR-UP-0007"), (429, "CR-UP-0008"),
    (500, "CR-UP-0009"), (502, "CR-UP-0010"), (503, "CR-UP-0011"), (504, "CR-UP-0012")].lookup
      status).getD "CR-CLI-0004"

/-- What comes back for a submitted item: nothing, or a status, with the name of
the stored output where the output could be stored. -/
inductive ImageAnswer where
  | unreachable
  | answer (status : ℕ) (stored : Option String)
  deriving DecidableEq, Repr

/-- The final row of a submitted item: status, output and error code. -/
def ImageAnswer.final : ImageAnswer → JobStatus × Option String × Option String
  | .unreachable => (.failed, none, some "CR-CLI-0004")
  | .answer status stored =>
    if ¬ (200 ≤ status ∧ status < 300) then (.failed, none, some (upstreamErrorCode status))
    else match stored with
      | some outputName => (.completed, some outputName, none)
      | none => (.failed, none, some "CR-STO-0011")

/-- Where the worker stands: before the operation that is named. -/
inductive WorkerPosition where
  | start (jobs : List String)
  | read (jobs : List String)
  | markRunning (customId : String) (jobs : List String)
  | submit (customId : String) (jobs : List String)
  | settle (customId : String) (jobs : List String)
  | finish (status : JobStatus)
  | done
  deriving DecidableEq, Repr

/-- Where a cancel call stands after its update of the items. -/
inductive CancelPosition where
  | read
  | finish (status : JobStatus)
  deriving DecidableEq, Repr

/-- The batch, its worker and the cancel calls that are under way. -/
structure BatchSystem where
  batch : ImageBatch
  worker : WorkerPosition
  cancels : List CancelPosition := []
  deriving DecidableEq, Repr

/-- A batch that was created with the given items, and its worker. -/
def BatchSystem.created (customIds : List String) : BatchSystem :=
  { batch := imageBatchCreate customIds, worker := .start customIds }

/-- The next operation of the worker (with the answer, where it waits for one), a
new cancel call, or the next operation of one that is under way. -/
inductive BatchAction where
  | worker (answer : ImageAnswer)
  | cancel
  | cancelNext (i : ℕ)
  deriving DecidableEq, Repr

/-- The worker's next operation. -/
def workerStep (s : BatchSystem) (answer : ImageAnswer) : Option BatchSystem :=
  match s.worker with
  | .start jobs => some { s with batch := imageBatchStart s.batch, worker := .read jobs }
  | .read [] => some { s with worker := .finish (workerOutcome s.batch.items) }
  | .read (customId :: jobs) =>
    if batchItemState s.batch customId = some .queued then
      some { s with worker := .markRunning customId jobs }
    else some { s with worker := .read jobs }
  | .markRunning customId jobs =>
    -- without a second look at the item
    some { s with
      batch := imageBatchItemUpdate s.batch customId .running none none
      worker := .submit customId jobs }
  | .submit customId jobs => some { s with worker := .settle customId jobs }
  | .settle customId jobs =>
    let (status, outputRef, errorCode) := answer.final
    some { s with
      batch := imageBatchItemUpdate s.batch customId status outputRef errorCode
      worker := .read jobs }
  | .finish status => some { s with batch := imageBatchFinish s.batch status, worker := .done }
  | .done => none

/-- The next operation of a cancel call. -/
def cancelStep (s : BatchSystem) (i : ℕ) : Option BatchSystem :=
  match s.cancels[i]? with
  | none => none
  | some .read =>
    if s.batch.items.any BatchItem.active then some { s with cancels := s.cancels.eraseIdx i }
    else some { s with cancels := s.cancels.set i (.finish (cancelOutcome s.batch.items)) }
  | some (.finish status) =>
    some { s with batch := imageBatchFinish s.batch status, cancels := s.cancels.eraseIdx i }

/-- One operation of one party. -/
def batchStep (s : BatchSystem) : BatchAction → Option BatchSystem
  | .worker answer => workerStep s answer
  | .cancel =>
    some { s with batch := imageBatchCancelPending s.batch, cancels := .read :: s.cancels }
  | .cancelNext i => cancelStep s i

end CodexRouter
