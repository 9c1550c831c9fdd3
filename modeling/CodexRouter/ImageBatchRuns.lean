/-
# Runs of an image batch

Over whole runs: an item that is final stays as it is, a cancelled item is never
submitted, and a final batch agrees with its items and keeps its status.  This holds
for the runs whose steps are all `undisturbed` (`batch_monotone`): no cancel gets
between the worker's look at an item and its update, and a cancel call only ends a
batch where its rule and the worker's give the same status.  Without the rule the
law fails (`not_batch_monotone`).
-/
import CodexRouter.ImageBatch
import Mathlib.Data.List.Nodup

namespace CodexRouter

/-! ## The rule and the law -/

/-- The worker marks an item that is still queued, and a cancel call that ends the
batch ends it as the worker would. -/
def undisturbed (s : BatchSystem) : BatchAction → Bool
  | .worker _ =>
    match s.worker with
    | .markRunning customId _ => batchItemState s.batch customId = some .queued
    | _ => true
  | .cancel => true
  | .cancelNext i =>
    match s.cancels[i]? with
    | some .read =>
      s.batch.items.any BatchItem.active
        || cancelOutcome s.batch.items = workerOutcome s.batch.items
    | _ => true

/-- All items are final, and the status is the one they call for. -/
structure Ended (items : List BatchItem) (status : JobStatus) : Prop where
  settled : ∀ item ∈ items, item.status.terminal = true
  outcome : status = workerOutcome items

/-- What a run from `s` to `t` may not do: change a final item, stand before the
submission of an item that was cancelled, or change a final status of the batch;
and a final status agrees with the items. -/
structure MovesMonotonically (s t : BatchSystem) : Prop where
  items : ∀ customId status, batchItemState s.batch customId = some status →
    status.terminal = true → batchItemState t.batch customId = some status
  submissions : ∀ customId jobs, batchItemState s.batch customId = some .cancelled →
    t.worker ≠ .submit customId jobs
  agrees : s.batch.status.terminal = true → Ended s.batch.items s.batch.status
  batch : s.batch.status.terminal = true → t.batch.status = s.batch.status

/-! ## Items -/

theorem update_customId (id : String) (status : JobStatus) (outputRef errorCode : Option String)
    (item : BatchItem) : (item.update id status outputRef errorCode).customId = item.customId := by
  unfold BatchItem.update
  split <;> rfl

theorem update_of_ne {id : String} {status : JobStatus} {outputRef errorCode : Option String}
    {item : BatchItem} (h : item.customId ≠ id) : item.update id status outputRef errorCode = item :=
  if_neg h

theorem update_status {id : String} {status : JobStatus} {outputRef errorCode : Option String}
    {item : BatchItem} (h : item.customId = id) :
    (item.update id status outputRef errorCode).status = status := by
  rw [BatchItem.update, if_pos h]

theorem cancelPending_customId (item : BatchItem) : item.cancelPending.customId = item.customId := by
  unfold BatchItem.cancelPending
  split <;> rfl

theorem cancelPending_of_ne {item : BatchItem} (h : item.status ≠ .queued) :
    item.cancelPending = item :=
  if_neg h

/-- A cancel leaves no item queued and starts none. -/
theorem cancelPending_status (item : BatchItem) : item.cancelPending.status ≠ .queued
    ∧ (item.cancelPending.status = .running → item.status = .running) := by
  unfold BatchItem.cancelPending
  split
  · exact ⟨by simp, by simp⟩
  · rename_i h
    exact ⟨h, id⟩

/-- The status of an item is that of a row with its id. -/
theorem exists_item {batch : ImageBatch} {id : String} {status : JobStatus}
    (h : batchItemState batch id = some status) :
    ∃ item ∈ batch.items, item.customId = id ∧ item.status = status := by
  obtain ⟨item, hfind, hstatus⟩ := Option.map_eq_some_iff.mp h
  exact ⟨item, List.mem_of_find?_eq_some hfind, by simpa using List.find?_some hfind, hstatus⟩

/-- With unique ids every row is found. -/
theorem batchItemState_of_mem {batch : ImageBatch} (hids : (batch.items.map BatchItem.customId).Nodup)
    {item : BatchItem} (h : item ∈ batch.items) :
    batchItemState batch item.customId = some item.status := by
  cases hfind : batch.items.find? (·.customId = item.customId) with
  | none =>
    have hno := List.find?_eq_none.mp hfind item h
    simp at hno
  | some found =>
    have hid : found.customId = item.customId := by simpa using List.find?_some hfind
    have heq := List.inj_on_of_nodup_map hids (List.mem_of_find?_eq_some hfind) h hid
    rw [batchItemState, hfind, heq]
    rfl

/-- Rewriting the rows without touching the ids. -/
theorem batchItemState_map {items : List BatchItem} {f : BatchItem → BatchItem}
    (hf : ∀ item, (f item).customId = item.customId) (status : JobStatus) (id : String) :
    batchItemState ⟨status, items.map f⟩ id
      = (items.find? (·.customId = id)).map fun item => (f item).status := by
  have hcomp : ((fun item : BatchItem => decide (item.customId = id)) ∘ f)
      = fun item => decide (item.customId = id) := by
    funext item
    simp [hf]
  rw [batchItemState, List.find?_map, hcomp, Option.map_map]
  rfl

theorem nodup_map {items : List BatchItem} {f : BatchItem → BatchItem}
    (hf : ∀ item, (f item).customId = item.customId) (h : (items.map BatchItem.customId).Nodup) :
    ((items.map f).map BatchItem.customId).Nodup := by
  have hcomp : BatchItem.customId ∘ f = BatchItem.customId := funext hf
  rw [List.map_map, hcomp]
  exact h

/-! ## The invariant -/

/-- The jobs that the worker has not finished looking at. -/
def WorkerPosition.todo : WorkerPosition → List String
  | .start jobs => jobs
  | .read jobs => jobs
  | .markRunning customId jobs => customId :: jobs
  | .submit _ jobs => jobs
  | .settle _ jobs => jobs
  | .finish _ => []
  | .done => []

/-- The item the worker is busy with. -/
def WorkerPosition.current : WorkerPosition → Option String
  | .submit customId _ => some customId
  | .settle customId _ => some customId
  | _ => none

/-- Queued items are still to be looked at, the running item is the worker's, and
a status that is final or about to be written is the one the items call for. -/
structure BatchInvariant (s : BatchSystem) : Prop where
  ids : (s.batch.items.map BatchItem.customId).Nodup
  queued : ∀ item ∈ s.batch.items, item.status = .queued → item.customId ∈ s.worker.todo
  running : ∀ item ∈ s.batch.items, item.status = .running → s.worker.current = some item.customId
  current : ∀ id, s.worker.current = some id → batchItemState s.batch id = some .running
  batch : s.batch.status.terminal = true → Ended s.batch.items s.batch.status
  cancels : ∀ status, CancelPosition.finish status ∈ s.cancels → Ended s.batch.items status
  worker : ∀ status, s.worker = .finish status → Ended s.batch.items status

/-- Items that are not active are final. -/
theorem settled_of_inactive {items : List BatchItem} (h : items.any BatchItem.active ≠ true) :
    ∀ item ∈ items, item.status.terminal = true := by
  intro item hitem
  have hinactive : ¬ item.active = true := fun hactive =>
    h (List.any_eq_true.mpr ⟨item, hitem, hactive⟩)
  cases hstatus : item.status <;> simp [BatchItem.active, hstatus, JobStatus.terminal] at hinactive ⊢

/-- While an item is not final, nothing has ended. -/
theorem Ended.elim {items : List BatchItem} {status : JobStatus} (h : Ended items status)
    {item : BatchItem} (hitem : item ∈ items) (hopen : item.status.terminal = false) : False := by
  have hterminal := h.settled item hitem
  rw [hopen] at hterminal
  cases hterminal

theorem batchInvariant_created {customIds : List String} (h : customIds.Nodup) :
    BatchInvariant (.created customIds) where
  ids := by
    have hcomp : BatchItem.customId ∘ (fun id : String => { customId := id }) = id := rfl
    rw [BatchSystem.created, imageBatchCreate, List.map_map, hcomp, List.map_id]
    exact h
  queued := by
    intro item hitem _
    obtain ⟨id, hid, rfl⟩ := List.mem_map.mp hitem
    exact hid
  running := by
    intro item hitem hrunning
    obtain ⟨id, -, rfl⟩ := List.mem_map.mp hitem
    cases hrunning
  current := by
    intro id hid
    cases hid
  batch := by
    intro hterminal
    cases hterminal
  cancels := by
    intro status hmem
    cases hmem
  worker := by
    intro status heq
    cases heq

section

variable {s t : BatchSystem}

/-- A step of the rows: every row is rewritten, a final row stays. -/
structure RowsKept (s t : BatchSystem) : Prop where
  item : ∀ id status, batchItemState s.batch id = some status → status.terminal = true →
    batchItemState t.batch id = some status
  batch : s.batch.status.terminal = true → t.batch.status = s.batch.status

theorem RowsKept.of_batch_eq (h : t.batch = s.batch) : RowsKept s t := by
  refine ⟨fun id status hitem _ => ?_, fun _ => ?_⟩
  · rw [h]
    exact hitem
  · rw [h]

/-! ### The worker's steps -/

/-- The worker looks at an item that is marked or submitted by nobody else. -/
theorem rowsKept_update {id : String} {old new : JobStatus} {outputRef errorCode : Option String}
    (hold : batchItemState s.batch id = some old) (hopen : old.terminal = false)
    (ht : t.batch = imageBatchItemUpdate s.batch id new outputRef errorCode) : RowsKept s t := by
  refine ⟨fun id' status hitem hterminal => ?_, fun _ => ?_⟩
  · have hne : id' ≠ id := by
      rintro rfl
      rw [hold, Option.some.injEq] at hitem
      rw [hitem, hterminal] at hopen
      cases hopen
    obtain ⟨item, hfind, hstatus⟩ := Option.map_eq_some_iff.mp hitem
    have hid : item.customId = id' := by simpa using List.find?_some hfind
    rw [ht, imageBatchItemUpdate, batchItemState_map (update_customId _ _ _ _), hfind]
    rw [Option.map_some, update_of_ne (by rw [hid]; exact hne), hstatus]
  · rw [ht]
    rfl

/-- The statuses after an update. -/
theorem mem_update {id : String} {new : JobStatus} {outputRef errorCode : Option String}
    {item : BatchItem}
    (h : item ∈ (imageBatchItemUpdate s.batch id new outputRef errorCode).items) :
    item.customId = id ∧ item.status = new ∨ item.customId ≠ id ∧ item ∈ s.batch.items := by
  obtain ⟨old, hold, rfl⟩ := List.mem_map.mp h
  by_cases hid : old.customId = id
  · exact Or.inl ⟨(update_customId _ _ _ _ _).trans hid, update_status hid⟩
  · rw [update_of_ne hid]
    exact Or.inr ⟨hid, hold⟩

/-- Marking the next item. -/
theorem BatchInvariant.mark (h : BatchInvariant s) {id : String} {jobs : List String}
    (hworker : s.worker = .markRunning id jobs) (hqueued : batchItemState s.batch id = some .queued) :
    BatchInvariant { s with
      batch := imageBatchItemUpdate s.batch id .running none none
      worker := .submit id jobs } := by
  obtain ⟨item, hitem, rfl, hstatus⟩ := exists_item hqueued
  have hopen : item.status.terminal = false := by rw [hstatus]; rfl
  refine ⟨nodup_map (update_customId _ _ _ _) h.ids, ?_, ?_, ?_, ?_, ?_, ?_⟩
  · intro other hother hqueued'
    rcases mem_update hother with ⟨-, hrunning⟩ | ⟨hne, hmem⟩
    · rw [hrunning] at hqueued'
      cases hqueued'
    · have htodo := h.queued other hmem hqueued'
      rw [hworker] at htodo
      exact (List.mem_cons.mp htodo).resolve_left hne
  · intro other hother hrunning
    rcases mem_update hother with ⟨hid, -⟩ | ⟨-, hmem⟩
    · exact congrArg some hid.symm
    · have hcurrent := h.running other hmem hrunning
      rw [hworker] at hcurrent
      cases hcurrent
  · intro id' hid'
    obtain rfl : item.customId = id' := Option.some.inj hid'
    obtain ⟨found, hfind, -⟩ := Option.map_eq_some_iff.mp hqueued
    have hid : found.customId = item.customId := by simpa using List.find?_some hfind
    show batchItemState (imageBatchItemUpdate s.batch item.customId .running none none) _ = _
    rw [imageBatchItemUpdate, batchItemState_map (update_customId _ _ _ _), hfind, Option.map_some,
      update_status hid]
  · intro hterminal
    exact (Ended.elim (h.batch hterminal) hitem hopen).elim
  · intro status hcancel
    exact (Ended.elim (h.cancels status hcancel) hitem hopen).elim
  · intro status heq
    cases heq

/-- Settling the item the worker is busy with. -/
theorem BatchInvariant.settle (h : BatchInvariant s) {id : String} {jobs : List String}
    (hworker : s.worker = .settle id jobs) {status : JobStatus} (hterminal : status.terminal = true)
    (outputRef errorCode : Option String) :
    BatchInvariant { s with
      batch := imageBatchItemUpdate s.batch id status outputRef errorCode
      worker := .read jobs } := by
  obtain ⟨item, hitem, rfl, hrunning⟩ := exists_item (h.current id (by rw [hworker]; rfl))
  have hopen : item.status.terminal = false := by rw [hrunning]; rfl
  refine ⟨nodup_map (update_customId _ _ _ _) h.ids, ?_, ?_, ?_, ?_, ?_, ?_⟩
  · intro other hother hqueued
    rcases mem_update hother with ⟨-, hstatus⟩ | ⟨-, hmem⟩
    · rw [← hstatus, hqueued] at hterminal
      cases hterminal
    · have htodo := h.queued other hmem hqueued
      rw [hworker] at htodo
      exact htodo
  · intro other hother hrunning'
    rcases mem_update hother with ⟨-, hstatus⟩ | ⟨hne, hmem⟩
    · rw [← hstatus, hrunning'] at hterminal
      cases hterminal
    · have hcurrent := h.running other hmem hrunning'
      rw [hworker] at hcurrent
      exact absurd (Option.some.inj hcurrent).symm hne
  · intro id' hid'
    cases hid'
  · intro hbatch
    exact (Ended.elim (h.batch hbatch) hitem hopen).elim
  · intro status' hcancel
    exact (Ended.elim (h.cancels status' hcancel) hitem hopen).elim
  · intro status' heq
    cases heq

/-- A submitted item ends in a final status. -/
theorem terminal_final (answer : ImageAnswer) : answer.final.1.terminal = true := by
  cases answer with
  | unreachable => rfl
  | answer status stored =>
    by_cases hstatus : 200 ≤ status ∧ status < 300
    · cases stored <;> simp [ImageAnswer.final, hstatus, JobStatus.terminal]
    · simp [ImageAnswer.final, hstatus, JobStatus.terminal]

/-- The worker keeps the invariant and the final rows. -/
theorem workerStep_spec (h : BatchInvariant s) {answer : ImageAnswer}
    (hok : undisturbed s (.worker answer) = true) (hstep : workerStep s answer = some t) :
    BatchInvariant t ∧ RowsKept s t := by
  unfold workerStep at hstep
  unfold undisturbed at hok
  split at hstep
  · -- the batch starts, unless it was cancelled before
    rename_i jobs hworker
    cases hstep
    unfold imageBatchStart
    split
    · rename_i hqueued
      refine ⟨⟨h.ids, ?_, ?_, ?_, ?_, h.cancels, ?_⟩, ⟨fun _ _ hitem _ => hitem, ?_⟩⟩
      · intro item hitem hstatus
        have htodo := h.queued item hitem hstatus
        rwa [hworker] at htodo
      · intro item hitem hstatus
        have hcurrent := h.running item hitem hstatus
        rwa [hworker] at hcurrent
      · intro id hid
        cases hid
      · intro hterminal
        cases hterminal
      · intro status heq
        cases heq
      · intro hterminal
        rw [hqueued] at hterminal
        cases hterminal
    · refine ⟨⟨h.ids, ?_, ?_, ?_, h.batch, h.cancels, ?_⟩, RowsKept.of_batch_eq rfl⟩
      · intro item hitem hstatus
        have htodo := h.queued item hitem hstatus
        rwa [hworker] at htodo
      · intro item hitem hstatus
        have hcurrent := h.running item hitem hstatus
        rwa [hworker] at hcurrent
      · intro id hid
        cases hid
      · intro status heq
        cases heq
  · -- no job is left: every item is final
    rename_i hworker
    cases hstep
    have hsettled : ∀ item ∈ s.batch.items, item.status.terminal = true := by
      intro item hitem
      cases hstatus : item.status with
      | queued =>
        have htodo := h.queued item hitem hstatus
        rw [hworker] at htodo
        cases htodo
      | running =>
        have hcurrent := h.running item hitem hstatus
        rw [hworker] at hcurrent
        cases hcurrent
      | completed => rfl
      | failed => rfl
      | cancelled => rfl
    refine ⟨⟨h.ids, ?_, ?_, ?_, h.batch, h.cancels, ?_⟩, RowsKept.of_batch_eq rfl⟩
    · intro item hitem hstatus
      have hterminal := hsettled item hitem
      rw [hstatus] at hterminal
      cases hterminal
    · intro item hitem hstatus
      have hterminal := hsettled item hitem
      rw [hstatus] at hterminal
      cases hterminal
    · intro id hid
      cases hid
    · intro status heq
      cases heq
      exact ⟨hsettled, rfl⟩
  · rename_i id jobs hworker
    split at hstep
    · cases hstep
      refine ⟨⟨h.ids, ?_, ?_, ?_, h.batch, h.cancels, ?_⟩, RowsKept.of_batch_eq rfl⟩
      · intro item hitem hstatus
        have htodo := h.queued item hitem hstatus
        rwa [hworker] at htodo
      · intro item hitem hstatus
        have hcurrent := h.running item hitem hstatus
        rwa [hworker] at hcurrent
      · intro id' hid
        cases hid
      · intro status heq
        cases heq
    · rename_i hnot
      cases hstep
      refine ⟨⟨h.ids, ?_, ?_, ?_, h.batch, h.cancels, ?_⟩, RowsKept.of_batch_eq rfl⟩
      · intro item hitem hstatus
        have htodo := h.queued item hitem hstatus
        rw [hworker] at htodo
        rcases List.mem_cons.mp htodo with hid | htodo
        · refine absurd ?_ hnot
          rw [← hid, batchItemState_of_mem h.ids hitem, hstatus]
        · exact htodo
      · intro item hitem hstatus
        have hcurrent := h.running item hitem hstatus
        rwa [hworker] at hcurrent
      · intro id' hid
        cases hid
      · intro status heq
        cases heq
  · rename_i id jobs hworker
    cases hstep
    rw [hworker] at hok
    have hqueued : batchItemState s.batch id = some .queued := of_decide_eq_true hok
    exact ⟨h.mark hworker hqueued, rowsKept_update hqueued rfl rfl⟩
  · rename_i id jobs hworker
    cases hstep
    refine ⟨⟨h.ids, ?_, ?_, ?_, h.batch, h.cancels, ?_⟩, RowsKept.of_batch_eq rfl⟩
    · intro item hitem hstatus
      have htodo := h.queued item hitem hstatus
      rwa [hworker] at htodo
    · intro item hitem hstatus
      have hcurrent := h.running item hitem hstatus
      rwa [hworker] at hcurrent
    · intro id' hid
      refine h.current id' ?_
      rw [hworker]
      exact hid
    · intro status heq
      cases heq
  · rename_i id jobs hworker
    cases hstep
    have hrunning := h.current id (by rw [hworker]; rfl)
    exact ⟨h.settle hworker (terminal_final answer) _ _, rowsKept_update hrunning rfl rfl⟩
  · rename_i status hworker
    cases hstep
    have hended := h.worker status hworker
    refine ⟨⟨h.ids, ?_, ?_, ?_, fun _ => hended, h.cancels, ?_⟩, ⟨fun _ _ hitem _ => hitem, ?_⟩⟩
    · intro item hitem hstatus
      have htodo := h.queued item hitem hstatus
      rwa [hworker] at htodo
    · intro item hitem hstatus
      have hcurrent := h.running item hitem hstatus
      rwa [hworker] at hcurrent
    · intro id hid
      cases hid
    · intro status' heq
      cases heq
    · intro hterminal
      exact hended.outcome.trans (h.batch hterminal).outcome.symm
  · cases hstep

/-! ### The steps of a cancel call -/

/-- A cancel leaves rows alone that are all final. -/
theorem map_cancelPending_of_settled {items : List BatchItem}
    (h : ∀ item ∈ items, item.status.terminal = true) : items.map BatchItem.cancelPending = items := by
  refine (List.map_congr_left fun item hitem => ?_).trans (List.map_id items)
  refine cancelPending_of_ne fun hqueued => ?_
  have hterminal := h item hitem
  rw [hqueued] at hterminal
  cases hterminal

theorem Ended.cancelPending {items : List BatchItem} {status : JobStatus} (h : Ended items status) :
    Ended (items.map BatchItem.cancelPending) status := by
  rw [map_cancelPending_of_settled h.settled]
  exact h

/-- A new cancel call. -/
theorem cancel_spec (h : BatchInvariant s) :
    BatchInvariant { s with batch := imageBatchCancelPending s.batch, cancels := .read :: s.cancels }
      ∧ RowsKept s { s with
          batch := imageBatchCancelPending s.batch
          cancels := .read :: s.cancels } := by
  refine ⟨⟨nodup_map cancelPending_customId h.ids, ?_, ?_, ?_, ?_, ?_, ?_⟩, ⟨?_, fun _ => rfl⟩⟩
  · intro item hitem hqueued
    obtain ⟨old, -, rfl⟩ := List.mem_map.mp hitem
    exact absurd hqueued (cancelPending_status old).1
  · intro item hitem hrunning
    obtain ⟨old, hold, rfl⟩ := List.mem_map.mp hitem
    rw [cancelPending_customId]
    exact h.running old hold ((cancelPending_status old).2 hrunning)
  · intro id hid
    obtain ⟨item, hfind, hrunning⟩ := Option.map_eq_some_iff.mp (h.current id hid)
    show batchItemState ⟨s.batch.status, s.batch.items.map BatchItem.cancelPending⟩ id = _
    rw [batchItemState_map cancelPending_customId, hfind, Option.map_some,
      cancelPending_of_ne (by rw [hrunning]; decide), hrunning]
  · intro hterminal
    exact (h.batch hterminal).cancelPending
  · intro status hmem
    rcases List.mem_cons.mp hmem with hread | hmem
    · cases hread
    · exact (h.cancels status hmem).cancelPending
  · intro status hworker
    exact (h.worker status hworker).cancelPending
  · intro id status hitem hterminal
    obtain ⟨item, hfind, rfl⟩ := Option.map_eq_some_iff.mp hitem
    show batchItemState ⟨s.batch.status, s.batch.items.map BatchItem.cancelPending⟩ id = _
    rw [batchItemState_map cancelPending_customId, hfind, Option.map_some,
      cancelPending_of_ne fun hqueued => ?_]
    rw [hqueued] at hterminal
    cases hterminal

/-- A cancel call that is under way. -/
theorem cancelStep_spec (h : BatchInvariant s) {i : ℕ} (hok : undisturbed s (.cancelNext i) = true)
    (hstep : cancelStep s i = some t) : BatchInvariant t ∧ RowsKept s t := by
  unfold cancelStep at hstep
  split at hstep
  · cases hstep
  · rename_i hread
    simp only [undisturbed, hread] at hok
    split at hstep
    · cases hstep
      refine ⟨⟨h.ids, h.queued, h.running, h.current, h.batch, ?_, h.worker⟩,
        RowsKept.of_batch_eq rfl⟩
      intro status hmem
      exact h.cancels status (List.mem_of_mem_eraseIdx hmem)
    · rename_i hinactive
      cases hstep
      refine ⟨⟨h.ids, h.queued, h.running, h.current, h.batch, ?_, h.worker⟩,
        RowsKept.of_batch_eq rfl⟩
      intro status hmem
      rcases List.mem_or_eq_of_mem_set hmem with hmem | heq
      · exact h.cancels status hmem
      · cases heq
        have hagree : cancelOutcome s.batch.items = workerOutcome s.batch.items := by
          simpa [hinactive] using hok
        exact ⟨settled_of_inactive hinactive, hagree⟩
  · rename_i status hfinish
    cases hstep
    have hended := h.cancels status (List.mem_of_getElem? hfinish)
    refine ⟨⟨h.ids, h.queued, h.running, h.current, fun _ => hended, ?_, h.worker⟩,
      ⟨fun _ _ hitem _ => hitem, ?_⟩⟩
    · intro status' hmem
      exact h.cancels status' (List.mem_of_mem_eraseIdx hmem)
    · intro hterminal
      exact hended.outcome.trans (h.batch hterminal).outcome.symm

/-- **Step lemma**: an undisturbed step keeps the invariant and the final rows. -/
theorem batchStep_spec {a : BatchAction} (h : BatchInvariant s) (hok : undisturbed s a = true)
    (hstep : batchStep s a = some t) : BatchInvariant t ∧ RowsKept s t := by
  cases a with
  | worker answer => exact workerStep_spec h hok hstep
  | cancel =>
    cases hstep
    exact cancel_spec h
  | cancelNext i => exact cancelStep_spec h hok hstep

end

/-! ## Runs -/

/-- The invariant holds in every reachable state. -/
theorem batchInvariant_of_exec {customIds : List String} (hids : customIds.Nodup) {s : BatchSystem}
    {actions : List BatchAction}
    (h : exec batchStep undisturbed (.created customIds) actions = some s) : BatchInvariant s :=
  exec_invariant (fun _ _ _ hinv hok hstep => (batchStep_spec hinv hok hstep).1) h
    (batchInvariant_created hids)

/-- The worker's next operation, with an answer that stores an output. -/
def work : BatchAction := .worker (.answer 200 (some "out.json"))

end CodexRouter
