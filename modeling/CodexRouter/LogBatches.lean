/-
# The batches of log records

`BatchEmitter` hands the records of the log reader to the window in batches, over a channel of bounded capacity.  A
batch that finds the channel full is dropped and counted, and the next one that is accepted starts with a line that
says how much was dropped.

What the emitter is for is a ledger in which every record has one fate (`Fate`).  `Accounts` connects the buffer, the
accepted batches and the counters to such a ledger, and `Kept` is what every call preserves: the ledger is a settled
part, in which nothing is buffered, and the part since the last batch, in which nothing is delivered.

A batch has room for the line of its summary because the numbers in it have at most twenty digits
(`utf8ByteSize_droppedSummary`).
-/
import CodexRouter.Base.Ledger
import Mathlib.Data.List.Induction
import Mathlib.Data.String.Basic
import Mathlib.Algebra.BigOperators.Group.List.Basic
import Mathlib.Algebra.Ring.Nat

namespace CodexRouter

open Ledger

/-- `MAX_BATCH_BYTES`. -/
def maxBatchBytes : ℕ := 32 * 1024

/-- `MAX_BATCH_RECORDS`. -/
def maxBatchRecords : ℕ := 64

/-- `DROPPED_SUMMARY_RESERVE_BYTES`. -/
def droppedSummaryReserveBytes : ℕ := 256

/-- `u64::MAX`. -/
def u64Max : ℕ := 2 ^ 64 - 1

/-- `u64::saturating_add`. -/
def saturatingAdd (a b : ℕ) : ℕ := min (a + b) u64Max

/-! ## Batches -/

/-- The bytes of a record, with its line end. -/
def recordBytes (record : String) : ℕ := record.utf8ByteSize + 1

/-- `RuntimeLogBatch`. -/
structure RuntimeLogBatch where
  records : List String
  deriving DecidableEq, Repr

/-- `byte_len`. -/
def RuntimeLogBatch.byteLen (batch : RuntimeLogBatch) : ℕ := (batch.records.map recordBytes).sum

/-- The counters a summary reports. -/
structure DroppedCounts where
  records : ℕ
  batches : ℕ
  bytes : ℕ
  deriving DecidableEq, Repr

/-- `dropped_summary`. -/
def droppedSummary (counts : DroppedCounts) : String :=
  "[Runtime log reader] class=queue_overflow | dropped_records=" ++ toString counts.records
    ++ " | dropped_batches=" ++ toString counts.batches ++ " | dropped_bytes=" ++ toString counts.bytes

/-- What `try_send` answers. -/
inductive SendOutcome
  | accepted
  | full
  | disconnected
  deriving DecidableEq, Repr

/-- One `try_send`: the counters that are reported, the records that were buffered, and the answer. -/
structure BatchSend where
  summary : Option DroppedCounts
  payload : List String
  outcome : SendOutcome
  deriving DecidableEq, Repr

/-- The batch that is handed to the channel. -/
def BatchSend.batch (send : BatchSend) : RuntimeLogBatch :=
  ⟨(send.summary.map droppedSummary).toList ++ send.payload⟩

/-! ## The emitter -/

/-- `BatchEmitter`: `tx` is what has been handed to the channel so far.  The last field is not in the code: it tells
that the count of the dropped records has been cut off at its bound. -/
structure BatchEmitter where
  tx : List BatchSend := []
  records : List String := []
  bytes : ℕ := 0
  droppedRecords : ℕ := 0
  droppedBatches : ℕ := 0
  droppedBytes : ℕ := 0
  disconnected : Bool := false
  saturated : Bool := false
  deriving DecidableEq, Repr

/-- The bytes of the records in a batch, without its summary. -/
def payloadLimit : ℕ := maxBatchBytes - droppedSummaryReserveBytes

/-- The records in a batch, without its summary. -/
def payloadRecords : ℕ := maxBatchRecords - 1

namespace BatchEmitter

/-- `note_dropped`. -/
def noteDropped (emitter : BatchEmitter) (records batches bytes : ℕ) : BatchEmitter :=
  { emitter with
    droppedRecords := saturatingAdd emitter.droppedRecords records
    droppedBatches := saturatingAdd emitter.droppedBatches batches
    droppedBytes := saturatingAdd emitter.droppedBytes bytes
    saturated := emitter.saturated || u64Max < emitter.droppedRecords + records }

/-- The counters, when there is something to report. -/
def summary (emitter : BatchEmitter) : Option DroppedCounts :=
  if 0 < emitter.droppedRecords then
    some ⟨emitter.droppedRecords, emitter.droppedBatches, emitter.droppedBytes⟩
  else none

/-- `flush`, where the buffer is handed to the channel. -/
def handOver (emitter : BatchEmitter) (outcome : SendOutcome) : BatchEmitter :=
  { emitter with
    records := []
    bytes := 0
    tx := emitter.tx ++ [⟨emitter.summary, emitter.records, outcome⟩] }

section

variable (channel : ℕ → SendOutcome)

/-- `flush`, on a channel that gives the answer `channel n` to the `n`-th batch. -/
def flush (emitter : BatchEmitter) : BatchEmitter :=
  if emitter.disconnected || (emitter.records = [] && emitter.droppedRecords = 0) then emitter
  else
    match channel emitter.tx.length with
    | .accepted => { emitter.handOver .accepted with droppedRecords := 0, droppedBatches := 0, droppedBytes := 0 }
    | .full =>
      if 0 < emitter.records.length then
        (emitter.handOver .full).noteDropped emitter.records.length 1 emitter.bytes
      else emitter.handOver .full
    | .disconnected => { emitter.handOver .disconnected with disconnected := true }

/-- `push`, where the buffer has no room for a record of this size. -/
def makeRoom (emitter : BatchEmitter) (size : ℕ) : BatchEmitter :=
  if emitter.records ≠ [] ∧ (payloadRecords ≤ emitter.records.length ∨ payloadLimit < emitter.bytes + size) then
    emitter.flush channel
  else emitter

/-- `push`, where the record is put into the buffer. -/
def put (emitter : BatchEmitter) (record : String) : BatchEmitter :=
  { emitter with bytes := emitter.bytes + recordBytes record, records := emitter.records ++ [record] }

/-- `push`, where the buffer may be full. -/
def flushFull (emitter : BatchEmitter) : BatchEmitter :=
  if payloadRecords ≤ emitter.records.length ∨ payloadLimit ≤ emitter.bytes then emitter.flush channel else emitter

/-- `push`. -/
def push (emitter : BatchEmitter) (record : String) : BatchEmitter :=
  if emitter.disconnected then emitter
  else if payloadLimit < recordBytes record then emitter.noteDropped 1 1 (recordBytes record)
  else ((emitter.makeRoom channel (recordBytes record)).put record).flushFull channel

end

end BatchEmitter

/-! ## Runs -/

/-- A call of the log reader. -/
inductive EmitterCall
  | push (record : String)
  | flush
  deriving DecidableEq, Repr

/-- The records that are pushed. -/
def pushedRecords (calls : List EmitterCall) : List String :=
  calls.filterMap fun
    | .push record => some record
    | .flush => none

namespace BatchEmitter

section

variable (channel : ℕ → SendOutcome)

/-- One call. -/
def call (emitter : BatchEmitter) : EmitterCall → BatchEmitter
  | .push record => emitter.push channel record
  | .flush => emitter.flush channel

/-- The calls on a new emitter. -/
def run (calls : List EmitterCall) : BatchEmitter := calls.foldl (call channel) {}

end

/-- The batches that got through. -/
def accepted (emitter : BatchEmitter) : List BatchSend := emitter.tx.filter fun send => send.outcome = .accepted

/-- The records that got through, in the order of their batches. -/
def delivered (emitter : BatchEmitter) : List String := emitter.accepted.flatMap BatchSend.payload

/-- What the summaries that got through report. -/
def reported (emitter : BatchEmitter) : ℕ :=
  (emitter.accepted.map fun send => (send.summary.map DroppedCounts.records).getD 0).sum

end BatchEmitter

/-- What becomes of a record. -/
inductive Fate
  | delivered
  | buffered
  | dropped
  deriving DecidableEq, Repr

/-- The ledger accounts for the pushed records: each has one fate, the delivered ones are those of the accepted
batches and the buffered ones those of the buffer, in the order they were pushed, and the dropped ones are as many as
the summaries that got through and the counter say. -/
structure Accounts (pushed : List String) (emitter : BatchEmitter) (ledger : List (String × Fate)) : Prop where
  pushed : ledger.map Prod.fst = pushed
  delivered : having .delivered ledger = emitter.delivered
  buffered : having .buffered ledger = emitter.records
  dropped : emitter.saturated = false → emitter.reported + emitter.droppedRecords = (having .dropped ledger).length

/-- A batch keeps to its bounds. -/
def RuntimeLogBatch.Bounded (batch : RuntimeLogBatch) : Prop :=
  batch.records.length ≤ maxBatchRecords ∧ batch.byteLen ≤ maxBatchBytes

/-- What is asked of the emitter. -/
structure AccountsForRecords (channel : ℕ → SendOutcome) (calls : List EmitterCall) : Prop where
  /-- Up to a disconnect, every record is accounted for. -/
  ledger : (BatchEmitter.run channel calls).disconnected = false →
    ∃ ledger, Accounts (pushedRecords calls) (BatchEmitter.run channel calls) ledger
  /-- The count of the dropped records is not cut off before as many have been pushed. -/
  exact : (pushedRecords calls).length ≤ u64Max → (BatchEmitter.run channel calls).saturated = false
  /-- Every batch keeps to its bounds. -/
  bounded : ∀ send ∈ (BatchEmitter.run channel calls).tx, send.batch.Bounded

/-! ## The line of a summary -/

theorem utf8ByteSize_toString (n : ℕ) : (toString n).utf8ByteSize = (Nat.repr n).length := by
  have hdigits : ∀ digits : List Char, (∀ c ∈ digits, c.isDigit = true) → String.utf8Len digits = digits.length := by
    intro digits hall
    induction digits with
    | nil => rfl
    | cons c digits ih =>
      rw [List.forall_mem_cons] at hall
      have hsize : c.utf8Size = 1 := by
        have hdigit := hall.1
        simp only [Char.isDigit, Bool.and_eq_true, decide_eq_true_eq] at hdigit
        have hascii : (57 : UInt32) ≤ 127 := by decide
        exact Char.utf8Size_eq_one_iff.mpr (UInt32.le_trans hdigit.2 hascii)
      rw [String.utf8Len_cons, ih hall.2, hsize, List.length_cons]
  have hrepr : toString n = String.ofList (Nat.toDigits 10 n) := Nat.repr_eq_ofList_toDigits
  rw [hrepr, String.utf8ByteSize_ofList, hdigits _ fun c hc => Nat.isDigit_of_mem_toDigits (by decide) (by decide) hc,
    Nat.repr_eq_ofList_toDigits, String.length_ofList]

/-- A counter has at most twenty digits. -/
theorem utf8ByteSize_counter {n : ℕ} (h : n ≤ u64Max) : (toString n).utf8ByteSize ≤ 20 := by
  rw [utf8ByteSize_toString, Nat.length_repr_le_iff (by decide)]
  exact h.trans_lt (by decide)

/-- The line of a summary fits into its reserve. -/
theorem recordBytes_droppedSummary {counts : DroppedCounts} (hrecords : counts.records ≤ u64Max)
    (hbatches : counts.batches ≤ u64Max) (hbytes : counts.bytes ≤ u64Max) :
    recordBytes (droppedSummary counts) ≤ droppedSummaryReserveBytes := by
  have hfirst : "[Runtime log reader] class=queue_overflow | dropped_records=".utf8ByteSize = 60 := by
    decide +kernel
  have hsecond : " | dropped_batches=".utf8ByteSize = 19 := by decide +kernel
  have hthird : " | dropped_bytes=".utf8ByteSize = 17 := by decide +kernel
  have h₁ := utf8ByteSize_counter hrecords
  have h₂ := utf8ByteSize_counter hbatches
  have h₃ := utf8ByteSize_counter hbytes
  have hline : (droppedSummary counts).utf8ByteSize = 60 + (toString counts.records).utf8ByteSize + 19
      + (toString counts.batches).utf8ByteSize + 17 + (toString counts.bytes).utf8ByteSize := by
    unfold droppedSummary
    rw [String.utf8ByteSize_append, String.utf8ByteSize_append, String.utf8ByteSize_append, String.utf8ByteSize_append,
      String.utf8ByteSize_append, hfirst, hsecond, hthird]
  have hreserve : droppedSummaryReserveBytes = 256 := rfl
  rw [recordBytes, hline, hreserve]
  omega

/-! ## The bounds of a batch -/

namespace BatchEmitter

variable {emitter : BatchEmitter} {channel : ℕ → SendOutcome} {record : String}

/-- What a flush does. -/
theorem flush_cases (emitter : BatchEmitter) (channel : ℕ → SendOutcome) :
    emitter.flush channel = emitter ∧ (emitter.disconnected = true ∨ emitter.records = [])
      ∨ emitter.disconnected = false
        ∧ (emitter.flush channel
              = { emitter.handOver .accepted with droppedRecords := 0, droppedBatches := 0, droppedBytes := 0 }
          ∨ emitter.flush channel = (emitter.handOver .full).noteDropped emitter.records.length 1 emitter.bytes
          ∨ emitter.flush channel = emitter.handOver .full ∧ emitter.records = []
          ∨ emitter.flush channel = { emitter.handOver .disconnected with disconnected := true }) := by
  unfold flush
  by_cases hskip : (emitter.disconnected || (emitter.records = [] && emitter.droppedRecords = 0)) = true
  · rw [if_pos hskip]
    simp only [Bool.or_eq_true, Bool.and_eq_true, decide_eq_true_eq] at hskip
    exact .inl ⟨rfl, hskip.imp_right And.left⟩
  · rw [if_neg hskip]
    simp only [Bool.or_eq_true, not_or, Bool.not_eq_true] at hskip
    refine .inr ⟨hskip.1, ?_⟩
    cases channel emitter.tx.length with
    | accepted => exact .inl rfl
    | full =>
      by_cases hlength : 0 < emitter.records.length
      · exact .inr (.inl (if_pos hlength))
      · exact .inr (.inr (.inl ⟨if_neg hlength, List.length_eq_zero_iff.mp (by omega)⟩))
    | disconnected => exact .inr (.inr (.inr rfl))

theorem records_flush (h : emitter.disconnected = false) : (emitter.flush channel).records = [] := by
  rcases flush_cases emitter channel with ⟨heq, hskip⟩ | ⟨-, heq | heq | ⟨heq, -⟩ | heq⟩
  · rw [heq]
    exact hskip.resolve_left (by rw [h]; exact Bool.false_ne_true)
  all_goals
    rw [heq]
    rfl

/-- The buffer and the counters keep to their bounds, and so do the batches. -/
structure Fits (emitter : BatchEmitter) : Prop where
  bytes : emitter.bytes = (emitter.records.map recordBytes).sum
  length : emitter.records.length ≤ payloadRecords
  limit : emitter.bytes ≤ payloadLimit
  droppedRecords : emitter.droppedRecords ≤ u64Max
  droppedBatches : emitter.droppedBatches ≤ u64Max
  droppedBytes : emitter.droppedBytes ≤ u64Max
  sent : ∀ send ∈ emitter.tx, send.batch.Bounded

theorem Fits.noteDropped (h : emitter.Fits) (records batches bytes : ℕ) :
    (emitter.noteDropped records batches bytes).Fits :=
  ⟨h.bytes, h.length, h.limit, min_le_right _ _, min_le_right _ _, min_le_right _ _, h.sent⟩

theorem Fits.summary (h : emitter.Fits) {counts : DroppedCounts} (hsummary : emitter.summary = some counts) :
    recordBytes (droppedSummary counts) ≤ droppedSummaryReserveBytes := by
  unfold BatchEmitter.summary at hsummary
  split at hsummary
  · obtain rfl := Option.some.inj hsummary
    exact recordBytes_droppedSummary h.droppedRecords h.droppedBatches h.droppedBytes
  · cases hsummary

/-- The batch that is handed over has room for its summary. -/
theorem Fits.bounded (h : emitter.Fits) (outcome : SendOutcome) :
    (BatchSend.batch ⟨emitter.summary, emitter.records, outcome⟩).Bounded := by
  have hbytes := h.bytes ▸ h.limit
  have hlength := h.length
  unfold payloadRecords at hlength
  unfold payloadLimit at hbytes
  have hrecords : 1 ≤ maxBatchRecords := by decide
  have hreserve : droppedSummaryReserveBytes ≤ maxBatchBytes := by decide
  cases hsummary : emitter.summary with
  | none => exact ⟨hlength.trans (Nat.sub_le _ _), hbytes.trans (Nat.sub_le _ _)⟩
  | some counts =>
    have hline := h.summary hsummary
    constructor
    · show emitter.records.length + 1 ≤ maxBatchRecords
      omega
    · show ((droppedSummary counts :: emitter.records).map recordBytes).sum ≤ maxBatchBytes
      rw [List.map_cons, List.sum_cons]
      omega

theorem Fits.handOver (h : emitter.Fits) (outcome : SendOutcome) : (emitter.handOver outcome).Fits := by
  refine ⟨rfl, Nat.zero_le _, Nat.zero_le _, h.droppedRecords, h.droppedBatches, h.droppedBytes, ?_⟩
  intro send hsend
  rcases List.mem_append.mp hsend with hold | hnew
  · exact h.sent send hold
  · rw [List.mem_singleton.mp hnew]
    exact h.bounded outcome

theorem Fits.flush (h : emitter.Fits) : (emitter.flush channel).Fits := by
  rcases flush_cases emitter channel with ⟨heq, -⟩ | ⟨-, heq | heq | ⟨heq, -⟩ | heq⟩
  · rw [heq]
    exact h
  · rw [heq]
    have htaken := h.handOver .accepted
    exact ⟨htaken.bytes, htaken.length, htaken.limit, Nat.zero_le _, Nat.zero_le _, Nat.zero_le _, htaken.sent⟩
  · rw [heq]
    exact (h.handOver .full).noteDropped _ _ _
  · rw [heq]
    exact h.handOver .full
  · rw [heq]
    have htaken := h.handOver .disconnected
    exact ⟨htaken.bytes, htaken.length, htaken.limit, htaken.droppedRecords, htaken.droppedBatches,
      htaken.droppedBytes, htaken.sent⟩

/-- There is room for a record that is not too large for any batch. -/
theorem Fits.put_makeRoom (h : emitter.Fits) (hopen : emitter.disconnected = false)
    (hrecord : recordBytes record ≤ payloadLimit) :
    ((emitter.makeRoom channel (recordBytes record)).put record).Fits := by
  have hfits : (emitter.makeRoom channel (recordBytes record)).Fits := by
    unfold makeRoom
    split
    · exact h.flush
    · exact h
  have hroom : (emitter.makeRoom channel (recordBytes record)).records = []
      ∨ (emitter.makeRoom channel (recordBytes record)).records.length < payloadRecords
        ∧ (emitter.makeRoom channel (recordBytes record)).bytes + recordBytes record ≤ payloadLimit := by
    unfold makeRoom
    split
    · exact .inl (records_flush hopen)
    · rename_i hno
      rw [not_and_or, not_ne_iff, not_or, Nat.not_le, Nat.not_lt] at hno
      exact hno
  set roomy := emitter.makeRoom channel (recordBytes record)
  have hbytes : roomy.bytes + recordBytes record = ((roomy.records ++ [record]).map recordBytes).sum := by
    rw [List.map_append, List.sum_append, ← hfits.bytes, List.map_singleton, List.sum_singleton]
  refine ⟨hbytes, ?_, ?_, hfits.droppedRecords, hfits.droppedBatches, hfits.droppedBytes, hfits.sent⟩
  · show (roomy.records ++ [record]).length ≤ payloadRecords
    rw [List.length_append, List.length_singleton]
    rcases hroom with hnil | ⟨hlength, -⟩
    · rw [hnil]
      decide
    · omega
  · show roomy.bytes + recordBytes record ≤ payloadLimit
    rcases hroom with hnil | ⟨-, hlimit⟩
    · rw [hfits.bytes, hnil, List.map_nil, List.sum_nil, Nat.zero_add]
      exact hrecord
    · exact hlimit

theorem Fits.push (h : emitter.Fits) : (emitter.push channel record).Fits := by
  unfold BatchEmitter.push
  split
  · exact h
  rename_i hopen
  split
  · exact h.noteDropped _ _ _
  rename_i hrecord
  have hput : ((emitter.makeRoom channel (recordBytes record)).put record).Fits :=
    h.put_makeRoom (Bool.eq_false_iff.mpr hopen) (Nat.not_lt.mp hrecord)
  unfold flushFull
  split
  · exact hput.flush
  · exact hput

theorem fits_run (channel : ℕ → SendOutcome) (calls : List EmitterCall) : (run channel calls).Fits := by
  have hnew : Fits {} := by
    refine ⟨rfl, Nat.zero_le _, Nat.zero_le _, Nat.zero_le _, Nat.zero_le _, Nat.zero_le _, ?_⟩
    exact fun send hsend => absurd hsend List.not_mem_nil
  induction calls using List.reverseRecOn with
  | nil => exact hnew
  | append_singleton calls c ih =>
    rw [run, List.foldl_append]
    cases c with
    | push record => exact ih.push
    | flush => exact ih.flush

/-! ## The count -/

/-- The count of the dropped records is exact, and there are no more of them than the rest of `n` records. -/
structure Exact (emitter : BatchEmitter) (n : ℕ) : Prop where
  saturated : emitter.saturated = false
  atMost : emitter.droppedRecords + emitter.records.length ≤ n

theorem Exact.noteDropped {n : ℕ} (h : emitter.Exact n) {records : ℕ} (batches bytes : ℕ)
    (hrecords : emitter.droppedRecords + emitter.records.length + records ≤ u64Max) :
    (emitter.noteDropped records batches bytes).Exact (n + records) := by
  have hno : decide (u64Max < emitter.droppedRecords + records) = false := decide_eq_false (by omega)
  have hatMost := h.atMost
  constructor
  · show (emitter.saturated || decide (u64Max < emitter.droppedRecords + records)) = false
    rw [h.saturated, hno]
    rfl
  · show min (emitter.droppedRecords + records) u64Max + emitter.records.length ≤ n + records
    omega

theorem Exact.flush {n : ℕ} (h : emitter.Exact n) (hn : n ≤ u64Max) : (emitter.flush channel).Exact n := by
  have hatMost := h.atMost
  rcases flush_cases emitter channel with ⟨heq, -⟩ | ⟨-, heq | heq | ⟨heq, hnil⟩ | heq⟩
  · rw [heq]
    exact h
  · rw [heq]
    exact ⟨h.saturated, Nat.zero_le n⟩
  · rw [heq]
    have htaken : (emitter.handOver .full).Exact (n - emitter.records.length) :=
      ⟨h.saturated, Nat.le_sub_of_add_le hatMost⟩
    have hdropped := htaken.noteDropped 1 emitter.bytes (hatMost.trans hn)
    rwa [Nat.sub_add_cancel (by omega)] at hdropped
  · rw [heq]
    exact ⟨h.saturated, le_of_add_le_left hatMost⟩
  · rw [heq]
    exact ⟨h.saturated, le_of_add_le_left hatMost⟩

theorem Exact.put {n : ℕ} (h : emitter.Exact n) : (emitter.put record).Exact (n + 1) := by
  refine ⟨h.saturated, ?_⟩
  show emitter.droppedRecords + (emitter.records ++ [record]).length ≤ n + 1
  rw [List.length_append, List.length_singleton, ← Nat.add_assoc]
  exact Nat.add_le_add_right h.atMost 1

theorem Exact.push {n : ℕ} (h : emitter.Exact n) (hn : n + 1 ≤ u64Max) : (emitter.push channel record).Exact (n + 1) := by
  have hatMost := h.atMost
  unfold BatchEmitter.push
  split
  · exact ⟨h.saturated, hatMost.trans (Nat.le_succ n)⟩
  split
  · exact h.noteDropped _ _ ((Nat.add_le_add_right hatMost 1).trans hn)
  have hroom : (emitter.makeRoom channel (recordBytes record)).Exact n := by
    unfold makeRoom
    split
    · exact h.flush ((Nat.le_succ n).trans hn)
    · exact h
  unfold flushFull
  split
  · exact hroom.put.flush hn
  · exact hroom.put

theorem exact_run (channel : ℕ → SendOutcome) {calls : List EmitterCall}
    (h : (pushedRecords calls).length ≤ u64Max) : (run channel calls).Exact (pushedRecords calls).length := by
  induction calls using List.reverseRecOn with
  | nil => exact ⟨rfl, le_rfl⟩
  | append_singleton calls c ih =>
    rw [pushedRecords, List.filterMap_append, List.length_append] at h ⊢
    rw [run, List.foldl_append]
    have hbefore := ih (le_of_add_le_left h)
    cases c with
    | push record => exact hbefore.push h
    | flush => exact hbefore.flush (le_of_add_le_left h)

/-! ## The ledger -/

theorem accepted_handOver (emitter : BatchEmitter) (outcome : SendOutcome) :
    (emitter.handOver outcome).accepted
      = emitter.accepted ++ if outcome = .accepted then [⟨emitter.summary, emitter.records, outcome⟩] else [] := by
  unfold accepted handOver
  rw [List.filter_append]
  cases outcome <;> rfl

theorem delivered_handOver_accepted (emitter : BatchEmitter) :
    (emitter.handOver .accepted).delivered = emitter.delivered ++ emitter.records := by
  unfold delivered
  rw [accepted_handOver, if_pos rfl, List.flatMap_append, List.flatMap_singleton]

theorem delivered_handOver_full (emitter : BatchEmitter) :
    (emitter.handOver .full).delivered = emitter.delivered := by
  unfold delivered
  rw [accepted_handOver, if_neg (by decide), List.append_nil]

/-- The summary that gets through reports the counter. -/
theorem reported_handOver_accepted (emitter : BatchEmitter) :
    (emitter.handOver .accepted).reported = emitter.reported + emitter.droppedRecords := by
  unfold reported
  rw [accepted_handOver, if_pos rfl, List.map_append, List.sum_append, List.map_singleton, List.sum_singleton]
  unfold summary
  by_cases hdropped : 0 < emitter.droppedRecords
  · rw [if_pos hdropped]
    rfl
  · rw [if_neg hdropped, Nat.eq_zero_of_not_pos hdropped]
    rfl

theorem reported_handOver_full (emitter : BatchEmitter) :
    (emitter.handOver .full).reported = emitter.reported := by
  unfold reported
  rw [accepted_handOver, if_neg (by decide), List.append_nil]

/-- A count that is not cut off. -/
theorem droppedRecords_noteDropped {records batches bytes : ℕ}
    (h : (emitter.noteDropped records batches bytes).saturated = false) :
    emitter.saturated = false
      ∧ (emitter.noteDropped records batches bytes).droppedRecords = emitter.droppedRecords + records := by
  have hboth : emitter.saturated = false ∧ decide (u64Max < emitter.droppedRecords + records) = false :=
    Bool.or_eq_false_iff.mp h
  refine ⟨hboth.1, Nat.min_eq_left ?_⟩
  exact Nat.not_lt.mp (of_decide_eq_false hboth.2)

end BatchEmitter

/-- The ledger in two parts: in the first nothing is buffered, in the second, since the last batch, nothing is
delivered. -/
structure LedgerParts (pushed : List String) (emitter : BatchEmitter) (settled current : List (String × Fate)) :
    Prop where
  pushed : settled.map Prod.fst ++ current.map Prod.fst = pushed
  delivered : having .delivered settled = emitter.delivered
  undelivered : having .delivered current = []
  unbuffered : having .buffered settled = []
  buffered : having .buffered current = emitter.records
  dropped : emitter.saturated = false →
    emitter.reported + emitter.droppedRecords = (having .dropped settled).length + (having .dropped current).length

theorem LedgerParts.accounts {pushed : List String} {emitter : BatchEmitter} {settled current : List (String × Fate)}
    (h : LedgerParts pushed emitter settled current) : Accounts pushed emitter (settled ++ current) := by
  refine ⟨?_, ?_, ?_, ?_⟩
  · rw [List.map_append, h.pushed]
  · rw [having_append, h.delivered, h.undelivered, List.append_nil]
  · rw [having_append, h.unbuffered, h.buffered, List.nil_append]
  · intro hsaturated
    rw [having_append, List.length_append, h.dropped hsaturated]

/-- The records are accounted for. -/
def Kept (pushed : List String) (emitter : BatchEmitter) : Prop :=
  ∃ settled current, LedgerParts pushed emitter settled current

namespace BatchEmitter

variable {emitter : BatchEmitter} {channel : ℕ → SendOutcome} {record : String} {pushed : List String}

theorem disconnected_of_flush (h : (emitter.flush channel).disconnected = false) : emitter.disconnected = false := by
  rcases flush_cases emitter channel with ⟨heq, -⟩ | ⟨hopen, -⟩
  · rw [heq] at h
    exact h
  · exact hopen

/-- A flush settles the records of the buffer. -/
theorem kept_flush (h : Kept pushed emitter) (hopen : (emitter.flush channel).disconnected = false) :
    Kept pushed (emitter.flush channel) := by
  obtain ⟨settled, current, hparts⟩ := h
  have hfirst : ∀ fate, (settled ++ settle .buffered fate current).map Prod.fst ++ ([] : List (String × Fate)).map Prod.fst
      = pushed := by
    intro fate
    rw [List.map_append, map_fst_settle, List.map_nil, List.append_nil, hparts.pushed]
  have hlast : ∀ fate, Fate.buffered ≠ fate → having .buffered (settled ++ settle .buffered fate current) = [] := by
    intro fate hne
    rw [having_append, hparts.unbuffered, having_settle_old hne, List.append_nil]
  rcases flush_cases emitter channel with ⟨heq, -⟩ | ⟨-, heq | heq | ⟨heq, hnil⟩ | heq⟩
  · rw [heq]
    exact ⟨settled, current, hparts⟩
  · rw [heq]
    refine ⟨settled ++ settle .buffered .delivered current, [], hfirst _, ?_, rfl, hlast _ (by decide), rfl, ?_⟩
    · rw [having_append, having_settle hparts.undelivered, hparts.delivered, hparts.buffered]
      exact (delivered_handOver_accepted emitter).symm
    · intro hsaturated
      rw [having_append, having_settle_of_ne (by decide) (by decide), List.length_append, having_nil, List.length_nil,
        Nat.add_zero, ← hparts.dropped hsaturated]
      exact reported_handOver_accepted emitter
  · rw [heq]
    refine ⟨settled ++ settle .buffered .dropped current, [], hfirst _, ?_, rfl, hlast _ (by decide), rfl, ?_⟩
    · rw [having_append, having_settle_of_ne (by decide) (by decide), hparts.delivered, hparts.undelivered,
        List.append_nil]
      exact (delivered_handOver_full emitter).symm
    · intro hsaturated
      obtain ⟨hbefore, hcount⟩ := droppedRecords_noteDropped hsaturated
      have hdropped := hparts.dropped hbefore
      have hreported := reported_handOver_full emitter
      rw [having_append, List.length_append, length_having_settle (by decide), hparts.buffered, having_nil,
        List.length_nil, Nat.add_zero, hcount]
      show (emitter.handOver .full).reported + (emitter.droppedRecords + emitter.records.length) = _
      omega
  · rw [heq]
    refine ⟨settled, current, hparts.pushed, ?_, hparts.undelivered, hparts.unbuffered, ?_, ?_⟩
    · rw [hparts.delivered, delivered_handOver_full]
    · rw [hparts.buffered, hnil]
      rfl
    · intro hsaturated
      rw [reported_handOver_full]
      exact hparts.dropped hsaturated
  · rw [heq] at hopen
    cases hopen

/-- A record that is too large for any batch is dropped. -/
theorem kept_noteDropped (h : Kept pushed emitter) (bytes : ℕ) :
    Kept (pushed ++ [record]) (emitter.noteDropped 1 1 bytes) := by
  obtain ⟨settled, current, hparts⟩ := h
  refine ⟨settled, current ++ [(record, .dropped)], ?_, hparts.delivered, ?_, hparts.unbuffered, ?_, ?_⟩
  · rw [List.map_append, ← List.append_assoc, hparts.pushed]
    rfl
  · rw [having_append, hparts.undelivered]
    rfl
  · rw [having_append, hparts.buffered]
    exact List.append_nil _
  · intro hsaturated
    obtain ⟨hbefore, hcount⟩ := droppedRecords_noteDropped hsaturated
    have hdropped := hparts.dropped hbefore
    have hone : (having Fate.dropped [(record, Fate.dropped)]).length = 1 := rfl
    rw [having_append, List.length_append, hone, hcount]
    show emitter.reported + (emitter.droppedRecords + 1) = _
    omega

theorem kept_put (h : Kept pushed emitter) : Kept (pushed ++ [record]) (emitter.put record) := by
  obtain ⟨settled, current, hparts⟩ := h
  refine ⟨settled, current ++ [(record, .buffered)], ?_, hparts.delivered, ?_, hparts.unbuffered, ?_, ?_⟩
  · rw [List.map_append, ← List.append_assoc, hparts.pushed]
    rfl
  · rw [having_append, hparts.undelivered]
    rfl
  · rw [having_append, hparts.buffered]
    rfl
  · intro hsaturated
    rw [having_append, List.length_append]
    exact hparts.dropped hsaturated

theorem kept_push (h : Kept pushed emitter) (hbefore : emitter.disconnected = false)
    (hopen : (emitter.push channel record).disconnected = false) :
    Kept (pushed ++ [record]) (emitter.push channel record) := by
  unfold push at hopen ⊢
  rw [hbefore] at hopen ⊢
  rw [if_neg Bool.false_ne_true] at hopen ⊢
  split at hopen
  · rename_i hlarge
    rw [if_pos hlarge]
    exact kept_noteDropped h _
  rename_i hfits
  rw [if_neg hfits]
  unfold flushFull at hopen ⊢
  set roomy := emitter.makeRoom channel (recordBytes record) with hroomy
  have hroom : roomy.disconnected = false → Kept pushed roomy := by
    intro hstill
    rw [hroomy] at hstill ⊢
    unfold makeRoom at hstill ⊢
    split at hstill
    · rename_i hfull
      rw [if_pos hfull]
      exact kept_flush h hstill
    · rename_i hfree
      rw [if_neg hfree]
      exact h
  split at hopen
  · rename_i hfull
    rw [if_pos hfull]
    have hput : (roomy.put record).disconnected = false := disconnected_of_flush hopen
    exact kept_flush (kept_put (hroom hput)) hopen
  · rename_i hfree
    rw [if_neg hfree]
    exact kept_put (hroom hopen)

/-- A disconnect is for good. -/
theorem disconnected_of_call {c : EmitterCall} (h : (emitter.call channel c).disconnected = false) :
    emitter.disconnected = false := by
  cases c with
  | push record =>
    refine Bool.eq_false_iff.mpr fun hgone => ?_
    rw [call, push, if_pos hgone, hgone] at h
    cases h
  | flush => exact disconnected_of_flush h

theorem kept_run {calls : List EmitterCall} (h : (run channel calls).disconnected = false) :
    Kept (pushedRecords calls) (run channel calls) := by
  induction calls using List.reverseRecOn with
  | nil => exact ⟨[], [], rfl, rfl, rfl, rfl, rfl, fun _ => rfl⟩
  | append_singleton calls c ih =>
    rw [run, List.foldl_append] at h ⊢
    have hbefore : (run channel calls).disconnected = false := disconnected_of_call h
    have hkept := ih hbefore
    rw [pushedRecords, List.filterMap_append]
    cases c with
    | push record => exact kept_push hkept hbefore h
    | flush =>
      have hflush := kept_flush hkept h
      rwa [← List.append_nil (pushedRecords calls)] at hflush

end BatchEmitter

/-- **Every record is accounted for, in batches that keep to their bounds.** -/
theorem accountsForRecords (channel : ℕ → SendOutcome) (calls : List EmitterCall) :
    AccountsForRecords channel calls := by
  refine ⟨?_, ?_, ?_⟩
  · intro hopen
    obtain ⟨settled, current, hparts⟩ := BatchEmitter.kept_run hopen
    exact ⟨settled ++ current, hparts.accounts⟩
  · exact fun hpushed => (BatchEmitter.exact_run channel hpushed).saturated
  · exact (BatchEmitter.fits_run channel calls).sent

/-- The first batch finds the channel full; the second one reports it. -/
example : ((BatchEmitter.run (fun n => if n = 0 then .full else .accepted)
      [.push "a", .flush, .push "b", .flush, .push "c"]).tx.map fun send => send.batch.records)
    = [["a"], [droppedSummary ⟨1, 1, 2⟩, "b"]] := by decide

end CodexRouter
