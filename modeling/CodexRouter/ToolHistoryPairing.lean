/-
# The normalized history pairs calls and outputs

What `normalizeToolCallHistory` establishes: after the pass no non-empty call id
belongs to two call items or to two output items, every call with an id has
exactly one output, and with `pruneOrphans` every output comes after its call.

The walk invariant `HistoryInv` reads the two sets `seenCalls` and `seenOutputs`
as the ids of the items written so far, each written once.  A turn preserves it
(`historyInv_step`) because an id enters a set only when it is not in it: call
ids because a known id is replaced by a fresh one, output ids because a known id
is redirected or dropped.
-/
import CodexRouter.ToolHistory
import Mathlib.Data.List.Nodup
import Mathlib.Data.List.Count

namespace CodexRouter

open HistoryWalk

/-! ## Outputs after their calls -/

/-- Every output item with an id comes after a call item with that id. -/
def OutputsFollowCalls (items : List Value) : Prop :=
  ∀ before item after, items = before ++ item :: after → isFunctionOutputItem item →
    itemCallId item ≠ "" → itemCallId item ∈ callIds before

theorem outputsFollowCalls_nil : OutputsFollowCalls [] := by
  intro before item after h
  simp at h

/-- Appending an item whose own call was written keeps the order. -/
theorem OutputsFollowCalls.concat {items : List Value} (h : OutputsFollowCalls items)
    {x : Value} (hx : isFunctionOutputItem x → itemCallId x ≠ "" → itemCallId x ∈ callIds items) :
    OutputsFollowCalls (items ++ [x]) := by
  intro before item after heq hitem hid
  rcases List.eq_nil_or_concat after with rfl | ⟨after', y, rfl⟩
  · obtain ⟨rfl, rfl⟩ := List.append_singleton_inj.mp heq
    exact hx hitem hid
  · have heq' : items ++ [x] = (before ++ item :: after') ++ [y] := by simpa using heq
    exact h before item after' (List.append_singleton_inj.mp heq').1 hitem hid

/-! ## The walk invariant -/

/-- What holds of the loop state after any number of turns. -/
structure HistoryInv (pruneOrphans : Bool) (s : HistoryWalk) : Prop where
  calls_nodup : (callIds s.output).Nodup
  outputs_nodup : (outputIds s.output).Nodup
  mem_seenCalls : ∀ c, c ∈ s.seenCalls ↔ c ∈ callIds s.output
  mem_seenOutputs : ∀ c, c ∈ s.seenOutputs ↔ c ∈ outputIds s.output
  pending_seen : ∀ c ∈ s.pending, c ∈ s.seenCalls
  pending_nodup : s.pending.Nodup
  answered : ∀ c ∈ s.seenCalls, c ∈ s.pending ∨ c ∈ s.seenOutputs
  follows : pruneOrphans = true → OutputsFollowCalls s.output

section

variable {pruneOrphans : Bool} {s : HistoryWalk}

theorem historyInv_init : HistoryInv pruneOrphans {} where
  calls_nodup := List.nodup_nil
  outputs_nodup := List.nodup_nil
  mem_seenCalls := by simp [callIds]
  mem_seenOutputs := by simp [outputIds]
  pending_seen := by simp
  pending_nodup := List.nodup_nil
  answered := by simp
  follows := fun _ => outputsFollowCalls_nil

/-- The bookkeeping fields do not enter the invariant. -/
theorem HistoryInv.bookkeeping (h : HistoryInv pruneOrphans s) (r : List (String × String))
    (n : ℕ) : HistoryInv pruneOrphans { s with lastReassigned := r, changed := n } :=
  ⟨h.calls_nodup, h.outputs_nodup, h.mem_seenCalls, h.mem_seenOutputs, h.pending_seen,
    h.pending_nodup, h.answered, h.follows⟩

/-- The empty id is never registered. -/
theorem HistoryInv.notMem_seenCalls (h : HistoryInv pruneOrphans s) {c : String}
    (hc : c = "" ∨ c ∉ s.seenCalls) : c ∉ s.seenCalls :=
  fun hmem => hc.elim (mem_callIds.mp ((h.mem_seenCalls c).mp hmem)).1 (fun hn => hn hmem)

theorem HistoryInv.notMem_seenOutputs (h : HistoryInv pruneOrphans s) {c : String}
    (hc : c = "" ∨ c ∉ s.seenOutputs) : c ∉ s.seenOutputs :=
  fun hmem => hc.elim (mem_outputIds.mp ((h.mem_seenOutputs c).mp hmem)).1 (fun hn => hn hmem)

/-- Writing an item without an id of its own. -/
theorem HistoryInv.push (h : HistoryInv pruneOrphans s) {x : Value} (hc : callIds [x] = [])
    (ho : outputIds [x] = []) : HistoryInv pruneOrphans (s.push x) where
  calls_nodup := by simpa [HistoryWalk.push, hc] using h.calls_nodup
  outputs_nodup := by simpa [HistoryWalk.push, ho] using h.outputs_nodup
  mem_seenCalls := by simpa [HistoryWalk.push, hc] using h.mem_seenCalls
  mem_seenOutputs := by simpa [HistoryWalk.push, ho] using h.mem_seenOutputs
  pending_seen := h.pending_seen
  pending_nodup := h.pending_nodup
  answered := h.answered
  follows := by
    intro hp
    refine (h.follows hp).concat fun hx hid => ?_
    rw [outputIds_singleton_output hx hid] at ho
    simp at ho

/-- Writing a call item under a new id. -/
theorem HistoryInv.keepCall (h : HistoryInv pruneOrphans s) {x : Value}
    (hx : isFunctionCallItem x) (hnew : itemCallId x ∉ s.seenCalls) :
    HistoryInv pruneOrphans (s.keepCall x (itemCallId x)) := by
  have hno : outputIds [x] = [] :=
    outputIds_singleton_other (by simpa using not_isFunctionOutputItem_of_call hx)
  by_cases hid : itemCallId x = ""
  · rw [HistoryWalk.keepCall, if_pos hid]
    exact h.push (callIds_singleton_empty hid) hno
  have hc := callIds_singleton_call hx hid
  rw [HistoryWalk.keepCall, if_neg hid]
  refine ⟨?_, ?_, ?_, ?_, ?_, ?_, ?_, ?_⟩
  · rw [callIds_append, hc]
    refine h.calls_nodup.append (List.nodup_singleton _) ?_
    simpa [List.disjoint_singleton, ← h.mem_seenCalls] using hnew
  · simpa [hno] using h.outputs_nodup
  · intro c
    rw [callIds_append, hc, List.mem_append, List.mem_singleton, List.mem_cons, h.mem_seenCalls]
    exact or_comm
  · intro c
    rw [outputIds_append, hno, List.append_nil]
    exact h.mem_seenOutputs c
  · intro c hmem
    by_cases hp : itemCallId x ∈ s.pending
    · rw [if_pos hp] at hmem
      exact List.mem_cons_of_mem _ (h.pending_seen c hmem)
    · rw [if_neg hp, List.mem_append, List.mem_singleton] at hmem
      rcases hmem with hmem | rfl
      · exact List.mem_cons_of_mem _ (h.pending_seen c hmem)
      · exact List.mem_cons_self
  · by_cases hp : itemCallId x ∈ s.pending
    · simpa [hp] using h.pending_nodup
    · rw [if_neg hp]
      exact h.pending_nodup.append (List.nodup_singleton _) (by simpa using hp)
  · intro c hmem
    rcases List.mem_cons.mp hmem with rfl | hmem
    · by_cases hp : itemCallId x ∈ s.pending <;> simp [hp]
    · rcases h.answered c hmem with hpend | hout
      · by_cases hp : itemCallId x ∈ s.pending <;> simp [hp, hpend]
      · exact Or.inr hout
  · intro hp
    refine (h.follows hp).concat fun hout => absurd hout ?_
    exact not_isFunctionOutputItem_of_call hx

/-- Writing an output item under a new id. -/
theorem HistoryInv.keepOutput (h : HistoryInv pruneOrphans s) {x : Value}
    (hx : isFunctionOutputItem x) (hnew : itemCallId x ∉ s.seenOutputs) :
    HistoryInv pruneOrphans (s.keepOutput pruneOrphans x (itemCallId x)) := by
  have hnc : callIds [x] = [] := by
    refine callIds_singleton_other ?_
    by_contra hcall
    exact not_isFunctionOutputItem_of_call (by simpa using hcall) hx
  rw [HistoryWalk.keepOutput]
  by_cases horphan : pruneOrphans ∧ itemCallId x ≠ "" ∧ itemCallId x ∉ s.seenCalls
  · rw [if_pos horphan]
    exact (h.push (callIds_singleton_other (isFunctionCallItem_messageFromText _))
      (outputIds_singleton_other (isFunctionOutputItem_messageFromText _))).bookkeeping _ _
  rw [if_neg horphan]
  by_cases hid : itemCallId x = ""
  · rw [if_pos hid]
    exact h.push hnc (outputIds_singleton_empty hid)
  rw [if_neg hid]
  have ho := outputIds_singleton_output hx hid
  refine ⟨?_, ?_, ?_, ?_, ?_, h.pending_nodup.filter _, ?_, ?_⟩
  · simpa [hnc] using h.calls_nodup
  · rw [outputIds_append, ho]
    refine h.outputs_nodup.append (List.nodup_singleton _) ?_
    simpa [← h.mem_seenOutputs] using hnew
  · intro c
    rw [callIds_append, hnc, List.append_nil]
    exact h.mem_seenCalls c
  · intro c
    rw [outputIds_append, ho, List.mem_append, List.mem_singleton, List.mem_cons,
      h.mem_seenOutputs]
    exact or_comm
  · intro c hmem
    exact h.pending_seen c (List.mem_filter.mp hmem).1
  · intro c hmem
    by_cases hcx : c = itemCallId x
    · exact Or.inr (by simp [hcx])
    · rcases h.answered c hmem with hpend | hout
      · exact Or.inl (List.mem_filter.mpr ⟨hpend, by simpa using hcx⟩)
      · exact Or.inr (List.mem_cons_of_mem _ hout)
  · intro hp
    refine (h.follows hp).concat fun _ _ => ?_
    rw [← h.mem_seenCalls]
    by_contra hcall
    exact horphan ⟨hp, hid, hcall⟩

/-! ## Placeholders -/

@[simp] theorem answer_pending (c : String) : (s.answer c).pending = s.pending := by
  rw [answer]; split <;> rfl

@[simp] theorem answer_seenCalls (c : String) : (s.answer c).seenCalls = s.seenCalls := by
  rw [answer]; split <;> rfl

@[simp] theorem answer_lastReassigned (c : String) :
    (s.answer c).lastReassigned = s.lastReassigned := by
  rw [answer]; split <;> rfl

/-- After answering `c` the answered ids are those before and `c`. -/
theorem mem_seenOutputs_answer {c d : String} :
    d ∈ (s.answer c).seenOutputs ↔ d = c ∨ d ∈ s.seenOutputs := by
  rw [answer]
  split
  · rename_i hc
    exact ⟨Or.inr, fun h => h.elim (fun h => h ▸ hc) id⟩
  · exact List.mem_cons

/-- Answering a pending call. -/
theorem HistoryInv.answer (h : HistoryInv pruneOrphans s) {c : String} (hc : c ∈ s.pending) :
    HistoryInv pruneOrphans (s.answer c) := by
  rw [HistoryWalk.answer]
  by_cases hout : c ∈ s.seenOutputs
  · rwa [if_pos hout]
  rw [if_neg hout]
  have hcall := (h.mem_seenCalls c).mp (h.pending_seen c hc)
  have hne : c ≠ "" := (mem_callIds.mp hcall).1
  have ho : outputIds [syntheticToolOutput c] = [c] := by
    simpa using outputIds_singleton_output (isFunctionOutputItem_synthetic c) (by simpa using hne)
  have hnc : callIds [syntheticToolOutput c] = [] :=
    callIds_singleton_other (isFunctionCallItem_synthetic c)
  refine ⟨?_, ?_, ?_, ?_, h.pending_seen, h.pending_nodup, ?_, ?_⟩
  · simpa [hnc] using h.calls_nodup
  · rw [outputIds_append, ho]
    exact h.outputs_nodup.append (List.nodup_singleton _) (by simpa [← h.mem_seenOutputs] using hout)
  · simpa [hnc] using h.mem_seenCalls
  · intro d
    rw [outputIds_append, ho, List.mem_append, List.mem_singleton, List.mem_cons,
      h.mem_seenOutputs]
    exact or_comm
  · intro d hd
    exact (h.answered d hd).imp id (List.mem_cons_of_mem _)
  · intro hp
    exact (h.follows hp).concat fun _ _ => by simpa using hcall

/-- Answering several pending calls: the invariant stays, and all of them are
answered. -/
theorem HistoryInv.answerAll (h : HistoryInv pruneOrphans s) {l : List String}
    (hl : ∀ c ∈ l, c ∈ s.pending) :
    HistoryInv pruneOrphans (l.foldl HistoryWalk.answer s)
      ∧ (l.foldl HistoryWalk.answer s).pending = s.pending
      ∧ ∀ d, d ∈ (l.foldl HistoryWalk.answer s).seenOutputs ↔ d ∈ l ∨ d ∈ s.seenOutputs := by
  induction l generalizing s with
  | nil => simpa using h
  | cons c l ih =>
    have hc := hl c List.mem_cons_self
    obtain ⟨hinv, hpend, hmem⟩ := ih (h.answer hc)
      (fun d hd => by simpa using hl d (List.mem_cons_of_mem _ hd))
    refine ⟨hinv, by simpa using hpend, fun d => ?_⟩
    rw [List.foldl_cons, hmem, mem_seenOutputs_answer, List.mem_cons, or_left_comm, or_assoc]

/-- The flush in front of a non-tool item. -/
theorem HistoryInv.flush (h : HistoryInv pruneOrphans s) : HistoryInv pruneOrphans s.flush := by
  obtain ⟨hinv, hpend, hmem⟩ := h.answerAll (l := s.pending) (fun _ hc => hc)
  refine ⟨hinv.calls_nodup, hinv.outputs_nodup, hinv.mem_seenCalls, hinv.mem_seenOutputs,
    by simp [HistoryWalk.flush], List.nodup_nil, fun c hc => Or.inr ?_, hinv.follows⟩
  rcases hinv.answered c hc with hp | ho
  · exact (hmem c).mpr (Or.inl (hpend ▸ hp))
  · exact ho

end

/-! ## One turn and the whole walk -/

section

variable (serde : Serde) (pruneOrphans : Bool)

/-- **One turn of the loop preserves the invariant.** -/
theorem historyInv_step {s : HistoryWalk} (h : HistoryInv pruneOrphans s) (item : Value) :
    HistoryInv pruneOrphans (historyStep serde pruneOrphans s item) := by
  have hturn := historyStep_turn serde pruneOrphans s item
  generalize historyStep serde pruneOrphans s item = t at hturn ⊢
  cases hturn with
  | drop _ => exact h.bookkeeping _ _
  | call _ hx hnew _ _ => exact (h.bookkeeping _ _).keepCall hx (h.notMem_seenCalls hnew)
  | output _ hx hnew _ => exact (h.bookkeeping _ _).keepOutput hx (h.notMem_seenOutputs hnew)
  | other hother =>
    simp only [isToolItem, Bool.or_eq_false_iff] at hother
    exact h.flush.push (callIds_singleton_other hother.1) (outputIds_singleton_other hother.2)

/-- The invariant holds after any turns. -/
theorem historyInv_foldl {s : HistoryWalk} (h : HistoryInv pruneOrphans s) (items : List Value) :
    HistoryInv pruneOrphans (items.foldl (historyStep serde pruneOrphans) s) := by
  induction items generalizing s with
  | nil => exact h
  | cons item items ih => exact ih (historyInv_step serde pruneOrphans h item)

/-- The invariant holds after any list of items. -/
theorem historyInv_walk (items : List Value) :
    HistoryInv pruneOrphans (historyWalk serde pruneOrphans items) :=
  historyInv_foldl serde pruneOrphans historyInv_init items

end

/-! ## The whole pass -/

/-- The state after answering a list of distinct ids. -/
theorem answerAll_eq {l : List String} (hl : l.Nodup) (s : HistoryWalk) :
    l.foldl answer s = { s with
      output := s.output ++ (l.filter (· ∉ s.seenOutputs)).map syntheticToolOutput
      seenOutputs := (l.filter (· ∉ s.seenOutputs)).reverse ++ s.seenOutputs
      changed := s.changed + (l.filter (· ∉ s.seenOutputs)).length } := by
  induction l generalizing s with
  | nil => simp
  | cons c l ih =>
    obtain ⟨hc, hl⟩ := List.nodup_cons.mp hl
    have hfilter : l.filter (· ∉ (s.answer c).seenOutputs) = l.filter (· ∉ s.seenOutputs) := by
      refine List.filter_congr fun d hd => ?_
      have hne : d ≠ c := fun h => hc (h ▸ hd)
      simp [mem_seenOutputs_answer, hne]
    rw [List.foldl_cons, ih hl, hfilter]
    by_cases hout : c ∈ s.seenOutputs
    · simp [answer, hout]
    · simp [answer, hout, Nat.add_assoc, Nat.add_comm 1]

/-- Answering a list of distinct ids appends one placeholder for each of them
that has no output. -/
theorem output_answerAll {l : List String} (hl : l.Nodup) (s : HistoryWalk) :
    (l.foldl HistoryWalk.answer s).output
      = s.output ++ (l.filter (· ∉ s.seenOutputs)).map syntheticToolOutput := by
  rw [answerAll_eq hl]

/-- The items returned are those of a last flush. -/
theorem normalizeToolCallHistory_eq_flush (serde : Serde) (pruneOrphans : Bool)
    (items : List Value) :
    (normalizeToolCallHistory serde pruneOrphans items).1
      = (historyWalk serde pruneOrphans items).flush.output :=
  (output_answerAll (historyInv_walk serde pruneOrphans items).pending_nodup _).symm

/-- **The normalized history is paired.**  No non-empty id belongs to two call
items or to two output items, every call has exactly one output, and with
`pruneOrphans` every output comes after a call with its id. -/
theorem normalizeToolCallHistory_paired (serde : Serde) (pruneOrphans : Bool)
    (items : List Value) :
    (callIds (normalizeToolCallHistory serde pruneOrphans items).1).Nodup
      ∧ (outputIds (normalizeToolCallHistory serde pruneOrphans items).1).Nodup
      ∧ (∀ c ∈ callIds (normalizeToolCallHistory serde pruneOrphans items).1,
          (outputIds (normalizeToolCallHistory serde pruneOrphans items).1).count c = 1)
      ∧ (pruneOrphans = true →
          OutputsFollowCalls (normalizeToolCallHistory serde pruneOrphans items).1) := by
  rw [normalizeToolCallHistory_eq_flush]
  have h := (historyInv_walk serde pruneOrphans items).flush
  refine ⟨h.calls_nodup, h.outputs_nodup, fun c hc => ?_, h.follows⟩
  refine List.count_eq_one_of_mem h.outputs_nodup ?_
  rcases h.answered c ((h.mem_seenCalls c).mpr hc) with hp | ho
  · simp [HistoryWalk.flush] at hp
  · exact (h.mem_seenOutputs c).mp ho

end CodexRouter
