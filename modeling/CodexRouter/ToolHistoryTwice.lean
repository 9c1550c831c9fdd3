/-
# Normalizing the history twice

The gateway and the host normalize the same request.  A second walk over the items a
first one has written goes along with it: `Mirrors` says that it stands in the same
place with the same ids, and has changed nothing (`mirrors_step`).

The one exception is an output without a call that `pruneOrphans` turns into a
message.  For the first walk it is no tool item only after it was written; for the
second one it is a message, in front of which the pending calls are answered.  If one
of them has no output yet, the second walk puts a placeholder in
(`changed_of_orphanBeforeAnswer`), and drops the output it had.
-/
import CodexRouter.ToolHistoryResults

namespace CodexRouter

open HistoryWalk

/-- The pending calls without an output. -/
def HistoryWalk.missing (s : HistoryWalk) : List String := s.pending.filter (· ∉ s.seenOutputs)

/-- The placeholders of the calls without an output were read. -/
def HistoryWalk.withPlaceholders (s : HistoryWalk) : HistoryWalk :=
  { s with
    output := s.output ++ s.missing.map syntheticToolOutput
    seenOutputs := s.missing.reverse ++ s.seenOutputs
    pending := s.pending.filter (· ∉ s.missing) }

/-- An output without a call becomes a message while a call waits for its output. -/
structure OrphanBeforeAnswer (pruneOrphans : Bool) (s : HistoryWalk) (item : Value) : Prop where
  prune : pruneOrphans = true
  kind : isFunctionOutputItem item
  id_ne : itemCallId item ≠ ""
  orphan : itemCallId item ∉ s.seenCalls
  waiting : s.missing ≠ []

section

variable (serde : Serde) (pruneOrphans : Bool)

/-- Normalizing again changes nothing. -/
def NormalizesOnce (items : List Value) : Prop :=
  normalizeToolCallHistory serde pruneOrphans (normalizeToolCallHistory serde pruneOrphans items).1
    = ((normalizeToolCallHistory serde pruneOrphans items).1, 0)

/-- No output without a call becomes a message while a call waits for its output. -/
def NoOrphanBeforeAnswer (items : List Value) : Prop :=
  ∀ before item after, items = before ++ item :: after →
    ¬ OrphanBeforeAnswer pruneOrphans (historyWalk serde pruneOrphans before) item

end

/-! ## Answers -/

section

variable {serde : Serde} {pruneOrphans : Bool} {s t : HistoryWalk} {item x : Value}

/-- The state after a flush. -/
theorem flush_eq (h : HistoryInv pruneOrphans s) :
    s.flush = { s with
      output := s.output ++ s.missing.map syntheticToolOutput
      seenOutputs := s.missing.reverse ++ s.seenOutputs
      pending := []
      changed := s.changed + s.missing.length } := by
  rw [HistoryWalk.flush, answerAll_eq h.pending_nodup]
  rfl

/-! ## Items that were written -/

/-- A call under a new id is written as it is. -/
theorem historyStep_call (hx : isFunctionCallItem x) (hnew : itemCallId x = "" ∨ itemCallId x ∉ s.seenCalls) :
    historyStep serde pruneOrphans s x
      = keepCall { s with lastReassigned := s.lastReassigned.filter (·.1 ≠ itemCallId x) } x (itemCallId x) := by
  have hfresh : ¬ (itemCallId x ≠ "" ∧ itemCallId x ∈ s.seenCalls) := fun h => hnew.elim h.1 fun hn => hn h.2
  simp only [historyStep, if_pos hx, walkCall, if_neg hfresh]

/-- An output under a new id is written as it is. -/
theorem historyStep_output (hx : isFunctionOutputItem x)
    (hnew : itemCallId x = "" ∨ itemCallId x ∉ s.seenOutputs) :
    historyStep serde pruneOrphans s x = keepOutput pruneOrphans s x (itemCallId x) := by
  have hcall : ¬ isFunctionCallItem x := fun h => not_isFunctionOutputItem_of_call h hx
  have hfresh : ¬ (itemCallId x ≠ "" ∧ itemCallId x ∈ s.seenOutputs) := fun h => hnew.elim h.1 fun hn => hn h.2
  simp only [historyStep, if_neg hcall, if_pos hx, walkOutput, if_neg hfresh]

theorem historyStep_other (hx : isToolItem x = false) :
    historyStep serde pruneOrphans s x = s.flush.push x := by
  rw [isToolItem, Bool.or_eq_false_iff] at hx
  rw [historyStep, if_neg (by rw [hx.1]; decide), if_neg (by rw [hx.2]; decide)]

/-- The turns on placeholders of known calls. -/
theorem foldl_synthetic {cs : List String} (hcs : cs.Nodup) (hne : ∀ c ∈ cs, c ≠ "")
    (hcalls : ∀ c ∈ cs, c ∈ s.seenCalls) (hfree : ∀ c ∈ cs, c ∉ s.seenOutputs) :
    (cs.map syntheticToolOutput).foldl (historyStep serde pruneOrphans) s = { s with
      output := s.output ++ cs.map syntheticToolOutput
      seenOutputs := cs.reverse ++ s.seenOutputs
      pending := s.pending.filter (· ∉ cs) } := by
  induction cs generalizing s with
  | nil => simp
  | cons c cs ih =>
    obtain ⟨hc, hcs⟩ := List.nodup_cons.mp hcs
    have hstep : historyStep serde pruneOrphans s (syntheticToolOutput c) = { s with
        seenOutputs := c :: s.seenOutputs
        pending := s.pending.filter (· ≠ c)
        output := s.output ++ [syntheticToolOutput c] } := by
      rw [historyStep_output (isFunctionOutputItem_synthetic c)
        (Or.inr (by rw [itemCallId_synthetic]; exact hfree c List.mem_cons_self)), itemCallId_synthetic,
        keepOutput, if_neg (fun h => h.2.2 (hcalls c List.mem_cons_self)), if_neg (hne c List.mem_cons_self)]
    rw [List.map_cons, List.foldl_cons, hstep]
    refine (ih hcs (fun d hd => hne d (List.mem_cons_of_mem _ hd)) ?_ ?_).trans ?_
    · exact fun d hd => hcalls d (List.mem_cons_of_mem _ hd)
    · intro d hd hmem
      rcases List.mem_cons.mp hmem with rfl | hmem
      · exact hc hd
      · exact hfree d (List.mem_cons_of_mem _ hd) hmem
    · simp only [List.append_assoc, List.singleton_append, List.reverse_cons, List.filter_filter,
        List.mem_cons, not_or, Bool.decide_and, HistoryWalk.mk.injEq, true_and, and_true]
      exact List.filter_congr fun d _ => Bool.and_comm _ _

/-! ## The second walk -/

/-- `t` is where a second walk is after the items `s` has written. -/
structure Mirrors (s t : HistoryWalk) : Prop where
  output : t.output = s.output
  seenCalls : t.seenCalls = s.seenCalls
  seenOutputs : t.seenOutputs = s.seenOutputs
  missing : t.missing = s.missing
  lastReassigned : t.lastReassigned = []
  changed : t.changed = 0

/-- The bookkeeping of the first walk does not matter. -/
theorem Mirrors.bookkeeping (h : Mirrors s t) (r : List (String × String)) (n : ℕ) :
    Mirrors { s with lastReassigned := r, changed := n } t :=
  ⟨h.output, h.seenCalls, h.seenOutputs, h.missing, h.lastReassigned, h.changed⟩

theorem Mirrors.push (h : Mirrors s t) (x : Value) : Mirrors (s.push x) (t.push x) :=
  ⟨congrArg (· ++ [x]) h.output, h.seenCalls, h.seenOutputs, h.missing, h.lastReassigned, h.changed⟩

/-- A call under a new id is written by both. -/
theorem Mirrors.keepCall (h : Mirrors s t) (hs : HistoryInv pruneOrphans s) (ht : HistoryInv pruneOrphans t)
    {c : String} (hnew : c ∉ s.seenCalls) : Mirrors (s.keepCall x c) (t.keepCall x c) := by
  by_cases hc : c = ""
  · rw [HistoryWalk.keepCall, if_pos hc, HistoryWalk.keepCall, if_pos hc]
    exact h.push x
  rw [HistoryWalk.keepCall, if_neg hc, HistoryWalk.keepCall, if_neg hc,
    if_neg (fun hp => hnew (hs.pending_seen c hp)),
    if_neg (fun hp => hnew (h.seenCalls ▸ ht.pending_seen c hp))]
  have hmissing : t.pending.filter (· ∉ t.seenOutputs) = s.pending.filter (· ∉ s.seenOutputs) := h.missing
  refine ⟨congrArg (· ++ [x]) h.output, congrArg (c :: ·) h.seenCalls, h.seenOutputs, ?_, h.lastReassigned,
    h.changed⟩
  show (t.pending ++ [c]).filter (· ∉ t.seenOutputs) = (s.pending ++ [c]).filter (· ∉ s.seenOutputs)
  rw [List.filter_append, List.filter_append, hmissing, h.seenOutputs]

/-- Removing an answered id from the pending calls removes it from those without an output. -/
theorem filter_answered (c : String) (pending seenOutputs : List String) :
    (pending.filter (· ≠ c)).filter (· ∉ c :: seenOutputs) = (pending.filter (· ∉ seenOutputs)).filter (· ≠ c) := by
  rw [List.filter_filter, List.filter_filter]
  refine List.filter_congr fun d _ => ?_
  by_cases hd : d = c <;> simp [hd]

/-- An output under a new id is written by both, when it has its call. -/
theorem Mirrors.keepOutput (h : Mirrors s t) {c : String}
    (hkept : ¬ (pruneOrphans = true ∧ c ≠ "" ∧ c ∉ s.seenCalls)) :
    Mirrors (s.keepOutput pruneOrphans x c) (t.keepOutput pruneOrphans x c) := by
  have hkept' : ¬ (pruneOrphans = true ∧ c ≠ "" ∧ c ∉ t.seenCalls) := by rwa [h.seenCalls]
  rw [HistoryWalk.keepOutput, if_neg hkept, HistoryWalk.keepOutput, if_neg hkept']
  by_cases hc : c = ""
  · rw [if_pos hc, if_pos hc]
    exact h.push x
  rw [if_neg hc, if_neg hc]
  have hmissing : t.pending.filter (· ∉ t.seenOutputs) = s.pending.filter (· ∉ s.seenOutputs) := h.missing
  refine ⟨congrArg (· ++ [x]) h.output, h.seenCalls, congrArg (c :: ·) h.seenOutputs, ?_, h.lastReassigned,
    h.changed⟩
  show (t.pending.filter (· ≠ c)).filter (· ∉ c :: t.seenOutputs)
    = (s.pending.filter (· ≠ c)).filter (· ∉ c :: s.seenOutputs)
  rw [filter_answered, filter_answered, hmissing]

/-- The calls without an output: distinct ids of written calls. -/
theorem missing_spec (hs : HistoryInv pruneOrphans s) : s.missing.Nodup
    ∧ (∀ c ∈ s.missing, c ≠ "") ∧ (∀ c ∈ s.missing, c ∈ s.seenCalls) ∧ ∀ c ∈ s.missing, c ∉ s.seenOutputs := by
  refine ⟨hs.pending_nodup.filter _, fun c hc => ?_, fun c hc => ?_, fun c hc => ?_⟩
  · exact (mem_callIds.mp ((hs.mem_seenCalls c).mp (hs.pending_seen c (List.mem_filter.mp hc).1))).1
  · exact hs.pending_seen c (List.mem_filter.mp hc).1
  · exact of_decide_eq_true (List.mem_filter.mp hc).2

/-- The second walk over the placeholders of a flush. -/
theorem Mirrors.placeholders (serde : Serde) (h : Mirrors s t) (ht : HistoryInv pruneOrphans t) :
    (s.missing.map syntheticToolOutput).foldl (historyStep serde pruneOrphans) t = t.withPlaceholders := by
  obtain ⟨hnodup, hne, hcalls, hfree⟩ := missing_spec ht
  rw [← h.missing]
  exact foldl_synthetic hnodup hne hcalls hfree

/-- Behind the placeholders no call is without an output. -/
theorem missing_withPlaceholders (t : HistoryWalk) : t.withPlaceholders.missing = [] := by
  refine List.filter_eq_nil_iff.mpr fun c hc => ?_
  obtain ⟨hpending, hmissing⟩ := List.mem_filter.mp hc
  have hout : c ∈ t.seenOutputs := by
    by_contra hno
    exact of_decide_eq_true hmissing (List.mem_filter.mpr ⟨hpending, decide_eq_true hno⟩)
  simp [withPlaceholders, hout]

/-- A flush answers nothing when no call is without an output. -/
theorem flush_of_missing_nil (h : HistoryInv pruneOrphans t) (hmissing : t.missing = []) :
    t.flush = { t with pending := [] } := by
  rw [flush_eq h, hmissing]
  simp

/-- **One turn of the first walk**, and the turns of the second one on what it writes. -/
theorem mirrors_step (h : Mirrors s t) (hs : HistoryInv pruneOrphans s) (hr : ReassignedSeen s)
    (ht : HistoryInv pruneOrphans t) (hno : ¬ OrphanBeforeAnswer pruneOrphans s item) :
    ∃ written, (historyStep serde pruneOrphans s item).output = s.output ++ written
      ∧ Mirrors (historyStep serde pruneOrphans s item) (written.foldl (historyStep serde pruneOrphans) t) := by
  have hturn := historyStep_turn serde pruneOrphans s item
  generalize historyStep serde pruneOrphans s item = s' at hturn ⊢
  cases hturn with
  | drop hknown => exact ⟨[], (List.append_nil _).symm, h.bookkeeping _ _⟩
  | @call x r n hitem hx hnew hfrom hreassigned =>
    have hfresh := hs.notMem_seenCalls hnew
    refine ⟨[x], ?_, ?_⟩
    · rw [HistoryWalk.keepCall]
      split <;> rfl
    · have hstep : historyStep serde pruneOrphans t x = t.keepCall x (itemCallId x) := by
        rw [historyStep_call hx (Or.inr (h.seenCalls ▸ hfresh)), h.lastReassigned, List.filter_nil,
          ← h.lastReassigned]
      rw [List.foldl_cons, List.foldl_nil, hstep]
      exact (h.bookkeeping r n).keepCall (hs.bookkeeping r n) ht hfresh
  | @output x n hitem hx hnew hfrom =>
    have hfresh := hs.notMem_seenOutputs hnew
    by_cases hkept : pruneOrphans = true ∧ itemCallId x ≠ "" ∧ itemCallId x ∉ s.seenCalls
    · -- an orphan, which is the item itself: redirected outputs have their call
      obtain rfl : x = item := by
        refine hfrom.resolve_right ?_
        rintro ⟨-, e, he, heq⟩
        exact hkept.2.2 (heq ▸ hr e he)
      have hnone : s.missing = [] := by
        by_contra hwaiting
        exact hno ⟨hkept.1, hx, hkept.2.1, hkept.2.2, hwaiting⟩
      refine ⟨[messageFromText (summarizeItem x)], ?_, ?_⟩
      · rw [HistoryWalk.keepOutput, if_pos hkept]
      · have hother : isToolItem (messageFromText (summarizeItem x)) = false := by
          rw [isToolItem, isFunctionCallItem_messageFromText, isFunctionOutputItem_messageFromText]
          rfl
        rw [List.foldl_cons, List.foldl_nil, historyStep_other hother,
          flush_of_missing_nil ht (h.missing.trans hnone), HistoryWalk.keepOutput, if_pos hkept]
        exact ⟨congrArg (· ++ _) h.output, h.seenCalls, h.seenOutputs, hnone.symm, h.lastReassigned, h.changed⟩
    · refine ⟨[x], ?_, ?_⟩
      · rw [HistoryWalk.keepOutput, if_neg hkept]
        split <;> rfl
      · rw [List.foldl_cons, List.foldl_nil, historyStep_output hx (Or.inr (h.seenOutputs ▸ hfresh))]
        exact (h.bookkeeping s.lastReassigned n).keepOutput hkept
  | other hother =>
    refine ⟨s.missing.map syntheticToolOutput ++ [item], ?_, ?_⟩
    · rw [flush_eq hs, HistoryWalk.push, List.append_assoc]
    · have hinv : HistoryInv pruneOrphans t.withPlaceholders :=
        h.placeholders serde ht ▸ historyInv_foldl serde pruneOrphans ht _
      rw [List.foldl_append, h.placeholders serde ht, List.foldl_cons, List.foldl_nil, historyStep_other hother,
        flush_of_missing_nil hinv (missing_withPlaceholders t), flush_eq hs]
      refine ⟨?_, h.seenCalls, ?_, rfl, h.lastReassigned, h.changed⟩
      · show t.output ++ t.missing.map syntheticToolOutput ++ [item] = _
        rw [h.output, h.missing]
        rfl
      · show t.missing.reverse ++ t.seenOutputs = _
        rw [h.missing, h.seenOutputs]
        rfl

/-! ## Changes of the second walk -/

theorem changed_le_answerAll (l : List String) (s : HistoryWalk) : s.changed ≤ (l.foldl answer s).changed := by
  induction l generalizing s with
  | nil => exact le_refl _
  | cons c l ih =>
    refine le_trans ?_ (ih (s.answer c))
    rw [answer]
    split
    · exact le_refl _
    · exact Nat.le_succ _

theorem keepCall_changed (s : HistoryWalk) (x : Value) (c : String) : (s.keepCall x c).changed = s.changed := by
  rw [keepCall]
  split <;> rfl

theorem changed_le_keepOutput (s : HistoryWalk) (x : Value) (c : String) :
    s.changed ≤ (s.keepOutput pruneOrphans x c).changed := by
  rw [keepOutput]
  split
  · exact Nat.le_succ _
  · split <;> exact le_refl _

/-- The count of changes only grows. -/
theorem changed_le_step (s : HistoryWalk) (item : Value) :
    s.changed ≤ (historyStep serde pruneOrphans s item).changed := by
  rw [historyStep]
  split
  · simp only [walkCall]
    split
    · split
      · exact Nat.le_succ _
      · rw [keepCall_changed]
        exact Nat.le_succ _
    · rw [keepCall_changed]
  split
  · simp only [walkOutput]
    split
    · split
      · split
        · exact Nat.le_succ _
        · refine (Nat.le_succ s.changed).trans ?_
          exact changed_le_keepOutput { s with changed := s.changed + 1 } _ _
      · exact Nat.le_succ _
    · exact changed_le_keepOutput _ _ _
  · exact changed_le_answerAll s.pending s

theorem changed_le_foldl (items : List Value) (s : HistoryWalk) :
    s.changed ≤ (items.foldl (historyStep serde pruneOrphans) s).changed := by
  induction items generalizing s with
  | nil => exact le_refl _
  | cons item items ih => exact (changed_le_step s item).trans (ih _)

/-- Outputs have their calls, when orphans are pruned. -/
theorem mem_seenCalls_of_seenOutputs (hs : HistoryInv pruneOrphans s) (hprune : pruneOrphans = true) {c : String}
    (hc : c ∈ s.seenOutputs) : c ∈ s.seenCalls := by
  obtain ⟨hne, x, hx, hkind, rfl⟩ := mem_outputIds.mp ((hs.mem_seenOutputs c).mp hc)
  obtain ⟨before, after, heq⟩ := List.append_of_mem hx
  rw [hs.mem_seenCalls, heq, callIds_append]
  exact List.mem_append_left _ (hs.follows hprune before x after heq hkind hne)

/-- **The second walk changes what it should not**, when an output without a call becomes a message while a
call waits for its output. -/
theorem changed_of_orphanBeforeAnswer (h : Mirrors s t) (hs : HistoryInv pruneOrphans s)
    (ht : HistoryInv pruneOrphans t) (horphan : OrphanBeforeAnswer pruneOrphans s item) :
    ∃ written, (historyStep serde pruneOrphans s item).output = s.output ++ written
      ∧ 0 < (written.foldl (historyStep serde pruneOrphans) t).changed := by
  have hfresh : itemCallId item ∉ s.seenOutputs := fun hmem =>
    horphan.orphan (mem_seenCalls_of_seenOutputs hs horphan.prune hmem)
  refine ⟨[messageFromText (summarizeItem item)], ?_, ?_⟩
  · rw [historyStep_output horphan.kind (Or.inr hfresh), HistoryWalk.keepOutput,
      if_pos ⟨horphan.prune, horphan.id_ne, horphan.orphan⟩]
  · have hother : isToolItem (messageFromText (summarizeItem item)) = false := by
      rw [isToolItem, isFunctionCallItem_messageFromText, isFunctionOutputItem_messageFromText]
      rfl
    rw [List.foldl_cons, List.foldl_nil, historyStep_other hother, flush_eq ht]
    show 0 < t.changed + t.missing.length
    rw [h.missing]
    exact Nat.add_pos_right _ (List.length_pos_of_ne_nil horphan.waiting)

/-! ## Two walks -/

theorem noOrphanBeforeAnswer_concat {items : List Value} :
    NoOrphanBeforeAnswer serde pruneOrphans (items ++ [item])
      ↔ NoOrphanBeforeAnswer serde pruneOrphans items
        ∧ ¬ OrphanBeforeAnswer pruneOrphans (historyWalk serde pruneOrphans items) item := by
  constructor
  · intro h
    refine ⟨fun before x after heq => h before x (after ++ [item]) ?_, h items item [] rfl⟩
    rw [heq, List.append_assoc, List.cons_append]
  · rintro ⟨hitems, hitem⟩ before x after heq
    rcases List.eq_nil_or_concat after with rfl | ⟨after', y, rfl⟩
    · obtain ⟨rfl, rfl⟩ := List.append_singleton_inj.mp heq
      exact hitem
    · have heq' : items ++ [item] = (before ++ x :: after') ++ [y] := by simpa using heq
      exact hitems before x after' (List.append_singleton_inj.mp heq').1

/-- The second walk over what a first one has written: it mirrors the first one, or has changed something. -/
theorem mirrors_or_changed (items : List Value) :
    (NoOrphanBeforeAnswer serde pruneOrphans items
        ∧ Mirrors (historyWalk serde pruneOrphans items)
          (historyWalk serde pruneOrphans (historyWalk serde pruneOrphans items).output))
      ∨ ¬ NoOrphanBeforeAnswer serde pruneOrphans items
        ∧ 0 < (historyWalk serde pruneOrphans (historyWalk serde pruneOrphans items).output).changed := by
  induction items using List.reverseRecOn with
  | nil =>
    refine Or.inl ⟨fun before x after heq => ?_, ⟨rfl, rfl, rfl, rfl, rfl, rfl⟩⟩
    simp at heq
  | append_singleton items item ih =>
    rw [noOrphanBeforeAnswer_concat, historyWalk_concat]
    have hs := historyInv_walk serde pruneOrphans items
    rcases ih with ⟨hitems, hmirrors⟩ | ⟨hitems, hchanged⟩
    · have ht := historyInv_walk serde pruneOrphans (historyWalk serde pruneOrphans items).output
      by_cases horphan : OrphanBeforeAnswer pruneOrphans (historyWalk serde pruneOrphans items) item
      · obtain ⟨written, hwritten, hchanged⟩ := changed_of_orphanBeforeAnswer hmirrors hs ht horphan
        refine Or.inr ⟨fun h => h.2 horphan, ?_⟩
        rw [hwritten, historyWalk_append]
        exact hchanged
      · obtain ⟨written, hwritten, hmirrors'⟩ :=
          mirrors_step hmirrors hs (reassignedSeen_walk items) ht horphan
        refine Or.inl ⟨⟨hitems, horphan⟩, ?_⟩
        rw [hwritten, historyWalk_append]
        exact hmirrors'
    · refine Or.inr ⟨fun h => hitems h.1, ?_⟩
      obtain ⟨written, hwritten⟩ := (extends_step serde pruneOrphans (historyWalk serde pruneOrphans items) item).output
      rw [← hwritten, historyWalk_append]
      exact lt_of_lt_of_le hchanged (changed_le_foldl written _)

end

/-- **Normalizing again changes nothing exactly when no output without a call becomes a message while a call
waits for its output.** -/
theorem normalizesOnce_iff (serde : Serde) (pruneOrphans : Bool) (items : List Value) :
    NormalizesOnce serde pruneOrphans items ↔ NoOrphanBeforeAnswer serde pruneOrphans items := by
  have hfirst : (normalizeToolCallHistory serde pruneOrphans items).1
      = (historyWalk serde pruneOrphans items).output
        ++ (historyWalk serde pruneOrphans items).missing.map syntheticToolOutput := rfl
  rw [NormalizesOnce, hfirst]
  have ht := historyInv_walk serde pruneOrphans (historyWalk serde pruneOrphans items).output
  rcases @mirrors_or_changed serde pruneOrphans items with
    ⟨hitems, hmirrors⟩ | ⟨hitems, hchanged⟩
  · refine iff_of_true ?_ hitems
    have hwalk := hmirrors.placeholders serde ht
    rw [← historyWalk_append] at hwalk
    have hagain : normalizeToolCallHistory serde pruneOrphans
          ((historyWalk serde pruneOrphans items).output
            ++ (historyWalk serde pruneOrphans items).missing.map syntheticToolOutput)
        = ((historyWalk serde pruneOrphans (historyWalk serde pruneOrphans items).output).withPlaceholders.output
            ++ List.map syntheticToolOutput [],
          (historyWalk serde pruneOrphans (historyWalk serde pruneOrphans items).output).changed
            + ([] : List String).length) := by
      rw [← missing_withPlaceholders (historyWalk serde pruneOrphans (historyWalk serde pruneOrphans items).output),
        normalizeToolCallHistory, hwalk]
      rfl
    rw [hagain, List.map_nil, List.append_nil, hmirrors.changed, withPlaceholders, hmirrors.output, hmirrors.missing]
    rfl
  · refine iff_of_false (fun h => ?_) hitems
    have hcount : (normalizeToolCallHistory serde pruneOrphans _).2 = 0 := congrArg Prod.snd h
    simp only [normalizeToolCallHistory, Nat.add_eq_zero_iff] at hcount
    rw [historyWalk_append] at hcount
    have hle := @changed_le_foldl serde pruneOrphans
      ((historyWalk serde pruneOrphans items).missing.map syntheticToolOutput)
      (historyWalk serde pruneOrphans (historyWalk serde pruneOrphans items).output)
    omega

/-- A call, an output of no call, and the output of the call. -/
def orphanInBetween : List Value := [
  .object [("call_id", .string "a"), ("name", .string "shell"), ("type", .string "function_call")],
  .object [("call_id", .string "x"), ("output", .string "old"), ("type", .string "function_call_output")],
  .object [("call_id", .string "a"), ("output", .string "done"), ("type", .string "function_call_output")]]

/-- The second walk puts a placeholder in and drops the output of the call. -/
theorem not_normalizesOnce_orphan : ¬ NormalizesOnce plainSerde true orphanInBetween := by
  rw [NormalizesOnce]
  decide +kernel

end CodexRouter
