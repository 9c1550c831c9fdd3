/-
# Which tool results survive the normalized history

A call with the id `c` and, somewhere after it, its result, the only two tool
items with that id.  `normalizeToolCallHistory` answers every pending call with
a placeholder as soon as it meets an item that is no tool item, and it drops a
second output of a known id.  Hence the result survives exactly when only tool
items stand between the call and the result (`keepsResult_iff`); a message in
between costs it.

The walk from the call to the result has two phases.  In `Waiting` the call is
pending and no output of it was written; a non-tool item ends it
(`placeholder_of_waiting`).  Afterwards the outputs written under `c` never
change, because an id is written once (`historyInv_walk`) and the output only
grows (`extends_step`).

An id of the form `call_compat_n` may have been given to a renamed duplicate
before the call is met; the second part of the condition is about these ids.
-/
import CodexRouter.ToolHistoryPairing

namespace CodexRouter

open HistoryWalk

/-- `call` and `result` are the only tool items with the id `c`, the result
after the call. -/
structure OneCallOneResult (c : String) (before : List Value) (call : Value)
    (between : List Value) (result : Value) (after : List Value) : Prop where
  id_ne : c ≠ ""
  call_kind : isFunctionCallItem call
  call_id : itemCallId call = c
  result_kind : isFunctionOutputItem result
  result_id : itemCallId result = c
  alone : ∀ x ∈ before ++ between ++ after, isToolItem x → itemCallId x ≠ c

/-- The result is there, and no placeholder stands in for it. -/
def KeepsResult (c : String) (result : Value) (items : List Value) : Prop :=
  result ∈ items ∧ (syntheticToolOutput c ∈ items → result = syntheticToolOutput c)

/-! ## The walk only grows -/

/-- `t` is a later state of the walk than `s`. -/
structure Extends (s t : HistoryWalk) : Prop where
  output : s.output <+: t.output
  seenCalls : s.seenCalls ⊆ t.seenCalls
  seenOutputs : s.seenOutputs ⊆ t.seenOutputs

theorem Extends.refl (s : HistoryWalk) : Extends s s :=
  ⟨List.prefix_rfl, fun _ h => h, fun _ h => h⟩

theorem Extends.trans {s t u : HistoryWalk} (h : Extends s t) (h' : Extends t u) : Extends s u :=
  ⟨h.output.trans h'.output, fun _ hc => h'.seenCalls (h.seenCalls hc),
    fun _ hc => h'.seenOutputs (h.seenOutputs hc)⟩

theorem extends_bookkeeping (s : HistoryWalk) (r : List (String × String)) (n : ℕ) :
    Extends s { s with lastReassigned := r, changed := n } :=
  ⟨List.prefix_rfl, fun _ h => h, fun _ h => h⟩

theorem extends_push (s : HistoryWalk) (x : Value) : Extends s (s.push x) :=
  ⟨List.prefix_append _ _, fun _ h => h, fun _ h => h⟩

theorem extends_keepCall (s : HistoryWalk) (x : Value) (c : String) :
    Extends s (s.keepCall x c) := by
  rw [keepCall]
  split
  · exact extends_push s x
  · exact ⟨List.prefix_append _ _, fun _ h => List.mem_cons_of_mem _ h, fun _ h => h⟩

theorem extends_keepOutput (s : HistoryWalk) (pruneOrphans : Bool) (x : Value) (c : String) :
    Extends s (s.keepOutput pruneOrphans x c) := by
  rw [keepOutput]
  split
  · exact ⟨List.prefix_append _ _, fun _ h => h, fun _ h => h⟩
  split
  · exact extends_push s x
  · exact ⟨List.prefix_append _ _, fun _ h => h, fun _ h => List.mem_cons_of_mem _ h⟩

theorem extends_answer (s : HistoryWalk) (c : String) : Extends s (s.answer c) := by
  rw [answer]
  split
  · exact Extends.refl s
  · exact ⟨List.prefix_append _ _, fun _ h => h, fun _ h => List.mem_cons_of_mem _ h⟩

theorem extends_answerAll (l : List String) (s : HistoryWalk) :
    Extends s (l.foldl answer s) := by
  induction l generalizing s with
  | nil => exact Extends.refl s
  | cons c l ih => exact (extends_answer s c).trans (ih _)

theorem extends_flush (s : HistoryWalk) : Extends s s.flush :=
  have h := extends_answerAll s.pending s
  ⟨h.output, h.seenCalls, h.seenOutputs⟩

section

variable (serde : Serde) (pruneOrphans : Bool)

/-- One turn only adds to the written items and to the known ids. -/
theorem extends_step (s : HistoryWalk) (item : Value) :
    Extends s (historyStep serde pruneOrphans s item) := by
  have hturn := historyStep_turn serde pruneOrphans s item
  generalize historyStep serde pruneOrphans s item = t at hturn ⊢
  cases hturn with
  | drop _ => exact extends_bookkeeping s _ _
  | call _ _ _ _ _ => exact (extends_bookkeeping s _ _).trans (extends_keepCall _ _ _)
  | output _ _ _ _ => exact (extends_bookkeeping s _ _).trans (extends_keepOutput _ _ _ _)
  | other _ => exact (extends_flush s).trans (extends_push _ item)

theorem extends_foldl (items : List Value) (s : HistoryWalk) :
    Extends s (items.foldl (historyStep serde pruneOrphans) s) := by
  induction items generalizing s with
  | nil => exact Extends.refl s
  | cons item items ih => exact (extends_step serde pruneOrphans s item).trans (ih _)

theorem historyWalk_append (a b : List Value) :
    historyWalk serde pruneOrphans (a ++ b)
      = b.foldl (historyStep serde pruneOrphans) (historyWalk serde pruneOrphans a) :=
  List.foldl_append

theorem historyWalk_concat (a : List Value) (x : Value) :
    historyWalk serde pruneOrphans (a ++ [x])
      = historyStep serde pruneOrphans (historyWalk serde pruneOrphans a) x :=
  historyWalk_append serde pruneOrphans a [x]

/-- The items returned start with the output after any part of the walk. -/
theorem output_prefix_normalize (a b : List Value) :
    (historyWalk serde pruneOrphans a).output
      <+: (normalizeToolCallHistory serde pruneOrphans (a ++ b)).1 := by
  rw [normalizeToolCallHistory_eq_flush, historyWalk_append]
  exact ((extends_foldl serde pruneOrphans b _).trans (extends_flush _)).output

end

/-! ## Where the ids come from -/

section

variable {serde : Serde} {pruneOrphans : Bool} {s : HistoryWalk} {c : String} {item : Value}

@[simp] theorem flush_lastReassigned (s : HistoryWalk) :
    s.flush.lastReassigned = s.lastReassigned := by
  have key : ∀ (l : List String) (s : HistoryWalk),
      (l.foldl answer s).lastReassigned = s.lastReassigned := by
    intro l
    induction l with
    | nil => exact fun s => rfl
    | cons c l ih => exact fun s => (ih _).trans (answer_lastReassigned c)
  exact key s.pending s

/-- The ids given to renamed duplicates are ids of written calls. -/
def ReassignedSeen (s : HistoryWalk) : Prop := ∀ e ∈ s.lastReassigned, e.2 ∈ s.seenCalls

theorem reassignedSeen_step (h : ReassignedSeen s) (item : Value) :
    ReassignedSeen (historyStep serde pruneOrphans s item) := by
  have hext := extends_step serde pruneOrphans s item
  have hturn := historyStep_turn serde pruneOrphans s item
  generalize historyStep serde pruneOrphans s item = t at hext hturn ⊢
  cases hturn with
  | drop _ => exact h
  | @call x r n _ _ _ _ hr =>
    intro e he
    rw [keepCall] at he ⊢
    split at he
    · rename_i hx
      rw [if_pos hx]
      exact (hr e he).elim (h e) fun h' => absurd hx h'.2
    · rename_i hx
      rw [if_neg hx]
      exact (hr e he).elim (fun h' => List.mem_cons_of_mem _ (h e h'))
        fun h' => h'.1 ▸ List.mem_cons_self
  | @output x n _ _ _ _ =>
    have hl : (keepOutput pruneOrphans { s with changed := n } x (itemCallId x)).lastReassigned
        = s.lastReassigned := by
      rw [keepOutput]; split
      · rfl
      · split <;> rfl
    intro e he
    exact hext.seenCalls (h e (hl ▸ he))
  | other _ =>
    intro e he
    exact hext.seenCalls (h e (flush_lastReassigned s ▸ he))

theorem reassignedSeen_walk (items : List Value) :
    ReassignedSeen (historyWalk serde pruneOrphans items) := by
  have key : ∀ s, ReassignedSeen s →
      ReassignedSeen (items.foldl (historyStep serde pruneOrphans) s) := by
    induction items with
    | nil => exact fun s h => h
    | cons item items ih => exact fun s h => ih _ (reassignedSeen_step h item)
  exact key _ (by simp [ReassignedSeen])

/-- An output under `c` needs a call under `c` or an output item with that id. -/
theorem notMem_seenOutputs_step (hr : ReassignedSeen s) (hinv : HistoryInv pruneOrphans s)
    (hitem : isToolItem item → itemCallId item ≠ c) (hc : c ∉ s.seenOutputs)
    (hcalls : c ∉ s.seenCalls ∨ (∀ e ∈ s.lastReassigned, e.2 ≠ c) ∧ isToolItem item) :
    c ∉ (historyStep serde pruneOrphans s item).seenOutputs := by
  have hturn := historyStep_turn serde pruneOrphans s item
  generalize historyStep serde pruneOrphans s item = t at hturn ⊢
  cases hturn with
  | drop _ => exact hc
  | @call x r n _ _ _ _ _ =>
    rw [keepCall]
    split <;> exact hc
  | @output x n hout _ _ hfrom =>
    have hx : itemCallId x ≠ c := by
      rcases hfrom with rfl | ⟨_, e, he, hex⟩
      · exact hitem (by simp [isToolItem, hout])
      · rintro rfl
        rcases hcalls with hcalls | ⟨hvals, _⟩
        · exact hcalls (hex ▸ hr e he)
        · exact hvals e he hex
    rw [keepOutput]
    split
    · exact hc
    split
    · exact hc
    · exact fun hmem => (List.mem_cons.mp hmem).elim (fun h => hx h.symm) hc
  | other hother =>
    rcases hcalls with hcalls | ⟨_, htool⟩
    · obtain ⟨_, _, hmem⟩ := hinv.answerAll (l := s.pending) fun _ h => h
      exact fun h => ((hmem c).mp h).elim (fun hp => hcalls (hinv.pending_seen c hp)) hc
    · rw [htool] at hother
      simp at hother

end

/-! ## From the call to the result -/

/-- The call `c` was written, no output of it was, and no renamed duplicate has
its id. -/
structure Waiting (c : String) (s : HistoryWalk) : Prop where
  called : c ∈ s.seenCalls
  unanswered : c ∉ s.seenOutputs
  notReassigned : ∀ e ∈ s.lastReassigned, e.2 ≠ c

section

variable {serde : Serde} {pruneOrphans : Bool} {s : HistoryWalk} {c : String} {item : Value}

/-- Before the call: an id that no item has, and that was not given to a
renamed duplicate, has no output. -/
theorem unanswered_walk {items : List Value}
    (hitems : ∀ x ∈ items, isToolItem x → itemCallId x ≠ c)
    (hc : c ∉ (historyWalk serde pruneOrphans items).seenCalls) :
    c ∉ (historyWalk serde pruneOrphans items).seenOutputs := by
  induction items using List.reverseRecOn with
  | nil => simp [historyWalk]
  | append_singleton items x ih =>
    rw [historyWalk_concat] at hc ⊢
    have hc' : c ∉ (historyWalk serde pruneOrphans items).seenCalls :=
      fun h => hc ((extends_step serde pruneOrphans _ x).seenCalls h)
    exact notMem_seenOutputs_step (reassignedSeen_walk items)
      (historyInv_walk serde pruneOrphans items) (hitems x (by simp))
      (ih (fun y hy => hitems y (by simp [hy])) hc') (Or.inl hc')

/-- The call itself. -/
theorem waiting_call (hr : ReassignedSeen s) (hitem : isFunctionCallItem item)
    (hne : itemCallId item ≠ "") (hc : itemCallId item ∉ s.seenCalls)
    (ho : itemCallId item ∉ s.seenOutputs) :
    Waiting (itemCallId item) (historyStep serde pruneOrphans s item) := by
  rw [historyStep, if_pos hitem, walkCall]
  simp only [hc, and_false, if_false]
  rw [keepCall, if_neg hne]
  refine ⟨List.mem_cons_self, ho, fun e he h => hc ?_⟩
  exact h ▸ hr e (List.mem_filter.mp he).1

/-- Tool items with other ids leave the call waiting. -/
theorem waiting_step (h : Waiting c s) (hr : ReassignedSeen s) (hinv : HistoryInv pruneOrphans s)
    (hitem : itemCallId item ≠ c) (htool : isToolItem item) :
    Waiting c (historyStep serde pruneOrphans s item) := by
  refine ⟨(extends_step serde pruneOrphans s item).seenCalls h.called,
    notMem_seenOutputs_step hr hinv (fun _ => hitem) h.unanswered
      (Or.inr ⟨h.notReassigned, htool⟩), ?_⟩
  have hturn := historyStep_turn serde pruneOrphans s item
  generalize historyStep serde pruneOrphans s item = t at hturn ⊢
  cases hturn with
  | drop _ => exact h.notReassigned
  | @call x r n _ _ hnew _ hr' =>
    have hl : (keepCall { s with lastReassigned := r, changed := n } x
        (itemCallId x)).lastReassigned = r := by
      rw [keepCall]; split <;> rfl
    intro e he
    rw [hl] at he
    refine (hr' e he).elim (h.notReassigned e) fun hnewId heq => ?_
    rcases hnew with hempty | hfree
    · exact hnewId.2 hempty
    · exact hfree (hnewId.1 ▸ heq ▸ h.called)
  | @output x n _ _ _ _ =>
    have hl : (keepOutput pruneOrphans { s with changed := n } x (itemCallId x)).lastReassigned
        = s.lastReassigned := by
      rw [keepOutput]; split
      · rfl
      · split <;> rfl
    rw [hl]
    exact h.notReassigned
  | other hother => simp [htool] at hother

/-- A non-tool item answers the waiting call with a placeholder. -/
theorem placeholder_of_waiting (h : Waiting c s) (hinv : HistoryInv pruneOrphans s)
    (hother : isToolItem item = false) :
    syntheticToolOutput c ∈ (historyStep serde pruneOrphans s item).output := by
  simp only [isToolItem, Bool.or_eq_false_iff] at hother
  have hpend : c ∈ s.pending := (hinv.answered c h.called).resolve_right h.unanswered
  have hout := output_answerAll hinv.pending_nodup s
  rw [historyStep, hother.1, hother.2]
  simp only [Bool.false_eq_true, if_false, HistoryWalk.push, flush, hout]
  refine List.mem_append_left _ (List.mem_append_right _ (List.mem_map_of_mem ?_))
  exact List.mem_filter.mpr ⟨hpend, by simpa using h.unanswered⟩

/-- The items between the call and the result: only tool items keep the call
waiting, any other item leaves a placeholder. -/
theorem waiting_foldl {items : List Value} {pre : List Value}
    (h : Waiting c (historyWalk serde pruneOrphans pre))
    (hitems : ∀ x ∈ items, isToolItem x → itemCallId x ≠ c) :
    ((∀ x ∈ items, isToolItem x) → Waiting c (historyWalk serde pruneOrphans (pre ++ items)))
      ∧ ((¬ ∀ x ∈ items, isToolItem x) →
          syntheticToolOutput c ∈ (historyWalk serde pruneOrphans (pre ++ items)).output) := by
  induction items generalizing pre with
  | nil => simpa using h
  | cons x items ih =>
    have hsplit : pre ++ x :: items = (pre ++ [x]) ++ items := by simp
    have hinv := historyInv_walk serde pruneOrphans pre
    rw [hsplit]
    by_cases htool : isToolItem x
    · have hw : Waiting c (historyWalk serde pruneOrphans (pre ++ [x])) := by
        rw [historyWalk_concat]
        exact waiting_step h (reassignedSeen_walk pre) hinv (hitems x (by simp) htool) htool
      obtain ⟨h1, h2⟩ := ih hw fun y hy => hitems y (List.mem_cons_of_mem _ hy)
      simpa [htool] using And.intro h1 (by simpa using h2)
    · have hp : syntheticToolOutput c ∈ (historyWalk serde pruneOrphans (pre ++ [x])).output := by
        rw [historyWalk_concat]
        exact placeholder_of_waiting h hinv (by simpa using htool)
      refine ⟨fun hall => absurd (hall x (by simp)) htool, fun _ => ?_⟩
      rw [historyWalk_append]
      exact (extends_foldl serde pruneOrphans items _).output.subset hp

end

/-! ## The result -/

/-- In a list without repeated output ids, an id has one output item. -/
theorem eq_of_mem_outputs {items : List Value} (h : (outputIds items).Nodup) {x y : Value}
    (hx : x ∈ items) (hy : y ∈ items) (hxo : isFunctionOutputItem x) (hyo : isFunctionOutputItem y)
    (hid : itemCallId x = itemCallId y) (hne : itemCallId y ≠ "") : x = y := by
  induction items with
  | nil => simp at hx
  | cons z items ih =>
    rw [← List.singleton_append, outputIds_append, List.nodup_append] at h
    obtain ⟨_, hitems, hdisj⟩ := h
    have key : ∀ w ∈ items, isFunctionOutputItem w → itemCallId w = itemCallId z →
        isFunctionOutputItem z → itemCallId z = "" := by
      intro w hw hwo hwz hzo
      by_contra hz
      refine hdisj (itemCallId z) ?_ (itemCallId w) ?_ hwz.symm
      · simp [outputIds_singleton_output hzo hz]
      · exact mem_outputIds.mpr ⟨hwz ▸ hz, w, hw, hwo, rfl⟩
    rcases List.mem_cons.mp hx with rfl | hx' <;> rcases List.mem_cons.mp hy with rfl | hy'
    · rfl
    · exact absurd (hid ▸ key y hy' hyo hid.symm hxo) hne
    · exact absurd (key x hx' hxo hid hyo) hne
    · exact ih hitems hx' hy'

section

variable {serde : Serde} {pruneOrphans : Bool} {s : HistoryWalk} {item : Value}

/-- A first output of a written call is written as it is. -/
theorem mem_output_step (hitem : isFunctionOutputItem item) (hc : itemCallId item ∈ s.seenCalls)
    (ho : itemCallId item ∉ s.seenOutputs) :
    item ∈ (historyStep serde pruneOrphans s item).output := by
  have hcall : isFunctionCallItem item = false := by
    by_contra hcall
    exact not_isFunctionOutputItem_of_call (by simpa using hcall) hitem
  rw [historyStep, hcall, if_neg (by simp), if_pos hitem, walkOutput]
  simp only [ho, and_false, if_false]
  rw [keepOutput, if_neg (fun h => h.2.2 hc)]
  split <;> simp [HistoryWalk.push]

end

/-- **The state in front of the result decides.**  The result is returned
exactly when no output was written under its id, or the one written is equal to
it. -/
theorem result_mem_normalize_iff (serde : Serde) (pruneOrphans : Bool) {pre after : List Value}
    {result : Value} (hkind : isFunctionOutputItem result) (hne : itemCallId result ≠ "")
    (hcall : itemCallId result ∈ (historyWalk serde pruneOrphans pre).seenCalls) :
    result ∈ (normalizeToolCallHistory serde pruneOrphans (pre ++ result :: after)).1
      ↔ itemCallId result ∉ (historyWalk serde pruneOrphans pre).seenOutputs
        ∨ result ∈ (historyWalk serde pruneOrphans pre).output := by
  have hinv := historyInv_walk serde pruneOrphans pre
  constructor
  · intro hmem
    by_cases ho : itemCallId result ∈ (historyWalk serde pruneOrphans pre).seenOutputs
    · obtain ⟨_, y, hy, hyo, hyid⟩ := mem_outputIds.mp ((hinv.mem_seenOutputs _).mp ho)
      have hnodup := (normalizeToolCallHistory_paired serde pruneOrphans (pre ++ result :: after)).2.1
      have hy' := (output_prefix_normalize serde pruneOrphans pre (result :: after)).subset hy
      exact Or.inr (eq_of_mem_outputs hnodup hy' hmem hyo hkind hyid hne ▸ hy)
    · exact Or.inl ho
  · rintro (ho | hmem)
    · have hstep : result ∈ (historyWalk serde pruneOrphans (pre ++ [result])).output := by
        rw [historyWalk_concat]
        exact mem_output_step hkind hcall ho
      have hprefix := output_prefix_normalize serde pruneOrphans (pre ++ [result]) after
      simpa using hprefix.subset hstep
    · exact (output_prefix_normalize serde pruneOrphans pre _).subset hmem

section

variable {c : String} {before between after : List Value} {call result : Value}

/-- In a normalized history the result is the only output of its call. -/
theorem keepsResult_iff_mem (serde : Serde) (pruneOrphans : Bool) (items : List Value)
    (hne : itemCallId result ≠ "") (hkind : isFunctionOutputItem result) :
    KeepsResult (itemCallId result) result (normalizeToolCallHistory serde pruneOrphans items).1
      ↔ result ∈ (normalizeToolCallHistory serde pruneOrphans items).1 := by
  refine ⟨And.left, fun hmem => ⟨hmem, fun hsyn => ?_⟩⟩
  have hnodup := (normalizeToolCallHistory_paired serde pruneOrphans items).2.1
  exact eq_of_mem_outputs hnodup hmem hsyn hkind (isFunctionOutputItem_synthetic _)
    (itemCallId_synthetic _).symm (by simpa using hne)

/-- From a call under a new id to its result: the call still waits if only tool
items were met, and has a placeholder otherwise. -/
theorem OneCallOneResult.waiting_or_placeholder (serde : Serde) (pruneOrphans : Bool)
    (h : OneCallOneResult c before call between result after)
    (hc : c ∉ (historyWalk serde pruneOrphans before).seenCalls) :
    ((∀ x ∈ between, isToolItem x) →
        Waiting c (historyWalk serde pruneOrphans (before ++ [call] ++ between)))
      ∧ ((¬ ∀ x ∈ between, isToolItem x) → syntheticToolOutput c
          ∈ (historyWalk serde pruneOrphans (before ++ [call] ++ between)).output) := by
  have hid := h.call_id
  have ho : c ∉ (historyWalk serde pruneOrphans before).seenOutputs :=
    unanswered_walk (fun x hx => h.alone x (by simp [hx])) hc
  have hw : Waiting c (historyWalk serde pruneOrphans (before ++ [call])) := by
    rw [historyWalk_concat, ← hid]
    exact waiting_call (reassignedSeen_walk before) h.call_kind (hid ▸ h.id_ne) (hid ▸ hc)
      (hid ▸ ho)
  exact waiting_foldl hw fun x hx => h.alone x (by simp [hx])

/-- The call is a written call when its result is met. -/
theorem OneCallOneResult.mem_seenCalls (serde : Serde) (pruneOrphans : Bool)
    (h : OneCallOneResult c before call between result after) :
    c ∈ (historyWalk serde pruneOrphans (before ++ [call] ++ between)).seenCalls := by
  rw [historyWalk_append]
  refine (extends_foldl serde pruneOrphans between _).seenCalls ?_
  rw [historyWalk_concat]
  by_cases hc : c ∈ (historyWalk serde pruneOrphans before).seenCalls
  · exact (extends_step serde pruneOrphans _ call).seenCalls hc
  · have hid := h.call_id
    have ho := unanswered_walk (fun x hx => h.alone x (by simp [hx])) hc
    rw [← hid] at hc ho ⊢
    exact (waiting_call (reassignedSeen_walk before) h.call_kind (hid ▸ h.id_ne) hc ho).called

/-- **Which results are kept.**  A result is kept, and no placeholder stands in
for it, exactly when only tool items stand between the call and the result (or
the result is itself the placeholder).  Where the id was given to a renamed
duplicate before the call, it is kept exactly when no output has been written
under the id in front of the result, or one equal to it. -/
theorem keepsResult_iff (serde : Serde) (pruneOrphans : Bool)
    (h : OneCallOneResult c before call between result after) :
    KeepsResult c result (normalizeToolCallHistory serde pruneOrphans
        (before ++ [call] ++ between ++ result :: after)).1
      ↔ (c ∉ (historyWalk serde pruneOrphans before).seenCalls →
          (∀ x ∈ between, isToolItem x) ∨ result = syntheticToolOutput c)
        ∧ (c ∈ (historyWalk serde pruneOrphans before).seenCalls →
          c ∉ (historyWalk serde pruneOrphans (before ++ [call] ++ between)).seenOutputs
            ∨ result ∈ (historyWalk serde pruneOrphans (before ++ [call] ++ between)).output) := by
  have hseen := h.mem_seenCalls serde pruneOrphans
  have hcases := h.waiting_or_placeholder serde pruneOrphans
  have hinv := historyInv_walk serde pruneOrphans (before ++ [call] ++ between)
  obtain ⟨hne, -, -, hkind, rfl, -⟩ := h
  rw [keepsResult_iff_mem serde pruneOrphans _ hne hkind,
    result_mem_normalize_iff serde pruneOrphans hkind hne hseen]
  by_cases hc : itemCallId result ∈ (historyWalk serde pruneOrphans before).seenCalls
  · simp [hc]
  obtain ⟨hwait, hplace⟩ := hcases hc
  simp only [hc, not_false_eq_true, forall_const, IsEmpty.forall_iff, and_true]
  by_cases htool : ∀ x ∈ between, isToolItem x
  · exact iff_of_true (Or.inl (hwait htool).unanswered) (Or.inl htool)
  have hmem := hplace htool
  have hanswered : itemCallId result
      ∈ (historyWalk serde pruneOrphans (before ++ [call] ++ between)).seenOutputs := by
    refine (hinv.mem_seenOutputs _).mpr (mem_outputIds.mpr ⟨hne, _, hmem, ?_⟩)
    exact ⟨isFunctionOutputItem_synthetic _, itemCallId_synthetic _⟩
  simp only [hanswered, not_true_eq_false, false_or, htool]
  constructor
  · intro hres
    exact eq_of_mem_outputs hinv.outputs_nodup hres hmem hkind (isFunctionOutputItem_synthetic _)
      (itemCallId_synthetic _).symm (by simpa using hne)
  · exact fun heq => heq ▸ hmem

end

/-- A `shell` call, its result, and a message. -/
def shellCall : Value :=
  .object [("arguments", .string "ls"), ("call_id", .string "call_1"), ("name", .string "shell"),
    ("type", .string "function_call")]

def shellResult : Value :=
  .object [("call_id", .string "call_1"), ("output", .string "README.md"),
    ("type", .string "function_call_output")]

/-- With the result right after the call it is kept. -/
theorem keepsResult_shell :
    KeepsResult "call_1" shellResult
      (normalizeToolCallHistory plainSerde true [shellCall, shellResult]).1 := by
  have hone : OneCallOneResult "call_1" [] shellCall [] shellResult [] :=
    ⟨by decide, by decide, by decide, by decide, by decide, by simp⟩
  refine (keepsResult_iff plainSerde true hone).mpr ?_
  exact ⟨fun _ => Or.inl (by simp), fun h => absurd h (by decide)⟩

/-- A message between the call and its result costs the result. -/
theorem not_keepsResult_of_message :
    ¬ ∀ (serde : Serde) (pruneOrphans : Bool) (c : String) (before between after : List Value)
      (call result : Value), OneCallOneResult c before call between result after →
        KeepsResult c result (normalizeToolCallHistory serde pruneOrphans
          (before ++ [call] ++ between ++ result :: after)).1 := by
  intro h
  have hkept := (h plainSerde true "call_1" [] [messageFromText "go on"] [] shellCall shellResult
    ⟨by decide, by decide, by decide, by decide, by decide, by decide⟩).1
  revert hkept
  decide

end CodexRouter
