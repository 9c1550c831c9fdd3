/-
# The tool-call history of a Responses request

The input items of `responses_compat.rs` and `normalize_tool_call_history`, the
pass that makes every function call in the history meet exactly one output.

The pass is a left-to-right walk with five mutable collections, kept here in
`HistoryWalk`:

* `seenCalls`, `seenOutputs` : the call ids already written as a call item, as
  an output item;
* `pending` : the calls still waiting for an output;
* `lastReassigned` : duplicate call id ↦ the fresh id its last duplicate got;
* `output` : the items written so far.

`historyStep` is one turn of the loop, `normalizeToolCallHistory` the whole
pass.  `HistoryInv` is what a turn preserves (`historyInv_step`), hence what
holds after any prefix of the list (`historyInv_walk`).
-/
import CodexRouter.Base.Text
import CodexRouter.Base.Json
import CodexRouter.Base.Fresh

namespace CodexRouter

open Text

/-! ## Items -/

/-- `item_type`. -/
def itemType (item : Value) : String :=
  toAsciiLowercase ((item.getStr "type").getD "")

/-- `message_from_text`. -/
def messageFromText (text : String) : Value :=
  .object [
    ("content", .array [.object [("text", .string text), ("type", .string "input_text")]]),
    ("role", .string "user"),
    ("type", .string "message")]

/-- `summarize_item`. -/
def summarizeItem (item : Value) : String :=
  let kind := itemType item
  let callId := (((item.get "call_id").or (item.get "id")).bind Value.asStr).getD ""
  let output := ((item.getStr "output").or (item.getStr "text")).getD ""
  let snippet := takeChars output 240
  if snippet = "" then
    if callId = "" then
      "[" ++ kind ++ " omitted because the upstream model cannot consume this item]"
    else
      "[" ++ kind ++ " " ++ callId
        ++ " omitted because the upstream model cannot consume this item]"
  else "[" ++ kind ++ " " ++ callId ++ "] " ++ snippet

/-- `is_function_output_item`. -/
def isFunctionOutputItem (item : Value) : Bool :=
  itemType item ∈ ["function_call_output", "custom_tool_call_output", "computer_call_output",
    "local_shell_call_output", "apply_patch_call_output"]

/-- `is_function_call_item`. -/
def isFunctionCallItem (item : Value) : Bool :=
  itemType item ∈ ["function_call", "custom_tool_call", "local_shell_call", "apply_patch_call"]

/-- `item_call_id`: the `call_id`, else the `id`, else the empty string. -/
def itemCallId (item : Value) : String :=
  (((item.get "call_id").or (item.get "id")).bind Value.asStr).getD ""

/-- `synthetic_tool_output`. -/
def syntheticToolOutput (callId : String) : Value :=
  .object [
    ("call_id", .string callId),
    ("output", .string "[tool result missing from history; continue the user task]"),
    ("type", .string "function_call_output")]

/-- `function_call_signature`: the name and the printed arguments. -/
def functionCallSignature (serde : Serde) (item : Value) : String × String :=
  let name := (item.getStr "name").getD ""
  let arguments := match item.get "arguments" with
    | some (.string text) => text
    | some other => serde.toText other
    | none => ""
  (name, arguments)

/-- `set_item_call_id`: an `id` that was generated here follows the `call_id`. -/
def setItemCallId (callId : String) : Value → Value
  | .object m =>
    let m := Members.insert "call_id" (.string callId) m
    match (Members.get "id" m).bind Value.asStr with
    | some id =>
      if startsWith id "call_compat_" then .object (Members.insert "id" (.string callId) m)
      else .object m
    | none => .object m
  | item => item

/-- `next_unique_call_compat_id`.  The source counts in `u64` and searches
without a bound; there is an unused number among the first `used.len() + 1`. -/
def nextUniqueCallCompatId (used : List String) : String :=
  (searchFresh (numbered "call_compat_") used (used.length + 1) 1).getD ""

/-- `existing_call_with_signature`. -/
def existingCallWithSignature (serde : Serde) (items : List Value)
    (signature : String × String) : Bool :=
  items.any fun item => isFunctionCallItem item && functionCallSignature serde item == signature

/-! ## The walk -/

/-- The mutable state of `normalize_tool_call_history`. -/
structure HistoryWalk where
  output : List Value := []
  seenCalls : List String := []
  seenOutputs : List String := []
  pending : List String := []
  lastReassigned : List (String × String) := []
  changed : ℕ := 0

namespace HistoryWalk

/-- Append an item to the output. -/
def push (s : HistoryWalk) (item : Value) : HistoryWalk :=
  { s with output := s.output ++ [item] }

/-- Write a call item and register its id. -/
def keepCall (s : HistoryWalk) (item : Value) (callId : String) : HistoryWalk :=
  if callId = "" then s.push item
  else
    { s with
      seenCalls := callId :: s.seenCalls
      pending := if callId ∈ s.pending then s.pending else s.pending ++ [callId]
      output := s.output ++ [item] }

/-- Write an output item and register its id; with `pruneOrphans` an output
without a call becomes a user message. -/
def keepOutput (pruneOrphans : Bool) (s : HistoryWalk) (item : Value) (callId : String) :
    HistoryWalk :=
  if pruneOrphans ∧ callId ≠ "" ∧ callId ∉ s.seenCalls then
    { s with
      output := s.output ++ [messageFromText (summarizeItem item)]
      changed := s.changed + 1 }
  else if callId = "" then s.push item
  else
    { s with
      seenOutputs := callId :: s.seenOutputs
      pending := s.pending.filter (· ≠ callId)
      output := s.output ++ [item] }

/-- Answer one pending call with a placeholder, unless it has its output. -/
def answer (s : HistoryWalk) (callId : String) : HistoryWalk :=
  if callId ∈ s.seenOutputs then s
  else
    { s with
      output := s.output ++ [syntheticToolOutput callId]
      seenOutputs := callId :: s.seenOutputs
      changed := s.changed + 1 }

/-- Answer every pending call, the loop in front of a non-tool item. -/
def flush (s : HistoryWalk) : HistoryWalk :=
  { s.pending.foldl answer s with pending := [] }

end HistoryWalk

open HistoryWalk

section Walk

variable (serde : Serde) (pruneOrphans : Bool)

/-- The loop body on a call item.  A second call with a known id is dropped
when a written call has its signature, and renamed otherwise. -/
def walkCall (s : HistoryWalk) (item : Value) : HistoryWalk :=
  let callId := itemCallId item
  if callId ≠ "" ∧ callId ∈ s.seenCalls then
    if existingCallWithSignature serde s.output (functionCallSignature serde item) then
      { s with changed := s.changed + 1 }
    else
      let newId := nextUniqueCallCompatId s.seenCalls
      keepCall
        { s with
          lastReassigned := (callId, newId) :: s.lastReassigned.filter (·.1 ≠ callId)
          changed := s.changed + 1 }
        (setItemCallId newId item) newId
  else
    keepCall { s with lastReassigned := s.lastReassigned.filter (·.1 ≠ callId) } item callId

/-- The loop body on an output item.  A second output of a known id goes to the
id its call was renamed to, and is dropped when there is none. -/
def walkOutput (s : HistoryWalk) (item : Value) : HistoryWalk :=
  let callId := itemCallId item
  if callId ≠ "" ∧ callId ∈ s.seenOutputs then
    match s.lastReassigned.lookup callId with
    | some newId =>
      if newId ∈ s.seenOutputs then { s with changed := s.changed + 1 }
      else
        keepOutput pruneOrphans { s with changed := s.changed + 1 }
          (setItemCallId newId item) newId
    | none => { s with changed := s.changed + 1 }
  else keepOutput pruneOrphans s item callId

/-- One turn of the loop. -/
def historyStep (s : HistoryWalk) (item : Value) : HistoryWalk :=
  if isFunctionCallItem item then walkCall serde s item
  else if isFunctionOutputItem item then walkOutput pruneOrphans s item
  else s.flush.push item

/-- The state of the loop after a list of items. -/
def historyWalk (items : List Value) : HistoryWalk :=
  items.foldl (historyStep serde pruneOrphans) {}

/-- `normalize_tool_call_history`: the new items and the number of changes. -/
def normalizeToolCallHistory (items : List Value) : List Value × ℕ :=
  let s := historyWalk serde pruneOrphans items
  let missing := s.pending.filter (· ∉ s.seenOutputs)
  (s.output ++ missing.map syntheticToolOutput, s.changed + missing.length)

end Walk

/-! ## Items: kinds and ids -/

/-- The type of an object is read from its `type` member. -/
theorem itemType_object (m : Members) :
    itemType (.object m) = toAsciiLowercase (((Members.get "type" m).bind Value.asStr).getD "") :=
  rfl

/-- An item with a type is an object. -/
theorem exists_object_of_itemType_ne {item : Value} (h : itemType item ≠ "") :
    ∃ m, item = .object m := by
  cases item with
  | object m => exact ⟨m, rfl⟩
  | _ => exact absurd rfl h

/-- A call item is an object. -/
theorem exists_object_of_isFunctionCallItem {item : Value} (h : isFunctionCallItem item) :
    ∃ m, item = .object m := by
  refine exists_object_of_itemType_ne fun h0 => ?_
  rw [isFunctionCallItem, h0] at h
  exact absurd h (by decide)

/-- An output item is an object. -/
theorem exists_object_of_isFunctionOutputItem {item : Value} (h : isFunctionOutputItem item) :
    ∃ m, item = .object m := by
  refine exists_object_of_itemType_ne fun h0 => ?_
  rw [isFunctionOutputItem, h0] at h
  exact absurd h (by decide)

/-- No item is both a call and an output. -/
theorem not_isFunctionOutputItem_of_call {item : Value} (h : isFunctionCallItem item) :
    ¬ isFunctionOutputItem item := by
  simp only [isFunctionCallItem, isFunctionOutputItem, List.mem_cons, List.not_mem_nil, or_false,
    decide_eq_true_eq] at h ⊢
  rcases h with h | h | h | h <;> rw [h] <;> decide

@[simp] theorem isFunctionCallItem_messageFromText (text : String) :
    isFunctionCallItem (messageFromText text) = false := by
  simp [isFunctionCallItem, messageFromText, itemType, Value.getStr, Members.get]
  decide

@[simp] theorem isFunctionOutputItem_messageFromText (text : String) :
    isFunctionOutputItem (messageFromText text) = false := by
  simp [isFunctionOutputItem, messageFromText, itemType, Value.getStr, Members.get]
  decide

@[simp] theorem isFunctionOutputItem_synthetic (c : String) :
    isFunctionOutputItem (syntheticToolOutput c) = true := by
  simp [isFunctionOutputItem, syntheticToolOutput, itemType, Value.getStr, Members.get]
  decide

@[simp] theorem isFunctionCallItem_synthetic (c : String) :
    isFunctionCallItem (syntheticToolOutput c) = false := by
  simp [isFunctionCallItem, syntheticToolOutput, itemType, Value.getStr, Members.get]
  decide

@[simp] theorem itemCallId_synthetic (c : String) : itemCallId (syntheticToolOutput c) = c := by
  simp [itemCallId, syntheticToolOutput, Members.get]

/-- Renaming an item leaves its type. -/
@[simp] theorem itemType_setItemCallId (c : String) (item : Value) :
    itemType (setItemCallId c item) = itemType item := by
  cases item with
  | object m =>
    simp only [setItemCallId]
    split
    · split <;> simp [itemType_object]
    · simp [itemType_object]
  | _ => rfl

@[simp] theorem isFunctionCallItem_setItemCallId (c : String) (item : Value) :
    isFunctionCallItem (setItemCallId c item) = isFunctionCallItem item := by
  simp [isFunctionCallItem]

@[simp] theorem isFunctionOutputItem_setItemCallId (c : String) (item : Value) :
    isFunctionOutputItem (setItemCallId c item) = isFunctionOutputItem item := by
  simp [isFunctionOutputItem]

/-- A renamed object has the new id. -/
theorem itemCallId_setItemCallId (c : String) (m : Members) :
    itemCallId (setItemCallId c (.object m)) = c := by
  simp only [setItemCallId]
  split
  · split <;> simp [itemCallId]
  · simp [itemCallId]

/-- The generated ids are unused. -/
theorem nextUniqueCallCompatId_notMem (used : List String) :
    nextUniqueCallCompatId used ∉ used := by
  obtain ⟨c, hc⟩ := exists_searchFresh (numbered_injective "call_compat_")
    (Nat.lt_succ_self used.length) 1
  rw [nextUniqueCallCompatId, hc]
  exact (searchFresh_spec hc).1

/-- The generated ids are not empty. -/
theorem nextUniqueCallCompatId_ne_empty (used : List String) :
    nextUniqueCallCompatId used ≠ "" := by
  obtain ⟨c, hc⟩ := exists_searchFresh (numbered_injective "call_compat_")
    (Nat.lt_succ_self used.length) 1
  obtain ⟨k, hk⟩ := (searchFresh_spec hc).2
  rw [nextUniqueCallCompatId, hc, Option.getD_some, hk]
  intro h
  have := congrArg String.length h
  simp [numbered, String.length_append] at this

/-! ## What one turn can do -/

/-- A tool item: a call or an output. -/
def isToolItem (item : Value) : Bool := isFunctionCallItem item || isFunctionOutputItem item

/-- The effects of one turn on `item`: a known call or output is dropped or
written under another id, a new one is written as it is, and any other item is
written after the pending calls have been answered. -/
inductive HistoryTurn (pruneOrphans : Bool) (s : HistoryWalk) (item : Value) :
    HistoryWalk → Prop
  | drop (hknown : isFunctionCallItem item ∧ itemCallId item ∈ s.seenCalls
        ∨ isFunctionOutputItem item ∧ itemCallId item ∈ s.seenOutputs) :
      HistoryTurn pruneOrphans s item { s with changed := s.changed + 1 }
  | call {x : Value} {r : List (String × String)} {n : ℕ} (hitem : isFunctionCallItem item)
      (hx : isFunctionCallItem x) (hnew : itemCallId x = "" ∨ itemCallId x ∉ s.seenCalls)
      (hfrom : x = item
        ∨ itemCallId item ∈ s.seenCalls ∧ itemCallId x = nextUniqueCallCompatId s.seenCalls)
      (hr : ∀ e ∈ r, e ∈ s.lastReassigned ∨ e.2 = itemCallId x ∧ itemCallId x ≠ "") :
      HistoryTurn pruneOrphans s item
        (keepCall { s with lastReassigned := r, changed := n } x (itemCallId x))
  | output {x : Value} {n : ℕ} (hitem : isFunctionOutputItem item) (hx : isFunctionOutputItem x)
      (hnew : itemCallId x = "" ∨ itemCallId x ∉ s.seenOutputs)
      (hfrom : x = item
        ∨ itemCallId item ∈ s.seenOutputs ∧ ∃ e ∈ s.lastReassigned, e.2 = itemCallId x) :
      HistoryTurn pruneOrphans s item
        (keepOutput pruneOrphans { s with changed := n } x (itemCallId x))
  | other (hother : isToolItem item = false) :
      HistoryTurn pruneOrphans s item (s.flush.push item)

/-- A pair found by `lookup` is in the list. -/
theorem exists_mem_of_lookup {l : List (String × String)} {k v : String}
    (h : l.lookup k = some v) : ∃ e ∈ l, e.2 = v := by
  induction l with
  | nil => simp at h
  | cons e l ih =>
    rw [List.lookup_cons] at h
    by_cases hk : k == e.1
    · simp only [hk] at h
      exact ⟨e, List.mem_cons_self, Option.some.inj h⟩
    · simp only [hk] at h
      obtain ⟨e', he', hv⟩ := ih h
      exact ⟨e', List.mem_cons_of_mem _ he', hv⟩

/-- A call item of an id that was written: it is dropped or renamed. -/
theorem historyTurn_walkCall_known (serde : Serde) {pruneOrphans : Bool} {s : HistoryWalk}
    {item : Value} (hcall : isFunctionCallItem item)
    (hknown : itemCallId item ≠ "" ∧ itemCallId item ∈ s.seenCalls) :
    HistoryTurn pruneOrphans s item (walkCall serde s item) := by
  simp only [walkCall, if_pos hknown]
  split
  · exact .drop (Or.inl ⟨hcall, hknown.2⟩)
  · obtain ⟨m, rfl⟩ := exists_object_of_isFunctionCallItem hcall
    have hid := itemCallId_setItemCallId (nextUniqueCallCompatId s.seenCalls) m
    have hne := nextUniqueCallCompatId_ne_empty s.seenCalls
    generalize hnew : nextUniqueCallCompatId s.seenCalls = new at hid hne ⊢
    have hfree : new ∉ s.seenCalls := hnew ▸ nextUniqueCallCompatId_notMem _
    generalize hx : setItemCallId new (.object m) = x at hid
    subst hid
    refine .call hcall (by rw [← hx]; simpa using hcall) (Or.inr hfree)
      (Or.inr ⟨hknown.2, hnew.symm⟩) fun e he => ?_
    rcases List.mem_cons.mp he with rfl | he
    · exact Or.inr ⟨rfl, hne⟩
    · exact Or.inl (List.mem_filter.mp he).1

/-- An output item of an id that was written: it is dropped or redirected. -/
theorem historyTurn_walkOutput_known {pruneOrphans : Bool} {s : HistoryWalk} {item : Value}
    (hout : isFunctionOutputItem item)
    (hknown : itemCallId item ≠ "" ∧ itemCallId item ∈ s.seenOutputs) :
    HistoryTurn pruneOrphans s item (walkOutput pruneOrphans s item) := by
  simp only [walkOutput, if_pos hknown]
  split
  · rename_i newId hlookup
    split
    · exact .drop (Or.inr ⟨hout, hknown.2⟩)
    · rename_i hfree
      obtain ⟨m, rfl⟩ := exists_object_of_isFunctionOutputItem hout
      have hid := itemCallId_setItemCallId newId m
      generalize hx : setItemCallId newId (.object m) = x at hid
      subst hid
      exact .output hout (by rw [← hx]; simpa using hout) (Or.inr hfree)
        (Or.inr ⟨hknown.2, exists_mem_of_lookup hlookup⟩)
  · exact .drop (Or.inr ⟨hout, hknown.2⟩)

/-- **Inversion of one turn.** -/
theorem historyStep_turn (serde : Serde) (pruneOrphans : Bool) (s : HistoryWalk) (item : Value) :
    HistoryTurn pruneOrphans s item (historyStep serde pruneOrphans s item) := by
  rw [historyStep]
  by_cases hcall : isFunctionCallItem item
  · rw [if_pos hcall]
    by_cases hknown : itemCallId item ≠ "" ∧ itemCallId item ∈ s.seenCalls
    · exact historyTurn_walkCall_known serde hcall hknown
    · simp only [walkCall, if_neg hknown]
      have hnew : itemCallId item = "" ∨ itemCallId item ∉ s.seenCalls :=
        (not_and_or.mp hknown).imp not_not.mp id
      exact .call hcall hcall hnew (Or.inl rfl) fun e he => Or.inl (List.mem_filter.mp he).1
  rw [if_neg hcall]
  by_cases hout : isFunctionOutputItem item
  · rw [if_pos hout]
    by_cases hknown : itemCallId item ≠ "" ∧ itemCallId item ∈ s.seenOutputs
    · exact historyTurn_walkOutput_known hout hknown
    · simp only [walkOutput, if_neg hknown]
      have hnew : itemCallId item = "" ∨ itemCallId item ∉ s.seenOutputs :=
        (not_and_or.mp hknown).imp not_not.mp id
      exact .output hout hout hnew (Or.inl rfl)
  · rw [if_neg hout]
    exact .other (by simp [isToolItem, hcall, hout])

/-! ## The ids of a list of items -/

/-- The non-empty ids of the call items, in order. -/
def callIds (items : List Value) : List String :=
  ((items.filter isFunctionCallItem).map itemCallId).filter (· ≠ "")

/-- The non-empty ids of the output items, in order. -/
def outputIds (items : List Value) : List String :=
  ((items.filter isFunctionOutputItem).map itemCallId).filter (· ≠ "")

@[simp] theorem callIds_append (a b : List Value) : callIds (a ++ b) = callIds a ++ callIds b := by
  simp [callIds]

@[simp] theorem outputIds_append (a b : List Value) :
    outputIds (a ++ b) = outputIds a ++ outputIds b := by
  simp [outputIds]

theorem mem_callIds {items : List Value} {c : String} :
    c ∈ callIds items ↔ c ≠ "" ∧ ∃ x ∈ items, isFunctionCallItem x ∧ itemCallId x = c := by
  simp only [callIds, List.mem_filter, List.mem_map, decide_not, Bool.not_eq_true',
    decide_eq_false_iff_not, ne_eq]
  constructor
  · rintro ⟨⟨x, ⟨hx, hk⟩, rfl⟩, hne⟩
    exact ⟨hne, x, hx, hk, rfl⟩
  · rintro ⟨hne, x, hx, hk, rfl⟩
    exact ⟨⟨x, ⟨hx, hk⟩, rfl⟩, hne⟩

theorem mem_outputIds {items : List Value} {c : String} :
    c ∈ outputIds items ↔ c ≠ "" ∧ ∃ x ∈ items, isFunctionOutputItem x ∧ itemCallId x = c := by
  simp only [outputIds, List.mem_filter, List.mem_map, decide_not, Bool.not_eq_true',
    decide_eq_false_iff_not, ne_eq]
  constructor
  · rintro ⟨⟨x, ⟨hx, hk⟩, rfl⟩, hne⟩
    exact ⟨hne, x, hx, hk, rfl⟩
  · rintro ⟨hne, x, hx, hk, rfl⟩
    exact ⟨⟨x, ⟨hx, hk⟩, rfl⟩, hne⟩

/-- The ids a single item contributes. -/
theorem callIds_singleton_call {item : Value} (h : isFunctionCallItem item)
    (hc : itemCallId item ≠ "") : callIds [item] = [itemCallId item] := by
  simp [callIds, h, hc]

theorem callIds_singleton_empty {item : Value} (hc : itemCallId item = "") :
    callIds [item] = [] := by
  by_cases h : isFunctionCallItem item <;> simp [callIds, h, hc]

theorem callIds_singleton_other {item : Value} (h : isFunctionCallItem item = false) :
    callIds [item] = [] := by
  simp [callIds, h]

theorem outputIds_singleton_output {item : Value} (h : isFunctionOutputItem item)
    (hc : itemCallId item ≠ "") : outputIds [item] = [itemCallId item] := by
  simp [outputIds, h, hc]

theorem outputIds_singleton_empty {item : Value} (hc : itemCallId item = "") :
    outputIds [item] = [] := by
  by_cases h : isFunctionOutputItem item <;> simp [outputIds, h, hc]

theorem outputIds_singleton_other {item : Value} (h : isFunctionOutputItem item = false) :
    outputIds [item] = [] := by
  simp [outputIds, h]

end CodexRouter
