/-
# The item timeline of a converted chat

What the events of a converted stream say about its items is read off their JSON
(`eventMark`), and `Timeline.Consistent` is what a client relies on.  The converter does
not keep it: the text of a message is never cleared, the ids of messages repeat, a tool
call may change its id or be opened again.  `CallFits` is the state of the stream in which
a call of the writing half goes well, and a stream whose calls all fit is consistent
(`consistent_chatStream`).
-/
import CodexRouter.Base.Timeline
import CodexRouter.ChatStream

namespace CodexRouter

open Text Timeline

/-! ## What the events say -/

/-- The whole text in a finished item. -/
def finishedItemText (item : Value) : Option String :=
  match item.getStr "type" with
  | some "message" =>
    some (join "" (((item.getArray "content").getD []).filterMap (Value.getStr "text")))
  | some "function_call" => item.getStr "arguments"
  | _ => none

/-- What an event says about the items or the response. -/
def eventMark (event : Value) : Option (Mark String) :=
  let place := match (event.get "output_index").bind Value.asInt with
    | some (.ofNat place) => place
    | _ => 0
  let itemId := (event.getStr "item_id").getD ""
  let item := (event.get "item").getD .null
  let text := fun key => (event.getStr key).getD ""
  match event.getStr "type" with
  | some "response.output_item.added" => some (.added ((item.getStr "id").getD "") place)
  | some "response.output_text.delta" => some (.delta itemId place (text "delta"))
  | some "response.function_call_arguments.delta" => some (.delta itemId place (text "delta"))
  | some "response.reasoning_summary_text.delta" => some (.delta itemId place (text "delta"))
  | some "response.output_text.done" => some (.final itemId place (text "text"))
  | some "response.content_part.done" =>
    some (.final itemId place ((((event.get "part").getD .null).getStr "text").getD ""))
  | some "response.function_call_arguments.done" => some (.final itemId place (text "arguments"))
  | some "response.output_item.done" =>
    some (.done ((item.getStr "id").getD "") place (finishedItemText item))
  | some "response.completed" => some .completed
  | _ => none

/-- What a stream says. -/
def marksOf (events : List Value) : List (Mark String) := events.filterMap eventMark

@[simp] theorem marksOf_append (events events' : List Value) :
    marksOf (events ++ events') = marksOf events ++ marksOf events' := List.filterMap_append

/-- The ids of the items that are announced. -/
def itemIds (events : List Value) : List String := (addedItems (marksOf events)).map Prod.fst

/-! ## Where the calls go well -/

/-- A visible text needs the open message, or the first one. -/
def VisibleFits (events : List Value) (s : ChatEmit) (text : String) : Prop :=
  text = "" ∨ s.messageOpen = true ∨ s.visibleText = "" ∧ s.nextMessageId ∉ itemIds events

/-- A delta of a tool call needs an open call with the same id, or a new index and id. -/
def ToolFits (events : List Value) (s : ChatEmit) (index : ℕ) (callId : Option String) : Prop :=
  match s.toolCalls.get index with
  | none => (toolEntry index s).deltaId callId ∉ itemIds events
  | some tool => tool.itemStarted = true ∧ tool.deltaId callId = tool.id

/-- The states of the stream, with the events so far, in which a call goes well: the
response is not completed, and no item is opened under an id that has been used. -/
def CallFits (events : List Value) (s : ChatEmit) : ChatCall → Prop
  | .start _ | .closeReasoning => True
  | .think text =>
    text = "" ∨ s.completed = false ∧ (s.reasoningOpen = true ∨ s.nextReasoningId ∉ itemIds events)
  | .visible text => text = "" ∨ s.completed = false ∧ VisibleFits events s text
  | .leakedTool _ =>
    s.completed = false ∧ "call_compat_" ++ toString (s.nextLeakedToolIndex + 1) ∉ itemIds events
  | .tool index callId _ _ => s.completed = false ∧ ToolFits events s index callId
  | .finish pending => s.completed = false ∧ VisibleFits events s pending

/-- All the calls go well. -/
def CallsFit (env : ChatEnv) (events : List Value) (s : ChatEmit) : List ChatCall → Prop
  | [] => True
  | call :: rest =>
    CallFits events s call
      ∧ CallsFit env (events ++ (runCall env call s).2) (runCall env call s).1 rest

/-- All the calls for the chunks go well. -/
def ChunksFit (env : ChatEnv) (events : List Value) (s : SseThinkState) : List Value → Prop
  | [] => True
  | json :: rest =>
    CallsFit env events s.emit (eventCalls env s json).1
      ∧ ChunksFit env (events ++ (rewriteChatCompletionEvent env s json).2)
        (rewriteChatCompletionEvent env s json).1 rest

instance (events : List Value) (s : ChatEmit) (text : String) :
    Decidable (VisibleFits events s text) :=
  inferInstanceAs (Decidable (_ ∨ _))

instance (events : List Value) (s : ChatEmit) (index : ℕ) (callId : Option String) :
    Decidable (ToolFits events s index callId) :=
  match h : s.toolCalls.get index with
  | none => decidable_of_iff ((toolEntry index s).deltaId callId ∉ itemIds events) (by rw [ToolFits, h])
  | some tool => decidable_of_iff (tool.itemStarted = true ∧ tool.deltaId callId = tool.id)
    (by rw [ToolFits, h])

instance (events : List Value) (s : ChatEmit) : (call : ChatCall) → Decidable (CallFits events s call)
  | .start _ | .closeReasoning => isTrue trivial
  | .think _ | .visible _ => inferInstanceAs (Decidable (_ ∨ _ ∧ _))
  | .leakedTool _ | .tool _ _ _ _ | .finish _ => inferInstanceAs (Decidable (_ ∧ _))

/-- Whether all the calls go well can be computed. -/
def decideCallsFit (env : ChatEnv) : (events : List Value) → (s : ChatEmit) → (calls : List ChatCall) →
    Decidable (CallsFit env events s calls)
  | _, _, [] => isTrue trivial
  | events, s, call :: rest =>
    have := decideCallsFit env (events ++ (runCall env call s).2) (runCall env call s).1 rest
    inferInstanceAs (Decidable (_ ∧ _))

instance (env : ChatEnv) (events : List Value) (s : ChatEmit) (calls : List ChatCall) :
    Decidable (CallsFit env events s calls) := decideCallsFit env events s calls

/-- Whether all the calls for the chunks go well can be computed. -/
def decideChunksFit (env : ChatEnv) : (events : List Value) → (s : SseThinkState) →
    (jsons : List Value) → Decidable (ChunksFit env events s jsons)
  | _, _, [] => isTrue trivial
  | events, s, json :: rest =>
    have := decideChunksFit env (events ++ (rewriteChatCompletionEvent env s json).2)
      (rewriteChatCompletionEvent env s json).1 rest
    inferInstanceAs (Decidable (_ ∧ _))

instance (env : ChatEnv) (events : List Value) (s : SseThinkState) (jsons : List Value) :
    Decidable (ChunksFit env events s jsons) := decideChunksFit env events s jsons

/-! ## The open items -/

/-- The open reasoning item. -/
def reasoningEntries (text : String) (s : ChatEmit) : List (Entry String) :=
  if s.reasoningOpen then [⟨s.itemId, s.outputIndex, text, false⟩] else []

/-- The open message. -/
def messageEntries (s : ChatEmit) : List (Entry String) :=
  if s.messageOpen then [⟨s.messageId, s.messageOutputIndex, s.visibleText, false⟩] else []

/-- An open tool call. -/
def toolEntryOf (e : ℕ × ChatToolCallState) : Option (Entry String) :=
  if e.2.itemStarted then some ⟨e.2.id, e.2.outputIndex, e.2.arguments, false⟩ else none

/-- The open items. -/
def openEntries (text : String) (s : ChatEmit) : List (Entry String) :=
  reasoningEntries text s ++ (messageEntries s ++ s.toolCalls.filterMap toolEntryOf)

/-- The state tells which items are open in the events so far. -/
structure Tracks (events : List Value) (s : ChatEmit) : Prop where
  reached : ∃ text, Reached (marksOf events) (openEntries text s) s.completed
  places : ∀ item ∈ addedItems (marksOf events), item.2 < s.nextOutputIndex
  ordered : s.toolCalls.Ordered

theorem tracks_initial : Tracks [] .initial where
  reached := ⟨"", Reached.nil⟩
  places item h := by cases h
  ordered := OrdMap.ordered_nil

section

variable {events : List Value} {s : ChatEmit}

/-- The next place is new. -/
theorem Tracks.place_new (h : Tracks events s) :
    s.nextOutputIndex ∉ (addedItems (marksOf events)).map Prod.snd := by
  intro hmem
  obtain ⟨item, hitem, heq⟩ := List.mem_map.mp hmem
  have hlt := h.places item hitem
  omega

/-- A function after another one. -/
theorem Tracks.andThen {r : Emitted} {f : ChatEmit → Emitted}
    (hf : Tracks (events ++ r.2 ++ (f r.1).2) (f r.1).1) :
    Tracks (events ++ (r.andThen f).2) (r.andThen f).1 := by
  rw [List.append_assoc] at hf
  exact hf

/-- Nothing is said of an item. -/
theorem Tracks.silent (h : Tracks events s) {new : List Value} (hnew : marksOf new = []) :
    Tracks (events ++ new) s := by
  obtain ⟨hreached, hplaces, hordered⟩ := h
  have hmarks : marksOf (events ++ new) = marksOf events := by
    rw [marksOf_append, hnew, List.append_nil]
  exact ⟨hmarks ▸ hreached, hmarks ▸ hplaces, hordered⟩

/-- A step that keeps the counter of the places ahead. -/
theorem Tracks.next (h : Tracks events s) {new : List Value} {s' : ChatEmit} (text : String)
    (hreached : Reached (marksOf events ++ marksOf new) (openEntries text s') s'.completed)
    (hle : s.nextOutputIndex ≤ s'.nextOutputIndex)
    (hplaces : ∀ item ∈ addedItems (marksOf new), item.2 < s'.nextOutputIndex)
    (hordered : s'.toolCalls.Ordered) : Tracks (events ++ new) s' := by
  refine ⟨⟨text, ?_⟩, fun item hitem => ?_, hordered⟩
  · rw [marksOf_append]
    exact hreached
  · rw [marksOf_append, addedItems, List.filterMap_append, List.mem_append] at hitem
    rcases hitem with hitem | hitem
    · exact lt_of_lt_of_le (h.places item hitem) hle
    · exact hplaces item hitem

/-! ### Reasoning -/

theorem tracks_ensureReasoningOpen (h : Tracks events s) (hopen : s.completed = false)
    (hfit : s.reasoningOpen = true ∨ s.nextReasoningId ∉ itemIds events) :
    Tracks (events ++ (ensureReasoningOpen s).2) (ensureReasoningOpen s).1 := by
  cases hreasoning : s.reasoningOpen with
  | true =>
    rw [ensureReasoningOpen, if_pos hreasoning]
    exact h.silent rfl
  | false =>
    have hno : ¬ s.reasoningOpen = true := by rw [hreasoning]; exact Bool.false_ne_true
    obtain ⟨text, hreached⟩ := h.reached
    rw [openEntries, reasoningEntries, if_neg hno] at hreached
    have hadded := hreached.added hopen (hfit.resolve_left hno) h.place_new
    rw [ensureReasoningOpen, if_neg hno]
    refine h.next "" hadded (Nat.le_succ _) (fun item hitem => ?_) h.ordered
    rw [List.mem_singleton.mp hitem]
    exact Nat.lt_succ_self _

theorem reasoningOpen_ensureReasoningOpen (s : ChatEmit) :
    (ensureReasoningOpen s).1.reasoningOpen = true := by
  rw [ensureReasoningOpen]
  split
  · assumption
  · rfl

theorem tracks_writeThinkDelta (h : Tracks events s) (hreasoning : s.reasoningOpen = true)
    (text : String) : Tracks (events ++ (writeThinkDelta text s).2) (writeThinkDelta text s).1 := by
  obtain ⟨before, hreached⟩ := h.reached
  rw [openEntries, reasoningEntries, if_pos hreasoning] at hreached
  refine h.next (before ++ text) ?_ (le_refl _) (fun item hitem => by cases hitem) h.ordered
  show Reached _ (openEntries (before ++ text) s) s.completed
  rw [openEntries, reasoningEntries, if_pos hreasoning]
  exact hreached.delta text

theorem tracks_emitThinkDelta (h : Tracks events s) {text : String}
    (hfit : CallFits events s (.think text)) :
    Tracks (events ++ (emitThinkDelta text s).2) (emitThinkDelta text s).1 := by
  rw [emitThinkDelta]
  split
  · exact h.silent rfl
  · rename_i hne
    obtain ⟨hopen, hid⟩ := hfit.resolve_left hne
    refine Tracks.andThen ?_
    exact tracks_writeThinkDelta (tracks_ensureReasoningOpen h hopen hid)
      (reasoningOpen_ensureReasoningOpen s) text

theorem tracks_closeReasoning (h : Tracks events s) :
    Tracks (events ++ (closeReasoning s).2) (closeReasoning s).1 := by
  rw [closeReasoning]
  split
  · rename_i hreasoning
    obtain ⟨text, hreached⟩ := h.reached
    rw [openEntries, reasoningEntries, if_pos hreasoning] at hreached
    exact h.next text (hreached.done (Or.inl rfl)) (le_refl _) (fun item hitem => by cases hitem) h.ordered
  · exact h.silent rfl

/-- Closing the reasoning item says nothing of the others. -/
theorem itemIds_closeReasoning (events : List Value) (s : ChatEmit) :
    itemIds (events ++ (closeReasoning s).2) = itemIds events := by
  rw [closeReasoning]
  split
  · rw [itemIds, marksOf_append, addedItems, List.filterMap_append]
    show ((marksOf events).filterMap Mark.addedItem ++ []).map Prod.fst = itemIds events
    rw [List.append_nil]
    rfl
  · rw [List.append_nil]

/-- Closing the reasoning item changes nothing else. -/
theorem closeReasoning_fst (s : ChatEmit) :
    (closeReasoning s).1 = { s with reasoningOpen := false } := by
  rw [closeReasoning]
  split
  · rfl
  · rename_i hno
    rw [Bool.not_eq_true] at hno
    rw [← hno]

/-! ### The message -/

theorem tracks_ensureMessageOpen (h : Tracks events s) (hopen : s.completed = false)
    (hfit : s.messageOpen = true ∨ s.visibleText = "" ∧ s.nextMessageId ∉ itemIds events) :
    Tracks (events ++ (ensureMessageOpen s).2) (ensureMessageOpen s).1 := by
  cases hmessage : s.messageOpen with
  | true =>
    rw [ensureMessageOpen, if_pos hmessage]
    exact h.silent rfl
  | false =>
    have hno : ¬ s.messageOpen = true := by rw [hmessage]; exact Bool.false_ne_true
    obtain ⟨hempty, hid⟩ := hfit.resolve_left hno
    obtain ⟨text, hreached⟩ := h.reached
    rw [openEntries, messageEntries, if_neg hno] at hreached
    have hadded := hreached.added hopen hid h.place_new
    rw [ensureMessageOpen, if_neg hno]
    refine h.next text ?_ (Nat.le_succ _) (fun item hitem => ?_) h.ordered
    · -- The text of the new message is the visible text, which is empty.
      refine hadded.perm ?_
      rw [← hempty]
      exact List.perm_middle.symm
    · rw [List.mem_singleton.mp hitem]
      exact Nat.lt_succ_self _

theorem messageOpen_ensureMessageOpen (s : ChatEmit) : (ensureMessageOpen s).1.messageOpen = true := by
  rw [ensureMessageOpen]
  split
  · assumption
  · rfl

theorem tracks_writeVisibleDelta (h : Tracks events s) (hmessage : s.messageOpen = true)
    (text : String) :
    Tracks (events ++ (writeVisibleDelta text s).2) (writeVisibleDelta text s).1 := by
  obtain ⟨thought, hreached⟩ := h.reached
  rw [openEntries, messageEntries, if_pos hmessage] at hreached
  refine h.next thought ?_ (le_refl _) (fun item hitem => by cases hitem) h.ordered
  have hstill : (writeVisibleDelta text s).1.messageOpen = true := hmessage
  rw [openEntries, messageEntries, if_pos hstill]
  exact ((hreached.perm List.perm_middle).delta text).perm List.perm_middle.symm

theorem tracks_emitChatVisibleDelta (h : Tracks events s) {text : String}
    (hfit : CallFits events s (.visible text)) :
    Tracks (events ++ (emitChatVisibleDelta text s).2) (emitChatVisibleDelta text s).1 := by
  rw [emitChatVisibleDelta]
  split
  · exact h.silent rfl
  · rename_i hne
    obtain ⟨hopen, hvisible⟩ := hfit.resolve_left hne
    have hmessage := hvisible.resolve_left hne
    have hclosed := tracks_closeReasoning h
    refine Tracks.andThen (tracks_writeVisibleDelta (Tracks.andThen ?_) ?_ text)
    · refine tracks_ensureMessageOpen hclosed ?_ ?_
      · rw [closeReasoning_fst]
        exact hopen
      · rw [itemIds_closeReasoning, closeReasoning_fst]
        exact hmessage
    · exact messageOpen_ensureMessageOpen _

theorem tracks_closeChatMessage (h : Tracks events s) :
    Tracks (events ++ (closeChatMessage s).2) (closeChatMessage s).1 := by
  rw [closeChatMessage]
  split
  · rename_i hmessage
    obtain ⟨text, hreached⟩ := h.reached
    rw [openEntries, messageEntries, if_pos hmessage] at hreached
    have hfinal := (hreached.perm List.perm_middle).final
    have hdone := hfinal.final.done (Or.inr rfl)
    refine h.next text ?_ (le_refl _) (fun item hitem => by cases hitem) h.ordered
    rw [List.append_assoc, List.append_assoc] at hdone
    exact hdone
  · exact h.silent rfl

/-! ### Tool calls -/

/-- A delta does not move its tool call. -/
theorem outputIndex_receive (restore : RestoreNames) (callId name arguments : Option String)
    (tool : ChatToolCallState) :
    (tool.receive restore callId name arguments).outputIndex = tool.outputIndex := by
  rw [ChatToolCallState.receive]
  cases name.filter (· ≠ "") <;> rfl

/-- The open items, with one of the tool calls in front. -/
theorem perm_openEntries (text : String) {s' : ChatEmit} {e : Entry String}
    {rest : List (Entry String)} (hreasoning : reasoningEntries text s' = reasoningEntries text s)
    (hmessage : messageEntries s' = messageEntries s)
    (hperm : (s'.toolCalls.filterMap toolEntryOf).Perm (e :: rest)) :
    (e :: (reasoningEntries text s ++ (messageEntries s ++ rest))).Perm (openEntries text s') := by
  rw [openEntries, hreasoning, hmessage, ← List.append_assoc, ← List.append_assoc]
  exact List.perm_middle.symm.trans (hperm.symm.append_left _)

/-- What the delta of a tool call says. -/
theorem reached_argumentsDelta {marks : List (Mark String)} {entries : List (Entry String)}
    {completed : Bool} {id : String} {place : ℕ} {text : String}
    (h : Reached marks (⟨id, place, text, false⟩ :: entries) completed) (arguments : Option String) :
    Reached (marks ++ marksOf (if arguments.getD "" = "" then [] else
        [itemEvent "response.function_call_arguments.delta" id place
          [("delta", .string (arguments.getD ""))]]))
      (⟨id, place, text ++ arguments.getD "", false⟩ :: entries) completed := by
  split
  · rename_i hempty
    rw [hempty, String.append_empty]
    show Reached (marks ++ []) _ _
    rwa [List.append_nil]
  · exact h.delta _

theorem addedItems_argumentsDelta (id : String) (place : ℕ) (arguments : Option String) :
    addedItems (marksOf (if arguments.getD "" = "" then [] else
        [itemEvent "response.function_call_arguments.delta" id place
          [("delta", .string (arguments.getD ""))]])) = [] := by
  split <;> rfl

theorem tracks_writeToolDelta_new (h : Tracks events s) (hopen : s.completed = false)
    (restore : RestoreNames) {index : ℕ} {callId : Option String} (name arguments : Option String)
    (hget : s.toolCalls.get index = none)
    (hfresh : (toolEntry index s).deltaId callId ∉ itemIds events) :
    Tracks (events ++ (writeToolDelta restore index callId name arguments s).2)
      (writeToolDelta restore index callId name arguments s).1 := by
  obtain ⟨text, hreached⟩ := h.reached
  obtain ⟨tool, htool⟩ : ∃ tool, tool = (toolEntry index s).receive restore callId name arguments :=
    ⟨_, rfl⟩
  have hbefore : (toolEntry index s).itemStarted = false := by rw [toolEntry, hget]; rfl
  have hplace : tool.outputIndex = s.nextOutputIndex := by
    rw [htool, outputIndex_receive, toolEntry, hget]
    rfl
  have harguments : tool.arguments = "" ++ arguments.getD "" := by
    rw [htool, ChatToolCallState.receive, toolEntry, hget]
    rfl
  have hid : tool.id ∉ itemIds events := by
    rw [htool]
    exact hfresh
  have hentry : toolEntryOf (index, tool)
      = some ⟨tool.id, s.nextOutputIndex, "" ++ arguments.getD "", false⟩ := by
    rw [← hplace, ← harguments, htool]
    rfl
  have hadded := reached_argumentsDelta (hreached.added hopen hid h.place_new) arguments
  have hperm := (OrdMap.perm_insert_of_get_none hget tool).filterMap toolEntryOf
  rw [List.filterMap_cons_some hentry] at hperm
  rw [writeToolDelta, hbefore, ← htool, hplace]
  refine h.next text ?_ (Nat.le_succ _) (fun item hitem => ?_) (OrdMap.ordered_insert h.ordered)
  · rw [marksOf_append, ← List.append_assoc]
    exact hadded.perm (perm_openEntries _ rfl rfl hperm)
  · rw [marksOf_append, addedItems, List.filterMap_append, List.mem_append] at hitem
    rcases hitem with hitem | hitem
    · rw [List.mem_singleton.mp hitem]
      exact Nat.lt_succ_self _
    · rw [← addedItems, addedItems_argumentsDelta] at hitem
      cases hitem

theorem tracks_writeToolDelta_open (h : Tracks events s) (restore : RestoreNames) {index : ℕ}
    {callId : Option String} (name arguments : Option String) {before : ChatToolCallState}
    (hget : s.toolCalls.get index = some before) (hstarted : before.itemStarted = true)
    (hsame : before.deltaId callId = before.id) :
    Tracks (events ++ (writeToolDelta restore index callId name arguments s).2)
      (writeToolDelta restore index callId name arguments s).1 := by
  obtain ⟨text, hreached⟩ := h.reached
  obtain ⟨tool, htool⟩ : ∃ tool, tool = before.receive restore callId name arguments := ⟨_, rfl⟩
  have hbefore : toolEntry index s = before := by rw [toolEntry, hget]; rfl
  have hid : tool.id = before.id := by rw [htool]; exact hsame
  have hplace : tool.outputIndex = before.outputIndex := by rw [htool, outputIndex_receive]
  have hentry : toolEntryOf (index, tool)
      = some ⟨before.id, before.outputIndex, before.arguments ++ arguments.getD "", false⟩ := by
    rw [← hid, ← hplace, htool]
    rfl
  have hentry' : toolEntryOf (index, before)
      = some ⟨before.id, before.outputIndex, before.arguments, false⟩ := by
    rw [toolEntryOf, if_pos hstarted]
  obtain ⟨rest, hperm, hinsert⟩ := OrdMap.perm_insert_of_get_some h.ordered hget
  have hold := hperm.filterMap toolEntryOf
  have hnew := (hinsert tool).filterMap toolEntryOf
  rw [List.filterMap_cons_some hentry'] at hold
  rw [List.filterMap_cons_some hentry] at hnew
  have hfront := hreached.perm (perm_openEntries text rfl rfl hold).symm
  rw [writeToolDelta, hbefore, hstarted, ← htool, hid, hplace]
  refine h.next text ?_ (le_refl _) (fun item hitem => ?_) (OrdMap.ordered_insert h.ordered)
  · exact (reached_argumentsDelta hfront arguments).perm (perm_openEntries _ rfl rfl hnew)
  · have hnone : item ∈ ([] : List (String × ℕ)) := by
      rw [← addedItems_argumentsDelta before.id before.outputIndex arguments]
      exact hitem
    cases hnone

theorem tracks_writeToolDelta (h : Tracks events s) (hopen : s.completed = false)
    (restore : RestoreNames) {index : ℕ} {callId : Option String} (name arguments : Option String)
    (hfit : ToolFits events s index callId) :
    Tracks (events ++ (writeToolDelta restore index callId name arguments s).2)
      (writeToolDelta restore index callId name arguments s).1 := by
  rw [ToolFits] at hfit
  cases hget : s.toolCalls.get index with
  | none =>
    rw [hget] at hfit
    exact tracks_writeToolDelta_new h hopen restore name arguments hget hfit
  | some before =>
    rw [hget] at hfit
    exact tracks_writeToolDelta_open h restore name arguments hget hfit.1 hfit.2

/-- Closing the message says nothing of new items. -/
theorem itemIds_closeChatMessage (events : List Value) (s : ChatEmit) :
    itemIds (events ++ (closeChatMessage s).2) = itemIds events := by
  rw [closeChatMessage]
  split
  · rw [itemIds, marksOf_append, addedItems, List.filterMap_append]
    show ((marksOf events).filterMap Mark.addedItem ++ []).map Prod.fst = itemIds events
    rw [List.append_nil]
    rfl
  · rw [List.append_nil]

theorem closeChatMessage_fst (s : ChatEmit) :
    (closeChatMessage s).1 = { s with messageOpen := false } := by
  rw [closeChatMessage]
  split
  · rfl
  · rename_i hno
    rw [Bool.not_eq_true] at hno
    rw [← hno]

theorem tracks_emitChatToolDelta (h : Tracks events s) (hopen : s.completed = false)
    (restore : RestoreNames) {index : ℕ} {callId : Option String} (name arguments : Option String)
    (hfit : ToolFits events s index callId) :
    Tracks (events ++ (emitChatToolDelta restore index callId name arguments s).2)
      (emitChatToolDelta restore index callId name arguments s).1 := by
  have hclosed := tracks_closeChatMessage (tracks_closeReasoning h)
  refine Tracks.andThen (tracks_writeToolDelta (Tracks.andThen hclosed) ?_ restore name arguments ?_)
  · show (closeChatMessage (closeReasoning s).1).1.completed = false
    rw [closeChatMessage_fst, closeReasoning_fst]
    exact hopen
  · show ToolFits (events ++ ((closeReasoning s).2 ++ (closeChatMessage (closeReasoning s).1).2))
      (closeChatMessage (closeReasoning s).1).1 index callId
    rw [← List.append_assoc, ToolFits, itemIds_closeChatMessage, itemIds_closeReasoning,
      closeChatMessage_fst, closeReasoning_fst]
    exact hfit

theorem tracks_closeChatTool (h : Tracks events s) (index : ℕ) :
    Tracks (events ++ (closeChatTool index s).2) (closeChatTool index s).1 := by
  rw [closeChatTool]
  split
  · exact h.silent rfl
  · rename_i tool hget
    split
    · rename_i hstarted
      obtain ⟨text, hreached⟩ := h.reached
      obtain ⟨rest, hperm, hinsert⟩ := OrdMap.perm_insert_of_get_some h.ordered hget
      have hold := hperm.filterMap toolEntryOf
      have hnew := (hinsert { tool with itemStarted := false }).filterMap toolEntryOf
      have hentry : toolEntryOf (index, tool) = some ⟨tool.id, tool.outputIndex, tool.arguments, false⟩ := by
        rw [toolEntryOf, if_pos hstarted]
      rw [List.filterMap_cons_some hentry] at hold
      rw [List.filterMap_cons_none (by rfl)] at hnew
      have hfront := hreached.perm (perm_openEntries text rfl rfl hold).symm
      have hdone := hfront.final.done (Or.inr rfl)
      rw [List.append_assoc] at hdone
      refine h.next text ?_ (le_refl _) (fun item hitem => by cases hitem)
        (OrdMap.ordered_insert h.ordered)
      exact hdone.perm ((hnew.symm.append_left _).append_left _)
    · exact h.silent rfl

theorem get_freeToolIndex (s : ChatEmit) : s.toolCalls.get (freeToolIndex s) = none := by
  have hlength : (s.toolCalls.map Prod.fst).length < s.toolCalls.length + 1 := by
    rw [List.length_map]
    exact Nat.lt_succ_self _
  obtain ⟨index, hindex⟩ := exists_searchFresh Function.injective_id hlength s.nextLeakedToolIndex
  obtain ⟨hfree, -⟩ := searchFresh_spec hindex
  rw [freeToolIndex, hindex, Option.getD_some]
  cases hget : s.toolCalls.get index with
  | none => rfl
  | some tool => exact absurd (List.mem_map_of_mem (OrdMap.mem_of_get hget)) hfree

/-- A leaked tool call brings an id of its own. -/
theorem deltaId_leaked (tool : ChatToolCallState) (serde : Serde) (raw : Value) (n : ℕ) :
    tool.deltaId ((normalizeLeakedToolCall serde raw n).getStr "call_id")
      = "call_compat_" ++ toString n := by
  have hid : (normalizeLeakedToolCall serde raw n).getStr "call_id"
      = some ("call_compat_" ++ toString n) := rfl
  have hne : "call_compat_" ++ toString n ≠ "" := by
    intro heq
    have hlength := congrArg String.length heq
    rw [String.length_append] at hlength
    have hstem : "call_compat_".length = 12 := rfl
    rw [hstem, String.length_empty] at hlength
    omega
  rw [ChatToolCallState.deltaId, hid, Option.filter_some, if_pos (decide_eq_true hne)]
  rfl

theorem tracks_emitChatLeakedToolValue (h : Tracks events s) (serde : Serde) (restore : RestoreNames)
    {raw : Value} (hfit : CallFits events s (.leakedTool raw)) :
    Tracks (events ++ (emitChatLeakedToolValue serde restore raw s).2)
      (emitChatLeakedToolValue serde restore raw s).1 := by
  obtain ⟨hopen, hfresh⟩ := hfit
  have hcounted : Tracks events { s with nextLeakedToolIndex := freeToolIndex s + 1 } :=
    ⟨h.reached, h.places, h.ordered⟩
  have htool : ToolFits events { s with nextLeakedToolIndex := freeToolIndex s + 1 } (freeToolIndex s)
      ((normalizeLeakedToolCall serde raw (s.nextLeakedToolIndex + 1)).getStr "call_id") := by
    rw [ToolFits, get_freeToolIndex, deltaId_leaked]
    exact hfresh
  have hdelta := tracks_emitChatToolDelta hcounted hopen restore
    ((normalizeLeakedToolCall serde raw (s.nextLeakedToolIndex + 1)).getStr "name")
    ((normalizeLeakedToolCall serde raw (s.nextLeakedToolIndex + 1)).getStr "arguments") htool
  exact Tracks.andThen (tracks_closeChatTool hdelta _)

/-! ### The end -/

/-- Closing a tool call changes nothing but the tool calls. -/
theorem closeChatTool_fst (index : ℕ) (s : ChatEmit) :
    (closeChatTool index s).1 = { s with toolCalls := (closeChatTool index s).1.toolCalls } := by
  rw [closeChatTool]
  split
  · rfl
  · split <;> rfl

/-- A tool call that is open afterwards was open before and has another index. -/
theorem open_of_closeChatTool {index i : ℕ} {tool : ChatToolCallState}
    (hget : (closeChatTool index s).1.toolCalls.get i = some tool) (hstarted : tool.itemStarted = true) :
    i ≠ index ∧ s.toolCalls.get i = some tool := by
  rw [closeChatTool] at hget
  split at hget
  · rename_i hnone
    refine ⟨?_, hget⟩
    rintro rfl
    rw [hnone] at hget
    cases hget
  · rename_i tool' hget'
    split at hget
    · by_cases hi : i = index
      · subst hi
        rw [OrdMap.get_insert_self, Option.some.injEq] at hget
        rw [← hget] at hstarted
        cases hstarted
      · rw [OrdMap.get_insert_ne hi] at hget
        exact ⟨hi, hget⟩
    · rename_i hclosed
      refine ⟨?_, hget⟩
      rintro rfl
      rw [hget', Option.some.injEq] at hget
      exact hclosed (hget ▸ hstarted)

theorem tracks_closeToolsAt (h : Tracks events s) (indexes : List ℕ) :
    Tracks (events ++ (closeToolsAt indexes s).2) (closeToolsAt indexes s).1 := by
  induction indexes generalizing events s with
  | nil => exact h.silent rfl
  | cons index rest ih => exact Tracks.andThen (ih (tracks_closeChatTool h index))

theorem closeToolsAt_fst (indexes : List ℕ) (s : ChatEmit) :
    (closeToolsAt indexes s).1 = { s with toolCalls := (closeToolsAt indexes s).1.toolCalls } := by
  induction indexes generalizing s with
  | nil => rfl
  | cons index rest ih =>
    show (closeToolsAt rest (closeChatTool index s).1).1
      = { s with toolCalls := (closeToolsAt rest (closeChatTool index s).1).1.toolCalls }
    rw [ih, closeChatTool_fst]

theorem open_of_closeToolsAt {indexes : List ℕ} {i : ℕ} {tool : ChatToolCallState}
    (hget : (closeToolsAt indexes s).1.toolCalls.get i = some tool) (hstarted : tool.itemStarted = true) :
    i ∉ indexes ∧ s.toolCalls.get i = some tool := by
  induction indexes generalizing s with
  | nil => exact ⟨List.not_mem_nil, hget⟩
  | cons index rest ih =>
    obtain ⟨hrest, hbefore⟩ := ih hget
    obtain ⟨hne, hbefore⟩ := open_of_closeChatTool hbefore hstarted
    refine ⟨fun hmem => ?_, hbefore⟩
    rcases List.mem_cons.mp hmem with heq | hmem
    · exact hne heq
    · exact hrest hmem

/-- No tool call stays open. -/
theorem toolEntries_closeChatTools (h : Tracks events s) :
    (closeChatTools s).1.toolCalls.filterMap toolEntryOf = [] := by
  rw [List.filterMap_eq_nil_iff]
  intro e he
  have hget := OrdMap.get_of_mem (tracks_closeToolsAt h _).ordered he
  rw [toolEntryOf, if_neg]
  intro hstarted
  obtain ⟨hno, hbefore⟩ := open_of_closeToolsAt hget hstarted
  exact hno (List.mem_map_of_mem (OrdMap.mem_of_get hbefore))

theorem ensureMessageOpen_frame (s : ChatEmit) :
    (ensureMessageOpen s).1.completed = s.completed
      ∧ (ensureMessageOpen s).1.reasoningOpen = s.reasoningOpen
      ∧ (ensureMessageOpen s).1.chatMode = s.chatMode := by
  rw [ensureMessageOpen]
  split <;> exact ⟨rfl, rfl, rfl⟩

/-- A visible text leaves no reasoning item open. -/
theorem emitChatVisibleDelta_frame (text : String) (hclosed : s.reasoningOpen = false) :
    (emitChatVisibleDelta text s).1.completed = s.completed
      ∧ (emitChatVisibleDelta text s).1.reasoningOpen = false := by
  rw [emitChatVisibleDelta]
  split
  · exact ⟨rfl, hclosed⟩
  · obtain ⟨hcompleted, hreasoning, -⟩ := ensureMessageOpen_frame (closeReasoning s).1
    rw [closeReasoning_fst] at hcompleted hreasoning
    constructor
    · show (ensureMessageOpen (closeReasoning s).1).1.completed = s.completed
      rw [closeReasoning_fst, hcompleted]
    · show (ensureMessageOpen (closeReasoning s).1).1.reasoningOpen = false
      rw [closeReasoning_fst, hreasoning]

theorem tracks_writeCompleted (h : Tracks events s) (hopen : s.completed = false)
    (hreasoning : s.reasoningOpen = false) (hmessage : s.messageOpen = false)
    (htools : s.toolCalls.filterMap toolEntryOf = []) :
    Tracks (events ++ (writeCompleted s).2) (writeCompleted s).1 := by
  have hnil : ∀ text, openEntries text s = [] := by
    intro text
    rw [openEntries, reasoningEntries, messageEntries, hreasoning, hmessage, htools]
    rfl
  obtain ⟨text, hreached⟩ := h.reached
  rw [hnil] at hreached
  refine h.next text ?_ (le_refl _) (fun item hitem => by cases hitem) h.ordered
  show Reached _ (openEntries text s) true
  rw [hnil]
  exact hreached.completed_nil hopen

theorem tracks_finishResponse (h : Tracks events s) {pending : String}
    (hfit : CallFits events s (.finish pending)) :
    Tracks (events ++ (finishResponse pending s).2) (finishResponse pending s).1 := by
  obtain ⟨hopen, hvisible⟩ := hfit
  have hreasoning := tracks_closeReasoning h
  have hfits : CallFits (events ++ (closeReasoning s).2) (closeReasoning s).1 (.visible pending) := by
    refine Or.inr ⟨?_, ?_⟩
    · rw [closeReasoning_fst]
      exact hopen
    · rw [VisibleFits, itemIds_closeReasoning, closeReasoning_fst]
      exact hvisible
  have hclosed : (closeReasoning s).1.reasoningOpen = false := by rw [closeReasoning_fst]
  obtain ⟨hcompleted, hno⟩ := emitChatVisibleDelta_frame pending hclosed
  have hpending := Tracks.andThen (tracks_emitChatVisibleDelta hreasoning hfits)
  have hmessage := Tracks.andThen (tracks_closeChatMessage hpending)
  have htools := Tracks.andThen (f := closeChatTools) (tracks_closeToolsAt hmessage _)
  refine Tracks.andThen (tracks_writeCompleted htools ?_ ?_ ?_ (toolEntries_closeChatTools hmessage))
  · show (closeToolsAt _ (closeChatMessage (emitChatVisibleDelta pending _).1).1).1.completed = false
    rw [closeToolsAt_fst, closeChatMessage_fst]
    show (emitChatVisibleDelta pending (closeReasoning s).1).1.completed = false
    rw [hcompleted, closeReasoning_fst]
    exact hopen
  · show (closeToolsAt _ (closeChatMessage (emitChatVisibleDelta pending _).1).1).1.reasoningOpen = false
    rw [closeToolsAt_fst, closeChatMessage_fst]
    exact hno
  · show (closeToolsAt _ (closeChatMessage (emitChatVisibleDelta pending _).1).1).1.messageOpen = false
    rw [closeToolsAt_fst, closeChatMessage_fst]

theorem tracks_ensureChatStarted (h : Tracks events s) (chunkId : Option String) :
    Tracks (events ++ (ensureChatStarted chunkId s).2) (ensureChatStarted chunkId s).1 := by
  rw [ensureChatStarted]
  split
  · exact h.silent rfl
  · have hstarted : Tracks events { s with
        chatMode := true, responseId := (chunkId.filter (· ≠ "")).getD "resp_compat_chat" } :=
      ⟨h.reached, h.places, h.ordered⟩
    exact hstarted.silent rfl

/-- A call that goes well keeps track of the items. -/
theorem tracks_runCall (env : ChatEnv) (h : Tracks events s) {call : ChatCall}
    (hfit : CallFits events s call) :
    Tracks (events ++ (runCall env call s).2) (runCall env call s).1 := by
  cases call with
  | start chunkId => exact tracks_ensureChatStarted h chunkId
  | think text => exact tracks_emitThinkDelta h hfit
  | closeReasoning => exact tracks_closeReasoning h
  | visible text => exact tracks_emitChatVisibleDelta h hfit
  | leakedTool raw => exact tracks_emitChatLeakedToolValue h env.serde env.restore hfit
  | tool index callId name arguments =>
    exact tracks_emitChatToolDelta h hfit.1 env.restore name arguments hfit.2
  | finish pending => exact tracks_finishResponse h hfit

theorem tracks_runCalls (env : ChatEnv) (h : Tracks events s) {calls : List ChatCall}
    (hfit : CallsFit env events s calls) :
    Tracks (events ++ (runCalls env calls s).2) (runCalls env calls s).1 := by
  induction calls generalizing events s with
  | nil => exact h.silent rfl
  | cons call rest ih =>
    obtain ⟨hcall, hrest⟩ := hfit
    exact Tracks.andThen (ih (tracks_runCall env h hcall) hrest)

/-! ## The stream -/

theorem chatMode_emitThinkDelta (text : String) (s : ChatEmit) :
    (emitThinkDelta text s).1.chatMode = s.chatMode := by
  rw [emitThinkDelta]
  split
  · rfl
  · show (ensureReasoningOpen s).1.chatMode = s.chatMode
    rw [ensureReasoningOpen]
    split <;> rfl

theorem chatMode_emitChatVisibleDelta (text : String) (s : ChatEmit) :
    (emitChatVisibleDelta text s).1.chatMode = s.chatMode := by
  rw [emitChatVisibleDelta]
  split
  · rfl
  · obtain ⟨-, -, hchat⟩ := ensureMessageOpen_frame (closeReasoning s).1
    rw [closeReasoning_fst] at hchat
    show (ensureMessageOpen (closeReasoning s).1).1.chatMode = s.chatMode
    rw [closeReasoning_fst, hchat]

theorem chatMode_emitChatToolDelta (restore : RestoreNames) (index : ℕ)
    (callId name arguments : Option String) (s : ChatEmit) :
    (emitChatToolDelta restore index callId name arguments s).1.chatMode = s.chatMode := by
  show (closeChatMessage (closeReasoning s).1).1.chatMode = s.chatMode
  rw [closeChatMessage_fst, closeReasoning_fst]

/-- A call does not leave the chat. -/
theorem chatMode_runCall (env : ChatEnv) (call : ChatCall) (hchat : s.chatMode = true) :
    (runCall env call s).1.chatMode = true := by
  cases call with
  | start chunkId =>
    rw [runCall, ensureChatStarted, if_pos hchat]
    exact hchat
  | think text =>
    rw [runCall, chatMode_emitThinkDelta]
    exact hchat
  | closeReasoning =>
    rw [runCall, closeReasoning_fst]
    exact hchat
  | visible text =>
    rw [runCall, chatMode_emitChatVisibleDelta]
    exact hchat
  | leakedTool raw =>
    show (closeChatTool _ (emitChatToolDelta _ _ _ _ _ _).1).1.chatMode = true
    rw [closeChatTool_fst]
    simp only [chatMode_emitChatToolDelta]
    exact hchat
  | tool index callId name arguments =>
    rw [runCall, chatMode_emitChatToolDelta]
    exact hchat
  | finish pending =>
    show (closeToolsAt _ (closeChatMessage (emitChatVisibleDelta pending _).1).1).1.chatMode = true
    rw [closeToolsAt_fst, closeChatMessage_fst]
    show (emitChatVisibleDelta pending (closeReasoning s).1).1.chatMode = true
    rw [chatMode_emitChatVisibleDelta, closeReasoning_fst]
    exact hchat

theorem chatMode_runCalls (env : ChatEnv) (calls : List ChatCall) (hchat : s.chatMode = true) :
    (runCalls env calls s).1.chatMode = true := by
  induction calls generalizing s with
  | nil => exact hchat
  | cons call rest ih => exact ih (chatMode_runCall env call hchat)

theorem runCalls_append (env : ChatEnv) (calls calls' : List ChatCall) (s : ChatEmit) :
    (runCalls env (calls ++ calls') s).1 = (runCalls env calls' (runCalls env calls s).1).1 := by
  induction calls generalizing s with
  | nil => rfl
  | cons call rest ih => exact ih (runCall env call s).1

end

/-- A chunk starts the chat. -/
theorem eventCalls_chunk (env : ChatEnv) (s : SseThinkState) {json : Value}
    (hchunk : chatCompletionChunk json = true) :
    ∃ calls, (eventCalls env s json).1 = .start (json.getStr "id") :: calls := by
  obtain ⟨choices, hchoices⟩ := Option.isSome_iff_exists.mp hchunk
  have hno : ¬ json.asStr = some "[DONE]" := by
    intro hstr
    rw [Value.asStr_eq_some.mp hstr] at hchoices
    cases hchoices
  have hcalls : chunkCalls env.serde s.emit.chatMode s.emit.completed json
      = startedCalls env.serde s.emit.completed json choices := by
    rw [chunkCalls, if_neg hno, hchoices]
  rw [eventCalls, hcalls]
  cases choices with
  | nil => exact ⟨_, rfl⟩
  | cons choice rest => exact ⟨_, rfl⟩

/-- The end marker ends an open chat. -/
theorem eventCalls_done (env : ChatEnv) (s : SseThinkState) (hchat : s.emit.chatMode = true)
    (hopen : s.emit.completed = false) :
    ∃ calls pending, (eventCalls env s doneMarker).1 = calls ++ [.finish pending] := by
  have hcalls : chunkCalls env.serde s.emit.chatMode s.emit.completed doneMarker
      = finishCalls env.serde false := by
    rw [chunkCalls, if_pos (show doneMarker.asStr = some "[DONE]" from rfl), hchat, hopen]
    rfl
  rw [eventCalls, hcalls, finishCalls]
  exact ⟨_, _, rfl⟩

section

variable {env : ChatEnv}

/-- A chunk in a chat leaves it a chat. -/
theorem chatMode_rewrite (s : SseThinkState) (json : Value) (hchat : s.emit.chatMode = true) :
    (rewriteChatCompletionEvent env s json).1.emit.chatMode = true :=
  chatMode_runCalls env _ hchat

theorem chatMode_rewrite_chunk (s : SseThinkState) {json : Value}
    (hchunk : chatCompletionChunk json = true) :
    (rewriteChatCompletionEvent env s json).1.emit.chatMode = true := by
  obtain ⟨calls, hcalls⟩ := eventCalls_chunk env s hchunk
  show (runCalls env (eventCalls env s json).1 s.emit).1.chatMode = true
  rw [hcalls]
  refine chatMode_runCalls env calls ?_
  rw [runCall, ensureChatStarted]
  split
  · assumption
  · rfl

/-- After a chunk the stream is a chat. -/
theorem chatMode_rewriteAll (s : SseThinkState) {chunks : List Value}
    (h : s.emit.chatMode = true ∨ ∃ c ∈ chunks, chatCompletionChunk c = true) :
    (rewriteAll env s chunks).1.emit.chatMode = true := by
  induction chunks generalizing s with
  | nil =>
    rcases h with h | ⟨c, hc, -⟩
    · exact h
    · cases hc
  | cons json rest ih =>
    refine ih _ ?_
    rcases h with h | ⟨c, hc, hchunk⟩
    · exact Or.inl (chatMode_rewrite s json h)
    · rcases List.mem_cons.mp hc with rfl | hc
      · exact Or.inl (chatMode_rewrite_chunk s hchunk)
      · exact Or.inr ⟨c, hc, hchunk⟩

/-- The end marker completes a chat. -/
theorem completed_rewrite_done (s : SseThinkState) (hchat : s.emit.chatMode = true) :
    (rewriteChatCompletionEvent env s doneMarker).1.emit.completed = true := by
  show (runCalls env (eventCalls env s doneMarker).1 s.emit).1.completed = true
  cases hopen : s.emit.completed with
  | true =>
    have hcalls : (eventCalls env s doneMarker).1 = [] := by
      rw [eventCalls, chunkCalls, if_pos (show doneMarker.asStr = some "[DONE]" from rfl), hchat, hopen]
      rfl
    rw [hcalls]
    exact hopen
  | false =>
    obtain ⟨calls, pending, hcalls⟩ := eventCalls_done env s hchat hopen
    rw [hcalls, runCalls_append]
    rfl

theorem tracks_rewriteAll {events : List Value} {s : SseThinkState} (h : Tracks events s.emit)
    {jsons : List Value} (hfit : ChunksFit env events s jsons) :
    Tracks (events ++ (rewriteAll env s jsons).2) (rewriteAll env s jsons).1.emit := by
  induction jsons generalizing events s with
  | nil => exact h.silent rfl
  | cons json rest ih =>
    obtain ⟨hcalls, hrest⟩ := hfit
    have hstep := ih (tracks_runCalls env h hcalls) hrest
    rw [List.append_assoc] at hstep
    exact hstep

theorem rewriteAll_append (s : SseThinkState) (jsons jsons' : List Value) :
    (rewriteAll env s (jsons ++ jsons')).1 = (rewriteAll env (rewriteAll env s jsons).1 jsons').1 := by
  induction jsons generalizing s with
  | nil => rfl
  | cons json rest ih => exact ih _

end

/-- Where every call for the chunks and for the end marker fits, the stream is consistent. -/
theorem consistent_chatStream (env : ChatEnv) (chunks : List Value)
    (hsome : ∃ c ∈ chunks, chatCompletionChunk c = true)
    (hfit : ChunksFit env [] .initial (chunks ++ [doneMarker])) :
    Consistent (marksOf (chatStream env chunks)) := by
  have htracks := tracks_rewriteAll tracks_initial hfit
  obtain ⟨text, hreached⟩ := htracks.reached
  have hcompleted : (rewriteAll env .initial (chunks ++ [doneMarker])).1.emit.completed = true := by
    rw [rewriteAll_append]
    exact completed_rewrite_done _ (chatMode_rewriteAll _ (Or.inr hsome))
  rw [hcompleted] at hreached
  exact hreached.consistent

/-! ## Streams -/

/-- A chunk with a delta. -/
def deltaChunk (delta : Members) : Value :=
  .object [("id", .string "chat-1"), ("model", .string "kimi-k2"),
    ("choices", .array [.object [("index", num 0), ("delta", .object delta)]])]

/-- The delta of the first tool call. -/
def toolDelta (id name arguments : String) : Members :=
  [("tool_calls", .array [.object [("index", num 0), ("id", .string id),
    ("function", .object [("name", .string name), ("arguments", .string arguments)])]])]

/-- No tool has been renamed. -/
def plainChatEnv : ChatEnv := ⟨plainSerde, fun name => (name, none)⟩

/-- A thought, an answer with another thought in it, and a tool call in two pieces. -/
def plainChat : List Value :=
  [deltaChunk [("reasoning_content", .string "hm")], deltaChunk [("content", .string "a<think>b</think>c")],
    deltaChunk (toolDelta "call_1" "exec_command" "\x7b"), deltaChunk (toolDelta "" "" "\x7d")]

theorem consistent_plainChat : Consistent (marksOf (chatStream plainChatEnv plainChat)) :=
  consistent_chatStream plainChatEnv plainChat
    ⟨deltaChunk [("reasoning_content", .string "hm")], List.mem_cons_self, rfl⟩ (by decide +kernel)

/-- A text on either side of a tool call: two messages with one id, and the second one is
said to have both texts. -/
theorem not_consistent_textAfterTool :
    ¬ ∀ (env : ChatEnv) (chunks : List Value), (∀ c ∈ chunks, chatCompletionChunk c = true) →
      Consistent (marksOf (chatStream env chunks)) := by
  intro h
  have hchunks : ∀ c ∈ [deltaChunk [("content", .string "a")],
      deltaChunk (toolDelta "call_1" "exec_command" "\x7b\x7d"), deltaChunk [("content", .string "b")]],
      chatCompletionChunk c = true := by
    simp [deltaChunk, chatCompletionChunk, Value.getArray, Members.get]
  have hids := (h plainChatEnv _ hchunks).ids
  exact absurd hids (by decide +kernel)

end CodexRouter
