/-
# From Chat Completions chunks to Responses events

`rewrite_chat_completion_event` reads the chunks of a Chat Completions stream and writes
the events of a Responses stream.  It has two halves.  The reading half filters the texts
of a chunk and finds out what is to be emitted, a list of calls (`chunkCalls`); it
remembers what the filters hold back (`ChatFilter`).  The writing half carries out the
calls and remembers the items that it has opened (`ChatEmit`).

The counters are unbounded here; the source saturates them at the end of `u64`.
-/
import CodexRouter.ChatScan
import CodexRouter.Base.Fresh
import CodexRouter.Base.KeyedTable

namespace CodexRouter

open Text

/-! ## The writing half -/

/-- `ChatToolCallState`. -/
structure ChatToolCallState where
  id : String
  name : String
  ns : Option String
  arguments : String
  outputIndex : ℕ
  itemStarted : Bool
  deriving DecidableEq, Repr

/-- The fields of `SseThinkState` that are about the items. -/
structure ChatEmit where
  reasoningOpen : Bool
  itemId : String
  outputIndex : ℕ
  nextItem : ℕ
  chatMode : Bool
  responseId : String
  messageId : String
  messageOutputIndex : ℕ
  messageOpen : Bool
  visibleText : String
  nextOutputIndex : ℕ
  toolCalls : OrdMap ℕ ChatToolCallState
  nextLeakedToolIndex : ℕ
  completed : Bool

/-- `SseThinkState::default`. -/
def ChatEmit.initial : ChatEmit where
  reasoningOpen := false
  itemId := ""
  outputIndex := 0
  nextItem := 0
  chatMode := false
  responseId := ""
  messageId := ""
  messageOutputIndex := 0
  messageOpen := false
  visibleText := ""
  nextOutputIndex := 0
  toolCalls := []
  nextLeakedToolIndex := 0
  completed := false

/-- What a function of the writing half leaves: the state and the events it has written. -/
abbrev Emitted := ChatEmit × List Value

/-- Go on with another function. -/
def Emitted.andThen (r : Emitted) (f : ChatEmit → Emitted) : Emitted :=
  ((f r.1).1, r.2 ++ (f r.1).2)

/-- A number of the stream. -/
def num (n : ℕ) : Value := .number (.int n)

/-! ### Events -/

/-- `response.output_item.added`. -/
def itemAdded (outputIndex : ℕ) (item : Members) : Value :=
  .object [("type", .string "response.output_item.added"), ("output_index", num outputIndex),
    ("item", .object item)]

/-- `response.output_item.done`. -/
def itemDone (outputIndex : ℕ) (item : Members) : Value :=
  .object [("type", .string "response.output_item.done"), ("output_index", num outputIndex),
    ("item", .object item)]

/-- An event about a part of an item. -/
def itemEvent (type itemId : String) (outputIndex : ℕ) (rest : Members) : Value :=
  .object ([("type", .string type), ("item_id", .string itemId), ("output_index", num outputIndex)]
    ++ rest)

/-- A reasoning item. -/
def reasoningItem (id status : String) : Members :=
  [("id", .string id), ("type", .string "reasoning"), ("status", .string status),
    ("summary", .array [])]

/-- The summary part of a reasoning item. -/
def summaryPart : Value := .object [("type", .string "summary_text"), ("text", .string "")]

/-- A text part. -/
def textPart (text : String) : Value :=
  .object [("type", .string "output_text"), ("text", .string text), ("annotations", .array [])]

/-- A message item. -/
def messageItem (id status : String) (content : List Value) : Members :=
  [("id", .string id), ("type", .string "message"), ("status", .string status),
    ("role", .string "assistant"), ("content", .array content)]

/-- The item of a tool call. -/
def functionCallItem (tool : ChatToolCallState) (status arguments : String) : Members :=
  [("id", .string tool.id), ("type", .string "function_call"), ("status", .string status),
    ("call_id", .string tool.id), ("name", .string tool.name), ("arguments", .string arguments)]
    ++ match tool.ns with
      | some ns => [("namespace", .string ns)]
      | none => []

/-! ### Reasoning -/

/-- The id of the next reasoning item. -/
def ChatEmit.nextReasoningId (s : ChatEmit) : String := numbered "rs_cr_think_" (s.nextItem + 1)

/-- `ensure_reasoning_open`, in a chat. -/
def ensureReasoningOpen (s : ChatEmit) : Emitted :=
  if s.reasoningOpen then (s, [])
  else
    ({ s with
        nextItem := s.nextItem + 1
        itemId := s.nextReasoningId
        outputIndex := s.nextOutputIndex
        nextOutputIndex := s.nextOutputIndex + 1
        reasoningOpen := true },
      [itemAdded s.nextOutputIndex (reasoningItem s.nextReasoningId "in_progress"),
        itemEvent "response.reasoning_summary_part.added" s.nextReasoningId s.nextOutputIndex
          [("summary_index", num 0), ("part", summaryPart)]])

/-- The delta of `emit_think_delta`. -/
def writeThinkDelta (text : String) (s : ChatEmit) : Emitted :=
  (s, [itemEvent "response.reasoning_summary_text.delta" s.itemId s.outputIndex
    [("summary_index", num 0), ("delta", .string text)]])

/-- `emit_think_delta`. -/
def emitThinkDelta (text : String) (s : ChatEmit) : Emitted :=
  if text = "" then (s, []) else (ensureReasoningOpen s).andThen (writeThinkDelta text)

/-- `close_reasoning`. -/
def closeReasoning (s : ChatEmit) : Emitted :=
  if s.reasoningOpen then
    ({ s with reasoningOpen := false },
      [itemEvent "response.reasoning_summary_text.done" s.itemId s.outputIndex
          [("summary_index", num 0), ("text", .string "")],
        itemEvent "response.reasoning_summary_part.done" s.itemId s.outputIndex
          [("summary_index", num 0), ("part", summaryPart)],
        itemDone s.outputIndex (reasoningItem s.itemId "completed")])
  else (s, [])

/-! ### The message -/

/-- The id of the next message. -/
def ChatEmit.nextMessageId (s : ChatEmit) : String := numbered "msg_cr_chat_" (s.nextItem + 1)

/-- The first half of `emit_chat_visible_delta`: open a message.  Neither the counter of the
ids nor the visible text is touched. -/
def ensureMessageOpen (s : ChatEmit) : Emitted :=
  if s.messageOpen then (s, [])
  else
    ({ s with
        messageId := s.nextMessageId
        messageOutputIndex := s.nextOutputIndex
        nextOutputIndex := s.nextOutputIndex + 1
        messageOpen := true },
      [itemAdded s.nextOutputIndex (messageItem s.nextMessageId "in_progress" []),
        itemEvent "response.content_part.added" s.nextMessageId s.nextOutputIndex
          [("content_index", num 0), ("part", textPart "")]])

/-- The second half of `emit_chat_visible_delta`. -/
def writeVisibleDelta (text : String) (s : ChatEmit) : Emitted :=
  ({ s with visibleText := s.visibleText ++ text },
    [itemEvent "response.output_text.delta" s.messageId s.messageOutputIndex
      [("content_index", num 0), ("delta", .string text)]])

/-- `emit_chat_visible_delta`. -/
def emitChatVisibleDelta (text : String) (s : ChatEmit) : Emitted :=
  if text = "" then (s, [])
  else ((closeReasoning s).andThen ensureMessageOpen).andThen (writeVisibleDelta text)

/-- `close_chat_message`. -/
def closeChatMessage (s : ChatEmit) : Emitted :=
  if s.messageOpen then
    ({ s with messageOpen := false },
      [itemEvent "response.output_text.done" s.messageId s.messageOutputIndex
          [("content_index", num 0), ("text", .string s.visibleText)],
        itemEvent "response.content_part.done" s.messageId s.messageOutputIndex
          [("content_index", num 0), ("part", textPart s.visibleText)],
        itemDone s.messageOutputIndex (messageItem s.messageId "completed" [textPart s.visibleText])])
  else (s, [])

/-! ### Tool calls -/

/-- `restore_tool_name_parts` of the turn: the local name and the namespace. -/
abbrev RestoreNames := String → String × Option String

/-- The entry of a tool call, `entry(index).or_insert_with`. -/
def toolEntry (index : ℕ) (s : ChatEmit) : ChatToolCallState :=
  (s.toolCalls.get index).getD
    ⟨numbered "call_compat_" index, "", none, "", s.nextOutputIndex, false⟩

/-- The id that a delta leaves its tool call. -/
def ChatToolCallState.deltaId (tool : ChatToolCallState) (callId : Option String) : String :=
  (callId.filter (· ≠ "")).getD tool.id

/-- What a delta changes in the entry of its tool call. -/
def ChatToolCallState.receive (restore : RestoreNames) (callId name arguments : Option String)
    (tool : ChatToolCallState) : ChatToolCallState :=
  let named := match name.filter (· ≠ "") with
    | none => tool
    | some name => { tool with name := (restore name).1, ns := (restore name).2.or tool.ns }
  { named with
    id := tool.deltaId callId
    arguments := tool.arguments ++ arguments.getD ""
    itemStarted := true }

/-- The part of `emit_chat_tool_delta` behind the closing of the other items. -/
def writeToolDelta (restore : RestoreNames) (index : ℕ) (callId name arguments : Option String)
    (s : ChatEmit) : Emitted :=
  let before := toolEntry index s
  let tool := before.receive restore callId name arguments
  let added := if before.itemStarted then [] else
    [itemAdded tool.outputIndex (functionCallItem tool "in_progress" "")]
  let delta := if arguments.getD "" = "" then [] else
    [itemEvent "response.function_call_arguments.delta" tool.id tool.outputIndex
      [("delta", .string (arguments.getD ""))]]
  ({ s with
      toolCalls := s.toolCalls.insert index tool
      nextOutputIndex := if before.itemStarted then s.nextOutputIndex else s.nextOutputIndex + 1 },
    added ++ delta)

/-- `emit_chat_tool_delta`. -/
def emitChatToolDelta (restore : RestoreNames) (index : ℕ) (callId name arguments : Option String)
    (s : ChatEmit) : Emitted :=
  ((closeReasoning s).andThen closeChatMessage).andThen
    (writeToolDelta restore index callId name arguments)

/-- `next_chat_tool_index`: the first index without an entry, from the counter on. -/
def freeToolIndex (s : ChatEmit) : ℕ :=
  (searchFresh id (s.toolCalls.map Prod.fst) (s.toolCalls.length + 1) s.nextLeakedToolIndex).getD
    s.nextLeakedToolIndex

/-- `close_chat_tool`. -/
def closeChatTool (index : ℕ) (s : ChatEmit) : Emitted :=
  match s.toolCalls.get index with
  | none => (s, [])
  | some tool =>
    if tool.itemStarted then
      ({ s with toolCalls := s.toolCalls.insert index { tool with itemStarted := false } },
        [itemEvent "response.function_call_arguments.done" tool.id tool.outputIndex
            [("arguments", .string tool.arguments)],
          itemDone tool.outputIndex (functionCallItem tool "completed" tool.arguments)])
    else (s, [])

/-- `emit_chat_leaked_tool_value`, with the normalization of the raw value before it. -/
def emitChatLeakedToolValue (serde : Serde) (restore : RestoreNames) (raw : Value) (s : ChatEmit) :
    Emitted :=
  let tool := normalizeLeakedToolCall serde raw (s.nextLeakedToolIndex + 1)
  let index := freeToolIndex s
  (emitChatToolDelta restore index (tool.getStr "call_id") (tool.getStr "name")
    (tool.getStr "arguments") { s with nextLeakedToolIndex := index + 1 }).andThen
    (closeChatTool index)

/-- Close the tool calls with these indexes. -/
def closeToolsAt : List ℕ → ChatEmit → Emitted
  | [], s => (s, [])
  | index :: rest, s => (closeChatTool index s).andThen (closeToolsAt rest)

/-- `close_chat_tools`. -/
def closeChatTools (s : ChatEmit) : Emitted := closeToolsAt (s.toolCalls.map Prod.fst) s

/-! ### The response -/

/-- The event about the response, with its other members. -/
def responseEvent (type : String) (response : Members) : Value :=
  .object [("type", .string type), ("response", .object response)]

/-- `ensure_chat_started`; the name is that of the chunk. -/
def ensureChatStarted (chunkId : Option String) (s : ChatEmit) : Emitted :=
  if s.chatMode then (s, [])
  else
    let responseId := (chunkId.filter (· ≠ "")).getD "resp_compat_chat"
    ({ s with chatMode := true, responseId := responseId },
      [responseEvent "response.created" [("id", .string responseId), ("object", .string "response"),
          ("status", .string "in_progress"), ("output", .array [])],
        responseEvent "response.in_progress" [("id", .string responseId),
          ("status", .string "in_progress")]])

/-- The end of `finish_chat_response`. -/
def writeCompleted (s : ChatEmit) : Emitted :=
  ({ s with completed := true },
    [responseEvent "response.completed" [("id", .string s.responseId),
      ("object", .string "response"), ("status", .string "completed")]])

/-- The rest of `finish_chat_response` behind the pieces of the think scanner; `pending` is
what the buffer of the leaked tool calls has held back. -/
def finishResponse (pending : String) (s : ChatEmit) : Emitted :=
  ((((closeReasoning s).andThen (emitChatVisibleDelta pending)).andThen closeChatMessage).andThen
    closeChatTools).andThen writeCompleted

/-! ### Calls -/

/-- A call of the writing half. -/
inductive ChatCall where
  | start (chunkId : Option String)
  | think (text : String)
  | closeReasoning
  | visible (text : String)
  | leakedTool (raw : Value)
  | tool (index : ℕ) (callId name arguments : Option String)
  | finish (pending : String)

/-- What the stream needs from outside: the JSON library, and the names of the tools that
the turn has renamed. -/
structure ChatEnv where
  serde : Serde
  restore : RestoreNames

/-- Carry out a call. -/
def runCall (env : ChatEnv) : ChatCall → ChatEmit → Emitted
  | .start chunkId => ensureChatStarted chunkId
  | .think text => emitThinkDelta text
  | .closeReasoning => CodexRouter.closeReasoning
  | .visible text => emitChatVisibleDelta text
  | .leakedTool raw => emitChatLeakedToolValue env.serde env.restore raw
  | .tool index callId name arguments => emitChatToolDelta env.restore index callId name arguments
  | .finish pending => finishResponse pending

/-- Carry out calls one after the other. -/
def runCalls (env : ChatEnv) : List ChatCall → ChatEmit → Emitted
  | [], s => (s, [])
  | call :: rest, s => (runCall env call s).andThen (runCalls env rest)

/-! ## The reading half -/

/-- The fields of `SseThinkState` that are about the texts. -/
structure ChatFilter where
  deepseekDsml : Bool
  scan : ThinkScan
  dsml : DeepSeekDsmlScan
  leakedToolBuffer : List Char

/-- `SseThinkState::default`. -/
def ChatFilter.initial : ChatFilter := ⟨false, ⟨[], false⟩, ⟨[], false, false⟩, []⟩

/-- A function of the reading half. -/
abbrev Filter (α : Type) := StateM ChatFilter α

/-- `is_deepseek_family_model`. -/
def isDeepseekFamilyModel (model : String) : Bool :=
  contains (toAsciiLowercase (lastSegment '/' (trimStartMatches (· = '~') (trim model)))) "deepseek"

/-- `scrub_deepseek_text`. -/
def scrubDeepseekText (text : String) : Filter String := do
  let f ← get
  if f.deepseekDsml then
    let (visible, dsml) := f.dsml.push text
    set { f with dsml := dsml }
    return visible
  else return text

/-- The visible branch of `emit_think_pieces`: split the text at the leaked tool calls. -/
def visibleCalls (serde : Serde) (text : String) : Filter (List ChatCall) := do
  let f ← get
  let (pieces, buffer) := splitLeakedTools serde f.leakedToolBuffer text
  set { f with leakedToolBuffer := buffer }
  return .closeReasoning :: pieces.map fun
    | .visible text => .visible text
    | .tool raw => .leakedTool raw

/-- `emit_think_pieces`, in a chat. -/
def thinkPieceCalls (serde : Serde) : List ThinkPiece → Filter (List ChatCall)
  | [] => return []
  | .think text :: pieces => do
    let rest ← thinkPieceCalls serde pieces
    return if text = "" then rest else .think text :: rest
  | .visible text :: pieces => do
    let calls ← if text = "" then return [] else visibleCalls serde text
    return calls ++ (← thinkPieceCalls serde pieces)

/-- The calls for a text that goes through the think scanner. -/
def scannedCalls (serde : Serde) (visible : String) : Filter (List ChatCall) := do
  let f ← get
  let (pieces, scan) := f.scan.push visible
  set { f with scan := scan }
  thinkPieceCalls serde pieces

/-- The members that hold a reasoning text. -/
def reasoningFields : List String := ["reasoning_content", "reasoning", "thinking", "thoughts"]

/-- The loop over the reasoning members of a delta or a message. -/
def reasoningCalls (value : Value) : List String → Filter (List ChatCall)
  | [] => return []
  | field :: fields => do
    let calls ← match (value.get field).bind chatTextValue with
      | none => pure []
      | some text => do
        let text ← scrubDeepseekText text
        pure (if text = "" then [] else [.think text])
    return calls ++ (← reasoningCalls value fields)

/-- The calls for a content, and whether there was any text in it. -/
def contentCalls (serde : Serde) (content : Value) : Filter (List ChatCall × Bool) := do
  let (reasoning, visible) := splitChatMessageContent content
  let reasoning ← scrubDeepseekText reasoning
  let visible ← scrubDeepseekText visible
  let calls ← if visible = "" then pure [] else scannedCalls serde visible
  return ((if reasoning = "" then [] else [.think reasoning]) ++ calls,
    visible ≠ "" || reasoning ≠ "")

/-- The calls for a content that may be missing. -/
def contentCallsOf (serde : Serde) : Option Value → Filter (List ChatCall × Bool)
  | none => return ([], false)
  | some content => contentCalls serde content

/-- The call of `emit_chat_tool_delta` for an entry of `tool_calls`. -/
def toolCall (entry : Value × ℕ) : ChatCall :=
  let (call, position) := entry
  let index := match (call.get "index").bind Value.asInt with
    | some (.ofNat index) => index
    | _ => position
  let function := (call.get "function").getD .null
  .tool index (call.getStr "id") (function.getStr "name") (function.getStr "arguments")

/-- The calls for the non-empty `tool_calls` of the delta, else of the message. -/
def toolCalls (delta message : Value) : List ChatCall :=
  let calls := ((delta.getArray "tool_calls").filter (· ≠ [])).or
    ((message.getArray "tool_calls").filter (· ≠ []))
  (calls.getD []).zipIdx.map toolCall

/-- The calls of `finish_chat_response`; nothing is done in a stream that is closed. -/
def finishCalls (serde : Serde) (closed : Bool) : Filter (List ChatCall) := do
  if closed then return []
  else
    let f ← get
    let (pieces, scan) := f.scan.flush
    set { f with scan := scan, dsml := if f.deepseekDsml then f.dsml.flush else f.dsml }
    let calls ← thinkPieceCalls serde pieces
    let f ← get
    set { f with leakedToolBuffer := [] }
    return calls ++ [.finish (String.ofList f.leakedToolBuffer)]

/-- `chat_completion_chunk`. -/
def chatCompletionChunk (json : Value) : Bool := (json.getArray "choices").isSome

/-- The calls for the first choice of a chunk. -/
def choiceCalls (serde : Serde) (closed : Bool) (choice : Value) : Filter (List ChatCall) := do
  let delta := (choice.get "delta").getD .null
  let message := (choice.get "message").getD .null
  let reasoning ← reasoningCalls delta reasoningFields
  let messageReasoning ← if reasoning = [] then reasoningCalls message reasoningFields else pure []
  let (content, emitted) ← contentCallsOf serde (delta.get "content")
  let (messageContent, _) ← if emitted then pure ([], true) else
    contentCallsOf serde (message.get "content")
  let (parts, _) ← if emitted then pure ([], true) else
    contentCallsOf serde ((delta.get "parts").or (message.get "parts"))
  let finish ← if (choice.getStr "finish_reason").getD "" ∈
      ["stop", "tool_calls", "function_call", "length", "content_filter"] then finishCalls serde closed
    else pure []
  return reasoning ++ messageReasoning ++ content ++ messageContent ++ parts
    ++ toolCalls delta message ++ finish

/-- The calls for a chunk.  It starts the chat, so that its own end is only ignored in a
stream that is completed. -/
def startedCalls (serde : Serde) (completed : Bool) (json : Value) (choices : List Value) :
    Filter (List ChatCall) := do
  modify fun f => { f with
    deepseekDsml := f.deepseekDsml || isDeepseekFamilyModel ((json.getStr "model").getD "") }
  let calls ← match choices with
    | [] => pure []
    | choice :: _ => choiceCalls serde completed choice
  return .start (json.getStr "id") :: calls

/-- The calls of `rewrite_chat_completion_event`. -/
def chunkCalls (serde : Serde) (chatMode completed : Bool) (json : Value) :
    Filter (List ChatCall) :=
  if json.asStr = some "[DONE]" then finishCalls serde (!chatMode || completed)
  else
    match json.getArray "choices" with
    | none => pure []
    | some choices => startedCalls serde completed json choices

/-! ## The stream -/

/-- `SseThinkState`. -/
structure SseThinkState where
  emit : ChatEmit
  filter : ChatFilter

/-- `SseThinkState::default`. -/
def SseThinkState.initial : SseThinkState := ⟨.initial, .initial⟩

/-- The calls for an event, and what the filters hold back afterwards. -/
def eventCalls (env : ChatEnv) (s : SseThinkState) (json : Value) : List ChatCall × ChatFilter :=
  (chunkCalls env.serde s.emit.chatMode s.emit.completed json).run s.filter

/-- `rewrite_chat_completion_event`. -/
def rewriteChatCompletionEvent (env : ChatEnv) (s : SseThinkState) (json : Value) :
    SseThinkState × List Value :=
  let (calls, filter) := eventCalls env s json
  let (emit, events) := runCalls env calls s.emit
  (⟨emit, filter⟩, events)

/-- Feed events one after the other. -/
def rewriteAll (env : ChatEnv) (s : SseThinkState) : List Value → SseThinkState × List Value
  | [] => (s, [])
  | json :: rest =>
    let (s, events) := rewriteChatCompletionEvent env s json
    let (s, events') := rewriteAll env s rest
    (s, events ++ events')

/-- The end of a stream. -/
def doneMarker : Value := .string "[DONE]"

/-- The events for a sequence of chunks followed by the end marker. -/
def chatStream (env : ChatEnv) (chunks : List Value) : List Value :=
  (rewriteAll env .initial (chunks ++ [doneMarker])).2

end CodexRouter
