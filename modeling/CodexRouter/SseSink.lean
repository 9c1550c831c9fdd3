/-
# The sink of an event stream

`SseSink` takes the events of an upstream stream and writes what the client gets.  If a
stream breaks off after nothing but text, the request is sent again, and the events of the
new attempt are reconciled with the text that was delivered: they are held back until
they have regenerated it, and their ids are replaced by those that the client knows
(`pushReconcile`).  In a first attempt the events are passed on (`pushFresh`).

An event that neither leaks a tool call nor needs the think scanner is not changed on its
way (`rewriteSseEvent`); what is done to the other events is left to the environment.
-/
import CodexRouter.ChatStream
import CodexRouter.GatewayLoop
import CodexRouter.SseFraming

namespace CodexRouter

open Text

/-! ## Reading an event -/

section

variable (serde : Serde)

/-- The text behind `data:` in a line, without the white space around it. -/
def sseLineData (line : String) : Option String :=
  (stripPrefix (trimStart line) "data:").map trim

/-- `sse_event_data`: the first line of data that is JSON. -/
def sseEventData (event : String) : Option Value :=
  (lines event).findSome? fun line => (sseLineData line).bind serde.fromStr

/-- `sse_event_type`. -/
def sseEventType (event : String) : Option String := (sseEventData serde event).bind (Value.getStr "type")

/-- `sse_event_item_type`. -/
def sseEventItemType (event : String) : Option String :=
  ((sseEventData serde event).bind (Value.get "item")).bind (Value.getStr "type")

/-- The id of the response in an event. -/
def sseEventResponseId (event : String) : Option String :=
  ((sseEventData serde event).bind (Value.get "response")).bind (Value.getStr "id")

/-- The `item_id` of an event. -/
def sseEventItemId (event : String) : Option String :=
  (sseEventData serde event).bind (Value.getStr "item_id")

/-- The `delta` of an event. -/
def sseEventDelta (event : String) : String :=
  ((sseEventData serde event).bind (Value.getStr "delta")).getD ""

/-- `sse_error_code_and_message`. -/
def sseErrorCodeAndMessage (event : String) : String × String :=
  let json := sseEventData serde event
  let error := ((json.bind (Value.get "response")).bind (Value.get "error")).or
    (json.bind (Value.get "error"))
  ((error.bind (Value.getStr "code")).getD "", (error.bind (Value.getStr "message")).getD "")

/-- `sse_event_is_retryable_interrupt`. -/
def sseEventIsRetryableInterrupt (event : String) : Bool :=
  let (code, message) := sseErrorCodeAndMessage serde event
  let message := toAsciiLowercase message
  sseEventType serde event = some "response.failed"
    && (eqIgnoreAsciiCase code "upstream_stream_interrupted" || contains message "before a terminal event"
      || contains message "ended before completion" || contains message "stream interrupted")

/-- `sse_event_is_terminal`. -/
def sseEventIsTerminal (event : String) : Bool :=
  (lines event).any fun line =>
    sseLineData line = some "[DONE]" ||
      (((sseLineData line).bind serde.fromStr).bind (Value.getStr "type")).any fun kind =>
        kind ∈ ["response.completed", "response.failed", "response.incomplete"]

/-- `sse_event_has_tool_call`. -/
def sseEventHasToolCall (event : String) : Bool :=
  ((sseEventItemType serde event).any fun kind =>
      kind ∈ ["function_call", "custom_tool_call", "local_shell_call", "computer_call", "apply_patch_call"])
    || (sseEventType serde event).any fun kind =>
      kind ∈ ["response.function_call_arguments.delta", "response.function_call_arguments.done"]

/-- The loop of `extract_leaked_tool_calls` up to the first call: whether there is one. -/
def leaksToolCall : ℕ → List Char → Bool
  | 0, _ => false
  | n + 1, rest =>
    match findLeakedToolStart rest with
    | none => false
    | some start =>
      match skipLeakedPrefix (rest.drop start) with
      | none => false
      | some prefixEnd =>
        let after := rest.drop (start + prefixEnd)
        (takeBalancedJson serde after).isSome || leaksToolCall n (after.dropWhile isWhitespace)

/-! ### Blocks of events -/

/-- The complete events of a block, and what is left. -/
def blockEvents : ℕ → String → List String
  | 0, _ => []
  | n + 1, block =>
    match takeSseEvent block with
    | none => if trim block = "" then [] else [block]
    | some (event, rest) => event :: blockEvents n rest

/-- The events of a block that are taken with `take_sse_event`. -/
def sseBlockEvents (block : String) : List String := blockEvents (block.length + 1) block

/-- `sse_block_has_tool_call`. -/
def sseBlockHasToolCall (block : String) : Bool := (sseBlockEvents block).any (sseEventHasToolCall serde)

/-- `update_resume_ids_from_sse_event`, on the response id and the item id. -/
def updateResumeIdsFromSseEvent (ids : Option String × Option String) (event : String) :
    Option String × Option String :=
  if sseEventType serde event = some "response.created" ∧ ids.1 = none then
    (sseEventResponseId serde event, ids.2)
  else if sseEventType serde event = some "response.output_text.delta" ∧ ids.2 = none then
    (ids.1, sseEventItemId serde event)
  else ids

/-- `update_resume_ids_from_sse_block`. -/
def updateResumeIdsFromSseBlock (block : String) (ids : Option String × Option String) :
    Option String × Option String :=
  (sseBlockEvents block).foldl (updateResumeIdsFromSseEvent serde) ids

/-- The pieces of a text behind each empty line. -/
def lfBlocks : ℕ → List Char → List (List Char)
  | 0, rest => [rest]
  | n + 1, rest =>
    match findChars "\n\n".toList rest with
    | none => [rest]
    | some i => rest.take (i + 2) :: lfBlocks n (rest.drop (i + 2))

/-- The visible text of one event. -/
def eventVisibleText (event : String) : String :=
  if sseEventType serde event = some "response.output_text.delta" then sseEventDelta serde event else ""

/-- `sse_visible_output_text`. -/
def sseVisibleOutputText (block : String) : String :=
  join "" ((lfBlocks (block.length + 1) block.toList).map fun piece =>
    eventVisibleText serde (String.ofList piece))

/-- `sse_block_has_reasoning`. -/
def sseBlockHasReasoning (block : String) : Bool :=
  contains block "reasoning_summary_text" || contains block "\"type\":\"reasoning\""

/-! ### Replacing ids -/

/-- Replace the ids, wherever they stand. -/
def replaceIds (rewrites : List (String × String)) (text : String) : String :=
  rewrites.foldl (fun text ids => replace text ids.1 ids.2) text

/-- A line of `rewrite_delta_event`. -/
def rewriteDeltaLine (newDelta : String) (rewrites : List (String × String)) (line : String) :
    Option String :=
  if trim line = "" then some ""
  else
    match sseLineData line with
    | some data => (serde.fromStr data).map fun json =>
      "data: " ++ replaceIds rewrites (serde.toText (json.insert "delta" (.string newDelta))) ++ "\n"
    | none => some (line ++ "\n")

/-- `rewrite_delta_event`. -/
def rewriteDeltaEvent (event newDelta : String) (rewrites : List (String × String)) : Option String :=
  ((lines event).mapM (rewriteDeltaLine serde newDelta rewrites)).map fun lines => join "" lines ++ "\n"

end

/-! ## Events that pass -/

/-- `SseThinkState` with its switch. -/
structure SseThink where
  disabled : Bool
  state : SseThinkState

/-- `SseThinkState::disabled`, `deepseek` or `default`. -/
def SseThink.new (disableThinkRewrite deepseekDsml : Bool) : SseThink where
  disabled := disableThinkRewrite
  state := { SseThinkState.initial with
    filter := { ChatFilter.initial with deepseekDsml := !disableThinkRewrite && deepseekDsml } }

/-- `needs_scan`. -/
def SseThink.needsScan (t : SseThink) : Bool :=
  !t.disabled && ((t.state.filter.scan.inside || t.state.filter.scan.hold ≠ [])
    || t.state.emit.reasoningOpen)

/-- `event_is_raw_reasoning`. -/
def eventIsRawReasoning (event : String) : Bool :=
  contains event "reasoning_text.delta" || contains event "reasoning_text.done"
    || contains event "\"type\":\"reasoning\"" || contains event "\"type\": \"reasoning\""
    || contains event "response.reasoning.delta"

/-- `event_may_need_think_rewrite`. -/
def eventMayNeedThinkRewrite (t : SseThink) (event : String) : Bool :=
  let textEvent := contains event "output_text.delta" || contains event "output_text.done"
    || contains event "output_item.done" || contains event "content_part.done"
  if t.disabled then false
  else if t.needsScan then true
  else if eventIsRawReasoning event then true
  else if t.state.filter.deepseekDsml then textEvent
  else contains (toAsciiLowercase event) "<think" && textEvent

/-- What a sink gets from outside: the JSON library, whether tool names are restored in this
turn, and how events are rewritten that do not pass. -/
structure SinkEnv where
  serde : Serde
  toolNameRestoreActive : Bool
  /-- `rewrite_sse_event`, for an event that is changed. -/
  rewriteMarkedEvent : SseThink → String → String × SseThink
  /-- `flush_sse_think`, where something has been held back. -/
  flushHeldThink : SseThink → String × SseThink

section

variable (env : SinkEnv)

/-- A line that is neither the end nor a chunk of a chat. -/
def linePasses (t : SseThink) (line : String) : Bool :=
  match sseLineData line with
  | none => true
  | some data =>
    !(data = "[DONE]" && !t.disabled && t.state.emit.chatMode)
      && (t.disabled || (env.serde.fromStr data).all fun json =>
        !(chatCompletionChunk json || json.asStr = some "[DONE]"))

/-- In `rewrite_sse_event` every line of the event is passed on. -/
def eventPasses (t : SseThink) (event : String) : Bool :=
  (findLeakedToolStart event.toList).isNone && !env.toolNameRestoreActive
    && !eventMayNeedThinkRewrite t event && (lines event).all (linePasses env t)

/-- `rewrite_sse_event`. -/
def rewriteSseEvent (t : SseThink) (event : String) : String × SseThink :=
  if trim event = "" ∨ eventPasses env t event then (event, t) else env.rewriteMarkedEvent t event

/-- Rewrite pieces one after the other. -/
def rewriteBlocks (t : SseThink) : List (List Char) → String × SseThink
  | [] => ("", t)
  | piece :: rest =>
    let (text, t) := rewriteSseEvent env t (String.ofList piece)
    let (texts, t) := rewriteBlocks t rest
    (text ++ texts, t)

/-- `rewrite_sse_text_with`. -/
def rewriteSseTextWith (t : SseThink) (chunk : String) : String × SseThink :=
  rewriteBlocks env t (lfBlocks (chunk.length + 1) chunk.toList)

/-- `flush_sse_think`. -/
def flushSseThink (t : SseThink) : String × SseThink :=
  let filter := t.state.filter
  if filter.scan.hold = [] ∧ t.state.emit.reasoningOpen = false then
    ("", { t with state := { t.state with filter := { filter with
      dsml := if filter.deepseekDsml then filter.dsml.flush else filter.dsml } } })
  else env.flushHeldThink t

/-- `apply_sse_rewrites`. -/
def applySseRewrites (t : SseThink) (event : String) (rewrites : List (String × String)) :
    String × SseThink :=
  let (text, t) := rewriteSseTextWith env t event
  (replaceIds rewrites text, t)

/-! ## The sink -/

/-- `ReconcileState`. -/
structure ReconcileState where
  resume : StreamResume
  regenerated : String
  caughtUp : Bool
  retryResponseId : Option String
  retryItemId : Option String

/-- `SseSink`. -/
structure SseSink where
  terminal : Bool
  sentEvents : Bool
  deliveredText : String
  turnText : String
  textOnly : Bool
  hadToolCall : Bool
  holdTextCompleted : Bool
  heldCompleted : Option String
  responseId : Option String
  itemId : Option String
  reconcile : Option ReconcileState
  continuePoint : Option ContinuePoint
  think : SseThink

/-- `SseSink::with_policy`. -/
def SseSink.withPolicy (resume : Option StreamResume) (continuePoint : Option ContinuePoint)
    (holdTextCompleted disableThinkRewrite deepseekDsml : Bool) : SseSink where
  terminal := false
  sentEvents := false
  deliveredText := (resume.map (·.resumePrefix)).getD ""
  turnText := ""
  textOnly := true
  hadToolCall := false
  holdTextCompleted := holdTextCompleted
  heldCompleted := none
  responseId := (continuePoint.bind (·.responseId)).or (resume.bind (·.responseId))
  itemId := resume.bind (·.itemId)
  reconcile := resume.map fun resume => ⟨resume, "", false, none, none⟩
  continuePoint := continuePoint
  think := .new disableThinkRewrite deepseekDsml

/-- `continue_rewrites`. -/
def SseSink.continueRewrites (s : SseSink) : List (String × String) :=
  match s.continuePoint.bind (·.newResponseId), s.responseId with
  | some retry, some known => if retry ≠ known then [(retry, known)] else []
  | _, _ => []

/-- `resume_point`. -/
def SseSink.resumePoint (s : SseSink) : StreamResume := ⟨s.deliveredText, s.responseId, s.itemId⟩

/-- What the sink does with an event: its state, the texts that are written, and whether it
goes on. -/
abbrev Pushed := SseSink × List String × SseFlow

/-- Write a text that is not blank, and set `sent_events` if `always` or if it is written. -/
def SseSink.write (s : SseSink) (always : Bool) (text : String) : Pushed :=
  if trim text = "" then ({ s with sentEvents := s.sentEvents || always }, [], .continues)
  else ({ s with sentEvents := true }, [text], .continues)

/-- The ids of the retry and those that the client knows. -/
def SseSink.retryRewrites (s : SseSink) (recon : ReconcileState) : List (String × String) :=
  (match recon.retryResponseId, s.responseId with
    | some retry, some known => [(retry, known)]
    | _, _ => [])
    ++ match recon.retryItemId, s.itemId with
    | some retry, some known => [(retry, known)]
    | _, _ => []

/-- `forward_event_with_rewrites`, and the note that an event was sent. -/
def SseSink.forwardRetryEvent (s : SseSink) (recon : ReconcileState) (event : String) : Pushed :=
  let (text, think) := applySseRewrites env s.think event (s.retryRewrites recon)
  { s with reconcile := some recon, think := think }.write true text

/-- `response.completed` is kept for later. -/
def SseSink.hold (s : SseSink) (event : String) (rewrites : List (String × String)) : Pushed :=
  let (text, think) := rewriteSseTextWith env s.think event
  let (flushed, think) := flushSseThink env think
  ({ s with think := think, heldCompleted := some (replaceIds rewrites (text ++ flushed)) }, [], .continues)

/-- The delta of a retry.  The source compares lengths in bytes, which agree with lengths in
characters where one of the texts begins the other; where neither does, both branches
abort. -/
def SseSink.pushRetryDelta (s : SseSink) (recon : ReconcileState) (event : String) : Pushed :=
  let delta := sseEventDelta env.serde event
  let recon := { recon with
    retryItemId := recon.retryItemId.or (sseEventItemId env.serde event) }
  if recon.caughtUp then
    { s with
      deliveredText := s.deliveredText ++ delta
      turnText := s.turnText ++ delta }.forwardRetryEvent env recon event
  else
    let regenerated := recon.regenerated ++ delta
    let s := { s with reconcile := some recon, turnText := s.turnText ++ delta }
    if regenerated.length ≤ recon.resume.resumePrefix.length then
      if startsWith recon.resume.resumePrefix regenerated then
        ({ s with reconcile := some { recon with regenerated := regenerated } }, [], .continues)
      else (s, [], .abortReconcile)
    else if startsWith regenerated recon.resume.resumePrefix then
      let suffix := String.ofList (regenerated.toList.drop recon.resume.resumePrefix.length)
      let recon := { recon with regenerated := regenerated, caughtUp := true }
      let s := { s with reconcile := some recon, deliveredText := s.deliveredText ++ suffix }
      match rewriteDeltaEvent env.serde event suffix (s.retryRewrites recon) with
      | none => (s, [], .continues)
      | some rewritten =>
        let (text, think) := rewriteSseTextWith env s.think rewritten
        ({ s with think := think, sentEvents := true }, [text], .continues)
    else (s, [], .abortReconcile)

/-- The end of a retry. -/
def SseSink.pushRetryEnd (s : SseSink) (recon : ReconcileState) (holdCompleted : Bool)
    (kind event : String) : Pushed :=
  if recon.caughtUp = false ∧ kind = "response.completed"
      ∧ recon.regenerated ≠ recon.resume.resumePrefix then
    (s, [], .abortReconcile)
  else if holdCompleted then s.hold env event (s.retryRewrites recon)
  else { s with terminal := true }.forwardRetryEvent env recon event

/-- The reconcile branch of `push_event`. -/
def SseSink.pushReconcile (s : SseSink) (recon : ReconcileState) (holdCompleted : Bool)
    (kind event : String) : Pushed :=
  if kind = "response.created" then
    let recon := { recon with retryResponseId := sseEventResponseId env.serde event }
    ({ s with reconcile := some recon }, [], .continues)
  else if kind = "response.in_progress" then (s, [], .continues)
  else if kind = "response.output_item.added" then
    if sseEventItemType env.serde event ≠ some "message" then (s, [], .abortReconcile)
    else (s, [], .continues)
  else if kind = "response.content_part.added" then (s, [], .continues)
  else if kind = "response.output_text.delta" then s.pushRetryDelta env recon event
  else if kind ∈ ["response.completed", "response.failed", "response.incomplete"] then
    s.pushRetryEnd env recon holdCompleted kind event
  else if kind ∈ ["response.output_text.done", "response.content_part.done", "response.output_item.done"] then
    if recon.caughtUp then s.forwardRetryEvent env recon event else (s, [], .continues)
  else if recon.caughtUp then s.forwardRetryEvent env recon event
  else (s, [], .abortReconcile)

/-- `TEXT_RETRY_EVENT_TYPES`. -/
def textRetryEventTypes : List String :=
  ["response.created", "response.in_progress", "response.output_item.added", "response.content_part.added",
    "response.output_text.delta", "response.output_text.done", "response.content_part.done",
    "response.output_item.done", "response.completed", "response.failed", "response.incomplete"]

/-- Whether an event of a first attempt leaves it plain text. -/
def keepsTextOnly (serde : Serde) (event : String) : Bool :=
  (sseEventType serde event).all fun kind =>
    kind ∈ textRetryEventTypes
      && (!(kind ∈ ["response.output_item.added", "response.output_item.done"])
        || sseEventItemType serde event = some "message")

/-- The branch of `push_event` for a first attempt. -/
def SseSink.pushFresh (s : SseSink) (event : String) : Pushed :=
  let ids := updateResumeIdsFromSseEvent env.serde (s.responseId, s.itemId) event
  let (rewritten, think) := applySseRewrites env s.think event s.continueRewrites
  -- A chat chunk has no type of its own; the events it is rewritten to are read again.
  let ids := updateResumeIdsFromSseBlock env.serde rewritten ids
  let toolCall := sseBlockHasToolCall env.serde rewritten
  let visible := sseVisibleOutputText env.serde rewritten
  { s with
    textOnly := s.textOnly && keepsTextOnly env.serde event && !toolCall && !sseBlockHasReasoning rewritten
    hadToolCall := s.hadToolCall || toolCall
    terminal := s.terminal || sseEventIsTerminal env.serde event || sseEventIsTerminal env.serde rewritten
    responseId := ids.1
    itemId := ids.2
    deliveredText := s.deliveredText ++ visible
    turnText := s.turnText ++ visible
    think := think }.write false rewritten

/-- The notes that `push_event` takes of every event. -/
def SseSink.noteToolCalls (s : SseSink) (event : String) : SseSink :=
  let delta := sseEventDelta env.serde event
  let leaks := leaksToolCall env.serde (delta.length + 1) delta.toList
  if sseEventHasToolCall env.serde event then { s with hadToolCall := true, textOnly := false }
  else { s with hadToolCall := s.hadToolCall || leaks }

/-- `push_event`. -/
def SseSink.pushEvent (s : SseSink) (event : String) : Pushed :=
  let kind := sseEventType env.serde event
  if sseEventIsRetryableInterrupt env.serde event then (s, [], .continues)
  else
    let s := s.noteToolCalls env event
    let holdCompleted := s.holdTextCompleted && kind = some "response.completed" && !s.hadToolCall
    match s.continuePoint with
    | some point =>
      if kind = some "response.created" then
        let point := { point with newResponseId := sseEventResponseId env.serde event }
        ({ s with continuePoint := some point }, [], .continues)
      else if kind = some "response.in_progress" then (s, [], .continues)
      else push s kind holdCompleted
    | none => push s kind holdCompleted
where
  /-- The rest of `push_event`. -/
  push (s : SseSink) (kind : Option String) (holdCompleted : Bool) : Pushed :=
    match s.reconcile, kind with
    | none, _ =>
      if holdCompleted then s.hold env event s.continueRewrites else s.pushFresh env event
    | some _, none => (s, [], .continues)
    | some recon, some kind => s.pushReconcile env recon holdCompleted kind event

/-- Push events one after the other, up to the first one that aborts. -/
def SseSink.pushAll (s : SseSink) : List String → Pushed
  | [] => (s, [], .continues)
  | event :: rest =>
    match s.pushEvent env event with
    | (s, texts, .abortReconcile) => (s, texts, .abortReconcile)
    | (s, texts, .continues) =>
      let (s, texts', flow) := s.pushAll rest
      (s, texts ++ texts', flow)

/-- `eof_outcome`, without what it writes. -/
def SseSink.eofOutcome (s : SseSink) : SseForward :=
  match s.heldCompleted with
  | some held => .incompleteAgentTurn ⟨s.deliveredText, s.turnText, s.responseId, s.itemId, held⟩
  | none =>
    if s.terminal then .done
    else if s.continuePoint.isSome && s.sentEvents then .done
    else if s.reconcile.isSome then .retryableWithPrefix s.resumePoint
    else if !s.sentEvents then .retryableBeforeFirstEvent
    else if !s.textOnly || s.hadToolCall then .reconcileFailed
    else .retryableWithPrefix s.resumePoint

end

end CodexRouter
