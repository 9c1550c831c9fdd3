/-
# The retry loop of the responses gateway

`handle_client` answers one Codex request.  It opens the upstream as often as its
retry budget allows and forwards what comes back: an event stream, a JSON body, a
body of another type, an error.  Here is the loop with the reply that follows it,
one step for each attempt to open the upstream.

What the loop only passes on (the forwarding of one event stream, the reading of
a body, the rewriting of a request) is collected in `Gateway`; a result about the
loop holds for every behaviour of these.
-/
import CodexRouter.PlanRequest

namespace CodexRouter

open Text

/-! ## What reaches the client -/

/-- One write to the socket of the client. -/
inductive ClientWrite where
  /-- `write_sse_prelude`: the status line and the headers of an event stream. -/
  | prelude (text : String)
  /-- Any other status line with its headers. -/
  | head (text : String)
  | body (text : String)
  /-- Server-sent events and comments. -/
  | sse (text : String)
  deriving DecidableEq, Repr

/-- A status line with its headers. -/
def ClientWrite.isHead : ClientWrite → Bool
  | .prelude _ => true
  | .head _ => true
  | .body _ => false
  | .sse _ => false

/-- A piece of an event stream. -/
def ClientWrite.isSse : ClientWrite → Bool
  | .sse _ => true
  | _ => false

/-- The headers of a response: lower case names with their values. -/
abbrev Headers := List (String × String)

/-- `headers.get(name)`. -/
def Headers.get (headers : Headers) (name : String) : Option String := headers.lookup name

/-- `content_type_of`. -/
def contentTypeOf (headers : Headers) : String :=
  ((headers.get "content-type").map toAsciiLowercase).getD ""

/-- A header line. -/
def headerLine (h : String × String) : String := h.1 ++ ": " ++ h.2 ++ "\r\n"

/-- The text of `write_sse_prelude`. -/
def ssePrelude (headers : Headers) : String :=
  "HTTP/1.1 200 OK\r\n"
    ++ join "" ((headers.filter fun h =>
        h.1 ∉ ["content-length", "transfer-encoding", "connection"]).map headerLine)
    ++ "connection: close\r\n\r\n"

/-- `send_status`. -/
def sendStatus (status : ℕ) (contentType body : String) : List ClientWrite :=
  let reason := match status with
    | 200 => "OK"
    | 400 => "Bad Request"
    | 413 => "Payload Too Large"
    | 502 => "Bad Gateway"
    | _ => "Error"
  [.head ("HTTP/1.1 " ++ toString status ++ " " ++ reason ++ "\r\nContent-Type: " ++ contentType
      ++ "\r\nContent-Length: " ++ toString body.utf8ByteSize ++ "\r\nConnection: close\r\n\r\n"),
    .body body]

/-- `send_gateway_unavailable`. -/
def sendGatewayUnavailable : List ClientWrite :=
  sendStatus 502 "application/json"
    ("\x7b\"error\":\x7b\"code\":\"router_upstream_unavailable\",\"message\":"
      ++ "\"Router upstream connection was interrupted. Please retry this task.\"\x7d\x7d")

/-- A header of `rebuild_response`, with the length of the new body. -/
def rebuildHeader (length : String) (h : String × String) : String :=
  if h.1 = "content-length" then length
  else if h.1 = "transfer-encoding" ∨ h.1 = "connection" then ""
  else headerLine h

/-- `send_raw` of `rebuild_response`. -/
def rebuildResponse (status : ℕ) (headers : Headers) (body : String) : List ClientWrite :=
  let reason := match status with
    | 200 => "OK"
    | 400 => "Bad Request"
    | 413 => "Payload Too Large"
    | 422 => "Unprocessable Entity"
    | 502 => "Bad Gateway"
    | _ => "Error"
  let length := "content-length: " ++ toString body.utf8ByteSize ++ "\r\n"
  let lines := headers.map (rebuildHeader length)
    ++ if (headers.get "content-length").isSome then [] else [length]
  [.head ("HTTP/1.1 " ++ toString status ++ " " ++ reason ++ "\r\n" ++ join "" lines
      ++ "connection: close\r\n\r\n"),
    .body body]

/-- `force_connection_close_headers`. -/
def forceConnectionCloseHeaders (rawHeaders : String) : String :=
  let lines := ((split (· = '\n') rawHeaders).map (trimEndMatches (· = '\r'))).filter (· ≠ "")
  let isConnection := fun line => startsWith (toAsciiLowercase line) "connection:"
  join "" (lines.map fun line =>
      if isConnection line then "connection: close\r\n" else line ++ "\r\n")
    ++ (if lines.any isConnection then "" else "connection: close\r\n") ++ "\r\n"

/-- The text of `finish_sse` without a carry: the failure that closes a stream. -/
def finishSse : ClientWrite :=
  .sse ("event: response.failed\ndata: \x7b\"type\":\"response.failed\",\"response\":"
    ++ "\x7b\"status\":\"failed\",\"error\":\x7b\"code\":\"upstream_stream_interrupted\","
    ++ "\"message\":\"Upstream stream ended before completion.\"\x7d\x7d\x7d\n\n")

/-- `send_sse_keepalive`. -/
def sendSseKeepalive : ClientWrite := .sse ": codex-router keep-alive\n\n"

/-! ## The retry budget -/

/-- `str::parse::<u64>`. -/
def parseU64 (s : String) : Option ℕ :=
  let digits : List Char := match s.toList with
    | '+' :: rest => rest
    | cs => cs
  let n := digits.foldl (fun acc c => 10 * acc + (c.toNat - '0'.toNat)) 0
  if digits ≠ [] && digits.all isAsciiDigit && n < 2 ^ 64 then some n else none

/-- `rate_limit_retry_delay`, in seconds; the clamp makes saturation of the power
unobservable. -/
def rateLimitRetryDelay (headers : Option Headers) (attempt : ℕ) : ℕ :=
  let staged := 5 ^ (attempt + 1)
  let hinted := (((headers.bind (Headers.get · "retry-after")).map trim).bind parseU64).getD 0
  min (max staged hinted) 3600

/-- `RequestRetryBudget`, with the waits in seconds. -/
structure RequestRetryBudget where
  maxRetries : ℕ
  retriesUsed : ℕ := 0
  reservedWait : ℕ := 0
  maxWait : ℕ := 180
  deriving DecidableEq, Repr

/-- `RequestRetryBudget::new`. -/
def RequestRetryBudget.new (maxRetries : ℕ) : RequestRetryBudget :=
  { maxRetries := min maxRetries 32 }

/-- `RequestRetryBudget::reserve`, `none` when the budget is used up. -/
def RequestRetryBudget.reserve (b : RequestRetryBudget) (headers : Option Headers) :
    Option RequestRetryBudget :=
  if b.maxRetries ≤ b.retriesUsed then none
  else
    let nextWait := b.reservedWait + rateLimitRetryDelay headers b.retriesUsed
    if b.maxWait < nextWait then none
    else some { b with retriesUsed := b.retriesUsed + 1, reservedWait := nextWait }

/-! ## Streams and responses -/

/-- `StreamResume`: what a retry must reproduce before new content may flow. -/
structure StreamResume where
  resumePrefix : String
  responseId : Option String
  itemId : Option String
  deriving DecidableEq, Repr

/-- `IncompleteTurn`. -/
structure IncompleteTurn where
  deliveredText : String
  turnText : String
  responseId : Option String
  itemId : Option String
  heldCompleted : String
  deriving DecidableEq, Repr

/-- `ContinuePoint`. -/
structure ContinuePoint where
  responseId : Option String
  newResponseId : Option String := none
  deriving DecidableEq, Repr

/-- `SseForward`: how the forwarding of an event stream ended. -/
inductive SseForward where
  | done
  | retryableBeforeFirstEvent
  | retryableWithPrefix (resume : StreamResume)
  | reconcileFailed
  | incompleteAgentTurn (turn : IncompleteTurn)
  deriving DecidableEq, Repr

/-- `UpstreamResponse`: the head of an answer and the stream that is left. -/
structure UpstreamResponse (Stream : Type) where
  status : ℕ
  rawHeaders : String
  headers : Headers
  stream : Stream

/-- One turn of the loop in `open_upstream_with_rate_limit_retry`. -/
inductive OpenAttempt (Stream : Type) where
  /-- The client is gone. -/
  | disconnected
  /-- The connection, the sending of the request or the reading of the headers failed. -/
  | unreachable
  | answered (response : UpstreamResponse Stream)

/-- The request as the loop is entered, and the parts of the gateway that the loop
calls. -/
structure Gateway (Stream : Type) where
  path : String
  requestBody : String
  continueBody : Option Value
  rateLimitMaxRetries : ℕ
  serde : Serde
  /-- `buffer_error_body`. -/
  bufferErrorBody : Stream → String
  /-- `forward_agent_sse`: the texts it writes, and how it ends; `none` on an error. -/
  forwardAgentSse : UpstreamResponse Stream → Option StreamResume → Option ContinuePoint →
    List String × Option SseForward
  /-- `read_full_body`, `none` on an error. -/
  readFullBody : UpstreamResponse Stream → Option String
  /-- The rest of the body, as `copy_socket` copies it. -/
  copySocket : Stream → String
  /-- The rewriting of `forward_rewritten_json_body`. -/
  rewriteJsonBody : Value → Value
  /-- `should_continue_incomplete_agent_turn`. -/
  shouldContinueIncompleteAgentTurn : String → Value → String → Bool → Bool
  /-- `append_incomplete_turn_continuation`. -/
  appendIncompleteTurnContinuation : Value → String → Value
  /-- `synthetic_compact_response`. -/
  syntheticCompactResponse : String → List Value → Value
  /-- `sanitize_responses_request_without_images`. -/
  sanitizeWithoutImages : Value → Value
  /-- `sanitize_responses_request_aggressive`. -/
  sanitizeAggressive : Value → Value
  /-- `forward_error_exchange`: status, raw headers and body; `none` on an error. -/
  forwardErrorExchange : String → Option (ℕ × String × String)

/-- `is_responses_path`. -/
def isResponsesPath (path : String) : Bool :=
  pathOf path = "/v1/responses" || startsWith (pathOf path) "/v1/responses/"
    || pathOf path = "/responses" || startsWith (pathOf path) "/responses/"

/-! ## The reply to an error status -/

/-- `is_missing_upstream_entity_error`. -/
def isMissingUpstreamEntityError (body : String) : Bool :=
  let lower := toAsciiLowercase body
  contains lower "requested entity was not found" || contains lower "entity was not found"
    || contains lower "not_found" && contains lower "entity"

/-- `is_unsupported_image_error`. -/
def isUnsupportedImageError (body : String) : Bool :=
  ["does not support image input", "unsupported image input"].any
    (contains (toAsciiLowercase body))

/-- `should_retry_after_upstream_error`. -/
def shouldRetryAfterUpstreamError (status : ℕ) (body : String) : Bool :=
  if status = 404 then isMissingUpstreamEntityError body
  else if status ∉ [400, 422, 500, 502, 503] then false
  else
    ["modelinput", "encrypted function output", "encrypted content", "invalid_encrypted_content",
      "could not be decrypted", "invalid-argument", "invalid_argument", "previous_response"].any
        (contains (toAsciiLowercase body))
      || isUnsupportedImageError body

/-- `rewrite_poisoned_upstream_status`. -/
def rewritePoisonedUpstreamStatus (status : ℕ) (body : String) : ℕ :=
  if status = 401 then 503
  else if shouldRetryAfterUpstreamError status body && status ∈ [500, 502, 503] then 400
  else if isExhaustedAccountStatus status body then 429
  else status

/-- `shield_desktop_auth_failure`. -/
def shieldDesktopAuthFailure (serde : Serde) (status : ℕ) (body : String) : ℕ × String :=
  if status ≠ 401 then (status, body)
  else
    (503, serde.toText (.object [("error", .object
      [("code", .string "CR-UP-0011"), ("message", .string "model temporarily unavailable"),
        ("param", .null), ("type", .string "codex_router_error")])]))

/-- `headers.insert(name, value)`. -/
def Headers.insert (headers : Headers) (h : String × String) : Headers :=
  headers.filter (·.1 ≠ h.1) ++ [h]

/-- `parse_headers`. -/
def parseHeaders (text : String) : Headers :=
  (((lines text).drop 1).filterMap (splitOnce ':')).foldl
    (fun headers h => Headers.insert headers (toAsciiLowercase (trim h.1), trim h.2)) []

section

variable {Stream : Type} (gw : Gateway Stream)

/-- The error response that is forwarded. -/
def Gateway.forwardError (status : ℕ) (headers : Headers) (body : String) : List ClientWrite :=
  let (forwardStatus, forwardBody) := shieldDesktopAuthFailure gw.serde status body
  rebuildResponse
    (if status = 401 then forwardStatus else rewritePoisonedUpstreamStatus status body)
    headers forwardBody

/-- The model a request names, if any. -/
def requestModelOf (body : Value) : String := (body.getStr "model").getD ""

/-- The answer to a compaction that the upstream refused, made up locally. -/
def Gateway.compactFallback (requestBody : String) (status : ℕ) (bodyText : String) :
    Option (List ClientWrite) :=
  let parsed := gw.serde.fromStr requestBody
  if isCompactPath gw.path && !isOpenaiFamilyModel ((parsed.map requestModelOf).getD "")
      && (400 ≤ status || contains (toAsciiLowercase bodyText) "streaming not supported") then
    parsed.map fun body =>
      sendStatus 200 "application/json" (gw.serde.toText (gw.syntheticCompactResponse
        ((body.getStr "model").getD "grok-4.6") ((body.getArray "input").getD [])))
  else none

/-- The second exchange after an error that a rewritten request may avoid. -/
def Gateway.errorExchange (requestBody : String) (status : ℕ) (bodyText : String) :
    Option (List ClientWrite) :=
  if shouldRetryAfterUpstreamError status bodyText then
    match gw.serde.fromStr requestBody with
    | none => none
    | some body =>
      if isOpenaiFamilyModel (requestModelOf body) then none
      else
        let rewritten := if isUnsupportedImageError bodyText then gw.sanitizeWithoutImages body
          else gw.sanitizeAggressive body
        (gw.forwardErrorExchange (gw.serde.toText rewritten)).map fun (retryStatus, raw, retryBody) =>
          if retryStatus < 400 then [.head raw, .body retryBody]
          else gw.forwardError retryStatus (parseHeaders raw) retryBody
  else none

/-- What `handle_client` does with the error status the loop ends with. -/
def Gateway.errorReply (requestBody : String) (status : ℕ) (headers : Headers) (body : String) :
    List ClientWrite :=
  ((gw.compactFallback requestBody status body).or
    (gw.errorExchange requestBody status body)).getD (gw.forwardError status headers body)

/-- `forward_rewritten_json_body`. -/
def Gateway.forwardRewrittenJsonBody (headers : Headers) (body : String) : List ClientWrite :=
  rebuildResponse 200 headers
    (((gw.serde.fromStr body).map fun json => gw.serde.toText (gw.rewriteJsonBody json)).getD body)

/-! ## The loop -/

/-- The variables of the loop. -/
structure LoopState where
  requestBody : String
  continueBody : Option Value
  retryBudget : RequestRetryBudget
  ssePreludeSent : Bool := false
  streamResume : Option StreamResume := none
  continuePoint : Option ContinuePoint := none
  continueAttempts : ℕ := 0
  lastHeldCompleted : Option String := none

/-- The variables as the loop is entered. -/
def Gateway.start : LoopState where
  requestBody := gw.requestBody
  continueBody := gw.continueBody
  retryBudget := .new gw.rateLimitMaxRetries

/-- The budget with the wait that is allowed now. -/
def LoopState.limitedBudget (s : LoopState) : RequestRetryBudget :=
  { s.retryBudget with maxWait := if s.ssePreludeSent then 180 else 8 }

/-- Close the event stream: with the completion that was held back, or with a failure. -/
def LoopState.close (s : LoopState) : List ClientWrite :=
  [(s.lastHeldCompleted.map ClientWrite.sse).getD finishSse]

/-- The reply when the upstream cannot be opened. -/
def LoopState.openFailed (s : LoopState) : List ClientWrite :=
  if s.lastHeldCompleted.isSome || s.ssePreludeSent then s.close else sendGatewayUnavailable

/-- Try once more as far as the budget goes, else give up with a reply. -/
def LoopState.retry (s : LoopState) (giveUp : List ClientWrite) :
    List ClientWrite × Option LoopState :=
  match s.retryBudget.reserve none with
  | some budget => ([], some { s with retryBudget := budget })
  | none => (giveUp, none)

/-- Answers to an opening that are worth another attempt. -/
def Gateway.retriesStatus (r : UpstreamResponse Stream) : Bool :=
  let body := gw.bufferErrorBody r.stream
  r.status = 429 && !isQuotaExhaustedError r.status body
    || r.status = 503 && isExhaustedAccountStatus r.status body
      && !isQuotaExhaustedError r.status body
    || r.status ∈ [408, 425, 502, 504, 401]

/-- How one turn of `open_upstream_with_rate_limit_retry` ends. -/
inductive OpenOutcome (Stream : Type) where
  | again (budget : RequestRetryBudget)
  | failed
  | opened (response : UpstreamResponse Stream) (budget : RequestRetryBudget)

/-- One turn of `open_upstream_with_rate_limit_retry`. -/
def Gateway.openUpstream (budget : RequestRetryBudget) :
    OpenAttempt Stream → OpenOutcome Stream
  | .disconnected => .failed
  | .unreachable =>
    match budget.reserve none with
    | some budget => .again budget
    | none => .failed
  | .answered r =>
    match if gw.retriesStatus r then budget.reserve (some r.headers) else none with
    | some budget => .again budget
    | none => .opened r budget

/-- What follows the forwarding of an event stream. -/
def Gateway.afterStream (s : LoopState) : SseForward → List ClientWrite × Option LoopState
  | .done => ([], none)
  | .reconcileFailed => ([finishSse], none)
  | .retryableBeforeFirstEvent => s.retry s.close
  | .retryableWithPrefix resume => { s with streamResume := some resume }.retry s.close
  | .incompleteAgentTurn turn =>
    match s.continueBody with
    | some body =>
      if gw.shouldContinueIncompleteAgentTurn (requestModelOf body) body turn.deliveredText false
          && s.continueAttempts < 2 then
        let body := gw.appendIncompleteTurnContinuation body
          (if s.continueAttempts = 0 then turn.deliveredText else turn.turnText)
        ([sendSseKeepalive], some
          { s with
            requestBody := gw.serde.toText body
            continueBody := some body
            streamResume := none
            continuePoint := some { responseId := turn.responseId }
            continueAttempts := s.continueAttempts + 1
            lastHeldCompleted := some turn.heldCompleted })
      else ([.sse turn.heldCompleted], none)
    | none => ([.sse turn.heldCompleted], none)

/-- The turn of the loop with an event stream. -/
def Gateway.forwardStream (s : LoopState) (r : UpstreamResponse Stream) :
    List ClientWrite × Option LoopState :=
  let opening := if s.ssePreludeSent then [] else [.prelude (ssePrelude r.headers)]
  let (texts, forward) := gw.forwardAgentSse r s.streamResume s.continuePoint
  let ending := match forward with
    | some forward =>
      gw.afterStream { s with ssePreludeSent := true, streamResume := none } forward
    | none => ([], none)
  (opening ++ texts.map .sse ++ ending.1, ending.2)

/-- The turn of the loop with an upstream answer: the writes, and the variables for
the next turn unless the request is finished. -/
def Gateway.receive (s : LoopState) (r : UpstreamResponse Stream) :
    List ClientWrite × Option LoopState :=
  let responses := isResponsesPath gw.path
  if s.ssePreludeSent && 400 ≤ r.status && responses then (s.close, none)
  else if r.status < 400 && responses && contains (contentTypeOf r.headers) "text/event-stream" then
    gw.forwardStream s r
  else if r.status < 400 && responses && contains (contentTypeOf r.headers) "json" then
    match gw.readFullBody r with
    | some body => (gw.forwardRewrittenJsonBody r.headers body, none)
    | none => s.retry sendGatewayUnavailable
  else if r.status < 400 || !responses then
    ([.head (forceConnectionCloseHeaders r.rawHeaders), .body (gw.copySocket r.stream)], none)
  else
    match gw.readFullBody r with
    | some body => (gw.errorReply s.requestBody r.status r.headers body, none)
    | none => s.retry sendGatewayUnavailable

/-- One attempt to open the upstream, with what the loop makes of it. -/
def Gateway.step (s : LoopState) (a : OpenAttempt Stream) :
    List ClientWrite × Option LoopState :=
  match gw.openUpstream s.limitedBudget a with
  | .again budget => ([], some { s with retryBudget := budget })
  | .failed => (s.openFailed, none)
  | .opened r budget => gw.receive { s with retryBudget := budget } r

/-- The writes of `handle_client` while the upstream answers the attempts in turn. -/
def Gateway.handleClient (s : LoopState) : List (OpenAttempt Stream) → List ClientWrite
  | [] => []
  | a :: rest =>
    (gw.step s a).1 ++ ((gw.step s a).2.map fun next => Gateway.handleClient next rest).getD []

/-- The turns of a run: the variables before each attempt, with the attempt. -/
def Gateway.turns (s : LoopState) :
    List (OpenAttempt Stream) → List (LoopState × OpenAttempt Stream)
  | [] => []
  | a :: rest => (s, a) :: ((gw.step s a).2.map fun next => Gateway.turns next rest).getD []

end

end CodexRouter
