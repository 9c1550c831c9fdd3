/-
# The end of a stream on the host

`wrap_sse_stream` passes the rewritten stream on, and closes it when the upstream ends: it writes
the ledger, and where no terminal event was noticed it adds a failed event of its own.  The client
should see one terminal event, and the ledger should say the same.

The rewriter notices a terminal event by the end of its type, so that the one of an item counts
too, and notices none where the type is `response.incomplete` or `error`.  An upstream that breaks off gets
its failed event in any case.  `oneOutcome_iff` says which streams end as they should.
-/
import CodexRouter.Base.JsonText
import CodexRouter.ImageBatch
import CodexRouter.SseLines

namespace CodexRouter

open Text

/-! ## What is read in a line -/

/-- What the data of a line says. -/
inductive LineData where
  | nothing
  | done
  | payload (v : Value)

/-- A text behind the field name `data`. -/
def LineData.read (serde : Serde) (data : String) : LineData :=
  if data = "[DONE]" then .done
  else
    match serde.fromStr data with
    | none => .nothing
    | some v => .payload v

/-- What `process_line` reads in a line. -/
def readLine (serde : Serde) (line : List UInt8) : LineData :=
  match stripPrefix (lineText line) "data: " with
  | none => .nothing
  | some data => .read serde (trimEnd data)

/-- What the client reads in a line: the blank behind the field name may be missing. -/
def clientLine (serde : Serde) (line : List UInt8) : LineData :=
  match stripPrefix (lineText line) "data:" with
  | none => .nothing
  | some data => .read serde (trim data)

/-- The end of the stream that `process_line` notices. -/
def LineData.noticed : LineData → Option String
  | .nothing => none
  | .done => some "done"
  | .payload v => payloadTerminal v

/-- A terminal event of a response that is a success. -/
def LineData.succeeds : LineData → Bool
  | .nothing => false
  | .done => true
  | .payload v =>
    v.getStr "type" = some "response.completed" || v.getStr "type" = some "message_stop" || geminiFinished v

/-- A terminal event of a response, or the failed event of the router, which has the id of the request. -/
def LineData.ends (requestId : String) : LineData → Bool
  | .nothing => false
  | .done => true
  | .payload v =>
    (v.getStr "type").any (· ∈ ["response.completed", "response.failed", "response.incomplete",
        "response.cancelled", "message_stop", "error"])
      || geminiFinished v
      || (v.getStr "request_id" = some requestId && (v.get "error").isSome)

/-! ## The stream -/

/-- `SseContext`; `terminal` says whether the guard of the request is there. -/
structure SseContext where
  requestId : String
  publicModel : String
  poolId : String
  protocol : String
  statusU16 : ℕ
  accountId : Option ℤ
  terminal : Bool

/-- `LedgerInput`, without the time that has passed. -/
structure LedgerInput where
  requestId : String
  model : String
  poolId : String
  protocol : String
  status : String
  accountId : Option ℤ
  body : Option Value := none
  errorCode : Option String := none

/-- The arguments of `TerminalSpanGuard::complete`. -/
structure SpanEnd where
  status : String
  httpStatus : Option ℕ
  errorCode : Option String
  attempts : ℕ

/-- How an upstream ends. -/
inductive StreamEnd where
  | eof
  | broken
  deriving DecidableEq

/-- The state of the stream: the chunks that are left of the upstream and how it will end, and what has been written
to the ledger and to the log of the request. -/
structure HostStream where
  upstream : List (List UInt8)
  ending : StreamEnd
  rewriter : BufferedRewriter
  context : SseContext
  terminated : Bool
  ledger : List LedgerInput
  spans : List SpanEnd

/-- The payload of `failed_sse_event`. -/
def failedPayload (protocol requestId code message : String) : Value :=
  if protocol = "responses" then
    .object [("request_id", .string requestId),
      ("response", .object [("error", .object [("code", .string code), ("message", .string message)]),
        ("status", .string "failed")]),
      ("type", .string "response.failed")]
  else if protocol = "anthropic" then
    .object [("error", .object [("code", .string code), ("message", .string message), ("type", .string "api_error")]),
      ("request_id", .string requestId), ("type", .string "error")]
  else if protocol = "gemini" then
    .object [("error", .object [("code", .number (.int 502)),
        ("details", .array [.object [("error_code", .string code)]]), ("message", .string message),
        ("status", .string "UNAVAILABLE")]),
      ("request_id", .string requestId)]
  else
    .object [("error", .object [("code", .string code), ("message", .string message), ("param", .null),
        ("type", .string "codex_router_error")]),
      ("request_id", .string requestId)]

/-- The line with the name of the failed event, where the protocol names its events. -/
def eventName (protocol : String) : String :=
  if protocol = "responses" then "event: response.failed\n"
  else if protocol = "anthropic" then "event: error\n"
  else ""

/-- `failed_sse_event`. -/
def failedSseEvent (serde : Serde) (protocol requestId code message : String) : List UInt8 :=
  Utf8.encode (eventName protocol ++ "data: " ++ serde.toText (failedPayload protocol requestId code message)
    ++ "\n\n").toList

/-- The status of the answer is a success. -/
def SseContext.httpOk (context : SseContext) : Bool := 200 ≤ context.statusU16 && context.statusU16 < 300

/-- A noticed end that is a success. -/
def terminalOk (terminal : String) : Bool :=
  terminal = "done" || terminal = "message_stop" || terminal = "gemini.finished" || endsWith terminal ".completed"

namespace HostStream

variable (serde : Serde)

/-- Complete the guard of the request, if it is still there. -/
def complete (s : HostStream) (status : String) (errorCode : Option String) : HostStream :=
  if s.context.terminal then
    { s with
      context := { s.context with terminal := false }
      spans := s.spans ++ [⟨status, some s.context.statusU16, errorCode, 1⟩] }
  else s

/-- `record_ledger`. -/
def record (s : HostStream) (status : String) (body : Option Value) (errorCode : Option String) : HostStream :=
  { s with
    ledger := s.ledger ++ [{
      requestId := s.context.requestId
      model := s.context.publicModel
      poolId := s.context.poolId
      protocol := s.context.protocol
      status := status
      accountId := s.context.accountId
      body := body
      errorCode := errorCode }] }

/-- The failed event of the stream. -/
def failedEvent (s : HostStream) (code message : String) : List UInt8 :=
  failedSseEvent serde s.context.protocol s.context.requestId code message

/-- The upstream has failed. -/
def closeBroken (s : HostStream) : HostStream × List UInt8 :=
  let rest := s.rewriter.finish serde
  let s := { s with upstream := [], rewriter := rest.1, terminated := true }
  ((s.record "failed" none (some "CR-UP-0014")).complete "upstream_error" (some "CR-UP-0014"),
    rest.2 ++ s.failedEvent serde "CR-UP-0014" "upstream stream failed before a terminal event")

/-- The status of a stream that has ended, with its error code. -/
def eofOk (context : SseContext) (terminalSeen : Option String) : Bool := context.httpOk && terminalSeen.any terminalOk

def eofCode (context : SseContext) (terminalSeen : Option String) : Option String :=
  if eofOk context terminalSeen then none
  else if context.httpOk then some "CR-UP-0014"
  else some (upstreamErrorCode context.statusU16)

/-- The upstream has ended. -/
def closeEof (s : HostStream) : HostStream × List UInt8 :=
  let rest := s.rewriter.finish serde
  let s := { s with upstream := [], rewriter := rest.1, terminated := true }
  let ok := eofOk s.context rest.1.rewriter.terminalSeen
  let code := eofCode s.context rest.1.rewriter.terminalSeen
  let body := rest.1.rewriter.usage.map fun usage => Value.object [("usage", usage)]
  ((s.record (if ok then "completed" else "failed") body code).complete (if ok then "ok" else "upstream_error") code,
    if rest.1.rewriter.terminalSeen.isNone then
      rest.2 ++ s.failedEvent serde (code.getD "CR-UP-0014") "upstream stream ended before a terminal event"
    else rest.2)

/-- Read the upstream until there is something to give out; `none` at the end of the stream. -/
def next (s : HostStream) : List (List UInt8) → HostStream × Option (List UInt8)
  | [] =>
    match s.ending with
    | .broken => ((s.closeBroken serde).1, some (s.closeBroken serde).2)
    | .eof =>
      ((s.closeEof serde).1, if (s.closeEof serde).2.isEmpty then none else some (s.closeEof serde).2)
  | chunk :: rest =>
    let fed := s.rewriter.feed serde chunk
    if fed.2.isEmpty then { s with rewriter := fed.1 }.next rest
    else ({ s with upstream := rest, rewriter := fed.1 }, some fed.2)

/-- A poll of the stream. -/
def poll (s : HostStream) : HostStream × Option (List UInt8) :=
  if s.terminated then (s, none) else s.next serde s.upstream

/-- How many polls may still give something out. -/
def remaining (s : HostStream) : ℕ := if s.terminated then 0 else s.upstream.length + 1

section

variable {serde}

@[simp] theorem terminated_complete (s : HostStream) (status : String) (errorCode : Option String) :
    (s.complete status errorCode).terminated = s.terminated := by
  unfold complete
  split <;> rfl

@[simp] theorem ledger_complete (s : HostStream) (status : String) (errorCode : Option String) :
    (s.complete status errorCode).ledger = s.ledger := by
  unfold complete
  split <;> rfl

theorem terminated_closeBroken (s : HostStream) : (s.closeBroken serde).1.terminated = true := by
  rw [closeBroken, terminated_complete]
  rfl

theorem terminated_closeEof (s : HostStream) : (s.closeEof serde).1.terminated = true := by
  rw [closeEof, terminated_complete]
  rfl

/-- What is given out is taken from the chunks that are left, or it is the last. -/
theorem remaining_next {s s' : HostStream} {out : List UInt8} (hs : s.terminated = false) {chunks : List (List UInt8)}
    (h : s.next serde chunks = (s', some out)) : s'.remaining ≤ chunks.length := by
  induction chunks generalizing s with
  | nil =>
    rw [next] at h
    have hclosed : s'.terminated = true := by
      cases hending : s.ending with
      | broken =>
        rw [hending, Prod.mk.injEq] at h
        exact h.1 ▸ terminated_closeBroken s
      | eof =>
        rw [hending, Prod.mk.injEq] at h
        exact h.1 ▸ terminated_closeEof s
    rw [remaining, if_pos hclosed]
    exact Nat.zero_le _
  | cons chunk rest ih =>
    rw [next] at h
    split at h
    · exact (ih (s := { s with rewriter := (s.rewriter.feed serde chunk).1 }) hs h).trans (Nat.le_succ _)
    · rw [Prod.mk.injEq] at h
      rw [← h.1, remaining, if_neg (by rw [hs]; decide)]
      exact le_rfl

theorem remaining_poll {s s' : HostStream} {out : List UInt8} (h : s.poll serde = (s', some out)) :
    s'.remaining < s.remaining := by
  rw [poll] at h
  cases hs : s.terminated with
  | true =>
    rw [if_pos hs, Prod.mk.injEq] at h
    cases h.2
  | false =>
    rw [if_neg (by rw [hs]; decide)] at h
    have hless := remaining_next hs h
    rw [remaining.eq_def s, if_neg (by rw [hs]; decide)]
    exact Nat.lt_succ_of_le hless

end

/-- Poll the stream until its end: the state then, and what was given out. -/
def drain (s : HostStream) : HostStream × List (List UInt8) :=
  match h : s.poll serde with
  | (s', none) => (s', [])
  | (s', some out) =>
    have : s'.remaining < s.remaining := remaining_poll h
    (s'.drain.1, out :: s'.drain.2)
termination_by s.remaining

/-- The polls behind one of them. -/
def follow (polled : HostStream × Option (List UInt8)) : HostStream × List (List UInt8) :=
  match polled with
  | (s, none) => (s, [])
  | (s, some out) => ((s.drain serde).1, out :: (s.drain serde).2)

/-- The code and the message of the failed event. -/
def failure (s : HostStream) (terminalSeen : Option String) : String × String :=
  match s.ending with
  | .broken => ("CR-UP-0014", "upstream stream failed before a terminal event")
  | .eof => ((eofCode s.context terminalSeen).getD "CR-UP-0014", "upstream stream ended before a terminal event")

/-- The stream gets a failed event. -/
def fails (s : HostStream) (terminalSeen : Option String) : Bool := s.ending = .broken || terminalSeen.isNone

/-- What is given out behind the rewritten stream. -/
def closing (s : HostStream) (terminalSeen : Option String) : List UInt8 :=
  if s.fails terminalSeen then s.failedEvent serde (s.failure terminalSeen).1 (s.failure terminalSeen).2 else []

/-- The status in the ledger. -/
def reported (s : HostStream) (terminalSeen : Option String) : Bool := s.ending = .eof && eofOk s.context terminalSeen

section

variable {serde} {s : HostStream}

theorem drain_eq (s : HostStream) : s.drain serde = follow serde (s.poll serde) := by
  rw [drain.eq_def]
  split
  · rename_i s' hpoll
    exact (congrArg (follow serde) hpoll).symm
  · rename_i s' out hpoll
    exact (congrArg (follow serde) hpoll).symm

theorem drain_of_terminated (hs : s.terminated = true) : s.drain serde = (s, []) := by
  rw [drain_eq, poll, if_pos hs, follow]

variable (serde) in
/-- The ledger gets one entry at the end. -/
theorem ledger_closeBroken (s : HostStream) : ∃ entry, (s.closeBroken serde).1.ledger = s.ledger ++ [entry]
    ∧ entry.status = "failed" := by
  rw [closeBroken, ledger_complete]
  exact ⟨_, rfl, rfl⟩

variable (serde) in
theorem ledger_closeEof (s : HostStream) : ∃ entry, (s.closeEof serde).1.ledger = s.ledger ++ [entry]
    ∧ entry.status
      = if eofOk s.context (s.rewriter.finish serde).1.rewriter.terminalSeen then "completed" else "failed" := by
  rw [closeEof, ledger_complete]
  exact ⟨_, rfl, rfl⟩

variable (serde) in
theorem closeBroken_out (hending : s.ending = .broken) (terminalSeen : Option String) :
    (s.closeBroken serde).2 = (s.rewriter.finish serde).2 ++ s.closing serde terminalSeen := by
  have hfails : s.fails terminalSeen = true := by
    rw [fails, hending]
    rfl
  rw [closeBroken, closing, if_pos hfails, failure, hending]
  rfl

variable (serde) in
theorem closeEof_out (hending : s.ending = .eof) :
    (s.closeEof serde).2 = (s.rewriter.finish serde).2
      ++ s.closing serde (s.rewriter.finish serde).1.rewriter.terminalSeen := by
  rw [closeEof, closing, fails, failure, hending]
  dsimp only
  generalize (s.rewriter.finish serde).1.rewriter.terminalSeen = terminalSeen
  cases terminalSeen with
  | none => rfl
  | some kind => exact (List.append_nil _).symm

/-- What is left of a stream is the rewritten chunks and the closing. -/
theorem follow_next (hs : s.terminated = false) (chunks : List (List UInt8)) :
    (follow serde (s.next serde chunks)).2.flatten = (s.rewriter.run serde chunks).2
        ++ s.closing serde (s.rewriter.run serde chunks).1.rewriter.terminalSeen
      ∧ ∃ entry, (follow serde (s.next serde chunks)).1.ledger = s.ledger ++ [entry]
        ∧ (entry.status = "completed" ↔ s.reported (s.rewriter.run serde chunks).1.rewriter.terminalSeen = true) := by
  induction chunks generalizing s with
  | nil =>
    rw [next, BufferedRewriter.run]
    cases hending : s.ending with
    | broken =>
      obtain ⟨entry, hledger, hstatus⟩ := ledger_closeBroken serde s
      dsimp only
      rw [follow, drain_of_terminated (terminated_closeBroken s), ← closeBroken_out serde hending]
      refine ⟨List.flatten_singleton, entry, hledger, ?_⟩
      rw [hstatus, reported, hending, decide_eq_false (by decide), Bool.false_and]
      decide
    | eof =>
      obtain ⟨entry, hledger, hstatus⟩ := ledger_closeEof serde s
      have hreported : entry.status = "completed"
          ↔ s.reported (s.rewriter.finish serde).1.rewriter.terminalSeen = true := by
        rw [hstatus, reported, hending]
        cases eofOk s.context (s.rewriter.finish serde).1.rewriter.terminalSeen <;> decide
      dsimp only
      rw [← closeEof_out serde hending]
      split
      · rename_i hempty
        exact ⟨(List.isEmpty_iff.mp hempty).symm, entry, hledger, hreported⟩
      · rw [follow, drain_of_terminated (terminated_closeEof s)]
        exact ⟨List.flatten_singleton, entry, hledger, hreported⟩
  | cons chunk rest ih =>
    rw [next, BufferedRewriter.run]
    dsimp only
    split
    -- The chunk ends no line: the upstream is read on.
    · rename_i hempty
      rw [List.isEmpty_iff.mp hempty, List.nil_append]
      exact ih hs
    · have hpoll : ({ s with upstream := rest, rewriter := (s.rewriter.feed serde chunk).1 } : HostStream).drain serde
          = follow serde ({ s with upstream := rest, rewriter := (s.rewriter.feed serde chunk).1 }.next serde rest) := by
        rw [drain_eq, poll, if_neg (by rw [hs]; decide)]
      obtain ⟨hflat, entry, hledger, hstatus⟩ :=
        ih (s := { s with upstream := rest, rewriter := (s.rewriter.feed serde chunk).1 }) hs
      rw [follow, hpoll]
      refine ⟨?_, entry, hledger, hstatus⟩
      rw [List.flatten_cons, hflat, List.append_assoc]
      rfl

variable (serde) in
/-- A stream that is polled until its end. -/
theorem drain_spec (hs : s.terminated = false) :
    (s.drain serde).2.flatten = (s.rewriter.run serde s.upstream).2
        ++ s.closing serde (s.rewriter.run serde s.upstream).1.rewriter.terminalSeen
      ∧ ∃ entry, (s.drain serde).1.ledger = s.ledger ++ [entry]
        ∧ (entry.status = "completed"
          ↔ s.reported (s.rewriter.run serde s.upstream).1.rewriter.terminalSeen = true) := by
  rw [drain_eq, poll, if_neg (by rw [hs]; decide)]
  exact follow_next hs s.upstream

end

end HostStream

/-! ## The lines of the upstream -/

/-- What `process_line` gives out for a line. -/
def SseRewriter.sent (serde : Serde) (r : SseRewriter) (line : List UInt8) : List UInt8 :=
  match readLine serde line with
  | .payload payload => Utf8.encode ("data: " ++ serde.toText (r.rewritePayload payload) ++ "\n").toList
  | _ => line

/-- What the client reads of a line that is passed on. -/
def SseRewriter.passedOn (serde : Serde) (r : SseRewriter) (line : List UInt8) : LineData :=
  match readLine serde line with
  | .payload payload => .payload (r.rewritePayload payload)
  | _ => clientLine serde line

/-- The last end of the stream that is noticed in some lines. -/
def lastNoticed (serde : Serde) : List (List UInt8) → Option String
  | [] => none
  | line :: rest => (lastNoticed serde rest).or (readLine serde line).noticed

section

variable {serde : Serde} {r : SseRewriter} {line : List UInt8}

theorem processBytes_eq (serde : Serde) (r : SseRewriter) (line : List UInt8) :
    ∃ usage, r.processBytes serde line
      = ({ r with usage := usage, terminalSeen := (readLine serde line).noticed.or r.terminalSeen },
        r.sent serde line) := by
  rw [SseRewriter.processBytes, SseRewriter.sent, readLine]
  cases stripPrefix (lineText line) "data: " with
  | none => exact ⟨r.usage, rfl⟩
  | some data =>
    dsimp only
    rw [LineData.read]
    by_cases hdone : trimEnd data = "[DONE]"
    · rw [if_pos hdone, if_pos hdone]
      exact ⟨r.usage, rfl⟩
    · rw [if_neg hdone, if_neg hdone]
      cases serde.fromStr (trimEnd data) with
      | none => exact ⟨r.usage, rfl⟩
      | some payload => exact ⟨_, rfl⟩

/-- The lines in turn. -/
theorem handleAll_lines (serde : Serde) (r : SseRewriter) (usage : Option Value) (seen : Option String) (lines : List (List UInt8)) :
    ∃ usage', LineBuffer.handleAll (SseRewriter.processBytes serde) { r with usage := usage, terminalSeen := seen } lines
      = ({ r with usage := usage', terminalSeen := (lastNoticed serde lines).or seen },
        (lines.map (r.sent serde)).flatten) := by
  induction lines generalizing usage seen with
  | nil => exact ⟨usage, rfl⟩
  | cons line rest ih =>
    obtain ⟨usage₁, hline⟩ := processBytes_eq serde { r with usage := usage, terminalSeen := seen } line
    obtain ⟨usage₂, hrest⟩ := ih usage₁ ((readLine serde line).noticed.or seen)
    refine ⟨usage₂, ?_⟩
    rw [LineBuffer.handleAll, hline]
    dsimp only
    rw [hrest, lastNoticed, Option.or_assoc]
    rfl

/-- The whole stream. -/
theorem run_new (serde : Serde) (poolPrefix publicModel upstreamModel : String) (chunks : List (List UInt8)) :
    ((BufferedRewriter.new poolPrefix publicModel upstreamModel).run serde chunks).1.rewriter.terminalSeen
        = lastNoticed serde (LineBuffer.linesOf isNewline chunks.flatten)
      ∧ ((BufferedRewriter.new poolPrefix publicModel upstreamModel).run serde chunks).2
        = ((LineBuffer.linesOf isNewline chunks.flatten).map
          ((SseRewriter.new poolPrefix publicModel upstreamModel).sent serde)).flatten := by
  obtain ⟨usage, hall⟩ := handleAll_lines serde (.new poolPrefix publicModel upstreamModel) none none
    (LineBuffer.linesOf isNewline chunks.flatten)
  have hrun : LineBuffer.run isNewline (SseRewriter.processBytes serde)
      (BufferedRewriter.new poolPrefix publicModel upstreamModel).rewriter [] chunks = _ :=
    (LineBuffer.run_eq_handleAll _ rfl chunks).trans hall
  rw [BufferedRewriter.run_eq]
  dsimp only
  rw [BufferedRewriter.new] at hrun ⊢
  rw [hrun]
  exact ⟨Option.or_none, rfl⟩

/-! ## What the client reads -/

/-- A text of JSON on one line, without white space around it. -/
structure JsonLine (serde : Serde) (text : String) (v : Value) : Prop where
  fromStr : serde.fromStr text = some v
  inline : '\n' ∉ text.toList
  head : ∃ c, text.toList.head? = some c ∧ isWhitespace c = false
  last : ∃ c, text.toList.getLast? = some c ∧ isWhitespace c = false
  ne_done : text ≠ "[DONE]"

/-- A line with some data. -/
def dataLine (text : String) : List UInt8 := Utf8.encode ("data: " ++ text ++ "\n").toList

theorem isNewline_encode {cs : List Char} (h : '\n' ∉ cs) : ∀ b ∈ Utf8.encode cs, isNewline b = false := by
  intro b hb
  rw [← Bool.not_eq_true]
  intro hten
  obtain rfl : b = 10 := of_decide_eq_true hten
  exact h (Utf8.mem_of_mem_encode hb (by decide))

theorem isLine_encode {text : String} (h : '\n' ∉ text.toList) :
    LineBuffer.IsLine isNewline (Utf8.encode (text ++ "\n").toList) := by
  refine ⟨Utf8.encode text.toList, 10, ?_, rfl, isNewline_encode h⟩
  rw [String.toList_append, Utf8.encode, List.flatMap_append]
  rfl

theorem isLine_dataLine {text : String} (h : '\n' ∉ text.toList) :
    LineBuffer.IsLine isNewline (dataLine text) := by
  refine isLine_encode fun hmem => ?_
  rw [String.toList_append] at hmem
  rcases List.mem_append.mp hmem with hmem | hmem
  · exact absurd hmem (by decide)
  · exact h hmem

/-- The client reads the JSON of a line. -/
theorem JsonLine.clientLine_eq {text : String} {v : Value} (h : JsonLine serde text v) :
    clientLine serde (dataLine text) = .payload v := by
  have hfield : "data: " ++ text ++ "\n" = "data:" ++ (" " ++ text ++ "\n") := by
    rw [← String.append_assoc, ← String.append_assoc]
    rfl
  have htrim : trim (" " ++ text ++ "\n") = text := by
    have hpadded : trim (String.ofList ([' '] ++ text.toList ++ ['\n'])) = String.ofList text.toList :=
      trim_padded (List.forall_mem_singleton.mpr rfl) (List.forall_mem_singleton.mpr rfl) h.head h.last
    rw [String.ofList_toList] at hpadded
    refine Eq.trans (congrArg trim (String.toList_injective ?_)) hpadded
    rw [String.toList_append, String.toList_append]
    exact String.toList_ofList.symm
  rw [clientLine, dataLine, lineText, Utf8.decodeLossy_encode, String.ofList_toList, hfield, stripPrefix_append]
  dsimp only
  rw [htrim, LineData.read, if_neg h.ne_done, h.fromStr]

/-- So does `process_line`. -/
theorem JsonLine.readLine_eq {text : String} {v : Value} (h : JsonLine serde text v) :
    readLine serde (dataLine text) = .payload v := by
  have htrim : trimEnd (text ++ "\n") = text := by
    obtain ⟨c, hlast, hc⟩ := h.last
    obtain ⟨front, hfront⟩ := List.getLast?_eq_some_iff.mp hlast
    have hreverse : (text ++ "\n").toList.reverse = '\n' :: c :: front.reverse := by
      rw [String.toList_append, List.reverse_append, hfront, List.reverse_append]
      rfl
    rw [trimEnd, trimEndMatches, hreverse, List.dropWhile_cons_of_pos (by decide),
      List.dropWhile_cons_of_neg (by rw [hc]; decide), List.reverse_cons, List.reverse_reverse, ← hfront,
      String.ofList_toList]
  rw [readLine, dataLine, lineText, Utf8.decodeLossy_encode, String.ofList_toList, String.append_assoc,
    stripPrefix_append]
  dsimp only
  rw [htrim, LineData.read, if_neg h.ne_done, h.fromStr]

/-- The terminal events that the client sees. -/
def terminalEvents (serde : Serde) (requestId : String) (bytes : List UInt8) : ℕ :=
  (LineBuffer.linesOf isNewline bytes).countP fun line => (clientLine serde line).ends requestId

def LineData.isPayload : LineData → Bool
  | .payload _ => true
  | _ => false

/-- The line has an end, or `process_line` gives it one. -/
def endsLine (serde : Serde) (line : List UInt8) : Bool :=
  line.getLast? = some 10 || (readLine serde line).isPayload

/-- The lines that are passed on with an end. -/
def finishedLines (serde : Serde) (lines : List (List UInt8)) : List (List UInt8) := lines.filter (endsLine serde)

/-- The last line, if it is passed on without an end. -/
def unfinishedLine (serde : Serde) (lines : List (List UInt8)) : List UInt8 :=
  (lines.filter fun line => !endsLine serde line).flatten

/-- Some lines behind an unfinished one. -/
def glue (unfinished : List UInt8) : List (List UInt8) → List (List UInt8)
  | [] => [unfinished]
  | line :: rest => (unfinished ++ line) :: rest

/-- The JSON of the lines is printed on one line, and read back. -/
def PrintsLines (serde : Serde) (r : SseRewriter) (lines : List (List UInt8)) : Prop :=
  ∀ line ∈ lines, ∀ payload, readLine serde line = .payload payload →
    JsonLine serde (serde.toText (r.rewritePayload payload)) (r.rewritePayload payload)

/-- The lines of a text: the finished ones, and at most one that is not. -/
theorem exists_unfinished (serde : Serde) (text : List UInt8) :
    ∃ rest, LineBuffer.linesOf isNewline text = finishedLines serde (LineBuffer.linesOf isNewline text) ++ rest
      ∧ rest.flatten = unfinishedLine serde (LineBuffer.linesOf isNewline text)
      ∧ (∀ line ∈ finishedLines serde (LineBuffer.linesOf isNewline text),
        LineBuffer.IsLine isNewline line ∨ (readLine serde line).isPayload = true)
      ∧ (rest = [] ∨ ∃ line, rest = [line] ∧ line ≠ [] ∧ (∀ b ∈ line, isNewline b = false)
        ∧ (readLine serde line).isPayload = false) := by
  obtain ⟨lines, last, rfl, hlines, hlast⟩ := LineBuffer.exists_lines isNewline text
  have hends : ∀ line ∈ lines, endsLine serde line = true := by
    intro line hmem
    obtain ⟨front, b, rfl, hb, -⟩ := hlines line hmem
    obtain rfl : b = 10 := of_decide_eq_true hb
    rw [endsLine, List.getLast?_concat, Bool.or_eq_true]
    exact .inl rfl
  have hno : (lines.filter fun line => !endsLine serde line) = [] := by
    rw [List.filter_eq_nil_iff]
    intro line hmem
    rw [hends line hmem]
    decide
  rw [LineBuffer.linesOf_flatten hlines, finishedLines, unfinishedLine, List.filter_append, List.filter_append, hno,
    List.filter_eq_self.mpr hends, List.nil_append]
  by_cases hempty : last = []
  · subst hempty
    rw [LineBuffer.linesOf, List.filter_nil, List.filter_nil, List.append_nil]
    refine ⟨[], (List.append_nil _).symm, rfl, ?_, .inl rfl⟩
    exact fun line hmem => .inl (hlines line hmem)
  · have hopen : last.getLast? ≠ some 10 := fun heq => absurd (hlast 10 (List.mem_of_getLast? heq)) (by decide)
    rw [LineBuffer.linesOf_of_noEnd hempty hlast]
    cases hpayload : (readLine serde last).isPayload with
    | true =>
      have hlastEnds : endsLine serde last = true := by
        rw [endsLine, hpayload, Bool.or_true]
      rw [List.filter_cons_of_pos hlastEnds, List.filter_nil, List.filter_cons_of_neg (by rw [hlastEnds]; decide),
        List.filter_nil]
      refine ⟨[], (List.append_nil _).symm, rfl, ?_, .inl rfl⟩
      intro line hmem
      rcases List.mem_append.mp hmem with hmem | hmem
      · exact .inl (hlines line hmem)
      · exact .inr (List.mem_singleton.mp hmem ▸ hpayload)
    | false =>
      have hlastOpen : endsLine serde last = false := by
        rw [endsLine, hpayload, Bool.or_false, decide_eq_false_iff_not]
        exact hopen
      rw [List.filter_cons_of_neg (by rw [hlastOpen]; decide), List.filter_nil,
        List.filter_cons_of_pos (by rw [hlastOpen]; rfl), List.filter_nil, List.append_nil]
      exact ⟨[last], rfl, rfl, fun line hmem => .inl (hlines line hmem), .inr ⟨last, rfl, hempty, hlast, hpayload⟩⟩

theorem isLine_sent (hprints : ∀ payload, readLine serde line = .payload payload →
      JsonLine serde (serde.toText (r.rewritePayload payload)) (r.rewritePayload payload))
    (h : LineBuffer.IsLine isNewline line ∨ (readLine serde line).isPayload = true) :
    LineBuffer.IsLine isNewline (r.sent serde line) := by
  rw [SseRewriter.sent]
  cases hread : readLine serde line with
  | payload payload => exact isLine_dataLine (hprints payload hread).inline
  | nothing =>
    rw [hread] at h
    exact h.resolve_right (by decide)
  | done =>
    rw [hread] at h
    exact h.resolve_right (by decide)

/-- A line is read as it is passed on. -/
theorem clientLine_sent (hprints : ∀ payload, readLine serde line = .payload payload →
      JsonLine serde (serde.toText (r.rewritePayload payload)) (r.rewritePayload payload)) :
    clientLine serde (r.sent serde line) = r.passedOn serde line := by
  rw [SseRewriter.sent, SseRewriter.passedOn]
  cases hread : readLine serde line with
  | payload payload => exact (hprints payload hread).clientLine_eq
  | nothing => rfl
  | done => rfl

/-- A line that is no JSON is passed on as it is. -/
theorem sent_of_not_isPayload (h : (readLine serde line).isPayload = false) : r.sent serde line = line := by
  rw [SseRewriter.sent]
  cases hread : readLine serde line with
  | payload payload =>
    rw [hread] at h
    cases h
  | nothing => rfl
  | done => rfl

/-- The lines of what is given out. -/
theorem linesOf_sent {text : List UInt8} (hprints : PrintsLines serde r (LineBuffer.linesOf isNewline text))
    (more : List UInt8) :
    LineBuffer.linesOf isNewline (((LineBuffer.linesOf isNewline text).map (r.sent serde)).flatten ++ more)
      = (finishedLines serde (LineBuffer.linesOf isNewline text)).map (r.sent serde)
        ++ LineBuffer.linesOf isNewline (unfinishedLine serde (LineBuffer.linesOf isNewline text) ++ more) := by
  obtain ⟨rest, hlines, hrest, hfinished, hlast⟩ := exists_unfinished serde text
  have hsent : (rest.map (r.sent serde)).flatten = unfinishedLine serde (LineBuffer.linesOf isNewline text) := by
    rw [← hrest]
    rcases hlast with rfl | ⟨line, rfl, -, -, hpayload⟩
    · rfl
    · rw [List.map_singleton, sent_of_not_isPayload hpayload]
  have hflatten : ((LineBuffer.linesOf isNewline text).map (r.sent serde)).flatten
      = ((finishedLines serde (LineBuffer.linesOf isNewline text)).map (r.sent serde)).flatten
        ++ unfinishedLine serde (LineBuffer.linesOf isNewline text) := by
    conv_lhs => rw [hlines]
    rw [List.map_append, List.flatten_append, hsent]
  rw [hflatten, List.append_assoc, LineBuffer.linesOf_flatten]
  intro line hmem
  obtain ⟨before, hbefore, rfl⟩ := List.mem_map.mp hmem
  exact isLine_sent (hprints before (List.mem_of_mem_filter hbefore)) (hfinished before hbefore)

/-- What the client sees of the lines that are passed on. -/
theorem countP_sent {lines : List (List UInt8)} (hprints : PrintsLines serde r lines) (requestId : String) :
    (lines.map (r.sent serde)).countP (fun line => (clientLine serde line).ends requestId)
      = lines.countP fun line => (r.passedOn serde line).ends requestId := by
  rw [List.countP_map]
  refine List.countP_congr fun line hmem => ?_
  rw [Function.comp_apply, clientLine_sent (hprints line hmem)]

/-! ## The failed event -/

/-- The lines of `failed_sse_event`. -/
def failedLines (serde : Serde) (protocol requestId code message : String) : List (List UInt8) :=
  (if eventName protocol = "" then [] else [Utf8.encode (eventName protocol).toList])
    ++ [dataLine (serde.toText (failedPayload protocol requestId code message)), [10]]

theorem eventName_cases (protocol : String) :
    eventName protocol = "event: response.failed" ++ "\n" ∨ eventName protocol = "event: error" ++ "\n"
      ∨ eventName protocol = "" := by
  unfold eventName
  split
  · exact .inl rfl
  · split
    · exact .inr (.inl rfl)
    · exact .inr (.inr rfl)

theorem failedSseEvent_eq (serde : Serde) (protocol requestId code message : String) :
    failedSseEvent serde protocol requestId code message
      = (failedLines serde protocol requestId code message).flatten := by
  have hname : (if eventName protocol = "" then [] else [Utf8.encode (eventName protocol).toList]).flatten
      = Utf8.encode (eventName protocol).toList := by
    split
    · rename_i hempty
      rw [hempty]
      rfl
    · exact List.flatten_singleton
  have hends : ("\n\n" : String).toList = "\n".toList ++ "\n".toList := by decide
  rw [failedLines, List.flatten_append, hname, failedSseEvent, dataLine, List.flatten_cons, List.flatten_singleton]
  simp only [String.toList_append, Utf8.encode, List.flatMap_append, List.append_assoc, hends]
  rfl

theorem isLine_failedLines {protocol requestId code message : String}
    (h : '\n' ∉ (serde.toText (failedPayload protocol requestId code message)).toList) :
    ∀ line ∈ failedLines serde protocol requestId code message, LineBuffer.IsLine isNewline line := by
  have hname : ∀ line ∈ (if eventName protocol = "" then [] else [Utf8.encode (eventName protocol).toList]),
      LineBuffer.IsLine isNewline line := by
    split
    · exact fun line hmem => absurd hmem List.not_mem_nil
    · rename_i hnamed
      rw [List.forall_mem_singleton]
      rcases eventName_cases protocol with heq | heq | heq
      · rw [heq]
        exact isLine_encode (by decide)
      · rw [heq]
        exact isLine_encode (by decide)
      · exact absurd heq hnamed
  rw [failedLines, List.forall_mem_append]
  exact ⟨hname, List.forall_mem_cons.mpr ⟨isLine_dataLine h, List.forall_mem_singleton.mpr
    (LineBuffer.isLine_singleton rfl)⟩⟩

/-- The failed event is a terminal event. -/
theorem ends_failedPayload (protocol requestId code message : String) :
    (LineData.payload (failedPayload protocol requestId code message)).ends requestId = true := by
  unfold failedPayload
  split
  · simp [LineData.ends, Value.getStr, Value.get, Members.get, Value.asStr]
  · split
    · simp [LineData.ends, Value.getStr, Value.get, Members.get, Value.asStr]
    · split <;> simp [LineData.ends, Value.getStr, Value.get, Members.get, Value.asStr]

/-- Names and blank lines say nothing. -/
theorem clientLine_others (serde : Serde) : clientLine serde (Utf8.encode "event: response.failed\n".toList) = .nothing
    ∧ clientLine serde (Utf8.encode "event: error\n".toList) = .nothing ∧ clientLine serde [10] = .nothing := by
  have hnone : stripPrefix "event: response.failed\n" "data:" = none
      ∧ stripPrefix "event: error\n" "data:" = none ∧ stripPrefix "\n" "data:" = none := by
    decide +kernel
  have hblank : lineText [10] = "\n" := by decide
  refine ⟨?_, ?_, ?_⟩
  · rw [clientLine, lineText, Utf8.decodeLossy_encode, String.ofList_toList, hnone.1]
  · rw [clientLine, lineText, Utf8.decodeLossy_encode, String.ofList_toList, hnone.2.1]
  · rw [clientLine, hblank, hnone.2.2]

theorem readLine_blank (serde : Serde) : readLine serde [10] = .nothing := by
  have hblank : lineText [10] = "\n" := by decide
  have hnone : stripPrefix "\n" "data: " = none := by decide +kernel
  rw [readLine, hblank, hnone]

/-- Behind a finished line the client sees the failed event once. -/
theorem countP_failedLines {protocol requestId code message : String}
    (h : JsonLine serde (serde.toText (failedPayload protocol requestId code message))
      (failedPayload protocol requestId code message)) :
    (glue [] (failedLines serde protocol requestId code message)).countP
      (fun line => (clientLine serde line).ends requestId) = 1 := by
  have hglue : ∀ lines : List (List UInt8), lines ≠ [] → glue [] lines = lines := by
    intro lines hne
    cases lines with
    | nil => exact absurd rfl hne
    | cons line rest => rw [glue, List.nil_append]
  have hname : (if eventName protocol = "" then [] else [Utf8.encode (eventName protocol).toList]).countP
      (fun line => (clientLine serde line).ends requestId) = 0 := by
    split
    · rfl
    · rename_i hnamed
      rw [List.countP_eq_zero, List.forall_mem_singleton]
      rcases eventName_cases protocol with heq | heq | heq
      · rw [heq, show "event: response.failed" ++ "\n" = "event: response.failed\n" by decide, (clientLine_others serde).1]
        exact Bool.false_ne_true
      · rw [heq, show "event: error" ++ "\n" = "event: error\n" by decide, (clientLine_others serde).2.1]
        exact Bool.false_ne_true
      · exact absurd heq hnamed
  rw [hglue _ (by rw [failedLines]; simp), failedLines, List.countP_append, hname, List.countP_cons_of_pos,
    List.countP_cons_of_neg, List.countP_nil]
  · rw [(clientLine_others serde).2.2]
    exact Bool.false_ne_true
  · rw [h.clientLine_eq]
    exact ends_failedPayload protocol requestId code message

end

/-! ## One terminal outcome -/

/-- `wrap_sse_stream` on an upstream that sends some chunks and ends. -/
def HostStream.start (poolPrefix upstreamModel : String) (context : SseContext) (chunks : List (List UInt8))
    (ending : StreamEnd) : HostStream where
  upstream := chunks
  ending := ending
  rewriter := .new poolPrefix context.publicModel upstreamModel
  context := context
  terminated := false
  ledger := []
  spans := []

/-- The client sees one terminal event, and the ledger is written once: as a completed request if and only if the
answer is a success and so is a terminal event that has come in. -/
structure OneOutcome (serde : Serde) (s : HostStream) : Prop where
  seen : terminalEvents serde s.context.requestId (s.drain serde).2.flatten = 1
  recorded : (s.drain serde).1.ledger.length = 1
  completed : (∃ entry ∈ (s.drain serde).1.ledger, entry.status = "completed") ↔
    s.context.httpOk = true
      ∧ ∃ line ∈ LineBuffer.linesOf isNewline s.upstream.flatten, (clientLine serde line).succeeds = true

namespace HostStream

variable (serde : Serde) (s : HostStream)

/-- The lines of the upstream. -/
def lines : List (List UInt8) := LineBuffer.linesOf isNewline s.upstream.flatten

/-- The client sees a terminal event in a line that is passed on. -/
def shows (line : List UInt8) : Bool := (s.rewriter.rewriter.passedOn serde line).ends s.context.requestId

/-- The payload and the lines of the failed event. -/
def failurePayload : Value :=
  failedPayload s.context.protocol s.context.requestId (s.failure (lastNoticed serde s.lines)).1
    (s.failure (lastNoticed serde s.lines)).2

def failureLines : List (List UInt8) :=
  failedLines serde s.context.protocol s.context.requestId (s.failure (lastNoticed serde s.lines)).1
    (s.failure (lastNoticed serde s.lines)).2

/-- Where an end is noticed, one line shows a terminal event.  Where none is, or the upstream breaks off, no line shows
one, since the failed event follows; an unfinished line is read as one with the first line of that event.  And
the last noticed end is a success if and only if some terminal event is one. -/
structure OutcomeFits : Prop where
  noticed : s.fails (lastNoticed serde s.lines) = false → s.lines.countP (s.shows serde) = 1
  unnoticed : s.fails (lastNoticed serde s.lines) = true → unfinishedLine serde s.lines = [] →
    ∀ line ∈ s.lines, s.shows serde line = false
  unfinished : s.fails (lastNoticed serde s.lines) = true → unfinishedLine serde s.lines ≠ [] →
    (finishedLines serde s.lines).countP (s.shows serde)
      + (glue (unfinishedLine serde s.lines) (s.failureLines serde)).countP
        (fun line => (clientLine serde line).ends s.context.requestId) = 1
  completed : s.context.httpOk = true →
    ((s.ending = .eof ∧ (lastNoticed serde s.lines).any terminalOk = true)
      ↔ ∃ line ∈ s.lines, (clientLine serde line).succeeds = true)

end HostStream

section

variable {serde : Serde}

theorem linesOf_glue {unfinished first : List UInt8} {rest : List (List UInt8)}
    (hunfinished : ∀ b ∈ unfinished, isNewline b = false)
    (h : ∀ line ∈ first :: rest, LineBuffer.IsLine isNewline line) :
    LineBuffer.linesOf isNewline (unfinished ++ (first :: rest).flatten) = glue unfinished (first :: rest) := by
  rw [List.forall_mem_cons] at h
  obtain ⟨⟨front, b, rfl, hb, hfront⟩, hrest⟩ := h
  have hglued : LineBuffer.IsLine isNewline (unfinished ++ (front ++ [b])) := by
    refine ⟨unfinished ++ front, b, (List.append_assoc _ _ _).symm, hb, ?_⟩
    rw [List.forall_mem_append]
    exact ⟨hunfinished, hfront⟩
  have hlines := LineBuffer.linesOf_flatten (List.forall_mem_cons.mpr ⟨hglued, hrest⟩) []
  rwa [List.append_nil, List.flatten_cons, List.append_assoc, LineBuffer.linesOf, List.append_nil] at hlines

namespace HostStream

variable {s : HostStream}

/-- What is given out of a stream that starts. -/
theorem drain_start (serde : Serde) (poolPrefix upstreamModel : String) (context : SseContext)
    (chunks : List (List UInt8)) (ending : StreamEnd) (hs : s = .start poolPrefix upstreamModel context chunks ending) :
    (s.drain serde).2.flatten = (s.lines.map (s.rewriter.rewriter.sent serde)).flatten
        ++ s.closing serde (lastNoticed serde s.lines)
      ∧ ∃ entry, (s.drain serde).1.ledger = [entry]
        ∧ (entry.status = "completed" ↔ s.reported (lastNoticed serde s.lines) = true) := by
  subst hs
  obtain ⟨hseen, hout⟩ := run_new serde poolPrefix context.publicModel upstreamModel chunks
  have hspec := drain_spec serde (s := start poolPrefix upstreamModel context chunks ending) rfl
  have hrun : (start poolPrefix upstreamModel context chunks ending).rewriter.run serde
      (start poolPrefix upstreamModel context chunks ending).upstream
      = (BufferedRewriter.new poolPrefix context.publicModel upstreamModel).run serde chunks := rfl
  rw [hrun, hseen, hout] at hspec
  exact hspec

/-- Without a failed event the client sees the lines that are passed on. -/
theorem countP_lines (hprints : PrintsLines serde s.rewriter.rewriter s.lines) :
    terminalEvents serde s.context.requestId (s.lines.map (s.rewriter.rewriter.sent serde)).flatten
      = s.lines.countP (s.shows serde) := by
  obtain ⟨rest, hlines, hrest, -, hlast⟩ := exists_unfinished serde s.upstream.flatten
  have hunfinished : LineBuffer.linesOf isNewline (unfinishedLine serde s.lines) = rest := by
    rw [lines, ← hrest]
    rcases hlast with rfl | ⟨line, rfl, hne, hopen, -⟩
    · rfl
    · rw [List.flatten_singleton, LineBuffer.linesOf_of_noEnd hne hopen]
  have hsent : rest.map (s.rewriter.rewriter.sent serde) = rest := by
    rcases hlast with rfl | ⟨line, rfl, -, -, hpayload⟩
    · rfl
    · rw [List.map_singleton, sent_of_not_isPayload hpayload]
  have hout : LineBuffer.linesOf isNewline (s.lines.map (s.rewriter.rewriter.sent serde)).flatten
      = s.lines.map (s.rewriter.rewriter.sent serde) := by
    have hall := linesOf_sent hprints []
    rw [List.append_nil, List.append_nil] at hall
    have hsplit : s.lines = finishedLines serde s.lines ++ rest := hlines
    rw [lines, hall, ← lines, hunfinished]
    conv_rhs => rw [hsplit, List.map_append, hsent]
  rw [terminalEvents, hout]
  exact countP_sent hprints _

/-- A stream without an unfinished line. -/
theorem finishedLines_eq (hempty : unfinishedLine serde s.lines = []) : finishedLines serde s.lines = s.lines := by
  obtain ⟨rest, hlines, hrest, -, hlast⟩ := exists_unfinished serde s.upstream.flatten
  have hsplit : s.lines = finishedLines serde s.lines ++ rest := hlines
  rcases hlast with rfl | ⟨line, rfl, hne, -⟩
  · rw [List.append_nil] at hsplit
    exact hsplit.symm
  · rw [List.flatten_singleton] at hrest
    exact absurd (hrest.trans hempty) hne

/-- With a failed event the client sees the finished lines, and the failed event behind the unfinished one. -/
theorem countP_closed (hprints : PrintsLines serde s.rewriter.rewriter s.lines)
    (hline : ∀ line ∈ s.failureLines serde, LineBuffer.IsLine isNewline line)
    (hfails : s.fails (lastNoticed serde s.lines) = true) :
    terminalEvents serde s.context.requestId ((s.lines.map (s.rewriter.rewriter.sent serde)).flatten
        ++ s.closing serde (lastNoticed serde s.lines))
      = (finishedLines serde s.lines).countP (s.shows serde)
        + (glue (unfinishedLine serde s.lines) (s.failureLines serde)).countP
          (fun line => (clientLine serde line).ends s.context.requestId) := by
  have hopen : ∀ b ∈ unfinishedLine serde s.lines, isNewline b = false := by
    obtain ⟨rest, -, hrest, -, hlast⟩ := exists_unfinished serde s.upstream.flatten
    rw [lines, ← hrest]
    rcases hlast with rfl | ⟨line, rfl, -, hopen, -⟩
    · exact fun b hb => absurd hb List.not_mem_nil
    · rwa [List.flatten_singleton]
  have hfinished : PrintsLines serde s.rewriter.rewriter (finishedLines serde s.lines) :=
    fun line hmem => hprints line (List.mem_of_mem_filter hmem)
  have hglue : LineBuffer.linesOf isNewline (unfinishedLine serde s.lines ++ (s.failureLines serde).flatten)
      = glue (unfinishedLine serde s.lines) (s.failureLines serde) := by
    cases hfailure : s.failureLines serde with
    | nil =>
      rw [failureLines, failedLines] at hfailure
      exact absurd hfailure (by simp)
    | cons first rest => exact linesOf_glue hopen (hfailure ▸ hline)
  rw [closing, if_pos hfails, failedEvent, failedSseEvent_eq, ← failureLines, terminalEvents, lines,
    linesOf_sent hprints, ← lines, hglue, List.countP_append, countP_sent hfinished]
  rfl

end HostStream

variable (serde) in
/-- The exact condition under which a stream has one terminal outcome. -/
theorem oneOutcome_iff (poolPrefix upstreamModel : String) (context : SseContext) (chunks : List (List UInt8))
    (ending : StreamEnd)
    (hprints : PrintsLines serde (.new poolPrefix context.publicModel upstreamModel)
      (LineBuffer.linesOf isNewline chunks.flatten))
    (hfailed : JsonLine serde
      (serde.toText ((HostStream.start poolPrefix upstreamModel context chunks ending).failurePayload serde))
      ((HostStream.start poolPrefix upstreamModel context chunks ending).failurePayload serde)) :
    OneOutcome serde (.start poolPrefix upstreamModel context chunks ending)
      ↔ (HostStream.start poolPrefix upstreamModel context chunks ending).OutcomeFits serde := by
  generalize hs : HostStream.start poolPrefix upstreamModel context chunks ending = s at hfailed ⊢
  replace hprints : PrintsLines serde s.rewriter.rewriter s.lines := hs ▸ hprints
  obtain ⟨hflat, entry, hledger, hstatus⟩ :=
    HostStream.drain_start serde poolPrefix upstreamModel context chunks ending hs.symm
  have hseen : terminalEvents serde s.context.requestId (s.drain serde).2.flatten = 1
      ↔ (s.fails (lastNoticed serde s.lines) = false → s.lines.countP (s.shows serde) = 1)
        ∧ (s.fails (lastNoticed serde s.lines) = true →
          (finishedLines serde s.lines).countP (s.shows serde)
            + (glue (unfinishedLine serde s.lines) (s.failureLines serde)).countP
              (fun line => (clientLine serde line).ends s.context.requestId) = 1) := by
    rw [hflat]
    cases hfails : s.fails (lastNoticed serde s.lines) with
    | false =>
      rw [HostStream.closing, if_neg (by rw [hfails]; decide), List.append_nil, HostStream.countP_lines hprints]
      simp
    | true =>
      rw [HostStream.countP_closed hprints (isLine_failedLines hfailed.inline) hfails]
      simp
  have hwhole : unfinishedLine serde s.lines = [] →
      ((finishedLines serde s.lines).countP (s.shows serde)
            + (glue (unfinishedLine serde s.lines) (s.failureLines serde)).countP
              (fun line => (clientLine serde line).ends s.context.requestId) = 1
        ↔ ∀ line ∈ s.lines, s.shows serde line = false) := by
    intro hempty
    rw [HostStream.finishedLines_eq hempty, hempty, HostStream.failureLines, countP_failedLines hfailed,
      Nat.add_eq_right, List.countP_eq_zero]
    simp only [Bool.not_eq_true]
  have hcompleted : ((∃ entry ∈ (s.drain serde).1.ledger, entry.status = "completed")
        ↔ s.context.httpOk = true
          ∧ ∃ line ∈ LineBuffer.linesOf isNewline s.upstream.flatten, (clientLine serde line).succeeds = true)
      ↔ (s.context.httpOk = true → ((s.ending = .eof ∧ (lastNoticed serde s.lines).any terminalOk = true)
        ↔ ∃ line ∈ s.lines, (clientLine serde line).succeeds = true)) := by
    have hreported : s.reported (lastNoticed serde s.lines) = true
        ↔ s.context.httpOk = true ∧ s.ending = .eof ∧ (lastNoticed serde s.lines).any terminalOk = true := by
      rw [HostStream.reported, HostStream.eofOk, Bool.and_eq_true, Bool.and_eq_true, decide_eq_true_iff, and_left_comm]
    have hentry : (∃ entry ∈ (s.drain serde).1.ledger, entry.status = "completed") ↔ entry.status = "completed" := by
      rw [hledger]
      simp
    rw [hentry, hstatus, hreported, HostStream.lines]
    exact and_congr_right_iff
  constructor
  · rintro ⟨honce, -, hledgerOk⟩
    obtain ⟨hnoticed, hunnoticed⟩ := hseen.mp honce
    exact ⟨hnoticed, fun hfails hempty => (hwhole hempty).mp (hunnoticed hfails), fun hfails _ => hunnoticed hfails,
      hcompleted.mp hledgerOk⟩
  · rintro ⟨hnoticed, hunnoticed, hunfinished, hledgerOk⟩
    refine ⟨hseen.mpr ⟨hnoticed, fun hfails => ?_⟩, by rw [hledger]; rfl, hcompleted.mpr hledgerOk⟩
    by_cases hempty : unfinishedLine serde s.lines = []
    · exact (hwhole hempty).mpr (hunnoticed hfails hempty)
    · exact hunfinished hfails hempty

/-! ### A completed response -/

/-- The text of the event, and what is read in it. -/
def completedText : String := "\x7b\"type\":\"response.completed\"\x7d"

def completedEvent : Value := .object [("type", .string "response.completed")]

/-- A request with a status of success. -/
def plainContext : SseContext := ⟨"req-1", "public", "pool-1", "responses", 200, none, true⟩

/-- The stream of one event, which is cut behind some bytes. -/
def eventStream (cut : ℕ) : HostStream :=
  .start "pool" "upstream" plainContext
    [(dataLine completedText ++ [10]).take cut, (dataLine completedText ++ [10]).drop cut] .eof

/-- The failed event that the stream would get. -/
def eofPayload : Value :=
  failedPayload "responses" "req-1" "CR-UP-0014" "upstream stream ended before a terminal event"

/-- Its text. -/
def eofText : String :=
  "\x7b\"request_id\":\"req-1\",\"response\":\x7b\"error\":\x7b\"code\":\"CR-UP-0014\",\"message\":" ++
    "\"upstream stream ended before a terminal event\"\x7d,\"status\":\"failed\"\x7d,\"type\":\"response.failed\"\x7d"

theorem toText_events :
    (JsonLexicon.plain 127).serde.toText eofPayload = eofText
      ∧ (JsonLexicon.plain 127).serde.toText completedEvent = completedText
      ∧ (JsonLexicon.plain 127).serde.fromStr eofText = some eofPayload
      ∧ (JsonLexicon.plain 127).serde.fromStr completedText = some completedEvent := by
  decide +kernel

/-- The event is not rewritten, it is noticed, and its text stands in one line. -/
theorem completedEvent_read :
    JsonLine (JsonLexicon.plain 127).serde completedText completedEvent
      ∧ JsonLine (JsonLexicon.plain 127).serde ((JsonLexicon.plain 127).serde.toText eofPayload) eofPayload
      ∧ (JsonLexicon.plain 127).serde.toText completedEvent = completedText
      ∧ (SseRewriter.new "pool" "public" "upstream").rewritePayload completedEvent = completedEvent
      ∧ payloadTerminal completedEvent = some "response.completed" := by
  obtain ⟨heof, hcompleted, heofRead, hcompletedRead⟩ := toText_events
  rw [heof]
  refine ⟨⟨hcompletedRead, ?_, ⟨'{', ?_⟩, ⟨'}', ?_⟩, ?_⟩, ⟨heofRead, ?_, ⟨'{', ?_⟩, ⟨'}', ?_⟩, ?_⟩, hcompleted, ?_, ?_⟩ <;>
    decide +kernel

theorem lines_eventStream (cut : ℕ) : (eventStream cut).lines = [dataLine completedText, [10]] := by
  have hblank : LineBuffer.IsLine isNewline [10] := LineBuffer.isLine_singleton rfl
  have hlines := LineBuffer.linesOf_flatten
    (List.forall_mem_cons.mpr ⟨isLine_dataLine completedEvent_read.1.inline, List.forall_mem_singleton.mpr hblank⟩) []
  rw [List.append_nil, List.flatten_cons, List.flatten_singleton, LineBuffer.linesOf, List.append_nil] at hlines
  rw [HostStream.lines, ← hlines]
  refine congrArg (LineBuffer.linesOf isNewline) ?_
  rw [eventStream, HostStream.start, List.flatten_cons, List.flatten_singleton, List.take_append_drop]

/-- What is seen of the event. -/
theorem shows_eventStream (cut : ℕ) :
    (eventStream cut).shows (JsonLexicon.plain 127).serde (dataLine completedText) = true
      ∧ (eventStream cut).shows (JsonLexicon.plain 127).serde [10] = false := by
  obtain ⟨hline, -, -, hrewritten, -⟩ := completedEvent_read
  constructor
  · rw [HostStream.shows, SseRewriter.passedOn, hline.readLine_eq]
    exact congrArg (fun payload => (LineData.payload payload).ends "req-1") hrewritten
  · rw [HostStream.shows, SseRewriter.passedOn, readLine_blank]
    dsimp only
    rw [(clientLine_others _).2.2]
    rfl

/-- The stream of a completed response, cut in its first line. -/
theorem oneOutcome_completed : OneOutcome (JsonLexicon.plain 127).serde (eventStream 9) := by
  obtain ⟨hline, hfailed, htext, hrewritten, hterminal⟩ := completedEvent_read
  have hlines := lines_eventStream 9
  have hnoticed : lastNoticed (JsonLexicon.plain 127).serde (eventStream 9).lines = some "response.completed" := by
    rw [hlines, lastNoticed, lastNoticed, lastNoticed, readLine_blank, hline.readLine_eq]
    exact hterminal
  have hfails : (eventStream 9).fails (lastNoticed (JsonLexicon.plain 127).serde (eventStream 9).lines) = false := by
    rw [hnoticed]
    rfl
  obtain ⟨hshows, hblank⟩ := shows_eventStream 9
  have hprints : PrintsLines (JsonLexicon.plain 127).serde (.new "pool" "public" "upstream") (eventStream 9).lines := by
    rw [hlines, PrintsLines, List.forall_mem_cons, List.forall_mem_singleton]
    constructor
    · intro payload hread
      rw [hline.readLine_eq, LineData.payload.injEq] at hread
      rwa [← hread, hrewritten, htext]
    · intro payload hread
      rw [readLine_blank] at hread
      cases hread
  have hpayload : (eventStream 9).failurePayload (JsonLexicon.plain 127).serde = eofPayload := by
    rw [HostStream.failurePayload, hnoticed]
    rfl
  refine (oneOutcome_iff _ "pool" "upstream" plainContext _ .eof hprints (hpayload.symm ▸ hfailed)).mpr
    ⟨fun _ => ?_, fun h => ?_, fun h => ?_, fun _ => iff_of_true ⟨rfl, ?_⟩ ⟨dataLine completedText, ?_, ?_⟩⟩
  · change (eventStream 9).lines.countP ((eventStream 9).shows _) = 1
    rw [hlines, List.countP_cons_of_pos hshows, List.countP_cons_of_neg (by rw [hblank]; decide), List.countP_nil]
  · exact absurd (hfails.symm.trans h) Bool.false_ne_true
  · exact absurd (hfails.symm.trans h) Bool.false_ne_true
  · exact (congrArg (Option.any terminalOk) hnoticed).trans (by decide)
  · exact hlines.symm ▸ List.mem_cons_self
  · rw [hline.clientLine_eq]
    decide

end

end CodexRouter
