/-
# One response head for one request

After `write_sse_prelude` the client reads an event stream, and whatever the upstream
does next has to be told as events.  The loop tests `sse_prelude_sent` when the
upstream cannot be opened and when it answers with an error status, but not when it
answers a retry with a body that is no event stream.  `singleHead_iff` says that
nothing else goes wrong.
-/
import CodexRouter.GatewayLoop

namespace CodexRouter

open Text

/-- At most one head is written, and after the head of an event stream only events. -/
def SingleHead (writes : List ClientWrite) : Prop :=
  (writes.filter ClientWrite.isHead).length ≤ 1
    ∧ ∀ before text after, writes = before ++ .prelude text :: after →
      ∀ w ∈ after, w.isSse = true

section

variable {Stream : Type} (gw : Gateway Stream)

/-- The answer is a body of another type than an event stream, and the loop passes it
on: it is not JSON, or its JSON can be read, or no retry is left. -/
def Gateway.OutsideSse (budget : RequestRetryBudget) (r : UpstreamResponse Stream) : Prop :=
  r.status < 400 ∧ contains (contentTypeOf r.headers) "text/event-stream" = false
    ∧ (contains (contentTypeOf r.headers) "json" = true →
        gw.readFullBody r ≠ none ∨ budget.reserve none = none)

/-- The event stream has been opened, and the next answer is outside of it. -/
def Gateway.AnswersOutsideSse (s : LoopState) (a : OpenAttempt Stream) : Prop :=
  s.ssePreludeSent = true ∧ ∃ r, a = .answered r ∧ gw.OutsideSse s.limitedBudget r

end

section

variable {Stream : Type} {gw : Gateway Stream} {s next : LoopState} {a : OpenAttempt Stream}
  {r : UpstreamResponse Stream} {writes : List ClientWrite}

/-! ## Writes that stay in the event stream -/

/-- Writes of events, and a next turn that knows of the prelude. -/
def StaysInSse (out : List ClientWrite × Option LoopState) : Prop :=
  (∀ w ∈ out.1, w.isSse = true) ∧ ∀ next, out.2 = some next → next.ssePreludeSent = true

theorem finishSse_isSse : finishSse.isSse = true := rfl

theorem close_isSse (w : ClientWrite) (hw : w ∈ s.close) : w.isSse = true := by
  rw [LoopState.close, List.mem_singleton] at hw
  subst hw
  cases s.lastHeldCompleted <;> rfl

theorem staysInSse_retry (hs : s.ssePreludeSent = true) (giveUp : List ClientWrite)
    (hgiveUp : s.retryBudget.reserve none = none → ∀ w ∈ giveUp, w.isSse = true) :
    StaysInSse (s.retry giveUp) := by
  unfold LoopState.retry
  cases hbudget : s.retryBudget.reserve none with
  | none => exact ⟨hgiveUp hbudget, by simp⟩
  | some budget =>
    refine ⟨by simp, ?_⟩
    rintro next ⟨⟩
    exact hs

/-- What follows the forwarding of a stream is told as events. -/
theorem staysInSse_afterStream (gw : Gateway Stream) (hs : s.ssePreludeSent = true) (forward : SseForward) :
    StaysInSse (gw.afterStream s forward) := by
  cases forward with
  | done => exact ⟨by simp [Gateway.afterStream], by simp [Gateway.afterStream]⟩
  | retryableBeforeFirstEvent => exact staysInSse_retry hs _ fun _ => close_isSse
  | retryableWithPrefix resume =>
    exact staysInSse_retry (s := { s with streamResume := some resume }) hs _ fun _ => close_isSse
  | reconcileFailed =>
    refine ⟨?_, by simp [Gateway.afterStream]⟩
    simp [Gateway.afterStream, finishSse_isSse]
  | incompleteAgentTurn turn =>
    have hheld : StaysInSse ([.sse turn.heldCompleted], none) :=
      ⟨by simp [ClientWrite.isSse], by simp⟩
    rw [Gateway.afterStream]
    cases s.continueBody with
    | none => exact hheld
    | some body =>
      dsimp only
      split
      · refine ⟨by simp [sendSseKeepalive, ClientWrite.isSse], ?_⟩
        rintro next ⟨⟩
        exact hs
      · exact hheld

/-- The turn with an event stream: a prelude if there was none, and then events. -/
theorem forwardStream_eq (gw : Gateway Stream) (s : LoopState) (r : UpstreamResponse Stream) :
    ∃ out, StaysInSse out ∧ (gw.forwardStream s r).2 = out.2
      ∧ (gw.forwardStream s r).1
        = (if s.ssePreludeSent then [] else [.prelude (ssePrelude r.headers)]) ++ out.1 := by
  unfold Gateway.forwardStream
  obtain ⟨texts, forward⟩ := gw.forwardAgentSse r s.streamResume s.continuePoint
  have htexts : ∀ w ∈ texts.map ClientWrite.sse, w.isSse = true := by
    intro w hw
    obtain ⟨text, _, rfl⟩ := List.mem_map.mp hw
    rfl
  cases forward with
  | none => exact ⟨(texts.map .sse, none), ⟨htexts, by simp⟩, rfl, by simp⟩
  | some forward =>
    have hafter := staysInSse_afterStream gw
      (s := { s with ssePreludeSent := true, streamResume := none }) rfl forward
    refine ⟨(texts.map .sse ++ (gw.afterStream
      { s with ssePreludeSent := true, streamResume := none } forward).1, _), ⟨?_, hafter.2⟩, rfl, ?_⟩
    · intro w hw
      rcases List.mem_append.mp hw with hw | hw
      · exact htexts w hw
      · exact hafter.1 w hw
    · simp

/-! ## One attempt -/

/-- Answers below 400 are never retried while the upstream is opened. -/
theorem openUpstream_of_lt (budget : RequestRetryBudget) (h : r.status < 400) :
    gw.openUpstream budget (.answered r) = .opened r budget := by
  have hretries : gw.retriesStatus r = false := by
    have hne : ∀ n, 400 ≤ n → r.status ≠ n := fun n hn heq => by omega
    simp [Gateway.retriesStatus, hne 429 (by omega), hne 503 (by omega), hne 408 (by omega),
      hne 425 (by omega), hne 502 (by omega), hne 504 (by omega), hne 401 (by omega)]
  simp [Gateway.openUpstream, hretries]

/-- Opening changes the budget only, and passes on an answer of this attempt. -/
theorem openUpstream_opened {budget budget' : RequestRetryBudget}
    (h : gw.openUpstream budget a = .opened r budget') :
    a = .answered r ∧ budget' = budget := by
  cases a with
  | disconnected => cases h
  | unreachable =>
    simp only [Gateway.openUpstream] at h
    split at h <;> cases h
  | answered r' =>
    simp only [Gateway.openUpstream] at h
    split at h
    · cases h
    · cases h
      exact ⟨rfl, rfl⟩

theorem exists_head_mem_sendStatus (status : ℕ) (contentType body : String) :
    ∃ text, ClientWrite.head text ∈ sendStatus status contentType body :=
  ⟨_, List.mem_cons_self⟩

/-- After the prelude an answer is a second head, if it is outside the stream;
otherwise it is told as events. -/
theorem receive_afterPrelude (hpath : isResponsesPath gw.path = true)
    (hs : s.ssePreludeSent = true) (r : UpstreamResponse Stream) :
    (gw.OutsideSse s.retryBudget r → ∃ text, ClientWrite.head text ∈ (gw.receive s r).1)
      ∧ (¬ gw.OutsideSse s.retryBudget r → StaysInSse (gw.receive s r)) := by
  by_cases hstatus : r.status < 400
  · have hnot : ¬ 400 ≤ r.status := Nat.not_le_of_lt hstatus
    cases hstream : contains (contentTypeOf r.headers) "text/event-stream" with
    | true =>
      obtain ⟨out, hout, hnext, hwrites⟩ := forwardStream_eq gw s r
      refine ⟨fun h => by simp [Gateway.OutsideSse, hstream] at h, fun _ => ?_⟩
      have hreceive : gw.receive s r = gw.forwardStream s r := by
        simp [Gateway.receive, hpath, hstatus, hnot, hstream]
      rw [hs] at hwrites
      rw [hreceive, ← Prod.mk.eta (p := gw.forwardStream s r), hnext, hwrites]
      exact hout
    | false =>
      cases hjson : contains (contentTypeOf r.headers) "json" with
      | false => simp [Gateway.receive, Gateway.OutsideSse, hpath, hstatus, hnot, hstream, hjson]
      | true =>
        cases hbody : gw.readFullBody r with
        | some body =>
          simp [Gateway.receive, Gateway.OutsideSse, hpath, hstatus, hnot, hstream, hjson, hbody,
            Gateway.forwardRewrittenJsonBody, rebuildResponse]
        | none =>
          have hreceive : gw.receive s r = s.retry sendGatewayUnavailable := by
            simp [Gateway.receive, hpath, hstatus, hnot, hstream, hjson, hbody]
          rw [hreceive]
          constructor
          · rintro ⟨-, -, hgiveUp⟩
            rcases hgiveUp hjson with h | h
            · exact absurd hbody h
            · rw [LoopState.retry, h]
              exact exists_head_mem_sendStatus 502 _ _
          · intro h
            refine staysInSse_retry hs _ fun hbudget => absurd ?_ h
            exact ⟨hstatus, hstream, fun _ => .inr hbudget⟩
  · have hreceive : gw.receive s r = (s.close, none) := by
      simp [Gateway.receive, hs, hpath, Nat.le_of_not_lt hstatus]
    rw [hreceive]
    exact ⟨fun h => absurd h.1 hstatus, fun _ => ⟨close_isSse, by simp⟩⟩

/-- After the prelude a turn writes a second head, if the upstream answers outside
the stream; otherwise it writes events. -/
theorem step_afterPrelude (hpath : isResponsesPath gw.path = true) (hs : s.ssePreludeSent = true) :
    (gw.AnswersOutsideSse s a → ∃ text, ClientWrite.head text ∈ (gw.step s a).1)
      ∧ (¬ gw.AnswersOutsideSse s a → StaysInSse (gw.step s a)) := by
  cases hopen : gw.openUpstream s.limitedBudget a with
  | again budget =>
    have hnot : ¬ gw.AnswersOutsideSse s a := by
      rintro ⟨-, r, rfl, hr⟩
      rw [openUpstream_of_lt _ hr.1] at hopen
      cases hopen
    refine ⟨fun h => absurd h hnot, fun _ => ?_⟩
    simp [Gateway.step, hopen, StaysInSse, hs]
  | failed =>
    have hnot : ¬ gw.AnswersOutsideSse s a := by
      rintro ⟨-, r, rfl, hr⟩
      rw [openUpstream_of_lt _ hr.1] at hopen
      cases hopen
    refine ⟨fun h => absurd h hnot, fun _ => ?_⟩
    simp only [Gateway.step, hopen]
    rw [LoopState.openFailed, hs, Bool.or_true, if_pos rfl]
    exact ⟨close_isSse, by simp⟩
  | opened r budget =>
    obtain ⟨rfl, rfl⟩ := openUpstream_opened hopen
    have houtside : gw.AnswersOutsideSse s (.answered r) ↔ gw.OutsideSse s.limitedBudget r := by
      simp [Gateway.AnswersOutsideSse, hs]
    rw [houtside, Gateway.step, hopen]
    exact receive_afterPrelude (s := { s with retryBudget := s.limitedBudget }) hpath hs r

/-! ## Replies without an event stream -/

/-- One reply: at most one head, and not that of an event stream. -/
def PlainReply (writes : List ClientWrite) : Prop :=
  (writes.filter ClientWrite.isHead).length ≤ 1 ∧ ∀ text, ClientWrite.prelude text ∉ writes

/-- A turn before the prelude: nothing is written and the loop goes on, or one reply
is written and the request is finished, or the event stream is opened. -/
inductive BeforePrelude (gw : Gateway Stream) (out : List ClientWrite × Option LoopState) : Prop
  | waits (hwrites : out.1 = [])
      (hnext : ∀ next, out.2 = some next → next.ssePreludeSent = false)
  | replies (hwrites : PlainReply out.1) (hnext : out.2 = none)
  | opens (hpath : isResponsesPath gw.path = true) (text : String)
      (stream : List ClientWrite × Option LoopState) (hstream : StaysInSse stream)
      (hwrites : out.1 = .prelude text :: stream.1) (hnext : out.2 = stream.2)

theorem plainReply_head (text text' : String) : PlainReply [.head text, .body text'] :=
  ⟨Nat.le_refl 1, by simp⟩

theorem plainReply_sendStatus (status : ℕ) (contentType body : String) :
    PlainReply (sendStatus status contentType body) := plainReply_head _ _

theorem plainReply_rebuildResponse (status : ℕ) (headers : Headers) (body : String) :
    PlainReply (rebuildResponse status headers body) := plainReply_head _ _

theorem plainReply_sse (text : String) : PlainReply [.sse text] :=
  ⟨Nat.zero_le 1, by simp⟩

theorem plainReply_close (s : LoopState) : PlainReply s.close := by
  unfold LoopState.close
  cases s.lastHeldCompleted with
  | none => exact plainReply_sse _
  | some held => exact plainReply_sse held

theorem plainReply_forwardError (status : ℕ) (headers : Headers) (body : String) :
    PlainReply (gw.forwardError status headers body) := plainReply_rebuildResponse _ _ _

theorem plainReply_compactFallback {requestBody bodyText : String} {status : ℕ}
    (h : gw.compactFallback requestBody status bodyText = some writes) : PlainReply writes := by
  unfold Gateway.compactFallback at h
  dsimp only at h
  split at h
  · obtain ⟨body, -, rfl⟩ := Option.map_eq_some_iff.mp h
    exact plainReply_sendStatus _ _ _
  · cases h

theorem plainReply_errorExchange {requestBody bodyText : String} {status : ℕ}
    (h : gw.errorExchange requestBody status bodyText = some writes) : PlainReply writes := by
  unfold Gateway.errorExchange at h
  split at h
  · split at h
    · cases h
    · split at h
      · cases h
      · obtain ⟨⟨retryStatus, raw, retryBody⟩, -, rfl⟩ := Option.map_eq_some_iff.mp h
        dsimp only
        split
        · exact plainReply_head _ _
        · exact plainReply_forwardError _ _ _
  · cases h

/-- The reply to an error status is one response. -/
theorem plainReply_errorReply (requestBody : String) (status : ℕ) (headers : Headers)
    (body : String) : PlainReply (gw.errorReply requestBody status headers body) := by
  unfold Gateway.errorReply
  cases hcompact : gw.compactFallback requestBody status body with
  | some writes => exact plainReply_compactFallback hcompact
  | none =>
    cases hexchange : gw.errorExchange requestBody status body with
    | some writes => exact plainReply_errorExchange hexchange
    | none => exact plainReply_forwardError _ _ _

theorem beforePrelude_retry (hs : s.ssePreludeSent = false) (giveUp : List ClientWrite)
    (h : PlainReply giveUp) : BeforePrelude gw (s.retry giveUp) := by
  unfold LoopState.retry
  cases s.retryBudget.reserve none with
  | none => exact .replies h rfl
  | some budget =>
    refine .waits rfl ?_
    rintro next ⟨⟩
    exact hs

theorem receive_beforePrelude (gw : Gateway Stream) (hs : s.ssePreludeSent = false) (r : UpstreamResponse Stream) :
    BeforePrelude gw (gw.receive s r) := by
  unfold Gateway.receive
  simp only [hs, Bool.false_and, Bool.false_eq_true, if_false]
  split
  · rename_i hstream
    simp only [Bool.and_eq_true] at hstream
    obtain ⟨out, hout, hnext, hwrites⟩ := forwardStream_eq gw s r
    rw [hs] at hwrites
    exact .opens hstream.1.2 _ out hout hwrites hnext
  · split
    · split
      · exact .replies (plainReply_rebuildResponse _ _ _) rfl
      · exact beforePrelude_retry hs _ (plainReply_sendStatus _ _ _)
    · split
      · exact .replies (plainReply_head _ _) rfl
      · split
        · exact .replies (plainReply_errorReply _ _ _ _) rfl
        · exact beforePrelude_retry hs _ (plainReply_sendStatus _ _ _)

theorem step_beforePrelude (gw : Gateway Stream) (hs : s.ssePreludeSent = false) (a : OpenAttempt Stream) :
    BeforePrelude gw (gw.step s a) := by
  unfold Gateway.step
  cases hopen : gw.openUpstream s.limitedBudget a with
  | again budget =>
    refine .waits rfl ?_
    rintro next ⟨⟩
    exact hs
  | failed =>
    refine .replies ?_ rfl
    dsimp only
    unfold LoopState.openFailed
    split
    · exact plainReply_close s
    · exact plainReply_sendStatus _ _ _
  | opened r budget => exact receive_beforePrelude gw (s := { s with retryBudget := budget }) hs r

/-! ## Runs -/

variable {attempts : List (OpenAttempt Stream)}

theorem not_answersOutsideSse (hs : s.ssePreludeSent = false) :
    ¬ gw.AnswersOutsideSse s a := by
  rintro ⟨h, -⟩
  rw [hs] at h
  cases h

/-- A run after the prelude writes events only, as long as no answer is outside the
stream. -/
theorem handleClient_afterPrelude (hpath : isResponsesPath gw.path = true)
    (hs : s.ssePreludeSent = true) :
    (∀ w ∈ gw.handleClient s attempts, w.isSse = true)
      ↔ ∀ turn ∈ gw.turns s attempts, ¬ gw.AnswersOutsideSse turn.1 turn.2 := by
  induction attempts generalizing s with
  | nil => simp [Gateway.handleClient, Gateway.turns]
  | cons a rest ih =>
    obtain ⟨hbad, hgood⟩ := step_afterPrelude (a := a) hpath hs
    rw [Gateway.handleClient, Gateway.turns, List.forall_mem_append, List.forall_mem_cons]
    by_cases hanswers : gw.AnswersOutsideSse s a
    · obtain ⟨text, htext⟩ := hbad hanswers
      refine ⟨fun h => ?_, fun h => absurd hanswers h.1⟩
      have hsse := h.1 _ htext
      cases hsse
    · obtain ⟨hwrites, hnext⟩ := hgood hanswers
      cases hout : (gw.step s a).2 with
      | none => simpa [hanswers] using hwrites
      | some next =>
        rw [Option.map_some, Option.map_some, Option.getD_some, Option.getD_some,
          ih (hnext next hout)]
        exact ⟨fun h => ⟨hanswers, h.2⟩, fun h => ⟨hwrites, h.2⟩⟩

theorem PlainReply.singleHead (h : PlainReply writes) : SingleHead writes := by
  refine ⟨h.1, ?_⟩
  rintro before text after rfl
  exact absurd (by simp) (h.2 text)

/-- Behind the head of an event stream, one head means events only. -/
theorem singleHead_prelude (text : String) :
    SingleHead (.prelude text :: writes) ↔ ∀ w ∈ writes, w.isSse = true := by
  constructor
  · intro h
    exact h.2 [] text writes rfl
  · intro h
    have hheads : writes.filter ClientWrite.isHead = [] := by
      rw [List.filter_eq_nil_iff]
      intro w hw
      cases w with
      | sse text => simp [ClientWrite.isHead]
      | _ => exact absurd (h _ hw) (by simp [ClientWrite.isSse])
    refine ⟨by simp [List.filter_cons, ClientWrite.isHead, hheads], ?_⟩
    intro before text' after heq w hw
    cases before with
    | nil =>
      rw [List.nil_append, List.cons.injEq] at heq
      exact h w (heq.2 ▸ hw)
    | cons _ before =>
      rw [List.cons_append, List.cons.injEq] at heq
      exact h w (by rw [heq.2]; simp [hw])

/-- Before the prelude. -/
theorem singleHead_handleClient (hs : s.ssePreludeSent = false) :
    SingleHead (gw.handleClient s attempts)
      ↔ ∀ turn ∈ gw.turns s attempts, ¬ gw.AnswersOutsideSse turn.1 turn.2 := by
  induction attempts generalizing s with
  | nil =>
    have hnil : SingleHead [] := ⟨Nat.zero_le 1, by simp⟩
    simpa [Gateway.handleClient, Gateway.turns] using hnil
  | cons a rest ih =>
    rw [Gateway.handleClient, Gateway.turns, List.forall_mem_cons]
    cases step_beforePrelude gw hs a with
    | waits hwrites hnext =>
      rw [hwrites, List.nil_append]
      cases hout : (gw.step s a).2 with
      | none =>
        have hnil : SingleHead [] := ⟨Nat.zero_le 1, by simp⟩
        simp [hnil, not_answersOutsideSse hs]
      | some next =>
        rw [Option.map_some, Option.map_some, Option.getD_some, Option.getD_some,
          ih (hnext next hout)]
        exact (and_iff_right (not_answersOutsideSse hs)).symm
    | replies hwrites hnext =>
      have hsingle := hwrites.singleHead
      simp [hnext, hsingle, not_answersOutsideSse hs]
    | opens hpath text stream hstream hwrites hnext =>
      rw [hwrites, List.cons_append, singleHead_prelude, List.forall_mem_append, hnext,
        and_iff_right hstream.1, and_iff_right (not_answersOutsideSse hs)]
      cases hout : stream.2 with
      | none => simp
      | some next => exact handleClient_afterPrelude hpath (hstream.2 next hout)

end

/-- One request gets one head, and nothing but events after the head of an event
stream, exactly if no turn of the run meets an answer outside of the stream after
the prelude. -/
theorem singleHead_iff {Stream : Type} (gw : Gateway Stream)
    (attempts : List (OpenAttempt Stream)) :
    SingleHead (gw.handleClient gw.start attempts)
      ↔ ∀ turn ∈ gw.turns gw.start attempts, ¬ gw.AnswersOutsideSse turn.1 turn.2 :=
  singleHead_handleClient rfl

/-- A gateway for `/v1/responses` whose upstream streams break off before the first
event. -/
def cutStreams : Gateway Unit where
  path := "/v1/responses"
  requestBody := "{}"
  continueBody := none
  rateLimitMaxRetries := 3
  serde := plainSerde
  bufferErrorBody := fun _ => ""
  forwardAgentSse := fun _ _ _ => ([], some .retryableBeforeFirstEvent)
  readFullBody := fun _ => some "{}"
  copySocket := fun _ => ""
  rewriteJsonBody := id
  shouldContinueIncompleteAgentTurn := fun _ _ _ _ => false
  appendIncompleteTurnContinuation := fun body _ => body
  syntheticCompactResponse := fun _ _ => .null
  sanitizeWithoutImages := id
  sanitizeAggressive := id
  forwardErrorExchange := fun _ => none

/-- A stream that is cut, and a retry that is answered with JSON: the client gets
the head of the JSON response inside its event stream. -/
theorem not_singleHead_of_json_retry :
    ¬ ∀ (gw : Gateway Unit) (attempts : List (OpenAttempt Unit)),
      SingleHead (gw.handleClient gw.start attempts) := by
  intro h
  have hrun := (h cutStreams
    [.answered ⟨200, "", [("content-type", "text/event-stream")], ()⟩,
      .answered ⟨200, "", [("content-type", "application/json")], ()⟩]).1
  revert hrun
  decide +kernel

end CodexRouter
