/-
# The text of an answer that is requested again

`handle_client` requests an answer again when its stream breaks off after nothing but text, as often as that happens.
Each attempt has a sink of its own, which goes on behind the text that the attempts before have delivered
(`sendAgain`).  What is written in all of them should read as one text: at every moment as the text of the attempt
that is under way, or as the text that was there before, as long as the attempt has not passed it.

`TracksText` is what an event preserves.  It asks that the text that goes out for an event reads as the delta of the event
(`StepFits`), which the sink takes for granted: the ids of a retry are replaced in the raw text of its events, where
they may stand in a key or in the type.
-/
import CodexRouter.IdRewrites

namespace CodexRouter

open Text

/-! ## What the client reads -/

section

variable (serde : Serde)

/-- The text that the client reads in what is written. -/
def readText : List String → String
  | [] => ""
  | text :: rest => sseVisibleOutputText serde text ++ readText rest

theorem readText_append (texts texts' : List String) :
    readText serde (texts ++ texts') = readText serde texts ++ readText serde texts' := by
  induction texts with
  | nil => rw [List.nil_append, readText, String.empty_append]
  | cons text rest ih => rw [List.cons_append, readText, readText, ih, String.append_assoc]

theorem readText_singleton (text : String) : readText serde [text] = sseVisibleOutputText serde text := by
  rw [readText, readText, String.append_empty]

/-- In a blank text nothing is read. -/
theorem sseVisibleOutputText_of_blank {text : String} (h : trim text = "") : sseVisibleOutputText serde text = "" := by
  have hpiece : ∀ piece ∈ lfBlocks (text.length + 1) text.toList,
      eventVisibleText serde (String.ofList piece) = "" := by
    intro piece hpiece
    have hblank : ∀ c ∈ piece, isWhitespace c = true := by
      intro c hc
      refine isWhitespace_of_trim h ?_
      rw [← flatten_lfBlocks (text.length + 1) text.toList]
      exact List.mem_flatten_of_mem hpiece hc
    have htrim : trim (String.ofList piece) = "" := by
      rw [trim, trimMatches, String.toList_ofList, List.dropWhile_eq_nil_iff.mpr hblank]
      rfl
    rw [eventVisibleText, sseEventType, sseEventData_of_blank serde htrim]
    rfl
  rw [sseVisibleOutputText]
  generalize lfBlocks (text.length + 1) text.toList = pieces at hpiece
  induction pieces with
  | nil => rfl
  | cons piece rest ih =>
    rw [List.forall_mem_cons] at hpiece
    rw [List.map_cons, join_empty_cons, hpiece.1, ih hpiece.2, String.append_empty]

end

/-! ## Attempts -/

section

variable (env : SinkEnv) (hold deepseek : Bool)

/-- The sink of an attempt, with the think scanner off. -/
def attemptSink (resume : Option StreamResume) : SseSink := .withPolicy resume none hold true deepseek

/-- The attempts of `handle_client` that were all sent again: where the next one resumes, and what they have written. -/
def sendAgain (resume : Option StreamResume) : List (List String) → Option (Option StreamResume × List String)
  | [] => some (resume, [])
  | events :: rest =>
    match (attemptSink hold deepseek resume).pushAll env events with
    | (s, texts, .continues) =>
      match s.eofOutcome with
      | .retryableBeforeFirstEvent => (sendAgain none rest).map fun later => (later.1, texts ++ later.2)
      | .retryableWithPrefix resume => (sendAgain (some resume) rest).map fun later => (later.1, texts ++ later.2)
      | _ => none
    | (_, _, .abortReconcile) => none

/-- What is written at the end of a stream that is complete: what was cut off behind its last event, and the
completion, if it was kept. -/
def SseSink.closing (s : SseSink) (carry : String) : String :=
  let (text, think) := rewriteSseTextWith env s.think carry
  match s.heldCompleted with
  | some held => text ++ held
  | none => text ++ (flushSseThink env think).1

variable (serde : Serde)

/-- The state of the retry with the item id that this event brings. -/
def ReconcileState.noteItem (recon : ReconcileState) (event : String) : ReconcileState :=
  if sseEventType serde event = some "response.output_text.delta" then
    { recon with retryItemId := recon.retryItemId.or (sseEventItemId serde event) }
  else recon

/-- The ids that are replaced in this event. -/
def SseSink.sendRewrites (s : SseSink) (event : String) : List (String × String) :=
  match s.reconcile with
  | none => []
  | some recon => s.retryRewrites (recon.noteItem serde event)

/-- The event is a completion that is kept. -/
def SseSink.holds (s : SseSink) (event : String) : Bool :=
  s.holdTextCompleted && sseEventType env.serde event = some "response.completed"
    && !(s.noteToolCalls env event).hadToolCall

/-- The text that goes out for an event, or is kept. -/
def SseSink.outgoing (s : SseSink) (event : String) : String :=
  let (text, think) := rewriteSseTextWith env s.think event
  replaceIds (s.sendRewrites env.serde event) (if s.holds env event then text ++ (flushSseThink env think).1 else text)

/-- A text goes out for the event: in a first attempt for every event, in a retry for those behind the delivered text
and for the last one. -/
def SseSink.Sends (s : SseSink) (event : String) : Prop :=
  sseEventIsRetryableInterrupt serde event = false ∧ ∀ recon, s.reconcile = some recon →
    ∃ kind, sseEventType serde event = some kind
      ∧ kind ∉ ["response.created", "response.in_progress", "response.output_item.added", "response.content_part.added"]
      ∧ (recon.caughtUp = true ∨ kind ∈ ["response.completed", "response.failed", "response.incomplete"]
        ∧ (kind = "response.completed" → recon.regenerated = recon.resume.resumePrefix))

/-- What goes out for the event reads as its delta, or as the part of it that is new. -/
structure StepFits (s : SseSink) (event : String) : Prop where
  keeps : s.Sends env.serde event →
    sseVisibleOutputText env.serde (s.outgoing env event) = eventVisibleText env.serde event
  passing : ∀ recon suffix, s.reconcile = some recon → recon.caughtUp = false →
    sseEventType env.serde event = some "response.output_text.delta" →
    recon.regenerated ++ sseEventDelta env.serde event = recon.resume.resumePrefix ++ suffix → suffix ≠ "" →
    ∃ rewritten, rewriteDeltaEvent env.serde event suffix (s.sendRewrites env.serde event) = some rewritten
      ∧ sseVisibleOutputText env.serde (rewriteSseTextWith env s.think rewritten).1 = suffix

/-- That holds of every event that is pushed. -/
def StepsFit (s : SseSink) : List String → Prop
  | [] => True
  | event :: rest => StepFits env s event
    ∧ ∀ s' texts, s.pushEvent env event = (s', texts, .continues) → StepsFit s' rest

/-- That holds in every attempt that is sent again. -/
def AttemptsFit (resume : Option StreamResume) : List (List String) → Prop
  | [] => True
  | events :: rest => StepsFit env (attemptSink hold deepseek resume) events
    ∧ ∀ resume' texts, sendAgain env hold deepseek resume [events] = some (resume', texts) → AttemptsFit resume' rest

end

/-! ## One event -/

section

variable {env : SinkEnv}

/-- What is read in a text that is written. -/
theorem readText_write (serde : Serde) (s : SseSink) (always : Bool) (text : String) :
    ∃ sent texts, s.write always text = ({ s with sentEvents := sent }, texts, .continues)
      ∧ readText serde texts = sseVisibleOutputText serde text
      ∧ (sent = false → always = false ∧ s.sentEvents = false ∧ readText serde texts = "") := by
  rw [SseSink.write]
  split
  · rename_i hblank
    refine ⟨_, [], rfl, (sseVisibleOutputText_of_blank serde hblank).symm, fun hsent => ?_⟩
    obtain ⟨hbefore, halways⟩ := Bool.or_eq_false_iff.mp hsent
    exact ⟨halways, hbefore, rfl⟩
  · exact ⟨true, [text], rfl, readText_singleton serde text, fun hsent => absurd hsent (by decide)⟩

/-- What is read of an event of the retry that is passed on. -/
theorem readText_forwardRetryEvent (env : SinkEnv) (s : SseSink) (recon : ReconcileState) (event : String) :
    ∃ think texts, s.forwardRetryEvent env recon event
        = ({ s with reconcile := some recon, think := think, sentEvents := true }, texts, .continues)
      ∧ readText env.serde texts
        = sseVisibleOutputText env.serde (applySseRewrites env s.think event (s.retryRewrites recon)).1 := by
  obtain ⟨sent, texts, hwrite, hread, hsent⟩ := readText_write env.serde
    { s with reconcile := some recon, think := (applySseRewrites env s.think event (s.retryRewrites recon)).2 } true
    (applySseRewrites env s.think event (s.retryRewrites recon)).1
  cases sent with
  | true => exact ⟨_, texts, hwrite, hread⟩
  | false => cases (hsent rfl).1

/-- The state of an attempt behind some events of it, with what it has written. -/
structure TracksText (serde : Serde) (start : String) (events texts : List String) (s : SseSink) : Prop where
  continuePoint : s.continuePoint = none
  delivered : s.deliveredText = start ++ readText serde texts
  fresh : s.reconcile = none → start = "" ∧ s.deliveredText = deltaText serde events
  behind : ∀ recon, s.reconcile = some recon → recon.caughtUp = false → recon.resume.resumePrefix = start
    ∧ s.deliveredText = start ∧ recon.regenerated = deltaText serde events
    ∧ (deltaText serde events).toList <+: start.toList
  past : ∀ recon, s.reconcile = some recon → recon.caughtUp = true → s.deliveredText = deltaText serde events
  sent : s.sentEvents = false → s.deliveredText = start
  held : ∀ held, s.heldCompleted = some held → sseVisibleOutputText serde held = ""
  ended : (∃ event ∈ events, sseEventType serde event = some "response.completed") →
    s.deliveredText = deltaText serde events

variable {start : String} {events texts texts' : List String} {s s' : SseSink} {event : String}

/-- An event without text, of which nothing is read. -/
theorem TracksText.silent (h : TracksText env.serde start events texts s) (htext : eventVisibleText env.serde event = "")
    (hread : readText env.serde texts' = "") (hpoint : s'.continuePoint = none)
    (hrecon : s'.reconcile.map (fun r => (r.resume, r.regenerated, r.caughtUp))
      = s.reconcile.map fun r => (r.resume, r.regenerated, r.caughtUp))
    (hdelivered : s'.deliveredText = s.deliveredText) (hsent : s'.sentEvents = false → s.sentEvents = false)
    (hheld : ∀ held, s'.heldCompleted = some held → sseVisibleOutputText env.serde held = "")
    (hended : sseEventType env.serde event = some "response.completed" → s.deliveredText = deltaText env.serde events) :
    TracksText env.serde start (events ++ [event]) (texts ++ texts') s' := by
  have hdelta : deltaText env.serde (events ++ [event]) = deltaText env.serde events := by
    rw [deltaText_append_singleton, htext, String.append_empty]
  have hback : ∀ recon, s'.reconcile = some recon → ∃ before, s.reconcile = some before
      ∧ before.resume = recon.resume ∧ before.regenerated = recon.regenerated ∧ before.caughtUp = recon.caughtUp := by
    intro recon heq
    rw [heq, Option.map_some] at hrecon
    obtain ⟨before, hbefore, hsame⟩ := Option.map_eq_some_iff.mp hrecon.symm
    rw [Prod.mk.injEq, Prod.mk.injEq] at hsame
    exact ⟨before, hbefore, hsame⟩
  refine ⟨hpoint, ?_, ?_, ?_, ?_, ?_, hheld, ?_⟩
  · rw [readText_append, hread, String.append_empty, hdelivered, h.delivered]
  · intro hnone
    rw [hnone, Option.map_none, eq_comm, Option.map_eq_none_iff] at hrecon
    rw [hdelivered, hdelta]
    exact h.fresh hrecon
  · intro recon heq hcaught
    obtain ⟨before, hbefore, hresume, hregenerated, hsame⟩ := hback recon heq
    rw [hdelivered, hdelta, ← hresume, ← hregenerated]
    exact h.behind before hbefore (hsame.trans hcaught)
  · intro recon heq hcaught
    obtain ⟨before, hbefore, -, -, hsame⟩ := hback recon heq
    rw [hdelivered, hdelta]
    exact h.past before hbefore (hsame.trans hcaught)
  · exact fun hno => hdelivered.trans (h.sent (hsent hno))
  · rintro ⟨ended, hmem, htype⟩
    rw [hdelivered, hdelta]
    rcases List.mem_append.mp hmem with hmem | hmem
    · exact h.ended ⟨ended, hmem, htype⟩
    · rw [List.mem_singleton] at hmem
      exact hended (hmem ▸ htype)

/-- An event whose text is read at once, in a first attempt or behind the text of the attempts before. -/
theorem TracksText.grows (h : TracksText env.serde start events texts s)
    (hread : readText env.serde texts' = eventVisibleText env.serde event) (hpoint : s'.continuePoint = none)
    (hdelivered : s'.deliveredText = s.deliveredText ++ eventVisibleText env.serde event)
    (hbefore : s.deliveredText = deltaText env.serde events)
    (hrecon : s'.reconcile = none ∧ start = "" ∨ ∃ recon, s'.reconcile = some recon ∧ recon.caughtUp = true)
    (hsent : s'.sentEvents = false → s.sentEvents = false ∧ eventVisibleText env.serde event = "")
    (hheld : ∀ held, s'.heldCompleted = some held → sseVisibleOutputText env.serde held = "") :
    TracksText env.serde start (events ++ [event]) (texts ++ texts') s' := by
  have hdelta : s'.deliveredText = deltaText env.serde (events ++ [event]) := by
    rw [hdelivered, hbefore, deltaText_append_singleton]
  refine ⟨hpoint, ?_, ?_, ?_, fun _ _ _ => hdelta, ?_, hheld, fun _ => hdelta⟩
  · rw [readText_append, hread, hdelivered, h.delivered, String.append_assoc]
  · intro hnone
    rcases hrecon with ⟨-, hstart⟩ | ⟨recon, hsome, -⟩
    · exact ⟨hstart, hdelta⟩
    · rw [hnone] at hsome
      cases hsome
  · intro recon heq hcaught
    rcases hrecon with ⟨hnone, -⟩ | ⟨recon', hsome, hcaught'⟩
    · rw [hnone] at heq
      cases heq
    · rw [hsome] at heq
      cases heq
      rw [hcaught] at hcaught'
      cases hcaught'
  · intro hno
    obtain ⟨hnot, hempty⟩ := hsent hno
    rw [hdelivered, hempty, String.append_empty, h.sent hnot]

/-- An event of a first attempt. -/
theorem pushFresh_tracks (h : TracksText env.serde start events texts s) (hfresh : s.reconcile = none)
    (hkeeps : sseVisibleOutputText env.serde (rewriteSseTextWith env s.think event).1
      = eventVisibleText env.serde event) :
    ∃ s' texts', s.pushFresh env event = (s', texts', .continues)
      ∧ TracksText env.serde start (events ++ [event]) (texts ++ texts') s' := by
  have hno : s.continueRewrites = [] := by
    rw [SseSink.continueRewrites, h.continuePoint]
    rfl
  obtain ⟨hstart, hbefore⟩ := h.fresh hfresh
  have happlied : applySseRewrites env s.think event s.continueRewrites = rewriteSseTextWith env s.think event := by
    rw [hno, applySseRewrites]
    rfl
  rw [SseSink.pushFresh, happlied]
  generalize rewriteSseTextWith env s.think event = rewritten at hkeeps
  obtain ⟨text, think⟩ := rewritten
  dsimp only
  obtain ⟨sent, texts', hwrite, hread, hsent⟩ := readText_write env.serde _ false text
  refine ⟨_, texts', hwrite, h.grows ?_ h.continuePoint ?_ hbefore (.inl ⟨hfresh, hstart⟩) ?_ h.held⟩
  · rw [hread, hkeeps]
  · rw [hkeeps]
  · intro hnot
    obtain ⟨-, hbefore, hempty⟩ := hsent hnot
    rw [hread, hkeeps] at hempty
    exact ⟨hbefore, hempty⟩

/-- A completion that is kept. -/
theorem hold_tracks (h : TracksText env.serde start events texts s) (rewrites : List (String × String))
    (htype : sseEventType env.serde event = some "response.completed")
    (hbefore : s.deliveredText = deltaText env.serde events)
    (hkeeps : sseVisibleOutputText env.serde (replaceIds rewrites ((rewriteSseTextWith env s.think event).1
      ++ (flushSseThink env (rewriteSseTextWith env s.think event).2).1)) = "") :
    ∃ s' texts', s.hold env event rewrites = (s', texts', .continues)
      ∧ TracksText env.serde start (events ++ [event]) (texts ++ texts') s' := by
  have htext : eventVisibleText env.serde event = "" := by
    rw [eventVisibleText, htype]
    rfl
  refine ⟨_, [], rfl, h.silent htext rfl h.continuePoint rfl rfl id ?_ fun _ => hbefore⟩
  intro held heq
  exact Option.some.inj heq ▸ hkeeps

/-- An event of a retry that is no delta is passed on. -/
theorem forwardRetryEvent_tracks (h : TracksText env.serde start events texts s) {recon : ReconcileState}
    (hrecon : s.reconcile = some recon) (terminal : Bool) (htext : eventVisibleText env.serde event = "")
    (hkeeps : sseVisibleOutputText env.serde (applySseRewrites env s.think event (s.retryRewrites recon)).1 = "")
    (hended : sseEventType env.serde event = some "response.completed" → s.deliveredText = deltaText env.serde events) :
    ∃ s' texts', { s with terminal := terminal }.forwardRetryEvent env recon event = (s', texts', .continues)
      ∧ TracksText env.serde start (events ++ [event]) (texts ++ texts') s' := by
  obtain ⟨think, texts', hforward, hread⟩ :=
    readText_forwardRetryEvent env { s with terminal := terminal } recon event
  refine ⟨_, texts', hforward, h.silent htext (hread.trans hkeeps) h.continuePoint ?_ rfl
    (fun hno => Bool.noConfusion hno) h.held hended⟩
  rw [hrecon]

/-- A delta of a retry. -/
theorem pushRetryDelta_tracks (h : TracksText env.serde start events texts s) {recon : ReconcileState}
    (hrecon : s.reconcile = some recon) (htype : sseEventType env.serde event = some "response.output_text.delta")
    (hkeeps : recon.caughtUp = true → sseVisibleOutputText env.serde (applySseRewrites env s.think event
      (s.retryRewrites (recon.noteItem env.serde event))).1 = eventVisibleText env.serde event)
    (hpassing : ∀ suffix, recon.caughtUp = false →
      recon.regenerated ++ sseEventDelta env.serde event = recon.resume.resumePrefix ++ suffix → suffix ≠ "" →
      ∃ rewritten, rewriteDeltaEvent env.serde event suffix (s.retryRewrites (recon.noteItem env.serde event))
          = some rewritten
        ∧ sseVisibleOutputText env.serde (rewriteSseTextWith env s.think rewritten).1 = suffix)
    (hpush : s.pushRetryDelta env recon event = (s', texts', .continues)) :
    TracksText env.serde start (events ++ [event]) (texts ++ texts') s' := by
  have hvisible : eventVisibleText env.serde event = sseEventDelta env.serde event := by
    rw [eventVisibleText, if_pos htype]
  have hdelta : deltaText env.serde (events ++ [event])
      = deltaText env.serde events ++ sseEventDelta env.serde event := by
    rw [deltaText_append_singleton, hvisible]
  have hnote : { recon with retryItemId := recon.retryItemId.or (sseEventItemId env.serde event) }
      = recon.noteItem env.serde event := by
    rw [ReconcileState.noteItem, if_pos htype]
  have hsame : (recon.noteItem env.serde event).resume = recon.resume
      ∧ (recon.noteItem env.serde event).regenerated = recon.regenerated
      ∧ (recon.noteItem env.serde event).caughtUp = recon.caughtUp := by
    rw [← hnote]
    exact ⟨rfl, rfl, rfl⟩
  rw [SseSink.pushRetryDelta, hnote] at hpush
  generalize recon.noteItem env.serde event = noted at hkeeps hpassing hsame hpush
  obtain ⟨hresume, hregenerated, hcaught⟩ := hsame
  dsimp only at hpush
  cases hbehind : recon.caughtUp with
  | true =>
    obtain ⟨think, texts₁, hforward, hread⟩ := readText_forwardRetryEvent env
      { s with
        deliveredText := s.deliveredText ++ sseEventDelta env.serde event
        turnText := s.turnText ++ sseEventDelta env.serde event } noted event
    rw [if_pos (hcaught.trans hbehind), hforward, Prod.mk.injEq, Prod.mk.injEq] at hpush
    obtain ⟨rfl, rfl, -⟩ := hpush
    exact h.grows (hread.trans (hkeeps hbehind)) h.continuePoint (by rw [hvisible]) (h.past recon hrecon hbehind)
      (.inr ⟨noted, rfl, hcaught.trans hbehind⟩) (fun hno => Bool.noConfusion hno) h.held
  | false =>
    obtain ⟨hstart, hdelivered, hregen, hbegins⟩ := h.behind recon hrecon hbehind
    rw [if_neg (by rw [hcaught, hbehind]; decide), hregenerated, hresume, hstart, hregen, ← hdelta] at hpush
    split at hpush
    -- The text before is regenerated.
    · split at hpush
      · rename_i hle hstarts
        rw [Prod.mk.injEq, Prod.mk.injEq] at hpush
        obtain ⟨rfl, rfl, -⟩ := hpush
        have hbegins' : (deltaText env.serde (events ++ [event])).toList <+: start.toList :=
          List.isPrefixOf_iff_prefix.mp hstarts
        refine ⟨h.continuePoint, ?_, fun hnone => absurd hnone (Option.some_ne_none _), ?_, ?_, h.sent, h.held, ?_⟩
        · rw [List.append_nil]
          exact h.delivered
        · intro recon' heq _
          cases heq
          exact ⟨hstart, hdelivered, rfl, hbegins'⟩
        · intro recon' heq hpast
          cases heq
          rw [hcaught, hbehind] at hpast
          cases hpast
        · rintro ⟨ended, hmem, hcompleted⟩
          -- a completion of this attempt has regenerated all of the text before
          have hfull : start = deltaText env.serde events := by
            rcases List.mem_append.mp hmem with hmem | hmem
            · exact hdelivered.symm.trans (h.ended ⟨ended, hmem, hcompleted⟩)
            · rw [List.mem_singleton.mp hmem, htype] at hcompleted
              exact absurd (Option.some.inj hcompleted) (by decide)
          have hall : (deltaText env.serde events).toList <+: (deltaText env.serde (events ++ [event])).toList := by
            rw [hdelta, String.toList_append]
            exact List.prefix_append _ _
          rw [← hfull] at hall
          exact hdelivered.trans (String.toList_injective (hall.eq_of_length_le hbegins'.length_le))
      · cases hpush
    -- The delta gets beyond it.
    · split at hpush
      · rename_i hlonger hstarts
        obtain ⟨rest, hrest⟩ := List.isPrefixOf_iff_prefix.mp hstarts
        have hsuffix : (deltaText env.serde (events ++ [event])).toList.drop start.length = rest := by
          rw [← hrest, ← String.length_toList, List.drop_left]
        have hwhole : deltaText env.serde (events ++ [event]) = start ++ String.ofList rest := by
          refine String.toList_injective ?_
          rw [String.toList_append, String.toList_ofList, hrest]
        have hne : String.ofList rest ≠ "" := by
          intro hempty
          rw [hwhole, hempty, String.append_empty] at hlonger
          exact hlonger (Nat.le_refl _)
        obtain ⟨rewritten, hrewritten, hreads⟩ := hpassing _ hbehind (by rw [hregen, ← hdelta, hstart, hwhole]) hne
        have hids : ∀ (s₁ : SseSink) (recon' : ReconcileState), (s₁.responseId, s₁.itemId) = (s.responseId, s.itemId) →
            (recon'.retryResponseId, recon'.retryItemId) = (noted.retryResponseId, noted.retryItemId) →
            s₁.retryRewrites recon' = s.retryRewrites noted := by
          intro s₁ recon' hknown hretry
          rw [Prod.mk.injEq] at hknown hretry
          rw [SseSink.retryRewrites, SseSink.retryRewrites, hknown.1, hknown.2, hretry.1, hretry.2]
        rw [hsuffix, hids] at hpush
        rotate_left
        · rfl
        · rfl
        rw [hrewritten] at hpush
        dsimp only at hpush
        rw [Prod.mk.injEq, Prod.mk.injEq] at hpush
        obtain ⟨rfl, rfl, -⟩ := hpush
        have hdelta' : s.deliveredText ++ String.ofList rest = deltaText env.serde (events ++ [event]) := by
          rw [hdelivered, hwhole]
        refine ⟨h.continuePoint, ?_, fun hnone => absurd hnone (Option.some_ne_none _), ?_, fun _ _ _ => hdelta',
          fun hno => Bool.noConfusion hno, h.held, fun _ => hdelta'⟩
        · rw [readText_append, readText_singleton, hreads, ← String.append_assoc, ← h.delivered]
        · intro recon' heq hnot
          cases heq
          cases hnot
      · cases hpush

/-- The end of a retry. -/
theorem pushRetryEnd_tracks (h : TracksText env.serde start events texts s) {recon : ReconcileState}
    (hrecon : s.reconcile = some recon) {kind : String} (htype : sseEventType env.serde event = some kind)
    (hkind : kind ∈ ["response.completed", "response.failed", "response.incomplete"]) {holdCompleted : Bool}
    (hhold : holdCompleted = true → kind = "response.completed")
    (hkeeps : (recon.caughtUp = true ∨ (kind = "response.completed" → recon.regenerated = recon.resume.resumePrefix)) →
      sseVisibleOutputText env.serde (replaceIds (s.retryRewrites recon) (if holdCompleted then
        (rewriteSseTextWith env s.think event).1 ++ (flushSseThink env (rewriteSseTextWith env s.think event).2).1
        else (rewriteSseTextWith env s.think event).1)) = "")
    (hpush : s.pushRetryEnd env recon holdCompleted kind event = (s', texts', .continues)) :
    TracksText env.serde start (events ++ [event]) (texts ++ texts') s' := by
  have htext : eventVisibleText env.serde event = "" := by
    rw [eventVisibleText, if_neg]
    rw [htype]
    rintro heq
    rw [Option.some.inj heq] at hkind
    exact absurd hkind (by decide)
  rw [SseSink.pushRetryEnd] at hpush
  split at hpush
  · cases hpush
  · rename_i hgoes
    have hread : recon.caughtUp = true ∨ (kind = "response.completed" → recon.regenerated = recon.resume.resumePrefix) := by
      cases hcaught : recon.caughtUp with
      | true => exact .inl rfl
      | false => exact .inr fun hcompleted => not_not.mp fun hne => hgoes ⟨hcaught, hcompleted, hne⟩
    have hended : sseEventType env.serde event = some "response.completed" →
        s.deliveredText = deltaText env.serde events := by
      intro hcompleted
      rw [htype, Option.some.injEq] at hcompleted
      cases hcaught : recon.caughtUp with
      | true => exact h.past recon hrecon hcaught
      | false =>
        obtain ⟨hstart, hdelivered, hregen, -⟩ := h.behind recon hrecon hcaught
        rcases hread with hpast | hfull
        · rw [hcaught] at hpast
          cases hpast
        · rw [hdelivered, ← hregen, hfull hcompleted, hstart]
    have hkeeps' := hkeeps hread
    cases holdCompleted with
    | true =>
      have hcompleted : sseEventType env.serde event = some "response.completed" := by rw [htype, hhold rfl]
      obtain ⟨s₁, texts₁, hheld, htracks⟩ := hold_tracks h (s.retryRewrites recon) hcompleted (hended hcompleted) hkeeps'
      rw [if_pos rfl, hheld, Prod.mk.injEq, Prod.mk.injEq] at hpush
      obtain ⟨rfl, rfl, -⟩ := hpush
      exact htracks
    | false =>
      obtain ⟨s₁, texts₁, hforward, htracks⟩ := forwardRetryEvent_tracks h hrecon true htext hkeeps' hended
      rw [if_neg (by decide), hforward, Prod.mk.injEq, Prod.mk.injEq] at hpush
      obtain ⟨rfl, rfl, -⟩ := hpush
      exact htracks

/-- An event of a retry. -/
theorem pushReconcile_tracks (h : TracksText env.serde start events texts s) {recon : ReconcileState}
    (hrecon : s.reconcile = some recon) {kind : String} (htype : sseEventType env.serde event = some kind)
    {holdCompleted : Bool} (hhold : holdCompleted = true → kind = "response.completed")
    (hkeeps : kind ∉ ["response.created", "response.in_progress", "response.output_item.added",
        "response.content_part.added"] →
      (recon.caughtUp = true ∨ kind ∈ ["response.completed", "response.failed", "response.incomplete"]
        ∧ (kind = "response.completed" → recon.regenerated = recon.resume.resumePrefix)) →
      sseVisibleOutputText env.serde (replaceIds (s.retryRewrites (recon.noteItem env.serde event)) (if holdCompleted then
        (rewriteSseTextWith env s.think event).1 ++ (flushSseThink env (rewriteSseTextWith env s.think event).2).1
        else (rewriteSseTextWith env s.think event).1)) = eventVisibleText env.serde event)
    (hpassing : ∀ suffix, recon.caughtUp = false → sseEventType env.serde event = some "response.output_text.delta" →
      recon.regenerated ++ sseEventDelta env.serde event = recon.resume.resumePrefix ++ suffix → suffix ≠ "" →
      ∃ rewritten, rewriteDeltaEvent env.serde event suffix (s.retryRewrites (recon.noteItem env.serde event))
          = some rewritten
        ∧ sseVisibleOutputText env.serde (rewriteSseTextWith env s.think rewritten).1 = suffix)
    (hpush : s.pushReconcile env recon holdCompleted kind event = (s', texts', .continues)) :
    TracksText env.serde start (events ++ [event]) (texts ++ texts') s' := by
  have hsilent : kind ≠ "response.output_text.delta" → eventVisibleText env.serde event = "" := by
    intro hne
    rw [eventVisibleText, htype, if_neg (by rwa [Option.some.injEq])]
  have hnote : kind ≠ "response.output_text.delta" → recon.noteItem env.serde event = recon := by
    intro hne
    rw [ReconcileState.noteItem, htype, if_neg (by rwa [Option.some.injEq])]
  have hstays : ∀ s₁ : SseSink, s₁.continuePoint = s.continuePoint → s₁.deliveredText = s.deliveredText →
      s₁.sentEvents = s.sentEvents → s₁.heldCompleted = s.heldCompleted →
      s₁.reconcile.map (fun r => (r.resume, r.regenerated, r.caughtUp))
        = s.reconcile.map (fun r => (r.resume, r.regenerated, r.caughtUp)) →
      kind ≠ "response.output_text.delta" → kind ≠ "response.completed" → (s₁, ([] : List String), SseFlow.continues)
        = (s', texts', .continues) → TracksText env.serde start (events ++ [event]) (texts ++ texts') s' := by
    intro s₁ hpoint hdelivered hsent hheld hsame hne hopen heq
    rw [Prod.mk.injEq, Prod.mk.injEq] at heq
    obtain ⟨rfl, rfl, -⟩ := heq
    refine h.silent (hsilent hne) rfl (hpoint.trans h.continuePoint) hsame hdelivered (fun hno => hsent ▸ hno)
      (hheld ▸ h.held) ?_
    intro hcompleted
    rw [htype, Option.some.injEq] at hcompleted
    exact absurd hcompleted hopen
  rw [SseSink.pushReconcile] at hpush
  split at hpush
  · rename_i hcreated
    refine hstays { s with reconcile := some { recon with retryResponseId := sseEventResponseId env.serde event } }
      rfl rfl rfl rfl ?_ (by rw [hcreated]; decide) (by rw [hcreated]; decide) hpush
    rw [hrecon]
    rfl
  rename_i hcreated
  split at hpush
  · rename_i hprogress
    exact hstays _ rfl rfl rfl rfl rfl (by rw [hprogress]; decide) (by rw [hprogress]; decide) hpush
  rename_i hprogress
  split at hpush
  · rename_i hadded
    split at hpush
    · cases hpush
    · exact hstays _ rfl rfl rfl rfl rfl (by rw [hadded]; decide) (by rw [hadded]; decide) hpush
  rename_i hadded
  split at hpush
  · rename_i hpart
    exact hstays _ rfl rfl rfl rfl rfl (by rw [hpart]; decide) (by rw [hpart]; decide) hpush
  rename_i hpart
  have hpassed : kind ∉ ["response.created", "response.in_progress", "response.output_item.added",
      "response.content_part.added"] := by
    simp [hcreated, hprogress, hadded, hpart]
  split at hpush
  · rename_i hdelta
    have hopen : holdCompleted = false := by
      rw [← Bool.not_eq_true]
      intro hcompleted
      rw [hhold hcompleted] at hdelta
      exact absurd hdelta (by decide)
    rw [hopen] at hkeeps
    exact pushRetryDelta_tracks h hrecon (hdelta ▸ htype) (fun hcaught => hkeeps hpassed (.inl hcaught))
      (fun suffix hcaught => hpassing suffix hcaught (hdelta ▸ htype)) hpush
  rename_i hdelta
  rw [hsilent hdelta, hnote hdelta] at hkeeps
  split at hpush
  · rename_i hend
    exact pushRetryEnd_tracks h hrecon htype hend hhold
      (fun hread => hkeeps hpassed (hread.imp_right fun hfull => ⟨hend, hfull⟩)) hpush
  rename_i hend
  have hopen : kind ≠ "response.completed" := fun hcompleted => hend (by rw [hcompleted]; decide)
  have hwritten : holdCompleted = false := by
    rw [← Bool.not_eq_true]
    exact fun hcompleted => hopen (hhold hcompleted)
  rw [hwritten] at hkeeps
  have hforwards : recon.caughtUp = true → s.forwardRetryEvent env recon event = (s', texts', .continues) →
      TracksText env.serde start (events ++ [event]) (texts ++ texts') s' := by
    intro hcaught heq
    obtain ⟨s₁, texts₁, hforward, htracks⟩ := forwardRetryEvent_tracks h hrecon s.terminal (hsilent hdelta)
      (hkeeps hpassed (.inl hcaught)) fun hcompleted => absurd (Option.some.inj (htype.symm.trans hcompleted)) hopen
    rw [heq, Prod.mk.injEq, Prod.mk.injEq] at hforward
    obtain ⟨rfl, rfl, -⟩ := hforward
    exact htracks
  split at hpush
  · split at hpush
    · rename_i hcaught
      exact hforwards hcaught hpush
    · exact hstays _ rfl rfl rfl rfl rfl hdelta hopen hpush
  · split at hpush
    · rename_i hcaught
      exact hforwards hcaught hpush
    · cases hpush

/-- The notes on tool calls do not matter. -/
theorem noteToolCalls_tracks (h : TracksText env.serde start events texts s) (event : String) :
    TracksText env.serde start events texts (s.noteToolCalls env event)
      ∧ (s.noteToolCalls env event).reconcile = s.reconcile ∧ (s.noteToolCalls env event).think = s.think
      ∧ (s.noteToolCalls env event).continueRewrites = []
      ∧ ∀ recon, (s.noteToolCalls env event).retryRewrites recon = s.retryRewrites recon := by
  obtain ⟨had, only, hnote⟩ := noteToolCalls_eq env s event
  rw [hnote]
  refine ⟨⟨h.continuePoint, h.delivered, h.fresh, h.behind, h.past, h.sent, h.held, h.ended⟩, rfl, rfl, ?_, fun _ => rfl⟩
  rw [SseSink.continueRewrites, h.continuePoint]
  rfl

theorem SseSink.outgoing_eq (env : SinkEnv) (s : SseSink) (event : String) :
    s.outgoing env event = replaceIds (s.sendRewrites env.serde event) (if s.holds env event then
      (rewriteSseTextWith env s.think event).1 ++ (flushSseThink env (rewriteSseTextWith env s.think event).2).1
      else (rewriteSseTextWith env s.think event).1) := rfl

theorem SseSink.completed_of_holds (h : s.holds env event = true) :
    sseEventType env.serde event = some "response.completed" := by
  rw [SseSink.holds, Bool.and_eq_true, Bool.and_eq_true, decide_eq_true_eq] at h
  exact h.1.2

/-- An event of a first attempt is written, or it is a completion that is kept. -/
theorem pushFirst_tracks (h : TracksText env.serde start events texts s) (hfresh : s.reconcile = none) {kept : Bool}
    (hkept : kept = true → sseEventType env.serde event = some "response.completed")
    (hkeeps : sseVisibleOutputText env.serde (if kept then (rewriteSseTextWith env s.think event).1
        ++ (flushSseThink env (rewriteSseTextWith env s.think event).2).1
      else (rewriteSseTextWith env s.think event).1) = eventVisibleText env.serde event)
    (hpush : (if kept then s.hold env event [] else s.pushFresh env event) = (s', texts', .continues)) :
    TracksText env.serde start (events ++ [event]) (texts ++ texts') s' := by
  cases kept with
  | true =>
    have htext : eventVisibleText env.serde event = "" := by
      rw [eventVisibleText, hkept rfl]
      rfl
    rw [if_pos rfl, htext] at hkeeps
    obtain ⟨s₁, texts₁, hheld, htracks⟩ := hold_tracks h [] (hkept rfl) (h.fresh hfresh).2 hkeeps
    rw [if_pos rfl, hheld, Prod.mk.injEq, Prod.mk.injEq] at hpush
    obtain ⟨rfl, rfl, -⟩ := hpush
    exact htracks
  | false =>
    obtain ⟨s₁, texts₁, hwritten, htracks⟩ := pushFresh_tracks h hfresh hkeeps
    rw [if_neg (by decide), hwritten, Prod.mk.injEq, Prod.mk.injEq] at hpush
    obtain ⟨rfl, rfl, -⟩ := hpush
    exact htracks

/-- What every event preserves. -/
theorem pushEvent_tracks (h : TracksText env.serde start events texts s) (hfits : StepFits env s event)
    (hpush : s.pushEvent env event = (s', texts', .continues)) :
    TracksText env.serde start (events ++ [event]) (texts ++ texts') s' := by
  by_cases hinterrupt : sseEventIsRetryableInterrupt env.serde event = true
  -- An interrupt is swallowed.
  · have htype := type_of_interrupt hinterrupt
    rw [SseSink.pushEvent, if_pos hinterrupt, Prod.mk.injEq, Prod.mk.injEq] at hpush
    obtain ⟨rfl, rfl, -⟩ := hpush
    refine h.silent ?_ rfl h.continuePoint rfl rfl id h.held fun hcompleted => ?_
    · rw [eventVisibleText, htype]
      rfl
    · rw [htype] at hcompleted
      exact absurd (Option.some.inj hcompleted) (by decide)
  · have hgoes := Bool.not_eq_true _ ▸ hinterrupt
    have hkeeps := hfits.keeps
    have hpassing := hfits.passing
    rw [SseSink.outgoing_eq, SseSink.sendRewrites] at hkeeps
    rw [SseSink.sendRewrites] at hpassing
    rw [pushEvent_eq h.continuePoint hinterrupt, ← SseSink.holds, SseSink.pushEvent.push.eq_def] at hpush
    obtain ⟨htracks, hrecon, hthink, hno, hids⟩ := noteToolCalls_tracks h event
    generalize s.noteToolCalls env event = s₁ at hpush htracks hrecon hthink hno hids
    rw [hno] at hpush
    cases hstate : s.reconcile with
    | none =>
      simp only [hrecon, hstate] at hpush
      rw [hstate, ← hthink] at hkeeps
      refine pushFirst_tracks htracks (hrecon.trans hstate) SseSink.completed_of_holds (hkeeps ⟨hgoes, ?_⟩) hpush
      intro recon heq
      rw [hstate] at heq
      cases heq
    | some recon =>
      rw [hstate, ← hthink] at hkeeps hpassing
      simp only [← hids] at hkeeps hpassing
      cases htype : sseEventType env.serde event with
      | none =>
        simp only [hrecon, hstate, htype, Prod.mk.injEq] at hpush
        obtain ⟨rfl, rfl, -⟩ := hpush
        refine htracks.silent ?_ rfl htracks.continuePoint rfl rfl id htracks.held fun hcompleted => ?_
        · rw [eventVisibleText, htype]
          rfl
        · rw [htype] at hcompleted
          cases hcompleted
      | some kind =>
        simp only [hrecon, hstate, htype] at hpush
        refine pushReconcile_tracks htracks (hrecon.trans hstate) htype ?_ ?_ ?_ hpush
        · exact fun hholds => Option.some.inj (htype.symm.trans (SseSink.completed_of_holds hholds))
        · intro hpassed hread
          refine hkeeps ⟨hgoes, fun recon' heq => ⟨kind, htype, hpassed, ?_⟩⟩
          rw [hstate, Option.some.injEq] at heq
          exact heq ▸ hread
        · exact fun suffix => hpassing recon suffix rfl

/-! ### An event that diverges -/

theorem write_ne_abort (s : SseSink) (always : Bool) (text : String) :
    s.write always text ≠ (s', texts', .abortReconcile) := by
  rw [SseSink.write]
  split
  · intro heq
    cases heq
  · intro heq
    cases heq

theorem forwardRetryEvent_ne_abort (s : SseSink) (recon : ReconcileState) :
    s.forwardRetryEvent env recon event ≠ (s', texts', .abortReconcile) := by
  rw [SseSink.forwardRetryEvent]
  exact write_ne_abort _ _ _

theorem pushFresh_ne_abort (s : SseSink) : s.pushFresh env event ≠ (s', texts', .abortReconcile) := by
  rw [SseSink.pushFresh]
  exact write_ne_abort _ _ _

theorem pushRetryDelta_aborts {recon : ReconcileState}
    (hpush : s.pushRetryDelta env recon event = (s', texts', .abortReconcile)) :
    texts' = [] ∧ s'.deliveredText = s.deliveredText := by
  rw [SseSink.pushRetryDelta] at hpush
  dsimp only at hpush
  split at hpush
  · exact absurd hpush (forwardRetryEvent_ne_abort _ _)
  · split at hpush
    · split at hpush
      · cases hpush
      · cases hpush
        exact ⟨rfl, rfl⟩
    · split at hpush
      · split at hpush <;> cases hpush
      · cases hpush
        exact ⟨rfl, rfl⟩

theorem pushReconcile_aborts {recon : ReconcileState} {holdCompleted : Bool} {kind : String}
    (hpush : s.pushReconcile env recon holdCompleted kind event = (s', texts', .abortReconcile)) :
    texts' = [] ∧ s'.deliveredText = s.deliveredText := by
  rw [SseSink.pushReconcile] at hpush
  split at hpush
  · cases hpush
  split at hpush
  · cases hpush
  split at hpush
  · split at hpush
    · cases hpush
      exact ⟨rfl, rfl⟩
    · cases hpush
  split at hpush
  · cases hpush
  split at hpush
  · exact pushRetryDelta_aborts hpush
  split at hpush
  · rw [SseSink.pushRetryEnd] at hpush
    split at hpush
    · cases hpush
      exact ⟨rfl, rfl⟩
    · split at hpush
      · cases hpush
      · exact absurd hpush (forwardRetryEvent_ne_abort _ _)
  split at hpush
  · split at hpush
    · exact absurd hpush (forwardRetryEvent_ne_abort _ _)
    · cases hpush
  · split at hpush
    · exact absurd hpush (forwardRetryEvent_ne_abort _ _)
    · cases hpush
      exact ⟨rfl, rfl⟩

/-- Of an event that diverges nothing is written. -/
theorem pushEvent_aborts (hpoint : s.continuePoint = none)
    (hpush : s.pushEvent env event = (s', texts', .abortReconcile)) :
    texts' = [] ∧ s'.deliveredText = s.deliveredText := by
  by_cases hinterrupt : sseEventIsRetryableInterrupt env.serde event = true
  · rw [SseSink.pushEvent, if_pos hinterrupt] at hpush
    cases hpush
  · have hdelivered : (s.noteToolCalls env event).deliveredText = s.deliveredText := by
      obtain ⟨had, only, hnote⟩ := noteToolCalls_eq env s event
      rw [hnote]
    rw [pushEvent_eq hpoint hinterrupt, SseSink.pushEvent.push.eq_def] at hpush
    split at hpush
    · split at hpush
      · cases hpush
      · exact absurd hpush (pushFresh_ne_abort _)
    · cases hpush
    · rw [← hdelivered]
      exact pushReconcile_aborts hpush

/-! ## Runs -/

/-- What the events of an attempt preserve. -/
theorem pushAll_tracks {back : List String} (h : TracksText env.serde start events texts s) (hfits : StepsFit env s back)
    (hpush : s.pushAll env back = (s', texts', .continues)) :
    TracksText env.serde start (events ++ back) (texts ++ texts') s' := by
  induction back generalizing events texts s texts' with
  | nil =>
    cases hpush
    rw [List.append_nil, List.append_nil]
    exact h
  | cons event back ih =>
    obtain ⟨hfirst, hrest⟩ := hfits
    rw [SseSink.pushAll] at hpush
    split at hpush
    · cases hpush
    · rename_i s₁ texts₁ hevent
      have htracks := pushEvent_tracks h hfirst hevent
      obtain ⟨s₂, texts₂, hpushed⟩ : ∃ s₂ texts₂, s₁.pushAll env back = (s₂, texts₂, .continues)
          ∧ s₂ = s' ∧ texts₁ ++ texts₂ = texts' := by
        rw [Prod.mk.injEq, Prod.mk.injEq] at hpush
        exact ⟨_, _, Prod.ext rfl (Prod.ext rfl hpush.2.2), hpush.1, hpush.2.1⟩
      obtain ⟨hpushed, rfl, rfl⟩ := hpushed
      have hall := ih htracks (hrest s₁ texts₁ hevent) hpushed
      rwa [List.append_assoc, List.append_assoc, List.singleton_append] at hall

/-- The text that the attempts before have delivered. -/
def startText (resume : Option StreamResume) : String := (resume.map (·.resumePrefix)).getD ""

theorem attemptSink_tracks (serde : Serde) (hold deepseek : Bool) (resume : Option StreamResume) :
    TracksText serde (startText resume) [] [] (attemptSink hold deepseek resume) := by
  have hheld : ∀ held, (none : Option String) = some held → sseVisibleOutputText serde held = "" := by
    intro held heq
    cases heq
  have hended : (∃ event ∈ ([] : List String), sseEventType serde event = some "response.completed") →
      startText resume = deltaText serde [] := by
    rintro ⟨event, hmem, -⟩
    exact absurd hmem List.not_mem_nil
  cases resume with
  | none =>
    refine ⟨rfl, rfl, fun _ => ⟨rfl, rfl⟩, ?_, ?_, fun _ => rfl, hheld, hended⟩
    · intro recon heq _
      cases heq
    · intro recon heq _
      cases heq
  | some resume =>
    refine ⟨rfl, (String.append_empty).symm, fun hnone => absurd hnone (Option.some_ne_none _), ?_, ?_, fun _ => rfl,
      hheld, hended⟩
    · intro recon heq _
      cases heq
      exact ⟨rfl, rfl, rfl, List.nil_prefix⟩
    · intro recon heq hcaught
      cases heq
      cases hcaught

section

variable {hold deepseek : Bool} {resume resume' : Option StreamResume} {attempts : List (List String)}

/-- An attempt that is cut behind some text. -/
theorem sendAgain_of_outcome {point : StreamResume}
    (hpush : (attemptSink hold deepseek resume).pushAll env events = (s, texts, .continues))
    (houtcome : s.eofOutcome = .retryableWithPrefix point) :
    sendAgain env hold deepseek resume [events] = some (some point, texts) := by
  simp only [sendAgain, hpush, houtcome, Option.map_some, List.append_nil]

/-- An attempt that is sent again: where the next one resumes. -/
theorem sendAgain_cons {rest : List (List String)} {written : List String}
    (h : sendAgain env hold deepseek resume (events :: rest) = some (resume', written)) :
    ∃ s texts next later, (attemptSink hold deepseek resume).pushAll env events = (s, texts, .continues)
      ∧ sendAgain env hold deepseek resume [events] = some (next, texts)
      ∧ (s.eofOutcome = .retryableBeforeFirstEvent ∧ next = none
        ∨ ∃ point, s.eofOutcome = .retryableWithPrefix point ∧ next = some point)
      ∧ sendAgain env hold deepseek next rest = some (resume', later) ∧ written = texts ++ later := by
  rw [sendAgain] at h
  split at h
  · rename_i s texts hpush
    split at h
    · rename_i houtcome
      obtain ⟨⟨_, later⟩, hlater, heq⟩ := Option.map_eq_some_iff.mp h
      cases heq
      refine ⟨s, texts, none, later, hpush, ?_, .inl ⟨houtcome, rfl⟩, hlater, rfl⟩
      simp only [sendAgain, hpush, houtcome, Option.map_some, List.append_nil]
    · rename_i point houtcome
      obtain ⟨⟨_, later⟩, hlater, heq⟩ := Option.map_eq_some_iff.mp h
      cases heq
      exact ⟨s, texts, some point, later, hpush, sendAgain_of_outcome hpush houtcome, .inr ⟨point, houtcome, rfl⟩, hlater,
        rfl⟩
    · cases h
  · cases h

/-- Before its first event is written, a first attempt has delivered nothing. -/
theorem TracksText.start_of_outcome (h : TracksText env.serde start events texts s)
    (houtcome : s.eofOutcome = .retryableBeforeFirstEvent) : s.deliveredText = "" := by
  rw [SseSink.eofOutcome] at houtcome
  split at houtcome
  · cases houtcome
  · split at houtcome
    · cases houtcome
    · split at houtcome
      · cases houtcome
      · split at houtcome
        · cases houtcome
        · rename_i hrecon
          have hfresh : s.reconcile = none := Option.not_isSome_iff_eq_none.mp hrecon
          split at houtcome
          · rename_i hsent
            rw [h.sent (by simpa using hsent), (h.fresh hfresh).1]
          · split at houtcome <;> cases houtcome

/-- The text that is to be resumed is the one that was delivered. -/
theorem deliveredText_of_outcome {point : StreamResume} (houtcome : s.eofOutcome = .retryableWithPrefix point) :
    point.resumePrefix = s.deliveredText := by
  have hpoint : point = s.resumePoint := by
    rw [SseSink.eofOutcome] at houtcome
    repeat' split at houtcome
    all_goals first | cases houtcome; rfl | cases houtcome
  rw [hpoint, SseSink.resumePoint]

/-- What is read of the attempts that were sent again. -/
theorem readText_sendAgain {written : List String} (hfits : AttemptsFit env hold deepseek resume attempts)
    (h : sendAgain env hold deepseek resume attempts = some (resume', written)) :
    startText resume ++ readText env.serde written = startText resume' := by
  induction attempts generalizing resume written with
  | nil =>
    cases h
    exact String.append_empty
  | cons events rest ih =>
    obtain ⟨s, texts, next, later, hpush, hone, houtcome, hlater, rfl⟩ := sendAgain_cons h
    have htracks := pushAll_tracks (attemptSink_tracks env.serde hold deepseek resume) hfits.1 hpush
    have hdelivered := htracks.delivered
    rw [List.nil_append] at hdelivered
    have hnext : startText next = s.deliveredText := by
      rcases houtcome with ⟨hbefore, rfl⟩ | ⟨point, hprefix, rfl⟩
      · exact (htracks.start_of_outcome hbefore).symm
      · exact deliveredText_of_outcome hprefix
    rw [readText_append, ← String.append_assoc, ← hdelivered, ← hnext]
    exact ih (hfits.2 next texts hone) hlater

end

end

/-! ## Attempts of plain text -/

section

variable {env : SinkEnv} {t : SseThink} {resume : StreamResume} {front : List String} {s : SseSink} {event : String}

theorem SseSink.holds_of_ne (h : sseEventType env.serde event ≠ some "response.completed") :
    s.holds env event = false := by
  rw [← Bool.not_eq_true]
  exact fun hholds => h (SseSink.completed_of_holds hholds)

/-- A plain event fits in a first attempt. -/
theorem PlainEvent.stepFits (h : PlainEvent env t event) (hthink : s.think = t) (hfresh : s.reconcile = none) :
    StepFits env s event := by
  constructor
  · intro _
    rw [SseSink.outgoing_eq, SseSink.holds_of_ne h.not_completed, if_neg (by decide), SseSink.sendRewrites, hfresh,
      hthink, h.unchanged]
    exact sseVisibleOutputText_of_complete env.serde h.complete
  · intro recon suffix heq
    rw [hfresh] at heq
    cases heq

/-- Plain events fit in a first attempt. -/
theorem stepsFit_of_plain {before events : List String} (h : Freshly env t before s)
    (hplain : ∀ event ∈ events, PlainEvent env t event) : StepsFit env s events := by
  induction events generalizing before s with
  | nil => trivial
  | cons event rest ih =>
    rw [List.forall_mem_cons] at hplain
    obtain ⟨s₁, texts₁, hpush, hfresh, -⟩ := pushEvent_fresh h hplain.1
    refine ⟨hplain.1.stepFits h.think h.reconcile, fun s' texts heq => ?_⟩
    rw [hpush, Prod.mk.injEq] at heq
    exact heq.1 ▸ ih hfresh hplain.2

/-- The text that the client should read of an event of a retry. -/
def newText (serde : Serde) (resume : StreamResume) (front : List String) (event : String) : String :=
  if Passes serde resume front event then
    String.ofList ((deltaText serde (front ++ [event])).toList.drop resume.resumePrefix.length)
  else eventVisibleText serde event

/-- An event of a retry fits if it is read with the ids that the client knows as it was. -/
theorem Reconciling.stepFits (h : Reconciling env t resume front s) (hflush : (flushSseThink env t).1 = "")
    (hunchanged : rewriteSseTextWith env t event = (event, t))
    (hpassing : Passes env.serde resume front event →
      rewriteSseTextWith env t (renamedEvent env.serde resume front event)
        = (renamedEvent env.serde resume front event, t))
    (hreads : sseVisibleOutputText env.serde (renamedEvent env.serde resume front event)
      = newText env.serde resume front event) : StepFits env s event := by
  obtain ⟨regenerated, hrecon, hregenerated⟩ := h.recon
  have hpairs : sseEventType env.serde event ≠ some "response.created" → s.sendRewrites env.serde event
      = idPairs (retryIds env.serde (front ++ [event])) (resume.responseId, resume.itemId) := by
    intro hcreated
    rw [SseSink.sendRewrites, hrecon, retryIds_append, noteRetryIds, if_neg hcreated]
    dsimp only
    rw [ReconcileState.noteItem]
    split
    · rw [SseSink.retryRewrites, h.responseId, h.itemId]
      rfl
    · rw [SseSink.retryRewrites, h.responseId, h.itemId]
      rfl
  constructor
  · rintro ⟨-, hsends⟩
    obtain ⟨kind, htype, hpassed, hread⟩ := hsends _ hrecon
    have hcreated : sseEventType env.serde event ≠ some "response.created" := by
      rw [htype]
      intro heq
      rw [Option.some.inj heq] at hpassed
      exact hpassed List.mem_cons_self
    have hnot : ¬ Passes env.serde resume front event := by
      rintro ⟨hdelta, hbefore, -⟩
      rcases hread with hcaught | ⟨hend, -⟩
      · exact absurd (of_decide_eq_true hcaught) (Nat.not_lt.mpr hbefore)
      · rw [htype, Option.some.injEq] at hdelta
        rw [hdelta] at hend
        exact absurd hend (by decide)
    have hsent : s.outgoing env event = renamedEvent env.serde resume front event := by
      rw [SseSink.outgoing_eq, h.think, hunchanged, hflush, String.append_empty, ite_self, hpairs hcreated,
        renamedEvent, if_neg hnot]
    rw [hsent, hreads, newText, if_neg hnot]
  · intro recon suffix heq hcaught hdelta hbeyond hne
    rw [hrecon, Option.some.injEq] at heq
    subst heq
    have hle : (deltaText env.serde front).length ≤ resume.resumePrefix.length :=
      Nat.not_lt.mp (of_decide_eq_false hcaught)
    have hwhole : deltaText env.serde (front ++ [event]) = resume.resumePrefix ++ suffix := by
      rw [deltaText_append_singleton, eventVisibleText, if_pos hdelta, ← hregenerated hle]
      exact hbeyond
    have hpasses : Passes env.serde resume front event := by
      refine ⟨hdelta, hle, ?_⟩
      have hlength : 0 < suffix.length := Nat.pos_of_ne_zero fun hzero => hne (String.length_eq_zero_iff.mp hzero)
      rw [hwhole, String.length_append]
      omega
    have hsuffix : String.ofList ((deltaText env.serde (front ++ [event])).toList.drop resume.resumePrefix.length)
        = suffix := by
      rw [hwhole, String.toList_append, ← String.length_toList, List.drop_left, String.ofList_toList]
    have hcreated : sseEventType env.serde event ≠ some "response.created" := by
      rw [hdelta]
      decide
    have hpass := hpassing hpasses
    rw [newText, if_pos hpasses, hsuffix, renamedEvent, if_pos hpasses, hsuffix, ← hpairs hcreated] at hreads
    rw [renamedEvent, if_pos hpasses, hsuffix, ← hpairs hcreated] at hpass
    cases hrewritten : rewriteDeltaEvent env.serde event suffix (s.sendRewrites env.serde event) with
    | none =>
      rw [hrewritten, Option.getD_none, sseVisibleOutputText_of_blank env.serde (by decide)] at hreads
      exact absurd hreads.symm hne
    | some rewritten =>
      rw [hrewritten, Option.getD_some] at hreads hpass
      exact ⟨rewritten, rfl, by rw [h.think, hpass, hreads]⟩

/-- The events of a retry fit if they are read with the ids that the client knows as they were. -/
theorem stepsFit_of_retry {events back : List String} (hretry : RetryAttempt env t resume events)
    (hflush : (flushSseThink env t).1 = "")
    (hreads : ∀ front event back, events = front ++ event :: back →
      sseVisibleOutputText env.serde (renamedEvent env.serde resume front event)
        = newText env.serde resume front event)
    (h : Reconciling env t resume front s) (heq : events = front ++ back) : StepsFit env s back := by
  induction back generalizing front s with
  | nil => trivial
  | cons event back ih =>
    have hevent := hretry.retryEvent heq
    refine ⟨h.stepFits hflush hevent.unchanged hevent.passing (hreads front event back heq), fun s' texts hpush => ?_⟩
    by_cases htype : sseEventType env.serde event = some "response.completed"
    · obtain rfl := hretry.last front event back heq htype
      trivial
    · obtain ⟨s₁, texts₁, hpush', hframe, -⟩ := pushEvent_retry h hevent htype
      rw [hpush', Prod.mk.injEq] at hpush
      exact hpush.1 ▸ ih hframe (by rw [heq, List.append_assoc, List.singleton_append])

end

/-! ## Two retries -/

namespace CutAnswer

theorem sseVisibleOutputText_of_mem {text : String} {v : Value} (h : (text, v) ∈ table) :
    sseVisibleOutputText serde (dataEvent text) = eventVisibleText serde (dataEvent text) :=
  sseVisibleOutputText_of_complete serde (oneLine_of_mem h).takeSseEvent_eq

theorem reads_silent {text text' : String} {v : Value} {front : List String} (h : (text, v) ∈ table)
    (htype : sseEventType serde (dataEvent text) ≠ some "response.output_text.delta")
    (htype' : sseEventType serde (dataEvent text') ≠ some "response.output_text.delta") :
    sseVisibleOutputText serde (dataEvent text) = newText serde resume front (dataEvent text') := by
  rw [sseVisibleOutputText_of_mem h, newText, if_neg fun hpasses => htype' hpasses.1, eventVisibleText, if_neg htype,
    eventVisibleText, if_neg htype']

/-- The events of the retry are read as they were. -/
theorem reads_hello (front : List String) (event : String) (back : List String) :
    retry (dataEvent hello') = front ++ event :: back →
      sseVisibleOutputText serde (renamedEvent serde resume front event) = newText serde resume front event := by
  obtain ⟨htype, hid, -⟩ := said_hello
  obtain ⟨hr₀, hr₁, hr₃, hr₄⟩ := renamedEvent_eq htype hid
  have hlo : sseEventDelta serde (dataEvent lo) = "lo" := by
    simp [sseEventDelta, data_lo, ofDelta, Value.getStr, Value.get, Members.get, Value.asStr]
  revert front event back
  simp only [retry, forall_split_cons, forall_split_nil, and_true]
  rw [hr₀, hr₁, hr₃, hr₄, renamedEvent_hello]
  obtain ⟨h₁, h₂, -, h₄, h₅, h₆, h₇, h₈, -, -, h₁₁, h₁₂⟩ := types
  refine ⟨?_, ?_, ?_, ?_, ?_⟩
  · exact reads_silent (v := ofResponse "resp_1" "response.created") (by simp only [table, List.mem_cons, true_or])
      (by rw [h₁]; decide) (by rw [h₇]; decide)
  · exact reads_silent (v := ofItem "m2" "response.output_item.added")
      (by simp only [table, List.mem_cons, true_or, or_true]) (by rw [h₈]; decide) (by rw [h₈]; decide)
  · rw [newText, if_pos passes_hello.1, passes_hello.2, sseVisibleOutputText_of_mem (v := ofDelta "m1" "lo")
      (by simp only [table, List.mem_cons, true_or, or_true]), eventVisibleText, if_pos h₄, hlo]
  · exact reads_silent (v := ofItem "m1" "response.output_item.done")
      (by simp only [table, List.mem_cons, true_or, or_true]) (by rw [h₅]; decide) (by rw [h₁₁]; decide)
  · exact reads_silent (v := ofResponse "resp_1" "response.completed")
      (by simp only [table, List.mem_cons, true_or, or_true]) (by rw [h₆]; decide) (by rw [h₁₂]; decide)

end CutAnswer

namespace TextId

def he : String := "\x7b\"delta\":\"He\",\"item_id\":\"m1\",\"type\":\"response.output_text.delta\"\x7d"
def hello : String := "\x7b\"delta\":\"Hello\",\"item_id\":\"text\",\"type\":\"response.output_text.delta\"\x7d"
def llo : String := "\x7b\"delta\":\"llo\",\"item_id\":\"m1\",\"type\":\"response.output_m1.delta\"\x7d"

def ofDelta (id delta kind : String) : Value :=
  .object [("delta", .string delta), ("item_id", .string id), ("type", .string kind)]

theorem oneLine : OneLine he ∧ OneLine hello ∧ OneLine llo := by
  refine ⟨⟨?_, ?_⟩, ⟨?_, ?_⟩, ⟨?_, ?_⟩⟩ <;> decide +kernel

theorem fromStr : plainEnv.serde.fromStr he = some (ofDelta "m1" "He" "response.output_text.delta")
    ∧ plainEnv.serde.fromStr hello = some (ofDelta "text" "Hello" "response.output_text.delta")
    ∧ plainEnv.serde.fromStr llo = some (ofDelta "m1" "llo" "response.output_m1.delta") := by
  decide +kernel

/-- The id stands in the type of the event too. -/
theorem rewriteDeltaEvent_hello : rewriteDeltaEvent plainEnv.serde (dataEvent hello) "llo" [("text", "m1")]
    = some (dataEvent llo) := by
  rw [oneLine.2.1.rewriteDeltaEvent_of_fromStr fromStr.2.1]
  have htext : replaceIds [("text", "m1")] (plainEnv.serde.toText ((ofDelta "text" "Hello"
      "response.output_text.delta").insert "delta" (.string "llo"))) = llo := by
    have hprint : plainEnv.serde.toText ((ofDelta "text" "Hello" "response.output_text.delta").insert "delta"
        (.string "llo"))
        = "\x7b\"delta\":\"llo\",\"item_id\":\"text\",\"type\":\"response.output_text.delta\"\x7d" := by
      decide +kernel
    rw [hprint, ← String.toList_inj, toList_replaceIds (by simp)]
    simp only [List.foldl_cons, List.foldl_nil, llo, String.reduceToList]
    decide +kernel
  rw [htext]

theorem said_he : sseEventType plainEnv.serde (dataEvent he) = some "response.output_text.delta"
    ∧ sseEventItemId plainEnv.serde (dataEvent he) = some "m1" ∧ sseEventDelta plainEnv.serde (dataEvent he) = "He"
    ∧ sseEventResponseId plainEnv.serde (dataEvent he) = none := by
  simp [sseEventType, sseEventItemId, sseEventDelta, sseEventResponseId, oneLine.1.sseEventData_eq, fromStr.1, ofDelta,
    Value.getStr, Value.get, Members.get, Value.asStr]

theorem said_hello : sseEventType plainEnv.serde (dataEvent hello) = some "response.output_text.delta"
    ∧ sseEventItemId plainEnv.serde (dataEvent hello) = some "text"
    ∧ sseEventDelta plainEnv.serde (dataEvent hello) = "Hello"
    ∧ sseEventResponseId plainEnv.serde (dataEvent hello) = none := by
  simp [sseEventType, sseEventItemId, sseEventDelta, sseEventResponseId, oneLine.2.1.sseEventData_eq, fromStr.2.1,
    ofDelta, Value.getStr, Value.get, Members.get, Value.asStr]

theorem type_llo : sseEventType plainEnv.serde (dataEvent llo) = some "response.output_m1.delta" := by
  simp [sseEventType, oneLine.2.2.sseEventData_eq, fromStr.2.2, ofDelta, Value.getStr, Value.get, Members.get,
    Value.asStr]

theorem noMarker : findLeakedToolStart (dataEvent he).toList = none ∧ findLeakedToolStart (dataEvent hello).toList = none
    ∧ findLeakedToolStart (dataEvent llo).toList = none := by
  refine ⟨?_, ?_, ?_⟩ <;> decide +kernel

theorem plainEvent_he : PlainEvent plainEnv (.new true false) (dataEvent he) := by
  obtain ⟨htype, -, hdelta, -⟩ := said_he
  refine ⟨oneLine.1.takeSseEvent_eq, trim_dataEvent_ne he, rewriteSseTextWith_of_disabled rfl rfl noMarker.1, ?_, ?_, ?_,
    ?_, ?_⟩
  · rw [keepsTextOnly, htype]
    decide
  · simp [sseEventHasToolCall, sseEventItemType, htype, oneLine.1.sseEventData_eq, fromStr.1, ofDelta, Value.get,
      Members.get]
  · rw [hdelta]
    decide
  · decide +kernel
  · rw [oneLine.1.sseEventIsTerminal_eq _ (by decide +kernel), fromStr.1]
    simp [ofDelta, Value.getStr, Value.get, Members.get, Value.asStr]

/-- What the first attempt has delivered. -/
def resume : StreamResume := ⟨"He", none, some "m1"⟩

theorem sendAgain_he : ∃ before, sendAgain plainEnv false false none [[dataEvent he]] = some (some resume, before)
    ∧ readText plainEnv.serde before = "He" := by
  obtain ⟨htype, hid, hdelta, -⟩ := said_he
  have hplain : ∀ event ∈ [dataEvent he], PlainEvent plainEnv (.new true false) event :=
    List.forall_mem_singleton.mpr plainEvent_he
  have hstart := freshly_withPolicy plainEnv false true false
  obtain ⟨s, texts, hpush, hfresh, -⟩ := pushAll_fresh hstart hplain
  have hsent : ∃ event ∈ [dataEvent he], sseEventIsRetryableInterrupt plainEnv.serde event = false := by
    refine ⟨dataEvent he, List.mem_cons_self, ?_⟩
    rw [← Bool.not_eq_true]
    exact not_interrupt_of_ne (by rw [htype]; decide)
  have hids : (s.responseId, s.itemId) = (none, some "m1") := by
    rw [hfresh.ids, List.nil_append, resumeIds, List.foldl_cons, List.foldl_nil, updateResumeIdsFromSseEvent, htype,
      if_neg (by decide), if_pos ⟨rfl, rfl⟩, hid]
  have hpoint : s.resumePoint = resume := by
    rw [Prod.mk.injEq] at hids
    rw [SseSink.resumePoint, hfresh.delivered, hids.1, hids.2, List.nil_append, deltaText, deltaText, eventVisibleText,
      if_pos htype, hdelta]
    rfl
  have hsend : sendAgain plainEnv false false none [[dataEvent he]] = some (some resume, texts) :=
    sendAgain_of_outcome hpush (hpoint ▸ hfresh.eofOutcome_eq hsent)
  refine ⟨texts, hsend, ?_⟩
  have hfits : AttemptsFit plainEnv false false none [[dataEvent he]] :=
    ⟨stepsFit_of_plain hstart hplain, fun _ _ _ => trivial⟩
  have hread := readText_sendAgain hfits hsend
  exact String.empty_append.symm.trans hread

theorem pushAll_hello : ∃ s, (attemptSink false false (some resume)).pushAll plainEnv [dataEvent hello]
    = (s, [dataEvent llo], .continues) ∧ s.deliveredText = "Hello" := by
  obtain ⟨htype, hid, hdelta, -⟩ := said_hello
  have hrecon : (attemptSink false false (some resume)).reconcile = some ⟨resume, "", false, none, none⟩ := rfl
  obtain ⟨had, only, kept, hpush, -⟩ :=
    pushEvent_reconcile hrecon rfl htype (not_interrupt_of_ne (by rw [htype]; decide))
  have hunchanged : rewriteSseTextWith plainEnv (.new true false) (dataEvent llo) = (dataEvent llo, .new true false) :=
    rewriteSseTextWith_of_disabled rfl rfl noMarker.2.2
  have hnew : String.ofList ("Hello".toList.drop "He".length) = "llo" := by decide
  rw [SseSink.pushReconcile, if_neg (by decide), if_neg (by decide), if_neg (by decide), if_neg (by decide), if_pos rfl,
    SseSink.pushRetryDelta] at hpush
  simp only [hid, hdelta, resume, String.empty_append, Bool.false_eq_true, if_false, Option.none_or] at hpush
  rw [if_neg (by decide), if_pos (by decide), hnew] at hpush
  generalize hids : SseSink.retryRewrites _ _ = ids at hpush
  obtain rfl : [("text", "m1")] = ids := hids
  have hthink : (attemptSink false false (some ⟨"He", none, some "m1"⟩)).think = .new true false := rfl
  rw [rewriteDeltaEvent_hello, hthink] at hpush
  dsimp only at hpush
  rw [hunchanged] at hpush
  have hpushed : (attemptSink false false (some resume)).pushEvent plainEnv (dataEvent hello)
      = (_, [dataEvent llo], .continues) := hpush
  have hdelivered : "He" ++ "llo" = "Hello" := by decide
  rw [SseSink.pushAll, hpushed]
  exact ⟨_, rfl, hdelivered⟩

end TextId

/-! ## Every piece once -/

section

variable (env : SinkEnv) (hold deepseek : Bool)

/-- What the client reads is the delivered text: the text of the attempt so far, or the text from before, which the
attempt has not passed. -/
structure ReadsOnce (before texts events : List String) (s : SseSink) : Prop where
  delivered : readText env.serde (before ++ texts) = s.deliveredText
  once : readText env.serde (before ++ texts) = deltaText env.serde events
    ∨ readText env.serde (before ++ texts) = readText env.serde before
      ∧ (deltaText env.serde events).toList <+: (readText env.serde before).toList

/-- Behind some attempts that were sent again, and some events of the next one, every piece of the text is read once;
an event that diverges writes nothing; and when the answer is completed, it is read as it is. -/
def DeliversOnce (attempts : List (List String)) (events : List String) (carry : String) : Prop :=
  ∀ resume before, sendAgain env hold deepseek none attempts = some (resume, before) →
    ∀ s texts, (attemptSink hold deepseek resume).pushAll env events = (s, texts, .continues) →
      ReadsOnce env before texts events s
        ∧ (∀ event s' texts', s.pushEvent env event = (s', texts', .abortReconcile) →
          texts' = [] ∧ s'.deliveredText = s.deliveredText)
        ∧ ((∃ event ∈ events, sseEventType env.serde event = some "response.completed") →
          readText env.serde (before ++ texts ++ [s.closing env carry]) = deltaText env.serde events)

/-- Every text that goes out reads as what it stands for; the end of the stream reads as no text. -/
def RunFits (attempts : List (List String)) (events : List String) (carry : String) : Prop :=
  AttemptsFit env hold deepseek none attempts
    ∧ ∀ resume before, sendAgain env hold deepseek none attempts = some (resume, before) →
      StepsFit env (attemptSink hold deepseek resume) events
        ∧ ∀ s texts, (attemptSink hold deepseek resume).pushAll env events = (s, texts, .continues) →
          sseVisibleOutputText env.serde (s.closing env carry) = ""

/-- The ids in an event. -/
def eventIds (serde : Serde) (event : String) : List String :=
  (sseEventResponseId serde event).toList ++ (sseEventItemId serde event).toList

/-- Events without a leaked tool call, with ids that are not empty and stand in no delta. -/
structure Ordinary (serde : Serde) (events : List String) : Prop where
  noMarker : ∀ event ∈ events, findLeakedToolStart event.toList = none
  ids : ∀ event ∈ events, ∀ id ∈ eventIds serde event,
    id ≠ "" ∧ ∀ other ∈ events, contains (sseEventDelta serde other) id = false

/-- Whatever the attempts are, every piece of the text is read once. -/
def DeliversAlways : Prop :=
  ∀ (env : SinkEnv) (L : JsonLexicon), env.serde.Reads L → env.toolNameRestoreActive = false →
    ∀ (hold deepseek : Bool) (attempts : List (List String)) (events : List String) (carry : String),
      Ordinary env.serde (attempts.flatten ++ events) → DeliversOnce env hold deepseek attempts events carry

end

section

open CutAnswer

end

section

open TextId

end

end CodexRouter
