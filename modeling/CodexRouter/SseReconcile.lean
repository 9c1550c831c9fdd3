/-
# A reconciled stream

A first attempt breaks off after nothing but text, and a second one regenerates the text.
The client gets the events of the first attempt and, with the ids of the first attempt,
those events of the second one that go on from there.  `ItemNote` is what an event says
about the items, and `WellFormed` what the client expects of all of them.

The sink suppresses every `added` event of the second attempt and every `done` event up
to the point where the delivered text is passed.  `pushAll_fresh` and `pushAll_retry` say
what the client reads of the two attempts.
-/
import CodexRouter.SseSink

namespace CodexRouter

open Text

/-! ## What the client reads -/

/-- What an event says about an item, named by its id, or about the response. -/
inductive ItemNote where
  | added (id : Option String)
  | said (id : Option String)
  | done (id : Option String)
  | completed
  deriving DecidableEq, Repr

/-- The item that is spoken of. -/
def ItemNote.mentioned : ItemNote → Option (Option String)
  | .said id => some id
  | .done id => some id
  | .added _ => none
  | .completed => none

/-- The note with another id. -/
def ItemNote.rename (f : Option String → Option String) : ItemNote → ItemNote
  | .added id => .added (f id)
  | .said id => .said (f id)
  | .done id => .done (f id)
  | .completed => .completed

/-- Items are announced before they are spoken of, and ended before the response is. -/
structure WellFormed (notes : List ItemNote) : Prop where
  announced : ∀ front note back, notes = front ++ note :: back → ∀ id, note.mentioned = some id →
    .added id ∈ front
  ended : ∀ front back, notes = front ++ .completed :: back → ∀ id, .added id ∈ front →
    .done id ∈ front

/-- The notes of a first part that is well formed, and of a second part that announces
nothing. -/
theorem wellFormed_append_iff {notes notes' : List ItemNote} (h : WellFormed notes)
    (hno : ∀ id, .added id ∉ notes') :
    WellFormed (notes ++ notes') ↔
      (∀ note ∈ notes', ∀ id, note.mentioned = some id → .added id ∈ notes)
        ∧ ∀ front back, notes' = front ++ .completed :: back → ∀ id, .added id ∈ notes →
          .done id ∈ notes ∨ .done id ∈ front := by
  constructor
  · rintro ⟨hannounced, hended⟩
    constructor
    · intro note hnote id hid
      obtain ⟨front, back, rfl⟩ := List.append_of_mem hnote
      have hadded := hannounced (notes ++ front) note back (List.append_assoc _ _ _).symm id hid
      rcases List.mem_append.mp hadded with hadded | hadded
      · exact hadded
      · exact absurd (List.mem_append_left _ hadded) (hno id)
    · rintro front back rfl id hid
      have hdone := hended (notes ++ front) back (List.append_assoc _ _ _).symm id
        (List.mem_append_left _ hid)
      exact List.mem_append.mp hdone
  · rintro ⟨hknown, hends⟩
    constructor
    · intro front note back heq id hid
      rcases List.append_eq_append_iff.mp heq with ⟨mid, rfl, hnew⟩ | ⟨mid, rfl, hnew⟩
      · have hnote : note ∈ notes' := hnew ▸ List.mem_append_right _ List.mem_cons_self
        exact List.mem_append_left _ (hknown note hnote id hid)
      · cases mid with
        | nil =>
          rw [List.nil_append] at hnew
          have hnote : note ∈ notes' := hnew ▸ List.mem_cons_self
          have hadded := hknown note hnote id hid
          rwa [List.append_nil] at hadded
        | cons first mid =>
          obtain ⟨rfl, rfl⟩ := List.cons.inj hnew
          exact h.announced front note mid rfl id hid
    · intro front back heq id hid
      rcases List.append_eq_append_iff.mp heq with ⟨mid, rfl, hnew⟩ | ⟨mid, rfl, hnew⟩
      · have hold : .added id ∈ notes := by
          rcases List.mem_append.mp hid with hid | hid
          · exact hid
          · exact absurd (hnew ▸ List.mem_append_left _ hid) (hno id)
        exact List.mem_append.mpr (hends mid back hnew id hold)
      · cases mid with
        | nil =>
          rw [List.nil_append] at hnew
          rw [List.append_nil] at hends
          have hdone := hends [] back hnew.symm id hid
          exact hdone.resolve_right List.not_mem_nil
        | cons first mid =>
          obtain ⟨rfl, rfl⟩ := List.cons.inj hnew
          exact h.ended front mid rfl id hid

section

variable (serde : Serde)

/-- What the client reads in an event. -/
def itemNote (event : String) : Option ItemNote :=
  let id := ((sseEventData serde event).bind (Value.get "item")).bind (Value.getStr "id")
  match sseEventType serde event with
  | some "response.output_item.added" => some (.added id)
  | some "response.output_text.delta" => some (.said (sseEventItemId serde event))
  | some "response.output_text.done" => some (.said (sseEventItemId serde event))
  | some "response.output_item.done" => some (.done id)
  | some "response.completed" => some .completed
  | _ => none

/-- The notes of the events. -/
def itemNotes (events : List String) : List ItemNote := events.filterMap (itemNote serde)

/-- The text of all deltas. -/
def deltaText : List String → String
  | [] => ""
  | event :: rest => eventVisibleText serde event ++ deltaText rest

/-- The first response id and the first item id of the events. -/
def resumeIds (events : List String) : Option String × Option String :=
  events.foldl (updateResumeIdsFromSseEvent serde) (none, none)

theorem itemNotes_singleton (event : String) :
    itemNotes serde [event] = (itemNote serde event).toList := by
  rw [itemNotes, List.filterMap_cons]
  cases itemNote serde event <;> rfl

theorem deltaText_append (events events' : List String) :
    deltaText serde (events ++ events') = deltaText serde events ++ deltaText serde events' := by
  induction events with
  | nil => rw [List.nil_append, deltaText, String.empty_append]
  | cons event rest ih => rw [List.cons_append, deltaText, deltaText, ih, String.append_assoc]

end

/-! ## Single events -/

/-- A complete event of a text answer, which is not rewritten.  No such event ends the
stream, but one may say that it broke off. -/
structure PlainEvent (env : SinkEnv) (t : SseThink) (event : String) : Prop where
  complete : takeSseEvent event = some (event, "")
  visible : trim event ≠ ""
  unchanged : rewriteSseTextWith env t event = (event, t)
  textOnly : keepsTextOnly env.serde event = true
  noToolCall : sseEventHasToolCall env.serde event = false
  noLeak : leaksToolCall env.serde ((sseEventDelta env.serde event).length + 1)
    (sseEventDelta env.serde event).toList = false
  noReasoning : sseBlockHasReasoning event = false
  unfinished : sseEventIsTerminal env.serde event = true →
    sseEventIsRetryableInterrupt env.serde event = true

theorem takeSseEvent_empty : takeSseEvent "" = none := rfl

/-- A complete event is the only one of its block. -/
theorem sseBlockEvents_of_complete {event : String} (h : takeSseEvent event = some (event, "")) :
    sseBlockEvents event = [event] := by
  have hlength := (takeSseEvent_spec h).2
  obtain ⟨n, hn⟩ : ∃ n, event.length = n + 1 :=
    Nat.exists_eq_succ_of_ne_zero (by rw [String.length_empty] at hlength; omega)
  rw [sseBlockEvents, hn, blockEvents, h]
  show event :: blockEvents (n + 1) "" = [event]
  rw [blockEvents, takeSseEvent_empty]
  rfl

/-- A complete event has its empty line at its end, if it has one. -/
theorem find_lf_of_complete {event : String} (h : takeSseEvent event = some (event, "")) {lf : ℕ}
    (hlf : find event "\n\n" = some lf) : lf + 2 = event.length := by
  obtain ⟨n, hn, heq⟩ := Option.map_eq_some_iff.mp h
  rw [Prod.mk.injEq] at heq
  have hlength := congrArg String.length heq.2
  rw [String.length_ofList, List.length_drop, String.length_toList, String.length_empty] at hlength
  have hle := length_lf ▸ find_add_length_le hlf
  rw [sseEventEnd, hlf] at hn
  cases hcrlf : find event "\r\n\r\n" with
  | none =>
    rw [hcrlf] at hn
    cases hn
    omega
  | some crlf =>
    rw [hcrlf, Option.some.injEq] at hn
    obtain ⟨hne, hne'⟩ := lf_ne_crlf (findChars_spec hlf) (findChars_spec hcrlf)
    have hlast : lf ≠ crlf + 2 := by
      rintro rfl
      have hprefix := findChars_spec hlf
      obtain ⟨rest, hrest⟩ := findChars_spec hcrlf
      rw [← List.drop_drop, ← hrest] at hprefix
      simp at hprefix
    split at hn
    · omega
    · omega

theorem eventVisibleText_empty (serde : Serde) : eventVisibleText serde "" = "" := rfl

theorem sseVisibleOutputText_of_complete (serde : Serde) {event : String}
    (h : takeSseEvent event = some (event, "")) :
    sseVisibleOutputText serde event = eventVisibleText serde event := by
  rw [sseVisibleOutputText, lfBlocks]
  cases hlf : findChars "\n\n".toList event.toList with
  | none =>
    show join "" [eventVisibleText serde (String.ofList event.toList)] = _
    rw [String.ofList_toList]
    rfl
  | some lf =>
    have hend := find_lf_of_complete h hlf
    have htake : event.toList.take (lf + 2) = event.toList := by
      rw [List.take_of_length_le]
      rw [String.length_toList]
      omega
    have hdrop : event.toList.drop (lf + 2) = [] := by
      rw [List.drop_eq_nil_iff, String.length_toList]
      omega
    have hrest : ∀ n, lfBlocks n [] = [[]] := by
      intro n
      cases n <;> rfl
    show join "" ((event.toList.take (lf + 2) :: lfBlocks event.length (event.toList.drop (lf + 2))).map _) = _
    rw [htake, hdrop, hrest, List.map_cons, List.map_singleton, String.ofList_toList]
    show eventVisibleText serde event ++ "" ++ eventVisibleText serde "" = _
    rw [eventVisibleText_empty, String.append_empty, String.append_empty]

/-- Reading the ids of an event twice changes nothing. -/
theorem updateResumeIdsFromSseEvent_idem (serde : Serde) (ids : Option String × Option String)
    (event : String) :
    updateResumeIdsFromSseEvent serde (updateResumeIdsFromSseEvent serde ids event) event
      = updateResumeIdsFromSseEvent serde ids event := by
  obtain ⟨response, item⟩ := ids
  by_cases hcreated : sseEventType serde event = some "response.created"
  · have hdelta : sseEventType serde event ≠ some "response.output_text.delta" := by
      rw [hcreated]
      decide
    cases response with
    | none =>
      have hfirst : updateResumeIdsFromSseEvent serde (none, item) event
          = (sseEventResponseId serde event, item) := by
        rw [updateResumeIdsFromSseEvent, if_pos ⟨hcreated, rfl⟩]
      rw [hfirst, updateResumeIdsFromSseEvent]
      split
      · rfl
      · rw [if_neg fun hand => hdelta hand.1]
    | some id =>
      have hfirst : updateResumeIdsFromSseEvent serde (some id, item) event = (some id, item) := by
        rw [updateResumeIdsFromSseEvent, if_neg (by simp), if_neg fun hand => hdelta hand.1]
      rw [hfirst, hfirst]
  · have hfirst : ∀ ids : Option String × Option String, updateResumeIdsFromSseEvent serde ids event
        = if sseEventType serde event = some "response.output_text.delta" ∧ ids.2 = none then
          (ids.1, sseEventItemId serde event) else ids := by
      intro ids
      rw [updateResumeIdsFromSseEvent, if_neg fun hand => hcreated hand.1]
    rw [hfirst (response, item)]
    split
    · rw [hfirst]
      split <;> rfl
    · rename_i hno
      rw [hfirst, if_neg hno]

/-- A blank text has no data. -/
theorem sseEventData_of_blank (serde : Serde) {text : String} (h : trim text = "") :
    sseEventData serde text = none := by
  rw [sseEventData, List.findSome?_eq_none_iff]
  intro line hline
  have hblank : trimStart line = "" := by
    have hall : ∀ c ∈ line.toList, isWhitespace c = true := fun c hc =>
      isWhitespace_of_trim h (mem_of_mem_lines hline hc)
    rw [trimStart, trimStartMatches, List.dropWhile_eq_nil_iff.mpr hall, String.ofList_nil]
  rw [sseLineData, hblank]
  rfl

theorem itemNote_of_blank (serde : Serde) {text : String} (h : trim text = "") :
    itemNote serde text = none := by
  rw [itemNote, sseEventType, sseEventData_of_blank serde h]
  rfl

/-! ## The first attempt -/

/-- What pushing plain events in a first attempt leaves. -/
structure Freshly (env : SinkEnv) (t : SseThink) (events : List String) (s : SseSink) : Prop where
  reconcile : s.reconcile = none
  continuePoint : s.continuePoint = none
  think : s.think = t
  held : s.heldCompleted = none
  delivered : s.deliveredText = deltaText env.serde events
  ids : (s.responseId, s.itemId) = resumeIds env.serde events
  textOnly : s.textOnly = true
  hadToolCall : s.hadToolCall = false
  terminal : s.terminal = false
  sent : (∃ event ∈ events, sseEventIsRetryableInterrupt env.serde event = false) → s.sentEvents = true

section

variable {env : SinkEnv} {t : SseThink}

/-- An interrupt says nothing. -/
theorem type_of_interrupt {serde : Serde} {event : String}
    (h : sseEventIsRetryableInterrupt serde event = true) :
    sseEventType serde event = some "response.failed" := by
  rw [sseEventIsRetryableInterrupt, Bool.and_eq_true, decide_eq_true_eq] at h
  exact h.1

theorem itemNote_of_interrupt {serde : Serde} {event : String}
    (h : sseEventIsRetryableInterrupt serde event = true) : itemNote serde event = none := by
  rw [itemNote, type_of_interrupt h]
  rfl

/-- The notes on tool calls change nothing else. -/
theorem noteToolCalls_eq (env : SinkEnv) (s : SseSink) (event : String) :
    ∃ had only, s.noteToolCalls env event = { s with hadToolCall := had, textOnly := only } := by
  rw [SseSink.noteToolCalls]
  split
  · exact ⟨true, false, rfl⟩
  · exact ⟨_, s.textOnly, rfl⟩

/-- Without a continue point, an event that is no interrupt is pushed. -/
theorem pushEvent_eq {s : SseSink} {event : String} (hpoint : s.continuePoint = none)
    (hno : ¬ sseEventIsRetryableInterrupt env.serde event = true) :
    s.pushEvent env event = SseSink.pushEvent.push env event (s.noteToolCalls env event)
      (sseEventType env.serde event) (s.holdTextCompleted
        && sseEventType env.serde event = some "response.completed"
        && !(s.noteToolCalls env event).hadToolCall) := by
  obtain ⟨had, only, hnote⟩ := noteToolCalls_eq env s event
  rw [SseSink.pushEvent, if_neg hno, hnote]
  simp only [hpoint]

/-- An event without a tool call leaves no note. -/
theorem noteToolCalls_of_plain {s : SseSink} {event : String} (h : PlainEvent env t event) :
    s.noteToolCalls env event = s := by
  rw [SseSink.noteToolCalls, h.noToolCall, if_neg (by decide), h.noLeak, Bool.or_false]

/-- A completion ends the stream. -/
theorem isTerminal_of_completed {event : String}
    (h : sseEventType env.serde event = some "response.completed") :
    sseEventIsTerminal env.serde event = true := by
  rw [sseEventType, Option.bind_eq_some_iff] at h
  obtain ⟨json, hjson, htype⟩ := h
  obtain ⟨line, hline, hdata⟩ := List.exists_of_findSome?_eq_some hjson
  rw [sseEventIsTerminal, List.any_eq_true]
  refine ⟨line, hline, ?_⟩
  rw [hdata, Option.bind_some, htype]
  simp

theorem PlainEvent.not_completed {event : String} (h : PlainEvent env t event) :
    sseEventType env.serde event ≠ some "response.completed" := by
  intro htype
  have hfailed := type_of_interrupt (h.unfinished (isTerminal_of_completed htype))
  rw [htype] at hfailed
  exact absurd (Option.some.inj hfailed) (by decide)

theorem pushEvent_fresh {events : List String} {s : SseSink} {event : String}
    (h : Freshly env t events s) (hplain : PlainEvent env t event) :
    ∃ s' texts, s.pushEvent env event = (s', texts, .continues) ∧ Freshly env t (events ++ [event]) s'
      ∧ itemNotes env.serde texts = (itemNote env.serde event).toList := by
  have hids : resumeIds env.serde (events ++ [event])
      = updateResumeIdsFromSseEvent env.serde (s.responseId, s.itemId) event := by
    rw [resumeIds, List.foldl_append, ← resumeIds, ← h.ids]
    rfl
  have htext : deltaText env.serde (events ++ [event])
      = s.deliveredText ++ eventVisibleText env.serde event := by
    rw [deltaText_append, ← h.delivered, deltaText, deltaText, String.append_empty]
  by_cases hinterrupt : sseEventIsRetryableInterrupt env.serde event = true
  -- An interrupt is swallowed.
  · have htype := type_of_interrupt hinterrupt
    have hvisible : eventVisibleText env.serde event = "" := by
      rw [eventVisibleText, htype]
      rfl
    refine ⟨s, [], ?_, ⟨h.reconcile, h.continuePoint, h.think, h.held, ?_, ?_, h.textOnly, h.hadToolCall,
      h.terminal, ?_⟩, ?_⟩
    · rw [SseSink.pushEvent, if_pos hinterrupt]
    · rw [htext, hvisible, String.append_empty]
    · rw [hids, updateResumeIdsFromSseEvent, htype]
      rfl
    · rintro ⟨sent, hsent, hno⟩
      rcases List.mem_append.mp hsent with hsent | hsent
      · exact h.sent ⟨sent, hsent, hno⟩
      · obtain rfl := List.mem_singleton.mp hsent
        rw [hinterrupt] at hno
        cases hno
    · rw [itemNote_of_interrupt hinterrupt]
      rfl
  · have hhold : (s.holdTextCompleted && sseEventType env.serde event = some "response.completed"
        && !s.hadToolCall) = false := by
      rw [decide_eq_false hplain.not_completed, Bool.and_false, Bool.false_and]
    have hpush : s.pushEvent env event = s.pushFresh env event := by
      rw [pushEvent_eq h.continuePoint hinterrupt, noteToolCalls_of_plain hplain, hhold,
        SseSink.pushEvent.push]
      · rfl
      · exact h.reconcile
    have hno : s.continueRewrites = [] := by
      rw [SseSink.continueRewrites, h.continuePoint]
      rfl
    have hrewrites : applySseRewrites env s.think event s.continueRewrites = (event, s.think) := by
      rw [hno, applySseRewrites, h.think, hplain.unchanged]
      rfl
    have hblock : updateResumeIdsFromSseBlock env.serde event
        (updateResumeIdsFromSseEvent env.serde (s.responseId, s.itemId) event)
        = resumeIds env.serde (events ++ [event]) := by
      rw [updateResumeIdsFromSseBlock, sseBlockEvents_of_complete hplain.complete, List.foldl_cons,
        List.foldl_nil, updateResumeIdsFromSseEvent_idem, hids]
    have htool : sseBlockHasToolCall env.serde event = false := by
      rw [sseBlockHasToolCall, sseBlockEvents_of_complete hplain.complete, List.any_cons, hplain.noToolCall]
      rfl
    have hopen : sseEventIsTerminal env.serde event = false := by
      rw [← Bool.not_eq_true]
      exact fun hterminal => hinterrupt (hplain.unfinished hterminal)
    have hvisible := sseVisibleOutputText_of_complete env.serde hplain.complete
    rw [hpush, SseSink.pushFresh, hrewrites]
    simp only [hblock, hvisible, htool, hopen, hplain.textOnly, hplain.noReasoning, SseSink.write,
      if_neg hplain.visible]
    refine ⟨_, _, rfl, ⟨h.reconcile, h.continuePoint, h.think, h.held, htext.symm, rfl, ?_, ?_, ?_,
      fun _ => rfl⟩, itemNotes_singleton env.serde event⟩
    · rw [h.textOnly]
      rfl
    · rw [h.hadToolCall]
      rfl
    · rw [h.terminal]
      rfl

theorem pushAll_fresh {before events : List String} {s : SseSink} (h : Freshly env t before s)
    (hplain : ∀ event ∈ events, PlainEvent env t event) :
    ∃ s' texts, s.pushAll env events = (s', texts, .continues) ∧ Freshly env t (before ++ events) s'
      ∧ itemNotes env.serde texts = itemNotes env.serde events := by
  induction events generalizing before s with
  | nil => exact ⟨s, [], rfl, by rwa [List.append_nil], rfl⟩
  | cons event rest ih =>
    obtain ⟨s₁, texts₁, hpush, hfresh, hnotes⟩ := pushEvent_fresh h (hplain event List.mem_cons_self)
    obtain ⟨s₂, texts₂, hrest, hfresh', hnotes'⟩ := ih hfresh
      (fun e he => hplain e (List.mem_cons_of_mem _ he))
    refine ⟨s₂, texts₁ ++ texts₂, ?_, ?_, ?_⟩
    · rw [SseSink.pushAll, hpush]
      simp only [hrest]
    · rwa [List.append_assoc, List.singleton_append] at hfresh'
    · rw [itemNotes, List.filterMap_append, ← itemNotes, ← itemNotes, hnotes, hnotes', itemNotes, itemNotes,
        List.filterMap_cons]
      cases itemNote env.serde event <;> rfl

/-- A first attempt of plain events, cut behind one that was sent, is to be sent again. -/
theorem Freshly.eofOutcome_eq {events : List String} {s : SseSink} (h : Freshly env t events s)
    (hsent : ∃ event ∈ events, sseEventIsRetryableInterrupt env.serde event = false) :
    s.eofOutcome = .retryableWithPrefix s.resumePoint := by
  rw [SseSink.eofOutcome, h.held, h.terminal, h.continuePoint, h.reconcile, h.sent hsent, h.textOnly,
    h.hadToolCall]
  rfl

end

/-! ## The retry -/

section

variable (serde : Serde)

/-- Note the ids of a retry: those of its last response and of its first item with text. -/
def noteRetryIds (ids : Option String × Option String) (event : String) :
    Option String × Option String :=
  if sseEventType serde event = some "response.created" then (sseEventResponseId serde event, ids.2)
  else if sseEventType serde event = some "response.output_text.delta" then
    (ids.1, ids.2.or (sseEventItemId serde event))
  else ids

/-- The ids of a retry that are known behind these events. -/
def retryIds (events : List String) : Option String × Option String :=
  events.foldl (noteRetryIds serde) (none, none)

/-- The ids of the retry, each with the one that the client knows. -/
def idPairs (retry known : Option String × Option String) : List (String × String) :=
  (match retry.1, known.1 with
    | some retry, some known => [(retry, known)]
    | _, _ => [])
    ++ match retry.2, known.2 with
    | some retry, some known => [(retry, known)]
    | _, _ => []

variable (resume : StreamResume)

/-- With this event the retry gets beyond the delivered text. -/
def Passes (front : List String) (event : String) : Prop :=
  sseEventType serde event = some "response.output_text.delta"
    ∧ (deltaText serde front).length ≤ resume.resumePrefix.length
    ∧ resume.resumePrefix.length < (deltaText serde (front ++ [event])).length

instance (front : List String) (event : String) : Decidable (Passes serde resume front event) :=
  inferInstanceAs (Decidable (_ ∧ _ ∧ _))

/-- An event of the retry with the ids that the client knows.  The delta that gets beyond
the delivered text keeps only what is new. -/
def renamedEvent (front : List String) (event : String) : String :=
  let rewrites := idPairs (retryIds serde (front ++ [event])) (resume.responseId, resume.itemId)
  if Passes serde resume front event then
    (rewriteDeltaEvent serde event (String.ofList
      ((deltaText serde (front ++ [event])).toList.drop resume.resumePrefix.length)) rewrites).getD ""
  else replaceIds rewrites event

/-- An item id of the retry as the client knows it. -/
def renamedId (front : List String) (event : String) (id : Option String) : Option String :=
  match (retryIds serde (front ++ [event])).2, resume.itemId with
  | some retry, some known => if id = some retry then some known else id
  | _, _ => id

/-- What the client reads of an event of the retry. -/
def resentNote (front : List String) (event : String) : Option ItemNote :=
  match itemNote serde event with
  | none => none
  | some (.added _) => none
  | some .completed =>
    if resume.resumePrefix.length ≤ (deltaText serde front).length then some .completed else none
  | some note =>
    if resume.resumePrefix.length < (deltaText serde (front ++ [event])).length then
      some (note.rename (renamedId serde resume front event))
    else none

theorem retryIds_append (front : List String) (event : String) :
    retryIds serde (front ++ [event]) = noteRetryIds serde (retryIds serde front) event := by
  rw [retryIds, List.foldl_append]
  rfl

theorem deltaText_append_singleton (front : List String) (event : String) :
    deltaText serde (front ++ [event]) = deltaText serde front ++ eventVisibleText serde event := by
  rw [deltaText_append, deltaText, deltaText, String.append_empty]

/-- Only a delta has text. -/
theorem deltaText_of_ne {event : String}
    (h : sseEventType serde event ≠ some "response.output_text.delta") (front : List String) :
    deltaText serde (front ++ [event]) = deltaText serde front := by
  rw [deltaText_append_singleton, eventVisibleText, if_neg h, String.append_empty]

/-- Where neither a response nor a text is announced, the ids stay. -/
theorem retryIds_of_ne {event : String} (hcreated : sseEventType serde event ≠ some "response.created")
    (hdelta : sseEventType serde event ≠ some "response.output_text.delta") (front : List String) :
    retryIds serde (front ++ [event]) = retryIds serde front := by
  rw [retryIds_append, noteRetryIds, if_neg hcreated, if_neg hdelta]

end

/-- The state of the sink behind some events of the retry. -/
structure Reconciling (env : SinkEnv) (t : SseThink) (resume : StreamResume) (front : List String)
    (s : SseSink) : Prop where
  recon : ∃ regenerated, s.reconcile = some ⟨resume, regenerated,
      decide (resume.resumePrefix.length < (deltaText env.serde front).length),
      (retryIds env.serde front).1, (retryIds env.serde front).2⟩
    ∧ ((deltaText env.serde front).length ≤ resume.resumePrefix.length →
      regenerated = deltaText env.serde front)
  responseId : s.responseId = resume.responseId
  itemId : s.itemId = resume.itemId
  think : s.think = t
  continuePoint : s.continuePoint = none
  held : s.heldCompleted = none

section

variable {env : SinkEnv} {t : SseThink} {resume : StreamResume}

/-- What is read in a text that is written. -/
theorem itemNotes_write (serde : Serde) (s : SseSink) (always : Bool) (text : String) :
    ∃ sent texts, s.write always text = ({ s with sentEvents := sent }, texts, .continues)
      ∧ itemNotes serde texts = (itemNote serde text).toList := by
  rw [SseSink.write]
  split
  · rename_i hblank
    refine ⟨_, [], rfl, ?_⟩
    rw [itemNote_of_blank serde hblank]
    rfl
  · exact ⟨true, [text], rfl, itemNotes_singleton serde text⟩

theorem forwardRetryEvent_eq {s : SseSink} {event : String}
    (hunchanged : rewriteSseTextWith env s.think event = (event, s.think)) (recon : ReconcileState) :
    ∃ sent texts, s.forwardRetryEvent env recon event
        = ({ s with reconcile := some recon, sentEvents := sent }, texts, .continues)
      ∧ itemNotes env.serde texts
        = (itemNote env.serde (replaceIds (s.retryRewrites recon) event)).toList := by
  rw [SseSink.forwardRetryEvent, applySseRewrites, hunchanged]
  exact itemNotes_write env.serde _ true _

variable {front : List String} {s : SseSink} {event : String}

/-- The notes on tool calls and on sent events do not matter. -/
theorem Reconciling.noted (h : Reconciling env t resume front s) (had only sent : Bool) :
    Reconciling env t resume front { s with hadToolCall := had, textOnly := only, sentEvents := sent } :=
  ⟨h.recon, h.responseId, h.itemId, h.think, h.continuePoint, h.held⟩

/-- An event without ids and without text changes nothing. -/
theorem Reconciling.of_ne (h : Reconciling env t resume front s)
    (hcreated : sseEventType env.serde event ≠ some "response.created")
    (hdelta : sseEventType env.serde event ≠ some "response.output_text.delta") :
    Reconciling env t resume (front ++ [event]) s := by
  obtain ⟨hrecon, hresponse, hitem, hthink, hpoint, hheld⟩ := h
  rw [← deltaText_of_ne env.serde hdelta front, ← retryIds_of_ne env.serde hcreated hdelta front] at hrecon
  exact ⟨hrecon, hresponse, hitem, hthink, hpoint, hheld⟩

/-- The push of an event with a type, in a retry. -/
theorem pushEvent_reconcile {recon : ReconcileState} {kind : String} (hrecon : s.reconcile = some recon)
    (hpoint : s.continuePoint = none) (htype : sseEventType env.serde event = some kind)
    (hno : ¬ sseEventIsRetryableInterrupt env.serde event = true) :
    ∃ had only hold, s.pushEvent env event
        = SseSink.pushReconcile env { s with hadToolCall := had, textOnly := only } recon hold kind event
      ∧ (kind ≠ "response.completed" → hold = false) := by
  obtain ⟨had, only, hnote⟩ := noteToolCalls_eq env s event
  refine ⟨had, only, s.holdTextCompleted && some kind = some "response.completed" && !had, ?_, ?_⟩
  · rw [pushEvent_eq hpoint hno, hnote, htype, SseSink.pushEvent.push.eq_def]
    simp only [hrecon]
  · intro hne
    have hfalse : decide (some kind = some "response.completed") = false := by
      rw [decide_eq_false_iff_not, Option.some.injEq]
      exact hne
    rw [hfalse, Bool.and_false, Bool.false_and]

/-- Events that are no failure are no interrupt. -/
theorem not_interrupt_of_ne (h : sseEventType env.serde event ≠ some "response.failed") :
    ¬ sseEventIsRetryableInterrupt env.serde event = true :=
  fun hinterrupt => h (type_of_interrupt hinterrupt)

theorem renamedEvent_of_ne (resume : StreamResume) (front : List String)
    (hdelta : sseEventType env.serde event ≠ some "response.output_text.delta") :
    renamedEvent env.serde resume front event
      = replaceIds (idPairs (retryIds env.serde (front ++ [event])) (resume.responseId, resume.itemId))
        event := by
  rw [renamedEvent, if_neg fun hpasses => hdelta hpasses.1]

/-- A silent step: nothing is written and nothing is read. -/
theorem pushEvent_silent (h : Reconciling env t resume front s) {kind : String}
    (htype : sseEventType env.serde event = some kind)
    (hkind : kind = "response.in_progress" ∨ kind = "response.content_part.added"
      ∨ kind = "response.output_item.added" ∧ sseEventItemType env.serde event = some "message") :
    ∃ s' texts, s.pushEvent env event = (s', texts, .continues)
      ∧ Reconciling env t resume (front ++ [event]) s'
      ∧ itemNotes env.serde texts = (resentNote env.serde resume front event).toList := by
  obtain ⟨regenerated, hrecon, -⟩ := h.recon
  have hno : ¬ sseEventIsRetryableInterrupt env.serde event = true := by
    refine not_interrupt_of_ne ?_
    rw [htype]
    rcases hkind with rfl | rfl | ⟨rfl, -⟩ <;> decide
  have hframe : Reconciling env t resume (front ++ [event]) s := by
    refine h.of_ne ?_ ?_ <;> rw [htype] <;> rcases hkind with rfl | rfl | ⟨rfl, -⟩ <;> decide
  obtain ⟨had, only, hold, hpush, -⟩ := pushEvent_reconcile hrecon h.continuePoint htype hno
  refine ⟨{ s with hadToolCall := had, textOnly := only }, [], ?_, hframe.noted had only s.sentEvents, ?_⟩
  · rw [hpush, SseSink.pushReconcile]
    rcases hkind with rfl | rfl | ⟨rfl, hmessage⟩
    · rfl
    · rfl
    · rw [if_neg (by decide), if_neg (by decide), if_pos rfl, if_neg (by rw [hmessage]; simp)]
  · rw [resentNote, itemNote, htype]
    rcases hkind with rfl | rfl | ⟨rfl, -⟩ <;> rfl

/-- The response of the retry is announced. -/
theorem pushEvent_created (h : Reconciling env t resume front s)
    (htype : sseEventType env.serde event = some "response.created") :
    ∃ s' texts, s.pushEvent env event = (s', texts, .continues)
      ∧ Reconciling env t resume (front ++ [event]) s'
      ∧ itemNotes env.serde texts = (resentNote env.serde resume front event).toList := by
  obtain ⟨regenerated, hrecon, hregenerated⟩ := h.recon
  have hdelta : sseEventType env.serde event ≠ some "response.output_text.delta" := by
    rw [htype]
    decide
  obtain ⟨had, only, hold, hpush, -⟩ := pushEvent_reconcile hrecon h.continuePoint htype
    (not_interrupt_of_ne (by rw [htype]; decide))
  rw [SseSink.pushReconcile, if_pos rfl] at hpush
  refine ⟨_, [], hpush, ⟨⟨regenerated, ?_, ?_⟩, h.responseId, h.itemId, h.think, h.continuePoint,
    h.held⟩, ?_⟩
  · rw [deltaText_of_ne env.serde hdelta, retryIds_append, noteRetryIds, if_pos htype]
  · rw [deltaText_of_ne env.serde hdelta]
    exact hregenerated
  · rw [resentNote, itemNote, htype]
    rfl

/-- The end of an item or of one of its parts. -/
theorem pushEvent_done (h : Reconciling env t resume front s)
    (hunchanged : rewriteSseTextWith env t event = (event, t)) {kind : String}
    (htype : sseEventType env.serde event = some kind)
    (hkind : kind ∈ ["response.output_text.done", "response.content_part.done", "response.output_item.done"])
    (hrenames : itemNote env.serde (renamedEvent env.serde resume front event)
      = (itemNote env.serde event).map (ItemNote.rename (renamedId env.serde resume front event))) :
    ∃ s' texts, s.pushEvent env event = (s', texts, .continues)
      ∧ Reconciling env t resume (front ++ [event]) s'
      ∧ itemNotes env.serde texts = (resentNote env.serde resume front event).toList := by
  obtain ⟨regenerated, hrecon, -⟩ := h.recon
  have hcases : kind = "response.output_text.done" ∨ kind = "response.content_part.done"
      ∨ kind = "response.output_item.done" := by simpa using hkind
  have hcreated : sseEventType env.serde event ≠ some "response.created" := by
    rw [htype]
    rcases hcases with rfl | rfl | rfl <;> decide
  have hdelta : sseEventType env.serde event ≠ some "response.output_text.delta" := by
    rw [htype]
    rcases hcases with rfl | rfl | rfl <;> decide
  have hno : ¬ sseEventIsRetryableInterrupt env.serde event = true := by
    refine not_interrupt_of_ne ?_
    rw [htype]
    rcases hcases with rfl | rfl | rfl <;> decide
  have hframe := h.of_ne hcreated hdelta
  obtain ⟨had, only, hold, hpush, -⟩ := pushEvent_reconcile hrecon h.continuePoint htype hno
  have hbranch : ∀ s : SseSink, ∀ recon : ReconcileState, s.pushReconcile env recon hold kind event
      = if recon.caughtUp then s.forwardRetryEvent env recon event else (s, [], .continues) := by
    intro s recon
    rw [SseSink.pushReconcile]
    rcases hcases with rfl | rfl | rfl <;> simp
  rw [hbranch] at hpush
  have hread : resentNote env.serde resume front event
      = if resume.resumePrefix.length < (deltaText env.serde front).length then
          (itemNote env.serde event).map (ItemNote.rename (renamedId env.serde resume front event))
        else none := by
    rw [resentNote, deltaText_of_ne env.serde hdelta, itemNote, htype]
    rcases hcases with rfl | rfl | rfl
    · rfl
    · exact (ite_self none).symm
    · rfl
  by_cases hpast : resume.resumePrefix.length < (deltaText env.serde front).length
  · rw [if_pos (decide_eq_true hpast)] at hpush
    have hthink : rewriteSseTextWith env s.think event = (event, s.think) := by
      rw [h.think]
      exact hunchanged
    obtain ⟨sent, texts, hforward, hnotes⟩ := forwardRetryEvent_eq
      (s := { s with hadToolCall := had, textOnly := only }) hthink ⟨resume, regenerated,
        decide (resume.resumePrefix.length < (deltaText env.serde front).length),
        (retryIds env.serde front).1, (retryIds env.serde front).2⟩
    refine ⟨_, texts, hpush.trans hforward, ?_, ?_⟩
    · rw [← hrecon]
      exact hframe.noted had only sent
    · rw [hread, if_pos hpast, ← hrenames, renamedEvent_of_ne resume front hdelta,
        retryIds_of_ne env.serde hcreated hdelta, hnotes, SseSink.retryRewrites]
      simp only [h.responseId, h.itemId]
      rfl
  · rw [if_neg (by simpa using hpast)] at hpush
    refine ⟨_, [], hpush, hframe.noted had only s.sentEvents, ?_⟩
    rw [hread, if_neg hpast]
    rfl


/-- The text of a delta. -/
theorem pushEvent_delta (h : Reconciling env t resume front s)
    (hunchanged : rewriteSseTextWith env t event = (event, t))
    (htype : sseEventType env.serde event = some "response.output_text.delta")
    (hpassing : Passes env.serde resume front event →
      rewriteSseTextWith env t (renamedEvent env.serde resume front event)
        = (renamedEvent env.serde resume front event, t))
    (hagrees : (deltaText env.serde (front ++ [event])).toList <+: resume.resumePrefix.toList
      ∨ resume.resumePrefix.toList <+: (deltaText env.serde (front ++ [event])).toList)
    (hrenames : itemNote env.serde (renamedEvent env.serde resume front event)
      = (itemNote env.serde event).map (ItemNote.rename (renamedId env.serde resume front event))) :
    ∃ s' texts, s.pushEvent env event = (s', texts, .continues)
      ∧ Reconciling env t resume (front ++ [event]) s'
      ∧ itemNotes env.serde texts = (resentNote env.serde resume front event).toList := by
  obtain ⟨regenerated, hrecon, hregenerated⟩ := h.recon
  have hvisible : eventVisibleText env.serde event = sseEventDelta env.serde event := by
    rw [eventVisibleText, if_pos htype]
  have htext : deltaText env.serde (front ++ [event])
      = deltaText env.serde front ++ sseEventDelta env.serde event := by
    rw [deltaText_append_singleton, hvisible]
  have hlength : (deltaText env.serde front).length ≤ (deltaText env.serde (front ++ [event])).length := by
    rw [htext, String.length_append]
    omega
  have hcreated : sseEventType env.serde event ≠ some "response.created" := by
    rw [htype]
    decide
  have hids : retryIds env.serde (front ++ [event]) = ((retryIds env.serde front).1,
      (retryIds env.serde front).2.or (sseEventItemId env.serde event)) := by
    rw [retryIds_append, noteRetryIds, if_neg hcreated, if_pos htype]
  have hnote : itemNote env.serde event = some (.said (sseEventItemId env.serde event)) := by
    rw [itemNote, htype]
    rfl
  have hread : resentNote env.serde resume front event
      = if resume.resumePrefix.length < (deltaText env.serde (front ++ [event])).length then
          (itemNote env.serde event).map (ItemNote.rename (renamedId env.serde resume front event))
        else none := by
    rw [resentNote, hnote]
    rfl
  obtain ⟨had, only, hold, hpush, -⟩ := pushEvent_reconcile hrecon h.continuePoint htype
    (not_interrupt_of_ne (by rw [htype]; decide))
  have hbranch : ∀ s : SseSink, ∀ recon : ReconcileState,
      s.pushReconcile env recon hold "response.output_text.delta" event
        = s.pushRetryDelta env recon event := by
    intro s recon
    rw [SseSink.pushReconcile]
    simp
  rw [hbranch, SseSink.pushRetryDelta] at hpush
  by_cases hpast : resume.resumePrefix.length < (deltaText env.serde front).length
  -- The delivered text has been passed before.
  · have hpast' : resume.resumePrefix.length < (deltaText env.serde (front ++ [event])).length := by omega
    simp only [decide_eq_true hpast, if_true] at hpush
    have hthink : rewriteSseTextWith env s.think event = (event, s.think) := by
      rw [h.think]
      exact hunchanged
    obtain ⟨sent, texts, hforward, hnotes⟩ := forwardRetryEvent_eq
      (s := { s with
        hadToolCall := had
        textOnly := only
        deliveredText := s.deliveredText ++ sseEventDelta env.serde event
        turnText := s.turnText ++ sseEventDelta env.serde event }) hthink
      ⟨resume, regenerated, true, (retryIds env.serde front).1,
        (retryIds env.serde front).2.or (sseEventItemId env.serde event)⟩
    refine ⟨_, texts, hpush.trans hforward, ⟨⟨regenerated, ?_, ?_⟩, h.responseId, h.itemId, h.think,
      h.continuePoint, h.held⟩, ?_⟩
    · rw [decide_eq_true hpast', hids]
    · intro hle
      omega
    · have hevent : renamedEvent env.serde resume front event = replaceIds (idPairs (retryIds env.serde
          (front ++ [event])) (resume.responseId, resume.itemId)) event := by
        rw [renamedEvent, if_neg fun hpasses => absurd hpasses.2.1 (by omega)]
      rw [hread, if_pos hpast', ← hrenames, hevent, hnotes, SseSink.retryRewrites, hids]
      simp only [h.responseId, h.itemId]
      rfl
  · simp only [decide_eq_false hpast, Bool.false_eq_true, if_false] at hpush
    have hregen : regenerated = deltaText env.serde front := hregenerated (by omega)
    rw [hregen, ← htext] at hpush
    by_cases hle : (deltaText env.serde (front ++ [event])).length ≤ resume.resumePrefix.length
    -- The delivered text is regenerated.
    · have hstarts : startsWith resume.resumePrefix (deltaText env.serde (front ++ [event])) = true := by
        rcases hagrees with hagrees | hagrees
        · exact List.isPrefixOf_iff_prefix.mpr hagrees
        · have heq := hagrees.eq_of_length_le (by
            rw [String.length_toList, String.length_toList]
            exact hle)
          rw [startsWith, heq]
          exact List.isPrefixOf_iff_prefix.mpr (List.prefix_refl _)
      rw [if_pos hle, if_pos hstarts] at hpush
      refine ⟨_, [], hpush, ⟨⟨_, ?_, fun _ => rfl⟩, h.responseId, h.itemId, h.think, h.continuePoint,
        h.held⟩, ?_⟩
      · rw [decide_eq_false (by omega), hids]
      · rw [hread, if_neg (by omega)]
        rfl
    -- This delta goes beyond it.
    · have hpasses : Passes env.serde resume front event := ⟨htype, by omega, by omega⟩
      have hstarts : startsWith (deltaText env.serde (front ++ [event])) resume.resumePrefix = true := by
        rcases hagrees with hagrees | hagrees
        · have hshort := hagrees.length_le
          rw [String.length_toList, String.length_toList] at hshort
          omega
        · exact List.isPrefixOf_iff_prefix.mpr hagrees
      rw [if_neg hle, if_pos hstarts] at hpush
      have hrewrites : ∀ s' : SseSink, s'.responseId = s.responseId → s'.itemId = s.itemId →
          ∀ regenerated' caught, s'.retryRewrites ⟨resume, regenerated', caught, (retryIds env.serde front).1,
            (retryIds env.serde front).2.or (sseEventItemId env.serde event)⟩
          = idPairs (retryIds env.serde (front ++ [event])) (resume.responseId, resume.itemId) := by
        intro s' hresponse hitem regenerated' caught
        rw [SseSink.retryRewrites, hresponse, hitem, h.responseId, h.itemId, hids]
        rfl
      have hevent : renamedEvent env.serde resume front event
          = (rewriteDeltaEvent env.serde event (String.ofList
            ((deltaText env.serde (front ++ [event])).toList.drop resume.resumePrefix.length))
            (idPairs (retryIds env.serde (front ++ [event])) (resume.responseId, resume.itemId))).getD "" := by
        rw [renamedEvent, if_pos hpasses]
      rw [hrewrites] at hpush
      rotate_left
      · rfl
      · rfl
      cases hrewritten : rewriteDeltaEvent env.serde event (String.ofList
          ((deltaText env.serde (front ++ [event])).toList.drop resume.resumePrefix.length))
          (idPairs (retryIds env.serde (front ++ [event])) (resume.responseId, resume.itemId)) with
      | none =>
        -- Without data the event says nothing, but a delta does.
        rw [hevent, hrewritten, hnote] at hrenames
        cases hrenames
      | some rewritten =>
        rw [hrewritten, Option.getD_some] at hevent
        rw [hrewritten] at hpush
        have hpass := hpassing hpasses
        rw [hevent, ← h.think] at hpass
        simp only [hpass] at hpush
        refine ⟨_, [rewritten], hpush, ⟨⟨deltaText env.serde (front ++ [event]), ?_, fun _ => rfl⟩,
          h.responseId, h.itemId, h.think, h.continuePoint, h.held⟩, ?_⟩
        · rw [decide_eq_true hpasses.2.2, hids]
        · rw [hread, if_pos hpasses.2.2, ← hrenames, hevent, itemNotes_singleton]

/-- An event of a retry that sends the text again. -/
structure RetryEvent (env : SinkEnv) (t : SseThink) (resume : StreamResume) (front : List String)
    (event : String) : Prop where
  unchanged : rewriteSseTextWith env t event = (event, t)
  passing : Passes env.serde resume front event →
    rewriteSseTextWith env t (renamedEvent env.serde resume front event)
      = (renamedEvent env.serde resume front event, t)
  textOnly : keepsTextOnly env.serde event = true
  agrees : (deltaText env.serde (front ++ [event])).toList <+: resume.resumePrefix.toList
    ∨ resume.resumePrefix.toList <+: (deltaText env.serde (front ++ [event])).toList
  renames : itemNote env.serde (renamedEvent env.serde resume front event)
    = (itemNote env.serde event).map (ItemNote.rename (renamedId env.serde resume front event))

/-- An end of the retry that is no success is passed on. -/
theorem pushEvent_failed (h : Reconciling env t resume front s)
    (hevent : RetryEvent env t resume front event) {kind : String}
    (htype : sseEventType env.serde event = some kind)
    (hkind : kind = "response.failed" ∨ kind = "response.incomplete") :
    ∃ s' texts, s.pushEvent env event = (s', texts, .continues)
      ∧ Reconciling env t resume (front ++ [event]) s'
      ∧ itemNotes env.serde texts = (resentNote env.serde resume front event).toList := by
  obtain ⟨regenerated, hrecon, -⟩ := h.recon
  have hcreated : sseEventType env.serde event ≠ some "response.created" := by
    rw [htype]
    rcases hkind with rfl | rfl <;> decide
  have hdelta : sseEventType env.serde event ≠ some "response.output_text.delta" := by
    rw [htype]
    rcases hkind with rfl | rfl <;> decide
  have hframe := h.of_ne hcreated hdelta
  have hnote : itemNote env.serde event = none := by
    rw [itemNote, htype]
    rcases hkind with rfl | rfl <;> rfl
  have hread : resentNote env.serde resume front event = none := by
    rw [resentNote, hnote]
  by_cases hinterrupt : sseEventIsRetryableInterrupt env.serde event = true
  · refine ⟨s, [], ?_, hframe, ?_⟩
    · rw [SseSink.pushEvent, if_pos hinterrupt]
    · rw [hread]
      rfl
  · obtain ⟨had, only, hold, hpush, hhold⟩ := pushEvent_reconcile hrecon h.continuePoint htype hinterrupt
    have hne : kind ≠ "response.completed" := by
      rcases hkind with rfl | rfl <;> decide
    have hbranch : ∀ s : SseSink, ∀ recon : ReconcileState, s.pushReconcile env recon hold kind event
        = { s with terminal := true }.forwardRetryEvent env recon event := by
      intro s recon
      rw [SseSink.pushReconcile, hhold hne]
      rcases hkind with rfl | rfl <;> simp [SseSink.pushRetryEnd]
    have hthink : rewriteSseTextWith env s.think event = (event, s.think) := by
      rw [h.think]
      exact hevent.unchanged
    obtain ⟨sent, texts, hforward, hnotes⟩ := forwardRetryEvent_eq
      (s := { s with hadToolCall := had, textOnly := only, terminal := true }) hthink ⟨resume, regenerated,
        decide (resume.resumePrefix.length < (deltaText env.serde front).length),
        (retryIds env.serde front).1, (retryIds env.serde front).2⟩
    rw [hbranch] at hpush
    refine ⟨_, texts, hpush.trans hforward, ?_, ?_⟩
    · obtain ⟨hrecon', hresponse, hitem, hthink', hpoint, hheld⟩ := hframe
      rw [hrecon] at hrecon'
      exact ⟨hrecon', hresponse, hitem, hthink', hpoint, hheld⟩
    · have hrenames := hevent.renames
      rw [renamedEvent_of_ne resume front hdelta, retryIds_of_ne env.serde hcreated hdelta, hnote] at hrenames
      rw [hread, hnotes, SseSink.retryRewrites]
      simp only [h.responseId, h.itemId]
      exact congrArg Option.toList hrenames

/-- Every event of the retry before its completion. -/
theorem pushEvent_retry (h : Reconciling env t resume front s)
    (hevent : RetryEvent env t resume front event)
    (hopen : sseEventType env.serde event ≠ some "response.completed") :
    ∃ s' texts, s.pushEvent env event = (s', texts, .continues)
      ∧ Reconciling env t resume (front ++ [event]) s'
      ∧ itemNotes env.serde texts = (resentNote env.serde resume front event).toList := by
  cases htype : sseEventType env.serde event with
  | none =>
    obtain ⟨regenerated, hrecon, -⟩ := h.recon
    have hno : ¬ sseEventIsRetryableInterrupt env.serde event = true :=
      not_interrupt_of_ne (by rw [htype]; decide)
    obtain ⟨had, only, hnote⟩ := noteToolCalls_eq env s event
    have hpush := pushEvent_eq h.continuePoint hno
    have hcreated : sseEventType env.serde event ≠ some "response.created" := by rw [htype]; decide
    have hdelta : sseEventType env.serde event ≠ some "response.output_text.delta" := by rw [htype]; decide
    have hframe := h.of_ne hcreated hdelta
    rw [hnote, htype, SseSink.pushEvent.push.eq_def] at hpush
    simp only [hrecon] at hpush
    refine ⟨_, [], hpush, ?_, ?_⟩
    · rw [← hrecon]
      exact hframe.noted had only s.sentEvents
    · rw [resentNote, itemNote, htype]
      rfl
  | some kind =>
    have htext := hevent.textOnly
    rw [keepsTextOnly, htype, Option.all_some, Bool.and_eq_true, decide_eq_true_eq] at htext
    obtain ⟨hkind, hmessage⟩ := htext
    rw [htype, ne_eq, Option.some.injEq] at hopen
    simp only [textRetryEventTypes, List.mem_cons, List.not_mem_nil, or_false] at hkind
    rcases hkind with rfl | rfl | rfl | rfl | rfl | rfl | rfl | rfl | rfl | rfl | rfl
    · exact pushEvent_created h htype
    · exact pushEvent_silent h htype (.inl rfl)
    · refine pushEvent_silent h htype (.inr (.inr ⟨rfl, ?_⟩))
      simpa using hmessage
    · exact pushEvent_silent h htype (.inr (.inl rfl))
    · exact pushEvent_delta h hevent.unchanged htype hevent.passing hevent.agrees hevent.renames
    · exact pushEvent_done h hevent.unchanged htype (by simp) hevent.renames
    · exact pushEvent_done h hevent.unchanged htype (by simp) hevent.renames
    · exact pushEvent_done h hevent.unchanged htype (by simp) hevent.renames
    · exact absurd rfl hopen
    · exact pushEvent_failed h hevent htype (.inl rfl)
    · exact pushEvent_failed h hevent htype (.inr rfl)

/-- The completion of the retry, written or held. -/
theorem pushEvent_completed (h : Reconciling env t resume front s)
    (hevent : RetryEvent env t resume front event) (hflush : (flushSseThink env t).1 = "")
    (htype : sseEventType env.serde event = some "response.completed")
    (hfull : resume.resumePrefix.toList <+: (deltaText env.serde front).toList) :
    ∃ s' texts, s.pushEvent env event = (s', texts, .continues)
      ∧ itemNotes env.serde (texts ++ s'.heldCompleted.toList)
        = (resentNote env.serde resume front event).toList := by
  obtain ⟨regenerated, hrecon, hregenerated⟩ := h.recon
  have hcreated : sseEventType env.serde event ≠ some "response.created" := by
    rw [htype]
    decide
  have hdelta : sseEventType env.serde event ≠ some "response.output_text.delta" := by
    rw [htype]
    decide
  have hnote : itemNote env.serde event = some .completed := by
    rw [itemNote, htype]
    rfl
  have hlength := hfull.length_le
  rw [String.length_toList, String.length_toList] at hlength
  have hread : resentNote env.serde resume front event = some .completed := by
    rw [resentNote, hnote]
    show (if _ then _ else _) = _
    rw [if_pos hlength]
  have hrenames := hevent.renames
  rw [renamedEvent_of_ne resume front hdelta, retryIds_of_ne env.serde hcreated hdelta, hnote] at hrenames
  obtain ⟨had, only, hold, hpush, -⟩ := pushEvent_reconcile hrecon h.continuePoint htype
    (not_interrupt_of_ne (by rw [htype]; decide))
  have hbranch : ∀ s : SseSink, ∀ recon : ReconcileState,
      s.pushReconcile env recon hold "response.completed" event
        = s.pushRetryEnd env recon hold "response.completed" event := by
    intro s recon
    rw [SseSink.pushReconcile]
    simp
  -- What has been regenerated is the whole delivered text, if it is not passed.
  have hcaught : ¬ (decide (resume.resumePrefix.length < (deltaText env.serde front).length) = false
      ∧ "response.completed" = "response.completed" ∧ regenerated ≠ resume.resumePrefix) := by
    rintro ⟨hnot, -, hne⟩
    rw [decide_eq_false_iff_not] at hnot
    refine hne ?_
    rw [hregenerated (by omega)]
    refine String.toList_injective (hfull.eq_of_length_le ?_).symm
    rw [String.length_toList, String.length_toList]
    omega
  rw [hbranch, SseSink.pushRetryEnd, if_neg hcaught] at hpush
  have hthink : rewriteSseTextWith env s.think event = (event, s.think) := by
    rw [h.think]
    exact hevent.unchanged
  have hflush' : (flushSseThink env s.think).1 = "" := by
    rw [h.think]
    exact hflush
  cases hold with
  | true =>
    rw [if_pos rfl, SseSink.hold] at hpush
    simp only [hthink, hflush', String.append_empty] at hpush
    refine ⟨_, [], hpush, ?_⟩
    rw [hread]
    show itemNotes env.serde [_] = _
    rw [itemNotes_singleton, SseSink.retryRewrites]
    simp only [h.responseId, h.itemId]
    exact congrArg Option.toList hrenames
  | false =>
    rw [if_neg (by decide)] at hpush
    obtain ⟨sent, texts, hforward, hnotes⟩ := forwardRetryEvent_eq
      (s := { s with hadToolCall := had, textOnly := only, terminal := true }) hthink ⟨resume, regenerated,
        decide (resume.resumePrefix.length < (deltaText env.serde front).length),
        (retryIds env.serde front).1, (retryIds env.serde front).2⟩
    refine ⟨_, texts, hpush.trans hforward, ?_⟩
    show itemNotes env.serde (texts ++ s.heldCompleted.toList) = _
    rw [h.held, Option.toList_none, List.append_nil, hread, hnotes, SseSink.retryRewrites]
    simp only [h.responseId, h.itemId]
    exact congrArg Option.toList hrenames

/-- What the client reads of these events of the retry, behind the first ones. -/
def resentNotes (serde : Serde) (resume : StreamResume) (front : List String) : List String → List ItemNote
  | [] => []
  | event :: rest =>
    (resentNote serde resume front event).toList ++ resentNotes serde resume (front ++ [event]) rest

/-- A retry that sends the text again, in the events of a text answer and with ids that
stand nowhere else in them. -/
structure RetryAttempt (env : SinkEnv) (t : SseThink) (resume : StreamResume) (events : List String) :
    Prop where
  unchanged : ∀ event ∈ events, rewriteSseTextWith env t event = (event, t)
  passing : ∀ front event back, events = front ++ event :: back → Passes env.serde resume front event →
    rewriteSseTextWith env t (renamedEvent env.serde resume front event)
      = (renamedEvent env.serde resume front event, t)
  textOnly : ∀ event ∈ events, keepsTextOnly env.serde event = true
  last : ∀ front event back, events = front ++ event :: back →
    sseEventType env.serde event = some "response.completed" → back = []
  regenerates : resume.resumePrefix.toList <+: (deltaText env.serde events).toList
  renames : ∀ front event back, events = front ++ event :: back →
    itemNote env.serde (renamedEvent env.serde resume front event)
      = (itemNote env.serde event).map (ItemNote.rename (renamedId env.serde resume front event))

/-- The text behind some events begins the whole text. -/
theorem deltaText_prefix (serde : Serde) (events events' : List String) :
    (deltaText serde events).toList <+: (deltaText serde (events ++ events')).toList := by
  rw [deltaText_append, String.toList_append]
  exact List.prefix_append _ _

theorem RetryAttempt.retryEvent {events : List String} (h : RetryAttempt env t resume events)
    {back : List String} (heq : events = front ++ event :: back) :
    RetryEvent env t resume front event := by
  have hmem : event ∈ events := heq ▸ List.mem_append_right _ List.mem_cons_self
  refine ⟨h.unchanged event hmem, h.passing front event back heq, h.textOnly event hmem, ?_,
    h.renames front event back heq⟩
  have hbegins : (deltaText env.serde (front ++ [event])).toList <+: (deltaText env.serde events).toList := by
    have hbehind := deltaText_prefix env.serde (front ++ [event]) back
    rwa [List.append_assoc, List.singleton_append, ← heq] at hbehind
  exact List.prefix_or_prefix_of_prefix hbegins h.regenerates

theorem pushAll_retry {events back : List String} (hretry : RetryAttempt env t resume events)
    (hflush : (flushSseThink env t).1 = "") (h : Reconciling env t resume front s)
    (heq : events = front ++ back) :
    ∃ s' texts, s.pushAll env back = (s', texts, .continues)
      ∧ itemNotes env.serde (texts ++ s'.heldCompleted.toList)
        = resentNotes env.serde resume front back := by
  induction back generalizing front s with
  | nil =>
    refine ⟨s, [], rfl, ?_⟩
    rw [h.held]
    rfl
  | cons event back ih =>
    have hevent := hretry.retryEvent heq
    by_cases htype : sseEventType env.serde event = some "response.completed"
    · obtain rfl := hretry.last front event back heq htype
      have hfull : resume.resumePrefix.toList <+: (deltaText env.serde front).toList := by
        have hdelta : sseEventType env.serde event ≠ some "response.output_text.delta" := by
          rw [htype]
          decide
        have hregenerates := hretry.regenerates
        rwa [heq, deltaText_of_ne env.serde hdelta] at hregenerates
      obtain ⟨s', texts, hpush, hnotes⟩ := pushEvent_completed h hevent hflush htype hfull
      refine ⟨s', texts ++ [], ?_, ?_⟩
      · rw [SseSink.pushAll, hpush]
        rfl
      · rw [List.append_nil, hnotes, resentNotes, resentNotes, List.append_nil]
    · obtain ⟨s₁, texts₁, hpush, hframe, hnotes⟩ := pushEvent_retry h hevent htype
      obtain ⟨s₂, texts₂, hrest, hnotes'⟩ := ih hframe (by rw [heq, List.append_assoc, List.singleton_append])
      refine ⟨s₂, texts₁ ++ texts₂, ?_, ?_⟩
      · rw [SseSink.pushAll, hpush]
        simp only [hrest]
      · rw [itemNotes, List.append_assoc, List.filterMap_append, ← itemNotes, ← itemNotes, hnotes, hnotes',
          resentNotes]

end

end CodexRouter
