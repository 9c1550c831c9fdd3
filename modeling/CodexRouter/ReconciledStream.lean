/-
# The stream that the client gets

The client gets the events of a first attempt and, behind them, what the sink passes on of
the retry.  Items get lost in two ways: an item that only the retry announces stays
unannounced, and an item whose end falls short of the delivered text is never ended.
`wellFormed_clientEvents_iff` says that the stream is well formed if neither happens, and
not otherwise.
-/
import CodexRouter.SseReconcile

namespace CodexRouter

open Text

/-! ## What is resent -/

section

variable {serde : Serde} {resume : StreamResume}

theorem mem_resentNotes {front back : List String} {note : ItemNote} :
    note ∈ resentNotes serde resume front back
      ↔ ∃ before event after, back = before ++ event :: after
        ∧ resentNote serde resume (front ++ before) event = some note := by
  induction back generalizing front with
  | nil =>
    constructor
    · intro hmem
      cases hmem
    · rintro ⟨before, event, after, heq, -⟩
      cases before <;> cases heq
  | cons first rest ih =>
    rw [resentNotes, List.mem_append, Option.mem_toList, ih]
    constructor
    · rintro (hfirst | ⟨before, event, after, rfl, hnote⟩)
      · exact ⟨[], first, rest, rfl, by rwa [List.append_nil]⟩
      · refine ⟨first :: before, event, after, rfl, ?_⟩
        rwa [List.append_assoc, List.singleton_append] at hnote
    · rintro ⟨before, event, after, heq, hnote⟩
      cases before with
      | nil =>
        obtain ⟨rfl, rfl⟩ := List.cons.inj heq
        rw [List.append_nil] at hnote
        exact .inl hnote
      | cons first' before =>
        obtain ⟨rfl, rfl⟩ := List.cons.inj heq
        refine .inr ⟨before, event, after, rfl, ?_⟩
        rwa [List.append_assoc, List.singleton_append]

theorem resentNotes_append (front events events' : List String) :
    resentNotes serde resume front (events ++ events')
      = resentNotes serde resume front events ++ resentNotes serde resume (front ++ events) events' := by
  induction events generalizing front with
  | nil => rw [List.nil_append, resentNotes, List.nil_append, List.append_nil]
  | cons event rest ih =>
    rw [List.cons_append, resentNotes, resentNotes, ih, List.append_assoc, List.append_assoc,
      List.singleton_append]

/-- What the client reads of an event is what the event says, with the known ids. -/
theorem resentNote_eq_some {front : List String} {event : String} {note : ItemNote} :
    resentNote serde resume front event = some note
      ↔ (note = .completed ∧ itemNote serde event = some .completed
          ∧ resume.resumePrefix.length ≤ (deltaText serde front).length)
        ∨ ∃ told id, itemNote serde event = some told ∧ told.mentioned = some id
          ∧ resume.resumePrefix.length < (deltaText serde (front ++ [event])).length
          ∧ note = told.rename (renamedId serde resume front event) := by
  rw [resentNote]
  cases itemNote serde event with
  | none => simp
  | some told =>
    cases told with
    | added id => simp [ItemNote.mentioned]
    | completed =>
      simp only [Option.some.injEq, true_and]
      split <;> simp_all [ItemNote.mentioned, eq_comm]
    | said id =>
      simp only [Option.some.injEq, reduceCtorEq, false_and, and_false, false_or]
      split <;> simp_all [ItemNote.mentioned, eq_comm]
    | done id =>
      simp only [Option.some.injEq, reduceCtorEq, false_and, and_false, false_or]
      split <;> simp_all [ItemNote.mentioned, eq_comm]

variable (serde resume)

/-- An event of these, behind the point where the delivered text is passed, ends the item. -/
def EndedBehind (events : List String) (id : Option String) : Prop :=
  ∃ front event back id', events = front ++ event :: back
    ∧ resume.resumePrefix.length < (deltaText serde (front ++ [event])).length
    ∧ itemNote serde event = some (.done id') ∧ renamedId serde resume front event id' = id

/-- The retry speaks of no item, beyond the delivered text, that the first attempt has not
announced, and it ends every item that the first attempt has announced, if it completes. -/
structure KeepsItems (events retry : List String) : Prop where
  announced : ∀ front event back, retry = front ++ event :: back →
    resume.resumePrefix.length < (deltaText serde (front ++ [event])).length →
    ∀ note id, itemNote serde event = some note → note.mentioned = some id →
      .added (renamedId serde resume front event id) ∈ itemNotes serde events
  ended : ∀ front event back, retry = front ++ event :: back →
    itemNote serde event = some .completed → ∀ id, .added id ∈ itemNotes serde events →
      .done id ∈ itemNotes serde events ∨ EndedBehind serde resume front id

variable {serde resume}

/-- A note of the retry with the id that the client knows. -/
theorem mentioned_rename {note : ItemNote} {f : Option String → Option String} {id : Option String}
    (h : note.mentioned = some id) : (note.rename f).mentioned = some (f id) := by
  cases note with
  | added id' => cases h
  | completed => cases h
  | said id' =>
    cases h
    rfl
  | done id' =>
    cases h
    rfl

theorem done_mem_resentNotes {events : List String} {id : Option String} :
    .done id ∈ resentNotes serde resume [] events ↔ EndedBehind serde resume events id := by
  rw [mem_resentNotes, EndedBehind]
  constructor
  · rintro ⟨front, event, back, heq, hnote⟩
    rw [List.nil_append, resentNote_eq_some] at hnote
    rcases hnote with ⟨hdone, -, -⟩ | ⟨told, id', htold, hid, hpast, hrename⟩
    · cases hdone
    · cases told with
      | added id' => cases hid
      | completed => cases hid
      | said id' => cases hrename
      | done id' =>
        cases hrename
        exact ⟨front, event, back, id', heq, hpast, htold, rfl⟩
  · rintro ⟨front, event, back, id', heq, hpast, htold, rfl⟩
    refine ⟨front, event, back, heq, ?_⟩
    rw [List.nil_append, resentNote_eq_some]
    exact .inr ⟨_, id', htold, rfl, hpast, rfl⟩

theorem added_not_mem_resentNotes (events : List String) (id : Option String) :
    .added id ∉ resentNotes serde resume [] events := by
  intro hmem
  obtain ⟨front, event, back, heq, hnote⟩ := mem_resentNotes.mp hmem
  rcases resentNote_eq_some.mp hnote with ⟨hadded, -, -⟩ | ⟨told, id', htold, hid, hpast, hrename⟩
  · cases hadded
  · have hmentioned := mentioned_rename (f := renamedId serde resume ([] ++ front) event) hid
    rw [← hrename] at hmentioned
    cases hmentioned

/-- Only a completion says that the response is completed. -/
theorem itemNote_completed_iff {event : String} :
    itemNote serde event = some .completed ↔ sseEventType serde event = some "response.completed" := by
  rw [itemNote]
  constructor
  · intro hnote
    split at hnote <;> first | assumption | cases hnote
  · intro htype
    rw [htype]
    rfl

theorem completed_mem_resentNotes {events : List String} (h : .completed ∈ resentNotes serde resume [] events) :
    ∃ front event back, events = front ++ event :: back ∧ itemNote serde event = some .completed := by
  obtain ⟨front, event, back, heq, hnote⟩ := mem_resentNotes.mp h
  rcases resentNote_eq_some.mp hnote with ⟨-, hcompleted, -⟩ | ⟨told, id', htold, hid, hpast, hrename⟩
  · exact ⟨front, event, back, heq, hcompleted⟩
  · have hmentioned := mentioned_rename (f := renamedId serde resume ([] ++ front) event) hid
    rw [← hrename] at hmentioned
    cases hmentioned

/-- The last note of a list, if it is nowhere else in it. -/
theorem append_cons_eq_concat {α : Type} {front back notes : List α} {note : α} (h : note ∉ notes)
    (heq : front ++ note :: back = notes ++ [note]) : front = notes := by
  rcases List.append_eq_append_iff.mp heq with ⟨mid, rfl, hmid⟩ | ⟨mid, rfl, hmid⟩
  · cases mid with
    | nil => rw [List.append_nil]
    | cons first mid =>
      obtain ⟨rfl, -⟩ := List.cons.inj hmid
      exact absurd (List.mem_append_right _ List.mem_cons_self) h
  · cases mid with
    | nil => rw [List.append_nil]
    | cons first mid =>
      obtain ⟨-, hnil⟩ := List.cons.inj hmid
      cases mid <;> cases hnil

end

/-! ## The client -/

section

variable (env : SinkEnv) (hold disableThinkRewrite deepseekDsml : Bool)

/-- The events that the client gets of a first attempt and of the retry behind it. -/
def clientEvents (events retry : List String) : List String :=
  let (s, texts, _) := (SseSink.withPolicy none none hold disableThinkRewrite deepseekDsml).pushAll env events
  match s.eofOutcome with
  | .retryableWithPrefix resume =>
    let (s, texts', _) :=
      (SseSink.withPolicy (some resume) none hold disableThinkRewrite deepseekDsml).pushAll env retry
    texts ++ (texts' ++ s.heldCompleted.toList)
  | _ => texts

/-- What a first attempt has delivered. -/
def resumeOf (serde : Serde) (events : List String) : StreamResume :=
  ⟨deltaText serde events, (resumeIds serde events).1, (resumeIds serde events).2⟩

/-- A first attempt that breaks off after nothing but text. -/
structure FirstAttempt (events : List String) : Prop where
  plain : ∀ event ∈ events, PlainEvent env (.new disableThinkRewrite deepseekDsml) event
  sent : ∃ event ∈ events, sseEventIsRetryableInterrupt env.serde event = false
  wellFormed : WellFormed (itemNotes env.serde events)

theorem freshly_withPolicy : Freshly env (.new disableThinkRewrite deepseekDsml) []
    (.withPolicy none none hold disableThinkRewrite deepseekDsml) := by
  refine ⟨rfl, rfl, rfl, rfl, rfl, rfl, rfl, rfl, rfl, ?_⟩
  rintro ⟨event, hmem, -⟩
  cases hmem

theorem reconciling_withPolicy (resume : StreamResume) :
    Reconciling env (.new disableThinkRewrite deepseekDsml) resume []
      (.withPolicy (some resume) none hold disableThinkRewrite deepseekDsml) := by
  refine ⟨⟨"", ?_, fun _ => rfl⟩, rfl, rfl, rfl, rfl, rfl⟩
  have hnot : ¬ resume.resumePrefix.length < (deltaText env.serde []).length :=
    Nat.not_lt.mpr (Nat.zero_le _)
  rw [decide_eq_false hnot]
  rfl

variable {env hold disableThinkRewrite deepseekDsml}

theorem flushSseThink_new : (flushSseThink env (.new disableThinkRewrite deepseekDsml)).1 = "" := by
  rw [flushSseThink, if_pos ⟨rfl, rfl⟩]

/-- The client reads the notes of the first attempt and those that are resent. -/
theorem itemNotes_clientEvents {events retry : List String}
    (hfirst : FirstAttempt env disableThinkRewrite deepseekDsml events)
    (hretry : RetryAttempt env (.new disableThinkRewrite deepseekDsml) (resumeOf env.serde events) retry) :
    itemNotes env.serde (clientEvents env hold disableThinkRewrite deepseekDsml events retry)
      = itemNotes env.serde events ++ resentNotes env.serde (resumeOf env.serde events) [] retry := by
  obtain ⟨s, texts, hpush, hfresh, hnotes⟩ := pushAll_fresh
    (freshly_withPolicy env hold disableThinkRewrite deepseekDsml) hfirst.plain
  rw [List.nil_append] at hfresh
  have hcut : s.eofOutcome = .retryableWithPrefix (resumeOf env.serde events) := by
    rw [hfresh.eofOutcome_eq hfirst.sent, SseSink.resumePoint, resumeOf, hfresh.delivered, ← hfresh.ids]
  have hstart := reconciling_withPolicy env hold disableThinkRewrite deepseekDsml
    (resumeOf env.serde events)
  obtain ⟨s', texts', hpush', hnotes'⟩ := pushAll_retry hretry flushSseThink_new hstart
    (List.nil_append retry).symm
  rw [clientEvents, hpush]
  simp only [hcut, hpush']
  rw [itemNotes, List.filterMap_append, ← itemNotes, ← itemNotes, hnotes, hnotes']

/-- The client sees a well-formed stream exactly if the retry keeps the items. -/
theorem wellFormed_clientEvents_iff {events retry : List String}
    (hfirst : FirstAttempt env disableThinkRewrite deepseekDsml events)
    (hretry : RetryAttempt env (.new disableThinkRewrite deepseekDsml) (resumeOf env.serde events) retry) :
    WellFormed (itemNotes env.serde (clientEvents env hold disableThinkRewrite deepseekDsml events retry))
      ↔ KeepsItems env.serde (resumeOf env.serde events) events retry := by
  rw [itemNotes_clientEvents hfirst hretry,
    wellFormed_append_iff hfirst.wellFormed (added_not_mem_resentNotes retry)]
  -- A completion is the last event, and what stands before it is the text again.
  have hlast : ∀ front event back, retry = front ++ event :: back →
      itemNote env.serde event = some .completed →
      resentNotes env.serde (resumeOf env.serde events) [] retry
          = resentNotes env.serde (resumeOf env.serde events) [] front ++ [.completed]
        ∧ .completed ∉ resentNotes env.serde (resumeOf env.serde events) [] front := by
    intro front event back heq hcompleted
    have htype := itemNote_completed_iff.mp hcompleted
    obtain rfl := hretry.last front event back heq htype
    have hdelta : sseEventType env.serde event ≠ some "response.output_text.delta" := by
      rw [htype]
      decide
    have hlength := hretry.regenerates.length_le
    rw [heq, deltaText_of_ne env.serde hdelta, String.length_toList, String.length_toList] at hlength
    constructor
    · rw [heq, resentNotes_append, List.nil_append, resentNotes, resentNotes, List.append_nil,
        resentNote_eq_some.mpr (.inl ⟨rfl, hcompleted, hlength⟩)]
      rfl
    · intro hmem
      obtain ⟨before, event', after, rfl, hcompleted'⟩ := completed_mem_resentNotes hmem
      have hnil := hretry.last before event' (after ++ [event])
        (by rw [heq, List.append_assoc, List.cons_append]) (itemNote_completed_iff.mp hcompleted')
      cases after <;> cases hnil
  constructor
  · rintro ⟨hknown, hends⟩
    constructor
    · intro front event back heq hpast note id hnote hid
      refine hknown (note.rename (renamedId env.serde (resumeOf env.serde events) front event)) ?_ _
        (mentioned_rename hid)
      rw [mem_resentNotes]
      refine ⟨front, event, back, heq, ?_⟩
      rw [List.nil_append, resentNote_eq_some]
      exact .inr ⟨note, id, hnote, hid, hpast, rfl⟩
    · intro front event back heq hcompleted id hid
      obtain ⟨hnotes, -⟩ := hlast front event back heq hcompleted
      rw [← done_mem_resentNotes]
      exact hends _ [] hnotes id hid
  · rintro ⟨hknown, hends⟩
    constructor
    · intro note hmem id hid
      obtain ⟨front, event, back, heq, hnote⟩ := mem_resentNotes.mp hmem
      rw [List.nil_append, resentNote_eq_some] at hnote
      rcases hnote with ⟨rfl, -, -⟩ | ⟨told, id', htold, hid', hpast, rfl⟩
      · cases hid
      · obtain rfl := Option.some.inj ((mentioned_rename hid').symm.trans hid)
        exact hknown front event back heq hpast told id' htold hid'
    · intro front' back' heq' id hid
      have hmem : .completed ∈ resentNotes env.serde (resumeOf env.serde events) [] retry :=
        heq' ▸ List.mem_append_right _ List.mem_cons_self
      obtain ⟨front, event, back, heq, hcompleted⟩ := completed_mem_resentNotes hmem
      obtain ⟨hnotes, hno⟩ := hlast front event back heq hcompleted
      obtain rfl := append_cons_eq_concat hno (heq'.symm.trans hnotes)
      rw [done_mem_resentNotes]
      exact hends front event back heq hcompleted id hid

end

/-! ## Events of one line -/

/-- An event with one line of data. -/
def dataEvent (text : String) : String := "data: " ++ text ++ "\n\n"

/-- A text without control characters, and without white space around it. -/
structure OneLine (text : String) : Prop where
  inline : text.toList.all (fun c => 32 ≤ c.toNat) = true
  trimmed : trim text = text

section

variable {text : String}

theorem OneLine.ne_of_mem (h : OneLine text) {c : Char} (hc : c ∈ text.toList) : c ≠ '\n' ∧ c ≠ '\r' := by
  have hall := of_decide_eq_true (List.all_eq_true.mp h.inline c hc)
  constructor <;> rintro rfl <;> exact absurd hall (by decide)

theorem toList_dataEvent (text : String) :
    (dataEvent text).toList = ("data: ".toList ++ text.toList) ++ ['\n', '\n'] := by
  rw [dataEvent, String.toList_append, String.toList_append]
  rfl

theorem OneLine.ne_of_mem_data (h : OneLine text) {c : Char} (hc : c ∈ "data: ".toList ++ text.toList) :
    c ≠ '\n' ∧ c ≠ '\r' := by
  rcases List.mem_append.mp hc with hc | hc
  · have hlist : ∀ c ∈ ['d', 'a', 't', 'a', ':', ' '], c ≠ '\n' ∧ c ≠ '\r' := by simp
    exact hlist c hc
  · exact h.ne_of_mem hc

theorem OneLine.lines_dataEvent (h : OneLine text) :
    lines (dataEvent text) = ["data: " ++ text, ""] := by
  have hline : ∀ c ∈ "data: ".toList ++ text.toList, decide (c = '\n') = false := fun c hc =>
    decide_eq_false (h.ne_of_mem_data hc).1
  have hkept : dropTrailingCr ("data: ".toList ++ text.toList) = "data: ".toList ++ text.toList := by
    rw [dropTrailingCr]
    split
    · rename_i hlast
      exact absurd rfl (h.ne_of_mem_data (List.mem_of_getLast? hlast)).2
    · rfl
  rw [lines, toList_dataEvent, splitChars_append_cons (by decide) hline]
  show List.map String.ofList [dropTrailingCr ("data: ".toList ++ text.toList), []] = _
  rw [hkept, ← String.toList_append, List.map_cons, List.map_singleton, String.ofList_toList]

theorem OneLine.sseLineData_eq (h : OneLine text) : sseLineData ("data: " ++ text) = some text := by
  have hstart : trimStart ("data: " ++ text) = "data: " ++ text := by
    rw [trimStart, trimStartMatches, String.toList_append]
    show String.ofList ("data: ".toList ++ text.toList) = _
    rw [← String.toList_append, String.ofList_toList]
  have hblank : trim (String.ofList (' ' :: text.toList)) = trim text := by
    rw [trim, trimMatches, String.toList_ofList, List.dropWhile_cons_of_pos (by decide)]
    rfl
  rw [sseLineData, hstart, stripPrefix, startsWith, String.toList_append]
  show some (trim (String.ofList (' ' :: text.toList))) = some text
  rw [hblank, h.trimmed]

theorem sseLineData_empty : sseLineData "" = none := by decide

theorem OneLine.sseEventData_eq (serde : Serde) (h : OneLine text) :
    sseEventData serde (dataEvent text) = serde.fromStr text := by
  rw [sseEventData, h.lines_dataEvent, List.findSome?_cons, h.sseLineData_eq, Option.bind_some]
  cases serde.fromStr text with
  | some v => rfl
  | none =>
    show List.findSome? _ [""] = none
    rw [List.findSome?_cons, sseLineData_empty]
    rfl

theorem OneLine.sseEventIsTerminal_eq (serde : Serde) (h : OneLine text) (hdone : text ≠ "[DONE]") :
    sseEventIsTerminal serde (dataEvent text)
      = ((serde.fromStr text).bind (Value.getStr "type")).any fun kind =>
        kind ∈ ["response.completed", "response.failed", "response.incomplete"] := by
  rw [sseEventIsTerminal, h.lines_dataEvent, List.any_cons, List.any_cons, h.sseLineData_eq,
    sseLineData_empty, Option.bind_some]
  simp [hdone]

/-- The data of the event with another delta. -/
theorem OneLine.rewriteDeltaEvent_of_fromStr {serde : Serde} {v : Value} (h : OneLine text)
    (hv : serde.fromStr text = some v) (newDelta : String) (rewrites : List (String × String)) :
    rewriteDeltaEvent serde (dataEvent text) newDelta rewrites
      = some (dataEvent (replaceIds rewrites (serde.toText (v.insert "delta" (.string newDelta))))) := by
  have hfull : trim ("data: " ++ text) ≠ "" := by
    intro hempty
    have hwhite := isWhitespace_of_trim hempty (c := 'd') (by
      rw [String.toList_append]
      exact List.mem_cons_self)
    exact absurd hwhite (by decide)
  have hblank : rewriteDeltaLine serde newDelta rewrites "" = some "" := by
    rw [rewriteDeltaLine, if_pos (by decide)]
  rw [rewriteDeltaEvent, h.lines_dataEvent, List.mapM_cons, List.mapM_cons, List.mapM_nil, hblank, rewriteDeltaLine,
    if_neg hfull, h.sseLineData_eq]
  dsimp only
  rw [hv, Option.map_some]
  generalize replaceIds rewrites (serde.toText (v.insert "delta" (.string newDelta))) = sent
  show some (("data: " ++ sent ++ "\n") ++ "" ++ "" ++ "\n") = _
  rw [String.append_empty, String.append_empty, String.append_assoc]
  rfl

theorem OneLine.takeSseEvent_eq (h : OneLine text) :
    takeSseEvent (dataEvent text) = some (dataEvent text, "") := by
  have hlf : find (dataEvent text) "\n\n" = some ("data: ".toList ++ text.toList).length := by
    rw [find, toList_dataEvent]
    generalize hcs : "data: ".toList ++ text.toList = cs
    have hno : ∀ c ∈ cs, c ≠ '\n' := fun c hc => (h.ne_of_mem_data (hcs ▸ hc)).1
    clear hcs
    induction cs with
    | nil => rfl
    | cons c cs ih =>
      have hc : '\n' ≠ c := (hno c List.mem_cons_self).symm
      rw [List.cons_append]
      show (if (['\n', '\n'].isPrefixOf (c :: (cs ++ ['\n', '\n']))) then some 0 else
        (findChars ['\n', '\n'] (cs ++ ['\n', '\n'])).map (· + 1)) = _
      have hfalse : ['\n', '\n'].isPrefixOf (c :: (cs ++ ['\n', '\n'])) = false := by
        rw [List.isPrefixOf, beq_eq_false_iff_ne.mpr hc, Bool.false_and]
      rw [hfalse]
      have hrest : findChars ['\n', '\n'] (cs ++ ['\n', '\n']) = some cs.length :=
        ih fun d hd => hno d (List.mem_cons_of_mem _ hd)
      rw [hrest]
      rfl
  have hcrlf : find (dataEvent text) "\r\n\r\n" = none := by
    rw [find, toList_dataEvent]
    refine findChars_cons_eq_none ?_
    rw [List.mem_append, not_or]
    exact ⟨fun hmem => (h.ne_of_mem_data hmem).2 rfl, by decide⟩
  have hlength : ("data: ".toList ++ text.toList).length + 2 = (dataEvent text).toList.length := by
    simp only [toList_dataEvent, List.length_append]
    rfl
  rw [takeSseEvent, sseEventEnd, hlf, hcrlf]
  show some (String.ofList ((dataEvent text).toList.take (_ + 2)),
    String.ofList ((dataEvent text).toList.drop (_ + 2))) = _
  rw [hlength, List.take_length, List.drop_length, String.ofList_toList]

theorem trim_dataEvent_ne (text : String) : trim (dataEvent text) ≠ "" := by
  intro hblank
  have hmem : 'd' ∈ (dataEvent text).toList := by
    rw [toList_dataEvent]
    exact List.mem_cons_self
  have hwhite := isWhitespace_of_trim hblank hmem
  revert hwhite
  decide

end

section

theorem flatten_lfBlocks (n : ℕ) (cs : List Char) : (lfBlocks n cs).flatten = cs := by
  induction n generalizing cs with
  | zero => rw [lfBlocks, List.flatten_cons, List.flatten_nil, List.append_nil]
  | succ n ih =>
    rw [lfBlocks]
    split
    · rw [List.flatten_cons, List.flatten_nil, List.append_nil]
    · rw [List.flatten_cons, ih, List.take_append_drop]

/-- Where no event is changed, no text is. -/
theorem rewriteSseTextWith_eq {env : SinkEnv} (h : ∀ t event, env.rewriteMarkedEvent t event = (event, t))
    (t : SseThink) (text : String) : rewriteSseTextWith env t text = (text, t) := by
  have hevent : ∀ event, rewriteSseEvent env t event = (event, t) := by
    intro event
    rw [rewriteSseEvent]
    split
    · rfl
    · exact h t event
  have hblocks : ∀ pieces : List (List Char), rewriteBlocks env t pieces = (String.ofList pieces.flatten, t) := by
    intro pieces
    induction pieces with
    | nil => rfl
    | cons piece rest ih =>
      rw [rewriteBlocks, hevent]
      simp only [ih]
      rw [← String.ofList_append, List.flatten_cons]
  rw [rewriteSseTextWith, hblocks, flatten_lfBlocks, String.ofList_toList]

end

/-! ## Two cuts -/

theorem forall_split_nil {α : Type} {p : List α → α → List α → Prop} :
    (∀ front a back, [] = front ++ a :: back → p front a back) ↔ True := by
  refine ⟨fun _ => trivial, fun _ front a back heq => ?_⟩
  cases front <;> cases heq

/-- The splits of a list, the one at its start first. -/
theorem forall_split_cons {α : Type} {a : α} {rest : List α} {p : List α → α → List α → Prop} :
    (∀ front b back, a :: rest = front ++ b :: back → p front b back)
      ↔ p [] a rest ∧ ∀ front b back, rest = front ++ b :: back → p (a :: front) b back := by
  constructor
  · intro h
    refine ⟨h [] a rest rfl, ?_⟩
    rintro front b back rfl
    exact h (a :: front) b back rfl
  · rintro ⟨hfirst, hrest⟩ front b back heq
    cases front with
    | nil =>
      obtain ⟨rfl, rfl⟩ := List.cons.inj heq
      exact hfirst
    | cons a' front =>
      obtain ⟨rfl, rfl⟩ := List.cons.inj heq
      exact hrest front b back rfl

/-- What an event of a type says. -/
theorem itemNote_of_type {serde : Serde} {event kind : String} (h : sseEventType serde event = some kind) :
    itemNote serde event =
      let id := ((sseEventData serde event).bind (Value.get "item")).bind (Value.getStr "id")
      if kind = "response.output_item.added" then some (.added id)
      else if kind = "response.output_text.delta" ∨ kind = "response.output_text.done" then
        some (.said (sseEventItemId serde event))
      else if kind = "response.output_item.done" then some (.done id)
      else if kind = "response.completed" then some .completed
      else none := by
  rw [itemNote, h]
  split <;> simp_all

/-! A first attempt that has announced an item and said `Hel`. -/

/-- Ids that are not empty are replaced in the characters. -/
theorem toList_replaceIds {rewrites : List (String × String)} {text : String}
    (h : ∀ ids ∈ rewrites, ids.1.toList ≠ []) :
    (replaceIds rewrites text).toList
      = rewrites.foldl (fun cs ids => replaceChars ids.1.toList ids.2.toList 0 cs) text.toList := by
  induction rewrites generalizing text with
  | nil => rfl
  | cons ids rewrites ih =>
    show (replaceIds rewrites (replace text ids.1 ids.2)).toList = _
    rw [ih fun ids' hmem => h ids' (List.mem_cons_of_mem _ hmem), replace,
      if_neg (h ids List.mem_cons_self), String.toList_ofList, List.foldl_cons]

namespace CutAnswer

def created : String := "\x7b\"response\":\x7b\"id\":\"resp_1\"\x7d,\"type\":\"response.created\"\x7d"
def added : String := "\x7b\"item\":\x7b\"id\":\"m1\",\"type\":\"message\"\x7d,\"type\":\"response.output_item.added\"\x7d"
def hel : String := "\x7b\"delta\":\"Hel\",\"item_id\":\"m1\",\"type\":\"response.output_text.delta\"\x7d"
def lo : String := "\x7b\"delta\":\"lo\",\"item_id\":\"m1\",\"type\":\"response.output_text.delta\"\x7d"
def done : String := "\x7b\"item\":\x7b\"id\":\"m1\",\"type\":\"message\"\x7d,\"type\":\"response.output_item.done\"\x7d"
def completed : String := "\x7b\"response\":\x7b\"id\":\"resp_1\"\x7d,\"type\":\"response.completed\"\x7d"
def created' : String := "\x7b\"response\":\x7b\"id\":\"resp_2\"\x7d,\"type\":\"response.created\"\x7d"
def added' : String := "\x7b\"item\":\x7b\"id\":\"m2\",\"type\":\"message\"\x7d,\"type\":\"response.output_item.added\"\x7d"
def hel' : String := "\x7b\"delta\":\"Hel\",\"item_id\":\"m2\",\"type\":\"response.output_text.delta\"\x7d"
def hello' : String := "\x7b\"delta\":\"Hello\",\"item_id\":\"m2\",\"type\":\"response.output_text.delta\"\x7d"
def done' : String := "\x7b\"item\":\x7b\"id\":\"m2\",\"type\":\"message\"\x7d,\"type\":\"response.output_item.done\"\x7d"
def completed' : String := "\x7b\"response\":\x7b\"id\":\"resp_2\"\x7d,\"type\":\"response.completed\"\x7d"

def ofResponse (id kind : String) : Value :=
  .object [("response", .object [("id", .string id)]), ("type", .string kind)]

def ofItem (id kind : String) : Value :=
  .object [("item", .object [("id", .string id), ("type", .string "message")]), ("type", .string kind)]

def ofDelta (id delta : String) : Value :=
  .object [("delta", .string delta), ("item_id", .string id), ("type", .string "response.output_text.delta")]

/-- The texts of the events, and what is read in them. -/
def table : List (String × Value) :=
  [(created, ofResponse "resp_1" "response.created"), (added, ofItem "m1" "response.output_item.added"),
    (hel, ofDelta "m1" "Hel"), (lo, ofDelta "m1" "lo"), (done, ofItem "m1" "response.output_item.done"),
    (completed, ofResponse "resp_1" "response.completed"),
    (created', ofResponse "resp_2" "response.created"), (added', ofItem "m2" "response.output_item.added"),
    (hel', ofDelta "m2" "Hel"), (hello', ofDelta "m2" "Hello"), (done', ofItem "m2" "response.output_item.done"),
    (completed', ofResponse "resp_2" "response.completed")]

/-- A JSON library that knows these texts. -/
def serde : Serde where
  fromStr text := (table.find? fun entry => entry.1 = text).map (·.2)
  toText := Serde.print

/-- None of these events is changed by the think scanner. -/
def env : SinkEnv where
  serde := serde
  toolNameRestoreActive := false
  rewriteMarkedEvent t event := (event, t)
  flushHeldThink t := ("", t)

theorem fromStr_table : ∀ entry ∈ table, serde.fromStr entry.1 = some entry.2 := by
  decide +kernel

theorem chars_table : ∀ entry ∈ table, entry.1.toList.all (fun c => 32 ≤ c.toNat) = true
    ∧ entry.1.toList.head? = some '{' ∧ entry.1.toList.getLast? = some '}' := by
  simp only [table, List.forall_mem_cons, created, added, hel, lo, done, completed, created', added', hel',
    hello', done', completed', String.reduceToList]
  decide +kernel

section

variable {text : String} {v : Value}

theorem oneLine_of_mem (h : (text, v) ∈ table) : OneLine text := by
  obtain ⟨hinline, hfirst, hlast⟩ := chars_table _ h
  obtain ⟨cs, hcs⟩ := List.head?_eq_some_iff.mp hfirst
  rw [hcs] at hlast
  exact ⟨hinline, trim_eq_self hcs (by decide) hlast (by decide)⟩

theorem sseEventData_of_mem (h : (text, v) ∈ table) : sseEventData serde (dataEvent text) = some v := by
  rw [(oneLine_of_mem h).sseEventData_eq, fromStr_table _ h]

theorem unchanged (t : SseThink) (event : String) : rewriteSseTextWith env t event = (event, t) :=
  rewriteSseTextWith_eq (fun _ _ => rfl) t event

/-- An event that is read as a part of a text answer. -/
theorem plainEvent_of_mem (h : (text, v) ∈ table) (t : SseThink)
    (honly : keepsTextOnly serde (dataEvent text) = true)
    (htool : sseEventHasToolCall serde (dataEvent text) = false)
    (hleak : leaksToolCall serde ((sseEventDelta serde (dataEvent text)).length + 1)
      (sseEventDelta serde (dataEvent text)).toList = false)
    (hopen : ((v.getStr "type").any fun kind =>
      kind ∈ ["response.completed", "response.failed", "response.incomplete"]) = false)
    (hno : sseBlockHasReasoning (dataEvent text) = false) : PlainEvent env t (dataEvent text) := by
  have hline := oneLine_of_mem h
  refine ⟨hline.takeSseEvent_eq, trim_dataEvent_ne text, unchanged t _, honly, htool, hleak, hno, ?_⟩
  have hdone : text ≠ "[DONE]" := by
    intro heq
    obtain ⟨-, hfirst, -⟩ := chars_table _ h
    rw [heq] at hfirst
    revert hfirst
    show "[DONE]".toList.head? ≠ some '{'
    decide
  intro hterminal
  rw [hline.sseEventIsTerminal_eq _ hdone, show env.serde.fromStr _ = _ from fromStr_table _ h,
    Option.bind_some, hopen] at hterminal
  cases hterminal

end

theorem data_created : sseEventData serde (dataEvent created) = some (ofResponse "resp_1" "response.created") :=
  sseEventData_of_mem (by simp only [table, List.mem_cons, true_or])

theorem data_added : sseEventData serde (dataEvent added) = some (ofItem "m1" "response.output_item.added") :=
  sseEventData_of_mem (by simp only [table, List.mem_cons, true_or, or_true])

theorem data_hel : sseEventData serde (dataEvent hel) = some (ofDelta "m1" "Hel") :=
  sseEventData_of_mem (by simp only [table, List.mem_cons, true_or, or_true])

theorem data_lo : sseEventData serde (dataEvent lo) = some (ofDelta "m1" "lo") :=
  sseEventData_of_mem (by simp only [table, List.mem_cons, true_or, or_true])

theorem data_done : sseEventData serde (dataEvent done) = some (ofItem "m1" "response.output_item.done") :=
  sseEventData_of_mem (by simp only [table, List.mem_cons, true_or, or_true])

theorem data_completed :
    sseEventData serde (dataEvent completed) = some (ofResponse "resp_1" "response.completed") :=
  sseEventData_of_mem (by simp only [table, List.mem_cons, true_or, or_true])

theorem data_created' : sseEventData serde (dataEvent created') = some (ofResponse "resp_2" "response.created") :=
  sseEventData_of_mem (by simp only [table, List.mem_cons, true_or, or_true])

theorem data_added' : sseEventData serde (dataEvent added') = some (ofItem "m2" "response.output_item.added") :=
  sseEventData_of_mem (by simp only [table, List.mem_cons, true_or, or_true])

theorem data_hel' : sseEventData serde (dataEvent hel') = some (ofDelta "m2" "Hel") :=
  sseEventData_of_mem (by simp only [table, List.mem_cons, true_or, or_true])

theorem data_hello' : sseEventData serde (dataEvent hello') = some (ofDelta "m2" "Hello") :=
  sseEventData_of_mem (by simp only [table, List.mem_cons, true_or, or_true])

theorem data_done' : sseEventData serde (dataEvent done') = some (ofItem "m2" "response.output_item.done") :=
  sseEventData_of_mem (by simp only [table, List.mem_cons, true_or, or_true])

theorem data_completed' :
    sseEventData serde (dataEvent completed') = some (ofResponse "resp_2" "response.completed") :=
  sseEventData_of_mem (by simp only [table, List.mem_cons, true_or, or_true])

def cut : List String := [created, added, hel].map dataEvent


theorem noReasoning : sseBlockHasReasoning (dataEvent created) = false
    ∧ sseBlockHasReasoning (dataEvent added) = false ∧ sseBlockHasReasoning (dataEvent hel) = false := by
  simp only [sseBlockHasReasoning, contains, find, toList_dataEvent, created, added, hel, String.reduceToList]
  decide +kernel

/-- What the events are read as. -/
theorem types :
    sseEventType serde (dataEvent created) = some "response.created"
      ∧ sseEventType serde (dataEvent added) = some "response.output_item.added"
      ∧ sseEventType serde (dataEvent hel) = some "response.output_text.delta"
      ∧ sseEventType serde (dataEvent lo) = some "response.output_text.delta"
      ∧ sseEventType serde (dataEvent done) = some "response.output_item.done"
      ∧ sseEventType serde (dataEvent completed) = some "response.completed"
      ∧ sseEventType serde (dataEvent created') = some "response.created"
      ∧ sseEventType serde (dataEvent added') = some "response.output_item.added"
      ∧ sseEventType serde (dataEvent hel') = some "response.output_text.delta"
      ∧ sseEventType serde (dataEvent hello') = some "response.output_text.delta"
      ∧ sseEventType serde (dataEvent done') = some "response.output_item.done"
      ∧ sseEventType serde (dataEvent completed') = some "response.completed" := by
  simp [sseEventType, data_created, data_added, data_hel, data_lo, data_done, data_completed, data_created',
    data_added', data_hel', data_hello', data_done', data_completed', ofResponse, ofItem, ofDelta,
    Value.getStr, Value.get, Members.get, Value.asStr]

/-- What the events say. -/
theorem notes :
    itemNote serde (dataEvent created) = none
      ∧ itemNote serde (dataEvent added) = some (.added (some "m1"))
      ∧ itemNote serde (dataEvent hel) = some (.said (some "m1"))
      ∧ itemNote serde (dataEvent lo) = some (.said (some "m1"))
      ∧ itemNote serde (dataEvent done) = some (.done (some "m1"))
      ∧ itemNote serde (dataEvent completed) = some .completed
      ∧ itemNote serde (dataEvent created') = none
      ∧ itemNote serde (dataEvent added') = some (.added (some "m2"))
      ∧ itemNote serde (dataEvent hel') = some (.said (some "m2"))
      ∧ itemNote serde (dataEvent hello') = some (.said (some "m2"))
      ∧ itemNote serde (dataEvent done') = some (.done (some "m2"))
      ∧ itemNote serde (dataEvent completed') = some .completed := by
  obtain ⟨h₁, h₂, h₃, h₄, h₅, h₆, h₇, h₈, h₉, h₁₀, h₁₁, h₁₂⟩ := types
  rw [itemNote_of_type h₁, itemNote_of_type h₂, itemNote_of_type h₃, itemNote_of_type h₄, itemNote_of_type h₅,
    itemNote_of_type h₆, itemNote_of_type h₇, itemNote_of_type h₈, itemNote_of_type h₉, itemNote_of_type h₁₀,
    itemNote_of_type h₁₁, itemNote_of_type h₁₂]
  simp [sseEventItemId, data_added, data_hel, data_lo, data_done, data_added', data_hel', data_hello', data_done',
    ofItem, ofDelta, Value.getStr, Value.get, Members.get, Value.asStr]

theorem itemNotes_cut : itemNotes serde cut = [.added (some "m1"), .said (some "m1")] := by
  simp [cut, itemNotes, notes]

theorem firstAttempt : FirstAttempt env false false cut := by
  refine ⟨?_, ⟨dataEvent created, ?_, ?_⟩, ?_⟩
  · obtain ⟨hcreated, hadded, hhel⟩ := noReasoning
    have hleaks : leaksToolCall serde 1 [] = false ∧ leaksToolCall serde 4 ['H', 'e', 'l'] = false := by
      decide
    intro event hmem
    simp only [cut, List.map_cons, List.map_nil, List.mem_cons, List.not_mem_nil, or_false] at hmem
    rcases hmem with rfl | rfl | rfl
    · refine plainEvent_of_mem (v := ofResponse "resp_1" "response.created")
        (by simp only [table, List.mem_cons, true_or]) _ ?_ ?_ ?_ ?_ hcreated
      all_goals simp [keepsTextOnly, sseEventHasToolCall, sseEventDelta, sseEventType, sseEventItemType,
        data_created, ofResponse, Value.getStr, Value.get, Members.get, Value.asStr, textRetryEventTypes, hleaks]
    · refine plainEvent_of_mem (v := ofItem "m1" "response.output_item.added")
        (by simp only [table, List.mem_cons, true_or, or_true]) _ ?_ ?_ ?_ ?_ hadded
      all_goals simp [keepsTextOnly, sseEventHasToolCall, sseEventDelta, sseEventType, sseEventItemType,
        data_added, ofItem, Value.getStr, Value.get, Members.get, Value.asStr, textRetryEventTypes, hleaks]
    · refine plainEvent_of_mem (v := ofDelta "m1" "Hel")
        (by simp only [table, List.mem_cons, true_or, or_true]) _ ?_ ?_ ?_ ?_ hhel
      case refine_3 =>
        have hdelta : sseEventDelta serde (dataEvent hel) = "Hel" := by
          simp [sseEventDelta, data_hel, ofDelta, Value.getStr, Value.get, Members.get, Value.asStr]
        rw [hdelta]
        decide
      all_goals simp [keepsTextOnly, sseEventHasToolCall, sseEventType, sseEventItemType, data_hel,
        ofDelta, Value.getStr, Value.get, Members.get, Value.asStr, textRetryEventTypes]
  · simp only [cut, List.map_cons, List.mem_cons, true_or]
  · rw [← Bool.not_eq_true]
    refine not_interrupt_of_ne ?_
    rw [sseEventType, show sseEventData env.serde _ = _ from data_created]
    simp [ofResponse, Value.getStr, Value.get, Members.get, Value.asStr]
  · rw [show itemNotes env.serde cut = _ from itemNotes_cut]
    constructor
    · intro front note back heq id hid
      rcases front with - | ⟨first, - | ⟨second, front⟩⟩
      · cases heq
        cases hid
      · cases heq
        cases hid
        exact List.mem_cons_self
      · cases front <;> cases heq
    · intro front back heq
      rcases front with - | ⟨first, - | ⟨second, front⟩⟩
      · cases heq
      · cases heq
      · cases front <;> cases heq

theorem resumeOf_cut : resumeOf serde cut = ⟨"Hel", some "resp_1", some "m1"⟩ := by
  simp [resumeOf, cut, deltaText, eventVisibleText, resumeIds, updateResumeIdsFromSseEvent, sseEventType,
    sseEventItemId, sseEventResponseId, sseEventDelta, data_created, data_added, data_hel, ofResponse,
    ofItem, ofDelta, Value.getStr, Value.get, Members.get, Value.asStr]

/-- The text that is delivered when the attempt is cut. -/
def resume : StreamResume := ⟨"Hel", some "resp_1", some "m1"⟩

/-- A retry that says its text in one delta. -/
def retry (delta : String) : List String :=
  [dataEvent created', dataEvent added', delta, dataEvent done', dataEvent completed']

theorem replaceIds_eq :
    replaceIds [("resp_2", "resp_1")] (dataEvent created') = dataEvent created
      ∧ replaceIds [("resp_2", "resp_1")] (dataEvent added') = dataEvent added'
      ∧ replaceIds [("resp_2", "resp_1"), ("m2", "m1")] (dataEvent hel') = dataEvent hel
      ∧ replaceIds [("resp_2", "resp_1"), ("m2", "m1")] (dataEvent done') = dataEvent done
      ∧ replaceIds [("resp_2", "resp_1"), ("m2", "m1")] (dataEvent completed') = dataEvent completed := by
  refine ⟨?_, ?_, ?_, ?_, ?_⟩
  all_goals
    rw [← String.toList_inj, toList_replaceIds (by simp)]
    simp only [toList_dataEvent]
    simp only [List.foldl_cons, List.foldl_nil, created, added', created', hel, hel', done, done', completed,
      completed', String.reduceToList]
    decide +kernel

theorem rewriteDeltaEvent_eq :
    rewriteDeltaEvent serde (dataEvent hello') "lo" [("resp_2", "resp_1"), ("m2", "m1")]
      = some (dataEvent lo) := by
  have hline : OneLine hello' := oneLine_of_mem (v := ofDelta "m2" "Hello")
    (by simp only [table, List.mem_cons, true_or, or_true])
  have hread : serde.fromStr hello' = some (ofDelta "m2" "Hello") := fromStr_table (hello', ofDelta "m2" "Hello")
    (by simp only [table, List.mem_cons, true_or, or_true])
  have htext : replaceIds [("resp_2", "resp_1"), ("m2", "m1")] (Serde.print ((ofDelta "m2" "Hello").insert "delta"
      (.string "lo"))) = lo := by
    have hprint : Serde.print ((ofDelta "m2" "Hello").insert "delta" (.string "lo"))
        = "\x7b\"delta\":\"lo\",\"item_id\":\"m2\",\"type\":\"response.output_text.delta\"\x7d" := by
      decide +kernel
    rw [hprint, ← String.toList_inj, toList_replaceIds (by simp)]
    simp only [List.foldl_cons, List.foldl_nil, lo, String.reduceToList]
    decide +kernel
  rw [hline.rewriteDeltaEvent_of_fromStr hread]
  exact congrArg (fun text => some (dataEvent text)) htext

section

variable {delta text : String} (htype : sseEventType serde delta = some "response.output_text.delta")
  (hid : sseEventItemId serde delta = some "m2") (htext : sseEventDelta serde delta = text)

include htype

include hid in
theorem retryIds_eq :
    retryIds serde [dataEvent created'] = (some "resp_2", none)
      ∧ retryIds serde [dataEvent created', dataEvent added'] = (some "resp_2", none)
      ∧ retryIds serde [dataEvent created', dataEvent added', delta] = (some "resp_2", some "m2")
      ∧ retryIds serde [dataEvent created', dataEvent added', delta, dataEvent done']
        = (some "resp_2", some "m2")
      ∧ retryIds serde (retry delta) = (some "resp_2", some "m2") := by
  simp [retry, retryIds, noteRetryIds, types, htype, hid, sseEventResponseId, data_created', ofResponse,
    Value.getStr, Value.get, Members.get, Value.asStr]

include htext in
theorem deltaText_eq :
    deltaText serde [dataEvent created'] = "" ∧ deltaText serde [dataEvent created', dataEvent added'] = ""
      ∧ deltaText serde [dataEvent created', dataEvent added', delta] = text
      ∧ deltaText serde [dataEvent created', dataEvent added', delta, dataEvent done'] = text
      ∧ deltaText serde (retry delta) = text := by
  simp [retry, deltaText, eventVisibleText, types, htype, htext]

include hid in
theorem renamedEvent_eq :
    renamedEvent serde resume [] (dataEvent created') = dataEvent created
      ∧ renamedEvent serde resume [dataEvent created'] (dataEvent added') = dataEvent added'
      ∧ renamedEvent serde resume [dataEvent created', dataEvent added', delta] (dataEvent done')
        = dataEvent done
      ∧ renamedEvent serde resume [dataEvent created', dataEvent added', delta, dataEvent done']
        (dataEvent completed') = dataEvent completed := by
  obtain ⟨hcreated, hadded, -, hdone, hcompleted⟩ := replaceIds_eq
  obtain ⟨hids, hids', -, hids₃, hids₄⟩ := retryIds_eq htype hid
  refine ⟨?_, ?_, ?_, ?_⟩
  · rw [renamedEvent, if_neg (by simp [Passes, types])]
    show replaceIds (idPairs (retryIds serde [dataEvent created']) _) _ = _
    rw [hids]
    exact hcreated
  · rw [renamedEvent, if_neg (by simp [Passes, types])]
    show replaceIds (idPairs (retryIds serde [_, _]) _) _ = _
    rw [hids']
    exact hadded
  · rw [renamedEvent, if_neg (by simp [Passes, types])]
    show replaceIds (idPairs (retryIds serde [_, _, _, _]) _) _ = _
    rw [hids₃]
    exact hdone
  · rw [renamedEvent, if_neg (by simp [Passes, types])]
    show replaceIds (idPairs (retryIds serde (retry delta)) _) _ = _
    rw [hids₄]
    exact hcompleted

include hid in
theorem renamedId_eq :
    renamedId serde resume [dataEvent created'] (dataEvent added') (some "m2") = some "m2"
      ∧ renamedId serde resume [dataEvent created', dataEvent added'] delta (some "m2") = some "m1"
      ∧ renamedId serde resume [dataEvent created', dataEvent added', delta] (dataEvent done') (some "m2")
        = some "m1" := by
  obtain ⟨-, hids', hids₂, hids₃, -⟩ := retryIds_eq htype hid
  refine ⟨?_, ?_, ?_⟩
  · rw [renamedId, List.cons_append, List.nil_append, hids']
  · rw [renamedId, List.cons_append, List.cons_append, List.nil_append, hids₂]
    exact if_pos rfl
  · rw [renamedId, List.cons_append, List.cons_append, List.cons_append, List.nil_append, hids₃]
    exact if_pos rfl

include hid htext in
theorem retryAttempt {renamed : String} (hbegins : "Hel".toList <+: text.toList)
    (hrenamed : renamedEvent serde resume [dataEvent created', dataEvent added'] delta = renamed)
    (hnote : itemNote serde renamed = some (.said (some "m1"))) (t : SseThink) :
    RetryAttempt env t resume (retry delta) := by
  obtain ⟨hr₀, hr₁, hr₃, hr₄⟩ := renamedEvent_eq htype hid
  obtain ⟨hid₁, hid₂, hid₃⟩ := renamedId_eq htype hid
  obtain ⟨-, -, -, -, hdelta⟩ := deltaText_eq htype htext
  refine ⟨fun event _ => unchanged t event, fun front event back _ _ => unchanged t _, ?_, ?_, ?_, ?_⟩
  · intro event hmem
    simp only [retry, List.mem_cons, List.not_mem_nil, or_false] at hmem
    rcases hmem with rfl | rfl | rfl | rfl | rfl
    all_goals simp [keepsTextOnly, env, types, htype, textRetryEventTypes, sseEventItemType, data_added', data_done',
      ofItem, Value.getStr, Value.get, Members.get, Value.asStr]
  · simp only [retry, env, forall_split_cons, forall_split_nil]
    simp [types, htype]
  · show "Hel".toList <+: (deltaText serde (retry delta)).toList
    rw [hdelta]
    exact hbegins
  · simp only [retry, env, forall_split_cons, forall_split_nil, and_true]
    rw [hr₀, hr₁, hr₃, hr₄, hrenamed, hnote, itemNote_of_type htype]
    simp [notes, hid, hid₁, hid₂, hid₃, ItemNote.rename]

end

theorem said_hello : sseEventType serde (dataEvent hello') = some "response.output_text.delta"
    ∧ sseEventItemId serde (dataEvent hello') = some "m2" ∧ sseEventDelta serde (dataEvent hello') = "Hello" := by
  simp [types, sseEventItemId, sseEventDelta, data_hello', ofDelta, Value.getStr, Value.get, Members.get, Value.asStr]

/-- With the longer delta the retry gets beyond the text of the cut, with the rest of it. -/
theorem passes_hello : Passes serde resume [dataEvent created', dataEvent added'] (dataEvent hello')
    ∧ String.ofList ((deltaText serde ([dataEvent created', dataEvent added'] ++ [dataEvent hello'])).toList.drop
      resume.resumePrefix.length) = "lo" := by
  obtain ⟨htype, -, htext⟩ := said_hello
  obtain ⟨-, htext₂, htext₃, -, -⟩ := deltaText_eq htype htext
  rw [Passes, List.cons_append, List.cons_append, List.nil_append, htext₂, htext₃]
  exact ⟨⟨htype, by decide, by decide⟩, by decide⟩

theorem renamedEvent_hello : renamedEvent serde resume [dataEvent created', dataEvent added'] (dataEvent hello')
    = dataEvent lo := by
  obtain ⟨htype, hid, -⟩ := said_hello
  obtain ⟨-, -, hids₂, -, -⟩ := retryIds_eq htype hid
  have hpairs : idPairs (some "resp_2", some "m2") (resume.responseId, resume.itemId)
      = [("resp_2", "resp_1"), ("m2", "m1")] := rfl
  rw [renamedEvent, if_pos passes_hello.1, passes_hello.2, List.cons_append, List.cons_append, List.nil_append, hids₂,
    hpairs, rewriteDeltaEvent_eq, Option.getD_some]

theorem attempt_hello (t : SseThink) : RetryAttempt env t resume (retry (dataEvent hello')) := by
  obtain ⟨htype, hid, htext⟩ := said_hello
  exact retryAttempt htype hid htext (by decide) renamedEvent_hello notes.2.2.2.1 t

theorem attempt_hel (t : SseThink) : RetryAttempt env t resume (retry (dataEvent hel')) := by
  obtain ⟨-, -, -, -, -, -, -, -, htype, -, -, -⟩ := types
  have hid : sseEventItemId serde (dataEvent hel') = some "m2" := by
    simp [sseEventItemId, data_hel', ofDelta, Value.getStr, Value.get, Members.get, Value.asStr]
  have htext : sseEventDelta serde (dataEvent hel') = "Hel" := by
    simp [sseEventDelta, data_hel', ofDelta, Value.getStr, Value.get, Members.get, Value.asStr]
  have hrenamed : renamedEvent serde resume [dataEvent created', dataEvent added'] (dataEvent hel')
      = dataEvent hel := by
    obtain ⟨-, htext₂, htext₃, -, -⟩ := deltaText_eq htype htext
    obtain ⟨-, -, hids₂, -, -⟩ := retryIds_eq htype hid
    simp only [renamedEvent, Passes, List.cons_append, List.nil_append, htext₂, htext₃, hids₂]
    rw [if_neg fun hpasses => absurd hpasses.2.2 (by decide)]
    exact replaceIds_eq.2.2.1
  exact retryAttempt htype hid htext (by decide) hrenamed notes.2.2.1 t

theorem keepsItems_hello : KeepsItems serde resume cut (retry (dataEvent hello')) := by
  obtain ⟨htype, hid, htext⟩ := said_hello
  obtain ⟨htext₀, htext₁, htext₂, htext₃, htext₄⟩ := deltaText_eq htype htext
  obtain ⟨-, hid₂, hid₃⟩ := renamedId_eq htype hid
  constructor
  · simp only [retry, forall_split_cons, forall_split_nil, List.nil_append, List.cons_append] at htext₄ ⊢
    rw [htext₀, htext₁, htext₂, htext₃, htext₄, itemNotes_cut]
    simp only [notes]
    refine ⟨fun _ note id h => (by cases h), fun hpast => absurd hpast (by decide), ?_, ?_, ?_, trivial⟩
    · rintro - note id hnote hmentioned
      cases hnote
      cases hmentioned
      rw [hid₂]
      exact List.mem_cons_self
    · rintro - note id hnote hmentioned
      cases hnote
      cases hmentioned
      rw [hid₃]
      exact List.mem_cons_self
    · rintro - note id hnote hmentioned
      cases hnote
      cases hmentioned
  · simp only [retry, forall_split_cons, forall_split_nil, itemNotes_cut]
    simp only [notes]
    refine ⟨fun h => (by cases h), fun h => (by cases h), fun h => (by cases h), fun h => (by cases h), ?_,
      trivial⟩
    intro _ id hid
    obtain rfl : id = some "m1" := by simpa using hid
    refine .inr ⟨[dataEvent created', dataEvent added', dataEvent hello'], dataEvent done', [], some "m2", rfl,
      ?_, notes.2.2.2.2.2.2.2.2.2.2.1, hid₃⟩
    simp only [List.cons_append, List.nil_append, htext₃]
    decide

/-- The item that the client knows is ended by the longer retry. -/
theorem wellFormed_hello :
    WellFormed (itemNotes env.serde (clientEvents env false false false cut (retry (dataEvent hello')))) := by
  have hretry : RetryAttempt env (.new false false) (resumeOf env.serde cut) (retry (dataEvent hello')) := by
    rw [show resumeOf env.serde cut = resume from resumeOf_cut]
    exact attempt_hello _
  refine (wellFormed_clientEvents_iff firstAttempt hretry).mpr ?_
  rw [show resumeOf env.serde cut = resume from resumeOf_cut]
  exact keepsItems_hello

/-- The retry that says the same and completes: the item is never ended. -/
theorem not_wellFormed_hel :
    FirstAttempt env false false cut
      ∧ RetryAttempt env (.new false false) (resumeOf env.serde cut) (retry (dataEvent hel'))
      ∧ ¬ WellFormed (itemNotes env.serde (clientEvents env false false false cut (retry (dataEvent hel')))) := by
  have hretry : RetryAttempt env (.new false false) (resumeOf env.serde cut) (retry (dataEvent hel')) := by
    rw [show resumeOf env.serde cut = resume from resumeOf_cut]
    exact attempt_hel _
  refine ⟨firstAttempt, hretry, ?_⟩
  rw [itemNotes_clientEvents firstAttempt hretry, show resumeOf env.serde cut = resume from resumeOf_cut,
    show itemNotes env.serde cut = _ from itemNotes_cut]
  have hnotes : resentNotes serde resume [] (retry (dataEvent hel')) = [.completed] := by
    have htype : sseEventType serde (dataEvent hel') = some "response.output_text.delta" :=
      types.2.2.2.2.2.2.2.2.1
    have htext : sseEventDelta serde (dataEvent hel') = "Hel" := by
      simp [sseEventDelta, data_hel', ofDelta, Value.getStr, Value.get, Members.get, Value.asStr]
    obtain ⟨-, -, htext₂, htext₃, -⟩ := deltaText_eq htype htext
    obtain ⟨-, -, -, -, -, -, hcreated, hadded, hhel, -, hdone, hcompleted⟩ := notes
    have hnot : ¬ resume.resumePrefix.length < "Hel".length := by decide
    have hle : resume.resumePrefix.length ≤ "Hel".length := by decide
    rw [retry, resentNotes, resentNotes, resentNotes, resentNotes, resentNotes, resentNotes]
    simp only [List.nil_append, List.cons_append]
    rw [resentNote, hcreated, resentNote, hadded, resentNote, hhel, resentNote, hdone, resentNote, hcompleted]
    simp only [List.cons_append, List.nil_append, htext₂, htext₃, if_neg hnot, if_pos hle]
    rfl
  rw [show resentNotes env.serde _ _ _ = _ from hnotes]
  intro h
  have hdone := h.ended [.added (some "m1"), .said (some "m1")] [] rfl (some "m1") List.mem_cons_self
  simp at hdone

end CutAnswer

end CodexRouter
