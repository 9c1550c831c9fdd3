/-
# The rewriting of a stream on the host

`SseRewriter` passes the lines of an event stream on to the client, with the name of the
internal or upstream model replaced by the public one and with the thought blocks
stripped.  It strips every event by itself, as if its text stood alone.

`cuts_unseen_iff` says when this is the same as stripping the text of all deltas together:
if no delta ends inside of a block or of a tag.
-/
import CodexRouter.Base.Json
import CodexRouter.ThinkTags

namespace CodexRouter

open Text

/-! ## The rewriter -/

/-- `SseRewriter`, between two lines. -/
structure SseRewriter where
  internalModel : String
  upstreamModel : String
  publicModel : String
  usage : Option Value
  terminalSeen : Option String

/-- `SseRewriter::new`. -/
def SseRewriter.new (poolPrefix publicModel upstreamModel : String) : SseRewriter where
  internalModel := poolPrefix ++ "/" ++ publicModel
  upstreamModel := upstreamModel
  publicModel := publicModel
  usage := none
  terminalSeen := none

/-- A text that stands for the model. -/
def SseRewriter.namesModel (r : SseRewriter) (text : String) : Bool :=
  text = r.internalModel || text = r.upstreamModel || startsWith text (r.internalModel ++ "/")

/-- `rewrite_model_value`. -/
def SseRewriter.rewriteModelValue (r : SseRewriter) (payload : Value) : Value :=
  payload.mapStrings fun text => if r.namesModel text then r.publicModel else text

/-- `strip_think_tags_from_value`. -/
def stripThinkTagsFromValue (payload : Value) : Value := payload.mapStrings stripThinkTags

/-- An event that ends the stream without success. -/
def isFailure (kind : String) : Bool := endsWith kind ".failed" || endsWith kind ".cancelled"

/-- Give an error without a code the router's own one. -/
def withErrorCode (error : Value) : Value :=
  if (error.get "code").isSome then error else error.insert "code" (.string "CR-UP-0014")

/-- The error of a failure gets a code. -/
def codeFailure (payload : Value) : Value :=
  if (payload.getStr "type").any isFailure then
    match payload.get "response", payload.get "error" with
    | some (.object members), _ =>
      let error := withErrorCode ((Members.get "error" members).getD (.object []))
      payload.insert "response" (.object (Members.insert "error" error members))
    | _, some (.object members) => payload.insert "error" (withErrorCode (.object members))
    | _, _ => payload
  else payload

/-- What `process_line` makes of the data of a line. -/
def SseRewriter.rewritePayload (r : SseRewriter) (payload : Value) : Value :=
  stripThinkTagsFromValue (r.rewriteModelValue (codeFailure payload))

/-- The usage in the data of a line. -/
def payloadUsage (payload : Value) : Option Value :=
  (payload.get "usage").or (((payload.get "response").bind (Value.get "usage")).or
    (payload.get "usageMetadata"))

/-- The first candidate of a Gemini answer says why it ended. -/
def geminiFinished (payload : Value) : Bool :=
  let first := match payload.get "candidates" with
    | some (.array items) => items.head?
    | some (.object members) => Members.get "0" members
    | _ => none
  (first.bind (Value.get "finishReason")).any (· ≠ Value.null)

/-- The end of the stream that the data of a line announces. -/
def payloadTerminal (payload : Value) : Option String :=
  if geminiFinished payload then some "gemini.finished"
  else (payload.getStr "type").filter fun kind =>
    endsWith kind ".completed" || isFailure kind || kind = "message_stop"

/-- `process_line`: the rewriter, and the line that is passed on. -/
def SseRewriter.processLine (serde : Serde) (r : SseRewriter) (line : String) : SseRewriter × String :=
  match stripPrefix line "data: " with
  | none => (r, line)
  | some data =>
    if trimEnd data = "[DONE]" then ({ r with terminalSeen := some "done" }, line)
    else
      match serde.fromStr (trimEnd data) with
      | none => (r, line)
      | some payload =>
        ({ r with
            usage := (payloadUsage payload).or r.usage
            terminalSeen := (payloadTerminal payload).or r.terminalSeen },
          "data: " ++ serde.toText (r.rewritePayload payload) ++ "\n")

/-! ## The deltas -/

/-- The text of a delta. -/
def deltaOf (payload : Value) : String := (payload.getStr "delta").getD ""

/-- The text of all deltas. -/
def deltaTexts : List Value → String
  | [] => ""
  | payload :: rest => deltaOf payload ++ deltaTexts rest

/-- A delta of text without code marks, which is not the name of a model. -/
structure TextDelta (r : SseRewriter) (payload : Value) : Prop where
  kind : payload.getStr "type" = some "response.output_text.delta"
  delta : (payload.getStr "delta").isSome = true
  noMark : '`' ∉ (deltaOf payload).toList
  noModel : r.namesModel (deltaOf payload) = false

theorem deltaTexts_append (payloads payloads' : List Value) :
    deltaTexts (payloads ++ payloads') = deltaTexts payloads ++ deltaTexts payloads' := by
  induction payloads with
  | nil => rw [List.nil_append, deltaTexts, String.empty_append]
  | cons payload rest ih => rw [List.cons_append, deltaTexts, deltaTexts, ih, String.append_assoc]

theorem deltaTexts_singleton (payload : Value) : deltaTexts [payload] = deltaOf payload := by
  rw [deltaTexts, deltaTexts, String.append_empty]

section

variable {r : SseRewriter} {payload : Value} {payloads : List Value}

/-- A delta is passed on with its text stripped. -/
theorem deltaOf_rewritePayload (h : TextDelta r payload) :
    deltaOf (r.rewritePayload payload) = stripThinkTags (deltaOf payload) := by
  have hcode : codeFailure payload = payload := by
    rw [codeFailure, h.kind, if_neg (by decide)]
  obtain ⟨text, htext⟩ := Option.isSome_iff_exists.mp h.delta
  have hnoModel := h.noModel
  rw [deltaOf, htext, Option.getD_some] at hnoModel
  rw [SseRewriter.rewritePayload, hcode, stripThinkTagsFromValue, SseRewriter.rewriteModelValue, deltaOf,
    deltaOf, Value.getStr_mapStrings, Value.getStr_mapStrings, htext, Option.map_some, Option.map_some,
    hnoModel]
  rfl

/-- What `process_line` passes on of a delta. -/
theorem processLine_of_delta (serde : Serde) {line data : String}
    (hline : stripPrefix line "data: " = some data) (hdone : trimEnd data ≠ "[DONE]")
    (hdata : serde.fromStr (trimEnd data) = some payload) :
    (r.processLine serde line).2 = "data: " ++ serde.toText (r.rewritePayload payload) ++ "\n" := by
  rw [SseRewriter.processLine, hline]
  simp only [if_neg hdone, hdata]

/-- The text of the deltas that are passed on. -/
theorem deltaTexts_rewritten_append (r : SseRewriter) (front back : List Value) :
    deltaTexts ((front ++ back).map r.rewritePayload)
      = deltaTexts (front.map r.rewritePayload) ++ deltaTexts (back.map r.rewritePayload) := by
  rw [List.map_append, deltaTexts_append]

theorem noMark_deltaTexts (h : ∀ payload ∈ payloads, TextDelta r payload) :
    '`' ∉ (deltaTexts payloads).toList := by
  induction payloads with
  | nil => exact List.not_mem_nil
  | cons payload rest ih =>
    rw [deltaTexts, String.toList_append, List.mem_append, not_or]
    exact ⟨(h payload List.mem_cons_self).noMark, ih fun p hp => h p (List.mem_cons_of_mem _ hp)⟩

/-- Stripping restarts behind a text that ends outside of blocks and tags. -/
theorem stripThinkTags_append {text text' : String} (hmark : '`' ∉ text.toList) (hmark' : '`' ∉ text'.toList)
    (h : endsOutside text = true) :
    stripThinkTags (text ++ text') = stripThinkTags text ++ stripThinkTags text' := by
  have hboth : '`' ∉ (text ++ text').toList := by
    rw [String.toList_append, List.mem_append, not_or]
    exact ⟨hmark, hmark'⟩
  rw [endsOutside, ← String.length_toList] at h
  rw [← String.toList_inj, stripThinkTags_eq hboth, String.toList_append, String.toList_append,
    stripThinkTags_eq hmark, stripThinkTags_eq hmark', ← String.length_toList, ← String.length_toList,
    ← String.length_toList, String.toList_append]
  exact scan_append le_rfl h

/-- Where no delta but the last ends inside of a block or of a tag, the cuts are not seen. -/
theorem deltaTexts_rewritten {front : List Value} {next : Value} (h : ∀ payload ∈ front, TextDelta r payload)
    (hnext : TextDelta r next)
    (hcuts : ∀ before after, front = before ++ after → endsOutside (deltaTexts before) = true) :
    deltaTexts ((front ++ [next]).map r.rewritePayload) = stripThinkTags (deltaTexts (front ++ [next])) := by
  induction front using List.reverseRecOn generalizing next with
  | nil =>
    rw [List.nil_append, List.map_singleton, deltaTexts_singleton, deltaTexts_singleton,
      deltaOf_rewritePayload hnext]
  | append_singleton front last ih =>
    have hfront : ∀ payload ∈ front, TextDelta r payload := fun p hp => h p (List.mem_append_left _ hp)
    have hlast : TextDelta r last := h last (List.mem_append_right _ (List.mem_singleton_self last))
    have hstep := ih hfront hlast fun before after heq =>
      hcuts before (after ++ [last]) (by rw [heq, List.append_assoc])
    rw [deltaTexts_rewritten_append, hstep, deltaTexts_append (front ++ [last]), deltaTexts_singleton,
      List.map_singleton, deltaTexts_singleton, deltaOf_rewritePayload hnext,
      stripThinkTags_append (noMark_deltaTexts h) hnext.noMark (hcuts _ [] (List.append_nil _).symm)]

/-- A delta with a text. -/
def deltaPayload (text : String) : Value :=
  .object [("delta", .string text), ("type", .string "response.output_text.delta")]

theorem deltaOf_deltaPayload (text : String) : deltaOf (deltaPayload text) = text := rfl

/-- Behind a text that does not end outside, some delta shows the cut. -/
theorem exists_seen {text poolPrefix publicModel upstreamModel : String} (hmark : '`' ∉ text.toList)
    (h : endsOutside text = false) :
    ∃ next, TextDelta (.new poolPrefix publicModel upstreamModel) (deltaPayload next)
      ∧ stripThinkTags text ++ stripThinkTags next ≠ stripThinkTags (text ++ next) := by
  rw [endsOutside, ← String.length_toList] at h
  obtain ⟨ds, ds', hne, hds, hds'⟩ := exists_swallowed h
  -- One of the two is not the name of the upstream model.
  obtain ⟨next, hnext, hmodel⟩ : ∃ next, Swallowed text.toList next ∧ String.ofList next ≠ upstreamModel := by
    by_cases hfirst : String.ofList ds = upstreamModel
    · refine ⟨ds', hds', fun hsecond => hne ?_⟩
      exact String.ofList_injective (hfirst.trans hsecond.symm)
    · exact ⟨ds, hds, hfirst⟩
  refine ⟨String.ofList next, ⟨rfl, rfl, ?_, ?_⟩, ?_⟩
  · rw [deltaOf_deltaPayload, String.toList_ofList]
    exact hnext.noMark
  · have hslash : ∀ s : String, '/' ∈ s.toList → s ≠ String.ofList next ∧ ¬ s.toList <+: next := by
      intro s hs
      constructor
      · intro heq
        rw [heq, String.toList_ofList] at hs
        exact hnext.noSlash hs
      · exact fun hpre => hnext.noSlash (hpre.subset hs)
    have hinternal : '/' ∈ (poolPrefix ++ "/" ++ publicModel).toList := by
      rw [String.toList_append, String.toList_append]
      exact List.mem_append_left _ (List.mem_append_right _ List.mem_cons_self)
    have hlonger : '/' ∈ (poolPrefix ++ "/" ++ publicModel ++ "/").toList := by
      rw [String.toList_append]
      exact List.mem_append_left _ hinternal
    rw [deltaOf_deltaPayload, SseRewriter.namesModel, SseRewriter.new, Bool.or_eq_false_iff, Bool.or_eq_false_iff]
    refine ⟨⟨decide_eq_false (hslash _ hinternal).1.symm, decide_eq_false hmodel⟩, ?_⟩
    rw [startsWith, ← Bool.not_eq_true, List.isPrefixOf_iff_prefix, String.toList_ofList]
    exact (hslash _ hlonger).2
  · intro heq
    have hboth : '`' ∉ (text ++ String.ofList next).toList := by
      rw [String.toList_append, List.mem_append, not_or, String.toList_ofList]
      exact ⟨hmark, hnext.noMark⟩
    have hnextMark : '`' ∉ (String.ofList next).toList := by
      rw [String.toList_ofList]
      exact hnext.noMark
    have hlength := congrArg (fun s => s.toList.length) heq
    simp only [String.toList_append, List.length_append] at hlength
    rw [stripThinkTags_eq hmark, stripThinkTags_eq hnextMark, stripThinkTags_eq hboth, ← String.length_toList,
      ← String.length_toList, ← String.length_toList, String.toList_append, String.toList_ofList,
      scan_of_not_mem hnext.noBracket le_rfl] at hlength
    have hshorter := hnext.shorter
    omega

end

end CodexRouter
