/-
# The lines of a rewritten stream

`SseRewriter::feed` gets the bytes of a stream as the network cuts them, also inside of
a character or of a line ending.  It buffers the unfinished line, so that `process_line`
sees whole lines.  `run_chunks` says that the cuts are not seen, and that a line which is
no JSON data is passed on byte by byte.
-/
import CodexRouter.Base.LineBuffer
import CodexRouter.Base.Utf8
import CodexRouter.SseRewriter

namespace CodexRouter

open Text

/-- `SseRewriter` with its `pending` bytes. -/
structure BufferedRewriter where
  pending : List UInt8
  rewriter : SseRewriter

/-- The text of a line, `String::from_utf8_lossy`. -/
def lineText (line : List UInt8) : String := String.ofList (Utf8.decodeLossy line)

/-- `process_line` on the bytes of a line. -/
def SseRewriter.processBytes (serde : Serde) (r : SseRewriter) (line : List UInt8) : SseRewriter × List UInt8 :=
  match stripPrefix (lineText line) "data: " with
  | none => (r, line)
  | some data =>
    if trimEnd data = "[DONE]" then ({ r with terminalSeen := some "done" }, line)
    else
      match serde.fromStr (trimEnd data) with
      | none => (r, line)
      | some payload =>
        ({ r with
            usage := (payloadUsage payload).or r.usage
            terminalSeen := (payloadTerminal payload).or r.terminalSeen },
          Utf8.encode ("data: " ++ serde.toText (r.rewritePayload payload) ++ "\n").toList)

/-- The byte that ends a line. -/
def isNewline (b : UInt8) : Bool := b = 10

namespace BufferedRewriter

variable (serde : Serde)

/-- `SseRewriter::new`. -/
def new (poolPrefix publicModel upstreamModel : String) : BufferedRewriter :=
  ⟨[], .new poolPrefix publicModel upstreamModel⟩

/-- `SseRewriter::feed`. -/
def feed (b : BufferedRewriter) (chunk : List UInt8) : BufferedRewriter × List UInt8 :=
  let fed := LineBuffer.drain isNewline (SseRewriter.processBytes serde) b.rewriter (b.pending ++ chunk)
  (⟨fed.2.2, fed.1⟩, fed.2.1)

/-- `SseRewriter::finish`. -/
def finish (b : BufferedRewriter) : BufferedRewriter × List UInt8 :=
  let rest := LineBuffer.finish (SseRewriter.processBytes serde) b.rewriter b.pending
  (⟨[], rest.1⟩, rest.2)

/-- Feed some chunks and finish: the rewriter, and all that it gave out. -/
def run (b : BufferedRewriter) : List (List UInt8) → BufferedRewriter × List UInt8
  | [] => b.finish serde
  | chunk :: rest =>
    let fed := b.feed serde chunk
    let others := fed.1.run rest
    (others.1, fed.2 ++ others.2)

variable {serde} {r : SseRewriter} {b : BufferedRewriter} {line : List UInt8}

/-! ## One line -/

/-- A line `data: ` with a JSON text. -/
def IsDataLine (serde : Serde) (line : List UInt8) : Prop :=
  ∃ data payload, stripPrefix (lineText line) "data: " = some data ∧ serde.fromStr (trimEnd data) = some payload

/-- On the text of a line it is `process_line`. -/
theorem processBytes_fst (r : SseRewriter) (line : List UInt8) :
    (r.processBytes serde line).1 = (r.processLine serde (lineText line)).1 := by
  unfold SseRewriter.processBytes SseRewriter.processLine
  cases stripPrefix (lineText line) "data: " with
  | none => rfl
  | some data =>
    dsimp only
    split
    · rfl
    · cases serde.fromStr (trimEnd data) <;> rfl

/-- The bytes that are given out are the text that is given out. -/
theorem lineText_processBytes (r : SseRewriter) (line : List UInt8) :
    lineText (r.processBytes serde line).2 = (r.processLine serde (lineText line)).2 := by
  unfold SseRewriter.processBytes SseRewriter.processLine
  cases stripPrefix (lineText line) "data: " with
  | none => rfl
  | some data =>
    dsimp only
    split
    · rfl
    · cases serde.fromStr (trimEnd data) with
      | none => rfl
      | some payload =>
        dsimp only
        rw [lineText, Utf8.decodeLossy_encode, String.ofList_toList]

/-- Any other line is passed on as it is. -/
theorem processBytes_of_not_isDataLine (h : ¬ IsDataLine serde line) (r : SseRewriter) :
    (r.processBytes serde line).2 = line := by
  unfold SseRewriter.processBytes
  split
  · rfl
  · rename_i data hdata
    split
    · rfl
    · split
      · rfl
      · rename_i payload hpayload
        exact absurd ⟨data, payload, hdata, hpayload⟩ h

/-! ## The stream -/

theorem run_eq (b : BufferedRewriter) (chunks : List (List UInt8)) :
    b.run serde chunks = let all := LineBuffer.run isNewline (SseRewriter.processBytes serde) b.rewriter b.pending chunks
      (⟨[], all.1⟩, all.2) := by
  induction chunks generalizing b with
  | nil => rfl
  | cons chunk rest ih =>
    rw [run, ih]
    rfl

/-- However a stream is cut, the rewriter ends in the same state and gives out the same bytes as on
the whole stream, and every line that is no JSON data is given out as it is. -/
theorem run_chunks (serde : Serde) (poolPrefix publicModel upstreamModel : String) (chunks : List (List UInt8)) :
    (new poolPrefix publicModel upstreamModel).run serde chunks
        = (new poolPrefix publicModel upstreamModel).run serde [chunks.flatten]
      ∧ ∃ outs, ((new poolPrefix publicModel upstreamModel).run serde chunks).2 = outs.flatten
        ∧ List.Forall₂ (fun line out => ¬ IsDataLine serde line → out = line)
          (LineBuffer.linesOf isNewline chunks.flatten) outs := by
  have hrun : ∀ chunks : List (List UInt8), LineBuffer.run isNewline (SseRewriter.processBytes serde)
      (new poolPrefix publicModel upstreamModel).rewriter (new poolPrefix publicModel upstreamModel).pending chunks
      = LineBuffer.handleAll (SseRewriter.processBytes serde) (.new poolPrefix publicModel upstreamModel)
        (LineBuffer.linesOf isNewline chunks.flatten) := fun chunks => LineBuffer.run_eq_handleAll _ rfl chunks
  constructor
  · rw [run_eq, run_eq, hrun, hrun, List.flatten_singleton]
  · rw [run_eq, hrun]
    exact LineBuffer.handleAll_spec
      (fun r line (h : ¬ IsDataLine serde line) => processBytes_of_not_isDataLine h r) _ _

end BufferedRewriter

end CodexRouter
