/-
# The tail of a log

`LogSource::read_new_lines` reads what a log has grown by, keeps the line that has not ended, and hands over those
that have.  A line that grows too long is dropped as soon as a read shows it, up to its end.

A read may end in front of the last byte of a line, so that its carriage return counts; and all carriage returns are
taken off a line, not only that of its ending.  `readsLines_iff` says when neither shows.
-/
import CodexRouter.Base.LineBuffer
import CodexRouter.Base.Text
import CodexRouter.Base.Utf8

namespace CodexRouter

open Utf8 LineBuffer

/-! ## Reading -/

/-- `INITIAL_TAIL_BYTES`. -/
def initialTailBytes : ℕ := 128 * 1024

/-- `MAX_READ_BYTES`. -/
def maxReadBytes : ℕ := 256 * 1024

/-- `MAX_PENDING_BYTES`. -/
def maxPendingBytes : ℕ := 64 * 1024

/-- `b'\n'`. -/
def isLineFeed (b : UInt8) : Bool := b = 10

/-- `LogSource`. -/
structure LogSource where
  offset : ℕ := 0
  pending : List UInt8 := []
  discardingOversizedLine : Bool := false
  initialized : Bool := false
  deriving DecidableEq, Repr

/-- What is behind the first newline. -/
def behindNewline (bytes : List UInt8) : Option (List UInt8) := (cutLine isLineFeed bytes).map (·.2)

/-- What is behind the last newline. -/
def behindLastNewline (bytes : List UInt8) : List UInt8 := (bytes.reverse.takeWhile fun b => !isLineFeed b).reverse

/-- The lines of a text of complete lines. -/
def completeLines (complete : List UInt8) : List String :=
  ((Text.lines (String.ofList (decodeLossy complete))).filter fun line =>
    (encode line.toList).length ≤ maxPendingBytes).map (Text.trimEndMatches (· = '\r'))

namespace LogSource

/-- `read_new_lines`, from where the bytes are appended to `pending`. -/
def append (source : LogSource) (bytes : List UInt8) : List String × LogSource :=
  let pending := source.pending ++ bytes
  let rest := behindLastNewline pending
  let complete := pending.take (pending.length - rest.length)
  if maxPendingBytes < rest.length then
    (completeLines complete, { source with pending := [], discardingOversizedLine := true })
  else (completeLines complete, { source with pending := rest })

/-- `read_new_lines`, from where a line that is too long is passed over. -/
def skip (source : LogSource) (bytes : List UInt8) : List String × LogSource :=
  if source.discardingOversizedLine then
    match behindNewline bytes with
    | some rest => { source with discardingOversizedLine := false }.append rest
    | none => ([], source)
  else source.append bytes

/-- `read_new_lines` of a file, if there is one. -/
def readNewLines (source : LogSource) : Option (List UInt8) → (List String × Bool) × LogSource
  | none => (([], false), {})
  | some file =>
    let initialRead := !source.initialized
    let started : LogSource :=
      if initialRead then { source with initialized := true, offset := file.length - initialTailBytes }
      else if file.length < source.offset then
        { source with offset := 0, pending := [], discardingOversizedLine := false }
      else source
    if file.length ≤ started.offset then (([], initialRead), started)
    else
      let bytes := (file.drop started.offset).take maxReadBytes
      let read := { started with offset := started.offset + bytes.length }
      if initialRead && 0 < started.offset then
        match behindNewline bytes with
        | some rest => (((read.skip rest).1, initialRead), (read.skip rest).2)
        | none => (([], initialRead), { read with discardingOversizedLine := true })
      else (((read.skip bytes).1, initialRead), (read.skip bytes).2)

end LogSource

/-! ## What it is to do -/

/-- A log in UTF-8, and the lengths to which it has grown when it is read. -/
structure LogHistory where
  text : List Char
  lengths : List ℕ
  grows : lengths.Pairwise (· ≤ ·)
  within : ∀ n ∈ lengths, n ≤ (encode text).length

/-- Reads of a log at some of its lengths, in turn: the lines, and the source. -/
def readAll (bytes : List UInt8) : List ℕ → LogSource → List String × LogSource
  | [], source => ([], source)
  | n :: rest, source =>
    let first := source.readNewLines (some (bytes.take n))
    let others := readAll bytes rest first.2
    (first.1.1 ++ others.1, others.2)

/-- The lines of a text that have ended, each with its end. -/
def endedLines (bytes : List UInt8) : List (List UInt8) := (linesOf isLineFeed bytes).filter (·.getLast? = some 10)

/-- A line without its ending. -/
def logText (line : List UInt8) : List Char := Text.dropTrailingCr (decodeLossy line.dropLast)

/-- A line that is not too long. -/
def fits (line : List UInt8) : Bool := (encode (logText line)).length ≤ maxPendingBytes

/-- The lines that are to be handed over. -/
def expectedLines (bytes : List UInt8) : List String :=
  ((endedLines bytes).filter fits).map fun line => String.ofList (logText line)

/-- Where the reads of a log at some lengths end, from an offset on. -/
def readEnds : ℕ → List ℕ → List ℕ
  | _, [] => []
  | offset, n :: rest => min n (offset + maxReadBytes) :: readEnds (min n (offset + maxReadBytes)) rest

namespace LogHistory

variable (history : LogHistory)

/-- The log is read when it is empty, and then at the lengths. -/
def read (lengths : List ℕ) : List String × LogSource := readAll (encode history.text) (0 :: lengths) {}

/-- The bytes read so far. -/
def readBytes : List UInt8 := (encode history.text).take (history.read history.lengths).2.offset

/-- The lines that have ended in what was read are handed over in turn, and little is kept. -/
structure ReadsLines : Prop where
  lines : (history.read history.lengths).1 = expectedLines history.readBytes
  pending : ∀ lengths, lengths <+: history.lengths → (history.read lengths).2.pending.length ≤ maxPendingBytes

/-- No line has a carriage return in front of its ending. -/
def PlainEndings : Prop := ∀ line ∈ endedLines history.readBytes, fits line = true →
  (logText line).getLast? ≠ some '\r'

/-- No read ends between the two bytes of the ending of a line of the greatest length. -/
def EndingsWhole : Prop := ∀ before line after, endedLines history.readBytes = before ++ line :: after →
  (encode (logText line)).length = maxPendingBytes → line.length = maxPendingBytes + 2 →
    before.flatten.length + maxPendingBytes + 1 ∉ readEnds 0 history.lengths

end LogHistory

/-! ## The lines of an encoded text -/

section

variable {lines : List (List UInt8)} {line rest : List UInt8} {cs : List Char}

/-- A line of a text. -/
def EncodedLine (line : List UInt8) : Prop := ∃ cs : List Char, '\n' ∉ cs ∧ line = encode cs ++ [10]

theorem newline_mem_encode (h : '\n' ∈ cs) : 10 ∈ encode cs :=
  List.mem_flatMap.mpr ⟨'\n', h, by decide⟩

/-- The lines of an encoded text are encoded. -/
theorem encodedLine_of_mem (hlines : ∀ line ∈ lines, IsLine isLineFeed line) (h : encode cs = lines.flatten ++ rest) :
    ∀ line ∈ lines, EncodedLine line := by
  induction lines generalizing cs with
  | nil => exact fun line h => absurd h List.not_mem_nil
  | cons line lines ih =>
    rw [List.forall_mem_cons] at hlines ⊢
    obtain ⟨⟨front, b, rfl, hb, hfront⟩, hlines⟩ := hlines
    have hten : b = 10 := of_decide_eq_true hb
    subst hten
    rw [List.flatten_cons, List.append_assoc, List.append_assoc, List.singleton_append] at h
    obtain ⟨ps, qs, -, hps, hqs⟩ := exists_encode_of_append_cons h (by decide)
    refine ⟨⟨ps, fun hmem => ?_, by rw [hps]⟩, ih hlines hqs.symm⟩
    exact absurd (hfront 10 (hps ▸ newline_mem_encode hmem)) (by decide)

theorem splitChars_ne_nil (p : Char → Bool) (cs : List Char) : Text.splitChars p cs ≠ [] := by
  cases cs with
  | nil => exact List.cons_ne_nil _ _
  | cons c cs =>
    rw [Text.splitChars]
    split
    · exact List.cons_ne_nil _ _
    · split <;> exact List.cons_ne_nil _ _

/-- The first line of a text. -/
theorem lines_append_newline (h : '\n' ∉ cs) (more : List Char) :
    Text.lines (String.ofList (cs ++ '\n' :: more))
      = String.ofList (Text.dropTrailingCr cs) :: Text.lines (String.ofList more) := by
  have hcs : ∀ d ∈ cs, decide (d = '\n') = false := fun d hd => decide_eq_false fun heq => h (heq ▸ hd)
  unfold Text.lines
  rw [String.toList_ofList, String.toList_ofList, Text.splitChars_append_cons (by decide) hcs]
  cases hmore : Text.splitChars (fun c => decide (c = '\n')) more with
  | nil => exact absurd hmore (splitChars_ne_nil _ _)
  | cons piece pieces => rfl

theorem decodeLossy_line (cs : List Char) (more : List UInt8) :
    decodeLossy ((encode cs ++ [10]) ++ more) = cs ++ '\n' :: decodeLossy more := by
  have hencode : encode cs ++ [10] = encode (cs ++ ['\n']) := by
    unfold encode
    rw [List.flatMap_append]
    rfl
  rw [hencode, decodeLossy_encode_append, List.append_assoc]
  rfl

theorem logText_encode (cs : List Char) : logText (encode cs ++ [10]) = Text.dropTrailingCr cs := by
  rw [logText, List.dropLast_concat, decodeLossy_encode]

/-- The lines of a text are handed over one by one. -/
theorem completeLines_append (hline : EncodedLine line) (more : List UInt8) :
    completeLines (line ++ more) = (if fits line then
      [Text.trimEndMatches (· = '\r') (String.ofList (logText line))] else []) ++ completeLines more := by
  obtain ⟨cs, hcs, rfl⟩ := hline
  unfold completeLines fits
  rw [decodeLossy_line, lines_append_newline hcs, logText_encode, List.filter_cons, String.toList_ofList]
  split
  · rw [List.map_cons]
    rfl
  · rfl

theorem completeLines_nil : completeLines [] = [] := rfl

/-- What is handed over for a line. -/
def handedOver (line : List UInt8) : List String :=
  if fits line then [Text.trimEndMatches (· = '\r') (String.ofList (logText line))] else []

theorem completeLines_flatten (h : ∀ line ∈ lines, EncodedLine line) :
    completeLines lines.flatten = lines.flatMap handedOver := by
  induction lines with
  | nil => exact completeLines_nil
  | cons line lines ih =>
    rw [List.forall_mem_cons] at h
    rw [List.flatten_cons, completeLines_append h.1, ih h.2, List.flatMap_cons, handedOver]

/-- What is behind the last newline of a text. -/
theorem behindLastNewline_eq (hlines : ∀ line ∈ lines, IsLine isLineFeed line) (hrest : ∀ b ∈ rest, isLineFeed b = false) :
    behindLastNewline (lines.flatten ++ rest) = rest := by
  have htake : ∀ more : List UInt8, (∀ b, more.head? = some b → isLineFeed b = true) →
      (rest.reverse ++ more).takeWhile (fun b => !isLineFeed b) = rest.reverse := by
    intro more hmore
    rw [List.takeWhile_append_of_pos fun b hb => by rw [hrest b (List.mem_reverse.mp hb)]; rfl]
    cases more with
    | nil => rw [List.takeWhile_nil, List.append_nil]
    | cons b more => rw [List.takeWhile_cons_of_neg (by rw [hmore b rfl]; decide), List.append_nil]
  unfold behindLastNewline
  rw [List.reverse_append, htake, List.reverse_reverse]
  intro b hb
  rw [List.head?_reverse] at hb
  cases hlast : lines.getLast? with
  | none =>
    rw [List.getLast?_eq_none_iff.mp hlast] at hb
    cases hb
  | some line =>
    obtain ⟨front, c, rfl, hc, -⟩ := hlines line (List.mem_of_getLast? hlast)
    obtain ⟨init, rfl⟩ := List.getLast?_eq_some_iff.mp hlast
    rw [List.flatten_append, List.flatten_cons, List.flatten_nil, List.append_nil, ← List.append_assoc,
      List.getLast?_concat, Option.some.injEq] at hb
    exact hb ▸ hc

theorem endedLines_eq (hlines : ∀ line ∈ lines, IsLine isLineFeed line) (hrest : ∀ b ∈ rest, isLineFeed b = false) :
    endedLines (lines.flatten ++ rest) = lines := by
  have hended : ∀ line ∈ lines, decide (line.getLast? = some (10 : UInt8)) = true := by
    intro line hline
    obtain ⟨front, b, rfl, hb, -⟩ := hlines line hline
    rw [List.getLast?_concat, of_decide_eq_true hb]
    decide
  rw [endedLines, linesOf_flatten hlines, List.filter_append, List.filter_eq_self.mpr hended]
  by_cases hnil : rest = []
  · rw [hnil]
    exact List.append_nil _
  · have hno : decide (rest.getLast? = some (10 : UInt8)) = false := decide_eq_false fun hlast =>
      absurd (hrest 10 (List.mem_of_getLast? hlast)) (by decide)
    rw [linesOf_of_noEnd hnil hrest, List.filter_singleton, hno, cond_false, List.append_nil]

end

/-! ## The lines that are not dropped -/

/-- The lines in which no read ended too far from their start, from a place on. -/
def keptLines (ends : List ℕ) : ℕ → List (List UInt8) → List (List UInt8)
  | _, [] => []
  | start, line :: rest =>
    (if ∃ stop ∈ ends, start + maxPendingBytes < stop ∧ stop < start + line.length then [] else [line])
      ++ keptLines ends (start + line.length) rest

section

variable {lines lines' : List (List UInt8)} {ends : List ℕ} {start : ℕ}

theorem keptLines_append (ends : List ℕ) (start : ℕ) (lines lines' : List (List UInt8)) :
    keptLines ends start (lines ++ lines')
      = keptLines ends start lines ++ keptLines ends (start + lines.flatten.length) lines' := by
  induction lines generalizing start with
  | nil => rfl
  | cons line lines ih =>
    rw [List.cons_append, keptLines, keptLines, ih, List.flatten_cons, List.length_append, List.append_assoc,
      Nat.add_assoc]

/-- A read that ends behind the lines does not count. -/
theorem keptLines_ends_append {more : List ℕ} (h : ∀ stop ∈ more, start + lines.flatten.length ≤ stop) :
    keptLines (ends ++ more) start lines = keptLines ends start lines := by
  induction lines generalizing start with
  | nil => rfl
  | cons line lines ih =>
    rw [List.flatten_cons, List.length_append] at h
    have hsame : (∃ stop ∈ ends ++ more, start + maxPendingBytes < stop ∧ stop < start + line.length)
        ↔ ∃ stop ∈ ends, start + maxPendingBytes < stop ∧ stop < start + line.length := by
      constructor
      · rintro ⟨stop, hmem, hlow, hhigh⟩
        rcases List.mem_append.mp hmem with hmem | hmem
        · exact ⟨stop, hmem, hlow, hhigh⟩
        · have := h stop hmem
          omega
      · rintro ⟨stop, hmem, hstop⟩
        exact ⟨stop, List.mem_append_left _ hmem, hstop⟩
    rw [keptLines, keptLines, ih fun stop hstop => by have := h stop hstop; omega]
    simp only [hsame]

/-- A read that ended before the lines does not count either. -/
theorem keptLines_of_le (h : ∀ stop ∈ ends, stop ≤ start + maxPendingBytes) : keptLines ends start lines = lines := by
  induction lines generalizing start with
  | nil => rfl
  | cons line lines ih =>
    rw [keptLines, if_neg, ih fun stop hstop => by have := h stop hstop; omega, List.singleton_append]
    rintro ⟨stop, hstop, hlow, -⟩
    have := h stop hstop
    omega

end

/-! ## One read -/

section

variable {bytes : List UInt8} {ends : List ℕ} {lines : List (List UInt8)} {tail : List UInt8} {source : LogSource}

/-- Some read ended too far from the start of the line that has not ended. -/
def Oversized (ends : List ℕ) (lines : List (List UInt8)) : Prop :=
  ∃ stop ∈ ends, lines.flatten.length + maxPendingBytes < stop

instance (ends : List ℕ) (lines : List (List UInt8)) : Decidable (Oversized ends lines) :=
  inferInstanceAs (Decidable (∃ stop ∈ ends, lines.flatten.length + maxPendingBytes < stop))

/-- A source that has read some lines, and a line that has not ended. -/
structure HasRead (bytes : List UInt8) (ends : List ℕ) (lines : List (List UInt8)) (tail : List UInt8)
    (source : LogSource) : Prop where
  initialized : source.initialized = true
  read : bytes.take source.offset = lines.flatten ++ tail
  offset : source.offset ≤ bytes.length
  mem : source.offset ∈ ends
  le : ∀ stop ∈ ends, stop ≤ source.offset
  ended : ∀ line ∈ lines, IsLine isLineFeed line
  unended : ∀ b ∈ tail, isLineFeed b = false
  discarding : source.discardingOversizedLine = decide (Oversized ends lines)
  pending : source.pending = if Oversized ends lines then [] else tail

theorem HasRead.length_eq (h : HasRead bytes ends lines tail source) :
    source.offset = lines.flatten.length + tail.length := by
  have hlength := congrArg List.length h.read
  rw [List.length_take, min_eq_left h.offset, List.length_append] at hlength
  exact hlength

/-- Little is kept. -/
theorem HasRead.length_pending (h : HasRead bytes ends lines tail source) :
    source.pending.length ≤ maxPendingBytes := by
  rw [h.pending]
  split
  · exact Nat.zero_le _
  · rename_i hsmall
    by_contra hlarge
    refine hsmall ⟨source.offset, h.mem, ?_⟩
    have := h.length_eq
    omega

/-- What is appended to the line that has not ended. -/
theorem append_eq {more : List (List UInt8)} {bytes' tail' : List UInt8} (hmore : ∀ line ∈ more, IsLine isLineFeed line)
    (htail : ∀ b ∈ tail', isLineFeed b = false) (h : source.pending ++ bytes' = more.flatten ++ tail') :
    source.append bytes' = (completeLines more.flatten,
      if maxPendingBytes < tail'.length then { source with pending := [], discardingOversizedLine := true }
      else { source with pending := tail' }) := by
  unfold LogSource.append
  dsimp only
  rw [h, behindLastNewline_eq hmore htail, List.length_append, Nat.add_sub_cancel, List.take_left]
  split <;> rfl

/-- Whether the line is oversized counts from its own start. -/
theorem oversized_concat {stop : ℕ} (hends : ∀ stop ∈ ends, stop ≤ lines.flatten.length + maxPendingBytes)
    (hstop : stop = lines.flatten.length + tail.length) :
    Oversized (ends ++ [stop]) lines ↔ maxPendingBytes < tail.length := by
  constructor
  · rintro ⟨stop', hmem, hlt⟩
    rcases List.mem_append.mp hmem with hmem | hmem
    · have := hends stop' hmem
      omega
    · rw [List.mem_singleton.mp hmem] at hlt
      omega
  · intro hlt
    exact ⟨stop, List.mem_append_right _ List.mem_cons_self, by omega⟩

/-- What is appended where no line is passed over. -/
theorem HasRead.of_append (more : List (List UInt8)) {tail' bytes' : List UInt8} {stop : ℕ}
    (hinitialized : source.initialized = true) (hoffset : source.offset = stop) (hlength : stop ≤ bytes.length)
    (hread : bytes.take stop = lines.flatten ++ tail') (hlines : ∀ line ∈ lines, IsLine isLineFeed line)
    (htail : ∀ b ∈ tail', isLineFeed b = false) (hmore : ∀ line ∈ more, IsLine isLineFeed line)
    (hle : ∀ stop' ∈ ends, stop' ≤ stop) (hends : ∀ stop ∈ ends, stop ≤ lines.flatten.length + maxPendingBytes)
    (hnot : source.discardingOversizedLine = false) (happend : source.pending ++ bytes' = more.flatten ++ tail') :
    HasRead bytes (ends ++ [stop]) lines tail' (source.append bytes').2 := by
  have hstop : stop = lines.flatten.length + tail'.length := by
    have := congrArg List.length hread
    rw [List.length_take, min_eq_left hlength, List.length_append] at this
    exact this
  have hsize := oversized_concat hends hstop
  rw [append_eq hmore htail happend]
  have hrest : ∀ source' : LogSource, source'.initialized = true → source'.offset = stop →
      source'.discardingOversizedLine = decide (Oversized (ends ++ [stop]) lines) →
      source'.pending = (if Oversized (ends ++ [stop]) lines then [] else tail') →
      HasRead bytes (ends ++ [stop]) lines tail' source' := by
    intro source' hinitialized hoffset hdiscarding hpending
    refine ⟨hinitialized, by rw [hoffset, hread], by rw [hoffset]; exact hlength,
      by rw [hoffset]; exact List.mem_append_right _ List.mem_cons_self, ?_, hlines, htail, hdiscarding, hpending⟩
    intro stop' hstop'
    rw [hoffset]
    rcases List.mem_append.mp hstop' with hmem | hmem
    · exact hle stop' hmem
    · rw [List.mem_singleton.mp hmem]
  dsimp only
  by_cases hlarge : maxPendingBytes < tail'.length
  · rw [if_pos hlarge]
    exact hrest _ hinitialized hoffset (decide_eq_true (hsize.mpr hlarge)).symm (if_pos (hsize.mpr hlarge)).symm
  · have hsmall := fun h => hlarge (hsize.mp h)
    rw [if_neg hlarge]
    exact hrest _ hinitialized hoffset (by rw [decide_eq_false hsmall]; exact hnot) (if_neg hsmall).symm

/-- What the next bytes give. -/
theorem HasRead.skip (h : HasRead bytes ends lines tail source) {cs : List Char} (hencode : encode cs = bytes)
    {stop : ℕ} (hstop : source.offset ≤ stop) (hlength : stop ≤ bytes.length) :
    ∃ more tail', HasRead bytes (ends ++ [stop]) (lines ++ more) tail'
        (({ source with offset := stop }).skip ((bytes.take stop).drop source.offset)).2
      ∧ (({ source with offset := stop }).skip ((bytes.take stop).drop source.offset)).1
        = (keptLines ends lines.flatten.length more).flatMap handedOver := by
  obtain ⟨more, tail', hsplit, hmore, htail'⟩ := exists_lines isLineFeed (tail ++ (bytes.take stop).drop source.offset)
  have hread : bytes.take stop = (lines ++ more).flatten ++ tail' := by
    rw [List.flatten_append, List.append_assoc, ← hsplit, ← List.append_assoc, ← h.read]
    conv_lhs => rw [← List.take_append_drop source.offset (bytes.take stop)]
    rw [List.take_take, min_eq_left hstop]
  have hlines : ∀ line ∈ lines ++ more, IsLine isLineFeed line := by
    intro line hline
    rcases List.mem_append.mp hline with hline | hline
    · exact h.ended line hline
    · exact hmore line hline
  have hencoded : ∀ line ∈ more, EncodedLine line := by
    have hall := @encodedLine_of_mem _ (tail' ++ bytes.drop stop) cs hlines (by
      rw [hencode, ← List.append_assoc, ← hread, List.take_append_drop])
    exact fun line hline => hall line (List.mem_append_right _ hline)
  have hle : ∀ stop' ∈ ends, stop' ≤ stop := fun stop' hstop' => (h.le stop' hstop').trans hstop
  have hoffset := h.length_eq
  refine ⟨more, tail', ?_⟩
  unfold LogSource.skip
  dsimp only
  by_cases hover : Oversized ends lines
  · have hpending : source.pending = [] := by rw [h.pending, if_pos hover]
    rw [h.discarding, decide_eq_true hover, if_pos rfl]
    cases more with
    | nil =>
      rw [List.flatten_nil, List.nil_append] at hsplit
      have hnone : behindNewline ((bytes.take stop).drop source.offset) = none := by
        rw [behindNewline, cutLine_eq_none fun b hb => htail' b (hsplit ▸ List.mem_append_right _ hb), Option.map_none]
      rw [hnone, List.append_nil]
      have hover' : Oversized (ends ++ [stop]) lines := by
        obtain ⟨stop', hmem, hlt⟩ := hover
        exact ⟨stop', List.mem_append_left _ hmem, hlt⟩
      rw [List.append_nil] at hread
      refine ⟨⟨h.initialized, hread, hlength, List.mem_append_right _ List.mem_cons_self, ?_, h.ended, htail',
        ?_, ?_⟩, rfl⟩
      · intro stop' hstop'
        rcases List.mem_append.mp hstop' with hmem | hmem
        · exact hle stop' hmem
        · exact (List.mem_singleton.mp hmem).le
      · exact (decide_eq_true hover').symm
      · rw [if_pos hover']
        exact hpending
    | cons line more =>
      rw [List.forall_mem_cons] at hmore hencoded
      obtain ⟨⟨front, b, rfl, hb, hfront⟩, hmore⟩ := hmore
      -- the line that is passed over starts with what was read of it
      obtain ⟨middle, hfrontEq, hbytes⟩ : ∃ middle, front = tail ++ middle
          ∧ (bytes.take stop).drop source.offset = middle ++ b :: (more.flatten ++ tail') := by
        rw [List.flatten_cons, List.append_assoc, List.append_assoc, List.singleton_append] at hsplit
        rcases List.append_eq_append_iff.mp hsplit with ⟨middle, hfront', hrest⟩ | ⟨middle, htail, hrest⟩
        · exact ⟨middle, hfront', hrest⟩
        · cases middle with
          | nil => exact ⟨[], by rw [htail, List.append_nil, List.append_nil], hrest.symm⟩
          | cons c middle =>
            rw [List.cons_append, List.cons.injEq] at hrest
            have hc := h.unended c (htail ▸ List.mem_append_right _ List.mem_cons_self)
            rw [← hrest.1, hb] at hc
            cases hc
      have hmiddle : ∀ c ∈ middle, isLineFeed c = false :=
        fun c hc => hfront c (hfrontEq ▸ List.mem_append_right _ hc)
      have hbehind : behindNewline ((bytes.take stop).drop source.offset) = some (more.flatten ++ tail') := by
        rw [behindNewline, hbytes, cutLine_of_noEnd hmiddle hb, Option.map_some]
      have hlong : source.offset ≤ lines.flatten.length + (front ++ [b]).length := by
        rw [hfrontEq, List.length_append, List.length_append]
        omega
      have happend : ({ source with offset := stop, discardingOversizedLine := false } : LogSource).pending
          ++ (more.flatten ++ tail') = more.flatten ++ tail' := by
        dsimp only
        rw [hpending, List.nil_append]
      rw [hbehind]
      dsimp only
      constructor
      · refine .of_append more h.initialized rfl hlength hread hlines htail' hmore hle (fun stop' hstop' => ?_)
          rfl happend
        have := h.le stop' hstop'
        rw [List.flatten_append, List.length_append, List.flatten_cons, List.length_append]
        omega
      · have hdropped : ∃ stop ∈ ends, lines.flatten.length + maxPendingBytes < stop
            ∧ stop < lines.flatten.length + (front ++ [b]).length := by
          obtain ⟨stop', hmem, hlt⟩ := hover
          have := h.le stop' hmem
          refine ⟨stop', hmem, hlt, ?_⟩
          rw [hfrontEq, List.length_append, List.length_append, List.length_singleton]
          omega
        rw [append_eq hmore htail' happend, completeLines_flatten hencoded.2, keptLines, if_pos hdropped, List.nil_append,
          keptLines_of_le fun stop' hstop' => (h.le stop' hstop').trans (by omega)]
  · have hpending : source.pending = tail := by rw [h.pending, if_neg hover]
    have hnot : source.discardingOversizedLine = false := by rw [h.discarding, decide_eq_false hover]
    have hends : ∀ stop ∈ ends, stop ≤ lines.flatten.length + maxPendingBytes := by
      intro stop' hstop'
      by_contra hlarge
      exact hover ⟨stop', hstop', Nat.lt_of_not_le hlarge⟩
    rw [hnot, if_neg Bool.false_ne_true]
    have happend : ∀ source' : LogSource, source'.pending = source.pending →
        source'.pending ++ (bytes.take stop).drop source.offset = more.flatten ++ tail' := by
      intro source' hsame
      rw [hsame, hpending, hsplit]
    constructor
    · refine .of_append more h.initialized rfl hlength hread hlines htail' hmore hle (fun stop' hstop' => ?_)
        rfl (happend _ rfl)
      have := hends stop' hstop'
      rw [List.flatten_append, List.length_append]
      omega
    · rw [append_eq hmore htail' (happend ⟨stop, source.pending, false, source.initialized⟩ rfl),
        completeLines_flatten hencoded, keptLines_of_le hends]

/-- What the next read gives. -/
theorem HasRead.readNewLines (h : HasRead bytes ends lines tail source) {cs : List Char} (hencode : encode cs = bytes)
    {n : ℕ} (hn : source.offset ≤ n) (hlength : n ≤ bytes.length) :
    ∃ more tail', HasRead bytes (ends ++ [min n (source.offset + maxReadBytes)]) (lines ++ more) tail'
        (source.readNewLines (some (bytes.take n))).2
      ∧ (source.readNewLines (some (bytes.take n))).2.offset = min n (source.offset + maxReadBytes)
      ∧ (source.readNewLines (some (bytes.take n))).1.1
        = (keptLines ends lines.flatten.length more).flatMap handedOver := by
  have htake : (bytes.take n).length = n := by rw [List.length_take, min_eq_left hlength]
  unfold LogSource.readNewLines
  dsimp only
  rw [h.initialized, Bool.not_true, if_neg Bool.false_ne_true, htake, if_neg (show ¬ n < source.offset by omega)]
  by_cases hnothing : n ≤ source.offset
  · rw [if_pos hnothing]
    have hsame : min n (source.offset + maxReadBytes) = source.offset := by omega
    refine ⟨[], tail, ?_, hsame.symm, rfl⟩
    rw [hsame, List.append_nil]
    have hover : Oversized (ends ++ [source.offset]) lines ↔ Oversized ends lines := by
      constructor
      · rintro ⟨stop, hmem, hlt⟩
        rcases List.mem_append.mp hmem with hmem | hmem
        · exact ⟨stop, hmem, hlt⟩
        · exact ⟨source.offset, h.mem, List.mem_singleton.mp hmem ▸ hlt⟩
      · rintro ⟨stop, hmem, hlt⟩
        exact ⟨stop, List.mem_append_left _ hmem, hlt⟩
    refine ⟨h.initialized, h.read, h.offset, List.mem_append_left _ h.mem, ?_, h.ended, h.unended, ?_, ?_⟩
    · intro stop hstop
      rcases List.mem_append.mp hstop with hmem | hmem
      · exact h.le stop hmem
      · exact (List.mem_singleton.mp hmem).le
    · rw [h.discarding]
      exact decide_eq_decide.mpr hover.symm
    · rw [h.pending]
      simp only [hover]
  · rw [if_neg hnothing, Bool.false_and, if_neg Bool.false_ne_true]
    have hbytes : ((bytes.take n).drop source.offset).take maxReadBytes
        = (bytes.take (min n (source.offset + maxReadBytes))).drop source.offset := by
      rw [List.take_drop, List.take_take, min_comm]
    have hstop : source.offset + (((bytes.take n).drop source.offset).take maxReadBytes).length
        = min n (source.offset + maxReadBytes) := by
      rw [List.length_take, List.length_drop, htake]
      omega
    rw [hstop, hbytes]
    obtain ⟨more, tail', hread, hlines⟩ := h.skip hencode (show source.offset ≤ min n (source.offset + maxReadBytes) by
      omega) (by omega)
    refine ⟨more, tail', hread, ?_, hlines⟩
    refine le_antisymm ?_ (hread.le _ (List.mem_append_right _ List.mem_cons_self))
    rcases List.mem_append.mp hread.mem with hmem | hmem
    · exact (h.le _ hmem).trans (by omega)
    · exact (List.mem_singleton.mp hmem).le

/-- Later reads end later. -/
theorem le_of_mem_readEnds {offset : ℕ} {lengths : List ℕ} (hgrows : lengths.Pairwise (· ≤ ·))
    (hoffset : ∀ n ∈ lengths, offset ≤ n) : ∀ stop ∈ readEnds offset lengths, offset ≤ stop := by
  induction lengths generalizing offset with
  | nil => exact fun stop hstop => absurd hstop List.not_mem_nil
  | cons n rest ih =>
    rw [List.pairwise_cons] at hgrows
    rw [List.forall_mem_cons] at hoffset
    have hfirst : offset ≤ min n (offset + maxReadBytes) := le_min hoffset.1 (Nat.le_add_right _ _)
    rw [readEnds, List.forall_mem_cons]
    refine ⟨hfirst, fun stop hstop => hfirst.trans (ih hgrows.2 (fun n' hn' => ?_) stop hstop)⟩
    exact (min_le_left _ _).trans (hgrows.1 n' hn')

/-- What some reads give. -/
theorem HasRead.readAll (h : HasRead bytes ends lines tail source) {cs : List Char} (hencode : encode cs = bytes)
    {lengths : List ℕ} (hgrows : lengths.Pairwise (· ≤ ·)) (hoffset : ∀ n ∈ lengths, source.offset ≤ n)
    (hwithin : ∀ n ∈ lengths, n ≤ bytes.length) :
    ∃ more tail', HasRead bytes (ends ++ readEnds source.offset lengths) (lines ++ more) tail'
        (CodexRouter.readAll bytes lengths source).2
      ∧ (CodexRouter.readAll bytes lengths source).1
        = (keptLines (ends ++ readEnds source.offset lengths) lines.flatten.length more).flatMap handedOver := by
  induction lengths generalizing ends lines tail source with
  | nil =>
    refine ⟨[], tail, ?_, rfl⟩
    rw [readEnds, List.append_nil, List.append_nil]
    exact h
  | cons n rest ih =>
    rw [List.pairwise_cons] at hgrows
    rw [List.forall_mem_cons] at hoffset hwithin
    obtain ⟨first, tail₁, hfirst, hstop, hlines₁⟩ := h.readNewLines hencode hoffset.1 hwithin.1
    obtain ⟨others, tail₂, hothers, hlines₂⟩ := ih hfirst hgrows.2
      (fun n' hn' => by rw [hstop]; exact (min_le_left _ _).trans (hgrows.1 n' hn')) hwithin.2
    have hfirstLength := hfirst.length_eq
    rw [hstop, List.flatten_append, List.length_append] at hfirstLength
    rw [hstop, List.append_assoc, List.singleton_append] at hothers hlines₂
    refine ⟨first ++ others, tail₂, ?_, ?_⟩
    · rw [readEnds, ← List.append_assoc]
      exact hothers
    · have hends : ∀ stop ∈ readEnds source.offset (n :: rest),
          lines.flatten.length + first.flatten.length ≤ stop := by
        intro stop hmem
        rw [readEnds] at hmem
        have hlow : min n (source.offset + maxReadBytes) ≤ stop := by
          rcases List.mem_cons.mp hmem with heq | hmem
          · exact heq.ge
          · exact le_of_mem_readEnds hgrows.2 (fun n' hn' => (min_le_left _ _).trans (hgrows.1 n' hn')) stop hmem
        omega
      rw [CodexRouter.readAll, hlines₁, hlines₂, keptLines_append, List.flatMap_append,
        keptLines_ends_append hends, readEnds]
      rw [List.flatten_append, List.length_append]

end

/-! ## All reads -/

/-- A read ended too far from the start of a line, inside of it. -/
def Dropped (ends : List ℕ) (start : ℕ) (line : List UInt8) : Prop :=
  ∃ stop ∈ ends, start + maxPendingBytes < stop ∧ stop < start + line.length

section

variable {lines : List (List UInt8)} {line : List UInt8} {ends : List ℕ} {start : ℕ}

theorem forall_split_cons_iff {α : Type} {P : List α → α → Prop} {a : α} {l : List α} :
    (∀ before x after, a :: l = before ++ x :: after → P before x)
      ↔ P [] a ∧ ∀ before x after, l = before ++ x :: after → P (a :: before) x := by
  constructor
  · intro h
    refine ⟨h [] a l rfl, fun before x after heq => h (a :: before) x after (by rw [heq]; rfl)⟩
  · rintro ⟨hhead, htail⟩ before x after heq
    cases before with
    | nil =>
      rw [List.nil_append, List.cons.injEq] at heq
      exact heq.1 ▸ hhead
    | cons b before =>
      rw [List.cons_append, List.cons.injEq] at heq
      exact heq.1 ▸ htail before x after heq.2

/-- No carriage return is taken off a text without one at its end. -/
theorem trimEndMatches_eq_iff (cs : List Char) :
    Text.trimEndMatches (· = '\r') (String.ofList cs) = String.ofList cs ↔ cs.getLast? ≠ some '\r' := by
  unfold Text.trimEndMatches
  rw [String.toList_ofList]
  constructor
  · intro h hlast
    obtain ⟨init, rfl⟩ := List.getLast?_eq_some_iff.mp hlast
    have hlength := congrArg (fun s : String => s.toList.length) h
    simp only [String.toList_ofList, List.reverse_append, List.reverse_singleton, List.singleton_append,
      List.length_append, List.length_singleton, List.length_reverse] at hlength
    rw [List.dropWhile_cons_of_pos (by decide)] at hlength
    have hle := (List.dropWhile_sublist (fun c : Char => decide (c = '\r')) (l := init.reverse)).length_le
    rw [List.length_reverse] at hle
    omega
  · intro hlast
    have hsame : cs.reverse.dropWhile (fun c => decide (c = '\r')) = cs.reverse := by
      cases hcs : cs.reverse with
      | nil => rfl
      | cons c rest =>
        rw [List.dropWhile_cons_of_neg]
        rw [← List.head?_reverse, hcs, List.head?_cons] at hlast
        simpa using hlast
    rw [hsame, List.reverse_reverse]

theorem length_handedOver_le (ends : List ℕ) (start : ℕ) (lines : List (List UInt8)) :
    ((keptLines ends start lines).flatMap handedOver).length ≤ (lines.filter fits).length := by
  induction lines generalizing start with
  | nil => exact le_refl _
  | cons line lines ih =>
    have hrest := ih (start + line.length)
    rw [keptLines, List.flatMap_append, List.length_append, List.filter_cons]
    cases hfits : fits line with
    | true =>
      rw [if_pos rfl, List.length_cons]
      split
      · simp only [List.flatMap_nil, List.length_nil]
        omega
      · simp only [List.flatMap_cons, List.flatMap_nil, List.append_nil, handedOver, hfits, if_true, List.length_singleton]
        omega
    | false =>
      rw [if_neg Bool.false_ne_true]
      split
      · simpa using hrest
      · simpa [handedOver, hfits] using hrest

/-- All lines are handed over exactly where none that is not too long is dropped or trimmed. -/
theorem handedOver_eq_iff (ends : List ℕ) (start : ℕ) (lines : List (List UInt8)) :
    (keptLines ends start lines).flatMap handedOver = (lines.filter fits).map (fun line => String.ofList (logText line))
      ↔ (∀ line ∈ lines, fits line = true → (logText line).getLast? ≠ some '\r')
        ∧ ∀ before line after, lines = before ++ line :: after → fits line = true →
          ¬ Dropped ends (start + before.flatten.length) line := by
  induction lines generalizing start with
  | nil => simp [keptLines]
  | cons line lines ih =>
    have hrest := ih (start + line.length)
    have hshift : ∀ before : List (List UInt8),
        start + (line :: before).flatten.length = start + line.length + before.flatten.length := by
      intro before
      rw [List.flatten_cons, List.length_append, Nat.add_assoc]
    rw [List.forall_mem_cons, forall_split_cons_iff]
    simp only [hshift, List.flatten_nil, List.length_nil, Nat.add_zero]
    rw [keptLines, List.flatMap_append, List.filter_cons]
    cases hfits : fits line with
    | false =>
      have hnone : (if ∃ stop ∈ ends, start + maxPendingBytes < stop ∧ stop < start + line.length then []
          else [line]).flatMap handedOver = [] := by
        split
        · rfl
        · simp [handedOver, hfits]
      rw [hnone, List.nil_append, if_neg Bool.false_ne_true, hrest]
      simp only [Bool.false_eq_true, false_imp_iff, true_and]
    | true =>
      rw [if_pos rfl, List.map_cons]
      simp only [true_imp_iff]
      by_cases hdropped : Dropped ends start line
      · rw [if_pos (show ∃ stop ∈ ends, start + maxPendingBytes < stop ∧ stop < start + line.length from hdropped)]
        refine iff_of_false (fun h => ?_) fun h => h.2.1 hdropped
        have hlength := congrArg List.length h
        have hle := length_handedOver_le ends (start + line.length) lines
        rw [List.flatMap_nil, List.nil_append, List.length_cons, List.length_map] at hlength
        omega
      · rw [if_neg (show ¬ ∃ stop ∈ ends, start + maxPendingBytes < stop ∧ stop < start + line.length from hdropped)]
        simp only [List.flatMap_cons, List.flatMap_nil, List.append_nil, handedOver, hfits, if_true,
          List.singleton_append, List.cons.injEq, hrest, trimEndMatches_eq_iff, hdropped, not_false_eq_true, true_and]
        exact and_assoc.symm

/-- A line has one byte or two for its ending. -/
theorem length_encodedLine (h : EncodedLine line) :
    line.length = (encode (logText line)).length + 1 ∨ line.length = (encode (logText line)).length + 2 := by
  obtain ⟨cs, -, rfl⟩ := h
  rw [logText_encode, List.length_append, List.length_singleton, Text.dropTrailingCr]
  split
  · rename_i hlast
    obtain ⟨init, rfl⟩ := List.getLast?_eq_some_iff.mp hlast
    refine .inr ?_
    unfold encode
    rw [List.dropLast_concat, List.flatMap_append, List.length_append]
    rfl
  · exact .inl rfl

/-- A line that is not too long is dropped only in front of the last byte of its ending. -/
theorem dropped_iff (hline : EncodedLine line) (hfits : fits line = true) : Dropped ends start line ↔
    (encode (logText line)).length = maxPendingBytes ∧ line.length = maxPendingBytes + 2
      ∧ start + maxPendingBytes + 1 ∈ ends := by
  have hle : (encode (logText line)).length ≤ maxPendingBytes := of_decide_eq_true hfits
  have hlength := length_encodedLine hline
  constructor
  · rintro ⟨stop, hmem, hlow, hhigh⟩
    have hstop : stop = start + maxPendingBytes + 1 := by omega
    exact ⟨by omega, by omega, hstop ▸ hmem⟩
  · rintro ⟨-, hlong, hmem⟩
    exact ⟨_, hmem, by omega, by omega⟩

/-- The first read finds nothing. -/
theorem read_eq (history : LogHistory) (lengths : List ℕ) :
    history.read lengths = readAll (encode history.text) lengths { initialized := true } := by
  have hfirst : ({} : LogSource).readNewLines (some []) = (([], true), { initialized := true }) := by
    decide +kernel
  rw [LogHistory.read, readAll, List.take_zero, hfirst]
  rfl

/-- What the reads of a log give. -/
theorem read_spec (history : LogHistory) {lengths : List ℕ} (hfirst : lengths <+: history.lengths) :
    ∃ lines tail, HasRead (encode history.text) (0 :: readEnds 0 lengths) lines tail (history.read lengths).2
      ∧ (∀ line ∈ lines, EncodedLine line)
      ∧ (history.read lengths).1 = (keptLines (0 :: readEnds 0 lengths) 0 lines).flatMap handedOver := by
  have hstart : HasRead (encode history.text) [0] [] [] { initialized := true } := by
    refine ⟨rfl, rfl, Nat.zero_le _, List.mem_cons_self, ?_, fun _ h => absurd h List.not_mem_nil,
      fun _ h => absurd h List.not_mem_nil, rfl, rfl⟩
    exact fun stop hstop => (List.mem_singleton.mp hstop).le
  obtain ⟨lines, tail, hread, hlines⟩ := hstart.readAll rfl (history.grows.sublist hfirst.sublist)
    (fun n _ => Nat.zero_le n) fun n hn => history.within n (hfirst.subset hn)
  rw [read_eq]
  rw [List.nil_append] at hread
  refine ⟨lines, tail, hread, ?_, hlines⟩
  refine @encodedLine_of_mem lines
    (tail ++ (encode history.text).drop (readAll (encode history.text) lengths { initialized := true }).2.offset)
    history.text hread.ended ?_
  rw [← List.append_assoc, ← hread.read, List.take_append_drop]

/-- The lines of a log are handed over one by one exactly where no line ends in a carriage return of its own, and no
read cuts the ending of a line of the greatest length. -/
theorem readsLines_iff (history : LogHistory) :
    history.ReadsLines ↔ history.PlainEndings ∧ history.EndingsWhole := by
  obtain ⟨lines, tail, hread, hencoded, hlines⟩ := read_spec history (List.prefix_refl _)
  have hended : endedLines history.readBytes = lines := by
    rw [LogHistory.readBytes, hread.read, endedLines_eq hread.ended hread.unended]
  have hpending : ∀ lengths, lengths <+: history.lengths →
      (history.read lengths).2.pending.length ≤ maxPendingBytes := by
    intro lengths hfirst
    obtain ⟨_, _, hread, -⟩ := read_spec history hfirst
    exact hread.length_pending
  have hiff : (history.read history.lengths).1 = expectedLines history.readBytes ↔
      history.PlainEndings ∧ history.EndingsWhole := by
    rw [hlines, expectedLines, hended, handedOver_eq_iff, LogHistory.PlainEndings, LogHistory.EndingsWhole, hended]
    refine and_congr_right fun _ => forall_congr' fun before => forall_congr' fun line => forall_congr' fun after =>
      imp_congr_right fun heq => ?_
    have hline : EncodedLine line := hencoded line (heq ▸ List.mem_append_right _ List.mem_cons_self)
    constructor
    · intro hkept hsize hlong hmem
      have hfits : fits line = true := decide_eq_true hsize.le
      refine hkept hfits ((dropped_iff hline hfits).mpr ⟨hsize, hlong, ?_⟩)
      rw [Nat.zero_add]
      exact List.mem_cons_of_mem _ hmem
    · intro hwhole hfits hdropped
      obtain ⟨hsize, hlong, hmem⟩ := (dropped_iff hline hfits).mp hdropped
      rw [Nat.zero_add] at hmem
      rcases List.mem_cons.mp hmem with hzero | hmem
      · omega
      · exact hwhole hsize hlong hmem
  exact ⟨fun h => hiff.mp h.lines, fun h => ⟨hiff.mpr h, hpending⟩⟩

/-- A line with a carriage return of its own. -/
def returnLine : LogHistory where
  text := ['a', '\r', '\r', '\n']
  lengths := [4]
  grows := List.pairwise_singleton _ _
  within := by decide +kernel

/-- The carriage return is lost. -/
theorem not_readsLines_return : (returnLine.read returnLine.lengths).1 = ["a"]
    ∧ expectedLines returnLine.readBytes = ["a\r"] ∧ ¬ returnLine.ReadsLines := by
  have hread : (returnLine.read returnLine.lengths).1 = ["a"] := by decide +kernel
  have hexpected : expectedLines returnLine.readBytes = ["a\r"] := by decide +kernel
  refine ⟨hread, hexpected, fun hreads => ?_⟩
  have hsame := hreads.lines
  rw [hread, hexpected] at hsame
  exact absurd hsame (by decide)

end

end CodexRouter
