/-
# Chunked bodies

`read_chunked_body` decodes a chunked body from reads of any length: it waits for the
line of a chunk, then for its data and the line end behind it.  `decode_chunked_to_sse`
(`SseFraming`) decodes an event stream in the same way.

Both add the size of a chunk, which comes from the peer, to a position, and cut the bytes
at the sum.  Here an addition that does not fit and a cut that is out of range are ends of
their own (`Fault`), so that it can be said when they do not happen.
-/
import CodexRouter.SseFraming
import CodexRouter.Base.Run
import Mathlib.Data.Bool.AllAny

namespace CodexRouter

open Text

/-! ## The code -/

/-- `MAX_BODY_BYTES`. -/
def maxBodyBytes : ℕ := 32 * 1024 * 1024

/-- What must not happen: a sum that does not fit `usize`, or a slice that is out of range. -/
inductive Fault where
  | overflow
  | outOfRange
  deriving DecidableEq, Repr

/-- How `read_chunked_body` ends. -/
inductive ChunkedOutcome where
  | body (bytes : List UInt8)
  | failed (message : String)
  | fault (fault : Fault)
  deriving DecidableEq, Repr

/-- `bytes[start..stop]`, if that is in range. -/
def slice (bytes : List UInt8) (start stop : ℕ) : Option (List UInt8) :=
  if start ≤ stop ∧ stop ≤ bytes.length then some ((bytes.drop start).take (stop - start)) else none

/-- Read until there is a line end: its position, the bytes that are there, and the reads that
are left.  A read without bytes is the end of the stream. -/
def awaitLine : List UInt8 → List (List UInt8) → Option (ℕ × List UInt8 × List (List UInt8))
  | raw, [] => (findCrlf raw).map fun lineEnd => (lineEnd, raw, [])
  | raw, bytes :: reads =>
    match findCrlf raw with
    | some lineEnd => some (lineEnd, raw, bytes :: reads)
    | none => if bytes = [] then none else awaitLine (raw ++ bytes) reads

/-- Read until there are enough bytes. -/
def awaitBody (decoded required : ℕ) :
    List UInt8 → List (List UInt8) → Except String (List UInt8 × List (List UInt8))
  | raw, [] => if required ≤ raw.length then .ok (raw, []) else .error "upstream closed during chunk body"
  | raw, bytes :: reads =>
    if required ≤ raw.length then .ok (raw, bytes :: reads)
    else if bytes = [] then .error "upstream closed during chunk body"
    else if maxBodyBytes < decoded + (raw ++ bytes).length then .error "HTTP body is too large"
    else awaitBody decoded required (raw ++ bytes) reads

/-- The variables of the loop: the data so far, the bytes that were read and not used, and the reads
that are left. -/
structure ChunkedState where
  decoded : List UInt8
  raw : List UInt8
  reads : List (List UInt8)

/-- What a round of the loop does. -/
inductive ChunkedRound where
  | next (s : ChunkedState)
  | done (outcome : ChunkedOutcome)

/-- The end of a round, when the bytes of the chunk are there. -/
def useChunk (decoded : List UInt8) (dataStart size : ℕ) (raw : List UInt8) (reads : List (List UInt8)) :
    ChunkedRound :=
  let required := dataStart + size + 2
  -- `raw.get(..)`, for which a range that is out of bounds is no fault
  if slice raw (dataStart + size) required ≠ some [13, 10] then
    .done (.failed "invalid upstream chunk terminator")
  else if size = 0 then .done (.body decoded)
  else
    match slice raw dataStart (dataStart + size) with
    | none => .done (.fault .outOfRange)
    | some data =>
      if maxBodyBytes < (decoded ++ data).length then .done (.failed "HTTP body is too large")
      else
        match slice raw required raw.length with
        | none => .done (.fault .outOfRange)
        | some rest => .next ⟨decoded ++ data, rest, reads⟩

/-- A round of the loop of `read_chunked_body`. -/
def readChunk (s : ChunkedState) : ChunkedRound :=
  match awaitLine s.raw s.reads with
  | none => .done (.failed "upstream closed during chunk header")
  | some (lineEnd, raw, reads) =>
    match slice raw 0 lineEnd with
    | none => .done (.fault .outOfRange)
    | some line =>
      match parseChunkSize (String.ofList (Utf8.decodeLossy line)) with
      | none => .done (.failed "invalid upstream chunk size")
      | some size =>
        let dataStart := lineEnd + 2
        if 2 ^ 64 ≤ dataStart + size + 2 then .done (.fault .overflow)
        else
          match awaitBody s.decoded.length (dataStart + size + 2) raw reads with
          | .error message => .done (.failed message)
          | .ok (raw, reads) => useChunk s.decoded dataStart size raw reads

/-- The bytes that are still there. -/
def ChunkedState.left (s : ChunkedState) : List UInt8 := s.raw ++ s.reads.flatten

/-- The loop of `read_chunked_body`; every round but the last one uses bytes up. -/
def readChunkedBody.loop : ℕ → ChunkedState → Option ChunkedOutcome
  | 0, _ => none
  | n + 1, s =>
    match readChunk s with
    | .done outcome => some outcome
    | .next s => readChunkedBody.loop n s

/-- `read_chunked_body`. -/
def readChunkedBody (raw : List UInt8) (reads : List (List UInt8)) : Option ChunkedOutcome :=
  readChunkedBody.loop ((raw ++ reads.flatten).length + 1) ⟨[], raw, reads⟩

/-- `chunkFrame` with the additions and the slices of the machine. -/
def checkedFrame (raw : List UInt8) : Except Fault ChunkFrame :=
  match findCrlf raw with
  | none => .ok .partialChunk
  | some lineEnd =>
    match slice raw 0 lineEnd with
    | none => .error .outOfRange
    | some line =>
      match parseChunkSize (String.ofList (Utf8.decodeLossy line)) with
      | none => .ok .corrupt
      | some size =>
        let afterSize := lineEnd + 2
        if size = 0 then .ok .last
        else if 2 ^ 64 ≤ afterSize + size + 2 then .error .overflow
        else if raw.length < afterSize + size + 2 then .ok .partialChunk
        else
          match slice raw afterSize (afterSize + size), slice raw (afterSize + size + 2) raw.length with
          | some payload, some rest => .ok (.chunk payload rest)
          | _, _ => .error .outOfRange

/-- The line in front gives a size that does not fit. -/
def streamOverflows (raw : List UInt8) : Bool :=
  (findCrlf raw).any fun lineEnd =>
    (parseChunkSize (String.ofList (Utf8.decodeLossy (raw.take lineEnd)))).any fun size =>
      size ≠ 0 && 2 ^ 64 ≤ lineEnd + 2 + size + 2

theorem slice_of_le {bytes : List UInt8} {start stop : ℕ} (h : start ≤ stop) (hstop : stop ≤ bytes.length) :
    slice bytes start stop = some ((bytes.drop start).take (stop - start)) :=
  if_pos ⟨h, hstop⟩

theorem slice_zero {bytes : List UInt8} {stop : ℕ} (hstop : stop ≤ bytes.length) :
    slice bytes 0 stop = some (bytes.take stop) := by
  rw [slice_of_le (Nat.zero_le _) hstop, List.drop_zero, Nat.sub_zero]

theorem slice_length {bytes : List UInt8} {start : ℕ} (hstart : start ≤ bytes.length) :
    slice bytes start bytes.length = some (bytes.drop start) := by
  rw [slice_of_le hstart le_rfl, ← List.length_drop, List.take_length]

/-- Where nothing overflows, the frame is the one of `chunkFrame`; a slice is never out of range. -/
theorem checkedFrame_eq (raw : List UInt8) :
    checkedFrame raw = if streamOverflows raw then .error .overflow else .ok (chunkFrame raw) := by
  rw [checkedFrame, streamOverflows, chunkFrame]
  cases hline : findCrlf raw with
  | none => rfl
  | some lineEnd =>
    have hle := (findCrlf_append hline []).1
    simp only [slice_zero (Nat.le_of_add_right_le hle), Option.any_some]
    cases hsize : parseChunkSize (String.ofList (Utf8.decodeLossy (raw.take lineEnd))) with
    | none => rfl
    | some size =>
      rw [Option.any_some]
      by_cases hzero : size = 0
      · simp [hzero]
      · have hflag : (decide (size ≠ 0) && decide (2 ^ 64 ≤ lineEnd + 2 + size + 2))
            = decide (2 ^ 64 ≤ lineEnd + 2 + size + 2) := by
          rw [decide_eq_true hzero, Bool.true_and]
        simp only [hflag, hzero, if_false, decide_eq_true_eq]
        split_ifs with hover hpart
        · rfl
        · rfl
        · rw [slice_of_le (by omega) (by omega), slice_length (by omega), Nat.add_sub_cancel_left]

section

variable {σ : Type} (push : σ → String → σ × SseFlow)

/-- `decode_chunked_to_sse` with the additions and the slices of the machine. -/
def decodeChecked (s : σ) (raw : List UInt8) (decoded : String) (reads : List (List UInt8)) :
    Except Fault (σ × Option String) :=
  match _h : checkedFrame raw with
  | .error fault => .error fault
  | .ok .partialChunk =>
    match reads with
    | [] => .ok (s, some decoded)
    | bytes :: reads => decodeChecked s (raw ++ bytes) decoded reads
  | .ok .corrupt =>
    match pushSseEvents push s decoded with
    | (s, .abortReconcile, _) => .ok (s, none)
    | (s, .continues, _) => .ok (s, some "")
  | .ok .last =>
    match pushSseEvents push s decoded with
    | (s, .abortReconcile, _) => .ok (s, none)
    | (s, .continues, decoded) => .ok (s, some decoded)
  | .ok (.chunk payload rest) =>
    match pushSseEvents push s (decoded ++ String.ofList (Utf8.decodeLossy payload)) with
    | (s, .abortReconcile, _) => .ok (s, none)
    | (s, .continues, decoded) => decodeChecked s rest decoded reads
termination_by (reads.length, raw.length)
decreasing_by
  · exact Prod.Lex.left _ _ (Nat.lt_succ_self _)
  · rw [checkedFrame_eq] at _h
    split at _h
    · cases _h
    · exact Prod.Lex.right _ (length_lt_of_chunkFrame (Except.ok.inj _h))

end

/-! ## Framings -/

/-- The line of a chunk: hexadecimal digits, and maybe an extension behind a semicolon. -/
structure ChunkLine where
  digits : List Char
  extension : List UInt8
  digits_ne_nil : digits ≠ []
  digits_hex : ∀ c ∈ digits, (hexValue c).isSome = true
  extension_shape : extension = [] ∨ ∃ blanks more, (∀ c ∈ blanks, c = ' ' ∨ c = '\t')
    ∧ extension = Utf8.encode (blanks ++ [';']) ++ more
  extension_noCr : 13 ∉ extension

/-- The bytes of the line. -/
def ChunkLine.bytes (l : ChunkLine) : List UInt8 := Utf8.encode l.digits ++ l.extension

/-- The number of the digits. -/
def ChunkLine.value (l : ChunkLine) : ℕ := l.digits.foldl (fun n c => 16 * n + (hexValue c).getD 0) 0

/-- A chunk with some data. -/
structure FramedPiece where
  line : ChunkLine
  data : List UInt8
  data_ne_nil : data ≠ []
  value : line.value = data.length

/-- The last chunk, and the fields behind it. -/
structure FramedEnd where
  line : ChunkLine
  trailers : List (List UInt8)
  value : line.value = 0
  trailers_ne_nil : ∀ field ∈ trailers, field ≠ []
  trailers_noCr : ∀ field ∈ trailers, 13 ∉ field

def FramedPiece.bytes (p : FramedPiece) : List UInt8 := p.line.bytes ++ 13 :: 10 :: (p.data ++ [13, 10])

def FramedEnd.bytes (e : FramedEnd) : List UInt8 :=
  e.line.bytes ++ 13 :: 10 :: (e.trailers.flatMap (· ++ [13, 10]) ++ [13, 10])

/-- The framing of a body. -/
def framing (pieces : List FramedPiece) (last : FramedEnd) : List UInt8 :=
  pieces.flatMap FramedPiece.bytes ++ last.bytes

/-- The body. -/
def content (pieces : List FramedPiece) : List UInt8 := pieces.flatMap FramedPiece.data

/-- Where a chunk of a framing is, and how much data there is in front of it. -/
structure ChunkSpan where
  start : ℕ
  dataStart : ℕ
  stop : ℕ
  decoded : ℕ

/-- The chunks of a framing.  Of the last one the loop takes its line and the next line end. -/
def chunkSpans : ℕ → ℕ → List FramedPiece → FramedEnd → List ChunkSpan
  | start, decoded, [], last =>
    let dataStart := start + last.line.bytes.length + 2
    [⟨start, dataStart, dataStart + 2, decoded⟩]
  | start, decoded, p :: pieces, last =>
    let dataStart := start + p.line.bytes.length + 2
    let stop := dataStart + p.data.length + 2
    ⟨start, dataStart, stop, decoded⟩ :: chunkSpans stop (decoded + p.data.length) pieces last

/-- Each read that comes while at least `low` and less than `high` bytes are there leaves a number of
bytes that meets `P`. -/
def ReadsMeet (low high : ℕ) (P : ℕ → Prop) (raw : List UInt8) (reads : List (List UInt8)) : Prop :=
  ∀ before bytes after, reads = before ++ bytes :: after → low ≤ (raw ++ before.flatten).length →
    (raw ++ before.flatten).length < high → P (raw ++ before.flatten ++ bytes).length

/-- The end of the chunk fits `usize`, and the reads that come for its data leave the body in its
bounds: the data in front of the chunk, and all that is there from the chunk on. -/
def ChunkSpan.Fits (c : ChunkSpan) (raw : List UInt8) (reads : List (List UInt8)) : Prop :=
  c.stop - c.start < 2 ^ 64
    ∧ ReadsMeet c.dataStart c.stop (fun n => c.decoded + (n - c.start) ≤ maxBodyBytes) raw reads

/-- A framing that arrives in reads. -/
structure FramedBody where
  pieces : List FramedPiece
  last : FramedEnd
  raw : List UInt8
  reads : List (List UInt8)
  whole : raw ++ reads.flatten = framing pieces last
  reads_ne_nil : ∀ bytes ∈ reads, bytes ≠ []
  small : (content pieces).length ≤ maxBodyBytes

/-! ## The line of a chunk -/

theorem hexValue_cases {c : Char} (h : (hexValue c).isSome = true) :
    ∃ n < 128, c = Char.ofNat n := by
  have hlt : c.toNat < 128 := by
    unfold hexValue isAsciiDigit at h
    simp only [Bool.and_eq_true, decide_eq_true_eq, Char.le_def, UInt32.le_iff_toNat_le] at h
    change c.val.toNat < 128
    split_ifs at h with h1 h2 h3
    · have := h1.2; change c.val.toNat ≤ 57 at this; omega
    · have := h2.2; change c.val.toNat ≤ 102 at this; omega
    · have := h3.2; change c.val.toNat ≤ 70 at this; omega
    · cases h
  exact ⟨c.toNat, hlt, (Char.ofNat_toNat c).symm⟩

/-- What a hexadecimal digit is not. -/
theorem hexDigit_facts {c : Char} (h : (hexValue c).isSome = true) :
    c ≠ ';' ∧ c ≠ '+' ∧ isWhitespace c = false ∧ 13 ∉ String.utf8EncodeChar c := by
  obtain ⟨n, hn, rfl⟩ := hexValue_cases h
  have hall : ∀ n < 128, (hexValue (Char.ofNat n)).isSome = true →
      Char.ofNat n ≠ ';' ∧ Char.ofNat n ≠ '+' ∧ isWhitespace (Char.ofNat n) = false
        ∧ 13 ∉ String.utf8EncodeChar (Char.ofNat n) := by decide +kernel
  exact hall n hn h

theorem foldl_hexValue {digits : List Char} (h : ∀ c ∈ digits, (hexValue c).isSome = true) (n : ℕ) :
    digits.foldl (fun acc c => acc.bind fun n => (hexValue c).map (16 * n + ·)) (some n)
      = some (digits.foldl (fun n c => 16 * n + (hexValue c).getD 0) n) := by
  induction digits generalizing n with
  | nil => rfl
  | cons c digits ih =>
    obtain ⟨v, hv⟩ := Option.isSome_iff_exists.mp (h c List.mem_cons_self)
    rw [List.foldl_cons, List.foldl_cons, Option.bind_some, hv, Option.map_some, Option.getD_some]
    exact ih (fun d hd => h d (List.mem_cons_of_mem _ hd)) _

theorem usizeFromHex_of_digits {digits : List Char} (hne : digits ≠ []) (hplus : ∀ c ∈ digits, c ≠ '+') :
    usizeFromHex (String.ofList digits)
      = (digits.foldl (fun acc c => acc.bind fun n => (hexValue c).map (16 * n + ·)) (some 0)).filter
          (· < 2 ^ 64) := by
  unfold usizeFromHex
  rw [String.toList_ofList]
  dsimp only
  split
  · exact absurd rfl (hplus '+' List.mem_cons_self)
  · rw [if_neg hne]

/-- The line is read back as the number of its digits. -/
theorem ChunkLine.parse (l : ChunkLine) (h : l.value < 2 ^ 64) :
    parseChunkSize (String.ofList (Utf8.decodeLossy l.bytes)) = some l.value := by
  have hfacts := fun c hc => hexDigit_facts (l.digits_hex c hc)
  -- the digits, with the blanks that may be in front of an extension, are the first piece
  have hpiece : ∃ blanks, (∀ c ∈ blanks, isWhitespace c = true)
      ∧ ((split (· = ';') (String.ofList (Utf8.decodeLossy l.bytes))).head?).getD ""
        = String.ofList (l.digits ++ blanks) := by
    rcases l.extension_shape with hnone | ⟨blanks, more, hblanks, hsome⟩
    · refine ⟨[], by simp, ?_⟩
      rw [ChunkLine.bytes, hnone, List.append_nil, Utf8.decodeLossy_encode, split, String.toList_ofList,
        splitChars_eq_self fun d hd => decide_eq_false (hfacts d hd).1, List.append_nil]
      rfl
    · refine ⟨blanks, ?_, ?_⟩
      · rintro c hc
        rcases hblanks c hc with rfl | rfl <;> decide
      · have hsemi : ∀ d ∈ l.digits ++ blanks, decide (d = ';') = false := by
          intro d hd
          rw [decide_eq_false_iff_not]
          rcases List.mem_append.mp hd with hd | hd
          · exact (hfacts d hd).1
          · rcases hblanks d hd with rfl | rfl <;> decide
        rw [ChunkLine.bytes, hsome, ← List.append_assoc, Utf8.encode, Utf8.encode, ← List.flatMap_append,
          ← Utf8.encode, Utf8.decodeLossy_encode_append, split, String.toList_ofList, ← List.append_assoc,
          List.append_assoc, List.singleton_append, splitChars_append_cons (by decide) hsemi]
        rfl
  obtain ⟨blanks, hblanks, hpiece⟩ := hpiece
  have htrim : trim (String.ofList (l.digits ++ blanks)) = String.ofList l.digits := by
    obtain ⟨c, rest, hcons⟩ := List.exists_cons_of_ne_nil l.digits_ne_nil
    have hlast := List.getLast?_eq_some_getLast l.digits_ne_nil
    refine @trim_padded [] l.digits blanks (by simp) hblanks ⟨c, congrArg List.head? hcons, ?_⟩ ⟨_, hlast, ?_⟩
    · exact (hfacts c (hcons ▸ List.mem_cons_self)).2.2.1
    · exact (hfacts _ (List.getLast_mem l.digits_ne_nil)).2.2.1
  rw [parseChunkSize, hpiece, htrim, usizeFromHex_of_digits l.digits_ne_nil fun c hc => (hfacts c hc).2.1, foldl_hexValue l.digits_hex,
    Option.filter_some]
  exact if_pos (decide_eq_true h)

/-! ## Reads -/

/-- Take reads until there are `n` bytes. -/
def drawUntil (n : ℕ) : List UInt8 → List (List UInt8) → List UInt8 × List (List UInt8)
  | raw, [] => (raw, [])
  | raw, bytes :: reads =>
    if n ≤ raw.length then (raw, bytes :: reads) else drawUntil n (raw ++ bytes) reads

theorem drawUntil_of_le {n : ℕ} {raw : List UInt8} (h : n ≤ raw.length) (reads : List (List UInt8)) :
    drawUntil n raw reads = (raw, reads) := by
  cases reads with
  | nil => rfl
  | cons bytes reads => exact if_pos h

theorem drawUntil_of_lt {n : ℕ} {raw : List UInt8} (h : raw.length < n) (bytes : List UInt8)
    (reads : List (List UInt8)) : drawUntil n raw (bytes :: reads) = drawUntil n (raw ++ bytes) reads :=
  if_neg (Nat.not_le.mpr h)

theorem drawUntil_flatten (n : ℕ) (raw : List UInt8) (reads : List (List UInt8)) :
    (drawUntil n raw reads).1 ++ (drawUntil n raw reads).2.flatten = raw ++ reads.flatten := by
  induction reads generalizing raw with
  | nil => rfl
  | cons bytes reads ih =>
    by_cases h : n ≤ raw.length
    · rw [drawUntil_of_le h]
    · rw [drawUntil_of_lt (Nat.not_le.mp h), ih, List.flatten_cons, List.append_assoc]

theorem drawUntil_suffix (n : ℕ) (raw : List UInt8) (reads : List (List UInt8)) :
    (drawUntil n raw reads).2 <:+ reads := by
  induction reads generalizing raw with
  | nil => exact List.suffix_rfl
  | cons bytes reads ih =>
    by_cases h : n ≤ raw.length
    · rw [drawUntil_of_le h]
    · rw [drawUntil_of_lt (Nat.not_le.mp h)]
      exact (ih _).trans (List.suffix_cons _ _)

theorem le_length_drawUntil {n : ℕ} {raw : List UInt8} {reads : List (List UInt8)}
    (h : n ≤ (raw ++ reads.flatten).length) : n ≤ (drawUntil n raw reads).1.length := by
  induction reads generalizing raw with
  | nil => rwa [List.flatten_nil, List.append_nil] at h
  | cons bytes reads ih =>
    by_cases hle : n ≤ raw.length
    · rwa [drawUntil_of_le hle]
    · rw [drawUntil_of_lt (Nat.not_le.mp hle)]
      exact ih (by rwa [List.flatten_cons, ← List.append_assoc] at h)

theorem drawUntil_drawUntil {m n : ℕ} (h : n ≤ m) (raw : List UInt8) (reads : List (List UInt8)) :
    drawUntil m (drawUntil n raw reads).1 (drawUntil n raw reads).2 = drawUntil m raw reads := by
  induction reads generalizing raw with
  | nil => rfl
  | cons bytes reads ih =>
    by_cases hle : n ≤ raw.length
    · rw [drawUntil_of_le hle]
    · rw [drawUntil_of_lt (Nat.not_le.mp hle), ih, drawUntil_of_lt (by omega)]

section

variable {low high : ℕ} {P : ℕ → Prop} {raw : List UInt8} {reads : List (List UInt8)}

theorem readsMeet_nil (low high : ℕ) (P : ℕ → Prop) (raw : List UInt8) : ReadsMeet low high P raw [] := by
  intro before bytes after h
  exact absurd h (by simp)

theorem readsMeet_cons {bytes : List UInt8} : ReadsMeet low high P raw (bytes :: reads)
    ↔ (low ≤ raw.length → raw.length < high → P (raw ++ bytes).length)
      ∧ ReadsMeet low high P (raw ++ bytes) reads := by
  constructor
  · intro h
    constructor
    · intro hlow hhigh
      simpa using h [] bytes reads rfl (by simpa using hlow) (by simpa using hhigh)
    · intro before bytes' after heq hlow hhigh
      have hmeet := h (bytes :: before) bytes' after (by rw [heq]; rfl)
      rw [List.flatten_cons, ← List.append_assoc] at hmeet
      exact hmeet hlow hhigh
  · rintro ⟨hhead, htail⟩ before bytes' after heq hlow hhigh
    cases before with
    | nil =>
      obtain ⟨rfl, rfl⟩ := List.cons.inj heq
      rw [List.flatten_nil, List.append_nil] at hlow hhigh ⊢
      exact hhead hlow hhigh
    | cons b before =>
      obtain ⟨rfl, hrest⟩ := List.cons.inj heq
      rw [List.flatten_cons, ← List.append_assoc] at hlow hhigh ⊢
      exact htail before bytes' after hrest hlow hhigh

theorem readsMeet_of_le (h : high ≤ raw.length) : ReadsMeet low high P raw reads := by
  intro before bytes after _ _ hhigh
  rw [List.length_append] at hhigh
  omega

/-- Reads that come before the lower bound is reached do not matter. -/
theorem readsMeet_drawUntil {n : ℕ} (h : n ≤ low) :
    ReadsMeet low high P (drawUntil n raw reads).1 (drawUntil n raw reads).2
      ↔ ReadsMeet low high P raw reads := by
  induction reads generalizing raw with
  | nil => exact Iff.rfl
  | cons bytes reads ih =>
    by_cases hle : n ≤ raw.length
    · rw [drawUntil_of_le hle]
    · rw [drawUntil_of_lt (Nat.not_le.mp hle), ih, readsMeet_cons]
      exact ⟨fun htail => ⟨fun hlow => absurd (h.trans hlow) hle, htail⟩, And.right⟩

/-- The bytes in front can be dropped. -/
theorem readsMeet_drop {k : ℕ} (h : k ≤ raw.length) :
    ReadsMeet low high P (raw.drop k) reads
      ↔ ReadsMeet (low + k) (high + k) (fun n => P (n - k)) raw reads := by
  have hlength : ∀ more : List UInt8, (raw.drop k ++ more).length = (raw ++ more).length - k := by
    intro more
    rw [List.length_append, List.length_append, List.length_drop]
    omega
  have hk : ∀ more : List UInt8, k ≤ (raw ++ more).length := fun more =>
    h.trans (by rw [List.length_append]; omega)
  constructor
  · intro hmeet before bytes after heq hlow hhigh
    have hk := hk before.flatten
    have hcut := hmeet before bytes after heq (by rw [hlength]; omega) (by rw [hlength]; omega)
    rwa [List.append_assoc, hlength, ← List.append_assoc] at hcut
  · intro hmeet before bytes after heq hlow hhigh
    have hk := hk before.flatten
    rw [hlength] at hlow hhigh
    have hcut := hmeet before bytes after heq (by omega) (by omega)
    rwa [List.append_assoc, hlength, ← List.append_assoc]

end

/-! ## A round -/

theorem findCrlf_of_notMem {bytes : List UInt8} (h : 13 ∉ bytes) : findCrlf bytes = none := by
  induction bytes with
  | nil => rfl
  | cons b bytes ih =>
    have hb : ¬ (b = 13 ∧ bytes.head? = some 10) := fun hb => h (hb.1 ▸ List.mem_cons_self)
    rw [findCrlf_cons, if_neg hb, ih fun hmem => h (List.mem_cons_of_mem _ hmem), Option.map_none]

theorem ChunkLine.noCrlf (l : ChunkLine) : findCrlf l.bytes = none := by
  refine findCrlf_of_notMem fun hmem => ?_
  rcases List.mem_append.mp hmem with hmem | hmem
  · obtain ⟨c, hc, hmem⟩ := List.mem_flatMap.mp hmem
    exact (hexDigit_facts (l.digits_hex c hc)).2.2.2 hmem
  · exact l.extension_noCr hmem

/-- The loop waits for the line as long as bytes of it are missing. -/
theorem awaitLine_eq {line rest raw : List UInt8} {reads : List (List UInt8)} (hline : findCrlf line = none)
    (heq : raw ++ reads.flatten = line ++ 13 :: 10 :: rest) (hne : ∀ bytes ∈ reads, bytes ≠ []) :
    awaitLine raw reads
      = some (line.length, (drawUntil (line.length + 2) raw reads).1,
          (drawUntil (line.length + 2) raw reads).2) := by
  induction reads generalizing raw with
  | nil =>
    rw [List.flatten_nil, List.append_nil] at heq
    rw [awaitLine, heq, findCrlf_line hline]
    rfl
  | cons bytes reads ih =>
    by_cases hle : line.length + 2 ≤ raw.length
    · have hprefix : line ++ [13, 10] <+: raw := by
        refine List.prefix_of_prefix_length_le ⟨rest, ?_⟩
          (List.prefix_append raw (bytes :: reads).flatten) (by simpa using hle)
        rw [List.append_assoc, heq]
        rfl
      obtain ⟨more, rfl⟩ := hprefix
      have hfind : findCrlf (line ++ [13, 10] ++ more) = some line.length := by
        rw [List.append_assoc]
        exact findCrlf_line hline more
      rw [awaitLine, hfind, drawUntil_of_le hle]
    · have hfind : findCrlf raw = none := by
        rcases findCrlf_of_append_eq hline heq with hnone | ⟨hsome, -⟩
        · exact hnone
        · exact absurd (findCrlf_append hsome []).1 hle
      rw [awaitLine, hfind, drawUntil_of_lt (Nat.not_le.mp hle)]
      dsimp only
      rw [if_neg (hne bytes List.mem_cons_self)]
      exact ih (by rw [← heq, List.flatten_cons, List.append_assoc])
        fun b hb => hne b (List.mem_cons_of_mem _ hb)

/-- The loop waits for the data as long as bytes of it are missing, if the body stays in its bounds. -/
theorem awaitBody_cases (decoded required : ℕ) {low : ℕ} {raw : List UInt8} {reads : List (List UInt8)}
    (hlow : low ≤ raw.length) (henough : required ≤ (raw ++ reads.flatten).length)
    (hne : ∀ bytes ∈ reads, bytes ≠ []) :
    ReadsMeet low required (fun n => decoded + n ≤ maxBodyBytes) raw reads
        ∧ awaitBody decoded required raw reads
          = .ok ((drawUntil required raw reads).1, (drawUntil required raw reads).2)
      ∨ ¬ ReadsMeet low required (fun n => decoded + n ≤ maxBodyBytes) raw reads
        ∧ awaitBody decoded required raw reads = .error "HTTP body is too large" := by
  induction reads generalizing raw with
  | nil =>
    rw [List.flatten_nil, List.append_nil] at henough
    exact .inl ⟨readsMeet_nil _ _ _ _, if_pos henough⟩
  | cons bytes reads ih =>
    by_cases hle : required ≤ raw.length
    · refine .inl ⟨readsMeet_of_le hle, ?_⟩
      rw [awaitBody, if_pos hle, drawUntil_of_le hle]
    · rw [readsMeet_cons, drawUntil_of_lt (Nat.not_le.mp hle), awaitBody, if_neg hle,
        if_neg (hne bytes List.mem_cons_self)]
      by_cases hbound : maxBodyBytes < decoded + (raw ++ bytes).length
      · rw [if_pos hbound]
        exact .inr ⟨fun h => absurd (h.1 hlow (Nat.not_le.mp hle)) (Nat.not_le.mpr hbound), rfl⟩
      · rw [if_neg hbound]
        have hlow : low ≤ (raw ++ bytes).length := by
          rw [List.length_append]
          omega
        rcases ih hlow (by rwa [List.flatten_cons, ← List.append_assoc] at henough) fun b hb =>
          hne b (List.mem_cons_of_mem _ hb) with ⟨hmeet, hok⟩ | ⟨hmeet, herror⟩
        · exact .inl ⟨⟨fun _ _ => Nat.not_lt.mp hbound, hmeet⟩, hok⟩
        · exact .inr ⟨fun h => hmeet h.2, herror⟩

/-- A round on a chunk whose line is `l`: the loop uses the chunk, or fails. -/
theorem readChunk_cases {s : ChunkedState} {l : ChunkLine} {rest : List UInt8}
    (heq : s.left = l.bytes ++ 13 :: 10 :: rest) (hrest : l.value + 2 ≤ rest.length)
    (hvalue : l.value ≤ maxBodyBytes) (hne : ∀ bytes ∈ s.reads, bytes ≠ []) {c : ChunkSpan}
    (hspan : c = ⟨0, l.bytes.length + 2, l.bytes.length + 2 + l.value + 2, s.decoded.length⟩) :
    c.Fits s.raw s.reads
        ∧ readChunk s = useChunk s.decoded (l.bytes.length + 2) l.value
          (drawUntil c.stop s.raw s.reads).1 (drawUntil c.stop s.raw s.reads).2
      ∨ ¬ c.Fits s.raw s.reads ∧ ∃ outcome, readChunk s = .done outcome ∧ ∀ bytes, outcome ≠ .body bytes := by
  subst hspan
  have hleft : s.left.length = l.bytes.length + 2 + rest.length := by
    rw [heq, List.length_append, List.length_cons, List.length_cons]
    omega
  have hline := awaitLine_eq l.noCrlf heq hne
  -- the line is there, and nothing of what is behind it is needed to read it
  have hdraw : l.bytes.length + 2 ≤ (drawUntil (l.bytes.length + 2) s.raw s.reads).1.length :=
    le_length_drawUntil (by rw [← ChunkedState.left]; omega)
  have hflat := drawUntil_flatten (l.bytes.length + 2) s.raw s.reads
  have htake : slice (drawUntil (l.bytes.length + 2) s.raw s.reads).1 0 l.bytes.length = some l.bytes := by
    have hcut := congrArg (List.take l.bytes.length) (hflat.trans heq)
    rw [List.take_append_of_le_length (by omega), List.take_left] at hcut
    rw [slice_zero (by omega), hcut]
  have hround : readChunk s = if 2 ^ 64 ≤ l.bytes.length + 2 + l.value + 2 then .done (.fault .overflow)
      else
        match awaitBody s.decoded.length (l.bytes.length + 2 + l.value + 2)
            (drawUntil (l.bytes.length + 2) s.raw s.reads).1
            (drawUntil (l.bytes.length + 2) s.raw s.reads).2 with
        | .error message => .done (.failed message)
        | .ok (raw, reads) => useChunk s.decoded (l.bytes.length + 2) l.value raw reads := by
    have hsmall : l.value < 2 ^ 64 := by
      have : maxBodyBytes < 2 ^ 64 := by decide
      omega
    rw [readChunk, hline]
    dsimp only
    rw [htake]
    dsimp only
    rw [l.parse hsmall]
  rw [hround]
  by_cases hfits : 2 ^ 64 ≤ l.bytes.length + 2 + l.value + 2
  · rw [if_pos hfits]
    exact .inr ⟨fun h => absurd h.1 (Nat.not_lt.mpr hfits), _, rfl, fun _ => nofun⟩
  · rw [if_neg hfits]
    have hbody := awaitBody_cases s.decoded.length (l.bytes.length + 2 + l.value + 2) hdraw
      (by rw [hflat, ← ChunkedState.left]; omega)
      fun b hb => hne b ((drawUntil_suffix _ _ _).mem hb)
    rw [readsMeet_drawUntil le_rfl, drawUntil_drawUntil (by omega)] at hbody
    rcases hbody with ⟨hmeet, hok⟩ | ⟨hmeet, herror⟩
    · rw [hok]
      exact .inl ⟨⟨Nat.not_le.mp hfits, hmeet⟩, rfl⟩
    · rw [herror]
      exact .inr ⟨fun h => hmeet h.2, _, rfl, fun _ => nofun⟩

/-- The bytes that are taken are those of the chunk and of what is behind it. -/
theorem drawUntil_eq_append {s : ChunkedState} {front more : List UInt8} (heq : s.left = front ++ more) :
    ∃ tail, (drawUntil front.length s.raw s.reads).1 = front ++ tail
      ∧ tail ++ (drawUntil front.length s.raw s.reads).2.flatten = more := by
  have hflat := drawUntil_flatten front.length s.raw s.reads
  have hle : front.length ≤ (drawUntil front.length s.raw s.reads).1.length :=
    le_length_drawUntil (by rw [← ChunkedState.left, heq, List.length_append]; omega)
  have hprefix : front <+: (drawUntil front.length s.raw s.reads).1 :=
    List.prefix_of_prefix_length_le ⟨more, by rw [hflat, ← ChunkedState.left, heq]⟩
      (List.prefix_append _ (drawUntil front.length s.raw s.reads).2.flatten) hle
  obtain ⟨tail, htail⟩ := hprefix
  refine ⟨tail, htail.symm, ?_⟩
  rw [← htail, List.append_assoc, ← ChunkedState.left, heq] at hflat
  exact List.append_cancel_left hflat

theorem FramedPiece.length_bytes (p : FramedPiece) :
    p.bytes.length = p.line.bytes.length + 2 + p.data.length + 2 := by
  rw [FramedPiece.bytes]
  simp only [List.length_append, List.length_cons, List.length_nil]
  omega

theorem useChunk_piece (p : FramedPiece) {decoded : List UInt8}
    (hsmall : (decoded ++ p.data).length ≤ maxBodyBytes) (tail : List UInt8) (reads : List (List UInt8)) :
    useChunk decoded (p.line.bytes.length + 2) p.line.value (p.bytes ++ tail) reads
      = .next ⟨decoded ++ p.data, tail, reads⟩ := by
  have hlength := p.length_bytes
  have hdata : (p.bytes ++ tail).drop (p.line.bytes.length + 2) = p.data ++ ([13, 10] ++ tail) := by
    rw [FramedPiece.bytes, List.append_assoc, List.drop_append, List.drop_of_length_le (by omega),
      Nat.add_sub_cancel_left]
    simp
  have hend : (p.bytes ++ tail).drop (p.line.bytes.length + 2 + p.data.length) = [13, 10] ++ tail := by
    rw [← List.drop_drop, hdata, List.drop_left]
  have hpos : p.data.length ≠ 0 := fun h => p.data_ne_nil (List.length_eq_zero_iff.mp h)
  have hsum : (p.bytes ++ tail).length = p.bytes.length + tail.length := List.length_append
  rw [useChunk, p.value, slice_of_le (by omega) (by omega), hend, if_neg (by simp), if_neg hpos,
    slice_of_le (by omega) (by omega), hdata, Nat.add_sub_cancel_left, List.take_left]
  dsimp only
  rw [if_neg (Nat.not_lt.mpr hsmall), slice_length (by omega), ← hlength, List.drop_left]

/-- The bytes of the last chunk that the loop takes: its line and two more. -/
theorem useChunk_last (e : FramedEnd) (decoded : List UInt8) {raw : List UInt8} {more : List UInt8}
    (heq : raw ++ more = e.bytes) (hle : e.line.bytes.length + 2 + 2 ≤ raw.length) (reads : List (List UInt8)) :
    useChunk decoded (e.line.bytes.length + 2) e.line.value raw reads
      = if e.trailers = [] then .done (.body decoded)
        else .done (.failed "invalid upstream chunk terminator") := by
  have htaken : (raw.drop (e.line.bytes.length + 2)).take 2
      = (e.trailers.flatMap (· ++ [13, 10]) ++ [13, 10]).take 2 := by
    have hcut := congrArg (fun bytes : List UInt8 => (bytes.drop (e.line.bytes.length + 2)).take 2) heq
    rw [List.drop_append_of_le_length (by omega),
      List.take_append_of_le_length (by rw [List.length_drop]; omega), FramedEnd.bytes] at hcut
    rw [hcut, List.drop_append, List.drop_of_length_le (by omega), Nat.add_sub_cancel_left]
    rfl
  rw [useChunk, e.value, Nat.add_zero, slice_of_le (by omega) (by omega), Nat.add_sub_cancel_left, htaken]
  cases htrailers : e.trailers with
  | nil => simp
  | cons field trailers =>
    have hmem : field ∈ e.trailers := htrailers ▸ List.mem_cons_self
    obtain ⟨b, field, rfl⟩ := List.exists_cons_of_ne_nil (e.trailers_ne_nil _ hmem)
    have hb : b ≠ 13 := fun hb => e.trailers_noCr _ hmem (hb ▸ List.mem_cons_self)
    rw [if_pos (by simp [hb]), if_neg (List.cons_ne_nil _ _)]

/-! ## Runs on a framing -/

/-- The chunk `k` bytes further. -/
def ChunkSpan.shift (k : ℕ) (c : ChunkSpan) : ChunkSpan :=
  { c with start := c.start + k, dataStart := c.dataStart + k, stop := c.stop + k }

theorem chunkSpans_shift (k start decoded : ℕ) (pieces : List FramedPiece) (last : FramedEnd) :
    chunkSpans (start + k) decoded pieces last = (chunkSpans start decoded pieces last).map (·.shift k) := by
  induction pieces generalizing start decoded with
  | nil =>
    simp only [chunkSpans, List.map_cons, List.map_nil, ChunkSpan.shift, List.cons.injEq, ChunkSpan.mk.injEq,
      and_true, true_and]
    omega
  | cons p pieces ih =>
    have hline : start + k + p.line.bytes.length + 2 = start + p.line.bytes.length + 2 + k := by omega
    have hstop : start + p.line.bytes.length + 2 + k + p.data.length + 2
        = start + p.line.bytes.length + 2 + p.data.length + 2 + k := by omega
    rw [chunkSpans, chunkSpans, List.map_cons, hline, hstop, ih]
    rfl

/-- What a chunk asks of the reads can be asked when the bytes in front of it are used. -/
theorem ChunkSpan.fits_shift {c : ChunkSpan} {k : ℕ} {raw : List UInt8} {reads : List (List UInt8)}
    (h : k ≤ (raw ++ reads.flatten).length) :
    (c.shift k).Fits raw reads ↔ c.Fits ((drawUntil k raw reads).1.drop k) (drawUntil k raw reads).2 := by
  rw [ChunkSpan.Fits, ChunkSpan.Fits, readsMeet_drop (le_length_drawUntil h),
    readsMeet_drawUntil (Nat.le_add_left k _), ChunkSpan.shift, Nat.add_sub_add_right]
  simp only [Nat.sub_sub, Nat.add_comm]

theorem chunkSpans_nil (decoded : ℕ) (last : FramedEnd) : chunkSpans 0 decoded [] last
    = [⟨0, last.line.bytes.length + 2, last.line.bytes.length + 2 + last.line.value + 2, decoded⟩] := by
  rw [chunkSpans, last.value, Nat.zero_add]

theorem chunkSpans_cons (decoded : ℕ) (p : FramedPiece) (pieces : List FramedPiece) (last : FramedEnd) :
    chunkSpans 0 decoded (p :: pieces) last
      = ⟨0, p.line.bytes.length + 2, p.line.bytes.length + 2 + p.line.value + 2, decoded⟩
        :: (chunkSpans 0 (decoded + p.data.length) pieces last).map (·.shift p.bytes.length) := by
  rw [chunkSpans, ← chunkSpans_shift, p.value, p.length_bytes, Nat.zero_add, Nat.zero_add]

/-- A run on a framing: it ends with the body if there are no fields behind the last chunk and every
chunk fits.  The induction is on the chunks; each round uses one up. -/
theorem loop_framed {last : FramedEnd} {pieces : List FramedPiece} {n : ℕ} {s : ChunkedState}
    (hleft : s.left = framing pieces last) (hne : ∀ bytes ∈ s.reads, bytes ≠ [])
    (hsmall : (s.decoded ++ content pieces).length ≤ maxBodyBytes) (hn : s.left.length < n) :
    readChunkedBody.loop n s = some (.body (s.decoded ++ content pieces))
      ↔ last.trailers = [] ∧ ∀ c ∈ chunkSpans 0 s.decoded.length pieces last, c.Fits s.raw s.reads := by
  induction pieces generalizing s n with
  | nil =>
    obtain ⟨m, rfl⟩ : ∃ m, n = m + 1 := ⟨n - 1, by omega⟩
    have hleft : s.left = last.bytes := hleft
    have hround := readChunk_cases (l := last.line) (hleft.trans rfl)
      (by rw [last.value, List.length_append]; simp) (by rw [last.value]; exact Nat.zero_le _) hne rfl
    rw [chunkSpans_nil, readChunkedBody.loop, content, List.flatMap_nil, List.append_nil]
    simp only [List.mem_singleton, forall_eq]
    rcases hround with ⟨hfits, hnext⟩ | ⟨hfits, outcome, hdone, hbody⟩
    · have hstop : last.line.bytes.length + 2 + last.line.value + 2 ≤ s.left.length := by
        rw [hleft, FramedEnd.bytes, last.value]
        simp only [List.length_append, List.length_cons, List.length_nil]
        omega
      have hdraw := le_length_drawUntil hstop
      rw [last.value, Nat.add_zero] at hdraw
      rw [hnext, useChunk_last last s.decoded (by rw [drawUntil_flatten, ← ChunkedState.left, hleft])
        (by rw [last.value, Nat.add_zero]; exact hdraw)]
      by_cases htrailers : last.trailers = []
      · rw [if_pos htrailers]
        exact iff_of_true rfl ⟨htrailers, hfits⟩
      · rw [if_neg htrailers]
        exact iff_of_false (by simp) fun h => htrailers h.1
    · rw [hdone]
      exact iff_of_false (fun h => hbody _ (Option.some.inj h)) fun h => hfits h.2
  | cons p pieces ih =>
    obtain ⟨m, rfl⟩ : ∃ m, n = m + 1 := ⟨n - 1, by omega⟩
    have hcontent : content (p :: pieces) = p.data ++ content pieces := rfl
    have hleft : s.left = p.bytes ++ framing pieces last := hleft.trans (by simp [framing])
    have hdata : p.data.length ≤ maxBodyBytes := by
      rw [hcontent, List.length_append, List.length_append] at hsmall
      omega
    have hline : s.left = p.line.bytes ++ 13 :: 10 :: (p.data ++ [13, 10] ++ framing pieces last) :=
      hleft.trans (by simp [FramedPiece.bytes])
    have hround := readChunk_cases hline
      (by rw [p.value, List.length_append, List.length_append]; simp)
      (by rwa [p.value]) hne rfl
    have hstop : p.line.bytes.length + 2 + p.line.value + 2 = p.bytes.length := by
      rw [p.value, p.length_bytes]
    rw [chunkSpans_cons, List.forall_mem_cons, readChunkedBody.loop]
    rcases hround with ⟨hfits, hnext⟩ | ⟨hfits, outcome, hdone, hbody⟩
    · obtain ⟨tail, htaken, htail⟩ := drawUntil_eq_append hleft
      rw [hstop] at hfits
      rw [hnext]
      dsimp only
      rw [hstop, htaken, useChunk_piece p (by
        rw [hcontent, ← List.append_assoc, List.length_append] at hsmall
        omega)]
      dsimp only
      have hrun := ih (n := m) (s := ⟨s.decoded ++ p.data, tail, (drawUntil p.bytes.length s.raw s.reads).2⟩)
        htail (fun b hb => hne b ((drawUntil_suffix _ _ _).mem hb))
        (by rwa [List.append_assoc, ← hcontent]) (by
          have hlength := congrArg List.length hleft
          rw [List.length_append, p.length_bytes] at hlength
          rw [ChunkedState.left, htail]
          omega)
      rw [hcontent, ← List.append_assoc, hrun, List.length_append, List.forall_mem_map]
      -- what the chunks behind this one ask of the reads, seen from its end
      have hshift : ∀ c : ChunkSpan, (c.shift p.bytes.length).Fits s.raw s.reads
          ↔ c.Fits tail (drawUntil p.bytes.length s.raw s.reads).2 := by
        intro c
        rw [ChunkSpan.fits_shift (by rw [← ChunkedState.left, hleft, List.length_append]; omega), htaken,
          List.drop_left]
      simp only [hshift]
      exact ⟨fun h => ⟨h.1, hfits, h.2⟩, fun h => ⟨h.1, h.2.2⟩⟩
    · rw [hdone]
      exact iff_of_false (fun h => hbody _ (Option.some.inj h)) fun h => hfits h.2.1

/-- `read_chunked_body` returns the body of a framing if, and only if, there are no fields behind the last
chunk and every chunk fits. -/
theorem FramedBody.readChunkedBody_iff (b : FramedBody) :
    readChunkedBody b.raw b.reads = some (.body (content b.pieces))
      ↔ b.last.trailers = [] ∧ ∀ c ∈ chunkSpans 0 0 b.pieces b.last, c.Fits b.raw b.reads :=
  loop_framed (s := ⟨[], b.raw, b.reads⟩) b.whole b.reads_ne_nil b.small (Nat.lt_succ_self _)

/-! ## Runs on any bytes -/

/-- The state for the next round. -/
def ChunkedState.next (s : ChunkedState) : Option ChunkedState :=
  match readChunk s with
  | .next t => some t
  | .done _ => none

/-- If the next line gives a size, the end of its chunk fits `usize`. -/
def ChunkedState.SizeFits (s : ChunkedState) : Prop :=
  ∀ lineEnd raw reads size, awaitLine s.raw s.reads = some (lineEnd, raw, reads) →
    parseChunkSize (String.ofList (Utf8.decodeLossy (raw.take lineEnd))) = some size →
    lineEnd + 2 + size + 2 < 2 ^ 64

theorem awaitLine_spec {raw raw' : List UInt8} {reads reads' : List (List UInt8)} {lineEnd : ℕ}
    (h : awaitLine raw reads = some (lineEnd, raw', reads')) :
    lineEnd + 2 ≤ raw'.length ∧ raw' ++ reads'.flatten = raw ++ reads.flatten := by
  induction reads generalizing raw with
  | nil =>
    obtain ⟨n, hn, heq⟩ := Option.map_eq_some_iff.mp h
    cases heq
    exact ⟨(findCrlf_append hn []).1, rfl⟩
  | cons bytes reads ih =>
    rw [awaitLine] at h
    cases hline : findCrlf raw with
    | some n =>
      rw [hline] at h
      cases h
      exact ⟨(findCrlf_append hline []).1, rfl⟩
    | none =>
      rw [hline] at h
      dsimp only at h
      split at h
      · cases h
      · obtain ⟨hle, hflat⟩ := ih h
        exact ⟨hle, by rw [hflat, List.flatten_cons, List.append_assoc]⟩

theorem awaitBody_spec {decoded required : ℕ} {raw raw' : List UInt8} {reads reads' : List (List UInt8)}
    (h : awaitBody decoded required raw reads = .ok (raw', reads')) :
    required ≤ raw'.length ∧ raw' ++ reads'.flatten = raw ++ reads.flatten := by
  induction reads generalizing raw with
  | nil =>
    rw [awaitBody] at h
    split at h
    · rename_i hle
      cases h
      exact ⟨hle, rfl⟩
    · cases h
  | cons bytes reads ih =>
    rw [awaitBody] at h
    split_ifs at h with hle
    · cases h
      exact ⟨hle, rfl⟩
    · obtain ⟨hle, hflat⟩ := ih h
      exact ⟨hle, by rw [hflat, List.flatten_cons, List.append_assoc]⟩

/-- A chunk whose bytes are there is used without a fault. -/
theorem useChunk_cases (decoded : List UInt8) {raw : List UInt8} {dataStart size : ℕ}
    (h : dataStart + size + 2 ≤ raw.length) (reads : List (List UInt8)) :
    (∃ outcome, useChunk decoded dataStart size raw reads = .done outcome ∧ ∀ f, outcome ≠ .fault f)
      ∨ ∃ data, useChunk decoded dataStart size raw reads
        = .next ⟨decoded ++ data, raw.drop (dataStart + size + 2), reads⟩ := by
  rw [useChunk, slice_of_le (Nat.le_add_right _ _) h, slice_of_le (Nat.le_add_right _ _) (by omega),
    slice_length h]
  dsimp only
  split_ifs
  · exact .inl ⟨_, rfl, fun _ => nofun⟩
  · exact .inl ⟨_, rfl, fun _ => nofun⟩
  · exact .inl ⟨_, rfl, fun _ => nofun⟩
  · exact .inr ⟨_, rfl⟩

/-- What a round does: it overflows if the size does not fit, and else it ends without a fault or uses
bytes up. -/
theorem readChunk_spec (s : ChunkedState) :
    ¬ s.SizeFits ∧ readChunk s = .done (.fault .overflow)
      ∨ s.SizeFits ∧ (∃ outcome, readChunk s = .done outcome ∧ ∀ f, outcome ≠ .fault f)
      ∨ s.SizeFits ∧ ∃ t, readChunk s = .next t ∧ t.left.length < s.left.length := by
  rw [readChunk]
  cases hline : awaitLine s.raw s.reads with
  | none =>
    refine .inr (.inl ⟨fun _ _ _ _ h => ?_, _, rfl, fun _ => nofun⟩)
    rw [hline] at h
    cases h
  | some found =>
    obtain ⟨lineEnd, raw, reads⟩ := found
    obtain ⟨hle, hflat⟩ := awaitLine_spec hline
    have hfits : s.SizeFits ↔ ∀ size,
        parseChunkSize (String.ofList (Utf8.decodeLossy (raw.take lineEnd))) = some size →
        lineEnd + 2 + size + 2 < 2 ^ 64 := by
      constructor
      · exact fun h size hsize => h _ _ _ size hline hsize
      · intro h lineEnd' raw' reads' size hline' hsize
        rw [hline, Option.some.injEq] at hline'
        cases hline'
        exact h size hsize
    rw [hfits]
    dsimp only
    rw [slice_zero (by omega)]
    dsimp only
    cases hsize : parseChunkSize (String.ofList (Utf8.decodeLossy (raw.take lineEnd))) with
    | none => exact .inr (.inl ⟨fun _ => nofun, _, rfl, fun _ => nofun⟩)
    | some size =>
      dsimp only
      by_cases hover : 2 ^ 64 ≤ lineEnd + 2 + size + 2
      · rw [if_pos hover]
        exact .inl ⟨fun h => absurd (h size rfl) (Nat.not_lt.mpr hover), rfl⟩
      · have hok : ∀ n, some size = some n → lineEnd + 2 + n + 2 < 2 ^ 64 := by
          intro n hn
          cases hn
          exact Nat.not_le.mp hover
        rw [if_neg hover]
        cases hbody : awaitBody s.decoded.length (lineEnd + 2 + size + 2) raw reads with
        | error message => exact .inr (.inl ⟨hok, _, rfl, fun _ => nofun⟩)
        | ok taken =>
          obtain ⟨raw', reads'⟩ := taken
          obtain ⟨hrequired, hflat'⟩ := awaitBody_spec hbody
          rcases useChunk_cases s.decoded hrequired reads' with
            ⟨outcome, hdone, hfault⟩ | ⟨data, hnext⟩
          · exact .inr (.inl ⟨hok, outcome, hdone, hfault⟩)
          · refine .inr (.inr ⟨hok, _, hnext, ?_⟩)
            have hlength := congrArg List.length (hflat'.trans hflat)
            change (raw'.drop _ ++ reads'.flatten).length < (s.raw ++ s.reads.flatten).length
            rw [← hlength, List.length_append, List.length_append, List.length_drop]
            omega

/-- The loop returns, and without a fault if, and only if, the size fits in every state it reaches. -/
theorem loop_returns {n : ℕ} {s : ChunkedState} (hn : s.left.length < n) :
    ∃ outcome, readChunkedBody.loop n s = some outcome
      ∧ ((∀ f, outcome ≠ .fault f) ↔ ∀ t, StateTransition.Reaches ChunkedState.next s t → t.SizeFits) := by
  induction n generalizing s with
  | zero => exact absurd hn (Nat.not_lt_zero _)
  | succ n ih =>
    rw [readChunkedBody.loop]
    rcases readChunk_spec s with ⟨hfits, hover⟩ | ⟨hfits, outcome, hdone, hfault⟩ | ⟨hfits, t, hnext, hlt⟩
    · rw [hover]
      exact ⟨_, rfl, iff_of_false (fun h => h _ rfl) fun h => hfits (h s .refl)⟩
    · have hstop : s.next = none := by rw [ChunkedState.next, hdone]
      rw [hdone]
      exact ⟨outcome, rfl, iff_of_true hfault ((forall_reaches_of_stop hstop).mpr hfits)⟩
    · have hstep : s.next = some t := by rw [ChunkedState.next, hnext]
      obtain ⟨outcome, hrun, hiff⟩ := ih (s := t) (by omega)
      rw [hnext]
      refine ⟨outcome, hrun, hiff.trans ?_⟩
      rw [forall_reaches_of_next hstep]
      exact ⟨fun h => ⟨hfits, h⟩, And.right⟩

/-- `read_chunked_body` always returns. -/
theorem readChunkedBody_returns (raw : List UInt8) (reads : List (List UInt8)) :
    ∃ outcome, readChunkedBody raw reads = some outcome
      ∧ ((∀ f, outcome ≠ .fault f)
        ↔ ∀ s, StateTransition.Reaches ChunkedState.next ⟨[], raw, reads⟩ s → s.SizeFits) :=
  loop_returns (s := ⟨[], raw, reads⟩) (Nat.lt_succ_self _)

/-! ## Runs of the stream decoder -/

section

variable {σ : Type} (push : σ → String → σ × SseFlow)

/-- The variables of the loop of `decode_chunked_to_sse`. -/
structure StreamState (σ : Type) where
  sink : σ
  raw : List UInt8
  decoded : String
  reads : List (List UInt8)

/-- The state behind a frame, if the loop goes on. -/
def StreamState.after (t : StreamState σ) : ChunkFrame → Option (StreamState σ)
  | .partialChunk =>
    match t.reads with
    | [] => none
    | bytes :: reads => some ⟨t.sink, t.raw ++ bytes, t.decoded, reads⟩
  | .corrupt => none
  | .last => none
  | .chunk payload rest =>
    match pushSseEvents push t.sink (t.decoded ++ String.ofList (Utf8.decodeLossy payload)) with
    | (_, .abortReconcile, _) => none
    | (s, .continues, decoded) => some ⟨s, rest, decoded, t.reads⟩

/-- The state for the next round. -/
def StreamState.next (t : StreamState σ) : Option (StreamState σ) := t.after push (chunkFrame t.raw)

/-- The size in the next line fits. -/
def StreamState.SizeFits (t : StreamState σ) : Prop := streamOverflows t.raw = false

variable {push}

theorem checkedFrame_error {raw : List UInt8} {fault : Fault} (h : checkedFrame raw = .error fault) :
    streamOverflows raw = true ∧ fault = .overflow := by
  rw [checkedFrame_eq] at h
  split at h
  · rename_i hover
    cases h
    exact ⟨hover, rfl⟩
  · cases h

theorem checkedFrame_ok {raw : List UInt8} {frame : ChunkFrame} (h : checkedFrame raw = .ok frame) :
    streamOverflows raw = false ∧ chunkFrame raw = frame := by
  rw [checkedFrame_eq] at h
  split at h
  · cases h
  · rename_i hover
    cases h
    exact ⟨Bool.eq_false_iff.mpr hover, rfl⟩

theorem decodeChunkedToSse_of_corrupt {raw : List UInt8} (h : chunkFrame raw = .corrupt)
    (s : σ) (decoded : String) (reads : List (List UInt8)) :
    decodeChunkedToSse push s raw decoded reads = match pushSseEvents push s decoded with
      | (s, .abortReconcile, _) => (s, none)
      | (s, .continues, _) => (s, some "") := by
  rw [decodeChunkedToSse.eq_def]
  split <;> rename_i heq <;> rw [h] at heq <;> cases heq <;> rfl

/-- The size fits in every state that is reached. -/
def StreamState.Safe (push : σ → String → σ × SseFlow) (t : StreamState σ) : Prop :=
  ∀ u, StateTransition.Reaches (StreamState.next push) t u → u.SizeFits

theorem StreamState.next_eq {t : StreamState σ} {frame : ChunkFrame} (h : chunkFrame t.raw = frame) :
    t.next push = t.after push frame :=
  congrArg (t.after push) h

theorem StreamState.safe_of_stop {t : StreamState σ} {frame : ChunkFrame} (h : checkedFrame t.raw = .ok frame)
    (hstop : t.next push = none) : t.Safe push :=
  (forall_reaches_of_stop hstop).mpr (checkedFrame_ok h).1

theorem StreamState.safe_iff_of_next {t u : StreamState σ} {frame : ChunkFrame}
    (h : checkedFrame t.raw = .ok frame) (hnext : t.next push = some u) : t.Safe push ↔ u.Safe push :=
  (forall_reaches_of_next hnext).trans (and_iff_right (checkedFrame_ok h).1)

/-- The decoder returns what it returns on numbers without a bound, if the size fits in every state it
reaches; else it overflows. -/
theorem decodeChecked_cases (s : σ) (raw : List UInt8) (decoded : String) (reads : List (List UInt8)) :
    StreamState.Safe push ⟨s, raw, decoded, reads⟩
        ∧ decodeChecked push s raw decoded reads = .ok (decodeChunkedToSse push s raw decoded reads)
      ∨ ¬ StreamState.Safe push ⟨s, raw, decoded, reads⟩
        ∧ decodeChecked push s raw decoded reads = .error .overflow := by
  fun_induction decodeChecked push s raw decoded reads with
  | case1 s raw decoded reads fault h =>
    obtain ⟨hover, rfl⟩ := checkedFrame_error h
    refine .inr ⟨fun hsafe => ?_, rfl⟩
    have hfits : streamOverflows raw = false := hsafe ⟨s, raw, decoded, reads⟩ .refl
    rw [hover] at hfits
    cases hfits
  | case2 s raw decoded h =>
    have hframe := (checkedFrame_ok h).2
    have hstop : StreamState.next push ⟨s, raw, decoded, []⟩ = none := by
      rw [StreamState.next_eq hframe]
      rfl
    refine .inl ⟨StreamState.safe_of_stop h hstop, ?_⟩
    rw [decodeChunkedToSse_of_cut hframe]
  | case3 s raw decoded h bytes reads ih =>
    have hframe := (checkedFrame_ok h).2
    have hnext : StreamState.next push ⟨s, raw, decoded, bytes :: reads⟩
        = some ⟨s, raw ++ bytes, decoded, reads⟩ := by
      rw [StreamState.next_eq hframe]
      rfl
    rw [StreamState.safe_iff_of_next h hnext, decodeChunkedToSse_of_cut hframe]
    exact ih
  | case4 s raw decoded reads h s' carry hpush =>
    have hframe := (checkedFrame_ok h).2
    have hstop : StreamState.next push ⟨s, raw, decoded, reads⟩ = none := by
      rw [StreamState.next_eq hframe]
      rfl
    refine .inl ⟨StreamState.safe_of_stop h hstop, ?_⟩
    rw [decodeChunkedToSse_of_corrupt hframe, hpush]
  | case5 s raw decoded reads h s' carry hpush =>
    have hframe := (checkedFrame_ok h).2
    have hstop : StreamState.next push ⟨s, raw, decoded, reads⟩ = none := by
      rw [StreamState.next_eq hframe]
      rfl
    refine .inl ⟨StreamState.safe_of_stop h hstop, ?_⟩
    rw [decodeChunkedToSse_of_corrupt hframe, hpush]
  | case6 s raw decoded reads h s' carry hpush =>
    have hframe := (checkedFrame_ok h).2
    have hstop : StreamState.next push ⟨s, raw, decoded, reads⟩ = none := by
      rw [StreamState.next_eq hframe]
      rfl
    refine .inl ⟨StreamState.safe_of_stop h hstop, ?_⟩
    rw [decodeChunkedToSse_of_last hframe, deliver, hpush]
  | case7 s raw decoded reads h s' carry hpush =>
    have hframe := (checkedFrame_ok h).2
    have hstop : StreamState.next push ⟨s, raw, decoded, reads⟩ = none := by
      rw [StreamState.next_eq hframe]
      rfl
    refine .inl ⟨StreamState.safe_of_stop h hstop, ?_⟩
    rw [decodeChunkedToSse_of_last hframe, deliver, hpush]
  | case8 s raw decoded reads payload rest h s' carry hpush =>
    have hframe := (checkedFrame_ok h).2
    have hstop : StreamState.next push ⟨s, raw, decoded, reads⟩ = none := by
      rw [StreamState.next_eq hframe, StreamState.after]
      dsimp only
      rw [hpush]
    refine .inl ⟨StreamState.safe_of_stop h hstop, ?_⟩
    rw [decodeChunkedToSse_of_chunk hframe, hpush]
  | case9 s raw decoded reads payload rest h s' carry hpush ih =>
    have hframe := (checkedFrame_ok h).2
    have hnext : StreamState.next push ⟨s, raw, decoded, reads⟩ = some ⟨s', rest, carry, reads⟩ := by
      rw [StreamState.next_eq hframe, StreamState.after]
      dsimp only
      rw [hpush]
    rw [StreamState.safe_iff_of_next h hnext, decodeChunkedToSse_of_chunk hframe, hpush]
    exact ih

end

/-! ## Decoding of chunked bodies -/

/-- Every framing of a body is decoded, whatever the reads, and on any bytes both decoders return. -/
def DecodesChunked : Prop :=
  (∀ b : FramedBody, readChunkedBody b.raw b.reads = some (.body (content b.pieces)))
    ∧ (∀ raw reads, ∃ outcome, readChunkedBody raw reads = some outcome ∧ ∀ f, outcome ≠ .fault f)
    ∧ ∀ (σ : Type) (push : σ → String → σ × SseFlow) (s : σ) (raw : List UInt8) (reads : List (List UInt8)),
      ∃ result, decodeChecked push s raw "" reads = .ok result

/-- When the decoders do that: a framing is decoded if it has no fields behind the last chunk and its
chunks fit, and a decoder returns if the sizes that it meets fit. -/
theorem chunkedDecoding_iff (b : FramedBody) {σ : Type} (push : σ → String → σ × SseFlow) (s : σ) (raw : List UInt8)
    (reads : List (List UInt8)) :
    (readChunkedBody b.raw b.reads = some (.body (content b.pieces))
      ↔ b.last.trailers = [] ∧ ∀ c ∈ chunkSpans 0 0 b.pieces b.last, c.Fits b.raw b.reads)
    ∧ ((∃ outcome, readChunkedBody raw reads = some outcome ∧ ∀ f, outcome ≠ .fault f)
      ↔ ∀ t, StateTransition.Reaches ChunkedState.next ⟨[], raw, reads⟩ t → t.SizeFits)
    ∧ ((∃ result, decodeChecked push s raw "" reads = .ok result)
      ↔ ∀ t, StateTransition.Reaches (StreamState.next push) ⟨s, raw, "", reads⟩ t → t.SizeFits) := by
  refine ⟨FramedBody.readChunkedBody_iff b, ?_, ?_⟩
  · obtain ⟨outcome, hrun, hiff⟩ := readChunkedBody_returns raw reads
    rw [hrun, ← hiff]
    constructor
    · rintro ⟨other, hother, hfault⟩
      rw [Option.some.inj hother]
      exact hfault
    · exact fun hfault => ⟨outcome, rfl, hfault⟩
  · rcases @decodeChecked_cases σ push s raw "" reads with ⟨hsafe, hok⟩ | ⟨hsafe, herror⟩
    · exact iff_of_true ⟨_, hok⟩ hsafe
    · refine iff_of_false (fun ⟨result, hok⟩ => ?_) hsafe
      rw [herror] at hok
      cases hok

/-- A last chunk with a field behind it is refused, and a size near the end of `usize` overflows. -/
theorem not_decodesChunked :
    readChunkedBody [48, 13, 10, 97, 58, 32, 98, 13, 10, 13, 10] []
        = some (.failed "invalid upstream chunk terminator")
      ∧ readChunkedBody (List.replicate 16 102 ++ [13, 10]) [] = some (.fault .overflow)
      ∧ ¬ DecodesChunked := by
  have hrun : readChunkedBody [48, 13, 10, 97, 58, 32, 98, 13, 10, 13, 10] []
      = some (.failed "invalid upstream chunk terminator") := by decide +kernel
  refine ⟨hrun, by decide +kernel, fun h => ?_⟩
  have hbody := h.1 {
    pieces := []
    last := {
      line := ⟨['0'], [], by decide, List.all_iff_forall_prop.mp (by decide), .inl rfl, by decide⟩
      trailers := [[97, 58, 32, 98]]
      value := by decide
      trailers_ne_nil := by decide
      trailers_noCr := by decide }
    raw := [48, 13, 10, 97, 58, 32, 98, 13, 10, 13, 10]
    reads := []
    whole := by decide
    reads_ne_nil := by decide
    small := by decide }
  rw [hrun] at hbody
  cases hbody

end CodexRouter
