/-
# The framing of an event stream

The gateway reads an event stream from a socket, in reads of any size, and, if the
upstream sends it chunked, in chunks of any size.  `forward_plain_sse` and
`decode_chunked_to_sse` turn the bytes into events for the sink.  Both decode a piece
as soon as it is there (a read, or the payload of a chunk), so that a character that
is cut by the end of a piece is lost.  `framing_iff` says that this is all that can be
seen of the pieces.

The sink is a state with a function `push`; a result here holds for every sink.
-/
import CodexRouter.Base.Text
import CodexRouter.Base.Utf8
import Mathlib.Tactic.SplitIfs

namespace CodexRouter

open Text

/-! ## Events -/

/-- Where the first event of a text ends. -/
def sseEventEnd (carry : String) : Option ℕ :=
  match find carry "\n\n", find carry "\r\n\r\n" with
  | some lf, some crlf => some (if crlf ≤ lf then crlf + 4 else lf + 2)
  | some lf, none => some (lf + 2)
  | none, some crlf => some (crlf + 4)
  | none, none => none

/-- `take_sse_event`: the first event, and the carry behind it. -/
def takeSseEvent (carry : String) : Option (String × String) :=
  (sseEventEnd carry).map fun n =>
    (String.ofList (carry.toList.take n), String.ofList (carry.toList.drop n))

theorem sseEventEnd_pos {carry : String} {n : ℕ} (h : sseEventEnd carry = some n) : 0 < n := by
  unfold sseEventEnd at h
  split at h <;> cases h
  · split <;> omega
  · omega
  · omega

theorem length_lf : "\n\n".length = 2 := rfl

theorem length_crlf : "\r\n\r\n".length = 4 := rfl

/-- An event ends inside of the text. -/
theorem sseEventEnd_le {carry : String} {n : ℕ} (h : sseEventEnd carry = some n) :
    n ≤ carry.length := by
  unfold sseEventEnd at h
  split at h <;> cases h
  · rename_i hlf hcrlf
    have hlf := length_lf ▸ find_add_length_le hlf
    have hcrlf := length_crlf ▸ find_add_length_le hcrlf
    split <;> omega
  · rename_i hlf _
    exact length_lf ▸ find_add_length_le hlf
  · rename_i _ hcrlf
    exact length_crlf ▸ find_add_length_le hcrlf

theorem takeSseEvent_spec {carry event rest : String}
    (h : takeSseEvent carry = some (event, rest)) :
    carry = event ++ rest ∧ rest.length < carry.length := by
  obtain ⟨n, hn, heq⟩ := Option.map_eq_some_iff.mp h
  rw [Prod.mk.injEq] at heq
  obtain ⟨rfl, rfl⟩ := heq
  have hpos := sseEventEnd_pos hn
  have hle := sseEventEnd_le hn
  constructor
  · rw [← String.ofList_append, List.take_append_drop, String.ofList_toList]
  · rw [String.length_ofList, List.length_drop, String.length_toList]
    omega

/-! ## The sink -/

/-- `SseFlow`: the sink takes more, or it stops (the retry diverged, or the client
cannot be written to). -/
inductive SseFlow where
  | continues
  | abortReconcile
  deriving DecidableEq, Repr

section

variable {σ : Type} (push : σ → String → σ × SseFlow)

/-- `push_sse_events`: give the complete events to the sink, and keep the tail. -/
def pushSseEvents (s : σ) (carry : String) : σ × SseFlow × String :=
  match _h : takeSseEvent carry with
  | none => (s, .continues, carry)
  | some (event, rest) =>
    match push s event with
    | (s, .abortReconcile) => (s, .abortReconcile, rest)
    | (s, .continues) => pushSseEvents s rest
termination_by carry.length
decreasing_by exact (takeSseEvent_spec _h).2

/-- `forward_plain_sse`: the sink, and the carry that `eof_outcome` gets, if any.  A
read that timed out brings no bytes; the stream ends behind the last read. -/
def forwardPlainSse.loop (s : σ) (carry : String) : List (List UInt8) → σ × Option String
  | [] =>
    match pushSseEvents push s carry with
    | (s, .abortReconcile, _) => (s, none)
    | (s, .continues, carry) =>
      match pushSseEvents push s carry with
      | (s, .abortReconcile, _) => (s, none)
      | (s, .continues, carry) => (s, some carry)
  | bytes :: reads =>
    match pushSseEvents push s carry with
    | (s, .abortReconcile, _) => (s, none)
    | (s, .continues, carry) =>
      forwardPlainSse.loop s (carry ++ String.ofList (Utf8.decodeLossy bytes)) reads

/-- `forward_plain_sse`. -/
def forwardPlainSse (s : σ) (leftover : List UInt8) (reads : List (List UInt8)) :
    σ × Option String :=
  forwardPlainSse.loop push s (String.ofList (Utf8.decodeLossy leftover)) reads

end

/-! ## Chunks -/

/-- The position of the first CRLF. -/
def findCrlf : List UInt8 → Option ℕ
  | [] => none
  | b :: rest =>
    if b = 13 ∧ rest.head? = some 10 then some 0 else (findCrlf rest).map (· + 1)

/-- The value of a hexadecimal digit. -/
def hexValue (c : Char) : Option ℕ :=
  if isAsciiDigit c then some (c.toNat - '0'.toNat)
  else if 'a' ≤ c ∧ c ≤ 'f' then some (c.toNat - 'a'.toNat + 10)
  else if 'A' ≤ c ∧ c ≤ 'F' then some (c.toNat - 'A'.toNat + 10)
  else none

/-- `usize::from_str_radix(_, 16)`. -/
def usizeFromHex (s : String) : Option ℕ :=
  let digits : List Char := match s.toList with
    | '+' :: rest => rest
    | cs => cs
  if digits = [] then none
  else
    (digits.foldl (fun acc c => acc.bind fun n => (hexValue c).map (16 * n + ·)) (some 0)).filter
      (· < 2 ^ 64)

/-- `parse_chunk_size`. -/
def parseChunkSize (line : String) : Option ℕ :=
  usizeFromHex (trim (((split (· = ';') line).head?).getD ""))

/-- What `decode_chunked_to_sse` finds at the front of the bytes it has read. -/
inductive ChunkFrame where
  /-- The chunk is not complete. -/
  | partialChunk
  /-- The size line cannot be read. -/
  | corrupt
  /-- The chunk of size zero. -/
  | last
  | chunk (payload rest : List UInt8)

/-- The first chunk of the bytes. -/
def chunkFrame (raw : List UInt8) : ChunkFrame :=
  match findCrlf raw with
  | none => .partialChunk
  | some lineEnd =>
    match parseChunkSize (String.ofList (Utf8.decodeLossy (raw.take lineEnd))) with
    | none => .corrupt
    | some size =>
      if size = 0 then .last
      else if raw.length < lineEnd + 2 + size + 2 then .partialChunk
      else
        .chunk ((raw.drop (lineEnd + 2)).take size) (raw.drop (lineEnd + 2 + size + 2))

theorem length_lt_of_chunkFrame {raw payload rest : List UInt8}
    (h : chunkFrame raw = .chunk payload rest) : rest.length < raw.length := by
  unfold chunkFrame at h
  split at h
  · cases h
  · split at h
    · cases h
    · split_ifs at h
      cases h
      rw [List.length_drop]
      omega

section

variable {σ : Type} (push : σ → String → σ × SseFlow)

/-- `decode_chunked_to_sse`, with the bytes that were read and not used yet and the
text that is no complete event yet. -/
def decodeChunkedToSse (s : σ) (raw : List UInt8) (decoded : String)
    (reads : List (List UInt8)) : σ × Option String :=
  match _h : chunkFrame raw with
  | .partialChunk =>
    match reads with
    | [] => (s, some decoded)
    | bytes :: reads => decodeChunkedToSse s (raw ++ bytes) decoded reads
  | .corrupt =>
    match pushSseEvents push s decoded with
    | (s, .abortReconcile, _) => (s, none)
    | (s, .continues, _) => (s, some "")
  | .last =>
    match pushSseEvents push s decoded with
    | (s, .abortReconcile, _) => (s, none)
    | (s, .continues, decoded) => (s, some decoded)
  | .chunk payload rest =>
    match pushSseEvents push s (decoded ++ String.ofList (Utf8.decodeLossy payload)) with
    | (s, .abortReconcile, _) => (s, none)
    | (s, .continues, decoded) => decodeChunkedToSse s rest decoded reads
termination_by (reads.length, raw.length)
decreasing_by
  · exact Prod.Lex.left _ _ (Nat.lt_succ_self _)
  · exact Prod.Lex.right _ (length_lt_of_chunkFrame _h)

end

/-! ## Events of a text that comes in pieces -/

/-- The two blank lines do not start together, nor the shorter one inside of the
first line end of the longer one. -/
theorem lf_ne_crlf {cs : List Char} {lf crlf : ℕ} (hlf : "\n\n".toList <+: cs.drop lf)
    (hcrlf : "\r\n\r\n".toList <+: cs.drop crlf) : lf ≠ crlf ∧ lf ≠ crlf + 1 := by
  obtain ⟨rest, hrest⟩ := hcrlf
  constructor
  · rintro rfl
    rw [← hrest] at hlf
    simp at hlf
  · rintro rfl
    rw [← List.drop_drop, ← hrest] at hlf
    simp at hlf

/-- The end of the first event stays where it is when text is appended. -/
theorem sseEventEnd_append {carry : String} {n : ℕ} (h : sseEventEnd carry = some n)
    (more : String) : sseEventEnd (carry ++ more) = some n := by
  unfold sseEventEnd at h ⊢
  cases hlf : find carry "\n\n" with
  | some lf =>
    rw [find_append hlf]
    cases hcrlf : find carry "\r\n\r\n" with
    | some crlf =>
      rw [find_append hcrlf]
      rw [hlf, hcrlf] at h
      exact h
    | none =>
      rw [hlf, hcrlf] at h
      cases hafter : find (carry ++ more) "\r\n\r\n" with
      | none => exact h
      | some crlf =>
        have hlate : lf < crlf := by
          -- the appended text completes the longer blank line, so it ends behind the shorter
          have hbeyond := length_crlf ▸ lt_of_find_append hcrlf hafter
          have hle := length_lf ▸ find_add_length_le hlf
          have hne := lf_ne_crlf (findChars_spec (find_append hlf more)) (findChars_spec hafter)
          omega
        rw [← h]
        simp [Nat.not_le.mpr hlate]
  | none =>
    rw [hlf] at h
    cases hcrlf : find carry "\r\n\r\n" with
    | none =>
      rw [hcrlf] at h
      cases h
    | some crlf =>
      rw [hcrlf] at h
      rw [find_append hcrlf]
      cases hafter : find (carry ++ more) "\n\n" with
      | none => exact h
      | some lf =>
        have hlate : crlf ≤ lf := by
          have hbeyond := length_lf ▸ lt_of_find_append hlf hafter
          have hle := length_crlf ▸ find_add_length_le hcrlf
          omega
        rw [← h]
        simp [hlate]

theorem takeSseEvent_append {carry event rest : String}
    (h : takeSseEvent carry = some (event, rest)) (more : String) :
    takeSseEvent (carry ++ more) = some (event, rest ++ more) := by
  obtain ⟨n, hn, heq⟩ := Option.map_eq_some_iff.mp h
  rw [Prod.mk.injEq] at heq
  obtain ⟨rfl, rfl⟩ := heq
  have hle := sseEventEnd_le hn
  rw [← String.length_toList] at hle
  rw [takeSseEvent, sseEventEnd_append hn more, Option.map_some, String.toList_append,
    List.take_append_of_le_length hle, List.drop_append_of_le_length hle, String.ofList_append,
    String.ofList_toList]

section

variable {σ : Type} {push : σ → String → σ × SseFlow}

theorem pushSseEvents_of_none {carry : String} (h : takeSseEvent carry = none) (s : σ) :
    pushSseEvents push s carry = (s, .continues, carry) := by
  rw [pushSseEvents]
  split
  · rfl
  · rename_i heq
    rw [h] at heq
    cases heq

theorem pushSseEvents_of_some {carry event rest : String}
    (h : takeSseEvent carry = some (event, rest)) (s : σ) :
    pushSseEvents push s carry = match push s event with
      | (s, .abortReconcile) => (s, .abortReconcile, rest)
      | (s, .continues) => pushSseEvents push s rest := by
  rw [pushSseEvents]
  split
  · rename_i heq
    rw [h] at heq
    cases heq
  · rename_i heq
    rw [h] at heq
    cases heq
    rfl

/-- What is left of the carry holds no complete event. -/
theorem takeSseEvent_of_pushSseEvents {s s' : σ} {carry rest : String}
    (h : pushSseEvents push s carry = (s', .continues, rest)) : takeSseEvent rest = none := by
  induction hlength : carry.length using Nat.strong_induction_on generalizing s carry with
  | _ n ih =>
    subst hlength
    cases htake : takeSseEvent carry with
    | none =>
      rw [pushSseEvents_of_none htake] at h
      cases h
      exact htake
    | some out =>
      obtain ⟨event, carry'⟩ := out
      rw [pushSseEvents_of_some htake] at h
      split at h
      · cases h
      · exact ih _ (takeSseEvent_spec htake).2 h rfl

/-- The events of a whole text: the sink, and the carry unless the sink stopped. -/
def deliver (push : σ → String → σ × SseFlow) (s : σ) (text : String) : σ × Option String :=
  match pushSseEvents push s text with
  | (s, .abortReconcile, _) => (s, none)
  | (s, .continues, carry) => (s, some carry)

theorem deliver_of_none {carry : String} (h : takeSseEvent carry = none) (s : σ) :
    deliver push s carry = (s, some carry) := by
  rw [deliver, pushSseEvents_of_none h]

/-- The events of a text do not depend on how much of it was there at first. -/
theorem deliver_append (s : σ) (text more : String) :
    deliver push s (text ++ more) = match deliver push s text with
      | (s, none) => (s, none)
      | (s, some carry) => deliver push s (carry ++ more) := by
  induction hlength : text.length using Nat.strong_induction_on generalizing s text with
  | _ n ih =>
    subst hlength
    cases htake : takeSseEvent text with
    | none => rw [deliver_of_none htake]
    | some out =>
      obtain ⟨event, rest⟩ := out
      have hrest := ih _ (takeSseEvent_spec htake).2
      rw [deliver, deliver, pushSseEvents_of_some htake,
        pushSseEvents_of_some (takeSseEvent_append htake more)]
      cases hpush : push s event with
      | mk s' flow =>
        cases flow with
        | abortReconcile => rfl
        | continues => exact hrest s' rest rfl

/-- The text that the decoder makes of pieces. -/
def decodedText (pieces : List (List UInt8)) : String :=
  String.ofList (pieces.flatMap Utf8.decodeLossy)

theorem decodedText_cons (piece : List UInt8) (pieces : List (List UInt8)) :
    decodedText (piece :: pieces)
      = String.ofList (Utf8.decodeLossy piece) ++ decodedText pieces := by
  rw [decodedText, List.flatMap_cons, String.ofList_append]
  rfl

theorem decodedText_nil : decodedText [] = "" := rfl

theorem forwardPlainSse_loop_eq (s : σ) (carry : String) (reads : List (List UInt8)) :
    forwardPlainSse.loop push s carry reads = deliver push s (carry ++ decodedText reads) := by
  induction reads generalizing s carry with
  | nil =>
    rw [forwardPlainSse.loop, decodedText_nil, String.append_empty, deliver]
    cases hpush : pushSseEvents push s carry with
    | mk s' out =>
      obtain ⟨flow, rest⟩ := out
      cases flow with
      | abortReconcile => rfl
      | continues =>
        dsimp only
        rw [pushSseEvents_of_none (takeSseEvent_of_pushSseEvents hpush)]
  | cons bytes reads ih =>
    rw [forwardPlainSse.loop, deliver_append, deliver]
    cases hpush : pushSseEvents push s carry with
    | mk s' out =>
      obtain ⟨flow, rest⟩ := out
      cases flow with
      | abortReconcile => rfl
      | continues =>
        dsimp only
        rw [ih, decodedText_cons, String.append_assoc]

/-- `forward_plain_sse` gives the sink the events of the text that the reads decode
to. -/
theorem forwardPlainSse_eq (s : σ) (leftover : List UInt8) (reads : List (List UInt8)) :
    forwardPlainSse push s leftover reads
      = deliver push s (decodedText (leftover :: reads)) := by
  rw [forwardPlainSse, forwardPlainSse_loop_eq, decodedText_cons]

end

/-! ## Chunked streams -/

/-- A chunk as it is sent: a size line that gives the size of a non-empty payload. -/
structure Chunk where
  sizeLine : List UInt8
  payload : List UInt8
  noCrlf : findCrlf sizeLine = none
  size : parseChunkSize (String.ofList (Utf8.decodeLossy sizeLine)) = some payload.length
  nonempty : payload ≠ []

/-- The bytes of a chunk. -/
def Chunk.frame (c : Chunk) : List UInt8 := c.sizeLine ++ 13 :: 10 :: (c.payload ++ [13, 10])

/-- The chunk of size zero, with whatever is sent behind it. -/
structure LastChunk where
  sizeLine : List UInt8
  trailer : List UInt8
  noCrlf : findCrlf sizeLine = none
  size : parseChunkSize (String.ofList (Utf8.decodeLossy sizeLine)) = some 0

/-- The bytes of the last chunk. -/
def LastChunk.frame (c : LastChunk) : List UInt8 := c.sizeLine ++ 13 :: 10 :: c.trailer

theorem findCrlf_cons (b : UInt8) (rest : List UInt8) :
    findCrlf (b :: rest)
      = if b = 13 ∧ rest.head? = some 10 then some 0 else (findCrlf rest).map (· + 1) := rfl

theorem findCrlf_append {raw : List UInt8} {n : ℕ} (h : findCrlf raw = some n)
    (more : List UInt8) : n + 2 ≤ raw.length ∧ findCrlf (raw ++ more) = some n := by
  induction raw generalizing n with
  | nil => cases h
  | cons b raw ih =>
    rw [findCrlf_cons] at h
    rw [List.cons_append, findCrlf_cons]
    split at h
    · rename_i hb
      cases h
      cases raw with
      | nil => exact absurd hb.2 (by simp)
      | cons b' raw => exact ⟨by simp, if_pos hb⟩
    · rename_i hb
      obtain ⟨m, hm, rfl⟩ := Option.map_eq_some_iff.mp h
      obtain ⟨hle, happend⟩ := ih hm
      refine ⟨by rw [List.length_cons]; omega, ?_⟩
      have hhead : ¬ (b = 13 ∧ (raw ++ more).head? = some 10) := by
        cases raw with
        | nil => cases hm
        | cons b' raw => exact hb
      rw [if_neg hhead, happend, Option.map_some]

/-- A line ends at the first CRLF behind it. -/
theorem findCrlf_line {line : List UInt8} (h : findCrlf line = none) (rest : List UInt8) :
    findCrlf (line ++ 13 :: 10 :: rest) = some line.length := by
  induction line with
  | nil => rfl
  | cons b line ih =>
    rw [findCrlf_cons] at h
    split at h
    · cases h
    · rename_i hb
      rw [Option.map_eq_none_iff] at h
      have hhead : ¬ (b = 13 ∧ (line ++ 13 :: 10 :: rest).head? = some 10) := by
        cases line with
        | nil => simp
        | cons b' line => exact hb
      rw [List.cons_append, findCrlf_cons, if_neg hhead, ih h, Option.map_some, List.length_cons]

/-- What is there of a line and the bytes behind it: no line end yet, or the line. -/
theorem findCrlf_of_append_eq {line raw more rest : List UInt8} (h : findCrlf line = none)
    (heq : raw ++ more = line ++ 13 :: 10 :: rest) :
    findCrlf raw = none ∨ findCrlf raw = some line.length ∧ raw.take line.length = line := by
  cases hraw : findCrlf raw with
  | none => exact .inl rfl
  | some n =>
    obtain ⟨hle, happend⟩ := findCrlf_append hraw more
    rw [heq, findCrlf_line h, Option.some.injEq] at happend
    subst happend
    refine .inr ⟨rfl, ?_⟩
    have htake := congrArg (List.take line.length) heq
    rwa [List.take_append_of_le_length (by omega), List.take_left] at htake

theorem chunkFrame_frame (c : Chunk) (rest : List UInt8) :
    chunkFrame (c.frame ++ rest) = .chunk c.payload rest := by
  have hraw : c.frame ++ rest = c.sizeLine ++ 13 :: 10 :: (c.payload ++ 13 :: 10 :: rest) := by
    simp [Chunk.frame]
  have hdrop : (c.frame ++ rest).drop (c.sizeLine.length + 2) = c.payload ++ 13 :: 10 :: rest := by
    rw [hraw, ← List.drop_drop, List.drop_left]
    rfl
  have hpos : c.payload.length ≠ 0 := fun h => c.nonempty (List.length_eq_zero_iff.mp h)
  unfold chunkFrame
  rw [hraw, findCrlf_line c.noCrlf]
  dsimp only
  rw [List.take_left, c.size]
  dsimp only
  rw [if_neg hpos, if_neg (by simp; omega), ← hraw, hdrop, List.take_left, Nat.add_assoc _ _ 2,
    ← List.drop_drop, hdrop, ← List.drop_drop, List.drop_left]
  rfl

/-- As long as bytes of the chunk are missing, the decoder waits. -/
theorem chunkFrame_of_lt {c : Chunk} {raw more rest : List UInt8}
    (heq : raw ++ more = c.frame ++ rest) (hlt : raw.length < c.frame.length) :
    chunkFrame raw = .partialChunk := by
  have hline : raw ++ more = c.sizeLine ++ 13 :: 10 :: (c.payload ++ 13 :: 10 :: rest) := by
    rw [heq]
    simp [Chunk.frame]
  unfold chunkFrame
  rcases findCrlf_of_append_eq c.noCrlf hline with hnone | ⟨hsome, htake⟩
  · rw [hnone]
  · have hpos : c.payload.length ≠ 0 := fun h => c.nonempty (List.length_eq_zero_iff.mp h)
    have hlength : c.frame.length = c.sizeLine.length + 2 + c.payload.length + 2 := by
      simp [Chunk.frame]
      omega
    rw [hsome]
    dsimp only
    rw [htake, c.size]
    dsimp only
    rw [if_neg hpos, if_pos (by omega)]

/-- Behind the chunks there is nothing, or the chunk of size zero. -/
theorem chunkFrame_last {last : Option LastChunk} {raw more : List UInt8}
    (heq : raw ++ more = (last.map LastChunk.frame).getD []) :
    chunkFrame raw = .partialChunk ∨ chunkFrame raw = .last := by
  cases last with
  | none =>
    obtain ⟨rfl, -⟩ := List.append_eq_nil_iff.mp heq
    exact .inl rfl
  | some c =>
    unfold chunkFrame
    rcases findCrlf_of_append_eq c.noCrlf heq with hnone | ⟨hsome, htake⟩
    · rw [hnone]
      exact .inl rfl
    · rw [hsome]
      dsimp only
      rw [htake, c.size]
      exact .inr rfl

section

variable {σ : Type} {push : σ → String → σ × SseFlow}

theorem decodeChunkedToSse_of_cut {raw : List UInt8} (h : chunkFrame raw = .partialChunk)
    (s : σ) (decoded : String) (reads : List (List UInt8)) :
    decodeChunkedToSse push s raw decoded reads = match reads with
      | [] => (s, some decoded)
      | bytes :: reads => decodeChunkedToSse push s (raw ++ bytes) decoded reads := by
  rw [decodeChunkedToSse.eq_def]
  split <;> rename_i heq <;> rw [h] at heq <;> cases heq

theorem decodeChunkedToSse_of_last {raw : List UInt8} (h : chunkFrame raw = .last)
    (s : σ) (decoded : String) (reads : List (List UInt8)) :
    decodeChunkedToSse push s raw decoded reads = deliver push s decoded := by
  rw [decodeChunkedToSse.eq_def]
  split <;> rename_i heq <;> rw [h] at heq <;> cases heq
  rw [deliver]

theorem decodeChunkedToSse_of_chunk {raw payload rest : List UInt8}
    (h : chunkFrame raw = .chunk payload rest) (s : σ) (decoded : String)
    (reads : List (List UInt8)) :
    decodeChunkedToSse push s raw decoded reads
      = match pushSseEvents push s (decoded ++ String.ofList (Utf8.decodeLossy payload)) with
        | (s, .abortReconcile, _) => (s, none)
        | (s, .continues, decoded) => decodeChunkedToSse push s rest decoded reads := by
  rw [decodeChunkedToSse.eq_def]
  split <;> rename_i heq <;> rw [h] at heq <;> cases heq
  rfl

/-- Behind the chunks nothing is left for the sink. -/
theorem decodeChunkedToSse_last (last : Option LastChunk) {s : σ} {raw : List UInt8}
    {decoded : String} {reads : List (List UInt8)}
    (hwire : raw ++ reads.flatten = (last.map LastChunk.frame).getD [])
    (hdecoded : takeSseEvent decoded = none) :
    decodeChunkedToSse push s raw decoded reads = (s, some decoded) := by
  induction reads generalizing raw with
  | nil =>
    rcases chunkFrame_last hwire with hframe | hframe
    · rw [decodeChunkedToSse_of_cut hframe]
    · rw [decodeChunkedToSse_of_last hframe, deliver_of_none hdecoded]
  | cons bytes reads ih =>
    rcases chunkFrame_last hwire with hframe | hframe
    · rw [decodeChunkedToSse_of_cut hframe]
      apply ih
      rw [List.append_assoc, ← List.flatten_cons]
      exact hwire
    · rw [decodeChunkedToSse_of_last hframe, deliver_of_none hdecoded]

/-- `decode_chunked_to_sse` gives the sink the events of the text that the payloads
decode to, however the bytes are read. -/
theorem decodeChunkedToSse_eq (chunks : List Chunk) (last : Option LastChunk) {s : σ}
    {raw : List UInt8} {decoded : String} {reads : List (List UInt8)}
    (hwire : raw ++ reads.flatten
      = chunks.flatMap Chunk.frame ++ (last.map LastChunk.frame).getD [])
    (hdecoded : takeSseEvent decoded = none) :
    decodeChunkedToSse push s raw decoded reads
      = deliver push s (decoded ++ decodedText (chunks.map Chunk.payload)) := by
  induction chunks generalizing s raw decoded reads with
  | nil =>
    rw [decodeChunkedToSse_last last hwire hdecoded, List.map_nil, decodedText_nil,
      String.append_empty, deliver_of_none hdecoded]
  | cons c chunks ih =>
    rw [List.flatMap_cons, List.append_assoc] at hwire
    -- once the bytes of the chunk are there, its payload is delivered
    have hcomplete : ∀ {raw : List UInt8} {reads : List (List UInt8)},
        raw ++ reads.flatten = c.frame ++ (chunks.flatMap Chunk.frame
          ++ (last.map LastChunk.frame).getD []) → c.frame.length ≤ raw.length →
        decodeChunkedToSse push s raw decoded reads
          = deliver push s (decoded ++ decodedText ((c :: chunks).map Chunk.payload)) := by
      intro raw reads hwire hle
      obtain ⟨rest, rfl⟩ : c.frame <+: raw :=
        List.prefix_of_prefix_length_le (List.prefix_append _ _) (hwire ▸ List.prefix_append _ _)
          hle
      rw [List.append_assoc, List.append_cancel_left_eq] at hwire
      rw [decodeChunkedToSse_of_chunk (chunkFrame_frame c rest), List.map_cons, decodedText_cons,
        ← String.append_assoc, deliver_append, deliver]
      cases hpush : pushSseEvents push s
          (decoded ++ String.ofList (Utf8.decodeLossy c.payload)) with
      | mk s' out =>
        obtain ⟨flow, carry⟩ := out
        cases flow with
        | abortReconcile => rfl
        | continues => exact ih hwire (takeSseEvent_of_pushSseEvents hpush)
    induction reads generalizing raw with
    | nil =>
      apply hcomplete hwire
      have hlength := congrArg List.length hwire
      rw [List.flatten_nil, List.append_nil, List.length_append] at hlength
      omega
    | cons bytes reads ihreads =>
      rcases Nat.lt_or_ge raw.length c.frame.length with hlt | hge
      · rw [decodeChunkedToSse_of_cut (chunkFrame_of_lt hwire hlt)]
        apply ihreads
        rw [List.append_assoc, ← List.flatten_cons]
        exact hwire
      · exact hcomplete hwire hge

end

/-! ## Framing does not change content -/

/-- A text that arrives in reads. -/
structure PlainDelivery (text : String) where
  leftover : List UInt8
  reads : List (List UInt8)
  whole : leftover ++ reads.flatten = Utf8.encode text.toList

/-- A text that arrives in chunks, which arrive in reads. -/
structure ChunkedDelivery (text : String) where
  chunks : List Chunk
  last : Option LastChunk
  leftover : List UInt8
  reads : List (List UInt8)
  content : (chunks.map Chunk.payload).flatten = Utf8.encode text.toList
  whole : leftover ++ reads.flatten
    = chunks.flatMap Chunk.frame ++ (last.map LastChunk.frame).getD []

/-- Every sink gets the events and the carry that it gets when the text arrives in one
read. -/
def PlainDelivery.KeepsContent {text : String} (d : PlainDelivery text) : Prop :=
  ∀ (σ : Type) (push : σ → String → σ × SseFlow) (s : σ),
    forwardPlainSse push s d.leftover d.reads
      = forwardPlainSse push s (Utf8.encode text.toList) []

/-- Every sink gets the events and the carry that it gets when the text arrives in one
read. -/
def ChunkedDelivery.KeepsContent {text : String} (d : ChunkedDelivery text) : Prop :=
  ∀ (σ : Type) (push : σ → String → σ × SseFlow) (s : σ),
    decodeChunkedToSse push s d.leftover "" d.reads
      = forwardPlainSse push s (Utf8.encode text.toList) []

/-- The sink that notes the events. -/
def recorder (events : String) (event : String) : String × SseFlow := (events ++ event, .continues)

/-- The noted events and the carry together are the text. -/
theorem deliver_recorder (events text : String) :
    ∃ carry, (deliver recorder events text).2 = some carry
      ∧ (deliver recorder events text).1 ++ carry = events ++ text := by
  induction hlength : text.length using Nat.strong_induction_on generalizing events text with
  | _ n ih =>
    subst hlength
    cases htake : takeSseEvent text with
    | none =>
      rw [deliver_of_none htake]
      exact ⟨text, rfl, rfl⟩
    | some out =>
      obtain ⟨event, rest⟩ := out
      obtain ⟨htext, hlt⟩ := takeSseEvent_spec htake
      obtain ⟨carry, hcarry, heq⟩ := ih _ hlt (events ++ event) rest rfl
      have hdeliver : deliver recorder events text = deliver recorder (events ++ event) rest := by
        rw [deliver, deliver, pushSseEvents_of_some htake]
        rfl
      refine ⟨carry, by rw [hdeliver, hcarry], ?_⟩
      rw [hdeliver, heq, htext, String.append_assoc]

/-- A sink can tell two texts apart. -/
theorem deliver_injective {text text' : String}
    (h : ∀ (σ : Type) (push : σ → String → σ × SseFlow) (s : σ),
      deliver push s text = deliver push s text') : text = text' := by
  obtain ⟨carry, hcarry, heq⟩ := deliver_recorder "" text
  obtain ⟨carry', hcarry', heq'⟩ := deliver_recorder "" text'
  rw [h, hcarry'] at hcarry
  rw [h] at heq
  cases hcarry
  rw [heq, String.empty_append, String.empty_append] at heq'
  exact heq'

theorem decodedText_encode (text : String) :
    decodedText [Utf8.encode text.toList] = text := by
  rw [decodedText, List.flatMap_singleton, Utf8.decodeLossy_encode, String.ofList_toList]

/-- Pieces decode to the text exactly if none of them starts inside of a character. -/
theorem decodedText_eq_iff {text : String} {pieces : List (List UInt8)}
    (h : pieces.flatten = Utf8.encode text.toList) :
    decodedText pieces = text ↔ ∀ piece ∈ pieces, Utf8.startsInside piece = false := by
  rw [← Utf8.flatMap_decodeLossy_iff h, decodedText]
  constructor
  · rintro heq
    rw [← heq, String.toList_ofList]
  · rintro heq
    rw [heq, String.ofList_toList]

/-- Delivering the text of some pieces is delivering the text exactly if none of them
starts inside of a character. -/
theorem deliver_decodedText_iff {text : String} {pieces : List (List UInt8)}
    (h : pieces.flatten = Utf8.encode text.toList) :
    (∀ (σ : Type) (push : σ → String → σ × SseFlow) (s : σ),
        deliver push s (decodedText pieces)
          = forwardPlainSse push s (Utf8.encode text.toList) [])
      ↔ ∀ piece ∈ pieces, Utf8.startsInside piece = false := by
  rw [← decodedText_eq_iff h]
  constructor
  · intro hdeliver
    apply deliver_injective
    intro σ push s
    rw [hdeliver, forwardPlainSse_eq, decodedText_encode]
  · intro htext σ push s
    rw [htext, forwardPlainSse_eq, decodedText_encode]

theorem PlainDelivery.keepsContent_iff {text : String} (d : PlainDelivery text) :
    d.KeepsContent ↔ ∀ piece ∈ d.leftover :: d.reads, Utf8.startsInside piece = false := by
  have hwhole : (d.leftover :: d.reads).flatten = Utf8.encode text.toList := d.whole
  rw [← deliver_decodedText_iff hwhole, PlainDelivery.KeepsContent]
  simp only [forwardPlainSse_eq]

theorem ChunkedDelivery.keepsContent_iff {text : String} (d : ChunkedDelivery text) :
    d.KeepsContent ↔ ∀ c ∈ d.chunks, Utf8.startsInside c.payload = false := by
  have hdecode : ∀ (σ : Type) (push : σ → String → σ × SseFlow) (s : σ),
      decodeChunkedToSse push s d.leftover "" d.reads
        = deliver push s (decodedText (d.chunks.map Chunk.payload)) := by
    intro σ push s
    rw [decodeChunkedToSse_eq d.chunks d.last d.whole rfl, String.empty_append]
  have hiff := deliver_decodedText_iff d.content
  rw [List.forall_mem_map] at hiff
  rw [← hiff, ChunkedDelivery.KeepsContent]
  simp only [hdecode]

/-- The framing of a stream does not change what the sink gets, exactly if no read of
a plain stream, and no payload of a chunked one, starts inside of a character. -/
theorem framing_iff (text : String) :
    (∀ d : PlainDelivery text, d.KeepsContent
        ↔ ∀ piece ∈ d.leftover :: d.reads, Utf8.startsInside piece = false)
      ∧ ∀ d : ChunkedDelivery text, d.KeepsContent
        ↔ ∀ c ∈ d.chunks, Utf8.startsInside c.payload = false :=
  ⟨PlainDelivery.keepsContent_iff, ChunkedDelivery.keepsContent_iff⟩

/-- The two bytes of `é` in two reads. -/
theorem not_keepsContent_of_cut :
    ¬ ∀ text : String, (∀ d : PlainDelivery text, d.KeepsContent)
      ∧ ∀ d : ChunkedDelivery text, d.KeepsContent := by
  intro h
  have hkeeps := (h "é").1 ⟨[0xC3], [[0xA9]], by decide⟩
  rw [PlainDelivery.keepsContent_iff] at hkeeps
  exact absurd (hkeeps [0xA9] (by simp)) (by decide)

end CodexRouter
