/-
# Buffers of an unfinished line

A stream comes in chunks that are cut anywhere.  A line buffer keeps the unfinished
line, hands over every line that ends, and at the end of the stream hands over the rest
(`LineBuffer.run`).  `run_eq_handleAll` says that the handler sees the lines of the
whole stream, one after the other, whatever the chunks are.
-/
import Mathlib.Data.List.Basic

namespace LineBuffer

variable {α β σ : Type} (isEnd : α → Bool) (handle : σ → List α → σ × List β)

/-! ## Lines -/

/-- The first line that ends, with its end, and what is behind it. -/
def cutLine : List α → Option (List α × List α)
  | [] => none
  | a :: rest =>
    if isEnd a then some ([a], rest)
    else (cutLine rest).map fun cut => (a :: cut.1, cut.2)

/-- The lines of a text, each with its end; the last one may have none. -/
def linesOf : List α → List (List α)
  | [] => []
  | a :: rest =>
    if isEnd a then [a] :: linesOf rest
    else
      match linesOf rest with
      | [] => [[a]]
      | line :: lines => (a :: line) :: lines

/-- Handle some lines in turn. -/
def handleAll : σ → List (List α) → σ × List β
  | s, [] => (s, [])
  | s, line :: rest =>
    let first := handle s line
    let others := handleAll first.1 rest
    (others.1, first.2 ++ others.2)

variable {isEnd}

theorem cutLine_length {text line rest : List α} (h : cutLine isEnd text = some (line, rest)) :
    rest.length < text.length := by
  induction text generalizing line with
  | nil => cases h
  | cons a text ih =>
    rw [cutLine] at h
    split at h
    · cases h
      exact Nat.lt_succ_self _
    · obtain ⟨⟨front, back⟩, hcut, heq⟩ := Option.map_eq_some_iff.mp h
      cases heq
      exact Nat.lt_succ_of_lt (ih hcut)

/-- More text does not change the first line that ends. -/
theorem cutLine_append {text line rest : List α} (h : cutLine isEnd text = some (line, rest)) (more : List α) :
    cutLine isEnd (text ++ more) = some (line, rest ++ more) := by
  induction text generalizing line with
  | nil => cases h
  | cons a text ih =>
    rw [cutLine] at h
    rw [List.cons_append, cutLine]
    split at h
    · rename_i hend
      cases h
      rw [if_pos hend]
    · rename_i hend
      obtain ⟨⟨front, back⟩, hcut, heq⟩ := Option.map_eq_some_iff.mp h
      cases heq
      rw [if_neg hend, ih hcut]
      rfl

/-- The first line that ends is the first line. -/
theorem linesOf_of_cutLine {text line rest : List α} (h : cutLine isEnd text = some (line, rest)) :
    linesOf isEnd text = line :: linesOf isEnd rest := by
  induction text generalizing line with
  | nil => cases h
  | cons a text ih =>
    rw [cutLine] at h
    rw [linesOf]
    split at h
    · rename_i hend
      cases h
      rw [if_pos hend]
    · rename_i hend
      obtain ⟨⟨front, back⟩, hcut, heq⟩ := Option.map_eq_some_iff.mp h
      cases heq
      rw [if_neg hend, ih hcut]

/-- A text without an end is one line. -/
theorem linesOf_of_cutLine_eq_none {text : List α} (h : cutLine isEnd text = none) :
    linesOf isEnd text = if text.isEmpty then [] else [text] := by
  induction text with
  | nil => rfl
  | cons a text ih =>
    rw [cutLine] at h
    split at h
    · cases h
    · rename_i hend
      rw [linesOf, if_neg hend, ih (Option.map_eq_none_iff.mp h)]
      cases text with
      | nil => rfl
      | cons b text => rfl

/-- A line that ends comes first. -/
theorem linesOf_append_cons {line : List α} (hline : ∀ b ∈ line, isEnd b = false) {a : α} (ha : isEnd a = true)
    (rest : List α) : linesOf isEnd (line ++ a :: rest) = (line ++ [a]) :: linesOf isEnd rest := by
  induction line with
  | nil => rw [List.nil_append, linesOf, if_pos ha, List.nil_append]
  | cons b line ih =>
    rw [List.forall_mem_cons] at hline
    rw [List.cons_append, linesOf, if_neg (by rw [hline.1]; decide), ih hline.2]
    rfl

/-- A line with its end. -/
def IsLine (isEnd : α → Bool) (line : List α) : Prop :=
  ∃ front a, line = front ++ [a] ∧ isEnd a = true ∧ ∀ b ∈ front, isEnd b = false

theorem isLine_singleton {a : α} (ha : isEnd a = true) : IsLine isEnd [a] :=
  ⟨[], a, rfl, ha, fun _ hb => absurd hb List.not_mem_nil⟩

theorem IsLine.cons {a : α} {line : List α} (h : IsLine isEnd line) (ha : isEnd a = false) :
    IsLine isEnd (a :: line) := by
  obtain ⟨front, b, rfl, hb, hfront⟩ := h
  exact ⟨a :: front, b, rfl, hb, List.forall_mem_cons.mpr ⟨ha, hfront⟩⟩

/-- The lines of a text that is put together from lines. -/
theorem linesOf_flatten {lines : List (List α)} (h : ∀ line ∈ lines, IsLine isEnd line) (more : List α) :
    linesOf isEnd (lines.flatten ++ more) = lines ++ linesOf isEnd more := by
  induction lines with
  | nil => rfl
  | cons line lines ih =>
    rw [List.forall_mem_cons] at h
    obtain ⟨⟨front, a, rfl, ha, hfront⟩, hlines⟩ := h
    rw [List.flatten_cons, List.append_assoc, List.append_assoc, List.singleton_append,
      linesOf_append_cons hfront ha, ih hlines, List.cons_append]

/-- The rest of a text behind its last end is one line. -/
theorem linesOf_of_noEnd {line : List α} (hne : line ≠ []) (h : ∀ b ∈ line, isEnd b = false) :
    linesOf isEnd line = [line] := by
  induction line with
  | nil => exact absurd rfl hne
  | cons a line ih =>
    rw [List.forall_mem_cons] at h
    rw [linesOf, if_neg (by rw [h.1]; decide)]
    cases line with
    | nil => rfl
    | cons b line => rw [ih (List.cons_ne_nil b line) h.2]

/-- The first of some lines. -/
theorem cutLine_of_noEnd {line : List α} (hline : ∀ b ∈ line, isEnd b = false) {a : α} (ha : isEnd a = true)
    (rest : List α) : cutLine isEnd (line ++ a :: rest) = some (line ++ [a], rest) := by
  induction line with
  | nil => rw [List.nil_append, cutLine, if_pos ha, List.nil_append]
  | cons b line ih =>
    rw [List.forall_mem_cons] at hline
    rw [List.cons_append, cutLine, if_neg (by rw [hline.1]; decide), ih hline.2]
    rfl

theorem cutLine_eq_none {text : List α} (h : ∀ b ∈ text, isEnd b = false) : cutLine isEnd text = none := by
  induction text with
  | nil => rfl
  | cons b text ih =>
    rw [List.forall_mem_cons] at h
    rw [cutLine, if_neg (by rw [h.1]; decide), ih h.2]
    rfl

variable (isEnd) in
/-- A text is made of lines with an end, and of one without. -/
theorem exists_lines (text : List α) : ∃ (lines : List (List α)) (rest : List α), text = lines.flatten ++ rest
    ∧ (∀ line ∈ lines, IsLine isEnd line) ∧ ∀ b ∈ rest, isEnd b = false := by
  induction text with
  | nil => exact ⟨[], [], rfl, fun _ h => absurd h List.not_mem_nil, fun _ h => absurd h List.not_mem_nil⟩
  | cons a text ih =>
    obtain ⟨lines, rest, rfl, hlines, hrest⟩ := ih
    cases ha : isEnd a with
    | true => exact ⟨[a] :: lines, rest, rfl, List.forall_mem_cons.mpr ⟨isLine_singleton ha, hlines⟩, hrest⟩
    | false =>
      cases lines with
      | nil => exact ⟨[], a :: rest, rfl, hlines, List.forall_mem_cons.mpr ⟨ha, hrest⟩⟩
      | cons line lines =>
        rw [List.forall_mem_cons] at hlines
        exact ⟨(a :: line) :: lines, rest, rfl, List.forall_mem_cons.mpr ⟨hlines.1.cons ha, hlines.2⟩, hrest⟩

/-! ## The buffer -/

variable (isEnd)

/-- Hand over the lines that end: the handler's state, what it gave, and the rest. -/
def drain (s : σ) (pending : List α) : σ × List β × List α :=
  match h : cutLine isEnd pending with
  | none => (s, [], pending)
  | some (line, rest) =>
    have : rest.length < pending.length := cutLine_length h
    let first := handle s line
    let others := drain first.1 rest
    (others.1, first.2 ++ others.2.1, others.2.2)
termination_by pending.length

/-- Hand over what is left at the end of the stream. -/
def finish (s : σ) (pending : List α) : σ × List β :=
  if pending.isEmpty then (s, []) else handle s pending

/-- The chunks of a stream in turn, behind what is pending, and its end. -/
def run (s : σ) (pending : List α) : List (List α) → σ × List β
  | [] => finish handle s pending
  | chunk :: rest =>
    let fed := drain isEnd handle s (pending ++ chunk)
    let others := run fed.1 fed.2.2 rest
    (others.1, fed.2.1 ++ others.2)

variable {isEnd handle} {s : σ} {pending : List α}

theorem drain_of_none (h : cutLine isEnd pending = none) : drain isEnd handle s pending = (s, [], pending) := by
  rw [drain]
  split
  · rfl
  · rename_i heq
    rw [h] at heq
    cases heq

theorem drain_of_some {line rest : List α} (h : cutLine isEnd pending = some (line, rest)) :
    drain isEnd handle s pending = ((drain isEnd handle (handle s line).1 rest).1,
      (handle s line).2 ++ (drain isEnd handle (handle s line).1 rest).2.1,
      (drain isEnd handle (handle s line).1 rest).2.2) := by
  rw [drain]
  split
  · rename_i heq
    rw [h] at heq
    cases heq
  · rename_i heq
    rw [h] at heq
    cases heq
    rfl

/-- The lines of the rest come behind the lines that were handed over. -/
theorem handleAll_linesOf_drain (s : σ) (pending more : List α) :
    handleAll handle s (linesOf isEnd (pending ++ more))
      = let fed := drain isEnd handle s pending
        let others := handleAll handle fed.1 (linesOf isEnd (fed.2.2 ++ more))
        (others.1, fed.2.1 ++ others.2) := by
  induction hlength : pending.length using Nat.strongRecOn generalizing s pending with
  | ind n ih =>
    cases hcut : cutLine isEnd pending with
    | none =>
      rw [drain_of_none hcut]
      rfl
    | some cut =>
      obtain ⟨line, rest⟩ := cut
      have hrest := ih rest.length (hlength ▸ cutLine_length hcut) (handle s line).1 rest rfl
      rw [drain_of_some hcut, linesOf_of_cutLine (cutLine_append hcut more), handleAll, hrest]
      simp only [List.append_assoc]

theorem cutLine_drain (s : σ) (pending : List α) : cutLine isEnd (drain isEnd handle s pending).2.2 = none := by
  induction hlength : pending.length using Nat.strongRecOn generalizing s pending with
  | ind n ih =>
    cases hcut : cutLine isEnd pending with
    | none =>
      rw [drain_of_none hcut]
      exact hcut
    | some cut =>
      obtain ⟨line, rest⟩ := cut
      rw [drain_of_some hcut]
      exact ih rest.length (hlength ▸ cutLine_length hcut) _ rest rfl

theorem finish_eq_handleAll (s : σ) {pending : List α} (h : cutLine isEnd pending = none) :
    finish handle s pending = handleAll handle s (linesOf isEnd pending) := by
  rw [finish, linesOf_of_cutLine_eq_none h]
  split
  · rfl
  · simp [handleAll]

/-- The handler sees the lines of the whole stream, whatever the chunks are. -/
theorem run_eq_handleAll (s : σ) {pending : List α} (h : cutLine isEnd pending = none) (chunks : List (List α)) :
    run isEnd handle s pending chunks = handleAll handle s (linesOf isEnd (pending ++ chunks.flatten)) := by
  induction chunks generalizing s pending with
  | nil =>
    rw [run, List.flatten_nil, List.append_nil, finish_eq_handleAll s h]
  | cons chunk rest ih =>
    rw [run, List.flatten_cons, ← List.append_assoc, handleAll_linesOf_drain]
    dsimp only
    rw [ih _ (cutLine_drain s _)]

/-- What is given out are the results of the lines, in their order. -/
theorem handleAll_spec {R : List α → List β → Prop} (hhandle : ∀ s line, R line (handle s line).2) (s : σ)
    (lines : List (List α)) :
    ∃ outs, (handleAll handle s lines).2 = outs.flatten ∧ List.Forall₂ R lines outs := by
  induction lines generalizing s with
  | nil => exact ⟨[], rfl, .nil⟩
  | cons line rest ih =>
    obtain ⟨outs, houts, hrel⟩ := ih (handle s line).1
    refine ⟨(handle s line).2 :: outs, ?_, .cons (hhandle s line) hrel⟩
    rw [handleAll, List.flatten_cons, houts]

end LineBuffer
