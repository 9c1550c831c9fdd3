/-
# Think tags in chunks

`ThinkScan` reads a stream in chunks and tells what stands between think tags from
the visible text.  It holds back the end of a chunk that begins a tag, once there
are enough characters of it (six of an opening tag, seven of a closing one).

`Reads` is the reading of a whole text: at a tag of the current mode the mode
changes, every other character belongs to the mode it stands in.  A text has one
reading (`Reads.unique`).  `Feeds` is the reading of a text up to the end that is
held; what is read later goes on from there, unless a tag is cut where it is not
held yet (`Feeds.append`).
-/
import CodexRouter.ChatScan
import CodexRouter.ThinkTags

namespace CodexRouter

open Text

/-! ## Readings -/

/-- The longer tag that ends a mode: inside a thought a closing one, outside an opening one. -/
def longTag (inside : Bool) : List Char := if inside then "</thinking>".toList else "<thinking>".toList

/-- The shorter tag that ends a mode. -/
def shortTag (inside : Bool) : List Char := if inside then "</think>".toList else "<think>".toList

/-- The tags that end a mode. -/
def thinkTags (inside : Bool) : List (List Char) := [longTag inside, shortTag inside]

/-- As many characters of a tag are held back. -/
def leastHeld (inside : Bool) : ℕ := if inside then 7 else 6

/-- A tag that ends the mode, in any case. -/
def IsThinkTag (inside : Bool) (tag : List Char) : Prop := tag.map Char.toLower ∈ thinkTags inside

/-- A tag that ends the mode stands at the start of the text. -/
def StartsTag (inside : Bool) (src : List Char) : Prop := ∃ tag ∈ thinkTags inside, tag <+: src.map Char.toLower

/-- The text is the beginning of a tag, and long enough to be held. -/
def IsHeld (inside : Bool) (src : List Char) : Prop :=
  leastHeld inside ≤ src.length ∧ ∃ tag ∈ thinkTags inside, src.map Char.toLower <+: tag

/-- A character of the text in the mode it stands in, or a tag. -/
inductive ThinkMark where
  | text (inside : Bool) (c : Char)
  | tag (cs : List Char)

/-- The characters in a mode. -/
def textOf (inside : Bool) (marks : List ThinkMark) : List Char :=
  marks.flatMap fun
    | .text mode c => if mode = inside then [c] else []
    | .tag _ => []

/-- The text that was read. -/
def sourceOf (marks : List ThinkMark) : List Char :=
  marks.flatMap fun
    | .text _ c => [c]
    | .tag cs => cs

/-- The reading of a whole text. -/
inductive Reads : Bool → List Char → List ThinkMark → Prop
  | nil {inside : Bool} : Reads inside [] []
  | tag {inside : Bool} {tag rest : List Char} {marks : List ThinkMark} (htag : IsThinkTag inside tag)
      (h : Reads (!inside) rest marks) : Reads inside (tag ++ rest) (.tag tag :: marks)
  | text {inside : Bool} {c : Char} {cs : List Char} {marks : List ThinkMark}
      (hno : ¬ StartsTag inside (c :: cs)) (h : Reads inside cs marks) :
      Reads inside (c :: cs) (.text inside c :: marks)

/-- The reading of a text up to the end that is held, with the mode at this end. -/
inductive Feeds : Bool → List Char → List ThinkMark → Bool → List Char → Prop
  | nil {inside : Bool} : Feeds inside [] [] inside []
  | hold {inside : Bool} {cs : List Char} (hno : ¬ StartsTag inside cs) (hheld : IsHeld inside cs) :
      Feeds inside cs [] inside cs
  | tag {inside inside' : Bool} {tag rest hold : List Char} {marks : List ThinkMark}
      (htag : IsThinkTag inside tag) (h : Feeds (!inside) rest marks inside' hold) :
      Feeds inside (tag ++ rest) (.tag tag :: marks) inside' hold
  | text {inside inside' : Bool} {c : Char} {cs hold : List Char} {marks : List ThinkMark}
      (hno : ¬ StartsTag inside (c :: cs)) (hnot : ¬ IsHeld inside (c :: cs))
      (h : Feeds inside cs marks inside' hold) :
      Feeds inside (c :: cs) (.text inside c :: marks) inside' hold

section

variable {inside inside' : Bool} {c : Char} {cs src rest hold tag tag' : List Char} {marks marks' : List ThinkMark}

@[simp] theorem textOf_append (marks marks' : List ThinkMark) :
    textOf inside (marks ++ marks') = textOf inside marks ++ textOf inside marks' :=
  List.flatMap_append

theorem Reads.source (h : Reads inside src marks) : sourceOf marks = src := by
  induction h with
  | nil => rfl
  | tag htag h ih => rw [sourceOf, List.flatMap_cons, ← sourceOf, ih]
  | text hno h ih =>
    rw [sourceOf, List.flatMap_cons, ← sourceOf, ih]
    rfl

theorem startsTag_of_isThinkTag (htag : IsThinkTag inside tag) (rest : List Char) :
    StartsTag inside (tag ++ rest) :=
  ⟨_, htag, by rw [List.map_append]; exact List.prefix_append _ _⟩

/-- No tag is the beginning of another one. -/
theorem thinkTags_apart : ∀ t ∈ thinkTags inside, ∀ t' ∈ thinkTags inside, t <+: t' → t = t' := by
  cases inside <;> decide

/-- The tags are longer than what has to be held of them, and start with the only angle bracket in them. -/
theorem thinkTags_shape : ∀ t ∈ thinkTags inside, leastHeld inside < t.length ∧ t.head? = some '<' ∧ '<' ∉ t.tail := by
  cases inside <;> decide

/-- There is only one tag at the start of a text. -/
theorem eq_of_isThinkTag (htag : IsThinkTag inside tag) (htag' : IsThinkTag inside tag') {rest' : List Char}
    (h : tag ++ rest = tag' ++ rest') : tag = tag' ∧ rest = rest' := by
  apply List.append_inj h
  have hlower : ∀ {a b r r' : List Char}, IsThinkTag inside a → IsThinkTag inside b → a ++ r = b ++ r' →
      a.length ≤ b.length → a.length = b.length := by
    intro a b r r' ha hb heq hle
    have hpfx : a <+: b := List.prefix_of_prefix_length_le ⟨r, heq⟩ (List.prefix_append b r') hle
    have := thinkTags_apart _ ha _ hb (hpfx.map Char.toLower)
    simpa using congrArg List.length this
  rcases Nat.le_total tag.length tag'.length with hle | hle
  · exact hlower htag htag' h hle
  · exact (hlower htag' htag h.symm hle).symm

/-- **A text has one reading.** -/
theorem Reads.unique (h : Reads inside src marks) (h' : Reads inside src marks') : marks = marks' := by
  induction h generalizing marks' with
  | nil =>
    generalize hsrc : ([] : List Char) = src at h'
    cases h' with
    | nil => rfl
    | tag htag h' =>
      obtain ⟨hnil, -⟩ := List.append_eq_nil_iff.mp hsrc.symm
      rw [hnil] at htag
      have := thinkTags_shape _ htag
      simp at this
    | text hno h' => cases hsrc
  | @tag inside tag rest marks htag h ih =>
    generalize hsrc : tag ++ rest = src at h'
    cases h' with
    | nil =>
      obtain ⟨rfl, -⟩ := List.append_eq_nil_iff.mp hsrc
      have := thinkTags_shape _ htag
      simp at this
    | tag htag' h' =>
      obtain ⟨rfl, rfl⟩ := eq_of_isThinkTag htag htag' hsrc
      rw [ih h']
    | text hno h' => exact absurd (hsrc ▸ startsTag_of_isThinkTag htag rest) hno
  | @text inside c cs marks hno h ih =>
    generalize hsrc : c :: cs = src at h'
    cases h' with
    | nil => cases hsrc
    | tag htag' h' => exact absurd (hsrc ▸ startsTag_of_isThinkTag htag' _) hno
    | text hno' h' =>
      cases hsrc
      rw [ih h']

/-- A text without an angle bracket has no tag. -/
theorem reads_of_not_mem (h : '<' ∉ cs) : Reads inside cs (cs.map (.text inside)) := by
  induction cs with
  | nil => exact .nil
  | cons c cs ih =>
    rw [List.mem_cons, not_or] at h
    refine .text ?_ (ih h.2)
    rintro ⟨tag, htag, hpfx⟩
    obtain ⟨-, hhead, -⟩ := thinkTags_shape _ htag
    obtain ⟨rest, rfl⟩ := List.head?_eq_some_iff.mp hhead
    rw [List.map_cons, List.cons_prefix_cons] at hpfx
    exact h.1 (toLower_eq_lt hpfx.1.symm).symm

/-- What is held is no tag, and there is none behind its first character. -/
theorem reads_of_isHeld (h : IsHeld inside hold) (hno : ¬ StartsTag inside hold) :
    Reads inside hold (hold.map (.text inside)) := by
  cases hold with
  | nil => exact .nil
  | cons c cs =>
    refine .text hno (reads_of_not_mem ?_)
    intro hmem
    obtain ⟨-, tag, htag, hpfx⟩ := h
    obtain ⟨-, -, htail⟩ := thinkTags_shape _ htag
    apply htail
    have hlower : '<' ∈ cs.map Char.toLower := List.mem_map.mpr ⟨'<', hmem, by decide⟩
    obtain ⟨rest, rfl⟩ := hpfx
    rw [List.map_cons, List.cons_append, List.tail_cons]
    exact List.mem_append_left _ hlower

/-- What is held stands at the end of the text. -/
theorem Feeds.hold_suffix (h : Feeds inside src marks inside' hold) : hold <:+ src := by
  induction h with
  | nil => exact List.suffix_refl _
  | hold hno hheld => exact List.suffix_refl _
  | tag htag h ih => exact ih.trans (List.suffix_append _ _)
  | text hno hnot h ih => exact ih.trans (List.suffix_cons _ _)

/-- When the text ends, what is held is text. -/
theorem Feeds.reads_hold (h : Feeds inside src marks inside' hold) :
    Reads inside' hold (hold.map (.text inside')) := by
  induction h with
  | nil => exact .nil
  | hold hno hheld => exact reads_of_isHeld hheld hno
  | tag htag h ih => exact ih
  | text hno hnot h ih => exact ih

/-- A tag of a mode is cut where too little of it has been read to hold it. -/
def CutsTag (inside : Bool) (before after : List Char) : Prop :=
  ∃ tail, tail <:+ before ∧ tail ≠ [] ∧ tail.length < leastHeld inside ∧ StartsTag inside (tail ++ after)

theorem CutsTag.of_suffix {before before' after : List Char} (h : CutsTag inside before after)
    (hsuffix : before <:+ before') : CutsTag inside before' after := by
  obtain ⟨tail, htail, h⟩ := h
  exact ⟨tail, htail.trans hsuffix, h⟩

/-- **The reading goes on from what is held**, unless a tag is cut. -/
theorem Feeds.append (h : Feeds inside src marks inside' hold) {later : List Char}
    (hcut : ∀ mode, ¬ CutsTag mode src later) (hlater : Reads inside' (hold ++ later) marks') :
    Reads inside (src ++ later) (marks ++ marks') := by
  induction h with
  | nil => exact hlater
  | hold hno hheld => exact hlater
  | tag htag h ih =>
    rw [List.append_assoc, List.cons_append]
    exact .tag htag (ih (fun mode hcuts => hcut mode (hcuts.of_suffix (List.suffix_append _ _))) hlater)
  | @text inside inside' c cs hold marks hno hnot h ih =>
    refine .text ?_ (ih (fun mode hcuts => hcut mode (hcuts.of_suffix (List.suffix_cons _ _))) hlater)
    rintro ⟨tag, htag, hpfx⟩
    -- the tag ends in what was read, is long enough to be held, or is cut
    change tag <+: (c :: cs ++ later).map Char.toLower at hpfx
    rw [List.map_append] at hpfx
    rcases List.prefix_or_prefix_of_prefix hpfx (List.prefix_append _ _) with hin | hout
    · exact hno ⟨tag, htag, hin⟩
    · by_cases hlength : leastHeld inside ≤ (c :: cs).length
      · exact hnot ⟨hlength, tag, htag, hout⟩
      · refine hcut inside ⟨c :: cs, List.suffix_refl _, List.cons_ne_nil _ _, not_le.mp hlength, tag, htag, ?_⟩
        rw [List.map_append]
        exact hpfx

end

/-! ## The search for a tag -/

/-- What a search for a tag tells about the reading of the text. -/
def Sought (inside : Bool) (src : List Char) : TagSearch → Prop
  | .found rel len => ∃ front tag rest, src = front ++ (tag ++ rest) ∧ front.length = rel ∧ tag.length = len
      ∧ 0 < tag.length ∧ ∀ marks inside' hold, Feeds (!inside) rest marks inside' hold →
        Feeds inside src (front.map (.text inside) ++ .tag tag :: marks) inside' hold
  | .holdPrefix rel => ∃ front hold, src = front ++ hold ∧ front.length = rel
      ∧ Feeds inside src (front.map (.text inside)) inside hold
  | .none => Feeds inside src (src.map (.text inside)) inside []

section

variable {inside : Bool} {c : Char} {cs src : List Char}

theorem Sought.shift {search : TagSearch} (h : Sought inside cs search) (hno : ¬ StartsTag inside (c :: cs))
    (hnot : ¬ IsHeld inside (c :: cs)) : Sought inside (c :: cs) search.shift := by
  cases search with
  | found rel len =>
    obtain ⟨front, tag, rest, rfl, rfl, rfl, hpos, hfeeds⟩ := h
    exact ⟨c :: front, tag, rest, rfl, rfl, rfl, hpos, fun marks inside' hold hrest =>
      .text hno hnot (hfeeds marks inside' hold hrest)⟩
  | holdPrefix rel =>
    obtain ⟨front, hold, rfl, rfl, hfeeds⟩ := h
    exact ⟨c :: front, hold, rfl, rfl, .text hno hnot hfeeds⟩
  | none => exact .text hno hnot h

theorem sought_of_startsTag {tag : List Char} (htag : tag ∈ thinkTags inside) (hpfx : tag <+: src.map Char.toLower) :
    Sought inside src (.found 0 tag.length) := by
  have hle := hpfx.length_le
  rw [List.length_map] at hle
  have hlower : (src.take tag.length).map Char.toLower = tag := by
    rw [List.map_take]
    exact (List.prefix_iff_eq_take.mp hpfx).symm
  have hlength : (src.take tag.length).length = tag.length := List.length_take_of_le hle
  refine ⟨[], src.take tag.length, src.drop tag.length, by simp, rfl, hlength, ?_, ?_⟩
  · rw [hlength]
    exact Nat.zero_lt_of_lt (thinkTags_shape tag htag).1
  · intro marks inside' hold hrest
    have htag' : IsThinkTag inside (src.take tag.length) := by
      rw [IsThinkTag, hlower]
      exact htag
    have hfeeds := Feeds.tag htag' hrest
    rw [List.take_append_drop] at hfeeds
    exact hfeeds

/-- The search is right. -/
theorem sought_findTag (inside : Bool) (src : List Char) :
    Sought inside src (findTag (longTag inside) (shortTag inside) (leastHeld inside) (src.map Char.toLower)) := by
  induction src with
  | nil => exact .nil
  | cons c cs ih =>
    rw [List.map_cons, findTag]
    by_cases hbracket : c.toLower = '<'
    · rw [if_pos hbracket]
      by_cases hlong : (longTag inside).isPrefixOf (c.toLower :: cs.map Char.toLower) = true
      · rw [if_pos hlong]
        exact sought_of_startsTag List.mem_cons_self (List.isPrefixOf_iff_prefix.mp hlong)
      rw [if_neg hlong]
      by_cases hshort : (shortTag inside).isPrefixOf (c.toLower :: cs.map Char.toLower) = true
      · rw [if_pos hshort]
        exact sought_of_startsTag (List.mem_cons_of_mem _ List.mem_cons_self) (List.isPrefixOf_iff_prefix.mp hshort)
      rw [if_neg hshort]
      have hno : ¬ StartsTag inside (c :: cs) := by
        rintro ⟨tag, htag, hpfx⟩
        rw [thinkTags, List.mem_cons, List.mem_singleton] at htag
        rcases htag with rfl | rfl
        · exact hlong (List.isPrefixOf_iff_prefix.mpr hpfx)
        · exact hshort (List.isPrefixOf_iff_prefix.mpr hpfx)
      have hheld : (leastHeld inside ≤ (c.toLower :: cs.map Char.toLower).length
            ∧ ((c.toLower :: cs.map Char.toLower).isPrefixOf (shortTag inside) = true
              ∨ (c.toLower :: cs.map Char.toLower).isPrefixOf (longTag inside) = true))
          ↔ IsHeld inside (c :: cs) := by
        rw [IsHeld, thinkTags, List.isPrefixOf_iff_prefix, List.isPrefixOf_iff_prefix, List.length_cons,
          List.length_map, List.length_cons]
        simp [or_comm]
      split
      · rename_i hyes
        exact ⟨[], c :: cs, rfl, rfl, .hold hno (hheld.mp hyes)⟩
      · rename_i hnot
        exact ih.shift hno (mt hheld.mpr hnot)
    · rw [if_neg hbracket]
      have hhead : ∀ tag ∈ thinkTags inside, ∀ r, tag ≠ c.toLower :: r := by
        rintro tag htag r rfl
        obtain ⟨-, hhead, -⟩ := thinkTags_shape _ htag
        exact hbracket (Option.some.inj hhead)
      refine ih.shift ?_ ?_
      · rintro ⟨tag, htag, hpfx⟩
        cases tag with
        | nil => exact absurd (thinkTags_shape _ htag).1 (by simp)
        | cons d r =>
          obtain ⟨rfl, -⟩ := List.cons_prefix_cons.mp hpfx
          exact hhead _ htag r rfl
      · rintro ⟨-, tag, htag, r, rfl⟩
        exact hhead _ htag _ rfl

end

/-! ## Pushes -/

/-- The text of the pieces in a mode. -/
def pieceText (inside : Bool) (pieces : List ThinkPiece) : List Char :=
  pieces.flatMap fun
    | .visible text => if inside then [] else text.toList
    | .think text => if inside then text.toList else []

@[simp] theorem pieceText_append (inside : Bool) (pieces pieces' : List ThinkPiece) :
    pieceText inside (pieces ++ pieces') = pieceText inside pieces ++ pieceText inside pieces' :=
  List.flatMap_append

/-- A piece is a text in its mode. -/
theorem pieceText_piece (mode inside : Bool) (cs : List Char) :
    pieceText mode [ThinkScan.piece inside cs] = textOf mode (cs.map (.text inside)) := by
  have htext : textOf mode (cs.map (.text inside)) = if inside = mode then cs else [] := by
    induction cs with
    | nil => simp [textOf]
    | cons c cs ih =>
      rw [List.map_cons, textOf, List.flatMap_cons, ← textOf, ih]
      dsimp only
      split <;> rfl
  rw [htext]
  cases inside <;> cases mode <;> simp [pieceText, ThinkScan.piece]

namespace ThinkScan

/-- Push the chunks one after the other. -/
def pushAll (s : ThinkScan) : List String → List ThinkPiece × ThinkScan
  | [] => ([], s)
  | chunk :: rest =>
    let later := pushAll (s.push chunk).2 rest
    ((s.push chunk).1 ++ later.1, later.2)

/-- The pieces of the pushes and of the flush behind them. -/
def pieces (s : ThinkScan) (chunks : List String) : List ThinkPiece :=
  (s.pushAll chunks).1 ++ (s.pushAll chunks).2.flush.1

/-- The scanner of a new stream. -/
def fresh : ThinkScan := ⟨[], false⟩

end ThinkScan

section

variable {n : ℕ} {inside : Bool} {src : List Char} {s : ThinkScan}

/-- The loop of a push feeds the text. -/
theorem feeds_scan (hn : src.length < n) : ∃ marks,
    Feeds inside src marks (ThinkScan.scan n inside src).2.inside (ThinkScan.scan n inside src).2.hold
      ∧ ∀ mode, pieceText mode (ThinkScan.scan n inside src).1 = textOf mode marks := by
  induction n generalizing inside src with
  | zero => exact absurd hn (Nat.not_lt_zero _)
  | succ n ih =>
    rw [ThinkScan.scan]
    split
    · rename_i hnil
      subst hnil
      exact ⟨[], .nil, fun mode => rfl⟩
    have hsearch : (if inside = true then findCloseThink src else findOpenThink src)
        = findTag (longTag inside) (shortTag inside) (leastHeld inside) (src.map Char.toLower) := by
      cases inside <;> rfl
    have hsought := sought_findTag inside src
    rw [← hsearch] at hsought
    have hbefore : ∀ (front rest : List Char) mode,
        pieceText mode (if 0 < front.length then [ThinkScan.piece inside ((front ++ rest).take front.length)] else [])
          = textOf mode (front.map (.text inside)) := by
      intro front rest mode
      cases front with
      | nil => rfl
      | cons c front => rw [if_pos (List.length_pos_of_ne_nil (List.cons_ne_nil c front)), List.take_left, pieceText_piece]
    dsimp only
    split
    · rename_i rel len hfound
      rw [hfound] at hsought
      obtain ⟨front, tag, rest, rfl, rfl, rfl, hpos, hfeeds⟩ := hsought
      have hrest : (front ++ (tag ++ rest)).drop (front.length + tag.length) = rest := by
        rw [← List.append_assoc, ← List.length_append, List.drop_left]
      rw [hrest]
      rw [List.length_append, List.length_append] at hn
      obtain ⟨marks, hmarks, htext⟩ := @ih (!inside) rest (by omega)
      refine ⟨_, hfeeds _ _ _ hmarks, fun mode => ?_⟩
      rw [pieceText_append, hbefore, textOf_append, htext]
      rfl
    · rename_i rel hheld
      rw [hheld] at hsought
      obtain ⟨front, hold, rfl, rfl, hfeeds⟩ := hsought
      refine ⟨_, ?_, fun mode => hbefore front hold mode⟩
      rw [List.drop_left]
      exact hfeeds
    · rename_i hnone
      rw [hnone] at hsought
      exact ⟨_, hsought, fun mode => pieceText_piece mode inside src⟩

/-- A push feeds what is held and the chunk. -/
theorem feeds_push (s : ThinkScan) (chunk : String) : ∃ marks,
    Feeds s.inside (s.hold ++ chunk.toList) marks (s.push chunk).2.inside (s.push chunk).2.hold
      ∧ ∀ mode, pieceText mode (s.push chunk).1 = textOf mode marks :=
  feeds_scan (Nat.lt_succ_self _)

/-- The text of the chunks. -/
def chunkText (chunks : List String) : List Char := (chunks.map String.toList).flatten

@[simp] theorem chunkText_cons (chunk : String) (rest : List String) :
    chunkText (chunk :: rest) = chunk.toList ++ chunkText rest := rfl

/-- The pieces are the reading of what is held and the chunks, when no tag is cut. -/
theorem reads_pieces {chunks : List String} (hheld : Reads s.inside s.hold (s.hold.map (.text s.inside)))
    (hcut : ∀ before after, chunks = before ++ after →
      ∀ mode, ¬ CutsTag mode (s.hold ++ chunkText before) (chunkText after)) :
    ∃ marks, Reads s.inside (s.hold ++ chunkText chunks) marks
      ∧ ∀ mode, pieceText mode (s.pieces chunks) = textOf mode marks := by
  induction chunks generalizing s with
  | nil =>
    refine ⟨_, by simpa [chunkText] using hheld, fun mode => ?_⟩
    show pieceText mode (if s.hold = [] then [] else [ThinkScan.piece s.inside s.hold]) = _
    split
    · rename_i hnil
      rw [hnil]
      rfl
    · exact pieceText_piece mode s.inside s.hold
  | cons chunk rest ih =>
    obtain ⟨marks, hfeeds, htext⟩ := feeds_push s chunk
    obtain ⟨marks', hreads, htext'⟩ := ih hfeeds.reads_hold (by
      rintro before after rfl mode hcuts
      refine hcut (chunk :: before) after rfl mode (hcuts.of_suffix ?_)
      obtain ⟨front, hfront⟩ := hfeeds.hold_suffix
      exact ⟨front, by rw [chunkText_cons, ← List.append_assoc, ← List.append_assoc, hfront, List.append_assoc]⟩)
    refine ⟨marks ++ marks', ?_, fun mode => ?_⟩
    · rw [chunkText_cons, ← List.append_assoc]
      refine hfeeds.append (fun mode hcuts => hcut [chunk] rest rfl mode ?_) hreads
      simpa [chunkText] using hcuts
    · have hpieces : s.pieces (chunk :: rest) = (s.push chunk).1 ++ (s.push chunk).2.pieces rest :=
        List.append_assoc _ _ _
      rw [hpieces, pieceText_append, textOf_append, htext, htext']

end

/-! ## Chunk invariance -/

/-- No tag is cut inside of its first characters: six of an opening tag, seven of a closing one. -/
def SparesTags (chunks : List String) : Prop :=
  ∀ before after, chunks = before ++ after →
    ∀ inside, ¬ CutsTag inside (chunkText before) (chunkText after)

instance (inside : Bool) (before after : List Char) : Decidable (CutsTag inside before after) :=
  decidable_of_iff (∃ tail ∈ before.tails, tail ≠ [] ∧ tail.length < leastHeld inside
      ∧ ∃ tag ∈ thinkTags inside, tag <+: (tail ++ after).map Char.toLower) <| by
    simp only [List.mem_tails, CutsTag, StartsTag]

instance (chunks : List String) : Decidable (SparesTags chunks) :=
  decidable_of_iff (∀ n < chunks.length + 1, ∀ inside,
      ¬ CutsTag inside (chunkText (chunks.take n)) (chunkText (chunks.drop n))) <| by
    constructor
    · rintro h before after rfl
      have := h before.length (by rw [List.length_append]; omega)
      rwa [List.take_left, List.drop_left] at this
    · intro h n _
      exact h _ _ (List.take_append_drop n chunks).symm

/-- A text that is not cut spares its tags. -/
theorem sparesTags_whole (text : String) : SparesTags [text] := by
  rintro before after h inside ⟨tail, htail, hne, hlength, tag, htag, hpfx⟩
  cases before with
  | nil =>
    rw [chunkText, List.map_nil, List.flatten_nil, List.suffix_nil] at htail
    exact hne htail
  | cons chunk before =>
    obtain ⟨-, hnil⟩ := List.cons.inj h
    obtain ⟨-, rfl⟩ := List.append_eq_nil_iff.mp hnil.symm
    have hle := hpfx.length_le
    rw [List.length_map, List.length_append] at hle
    have hshort := (thinkTags_shape tag htag).1
    simp only [chunkText, List.map_nil, List.flatten_nil, List.length_nil] at hle
    omega

/-- **`ThinkScan` does not see how a text is cut.**  The pieces of the chunks have the texts of the pieces of
the whole; both are the texts of the one reading of the text, which loses nothing but the tags. -/
theorem thinkScan_chunks (chunks : List String) (h : SparesTags chunks) :
    (∀ inside, pieceText inside (ThinkScan.fresh.pieces chunks)
        = pieceText inside (ThinkScan.fresh.pieces [String.ofList (chunkText chunks)]))
      ∧ ∃ marks, Reads false (chunkText chunks) marks ∧ sourceOf marks = chunkText chunks
        ∧ ∀ inside, pieceText inside (ThinkScan.fresh.pieces chunks) = textOf inside marks := by
  obtain ⟨marks, hreads, htext⟩ := reads_pieces (s := ThinkScan.fresh) .nil h
  obtain ⟨marks', hreads', htext'⟩ :=
    reads_pieces (s := ThinkScan.fresh) .nil (sparesTags_whole (String.ofList (chunkText chunks)))
  have hwhole : chunkText [String.ofList (chunkText chunks)] = chunkText chunks := by
    simp [chunkText]
  rw [hwhole] at hreads'
  obtain rfl := hreads.unique hreads'
  exact ⟨fun inside => (htext inside).trans (htext' inside).symm, marks, hreads, hreads.source, htext⟩

/-- The tags are cut where they are held already. -/
theorem thinkScan_chunks_held :
    (∀ inside, pieceText inside (ThinkScan.fresh.pieces ["a<Think", "ing>b<", "c</think", ">d"])
        = pieceText inside (ThinkScan.fresh.pieces ["a<Thinking>b<c</think>d"]))
      ∧ pieceText false (ThinkScan.fresh.pieces ["a<Think", "ing>b<", "c</think", ">d"]) = "ad".toList
      ∧ pieceText true (ThinkScan.fresh.pieces ["a<Think", "ing>b<", "c</think", ">d"]) = "b<c".toList :=
  ⟨(thinkScan_chunks ["a<Think", "ing>b<", "c</think", ">d"] (by decide +kernel)).1,
    by decide +kernel, by decide +kernel⟩

end CodexRouter
