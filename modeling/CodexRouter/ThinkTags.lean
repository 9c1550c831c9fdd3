/-
# Think tags

`strip_think_tags` removes the thought blocks of a text: from `<think>` or `<thinking>` to
the closing tag of its kind, or to the end of the text, if there is none.  Tags in Markdown
code are left alone.

For a text without code marks, `scan` reads the same from left to right, and says besides
whether the text ends outside of a block and of a tag.  Behind such a text a new start of
the scanner is not seen (`scan_append`), and behind any other text it is
(`exists_shorter`).
-/
import CodexRouter.Base.LetterCase

namespace CodexRouter

open Text

/-! ## The code -/

/-- The first opening tag in a text in lower case: where it stands, its length, and the tag
that closes it. -/
def nextThinkTag (lower : List Char) : Option (ℕ × ℕ × List Char) :=
  match findChars "<think>".toList lower, findChars "<thinking>".toList lower with
  | some a, some b =>
    if a < b then some (a, 7, "</think>".toList) else some (b, 10, "</thinking>".toList)
  | some a, none => some (a, 7, "</think>".toList)
  | none, some b => some (b, 10, "</thinking>".toList)
  | none, none => none

/-- `inside_fenced_code_block`. -/
def insideFencedCodeBlock (text : List Char) (index : ℕ) : Bool :=
  (splitChars (· = '\n') (text.take index)).foldl (fun inFence line =>
    if startsWith (trimStart (String.ofList line)) "```" then !inFence else inFence) false

/-- `think_tag_is_literal`. -/
def thinkTagIsLiteral (text : List Char) (tagStart openLen : ℕ) : Bool :=
  (0 < tagStart && text[tagStart - 1]? = some '`') || text[tagStart + openLen]? = some '`'
    || insideFencedCodeBlock text tagStart

/-- The loop of `strip_think_tags`.  Every round moves `pos` on, so that a number of rounds
beyond the length of the text is enough. -/
def stripThinkTags.loop (text : List Char) : ℕ → ℕ → List Char
  | 0, _ => []
  | n + 1, pos =>
    if pos < text.length then
      match nextThinkTag ((text.drop pos).map Char.toLower) with
      | none => text.drop pos
      | some (rel, openLen, closeTag) =>
        let start := pos + rel
        let afterOpen := start + openLen
        if thinkTagIsLiteral text start openLen then
          (text.drop pos).take (rel + openLen) ++ stripThinkTags.loop text n (min afterOpen text.length)
        else
          (text.drop pos).take rel ++
            if text.length < afterOpen then []
            else
              match findChars closeTag ((text.drop afterOpen).map Char.toLower) with
              | some endRel => stripThinkTags.loop text n (afterOpen + endRel + closeTag.length)
              -- A truncated stream: the rest is dropped.
              | none => []
    else []

/-- `strip_think_tags`. -/
def stripThinkTags (text : String) : String :=
  String.ofList (stripThinkTags.loop text.toList (text.length + 1) 0)

example : stripThinkTags "hello <think>internal reasoning</think> world" = "hello  world" := by decide +kernel

/-! ## From left to right -/

/-- The opening tag at the start of a text in lower case: its length, and the tag that
closes it. -/
def openTag (lower : List Char) : Option (ℕ × List Char) :=
  if "<think>".toList.isPrefixOf lower then some (7, "</think>".toList)
  else if "<thinking>".toList.isPrefixOf lower then some (10, "</thinking>".toList)
  else none

/-- The text in lower case is the beginning of an opening tag. -/
def beginsTag (lower : List Char) : Bool :=
  lower.isPrefixOf "<think>".toList || lower.isPrefixOf "<thinking>".toList

/-- Read a text from its left: what is kept of it, and whether it ends outside of a block
and of a tag.  The number bounds the length. -/
def scan : ℕ → List Char → List Char × Bool
  | 0, _ => ([], true)
  | _ + 1, [] => ([], true)
  | n + 1, c :: cs =>
    match openTag ((c :: cs).map Char.toLower) with
    | none =>
      let (kept, outside) := scan n cs
      (c :: kept, !beginsTag ((c :: cs).map Char.toLower) && outside)
    | some (openLen, closeTag) =>
      match findChars closeTag (((c :: cs).drop openLen).map Char.toLower) with
      | none => ([], false)
      | some endRel => scan n ((c :: cs).drop (openLen + endRel + closeTag.length))

/-- A text ends outside of a thought block and of an opening tag. -/
def endsOutside (text : String) : Bool := (scan text.length text.toList).2

section

variable {n m : ℕ} {c : Char} {cs ds : List Char}

/-- No other character is lowered to an angle bracket. -/
theorem toLower_eq_lt (h : c.toLower = '<') : c = '<' := (Text.toLower_eq_iff (by decide)).mp h

/-- A tag starts with an angle bracket. -/
theorem openTag_eq_none (h : c ≠ '<') : openTag ((c :: cs).map Char.toLower) = none := by
  have hne : '<' ≠ c.toLower := fun heq => h (toLower_eq_lt heq.symm)
  have hno : ∀ tag : List Char, tag.head? = some '<' → tag.isPrefixOf ((c :: cs).map Char.toLower) = false := by
    intro tag htag
    obtain ⟨rest, rfl⟩ := List.head?_eq_some_iff.mp htag
    rw [List.map_cons, List.isPrefixOf, beq_eq_false_iff_ne.mpr hne, Bool.false_and]
  rw [openTag, hno _ (by decide), hno _ (by decide)]
  rfl

/-- The two kinds of tags. -/
theorem openTag_cases {lower : List Char} {openLen : ℕ} {closeTag : List Char}
    (h : openTag lower = some (openLen, closeTag)) :
    ∃ tag, tag <+: lower ∧ tag.length = openLen ∧ '<' ∉ tag.tail ∧ closeTag.getLast? = some '>'
      ∧ closeTag ≠ [] ∧ 0 < openLen := by
  rw [openTag] at h
  split at h
  · rename_i hprefix
    cases h
    exact ⟨_, List.isPrefixOf_iff_prefix.mp hprefix, by decide, by decide, by decide, by decide, by decide⟩
  · split at h
    · rename_i hprefix
      cases h
      exact ⟨_, List.isPrefixOf_iff_prefix.mp hprefix, by decide, by decide, by decide, by decide, by decide⟩
    · cases h

theorem scan_nil : scan n [] = ([], true) := by
  cases n <;> rfl

/-- A character of the text. -/
theorem scan_text (h : openTag ((c :: cs).map Char.toLower) = none) :
    scan (n + 1) (c :: cs)
      = (c :: (scan n cs).1, !beginsTag ((c :: cs).map Char.toLower) && (scan n cs).2) := by
  rw [scan, h]

/-- A block that is not closed. -/
theorem scan_unclosed {openLen : ℕ} {closeTag : List Char}
    (h : openTag ((c :: cs).map Char.toLower) = some (openLen, closeTag))
    (hnone : findChars closeTag (((c :: cs).drop openLen).map Char.toLower) = none) :
    scan (n + 1) (c :: cs) = ([], false) := by
  rw [scan, h]
  simp only [hnone]

/-- A block that is closed. -/
theorem scan_block {openLen endRel : ℕ} {closeTag : List Char}
    (h : openTag ((c :: cs).map Char.toLower) = some (openLen, closeTag))
    (hsome : findChars closeTag (((c :: cs).drop openLen).map Char.toLower) = some endRel) :
    scan (n + 1) (c :: cs) = scan n ((c :: cs).drop (openLen + endRel + closeTag.length)) := by
  rw [scan, h]
  simp only [hsome]

/-- The end of a closed block, inside of the text. -/
theorem block_length {openLen endRel : ℕ} {closeTag : List Char}
    (hsome : findChars closeTag ((cs.drop openLen).map Char.toLower) = some endRel)
    (hle : openLen ≤ cs.length) : openLen + endRel + closeTag.length ≤ cs.length := by
  have hlength := findChars_add_length_le hsome
  rw [List.length_map, List.length_drop] at hlength
  omega

theorem openLen_le {openLen : ℕ} {closeTag : List Char}
    (h : openTag (cs.map Char.toLower) = some (openLen, closeTag)) : 0 < openLen ∧ openLen ≤ cs.length := by
  obtain ⟨tag, hprefix, hlength, -, -, -, hpos⟩ := openTag_cases h
  have hle := hprefix.length_le
  rw [List.length_map] at hle
  exact ⟨hpos, hlength ▸ hle⟩

/-- Only a bound below the length matters. -/
theorem scan_congr (hn : cs.length ≤ n) (hm : cs.length ≤ m) : scan n cs = scan m cs := by
  induction n generalizing m cs with
  | zero =>
    obtain rfl := List.length_eq_zero_iff.mp (Nat.le_zero.mp hn)
    rw [scan_nil, scan_nil]
  | succ n ih =>
    cases cs with
    | nil => rw [scan_nil, scan_nil]
    | cons c cs =>
      rw [List.length_cons] at hn hm
      obtain ⟨m, rfl⟩ := Nat.exists_eq_succ_of_ne_zero (by omega : m ≠ 0)
      cases htag : openTag ((c :: cs).map Char.toLower) with
      | none => rw [scan_text htag, scan_text htag, ih (by omega) (by omega : cs.length ≤ m)]
      | some tag =>
        obtain ⟨openLen, closeTag⟩ := tag
        obtain ⟨hpos, -⟩ := openLen_le htag
        cases hend : findChars closeTag (((c :: cs).drop openLen).map Char.toLower) with
        | none => rw [scan_unclosed htag hend, scan_unclosed htag hend]
        | some endRel =>
          rw [scan_block htag hend, scan_block htag hend]
          have hshort : ((c :: cs).drop (openLen + endRel + closeTag.length)).length ≤ cs.length := by
            rw [List.length_drop, List.length_cons]
            omega
          exact ih (by omega) (by omega)

/-- A text without an angle bracket is kept. -/
theorem scan_of_not_mem (h : '<' ∉ cs) (hn : cs.length ≤ n) : (scan n cs).1 = cs := by
  induction cs generalizing n with
  | nil => rw [scan_nil]
  | cons c cs ih =>
    rw [List.mem_cons, not_or] at h
    rw [List.length_cons] at hn
    obtain ⟨n, rfl⟩ := Nat.exists_eq_succ_of_ne_zero (by omega : n ≠ 0)
    rw [scan_text (openTag_eq_none fun heq => h.1 heq.symm), ih h.2 (by omega)]

/-- A text that is no tag and begins none stays so when it goes on. -/
theorem openTag_append {lower lower' : List Char} (h : openTag lower = none)
    (hbegins : beginsTag lower = false) : openTag (lower ++ lower') = none := by
  have hno : ∀ tag, tag.isPrefixOf lower = false → lower.isPrefixOf tag = false →
      tag.isPrefixOf (lower ++ lower') = false := by
    intro tag htag hlower
    rw [← Bool.not_eq_true, List.isPrefixOf_iff_prefix] at htag hlower ⊢
    intro hprefix
    rcases List.prefix_or_prefix_of_prefix hprefix (List.prefix_append lower lower') with h | h
    · exact htag h
    · exact hlower h
  rw [beginsTag, Bool.or_eq_false_iff] at hbegins
  rw [openTag] at h
  split at h
  · cases h
  · rename_i hthink
    split at h
    · cases h
    · rename_i hthinking
      rw [Bool.not_eq_true] at hthink hthinking
      rw [openTag, hno _ hthink hbegins.1, hno _ hthinking hbegins.2]
      rfl

/-- A tag stays at the start of a text when it goes on. -/
theorem openTag_append_of_some {lower lower' : List Char} {tag : ℕ × List Char}
    (h : openTag lower = some tag) : openTag (lower ++ lower') = some tag := by
  rw [openTag] at h
  split at h
  · rename_i hthink
    rw [List.isPrefixOf_iff_prefix] at hthink
    rw [openTag, if_pos (List.isPrefixOf_iff_prefix.mpr (hthink.trans (List.prefix_append _ _)))]
    exact h
  · split at h
    · rename_i hthinking
      obtain ⟨rest, rfl⟩ := List.isPrefixOf_iff_prefix.mp hthinking
      rw [List.append_assoc]
      exact h
    · cases h

/-- Behind a text that ends outside, the scanner starts anew. -/
theorem scan_append (hn : (cs ++ ds).length ≤ n) (h : (scan cs.length cs).2 = true) :
    (scan n (cs ++ ds)).1 = (scan cs.length cs).1 ++ (scan ds.length ds).1 := by
  induction n generalizing cs with
  | zero =>
    obtain ⟨rfl, rfl⟩ := List.append_eq_nil_iff.mp (List.length_eq_zero_iff.mp (Nat.le_zero.mp hn))
    rfl
  | succ n ih =>
    cases cs with
    | nil =>
      rw [List.nil_append, List.length_nil, scan_nil, List.nil_append]
      exact congrArg Prod.fst (scan_congr hn le_rfl)
    | cons c cs =>
      rw [List.cons_append, List.length_cons] at hn
      rw [List.length_cons] at h ⊢
      cases htag : openTag ((c :: cs).map Char.toLower) with
      | none =>
        rw [scan_text htag, Bool.and_eq_true, Bool.not_eq_true'] at h
        have htag' : openTag ((c :: (cs ++ ds)).map Char.toLower) = none := by
          rw [← List.cons_append, List.map_append]
          exact openTag_append htag h.1
        rw [List.cons_append, scan_text htag', scan_text htag, List.cons_append]
        exact congrArg _ (ih (by omega) h.2)
      | some tag =>
        obtain ⟨openLen, closeTag⟩ := tag
        obtain ⟨hpos, hle⟩ := openLen_le htag
        have htag' : openTag ((c :: (cs ++ ds)).map Char.toLower) = some (openLen, closeTag) := by
          rw [← List.cons_append, List.map_append]
          exact openTag_append_of_some htag
        cases hend : findChars closeTag (((c :: cs).drop openLen).map Char.toLower) with
        | none =>
          rw [scan_unclosed htag hend] at h
          cases h
        | some endRel =>
          have hblock := block_length hend hle
          have hend' : findChars closeTag (((c :: (cs ++ ds)).drop openLen).map Char.toLower)
              = some endRel := by
            rw [← List.cons_append, List.drop_append_of_le_length hle, List.map_append]
            exact findChars_append hend _
          have hrest : ((c :: cs).drop (openLen + endRel + closeTag.length)).length ≤ cs.length := by
            rw [List.length_drop, List.length_cons]
            omega
          rw [scan_block htag hend, scan_congr hrest le_rfl] at h
          rw [List.cons_append, scan_block htag' hend', scan_block htag hend, scan_congr hrest le_rfl,
            ← List.cons_append, List.drop_append_of_le_length hblock]
          refine ih ?_ h
          rw [List.length_append] at hn ⊢
          omega

/-- Words that the scanner does not keep behind a text, though it keeps them alone. -/
structure Swallowed (cs ds : List Char) : Prop where
  noBracket : '<' ∉ ds
  noSlash : '/' ∉ ds
  noMark : '`' ∉ ds
  shorter : (scan (cs ++ ds).length (cs ++ ds)).1.length < (scan cs.length cs).1.length + ds.length

/-- A pattern does not come about by a character that it does not end with. -/
theorem findChars_append_singleton {p : List Char} {d : Char} (h : findChars p cs = none)
    (hlast : p.getLast? ≠ some d) : findChars p (cs ++ [d]) = none := by
  cases hfind : findChars p (cs ++ [d]) with
  | none => rfl
  | some i =>
    have hpos : 0 < p.length := by
      cases p with
      | nil => cases cs <;> cases h
      | cons c p => exact Nat.succ_pos _
    have hlt := lt_of_findChars_append h hfind
    have hle := findChars_add_length_le hfind
    obtain ⟨rest, hrest⟩ := findChars_spec hfind
    have hlength := congrArg List.length hrest
    rw [List.length_append, List.length_drop] at hlength
    rw [List.length_append, List.length_singleton] at hle hlength
    obtain rfl := List.length_eq_zero_iff.mp (by omega : rest.length = 0)
    rw [List.append_nil, List.drop_append_of_le_length (by omega)] at hrest
    exact absurd (by rw [hrest, List.getLast?_concat]) hlast

/-- In an open block a letter is swallowed. -/
theorem swallowed_of_unclosed {openLen : ℕ} {closeTag : List Char}
    (h : openTag (cs.map Char.toLower) = some (openLen, closeTag))
    (hnone : findChars closeTag ((cs.drop openLen).map Char.toLower) = none) {d : Char}
    (hd : d ∈ ['x', 'y']) : Swallowed cs [d] := by
  obtain ⟨tag, hprefix, hlength, -, hlast, hne, hpos⟩ := openTag_cases h
  have hle := (openLen_le h).2
  have hlower : d.toLower = d ∧ d ≠ '>' ∧ d ≠ '<' ∧ d ≠ '/' ∧ d ≠ '`' := by
    rcases List.mem_cons.mp hd with rfl | hd
    · decide
    · obtain rfl := List.mem_singleton.mp hd
      decide
  obtain ⟨hlower, hgt, hlt, hslash, hmark⟩ := hlower
  cases cs with
  | nil =>
    rw [List.length_nil] at hle
    omega
  | cons c cs =>
    have htag : openTag ((c :: (cs ++ [d])).map Char.toLower) = some (openLen, closeTag) := by
      rw [← List.cons_append, List.map_append]
      exact openTag_append_of_some h
    have hend : findChars closeTag (((c :: (cs ++ [d])).drop openLen).map Char.toLower) = none := by
      rw [← List.cons_append, List.drop_append_of_le_length hle, List.map_append, List.map_singleton, hlower]
      refine findChars_append_singleton hnone ?_
      rw [hlast, ne_eq, Option.some.injEq]
      exact hgt.symm
    refine ⟨by simpa using hlt.symm, by simpa using hslash.symm, by simpa using hmark.symm, ?_⟩
    have hnothing : (scan (c :: cs ++ [d]).length (c :: cs ++ [d])).1 = [] := by
      rw [List.cons_append, List.length_cons, scan_unclosed htag hend]
    rw [hnothing, List.length_nil, List.length_singleton]
    exact Nat.succ_pos _

/-- The rest of a tag is swallowed. -/
theorem swallowed_of_beginsTag (hne : cs ≠ []) (htag : openTag (cs.map Char.toLower) = none)
    {tag : List Char} {openLen : ℕ} {closeTag : List Char}
    (hopen : ∀ more : List Char, openTag (tag ++ more) = some (openLen, closeTag)) (hlength : tag.length = openLen)
    (hlower : tag.map Char.toLower = tag) (hchars : '<' ∉ tag.tail ∧ '/' ∉ tag.tail ∧ '`' ∉ tag.tail)
    (hclose : findChars closeTag [] = none ∧ findChars closeTag ['x'] = none)
    (hbegins : cs.map Char.toLower <+: tag) {more : List Char} (hmore : more ∈ [[], ['x']]) :
    Swallowed cs (tag.drop cs.length ++ more) := by
  have hmore' : more.map Char.toLower = more ∧ findChars closeTag more = none
      ∧ '<' ∉ more ∧ '/' ∉ more ∧ '`' ∉ more := by
    rcases List.mem_cons.mp hmore with rfl | hmore
    · exact ⟨rfl, hclose.1, by decide⟩
    · obtain rfl := List.mem_singleton.mp hmore
      exact ⟨by decide, hclose.2, by decide⟩
  obtain ⟨hmoreLower, hend, hlt, hslash, hmark⟩ := hmore'
  have hle := hbegins.length_le
  rw [List.length_map] at hle
  cases cs with
  | nil => exact absurd rfl hne
  | cons c cs =>
    have hword : (c :: cs ++ (tag.drop (c :: cs).length ++ more)).map Char.toLower = tag ++ more := by
      obtain ⟨rest, rfl⟩ := hbegins
      rw [← List.append_assoc, List.map_append, List.map_append, List.map_drop, hlower, hmoreLower]
      congr 1
      rw [← List.length_map Char.toLower, List.drop_left]
    have hno : ∀ d ∈ tag.drop (c :: cs).length ++ more, d ≠ '<' ∧ d ≠ '/' ∧ d ≠ '`' := by
      intro d hd
      rcases List.mem_append.mp hd with hd | hd
      · rw [List.length_cons, ← List.tail_drop, List.tail_drop, ← List.drop_tail] at hd
        have hd := List.mem_of_mem_drop hd
        exact ⟨fun heq => hchars.1 (heq ▸ hd), fun heq => hchars.2.1 (heq ▸ hd), fun heq => hchars.2.2 (heq ▸ hd)⟩
      · exact ⟨fun heq => hlt (heq ▸ hd), fun heq => hslash (heq ▸ hd), fun heq => hmark (heq ▸ hd)⟩
    refine ⟨fun hd => (hno _ hd).1 rfl, fun hd => (hno _ hd).2.1 rfl, fun hd => (hno _ hd).2.2 rfl, ?_⟩
    have hrest : ((c :: cs ++ (tag.drop (c :: cs).length ++ more)).drop openLen).map Char.toLower = more := by
      rw [List.map_drop, hword, ← hlength, List.drop_left]
    have hnothing : (scan (c :: cs ++ (tag.drop (c :: cs).length ++ more)).length
        (c :: cs ++ (tag.drop (c :: cs).length ++ more))).1 = [] := by
      rw [List.cons_append] at hword hrest ⊢
      rw [List.length_cons, scan_unclosed (hword ▸ hopen more) (by rw [hrest]; exact hend)]
    have hkept : 0 < (scan (c :: cs).length (c :: cs)).1.length := by
      rw [List.length_cons, scan_text htag, List.length_cons]
      exact Nat.succ_pos _
    rw [hnothing, List.length_nil]
    omega

/-- What is swallowed behind the rest of a text is swallowed behind the text. -/
theorem Swallowed.lift (h : Swallowed cs ds) (kept : List Char) {before : List Char}
    (hbefore : (scan before.length before).1 = kept ++ (scan cs.length cs).1)
    (happend : (scan (before ++ ds).length (before ++ ds)).1
      = kept ++ (scan (cs ++ ds).length (cs ++ ds)).1) : Swallowed before ds := by
  refine ⟨h.noBracket, h.noSlash, h.noMark, ?_⟩
  have hshorter := h.shorter
  rw [hbefore, happend]
  generalize (scan (cs ++ ds).length (cs ++ ds)).1 = together at hshorter ⊢
  generalize (scan cs.length cs).1 = alone at hshorter ⊢
  rw [List.length_append, List.length_append]
  omega

/-- Behind a text that does not end outside, something is swallowed. -/
theorem exists_swallowed (h : (scan cs.length cs).2 = false) :
    ∃ ds ds', ds ≠ ds' ∧ Swallowed cs ds ∧ Swallowed cs ds' := by
  induction hn : cs.length using Nat.strong_induction_on generalizing cs with
  | _ n ih =>
    subst hn
    cases cs with
    | nil => cases h
    | cons c cs =>
      rw [List.length_cons] at h
      cases htag : openTag ((c :: cs).map Char.toLower) with
      | none =>
        by_cases hbegins : beginsTag ((c :: cs).map Char.toLower) = true
        -- The tag is completed, with or without a letter behind it.
        · have hpair : ∀ tag : List Char,
              (∀ more ∈ [[], ['x']], Swallowed (c :: cs) (tag.drop (c :: cs).length ++ more)) →
              ∃ ds ds', ds ≠ ds' ∧ Swallowed (c :: cs) ds ∧ Swallowed (c :: cs) ds' := by
            intro tag hswallowed
            refine ⟨_, _, ?_, hswallowed [] (by simp), hswallowed ['x'] (by simp)⟩
            intro heq
            have hlength := congrArg List.length heq
            rw [List.length_append, List.length_append, List.length_nil, List.length_singleton] at hlength
            omega
          rw [beginsTag, Bool.or_eq_true, List.isPrefixOf_iff_prefix, List.isPrefixOf_iff_prefix] at hbegins
          rcases hbegins with hbegins | hbegins
          · have hopen : openTag "<think>".toList = some (7, "</think>".toList) := by decide
            exact hpair _ fun more hmore => swallowed_of_beginsTag (List.cons_ne_nil c cs) htag
              (fun _ => openTag_append_of_some hopen) (by decide) (by decide) (by decide) (by decide) hbegins hmore
          · have hopen : openTag "<thinking>".toList = some (10, "</thinking>".toList) := by decide
            exact hpair _ fun more hmore => swallowed_of_beginsTag (List.cons_ne_nil c cs) htag
              (fun _ => openTag_append_of_some hopen) (by decide) (by decide) (by decide) (by decide) hbegins hmore
        · rw [Bool.not_eq_true] at hbegins
          rw [scan_text htag, hbegins, Bool.not_false, Bool.true_and] at h
          obtain ⟨ds, ds', hne, hds, hds'⟩ := ih cs.length (Nat.lt_succ_self _) h rfl
          have hlift : ∀ ds, Swallowed cs ds → Swallowed (c :: cs) ds := by
            intro ds hds
            refine hds.lift [c] ?_ ?_
            · rw [List.length_cons, scan_text htag]
              rfl
            · have htag' : openTag ((c :: (cs ++ ds)).map Char.toLower) = none := by
                rw [← List.cons_append, List.map_append]
                exact openTag_append htag hbegins
              rw [List.cons_append, List.length_cons, scan_text htag']
              rfl
          exact ⟨ds, ds', hne, hlift ds hds, hlift ds' hds'⟩
      | some tag =>
        obtain ⟨openLen, closeTag⟩ := tag
        obtain ⟨hpos, hle⟩ := openLen_le htag
        cases hend : findChars closeTag (((c :: cs).drop openLen).map Char.toLower) with
        | none =>
          exact ⟨['x'], ['y'], by decide, swallowed_of_unclosed htag hend (by decide),
            swallowed_of_unclosed htag hend (by decide)⟩
        | some endRel =>
          have hblock := block_length hend hle
          have hrest : ((c :: cs).drop (openLen + endRel + closeTag.length)).length ≤ cs.length := by
            rw [List.length_drop, List.length_cons]
            omega
          rw [scan_block htag hend, scan_congr hrest le_rfl] at h
          obtain ⟨ds, ds', hne, hds, hds'⟩ := ih _ (Nat.lt_succ_of_le hrest) h rfl
          have hlift : ∀ ds, Swallowed ((c :: cs).drop (openLen + endRel + closeTag.length)) ds →
              Swallowed (c :: cs) ds := by
            intro ds hds
            refine hds.lift [] ?_ ?_
            · rw [List.nil_append, List.length_cons, scan_block htag hend, scan_congr hrest le_rfl]
            · have htag' : openTag ((c :: (cs ++ ds)).map Char.toLower) = some (openLen, closeTag) := by
                rw [← List.cons_append, List.map_append]
                exact openTag_append_of_some htag
              have hend' : findChars closeTag (((c :: (cs ++ ds)).drop openLen).map Char.toLower)
                  = some endRel := by
                rw [← List.cons_append, List.drop_append_of_le_length hle, List.map_append]
                exact findChars_append hend _
              rw [List.nil_append, List.cons_append, List.length_cons, scan_block htag' hend',
                ← List.cons_append, List.drop_append_of_le_length hblock]
              refine congrArg Prod.fst (scan_congr ?_ le_rfl)
              rw [List.length_append, List.length_append]
              omega
          exact ⟨ds, ds', hne, hlift ds hds, hlift ds' hds'⟩

/-! ## The code reads from left to right -/

theorem nextThinkTag_nil : nextThinkTag [] = none := by decide

/-- The first tag stands at the start of the text, or it is the first one behind it. -/
theorem nextThinkTag_cons (c : Char) (cs : List Char) :
    nextThinkTag (c :: cs) = match openTag (c :: cs) with
      | some (openLen, closeTag) => some (0, openLen, closeTag)
      | none => (nextThinkTag cs).map fun found => (found.1 + 1, found.2) := by
  rw [openTag, nextThinkTag, findChars, findChars, nextThinkTag]
  by_cases hthink : "<think>".toList.isPrefixOf (c :: cs) = true
  · have hthinking : ¬ "<thinking>".toList.isPrefixOf (c :: cs) = true := by
      intro hthinking
      rw [List.isPrefixOf_iff_prefix] at hthink hthinking
      exact absurd (List.prefix_of_prefix_length_le hthink hthinking (by decide)) (by decide)
    rw [if_pos hthink, if_neg hthinking, if_pos hthink]
    cases findChars "<thinking>".toList cs <;> rfl
  · rw [if_neg hthink, if_neg hthink]
    by_cases hthinking : "<thinking>".toList.isPrefixOf (c :: cs) = true
    · rw [if_pos hthinking, if_pos hthinking]
      cases findChars "<think>".toList cs <;> rfl
    · rw [if_neg hthinking, if_neg hthinking]
      cases findChars "<think>".toList cs with
      | none => cases findChars "<thinking>".toList cs <;> rfl
      | some a =>
        cases findChars "<thinking>".toList cs with
        | none => rfl
        | some b =>
          simp only [Option.map_some, Nat.add_lt_add_iff_right]
          split <;> rfl

/-- What is kept up to the first tag, and behind it. -/
theorem scan_nextThinkTag (cs : List Char) :
    (scan cs.length cs).1 = match nextThinkTag (cs.map Char.toLower) with
      | none => cs
      | some (rel, openLen, closeTag) =>
        cs.take rel ++ match findChars closeTag ((cs.drop (rel + openLen)).map Char.toLower) with
          | none => []
          | some endRel =>
            (scan (cs.drop (rel + openLen + endRel + closeTag.length)).length
              (cs.drop (rel + openLen + endRel + closeTag.length))).1 := by
  induction cs with
  | nil =>
    rw [List.map_nil, nextThinkTag_nil]
    rfl
  | cons c cs ih =>
    rw [List.length_cons, List.map_cons, nextThinkTag_cons, ← List.map_cons]
    cases htag : openTag ((c :: cs).map Char.toLower) with
    | some tag =>
      obtain ⟨openLen, closeTag⟩ := tag
      obtain ⟨hpos, -⟩ := openLen_le htag
      simp only [List.take_zero, List.nil_append, Nat.zero_add]
      cases hend : findChars closeTag (((c :: cs).drop openLen).map Char.toLower) with
      | none => rw [scan_unclosed htag hend]
      | some endRel =>
        rw [scan_block htag hend]
        refine congrArg Prod.fst (scan_congr ?_ le_rfl)
        rw [List.length_drop, List.length_cons]
        omega
    | none =>
      rw [scan_text htag, ih]
      cases nextThinkTag (cs.map Char.toLower) with
      | none => rfl
      | some found =>
        obtain ⟨rel, openLen, closeTag⟩ := found
        simp only [Option.map_some, List.take_succ_cons, List.cons_append]
        rw [show rel + 1 + openLen = rel + openLen + 1 by omega, List.drop_succ_cons]
        cases findChars closeTag ((cs.drop (rel + openLen)).map Char.toLower) with
        | none => rfl
        | some endRel =>
          simp only
          rw [show rel + openLen + 1 + endRel + closeTag.length
            = rel + openLen + endRel + closeTag.length + 1 by omega, List.drop_succ_cons]

/-- A tag that is found lies inside of the text. -/
theorem nextThinkTag_le {lower : List Char} {rel openLen : ℕ} {closeTag : List Char}
    (h : nextThinkTag lower = some (rel, openLen, closeTag)) :
    rel + openLen ≤ lower.length ∧ 0 < openLen := by
  have hthink : "<think>".toList.length = 7 := by decide
  have hthinking : "<thinking>".toList.length = 10 := by decide
  rw [nextThinkTag] at h
  split at h
  · rename_i a b ha hb
    have hlea := findChars_add_length_le ha
    have hleb := findChars_add_length_le hb
    split at h <;> cases h <;> omega
  · rename_i a ha hb
    have hlea := findChars_add_length_le ha
    cases h
    omega
  · rename_i b ha hb
    have hleb := findChars_add_length_le hb
    cases h
    omega
  · cases h

/-- Without code marks no tag is literal. -/
theorem thinkTagIsLiteral_eq_false {text : List Char} (h : '`' ∉ text) (tagStart openLen : ℕ) :
    thinkTagIsLiteral text tagStart openLen = false := by
  have hno : ∀ i, text[i]? ≠ some '`' := fun i hi => h (List.mem_of_getElem? hi)
  have hfence : insideFencedCodeBlock text tagStart = false := by
    have hlines : ∀ lines : List (List Char), (∀ line ∈ lines, '`' ∉ line) →
        lines.foldl (fun inFence line => if startsWith (trimStart (String.ofList line)) "```" then !inFence
          else inFence) false = false := by
      intro lines
      induction lines with
      | nil => exact fun _ => rfl
      | cons line lines ih =>
        intro hall
        have hstart : startsWith (trimStart (String.ofList line)) "```" = false := by
          rw [startsWith, ← Bool.not_eq_true, List.isPrefixOf_iff_prefix]
          intro hprefix
          have hmem : '`' ∈ (trimStart (String.ofList line)).toList := hprefix.subset (by decide)
          rw [trimStart, trimStartMatches, String.toList_ofList, String.toList_ofList] at hmem
          exact hall line List.mem_cons_self ((List.dropWhile_suffix _).subset hmem)
        rw [List.foldl_cons, hstart, if_neg (by decide)]
        exact ih fun line hline => hall line (List.mem_cons_of_mem _ hline)
    refine hlines _ fun line hline hmark => h ?_
    exact List.mem_of_mem_take (mem_of_mem_splitChars hline hmark)
  rw [thinkTagIsLiteral, hfence, decide_eq_false (hno _), decide_eq_false (hno _), Bool.and_false]
  rfl

/-- Without code marks the loop is the scanner. -/
theorem stripThinkTags_loop_eq {text : List Char} (h : '`' ∉ text) {n pos : ℕ}
    (hn : text.length < n + pos) (hpos : pos ≤ text.length) :
    stripThinkTags.loop text n pos = (scan (text.drop pos).length (text.drop pos)).1 := by
  induction n generalizing pos with
  | zero => omega
  | succ n ih =>
    rw [stripThinkTags.loop]
    split
    · rw [scan_nextThinkTag]
      cases htag : nextThinkTag ((text.drop pos).map Char.toLower) with
      | none => rfl
      | some found =>
        obtain ⟨rel, openLen, closeTag⟩ := found
        obtain ⟨hle, hlen⟩ := nextThinkTag_le htag
        rw [List.length_map, List.length_drop] at hle
        have hinside : ¬ text.length < pos + rel + openLen := by omega
        simp only [thinkTagIsLiteral_eq_false h, Bool.false_eq_true, if_false, if_neg hinside]
        rw [List.drop_drop, ← Nat.add_assoc]
        cases hend : findChars closeTag ((text.drop (pos + rel + openLen)).map Char.toLower) with
        | none => rfl
        | some endRel =>
          have hclose := findChars_add_length_le hend
          rw [List.length_map, List.length_drop] at hclose
          simp only
          rw [ih (by omega) (by omega), List.drop_drop]
          simp only [← Nat.add_assoc]
    · have hend : text.drop pos = [] := List.drop_eq_nil_iff.mpr (by omega)
      rw [hend, scan_nil]

theorem stripThinkTags_eq {text : String} (h : '`' ∉ text.toList) :
    (stripThinkTags text).toList = (scan text.length text.toList).1 := by
  have hlength : text.toList.length = text.length := String.length_toList
  rw [stripThinkTags, String.toList_ofList,
    stripThinkTags_loop_eq h (by omega) (Nat.zero_le _), List.drop_zero, hlength]

end

end CodexRouter
