/-
# The turns of the markers

The loop of `redact_text` turns to each marker once and replaces one run.  A word
(a run between white space) is cut where its first marker stands exactly if it is the
first word with that marker when the turn of the marker comes
(`firstSecret_eq_none_iff`).
-/
import CodexRouter.Redaction
import Mathlib.Data.List.Find
import Mathlib.Data.List.TakeWhile

namespace CodexRouter

open Text

/-! ## The code on characters and on cells -/

section

variable {α β : Type} {charA : α → Char} {newA : Char → α} {charB : β → Char} {newB : Char → β}
  {f : α → β}

theorem redactMarker_map (hchar : ∀ a, charB (f a) = charA a) (hnew : ∀ c, f (newA c) = newB c)
    (marker : String) (cells : List α) :
    (redactMarker charA newA marker cells).map f = redactMarker charB newB marker (cells.map f) := by
  have hmap : (cells.map f).map charB = cells.map charA := by
    rw [List.map_map]
    exact List.map_congr_left fun a _ => hchar a
  unfold redactMarker
  rw [hmap]
  cases findChars marker.toList (cells.map charA) with
  | none => rfl
  | some index =>
    simp only [List.map_append, List.map_map, List.map_take, ← List.map_drop, List.dropWhile_map]
    congr 2
    · exact List.map_congr_left fun c _ => hnew c
    · simp only [Function.comp_def, hchar]

theorem replaceAll_map (hchar : ∀ a, charB (f a) = charA a) (hnew : ∀ c, f (newA c) = newB c)
    (pattern : List Char → Option (ℕ × ℕ)) (text : List Char) (n : ℕ) (cells : List α) :
    (replaceAll charA newA pattern text n cells).map f
      = replaceAll charB newB pattern text n (cells.map f) := by
  have hmap : ∀ l : List α, (l.map f).map charB = l.map charA := by
    intro l
    rw [List.map_map]
    exact List.map_congr_left fun a _ => hchar a
  have hnews : (text.map newA).map f = text.map newB := by
    rw [List.map_map]
    exact List.map_congr_left fun c _ => hnew c
  induction cells generalizing n with
  | nil => cases n <;> rfl
  | cons a cells ih =>
    cases n with
    | succ n => exact ih n
    | zero =>
      rw [List.map_cons, replaceAll, replaceAll, ← List.map_cons, hmap]
      cases pattern ((a :: cells).map charA) with
      | none => rw [List.map_cons, ih]
      | some found =>
        obtain ⟨kept, length⟩ := found
        simp only [List.map_append, List.map_take, ih, hnews]

end

theorem id_char (c : Cell) : id c.char = c.char := rfl

theorem char_inserted (c : Char) : (Cell.inserted c).char = id c := rfl

theorem inserted_char (c : Char) : (Cell.inserted c).char = c := rfl

/-- Without their marks, the cells are what the loop makes of the text. -/
theorem char_redactMarker (marker : String) (cells : List Cell) :
    (redactMarker Cell.char Cell.inserted marker cells).map Cell.char
      = redactMarker id id marker (cells.map Cell.char) :=
  redactMarker_map (f := Cell.char) id_char char_inserted marker cells

theorem char_redactMarkers (cells : List Cell) :
    (redactMarkers Cell.char Cell.inserted cells).map Cell.char
      = redactMarkers id id (cells.map Cell.char) := by
  unfold redactMarkers
  induction "Bearer " :: secretMarkers generalizing cells with
  | nil => rfl
  | cons m ms ih => rw [List.foldl_cons, ih, char_redactMarker, List.foldl_cons]

theorem char_markFrom (before : List Char) (inside : Bool) (cs : List Char) :
    (markFrom before inside cs).map Cell.char = cs := by
  induction cs generalizing before inside with
  | nil => rfl
  | cons c cs ih => rw [markFrom, List.map_cons, ih]

/-- `redact_text` is the code on marked cells, without the marks. -/
theorem redactText_eq (text : String) :
    redactText text
      = String.ofList ((redactCells Cell.char Cell.inserted (markSecrets text)).map Cell.char) := by
  rw [redactText, redactCells, redactCells, replaceAll_map (f := Cell.char) id_char char_inserted,
    replaceAll_map (f := Cell.char) id_char char_inserted, char_redactMarkers, markSecrets,
    char_markFrom]

/-! ## The first secret of a word -/

/-- Where the first marker of a word stands, and which one it is. -/
def firstSecret : List Char → Option (ℕ × String)
  | [] => none
  | c :: cs =>
    match startsSecret (c :: cs) with
    | some m => some (0, m)
    | none => (firstSecret cs).map fun found => (found.1 + 1, found.2)

theorem notWhitespace_of_all {cs : List Char} (h : (cs.all fun c => !isWhitespace c) = true) :
    ∀ c ∈ cs, isWhitespace c = false := by
  intro c hc
  simpa using List.all_eq_true.mp h c hc

/-- A marker starts with a character that no marker has further on, and it has no
character of `[REDACTED]`, of `Bearer` or of white space. -/
theorem secretMarkers_apart : ∀ m ∈ secretMarkers,
    (∃ d t, m.toList = d :: t ∧ ∀ m' ∈ secretMarkers, d ∉ m'.toList.tail)
      ∧ '[' ∉ m.toList ∧ 'B' ∉ m.toList ∧ ∀ c ∈ m.toList, isWhitespace c = false := by
  have hall : ∀ m ∈ secretMarkers,
      (∀ m' ∈ secretMarkers, m.toList.head?.all fun d => d ∉ m'.toList.tail) ∧ m.toList ≠ []
        ∧ '[' ∉ m.toList ∧ 'B' ∉ m.toList ∧ (m.toList.all fun c => !isWhitespace c) = true := by
    decide
  intro m hm
  obtain ⟨hhead, hne, hbracket, hbearer, hspace⟩ := hall m hm
  obtain ⟨d, t, hdt⟩ := List.exists_cons_of_ne_nil hne
  refine ⟨⟨d, t, hdt, fun m' hm' => ?_⟩, hbracket, hbearer, notWhitespace_of_all hspace⟩
  have hd := hhead m' hm'
  rw [hdt] at hd
  simpa using hd

/-- No marker is the front of another one. -/
theorem eq_of_front_secretMarkers : ∀ m ∈ secretMarkers, ∀ m' ∈ secretMarkers,
    m.toList.isPrefixOf m'.toList → m = m' := by
  decide

theorem startsSecret_eq_some {cs : List Char} {m : String} :
    startsSecret cs = some m ↔ m ∈ secretMarkers ∧ m.toList <+: cs := by
  constructor
  · intro h
    have hprefix := List.find?_some (p := fun m : String => m.toList.isPrefixOf cs) h
    exact ⟨List.mem_of_find?_eq_some h, List.isPrefixOf_iff_prefix.mp hprefix⟩
  · rintro ⟨hm, hprefix⟩
    cases hfind : startsSecret cs with
    | none =>
      rw [startsSecret, List.find?_eq_none] at hfind
      exact absurd (List.isPrefixOf_iff_prefix.mpr hprefix) (hfind m hm)
    | some m' =>
      have hm' := List.mem_of_find?_eq_some hfind
      have hprefix' := List.isPrefixOf_iff_prefix.mp
        (List.find?_some (p := fun m : String => m.toList.isPrefixOf cs) hfind)
      rcases Nat.le_total m.toList.length m'.toList.length with hle | hle
      · rw [eq_of_front_secretMarkers m hm m' hm' (List.isPrefixOf_iff_prefix.mpr
          (List.prefix_of_prefix_length_le hprefix hprefix' hle))]
      · rw [eq_of_front_secretMarkers m' hm' m hm (List.isPrefixOf_iff_prefix.mpr
          (List.prefix_of_prefix_length_le hprefix' hprefix hle))]

/-- Behind a character that no marker has further on, nothing changes the secrets in
front of it. -/
theorem firstSecret_append {d : Char} (hd : ∀ m ∈ secretMarkers, d ∉ m.toList.tail)
    (u v : List Char) :
    firstSecret (u ++ d :: v) = match firstSecret u with
      | some found => some found
      | none => (firstSecret (d :: v)).map fun found => (found.1 + u.length, found.2) := by
  induction u with
  | nil =>
    cases h : firstSecret (d :: v) with
    | none => simp [firstSecret, h]
    | some found => simp [firstSecret, h]
  | cons c u ih =>
    have hsame : startsSecret (c :: (u ++ d :: v)) = startsSecret (c :: u) := by
      refine List.find?_congr fun m hm => ?_
      have hdrop : d ∉ m.toList.drop (c :: u).length := by
        rw [List.length_cons, Nat.add_comm, ← List.drop_drop, List.drop_one]
        exact fun h => hd m hm (List.mem_of_mem_drop h)
      rw [Bool.eq_iff_iff, List.isPrefixOf_iff_prefix, List.isPrefixOf_iff_prefix,
        ← List.cons_append, prefix_append_cons_iff hdrop]
    rw [List.cons_append, firstSecret, hsame, firstSecret]
    cases hstart : startsSecret (c :: u) with
    | some m => rfl
    | none =>
      dsimp only
      rw [ih]
      cases firstSecret u with
      | some found => rfl
      | none =>
        dsimp only
        rw [Option.map_none, Option.map_map, List.length_cons]
        rfl

theorem firstSecret_append_redacted (u : List Char) :
    firstSecret (u ++ redacted) = firstSecret u := by
  have hd : ∀ m ∈ secretMarkers, '[' ∉ m.toList.tail := fun m hm h =>
    (secretMarkers_apart m hm).2.1 (List.mem_of_mem_tail h)
  have hnone : firstSecret redacted = none := by decide
  have happend := firstSecret_append hd u "REDACTED]".toList
  rw [show '[' :: "REDACTED]".toList = redacted from rfl, hnone] at happend
  rw [happend]
  cases firstSecret u <;> rfl

theorem firstSecret_append_bearer (u : List Char) :
    firstSecret (u ++ "Bearer".toList) = firstSecret u := by
  have hd : ∀ m ∈ secretMarkers, 'B' ∉ m.toList.tail := fun m hm h =>
    (secretMarkers_apart m hm).2.2.1 (List.mem_of_mem_tail h)
  have hnone : firstSecret "Bearer".toList = none := by decide
  have happend := firstSecret_append hd u "earer".toList
  rw [show 'B' :: "earer".toList = "Bearer".toList from rfl, hnone] at happend
  rw [happend]
  cases firstSecret u <;> rfl

theorem firstSecret_spec {w : List Char} {p : ℕ} {m : String}
    (h : firstSecret w = some (p, m)) :
    p < w.length ∧ m ∈ secretMarkers ∧ m.toList <+: w.drop p := by
  induction w generalizing p with
  | nil => cases h
  | cons c w ih =>
    rw [firstSecret] at h
    cases hstart : startsSecret (c :: w) with
    | some m' =>
      rw [hstart] at h
      cases h
      exact ⟨Nat.zero_lt_succ _, startsSecret_eq_some.mp hstart⟩
    | none =>
      rw [hstart] at h
      obtain ⟨⟨p', m'⟩, hp', heq⟩ := Option.map_eq_some_iff.mp h
      cases heq
      obtain ⟨hlt, hmem⟩ := ih hp'
      exact ⟨by rw [List.length_cons]; omega, hmem⟩

/-- The first secret, seen from an occurrence of a marker: it is in front of it, or
this is it. -/
theorem firstSecret_of_find {w : List Char} {m : String} {i : ℕ} (hm : m ∈ secretMarkers)
    (h : findChars m.toList w = some i) :
    firstSecret w = match firstSecret (w.take i) with
      | some found => some found
      | none => some (i, m) := by
  have hle := findChars_add_length_le h
  obtain ⟨rest, hrest⟩ := findChars_spec h
  obtain ⟨⟨d, t, hdt, hd⟩, -⟩ := secretMarkers_apart m hm
  have hstart : firstSecret (w.drop i) = some (0, m) := by
    have hsome : startsSecret (w.drop i) = some m := startsSecret_eq_some.mpr ⟨hm, rest, hrest⟩
    rw [← hrest, hdt, List.cons_append, firstSecret]
    rw [← hrest, hdt, List.cons_append] at hsome
    rw [hsome]
  have hdrop : w.drop i = d :: (t ++ rest) := by rw [← hrest, hdt, List.cons_append]
  have happend := firstSecret_append hd (w.take i) (t ++ rest)
  rw [← hdrop, List.take_append_drop, hstart, List.length_take, Nat.min_eq_left (by omega)] at happend
  rw [happend]
  cases firstSecret (w.take i) with
  | some found => rfl
  | none => simp

/-- The first secret is the first occurrence of its marker. -/
theorem find_of_firstSecret {w : List Char} {m : String} {p : ℕ}
    (h : firstSecret w = some (p, m)) : findChars m.toList w = some p := by
  obtain ⟨hlt, hm, hprefix⟩ := firstSecret_spec h
  obtain ⟨i, hi, hle⟩ := exists_findChars_le hprefix hlt.le
  have hfirst := firstSecret_of_find hm hi
  rw [h] at hfirst
  cases htake : firstSecret (w.take i) with
  | none =>
    rw [htake, Option.some.injEq, Prod.mk.injEq] at hfirst
    rw [hi, hfirst.1]
  | some found =>
    rw [htake, Option.some.injEq] at hfirst
    subst hfirst
    have hbound := (firstSecret_spec htake).1
    rw [List.length_take] at hbound
    omega

/-! ## Words -/

section

variable {α : Type} {char : α → Char} {new : Char → α}

/-- The runs of cells between white space. -/
def words (char : α → Char) (cells : List α) : List (List α) :=
  cells.splitOnP fun a => isWhitespace (char a)

/-- The white space of a text. -/
def spaces (char : α → Char) (cells : List α) : List α :=
  cells.filter fun a => isWhitespace (char a)

/-- A word. -/
def IsWord (char : α → Char) (w : List α) : Prop := ∀ a ∈ w, isWhitespace (char a) = false

theorem words_of_isWord {w : List α} (hw : IsWord char w) : words char w = [w] :=
  List.splitOnP_eq_singleton hw

theorem words_append_cons {w : List α} {s : α} (hw : IsWord char w)
    (hs : isWhitespace (char s) = true) (rest : List α) :
    words char (w ++ s :: rest) = w :: words char rest :=
  List.splitOnP_append_cons_of_forall_mem hw s hs rest

theorem spaces_of_isWord {w : List α} (hw : IsWord char w) : spaces char w = [] := by
  rw [spaces, List.filter_eq_nil_iff]
  intro a ha
  simp [hw a ha]

theorem spaces_append_cons {w : List α} {s : α} (hw : IsWord char w)
    (hs : isWhitespace (char s) = true) (rest : List α) :
    spaces char (w ++ s :: rest) = s :: spaces char rest := by
  have hword := spaces_of_isWord hw
  rw [spaces] at hword
  rw [spaces, List.filter_append, hword, List.nil_append, List.filter_cons_of_pos (by simp [hs])]
  rfl

/-- A text is a word, or a word, white space and a text. -/
theorem wordInduction (char : α → Char) {P : List α → Prop} (hword : ∀ w, IsWord char w → P w)
    (hcons : ∀ w s rest, IsWord char w → isWhitespace (char s) = true → P rest →
      P (w ++ s :: rest)) (cells : List α) : P cells := by
  induction hlength : cells.length using Nat.strong_induction_on generalizing cells with
  | _ n ih =>
    subst hlength
    have hsplit := List.takeWhile_append_dropWhile
      (p := fun a => !isWhitespace (char a)) (l := cells)
    have hfront : IsWord char (cells.takeWhile fun a => !isWhitespace (char a)) := by
      intro a ha
      simpa using List.mem_takeWhile_imp ha
    cases hback : cells.dropWhile fun a => !isWhitespace (char a) with
    | nil =>
      rw [hback, List.append_nil] at hsplit
      rw [← hsplit]
      exact hword _ hfront
    | cons s rest =>
      have hs : isWhitespace (char s) = true := by
        have hhead := List.head?_dropWhile_not (fun a => !isWhitespace (char a)) cells
        rw [hback] at hhead
        simpa using hhead
      have hlt : rest.length < cells.length := by
        have hlength := congrArg List.length hsplit
        rw [hback, List.length_append, List.length_cons] at hlength
        omega
      rw [hback] at hsplit
      rw [← hsplit]
      exact hcons _ s rest hfront hs (ih _ hlt rest rfl)

/-- A text is determined by its words and its white space. -/
theorem eq_of_words {cells cells' : List α} (hwords : words char cells = words char cells')
    (hspaces : spaces char cells = spaces char cells') : cells = cells' := by
  have hjoin := List.splitOnP_spec (p := fun a => isWhitespace (char a)) cells
  have hjoin' := List.splitOnP_spec (p := fun a => isWhitespace (char a)) cells'
  rw [words, words] at hwords
  rw [spaces, spaces] at hspaces
  rw [hwords, hspaces] at hjoin
  exact hjoin.symm.trans hjoin'

/-- Cut the first word with the marker where the marker stands. -/
def cutFirst (char : α → Char) (new : Char → α) (marker : String) :
    List (List α) → List (List α)
  | [] => []
  | w :: ws =>
    match findChars marker.toList (w.map char) with
    | some i => (w.take i ++ redacted.map new) :: ws
    | none => w :: cutFirst char new marker ws

theorem isWord_redacted (hnew : ∀ c, char (new c) = c) : IsWord char (redacted.map new) := by
  intro a ha
  obtain ⟨c, hc, rfl⟩ := List.mem_map.mp ha
  have hredacted : ∀ c ∈ redacted, isWhitespace c = false := notWhitespace_of_all (by decide)
  rw [hnew]
  exact hredacted c hc

theorem isWord_cut (hnew : ∀ c, char (new c) = c) {w : List α} (hw : IsWord char w) (i : ℕ) :
    IsWord char (w.take i ++ redacted.map new) := by
  intro a ha
  rcases List.mem_append.mp ha with ha | ha
  · exact hw a (List.mem_of_mem_take ha)
  · exact isWord_redacted hnew a ha

theorem dropWhile_word {w : List α} (hw : IsWord char w) :
    w.dropWhile (fun a => !isWhitespace (char a)) = [] := by
  rw [List.dropWhile_eq_nil_iff]
  intro a ha
  rw [hw a ha]
  rfl

theorem dropWhile_word_append {w : List α} {s : α} (hw : IsWord char w)
    (hs : isWhitespace (char s) = true) (rest : List α) :
    (w ++ s :: rest).dropWhile (fun a => !isWhitespace (char a)) = s :: rest := by
  rw [List.dropWhile_append_of_pos fun a ha => by simp [hw a ha]]
  simp [hs]

theorem IsWord.drop {w : List α} (hw : IsWord char w) (i : ℕ) : IsWord char (w.drop i) :=
  fun a ha => hw a (List.mem_of_mem_drop ha)

/-- The turn of a marker cuts the first word with the marker, and leaves the white
space. -/
theorem words_redactMarker (hnew : ∀ c, char (new c) = c) {marker : String}
    (hmarker : marker ∈ secretMarkers) (cells : List α) :
    words char (redactMarker char new marker cells) = cutFirst char new marker (words char cells)
      ∧ spaces char (redactMarker char new marker cells) = spaces char cells := by
  obtain ⟨⟨d, t, hdt, -⟩, -, -, hspace⟩ := secretMarkers_apart marker hmarker
  have hne : marker.toList ≠ [] := by rw [hdt]; simp
  induction cells using wordInduction char with
  | hword w hw =>
    rw [words_of_isWord hw, spaces_of_isWord hw, redactMarker, cutFirst]
    cases findChars marker.toList (w.map char) with
    | none => exact ⟨words_of_isWord hw, spaces_of_isWord hw⟩
    | some i =>
      have hcut := isWord_cut hnew hw i
      dsimp only
      rw [dropWhile_word (hw.drop i), List.append_nil]
      exact ⟨words_of_isWord hcut, spaces_of_isWord hcut⟩
  | hcons w s rest hw hs ih =>
    have hno : char s ∉ marker.toList := fun h => by
      rw [hspace _ h] at hs
      cases hs
    have hfind := findChars_append_cons hno hne (w.map char) (rest.map char)
    rw [words_append_cons hw hs, spaces_append_cons hw hs, redactMarker, cutFirst, List.map_append,
      List.map_cons, hfind]
    cases hword : findChars marker.toList (w.map char) with
    | some i =>
      have hle := findChars_add_length_le hword
      rw [List.length_map] at hle
      have hcut := isWord_cut hnew hw i
      dsimp only
      rw [List.take_append_of_le_length (by omega), List.drop_append_of_le_length (by omega),
        dropWhile_word_append (hw.drop i) hs]
      exact ⟨words_append_cons hcut hs rest, spaces_append_cons hcut hs rest⟩
    | none =>
      dsimp only
      rw [redactMarker] at ih
      cases hrest : findChars marker.toList (rest.map char) with
      | none =>
        rw [hrest] at ih
        rw [Option.map_none]
        dsimp only at ih ⊢
        rw [words_append_cons hw hs, spaces_append_cons hw hs]
        exact ⟨congrArg (w :: ·) ih.1, rfl⟩
      | some i =>
        rw [hrest] at ih
        dsimp only at ih
        have hlength : (w.length + 1) = (w ++ [s]).length := by simp
        rw [Option.map_some]
        dsimp only
        rw [List.length_map, show w ++ s :: rest = (w ++ [s]) ++ rest by simp, hlength, Nat.add_comm,
          List.take_length_add_append, List.drop_length_add_append]
        have hassoc : ∀ l l' l'' : List α, w ++ [s] ++ l ++ l' ++ l'' = w ++ s :: (l ++ l' ++ l'') := by
          simp
        rw [hassoc, words_append_cons hw hs, spaces_append_cons hw hs, ih.1, ih.2]
        exact ⟨rfl, rfl⟩

end

/-! ## The turns of the markers -/

/-- The secret of the word starts with the marker. -/
def LedBy (marker : String) (w : List Char) : Prop := ∃ p, firstSecret w = some (p, marker)

/-- Every word whose secret starts with the marker is the first word with the marker. -/
def FirstInLine (marker : String) (ws : List (List Char)) : Prop :=
  ∀ front w back, ws = front ++ w :: back → LedBy marker w →
    ∀ v ∈ front, findChars marker.toList v = none

/-- When its turn comes, each marker is in this way first in line. -/
def InTurn : List String → List Char → Prop
  | [], _ => True
  | marker :: markers, output =>
    FirstInLine marker (words id output) ∧ InTurn markers (redactMarker id id marker output)

theorem ledBy_iff_of_find {m : String} {w : List Char} {i : ℕ} (hm : m ∈ secretMarkers)
    (h : findChars m.toList w = some i) (m' : String) :
    LedBy m' (w.take i ++ redacted.map id) ↔ LedBy m' w ∧ m' ≠ m := by
  have hfirst := firstSecret_of_find hm h
  rw [List.map_id, LedBy, LedBy, firstSecret_append_redacted]
  cases htake : firstSecret (w.take i) with
  | none =>
    rw [htake] at hfirst
    rw [hfirst]
    constructor
    · rintro ⟨p, ⟨⟩⟩
    · rintro ⟨⟨p, hp⟩, hne⟩
      cases hp
      exact absurd rfl hne
  | some found =>
    obtain ⟨q, m₀⟩ := found
    rw [htake] at hfirst
    dsimp only at hfirst
    rw [hfirst]
    refine ⟨fun hled => ⟨hled, ?_⟩, fun hled => hled.1⟩
    rintro rfl
    obtain ⟨p, hp⟩ := hled
    cases hp
    -- a marker in front of its first occurrence
    have hlt := (firstSecret_spec htake).1
    have hfind := find_of_firstSecret hfirst
    rw [h, Option.some.injEq] at hfind
    rw [List.length_take] at hlt
    omega

theorem LedBy.find {m : String} {w : List Char} (h : LedBy m w) :
    findChars m.toList w ≠ none := by
  obtain ⟨p, hp⟩ := h
  rw [find_of_firstSecret hp]
  simp

/-- The turn of another marker does not change the words that a marker leads. -/
theorem exists_ledBy_cutFirst_ne {m m' : String} (hm : m ∈ secretMarkers) (hne : m' ≠ m)
    (ws : List (List Char)) :
    (∃ w ∈ cutFirst id id m ws, LedBy m' w) ↔ ∃ w ∈ ws, LedBy m' w := by
  induction ws with
  | nil => rfl
  | cons w ws ih =>
    rw [cutFirst, List.map_id]
    cases hfind : findChars m.toList w with
    | some i =>
      have hled := ledBy_iff_of_find hm hfind m'
      simp only [List.exists_mem_cons_iff, hled, ne_eq, hne, not_false_eq_true, and_true]
    | none => simp only [List.exists_mem_cons_iff, ih]

/-- The turn of a marker is enough for the words it leads, if they are first in line. -/
theorem not_exists_ledBy_cutFirst {m : String} (hm : m ∈ secretMarkers)
    (ws : List (List Char)) :
    (¬ ∃ w ∈ cutFirst id id m ws, LedBy m w) ↔ FirstInLine m ws := by
  induction ws with
  | nil => simp [cutFirst, FirstInLine]
  | cons w ws ih =>
    rw [cutFirst, List.map_id]
    cases hfind : findChars m.toList w with
    | some i =>
      have hled := ledBy_iff_of_find hm hfind m
      simp only [List.exists_mem_cons_iff, hled, ne_eq, not_true_eq_false, and_false, false_or]
      constructor
      · rintro hno (_ | ⟨v, front⟩) w' back heq hled v' hv'
        · cases hv'
        · rw [List.cons_append, List.cons.injEq] at heq
          exact absurd ⟨w', by rw [heq.2]; simp, hled⟩ hno
      · rintro hline ⟨w', hw', hled'⟩
        obtain ⟨front, back, rfl⟩ := List.append_of_mem hw'
        have hnone := hline (w :: front) w' back rfl hled' w (by simp)
        rw [hfind] at hnone
        cases hnone
    | none =>
      have hnot : ¬ LedBy m w := fun h => h.find hfind
      simp only [List.exists_mem_cons_iff, hnot, false_or, ih]
      constructor
      · rintro hline (_ | ⟨v, front⟩) w' back heq hled v' hv'
        · cases hv'
        · rw [List.cons_append, List.cons.injEq] at heq
          obtain ⟨rfl, heq⟩ := heq
          rcases List.mem_cons.mp hv' with rfl | hv'
          · exact hfind
          · exact hline front w' back heq hled v' hv'
      · intro hline front w' back heq hled v' hv'
        exact hline (w :: front) w' back (by rw [heq]; rfl) hled v' (List.mem_cons_of_mem _ hv')

theorem exists_ledBy_foldl {markers : List String} (hmarkers : ∀ m ∈ markers, m ∈ secretMarkers)
    {m' : String} (hm' : m' ∉ markers) (output : List Char) :
    (∃ w ∈ words id (markers.foldl (fun o m => redactMarker id id m o) output), LedBy m' w)
      ↔ ∃ w ∈ words id output, LedBy m' w := by
  induction markers generalizing output with
  | nil => rfl
  | cons m markers ih =>
    rw [List.forall_mem_cons] at hmarkers
    rw [List.mem_cons, not_or] at hm'
    rw [List.foldl_cons, ih hmarkers.2 hm'.2,
      (words_redactMarker (fun _ => rfl) hmarkers.1 output).1,
      exists_ledBy_cutFirst_ne hmarkers.1 hm'.1]

/-- After the turns of some markers no word is led by one of them, exactly if each
was first in line. -/
theorem not_exists_ledBy_iff {markers : List String} (hnodup : markers.Nodup)
    (hmarkers : ∀ m ∈ markers, m ∈ secretMarkers) (output : List Char) :
    (∀ m ∈ markers, ¬ ∃ w ∈ words id (markers.foldl (fun o m => redactMarker id id m o) output),
        LedBy m w) ↔ InTurn markers output := by
  induction markers generalizing output with
  | nil => simp [InTurn]
  | cons m markers ih =>
    rw [List.forall_mem_cons] at hmarkers
    rw [List.nodup_cons] at hnodup
    rw [List.forall_mem_cons, List.foldl_cons, ih hnodup.2 hmarkers.2,
      exists_ledBy_foldl hmarkers.2 hnodup.1,
      (words_redactMarker (fun _ => rfl) hmarkers.1 output).1,
      not_exists_ledBy_cutFirst hmarkers.1, InTurn]

/-- After the loop no word has a marker, exactly if each marker was first in line. -/
theorem firstSecret_eq_none_iff (output : List Char) :
    (∀ w ∈ words id (secretMarkers.foldl (fun o m => redactMarker id id m o) output),
        firstSecret w = none) ↔ InTurn secretMarkers output := by
  rw [← not_exists_ledBy_iff (by decide) (fun m hm => hm) output]
  constructor
  · rintro hnone m hm ⟨w, hw, p, hp⟩
    rw [hnone w hw] at hp
    cases hp
  · intro hled w hw
    cases hfirst : firstSecret w with
    | none => rfl
    | some found =>
      obtain ⟨p, m⟩ := found
      exact absurd ⟨w, hw, p, hfirst⟩ (hled m (firstSecret_spec hfirst).2.1)

end CodexRouter
