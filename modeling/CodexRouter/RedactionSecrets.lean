/-
# What redaction leaves of the secrets

The turn of `Bearer ` cuts the word `Bearer`, not the token behind it, and the turn of
another marker cuts one word.  `secretsGone_spec` says for which texts this is enough.
-/
import CodexRouter.RedactionTurns

namespace CodexRouter

open Text

/-! ## The marks of a word -/

/-- `Bearer ` ends here; the characters before are given last one first. -/
def behindBearer (before : List Char) : Bool := "Bearer ".toList.reverse.isPrefixOf before

/-- The marks of a word: all of it as a token, else from its first marker on. -/
def markWord (token : Bool) (w : List Char) : List Cell :=
  let p := if token then 0 else ((firstSecret w).map Prod.fst).getD w.length
  (w.take p).map (Cell.mk · false) ++ (w.drop p).map (Cell.mk · true)

theorem behindBearer_cons {c : Char} (hc : c ≠ ' ') (before : List Char) :
    behindBearer (c :: before) = false := by
  rw [behindBearer, show "Bearer ".toList.reverse = ' ' :: "reraeB".toList from rfl,
    List.isPrefixOf_cons_cons]
  simp [Ne.symm hc]

theorem ne_space {c : Char} (hc : isWhitespace c = false) : c ≠ ' ' := by
  rintro rfl
  revert hc
  decide

theorem markFrom_inside {w : List Char} (hw : IsWord id w) (before : List Char) :
    markFrom before true w = w.map (Cell.mk · true) := by
  induction w generalizing before with
  | nil => rfl
  | cons c w ih =>
    have hc : isWhitespace c = false := hw c List.mem_cons_self
    rw [markFrom, hc, Bool.not_false, Bool.true_or, Bool.and_true,
      ih (fun a ha => hw a (List.mem_cons_of_mem _ ha))]
    rfl

theorem markFrom_outside {w : List Char} (hw : IsWord id w) {before : List Char}
    (hbefore : behindBearer before = false) :
    markFrom before false w = markWord false w := by
  induction w generalizing before with
  | nil => rfl
  | cons c w ih =>
    have hc : isWhitespace c = false := hw c List.mem_cons_self
    have htail : IsWord id w := fun a ha => hw a (List.mem_cons_of_mem _ ha)
    rw [behindBearer] at hbefore
    rw [markFrom, hc, hbefore, Bool.not_false, Bool.true_and, Bool.or_false, Bool.false_or, markWord,
      firstSecret]
    cases hstart : startsSecret (c :: w) with
    | some m =>
      rw [Option.isSome_some, markFrom_inside htail]
      rfl
    | none =>
      rw [Option.isSome_none, ih htail (behindBearer_cons (ne_space hc) before), markWord]
      cases firstSecret w with
      | none => simp
      | some found => simp

theorem markFrom_word {w : List Char} (hw : IsWord id w) (before : List Char) :
    markFrom before false w = markWord (behindBearer before) w := by
  cases hbefore : behindBearer before with
  | false => exact markFrom_outside hw hbefore
  | true =>
    cases w with
    | nil => rfl
    | cons c w =>
      have hc : isWhitespace c = false := hw c List.mem_cons_self
      rw [behindBearer] at hbefore
      rw [markFrom, hc, hbefore, Bool.not_false, Bool.true_and, Bool.or_true, Bool.or_true,
        markFrom_inside fun a ha => hw a (List.mem_cons_of_mem _ ha)]
      rfl

theorem startsSecret_append_cons {s : Char} (hs : isWhitespace s = true) (u rest : List Char) :
    startsSecret (u ++ s :: rest) = startsSecret u := by
  refine List.find?_congr fun m hm => ?_
  have hno : s ∉ m.toList.drop u.length := fun h => by
    rw [(secretMarkers_apart m hm).2.2.2 s (List.mem_of_mem_drop h)] at hs
    cases hs
  rw [Bool.eq_iff_iff, List.isPrefixOf_iff_prefix, List.isPrefixOf_iff_prefix,
    prefix_append_cons_iff hno]

/-- The marks of a text, word by word. -/
theorem markFrom_append_cons (w : List Char) {s : Char} (hs : isWhitespace s = true)
    (before : List Char) (inside : Bool) (rest : List Char) :
    markFrom before inside (w ++ s :: rest)
      = markFrom before inside w ++ ⟨s, false⟩ :: markFrom (s :: (w.reverse ++ before)) false rest := by
  induction w generalizing before inside with
  | nil =>
    simp [markFrom, hs]
  | cons c w ih =>
    rw [List.cons_append, markFrom, ← List.cons_append, startsSecret_append_cons hs, ih, markFrom,
      List.reverse_cons, List.append_assoc]
    rfl

theorem char_markWord (token : Bool) (w : List Char) : (markWord token w).map Cell.char = w := by
  simp only [markWord, List.map_append, List.map_map, Function.comp_def, List.map_id',
    List.take_append_drop]

theorem isWord_markWord {w : List Char} (hw : IsWord id w) (token : Bool) :
    IsWord Cell.char (markWord token w) := by
  intro c hc
  have hmem := List.mem_map_of_mem (f := Cell.char) hc
  rw [char_markWord] at hmem
  exact hw _ hmem

/-! ## What is left of the marks -/

/-- A word that is marked from its first marker on, and not in front of it. -/
def Flagged (w : List Cell) : Prop :=
  match firstSecret (w.map Cell.char) with
  | none => ∀ c ∈ w, c.secret = false
  | some (p, _) => (∀ c ∈ w.take p, c.secret = false) ∧ ∃ c, w[p]? = some c ∧ c.secret = true

/-- A word that is marked from its start on, where no marker stands. -/
def Exposed (w : List Cell) : Prop :=
  w.head?.any Cell.secret = true ∧ ∀ m, firstSecret (w.map Cell.char) ≠ some (0, m)

theorem Flagged.of_none {w : List Cell} (hfirst : firstSecret (w.map Cell.char) = none)
    (h : ∀ c ∈ w, c.secret = false) : Flagged w := by
  rw [Flagged, hfirst]
  exact h

theorem Flagged.of_some {w : List Cell} {p : ℕ} {m : String} {c : Cell}
    (hfirst : firstSecret (w.map Cell.char) = some (p, m))
    (hfront : ∀ c ∈ w.take p, c.secret = false) (hc : w[p]? = some c) (hsecret : c.secret = true) :
    Flagged w := by
  rw [Flagged, hfirst]
  exact ⟨hfront, c, hc, hsecret⟩

/-- A marked word has no secret left exactly if it has no marker left. -/
theorem Flagged.clean_iff {w : List Cell} (h : Flagged w) :
    (∀ c ∈ w, c.secret = false) ↔ firstSecret (w.map Cell.char) = none := by
  rw [Flagged] at h
  cases hfirst : firstSecret (w.map Cell.char) with
  | none =>
    rw [hfirst] at h
    exact iff_of_true h rfl
  | some found =>
    obtain ⟨p, m⟩ := found
    rw [hfirst] at h
    obtain ⟨-, c, hc, hsecret⟩ := h
    refine iff_of_false (fun hclean => ?_) (by simp)
    rw [hclean c (List.mem_of_getElem? hc)] at hsecret
    cases hsecret

theorem char_cut (w : List Cell) (i : ℕ) :
    (w.take i ++ redacted.map Cell.inserted).map Cell.char
      = (w.map Cell.char).take i ++ redacted := by
  rw [List.map_append, List.map_take, List.map_map]
  exact congrArg _ (List.map_id redacted)

theorem inserted_clean {c : Cell} (hc : c ∈ redacted.map Cell.inserted) : c.secret = false := by
  obtain ⟨x, -, rfl⟩ := List.mem_map.mp hc
  rfl

/-- Cutting keeps a marked word marked, if nothing in front of the cut is taken for a
new secret. -/
theorem flagged_cut {w : List Cell} {i : ℕ} (h : Flagged w) (hi : i ≤ w.length)
    (hfirst : ∀ found, firstSecret ((w.map Cell.char).take i) = some found →
      firstSecret (w.map Cell.char) = some found)
    (hnone : firstSecret ((w.map Cell.char).take i) = none →
      ∀ found, firstSecret (w.map Cell.char) = some found → i ≤ found.1) :
    Flagged (w.take i ++ redacted.map Cell.inserted) := by
  have hchars : firstSecret ((w.take i ++ redacted.map Cell.inserted).map Cell.char)
      = firstSecret ((w.map Cell.char).take i) := by
    rw [char_cut, firstSecret_append_redacted]
  rw [Flagged] at h
  cases htake : firstSecret ((w.map Cell.char).take i) with
  | none =>
    refine Flagged.of_none (hchars.trans htake) fun c hc => ?_
    rcases List.mem_append.mp hc with hc | hc
    · cases hw : firstSecret (w.map Cell.char) with
      | none =>
        rw [hw] at h
        exact h c (List.mem_of_mem_take hc)
      | some found =>
        rw [hw] at h
        exact h.1 c (List.take_subset_take_left w (hnone htake found hw) hc)
    · exact inserted_clean hc
  | some found =>
    obtain ⟨p, m⟩ := found
    have hlt := (firstSecret_spec htake).1
    rw [List.length_take, List.length_map, Nat.min_eq_left hi] at hlt
    rw [hfirst _ htake] at h
    obtain ⟨hfront, c, hc, hsecret⟩ := h
    have hlength : p < (w.take i).length := by rw [List.length_take]; omega
    refine Flagged.of_some (hchars.trans htake) (fun c hc => ?_) ?_ hsecret
    · rw [List.take_append_of_le_length hlength.le, List.take_take, Nat.min_eq_left hlt.le] at hc
      exact hfront c hc
    · rw [List.getElem?_append_left hlength, List.getElem?_take_of_lt hlt, hc]

theorem flagged_cut_marker {w : List Cell} {m : String} {i : ℕ} (hm : m ∈ secretMarkers)
    (h : Flagged w) (hfind : findChars m.toList (w.map Cell.char) = some i) :
    Flagged (w.take i ++ redacted.map Cell.inserted) := by
  have hle := findChars_add_length_le hfind
  have hfirst := firstSecret_of_find hm hfind
  rw [List.length_map] at hle
  refine flagged_cut h (by omega) (fun found htake => ?_) fun htake found hw => ?_
  · rw [hfirst, htake]
  · rw [htake, hw, Option.some.injEq] at hfirst
    rw [hfirst]

theorem exposed_cut_marker {w : List Cell} {m : String} {i : ℕ} (hm : m ∈ secretMarkers)
    (h : Exposed w) (hfind : findChars m.toList (w.map Cell.char) = some i) :
    Exposed (w.take i ++ redacted.map Cell.inserted) := by
  have hfirst := firstSecret_of_find hm hfind
  obtain ⟨hhead, hno⟩ := h
  cases i with
  | zero => exact absurd hfirst (hno m)
  | succ i =>
    cases w with
    | nil => cases hhead
    | cons c w =>
      refine ⟨hhead, fun m' heq => ?_⟩
      rw [char_cut, firstSecret_append_redacted] at heq
      rw [heq] at hfirst
      exact hno m' hfirst

/-- What holds of the words before the turn of a marker, and of the words it cuts,
holds of the words after it. -/
theorem forall_mem_cutFirst {P : List Cell → Prop} {m : String} {ws : List (List Cell)}
    (hcut : ∀ w i, P w → findChars m.toList (w.map Cell.char) = some i →
      P (w.take i ++ redacted.map Cell.inserted)) (h : ∀ w ∈ ws, P w) :
    ∀ w ∈ cutFirst Cell.char Cell.inserted m ws, P w := by
  induction ws with
  | nil => exact h
  | cons w ws ih =>
    rw [List.forall_mem_cons] at h
    rw [cutFirst]
    cases hfind : findChars m.toList (w.map Cell.char) with
    | some i => exact List.forall_mem_cons.mpr ⟨hcut w i h.1 hfind, h.2⟩
    | none => exact List.forall_mem_cons.mpr ⟨h.1, ih h.2⟩

theorem exists_mem_cutFirst {P : List Cell → Prop} {m : String} {ws : List (List Cell)}
    (hcut : ∀ w i, P w → findChars m.toList (w.map Cell.char) = some i →
      P (w.take i ++ redacted.map Cell.inserted)) (h : ∃ w ∈ ws, P w) :
    ∃ w ∈ cutFirst Cell.char Cell.inserted m ws, P w := by
  induction ws with
  | nil => exact h
  | cons w ws ih =>
    rw [cutFirst]
    rw [List.exists_mem_cons_iff] at h
    cases hfind : findChars m.toList (w.map Cell.char) with
    | some i =>
      rw [List.exists_mem_cons_iff]
      exact h.imp (hcut w i · hfind) id
    | none =>
      rw [List.exists_mem_cons_iff]
      exact h.imp id ih

theorem words_foldl {P : List Cell → Prop} {markers : List String}
    (hmarkers : ∀ m ∈ markers, m ∈ secretMarkers)
    (hcut : ∀ m ∈ secretMarkers, ∀ w i, P w → findChars m.toList (w.map Cell.char) = some i →
      P (w.take i ++ redacted.map Cell.inserted)) (cells : List Cell) :
    ((∀ w ∈ words Cell.char cells, P w) → ∀ w ∈ words Cell.char
        (markers.foldl (fun o m => redactMarker Cell.char Cell.inserted m o) cells), P w)
      ∧ ((∃ w ∈ words Cell.char cells, P w) → ∃ w ∈ words Cell.char
        (markers.foldl (fun o m => redactMarker Cell.char Cell.inserted m o) cells), P w) := by
  induction markers generalizing cells with
  | nil => exact ⟨id, id⟩
  | cons m markers ih =>
    rw [List.forall_mem_cons] at hmarkers
    have hwords := (words_redactMarker inserted_char hmarkers.1 cells).1
    rw [List.foldl_cons]
    refine ⟨fun h => (ih hmarkers.2 _).1 ?_, fun h => (ih hmarkers.2 _).2 ?_⟩
    · rw [hwords]
      exact forall_mem_cutFirst (hcut m hmarkers.1) h
    · rw [hwords]
      exact exists_mem_cutFirst (hcut m hmarkers.1) h

/-! ## The turn of `Bearer ` -/

section

variable {α : Type} {char : α → Char} {new : Char → α}

theorem bearer_prefix_iff {w : List Char} (hw : IsWord id w) {s : Char}
    (hs : isWhitespace s = true) (rest : List Char) :
    "Bearer ".toList <+: w ++ s :: rest ↔ s = ' ' ∧ w = "Bearer".toList := by
  have hbearer : "Bearer ".toList = "Bearer".toList ++ [' '] := rfl
  constructor
  · intro h
    have hspace : ' ' ∉ w := fun hmem => absurd (hw ' ' hmem) (by decide)
    rw [hbearer] at h
    rcases Nat.lt_trichotomy w.length 6 with hlt | heq | hgt
    · -- the white space behind `w` would be a character of `Bearer`
      have hmem : s ∈ "Bearer".toList := by
        have hfront : w ++ [s] <+: w ++ s :: rest := ⟨rest, by simp⟩
        have hprefix : w ++ [s] <+: "Bearer".toList := by
          refine List.prefix_of_prefix_length_le hfront ((List.prefix_append _ _).trans h) ?_
          rw [List.length_append]
          exact hlt
        exact hprefix.subset (by simp)
      have hall : ∀ c ∈ "Bearer".toList, isWhitespace c = false := notWhitespace_of_all (by decide)
      rw [hall s hmem] at hs
      cases hs
    · obtain ⟨t, ht⟩ := h
      rw [List.append_assoc] at ht
      obtain ⟨hfront, hback⟩ := List.append_inj ht (by rw [heq]; rfl)
      rw [List.singleton_append, List.cons.injEq] at hback
      exact ⟨hback.1.symm, hfront.symm⟩
    · have hfront : "Bearer".toList ++ [' '] <+: w := by
        refine List.prefix_of_prefix_length_le h (List.prefix_append _ _) ?_
        exact hgt
      exact absurd (hfront.subset (by simp)) hspace
  · rintro ⟨rfl, rfl⟩
    exact ⟨rest, by simp⟩

/-- Where `Bearer ` stands first: at the end of the first word, or further on. -/
theorem findChars_bearer {w : List Char} (hw : IsWord id w) {s : Char}
    (hs : isWhitespace s = true) (rest : List Char) :
    findChars "Bearer ".toList (w ++ s :: rest)
      = if s = ' ' ∧ "Bearer".toList <:+ w then some (w.length - 6)
        else (findChars "Bearer ".toList rest).map (· + (w.length + 1)) := by
  induction w with
  | nil =>
    have hno : ¬ "Bearer ".toList <+: [] ++ s :: rest := by
      rw [bearer_prefix_iff hw hs]
      rintro ⟨-, h⟩
      cases h
    rw [List.nil_append] at hno ⊢
    rw [findChars, if_neg (by rwa [List.isPrefixOf_iff_prefix]), if_neg (by simp)]
    rfl
  | cons c w ih =>
    have hprefix := bearer_prefix_iff hw hs rest
    rw [List.cons_append] at hprefix ⊢
    have hrest := ih fun a ha => hw a (List.mem_cons_of_mem _ ha)
    rw [findChars]
    split
    · rename_i hfront
      obtain ⟨rfl, hword⟩ := hprefix.mp (List.isPrefixOf_iff_prefix.mp hfront)
      rw [hword, if_pos ⟨rfl, List.suffix_rfl⟩]
      rfl
    · rename_i hfront
      rw [List.isPrefixOf_iff_prefix, hprefix] at hfront
      rw [hrest, List.length_cons]
      have hiff : (s = ' ' ∧ "Bearer".toList <:+ c :: w) ↔ s = ' ' ∧ "Bearer".toList <:+ w := by
        rw [List.suffix_cons_iff]
        constructor
        · rintro ⟨rfl, heq | hsuffix⟩
          · exact absurd ⟨rfl, heq.symm⟩ hfront
          · exact ⟨rfl, hsuffix⟩
        · rintro ⟨rfl, hsuffix⟩
          exact ⟨rfl, .inr hsuffix⟩
      by_cases hcut : s = ' ' ∧ "Bearer".toList <:+ w
      · have hle := hcut.2.length_le
        rw [if_pos hcut, if_pos (hiff.mpr hcut), Option.map_some]
        have hsix : "Bearer".toList.length = 6 := rfl
        congr 1
        omega
      · rw [if_neg hcut, if_neg (fun h => hcut (hiff.mp h)), Option.map_map]
        rfl

theorem redactMarker_bearer_word {w : List α} (hw : IsWord char w) :
    redactMarker char new "Bearer " w = w := by
  unfold redactMarker
  cases hfind : findChars "Bearer ".toList (w.map char) with
  | none => rfl
  | some i =>
    have hmem := (findChars_spec hfind).subset (by decide : ' ' ∈ "Bearer ".toList)
    obtain ⟨a, ha, hspace⟩ := List.mem_map.mp (List.mem_of_mem_drop hmem)
    have hno := hw a ha
    rw [hspace] at hno
    exact absurd hno (by decide)

/-- The turn of `Bearer ` cuts the first word that ends in `Bearer` and has a space
behind it. -/
theorem redactMarker_bearer_append {w : List α} {s : α} (hw : IsWord char w)
    (hs : isWhitespace (char s) = true) (rest : List α) :
    redactMarker char new "Bearer " (w ++ s :: rest)
      = if char s = ' ' ∧ "Bearer".toList <:+ w.map char then
          w.take (w.length - 6) ++ redacted.map new ++ s :: rest
        else w ++ s :: redactMarker char new "Bearer " rest := by
  have hchars : IsWord id (w.map char) := by
    rintro c hc
    obtain ⟨a, ha, rfl⟩ := List.mem_map.mp hc
    exact hw a ha
  rw [redactMarker, List.map_append, List.map_cons, findChars_bearer hchars hs, List.length_map]
  by_cases hcut : char s = ' ' ∧ "Bearer".toList <:+ w.map char
  · rw [if_pos hcut, if_pos hcut]
    dsimp only
    rw [List.take_append_of_le_length (by omega), List.drop_append_of_le_length (by omega),
      dropWhile_word_append (hw.drop _) hs]
  · rw [if_neg hcut, if_neg hcut, redactMarker]
    cases findChars "Bearer ".toList (rest.map char) with
    | none => rfl
    | some i =>
      have hlength : w.length + 1 = (w ++ [s]).length := by simp
      rw [Option.map_some]
      dsimp only
      rw [show w ++ s :: rest = (w ++ [s]) ++ rest by simp, hlength, Nat.add_comm,
        List.take_length_add_append, List.drop_length_add_append]
      simp

end

theorem flagged_redactMarker_bearer {cells : List Cell} (h : ∀ w ∈ words Cell.char cells, Flagged w) :
    ∀ w ∈ words Cell.char (redactMarker Cell.char Cell.inserted "Bearer " cells), Flagged w := by
  induction cells using wordInduction Cell.char with
  | hword w hw => rwa [redactMarker_bearer_word hw]
  | hcons w s rest hw hs ih =>
    rw [words_append_cons hw hs, List.forall_mem_cons] at h
    rw [redactMarker_bearer_append hw hs]
    split
    · rename_i hcut
      obtain ⟨u, hu⟩ := hcut.2
      have hlength : w.length - 6 = u.length := by
        have hlen := congrArg List.length hu
        rw [List.length_append, List.length_map, show "Bearer".toList.length = 6 from rfl] at hlen
        omega
      have hfirst : firstSecret ((w.map Cell.char).take (w.length - 6))
          = firstSecret (w.map Cell.char) := by
        rw [hlength, ← hu, List.take_left, firstSecret_append_bearer]
      have hflag : Flagged (w.take (w.length - 6) ++ redacted.map Cell.inserted) := by
        refine flagged_cut h.1 (by omega) (fun found htake => hfirst ▸ htake) fun htake found hw => ?_
        rw [← hfirst, htake] at hw
        cases hw
      rw [words_append_cons (isWord_cut inserted_char hw _) hs]
      exact List.forall_mem_cons.mpr ⟨hflag, h.2⟩
    · rw [words_append_cons hw hs]
      exact List.forall_mem_cons.mpr ⟨h.1, ih h.2⟩

theorem firstSecret_eq_zero_iff {w : List Char} {m : String} :
    firstSecret w = some (0, m) ↔ w ≠ [] ∧ startsSecret w = some m := by
  cases w with
  | nil => simp [firstSecret]
  | cons c w =>
    rw [firstSecret]
    cases startsSecret (c :: w) <;> simp

/-- Exposed is a token in which no marker stands at the start. -/
theorem exposed_markWord_iff {token : Bool} {w : List Char} :
    Exposed (markWord token w) ↔ token = true ∧ w ≠ [] ∧ startsSecret w = none := by
  have hfirst : (∀ m, firstSecret w ≠ some (0, m)) ↔ w = [] ∨ startsSecret w = none := by
    constructor
    · intro h
      by_contra hno
      rw [not_or] at hno
      obtain ⟨m, hm⟩ := Option.ne_none_iff_exists'.mp hno.2
      exact h m (firstSecret_eq_zero_iff.mpr ⟨hno.1, hm⟩)
    · rintro h m hm
      rw [firstSecret_eq_zero_iff] at hm
      rcases h with h | h
      · exact hm.1 h
      · rw [h] at hm
        cases hm.2
  rw [Exposed, char_markWord, hfirst, markWord]
  cases w with
  | nil => cases token <;> simp
  | cons c w =>
    cases token with
    | true => simp
    | false =>
      cases hsecret : firstSecret (c :: w) with
      | none => simp
      | some found =>
        obtain ⟨p, m⟩ := found
        cases p with
        | zero =>
          rw [firstSecret_eq_zero_iff] at hsecret
          simp [hsecret.2]
        | succ p => simp

/-- The marks of a word that is not exposed go from its first marker on. -/
theorem markWord_of_none {token : Bool} {w : List Char} (h : ¬ Exposed (markWord token w))
    (hfirst : firstSecret w = none) : markWord token w = w.map (Cell.mk · false) := by
  rw [exposed_markWord_iff] at h
  cases token with
  | false => simp [markWord, hfirst]
  | true =>
    cases w with
    | nil => rfl
    | cons x w =>
      rw [firstSecret] at hfirst
      split at hfirst
      · cases hfirst
      · rename_i hstart
        exact absurd ⟨rfl, by simp, hstart⟩ h

theorem markWord_of_some {token : Bool} {w : List Char} (h : ¬ Exposed (markWord token w)) {p : ℕ}
    {m : String} (hfirst : firstSecret w = some (p, m)) :
    markWord token w = (w.take p).map (Cell.mk · false) ++ (w.drop p).map (Cell.mk · true) := by
  rw [exposed_markWord_iff] at h
  cases token with
  | false => simp [markWord, hfirst]
  | true =>
    have hne : w ≠ [] := by
      rintro rfl
      cases hfirst
    have hstart : startsSecret w ≠ none := fun hno => h ⟨rfl, hne, hno⟩
    obtain ⟨m', hm'⟩ := Option.ne_none_iff_exists'.mp hstart
    rw [firstSecret_eq_zero_iff.mpr ⟨hne, hm'⟩] at hfirst
    cases hfirst
    rfl

theorem flagged_markWord {token : Bool} {w : List Char} (h : ¬ Exposed (markWord token w)) :
    Flagged (markWord token w) := by
  cases hfirst : firstSecret w with
  | none =>
    refine Flagged.of_none (by rw [char_markWord, hfirst]) fun c hc => ?_
    rw [markWord_of_none h hfirst] at hc
    obtain ⟨x, -, rfl⟩ := List.mem_map.mp hc
    rfl
  | some found =>
    obtain ⟨p, m⟩ := found
    have hlt := (firstSecret_spec hfirst).1
    have hlength : ((w.take p).map (Cell.mk · false)).length = p := by
      rw [List.length_map, List.length_take, Nat.min_eq_left hlt.le]
    refine Flagged.of_some (by rw [char_markWord, hfirst]) (fun c hc => ?_) (c := ⟨w[p], true⟩) ?_ rfl
    · rw [markWord_of_some h hfirst, List.take_left' hlength] at hc
      obtain ⟨x, -, rfl⟩ := List.mem_map.mp hc
      rfl
    · rw [markWord_of_some h hfirst, List.getElem?_append_right hlength.le, hlength, Nat.sub_self,
        List.getElem?_map, List.getElem?_drop, Nat.add_zero, List.getElem?_eq_getElem hlt]
      rfl

/-- The characters before a word end in white space. -/
def AtWordStart (before : List Char) : Prop := ∀ c, before.head? = some c → isWhitespace c = true

theorem behindBearer_space {w before : List Char} (hbefore : AtWordStart before)
    (h : behindBearer (' ' :: (w.reverse ++ before)) = true) : "Bearer".toList <:+ w := by
  rw [behindBearer, show "Bearer ".toList.reverse = ' ' :: "Bearer".toList.reverse from rfl,
    List.isPrefixOf_cons_cons, Bool.and_eq_true, List.isPrefixOf_iff_prefix] at h
  cases before with
  | nil =>
    rw [List.append_nil] at h
    exact List.reverse_prefix.mp h.2
  | cons c before =>
    have hc := hbefore c rfl
    have hno : c ∉ "Bearer".toList.reverse.drop w.reverse.length := fun hmem => by
      have hall : ∀ c ∈ "Bearer".toList.reverse, isWhitespace c = false := notWhitespace_of_all (by decide)
      rw [hall c (List.mem_of_mem_drop hmem)] at hc
      cases hc
    exact List.reverse_prefix.mp ((prefix_append_cons_iff hno).mp h.2)

/-- The turn of `Bearer ` exposes no less: up to the word it cuts no word is a token. -/
theorem exposed_redactMarker_bearer (cs : List Char) {before : List Char}
    (hbefore : AtWordStart before) (hbearer : behindBearer before = false)
    (h : ∃ w ∈ words Cell.char (markFrom before false cs), Exposed w) :
    ∃ w ∈ words Cell.char
      (redactMarker Cell.char Cell.inserted "Bearer " (markFrom before false cs)), Exposed w := by
  induction cs using wordInduction id generalizing before with
  | hword w hw =>
    rw [markFrom_word hw] at h ⊢
    rwa [redactMarker_bearer_word (isWord_markWord hw _)]
  | hcons w s rest hw hs ih =>
    rw [id_eq] at hs
    have hcells : IsWord Cell.char (markWord (behindBearer before) w) := isWord_markWord hw _
    have hspace : isWhitespace (Cell.char ⟨s, false⟩) = true := hs
    rw [markFrom_append_cons w hs, markFrom_word hw, words_append_cons hcells hspace,
      List.exists_mem_cons_iff, exposed_markWord_iff, hbearer] at h
    rw [markFrom_append_cons w hs, markFrom_word hw, redactMarker_bearer_append hcells hspace,
      char_markWord]
    have hrest := h.resolve_left (by simp)
    split
    · rw [words_append_cons (isWord_cut inserted_char hcells _) hspace, List.exists_mem_cons_iff]
      exact .inr hrest
    · rename_i hcut
      rw [words_append_cons hcells hspace, List.exists_mem_cons_iff]
      have hstart : AtWordStart (s :: (w.reverse ++ before)) := by
        rintro c ⟨⟩
        exact hs
      refine .inr (ih hstart ?_ hrest)
      cases hbehind : behindBearer (s :: (w.reverse ++ before)) with
      | false => rfl
      | true =>
        have hblank : s = ' ' := by
          by_contra hne
          rw [behindBearer_cons hne] at hbehind
          cases hbehind
        rw [hblank] at hbehind
        exact absurd ⟨hblank, behindBearer_space hbefore hbehind⟩ hcut

/-! ## Tokens behind `Bearer ` -/

/-- Every token that `Bearer ` announces starts with a marker. -/
def TokensStart (text : List Char) : Prop :=
  ∀ front c rest, text = front ++ "Bearer ".toList ++ c :: rest → isWhitespace c = false →
    startsSecret (c :: rest) ≠ none

/-- The same behind some characters. -/
def TokensFrom (before cs : List Char) : Prop :=
  ∀ front c rest, cs = front ++ c :: rest → behindBearer (front.reverse ++ before) = true →
    isWhitespace c = false → startsSecret (c :: rest) ≠ none

theorem tokensStart_iff (text : List Char) : TokensStart text ↔ TokensFrom [] text := by
  constructor
  · intro h front c rest heq hbehind hc
    rw [List.append_nil, behindBearer, List.isPrefixOf_iff_prefix, List.reverse_prefix] at hbehind
    obtain ⟨front, rfl⟩ := hbehind
    exact h front c rest heq hc
  · intro h front c rest heq hc
    refine h _ c rest heq ?_ hc
    rw [List.append_nil, behindBearer, List.isPrefixOf_iff_prefix, List.reverse_prefix]
    exact List.suffix_append _ _

/-- No character of a word but the first stands behind `Bearer `. -/
theorem behindBearer_inside {w : List Char} (hw : IsWord id w) (hne : w ≠ [])
    (before : List Char) : behindBearer (w.reverse ++ before) = false := by
  cases hrev : w.reverse with
  | nil => exact absurd (List.reverse_eq_nil_iff.mp hrev) hne
  | cons c rest =>
    have hc : c ∈ w := by rw [← List.mem_reverse, hrev]; exact List.mem_cons_self
    exact behindBearer_cons (ne_space (hw c hc)) _

theorem tokensFrom_word {w : List Char} (hw : IsWord id w) (before : List Char) :
    TokensFrom before w ↔ (behindBearer before = true → w ≠ [] → startsSecret w ≠ none) := by
  constructor
  · intro h hbefore hne
    obtain ⟨c, rest, rfl⟩ := List.exists_cons_of_ne_nil hne
    exact h [] c rest rfl hbefore (hw c List.mem_cons_self)
  · rintro h front c rest rfl hbehind hc
    rcases List.eq_nil_or_concat' front with rfl | ⟨front', x, rfl⟩
    · exact h hbehind (by simp)
    · rw [behindBearer_inside (fun a ha => hw a (List.mem_append_left _ ha)) (by simp)] at hbehind
      cases hbehind

theorem tokensFrom_append_cons {w : List Char} (hw : IsWord id w) {s : Char}
    (hs : isWhitespace s = true) (before rest : List Char) :
    TokensFrom before (w ++ s :: rest)
      ↔ TokensFrom before w ∧ TokensFrom (s :: (w.reverse ++ before)) rest := by
  constructor
  · intro h
    constructor
    · rintro front c back rfl hbehind hc
      have hstart := h front c (back ++ s :: rest) (by simp) hbehind hc
      rwa [← List.cons_append, startsSecret_append_cons hs] at hstart
    · rintro front c back rfl hbehind hc
      refine h (w ++ s :: front) c back (by simp) ?_ hc
      simpa using hbehind
  · rintro ⟨hword, hrest⟩ front c back heq hbehind hc
    rcases List.append_eq_append_iff.mp heq with ⟨l, rfl, hl⟩ | ⟨l, rfl, hl⟩
    · cases l with
      | nil =>
        rw [List.nil_append, List.cons.injEq] at hl
        rw [← hl.1, hs] at hc
        cases hc
      | cons x l =>
        rw [List.cons_append, List.cons.injEq] at hl
        obtain ⟨rfl, rfl⟩ := hl
        exact hrest l c back rfl (by simpa using hbehind) hc
    · cases l with
      | nil =>
        rw [List.nil_append, List.cons.injEq] at hl
        rw [hl.1, hs] at hc
        cases hc
      | cons x l =>
        rw [List.cons_append, List.cons.injEq] at hl
        obtain ⟨rfl, rfl⟩ := hl
        rw [← List.cons_append, startsSecret_append_cons hs]
        exact hword front c l rfl hbehind hc

/-- No word is exposed exactly if every token starts with a marker. -/
theorem tokensFrom_iff (before cs : List Char) :
    TokensFrom before cs
      ↔ ∀ w ∈ words Cell.char (markFrom before false cs), ¬ Exposed w := by
  have hiff : ∀ {w : List Char}, IsWord id w → ∀ before,
      TokensFrom before w ↔ ¬ Exposed (markWord (behindBearer before) w) := by
    intro w hw before
    rw [tokensFrom_word hw, exposed_markWord_iff]
    simp only [not_and, ne_eq]
  induction cs using wordInduction id generalizing before with
  | hword w hw =>
    rw [hiff hw, markFrom_word hw, words_of_isWord (isWord_markWord hw _), List.forall_mem_singleton]
  | hcons w s rest hw hs ih =>
    rw [id_eq] at hs
    have hspace : isWhitespace (Cell.char ⟨s, false⟩) = true := hs
    rw [tokensFrom_append_cons hw hs, hiff hw, markFrom_append_cons w hs, markFrom_word hw,
      words_append_cons (isWord_markWord hw _) hspace, List.forall_mem_cons]
    exact and_congr_right fun _ => ih (s :: (w.reverse ++ before))

/-! ## The loop -/

/-- Every token behind `Bearer ` starts with a marker, and when its turn comes, each
marker is first in line. -/
def SecretsInTurn (text : String) : Prop :=
  TokensStart text.toList ∧ InTurn secretMarkers (redactMarker id id "Bearer " text.toList)

/-- The words of the characters are the characters of the words. -/
theorem words_map_char (cells : List Cell) :
    words id (cells.map Cell.char) = (words Cell.char cells).map (List.map Cell.char) := by
  induction cells using wordInduction Cell.char with
  | hword w hw =>
    have hchars : IsWord id (w.map Cell.char) := by
      rintro c hc
      obtain ⟨a, ha, rfl⟩ := List.mem_map.mp hc
      exact hw a ha
    rw [words_of_isWord hw, words_of_isWord hchars]
    rfl
  | hcons w s rest hw hs ih =>
    have hchars : IsWord id (w.map Cell.char) := by
      rintro c hc
      obtain ⟨a, ha, rfl⟩ := List.mem_map.mp hc
      exact hw a ha
    have hspace : isWhitespace (id s.char) = true := hs
    rw [List.map_append, List.map_cons, words_append_cons hchars hspace, words_append_cons hw hs, ih]
    rfl

/-- White space is never secret. -/
theorem markFrom_space {before : List Char} {inside : Bool} {cs : List Char} {c : Cell}
    (hc : c ∈ markFrom before inside cs) (hs : isWhitespace c.char = true) : c.secret = false := by
  induction cs generalizing before inside with
  | nil => cases hc
  | cons d cs ih =>
    rw [markFrom, List.mem_cons] at hc
    rcases hc with rfl | hc
    · rw [hs]
      rfl
    · exact ih hc

theorem mem_redactMarker {marker : String} {cells : List Cell} {c : Cell}
    (hc : c ∈ redactMarker Cell.char Cell.inserted marker cells) : c ∈ cells ∨ c.secret = false := by
  rw [redactMarker] at hc
  split at hc
  · exact .inl hc
  · rcases List.mem_append.mp hc with hc | hc
    · rcases List.mem_append.mp hc with hc | hc
      · exact .inl (List.mem_of_mem_take hc)
      · exact .inr (inserted_clean hc)
    · exact .inl (List.mem_of_mem_drop ((List.dropWhile_sublist _).mem hc))

theorem mem_foldl_redactMarker {markers : List String} {cells : List Cell} {c : Cell}
    (hc : c ∈ markers.foldl (fun o m => redactMarker Cell.char Cell.inserted m o) cells) :
    c ∈ cells ∨ c.secret = false := by
  induction markers generalizing cells with
  | nil => exact .inl hc
  | cons m markers ih =>
    rcases ih hc with hc | hc
    · exact mem_redactMarker hc
    · exact .inr hc

theorem mem_replaceAll {pattern : List Char → Option (ℕ × ℕ)} {text : List Char} {n : ℕ}
    {cells : List Cell} {c : Cell}
    (hc : c ∈ replaceAll Cell.char Cell.inserted pattern text n cells) :
    c ∈ cells ∨ c.secret = false := by
  induction cells generalizing n with
  | nil => cases n <;> exact .inl hc
  | cons a cells ih =>
    cases n with
    | succ n => exact (ih hc).imp (List.mem_cons_of_mem a) id
    | zero =>
      rw [replaceAll] at hc
      split at hc
      · rcases List.mem_cons.mp hc with rfl | hc
        · exact .inl List.mem_cons_self
        · exact (ih hc).imp (List.mem_cons_of_mem a) id
      · rcases List.mem_append.mp hc with hc | hc
        · rcases List.mem_append.mp hc with hc | hc
          · exact .inl (List.mem_of_mem_take hc)
          · obtain ⟨x, -, rfl⟩ := List.mem_map.mp hc
            exact .inr rfl
        · exact (ih hc).imp (List.mem_cons_of_mem a) id

/-- A cell of a text is white space or in a word. -/
theorem mem_words {cells : List Cell} {c : Cell} (hc : c ∈ cells)
    (hword : isWhitespace c.char = false) : ∃ w ∈ words Cell.char cells, c ∈ w := by
  induction cells using wordInduction Cell.char with
  | hword w hw => exact ⟨w, by rw [words_of_isWord hw]; exact List.mem_singleton_self w, hc⟩
  | hcons w s rest hw hs ih =>
    rw [words_append_cons hw hs]
    rcases List.mem_append.mp hc with hc | hc
    · exact ⟨w, List.mem_cons_self, hc⟩
    · rcases List.mem_cons.mp hc with rfl | hc
      · rw [hs] at hword
        cases hword
      · obtain ⟨v, hv, hcv⟩ := ih hc
        exact ⟨v, List.mem_cons_of_mem w hv, hcv⟩

theorem mem_of_mem_words {cells w : List Cell} {c : Cell} (hw : w ∈ words Cell.char cells)
    (hc : c ∈ w) : c ∈ cells := by
  induction cells using wordInduction Cell.char with
  | hword v hv =>
    rw [words_of_isWord hv, List.mem_singleton] at hw
    exact hw ▸ hc
  | hcons v s rest hv hs ih =>
    rw [words_append_cons hv hs, List.mem_cons] at hw
    rcases hw with rfl | hw
    · exact List.mem_append_left _ hc
    · exact List.mem_append_right _ (List.mem_cons_of_mem s (ih hw))

/-- The turns of the markers behind `Bearer `. -/
theorem redactMarkers_eq (cells : List Cell) :
    redactMarkers Cell.char Cell.inserted cells
      = secretMarkers.foldl (fun o m => redactMarker Cell.char Cell.inserted m o)
        (redactMarker Cell.char Cell.inserted "Bearer " cells) := rfl

theorem redactMarkers_id_eq (cs : List Char) :
    redactMarkers id id cs
      = secretMarkers.foldl (fun o m => redactMarker id id m o) (redactMarker id id "Bearer " cs) :=
  rfl

theorem flagged_redactMarkers {cells : List Cell} (h : ∀ w ∈ words Cell.char cells, Flagged w) :
    ∀ w ∈ words Cell.char (redactMarkers Cell.char Cell.inserted cells), Flagged w := by
  rw [redactMarkers_eq]
  exact (words_foldl (P := Flagged) (fun _ hm => hm) (fun m hm w i => flagged_cut_marker hm) _).1
    (flagged_redactMarker_bearer h)

theorem exposed_redactMarkers {cells : List Cell}
    (h : ∃ w ∈ words Cell.char (redactMarker Cell.char Cell.inserted "Bearer " cells), Exposed w) :
    ∃ w ∈ words Cell.char (redactMarkers Cell.char Cell.inserted cells), Exposed w := by
  rw [redactMarkers_eq]
  exact (words_foldl (P := Exposed) (fun _ hm => hm) (fun m hm w i => exposed_cut_marker hm) _).2 h

/-- The words of a text are marked as they should be, or exposed. -/
theorem flagged_markFrom (before cs : List Char)
    (h : ∀ w ∈ words Cell.char (markFrom before false cs), ¬ Exposed w) :
    ∀ w ∈ words Cell.char (markFrom before false cs), Flagged w := by
  induction cs using wordInduction id generalizing before with
  | hword w hw =>
    rw [markFrom_word hw, words_of_isWord (isWord_markWord hw _), List.forall_mem_singleton] at h ⊢
    exact flagged_markWord h
  | hcons w s rest hw hs ih =>
    rw [id_eq] at hs
    have hspace : isWhitespace (Cell.char ⟨s, false⟩) = true := hs
    rw [markFrom_append_cons w hs, markFrom_word hw, words_append_cons (isWord_markWord hw _) hspace,
      List.forall_mem_cons] at h ⊢
    exact ⟨flagged_markWord h.1, ih _ h.2⟩

/-- The words of the redacted text have no marker exactly if the markers come in turn. -/
theorem firstSecret_redactMarkers (text : String) :
    (∀ w ∈ words Cell.char (redactMarkers Cell.char Cell.inserted (markSecrets text)),
        firstSecret (w.map Cell.char) = none)
      ↔ InTurn secretMarkers (redactMarker id id "Bearer " text.toList) := by
  rw [← firstSecret_eq_none_iff, ← redactMarkers_id_eq]
  have hchars : redactMarkers id id text.toList
      = (redactMarkers Cell.char Cell.inserted (markSecrets text)).map Cell.char := by
    rw [char_redactMarkers, markSecrets, char_markFrom]
  rw [hchars, words_map_char, List.forall_mem_map]

/-- The loop removes every secret exactly if the secrets are in turn. -/
theorem loop_clean_iff (text : String) :
    (∀ c ∈ redactMarkers Cell.char Cell.inserted (markSecrets text), c.secret = false)
      ↔ SecretsInTurn text := by
  have hexposed := (tokensStart_iff text.toList).trans (tokensFrom_iff [] text.toList)
  rw [SecretsInTurn, hexposed, ← firstSecret_redactMarkers]
  constructor
  · intro hclean
    have hnone : ∀ w ∈ words Cell.char (markFrom [] false text.toList), ¬ Exposed w := by
      intro w hw hexp
      -- the start of an exposed word is there to the end
      obtain ⟨v, hv, hhead, -⟩ := exposed_redactMarkers
        (exposed_redactMarker_bearer text.toList (fun c hc => by cases hc) rfl ⟨w, hw, hexp⟩)
      cases v with
      | nil => cases hhead
      | cons c v =>
        have hc := hclean c (mem_of_mem_words hv List.mem_cons_self)
        rw [List.head?_cons, Option.any_some, hc] at hhead
        cases hhead
    refine ⟨hnone, fun w hw => ?_⟩
    exact (flagged_redactMarkers (flagged_markFrom [] _ hnone) w hw).clean_iff.mp
      fun c hc => hclean c (mem_of_mem_words hw hc)
  · rintro ⟨hnone, hturn⟩ c hc
    cases hspace : isWhitespace c.char with
    | true =>
      rw [redactMarkers_eq] at hc
      rcases mem_foldl_redactMarker hc with hc | hc
      · rcases mem_redactMarker hc with hc | hc
        · exact markFrom_space hc hspace
        · exact hc
      · exact hc
    | false =>
      obtain ⟨w, hw, hcw⟩ := mem_words hc hspace
      exact (flagged_redactMarkers (flagged_markFrom [] _ hnone) w hw).clean_iff.mpr
        (hturn w hw) c hcw

/-! ## The patterns -/

/-- The matches that `replaceAll` can meet replace no cell of a secret. -/
def SparesSecrets (pattern : List Char → Option (ℕ × ℕ)) (cells : List Cell) : Prop :=
  ∀ rest, rest <:+ cells → ∀ kept length,
    pattern (rest.map Cell.char) = some (kept, length) →
      ∀ c ∈ rest.take length, c ∈ rest.take kept ∨ c.secret = false

theorem SparesSecrets.tail {pattern : List Char → Option (ℕ × ℕ)} {c : Cell} {cells : List Cell}
    (h : SparesSecrets pattern (c :: cells)) : SparesSecrets pattern cells :=
  fun rest hrest => h rest (hrest.trans (List.suffix_cons c cells))

theorem matchEmail_pos {cs : List Char} {kept length : ℕ} (h : matchEmail cs = some (kept, length)) :
    0 < length := by
  rw [matchEmail] at h
  dsimp only at h
  split at h
  · obtain ⟨n, -, heq⟩ := Option.map_eq_some_iff.mp h
    rw [Prod.mk.injEq] at heq
    omega
  · cases h

theorem matchOauthQuery_pos {cs : List Char} {kept length : ℕ}
    (h : matchOauthQuery cs = some (kept, length)) : 0 < length := by
  rw [matchOauthQuery.eq_def] at h
  dsimp only at h
  split at h
  · cases h
  · split at h
    · obtain ⟨name, -, heq⟩ := Option.bind_eq_some_iff.mp h
      split at heq
      · cases heq
      · rw [Option.some.injEq, Prod.mk.injEq] at heq
        omega
    · cases h

/-- Then every cell of a secret stays; the cells that are skipped are no secret. -/
theorem mem_replaceAll_of_spares {pattern : List Char → Option (ℕ × ℕ)}
    (hpos : ∀ {cs kept length}, pattern cs = some (kept, length) → 0 < length)
    (text : List Char) (n : ℕ) {cells : List Cell} (h : SparesSecrets pattern cells) {c : Cell}
    (hsecret : c.secret = true) (hc : c ∈ cells.drop n) :
    c ∈ replaceAll Cell.char Cell.inserted pattern text n cells := by
  induction cells generalizing n with
  | nil => simp at hc
  | cons a cells ih =>
    cases n with
    | succ n => exact ih n h.tail hc
    | zero =>
      rw [List.drop_zero] at hc
      rw [replaceAll]
      cases hmatch : pattern ((a :: cells).map Cell.char) with
      | none =>
        rcases List.mem_cons.mp hc with rfl | hc
        · exact List.mem_cons_self
        · exact List.mem_cons_of_mem a (ih 0 h.tail (by rwa [List.drop_zero]))
      | some found =>
        obtain ⟨kept, length⟩ := found
        dsimp only
        rw [List.append_assoc]
        have hlength := hpos hmatch
        have hdrop : (a :: cells).drop length = cells.drop (length - 1) := by
          rw [show length = (length - 1) + 1 by omega, List.drop_succ_cons, Nat.add_sub_cancel]
        rw [← List.take_append_drop length (a :: cells), hdrop, List.mem_append] at hc
        rcases hc with hfront | hback
        · rcases h _ List.suffix_rfl kept length hmatch c hfront with hkept | hno
          · exact List.mem_append_left _ hkept
          · rw [hsecret] at hno
            cases hno
        · exact List.mem_append_right _ (List.mem_append_right _ (ih _ h.tail hback))

/-- The two patterns replace no cell of a secret that the loop left. -/
def PatternsSpareSecrets (text : String) : Prop :=
  let cells := redactMarkers Cell.char Cell.inserted (markSecrets text)
  SparesSecrets matchEmail cells ∧
    SparesSecrets matchOauthQuery
      (replaceAll Cell.char Cell.inserted matchEmail redactedEmail 0 cells)

theorem secretsGone_of_inTurn {text : String} (h : SecretsInTurn text) : SecretsGone text := by
  have hclean := (loop_clean_iff text).mpr h
  intro c hc
  rcases mem_replaceAll hc with hc | hc
  · rcases mem_replaceAll hc with hc | hc
    · exact hclean c hc
    · exact hc
  · exact hc

theorem inTurn_of_secretsGone {text : String} (hspares : PatternsSpareSecrets text)
    (h : SecretsGone text) : SecretsInTurn text := by
  rw [← loop_clean_iff]
  intro c hc
  by_contra hsecret
  rw [Bool.not_eq_false] at hsecret
  have hemail := mem_replaceAll_of_spares matchEmail_pos redactedEmail 0 hspares.1
    hsecret (by rwa [List.drop_zero])
  have hoauth := mem_replaceAll_of_spares matchOauthQuery_pos redacted 0 hspares.2
    hsecret (by rwa [List.drop_zero])
  rw [h c hoauth] at hsecret
  cases hsecret

/-! ## What redaction reveals -/

/-- A word without its secret. -/
def cleanWord (w : List Char) : List Char :=
  match firstSecret w with
  | none => w
  | some (p, _) => w.take p ++ redacted

/-- A word with its secret closed up. -/
def closeWord (w : List Char) : List (Option Char) :=
  match firstSecret w with
  | none => w.map some
  | some (p, _) => (w.take p).map some ++ [none]

/-- A turn does not change what a word is without its secret. -/
theorem cleanWord_cut {w : List Char} {m : String} {i : ℕ} (hm : m ∈ secretMarkers)
    (h : findChars m.toList w = some i) : cleanWord (w.take i ++ redacted) = cleanWord w := by
  have hfirst := firstSecret_of_find hm h
  have hle := findChars_add_length_le h
  rw [cleanWord, firstSecret_append_redacted, cleanWord, hfirst]
  cases htake : firstSecret (w.take i) with
  | none => rfl
  | some found =>
    obtain ⟨p, m'⟩ := found
    have hlt := (firstSecret_spec htake).1
    have hp := hlt
    rw [List.length_take] at hlt
    dsimp only
    rw [List.take_append_of_le_length hp.le, List.take_take, Nat.min_eq_left (by omega)]

theorem cleanWord_cutFirst {m : String} (hm : m ∈ secretMarkers) (ws : List (List Char)) :
    (cutFirst id id m ws).map cleanWord = ws.map cleanWord := by
  induction ws with
  | nil => rfl
  | cons w ws ih =>
    rw [cutFirst, List.map_id]
    cases hfind : findChars m.toList w with
    | none => rw [List.map_cons, ih, List.map_cons]
    | some i =>
      dsimp only
      rw [List.map_cons, List.map_id, cleanWord_cut hm hfind, List.map_cons]

theorem words_foldl_clean {markers : List String} (hmarkers : ∀ m ∈ markers, m ∈ secretMarkers)
    (output : List Char) :
    (words id (markers.foldl (fun o m => redactMarker id id m o) output)).map cleanWord
        = (words id output).map cleanWord
      ∧ spaces id (markers.foldl (fun o m => redactMarker id id m o) output) = spaces id output := by
  induction markers generalizing output with
  | nil => exact ⟨rfl, rfl⟩
  | cons m markers ih =>
    rw [List.forall_mem_cons] at hmarkers
    have hnew : ∀ c : Char, id (id c) = c := fun _ => rfl
    obtain ⟨hwords, hspaces⟩ := words_redactMarker hnew hmarkers.1 output
    obtain ⟨ihwords, ihspaces⟩ := ih hmarkers.2 (redactMarker id id m output)
    rw [List.foldl_cons, ihwords, ihspaces, hwords, hspaces, cleanWord_cutFirst hmarkers.1]
    exact ⟨rfl, rfl⟩

/-- If the markers come in turn, the loop makes every word the word without its secret. -/
theorem words_loop {output : List Char} (h : InTurn secretMarkers output) :
    words id (secretMarkers.foldl (fun o m => redactMarker id id m o) output)
      = (words id output).map cleanWord := by
  have hnone := (firstSecret_eq_none_iff output).mpr h
  rw [← (words_foldl_clean (fun _ hm => hm) output).1]
  have hsame : ∀ ws : List (List Char), (∀ w ∈ ws, firstSecret w = none) → ws.map cleanWord = ws := by
    intro ws hws
    refine (List.map_congr_left fun w hw => ?_).trans (List.map_id ws)
    rw [cleanWord, hws w hw]
    rfl
  exact (hsame _ hnone).symm

/-- The turn of `Bearer `, on words and white space. -/
def cutBearer : List (List Char) → List Char → List (List Char)
  | w :: ws, s :: ss =>
    if s = ' ' ∧ "Bearer".toList <:+ w then (w.take (w.length - 6) ++ redacted) :: ws
    else w :: cutBearer ws ss
  | ws, _ => ws

theorem words_redactMarker_bearer (cs : List Char) :
    words id (redactMarker id id "Bearer " cs) = cutBearer (words id cs) (spaces id cs)
      ∧ spaces id (redactMarker id id "Bearer " cs) = spaces id cs := by
  induction cs using wordInduction id with
  | hword w hw =>
    rw [redactMarker_bearer_word hw, words_of_isWord hw, spaces_of_isWord hw, cutBearer]
    · exact ⟨rfl, rfl⟩
    · simp
  | hcons w s rest hw hs ih =>
    rw [redactMarker_bearer_append hw hs, words_append_cons hw hs, spaces_append_cons hw hs,
      cutBearer, List.map_id, List.map_id, id_eq]
    split
    · have hnew : ∀ c : Char, id (id c) = c := fun _ => rfl
      have hcut := isWord_cut hnew hw (w.length - 6)
      rw [List.map_id] at hcut
      exact ⟨words_append_cons hcut hs rest, spaces_append_cons hcut hs rest⟩
    · rw [words_append_cons hw hs, spaces_append_cons hw hs, ih.1, ih.2]
      exact ⟨rfl, rfl⟩

/-- A character of a closed text, where a closed secret is no white space. -/
def closedChar (c : Option Char) : Char := c.getD '.'

theorem isWord_closeWord {w : List Char} (hw : IsWord id w) : IsWord closedChar (closeWord w) := by
  have hsome : ∀ v : List Char, (∀ c ∈ v, c ∈ w) → ∀ c ∈ v.map some, isWhitespace (closedChar c) = false := by
    intro v hv c hc
    obtain ⟨x, hx, rfl⟩ := List.mem_map.mp hc
    exact hw x (hv x hx)
  rw [closeWord]
  cases firstSecret w with
  | none => exact hsome w fun c hc => hc
  | some found =>
    obtain ⟨p, m⟩ := found
    intro c hc
    rcases List.mem_append.mp hc with hc | hc
    · exact hsome _ (fun c hc => List.mem_of_mem_take hc) c hc
    · rw [List.mem_singleton] at hc
      rw [hc]
      decide

theorem outside_append_cons (l : List Cell) {c : Cell} (hc : c.secret = false) (rest : List Cell) :
    outside (l ++ c :: rest) = outside l ++ some c.char :: outside rest := by
  induction l with
  | nil => simp [outside, hc]
  | cons a l ih =>
    have hhead : (l ++ c :: rest).head?.any Cell.secret = l.head?.any Cell.secret := by
      cases l with
      | nil => simp [hc]
      | cons b l => rfl
    rw [List.cons_append, outside, outside, ih, hhead]
    split
    · split <;> rfl
    · rfl

theorem outside_map_false (cs : List Char) (l : List Cell) :
    outside (cs.map (Cell.mk · false) ++ l) = cs.map some ++ outside l := by
  induction cs with
  | nil => rfl
  | cons c cs ih =>
    rw [List.map_cons, List.cons_append, outside, ih]
    rfl

theorem outside_map_true {cs : List Char} (hne : cs ≠ []) :
    outside (cs.map (Cell.mk · true)) = [none] := by
  induction cs with
  | nil => exact absurd rfl hne
  | cons c cs ih =>
    cases cs with
    | nil => rfl
    | cons d cs =>
      rw [List.map_cons, outside, ih (by simp)]
      rfl

/-- A word that is not exposed is closed from its first marker on. -/
theorem outside_markWord {token : Bool} {w : List Char} (h : ¬ Exposed (markWord token w)) :
    outside (markWord token w) = closeWord w := by
  cases hfirst : firstSecret w with
  | none =>
    have happend := outside_map_false w []
    rw [List.append_nil, outside, List.append_nil] at happend
    rw [markWord_of_none h hfirst, happend, closeWord, hfirst]
  | some found =>
    obtain ⟨p, m⟩ := found
    have hlt := (firstSecret_spec hfirst).1
    have hne : w.drop p ≠ [] := by
      intro hnil
      rw [List.drop_eq_nil_iff] at hnil
      omega
    rw [markWord_of_some h hfirst, outside_map_false, outside_map_true hne, closeWord, hfirst]

/-- The closed text, word by word. -/
theorem words_outside (before cs : List Char)
    (h : ∀ w ∈ words Cell.char (markFrom before false cs), ¬ Exposed w) :
    words closedChar (outside (markFrom before false cs)) = (words id cs).map closeWord
      ∧ spaces closedChar (outside (markFrom before false cs)) = (spaces id cs).map some := by
  induction cs using wordInduction id generalizing before with
  | hword w hw =>
    have hclose := isWord_closeWord hw
    rw [markFrom_word hw, words_of_isWord (isWord_markWord hw _), List.forall_mem_singleton] at h
    rw [markFrom_word hw, outside_markWord h, words_of_isWord hclose, spaces_of_isWord hclose,
      words_of_isWord hw, spaces_of_isWord hw]
    exact ⟨rfl, rfl⟩
  | hcons w s rest hw hs ih =>
    have hclose := isWord_closeWord hw
    have hsome : isWhitespace (closedChar (some s)) = true := hs
    rw [id_eq] at hs
    have hspace : isWhitespace (Cell.char ⟨s, false⟩) = true := hs
    rw [markFrom_append_cons w hs, markFrom_word hw, words_append_cons (isWord_markWord hw _) hspace,
      List.forall_mem_cons] at h
    obtain ⟨ihwords, ihspaces⟩ := ih _ h.2
    rw [markFrom_append_cons w hs, markFrom_word hw, outside_append_cons _ rfl, outside_markWord h.1,
      words_append_cons hclose hsome, spaces_append_cons hclose hsome, ihwords, ihspaces,
      words_append_cons hw hs, spaces_append_cons hw hs]
    exact ⟨rfl, rfl⟩

theorem closeWord_eq {w v : List Char} (h : closeWord w = closeWord v) :
    cleanWord w = cleanWord v ∧ (firstSecret w = none → w = v) := by
  have hinj : Function.Injective (some : Char → Option Char) := fun _ _ h => Option.some.inj h
  have hno : ∀ u : List Char, (none : Option Char) ∉ u.map some := by simp
  rw [closeWord, closeWord] at h
  rw [cleanWord, cleanWord]
  cases hw : firstSecret w with
  | none =>
    rw [hw] at h
    cases hv : firstSecret v with
    | none =>
      rw [hv] at h
      have heq := hinj.list_map h
      exact ⟨heq, fun _ => heq⟩
    | some found =>
      rw [hv] at h
      refine absurd ?_ (hno w)
      dsimp only at h
      rw [h]
      simp
  | some found =>
    rw [hw] at h
    cases hv : firstSecret v with
    | none =>
      rw [hv] at h
      refine absurd ?_ (hno v)
      dsimp only at h
      rw [← h]
      simp
    | some found' =>
      rw [hv] at h
      dsimp only at h ⊢
      rw [hinj.list_map (List.append_cancel_right h)]
      exact ⟨rfl, fun hnone => by cases hnone⟩

/-- No word that ends in `Bearer` and has a space behind it has a marker. -/
def BearerInOpen (text : String) : Prop :=
  ∀ pair ∈ (words id text.toList).zip (spaces id text.toList),
    pair.2 = ' ' → "Bearer".toList <:+ pair.1 → firstSecret pair.1 = none

theorem clean_cutBearer {ws vs : List (List Char)} {ss : List Char}
    (h : ws.map closeWord = vs.map closeWord)
    (hws : ∀ pair ∈ ws.zip ss, pair.2 = ' ' → "Bearer".toList <:+ pair.1 → firstSecret pair.1 = none)
    (hvs : ∀ pair ∈ vs.zip ss, pair.2 = ' ' → "Bearer".toList <:+ pair.1 → firstSecret pair.1 = none) :
    (cutBearer ws ss).map cleanWord = (cutBearer vs ss).map cleanWord := by
  have hclean : ∀ us us' : List (List Char), us.map closeWord = us'.map closeWord →
      us.map cleanWord = us'.map cleanWord := by
    intro us us' heq
    induction us generalizing us' with
    | nil =>
      rw [List.map_nil, eq_comm, List.map_eq_nil_iff] at heq
      rw [heq]
    | cons u us ih =>
      cases us' with
      | nil => cases heq
      | cons u' us' =>
        rw [List.map_cons, List.map_cons, List.cons.injEq] at heq
        rw [List.map_cons, List.map_cons, (closeWord_eq heq.1).1, ih us' heq.2]
  induction ws generalizing vs ss with
  | nil =>
    rw [List.map_nil, eq_comm, List.map_eq_nil_iff] at h
    rw [h]
  | cons w ws ih =>
    cases vs with
    | nil => cases h
    | cons v vs =>
      cases ss with
      | nil => exact hclean _ _ h
      | cons s ss =>
        rw [List.zip_cons_cons, List.forall_mem_cons] at hws hvs
        rw [List.map_cons, List.map_cons, List.cons.injEq] at h
        obtain ⟨hword, hrest⟩ := h
        rw [cutBearer, cutBearer]
        by_cases hw : s = ' ' ∧ "Bearer".toList <:+ w
        · have heq := (closeWord_eq hword).2 (hws.1 hw.1 hw.2)
          subst heq
          rw [if_pos hw, if_pos hw, List.map_cons, List.map_cons, hclean _ _ hrest]
        · by_cases hv : s = ' ' ∧ "Bearer".toList <:+ v
          · have heq := (closeWord_eq hword.symm).2 (hvs.1 hv.1 hv.2)
            subst heq
            exact absurd hv hw
          · rw [if_neg hw, if_neg hv, List.map_cons, List.map_cons, (closeWord_eq hword).1,
              ih hrest hws.2 hvs.2]

/-- Texts that differ inside of secrets only are redacted to the same text. -/
theorem redactText_eq_of_differ {text other : String} (htext : SecretsInTurn text)
    (hother : SecretsInTurn other) (hopen : BearerInOpen text) (hopen' : BearerInOpen other)
    (h : DifferInSecrets text other) : redactText text = redactText other := by
  have hout : ∀ {t : String}, SecretsInTurn t →
      words closedChar (outside (markSecrets t)) = (words id t.toList).map closeWord
        ∧ spaces closedChar (outside (markSecrets t)) = (spaces id t.toList).map some := by
    intro t ht
    exact words_outside [] t.toList
      ((tokensFrom_iff [] t.toList).mp ((tokensStart_iff t.toList).mp ht.1))
  have hloop : ∀ {t : String}, SecretsInTurn t →
      words id (redactMarkers id id t.toList)
          = (cutBearer (words id t.toList) (spaces id t.toList)).map cleanWord
        ∧ spaces id (redactMarkers id id t.toList) = spaces id t.toList := by
    intro t ht
    have hbearer := words_redactMarker_bearer t.toList
    rw [redactMarkers_id_eq, words_loop ht.2, (words_foldl_clean (fun _ hm => hm) _).2, hbearer.1,
      hbearer.2]
    exact ⟨rfl, rfl⟩
  rw [DifferInSecrets] at h
  have hwords : (words id text.toList).map closeWord = (words id other.toList).map closeWord := by
    rw [← (hout htext).1, ← (hout hother).1, h]
  have hspaces : spaces id text.toList = spaces id other.toList := by
    have hinj : Function.Injective (some : Char → Option Char) := fun _ _ h => Option.some.inj h
    refine hinj.list_map ?_
    rw [← (hout htext).2, ← (hout hother).2, h]
  have hcells : redactMarkers id id text.toList = redactMarkers id id other.toList := by
    have hsame : words id (redactMarkers id id text.toList)
        = words id (redactMarkers id id other.toList) := by
      rw [BearerInOpen] at hopen hopen'
      rw [hspaces] at hopen
      rw [(hloop htext).1, (hloop hother).1, hspaces]
      exact clean_cutBearer hwords hopen hopen'
    refine eq_of_words hsame ?_
    rw [(hloop htext).2, (hloop hother).2, hspaces]
  rw [redactText, redactText, redactCells, redactCells, hcells]

/-- The secrets of a text are gone if they are in turn, and only then if the two patterns
do not help; texts with their secrets in turn that differ inside of secrets only are
redacted to the same text. -/
theorem secretsGone_spec (text : String) :
    (SecretsInTurn text → SecretsGone text)
      ∧ (PatternsSpareSecrets text → SecretsGone text → SecretsInTurn text)
      ∧ ∀ other, SecretsInTurn text → SecretsInTurn other → BearerInOpen text →
          BearerInOpen other → DifferInSecrets text other → redactText text = redactText other :=
  ⟨secretsGone_of_inTurn, inTurn_of_secretsGone,
    fun _ htext hother hopen hopen' => redactText_eq_of_differ htext hother hopen hopen'⟩

/-- The token behind `Bearer ` stays, and so does the second of two keys. -/
theorem not_secretsGone_bearer :
    ¬ ∀ text, SecretsGone text := by
  intro h
  have hbearer := h "Bearer abc"
  revert hbearer
  decide +kernel

end CodexRouter
