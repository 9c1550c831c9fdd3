/-
# Tool calls in a stream of texts

`emit_chat_visible_text_with_leaked_tools` takes the tool calls out of a text that
arrives in deltas.  What follows a marker without its whole object waits in a buffer;
everything else is emitted at once.

`Splits` is the reading of a whole text: what is visible of it, and the objects of its
calls.  A text has one reading (`Splits.unique`), and the deltas of a text are read like
the whole, if what is decided on a delta is not decided otherwise when more of the text
is there (`LeakedRound.Continues`): no marker is cut, no bracket is cut off a call, and the
marker that was skipped is the one that would be skipped in the whole text.
-/
import CodexRouter.LeakedTools

namespace CodexRouter

open Text

/-! ## The code -/

/-- `flush_chat_leaked_tool_buffer`. -/
def flushLeakedTools (buffer : List Char) : List LeakedPiece :=
  if buffer = [] then [] else [.visible (String.ofList buffer)]

/-- What is emitted of deltas and, behind them, of what is still in the buffer. -/
def leakedRun (serde : Serde) : List Char → List String → List LeakedPiece
  | buffer, [] => flushLeakedTools buffer
  | buffer, delta :: deltas =>
    let (pieces, buffer) := splitLeakedTools serde buffer delta
    pieces ++ leakedRun serde buffer deltas

/-- The visible text of pieces. -/
def visibleText (pieces : List LeakedPiece) : List Char :=
  pieces.flatMap fun
    | .visible text => text.toList
    | .tool _ => []

/-- The objects of the tool calls. -/
def toolObjects (pieces : List LeakedPiece) : List Value :=
  pieces.filterMap fun
    | .visible _ => none
    | .tool raw => some raw

/-- The name and the arguments of a function call. -/
def nameAndArguments (tool : Value) : Option String × Option String := (tool.getStr "name", tool.getStr "arguments")

/-- The names and the arguments of the calls that are emitted. -/
def emittedCalls (serde : Serde) (pieces : List LeakedPiece) : List (Option String × Option String) :=
  ((toolObjects pieces).zipIdx 1).map fun (raw, index) => nameAndArguments (normalizeLeakedToolCall serde raw index)

/-- The text of the deltas. -/
def deltasText (deltas : List String) : List Char := deltas.flatMap String.toList

/-- The deltas are handled like the whole text, by both functions. -/
def SplitsAgree (serde : Serde) (deltas : List String) : Prop :=
  visibleText (leakedRun serde [] deltas) = visibleText (leakedRun serde [] [String.ofList (deltasText deltas)])
    ∧ emittedCalls serde (leakedRun serde [] deltas)
      = emittedCalls serde (leakedRun serde [] [String.ofList (deltasText deltas)])
    ∧ emittedCalls serde (leakedRun serde [] deltas)
      = (extractLeakedToolCalls serde (String.ofList (deltasText deltas))).2.map nameAndArguments

/-! ## Rounds -/

/-- What the loop does in a round: it passes a text without markers, it waits for the rest of an
object behind a marker and its number, or it takes a call from a text that starts with a marker. -/
inductive LeakedRound where
  | passes (text : List Char)
  | waits (afterPrefix : List Char)
  | takes (text : List Char) (prefixEnd consumed : ℕ)

/-- A bracket right behind a call is dropped. -/
def afterCall (tail : List Char) : List Char := if tail.head? = some ')' then tail.tail else tail

/-- The rounds of the loop on a buffer. -/
def leakedRounds (serde : Serde) : ℕ → List Char → List LeakedRound
  | 0, _ => []
  | n + 1, buffer =>
    match findLeakedToolStart buffer with
    | none => [.passes buffer]
    | some start =>
      match skipLeakedPrefix (buffer.drop start) with
      | none => []
      | some prefixEnd =>
        match takeBalancedJson serde ((buffer.drop start).drop prefixEnd) with
        | none => [.waits ((buffer.drop start).drop prefixEnd)]
        | some (_, consumed) =>
          .takes (buffer.drop start) prefixEnd consumed
            :: leakedRounds serde n (afterCall ((buffer.drop start).drop (prefixEnd + consumed)))

/-- The round goes the same way when more of the text is there. -/
def LeakedRound.Continues (later : List Char) : LeakedRound → Prop
  | .passes text => ∀ i < text.length, ¬ StartsMarker (text.drop i ++ later)
  | .waits _ => True
  | .takes text prefixEnd consumed =>
    skipLeakedPrefix (text ++ later) = some prefixEnd
      ∧ (text.length = prefixEnd + consumed → later.head? ≠ some ')')

/-- No marker comes behind one that has no object. -/
def LeakedRound.EndsMarkers : LeakedRound → Prop
  | .waits afterPrefix => findLeakedToolStart afterPrefix = none
  | .passes _ | .takes _ _ _ => True

/-- Every round on a delta goes the same way when the rest of the text is there. -/
def RoundsContinue (serde : Serde) : List Char → List String → Prop
  | _, [] => True
  | buffer, delta :: deltas =>
    (∀ round ∈ leakedRounds serde (buffer.length + delta.length + 1) (buffer ++ delta.toList),
      round.Continues (deltasText deltas))
    ∧ RoundsContinue serde (splitLeakedTools serde buffer delta).2 deltas

instance (later : List Char) : (round : LeakedRound) → Decidable (round.Continues later)
  | .passes text => inferInstanceAs (Decidable (∀ i < text.length, ¬ StartsMarker (text.drop i ++ later)))
  | .waits _ => isTrue trivial
  | .takes text prefixEnd consumed =>
    inferInstanceAs (Decidable (skipLeakedPrefix (text ++ later) = some prefixEnd
      ∧ (text.length = prefixEnd + consumed → later.head? ≠ some ')')))

instance : (round : LeakedRound) → Decidable round.EndsMarkers
  | .waits afterPrefix => inferInstanceAs (Decidable (findLeakedToolStart afterPrefix = none))
  | .passes _ | .takes _ _ _ => isTrue trivial

instance decidableRoundsContinue (serde : Serde) :
    (buffer : List Char) → (deltas : List String) → Decidable (RoundsContinue serde buffer deltas)
  | _, [] => isTrue trivial
  | buffer, delta :: deltas =>
    have := decidableRoundsContinue serde (splitLeakedTools serde buffer delta).2 deltas
    inferInstanceAs (Decidable (_ ∧ _))

/-! ## What is found stays -/

section

variable {serde : Serde} {text more : List Char} {n : ℕ}

/-- The brace that closes an object stays the same when the text goes on. -/
theorem closingBrace_append {inString escaped : Bool} {depth : ℤ}
    (h : closingBrace inString escaped depth text = some n) (more : List Char) :
    closingBrace inString escaped depth (text ++ more) = some n ∧ n ≤ text.length := by
  have hmap : ∀ {inString escaped : Bool} {depth : ℤ} {cs : List Char} {n : ℕ},
      (∀ {inString escaped : Bool} {depth : ℤ} {n : ℕ}, closingBrace inString escaped depth cs = some n →
        closingBrace inString escaped depth (cs ++ more) = some n ∧ n ≤ cs.length) →
      (closingBrace inString escaped depth cs).map (· + 1) = some n →
      (closingBrace inString escaped depth (cs ++ more)).map (· + 1) = some n ∧ n ≤ cs.length + 1 := by
    intro inString escaped depth cs n ih h
    obtain ⟨k, hk, rfl⟩ := Option.map_eq_some_iff.mp h
    obtain ⟨happend, hle⟩ := ih hk
    exact ⟨by rw [happend, Option.map_some], Nat.succ_le_succ hle⟩
  induction text generalizing inString escaped depth n with
  | nil => cases inString <;> cases h
  | cons c cs ih =>
    rw [List.cons_append, List.length_cons]
    cases inString with
    | true =>
      rw [closingBrace] at h ⊢
      exact hmap ih h
    | false =>
      rw [closingBrace] at h ⊢
      split at h
      · rename_i hc
        rw [if_pos hc]
        exact hmap ih h
      rename_i hquote
      rw [if_neg hquote]
      split at h
      · rename_i hc
        rw [if_pos hc]
        exact hmap ih h
      rename_i hopen
      rw [if_neg hopen]
      split at h
      · rename_i hclose
        rw [if_pos hclose]
        split at h
        · rename_i hdepth
          rw [if_pos hdepth]
          cases h
          exact ⟨rfl, Nat.succ_pos _⟩
        · rename_i hdepth
          rw [if_neg hdepth]
          exact hmap ih h
      · rename_i hclose
        rw [if_neg hclose]
        exact hmap ih h

/-- An object that was read is read again when the text goes on. -/
theorem takeBalancedJson_append {raw : Value} (h : takeBalancedJson serde text = some (raw, n)) (more : List Char) :
    takeBalancedJson serde (text ++ more) = some (raw, n) ∧ n ≤ text.length ∧ text ≠ [] := by
  rw [takeBalancedJson] at h
  obtain ⟨start, hstart, h⟩ := Option.bind_eq_some_iff.mp h
  obtain ⟨length, hlength, h⟩ := Option.bind_eq_some_iff.mp h
  obtain ⟨value, hvalue, heq⟩ := Option.map_eq_some_iff.mp h
  cases heq
  have hin := findChars_add_length_le hstart
  simp only [List.length_cons, List.length_nil, Nat.zero_add] at hin
  obtain ⟨happend, hle⟩ := closingBrace_append hlength more
  have hdrop : (text ++ more).drop start = text.drop start ++ more := List.drop_append_of_le_length (by omega)
  rw [List.length_drop] at hle
  refine ⟨?_, by omega, by rintro rfl; simp at hin⟩
  rw [takeBalancedJson, findChars_append hstart, Option.bind_some, hdrop, happend, Option.bind_some,
    List.take_append_of_le_length (by rw [List.length_drop]; exact hle), hvalue, Option.map_some]

/-- A marker that is there is skipped. -/
theorem exists_skipLeakedPrefix (h : StartsMarker text) : ∃ prefixEnd, skipLeakedPrefix text = some prefixEnd := by
  obtain ⟨p, hp, hprefix⟩ := h
  obtain ⟨marker, hmarker, rfl⟩ := List.mem_map.mp hp
  obtain ⟨i, hi, -⟩ := exists_findChars_le (j := 0) hprefix (Nat.zero_le _)
  refine Option.isSome_iff_exists.mp (List.findSome?_isSome_iff.mpr ⟨marker, hmarker, ?_⟩)
  rw [hi]
  rfl

/-- Something is skipped. -/
theorem skipLeakedPrefix_pos {prefixEnd : ℕ} (h : skipLeakedPrefix text = some prefixEnd) : 0 < prefixEnd := by
  obtain ⟨marker, hmarker, hskip⟩ := List.exists_of_findSome?_eq_some h
  obtain ⟨start, -, rfl⟩ := Option.map_eq_some_iff.mp hskip
  have hlength : 0 < marker.length := by
    have hall : ∀ m ∈ leakedToolMarkers, 0 < m.length := by decide
    exact hall marker hmarker
  dsimp only
  split <;> omega

/-- What stands behind the text in front of the first marker. -/
theorem startsMarker_drop {start : ℕ} (h : findLeakedToolStart text = some start) : StartsMarker (text.drop start) :=
  startsAny_of_findAny markers_apart.ne_nil (findLeakedToolStart_eq text ▸ h)

theorem findLeakedToolStart_of_starts (h : StartsMarker text) : findLeakedToolStart text = some 0 :=
  (findLeakedToolStart_eq text).trans (findAny_of_startsAny markers_apart.ne_nil h)

end

/-! ## Readings -/

/-- The reading of a whole text: its visible text, and the objects of its calls. -/
inductive Splits (serde : Serde) : List Char → List Char → List Value → Prop
  | passes {text : List Char} (h : findLeakedToolStart text = none) : Splits serde text text []
  | waits {text : List Char} {start prefixEnd : ℕ} (hstart : findLeakedToolStart text = some start)
      (hskip : skipLeakedPrefix (text.drop start) = some prefixEnd)
      (htake : takeBalancedJson serde ((text.drop start).drop prefixEnd) = none) : Splits serde text text []
  | takes {text visible : List Char} {raw : Value} {raws : List Value} {start prefixEnd consumed : ℕ}
      (hstart : findLeakedToolStart text = some start)
      (hskip : skipLeakedPrefix (text.drop start) = some prefixEnd)
      (htake : takeBalancedJson serde ((text.drop start).drop prefixEnd) = some (raw, consumed))
      (h : Splits serde (afterCall ((text.drop start).drop (prefixEnd + consumed))) visible raws) :
      Splits serde text (text.take start ++ visible) (raw :: raws)

section

variable {serde : Serde} {text later visible visible' buffer : List Char} {raws raws' : List Value} {n : ℕ}

/-- A text has one reading. -/
theorem Splits.unique (h : Splits serde text visible raws) (h' : Splits serde text visible' raws') :
    visible = visible' ∧ raws = raws' := by
  induction h generalizing visible' raws' with
  | passes hnone =>
    cases h' with
    | passes _ => exact ⟨rfl, rfl⟩
    | waits hstart _ _ => cases hnone.symm.trans hstart
    | takes hstart _ _ _ => cases hnone.symm.trans hstart
  | waits hstart hskip htake =>
    cases h' with
    | passes hnone => cases hstart.symm.trans hnone
    | waits _ _ _ => exact ⟨rfl, rfl⟩
    | takes hstart' hskip' htake' _ =>
      cases hstart.symm.trans hstart'
      cases hskip.symm.trans hskip'
      cases htake.symm.trans htake'
  | takes hstart hskip htake h ih =>
    cases h' with
    | passes hnone => cases hstart.symm.trans hnone
    | waits hstart' hskip' htake' =>
      cases hstart.symm.trans hstart'
      cases hskip.symm.trans hskip'
      cases htake.symm.trans htake'
    | takes hstart' hskip' htake' h' =>
      cases hstart.symm.trans hstart'
      cases hskip.symm.trans hskip'
      cases htake.symm.trans htake'
      obtain ⟨rfl, rfl⟩ := ih h'
      exact ⟨rfl, rfl⟩

/-- Text in which no marker begins is visible. -/
theorem Splits.append_left (h : Splits serde later visible raws)
    (hno : ∀ i < text.length, ¬ StartsMarker (text.drop i ++ later)) :
    Splits serde (text ++ later) (text ++ visible) raws := by
  have hfind : ∀ {start : Option ℕ}, findLeakedToolStart later = start →
      findLeakedToolStart (text ++ later) = start.map (text.length + ·) := by
    rintro start rfl
    rw [findLeakedToolStart_eq, findLeakedToolStart_eq, findAny_append_left hno]
  cases h with
  | passes hnone => exact .passes (hfind hnone)
  | waits hstart hskip htake =>
    exact .waits (hfind hstart) (by rwa [List.drop_length_add_append]) (by rwa [List.drop_length_add_append])
  | @takes _ visible raw raws start prefixEnd consumed hstart hskip htake h =>
    rw [← List.append_assoc, ← List.take_length_add_append]
    exact .takes (hfind hstart) (by rwa [List.drop_length_add_append]) (by rwa [List.drop_length_add_append])
      (by rwa [List.drop_length_add_append])

/-- The text before a marker is visible. -/
theorem Splits.before {start : ℕ} (hstart : findLeakedToolStart text = some start)
    (h : Splits serde (text.drop start ++ later) visible raws) :
    Splits serde (text ++ later) (text.take start ++ visible) raws := by
  have hwhole : text ++ later = text.take start ++ (text.drop start ++ later) := by
    rw [← List.append_assoc, List.take_append_drop]
  have happend : findAny markerChars (text ++ later) = some start :=
    findAny_append markers_apart (findLeakedToolStart_eq text ▸ hstart) later
  rw [hwhole] at happend ⊢
  refine h.append_left fun i hi => ?_
  have hlt : i < start := Nat.lt_of_lt_of_le hi (List.length_take_le start text)
  have hno := not_startsAny_of_lt happend hlt
  rwa [List.drop_append_of_le_length hi.le] at hno

/-- What is left in the buffer is visible in the end. -/
def Waits (serde : Serde) (buffer : List Char) : Prop := Splits serde buffer buffer []

theorem waits_nil : Waits serde [] :=
  .passes ((findLeakedToolStart_eq []).trans (findAny_nil markers_apart.ne_nil))

@[simp] theorem visibleText_append (pieces pieces' : List LeakedPiece) :
    visibleText (pieces ++ pieces') = visibleText pieces ++ visibleText pieces' :=
  List.flatMap_append

@[simp] theorem toolObjects_append (pieces pieces' : List LeakedPiece) :
    toolObjects (pieces ++ pieces') = toolObjects pieces ++ toolObjects pieces' :=
  List.filterMap_append

/-- The piece for a text, if there is one. -/
theorem visibleText_before (text : List Char) (start : ℕ) :
    visibleText (if 0 < start then [.visible (String.ofList (text.take start))] else []) = text.take start
      ∧ toolObjects (if 0 < start then [.visible (String.ofList (text.take start))] else []) = [] := by
  cases start with
  | zero => exact ⟨rfl, rfl⟩
  | succ start =>
    rw [if_pos (Nat.succ_pos start)]
    refine ⟨?_, rfl⟩
    rw [visibleText, List.flatMap_cons, List.flatMap_nil, List.append_nil]
    exact String.toList_ofList

/-- The round in which a call is taken. -/
theorem leakedPieces_takes {raw : Value} {start prefixEnd consumed : ℕ}
    (hstart : findLeakedToolStart buffer = some start) (hskip : skipLeakedPrefix (buffer.drop start) = some prefixEnd)
    (htake : takeBalancedJson serde ((buffer.drop start).drop prefixEnd) = some (raw, consumed)) :
    leakedPieces serde (n + 1) buffer
      = ((if 0 < start then [.visible (String.ofList (buffer.take start))] else []) ++ .tool raw ::
          (if afterCall ((buffer.drop start).drop (prefixEnd + consumed)) = [] then []
            else (leakedPieces serde n (afterCall ((buffer.drop start).drop (prefixEnd + consumed)))).1),
        if afterCall ((buffer.drop start).drop (prefixEnd + consumed)) = [] then []
        else (leakedPieces serde n (afterCall ((buffer.drop start).drop (prefixEnd + consumed)))).2) := by
  rw [leakedPieces, hstart]
  simp only [hskip, htake]
  show (if afterCall _ = [] then _ else _) = _
  split <;> rfl

/-- The bracket behind a call is there when the text goes on. -/
theorem afterCall_append {tail : List Char} (h : tail = [] → later.head? ≠ some ')') :
    afterCall (tail ++ later) = afterCall tail ++ later := by
  cases tail with
  | nil => rw [List.nil_append, afterCall, if_neg (h rfl)]; rfl
  | cons c tail =>
    by_cases hc : c = ')'
    · simp [afterCall, hc]
    · simp [afterCall, hc]

theorem length_afterCall (tail : List Char) : (afterCall tail).length ≤ tail.length := by
  rw [afterCall]
  split
  · rw [List.length_tail]
    exact Nat.sub_le _ _
  · exact le_refl _

/-- A call that is taken from a buffer is taken when the text goes on. -/
theorem Splits.taken {raw : Value} {start prefixEnd consumed : ℕ}
    (hstart : findLeakedToolStart buffer = some start)
    (htake : takeBalancedJson serde ((buffer.drop start).drop prefixEnd) = some (raw, consumed))
    (hround : (LeakedRound.takes (buffer.drop start) prefixEnd consumed).Continues later)
    (h : Splits serde (afterCall ((buffer.drop start).drop (prefixEnd + consumed)) ++ later) visible raws) :
    Splits serde (buffer ++ later) (buffer.take start ++ visible) (raw :: raws) := by
  obtain ⟨happend, hle, hne⟩ := takeBalancedJson_append htake later
  rw [List.length_drop] at hle
  have hprefix : prefixEnd ≤ (buffer.drop start).length :=
    Nat.le_of_not_lt fun hlt => hne (List.drop_eq_nil_of_le hlt.le)
  rw [← List.drop_append_of_le_length hprefix] at happend
  rw [← afterCall_append fun hnil => hround.2 (Nat.le_antisymm (List.drop_eq_nil_iff.mp hnil) (by omega)),
    ← List.drop_append_of_le_length (by omega)] at h
  have hstarts : StartsMarker (buffer.drop start ++ later) := (startsMarker_drop hstart).append later
  exact Splits.before hstart (.takes (findLeakedToolStart_of_starts hstarts) hround.1 happend h)

/-- **The rounds on a buffer**: the reading of the buffer with the rest of the text behind it is what was
emitted, and the reading of what is left in the buffer. -/
theorem leakedPieces_spec (hn : buffer.length < n)
    (hrounds : ∀ round ∈ leakedRounds serde n buffer, round.Continues later) :
    Waits serde (leakedPieces serde n buffer).2
      ∧ ∀ visible raws, Splits serde ((leakedPieces serde n buffer).2 ++ later) visible raws →
        Splits serde (buffer ++ later) (visibleText (leakedPieces serde n buffer).1 ++ visible)
          (toolObjects (leakedPieces serde n buffer).1 ++ raws) := by
  induction n generalizing buffer with
  | zero => exact absurd hn (Nat.not_lt_zero _)
  | succ n ih =>
    rw [leakedRounds] at hrounds
    cases hstart : findLeakedToolStart buffer with
    | none =>
      rw [hstart] at hrounds
      rw [leakedPieces, hstart]
      refine ⟨waits_nil, fun visible raws h => ?_⟩
      have hpass := h.append_left (hrounds _ (List.mem_singleton_self _))
      simpa [visibleText, toolObjects] using hpass
    | some start =>
      rw [hstart] at hrounds
      obtain ⟨hbefore, htools⟩ := visibleText_before buffer start
      have hmarker := startsMarker_drop hstart
      cases hskip : skipLeakedPrefix (buffer.drop start) with
      | none =>
        obtain ⟨prefixEnd, h⟩ := exists_skipLeakedPrefix hmarker
        cases hskip.symm.trans h
      | some prefixEnd =>
        simp only [hskip] at hrounds
        cases htake : takeBalancedJson serde ((buffer.drop start).drop prefixEnd) with
        | none =>
          rw [leakedPieces, hstart]
          simp only [hskip, htake, hbefore, htools, List.nil_append]
          exact ⟨.waits (findLeakedToolStart_of_starts hmarker) hskip htake, fun visible raws h => h.before hstart⟩
        | some taken =>
          obtain ⟨raw, consumed⟩ := taken
          simp only [htake] at hrounds
          have hround := hrounds _ List.mem_cons_self
          rw [leakedPieces_takes hstart hskip htake]
          by_cases hnil : afterCall ((buffer.drop start).drop (prefixEnd + consumed)) = []
          · rw [if_pos hnil, if_pos hnil]
            refine ⟨waits_nil, fun visible raws h => ?_⟩
            rw [visibleText_append, toolObjects_append, hbefore, htools]
            show Splits serde (buffer ++ later) (buffer.take start ++ [] ++ visible) (raw :: raws)
            rw [List.append_nil]
            exact Splits.taken hstart htake hround (by rw [hnil]; exact h)
          · rw [if_neg hnil, if_neg hnil]
            have hlength := length_afterCall ((buffer.drop start).drop (prefixEnd + consumed))
            have hpos := skipLeakedPrefix_pos hskip
            have hrest := List.length_pos_of_ne_nil (takeBalancedJson_append htake []).2.2
            rw [List.length_drop, List.length_drop] at hlength hrest
            have hless : (afterCall ((buffer.drop start).drop (prefixEnd + consumed))).length < n := by omega
            obtain ⟨hwaits, hsplits⟩ := ih hless fun round hround => hrounds round (List.mem_cons_of_mem _ hround)
            refine ⟨hwaits, fun visible raws h => ?_⟩
            rw [visibleText_append, toolObjects_append, hbefore, htools, List.append_assoc]
            exact Splits.taken hstart htake hround (hsplits visible raws h)

end

/-! ## Runs -/

section

variable {serde : Serde} {text buffer visible : List Char} {raws : List Value} {n m found : ℕ}

/-- What stands before the first marker is emitted first. -/
theorem leakedPieces_front {start : ℕ} (hstart : findLeakedToolStart buffer = some start) :
    leakedPieces serde (n + 1) buffer
      = ((if 0 < start then [.visible (String.ofList (buffer.take start))] else [])
          ++ (leakedPieces serde (n + 1) (buffer.drop start)).1,
        (leakedPieces serde (n + 1) (buffer.drop start)).2) := by
  have hzero := findLeakedToolStart_of_starts (startsMarker_drop hstart)
  cases hskip : skipLeakedPrefix (buffer.drop start) with
  | none =>
    rw [leakedPieces, leakedPieces, hstart, hzero]
    simp [hskip]
  | some prefixEnd =>
    cases htake : takeBalancedJson serde ((buffer.drop start).drop prefixEnd) with
    | none =>
      rw [leakedPieces, leakedPieces, hstart, hzero]
      simp only [hskip, htake, List.drop_zero, lt_irrefl, if_false, List.append_nil]
    | some taken =>
      obtain ⟨raw, consumed⟩ := taken
      rw [leakedPieces_takes hstart hskip htake, leakedPieces_takes hzero hskip htake]
      rfl

/-- A delta is read behind the buffer. -/
theorem splitLeakedTools_eq {delta : String} (hdelta : delta ≠ "") :
    splitLeakedTools serde buffer delta
      = leakedPieces serde (buffer.length + delta.length + 1) (buffer ++ delta.toList) := by
  rw [splitLeakedTools, if_neg hdelta]
  by_cases hbuffer : buffer = []
  · subst hbuffer
    rw [if_pos rfl, List.length_nil, Nat.zero_add, List.nil_append]
    cases hstart : findLeakedToolStart delta.toList with
    | none => rw [leakedPieces, hstart, String.ofList_toList]
    | some start => rw [leakedPieces_front hstart]
  · rw [if_neg hbuffer]

/-- **The deltas are read like the whole text**, when every round goes the same way. -/
theorem splits_leakedRun {deltas : List String} (hbuffer : Waits serde buffer)
    (h : RoundsContinue serde buffer deltas) :
    Splits serde (buffer ++ deltasText deltas) (visibleText (leakedRun serde buffer deltas))
      (toolObjects (leakedRun serde buffer deltas)) := by
  induction deltas generalizing buffer with
  | nil =>
    have hflush : visibleText (flushLeakedTools buffer) = buffer ∧ toolObjects (flushLeakedTools buffer) = [] := by
      rw [flushLeakedTools]
      split
      · rename_i hnil
        exact ⟨hnil.symm, rfl⟩
      · exact ⟨by simp [visibleText], rfl⟩
    rw [deltasText, List.flatMap_nil, List.append_nil, leakedRun, hflush.1, hflush.2]
    exact hbuffer
  | cons delta deltas ih =>
    by_cases hdelta : delta = ""
    · subst hdelta
      exact ih hbuffer h.2
    · obtain ⟨hrounds, hrest⟩ := h
      have hn : (buffer ++ delta.toList).length < buffer.length + delta.length + 1 := by
        rw [List.length_append, String.length_toList]
        exact Nat.lt_succ_self _
      obtain ⟨hwaits, hsplits⟩ := leakedPieces_spec hn hrounds
      rw [← splitLeakedTools_eq hdelta] at hwaits hsplits
      have hall := hsplits _ _ (ih hwaits hrest)
      rw [← visibleText_append, ← toolObjects_append, List.append_assoc] at hall
      exact hall

/-- At the end of the text every round goes on. -/
theorem continues_nil : ∀ round ∈ leakedRounds serde n buffer, round.Continues [] := by
  induction n generalizing buffer with
  | zero => simp [leakedRounds]
  | succ n ih =>
    rw [leakedRounds]
    cases hstart : findLeakedToolStart buffer with
    | none =>
      intro round hround
      rw [List.mem_singleton.mp hround]
      intro i hi
      rw [List.append_nil]
      rw [findLeakedToolStart_eq] at hstart
      exact (findAny_eq_none_iff markers_apart.ne_nil).mp hstart i hi
    | some start =>
      cases hskip : skipLeakedPrefix (buffer.drop start) with
      | none => simp [hskip]
      | some prefixEnd =>
        simp only [hskip]
        cases htake : takeBalancedJson serde ((buffer.drop start).drop prefixEnd) with
        | none =>
          intro round hround
          rw [List.mem_singleton.mp hround]
          trivial
        | some taken =>
          intro round hround
          rcases List.mem_cons.mp hround with rfl | hround
          · exact ⟨by rw [List.append_nil]; exact hskip, fun _ => by simp⟩
          · exact ih round hround

/-- The reading of the whole text. -/
theorem splits_whole (text : List Char) :
    Splits serde text (visibleText (leakedRun serde [] [String.ofList text]))
      (toolObjects (leakedRun serde [] [String.ofList text])) := by
  have hwhole : Splits serde ([] ++ deltasText [String.ofList text])
      (visibleText (leakedRun serde [] [String.ofList text])) (toolObjects (leakedRun serde [] [String.ofList text])) :=
    splits_leakedRun waits_nil ⟨continues_nil, trivial⟩
  rwa [deltasText, List.flatMap_cons, List.flatMap_nil, List.append_nil, String.toList_ofList,
    List.nil_append] at hwhole

/-! ## The calls of the whole text -/

/-- No marker is in the end of a text without markers. -/
theorem findLeakedToolStart_drop (h : findLeakedToolStart text = none) (k : ℕ) :
    findLeakedToolStart (text.drop k) = none := by
  rw [findLeakedToolStart_eq, findAny_eq_none_iff markers_apart.ne_nil] at h ⊢
  intro i hi
  rw [List.drop_drop]
  rw [List.length_drop] at hi
  exact h _ (by omega)

/-- A bracket behind a call makes no difference for the calls. -/
theorem loop_afterCall (tail : List Char) : (extractLeakedToolCalls.loop serde n found tail).2
    = (extractLeakedToolCalls.loop serde n found (afterCall tail)).2 := by
  rw [afterCall]
  split
  · rename_i hhead
    obtain ⟨rest, rfl⟩ := List.head?_eq_some_iff.mp hhead
    have hno : ∀ i < [')'].length, ¬ StartsMarker ([')'].drop i ++ rest) := by
      intro i hi
      obtain rfl : i = 0 := Nat.lt_one_iff.mp hi
      rintro ⟨p, hp, hprefix⟩
      have hhead : ∀ p ∈ markerChars, p.head? ≠ some ')' ∧ p ≠ [] := by decide
      cases p with
      | nil => exact (hhead _ hp).2 rfl
      | cons c p =>
        have hc := (List.cons_prefix_cons.mp hprefix).1
        exact (hhead _ hp).1 (by rw [hc]; rfl)
    rw [← List.singleton_append, loop_plain hno]
    rfl
  · rfl

/-- The calls of the reading are extracted, when no marker comes behind one that has no object. -/
theorem loop_of_splits (h : Splits serde text visible raws) (hn : text.length < n) (hm : text.length < m)
    (hends : ∀ round ∈ leakedRounds serde m text, round.EndsMarkers) :
    (extractLeakedToolCalls.loop serde n found text).2
      = (raws.zipIdx (found + 1)).map fun (raw, index) => normalizeLeakedToolCall serde raw index := by
  induction h generalizing n m found with
  | passes hnone =>
    cases n with
    | zero => rfl
    | succ n =>
      rw [extractLeakedToolCalls.loop, hnone]
      rfl
  | @waits text start prefixEnd hstart hskip htake =>
    obtain ⟨m, rfl⟩ : ∃ k, m = k + 1 := ⟨m - 1, by omega⟩
    obtain ⟨n, rfl⟩ : ∃ k, n = k + 1 := ⟨n - 1, by omega⟩
    rw [leakedRounds, hstart] at hends
    simp only [hskip, htake] at hends
    have hnone : findLeakedToolStart ((text.drop start).drop prefixEnd) = none := hends _ (List.mem_singleton_self _)
    rw [List.drop_drop] at hnone htake
    have hspace : ∃ k, (text.drop (start + prefixEnd)).dropWhile isWhitespace = (text.drop (start + prefixEnd)).drop k :=
      ⟨_, List.dropWhile_eq_drop_findIdx_not⟩
    obtain ⟨k, hk⟩ := hspace
    rw [extractLeakedToolCalls.loop, hstart]
    simp only [hskip, htake, hk]
    cases n with
    | zero => rfl
    | succ n =>
      rw [extractLeakedToolCalls.loop, findLeakedToolStart_drop hnone]
      rfl
  | @takes text visible raw raws start prefixEnd consumed hstart hskip htake h ih =>
    obtain ⟨m, rfl⟩ : ∃ k, m = k + 1 := ⟨m - 1, by omega⟩
    obtain ⟨n, rfl⟩ : ∃ k, n = k + 1 := ⟨n - 1, by omega⟩
    rw [leakedRounds, hstart] at hends
    simp only [hskip, htake] at hends
    have hlength := length_afterCall ((text.drop start).drop (prefixEnd + consumed))
    have hpos := skipLeakedPrefix_pos hskip
    have hrest := List.length_pos_of_ne_nil (takeBalancedJson_append htake []).2.2
    rw [List.length_drop, List.length_drop] at hlength hrest
    have hcalls := @ih n m (found + 1) (by omega) (by omega)
      fun round hround => hends round (List.mem_cons_of_mem _ hround)
    rw [← loop_afterCall, List.drop_drop, ← Nat.add_assoc, ← List.drop_drop] at hcalls
    rw [List.drop_drop] at htake
    rw [extractLeakedToolCalls.loop, hstart]
    simp only [hskip, htake]
    rw [hcalls]
    rfl

end

/-- **The deltas of a text are handled like the whole text**, if every round on a delta goes the same way when
the rest of the text is there, and no marker of the text comes behind one that has no object. -/
theorem splitsAgree_of_continue (serde : Serde) (deltas : List String) (hcontinue : RoundsContinue serde [] deltas)
    (hends : ∀ round ∈ leakedRounds serde ((deltasText deltas).length + 1) (deltasText deltas), round.EndsMarkers) :
    SplitsAgree serde deltas := by
  have hrun := splits_leakedRun waits_nil hcontinue
  rw [List.nil_append] at hrun
  obtain ⟨hvisible, htools⟩ := hrun.unique (splits_whole (deltasText deltas))
  refine ⟨hvisible, by rw [emittedCalls, htools, emittedCalls], ?_⟩
  have hloop : (extractLeakedToolCalls.loop serde ((deltasText deltas).length + 1) 0 (deltasText deltas)).2 = _ :=
    loop_of_splits hrun (Nat.lt_succ_self _) (Nat.lt_succ_self _) hends
  have hextract : (extractLeakedToolCalls serde (String.ofList (deltasText deltas))).2
      = (extractLeakedToolCalls.loop serde ((deltasText deltas).length + 1) 0 (deltasText deltas)).2 := by
    rw [extractLeakedToolCalls, String.toList_ofList, ← String.length_toList, String.toList_ofList]
  rw [hextract, hloop, List.map_map]
  rfl

/-- Two calls, the first one cut in its object, the second one with a bracket. -/
theorem splitsAgree_twoCalls : SplitsAgree commandSerde
    ["run functions__exec\x7b\"cmd\"", ":\"a\"\x7d", " and functions.shell:1", "2\x7b\"cmd\":\"b\"\x7d) now"] :=
  splitsAgree_of_continue _ _ (by decide +kernel) (by decide +kernel)

/-- A marker that is cut is not seen in the deltas. -/
theorem not_splitsAgree_cutMarker : ¬ SplitsAgree commandSerde ["functions", ".exec\x7b\"cmd\":\"a\"\x7d"] := by
  intro h
  have hcalls := h.2.1
  revert hcalls
  decide +kernel

end CodexRouter
