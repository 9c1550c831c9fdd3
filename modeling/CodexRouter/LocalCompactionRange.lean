/-
# The cut of a compaction stays in range

`compact_keep_split` indexes the items, subtracts lengths, adds sizes and clamps a number between two others, and each
of these panics where it has no result.  `Checked` is the same code with its panics (`Panic`); the functions without
them are those of `LocalCompaction`.

* `Checked.backOff_eq` : moving a cut off the outputs indexes in range when it starts in range;
* `Checked.charsCutFrom_cases` : the size loop indexes in range, and adds an item's size to less than the limit;
* `splitInRange` : the clamp has its bounds in order, because moving a cut off the outputs is monotone.
-/
import CodexRouter.LocalCompactionOrphans

namespace CodexRouter

/-! ## The code with its panics -/

/-- What a panic is about. -/
inductive Panic
  | indexOutOfBounds
  | subtractWithOverflow
  | addWithOverflow
  | clampBounds
  deriving DecidableEq, Repr

namespace Checked

/-- `items[i]`. -/
def index (items : List Value) (i : ℕ) : Except Panic Value :=
  match items[i]? with
  | some item => .ok item
  | none => .error .indexOutOfBounds

/-- `a - b`. -/
def sub (a b : ℕ) : Except Panic ℕ := if b ≤ a then .ok (a - b) else .error .subtractWithOverflow

/-- `a + b`, in numbers up to `usizeMax`. -/
def add (usizeMax a b : ℕ) : Except Panic ℕ := if a + b ≤ usizeMax then .ok (a + b) else .error .addWithOverflow

/-- `Ord::clamp`. -/
def clamp (x lo hi : ℕ) : Except Panic ℕ := if lo ≤ hi then .ok (CodexRouter.clamp x lo hi) else .error .clampBounds

/-- The loop that moves a cut to the left until it stands on no output item. -/
def backOff (items : List Value) : ℕ → Except Panic ℕ
  | 0 => .ok 0
  | i + 1 => do
    let item ← index items (i + 1)
    if isFunctionOutputItem item then backOff items i else .ok (i + 1)

/-- `compact_split_at`. -/
def compactSplitAt (items : List Value) (keepLast : ℕ) : Except Panic ℕ :=
  if items.length ≤ keepLast then .ok 0
  else do
    let splitAt ← sub items.length keepLast
    backOff items splitAt

section

variable (serde : Serde) (usizeMax : ℕ)

/-- The loop of `compact_split_at_chars`: the first argument is `split_at`, the second `used`. -/
def charsCutFrom (items : List Value) (keepChars : ℕ) : ℕ → ℕ → Except Panic ℕ
  | 0, _ => .ok 0
  | idx + 1, used => do
    let item ← index items idx
    let size := max (itemCharLen serde item) 1
    if keepChars ≤ used ∧ idx + 1 < items.length then .ok (idx + 1)
    else
      let sum ← add usizeMax used size
      if keepChars < sum ∧ idx + 1 < items.length ∧ 0 < used then .ok (idx + 1)
      else charsCutFrom items keepChars idx (min sum usizeMax)

/-- `compact_split_at_chars`. -/
def compactSplitAtChars (items : List Value) (keepChars : ℕ) : Except Panic ℕ :=
  if items = [] then .ok 0
  else do
    let splitAt ← charsCutFrom serde usizeMax items keepChars items.length 0
    backOff items splitAt

/-- `compact_keep_split`. -/
def compactKeepSplit (items : List Value) (keepLast : ℕ) : Except Panic ℕ :=
  if items.length ≤ compactMinKeepItems then .ok 0
  else do
    let maxKeep := max keepLast compactMinKeepItems
    let splitKeepMax ← compactSplitAt items compactMinKeepItems
    let splitKeepMin ← compactSplitAt items maxKeep
    let splitChars ← compactSplitAtChars serde usizeMax items recentKeepChars
    clamp splitChars splitKeepMin splitKeepMax

end

/-! ## Where it does not panic -/

variable {items : List Value}

theorem getElem?_eq_itemAt {i : ℕ} (h : i < items.length) : items[i]? = some (itemAt items i) := by
  rw [itemAt, List.getD_eq_getElem?_getD, List.getElem?_eq_getElem h, Option.getD_some]

theorem index_eq {i : ℕ} (h : i < items.length) : index items i = .ok (itemAt items i) := by
  rw [index, getElem?_eq_itemAt h]

/-- A cut that starts in range, or at the front, is moved in range. -/
theorem backOff_eq {r : ℕ} (h : r < items.length ∨ r = 0) :
    backOff items r = .ok (CodexRouter.backOff items r) := by
  induction r with
  | zero => rfl
  | succ r ih =>
    have hin : r + 1 < items.length := h.resolve_right (Nat.succ_ne_zero r)
    rw [backOff, index_eq hin, CodexRouter.backOff]
    show (if isFunctionOutputItem (itemAt items (r + 1)) then backOff items r else .ok (r + 1)) = _
    rw [ih (.inl (by omega)), itemAt, ← apply_ite]

theorem compactSplitAt_eq {keepLast : ℕ} (h : 0 < keepLast) :
    compactSplitAt items keepLast = .ok (CodexRouter.compactSplitAt items keepLast) := by
  rw [compactSplitAt, CodexRouter.compactSplitAt]
  by_cases hlen : items.length ≤ keepLast
  · rw [if_pos hlen, if_pos hlen]
  · rw [if_neg hlen, if_neg hlen, sub, if_pos (by omega)]
    exact backOff_eq (.inl (by omega))

/-- With nothing to keep, the code would look behind the last item. -/
example : compactSplitAt [.null] 0 = .error .indexOutOfBounds := rfl

section

variable (serde : Serde) (usizeMax : ℕ)

/-- The machine's numbers do not hold 32,000 and the size of some item. -/
def TooLarge (items : List Value) (keepChars : ℕ) : Prop :=
  ∃ item ∈ items, usizeMax < keepChars + itemCharLen serde item

/-- A round of the size loop, where the item is in range. -/
theorem charsCutFrom_succ {keepChars idx used : ℕ} (hidx : idx < items.length) :
    charsCutFrom serde usizeMax items keepChars (idx + 1) used =
      if keepChars ≤ used ∧ idx + 1 < items.length then .ok (idx + 1)
      else if usizeMax < used + max (itemCharLen serde (itemAt items idx)) 1 then .error .addWithOverflow
      else if keepChars < used + max (itemCharLen serde (itemAt items idx)) 1 ∧ idx + 1 < items.length ∧ 0 < used then
        .ok (idx + 1)
      else charsCutFrom serde usizeMax items keepChars idx (used + max (itemCharLen serde (itemAt items idx)) 1) := by
  rw [charsCutFrom, index_eq hidx]
  show (if keepChars ≤ used ∧ idx + 1 < items.length then Except.ok (idx + 1) else _) = _
  split
  · rfl
  rw [add]
  by_cases hfits : used + max (itemCharLen serde (itemAt items idx)) 1 ≤ usizeMax
  · rw [if_pos hfits, if_neg (Nat.not_lt.mpr hfits)]
    show (if _ then Except.ok (idx + 1) else _) = _
    rw [Nat.min_eq_left hfits]
  · rw [if_neg hfits, if_pos (Nat.lt_of_not_le hfits)]
    rfl

/-- The size loop panics only where an item is too large.  The loop starts behind the last item with nothing used, and
goes on in front of another item only while `used` is below the limit. -/
theorem charsCutFrom_cases {keepChars idx used : ℕ} (hkeep : 0 < keepChars) (hidx : idx ≤ items.length)
    (hused : idx = items.length → used = 0) :
    charsCutFrom serde usizeMax items keepChars idx used = .ok (CodexRouter.charsCutFrom serde items keepChars idx used)
      ∨ charsCutFrom serde usizeMax items keepChars idx used = .error .addWithOverflow
        ∧ TooLarge serde usizeMax items keepChars := by
  induction idx generalizing used with
  | zero => exact .inl rfl
  | succ idx ih =>
    have hin : idx < items.length := hidx
    rw [charsCutFrom_succ serde usizeMax hin, CodexRouter.charsCutFrom, ← itemAt]
    set size := max (itemCharLen serde (itemAt items idx)) 1 with hsize
    by_cases hstop : keepChars ≤ used ∧ idx + 1 < items.length
    · rw [if_pos hstop, if_pos hstop]
      exact .inl rfl
    rw [if_neg hstop, if_neg hstop]
    by_cases hlarge : usizeMax < used + size
    · rw [if_pos hlarge]
      have hmem : itemAt items idx ∈ items := List.mem_of_getElem? (getElem?_eq_itemAt hin)
      have hsum : used + size ≤ keepChars + itemCharLen serde (itemAt items idx) := by
        rcases Nat.lt_or_ge (idx + 1) items.length with hlt | hge
        · omega
        · have hzero := hused (by omega)
          omega
      exact .inr ⟨rfl, _, hmem, by omega⟩
    · rw [if_neg hlarge]
      by_cases hlast : keepChars < used + size ∧ idx + 1 < items.length ∧ 0 < used
      · rw [if_pos hlast, if_pos hlast]
        exact .inl rfl
      · rw [if_neg hlast, if_neg hlast]
        exact ih hin.le fun hend => absurd hend hin.ne

/-- The size loop keeps the last item. -/
theorem charsCutFrom_lt (keepChars : ℕ) (h : items ≠ []) :
    CodexRouter.charsCutFrom serde items keepChars items.length 0 < items.length := by
  have hle : ∀ idx used, CodexRouter.charsCutFrom serde items keepChars idx used ≤ idx := by
    intro idx
    induction idx with
    | zero => exact fun _ => le_rfl
    | succ idx ih =>
      intro used
      rw [CodexRouter.charsCutFrom]
      split_ifs
      · exact le_rfl
      · exact le_rfl
      · exact (ih _).trans (Nat.le_succ idx)
  obtain ⟨idx, hidx⟩ := Nat.exists_eq_succ_of_ne_zero (mt List.length_eq_zero_iff.mp h)
  rw [hidx, CodexRouter.charsCutFrom, if_neg (by omega), if_neg (by omega)]
  exact Nat.lt_succ_of_le (hle _ _)

theorem compactSplitAtChars_cases (items : List Value) {keepChars : ℕ} (hkeep : 0 < keepChars) :
    compactSplitAtChars serde usizeMax items keepChars = .ok (CodexRouter.compactSplitAtChars serde items keepChars)
      ∨ compactSplitAtChars serde usizeMax items keepChars = .error .addWithOverflow
        ∧ TooLarge serde usizeMax items keepChars := by
  rw [compactSplitAtChars, CodexRouter.compactSplitAtChars]
  by_cases hnil : items = []
  · rw [if_pos hnil, if_pos hnil]
    exact .inl rfl
  rw [if_neg hnil, if_neg hnil]
  rcases charsCutFrom_cases serde usizeMax hkeep le_rfl (fun _ => rfl) with hok | ⟨herror, hlarge⟩
  · rw [hok]
    exact .inl (backOff_eq (.inl (charsCutFrom_lt serde keepChars hnil)))
  · rw [herror]
    exact .inr ⟨rfl, hlarge⟩

end

end Checked

/-! ## The cut -/

section

variable (serde : Serde)

/-- What is asked of the cut. -/
structure SplitInRange (items : List Value) (keepLast : ℕ) : Prop where
  /-- The bounds of the clamp are in order. -/
  ordered : compactSplitAt items (max keepLast compactMinKeepItems) ≤ compactSplitAt items compactMinKeepItems
  /-- The code panics nowhere, in machine numbers of any size, but on the sum of an item whose text nearly fills them;
  a text in memory fills at most half of them. -/
  runs : ∀ usizeMax,
    Checked.compactKeepSplit serde usizeMax items keepLast = .ok (compactKeepSplit serde items keepLast)
      ∨ Checked.compactKeepSplit serde usizeMax items keepLast = .error .addWithOverflow
        ∧ Checked.TooLarge serde usizeMax items recentKeepChars
  /-- A short list is kept whole. -/
  short : items.length ≤ 8 → compactKeepSplit serde items keepLast = 0
  /-- Of a longer list eight items are kept. -/
  keeps : 8 < items.length → 8 ≤ (items.drop (compactKeepSplit serde items keepLast)).length
  /-- The kept items do not start with an output. -/
  start : compactKeepSplit serde items keepLast = 0
    ∨ ∃ item, (items.drop (compactKeepSplit serde items keepLast)).head? = some item
      ∧ isFunctionOutputItem item = false

variable {serde}

theorem compactSplitAt_anti {items : List Value} {keep keep' : ℕ} (h : keep ≤ keep') :
    compactSplitAt items keep' ≤ compactSplitAt items keep := by
  rw [compactSplitAt_eq, compactSplitAt_eq]
  exact backOff_mono (by omega)

variable (serde) in
theorem compactKeepSplit_add_le {items : List Value} (h : compactMinKeepItems < items.length) (keepLast : ℕ) :
    compactKeepSplit serde items keepLast + compactMinKeepItems ≤ items.length := by
  have hcut : compactCut serde items keepLast ≤ items.length - compactMinKeepItems := by
    unfold compactCut clamp
    split_ifs <;> omega
  have hmoved := backOff_le items (compactCut serde items keepLast)
  rw [compactKeepSplit_eq serde h]
  omega

/-- **The cut is always in range.** -/
theorem splitInRange (items : List Value) (keepLast : ℕ) : SplitInRange serde items keepLast := by
  have hordered : compactSplitAt items (max keepLast compactMinKeepItems) ≤ compactSplitAt items compactMinKeepItems :=
    compactSplitAt_anti (le_max_right _ _)
  refine ⟨hordered, ?_, ?_, ?_, ?_⟩
  · intro usizeMax
    rw [Checked.compactKeepSplit, compactKeepSplit]
    by_cases hshort : items.length ≤ compactMinKeepItems
    · rw [if_pos hshort, if_pos hshort]
      exact .inl rfl
    rw [if_neg hshort, if_neg hshort]
    have hmin : 0 < compactMinKeepItems := by decide
    have hmax : 0 < max keepLast compactMinKeepItems := hmin.trans_le (le_max_right _ _)
    simp only [Checked.compactSplitAt_eq hmin, Checked.compactSplitAt_eq hmax]
    have hkeep : 0 < recentKeepChars := by decide
    rcases Checked.compactSplitAtChars_cases serde usizeMax items hkeep with hok | ⟨herror, hlarge⟩
    · rw [hok]
      exact .inl (if_pos hordered)
    · rw [herror]
      exact .inr ⟨rfl, hlarge⟩
  · exact fun hshort => if_pos hshort
  · intro hlong
    have hle := compactKeepSplit_add_le serde hlong keepLast
    rw [List.length_drop]
    exact Nat.le_sub_of_add_le' hle
  · rcases Nat.lt_or_ge compactMinKeepItems items.length with hlong | hshort
    · have hlt : compactKeepSplit serde items keepLast < items.length := by
        have hle := compactKeepSplit_add_le serde hlong keepLast
        have hmin : 0 < compactMinKeepItems := by decide
        omega
      refine (backOff_eq_zero_or items (compactCut serde items keepLast)).imp ?_ ?_
      · exact fun hzero => (compactKeepSplit_eq serde hlong keepLast).trans hzero
      · intro hout
        rw [← compactKeepSplit_eq serde hlong] at hout
        refine ⟨_, ?_, hout⟩
        rw [List.head?_drop]
        exact Checked.getElem?_eq_itemAt hlt
    · exact .inl (if_pos hshort)

end

end CodexRouter
