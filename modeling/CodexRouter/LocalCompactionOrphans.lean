/-
# When local compaction keeps the call of every kept output

In a conversation where every output item comes after its call, `compactInput`
must not fold a call away and keep its output.  The cut is moved to the left
while it stands on an output item, so it ends on the call in front of a run of
outputs, its *pivot*.  That is enough when the run answers one call.  With
parallel calls the run answers several, and the calls in front of the pivot are
folded: this is the defect `not_callsPrecede_of_parallel` exhibits.

The three cuts of `compactKeepSplit` are one cut moved off the outputs
(`compactKeepSplit_eq`), because moving is monotone.  So the exact condition
`CutClear` speaks of that one cut, `compactCut`, and of the items around it.
-/
import CodexRouter.LocalCompaction

namespace CodexRouter

/-! ## Calls before outputs -/

/-- A call item; `computer_call` is the call of a `computer_call_output`. -/
def isCallItem (item : Value) : Bool :=
  isFunctionCallItem item || itemType item = "computer_call"

/-- `call` is a call item with the id of `output`. -/
def Answers (call output : Value) : Prop :=
  isCallItem call ∧ itemCallId call = itemCallId output

/-- The item at a position; behind the end there is `null`, which is no tool item. -/
def itemAt (items : List Value) (i : ℕ) : Value := items.getD i .null

/-- Every output item with an id comes after its call. -/
def CallsPrecede (items : List Value) : Prop :=
  ∀ j, isFunctionOutputItem (itemAt items j) → itemCallId (itemAt items j) ≠ "" →
    ∃ i < j, Answers (itemAt items i) (itemAt items j)

/-- No call item is an output item. -/
theorem isFunctionOutputItem_of_isCallItem {item : Value} (h : isCallItem item) :
    isFunctionOutputItem item = false := by
  rw [isCallItem, Bool.or_eq_true] at h
  rcases h with h | h
  · simpa using not_isFunctionOutputItem_of_call h
  · rw [isFunctionOutputItem, of_decide_eq_true h]
    decide

/-- Two items of the same kind with the same id. -/
structure SameTool (x y : Value) : Prop where
  type : itemType x = itemType y
  id : itemCallId x = itemCallId y

theorem SameTool.isFunctionOutputItem {x y : Value} (h : SameTool x y) :
    isFunctionOutputItem x = isFunctionOutputItem y := by
  rw [CodexRouter.isFunctionOutputItem, CodexRouter.isFunctionOutputItem, h.type]

theorem SameTool.isCallItem {x y : Value} (h : SameTool x y) : isCallItem x = isCallItem y := by
  rw [CodexRouter.isCallItem, CodexRouter.isCallItem, isFunctionCallItem, isFunctionCallItem,
    h.type]

theorem SameTool.answers {x y x' y' : Value} (h : SameTool x y) (h' : SameTool x' y') :
    Answers x x' ↔ Answers y y' := by
  rw [Answers, Answers, h.isCallItem, h.id, h'.id]

/-- Only kinds and ids matter for the order of calls and outputs. -/
theorem callsPrecede_congr {items items' : List Value}
    (h : ∀ i, SameTool (itemAt items i) (itemAt items' i)) :
    CallsPrecede items ↔ CallsPrecede items' := by
  refine forall_congr' fun j => ?_
  rw [(h j).isFunctionOutputItem, (h j).id]
  refine imp_congr_right fun _ => imp_congr_right fun _ => exists_congr fun i => ?_
  exact and_congr_right fun _ => (h i).answers (h j)

theorem itemAt_drop (items : List Value) (s i : ℕ) :
    itemAt (items.drop s) i = itemAt items (s + i) := by
  simp [itemAt, List.getD_eq_getElem?_getD, List.getElem?_drop]

/-- The order of the items behind a cut. -/
theorem callsPrecede_drop {items : List Value} {s : ℕ} :
    CallsPrecede (items.drop s) ↔ ∀ j, s ≤ j → isFunctionOutputItem (itemAt items j) →
      itemCallId (itemAt items j) ≠ "" →
        ∃ i, s ≤ i ∧ i < j ∧ Answers (itemAt items i) (itemAt items j) := by
  constructor
  · intro h j hj hout hid
    obtain ⟨i, hi, hans⟩ := h (j - s)
      (by rw [itemAt_drop, show s + (j - s) = j from by omega]; exact hout)
      (by rw [itemAt_drop, show s + (j - s) = j from by omega]; exact hid)
    rw [itemAt_drop, itemAt_drop, show s + (j - s) = j from by omega] at hans
    exact ⟨s + i, by omega, by omega, hans⟩
  · intro h j hout hid
    rw [itemAt_drop] at hout hid ⊢
    obtain ⟨i, hsi, hij, hans⟩ := h (s + j) (by omega) hout hid
    refine ⟨i - s, by omega, ?_⟩
    rw [itemAt_drop, show s + (i - s) = i from by omega]
    exact hans

/-- A notice in front changes nothing. -/
theorem callsPrecede_notice (text : String) (items : List Value) :
    CallsPrecede (messageFromText text :: items) ↔ CallsPrecede items := by
  have hnotice : isCallItem (messageFromText text) = false := by
    rw [isCallItem, isFunctionCallItem_messageFromText, messageFromText]
    simp [itemType, Value.getStr, Members.get]
    decide
  constructor
  · intro h j hout hid
    obtain ⟨i, hi, hans⟩ := h (j + 1) hout hid
    cases i with
    | zero =>
      have hcall : isCallItem (messageFromText text) := hans.1
      simp [hnotice] at hcall
    | succ i => exact ⟨i, by omega, hans⟩
  · intro h j hout hid
    cases j with
    | zero =>
      have hfalse : isFunctionOutputItem (messageFromText text) := hout
      simp at hfalse
    | succ j =>
      obtain ⟨i, hi, hans⟩ := h j hout hid
      exact ⟨i + 1, by omega, hans⟩

/-! ## Shortening leaves kinds and ids -/

theorem get_updateMember_ne {k k' : String} (h : k' ≠ k) (f : Value → Value × Bool) (m : Members) :
    Members.get k' (updateMember k f m).1 = Members.get k' m :=
  Members.get_modify_ne h _ m

theorem sameTool_pruneItemOutput (limit : ℕ) (item : Value) :
    SameTool item (pruneItemOutput limit item).1 := by
  cases item with
  | object m =>
    have hget : ∀ k, k ≠ "output" → k ≠ "text" → k ≠ "content" →
        (pruneItemOutput limit (.object m)).1.get k = Members.get k m := by
      intro k h1 h2 h3
      simp [pruneItemOutput, get_updateMember_ne, h1, h2, h3]
    constructor
    · rw [itemType, itemType, Value.getStr, Value.getStr,
        hget "type" (by decide) (by decide) (by decide)]
      rfl
    · rw [itemCallId, itemCallId, hget "call_id" (by decide) (by decide) (by decide),
        hget "id" (by decide) (by decide) (by decide)]
      rfl
  | _ => exact ⟨rfl, rfl⟩

theorem sameTool_pruneOldItem (item : Value) : SameTool item (pruneOldItem item).1 := by
  rw [pruneOldItem]
  split
  · exact sameTool_pruneItemOutput _ item
  · exact ⟨rfl, rfl⟩

/-- `pruneOldToolOutputs` keeps kinds and ids, position by position. -/
theorem sameTool_pruneOldToolOutputs (serde : Serde) (items : List Value) (i : ℕ) :
    SameTool (itemAt items i) (itemAt (pruneOldToolOutputs serde items).1 i) := by
  rw [pruneOldToolOutputs]
  split
  · exact ⟨rfl, rfl⟩
  simp only
  split
  · exact ⟨rfl, rfl⟩
  generalize compactSplitAtChars serde items recentKeepChars = s
  rw [List.map_map, itemAt, itemAt, List.getD_eq_getElem?_getD, List.getD_eq_getElem?_getD]
  by_cases hi : i < (items.take s).length
  · have hlt : i < items.length := by simp at hi; omega
    rw [List.getElem?_append_left (by simpa using hi), List.getElem?_map,
      List.getElem?_take_of_lt (by simp at hi; omega), List.getElem?_eq_getElem hlt]
    exact sameTool_pruneOldItem _
  · simp only [List.length_take, not_lt] at hi
    rw [List.getElem?_append_right (by simpa using hi), List.getElem?_drop]
    have hsame : items[s + (i - ((items.take s).map (Prod.fst ∘ pruneOldItem)).length)]?
        = items[i]? := by
      rw [List.length_map, List.length_take]
      rcases Nat.le_total s items.length with hs | hs
      · rw [Nat.min_eq_left hs] at hi ⊢
        rw [show s + (i - s) = i from by omega]
      · rw [List.getElem?_eq_none (by omega), List.getElem?_eq_none (by omega)]
    rw [hsame]
    exact ⟨rfl, rfl⟩

/-! ## Moving the cut -/

section BackOff

variable {items : List Value}

theorem backOff_le (items : List Value) (r : ℕ) : backOff items r ≤ r := by
  induction r with
  | zero => exact le_rfl
  | succ r ih => rw [backOff]; split <;> omega

/-- The items passed over are outputs. -/
theorem isFunctionOutputItem_of_backOff_lt {r j : ℕ} (hj : backOff items r < j) (hjr : j ≤ r) :
    isFunctionOutputItem (itemAt items j) := by
  induction r with
  | zero => omega
  | succ r ih =>
    rw [backOff] at hj
    split at hj
    · rename_i hout
      rcases Nat.lt_or_eq_of_le hjr with h | rfl
      · exact ih hj (by omega)
      · exact hout
    · omega

/-- The cut ends at the front or on an item that is no output. -/
theorem backOff_eq_zero_or (items : List Value) (r : ℕ) :
    backOff items r = 0 ∨ isFunctionOutputItem (itemAt items (backOff items r)) = false := by
  induction r with
  | zero => exact Or.inl rfl
  | succ r ih =>
    rw [backOff]
    split
    · exact ih
    · rename_i hout
      exact Or.inr (Bool.eq_false_of_not_eq_true hout)

/-- The cut ends on `q` if `q` is no output and only outputs lie between. -/
theorem backOff_eq {q r : ℕ} (hqr : q ≤ r) (hq : isFunctionOutputItem (itemAt items q) = false)
    (hout : ∀ j, q < j → j ≤ r → isFunctionOutputItem (itemAt items j)) :
    backOff items r = q := by
  rcases Nat.lt_trichotomy (backOff items r) q with h | h | h
  · have := isFunctionOutputItem_of_backOff_lt h hqr
    simp [hq] at this
  · exact h
  · rcases backOff_eq_zero_or items r with h0 | hne
    · omega
    · simp [hout _ h (backOff_le items r)] at hne

theorem backOff_mono {r r' : ℕ} (h : r ≤ r') : backOff items r ≤ backOff items r' := by
  induction r' with
  | zero => rw [Nat.le_zero.mp h]
  | succ r' ih =>
    rcases Nat.lt_or_eq_of_le h with h' | rfl
    · rw [backOff]
      split
      · exact ih (by omega)
      · exact (backOff_le items r).trans (by omega)
    · exact le_rfl

/-- Moving commutes with clamping. -/
theorem backOff_clamp {x lo hi : ℕ} (h : lo ≤ hi) :
    backOff items (clamp x lo hi)
      = clamp (backOff items x) (backOff items lo) (backOff items hi) := by
  have hlohi : backOff items lo ≤ backOff items hi := backOff_mono h
  have hxlo : x ≤ lo → backOff items x ≤ backOff items lo := fun h => backOff_mono h
  have hlox : lo ≤ x → backOff items lo ≤ backOff items x := fun h => backOff_mono h
  have hxhi : x ≤ hi → backOff items x ≤ backOff items hi := fun h => backOff_mono h
  have hhix : hi ≤ x → backOff items hi ≤ backOff items x := fun h => backOff_mono h
  unfold clamp
  rcases Nat.lt_or_ge x lo with h1 | h1
  · rw [if_pos h1]
    split_ifs <;> omega
  rw [if_neg (show ¬ x < lo from by omega)]
  rcases Nat.lt_or_ge hi x with h2 | h2
  · rw [if_pos h2]
    split_ifs <;> omega
  · rw [if_neg (show ¬ hi < x from by omega)]
    split_ifs <;> omega

end BackOff

/-! ## The one cut -/

section

variable (serde : Serde)

/-- The cut the size limits give, before it is moved off the outputs. -/
def compactCut (items : List Value) (keepLast : ℕ) : ℕ :=
  clamp (charsCutFrom serde items recentKeepChars items.length 0)
    (items.length - max keepLast compactMinKeepItems) (items.length - compactMinKeepItems)

theorem compactSplitAt_eq (items : List Value) (keepLast : ℕ) :
    compactSplitAt items keepLast = backOff items (items.length - keepLast) := by
  rw [compactSplitAt]
  split
  · rename_i h
    rw [Nat.sub_eq_zero_of_le h, backOff]
  · rfl

/-- The three cuts are one cut moved off the outputs. -/
theorem compactKeepSplit_eq {items : List Value} (h : compactMinKeepItems < items.length)
    (keepLast : ℕ) : compactKeepSplit serde items keepLast
      = backOff items (compactCut serde items keepLast) := by
  have hne : items ≠ [] := by
    rintro rfl
    simp at h
  rw [compactKeepSplit, if_neg (by omega), compactCut, backOff_clamp (by omega),
    ← compactSplitAt_eq, ← compactSplitAt_eq, compactSplitAtChars, if_neg hne]

end

/-! ## The condition -/

/-- At the cut `r`: when `q` is the last item up to `r` that is no output, the
outputs from there to the cut all answer `q`, and no output behind the cut
answers a call in front of `q`. -/
def CutClear (items : List Value) (r : ℕ) : Prop :=
  ∀ q ≤ r, isFunctionOutputItem (itemAt items q) = false →
    (∀ j, q < j → j ≤ r → isFunctionOutputItem (itemAt items j)) →
      (∀ j, q < j → j ≤ r → itemCallId (itemAt items j) ≠ "" →
          Answers (itemAt items q) (itemAt items j))
        ∧ ∀ j, r < j → isFunctionOutputItem (itemAt items j) → itemCallId (itemAt items j) ≠ "" →
            ∀ i < q, Answers (itemAt items i) (itemAt items j) →
              ∃ i', q ≤ i' ∧ i' < j ∧ Answers (itemAt items i') (itemAt items j)

/-- **The kept items are in order exactly when the cut is clear.** -/
theorem callsPrecede_drop_backOff_iff {items : List Value} (h : CallsPrecede items) (r : ℕ) :
    CallsPrecede (items.drop (backOff items r)) ↔ CutClear items r := by
  rw [callsPrecede_drop]
  constructor
  · intro hdrop q hqr hq hout
    have hcut := backOff_eq hqr hq hout
    rw [hcut] at hdrop
    refine ⟨fun j hqj hjr hid => ?_, fun j hrj hjout hid _ _ _ => hdrop j (by omega) hjout hid⟩
    -- between the pivot and the cut there are outputs only, so the call is the pivot
    obtain ⟨i, hqi, hij, hans⟩ := hdrop j hqj.le (hout j hqj hjr) hid
    rcases Nat.eq_or_lt_of_le hqi with rfl | hlt
    · exact hans
    · have := isFunctionOutputItem_of_isCallItem hans.1
      simp [hout i hlt (by omega)] at this
  · intro hclear j hj hjout hid
    obtain ⟨i, hij, hans⟩ := h j hjout hid
    rcases backOff_eq_zero_or items r with h0 | hq
    · exact ⟨i, by omega, hij, hans⟩
    obtain ⟨hrun, hbehind⟩ := hclear _ (backOff_le items r) hq
      fun j hqj hjr => isFunctionOutputItem_of_backOff_lt hqj hjr
    rcases Nat.eq_or_lt_of_le hj with heq | hlt
    · rw [← heq, hq] at hjout
      simp at hjout
    rcases Nat.lt_or_ge r j with hrj | hjr
    · rcases Nat.lt_or_ge i (backOff items r) with hi | hi
      · exact hbehind j hrj hjout hid i hi hans
      · exact ⟨i, hi, hij, hans⟩
    · exact ⟨_, le_rfl, hlt, hrun j hlt hjr hid⟩

/-! ## Compaction -/

section

variable (serde : Serde)

/-- Compaction keeps the order exactly when the kept items are in order. -/
theorem callsPrecede_compactInput (items : List Value) (keepLast : ℕ) :
    CallsPrecede (compactInput serde items keepLast).1
      ↔ CallsPrecede (items.drop (compactKeepSplit serde items keepLast)) := by
  rw [compactInput]
  split
  · rename_i hshort
    rw [compactKeepSplit, if_pos hshort, List.drop_zero]
  simp only
  split
  · rename_i hzero
    rw [hzero, List.drop_zero]
  · rw [← callsPrecede_congr (sameTool_pruneOldToolOutputs serde _), callsPrecede_notice]

/-- **When compaction orphans no tool result.**  In a conversation in which
every output comes after its call, the compacted list has that property exactly
when the cut is clear; and the aggressive pass returns the compacted list. -/
theorem compactInput_callsPrecede_iff :
    (∀ (items : List Value) (keepLast : ℕ), CallsPrecede items →
        (CallsPrecede (compactInput serde items keepLast).1
          ↔ items.length ≤ compactMinKeepItems
            ∨ CutClear items (compactCut serde items keepLast)))
      ∧ ∀ (sanitize : String → Value → SanitizeOutcome) (path : String) (body : Value)
          (items : List Value), (sanitize path body).openaiFamily = false →
          (sanitize path body).body.getArray "input" = some items →
          (sanitizeResponsesRequestAggressive serde sanitize path body).body.getArray "input"
            = some (compactInput serde items aggressiveCompactKeepLast).1 := by
  refine ⟨fun items keepLast h => ?_, fun sanitize path body items hfamily hinput => ?_⟩
  · rw [callsPrecede_compactInput serde]
    rcases Nat.lt_or_ge compactMinKeepItems items.length with hlong | hshort
    · rw [compactKeepSplit_eq serde hlong, callsPrecede_drop_backOff_iff h,
        or_iff_right (by omega)]
    · rw [compactKeepSplit, if_pos hshort, List.drop_zero]
      exact iff_of_true h (Or.inl hshort)
  · rw [sanitizeResponsesRequestAggressive]
    simp only [hfamily, Bool.false_eq_true, if_false, hinput]
    exact Value.getArray_insert hinput _

end

/-- A call or an output of the closed examples. -/
def toolItem (kind id : String) : Value :=
  .object [("call_id", .string id), ("type", .string kind)]

/-- Two parallel calls, their outputs, and fourteen messages. -/
def parallelCalls : List Value :=
  [toolItem "function_call" "a", toolItem "function_call" "b",
    toolItem "function_call_output" "a", toolItem "function_call_output" "b"]
    ++ List.replicate 14 (messageFromText "go on")

/-- The same calls one after the other. -/
def serialCalls : List Value :=
  [toolItem "function_call" "a", toolItem "function_call_output" "a",
    toolItem "function_call" "b", toolItem "function_call_output" "b"]
    ++ List.replicate 6 (messageFromText "go on")

instance (call output : Value) : Decidable (Answers call output) :=
  inferInstanceAs (Decidable (_ ∧ _))

/-- There is no output behind the end of the list. -/
theorem lt_length_of_isFunctionOutputItem {items : List Value} {j : ℕ}
    (h : isFunctionOutputItem (itemAt items j)) : j < items.length := by
  by_contra hj
  rw [itemAt, List.getD_eq_getElem?_getD, List.getElem?_eq_none (by omega)] at h
  exact absurd h (by decide)

instance (items : List Value) : Decidable (CallsPrecede items) :=
  decidable_of_iff (∀ j < items.length, isFunctionOutputItem (itemAt items j) →
      itemCallId (itemAt items j) ≠ "" → ∃ i < j, Answers (itemAt items i) (itemAt items j))
    ⟨fun h j hout => h j (lt_length_of_isFunctionOutputItem hout) hout, fun h j _ => h j⟩

/-- One call after the other is compacted in order, here by folding two items. -/
theorem callsPrecede_compactInput_serial :
    CallsPrecede (compactInput plainSerde serialCalls 8).1 := by
  refine ((compactInput_callsPrecede_iff plainSerde).1 serialCalls 8 (by decide)).mpr (Or.inr ?_)
  have hcut : compactCut plainSerde serialCalls 8 = 2 := by decide
  rw [hcut]
  intro q hq hpivot hrun
  obtain rfl : q = 2 := by
    by_contra hne
    have := hrun 2 (by omega) le_rfl
    revert this
    decide
  refine ⟨fun j hqj hj => absurd hqj (by omega), fun j hj hout _ i hi hans => ?_⟩
  have hlen : j < 10 := lt_length_of_isFunctionOutputItem hout
  have key : ∀ j < 10, 2 < j → isFunctionOutputItem (itemAt serialCalls j) → j = 3 := by decide
  obtain rfl := key j hlen hj hout
  exact ⟨2, le_rfl, by omega, by decide⟩

/-- Of two parallel calls compaction folds the first and keeps its output. -/
theorem not_callsPrecede_of_parallel :
    ¬ ∀ (serde : Serde) (items : List Value) (keepLast : ℕ), CallsPrecede items →
      CallsPrecede (compactInput serde items keepLast).1 := by
  intro h
  have hkept := h plainSerde parallelCalls aggressiveCompactKeepLast (by decide)
  rw [callsPrecede_compactInput plainSerde,
    compactKeepSplit_eq plainSerde (by decide)] at hkept
  revert hkept
  decide

end CodexRouter
