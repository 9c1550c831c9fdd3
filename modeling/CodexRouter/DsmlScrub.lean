/-
# Scrubbing the control tags of DeepSeek

A text of a DeepSeek model goes through `DeepSeekDsmlScan` in chunks, or as a leaf
of a JSON body (`strip_deepseek_dsml_from_value`).

On a text without the mark `｜DSML｜` the scanner finds no tag and only holds: it
gives out the text less its longest end that begins a tag, and `flush` drops this
end (`scrubChunks_held`).

The walk over a JSON value stops at the first leaf that scrubbing alters, so that
it cleans the whole tree exactly when there is no second one
(`cleansTree_iff`).
-/
import CodexRouter.Base.HeldEnd
import CodexRouter.ChatScan

namespace CodexRouter

open Text

/-! ## Chunks -/

namespace DeepSeekDsmlScan

/-- The scanner of a new stream. -/
def fresh : DeepSeekDsmlScan := ⟨[], false, false⟩

/-- Push the chunks one after the other. -/
def pushAll (s : DeepSeekDsmlScan) : List String → String × DeepSeekDsmlScan
  | [] => ("", s)
  | chunk :: rest =>
    let later := pushAll (s.push chunk).2 rest
    ((s.push chunk).1 ++ later.1, later.2)

end DeepSeekDsmlScan

/-- What the pushes give, followed by what `flush` gives, which is the empty text. -/
def scrubChunks (chunks : List String) : String := (DeepSeekDsmlScan.fresh.pushAll chunks).1 ++ ""

/-- The mark of a control tag. -/
def dsmlMark : String := "｜DSML｜"

/-- The text is the beginning of a control tag, and not the whole of it. -/
def BeginsDsmlTag (cs : List Char) : Prop :=
  cs ≠ [] ∧ ∃ tag ∈ dsmlTags, cs <+: tag.toList ∧ cs.length < tag.length

instance (cs : List Char) : Decidable (BeginsDsmlTag cs) := inferInstanceAs (Decidable (_ ∧ _))

section

variable {cs : List Char} {n : ℕ}

theorem beginsDsmlTag_of_append {a b : List Char} (ha : a ≠ []) (h : BeginsDsmlTag (a ++ b)) : BeginsDsmlTag a := by
  obtain ⟨-, tag, htag, hprefix, hlength⟩ := h
  rw [List.length_append] at hlength
  exact ⟨ha, tag, htag, (List.prefix_append a b).trans hprefix, by omega⟩

/-- What the scanner holds is a held end. -/
theorem deepseekDsmlPrefixSuffixLen_eq (cs : List Char) :
    deepseekDsmlPrefixSuffixLen cs = (heldEnd (fun e => decide (BeginsDsmlTag e)) cs).length := by
  have hbegins : (fun suffix : List Char => decide (suffix ≠ [] ∧ dsmlTags.any fun tag =>
      suffix.isPrefixOf tag.toList && suffix.length < tag.length)) = fun e => decide (BeginsDsmlTag e) := by
    funext e
    rw [decide_eq_decide, BeginsDsmlTag]
    simp only [List.any_eq_true, Bool.and_eq_true, List.isPrefixOf_iff_prefix, decide_eq_true_eq]
  rw [deepseekDsmlPrefixSuffixLen, heldEnd, hbegins]
  cases cs.tails.find? fun e => decide (BeginsDsmlTag e) <;> rfl

/-- There is no tag without the mark. -/
theorem deepseekDsmlTagAt_eq_none (h : ¬ dsmlMark.toList <:+: cs) : deepseekDsmlTagAt cs = none := by
  have hstarts : ∀ start ∈ dsmlTagStarts, dsmlMark.toList <:+: start.1.toList := by decide
  have hno : ∀ rest, ¬ dsmlMark.toList <:+: rest → dsmlTagStarts.findSome? (dsmlTagWith rest) = none := by
    intro rest hrest
    rw [List.findSome?_eq_none_iff]
    intro start hstart
    rw [dsmlTagWith, if_neg]
    intro hprefix
    exact hrest ((hstarts start hstart).trans (List.isPrefixOf_iff_prefix.mp hprefix).isInfix)
  have hdrop : ∀ k, ¬ dsmlMark.toList <:+: cs.drop k := fun k hmark => h (hmark.trans (List.drop_suffix k cs).isInfix)
  rw [deepseekDsmlTagAt, hno cs h, hno _ (hdrop _)]
  simp

/-- Outside of an invocation the loop lets a character pass. -/
theorem loop_cons_of_no_tag {ch : Char} {rest : List Char} (h : deepseekDsmlTagAt (ch :: rest) = none) :
    DeepSeekDsmlScan.loop (n + 1) false false (ch :: rest) = (DeepSeekDsmlScan.loop n false false rest).cons ch := by
  rw [DeepSeekDsmlScan.loop.eq_def]
  dsimp only
  rw [h]
  rfl

/-- Without the mark the loop lets every character pass. -/
theorem loop_of_no_mark (h : ¬ dsmlMark.toList <:+: cs) (hn : cs.length < n) :
    DeepSeekDsmlScan.loop n false false cs = ⟨cs, ⟨[], false, false⟩, false⟩ := by
  induction cs generalizing n with
  | nil => cases n <;> rfl
  | cons ch rest ih =>
    rw [List.length_cons] at hn
    obtain ⟨n, rfl⟩ := Nat.exists_eq_succ_of_ne_zero (by omega : n ≠ 0)
    have hrest : ¬ dsmlMark.toList <:+: rest := fun hmark => h (hmark.trans (List.suffix_cons ch rest).isInfix)
    rw [loop_cons_of_no_tag (deepseekDsmlTagAt_eq_none h), ih hrest (by omega)]
    rfl

/-- Without the mark a push only holds. -/
theorem push_of_no_mark {hold : List Char} {chunk : String} (h : ¬ dsmlMark.toList <:+: hold ++ chunk.toList) :
    DeepSeekDsmlScan.push ⟨hold, false, false⟩ chunk
      = (String.ofList (passOn (fun e => decide (BeginsDsmlTag e)) hold chunk.toList).1,
        ⟨(passOn (fun e => decide (BeginsDsmlTag e)) hold chunk.toList).2, false, false⟩) := by
  rw [DeepSeekDsmlScan.push]
  dsimp only
  rw [loop_of_no_mark h (Nat.lt_succ_self _)]
  dsimp only
  rw [deepseekDsmlPrefixSuffixLen_eq, passOn]
  obtain ⟨front, hfront⟩ := heldEnd_suffix (p := fun e => decide (BeginsDsmlTag e)) (hold ++ chunk.toList)
  generalize heldEnd (fun e => decide (BeginsDsmlTag e)) (hold ++ chunk.toList) = held at hfront ⊢
  rw [← hfront]
  cases held with
  | nil => simp
  | cons c held =>
    rw [if_pos ⟨rfl, rfl, rfl, Nat.succ_pos _⟩, List.length_append, Nat.add_sub_cancel, List.drop_left]

theorem pushAll_of_no_mark {hold : List Char} {chunks : List String}
    (h : ¬ dsmlMark.toList <:+: hold ++ (chunks.map String.toList).flatten) :
    (DeepSeekDsmlScan.pushAll ⟨hold, false, false⟩ chunks).1
      = String.ofList (passAll (fun e => decide (BeginsDsmlTag e)) hold (chunks.map String.toList)).1 := by
  induction chunks generalizing hold with
  | nil => rfl
  | cons chunk rest ih =>
    rw [List.map_cons, List.flatten_cons, ← List.append_assoc] at h
    have hfirst : ¬ dsmlMark.toList <:+: hold ++ chunk.toList := fun hmark =>
      h (hmark.trans (List.prefix_append _ _).isInfix)
    have hrest : ¬ dsmlMark.toList <:+: (passOn (fun e => decide (BeginsDsmlTag e)) hold chunk.toList).2
        ++ (rest.map String.toList).flatten := by
      intro hmark
      apply h
      rw [← append_passOn (p := fun e => decide (BeginsDsmlTag e)) hold chunk.toList, List.append_assoc]
      exact hmark.trans (List.suffix_append _ _).isInfix
    rw [DeepSeekDsmlScan.pushAll, push_of_no_mark hfirst, List.map_cons, passAll]
    dsimp only
    rw [ih hrest, String.ofList_append]

end

/-- The scrubbed form of a leaf: one push on a new scanner, then `flush`. -/
def scrubLeaf (text : String) : String := scrubChunks [text]

/-- One turn of `iter_mut().any`: what stands behind a changed element is not visited. -/
def anyTurn {α : Type} (result : Bool × α) (rest : List α) (later : Bool × List α) : Bool × List α :=
  if result.1 then (true, result.2 :: rest) else (later.1, result.2 :: later.2)

mutual

/-- `strip_deepseek_dsml_from_value`: whether a leaf was altered, and the value it leaves. -/
def stripDeepseekDsmlFromValue : Value → Bool × Value
  | .string text =>
    let cleaned := scrubLeaf text
    if cleaned ≠ text then (true, .string cleaned) else (false, .string text)
  | .array values => ((stripDsmlItems values).1, .array (stripDsmlItems values).2)
  | .object entries => ((stripDsmlEntries entries).1, .object (stripDsmlEntries entries).2)
  | .null => (false, .null)
  | .bool b => (false, .bool b)
  | .number n => (false, .number n)
termination_by structural v => v

/-- `values.iter_mut().any(strip_deepseek_dsml_from_value)`. -/
def stripDsmlItems : List Value → Bool × List Value
  | [] => (false, [])
  | value :: rest => anyTurn (stripDeepseekDsmlFromValue value) rest (stripDsmlItems rest)
termination_by structural values => values

/-- A member of an object. -/
def stripDsmlEntry : String × Value → Bool × (String × Value)
  | (key, value) => ((stripDeepseekDsmlFromValue value).1, (key, (stripDeepseekDsmlFromValue value).2))
termination_by structural e => e

/-- `object.values_mut().any(strip_deepseek_dsml_from_value)`. -/
def stripDsmlEntries : List (String × Value) → Bool × List (String × Value)
  | [] => (false, [])
  | entry :: rest => anyTurn (stripDsmlEntry entry) rest (stripDsmlEntries rest)
termination_by structural entries => entries

end

mutual

/-- The number of string leaves that scrubbing alters. -/
def dirtyLeaves : Value → ℕ
  | .string text => if scrubLeaf text ≠ text then 1 else 0
  | .array values => dirtyItems values
  | .object entries => dirtyEntries entries
  | .null | .bool _ | .number _ => 0
termination_by structural v => v

/-- The altered leaves of the values of an array. -/
def dirtyItems : List Value → ℕ
  | [] => 0
  | value :: rest => dirtyLeaves value + dirtyItems rest
termination_by structural values => values

/-- The altered leaves of a member. -/
def dirtyEntry : String × Value → ℕ
  | (_, value) => dirtyLeaves value
termination_by structural e => e

/-- The altered leaves of the members of an object. -/
def dirtyEntries : List (String × Value) → ℕ
  | [] => 0
  | entry :: rest => dirtyEntry entry + dirtyEntries rest
termination_by structural entries => entries

end

/-- The whole tree is cleaned: every string leaf is scrubbed where it stands, and the
answer says whether a leaf has changed. -/
structure CleansTree (value : Value) : Prop where
  leaves : (stripDeepseekDsmlFromValue value).2 = value.mapStrings scrubLeaf
  changed : (stripDeepseekDsmlFromValue value).1 = true ↔ (stripDeepseekDsmlFromValue value).2 ≠ value

/-- What the walk does with a value that has a number of altered leaves: it leaves a clean
value, alters a value that is not, and scrubs all of it if there is only one such leaf. -/
structure StripSpec {α : Type} (value scrubbed : α) (dirty : ℕ) (result : Bool × α) : Prop where
  changed : result.1 = true ↔ 0 < dirty
  clean : dirty = 0 → scrubbed = value ∧ result.2 = value
  altered : 0 < dirty → scrubbed ≠ value ∧ result.2 ≠ value
  all_iff : result.2 = scrubbed ↔ dirty ≤ 1

section

variable {value scrubbed : Value} {dirty : ℕ} {result : Bool × Value}

/-- Values behind each other. -/
theorem StripSpec.cons {α : Type} {a scrubbed : α} {rest scrubbedRest : List α} {dirty dirtyRest : ℕ}
    {result : Bool × α} {resultRest : Bool × List α} (h : StripSpec a scrubbed dirty result)
    (hrest : StripSpec rest scrubbedRest dirtyRest resultRest) :
    StripSpec (a :: rest) (scrubbed :: scrubbedRest) (dirty + dirtyRest)
      (anyTurn result rest resultRest) := by
  obtain ⟨changed, a'⟩ := result
  cases changed with
  | true =>
    have hdirty : 0 < dirty := h.changed.mp rfl
    obtain ⟨hscrubbed, ha⟩ := h.altered hdirty
    show StripSpec _ _ _ (true, a' :: rest)
    refine ⟨iff_of_true rfl (by omega), fun h0 => by omega, fun _ => ⟨?_, ?_⟩, ?_⟩
    · rw [ne_eq, List.cons.injEq, not_and_or]
      exact .inl hscrubbed
    · rw [ne_eq, List.cons.injEq, not_and_or]
      exact .inl ha
    · -- the others were not looked at
      have hall : a' = scrubbed ↔ dirty ≤ 1 := h.all_iff
      have hnone : rest = scrubbedRest ↔ dirtyRest = 0 := by
        refine ⟨fun heq => ?_, fun h0 => (hrest.clean h0).1.symm⟩
        by_contra hne
        exact (hrest.altered (Nat.pos_of_ne_zero hne)).1 heq.symm
      rw [List.cons.injEq, hall, hnone]
      omega
  | false =>
    have hdirty : dirty = 0 := by
      by_contra hne
      have := h.changed.mpr (Nat.pos_of_ne_zero hne)
      cases this
    show StripSpec _ _ _ (resultRest.1, a' :: resultRest.2)
    obtain ⟨hscrubbed, ha⟩ := h.clean hdirty
    obtain rfl : a' = a := ha
    rw [hdirty, Nat.zero_add, hscrubbed]
    refine ⟨hrest.changed, fun h0 => ?_, fun hpos => ?_, ?_⟩
    · obtain ⟨hscrubbed, hresult⟩ := hrest.clean h0
      exact ⟨by rw [hscrubbed], by rw [hresult]⟩
    · obtain ⟨hscrubbed, hresult⟩ := hrest.altered hpos
      exact ⟨fun heq => hscrubbed (List.cons.inj heq).2, fun heq => hresult (List.cons.inj heq).2⟩
    · rw [List.cons.injEq, and_iff_right rfl]
      exact hrest.all_iff

/-- The walk under an injective constructor. -/
theorem StripSpec.map {α β : Type} {a scrubbed : α} {dirty : ℕ} {result : Bool × α}
    (h : StripSpec a scrubbed dirty result) {f : α → β} (hf : Function.Injective f) :
    StripSpec (f a) (f scrubbed) dirty (result.1, f result.2) where
  changed := h.changed
  clean h0 := ⟨congrArg f (h.clean h0).1, congrArg f (h.clean h0).2⟩
  altered hpos := ⟨fun heq => (h.altered hpos).1 (hf heq), fun heq => (h.altered hpos).2 (hf heq)⟩
  all_iff := hf.eq_iff.trans h.all_iff

/-- A value without leaves. -/
theorem stripSpec_same {α : Type} (a : α) : StripSpec a a 0 (false, a) :=
  ⟨by simp, fun _ => ⟨rfl, rfl⟩, fun h => absurd h (lt_irrefl 0), by simp⟩

end

mutual

theorem stripSpec_value : (value : Value) →
    StripSpec value (value.mapStrings scrubLeaf) (dirtyLeaves value) (stripDeepseekDsmlFromValue value)
  | .string text => by
    rw [Value.mapStrings, dirtyLeaves, stripDeepseekDsmlFromValue]
    split
    · rename_i hne
      have hvalue : Value.string (scrubLeaf text) ≠ .string text := by simpa using hne
      exact ⟨by simp, fun h => absurd h one_ne_zero, fun _ => ⟨hvalue, hvalue⟩, by simp⟩
    · rename_i heq
      rw [not_not.mp heq]
      exact stripSpec_same _
  | .array values => (stripSpec_items values).map fun _ _ => Value.array.inj
  | .object entries => (stripSpec_entries entries).map fun _ _ => Value.object.inj
  | .null => stripSpec_same _
  | .bool _ => stripSpec_same _
  | .number _ => stripSpec_same _
termination_by structural v => v

theorem stripSpec_items : (values : List Value) →
    StripSpec values (Value.mapStringsItems scrubLeaf values) (dirtyItems values) (stripDsmlItems values)
  | [] => stripSpec_same _
  | value :: rest => (stripSpec_value value).cons (stripSpec_items rest)
termination_by structural values => values

theorem stripSpec_entry : (entry : String × Value) →
    StripSpec entry (Value.mapStringsEntry scrubLeaf entry) (dirtyEntry entry) (stripDsmlEntry entry)
  | (_, value) => (stripSpec_value value).map fun _ _ h => (Prod.mk.inj h).2
termination_by structural e => e

theorem stripSpec_entries : (entries : List (String × Value)) →
    StripSpec entries (Value.mapStringsEntries scrubLeaf entries) (dirtyEntries entries) (stripDsmlEntries entries)
  | [] => stripSpec_same _
  | entry :: rest => (stripSpec_entry entry).cons (stripSpec_entries rest)
termination_by structural entries => entries

end

/-- **The whole tree is cleaned exactly when it has at most one leaf to clean.** -/
theorem cleansTree_iff (value : Value) : CleansTree value ↔ dirtyLeaves value ≤ 1 := by
  have hspec := stripSpec_value value
  rw [← hspec.all_iff]
  refine ⟨fun h => h.leaves, fun h => ⟨h, hspec.changed.trans ⟨fun hpos => (hspec.altered hpos).2, fun hne => ?_⟩⟩⟩
  by_contra hzero
  exact hne (hspec.clean (Nat.eq_zero_of_not_pos hzero)).2

/-- A second leaf keeps its control tag. -/
theorem not_cleansTree_twoLeaves :
    ¬ CleansTree (.array [.string "<｜DSML｜parameter>one", .string "<｜DSML｜parameter>two"]) := by
  intro h
  have hleaves := h.leaves
  revert hleaves
  decide +kernel

end CodexRouter
