/-
# The end of a text that is held back

A scanner that takes patterns out of a stream holds the end of what it has read as
long as this end may go on to a pattern.  `heldEnd p l` is the longest end of `l`
with the property `p`.  When the property passes on to non-empty beginnings, only
what was held has to be remembered (`heldEnd_append`), and a scanner that does
nothing but hold gives out the text less its held end (`passAll_spec`).
-/
import Mathlib.Data.List.Infix

section

variable {α : Type} (p : List α → Bool)

/-- The longest end with the property, empty if there is none. -/
def heldEnd (l : List α) : List α := (l.tails.find? p).getD []

/-- Read a chunk: what is given out, and what is held. -/
def passOn (hold chunk : List α) : List α × List α :=
  ((hold ++ chunk).take ((hold ++ chunk).length - (heldEnd p (hold ++ chunk)).length),
    heldEnd p (hold ++ chunk))

/-- Read the chunks one after the other. -/
def passAll (hold : List α) : List (List α) → List α × List α
  | [] => ([], hold)
  | chunk :: rest =>
    let later := passAll (passOn p hold chunk).2 rest
    ((passOn p hold chunk).1 ++ later.1, later.2)

variable {p} {l e c : List α}

theorem heldEnd_nil : heldEnd p [] = [] := by
  unfold heldEnd
  rw [List.tails, List.find?_singleton]
  split <;> rfl

theorem heldEnd_cons (a : α) (l : List α) :
    heldEnd p (a :: l) = if p (a :: l) = true then a :: l else heldEnd p l := by
  unfold heldEnd
  rw [List.tails_cons, List.find?_cons]
  split
  · rename_i hp
    rw [if_pos hp]
    rfl
  · rename_i hp
    rw [if_neg (by rw [hp]; exact Bool.false_ne_true)]

theorem heldEnd_suffix (l : List α) : heldEnd p l <:+ l := by
  induction l with
  | nil => rw [heldEnd_nil]
  | cons a l ih =>
    rw [heldEnd_cons]
    split
    · exact List.suffix_refl _
    · exact ih.trans (List.suffix_cons a l)

/-- What is held has the property. -/
theorem holds_heldEnd (h : heldEnd p l ≠ []) : p (heldEnd p l) = true := by
  induction l with
  | nil => exact absurd heldEnd_nil h
  | cons a l ih =>
    rw [heldEnd_cons] at h ⊢
    split
    · rename_i hp
      exact hp
    · rename_i hp
      rw [if_neg hp] at h
      exact ih h

/-- No end with the property is longer. -/
theorem length_le_heldEnd (he : e <:+ l) (hp : p e = true) : e.length ≤ (heldEnd p l).length := by
  induction l with
  | nil =>
    rw [List.suffix_nil] at he
    rw [he]
    exact Nat.zero_le _
  | cons a l ih =>
    rw [heldEnd_cons]
    split
    · exact he.length_le
    · rename_i hno
      rcases List.suffix_cons_iff.mp he with rfl | he
      · exact absurd hp hno
      · exact ih he

/-- The held end is known by its length. -/
theorem heldEnd_eq (he : e <:+ l) (hp : e = [] ∨ p e = true)
    (hmost : ∀ s, s <:+ l → p s = true → s.length ≤ e.length) : heldEnd p l = e := by
  have hle : (heldEnd p l).length ≤ e.length := by
    by_cases hnil : heldEnd p l = []
    · rw [hnil]
      exact Nat.zero_le _
    · exact hmost _ (heldEnd_suffix l) (holds_heldEnd hnil)
  have hge : e.length ≤ (heldEnd p l).length := by
    rcases hp with rfl | hp
    · exact Nat.zero_le _
    · exact length_le_heldEnd he hp
  have hsuffix := List.suffix_of_suffix_length_le (heldEnd_suffix (p := p) l) he hle
  exact hsuffix.eq_of_length (le_antisymm hle hge)

/-- What was given out before does not come back into the held end. -/
theorem heldEnd_append (hpfx : ∀ a b : List α, a ≠ [] → p (a ++ b) = true → p a = true) (l c : List α) :
    heldEnd p (heldEnd p l ++ c) = heldEnd p (l ++ c) := by
  have hcommon : heldEnd p l ++ c <:+ l ++ c := by
    obtain ⟨front, hfront⟩ := heldEnd_suffix (p := p) l
    exact ⟨front, by rw [← List.append_assoc, hfront]⟩
  symm
  apply heldEnd_eq ((heldEnd_suffix _).trans hcommon)
  · by_cases hnil : heldEnd p (heldEnd p l ++ c) = []
    · exact .inl hnil
    · exact .inr (holds_heldEnd hnil)
  · intro s hs hp
    apply length_le_heldEnd _ hp
    rcases List.suffix_or_suffix_of_suffix hs (List.suffix_append l c) with hs' | ⟨a, rfl⟩
    · exact hs'.trans (List.suffix_append _ _)
    · -- the end begins in what was read before, and its beginning has the property
      obtain ⟨front, hfront⟩ := hs
      rw [← List.append_assoc, List.append_cancel_right_eq] at hfront
      by_cases hnil : a = []
      · rw [hnil]
        exact List.suffix_append _ _
      · have hlength := length_le_heldEnd ⟨front, hfront⟩ (hpfx a c hnil hp)
        obtain ⟨b, hb⟩ := List.suffix_of_suffix_length_le ⟨front, hfront⟩ (heldEnd_suffix (p := p) l) hlength
        exact ⟨b, by rw [← List.append_assoc, hb]⟩

theorem append_passOn (hold chunk : List α) : (passOn p hold chunk).1 ++ (passOn p hold chunk).2 = hold ++ chunk := by
  obtain ⟨front, hfront⟩ := heldEnd_suffix (p := p) (hold ++ chunk)
  have hlength : (hold ++ chunk).length - (heldEnd p (hold ++ chunk)).length = front.length := by
    have := congrArg List.length hfront
    rw [List.length_append] at this
    omega
  have htake : (hold ++ chunk).take front.length = front := by
    rw [← hfront, List.take_left]
  rw [passOn, hlength, htake]
  exact hfront

/-- **Holding gives out the text less its held end**, however it is cut. -/
theorem passAll_spec (hpfx : ∀ a b : List α, a ≠ [] → p (a ++ b) = true → p a = true) (l : List α)
    (chunks : List (List α)) :
    (passAll p (heldEnd p l) chunks).2 = heldEnd p (l ++ chunks.flatten)
      ∧ (passAll p (heldEnd p l) chunks).1 ++ (passAll p (heldEnd p l) chunks).2
        = heldEnd p l ++ chunks.flatten := by
  induction chunks generalizing l with
  | nil => simp [passAll]
  | cons chunk rest ih =>
    have hheld : (passOn p (heldEnd p l) chunk).2 = heldEnd p (l ++ chunk) := heldEnd_append hpfx l chunk
    obtain ⟨hlast, hall⟩ := ih (l ++ chunk)
    rw [passAll, List.flatten_cons]
    dsimp only
    rw [hheld]
    refine ⟨by rw [hlast, List.append_assoc], ?_⟩
    rw [List.append_assoc, hall, ← hheld, ← List.append_assoc, append_passOn, List.append_assoc]

end
