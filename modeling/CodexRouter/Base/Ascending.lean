/-
# Values above each other

`ascend` gives every element of a list the value it wishes for, or the next one above the
value before it.  The values are in strict order, they stay as they are when they are
wished for again, and the wishes say how high they get.
-/
import Mathlib.Algebra.Ring.Int.Defs
import Mathlib.Data.List.Basic
import Mathlib.Data.Nat.Cast.Basic
import Mathlib.Order.Lattice

/-- Each value is the wish or, where that is taken, the one above the value before. -/
def ascend : ℤ → List ℤ → List ℤ
  | _, [] => []
  | next, wish :: rest => max wish next :: ascend (max wish next + 1) rest

section

variable {next top v : ℤ} {wishes : List ℤ}

@[simp] theorem length_ascend : (ascend next wishes).length = wishes.length := by
  induction wishes generalizing next with
  | nil => rfl
  | cons wish rest ih => rw [ascend, List.length_cons, ih, List.length_cons]

theorem le_of_mem_ascend (h : v ∈ ascend next wishes) : next ≤ v := by
  induction wishes generalizing next with
  | nil => cases h
  | cons wish rest ih =>
    rw [ascend] at h
    rcases List.mem_cons.mp h with rfl | h
    · exact le_max_right _ _
    · have hle := ih h
      omega

theorem pairwise_ascend : (ascend next wishes).Pairwise (· < ·) := by
  induction wishes generalizing next with
  | nil => exact .nil
  | cons wish rest ih =>
    rw [ascend]
    refine .cons (fun v hv => ?_) ih
    have hle := le_of_mem_ascend hv
    omega

theorem nodup_ascend : (ascend next wishes).Nodup := pairwise_ascend.imp ne_of_lt

/-- A value above all wishes is the one above the value before, whatever is wished for. -/
theorem ascend_ascend (h : ∀ wish ∈ wishes, wish ≤ top) :
    ascend next ((ascend next wishes).map (min top)) = ascend next wishes := by
  induction wishes generalizing next with
  | nil => rfl
  | cons wish rest ih =>
    obtain ⟨hwish, hrest⟩ := List.forall_mem_cons.mp h
    have hvalue : max (min top (max wish next)) next = max wish next := by omega
    rw [ascend, List.map_cons, ascend, hvalue, ih hrest]

/-- Where all wish for the first value the values are counted up. -/
theorem ascend_of_le (h : ∀ wish ∈ wishes, wish ≤ next) :
    ascend next wishes = (List.range wishes.length).map fun (k : ℕ) => next + k := by
  induction wishes generalizing next with
  | nil => rfl
  | cons wish rest ih =>
    obtain ⟨hwish, hrest⟩ := List.forall_mem_cons.mp h
    rw [ascend, max_eq_right hwish, ih fun w hw => (hrest w hw).trans (by omega), List.length_cons,
      List.range_succ_eq_map, List.map_cons, List.map_map, Nat.cast_zero, add_zero]
    congr 1
    apply List.map_congr_left
    intro k _
    show next + 1 + (k : ℤ) = next + ((k + 1 : ℕ) : ℤ)
    omega

/-- The values stay below a bound if there is room for all of them, and behind every wish for
all that follow it. -/
theorem ascend_le_iff : (∀ v ∈ ascend next wishes, v ≤ top) ↔
    (wishes ≠ [] → next + wishes.length ≤ top + 1)
      ∧ ∀ wish rest, wish :: rest <:+ wishes → wish + rest.length ≤ top := by
  induction wishes generalizing next with
  | nil =>
    refine iff_of_true (fun _ h => absurd h List.not_mem_nil) ⟨fun h => absurd rfl h, fun wish rest h => ?_⟩
    cases List.suffix_nil.mp h
  | cons wish rest ih =>
    rw [ascend, List.forall_mem_cons, ih]
    constructor
    · rintro ⟨hfirst, hroom, hsuffix⟩
      have hall : max wish next + rest.length ≤ top := by
        by_cases hrest : rest = []
        · rw [hrest, List.length_nil]
          omega
        · have hroom := hroom hrest
          omega
      refine ⟨fun _ => ?_, fun wish' rest' h => ?_⟩
      · rw [List.length_cons]
        omega
      · rcases List.suffix_cons_iff.mp h with h | h
        · rw [List.cons.injEq] at h
          obtain ⟨rfl, rfl⟩ := h
          omega
        · exact hsuffix wish' rest' h
    · rintro ⟨hroom, hsuffix⟩
      have hroom := hroom (List.cons_ne_nil _ _)
      have hfirst := hsuffix wish rest (List.suffix_refl _)
      rw [List.length_cons] at hroom
      exact ⟨by omega, fun _ => by omega, fun wish' rest' h => hsuffix wish' rest' (h.trans (List.suffix_cons _ _))⟩

/-- From one on, the room behind the first wish is the room for all. -/
theorem ascend_one_le_iff (h : ∀ wish ∈ wishes, 1 ≤ wish) : (∀ v ∈ ascend 1 wishes, v ≤ top) ↔
    ∀ wish rest, wish :: rest <:+ wishes → wish + rest.length ≤ top := by
  rw [ascend_le_iff, and_iff_right_iff_imp]
  intro hsuffix hne
  obtain ⟨wish, rest, rfl⟩ := List.exists_cons_of_ne_nil hne
  have hfirst := hsuffix wish rest (List.suffix_refl _)
  have hwish := h wish List.mem_cons_self
  rw [List.length_cons]
  omega

end
