/-
# Entries with one fate each

A ledger lists entries in the order they came, each with its fate.  `having` reads off the entries of one fate in that
order, and `settle` gives all entries of one fate another.

* `having_settle` : the entries that change keep their order, when none has the new fate already;
* `length_having_settle` : otherwise their number is what is known.
-/
import Mathlib.Data.List.Basic

namespace Ledger

variable {α φ : Type*} [DecidableEq φ]

/-- The entries of one fate. -/
def having (fate : φ) (entries : List (α × φ)) : List α := (entries.filter fun entry => entry.2 = fate).map Prod.fst

/-- Give the entries of the fate `old` the fate `new`. -/
def settle (old new : φ) (entries : List (α × φ)) : List (α × φ) :=
  entries.map fun entry => if entry.2 = old then (entry.1, new) else entry

variable {fate old new : φ} {entries : List (α × φ)}

@[simp] theorem having_nil : having fate ([] : List (α × φ)) = [] := rfl

@[simp] theorem settle_nil : settle old new ([] : List (α × φ)) = [] := rfl

theorem having_cons (entry : α × φ) (entries : List (α × φ)) :
    having fate (entry :: entries) = (if entry.2 = fate then [entry.1] else []) ++ having fate entries := by
  rw [having, List.filter_cons]
  by_cases h : entry.2 = fate <;> simp [h, having]

theorem having_append (front back : List (α × φ)) :
    having fate (front ++ back) = having fate front ++ having fate back := by
  rw [having, List.filter_append, List.map_append]
  rfl

theorem settle_cons (entry : α × φ) (entries : List (α × φ)) :
    settle old new (entry :: entries) = (if entry.2 = old then (entry.1, new) else entry) :: settle old new entries := rfl

/-- Settling keeps the entries and their order. -/
@[simp] theorem map_fst_settle : (settle old new entries).map Prod.fst = entries.map Prod.fst := by
  rw [settle, List.map_map]
  apply List.map_congr_left
  intro entry _
  rw [Function.comp_apply]
  split <;> rfl

/-- The entries of a third fate are not touched. -/
theorem having_settle_of_ne (hold : fate ≠ old) (hnew : fate ≠ new) :
    having fate (settle old new entries) = having fate entries := by
  induction entries with
  | nil => rfl
  | cons entry entries ih =>
    rw [settle_cons, having_cons, having_cons, ih]
    by_cases h : entry.2 = old
    · rw [if_pos h, if_neg hnew.symm, if_neg fun h' => hold (h'.symm.trans h)]
    · rw [if_neg h]

/-- No entry of the old fate is left. -/
theorem having_settle_old (h : old ≠ new) : having old (settle old new entries) = [] := by
  induction entries with
  | nil => rfl
  | cons entry entries ih =>
    rw [settle_cons, having_cons, ih, List.append_nil]
    by_cases hold : entry.2 = old
    · rw [if_pos hold, if_neg h.symm]
    · rw [if_neg hold, if_neg hold]

/-- The entries that get the new fate, where none has it. -/
theorem having_settle (h : having new entries = []) : having new (settle old new entries) = having old entries := by
  induction entries with
  | nil => rfl
  | cons entry entries ih =>
    rw [having_cons, List.append_eq_nil_iff] at h
    rw [settle_cons, having_cons, having_cons, ih h.2]
    by_cases hold : entry.2 = old
    · rw [if_pos hold, if_pos hold, if_pos rfl]
    · rw [if_neg hold, if_neg hold, h.1]

theorem length_having_settle (h : old ≠ new) :
    (having new (settle old new entries)).length = (having new entries).length + (having old entries).length := by
  induction entries with
  | nil => rfl
  | cons entry entries ih =>
    rw [settle_cons, having_cons, having_cons, having_cons]
    simp only [List.length_append, ih]
    by_cases hold : entry.2 = old
    · rw [if_pos hold, if_pos hold, if_pos rfl, if_neg fun hnew => h (hold.symm.trans hnew)]
      simp only [List.length_cons, List.length_nil]
      omega
    · rw [if_neg hold, if_neg hold]
      simp only [List.length_nil]
      omega

end Ledger
