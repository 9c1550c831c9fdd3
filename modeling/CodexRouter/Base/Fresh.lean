/-
# Searching for an unused name

A loop that tries the names `cand i`, `cand (i + 1)`, … until one is not in a
finite set of used names.  The search is run with fuel, and an injective family
of names needs no more rounds than there are used names, plus one:

* `searchFresh_notMem` : what the search returns is unused;
* `exists_searchFresh` : with enough fuel the search returns.

`numbered` is the usual family, a stem followed by a decimal number.
-/
import Mathlib.Data.List.Basic
import Mathlib.Data.Finset.Card
import Mathlib.Data.Finset.Image

variable {α : Type*} [DecidableEq α]

/-- Try `cand i`, `cand (i + 1)`, … for at most the given number of rounds. -/
def searchFresh (cand : ℕ → α) (used : List α) : ℕ → ℕ → Option α
  | 0, _ => none
  | n + 1, i => if cand i ∈ used then searchFresh cand used n (i + 1) else some (cand i)

/-- What the search returns is one of the names and unused. -/
theorem searchFresh_spec {cand : ℕ → α} {used : List α} {n i : ℕ} {a : α}
    (h : searchFresh cand used n i = some a) : a ∉ used ∧ ∃ k, a = cand k := by
  induction n generalizing i with
  | zero => simp [searchFresh] at h
  | succ n ih =>
    by_cases hc : cand i ∈ used
    · rw [searchFresh, if_pos hc] at h
      exact ih h
    · rw [searchFresh, if_neg hc] at h
      obtain rfl := Option.some.inj h
      exact ⟨hc, i, rfl⟩

/-- A search that gives up has met only used names. -/
theorem mem_of_searchFresh_eq_none {cand : ℕ → α} {used : List α} {n i : ℕ}
    (h : searchFresh cand used n i = none) {k : ℕ} (hk : k < n) : cand (i + k) ∈ used := by
  induction n generalizing i k with
  | zero => omega
  | succ n ih =>
    by_cases hc : cand i ∈ used
    · rw [searchFresh, if_pos hc] at h
      cases k with
      | zero => simpa using hc
      | succ k =>
        have := ih h (k := k) (by omega)
        rwa [show i + 1 + k = i + (k + 1) by omega] at this
    · simp [searchFresh, hc] at h

/-- **Termination of the search.**  Distinct names are exhausted only after as
many rounds as there are used names. -/
theorem exists_searchFresh {cand : ℕ → α} (hinj : Function.Injective cand) {used : List α}
    {n : ℕ} (hn : used.length < n) (i : ℕ) : ∃ a, searchFresh cand used n i = some a := by
  cases h : searchFresh cand used n i with
  | some a => exact ⟨a, rfl⟩
  | none =>
    have hsub : (Finset.range n).image (fun k => cand (i + k)) ⊆ used.toFinset := by
      intro a ha
      obtain ⟨k, hk, rfl⟩ := Finset.mem_image.mp ha
      exact List.mem_toFinset.mpr (mem_of_searchFresh_eq_none h (Finset.mem_range.mp hk))
    have hcard := Finset.card_le_card hsub
    rw [Finset.card_image_of_injective _ (fun a b hab => by have := hinj hab; omega),
      Finset.card_range] at hcard
    have := used.toFinset_card_le
    omega

/-! ## Numbered names -/

/-- A stem followed by a decimal number. -/
def numbered (stem : String) (n : ℕ) : String := stem ++ Nat.repr n

/-- Different numbers give different names. -/
theorem numbered_injective (stem : String) : Function.Injective (numbered stem) := by
  intro a b h
  have hd : Nat.toDigits 10 a = Nat.toDigits 10 b := by
    have := congrArg String.toList h
    simpa [numbered, Nat.toList_repr] using this
  rw [← Nat.ofDigitChars_ten_toDigits (n := a), hd, Nat.ofDigitChars_ten_toDigits]

/-! ## Decimal integers -/

/-- A decimal integer has no other characters than digits and a minus sign. -/
theorem digit_or_minus_of_mem (n : ℤ) : ∀ c ∈ (toString n).toList, c.isDigit = true ∨ c = '-' := by
  have hnat : ∀ m : ℕ, ∀ c ∈ (Nat.repr m).toList, c.isDigit = true := by
    intro m c hc
    rw [Nat.toList_repr] at hc
    exact Nat.isDigit_of_mem_toDigits (by decide) (by decide) hc
  intro c hc
  cases n with
  | ofNat m => exact Or.inl (hnat m c hc)
  | negSucc m =>
    have hlist : (toString (Int.negSucc m)).toList = '-' :: (Nat.repr (m + 1)).toList := by
      show ("-" ++ Nat.repr (m + 1)).toList = _
      rw [String.toList_append]
      rfl
    rw [hlist] at hc
    rcases List.mem_cons.mp hc with rfl | hc
    · exact Or.inr rfl
    · exact Or.inl (hnat _ c hc)

theorem natRepr_injective {a b : ℕ} (h : Nat.repr a = Nat.repr b) : a = b :=
  numbered_injective "" (congrArg ("" ++ ·) h)

/-- Different integers have different decimal forms. -/
theorem toString_int_injective : Function.Injective (toString : ℤ → String) := by
  have hsign : ∀ a b : ℕ, Nat.repr a ≠ "-" ++ Nat.repr b := by
    intro a b h
    have hmem : '-' ∈ (Nat.repr a).toList := by
      rw [h, String.toList_append]
      simp
    rw [Nat.toList_repr] at hmem
    exact absurd (Nat.isDigit_of_mem_toDigits (by decide) (by decide) hmem) (by decide)
  intro a b h
  cases a with
  | ofNat a =>
    cases b with
    | ofNat b => exact congrArg Int.ofNat (natRepr_injective h)
    | negSucc b => exact absurd h (hsign a (b + 1))
  | negSucc a =>
    cases b with
    | ofNat b => exact absurd h.symm (hsign b (a + 1))
    | negSucc b =>
      have h' : Nat.repr (a + 1) = Nat.repr (b + 1) := by
        have hlist := congrArg String.toList (show "-" ++ Nat.repr (a + 1) = "-" ++ Nat.repr (b + 1) from h)
        rw [String.toList_append, String.toList_append] at hlist
        exact String.toList_injective (List.append_cancel_left hlist)
      have := natRepr_injective h'
      rw [show a = b by omega]
