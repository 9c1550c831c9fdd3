/-
# Segments of a text

A text is split at a character into segments without it.  The segments give the text back
(`splitChars_injective`), and a text that is split again elsewhere, or has its letter case lowered, has the
segments one expects.
-/
import CodexRouter.Base.LetterCase
import Mathlib.Data.List.DropRight

namespace Text

/-- A pattern of one character is found where it occurs. -/
theorem contains_ofList_singleton (s : String) (c : Char) : contains s (String.ofList [c]) = true ↔ c ∈ s.toList := by
  rw [contains, find, String.toList_ofList]
  constructor
  · intro h
    by_contra hc
    rw [findChars_cons_eq_none hc] at h
    cases h
  · intro hc
    obtain ⟨front, back, hsplit⟩ := List.append_of_mem hc
    have hthere : [c] <+: s.toList.drop front.length := by
      rw [hsplit, List.drop_left]
      exact ⟨back, rfl⟩
    obtain ⟨i, hi, -⟩ := exists_findChars_le hthere (by
      rw [hsplit, List.length_append]
      omega)
    rw [hi]
    rfl

/-- The segments with the character between them. -/
def unsplit (c : Char) : List (List Char) → List Char
  | [] => []
  | [piece] => piece
  | piece :: rest => piece ++ c :: unsplit c rest

theorem splitChars_ne_nil (p : Char → Bool) (cs : List Char) : splitChars p cs ≠ [] := by
  cases cs with
  | nil => simp [splitChars]
  | cons c cs =>
    rw [splitChars]
    split
    · simp
    · split
      · simp
      · simp

theorem unsplit_splitChars (c : Char) (cs : List Char) : unsplit c (splitChars (· = c) cs) = cs := by
  induction cs with
  | nil => rfl
  | cons d cs ih =>
    rw [splitChars]
    cases hrest : splitChars (fun x => decide (x = c)) cs with
    | nil => exact absurd hrest (splitChars_ne_nil _ _)
    | cons piece rest =>
      rw [hrest] at ih
      by_cases hd : d = c
      · rw [if_pos (by simpa using hd), unsplit, ih, hd]
        · rfl
        · simp
      · rw [if_neg (by simpa using hd)]
        cases rest with
        | nil =>
          rw [unsplit] at ih ⊢
          rw [ih]
        | cons next rest =>
          rw [← ih]
          rfl

/-- Texts with the same segments are the same. -/
theorem splitChars_injective (c : Char) : Function.Injective (splitChars (· = c)) := by
  intro cs ds h
  rw [← unsplit_splitChars c cs, ← unsplit_splitChars c ds]
  exact congrArg (unsplit c) h

theorem split_injective {c : Char} {s t : String} (h : split (· = c) s = split (· = c) t) : s = t := by
  have hlists : splitChars (· = c) s.toList = splitChars (· = c) t.toList := by
    rw [split, split] at h
    exact (List.map_injective_iff.mpr fun _ _ => String.ofList_injective) h
  exact String.toList_inj.mp (splitChars_injective c hlists)

/-- The characters of a segment. -/
theorem of_mem_split {p : Char → Bool} {s segment : String} (h : segment ∈ split p s) {c : Char}
    (hc : c ∈ segment.toList) : p c = false ∧ c ∈ s.toList := by
  obtain ⟨piece, hpiece, rfl⟩ := List.mem_map.mp h
  rw [String.toList_ofList] at hc
  exact ⟨of_mem_splitChars hpiece hc, mem_of_mem_splitChars hpiece hc⟩

theorem split_eq_self {p : Char → Bool} {s : String} (h : ∀ c ∈ s.toList, p c = false) : split p s = [s] := by
  rw [split, splitChars_eq_self h, List.map_singleton, String.ofList_toList]

theorem splitChars_map_toLower {p : Char → Bool} (hp : IgnoresCase p) (cs : List Char) :
    splitChars p (cs.map Char.toLower) = (splitChars p cs).map fun piece => piece.map Char.toLower := by
  induction cs with
  | nil => rfl
  | cons c cs ih =>
    rw [List.map_cons, splitChars, splitChars, hp c, ih]
    split
    · rfl
    · cases splitChars p cs with
      | nil => rfl
      | cons piece rest => rfl

/-- The letter case of the segments is that of the text. -/
theorem split_toAsciiLowercase {p : Char → Bool} (hp : IgnoresCase p) (s : String) :
    split p (toAsciiLowercase s) = (split p s).map toAsciiLowercase := by
  rw [split, toList_toAsciiLowercase, splitChars_map_toLower hp, split, List.map_map, List.map_map]
  exact List.map_congr_left fun piece _ => (toAsciiLowercase_ofList piece).symm

/-- Nothing is left to trim at the end. -/
theorem trimEndMatches_trimEndMatches (p : Char → Bool) (s : String) :
    trimEndMatches p (trimEndMatches p s) = trimEndMatches p s := by
  rw [trimEndMatches, trimEndMatches, String.toList_ofList, List.reverse_reverse, List.dropWhile_idempotent]

theorem trimEndMatches_append {p : Char → Bool} {c : Char} (hc : p c = true) (s : String) :
    trimEndMatches p (s ++ String.ofList [c]) = trimEndMatches p s := by
  rw [trimEndMatches, String.toList_append, String.toList_ofList, List.reverse_append, List.reverse_singleton,
    List.singleton_append, List.dropWhile_cons_of_pos hc, trimEndMatches]

end Text
