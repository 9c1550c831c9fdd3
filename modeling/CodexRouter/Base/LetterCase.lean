/-
# Text operations and the letter case

`str::to_ascii_lowercase` only changes capital letters.  An operation that looks
for other characters gives the lower case of what it gave before, or the same.
-/
import CodexRouter.Base.Text
import Mathlib.Data.List.Basic

namespace Text

theorem toLower_eq_self {c : Char} (h : ¬ (65 ≤ c.toNat ∧ c.toNat ≤ 90)) : c.toLower = c := dif_neg h

/-- What a capital letter is lowered to. -/
theorem toNat_toLower {c : Char} (hge : 65 ≤ c.toNat) (hle : c.toNat ≤ 90) : c.toLower.toNat = c.toNat + 32 := by
  have hlower : c.toLower.val = c.val + ('a'.val - 'A'.val) := congrArg Char.val (dif_pos ⟨hge, hle⟩)
  show c.toLower.val.toNat = c.val.toNat + 32
  have hval : c.val.toNat = c.toNat := rfl
  rw [hlower, UInt32.toNat_add, show ('a'.val - 'A'.val).toNat = 32 from rfl]
  omega

/-- A character that is not a capital letter is what only it is lowered to, unless it is a small letter. -/
theorem toLower_eq_iff {c d : Char} (hd : d.toNat < 65 ∨ (90 < d.toNat ∧ d.toNat < 97) ∨ 122 < d.toNat) :
    c.toLower = d ↔ c = d := by
  by_cases hupper : 65 ≤ c.toNat ∧ c.toNat ≤ 90
  · have hlower := toNat_toLower hupper.1 hupper.2
    constructor
    · rintro rfl
      omega
    · rintro rfl
      omega
  · rw [toLower_eq_self hupper]

theorem toLower_toLower (c : Char) : c.toLower.toLower = c.toLower := by
  by_cases hupper : 65 ≤ c.toNat ∧ c.toNat ≤ 90
  · apply toLower_eq_self
    rw [toNat_toLower hupper.1 hupper.2]
    omega
  · rw [toLower_eq_self hupper, toLower_eq_self hupper]

theorem head?_map_toLower {d : Char} (hd : d.toNat < 65 ∨ (90 < d.toNat ∧ d.toNat < 97) ∨ 122 < d.toNat)
    (cs : List Char) : (cs.map Char.toLower).head? = some d ↔ cs.head? = some d := by
  cases cs with
  | nil => rfl
  | cons c rest =>
    rw [List.map_cons, List.head?_cons, List.head?_cons, Option.some.injEq, Option.some.injEq, toLower_eq_iff hd]

theorem toList_toAsciiLowercase (s : String) : (toAsciiLowercase s).toList = s.toList.map Char.toLower :=
  String.toList_ofList

theorem toAsciiLowercase_ofList (cs : List Char) :
    toAsciiLowercase (String.ofList cs) = String.ofList (cs.map Char.toLower) := by
  rw [toAsciiLowercase, String.toList_ofList]

theorem toAsciiLowercase_toAsciiLowercase (s : String) :
    toAsciiLowercase (toAsciiLowercase s) = toAsciiLowercase s := by
  have hchars : Char.toLower ∘ Char.toLower = Char.toLower := funext toLower_toLower
  rw [toAsciiLowercase, toList_toAsciiLowercase, List.map_map, hchars, toAsciiLowercase]

theorem toAsciiLowercase_eq_empty {s : String} : toAsciiLowercase s = "" ↔ s = "" := by
  rw [← String.toList_inj, ← String.toList_inj, toList_toAsciiLowercase]
  exact List.map_eq_nil_iff

/-! ## Operations that look for other characters -/

section

variable {p : Char → Bool} {s : String}

/-- The letter case does not count for a class of characters. -/
def IgnoresCase (p : Char → Bool) : Prop := ∀ c, p c.toLower = p c

theorem ignoresCase_eq {d : Char} (hd : d.toNat < 65 ∨ (90 < d.toNat ∧ d.toNat < 97) ∨ 122 < d.toNat) :
    IgnoresCase fun c => decide (c = d) :=
  fun _ => decide_eq_decide.mpr (toLower_eq_iff hd)

theorem IgnoresCase.comp (hp : IgnoresCase p) : p ∘ Char.toLower = p := funext hp

theorem trimEndMatches_toAsciiLowercase (hp : IgnoresCase p) (s : String) :
    trimEndMatches p (toAsciiLowercase s) = toAsciiLowercase (trimEndMatches p s) := by
  rw [trimEndMatches, toList_toAsciiLowercase, ← List.map_reverse, List.dropWhile_map, hp.comp, ← List.map_reverse,
    trimEndMatches, toAsciiLowercase_ofList]

theorem trimMatches_toAsciiLowercase (hp : IgnoresCase p) (s : String) :
    trimMatches p (toAsciiLowercase s) = toAsciiLowercase (trimMatches p s) := by
  rw [trimMatches, toList_toAsciiLowercase, List.dropWhile_map, hp.comp, ← List.map_reverse, List.dropWhile_map,
    hp.comp, ← List.map_reverse, trimMatches, toAsciiLowercase_ofList]

theorem mem_map_toLower {d : Char} (hd : d.toNat < 65 ∨ (90 < d.toNat ∧ d.toNat < 97) ∨ 122 < d.toNat)
    {cs : List Char} : d ∈ cs.map Char.toLower ↔ d ∈ cs := by
  rw [List.mem_map]
  constructor
  · rintro ⟨c, hc, hlower⟩
    rwa [← (toLower_eq_iff hd).mp hlower]
  · exact fun hmem => ⟨d, hmem, (toLower_eq_iff hd).mpr rfl⟩

theorem splitOnce_toAsciiLowercase {d : Char} (hd : d.toNat < 65 ∨ (90 < d.toNat ∧ d.toNat < 97) ∨ 122 < d.toNat)
    (s : String) : splitOnce d (toAsciiLowercase s)
      = (splitOnce d s).map fun (front, back) => (toAsciiLowercase front, toAsciiLowercase back) := by
  have hne : (fun c : Char => decide (c ≠ d)) ∘ Char.toLower = fun c => decide (c ≠ d) :=
    funext fun c => decide_eq_decide.mpr (not_congr (toLower_eq_iff hd))
  rw [splitOnce, splitOnce, toList_toAsciiLowercase, List.takeWhile_map, List.dropWhile_map, hne, ← List.map_drop]
  simp only [mem_map_toLower hd]
  split
  · rw [Option.map_some, toAsciiLowercase_ofList, toAsciiLowercase_ofList]
  · rfl

end

end Text
