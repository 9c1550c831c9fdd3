/-
# The first of several markers

The first place at which one of several markers stands in a text.  When the first
characters of the markers do not occur behind the first character of a marker, two
markers never overlap, and the first place does not change when the text goes on
(`findAny_append`).
-/
import CodexRouter.Base.Text

namespace Text

/-- One of the markers stands at the start of the text. -/
def StartsAny (markers : List (List Char)) (text : List Char) : Prop := ∃ p ∈ markers, p <+: text

instance (markers : List (List Char)) (text : List Char) : Decidable (StartsAny markers text) :=
  inferInstanceAs (Decidable (∃ p ∈ markers, p <+: text))

/-- The first place at which one of the markers stands. -/
def findAny (markers : List (List Char)) (text : List Char) : Option ℕ :=
  (markers.filterMap (findChars · text)).min?

/-- A marker does not begin inside of a marker. -/
structure Apart (markers : List (List Char)) : Prop where
  ne_nil : ∀ p ∈ markers, p ≠ []
  head_notMem : ∀ p ∈ markers, ∀ q ∈ markers, ∀ c ∈ p.tail, q.head? ≠ some c

section

variable {markers : List (List Char)} {p text more : List Char} {i j : ℕ}

theorem StartsAny.append (h : StartsAny markers text) (more : List Char) : StartsAny markers (text ++ more) := by
  obtain ⟨p, hp, hpfx⟩ := h
  exact ⟨p, hp, hpfx.trans (List.prefix_append _ _)⟩

theorem findAny_nil (hne : ∀ p ∈ markers, p ≠ []) : findAny markers [] = none := by
  have hnone : markers.filterMap (findChars · []) = [] := by
    refine List.filterMap_eq_nil_iff.mpr fun p hp => ?_
    rw [findChars, if_neg (hne p hp)]
  rw [findAny, hnone]
  rfl

/-- The search goes on behind a character at which no marker stands. -/
theorem findAny_cons (c : Char) (cs : List Char) : findAny markers (c :: cs)
    = if StartsAny markers (c :: cs) then some 0 else (findAny markers cs).map (· + 1) := by
  split
  · rename_i hstarts
    obtain ⟨p, hp, hpfx⟩ := hstarts
    refine List.min?_eq_some_iff.mpr ⟨List.mem_filterMap.mpr ⟨p, hp, ?_⟩, fun _ _ => Nat.zero_le _⟩
    rw [findChars, if_pos (List.isPrefixOf_iff_prefix.mpr hpfx)]
  · rename_i hstarts
    have hmap : markers.filterMap (findChars · (c :: cs)) = (markers.filterMap (findChars · cs)).map (· + 1) := by
      rw [List.map_filterMap]
      refine List.filterMap_congr fun p hp => ?_
      rw [findChars, if_neg fun hpfx => hstarts ⟨p, hp, List.isPrefixOf_iff_prefix.mp hpfx⟩]
    rw [findAny, findAny, hmap]
    cases hmin : (markers.filterMap (findChars · cs)).min? with
    | none => rw [List.min?_eq_none_iff.mp hmin]; rfl
    | some i =>
      obtain ⟨hmem, hle⟩ := List.min?_eq_some_iff.mp hmin
      refine List.min?_eq_some_iff.mpr ⟨List.mem_map_of_mem hmem, fun k hk => ?_⟩
      obtain ⟨j, hj, rfl⟩ := List.mem_map.mp hk
      exact Nat.succ_le_succ (hle j hj)

/-- What was found stands there. -/
theorem startsAny_of_findAny (hne : ∀ p ∈ markers, p ≠ []) (h : findAny markers text = some i) :
    StartsAny markers (text.drop i) := by
  induction text generalizing i with
  | nil => rw [findAny_nil hne] at h; cases h
  | cons c cs ih =>
    rw [findAny_cons] at h
    split at h
    · rename_i hstarts
      cases h
      exact hstarts
    · obtain ⟨j, hj, rfl⟩ := Option.map_eq_some_iff.mp h
      exact ih hj

/-- No marker begins before the first one. -/
theorem not_startsAny_of_lt (h : findAny markers text = some i) (hj : j < i) : ¬ StartsAny markers (text.drop j) := by
  induction text generalizing i j with
  | nil =>
    intro hstarts
    rw [findAny] at h
    obtain ⟨p, hp, hfind⟩ := List.mem_filterMap.mp (List.min?_mem h)
    have := findChars_add_length_le hfind
    simp only [List.length_nil] at this
    omega
  | cons c cs ih =>
    rw [findAny_cons] at h
    split at h
    · cases h
      exact absurd hj (Nat.not_lt_zero _)
    · rename_i hstarts
      obtain ⟨k, hk, rfl⟩ := Option.map_eq_some_iff.mp h
      cases j with
      | zero => exact hstarts
      | succ j => exact ih hk (Nat.lt_of_succ_lt_succ hj)

/-- A text at which a marker stands. -/
theorem findAny_of_startsAny (hne : ∀ p ∈ markers, p ≠ []) (h : StartsAny markers text) :
    findAny markers text = some 0 := by
  cases text with
  | nil =>
    obtain ⟨p, hp, hpfx⟩ := h
    exact absurd (List.prefix_nil.mp hpfx) (hne p hp)
  | cons c cs => rw [findAny_cons, if_pos h]

/-- Text in which no marker begins is passed over. -/
theorem findAny_append_left (h : ∀ n < text.length, ¬ StartsAny markers (text.drop n ++ more)) :
    findAny markers (text ++ more) = (findAny markers more).map (text.length + ·) := by
  induction text with
  | nil => simp
  | cons c cs ih =>
    have hcs : ∀ n < cs.length, ¬ StartsAny markers (cs.drop n ++ more) := fun n hn =>
      h (n + 1) (Nat.succ_lt_succ hn)
    have hfirst : ¬ StartsAny markers (c :: (cs ++ more)) := h 0 (Nat.succ_pos _)
    rw [List.cons_append, findAny_cons, if_neg hfirst, ih hcs, Option.map_map]
    refine congrArg (Option.map · (findAny markers more)) (funext fun n => ?_)
    show cs.length + n + 1 = (c :: cs).length + n
    rw [List.length_cons]
    omega

/-- No marker begins in a text without markers. -/
theorem findAny_eq_none_iff (hne : ∀ p ∈ markers, p ≠ []) :
    findAny markers text = none ↔ ∀ n < text.length, ¬ StartsAny markers (text.drop n) := by
  constructor
  · intro h n hn
    induction text generalizing n with
    | nil => exact absurd hn (Nat.not_lt_zero _)
    | cons c cs ih =>
      rw [findAny_cons] at h
      split at h
      · cases h
      · rename_i hstarts
        cases n with
        | zero => exact hstarts
        | succ n => exact ih (Option.map_eq_none_iff.mp h) n (Nat.lt_of_succ_lt_succ hn)
  · intro h
    have hpass : findAny markers (text ++ []) = (findAny markers []).map (text.length + ·) :=
      findAny_append_left fun n hn => by
        rw [List.append_nil]
        exact h n hn
    rw [List.append_nil, findAny_nil hne] at hpass
    exact hpass

/-- Markers do not overlap. -/
theorem Apart.not_startsAny_drop (hapart : Apart markers) (hp : p ∈ markers) (hpfx : p <+: text) (hj : 0 < j)
    (hlt : j < p.length) : ¬ StartsAny markers (text.drop j) := by
  rintro ⟨q, hq, hqpfx⟩
  obtain ⟨rest, rfl⟩ := hpfx
  rw [List.drop_append_of_le_length hlt.le] at hqpfx
  cases q with
  | nil => exact hapart.ne_nil _ hq rfl
  | cons c q =>
    rw [List.drop_eq_getElem_cons hlt, List.cons_append, List.cons_prefix_cons] at hqpfx
    refine hapart.head_notMem p hp _ hq c ?_ rfl
    rw [hqpfx.1]
    cases p with
    | nil => exact absurd hlt (Nat.not_lt_zero _)
    | cons d p =>
      obtain ⟨k, rfl⟩ : ∃ k, j = k + 1 := ⟨j - 1, by omega⟩
      exact List.getElem_mem _

/-- **The first marker stays the first** when the text goes on. -/
theorem findAny_append (hapart : Apart markers) (h : findAny markers text = some i) (more : List Char) :
    findAny markers (text ++ more) = some i := by
  induction text generalizing i with
  | nil => rw [findAny_nil hapart.ne_nil] at h; cases h
  | cons c cs ih =>
    rw [findAny_cons] at h
    rw [List.cons_append, findAny_cons]
    split at h
    · rename_i hstarts
      have happend : StartsAny markers (c :: (cs ++ more)) := hstarts.append more
      rw [if_pos happend]
      exact h
    · rename_i hstarts
      obtain ⟨j, hj, rfl⟩ := Option.map_eq_some_iff.mp h
      have hno : ¬ StartsAny markers (c :: (cs ++ more)) := by
        rintro ⟨p, hp, hpfx⟩
        have hstands := startsAny_of_findAny hapart.ne_nil hj
        -- the marker that begins here ends behind the text, and so overlaps the one that was found
        have hlong : (c :: cs).length < p.length := by
          by_contra hle
          exact hstarts ⟨p, hp, List.prefix_of_prefix_length_le hpfx
            (List.prefix_append (c :: cs) more) (Nat.le_of_not_lt hle)⟩
        have hlt : j < cs.length := by
          by_contra hle
          rw [List.drop_eq_nil_of_le (Nat.le_of_not_lt hle)] at hstands
          obtain ⟨q, hq, hqpfx⟩ := hstands
          exact hapart.ne_nil q hq (List.prefix_nil.mp hqpfx)
        refine hapart.not_startsAny_drop hp hpfx (Nat.succ_pos j) (by rw [List.length_cons] at hlong; omega) ?_
        rw [List.drop_succ_cons, List.drop_append_of_le_length hlt.le]
        exact hstands.append more
      rw [if_neg hno, ih hj, Option.map_some]

end

end Text
