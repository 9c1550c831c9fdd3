/-
# Text operations of the Rust standard library

The `str` methods that the modelled code calls, as total functions on `String`.
Each one follows the documented behaviour of its namesake and computes on the
character list, so that a concrete call reduces in the kernel:

* `trim`, `trimStart`, `trimEnd` strip the Unicode `White_Space` characters;
* `toAsciiLowercase` maps `A`–`Z` only;
* `stripPrefix`, `trimStartMatches`, `contains`, `find`, `replace` and
  `splitOn` search for substrings from the left.

Positions are character positions: nothing modelled here depends on byte
offsets.
-/
import Mathlib.Data.List.Infix
import Mathlib.Data.List.TakeWhile
import Mathlib.Data.String.Basic

namespace Text

/-! ## Characters -/

/-- Unicode `White_Space`, the class `char::is_whitespace` tests. -/
def isWhitespace (c : Char) : Bool :=
  let n := c.toNat
  (9 ≤ n && n ≤ 13) || n == 0x20 || n == 0x85 || n == 0xA0 || n == 0x1680
    || (0x2000 ≤ n && n ≤ 0x200A) || n == 0x2028 || n == 0x2029 || n == 0x202F
    || n == 0x205F || n == 0x3000

/-- `str::to_ascii_lowercase`. -/
def toAsciiLowercase (s : String) : String :=
  String.ofList (s.toList.map Char.toLower)

/-- `str::to_ascii_uppercase`. -/
def toAsciiUppercase (s : String) : String :=
  String.ofList (s.toList.map Char.toUpper)

/-- Equality up to ASCII case, `str::eq_ignore_ascii_case`. -/
def eqIgnoreAsciiCase (s t : String) : Bool :=
  toAsciiLowercase s == toAsciiLowercase t

/-- `char::is_ascii_digit`. -/
def isAsciiDigit (c : Char) : Bool := '0' ≤ c && c ≤ '9'

/-- `char::is_ascii_alphanumeric`. -/
def isAsciiAlphanumeric (c : Char) : Bool :=
  isAsciiDigit c || ('a' ≤ c && c ≤ 'z') || ('A' ≤ c && c ≤ 'Z')

/-! ## Prefixes and suffixes -/

/-- `str::starts_with` for a string pattern. -/
def startsWith (s p : String) : Bool :=
  p.toList.isPrefixOf s.toList

/-- `str::ends_with` for a string pattern. -/
def endsWith (s p : String) : Bool :=
  p.toList.isSuffixOf s.toList

/-- `str::strip_prefix`. -/
def stripPrefix (s p : String) : Option String :=
  if startsWith s p then some (String.ofList (s.toList.drop p.length)) else none

/-- `str::strip_suffix`. -/
def stripSuffix (s p : String) : Option String :=
  if endsWith s p then
    some (String.ofList (s.toList.take (s.length - p.length)))
  else none

/-- The first `n` characters, `chars().take(n).collect()`. -/
def takeChars (s : String) (n : ℕ) : String :=
  String.ofList (s.toList.take n)

/-! ## Trimming -/

/-- Strip the characters satisfying `p` from both ends, `str::trim_matches`. -/
def trimMatches (p : Char → Bool) (s : String) : String :=
  String.ofList (((s.toList.dropWhile p).reverse.dropWhile p).reverse)

/-- `str::trim_end_matches` for a character class. -/
def trimEndMatches (p : Char → Bool) (s : String) : String :=
  String.ofList ((s.toList.reverse.dropWhile p).reverse)

/-- `str::trim_start_matches` for a character class. -/
def trimStartMatches (p : Char → Bool) (s : String) : String :=
  String.ofList (s.toList.dropWhile p)

/-- `str::trim`. -/
def trim (s : String) : String := trimMatches isWhitespace s

/-- `str::trim_start`. -/
def trimStart (s : String) : String := trimStartMatches isWhitespace s

/-- `str::trim_end`. -/
def trimEnd (s : String) : String := trimEndMatches isWhitespace s

/-- Remove `p` from the front as often as it stands there; the first argument
bounds the number of rounds. -/
def stripAll (p : List Char) : ℕ → List Char → List Char
  | 0, cs => cs
  | n + 1, cs => if p.isPrefixOf cs then stripAll p n (cs.drop p.length) else cs

/-- `str::trim_start_matches` for a non-empty string pattern. -/
def trimStartMatchesStr (s p : String) : String :=
  String.ofList (stripAll p.toList s.length s.toList)

/-! ## Searching -/

/-- The position of the first occurrence of `p` in a character list. -/
def findChars (p : List Char) : List Char → Option ℕ
  | [] => if p = [] then some 0 else none
  | c :: cs => if p.isPrefixOf (c :: cs) then some 0 else (findChars p cs).map (· + 1)

/-- `str::find` for a string pattern, as a character position. -/
def find (s p : String) : Option ℕ := findChars p.toList s.toList

/-- `str::contains` for a string pattern. -/
def contains (s p : String) : Bool := (find s p).isSome

/-- Replace the occurrences of a non-empty `p` from the left; the number counts
the characters of a match that are still to be skipped. -/
def replaceChars (p new : List Char) : ℕ → List Char → List Char
  | _, [] => []
  | n + 1, _ :: cs => replaceChars p new n cs
  | 0, c :: cs =>
    if p.isPrefixOf (c :: cs) then new ++ replaceChars p new (p.length - 1) cs
    else c :: replaceChars p new 0 cs

/-- `str::replace`.  An empty pattern matches around every character. -/
def replace (s p new : String) : String :=
  if p.toList = [] then
    String.ofList (new.toList ++ s.toList.flatMap (fun c => c :: new.toList))
  else String.ofList (replaceChars p.toList new.toList 0 s.toList)

/-- Replace every character by the function's value, `str::replace` for a
character class. -/
def mapChars (f : Char → Char) (s : String) : String :=
  String.ofList (s.toList.map f)

/-! ## Splitting -/

/-- The pieces between the characters satisfying `p`, `str::split`. -/
def splitChars (p : Char → Bool) : List Char → List (List Char)
  | [] => [[]]
  | c :: cs =>
    if p c then [] :: splitChars p cs
    else match splitChars p cs with
      | [] => [[c]]
      | piece :: rest => (c :: piece) :: rest

/-- `str::split` for a character class. -/
def split (p : Char → Bool) (s : String) : List String :=
  (splitChars p s.toList).map String.ofList

/-- `str::split_whitespace`: the non-empty runs between white space. -/
def splitWhitespace (s : String) : List String :=
  (split isWhitespace s).filter (· ≠ "")

/-- `rsplit(c).next()`: the piece after the last `c`. -/
def lastSegment (c : Char) (s : String) : String :=
  ((split (· = c) s).getLast?).getD ""

/-- `split_once(c)`. -/
def splitOnce (c : Char) (s : String) : Option (String × String) :=
  if c ∈ s.toList then
    some (String.ofList (s.toList.takeWhile (· ≠ c)),
      String.ofList ((s.toList.dropWhile (· ≠ c)).drop 1))
  else none

/-- Drop one trailing carriage return. -/
def dropTrailingCr (cs : List Char) : List Char :=
  match cs.getLast? with
  | some '\r' => cs.dropLast
  | _ => cs

/-- The lines of a character list: every line but an unterminated last one may
end in a carriage return, which is dropped; an empty last line is no line. -/
def lineList : List (List Char) → List (List Char)
  | [] => []
  | [last] => if last = [] then [] else [last]
  | l :: l' :: rest => dropTrailingCr l :: lineList (l' :: rest)

/-- `str::lines`. -/
def lines (s : String) : List String :=
  (lineList (splitChars (· = '\n') s.toList)).map String.ofList

/-- `[String]::join`. -/
def join (sep : String) : List String → String
  | [] => ""
  | [s] => s
  | s :: t :: rest => s ++ sep ++ join sep (t :: rest)

/-- What was found stands there. -/
theorem findChars_spec {p cs : List Char} {i : ℕ} (h : findChars p cs = some i) :
    p <+: cs.drop i := by
  induction cs generalizing i with
  | nil =>
    rw [findChars] at h
    split at h
    · rename_i hp
      rw [hp]
      exact List.nil_prefix
    · cases h
  | cons c cs ih =>
    rw [findChars] at h
    split at h
    · rename_i hprefix
      cases h
      exact List.isPrefixOf_iff_prefix.mp hprefix
    · obtain ⟨j, hj, rfl⟩ := Option.map_eq_some_iff.mp h
      exact ih hj

theorem findChars_add_length_le {p cs : List Char} {i : ℕ} (h : findChars p cs = some i) :
    i + p.length ≤ cs.length := by
  induction cs generalizing i with
  | nil =>
    rw [findChars] at h
    split at h
    · rename_i hp
      cases h
      rw [hp, Nat.zero_add]
    · cases h
  | cons c cs ih =>
    rw [findChars] at h
    split at h
    · rename_i hprefix
      cases h
      rw [Nat.zero_add]
      exact (List.isPrefixOf_iff_prefix.mp hprefix).length_le
    · obtain ⟨j, hj, rfl⟩ := Option.map_eq_some_iff.mp h
      have hle := ih hj
      rw [List.length_cons]
      omega

/-- The first occurrence stays the first when text is appended. -/
theorem findChars_append {p cs : List Char} {i : ℕ} (h : findChars p cs = some i)
    (ds : List Char) : findChars p (cs ++ ds) = some i := by
  induction cs generalizing i with
  | nil =>
    rw [findChars] at h
    split at h
    · rename_i hp
      cases h
      subst hp
      cases ds <;> rfl
    · cases h
  | cons c cs ih =>
    rw [findChars] at h
    rw [List.cons_append, findChars]
    split at h
    · rename_i hprefix
      have happend : p.isPrefixOf (c :: (cs ++ ds)) = true := by
        rw [List.isPrefixOf_iff_prefix] at hprefix ⊢
        exact hprefix.trans (List.prefix_append (c :: cs) ds)
      rw [if_pos happend]
      exact h
    · rename_i hprefix
      obtain ⟨j, hj, rfl⟩ := Option.map_eq_some_iff.mp h
      split
      · rename_i happend
        -- `p` would end beyond `cs`, but it stands inside of `cs` at `j`
        have hshort := findChars_add_length_le hj
        rw [List.isPrefixOf_iff_prefix] at happend hprefix
        exact absurd (List.prefix_of_prefix_length_le happend
          (List.prefix_append (c :: cs) ds) (by rw [List.length_cons]; omega)) hprefix
      · rw [ih hj, Option.map_some]

/-- An occurrence that appending brings about ends in the appended text. -/
theorem lt_of_findChars_append {p cs ds : List Char} {i : ℕ} (hnone : findChars p cs = none)
    (h : findChars p (cs ++ ds) = some i) : cs.length < i + p.length := by
  induction cs generalizing i with
  | nil =>
    rw [findChars] at hnone
    split at hnone
    · cases hnone
    · rename_i hp
      have hpos : 0 < p.length := List.length_pos_iff.mpr hp
      rw [List.length_nil]
      omega
  | cons c cs ih =>
    rw [findChars] at hnone
    split at hnone
    · cases hnone
    · rename_i hprefix
      rw [Option.map_eq_none_iff] at hnone
      rw [List.cons_append, findChars] at h
      split at h
      · rename_i happend
        cases h
        rw [List.isPrefixOf_iff_prefix] at happend hprefix
        by_contra hle
        exact hprefix (List.prefix_of_prefix_length_le happend
          (List.prefix_append (c :: cs) ds) (by omega))
      · obtain ⟨j, hj, rfl⟩ := Option.map_eq_some_iff.mp h
        have hlt := ih hnone hj
        rw [List.length_cons]
        omega

/-- The first occurrence is not behind any other. -/
theorem exists_findChars_le {p cs : List Char} {j : ℕ} (h : p <+: cs.drop j) (hj : j ≤ cs.length) :
    ∃ i, findChars p cs = some i ∧ i ≤ j := by
  induction cs generalizing j with
  | nil =>
    rw [List.drop_nil, List.prefix_nil] at h
    subst h
    exact ⟨0, rfl, Nat.zero_le _⟩
  | cons c cs ih =>
    rw [findChars]
    split
    · exact ⟨0, rfl, Nat.zero_le _⟩
    · rename_i hprefix
      cases j with
      | zero => exact absurd (List.isPrefixOf_iff_prefix.mpr h) hprefix
      | succ j =>
        rw [List.length_cons] at hj
        obtain ⟨i, hi, hle⟩ := ih h (by omega)
        exact ⟨i + 1, by rw [hi, Option.map_some], by omega⟩

/-- A list that does not hold `d` is in front of `u ++ d :: v` exactly if it is in
front of `u`. -/
theorem prefix_append_cons_iff {α : Type} {p u v : List α} {d : α} (hd : d ∉ p.drop u.length) :
    p <+: u ++ d :: v ↔ p <+: u := by
  refine ⟨fun h => ?_, fun h => h.trans (List.prefix_append _ _)⟩
  rcases Nat.lt_or_ge u.length p.length with hlt | hge
  · have hfront : u ++ [d] <+: u ++ d :: v := ⟨v, by simp⟩
    obtain ⟨t, rfl⟩ : u ++ [d] <+: p := by
      refine List.prefix_of_prefix_length_le hfront h ?_
      rw [List.length_append, List.length_singleton]
      exact hlt
    exact absurd (by simp) hd
  · exact List.prefix_of_prefix_length_le h (List.prefix_append _ _) hge

/-- Searching in front of and behind a character that the pattern does not hold. -/
theorem findChars_append_cons {p : List Char} {d : Char} (hd : d ∉ p) (hp : p ≠ [])
    (u v : List Char) :
    findChars p (u ++ d :: v) = match findChars p u with
      | some i => some i
      | none => (findChars p v).map (· + (u.length + 1)) := by
  have hdrop : ∀ n, d ∉ p.drop n := fun n h => hd (List.mem_of_mem_drop h)
  induction u with
  | nil =>
    have hno : p.isPrefixOf (d :: v) = false := by
      rw [Bool.eq_false_iff, Ne, List.isPrefixOf_iff_prefix, ← List.nil_append (d :: v),
        prefix_append_cons_iff (hdrop _), List.prefix_nil]
      exact hp
    have hnil : findChars p [] = none := if_neg hp
    rw [List.nil_append, hnil, findChars, hno]
    rfl
  | cons c u ih =>
    have hsame : p.isPrefixOf (c :: (u ++ d :: v)) = p.isPrefixOf (c :: u) := by
      rw [Bool.eq_iff_iff, List.isPrefixOf_iff_prefix, List.isPrefixOf_iff_prefix,
        ← List.cons_append, prefix_append_cons_iff (hdrop _)]
    rw [List.cons_append, findChars, hsame, findChars]
    split
    · rfl
    · rw [ih]
      cases findChars p u with
      | some i => rfl
      | none =>
        rw [Option.map_map, List.length_cons]
        rfl

theorem find_add_length_le {s p : String} {i : ℕ} (h : find s p = some i) :
    i + p.length ≤ s.length := by
  rw [← String.length_toList, ← String.length_toList]
  exact findChars_add_length_le h

theorem find_append {s p : String} {i : ℕ} (h : find s p = some i) (t : String) :
    find (s ++ t) p = some i := by
  rw [find, String.toList_append]
  exact findChars_append h t.toList

theorem lt_of_find_append {s t p : String} {i : ℕ} (hnone : find s p = none)
    (h : find (s ++ t) p = some i) : s.length < i + p.length := by
  rw [find, String.toList_append] at h
  rw [← String.length_toList, ← String.length_toList]
  exact lt_of_findChars_append hnone h

/-- A separator that is in neither front determines where a list is cut. -/
theorem append_cons_inj {α : Type} {A A' B B' : List α} {c : α} (hA : c ∉ A) (hA' : c ∉ A')
    (h : A ++ c :: B = A' ++ c :: B') : A = A' ∧ B = B' := by
  rcases List.append_eq_append_iff.mp h with ⟨l, hl, hB⟩ | ⟨l, hl, hB⟩
  · cases l with
    | nil =>
      rw [List.append_nil] at hl
      rw [List.nil_append, List.cons_inj_right] at hB
      exact ⟨hl.symm, hB⟩
    | cons d l =>
      rw [List.cons_append, List.cons.injEq] at hB
      exact absurd (by rw [hl, hB.1]; simp) hA'
  · cases l with
    | nil =>
      rw [List.append_nil] at hl
      rw [List.nil_append, List.cons_inj_right] at hB
      exact ⟨hl, hB.symm⟩
    | cons d l =>
      rw [List.cons_append, List.cons.injEq] at hB
      exact absurd (by rw [hl, hB.1]; simp) hA

/-- Stripping a prefix that was put there. -/
theorem stripPrefix_append (p s : String) : stripPrefix (p ++ s) p = some s := by
  have hstarts : startsWith (p ++ s) p = true := by
    rw [startsWith, String.toList_append, List.isPrefixOf_iff_prefix]
    exact List.prefix_append _ _
  rw [stripPrefix, if_pos hstarts, String.toList_append, ← String.length_toList,
    List.drop_left, String.ofList_toList]

/-- The first piece of a text that is split at a character it starts without. -/
theorem head?_split {c : Char} {s t : String} (h : c ∉ s.toList) :
    (split (· = c) (s ++ String.ofList [c] ++ t)).head? = some s := by
  have hchars : ∀ l : List Char, c ∉ l →
      (splitChars (· = c) (l ++ c :: t.toList)).head? = some l := by
    intro l hl
    induction l with
    | nil => simp [splitChars]
    | cons d l ih =>
      have hd : ¬ d = c := fun hd => hl (hd ▸ List.mem_cons_self)
      have htail := ih (fun hmem => hl (List.mem_cons_of_mem _ hmem))
      rw [List.cons_append, splitChars]
      simp only [hd, decide_false, Bool.false_eq_true, if_false]
      cases hs : splitChars (· = c) (l ++ c :: t.toList) with
      | nil => rw [hs] at htail; cases htail
      | cons piece rest =>
        rw [hs] at htail
        rw [List.head?_cons, Option.some.injEq] at htail
        rw [htail]
        rfl
  have hlist : (s ++ String.ofList [c] ++ t).toList = s.toList ++ c :: t.toList := by
    simp [String.toList_append]
  rw [split, List.head?_map, hlist, hchars _ h, Option.map_some, String.ofList_toList]

example : lines "a\r\nb\r" = ["a", "b\r"] := by decide

/-! ## Blank texts and lines -/

/-- A blank text is white space. -/
theorem isWhitespace_of_trim {s : String} (h : trim s = "") {c : Char} (hc : c ∈ s.toList) :
    isWhitespace c = true := by
  have hnil : ((s.toList.dropWhile isWhitespace).reverse.dropWhile isWhitespace).reverse = [] := by
    have hlist := congrArg String.toList h
    rwa [trim, trimMatches, String.toList_ofList] at hlist
  rw [List.reverse_eq_nil_iff, List.dropWhile_eq_nil_iff] at hnil
  rw [← List.takeWhile_append_dropWhile (p := isWhitespace) (l := s.toList), List.mem_append] at hc
  rcases hc with hc | hc
  · exact List.mem_takeWhile_imp hc
  · exact hnil c (List.mem_reverse.mpr hc)

theorem mem_of_mem_splitChars {p : Char → Bool} {cs piece : List Char} (h : piece ∈ splitChars p cs)
    {c : Char} (hc : c ∈ piece) : c ∈ cs := by
  induction cs generalizing piece with
  | nil =>
    rw [splitChars, List.mem_singleton] at h
    rw [h] at hc
    cases hc
  | cons d cs ih =>
    rw [splitChars] at h
    split at h
    · rcases List.mem_cons.mp h with rfl | h
      · cases hc
      · exact List.mem_cons_of_mem _ (ih h hc)
    · split at h
      · rw [List.mem_singleton] at h
        rw [h, List.mem_singleton] at hc
        exact hc ▸ List.mem_cons_self
      · rename_i first rest hsplit
        rcases List.mem_cons.mp h with rfl | h
        · rcases List.mem_cons.mp hc with rfl | hc
          · exact List.mem_cons_self
          · exact List.mem_cons_of_mem _ (ih (hsplit ▸ List.mem_cons_self) hc)
        · exact List.mem_cons_of_mem _ (ih (hsplit ▸ List.mem_cons_of_mem _ h) hc)

theorem exists_mem_of_mem_lineList {ls : List (List Char)} {line : List Char} (h : line ∈ lineList ls) :
    ∃ l ∈ ls, ∀ c ∈ line, c ∈ l := by
  induction ls with
  | nil => cases h
  | cons l rest ih =>
    cases rest with
    | nil =>
      rw [lineList] at h
      split at h
      · cases h
      · rw [List.mem_singleton] at h
        exact ⟨l, List.mem_cons_self, h ▸ fun c hc => hc⟩
    | cons l' rest =>
      rw [lineList] at h
      rcases List.mem_cons.mp h with rfl | h
      · refine ⟨l, List.mem_cons_self, fun c hc => ?_⟩
        rw [dropTrailingCr] at hc
        split at hc
        · exact List.mem_of_mem_dropLast hc
        · exact hc
      · obtain ⟨m, hm, hsub⟩ := ih h
        exact ⟨m, List.mem_cons_of_mem _ hm, hsub⟩

/-- The characters of a line are characters of the text. -/
theorem mem_of_mem_lines {s line : String} (h : line ∈ lines s) {c : Char} (hc : c ∈ line.toList) :
    c ∈ s.toList := by
  obtain ⟨chars, hchars, rfl⟩ := List.mem_map.mp h
  obtain ⟨piece, hpiece, hsub⟩ := exists_mem_of_mem_lineList hchars
  rw [String.toList_ofList] at hc
  exact mem_of_mem_splitChars hpiece (hsub c hc)

/-- A text between two characters that are no white space is not trimmed. -/
theorem trim_eq_self {text : String} {c d : Char} {cs : List Char} (htext : text.toList = c :: cs)
    (hc : isWhitespace c = false) (hlast : (c :: cs).getLast? = some d) (hd : isWhitespace d = false) :
    trim text = text := by
  obtain ⟨front, hfront⟩ := List.getLast?_eq_some_iff.mp hlast
  rw [trim, trimMatches, htext, List.dropWhile_cons_of_neg (by rw [hc]; decide), hfront,
    List.reverse_append, List.reverse_singleton, List.singleton_append,
    List.dropWhile_cons_of_neg (by rw [hd]; decide), List.reverse_cons, List.reverse_reverse, ← hfront,
    ← htext, String.ofList_toList]

/-- White space around a text is trimmed. -/
theorem trim_padded {front cs back : List Char} (hfront : ∀ c ∈ front, isWhitespace c = true)
    (hback : ∀ c ∈ back, isWhitespace c = true) (hhead : ∃ c, cs.head? = some c ∧ isWhitespace c = false)
    (hlast : ∃ c, cs.getLast? = some c ∧ isWhitespace c = false) :
    trim (String.ofList (front ++ cs ++ back)) = String.ofList cs := by
  obtain ⟨c, hc, hcwhite⟩ := hhead
  obtain ⟨rest, rfl⟩ := List.head?_eq_some_iff.mp hc
  obtain ⟨d, hd, hdwhite⟩ := hlast
  obtain ⟨init, hinit⟩ := List.getLast?_eq_some_iff.mp hd
  rw [trim, trimMatches, String.toList_ofList, List.append_assoc, List.dropWhile_append_of_pos hfront,
    List.cons_append, List.dropWhile_cons_of_neg (by rw [hcwhite]; decide), ← List.cons_append, hinit,
    List.reverse_append, List.dropWhile_append_of_pos fun e he => hback e (List.mem_reverse.mp he),
    List.reverse_append, List.reverse_singleton, List.singleton_append,
    List.dropWhile_cons_of_neg (by rw [hdwhite]; decide), List.reverse_cons, List.reverse_reverse]

/-- Trimming twice is trimming once. -/
theorem trim_trim (s : String) : trim (trim s) = trim s := by
  have hlist : (trim s).toList = ((s.toList.dropWhile isWhitespace).reverse.dropWhile isWhitespace).reverse := by
    rw [trim, trimMatches, String.toList_ofList]
  cases hcs : (trim s).toList with
  | nil =>
    have hempty : trim s = "" := String.toList_injective (by rw [hcs]; rfl)
    rw [hempty]
    rfl
  | cons c cs =>
    have hfront : (trim s).toList <+: s.toList.dropWhile isWhitespace := by
      rw [hlist, ← List.reverse_suffix, List.reverse_reverse]
      exact List.dropWhile_suffix _
    have hhead := List.head?_dropWhile_not isWhitespace s.toList
    obtain ⟨rest, hrest⟩ := hfront
    rw [← hrest, hcs, List.cons_append, List.head?_cons] at hhead
    have hlast := List.head?_dropWhile_not isWhitespace (s.toList.dropWhile isWhitespace).reverse
    rw [← List.reverse_reverse (List.dropWhile _ _), ← hlist, List.head?_reverse, hcs] at hlast
    obtain ⟨d, hd⟩ : ∃ d, (c :: cs).getLast? = some d :=
      ⟨_, List.getLast?_eq_some_getLast (List.cons_ne_nil c cs)⟩
    rw [hd] at hlast
    exact trim_eq_self hcs (by simpa using hhead) hd (by simpa using hlast)

/-- A text is not a longer one around what is left of it. -/
theorem ne_append_trim {s p : String} {c : Char} {cs : List Char} (hp : p.toList = c :: cs)
    (hc : isWhitespace c = false) (ht : trim s ≠ "") : s ≠ p ++ trim s := by
  intro h
  have hlist : s.toList = c :: (cs ++ (trim s).toList) := by
    have hs := congrArg String.toList h
    rwa [String.toList_append, hp, List.cons_append] at hs
  have htrim : (trim s).toList.reverse = s.toList.reverse.dropWhile isWhitespace := by
    rw [trim, trimMatches, String.toList_ofList, List.reverse_reverse, hlist,
      List.dropWhile_cons_of_neg (by rw [hc]; decide)]
  cases hrev : (trim s).toList.reverse with
  | nil =>
    rw [List.reverse_eq_nil_iff] at hrev
    exact ht (String.toList_injective hrev)
  | cons d ds =>
    -- the last character is none that is stripped, so nothing is stripped at all
    have hd : isWhitespace d = false := by
      have hhead := List.head?_dropWhile_not isWhitespace s.toList.reverse
      rw [← htrim, hrev] at hhead
      simpa using hhead
    have hall : s.toList.reverse.dropWhile isWhitespace = s.toList.reverse := by
      have hsplit : s.toList.reverse = d :: (ds ++ (c :: cs).reverse) := by
        rw [hlist, ← List.cons_append, List.reverse_append, hrev, List.cons_append]
      rw [hsplit, List.dropWhile_cons_of_neg (by rw [hd]; decide)]
    have hlength := congrArg List.length (htrim.trans hall)
    rw [List.length_reverse, List.length_reverse, hlist, List.length_cons, List.length_append] at hlength
    omega

theorem splitChars_append_cons {p : Char → Bool} {cs : List Char} {c : Char} (hc : p c = true)
    (hcs : ∀ d ∈ cs, p d = false) (rest : List Char) :
    splitChars p (cs ++ c :: rest) = cs :: splitChars p rest := by
  induction cs with
  | nil => rw [List.nil_append, splitChars, if_pos hc]
  | cons d cs ih =>
    have hd := hcs d List.mem_cons_self
    rw [List.cons_append, splitChars, hd, ih fun e he => hcs e (List.mem_cons_of_mem _ he)]
    rfl

theorem splitChars_eq_self {p : Char → Bool} {cs : List Char} (h : ∀ c ∈ cs, p c = false) :
    splitChars p cs = [cs] := by
  induction cs with
  | nil => rfl
  | cons c cs ih =>
    rw [splitChars, h c List.mem_cons_self, ih fun d hd => h d (List.mem_cons_of_mem _ hd)]
    rfl

/-- The pieces have no characters at which the text is split. -/
theorem of_mem_splitChars {p : Char → Bool} {cs piece : List Char} (h : piece ∈ splitChars p cs) {c : Char}
    (hc : c ∈ piece) : p c = false := by
  induction cs generalizing piece with
  | nil =>
    rw [splitChars, List.mem_singleton] at h
    rw [h] at hc
    cases hc
  | cons d cs ih =>
    rw [splitChars] at h
    split at h
    · rcases List.mem_cons.mp h with rfl | h
      · cases hc
      · exact ih h hc
    · rename_i hd
      have hd : p d = false := Bool.eq_false_iff.mpr hd
      split at h
      · rw [List.mem_singleton] at h
        rw [h, List.mem_singleton] at hc
        rwa [hc]
      · rename_i first rest hsplit
        rcases List.mem_cons.mp h with rfl | h
        · rcases List.mem_cons.mp hc with rfl | hc
          · exact hd
          · exact ih (hsplit ▸ List.mem_cons_self) hc
        · exact ih (hsplit ▸ List.mem_cons_of_mem _ h) hc

/-- A pattern is not found where its first character does not occur. -/
theorem findChars_cons_eq_none {c : Char} {p cs : List Char} (h : c ∉ cs) :
    findChars (c :: p) cs = none := by
  cases hfind : findChars (c :: p) cs with
  | none => rfl
  | some i =>
    obtain ⟨rest, hrest⟩ := findChars_spec hfind
    have hmem : c ∈ cs.drop i := hrest ▸ List.mem_cons_self
    exact absurd (List.mem_of_mem_drop hmem) h

end Text
