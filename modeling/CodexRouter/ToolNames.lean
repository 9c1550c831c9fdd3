/-
# Tool names on the way to an upstream

An upstream takes tool names of at most 64 characters.  Names that are longer or taken
get a suffix of their SHA-256 digest, which grows until the name is unused
(`shorten_openai_compat_tool_name_unique`, `shorten_to_char_len`); the loops go over a
fixed number of lengths and are written as searches in the list of their candidates.

The digest is the one of the `sha2` crate, `HexDigest.hex` in hexadecimal.
-/
import CodexRouter.Base.Json
import CodexRouter.Base.Text

namespace CodexRouter

open Text

/-- SHA-256 in hexadecimal. -/
structure HexDigest where
  hex : String → String
  length_hex : ∀ s, (hex s).length = 64

/-- `OPENAI_COMPAT_TOOL_NAME_MAX`. -/
def openaiCompatToolNameMax : ℕ := 64

/-- `tool_declared_name`. -/
def toolDeclaredName (tool : Value) : String :=
  ((tool.getStr "name").or ((tool.get "function").bind (Value.getStr "name"))).getD ""

/-- `remap_tool_name`. -/
def remapToolName (name : String) : String :=
  let trimmed := trimStartMatchesStr (trimStartMatchesStr (trim name) "functions__") "functions."
  if trimmed ∈ ["exec", "shell", "bash", "command", "_command", "exec_command"] then "exec_command"
  else trimmed

/-- `qualify_namespace_tool_name`. -/
def qualifyNamespaceToolName (ns child : String) : String :=
  let child := trim child
  let ns := trim ns
  if child = "" then ""
  else if ns = "" ∨ startsWith child "mcp__" ∨ startsWith child ns then child
  else if endsWith ns "__" then ns ++ child
  else ns ++ "__" ++ child

section

variable (digest : HexDigest)

/-- The suffix with the first digits of the digest. -/
def digestSuffix (name : String) (take : ℕ) : String := "_" ++ takeChars (digest.hex name) take

/-- A name cut to make room for the suffix. -/
def suffixedName (max : ℕ) (name : String) (take : ℕ) : String :=
  takeChars name (max - (digestSuffix digest name take).length) ++ digestSuffix digest name take

/-- The first unused candidate, or the last one. -/
def firstUnused (candidates : List String) (last : String) (used : List String) : String :=
  (candidates.find? (· ∉ used)).getD last

/-- The candidates of `shorten_openai_compat_tool_name_unique`: suffixes of 8, 10, …, 62
digits. -/
def uniqueCandidates (name : String) : List String :=
  (List.range 28).map fun i => suffixedName digest openaiCompatToolNameMax name (8 + 2 * i)

/-- `shorten_openai_compat_tool_name_unique`. -/
def shortenOpenaiCompatToolNameUnique (name : String) (used : List String) : String :=
  let name := remapToolName name
  if name.length ≤ openaiCompatToolNameMax then name
  else
    firstUnused (uniqueCandidates digest name)
      (suffixedName digest openaiCompatToolNameMax name 62) used

/-- The candidates of `shorten_to_char_len` but for the last one: suffixes of 8, 10, …, 64
digits, and the suffix alone where it fills the name. -/
def charLenCandidates (name : String) (max : ℕ) : List String :=
  let clipped := fun take =>
    if max ≤ (digestSuffix digest name take).length then [takeChars (digestSuffix digest name take) max]
    else []
  ((List.range 28).flatMap fun i => clipped (8 + 2 * i) ++ [suffixedName digest max name (8 + 2 * i)])
    ++ clipped 64

/-- `shorten_to_char_len`. -/
def shortenToCharLen (name : String) (max : ℕ) (used : List String) : String :=
  if max = 0 then ""
  else if name.length ≤ max ∧ name ∉ used then name
  else firstUnused (charLenCandidates digest name max) (suffixedName digest max name 64) used

end

/-! ## Lengths -/

@[simp] theorem length_takeChars (s : String) (n : ℕ) : (takeChars s n).length = min n s.length := by
  rw [takeChars, String.length_ofList, List.length_take, String.length_toList]

variable {digest : HexDigest}

theorem length_digestSuffix (name : String) {take : ℕ} (htake : take ≤ 64) :
    (digestSuffix digest name take).length = take + 1 := by
  have hhex := digest.length_hex name
  rw [digestSuffix, String.length_append, length_takeChars, hhex, Nat.min_eq_left htake]
  show 1 + take = take + 1
  omega

theorem length_suffixedName_le (max : ℕ) (name : String) {take : ℕ} (htake : take < max)
    (hhex : take ≤ 64) : (suffixedName digest max name take).length ≤ max := by
  rw [suffixedName, String.length_append, length_takeChars, length_digestSuffix name hhex]
  omega

/-- The whole digest leaves no room for the name. -/
theorem length_suffixedName_last (name : String) :
    (suffixedName digest openaiCompatToolNameMax name 64).length = 65 := by
  rw [suffixedName, String.length_append, length_takeChars, length_digestSuffix name (Nat.le_refl 64)]
  show min (64 - (64 + 1)) name.length + (64 + 1) = 65
  omega

theorem length_of_mem_uniqueCandidates {name c : String} (hc : c ∈ uniqueCandidates digest name) :
    c.length ≤ openaiCompatToolNameMax := by
  obtain ⟨i, hi, rfl⟩ := List.mem_map.mp hc
  rw [List.mem_range] at hi
  exact length_suffixedName_le _ _ (by show 8 + 2 * i < 64; omega) (by omega)

theorem length_of_mem_charLenCandidates {name c : String}
    (hc : c ∈ charLenCandidates digest name openaiCompatToolNameMax) :
    c.length ≤ openaiCompatToolNameMax := by
  have hclipped : ∀ take, c ∈ (if openaiCompatToolNameMax ≤ (digestSuffix digest name take).length then
      [takeChars (digestSuffix digest name take) openaiCompatToolNameMax] else []) →
      c.length ≤ openaiCompatToolNameMax := by
    intro take hmem
    split at hmem
    · rw [List.mem_singleton] at hmem
      rw [hmem, length_takeChars]
      exact Nat.min_le_left _ _
    · cases hmem
  rw [charLenCandidates, List.mem_append, List.mem_flatMap] at hc
  rcases hc with ⟨i, hi, hc⟩ | hc
  · rw [List.mem_range] at hi
    rcases List.mem_append.mp hc with hc | hc
    · exact hclipped _ hc
    · rw [List.mem_singleton] at hc
      rw [hc]
      exact length_suffixedName_le _ _ (by show 8 + 2 * i < 64; omega) (by omega)
  · exact hclipped _ hc

/-! ## Unused names -/

theorem firstUnused_spec (candidates : List String) (last : String) (used : List String) :
    (∃ c ∈ candidates, c ∉ used ∧ firstUnused candidates last used = c)
      ∨ (∀ c ∈ candidates, c ∈ used) ∧ firstUnused candidates last used = last := by
  rw [firstUnused]
  cases hfind : candidates.find? (· ∉ used) with
  | none =>
    right
    rw [List.find?_eq_none] at hfind
    exact ⟨fun c hc => by simpa using hfind c hc, rfl⟩
  | some c =>
    left
    exact ⟨c, List.mem_of_find?_eq_some hfind, by simpa using List.find?_some hfind, rfl⟩

/-- The names of at most 64 characters that are tried for a tool. -/
def nameCandidates (digest : HexDigest) (fullName : String) : List String :=
  if fullName.length ≤ openaiCompatToolNameMax then
    fullName :: charLenCandidates digest fullName openaiCompatToolNameMax
  else if (remapToolName fullName).length ≤ openaiCompatToolNameMax then [remapToolName fullName]
  else uniqueCandidates digest (remapToolName fullName)

/-- One of the names is unused. -/
def NameFree (digest : HexDigest) (fullName : String) (used : List String) : Prop :=
  ∃ c ∈ nameCandidates digest fullName, c ∉ used

end CodexRouter
