/-
# Texts of JSON values

The grammar of JSON on tokens: `JsonText` says that a list of tokens, with white space
between them, is a text of a value.  What stands for the words (numbers and the three
literals) and for the escapes of a string is left open (`JsonLexicon`).

`Value.Rel` relates values of one shape whose strings are related.  If one string is
exchanged for another in the tokens, the values are related so (`JsonText.swap`).

The last part is a parser that reads the whole grammar.
-/
import CodexRouter.Base.Json
import CodexRouter.Base.Text
import Mathlib.Data.Bool.AllAny
import Mathlib.Data.List.Chain
import Mathlib.Tactic.SplitIfs

/-! ## Values of one shape -/

/-- A value, or the inside of an array or of an object. -/
inductive JsonForm where
  | value (v : Value)
  | items (l : List Value)
  | entries (m : Members)

/-- Two forms of one shape, with related strings. -/
inductive JsonForm.Rel (R : String → String → Prop) : JsonForm → JsonForm → Prop
  | null : Rel R (.value .null) (.value .null)
  | bool (b : Bool) : Rel R (.value (.bool b)) (.value (.bool b))
  | number (n : Number) : Rel R (.value (.number n)) (.value (.number n))
  | string {s t : String} : R s t → Rel R (.value (.string s)) (.value (.string t))
  | array {l l' : List Value} : Rel R (.items l) (.items l') → Rel R (.value (.array l)) (.value (.array l'))
  | object {m m' : Members} :
      Rel R (.entries m) (.entries m') → Rel R (.value (.object m)) (.value (.object m'))
  | noItems : Rel R (.items []) (.items [])
  | item {v w : Value} {l l' : List Value} : Rel R (.value v) (.value w) → Rel R (.items l) (.items l') →
      Rel R (.items (v :: l)) (.items (w :: l'))
  | noEntries : Rel R (.entries []) (.entries [])
  | entry {k : String} {v w : Value} {m m' : Members} : Rel R (.value v) (.value w) →
      Rel R (.entries m) (.entries m') → Rel R (.entries ((k, v) :: m)) (.entries ((k, w) :: m'))

/-- Two values of one shape, with related strings. -/
def Value.Rel (R : String → String → Prop) (v w : Value) : Prop := JsonForm.Rel R (.value v) (.value w)

namespace JsonForm

variable {R : String → String → Prop}

mutual

theorem rel_refl (hR : ∀ s, R s s) : ∀ v : Value, Rel R (.value v) (.value v)
  | .null => .null
  | .bool b => .bool b
  | .number n => .number n
  | .string s => .string (hR s)
  | .array l => .array (rel_refl_items hR l)
  | .object m => .object (rel_refl_entries hR m)
termination_by structural v => v

theorem rel_refl_items (hR : ∀ s, R s s) : ∀ l : List Value, Rel R (.items l) (.items l)
  | [] => .noItems
  | v :: l => .item (rel_refl hR v) (rel_refl_items hR l)
termination_by structural l => l

theorem rel_refl_entry (hR : ∀ s, R s s) : ∀ e : String × Value, Rel R (.value e.2) (.value e.2)
  | (_, v) => rel_refl hR v
termination_by structural e => e

theorem rel_refl_entries (hR : ∀ s, R s s) : ∀ m : List (String × Value), Rel R (.entries m) (.entries m)
  | [] => .noEntries
  | e :: m => .entry (rel_refl_entry hR e) (rel_refl_entries hR m)
termination_by structural m => m

end

theorem Rel.trans (hR : ∀ s t u, R s t → R t u → R s u) {a b c : JsonForm} (hab : Rel R a b)
    (hbc : Rel R b c) : Rel R a c := by
  induction hab generalizing c with
  | null => exact hbc
  | bool b => exact hbc
  | number n => exact hbc
  | string hst => cases hbc with
    | string htu => exact .string (hR _ _ _ hst htu)
  | array _ ih => cases hbc with
    | array h => exact .array (ih h)
  | object _ ih => cases hbc with
    | object h => exact .object (ih h)
  | noItems => exact hbc
  | item _ _ ihv ihl => cases hbc with
    | item hv hl => exact .item (ihv hv) (ihl hl)
  | noEntries => exact hbc
  | entry _ _ ihv ihm => cases hbc with
    | entry hv hm => exact .entry (ihv hv) (ihm hm)

theorem Rel.mono {R' : String → String → Prop} (hR : ∀ s t, R s t → R' s t) {a b : JsonForm} (h : Rel R a b) :
    Rel R' a b := by
  induction h with
  | null => exact .null
  | bool b => exact .bool b
  | number n => exact .number n
  | string hst => exact .string (hR _ _ hst)
  | array _ ih => exact .array ih
  | object _ ih => exact .object ih
  | noItems => exact .noItems
  | item _ _ ihv ihl => exact .item ihv ihl
  | noEntries => exact .noEntries
  | entry _ _ ihv ihm => exact .entry ihv ihm

theorem Rel.exists_value {v : Value} {form : JsonForm} (h : Rel R (.value v) form) :
    ∃ w, form = .value w := by
  cases h <;> exact ⟨_, rfl⟩

theorem Rel.exists_items {l : List Value} {form : JsonForm} (h : Rel R (.items l) form) :
    ∃ l', form = .items l' := by
  cases h <;> exact ⟨_, rfl⟩

theorem Rel.exists_entries {m : Members} {form : JsonForm} (h : Rel R (.entries m) form) :
    ∃ m', form = .entries m' := by
  cases h <;> exact ⟨_, rfl⟩

theorem Rel.insert {m m' : Members} {v w : Value} (hm : Rel R (.entries m) (.entries m'))
    (hv : Rel R (.value v) (.value w)) (k : String) :
    Rel R (.entries (m.insert k v)) (.entries (m'.insert k w)) := by
  induction m generalizing m' with
  | nil =>
    cases hm with
    | noEntries => exact .entry hv .noEntries
  | cons e m ih =>
    cases hm with
    | entry hx hm =>
      rw [Members.insert, Members.insert]
      split_ifs
      · exact .entry hv hm
      · exact .entry hv (.entry hx hm)
      · exact .entry hx (ih hm)

theorem Rel.get {m m' : Members} {k : String} {v : Value} (hm : Rel R (.entries m) (.entries m'))
    (hv : Members.get k m = some v) : ∃ w, Members.get k m' = some w ∧ Rel R (.value v) (.value w) := by
  induction m generalizing m' with
  | nil => cases hv
  | cons e m ih =>
    cases hm with
    | entry hx htail =>
      rw [Members.get] at hv ⊢
      split_ifs at hv ⊢
      · cases hv
        exact ⟨_, rfl, hx⟩
      · exact ih htail hv

/-- The members are put into an object one after the other. -/
theorem Rel.foldl_insert {m m' acc acc' : Members} (hm : Rel R (.entries m) (.entries m'))
    (hacc : Rel R (.entries acc) (.entries acc')) :
    Rel R (.entries (m.foldl (fun acc e => Members.insert e.1 e.2 acc) acc))
      (.entries (m'.foldl (fun acc e => Members.insert e.1 e.2 acc) acc')) := by
  induction m generalizing m' acc acc' with
  | nil =>
    cases hm with
    | noEntries => exact hacc
  | cons e m ih =>
    cases hm with
    | entry hx htail =>
      rw [List.foldl_cons, List.foldl_cons]
      exact ih htail (hacc.insert hx _)

end JsonForm

/-- Writing a member on both sides. -/
theorem Value.Rel.insert {R : String → String → Prop} {v w x y : Value} (h : v.Rel R w) (hx : x.Rel R y)
    (k : String) : (v.insert k x).Rel R (w.insert k y) := by
  cases h with
  | object hm => exact .object (hm.insert hx k)
  | null => exact .null
  | bool b => exact .bool b
  | number n => exact .number n
  | string hst => exact .string hst
  | array hl => exact .array hl

/-- A text that is related to itself only stays. -/
theorem Value.Rel.getStr {R : String → String → Prop} {v w : Value} {k s : String} (h : v.Rel R w)
    (hs : v.getStr k = some s) (honly : ∀ t, R s t → t = s) : w.getStr k = some s := by
  obtain ⟨x, hx, hxs⟩ := Option.bind_eq_some_iff.mp hs
  obtain ⟨m, rfl, hm⟩ := Value.exists_object_of_get hx
  rw [Value.asStr_eq_some] at hxs
  subst hxs
  cases h with
  | object hrel =>
    obtain ⟨y, hy, hrel⟩ := hrel.get hm
    cases hrel with
    | string hst =>
      rw [Value.getStr, Value.get_object, hy, honly _ hst]
      rfl

/-! ## Tokens -/

/-- A piece of a JSON text: a character outside of words and strings, a word (a number or a literal),
a string that is a key, or a string that is a value.  Strings stand as they are written, without
the quotes. -/
inductive JsonToken where
  | mark (c : Char)
  | word (raw : List Char)
  | key (raw : List Char)
  | string (raw : List Char)
  deriving DecidableEq, Repr

namespace JsonToken

def chars : JsonToken → List Char
  | mark c => [c]
  | word raw => raw
  | key raw => '"' :: (raw ++ ['"'])
  | string raw => '"' :: (raw ++ ['"'])

/-- The text of some tokens. -/
def tokensText (ts : List JsonToken) : List Char := ts.flatMap chars

theorem tokensText_cons (t : JsonToken) (ts : List JsonToken) : tokensText (t :: ts) = t.chars ++ tokensText ts := rfl

theorem tokensText_append (ts ts' : List JsonToken) : tokensText (ts ++ ts') = tokensText ts ++ tokensText ts' :=
  List.flatMap_append

/-- White space between tokens. -/
def isSpace : JsonToken → Bool
  | mark c => c = ' ' || c = '\t' || c = '\n' || c = '\r'
  | _ => false

def isWord : JsonToken → Bool
  | word _ => true
  | _ => false

/-- Exchange a string that is a value. -/
def swap (old new : List Char) : JsonToken → JsonToken
  | string raw => string (if raw = old then new else raw)
  | t => t

end JsonToken

open JsonToken

/-- A character of a number or of a literal. -/
def isWordChar (c : Char) : Bool := Text.isAsciiAlphanumeric c || c = '+' || c = '-' || c = '.'

/-- What may stand between the quotes of a string. -/
def stringBody : List Char → Bool
  | [] => true
  | '\\' :: c :: rest => 32 ≤ c.toNat && stringBody rest
  | c :: rest => c ≠ '"' && c ≠ '\\' && 32 ≤ c.toNat && stringBody rest

/-- A text that is written in a string as it is. -/
def JsonPlain (raw : List Char) : Prop := ∀ c ∈ raw, c ≠ '"' ∧ c ≠ '\\' ∧ 32 ≤ c.toNat

instance (raw : List Char) : Decidable (JsonPlain raw) := List.decidableBAll _ _

/-- The values of words and strings, and how deep arrays and objects may stand in each other. -/
structure JsonLexicon where
  word : List Char → Option Value
  unescape : List Char → Option String
  depth : ℕ

/-- The grammar, on tokens without white space, for a depth. -/
inductive Derives (L : JsonLexicon) : ℕ → List JsonToken → JsonForm → Prop
  | word {d : ℕ} {raw : List Char} {v : Value} (hne : raw ≠ []) (hall : raw.all isWordChar = true)
      (hv : L.word raw = some v) : Derives L d [word raw] (.value v)
  | string {d : ℕ} {raw : List Char} {s : String} (hbody : stringBody raw = true)
      (hs : L.unescape raw = some s) : Derives L d [string raw] (.value (.string s))
  | emptyArray {d : ℕ} : Derives L (d + 1) [mark '[', mark ']'] (.value (.array []))
  | array {d : ℕ} {ts : List JsonToken} {l : List Value} (hl : Derives L d ts (.items l)) :
      Derives L (d + 1) (mark '[' :: (ts ++ [mark ']'])) (.value (.array l))
  | emptyObject {d : ℕ} : Derives L (d + 1) [mark '\x7b', mark '\x7d'] (.value (.object []))
  | object {d : ℕ} {ts : List JsonToken} {m : Members} (hm : Derives L d ts (.entries m)) :
      Derives L (d + 1) (mark '\x7b' :: (ts ++ [mark '\x7d']))
        (.value (.object (m.foldl (fun acc e => Members.insert e.1 e.2 acc) [])))
  | lastItem {d : ℕ} {ts : List JsonToken} {v : Value} (hv : Derives L d ts (.value v)) :
      Derives L d ts (.items [v])
  | item {d : ℕ} {ts ts' : List JsonToken} {v : Value} {l : List Value} (hv : Derives L d ts (.value v))
      (hl : Derives L d ts' (.items l)) : Derives L d (ts ++ mark ',' :: ts') (.items (v :: l))
  | lastEntry {d : ℕ} {raw : List Char} {ts : List JsonToken} {k : String} {v : Value}
      (hbody : stringBody raw = true) (hk : L.unescape raw = some k) (hv : Derives L d ts (.value v)) :
      Derives L d (key raw :: mark ':' :: ts) (.entries [(k, v)])
  | entry {d : ℕ} {raw : List Char} {ts ts' : List JsonToken} {k : String} {v : Value} {m : Members}
      (hbody : stringBody raw = true) (hk : L.unescape raw = some k) (hv : Derives L d ts (.value v))
      (hm : Derives L d ts' (.entries m)) :
      Derives L d (key raw :: mark ':' :: (ts ++ mark ',' :: ts')) (.entries ((k, v) :: m))

/-- The tokens are a text of the value. -/
structure JsonText (L : JsonLexicon) (ts : List JsonToken) (v : Value) : Prop where
  /-- Two words do not touch. -/
  spaced : ts.IsChain fun a b => ¬ (a.isWord = true ∧ b.isWord = true)
  derives : Derives L L.depth (ts.filter fun t => !t.isSpace) (.value v)

/-- The documented behaviour of the parser: it reads the texts of the grammar, in which a string without
escapes is itself. -/
structure Serde.Reads (serde : Serde) (L : JsonLexicon) : Prop where
  unescape_plain : ∀ raw, JsonPlain raw → L.unescape raw = some (String.ofList raw)
  fromStr_text : ∀ ts v, JsonText L ts v → serde.fromStr (String.ofList (tokensText ts)) = some v

/-! ## Exchanging a string -/

section

variable {L : JsonLexicon} {old new : List Char}

theorem stringBody_of_jsonPlain {raw : List Char} (h : JsonPlain raw) : stringBody raw = true := by
  induction raw with
  | nil => rfl
  | cons c raw ih =>
    obtain ⟨hquote, hslash, hprint⟩ := h c List.mem_cons_self
    have hbody := ih fun d hd => h d (List.mem_cons_of_mem _ hd)
    rw [stringBody.eq_3 _ _ (by rintro _ _ rfl _; exact hslash rfl)]
    simp [hquote, hslash, hprint, hbody]

/-- What a derivation says when a string is exchanged. -/
theorem Derives.swap (hplain : ∀ raw, JsonPlain raw → L.unescape raw = some (String.ofList raw))
    (hold : JsonPlain old) (hnew : JsonPlain new) {d : ℕ} {ts : List JsonToken} {form : JsonForm}
    (h : Derives L d ts form) :
    ∃ form', Derives L d (ts.map (JsonToken.swap old new)) form'
      ∧ JsonForm.Rel (fun s t => s = t ∨ s = String.ofList old) form form' := by
  induction h with
  | word hne hall hv => exact ⟨_, .word hne hall hv, JsonForm.rel_refl (fun _ => .inl rfl) _⟩
  | @string d raw s hbody hs =>
    by_cases hraw : raw = old
    · subst hraw
      have hvalue := hs.symm.trans (hplain raw hold)
      refine ⟨.value (.string (String.ofList new)), ?_, .string (.inr (Option.some.inj hvalue))⟩
      rw [List.map_singleton, JsonToken.swap, if_pos rfl]
      exact .string (stringBody_of_jsonPlain hnew) (hplain new hnew)
    · refine ⟨.value (.string s), ?_, .string (.inl rfl)⟩
      rw [List.map_singleton, JsonToken.swap, if_neg hraw]
      exact .string hbody hs
  | emptyArray => exact ⟨_, .emptyArray, JsonForm.rel_refl (fun _ => .inl rfl) _⟩
  | array _ ih =>
    obtain ⟨form', hl, hrel⟩ := ih
    obtain ⟨l', rfl⟩ := hrel.exists_items
    refine ⟨.value (.array l'), ?_, .array hrel⟩
    rw [List.map_cons, List.map_append]
    exact .array hl
  | emptyObject => exact ⟨_, .emptyObject, JsonForm.rel_refl (fun _ => .inl rfl) _⟩
  | object _ ih =>
    obtain ⟨form', hm, hrel⟩ := ih
    obtain ⟨m', rfl⟩ := hrel.exists_entries
    refine ⟨_, ?_, .object (hrel.foldl_insert .noEntries)⟩
    rw [List.map_cons, List.map_append]
    exact .object hm
  | lastItem _ ih =>
    obtain ⟨form', hv, hrel⟩ := ih
    obtain ⟨w, rfl⟩ := hrel.exists_value
    exact ⟨.items [w], .lastItem hv, .item hrel .noItems⟩
  | item _ _ ihv ihl =>
    obtain ⟨form', hv, hrel⟩ := ihv
    obtain ⟨w, rfl⟩ := hrel.exists_value
    obtain ⟨form', hl, hrels⟩ := ihl
    obtain ⟨l', rfl⟩ := hrels.exists_items
    refine ⟨.items (w :: l'), ?_, .item hrel hrels⟩
    rw [List.map_append, List.map_cons]
    exact .item hv hl
  | lastEntry hbody hk _ ih =>
    obtain ⟨form', hv, hrel⟩ := ih
    obtain ⟨w, rfl⟩ := hrel.exists_value
    exact ⟨.entries [(_, w)], .lastEntry hbody hk hv, .entry hrel .noEntries⟩
  | entry hbody hk _ _ ihv ihm =>
    obtain ⟨form', hv, hrel⟩ := ihv
    obtain ⟨w, rfl⟩ := hrel.exists_value
    obtain ⟨form', hm, hrels⟩ := ihm
    obtain ⟨m', rfl⟩ := hrels.exists_entries
    refine ⟨.entries ((_, w) :: m'), ?_, .entry hrel hrels⟩
    rw [List.map_cons, List.map_cons, List.map_append, List.map_cons]
    exact .entry hbody hk hv hm

theorem JsonToken.isSpace_swap (t : JsonToken) : (t.swap old new).isSpace = t.isSpace := by
  cases t <;> rfl

theorem JsonToken.isWord_swap (t : JsonToken) : (t.swap old new).isWord = t.isWord := by
  cases t <;> rfl

/-- Exchanging a string that is written as it is changes the strings that are equal to it. -/
theorem JsonText.swap (hplain : ∀ raw, JsonPlain raw → L.unescape raw = some (String.ofList raw))
    (hold : JsonPlain old) (hnew : JsonPlain new) {ts : List JsonToken} {v : Value} (h : JsonText L ts v) :
    ∃ w, JsonText L (ts.map (JsonToken.swap old new)) w ∧ v.Rel (fun s t => s = t ∨ s = String.ofList old) w := by
  obtain ⟨form, hderives, hrel⟩ := h.derives.swap hplain hold hnew
  obtain ⟨w, rfl⟩ := hrel.exists_value
  refine ⟨w, ⟨?_, ?_⟩, hrel⟩
  · rw [List.isChain_map]
    simpa only [JsonToken.isWord_swap] using h.spaced
  · rw [List.filter_map]
    simpa only [Function.comp_def, JsonToken.isSpace_swap] using hderives

theorem JsonToken.swap_self (t : JsonToken) : t.swap old old = t := by
  cases t with
  | string raw =>
    rw [JsonToken.swap]
    split_ifs with hraw
    · rw [hraw]
    · rfl
  | mark c => rfl
  | word raw => rfl
  | key raw => rfl

theorem JsonToken.swap_of_ne {t : JsonToken} (h : t ≠ .string old) : t.swap old new = t := by
  cases t with
  | string raw =>
    have hraw : raw ≠ old := fun hraw => h (hraw ▸ rfl)
    rw [JsonToken.swap, if_neg hraw]
  | mark c => rfl
  | word raw => rfl
  | key raw => rfl

theorem map_swap_of_notMem {ts : List JsonToken} (h : JsonToken.string old ∉ ts) :
    ts.map (JsonToken.swap old new) = ts := by
  conv_rhs => rw [← List.map_id ts]
  exact List.map_congr_left fun t ht => JsonToken.swap_of_ne fun heq => h (heq ▸ ht)

/-- The characters that are there when a string is exchanged. -/
theorem mem_tokensText_swap {ts : List JsonToken} {c : Char} (h : c ∈ tokensText (ts.map (JsonToken.swap old new))) :
    c ∈ tokensText ts ∨ JsonToken.string old ∈ ts ∧ c ∈ new := by
  rw [tokensText, List.flatMap_map, List.mem_flatMap] at h
  obtain ⟨t, ht, hc⟩ := h
  by_cases heq : t = .string old
  · subst heq
    rw [JsonToken.swap, if_pos rfl, JsonToken.chars, List.mem_cons, List.mem_append, List.mem_singleton] at hc
    rcases hc with rfl | hc | rfl
    · exact .inl (List.mem_flatMap.mpr ⟨_, ht, List.mem_cons_self⟩)
    · exact .inr ⟨ht, hc⟩
    · exact .inl (List.mem_flatMap.mpr ⟨_, ht, List.mem_cons_self⟩)
  · rw [JsonToken.swap_of_ne heq] at hc
    exact .inl (List.mem_flatMap.mpr ⟨t, ht, hc⟩)

/-- A string has quotes at its ends, so the ends of a text stay. -/
theorem JsonToken.ends_swap (t : JsonToken) :
    (t.swap old new).chars.head? = t.chars.head? ∧ (t.swap old new).chars.getLast? = t.chars.getLast? := by
  by_cases heq : t = .string old
  · subst heq
    rw [JsonToken.swap, if_pos rfl, JsonToken.chars, JsonToken.chars, ← List.cons_append, ← List.cons_append,
      List.getLast?_concat, List.getLast?_concat]
    exact ⟨rfl, rfl⟩
  · rw [JsonToken.swap_of_ne heq]
    exact ⟨rfl, rfl⟩

theorem head?_tokensText_swap (ts : List JsonToken) :
    (tokensText (ts.map (JsonToken.swap old new))).head? = (tokensText ts).head? := by
  induction ts with
  | nil => rfl
  | cons t ts ih =>
    rw [List.map_cons, tokensText_cons, tokensText_cons, List.head?_append, List.head?_append, ih, t.ends_swap.1]

theorem getLast?_tokensText_swap (ts : List JsonToken) :
    (tokensText (ts.map (JsonToken.swap old new))).getLast? = (tokensText ts).getLast? := by
  induction ts with
  | nil => rfl
  | cons t ts ih =>
    rw [List.map_cons, tokensText_cons, tokensText_cons, List.getLast?_append, List.getLast?_append, ih, t.ends_swap.2]

/-! ### In the text -/

/-- Every place where a text stands is all of a string that is a value. -/
def Whole (old : List Char) (ts : List JsonToken) : Prop :=
  ∀ i, old <+: (tokensText ts).drop i →
    ∃ before after, ts = before ++ JsonToken.string old :: after ∧ i = (tokensText before).length + 1

/-- Only the places in the text count. -/
theorem whole_of_forall_lt {ts : List JsonToken} (hne : old ≠ [])
    (h : ∀ i < (tokensText ts).length, old <+: (tokensText ts).drop i →
      ∃ k < ts.length, ts[k]? = some (.string old) ∧ i = (tokensText (ts.take k)).length + 1) : Whole old ts := by
  intro i hi
  have hlt : i < (tokensText ts).length := by
    by_contra hge
    rw [List.drop_of_length_le (Nat.not_lt.mp hge), List.prefix_nil] at hi
    exact hne hi
  obtain ⟨k, hk, hget, hpos⟩ := h i hlt hi
  obtain ⟨hk, hget⟩ := List.getElem?_eq_some_iff.mp hget
  refine ⟨ts.take k, ts.drop (k + 1), ?_, hpos⟩
  rw [← hget, ← List.drop_eq_getElem_cons hk, List.take_append_drop]

theorem Whole.tail {t : JsonToken} {ts : List JsonToken} (h : Whole old (t :: ts)) : Whole old ts := by
  intro i hi
  have hdrop : (tokensText (t :: ts)).drop (t.chars.length + i) = (tokensText ts).drop i := by
    rw [tokensText_cons, ← List.drop_drop, List.drop_left]
  obtain ⟨before, after, heq, hpos⟩ := h (t.chars.length + i) (by rwa [hdrop])
  cases before with
  | nil =>
    -- the string would be the first token, so that its content stands inside of it
    obtain ⟨rfl, rfl⟩ := List.cons.inj heq
    have hlength : (JsonToken.string old).chars.length = old.length + 2 := by simp [JsonToken.chars]
    rw [hlength] at hpos
    simp [tokensText] at hpos
    omega
  | cons t' before =>
    obtain ⟨rfl, rfl⟩ := List.cons.inj heq
    refine ⟨before, after, rfl, ?_⟩
    rw [tokensText_cons, List.length_append] at hpos
    omega

/-- Inside of the first token the text stands only if the token is the string. -/
theorem Whole.not_prefix {t : JsonToken} {ts : List JsonToken} (h : Whole old (t :: ts)) {i : ℕ}
    (hi : i < t.chars.length) (hne : t = JsonToken.string old → i ≠ 1) :
    ¬ old <+: (tokensText (t :: ts)).drop i := by
  intro hprefix
  obtain ⟨before, after, heq, hpos⟩ := h i hprefix
  cases before with
  | nil => exact hne (List.cons.inj heq).1 hpos
  | cons t' before =>
    obtain ⟨rfl, -⟩ := List.cons.inj heq
    rw [tokensText_cons, List.length_append] at hpos
    omega

/-- Nothing is replaced in a text where the pattern does not start. -/
theorem replaceChars_append {front rest : List Char}
    (h : ∀ i < front.length, ¬ old <+: (front ++ rest).drop i) :
    Text.replaceChars old new 0 (front ++ rest) = front ++ Text.replaceChars old new 0 rest := by
  induction front with
  | nil => rfl
  | cons c front ih =>
    have hhead : ¬ old <+: c :: (front ++ rest) := h 0 (Nat.succ_pos _)
    rw [List.cons_append, Text.replaceChars, if_neg (by rwa [List.isPrefixOf_iff_prefix]),
      ih fun i hi => h (i + 1) (Nat.succ_lt_succ hi)]
    rfl

theorem replaceChars_drop (n : ℕ) (cs : List Char) :
    Text.replaceChars old new n cs = Text.replaceChars old new 0 (cs.drop n) := by
  induction cs generalizing n with
  | nil => cases n <;> rfl
  | cons c cs ih =>
    cases n with
    | zero => rfl
    | succ n => exact ih n

theorem replaceChars_self (hne : old ≠ []) (cs : List Char) : Text.replaceChars old old 0 cs = cs := by
  induction hn : cs.length using Nat.strongRecOn generalizing cs with
  | ind n ih =>
    cases cs with
    | nil => rfl
    | cons c cs =>
      rw [List.length_cons] at hn
      rw [Text.replaceChars]
      split_ifs with hprefix
      · obtain ⟨rest, hrest⟩ := List.isPrefixOf_iff_prefix.mp hprefix
        have hlength := congrArg List.length hrest
        have hpos := List.length_pos_iff.mpr hne
        rw [List.length_append, List.length_cons] at hlength
        have hcs : cs.drop (old.length - 1) = rest := by
          have hdrop := congrArg (List.drop old.length) hrest
          rw [List.drop_left] at hdrop
          rw [hdrop, ← List.drop_succ_cons (a := c), Nat.sub_add_cancel hpos]
        rw [replaceChars_drop, hcs, ih rest.length (by omega) rest rfl, hrest]
      · rw [ih cs.length (by omega) cs rfl]

/-- Replacing a text by itself. -/
theorem replace_self (s p : String) : Text.replace s p p = s := by
  rw [Text.replace]
  split_ifs with hp
  · rw [hp, List.nil_append, List.flatMap_singleton', String.ofList_toList]
  · rw [replaceChars_self hp, String.ofList_toList]

/-- If it stands nowhere else, replacing a text is exchanging the string. -/
theorem replaceChars_tokensText {ts : List JsonToken} (hne : old ≠ []) (h : Whole old ts) :
    Text.replaceChars old new 0 (tokensText ts) = tokensText (ts.map (JsonToken.swap old new)) := by
  induction ts with
  | nil => rfl
  | cons t ts ih =>
    have hrest := ih h.tail
    rw [List.map_cons, tokensText_cons (t.swap old new), ← hrest]
    by_cases ht : t = .string old
    · subst ht
      have hopen : ¬ old <+: '"' :: (old ++ '"' :: tokensText ts) := by
        have h0 := h.not_prefix (i := 0) (by simp [JsonToken.chars]) (fun _ => by decide)
        simpa [tokensText_cons, JsonToken.chars] using h0
      have hclose : ¬ old <+: '"' :: tokensText ts := by
        have hlast := h.not_prefix (i := old.length + 1) (by simp [JsonToken.chars])
          (fun _ hone => hne (List.length_eq_zero_iff.mp (by omega)))
        simpa [tokensText_cons, JsonToken.chars] using hlast
      obtain ⟨c, cs, rfl⟩ := List.exists_cons_of_ne_nil hne
      have htext : tokensText (.string (c :: cs) :: ts) = '"' :: (c :: cs ++ '"' :: tokensText ts) := by
        simp [tokensText_cons, JsonToken.chars]
      have hmatch : (c :: cs).isPrefixOf (c :: (cs ++ '"' :: tokensText ts)) = true := by
        rw [List.isPrefixOf_iff_prefix]
        exact List.prefix_append (c :: cs) ('"' :: tokensText ts)
      rw [htext, Text.replaceChars, if_neg (by rwa [List.isPrefixOf_iff_prefix]), List.cons_append,
        Text.replaceChars, if_pos hmatch, replaceChars_drop, List.length_cons, Nat.add_sub_cancel,
        List.drop_left, Text.replaceChars, if_neg (by rwa [List.isPrefixOf_iff_prefix]), JsonToken.swap,
        if_pos rfl, JsonToken.chars]
      simp
    · rw [JsonToken.swap_of_ne ht, tokensText_cons]
      exact replaceChars_append fun i hi => tokensText_cons t ts ▸ h.not_prefix hi fun heq => absurd heq ht

end

/-! ## A parser for the grammar -/

/-- A token as it can be told from the characters: a key looks like any other string. -/
inductive Lexeme where
  | mark (c : Char)
  | word (raw : List Char)
  | text (raw : List Char)
  deriving DecidableEq

def JsonToken.lexeme : JsonToken → Lexeme
  | mark c => .mark c
  | word raw => .word raw
  | key raw => .text raw
  | string raw => .text raw

/-- The string in front, up to its closing quote. -/
def takeText : List Char → Option (List Char × List Char)
  | [] => none
  | '"' :: rest => some ([], rest)
  | '\\' :: c :: rest => (takeText rest).map fun found => ('\\' :: c :: found.1, found.2)
  | c :: rest => (takeText rest).map fun found => (c :: found.1, found.2)

/-- The lexemes of a text, without the white space. -/
def lexemes : ℕ → List Char → Option (List Lexeme)
  | _, [] => some []
  | 0, _ :: _ => none
  | n + 1, c :: rest =>
    if c = '"' then
      (takeText rest).bind fun found => (lexemes n found.2).map (Lexeme.text found.1 :: ·)
    else if isWordChar c then
      (lexemes n (rest.dropWhile isWordChar)).map (Lexeme.word (c :: rest.takeWhile isWordChar) :: ·)
    else if (JsonToken.mark c).isSpace then lexemes n rest
    else (lexemes n rest).map (Lexeme.mark c :: ·)

/-- What is behind a mark. -/
def behind (c : Char) : List Lexeme → Option (List Lexeme)
  | .mark d :: rest => if d = c then some rest else none
  | _ => none

mutual

/-- The value in front. -/
def JsonLexicon.parseValue (L : JsonLexicon) : ℕ → List Lexeme → Option (Value × List Lexeme)
  | 0, _ => none
  | n + 1, lexemes =>
    match lexemes with
    | [] => none
    | .word raw :: rest => (L.word raw).map fun v => (v, rest)
    | .text raw :: rest => (L.unescape raw).map fun s => (.string s, rest)
    | .mark c :: rest =>
      if c = '[' then
        match behind ']' rest with
        | some rest => some (.array [], rest)
        | none => (L.parseItems n rest).bind fun found =>
          (behind ']' found.2).map fun rest => (.array found.1, rest)
      else if c = '\x7b' then
        match behind '\x7d' rest with
        | some rest => some (.object [], rest)
        | none => (L.parseEntries n rest).bind fun found =>
          (behind '\x7d' found.2).map fun rest =>
            (.object (found.1.foldl (fun acc e => Members.insert e.1 e.2 acc) []), rest)
      else none
termination_by structural n => n

/-- The items of an array in front. -/
def JsonLexicon.parseItems (L : JsonLexicon) : ℕ → List Lexeme → Option (List Value × List Lexeme)
  | 0, _ => none
  | n + 1, lexemes =>
    (L.parseValue n lexemes).bind fun found =>
      match behind ',' found.2 with
      | none => some ([found.1], found.2)
      | some rest => (L.parseItems n rest).map fun more => (found.1 :: more.1, more.2)
termination_by structural n => n

/-- The members of an object in front. -/
def JsonLexicon.parseEntries (L : JsonLexicon) : ℕ → List Lexeme → Option (Members × List Lexeme)
  | 0, _ => none
  | n + 1, lexemes =>
    match lexemes with
    | .text raw :: rest =>
      (L.unescape raw).bind fun k => (behind ':' rest).bind fun rest =>
        (L.parseValue n rest).bind fun found =>
          match behind ',' found.2 with
          | none => some ([(k, found.1)], found.2)
          | some rest => (L.parseEntries n rest).map fun more => ((k, found.1) :: more.1, more.2)
    | _ => none
termination_by structural n => n

end

/-- Parse a text. -/
def JsonLexicon.fromStr (L : JsonLexicon) (s : String) : Option Value :=
  (lexemes s.length s.toList).bind fun found =>
    match L.parseValue (2 * found.length) found with
    | some (v, []) => some v
    | _ => none

/-- What may stand in the text of a token. -/
def JsonToken.Ok : JsonToken → Prop
  | mark c => c ≠ '"' ∧ isWordChar c = false
  | word raw => raw ≠ [] ∧ raw.all isWordChar = true
  | key raw => stringBody raw = true
  | string raw => stringBody raw = true

theorem takeText_body {raw : List Char} (h : stringBody raw = true) (rest : List Char) :
    takeText (raw ++ '"' :: rest) = some (raw, rest) := by
  fun_induction stringBody raw with
  | case1 => rfl
  | case2 c raw ih =>
    rw [Bool.and_eq_true] at h
    rw [List.cons_append, List.cons_append, takeText, ih h.2]
    rfl
  | case3 c raw hslash ih =>
    simp only [Bool.and_eq_true, decide_eq_true_eq] at h
    obtain ⟨⟨⟨hquote, hback⟩, hprint⟩, hbody⟩ := h
    rw [List.cons_append, takeText.eq_4 _ _ (fun hc => hquote hc) (fun _ _ hc _ => hback hc), ih hbody]
    rfl

theorem Derives.ok {L : JsonLexicon} {d : ℕ} {ts : List JsonToken} {form : JsonForm} (h : Derives L d ts form) :
    ∀ t ∈ ts, t.Ok := by
  have hchars : ∀ c ∈ ['[', ']', '\x7b', '\x7d', ',', ':'], c ≠ '"' ∧ isWordChar c = false :=
    List.all_iff_forall_prop.mp (by decide)
  have hmark : ∀ c ∈ ['[', ']', '\x7b', '\x7d', ',', ':'], (JsonToken.mark c).Ok := hchars
  induction h with
  | word hne hall _ => exact List.forall_mem_singleton.mpr ⟨hne, hall⟩
  | string hbody _ => exact List.forall_mem_singleton.mpr hbody
  | emptyArray =>
    exact List.forall_mem_cons.mpr ⟨hmark _ (by simp), List.forall_mem_singleton.mpr (hmark _ (by simp))⟩
  | array _ ih =>
    refine List.forall_mem_cons.mpr ⟨hmark _ (by simp), List.forall_mem_append.mpr ⟨ih, ?_⟩⟩
    exact List.forall_mem_singleton.mpr (hmark _ (by simp))
  | emptyObject =>
    exact List.forall_mem_cons.mpr ⟨hmark _ (by simp), List.forall_mem_singleton.mpr (hmark _ (by simp))⟩
  | object _ ih =>
    refine List.forall_mem_cons.mpr ⟨hmark _ (by simp), List.forall_mem_append.mpr ⟨ih, ?_⟩⟩
    exact List.forall_mem_singleton.mpr (hmark _ (by simp))
  | lastItem _ ih => exact ih
  | item _ _ ihv ihl =>
    exact List.forall_mem_append.mpr ⟨ihv, List.forall_mem_cons.mpr ⟨hmark _ (by simp), ihl⟩⟩
  | lastEntry hbody _ _ ih =>
    exact List.forall_mem_cons.mpr ⟨hbody, List.forall_mem_cons.mpr ⟨hmark _ (by simp), ih⟩⟩
  | entry hbody _ _ _ ihv ihm =>
    refine List.forall_mem_cons.mpr ⟨hbody, List.forall_mem_cons.mpr ⟨hmark _ (by simp), ?_⟩⟩
    exact List.forall_mem_append.mpr ⟨ihv, List.forall_mem_cons.mpr ⟨hmark _ (by simp), ihm⟩⟩

theorem behind_mark (c : Char) (rest : List Lexeme) : behind c (.mark c :: rest) = some rest := if_pos rfl

/-- The parser finds a form in front of the rest. -/
def JsonLexicon.Finds (L : JsonLexicon) (n : ℕ) (lexemes rest : List Lexeme) : JsonForm → Prop
  | .value v => L.parseValue n lexemes = some (v, rest)
  | .items l => L.parseItems n lexemes = some (l, rest)
  | .entries m => L.parseEntries n lexemes = some (m, rest)

/-- The fuel that is needed for a form of some length. -/
def JsonForm.fuel (length : ℕ) : JsonForm → ℕ
  | .value _ => 2 * length
  | _ => 2 * length + 1

/-- No form starts with a closing bracket. -/
theorem Derives.behind_eq_none {L : JsonLexicon} {d : ℕ} {ts : List JsonToken} {form : JsonForm}
    (h : Derives L d ts form) {c : Char} (hc : c = ']' ∨ c = '\x7d') (rest : List Lexeme) :
    behind c (ts.map JsonToken.lexeme ++ rest) = none := by
  induction h generalizing rest with
  | word _ _ _ => rfl
  | string _ _ => rfl
  | emptyArray => rcases hc with rfl | rfl <;> rfl
  | array _ _ => rcases hc with rfl | rfl <;> rfl
  | emptyObject => rcases hc with rfl | rfl <;> rfl
  | object _ _ => rcases hc with rfl | rfl <;> rfl
  | lastItem _ ih => exact ih rest
  | item _ _ ihv _ =>
    rw [List.map_append, List.append_assoc]
    exact ihv _
  | lastEntry _ _ _ _ => rfl
  | entry _ _ _ _ _ _ => rfl

/-- The parser finds what the grammar derives. -/
theorem Derives.finds {L : JsonLexicon} {d : ℕ} {ts : List JsonToken} {form : JsonForm}
    (h : Derives L d ts form) {n : ℕ} (hn : form.fuel ts.length ≤ n) {rest : List Lexeme}
    (hrest : behind ',' rest = none ∨ ∃ v, form = .value v) :
    L.Finds n (ts.map JsonToken.lexeme ++ rest) rest form := by
  induction h generalizing n rest with
  | word hne hall hv =>
    obtain ⟨m, rfl⟩ : ∃ m, n = m + 1 := ⟨n - 1, by simp [JsonForm.fuel] at hn; omega⟩
    simp [JsonLexicon.Finds, JsonLexicon.parseValue, JsonToken.lexeme, hv]
  | string hbody hs =>
    obtain ⟨m, rfl⟩ : ∃ m, n = m + 1 := ⟨n - 1, by simp [JsonForm.fuel] at hn; omega⟩
    simp [JsonLexicon.Finds, JsonLexicon.parseValue, JsonToken.lexeme, hs]
  | emptyArray =>
    obtain ⟨m, rfl⟩ : ∃ m, n = m + 1 := ⟨n - 1, by simp [JsonForm.fuel] at hn; omega⟩
    simp [JsonLexicon.Finds, JsonLexicon.parseValue, JsonToken.lexeme, behind_mark]
  | @array d ts l hl ih =>
    obtain ⟨m, rfl⟩ : ∃ m, n = m + 1 := ⟨n - 1, by simp [JsonForm.fuel] at hn; omega⟩
    have hitems : L.parseItems m (ts.map JsonToken.lexeme ++ .mark ']' :: rest) = some (l, .mark ']' :: rest) :=
      ih (by simp [JsonForm.fuel] at hn ⊢; omega) (.inl rfl)
    have hopen := hl.behind_eq_none (.inl rfl) (.mark ']' :: rest)
    simp [JsonLexicon.Finds, JsonLexicon.parseValue, JsonToken.lexeme, hopen, hitems, behind_mark]
  | emptyObject =>
    obtain ⟨m, rfl⟩ : ∃ m, n = m + 1 := ⟨n - 1, by simp [JsonForm.fuel] at hn; omega⟩
    simp [JsonLexicon.Finds, JsonLexicon.parseValue, JsonToken.lexeme, behind_mark]
  | @object d ts em hm ih =>
    obtain ⟨m, rfl⟩ : ∃ m, n = m + 1 := ⟨n - 1, by simp [JsonForm.fuel] at hn; omega⟩
    have hentries : L.parseEntries m (ts.map JsonToken.lexeme ++ .mark '\x7d' :: rest)
        = some (em, .mark '\x7d' :: rest) :=
      ih (by simp [JsonForm.fuel] at hn ⊢; omega) (.inl rfl)
    have hopen := hm.behind_eq_none (.inr rfl) (.mark '\x7d' :: rest)
    simp [JsonLexicon.Finds, JsonLexicon.parseValue, JsonToken.lexeme, hopen, hentries, behind_mark]
  | @lastItem d ts v hv ih =>
    obtain ⟨m, rfl⟩ : ∃ m, n = m + 1 := ⟨n - 1, by simp [JsonForm.fuel] at hn; omega⟩
    have hvalue : L.parseValue m (ts.map JsonToken.lexeme ++ rest) = some (v, rest) :=
      ih (by simp [JsonForm.fuel] at hn ⊢; omega) (.inr ⟨v, rfl⟩)
    have hrest : behind ',' rest = none := hrest.resolve_right (by rintro ⟨_, h⟩; cases h)
    simp [JsonLexicon.Finds, JsonLexicon.parseItems, hvalue, hrest]
  | @item d ts ts' v l hv hl ihv ihl =>
    obtain ⟨m, rfl⟩ : ∃ m, n = m + 1 := ⟨n - 1, by simp [JsonForm.fuel] at hn; omega⟩
    have hvalue : L.parseValue m (ts.map JsonToken.lexeme ++ .mark ',' :: (ts'.map JsonToken.lexeme ++ rest))
        = some (v, .mark ',' :: (ts'.map JsonToken.lexeme ++ rest)) :=
      ihv (by simp [JsonForm.fuel] at hn ⊢; omega) (.inr ⟨v, rfl⟩)
    have hrest : behind ',' rest = none := hrest.resolve_right (by rintro ⟨_, h⟩; cases h)
    have hitems : L.parseItems m (ts'.map JsonToken.lexeme ++ rest) = some (l, rest) :=
      ihl (by simp [JsonForm.fuel] at hn ⊢; omega) (.inl hrest)
    simp [JsonLexicon.Finds, JsonLexicon.parseItems, JsonToken.lexeme, hvalue, hitems, behind_mark]
  | @lastEntry d raw ts k v hbody hk hv ih =>
    obtain ⟨m, rfl⟩ : ∃ m, n = m + 1 := ⟨n - 1, by simp [JsonForm.fuel] at hn; omega⟩
    have hvalue : L.parseValue m (ts.map JsonToken.lexeme ++ rest) = some (v, rest) :=
      ih (by simp [JsonForm.fuel] at hn ⊢; omega) (.inr ⟨v, rfl⟩)
    have hrest : behind ',' rest = none := hrest.resolve_right (by rintro ⟨_, h⟩; cases h)
    simp [JsonLexicon.Finds, JsonLexicon.parseEntries, JsonToken.lexeme, hk, hvalue, hrest, behind_mark]
  | @entry d raw ts ts' k v em hbody hk hv hm ihv ihm =>
    obtain ⟨m, rfl⟩ : ∃ m, n = m + 1 := ⟨n - 1, by simp [JsonForm.fuel] at hn; omega⟩
    have hvalue : L.parseValue m (ts.map JsonToken.lexeme ++ .mark ',' :: (ts'.map JsonToken.lexeme ++ rest))
        = some (v, .mark ',' :: (ts'.map JsonToken.lexeme ++ rest)) :=
      ihv (by simp [JsonForm.fuel] at hn ⊢; omega) (.inr ⟨v, rfl⟩)
    have hrest : behind ',' rest = none := hrest.resolve_right (by rintro ⟨_, h⟩; cases h)
    have hentries : L.parseEntries m (ts'.map JsonToken.lexeme ++ rest) = some (em, rest) :=
      ihm (by simp [JsonForm.fuel] at hn ⊢; omega) (.inl hrest)
    simp [JsonLexicon.Finds, JsonLexicon.parseEntries, JsonToken.lexeme, hk, hvalue, hentries, behind_mark]

theorem JsonToken.isSpace_mark {c : Char} (h : (JsonToken.mark c).isSpace = true) :
    c ≠ '"' ∧ isWordChar c = false := by
  simp only [JsonToken.isSpace, Bool.or_eq_true, decide_eq_true_eq] at h
  rcases h with ((rfl | rfl) | rfl) | rfl <;> exact ⟨by decide, by decide⟩

/-- A token that is no word does not look like one. -/
theorem isWordChar_tokensText {t : JsonToken} {ts : List JsonToken} (hok : t.isSpace = true ∨ t.Ok)
    (hword : t.isWord = false) : ∃ c cs, tokensText (t :: ts) = c :: cs ∧ isWordChar c = false := by
  cases t with
  | mark c =>
    rcases hok with hspace | hok
    · exact ⟨c, _, rfl, (JsonToken.isSpace_mark hspace).2⟩
    · exact ⟨c, _, rfl, hok.2⟩
  | word raw => cases hword
  | key raw => exact ⟨'"', _, rfl, by decide⟩
  | string raw => exact ⟨'"', _, rfl, by decide⟩

theorem lexemes_cons_text {raw : List Char} (hbody : stringBody raw = true) (n : ℕ) (rest : List Char) :
    lexemes (n + 1) ('"' :: (raw ++ '"' :: rest)) = (lexemes n rest).map (Lexeme.text raw :: ·) := by
  rw [lexemes, if_pos rfl, takeText_body hbody]
  rfl

theorem lexemes_cons_word {raw : List Char} (hne : raw ≠ []) (hall : raw.all isWordChar = true) (n : ℕ)
    {rest : List Char} (hrest : ∀ c cs, rest = c :: cs → isWordChar c = false) :
    lexemes (n + 1) (raw ++ rest) = (lexemes n rest).map (Lexeme.word raw :: ·) := by
  obtain ⟨c, raw, rfl⟩ := List.exists_cons_of_ne_nil hne
  rw [List.all_cons, Bool.and_eq_true] at hall
  have hquote : c ≠ '"' := by
    rintro rfl
    exact absurd hall.1 (by decide)
  have hraw : ∀ d ∈ raw, isWordChar d = true := fun d hd => List.all_eq_true.mp hall.2 d hd
  have htake : rest.takeWhile isWordChar = [] ∧ rest.dropWhile isWordChar = rest := by
    cases rest with
    | nil => exact ⟨rfl, rfl⟩
    | cons d rest =>
      have hd : ¬ isWordChar d = true := by
        rw [hrest d rest rfl]
        exact Bool.false_ne_true
      exact ⟨List.takeWhile_cons_of_neg hd, List.dropWhile_cons_of_neg hd⟩
  rw [List.cons_append, lexemes, if_neg hquote, if_pos hall.1, List.dropWhile_append_of_pos hraw,
    List.takeWhile_append_of_pos hraw, htake.1, htake.2, List.append_nil]

/-- The lexemes of a text are those of its tokens. -/
theorem lexemes_tokensText {ts : List JsonToken} (hok : ∀ t ∈ ts, t.isSpace = true ∨ t.Ok)
    (hspaced : ts.IsChain fun a b => ¬ (a.isWord = true ∧ b.isWord = true)) {n : ℕ}
    (hn : (tokensText ts).length ≤ n) :
    lexemes n (tokensText ts) = some ((ts.filter fun t => !t.isSpace).map JsonToken.lexeme) := by
  induction ts generalizing n with
  | nil => cases n <;> rfl
  | cons t ts ih =>
    have hrest := fun m hm => ih (n := m) (fun u hu => hok u (List.mem_cons_of_mem _ hu)) hspaced.tail hm
    have ht := hok t List.mem_cons_self
    rw [tokensText_cons, List.length_append] at hn
    cases t with
    | mark c =>
      obtain ⟨m, rfl⟩ : ∃ m, n = m + 1 := ⟨n - 1, by simp [JsonToken.chars] at hn; omega⟩
      have hm : (tokensText ts).length ≤ m := by simp [JsonToken.chars] at hn; omega
      have hc : c ≠ '"' ∧ isWordChar c = false := ht.elim JsonToken.isSpace_mark id
      rw [tokensText_cons, JsonToken.chars, List.singleton_append, lexemes, if_neg hc.1, hc.2,
        if_neg Bool.false_ne_true, hrest m hm]
      cases hspace : (JsonToken.mark c).isSpace with
      | true => rw [if_pos rfl, List.filter_cons_of_neg (by simp [hspace])]
      | false =>
        rw [if_neg Bool.false_ne_true, List.filter_cons_of_pos (by simp [hspace])]
        rfl
    | word raw =>
      obtain ⟨hne, hall⟩ : raw ≠ [] ∧ raw.all isWordChar = true := ht.resolve_left (by simp [JsonToken.isSpace])
      have hpos := List.length_pos_iff.mpr hne
      obtain ⟨m, rfl⟩ : ∃ m, n = m + 1 := ⟨n - 1, by simp [JsonToken.chars] at hn; omega⟩
      have hm : (tokensText ts).length ≤ m := by simp [JsonToken.chars] at hn; omega
      have hnext : ∀ c cs, tokensText ts = c :: cs → isWordChar c = false := by
        intro c cs hcs
        cases ts with
        | nil => cases hcs
        | cons u us =>
          have hword : u.isWord = false := by
            rw [List.isChain_cons_cons] at hspaced
            exact Bool.eq_false_iff.mpr fun hu => hspaced.1 ⟨rfl, hu⟩
          obtain ⟨c', cs', heq, hc'⟩ : ∃ c cs, tokensText (u :: us) = c :: cs ∧ isWordChar c = false :=
            isWordChar_tokensText (hok u (List.mem_cons_of_mem _ List.mem_cons_self)) hword
          rw [heq] at hcs
          rwa [← (List.cons.inj hcs).1]
      rw [tokensText_cons, JsonToken.chars, lexemes_cons_word hne hall m hnext, hrest m hm]
      rfl
    | key raw =>
      obtain ⟨m, rfl⟩ : ∃ m, n = m + 1 := ⟨n - 1, by simp [JsonToken.chars] at hn; omega⟩
      have hm : (tokensText ts).length ≤ m := by simp [JsonToken.chars] at hn; omega
      have hbody : stringBody raw = true := ht.resolve_left (by simp [JsonToken.isSpace])
      rw [tokensText_cons, JsonToken.chars, List.cons_append, List.append_assoc, List.singleton_append,
        lexemes_cons_text hbody, hrest m hm]
      rfl
    | string raw =>
      obtain ⟨m, rfl⟩ : ∃ m, n = m + 1 := ⟨n - 1, by simp [JsonToken.chars] at hn; omega⟩
      have hm : (tokensText ts).length ≤ m := by simp [JsonToken.chars] at hn; omega
      have hbody : stringBody raw = true := ht.resolve_left (by simp [JsonToken.isSpace])
      rw [tokensText_cons, JsonToken.chars, List.cons_append, List.append_assoc, List.singleton_append,
        lexemes_cons_text hbody, hrest m hm]
      rfl

theorem JsonText.ok {L : JsonLexicon} {ts : List JsonToken} {v : Value} (h : JsonText L ts v) :
    ∀ t ∈ ts, t.isSpace = true ∨ t.Ok := by
  intro t ht
  by_cases hspace : t.isSpace = true
  · exact .inl hspace
  · exact .inr (h.derives.ok t (List.mem_filter.mpr ⟨ht, by simp [hspace]⟩))

/-- The parser reads the texts of the grammar. -/
theorem JsonText.fromStr {L : JsonLexicon} {ts : List JsonToken} {v : Value} (h : JsonText L ts v) :
    L.fromStr (String.ofList (tokensText ts)) = some v := by
  have hfinds : L.Finds (2 * (ts.filter fun t => !t.isSpace).length)
      ((ts.filter fun t => !t.isSpace).map JsonToken.lexeme ++ []) [] (.value v) :=
    h.derives.finds le_rfl (.inl rfl)
  rw [List.append_nil] at hfinds
  rw [JsonLexicon.fromStr, String.toList_ofList, String.length_ofList,
    lexemes_tokensText h.ok h.spaced le_rfl, Option.bind_some, List.length_map, hfinds]

/-- A lexicon for texts without escapes, whose words are the three literals. -/
def JsonLexicon.plain (depth : ℕ) : JsonLexicon where
  word raw :=
    if raw = "null".toList then some .null
    else if raw = "true".toList then some (.bool true)
    else if raw = "false".toList then some (.bool false)
    else none
  unescape raw := if JsonPlain raw then some (String.ofList raw) else none
  depth := depth

/-- The parser with that lexicon, and the printer. -/
def JsonLexicon.serde (L : JsonLexicon) : Serde := ⟨L.fromStr, Serde.print⟩

theorem JsonLexicon.plain_reads (depth : ℕ) : (JsonLexicon.plain depth).serde.Reads (JsonLexicon.plain depth) where
  unescape_plain _ h := if_pos h
  fromStr_text _ _ h := h.fromStr
