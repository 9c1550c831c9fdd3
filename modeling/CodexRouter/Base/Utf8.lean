/-
# Lossy UTF-8 decoding

`decodeLossy` is `String::from_utf8_lossy`: the characters of a byte list, with
U+FFFD for each maximal part of an ill-formed sequence.  It inverts the encoding,
also piece by piece as long as no piece starts inside of a character
(`flatMap_decodeLossy`); a piece that does costs an extra character
(`length_lt_decodeLossy`).
-/
import Mathlib.Data.List.Basic
import Mathlib.Data.String.Basic

namespace Utf8

/-! ## Decoding -/

/-- A byte that continues a character. -/
def isContinuation (b : UInt8) : Bool := 0x80 ≤ b.toNat && b.toNat ≤ 0xBF

/-- U+FFFD. -/
def replacement : Char := Char.ofNat 0xFFFD

/-- Read the bytes that a character still needs, the first one between the bounds:
the character, or U+FFFD, with the number of bytes that belong to it. -/
def takeTail : ℕ → ℕ → ℕ → ℕ → ℕ → List UInt8 → Char × ℕ
  | 0, _, _, acc, taken, _ => (Char.ofNat acc, taken)
  | _ + 1, _, _, _, taken, [] => (replacement, taken)
  | need + 1, low, high, acc, taken, b :: rest =>
    if low ≤ b.toNat ∧ b.toNat ≤ high then
      takeTail need 0x80 0xBF (acc * 64 + (b.toNat - 0x80)) (taken + 1) rest
    else (replacement, taken)

/-- The first character of `b :: rest`, and how many bytes of `rest` belong to it. -/
def nextChar (b : UInt8) (rest : List UInt8) : Char × ℕ :=
  let n := b.toNat
  if n ≤ 0x7F then (Char.ofNat n, 0)
  else if n < 0xC2 then (replacement, 0)
  else if n ≤ 0xDF then takeTail 1 0x80 0xBF (n - 0xC0) 0 rest
  else if n ≤ 0xEF then
    takeTail 2 (if n = 0xE0 then 0xA0 else 0x80) (if n = 0xED then 0x9F else 0xBF) (n - 0xE0) 0 rest
  else if n ≤ 0xF4 then
    takeTail 3 (if n = 0xF0 then 0x90 else 0x80) (if n = 0xF4 then 0x8F else 0xBF) (n - 0xF0) 0 rest
  else (replacement, 0)

/-- The characters of a byte list; the number counts the bytes that are still to be
skipped. -/
def decodeFrom : ℕ → List UInt8 → List Char
  | _, [] => []
  | n + 1, _ :: rest => decodeFrom n rest
  | 0, b :: rest => (nextChar b rest).1 :: decodeFrom (nextChar b rest).2 rest

/-- `String::from_utf8_lossy`, as characters. -/
def decodeLossy (bytes : List UInt8) : List Char := decodeFrom 0 bytes

/-- The UTF-8 encoding of a character list. -/
def encode (cs : List Char) : List UInt8 := cs.flatMap String.utf8EncodeChar

@[simp] theorem encode_nil : encode [] = [] := rfl

@[simp] theorem encode_cons (c : Char) (cs : List Char) :
    encode (c :: cs) = String.utf8EncodeChar c ++ encode cs := rfl

/-! ## Decoding what was encoded -/

theorem toNat_ofNat {n : ℕ} (h : n < 256) : (UInt8.ofNat n).toNat = n := by
  rw [UInt8.toNat_ofNat', Nat.mod_eq_of_lt h]

/-- A valid character is not a surrogate and not above the last plane. -/
theorem char_range (c : Char) : c.toNat < 0xD800 ∨ (0xDFFF < c.toNat ∧ c.toNat < 0x110000) :=
  c.valid

theorem isContinuation_ofNat {n : ℕ} (hlow : 0x80 ≤ n) (hhigh : n ≤ 0xBF) :
    isContinuation (UInt8.ofNat n) = true := by
  rw [isContinuation, toNat_ofNat (by omega)]
  simp [hlow, hhigh]

theorem isContinuation_ofNat_eq_false {n : ℕ} (h : n < 0x80 ∨ 0xBF < n) (hn : n < 256) :
    isContinuation (UInt8.ofNat n) = false := by
  rw [isContinuation, toNat_ofNat hn]
  rcases h with h | h
  · simp [Nat.not_le.mpr h]
  · simp [Nat.not_le.mpr h]

/-- A byte between the bounds is taken. -/
theorem takeTail_cons {need low high acc taken n : ℕ} {rest : List UInt8} (hn : n < 256)
    (hlow : low ≤ n) (hhigh : n ≤ high) :
    takeTail (need + 1) low high acc taken (UInt8.ofNat n :: rest)
      = takeTail need 0x80 0xBF (acc * 64 + (n - 0x80)) (taken + 1) rest := by
  rw [takeTail, toNat_ofNat hn, if_pos ⟨hlow, hhigh⟩]

/-- Decoding an encoded character gives it back, and takes all of its bytes. -/
theorem nextChar_encode (c : Char) (rest : List UInt8) :
    ∃ b tail, String.utf8EncodeChar c = b :: tail ∧ isContinuation b = false
      ∧ (∀ b' ∈ tail, isContinuation b' = true)
      ∧ nextChar b (tail ++ rest) = (c, tail.length) := by
  have hrange := char_range c
  have hofNat : Char.ofNat c.toNat = c := Char.ofNat_toNat c
  have hval : c.val.toNat = c.toNat := rfl
  unfold String.utf8EncodeChar
  rw [hval]
  generalize hv : c.toNat = v at hrange hofNat ⊢
  by_cases h1 : v ≤ 0x7F
  · refine ⟨UInt8.ofNat v, [], by simp [h1], ?_, by simp, ?_⟩
    · exact isContinuation_ofNat_eq_false (.inl (by omega)) (by omega)
    · simp only [nextChar, toNat_ofNat (show v < 256 by omega), if_pos h1, hofNat, List.length_nil]
  by_cases h2 : v ≤ 0x7FF
  · refine ⟨UInt8.ofNat (v / 64 % 0x20 + 0xC0), [UInt8.ofNat (v % 0x40 + 0x80)], by simp [h1, h2],
      isContinuation_ofNat_eq_false (.inr (by omega)) (by omega), ?_, ?_⟩
    · have hlast := isContinuation_ofNat (n := v % 0x40 + 0x80) (by omega) (by omega)
      exact List.forall_mem_singleton.mpr hlast
    · simp only [nextChar, toNat_ofNat (show v / 64 % 0x20 + 0xC0 < 256 by omega)]
      rw [if_neg (by omega), if_neg (by omega), if_pos (by omega), List.cons_append,
        takeTail_cons (by omega) (by omega) (by omega), takeTail]
      have hv2 : (v / 64 % 0x20 + 0xC0 - 0xC0) * 64 + (v % 0x40 + 0x80 - 0x80) = v := by omega
      rw [hv2, hofNat]
      rfl
  by_cases h3 : v ≤ 0xFFFF
  · refine ⟨UInt8.ofNat (v / 4096 % 0x10 + 0xE0),
      [UInt8.ofNat (v / 64 % 0x40 + 0x80), UInt8.ofNat (v % 0x40 + 0x80)], by simp [h1, h2, h3],
      isContinuation_ofNat_eq_false (.inr (by omega)) (by omega), ?_, ?_⟩
    · have hmid := isContinuation_ofNat (n := v / 64 % 0x40 + 0x80) (by omega) (by omega)
      have hlast := isContinuation_ofNat (n := v % 0x40 + 0x80) (by omega) (by omega)
      exact List.forall_mem_cons.mpr ⟨hmid, List.forall_mem_singleton.mpr hlast⟩
    · simp only [nextChar, toNat_ofNat (show v / 4096 % 0x10 + 0xE0 < 256 by omega)]
      rw [if_neg (by omega), if_neg (by omega), if_neg (by omega), if_pos (by omega),
        List.cons_append, takeTail_cons (by omega) (by split <;> omega) (by split <;> omega),
        List.cons_append, takeTail_cons (by omega) (by omega) (by omega), takeTail]
      have hv3 : ((v / 4096 % 0x10 + 0xE0 - 0xE0) * 64 + (v / 64 % 0x40 + 0x80 - 0x80)) * 64
          + (v % 0x40 + 0x80 - 0x80) = v := by omega
      rw [hv3, hofNat]
      rfl
  · refine ⟨UInt8.ofNat (v / 262144 % 0x08 + 0xF0),
      [UInt8.ofNat (v / 4096 % 0x40 + 0x80), UInt8.ofNat (v / 64 % 0x40 + 0x80),
        UInt8.ofNat (v % 0x40 + 0x80)], by simp [h1, h2, h3],
      isContinuation_ofNat_eq_false (.inr (by omega)) (by omega), ?_, ?_⟩
    · have hsecond := isContinuation_ofNat (n := v / 4096 % 0x40 + 0x80) (by omega) (by omega)
      have hthird := isContinuation_ofNat (n := v / 64 % 0x40 + 0x80) (by omega) (by omega)
      have hlast := isContinuation_ofNat (n := v % 0x40 + 0x80) (by omega) (by omega)
      exact List.forall_mem_cons.mpr
        ⟨hsecond, List.forall_mem_cons.mpr ⟨hthird, List.forall_mem_singleton.mpr hlast⟩⟩
    · simp only [nextChar, toNat_ofNat (show v / 262144 % 0x08 + 0xF0 < 256 by omega)]
      rw [if_neg (by omega), if_neg (by omega), if_neg (by omega), if_neg (by omega),
        if_pos (by omega), List.cons_append,
        takeTail_cons (by omega) (by split <;> omega) (by split <;> omega),
        List.cons_append, takeTail_cons (by omega) (by omega) (by omega),
        List.cons_append, takeTail_cons (by omega) (by omega) (by omega), takeTail]
      have hv4 : (((v / 262144 % 0x08 + 0xF0 - 0xF0) * 64 + (v / 4096 % 0x40 + 0x80 - 0x80)) * 64
          + (v / 64 % 0x40 + 0x80 - 0x80)) * 64 + (v % 0x40 + 0x80 - 0x80) = v := by omega
      rw [hv4, hofNat]
      rfl

theorem decodeFrom_length_append (xs rest : List UInt8) :
    decodeFrom xs.length (xs ++ rest) = decodeFrom 0 rest := by
  induction xs with
  | nil => rfl
  | cons x xs ih => exact ih

/-- Decoding gives the encoded characters back, in front of what follows. -/
theorem decodeLossy_encode_append (cs : List Char) (rest : List UInt8) :
    decodeLossy (encode cs ++ rest) = cs ++ decodeLossy rest := by
  induction cs with
  | nil => rfl
  | cons c cs ih =>
    obtain ⟨b, tail, henc, -, -, hnext⟩ := nextChar_encode c (encode cs ++ rest)
    rw [encode_cons, henc, List.cons_append, List.cons_append, List.append_assoc, decodeLossy,
      decodeFrom, hnext, decodeFrom_length_append]
    exact congrArg (c :: ·) ih

theorem decodeLossy_encode (cs : List Char) : decodeLossy (encode cs) = cs := by
  simpa [decodeLossy, decodeFrom] using decodeLossy_encode_append cs []

/-! ## Cutting an encoded text -/

/-- A byte below 128 is a character. -/
theorem mem_of_mem_encode {cs : List Char} {b : UInt8} (h : b ∈ encode cs) (hb : b.toNat ≤ 0x7F) :
    Char.ofNat b.toNat ∈ cs := by
  obtain ⟨c, hc, hbyte⟩ := List.mem_flatMap.mp h
  obtain ⟨first, tail, heq, -, htail, hnext⟩ := nextChar_encode c []
  rw [heq] at hbyte
  rcases List.mem_cons.mp hbyte with rfl | hmem
  · rw [nextChar, if_pos hb, Prod.mk.injEq] at hnext
    exact hnext.1 ▸ hc
  · have hcontinues := htail b hmem
    rw [isContinuation, Bool.and_eq_true, decide_eq_true_iff] at hcontinues
    omega

/-- A piece that starts inside of a character. -/
def startsInside (bytes : List UInt8) : Bool := bytes.head?.any isContinuation

/-- An encoded text that is cut in front of a character is cut into encoded texts. -/
theorem exists_encode_of_append {cs : List Char} {p q : List UInt8} (h : encode cs = p ++ q)
    (hq : startsInside q = false) : ∃ ps qs, cs = ps ++ qs ∧ p = encode ps ∧ q = encode qs := by
  induction cs generalizing p with
  | nil =>
    obtain ⟨rfl, rfl⟩ := List.append_eq_nil_iff.mp h.symm
    exact ⟨[], [], rfl, rfl, rfl⟩
  | cons c cs ih =>
    obtain ⟨b, tail, henc, -, htail, -⟩ := nextChar_encode c []
    rw [encode_cons] at h
    rcases List.append_eq_append_iff.mp h with ⟨p', rfl, hp'⟩ | ⟨q', hc, hq'⟩
    · obtain ⟨ps, qs, rfl, hps, hqs⟩ := ih hp'
      exact ⟨c :: ps, qs, rfl, by rw [hps, encode_cons], hqs⟩
    · cases p with
      | nil => exact ⟨[], c :: cs, rfl, rfl, by rw [hq', encode_cons, hc]; rfl⟩
      | cons b' p =>
        cases q' with
        | nil =>
          refine ⟨[c], cs, rfl, ?_, by rw [hq']; rfl⟩
          rw [encode_cons, hc]
          simp
        | cons x q' =>
          -- the cut is behind the first byte of `c`, in front of a byte of its tail
          rw [henc, List.cons_append, List.cons.injEq] at hc
          have hx : isContinuation x = true := htail x (by rw [hc.2]; simp)
          rw [hq', List.cons_append, startsInside, List.head?_cons, Option.any_some, hx] at hq
          cases hq

/-- An encoded text is cut at a byte that is a character of its own. -/
theorem exists_encode_of_append_cons {cs : List Char} {p q : List UInt8} {b : UInt8} (h : encode cs = p ++ b :: q)
    (hb : b.toNat ≤ 0x7F) : ∃ ps qs, cs = ps ++ Char.ofNat b.toNat :: qs ∧ p = encode ps ∧ q = encode qs := by
  have hstart : startsInside (b :: q) = false := by
    rw [startsInside, List.head?_cons, Option.any_some, isContinuation]
    have hlow : ¬ 0x80 ≤ b.toNat := by omega
    rw [decide_eq_false hlow, Bool.false_and]
  obtain ⟨ps, qs, rfl, hp, hq⟩ := exists_encode_of_append h hstart
  cases qs with
  | nil => cases hq
  | cons c qs =>
    obtain ⟨first, tail, henc, -, -, hnext⟩ := nextChar_encode c []
    rw [encode_cons, henc, List.cons_append, List.cons.injEq] at hq
    obtain ⟨rfl, hq⟩ := hq
    have hchar : nextChar b (tail ++ []) = (Char.ofNat b.toNat, 0) := by
      unfold nextChar
      dsimp only
      rw [if_pos hb]
    obtain ⟨hc, htail⟩ := Prod.mk.inj (hnext.symm.trans hchar)
    rw [List.length_eq_zero_iff.mp htail, List.nil_append] at hq
    exact ⟨ps, qs, by rw [hc], hp, hq⟩

theorem startsInside_append {p q : List UInt8} (hp : startsInside p = false)
    (hq : startsInside q = false) : startsInside (p ++ q) = false := by
  cases p with
  | nil => exact hq
  | cons b p => exact hp

theorem startsInside_flatten {pieces : List (List UInt8)}
    (h : ∀ piece ∈ pieces, startsInside piece = false) :
    startsInside pieces.flatten = false := by
  induction pieces with
  | nil => rfl
  | cons piece pieces ih =>
    rw [List.forall_mem_cons] at h
    exact startsInside_append h.1 (ih h.2)

/-- Decoding the pieces of a text one by one gives the text, if no piece starts inside
of a character. -/
theorem flatMap_decodeLossy {cs : List Char} {pieces : List (List UInt8)}
    (hpieces : pieces.flatten = encode cs) (h : ∀ piece ∈ pieces, startsInside piece = false) :
    pieces.flatMap decodeLossy = cs := by
  induction pieces generalizing cs with
  | nil =>
    have hcs := congrArg decodeLossy hpieces
    rw [decodeLossy_encode] at hcs
    exact hcs
  | cons piece pieces ih =>
    rw [List.forall_mem_cons] at h
    obtain ⟨ps, qs, rfl, rfl, hqs⟩ := exists_encode_of_append hpieces.symm (startsInside_flatten h.2)
    rw [List.flatMap_cons, decodeLossy_encode, ih hqs h.2]

/-! ## Counting characters -/

/-- The number of bytes that do not continue a character. -/
def leads (bytes : List UInt8) : ℕ := bytes.countP fun b => !isContinuation b

theorem leads_append (p q : List UInt8) : leads (p ++ q) = leads p + leads q :=
  List.countP_append

theorem leads_cons_of_continuation {b : UInt8} (h : isContinuation b = true)
    (bytes : List UInt8) : leads (b :: bytes) = leads bytes := by
  rw [leads, List.countP_cons_of_neg (by simp [h])]
  rfl

/-- A character takes continuing bytes only. -/
theorem takeTail_taken {low high : ℕ} (hlow : 0x80 ≤ low) (hhigh : high ≤ 0xBF)
    (need acc taken : ℕ) (rest : List UInt8) :
    ∃ n, (takeTail need low high acc taken rest).2 = taken + n
      ∧ ∀ b ∈ rest.take n, isContinuation b = true := by
  induction rest generalizing need low high acc taken with
  | nil => cases need <;> exact ⟨0, rfl, by simp⟩
  | cons b rest ih =>
    cases need with
    | zero => exact ⟨0, rfl, by simp⟩
    | succ need =>
      rw [takeTail]
      split
      · rename_i hb
        obtain ⟨n, hn, hcont⟩ := ih (le_refl 0x80) (le_refl 0xBF) need
          (acc * 64 + (b.toNat - 0x80)) (taken + 1)
        refine ⟨n + 1, by omega, ?_⟩
        rw [List.take_succ_cons, List.forall_mem_cons]
        have hbcont : isContinuation b = true := by
          simp only [isContinuation, Bool.and_eq_true, decide_eq_true_eq]
          omega
        exact ⟨hbcont, hcont⟩
      · exact ⟨0, rfl, by simp⟩

theorem nextChar_taken (b : UInt8) (rest : List UInt8) :
    ∀ b' ∈ rest.take (nextChar b rest).2, isContinuation b' = true := by
  have htail : ∀ need low high acc, 0x80 ≤ low → high ≤ 0xBF →
      ∀ b' ∈ rest.take (takeTail need low high acc 0 rest).2, isContinuation b' = true := by
    intro need low high acc hlow hhigh
    obtain ⟨n, hn, hcont⟩ := takeTail_taken hlow hhigh need acc 0 rest
    rw [hn, Nat.zero_add]
    exact hcont
  unfold nextChar
  dsimp only
  split_ifs
  all_goals first | exact htail _ _ _ _ (by omega) (by omega) | simp

/-- Every byte that starts a character gives a character. -/
theorem leads_le_length_decodeFrom (bytes : List UInt8) (n : ℕ)
    (h : ∀ b ∈ bytes.take n, isContinuation b = true) :
    leads bytes ≤ (decodeFrom n bytes).length := by
  induction bytes generalizing n with
  | nil => exact Nat.zero_le _
  | cons b bytes ih =>
    cases n with
    | succ n =>
      rw [List.take_succ_cons, List.forall_mem_cons] at h
      rw [leads_cons_of_continuation h.1]
      exact ih n h.2
    | zero =>
      have hrest := ih _ (nextChar_taken b bytes)
      have hcons : leads (b :: bytes) ≤ leads bytes + 1 := by
        rw [leads, List.countP_cons]
        split <;> simp [leads]
      rw [decodeFrom, List.length_cons]
      omega

theorem leads_le_length_decodeLossy (bytes : List UInt8) :
    leads bytes ≤ (decodeLossy bytes).length :=
  leads_le_length_decodeFrom bytes 0 (by simp)

/-- A piece that starts inside of a character decodes to a character too many. -/
theorem leads_lt_length_decodeLossy {bytes : List UInt8} (h : startsInside bytes = true) :
    leads bytes < (decodeLossy bytes).length := by
  cases bytes with
  | nil => cases h
  | cons b bytes =>
    have hb : isContinuation b = true := h
    have hrest := leads_le_length_decodeFrom bytes _ (nextChar_taken b bytes)
    rw [leads_cons_of_continuation hb, decodeLossy, decodeFrom, List.length_cons]
    omega

theorem leads_encode (cs : List Char) : leads (encode cs) = cs.length := by
  induction cs with
  | nil => rfl
  | cons c cs ih =>
    obtain ⟨b, tail, henc, hb, htail, -⟩ := nextChar_encode c []
    have hzero : leads tail = 0 := by
      rw [leads, List.countP_eq_zero]
      intro b' hb'
      simp [htail b' hb']
    have hone : leads (b :: tail) = 1 := by
      rw [leads, List.countP_cons_of_pos (by simp [hb])]
      exact congrArg (· + 1) hzero
    rw [encode_cons, leads_append, henc, hone, ih, List.length_cons, Nat.add_comm]

/-- Decoding a text in pieces gives the text only if no piece starts inside of a
character. -/
theorem flatMap_decodeLossy_iff {cs : List Char} {pieces : List (List UInt8)}
    (hpieces : pieces.flatten = encode cs) :
    pieces.flatMap decodeLossy = cs ↔ ∀ piece ∈ pieces, startsInside piece = false := by
  refine ⟨fun heq piece hpiece => ?_, flatMap_decodeLossy hpieces⟩
  by_contra hinside
  rw [Bool.not_eq_false] at hinside
  have hle : ∀ l : List (List UInt8), leads l.flatten ≤ (l.flatMap decodeLossy).length := by
    intro l
    induction l with
    | nil => exact Nat.zero_le _
    | cons p l ih =>
      rw [List.flatten_cons, leads_append, List.flatMap_cons, List.length_append]
      exact Nat.add_le_add (leads_le_length_decodeLossy p) ih
  obtain ⟨front, back, rfl⟩ := List.append_of_mem hpiece
  have hfront := hle front
  have hback := hle back
  have hlt := leads_lt_length_decodeLossy hinside
  have hleads := leads_encode cs
  have hlength := congrArg List.length heq
  rw [← hpieces] at hleads
  simp only [List.flatten_append, List.flatten_cons, leads_append, List.flatMap_append,
    List.flatMap_cons, List.length_append] at hleads hlength
  omega

end Utf8
