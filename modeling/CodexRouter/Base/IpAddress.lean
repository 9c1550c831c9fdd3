/-
# IP addresses

Addresses in their text forms, as `std::net` reads them: four decimal numbers with dots, or groups of hexadecimal
digits with colons, of which one run of zeros may be left out and the last two may be written with dots.

* `parseIp_map_toLower` : the letter case of the digits does not count;
* `parseIp_eq_none` : an address starts with a digit or a colon.
-/
import CodexRouter.Base.LetterCase
import Mathlib.Data.Nat.Notation

/-- An address. -/
inductive IpAddr where
  | v4 (bits : BitVec 32)
  | v6 (bits : BitVec 128)
  deriving DecidableEq, Repr

namespace IpAddr

open Text (head?_map_toLower toLower_eq_iff toLower_eq_self toNat_toLower)

/-! ## Reading -/

/-- `char::to_digit`. -/
def digitValue (radix : ℕ) (c : Char) : Option ℕ :=
  let n := c.toNat
  (if 48 ≤ n ∧ n ≤ 57 then some (n - 48)
    else if 97 ≤ n ∧ n ≤ 122 then some (n - 87)
    else if 65 ≤ n ∧ n ≤ 90 then some (n - 55) else none).filter (· < radix)

/-- A number of at most some digits, below a limit. -/
def readNumber (radix maxDigits limit : ℕ) (allowZeroPrefix : Bool) (cs : List Char) : Option (ℕ × List Char) :=
  let digits := cs.takeWhile fun c => (digitValue radix c).isSome
  let value := digits.foldl (fun value c => value * radix + (digitValue radix c).getD 0) 0
  if digits = [] ∨ maxDigits < digits.length ∨ limit ≤ value then none
  else if !allowZeroPrefix && digits.head? = some '0' && 1 < digits.length then none
  else some (value, cs.drop digits.length)

/-- `read_given_char`. -/
def readGivenChar (expected : Char) : List Char → Option (List Char)
  | [] => none
  | c :: rest => if c = expected then some rest else none

/-- What comes behind a separator, which is needed but for the first part. -/
def readSeparator {α : Type} (separator : Char) (index : ℕ) (inner : List Char → Option α) (cs : List Char) : Option α :=
  if index = 0 then inner cs else (readGivenChar separator cs).bind inner

/-- Decimal numbers with dots, from an index on. -/
def readOctets : ℕ → ℕ → List Char → Option (List ℕ × List Char)
  | 0, _, cs => some ([], cs)
  | count + 1, index, cs =>
    (readSeparator '.' index (readNumber 10 3 256 false) cs).bind fun (octet, rest) =>
      (readOctets count (index + 1) rest).map fun (octets, rest) => (octet :: octets, rest)

/-- `read_ipv4_addr`: the four numbers. -/
def readIpv4 (cs : List Char) : Option (List ℕ × List Char) := readOctets 4 0 cs

/-- `read_groups`, with as many groups still to be read, from an index on: the groups, and whether the last two were
written with dots. -/
def readGroups : ℕ → ℕ → List Char → List ℕ × Bool × List Char
  | 0, _, cs => ([], false, cs)
  | left + 1, index, cs =>
    match if left = 0 then none else readSeparator ':' index readIpv4 cs with
    | some (octets, rest) =>
      ([octets.getD 0 0 * 256 + octets.getD 1 0, octets.getD 2 0 * 256 + octets.getD 3 0], true, rest)
    | none =>
      match readSeparator ':' index (readNumber 16 4 65536 true) cs with
      | some (group, rest) =>
        (group :: (readGroups left (index + 1) rest).1, (readGroups left (index + 1) rest).2)
      | none => ([], false, cs)

/-- `read_ipv6_addr`: the eight groups. -/
def readIpv6 (cs : List Char) : Option (List ℕ × List Char) :=
  match readGroups 8 0 cs with
  | (head, ipv4, rest) =>
    if head.length = 8 then some (head, rest)
    else if ipv4 then none
    else
      ((readGivenChar ':' rest).bind (readGivenChar ':')).map fun rest =>
        match readGroups (8 - (head.length + 1)) 0 rest with
        | (tail, _, rest) => (head ++ List.replicate (8 - head.length - tail.length) 0 ++ tail, rest)

/-- The number with some digits. -/
def ofDigits (base : ℕ) (digits : List ℕ) : ℕ := digits.foldl (fun value digit => value * base + digit) 0

/-- `str::parse::<IpAddr>`, of the characters of a text. -/
def parseIp (cs : List Char) : Option IpAddr :=
  match readIpv4 cs with
  | some (octets, rest) => if rest = [] then some (.v4 (BitVec.ofNat 32 (ofDigits 256 octets))) else none
  | none =>
    match readIpv6 cs with
    | some (groups, rest) => if rest = [] then some (.v6 (BitVec.ofNat 128 (ofDigits 65536 groups))) else none
    | none => none

/-- `is_loopback`. -/
def isLoopback : IpAddr → Bool
  | .v4 bits => bits >>> 24 = 127#32
  | .v6 bits => bits = 1#128

/-! ## Letter case -/

variable {radix maxDigits limit : ℕ} {allowZeroPrefix : Bool} {cs : List Char}

theorem digitValue_toLower (radix : ℕ) (c : Char) : digitValue radix c.toLower = digitValue radix c := by
  by_cases hupper : 65 ≤ c.toNat ∧ c.toNat ≤ 90
  · obtain ⟨hge, hle⟩ := hupper
    unfold digitValue
    dsimp only
    rw [toNat_toLower hge hle, if_neg (by omega), if_pos (by omega), if_neg (by omega), if_neg (by omega),
      if_pos (by omega)]
    congr 2
  · rw [toLower_eq_self hupper]

/-- What is read of a text in lower case, and what is left of it. -/
theorem readNumber_map (radix maxDigits limit : ℕ) (allowZeroPrefix : Bool) (cs : List Char) :
    readNumber radix maxDigits limit allowZeroPrefix (cs.map Char.toLower)
      = (readNumber radix maxDigits limit allowZeroPrefix cs).map fun (value, rest) => (value, rest.map Char.toLower) := by
  have hdigits : (cs.map Char.toLower).takeWhile (fun c => (digitValue radix c).isSome)
      = (cs.takeWhile fun c => (digitValue radix c).isSome).map Char.toLower := by
    rw [List.takeWhile_map]
    congr 2
    funext c
    rw [Function.comp_apply, digitValue_toLower]
  unfold readNumber
  dsimp only
  rw [hdigits]
  generalize cs.takeWhile (fun c => (digitValue radix c).isSome) = digits
  have hvalue : (digits.map Char.toLower).foldl (fun value c => value * radix + (digitValue radix c).getD 0) 0
      = digits.foldl (fun value c => value * radix + (digitValue radix c).getD 0) 0 := by
    rw [List.foldl_map]
    simp only [digitValue_toLower]
  simp only [hvalue, List.length_map, List.map_eq_nil_iff, head?_map_toLower (d := '0') (by decide), ← List.map_drop]
  split
  · rfl
  · split <;> rfl

theorem readGivenChar_map {expected : Char} (hexpected : expected.toNat < 65) (cs : List Char) :
    readGivenChar expected (cs.map Char.toLower) = (readGivenChar expected cs).map (List.map Char.toLower) := by
  cases cs with
  | nil => rfl
  | cons c rest =>
    rw [List.map_cons, readGivenChar, readGivenChar]
    simp only [toLower_eq_iff (Or.inl hexpected)]
    split <;> rfl

theorem readSeparator_map {α : Type} {inner : List Char → Option (α × List Char)} {separator : Char}
    (hinner : ∀ cs, inner (cs.map Char.toLower) = (inner cs).map fun (value, rest) => (value, rest.map Char.toLower))
    (hseparator : separator.toNat < 65) (index : ℕ) (cs : List Char) :
    readSeparator separator index inner (cs.map Char.toLower)
      = (readSeparator separator index inner cs).map fun (value, rest) => (value, rest.map Char.toLower) := by
  unfold readSeparator
  split
  · exact hinner cs
  · rw [readGivenChar_map hseparator]
    cases readGivenChar separator cs with
    | none => rfl
    | some rest => exact hinner rest

theorem readOctets_map (count index : ℕ) (cs : List Char) : readOctets count index (cs.map Char.toLower)
    = (readOctets count index cs).map fun (octets, rest) => (octets, rest.map Char.toLower) := by
  induction count generalizing index cs with
  | zero => rfl
  | succ count ih =>
    rw [readOctets, readOctets, readSeparator_map (readNumber_map _ _ _ _) (by decide)]
    cases readSeparator '.' index (readNumber 10 3 256 false) cs with
    | none => rfl
    | some first =>
      obtain ⟨octet, rest⟩ := first
      simp only [Option.map_some, Option.bind_some, ih]
      cases readOctets count (index + 1) rest <;> rfl

theorem readGroups_map (left index : ℕ) (cs : List Char) : readGroups left index (cs.map Char.toLower)
    = ((readGroups left index cs).1, (readGroups left index cs).2.1, (readGroups left index cs).2.2.map Char.toLower) := by
  induction left generalizing index cs with
  | zero => rfl
  | succ left ih =>
    have hdots : (if left = 0 then none else readSeparator ':' index readIpv4 (cs.map Char.toLower))
        = (if left = 0 then none else readSeparator ':' index readIpv4 cs).map
          fun (octets, rest) => (octets, rest.map Char.toLower) := by
      split
      · rfl
      · exact readSeparator_map (readOctets_map 4 0) (by decide) index cs
    rw [readGroups, readGroups, hdots, readSeparator_map (readNumber_map _ _ _ _) (by decide)]
    cases (if left = 0 then none else readSeparator ':' index readIpv4 cs) with
    | some found => rfl
    | none =>
      cases readSeparator ':' index (readNumber 16 4 65536 true) cs with
      | none => rfl
      | some found =>
        obtain ⟨group, rest⟩ := found
        simp only [Option.map_none, Option.map_some, ih]

theorem readIpv6_map (cs : List Char) : readIpv6 (cs.map Char.toLower)
    = (readIpv6 cs).map fun (groups, rest) => (groups, rest.map Char.toLower) := by
  unfold readIpv6
  rw [readGroups_map]
  obtain ⟨head, ipv4, rest⟩ := readGroups 8 0 cs
  dsimp only
  split
  · rfl
  · split
    · rfl
    · rw [readGivenChar_map (by decide)]
      cases readGivenChar ':' rest with
      | none => rfl
      | some rest =>
        rw [Option.map_some, Option.bind_some, Option.bind_some, readGivenChar_map (by decide)]
        cases readGivenChar ':' rest with
        | none => rfl
        | some rest =>
          simp only [Option.map_some, readGroups_map]

/-- The letter case of an address does not count. -/
theorem parseIp_map_toLower (cs : List Char) : parseIp (cs.map Char.toLower) = parseIp cs := by
  unfold parseIp
  rw [readIpv4, readIpv4, readOctets_map, readIpv6_map]
  cases readOctets 4 0 cs with
  | some found => simp only [Option.map_some, List.map_eq_nil_iff]
  | none =>
    cases readIpv6 cs with
    | some found => simp only [Option.map_some, Option.map_none, List.map_eq_nil_iff]
    | none => rfl

/-! ## Texts that are no addresses -/

/-- An address starts with a digit or a colon. -/
theorem parseIp_eq_none {c : Char} {rest : List Char} (hdigit : (digitValue 16 c).isSome = false) (hcolon : c ≠ ':') :
    parseIp (c :: rest) = none := by
  have hten : (digitValue 10 c).isSome = false := by
    unfold digitValue at hdigit ⊢
    rw [Option.isSome_filter] at hdigit ⊢
    cases hvalue : (if 48 ≤ c.toNat ∧ c.toNat ≤ 57 then some (c.toNat - 48)
      else if 97 ≤ c.toNat ∧ c.toNat ≤ 122 then some (c.toNat - 87)
      else if 65 ≤ c.toNat ∧ c.toNat ≤ 90 then some (c.toNat - 55) else none) with
    | none => rfl
    | some value =>
      rw [hvalue] at hdigit
      have hge : ¬ value < 16 := of_decide_eq_false hdigit
      exact decide_eq_false (by omega)
  have hnumber : ∀ {radix maxDigits limit allowZeroPrefix}, (digitValue radix c).isSome = false →
      readNumber radix maxDigits limit allowZeroPrefix (c :: rest) = none := by
    intro radix maxDigits limit allowZeroPrefix hno
    unfold readNumber
    rw [List.takeWhile_cons_of_neg (by rw [hno]; decide)]
    exact if_pos (.inl rfl)
  have hipv4 : readIpv4 (c :: rest) = none := by
    rw [readIpv4, readOctets, readSeparator, if_pos rfl, hnumber hten]
    rfl
  have hgroups : readGroups 8 0 (c :: rest) = ([], false, c :: rest) := by
    rw [readGroups, readSeparator, if_pos rfl, hipv4, readSeparator, if_pos rfl, hnumber hdigit]
    rfl
  have hipv6 : readIpv6 (c :: rest) = none := by
    unfold readIpv6
    rw [hgroups]
    dsimp only
    rw [if_neg (by decide), if_neg Bool.false_ne_true, readGivenChar, if_neg hcolon]
    rfl
  unfold parseIp
  rw [hipv4, hipv6]

end IpAddr
