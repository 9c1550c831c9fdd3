/-
# No-proxy lists

A no-proxy list names the targets that are reached without the proxy.  `merge_no_proxy` makes one list of several: it
cleans the entries, drops those that it takes for invalid and those that it has already.  `proxy_bypasses` reads a
list entry by entry.

The two do not agree on every entry.  Merging drops the local token in another letter case than `<local>`, and it makes
of a star in front of dots alone, which stands for every host, an entry that stands for none.

* `bypasses_merge` : what the merged list lets bypass the proxy, one of the lists lets bypass it;
* `mergesNoProxy_iff` : the converse, exactly when the entries lost are not the only ones for the target.
-/
import CodexRouter.Base.IpAddress
import CodexRouter.Base.KeyedTable

open Text

/-! ## The list -/

/-- `REQUIRED_NO_PROXY`. -/
def requiredNoProxy : List String := ["127.0.0.1", "localhost", "::1"]

/-- The characters between the entries of a list. -/
def isListBreak (c : Char) : Bool := c = ',' || c = ';' || isWhitespace c

/-- `rsplit_once`. -/
def rsplitOnce (c : Char) (s : String) : Option (String × String) :=
  (splitOnce c (String.ofList s.toList.reverse)).map fun (back, front) =>
    (String.ofList front.toList.reverse, String.ofList back.toList.reverse)

/-- `valid_no_proxy_entry`. -/
def validNoProxyEntry (value : String) : Bool :=
  let (host, bits) := match rsplitOnce '/' value with
    | none => (value, none)
    | some (host, bits) => (host, some bits)
  if host = "" || !host.toList.all (fun c => isAsciiAlphanumeric c || "._*:[]-".toList.contains c) then false
  else
    match bits with
    | none => true
    | some bits => bits ≠ "" && bits.length ≤ 3 && bits.toList.all isAsciiDigit

/-- An entry with the star in front of a dot left out. -/
def withoutStar (raw : String) : String :=
  if (stripPrefix (trim raw) "*.").isSome then String.ofList (raw.toList.drop 1) else trim raw

/-- The entry that is kept of a piece of a list. -/
def keptEntry (raw : String) : Option String :=
  if trim raw = "" then none
  else if withoutStar raw ≠ "<local>" && withoutStar raw ≠ "*" && !validNoProxyEntry (withoutStar raw) then none
  else some (withoutStar raw)

/-- `merge_no_proxy`. -/
def mergeNoProxy (values : List String) : String :=
  join "," (requiredNoProxy
    ++ collectNew toAsciiLowercase keptEntry requiredNoProxy (values.flatMap (split isListBreak)))

/-! ## The target -/

/-- The crates for addresses of the web and for regular expressions: `Url::parse` with the host and the port, or the
port that is known for the scheme; `regex::escape`; and whether an expression matches without regard to letter case. -/
structure NoProxyLibs where
  parseUrl : String → Option (Option String × Option ℕ)
  escape : String → String
  isMatch : String → String → Bool
  /-- A line feed is no character of a host. -/
  host_lineFeed : ∀ {uri host port}, parseUrl uri = some (some host, port) → '\n' ∉ host.toList
  escape_star : escape "*" = "\\*"
  /-- A dot stands for any character but a line feed. -/
  isMatch_all : ∀ {value : String}, '\n' ∉ value.toList → isMatch "^.*$" value = true

/-- `ip_in_cidr`. -/
def ipInCidr : IpAddr → IpAddr → ℕ → Bool
  | .v4 address, .v4 network, bits =>
    let mask := if bits = 0 then 0 else BitVec.allOnes 32 <<< (32 - bits)
    bits ≤ 32 && address &&& mask = network &&& mask
  | .v6 address, .v6 network, bits =>
    let mask := if bits = 0 then 0 else BitVec.allOnes 128 <<< (128 - bits)
    bits ≤ 128 && address &&& mask = network &&& mask
  | _, _, _ => false

/-- The number with some decimal digits. -/
def parseDigits (limit : ℕ) (digits : List Char) : Option ℕ :=
  let n := digits.foldl (fun n c => 10 * n + (c.toNat - '0'.toNat)) 0
  if digits ≠ [] && digits.all isAsciiDigit && n < limit then some n else none

/-- `str::parse` of an unsigned number below a limit. -/
def parseUnsigned (limit : ℕ) (s : String) : Option ℕ :=
  parseDigits limit (if s.toList.head? = some '+' then s.toList.drop 1 else s.toList)

def isBracket (c : Char) : Bool := c = '[' || c = ']'

/-- The host of a target, its address where it is one, and its port. -/
structure Target where
  host : String
  address : Option IpAddr
  port : Option ℕ

namespace Target

/-- The target of an address of the web. -/
def ofUri (libs : NoProxyLibs) (uri : String) : Option Target :=
  (libs.parseUrl uri).bind fun (host, port) =>
    host.map fun host =>
      let host := toAsciiLowercase (trimEndMatches (· = '.') (trimMatches isBracket host))
      ⟨host, IpAddr.parseIp host.toList, port⟩

/-- The machine itself. -/
def isLoopback (target : Target) : Bool :=
  target.host = "localhost" || target.address.any IpAddr.isLoopback

/-! ## One entry -/

/-- `wildcard_matches`. -/
def wildcardMatches (libs : NoProxyLibs) (pattern value : String) : Bool :=
  libs.isMatch ("^" ++ replace (libs.escape pattern) "\\*" ".*" ++ "$") value

/-- An entry without its brackets or its port; none if the port is not that of the target. -/
def withoutPort (port : Option ℕ) (candidate : String) : Option String :=
  if candidate.toList.head? = some '[' then
    some ((splitOnce ']' candidate).elim candidate fun (front, _) => String.ofList (front.toList.drop 1))
  else if candidate.toList.count ':' = 1 then
    let (name, text) := (splitOnce ':' candidate).getD ("", "")
    match parseUnsigned 65536 text with
    | none => some candidate
    | some number => if port ≠ some number then none else some name
  else some candidate

/-- An entry in small letters, without dots at the end and without a star in front of a dot. -/
def hostPattern (candidate : String) : String :=
  let candidate := toAsciiLowercase (trimEndMatches (· = '.') candidate)
  ((stripPrefix candidate "*.").map ("." ++ ·)).getD candidate

/-- Whether a pattern stands for the host. -/
def matchesPattern (libs : NoProxyLibs) (host pattern : String) : Bool :=
  match stripPrefix pattern "." with
  | some suffix => host = suffix || endsWith host pattern
  | none =>
    if contains pattern "*" then wildcardMatches libs pattern host
    else host = trimMatches isBracket pattern

/-- Whether an entry, which is a piece of a list without white space around it, stands for the target. -/
def bypassedBy (libs : NoProxyLibs) (target : Target) (candidate : String) : Bool :=
  if candidate = "" then false
  else if candidate = "*" then true
  else if eqIgnoreAsciiCase candidate "<local>" then target.address = none && !contains target.host "."
  else
    match rsplitOnce '/' candidate with
    | some (network, bits) =>
      match target.address, IpAddr.parseIp (trimMatches isBracket network).toList, parseUnsigned 256 bits with
      | some address, some network, some bits => ipInCidr address network bits
      | _, _, _ => false
    | none =>
      (withoutPort target.port candidate).any fun candidate =>
        matchesPattern libs target.host (hostPattern candidate)

end Target

/-- `proxy_bypasses`. -/
def proxyBypasses (libs : NoProxyLibs) (targetUri noProxy : String) : Bool :=
  match Target.ofUri libs targetUri with
  | none => false
  | some target => target.isLoopback || (split isListBreak noProxy).any fun raw => target.bypassedBy libs (trim raw)

/-! ## What merging does to the relation -/

/-- The entries of some lists. -/
def entriesOf (values : List String) : List String :=
  ((values.flatMap (split isListBreak)).map trim).filter (· ≠ "")

/-- Some lists with entries that are allowed: a star, the local token in any letter case, and what is valid without a
star in front of a dot. -/
structure NoProxyLists where
  values : List String
  allowed : ∀ entry ∈ entriesOf values, entry = "*" ∨ eqIgnoreAsciiCase entry "<local>" = true
    ∨ validNoProxyEntry (withoutStar entry) = true

/-- Merging some lists keeps what they say about a target, and merging the result gives it again. -/
def MergesNoProxy (libs : NoProxyLibs) (targetUri : String) (values : List String) : Prop :=
  (proxyBypasses libs targetUri (mergeNoProxy values) = true ↔
    (∃ value ∈ values, proxyBypasses libs targetUri value = true)
      ∨ proxyBypasses libs targetUri (join "," requiredNoProxy) = true)
    ∧ mergeNoProxy [mergeNoProxy values] = mergeNoProxy values

namespace Target

/-- The local token in another letter case. -/
def IsOtherLocal (entry : String) : Prop := eqIgnoreAsciiCase entry "<local>" = true ∧ entry ≠ "<local>"

/-- A star in front of dots alone, which stands for every host. -/
def IsStarDots (port : Option ℕ) (entry : String) : Prop :=
  (stripPrefix entry "*.").isSome ∧ (withoutPort port entry).map (trimEndMatches (· = '.')) = some "*"

/-- An entry that stands for a target in another way than the one that is kept of it. -/
def Loses (target : Target) (entry : String) : Prop :=
  IsOtherLocal entry ∨ (IsStarDots target.port entry ∧ target.host ≠ "")

end Target

/-- Where an entry is lost that stands for the target, another one stands for it. -/
def KeepsBypass (libs : NoProxyLibs) (targetUri : String) (values : List String) : Prop :=
  ∀ target, Target.ofUri libs targetUri = some target → target.isLoopback = false →
    (∃ entry ∈ entriesOf values, target.Loses entry ∧ target.bypassedBy libs entry = true) →
    ∃ entry ∈ requiredNoProxy ++ entriesOf values, ¬ target.Loses entry ∧ target.bypassedBy libs entry = true

/-! ## Pieces of a list -/

theorem trim_eq_self_of_forall {s : String} (h : ∀ c ∈ s.toList, isWhitespace c = false) : trim s = s := by
  have hkeep : ∀ cs : List Char, (∀ c ∈ cs, isWhitespace c = false) → cs.dropWhile isWhitespace = cs := by
    intro cs hcs
    cases cs with
    | nil => rfl
    | cons c rest => exact List.dropWhile_cons_of_neg (by rw [hcs c List.mem_cons_self]; decide)
  rw [trim, trimMatches, hkeep _ h, hkeep _ fun c hc => h c (List.mem_reverse.mp hc), List.reverse_reverse,
    String.ofList_toList]

/-- A text without breaks. -/
def IsPiece (raw : String) : Prop := ∀ c ∈ raw.toList, isListBreak c = false

theorem isPiece_of_mem_split {raw value : String} (h : raw ∈ split isListBreak value) : IsPiece raw := by
  obtain ⟨piece, hpiece, rfl⟩ := List.mem_map.mp h
  intro c hc
  rw [String.toList_ofList] at hc
  exact of_mem_splitChars hpiece hc

theorem IsPiece.trim_eq {raw : String} (h : IsPiece raw) : trim raw = raw := by
  apply trim_eq_self_of_forall
  intro c hc
  have hno := h c hc
  rw [isListBreak, Bool.or_eq_false_iff] at hno
  exact hno.2

theorem mem_entriesOf {values : List String} {entry : String} :
    entry ∈ entriesOf values ↔ entry ≠ "" ∧ ∃ value ∈ values, entry ∈ split isListBreak value := by
  rw [entriesOf, List.mem_filter, List.mem_map, decide_eq_true_iff]
  constructor
  · rintro ⟨⟨raw, hraw, rfl⟩, hne⟩
    obtain ⟨value, hvalue, hsplit⟩ := List.mem_flatMap.mp hraw
    rw [(isPiece_of_mem_split hsplit).trim_eq] at hne ⊢
    exact ⟨hne, value, hvalue, hsplit⟩
  · rintro ⟨hne, value, hvalue, hsplit⟩
    exact ⟨⟨entry, List.mem_flatMap.mpr ⟨value, hvalue, hsplit⟩, (isPiece_of_mem_split hsplit).trim_eq⟩, hne⟩

/-- The pieces of a list that was joined. -/
theorem split_join {l : List String} (hne : l ≠ []) (hl : ∀ entry ∈ l, IsPiece entry) :
    split isListBreak (join "," l) = l := by
  induction l with
  | nil => exact absurd rfl hne
  | cons entry rest ih =>
    cases rest with
    | nil =>
      rw [join, split, splitChars_eq_self (hl entry List.mem_cons_self), List.map_singleton, String.ofList_toList]
    | cons next rest =>
      have hlist : (entry ++ "," ++ join "," (next :: rest)).toList
          = entry.toList ++ ',' :: (join "," (next :: rest)).toList := by
        rw [String.toList_append, String.toList_append, List.append_assoc]
        rfl
      have hrest := ih (List.cons_ne_nil _ _) fun e he => hl e (List.mem_cons_of_mem _ he)
      rw [split] at hrest
      rw [join, split, hlist, splitChars_append_cons rfl (hl entry List.mem_cons_self), List.map_cons,
        String.ofList_toList, hrest]

/-! ## The entries that are kept -/

theorem isPiece_withoutStar {raw : String} (h : IsPiece raw) : IsPiece (withoutStar raw) := by
  rw [withoutStar, h.trim_eq]
  split
  · intro c hc
    rw [String.toList_ofList] at hc
    exact h c (List.mem_of_mem_drop hc)
  · exact h

/-- An entry has a star in front of a dot, which is left out, or stays what it is. -/
theorem withoutStar_cases {entry : String} (h : IsPiece entry) :
    ((stripPrefix entry "*.").isSome = true
        ∧ ∃ cs, entry.toList = '*' :: '.' :: cs ∧ (withoutStar entry).toList = '.' :: cs)
      ∨ ((stripPrefix entry "*.").isSome = false ∧ withoutStar entry = entry) := by
  cases hstar : (stripPrefix entry "*.").isSome with
  | true =>
    left
    have hstarts : "*.".toList <+: entry.toList := by
      rw [stripPrefix] at hstar
      split at hstar
      · rename_i hstarts
        exact List.isPrefixOf_iff_prefix.mp hstarts
      · cases hstar
    obtain ⟨cs, hcs⟩ := hstarts
    refine ⟨rfl, cs, hcs.symm, ?_⟩
    rw [withoutStar, h.trim_eq, if_pos hstar, String.toList_ofList, ← hcs]
    rfl
  | false =>
    right
    refine ⟨rfl, ?_⟩
    rw [withoutStar, h.trim_eq, if_neg (by rw [hstar]; decide)]

theorem keptEntry_eq_some {raw entry : String} (h : keptEntry raw = some entry) : entry = withoutStar raw := by
  unfold keptEntry at h
  split at h
  · cases h
  · split at h
    · cases h
    · exact (Option.some.inj h).symm

/-! ## The letter case of an entry -/

namespace Target

variable {libs : NoProxyLibs} {target : Target}

theorem ignoresCase_isBracket : IgnoresCase isBracket := by
  intro c
  unfold isBracket
  simp only [toLower_eq_iff (show '['.toNat < 65 ∨ _ from .inr (.inl (by decide))),
    toLower_eq_iff (show ']'.toNat < 65 ∨ _ from .inr (.inl (by decide)))]

theorem rsplitOnce_toAsciiLowercase (s : String) : rsplitOnce '/' (toAsciiLowercase s)
    = (rsplitOnce '/' s).map fun (front, back) => (toAsciiLowercase front, toAsciiLowercase back) := by
  have hreverse : ∀ s, String.ofList (toAsciiLowercase s).toList.reverse
      = toAsciiLowercase (String.ofList s.toList.reverse) := by
    intro s
    rw [toList_toAsciiLowercase, ← List.map_reverse, toAsciiLowercase_ofList]
  rw [rsplitOnce, rsplitOnce, hreverse, splitOnce_toAsciiLowercase (by decide)]
  cases splitOnce '/' (String.ofList s.toList.reverse) with
  | none => rfl
  | some parts => simp only [Option.map_some, hreverse]

/-- A digit has no letter case. -/
theorem isAsciiDigit_toLower (c : Char) : isAsciiDigit c.toLower = isAsciiDigit c := by
  by_cases hupper : 65 ≤ c.toNat ∧ c.toNat ≤ 90
  · have hno : ∀ d : Char, 57 < d.toNat → isAsciiDigit d = false := by
      intro d hd
      rw [isAsciiDigit, Bool.and_eq_false_iff]
      exact .inr (decide_eq_false fun hle => absurd (show d.toNat ≤ 57 from hle) (by omega))
    rw [hno c (by omega), hno c.toLower (by rw [toNat_toLower hupper.1 hupper.2]; omega)]
  · rw [toLower_eq_self hupper]

theorem parseDigits_map (limit : ℕ) (digits : List Char) :
    parseDigits limit (digits.map Char.toLower) = parseDigits limit digits := by
  have hall : (digits.map Char.toLower).all isAsciiDigit = digits.all isAsciiDigit := by
    rw [List.all_map]
    exact congrArg (fun p => digits.all p) (funext isAsciiDigit_toLower)
  by_cases hdigits : digits.all isAsciiDigit = true
  · -- digits are no capital letters
    have hsame : digits.map Char.toLower = digits := by
      refine (List.map_congr_left fun c hc => ?_).trans (List.map_id digits)
      have hle : c.toNat ≤ 57 := by
        have hdigit := List.all_eq_true.mp hdigits c hc
        rw [isAsciiDigit, Bool.and_eq_true, decide_eq_true_iff, decide_eq_true_iff] at hdigit
        exact hdigit.2
      exact toLower_eq_self (by omega)
    rw [hsame]
  · rw [Bool.not_eq_true] at hdigits
    unfold parseDigits
    rw [hall, hdigits, Bool.and_false, Bool.and_false]
    rfl

theorem parseUnsigned_toAsciiLowercase (limit : ℕ) (s : String) :
    parseUnsigned limit (toAsciiLowercase s) = parseUnsigned limit s := by
  rw [parseUnsigned, parseUnsigned, toList_toAsciiLowercase]
  simp only [head?_map_toLower (d := '+') (by decide), ← List.map_drop]
  split <;> exact parseDigits_map _ _

theorem withoutPort_toAsciiLowercase (port : Option ℕ) (s : String) :
    withoutPort port (toAsciiLowercase s) = (withoutPort port s).map toAsciiLowercase := by
  have hcolons : (s.toList.map Char.toLower).count ':' = s.toList.count ':' := by
    rw [List.count, List.countP_map]
    exact congrArg (List.countP · s.toList) (funext fun c => decide_eq_decide.mpr (toLower_eq_iff (by decide)))
  unfold withoutPort
  rw [toList_toAsciiLowercase, hcolons, splitOnce_toAsciiLowercase (by decide), splitOnce_toAsciiLowercase (by decide)]
  simp only [head?_map_toLower (d := '[') (by decide)]
  split
  · cases splitOnce ']' s with
    | none => rfl
    | some parts =>
      simp only [Option.map_some, Option.elim_some, toList_toAsciiLowercase, ← List.map_drop, toAsciiLowercase_ofList]
  · split
    · cases splitOnce ':' s with
      | none => rfl
      | some parts =>
        obtain ⟨name, text⟩ := parts
        simp only [Option.map_some, Option.getD_some, parseUnsigned_toAsciiLowercase]
        cases parseUnsigned 65536 text with
        | none => rfl
        | some number =>
          show _ = Option.map toAsciiLowercase (if port ≠ some number then none else some name)
          rw [apply_ite (Option.map toAsciiLowercase)]
          rfl
    · rfl

theorem hostPattern_toAsciiLowercase (s : String) : hostPattern (toAsciiLowercase s) = hostPattern s := by
  unfold hostPattern
  rw [trimEndMatches_toAsciiLowercase (ignoresCase_eq (by decide)), toAsciiLowercase_toAsciiLowercase]

/-- The letter case of an entry does not count. -/
theorem bypassedBy_toAsciiLowercase (candidate : String) :
    target.bypassedBy libs (toAsciiLowercase candidate) = target.bypassedBy libs candidate := by
  have hstar : toAsciiLowercase candidate = "*" ↔ candidate = "*" := by
    rw [← String.toList_inj, toList_toAsciiLowercase, ← String.toList_inj]
    match candidate.toList with
    | [] => exact Iff.rfl
    | [c] =>
      show [c.toLower] = ['*'] ↔ [c] = ['*']
      rw [List.singleton_inj, List.singleton_inj, toLower_eq_iff (by decide)]
    | c :: d :: rest =>
      constructor
      · exact fun h => absurd (congrArg List.length h) (by simp)
      · exact fun h => absurd (congrArg List.length h) (by simp)
  have hlocal : eqIgnoreAsciiCase (toAsciiLowercase candidate) "<local>" = eqIgnoreAsciiCase candidate "<local>" := by
    rw [eqIgnoreAsciiCase, toAsciiLowercase_toAsciiLowercase, eqIgnoreAsciiCase]
  unfold bypassedBy
  simp only [toAsciiLowercase_eq_empty, hstar, hlocal, rsplitOnce_toAsciiLowercase, withoutPort_toAsciiLowercase]
  cases rsplitOnce '/' candidate with
  | some parts =>
    simp only [Option.map_some, trimMatches_toAsciiLowercase ignoresCase_isBracket, toList_toAsciiLowercase,
      IpAddr.parseIp_map_toLower, parseUnsigned_toAsciiLowercase]
  | none =>
    simp only [Option.map_none, Option.any_map, hostPattern_toAsciiLowercase]

end Target

/-! ## A star in front of a dot -/

/-- What is left of a list without the elements of a class at its end. -/
theorem trimEnd_cons (p : Char → Bool) (c : Char) (cs : List Char) :
    (((c :: cs).reverse.dropWhile p).reverse)
      = if (cs.reverse.dropWhile p).reverse = [] ∧ p c = true then [] else c :: (cs.reverse.dropWhile p).reverse := by
  rw [List.reverse_cons, List.dropWhile_append]
  cases hrest : cs.reverse.dropWhile p with
  | nil =>
    rw [List.isEmpty_nil, if_pos rfl, List.reverse_nil]
    cases hc : p c with
    | true => rw [List.dropWhile_cons_of_pos hc, if_pos ⟨rfl, rfl⟩]; rfl
    | false => rw [List.dropWhile_cons_of_neg (by rw [hc]; decide), if_neg (by simp)]; rfl
  | cons d rest =>
    rw [List.isEmpty_cons, if_neg Bool.false_ne_true, if_neg (by simp), List.reverse_append, List.reverse_singleton,
      List.singleton_append]

theorem splitOnce_of_toList {c : Char} {s : String} {front back : List Char} (hs : s.toList = front ++ c :: back)
    (hfront : c ∉ front) : splitOnce c s = some (String.ofList front, String.ofList back) := by
  have hne : ∀ d ∈ front, decide (d ≠ c) = true := by
    intro d hd
    exact decide_eq_true fun heq => hfront (heq ▸ hd)
  have hmem : c ∈ s.toList := by
    rw [hs]
    exact List.mem_append_right _ List.mem_cons_self
  rw [splitOnce, if_pos hmem, hs, List.takeWhile_append_of_pos hne, List.dropWhile_append_of_pos hne,
    List.takeWhile_cons_of_neg (by simp), List.dropWhile_cons_of_neg (by simp), List.append_nil]
  rfl

theorem rsplitOnce_eq_none {c : Char} {s : String} : rsplitOnce c s = none ↔ c ∉ s.toList := by
  rw [rsplitOnce, Option.map_eq_none_iff, splitOnce, String.toList_ofList]
  simp only [List.mem_reverse]
  split
  · rename_i hmem
    exact iff_of_false (Option.some_ne_none _) (not_not_intro hmem)
  · rename_i hmem
    exact iff_of_true rfl hmem

theorem rsplitOnce_eq_some {c : Char} {s front back : String} (h : rsplitOnce c s = some (front, back)) :
    s.toList = front.toList ++ c :: back.toList := by
  have hmem : c ∈ s.toList := by
    by_contra hno
    rw [rsplitOnce_eq_none.mpr hno] at h
    cases h
  obtain ⟨as, bs, hsplit, has⟩ := List.eq_append_cons_of_mem (List.mem_reverse.mpr hmem)
  rw [rsplitOnce, splitOnce_of_toList (by rw [String.toList_ofList, hsplit]) has, Option.map_some, Option.some.injEq,
    Prod.mk.injEq] at h
  obtain ⟨rfl, rfl⟩ := h
  simp only [String.toList_ofList]
  rw [← List.reverse_reverse s.toList, hsplit, List.reverse_append, List.reverse_cons, List.append_assoc]
  rfl

/-- What is trimmed starts as before, if the first character is kept. -/
theorem toList_trimMatches_cons {p : Char → Bool} {s : String} {c : Char} {cs : List Char} (hs : s.toList = c :: cs)
    (hc : p c = false) : ∃ rest, (trimMatches p s).toList = c :: rest := by
  rw [trimMatches, String.toList_ofList, hs, List.dropWhile_cons_of_neg (by rw [hc]; decide), trimEnd_cons,
    if_neg (by simp [hc])]
  exact ⟨_, rfl⟩

namespace Target

section

variable {libs : NoProxyLibs} {target : Target} {entry rest : String}

/-- An entry that starts with a star or a dot and is not a star alone has a pattern for the host. -/
theorem bypassedBy_eq {c : Char} {cs : List Char} (hentry : entry.toList = c :: cs) (hc : c = '*' ∨ c = '.')
    (hne : entry ≠ "*") : target.bypassedBy libs entry = (!decide ('/' ∈ entry.toList)
      && (withoutPort target.port entry).any fun candidate => matchesPattern libs target.host (hostPattern candidate)) := by
  have hempty : entry ≠ "" := by
    rintro rfl
    cases hentry
  have hlocal : eqIgnoreAsciiCase entry "<local>" = false := by
    apply beq_false_of_ne
    intro heq
    have hlist := congrArg String.toList heq
    rw [toList_toAsciiLowercase, hentry, List.map_cons] at hlist
    have hhead : c.toLower = '<' := (List.cons.inj hlist).1
    rcases hc with rfl | rfl
    · exact absurd hhead (by decide)
    · exact absurd hhead (by decide)
  unfold bypassedBy
  rw [if_neg hempty, if_neg hne, hlocal, if_neg Bool.false_ne_true]
  cases hslash : rsplitOnce '/' entry with
  | none => rw [decide_eq_false (rsplitOnce_eq_none.mp hslash)]; rfl
  | some parts =>
    obtain ⟨network, bits⟩ := parts
    have hlist := rsplitOnce_eq_some hslash
    have hparse : IpAddr.parseIp (trimMatches isBracket network).toList = none := by
      -- the network starts with the star or the dot
      cases hnetwork : network.toList with
      | nil =>
        rw [hnetwork, hentry] at hlist
        have hhead : c = '/' := (List.cons.inj hlist).1
        rcases hc with rfl | rfl
        · exact absurd hhead (by decide)
        · exact absurd hhead (by decide)
      | cons d ds =>
        rw [hnetwork, hentry] at hlist
        have hhead : c = d := (List.cons.inj hlist).1
        subst hhead
        obtain ⟨rest, htrim⟩ := toList_trimMatches_cons (p := isBracket) hnetwork (by rcases hc with rfl | rfl <;> rfl)
        rw [htrim]
        rcases hc with rfl | rfl
        · exact IpAddr.parseIp_eq_none (by decide) (by decide)
        · exact IpAddr.parseIp_eq_none (by decide) (by decide)
    have hmem : '/' ∈ entry.toList := by
      rw [hlist]
      exact List.mem_append_right _ List.mem_cons_self
    rw [decide_eq_true hmem]
    dsimp only
    rw [hparse]
    cases target.address <;> rfl

/-- The star is no part of the port. -/
theorem withoutPort_star {cs : List Char} (hentry : entry.toList = '*' :: rest.toList) (hrest : rest.toList = '.' :: cs)
    (port : Option ℕ) :
    withoutPort port entry = (withoutPort port rest).map (fun name => String.ofList ('*' :: name.toList))
      ∧ ∀ name, withoutPort port rest = some name → ∃ cs, name.toList = '.' :: cs := by
  have hcolons : entry.toList.count ':' = rest.toList.count ':' := by
    rw [hentry, List.count_cons_of_ne (by decide)]
  have hentry' : entry = String.ofList ('*' :: rest.toList) := by rw [← hentry, String.ofList_toList]
  have hbracket : ¬ entry.toList.head? = some '[' := by simp [hentry]
  have hbracket' : ¬ rest.toList.head? = some '[' := by simp [hrest]
  unfold withoutPort
  rw [if_neg hbracket, if_neg hbracket', hcolons]
  split
  · rename_i hcount
    have hmem : ':' ∈ cs := by
      have hmem : ':' ∈ rest.toList := List.count_pos_iff.mp (by omega)
      rw [hrest] at hmem
      exact (List.mem_cons.mp hmem).resolve_left (by decide)
    obtain ⟨as, bs, hsplit, has⟩ := List.eq_append_cons_of_mem hmem
    have hrest' : splitOnce ':' rest = some (String.ofList ('.' :: as), String.ofList bs) := by
      refine splitOnce_of_toList (by rw [hrest, hsplit, List.cons_append]) ?_
      exact List.not_mem_cons_of_ne_of_not_mem (by decide) has
    have hentry'' : splitOnce ':' entry = some (String.ofList ('*' :: '.' :: as), String.ofList bs) := by
      refine splitOnce_of_toList (by rw [hentry, hrest, hsplit, List.cons_append, List.cons_append]) ?_
      exact List.not_mem_cons_of_ne_of_not_mem (by decide) (List.not_mem_cons_of_ne_of_not_mem (by decide) has)
    rw [hrest', hentry'', Option.getD_some, Option.getD_some]
    dsimp only
    cases parseUnsigned 65536 (String.ofList bs) with
    | none => exact ⟨congrArg some hentry', fun name hname => ⟨cs, by rw [← Option.some.inj hname, hrest]⟩⟩
    | some number =>
      dsimp only
      split
      · exact ⟨rfl, fun name hname => nomatch hname⟩
      · refine ⟨by rw [Option.map_some, String.toList_ofList], fun name hname => ⟨as, ?_⟩⟩
        rw [← Option.some.inj hname, String.toList_ofList]
  · exact ⟨congrArg some hentry', fun name hname => ⟨cs, by rw [← Option.some.inj hname, hrest]⟩⟩

/-- The pattern of an entry with a star in front of a dot is that of the entry without the star, but for dots alone. -/
theorem hostPattern_star {cs : List Char} (hentry : entry.toList = '*' :: rest.toList) (hrest : rest.toList = '.' :: cs) :
    (trimEndMatches (· = '.') entry = "*" ∧ hostPattern entry = "*" ∧ hostPattern rest = "")
      ∨ (trimEndMatches (· = '.') entry ≠ "*" ∧ hostPattern entry = hostPattern rest) := by
  have hstar : trimEndMatches (· = '.') entry = String.ofList ('*' :: (trimEndMatches (· = '.') rest).toList) := by
    rw [trimEndMatches, hentry, trimEnd_cons, if_neg (by simp), trimEndMatches, String.toList_ofList]
  unfold hostPattern
  rw [hstar]
  cases htrim : (trimEndMatches (· = '.') rest).toList with
  | nil =>
    left
    have hempty : trimEndMatches (· = '.') rest = "" := String.toList_injective htrim
    rw [hempty]
    exact ⟨rfl, by decide, by decide⟩
  | cons c front =>
    right
    have hdot : c = '.' := by
      rw [trimEndMatches, String.toList_ofList, hrest, trimEnd_cons] at htrim
      split at htrim
      · cases htrim
      · exact (List.cons.inj htrim).1.symm
    subst hdot
    have hrest' : trimEndMatches (· = '.') rest = String.ofList ('.' :: front) := by
      rw [← htrim, String.ofList_toList]
    have hfound : stripPrefix (String.ofList ('*' :: '.' :: front.map Char.toLower)) "*."
        = some (String.ofList (front.map Char.toLower)) := by
      rw [stripPrefix, startsWith]
      simp only [String.toList_ofList]
      rfl
    have hnone : stripPrefix (String.ofList ('.' :: front.map Char.toLower)) "*." = none := by
      rw [stripPrefix, startsWith]
      simp only [String.toList_ofList]
      rfl
    refine ⟨fun heq => ?_, ?_⟩
    · have hlist := congrArg String.toList heq
      rw [String.toList_ofList] at hlist
      exact absurd (congrArg List.length hlist) (by simp)
    · rw [hrest', toAsciiLowercase_ofList, toAsciiLowercase_ofList, List.map_cons, List.map_cons,
        show Char.toLower '*' = '*' from rfl, show Char.toLower '.' = '.' from rfl]
      dsimp only
      rw [hfound, hnone, Option.map_some, Option.getD_some, Option.map_none, Option.getD_none, ← String.toList_inj,
        String.toList_append, String.toList_ofList, String.toList_ofList, String.toList_ofList]
      rfl

theorem matchesPattern_star (hhost : '\n' ∉ target.host.toList) : matchesPattern libs target.host "*" = true := by
  have hexpression : "^" ++ replace (libs.escape "*") "\\*" ".*" ++ "$" = "^.*$" := by
    rw [libs.escape_star]
    decide
  have hno : stripPrefix "*" "." = none := by decide
  have hcontains : contains "*" "*" = true := by decide
  rw [matchesPattern, hno]
  dsimp only
  rw [if_pos hcontains, wildcardMatches, hexpression]
  exact libs.isMatch_all hhost

theorem matchesPattern_empty : matchesPattern libs target.host "" = decide (target.host = "") := rfl

/-- The entry that is kept stands for the same targets, but for a star in front of dots alone. -/
theorem bypassedBy_withoutStar (hhost : '\n' ∉ target.host.toList) (hpiece : IsPiece entry) :
    target.bypassedBy libs (withoutStar entry) = true
      ↔ target.bypassedBy libs entry = true ∧ ¬ (IsStarDots target.port entry ∧ target.host ≠ "") := by
  rcases withoutStar_cases hpiece with ⟨hstar, cs, hcs, hrest⟩ | ⟨hstar, hsame⟩
  · generalize withoutStar entry = rest at hrest
    have hentry : entry.toList = '*' :: rest.toList := by rw [hrest, hcs]
    have hslash : '/' ∈ entry.toList ↔ '/' ∈ rest.toList := by
      rw [hentry, List.mem_cons, or_iff_right (by decide)]
    have hne : entry ≠ "*" := by
      rintro rfl
      rw [hrest] at hentry
      exact absurd (congrArg List.length hentry) (by simp)
    have hne' : rest ≠ "*" := by
      rintro rfl
      exact absurd (List.cons.inj hrest).1 (by decide)
    rw [bypassedBy_eq hentry (.inl rfl) hne, bypassedBy_eq hrest (.inr rfl) hne']
    simp only [hslash]
    by_cases hmem : '/' ∈ rest.toList
    · simp [hmem]
    · obtain ⟨hport, hname⟩ := withoutPort_star hentry hrest target.port
      rw [IsStarDots, hport]
      cases hwithout : withoutPort target.port rest with
      | none => simp
      | some name =>
        obtain ⟨as, has⟩ := hname name hwithout
        have hstarred : (String.ofList ('*' :: name.toList)).toList = '*' :: name.toList := String.toList_ofList
        rw [Option.map_some]
        generalize String.ofList ('*' :: name.toList) = starred at hstarred
        rcases hostPattern_star hstarred has with ⟨htrim, hpattern, hpattern'⟩ | ⟨htrim, hpattern⟩
        · simp [hmem, hstar, htrim, hpattern, hpattern', matchesPattern_star hhost, matchesPattern_empty]
        · simp [hmem, htrim, hpattern]
  · rw [hsame]
    exact (and_iff_left fun h => Bool.false_ne_true (hstar.symm.trans h.1.1)).symm

end

end Target

/-! ## The merged list -/

/-- What is kept of the entries beside those that are always there. -/
def keptEntries (values : List String) : List String :=
  collectNew toAsciiLowercase keptEntry requiredNoProxy (values.flatMap (split isListBreak))

theorem exists_of_mem_keptEntries {values : List String} {entry : String} (h : entry ∈ keptEntries values) :
    ∃ raw ∈ entriesOf values, IsPiece raw ∧ keptEntry raw = some entry := by
  obtain ⟨raw, hraw, hkept⟩ := mem_collectNew h
  obtain ⟨value, hvalue, hsplit⟩ := List.mem_flatMap.mp hraw
  have hpiece := isPiece_of_mem_split hsplit
  refine ⟨raw, mem_entriesOf.mpr ⟨?_, value, hvalue, hsplit⟩, hpiece, hkept⟩
  rintro rfl
  have hnone : keptEntry "" = none := by decide
  rw [hnone] at hkept
  cases hkept

theorem isPiece_required {entry : String} (h : entry ∈ requiredNoProxy) : IsPiece entry := by
  intro c hc
  have hall : (requiredNoProxy.all fun entry => entry.toList.all fun c => !isListBreak c) = true := by decide
  have hpiece := List.all_eq_true.mp (List.all_eq_true.mp hall entry h) c hc
  rwa [Bool.not_eq_true'] at hpiece

theorem isPiece_merged {values : List String} {entry : String} (h : entry ∈ requiredNoProxy ++ keptEntries values) :
    IsPiece entry := by
  rcases List.mem_append.mp h with hrequired | hkept
  · exact isPiece_required hrequired
  · obtain ⟨raw, -, hpiece, hraw⟩ := exists_of_mem_keptEntries hkept
    rw [keptEntry_eq_some hraw]
    exact isPiece_withoutStar hpiece

theorem split_mergeNoProxy (values : List String) :
    split isListBreak (mergeNoProxy values) = requiredNoProxy ++ keptEntries values :=
  split_join (List.append_ne_nil_of_left_ne_nil (List.cons_ne_nil _ _) _) fun _ h => isPiece_merged h

/-- What was kept is kept again. -/
theorem keptEntry_keptEntry {raw entry : String} (hpiece : IsPiece raw) (h : keptEntry raw = some entry) :
    keptEntry entry = some entry := by
  have heq := keptEntry_eq_some h
  have hentry : IsPiece entry := heq ▸ isPiece_withoutStar hpiece
  have hfix : withoutStar entry = entry ∧ (trim raw ≠ "" → entry ≠ "") := by
    rcases withoutStar_cases hpiece with ⟨-, cs, -, hrest⟩ | ⟨hstar, hsame⟩
    · rw [← heq] at hrest
      constructor
      · rcases withoutStar_cases hentry with ⟨-, ds, hlist, -⟩ | ⟨-, hsame⟩
        · rw [hrest] at hlist
          exact absurd (List.cons.inj hlist).1 (by decide)
        · exact hsame
      · rintro - rfl
        cases hrest
    · rw [heq, hsame, hsame, hpiece.trim_eq]
      exact ⟨rfl, id⟩
  unfold keptEntry at h ⊢
  split at h
  · cases h
  · rename_i hne
    rw [hentry.trim_eq, if_neg (hfix.2 hne), hfix.1]
    rwa [← heq] at h

/-- Merging the result gives it again. -/
theorem mergeNoProxy_mergeNoProxy (values : List String) : mergeNoProxy [mergeNoProxy values] = mergeNoProxy values := by
  have hfix : ∀ entry ∈ keptEntries values, keptEntry entry = some entry := by
    intro entry hentry
    obtain ⟨raw, -, hpiece, hraw⟩ := exists_of_mem_keptEntries hentry
    exact keptEntry_keptEntry hpiece hraw
  have hrequired : ∀ entry ∈ requiredNoProxy, ∃ kept, keptEntry entry = some kept
      ∧ toAsciiLowercase kept ∈ requiredNoProxy := by
    intro entry hentry
    refine ⟨entry, ?_, ?_⟩
    · have hall : ∀ entry ∈ requiredNoProxy, keptEntry entry = some entry := by decide
      exact hall entry hentry
    · have hall : ∀ entry ∈ requiredNoProxy, toAsciiLowercase entry ∈ requiredNoProxy := by decide
      exact hall entry hentry
  rw [mergeNoProxy, List.flatMap_singleton, split_mergeNoProxy, collectNew_append hrequired,
    collectNew_eq_self hfix nodup_collectNew.1 nodup_collectNew.2]
  rfl

/-! ## The relation -/

section

variable {libs : NoProxyLibs} {target : Target} {values : List String}

theorem Target.not_loses_required {entry : String} (h : entry ∈ requiredNoProxy) : ¬ target.Loses entry := by
  have hlocal : ∀ entry ∈ requiredNoProxy, eqIgnoreAsciiCase entry "<local>" = false := by decide
  have hstar : ∀ entry ∈ requiredNoProxy, (stripPrefix entry "*.").isSome = false := by decide
  rintro (hother | hdots)
  · exact Bool.false_ne_true ((hlocal entry h).symm.trans hother.1)
  · exact Bool.false_ne_true ((hstar entry h).symm.trans hdots.1.1)

/-- The local token in another letter case is not kept. -/
theorem keptEntry_of_isOtherLocal {raw : String} (hpiece : IsPiece raw) (h : Target.IsOtherLocal raw) :
    keptEntry raw = none := by
  obtain ⟨hsame, hne⟩ := h
  have hlist : raw.toList.map Char.toLower = "<local>".toList := by
    rw [← toList_toAsciiLowercase]
    exact congrArg String.toList (beq_iff_eq.mp hsame)
  have hslash : '/' ∉ raw.toList := by
    rw [← mem_map_toLower (by decide), hlist]
    decide
  cases hraw : raw.toList with
  | nil =>
    rw [hraw] at hlist
    cases hlist
  | cons c cs =>
    have hc : c = '<' := by
      rw [hraw] at hlist
      exact (toLower_eq_iff (by decide)).mp (List.cons.inj hlist).1
    subst hc
    have hwithout : withoutStar raw = raw := by
      rcases withoutStar_cases hpiece with ⟨-, ds, hstar, -⟩ | ⟨-, hsame⟩
      · rw [hraw] at hstar
        exact absurd (List.cons.inj hstar).1 (by decide)
      · exact hsame
    have hstar : raw ≠ "*" := by
      rintro rfl
      exact absurd (List.cons.inj hraw).1 (by decide)
    have hvalid : validNoProxyEntry raw = false := by
      rw [validNoProxyEntry, rsplitOnce_eq_none.mpr hslash]
      dsimp only
      rw [hraw, List.all_cons, show (isAsciiAlphanumeric '<' || "._*:[]-".toList.contains '<') = false by decide,
        Bool.false_and, Bool.not_false, Bool.or_true, if_pos rfl]
    unfold keptEntry
    rw [hwithout, hvalid, decide_eq_true hne, decide_eq_true hstar]
    exact ite_self _

/-- An entry that is allowed is kept, but for the local token in another letter case. -/
theorem keptEntry_of_allowed {entry : String} (hpiece : IsPiece entry) (hne : entry ≠ "")
    (hallowed : entry = "*" ∨ eqIgnoreAsciiCase entry "<local>" = true ∨ validNoProxyEntry (withoutStar entry) = true)
    (hlocal : ¬ Target.IsOtherLocal entry) : keptEntry entry = some (withoutStar entry) := by
  rcases hallowed with rfl | hsame | hvalid
  · decide
  · have hentry : entry = "<local>" := by_contra fun h => hlocal ⟨hsame, h⟩
    rw [hentry]
    decide
  · rw [keptEntry, hpiece.trim_eq, if_neg hne, hvalid, Bool.not_true, Bool.and_false, if_neg Bool.false_ne_true]

/-- What stands for the target in the merged list is what stands for it in the lists and is not lost. -/
theorem exists_bypassedBy_iff (hhost : '\n' ∉ target.host.toList) (lists : NoProxyLists) :
    (∃ entry ∈ requiredNoProxy ++ keptEntries lists.values, target.bypassedBy libs entry = true)
      ↔ ∃ entry ∈ requiredNoProxy ++ entriesOf lists.values,
          ¬ target.Loses entry ∧ target.bypassedBy libs entry = true := by
  constructor
  · rintro ⟨entry, hentry, hbypass⟩
    rcases List.mem_append.mp hentry with hrequired | hkept
    · exact ⟨entry, List.mem_append_left _ hrequired, Target.not_loses_required hrequired, hbypass⟩
    · obtain ⟨raw, hraw, hpiece, hsome⟩ := exists_of_mem_keptEntries hkept
      rw [keptEntry_eq_some hsome, Target.bypassedBy_withoutStar hhost hpiece] at hbypass
      refine ⟨raw, List.mem_append_right _ hraw, ?_, hbypass.1⟩
      rintro (hother | hdots)
      · rw [keptEntry_of_isOtherLocal hpiece hother] at hsome
        cases hsome
      · exact hbypass.2 hdots
  · rintro ⟨entry, hentry, hloses, hbypass⟩
    rcases List.mem_append.mp hentry with hrequired | hentries
    · exact ⟨entry, List.mem_append_left _ hrequired, hbypass⟩
    · obtain ⟨hne, value, hvalue, hsplit⟩ := mem_entriesOf.mp hentries
      have hpiece := isPiece_of_mem_split hsplit
      have hkept := keptEntry_of_allowed hpiece hne (lists.allowed entry hentries) fun h => hloses (.inl h)
      have hbypass' : target.bypassedBy libs (toAsciiLowercase (withoutStar entry)) = true := by
        rw [Target.bypassedBy_toAsciiLowercase, Target.bypassedBy_withoutStar hhost hpiece]
        exact ⟨hbypass, fun h => hloses (.inr h)⟩
      -- the entry, or an earlier one that differs in the letter case only
      have hfound : toAsciiLowercase (withoutStar entry) ∈ requiredNoProxy ∨ ∃ other ∈ keptEntries lists.values,
          toAsciiLowercase other = toAsciiLowercase (withoutStar entry) :=
        exists_mem_collectNew (List.mem_flatMap.mpr ⟨value, hvalue, hsplit⟩) hkept
      rcases hfound with hmem | ⟨other, hother, hkey⟩
      · exact ⟨_, List.mem_append_left _ hmem, hbypass'⟩
      · refine ⟨other, List.mem_append_right _ hother, ?_⟩
        rw [← Target.bypassedBy_toAsciiLowercase, hkey]
        exact hbypass'

end

section

variable {libs : NoProxyLibs} {targetUri : String}

theorem Target.lineFeed_not_mem_host {target : Target} (h : Target.ofUri libs targetUri = some target) :
    '\n' ∉ target.host.toList := by
  obtain ⟨⟨host, port⟩, hparse, hmap⟩ := Option.bind_eq_some_iff.mp h
  obtain ⟨text, rfl, rfl⟩ := Option.map_eq_some_iff.mp hmap
  have htext := libs.host_lineFeed hparse
  show '\n' ∉ (toAsciiLowercase _).toList
  rw [toList_toAsciiLowercase, mem_map_toLower (by decide), trimEndMatches, String.toList_ofList, List.mem_reverse]
  intro hmem
  have hmem := List.mem_reverse.mp ((List.dropWhile_suffix _).subset hmem)
  rw [trimMatches, String.toList_ofList, List.mem_reverse] at hmem
  exact htext ((List.dropWhile_suffix _).subset (List.mem_reverse.mp ((List.dropWhile_suffix _).subset hmem)))

theorem proxyBypasses_of_none (h : Target.ofUri libs targetUri = none) (noProxy : String) :
    proxyBypasses libs targetUri noProxy = false := by
  rw [proxyBypasses, h]

theorem proxyBypasses_iff {target : Target} (h : Target.ofUri libs targetUri = some target) (noProxy : String) :
    proxyBypasses libs targetUri noProxy = true
      ↔ target.isLoopback = true ∨ ∃ entry ∈ split isListBreak noProxy, target.bypassedBy libs entry = true := by
  rw [proxyBypasses, h]
  dsimp only
  rw [Bool.or_eq_true, List.any_eq_true]
  refine or_congr_right (exists_congr fun raw => and_congr_right fun hraw => ?_)
  rw [(isPiece_of_mem_split hraw).trim_eq]

/-- What stands for a target in some lists. -/
theorem exists_proxyBypasses_iff {target : Target} (h : Target.ofUri libs targetUri = some target)
    (hloopback : target.isLoopback = false) (values : List String) :
    ((∃ value ∈ values, proxyBypasses libs targetUri value = true)
        ∨ proxyBypasses libs targetUri (join "," requiredNoProxy) = true)
      ↔ ∃ entry ∈ requiredNoProxy ++ entriesOf values, target.bypassedBy libs entry = true := by
  have hrequired : split isListBreak (join "," requiredNoProxy) = requiredNoProxy :=
    split_join (List.cons_ne_nil _ _) fun _ => isPiece_required
  simp only [proxyBypasses_iff h, hloopback, Bool.false_eq_true, false_or, hrequired]
  constructor
  · rintro (⟨value, hvalue, entry, hentry, hbypass⟩ | ⟨entry, hentry, hbypass⟩)
    · refine ⟨entry, List.mem_append_right _ (mem_entriesOf.mpr ⟨?_, value, hvalue, hentry⟩), hbypass⟩
      rintro rfl
      cases hbypass
    · exact ⟨entry, List.mem_append_left _ hentry, hbypass⟩
  · rintro ⟨entry, hentry, hbypass⟩
    rcases List.mem_append.mp hentry with hmem | hmem
    · exact .inr ⟨entry, hmem, hbypass⟩
    · obtain ⟨-, value, hvalue, hsplit⟩ := mem_entriesOf.mp hmem
      exact .inl ⟨value, hvalue, entry, hsplit, hbypass⟩

/-- What the merged list lets bypass the proxy, one of the lists lets bypass it. -/
theorem bypasses_merge (lists : NoProxyLists)
    (h : proxyBypasses libs targetUri (mergeNoProxy lists.values) = true) :
    (∃ value ∈ lists.values, proxyBypasses libs targetUri value = true)
      ∨ proxyBypasses libs targetUri (join "," requiredNoProxy) = true := by
  cases htarget : Target.ofUri libs targetUri with
  | none =>
    rw [proxyBypasses_of_none htarget] at h
    cases h
  | some target =>
    cases hloopback : target.isLoopback with
    | true => exact .inr ((proxyBypasses_iff htarget _).mpr (.inl hloopback))
    | false =>
      rw [proxyBypasses_iff htarget, hloopback, split_mergeNoProxy] at h
      rw [exists_proxyBypasses_iff htarget hloopback]
      obtain ⟨entry, hentry, -, hbypass⟩ :=
        (exists_bypassedBy_iff (Target.lineFeed_not_mem_host htarget) lists).mp (h.resolve_left Bool.false_ne_true)
      exact ⟨entry, hentry, hbypass⟩

/-- Merging lists keeps what they say about a target exactly if, where an entry is lost that stands for the target,
another one stands for it. -/
theorem mergesNoProxy_iff (libs : NoProxyLibs) (targetUri : String) (lists : NoProxyLists) :
    MergesNoProxy libs targetUri lists.values ↔ KeepsBypass libs targetUri lists.values := by
  have hmerged : ∀ {target}, Target.ofUri libs targetUri = some target → target.isLoopback = false →
      (proxyBypasses libs targetUri (mergeNoProxy lists.values) = true ↔
        ∃ entry ∈ requiredNoProxy ++ entriesOf lists.values,
          ¬ target.Loses entry ∧ target.bypassedBy libs entry = true) := by
    intro target htarget hloopback
    rw [proxyBypasses_iff htarget, hloopback, split_mergeNoProxy, or_iff_right Bool.false_ne_true]
    exact exists_bypassedBy_iff (Target.lineFeed_not_mem_host htarget) lists
  constructor
  · rintro ⟨hrelation, -⟩ target htarget hloopback ⟨entry, hentry, -, hbypass⟩
    rw [exists_proxyBypasses_iff htarget hloopback, hmerged htarget hloopback] at hrelation
    exact hrelation.mpr ⟨entry, List.mem_append_right _ hentry, hbypass⟩
  · intro hkeeps
    refine ⟨⟨bypasses_merge lists, fun h => ?_⟩, mergeNoProxy_mergeNoProxy _⟩
    cases htarget : Target.ofUri libs targetUri with
    | none => simp only [proxyBypasses_of_none htarget, Bool.false_eq_true, and_false, exists_false, or_self] at h
    | some target =>
      cases hloopback : target.isLoopback with
      | true => exact (proxyBypasses_iff htarget _).mpr (.inl hloopback)
      | false =>
        rw [exists_proxyBypasses_iff htarget hloopback] at h
        rw [hmerged htarget hloopback]
        obtain ⟨entry, hentry, hbypass⟩ := h
        by_cases hloses : target.Loses entry
        · rcases List.mem_append.mp hentry with hrequired | hentries
          · exact absurd hloses (Target.not_loses_required hrequired)
          · exact hkeeps target htarget hloopback ⟨entry, hentries, hloses, hbypass⟩
        · exact ⟨entry, hentry, hloses, hbypass⟩

end

/-! ## The local token in capital letters -/

/-- The crates, for one target. -/
def intranetLibs : NoProxyLibs where
  parseUrl uri := if uri = "http://intranet" then some (some "intranet", some 80) else none
  escape text := String.ofList (text.toList.flatMap fun c => if c = '*' || c = '.' then ['\\', c] else [c])
  isMatch expression value := if expression = "^.*$" then !decide ('\n' ∈ value.toList) else false
  host_lineFeed := by
    intro uri host port h
    split at h
    · cases h
      decide
    · cases h
  escape_star := by decide
  isMatch_all h := by
    rw [if_pos rfl, decide_eq_false h]
    rfl

/-- The list of the local token alone. -/
def capitalLocal : NoProxyLists where
  values := ["<LOCAL>"]
  allowed := by decide

/-- A machine of the local network is reached without the proxy by the list, and with it by the merged list. -/
theorem not_mergesNoProxy_capitals : ¬ MergesNoProxy intranetLibs "http://intranet" capitalLocal.values := by
  rintro ⟨hrelation, -⟩
  have hlist : proxyBypasses intranetLibs "http://intranet" "<LOCAL>" = true := by decide +kernel
  have hmerged : proxyBypasses intranetLibs "http://intranet" (mergeNoProxy ["<LOCAL>"]) = false := by decide +kernel
  exact Bool.false_ne_true (hmerged.symm.trans (hrelation.mpr (.inl ⟨_, List.mem_singleton_self _, hlist⟩)))
