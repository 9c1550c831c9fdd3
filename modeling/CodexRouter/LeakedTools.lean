/-
# Tool calls in a text

`extract_leaked_tool_calls` takes the tool calls out of a text in which a model has
written them: a marker, a number behind a colon, and a JSON object.  `closingBrace`
finds the end of the object, because quoted braces and nested objects close before it
(`closingBrace_object`).

The text is a list of segments here, plain ones and calls.  The place of the next call
is that of the first marker of any kind, but the marker that is skipped there is the
first one of the list `LEAKED_TOOL_MARKERS` that stands anywhere in the rest of the
text.  `TakesOwn` says that this is the call's own marker.
-/
import CodexRouter.Base.Markers
import CodexRouter.ChatScan
import Mathlib.Data.Bool.AllAny
import Mathlib.Data.List.Forall2

namespace CodexRouter

open Text

/-! ## The code -/

/-- The loop of `extract_leaked_tool_calls` with the number of calls that were found.  Every
round takes a marker from the rest, so that there are at most as many rounds as characters. -/
def extractLeakedToolCalls.loop (serde : Serde) : ℕ → ℕ → List Char → List Char × List Value
  | 0, _, rest => (rest, [])
  | n + 1, found, rest =>
    match findLeakedToolStart rest with
    | none => (rest, [])
    | some start =>
      match skipLeakedPrefix (rest.drop start) with
      | none => (rest, [])
      | some prefixEnd =>
        let afterPrefix := rest.drop (start + prefixEnd)
        match takeBalancedJson serde afterPrefix with
        | some (raw, consumed) =>
          let (remaining, tools) := loop serde n (found + 1) (afterPrefix.drop consumed)
          (rest.take start ++ remaining, normalizeLeakedToolCall serde raw (found + 1) :: tools)
        | none =>
          let (remaining, tools) := loop serde n found (afterPrefix.dropWhile isWhitespace)
          (rest.take start ++ remaining, tools)

/-- `extract_leaked_tool_calls`: the remaining text and the calls. -/
def extractLeakedToolCalls (serde : Serde) (text : String) : String × List Value :=
  let (remaining, tools) := extractLeakedToolCalls.loop serde (text.length + 1) 0 text.toList
  (String.ofList remaining, tools)

/-! ## The markers -/

/-- The markers as lists of characters. -/
def markerChars : List (List Char) := leakedToolMarkers.map String.toList

/-- A marker stands at the start of the text. -/
abbrev StartsMarker (text : List Char) : Prop := StartsAny markerChars text

theorem markers_apart : Apart markerChars := by
  have htail : ∀ p ∈ markerChars, ∀ q ∈ markerChars, p.tail.all (fun c => q.head? ≠ some c) = true := by
    decide +kernel
  exact ⟨by decide, fun p hp q hq => List.all_iff_forall_prop.mp (htail p hp q hq)⟩

theorem findLeakedToolStart_eq (text : List Char) : findLeakedToolStart text = findAny markerChars text := by
  rw [findLeakedToolStart, findAny, markerChars, List.filterMap_map]
  rfl

/-- Behind a marker comes a colon with a number, or nothing. -/
def numberLength : List Char → ℕ
  | ':' :: rest => 1 + (rest.takeWhile isAsciiDigit).length
  | _ => 0

section

variable {text before rest : List Char} {marker : String}

/-- The prefix that is skipped, for the first marker of the list that is in the text. -/
theorem skipLeakedPrefix_eq {start : ℕ} {earlier later : List String}
    (hmarkers : leakedToolMarkers = earlier ++ marker :: later)
    (hearlier : ∀ m ∈ earlier, findChars m.toList text = none) (hfind : findChars marker.toList text = some start) :
    skipLeakedPrefix text
      = some (start + marker.length + numberLength (text.drop (start + marker.length))) := by
  have hnone : ∀ f : String → ℕ → ℕ, earlier.findSome? (fun m => (findChars m.toList text).map (f m)) = none := by
    refine fun f => List.findSome?_eq_none_iff.mpr fun m hm => ?_
    rw [hearlier m hm, Option.map_none]
  rw [skipLeakedPrefix, hmarkers, List.findSome?_append, hnone, Option.none_or, List.findSome?_cons, hfind,
    Option.map_some]
  refine congrArg some ?_
  dsimp only
  generalize text.drop (start + marker.length) = tail
  cases tail with
  | nil => rfl
  | cons c cs =>
    by_cases hc : c = ':'
    · subst hc
      exact Nat.add_assoc _ _ _
    · simp [numberLength, hc]

end

/-! ## The texts of JSON objects -/

/-- The text between two quotes. -/
inductive StringBody : List Char → Prop
  | nil : StringBody []
  | char {c : Char} {cs : List Char} (hquote : c ≠ '"') (hslash : c ≠ '\\') (h : StringBody cs) : StringBody (c :: cs)
  | escape {c : Char} {cs : List Char} (h : StringBody cs) : StringBody ('\\' :: c :: cs)

/-- The text between the braces of an object: the braces in it that are not quoted belong to
objects. -/
inductive ObjectBody : List Char → Prop
  | nil : ObjectBody []
  | char {c : Char} {cs : List Char} (hquote : c ≠ '"') (hopen : c ≠ '{') (hclose : c ≠ '}') (h : ObjectBody cs) :
      ObjectBody (c :: cs)
  | string {s cs : List Char} (hs : StringBody s) (h : ObjectBody cs) : ObjectBody ('"' :: (s ++ '"' :: cs))
  | object {body cs : List Char} (hbody : ObjectBody body) (h : ObjectBody cs) :
      ObjectBody ('{' :: (body ++ '}' :: cs))

/-- The shape of the text of a JSON object. -/
def ObjectText (text : List Char) : Prop := ∃ body, ObjectBody body ∧ text = '{' :: (body ++ ['}'])

/-- A text without quotes and backslashes. -/
theorem stringBody_of_plain {s : List Char} (h : ∀ c ∈ s, c ≠ '"' ∧ c ≠ '\\') : StringBody s := by
  induction s with
  | nil => exact .nil
  | cons c cs ih =>
    obtain ⟨hquote, hslash⟩ := h c List.mem_cons_self
    exact .char hquote hslash (ih fun d hd => h d (List.mem_cons_of_mem _ hd))

section

variable {body s text rest more : List Char} {depth : ℤ} {n : ℕ}

/-- A string ends at its quote. -/
theorem closingBrace_string (h : StringBody s) (depth : ℤ) (rest : List Char) :
    closingBrace true false depth (s ++ '"' :: rest)
      = (closingBrace false false depth rest).map (s.length + 1 + ·) := by
  induction h with
  | nil =>
    rw [List.nil_append, closingBrace]
    exact congrArg (Option.map · _) (funext fun n => Nat.add_comm n 1)
  | @char c cs hquote hslash h ih =>
    rw [List.cons_append, closingBrace]
    simp only [if_neg hquote, if_neg hslash, Bool.false_eq_true, if_false]
    rw [ih, Option.map_map]
    refine congrArg (Option.map · _) (funext fun n => ?_)
    simp only [Function.comp_apply, List.length_cons]
    omega
  | @escape c cs h ih =>
    have hescape : closingBrace true false depth ('\\' :: (c :: (cs ++ '"' :: rest)))
        = ((closingBrace true false depth (cs ++ '"' :: rest)).map (· + 1)).map (· + 1) := rfl
    rw [List.cons_append, List.cons_append, hescape, ih, Option.map_map, Option.map_map]
    refine congrArg (Option.map · _) (funext fun n => ?_)
    simp only [Function.comp_apply, List.length_cons]
    omega

/-- No brace in the body of an object closes it. -/
theorem closingBrace_body (h : ObjectBody body) (hdepth : 1 ≤ depth) (rest : List Char) :
    closingBrace false false depth (body ++ rest)
      = (closingBrace false false depth rest).map (body.length + ·) := by
  induction h generalizing depth rest with
  | nil => simp
  | @char c cs hquote hopen hclose h ih =>
    rw [List.cons_append, closingBrace, if_neg hquote, if_neg hopen, if_neg hclose, ih hdepth, Option.map_map]
    refine congrArg (Option.map · _) (funext fun n => ?_)
    simp only [Function.comp_apply, List.length_cons]
    omega
  | @string s cs hs h ih =>
    rw [List.cons_append, closingBrace, if_pos rfl, List.append_assoc, List.cons_append, closingBrace_string hs,
      ih hdepth, Option.map_map, Option.map_map]
    refine congrArg (Option.map · _) (funext fun n => ?_)
    simp only [Function.comp_apply, List.length_cons, List.length_append]
    omega
  | @object inner cs hinner h ihinner ih =>
    rw [List.cons_append, closingBrace, if_neg (by decide), if_pos rfl, List.append_assoc, List.cons_append,
      ihinner (by omega), closingBrace, if_neg (by decide), if_neg (by decide), if_pos rfl, if_neg (by omega),
      Int.add_sub_cancel, ih hdepth, Option.map_map, Option.map_map, Option.map_map]
    refine congrArg (Option.map · _) (funext fun n => ?_)
    simp only [Function.comp_apply, List.length_cons, List.length_append]
    omega

/-- **The object that starts a text ends where its text ends.** -/
theorem closingBrace_object (h : ObjectText text) (rest : List Char) :
    closingBrace false false 0 (text ++ rest) = some text.length := by
  obtain ⟨body, hbody, rfl⟩ := h
  rw [List.cons_append, closingBrace, if_neg (by decide), if_pos rfl, List.append_assoc,
    closingBrace_body hbody (by decide), List.cons_append, closingBrace, if_neg (by decide), if_neg (by decide),
    if_pos rfl, if_pos (by decide)]
  simp only [Option.map_some, List.length_cons, List.length_append, List.length_nil]

/-- A text that starts with an object is read up to its end. -/
theorem takeBalancedJson_object (serde : Serde) (h : ObjectText text) (rest : List Char) :
    takeBalancedJson serde (text ++ rest)
      = (serde.fromStr (String.ofList text)).map fun value => (value, text.length) := by
  have hstart : findChars ['{'] (text ++ rest) = some 0 := by
    obtain ⟨body, -, rfl⟩ := h
    rw [List.cons_append, findChars, if_pos (by simp)]
  rw [takeBalancedJson, hstart, Option.bind_some, List.drop_zero, closingBrace_object h, Option.bind_some,
    List.take_left, Nat.zero_add]

end

/-! ## Segments -/

/-- A call in a text: a marker, maybe a number behind a colon, and a JSON object. -/
structure LeakedCall (serde : Serde) where
  marker : String
  number : Option (List Char)
  json : List Char
  value : Value
  marker_mem : marker ∈ leakedToolMarkers
  number_digits : ∀ digits ∈ number, ∀ d ∈ digits, isAsciiDigit d = true
  object : ObjectText json
  parses : serde.fromStr (String.ofList json) = some value

/-- The number with its colon. -/
def LeakedCall.numberText {serde : Serde} (call : LeakedCall serde) : List Char :=
  match call.number with
  | some digits => ':' :: digits
  | none => []

def LeakedCall.text {serde : Serde} (call : LeakedCall serde) : List Char :=
  call.marker.toList ++ (call.numberText ++ call.json)

/-- A segment of a text. -/
inductive LeakedSegment (serde : Serde) where
  | plain (text : List Char)
  | call (call : LeakedCall serde)

section

variable {serde : Serde}

def LeakedSegment.text : LeakedSegment serde → List Char
  | .plain text => text
  | .call c => c.text

/-- The text of the segments. -/
def segmentsText (segments : List (LeakedSegment serde)) : List Char := segments.flatMap LeakedSegment.text

/-- The text of the plain segments. -/
def plainText (segments : List (LeakedSegment serde)) : List Char :=
  segments.flatMap fun
    | .plain text => text
    | .call _ => []

/-- The JSON objects of the calls. -/
def calledValues (segments : List (LeakedSegment serde)) : List Value :=
  segments.filterMap fun
    | .plain _ => none
    | .call c => some c.value

/-- No marker begins in a plain segment, and at each call no marker that is listed before its own
one stands in the text from the call on. -/
def TakesOwn : List (LeakedSegment serde) → Prop
  | [] => True
  | .plain text :: rest =>
    (∀ n < text.length, ¬ StartsMarker (text.drop n ++ segmentsText rest)) ∧ TakesOwn rest
  | .call c :: rest =>
    (∀ marker ∈ leakedToolMarkers.takeWhile (· ≠ c.marker),
      findChars marker.toList (c.text ++ segmentsText rest) = none) ∧ TakesOwn rest

/-- The name under which a call is made. -/
def leakedToolName (raw : Value) : String :=
  let name := (raw.getStr "name").getD "exec_command"
  if name ∈ ["exec", "functions__exec", "shell", "bash", "command"] then "exec_command" else name

/-- The command of a call. -/
def leakedCommand (raw : Value) : String := (((raw.get "cmd").or (raw.get "command")).bind Value.asStr).getD ""

/-- The function call with the name and the command of a JSON object; a call of another tool
than the shell has the object itself for its arguments. -/
def CallsWith (serde : Serde) (raw tool : Value) : Prop :=
  tool.getStr "type" = some "function_call" ∧ tool.getStr "name" = some (leakedToolName raw)
    ∧ ∃ arguments, tool.getStr "arguments" = some (serde.toText arguments)
      ∧ if leakedToolName raw = "exec_command" then arguments.getStr "cmd" = some (leakedCommand raw)
        else arguments = raw

/-- The plain segments remain, and there is one function call for each call, in order. -/
def ExtractsCalls (segments : List (LeakedSegment serde)) : Prop :=
  (extractLeakedToolCalls serde (String.ofList (segmentsText segments))).1 = String.ofList (plainText segments)
    ∧ List.Forall₂ (CallsWith serde) (calledValues segments)
      (extractLeakedToolCalls serde (String.ofList (segmentsText segments))).2

variable {text rest : List Char} {n found : ℕ} {call : LeakedCall serde}

theorem callsWith_normalizeLeakedToolCall (raw : Value) (index : ℕ) :
    CallsWith serde raw (normalizeLeakedToolCall serde raw index) := by
  refine ⟨rfl, rfl, ?_⟩
  by_cases hname : leakedToolName raw = "exec_command"
  · cases htimeout : raw.get "timeout" with
    | none =>
      refine ⟨.object [("cmd", .string (leakedCommand raw))], ?_, ?_⟩
      · show some (if leakedToolName raw = "exec_command" then _ else _) = _
        rw [if_pos hname, htimeout]
        rfl
      · rw [if_pos hname]
        rfl
    | some timeout =>
      refine ⟨.object [("cmd", .string (leakedCommand raw)), ("timeout", timeout)], ?_, ?_⟩
      · show some (if leakedToolName raw = "exec_command" then _ else _) = _
        rw [if_pos hname, htimeout]
        rfl
      · rw [if_pos hname]
        rfl
  · refine ⟨raw, ?_, ?_⟩
    · show some (if leakedToolName raw = "exec_command" then _ else _) = _
      rw [if_neg hname]
    · rw [if_neg hname]

/-- Text in which no marker begins remains. -/
theorem loop_plain (h : ∀ n < text.length, ¬ StartsMarker (text.drop n ++ rest)) :
    extractLeakedToolCalls.loop serde n found (text ++ rest)
      = (text ++ (extractLeakedToolCalls.loop serde n found rest).1,
        (extractLeakedToolCalls.loop serde n found rest).2) := by
  cases n with
  | zero => rfl
  | succ n =>
    rw [extractLeakedToolCalls.loop, extractLeakedToolCalls.loop, findLeakedToolStart_eq, findLeakedToolStart_eq,
      findAny_append_left h]
    cases findAny markerChars rest with
    | none => rfl
    | some start =>
      simp only [Option.map_some, List.drop_length_add_append, List.take_length_add_append, Nat.add_assoc]
      cases skipLeakedPrefix (rest.drop start) with
      | none => rfl
      | some prefixEnd =>
        simp only
        cases takeBalancedJson serde (rest.drop (start + prefixEnd)) <;>
          simp only [List.append_assoc]

/-- A list up to one of its elements. -/
theorem exists_takeWhile_ne {l : List String} {a : String} (h : a ∈ l) :
    ∃ later, l = l.takeWhile (· ≠ a) ++ a :: later := by
  induction l with
  | nil => cases h
  | cons b l ih =>
    by_cases hb : b = a
    · subst hb
      exact ⟨l, by simp⟩
    · obtain ⟨later, hlater⟩ := ih ((List.mem_cons.mp h).resolve_left (Ne.symm hb))
      refine ⟨later, ?_⟩
      rw [List.takeWhile_cons_of_pos (by simpa using hb), List.cons_append, ← hlater]

/-- The number ends where the object begins. -/
theorem numberLength_text (call : LeakedCall serde) (rest : List Char) :
    numberLength (call.numberText ++ (call.json ++ rest)) = call.numberText.length := by
  obtain ⟨body, -, hjson⟩ := call.object
  rw [hjson]
  cases hnumber : call.number with
  | none => simp [LeakedCall.numberText, hnumber, numberLength]
  | some digits =>
    have hall : ∀ d ∈ digits, isAsciiDigit d = true := call.number_digits digits (by rw [hnumber]; rfl)
    have hbrace : isAsciiDigit '{' = false := by decide
    simp only [LeakedCall.numberText, hnumber, List.cons_append, numberLength, List.takeWhile_append_of_pos hall,
      List.takeWhile_cons, hbrace, Bool.false_eq_true, if_false, List.append_nil, List.length_cons, Nat.add_comm]

/-- The prefix of a call is skipped, if no marker that is listed earlier is there. -/
theorem skipLeakedPrefix_call
    (hown : ∀ marker ∈ leakedToolMarkers.takeWhile (· ≠ call.marker), findChars marker.toList (call.text ++ rest) = none) :
    skipLeakedPrefix (call.text ++ rest) = some (call.marker.toList ++ call.numberText).length := by
  obtain ⟨later, hmarkers⟩ := exists_takeWhile_ne call.marker_mem
  have hstands : call.marker.toList <+: call.text ++ rest := by
    rw [LeakedCall.text, List.append_assoc]
    exact List.prefix_append _ _
  have hfind : findChars call.marker.toList (call.text ++ rest) = some 0 := by
    obtain ⟨i, hi, hle⟩ := exists_findChars_le (j := 0) hstands (Nat.zero_le _)
    rw [hi, Nat.le_zero.mp hle]
  have hdrop : (call.text ++ rest).drop (0 + call.marker.length) = call.numberText ++ (call.json ++ rest) := by
    rw [Nat.zero_add, ← String.length_toList, LeakedCall.text, List.append_assoc, List.drop_left, List.append_assoc]
  rw [skipLeakedPrefix_eq hmarkers hown hfind, hdrop, numberLength_text, List.length_append, String.length_toList,
    Nat.zero_add]

/-- A call is taken, if its own marker is skipped. -/
theorem loop_call
    (hown : ∀ marker ∈ leakedToolMarkers.takeWhile (· ≠ call.marker), findChars marker.toList (call.text ++ rest) = none) :
    extractLeakedToolCalls.loop serde (n + 1) found (call.text ++ rest)
      = ((extractLeakedToolCalls.loop serde n (found + 1) rest).1,
        normalizeLeakedToolCall serde call.value (found + 1)
          :: (extractLeakedToolCalls.loop serde n (found + 1) rest).2) := by
  have hstarts : StartsMarker (call.text ++ rest) := by
    refine ⟨call.marker.toList, List.mem_map_of_mem call.marker_mem, ?_⟩
    rw [LeakedCall.text, List.append_assoc]
    exact List.prefix_append _ _
  have hdrop : (call.text ++ rest).drop (0 + (call.marker.toList ++ call.numberText).length) = call.json ++ rest := by
    rw [Nat.zero_add, LeakedCall.text, ← List.append_assoc, List.append_assoc, List.drop_left]
  have htake := takeBalancedJson_object serde call.object rest
  rw [call.parses, Option.map_some] at htake
  rw [extractLeakedToolCalls.loop, findLeakedToolStart_eq, findAny_of_startsAny markers_apart.ne_nil hstarts]
  simp only [List.drop_zero, skipLeakedPrefix_call hown, hdrop, htake, List.drop_left, List.take_zero, List.nil_append]

theorem loop_segments {segments : List (LeakedSegment serde)} (h : TakesOwn segments)
    (hn : (segmentsText segments).length < n) :
    extractLeakedToolCalls.loop serde n found (segmentsText segments)
      = (plainText segments, ((calledValues segments).zipIdx (found + 1)).map fun (value, index) =>
          normalizeLeakedToolCall serde value index) := by
  induction segments generalizing n found with
  | nil =>
    cases n with
    | zero => rfl
    | succ n =>
      rw [extractLeakedToolCalls.loop, findLeakedToolStart_eq, segmentsText, List.flatMap_nil,
        findAny_nil markers_apart.ne_nil]
      rfl
  | cons segment segments ih =>
    rw [segmentsText, List.flatMap_cons, ← segmentsText, List.length_append] at hn
    cases segment with
    | plain text =>
      refine (loop_plain h.1).trans ?_
      rw [ih h.2 (Nat.lt_of_le_of_lt (Nat.le_add_left _ _) hn)]
      rfl
    | call call =>
      obtain ⟨n, rfl⟩ : ∃ m, n = m + 1 := ⟨n - 1, by omega⟩
      have hpos : 0 < call.text.length := by
        obtain ⟨body, -, hjson⟩ := call.object
        rw [LeakedCall.text, hjson]
        simp
      refine (loop_call h.1).trans ?_
      rw [ih h.2 (by change call.text.length + _ < n + 1 at hn; omega)]
      rfl

/-- The function calls with the names and the commands of the objects. -/
theorem forall₂_callsWith (values : List Value) (first : ℕ) :
    List.Forall₂ (CallsWith serde) values
      ((values.zipIdx first).map fun (value, index) => normalizeLeakedToolCall serde value index) := by
  induction values generalizing first with
  | nil => exact .nil
  | cons value values ih => exact .cons (callsWith_normalizeLeakedToolCall value first) (ih (first + 1))

/-- **Every call is taken, and the plain segments remain**, when each call's own marker is the one
that is skipped. -/
theorem extractsCalls_of_takesOwn {segments : List (LeakedSegment serde)} (h : TakesOwn segments) :
    ExtractsCalls segments := by
  have hloop : extractLeakedToolCalls.loop serde ((segmentsText segments).length + 1) 0 (segmentsText segments) = _ :=
    loop_segments h (Nat.lt_succ_self _)
  have hextract : extractLeakedToolCalls serde (String.ofList (segmentsText segments))
      = (String.ofList (plainText segments), ((calledValues segments).zipIdx 1).map fun (value, index) =>
          normalizeLeakedToolCall serde value index) := by
    rw [extractLeakedToolCalls, String.toList_ofList, ← String.length_toList, String.toList_ofList, hloop]
  rw [ExtractsCalls, hextract]
  exact ⟨rfl, forall₂_callsWith _ 1⟩

end

/-! ## Calls of a shell -/

/-- The text of a JSON object with a command. -/
def commandJson (command : String) : List Char :=
  '{' :: ('"' :: ("cmd".toList ++ '"' :: ':' :: '"' :: (command.toList ++ '"' :: [])) ++ ['}'])

/-- A reader of the commands `a` and `b`. -/
def commandSerde : Serde where
  fromStr text :=
    if text = String.ofList (commandJson "a") then some (.object [("cmd", .string "a")])
    else if text = String.ofList (commandJson "b") then some (.object [("cmd", .string "b")])
    else none
  toText := Serde.print

theorem objectText_commandJson {command : String} (h : ∀ c ∈ command.toList, c ≠ '"' ∧ c ≠ '\\') :
    ObjectText (commandJson command) :=
  ⟨_, .string (stringBody_of_plain (List.all_iff_forall_prop.mp (by decide)))
    (.char (by decide) (by decide) (by decide) (.string (stringBody_of_plain h) .nil)), rfl⟩

/-- A call of the command `a`. -/
def callA (marker : String) (hmarker : marker ∈ leakedToolMarkers) : LeakedCall commandSerde where
  marker := marker
  number := none
  json := commandJson "a"
  value := .object [("cmd", .string "a")]
  marker_mem := hmarker
  number_digits := by simp
  object := objectText_commandJson (List.all_iff_forall_prop.mp (by decide))
  parses := by decide

/-- A call of the command `b`, with a number. -/
def callB (marker : String) (hmarker : marker ∈ leakedToolMarkers) : LeakedCall commandSerde where
  marker := marker
  number := some ['1', '2']
  json := commandJson "b"
  value := .object [("cmd", .string "b")]
  marker_mem := hmarker
  number_digits := by simp; decide
  object := objectText_commandJson (List.all_iff_forall_prop.mp (by decide))
  parses := by decide

theorem extractsCalls_execThenShell :
    ExtractsCalls [.plain "first ".toList, .call (callA "functions__exec" (by decide)), .plain " then ".toList,
      .call (callB "functions.shell" (by decide))] :=
  extractsCalls_of_takesOwn
    ⟨by decide +kernel, by decide +kernel, by decide +kernel, by decide +kernel, trivial⟩

/-- The marker of the second call is skipped at the first one. -/
theorem not_extractsCalls_shellThenExec :
    ¬ ExtractsCalls [.call (callA "functions.shell" (by decide)), .call (callB "functions__exec" (by decide))] := by
  intro h
  have hlength := h.2.length_eq
  revert hlength
  decide +kernel

end CodexRouter
