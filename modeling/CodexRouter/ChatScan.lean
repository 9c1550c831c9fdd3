/-
# The texts of a chat completion chunk

A chunk of a Chat Completions stream hides what it says in several shapes: a text, a list
of parts, an object with one of five members.  `chatTextValue` reads them.  A text then
passes three filters, each with a memory of what it has held back:

* `DeepSeekDsmlScan` drops the tool-control tags of the DeepSeek models;
* `ThinkScan` tells what stands between think tags from the visible text;
* `leakedPieces` takes the tool calls out of a visible text.

Positions are character positions.
-/
import CodexRouter.Base.Json
import CodexRouter.Base.Text

namespace CodexRouter

open Text

/-! ## The text of a value -/

mutual

/-- `chat_text_value`. -/
def chatTextValue : Value → Option String
  | .string text => some text
  | .array parts => chatTextParts parts
  | .object entries =>
    ["text", "content", "value", "thinking", "thought"].findSome? fun key =>
      ((chatTextEntries entries).lookup key).join
  | .null | .bool _ | .number _ => none
termination_by structural v => v

/-- The texts of the parts that have one, put together. -/
def chatTextParts : List Value → Option String
  | [] => none
  | part :: parts =>
    match chatTextValue part with
    | none => chatTextParts parts
    | some text => some (text ++ (chatTextParts parts).getD "")
termination_by structural parts => parts

/-- The text of a member.  Only the first member with a key is read. -/
def chatTextEntry : String × Value → String × Option String
  | (key, value) => (key, chatTextValue value)
termination_by structural e => e

/-- The texts of the members. -/
def chatTextEntries : List (String × Value) → List (String × Option String)
  | [] => []
  | e :: entries => chatTextEntry e :: chatTextEntries entries
termination_by structural entries => entries

end

/-- `chat_part_is_thought`. -/
def chatPartIsThought (part : Value) : Bool :=
  (part.get "thought").bind Value.asBool = some true
    || toAsciiLowercase ((part.getStr "type").getD "") ∈
      ["thought", "thinking", "reasoning", "reasoning_text"]

/-- The texts of the parts for which the test holds. -/
def textsOf (parts : List Value) (thought : Bool) : String :=
  join "" ((parts.filter fun part => chatPartIsThought part = thought).filterMap chatTextValue)

/-- `split_chat_message_content`: the reasoning and the visible text. -/
def splitChatMessageContent : Value → String × String
  | .array parts => (textsOf parts true, textsOf parts false)
  | .object m =>
    if chatPartIsThought (.object m) then ((chatTextValue (.object m)).getD "", "")
    else ("", (chatTextValue (.object m)).getD "")
  | value => ("", (chatTextValue value).getD "")

/-! ## Think tags -/

/-- Where a tag stands: found at a position with a length, or begun at a position. -/
inductive TagSearch where
  | found (rel len : ℕ)
  | holdPrefix (rel : ℕ)
  | none
  deriving DecidableEq, Repr

/-- The search began one character before. -/
def TagSearch.shift : TagSearch → TagSearch
  | .found rel len => .found (rel + 1) len
  | .holdPrefix rel => .holdPrefix (rel + 1)
  | .none => .none

/-- Search lower case characters for one of two tags.  A text that ends in at least `least`
characters of a tag is held. -/
def findTag (long short : List Char) (least : ℕ) : List Char → TagSearch
  | [] => .none
  | c :: cs =>
    if c = '<' then
      if long.isPrefixOf (c :: cs) then .found 0 long.length
      else if short.isPrefixOf (c :: cs) then .found 0 short.length
      else if least ≤ (c :: cs).length ∧ ((c :: cs).isPrefixOf short ∨ (c :: cs).isPrefixOf long) then
        .holdPrefix 0
      else (findTag long short least cs).shift
    else (findTag long short least cs).shift

/-- `find_open_think`. -/
def findOpenThink (s : List Char) : TagSearch :=
  findTag "<thinking>".toList "<think>".toList 6 (s.map Char.toLower)

/-- `find_close_think`. -/
def findCloseThink (s : List Char) : TagSearch :=
  findTag "</thinking>".toList "</think>".toList 7 (s.map Char.toLower)

/-- `ThinkPiece`. -/
inductive ThinkPiece where
  | visible (text : String)
  | think (text : String)
  deriving DecidableEq, Repr

/-- `ThinkScan`. -/
structure ThinkScan where
  hold : List Char
  inside : Bool
  deriving DecidableEq, Repr

/-- A text outside or inside the tags. -/
def ThinkScan.piece (inside : Bool) (text : List Char) : ThinkPiece :=
  if inside then .think (String.ofList text) else .visible (String.ofList text)

/-- The loop of `ThinkScan::push` on the rest of the text.  Every round but the last one
takes a tag from it, so there are at most as many rounds as characters. -/
def ThinkScan.scan : ℕ → Bool → List Char → List ThinkPiece × ThinkScan
  | 0, inside, _ => ([], ⟨[], inside⟩)
  | n + 1, inside, src =>
    if src = [] then ([], ⟨[], inside⟩)
    else
      let before := fun rel => if 0 < rel then [piece inside (src.take rel)] else []
      match if inside then findCloseThink src else findOpenThink src with
      | .found rel len =>
        let (pieces, state) := scan n (!inside) (src.drop (rel + len))
        (before rel ++ pieces, state)
      | .holdPrefix rel => (before rel, ⟨src.drop rel, inside⟩)
      | .none => ([piece inside src], ⟨[], inside⟩)

/-- `ThinkScan::push`. -/
def ThinkScan.push (s : ThinkScan) (incoming : String) : List ThinkPiece × ThinkScan :=
  let src := s.hold ++ incoming.toList
  scan (src.length + 1) s.inside src

/-- `ThinkScan::flush`. -/
def ThinkScan.flush (s : ThinkScan) : List ThinkPiece × ThinkScan :=
  (if s.hold = [] then [] else [piece s.inside s.hold], { s with hold := [] })

/-! ## The control tags of DeepSeek -/

/-- `DeepSeekDsmlTag`. -/
inductive DeepSeekDsmlTag where
  | invokeOpen
  | invokeClose
  | other
  deriving DecidableEq, Repr

/-- What a tag may begin with, and whether it is a closing one. -/
def dsmlTagStarts : List (String × Bool) :=
  [("<｜DSML｜", false), ("</｜DSML｜", true), ("\\<｜DSML｜", false), ("\\</｜DSML｜", true),
    ("&lt;｜DSML｜", false), ("&lt;/｜DSML｜", true), ("\\&lt;｜DSML｜", false), ("\\&lt;/｜DSML｜", true)]

/-- The tag that begins like this, with its length.  A slash before its name is not counted. -/
def dsmlTagWith (rest : List Char) (start : String × Bool) : Option (DeepSeekDsmlTag × ℕ) :=
  if start.1.toList.isPrefixOf rest then
    let body := rest.drop start.1.length
    let name := if ['/'].isPrefixOf body then body.drop 1 else body
    let ending := ((findChars ['>'] name).map fun i => (i, i + 1)).or
      ((findChars "&gt;".toList name).map fun i => (i, i + 4))
    ending.map fun (nameEnd, len) =>
      (if eqIgnoreAsciiCase (String.ofList (name.take nameEnd)) "invoke" then
        if start.2 then .invokeClose else .invokeOpen
      else .other, start.1.length + len)
  else none

/-- `deepseek_dsml_tag_at`, on the rest of the text.  Behind backslashes it is called once
more, and then there are none. -/
def deepseekDsmlTagAt (rest : List Char) : Option (DeepSeekDsmlTag × ℕ) :=
  let slashes := (rest.takeWhile (· = '\\')).length
  (dsmlTagStarts.findSome? (dsmlTagWith rest)).or
    (if 0 < slashes then
      (dsmlTagStarts.findSome? (dsmlTagWith (rest.drop slashes))).map fun (tag, len) =>
        (tag, slashes + len)
    else none)

/-- The tags whose beginnings are held. -/
def dsmlTags : List String :=
  ["<｜DSML｜invoke>", "</｜DSML｜invoke>", "<｜DSML｜parameter>", "</｜DSML｜parameter>",
    "\\<｜DSML｜invoke>", "\\</｜DSML｜invoke>", "&lt;｜DSML｜invoke&gt;", "&lt;/｜DSML｜invoke&gt;",
    "&lt;｜DSML｜parameter&gt;", "&lt;/｜DSML｜parameter&gt;", "\\&lt;｜DSML｜invoke&gt;",
    "\\&lt;/｜DSML｜invoke&gt;"]

/-- `deepseek_dsml_prefix_suffix_len`: the longest end of the text that begins a tag. -/
def deepseekDsmlPrefixSuffixLen (text : List Char) : ℕ :=
  ((text.tails.find? fun suffix =>
    suffix ≠ [] ∧ dsmlTags.any fun tag =>
      suffix.isPrefixOf tag.toList && suffix.length < tag.length).map List.length).getD 0

/-- The length of the text up to the bracket that closes the first one. -/
def closingBracket : Option Char → Bool → ℤ → List Char → Option ℕ
  | _, _, _, [] => none
  | some q, escaped, depth, ch :: rest =>
    let state := if escaped then (some q, false) else if ch = '\\' then (some q, true)
      else if ch = q then (none, escaped) else (some q, escaped)
    (closingBracket state.1 state.2 depth rest).map (· + 1)
  | none, escaped, depth, ch :: rest =>
    if ch = '\'' ∨ ch = '"' then (closingBracket (some ch) escaped depth rest).map (· + 1)
    else if ch = '(' then (closingBracket none escaped (depth + 1) rest).map (· + 1)
    else if ch = ')' then
      if depth - 1 = 0 then some 1 else (closingBracket none escaped (depth - 1) rest).map (· + 1)
    else (closingBracket none escaped depth rest).map (· + 1)

/-- `deepseek_pseudo_call_end`, relative to the start. -/
def deepseekPseudoCallEnd (rest : List Char) : Option ℕ :=
  let space := (rest.takeWhile isWhitespace).length
  let name := ((rest.drop space).takeWhile fun ch =>
    isAsciiAlphanumeric ch || ch = '_' || ch = '.' || ch = ':').length
  if name = 0 ∨ (rest.drop (space + name)).head? ≠ some '(' then some 0
  else (closingBracket none false 0 (rest.drop (space + name))).map (space + name + ·)

/-- `DeepSeekDsmlScan`. -/
structure DeepSeekDsmlScan where
  hold : List Char
  insideInvoke : Bool
  suppressPseudoCall : Bool
  deriving DecidableEq, Repr

/-- What the loop of `DeepSeekDsmlScan::push` leaves; `held` tells that it has returned. -/
structure DsmlLoop where
  visible : List Char
  scan : DeepSeekDsmlScan
  held : Bool

/-- One more visible character in front. -/
def DsmlLoop.cons (ch : Char) (l : DsmlLoop) : DsmlLoop := { l with visible := ch :: l.visible }

/-- The loop of `DeepSeekDsmlScan::push`; every round takes a character or more. -/
def DeepSeekDsmlScan.loop : ℕ → Bool → Bool → List Char → DsmlLoop
  | 0, inside, suppress, _ => ⟨[], ⟨[], inside, suppress⟩, false⟩
  | _ + 1, inside, suppress, [] => ⟨[], ⟨[], inside, suppress⟩, false⟩
  | n + 1, inside, suppress, ch :: rest =>
    match deepseekDsmlTagAt (ch :: rest) with
    | some (.invokeOpen, len) => loop n true false ((ch :: rest).drop len)
    | some (.invokeClose, len) => loop n false true ((ch :: rest).drop len)
    | some (.other, len) => loop n inside suppress ((ch :: rest).drop len)
    | none =>
      if inside then
        if 0 < deepseekDsmlPrefixSuffixLen (ch :: rest) then ⟨[], ⟨ch :: rest, inside, suppress⟩, true⟩
        else loop n inside suppress rest
      else if suppress then
        match deepseekPseudoCallEnd (ch :: rest) with
        | some 0 => (loop n inside false rest).cons ch
        | some (length + 1) => loop n inside false ((ch :: rest).drop (length + 1))
        | none => ⟨[], ⟨ch :: rest, inside, suppress⟩, true⟩
      else (loop n inside suppress rest).cons ch

/-- `DeepSeekDsmlScan::push`. -/
def DeepSeekDsmlScan.push (s : DeepSeekDsmlScan) (incoming : String) : String × DeepSeekDsmlScan :=
  let source := s.hold ++ incoming.toList
  let l := loop (source.length + 1) s.insideInvoke s.suppressPseudoCall source
  let held := deepseekDsmlPrefixSuffixLen l.visible
  if l.held = false ∧ l.scan.insideInvoke = false ∧ l.scan.suppressPseudoCall = false ∧ 0 < held then
    (String.ofList (l.visible.take (l.visible.length - held)),
      { l.scan with hold := l.visible.drop (l.visible.length - held) })
  else (String.ofList l.visible, l.scan)

/-- `DeepSeekDsmlScan::flush`. -/
def DeepSeekDsmlScan.flush (s : DeepSeekDsmlScan) : DeepSeekDsmlScan :=
  { s with hold := [], suppressPseudoCall := false }

/-! ## Leaked tool calls -/

/-- `LEAKED_TOOL_MARKERS`. -/
def leakedToolMarkers : List String :=
  ["functions__exec", "functions.exec", "functions__shell", "functions.shell", "<|tool_call|>",
    "<|tool_calls_section_begin|>"]

/-- `find_leaked_tool_start`. -/
def findLeakedToolStart (text : List Char) : Option ℕ :=
  (leakedToolMarkers.filterMap fun marker => findChars marker.toList text).min?

/-- `skip_leaked_prefix`: behind the first marker of the list that is there, and behind a
colon with digits. -/
def skipLeakedPrefix (text : List Char) : Option ℕ :=
  leakedToolMarkers.findSome? fun marker =>
    (findChars marker.toList text).map fun start =>
      let index := start + marker.length
      match text.drop index with
      | ':' :: rest => index + 1 + (rest.takeWhile isAsciiDigit).length
      | _ => index

/-- The length of the text up to the brace that closes the first one. -/
def closingBrace : Bool → Bool → ℤ → List Char → Option ℕ
  | _, _, _, [] => none
  | true, escaped, depth, ch :: rest =>
    let state := if escaped then (true, false) else if ch = '\\' then (true, true)
      else if ch = '"' then (false, escaped) else (true, escaped)
    (closingBrace state.1 state.2 depth rest).map (· + 1)
  | false, escaped, depth, ch :: rest =>
    if ch = '"' then (closingBrace true escaped depth rest).map (· + 1)
    else if ch = '{' then (closingBrace false escaped (depth + 1) rest).map (· + 1)
    else if ch = '}' then
      if depth - 1 = 0 then some 1 else (closingBrace false escaped (depth - 1) rest).map (· + 1)
    else (closingBrace false escaped depth rest).map (· + 1)

/-- `take_balanced_json`: the value, and the position behind it. -/
def takeBalancedJson (serde : Serde) (text : List Char) : Option (Value × ℕ) :=
  (findChars ['{'] text).bind fun start =>
    (closingBrace false false 0 (text.drop start)).bind fun length =>
      (serde.fromStr (String.ofList ((text.drop start).take length))).map fun value =>
        (value, start + length)

/-- `normalize_leaked_tool_call`. -/
def normalizeLeakedToolCall (serde : Serde) (raw : Value) (index : ℕ) : Value :=
  let name := (raw.getStr "name").getD "exec_command"
  let mappedName :=
    if name ∈ ["exec", "functions__exec", "shell", "bash", "command"] then "exec_command" else name
  let command := (((raw.get "cmd").or (raw.get "command")).bind Value.asStr).getD ""
  let timeout : Members := match raw.get "timeout" with
    | some timeout => [("timeout", timeout)]
    | none => []
  let arguments :=
    if mappedName = "exec_command" then
      serde.toText (.object (("cmd", .string command) :: timeout))
    else serde.toText raw
  .object [("type", .string "function_call"), ("name", .string mappedName),
    ("call_id", .string ("call_compat_" ++ toString index)), ("arguments", .string arguments)]

/-- A piece of a visible text. -/
inductive LeakedPiece where
  | visible (text : String)
  | tool (raw : Value)

/-- The loop of `emit_chat_visible_text_with_leaked_tools` on the buffer: the pieces that
are emitted, and what stays in the buffer.  Every round but the last one takes a marker from
the buffer. -/
def leakedPieces (serde : Serde) : ℕ → List Char → List LeakedPiece × List Char
  | 0, buffer => ([], buffer)
  | n + 1, buffer =>
    match findLeakedToolStart buffer with
    | none => ([.visible (String.ofList buffer)], [])
    | some start =>
      let before := if 0 < start then [.visible (String.ofList (buffer.take start))] else []
      let buffer := buffer.drop start
      match skipLeakedPrefix buffer with
      | none => (before, buffer)
      | some prefixEnd =>
        match takeBalancedJson serde (buffer.drop prefixEnd) with
        -- The marker and the unfinished call wait for the next delta.
        | none => (before, buffer)
        | some (raw, consumed) =>
          let tail := buffer.drop (prefixEnd + consumed)
          let tail := if tail.head? = some ')' then tail.tail else tail
          if tail = [] then (before ++ [.tool raw], [])
          else
            let (pieces, rest) := leakedPieces serde n tail
            (before ++ .tool raw :: pieces, rest)

/-- `emit_chat_visible_text_with_leaked_tools`: what is emitted of a visible text, and the
new buffer. -/
def splitLeakedTools (serde : Serde) (buffer : List Char) (text : String) :
    List LeakedPiece × List Char :=
  if text = "" then ([], buffer)
  else if buffer = [] then
    match findLeakedToolStart text.toList with
    | none => ([.visible text], [])
    | some start =>
      let before := if 0 < start then [.visible (String.ofList (text.toList.take start))] else []
      let (pieces, rest) := leakedPieces serde (text.length + 1) (text.toList.drop start)
      (before ++ pieces, rest)
  else leakedPieces serde (buffer.length + text.length + 1) (buffer ++ text.toList)

end CodexRouter
