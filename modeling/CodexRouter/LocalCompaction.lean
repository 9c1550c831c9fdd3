/-
# Local compaction of a conversation

`compact_input` and what it calls in `responses_compat.rs`: when a conversation
is too long, the items in front of a cut are folded into one summary message and
the rest is kept.

Three cuts are computed, each moved off the output items it may fall on: one
keeps `keep_last` items, one keeps eight, and one keeps as many items as fit in
32,000 characters.  The cut that is used is the third, clamped between the other
two (`compactKeepSplit`).

The summary (`summarizeDroppedItems`) collects the user's goals, the tools and
the file names of the folded items; old tool outputs in the result are shortened
(`pruneOldToolOutputs`).
-/
import CodexRouter.ToolHistory

namespace CodexRouter

open Text

/-- `LOCAL_COMPACT_KEEP_LAST`. -/
def localCompactKeepLast : ℕ := 48

/-- `AGGRESSIVE_COMPACT_KEEP_LAST`. -/
def aggressiveCompactKeepLast : ℕ := 16

/-- `COMPACT_SNIPPET_CHARS`. -/
def compactSnippetChars : ℕ := 180

/-- `TOOL_OUTPUT_PRUNE_CHARS`. -/
def toolOutputPruneChars : ℕ := 2000

/-- `RECENT_KEEP_CHARS`. -/
def recentKeepChars : ℕ := 32000

/-- `COMPACT_MIN_KEEP_ITEMS`. -/
def compactMinKeepItems : ℕ := 8

/-! ## Reading an item -/

/-- `item_role`. -/
def itemRole (item : Value) : String :=
  toAsciiLowercase ((item.getStr "role").getD "")

/-- `item_text`: the output, else the text, else the texts of the content. -/
def itemText (item : Value) : String :=
  match item.getStr "output", item.getStr "text", item.getArray "content" with
  | some text, _, _ => text
  | none, some text, _ => text
  | none, none, some parts => join " " (parts.filterMap (Value.getStr "text"))
  | none, none, none => ""

/-! ## The cut -/

/-- Move a cut to the left until it stands on no output item. -/
def backOff (items : List Value) : ℕ → ℕ
  | 0 => 0
  | i + 1 => if isFunctionOutputItem (items.getD (i + 1) .null) then backOff items i else i + 1

/-- `compact_split_at`. -/
def compactSplitAt (items : List Value) (keepLast : ℕ) : ℕ :=
  if items.length ≤ keepLast then 0 else backOff items (items.length - keepLast)

section Cut

variable (serde : Serde)

/-- `item_char_len`: the characters of the text, but at least the printed size
of the item up to 64 bytes. -/
def itemCharLen (item : Value) : ℕ :=
  max (itemText item).length (min (serde.toText item).utf8ByteSize 64)

/-- The loop of `compact_split_at_chars`: the first argument is `split_at`, the
second `used`.  The last item is always kept. -/
def charsCutFrom (items : List Value) (keepChars : ℕ) : ℕ → ℕ → ℕ
  | 0, _ => 0
  | idx + 1, used =>
    let size := max (itemCharLen serde (items.getD idx .null)) 1
    if keepChars ≤ used ∧ idx + 1 < items.length then idx + 1
    else if keepChars < used + size ∧ idx + 1 < items.length ∧ 0 < used then idx + 1
    else charsCutFrom items keepChars idx (used + size)

/-- `compact_split_at_chars`. -/
def compactSplitAtChars (items : List Value) (keepChars : ℕ) : ℕ :=
  if items = [] then 0
  else backOff items (charsCutFrom serde items keepChars items.length 0)

/-- `Ord::clamp`. -/
def clamp (x lo hi : ℕ) : ℕ :=
  if x < lo then lo else if hi < x then hi else x

/-- `compact_keep_split`. -/
def compactKeepSplit (items : List Value) (keepLast : ℕ) : ℕ :=
  if items.length ≤ compactMinKeepItems then 0
  else
    let maxKeep := max keepLast compactMinKeepItems
    let splitKeepMax := compactSplitAt items compactMinKeepItems
    let splitKeepMin := compactSplitAt items maxKeep
    let splitChars := compactSplitAtChars serde items recentKeepChars
    clamp splitChars splitKeepMin splitKeepMax

end Cut

/-! ## Shortening old tool outputs -/

/-- `truncate_text_value`: the new value, and whether it changed. -/
def truncateTextValue (limit : ℕ) : Value → Value × Bool
  | .string text =>
    if text.length ≤ limit then (.string text, false)
    else (.string (takeChars text (limit - 1) ++ "…"), true)
  | value => (value, false)

/-- Rewrite a member that is present, keeping track of a change. -/
def updateMember (k : String) (f : Value → Value × Bool) (m : Members) : Members × Bool :=
  (Members.modify k (fun v => (f v).1) m, ((Members.get k m).map fun v => (f v).2).getD false)

/-- The `content` part of `prune_item_output`. -/
def pruneContent (limit : ℕ) : Value → Value × Bool
  | .string text => truncateTextValue limit (.string text)
  | .array parts =>
    (.array (parts.map (Value.modify "text" fun v => (truncateTextValue limit v).1)),
      parts.any fun part =>
        ((part.get "text").map fun v => (truncateTextValue limit v).2).getD false)
  | value => (value, false)

/-- `prune_item_output`. -/
def pruneItemOutput (limit : ℕ) : Value → Value × Bool
  | .object m =>
    let output := updateMember "output" (truncateTextValue limit) m
    let text := updateMember "text" (truncateTextValue limit) output.1
    let content := updateMember "content" (pruneContent limit) text.1
    (.object content.1, output.2 || text.2 || content.2)
  | item => (item, false)

/-- One item of `prune_old_tool_outputs`. -/
def pruneOldItem (item : Value) : Value × Bool :=
  if isFunctionOutputItem item ∨ itemType item ∈ ["tool", "function"] ∨ itemRole item = "tool" then
    pruneItemOutput toolOutputPruneChars item
  else (item, false)

/-- `prune_old_tool_outputs`. -/
def pruneOldToolOutputs (serde : Serde) (items : List Value) : List Value × Bool :=
  if items.length ≤ compactMinKeepItems then (items, false)
  else
    let splitAt := compactSplitAtChars serde items recentKeepChars
    if splitAt = 0 then (items, false)
    else
      let old := (items.take splitAt).map pruneOldItem
      (old.map Prod.fst ++ items.drop splitAt, old.any Prod.snd)

/-! ## The summary -/

/-- `snippet`: white space runs become one space, and a text over the limit ends
in an ellipsis. -/
def snippet (text : String) (limit : ℕ) : String :=
  let trimmed := join " " (splitWhitespace text)
  if trimmed.length ≤ limit then trimmed else takeChars trimmed (limit - 1) ++ "…"

/-- `extract_workspace_hint`. -/
def extractWorkspaceHint (text : String) : Option String :=
  (lines text).findSome? fun line =>
    let lower := toAsciiLowercase line
    if contains lower "cwd" || contains lower "working directory"
        || contains lower "current directory" || contains lower "工作目录" then
      let hint := snippet (trim line) 160
      if hint = "" then none else some hint
    else none

/-- What `summarize_dropped_items` collects. -/
structure DroppedSummary where
  userGoals : List String := []
  tools : List String := []
  files : List String := []
  workspace : Option String := none

/-- A token that looks like a path is kept, up to eight of them. -/
def collectFile (files : List String) (token : String) : List String :=
  let candidate := trimMatches (fun c => c ∈ "\"'`[],".toList) token
  if (contains candidate "\\" || contains candidate "/") && 4 < candidate.length
      && files.length < 8 && candidate ∉ files then
    files ++ [candidate]
  else files

/-- The loop body of `summarize_dropped_items`. -/
def summarizeStep (s : DroppedSummary) (item : Value) : DroppedSummary :=
  let kind := itemType item
  let text := itemText item
  let s := { s with
    workspace := s.workspace.or (extractWorkspaceHint text)
    files := (splitWhitespace text).foldl collectFile s.files }
  if itemRole item = "user" ∧ trim text ≠ "" then
    if s.userGoals.length < 3 then
      { s with userGoals := s.userGoals ++ [snippet text compactSnippetChars] }
    else s
  else if kind ∈ ["function_call", "custom_tool_call", "computer_call", "local_shell_call"] then
    let name := (item.getStr "name").getD kind
    if s.tools.length < 8 ∧ name ∉ s.tools then { s with tools := s.tools ++ [name] } else s
  else s

/-- `summarize_dropped_items`. -/
def summarizeDroppedItems (items : List Value) : String :=
  let s := items.foldl summarizeStep {}
  let goal :=
    if s.userGoals = [] then "继续完成压缩前未完成的用户任务。" else join " / " s.userGoals
  let pending := s.userGoals.getLast?.getD goal
  let body := [
    "【本地压缩摘要】已折叠 " ++ toString items.length
      ++ " 条较早记录。这不是新任务，也不是任务结束；用户没有要求停止。不要写交接、不要空回复收工，立即从压缩前未完成的那一步继续。",
    "## Goal",
    goal,
    "## Instructions / Constraints",
    "用户没有换任务。不要输出空回复，不要写 handoff，不要等待新指令。只使用当前对话工作目录；不要读取 CodexRouter / Codex-Router 源码目录，除非它就是当前 cwd。默认用简体中文继续。",
    "## Discoveries",
    if s.tools = [] then "较早回合已折叠；以近文原文和当前工作目录为准。"
    else "已执行工具：" ++ join ", " s.tools,
    "## Files",
    if s.files = [] then s.workspace.getD "以当前对话工作目录为准。" else join "\n" s.files,
    "## Pending",
    pending,
    "## Current work",
    "立刻从摘要里未完成的那一步继续执行，直到原任务完成。"]
  join "\n" (body ++ (s.workspace.map fun w => "工作目录提示：" ++ w).toList)

/-! ## Compaction -/

/-- `compact_input`: the new items, and whether anything was folded. -/
def compactInput (serde : Serde) (items : List Value) (keepLast : ℕ) : List Value × Bool :=
  if items.length ≤ compactMinKeepItems then (items, false)
  else
    let splitAt := compactKeepSplit serde items keepLast
    if splitAt = 0 then (items, false)
    else
      let notice := messageFromText (summarizeDroppedItems (items.take splitAt))
      ((pruneOldToolOutputs serde (notice :: items.drop splitAt)).1, true)

/-- The part of `SanitizeStats` that the aggressive pass reads and writes. -/
structure SanitizeOutcome where
  body : Value
  openaiFamily : Bool
  locallyCompacted : Bool

/-- `sanitize_responses_request_aggressive`, over any `sanitize_responses_request`. -/
def sanitizeResponsesRequestAggressive (serde : Serde) (sanitize : String → Value → SanitizeOutcome)
    (path : String) (body : Value) : SanitizeOutcome :=
  let stats := sanitize path body
  if stats.openaiFamily then stats
  else
    match stats.body.getArray "input" with
    | none => stats
    | some items =>
      let compacted := compactInput serde items aggressiveCompactKeepLast
      { stats with
        body := stats.body.insert "input" (.array compacted.1)
        locallyCompacted := stats.locallyCompacted || compacted.2 }

end CodexRouter
