/-
# Flattened tool namespaces

Gemini takes no namespaces of tools.  `flatten_gemini_namespace_tools` of
`responses_compat.rs` sends every function under its qualified name, renames the calls
of the history with a map from qualified to sent names, and remembers for the response
which tool a sent name stands for.

A `HashMap` is the list of its insertions, the last one first.
-/
import CodexRouter.ToolNames
import CodexRouter.ToolSchemas

namespace CodexRouter.Gemini

open Text

/-! ## One tool -/

/-- `GeminiNamespaceTool`. -/
structure GeminiNamespaceTool where
  ns : String
  localName : String
  deriving DecidableEq, Repr

/-- The maps and the list that `flatten_gemini_tool_values` fills. -/
structure FlattenState where
  used : List String
  forward : List (String × String)
  restore : List (String × GeminiNamespaceTool)
  output : List Value

/-- Nothing flattened yet. -/
def FlattenState.empty : FlattenState := ⟨[], [], [], []⟩

/-- The type of a tool. -/
def toolType (object : Members) : String :=
  ((object.get "type").bind Value.asStr).getD "function"

/-- `gemini_tool_parameters_mut`, with what is done to the parameters. -/
def modifyToolParameters (f : Value → Value) (tool : Members) : Members :=
  if tool.containsKey "parameters" then tool.modify "parameters" f
  else tool.modify "function" (Value.modify "parameters" f)

/-- `CODEX_APP_CREATE_THREAD_GUIDANCE`. -/
def codexAppCreateThreadGuidance : String :=
  "调用前必须从最新 list_projects 结果原样复制 projectId，禁止猜测或改写 UUID。请严格遵循工具回包中的成功状态和 ID；clientThreadId 仅表示排队中的临时任务，不要当作真实 threadId 使用。"

/-- The guidance behind a description that does not mention `projectId`. -/
def withGuidance (object : Members) : Members :=
  match (object.get "description").bind Value.asStr with
  | some description =>
    if contains description "projectId" then object
    else
      object.insert "description" (.string (description ++ "\n" ++ codexAppCreateThreadGuidance))
  | none => object

/-- `append_codex_app_create_thread_guidance`. -/
def appendCodexAppCreateThreadGuidance (object : Members) (ns localName : String) : Members :=
  if eqIgnoreAsciiCase ns "mcp__codex_app" = false ∨ eqIgnoreAsciiCase localName "create_thread" = false then
    object
  else
    (withGuidance object).modify "function" fun
      | .object function => .object (withGuidance function)
      | v => v

/-- The tool that a sent name stands for. -/
def originalTool (ns localName fullName : String) : GeminiNamespaceTool :=
  if ns = "" then
    match stripPrefix fullName "mcp__codex_app__" with
    | some originalLocal => ⟨"mcp__codex_app", originalLocal⟩
    | none => ⟨"", localName⟩
  else ⟨ns, (stripPrefix localName (ns ++ "__")).getD localName⟩

/-- A function as it is sent. -/
def sentTool (object : Members) (original : GeminiNamespaceTool) (sentName : String) : Members :=
  let object := appendCodexAppCreateThreadGuidance object original.ns original.localName
  let object := (object.insert "type" (.string "function")).insert "name" (.string sentName)
  let object := object.modify "function" fun function => function.insert "name" (.string sentName)
  modifyToolParameters simplifyGeminiFunctionParameters ((object.remove "namespace").remove "tools")

section

variable (digest : HexDigest)

/-- `flattened_gemini_tool_name`. -/
def flattenedGeminiToolName (fullName : String) (used : List String) : String :=
  if fullName.length ≤ openaiCompatToolNameMax ∧ fullName ∉ used then fullName
  else if openaiCompatToolNameMax < fullName.length then
    shortenOpenaiCompatToolNameUnique digest fullName used
  else shortenToCharLen digest fullName openaiCompatToolNameMax used

/-- One tool that is no namespace; what is no function with a name stays as it is. -/
def flattenGeminiTool (ns : String) (state : FlattenState) (value : Value) : FlattenState :=
  match value with
  | .object object =>
    let localName := toolDeclaredName value
    if toolType object ≠ "function" ∧ toolType object ≠ "custom" ∨ localName = "" then
      { state with output := state.output ++ [value] }
    else
      let fullName := qualifyNamespaceToolName ns localName
      let sentName := flattenedGeminiToolName digest fullName state.used
      let original := originalTool ns localName fullName
      { used := state.used ++ [sentName]
        forward := (fullName, sentName) :: state.forward
        restore := if original.ns = "" then state.restore else (sentName, original) :: state.restore
        output := state.output ++ [.object (sentTool object original sentName)] }
  | value => { state with output := state.output ++ [value] }

end

/-! ## The tree of tools -/

section

variable {σ : Type} (leaf : String → σ → Value → σ)

mutual

/-- The recursion of `flatten_gemini_tool_values`: a namespace hands its tools down, under
the qualified name, and every other value is a leaf. -/
def walkTool : Value → String → σ → σ
  | .object object, ns, state =>
    if toolType object = "namespace" then
      walkChildren object
        (qualifyNamespaceToolName ns (((Members.get "name" object).bind Value.asStr).getD "")) state
    else leaf ns state (.object object)
  | value, ns, state => leaf ns state value
termination_by structural value => value

def walkTools : List Value → String → σ → σ
  | [], _, state => state
  | value :: values, ns, state => walkTools values ns (walkTool value ns state)
termination_by structural values => values

/-- The value of a member, if it is an array. -/
def walkMember : String × Value → String → σ → σ
  | (_, .array values), ns, state => walkTools values ns state
  | _, _, state => state
termination_by structural member => member

/-- The first member `tools`. -/
def walkChildren : List (String × Value) → String → σ → σ
  | [], _, state => state
  | member :: members, ns, state =>
    if member.1 = "tools" then walkMember member ns state else walkChildren members ns state
termination_by structural members => members

end

end

/-- `flatten_gemini_tool_values`. -/
def flattenGeminiToolValues (digest : HexDigest) (values : List Value) (ns : String)
    (state : FlattenState) : FlattenState :=
  walkTools (flattenGeminiTool digest) values ns state

/-- The leaves of a tree of tools from left to right, each with its namespace. -/
def toolLeaves (tools : List Value) (ns : String) : List (String × Value) :=
  walkTools (fun ns leaves value => leaves ++ [(ns, value)]) tools ns []

/-! ## The history -/

/-- A function of the history under its sent name. -/
def renameFunction (forward : List (String × String)) : Value → Value
  | .object function =>
    let name := ((Members.get "name" function).bind Value.asStr).getD ""
    match forward.lookup name with
    | some sentName =>
      if (Members.get "name" function).bind Value.asStr ≠ some sentName then
        .object (Members.insert "name" (.string sentName) function)
      else .object function
    | none => .object function
  | v => v

/-- A call of the history under its sent name. -/
def renameCall (forward : List (String × String)) (item : Members) : Members :=
  let kind := ((item.get "type").bind Value.asStr).getD ""
  if kind = "function_call" ∨ kind = "custom_tool_call" then
    let localName := ((item.get "name").bind Value.asStr).getD ""
    let ns := ((item.get "namespace").bind Value.asStr).getD ""
    match forward.lookup (qualifyNamespaceToolName ns localName) with
    | some sentName =>
      let item :=
        if (item.get "name").bind Value.asStr ≠ some sentName then
          item.insert "name" (.string sentName)
        else item
      item.remove "namespace"
    | none => item
  else item

/-- `flatten_gemini_history_item`. -/
def flattenGeminiHistoryItem (forward : List (String × String)) (item : Members) : Members :=
  let item := (renameCall forward item).modify "tool_calls" fun
    | .array calls => .array (calls.map (Value.modify "function" (renameFunction forward)))
    | v => v
  item.modify "function_call" (renameFunction forward)

/-- `flatten_gemini_history_tool_names`. -/
def flattenGeminiHistoryToolNames (body : Members) (forward : List (String × String)) : Members :=
  ["input", "messages"].foldl (fun body key => body.modify key fun
    | .array items => .array (items.map fun
      | .object item => .object (flattenGeminiHistoryItem forward item)
      | v => v)
    | v => v) body

/-- `flatten_gemini_namespace_tools`, with the map `GEMINI_NAMESPACE_RESTORE` it sets. -/
def flattenGeminiNamespaceTools (digest : HexDigest) (body : Members) :
    Members × List (String × GeminiNamespaceTool) :=
  match body.get "tools" with
  | none => (body, [])
  | some (.array values) =>
    let state := flattenGeminiToolValues digest values "" .empty
    let body := (body.remove "tools").insert "tools" (.array state.output)
    (flattenGeminiHistoryToolNames body state.forward, state.restore)
  | some tools => ((body.remove "tools").insert "tools" tools, [])

/-- `restore_gemini_namespace_tool`, with the two maps it reads. -/
def restoreGeminiNamespaceTool (geminiRestore : List (String × GeminiNamespaceTool))
    (toolNameRestore : List (String × String)) (name : String) : Option GeminiNamespaceTool :=
  (geminiRestore.lookup name).or
    ((toolNameRestore.lookup name).bind fun short => geminiRestore.lookup short)

end CodexRouter.Gemini
