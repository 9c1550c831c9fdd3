/-
# The request object under `sanitize_responses_request`

What the sanitizer does to the members of a request, in the order of the source:
which members it removes, and which of them get new contents.  The functions
that compute the contents (of `tools`, `input`, `messages` and `instructions`)
are collected in `Rewriters` and stay parameters here, each with exactly the
data the source gives it; a result about the request object holds for all of
them.

The sanitizer writes no other member.  In particular it never brings back a
continuation handle that is gone (`mem_sanitizeResponsesRequest`).
-/
import CodexRouter.LocalCompaction

namespace CodexRouter

open Text

/-! ## Model families -/

/-- The last path segment of a model id, trimmed and without leading tildes. -/
def modelSlugLower (model : String) : String :=
  toAsciiLowercase (lastSegment '/' (trimStartMatches (· = '~') (trim model)))

/-- `is_openai_family_model`. -/
def isOpenaiFamilyModel (model : String) : Bool :=
  ["gpt-", "chatgpt-", "codex-", "o1", "o3", "o4", "o5"].any (startsWith (modelSlugLower model))

/-- `is_chat_completions_agent_model`. -/
def isChatCompletionsAgentModel (model : String) : Bool :=
  let slug := toAsciiLowercase (trim model)
  contains slug "kimi" || contains slug "k3"

/-- `is_xai_family_model`. -/
def isXaiFamilyModel (model : String) : Bool :=
  contains (modelSlugLower model) "grok" || startsWith (modelSlugLower model) "grok-"

/-- `is_gemini_family_model`. -/
def isGeminiFamilyModel (model : String) : Bool := contains (modelSlugLower model) "gemini"

/-! ## Paths and markers -/

/-- The part of a path in front of the query. -/
def pathOf (path : String) : String := ((split (· = '?') path).head?).getD path

/-- `is_compact_path`. -/
def isCompactPath (path : String) : Bool :=
  endsWith (pathOf path) "/compact" || endsWith (pathOf path) "/responses/compact"

/-- `text_looks_like_compact_handoff`. -/
def textLooksLikeCompactHandoff (text : String) : Bool :=
  contains text "【本地压缩摘要】" || contains text "【自动压缩后续跑】"
    || contains text
      "Another language model started to solve this problem and produced a summary"
    || contains text "Here is the summary produced by the other language model"

/-- `item_is_compact_replay_marker`. -/
def itemIsCompactReplayMarker (item : Value) : Bool :=
  itemType item ∈ ["compaction", "compact"] || textLooksLikeCompactHandoff (itemText item)

/-- `is_local_compact_id`. -/
def isLocalCompactId (value : String) : Bool := startsWith (trim value) "cmp_local_"

/-- `GEMINI_REQUEST_METADATA_KEYS`. -/
def geminiRequestMetadataKeys : List String :=
  ["userAgent", "requestType", "requestId", "sessionId", "safetySettings", "systemInstruction",
    "toolConfig"]

/-- `THIRD_PARTY_ENVELOPE_KEYS`. -/
def thirdPartyEnvelopeKeys : List String :=
  ["client_metadata", "prompt_cache_key", "metadata", "userAgent", "requestType", "requestId",
    "sessionId", "service_tier", "truncation", "safety_identifier", "prompt_cache_retention"]

/-! ## Members -/

/-- Remove several members. -/
def removeKeys (keys : List String) (m : Members) : Members :=
  keys.foldl (fun m k => Members.remove k m) m

/-- Rewrite the elements of a member that is an array. -/
def modifyArray (k : String) (f : List Value → List Value) (m : Members) : Members :=
  Members.modify k (fun v => match v with
    | .array items => .array (f items)
    | v => v) m

/-- Rewrite the members of a member that is an object. -/
def modifyObject (k : String) (f : Members → Members) (m : Members) : Members :=
  Members.modify k (fun v => match v with
    | .object entries => .object (f entries)
    | v => v) m

/-- A string member, or the empty string. -/
def strMember (k : String) (m : Members) : String :=
  ((Members.get k m).bind Value.asStr).getD ""

/-- An array member. -/
def arrayMember (k : String) (m : Members) : Option (List Value) :=
  (Members.get k m).bind Value.asArray

/-! ## The stages -/

/-- The functions that compute contents; the sanitizer below decides when they
run and which member they write. -/
structure Rewriters where
  /-- `repair_openai_input_function_outputs`. -/
  repairInput : List Value → List Value
  /-- `repair_openai_chat_tool_messages`. -/
  repairMessages : List Value → List Value
  /-- `inject_third_party_identity`: new instructions for a model and the old ones. -/
  instructions : String → String → Option String
  /-- `normalize_request_tools`. -/
  normalizeTools : List Value → List Value
  /-- `flatten_gemini_tool_values`. -/
  flattenTools : List Value → List Value
  /-- `flatten_gemini_history_item`, for the tools in front. -/
  flattenHistory : List Value → List Value → List Value
  /-- `convert_native_shell_tools`. -/
  convertShellTools : List Value → List Value
  /-- `tools_are_degraded`, for a tools array. -/
  toolsAreDegraded : List Value → Bool
  /-- `simplify_chat_agent_tools`. -/
  simplifyTools : Option (List Value) → List Value
  /-- `cap_grok_expanded_tools`, then `sanitize_grok_tool_list`. -/
  grokTools : List Value → List Value
  /-- `sanitize_third_party_tool_schemas`. -/
  toolSchemas : List Value → List Value
  /-- `clamp_openai_compat_tool_names`: the new tools, then the new input. -/
  clampTools : Members → List Value → List Value
  clampInput : Members → List Value → List Value
  /-- The loop over the input, with compaction and history normalization. -/
  rewriteInput : String → Members → List Value → List Value
  /-- `ensure_chat_tool_messages`, then `prune_old_tool_outputs`. -/
  rewriteMessages : List Value → List Value

/-- `normalize_post_compact_replay`: keep the input from the last marker on, and
drop the handles that go with what was in front. -/
def normalizePostCompactReplay (m : Members) : Members :=
  match arrayMember "input" m with
  | none => m
  | some items =>
    let afterMarker := (items.reverse.takeWhile fun item => !itemIsCompactReplayMarker item).reverse
    if afterMarker.length = items.length then m
    else
      let compactionIndex := items.length - afterMarker.length - 1
      removeKeys ["previous_response_id", "conversation_id", "conversation"]
        (modifyArray "input" (List.drop compactionIndex) m)

/-- `strip_include_encrypted`. -/
def stripIncludeEncrypted (m : Members) : Members :=
  match arrayMember "include" m with
  | none => m
  | some items =>
    let kept := items.filter fun item =>
      ((item.asStr).map fun v => !eqIgnoreAsciiCase v "reasoning.encrypted_content").getD true
    if kept = [] then Members.remove "include" m
    else modifyArray "include" (fun _ => kept) m

/-- `strip_gemini_server_continuation`. -/
def stripGeminiServerContinuation (m : Members) : Members :=
  removeKeys ["previous_response_id", "conversation_id", "conversation"] m

/-- `strip_unusable_third_party_continuation`. -/
def stripUnusableThirdPartyContinuation (m : Members) : Members :=
  let replay := ((arrayMember "input" m).map fun items =>
    items.any itemIsCompactReplayMarker).getD false
  if isLocalCompactId (strMember "previous_response_id" m)
      || isLocalCompactId (strMember "conversation_id" m) || replay then
    removeKeys ["previous_response_id", "conversation_id", "conversation"] m
  else m

/-- The `text` member of a Grok request loses its verbosity, and goes when
nothing else is in it. -/
def sanitizeGrokText (m : Members) : Members :=
  match (Members.get "text" m).bind Value.asObject with
  | none => m
  | some text =>
    if Members.remove "verbosity" text = [] then Members.remove "text" m
    else modifyObject "text" (fun _ => Members.remove "verbosity" text) m

/-- `sanitize_grok_request`. -/
def sanitizeGrokRequest (r : Rewriters) (m : Members) : Members :=
  modifyObject "reasoning" (removeKeys ["summary", "generate_summary"])
    (sanitizeGrokText (modifyArray "tools" r.grokTools (Members.remove "include" m)))

/-- `inject_third_party_identity`. -/
def injectThirdPartyIdentity (r : Rewriters) (model : String) (m : Members) : Members :=
  match r.instructions model (strMember "instructions" m) with
  | some text => Members.insert "instructions" (.string text) m
  | none => m

/-- `flatten_gemini_namespace_tools`. -/
def flattenGeminiNamespaceTools (r : Rewriters) (m : Members) : Members :=
  match arrayMember "tools" m with
  | none => m
  | some tools =>
    modifyArray "messages" (r.flattenHistory tools)
      (modifyArray "input" (r.flattenHistory tools) (modifyArray "tools" r.flattenTools m))

/-- `simplify_chat_agent_tools`. -/
def simplifyChatAgentTools (r : Rewriters) (m : Members) : Members :=
  Members.insert "tools" (.array (r.simplifyTools (arrayMember "tools" m))) m

/-- The shell tools of a chat model, or of a request whose tools are degraded. -/
def simplifyAgentTools (r : Rewriters) (model : String) (m : Members) : Members :=
  if isChatCompletionsAgentModel model then
    simplifyChatAgentTools r (modifyArray "tools" r.convertShellTools m)
  else if ((arrayMember "tools" m).map r.toolsAreDegraded).getD false then
    simplifyChatAgentTools r m
  else m

/-- `sanitize_third_party_tool_schemas` on the tools and on the additional tools
of the input. -/
def sanitizeToolSchemas (r : Rewriters) (m : Members) : Members :=
  modifyArray "input" (List.map fun item =>
    if item.getStr "type" = some "additional_tools" then
      item.modify "tools" fun v => match v with
        | .array tools => .array (r.toolSchemas tools)
        | v => v
    else item) (modifyArray "tools" r.toolSchemas m)

/-- `clamp_openai_compat_tool_names`. -/
def clampOpenaiCompatToolNames (r : Rewriters) (m : Members) : Members :=
  modifyArray "input" (r.clampInput m) (modifyArray "tools" (r.clampTools m) m)

/-- `strip_gemini_server_continuation` and `strip_gemini_request_metadata_keys`,
for a Gemini model. -/
def sanitizeGeminiEnvelope (model : String) (m : Members) : Members :=
  if isGeminiFamilyModel model then
    removeKeys geminiRequestMetadataKeys (stripGeminiServerContinuation m)
  else m

/-- `flatten_gemini_namespace_tools`, for a Gemini model. -/
def sanitizeGeminiTools (r : Rewriters) (model : String) (m : Members) : Members :=
  if isGeminiFamilyModel model then flattenGeminiNamespaceTools r m else m

/-- `sanitize_grok_request`, for a Grok model. -/
def sanitizeGrokTools (r : Rewriters) (model : String) (m : Members) : Members :=
  if contains (toAsciiLowercase model) "grok" then sanitizeGrokRequest r m else m

/-- `strip_third_party_request_envelope`. -/
def stripThirdPartyRequestEnvelope (m : Members) : Members := removeKeys thirdPartyEnvelopeKeys m

/-- `normalize_request_tools`. -/
def normalizeRequestTools (r : Rewriters) (m : Members) : Members :=
  modifyArray "tools" r.normalizeTools m

/-- `repair_openai_function_call_outputs`. -/
def repairOpenaiFunctionCallOutputs (r : Rewriters) (m : Members) : Members :=
  modifyArray "messages" r.repairMessages (modifyArray "input" r.repairInput m)

/-- `normalize_post_compact_replay`, except on a compaction path. -/
def normalizeReplay (path : String) (m : Members) : Members :=
  if isCompactPath path then m else normalizePostCompactReplay m

/-- The loop over the input. -/
def sanitizeInput (r : Rewriters) (path : String) (m : Members) : Members :=
  modifyArray "input" (r.rewriteInput path m) m

/-- The chat messages. -/
def sanitizeMessages (r : Rewriters) (m : Members) : Members :=
  modifyArray "messages" r.rewriteMessages m

/-- `sanitize_responses_request` for a model of the OpenAI family. -/
def sanitizeOpenaiMembers (r : Rewriters) (model path : String) (m : Members) : Members :=
  sanitizeInput r path (sanitizeGeminiEnvelope model
    (normalizeReplay path (repairOpenaiFunctionCallOutputs r m)))

/-- What happens to the envelope of a third-party request. -/
def sanitizeThirdPartyEnvelope (model path : String) (m : Members) : Members :=
  stripUnusableThirdPartyContinuation (stripThirdPartyRequestEnvelope
    (sanitizeGeminiEnvelope model (stripIncludeEncrypted (normalizeReplay path m))))

/-- What happens to the tools of a third-party request. -/
def sanitizeThirdPartyTools (r : Rewriters) (model : String) (m : Members) : Members :=
  clampOpenaiCompatToolNames r (sanitizeToolSchemas r (sanitizeGrokTools r model
    (simplifyAgentTools r model (sanitizeGeminiTools r model
      (normalizeRequestTools r (injectThirdPartyIdentity r model m))))))

/-- `sanitize_responses_request` on the members of the request. -/
def sanitizeMembers (r : Rewriters) (path : String) (m : Members) : Members :=
  let model := strMember "model" m
  if isOpenaiFamilyModel model then sanitizeOpenaiMembers r model path m
  else
    sanitizeMessages r (sanitizeInput r path
      (sanitizeThirdPartyTools r model (sanitizeThirdPartyEnvelope model path m)))

/-- `sanitize_responses_request`, without its counters. -/
def sanitizeResponsesRequest (r : Rewriters) (path : String) : Value → Value
  | .object m => .object (sanitizeMembers r path m)
  | body => body

/-! ## Handles do not come back -/

/-- The members that name a conversation kept by a provider. -/
def handleKeys : List String := ["previous_response_id", "conversation_id"]

/-- Every handle of `m'` was one of `m`. -/
def HandlesFrom (m m' : Members) : Prop :=
  ∀ k ∈ handleKeys, ∀ v, Members.get k m' = some v → Members.get k m = some v

theorem HandlesFrom.refl (m : Members) : HandlesFrom m m := fun _ _ _ h => h

theorem HandlesFrom.trans {a b c : Members} (h : HandlesFrom a b) (h' : HandlesFrom b c) :
    HandlesFrom a c := fun k hk v hv => h k hk v (h' k hk v hv)

theorem handlesFrom_remove (k : String) (m : Members) : HandlesFrom m (Members.remove k m) := by
  intro k' _ v h
  by_cases hk : k' = k
  · subst hk
    simp at h
  · rwa [Members.get_remove_ne hk] at h

theorem handlesFrom_removeKeys (keys : List String) (m : Members) :
    HandlesFrom m (removeKeys keys m) := by
  induction keys generalizing m with
  | nil => exact HandlesFrom.refl m
  | cons k keys ih => exact (handlesFrom_remove k m).trans (ih _)

theorem handlesFrom_modify {k : String} (hk : k ∉ handleKeys) (f : Value → Value) (m : Members) :
    HandlesFrom m (Members.modify k f m) := by
  intro k' hk' v h
  have hne : k' ≠ k := fun h => hk (h ▸ hk')
  rwa [Members.get_modify_ne hne] at h

theorem handlesFrom_insert {k : String} (hk : k ∉ handleKeys) (x : Value) (m : Members) :
    HandlesFrom m (Members.insert k x m) := by
  intro k' hk' v h
  have hne : k' ≠ k := fun h => hk (h ▸ hk')
  rwa [Members.get_insert_ne hne] at h

theorem handlesFrom_modifyArray {k : String} (hk : k ∉ handleKeys) (f : List Value → List Value)
    (m : Members) : HandlesFrom m (modifyArray k f m) :=
  handlesFrom_modify hk _ m

theorem handlesFrom_ite {c : Prop} [Decidable c] {m a b : Members} (ha : HandlesFrom m a)
    (hb : HandlesFrom m b) : HandlesFrom m (if c then a else b) := by
  split
  · exact ha
  · exact hb

theorem handlesFrom_normalizeReplay (path : String) (m : Members) :
    HandlesFrom m (normalizeReplay path m) := by
  refine handlesFrom_ite (HandlesFrom.refl m) ?_
  unfold normalizePostCompactReplay
  split
  · exact HandlesFrom.refl m
  · exact handlesFrom_ite (HandlesFrom.refl m)
      ((handlesFrom_modifyArray (by decide) _ m).trans (handlesFrom_removeKeys _ _))

theorem handlesFrom_stripIncludeEncrypted (m : Members) :
    HandlesFrom m (stripIncludeEncrypted m) := by
  unfold stripIncludeEncrypted
  split
  · exact HandlesFrom.refl m
  · exact handlesFrom_ite (handlesFrom_remove _ m) (handlesFrom_modifyArray (by decide) _ m)

theorem handlesFrom_sanitizeGeminiEnvelope (model : String) (m : Members) :
    HandlesFrom m (sanitizeGeminiEnvelope model m) :=
  handlesFrom_ite ((handlesFrom_removeKeys _ m).trans (handlesFrom_removeKeys _ _))
    (HandlesFrom.refl m)

theorem handlesFrom_stripThirdPartyRequestEnvelope (m : Members) :
    HandlesFrom m (stripThirdPartyRequestEnvelope m) :=
  handlesFrom_removeKeys _ m

theorem handlesFrom_stripUnusableThirdPartyContinuation (m : Members) :
    HandlesFrom m (stripUnusableThirdPartyContinuation m) := by
  unfold stripUnusableThirdPartyContinuation
  exact handlesFrom_ite (handlesFrom_removeKeys _ m) (HandlesFrom.refl m)

theorem handlesFrom_sanitizeThirdPartyEnvelope (model path : String) (m : Members) :
    HandlesFrom m (sanitizeThirdPartyEnvelope model path m) := by
  unfold sanitizeThirdPartyEnvelope
  refine (handlesFrom_normalizeReplay path m).trans ?_
  refine (handlesFrom_stripIncludeEncrypted _).trans ?_
  refine (handlesFrom_sanitizeGeminiEnvelope model _).trans ?_
  refine (handlesFrom_stripThirdPartyRequestEnvelope _).trans ?_
  exact handlesFrom_stripUnusableThirdPartyContinuation _

theorem handlesFrom_injectThirdPartyIdentity (r : Rewriters) (model : String) (m : Members) :
    HandlesFrom m (injectThirdPartyIdentity r model m) := by
  unfold injectThirdPartyIdentity
  split
  · exact handlesFrom_insert (by decide) _ m
  · exact HandlesFrom.refl m

theorem handlesFrom_sanitizeGeminiTools (r : Rewriters) (model : String) (m : Members) :
    HandlesFrom m (sanitizeGeminiTools r model m) := by
  refine handlesFrom_ite ?_ (HandlesFrom.refl m)
  unfold flattenGeminiNamespaceTools
  split
  · exact HandlesFrom.refl m
  · exact (handlesFrom_modifyArray (by decide) _ m).trans
      ((handlesFrom_modifyArray (by decide) _ _).trans (handlesFrom_modifyArray (by decide) _ _))

theorem handlesFrom_simplifyAgentTools (r : Rewriters) (model : String) (m : Members) :
    HandlesFrom m (simplifyAgentTools r model m) :=
  handlesFrom_ite
    ((handlesFrom_modifyArray (by decide) _ m).trans (handlesFrom_insert (by decide) _ _))
    (handlesFrom_ite (handlesFrom_insert (by decide) _ m) (HandlesFrom.refl m))

theorem handlesFrom_sanitizeGrokText (m : Members) : HandlesFrom m (sanitizeGrokText m) := by
  unfold sanitizeGrokText
  split
  · exact HandlesFrom.refl m
  · exact handlesFrom_ite (handlesFrom_remove _ m) (handlesFrom_modify (by decide) _ m)

theorem handlesFrom_sanitizeGrokTools (r : Rewriters) (model : String) (m : Members) :
    HandlesFrom m (sanitizeGrokTools r model m) := by
  refine handlesFrom_ite ?_ (HandlesFrom.refl m)
  unfold sanitizeGrokRequest
  refine (handlesFrom_remove "include" m).trans ?_
  refine (handlesFrom_modifyArray (k := "tools") (by decide) r.grokTools _).trans ?_
  exact (handlesFrom_sanitizeGrokText _).trans (handlesFrom_modify (by decide) _ _)

theorem handlesFrom_sanitizeToolSchemas (r : Rewriters) (m : Members) :
    HandlesFrom m (sanitizeToolSchemas r m) := by
  unfold sanitizeToolSchemas
  exact (handlesFrom_modifyArray (by decide) _ m).trans (handlesFrom_modifyArray (by decide) _ _)

theorem handlesFrom_sanitizeThirdPartyTools (r : Rewriters) (model : String) (m : Members) :
    HandlesFrom m (sanitizeThirdPartyTools r model m) := by
  unfold sanitizeThirdPartyTools
  refine (handlesFrom_injectThirdPartyIdentity r model m).trans ?_
  refine (handlesFrom_modifyArray (k := "tools") (by decide) r.normalizeTools _).trans ?_
  refine (handlesFrom_sanitizeGeminiTools r model _).trans ?_
  refine (handlesFrom_simplifyAgentTools r model _).trans ?_
  refine (handlesFrom_sanitizeGrokTools r model _).trans ?_
  refine (handlesFrom_sanitizeToolSchemas r _).trans ?_
  unfold clampOpenaiCompatToolNames
  exact (handlesFrom_modifyArray (by decide) _ _).trans (handlesFrom_modifyArray (by decide) _ _)

theorem handlesFrom_sanitizeOpenaiMembers (r : Rewriters) (model path : String) (m : Members) :
    HandlesFrom m (sanitizeOpenaiMembers r model path m) := by
  unfold sanitizeOpenaiMembers repairOpenaiFunctionCallOutputs
  refine (handlesFrom_modifyArray (k := "input") (by decide) r.repairInput m).trans ?_
  refine (handlesFrom_modifyArray (k := "messages") (by decide) r.repairMessages _).trans ?_
  refine (handlesFrom_normalizeReplay path _).trans ?_
  refine (handlesFrom_sanitizeGeminiEnvelope model _).trans ?_
  unfold sanitizeInput
  exact handlesFrom_modifyArray (by decide) _ _

/-- **The sanitizer adds no handle.** -/
theorem handlesFrom_sanitizeMembers (r : Rewriters) (path : String) (m : Members) :
    HandlesFrom m (sanitizeMembers r path m) := by
  unfold sanitizeMembers
  generalize strMember "model" m = model
  refine handlesFrom_ite (handlesFrom_sanitizeOpenaiMembers r model path m) ?_
  refine (handlesFrom_sanitizeThirdPartyEnvelope model path m).trans ?_
  refine (handlesFrom_sanitizeThirdPartyTools r model _).trans ?_
  unfold sanitizeMessages sanitizeInput
  exact (handlesFrom_modifyArray (by decide) _ _).trans (handlesFrom_modifyArray (by decide) _ _)

end CodexRouter
