/-
# Model identities

Which model ids name the same model.  `model_identity` of the source splits an
id into a provider and a normalized id; `recommended_model_display_name` gives
the name a model is shown under; two ids name the same model when all three
agree (`sameModelIdentity`).
-/
import CodexRouter.Base.Text

namespace CodexRouter

open Text

/-- `canonical_route_model_id`: the last path segment in lower case, with the
ChatGPT brand names folded onto the `gpt-` family. -/
def canonicalRouteModelId (modelId : String) : String :=
  let value := lastSegment '/' (toAsciiLowercase (trim modelId))
  let value := if value = "gpt-5.6" then "gpt-5.6-sol" else value
  match stripPrefix value "chatgpt-" with
  | some suffix => "gpt-" ++ suffix
  | none => value

/-! ## Display names -/

/-- A segment of a ChatGPT display name: its first letter in upper case, the
others in lower case. -/
def displaySegment (segment : String) : String :=
  match segment.toList with
  | [] => ""
  | c :: cs => String.ofList (c.toUpper :: cs.map Char.toLower)

/-- The display names of the known model families, in the order in which their
prefixes are tried. -/
def familyDisplayNames : List (String × String) :=
   [("claude-opus-5-fast", "Claude-Opus-5-Fast"), ("claude-opus-5", "Claude-Opus-5"),
    ("claude-sonnet-5", "Claude-Sonnet-5"), ("claude-fable-5", "Claude-Fable-5"),
    ("claude-opus-4-8-fast", "Claude-Opus-4.8-Fast"),
    ("claude-opus-4.8-fast", "Claude-Opus-4.8-Fast"), ("claude-opus-4-8", "Claude-Opus-4.8"),
    ("claude-opus-4.8", "Claude-Opus-4.8"), ("claude-opus-4-7-fast", "Claude-Opus-4.7-Fast"),
    ("claude-opus-4.7-fast", "Claude-Opus-4.7-Fast"), ("claude-opus-4-7", "Claude-Opus-4.7"),
    ("claude-opus-4.7", "Claude-Opus-4.7"), ("claude-opus-4-6", "Claude-Opus-4.6"),
    ("claude-opus-4.6", "Claude-Opus-4.6"), ("claude-sonnet-4-6", "Claude-Sonnet-4.6"),
    ("claude-sonnet-4.6", "Claude-Sonnet-4.6"), ("claude-opus-4-5", "Claude-Opus-4.5"),
    ("claude-opus-4.5", "Claude-Opus-4.5"), ("claude-sonnet-4-5", "Claude-Sonnet-4.5"),
    ("claude-sonnet-4.5", "Claude-Sonnet-4.5"), ("claude-haiku-4-5", "Claude-Haiku-4.5"),
    ("claude-haiku-4.5", "Claude-Haiku-4.5"), ("claude-opus-4", "Claude-Opus-4"),
    ("claude-sonnet-4", "Claude-Sonnet-4"), ("claude-haiku-4", "Claude-Haiku-4"),
    ("claude-4-opus", "Claude-Opus-4"), ("claude-4-sonnet", "Claude-Sonnet-4"),
    ("claude-4-haiku", "Claude-Haiku-4"), ("gemini-3-8-flash", "Gemini-3.8-Flash"),
    ("gemini-3.8-flash", "Gemini-3.8-Flash"), ("gemini-3-7-flash", "Gemini-3.7-Flash"),
    ("gemini-3.7-flash", "Gemini-3.7-Flash"), ("gemini-3-6-flash", "Gemini-3.6-Flash"),
    ("gemini-3.6-flash", "Gemini-3.6-Flash"), ("gemini-3-6-pro", "Gemini-3.6-Pro"),
    ("gemini-3.6-pro", "Gemini-3.6-Pro"), ("gemini-3-5-flash", "Gemini-3.5-Flash"),
    ("gemini-3.5-flash", "Gemini-3.5-Flash"), ("gemini-3-1-pro", "Gemini-3.1-Pro"),
    ("gemini-3.1-pro", "Gemini-3.1-Pro"),
    ("gemini-3-pro-image-preview", "Gemini-3-Pro-Image-Preview"),
    ("gemini-3-pro", "Gemini-3-Pro"), ("gemini-3-flash", "Gemini-3-Flash"),
    ("gemini-2-5-pro", "Gemini-2.5-Pro"), ("gemini-2.5-pro", "Gemini-2.5-Pro"),
    ("gemini-2-5-flash", "Gemini-2.5-Flash"), ("gemini-2.5-flash", "Gemini-2.5-Flash"),
    ("kimi-for-coding", "Kimi-For-Coding"), ("kimi-k2.7", "Kimi-K2.7-Code"),
    ("mimo-v2.5-pro", "MiMo-V2.5-Pro"), ("deepseek-v4-pro", "DeepSeek-V4-Pro"),
    ("deepseek-v4-flash", "DeepSeek-V4-Flash"), ("deepseek-v3.2", "DeepSeek-V3.2"),
    ("deepseek-v3.1", "DeepSeek-V3.1"), ("deepseek-v3", "DeepSeek-V3"),
    ("deepseek-r1", "DeepSeek-R1"), ("deepseek-reasoner", "DeepSeek-Reasoner"),
    ("deepseek-chat", "DeepSeek-Chat"), ("grok-4.6", "Grok-4.6"), ("grok-4.5", "Grok-4.5"),
    ("cursor-composer-2.5", "Composer-2.5"), ("composer-2.5", "Composer-2.5"),
    ("glm-5.3-flash", "GLM-5.3-Flash"), ("glm-5-3-flash", "GLM-5.3-Flash"),
    ("glm-5.3", "GLM-5.3"), ("glm-5-3", "GLM-5.3"), ("glm-5.2", "GLM-5.2"),
    ("glm-5-2", "GLM-5.2"), ("ark-code-latest", "Ark-Code-Latest"), ("ark-code", "Ark-Code"),
    ("doubao-seed-code", "Doubao-Seed-Code")]

/-- The display name of a `gpt-` id whose suffix starts with a digit. -/
def chatgptDisplayName (canonical : String) : Option String :=
  match stripPrefix canonical "gpt-" with
  | some suffix =>
    if (suffix.toList.head?.map isAsciiDigit).getD false then
      let segments := (split (fun c => c = '-' || c = '_') suffix).map displaySegment
      some ("ChatGPT-" ++ join "-" segments)
    else none
  | none => none

/-- `recommended_model_display_name`. -/
def recommendedModelDisplayName (modelId : String) : String :=
  let canonical := canonicalRouteModelId modelId
  match chatgptDisplayName canonical with
  | some name => name
  | none =>
    match familyDisplayNames.find? fun entry => startsWith canonical entry.1 with
    | some entry => entry.2
    | none =>
      if canonical = "k3" || startsWith canonical "k3-" || startsWith canonical "kimi-k3" then
        "Kimi-K3"
      else replace (lastSegment '/' (trim modelId)) "_" "-"

/-- `normalized_display_name`. -/
def normalizedDisplayName (value : String) : String :=
  String.ofList ((value.toList.filter isAsciiAlphanumeric).map Char.toLower)

/-! ## Identities -/

/-- `ModelIdentity`. -/
structure ModelIdentity where
  provider : String
  realId : String
  displayCandidate : String
  deriving DecidableEq

/-- The providers `model_identity` knows, in the order of the source: the
namespaces an id may start with, then the prefixes of its last segment. -/
def knownProviders : List (String × List String × List String) :=
  [("openai", ["openai/", "chatgpt/", "chatgpt-"], ["gpt-", "codex-"]),
    ("anthropic", ["anthropic/", "claude/"], ["claude-"]),
    ("google", ["google/", "gemini/"], ["gemini-"]),
    ("x-ai", ["x-ai/", "xai/", "grok/"], ["grok-"]),
    ("deepseek", ["deepseek/"], ["deepseek-"]),
    ("moonshot", ["moonshotai/", "moonshot/", "kimi/"], ["kimi-", "k3-"])]

/-- The provider cascade of `model_identity`. -/
def knownProvider (raw realId : String) : Option String :=
  (knownProviders.find? fun entry =>
    entry.2.1.any (startsWith raw) || entry.2.2.any (startsWith realId)
      || (entry.1 = "moonshot" && realId = "k3")).map Prod.fst

/-- All characters are digits, also in the empty text. -/
def isDigits (s : String) : Bool := s.toList.all isAsciiDigit

/-- `gemini-3-6-pro` and `gemini-3.6-pro` are one id. -/
def normalizeGoogleId (realId : String) : String :=
  match split (· = '-') realId with
  | family :: major :: minor :: part :: rest =>
    if family = "gemini" && isDigits major && isDigits minor then
      "gemini-" ++ major ++ "." ++ minor ++ "-" ++ join "-" (part :: rest)
    else realId
  | _ => realId

/-- `claude-opus-4-8` and `claude-opus-4.8` are one id. -/
def normalizeAnthropicId (realId : String) : String :=
  match split (· = '-') realId with
  | family :: tier :: major :: minor :: rest =>
    if family = "claude" && isDigits major && isDigits minor then
      let normalized := "claude-" ++ tier ++ "-" ++ major ++ "." ++ minor
      if rest = [] then normalized else normalized ++ "-" ++ join "-" rest
    else realId
  | _ => realId

/-- `model_identity`. -/
def modelIdentity (modelId : String) : ModelIdentity :=
  let raw := toAsciiLowercase (trim modelId)
  let realId := canonicalRouteModelId raw
  let displayCandidate := recommendedModelDisplayName modelId
  match knownProvider raw realId with
  | none =>
    let provider := match splitOnce '/' raw with
      | some (namespace', _) => "unknown-" ++ namespace'
      | none => "unknown"
    ⟨provider, realId, displayCandidate⟩
  | some provider =>
    let realId := if provider = "google" then normalizeGoogleId realId else realId
    let realId := if provider = "anthropic" then normalizeAnthropicId realId else realId
    ⟨provider, realId, displayCandidate⟩

/-- `model_identity_key`. -/
def modelIdentityKey (modelId : String) : String :=
  (modelIdentity modelId).provider ++ ":" ++ (modelIdentity modelId).realId

/-- `same_model_identity`. -/
def sameModelIdentity (left right : String) : Bool :=
  normalizedDisplayName (modelIdentity left).displayCandidate
      = normalizedDisplayName (modelIdentity right).displayCandidate
    && (modelIdentity left).provider = (modelIdentity right).provider
    && (modelIdentity left).realId = (modelIdentity right).realId

example : sameModelIdentity "anthropic/claude-opus-4-8" "Claude-Opus-4.8" = true := by
  decide +kernel

/-- Two ids name the same model when the three parts agree. -/
theorem sameModelIdentity_iff {left right : String} :
    sameModelIdentity left right = true
      ↔ normalizedDisplayName (modelIdentity left).displayCandidate
          = normalizedDisplayName (modelIdentity right).displayCandidate
        ∧ (modelIdentity left).provider = (modelIdentity right).provider
        ∧ (modelIdentity left).realId = (modelIdentity right).realId := by
  rw [sameModelIdentity, Bool.and_eq_true, Bool.and_eq_true, decide_eq_true_iff,
    decide_eq_true_iff, decide_eq_true_iff, and_assoc]

end CodexRouter
