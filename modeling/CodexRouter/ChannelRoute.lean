/-
# Channel classification and fallback eligibility

`classify_channel_route` reads off a card which vendor it belongs to, how it is
paid for and whether another channel may stand in for it;
`is_eligible_oauth_api_fallback` decides which API-key channel may stand in for
an OAuth account.

What the code takes from its crates and from the Unicode tables is the parameter
`Libs`.
-/
import CodexRouter.Base.Json
import CodexRouter.RouterConfig

namespace CodexRouter

open Text

/-- The parts of the crates the routing code calls. -/
structure Libs where
  /-- `serde_json`. -/
  serde : Serde
  /-- `url::Url::parse`, with the host (empty if there is none) and the path. -/
  parseUrl : String → Option (String × String)
  /-- The SHA-256 digest of the text's bytes, in lower-case hexadecimal. -/
  sha256 : String → String
  /-- `char::is_alphanumeric`, a Unicode class. -/
  isAlphanumeric : Char → Bool
  /-- `str::to_lowercase`, the Unicode mapping. -/
  toLowercase : String → String

/-- The libraries on the closed examples: `{}` is the only JSON text, a URL is
split at its first slashes, and nothing is hashed. -/
def plainLibs : Libs where
  serde := ⟨fun raw => if raw = "\x7b\x7d" then some (.object []) else none, Serde.print⟩
  parseUrl url :=
    (stripPrefix url "https://").map fun rest =>
      match splitOnce '/' rest with
      | some (host, path) => (host, "/" ++ path)
      | none => (rest, "/")
  sha256 _ := ""
  isAlphanumeric := isAsciiAlphanumeric
  toLowercase := toAsciiLowercase

/-- `trim().trim_end_matches('/')`. -/
def trimBaseUrl (baseUrl : String) : String := trimEndMatches (· = '/') (trim baseUrl)

section

variable (libs : Libs)

/-- `extra_object`. -/
def extraObject (raw : String) : Members :=
  ((libs.serde.fromStr raw).bind Value.asObject).getD []

/-- `endpoint_host_path`. -/
def endpointHostPath (baseUrl : String) : String × String :=
  match libs.parseUrl (trim baseUrl) with
  | some (host, path) => (toAsciiLowercase host, toAsciiLowercase path)
  | none => ("", "")

end

/-- `looks_like_sub2api_endpoint`. -/
def looksLikeSub2apiEndpoint (baseUrl : String) : Bool :=
  let lower := toAsciiLowercase (trim baseUrl)
  startsWith lower "sub2api" || contains lower "127.0.0.1" || contains lower "localhost"

/-- `is_coding_plan_endpoint`. -/
def isCodingPlanEndpoint (host path : String) : Bool :=
  (host = "api.kimi.com" && startsWith path "/coding")
    || (host = "api.moonshot.ai" && startsWith path "/coding")
    || (endsWith host ".volces.com"
      && (startsWith path "/api/coding" || startsWith path "/api/plan"))

/-- `is_official_api_host`. -/
def isOfficialApiHost (host : String) : Bool :=
  host ∈ ["api.openai.com", "api.anthropic.com", "api.deepseek.com", "api.kimi.com",
      "api.moonshot.ai", "api.moonshot.cn", "generativelanguage.googleapis.com", "api.x.ai"]
    || (endsWith host ".volces.com" && host ≠ "")

/-- `ChannelSourceType`. -/
inductive ChannelSourceType where
  | subscription
  | codingPlan
  | officialApi
  | relay
  deriving DecidableEq, Repr

/-- `ChannelSourceType::parse`. -/
def ChannelSourceType.parse (value : String) : Option ChannelSourceType :=
  [("subscription", subscription), ("coding_plan", codingPlan), ("official_api", officialApi),
    ("relay", relay)].lookup (toAsciiLowercase (trim value))

/-- The vendor of a platform name. -/
def platformVendor (platform : String) : String :=
  if platform ∈ ["openai", "chatgpt"] then "openai"
  else if platform ∈ ["grok", "xai", "x-ai"] then "x-ai"
  else if platform ∈ ["gemini", "antigravity", "google"] then "google"
  else if platform ∈ ["anthropic", "claude"] then "anthropic"
  else platform

/-- The vendor of a known host. -/
def hostVendor (host : String) : Option String :=
  if host = "api.430123.xyz" || endsWith host ".430123.xyz" then some "chiral"
  else if host = "openrouter.ai" || endsWith host ".openrouter.ai" then some "openrouter"
  else if endsWith host ".volces.com" then some "volcengine"
  else
    [("api.kimi.com", "moonshot"), ("api.moonshot.ai", "moonshot"),
      ("api.moonshot.cn", "moonshot"), ("api.deepseek.com", "deepseek"),
      ("api.anthropic.com", "anthropic"), ("api.openai.com", "openai"),
      ("generativelanguage.googleapis.com", "google"), ("api.x.ai", "x-ai")].lookup host

/-- `channel_vendor`. -/
def channelVendor (modelId host oauthPlatform : String) (sourceType : ChannelSourceType) :
    String :=
  let platform := toAsciiLowercase (trim oauthPlatform)
  if platform ≠ "" then platformVendor platform
  else
    match hostVendor host with
    | some vendor => vendor
    | none =>
      let provider := (modelIdentity modelId).provider
      if !startsWith provider "unknown" then provider
      else if sourceType = .relay then "relay" else provider

/-- `ChannelRouteProfile`, the part that decides eligibility. -/
structure ChannelRouteProfile where
  vendor : String
  sourceType : ChannelSourceType
  allowFallback : Bool
  deriving DecidableEq, Repr

/-- The `source_type` of `classify_channel_route`. -/
def channelSourceType (model : ModelConfig) (extra : Members) (host path : String) :
    ChannelSourceType :=
  let explicitSource :=
    ((extra.get "codex_router_channel_kind").bind Value.asStr).bind ChannelSourceType.parse
  if model.source = "oauth" then .subscription
  else
    match explicitSource with
    | some kind => kind
    | none =>
      if isCodingPlanEndpoint host path then .codingPlan
      else if (isOfficialApiHost host && !endsWith host ".volces.com")
          || (endsWith host ".volces.com" && startsWith path "/api/v3") then .officialApi
      else if host = "" && looksLikeSub2apiEndpoint model.baseUrl then .subscription
      else .relay

/-- `classify_channel_route`. -/
def classifyChannelRoute (libs : Libs) (model : ModelConfig) : ChannelRouteProfile :=
  let extra := extraObject libs model.extra
  let (host, path) := endpointHostPath libs model.baseUrl
  let sourceType := channelSourceType model extra host path
  { vendor :=
      ((((extra.get "codex_router_vendor").bind Value.asStr).map trim).filter (· ≠ "")).getD
        (channelVendor model.model host model.oauthPlatform sourceType)
    sourceType := sourceType
    allowFallback :=
      ((extra.get "allow_fallback").bind Value.asBool).getD
        (sourceType ≠ .subscription && sourceType ≠ .codingPlan) }

/-- `is_same_vendor_payg_fallback`. -/
def isSameVendorPaygFallback (libs : Libs) (source candidate : ModelConfig) : Bool :=
  let sourceProfile := classifyChannelRoute libs source
  let candidateProfile := classifyChannelRoute libs candidate
  !sourceProfile.allowFallback && candidateProfile.sourceType = .officialApi
    && sourceProfile.vendor = candidateProfile.vendor

/-- `fallback_channel_key`. -/
def fallbackChannelKey (modelId baseUrl : String) : String :=
  canonicalRouteModelId modelId ++ "|" ++ toAsciiLowercase (trimBaseUrl baseUrl)

/-- `is_fallback_channel_selected`. -/
def isFallbackChannelSelected (cfg : RouterConfig) (candidate : ModelConfig) : Bool :=
  match cfg.fallbackChannelSelections.lookup (canonicalRouteModelId candidate.model) with
  | none => true
  | some selected =>
    selected.any fun item =>
      eqIgnoreAsciiCase item (fallbackChannelKey candidate.model candidate.baseUrl)

/-- `is_eligible_oauth_api_fallback`. -/
def isEligibleOauthApiFallback (libs : Libs) (cfg : RouterConfig)
    (source candidate : ModelConfig) : Bool :=
  if modelRoutePolicy cfg source.model = .subscriptionOnly
      || modelRoutePolicy cfg candidate.model = .subscriptionOnly then false
  else if candidate.source = "oauth" || !isFallbackChannelSelected cfg candidate then false
  else if (cfg.fallbackChannelSelections.lookup (canonicalRouteModelId candidate.model)).isSome
    then true
  else !isSameVendorPaygFallback libs source candidate

/-- A card under `subscription_only` never stands in for an account. -/
theorem policy_of_isEligible {libs : Libs} {cfg : RouterConfig} {source candidate : ModelConfig}
    (h : isEligibleOauthApiFallback libs cfg source candidate = true) :
    modelRoutePolicy cfg source.model ≠ .subscriptionOnly
      ∧ modelRoutePolicy cfg candidate.model ≠ .subscriptionOnly := by
  rw [isEligibleOauthApiFallback] at h
  by_cases hs : modelRoutePolicy cfg source.model = .subscriptionOnly
  · simp [hs] at h
  by_cases hc : modelRoutePolicy cfg candidate.model = .subscriptionOnly
  · simp [hc] at h
  exact ⟨hs, hc⟩

/-- An account never stands in for an account. -/
theorem source_of_isEligible {libs : Libs} {cfg : RouterConfig} {source candidate : ModelConfig}
    (h : isEligibleOauthApiFallback libs cfg source candidate = true) :
    candidate.source ≠ "oauth" := by
  rw [isEligibleOauthApiFallback] at h
  rintro hc
  simp [hc] at h

end CodexRouter
