/-
# The configuration of Codex

Router writes its provider into a `config.toml` of Codex: into the one of the system layer, which it
marks with a comment line and takes itself out of again (`removeCodexSystemBindingFrom`), and into the
one of the user, where a provider without a `model_provider` keeps old conversations loadable
(`preserveRouterProviderForHistory`).

A text is the document that it parses to, with the marker line beside it: `toml_edit` keeps what a
document says when it parses and prints.
-/
import CodexRouter.Base.Text
import CodexRouter.Base.Toml

namespace CodexRouter

open Text

/-- The text of a `config.toml`: whether it has a line `SYSTEM_BINDING_MARKER`, and the document that
it is, if it is one. -/
structure ConfigText where
  marked : Bool
  document : Option TomlTable

/-- The document of a file; a missing one is empty. -/
def documentOf (file : Option ConfigText) : TomlTable := (file.bind ConfigText.document).getD []

/-- What `Url::parse` gives. -/
structure LocalUrl where
  scheme : String
  hostStr : Option String
  asStr : String
  deriving DecidableEq, Repr

/-! ## The provider -/

/-- `LEGAL_PROVIDER_NAME`. -/
def legalProviderName : String := "Codex-Router"

/-- `LEGAL_REQUIRES_OPENAI_AUTH`. -/
def legalRequiresOpenaiAuth : Bool := false

/-- `legal_provider_identity`. -/
def legalProviderIdentity : Bool × Bool := (legalRequiresOpenaiAuth, false)

/-- `legal_codex_provider_identity`. -/
def legalCodexProviderIdentity (_requireOpenaiAuth _displayOpenaiProvider : Bool) : Bool × Bool :=
  legalProviderIdentity

/-- `MAX_RATE_LIMIT_RETRIES`. -/
def maxRateLimitRetries : ℕ := 32

/-- `clamped_codex_retries`. -/
def clampedCodexRetries (maxRetries : ℕ) : ℤ := (min maxRetries maxRateLimitRetries : ℕ)

/-- `build_codex_router_provider`. -/
def buildCodexRouterProvider (base localApiKey : String) (requireOpenaiAuth displayOpenaiProvider : Bool)
    (maxRetries : ℕ) : TomlTable :=
  let (requireOpenaiAuth, displayOpenaiProvider) :=
    legalCodexProviderIdentity requireOpenaiAuth displayOpenaiProvider
  [("name", .str (if displayOpenaiProvider then "OpenAI" else "Codex-Router")),
    ("base_url", .str (base ++ "/v1")),
    ("wire_api", .str "responses"),
    ("requires_openai_auth", .bool requireOpenaiAuth),
    ("experimental_bearer_token", .str localApiKey),
    ("request_max_retries", .int (clampedCodexRetries maxRetries)),
    ("stream_max_retries", .int (clampedCodexRetries maxRetries)),
    ("stream_idle_timeout_ms", .int 1800000),
    ("supports_websockets", .bool false)]

/-- Where the provider of Router stands. -/
def routerProviderPath : List String := ["model_providers", "codex_router"]

/-- `doc["model_providers"].or_insert(..)` with the provider put in; it panics where a value is. -/
def insertRouterProvider (provider : TomlTable) (doc : TomlTable) : Option TomlTable :=
  doc.setAt routerProviderPath (.table false provider)

/-- The levels that are offered on the desktop. -/
def reasoningEfforts : TomlItem := .value (.strings ["low", "medium", "high", "xhigh", "ultra", "max"])

/-- `enabled-reasoning-efforts` is inserted unless it is there. -/
def withReasoningEfforts (desktop : TomlTable) : TomlTable :=
  if desktop.containsKey "enabled-reasoning-efforts" then desktop
  else desktop.insert "enabled-reasoning-efforts" reasoningEfforts

section

variable (parseUrl : String → Option LocalUrl)

/-- `validate_local_base_url`. -/
def validateLocalBaseUrl (baseUrl : String) : Except String String :=
  match parseUrl (trimEndMatches (· = '/') baseUrl) with
  | none => .error "invalid Codex base URL"
  | some url =>
    if url.scheme ≠ "http" then .error "Codex-Router provider URL must use http"
    else if url.hostStr.getD "" ≠ "127.0.0.1" && url.hostStr.getD "" ≠ "localhost" then
      .error "Codex-Router provider URL must point to 127.0.0.1 or localhost"
    else .ok (trimEndMatches (· = '/') url.asStr)

/-! ## The system layer -/

/-- The arguments of `write_codex_system_binding_to` behind the path. -/
structure BindingArgs where
  catalogPath : String
  localApiKey : String
  baseUrl : String
  requireOpenaiAuth : Bool
  displayOpenaiProvider : Bool
  maxRetries : ℕ
  deriving DecidableEq, Repr

/-- The keys and the provider that are written into the document of the system layer. -/
def bindDocument (catalogPath : String) (provider doc : TomlTable) : Option TomlTable :=
  let doc := (doc.insert "model_provider" (.str "codex_router")).insert "model_catalog_json" (.str catalogPath)
  let features := (doc.tableAt "features").insert "fast_mode" (.bool true)
  let doc := doc.insert "features" (.table false features)
  let desktop := withReasoningEfforts (doc.tableAt "desktop")
  let doc := doc.insert "desktop" (.table false desktop)
  insertRouterProvider provider doc

/-- `write_codex_system_binding_to`: the new text of the file. -/
def writeCodexSystemBindingTo (existing : Option ConfigText) (args : BindingArgs) : Except String ConfigText :=
  if args.localApiKey = "" then
    .error "the local Router credential is required for the Codex system binding"
  else
    match validateLocalBaseUrl parseUrl args.baseUrl with
    | .error e => .error e
    | .ok base =>
      let existing := existing.getD ⟨false, some []⟩
      match existing.document with
      | none => .error "system Codex config.toml is not valid TOML"
      | some doc =>
        let provider := (doc.get "model_provider").bind TomlItem.asStr
        if !existing.marked && provider.any (· ≠ "codex_router") then
          .error ("system Codex config.toml already sets model_provider = \"" ++ provider.getD ""
            ++ "\"; leaving the foreign file untouched")
        else
          match bindDocument (replace args.catalogPath "\\" "/")
            (buildCodexRouterProvider base args.localApiKey args.requireOpenaiAuth args.displayOpenaiProvider
              args.maxRetries) doc with
          | none => .error "index not found"
          | some doc => .ok ⟨true, some doc⟩

/-- `remove_codex_system_binding_from`: whether something was removed, and the text that is left; the
file is removed with its last line. -/
def removeCodexSystemBindingFrom (existing : Option ConfigText) : Except String (Bool × Option ConfigText) :=
  match existing with
  | none => .ok (false, none)
  | some text =>
    match text.document with
    | none => .error "system Codex config.toml is not valid TOML"
    | some doc =>
      let routerProvider := (doc.get "model_provider").bind TomlItem.asStr = some "codex_router"
      let routerProviderBlock := (doc.tableAt "model_providers").containsKey "codex_router"
      if !text.marked && !decide routerProvider && !routerProviderBlock then .ok (false, some text)
      else
        let doc := if routerProvider then doc.remove "model_provider" else doc
        let doc := doc.removeAt routerProviderPath
        let doc :=
          if text.marked then
            ((doc.remove "model_catalog_json").removeAt ["features", "fast_mode"]).removeAt
              ["desktop", "enabled-reasoning-efforts"]
          else doc
        .ok (true, if doc.isEmpty then none else some ⟨false, some doc⟩)

end

/-! ## Old conversations -/

/-- `history_overlay_present`. -/
def historyOverlayPresent (text : ConfigText) : Bool :=
  text.document.any fun doc =>
    (doc.get "model_provider").bind TomlItem.asStr = some "codex_router"
      || (doc.tableAt "model_providers").containsKey "codex_router"

/-- What `preserve_router_provider_for_history` finds beside the text. -/
structure HistoryEnv where
  /-- `model-catalog.json` is a file. -/
  catalogDeployed : Bool
  /-- `ensure_local_api_key`. -/
  localApiKey : Option String
  /-- `create_dir_all` on the home of Codex. -/
  homeCreated : Bool
  /-- `codex_public_base_url`. -/
  publicBaseUrl : String
  /-- `login_prefers_chatgpt_identity`. -/
  prefersChatgpt : Bool
  maxRetries : ℕ

/-- `preserve_router_provider_for_history_with_key`; `none` is the panic of a provider table that is a
value. -/
def preserveRouterProviderForHistoryWithKey (env : HistoryEnv) (text : ConfigText) (localApiKey : String) :
    Option (Except String ConfigText) :=
  if localApiKey = "" then some (.ok text)
  else
    match text.document with
    | none => some (.error "config.toml is not valid TOML")
    | some doc =>
      if historyOverlayPresent text || !env.catalogDeployed then some (.ok text)
      else if !env.homeCreated then some (.error "create_dir_all")
      else
        (insertRouterProvider (buildCodexRouterProvider env.publicBaseUrl localApiKey env.prefersChatgpt
          env.prefersChatgpt env.maxRetries) doc).map fun doc => .ok ⟨text.marked, some doc⟩

/-- `preserve_router_provider_for_history`. -/
def preserveRouterProviderForHistory (env : HistoryEnv) (text : ConfigText) : Option ConfigText :=
  if !env.catalogDeployed || historyOverlayPresent text then some text
  else
    match env.localApiKey with
    | none => some text
    | some key =>
      (preserveRouterProviderForHistoryWithKey env text key).map fun
        | .ok text' => text'
        | .error _ => text

end CodexRouter
