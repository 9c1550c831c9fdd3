/-
# Accounts of the router host

What deploying a configuration does to the accounts of the router host.
`syncApiChannels` writes one account for every API-key card, found again by its
name; `syncOauthAccounts` moves the OAuth accounts into and out of the managed
group and finds out which of them are out of order.

The host keeps what an update does not mention: it merges the body into the
stored payload, key by key, and it leaves the groups alone when the body names
none.
-/
import CodexRouter.ServableRoutes

namespace CodexRouter

open Text

/-! ## Accounts -/

/-- The account types the host stores. -/
inductive AccountType where
  | apikey
  | oauth
  deriving DecidableEq, Repr

/-- A row of the host's accounts: columns and the payload fields that are read
here.  `groups` are the rows of `account_groups`, `groupIds` the list in the
payload. -/
structure Account where
  id : ℤ
  name : String
  platform : String
  accountType : AccountType
  status : String := "active"
  schedulable : Bool := true
  priority : ℤ
  weight : ℤ := 1
  groups : List ℤ
  groupIds : List ℤ
  modelMapping : Option (OrdMap String String)
  baseUrl : String := ""
  errorMessage : String := ""
  tempUnschedulableReason : String := ""
  deriving DecidableEq, Repr

/-- The body of a request that writes an account. -/
structure AccountBody where
  priority : ℤ
  groupIds : List ℤ
  modelMapping : Option (OrdMap String String)
  baseUrl : Option String
  deriving DecidableEq, Repr

/-- `merge_payload` on the mapping of the credentials. -/
def mergeMapping (old new : Option (OrdMap String String)) : Option (OrdMap String String) :=
  match new with
  | none => old
  | some entries => some (OrdMap.insertAll (old.getD []) entries)

/-- `update_account`. -/
def Account.update (account : Account) (body : AccountBody) : Account :=
  { account with
    priority := body.priority
    groups := if body.groupIds ≠ [] then body.groupIds else account.groups
    groupIds := body.groupIds
    modelMapping := mergeMapping account.modelMapping body.modelMapping
    baseUrl := body.baseUrl.getD account.baseUrl }

/-- The id of the next row. -/
def nextId (accounts : List Account) : ℤ := accounts.foldl (fun m a => max m a.id) 0 + 1

/-- `create_account` for an API-key account. -/
def createAccount (accounts : List Account) (name : String) (body : AccountBody) : Account :=
  { id := nextId accounts
    name := name
    platform := "openai"
    accountType := .apikey
    priority := max 1 (min 999999 body.priority)
    groups := body.groupIds
    groupIds := body.groupIds
    modelMapping := body.modelMapping
    baseUrl := body.baseUrl.getD "" }

/-- The actions `clear-error` and `schedulable` after an update. -/
def Account.recover (account : Account) : Account :=
  if account.status = "error" || !account.schedulable then
    { account with status := "active", schedulable := true }
  else account

/-- `sort_unstable` and `dedup` of group ids. -/
def sortedIds (ids : List ℤ) : List ℤ := (ids.insertionSort (· ≤ ·)).dedup

/-- The group ids of an account with the managed group put in or taken out. -/
def desiredGroups (groupId : ℤ) (joined : Bool) (current : List ℤ) : List ℤ :=
  let others := (current.filter (0 < ·)).filter (· ≠ groupId)
  sortedIds (if joined then others ++ [groupId] else others)

/-! ## API channels -/

/-- `api_account_name`. -/
def apiAccountName (libs : Libs) (model : ModelConfig) : String :=
  let label := if trim model.cardAlias = "" then trim model.model else trim model.cardAlias
  let seed := toAsciiLowercase (trim model.credentialName) ++ "\n"
    ++ toAsciiLowercase (trimBaseUrl model.baseUrl)
  "Codex-Router / " ++ label ++ " / " ++ (classifyChannelRoute libs model).vendor ++ "-"
    ++ takeChars (libs.sha256 seed) 8

/-- `upstream_model_id`. -/
def upstreamModelId (libs : Libs) (modelId baseUrl : String) : String :=
  let host := ((libs.parseUrl baseUrl).map fun url => toAsciiLowercase url.1).getD ""
  let model := trim modelId
  if host = "openrouter.ai" || endsWith host ".openrouter.ai" then
    match stripPrefix model "claude/" with
    | some suffix => "anthropic/" ++ suffix
    | none =>
      if startsWith model "claude-" && !contains model "/" then "anthropic/" ++ model
      else if eqIgnoreAsciiCase model "google/gemini-3.1-pro-high" then
        "google/gemini-3.1-pro-preview"
      else model
  else model

/-- `parse_extra` fails on a text that is no JSON object. -/
def extraIsValid (libs : Libs) (raw : String) : Bool :=
  trim raw = "" || ((libs.serde.fromStr raw).bind Value.asObject).isSome

/-- The mapping a channel's account is written with. -/
def channelMapping (libs : Libs) (model : ModelConfig) (route : ModelRoute) :
    OrdMap String String :=
  let upstream := upstreamModelId libs model.model model.baseUrl
  OrdMap.orInsert model.model upstream
    (route.requestModelIds.foldl (fun m requestId => OrdMap.insert requestId upstream m) [])

/-- `minimum_priority`: the first card that may stand in for an account of the
model. -/
def minimumPriority (libs : Libs) (cfg : RouterConfig) (model : ModelConfig) : ℤ :=
  let candidates := cfg.models.filter fun candidate =>
    candidate.source ≠ "oauth" && sameModelIdentity candidate.model model.model
      && cfg.models.any fun oauth =>
        oauth.source = "oauth" && sameModelIdentity oauth.model model.model
          && isEligibleOauthApiFallback libs cfg oauth candidate
  ((candidates.map fun candidate => max candidate.priority 1).min?).getD (max model.priority 1)

/-- The priority of a channel's account. -/
def channelPriority (libs : Libs) (cfg : RouterConfig) (model : ModelConfig)
    (route : ModelRoute) : ℤ :=
  let priority := displayPriority model.priority
  if route.isOauthFallback then
    let priorities := modelOauthRoutingPriorities cfg model.model
    displayPriority (effectiveApiPriority priority
      (displayPriority (minimumPriority libs cfg model)) (displayPriority priorities.apiPriority)
      (displayPriority priorities.oauthPriority) priorities.preferOauth)
  else priority

/-- The body a channel's account is written with. -/
def channelBody (libs : Libs) (cfg : RouterConfig) (groupId : ℤ) (model : ModelConfig)
    (route : ModelRoute) (existing : Option Account) : AccountBody :=
  { priority := channelPriority libs cfg model route
    groupIds := desiredGroups groupId route.joinRouter ((existing.map (·.groupIds)).getD [])
    modelMapping := some (channelMapping libs model route)
    baseUrl := some (trimBaseUrl model.baseUrl) }

/-- Write the first account with the name; a new one if there is none. -/
def writeAccount (name : String) (body : Option Account → AccountBody)
    (all : List Account) : List Account → List Account
  | [] => [createAccount all name (body none)]
  | account :: rest =>
    if account.name = name then (account.update (body (some account))).recover :: rest
    else account :: writeAccount name body all rest

/-- `sync_api_channels`: the accounts afterwards and the names that are managed.
`apiKey` is the credential of a card, `resolve_model_api_key`; a card without one
is skipped. -/
def syncApiChannels (libs : Libs) (apiKey : ModelConfig → Option String) (cfg : RouterConfig)
    (groupId : ℤ) : List (ModelConfig × ModelRoute) → List Account → List String →
      Except String (List Account × List String)
  | [], accounts, names => .ok (accounts, names)
  | (model, route) :: rest, accounts, names =>
    if model.source = "oauth" || (apiKey model).isNone then
      syncApiChannels libs apiKey cfg groupId rest accounts names
    else if !extraIsValid libs model.extra then .error "ROUTER_DEPLOY_MODEL_EXTRA_INVALID"
    else
      let name := apiAccountName libs model
      syncApiChannels libs apiKey cfg groupId rest
        (writeAccount name (channelBody libs cfg groupId model route) accounts accounts)
        (name :: names)

/-! ## OAuth accounts -/

/-- The `u32` parser: digits after an optional plus sign. -/
def parseU32 (s : String) : Option ℕ :=
  let digits := (stripPrefix s "+").getD s
  if digits ≠ "" && isDigits digits then
    let n := digits.toList.foldl (fun n c => 10 * n + (c.toNat - 48)) 0
    if n < 4294967296 then some n else none
  else none

/-- `antigravity_gemini_flash_public_id`. -/
def antigravityGeminiFlashPublicId (modelId : String) : Option String :=
  let id := trim modelId
  let stripped :=
    ((stripSuffix id "-high").or ((stripSuffix id "-medium").or (stripSuffix id "-low"))).getD id
  ((stripPrefix stripped "gemini-3.").bind (splitOnce '-')).bind fun (minor, kind) =>
    (parseU32 minor).bind fun minor =>
      if minor < 7 || kind ≠ "flash" then none
      else some ("gemini-3." ++ toString minor ++ "-flash")

/-- `oauth_upstream_model_id`. -/
def oauthUpstreamModelId (platform requested : String) : String :=
  if eqIgnoreAsciiCase platform "antigravity" then
    match antigravityGeminiFlashPublicId requested with
    | some publicId => publicId ++ "-medium"
    | none => requested
  else requested

/-- The entry of `selected_oauth_model_mappings` for an account. -/
def selectedOauthModelMapping (routes : List ModelRoute) (id : ℤ) :
    Option (OrdMap String String) :=
  let own := routes.filter fun route =>
    route.source = "oauth" && 0 < route.model.oauthAccountId && trim route.model.model ≠ ""
      && route.model.oauthAccountId = id
  if own = [] then none
  else some (own.foldl (fun m route => OrdMap.insert (trim route.model.model)
    (oauthUpstreamModelId route.model.oauthPlatform (trim route.model.model)) m) [])

/-- `oauth_should_isolate`. -/
def oauthShouldIsolate (account : Account) : Bool :=
  let status := toAsciiLowercase account.status
  let reason := toAsciiLowercase (account.errorMessage ++ " " ++ account.tempUnschedulableReason)
  status = "error" || status = "disabled" || !account.schedulable
    || ["quota", "rate_limit", "rate limit", "usage limit", "billing cycle", "exhausted", "限额",
        "额度"].any (contains reason)

/-- The priority of an OAuth account: that of its first card. -/
def oauthAccountPriority (cfg : RouterConfig) (account : Account) : ℤ :=
  let defaultPriority := (oauthRoutingPriorities (some cfg.oauthFallback)).oauthPriority
  let configured := ((cfg.models.filter fun model =>
    model.source = "oauth" && model.oauthAccountId = account.id).map
      fun model => displayPriority model.priority).min?
  configured.getD (max (displayPriority account.priority) (min defaultPriority 999))

/-- The accounts `sync_oauth_and_stale_accounts` isolates. -/
def isIsolated (cfg : RouterConfig) (account : Account) : Bool :=
  0 < account.id && account.accountType = .oauth && account.id ∈ selectedOauthIds cfg
    && oauthShouldIsolate account

/-- `sync_oauth_and_stale_accounts` on one account. -/
def syncAccount (cfg : RouterConfig) (routes : List ModelRoute) (groupId : ℤ)
    (managedNames : List String) (account : Account) : Account :=
  if account.id ≤ 0 then account
  else if account.accountType = .oauth then
    let wanted := account.id ∈ selectedOauthIds cfg
    let updated := account.update
      { priority := oauthAccountPriority cfg account
        groupIds := desiredGroups groupId (wanted && !oauthShouldIsolate account) account.groupIds
        modelMapping := if wanted then selectedOauthModelMapping routes account.id else none
        baseUrl := none }
    if !wanted && account.schedulable then { updated with schedulable := false } else updated
  else if groupId ∈ account.groupIds.filter (0 < ·) && startsWith account.name "Codex-Router / "
      && account.name ∉ managedNames then
    account.update
      { priority := account.priority
        groupIds := (account.groupIds.filter (0 < ·)).filter (· ≠ groupId)
        modelMapping := none
        baseUrl := none }
  else account

/-- `sync_oauth_and_stale_accounts`: the accounts afterwards and the isolated
ids. -/
def syncOauthAccounts (cfg : RouterConfig) (routes : List ModelRoute) (groupId : ℤ)
    (managedNames : List String) (accounts : List Account) : List Account × List ℤ :=
  (accounts.map (syncAccount cfg routes groupId managedNames),
    (accounts.filter (isIsolated cfg)).map (·.id))

end CodexRouter
