/-
# The publishing loop

`sync_backend_ex` of the source joins the composite routes with the accounts of
their group and goes through the pairs, ordered by route id and account id.
Every pair has a pool: each OAuth account its own, the API accounts of a route a
shared one.  A pair whose account can serve the route makes its pool available;
an API account also becomes a target of the proxy.

An account and a route belong together when an id of the account's mapping and
an id of the route have the same last path segment (`sameRouteModel`).
-/
import CodexRouter.ChannelSync
import CodexRouter.Routing

namespace CodexRouter

open Text

/-! ## Matching -/

/-- `normalize_platform`. -/
def normalizePlatform (value : String) : String :=
  let normalized :=
    mapChars (fun c => if c = '-' || c = ' ' then '_' else c) (toAsciiLowercase (trim value))
  if normalized ∈ ["chatgpt", "openai"] then "openai"
  else if normalized ∈ ["claude", "anthropic"] then "anthropic"
  else if normalized ∈ ["google", "gemini"] then "gemini"
  else if normalized ∈ ["grok", "xai"] then "xai"
  else normalized

/-- `oauth_route_provider_matches`. -/
def oauthRouteProviderMatches (accountPlatform routePlatform : String) : Bool :=
  normalizePlatform accountPlatform = normalizePlatform routePlatform

/-- `model_slug`. -/
def modelSlug (model : String) : String :=
  toAsciiLowercase (lastSegment '/' (trimStartMatches (· = '~') (trim model)))

/-- `same_route_model`. -/
def sameRouteModel (left right : String) : Bool :=
  modelSlug left ≠ "" && modelSlug left = modelSlug right

/-- `api_route_model_matches`. -/
def apiRouteModelMatches (mapping : Option (OrdMap String String)) (publicModel upstreamModel : String) :
    Bool :=
  match mapping with
  | none => false
  | some entries =>
    entries.any fun (source, target) =>
      sameRouteModel source publicModel || sameRouteModel source upstreamModel
        || sameRouteModel target publicModel || sameRouteModel target upstreamModel

/-- `oauth_route_model_matches`. -/
def oauthRouteModelMatches (mapping : Option (OrdMap String String))
    (publicModel upstreamModel : String) : Bool :=
  match mapping with
  | none => true
  | some [] => true
  | some entries => apiRouteModelMatches (some entries) publicModel upstreamModel

/-- `account_is_cli_eligible`. -/
def accountIsCliEligible (account : Account) : Bool :=
  account.schedulable && toAsciiLowercase (trim account.status) ∉ ["disabled", "error"]

/-! ## Pools -/

/-- A row of `composite_routes`. -/
structure RouteRow where
  id : ℤ
  route : CompositeRoute
  deriving DecidableEq, Repr

/-- `pool_route_id_for_account`. -/
def poolRouteIdForAccount (routeId : ℤ) (accountType : AccountType) (routeHasOauth : Bool)
    (accountId : ℤ) : String :=
  if accountType = .oauth then "r" ++ toString routeId ++ "a" ++ toString accountId
  else if routeHasOauth then "r" ++ toString routeId ++ "f"
  else "r" ++ toString routeId

/-- `fallback_pool_priority`. -/
def fallbackPoolPriority (routePriority : ℤ) : ℤ :=
  max 1 (min 999 (satI32 (max routePriority 1 + 99)))

/-- `pool_id` of the config compiler. -/
def poolIdOf (routeId platform : String) : String := "cr/" ++ routeId ++ "/" ++ normalizePlatform platform

/-- `sanitize_route_id`, on the ids of this module: letters and digits stay, a run
of other characters becomes one underscore. -/
def sanitizeRouteId (value : String) : String :=
  let output := value.toList.foldl (fun (out : List Char) c =>
    if isAsciiAlphanumeric c then out ++ [c]
    else if out.getLast? = some '_' then out else out ++ ['_']) []
  trimMatches (· = '_') (String.ofList output)

/-- `pool_prefix` of the config compiler. -/
def poolPrefixOf (routeId platform : String) : String :=
  "cr_" ++ sanitizeRouteId routeId ++ "_" ++ normalizePlatform platform

/-- `RouteTarget`. -/
structure RouteTarget where
  routeId : String
  publicModel : String
  upstreamModel : String
  platform : String
  baseUrl : Option String
  credentialRef : String
  priority : ℤ
  weight : ℤ
  deriving DecidableEq, Repr

/-- What the loop reads outside the database. -/
structure Credentials where
  /-- `read_account_secret`. -/
  secret : ℤ → Option String
  /-- Whether a replica of the account's auth file can be written: the file is
  there, or the desktop login for OpenAI, and names its type. -/
  hasAuthFile : Account → Bool

/-! ## The loop -/

/-- The pairs of the join, in the order of the query; the two lists are ordered
by id. -/
def joinRows (groupId : ℤ) (routes : List RouteRow) (accounts : List Account) :
    List (RouteRow × Account) :=
  routes.flatMap fun row => (accounts.filter (groupId ∈ ·.groups)).map (row, ·)

/-- The pairs of the join: a row, and an account of the group. -/
theorem mem_joinRows {groupId : ℤ} {routes : List RouteRow} {accounts : List Account}
    {pair : RouteRow × Account} : pair ∈ joinRows groupId routes accounts
      ↔ pair.1 ∈ routes ∧ pair.2 ∈ accounts ∧ groupId ∈ pair.2.groups := by
  obtain ⟨row, account⟩ := pair
  simp [joinRows]

/-- An OAuth account belongs to a route when provider and model match. -/
def oauthServes (row : RouteRow) (account : Account) : Bool :=
  oauthRouteProviderMatches account.platform row.route.targetPlatform
    && oauthRouteModelMatches account.modelMapping row.route.publicModel row.route.upstreamModel

/-- `oauth_routes`: the ids of the routes that an OAuth account belongs to. -/
def oauthRoutes (rows : List (RouteRow × Account)) : List ℤ :=
  (rows.filter fun (row, account) => account.accountType = .oauth && oauthServes row account).map
    (·.1.id)

section

variable (oauthIds : List ℤ) (credentials : Credentials)

/-- The pool route id of a pair. -/
def pairPoolRouteId (pair : RouteRow × Account) : String :=
  poolRouteIdForAccount pair.1.id pair.2.accountType (pair.1.id ∈ oauthIds) pair.2.id

/-- The pool of a pair, as it is entered when its id is new. -/
def pairPool (pair : RouteRow × Account) : PoolRoute :=
  let poolRouteId := pairPoolRouteId oauthIds pair
  let isFallbackPool := pair.1.id ∈ oauthIds && pair.2.accountType ≠ .oauth
  { poolId := poolIdOf poolRouteId pair.1.route.targetPlatform
    pfx := poolPrefixOf poolRouteId pair.1.route.targetPlatform
    publicModel := pair.1.route.publicModel
    upstreamModel := pair.1.route.upstreamModel
    provider := normalizePlatform pair.1.route.targetPlatform
    priority :=
      if isFallbackPool then fallbackPoolPriority pair.1.route.priority
      else max pair.2.priority 1
    enabled := true
    available := false }

/-- A pair whose account reaches the end of the loop body: it is eligible, its
mapping matches and its credential is there. -/
def serves (pair : RouteRow × Account) : Bool :=
  accountIsCliEligible pair.2
    && if pair.2.accountType = .oauth then oauthServes pair.1 pair.2 && credentials.hasAuthFile pair.2
      else
        apiRouteModelMatches pair.2.modelMapping pair.1.route.publicModel pair.1.route.upstreamModel
          && (credentials.secret pair.2.id).isSome

/-- The target an API account becomes. -/
def routeTarget (pair : RouteRow × Account) : Option RouteTarget :=
  if pair.2.accountType ≠ .oauth && serves credentials pair then
    (credentials.secret pair.2.id).map fun secret =>
      { routeId := pairPoolRouteId oauthIds pair
        publicModel := pair.1.route.publicModel
        upstreamModel := pair.1.route.upstreamModel
        platform := pair.1.route.targetPlatform
        baseUrl := (some (trim pair.2.baseUrl)).filter (· ≠ "")
        credentialRef := secret
        priority := displayPriority pair.2.priority
        weight := pair.2.weight }
  else none

/-- `seen_pools` and `pool_routes`: the first pair of each pool enters it. -/
def poolRoutes (rows : List (RouteRow × Account)) : List PoolRoute :=
  (collectNew Prod.fst (fun pair => some (pairPoolRouteId oauthIds pair, pairPool oauthIds pair)) []
    rows).map Prod.snd

/-- `pool_available`. -/
def poolAvailable (rows : List (RouteRow × Account)) : List String :=
  (rows.filter (serves credentials)).map (pairPoolRouteId oauthIds)

end

/-- The second pass over the pools: the pool route id is read off the pool id. -/
def markAvailable (available : List String) (route : PoolRoute) : PoolRoute :=
  match stripPrefix route.poolId "cr/" with
  | none => route
  | some tail => { route with available := ((split (· = '/') tail).head?).getD "" ∈ available }

/-- What the loop leaves. -/
structure Published where
  table : RouteTable
  targets : List RouteTarget

/-- `sync_backend_ex`, from the rows of the query to the route table and the
targets. -/
def syncBackend (credentials : Credentials) (rows : List (RouteRow × Account)) :
    Except String Published :=
  let oauthIds := oauthRoutes rows
  let pools := (poolRoutes oauthIds rows).map (markAvailable (poolAvailable oauthIds credentials rows))
  match RouteTable.new pools with
  | .error e => .error e
  | .ok table => .ok ⟨table, rows.filterMap (routeTarget oauthIds credentials)⟩

end CodexRouter
