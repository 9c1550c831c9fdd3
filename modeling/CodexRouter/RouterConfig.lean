/-
# The router configuration and the route policies

`RouterConfig` of the source with the fields the routing code reads, and the
numbers the route policy of a model turns into: `model_route_policy` looks the
policy up, `model_oauth_routing_priorities` gives the two base priorities,
`effective_api_priority` the priority of a channel that stands in for an account.

Priorities are `i32` in the source; where it saturates, `satI32` does.
-/
import CodexRouter.ModelIdentity
import Mathlib.Data.Int.Notation

namespace CodexRouter

open Text

/-! ## Configuration -/

/-- `ModelConfig`: one card, an API-key channel or an OAuth account's model.  The field
`alias` of the source is `cardAlias`. -/
structure ModelConfig where
  model : String := ""
  cardAlias : String := ""
  baseUrl : String := ""
  credentialName : String := ""
  priority : ℤ := 10
  extra : String := "\x7b\x7d"
  contextWindow : ℤ := 0
  autoCompactPercent : ℤ := 95
  source : String := "apikey"
  oauthAccountId : ℤ := 0
  oauthPlatform : String := ""
  deriving DecidableEq, Repr

/-- `OAuthFallback`. -/
structure OAuthFallback where
  enabled : Bool := true
  preferOauth : Bool := true
  officialPriority : ℤ := 1
  fallbackPriority : ℤ := 100
  deriving DecidableEq, Repr

/-- `RouterConfig`.  The maps of the source are read only: they are lists of
entries. -/
structure RouterConfig where
  oauthFallback : OAuthFallback := {}
  oauthAccountIds : Option (List ℤ) := none
  fallbackChannelSelections : List (String × List String) := []
  modelRoutePolicies : List (String × String) := []
  models : List ModelConfig := []
  deriving DecidableEq, Repr

/-! ## Policies -/

/-- `ModelRoutePolicy`. -/
inductive ModelRoutePolicy where
  | subscriptionFirst
  | apiFirst
  | subscriptionOnly
  deriving DecidableEq, Repr

/-- `ModelRoutePolicy::parse`. -/
def ModelRoutePolicy.parse (value : String) : ModelRoutePolicy :=
  if trim value = "api_first" then .apiFirst
  else if trim value = "subscription_only" then .subscriptionOnly
  else .subscriptionFirst

/-- `model_route_policy`. -/
def modelRoutePolicy (cfg : RouterConfig) (modelId : String) : ModelRoutePolicy :=
  ((cfg.modelRoutePolicies.lookup (modelIdentityKey modelId)).map ModelRoutePolicy.parse).getD
    .subscriptionFirst

/-- The policy belongs to the model, not to the spelling of its id. -/
theorem modelRoutePolicy_congr {cfg : RouterConfig} {left right : String}
    (h : sameModelIdentity left right = true) :
    modelRoutePolicy cfg left = modelRoutePolicy cfg right := by
  obtain ⟨-, hprovider, hreal⟩ := sameModelIdentity_iff.mp h
  rw [modelRoutePolicy, modelRoutePolicy, modelIdentityKey, modelIdentityKey, hprovider, hreal]

/-! ## Priorities -/

/-- The nearest `i32`. -/
def satI32 (n : ℤ) : ℤ := max (-2147483648) (min 2147483647 n)

theorem satI32_of_small {n : ℤ} (h : -2147483648 ≤ n) (h' : n ≤ 2147483647) : satI32 n = n := by
  rw [satI32, min_eq_right h', max_eq_right h]

/-- `OAuthRoutingPriorities`. -/
structure OAuthRoutingPriorities where
  enabled : Bool
  preferOauth : Bool
  oauthPriority : ℤ
  apiPriority : ℤ
  deriving DecidableEq, Repr

/-- The priorities while the fallback is off. -/
def disabledPriorities : OAuthRoutingPriorities := ⟨false, true, 1, 10⟩

/-- `oauth_routing_priorities`. -/
def oauthRoutingPriorities (fallback : Option OAuthFallback) : OAuthRoutingPriorities :=
  match fallback with
  | none => disabledPriorities
  | some fallback =>
    if !fallback.enabled then disabledPriorities
    else
      let official := max fallback.officialPriority 1
      let api := max fallback.fallbackPriority 1
      { enabled := true
        preferOauth := fallback.preferOauth
        oauthPriority := if fallback.preferOauth then official else api
        apiPriority := if fallback.preferOauth then api else official }

/-- `model_oauth_routing_priorities`.  The switches of the global fallback are
replaced by the model's policy; only its two numbers are used. -/
def modelOauthRoutingPriorities (cfg : RouterConfig) (modelId : String) :
    OAuthRoutingPriorities :=
  match modelRoutePolicy cfg modelId with
  | .subscriptionOnly => disabledPriorities
  | policy =>
    oauthRoutingPriorities (some
      { enabled := true
        preferOauth := policy = .subscriptionFirst
        officialPriority := cfg.oauthFallback.officialPriority
        fallbackPriority := cfg.oauthFallback.fallbackPriority })

/-- `display_priority`: fold the hidden tiers (2010, 2100) back to the order of
the cards. -/
def displayPriority (legacyPriority : ℤ) : ℤ :=
  let magnitude : ℤ := legacyPriority.natAbs
  let folded := if magnitude ≥ 1000 then magnitude % 1000 else magnitude
  if folded = 0 then 1 else max 1 (min 999 folded)

/-- Every displayed priority is a card priority. -/
theorem displayPriority_bounds (n : ℤ) : 1 ≤ displayPriority n ∧ displayPriority n ≤ 999 := by
  unfold displayPriority
  dsimp only
  constructor <;> split <;> omega

/-- The order of the cards is kept. -/
theorem displayPriority_of_card {n : ℤ} (h : 1 ≤ n) (h' : n ≤ 999) : displayPriority n = n := by
  have habs : (n.natAbs : ℤ) = n := by omega
  unfold displayPriority
  dsimp only
  rw [habs, if_neg (by omega : ¬ n ≥ 1000), if_neg (by omega : ¬ n = 0)]
  omega

/-- `effective_api_priority`: the base priority, moved by the distance to the
first card of the model; with the API first it stays below the accounts. -/
def effectiveApiPriority (configuredPriority minimumMatchingPriority apiBasePriority
    oauthPriority : ℤ) (preferOauth : Bool) : ℤ :=
  let offset := max (satI32 (configuredPriority - minimumMatchingPriority)) 0
  let effective := max (satI32 (apiBasePriority + offset)) 1
  if !preferOauth && oauthPriority > 1 then min effective (oauthPriority - 1) else effective

end CodexRouter
