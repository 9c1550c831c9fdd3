/-
# Which backend is tried first

A model that accounts and channels can both serve has a policy that says which
of them goes first.  The policy is turned into numbers in several places; what
`select_pool` compares in the end are the numbers of the pools (`poolNumber`).
`respectsPolicy_iff` says when that comparison follows the policy.
-/
import CodexRouter.ChannelPublication
import CodexRouter.PoolTable

namespace CodexRouter

open Text

/-! ## Settled deployments -/

/-- `account_platforms`. -/
def accountPlatforms (accounts : List Account) : List (ℤ × String) :=
  accounts.filterMap fun account =>
    let platform := toAsciiLowercase account.platform
    if 0 < account.id && platform ≠ "" then some (account.id, platform) else none

/-- A deployment whose composite routes were built after the OAuth accounts were
synced.  Rows and accounts are listed by id, as the query orders them. -/
structure SettledDeployment (libs : Libs) (apiKey : ModelConfig → Option String)
    (cfg : RouterConfig) extends Deployment libs apiKey cfg where
  platforms_eq : platforms = accountPlatforms accounts
  isolated_eq : isolated = (syncOauthAccounts cfg plan groupId names accounts).2
  rows_sorted : (rows.map RouteRow.id).Pairwise (· < ·)
  accounts_sorted : (accounts.map Account.id).Pairwise (· < ·)

namespace SettledDeployment

variable {libs : Libs} {apiKey : ModelConfig → Option String} {cfg : RouterConfig}

section

variable (d : SettledDeployment libs apiKey cfg)

/-- The accounts the publishing loop finds. -/
def settled : List Account := (syncOauthAccounts cfg d.plan d.groupId d.names d.accounts).1

/-- The pairs the publishing loop runs over. -/
def settledPairs : List (RouteRow × Account) := joinRows d.groupId d.rows d.settled

/-- The routes that an OAuth account belongs to. -/
def oauthIds : List ℤ := oauthRoutes d.settledPairs

/-- Every account of the group is eligible, and its secret or auth file is
there. -/
def Ready (credentials : Credentials) : Prop :=
  ∀ account ∈ groupAccounts d.groupId d.settled, accountIsCliEligible account = true
    ∧ (account.accountType = .apikey → (credentials.secret account.id).isSome = true)
    ∧ (account.accountType = .oauth → credentials.hasAuthFile account = true)

instance (credentials : Credentials) : Decidable (d.Ready credentials) :=
  inferInstanceAs (Decidable (∀ account ∈ groupAccounts d.groupId d.settled, _))

/-- The number a pair's pool is ordered by.  The pool of an account has the
account's priority.  A shared pool has a number derived from the route where an
account belongs to the route, and the priority of the group's first API account
elsewhere. -/
def poolNumber (pair : RouteRow × Account) : ℤ :=
  match pair.2.accountType with
  | .oauth => max pair.2.priority 1
  | .apikey =>
    if pair.1.id ∈ d.oauthIds then fallbackPoolPriority pair.1.route.priority
    else max (((firstApi d.groupId d.settled).map Account.priority).getD 1) 1

/-- The pool id of a pair. -/
def poolId (pair : RouteRow × Account) : String := (pairPool d.oauthIds pair).poolId

/-- The account can serve the route. -/
def Belongs (pair : RouteRow × Account) : Prop :=
  match pair.2.accountType with
  | .oauth => oauthServes pair.1 pair.2 = true
  | .apikey => apiRouteModelMatches pair.2.modelMapping pair.1.route.publicModel
      pair.1.route.upstreamModel = true

/-- The pairs of one kind of account that can serve a model. -/
def Serving (model : String) (kind : AccountType) (pair : RouteRow × Account) : Prop :=
  pair ∈ d.settledPairs ∧ pair.2.accountType = kind ∧ pair.1.route.publicModel = model
    ∧ Belongs pair

/-- Some pair of one kind stands in front of every pair of the other kind: by
number, then by pool id. -/
def Leads (model : String) (kind other : AccountType) : Prop :=
  ∃ pair, d.Serving model kind pair ∧ ∀ pair', d.Serving model other pair' →
    d.poolNumber pair < d.poolNumber pair'
      ∨ d.poolNumber pair = d.poolNumber pair' ∧ d.poolId pair ≤ d.poolId pair'

/-- The pool of an account of a kind. -/
def IsKind (kind : AccountType) (pool : PoolRoute) : Prop :=
  ∃ pair ∈ d.settledPairs, pair.2.accountType = kind ∧ pool.poolId = d.poolId pair

/-- `select_pool` without a binding returns a pool of the kind. -/
def Selects (table : RouteTable) (bindings : ContinuationBindings) (now : ℕ) (model : String)
    (kind : AccountType) : Prop :=
  ∃ pool, selectPool table model none bindings now [] = .ok pool ∧ d.IsKind kind pool

/-- The policy decides which kind of pool is tried first. -/
def RespectsPolicy (table : RouteTable) (bindings : ContinuationBindings) (now : ℕ)
    (model : String) : Prop :=
  (modelRoutePolicy cfg model = .apiFirst → d.Selects table bindings now model .apikey)
    ∧ (modelRoutePolicy cfg model = .subscriptionFirst →
        d.Selects table bindings now model .oauth)

/-- A model that an account and a channel both serve: a row of a selected account
that is in order, and a joined row that stands in for it. -/
def Shared (model : String) : Prop :=
  (∀ card ∈ cfg.models, 1 ≤ card.priority ∧ card.priority ≤ 999)
    ∧ (∃ route ∈ d.plan, route.catalogId = toAsciiLowercase model ∧ route.source = "oauth"
        ∧ route.joinRouter = true ∧ route.model.oauthAccountId ∈ selectedOauthIds cfg
        ∧ route.model.oauthAccountId ∉ d.isolated
        ∧ ∃ account ∈ d.accounts, account.id = route.model.oauthAccountId
          ∧ account.accountType = .oauth)
    ∧ ∃ route ∈ d.plan, route.catalogId = toAsciiLowercase model ∧ route.source ≠ "oauth"
        ∧ route.joinRouter = true ∧ route.isOauthFallback = true

instance (model : String) : Decidable (d.Shared model) :=
  inferInstanceAs (Decidable ((∀ card ∈ cfg.models, _) ∧ _))

/-- The numbers agree with the policy. -/
def NumbersAgree (model : String) : Prop :=
  (modelRoutePolicy cfg model = .apiFirst → d.Leads model .apikey .oauth)
    ∧ (modelRoutePolicy cfg model = .subscriptionFirst → d.Leads model .oauth .apikey)

end

/-! ## Serving pairs and offered pools -/

variable {d : SettledDeployment libs apiKey cfg} {credentials : Credentials} {model : String}

theorem rows_nodup (d : SettledDeployment libs apiKey cfg) : (d.rows.map RouteRow.id).Nodup :=
  d.rows_sorted.imp ne_of_lt

/-- The sync of the accounts keeps their ids. -/
theorem id_syncAccount (routes : List ModelRoute) (groupId : ℤ) (names : List String)
    (account : Account) : (syncAccount cfg routes groupId names account).id = account.id := by
  unfold syncAccount
  split
  · rfl
  split
  · dsimp only
    split <;> rfl
  split
  · rfl
  · rfl

theorem settled_nodup (d : SettledDeployment libs apiKey cfg) :
    (d.settled.map Account.id).Nodup := by
  have hids : d.settled.map Account.id = d.accounts.map Account.id := by
    unfold settled syncOauthAccounts
    rw [List.map_map]
    apply List.map_congr_left
    intro account _
    exact id_syncAccount _ _ _ account
  rw [hids]
  exact d.accounts_sorted.imp ne_of_lt

/-- With every account ready, a pair serves when the account belongs to the
route. -/
theorem serves_iff (hready : d.Ready credentials) {pair : RouteRow × Account}
    (hpair : pair ∈ d.settledPairs) : serves credentials pair = true ↔ Belongs pair := by
  obtain ⟨row, account⟩ := pair
  obtain ⟨heligible, hsecret, hfile⟩ := hready account (mem_joinRows_iff.mp hpair).2
  unfold serves Belongs
  cases hkind : account.accountType with
  | oauth => simp [heligible, hfile hkind]
  | apikey => simp [heligible, hsecret hkind]

/-- The first pair of a pool has the same number as the others. -/
theorem priority_of_first {pair first : RouteRow × Account} (hpair : pair ∈ d.settledPairs)
    (hfirst : d.settledPairs.find?
      (fun q => decide (pairPoolRouteId d.oauthIds q = pairPoolRouteId d.oauthIds pair)) = some first) :
    first.1 = pair.1 ∧ first.2.accountType = pair.2.accountType
      ∧ (pairPool d.oauthIds first).priority = d.poolNumber pair := by
  have hmem : first ∈ d.settledPairs := List.mem_of_find?_eq_some hfirst
  have hid : pairPoolRouteId d.oauthIds first = pairPoolRouteId d.oauthIds pair := by
    simpa using List.find?_some hfirst
  cases hkind : pair.2.accountType with
  | oauth =>
    obtain rfl := eq_of_own_pool d.rows_nodup d.settled_nodup hpair hmem hkind hid
    refine ⟨rfl, hkind, ?_⟩
    simp [pairPool, poolNumber, hkind]
  | apikey =>
    obtain ⟨row, account⟩ := pair
    have hshared : d.settledPairs.find? (fun q =>
          decide (pairPoolRouteId d.oauthIds q = pairPoolRouteId d.oauthIds (row, account)))
        = (firstApi d.groupId d.settled).map fun api => (row, api) :=
      find?_shared d.rows_nodup (mem_joinRows_iff.mp hpair).1 hkind
    rw [hfirst] at hshared
    obtain ⟨api, hapi, rfl⟩ := Option.map_eq_some_iff.mp hshared.symm
    have hapikind : api.accountType = .apikey := by
      simpa using List.find?_some hapi
    refine ⟨rfl, hapikind, ?_⟩
    show (if (row.id ∈ d.oauthIds && api.accountType ≠ .oauth) then _ else max api.priority 1) = _
    unfold poolNumber
    rw [hkind, hapi]
    simp [hapikind]

/-- The pools of the table. -/
abbrev pools (d : SettledDeployment libs apiKey cfg) (credentials : Credentials) : List PoolRoute :=
  markedPools d.oauthIds credentials d.settledPairs

/-- Two pairs with one pool id have accounts of one kind. -/
theorem kind_of_poolId {pair q : RouteRow × Account} (h : d.poolId q = d.poolId pair) :
    q.2.accountType = pair.2.accountType
      ∧ pairPoolRouteId d.oauthIds q = pairPoolRouteId d.oauthIds pair := by
  have hid : pairPoolRouteId d.oauthIds q = pairPoolRouteId d.oauthIds pair :=
    poolIdOf_inj (slash_notMem_poolRouteId _ _ _ _) (slash_notMem_poolRouteId _ _ _ _) h
  refine ⟨?_, hid⟩
  unfold pairPoolRouteId at hid
  cases hq : q.2.accountType with
  | apikey =>
    cases hp : pair.2.accountType with
    | apikey => rfl
    | oauth =>
      rw [hq, hp] at hid
      exact absurd hid.symm (poolRouteId_oauth_ne_api _ _ _ _ _ _)
  | oauth =>
    cases hp : pair.2.accountType with
    | apikey =>
      rw [hq, hp] at hid
      exact absurd hid (poolRouteId_oauth_ne_api _ _ _ _ _ _)
    | oauth => rfl

/-- No pool is of two kinds. -/
theorem eq_of_isKind {pool : PoolRoute} {kind kind' : AccountType} (h : d.IsKind kind pool)
    (h' : d.IsKind kind' pool) : kind = kind' := by
  obtain ⟨pair, -, rfl, hid⟩ := h
  obtain ⟨pair', -, rfl, hid'⟩ := h'
  exact (kind_of_poolId (hid.symm.trans hid')).1

/-- Pairs of one route with one pool route id have one pool id. -/
theorem poolId_congr {pair q : RouteRow × Account} (hrow : q.1 = pair.1)
    (hid : pairPoolRouteId d.oauthIds q = pairPoolRouteId d.oauthIds pair) :
    d.poolId q = d.poolId pair := by
  unfold poolId
  rw [pairPool_poolId, pairPool_poolId, hid, hrow]

/-- An offered pool of a kind has a pair of the kind that can serve the model,
with the pool's number and id. -/
theorem exists_serving (hready : d.Ready credentials) {pool : PoolRoute} {kind : AccountType}
    (hoffers : Offers (d.pools credentials) model pool) (hkind : d.IsKind kind pool) :
    ∃ pair, d.Serving model kind pair ∧ pool.priority = d.poolNumber pair
      ∧ pool.poolId = d.poolId pair := by
  obtain ⟨hpool, hmodel, havailable⟩ := hoffers
  obtain ⟨first, hfirst, hfind, hpool⟩ := mem_markedPools.mp hpool
  obtain ⟨q, -, hqkind, hqid⟩ := hkind
  have hpoolId : pool.poolId = d.poolId first := by
    rw [hpool, withAvailable_poolId]
    rfl
  rw [hpool, withAvailable_publicModel, pairPool_publicModel] at hmodel
  rw [hpool, withAvailable_available, decide_eq_true_eq] at havailable
  obtain ⟨pair, hpair, hid⟩ := List.mem_map.mp havailable
  obtain ⟨hpair, hserves⟩ := List.mem_filter.mp hpair
  rw [← hid] at hfind
  obtain ⟨hrow, hpairkind, hnumber⟩ := priority_of_first hpair hfind
  have hfirstkind : first.2.accountType = q.2.accountType :=
    (kind_of_poolId (hpoolId.symm.trans hqid)).1
  refine ⟨pair, ⟨hpair, ?_, ?_, (serves_iff hready hpair).mp hserves⟩, ?_, ?_⟩
  · rw [← hpairkind, hfirstkind, hqkind]
  · rw [← hrow, hmodel]
  · rw [hpool, withAvailable_priority, hnumber]
  · rw [hpoolId, poolId_congr hrow hid.symm]

/-- A pair that can serve the model has an offered pool of its kind, number and
id. -/
theorem exists_offers (hready : d.Ready credentials) {kind : AccountType}
    {pair : RouteRow × Account} (h : d.Serving model kind pair) :
    ∃ pool, Offers (d.pools credentials) model pool ∧ d.IsKind kind pool
      ∧ pool.priority = d.poolNumber pair ∧ pool.poolId = d.poolId pair := by
  obtain ⟨hpair, hkind, hmodel, hbelongs⟩ := h
  obtain ⟨first, hfirst, hid, -, hfind⟩ := exists_mem_poolRoutes d.oauthIds hpair
  have hfind' := hfind
  rw [hid] at hfind'
  obtain ⟨hrow, -, hnumber⟩ := priority_of_first hpair hfind'
  have hpoolId : d.poolId first = d.poolId pair := poolId_congr hrow hid
  have havailable : pairPoolRouteId d.oauthIds first
      ∈ poolAvailable d.oauthIds credentials d.settledPairs := by
    rw [hid]
    exact List.mem_map_of_mem
      (List.mem_filter.mpr ⟨hpair, (serves_iff hready hpair).mpr hbelongs⟩)
  refine ⟨withAvailable (pairPool d.oauthIds first) (decide (pairPoolRouteId d.oauthIds first
      ∈ poolAvailable d.oauthIds credentials d.settledPairs)),
    ⟨mem_markedPools.mpr ⟨first, hfirst, hfind, rfl⟩, ?_, ?_⟩, ⟨pair, hpair, hkind, ?_⟩, ?_, ?_⟩
  · rw [withAvailable_publicModel, pairPool_publicModel, hrow, hmodel]
  · rw [withAvailable_available]
    exact decide_eq_true havailable
  · rw [withAvailable_poolId]
    exact hpoolId
  · rw [withAvailable_priority, hnumber]
  · rw [withAvailable_poolId]
    exact hpoolId

/-- The pools are enabled. -/
theorem enabled_of_mem_pools : ∀ pool ∈ d.pools credentials, pool.enabled = true := by
  intro pool hpool
  obtain ⟨first, -, -, hpool⟩ := mem_markedPools.mp hpool
  rw [hpool, withAvailable_enabled, pairPool_enabled]

/-- An offered pool is of one kind or the other. -/
theorem isKind_of_offers {pool : PoolRoute} (h : Offers (d.pools credentials) model pool)
    {kind other : AccountType} (hne : kind ≠ other) (hno : ¬ d.IsKind kind pool) :
    d.IsKind other pool := by
  obtain ⟨first, hfirst, -, hpool⟩ := mem_markedPools.mp h.1
  have hid : pool.poolId = d.poolId first := by
    rw [hpool, withAvailable_poolId]
    rfl
  have hkind : first.2.accountType ≠ kind := fun hk => hno ⟨first, hfirst, hk, hid⟩
  refine ⟨first, hfirst, ?_, hid⟩
  cases hk : first.2.accountType <;> cases kind <;> cases other <;> simp_all

/-- A kind of pool is selected exactly when it leads. -/
theorem selects_iff_leads (hready : d.Ready credentials) {published : Published}
    (hpublished : syncBackend credentials d.settledPairs = .ok published)
    (bindings : ContinuationBindings) (now : ℕ) {kind other : AccountType} (hne : kind ≠ other) :
    d.Selects published.table bindings now model kind ↔ d.Leads model kind other := by
  have hnew : RouteTable.new (d.pools credentials) = .ok published.table := by
    unfold syncBackend at hpublished
    dsimp only at hpublished
    split at hpublished
    · cases hpublished
    · rename_i table htable
      cases hpublished
      exact htable
  have hsame : ∀ r s : PoolRoute, r.poolId = s.poolId → d.IsKind kind r → d.IsKind kind s := by
    rintro r s hrs ⟨pair, hpair, hk, hid⟩
    exact ⟨pair, hpair, hk, hrs.symm.trans hid⟩
  unfold Selects
  rw [selects_iff hnew enabled_of_mem_pools hsame]
  constructor
  · rintro ⟨pool, hoffers, hkind, hfront⟩
    obtain ⟨pair, hserving, hnumber, hid⟩ := exists_serving hready hoffers hkind
    refine ⟨pair, hserving, fun pair' hserving' => ?_⟩
    obtain ⟨pool', hoffers', hkind', hnumber', hid'⟩ := exists_offers hready hserving'
    have hle := hfront pool' hoffers' fun h => hne (eq_of_isKind h hkind')
    rw [routeLe_iff (hoffers.2.1.trans hoffers'.2.1.symm), hnumber, hnumber', hid, hid'] at hle
    exact hle
  · rintro ⟨pair, hserving, hfront⟩
    obtain ⟨pool, hoffers, hkind, hnumber, hid⟩ := exists_offers hready hserving
    refine ⟨pool, hoffers, hkind, fun pool' hoffers' hno => ?_⟩
    obtain ⟨pair', hserving', hnumber', hid'⟩ :=
      exists_serving hready hoffers' (isKind_of_offers hoffers' hne hno)
    rw [routeLe_iff (hoffers.2.1.trans hoffers'.2.1.symm), hnumber, hnumber', hid, hid']
    exact hfront pair' hserving'

/-- **The policy decides** exactly when the numbers of the pools agree with it. -/
theorem respectsPolicy_iff (hready : d.Ready credentials) {published : Published}
    (hpublished : syncBackend credentials d.settledPairs = .ok published)
    (bindings : ContinuationBindings) (now : ℕ) :
    d.RespectsPolicy published.table bindings now model ↔ d.NumbersAgree model := by
  unfold RespectsPolicy NumbersAgree
  rw [selects_iff_leads hready hpublished bindings now (by decide : AccountType.apikey ≠ .oauth),
    selects_iff_leads hready hpublished bindings now (by decide : AccountType.oauth ≠ .apikey)]

/-- The number of a shared pool next to an account's own is never below 100. -/
theorem hundred_le_fallbackPoolPriority (routePriority : ℤ) :
    100 ≤ fallbackPoolPriority routePriority := by
  unfold fallbackPoolPriority satI32
  omega

/-- An account with an order below 100 goes first, whatever the policy, when it
belongs to the routes of the channels. -/
theorem not_leads_of_lt_hundred
    (hroutes : ∀ pair, d.Serving model .apikey pair → pair.1.id ∈ d.oauthIds)
    {own : RouteRow × Account} (hown : d.Serving model .oauth own) (hlow : own.2.priority < 100) :
    ¬ d.Leads model .apikey .oauth := by
  rintro ⟨pair, hserving, hfront⟩
  have hnumber : d.poolNumber pair = fallbackPoolPriority pair.1.route.priority := by
    unfold poolNumber
    rw [hserving.2.1]
    exact if_pos (hroutes pair hserving)
  have hownNumber : d.poolNumber own = max own.2.priority 1 := by
    unfold poolNumber
    rw [hown.2.1]
  have hhundred := hundred_le_fallbackPoolPriority pair.1.route.priority
  rcases hfront own hown with hlt | ⟨heq, -⟩ <;> omega

/-! ## One account and one relay -/

open FirstDeployment

/-- The account of the subscription, as the host has it before the deployment. -/
def subscriptionAccount : Account where
  id := 7
  name := "subscription"
  platform := "openai"
  accountType := .oauth
  priority := 50
  groups := []
  groupIds := []
  modelMapping := none

/-- Both cards of the model, under a policy. -/
def sharedModel (policy : String) : RouterConfig where
  modelRoutePolicies := [("openai:gpt-5.6-sol", policy)]
  models := [subscriptionCard, relayCard]

/-- The plan under either policy: the relay stands in for the account. -/
def sharedPlan : List ModelRoute :=
  [{ index := 0
     model := subscriptionCard
     source := "oauth"
     canonicalModelId := "gpt-5.6-sol"
     identityKey := "openai:gpt-5.6-sol"
     identityDisplayCandidate := "ChatGPT-5.6-Sol"
     publicModelId := "gpt-5.6-sol"
     requestModelIds := ["gpt-5.6-sol"]
     includeInCatalog := true
     joinRouter := true
     isOauthFallback := false
     isMergedOauthRoute := true
     servedBy := .oauth },
   { index := 1
     model := relayCard
     source := "apikey"
     canonicalModelId := "gpt-5.6-sol"
     identityKey := "openai:gpt-5.6-sol"
     identityDisplayCandidate := "ChatGPT-5.6-Sol"
     publicModelId := "gpt-5.6-sol"
     requestModelIds := ["gpt-5.6-sol"]
     includeInCatalog := false
     joinRouter := true
     isOauthFallback := true
     isMergedOauthRoute := false
     servedBy := .api }]

/-- The accounts after the channels are synced.  The relay has the priority that
the policy gave it. -/
def sharedAccounts (relayPriority : ℤ) : List Account :=
  [subscriptionAccount, { relayAccount with id := 8, priority := relayPriority }]

/-- The one composite route. -/
def sharedRoutes : List RouteRow := [⟨1, "gpt-5.6-sol", "gpt-5.6-sol", "openai", 1⟩]

/-- The deployment with the API first: the relay's account has priority 1. -/
def apiFirstDeployment : SettledDeployment relayLibs relayKey (sharedModel "api_first") where
  groupId := 1
  plan := sharedPlan
  before := [subscriptionAccount]
  accounts := sharedAccounts 1
  names := [relayAccount.name]
  platforms := [(7, "openai"), (8, "openai")]
  isolated := []
  rows := sharedRoutes
  plan_eq := by decide +kernel
  sync_eq := by decide +kernel
  rows_eq := by decide +kernel
  platforms_eq := by decide +kernel
  isolated_eq := by decide +kernel
  rows_sorted := by decide
  accounts_sorted := by decide

/-- The deployment with the subscription first. -/
def subscriptionFirstDeployment :
    SettledDeployment relayLibs relayKey (sharedModel "subscription_first") where
  groupId := 1
  plan := sharedPlan
  before := [subscriptionAccount]
  accounts := sharedAccounts 100
  names := [relayAccount.name]
  platforms := [(7, "openai"), (8, "openai")]
  isolated := []
  rows := sharedRoutes
  plan_eq := by decide +kernel
  sync_eq := by decide +kernel
  rows_eq := by decide +kernel
  platforms_eq := by decide +kernel
  isolated_eq := by decide +kernel
  rows_sorted := by decide
  accounts_sorted := by decide

/-- Every secret and every auth file is there. -/
def fullCredentials : Credentials := ⟨fun _ => some "sk-relay", fun _ => true⟩

/-- The pool of the account. -/
def accountPool : PoolRoute where
  poolId := "cr/r1a7/openai"
  pfx := "cr_r1a7_openai"
  publicModel := "gpt-5.6-sol"
  upstreamModel := "gpt-5.6-sol"
  provider := "openai"
  priority := 10
  enabled := true
  available := true

/-- The pool of the relay. -/
def relayPool : PoolRoute where
  poolId := "cr/r1f/openai"
  pfx := "cr_r1f_openai"
  publicModel := "gpt-5.6-sol"
  upstreamModel := "gpt-5.6-sol"
  provider := "openai"
  priority := 100
  enabled := true
  available := true

/-- The subscription's number is that of its card, the relay's is 100. -/
theorem respectsPolicy_subscriptionFirst : ∃ published,
    syncBackend fullCredentials subscriptionFirstDeployment.settledPairs = .ok published
      ∧ (subscriptionFirstDeployment.RespectsPolicy published.table {} 0 "gpt-5.6-sol"
        ↔ subscriptionFirstDeployment.NumbersAgree "gpt-5.6-sol") := by
  have hready : subscriptionFirstDeployment.Ready fullCredentials := by decide +kernel
  cases hpublished : syncBackend fullCredentials subscriptionFirstDeployment.settledPairs with
  | error e =>
    have hok : (syncBackend fullCredentials subscriptionFirstDeployment.settledPairs).isOk = true := by
      decide +kernel
    rw [hpublished] at hok
    cases hok
  | ok published => exact ⟨published, rfl, respectsPolicy_iff hready hpublished {} 0⟩

/-- With the API first, the relay's account has priority 1, but its pool keeps the
number 100 and stands behind the pool of the account. -/
theorem not_respectsPolicy_of_api_first :
    ¬ ∀ (libs : Libs) (apiKey : ModelConfig → Option String) (cfg : RouterConfig)
        (d : SettledDeployment libs apiKey cfg) (credentials : Credentials)
        (published : Published) (bindings : ContinuationBindings) (now : ℕ) (model : String),
        d.Shared model → d.Ready credentials →
        syncBackend credentials d.settledPairs = .ok published →
        d.RespectsPolicy published.table bindings now model := by
  intro h
  have hshared : apiFirstDeployment.Shared "gpt-5.6-sol" := by decide +kernel
  have hready : apiFirstDeployment.Ready fullCredentials := by decide +kernel
  have htable : (syncBackend fullCredentials apiFirstDeployment.settledPairs).map Published.table
      = .ok ⟨[accountPool, relayPool]⟩ := by
    decide +kernel
  cases hpublished : syncBackend fullCredentials apiFirstDeployment.settledPairs with
  | error e =>
    rw [hpublished] at htable
    cases htable
  | ok published =>
    rw [hpublished] at htable
    have hselects := (h _ _ _ apiFirstDeployment _ published {} 0 _ hshared hready hpublished).1
      (by decide +kernel)
    rw [Except.ok.inj htable] at hselects
    obtain ⟨pool, hpool, pair, hpair, hkind, hid⟩ := hselects
    have hown : selectPool ⟨[accountPool, relayPool]⟩ "gpt-5.6-sol" none {} 0 [] = .ok accountPool := by
      decide +kernel
    rw [hown] at hpool
    rw [← Except.ok.inj hpool] at hid
    have hapi : ∀ pair ∈ apiFirstDeployment.settledPairs, pair.2.accountType = .apikey →
        accountPool.poolId ≠ apiFirstDeployment.poolId pair := by
      decide +kernel
    exact hapi pair hpair hkind hid

end SettledDeployment

end CodexRouter
