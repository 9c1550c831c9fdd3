/-
# Channels of the usage monitor

The usage monitor looks the accounts of the router host up among the cards of the configuration.
`register_api_channel` enters a card under its alias and its model, the first card of a name wins,
and `api_channel_for_account` takes the name as it stands or, where there is none, any name that
differs in ASCII case only.  The accounts bear the names that `api_account_name` gives them, with
the vendor and a digest behind the label, which no label of an ordinary card has.
-/
import CodexRouter.ChannelSync
import CodexRouter.Base.LetterCase

namespace CodexRouter

open Text

/-! ## Quota pools -/

/-- A parsed URL. -/
structure UsageUrl where
  scheme : String
  username : String
  hasPassword : Bool
  host : Option String
  path : String
  /-- The URL without its query and its fragment. -/
  bare : String
  deriving DecidableEq, Repr

/-- What the quota pools are read off outside the configuration. -/
structure QuotaLibs where
  /-- `Url::parse`. -/
  parseUrl : String → Option UsageUrl
  /-- `credential_string`. -/
  credentialString : String → Option String
  /-- The digest of a secret behind its length, in hexadecimal. -/
  secretDigest : String → String

/-- `zenmux_path_allowed`. -/
def zenmuxPathAllowed (path : String) : Bool :=
  let parts := split (· = '/') (trimMatches (· = '/') path)
  let isQuery := fun part : String => part = "usage" || part = "quota"
  let isVersion := fun part : String => startsWith part "v" && (part.toList.drop 1).all isAsciiDigit
  parts[0]? = some "api"
    && (parts[1]?.any isQuery || (parts[1]?.any isVersion && parts[2]?.all isQuery))

/-- A path is this one or below it. -/
def isBelow (path top : String) : Bool := path = top || startsWith path (top ++ "/")

section

variable (quotas : QuotaLibs)

/-- The provider of `coding_plan_endpoint`. -/
def codingPlanProvider (baseUrl : String) : Option String :=
  match quotas.parseUrl (trimEndMatches (· = '/') baseUrl) with
  | none => none
  | some url =>
    if url.scheme ≠ "https" || url.username ≠ "" || url.hasPassword then none
    else
      url.host.bind fun host =>
        let host := toAsciiLowercase host
        let path := toAsciiLowercase (trimEndMatches (· = '/') url.path)
        if host = "api.kimi.com" && isBelow path "/coding" then some "Kimi Coding Plan"
        else if host ∈ ["open.bigmodel.cn", "bigmodel.cn", "api.z.ai"] && isBelow path "/api/monitor" then
          some "Zhipu GLM Coding Plan"
        else if host ∈ ["api.minimaxi.com", "api.minimax.io"] && isBelow path "/v1/api/openplatform/coding_plan" then
          some "MiniMax Coding Plan"
        else if host ∈ ["api.zenmux.ai", "zenmux.ai"] && zenmuxPathAllowed path then some "ZenMux Coding Plan"
        else if host = "ark.cn-beijing.volces.com" && (isBelow path "/api/coding" || isBelow path "/api/plan") then
          some "Volcengine Coding Plan"
        else none

/-- `provider_from_channel`. -/
def providerFromChannel (baseUrl : String) : String :=
  match quotas.parseUrl baseUrl with
  | none => "thirdparty"
  | some url =>
    let host := toAsciiLowercase (url.host.getD "")
    match [("openrouter.ai", "openrouter"), ("api.deepseek.com", "deepseek"), ("api.xiaomimimo.com", "mimo"),
        ("platform.xiaomimimo.com", "mimo"), ("api.openai.com", "openai-api"),
        ("api.anthropic.com", "anthropic-api"), ("api.moonshot.ai", "moonshot"), ("api.moonshot.cn", "moonshot"),
        ("api.kimi.com", "kimi"), ("api.430123.xyz", "chiral")].lookup host with
    | some provider => provider
    | none =>
      if endsWith host ".430123.xyz" then "chiral"
      else if endsWith host ".volces.com" then "volcengine"
      else "thirdparty"

/-- `normalized_coding_plan_endpoint`. -/
def normalizedCodingPlanEndpoint (baseUrl : String) : String :=
  let endpoint := (quotas.parseUrl baseUrl).map fun url =>
    toAsciiLowercase (url.host.getD "") ++ toAsciiLowercase (trimEndMatches (· = '/') url.path)
  (endpoint.filter (· ≠ "")).getD (trimEndMatches (· = '/') baseUrl)

/-- `normalized_api_endpoint`. -/
def normalizedApiEndpoint (baseUrl : String) : String :=
  match quotas.parseUrl (trimBaseUrl baseUrl) with
  | none => toAsciiLowercase (trimBaseUrl baseUrl)
  | some url => trimEndMatches (· = '/') url.bare

/-- `api_quota_pool_provider`. -/
def apiQuotaPoolProvider (channel : ModelConfig) : String :=
  (codingPlanProvider quotas channel.baseUrl).getD (providerFromChannel quotas channel.baseUrl)

/-- `credential_pool_digest`, of one name. -/
def credentialPoolDigest (name : String) : Option String :=
  (quotas.credentialString name).map quotas.secretDigest

/-- `api_quota_pool_key`. -/
def apiQuotaPoolKey (channel : ModelConfig) : String :=
  let endpoint :=
    if (codingPlanProvider quotas channel.baseUrl).isSome then normalizedCodingPlanEndpoint quotas channel.baseUrl
    else normalizedApiEndpoint quotas channel.baseUrl
  let credential := (credentialPoolDigest quotas channel.credentialName).getD
    ("credential:" ++ toAsciiLowercase channel.credentialName)
  toAsciiLowercase (apiQuotaPoolProvider quotas channel) ++ "|" ++ endpoint ++ "|" ++ credential

end

/-! ## Registration and lookup -/

/-- The labels of a card. -/
def channelLabels (model : ModelConfig) : List String :=
  [trim model.cardAlias, trim model.model].filter (· ≠ "")

/-- The key of a label. -/
def channelKey (label : String) : String := "Codex-Router / " ++ label

/-- The entries of the map, in some order. -/
abbrev ChannelMap := List (String × ModelConfig)

/-- `entry(key).or_insert_with`. -/
def ChannelMap.orInsert (map : ChannelMap) (key : String) (model : ModelConfig) : ChannelMap :=
  if key ∈ map.map (·.1) then map else map ++ [(key, model)]

/-- `register_api_channel`. -/
def registerApiChannel (map : ChannelMap) (model : ModelConfig) : ChannelMap :=
  (channelLabels model).foldl (fun map label => map.orInsert (channelKey label) model) map

/-- `api_channel_for_account`. -/
def apiChannelForAccount (map : ChannelMap) (name : String) : Option ModelConfig :=
  match map.lookup name with
  | some channel => some channel
  | none => (map.find? fun entry => eqIgnoreAsciiCase name entry.1).map (·.2)

/-- The cards that are registered. -/
def registeredCards (cfg : RouterConfig) : List ModelConfig :=
  cfg.models.filter fun model => !(model.source = "oauth" && 0 < model.oauthAccountId)

/-- The map that the accounts are looked up in. -/
def apiChannels (cfg : RouterConfig) : ChannelMap := (registeredCards cfg).foldl registerApiChannel []

/-! ## Entries of the map -/

section

variable {map : ChannelMap} {key label : String} {model channel : ModelConfig} {cards : List ModelConfig}

theorem channelKey_injective {a b : String} (h : channelKey a = channelKey b) : a = b := by
  have hlist := congrArg String.toList h
  rw [channelKey, channelKey, String.toList_append, String.toList_append] at hlist
  exact String.toList_injective (List.append_cancel_left hlist)

theorem mem_keys_orInsert {k : String} :
    k ∈ (map.orInsert key model).map (·.1) ↔ k ∈ map.map (·.1) ∨ k = key := by
  rw [ChannelMap.orInsert]
  split
  · rename_i hthere
    constructor
    · exact .inl
    · rintro (h | rfl)
      · exact h
      · exact hthere
  · simp

theorem mem_orInsert {entry : String × ModelConfig} : entry ∈ map.orInsert key model
    ↔ entry ∈ map ∨ entry = (key, model) ∧ key ∉ map.map (·.1) := by
  rw [ChannelMap.orInsert]
  split
  · rename_i hthere
    simp only [hthere, not_true_eq_false, and_false, or_false]
  · rename_i hnew
    simp only [List.mem_append, List.mem_singleton, hnew, not_false_eq_true, and_true]

theorem nodup_orInsert (h : (map.map (·.1)).Nodup) : ((map.orInsert key model).map (·.1)).Nodup := by
  rw [ChannelMap.orInsert]
  split
  · exact h
  · rename_i hnew
    rw [List.map_append, List.map_singleton]
    exact h.append (List.nodup_singleton _) (by simpa using hnew)

/-- What a card enters: its labels that are new. -/
theorem mem_foldl_orInsert {labels : List String} {entry : String × ModelConfig} :
    entry ∈ labels.foldl (fun map label => ChannelMap.orInsert map (channelKey label) model) map
      ↔ entry ∈ map ∨ entry.2 = model ∧ ∃ label ∈ labels, entry.1 = channelKey label ∧ entry.1 ∉ map.map (·.1) := by
  induction labels generalizing map with
  | nil => simp
  | cons first rest ih =>
    rw [List.foldl_cons, ih, mem_orInsert, List.exists_mem_cons_iff]
    constructor
    · rintro ((hmem | ⟨rfl, hnew⟩) | ⟨hmodel, label, hlabel, hkey, hnew⟩)
      · exact .inl hmem
      · exact .inr ⟨rfl, .inl ⟨rfl, hnew⟩⟩
      · rw [mem_keys_orInsert, not_or] at hnew
        exact .inr ⟨hmodel, .inr ⟨label, hlabel, hkey, hnew.1⟩⟩
    · rintro (hmem | ⟨hmodel, ⟨hkey, hnew⟩ | ⟨label, hlabel, hkey, hnew⟩⟩)
      · exact .inl (.inl hmem)
      · exact .inl (.inr ⟨Prod.ext hkey hmodel, hkey ▸ hnew⟩)
      · by_cases hfirst : entry.1 = channelKey first
        · exact .inl (.inr ⟨Prod.ext hfirst hmodel, hfirst ▸ hnew⟩)
        · refine .inr ⟨hmodel, label, hlabel, hkey, ?_⟩
          rw [mem_keys_orInsert, not_or]
          exact ⟨hnew, hfirst⟩

/-- The first card that has a label. -/
def FirstLabelled (cards : List ModelConfig) (label : String) (channel : ModelConfig) : Prop :=
  cards.find? (fun card => label ∈ channelLabels card) = some channel

theorem exists_firstLabelled (h : model ∈ cards) (hlabel : label ∈ channelLabels model) :
    ∃ channel, FirstLabelled cards label channel := by
  cases hfind : cards.find? fun card => label ∈ channelLabels card with
  | some channel => exact ⟨channel, hfind⟩
  | none => exact absurd hlabel (by simpa using List.find?_eq_none.mp hfind model h)

theorem firstLabelled_concat : FirstLabelled (cards ++ [model]) label channel
    ↔ FirstLabelled cards label channel
      ∨ channel = model ∧ label ∈ channelLabels model ∧ ∀ card ∈ cards, label ∉ channelLabels card := by
  rw [FirstLabelled, FirstLabelled, List.find?_append, Option.or_eq_some_iff]
  simp only [List.find?_singleton, List.find?_eq_none, decide_eq_true_eq]
  refine or_congr_right ?_
  constructor
  · rintro ⟨hnone, hsome⟩
    split at hsome
    · rename_i hlabel
      exact ⟨(Option.some.inj hsome).symm, by simpa using hlabel, hnone⟩
    · cases hsome
  · rintro ⟨rfl, hlabel, hnone⟩
    exact ⟨hnone, if_pos (by simpa using hlabel)⟩

/-- The map has a key for each label, with the first card that has it. -/
theorem mem_foldl_register_iff : (key, channel) ∈ cards.foldl registerApiChannel []
    ↔ ∃ label, key = channelKey label ∧ FirstLabelled cards label channel := by
  induction cards using List.reverseRecOn generalizing key channel with
  | nil => simp [FirstLabelled]
  | append_singleton cards model ih =>
    have hkeys : ∀ label, channelKey label ∈ (cards.foldl registerApiChannel []).map (·.1)
        ↔ ∃ card ∈ cards, label ∈ channelLabels card := by
      intro label
      rw [List.mem_map]
      constructor
      · rintro ⟨⟨k, c⟩, hmem, rfl⟩
        obtain ⟨label', hkey, hfirst⟩ := ih.mp hmem
        obtain rfl := channelKey_injective hkey
        exact ⟨c, List.mem_of_find?_eq_some hfirst, by simpa using List.find?_some hfirst⟩
      · rintro ⟨card, hcard, hlabel⟩
        obtain ⟨c, hfirst⟩ := exists_firstLabelled hcard hlabel
        exact ⟨(channelKey label, c), ih.mpr ⟨label, rfl, hfirst⟩, rfl⟩
    rw [List.foldl_append, List.foldl_cons, List.foldl_nil, registerApiChannel, mem_foldl_orInsert, ih]
    constructor
    · rintro (⟨label, hkey, hfirst⟩ | ⟨hmodel, label, hlabel, hkey, hnew⟩)
      · exact ⟨label, hkey, firstLabelled_concat.mpr (.inl hfirst)⟩
      · refine ⟨label, hkey, firstLabelled_concat.mpr (.inr ⟨hmodel, hlabel, ?_⟩)⟩
        intro card hcard hthere
        exact hnew (hkey ▸ (hkeys label).mpr ⟨card, hcard, hthere⟩)
    · rintro ⟨label, hkey, hfirst⟩
      rcases firstLabelled_concat.mp hfirst with hfirst | ⟨hmodel, hlabel, hnone⟩
      · exact .inl ⟨label, hkey, hfirst⟩
      · refine .inr ⟨hmodel, label, hlabel, hkey, ?_⟩
        intro hthere
        obtain ⟨card, hcard, hlabel'⟩ := (hkeys label).mp (hkey ▸ hthere)
        exact hnone card hcard hlabel'

theorem nodup_foldl_register (cards : List ModelConfig) {map : ChannelMap} (h : (map.map (·.1)).Nodup) :
    ((cards.foldl registerApiChannel map).map (·.1)).Nodup := by
  have hlabels : ∀ (labels : List String) (model : ModelConfig) (map : ChannelMap), (map.map (·.1)).Nodup →
      ((labels.foldl (fun map label => ChannelMap.orInsert map (channelKey label) model) map).map (·.1)).Nodup := by
    intro labels model
    induction labels with
    | nil => exact fun _ h => h
    | cons first rest ih => exact fun map h => ih _ (nodup_orInsert h)
  induction cards generalizing map with
  | nil => exact h
  | cons card rest ih => exact ih (hlabels _ card map h)

/-- An entry is found under its key. -/
theorem lookup_eq_some_iff_mem (h : (map.map (·.1)).Nodup) : map.lookup key = some channel ↔ (key, channel) ∈ map := by
  induction map with
  | nil => simp
  | cons entry rest ih =>
    rw [List.map_cons, List.nodup_cons] at h
    rw [List.lookup_cons, List.mem_cons, ← ih h.2]
    by_cases heq : key = entry.1
    · have hnot : ¬ rest.lookup key = some channel := by
        rw [ih h.2]
        exact fun hmem => h.1 (heq ▸ List.mem_map_of_mem hmem)
      rw [beq_iff_eq.mpr heq, or_iff_left hnot, Prod.ext_iff, and_iff_right heq, eq_comm]
      exact Option.some_inj
    · rw [beq_eq_false_iff_ne.mpr heq, Prod.ext_iff]
      simp [heq]

end

/-! ## Accounts that are monitored -/

section

variable (libs : Libs) (quotas : QuotaLibs) (cfg : RouterConfig) (model : ModelConfig)

/-- What the account of a card is named behind `Codex-Router / `. -/
def accountLabel : String :=
  let label := if trim model.cardAlias = "" then trim model.model else trim model.cardAlias
  let seed := toAsciiLowercase (trim model.credentialName) ++ "\n" ++ toAsciiLowercase (trimBaseUrl model.baseUrl)
  label ++ " / " ++ (classifyChannelRoute libs model).vendor ++ "-" ++ takeChars (libs.sha256 seed) 8

/-- The account of a card is found, under a channel of its quota pool, in whatever order the map is
gone through. -/
def Monitored : Prop :=
  ∀ order, order.Perm (apiChannels cfg) → ∃ channel,
    apiChannelForAccount order (apiAccountName libs model) = some channel
      ∧ apiQuotaPoolKey quotas channel = apiQuotaPoolKey quotas model

/-- The card is the first one with the label of the account, or no card has it and it is the first one
with a label that differs from it in case only. -/
def NamedFor (channel : ModelConfig) : Prop :=
  FirstLabelled (registeredCards cfg) (accountLabel libs model) channel
    ∨ (∀ card ∈ registeredCards cfg, accountLabel libs model ∉ channelLabels card)
      ∧ ∃ label, eqIgnoreAsciiCase (accountLabel libs model) label = true
        ∧ FirstLabelled (registeredCards cfg) label channel

end

section

variable {libs : Libs} {quotas : QuotaLibs} {cfg : RouterConfig} {model channel : ModelConfig} {order : ChannelMap}

theorem apiAccountName_eq (libs : Libs) (model : ModelConfig) :
    apiAccountName libs model = channelKey (accountLabel libs model) := by
  have hassoc : ∀ label vendor token : String, "Codex-Router / " ++ label ++ " / " ++ vendor ++ "-" ++ token
      = channelKey (label ++ " / " ++ vendor ++ "-" ++ token) := by
    intro label vendor token
    rw [channelKey, String.append_assoc, String.append_assoc, String.append_assoc, String.append_assoc,
      String.append_assoc, String.append_assoc, String.append_assoc]
  unfold apiAccountName accountLabel
  exact hassoc _ _ _

theorem eqIgnoreAsciiCase_channelKey (a b : String) :
    eqIgnoreAsciiCase (channelKey a) (channelKey b) = eqIgnoreAsciiCase a b := by
  rw [eqIgnoreAsciiCase, eqIgnoreAsciiCase, Bool.eq_iff_iff, beq_iff_eq, beq_iff_eq]
  simp only [toAsciiLowercase, channelKey, String.toList_append, List.map_append, String.ofList_inj,
    List.append_cancel_left_eq]

theorem mem_apiChannels_iff {key : String} : (key, channel) ∈ apiChannels cfg
    ↔ ∃ label, key = channelKey label ∧ FirstLabelled (registeredCards cfg) label channel :=
  mem_foldl_register_iff

theorem nodup_of_perm (h : order.Perm (apiChannels cfg)) : (order.map (·.1)).Nodup :=
  (h.map _).nodup_iff.mpr (nodup_foldl_register (registeredCards cfg) List.nodup_nil)

/-- The name is looked up as it stands. -/
theorem lookup_account_iff (h : order.Perm (apiChannels cfg)) :
    order.lookup (apiAccountName libs model) = some channel
      ↔ FirstLabelled (registeredCards cfg) (accountLabel libs model) channel := by
  rw [lookup_eq_some_iff_mem (nodup_of_perm h), h.mem_iff, mem_apiChannels_iff, apiAccountName_eq]
  constructor
  · rintro ⟨label, hkey, hfirst⟩
    rwa [channelKey_injective hkey]
  · exact fun hfirst => ⟨_, rfl, hfirst⟩

theorem lookup_eq_none_of (h : order.Perm (apiChannels cfg))
    (hnone : ∀ card ∈ registeredCards cfg, accountLabel libs model ∉ channelLabels card) :
    order.lookup (apiAccountName libs model) = none := by
  cases hlookup : order.lookup (apiAccountName libs model) with
  | none => rfl
  | some channel =>
    have hfirst := (lookup_account_iff h).mp hlookup
    exact absurd (by simpa using List.find?_some hfirst) (hnone channel (List.mem_of_find?_eq_some hfirst))

/-- What is found is named for the account. -/
theorem namedFor_of_found (h : order.Perm (apiChannels cfg))
    (hfound : apiChannelForAccount order (apiAccountName libs model) = some channel) :
    NamedFor libs cfg model channel := by
  rw [apiChannelForAccount] at hfound
  split at hfound
  · rename_i found hlookup
    rw [← Option.some.inj hfound]
    exact .inl ((lookup_account_iff h).mp hlookup)
  · rename_i hlookup
    refine .inr ⟨?_, ?_⟩
    · intro card hcard hlabel
      obtain ⟨first, hfirst⟩ := exists_firstLabelled hcard hlabel
      rw [(lookup_account_iff h).mpr hfirst] at hlookup
      cases hlookup
    · obtain ⟨⟨key, found⟩, hfind, rfl⟩ := Option.map_eq_some_iff.mp hfound
      obtain ⟨label, rfl, hfirst⟩ := mem_apiChannels_iff.mp (h.mem_iff.mp (List.mem_of_find?_eq_some hfind))
      have hcase := List.find?_some hfind
      rw [apiAccountName_eq, eqIgnoreAsciiCase_channelKey] at hcase
      exact ⟨label, hcase, hfirst⟩

/-- In some order it is found. -/
theorem exists_order (h : NamedFor libs cfg model channel) : ∃ order : ChannelMap, order.Perm (apiChannels cfg)
    ∧ apiChannelForAccount order (apiAccountName libs model) = some channel := by
  rcases h with hfirst | ⟨hnone, label, hcase, hfirst⟩
  · refine ⟨apiChannels cfg, List.Perm.refl _, ?_⟩
    rw [apiChannelForAccount, (lookup_account_iff (List.Perm.refl _)).mpr hfirst]
  · have hmem : (channelKey label, channel) ∈ apiChannels cfg := mem_apiChannels_iff.mpr ⟨label, rfl, hfirst⟩
    have hperm : ((channelKey label, channel) :: (apiChannels cfg).erase (channelKey label, channel)).Perm
        (apiChannels cfg) := (List.perm_cons_erase hmem).symm
    refine ⟨_, hperm, ?_⟩
    have hmatch : eqIgnoreAsciiCase (apiAccountName libs model) (channelKey label) = true := by
      rw [apiAccountName_eq, eqIgnoreAsciiCase_channelKey]
      exact hcase
    have hfind : List.find? (fun entry : String × ModelConfig => eqIgnoreAsciiCase (apiAccountName libs model) entry.1)
        ((channelKey label, channel) :: (apiChannels cfg).erase (channelKey label, channel))
          = some (channelKey label, channel) := by
      simp only [List.find?_cons, hmatch]
    rw [apiChannelForAccount, lookup_eq_none_of hperm hnone]
    simp only [hfind, Option.map_some]

/-- If a card is named for the account, one is found in every order. -/
theorem exists_found (h : NamedFor libs cfg model channel) (hperm : order.Perm (apiChannels cfg)) :
    ∃ found, apiChannelForAccount order (apiAccountName libs model) = some found := by
  rw [apiChannelForAccount]
  split
  · rename_i found _
    exact ⟨found, rfl⟩
  · rename_i hlookup
    rcases h with hfirst | ⟨-, label, hcase, hfirst⟩
    · rw [(lookup_account_iff hperm).mpr hfirst] at hlookup
      cases hlookup
    · have hmem : (channelKey label, channel) ∈ order :=
        hperm.mem_iff.mpr (mem_apiChannels_iff.mpr ⟨label, rfl, hfirst⟩)
      have hsome : (order.find? fun entry => eqIgnoreAsciiCase (apiAccountName libs model) entry.1).isSome = true := by
        rw [List.find?_isSome]
        refine ⟨_, hmem, ?_⟩
        rw [apiAccountName_eq, eqIgnoreAsciiCase_channelKey]
        exact hcase
      obtain ⟨entry, hentry⟩ := Option.isSome_iff_exists.mp hsome
      exact ⟨entry.2, by rw [hentry]; rfl⟩

/-- **Which accounts are monitored**: those for whose name, with the vendor and the digest, a card is
labelled, as long as all cards it could be resolved to are in its quota pool. -/
theorem monitored_iff (libs : Libs) (quotas : QuotaLibs) (cfg : RouterConfig) (model : ModelConfig) :
    Monitored libs quotas cfg model ↔ (∃ channel, NamedFor libs cfg model channel)
      ∧ ∀ channel, NamedFor libs cfg model channel → apiQuotaPoolKey quotas channel = apiQuotaPoolKey quotas model := by
  constructor
  · intro h
    constructor
    · obtain ⟨channel, hfound, -⟩ := h _ (List.Perm.refl _)
      exact ⟨channel, namedFor_of_found (List.Perm.refl _) hfound⟩
    · intro channel hnamed
      obtain ⟨order, hperm, hfound⟩ := exists_order hnamed
      obtain ⟨found, hfound', hpool⟩ := h order hperm
      rw [hfound, Option.some.injEq] at hfound'
      rw [hfound']
      exact hpool
  · rintro ⟨⟨channel, hnamed⟩, hpools⟩ order hperm
    obtain ⟨found, hfound⟩ := exists_found hnamed hperm
    exact ⟨found, hfound, hpools found (namedFor_of_found hperm hfound)⟩

/-- The label of an account has a slash. -/
theorem slash_mem_accountLabel (libs : Libs) (model : ModelConfig) : '/' ∈ (accountLabel libs model).toList := by
  simp [accountLabel, String.toList_append]

theorem slash_mem_of_eqIgnoreAsciiCase {s t : String} (h : eqIgnoreAsciiCase s t = true) (hs : '/' ∈ s.toList) :
    '/' ∈ t.toList := by
  have hlower : s.toList.map Char.toLower = t.toList.map Char.toLower := by
    rw [eqIgnoreAsciiCase, beq_iff_eq, toAsciiLowercase, toAsciiLowercase, String.ofList_inj] at h
    exact h
  have hmem : '/' ∈ t.toList.map Char.toLower := hlower ▸ List.mem_map_of_mem (f := Char.toLower) hs
  obtain ⟨c, hc, hslash⟩ := List.mem_map.mp hmem
  have heq : c = '/' := (toLower_eq_iff (by decide)).mp hslash
  exact heq ▸ hc

/-- No account is monitored where no label has a slash. -/
theorem not_monitored_of_noSlash (h : ∀ card ∈ registeredCards cfg, ∀ label ∈ channelLabels card, '/' ∉ label.toList) :
    ¬ Monitored libs quotas cfg model := by
  rw [monitored_iff]
  rintro ⟨⟨channel, hnamed⟩, -⟩
  have hlabel : ∃ label, '/' ∈ label.toList ∧ FirstLabelled (registeredCards cfg) label channel := by
    rcases hnamed with hfirst | ⟨-, label, hcase, hfirst⟩
    · exact ⟨_, slash_mem_accountLabel libs model, hfirst⟩
    · exact ⟨label, slash_mem_of_eqIgnoreAsciiCase hcase (slash_mem_accountLabel libs model), hfirst⟩
  obtain ⟨label, hslash, hfirst⟩ := hlabel
  exact h channel (List.mem_of_find?_eq_some hfirst) label (by simpa using List.find?_some hfirst) hslash

end

/-! ## Runs -/

namespace MonitorRun

/-- The card of a relay. -/
def card : ModelConfig :=
  { model := "gpt-5.6-sol", cardAlias := "Sol", baseUrl := "https://relay.example/v1", credentialName := "relay" }

def cfg : RouterConfig := { models := [card] }

/-- The digest of the card's credential and base URL. -/
def libs : Libs :=
  { plainLibs with
    sha256 := fun seed =>
      if seed = "relay\nhttps://relay.example/v1" then "322008b95e0959fd05c3a0fbfe5e7bab70a60d6a17dc66c4e1efdd6369b5ce86"
      else "" }

/-- The base URL of the card, which has no stored secret. -/
def quotas : QuotaLibs where
  parseUrl url :=
    if url = "https://relay.example/v1" then
      some ⟨"https", "", false, some "relay.example", "/v1", "https://relay.example/v1"⟩
    else none
  credentialString _ := none
  secretDigest := id

/-- The only card of the configuration is not found. -/
theorem not_monitored_card : card ∈ cfg.models ∧ card.source ≠ "oauth"
    ∧ apiAccountName libs card = "Codex-Router / Sol / openai-322008b9" ∧ ¬ Monitored libs quotas cfg card := by
  refine ⟨by decide, by decide, by decide +kernel, not_monitored_of_noSlash ?_⟩
  have hslash : ∀ c ∈ registeredCards cfg, (channelLabels c).all fun label => !(label.toList.contains '/') := by
    decide +kernel
  intro c hc label hlabel hmem
  have hno := List.all_eq_true.mp (hslash c hc) label hlabel
  rw [List.contains_iff_mem.mpr hmem] at hno
  cases hno

end MonitorRun

end CodexRouter
