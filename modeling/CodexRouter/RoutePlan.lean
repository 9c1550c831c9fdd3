/-
# The route plan

`build_route_plan` turns the cards of a configuration into rows.  A row says
under which public id its card is published (`publicModelId`), whether the id is
listed in the catalog through this row (`includeInCatalog`) and whether the card
takes part in the routing (`joinRouter`).  The loop carries the set of ids that
the catalog has so far; what a single card asks for is its `Placement`.

`WellPlanned` collects what the later stages rely on.
-/
import CodexRouter.ChannelRoute
import Mathlib.Data.List.Dedup
import Mathlib.Data.List.Sort

namespace CodexRouter

open Text

/-! ## Rows -/

/-- The two values of `served_by`. -/
inductive ServedBy where
  | oauth
  | api
  deriving DecidableEq, Repr

/-- `ModelRoute`. -/
structure ModelRoute where
  index : ℕ
  model : ModelConfig
  source : String
  canonicalModelId : String
  identityKey : String
  identityDisplayCandidate : String
  publicModelId : String
  requestModelIds : List String
  includeInCatalog : Bool
  joinRouter : Bool
  isOauthFallback : Bool
  isMergedOauthRoute : Bool
  servedBy : ServedBy
  deriving DecidableEq, Repr

/-- The public id as the catalog compares it. -/
def ModelRoute.catalogId (route : ModelRoute) : String := toAsciiLowercase route.publicModelId

/-- `RouteDescriptor`. -/
structure RouteDescriptor where
  index : ℕ
  model : ModelConfig
  modelId : String
  source : String
  selected : Bool
  canonicalModelId : String
  identityKey : String
  identityDisplayCandidate : String
  discovered : Bool
  deriving DecidableEq, Repr

/-- `model_source`. -/
def modelSource (model : ModelConfig) : String :=
  let source := toAsciiLowercase (trim model.source)
  if source = "" then "apikey" else source

/-- `is_oauth`. -/
def isOauth (model : ModelConfig) : Bool := modelSource model = "oauth"

/-- `canonical_public_model_id`. -/
def canonicalPublicModelId (modelId : String) : String :=
  if startsWith (modelIdentity modelId).provider "unknown" then trim modelId
  else (modelIdentity modelId).realId

/-- `slugify`. -/
def slugify (libs : Libs) (value : String) : String :=
  let slug := libs.toLowercase
    (mapChars (fun c => if libs.isAlphanumeric c || c = '-' || c = '_' then c else '-') value)
  if slug = "" then "model" else slug

/-- `split_public_model_id`. -/
def splitPublicModelId (libs : Libs) (model : ModelConfig) : String :=
  let slug := slugify libs (canonicalRouteModelId model.model)
  let seed := toAsciiLowercase (trim model.model) ++ "\n"
    ++ toAsciiLowercase (trimBaseUrl model.baseUrl) ++ "\n"
    ++ toAsciiLowercase (trim model.credentialName)
  slug ++ "--api-" ++ takeChars (libs.sha256 seed) 12

/-! ## Descriptors -/

/-- The selection rule of `build_route_plan`. -/
def isSelected (cfg : RouterConfig) (model : ModelConfig) : Bool :=
  !isOauth model
    || match cfg.oauthAccountIds with
      | none => true
      | some ids => model.oauthAccountId ∈ ids

/-- The descriptor of a card. -/
def describe (cfg : RouterConfig) (index : ℕ) (model : ModelConfig) : RouteDescriptor :=
  let modelId := trim model.model
  { index := index
    model := model
    modelId := modelId
    source := modelSource model
    selected := isSelected cfg model
    canonicalModelId := canonicalRouteModelId model.model
    identityKey := modelIdentityKey modelId
    identityDisplayCandidate := (modelIdentity modelId).displayCandidate
    discovered := false }

/-- The first loop of `build_route_plan`; an empty model id is a panic. -/
def describeFrom (cfg : RouterConfig) : ℕ → List ModelConfig → Except String (List RouteDescriptor)
  | _, [] => .ok []
  | index, model :: rest =>
    if trim model.model = "" then
      .error ("Model entry #" ++ toString (index + 1) ++ " has an empty model ID.")
    else
      match describeFrom cfg (index + 1) rest with
      | .ok descriptors => .ok (describe cfg index model :: descriptors)
      | .error e => .error e

/-! ## Placement -/

/-- What the branch on source and policy decides for a card.  A card that is
`listed` asks for an entry of the catalog. -/
structure Placement where
  publicModelId : String
  requestModelIds : List String
  joinRouter : Bool
  isFallback : Bool
  listed : Bool
  deriving DecidableEq, Repr

section

variable (libs : Libs) (cfg : RouterConfig) (descriptors : List RouteDescriptor)

/-- `policy_allows_fallback`. -/
def policyAllowsFallback (d : RouteDescriptor) : Bool :=
  cfg.oauthFallback.enabled && modelRoutePolicy cfg d.modelId ≠ .subscriptionOnly

/-- `matching_oauth`: the selected OAuth cards of the same model. -/
def matchingOauth (d : RouteDescriptor) : List RouteDescriptor :=
  (descriptors.filter fun o => o.source = "oauth" && o.selected).filter fun o =>
    sameModelIdentity o.modelId d.modelId

/-- `matching_api_fallbacks`. -/
def matchingApiFallbacks (d : RouteDescriptor) : List RouteDescriptor :=
  if d.source = "oauth" && policyAllowsFallback cfg d then
    descriptors.filter fun x =>
      x.source ≠ "oauth" && sameModelIdentity x.modelId d.modelId
        && isEligibleOauthApiFallback libs cfg d.model x.model
  else []

/-- The request ids every card starts with. -/
def ownRequestIds (d : RouteDescriptor) : List String :=
  ([canonicalPublicModelId d.modelId, d.modelId].insertionSort (· ≤ ·)).dedup

/-- The placement of a card that keeps its own id. -/
def ownPlacement (d : RouteDescriptor) (listed : Bool) : Placement :=
  { publicModelId := canonicalPublicModelId d.modelId
    requestModelIds := ownRequestIds d
    joinRouter := d.selected
    isFallback := false
    listed := listed }

/-- The branches of `build_route_plan`. -/
def place (d : RouteDescriptor) : Placement :=
  if d.source = "oauth" then ownPlacement d d.selected
  else if policyAllowsFallback cfg d then
    match matchingOauth descriptors d with
    | [] => ownPlacement d true
    | oauth :: rest =>
      -- the channel takes the account's id whether or not it may stand in
      let isFallback := (oauth :: rest).any fun o =>
        isEligibleOauthApiFallback libs cfg o.model d.model
      { publicModelId := canonicalPublicModelId oauth.modelId
        requestModelIds :=
          if isFallback then ((oauth :: rest).map (·.modelId)).dedup else ownRequestIds d
        joinRouter := isFallback
        isFallback := isFallback
        listed := !(oauth :: rest).any (!·.discovered) }
  else
    let sameCount := (descriptors.filter fun x =>
      x.selected && sameModelIdentity x.modelId d.modelId).length
    -- only the public id is split, the request ids were taken before
    { ownPlacement d true with
      publicModelId :=
        if sameCount > 1 then splitPublicModelId libs d.model
        else canonicalPublicModelId d.modelId }

/-- The row of a card. -/
def toRoute (d : RouteDescriptor) (includeInCatalog : Bool) : ModelRoute :=
  let placement := place libs cfg descriptors d
  { index := d.index
    model := d.model
    source := d.source
    canonicalModelId := d.canonicalModelId
    identityKey := d.identityKey
    identityDisplayCandidate := d.identityDisplayCandidate
    publicModelId := placement.publicModelId
    requestModelIds := placement.requestModelIds
    includeInCatalog := includeInCatalog
    joinRouter := placement.joinRouter
    isOauthFallback := placement.isFallback
    isMergedOauthRoute := d.source = "oauth" && policyAllowsFallback cfg d
      && matchingApiFallbacks libs cfg descriptors d ≠ []
    servedBy := if d.source = "oauth" then .oauth else .api }

@[simp] theorem toRoute_model (d : RouteDescriptor) (b : Bool) :
    (toRoute libs cfg descriptors d b).model = d.model := rfl

@[simp] theorem toRoute_source (d : RouteDescriptor) (b : Bool) :
    (toRoute libs cfg descriptors d b).source = d.source := rfl

@[simp] theorem toRoute_includeInCatalog (d : RouteDescriptor) (b : Bool) :
    (toRoute libs cfg descriptors d b).includeInCatalog = b := rfl

@[simp] theorem toRoute_publicModelId (d : RouteDescriptor) (b : Bool) :
    (toRoute libs cfg descriptors d b).publicModelId
      = (place libs cfg descriptors d).publicModelId := rfl

@[simp] theorem toRoute_joinRouter (d : RouteDescriptor) (b : Bool) :
    (toRoute libs cfg descriptors d b).joinRouter
      = (place libs cfg descriptors d).joinRouter := rfl

/-- The second loop; the list holds the ids the catalog has. -/
def planFrom : List String → List RouteDescriptor → List ModelRoute
  | _, [] => []
  | catalogIds, d :: rest =>
    let id := toAsciiLowercase (place libs cfg descriptors d).publicModelId
    if (place libs cfg descriptors d).listed && id ∉ catalogIds then
      toRoute libs cfg descriptors d true :: planFrom (id :: catalogIds) rest
    else toRoute libs cfg descriptors d false :: planFrom catalogIds rest

end

/-- `build_route_plan`. -/
def buildRoutePlan (libs : Libs) (cfg : RouterConfig) : Except String (List ModelRoute) :=
  match describeFrom cfg 0 cfg.models with
  | .ok descriptors => .ok (planFrom libs cfg descriptors [] descriptors)
  | .error e => .error e

/-! ## The descriptors of a configuration -/

/-- Every descriptor describes a card of the configuration. -/
theorem exists_describe {cfg : RouterConfig} {models : List ModelConfig} {index : ℕ}
    {descriptors : List RouteDescriptor} (h : describeFrom cfg index models = .ok descriptors) :
    ∀ d ∈ descriptors, ∃ i, ∃ model ∈ models, d = describe cfg i model := by
  induction models generalizing index descriptors with
  | nil =>
    intro d hd
    rw [describeFrom, Except.ok.injEq] at h
    simp [← h] at hd
  | cons model rest ih =>
    rw [describeFrom] at h
    split at h
    · cases h
    split at h
    · rename_i tail htail
      rw [Except.ok.injEq] at h
      subst h
      intro d hd
      rcases List.mem_cons.mp hd with rfl | hd
      · exact ⟨index, model, List.mem_cons_self, rfl⟩
      · obtain ⟨i, m, hm, hd'⟩ := ih htail d hd
        exact ⟨i, m, List.mem_cons_of_mem _ hm, hd'⟩
    · cases h

/-- Every card has a descriptor. -/
theorem exists_mem_describeFrom {cfg : RouterConfig} {models : List ModelConfig} {index : ℕ}
    {descriptors : List RouteDescriptor} (h : describeFrom cfg index models = .ok descriptors) :
    ∀ model ∈ models, ∃ i, describe cfg i model ∈ descriptors := by
  induction models generalizing index descriptors with
  | nil => simp
  | cons model rest ih =>
    rw [describeFrom] at h
    split at h
    · cases h
    split at h
    · rename_i tail htail
      rw [Except.ok.injEq] at h
      subst h
      intro m hm
      rcases List.mem_cons.mp hm with rfl | hm
      · exact ⟨index, List.mem_cons_self⟩
      · obtain ⟨i, hi⟩ := ih htail m hm
        exact ⟨i, List.mem_cons_of_mem _ hi⟩
    · cases h

/-! ## The rows of a plan -/

section

variable {libs : Libs} {cfg : RouterConfig} {descriptors ds : List RouteDescriptor}
  {k : List String}

/-- Every row is the row of a descriptor, and only a listed one is in the
catalog. -/
theorem exists_toRoute : ∀ r ∈ planFrom libs cfg descriptors k ds, ∃ d ∈ ds,
    r = toRoute libs cfg descriptors d r.includeInCatalog
      ∧ (r.includeInCatalog = true → (place libs cfg descriptors d).listed = true) := by
  induction ds generalizing k with
  | nil => simp [planFrom]
  | cons d rest ih =>
    intro r hr
    have lift : ∀ ids, r ∈ planFrom libs cfg descriptors ids rest → ∃ e ∈ d :: rest,
        r = toRoute libs cfg descriptors e r.includeInCatalog
          ∧ (r.includeInCatalog = true → (place libs cfg descriptors e).listed = true) := by
      intro ids hr
      obtain ⟨e, he, h⟩ := ih r hr
      exact ⟨e, List.mem_cons_of_mem _ he, h⟩
    rw [planFrom] at hr
    split at hr
    · rename_i hlisted
      rcases List.mem_cons.mp hr with rfl | hr
      · exact ⟨d, List.mem_cons_self, rfl, fun _ => (Bool.and_eq_true _ _ ▸ hlisted).1⟩
      · exact lift _ hr
    · rcases List.mem_cons.mp hr with rfl | hr
      · exact ⟨d, List.mem_cons_self, rfl, fun h => by simp [toRoute] at h⟩
      · exact lift _ hr

/-- Every descriptor has a row. -/
theorem exists_mem_planFrom : ∀ d ∈ ds, ∃ b,
    toRoute libs cfg descriptors d b ∈ planFrom libs cfg descriptors k ds := by
  induction ds generalizing k with
  | nil => simp
  | cons d rest ih =>
    intro e he
    rw [planFrom]
    rcases List.mem_cons.mp he with rfl | he
    · split
      · exact ⟨true, List.mem_cons_self⟩
      · exact ⟨false, List.mem_cons_self⟩
    · split
      · obtain ⟨b, hb⟩ := ih (k := _) e he
        exact ⟨b, List.mem_cons_of_mem _ hb⟩
      · obtain ⟨b, hb⟩ := ih (k := k) e he
        exact ⟨b, List.mem_cons_of_mem _ hb⟩

/-- The ids of the catalog rows are new and differ from each other. -/
theorem catalogIds_planFrom :
    (((planFrom libs cfg descriptors k ds).filter (·.includeInCatalog)).map
        ModelRoute.catalogId).Nodup
      ∧ ∀ r ∈ planFrom libs cfg descriptors k ds, r.includeInCatalog = true →
          r.catalogId ∉ k := by
  induction ds generalizing k with
  | nil => simp [planFrom]
  | cons d rest ih =>
    rw [planFrom]
    split
    · rename_i hlisted
      have hnew : toAsciiLowercase (place libs cfg descriptors d).publicModelId ∉ k := by
        exact of_decide_eq_true (Bool.and_eq_true _ _ ▸ hlisted).2
      obtain ⟨hnodup, hfresh⟩ := ih (k :=
        toAsciiLowercase (place libs cfg descriptors d).publicModelId :: k)
      constructor
      · rw [List.filter_cons_of_pos (by rfl), List.map_cons, List.nodup_cons]
        refine ⟨?_, hnodup⟩
        intro hmem
        obtain ⟨r, hr, heq⟩ := List.mem_map.mp hmem
        rw [List.mem_filter] at hr
        refine hfresh r hr.1 hr.2 ?_
        rw [heq]
        exact List.mem_cons_self
      · intro r hr hcat
        rcases List.mem_cons.mp hr with rfl | hr
        · exact hnew
        · exact fun hmem => hfresh r hr hcat (List.mem_cons_of_mem _ hmem)
    · obtain ⟨hnodup, hfresh⟩ := ih (k := k)
      constructor
      · rw [List.filter_cons_of_neg (by simp [toRoute])]
        exact hnodup
      · intro r hr hcat
        rcases List.mem_cons.mp hr with rfl | hr
        · simp [toRoute] at hcat
        · exact hfresh r hr hcat

/-- The id a listed card asks for is in the catalog. -/
theorem exists_catalog_of_listed : ∀ d ∈ ds, (place libs cfg descriptors d).listed = true →
    toAsciiLowercase (place libs cfg descriptors d).publicModelId ∈ k
      ∨ ∃ r ∈ planFrom libs cfg descriptors k ds, r.includeInCatalog = true
        ∧ r.catalogId = toAsciiLowercase (place libs cfg descriptors d).publicModelId := by
  induction ds generalizing k with
  | nil => simp
  | cons d rest ih =>
    intro e he hlisted
    rw [planFrom]
    split
    · rcases List.mem_cons.mp he with rfl | he
      · exact Or.inr ⟨_, List.mem_cons_self, rfl, rfl⟩
      · rcases ih (k := _) e he hlisted with hmem | ⟨r, hr, h⟩
        · rcases List.mem_cons.mp hmem with heq | hmem
          -- the id is the one the head has just entered
          · exact Or.inr ⟨_, List.mem_cons_self, rfl, heq.symm⟩
          · exact Or.inl hmem
        · exact Or.inr ⟨r, List.mem_cons_of_mem _ hr, h⟩
    · rename_i hskip
      rcases List.mem_cons.mp he with rfl | he
      · left
        by_contra hnew
        exact hskip (by simpa [hlisted] using hnew)
      · rcases ih (k := k) e he hlisted with hmem | ⟨r, hr, h⟩
        · exact Or.inl hmem
        · exact Or.inr ⟨r, List.mem_cons_of_mem _ hr, h⟩

end

/-! ## Well-planned rows -/

/-- What the later stages rely on: the catalog lists an id once; a joined OAuth
row has its id in the catalog; a listed channel takes part in the routing. -/
structure WellPlanned (cfg : RouterConfig) (plan : List ModelRoute) : Prop where
  catalog_nodup : ((plan.filter (·.includeInCatalog)).map ModelRoute.catalogId).Nodup
  source_eq : ∀ r ∈ plan, r.source = modelSource r.model
  mem_models : ∀ r ∈ plan, r.model ∈ cfg.models
  oauth_joined : ∀ r ∈ plan, r.source = "oauth" → r.joinRouter = isSelected cfg r.model
  oauth_catalog : ∀ r ∈ plan, r.source = "oauth" → r.joinRouter = true →
    ∃ c ∈ plan, c.includeInCatalog = true ∧ c.catalogId = r.catalogId
  catalog_joined : ∀ r ∈ plan, r.includeInCatalog = true → r.joinRouter = true

section

variable {libs : Libs} {cfg : RouterConfig} {plan : List ModelRoute}

theorem buildRoutePlan_eq_ok (h : buildRoutePlan libs cfg = .ok plan) :
    ∃ descriptors, describeFrom cfg 0 cfg.models = .ok descriptors
      ∧ plan = planFrom libs cfg descriptors [] descriptors := by
  rw [buildRoutePlan] at h
  split at h
  · rename_i descriptors hdescribe
    exact ⟨descriptors, hdescribe, (Except.ok.inj h).symm⟩
  · cases h

/-- An OAuth card keeps its own id and joins when it is selected. -/
theorem place_oauth {descriptors : List RouteDescriptor} {d : RouteDescriptor}
    (h : d.source = "oauth") : place libs cfg descriptors d = ownPlacement d d.selected := by
  rw [place, if_pos h]

/-- A channel is selected whatever the accounts are. -/
theorem isSelected_of_ne_oauth {model : ModelConfig} (h : modelSource model ≠ "oauth") :
    isSelected cfg model = true := by
  simp [isSelected, isOauth, h]

/-- What the descriptors of a configuration have in common: a channel is
selected, and no card is marked as discovered. -/
theorem describe_facts {descriptors : List RouteDescriptor}
    (hdescribe : describeFrom cfg 0 cfg.models = .ok descriptors) :
    ∀ d ∈ descriptors, (d.source ≠ "oauth" → d.selected = true) ∧ d.discovered = false := by
  intro d hd
  obtain ⟨i, model, -, rfl⟩ := exists_describe hdescribe d hd
  simp only [describe]
  exact ⟨fun ho => isSelected_of_ne_oauth ho, trivial⟩

/-- A listed card joins; the channel of an account is not listed. -/
theorem joinRouter_of_listed {descriptors : List RouteDescriptor}
    (hfacts : ∀ d ∈ descriptors, (d.source ≠ "oauth" → d.selected = true) ∧ d.discovered = false)
    {d : RouteDescriptor} (hd : d ∈ descriptors)
    (h : (place libs cfg descriptors d).listed = true) :
    (place libs cfg descriptors d).joinRouter = true := by
  by_cases ho : d.source = "oauth"
  · rw [place_oauth ho] at h ⊢
    exact h
  have hsel := (hfacts d hd).1 ho
  rw [place, if_neg ho] at h ⊢
  by_cases hp : policyAllowsFallback cfg d = true
  · rw [if_pos hp] at h ⊢
    cases hm : matchingOauth descriptors d with
    | nil => exact hsel
    | cons o rest =>
      rw [hm] at h
      have hmem : o ∈ matchingOauth descriptors d := hm ▸ List.mem_cons_self
      have ho : o ∈ descriptors := (List.mem_filter.mp (List.mem_filter.mp hmem).1).1
      simp [(hfacts o ho).2] at h
  · rw [if_neg hp]
    exact hsel

/-- **The plan is well planned.** -/
theorem wellPlanned_buildRoutePlan (h : buildRoutePlan libs cfg = .ok plan) :
    WellPlanned cfg plan := by
  obtain ⟨descriptors, hdescribe, hplan⟩ := buildRoutePlan_eq_ok h
  have hrows : ∀ r ∈ plan, ∃ d ∈ descriptors, ∃ i, ∃ model ∈ cfg.models,
      d = describe cfg i model ∧ r = toRoute libs cfg descriptors d r.includeInCatalog
        ∧ (r.includeInCatalog = true → (place libs cfg descriptors d).listed = true) := by
    intro r hr
    obtain ⟨d, hd, hrow, hlisted⟩ := exists_toRoute r (hplan ▸ hr)
    obtain ⟨i, model, hmodel, heq⟩ := exists_describe hdescribe d hd
    exact ⟨d, hd, i, model, hmodel, heq, hrow, hlisted⟩
  refine ⟨?_, ?_, ?_, ?_, ?_, ?_⟩
  · rw [hplan]
    exact catalogIds_planFrom.1
  · intro r hr
    obtain ⟨d, -, i, model, -, rfl, hrow, -⟩ := hrows r hr
    rw [hrow, toRoute_source, toRoute_model, describe]
  · intro r hr
    obtain ⟨d, -, i, model, hmodel, rfl, hrow, -⟩ := hrows r hr
    rw [hrow, toRoute_model]
    exact hmodel
  · intro r hr ho
    obtain ⟨d, -, i, model, -, rfl, hrow, -⟩ := hrows r hr
    rw [hrow, toRoute_source] at ho
    rw [hrow, toRoute_joinRouter, place_oauth ho, toRoute_model, ownPlacement, describe]
  · intro r hr ho hjoin
    obtain ⟨d, hd, -, -, -, -, hrow, -⟩ := hrows r hr
    rw [hrow, toRoute_source] at ho
    rw [hrow, toRoute_joinRouter, place_oauth ho] at hjoin
    have hlisted : (place libs cfg descriptors d).listed = true := by
      rw [place_oauth ho]
      exact hjoin
    rcases exists_catalog_of_listed (k := []) d hd hlisted with hnil | ⟨c, hc, hcat, hid⟩
    · simp at hnil
    · refine ⟨c, hplan ▸ hc, hcat, ?_⟩
      rw [hid, ModelRoute.catalogId, hrow, toRoute_publicModelId]
  · intro r hr hcat
    obtain ⟨d, hd, -, -, -, -, hrow, hlisted⟩ := hrows r hr
    rw [hrow, toRoute_joinRouter]
    exact joinRouter_of_listed (describe_facts hdescribe) hd (hlisted hcat)

end

end CodexRouter
