/-
# Servable routes and the composite table

The part of `deployment` that decides what is published.  `servable_routes`
makes three passes over the plan: the catalog rows whose backend is there, a
healthy duplicate for every catalog row whose own account is not, and the joined
rows that share an id with one of these.  `visible_public_models` lists the ids
of the first two passes, `build_composite_routes` folds all three into one route
for each public id and platform.

`isolated` is the set of OAuth accounts that are out of order.
-/
import CodexRouter.RoutePlan
import CodexRouter.Base.KeyedTable

namespace CodexRouter

open Text

/-! ## Servable routes -/

/-- `selected_oauth_ids`.  It reads the source of a card as it is spelled, and
only positive account ids count. -/
def selectedOauthIds (cfg : RouterConfig) : List ℤ :=
  let own := (cfg.models.filter (·.source = "oauth")).map (·.oauthAccountId)
  ((cfg.oauthAccountIds.getD own).filter (0 < ·))
    ++ (if cfg.oauthAccountIds.isNone then own.filter (0 < ·) else [])

/-- `joined_api`: the ids that a joined API channel has. -/
def joinedApi (routes : List ModelRoute) : List String :=
  (routes.filter fun r => r.source ≠ "oauth" && r.joinRouter).map ModelRoute.catalogId

section

variable (routes : List ModelRoute) (isolated : List ℤ) (cfg : RouterConfig)

/-- The first pass on one catalog row.  The id of an isolated account is taken
over by a joined channel. -/
def admitRow (route : ModelRoute) : Option ModelRoute :=
  if route.source = "oauth" then
    if route.model.oauthAccountId ∉ selectedOauthIds cfg then none
    else if route.model.oauthAccountId ∈ isolated then
      if route.catalogId ∈ joinedApi routes then some { route with servedBy := .api } else none
    else some route
  else some route

/-- The first pass, over the catalog rows. -/
def catalogPass : List ModelRoute :=
  collectNew ModelRoute.catalogId
    (fun route => if route.includeInCatalog then admitRow routes isolated cfg route else none)
    [] routes

/-- A joined OAuth row outside the catalog whose account is selected and in
order. -/
def isHealthyDuplicate (route : ModelRoute) : Bool :=
  route.source = "oauth" && !route.includeInCatalog && route.joinRouter
    && route.model.oauthAccountId ∈ selectedOauthIds cfg
    && route.model.oauthAccountId ∉ isolated

/-- The second pass on one row: a healthy duplicate takes over a catalog id. -/
def promote (route : ModelRoute) : Option ModelRoute :=
  if isHealthyDuplicate isolated cfg route
      && routes.any fun c => c.includeInCatalog && c.catalogId = route.catalogId then
    some { route with includeInCatalog := true, servedBy := .oauth }
  else none

/-- The rows of the first two passes; the second one skips the ids that the
first one has. -/
def visibleRoutes : List ModelRoute :=
  let visible := catalogPass routes isolated cfg
  visible ++ collectNew ModelRoute.catalogId (promote routes isolated cfg)
    (visible.map ModelRoute.catalogId) routes

/-- The third pass on one row: the joined rows that share an id with a visible
one, without isolated accounts. -/
def isCompanion (servedIds : List String) (route : ModelRoute) : Bool :=
  !route.includeInCatalog && route.joinRouter && route.catalogId ∈ servedIds
    && !(route.source = "oauth" && route.model.oauthAccountId ∈ isolated)

/-- `servable_routes`. -/
def servableRoutes : List ModelRoute :=
  let visible := visibleRoutes routes isolated cfg
  visible ++ routes.filter (isCompanion isolated (visible.map ModelRoute.catalogId))

/-- `visible_public_models`. -/
def visiblePublicModels : List String :=
  collectNew id (fun route => if route.includeInCatalog then some route.publicModelId else none) []
    (servableRoutes routes isolated cfg)

end

/-! ## Composite routes -/

/-- `CompositeRoute`. -/
structure CompositeRoute where
  publicModel : String
  upstreamModel : String
  targetPlatform : String
  priority : ℤ
  deriving DecidableEq, Repr

/-- `composite_platform`. -/
def compositePlatform (model : ModelConfig) (accountPlatforms : List (ℤ × String)) : String :=
  if model.source ≠ "oauth" then "openai"
  else
    let platform :=
      if trim model.oauthPlatform ≠ "" then toAsciiLowercase (trim model.oauthPlatform)
      else (accountPlatforms.lookup model.oauthAccountId).getD "openai"
    if platform = "google_one" then "gemini" else platform

section

variable (accountPlatforms : List (ℤ × String)) (isolated : List ℤ)

/-- The candidate of a row. -/
def compositeCandidate (route : ModelRoute) : CompositeRoute :=
  { publicModel := route.publicModelId
    upstreamModel := route.model.model
    targetPlatform := compositePlatform route.model accountPlatforms
    priority := if route.source = "oauth" then 1 else 100 }

/-- The rows that give a candidate. -/
def isCompositeSource (route : ModelRoute) : Bool :=
  (route.includeInCatalog || route.joinRouter)
    && !(route.source = "oauth" && route.model.oauthAccountId ∈ isolated)

/-- The key of a composite route. -/
def CompositeRoute.key (route : CompositeRoute) : String :=
  toAsciiLowercase route.publicModel ++ "|" ++ route.targetPlatform

/-- `build_composite_routes`. -/
def buildCompositeRoutes (routes : List ModelRoute) : List CompositeRoute :=
  (OrdMap.collect CompositeRoute.key (fun candidate existing => candidate.priority < existing.priority)
    ((routes.filter (isCompositeSource isolated)).map (compositeCandidate accountPlatforms))).map
    Prod.snd

end

/-! ## The rows of the passes -/

/-- Two rows of one card with the same id: they differ in what the catalog and
the backend are at most. -/
structure SameCard (s r : ModelRoute) : Prop where
  publicModelId : s.publicModelId = r.publicModelId
  model : s.model = r.model
  source : s.source = r.source
  joinRouter : s.joinRouter = r.joinRouter

theorem SameCard.refl (r : ModelRoute) : SameCard r r := ⟨rfl, rfl, rfl, rfl⟩

theorem SameCard.catalogId {s r : ModelRoute} (h : SameCard s r) : s.catalogId = r.catalogId := by
  rw [ModelRoute.catalogId, ModelRoute.catalogId, h.publicModelId]

/-- The candidate belongs to the card and its id. -/
theorem SameCard.compositeCandidate {s r : ModelRoute} (h : SameCard s r)
    (accountPlatforms : List (ℤ × String)) :
    compositeCandidate accountPlatforms s = compositeCandidate accountPlatforms r := by
  rw [CodexRouter.compositeCandidate, CodexRouter.compositeCandidate, h.publicModelId, h.model,
    h.source]

section

variable {routes : List ModelRoute} {isolated : List ℤ} {cfg : RouterConfig} {r s v : ModelRoute}

/-- A row that the first pass admits keeps its id, its card and its place in the
catalog. -/
theorem admitRow_eq_some (h : admitRow routes isolated cfg r = some v) :
    SameCard v r ∧ v.includeInCatalog = r.includeInCatalog
      ∧ (r.source = "oauth" → r.model.oauthAccountId ∈ selectedOauthIds cfg
          ∧ (r.model.oauthAccountId ∈ isolated → r.catalogId ∈ joinedApi routes)) := by
  rw [admitRow] at h
  split at h
  · split at h
    · cases h
    rename_i hsel
    rw [not_not] at hsel
    split at h
    · split at h
      · rename_i hapi
        cases h
        exact ⟨⟨rfl, rfl, rfl, rfl⟩, rfl, fun _ => ⟨hsel, fun _ => hapi⟩⟩
      · cases h
    · rename_i hiso
      cases h
      exact ⟨SameCard.refl r, rfl, fun _ => ⟨hsel, fun hiso' => absurd hiso' hiso⟩⟩
  · rename_i ho
    cases h
    exact ⟨SameCard.refl r, rfl, fun ho' => absurd ho' ho⟩

/-- The first pass admits channels, and accounts that are selected and in order
or have a joined channel to stand in. -/
theorem exists_admitRow (hsel : r.source = "oauth" → r.model.oauthAccountId ∈ selectedOauthIds cfg)
    (hiso : r.source = "oauth" → r.model.oauthAccountId ∈ isolated →
      r.catalogId ∈ joinedApi routes) :
    ∃ v, admitRow routes isolated cfg r = some v ∧ v.catalogId = r.catalogId := by
  rw [admitRow]
  by_cases ho : r.source = "oauth"
  · rw [if_pos ho, if_neg (not_not.mpr (hsel ho))]
    by_cases hi : r.model.oauthAccountId ∈ isolated
    · rw [if_pos hi, if_pos (hiso ho hi)]
      exact ⟨_, rfl, rfl⟩
    · rw [if_neg hi]
      exact ⟨_, rfl, rfl⟩
  · rw [if_neg ho]
    exact ⟨_, rfl, rfl⟩

theorem isHealthyDuplicate_iff : isHealthyDuplicate isolated cfg r = true ↔
    r.source = "oauth" ∧ r.includeInCatalog = false ∧ r.joinRouter = true
      ∧ r.model.oauthAccountId ∈ selectedOauthIds cfg ∧ r.model.oauthAccountId ∉ isolated := by
  simp [isHealthyDuplicate, and_assoc]

theorem promote_eq_some (h : promote routes isolated cfg r = some v) :
    SameCard v r ∧ v.includeInCatalog = true ∧ isHealthyDuplicate isolated cfg r = true := by
  rw [promote] at h
  split at h
  · rename_i hdup
    cases h
    exact ⟨⟨rfl, rfl, rfl, rfl⟩, rfl, (Bool.and_eq_true _ _ ▸ hdup).1⟩
  · cases h

theorem exists_promote (h : isHealthyDuplicate isolated cfg r = true)
    (hcat : ∃ c ∈ routes, c.includeInCatalog = true ∧ c.catalogId = r.catalogId) :
    ∃ v, promote routes isolated cfg r = some v ∧ v.catalogId = r.catalogId := by
  rw [promote, h, if_pos]
  · exact ⟨_, rfl, rfl⟩
  · obtain ⟨c, hc, hin, hid⟩ := hcat
    rw [Bool.true_and, List.any_eq_true]
    exact ⟨c, hc, by simp [hin, hid]⟩

theorem isCompanion_iff {servedIds : List String} : isCompanion isolated servedIds r = true ↔
    r.includeInCatalog = false ∧ r.joinRouter = true ∧ r.catalogId ∈ servedIds
      ∧ (r.source = "oauth" → r.model.oauthAccountId ∉ isolated) := by
  simp [isCompanion, and_assoc, imp_iff_not_or]

theorem mem_joinedApi {id : String} : id ∈ joinedApi routes ↔
    ∃ a ∈ routes, a.source ≠ "oauth" ∧ a.joinRouter = true ∧ a.catalogId = id := by
  simp [joinedApi, and_assoc]

/-- A visible row is an admitted catalog row or a promoted duplicate. -/
theorem mem_visibleRoutes (h : v ∈ visibleRoutes routes isolated cfg) : ∃ r ∈ routes,
    SameCard v r ∧ v.includeInCatalog = true
      ∧ (r.includeInCatalog = true ∧ admitRow routes isolated cfg r = some v
        ∨ isHealthyDuplicate isolated cfg r = true) := by
  rcases List.mem_append.mp h with h | h
  · obtain ⟨r, hr, hf⟩ := mem_collectNew h
    split at hf
    · rename_i hcat
      obtain ⟨hsame, hlisted, -⟩ := admitRow_eq_some hf
      exact ⟨r, hr, hsame, hlisted.trans hcat, Or.inl ⟨hcat, hf⟩⟩
    · cases hf
  · obtain ⟨r, hr, hf⟩ := mem_collectNew h
    obtain ⟨hsame, hlisted, hdup⟩ := promote_eq_some hf
    exact ⟨r, hr, hsame, hlisted, Or.inr hdup⟩

/-- The ids of the visible rows differ from each other. -/
theorem nodup_visibleRoutes :
    ((visibleRoutes routes isolated cfg).map ModelRoute.catalogId).Nodup := by
  rw [visibleRoutes, List.map_append, List.nodup_append]
  refine ⟨nodup_collectNew.1, nodup_collectNew.1, ?_⟩
  rintro id hfirst id' hsecond rfl
  obtain ⟨v, hv, rfl⟩ := List.mem_map.mp hsecond
  exact nodup_collectNew.2 v hv hfirst

/-- The id of an admitted catalog row is visible. -/
theorem exists_visible_of_admitRow (hr : r ∈ routes) (hcat : r.includeInCatalog = true)
    (h : admitRow routes isolated cfg r = some s) :
    ∃ v ∈ visibleRoutes routes isolated cfg, v.catalogId = s.catalogId := by
  have hf : (if r.includeInCatalog then admitRow routes isolated cfg r else none) = some s := by
    rw [if_pos hcat]
    exact h
  rcases @exists_mem_collectNew _ _ _ _ ModelRoute.catalogId
      (fun route => if route.includeInCatalog then admitRow routes isolated cfg route else none)
      [] routes r s hr hf with hnil | ⟨v, hv, hid⟩
  · cases hnil
  · exact ⟨v, List.mem_append_left _ hv, hid⟩

/-- The id of a promoted duplicate is visible. -/
theorem exists_visible_of_promote (hr : r ∈ routes)
    (h : promote routes isolated cfg r = some s) :
    ∃ v ∈ visibleRoutes routes isolated cfg, v.catalogId = s.catalogId := by
  rcases @exists_mem_collectNew _ _ _ _ ModelRoute.catalogId (promote routes isolated cfg)
      ((catalogPass routes isolated cfg).map ModelRoute.catalogId) routes r s hr h with
    hseen | ⟨v, hv, hid⟩
  · obtain ⟨v, hv, hid⟩ := List.mem_map.mp hseen
    exact ⟨v, List.mem_append_left _ hv, hid⟩
  · exact ⟨v, List.mem_append_right _ hv, hid⟩

end

end CodexRouter
