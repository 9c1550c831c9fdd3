/-
# Taking Router out of a configuration

`sanitize_router_config` makes a configuration of Codex without Router of one with it.  It does so when Router is
routed to, and when the provider `codex_router` is there under the label of Router, as it is kept for old
conversations; any other document stays what it is.

The keys of the route are taken out in both cases, whoever has set them; everything else is kept
(`sanitizedFrom_sanitizeRouterConfig`).
-/
import CodexRouter.RouteSwitch

namespace CodexRouter

open TomlTable (Below)

/-! ## The sanitizer -/

/-- `remove_table_value`. -/
def removeTableValue (document : TomlTable) (tableName key : String) : TomlTable := document.removeAt [tableName, key]

/-- `remove_nested_table_value`. -/
def removeNestedTableValue (document : TomlTable) (parentName tableName key : String) : TomlTable :=
  document.removeAt [parentName, tableName, key]

/-- `dormant_router_provider`. -/
def dormantRouterProvider (document : TomlTable) : Bool :=
  (document.itemAt ["model_providers", "codex_router"]).any isLabelled

/-- The keys at the top that are taken out. -/
def sanitizedTopKeys : List String := topRouteKeys ++ ["forced_login_method"]

/-- The route is taken out. -/
def removeRoute (document : TomlTable) : TomlTable :=
  let document := sanitizedTopKeys.foldl TomlTable.remove document
  let document := threadRouteKeys.foldl (fun document key => removeNestedTableValue document "models" "new_thread" key)
    document
  removeTableValue (removeTableValue document "features" "fast_mode") "desktop" "enabled-reasoning-efforts"

/-- The providers of Router are taken out. -/
def takeOutProviders (activeRouterProvider : Option String) (providers : TomlTable) : TomlTable :=
  let providers := activeRouterProvider.elim providers providers.remove
  let providers := (providers.remove "codex_router").remove "sub2api"
  if (providers.get "custom").any isLabelled then providers.remove "custom" else providers

/-- A table of providers without any is taken out. -/
def removeEmptyProviders (document : TomlTable) : TomlTable :=
  if ((document.get "model_providers").bind TomlItem.asTableLike).any List.isEmpty then document.remove "model_providers"
  else document

/-- `sanitize_router_config`, of a document. -/
def sanitizeDocument (document : TomlTable) : TomlTable :=
  let active := currentRouterProvider document
  if active.isNone && !dormantRouterProvider document then document
  else
    let sanitized := (removeRoute document).mapTable "model_providers" (takeOutProviders active)
    preserveWindowsSandboxConfig document (normalizeWindowsSandboxConfig (removeEmptyProviders sanitized))

/-- `sanitize_router_config`: what is not valid TOML stays what it is. -/
def sanitizeRouterConfig (text : Option TomlTable) : Option TomlTable := text.map sanitizeDocument

/-! ## What it does -/

/-- Router is routed to, or its provider is kept for old conversations. -/
def HasRouter (document : TomlTable) : Prop :=
  (currentRouterProvider document).isSome ∨ dormantRouterProvider document = true

/-- The providers that are Router's. -/
def RouterOwned (document : TomlTable) (providerId : String) : Prop :=
  providerId = "codex_router" ∨ providerId = "sub2api"
    ∨ (providerId = "custom" ∧ (document.itemAt ["model_providers", "custom"]).any isLabelled = true)

/-- The key paths of the route. -/
def sanitizedKeys : List (List String) := sanitizedTopKeys.map (fun key => [key]) ++ tableRouteKeys

/-- Router is taken out of a document with Router; beside its providers nothing is taken out but keys of the route,
and those only of such a document; and doing it again changes nothing. -/
structure SanitizedFrom (document sanitized : TomlTable) : Prop where
  removed : HasRouter document → WithoutRouter sanitized ∧
    ∀ providerId, (sanitized.get "model_provider").bind TomlItem.asStr = some providerId → ¬ RouterOwned sanitized providerId
  kept : ∀ path, (∀ providerId, RouterOwned document providerId → ¬ ["model_providers", providerId] <+: path) →
    (HasRouter document → ¬ Below sanitizedKeys path) → sanitized.valueAt path = document.valueAt path
  again : sanitizeDocument sanitized = sanitized

section

variable {document next : TomlTable} {key providerId : String} {path : List String}

/-! ## The route -/

theorem foldl_removeNested_get (keys : List String) (document : TomlTable) (hkey : key ≠ "models") :
    TomlTable.get (keys.foldl (fun document key => removeNestedTableValue document "models" "new_thread" key) document)
      key = document.get key := by
  induction keys generalizing document with
  | nil => rfl
  | cons first rest ih => rw [List.foldl_cons, ih, removeNestedTableValue, TomlTable.get_removeAt_of_ne _ _ hkey]

/-- The keys that the route does not go through. -/
theorem get_removeRoute (document : TomlTable) (hkey : key ∉ ["models", "features", "desktop"]) :
    (removeRoute document).get key = if key ∈ sanitizedTopKeys then none else document.get key := by
  simp only [List.mem_cons, List.not_mem_nil, or_false, not_or] at hkey
  obtain ⟨hmodels, hfeatures, hdesktop⟩ := hkey
  unfold removeRoute
  dsimp only
  rw [removeTableValue, TomlTable.get_removeAt_of_ne _ _ hdesktop, removeTableValue,
    TomlTable.get_removeAt_of_ne _ _ hfeatures, foldl_removeNested_get _ _ hmodels, TomlTable.get_foldl_remove]

theorem valueAt_foldl_removeNested (keys : List String) (document : TomlTable)
    (hpath : ∀ key ∈ keys, ¬ ["models", "new_thread", key] <+: path) :
    TomlTable.valueAt
      (keys.foldl (fun document key => removeNestedTableValue document "models" "new_thread" key) document) path
      = document.valueAt path := by
  induction keys generalizing document with
  | nil => rfl
  | cons first rest ih =>
    rw [List.foldl_cons, ih _ fun key hkey => hpath key (List.mem_cons_of_mem _ hkey), removeNestedTableValue,
      TomlTable.valueAt_removeAt (by simp), if_neg (hpath first List.mem_cons_self)]

/-- Nothing is taken out but the route. -/
theorem valueAt_removeRoute (document : TomlTable) (hpath : ¬ Below sanitizedKeys path) :
    (removeRoute document).valueAt path = document.valueAt path := by
  have hnot : ∀ top ∈ sanitizedKeys, ¬ top <+: path := fun top htop hle => hpath ⟨top, htop, hle⟩
  unfold removeRoute
  dsimp only
  rw [removeTableValue, TomlTable.valueAt_removeAt (by simp), if_neg (hnot _ (by decide)), removeTableValue,
    TomlTable.valueAt_removeAt (by simp), if_neg (hnot _ (by decide)), valueAt_foldl_removeNested]
  · cases path with
    | nil => rfl
    | cons key rest =>
      have hkey : key ∉ sanitizedTopKeys := by
        intro hmem
        exact hnot [key] (List.mem_append_left _ (List.mem_map_of_mem hmem)) ⟨rest, rfl⟩
      rw [TomlTable.valueAt_cons, TomlTable.get_foldl_remove, if_neg hkey, TomlTable.valueAt_cons]
  · intro key hkey
    refine hnot _ (List.mem_append_right _ (List.mem_append_left _ ?_))
    exact List.mem_map_of_mem (f := fun key => ["models", "new_thread", key]) hkey

/-! ## The providers -/

/-- A provider that is routed to is one of Router. -/
theorem routerOwned_of_current (h : currentRouterProvider document = some providerId) :
    RouterOwned document providerId := by
  rw [currentRouterProvider, Option.filter_eq_some_iff] at h
  obtain ⟨-, hkey⟩ := h
  simp only [Bool.and_eq_true, Bool.or_eq_true, decide_eq_true_eq, List.mem_cons, List.not_mem_nil, or_false] at hkey
  obtain ⟨rfl | rfl | rfl, hlabelled⟩ := hkey
  · exact .inl rfl
  · exact .inr (.inr ⟨rfl, hlabelled.resolve_left (by decide)⟩)
  · exact .inr (.inl rfl)

/-- The providers of Router are taken out, and no others. -/
theorem get_takeOutProviders (document : TomlTable) (providerId : String) :
    ((takeOutProviders (currentRouterProvider document) (document.tableAt "model_providers")).get providerId
        = (document.tableAt "model_providers").get providerId
      ∧ ¬ RouterOwned document providerId)
    ∨ ((takeOutProviders (currentRouterProvider document) (document.tableAt "model_providers")).get providerId = none
      ∧ RouterOwned document providerId) := by
  have hactive : ∀ key, TomlTable.get ((((currentRouterProvider document).elim (document.tableAt "model_providers")
      (document.tableAt "model_providers").remove).remove "codex_router").remove "sub2api") key
      = if key = "sub2api" ∨ key = "codex_router" ∨ currentRouterProvider document = some key then none
        else (document.tableAt "model_providers").get key := by
    intro key
    rw [TomlTable.get_remove, TomlTable.get_remove]
    by_cases hsub2api : key = "sub2api"
    · rw [if_pos hsub2api, if_pos (.inl hsub2api)]
    by_cases hrouter : key = "codex_router"
    · rw [if_neg hsub2api, if_pos hrouter, if_pos (.inr (.inl hrouter))]
    rw [if_neg hsub2api, if_neg hrouter]
    cases currentRouterProvider document with
    | none => simp [hsub2api, hrouter]
    | some active =>
      rw [Option.elim_some, TomlTable.get_remove]
      by_cases hsame : key = active
      · simp [hsame]
      · simp [hsub2api, hrouter, hsame, Ne.symm hsame]
  have hcustom : (document.itemAt ["model_providers", "custom"]).any isLabelled
      = ((document.tableAt "model_providers").get "custom").any isLabelled := by rw [TomlTable.itemAt_pair]
  unfold takeOutProviders
  dsimp only
  generalize (((currentRouterProvider document).elim (document.tableAt "model_providers")
      (document.tableAt "model_providers").remove).remove "codex_router").remove "sub2api" = providers at hactive
  by_cases howned : RouterOwned document providerId
  · right
    refine ⟨?_, howned⟩
    by_cases hrouted : providerId = "sub2api" ∨ providerId = "codex_router" ∨ currentRouterProvider document = some providerId
    · have hnone := (hactive providerId).trans (if_pos hrouted)
      split
      · rw [TomlTable.get_remove, hnone, ite_self]
      · exact hnone
    · simp only [not_or] at hrouted
      obtain ⟨rfl, hlabelled⟩ := (howned.resolve_left hrouted.2.1).resolve_left hrouted.1
      have hsame := (hactive "custom").trans (if_neg (by simp [hrouted]))
      rw [hcustom] at hlabelled
      rw [hsame, if_pos hlabelled, TomlTable.get_remove, if_pos rfl]
  · left
    refine ⟨?_, howned⟩
    have hrouted : ¬ (providerId = "sub2api" ∨ providerId = "codex_router" ∨ currentRouterProvider document = some providerId) := by
      rintro (rfl | rfl | hcurrent)
      · exact howned (.inr (.inl rfl))
      · exact howned (.inl rfl)
      · exact howned (routerOwned_of_current hcurrent)
    have hsame := (hactive providerId).trans (if_neg hrouted)
    split
    · rename_i hlabelled
      rw [TomlTable.get_remove, if_neg, hsame]
      rintro rfl
      rw [hsame, ← hcustom] at hlabelled
      exact howned (.inr (.inr ⟨rfl, hlabelled⟩))
    · exact hsame

theorem takeOutProviders_nil (active : Option String) : takeOutProviders active [] = [] := by
  cases active <;> rfl

/-! ## The whole -/

/-- The document without Router. -/
def withoutRouter (document : TomlTable) : TomlTable :=
  removeEmptyProviders
    ((removeRoute document).mapTable "model_providers" (takeOutProviders (currentRouterProvider document)))

theorem get_removeEmptyProviders (document : TomlTable) (hkey : key ≠ "model_providers") :
    (removeEmptyProviders document).get key = document.get key := by
  rw [removeEmptyProviders]
  split
  · rw [TomlTable.get_remove, if_neg hkey]
  · rfl

theorem tableAt_removeEmptyProviders (document : TomlTable) :
    (removeEmptyProviders document).tableAt "model_providers" = document.tableAt "model_providers" := by
  rw [removeEmptyProviders]
  split
  · rename_i hempty
    rw [TomlTable.tableAt, TomlTable.get_remove, if_pos rfl, TomlTable.tableAt]
    obtain ⟨providers, hproviders, hnil⟩ := (Option.any_eq_true _ _).mp hempty
    rw [hproviders, Option.getD_some, List.isEmpty_iff.mp hnil]
    rfl
  · rfl

/-- What is left is read off the document. -/
theorem get_withoutRouter (document : TomlTable) (hkey : key ∉ ["model_providers", "models", "features", "desktop"]) :
    (withoutRouter document).get key = if key ∈ sanitizedTopKeys then none else document.get key := by
  rw [List.mem_cons, not_or] at hkey
  rw [withoutRouter, get_removeEmptyProviders _ hkey.1, TomlTable.get_mapTable_of_ne hkey.1, get_removeRoute _ hkey.2]

theorem tableAt_withoutRouter (document : TomlTable) : (withoutRouter document).tableAt "model_providers"
    = takeOutProviders (currentRouterProvider document) (document.tableAt "model_providers") := by
  have hget : (removeRoute document).get "model_providers" = document.get "model_providers" := by
    rw [get_removeRoute _ (by decide), if_neg (by decide)]
  rw [withoutRouter, tableAt_removeEmptyProviders, TomlTable.tableAt_mapTable (takeOutProviders_nil _),
    TomlTable.tableAt, hget, TomlTable.tableAt]

/-- The marker of the sandbox is in the document as before. -/
theorem sanitizeDocument_eq (document : TomlTable) :
    (HasRouter document ∧ sanitizeDocument document = withoutRouter document)
      ∨ (¬ HasRouter document ∧ sanitizeDocument document = document) := by
  have hrouter : HasRouter document
      ↔ ¬ ((currentRouterProvider document).isNone && !dormantRouterProvider document) = true := by
    unfold HasRouter
    cases currentRouterProvider document <;> cases dormantRouterProvider document <;> simp
  unfold sanitizeDocument
  dsimp only
  by_cases hhas : HasRouter document
  · left
    refine ⟨hhas, ?_⟩
    have hsandbox : windowsSandboxValue (withoutRouter document) = windowsSandboxValue document := by
      rw [windowsSandboxValue, get_withoutRouter _ (by decide), if_neg (by decide), windowsSandboxValue]
    rw [if_neg (hrouter.mp hhas), normalizeWindowsSandboxConfig]
    show preserveWindowsSandboxConfig document (withoutRouter document) = withoutRouter document
    unfold preserveWindowsSandboxConfig
    rw [hsandbox]
    cases hvalue : windowsSandboxValue document with
    | none => rfl
    | some value =>
      by_cases helevated : value = "elevated"
      · simp [helevated]
      · simp [helevated]
  · right
    exact ⟨hhas, if_pos (by_contra fun h => hhas (hrouter.mpr h))⟩

theorem sanitizeDocument_of_hasRouter (h : HasRouter document) : sanitizeDocument document = withoutRouter document :=
  (sanitizeDocument_eq document).elim And.right fun hnot => absurd h hnot.1

theorem sanitizeDocument_of_not (h : ¬ HasRouter document) : sanitizeDocument document = document :=
  (sanitizeDocument_eq document).elim (fun hhas => absurd hhas.1 h) And.right

theorem withoutRouter_withoutRouter (document : TomlTable) : WithoutRouter (withoutRouter document) := by
  have hitem : ∀ providerId, (withoutRouter document).itemAt ["model_providers", providerId]
      = (takeOutProviders (currentRouterProvider document) (document.tableAt "model_providers")).get providerId := by
    intro providerId
    rw [TomlTable.itemAt_pair, tableAt_withoutRouter]
  have howned : ∀ providerId, RouterOwned document providerId →
      (withoutRouter document).itemAt ["model_providers", providerId] = none := by
    intro providerId h
    rw [hitem]
    rcases get_takeOutProviders document providerId with ⟨-, hnot⟩ | ⟨hnone, -⟩
    · exact absurd h hnot
    · exact hnone
  refine ⟨howned _ (.inl rfl), howned _ (.inr (.inl rfl)), ?_⟩
  rw [hitem]
  rcases get_takeOutProviders document "custom" with ⟨hsame, hnot⟩ | ⟨hnone, -⟩
  · rw [hsame, ← TomlTable.itemAt_pair]
    exact Bool.eq_false_iff.mpr fun hlabelled => hnot (.inr (.inr ⟨rfl, hlabelled⟩))
  · rw [hnone]
    rfl

theorem modelProvider_withoutRouter (document : TomlTable) : (withoutRouter document).get "model_provider" = none := by
  rw [get_withoutRouter _ (by decide), if_pos (by decide)]

theorem not_hasRouter_withoutRouter (document : TomlTable) : ¬ HasRouter (withoutRouter document) := by
  rintro (hactive | hdormant)
  · rw [currentRouterProvider, modelProvider_withoutRouter] at hactive
    cases hactive
  · rw [dormantRouterProvider, (withoutRouter_withoutRouter document).router] at hdormant
    cases hdormant

/-- A table of providers stays one, or goes; anything else stays. -/
theorem valueAt_modelProviders (document : TomlTable) :
    (withoutRouter document).valueAt ["model_providers"] = document.valueAt ["model_providers"] := by
  have hget : (removeRoute document).get "model_providers" = document.get "model_providers" := by
    rw [get_removeRoute _ (by decide), if_neg (by decide)]
  rw [TomlTable.valueAt_cons, TomlTable.valueAt_cons, withoutRouter, removeEmptyProviders, TomlTable.mapTable, hget]
  cases hproviders : document.get "model_providers" with
  | none => simp [hget, hproviders]
  | some item =>
    cases item with
    | value v => simp [hget, hproviders, TomlItem.asTableLike]
    | table inlined entries =>
      dsimp only
      split
      · rw [TomlTable.get_remove, if_pos rfl]
        rfl
      · rw [TomlTable.get_insert, if_pos rfl]
        rfl

/-- Nothing is taken out but Router and the route. -/
theorem valueAt_withoutRouter (document : TomlTable)
    (hproviders : ∀ providerId, RouterOwned document providerId → ¬ ["model_providers", providerId] <+: path)
    (hroute : ¬ Below sanitizedKeys path) : (withoutRouter document).valueAt path = document.valueAt path := by
  cases path with
  | nil => rfl
  | cons key rest =>
    by_cases hkey : key = "model_providers"
    · subst hkey
      cases rest with
      | nil => exact valueAt_modelProviders document
      | cons providerId rest =>
        rw [TomlTable.valueAt_cons_cons, tableAt_withoutRouter, TomlTable.valueAt_cons_cons, TomlTable.valueAt_cons,
          TomlTable.valueAt_cons]
        rcases get_takeOutProviders document providerId with ⟨hsame, -⟩ | ⟨-, howned⟩
        · rw [hsame]
        · exact absurd ⟨rest, rfl⟩ (hproviders providerId howned)
    · rw [TomlTable.valueAt_cons, withoutRouter, get_removeEmptyProviders _ hkey, TomlTable.get_mapTable_of_ne hkey,
        ← TomlTable.valueAt_cons, valueAt_removeRoute document hroute]

/-- Router and the route are taken out, and nothing else. -/
theorem sanitizedFrom_sanitizeRouterConfig (document : TomlTable) :
    ∃ sanitized, sanitizeRouterConfig (some document) = some sanitized ∧ SanitizedFrom document sanitized := by
  refine ⟨sanitizeDocument document, rfl, ?_⟩
  by_cases hhas : HasRouter document
  · rw [sanitizeDocument_of_hasRouter hhas]
    refine ⟨fun _ => ⟨withoutRouter_withoutRouter document, fun providerId h => ?_⟩, ?_, ?_⟩
    · rw [modelProvider_withoutRouter] at h
      cases h
    · exact fun path hproviders hroute => valueAt_withoutRouter document hproviders (hroute hhas)
    · exact sanitizeDocument_of_not (not_hasRouter_withoutRouter document)
  · rw [sanitizeDocument_of_not hhas]
    exact ⟨fun h => absurd h hhas, fun _ _ _ => rfl, sanitizeDocument_of_not hhas⟩

end

/-! ## A provider for old conversations -/

/-- Only Router is taken out: no provider of it is left and none is routed to, and if none was routed to, everything
else is there. -/
structure SanitizesOnlyRouter (document : TomlTable) : Prop where
  removed : WithoutRouter (sanitizeDocument document)
  unrouted : ∀ providerId, ((sanitizeDocument document).get "model_provider").bind TomlItem.asStr = some providerId →
    ¬ RouterOwned (sanitizeDocument document) providerId
  kept : (∀ providerId, (document.get "model_provider").bind TomlItem.asStr = some providerId →
      ¬ RouterOwned document providerId) → ∀ path,
    (∀ providerId, RouterOwned document providerId → ¬ ["model_providers", providerId] <+: path) →
      (sanitizeDocument document).valueAt path = document.valueAt path
  again : (sanitizeDocument (sanitizeDocument document)).SameValues (sanitizeDocument document)

/-- A model, with the provider that is kept for old conversations. -/
def dormantOverlay : TomlTable :=
  [("model_catalog_json", .str "C:/Users/Test/.codex/model-catalog.codex-router.json"), ("model", .str "deepseek-v4-flash"),
    ("approval_policy", .str "never"),
    ("model_providers", .table false [("codex_router", .table false [("name", .str "Codex-Router")])])]

/-- The model goes with the provider, although nothing is routed to it. -/
theorem not_sanitizesOnlyRouter_dormant : ¬ SanitizesOnlyRouter dormantOverlay := by
  intro h
  have hmodel := h.kept (fun providerId hrouted => by cases hrouted) ["model"] fun providerId _ hle => by
    obtain ⟨rest, hrest⟩ := hle
    exact absurd (List.cons.inj hrest).1 (by decide)
  have hgone : (sanitizeDocument dormantOverlay).valueAt ["model"] = none := by decide +kernel
  have hthere : dormantOverlay.valueAt ["model"] = some (.string "deepseek-v4-flash") := by decide +kernel
  rw [hgone, hthere] at hmodel
  cases hmodel

end CodexRouter
