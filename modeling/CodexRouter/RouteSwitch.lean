/-
# Switching profiles

`merge_codex_route_config` puts the route of a stored configuration into the current one: a dozen key
paths at three depths are replaced, and the provider of the route is carried over.  The merged document
says what the target says at the keys of the route and what the current one says elsewhere, and
switching to Router and back restores it (`merge_carries_and_restores`).
-/
import CodexRouter.RouterConfigText

namespace CodexRouter

open Text

open TomlTable (Below)

/-! ## The windows sandbox -/

/-- A value as its line shows it, without quotes. -/
def unquoted : TomlValue → String
  | .string s => trim s
  | .boolean b => if b then "true" else "false"
  | .integer n => toString n
  | .strings items => "[" ++ join ", " items ++ "]"
  | .other text => trim (trimMatches (· = '"') (trim text))

/-- `windows_sandbox_value`: the lines below the header `[windows]` are read. -/
def windowsSandboxValue (doc : TomlTable) : Option String :=
  match doc.get "windows" with
  | some (.table false windows) =>
    match TomlTable.get windows "sandbox" with
    | some (.value v) => if unquoted v = "" then none else some (unquoted v)
    | _ => none
  | _ => none

/-- `normalize_windows_sandbox_config`. -/
def normalizeWindowsSandboxConfig (doc : TomlTable) : TomlTable := doc

/-- `preserve_windows_sandbox_config`. -/
def preserveWindowsSandboxConfig (current next : TomlTable) : TomlTable :=
  let preferred :=
    if windowsSandboxValue current = some "elevated" || windowsSandboxValue next = some "elevated" then
      some "elevated"
    else if (windowsSandboxValue next).isNone then windowsSandboxValue current
    else none
  match preferred with
  | none => next
  | some value =>
    if windowsSandboxValue next = some value then next
    else next.insert "windows" (.table false ((next.tableAt "windows").insert "sandbox" (.str value)))

/-! ## The route -/

/-- `is_router_provider_label`. -/
def isRouterProviderLabel (name : Option String) : Bool := name = some "Codex-Router" || name = some "OpenAI"

/-- A provider that has the label of Router. -/
def isLabelled (provider : TomlItem) : Bool :=
  isRouterProviderLabel ((provider.asTableLike.bind fun table => table.get "name").bind TomlItem.asStr)

/-- `current_router_provider`. -/
def currentRouterProvider (current : TomlTable) : Option String :=
  ((current.get "model_provider").bind TomlItem.asStr).filter fun providerId =>
    decide (providerId ∈ ["codex_router", "custom", "sub2api"])
      && (providerId = "codex_router" || (current.itemAt ["model_providers", providerId]).any isLabelled)

/-- The keys of the route at the top. -/
def topRouteKeys : List String :=
  ["model_provider", "model", "model_catalog_json", "model_reasoning_effort", "service_tier", "openai_base_url",
    "disable_response_storage"]

/-- The keys of the route among the defaults of new threads. -/
def threadRouteKeys : List String := ["model", "model_reasoning_effort", "service_tier"]

/-- The keys of the route at the top are those of the target. -/
def replaceTopKeys (target current : TomlTable) : TomlTable :=
  topRouteKeys.foldl (fun doc key => target.copyItem (doc.remove key) key) current

/-- A login that is forced to ChatGPT is released. -/
def releaseLogin (doc : TomlTable) : TomlTable :=
  if (doc.get "forced_login_method").bind TomlItem.asStr = some "chatgpt" then doc.remove "forced_login_method"
  else doc

/-- The provider of Router that is routed to, and `sub2api`, are dropped. -/
def dropProviders (router : Option String) (providers : TomlTable) : TomlTable :=
  (match router with
    | some providerId => providers.remove providerId
    | none => providers).remove "sub2api"

/-- `replace_table_value`. -/
def replaceTableValue (current target : TomlTable) (tableName key : String) : Except String TomlTable :=
  match TomlTable.replaceAt [tableName, key] target current with
  | none => .error ("Codex [" ++ tableName ++ "] 必须是 TOML 表")
  | some doc => .ok doc

/-- `replace_nested_table_value`. -/
def replaceNestedTableValue (current target : TomlTable) (parentName tableName key : String) :
    Except String TomlTable :=
  match TomlTable.replaceAt [parentName, tableName, key] target current with
  | none =>
    if (current.valueAt [parentName]).isSome then .error ("Codex [" ++ parentName ++ "] 必须是 TOML 表")
    else .error ("Codex [" ++ parentName ++ "." ++ tableName ++ "] 必须是 TOML 表")
  | some doc => .ok doc

/-- The tables of the route. -/
def replaceTables (target current : TomlTable) : Except String TomlTable :=
  threadRouteKeys.foldlM (fun doc key => replaceNestedTableValue doc target "models" "new_thread" key) current
    >>= fun doc => replaceTableValue doc target "features" "fast_mode"
    >>= fun doc => replaceTableValue doc target "desktop" "enabled-reasoning-efforts"

/-- The provider of the target among the current ones: one of Router wins an id conflict, another one
loses it. -/
def putProvider (name : String) (provider : TomlItem) (providers : TomlTable) : TomlTable :=
  let targetIsRouterOwned := name = "codex_router" || name = "sub2api" || isLabelled provider
  let providers :=
    if targetIsRouterOwned || (providers.get name).isNone then providers.insert name provider else providers
  if targetIsRouterOwned then
    let providers := providers.remove "sub2api"
    if decide (name ≠ "custom") && (providers.get "custom").any isLabelled then providers.remove "custom"
    else providers
  else providers

/-- The provider of the route is carried over. -/
def carryProvider (target current : TomlTable) : Except String TomlTable :=
  match (target.get "model_provider").bind TomlItem.asStr with
  | none => .ok current
  | some name =>
    match target.itemAt ["model_providers", name] with
    | none => .ok current
    | some provider =>
      match current.get "model_providers" with
      | some (.value _) => .error "Codex model_providers 必须是 TOML 表"
      | some (.table inlined providers) =>
        .ok (current.insert "model_providers" (.table inlined (putProvider name provider providers)))
      | none => .ok (current.insert "model_providers" (.table false (putProvider name provider [])))

/-- `merge_codex_route_config`; `none` is a text that is not valid TOML. -/
def mergeCodexRouteConfig (current target : Option TomlTable) : Except String TomlTable :=
  match current, target with
  | none, _ => .error "当前 Codex config.toml 不是有效 TOML"
  | some _, none => .error "待切换的 Codex config.toml 快照不是有效 TOML"
  | some current, some target =>
    let doc := releaseLogin (replaceTopKeys target current)
    let doc := doc.mapTable "model_providers" (dropProviders (currentRouterProvider current))
    replaceTables target doc >>= carryProvider target >>= fun doc =>
      .ok (preserveWindowsSandboxConfig current (normalizeWindowsSandboxConfig doc))

/-! ## The keys of the route -/

/-- The key paths of the route below the tables that they stand in. -/
def tableRouteKeys : List (List String) :=
  threadRouteKeys.map (fun key => ["models", "new_thread", key])
    ++ [["features", "fast_mode"], ["desktop", "enabled-reasoning-efforts"]]

/-- The key paths of the route. -/
def routeKeys : List (List String) := topRouteKeys.map (fun key => [key]) ++ tableRouteKeys

/-- What follows rules of its own. -/
def asideKeys : List (List String) := [["model_providers"], ["windows"], ["forced_login_method"]]

/-- One document after some key paths were replaced by those of another one. -/
def ReplacedAt (paths : List (List String)) (target doc doc' : TomlTable) : Prop :=
  ∀ path, doc'.valueAt path = if Below paths path then target.valueAt path else doc.valueAt path

section

variable {current target doc doc' merged : TomlTable} {path : List String} {key : String}

theorem replacedAt_cons {top : List String} {paths : List (List String)} {doc'' : TomlTable} (hne : top ≠ [])
    (h : TomlTable.replaceAt top target doc = some doc') (h' : ReplacedAt paths target doc' doc'') :
    ReplacedAt (top :: paths) target doc doc'' := by
  intro path
  have hcons : Below (top :: paths) path ↔ top <+: path ∨ Below paths path := by simp [Below]
  rw [h' path, TomlTable.valueAt_replaceAt hne h]
  by_cases hbelow : Below paths path
  · rw [if_pos hbelow, if_pos (hcons.mpr (.inr hbelow))]
  · rw [if_neg hbelow]
    by_cases htop : top <+: path
    · rw [if_pos htop, if_pos (hcons.mpr (.inl htop))]
    · rw [if_neg htop, if_neg fun h => (hcons.mp h).elim htop hbelow]

theorem replacedAt_nil (target doc : TomlTable) : ReplacedAt [] target doc doc := by
  intro path
  rw [if_neg (by simp [Below])]

theorem get_replaceTopKeys (target current : TomlTable) (key : String) :
    (replaceTopKeys target current).get key = if key ∈ topRouteKeys then target.get key else current.get key := by
  have hfold : ∀ (keys : List String) (doc : TomlTable),
      TomlTable.get (keys.foldl (fun doc key => target.copyItem (doc.remove key) key) doc) key
        = if key ∈ keys then target.get key else doc.get key := by
    intro keys
    induction keys with
    | nil => simp
    | cons first rest ih =>
      intro doc
      rw [List.foldl_cons, ih, TomlTable.get_copyItem, TomlTable.get_remove, TomlTable.get_remove]
      by_cases hrest : key ∈ rest
      · rw [if_pos hrest, if_pos (List.mem_cons_of_mem _ hrest)]
      · rw [if_neg hrest]
        by_cases hfirst : key = first
        · rw [if_pos hfirst, if_pos rfl, Option.or_none, if_pos (hfirst ▸ List.mem_cons_self), hfirst]
        · rw [if_neg hfirst, if_neg hfirst, if_neg (by simp [hfirst, hrest])]
  exact hfold topRouteKeys current

theorem get_releaseLogin (doc : TomlTable) (hkey : key ≠ "forced_login_method") :
    (releaseLogin doc).get key = doc.get key := by
  rw [releaseLogin]
  split
  · rw [TomlTable.get_remove, if_neg hkey]
  · rfl

theorem get_preserveWindowsSandboxConfig (current next : TomlTable) (hkey : key ≠ "windows") :
    (preserveWindowsSandboxConfig current next).get key = next.get key := by
  simp only [preserveWindowsSandboxConfig]
  split
  · rfl
  · split
    · rfl
    · rw [TomlTable.get_insert, if_neg hkey]

theorem get_of_carryProvider (h : carryProvider target doc = .ok doc') (hkey : key ≠ "model_providers") :
    doc'.get key = doc.get key := by
  rw [carryProvider] at h
  split at h
  · rw [← Except.ok.inj h]
  · split at h
    · rw [← Except.ok.inj h]
    · split at h
      · cases h
      · rw [← Except.ok.inj h, TomlTable.get_insert, if_neg hkey]
      · rw [← Except.ok.inj h, TomlTable.get_insert, if_neg hkey]

theorem replaceAt_of_replaceTableValue {tableName : String}
    (h : replaceTableValue doc target tableName key = .ok doc') :
    TomlTable.replaceAt [tableName, key] target doc = some doc' := by
  rw [replaceTableValue] at h
  split at h
  · cases h
  · rename_i hreplaced
    rw [← Except.ok.inj h, hreplaced]

theorem replaceAt_of_replaceNestedTableValue {parentName tableName : String}
    (h : replaceNestedTableValue doc target parentName tableName key = .ok doc') :
    TomlTable.replaceAt [parentName, tableName, key] target doc = some doc' := by
  rw [replaceNestedTableValue] at h
  split at h
  · split at h <;> cases h
  · rename_i hreplaced
    rw [← Except.ok.inj h, hreplaced]

theorem bind_eq_ok {α β : Type} {x : Except String α} {f : α → Except String β} {b : β} :
    (x >>= f) = .ok b ↔ ∃ a, x = .ok a ∧ f a = .ok b := by
  cases x with
  | error e => exact ⟨fun h => (by cases h), fun ⟨a, h, _⟩ => (by cases h)⟩
  | ok a => exact ⟨fun h => ⟨a, rfl, h⟩, fun ⟨a', h, h'⟩ => Except.ok.inj h ▸ h'⟩

/-- The tables are replaced key path by key path. -/
theorem replaceTables_eq_ok : replaceTables target doc = .ok doc' ↔ ∃ doc₁ doc₂ doc₃ doc₄,
    replaceNestedTableValue doc target "models" "new_thread" "model" = .ok doc₁
      ∧ replaceNestedTableValue doc₁ target "models" "new_thread" "model_reasoning_effort" = .ok doc₂
      ∧ replaceNestedTableValue doc₂ target "models" "new_thread" "service_tier" = .ok doc₃
      ∧ replaceTableValue doc₃ target "features" "fast_mode" = .ok doc₄
      ∧ replaceTableValue doc₄ target "desktop" "enabled-reasoning-efforts" = .ok doc' := by
  rw [replaceTables, threadRouteKeys]
  simp only [List.foldlM_cons, List.foldlM_nil, bind_eq_ok, pure, Except.pure, Except.ok.injEq, exists_eq_right]
  constructor
  · rintro ⟨doc₃, ⟨doc₁, h₁, doc₂, h₂, h₃⟩, doc₄, h₄, h₅⟩
    exact ⟨doc₁, doc₂, doc₃, doc₄, h₁, h₂, h₃, h₄, h₅⟩
  · rintro ⟨doc₁, doc₂, doc₃, doc₄, h₁, h₂, h₃, h₄, h₅⟩
    exact ⟨doc₃, ⟨doc₁, h₁, doc₂, h₂, h₃⟩, doc₄, h₄, h₅⟩

theorem replacedAt_of_replaceTables (h : replaceTables target doc = .ok doc') :
    ReplacedAt tableRouteKeys target doc doc' := by
  obtain ⟨doc₁, doc₂, doc₃, doc₄, h₁, h₂, h₃, h₄, h₅⟩ := replaceTables_eq_ok.mp h
  exact replacedAt_cons (by simp) (replaceAt_of_replaceNestedTableValue h₁)
    (replacedAt_cons (by simp) (replaceAt_of_replaceNestedTableValue h₂)
      (replacedAt_cons (by simp) (replaceAt_of_replaceNestedTableValue h₃)
        (replacedAt_cons (by simp) (replaceAt_of_replaceTableValue h₄)
          (replacedAt_cons (by simp) (replaceAt_of_replaceTableValue h₅) (replacedAt_nil target doc')))))

theorem get_of_replaceTables (h : replaceTables target doc = .ok doc') (hkey : key ∉ ["models", "features", "desktop"]) :
    doc'.get key = doc.get key := by
  obtain ⟨doc₁, doc₂, doc₃, doc₄, h₁, h₂, h₃, h₄, h₅⟩ := replaceTables_eq_ok.mp h
  simp only [List.mem_cons, List.not_mem_nil, or_false, not_or] at hkey
  obtain ⟨hmodels, hfeatures, hdesktop⟩ := hkey
  rw [TomlTable.get_of_replaceAt (replaceAt_of_replaceTableValue h₅) hdesktop,
    TomlTable.get_of_replaceAt (replaceAt_of_replaceTableValue h₄) hfeatures,
    TomlTable.get_of_replaceAt (replaceAt_of_replaceNestedTableValue h₃) hmodels,
    TomlTable.get_of_replaceAt (replaceAt_of_replaceNestedTableValue h₂) hmodels,
    TomlTable.get_of_replaceAt (replaceAt_of_replaceNestedTableValue h₁) hmodels]

/-! ## One switch -/

/-- The current document with the keys at the top of the target and without its router provider. -/
def routedBase (current target : TomlTable) : TomlTable :=
  (releaseLogin (replaceTopKeys target current)).mapTable "model_providers"
    (dropProviders (currentRouterProvider current))

theorem merge_eq_ok : mergeCodexRouteConfig (some current) (some target) = .ok merged ↔ ∃ doc doc',
    replaceTables target (routedBase current target) = .ok doc ∧ carryProvider target doc = .ok doc'
      ∧ merged = preserveWindowsSandboxConfig current doc' := by
  simp only [mergeCodexRouteConfig, bind_eq_ok, Except.ok.injEq, normalizeWindowsSandboxConfig]
  constructor
  · rintro ⟨doc', ⟨doc, h, h'⟩, rfl⟩
    exact ⟨doc, doc', h, h', rfl⟩
  · rintro ⟨doc, doc', h, h', rfl⟩
    exact ⟨doc', ⟨doc, h, h'⟩, rfl⟩

theorem get_routedBase (current target : TomlTable) (hkey : key ≠ "model_providers") (hlogin : key ≠ "forced_login_method") :
    (routedBase current target).get key = if key ∈ topRouteKeys then target.get key else current.get key := by
  rw [routedBase, TomlTable.get_mapTable_of_ne hkey, get_releaseLogin _ hlogin, get_replaceTopKeys]

theorem valueAt_routedBase (current target : TomlTable) (haside : ¬ Below asideKeys path) :
    (routedBase current target).valueAt path
      = if Below (topRouteKeys.map fun key => [key]) path then target.valueAt path else current.valueAt path := by
  cases path with
  | nil => rw [if_neg (by simp [Below, topRouteKeys])]; rfl
  | cons key path =>
    have hkey : key ≠ "model_providers" ∧ key ≠ "forced_login_method" := by
      constructor <;> rintro rfl <;> simp [Below, asideKeys] at haside
    have hbelow : Below (topRouteKeys.map fun key => [key]) (key :: path) ↔ key ∈ topRouteKeys := by
      simp [Below, eq_comm]
    rw [TomlTable.valueAt_cons, get_routedBase _ _ hkey.1 hkey.2]
    by_cases htop : key ∈ topRouteKeys
    · rw [if_pos htop, if_pos (hbelow.mpr htop), TomlTable.valueAt_cons]
    · rw [if_neg htop, if_neg fun h => htop (hbelow.mp h), TomlTable.valueAt_cons]

theorem below_append_iff {paths paths' : List (List String)} :
    Below (paths ++ paths') path ↔ Below paths path ∨ Below paths' path := by
  simp [Below, or_and_right, exists_or]

/-- A merged document has the route of the target and everything else of the current one. -/
theorem valueAt_merge (h : mergeCodexRouteConfig (some current) (some target) = .ok merged)
    (haside : ¬ Below asideKeys path) :
    merged.valueAt path = if Below routeKeys path then target.valueAt path else current.valueAt path := by
  obtain ⟨doc, doc', htables, hprovider, rfl⟩ := merge_eq_ok.mp h
  have hlast : (preserveWindowsSandboxConfig current doc').valueAt path = doc.valueAt path := by
    cases path with
    | nil => rfl
    | cons key path =>
      have hkey : key ≠ "windows" ∧ key ≠ "model_providers" := by
        constructor <;> rintro rfl <;> simp [Below, asideKeys] at haside
      rw [TomlTable.valueAt_cons, get_preserveWindowsSandboxConfig _ _ hkey.1, get_of_carryProvider hprovider hkey.2,
        TomlTable.valueAt_cons]
  rw [hlast, replacedAt_of_replaceTables htables path, valueAt_routedBase current target haside]
  have hroute : Below routeKeys path ↔ Below (topRouteKeys.map fun key => [key]) path ∨ Below tableRouteKeys path :=
    below_append_iff
  by_cases htable : Below tableRouteKeys path
  · rw [if_pos htable, if_pos (hroute.mpr (.inr htable))]
  · rw [if_neg htable]
    by_cases htop : Below (topRouteKeys.map fun key => [key]) path
    · rw [if_pos htop, if_pos (hroute.mpr (.inl htop))]
    · rw [if_neg htop, if_neg fun h => (hroute.mp h).elim htop htable]

/-! ## There and back -/

/-- The places of the tables that the route stands in. -/
def tablePlaces : List (List String) := [["models"], ["models", "new_thread"], ["features"], ["desktop"]]

/-- The places of the tables of the route are not taken by values. -/
structure RouteTables (doc : TomlTable) : Prop where
  free : ∀ place ∈ tablePlaces, doc.valueAt place = none
  providers : doc.TableWhenPresent "model_providers"

/-- No provider of a document is owned by Router. -/
structure WithoutRouter (doc : TomlTable) : Prop where
  router : doc.itemAt ["model_providers", "codex_router"] = none
  sub2api : doc.itemAt ["model_providers", "sub2api"] = none
  custom : (doc.itemAt ["model_providers", "custom"]).any isLabelled = false

/-- A document routes to the provider that Router writes. -/
structure RouterGenerated (doc : TomlTable) : Prop where
  route : (doc.get "model_provider").bind TomlItem.asStr = some "codex_router"
  provider : ∃ provider, doc.itemAt ["model_providers", "codex_router"] = some provider

theorem mem_tablePlaces_of_prefix {owned place : List String} (howned : owned ∈ tableRouteKeys) (hplace : place <+: owned)
    (hne : place ≠ owned) : place = [] ∨ place ∈ tablePlaces := by
  simp only [tableRouteKeys, threadRouteKeys, List.map_cons, List.map_nil, List.cons_append, List.nil_append,
    List.mem_cons, List.not_mem_nil, or_false] at howned
  rcases howned with rfl | rfl | rfl | rfl | rfl <;>
    simp only [List.prefix_cons_iff, List.prefix_nil] at hplace <;>
    rcases hplace with rfl | ⟨_, rfl, rfl | ⟨_, rfl, rfl | ⟨_, rfl, rfl⟩⟩⟩ <;> simp_all [tablePlaces]

/-- A key path of the route can be replaced, and the tables stay. -/
theorem exists_replaceAt_route {owned : List String} (howned : owned ∈ tableRouteKeys)
    (hfree : ∀ place ∈ tablePlaces, doc.valueAt place = none) (target : TomlTable) :
    ∃ doc', TomlTable.replaceAt owned target doc = some doc' ∧ ∀ place ∈ tablePlaces, doc'.valueAt place = none := by
  have hne : owned ≠ [] := by
    rintro rfl
    simp [tableRouteKeys, threadRouteKeys] at howned
  obtain ⟨doc', hdoc'⟩ := TomlTable.exists_replaceAt hne (fun place hplace hproper => by
    rcases mem_tablePlaces_of_prefix howned hplace hproper with rfl | hmem
    · rfl
    · exact hfree place hmem) target
  refine ⟨doc', hdoc', fun place hplace => ?_⟩
  rw [TomlTable.valueAt_replaceAt hne hdoc', if_neg, hfree place hplace]
  simp only [tablePlaces, List.mem_cons, List.not_mem_nil, or_false] at hplace
  simp only [tableRouteKeys, threadRouteKeys, List.map_cons, List.map_nil, List.cons_append, List.nil_append,
    List.mem_cons, List.not_mem_nil, or_false] at howned
  rcases howned with rfl | rfl | rfl | rfl | rfl <;> rcases hplace with rfl | rfl | rfl | rfl <;> simp

theorem exists_replaceTables (hfree : ∀ place ∈ tablePlaces, doc.valueAt place = none) (target : TomlTable) :
    ∃ doc', replaceTables target doc = .ok doc' := by
  have hnested : ∀ key ∈ threadRouteKeys, ∀ doc : TomlTable, (∀ place ∈ tablePlaces, doc.valueAt place = none) →
      ∃ doc', replaceNestedTableValue doc target "models" "new_thread" key = .ok doc'
        ∧ ∀ place ∈ tablePlaces, doc'.valueAt place = none := by
    intro key hkey doc hfree
    have howned : ["models", "new_thread", key] ∈ tableRouteKeys := List.mem_append_left _ (List.mem_map_of_mem hkey)
    obtain ⟨doc', hdoc', hfree'⟩ := exists_replaceAt_route howned hfree target
    exact ⟨doc', by rw [replaceNestedTableValue, hdoc'], hfree'⟩
  obtain ⟨doc₁, h₁, hfree₁⟩ := hnested "model" (by simp [threadRouteKeys]) doc hfree
  obtain ⟨doc₂, h₂, hfree₂⟩ := hnested "model_reasoning_effort" (by simp [threadRouteKeys]) doc₁ hfree₁
  obtain ⟨doc₃, h₃, hfree₃⟩ := hnested "service_tier" (by simp [threadRouteKeys]) doc₂ hfree₂
  have hfast : ["features", "fast_mode"] ∈ tableRouteKeys := by simp [tableRouteKeys]
  have hefforts : ["desktop", "enabled-reasoning-efforts"] ∈ tableRouteKeys := by simp [tableRouteKeys]
  obtain ⟨doc₄, h₄, hfree₄⟩ := exists_replaceAt_route hfast hfree₃ target
  obtain ⟨doc₅, h₅, -⟩ := exists_replaceAt_route hefforts hfree₄ target
  exact ⟨doc₅, replaceTables_eq_ok.mpr ⟨doc₁, doc₂, doc₃, doc₄, h₁, h₂, h₃, by rw [replaceTableValue, h₄],
    by rw [replaceTableValue, h₅]⟩⟩

/-- The provider of a route is carried over into a table of providers. -/
theorem exists_carryProvider (hdoc : doc.TableWhenPresent "model_providers") (target : TomlTable) :
    ∃ doc', carryProvider target doc = .ok doc' ∧ doc'.TableWhenPresent "model_providers"
      ∧ (doc' = doc ∧ (∀ name, (target.get "model_provider").bind TomlItem.asStr = some name →
          target.itemAt ["model_providers", name] = none)
        ∨ ∃ name provider, (target.get "model_provider").bind TomlItem.asStr = some name
          ∧ target.itemAt ["model_providers", name] = some provider
          ∧ doc'.tableAt "model_providers" = putProvider name provider (doc.tableAt "model_providers")) := by
  rw [carryProvider]
  cases hname : (target.get "model_provider").bind TomlItem.asStr with
  | none => exact ⟨doc, rfl, hdoc, .inl ⟨rfl, fun name h => by cases h⟩⟩
  | some name =>
    dsimp only
    cases hprovider : target.itemAt ["model_providers", name] with
    | none => exact ⟨doc, rfl, hdoc, .inl ⟨rfl, fun name' h => Option.some.inj h ▸ hprovider⟩⟩
    | some provider =>
      have hput : ∀ (inlined : Bool) (providers : TomlTable),
          (doc.insert "model_providers" (.table inlined providers)).TableWhenPresent "model_providers"
            ∧ (doc.insert "model_providers" (.table inlined providers)).tableAt "model_providers" = providers := by
        intro inlined providers
        constructor
        · intro item hitem
          rw [TomlTable.get_insert, if_pos rfl, Option.some.injEq] at hitem
          rw [← hitem]
          rfl
        · rw [TomlTable.tableAt, TomlTable.get_insert, if_pos rfl]
          rfl
      rw [TomlTable.tableAt]
      cases hproviders : doc.get "model_providers" with
      | none =>
        obtain ⟨htable, hat⟩ := hput false (putProvider name provider [])
        exact ⟨_, rfl, htable, .inr ⟨name, provider, rfl, hprovider, hat⟩⟩
      | some item =>
        cases item with
        | value v => simpa [TomlItem.asTableLike] using hdoc _ hproviders
        | table inlined providers =>
          obtain ⟨htable, hat⟩ := hput inlined (putProvider name provider providers)
          exact ⟨_, rfl, htable, .inr ⟨name, provider, rfl, hprovider, hat⟩⟩

variable {providers : TomlTable} {name : String} {provider : TomlItem}

/-- The provider of Router comes beside the others. -/
theorem get_putProvider_router (hcustom : (providers.get "custom").any isLabelled = false) (key : String) :
    (putProvider "codex_router" provider providers).get key
      = if key = "sub2api" then none else if key = "codex_router" then some provider else providers.get key := by
  simp only [putProvider, decide_true, Bool.true_or, if_true]
  have hother : (decide ("codex_router" ≠ "custom")
      && (TomlTable.get ((providers.insert "codex_router" provider).remove "sub2api") "custom").any isLabelled) = false := by
    simp [hcustom]
  rw [hother, if_neg Bool.false_ne_true, TomlTable.get_remove, TomlTable.get_insert]

/-- A provider that is there is put in without a change. -/
theorem get_putProvider_self (hsame : providers.get name = some provider) (hsub2api : providers.get "sub2api" = none)
    (hcustom : (providers.get "custom").any isLabelled = false) (key : String) :
    (putProvider name provider providers).get key = providers.get key := by
  have hinserted : ∀ key, (providers.insert name provider).get key = providers.get key := by
    intro key
    rw [TomlTable.get_insert]
    split
    · rename_i hkey
      rw [hkey, hsame]
    · rfl
  have hremoved : ∀ key, ((providers.insert name provider).remove "sub2api").get key = providers.get key := by
    intro key
    rw [TomlTable.get_remove, hinserted]
    split
    · rename_i hkey
      rw [hkey, hsub2api]
    · rfl
  simp only [putProvider, hsame, Option.isNone_some, Bool.or_false]
  split
  · rw [hremoved, hcustom, Bool.and_false, if_neg Bool.false_ne_true, hremoved]
  · rfl

theorem get_dropProviders (router : Option String) (providers : TomlTable) (key : String) :
    (dropProviders router providers).get key
      = if key = "sub2api" ∨ router = some key then none else providers.get key := by
  unfold dropProviders
  cases router with
  | none => simp
  | some providerId =>
    rw [TomlTable.get_remove, TomlTable.get_remove]
    by_cases hsub2api : key = "sub2api"
    · simp [hsub2api]
    · by_cases hkey : key = providerId
      · simp [hkey]
      · simp [hsub2api, hkey, Ne.symm hkey]

/-- What a switch does to the providers. -/
theorem exists_merge (hcurrent : RouteTables current) (target : TomlTable) :
    ∃ merged, mergeCodexRouteConfig (some current) (some target) = .ok merged ∧ RouteTables merged
      ∧ (merged.tableAt "model_providers"
            = dropProviders (currentRouterProvider current) (current.tableAt "model_providers")
          ∧ (∀ name, (target.get "model_provider").bind TomlItem.asStr = some name →
            target.itemAt ["model_providers", name] = none)
        ∨ ∃ name provider, (target.get "model_provider").bind TomlItem.asStr = some name
          ∧ target.itemAt ["model_providers", name] = some provider
          ∧ merged.tableAt "model_providers" = putProvider name provider
            (dropProviders (currentRouterProvider current) (current.tableAt "model_providers"))) := by
  have hroute : ∀ place ∈ tablePlaces, ¬ Below asideKeys place ∧ ¬ Below routeKeys place
      ∧ ¬ Below (topRouteKeys.map fun key => [key]) place := by
    intro place hplace
    simp only [tablePlaces, List.mem_cons, List.not_mem_nil, or_false] at hplace
    rcases hplace with rfl | rfl | rfl | rfl <;> refine ⟨?_, ?_, ?_⟩ <;>
      simp [Below, asideKeys, routeKeys, tableRouteKeys, topRouteKeys, threadRouteKeys]
  have hproviders : (releaseLogin (replaceTopKeys target current)).get "model_providers" = current.get "model_providers" := by
    rw [get_releaseLogin _ (by decide), get_replaceTopKeys, if_neg (by simp [topRouteKeys])]
  have hbase : (routedBase current target).TableWhenPresent "model_providers" := by
    apply TomlTable.tableWhenPresent_mapTable
    rw [TomlTable.TableWhenPresent, hproviders]
    exact hcurrent.providers
  have hdropped : (routedBase current target).tableAt "model_providers"
      = dropProviders (currentRouterProvider current) (current.tableAt "model_providers") := by
    rw [routedBase, TomlTable.tableAt_mapTable (by cases currentRouterProvider current <;> rfl), TomlTable.tableAt, hproviders,
      TomlTable.tableAt]
  have hfree : ∀ place ∈ tablePlaces, (routedBase current target).valueAt place = none := by
    intro place hplace
    rw [valueAt_routedBase _ _ (hroute place hplace).1, if_neg (hroute place hplace).2.2, hcurrent.free place hplace]
  obtain ⟨doc, htables⟩ := exists_replaceTables hfree target
  have hdoc : doc.get "model_providers" = (routedBase current target).get "model_providers" :=
    get_of_replaceTables htables (by decide)
  have hcarried : doc.TableWhenPresent "model_providers" := by
    rw [TomlTable.TableWhenPresent, hdoc]
    exact hbase
  obtain ⟨doc', hcarry, htable, hresult⟩ := exists_carryProvider hcarried target
  have hmerge : mergeCodexRouteConfig (some current) (some target)
      = .ok (preserveWindowsSandboxConfig current doc') :=
    merge_eq_ok.mpr ⟨doc, doc', htables, hcarry, rfl⟩
  have hlast : (preserveWindowsSandboxConfig current doc').get "model_providers" = doc'.get "model_providers" :=
    get_preserveWindowsSandboxConfig _ _ (by decide)
  have hat : doc.tableAt "model_providers"
      = dropProviders (currentRouterProvider current) (current.tableAt "model_providers") := by
    rw [TomlTable.tableAt, hdoc, ← hdropped, TomlTable.tableAt]
  refine ⟨_, hmerge, ⟨?_, ?_⟩, ?_⟩
  · intro place hplace
    rw [valueAt_merge hmerge (hroute place hplace).1, if_neg (hroute place hplace).2.1, hcurrent.free place hplace]
  · rw [TomlTable.TableWhenPresent, hlast]
    exact htable
  · rw [TomlTable.tableAt, hlast, ← TomlTable.tableAt, ← hat]
    rcases hresult with ⟨rfl, hnone⟩ | hput
    · exact .inl ⟨rfl, hnone⟩
    · exact .inr hput

/-- A forced login is kept unless it is to ChatGPT. -/
theorem get_login_of_merge (h : mergeCodexRouteConfig (some current) (some target) = .ok merged) :
    merged.get "forced_login_method"
      = if (current.get "forced_login_method").bind TomlItem.asStr = some "chatgpt" then none
        else current.get "forced_login_method" := by
  obtain ⟨doc, doc', htables, hprovider, rfl⟩ := merge_eq_ok.mp h
  have htop : (replaceTopKeys target current).get "forced_login_method" = current.get "forced_login_method" := by
    rw [get_replaceTopKeys, if_neg (by simp [topRouteKeys])]
  rw [get_preserveWindowsSandboxConfig _ _ (by decide), get_of_carryProvider hprovider (by decide),
    get_of_replaceTables htables (by decide), routedBase, TomlTable.get_mapTable_of_ne (by decide), releaseLogin, htop]
  split
  · rw [TomlTable.get_remove, if_pos rfl]
  · exact htop

theorem modelProvider_of_merge (h : mergeCodexRouteConfig (some current) (some target) = .ok merged) {name : String}
    (hname : (target.get "model_provider").bind TomlItem.asStr = some name) :
    (merged.get "model_provider").bind TomlItem.asStr = some name := by
  rw [TomlTable.asStr_get_eq_some] at hname ⊢
  rw [valueAt_merge h (by simp [Below, asideKeys]), if_pos (by simp [Below, routeKeys, topRouteKeys]), hname]

/-- Without a provider of Router there is none to be dropped. -/
theorem WithoutRouter.get_dropProviders (h : WithoutRouter current) (key : String) :
    (dropProviders (currentRouterProvider current) (current.tableAt "model_providers")).get key
      = (current.tableAt "model_providers").get key := by
  obtain ⟨hrouter, hsub2api, hcustom⟩ := h
  rw [TomlTable.itemAt_pair] at hrouter hsub2api hcustom
  rw [CodexRouter.get_dropProviders]
  split
  · rename_i hdropped
    rcases hdropped with rfl | hcurrent
    · exact hsub2api.symm
    · rw [currentRouterProvider, Option.filter_eq_some_iff] at hcurrent
      obtain ⟨-, hkey⟩ := hcurrent
      simp only [Bool.and_eq_true, Bool.or_eq_true, decide_eq_true_eq, List.mem_cons, List.not_mem_nil, or_false,
        TomlTable.itemAt_pair] at hkey
      obtain ⟨rfl | rfl | rfl, hlabelled⟩ := hkey
      · exact hrouter.symm
      · simp [hcustom] at hlabelled
      · exact hsub2api.symm
  · rfl

/-- Switching to Router and back gives the providers from before. -/
theorem get_providers_there_and_back {back : TomlTable} (hcurrent : RouteTables current) (hwithout : WithoutRouter current)
    (htarget : RouterGenerated target) (h : mergeCodexRouteConfig (some current) (some target) = .ok merged)
    (hback : mergeCodexRouteConfig (some merged) (some current) = .ok back) (key : String) :
    (back.tableAt "model_providers").get key = (current.tableAt "model_providers").get key := by
  obtain ⟨hrouter, hsub2api, hcustom⟩ := hwithout
  rw [TomlTable.itemAt_pair] at hrouter hsub2api hcustom
  have hdropped := WithoutRouter.get_dropProviders ⟨by rwa [TomlTable.itemAt_pair], by rwa [TomlTable.itemAt_pair],
    by rwa [TomlTable.itemAt_pair]⟩
  obtain ⟨merged', hmerged', htables, hresult⟩ := exists_merge hcurrent target
  obtain rfl : merged' = merged := Except.ok.inj (hmerged'.symm.trans h)
  obtain ⟨routerProvider, hprovider⟩ := htarget.provider
  -- on the way there the provider of Router comes beside the others
  have hthere : ∀ key, (merged'.tableAt "model_providers").get key
      = if key = "sub2api" then none else if key = "codex_router" then some routerProvider
        else (current.tableAt "model_providers").get key := by
    rcases hresult with ⟨-, hnone⟩ | ⟨name, provider, hname, hnamed, hput⟩
    · rw [hnone _ htarget.route] at hprovider
      cases hprovider
    · rw [htarget.route, Option.some.injEq] at hname
      subst hname
      rw [hprovider, Option.some.injEq] at hnamed
      subst hnamed
      intro key
      rw [hput, get_putProvider_router (by rw [hdropped, hcustom]), hdropped]
  have hdroppedBack : ∀ key, (dropProviders (currentRouterProvider merged') (merged'.tableAt "model_providers")).get key
      = (current.tableAt "model_providers").get key := by
    have hcurrentRouter : currentRouterProvider merged' = some "codex_router" := by
      rw [currentRouterProvider, modelProvider_of_merge h htarget.route]
      simp
    intro key
    rw [get_dropProviders, hcurrentRouter, hthere]
    by_cases hsub : key = "sub2api"
    · rw [if_pos (.inl hsub), hsub, hsub2api]
    · by_cases hkey : key = "codex_router"
      · rw [if_pos (.inr (by rw [hkey])), hkey, hrouter]
      · rw [if_neg (by simp [hsub, Ne.symm hkey]), if_neg hsub, if_neg hkey]
  obtain ⟨back', hback', -, hresultBack⟩ := exists_merge htables current
  obtain rfl : back' = back := Except.ok.inj (hback'.symm.trans hback)
  rcases hresultBack with ⟨hsame, -⟩ | ⟨name, provider, -, hnamed, hput⟩
  · rw [hsame, hdroppedBack]
  · rw [TomlTable.itemAt_pair] at hnamed
    rw [hput, get_putProvider_self (by rw [hdroppedBack, hnamed]) (by rw [hdroppedBack, hsub2api])
      (by rw [hdroppedBack, hcustom]), hdroppedBack]

/-- A merged document has the route of the target and everything else of the current one, and a switch to Router
and back restores a document without a provider of Router. -/
theorem merge_carries_and_restores :
    (∀ current target merged : TomlTable, mergeCodexRouteConfig (some current) (some target) = .ok merged →
        ∀ path, ¬ Below asideKeys path →
          merged.valueAt path = if Below routeKeys path then target.valueAt path else current.valueAt path)
      ∧ ∀ current target : TomlTable, RouteTables current → WithoutRouter current → RouterGenerated target →
        ∃ merged back, mergeCodexRouteConfig (some current) (some target) = .ok merged
          ∧ mergeCodexRouteConfig (some merged) (some current) = .ok back
          ∧ ∀ path, ¬ ["windows"] <+: path →
            ¬ (path = ["forced_login_method"] ∧ current.valueAt path = some (.string "chatgpt")) →
            back.valueAt path = current.valueAt path := by
  refine ⟨fun current target merged h path haside => valueAt_merge h haside, ?_⟩
  intro current target hcurrent hwithout htarget
  obtain ⟨merged, h, htables, -⟩ := exists_merge hcurrent target
  obtain ⟨back, hback, hbackTables, -⟩ := exists_merge htables current
  refine ⟨merged, back, h, hback, ?_⟩
  intro path hwindows hlogin
  by_cases haside : Below asideKeys path
  · simp only [Below, asideKeys, List.mem_cons, List.not_mem_nil, or_false, exists_eq_or_imp, exists_eq_left, hwindows,
      false_or] at haside
    rcases haside with ⟨rest, rfl⟩ | ⟨rest, rfl⟩
    · rw [List.cons_append, List.nil_append, TomlTable.valueAt_cons_of_tableWhenPresent hbackTables.providers,
        TomlTable.valueAt_cons_of_tableWhenPresent hcurrent.providers]
      exact TomlTable.valueAt_congr_get (get_providers_there_and_back hcurrent hwithout htarget h hback) rest
    · rw [List.cons_append, List.nil_append] at hlogin ⊢
      rw [TomlTable.valueAt_cons, get_login_of_merge hback, get_login_of_merge h]
      by_cases hchatgpt : (current.get "forced_login_method").bind TomlItem.asStr = some "chatgpt"
      · -- below the string there was nothing to restore
        rw [if_pos hchatgpt, Option.bind_none, if_neg (by simp), Option.bind_none]
        rw [TomlTable.asStr_get_eq_some] at hchatgpt
        cases rest with
        | nil => exact absurd ⟨rfl, hchatgpt⟩ hlogin
        | cons member rest => exact (TomlTable.valueAt_below_value hchatgpt member rest).symm
      · rw [if_neg hchatgpt, if_neg hchatgpt, TomlTable.valueAt_cons]
  · rw [valueAt_merge hback haside]
    split
    · rfl
    · rename_i hroute
      rw [valueAt_merge h haside, if_neg hroute]

end

/-- What Router writes routes to its provider. -/
theorem routerGenerated_of_generate {parseUrl : String → Option LocalUrl} {args : RouterConfigArgs} {doc out : TomlTable}
    (hdoc : doc.TableWhenPresent "model_providers")
    (h : generateCodexRouterConfig parseUrl (some doc) args = .ok out) : RouterGenerated out := by
  obtain ⟨effort, provider, hinsert, -⟩ := generate_cases h
  have hrouted := routed_of_insert hdoc hinsert
  refine ⟨?_, .table false provider, ?_⟩
  · rw [hrouted.item _ (by simp [routedTables])]
    simp [routedItem, replacedKeys, TomlItem.asStr, TomlItem.str]
  · exact TomlTable.itemAt_of_setAt hinsert

namespace SwitchRun

/-- An official configuration. -/
def official : TomlTable :=
  [("model", .str "gpt-5"), ("features", .table false [("fast_mode", .bool false), ("web_search", .bool true)]),
    ("models", .table false [("new_thread", .table false [("personality", .str "friendly")])])]

/-- A configuration of Router. -/
def router : TomlTable :=
  [("model_provider", .str "codex_router"), ("model", .str "kimi-k3"),
    ("features", .table false [("fast_mode", .bool true)]),
    ("models", .table false [("new_thread", .table false [("model", .str "kimi-k3")])]),
    ("model_providers", .table false [("codex_router", .table false [("name", .str "Codex-Router")])])]

theorem restores_official : ∃ merged back, mergeCodexRouteConfig (some official) (some router) = .ok merged
    ∧ mergeCodexRouteConfig (some merged) (some official) = .ok back
    ∧ ∀ path, ¬ ["windows"] <+: path →
      ¬ (path = ["forced_login_method"] ∧ official.valueAt path = some (.string "chatgpt")) →
      back.valueAt path = official.valueAt path :=
  merge_carries_and_restores.2 official router ⟨by decide, by decide⟩ ⟨rfl, rfl, rfl⟩ ⟨rfl, _, rfl⟩

end SwitchRun

end CodexRouter
