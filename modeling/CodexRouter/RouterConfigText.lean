/-
# The configuration of the user

`generate_codex_router_config` writes the routing of Router into the `config.toml` of the user: it takes
half a dozen tables out of the document, edits each, and puts them back.  The table `models.new_thread`
is the one that is not edited but written anew, and what else stood in it is lost (`generates_iff`).
-/
import CodexRouter.CodexToml
import CodexRouter.RequestSanitizer

namespace CodexRouter

open Text

open TomlTable (Below)

/-! ## What is written -/

/-- `REASONING_LEVELS`. -/
def reasoningLevels : List String := ["none", "minimal", "low", "medium", "high", "xhigh", "max", "ultra"]

/-- `normalize_reasoning_effort`. -/
def normalizeReasoningEffort (value : String) : Except String String :=
  let effort := toAsciiLowercase (trim value)
  if effort ∈ reasoningLevels then .ok effort
  else .error ("unsupported Codex reasoning effort: '" ++ value ++ "'")

/-- `table_string`. -/
def tableString (item : TomlItem) (key : String) : Option String :=
  (item.asTableLike.bind fun table => table.get key).bind TomlItem.asStr

/-- `is_legacy_custom_router_provider`. -/
def isLegacyCustomRouterProvider (item : TomlItem) : Bool :=
  let name := trim ((tableString item "name").getD "")
  let baseUrl := toAsciiLowercase (trim ((tableString item "base_url").getD ""))
  let bearer := trim ((tableString item "experimental_bearer_token").getD "")
  decide (name ∈ ["Codex-Router", "Codex Router", "Codex Unified Router"]) || contains baseUrl "127.0.0.1:18081"
    || (contains baseUrl "127.0.0.1:15721/v1" && decide (bearer = "PROXY_MANAGED"))

/-- The arguments of `generate_codex_router_config` behind the document.  The permission source is a
document too; `some none` is one that is not valid TOML. -/
structure RouterConfigArgs where
  model : String
  catalogPath : String
  localApiKey : String
  baseUrl : String
  reasoningEffort : String
  fastMode : Bool
  requireOpenaiAuth : Bool
  displayOpenaiProvider : Bool
  maxRetries : ℕ
  permissionSource : Option (Option TomlTable)

/-- The document that permissions are copied from; none is an empty one. -/
def RouterConfigArgs.permissions (args : RouterConfigArgs) : TomlTable := args.permissionSource.join.getD []

/-- The keys that the provider block replaces. -/
def replacedKeys : List String :=
  ["base_url", "wire_api", "experimental_bearer_token", "openai_base_url", "service_tier",
    "disable_response_storage"]

section

variable (args : RouterConfigArgs) (effort : String)

/-- The keys of the route. -/
def insertRoute (doc : TomlTable) : TomlTable :=
  let doc := replacedKeys.foldl TomlTable.remove doc
  let doc := doc.insert "model_provider" (.str "codex_router")
  let doc := doc.insert "model" (.str args.model)
  let doc := doc.insert "model_catalog_json" (.str (replace args.catalogPath "\\" "/"))
  let doc := doc.insert "model_reasoning_effort" (.str effort)
  let doc :=
    if !args.requireOpenaiAuth && (doc.get "forced_login_method").bind TomlItem.asStr = some "chatgpt" then
      doc.remove "forced_login_method"
    else doc
  if args.fastMode then doc.insert "service_tier" (.str "fast") else doc

/-- `[features]`. -/
def routedFeatures (features : TomlTable) : TomlTable :=
  (features.insert "apps" (.bool true)).insert "fast_mode" (.bool args.fastMode)

/-- `[models.new_thread]`. -/
def newThread : TomlTable :=
  let newThread := [("model", .str args.model), ("model_reasoning_effort", .str effort)]
  if args.fastMode then TomlTable.insert newThread "service_tier" (.str "fast") else newThread

/-- The permission keys of a source document. -/
def copyPermissions (source doc : TomlTable) : TomlTable :=
  ["approval_policy", "sandbox_mode"].foldl source.copyItem doc

/-- `[windows]`, with the sandbox of a source document. -/
def copySandbox (source windows : TomlTable) : TomlTable :=
  match source.get "windows" with
  | some (.table false sourceWindows) =>
    let sourceSandbox := (TomlTable.get sourceWindows "sandbox").bind TomlItem.asStr
    let targetElevated := (windows.get "sandbox").bind TomlItem.asStr = some "elevated"
    if !decide targetElevated && sourceSandbox = some "elevated" then windows.insert "sandbox" (.str "elevated")
    else if !decide targetElevated && sourceSandbox.isSome then
      match TomlTable.get sourceWindows "sandbox" with
      | some item => windows.insert "sandbox" item
      | none => windows
    else windows
  | _ => windows

/-- `extract_desktop_overlay`. -/
def extractDesktopOverlay (existing : TomlTable) : Option TomlTable :=
  ((existing.get "desktop").bind TomlItem.asTable).bind fun desktop =>
    let overlay := desktop.filter fun entry => entry.1 ≠ "enabled-reasoning-efforts"
    if overlay.isEmpty then none else some overlay

/-- `merge_desktop_overlay`. -/
def mergeDesktopOverlay (desktop existing : TomlTable) : TomlTable :=
  match extractDesktopOverlay existing with
  | none => desktop
  | some overlay => overlay.foldl (fun desktop entry =>
      if entry.1 ≠ "enabled-reasoning-efforts" && !desktop.containsKey entry.1 then desktop.insert entry.1 entry.2
      else desktop) desktop

/-- `[agents]`. -/
def routedAgents (agents : TomlTable) : TomlTable :=
  if isOpenaiFamilyModel args.model then
    (agents.insert "default_subagent_model" (.str args.model)).insert "default_subagent_reasoning_effort" (.str effort)
  else (agents.remove "default_subagent_model").remove "default_subagent_reasoning_effort"

/-- `[model_providers]` without the providers of Router. -/
def withoutRouterProviders (providers : TomlTable) : TomlTable :=
  let providers := ((providers.remove "codex_router").remove "sub2api").remove "codex_loopback_proxy"
  if (providers.get "custom").any isLegacyCustomRouterProvider then providers.remove "custom" else providers

/-- The document without the providers of Router. -/
def removeRouterProviders (doc : TomlTable) : TomlTable := doc.mapTable "model_providers" withoutRouterProviders

/-- The document with everything but the provider. -/
def routedDocument (existing : TomlTable) : TomlTable :=
  let doc := insertRoute args effort existing
  let features := routedFeatures args (doc.tableAt "features")
  let doc := doc.remove "features"
  let windows := doc.tableAt "windows"
  let doc := doc.remove "windows"
  let doc := copyPermissions args.permissions doc
  let windows := copySandbox args.permissions windows
  let desktop := mergeDesktopOverlay (withReasoningEfforts (doc.tableAt "desktop")) existing
  let doc := doc.remove "desktop"
  let models := (doc.tableAt "models").insert "new_thread" (.table false (newThread args effort))
  let doc := doc.insert "models" (.table false models)
  let agents := routedAgents args effort (doc.tableAt "agents")
  let doc := doc.remove "agents"
  let doc := if agents.isEmpty then doc else doc.insert "agents" (.table false agents)
  let doc := doc.insert "features" (.table false features)
  let doc := doc.insert "windows" (.table false windows)
  let doc := doc.insert "desktop" (.table false desktop)
  removeRouterProviders doc

end

/-- `generate_codex_router_config`; `none` is a document that is not valid TOML. -/
def generateCodexRouterConfig (parseUrl : String → Option LocalUrl) (existing : Option TomlTable)
    (args : RouterConfigArgs) : Except String TomlTable :=
  if args.localApiKey = "" then .error "the local Router credential is required for Codex integration"
  else
    match validateLocalBaseUrl parseUrl args.baseUrl with
    | .error e => .error e
    | .ok base =>
      match normalizeReasoningEffort args.reasoningEffort with
      | .error e => .error e
      | .ok effort =>
        match existing with
        | none => .error "existing Codex config.toml is not valid TOML"
        | some existing =>
          if args.permissionSource.any Option.isNone then .error "permission source config.toml is not valid TOML"
          else
            match insertRouterProvider (buildCodexRouterProvider base args.localApiKey args.requireOpenaiAuth
                args.displayOpenaiProvider args.maxRetries) (routedDocument args effort existing) with
            | none => .error "index not found"
            | some doc => .ok doc

/-! ## What stands where afterwards -/

/-- The tables that are taken out and put back. -/
def routedTables : List String := ["features", "windows", "desktop", "models", "agents", "model_providers"]

/-- What becomes of an item under a key of the document that is none of these tables. -/
def routedItem (args : RouterConfigArgs) (effort key : String) (item : Option TomlItem) : Option TomlItem :=
  if key = "service_tier" then if args.fastMode then some (.str "fast") else none
  else if key ∈ replacedKeys then none
  else if key = "model_provider" then some (.str "codex_router")
  else if key = "model" then some (.str args.model)
  else if key = "model_catalog_json" then some (.str (replace args.catalogPath "\\" "/"))
  else if key = "model_reasoning_effort" then some (.str effort)
  else if key = "forced_login_method" then
    if !args.requireOpenaiAuth && item.bind TomlItem.asStr = some "chatgpt" then none else item
  else if key ∈ ["approval_policy", "sandbox_mode"] then (args.permissions.get key).or item
  else item

section

variable {args : RouterConfigArgs} {effort key : String} {doc existing : TomlTable} {path : List String}

/-- The keys that are no tables are rewritten one by one. -/
theorem get_insertRoute (args : RouterConfigArgs) (effort : String) (doc : TomlTable) (key : String) :
    (copyPermissions args.permissions (insertRoute args effort doc)).get key
      = routedItem args effort key (doc.get key) := by
  rw [copyPermissions, List.foldl_cons, List.foldl_cons, List.foldl_nil]
  simp only [insertRoute, TomlTable.get_ite, TomlTable.get_copyItem, TomlTable.get_insert, TomlTable.get_remove,
    TomlTable.get_foldl_remove, replacedKeys, routedItem]
  by_cases hmanaged : key ∈ "model_provider" :: "model" :: "model_catalog_json" :: "model_reasoning_effort"
      :: "forced_login_method" :: "approval_policy" :: "sandbox_mode" :: replacedKeys
  · simp only [replacedKeys, List.mem_cons, List.not_mem_nil, or_false] at hmanaged
    rcases hmanaged with rfl | rfl | rfl | rfl | rfl | rfl | rfl | rfl | rfl | rfl | rfl | rfl | rfl <;> simp
  · simp only [replacedKeys, List.mem_cons, List.not_mem_nil, or_false, not_or] at hmanaged
    simp [hmanaged]

theorem routedItem_routedItem (args : RouterConfigArgs) (effort key : String) (item : Option TomlItem) :
    routedItem args effort key (routedItem args effort key item) = routedItem args effort key item := by
  by_cases hlogin : key = "forced_login_method"
  · have hstripped : ∀ item, routedItem args effort key item
        = if !args.requireOpenaiAuth && item.bind TomlItem.asStr = some "chatgpt" then none else item := by
      intro item
      rw [hlogin]
      rfl
    rw [hstripped item]
    split
    · rw [hstripped]
      simp
    · rename_i hother
      rw [hstripped, if_neg hother]
  · by_cases hpermission : key ∈ ["approval_policy", "sandbox_mode"]
    · have hcopied : ∀ item, routedItem args effort key item = (args.permissions.get key).or item := by
        simp only [List.mem_cons, List.not_mem_nil, or_false] at hpermission
        intro item
        rcases hpermission with rfl | rfl <;> simp [routedItem, replacedKeys]
      rw [hcopied, hcopied, ← Option.or_assoc, Option.or_self]
    · unfold routedItem
      simp only [hlogin, hpermission, if_false]
      split_ifs <;> rfl

theorem get_copyPermissions (source doc : TomlTable) (key : String) : (copyPermissions source doc).get key
    = if key ∈ ["approval_policy", "sandbox_mode"] then (source.get key).or (doc.get key) else doc.get key := by
  rw [copyPermissions, List.foldl_cons, List.foldl_cons, List.foldl_nil, TomlTable.get_copyItem, TomlTable.get_copyItem]
  by_cases h₁ : key = "sandbox_mode"
  · subst h₁
    simp
  · by_cases h₂ : key = "approval_policy" <;> simp [h₁, h₂]

theorem get_removeRouterProviders (doc : TomlTable) (hkey : key ≠ "model_providers") :
    (removeRouterProviders doc).get key = doc.get key := TomlTable.get_mapTable_of_ne hkey

/-- Under the other keys nothing but the item is rewritten. -/
theorem get_routedDocument (hkey : key ∉ routedTables) : (routedDocument args effort existing).get key
    = routedItem args effort key (existing.get key) := by
  rw [← get_insertRoute, get_copyPermissions]
  simp only [routedTables, List.mem_cons, List.not_mem_nil, or_false, not_or] at hkey
  obtain ⟨hfeatures, hwindows, hdesktop, hmodels, hagents, hproviders⟩ := hkey
  simp only [routedDocument]
  rw [get_removeRouterProviders _ hproviders]
  simp only [TomlTable.get_insert, TomlTable.get_ite, TomlTable.get_remove, get_copyPermissions, hfeatures, hwindows, hdesktop,
    hmodels, hagents, if_false, ite_self]

/-- What was in a table is what the route finds there. -/
theorem get_insertRoute_of_mem (hkey : key ∈ routedTables) : (insertRoute args effort doc).get key = doc.get key := by
  have hsame := get_insertRoute args effort doc key
  rw [get_copyPermissions] at hsame
  simp only [routedTables, List.mem_cons, List.not_mem_nil, or_false] at hkey
  rcases hkey with rfl | rfl | rfl | rfl | rfl | rfl <;> simpa [routedItem, replacedKeys] using hsame

theorem mem_of_extractDesktopOverlay {overlay : TomlTable} (h : extractDesktopOverlay existing = some overlay)
    {entry : String × TomlItem} (hentry : entry ∈ overlay) : entry ∈ existing.tableAt "desktop" := by
  obtain ⟨desktop, hdesktop, hoverlay⟩ := Option.bind_eq_some_iff.mp h
  obtain ⟨item, hitem, htable⟩ := Option.bind_eq_some_iff.mp hdesktop
  have hthere : existing.tableAt "desktop" = desktop := by
    rw [TomlTable.tableAt, hitem, Option.bind_some]
    rw [TomlItem.eq_of_asTable htable]
    rfl
  dsimp only at hoverlay
  split at hoverlay
  · cases hoverlay
  · rw [← Option.some.inj hoverlay] at hentry
    exact hthere ▸ List.mem_of_mem_filter hentry

/-- An overlay from the document itself brings nothing that is not there. -/
theorem mergeDesktopOverlay_self (existing : TomlTable) :
    mergeDesktopOverlay (withReasoningEfforts (existing.tableAt "desktop")) existing
      = withReasoningEfforts (existing.tableAt "desktop") := by
  rw [mergeDesktopOverlay]
  split
  · rfl
  · rename_i overlay hoverlay
    have hcontains : ∀ entry ∈ overlay,
        (withReasoningEfforts (existing.tableAt "desktop")).containsKey entry.1 = true := by
      intro entry hentry
      have hkey := TomlTable.containsKey_of_mem (mem_of_extractDesktopOverlay hoverlay hentry)
      rw [withReasoningEfforts]
      split
      · exact hkey
      · rw [TomlTable.containsKey_insert, hkey, Bool.or_true]
    clear hoverlay
    induction overlay with
    | nil => rfl
    | cons entry rest ih =>
      rw [List.foldl_cons, hcontains entry List.mem_cons_self, Bool.not_true, Bool.and_false, if_neg Bool.false_ne_true]
      exact ih fun other hother => hcontains other (List.mem_cons_of_mem _ hother)

theorem get_features_routedDocument : (routedDocument args effort existing).get "features"
    = some (.table false (routedFeatures args (existing.tableAt "features"))) := by
  simp only [routedDocument]
  rw [get_removeRouterProviders _ (by decide)]
  simp only [TomlTable.tableAt, TomlTable.get_insert, TomlTable.get_remove, reduceIte, String.reduceEq]
  rw [get_insertRoute_of_mem (by decide)]

theorem get_windows_routedDocument : (routedDocument args effort existing).get "windows"
    = some (.table false (copySandbox args.permissions (existing.tableAt "windows"))) := by
  simp only [routedDocument]
  rw [get_removeRouterProviders _ (by decide)]
  simp only [TomlTable.tableAt, TomlTable.get_insert, TomlTable.get_remove, reduceIte, String.reduceEq]
  rw [get_insertRoute_of_mem (by decide)]

theorem get_models_routedDocument : (routedDocument args effort existing).get "models"
    = some (.table false ((existing.tableAt "models").insert "new_thread" (.table false (newThread args effort)))) := by
  simp only [routedDocument]
  rw [get_removeRouterProviders _ (by decide)]
  simp only [TomlTable.tableAt, TomlTable.get_insert, TomlTable.get_ite, TomlTable.get_remove, get_copyPermissions,
    reduceIte, String.reduceEq, List.mem_cons, List.not_mem_nil, or_self, ite_self]
  rw [get_insertRoute_of_mem (by decide)]

theorem get_desktop_routedDocument : (routedDocument args effort existing).get "desktop"
    = some (.table false (withReasoningEfforts (existing.tableAt "desktop"))) := by
  simp only [routedDocument]
  rw [get_removeRouterProviders _ (by decide), TomlTable.get_insert, if_pos rfl]
  have hdesktop : (copyPermissions args.permissions
      (((insertRoute args effort existing).remove "features").remove "windows")).tableAt "desktop"
        = existing.tableAt "desktop" := by
    simp only [TomlTable.tableAt, TomlTable.get_remove, get_copyPermissions, reduceIte, String.reduceEq, List.mem_cons,
      List.not_mem_nil, or_self]
    rw [get_insertRoute_of_mem (by decide)]
  rw [hdesktop, mergeDesktopOverlay_self]

theorem get_agents_routedDocument : (routedDocument args effort existing).get "agents"
    = if (routedAgents args effort (existing.tableAt "agents")).isEmpty then none
      else some (.table false (routedAgents args effort (existing.tableAt "agents"))) := by
  simp only [routedDocument]
  rw [get_removeRouterProviders _ (by decide)]
  have hagents : (((copyPermissions args.permissions
      (((insertRoute args effort existing).remove "features").remove "windows")).remove "desktop").insert "models"
        (.table false (((((copyPermissions args.permissions
      (((insertRoute args effort existing).remove "features").remove "windows")).remove "desktop")).tableAt "models").insert "new_thread"
          (.table false (newThread args effort))))).tableAt "agents" = existing.tableAt "agents" := by
    simp only [TomlTable.tableAt, TomlTable.get_insert, TomlTable.get_remove, get_copyPermissions, reduceIte,
      String.reduceEq, List.mem_cons, List.not_mem_nil, or_self]
    rw [get_insertRoute_of_mem (by decide)]
  rw [hagents]
  simp only [TomlTable.get_insert, TomlTable.get_ite, TomlTable.get_remove, reduceIte, String.reduceEq]

theorem get_providers_routedDocument : (routedDocument args effort existing).get "model_providers"
    = (removeRouterProviders existing).get "model_providers" := by
  have hprovider : ∀ doc : TomlTable, doc.get "model_providers" = existing.get "model_providers" →
      (removeRouterProviders doc).get "model_providers" = (removeRouterProviders existing).get "model_providers" := by
    intro doc hdoc
    rw [removeRouterProviders, removeRouterProviders, TomlTable.mapTable, TomlTable.mapTable, hdoc]
    split
    · rw [TomlTable.get_insert, TomlTable.get_insert, if_pos rfl, if_pos rfl]
    · exact hdoc
  simp only [routedDocument]
  apply hprovider
  simp only [TomlTable.get_insert, TomlTable.get_ite, TomlTable.get_remove, get_copyPermissions, reduceIte, String.reduceEq,
    List.mem_cons, List.not_mem_nil, or_self, ite_self]
  rw [get_insertRoute_of_mem (by decide)]

/-- What becomes of a table that is edited. -/
def routedTable (args : RouterConfigArgs) (effort : String) (provider : TomlTable) (key : String) (table : TomlTable) :
    TomlTable :=
  if key = "features" then routedFeatures args table
  else if key = "windows" then copySandbox args.permissions table
  else if key = "desktop" then withReasoningEfforts table
  else if key = "models" then table.insert "new_thread" (.table false (newThread args effort))
  else if key = "agents" then routedAgents args effort table
  else if key = "model_providers" then
    (withoutRouterProviders table).insert "codex_router" (.table false provider)
  else table

section

variable (args : RouterConfigArgs) (effort : String) (provider table : TomlTable)

theorem routedTable_features : routedTable args effort provider "features" table = routedFeatures args table := by
  simp only [routedTable, reduceIte]

theorem routedTable_windows : routedTable args effort provider "windows" table = copySandbox args.permissions table := by
  simp only [routedTable, String.reduceEq, reduceIte]

theorem routedTable_desktop : routedTable args effort provider "desktop" table = withReasoningEfforts table := by
  simp only [routedTable, String.reduceEq, reduceIte]

theorem routedTable_models : routedTable args effort provider "models" table
    = table.insert "new_thread" (.table false (newThread args effort)) := by
  simp only [routedTable, String.reduceEq, reduceIte]

theorem routedTable_agents : routedTable args effort provider "agents" table = routedAgents args effort table := by
  simp only [routedTable, String.reduceEq, reduceIte]

theorem routedTable_providers : routedTable args effort provider "model_providers" table
    = (withoutRouterProviders table).insert "codex_router" (.table false provider) := by
  simp only [routedTable, String.reduceEq, reduceIte]

end

/-- A table is under a key; an empty one can be missing. -/
def HoldsTable (doc : TomlTable) (key : String) (table : TomlTable) : Prop :=
  (∃ inlined, doc.get key = some (.table inlined table)) ∨ doc.get key = none ∧ table = []

/-- A generated document beside the one it was generated from. -/
structure Routed (args : RouterConfigArgs) (effort : String) (provider doc out : TomlTable) : Prop where
  item : ∀ key, key ∉ routedTables → out.get key = routedItem args effort key (doc.get key)
  table : ∀ key, key ∈ routedTables → HoldsTable out key (routedTable args effort provider key (doc.tableAt key))

variable {provider out out' : TomlTable}

/-- The provider can be put in where there is a table or nothing. -/
theorem exists_insertRouterProvider (hdoc : doc.TableWhenPresent "model_providers") :
    ∃ out, insertRouterProvider provider (routedDocument args effort doc) = some out := by
  rw [insertRouterProvider, routerProviderPath, TomlTable.setAt_cons, get_providers_routedDocument, removeRouterProviders,
    TomlTable.mapTable]
  cases hget : doc.get "model_providers" with
  | none =>
    rw [hget]
    exact ⟨_, rfl⟩
  | some item =>
    cases item with
    | value v => simpa [TomlItem.asTableLike] using hdoc _ hget
    | table inlined providers =>
      dsimp only
      rw [TomlTable.get_insert, if_pos rfl]
      exact ⟨_, rfl⟩

/-- Where the provider is put in. -/
theorem holdsTable_providers (hdoc : doc.TableWhenPresent "model_providers")
    (h : insertRouterProvider provider (routedDocument args effort doc) = some out) :
    HoldsTable out "model_providers" ((withoutRouterProviders (doc.tableAt "model_providers")).insert "codex_router"
      (.table false provider)) := by
  rw [insertRouterProvider, routerProviderPath, TomlTable.setAt_cons, get_providers_routedDocument,
    removeRouterProviders, TomlTable.mapTable] at h
  rw [TomlTable.tableAt]
  cases hproviders : doc.get "model_providers" with
  | none =>
    rw [hproviders] at h
    dsimp only at h
    rw [hproviders] at h
    obtain ⟨rest, hrest, rfl⟩ := Option.map_eq_some_iff.mp h
    rw [TomlTable.setAt, Option.some.injEq] at hrest
    rw [HoldsTable, TomlTable.get_insert, if_pos rfl, ← hrest]
    exact .inl ⟨false, rfl⟩
  | some item =>
    cases item with
    | value v => simpa [TomlItem.asTableLike] using hdoc _ hproviders
    | table inlined providers =>
      rw [hproviders] at h
      dsimp only at h
      rw [TomlTable.get_insert, if_pos rfl] at h
      obtain ⟨rest, hrest, rfl⟩ := Option.map_eq_some_iff.mp h
      rw [TomlTable.setAt, Option.some.injEq] at hrest
      rw [HoldsTable, TomlTable.get_insert, if_pos rfl, ← hrest]
      exact .inl ⟨inlined, rfl⟩

theorem routed_of_insert (hdoc : doc.TableWhenPresent "model_providers")
    (h : insertRouterProvider provider (routedDocument args effort doc) = some out) :
    Routed args effort provider doc out := by
  have hget : ∀ key, key ≠ "model_providers" → out.get key = (routedDocument args effort doc).get key :=
    fun key hkey => TomlTable.get_of_setAt h hkey
  constructor
  · intro key hkey
    have hne : key ≠ "model_providers" := by
      rintro rfl
      simp [routedTables] at hkey
    rw [hget key hne, get_routedDocument hkey]
  · intro key hkey
    simp only [routedTables, List.mem_cons, List.not_mem_nil, or_false] at hkey
    rcases hkey with rfl | rfl | rfl | rfl | rfl | rfl
    · rw [HoldsTable, hget _ (by decide), get_features_routedDocument,
        routedTable_features]
      exact .inl ⟨false, rfl⟩
    · rw [HoldsTable, hget _ (by decide), get_windows_routedDocument,
        routedTable_windows]
      exact .inl ⟨false, rfl⟩
    · rw [HoldsTable, hget _ (by decide), get_desktop_routedDocument,
        routedTable_desktop]
      exact .inl ⟨false, rfl⟩
    · rw [HoldsTable, hget _ (by decide), get_models_routedDocument,
        routedTable_models]
      exact .inl ⟨false, rfl⟩
    · rw [routedTable_agents, HoldsTable, hget _ (by decide), get_agents_routedDocument]
      split
      · rename_i hempty
        exact .inr ⟨rfl, List.isEmpty_iff.mp hempty⟩
      · exact .inl ⟨false, rfl⟩
    · rw [routedTable_providers]
      exact holdsTable_providers hdoc h

/-- Whatever the document, one generation is the edit and then the insertion. -/
theorem generate_cases {parseUrl : String → Option LocalUrl}
    (h : generateCodexRouterConfig parseUrl (some doc) args = .ok out) : ∃ effort provider,
    insertRouterProvider provider (routedDocument args effort doc) = some out
      ∧ ∀ doc out, insertRouterProvider provider (routedDocument args effort doc) = some out →
        generateCodexRouterConfig parseUrl (some doc) args = .ok out := by
  simp only [generateCodexRouterConfig] at h ⊢
  split at h
  · cases h
  · rename_i hkey
    split at h
    · cases h
    · rename_i base hbase
      split at h
      · cases h
      · rename_i effort heffort
        split at h
        · cases h
        · rename_i hsource
          split at h
          · cases h
          · rename_i doc' hinsert
            rw [Except.ok.injEq] at h
            subst h
            refine ⟨effort, _, hinsert, ?_⟩
            intro doc out hout
            rw [if_neg hkey, if_neg hsource, hout]

end

end CodexRouter
