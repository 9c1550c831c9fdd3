/-
# What the route of Router keeps

Generating the configuration of the user keeps every foreign setting, but for what stands in
`models.new_thread` beside the keys of Router, and doing it again changes nothing
(`generates_iff`).
-/
import CodexRouter.RouterConfigText

namespace CodexRouter

open TomlTable (Below)

/-! ## What is kept -/

/-- The key paths that Router writes or takes out. -/
def routedKeys : List (List String) :=
  [["base_url"], ["wire_api"], ["experimental_bearer_token"], ["openai_base_url"], ["service_tier"],
    ["disable_response_storage"], ["model_provider"], ["model"], ["model_catalog_json"], ["model_reasoning_effort"],
    ["features", "apps"], ["features", "fast_mode"], ["models", "new_thread", "model"],
    ["models", "new_thread", "model_reasoning_effort"], ["models", "new_thread", "service_tier"],
    ["agents", "default_subagent_model"], ["agents", "default_subagent_reasoning_effort"],
    ["model_providers", "codex_router"], ["model_providers", "sub2api"], ["model_providers", "codex_loopback_proxy"]]

/-- The key paths that are written with a permission source. -/
def permissionKeys : List (List String) := [["approval_policy"], ["sandbox_mode"], ["windows", "sandbox"]]

/-- A key path of a document belongs to Router. -/
def RouterOwns (args : RouterConfigArgs) (doc : TomlTable) (path : List String) : Prop :=
  Below routedKeys path ∨ (args.permissions ≠ [] ∧ Below permissionKeys path)
    ∨ (path = ["forced_login_method"] ∧ doc.valueAt path = some (.string "chatgpt"))
    ∨ (["model_providers", "custom"] <+: path
      ∧ ((doc.tableAt "model_providers").get "custom").any isLegacyCustomRouterProvider = true)

/-- The tables that are edited are tables. -/
def RoutableDocument (doc : TomlTable) : Prop := ∀ key ∈ routedTables, doc.TableWhenPresent key

/-- No foreign setting is lost, and generating again says the same. -/
structure Generates (parseUrl : String → Option LocalUrl) (args : RouterConfigArgs) (doc out : TomlTable) : Prop where
  kept : ∀ path v, ¬ RouterOwns args doc path → doc.valueAt path = some v → out.valueAt path = some v
  again : ∃ out', generateCodexRouterConfig parseUrl (some out) args = .ok out' ∧ out'.SameValues out

/-- The defaults of new threads hold nothing but what Router writes. -/
def NewThreadOwned (doc : TomlTable) : Prop :=
  ∀ path, ["models", "new_thread"] <+: path → ¬ Below routedKeys path → doc.valueAt path = none

section

variable {args : RouterConfigArgs} {effort key : String} {doc out out' provider : TomlTable} {path : List String}

theorem HoldsTable.valueAt {table : TomlTable} (h : HoldsTable out key table) (path : List String) :
    out.valueAt (key :: path) = table.valueAt path := by
  rcases h with ⟨inlined, hget⟩ | ⟨hget, rfl⟩
  · rw [TomlTable.valueAt_cons_of_get hget, TomlTable.valueAt_table]
  · rw [TomlTable.valueAt_cons_of_none hget, TomlTable.valueAt_empty]

theorem HoldsTable.tableAt {table : TomlTable} (h : HoldsTable out key table) : out.tableAt key = table := by
  rcases h with ⟨inlined, hget⟩ | ⟨hget, rfl⟩
  · rw [TomlTable.tableAt, hget]
    rfl
  · rw [TomlTable.tableAt, hget]
    rfl

theorem HoldsTable.tableWhenPresent {table : TomlTable} (h : HoldsTable out key table) : out.TableWhenPresent key := by
  intro item hitem
  rcases h with ⟨inlined, hget⟩ | ⟨hget, -⟩
  · rw [hget, Option.some.injEq] at hitem
    rw [← hitem]
    rfl
  · rw [hget] at hitem
    cases hitem

/-! ## Doing it again -/

theorem get_withoutRouterProviders (providers : TomlTable) (key : String) :
    (withoutRouterProviders providers).get key
      = if key ∈ ["codex_router", "sub2api", "codex_loopback_proxy"] then none
        else if key = "custom" ∧ (providers.get "custom").any isLegacyCustomRouterProvider = true then none
        else providers.get key := by
  simp only [withoutRouterProviders, TomlTable.get_ite, TomlTable.get_remove, reduceIte, String.reduceEq]
  by_cases hcustom : key = "custom"
  · subst hcustom
    simp
  · simp [hcustom]
    split_ifs <;> simp_all

theorem get_copySandbox (source windows : TomlTable) (hkey : key ≠ "sandbox") :
    (copySandbox source windows).get key = windows.get key := by
  rw [copySandbox]
  split
  · dsimp only
    split
    · rw [TomlTable.get_insert, if_neg hkey]
    · split
      · split
        · rw [TomlTable.get_insert, if_neg hkey]
        · rfl
      · rfl
  · rfl

/-- The sandbox that is copied is the one that would be copied again. -/
theorem copySandbox_cases (source windows : TomlTable) : copySandbox source windows = windows
    ∨ ∃ item, copySandbox source windows = windows.insert "sandbox" item
      ∧ ∀ windows' : TomlTable, windows'.get "sandbox" = some item →
        copySandbox source windows' = windows' ∨ copySandbox source windows' = windows'.insert "sandbox" item := by
  simp only [copySandbox]
  split
  · rename_i sourceWindows _
    split
    · refine .inr ⟨.str "elevated", rfl, ?_⟩
      intro windows' hwindows
      rw [hwindows]
      exact .inl rfl
    · rename_i helevated
      split
      · rename_i hother
        split
        · rename_i item hitem
          refine .inr ⟨item, rfl, ?_⟩
          intro windows' hwindows
          rw [hitem] at helevated hother ⊢
          rw [hwindows]
          by_cases hsame : item.asStr = some "elevated"
          · exact .inl (by simp [hsame])
          · refine .inr ?_
            rw [if_neg (by simp [hsame]), if_pos]
            simp only [Bool.and_eq_true] at hother
            rw [Bool.and_eq_true]
            exact ⟨by simp [hsame], hother.2⟩
        · exact .inl rfl
      · exact .inl rfl
  · exact .inl rfl

/-- A table that was edited is not changed by the same edit. -/
theorem get_routedTable_twice (args : RouterConfigArgs) (effort : String) (provider table : TomlTable)
    (hkey : key ∈ routedTables) (member : String) :
    (routedTable args effort provider key (routedTable args effort provider key table)).get member
      = (routedTable args effort provider key table).get member := by
  simp only [routedTables, List.mem_cons, List.not_mem_nil, or_false] at hkey
  rcases hkey with rfl | rfl | rfl | rfl | rfl | rfl <;>
    simp only [routedTable_features, routedTable_windows, routedTable_desktop, routedTable_models,
      routedTable_agents, routedTable_providers]
  · simp only [routedFeatures, TomlTable.get_insert]
    split_ifs <;> rfl
  · rcases copySandbox_cases args.permissions table with hsame | ⟨item, hcopied, hagain⟩
    · rw [hsame, hsame]
    · rw [hcopied]
      rcases hagain (table.insert "sandbox" item) (by simp) with hsame | hsame
      · rw [hsame]
      · rw [hsame, TomlTable.get_insert, TomlTable.get_insert]
        split_ifs <;> rfl
  · have hcontains : (withReasoningEfforts table).containsKey "enabled-reasoning-efforts" = true := by
      rw [withReasoningEfforts]
      split
      · assumption
      · simp
    conv_lhs => rw [withReasoningEfforts, if_pos hcontains]
  · rw [TomlTable.get_insert, TomlTable.get_insert]
    split_ifs <;> rfl
  · unfold routedAgents
    split
    · simp only [TomlTable.get_insert]
      split_ifs <;> rfl
    · simp only [TomlTable.get_remove]
      split_ifs <;> rfl
  · by_cases hrouter : member = "codex_router"
    · rw [TomlTable.get_insert, if_pos hrouter, TomlTable.get_insert, if_pos hrouter]
    · have hcustom : TomlTable.get ((withoutRouterProviders table).insert "codex_router" (.table false provider)) "custom"
          = (withoutRouterProviders table).get "custom" := by
        rw [TomlTable.get_insert, if_neg (by decide)]
      rw [TomlTable.get_insert, if_neg hrouter, get_withoutRouterProviders, hcustom, TomlTable.get_insert, if_neg hrouter,
        get_withoutRouterProviders, get_withoutRouterProviders]
      split_ifs <;> simp_all

theorem sameValues_of_routed (h : Routed args effort provider doc out) (h' : Routed args effort provider out out') :
    out'.SameValues out := by
  intro path
  cases path with
  | nil => rfl
  | cons key path =>
    by_cases hkey : key ∈ routedTables
    · rw [(h'.table key hkey).valueAt, (h.table key hkey).valueAt, (h.table key hkey).tableAt]
      exact TomlTable.valueAt_congr_get (get_routedTable_twice args effort provider _ hkey) path
    · rw [TomlTable.valueAt_cons, TomlTable.valueAt_cons, h'.item key hkey, h.item key hkey, routedItem_routedItem]

/-! ## Nothing else is lost -/

/-- A key path of an edited table that Router does not own, but for the defaults of new threads. -/
theorem valueAt_routedTable (hkey : key ∈ routedTables) (howns : ¬ RouterOwns args doc (key :: path))
    (hthread : ¬ ["models", "new_thread"] <+: key :: path) {v : TomlValue}
    (hv : (doc.tableAt key).valueAt path = some v) :
    (routedTable args effort provider key (doc.tableAt key)).valueAt path = some v := by
  simp only [RouterOwns, not_or, not_and] at howns
  obtain ⟨hkeys, hpermission, -, hcustom⟩ := howns
  cases path with
  | nil => cases hv
  | cons member path =>
    rw [← hv, TomlTable.valueAt_cons, TomlTable.valueAt_cons]
    congr 1
    simp only [routedTables, List.mem_cons, List.not_mem_nil, or_false] at hkey
    rcases hkey with rfl | rfl | rfl | rfl | rfl | rfl <;>
      simp only [routedTable_features, routedTable_windows, routedTable_desktop, routedTable_models,
      routedTable_agents, routedTable_providers]
    · have hmember : member ≠ "apps" ∧ member ≠ "fast_mode" := by
        constructor <;> rintro rfl <;> simp [Below, routedKeys] at hkeys
      simp [routedFeatures, hmember]
    · by_cases hsource : args.permissions = []
      · rw [hsource]
        rfl
      · apply get_copySandbox
        rintro rfl
        exact hpermission hsource ⟨["windows", "sandbox"], by simp [permissionKeys], by simp⟩
    · by_cases hefforts : member = "enabled-reasoning-efforts"
      · -- what is there is not written over
        rw [withReasoningEfforts, if_pos]
        rw [TomlTable.containsKey, Option.isSome_iff_ne_none]
        intro hnone
        rw [hefforts, TomlTable.valueAt_cons_of_none hnone] at hv
        cases hv
      · rw [withReasoningEfforts]
        split
        · rfl
        · rw [TomlTable.get_insert, if_neg hefforts]
    · rw [TomlTable.get_insert, if_neg]
      rintro rfl
      exact hthread (by simp)
    · have hmember : member ≠ "default_subagent_model" ∧ member ≠ "default_subagent_reasoning_effort" := by
        constructor <;> rintro rfl <;> simp [Below, routedKeys] at hkeys
      rw [routedAgents]
      split <;> simp [hmember]
    · have hmember : member ≠ "codex_router" ∧ member ≠ "sub2api" ∧ member ≠ "codex_loopback_proxy" := by
        refine ⟨?_, ?_, ?_⟩ <;> rintro rfl <;> simp [Below, routedKeys] at hkeys
      rw [TomlTable.get_insert, if_neg hmember.1, get_withoutRouterProviders, if_neg (by simp [hmember]), if_neg]
      rintro ⟨rfl, hlegacy⟩
      exact hcustom (by simp) hlegacy

/-- A key of the document that Router does not own. -/
theorem valueAt_routedItem (hout : ∀ key, key ∉ routedTables → out.get key = routedItem args effort key (doc.get key))
    (hkey : key ∉ routedTables) (howns : ¬ RouterOwns args doc (key :: path)) {v : TomlValue}
    (hv : doc.valueAt (key :: path) = some v) : out.valueAt (key :: path) = some v := by
  simp only [RouterOwns, not_or, not_and] at howns
  obtain ⟨hkeys, hpermission, hlogin, -⟩ := howns
  have hplain : key ∉ "model_provider" :: "model" :: "model_catalog_json" :: "model_reasoning_effort" :: replacedKeys := by
    simp only [replacedKeys, List.mem_cons, List.not_mem_nil, or_false]
    rintro (rfl | rfl | rfl | rfl | rfl | rfl | rfl | rfl | rfl | rfl) <;> simp [Below, routedKeys] at hkeys
  rw [← hv, TomlTable.valueAt_cons, TomlTable.valueAt_cons, hout key hkey]
  congr 1
  simp only [replacedKeys, List.mem_cons, List.not_mem_nil, or_false, not_or] at hplain
  by_cases hforced : key = "forced_login_method"
  · subst hforced
    have hother : ¬ ((doc.get "forced_login_method").bind TomlItem.asStr = some "chatgpt") := by
      intro hchatgpt
      rw [TomlTable.asStr_get_eq_some] at hchatgpt
      cases path with
      | nil => exact hlogin rfl hchatgpt
      | cons member path =>
        rw [TomlTable.valueAt_below_value hchatgpt] at hv
        cases hv
    simp [routedItem, replacedKeys, hother]
  · by_cases hcopied : key = "approval_policy" ∨ key = "sandbox_mode"
    · have hsource : args.permissions = [] := by
        by_contra hsource
        apply hpermission hsource
        rcases hcopied with rfl | rfl <;> simp [Below, permissionKeys]
      rcases hcopied with rfl | rfl <;> simp [routedItem, replacedKeys, hsource]
    · rw [not_or] at hcopied
      simp [routedItem, replacedKeys, hplain, hforced, hcopied]

/-- The defaults of new threads are what Router writes. -/
theorem valueAt_newThread (hpath : ∀ key ∈ ["model", "model_reasoning_effort", "service_tier"], ¬ [key] <+: path) :
    (newThread args effort).valueAt path = none := by
  cases path with
  | nil => rfl
  | cons key path =>
    have hkey : key ≠ "model" ∧ key ≠ "model_reasoning_effort" ∧ key ≠ "service_tier" := by
      refine ⟨?_, ?_, ?_⟩ <;> rintro rfl <;> simp at hpath
    apply TomlTable.valueAt_cons_of_none
    rw [newThread]
    split <;> simp [TomlTable.get_cons, hkey]

/-- Generating loses nothing foreign exactly if the defaults of new threads are Router's own; done again it
changes nothing. -/
theorem generates_iff {parseUrl : String → Option LocalUrl} (hdoc : RoutableDocument doc)
    (hout : generateCodexRouterConfig parseUrl (some doc) args = .ok out) :
    Generates parseUrl args doc out ↔ NewThreadOwned doc := by
  obtain ⟨effort, provider, hinsert, hgenerate⟩ := generate_cases hout
  have hrouted := routed_of_insert (hdoc _ (by simp [routedTables])) hinsert
  constructor
  · intro hgenerates path hpath howned
    cases hv : doc.valueAt path with
    | none => rfl
    | some v =>
      obtain ⟨rest, rfl⟩ := hpath
      have howns : ¬ RouterOwns args doc (["models", "new_thread"] ++ rest) := by
        rintro (h | ⟨-, h⟩ | ⟨h, -⟩ | ⟨h, -⟩)
        · exact howned h
        · simp [Below, permissionKeys] at h
        · simp at h
        · simp at h
      -- the table was written anew
      have hwritten : out.valueAt (["models", "new_thread"] ++ rest) = (newThread args effort).valueAt rest := by
        rw [List.cons_append, (hrouted.table "models" (by simp [routedTables])).valueAt]
        simp [routedTable_models, TomlTable.valueAt_table]
      have hkept := hgenerates.kept _ v howns hv
      rw [hwritten, valueAt_newThread] at hkept
      · cases hkept
      · intro key hkey hprefixed
        apply howned
        refine ⟨["models", "new_thread"] ++ [key], ?_, (List.prefix_append_right_inj _).mpr hprefixed⟩
        simp only [List.mem_cons, List.not_mem_nil, or_false] at hkey
        rcases hkey with rfl | rfl | rfl <;> simp [routedKeys]
  · intro howned
    constructor
    · intro path v howns hv
      cases path with
      | nil => cases hv
      | cons key path =>
        by_cases hkey : key ∈ routedTables
        · rw [(hrouted.table key hkey).valueAt]
          apply valueAt_routedTable hkey howns
          · intro hthread
            rw [howned _ hthread fun h => howns (.inl h)] at hv
            cases hv
          · rw [← TomlTable.valueAt_cons_of_tableWhenPresent (hdoc key hkey)]
            exact hv
        · exact valueAt_routedItem hrouted.item hkey howns hv
    · have htable := (hrouted.table "model_providers" (by simp [routedTables])).tableWhenPresent
      obtain ⟨out', hinsert'⟩ := exists_insertRouterProvider htable
      exact ⟨out', hgenerate out out' hinsert', sameValues_of_routed hrouted (routed_of_insert htable hinsert')⟩

end

namespace GenerateRun

/-- `Url::parse` on the address of Router. -/
def parseUrl (url : String) : Option LocalUrl :=
  if url = "http://127.0.0.1:18082" then some ⟨"http", some "127.0.0.1", "http://127.0.0.1:18082/"⟩ else none

/-- Router with an OpenAI model and no permission source. -/
def args : RouterConfigArgs where
  model := "gpt-5"
  catalogPath := "C:\\catalog.json"
  localApiKey := "key"
  baseUrl := "http://127.0.0.1:18082"
  reasoningEffort := "High"
  fastMode := false
  requireOpenaiAuth := false
  displayOpenaiProvider := false
  maxRetries := 3
  permissionSource := none

/-- A document with given defaults for new threads. -/
def document (newThread : TomlTable) : TomlTable :=
  [("approval_policy", .str "never"), ("models", .table false [("new_thread", .table false newThread)])]

theorem routableDocument (newThread : TomlTable) : RoutableDocument (document newThread) := by
  intro key hkey item hitem
  simp only [routedTables, List.mem_cons, List.not_mem_nil, or_false] at hkey
  rcases hkey with rfl | rfl | rfl | rfl | rfl | rfl
  all_goals
    simp only [document, TomlTable.get_cons, TomlTable.get_nil, String.reduceEq, if_false, reduceIte, reduceCtorEq,
      Option.some.injEq] at hitem
  rw [← hitem]
  rfl

theorem generates_model : ∃ out, generateCodexRouterConfig parseUrl (some (document [("model", .str "gpt-4")])) args = .ok out
    ∧ Generates parseUrl args (document [("model", .str "gpt-4")]) out := by
  cases hout : generateCodexRouterConfig parseUrl (some (document [("model", .str "gpt-4")])) args with
  | error e =>
    have hok : (generateCodexRouterConfig parseUrl (some (document [("model", .str "gpt-4")])) args).isOk = true := by
      decide +kernel
    rw [hout] at hok
    cases hok
  | ok out =>
    refine ⟨out, rfl, (generates_iff (routableDocument _) hout).mpr ?_⟩
    rintro path ⟨rest, rfl⟩ howned
    match rest with
    | [] => rfl
    | key :: rest =>
      have hkey : key ≠ "model" := by
        rintro rfl
        simp [Below, routedKeys] at howned
      have hitem : (document [("model", .str "gpt-4")]).itemAt ["models", "new_thread"]
          = some (.table false [("model", .str "gpt-4")]) := rfl
      have hthread : (document [("model", .str "gpt-4")]).valueAt (["models", "new_thread"] ++ key :: rest)
          = TomlTable.valueAt [("model", .str "gpt-4")] (key :: rest) := by
        rw [TomlTable.valueAt_append_of_itemAt hitem,
          TomlTable.valueAt_table]
      rw [hthread, TomlTable.valueAt_cons_of_none]
      simp [TomlTable.get_cons, hkey]

/-- A default for new threads that Router does not know is gone. -/
theorem not_generates_personality : RoutableDocument (document [("personality", .str "friendly")])
    ∧ ∃ out, generateCodexRouterConfig parseUrl (some (document [("personality", .str "friendly")])) args = .ok out
      ∧ (document [("personality", .str "friendly")]).valueAt ["models", "new_thread", "personality"]
        = some (.string "friendly")
      ∧ out.valueAt ["models", "new_thread", "personality"] = none
      ∧ ¬ Generates parseUrl args (document [("personality", .str "friendly")]) out := by
  have hvalue : ((generateCodexRouterConfig parseUrl (some (document [("personality", .str "friendly")])) args).toOption.map
      fun out => out.valueAt ["models", "new_thread", "personality"]) = some none := by
    decide +kernel
  cases hout : generateCodexRouterConfig parseUrl (some (document [("personality", .str "friendly")])) args with
  | error e =>
    rw [hout] at hvalue
    cases hvalue
  | ok out =>
    rw [hout] at hvalue
    have hlost : out.valueAt ["models", "new_thread", "personality"] = none := Option.some.inj hvalue
    refine ⟨routableDocument _, out, rfl, by decide, hlost, ?_⟩
    intro hgenerates
    have howns : ¬ RouterOwns args (document [("personality", .str "friendly")]) ["models", "new_thread", "personality"] := by
      rintro (h | ⟨h, -⟩ | ⟨h, -⟩ | ⟨h, -⟩)
      · simp [Below, routedKeys] at h
      · exact h rfl
      · simp at h
      · simp at h
    have hkept := hgenerates.kept _ (.string "friendly") howns (by decide)
    rw [hlost] at hkept
    cases hkept

end GenerateRun

end CodexRouter
