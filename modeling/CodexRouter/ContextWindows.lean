/-
# The context windows of the catalog and of the gateway

The catalog lists a model with the window and the compact limit of the first of its cards.
`context_budget_map` enters the cards in turn under all their ids, so that the last one
counts, and `catalog_compact_percent_mismatch` compares an entry with the last card of that
model id.  `catalogAgrees_iff` says when the three are the same: for every row of the
catalog the last row under its id and the last card of that id agree with it.

The members of a catalog entry that none of these functions reads are a parameter.
-/
import CodexRouter.Base.KeyedTable
import CodexRouter.RoutePlan

namespace CodexRouter

open Text

/-! ## Windows -/

/-- `claude_has_million_token_context`. -/
def claudeHasMillionTokenContext (name : String) : Bool :=
  ["claude-opus-5", "claude-sonnet-5", "claude-fable-5", "claude-mythos", "claude-opus-4-8", "claude-opus-4.8",
    "claude-sonnet-4-8", "claude-sonnet-4.8", "claude-opus-4-7", "claude-opus-4.7", "claude-sonnet-4-7",
    "claude-sonnet-4.7", "claude-opus-4-6", "claude-opus-4.6", "claude-sonnet-4-6", "claude-sonnet-4.6"].any
    (contains name)

/-- The window of `detect_context_defaults`. -/
def detectContextDefaults (modelName : String) : ℤ :=
  let name := toAsciiLowercase (trim modelName)
  if contains name "gpt-5.6-sol" || contains name "gpt-5.6-terra" || contains name "gpt-5.6-luna" then 272000
  else if name = "k3" || contains name "kimi-k3" then 1048576
  else if claudeHasMillionTokenContext name then 1000000
  else if contains name "claude" then 200000
  else if contains name "gemini-3" then 1048576
  else if contains name "mimo-v2.5" then 1048576
  else if startsWith name "ark-code" || contains name "doubao-seed-code" then 262144
  else if contains name "kimi-for-coding" || contains name "k3-256k" then 262144
  else if contains name "grok-4" then 500000
  else if contains name "deepseek-v4" then 1048576
  else 128000

/-- `resolve_context_window`. -/
def resolveContextWindow (model : ModelConfig) : ℤ :=
  if model.contextWindow > 0 then model.contextWindow else detectContextDefaults model.model

/-- `clamp_auto_compact_percent`. -/
def clampAutoCompactPercent (percent : ℤ) : ℤ := max 60 (min 95 percent)

/-- `resolve_auto_compact_token_limit`; the product wraps around. -/
def resolveAutoCompactTokenLimit (model : ModelConfig) : ℤ :=
  (Int.bmod (resolveContextWindow model * clampAutoCompactPercent model.autoCompactPercent) (2 ^ 64)).tdiv 100

/-- `ModelContextBudget`. -/
structure ModelContextBudget where
  window : ℤ
  compactLimit : ℤ
  deriving DecidableEq, Repr

/-- The budget of a card. -/
def contextBudget (model : ModelConfig) : ModelContextBudget :=
  ⟨resolveContextWindow model, resolveAutoCompactTokenLimit model⟩

/-! ## The gateway -/

/-- The ids under which a row is entered. -/
def budgetIds (route : ModelRoute) : List String :=
  [route.publicModelId, toAsciiLowercase route.publicModelId]
    ++ if route.model.model ≠ route.publicModelId then [route.model.model, toAsciiLowercase route.model.model] else []

/-- The loop of `context_budget_map`. -/
def budgetsOf (plan : List ModelRoute) : OrdMap String ModelContextBudget :=
  plan.foldl (fun map route => map.insertAll ((budgetIds route).map fun id => (id, contextBudget route.model))) []

/-- `context_budget_map`. -/
def contextBudgetMap (libs : Libs) (cfg : RouterConfig) : Except String (OrdMap String ModelContextBudget) :=
  (buildRoutePlan libs cfg).map budgetsOf

/-! ## The catalog -/

/-- `CARGO_PKG_VERSION`. -/
def pkgVersion : String := "3.2.9"

/-- `comp_hash`. -/
def compHash (route : ModelRoute) : String :=
  "codex-router-" ++ pkgVersion ++ "-" ++ route.publicModelId ++ "-" ++ toString (resolveContextWindow route.model)
    ++ "-" ++ toString (clampAutoCompactPercent route.model.autoCompactPercent)

/-- An entry of the catalog, over its other members. -/
def catalogEntry (others : Members) (route : ModelRoute) : Value :=
  .object (((((others.insert "slug" (.string route.publicModelId)).insert "context_window"
    (.number (.int (resolveContextWindow route.model)))).insert "effective_context_window_percent"
    (.number (.int (clampAutoCompactPercent route.model.autoCompactPercent)))).insert "auto_compact_token_limit"
    (.number (.int (resolveAutoCompactTokenLimit route.model)))).insert "comp_hash" (.string (compHash route)))

section

variable (libs : Libs) (others : ℕ → ModelRoute → Members)

/-- The entries of a plan. -/
def catalogOf (plan : List ModelRoute) : List Value :=
  (plan.filter (·.includeInCatalog)).zipIdx.map fun row => catalogEntry (others row.2 row.1) row.1

/-- `build_model_catalog_with_root`. -/
def buildModelCatalogWithRoot (cfg : RouterConfig) : Except String (List Value) :=
  (buildRoutePlan libs cfg).map (catalogOf others)

/-- The line of an entry in `catalog_content_etag`. -/
def etagLine (entry : Value) : String :=
  "\n" ++ (entry.getStr "slug").getD "" ++ "\t" ++ toString (((entry.get "context_window").bind Value.asInt).getD 0)
    ++ "\t" ++ toString (((entry.get "auto_compact_token_limit").bind Value.asInt).getD 0)
    ++ "\t" ++ toString (((entry.get "effective_context_window_percent").bind Value.asInt).getD 0)
    ++ "\t" ++ (entry.getStr "comp_hash").getD ""

/-- `catalog_content_etag`. -/
def catalogContentEtag (models : List Value) : String :=
  let fingerprint := models.foldl (fun fingerprint entry => fingerprint ++ etagLine entry) pkgVersion
  "W/\"codex-router-" ++ pkgVersion ++ "-" ++ takeChars (libs.sha256 fingerprint) 16 ++ "\""

/-- The document of some entries. -/
def catalogDocumentOf (fetchedAt : String) (models : List Value) : Value :=
  .object [("client_version", .string pkgVersion), ("etag", .string (catalogContentEtag libs models)),
    ("fetched_at", .string fetchedAt), ("models", .array models)]

/-- `catalog_document`, at some time. -/
def catalogDocument (fetchedAt : String) (cfg : RouterConfig) : Except String Value :=
  (buildModelCatalogWithRoot libs others cfg).map (catalogDocumentOf libs fetchedAt)

end

/-! ## The check -/

/-- What an entry is compared with. -/
def expectedWindow (model : ModelConfig) : ℤ × ℤ × ℤ :=
  (clampAutoCompactPercent model.autoCompactPercent, resolveAutoCompactTokenLimit model, resolveContextWindow model)

/-- `expected`: the cards under their model ids. -/
def expectedWindows (cfg : RouterConfig) : OrdMap String (ℤ × ℤ × ℤ) :=
  OrdMap.insertAll [] (cfg.models.map fun model => (toAsciiLowercase model.model, expectedWindow model))

/-- An entry that is not what its card says. -/
def entryMismatch (cfg : RouterConfig) (entry : Value) : Bool :=
  match (expectedWindows cfg).get (toAsciiLowercase ((entry.getStr "slug").getD "")) with
  | none => false
  | some want =>
    let percent := ((entry.get "effective_context_window_percent").bind Value.asInt).getD (-1)
    let autoCompact := ((entry.get "auto_compact_token_limit").bind Value.asInt).getD (-1)
    let window := ((entry.get "context_window").bind Value.asInt).getD (-1)
    let hash := (entry.getStr "comp_hash").getD ""
    percent ≠ want.1 || autoCompact ≠ want.2.1 || window ≠ want.2.2 || hash = "3000" || !contains hash pkgVersion

/-- `catalog_compact_percent_mismatch`. -/
def catalogCompactPercentMismatch (doc : Value) (cfg : RouterConfig) : Bool :=
  match doc.getArray "models" with
  | none => true
  | some models =>
    if models.any (entryMismatch cfg) then true
    else
      let etag := (doc.getStr "etag").getD ""
      etag = "codex-router-local-v2" || etag = ""

/-- The time of a call, and whether the file can be written. -/
structure SyncCall where
  fetchedAt : String
  writeError : Option String

/-- `sync_model_catalog_compact_percent`.  The file is what can be read and parsed of it. -/
def syncModelCatalogCompactPercent (libs : Libs) (others : ℕ → ModelRoute → Members) (cfg : RouterConfig)
    (file : Option Value) (call : SyncCall) : Except String Bool × Option Value :=
  let needsRewrite := match file with
    | some doc => catalogCompactPercentMismatch doc cfg
    | none => true
  if !needsRewrite then (.ok false, file)
  else
    match catalogDocument libs others call.fetchedAt cfg with
    | .error e => (.error e, file)
    | .ok doc =>
      match call.writeError with
      | some e => (.error e, file)
      | none => (.ok true, some doc)

/-- What the calls return in turn. -/
def syncAll (libs : Libs) (others : ℕ → ModelRoute → Members) (cfg : RouterConfig) :
    Option Value → List SyncCall → List (Except String Bool)
  | _, [] => []
  | file, call :: rest =>
    let (answer, file) := syncModelCatalogCompactPercent libs others cfg file call
    answer :: syncAll libs others cfg file rest

/-! ## The last one counts -/

/-- The last row that is entered under an id. -/
def lastNaming (plan : List ModelRoute) (id : String) : Option ModelRoute :=
  plan.reverse.find? fun route => id ∈ budgetIds route

/-- The last card of a model id in lower case. -/
def lastCard (cfg : RouterConfig) (slug : String) : Option ModelConfig :=
  cfg.models.reverse.find? fun model => toAsciiLowercase model.model = slug

theorem get_budgetsOf (plan : List ModelRoute) (id : String) :
    (budgetsOf plan).get id = (lastNaming plan id).map fun route => contextBudget route.model := by
  induction plan using List.reverseRecOn with
  | nil => rfl
  | append_singleton plan route ih =>
    unfold budgetsOf lastNaming at ih ⊢
    rw [List.foldl_concat, OrdMap.get_insertAll_const, ih, List.reverse_append, List.reverse_singleton,
      List.singleton_append, List.find?_cons]
    split
    · rename_i hnamed
      rw [decide_eq_true hnamed]
      rfl
    · rename_i hother
      rw [decide_eq_false hother]

theorem get_expectedWindows (cfg : RouterConfig) (slug : String) :
    (expectedWindows cfg).get slug = (lastCard cfg slug).map expectedWindow := by
  unfold expectedWindows lastCard
  induction cfg.models using List.reverseRecOn with
  | nil => rfl
  | append_singleton models model ih =>
    rw [List.map_append, List.map_singleton, OrdMap.get_insertAll_concat, ih, List.reverse_append,
      List.reverse_singleton, List.singleton_append, List.find?_cons]
    split
    · rename_i hnamed
      rw [decide_eq_true hnamed]
      rfl
    · rename_i hother
      rw [decide_eq_false hother]

/-! ## Entries -/

section

variable {libs : Libs} {others : ℕ → ModelRoute → Members} {cfg : RouterConfig} {plan : List ModelRoute}
  {route : ModelRoute} (members : Members)

theorem get_slug_catalogEntry : (catalogEntry members route).getStr "slug" = some route.publicModelId := by
  unfold catalogEntry Value.getStr
  rw [Value.get_object, Members.get_insert_ne (by decide), Members.get_insert_ne (by decide),
    Members.get_insert_ne (by decide), Members.get_insert_ne (by decide), Members.get_insert_self]
  rfl

theorem get_window_catalogEntry : (catalogEntry members route).get "context_window"
    = some (.number (.int (resolveContextWindow route.model))) := by
  unfold catalogEntry
  rw [Value.get_object, Members.get_insert_ne (by decide), Members.get_insert_ne (by decide),
    Members.get_insert_ne (by decide), Members.get_insert_self]

theorem get_percent_catalogEntry : (catalogEntry members route).get "effective_context_window_percent"
    = some (.number (.int (clampAutoCompactPercent route.model.autoCompactPercent))) := by
  unfold catalogEntry
  rw [Value.get_object, Members.get_insert_ne (by decide), Members.get_insert_ne (by decide),
    Members.get_insert_self]

theorem get_limit_catalogEntry : (catalogEntry members route).get "auto_compact_token_limit"
    = some (.number (.int (resolveAutoCompactTokenLimit route.model))) := by
  unfold catalogEntry
  rw [Value.get_object, Members.get_insert_ne (by decide), Members.get_insert_self]

theorem get_hash_catalogEntry : (catalogEntry members route).getStr "comp_hash" = some (compHash route) := by
  unfold catalogEntry Value.getStr
  rw [Value.get_object, Members.get_insert_self]
  rfl

variable (route) in
/-- The hash of an entry names the version. -/
theorem compHash_current : compHash route ≠ "3000" ∧ contains (compHash route) pkgVersion = true := by
  have hfront : find ("codex-router-" ++ pkgVersion) pkgVersion = some 13 := by decide
  constructor
  · intro h
    unfold compHash at h
    have hhead := congrArg (fun s => s.toList.head?) h
    simp [String.toList_append] at hhead
  · unfold compHash contains
    rw [find_append (find_append (find_append (find_append (find_append (find_append hfront _) _) _) _) _) _]
    rfl

/-- An entry is what its row says, so that only another card can make a difference. -/
theorem entryMismatch_catalogEntry : entryMismatch cfg (catalogEntry members route) = false
    ↔ ∀ card, lastCard cfg (toAsciiLowercase route.publicModelId) = some card →
      expectedWindow card = expectedWindow route.model := by
  obtain ⟨hstale, hversion⟩ := compHash_current route
  unfold entryMismatch
  rw [get_slug_catalogEntry, get_window_catalogEntry, get_percent_catalogEntry, get_limit_catalogEntry,
    get_hash_catalogEntry, Option.getD_some, get_expectedWindows]
  cases lastCard cfg (toAsciiLowercase route.publicModelId) with
  | none => simp
  | some card =>
    simp only [Option.map_some, Option.bind_some, Option.getD_some, Value.asInt, hstale, hversion, decide_false,
      Bool.not_true, Bool.or_false, Bool.or_eq_false_iff, Option.some.injEq, forall_eq', expectedWindow, Prod.mk.injEq,
      ne_eq]
    constructor
    · rintro ⟨⟨hpercent, hlimit⟩, hwindow⟩
      exact ⟨(not_not.mp (of_decide_eq_false hpercent)).symm, (not_not.mp (of_decide_eq_false hlimit)).symm,
        (not_not.mp (of_decide_eq_false hwindow)).symm⟩
    · rintro ⟨hpercent, hlimit, hwindow⟩
      exact ⟨⟨decide_eq_false (not_not.mpr hpercent.symm), decide_eq_false (not_not.mpr hlimit.symm)⟩,
        decide_eq_false (not_not.mpr hwindow.symm)⟩

variable (libs) in
/-- The etag is a new one. -/
theorem catalogContentEtag_fresh (models : List Value) : catalogContentEtag libs models ≠ "codex-router-local-v2"
    ∧ catalogContentEtag libs models ≠ "" := by
  have hhead : (catalogContentEtag libs models).toList.head? = some 'W' := by
    unfold catalogContentEtag
    simp [String.toList_append]
  constructor
  · intro h
    rw [h] at hhead
    exact absurd hhead (by decide)
  · intro h
    rw [h] at hhead
    exact absurd hhead (by decide)

/-- The entries of the catalog are those of its rows. -/
theorem mem_catalogOf {entry : Value} : entry ∈ catalogOf others plan
    ↔ ∃ route i, (plan.filter (·.includeInCatalog))[i]? = some route ∧ catalogEntry (others i route) route = entry := by
  unfold catalogOf
  simp only [List.mem_map, Prod.exists, List.mem_zipIdx_iff_getElem?]

variable (libs) in
/-- Only an entry can be a mismatch of a document that is built now. -/
theorem mismatch_catalogDocumentOf (fetchedAt : String) (models : List Value) :
    catalogCompactPercentMismatch (catalogDocumentOf libs fetchedAt models) cfg = models.any (entryMismatch cfg) := by
  obtain ⟨hetag, hempty⟩ := catalogContentEtag_fresh libs models
  have hmodels : (catalogDocumentOf libs fetchedAt models).getArray "models" = some models := rfl
  have hread : (catalogDocumentOf libs fetchedAt models).getStr "etag" = some (catalogContentEtag libs models) := rfl
  unfold catalogCompactPercentMismatch
  rw [hmodels, hread]
  dsimp only
  cases models.any (entryMismatch cfg) with
  | true => rfl
  | false => simp [hetag, hempty]

variable (libs others) in
/-- There is none if every row agrees with the last card of its id. -/
theorem mismatch_plan (fetchedAt : String) (plan : List ModelRoute) :
    catalogCompactPercentMismatch (catalogDocumentOf libs fetchedAt (catalogOf others plan)) cfg = false ↔
      ∀ r ∈ plan, r.includeInCatalog = true → ∀ card,
        lastCard cfg (toAsciiLowercase r.publicModelId) = some card → expectedWindow card = expectedWindow r.model := by
  rw [mismatch_catalogDocumentOf, List.any_eq_false]
  constructor
  · intro h r hr hcatalog
    obtain ⟨i, hget⟩ := List.getElem?_of_mem (List.mem_filter.mpr ⟨hr, hcatalog⟩)
    exact (entryMismatch_catalogEntry _).mp (Bool.eq_false_iff.mpr (h _ (mem_catalogOf.mpr ⟨r, i, hget, rfl⟩)))
  · intro h entry hentry
    obtain ⟨r, i, hget, rfl⟩ := mem_catalogOf.mp hentry
    obtain ⟨hr, hcatalog⟩ := List.mem_filter.mp (List.mem_of_getElem? hget)
    rw [(entryMismatch_catalogEntry _).mpr (h r hr hcatalog)]
    exact Bool.false_ne_true

end

/-! ## Agreement -/

/-- The file is rewritten. -/
def isRewrite : Except String Bool → Bool
  | .ok rewritten => rewritten
  | .error _ => false

/-- The gateway has the window and the limit of every entry, a catalog that was built now passes the check, and
the file is rewritten once at most. -/
structure CatalogAgrees (libs : Libs) (others : ℕ → ModelRoute → Members) (cfg : RouterConfig) : Prop where
  budgets : ∀ catalog budgets, buildModelCatalogWithRoot libs others cfg = .ok catalog →
    contextBudgetMap libs cfg = .ok budgets → ∀ entry ∈ catalog, ∃ slug budget, entry.getStr "slug" = some slug
      ∧ budgets.get slug = some budget ∧ entry.get "context_window" = some (.number (.int budget.window))
      ∧ entry.get "auto_compact_token_limit" = some (.number (.int budget.compactLimit))
  passes : ∀ fetchedAt doc, catalogDocument libs others fetchedAt cfg = .ok doc →
    catalogCompactPercentMismatch doc cfg = false
  once : ∀ file calls, (syncAll libs others cfg file calls).countP isRewrite ≤ 1

/-- Every row of the catalog agrees with the last row that is entered under its id, and with the last card of the
id in lower case. -/
structure LastAgrees (cfg : RouterConfig) (plan : List ModelRoute) : Prop where
  row : ∀ r ∈ plan, r.includeInCatalog = true → ∀ last, lastNaming plan r.publicModelId = some last →
    contextBudget last.model = contextBudget r.model
  card : ∀ r ∈ plan, r.includeInCatalog = true → ∀ card, lastCard cfg (toAsciiLowercase r.publicModelId) = some card →
    expectedWindow card = expectedWindow r.model

section

variable {libs : Libs} {others : ℕ → ModelRoute → Members} {cfg : RouterConfig} {plan : List ModelRoute}

/-- A row is entered under its own id. -/
theorem exists_lastNaming {r : ModelRoute} (hr : r ∈ plan) : ∃ last, lastNaming plan r.publicModelId = some last := by
  unfold lastNaming
  rw [← Option.isSome_iff_exists, List.find?_isSome]
  exact ⟨r, List.mem_reverse.mpr hr, decide_eq_true (List.mem_append_left _ List.mem_cons_self)⟩

theorem budgets_iff (plan : List ModelRoute) :
    (∀ entry ∈ catalogOf others plan, ∃ slug budget, entry.getStr "slug" = some slug
      ∧ (budgetsOf plan).get slug = some budget ∧ entry.get "context_window" = some (.number (.int budget.window))
      ∧ entry.get "auto_compact_token_limit" = some (.number (.int budget.compactLimit)))
    ↔ ∀ r ∈ plan, r.includeInCatalog = true → ∀ last, lastNaming plan r.publicModelId = some last →
      contextBudget last.model = contextBudget r.model := by
  constructor
  · intro h r hr hcatalog last hlast
    obtain ⟨i, hget⟩ := List.getElem?_of_mem (List.mem_filter.mpr ⟨hr, hcatalog⟩)
    obtain ⟨slug, budget, hslug, hbudget, hwindow, hlimit⟩ := h _ (mem_catalogOf.mpr ⟨r, i, hget, rfl⟩)
    rw [get_slug_catalogEntry, Option.some.injEq] at hslug
    subst hslug
    rw [get_budgetsOf, hlast, Option.map_some, Option.some.injEq] at hbudget
    rw [get_window_catalogEntry, Option.some.injEq, Value.number.injEq, Number.int.injEq] at hwindow
    rw [get_limit_catalogEntry, Option.some.injEq, Value.number.injEq, Number.int.injEq] at hlimit
    rw [hbudget]
    unfold contextBudget
    rw [hwindow, hlimit]
  · intro h entry hentry
    obtain ⟨r, i, hget, rfl⟩ := mem_catalogOf.mp hentry
    obtain ⟨hr, hcatalog⟩ := List.mem_filter.mp (List.mem_of_getElem? hget)
    obtain ⟨last, hlast⟩ := exists_lastNaming hr
    refine ⟨r.publicModelId, contextBudget r.model, get_slug_catalogEntry _, ?_, get_window_catalogEntry _,
      get_limit_catalogEntry _⟩
    rw [get_budgetsOf, hlast, Option.map_some, h r hr hcatalog last hlast]

/-! ## Rewrites -/

variable (libs others cfg) in
/-- A call leaves the file, or writes a document that is built now. -/
theorem sync_cases (file : Option Value) (call : SyncCall) :
    (∃ answer, syncModelCatalogCompactPercent libs others cfg file call = (answer, file) ∧ isRewrite answer = false)
      ∨ ∃ doc, catalogDocument libs others call.fetchedAt cfg = .ok doc
        ∧ syncModelCatalogCompactPercent libs others cfg file call = (.ok true, some doc) := by
  unfold syncModelCatalogCompactPercent
  generalize (match file with
    | some doc => catalogCompactPercentMismatch doc cfg
    | none => true) = needsRewrite
  cases needsRewrite with
  | false => exact .inl ⟨_, rfl, rfl⟩
  | true =>
    cases hdoc : catalogDocument libs others call.fetchedAt cfg with
    | error e => exact .inl ⟨_, rfl, rfl⟩
    | ok doc =>
      cases hwrite : call.writeError with
      | some e => exact .inl ⟨_, rfl, rfl⟩
      | none => exact .inr ⟨doc, rfl, rfl⟩

/-- A file that passes the check stays. -/
theorem countP_syncAll_of_passes {doc : Value} (h : catalogCompactPercentMismatch doc cfg = false)
    (calls : List SyncCall) : (syncAll libs others cfg (some doc) calls).countP isRewrite = 0 := by
  induction calls with
  | nil => rfl
  | cons call rest ih =>
    have hstep : syncModelCatalogCompactPercent libs others cfg (some doc) call = (.ok false, some doc) := by
      unfold syncModelCatalogCompactPercent
      dsimp only
      rw [h]
      rfl
    rw [syncAll, hstep]
    dsimp only
    rw [List.countP_cons, ih]
    rfl

/-- After a rewrite the file passes the check. -/
theorem countP_syncAll_le (h : ∀ fetchedAt doc, catalogDocument libs others fetchedAt cfg = .ok doc →
    catalogCompactPercentMismatch doc cfg = false) (file : Option Value) (calls : List SyncCall) :
    (syncAll libs others cfg file calls).countP isRewrite ≤ 1 := by
  induction calls generalizing file with
  | nil => exact Nat.zero_le _
  | cons call rest ih =>
    rw [syncAll]
    rcases sync_cases libs others cfg file call with ⟨answer, hstep, hanswer⟩ | ⟨doc, hdoc, hstep⟩
    · rw [hstep]
      dsimp only
      rw [List.countP_cons, hanswer]
      exact ih file
    · rw [hstep]
      dsimp only
      rw [List.countP_cons, countP_syncAll_of_passes (h _ doc hdoc)]
      exact le_rfl

/-- The three agree if and only if every row of the catalog agrees with the last row and the last card. -/
theorem catalogAgrees_iff (libs : Libs) (others : ℕ → ModelRoute → Members) (cfg : RouterConfig) :
    CatalogAgrees libs others cfg ↔ ∀ plan, buildRoutePlan libs cfg = .ok plan → LastAgrees cfg plan := by
  constructor
  · intro h plan hplan
    have hcatalog : buildModelCatalogWithRoot libs others cfg = .ok (catalogOf others plan) := by
      rw [buildModelCatalogWithRoot, hplan]
      rfl
    have hbudgets : contextBudgetMap libs cfg = .ok (budgetsOf plan) := by
      rw [contextBudgetMap, hplan]
      rfl
    refine ⟨(budgets_iff plan).mp (h.budgets _ _ hcatalog hbudgets), ?_⟩
    refine (mismatch_plan libs others "" plan).mp (h.passes "" _ ?_)
    rw [catalogDocument, hcatalog]
    rfl
  · intro h
    have hpasses : ∀ fetchedAt doc, catalogDocument libs others fetchedAt cfg = .ok doc →
        catalogCompactPercentMismatch doc cfg = false := by
      intro fetchedAt doc hdoc
      unfold catalogDocument buildModelCatalogWithRoot at hdoc
      cases hplan : buildRoutePlan libs cfg with
      | error e =>
        rw [hplan] at hdoc
        cases hdoc
      | ok plan =>
        rw [hplan] at hdoc
        cases hdoc
        exact (mismatch_plan libs others fetchedAt plan).mpr (h plan hplan).card
    refine ⟨fun catalog budgets hcatalog hbudgets => ?_, hpasses, countP_syncAll_le hpasses⟩
    unfold buildModelCatalogWithRoot at hcatalog
    unfold contextBudgetMap at hbudgets
    cases hplan : buildRoutePlan libs cfg with
    | error e =>
      rw [hplan] at hcatalog
      cases hcatalog
    | ok plan =>
      rw [hplan] at hcatalog hbudgets
      cases hcatalog
      cases hbudgets
      exact (budgets_iff plan).mpr (h plan hplan).row

/-- Two channels of one model, the second one with a window of its own. -/
def twoChannels : RouterConfig where
  models := [{ model := "grok-4.6", baseUrl := "https://one.example/v1" },
    { model := "grok-4.6", baseUrl := "https://two.example/v1", contextWindow := 200000 }]

/-- The catalog says 500000 and the gateway 200000, and the file is rewritten at every call. -/
theorem not_catalogAgrees_twoChannels :
    (buildModelCatalogWithRoot plainLibs (fun _ _ => []) twoChannels).toOption.bind (fun catalog =>
        catalog.head?.bind (·.get "context_window")) = some (.number (.int 500000))
      ∧ (contextBudgetMap plainLibs twoChannels).toOption.bind (fun budgets => budgets.get "grok-4.6")
        = some ⟨200000, 190000⟩
      ∧ (syncAll plainLibs (fun _ _ => []) twoChannels none
        [⟨"2026-01-01T00:00:00+00:00", none⟩, ⟨"2026-01-01T00:01:00+00:00", none⟩]).countP isRewrite = 2
      ∧ ¬ CatalogAgrees plainLibs (fun _ _ => []) twoChannels := by
  have htwice : (syncAll plainLibs (fun _ _ => []) twoChannels none
      [⟨"2026-01-01T00:00:00+00:00", none⟩, ⟨"2026-01-01T00:01:00+00:00", none⟩]).countP isRewrite = 2 := by
    decide +kernel
  refine ⟨by decide +kernel, by decide +kernel, htwice, fun h => ?_⟩
  have hle := h.once none [⟨"2026-01-01T00:00:00+00:00", none⟩, ⟨"2026-01-01T00:01:00+00:00", none⟩]
  omega

end

end CodexRouter
