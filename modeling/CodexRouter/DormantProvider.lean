/-
# The dormant provider

A provider without a `model_provider` keeps old conversations loadable and routes nothing.  Protecting a
session takes it for a binding: it creates the system layer from it, or copies the routing of the system
layer.  `staysDormant_iff` says which calls wake it.
-/
import CodexRouter.DesktopProtection

namespace CodexRouter

open TomlTable (Below)

/-- The provider that a document routes new threads to. -/
def modelProvider (doc : TomlTable) : Option String := (doc.get "model_provider").bind TomlItem.asStr

/-- What is done to the two layers. -/
inductive SessionAction where
  | preserve (env : HistoryEnv)
  | protect (writable : CodexLayer → Bool) (repairUser : Bool)

/-- One action.  A panic leaves the file. -/
def actOn (layers : CodexLayers) : SessionAction → CodexLayers
  | .preserve env => Function.update layers .home ((layers .home).map fun text =>
      (preserveRouterProviderForHistory env text).getD text)
  | .protect writable repairUser => (protectDesktopSessionAt writable repairUser layers).1

/-- Actions in turn. -/
def actAll (layers : CodexLayers) (actions : List SessionAction) : CodexLayers := actions.foldl actOn layers

/-- No layer routes new threads to Router. -/
def Dormant (layers : CodexLayers) : Prop :=
  ∀ layer, modelProvider (documentOf (layers layer)) ≠ some "codex_router"

/-- No explicit provider is replaced. -/
def KeepsModelProvider (layers layers' : CodexLayers) : Prop :=
  ∀ layer provider, modelProvider (documentOf (layers layer)) = some provider →
    modelProvider (documentOf (layers' layer)) = some provider

/-- In no state that is reached a layer routes to Router, and no step replaces a provider. -/
def StaysDormant (layers : CodexLayers) (actions : List SessionAction) : Prop :=
  ∀ front action, front ++ [action] <+: actions →
    Dormant (actAll layers (front ++ [action])) ∧ KeepsModelProvider (actAll layers front) (actAll layers (front ++ [action]))

/-- The calls that wake the provider: the system layer is created from a home with the provider, or a
home without it gets the routing of a system layer that names no provider or another one. -/
def Wakes (layers : CodexLayers) : SessionAction → Prop
  | .preserve _ => False
  | .protect writable repairUser =>
    writable .system = true ∧ StandsAsTable (documentOf (layers .home)) ∧ ¬ Carries (documentOf (layers .system))
      ∨ repairUser = true ∧ writable .home = true ∧ Restorable layers
        ∧ ((documentOf (layers .system)).get "model_provider" = none
          ∨ ∃ provider, modelProvider (documentOf (layers .home)) = some provider
            ∧ modelProvider (documentOf (layers .system)) ≠ some provider)

section

variable {layers layers' : CodexLayers} {doc doc' home system : TomlTable} {text : ConfigText}
  {actions : List SessionAction} {action : SessionAction}

theorem modelProvider_eq_some {provider : String} :
    modelProvider doc = some provider ↔ doc.valueAt ["model_provider"] = some (.string provider) :=
  TomlTable.asStr_get_eq_some

theorem PatchedFrom.modelProvider_eq (h : PatchedFrom doc doc') : modelProvider doc' = modelProvider doc := by
  rw [modelProvider, modelProvider, h.others _ (by decide)]

theorem CreatedFrom.modelProvider_eq (h : CreatedFrom home system) : modelProvider system = some "codex_router" :=
  modelProvider_eq_some.mpr h.provider

/-- A restored home routes where the system layer does, or to Router. -/
theorem RestoredFrom.modelProvider_eq (h : RestoredFrom system home doc') : modelProvider doc'
    = ((system.get "model_provider").getD (.str "codex_router")).asStr := by
  apply Option.ext
  intro provider
  rw [modelProvider_eq_some, h.provider]
  cases (system.get "model_provider").getD (.str "codex_router") with
  | value v => cases v <;> simp [TomlItem.asStr, TomlTable.valueAt_value]
  | table inlined entries => simp [TomlItem.asStr, TomlTable.valueAt_table]

/-! ## Steps -/

/-- A text stays, or a provider is put into its document. -/
theorem preserve_cases {env : HistoryEnv} {text text' : ConfigText}
    (h : preserveRouterProviderForHistory env text = some text') : text' = text
      ∨ ∃ doc doc' provider, text.document = some doc ∧ text'.document = some doc'
        ∧ insertRouterProvider provider doc = some doc' := by
  rw [preserveRouterProviderForHistory] at h
  split at h
  · exact .inl (Option.some.inj h).symm
  · split at h
    · exact .inl (Option.some.inj h).symm
    · rename_i key _
      obtain ⟨result, hresult, hout⟩ := Option.map_eq_some_iff.mp h
      rw [preserveRouterProviderForHistoryWithKey] at hresult
      split at hresult
      · rw [← Option.some.inj hresult] at hout
        exact .inl hout.symm
      · split at hresult
        · rw [← Option.some.inj hresult] at hout
          exact .inl hout.symm
        · rename_i doc hdoc
          split at hresult
          · rw [← Option.some.inj hresult] at hout
            exact .inl hout.symm
          · split at hresult
            · rw [← Option.some.inj hresult] at hout
              exact .inl hout.symm
            · obtain ⟨doc', hdoc', rfl⟩ := Option.map_eq_some_iff.mp hresult
              rw [← hout]
              exact .inr ⟨doc, doc', _, hdoc, rfl, hdoc'⟩

/-- Keeping a provider for old conversations changes no routing. -/
theorem modelProvider_preserve (env : HistoryEnv) (text : ConfigText) :
    modelProvider (documentOf (some ((preserveRouterProviderForHistory env text).getD text)))
      = modelProvider (documentOf (some text)) := by
  cases hpreserve : preserveRouterProviderForHistory env text with
  | none => rfl
  | some text' =>
    rw [Option.getD_some]
    rcases preserve_cases hpreserve with rfl | ⟨doc, doc', provider, hdoc, hdoc', hinsert⟩
    · rfl
    · rw [documentOf, documentOf, Option.bind_some, Option.bind_some, hdoc, hdoc', Option.getD_some, Option.getD_some,
        modelProvider, modelProvider, TomlTable.get_of_setAt hinsert (by decide)]

theorem modelProvider_actOn_preserve (env : HistoryEnv) (layers : CodexLayers) (layer : CodexLayer) :
    modelProvider (documentOf (actOn layers (.preserve env) layer)) = modelProvider (documentOf (layers layer)) := by
  rw [actOn]
  cases layer with
  | system => rw [Function.update_of_ne (by decide)]
  | home =>
    rw [Function.update_self]
    cases layers .home with
    | none => rfl
    | some text => exact modelProvider_preserve env text

/-- A step that keeps every routing keeps what the law is about. -/
theorem keeps_of_modelProvider_eq (hdormant : Dormant layers)
    (h : ∀ layer, modelProvider (documentOf (layers' layer)) = modelProvider (documentOf (layers layer))) :
    Dormant layers' ∧ KeepsModelProvider layers layers' := by
  constructor
  · intro layer
    rw [h layer]
    exact hdormant layer
  · intro layer provider hprovider
    rw [h layer, hprovider]

/-- Writing home keeps what the law is about exactly if the new text does. -/
theorem keeps_update_home_iff (hdormant : Dormant layers)
    (h : ∀ layer, modelProvider (documentOf (layers' layer)) = modelProvider (documentOf (layers layer)))
    (text : ConfigText) :
    Dormant (Function.update layers' .home (some text))
        ∧ KeepsModelProvider layers (Function.update layers' .home (some text))
      ↔ modelProvider (documentOf (some text)) ≠ some "codex_router"
        ∧ ∀ provider, modelProvider (documentOf (layers .home)) = some provider →
          modelProvider (documentOf (some text)) = some provider := by
  have hhome : Function.update layers' .home (some text) .home = some text := Function.update_self _ _ _
  have hsystem : Function.update layers' .home (some text) .system = layers' .system :=
    Function.update_of_ne (by decide) _ _
  constructor
  · rintro ⟨hasleep, hkeeps⟩
    exact ⟨hhome ▸ hasleep .home, fun provider hprovider => hhome ▸ hkeeps .home provider hprovider⟩
  · rintro ⟨hasleep, hkeeps⟩
    constructor
    · rintro (_ | _)
      · rw [hhome]
        exact hasleep
      · rw [hsystem, h .system]
        exact hdormant .system
    · rintro (_ | _) provider hprovider
      · rw [hhome]
        exact hkeeps provider hprovider
      · rw [hsystem, h .system]
        exact hprovider

/-- The first stage changes no routing, and not whether the provider is there. -/
theorem repairSystem_keeps (writable : CodexLayer → Bool) (layers : CodexLayers) : ∃ layers₁ writes,
    repairSystem writable layers = (layers₁, writes) ∧ layers₁ .home = layers .home
      ∧ (documentOf (layers₁ .system)).get "model_provider" = (documentOf (layers .system)).get "model_provider"
      ∧ (Carries (documentOf (layers₁ .system)) ↔ Carries (documentOf (layers .system)))
      ∧ (StandsAsTable (documentOf (layers₁ .system)) ↔ StandsAsTable (documentOf (layers .system))) := by
  rcases repairSystem_cases writable layers with ⟨hsame, -⟩ | ⟨text, hpatched, hfrom⟩
  · exact ⟨layers, [], hsame, rfl, rfl, Iff.rfl, Iff.rfl⟩
  · refine ⟨_, _, hpatched, by simp, ?_⟩
    rw [Function.update_self]
    exact ⟨hfrom.others _ (by decide), hfrom.repaired.carries, hfrom.repaired.stands⟩

/-- The last stage does not touch the system layer. -/
theorem repairHome_system (writable : CodexLayer → Bool) (repairUser : Bool) (layers : CodexLayers) :
    ∃ layers₃ writes, repairHome writable repairUser layers = (layers₃, writes)
      ∧ layers₃ .system = layers .system := by
  rcases repairHome_cases writable repairUser layers with ⟨hsame, -⟩ | ⟨text, hwritten, -⟩
  · exact ⟨layers, [], hsame, rfl⟩
  · exact ⟨_, _, hwritten, by simp⟩

/-- A call keeps the law exactly if it does not wake the provider. -/
theorem keeps_actOn_iff (hdormant : Dormant layers) :
    Dormant (actOn layers action) ∧ KeepsModelProvider layers (actOn layers action) ↔ ¬ Wakes layers action := by
  cases action with
  | preserve env =>
    exact iff_of_true (keeps_of_modelProvider_eq hdormant (modelProvider_actOn_preserve env layers)) not_false
  | protect writable repairUser =>
    obtain ⟨layers₁, writes₁, h₁, hhome₁, hget₁, hcarries₁, hstands₁⟩ := repairSystem_keeps writable layers
    have hrestorable : Restorable layers₁ ↔ Restorable layers := by
      constructor <;> rintro ⟨hhome, habsent, hsource, htables⟩
      · exact ⟨hhome₁ ▸ hhome, hhome₁ ▸ habsent, hstands₁.mp hsource, hhome₁ ▸ htables⟩
      · exact ⟨hhome₁ ▸ hhome, hhome₁ ▸ habsent, hstands₁.mpr hsource, hhome₁ ▸ htables⟩
    have hmodel₁ : ∀ layer, modelProvider (documentOf (layers₁ layer)) = modelProvider (documentOf (layers layer)) := by
      rintro (_ | _)
      · rw [hhome₁]
      · rw [modelProvider, modelProvider, hget₁]
    rcases createSystem_cases writable layers₁ with ⟨h₂, hidle₂⟩ | ⟨text, h₂, hwritable, habsent, hcreated⟩
    · have hfirst : ¬ (writable .system = true ∧ StandsAsTable (documentOf (layers .home))
          ∧ ¬ Carries (documentOf (layers .system))) := by
        rintro ⟨hwritable, hstands, habsent⟩
        exact habsent (hcarries₁.mp (hidle₂ hwritable (hhome₁ ▸ hstands)))
      rw [Wakes, or_iff_right hfirst, actOn]
      rcases repairHome_cases writable repairUser layers₁ with ⟨h₃, hidle₃⟩ | ⟨text, h₃, hrest⟩
      · rw [protect_of_stages h₁ h₂ h₃]
        refine iff_of_true (keeps_of_modelProvider_eq hdormant hmodel₁) ?_
        rintro ⟨huser, hwritable, hrestorable', -⟩
        exact (hidle₃ huser hwritable).2 (hrestorable.mpr hrestorable')
      · rw [protect_of_stages h₁ h₂ h₃, keeps_update_home_iff hdormant hmodel₁]
        rcases hrest with hpatched | ⟨huser, hwritable, hrestorable', hrestored⟩
        · have hsame : modelProvider (documentOf (some text)) = modelProvider (documentOf (layers .home)) := by
            rw [hpatched.modelProvider_eq, hmodel₁ .home]
          rw [hsame]
          refine iff_of_true ⟨hdormant .home, fun _ hprovider => hprovider⟩ ?_
          rintro ⟨-, -, hrestorable', -⟩
          exact (hrestorable.mpr hrestorable').absent hpatched.carries
        · have hhome : modelProvider (documentOf (some text))
              = (((documentOf (layers .system)).get "model_provider").getD (.str "codex_router")).asStr := by
            rw [hrestored.modelProvider_eq, hget₁]
          have hasleep := hdormant .system
          rw [and_iff_right huser, and_iff_right hwritable, and_iff_right (hrestorable.mp hrestorable'), hhome]
          rw [modelProvider] at hasleep
          cases hget : (documentOf (layers .system)).get "model_provider" with
          | none => simp [TomlItem.asStr, TomlItem.str]
          | some item =>
            -- home routes where the system layer does from now on
            rw [hget, Option.bind_some] at hasleep
            simp [modelProvider, hget, hasleep]
    · obtain ⟨layers₃, writes₃, h₃, hsystem₃⟩ :=
        repairHome_system writable repairUser (Function.update layers₁ .system (some text))
      rw [actOn, protect_of_stages h₁ h₂ h₃]
      refine iff_of_false ?_ ?_
      · rintro ⟨hasleep, -⟩
        apply hasleep .system
        dsimp only
        rw [hsystem₃, Function.update_self]
        exact hcreated.modelProvider_eq
      · intro hasleep
        exact hasleep (.inl ⟨hwritable, hhome₁ ▸ hcreated.source, fun h => habsent (hcarries₁.mpr h)⟩)

/-! ## Runs -/

theorem actAll_append (layers : CodexLayers) (front : List SessionAction) (action : SessionAction) :
    actAll layers (front ++ [action]) = actOn (actAll layers front) action := by
  rw [actAll, List.foldl_append]
  rfl

/-- The states of a run are dormant as long as no step woke the provider. -/
theorem dormant_actAll (hdormant : Dormant layers)
    (h : ∀ front action, front ++ [action] <+: actions → Dormant (actAll layers (front ++ [action])))
    {front : List SessionAction} (hfront : front <+: actions) : Dormant (actAll layers front) := by
  rcases List.eq_nil_or_concat front with rfl | ⟨before, action, rfl⟩
  · exact hdormant
  · rw [List.concat_eq_append] at hfront ⊢
    exact h before action hfront

/-- A run keeps the provider dormant exactly if no step of it wakes it. -/
theorem staysDormant_iff (hdormant : Dormant layers) : StaysDormant layers actions
    ↔ ∀ front action, front ++ [action] <+: actions → ¬ Wakes (actAll layers front) action := by
  have hbefore : ∀ {front : List SessionAction} {action : SessionAction}, front ++ [action] <+: actions →
      front <+: actions := fun h => (List.prefix_append _ _).trans h
  constructor
  · intro hstays front action hfront
    have hasleep := dormant_actAll hdormant (fun front action h => (hstays front action h).1) (hbefore hfront)
    rw [← keeps_actOn_iff hasleep, ← actAll_append]
    exact hstays front action hfront
  · intro hno
    -- the states before a step are dormant, by induction on the number of steps
    have hasleep : ∀ front, front <+: actions → Dormant (actAll layers front) := by
      intro front
      induction front using List.reverseRecOn with
      | nil => exact fun _ => hdormant
      | append_singleton front action ih =>
        intro hfront
        rw [actAll_append]
        exact ((keeps_actOn_iff (ih (hbefore hfront))).mpr (hno front action hfront)).1
    intro front action hfront
    rw [actAll_append]
    exact (keeps_actOn_iff (hasleep front (hbefore hfront))).mpr (hno front action hfront)

end

namespace DormantRun

/-- What a machine that has served Router has beside its texts. -/
def env : HistoryEnv where
  catalogDeployed := true
  localApiKey := some "key"
  homeCreated := true
  publicBaseUrl := "http://127.0.0.1:18082"
  prefersChatgpt := true
  maxRetries := 3

/-- A home that was switched to the official route, beside a system layer or none. -/
def layersOf (system : Option ConfigText) : CodexLayers
  | .home => some ⟨false, some [("model_provider", .str "openai")]⟩
  | .system => system

/-- A system layer that carries the provider and routes nothing. -/
def carrying : ConfigText := ⟨true, some [("model_provider", .str "openai"),
  ("model_providers", .table false [("codex_router", .table false SessionRun.provider)])]⟩

theorem dormant_layersOf {system : Option ConfigText}
    (h : modelProvider (documentOf system) ≠ some "codex_router") : Dormant (layersOf system)
  | .home => by
    show modelProvider (documentOf (layersOf none .home)) ≠ some "codex_router"
    decide
  | .system => h

theorem staysDormant_carrying :
    StaysDormant (layersOf (some carrying)) [.preserve env, .protect allWritable false] := by
  refine (staysDormant_iff (dormant_layersOf (by decide))).mpr ?_
  intro front action hfront
  match front with
  | [] =>
    simp only [List.nil_append, List.cons_prefix_cons, List.nil_prefix, and_true] at hfront
    rw [hfront]
    exact not_false
  | [first] =>
    simp only [List.cons_append, List.nil_append, List.cons_prefix_cons, List.nil_prefix, and_true] at hfront
    obtain ⟨rfl, rfl⟩ := hfront
    rintro (⟨-, -, habsent⟩ | ⟨huser, -⟩)
    · exact habsent ⟨SessionRun.provider, rfl⟩
    · cases huser
  | _ :: _ :: _ => simpa using hfront.length_le

/-- The kept provider is taken for a binding: the system layer routes to Router. -/
theorem not_staysDormant_missing : Dormant (layersOf none)
    ∧ modelProvider (documentOf (actAll (layersOf none) [.preserve env, .protect allWritable false] .system))
      = some "codex_router"
    ∧ ¬ StaysDormant (layersOf none) [.preserve env, .protect allWritable false] := by
  have hawake : modelProvider (documentOf (actAll (layersOf none) [.preserve env, .protect allWritable false] .system))
      = some "codex_router" := by
    decide +kernel
  refine ⟨dormant_layersOf (by decide), hawake, ?_⟩
  intro hstays
  exact (hstays [.preserve env] (.protect allWritable false) (List.prefix_refl _)).1 .system hawake

end DormantRun

end CodexRouter
