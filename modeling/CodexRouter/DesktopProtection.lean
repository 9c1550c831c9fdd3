/-
# Protecting a desktop session

What one call of `protect_desktop_session_at` does to the two layers, by which of them carry the
provider of Router.  The call keeps what is foreign, settles the layers and is not needed again unless
it creates the system layer over a file of others, or has to copy an inline table (`protects_iff`).
-/
import CodexRouter.DesktopSession

namespace CodexRouter

open TomlTable (Below)

/-- A document carries the provider of Router. -/
def Carries (doc : TomlTable) : Prop := ∃ provider, routerProvider doc = some provider

/-- A document carries the provider with the legal identity. -/
def CarriesLegal (doc : TomlTable) : Prop :=
  ∃ provider, routerProvider doc = some provider ∧ (identityOf provider).isLegal = true

/-- The provider stands under a header, not inline. -/
def StandsAsTable (doc : TomlTable) : Prop := ∃ provider, doc.itemAt routerProviderPath = some (.table false provider)

/-- The keys of the routing. -/
def routingKeys : List (List String) := [["model_provider"], ["model_catalog_json"]]

/-- A system layer that was created from a home. -/
structure CreatedFrom (home system : TomlTable) : Prop where
  source : StandsAsTable home
  legal : CarriesLegal system
  provider : system.valueAt ["model_provider"] = some (.string "codex_router")
  only : ∀ path, ¬ Below (routerProviderPath :: routingKeys) path → system.valueAt path = none

/-- A home that got the provider from a system layer. -/
structure RestoredFrom (system home home' : TomlTable) : Prop where
  source : StandsAsTable system
  absent : ¬ Carries home
  legal : CarriesLegal home'
  provider : ∀ path, home'.valueAt ("model_provider" :: path)
    = ((system.get "model_provider").getD (.str "codex_router")).valueAt path
  kept : ∀ path, ¬ Below (routerProviderPath :: routingKeys) path → home'.valueAt path = home.valueAt path

section

variable {doc doc' home system provider : TomlTable} {text text' text'' : ConfigText} {file : Option ConfigText}
  {path : List String} {layers layers' : CodexLayers} {layer : CodexLayer} {writable : CodexLayer → Bool}
  {repairUser : Bool}

/-! ## Reading the identity -/

theorem present_iff : (readProviderIdentityFile file).present = true ↔ Carries (documentOf file) := by
  rw [readProviderIdentityFile_eq, Carries]
  cases routerProvider (documentOf file) <;> simp [ProviderIdentity.absent, identityOf]

theorem isLegal_iff : (readProviderIdentityFile file).isLegal = true ↔ CarriesLegal (documentOf file) := by
  rw [readProviderIdentityFile_eq, CarriesLegal]
  cases routerProvider (documentOf file) with
  | none => simp [ProviderIdentity.absent, ProviderIdentity.isLegal]
  | some provider => simp

theorem CarriesLegal.carries (h : CarriesLegal doc) : Carries doc := by
  obtain ⟨provider, hprovider, -⟩ := h
  exact ⟨provider, hprovider⟩

theorem StandsAsTable.carries (h : StandsAsTable doc) : Carries doc := by
  obtain ⟨provider, hitem⟩ := h
  exact ⟨provider, routerProvider_of_itemAt hitem⟩

theorem PatchedFrom.carries (h : PatchedFrom doc doc') : Carries doc := by
  obtain ⟨inlined, provider, hitem, -⟩ := h.provider
  exact ⟨provider, routerProvider_of_itemAt hitem⟩

theorem PatchedFrom.illegal (h : PatchedFrom doc doc') : ¬ CarriesLegal doc := by
  obtain ⟨inlined, provider, hitem, hillegal, -⟩ := h.provider
  rintro ⟨provider', hprovider, hlegal⟩
  rw [routerProvider_of_itemAt hitem, Option.some.injEq] at hprovider
  rw [← hprovider, hillegal] at hlegal
  cases hlegal

theorem PatchedFrom.carriesLegal (h : PatchedFrom doc doc') : CarriesLegal doc' := by
  obtain ⟨inlined, provider, -, -, hitem⟩ := h.provider
  exact ⟨_, routerProvider_of_itemAt hitem, isLegal_legalProvider provider⟩

/-- A provider that is put in is made legal. -/
theorem exists_patched (marked : Bool) (h : Carries doc) : ∃ doc',
    (patchedProviderIdentity ⟨marked, some doc⟩).getD ⟨marked, some doc⟩ = ⟨marked, some doc'⟩
      ∧ CarriesLegal doc' ∧ ∀ path, ¬ Below identityKeys path → doc'.valueAt path = doc.valueAt path := by
  rw [patchedProviderIdentity, Option.bind_some]
  cases hpatched : patchedDocument doc with
  | none =>
    obtain ⟨provider, hprovider⟩ := h
    exact ⟨doc, rfl, ⟨provider, hprovider, patchedDocument_eq_none_iff.mp hpatched provider hprovider⟩, fun _ _ => rfl⟩
  | some doc' =>
    have hfrom := patchedFrom_of_patchedDocument hpatched
    exact ⟨doc', rfl, hfrom.carriesLegal, hfrom.kept⟩

theorem below_routerProviderPath_of_below_identityKeys (h : Below identityKeys path) : routerProviderPath <+: path := by
  obtain ⟨top, htop, hpfx⟩ := h
  simp only [identityKeys, List.mem_cons, List.not_mem_nil, or_false] at htop
  refine List.IsPrefix.trans ?_ hpfx
  rcases htop with rfl | rfl <;> simp [routerProviderPath]

theorem valueAt_copyCatalog (source doc : TomlTable) (h : ¬ ["model_catalog_json"] <+: path) :
    (copyCatalog source doc).valueAt path = doc.valueAt path := by
  cases path with
  | nil => rfl
  | cons key path =>
    rw [TomlTable.valueAt_cons, copyCatalog, TomlTable.get_copyItem, if_neg, TomlTable.valueAt_cons]
    rintro rfl
    simp at h

/-! ## Created and restored layers -/

/-- A document into which the provider was put. -/
theorem insertIntoProviders_spec (h : insertIntoProviders provider doc = some doc') :
    ((doc.get "model_providers").all fun item => item.asTable.isSome) = true
      ∧ doc'.itemAt routerProviderPath = some (.table false provider)
      ∧ (∀ path, ¬ routerProviderPath <+: path → doc'.valueAt path = doc.valueAt path)
      ∧ ∀ key, key ≠ "model_providers" → doc'.get key = doc.get key := by
  rw [insertIntoProviders] at h
  split at h
  · rename_i htable
    refine ⟨htable, TomlTable.itemAt_of_setAt h, ?_, ?_⟩
    · intro path hpath
      rw [TomlTable.valueAt_setAt h, if_neg hpath]
    · intro key hkey
      exact TomlTable.get_of_setAt h hkey
  · cases h

theorem exists_insertIntoProviders (provider : TomlTable)
    (h : ((doc.get "model_providers").all fun item => item.asTable.isSome) = true) :
    ∃ doc', insertIntoProviders provider doc = some doc' := by
  rw [insertIntoProviders, if_pos h, insertRouterProvider, routerProviderPath, TomlTable.setAt_cons]
  cases hget : doc.get "model_providers" with
  | none => exact ⟨_, rfl⟩
  | some item =>
    rw [hget] at h
    cases item with
    | value v => cases h
    | table inlined entries => exact ⟨_, rfl⟩

theorem below_cons_iff {top : List String} {owned : List (List String)} :
    Below (top :: owned) path ↔ top <+: path ∨ Below owned path := by
  simp [Below]

theorem below_routingKeys_iff : Below routingKeys path ↔ ["model_provider"] <+: path ∨ ["model_catalog_json"] <+: path := by
  simp [Below, routingKeys]

theorem createdFrom_of_restoreSystemFromHome (h : restoreSystemFromHome text = some text') :
    CreatedFrom (documentOf (some text)) (documentOf (some text')) := by
  rw [restoreSystemFromHome] at h
  split at h
  · cases h
  · obtain ⟨home, hhome, h⟩ := Option.bind_eq_some_iff.mp h
    obtain ⟨provider, hprovider, h⟩ := Option.bind_eq_some_iff.mp h
    obtain ⟨doc, hinsert, rfl⟩ := Option.map_eq_some_iff.mp h
    obtain ⟨-, hitem, hkept, hget⟩ := insertIntoProviders_spec hinsert
    obtain ⟨system, hpatched, hlegal, hsame⟩ :=
      exists_patched true ⟨provider, routerProvider_of_itemAt hitem⟩
    rw [hpatched]
    have hsystem : documentOf (some ⟨true, some system⟩) = system := rfl
    have hhome' : documentOf (some text) = home := by
      rw [documentOf, Option.bind_some, hhome, Option.getD_some]
    rw [hsystem, hhome']
    have hvalue : ∀ path, ¬ routerProviderPath <+: path → ¬ ["model_catalog_json"] <+: path →
        system.valueAt path = (TomlTable.insert [] "model_provider" (.str "codex_router")).valueAt path := by
      intro path hrouter hcatalog
      rw [hsame path fun hbelow => hrouter (below_routerProviderPath_of_below_identityKeys hbelow),
        hkept path hrouter, valueAt_copyCatalog _ _ hcatalog]
    refine ⟨?_, hlegal, ?_, ?_⟩
    · obtain ⟨item, hitem, htable⟩ := Option.bind_eq_some_iff.mp hprovider
      exact ⟨_, TomlItem.eq_of_asTable htable ▸ hitem⟩
    · rw [hvalue _ (by simp [routerProviderPath]) (by simp)]
      rfl
    · intro path hpath
      rw [below_cons_iff, below_routingKeys_iff] at hpath
      simp only [not_or] at hpath
      obtain ⟨hrouter, hprovider, hcatalog⟩ := hpath
      rw [hvalue path hrouter hcatalog]
      cases path with
      | nil => rfl
      | cons key path =>
        rw [TomlTable.valueAt_insert, if_neg, TomlTable.valueAt_empty]
        rintro rfl
        simp at hprovider

/-- The system layer is created from a provider under a header. -/
theorem exists_restoreSystemFromHome (h : StandsAsTable (documentOf (some text))) :
    ∃ text', restoreSystemFromHome text = some text' := by
  obtain ⟨provider, hitem⟩ := h
  have hpresent : (readProviderIdentity text).present = true :=
    present_iff.mpr ⟨provider, routerProvider_of_itemAt hitem⟩
  rw [restoreSystemFromHome, hpresent, Bool.not_true, if_neg Bool.false_ne_true]
  rw [documentOf, Option.bind_some] at hitem
  cases hdoc : text.document with
  | none =>
    rw [hdoc] at hitem
    cases hitem
  | some home =>
    rw [hdoc, Option.getD_some] at hitem
    rw [Option.bind_some, hitem]
    have hproviders : (((copyCatalog home (TomlTable.insert [] "model_provider" (.str "codex_router"))).get
        "model_providers").all fun item => item.asTable.isSome) = true := by
      rw [copyCatalog, TomlTable.get_copyItem]
      rfl
    obtain ⟨doc, hdoc⟩ := exists_insertIntoProviders provider hproviders
    rw [Option.bind_some, TomlItem.asTable, Option.bind_some]
    dsimp only
    rw [hdoc]
    exact ⟨_, rfl⟩

theorem not_carries_iff : ¬ Carries (documentOf file) ↔ (readProviderIdentityFile file).present = false := by
  rw [← Bool.not_eq_true, present_iff]

theorem restoredFrom_of_restoreHome (h : restoreHomeProviderFromSystem text text' = some text'') :
    RestoredFrom (documentOf (some text')) (documentOf (some text)) (documentOf (some text'')) := by
  rw [restoreHomeProviderFromSystem] at h
  split at h
  · cases h
  · rename_i hidentity
    simp only [Bool.or_eq_true, Bool.not_eq_true', not_or, Bool.not_eq_true, Bool.not_eq_false] at hidentity
    obtain ⟨home, hhome, h⟩ := Option.bind_eq_some_iff.mp h
    obtain ⟨system, hsystem, h⟩ := Option.bind_eq_some_iff.mp h
    obtain ⟨provider, hprovider, h⟩ := Option.bind_eq_some_iff.mp h
    obtain ⟨doc, hinsert, rfl⟩ := Option.map_eq_some_iff.mp h
    obtain ⟨-, hitem, hkept, hget⟩ := insertIntoProviders_spec hinsert
    obtain ⟨home', hpatched, hlegal, hsame⟩ :=
      exists_patched text.marked ⟨provider, routerProvider_of_itemAt hitem⟩
    rw [hpatched]
    have hhome' : documentOf (some text) = home := by
      rw [documentOf, Option.bind_some, hhome, Option.getD_some]
    have hsystem' : documentOf (some text') = system := by
      rw [documentOf, Option.bind_some, hsystem, Option.getD_some]
    have hresult : documentOf (some ⟨text.marked, some home'⟩) = home' := rfl
    rw [hresult, hsystem', hhome']
    refine ⟨?_, ?_, hlegal, ?_, ?_⟩
    · obtain ⟨item, hitem, htable⟩ := Option.bind_eq_some_iff.mp hprovider
      exact ⟨_, TomlItem.eq_of_asTable htable ▸ hitem⟩
    · rw [← hhome', not_carries_iff]
      exact hidentity.1
    · intro path
      have hrouter : ¬ routerProviderPath <+: "model_provider" :: path := by simp [routerProviderPath]
      rw [hsame _ fun hbelow => hrouter (below_routerProviderPath_of_below_identityKeys hbelow),
        hkept _ hrouter, valueAt_copyCatalog _ _ (by simp), TomlTable.valueAt_insert, if_pos rfl]
    · intro path hpath
      rw [below_cons_iff, below_routingKeys_iff] at hpath
      simp only [not_or] at hpath
      obtain ⟨hrouter, hmodel, hcatalog⟩ := hpath
      rw [hsame path fun hbelow => hrouter (below_routerProviderPath_of_below_identityKeys hbelow),
        hkept path hrouter, valueAt_copyCatalog _ _ hcatalog]
      cases path with
      | nil => rfl
      | cons key path =>
        rw [TomlTable.valueAt_insert, if_neg]
        rintro rfl
        simp at hmodel

/-- A home gets the provider that stands under a header, where its own providers do. -/
theorem exists_restoreHome (hdoc : text.document.isSome = true) (habsent : ¬ Carries (documentOf (some text)))
    (hsource : StandsAsTable (documentOf (some text')))
    (htable : (((documentOf (some text)).get "model_providers").all fun item => item.asTable.isSome) = true) :
    ∃ text'', restoreHomeProviderFromSystem text text' = some text'' := by
  have hpresent : (readProviderIdentity text').present = true := present_iff.mpr hsource.carries
  have habsent' : (readProviderIdentity text).present = false := not_carries_iff.mp habsent
  rw [restoreHomeProviderFromSystem, hpresent, habsent', Bool.not_true, Bool.or_false, if_neg Bool.false_ne_true]
  obtain ⟨home, hhome⟩ := Option.isSome_iff_exists.mp hdoc
  rw [documentOf, Option.bind_some, hhome, Option.getD_some] at htable
  obtain ⟨provider, hitem⟩ := hsource
  rw [documentOf, Option.bind_some] at hitem
  cases hsystem : text'.document with
  | none =>
    rw [hsystem] at hitem
    cases hitem
  | some system =>
    rw [hsystem, Option.getD_some] at hitem
    rw [hhome, Option.bind_some, Option.bind_some, hitem, Option.bind_some, TomlItem.asTable]
    dsimp only
    have hproviders : (((copyCatalog system (home.insert "model_provider"
        ((system.get "model_provider").getD (.str "codex_router")))).get "model_providers").all
        fun item => item.asTable.isSome) = true := by
      rw [copyCatalog, TomlTable.get_copyItem]
      simpa using htable
    obtain ⟨doc, hdoc⟩ := exists_insertIntoProviders provider hproviders
    rw [Option.bind_some, hdoc]
    exact ⟨_, rfl⟩

/-- And it gets none where its own providers are inline. -/
theorem tables_of_restoreHome (h : restoreHomeProviderFromSystem text text' = some text'') :
    (∃ doc, text.document = some doc)
      ∧ (((documentOf (some text)).get "model_providers").all fun item => item.asTable.isSome) = true := by
  rw [restoreHomeProviderFromSystem] at h
  split at h
  · cases h
  · obtain ⟨home, hhome, h⟩ := Option.bind_eq_some_iff.mp h
    obtain ⟨system, hsystem, h⟩ := Option.bind_eq_some_iff.mp h
    obtain ⟨provider, hprovider, h⟩ := Option.bind_eq_some_iff.mp h
    obtain ⟨doc, hinsert, rfl⟩ := Option.map_eq_some_iff.mp h
    have htable := (insertIntoProviders_spec hinsert).1
    refine ⟨⟨home, hhome⟩, ?_⟩
    rw [documentOf, Option.bind_some, hhome, Option.getD_some]
    rw [copyCatalog, TomlTable.get_copyItem] at htable
    simpa using htable

/-! ## The steps -/

/-- What a repair of a layer can do. -/
theorem repairProviderIdentityFile_cases (writable : CodexLayer → Bool) (layers : CodexLayers) (layer : CodexLayer) :
    repairProviderIdentityFile writable layers layer = (layers, [])
      ∧ (writable layer = true → Carries (documentOf (layers layer)) → CarriesLegal (documentOf (layers layer)))
    ∨ ∃ text, repairProviderIdentityFile writable layers layer = (Function.update layers layer (some text), [layer])
      ∧ PatchedFrom (documentOf (layers layer)) (documentOf (some text)) := by
  rw [repairProviderIdentityFile]
  cases hfile : layers layer with
  | none => exact .inl ⟨rfl, fun _ ⟨provider, hprovider⟩ => by cases hprovider⟩
  | some text =>
    rw [Option.bind_some]
    cases hpatched : patchedProviderIdentity text with
    | none =>
      refine .inl ⟨rfl, fun _ hcarries => ?_⟩
      obtain ⟨provider, hprovider⟩ := hcarries
      refine ⟨provider, hprovider, ?_⟩
      rw [patchedProviderIdentity, Option.map_eq_none_iff] at hpatched
      rw [documentOf, Option.bind_some] at hprovider
      cases hdoc : text.document with
      | none =>
        rw [hdoc] at hprovider
        cases hprovider
      | some doc =>
        rw [hdoc, Option.getD_some] at hprovider
        rw [hdoc, Option.bind_some] at hpatched
        exact patchedDocument_eq_none_iff.mp hpatched provider hprovider
    | some text' =>
      dsimp only
      rw [writeLayer]
      cases hwritable : writable layer with
      | false => exact .inl ⟨rfl, fun h => by cases h⟩
      | true =>
        refine .inr ⟨text', rfl, ?_⟩
        rw [patchedProviderIdentity] at hpatched
        obtain ⟨doc', hbound, rfl⟩ := Option.map_eq_some_iff.mp hpatched
        obtain ⟨doc, hdoc, hpatch⟩ := Option.bind_eq_some_iff.mp hbound
        rw [documentOf, documentOf, Option.bind_some, Option.bind_some, hdoc]
        exact patchedFrom_of_patchedDocument hpatch

theorem repairSystem_cases (writable : CodexLayer → Bool) (layers : CodexLayers) :
    repairSystem writable layers = (layers, [])
      ∧ (writable .system = true → Carries (documentOf (layers .system)) → CarriesLegal (documentOf (layers .system)))
    ∨ ∃ text, repairSystem writable layers = (Function.update layers .system (some text), [.system])
      ∧ PatchedFrom (documentOf (layers .system)) (documentOf (some text)) := by
  rw [repairSystem]
  split
  · exact repairProviderIdentityFile_cases writable layers .system
  · rename_i hidentity
    refine .inl ⟨rfl, fun _ hcarries => ?_⟩
    rw [← present_iff] at hcarries
    rw [← isLegal_iff]
    simpa [hcarries] using hidentity

theorem createSystem_cases (writable : CodexLayer → Bool) (layers : CodexLayers) :
    createSystem writable layers = (layers, [])
      ∧ (writable .system = true → StandsAsTable (documentOf (layers .home)) → Carries (documentOf (layers .system)))
    ∨ ∃ text, createSystem writable layers = (Function.update layers .system (some text), [.system])
      ∧ writable .system = true ∧ ¬ Carries (documentOf (layers .system))
      ∧ CreatedFrom (documentOf (layers .home)) (documentOf (some text)) := by
  rw [createSystem]
  split
  · rename_i habsent
    rw [Bool.not_eq_true', ← not_carries_iff] at habsent
    cases hhome : layers .home with
    | none =>
      refine .inl ⟨rfl, fun _ hstands => ?_⟩
      obtain ⟨provider, hitem⟩ := hstands
      cases hitem
    | some home =>
      rw [Option.bind_some]
      cases hcreated : restoreSystemFromHome home with
      | none =>
        refine .inl ⟨rfl, fun _ hstands => ?_⟩
        obtain ⟨text, htext⟩ := exists_restoreSystemFromHome hstands
        rw [hcreated] at htext
        cases htext
      | some text =>
        dsimp only
        rw [writeLayer]
        cases hwritable : writable .system with
        | false => exact .inl ⟨rfl, fun h => by cases h⟩
        | true => exact .inr ⟨text, rfl, rfl, habsent, createdFrom_of_restoreSystemFromHome hcreated⟩
  · rename_i hpresent
    rw [Bool.not_eq_true', Bool.not_eq_false, present_iff] at hpresent
    exact .inl ⟨rfl, fun _ _ => hpresent⟩

/-- Home can get the provider of the system layer. -/
structure Restorable (layers : CodexLayers) : Prop where
  home : ∃ text doc, layers .home = some text ∧ text.document = some doc
  absent : ¬ Carries (documentOf (layers .home))
  source : StandsAsTable (documentOf (layers .system))
  tables : (((documentOf (layers .home)).get "model_providers").all fun item => item.asTable.isSome) = true

theorem repairHome_cases (writable : CodexLayer → Bool) (repairUser : Bool) (layers : CodexLayers) :
    repairHome writable repairUser layers = (layers, [])
      ∧ (repairUser = true → writable .home = true →
        (Carries (documentOf (layers .home)) → CarriesLegal (documentOf (layers .home))) ∧ ¬ Restorable layers)
    ∨ ∃ text, repairHome writable repairUser layers = (Function.update layers .home (some text), [.home])
      ∧ (PatchedFrom (documentOf (layers .home)) (documentOf (some text))
        ∨ repairUser = true ∧ writable .home = true ∧ Restorable layers
          ∧ RestoredFrom (documentOf (layers .system)) (documentOf (layers .home)) (documentOf (some text))) := by
  rw [repairHome]
  cases hpresent : (readProviderIdentityFile (layers .home)).present with
  | true =>
    have hcarries := present_iff.mp hpresent
    rw [Bool.not_true, if_neg Bool.false_ne_true]
    split
    · rcases repairProviderIdentityFile_cases writable layers .home with ⟨hsame, hlegal⟩ | ⟨text, hpatched, hfrom⟩
      · exact .inl ⟨hsame, fun _ hwritable => ⟨hlegal hwritable, fun h => h.absent hcarries⟩⟩
      · exact .inr ⟨text, hpatched, .inl hfrom⟩
    · rename_i hidle
      refine .inl ⟨rfl, fun huser _ => ⟨fun _ => ?_, fun h => h.absent hcarries⟩⟩
      rw [← isLegal_iff]
      simpa [huser] using hidle
  | false =>
    have habsent := not_carries_iff.mpr hpresent
    rw [Bool.not_false, if_pos rfl]
    split
    · rename_i huser
      cases hhome : layers .home with
      | none =>
        refine .inl ⟨rfl, fun _ _ => ⟨fun ⟨provider, hprovider⟩ => (by cases hprovider), fun h => ?_⟩⟩
        obtain ⟨text, doc, htext, -⟩ := h.home
        rw [hhome] at htext
        cases htext
      | some home =>
        cases hsystem : layers .system with
        | none =>
          refine .inl ⟨rfl, fun _ _ => ⟨fun hcarries => absurd hcarries (hhome ▸ habsent), fun h => ?_⟩⟩
          obtain ⟨provider, hitem⟩ := h.source
          rw [hsystem] at hitem
          cases hitem
        | some system =>
          rw [Option.bind_some, Option.bind_some]
          cases hrestored : restoreHomeProviderFromSystem home system with
          | none =>
            refine .inl ⟨rfl, fun _ _ => ⟨fun hcarries => absurd hcarries (hhome ▸ habsent), fun h => ?_⟩⟩
            obtain ⟨text, doc, htext, hdoc⟩ := h.home
            rw [hhome, Option.some.injEq] at htext
            subst htext
            obtain ⟨text', htext'⟩ := exists_restoreHome (Option.isSome_of_eq_some hdoc)
              (hhome ▸ habsent) (hsystem ▸ h.source) (hhome ▸ h.tables)
            rw [hrestored] at htext'
            cases htext'
          | some text =>
            dsimp only
            rw [writeLayer]
            cases hwritable : writable .home with
            | false => exact .inl ⟨rfl, fun _ h => by cases h⟩
            | true =>
              have hfrom := restoredFrom_of_restoreHome hrestored
              obtain ⟨⟨doc, hdoc⟩, htables⟩ := tables_of_restoreHome hrestored
              refine .inr ⟨text, rfl, .inr ⟨huser, rfl, ⟨?_, ?_, ?_, ?_⟩, hfrom⟩⟩
              · exact ⟨home, doc, hhome, hdoc⟩
              · rw [hhome]
                exact hfrom.absent
              · rw [hsystem]
                exact hfrom.source
              · rw [hhome]
                exact htables
    · rename_i huser
      exact .inl ⟨rfl, fun h => absurd h huser⟩

/-! ## One call -/

/-- A document whose provider has the legal identity now, and that says the same otherwise. -/
structure Repaired (doc doc' : TomlTable) : Prop where
  carries : Carries doc' ↔ Carries doc
  legal : Carries doc → CarriesLegal doc'
  stands : StandsAsTable doc' ↔ StandsAsTable doc
  kept : ∀ path, ¬ Below identityKeys path → doc'.valueAt path = doc.valueAt path

theorem repaired_self (h : Carries doc → CarriesLegal doc) : Repaired doc doc := ⟨Iff.rfl, h, Iff.rfl, fun _ _ => rfl⟩

theorem PatchedFrom.repaired (h : PatchedFrom doc doc') : Repaired doc doc' where
  carries := iff_of_true h.carriesLegal.carries h.carries
  legal _ := h.carriesLegal
  stands := by
    obtain ⟨inlined, provider, hitem, -, hitem'⟩ := h.provider
    rw [StandsAsTable, StandsAsTable, hitem, hitem']
    simp
  kept := h.kept

/-- No write fails. -/
def allWritable : CodexLayer → Bool := fun _ => true

theorem repairSystem_spec (layers : CodexLayers) : ∃ layers₁ writes,
    repairSystem allWritable layers = (layers₁, writes) ∧ layers₁ .home = layers .home
      ∧ Repaired (documentOf (layers .system)) (documentOf (layers₁ .system)) := by
  rcases repairSystem_cases allWritable layers with ⟨hsame, hlegal⟩ | ⟨text, hpatched, hfrom⟩
  · exact ⟨layers, [], hsame, rfl, repaired_self (hlegal rfl)⟩
  · refine ⟨_, _, hpatched, by simp, ?_⟩
    rw [Function.update_self]
    exact hfrom.repaired

theorem createSystem_spec (layers : CodexLayers) : ∃ layers₂ writes,
    createSystem allWritable layers = (layers₂, writes) ∧ layers₂ .home = layers .home
      ∧ (layers₂ .system = layers .system
          ∧ (StandsAsTable (documentOf (layers .home)) → Carries (documentOf (layers .system)))
        ∨ ¬ Carries (documentOf (layers .system))
          ∧ CreatedFrom (documentOf (layers .home)) (documentOf (layers₂ .system))) := by
  rcases createSystem_cases allWritable layers with ⟨hsame, hstands⟩ | ⟨text, hcreated, -, habsent, hfrom⟩
  · exact ⟨layers, [], hsame, rfl, .inl ⟨rfl, hstands rfl⟩⟩
  · refine ⟨_, _, hcreated, by simp, .inr ⟨habsent, ?_⟩⟩
    rw [Function.update_self]
    exact hfrom

theorem repairHome_spec (layers : CodexLayers) : ∃ layers₃ writes,
    repairHome allWritable true layers = (layers₃, writes) ∧ layers₃ .system = layers .system
      ∧ (Carries (documentOf (layers .home)) → Repaired (documentOf (layers .home)) (documentOf (layers₃ .home)))
      ∧ (¬ Carries (documentOf (layers .home)) → layers₃ .home = layers .home ∧ ¬ Restorable layers
        ∨ Restorable layers
          ∧ RestoredFrom (documentOf (layers .system)) (documentOf (layers .home)) (documentOf (layers₃ .home))) := by
  rcases repairHome_cases allWritable true layers with ⟨hsame, hidle⟩ | ⟨text, hwritten, hfrom⟩
  · obtain ⟨hlegal, hrestorable⟩ := hidle rfl rfl
    exact ⟨layers, [], hsame, rfl, fun _ => repaired_self hlegal, fun _ => .inl ⟨rfl, hrestorable⟩⟩
  · refine ⟨_, _, hwritten, by simp, ?_⟩
    rw [Function.update_self]
    rcases hfrom with hfrom | ⟨-, -, hrestorable, hfrom⟩
    · exact ⟨fun _ => hfrom.repaired, fun h => absurd hfrom.carries h⟩
    · exact ⟨fun h => absurd h hfrom.absent, fun _ => .inr ⟨hrestorable, hfrom⟩⟩

theorem protect_of_stages {layers₁ layers₂ layers₃ : CodexLayers} {writes₁ writes₂ writes₃ : List CodexLayer}
    (h₁ : repairSystem writable layers = (layers₁, writes₁)) (h₂ : createSystem writable layers₁ = (layers₂, writes₂))
    (h₃ : repairHome writable repairUser layers₂ = (layers₃, writes₃)) :
    protectDesktopSessionAt writable repairUser layers = (layers₃, writes₁ ++ writes₂ ++ writes₃) := by
  rw [protectDesktopSessionAt, h₁]
  dsimp only
  rw [h₂]
  dsimp only
  rw [h₃]

/-- Both layers carry the legal identity, or none carries the provider. -/
def Settled (layers : CodexLayers) : Prop :=
  (∀ layer, CarriesLegal (documentOf (layers layer))) ∨ ∀ layer, ¬ Carries (documentOf (layers layer))

/-- Settled layers are not written. -/
theorem protect_of_settled (h : Settled layers) : protectDesktopSessionAt writable repairUser layers = (layers, []) := by
  have hlegal : ∀ layer, Carries (documentOf (layers layer)) → CarriesLegal (documentOf (layers layer)) := by
    intro layer hcarries
    rcases h with h | h
    · exact h layer
    · exact absurd hcarries (h layer)
  have hboth : ∀ layer other, Carries (documentOf (layers layer)) → Carries (documentOf (layers other)) := by
    intro layer other hcarries
    rcases h with h | h
    · exact (h other).carries
    · exact absurd hcarries (h layer)
  have h₁ : repairSystem writable layers = (layers, []) := by
    rcases repairSystem_cases writable layers with ⟨hsame, -⟩ | ⟨text, -, hfrom⟩
    · exact hsame
    · exact absurd (hlegal .system hfrom.carries) hfrom.illegal
  have h₂ : createSystem writable layers = (layers, []) := by
    rcases createSystem_cases writable layers with ⟨hsame, -⟩ | ⟨text, -, -, habsent, hfrom⟩
    · exact hsame
    · exact absurd (hboth .home .system hfrom.source.carries) habsent
  have h₃ : repairHome writable repairUser layers = (layers, []) := by
    rcases repairHome_cases writable repairUser layers with ⟨hsame, -⟩ | ⟨text, -, hfrom | ⟨-, -, -, hfrom⟩⟩
    · exact hsame
    · exact absurd (hlegal .home hfrom.carries) hfrom.illegal
    · exact absurd (hboth .system .home hfrom.source.carries) hfrom.absent
  exact protect_of_stages h₁ h₂ h₃

/-- The key paths that protecting a session can change. -/
def sessionKeys : List (List String) := routingKeys ++ identityKeys

/-- The layers that a session is protected in: home is there, all is TOML, and the providers are
tables. -/
structure SessionLayers (layers : CodexLayers) : Prop where
  home : ∃ text, layers .home = some text
  parsed : ∀ layer text, layers layer = some text → ∃ doc, text.document = some doc
  providers : ∀ layer, (documentOf (layers layer)).TableWhenPresent "model_providers"
  provider : ∀ layer item, (documentOf (layers layer)).itemAt routerProviderPath = some item → item.asTableLike.isSome

/-- The layers after a call that may write both. -/
def protectedLayers (layers : CodexLayers) : CodexLayers := (protectDesktopSessionAt allWritable true layers).1

/-- Every value outside the keys of the session stays. -/
def KeepsForeign (layers layers' : CodexLayers) : Prop :=
  ∀ layer path, ¬ Below sessionKeys path → ∀ v, (documentOf (layers layer)).valueAt path = some v →
    (documentOf (layers' layer)).valueAt path = some v

/-- A call keeps what is foreign, settles the layers, and another call writes nothing. -/
structure Protects (layers : CodexLayers) : Prop where
  kept : KeepsForeign layers (protectedLayers layers)
  settled : Settled (protectedLayers layers)
  quiet : (protectDesktopSessionAt allWritable true (protectedLayers layers)).2 = []

/-- No layer has to be created over what others wrote, and no inline table has to be copied. -/
structure Protectable (layers : CodexLayers) : Prop where
  system : Carries (documentOf (layers .home)) → ¬ Carries (documentOf (layers .system)) →
    StandsAsTable (documentOf (layers .home))
      ∧ ∀ path, ¬ Below routingKeys path → (documentOf (layers .system)).valueAt path = none
  home : Carries (documentOf (layers .system)) → ¬ Carries (documentOf (layers .home)) →
    StandsAsTable (documentOf (layers .system))
      ∧ (((documentOf (layers .home)).get "model_providers").all fun item => item.asTable.isSome) = true

theorem not_below_of_not_below_sessionKeys (h : ¬ Below sessionKeys path) :
    ¬ Below routingKeys path ∧ ¬ Below identityKeys path := by
  constructor <;> rintro ⟨top, htop, hpfx⟩
  · exact h ⟨top, List.mem_append_left _ htop, hpfx⟩
  · exact h ⟨top, List.mem_append_right _ htop, hpfx⟩

/-- A layer without the provider has nothing where it would stand. -/
theorem SessionLayers.valueAt_eq_none (h : SessionLayers layers) (habsent : ¬ Carries (documentOf (layers layer)))
    (hpath : routerProviderPath <+: path) : (documentOf (layers layer)).valueAt path = none := by
  obtain ⟨rest, rfl⟩ := hpath
  cases hitem : (documentOf (layers layer)).itemAt routerProviderPath with
  | none => exact TomlTable.valueAt_append_of_none hitem rest
  | some item =>
    obtain ⟨provider, hprovider⟩ := Option.isSome_iff_exists.mp (h.provider layer item hitem)
    exact absurd ⟨provider, by rw [routerProvider, hitem, Option.bind_some, hprovider]⟩ habsent

theorem Repaired.keeps (h : Repaired doc doc') (hpath : ¬ Below sessionKeys path) {v : TomlValue}
    (hv : doc.valueAt path = some v) : doc'.valueAt path = some v := by
  rw [h.kept path (not_below_of_not_below_sessionKeys hpath).2, hv]

/-- What was foreign in a home stays when the provider is restored. -/
theorem RestoredFrom.keeps (hlayers : SessionLayers layers)
    (h : RestoredFrom system (documentOf (layers .home)) doc') (hpath : ¬ Below sessionKeys path) {v : TomlValue}
    (hv : (documentOf (layers .home)).valueAt path = some v) : doc'.valueAt path = some v := by
  rw [h.kept path, hv]
  rw [below_cons_iff]
  rintro (hrouter | hrouting)
  · rw [hlayers.valueAt_eq_none h.absent hrouter] at hv
    cases hv
  · exact (not_below_of_not_below_sessionKeys hpath).1 hrouting

/-- What a call leaves, by which layers carry the provider. -/
theorem protectedLayers_cases (layers : CodexLayers) :
    (Carries (documentOf (layers .system)) ∧ Carries (documentOf (layers .home))
        ∧ ∀ layer, Repaired (documentOf (layers layer)) (documentOf (protectedLayers layers layer)))
      ∨ (Carries (documentOf (layers .system)) ∧ ¬ Carries (documentOf (layers .home))
        ∧ Repaired (documentOf (layers .system)) (documentOf (protectedLayers layers .system))
        ∧ ∃ layers₂ : CodexLayers, layers₂ .home = layers .home
          ∧ (StandsAsTable (documentOf (layers₂ .system)) ↔ StandsAsTable (documentOf (layers .system)))
          ∧ (protectedLayers layers .home = layers .home ∧ ¬ Restorable layers₂
            ∨ Restorable layers₂ ∧ RestoredFrom (documentOf (layers₂ .system)) (documentOf (layers .home))
              (documentOf (protectedLayers layers .home))))
      ∨ (¬ Carries (documentOf (layers .system)) ∧ Carries (documentOf (layers .home))
        ∧ Repaired (documentOf (layers .home)) (documentOf (protectedLayers layers .home))
        ∧ (CreatedFrom (documentOf (layers .home)) (documentOf (protectedLayers layers .system))
          ∨ ¬ StandsAsTable (documentOf (layers .home))
            ∧ ¬ Carries (documentOf (protectedLayers layers .system))))
      ∨ ¬ Carries (documentOf (layers .system)) ∧ ¬ Carries (documentOf (layers .home))
        ∧ protectedLayers layers = layers := by
  by_cases hnone : ¬ Carries (documentOf (layers .system)) ∧ ¬ Carries (documentOf (layers .home))
  · have hsettled : Settled layers := by
      refine .inr ?_
      rintro (_ | _)
      · exact hnone.2
      · exact hnone.1
    refine .inr (.inr (.inr ⟨hnone.1, hnone.2, ?_⟩))
    rw [protectedLayers, protect_of_settled hsettled]
  · obtain ⟨layers₁, writes₁, h₁, hhome₁, hrepaired⟩ := repairSystem_spec layers
    obtain ⟨layers₂, writes₂, h₂, hhome₂, hcreated⟩ := createSystem_spec layers₁
    obtain ⟨layers₃, writes₃, h₃, hsystem₃, hcarried, habsent⟩ := repairHome_spec layers₂
    have hprotected : protectedLayers layers = layers₃ := by rw [protectedLayers, protect_of_stages h₁ h₂ h₃]
    rw [hprotected]
    have hhome : layers₂ .home = layers .home := hhome₂.trans hhome₁
    rw [hhome] at hcarried habsent
    rw [hhome₁] at hcreated
    by_cases hsystem : Carries (documentOf (layers .system))
    · obtain ⟨hsystem₂, -⟩ | ⟨hgone, -⟩ := hcreated
      · have hrepaired₃ : Repaired (documentOf (layers .system)) (documentOf (layers₃ .system)) := by
          rw [hsystem₃, hsystem₂]
          exact hrepaired
        by_cases hcarries : Carries (documentOf (layers .home))
        · refine .inl ⟨hsystem, hcarries, ?_⟩
          rintro (_ | _)
          · exact hcarried hcarries
          · exact hrepaired₃
        · exact .inr (.inl ⟨hsystem, hcarries, hrepaired₃, layers₂, hhome, hsystem₂ ▸ hrepaired.stands,
            habsent hcarries⟩)
      · exact absurd (hrepaired.carries.mpr hsystem) hgone
    · have hcarries : Carries (documentOf (layers .home)) := not_not.mp fun h => hnone ⟨hsystem, h⟩
      refine .inr (.inr (.inl ⟨hsystem, hcarries, hcarried hcarries, ?_⟩))
      rw [hsystem₃]
      rcases hcreated with ⟨hsystem₂, hstands⟩ | ⟨-, hcreated⟩
      · have habsent₁ : ¬ Carries (documentOf (layers₁ .system)) := fun h => hsystem (hrepaired.carries.mp h)
        rw [hsystem₂]
        exact .inr ⟨fun h => habsent₁ (hstands h), habsent₁⟩
      · exact .inl hcreated

/-- A call protects a session exactly if it neither creates the system layer over a file of others nor has to
copy an inline table. -/
theorem protects_iff (hlayers : SessionLayers layers) : Protects layers ↔ Protectable layers := by
  have hquiet : Settled (protectedLayers layers) →
      (protectDesktopSessionAt allWritable true (protectedLayers layers)).2 = [] := by
    intro hsettled
    rw [protect_of_settled hsettled]
  rcases protectedLayers_cases layers with ⟨hsystem, hhome, hrepaired⟩ | ⟨hsystem, hhome, hrepaired, layers₂, hhome₂, hstands, hrest⟩
    | ⟨hsystem, hhome, hrepaired, hrest⟩ | ⟨hsystem, hhome, hsame⟩
  · have hsettled : Settled (protectedLayers layers) := by
      refine .inl ?_
      rintro (_ | _)
      · exact (hrepaired .home).legal hhome
      · exact (hrepaired .system).legal hsystem
    refine iff_of_true ⟨?_, hsettled, hquiet hsettled⟩ ⟨fun _ h => absurd hsystem h, fun _ h => absurd hhome h⟩
    intro layer path hpath v hv
    exact (hrepaired layer).keeps hpath hv
  · rcases hrest with ⟨hsame, hrestorable⟩ | ⟨hrestorable, hfrom⟩
    · refine iff_of_false ?_ ?_
      · rintro ⟨-, hsettled | hsettled, -⟩
        · exact hhome (hsame ▸ (hsettled .home).carries)
        · exact hsettled .system (hrepaired.carries.mpr hsystem)
      · intro hprotectable
        obtain ⟨hsource, htables⟩ := hprotectable.home hsystem hhome
        obtain ⟨text, htext⟩ := hlayers.home
        obtain ⟨doc, hdoc⟩ := hlayers.parsed .home text htext
        exact hrestorable ⟨⟨text, doc, hhome₂.trans htext, hdoc⟩, hhome₂ ▸ hhome, hstands.mpr hsource,
          hhome₂ ▸ htables⟩
    · have hsettled : Settled (protectedLayers layers) := by
        refine .inl ?_
        rintro (_ | _)
        · exact hfrom.legal
        · exact hrepaired.legal hsystem
      refine iff_of_true ⟨?_, hsettled, hquiet hsettled⟩
        ⟨fun h => absurd h hhome, fun _ _ => ⟨hstands.mp hrestorable.source, hhome₂ ▸ hrestorable.tables⟩⟩
      rintro (_ | _) path hpath v hv
      · exact hfrom.keeps hlayers hpath hv
      · exact hrepaired.keeps hpath hv
  · rcases hrest with hfrom | ⟨hinline, habsent⟩
    · have hsettled : Settled (protectedLayers layers) := by
        refine .inl ?_
        rintro (_ | _)
        · exact hrepaired.legal hhome
        · exact hfrom.legal
      constructor
      · intro hprotects
        refine ⟨fun _ _ => ⟨hfrom.source, ?_⟩, fun h => absurd h hsystem⟩
        intro path hpath
        by_cases hrouter : routerProviderPath <+: path
        · exact hlayers.valueAt_eq_none hsystem hrouter
        · -- a value of others would have to be in the created layer
          cases hv : (documentOf (layers .system)).valueAt path with
          | none => rfl
          | some v =>
            have hsession : ¬ Below sessionKeys path := by
              rintro ⟨top, htop, hpfx⟩
              rcases List.mem_append.mp htop with htop | htop
              · exact hpath ⟨top, htop, hpfx⟩
              · exact hrouter (below_routerProviderPath_of_below_identityKeys ⟨top, htop, hpfx⟩)
            have hkept := hprotects.kept .system path hsession v hv
            rw [hfrom.only path (by rw [below_cons_iff, not_or]; exact ⟨hrouter, hpath⟩)] at hkept
            cases hkept
      · intro hprotectable
        refine ⟨?_, hsettled, hquiet hsettled⟩
        rintro (_ | _) path hpath v hv
        · exact hrepaired.keeps hpath hv
        · rw [(hprotectable.system hhome hsystem).2 path (not_below_of_not_below_sessionKeys hpath).1] at hv
          cases hv
    · refine iff_of_false ?_ fun hprotectable => hinline (hprotectable.system hhome hsystem).1
      rintro ⟨-, hsettled | hsettled, -⟩
      · exact habsent (hsettled .system).carries
      · exact hsettled .home (hrepaired.carries.mpr hhome)
  · have hsettled : Settled (protectedLayers layers) := by
      rw [hsame]
      refine .inr ?_
      rintro (_ | _)
      · exact hhome
      · exact hsystem
    refine iff_of_true ⟨?_, hsettled, hquiet hsettled⟩ ⟨fun h => absurd h hhome, fun h => absurd h hsystem⟩
    intro layer path _ v hv
    rw [hsame]
    exact hv

end

namespace SessionRun

/-- The provider of Router. -/
def provider : TomlTable := [("name", .str "Codex-Router"), ("requires_openai_auth", .bool false)]

/-- A home with the provider, as `Desktop` leaves it. -/
def home : ConfigText := ⟨false, some [("model", .str "gpt-5"),
  ("model_providers", .table false [("codex_router", .table false provider)])]⟩

/-- A system layer of an administrator. -/
def managed : ConfigText := ⟨false, some [("approval_policy", .str "never")]⟩

/-- Home beside a system layer. -/
def layersOf (system : Option ConfigText) : CodexLayers
  | .home => some home
  | .system => system

theorem sessionLayers_home {system : Option ConfigText}
    (hparsed : ∀ text, system = some text → ∃ doc, text.document = some doc)
    (hproviders : (documentOf system).get "model_providers" = none) : SessionLayers (layersOf system) where
  home := ⟨home, rfl⟩
  parsed layer text htext := by
    cases layer with
    | home => exact ⟨_, by rw [← Option.some.inj htext]; rfl⟩
    | system => exact hparsed text htext
  providers layer := by
    cases layer with
    | home =>
      show (documentOf (some home)).TableWhenPresent "model_providers"
      decide
    | system =>
      intro item hitem
      rw [layersOf, hproviders] at hitem
      cases hitem
  provider layer item hitem := by
    cases layer with
    | home =>
      rw [← Option.some.inj hitem]
      rfl
    | system =>
      rw [layersOf, routerProviderPath, TomlTable.itemAt_cons, hproviders] at hitem
      cases hitem

/-- A missing system layer is created. -/
theorem protects_missing : Protects (layersOf none) :=
  (protects_iff (sessionLayers_home (fun _ h => by cases h) rfl)).mpr
    ⟨fun _ _ => ⟨⟨provider, rfl⟩, fun _ _ => TomlTable.valueAt_empty _⟩, fun h => by
      obtain ⟨provider, hprovider⟩ := h
      cases hprovider⟩

/-- What the administrator wrote is gone. -/
theorem not_protects_managed : SessionLayers (layersOf (some managed))
    ∧ (documentOf (layersOf (some managed) .system)).valueAt ["approval_policy"] = some (.string "never")
    ∧ (documentOf (protectedLayers (layersOf (some managed)) .system)).valueAt ["approval_policy"] = none
    ∧ ¬ Protects (layersOf (some managed)) := by
  have hlost : (documentOf (protectedLayers (layersOf (some managed)) .system)).valueAt ["approval_policy"] = none := by
    decide +kernel
  have hlayers : SessionLayers (layersOf (some managed)) := by
    refine sessionLayers_home ?_ rfl
    rintro text ⟨⟩
    exact ⟨_, rfl⟩
  refine ⟨hlayers, by decide, hlost, ?_⟩
  intro hprotects
  have hkept := hprotects.kept .system ["approval_policy"] (by decide) (.string "never") (by decide)
  rw [hlost] at hkept
  cases hkept

end SessionRun

end CodexRouter
