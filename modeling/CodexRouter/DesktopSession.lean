/-
# The desktop session

Codex reads its configuration in two layers, the one of the user (home) and the one of the system.
`protect_desktop_session_at` repairs them from each other: an illegal identity of the provider of
Router is rewritten in place, a system layer without the provider is created from home, and a home
that lost the provider gets it back from the system layer.

Every write can fail, as `writable` says.  Log events are left out.
-/
import CodexRouter.CodexToml

namespace CodexRouter

open TomlTable (Below)

/-! ## The identity of the provider -/

/-- `ProviderIdentity`. -/
structure ProviderIdentity where
  present : Bool
  name : Option String
  requiresOpenaiAuth : Option Bool
  deriving DecidableEq, Repr

/-- `ProviderIdentity::absent`. -/
def ProviderIdentity.absent : ProviderIdentity := ⟨false, none, none⟩

/-- `is_legal`. -/
def ProviderIdentity.isLegal (identity : ProviderIdentity) : Bool :=
  identity.present && identity.name = some legalProviderName
    && identity.requiresOpenaiAuth = some legalRequiresOpenaiAuth

/-- The provider of Router, as a table or an inline one. -/
def routerProvider (document : TomlTable) : Option TomlTable :=
  (document.itemAt routerProviderPath).bind TomlItem.asTableLike

/-- What a provider says it is. -/
def identityOf (provider : TomlTable) : ProviderIdentity where
  present := true
  name := (provider.get "name").bind TomlItem.asStr
  requiresOpenaiAuth := (provider.get "requires_openai_auth").bind TomlItem.asBool

/-- `read_provider_identity`. -/
def readProviderIdentity (text : ConfigText) : ProviderIdentity :=
  match text.document.bind routerProvider with
  | none => .absent
  | some provider => identityOf provider

/-- `read_provider_identity_file`. -/
def readProviderIdentityFile (file : Option ConfigText) : ProviderIdentity :=
  match file with
  | none => .absent
  | some text => readProviderIdentity text

/-- A provider with the legal identity. -/
def legalProvider (provider : TomlTable) : TomlTable :=
  (provider.insert "name" (.str legalProviderName)).insert "requires_openai_auth" (.bool legalRequiresOpenaiAuth)

/-- The document with the legal identity in its provider; `none` when it is there or there is no
provider. -/
def patchedDocument (document : TomlTable) : Option TomlTable :=
  match document.itemAt routerProviderPath with
  | some (.table inlined provider) =>
    if (identityOf provider).isLegal then none
    else document.setAt routerProviderPath (.table inlined (legalProvider provider))
  | _ => none

/-- `patched_provider_identity`. -/
def patchedProviderIdentity (text : ConfigText) : Option ConfigText :=
  (text.document.bind patchedDocument).map fun document => ⟨text.marked, some document⟩

/-! ## From layer to layer -/

/-- `providers.as_table_mut()?` with the provider put in: an inline table is none. -/
def insertIntoProviders (provider document : TomlTable) : Option TomlTable :=
  if (document.get "model_providers").all fun item => item.asTable.isSome then
    insertRouterProvider provider document
  else none

/-- The catalog of another document, if it has one. -/
def copyCatalog (source document : TomlTable) : TomlTable := source.copyItem document "model_catalog_json"

/-- `restore_home_provider_from_system`. -/
def restoreHomeProviderFromSystem (home system : ConfigText) : Option ConfigText :=
  if (readProviderIdentity home).present || !(readProviderIdentity system).present then none
  else
    home.document.bind fun homeDoc =>
      system.document.bind fun systemDoc =>
        let homeDoc := homeDoc.insert "model_provider" ((systemDoc.get "model_provider").getD (.str "codex_router"))
        let homeDoc := copyCatalog systemDoc homeDoc
        ((systemDoc.itemAt routerProviderPath).bind TomlItem.asTable).bind fun systemProvider =>
          (insertIntoProviders systemProvider homeDoc).map fun homeDoc =>
            (patchedProviderIdentity ⟨home.marked, some homeDoc⟩).getD ⟨home.marked, some homeDoc⟩

/-- `restore_system_from_home`. -/
def restoreSystemFromHome (home : ConfigText) : Option ConfigText :=
  if !(readProviderIdentity home).present then none
  else
    home.document.bind fun homeDoc =>
      ((homeDoc.itemAt routerProviderPath).bind TomlItem.asTable).bind fun provider =>
        let document := copyCatalog homeDoc (TomlTable.insert [] "model_provider" (.str "codex_router"))
        (insertIntoProviders provider document).map fun document =>
          (patchedProviderIdentity ⟨true, some document⟩).getD ⟨true, some document⟩

/-! ## Protecting a session -/

/-- The two layers. -/
inductive CodexLayer where
  | home
  | system
  deriving DecidableEq, Repr

/-- The files of the layers, where they are there and can be read. -/
abbrev CodexLayers := CodexLayer → Option ConfigText

section

variable (writable : CodexLayer → Bool)

/-- Write a layer: the layers afterwards, and what was written. -/
def writeLayer (layers : CodexLayers) (layer : CodexLayer) (text : ConfigText) : CodexLayers × List CodexLayer :=
  if writable layer then (Function.update layers layer (some text), [layer]) else (layers, [])

/-- `repair_provider_identity_file`. -/
def repairProviderIdentityFile (layers : CodexLayers) (layer : CodexLayer) : CodexLayers × List CodexLayer :=
  match (layers layer).bind patchedProviderIdentity with
  | none => (layers, [])
  | some text => writeLayer writable layers layer text

/-- An illegal identity in the system layer is repaired. -/
def repairSystem (layers : CodexLayers) : CodexLayers × List CodexLayer :=
  let identity := readProviderIdentityFile (layers .system)
  if identity.present && !identity.isLegal then repairProviderIdentityFile writable layers .system
  else (layers, [])

/-- A system layer without the provider is created from home. -/
def createSystem (layers : CodexLayers) : CodexLayers × List CodexLayer :=
  if !(readProviderIdentityFile (layers .system)).present then
    match (layers .home).bind restoreSystemFromHome with
    | none => (layers, [])
    | some text => writeLayer writable layers .system text
  else (layers, [])

/-- A home without the provider gets it from the system layer, and an illegal identity in it is
repaired. -/
def repairHome (repairUser : Bool) (layers : CodexLayers) : CodexLayers × List CodexLayer :=
  let identity := readProviderIdentityFile (layers .home)
  if !identity.present then
    if repairUser then
      match (layers .home).bind fun home => (layers .system).bind fun system =>
          restoreHomeProviderFromSystem home system with
      | none => (layers, [])
      | some text => writeLayer writable layers .home text
    else (layers, [])
  else if !identity.isLegal && repairUser then repairProviderIdentityFile writable layers .home
  else (layers, [])

/-- `protect_desktop_session_at`: the layers afterwards, and what was written. -/
def protectDesktopSessionAt (repairUser : Bool) (layers : CodexLayers) : CodexLayers × List CodexLayer :=
  let (layers, repaired) := repairSystem writable layers
  let (layers, created) := createSystem writable layers
  let (layers, restored) := repairHome writable repairUser layers
  (layers, repaired ++ created ++ restored)

end

/-! ## What a repair changes -/

/-- The key paths of the identity. -/
def identityKeys : List (List String) :=
  [["model_providers", "codex_router", "name"], ["model_providers", "codex_router", "requires_openai_auth"]]

/-- A document with the legal identity put into its provider. -/
structure PatchedFrom (doc doc' : TomlTable) : Prop where
  provider : ∃ inlined provider, doc.itemAt routerProviderPath = some (.table inlined provider)
    ∧ (identityOf provider).isLegal = false
    ∧ doc'.itemAt routerProviderPath = some (.table inlined (legalProvider provider))
  kept : ∀ path, ¬ Below identityKeys path → doc'.valueAt path = doc.valueAt path
  others : ∀ key, key ≠ "model_providers" → doc'.get key = doc.get key

section

variable {doc doc' provider : TomlTable} {path : List String} {file : Option ConfigText} {text text' : ConfigText}

theorem isLegal_legalProvider (provider : TomlTable) : (identityOf (legalProvider provider)).isLegal = true := by
  simp [identityOf, legalProvider, ProviderIdentity.isLegal, TomlItem.asStr, TomlItem.asBool, TomlItem.str,
    TomlItem.bool]

theorem routerProvider_of_itemAt {inlined : Bool} (h : doc.itemAt routerProviderPath = some (.table inlined provider)) :
    routerProvider doc = some provider := by
  rw [routerProvider, h]
  rfl

theorem exists_itemAt_of_routerProvider (h : routerProvider doc = some provider) :
    ∃ inlined, doc.itemAt routerProviderPath = some (.table inlined provider) := by
  obtain ⟨item, hitem, hlike⟩ := Option.bind_eq_some_iff.mp h
  cases item with
  | value v => cases hlike
  | table inlined entries =>
    rw [TomlItem.asTableLike, Option.some.injEq] at hlike
    exact ⟨inlined, hlike ▸ hitem⟩

theorem readProviderIdentityFile_eq (file : Option ConfigText) : readProviderIdentityFile file
    = match routerProvider (documentOf file) with
      | none => .absent
      | some provider => identityOf provider := by
  cases file with
  | none => rfl
  | some text =>
    rw [readProviderIdentityFile, readProviderIdentity, documentOf, Option.bind_some]
    cases text.document <;> rfl

theorem patchedFrom_of_patchedDocument (h : patchedDocument doc = some doc') : PatchedFrom doc doc' := by
  rw [patchedDocument] at h
  split at h
  · rename_i inlined provider hitem
    split at h
    · cases h
    · rename_i hillegal
      refine ⟨⟨inlined, provider, hitem, Bool.eq_false_iff.mpr hillegal, TomlTable.itemAt_of_setAt h⟩, ?_,
        fun key hkey => TomlTable.get_of_setAt h hkey⟩
      intro path hpath
      rw [TomlTable.valueAt_setAt h]
      split
      · rename_i hbelow
        obtain ⟨rest, rfl⟩ := hbelow
        rw [List.drop_left, TomlTable.valueAt_append_of_itemAt hitem, TomlTable.valueAt_table, TomlTable.valueAt_table]
        cases rest with
        | nil => rfl
        | cons key rest =>
          have hkey : key ≠ "name" ∧ key ≠ "requires_openai_auth" := by
            refine ⟨?_, ?_⟩ <;> rintro rfl <;> simp [Below, identityKeys, routerProviderPath] at hpath
          simp [legalProvider, hkey]
      · rfl
  · cases h

/-- There is nothing to repair when no provider has an illegal identity. -/
theorem patchedDocument_eq_none_iff : patchedDocument doc = none
    ↔ ∀ provider, routerProvider doc = some provider → (identityOf provider).isLegal = true := by
  constructor
  · intro h provider hprovider
    obtain ⟨inlined, hitem⟩ := exists_itemAt_of_routerProvider hprovider
    rw [patchedDocument, hitem] at h
    dsimp only at h
    split at h
    · assumption
    · obtain ⟨result, hresult⟩ := TomlTable.exists_setAt_of_itemAt (by simp [routerProviderPath]) hitem
        (.table inlined (legalProvider provider))
      rw [hresult] at h
      cases h
  · intro h
    rw [patchedDocument]
    split
    · rename_i inlined provider hitem
      rw [if_pos (h provider (routerProvider_of_itemAt hitem))]
    · rfl

end

end CodexRouter
