/-
# The binding of the system layer

Router binds Codex in the system layer and takes itself out again.  What is left is the document from
before without the keys that the binding owns: `comesOff_iff` says that a foreign document comes back
exactly if it had none of them.
-/
import CodexRouter.CodexToml

namespace CodexRouter

open TomlTable (Below)

/-- A document with no sign of Router in it. -/
structure ForeignDocument (doc : TomlTable) : Prop where
  noProvider : doc.get "model_provider" = none
  noRouter : doc.itemAt routerProviderPath = none

/-- The key paths of the binding that a foreign document can have. -/
def bindingKeys : List (List String) :=
  [["model_catalog_json"], ["features", "fast_mode"], ["desktop", "enabled-reasoning-efforts"]]

/-- The key paths that the binding owns. -/
def ownedKeys : List (List String) := ["model_provider"] :: routerProviderPath :: bindingKeys

/-- The document has nothing that the binding writes over or takes along. -/
structure NothingBound (doc : TomlTable) : Prop where
  keys : ∀ path, Below bindingKeys path → doc.valueAt path = none
  features : doc.TableWhenPresent "features"
  desktop : doc.TableWhenPresent "desktop"

section

variable (parseUrl : String → Option LocalUrl)

/-- A call of `write_codex_system_binding_to`; one that fails leaves the file as it is. -/
def bindFile (file : Option ConfigText) (args : BindingArgs) : Option ConfigText :=
  match writeCodexSystemBindingTo parseUrl file args with
  | .ok text => some text
  | .error _ => file

/-- A call of `remove_codex_system_binding_from`. -/
def unbindFile (file : Option ConfigText) : Option ConfigText :=
  match removeCodexSystemBindingFrom file with
  | .ok (_, file') => file'
  | .error _ => file

/-- A document is written to any number of times. -/
def bindRun (doc : TomlTable) (calls : List BindingArgs) : Option ConfigText :=
  calls.foldl (bindFile parseUrl) (some ⟨false, some doc⟩)

/-- The document comes back once the binding is removed. -/
def ComesOff (doc : TomlTable) (calls : List BindingArgs) : Prop :=
  (documentOf (unbindFile (bindRun parseUrl doc calls))).SameValues doc

/-- `write_codex_system_binding_to` takes a document. -/
def Accepts (doc : TomlTable) (args : BindingArgs) : Prop :=
  ∃ text, writeCodexSystemBindingTo parseUrl (some ⟨false, some doc⟩) args = .ok text

end

/-! ## What is written -/

section

variable {parseUrl : String → Option LocalUrl} {doc doc' provider : TomlTable} {catalogPath : String}
  {path : List String} {file : Option ConfigText} {text text' : ConfigText} {args : BindingArgs} {calls : List BindingArgs}

/-- What a bound document shares with the one before. -/
structure BoundOver (doc doc' : TomlTable) : Prop where
  provider : doc'.valueAt ["model_provider"] = some (.string "codex_router")
  features : doc'.TableWhenPresent "features"
  desktop : doc'.TableWhenPresent "desktop"
  kept : ∀ path, ¬ Below ownedKeys path → path ≠ ["features"] → path ≠ ["desktop"] →
    doc'.valueAt path = doc.valueAt path

theorem below_ownedKeys_iff : Below ownedKeys path
    ↔ ["model_provider"] <+: path ∨ routerProviderPath <+: path ∨ Below bindingKeys path := by
  simp [Below, ownedKeys]

theorem valueAt_withReasoningEfforts (desktop : TomlTable) (h : ¬ ["enabled-reasoning-efforts"] <+: path) :
    (withReasoningEfforts desktop).valueAt path = desktop.valueAt path := by
  rw [withReasoningEfforts]
  split
  · rfl
  · cases path with
    | nil => rfl
    | cons key path =>
      rw [TomlTable.valueAt_insert, if_neg]
      rintro rfl
      simp at h

/-- Binding a document changes what it owns. -/
theorem boundOver_of_bindDocument (h : bindDocument catalogPath provider doc = some doc') : BoundOver doc doc' := by
  have hvalue := fun path => TomlTable.valueAt_setAt h path
  refine ⟨?_, ?_, ?_, ?_⟩
  · rw [hvalue, if_neg (by simp [routerProviderPath])]
    simp [TomlItem.str, TomlTable.valueAt_value]
  · rw [TomlTable.tableWhenPresent_iff, hvalue, if_neg (by simp [routerProviderPath])]
    simp [TomlTable.valueAt_table]
  · rw [TomlTable.tableWhenPresent_iff, hvalue, if_neg (by simp [routerProviderPath])]
    simp [TomlTable.valueAt_table]
  · intro path howned hfeatures hdesktop
    rw [below_ownedKeys_iff] at howned
    simp only [not_or] at howned
    obtain ⟨hprovider, hrouter, hkeys⟩ := howned
    rw [hvalue, if_neg hrouter]
    -- what is under `features` and `desktop` are tables with one member inserted
    match path with
    | [] => rfl
    | [key] =>
      have hne : key ≠ "model_provider" ∧ key ≠ "model_catalog_json" ∧ key ≠ "features" ∧ key ≠ "desktop" := by
        refine ⟨?_, ?_, ?_, ?_⟩ <;> rintro rfl <;> simp [Below, bindingKeys] at *
      simp [hne]
    | key :: member :: path =>
      by_cases hkey : key = "features"
      · subst hkey
        have hmember : member ≠ "fast_mode" := by
          rintro rfl
          simp [Below, bindingKeys] at hkeys
        simp [TomlTable.valueAt_table, hmember, TomlTable.valueAt_cons_cons doc, TomlTable.tableAt]
      · by_cases hkey' : key = "desktop"
        · subst hkey'
          have hmember : member ≠ "enabled-reasoning-efforts" := by
            rintro rfl
            simp [Below, bindingKeys] at hkeys
          rw [TomlTable.valueAt_insert, if_pos rfl, TomlTable.valueAt_table,
            valueAt_withReasoningEfforts _ (by simp [Ne.symm hmember]), TomlTable.valueAt_cons_cons]
          simp [TomlTable.tableAt]
        · have hne : key ≠ "model_provider" ∧ key ≠ "model_catalog_json" := by
            refine ⟨?_, ?_⟩ <;> rintro rfl <;> simp [Below, bindingKeys] at *
          simp [hne, hkey, hkey']

/-- Binding a bound document again changes no more. -/
theorem BoundOver.trans {doc'' : TomlTable} (h : BoundOver doc doc') (h' : BoundOver doc' doc'') :
    BoundOver doc doc'' where
  provider := h'.provider
  features := h'.features
  desktop := h'.desktop
  kept path howned hfeatures hdesktop := by
    rw [h'.kept path howned hfeatures hdesktop, h.kept path howned hfeatures hdesktop]

/-- What is written is a bound document with the marker. -/
theorem boundOver_of_write (h : writeCodexSystemBindingTo parseUrl (some text) args = .ok text') :
    ∃ doc doc', text.document = some doc ∧ text' = ⟨true, some doc'⟩ ∧ BoundOver doc doc' := by
  rw [writeCodexSystemBindingTo] at h
  split at h
  · cases h
  · split at h
    · cases h
    · cases hdoc : text.document with
      | none => simp [hdoc] at h
      | some doc =>
        simp only [Option.getD_some, hdoc] at h
        split at h
        · cases h
        · split at h
          · cases h
          · rename_i doc' hbound
            exact ⟨doc, doc', rfl, (Except.ok.inj h).symm, boundOver_of_bindDocument hbound⟩

/-- The file is the one from the start or a bound one. -/
def BoundFile (doc : TomlTable) (file : Option ConfigText) : Prop :=
  ∃ doc', file = some ⟨true, some doc'⟩ ∧ BoundOver doc doc'

theorem boundFile_bindFile_of_boundFile (h : BoundFile doc file) : BoundFile doc (bindFile parseUrl file args) := by
  obtain ⟨doc', rfl, hover⟩ := h
  rw [bindFile]
  split
  · rename_i text hwrite
    obtain ⟨_, doc'', hdoc, rfl, hover'⟩ := boundOver_of_write hwrite
    rw [Option.some.injEq] at hdoc
    subst hdoc
    exact ⟨doc'', rfl, hover.trans hover'⟩
  · exact ⟨doc', rfl, hover⟩

theorem boundFile_foldl (h : BoundFile doc file) (calls : List BindingArgs) :
    BoundFile doc (calls.foldl (bindFile parseUrl) file) := by
  induction calls generalizing file with
  | nil => exact h
  | cons args rest ih => exact ih (boundFile_bindFile_of_boundFile h)

/-- Once a call is accepted, the file stays bound. -/
theorem boundFile_bindRun (haccepts : ∃ args ∈ calls, Accepts parseUrl doc args) :
    BoundFile doc (bindRun parseUrl doc calls) := by
  rw [bindRun]
  induction calls with
  | nil => simp at haccepts
  | cons args rest ih =>
    rw [List.foldl_cons]
    by_cases hfirst : Accepts parseUrl doc args
    · obtain ⟨text, hwrite⟩ := hfirst
      apply boundFile_foldl
      rw [bindFile, hwrite]
      obtain ⟨_, doc', hdoc, rfl, hover⟩ := boundOver_of_write hwrite
      rw [Option.some.injEq] at hdoc
      exact ⟨doc', rfl, hdoc ▸ hover⟩
    · have hsame : bindFile parseUrl (some ⟨false, some doc⟩) args = some ⟨false, some doc⟩ := by
        rw [bindFile]
        split
        · rename_i text hwrite
          exact absurd ⟨text, hwrite⟩ hfirst
        · rfl
      rw [hsame]
      apply ih
      obtain ⟨other, hmem, hother⟩ := haccepts
      rcases List.mem_cons.mp hmem with rfl | hmem
      · exact absurd hother hfirst
      · exact ⟨other, hmem, hother⟩

/-! ## What is taken out again -/

theorem valueAt_remove_prefix (doc : TomlTable) (key : String) (path : List String) :
    (doc.remove key).valueAt path = if [key] <+: path then none else doc.valueAt path :=
  TomlTable.valueAt_removeAt (List.cons_ne_nil key []) doc path

/-- A bound document without what the binding owns. -/
def unboundDocument (doc : TomlTable) : TomlTable :=
  ((((doc.remove "model_provider").removeAt routerProviderPath).remove "model_catalog_json").removeAt
    ["features", "fast_mode"]).removeAt ["desktop", "enabled-reasoning-efforts"]

theorem valueAt_unboundDocument (doc : TomlTable) (path : List String) :
    (unboundDocument doc).valueAt path = if Below ownedKeys path then none else doc.valueAt path := by
  rw [unboundDocument, TomlTable.valueAt_removeAt (by simp), TomlTable.valueAt_removeAt (by simp),
    valueAt_remove_prefix, TomlTable.valueAt_removeAt (by simp [routerProviderPath]), valueAt_remove_prefix]
  by_cases howned : Below ownedKeys path
  · rw [if_pos howned]
    simp only [Below, ownedKeys, bindingKeys, List.mem_cons, List.not_mem_nil, or_false, exists_eq_or_imp,
      exists_eq_left] at howned
    rcases howned with h | h | h | h | h <;> simp [h]
  · rw [if_neg howned]
    simp only [Below, ownedKeys, bindingKeys, List.mem_cons, List.not_mem_nil, or_false, exists_eq_or_imp,
      exists_eq_left, not_or] at howned
    obtain ⟨h₁, h₂, h₃, h₄, h₅⟩ := howned
    rw [if_neg h₅, if_neg h₄, if_neg h₃, if_neg h₂, if_neg h₁]

/-- Removing the binding takes out what it owns. -/
theorem documentOf_unbindFile (hprovider : doc.valueAt ["model_provider"] = some (.string "codex_router")) :
    documentOf (unbindFile (some ⟨true, some doc⟩)) = unboundDocument doc := by
  have hrouter : (doc.get "model_provider").bind TomlItem.asStr = some "codex_router" :=
    TomlTable.asStr_get_eq_some.mpr hprovider
  rw [unbindFile, removeCodexSystemBindingFrom]
  simp only [hrouter, Bool.not_true, Bool.false_and, Bool.false_eq_true, if_false, if_true]
  show documentOf (if (unboundDocument doc).isEmpty = true then none else some ⟨false, some (unboundDocument doc)⟩) = _
  split
  · rename_i hempty
    rw [List.isEmpty_iff.mp hempty]
    rfl
  · rfl

/-! ## The document that comes back -/

/-- What is lost: what the binding owns, and a value where it needs a table. -/
theorem valueAt_bound_unbound {doc doc' : TomlTable} (h : BoundOver doc doc') (path : List String) :
    (unboundDocument doc').valueAt path
      = if Below ownedKeys path ∨ path = ["features"] ∨ path = ["desktop"] then none else doc.valueAt path := by
  rw [valueAt_unboundDocument]
  by_cases howned : Below ownedKeys path
  · rw [if_pos howned, if_pos (.inl howned)]
  · rw [if_neg howned]
    by_cases htable : path = ["features"] ∨ path = ["desktop"]
    · rw [if_pos (.inr htable)]
      rcases htable with rfl | rfl
      · exact TomlTable.tableWhenPresent_iff.mp h.features
      · exact TomlTable.tableWhenPresent_iff.mp h.desktop
    · rw [if_neg (by tauto)]
      rw [not_or] at htable
      exact h.kept path howned htable.1 htable.2

/-- A foreign document has nothing at the provider of Router. -/
theorem ForeignDocument.valueAt_eq_none (h : ForeignDocument doc)
    (hpath : ["model_provider"] <+: path ∨ routerProviderPath <+: path) : doc.valueAt path = none := by
  rcases hpath with ⟨rest, rfl⟩ | ⟨rest, rfl⟩
  · exact TomlTable.valueAt_cons_of_none h.noProvider
  · exact TomlTable.valueAt_append_of_none h.noRouter rest

/-- A foreign document that is bound and unbound comes back exactly if it had no key of the binding, and no
value for `features` or `desktop`. -/
theorem comesOff_iff (hforeign : ForeignDocument doc) (haccepts : ∃ args ∈ calls, Accepts parseUrl doc args) :
    ComesOff parseUrl doc calls ↔ NothingBound doc := by
  obtain ⟨doc', hrun, hover⟩ := boundFile_bindRun haccepts
  rw [ComesOff, hrun, documentOf_unbindFile hover.provider]
  constructor
  · intro hsame
    have hnone : ∀ path, Below ownedKeys path ∨ path = ["features"] ∨ path = ["desktop"] → doc.valueAt path = none := by
      intro path hpath
      rw [← hsame path, valueAt_bound_unbound hover, if_pos hpath]
    refine ⟨?_, ?_, ?_⟩
    · intro path hpath
      exact hnone path (.inl (below_ownedKeys_iff.mpr (.inr (.inr hpath))))
    · exact TomlTable.tableWhenPresent_iff.mpr (hnone _ (.inr (.inl rfl)))
    · exact TomlTable.tableWhenPresent_iff.mpr (hnone _ (.inr (.inr rfl)))
  · intro hnothing path
    rw [valueAt_bound_unbound hover]
    split
    · rename_i hpath
      rw [below_ownedKeys_iff] at hpath
      rcases hpath with (hpath | hpath | hpath) | rfl | rfl
      · exact (hforeign.valueAt_eq_none (.inl hpath)).symm
      · exact (hforeign.valueAt_eq_none (.inr hpath)).symm
      · exact (hnothing.keys path hpath).symm
      · exact (TomlTable.tableWhenPresent_iff.mp hnothing.features).symm
      · exact (TomlTable.tableWhenPresent_iff.mp hnothing.desktop).symm
    · rfl

end

namespace BindingRun

/-- `Url::parse` on the address of Router. -/
def parseUrl (url : String) : Option LocalUrl :=
  if url = "http://127.0.0.1:18082" then some ⟨"http", some "127.0.0.1", "http://127.0.0.1:18082/"⟩ else none

/-- A call with a given key. -/
def call (localApiKey : String) : BindingArgs where
  catalogPath := "C:\\catalog.json"
  localApiKey := localApiKey
  baseUrl := "http://127.0.0.1:18082"
  requireOpenaiAuth := true
  displayOpenaiProvider := false
  maxRetries := 3

/-- The defaults of an enterprise. -/
def enterprise : TomlTable :=
  [("approval_policy", .str "never"), ("features", .table false [("my_feature", .bool true)])]

/-- A document that turns the fast mode off. -/
def slow : TomlTable := [("features", .table false [("fast_mode", .bool false)])]

theorem accepts_of_isOk {doc : TomlTable} {args : BindingArgs}
    (h : (writeCodexSystemBindingTo parseUrl (some ⟨false, some doc⟩) args).isOk = true) : Accepts parseUrl doc args := by
  rw [Accepts]
  cases hwrite : writeCodexSystemBindingTo parseUrl (some ⟨false, some doc⟩) args with
  | ok text => exact ⟨text, rfl⟩
  | error e =>
    rw [hwrite] at h
    cases h

theorem comesOff_enterprise : ComesOff parseUrl enterprise [call "key", call "other key"] :=
  (comesOff_iff ⟨rfl, rfl⟩ ⟨call "key", by simp, accepts_of_isOk (by decide +kernel)⟩).mpr
    ⟨by
      rintro path ⟨top, htop, rest, rfl⟩
      simp only [bindingKeys, List.mem_cons, List.not_mem_nil, or_false] at htop
      rcases htop with rfl | rfl | rfl <;> cases rest <;> rfl,
      by decide, by decide⟩

/-- A setting of the document before is lost. -/
theorem not_comesOff_slow : ForeignDocument slow ∧ Accepts parseUrl slow (call "key")
    ∧ slow.valueAt ["features", "fast_mode"] = some (.boolean false)
    ∧ (documentOf (unbindFile (bindRun parseUrl slow [call "key"]))).valueAt ["features", "fast_mode"] = none
    ∧ ¬ ComesOff parseUrl slow [call "key"] := by
  have hlost : (documentOf (unbindFile (bindRun parseUrl slow [call "key"]))).valueAt ["features", "fast_mode"] = none := by
    decide +kernel
  refine ⟨⟨rfl, rfl⟩, accepts_of_isOk (by decide +kernel), by decide, hlost, ?_⟩
  intro hcomes
  have hsame := hcomes ["features", "fast_mode"]
  rw [hlost] at hsame
  cases hsame

end BindingRun

end CodexRouter
