/-
# Declared parameters survive the sanitizers

Both sanitizers treat a map of properties like a schema, so that a parameter with the
name of a keyword they remove is lost.  `keepsParameters_grok_iff` and
`keepsParameters_gemini_iff` say that, references apart, nothing else is lost.

The walk over a schema is compared step by step: `childSchema` of the result is the
result for `childSchema`.
-/
import CodexRouter.ToolSchemas

namespace CodexRouter

open Text

/-! ## Paths -/

theorem schemaAt_cons (v : Value) (step : SchemaStep) (path : List SchemaStep) :
    schemaAt v (step :: path) = (childSchema v step).bind (schemaAt · path) := rfl

theorem declared_nil {v : Value} {name : String} :
    Declared v [] name ↔ ∃ w, childSchema v (.property name) = some w := by
  constructor
  · rintro ⟨s, w, hs, hw⟩
    cases hs
    exact ⟨w, hw⟩
  · rintro ⟨w, hw⟩
    exact ⟨v, w, rfl, hw⟩

theorem declared_cons {v : Value} {step : SchemaStep} {path : List SchemaStep} {name : String} :
    Declared v (step :: path) name ↔ ∃ w, childSchema v step = some w ∧ Declared w path name := by
  constructor
  · rintro ⟨s, w, hs, hw⟩
    rw [schemaAt_cons, Option.bind_eq_some_iff] at hs
    obtain ⟨c, hc, hs⟩ := hs
    exact ⟨c, hc, s, w, hs, hw⟩
  · rintro ⟨c, hc, s, w, hs, hw⟩
    exact ⟨s, w, by rw [schemaAt_cons, hc, Option.bind_some, hs], hw⟩

/-- Only objects declare something. -/
def DeclaresNothing (v : Value) : Prop := ∀ path name, ¬ Declared v path name

theorem childSchema_eq_none {v : Value} (h : v.asObject = none) (step : SchemaStep) :
    childSchema v step = none := by
  cases v with
  | object => cases h
  | _ => cases step <;> rfl

theorem declaresNothing_of_asObject {v : Value} (h : v.asObject = none) : DeclaresNothing v := by
  intro path name hdeclared
  cases path with
  | nil =>
    obtain ⟨w, hw⟩ := declared_nil.mp hdeclared
    rw [childSchema_eq_none h] at hw
    cases hw
  | cons step path =>
    obtain ⟨w, hw, -⟩ := declared_cons.mp hdeclared
    rw [childSchema_eq_none h] at hw
    cases hw

theorem keepsParameters_iff {v v' : Value} :
    KeepsParameters v v' ↔ ∀ path name, Declared v path name → Declared v' path name :=
  ⟨KeepsParameters.declared, fun h => ⟨h, fun path name _ => h path name⟩⟩

theorem DeclaresNothing.keeps {v : Value} (h : DeclaresNothing v) (v' : Value) :
    KeepsParameters v v' :=
  keepsParameters_iff.mpr fun path name hdeclared => absurd hdeclared (h path name)

theorem keepsParameters_refl (v : Value) : KeepsParameters v v :=
  keepsParameters_iff.mpr fun _ _ h => h

/-- What a schema keeps, step by step. -/
theorem keepsParameters_iff_child {v v' : Value} :
    KeepsParameters v v' ↔ (∀ name w, childSchema v (.property name) = some w →
        ∃ w', childSchema v' (.property name) = some w')
      ∧ ∀ step w, childSchema v step = some w → DeclaresNothing w
        ∨ ∃ w', childSchema v' step = some w' ∧ KeepsParameters w w' := by
  rw [keepsParameters_iff]
  constructor
  · intro h
    refine ⟨fun name w hw => declared_nil.mp (h [] name (declared_nil.mpr ⟨w, hw⟩)), ?_⟩
    intro step w hw
    by_cases hno : DeclaresNothing w
    · exact .inl hno
    · right
      have hchild : ∀ path name, Declared w path name →
          ∃ w', childSchema v' step = some w' ∧ Declared w' path name := fun path name hdeclared =>
        declared_cons.mp (h (step :: path) name (declared_cons.mpr ⟨w, hw, hdeclared⟩))
      simp only [DeclaresNothing, not_forall, not_not] at hno
      obtain ⟨path, name, hdeclared⟩ := hno
      obtain ⟨w', hw', -⟩ := hchild path name hdeclared
      refine ⟨w', hw', keepsParameters_iff.mpr fun path name hdeclared => ?_⟩
      obtain ⟨w'', hw'', hdeclared'⟩ := hchild path name hdeclared
      rw [hw', Option.some.injEq] at hw''
      exact hw'' ▸ hdeclared'
  · rintro ⟨hnames, hsteps⟩ path name hdeclared
    cases path with
    | nil =>
      obtain ⟨w, hw⟩ := declared_nil.mp hdeclared
      exact declared_nil.mpr (hnames name w hw)
    | cons step path =>
      obtain ⟨w, hw, hdeclared⟩ := declared_cons.mp hdeclared
      rcases hsteps step w hw with hno | ⟨w', hw', hkeeps⟩
      · exact absurd hdeclared (hno path name)
      · exact declared_cons.mpr ⟨w', hw', hkeeps.declared path name hdeclared⟩

/-! ## Grok -/

/-- Every reachable map of properties is spared: no parameter has a name that is
removed, and one with the name `additionalProperties` declares nothing itself. -/
def GrokSpares (v : Value) : Prop :=
  ∀ path s, schemaAt v path = some s → ∀ name w, childSchema s (.property name) = some w →
    name ≠ "format" ∧ name ≠ "pattern" ∧ (name = "additionalProperties" → DeclaresNothing w)

theorem grokSpares_iff_child {v : Value} :
    GrokSpares v ↔ (∀ name w, childSchema v (.property name) = some w →
        name ≠ "format" ∧ name ≠ "pattern" ∧ (name = "additionalProperties" → DeclaresNothing w))
      ∧ ∀ step w, childSchema v step = some w → GrokSpares w := by
  constructor
  · intro h
    refine ⟨h [] v rfl, fun step w hw path s hs => h (step :: path) s ?_⟩
    rw [schemaAt_cons, hw, Option.bind_some, hs]
  · rintro ⟨hnames, hsteps⟩ path s hs
    cases path with
    | nil =>
      cases hs
      exact hnames
    | cons step path =>
      rw [schemaAt_cons, Option.bind_eq_some_iff] at hs
      obtain ⟨w, hw, hs⟩ := hs
      exact hsteps step w hw path s hs

theorem get_grokNormalizeMembers (k : String) (m : Members) :
    Members.get k (grokNormalizeMembers m)
      = if k = "format" ∨ k = "pattern" then none
        else (Members.get k m).map fun v =>
          if k = "additionalProperties" ∧ v.asBool = none then .bool true
          else grokNormalizeSchemaValue v := by
  induction m with
  | nil => simp [grokNormalizeMembers]
  | cons e m ih =>
    obtain ⟨k', v⟩ := e
    rw [grokNormalizeMembers, grokNormalizeMember, Members.get]
    by_cases hkey : k' = k
    · subst hkey
      rw [if_pos rfl]
      split
      · rename_i hno
        rw [Option.toList_none, List.nil_append, ih, if_pos hno]
      · split
        · rename_i hcase
          simp [hcase]
        · rename_i hcase
          rw [Option.toList_some, List.singleton_append, Members.get_cons_self, Option.map_some,
            if_neg hcase]
    · rw [if_neg hkey, ← ih]
      split
      · rfl
      · split <;> exact Members.get_cons_ne hkey _ _

theorem getElem?_grokNormalizeItems (items : List Value) (i : ℕ) :
    (grokNormalizeItems items)[i]? = items[i]?.map grokNormalizeSchemaValue := by
  induction items generalizing i with
  | nil => rfl
  | cons v items ih =>
    rw [grokNormalizeItems]
    cases i with
    | zero => rfl
    | succ i => exact ih i

theorem get_grokNormalizeSchemaValue {k : String} (hformat : k ≠ "format") (hpattern : k ≠ "pattern")
    (hadditional : k ≠ "additionalProperties") (v : Value) :
    (grokNormalizeSchemaValue v).get k = (v.get k).map grokNormalizeSchemaValue := by
  cases v with
  | object m =>
    rw [grokNormalizeSchemaValue, Value.get_object, get_grokNormalizeMembers,
      if_neg (by simp [hformat, hpattern])]
    simp [hadditional]
  | _ => rfl

/-- One step of the walk. -/
theorem childSchema_grokNormalize (v : Value) (step : SchemaStep) :
    childSchema (grokNormalizeSchemaValue v) step
      = if step = .property "format" ∨ step = .property "pattern" then none
        else (childSchema v step).map fun w =>
          if step = .property "additionalProperties" ∧ w.asBool = none then .bool true
          else grokNormalizeSchemaValue w := by
  cases step with
  | property name =>
    rw [childSchema, get_grokNormalizeSchemaValue (by decide) (by decide) (by decide), childSchema]
    cases v.get "properties" with
    | none => simp
    | some properties =>
      cases properties with
      | object m =>
        simp only [Option.map_some, Option.bind_some, grokNormalizeSchemaValue, Value.get_object,
          get_grokNormalizeMembers, SchemaStep.property.injEq]
      | _ => simp [grokNormalizeSchemaValue, Value.get]
  | items =>
    rw [childSchema, get_grokNormalizeSchemaValue (by decide) (by decide) (by decide)]
    simp [childSchema]
  | item i =>
    rw [childSchema, Value.getArray, get_grokNormalizeSchemaValue (by decide) (by decide) (by decide),
      childSchema, Value.getArray]
    cases v.get "items" with
    | none => simp
    | some items =>
      cases items with
      | array l =>
        simp only [Option.map_some, Option.bind_some, grokNormalizeSchemaValue, Value.asArray_array,
          getElem?_grokNormalizeItems, reduceCtorEq, or_self, if_false, false_and]
      | _ => simp [grokNormalizeSchemaValue, Value.asArray]

theorem asObject_of_asBool {v : Value} (h : v.asBool ≠ none) : v.asObject = none := by
  cases v with
  | object => exact absurd rfl h
  | _ => rfl

/-- The normalized schema declares every parameter exactly if they are spared. -/
theorem keepsParameters_grokNormalize_iff (v : Value) :
    KeepsParameters v (grokNormalizeSchemaValue v) ↔ GrokSpares v := by
  constructor
  · intro hkeeps path s hs
    induction path generalizing v with
    | nil =>
      cases hs
      intro name w hw
      obtain ⟨hnames, hsteps⟩ := keepsParameters_iff_child.mp hkeeps
      obtain ⟨w', hw'⟩ := hnames name w hw
      rw [childSchema_grokNormalize, hw] at hw'
      split at hw'
      · cases hw'
      · rename_i hno
        simp only [SchemaStep.property.injEq, not_or] at hno
        refine ⟨hno.1, hno.2, ?_⟩
        rintro rfl
        by_contra hdeclares
        rcases hsteps _ w hw with hnothing | ⟨x, hx, hkeeps⟩
        · exact hdeclares hnothing
        · by_cases hbool : w.asBool = none
          · rw [childSchema_grokNormalize, hw, if_neg (by simp), Option.map_some, if_pos ⟨rfl, hbool⟩,
              Option.some.injEq] at hx
            subst hx
            refine hdeclares fun path name hdeclared => ?_
            exact declaresNothing_of_asObject rfl path name (hkeeps.declared path name hdeclared)
          · exact hdeclares (declaresNothing_of_asObject (asObject_of_asBool hbool))
    | cons step path ih =>
      rw [schemaAt_cons, Option.bind_eq_some_iff] at hs
      obtain ⟨w, hw, hs⟩ := hs
      refine ih w ?_ hs
      rcases (keepsParameters_iff_child.mp hkeeps).2 step w hw with hnothing | ⟨x, hx, hkeeps⟩
      · exact hnothing.keeps _
      · rw [childSchema_grokNormalize, hw] at hx
        split at hx
        · cases hx
        · rw [Option.map_some, Option.some.injEq] at hx
          split at hx
          · subst hx
            refine DeclaresNothing.keeps (fun path name hdeclared => ?_) _
            exact declaresNothing_of_asObject rfl path name (hkeeps.declared path name hdeclared)
          · exact hx ▸ hkeeps
  · intro hspares
    rw [keepsParameters_iff]
    intro path name hdeclared
    induction path generalizing v with
    | nil =>
      obtain ⟨w, hw⟩ := declared_nil.mp hdeclared
      obtain ⟨hformat, hpattern, -⟩ := (grokSpares_iff_child.mp hspares).1 name w hw
      rw [declared_nil]
      exact ⟨_, by rw [childSchema_grokNormalize, hw, if_neg (by simp [hformat, hpattern]),
        Option.map_some]⟩
    | cons step path ih =>
      obtain ⟨w, hw, hbelow⟩ := declared_cons.mp hdeclared
      obtain ⟨hnames, hsteps⟩ := grokSpares_iff_child.mp hspares
      have hkept : ¬ (step = .property "format" ∨ step = .property "pattern") := by
        rintro (rfl | rfl)
        · exact (hnames _ w hw).1 rfl
        · exact (hnames _ w hw).2.1 rfl
      have hopen : ¬ (step = .property "additionalProperties" ∧ w.asBool = none) := by
        rintro ⟨rfl, -⟩
        exact (hnames _ w hw).2.2 rfl path name hbelow
      rw [declared_cons]
      refine ⟨grokNormalizeSchemaValue w, ?_, ih w (hsteps step w hw) hbelow⟩
      rw [childSchema_grokNormalize, hw, if_neg hkept, Option.map_some, if_neg hopen]

/-- A root schema with the type `object` and properties. -/
def ObjectRoot (v : Value) : Prop :=
  v.getStr "type" = some "object" ∧ (v.get "properties").isSome

theorem childSchema_congr {v v' : Value} (hproperties : v.get "properties" = v'.get "properties")
    (hitems : v.get "items" = v'.get "items") (step : SchemaStep) :
    childSchema v step = childSchema v' step := by
  cases step with
  | property name => rw [childSchema, childSchema, hproperties]
  | items => exact hitems
  | item i => rw [childSchema, childSchema, Value.getArray, Value.getArray, hitems]

theorem get_foldl_remove {k : String} {keys : List String} (h : k ∉ keys) (m : Members) :
    Members.get k (keys.foldl (fun object key => Members.remove key object) m) = Members.get k m := by
  induction keys generalizing m with
  | nil => rfl
  | cons key keys ih =>
    rw [List.mem_cons, not_or] at h
    rw [List.foldl_cons, ih h.2, Members.get_remove_ne h.1]

theorem childSchema_simplifyGrok {v : Value} (hroot : ObjectRoot v) (step : SchemaStep) :
    childSchema (simplifyGrokFunctionParameters v false) step = childSchema v step := by
  obtain ⟨htype, hproperties⟩ := hroot
  obtain ⟨properties, hget⟩ := Option.isSome_iff_exists.mp hproperties
  obtain ⟨m, rfl, -⟩ := Value.exists_object_of_get hget
  rw [simplifyGrokFunctionParameters, if_neg (by decide)]
  split
  · rfl
  · rw [if_pos ⟨htype, hproperties⟩]
    refine childSchema_congr ?_ ?_ step
    · rw [Value.get_object, Value.get_object, get_foldl_remove (by decide)]
    · rw [Value.get_object, Value.get_object, get_foldl_remove (by decide)]

theorem keepsParameters_grok_iff {v : Value} (hroot : ObjectRoot v) :
    KeepsParameters v (grokParameters v) ↔ GrokSpares v := by
  have hchild := childSchema_simplifyGrok hroot
  have hspares : GrokSpares (simplifyGrokFunctionParameters v false) ↔ GrokSpares v := by
    rw [grokSpares_iff_child, grokSpares_iff_child]
    simp only [hchild]
  rw [← hspares, ← keepsParameters_grokNormalize_iff, grokParameters, keepsParameters_iff_child,
    keepsParameters_iff_child]
  simp only [hchild]

/-! ## What the alternatives leave -/

/-- The members of an object are there, with more properties perhaps. -/
structure KeepsMembers (m m' : Members) : Prop where
  member : ∀ k w, k ∉ ["oneOf", "anyOf", "allOf"] → k ≠ "properties" → m.get k = some w →
    m'.get k = some w
  property : ∀ own, m.get "properties" = some (.object own) → ∃ all,
    m'.get "properties" = some (.object all) ∧ ∀ k w, Members.get k own = some w →
      Members.get k all = some w

theorem KeepsMembers.refl (m : Members) : KeepsMembers m m :=
  ⟨fun _ _ _ _ h => h, fun own h => ⟨own, h, fun _ _ h => h⟩⟩

theorem KeepsMembers.trans {m m' m'' : Members} (h : KeepsMembers m m') (h' : KeepsMembers m' m'') :
    KeepsMembers m m'' := by
  refine ⟨fun k w hk hne hw => h'.member k w hk hne (h.member k w hk hne hw), fun own hown => ?_⟩
  obtain ⟨all, hall, hle⟩ := h.property own hown
  obtain ⟨all', hall', hle'⟩ := h'.property all hall
  exact ⟨all', hall', fun k w hw => hle' k w (hle k w hw)⟩

theorem keepsMembers_orInsert (k : String) (v : Value) (m : Members) :
    KeepsMembers m (m.orInsert k v) :=
  ⟨fun _ _ _ _ h => Members.get_orInsert_of_some h,
    fun own h => ⟨own, Members.get_orInsert_of_some h, fun _ _ h => h⟩⟩

theorem keepsMembers_remove {k : String} (hk : k ∈ ["oneOf", "anyOf", "allOf"]) (m : Members) :
    KeepsMembers m (m.remove k) := by
  constructor
  · intro k' w hk' _ hw
    have hne : k' ≠ k := fun h => hk' (h ▸ hk)
    rw [Members.get_remove_ne hne, hw]
  · intro own hown
    have hne : "properties" ≠ k := by
      rintro rfl
      revert hk
      decide
    exact ⟨own, by rw [Members.get_remove_ne hne, hown], fun _ _ h => h⟩

theorem get_foldl_orInsert {properties : Members} {k : String} {w : Value} {own : Members}
    (h : own.get k = some w) :
    Members.get k (properties.foldl (fun all (name, schema) => Members.orInsert name schema all) own)
      = some w := by
  induction properties generalizing own with
  | nil => exact h
  | cons e properties ih => exact ih (Members.get_orInsert_of_some h)

theorem keepsMembers_mergeProperties (properties m : Members) :
    KeepsMembers m (mergeProperties properties m) := by
  rw [mergeProperties]
  split
  · rename_i own hown
    constructor
    · intro k w _ hne hw
      rw [Members.get_insert_ne hne, hw]
    · intro own' hown'
      rw [hown, Option.some.injEq, Value.object.injEq] at hown'
      subst hown'
      exact ⟨_, Members.get_insert_self _ _ _, fun k w hw => get_foldl_orInsert hw⟩
  · rename_i hno
    split
    · exact .refl m
    · constructor
      · intro k w _ hne hw
        rw [Members.get_insert_ne hne, hw]
      · intro own hown
        exact absurd hown (hno own)

theorem keepsMembers_merge (sanitize : Value → Value) (m : Members) (alternatives : List Value) :
    KeepsMembers m (mergeGeminiSchemaAlternatives sanitize m alternatives) := by
  rw [mergeGeminiSchemaAlternatives]
  dsimp only
  split
  · have hmerged : KeepsMembers m
        (mergeProperties (mergedAlternatives sanitize alternatives).mergedProperties
          (m.orInsert "type" (.string "object"))) :=
      (keepsMembers_orInsert _ _ m).trans (keepsMembers_mergeProperties _ _)
    split
    · exact hmerged
    · exact hmerged.trans (keepsMembers_orInsert _ _ _)
  · split
    · rename_i fallback hfallback
      induction ["type", "properties", "required", "items", "enum"] generalizing m with
      | nil => exact .refl m
      | cons key keys ih =>
        rw [List.foldl_cons]
        refine KeepsMembers.trans ?_ (ih _)
        split
        · exact keepsMembers_orInsert _ _ m
        · exact .refl m
    · exact .refl m

/-- The alternatives of a schema, merged into it. -/
def mergedMembers (sanitize : Value → Value) (m : Members) : Members :=
  ["oneOf", "anyOf", "allOf"].foldl (mergeAlternativesAt sanitize) m

theorem keepsMembers_mergedMembers (sanitize : Value → Value) (m : Members) :
    KeepsMembers m (mergedMembers sanitize m) := by
  have hall : ∀ keys : List String, keys ⊆ ["oneOf", "anyOf", "allOf"] → ∀ m : Members,
      KeepsMembers m (keys.foldl (mergeAlternativesAt sanitize) m) := by
    intro keys hkeys
    induction keys with
    | nil => exact fun m => .refl m
    | cons key keys ih =>
      intro m
      rw [List.cons_subset] at hkeys
      rw [List.foldl_cons]
      refine KeepsMembers.trans ?_ (ih hkeys.2 _)
      rw [mergeAlternativesAt]
      split
      · exact (keepsMembers_remove hkeys.1 m).trans (keepsMembers_merge _ _ _)
      · exact keepsMembers_remove hkeys.1 m
  exact hall _ (List.Subset.refl _) m

/-- Without alternatives nothing is merged. -/
theorem mergedMembers_eq_self {sanitize : Value → Value} {m : Members}
    (h : ∀ k ∈ ["oneOf", "anyOf", "allOf"], m.get k = none) : mergedMembers sanitize m = m := by
  have hone : ∀ k, m.get k = none → mergeAlternativesAt sanitize m k = m := by
    intro k hk
    rw [mergeAlternativesAt, hk]
    exact Members.remove_of_get_eq_none hk
  rw [mergedMembers, List.foldl_cons, hone _ (h _ (by decide)), List.foldl_cons,
    hone _ (h _ (by decide)), List.foldl_cons, hone _ (h _ (by decide)), List.foldl_nil]

/-! ## Gemini -/

section

variable (definitions : Members)

/-- The walk replaces the schema by its definition. -/
def TakesReference (v : Value) : Prop :=
  ∃ m name definition, v = .object m ∧ localReference m = some name
    ∧ definitions.get name = some definition

/-- What the walk makes of an object without a reference. -/
def sanitizedMembers (levels : ℕ) (m : Members) : Members :=
  selectType (Members.mapKept (fun key => !geminiSchemaDropKey key)
    (sanitizeGeminiSchemaValue definitions levels [])
    (mergedMembers (sanitizeGeminiSchemaValue definitions levels []) m))

theorem sanitize_object {m : Members} (h : ¬ TakesReference definitions (.object m)) (levels : ℕ) :
    sanitizeGeminiSchemaValue definitions (levels + 1) [] (.object m)
      = .object (sanitizedMembers definitions levels m) := by
  rw [sanitizeGeminiSchemaValue]
  dsimp only
  split
  · rename_i name hname
    rw [if_neg List.not_mem_nil]
    split
    · rename_i definition hdefinition
      exact absurd ⟨m, name, definition, rfl, hname, hdefinition⟩ h
    · rfl
  · rfl

theorem sanitize_of_asObject {v : Value} (h : v.asObject = none) (levels : ℕ) (resolving : List String) :
    sanitizeGeminiSchemaValue definitions levels resolving v = v := by
  cases v with
  | object => cases h
  | _ => cases levels <;> rfl

theorem sanitize_zero (resolving : List String) (v : Value) :
    sanitizeGeminiSchemaValue definitions 0 resolving v = v := by
  cases v <;> rfl

end

theorem get_selectType_ne {k : String} (h : k ≠ "type") (m : Members) :
    (selectType m).get k = m.get k := by
  rw [selectType]
  split
  · split
    · rw [Members.get_insert_ne h]
    · rw [Members.get_remove_ne h]
  · rfl

/-- A `type` that names no type. -/
def Typeless (v : Value) : Prop :=
  ∃ types, v = .array types ∧ (types.filterMap Value.asStr).find? (· ≠ "null") = none

/-- What becomes of the type. -/
theorem get_selectType_type {m : Members} {w : Value} (h : m.get "type" = some w) :
    (Typeless w ∧ (selectType m).get "type" = none)
      ∨ ¬ Typeless w ∧ ∃ w', (selectType m).get "type" = some w'
        ∧ (w' = w ∨ w.asObject = none ∧ w'.asObject = none) := by
  rw [selectType, h]
  cases w with
  | array types =>
    dsimp only
    cases hselected : (types.filterMap Value.asStr).find? (· ≠ "null") with
    | none => exact .inl ⟨⟨types, rfl, hselected⟩, Members.get_remove_self _ _⟩
    | some selected =>
      refine .inr ⟨?_, _, Members.get_insert_self _ _ _, .inr ⟨rfl, rfl⟩⟩
      rintro ⟨types', heq, hnone⟩
      cases heq
      rw [hselected] at hnone
      cases hnone
  | _ =>
    refine .inr ⟨?_, _, h, .inl rfl⟩
    rintro ⟨types, heq, -⟩
    cases heq

/-- The levels that are left one step below; an array is not walked over. -/
def levelsBelow (levels : ℕ) : SchemaStep → ℕ
  | .property _ => levels - 2
  | .items => levels - 1
  | .item _ => 0

/-- The levels that are left at the end of a path. -/
def levelsLeft (levels : ℕ) (path : List SchemaStep) : ℕ := path.foldl levelsBelow levels

theorem levelsLeft_zero (path : List SchemaStep) : levelsLeft 0 path = 0 := by
  induction path with
  | nil => rfl
  | cons step path ih => cases step <;> exact ih

/-- The maps of properties that the walk comes to are spared: no parameter has a name
that is dropped, and the parameter `type` is not an array without a type. -/
def GeminiSpares (levels : ℕ) (v : Value) : Prop :=
  ∀ path s, schemaAt v path = some s → 1 < levelsLeft levels path →
    ∀ name w, childSchema s (.property name) = some w →
      geminiSchemaDropKey name = false ∧ (name = "type" → ¬ Typeless w)

/-- A schema that the walk replaces by a definition declares nothing, a map of properties
is never replaced, and no definition is an array without a type. -/
structure ReferencesApart (definitions : Members) (levels : ℕ) (v : Value) : Prop where
  definition : ∀ name definition, definitions.get name = some definition → ¬ Typeless definition
  schema : ∀ path s, schemaAt v path = some s → 0 < levelsLeft levels path →
    TakesReference definitions s → DeclaresNothing s
  properties : ∀ path s properties, schemaAt v path = some s → 1 < levelsLeft levels path →
    s.get "properties" = some properties → ¬ TakesReference definitions properties

/-- The alternatives bring no parameter with a name that is dropped. -/
def AlternativesApart (definitions : Members) (levels : ℕ) (v : Value) : Prop :=
  ∀ path m, schemaAt v path = some (.object m) → 1 < levelsLeft levels path →
    ¬ TakesReference definitions (.object m) → ∀ name, geminiSchemaDropKey name = true →
      childSchema (.object (mergedMembers
        (sanitizeGeminiSchemaValue definitions (levelsLeft levels path - 1) []) m)) (.property name) ≠ none →
      childSchema (.object m) (.property name) ≠ none

theorem DeclaresNothing.geminiSpares {v : Value} (h : DeclaresNothing v) (levels : ℕ) :
    GeminiSpares levels v :=
  fun path s hs _ name w hw => absurd ⟨s, w, hs, hw⟩ (h path name)

theorem schemaAt_cons_of {v w : Value} {step : SchemaStep} (hw : childSchema v step = some w)
    (path : List SchemaStep) : schemaAt v (step :: path) = schemaAt w path := by
  rw [schemaAt_cons, hw, Option.bind_some]

theorem geminiSpares_iff_child {levels : ℕ} {v : Value} :
    GeminiSpares levels v ↔ (1 < levels → ∀ name w, childSchema v (.property name) = some w →
        geminiSchemaDropKey name = false ∧ (name = "type" → ¬ Typeless w))
      ∧ ∀ step w, childSchema v step = some w → GeminiSpares (levelsBelow levels step) w := by
  constructor
  · intro h
    exact ⟨h [] v rfl, fun step w hw path s hs => h (step :: path) s (by rw [schemaAt_cons_of hw, hs])⟩
  · rintro ⟨hnames, hsteps⟩ path s hs
    cases path with
    | nil =>
      cases hs
      exact hnames
    | cons step path =>
      rw [schemaAt_cons, Option.bind_eq_some_iff] at hs
      obtain ⟨w, hw, hs⟩ := hs
      exact hsteps step w hw path s hs

section

variable {definitions : Members} {levels : ℕ}

theorem ReferencesApart.child {v w : Value} {step : SchemaStep}
    (h : ReferencesApart definitions levels v) (hw : childSchema v step = some w) :
    ReferencesApart definitions (levelsBelow levels step) w :=
  ⟨h.definition, fun path s hs => h.schema (step :: path) s (by rw [schemaAt_cons_of hw, hs]),
    fun path s properties hs =>
      h.properties (step :: path) s properties (by rw [schemaAt_cons_of hw, hs])⟩

theorem AlternativesApart.child {v w : Value} {step : SchemaStep}
    (h : AlternativesApart definitions levels v) (hw : childSchema v step = some w) :
    AlternativesApart definitions (levelsBelow levels step) w :=
  fun path m hm => h (step :: path) m (by rw [schemaAt_cons_of hw, hm])

theorem childSchema_property_eq_some {v w : Value} {name : String}
    (h : childSchema v (.property name) = some w) :
    ∃ own, v.get "properties" = some (.object own) ∧ Members.get name own = some w := by
  rw [childSchema, Option.bind_eq_some_iff] at h
  obtain ⟨properties, hproperties, hget⟩ := h
  obtain ⟨own, rfl, hown⟩ := Value.exists_object_of_get hget
  exact ⟨own, hproperties, hown⟩

theorem get_sanitizedMembers {m : Members} {k : String} (htype : k ≠ "type") (w : Value)
    (hw : (mergedMembers (sanitizeGeminiSchemaValue definitions levels []) m).get k = some w) :
    (sanitizedMembers definitions levels m).get k
      = if geminiSchemaDropKey k = true then none
        else some (sanitizeGeminiSchemaValue definitions levels [] w) := by
  rw [sanitizedMembers, get_selectType_ne htype, Members.get_mapKept, hw]
  cases geminiSchemaDropKey k <;> rfl

theorem get_sanitizedMembers_of_drop {m : Members} {k : String} (hk : geminiSchemaDropKey k = true) :
    (sanitizedMembers definitions levels m).get k = none := by
  have htype : k ≠ "type" := by
    rintro rfl
    revert hk
    decide
  rw [sanitizedMembers, get_selectType_ne htype, Members.get_mapKept, hk]
  rfl

/-- The walk comes to the map of properties, with what the alternatives bring. -/
theorem get_properties_sanitizedMembers (definitions : Members) (levels : ℕ) {m own : Members}
    (hown : m.get "properties" = some (.object own)) :
    ∃ all, (mergedMembers (sanitizeGeminiSchemaValue definitions levels []) m).get "properties"
        = some (.object all)
      ∧ (∀ k w, Members.get k own = some w → Members.get k all = some w)
      ∧ (sanitizedMembers definitions levels m).get "properties"
        = some (sanitizeGeminiSchemaValue definitions levels [] (.object all)) := by
  obtain ⟨all, hall, hle⟩ := (keepsMembers_mergedMembers
    (sanitizeGeminiSchemaValue definitions levels []) m).property own hown
  refine ⟨all, hall, hle, ?_⟩
  rw [get_sanitizedMembers (by decide) _ hall, if_neg (by decide)]

/-- The map of properties is no reference, also with what the alternatives bring. -/
theorem not_takesReference_all {m own all : Members}
    (hown : m.get "properties" = some (.object own)) (hno : ¬ TakesReference definitions (.object m))
    (hrefs : ReferencesApart definitions (levels + 2) (.object m))
    (halternatives : AlternativesApart definitions (levels + 2) (.object m))
    (hall : (mergedMembers (sanitizeGeminiSchemaValue definitions (levels + 1) []) m).get "properties"
      = some (.object all))
    (hle : ∀ k w, Members.get k own = some w → Members.get k all = some w) :
    ¬ TakesReference definitions (.object all) := by
  rintro ⟨all', name, definition, heq, hname, hdefinition⟩
  cases heq
  have hlevels : 1 < levelsLeft (levels + 2) [] := by
    show 1 < levels + 2
    omega
  have hsome : Members.get "$ref" all ≠ none := by
    intro hnone
    rw [localReference, hnone] at hname
    cases hname
  have hchild := halternatives [] m rfl hlevels hno "$ref" (by decide) (by
    rw [childSchema, Value.get_object]
    show ((mergedMembers (sanitizeGeminiSchemaValue definitions (levels + 1) []) m).get "properties").bind
      (Value.get "$ref") ≠ none
    rw [hall]
    exact hsome)
  rw [childSchema, Value.get_object, hown, Option.bind_some, Value.get_object] at hchild
  obtain ⟨x, hx⟩ := Option.ne_none_iff_exists'.mp hchild
  refine hrefs.properties [] (.object m) _ rfl hlevels hown ⟨own, name, definition, rfl, ?_, hdefinition⟩
  rw [localReference, hle _ _ hx] at hname
  rw [localReference, hx, hname]

/-- A kept parameter has no name that is dropped. -/
theorem spared_of_kept {m : Members} (hno : ¬ TakesReference definitions (.object m))
    (hrefs : ReferencesApart definitions (levels + 2) (.object m))
    (halternatives : AlternativesApart definitions (levels + 2) (.object m))
    {name : String} {w w' : Value} (hw : childSchema (.object m) (.property name) = some w)
    (hw' : childSchema (.object (sanitizedMembers definitions (levels + 1) m)) (.property name) = some w') :
    geminiSchemaDropKey name = false := by
  obtain ⟨own, hown, -⟩ := childSchema_property_eq_some hw
  obtain ⟨all, hall, hle, hget⟩ := get_properties_sanitizedMembers
    definitions (levels + 1) hown
  have hopen := not_takesReference_all hown hno hrefs halternatives hall hle
  rw [childSchema, Value.get_object, hget, Option.bind_some, sanitize_object definitions hopen,
    Value.get_object] at hw'
  by_contra hdrop
  rw [Bool.not_eq_false] at hdrop
  rw [get_sanitizedMembers_of_drop hdrop] at hw'
  cases hw'

theorem not_typeless_object (m : Members) : ¬ Typeless (.object m) := by
  rintro ⟨types, heq, -⟩
  cases heq

/-- The walk makes no array without a type. -/
theorem typeless_sanitize {resolving : List String} {v : Value}
    (hdefinitions : ∀ name definition, definitions.get name = some definition → ¬ Typeless definition)
    (h : Typeless (sanitizeGeminiSchemaValue definitions levels resolving v)) : Typeless v := by
  induction levels generalizing resolving v with
  | zero => rwa [sanitize_zero] at h
  | succ levels ih =>
    cases v with
    | object m =>
      exfalso
      rw [sanitizeGeminiSchemaValue] at h
      dsimp only at h
      split at h
      · split at h
        · exact not_typeless_object _ h
        · split at h
          · rename_i definition hdefinition
            have hwith := ih h
            cases definition with
            | object => exact not_typeless_object _ hwith
            | _ => exact hdefinitions _ _ hdefinition hwith
          · exact not_typeless_object _ h
      · exact not_typeless_object _ h
    | _ => exact h

/-- The map of properties, where no parameter has a name that is dropped. -/
theorem childSchema_sanitized_property {m : Members}
    (hno : ¬ TakesReference definitions (.object m))
    (hrefs : ReferencesApart definitions (levels + 2) (.object m))
    (halternatives : AlternativesApart definitions (levels + 2) (.object m))
    (hspared : ∀ name w, childSchema (.object m) (.property name) = some w →
      geminiSchemaDropKey name = false)
    {name : String} {w : Value} (hw : childSchema (.object m) (.property name) = some w) :
    let result := childSchema (.object (sanitizedMembers definitions (levels + 1) m)) (.property name)
    let below := sanitizeGeminiSchemaValue definitions levels [] w
    (name = "type" ∧ Typeless w ∧ result = none)
      ∨ ¬ (name = "type" ∧ Typeless w) ∧ ∃ w', result = some w'
        ∧ (w' = below ∨ below.asObject = none ∧ w'.asObject = none) := by
  obtain ⟨own, hown, hget⟩ := childSchema_property_eq_some hw
  obtain ⟨all, hall, hle, hproperties⟩ := get_properties_sanitizedMembers
    definitions (levels + 1) hown
  have hopen := not_takesReference_all hown hno hrefs halternatives hall hle
  -- nothing that is dropped comes with the alternatives, so that none are in the map
  have hclean : ∀ k, geminiSchemaDropKey k = true → Members.get k all = none := by
    intro k hk
    by_contra hsome
    have hchild := halternatives [] m rfl (by show 1 < levels + 2; omega) hno k hk (by
      rw [childSchema, Value.get_object]
      show ((mergedMembers (sanitizeGeminiSchemaValue definitions (levels + 1) []) m).get
        "properties").bind (Value.get k) ≠ none
      rw [hall]
      exact hsome)
    obtain ⟨x, hx⟩ := Option.ne_none_iff_exists'.mp hchild
    rw [hspared k x hx] at hk
    cases hk
  have hmerged : mergedMembers (sanitizeGeminiSchemaValue definitions levels []) all = all :=
    mergedMembers_eq_self fun k hk => hclean k (by revert k; decide)
  have hkept := hspared name w hw
  intro result below
  have hresult : result = (sanitizedMembers definitions levels all).get name := by
    show childSchema _ _ = _
    rw [childSchema, Value.get_object, hproperties, Option.bind_some, sanitize_object definitions hopen]
    rfl
  by_cases htype : name = "type"
  · subst htype
    have hmap : (Members.mapKept (fun key => !geminiSchemaDropKey key)
        (sanitizeGeminiSchemaValue definitions levels []) all).get "type" = some below := by
      rw [Members.get_mapKept, hle _ _ hget]
      rfl
    rw [hresult, sanitizedMembers, hmerged]
    rcases get_selectType_type hmap with ⟨htypeless, hnone⟩ | ⟨htyped, w', hsome, hor⟩
    · exact .inl ⟨rfl, typeless_sanitize hrefs.definition htypeless, hnone⟩
    · refine .inr ⟨fun h => htyped ?_, w', hsome, hor⟩
      obtain ⟨types, rfl, hnone⟩ := h.2
      show Typeless (sanitizeGeminiSchemaValue definitions levels [] (.array types))
      rw [sanitize_of_asObject definitions rfl]
      exact ⟨types, rfl, hnone⟩
  · refine .inr ⟨fun h => htype h.1, below, ?_, .inl rfl⟩
    rw [hresult, get_sanitizedMembers htype w (by rw [hmerged, hle _ _ hget]), hkept]
    rfl

theorem keepsParameters_of_asObject {w x y : Value} (hx : x.asObject = none) (hy : y.asObject = none) :
    KeepsParameters w x ↔ KeepsParameters w y := by
  have hnothing : ∀ z : Value, z.asObject = none → KeepsParameters w z → DeclaresNothing w :=
    fun z hz hkeeps path name hdeclared =>
      declaresNothing_of_asObject hz path name (hkeeps.declared path name hdeclared)
  exact ⟨fun h => (hnothing x hx h).keeps y, fun h => (hnothing y hy h).keeps x⟩

/-- One step of the walk, where the names are spared. -/
theorem childSchema_sanitized {m : Members} (hno : ¬ TakesReference definitions (.object m))
    (hrefs : ReferencesApart definitions (levels + 1) (.object m))
    (halternatives : AlternativesApart definitions (levels + 1) (.object m))
    (hspared : 1 < levels + 1 → ∀ name w, childSchema (.object m) (.property name) = some w →
      geminiSchemaDropKey name = false ∧ (name = "type" → ¬ Typeless w))
    {step : SchemaStep} {w : Value} (hw : childSchema (.object m) step = some w) :
    ∃ w', childSchema (.object (sanitizedMembers definitions levels m)) step = some w'
      ∧ (KeepsParameters w w' ↔ KeepsParameters w
        (sanitizeGeminiSchemaValue definitions (levelsBelow (levels + 1) step) [] w)) := by
  have hkeeps := keepsMembers_mergedMembers (sanitizeGeminiSchemaValue definitions levels []) m
  cases step with
  | items =>
    refine ⟨_, ?_, Iff.rfl⟩
    rw [childSchema, Value.get_object, get_sanitizedMembers (by decide) w
      (hkeeps.member "items" w (by decide) (by decide) hw)]
    rfl
  | item i =>
    rw [childSchema, Value.getArray, Option.bind_eq_some_iff] at hw
    obtain ⟨items, hitems, hi⟩ := hw
    rw [Option.bind_eq_some_iff] at hitems
    obtain ⟨x, hx, harray⟩ := hitems
    rw [Value.asArray_eq_some] at harray
    subst harray
    refine ⟨w, ?_, by rw [levelsBelow, sanitize_zero]⟩
    rw [childSchema, Value.getArray, Value.get_object, get_sanitizedMembers (by decide) _
      (hkeeps.member "items" _ (by decide) (by decide) hx), if_neg (by decide), Option.bind_some,
      sanitize_of_asObject definitions rfl, Value.asArray_array, Option.bind_some, hi]
  | property name =>
    cases levels with
    | zero =>
      obtain ⟨own, hown, hget⟩ := childSchema_property_eq_some hw
      obtain ⟨all, -, hle, hproperties⟩ := get_properties_sanitizedMembers
        definitions 0 hown
      refine ⟨w, ?_, by rw [levelsBelow, sanitize_zero]⟩
      rw [childSchema, Value.get_object, hproperties, Option.bind_some, sanitize_zero,
        Value.get_object, hle _ _ hget]
    | succ levels =>
      have hnames := hspared (by omega)
      rcases childSchema_sanitized_property hno hrefs halternatives (fun name w h => (hnames name w h).1)
        hw with ⟨htype, htypeless, -⟩ | ⟨-, w', hw', hor⟩
      · exact absurd htypeless ((hnames name w hw).2 htype)
      · refine ⟨w', hw', ?_⟩
        rcases hor with rfl | ⟨hbelow, hw'⟩
        · rfl
        · exact keepsParameters_of_asObject hw' hbelow

/-- The walk keeps every parameter exactly if their names are spared. -/
theorem keepsParameters_sanitize_iff {v : Value} (hrefs : ReferencesApart definitions levels v)
    (halternatives : AlternativesApart definitions levels v) :
    KeepsParameters v (sanitizeGeminiSchemaValue definitions levels [] v) ↔ GeminiSpares levels v := by
  induction levels using Nat.strong_induction_on generalizing v with
  | _ n ih =>
    by_cases hnothing : DeclaresNothing v
    · exact iff_of_true (hnothing.keeps _) (hnothing.geminiSpares n)
    · cases n with
      | zero =>
        rw [sanitize_zero]
        refine iff_of_true (keepsParameters_refl v) fun path s _ hlevels => ?_
        rw [levelsLeft_zero] at hlevels
        omega
      | succ levels =>
        have hno : ¬ TakesReference definitions v := fun h =>
          hnothing (hrefs.schema [] v rfl (by show 0 < levels + 1; omega) h)
        obtain ⟨m, rfl⟩ : ∃ m, v = .object m := by
          cases v with
          | object m => exact ⟨m, rfl⟩
          | _ => exact absurd (declaresNothing_of_asObject rfl) hnothing
        have hbelow : ∀ step : SchemaStep, levelsBelow (levels + 1) step < levels + 1 := by
          intro step
          cases step with
          | property => exact Nat.lt_of_le_of_lt (Nat.sub_le_sub_right (Nat.le_refl _) 2) (by omega)
          | items => exact Nat.lt_succ_self levels
          | item => exact Nat.zero_lt_succ levels
        rw [sanitize_object definitions hno, keepsParameters_iff_child, geminiSpares_iff_child]
        constructor
        · rintro ⟨hnames, hsteps⟩
          have hspared : 1 < levels + 1 → ∀ name w, childSchema (.object m) (.property name) = some w →
              geminiSchemaDropKey name = false ∧ (name = "type" → ¬ Typeless w) := by
            intro hlevels
            obtain ⟨levels, rfl⟩ : ∃ k, levels = k + 1 := ⟨levels - 1, by omega⟩
            have hkept : ∀ name w, childSchema (.object m) (.property name) = some w →
                geminiSchemaDropKey name = false := by
              intro name w hw
              obtain ⟨w', hw'⟩ := hnames name w hw
              exact spared_of_kept hno hrefs halternatives hw hw'
            intro name w hw
            refine ⟨hkept name w hw, fun htype htypeless => ?_⟩
            obtain ⟨w', hw'⟩ := hnames name w hw
            rcases childSchema_sanitized_property hno hrefs halternatives hkept hw with
              ⟨-, -, hnone⟩ | ⟨htyped, -⟩
            · rw [hw'] at hnone
              cases hnone
            · exact htyped ⟨htype, htypeless⟩
          refine ⟨hspared, fun step w hw => ?_⟩
          rw [← ih _ (hbelow step) (hrefs.child hw) (halternatives.child hw)]
          obtain ⟨w', hw', hiff⟩ := childSchema_sanitized hno hrefs halternatives hspared hw
          rcases hsteps step w hw with hno | ⟨w'', hw'', hkeeps⟩
          · exact hno.keeps _
          · rw [hw', Option.some.injEq] at hw''
            exact hiff.mp (hw'' ▸ hkeeps)
        · rintro ⟨hspared, hsteps⟩
          constructor
          · intro name w hw
            obtain ⟨w', hw', -⟩ := childSchema_sanitized hno hrefs halternatives hspared hw
            exact ⟨w', hw'⟩
          · intro step w hw
            obtain ⟨w', hw', hiff⟩ := childSchema_sanitized hno hrefs halternatives hspared hw
            refine .inr ⟨w', hw', hiff.mpr ?_⟩
            rw [ih _ (hbelow step) (hrefs.child hw) (halternatives.child hw)]
            exact hsteps step w hw

end

/-- The sanitizers keep every declared parameter, of a root schema with type `object`
and properties on its way to Grok, and of any schema on its way to Gemini. -/
def SanitizersKeepParameters (parameters : Value) : Prop :=
  (ObjectRoot parameters → KeepsParameters parameters (grokParameters parameters))
    ∧ KeepsParameters parameters (simplifyGeminiFunctionParameters parameters)

/-- A schema with one parameter. -/
def weatherParameters : Value :=
  .object [("properties", .object [("city", .object [])]), ("type", .string "object")]

theorem schemaAt_weatherParameters {path : List SchemaStep} {s : Value}
    (h : schemaAt weatherParameters path = some s) : s = weatherParameters ∨ s = .object [] := by
  cases path with
  | nil =>
    cases h
    exact .inl rfl
  | cons step path =>
    rw [schemaAt_cons, Option.bind_eq_some_iff] at h
    obtain ⟨w, hw, h⟩ := h
    have hempty : w = .object [] := by
      cases step with
      | property name =>
        obtain ⟨own, hown, hget⟩ := childSchema_property_eq_some hw
        cases hown
        rw [Members.get] at hget
        split at hget <;> cases hget
        rfl
      | items => cases hw
      | item => cases hw
    subst hempty
    cases path with
    | nil =>
      cases h
      exact .inr rfl
    | cons step path =>
      rw [schemaAt_cons, Option.bind_eq_some_iff] at h
      obtain ⟨w, hw, -⟩ := h
      cases step <;> cases hw

end CodexRouter
