/-
# Tool parameter schemas

The schema sanitizers of `responses_compat.rs`: `simplify_grok_function_parameters`
with `grok_normalize_schema_value`, and `simplify_gemini_function_parameters`.  They
walk over any JSON value; what a schema declares is read along paths through
`properties` and `items`.

The Gemini walk stops below depth 24.  Its recursion is over the levels that are left:
25 at depth 0.
-/
import CodexRouter.Base.Json
import CodexRouter.Base.Text

/-! ## Object members -/

namespace Members

/-- `Map::entry(k).or_insert(v)`. -/
def orInsert (k : String) (v : Value) (m : Members) : Members :=
  if m.containsKey k then m else m.insert k v

/-- Rewrite the values of the kept keys, drop the others. -/
def mapKept (keep : String → Bool) (f : Value → Value) (m : Members) : Members :=
  (m.filter fun e => keep e.1).map fun e => (e.1, f e.2)

theorem containsKey_eq_false {k : String} {m : Members} : m.containsKey k = false ↔ m.get k = none := by
  rw [containsKey, Option.isSome_eq_false_iff, Option.isNone_iff_eq_none]

/-- What is there stays. -/
theorem get_orInsert_of_some {k k' : String} {v w : Value} {m : Members} (h : m.get k' = some w) :
    (m.orInsert k v).get k' = some w := by
  rw [orInsert]
  split
  · exact h
  · rename_i hno
    rw [Bool.not_eq_true, containsKey_eq_false] at hno
    have hne : k' ≠ k := by
      rintro rfl
      rw [h] at hno
      cases hno
    rw [get_insert_ne hne, h]

theorem get_mapKept (keep : String → Bool) (f : Value → Value) (k : String) (m : Members) :
    (m.mapKept keep f).get k = if keep k then (m.get k).map f else none := by
  induction m with
  | nil => simp [mapKept, get]
  | cons e m ih =>
    obtain ⟨k', v⟩ := e
    rw [mapKept] at ih ⊢
    rw [List.filter_cons, get]
    by_cases hkey : k' = k
    · subst hkey
      cases hkeep : keep k' with
      | false =>
        rw [hkeep] at ih
        simpa using ih
      | true => simp
    · cases hkeep : keep k' with
      | false => simp [hkey, ih]
      | true => simp [hkey, ih]

/-- A removed key was not there, or is gone. -/
theorem remove_of_get_eq_none {k : String} {m : Members} (h : m.get k = none) : m.remove k = m := by
  induction m with
  | nil => rfl
  | cons e m ih =>
    obtain ⟨k', v⟩ := e
    rw [get] at h
    split at h
    · cases h
    · rename_i hne
      rw [remove] at ih ⊢
      rw [List.filter_cons_of_pos (by simpa using hne), ih h]

end Members

namespace CodexRouter

open Text

/-! ## Grok -/

/-- `grok_safe_function_parameters`. -/
def grokSafeFunctionParameters : Value :=
  .object [("additionalProperties", .bool true), ("properties", .object []),
    ("type", .string "object")]

/-- `grok_root_schema_rejected`. -/
def grokRootSchemaRejected : Value → Bool
  | .object object =>
    ["oneOf", "anyOf", "allOf", "$ref", "$defs", "definitions"].any fun key =>
      Members.containsKey key object
  | .null => false
  | _ => true

/-- `simplify_grok_function_parameters`. -/
def simplifyGrokFunctionParameters (params : Value) (forceSafe : Bool) : Value :=
  if forceSafe then grokSafeFunctionParameters
  else if grokRootSchemaRejected params = false then params
  else
    match params with
    | .object object =>
      if (Members.get "type" object).bind Value.asStr = some "object"
          ∧ Members.containsKey "properties" object then
        .object (["oneOf", "anyOf", "allOf", "$ref", "$defs", "definitions", "not"].foldl
          (fun object key => Members.remove key object) object)
      else grokSafeFunctionParameters
    | _ => grokSafeFunctionParameters

mutual

/-- `grok_normalize_schema_value`. -/
def grokNormalizeSchemaValue : Value → Value
  | .object object => .object (grokNormalizeMembers object)
  | .array items => .array (grokNormalizeItems items)
  | v => v
termination_by structural v => v

def grokNormalizeItems : List Value → List Value
  | [] => []
  | v :: rest => grokNormalizeSchemaValue v :: grokNormalizeItems rest
termination_by structural l => l

/-- One member of an object: the keys `format` and `pattern` are removed, and
`additionalProperties` becomes a boolean. -/
def grokNormalizeMember : String × Value → Option (String × Value)
  | (key, v) =>
    if key = "format" ∨ key = "pattern" then none
    else if key = "additionalProperties" ∧ v.asBool = none then some (key, .bool true)
    else some (key, grokNormalizeSchemaValue v)
termination_by structural e => e

def grokNormalizeMembers : List (String × Value) → List (String × Value)
  | [] => []
  | e :: rest => (grokNormalizeMember e).toList ++ grokNormalizeMembers rest
termination_by structural l => l

end

/-- The parameters of a function tool on their way to Grok, where the tool is not one
of those that get the safe schema. -/
def grokParameters (params : Value) : Value :=
  grokNormalizeSchemaValue (simplifyGrokFunctionParameters params false)

/-! ## Gemini -/

/-- `gemini_schema_drop_key`. -/
def geminiSchemaDropKey (key : String) : Bool :=
  key ∈ ["$schema", "$defs", "definitions", "$ref", "oneOf", "anyOf", "allOf", "not", "if", "then",
    "else", "const", "patternProperties", "dependentSchemas", "unevaluatedProperties"]

/-- `gemini_schema_reference_name`. -/
def geminiSchemaReferenceName (reference : String) : Option String :=
  (stripPrefix reference "#/$defs/").or (stripPrefix reference "#/definitions/")

/-- The variables of the loop of `merge_gemini_schema_alternatives`. -/
structure MergedAlternatives where
  mergedProperties : Members
  commonRequired : Option (List String)
  objectAlternative : Bool
  fallback : Option Members

/-- One alternative, already sanitized. -/
def MergedAlternatives.add (merged : MergedAlternatives) : Value → MergedAlternatives
  | .object alternative =>
    if (Members.get "type" alternative).bind Value.asStr = some "object"
        ∨ Members.containsKey "properties" alternative then
      let properties := ((Members.get "properties" alternative).bind Value.asObject).getD []
      let required :=
        (((Members.get "required" alternative).bind Value.asArray).getD []).filterMap Value.asStr
      { merged with
        objectAlternative := true
        mergedProperties :=
          properties.foldl (fun all (name, schema) => Members.orInsert name schema all)
            merged.mergedProperties
        commonRequired :=
          some (match merged.commonRequired with
            | some previous => previous.filter (· ∈ required)
            | none => required) }
    else { merged with fallback := merged.fallback.or (some alternative) }
  | _ => merged

/-- The alternatives from left to right. -/
def mergedAlternatives (sanitize : Value → Value) (alternatives : List Value) : MergedAlternatives :=
  alternatives.foldl (fun merged alternative => merged.add (sanitize alternative)) ⟨[], none, false, none⟩

/-- The properties that the alternatives declare, written into an object. -/
def mergeProperties (properties : Members) (object : Members) : Members :=
  match object.get "properties" with
  | some (.object own) =>
    object.insert "properties"
      (.object (properties.foldl (fun all (name, schema) => Members.orInsert name schema all) own))
  | _ => if properties.isEmpty then object else object.insert "properties" (.object properties)

/-- `merge_gemini_schema_alternatives`. -/
def mergeGeminiSchemaAlternatives (sanitize : Value → Value) (object : Members)
    (alternatives : List Value) : Members :=
  let merged := mergedAlternatives sanitize alternatives
  if merged.objectAlternative then
    let object := mergeProperties merged.mergedProperties (object.orInsert "type" (.string "object"))
    let required := ((merged.commonRequired.getD []).dedup).mergeSort (· ≤ ·)
    if required = [] then object
    else object.orInsert "required" (.array (required.map Value.string))
  else
    match merged.fallback with
    | some fallback =>
      ["type", "properties", "required", "items", "enum"].foldl (fun object key =>
        match fallback.get key with
        | some value => object.orInsert key value
        | none => object) object
    | none => object

/-- The alternatives under one key, which is removed. -/
def mergeAlternativesAt (sanitize : Value → Value) (object : Members) (key : String) : Members :=
  match (object.get key).bind Value.asArray with
  | some alternatives => mergeGeminiSchemaAlternatives sanitize (object.remove key) alternatives
  | none => object.remove key

/-- A definition with the members of the schema that refers to it. -/
def withSiblings (definition : Value) (object : Members) : Value :=
  match definition with
  | .object replacement =>
    .object (object.foldl (fun replacement (key, sibling) =>
      if key ≠ "$ref" ∧ geminiSchemaDropKey key = false then
        Members.orInsert key sibling replacement
      else replacement) replacement)
  | v => v

/-- The types of a schema: one that is not `null`, or none. -/
def selectType (object : Members) : Members :=
  match object.get "type" with
  | some (.array types) =>
    match (types.filterMap Value.asStr).find? (· ≠ "null") with
    | some selected => object.insert "type" (.array [.string selected])
    | none => object.remove "type"
  | _ => object

/-- The local reference of a schema. -/
def localReference (object : Members) : Option String :=
  ((object.get "$ref").bind Value.asStr).bind geminiSchemaReferenceName

section

variable (definitions : Members)

/-- `sanitize_gemini_schema_value`.  A name is in `resolving` while its definition is
walked over, so that the walks behind see the set they were given. -/
def sanitizeGeminiSchemaValue : ℕ → List String → Value → Value
  | levels + 1, resolving, .object object =>
    let members := fun object : Members =>
      Value.object (selectType (Members.mapKept (fun key => !geminiSchemaDropKey key)
        (sanitizeGeminiSchemaValue levels resolving)
        (["oneOf", "anyOf", "allOf"].foldl
          (mergeAlternativesAt (sanitizeGeminiSchemaValue levels resolving)) object)))
    match localReference object with
    | some name =>
      if name ∈ resolving then
        .object [("additionalProperties", .bool true), ("type", .string "object")]
      else
        match definitions.get name with
        | some definition =>
          sanitizeGeminiSchemaValue levels (name :: resolving) (withSiblings definition object)
        | none => members object
    | none => members object
  | _, _, v => v

end

/-- The definitions of a schema. -/
def schemaDefinitions (parameters : Value) : Members :=
  (["$defs", "definitions"].filterMap fun key => (parameters.get key).bind Value.asObject).flatten.foldl
    (fun all (key, value) => Members.insert key value all) []

/-- The levels at depth 0. -/
def geminiSchemaLevels : ℕ := 25

/-- `simplify_gemini_function_parameters`. -/
def simplifyGeminiFunctionParameters (parameters : Value) : Value :=
  sanitizeGeminiSchemaValue (schemaDefinitions parameters) geminiSchemaLevels [] parameters

/-! ## Declared parameters -/

/-- A step from a schema to a schema below it. -/
inductive SchemaStep where
  | property (name : String)
  | items
  | item (i : ℕ)
  deriving DecidableEq, Repr

/-- The schema one step below. -/
def childSchema (v : Value) : SchemaStep → Option Value
  | .property name => (v.get "properties").bind (Value.get name)
  | .items => v.get "items"
  | .item i => (v.getArray "items").bind (·[i]?)

/-- The schema at the end of a path. -/
def schemaAt (v : Value) : List SchemaStep → Option Value
  | [] => some v
  | step :: path => (childSchema v step).bind (schemaAt · path)

/-- The schema at the end of the path declares the name. -/
def Declared (v : Value) (path : List SchemaStep) (name : String) : Prop :=
  ∃ s w, schemaAt v path = some s ∧ childSchema s (.property name) = some w

/-- The schema at the end of the path requires the name. -/
def Required (v : Value) (path : List SchemaStep) (name : String) : Prop :=
  ∃ s items, schemaAt v path = some s ∧ s.getArray "required" = some items ∧ .string name ∈ items

/-- Every declared parameter is still declared, also where it is required. -/
structure KeepsParameters (v v' : Value) : Prop where
  declared : ∀ path name, Declared v path name → Declared v' path name
  required : ∀ path name, Required v' path name → Declared v path name → Declared v' path name

example : simplifyGeminiFunctionParameters
    (.object [("properties", .object [("city", .object [("type", .string "string")])]),
      ("type", .array [.string "null", .string "object"])])
    = .object [("properties", .object [("city", .object [("type", .string "string")])]),
      ("type", .array [.string "object"])] := by
  decide +kernel

end CodexRouter
