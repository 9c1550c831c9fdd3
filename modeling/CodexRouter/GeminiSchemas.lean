/-
# Unsupported keywords in Gemini schemas

`simplify_gemini_function_parameters` is to leave no keyword in a schema that Gemini does
not know.  The walk goes through the members of objects, the alternatives and the
references; it does not go into arrays, and what it comes to 25 levels below the schema
stays as it is.  `onlySupported_simplified` says that these two are all that can be left.

The recursion ends on any definitions: each step takes one of the levels.
-/
import CodexRouter.Base.JsonLeaves
import CodexRouter.ToolSchemaNames

namespace Members

theorem mem_orInsert {key : String} {v : Value} {m : Members} {e : String × Value}
    (h : e ∈ m.orInsert key v) : e = (key, v) ∨ e ∈ m := by
  rw [orInsert] at h
  split at h
  · exact .inr h
  · exact mem_insert h

theorem mem_foldl_orInsert {new own : Members} {e : String × Value}
    (h : e ∈ new.foldl (fun all (name, schema) => orInsert name schema all) own) :
    e ∈ own ∨ e ∈ new := by
  induction new generalizing own with
  | nil => exact .inl h
  | cons e' rest ih =>
    rcases ih h with h | h
    · rcases mem_orInsert h with rfl | h
      · exact .inr List.mem_cons_self
      · exact .inl h
    · exact .inr (List.mem_cons_of_mem _ h)

end Members

namespace CodexRouter

open Text

/-! ## Schema positions -/

mutual

/-- The nesting depth of a value. -/
def nesting : Value → ℕ
  | .array items => nestingItems items + 1
  | .object entries => nestingEntries entries + 1
  | _ => 0
termination_by structural v => v

def nestingItems : List Value → ℕ
  | [] => 0
  | v :: rest => max (nesting v) (nestingItems rest)
termination_by structural items => items

def nestingEntry : String × Value → ℕ
  | (_, v) => nesting v
termination_by structural e => e

def nestingEntries : List (String × Value) → ℕ
  | [] => 0
  | e :: rest => max (nestingEntry e) (nestingEntries rest)
termination_by structural entries => entries

end

/-- The second value is in schema position in the first one. -/
inductive SchemaBelow : Value → Value → Prop where
  | here (v : Value) : SchemaBelow v v
  | property {m own : Members} {name : String} {w s : Value} : ("properties", .object own) ∈ m →
      (name, w) ∈ own → SchemaBelow w s → SchemaBelow (.object m) s
  | member {m : Members} {key : String} {w s : Value} : key ∈ ["items", "additionalProperties"] →
      (key, w) ∈ m → SchemaBelow w s → SchemaBelow (.object m) s
  | item {m : Members} {key : String} {l : List Value} {w s : Value} : key ∈ ["items", "prefixItems"] →
      (key, .array l) ∈ m → w ∈ l → SchemaBelow w s → SchemaBelow (.object m) s

/-- No object in schema position has a key that is dropped. -/
def OnlySupported (v : Value) : Prop :=
  ∀ m, SchemaBelow v (.object m) → ∀ e ∈ m, geminiSchemaDropKey e.1 = false

/-- A list of schemas has none with a key that is dropped. -/
def ListSupported (e : String × Value) : Prop :=
  e.1 ∈ ["items", "prefixItems"] → ∀ l, e.2 = .array l → ∀ x ∈ l, OnlySupported x

/-! ## What the walk makes of an object -/

/-- The members are reached from the value through objects only. -/
inductive ObjectBelow : Value → Members → Prop where
  | here (m : Members) : ObjectBelow (.object m) m
  | member {m m' : Members} {key : String} {v : Value} : (key, v) ∈ m → ObjectBelow v m' →
      ObjectBelow (.object m) m'

/-- All objects that are reached through objects only have no key that is dropped, and no list with one. -/
def Tidy (v : Value) : Prop :=
  ∀ m, ObjectBelow v m → ∀ e ∈ m, geminiSchemaDropKey e.1 = false ∧ ListSupported e

/-- A member of a tidy object. -/
def TidyMember (e : String × Value) : Prop := geminiSchemaDropKey e.1 = false ∧ ListSupported e ∧ Tidy e.2

section

variable {v w : Value} {m : Members} {e : String × Value} {key : String}

theorem tidy_object_iff : Tidy (.object m) ↔ ∀ e ∈ m, TidyMember e := by
  constructor
  · intro h e he
    obtain ⟨hkey, hlist⟩ := h m (.here m) e he
    exact ⟨hkey, hlist, fun m' hm' => h m' (.member he hm')⟩
  · intro h m' hbelow
    cases hbelow with
    | here => exact fun e he => ⟨(h e he).1, (h e he).2.1⟩
    | member hmem hbelow => exact (h _ hmem).2.2 m' hbelow

theorem tidy_of_asObject (h : v.asObject = none) : Tidy v := by
  intro m hbelow
  cases hbelow with
  | here => cases h
  | member => cases h

/-- A tidy value has supported keys in all its schemas. -/
theorem Tidy.onlySupported (h : Tidy v) : OnlySupported v := by
  intro m hbelow
  generalize hs : Value.object m = s at hbelow
  induction hbelow with
  | here v =>
    subst hs
    exact fun e he => (tidy_object_iff.mp h e he).1
  | property hown hname _ ih =>
    have hproperties := tidy_object_iff.mp (tidy_object_iff.mp h _ hown).2.2
    exact ih (hproperties _ hname).2.2 hs
  | member _ hmem _ ih => exact ih (tidy_object_iff.mp h _ hmem).2.2 hs
  | item hkey hmem hitem hbelow _ =>
    subst hs
    exact (tidy_object_iff.mp h _ hmem).2.1 hkey _ rfl _ hitem m hbelow

end

/-! ## The walk -/

/-- The alternatives of a member that is dropped, or the value of one that is kept, meet the
condition; a list of schemas that is kept is supported. -/
def SparedMember (P : Value → Prop) (e : String × Value) : Prop :=
  (e.1 ∈ ["oneOf", "anyOf", "allOf"] → ∀ alternatives, e.2 = .array alternatives → ∀ a ∈ alternatives, P a)
    ∧ (geminiSchemaDropKey e.1 = false → P e.2 ∧ ListSupported e)

/-- The members that a definition takes from the schema that refers to it. -/
def takenSiblings (replacement object : Members) : Members :=
  object.filter fun e => !geminiSchemaDropKey e.1 && !Members.containsKey e.1 replacement

section

variable (definitions : Members)

/-- Wherever the walk over the value comes, the lists of schemas are supported, a definition that is
referred to is no list that is not, and what is left on the last level is tidy. -/
def WalkSpares : ℕ → List String → Value → Prop
  | 0, _, v => Tidy v
  | levels + 1, resolving, .object m =>
    match localReference m with
    | some name =>
      if name ∈ resolving then True
      else
        match definitions.get name with
        | some (.object replacement) =>
          WalkSpares levels (name :: resolving) (.object (replacement ++ takenSiblings replacement m))
        | some definition => ∀ l, definition = .array l → ∀ x ∈ l, OnlySupported x
        | none => ∀ e ∈ m, SparedMember (WalkSpares levels resolving) e
    | none => ∀ e ∈ m, SparedMember (WalkSpares levels resolving) e
  | _, _, _ => True

variable {definitions} {levels : ℕ} {resolving : List String} {v : Value} {m m' : Members}

theorem ne_of_kept {e : String × Value} {key : String} (h : geminiSchemaDropKey e.1 = false)
    (hkey : geminiSchemaDropKey key = true) : e.1 ≠ key := by
  intro heq
  rw [heq, hkey] at h
  cases h

theorem dropKey_of_alternatives {key : String} (h : key ∈ ["oneOf", "anyOf", "allOf"]) :
    geminiSchemaDropKey key = true := by
  revert key
  decide

theorem localReference_congr (h : m'.get "$ref" = m.get "$ref") : localReference m' = localReference m := by
  rw [localReference, localReference, h]

/-- A tidy object refers to nothing. -/
theorem localReference_of_tidy (h : Tidy (.object m)) : localReference m = none := by
  rw [localReference]
  cases hget : m.get "$ref" with
  | none => rfl
  | some v =>
    have hkept := (tidy_object_iff.mp h _ (Members.mem_of_get hget)).1
    exact absurd rfl (ne_of_kept hkept rfl)

theorem sparedMember_of_tidy {P : Value → Prop} (hP : ∀ {v}, Tidy v → P v) {e : String × Value}
    (h : TidyMember e) : SparedMember P e := by
  obtain ⟨hkept, hlist, hvalue⟩ := h
  refine ⟨fun hkey => ?_, fun _ => ⟨hP hvalue, hlist⟩⟩
  rw [dropKey_of_alternatives hkey] at hkept
  cases hkept

/-- Nothing is left to do on a tidy value. -/
theorem walkSpares_of_tidy (h : Tidy v) : WalkSpares definitions levels resolving v := by
  induction levels generalizing resolving v with
  | zero => exact h
  | succ levels ih =>
    cases v with
    | object m =>
      rw [WalkSpares, localReference_of_tidy h]
      exact fun e he => sparedMember_of_tidy ih (tidy_object_iff.mp h e he)
    | _ => trivial

theorem get_append_takenSiblings (replacement object : Members) :
    Members.get "$ref" (replacement ++ takenSiblings replacement object) = Members.get "$ref" replacement := by
  have hnone : Members.get "$ref" (takenSiblings replacement object) = none := by
    by_contra hsome
    obtain ⟨v, hv⟩ := Option.ne_none_iff_exists'.mp hsome
    have hkept := (List.mem_filter.mp (Members.mem_of_get hv)).2
    cases hkept
  generalize takenSiblings replacement object = taken at hnone ⊢
  induction replacement with
  | nil => exact hnone
  | cons e rest ih => rw [List.cons_append, Members.get, Members.get, ih]

/-- More members that are tidy, and no other reference, change nothing. -/
theorem WalkSpares.grow (h : WalkSpares definitions levels resolving (.object m))
    (href : m'.get "$ref" = m.get "$ref") (hgrow : ∀ e ∈ m', e ∈ m ∨ TidyMember e) :
    WalkSpares definitions levels resolving (.object m') := by
  induction levels generalizing resolving m m' with
  | zero =>
    rw [WalkSpares, tidy_object_iff] at h ⊢
    exact fun e he => (hgrow e he).elim (h e) id
  | succ levels ih =>
    have hmembers : (∀ e ∈ m, SparedMember (WalkSpares definitions levels resolving) e) →
        ∀ e ∈ m', SparedMember (WalkSpares definitions levels resolving) e := by
      intro hm e he
      rcases hgrow e he with he | he
      · exact hm e he
      · exact sparedMember_of_tidy walkSpares_of_tidy he
    rw [WalkSpares] at h ⊢
    rw [localReference_congr href]
    split
    · rename_i name hname
      rw [hname] at h
      dsimp only at h
      split
      · trivial
      · rename_i hopen
        rw [if_neg hopen] at h
        split
        · rename_i replacement hreplacement
          rw [hreplacement] at h
          -- the definition takes the same members from both, and tidy ones
          refine ih h ?_ fun e he => ?_
          · rw [get_append_takenSiblings, get_append_takenSiblings]
          · rcases List.mem_append.mp he with he | he
            · exact .inl (List.mem_append_left _ he)
            · rw [takenSiblings, List.mem_filter] at he
              refine (hgrow e he.1).imp_left fun hm => List.mem_append_right _ ?_
              exact List.mem_filter.mpr ⟨hm, he.2⟩
        · rename_i definition hno hdefinition
          rw [hdefinition] at h
          cases definition with
          | object replacement => exact absurd rfl (hno replacement)
          | _ => exact h
        · rename_i hdefinition
          rw [hdefinition] at h
          exact hmembers h
    · rename_i hnone
      rw [hnone] at h
      exact hmembers h

theorem withSiblings_of_asObject {definition : Value} (h : definition.asObject = none) (object : Members) :
    withSiblings definition object = definition := by
  cases definition with
  | object => cases h
  | _ => rfl

/-- A definition while members are taken from the schema that refers to it. -/
structure TakesFrom (replacement object all : Members) : Prop where
  keys : ∀ k, Members.containsKey k replacement = true → Members.containsKey k all = true
  reference : Members.get "$ref" all = Members.get "$ref" replacement
  members : ∀ e ∈ all, e ∈ replacement ++ takenSiblings replacement object

theorem TakesFrom.orInsert {replacement object all : Members} {key : String} {sibling : Value}
    (h : TakesFrom replacement object all) (hmem : (key, sibling) ∈ object)
    (hkept : key ≠ "$ref" ∧ geminiSchemaDropKey key = false) :
    TakesFrom replacement object (Members.orInsert key sibling all) := by
  obtain ⟨href, hkept⟩ := hkept
  rw [Members.orInsert]
  split
  · exact h
  · rename_i hnew
    refine ⟨fun k hk => ?_, ?_, fun e he => ?_⟩
    · have hall := h.keys k hk
      rw [Members.containsKey] at hall ⊢
      by_cases heq : k = key
      · rw [heq, Members.get_insert_self]
        rfl
      · rwa [Members.get_insert_ne heq]
    · rw [Members.get_insert_ne href.symm, h.reference]
    · rcases Members.mem_insert he with rfl | he
      · refine List.mem_append_right _ (List.mem_filter.mpr ⟨hmem, ?_⟩)
        have hno : Members.containsKey key replacement = false :=
          Bool.eq_false_iff.mpr fun hk => hnew (h.keys key hk)
        rw [hkept, hno]
        rfl
      · exact h.members e he

theorem takesFrom_foldl {replacement object all : Members} {siblings : Members}
    (hsiblings : ∀ e ∈ siblings, e ∈ object) (h : TakesFrom replacement object all) :
    TakesFrom replacement object (siblings.foldl (fun all (key, sibling) =>
      if key ≠ "$ref" ∧ geminiSchemaDropKey key = false then Members.orInsert key sibling all else all) all) := by
  induction siblings generalizing all with
  | nil => exact h
  | cons e rest ih =>
    rw [List.foldl_cons]
    refine ih (fun e he => hsiblings e (List.mem_cons_of_mem _ he)) ?_
    dsimp only
    split
    · rename_i hkept
      exact h.orInsert (hsiblings e List.mem_cons_self) hkept
    · exact h

theorem walkSpares_withSiblings {replacement : Members}
    (h : WalkSpares definitions levels resolving (.object (replacement ++ takenSiblings replacement m))) :
    WalkSpares definitions levels resolving (withSiblings (.object replacement) m) := by
  have htakes := takesFrom_foldl (fun e he => he)
    (TakesFrom.mk (fun k hk => hk) rfl fun e he => List.mem_append_left (takenSiblings replacement m) he)
  refine h.grow ?_ fun e he => .inl (htakes.members e he)
  rw [htakes.reference, get_append_takenSiblings]

end

/-! ## Alternatives -/

theorem get_ref_foldl_orInsert {new own : Members} (h : ∀ e ∈ new, TidyMember e) :
    Members.get "$ref" (new.foldl (fun all (name, schema) => Members.orInsert name schema all) own)
      = Members.get "$ref" own := by
  induction new generalizing own with
  | nil => rfl
  | cons e rest ih =>
    rw [List.foldl_cons, ih fun e he => h e (List.mem_cons_of_mem _ he)]
    show Members.get "$ref" (Members.orInsert e.1 e.2 own) = _
    rw [Members.orInsert]
    split
    · rfl
    · rw [Members.get_insert_ne (ne_of_kept (h e List.mem_cons_self).1 rfl).symm]

/-- What is made of a value is tidy; a list was there already, or it is supported. -/
def Settles (v w : Value) : Prop :=
  Tidy w ∧ ∀ l, w = .array l → v = .array l ∨ ∀ x ∈ l, OnlySupported x

section

variable {P : Value → Prop} {sanitize : Value → Value} {object properties : Members} {key : String}

theorem tidyMember_of_asObject {v : Value} (hkept : geminiSchemaDropKey key = false)
    (hkey : key ∉ ["items", "prefixItems"]) (h : v.asObject = none) : TidyMember (key, v) :=
  ⟨hkept, fun hlist => absurd hlist hkey, tidy_of_asObject h⟩

theorem spared_insert {v : Value} (h : ∀ e ∈ object, SparedMember P e) (hv : SparedMember P (key, v)) :
    ∀ e ∈ object.insert key v, SparedMember P e := by
  intro e he
  rcases Members.mem_insert he with rfl | he
  · exact hv
  · exact h e he

theorem spared_orInsert {v : Value} (h : ∀ e ∈ object, SparedMember P e) (hv : SparedMember P (key, v)) :
    ∀ e ∈ object.orInsert key v, SparedMember P e := by
  intro e he
  rcases Members.mem_orInsert he with rfl | he
  · exact hv
  · exact h e he

theorem spared_remove (h : ∀ e ∈ object, SparedMember P e) : ∀ e ∈ object.remove key, SparedMember P e :=
  fun e he => h e (List.mem_filter.mp he).1

/-- The loop over the alternatives holds tidy members only. -/
structure MergedAlternatives.AllTidy (merged : MergedAlternatives) : Prop where
  properties : ∀ e ∈ merged.mergedProperties, TidyMember e
  fallback : ∀ fallback, merged.fallback = some fallback → ∀ e ∈ fallback, TidyMember e

theorem MergedAlternatives.AllTidy.add {merged : MergedAlternatives} (h : merged.AllTidy) {alternative : Value}
    (htidy : Tidy alternative) : (merged.add alternative).AllTidy := by
  cases alternative with
  | object m =>
    rw [MergedAlternatives.add]
    split
    · refine ⟨fun e he => ?_, h.fallback⟩
      rcases Members.mem_foldl_orInsert he with he | he
      · exact h.properties e he
      · cases hget : Members.get "properties" m with
        | none =>
          rw [hget] at he
          cases he
        | some v =>
          rw [hget] at he
          cases v with
          | object own => exact tidy_object_iff.mp (tidy_object_iff.mp htidy _ (Members.mem_of_get hget)).2.2 e he
          | _ => cases he
    · refine ⟨h.properties, fun fallback hfallback => ?_⟩
      dsimp only at hfallback
      cases hm : merged.fallback with
      | none =>
        rw [hm] at hfallback
        cases hfallback
        exact tidy_object_iff.mp htidy
      | some earlier =>
        rw [hm] at hfallback
        cases hfallback
        exact h.fallback _ hm
  | _ => exact h

theorem allTidy_mergedAlternatives {alternatives : List Value}
    (h : ∀ a ∈ alternatives, Tidy (sanitize a)) : (mergedAlternatives sanitize alternatives).AllTidy := by
  rw [mergedAlternatives]
  have hstart : MergedAlternatives.AllTidy ⟨[], none, false, none⟩ :=
    ⟨fun e he => absurd he List.not_mem_nil, fun _ h => by cases h⟩
  generalize (⟨[], none, false, none⟩ : MergedAlternatives) = merged at hstart
  induction alternatives generalizing merged with
  | nil => exact hstart
  | cons a rest ih =>
    exact ih (fun a ha => h a (List.mem_cons_of_mem _ ha)) _ (hstart.add (h a List.mem_cons_self))

/-- What a step of the walk knows of the values below. -/
structure WalksBelow (P : Value → Prop) (sanitize : Value → Value) : Prop where
  tidy : ∀ {v}, Tidy v → P v
  grow : ∀ {m m' : Members}, P (.object m) → m'.get "$ref" = m.get "$ref" →
    (∀ e ∈ m', e ∈ m ∨ TidyMember e) → P (.object m')
  settles : ∀ {v}, P v → Settles v (sanitize v)

theorem spared_mergeProperties (hbelow : WalksBelow P sanitize) (h : ∀ e ∈ object, SparedMember P e)
    (hproperties : ∀ e ∈ properties, TidyMember e) :
    ∀ e ∈ mergeProperties properties object, SparedMember P e := by
  have hspared : ∀ {v : Value}, P v → SparedMember P ("properties", v) := by
    intro v hv
    have hkeys : "properties" ∉ ["oneOf", "anyOf", "allOf"] ∧ "properties" ∉ ["items", "prefixItems"] := by decide
    exact ⟨fun hkey => absurd hkey hkeys.1, fun _ => ⟨hv, fun hkey => absurd hkey hkeys.2⟩⟩
  rw [mergeProperties]
  split
  · rename_i own hown
    have hvalue := ((h _ (Members.mem_of_get hown)).2 rfl).1
    refine spared_insert h (hspared (hbelow.grow hvalue (get_ref_foldl_orInsert hproperties) fun e he => ?_))
    exact (Members.mem_foldl_orInsert he).imp_right (hproperties e)
  · split
    · exact h
    · exact spared_insert h (hspared (hbelow.tidy (tidy_object_iff.mpr hproperties)))

theorem spared_mergeGeminiSchemaAlternatives (hbelow : WalksBelow P sanitize) {alternatives : List Value}
    (h : ∀ e ∈ object, SparedMember P e) (halternatives : ∀ a ∈ alternatives, P a) :
    ∀ e ∈ mergeGeminiSchemaAlternatives sanitize object alternatives, SparedMember P e := by
  have hall := allTidy_mergedAlternatives fun a ha => (hbelow.settles (halternatives a ha)).1
  have htidy : ∀ {e}, TidyMember e → SparedMember P e := sparedMember_of_tidy hbelow.tidy
  rw [mergeGeminiSchemaAlternatives]
  dsimp only
  split
  · have htype : TidyMember ("type", .string "object") := tidyMember_of_asObject rfl (by decide) rfl
    have hmerged := spared_mergeProperties hbelow (spared_orInsert h (htidy htype)) hall.properties
    split
    · exact hmerged
    · exact spared_orInsert hmerged (htidy (tidyMember_of_asObject rfl (by decide) rfl))
  · split
    · rename_i fallback hfallback
      refine List.foldlRecOn (motive := fun object => ∀ e ∈ object, SparedMember P e) _ _ h
        fun object hobject key _ => ?_
      split
      · rename_i value hvalue
        exact spared_orInsert hobject (htidy (hall.fallback _ hfallback _ (Members.mem_of_get hvalue)))
      · exact hobject
    · exact h

theorem spared_mergeAlternativesAt (hbelow : WalksBelow P sanitize) (h : ∀ e ∈ object, SparedMember P e)
    (hkey : key ∈ ["oneOf", "anyOf", "allOf"]) :
    ∀ e ∈ mergeAlternativesAt sanitize object key, SparedMember P e := by
  rw [mergeAlternativesAt]
  split
  · rename_i alternatives halternatives
    obtain ⟨v, hv, harray⟩ := Option.bind_eq_some_iff.mp halternatives
    rw [Value.asArray_eq_some] at harray
    exact spared_mergeGeminiSchemaAlternatives hbelow (spared_remove h)
      ((h _ (Members.mem_of_get hv)).1 hkey alternatives harray)
  · exact spared_remove h

theorem spared_mergedMembers (hbelow : WalksBelow P sanitize) (h : ∀ e ∈ object, SparedMember P e) :
    ∀ e ∈ mergedMembers sanitize object, SparedMember P e := by
  rw [mergedMembers]
  exact List.foldlRecOn (motive := fun object => ∀ e ∈ object, SparedMember P e) _ _ h
    fun object hobject key hkey => spared_mergeAlternativesAt hbelow hobject hkey

/-- A step of the walk makes the members of an object tidy. -/
theorem tidy_walkedMembers (hbelow : WalksBelow P sanitize) (h : ∀ e ∈ object, SparedMember P e) :
    Tidy (.object (selectType (Members.mapKept (fun key => !geminiSchemaDropKey key) sanitize object))) := by
  have hkept : ∀ e ∈ Members.mapKept (fun key => !geminiSchemaDropKey key) sanitize object, TidyMember e := by
    intro e he
    rw [Members.mapKept, List.mem_map] at he
    obtain ⟨⟨key, v⟩, hmem, rfl⟩ := he
    obtain ⟨hmem, hkey⟩ := List.mem_filter.mp hmem
    rw [Bool.not_eq_true'] at hkey
    obtain ⟨hv, hlist⟩ := (h _ hmem).2 hkey
    obtain ⟨htidy, harray⟩ := hbelow.settles hv
    refine ⟨hkey, fun hitems l hl => ?_, htidy⟩
    exact (harray l hl).elim (hlist hitems l) id
  generalize Members.mapKept _ sanitize object = kept at hkept
  rw [tidy_object_iff, selectType]
  split
  · split
    · intro e he
      rcases Members.mem_insert he with rfl | he
      · exact tidyMember_of_asObject rfl (by decide) rfl
      · exact hkept e he
    · exact fun e he => hkept e (List.mem_filter.mp he).1
  · exact hkept

end

/-! ## Supported keywords -/

section

variable {definitions : Members} {levels : ℕ} {resolving : List String} {v : Value}

/-- The object for a definition that is being walked over. -/
theorem tidy_resolving : Tidy (.object [("additionalProperties", .bool true), ("type", .string "object")]) := by
  rw [tidy_object_iff]
  intro e he
  simp only [List.mem_cons, List.not_mem_nil, or_false] at he
  rcases he with rfl | rfl
  · exact tidyMember_of_asObject rfl (by decide) rfl
  · exact tidyMember_of_asObject rfl (by decide) rfl

/-- The walk settles every value that meets the condition. -/
theorem settles_sanitize (h : WalkSpares definitions levels resolving v) :
    Settles v (sanitizeGeminiSchemaValue definitions levels resolving v) := by
  induction levels generalizing resolving v with
  | zero =>
    rw [sanitize_zero]
    exact ⟨h, fun l hl => .inl hl⟩
  | succ levels ih =>
    cases v with
    | object m =>
      have hobject : ∀ all : Members, Tidy (.object all) → Settles (.object m) (.object all) :=
        fun all hall => ⟨hall, fun l hl => by cases hl⟩
      have hbelow : WalksBelow (WalkSpares definitions levels resolving)
          (sanitizeGeminiSchemaValue definitions levels resolving) :=
        ⟨walkSpares_of_tidy, WalkSpares.grow, ih⟩
      have hmembers : (∀ e ∈ m, SparedMember (WalkSpares definitions levels resolving) e) →
          Settles (.object m) (.object (selectType (Members.mapKept (fun key => !geminiSchemaDropKey key)
            (sanitizeGeminiSchemaValue definitions levels resolving)
            (mergedMembers (sanitizeGeminiSchemaValue definitions levels resolving) m)))) :=
        fun hm => hobject _ (tidy_walkedMembers hbelow (spared_mergedMembers hbelow hm))
      rw [WalkSpares] at h
      rw [sanitizeGeminiSchemaValue]
      dsimp only
      split
      · rename_i name hname
        rw [hname] at h
        dsimp only at h
        split
        -- the definition is being walked over
        · exact hobject _ tidy_resolving
        · rename_i hopen
          rw [if_neg hopen] at h
          split
          · rename_i definition hdefinition
            rw [hdefinition] at h
            cases definition with
            | object replacement =>
              obtain ⟨htidy, harray⟩ := ih (walkSpares_withSiblings h)
              exact ⟨htidy, fun l hl => (harray l hl).imp_left fun heq => by cases heq⟩
            -- a list takes no members, and the walk leaves it
            | array items =>
              rw [withSiblings_of_asObject rfl, sanitize_of_asObject definitions rfl]
              exact ⟨tidy_of_asObject rfl, fun l hl => .inr (h l hl)⟩
            | _ =>
              rw [withSiblings_of_asObject rfl, sanitize_of_asObject definitions rfl]
              exact ⟨tidy_of_asObject rfl, fun l hl => .inr (h l hl)⟩
          -- a reference that leads nowhere is dropped with the other keywords
          · rename_i hdefinition
            rw [hdefinition] at h
            exact hmembers h
      · rename_i hnone
        rw [hnone] at h
        exact hmembers h
    | _ =>
      rw [sanitize_of_asObject definitions rfl]
      exact ⟨tidy_of_asObject rfl, fun l hl => .inl hl⟩

end

/-- Sanitized parameters have supported keywords only, where all lists of schemas the walk comes to
have, and where nothing else is left on the last level. -/
theorem onlySupported_simplified {parameters : Value}
    (h : WalkSpares (schemaDefinitions parameters) geminiSchemaLevels [] parameters) :
    OnlySupported (simplifyGeminiFunctionParameters parameters) :=
  (settles_sanitize h).1.onlySupported

/-- A definition with a keyword that is dropped and a list of supported schemas. -/
theorem onlySupported_point :
    let point : Members := [("const", .null), ("items", .array [.object [("type", .string "number")]])]
    let parameters : Value :=
      .object [("$defs", .object [("point", .object point)]), ("$ref", .string "#/$defs/point")]
    OnlySupported (simplifyGeminiFunctionParameters parameters) := by
  intro point parameters
  apply onlySupported_simplified
  have hnumber : Tidy (.object [("type", .string "number")]) := by
    rw [tidy_object_iff]
    intro e he
    rw [List.mem_singleton.mp he]
    exact tidyMember_of_asObject rfl (by decide) rfl
  show WalkSpares (schemaDefinitions parameters) (24 + 1) [] parameters
  have href : localReference [("$defs", .object [("point", .object point)]), ("$ref", .string "#/$defs/point")]
      = some "point" := by decide +kernel
  have hdefinition : (schemaDefinitions parameters).get "point" = some (.object point) := by decide +kernel
  have hnone : localReference point = none := by decide +kernel
  have htaken : point ++ takenSiblings point
      [("$defs", .object [("point", .object point)]), ("$ref", .string "#/$defs/point")] = point := by decide +kernel
  rw [WalkSpares, href]
  dsimp only
  rw [if_neg List.not_mem_nil, hdefinition]
  dsimp only
  rw [htaken]
  show WalkSpares _ (23 + 1) _ _
  rw [WalkSpares, hnone]
  intro e he
  simp only [point, List.mem_cons, List.not_mem_nil, or_false] at he
  rcases he with rfl | rfl
  · exact ⟨fun hkey => absurd hkey (by decide), fun hkept => absurd hkept (by decide)⟩
  · refine ⟨fun hkey => absurd hkey (by decide +revert), fun _ => ⟨trivial, fun _ l hl x hx => ?_⟩⟩
    cases hl
    rw [List.mem_singleton.mp hx]
    exact hnumber.onlySupported

/-- A list of schemas is not walked over. -/
theorem not_onlySupported_items :
    ¬ ∀ parameters, nesting parameters ≤ 24 → OnlySupported (simplifyGeminiFunctionParameters parameters) := by
  intro h
  let point : Value := .object [("items", .array [.object [("const", .bool true)]]), ("type", .string "array")]
  let parameters : Value := .object [("properties", .object [("point", point)]), ("type", .string "object")]
  have hsimplified : simplifyGeminiFunctionParameters parameters = parameters := by decide +kernel
  have hbelow : SchemaBelow parameters (.object [("const", .bool true)]) :=
    .property List.mem_cons_self List.mem_cons_self
      (.item (by decide) List.mem_cons_self List.mem_cons_self (.here _))
  have hsupported := h parameters (by decide +kernel)
  rw [hsimplified] at hsupported
  exact absurd (hsupported _ hbelow _ List.mem_cons_self) (by decide)

end CodexRouter
