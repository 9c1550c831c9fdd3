/-
# The strings of a JSON value

`Value.strings` lists the strings of a value in the order in which a walk meets them.
A function that is applied to all of them (`Value.mapStrings`) keeps the shape of the
value, and what it does is decided by what it does on this list.
-/
import CodexRouter.Base.JsonText

/-- A member after an insertion is the new one or an old one. -/
theorem Members.mem_insert {k : String} {v : Value} {m : Members} {e : String × Value} (h : e ∈ m.insert k v) :
    e = (k, v) ∨ e ∈ m := by
  induction m with
  | nil => exact .inl (List.mem_singleton.mp h)
  | cons e' rest ih =>
    obtain ⟨k', v'⟩ := e'
    rw [Members.insert] at h
    split at h
    · rcases List.mem_cons.mp h with h | h
      · exact .inl h
      · exact .inr (List.mem_cons_of_mem _ h)
    split at h
    · exact List.mem_cons.mp h
    · rcases List.mem_cons.mp h with h | h
      · exact .inr (h ▸ List.mem_cons_self)
      · exact (ih h).imp_right (List.mem_cons_of_mem _)

/-- What is read under a key is a member. -/
theorem Members.mem_of_get {k : String} {v : Value} {m : Members} (h : m.get k = some v) : (k, v) ∈ m := by
  induction m with
  | nil => cases h
  | cons e rest ih =>
    obtain ⟨k', v'⟩ := e
    rw [Members.get] at h
    split at h
    · rename_i hk
      rw [hk, Option.some.inj h]
      exact List.mem_cons_self
    · exact List.mem_cons_of_mem _ (ih h)

namespace Value

mutual

/-- The strings of a value; keys are none. -/
def strings : Value → List String
  | .string s => [s]
  | .array items => stringsItems items
  | .object entries => stringsEntries entries
  | _ => []
termination_by structural v => v

def stringsItems : List Value → List String
  | [] => []
  | v :: rest => strings v ++ stringsItems rest
termination_by structural items => items

def stringsEntry : String × Value → List String
  | (_, v) => strings v
termination_by structural e => e

def stringsEntries : List (String × Value) → List String
  | [] => []
  | e :: rest => stringsEntry e ++ stringsEntries rest
termination_by structural entries => entries

end

variable {f g : String → String} {R : String → String → Prop}

mutual

theorem strings_mapStrings (f : String → String) : ∀ v : Value, strings (mapStrings f v) = (strings v).map f
  | .null => rfl
  | .bool _ => rfl
  | .number _ => rfl
  | .string _ => rfl
  | .array items => stringsItems_mapStrings f items
  | .object entries => stringsEntries_mapStrings f entries
termination_by structural v => v

theorem stringsItems_mapStrings (f : String → String) :
    ∀ items : List Value, stringsItems (mapStringsItems f items) = (stringsItems items).map f
  | [] => rfl
  | v :: rest => by
    rw [mapStringsItems, stringsItems, stringsItems, List.map_append, strings_mapStrings f v,
      stringsItems_mapStrings f rest]
termination_by structural items => items

theorem stringsEntry_mapStrings (f : String → String) :
    ∀ e : String × Value, stringsEntry (mapStringsEntry f e) = (stringsEntry e).map f
  | (_, v) => strings_mapStrings f v
termination_by structural e => e

theorem stringsEntries_mapStrings (f : String → String) :
    ∀ entries : List (String × Value), stringsEntries (mapStringsEntries f entries) = (stringsEntries entries).map f
  | [] => rfl
  | e :: rest => by
    rw [mapStringsEntries, stringsEntries, stringsEntries, List.map_append, stringsEntry_mapStrings f e,
      stringsEntries_mapStrings f rest]
termination_by structural entries => entries

end

mutual

/-- Functions that agree on the strings of a value do the same to it. -/
theorem mapStrings_congr : ∀ {v : Value}, (∀ s ∈ strings v, f s = g s) → mapStrings f v = mapStrings g v
  | .null, _ => rfl
  | .bool _, _ => rfl
  | .number _, _ => rfl
  | .string s, h => congrArg Value.string (h s List.mem_cons_self)
  | .array _, h => congrArg Value.array (mapStringsItems_congr h)
  | .object _, h => congrArg Value.object (mapStringsEntries_congr h)
termination_by structural v => v

theorem mapStringsItems_congr : ∀ {items : List Value}, (∀ s ∈ stringsItems items, f s = g s) →
    mapStringsItems f items = mapStringsItems g items
  | [], _ => rfl
  | v :: rest, h => by
    rw [stringsItems] at h
    rw [mapStringsItems, mapStringsItems, mapStrings_congr fun s hs => h s (List.mem_append_left _ hs),
      mapStringsItems_congr fun s hs => h s (List.mem_append_right _ hs)]
termination_by structural items => items

theorem mapStringsEntry_congr : ∀ {e : String × Value}, (∀ s ∈ stringsEntry e, f s = g s) →
    mapStringsEntry f e = mapStringsEntry g e
  | (k, _), h => congrArg (Prod.mk k) (mapStrings_congr h)
termination_by structural e => e

theorem mapStringsEntries_congr : ∀ {entries : List (String × Value)}, (∀ s ∈ stringsEntries entries, f s = g s) →
    mapStringsEntries f entries = mapStringsEntries g entries
  | [], _ => rfl
  | e :: rest, h => by
    rw [stringsEntries] at h
    rw [mapStringsEntries, mapStringsEntries, mapStringsEntry_congr fun s hs => h s (List.mem_append_left _ hs),
      mapStringsEntries_congr fun s hs => h s (List.mem_append_right _ hs)]
termination_by structural entries => entries

end

mutual

theorem mapStrings_id : ∀ v : Value, mapStrings id v = v
  | .null => rfl
  | .bool _ => rfl
  | .number _ => rfl
  | .string _ => rfl
  | .array items => congrArg Value.array (mapStringsItems_id items)
  | .object entries => congrArg Value.object (mapStringsEntries_id entries)
termination_by structural v => v

theorem mapStringsItems_id : ∀ items : List Value, mapStringsItems id items = items
  | [] => rfl
  | v :: rest => by rw [mapStringsItems, mapStrings_id v, mapStringsItems_id rest]
termination_by structural items => items

theorem mapStringsEntry_id : ∀ e : String × Value, mapStringsEntry id e = e
  | (k, v) => congrArg (Prod.mk k) (mapStrings_id v)
termination_by structural e => e

theorem mapStringsEntries_id : ∀ entries : List (String × Value), mapStringsEntries id entries = entries
  | [] => rfl
  | e :: rest => by rw [mapStringsEntries, mapStringsEntry_id e, mapStringsEntries_id rest]
termination_by structural entries => entries

end

/-- A value whose strings stay is unchanged. -/
theorem mapStrings_eq_self {v : Value} (h : ∀ s ∈ strings v, f s = s) : mapStrings f v = v :=
  (mapStrings_congr h).trans (mapStrings_id v)

mutual

theorem rel_mapStrings (h : ∀ s, R s (f s)) : ∀ v : Value, JsonForm.Rel R (.value v) (.value (mapStrings f v))
  | .null => .null
  | .bool b => .bool b
  | .number n => .number n
  | .string s => .string (h s)
  | .array items => .array (rel_mapStringsItems h items)
  | .object entries => .object (rel_mapStringsEntries h entries)
termination_by structural v => v

theorem rel_mapStringsItems (h : ∀ s, R s (f s)) :
    ∀ items : List Value, JsonForm.Rel R (.items items) (.items (mapStringsItems f items))
  | [] => .noItems
  | v :: rest => .item (rel_mapStrings h v) (rel_mapStringsItems h rest)
termination_by structural items => items

theorem rel_mapStringsEntry (h : ∀ s, R s (f s)) : ∀ (e : String × Value) {rest rest' : Members},
    JsonForm.Rel R (.entries rest) (.entries rest') →
      JsonForm.Rel R (.entries (e :: rest)) (.entries (mapStringsEntry f e :: rest'))
  | (_, v), _, _, hrest => .entry (rel_mapStrings h v) hrest
termination_by structural e => e

theorem rel_mapStringsEntries (h : ∀ s, R s (f s)) :
    ∀ entries : List (String × Value), JsonForm.Rel R (.entries entries) (.entries (mapStringsEntries f entries))
  | [] => .noEntries
  | e :: rest => rel_mapStringsEntry h e (rel_mapStringsEntries h rest)
termination_by structural entries => entries

end

theorem stringsEntry_eq (e : String × Value) : stringsEntry e = strings e.2 := by
  obtain ⟨k, v⟩ := e
  rfl

/-- The strings of an object are those of its members. -/
theorem mem_stringsEntries {s : String} {m : Members} (h : s ∈ stringsEntries m) : ∃ e ∈ m, s ∈ strings e.2 := by
  induction m with
  | nil => cases h
  | cons e rest ih =>
    rw [stringsEntries, stringsEntry_eq] at h
    rcases List.mem_append.mp h with h | h
    · exact ⟨e, List.mem_cons_self, h⟩
    · obtain ⟨e', he', hs⟩ := ih h
      exact ⟨e', List.mem_cons_of_mem _ he', hs⟩

theorem strings_subset_stringsEntries {e : String × Value} {m : Members} (h : e ∈ m) :
    strings e.2 ⊆ stringsEntries m := by
  induction m with
  | nil => cases h
  | cons e' rest ih =>
    rw [stringsEntries, stringsEntry_eq]
    rcases List.mem_cons.mp h with rfl | h
    · exact List.subset_append_left _ _
    · exact List.subset_append_of_subset_right _ (ih h)

/-- Writing a member brings in the strings of its value only. -/
theorem stringsEntries_insert_subset (k : String) (v : Value) (m : Members) :
    stringsEntries (Members.insert k v m) ⊆ strings v ++ stringsEntries m := by
  intro s hs
  obtain ⟨e, he, hs⟩ := mem_stringsEntries hs
  rcases Members.mem_insert he with rfl | he
  · exact List.mem_append_left _ hs
  · exact List.mem_append_right _ (strings_subset_stringsEntries he hs)

theorem strings_insert_subset (v : Value) (k : String) (x : Value) :
    strings (v.insert k x) ⊆ strings x ++ strings v := by
  cases v with
  | object m => exact stringsEntries_insert_subset k x m
  | _ => exact List.subset_append_right _ _

/-- The strings of a member are strings of the object. -/
theorem strings_subset_of_get {k : String} {v x : Value} (h : v.get k = some x) : strings x ⊆ strings v := by
  obtain ⟨m, rfl, hget⟩ := exists_object_of_get h
  exact strings_subset_stringsEntries (Members.mem_of_get hget)

end Value
