/-
# The member names of a JSON value

The names of all members of a value, at any depth, and the value without the members of some names.  What is left has
none of these names (`notMem_keys_prune`), and a value that has none of them stays as it is (`prune_eq_self`).
-/
import CodexRouter.Base.JsonLeaves

namespace Value

/-! ## Names -/

mutual

/-- The names of the members of a value, at any depth. -/
def keys : Value → List String
  | .array items => keysItems items
  | .object entries => keysEntries entries
  | _ => []
termination_by structural v => v

def keysItems : List Value → List String
  | [] => []
  | v :: rest => keys v ++ keysItems rest
termination_by structural items => items

def keysEntry : String × Value → List String
  | (k, v) => k :: keys v
termination_by structural e => e

def keysEntries : List (String × Value) → List String
  | [] => []
  | e :: rest => keysEntry e ++ keysEntries rest
termination_by structural entries => entries

end

theorem keysEntry_eq (e : String × Value) : keysEntry e = e.1 :: keys e.2 := by
  obtain ⟨k, v⟩ := e
  rfl

theorem mem_keysEntries {name : String} {m : Members} : name ∈ keysEntries m ↔ ∃ e ∈ m, name = e.1 ∨ name ∈ keys e.2 := by
  induction m with
  | nil => simp [keysEntries]
  | cons e rest ih => rw [keysEntries, List.mem_append, ih, keysEntry_eq, List.mem_cons, List.exists_mem_cons_iff]

/-- Writing a member brings in its name and the names in its value. -/
theorem mem_keysEntries_insert {name k : String} {v : Value} {m : Members} (h : name ∈ keysEntries (m.insert k v)) :
    name = k ∨ name ∈ keys v ∨ name ∈ keysEntries m := by
  obtain ⟨e, he, hname⟩ := mem_keysEntries.mp h
  rcases Members.mem_insert he with rfl | he
  · exact hname.imp_right Or.inl
  · exact Or.inr (Or.inr (mem_keysEntries.mpr ⟨e, he, hname⟩))

/-- What is read in a value has the names of the value. -/
theorem keys_subset_of_get {k : String} {v x : Value} (h : v.get k = some x) : keys x ⊆ keys v := by
  obtain ⟨m, rfl, hget⟩ := exists_object_of_get h
  exact fun name hname => mem_keysEntries.mpr ⟨(k, x), Members.mem_of_get hget, Or.inr hname⟩

/-! ## Values without some names -/

mutual

/-- A value without the members of some names, at any depth. -/
def prune (p : String → Bool) : Value → Value
  | .array items => .array (pruneItems p items)
  | .object entries => .object (pruneEntries p entries)
  | v => v
termination_by structural v => v

def pruneItems (p : String → Bool) : List Value → List Value
  | [] => []
  | v :: rest => prune p v :: pruneItems p rest
termination_by structural items => items

def pruneEntry (p : String → Bool) : String × Value → String × Value
  | (k, v) => (k, prune p v)
termination_by structural e => e

def pruneEntries (p : String → Bool) : List (String × Value) → List (String × Value)
  | [] => []
  | e :: rest => if p e.1 then pruneEntries p rest else pruneEntry p e :: pruneEntries p rest
termination_by structural entries => entries

end

variable {p : String → Bool}

mutual

/-- None of the names is left. -/
theorem notMem_keys_prune : ∀ (v : Value), ∀ name ∈ keys (prune p v), p name = false
  | .array items => notMem_keysItems_prune items
  | .object entries => notMem_keysEntries_prune entries
  | .null | .bool _ | .number _ | .string _ => fun _ h => absurd h List.not_mem_nil
termination_by structural v => v

theorem notMem_keysItems_prune : ∀ (items : List Value), ∀ name ∈ keysItems (pruneItems p items), p name = false
  | [] => fun _ h => absurd h List.not_mem_nil
  | v :: rest => by
    intro name h
    rw [pruneItems, keysItems, List.mem_append] at h
    exact h.elim (notMem_keys_prune v name) (notMem_keysItems_prune rest name)
termination_by structural items => items

theorem notMem_keysEntry_prune : ∀ (e : String × Value), p e.1 = false → ∀ name ∈ keysEntry (pruneEntry p e), p name = false
  | (k, v) => by
    intro hk name h
    rw [pruneEntry, keysEntry_eq, List.mem_cons] at h
    exact h.elim (fun heq => heq ▸ hk) (notMem_keys_prune v name)
termination_by structural e => e

theorem notMem_keysEntries_prune : ∀ (m : List (String × Value)), ∀ name ∈ keysEntries (pruneEntries p m), p name = false
  | [] => fun _ h => absurd h List.not_mem_nil
  | e :: rest => by
    intro name h
    rw [pruneEntries] at h
    split at h
    · exact notMem_keysEntries_prune rest name h
    · rename_i hk
      rw [keysEntries, List.mem_append] at h
      exact h.elim (notMem_keysEntry_prune e (by simpa using hk) name) (notMem_keysEntries_prune rest name)
termination_by structural m => m

end

mutual

/-- A value with none of the names stays as it is. -/
theorem prune_eq_self : ∀ (v : Value), (∀ name ∈ keys v, p name = false) → prune p v = v
  | .array items => fun h => congrArg Value.array (pruneItems_eq_self items h)
  | .object entries => fun h => congrArg Value.object (pruneEntries_eq_self entries h)
  | .null | .bool _ | .number _ | .string _ => fun _ => rfl
termination_by structural v => v

theorem pruneItems_eq_self : ∀ (items : List Value), (∀ name ∈ keysItems items, p name = false) →
    pruneItems p items = items
  | [] => fun _ => rfl
  | v :: rest => by
    intro h
    rw [keysItems, List.forall_mem_append] at h
    rw [pruneItems, prune_eq_self v h.1, pruneItems_eq_self rest h.2]
termination_by structural items => items

theorem pruneEntry_eq_self : ∀ (e : String × Value), (∀ name ∈ keysEntry e, p name = false) → pruneEntry p e = e
  | (k, v) => by
    intro h
    rw [keysEntry_eq, List.forall_mem_cons] at h
    rw [pruneEntry, prune_eq_self v h.2]
termination_by structural e => e

theorem pruneEntries_eq_self : ∀ (m : List (String × Value)), (∀ name ∈ keysEntries m, p name = false) →
    pruneEntries p m = m
  | [] => fun _ => rfl
  | e :: rest => by
    intro h
    rw [keysEntries, List.forall_mem_append] at h
    have hk : p e.1 = false := h.1 e.1 (keysEntry_eq e ▸ List.mem_cons_self)
    rw [pruneEntries, if_neg (by rw [hk]; decide), pruneEntry_eq_self e h.1, pruneEntries_eq_self rest h.2]
termination_by structural m => m

end

end Value
