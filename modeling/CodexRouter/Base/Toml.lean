/-
# TOML documents

Tables of items under keys, one below the other, with the accessors of the `toml_edit` crate.  What a
document says is the value at each key path (`valueAt`); a table that holds no value says nothing.
Order, comments and spacing are left out, and so is the difference between a table that was written
and one that is there through its members only.
-/
import Mathlib.Data.List.Basic
import Mathlib.Data.Int.Notation

/-- A value that is no table.  A float, a date, an array of anything but strings and an array of
tables are their text. -/
inductive TomlValue where
  | string (s : String)
  | boolean (b : Bool)
  | integer (n : ℤ)
  | strings (items : List String)
  | other (text : String)
  deriving DecidableEq, Repr

/-- An item of a document: a value, or a table under its header or inline. -/
inductive TomlItem where
  | value (v : TomlValue)
  | table (inlined : Bool) (entries : List (String × TomlItem))

/-- A table, and with it a document: `toml_edit::Table` and `toml_edit::DocumentMut`. -/
abbrev TomlTable := List (String × TomlItem)

namespace TomlTable

/-- `get`. -/
def get (table : TomlTable) (key : String) : Option TomlItem := table.lookup key

/-- `contains_key`. -/
def containsKey (table : TomlTable) (key : String) : Bool := (table.get key).isSome

/-- `remove`. -/
def remove (table : TomlTable) (key : String) : TomlTable := table.filter fun entry => entry.1 ≠ key

/-- `insert`. -/
def insert (table : TomlTable) (key : String) (item : TomlItem) : TomlTable :=
  (key, item) :: table.remove key

end TomlTable

namespace TomlItem

/-- `as_table_like`. -/
def asTableLike : TomlItem → Option TomlTable
  | .table _ entries => some entries
  | .value _ => none

/-- `as_table`. -/
def asTable : TomlItem → Option TomlTable
  | .table false entries => some entries
  | _ => none

/-- `as_str`. -/
def asStr : TomlItem → Option String
  | .value (.string s) => some s
  | _ => none

/-- `as_bool`. -/
def asBool : TomlItem → Option Bool
  | .value (.boolean b) => some b
  | _ => none

/-- `toml_edit::value` on a string. -/
def str (s : String) : TomlItem := .value (.string s)

/-- `toml_edit::value` on a Boolean. -/
def bool (b : Bool) : TomlItem := .value (.boolean b)

/-- `toml_edit::value` on an integer. -/
def int (n : ℤ) : TomlItem := .value (.integer n)

/-- The item at a key path. -/
def itemAt : TomlItem → List String → Option TomlItem
  | item, [] => some item
  | .table _ entries, key :: path => (entries.lookup key).bind fun item => item.itemAt path
  | .value _, _ :: _ => none
termination_by structural _ path => path

/-- A key path is gone down step by step. -/
theorem itemAt_append (item : TomlItem) (path rest : List String) :
    item.itemAt (path ++ rest) = (item.itemAt path).bind fun below => below.itemAt rest := by
  induction path generalizing item with
  | nil => rfl
  | cons key path ih =>
    cases item with
    | value v => rfl
    | table inlined entries =>
      rw [List.cons_append, itemAt, itemAt, Option.bind_assoc]
      congr 1
      funext below
      exact ih below

/-- The value that an item is. -/
def asValue : TomlItem → Option TomlValue
  | .value v => some v
  | .table _ _ => none

/-- The value at a key path. -/
def valueAt (item : TomlItem) (path : List String) : Option TomlValue := (item.itemAt path).bind asValue

/-- A table under a header is no inline one. -/
theorem eq_of_asTable {item : TomlItem} {entries : TomlTable} (h : item.asTable = some entries) :
    item = .table false entries := by
  cases item with
  | value v => cases h
  | table inlined _ =>
    cases inlined with
    | true => cases h
    | false => exact congrArg (table false) (Option.some.inj h)

end TomlItem

namespace TomlTable

/-- The item at a key path of a document. -/
def itemAt (table : TomlTable) (path : List String) : Option TomlItem :=
  (TomlItem.table false table).itemAt path

/-- The value at a key path of a document. -/
def valueAt (table : TomlTable) (path : List String) : Option TomlValue :=
  (TomlItem.table false table).valueAt path

/-- `as_table_like` on what is under a key; a missing table is empty, and so is what is no table. -/
def tableAt (table : TomlTable) (key : String) : TomlTable :=
  ((table.get key).bind TomlItem.asTableLike).getD []

/-- Take out what is at a key path, and every table on the way that is empty then. -/
def removeAt : List String → TomlTable → TomlTable
  | [], table => table
  | [key], table => table.remove key
  | key :: path, table =>
    match table.get key with
    | some (.table inlined entries) =>
      let rest := removeAt path entries
      if rest.isEmpty then table.remove key else table.insert key (.table inlined rest)
    | _ => table

/-- Put an item at a key path, making the tables on the way; they cannot be made where a value is. -/
def setAt : List String → TomlItem → TomlTable → Option TomlTable
  | [], _, _ => none
  | [key], item, table => some (table.insert key item)
  | key :: path, item, table =>
    match table.get key with
    | none => (setAt path item []).map fun rest => table.insert key (.table false rest)
    | some (.table inlined entries) =>
      (setAt path item entries).map fun rest => table.insert key (.table inlined rest)
    | some (.value _) => none

/-- Insert what another table has under a key, if it has something there. -/
def copyItem (source table : TomlTable) (key : String) : TomlTable :=
  match source.get key with
  | some item => table.insert key item
  | none => table

/-- Put what another document has at a key path in the place of what is there. -/
def replaceAt (path : List String) (source table : TomlTable) : Option TomlTable :=
  match source.itemAt path with
  | none => some (table.removeAt path)
  | some item => (table.removeAt path).setAt path item

/-- Change the table under a key. -/
def mapTable (table : TomlTable) (key : String) (f : TomlTable → TomlTable) : TomlTable :=
  match table.get key with
  | some (.table inlined entries) => table.insert key (.table inlined (f entries))
  | _ => table

/-- What is under a key is a table, or nothing is. -/
def TableWhenPresent (table : TomlTable) (key : String) : Prop :=
  ∀ item, table.get key = some item → item.asTableLike.isSome

/-- Two documents say the same. -/
def SameValues (table other : TomlTable) : Prop := ∀ path, table.valueAt path = other.valueAt path

variable {table : TomlTable} {key other : String} {item : TomlItem} {path : List String}

instance : Decidable (table.TableWhenPresent key) :=
  decidable_of_iff (((table.get key).all fun item => item.asTableLike.isSome) = true)
    (by unfold TableWhenPresent; cases table.get key <;> simp)

/-- A key path is at or below one of these. -/
def Below (owned : List (List String)) (path : List String) : Prop := ∃ top ∈ owned, top <+: path

instance (owned : List (List String)) (path : List String) : Decidable (Below owned path) :=
  inferInstanceAs (Decidable (∃ top ∈ owned, top <+: path))

/-! ## Reading after writing -/

@[simp] theorem get_nil (key : String) : get [] key = none := rfl

theorem get_cons (entry : String × TomlItem) (table : TomlTable) (key : String) :
    get (entry :: table) key = if key = entry.1 then some entry.2 else table.get key := by
  rw [get, List.lookup_cons]
  split
  · rename_i h
    rw [if_pos (beq_iff_eq.mp h)]
  · rename_i h
    rw [if_neg (beq_eq_false_iff_ne.mp h), get]

@[simp] theorem get_remove (table : TomlTable) (key other : String) :
    (table.remove key).get other = if other = key then none else table.get other := by
  induction table with
  | nil => simp [remove]
  | cons entry rest ih =>
    rw [remove] at ih ⊢
    by_cases hkey : entry.1 = key
    · rw [List.filter_cons_of_neg (by simp [hkey]), ih, get_cons, hkey]
      by_cases hother : other = key
      · rw [if_pos hother, if_pos hother]
      · rw [if_neg hother, if_neg hother, if_neg hother]
    · rw [List.filter_cons_of_pos (by simp [hkey]), get_cons, ih, get_cons]
      by_cases hother : other = entry.1
      · rw [if_pos hother, if_pos hother, if_neg (hother ▸ hkey)]
      · rw [if_neg hother, if_neg hother]

@[simp] theorem get_insert (table : TomlTable) (key : String) (item : TomlItem) (other : String) :
    (table.insert key item).get other = if other = key then some item else table.get other := by
  rw [insert, get_cons]
  by_cases h : other = key
  · rw [if_pos h, if_pos h]
  · rw [if_neg h, if_neg h, get_remove, if_neg h]

@[simp] theorem containsKey_insert (table : TomlTable) (key : String) (item : TomlItem) (other : String) :
    (table.insert key item).containsKey other = (decide (other = key) || table.containsKey other) := by
  rw [containsKey, get_insert, containsKey]
  by_cases h : other = key
  · simp [h]
  · simp [h]

@[simp] theorem get_copyItem (source table : TomlTable) (key other : String) :
    (copyItem source table key).get other = if other = key then (source.get key).or (table.get key) else table.get other := by
  rw [copyItem]
  cases source.get key with
  | none =>
    by_cases h : other = key
    · rw [if_pos h, h, Option.none_or]
    · rw [if_neg h]
  | some item => rw [get_insert, Option.some_or]

theorem get_ite (c : Prop) [Decidable c] (table table' : TomlTable) (key : String) :
    get (if c then table else table') key = if c then table.get key else table'.get key :=
  apply_ite (fun table => get table key) c table table'

/-- Keys are removed in turn. -/
theorem get_foldl_remove (keys : List String) (table : TomlTable) (key : String) :
    get (keys.foldl remove table) key = if key ∈ keys then none else table.get key := by
  induction keys generalizing table with
  | nil => simp
  | cons first rest ih =>
    rw [List.foldl_cons, ih, get_remove]
    by_cases hrest : key ∈ rest
    · rw [if_pos hrest, if_pos (List.mem_cons_of_mem _ hrest)]
    · rw [if_neg hrest]
      by_cases hfirst : key = first
      · rw [if_pos hfirst, if_pos (hfirst ▸ List.mem_cons_self)]
      · rw [if_neg hfirst, if_neg (by simp [hfirst, hrest])]

theorem containsKey_of_mem {entry : String × TomlItem} (h : entry ∈ table) : table.containsKey entry.1 = true := by
  induction table with
  | nil => simp at h
  | cons first rest ih =>
    rw [containsKey, get_cons]
    by_cases hfirst : entry.1 = first.1
    · rw [if_pos hfirst]
      rfl
    · rw [if_neg hfirst]
      rcases List.mem_cons.mp h with rfl | h
      · exact absurd rfl hfirst
      · exact ih h

/-! ## Values at key paths -/

@[simp] theorem valueAt_nil (table : TomlTable) : table.valueAt [] = none := rfl

theorem itemAt_cons (table : TomlTable) (key : String) (path : List String) :
    table.itemAt (key :: path) = (table.get key).bind fun item => item.itemAt path := rfl

theorem valueAt_cons (table : TomlTable) (key : String) (path : List String) :
    table.valueAt (key :: path) = (table.get key).bind fun item => item.valueAt path :=
  Option.bind_assoc _ _ _

@[simp] theorem valueAt_empty (path : List String) : valueAt [] path = none := by
  cases path <;> rfl

theorem valueAt_table (inlined : Bool) (entries : TomlTable) (path : List String) :
    (TomlItem.table inlined entries).valueAt path = entries.valueAt path := by
  cases path <;> rfl

theorem valueAt_value (v : TomlValue) (path : List String) :
    (TomlItem.value v).valueAt path = if path = [] then some v else none := by
  cases path <;> rfl

/-- Tables with the same items under their keys say the same. -/
theorem valueAt_congr_get {table' : TomlTable} (h : ∀ key, table.get key = table'.get key) (path : List String) :
    table.valueAt path = table'.valueAt path := by
  cases path with
  | nil => rfl
  | cons key path => rw [valueAt_cons, valueAt_cons, h key]

theorem valueAt_cons_of_get (h : table.get key = some item) : table.valueAt (key :: path) = item.valueAt path := by
  rw [valueAt_cons, h, Option.bind_some]

theorem valueAt_cons_of_none (h : table.get key = none) : table.valueAt (key :: path) = none := by
  rw [valueAt_cons, h, Option.bind_none]

theorem itemAt_pair (table : TomlTable) (key member : String) :
    table.itemAt [key, member] = (table.tableAt key).get member := by
  rw [itemAt_cons, tableAt]
  cases table.get key with
  | none => rfl
  | some item =>
    cases item with
    | value v => rfl
    | table inlined entries =>
      show (get entries member).bind some = get entries member
      cases get entries member <;> rfl

/-- Nothing is said below an item that is not there. -/
theorem valueAt_append_of_none {top : List String} (h : table.itemAt top = none) (path : List String) :
    table.valueAt (top ++ path) = none := by
  rw [valueAt, TomlItem.valueAt, TomlItem.itemAt_append]
  rw [itemAt] at h
  rw [h]
  rfl

/-- What an item says is said below its key path. -/
theorem valueAt_append_of_itemAt {top : List String} (h : table.itemAt top = some item) (path : List String) :
    table.valueAt (top ++ path) = item.valueAt path := by
  rw [valueAt, TomlItem.valueAt, TomlItem.itemAt_append]
  rw [itemAt] at h
  rw [h]
  rfl

/-- What is under a key says what the table there says, once it is a table. -/
theorem valueAt_cons_of_tableWhenPresent (h : table.TableWhenPresent key) (path : List String) :
    table.valueAt (key :: path) = (table.tableAt key).valueAt path := by
  rw [valueAt_cons, tableAt]
  cases hget : table.get key with
  | none => simp
  | some item =>
    cases item with
    | value v => simpa [TomlItem.asTableLike] using h _ hget
    | table inlined entries => exact valueAt_table inlined entries path

/-- Two keys deep the table there speaks, whatever is under the first key. -/
theorem valueAt_cons_cons (table : TomlTable) (key other : String) (path : List String) :
    table.valueAt (key :: other :: path) = (table.tableAt key).valueAt (other :: path) := by
  rw [valueAt_cons, tableAt]
  cases table.get key with
  | none => simp
  | some item =>
    cases item with
    | value v => rfl
    | table inlined entries => exact valueAt_table inlined entries (other :: path)

/-- What is no table under a key is its value. -/
theorem tableWhenPresent_iff : table.TableWhenPresent key ↔ table.valueAt [key] = none := by
  constructor
  · intro h
    rw [valueAt_cons_of_tableWhenPresent h, valueAt_nil]
  · intro h item hget
    rw [valueAt_cons_of_get hget] at h
    cases item with
    | value v => cases h
    | table inlined entries => rfl

/-- Nothing stands below a value. -/
theorem valueAt_below_value {v : TomlValue} (h : table.valueAt [key] = some v) (member : String) (path : List String) :
    table.valueAt (key :: member :: path) = none := by
  rw [valueAt_cons] at h ⊢
  obtain ⟨item, hget, hitem⟩ := Option.bind_eq_some_iff.mp h
  rw [hget, Option.bind_some]
  cases item with
  | value v => rfl
  | table inlined entries => cases hitem

/-- The string under a key. -/
theorem asStr_get_eq_some {s : String} :
    (table.get key).bind TomlItem.asStr = some s ↔ table.valueAt [key] = some (.string s) := by
  rw [valueAt_cons]
  cases table.get key with
  | none => simp
  | some item =>
    rw [Option.bind_some, Option.bind_some]
    cases item with
    | value v => cases v <;> simp [TomlItem.asStr, valueAt_value]
    | table inlined entries => simp [TomlItem.asStr, valueAt_table]

@[simp] theorem valueAt_insert (table : TomlTable) (key : String) (item : TomlItem) (other : String)
    (path : List String) :
    (table.insert key item).valueAt (other :: path)
      = if other = key then item.valueAt path else table.valueAt (other :: path) := by
  rw [valueAt_cons, get_insert]
  split
  · rfl
  · rw [valueAt_cons]

@[simp] theorem valueAt_remove (table : TomlTable) (key other : String) (path : List String) :
    (table.remove key).valueAt (other :: path) = if other = key then none else table.valueAt (other :: path) := by
  rw [valueAt_cons, get_remove]
  split
  · rfl
  · rw [valueAt_cons]

/-! ## Taking out and putting in along a key path -/

theorem removeAt_cons (key next : String) (path : List String) (table : TomlTable) :
    removeAt (key :: next :: path) table
      = match table.get key with
        | some (.table inlined entries) =>
          if (removeAt (next :: path) entries).isEmpty then table.remove key
          else table.insert key (.table inlined (removeAt (next :: path) entries))
        | _ => table := rfl

/-- Nothing is left at and below a key path, and everything is as before elsewhere. -/
theorem valueAt_removeAt {owned : List String} (hne : owned ≠ []) (table : TomlTable) (path : List String) :
    (table.removeAt owned).valueAt path = if owned <+: path then none else table.valueAt path := by
  induction owned generalizing table path with
  | nil => exact absurd rfl hne
  | cons key rest ih =>
    cases path with
    | nil => simp
    | cons other path =>
      cases rest with
      | nil =>
        rw [removeAt, valueAt_remove]
        simp [List.cons_prefix_cons, eq_comm]
      | cons next rest =>
        rw [removeAt_cons]
        by_cases hkey : key = other
        · subst hkey
          cases hget : table.get key with
          | none => simp [valueAt_cons_of_none hget]
          | some item =>
            cases item with
            | value v =>
              rw [valueAt_cons_of_get hget, valueAt_value]
              cases path <;> simp
            | table inlined entries =>
              have hbelow := ih (by simp) entries path
              rw [valueAt_cons_of_get hget, valueAt_table]
              simp only [List.cons_prefix_cons, true_and]
              split
              · rename_i hempty
                rw [valueAt_remove, if_pos rfl, ← hbelow, List.isEmpty_iff.mp hempty, valueAt_empty]
              · rw [valueAt_insert, if_pos rfl, valueAt_table, hbelow]
        · have hother : other ≠ key := fun h => hkey h.symm
          rw [if_neg (by simp [List.cons_prefix_cons, hkey])]
          split
          · split
            · rw [valueAt_remove, if_neg hother]
            · rw [valueAt_insert, if_neg hother]
          · rfl

theorem setAt_cons (key next : String) (path : List String) (item : TomlItem) (table : TomlTable) :
    setAt (key :: next :: path) item table
      = match table.get key with
        | none => (setAt (next :: path) item []).map fun rest => table.insert key (.table false rest)
        | some (.table inlined entries) =>
          (setAt (next :: path) item entries).map fun rest => table.insert key (.table inlined rest)
        | some (.value _) => none := rfl

/-- The item is at its key path, and everything is as before elsewhere. -/
theorem valueAt_setAt {owned : List String} {table result : TomlTable} {item : TomlItem}
    (h : table.setAt owned item = some result) (path : List String) :
    result.valueAt path
      = if owned <+: path then item.valueAt (path.drop owned.length) else table.valueAt path := by
  induction owned generalizing table result path with
  | nil => cases h
  | cons key rest ih =>
    cases path with
    | nil => simp
    | cons other path =>
      cases rest with
      | nil =>
        rw [setAt, Option.some.injEq] at h
        rw [← h, valueAt_insert]
        simp [List.cons_prefix_cons, eq_comm]
      | cons next rest =>
        rw [setAt_cons] at h
        by_cases hkey : key = other
        · subst hkey
          simp only [List.cons_prefix_cons, true_and, List.length_cons, List.drop_succ_cons]
          cases hget : table.get key with
          | none =>
            rw [hget] at h
            obtain ⟨below, hbelow, rfl⟩ := Option.map_eq_some_iff.mp h
            rw [valueAt_insert, if_pos rfl, valueAt_table, ih hbelow path, valueAt_cons_of_none hget,
              valueAt_empty]
            simp only [List.length_cons]
          | some there =>
            rw [hget] at h
            cases there with
            | value v => cases h
            | table inlined entries =>
              obtain ⟨below, hbelow, rfl⟩ := Option.map_eq_some_iff.mp h
              rw [valueAt_insert, if_pos rfl, valueAt_table, ih hbelow path, valueAt_cons_of_get hget,
                valueAt_table]
              simp only [List.length_cons]
        · have hother : other ≠ key := fun h => hkey h.symm
          rw [if_neg (by simp [List.cons_prefix_cons, hkey])]
          cases hget : table.get key with
          | none =>
            rw [hget] at h
            obtain ⟨below, -, rfl⟩ := Option.map_eq_some_iff.mp h
            rw [valueAt_insert, if_neg hother]
          | some there =>
            rw [hget] at h
            cases there with
            | value v => cases h
            | table inlined entries =>
              obtain ⟨below, -, rfl⟩ := Option.map_eq_some_iff.mp h
              rw [valueAt_insert, if_neg hother]

/-- What was put in is there. -/
theorem itemAt_of_setAt {owned : List String} {table result : TomlTable} {item : TomlItem}
    (h : table.setAt owned item = some result) : result.itemAt owned = some item := by
  induction owned generalizing table result with
  | nil => cases h
  | cons key rest ih =>
    cases rest with
    | nil =>
      rw [setAt, Option.some.injEq] at h
      rw [← h, itemAt_cons, get_insert, if_pos rfl]
      rfl
    | cons next rest =>
      rw [setAt_cons] at h
      cases hget : table.get key with
      | none =>
        rw [hget] at h
        obtain ⟨below, hbelow, rfl⟩ := Option.map_eq_some_iff.mp h
        rw [itemAt_cons, get_insert, if_pos rfl]
        exact ih hbelow
      | some there =>
        rw [hget] at h
        cases there with
        | value v => cases h
        | table inlined entries =>
          obtain ⟨below, hbelow, rfl⟩ := Option.map_eq_some_iff.mp h
          rw [itemAt_cons, get_insert, if_pos rfl]
          exact ih hbelow

/-- The other keys are not touched. -/
theorem get_of_setAt {key other : String} {path : List String} {table result : TomlTable} {item : TomlItem}
    (h : table.setAt (key :: path) item = some result) (hother : other ≠ key) :
    result.get other = table.get other := by
  cases path with
  | nil =>
    rw [setAt, Option.some.injEq] at h
    rw [← h, get_insert, if_neg hother]
  | cons next path =>
    rw [setAt_cons] at h
    split at h
    · obtain ⟨below, -, rfl⟩ := Option.map_eq_some_iff.mp h
      rw [get_insert, if_neg hother]
    · obtain ⟨below, -, rfl⟩ := Option.map_eq_some_iff.mp h
      rw [get_insert, if_neg hother]
    · cases h

/-- An item can be put in the place of one that is there. -/
theorem exists_setAt_of_itemAt {owned : List String} {table : TomlTable} {there : TomlItem} (hne : owned ≠ [])
    (h : table.itemAt owned = some there) (item : TomlItem) : ∃ result, table.setAt owned item = some result := by
  induction owned generalizing table with
  | nil => exact absurd rfl hne
  | cons key rest ih =>
    cases rest with
    | nil => exact ⟨_, rfl⟩
    | cons next rest =>
      rw [itemAt_cons] at h
      obtain ⟨below, hget, hbelow⟩ := Option.bind_eq_some_iff.mp h
      cases below with
      | value v => cases hbelow
      | table inlined entries =>
        obtain ⟨result, hresult⟩ := ih (by simp) hbelow
        rw [setAt_cons, hget]
        dsimp only
        rw [hresult]
        exact ⟨_, rfl⟩

theorem get_removeAt_of_ne {key other : String} (path : List String) (table : TomlTable) (hother : other ≠ key) :
    (table.removeAt (key :: path)).get other = table.get other := by
  cases path with
  | nil => rw [removeAt, get_remove, if_neg hother]
  | cons next path =>
    rw [removeAt_cons]
    split
    · split
      · rw [get_remove, if_neg hother]
      · rw [get_insert, if_neg hother]
    · rfl

/-- An item can be put where no value is in the way. -/
theorem exists_setAt {owned : List String} (hne : owned ≠ []) {table : TomlTable}
    (hfree : ∀ top, top <+: owned → top ≠ owned → table.valueAt top = none) (item : TomlItem) :
    ∃ result, table.setAt owned item = some result := by
  induction owned generalizing table with
  | nil => exact absurd rfl hne
  | cons key rest ih =>
    cases rest with
    | nil => exact ⟨_, rfl⟩
    | cons next rest =>
      rw [setAt_cons]
      have hbelow : ∀ below : TomlTable,
          (∀ top, top <+: next :: rest → top ≠ next :: rest → table.valueAt (key :: top) = below.valueAt top) →
            ∃ result, below.setAt (next :: rest) item = some result := by
        intro below hsame
        refine ih (by simp) fun top htop hproper => ?_
        rw [← hsame top htop hproper]
        exact hfree _ ((List.cons_prefix_cons).mpr ⟨rfl, htop⟩) (by simpa using hproper)
      cases hget : table.get key with
      | none =>
        obtain ⟨result, hresult⟩ := hbelow [] fun top _ _ => by rw [valueAt_cons_of_none hget, valueAt_empty]
        dsimp only
        rw [hresult]
        exact ⟨_, rfl⟩
      | some there =>
        cases there with
        | value v =>
          have hvalue := hfree [key] (by simp) (by simp)
          rw [valueAt_cons_of_get hget] at hvalue
          cases hvalue
        | table inlined entries =>
          obtain ⟨result, hresult⟩ := hbelow entries fun top _ _ => by rw [valueAt_cons_of_get hget, valueAt_table]
          dsimp only
          rw [hresult]
          exact ⟨_, rfl⟩

/-- Below the key path the other document speaks, and this one elsewhere. -/
theorem valueAt_replaceAt {owned : List String} (hne : owned ≠ []) {source table result : TomlTable}
    (h : replaceAt owned source table = some result) (path : List String) :
    result.valueAt path = if owned <+: path then source.valueAt path else table.valueAt path := by
  rw [replaceAt] at h
  cases hitem : source.itemAt owned with
  | none =>
    rw [hitem, Option.some.injEq] at h
    rw [← h, valueAt_removeAt hne]
    split
    · rename_i hbelow
      obtain ⟨rest, rfl⟩ := hbelow
      rw [valueAt_append_of_none hitem]
    · rfl
  | some item =>
    rw [hitem] at h
    rw [valueAt_setAt h, valueAt_removeAt hne]
    split
    · rename_i hbelow
      obtain ⟨rest, rfl⟩ := hbelow
      rw [List.drop_left, valueAt_append_of_itemAt hitem]
    · rfl

theorem exists_replaceAt {owned : List String} (hne : owned ≠ []) {table : TomlTable}
    (hfree : ∀ top, top <+: owned → top ≠ owned → table.valueAt top = none) (source : TomlTable) :
    ∃ result, replaceAt owned source table = some result := by
  rw [replaceAt]
  split
  · exact ⟨_, rfl⟩
  · apply exists_setAt hne
    intro top htop hproper
    rw [valueAt_removeAt hne, hfree top htop hproper, ite_self]

theorem get_of_replaceAt {key other : String} {path : List String} {source table result : TomlTable}
    (h : replaceAt (key :: path) source table = some result) (hother : other ≠ key) :
    result.get other = table.get other := by
  rw [replaceAt] at h
  split at h
  · rw [← Option.some.inj h, get_removeAt_of_ne path table hother]
  · rw [get_of_setAt h hother, get_removeAt_of_ne path table hother]

/-! ## Tables under a key -/

variable {f : TomlTable → TomlTable}

theorem get_mapTable_of_ne (hother : other ≠ key) : (table.mapTable key f).get other = table.get other := by
  rw [mapTable]
  split
  · rw [get_insert, if_neg hother]
  · rfl

theorem tableAt_mapTable (hf : f [] = []) : (table.mapTable key f).tableAt key = f (table.tableAt key) := by
  rw [mapTable, tableAt, tableAt]
  split
  · rename_i inlined entries hget
    rw [get_insert, if_pos rfl, hget]
    rfl
  · rename_i hother
    cases hget : table.get key with
    | none => exact hf.symm
    | some item =>
      cases item with
      | value v => exact hf.symm
      | table inlined entries => exact absurd hget (hother inlined entries)

theorem tableWhenPresent_mapTable (h : table.TableWhenPresent key) : (table.mapTable key f).TableWhenPresent key := by
  rw [mapTable]
  split
  · intro item hitem
    rw [get_insert, if_pos rfl, Option.some.injEq] at hitem
    rw [← hitem]
    rfl
  · exact h

end TomlTable
