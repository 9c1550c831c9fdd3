/-
# JSON values

The `serde_json::Value` tree and the accessors the modelled code uses.  An
object is a list of members: the parser keeps one member for each key, and
`Members.insert` replaces the first member with its key, so that reading after
writing needs no side condition on the list.

Parsing and printing belong to the `serde_json` crate.  `Serde` names the two
functions, and `Serde.Lawful` what its documentation promises about them.
-/
import Mathlib.Data.List.Basic
import Mathlib.Data.Int.Notation

/-- A JSON number: an integer, or the printed form of a float. -/
inductive Number where
  | int (n : ℤ)
  | float (repr : String)
  deriving DecidableEq, Repr

/-- A JSON value, `serde_json::Value`. -/
inductive Value where
  | null
  | bool (b : Bool)
  | number (n : Number)
  | string (s : String)
  | array (items : List Value)
  | object (entries : List (String × Value))

namespace Value

/-! ## Equality -/

mutual

/-- Decidable equality of JSON values, by recursion on the tree. -/
def decEq : (a b : Value) → Decidable (a = b)
  | .null, .null => isTrue rfl
  | .bool a, .bool b => if h : a = b then isTrue (by rw [h]) else isFalse (by simpa using h)
  | .number a, .number b => if h : a = b then isTrue (by rw [h]) else isFalse (by simpa using h)
  | .string a, .string b => if h : a = b then isTrue (by rw [h]) else isFalse (by simpa using h)
  | .array as, .array bs =>
    match decEqItems as bs with
    | isTrue h => isTrue (by rw [h])
    | isFalse h => isFalse (by simpa using h)
  | .object as, .object bs =>
    match decEqEntries as bs with
    | isTrue h => isTrue (by rw [h])
    | isFalse h => isFalse (by simpa using h)
  | .null, .bool _ | .null, .number _ | .null, .string _ | .null, .array _ | .null, .object _
  | .bool _, .null | .bool _, .number _ | .bool _, .string _ | .bool _, .array _ | .bool _, .object _
  | .number _, .null | .number _, .bool _ | .number _, .string _ | .number _, .array _ | .number _, .object _
  | .string _, .null | .string _, .bool _ | .string _, .number _ | .string _, .array _ | .string _, .object _
  | .array _, .null | .array _, .bool _ | .array _, .number _ | .array _, .string _ | .array _, .object _
  | .object _, .null | .object _, .bool _ | .object _, .number _ | .object _, .string _ | .object _, .array _
    => isFalse (by simp)
termination_by structural a => a

/-- Decidable equality of arrays. -/
def decEqItems : (as bs : List Value) → Decidable (as = bs)
  | [], [] => isTrue rfl
  | [], _ :: _ => isFalse (by simp)
  | _ :: _, [] => isFalse (by simp)
  | a :: as, b :: bs =>
    match decEq a b with
    | isFalse h => isFalse (by simp [h])
    | isTrue h =>
      match decEqItems as bs with
      | isTrue hs => isTrue (by rw [h, hs])
      | isFalse hs => isFalse (by simp [hs])
termination_by structural a => a

/-- Decidable equality of members. -/
def decEqEntry : (a b : String × Value) → Decidable (a = b)
  | (k, a), (l, b) =>
    if hk : k = l then
      match decEq a b with
      | isTrue h => isTrue (by rw [hk, h])
      | isFalse h => isFalse (by simp [h])
    else isFalse (by simp [hk])
termination_by structural a => a

/-- Decidable equality of objects. -/
def decEqEntries : (as bs : List (String × Value)) → Decidable (as = bs)
  | [], [] => isTrue rfl
  | [], _ :: _ => isFalse (by simp)
  | _ :: _, [] => isFalse (by simp)
  | a :: as, b :: bs =>
    match decEqEntry a b with
    | isFalse h => isFalse (by simp [h])
    | isTrue h =>
      match decEqEntries as bs with
      | isTrue hs => isTrue (by rw [h, hs])
      | isFalse hs => isFalse (by simp [hs])
termination_by structural a => a

end

instance : DecidableEq Value := decEq

instance : Inhabited Value := ⟨.null⟩

end Value

/-! ## Object members -/

/-- The members of an object, `serde_json::Map`. -/
abbrev Members := List (String × Value)

namespace Members

/-- `Map::get`: the value of the first member with the key. -/
def get (k : String) : Members → Option Value
  | [] => none
  | (k', v) :: rest => if k' = k then some v else get k rest

/-- `Map::contains_key`. -/
def containsKey (k : String) (m : Members) : Bool := (m.get k).isSome

/-- `Map::insert`: replace the first member with the key, or add one in key
order. -/
def insert (k : String) (v : Value) : Members → Members
  | [] => [(k, v)]
  | (k', v') :: rest =>
    if k' = k then (k, v) :: rest
    else if k < k' then (k, v) :: (k', v') :: rest
    else (k', v') :: insert k v rest

/-- `Map::remove`. -/
def remove (k : String) (m : Members) : Members := m.filter (fun e => e.1 ≠ k)

/-- Overwrite the value of a key that is present, as `get_mut` followed by an
assignment does. -/
def modify (k : String) (f : Value → Value) : Members → Members
  | [] => []
  | (k', v) :: rest => if k' = k then (k', f v) :: rest else (k', v) :: modify k f rest

@[simp] theorem get_nil (k : String) : get k [] = none := rfl

@[simp] theorem get_cons_self (k : String) (v : Value) (m : Members) :
    get k ((k, v) :: m) = some v := by simp [get]

@[simp] theorem get_cons_ne {k k' : String} (h : k' ≠ k) (v : Value) (m : Members) :
    get k ((k', v) :: m) = get k m := by simp [get, h]

/-- Reading the key that was written. -/
@[simp] theorem get_insert_self (k : String) (v : Value) (m : Members) :
    (m.insert k v).get k = some v := by
  induction m with
  | nil => simp [insert]
  | cons e rest ih =>
    obtain ⟨k', v'⟩ := e
    by_cases h : k' = k
    · simp [insert, h]
    · by_cases hlt : k < k'
      · simp [insert, h, hlt]
      · simp [insert, h, hlt, ih]

/-- Writing one key leaves the others. -/
@[simp] theorem get_insert_ne {k k' : String} (h : k' ≠ k) (v : Value) (m : Members) :
    (m.insert k v).get k' = m.get k' := by
  induction m with
  | nil => simp [insert, Ne.symm h]
  | cons e rest ih =>
    obtain ⟨k'', v'⟩ := e
    by_cases he : k'' = k
    · subst he
      simp [insert, Ne.symm h]
    · by_cases hlt : k < k''
      · simp [insert, he, hlt, Ne.symm h]
      · by_cases hk : k'' = k'
        · subst hk
          simp [insert, he, hlt]
        · simp [insert, he, hlt, hk, ih]

/-- A removed key is gone. -/
@[simp] theorem get_remove_self (k : String) (m : Members) : (m.remove k).get k = none := by
  induction m with
  | nil => rfl
  | cons e rest ih =>
    obtain ⟨k', v⟩ := e
    by_cases h : k' = k
    · simpa [remove, h] using ih
    · simpa [remove, h] using ih

/-- Removing one key leaves the others. -/
@[simp] theorem get_remove_ne {k k' : String} (h : k' ≠ k) (m : Members) :
    (m.remove k).get k' = m.get k' := by
  induction m with
  | nil => rfl
  | cons e rest ih =>
    obtain ⟨k'', v⟩ := e
    by_cases he : k'' = k
    · subst he
      simpa [remove, Ne.symm h] using ih
    · by_cases hk : k'' = k'
      · subst hk
        simp [remove, he]
      · simpa [remove, he, hk] using ih

/-- Modifying one key leaves the others. -/
@[simp] theorem get_modify_ne {k k' : String} (h : k' ≠ k) (f : Value → Value) (m : Members) :
    (m.modify k f).get k' = m.get k' := by
  induction m with
  | nil => rfl
  | cons e rest ih =>
    obtain ⟨k'', v⟩ := e
    by_cases he : k'' = k
    · subst he
      simp [modify, Ne.symm h]
    · by_cases hk : k'' = k'
      · subst hk
        simp [modify, he]
      · simp [modify, he, hk, ih]

/-- Modifying a key applies the function to its value. -/
@[simp] theorem get_modify_self (k : String) (f : Value → Value) (m : Members) :
    (m.modify k f).get k = (m.get k).map f := by
  induction m with
  | nil => rfl
  | cons e rest ih =>
    obtain ⟨k', v⟩ := e
    by_cases h : k' = k
    · simp [modify, h]
    · simp [modify, h, ih]

end Members

/-! ## Accessors -/

namespace Value

/-- `Value::as_str`. -/
def asStr : Value → Option String
  | .string s => some s
  | _ => none

/-- `Value::as_bool`. -/
def asBool : Value → Option Bool
  | .bool b => some b
  | _ => none

/-- `Value::as_i64`. -/
def asInt : Value → Option ℤ
  | .number (.int n) => some n
  | _ => none

/-- `Value::as_array`. -/
def asArray : Value → Option (List Value)
  | .array items => some items
  | _ => none

/-- `Value::as_object`. -/
def asObject : Value → Option Members
  | .object m => some m
  | _ => none

/-- `Value::get` with a string index. -/
def get (k : String) : Value → Option Value
  | .object m => Members.get k m
  | _ => none

/-- `value.get(k).and_then(Value::as_str)`. -/
def getStr (k : String) (v : Value) : Option String := (v.get k).bind asStr

/-- `value.get(k).and_then(Value::as_array)`. -/
def getArray (k : String) (v : Value) : Option (List Value) := (v.get k).bind asArray

/-- Write a member of a value that is an object; other values stay. -/
def insert (k : String) (v x : Value) : Value :=
  match v with
  | .object m => .object (Members.insert k x m)
  | v => v

/-- Rewrite the value of a member that is present. -/
def modify (k : String) (f : Value → Value) : Value → Value
  | .object m => .object (Members.modify k f m)
  | v => v

@[simp] theorem asStr_string (s : String) : asStr (.string s) = some s := rfl
@[simp] theorem asArray_array (l : List Value) : asArray (.array l) = some l := rfl
@[simp] theorem get_object (k : String) (m : Members) : get k (.object m) = Members.get k m := rfl

theorem asStr_eq_some {v : Value} {s : String} : asStr v = some s ↔ v = .string s := by
  cases v <;> simp [asStr]

theorem asArray_eq_some {v : Value} {l : List Value} : asArray v = some l ↔ v = .array l := by
  cases v <;> simp [asArray]

/-- Only objects have members. -/
theorem exists_object_of_get {k : String} {v x : Value} (h : v.get k = some x) :
    ∃ m, v = .object m ∧ Members.get k m = some x := by
  cases v with
  | object m => exact ⟨m, rfl, h⟩
  | _ => simp [get] at h

/-- Writing a member of an object that has it. -/
theorem getArray_insert {k : String} {v : Value} {l : List Value} (h : v.getArray k = some l)
    (l' : List Value) : (v.insert k (.array l')).getArray k = some l' := by
  rw [getArray, Option.bind_eq_some_iff] at h
  obtain ⟨x, hx, _⟩ := h
  obtain ⟨m, rfl, _⟩ := exists_object_of_get hx
  simp [getArray, insert]

/-! ## The texts of a value -/

mutual

/-- Apply a function to every text of a value; keys stay. -/
def mapStrings (f : String → String) : Value → Value
  | .string s => .string (f s)
  | .array items => .array (mapStringsItems f items)
  | .object entries => .object (mapStringsEntries f entries)
  | v => v
termination_by structural v => v

def mapStringsItems (f : String → String) : List Value → List Value
  | [] => []
  | v :: rest => mapStrings f v :: mapStringsItems f rest
termination_by structural items => items

def mapStringsEntry (f : String → String) : String × Value → String × Value
  | (k, v) => (k, mapStrings f v)
termination_by structural e => e

def mapStringsEntries (f : String → String) : List (String × Value) → List (String × Value)
  | [] => []
  | e :: rest => mapStringsEntry f e :: mapStringsEntries f rest
termination_by structural entries => entries

end

theorem get_mapStrings (f : String → String) (k : String) (v : Value) :
    (mapStrings f v).get k = (v.get k).map (mapStrings f) := by
  cases v with
  | object entries =>
    show Members.get k (mapStringsEntries f entries) = (Members.get k entries).map (mapStrings f)
    induction entries with
    | nil => rfl
    | cons e rest ih =>
      obtain ⟨k', v⟩ := e
      rw [mapStringsEntries, mapStringsEntry, Members.get, Members.get]
      split
      · rfl
      · exact ih
  | null => rfl
  | bool b => rfl
  | number n => rfl
  | string s => rfl
  | array items => rfl

theorem getStr_mapStrings (f : String → String) (k : String) (v : Value) :
    (mapStrings f v).getStr k = (v.getStr k).map f := by
  rw [getStr, getStr, get_mapStrings]
  cases v.get k with
  | none => rfl
  | some x => cases x <;> rfl

end Value

/-! ## The `serde_json` crate -/

/-- The parser and the compact printer of `serde_json`. -/
structure Serde where
  /-- `serde_json::from_str`, `none` on a syntax error. -/
  fromStr : String → Option Value
  /-- `Value::to_string`. -/
  toText : Value → String

/-- One character of a printed string. -/
def Serde.escape (c : Char) : String :=
  if c = '"' then "\\\""
  else if c = '\\' then "\\\\"
  else if c = '\n' then "\\n"
  else if c = '\r' then "\\r"
  else if c = '\t' then "\\t"
  else String.ofList [c]

/-- A printed string. -/
def Serde.quote (s : String) : String :=
  "\"" ++ s.toList.foldl (fun acc c => acc ++ Serde.escape c) "" ++ "\""

mutual

/-- The compact printer, for texts without other control characters. -/
def Serde.print : Value → String
  | .null => "null"
  | .bool b => if b then "true" else "false"
  | .number (.int n) => toString n
  | .number (.float repr) => repr
  | .string s => Serde.quote s
  | .array items => "[" ++ Serde.printItems items ++ "]"
  | .object entries => "\x7b" ++ Serde.printEntries entries ++ "\x7d"
termination_by structural v => v

def Serde.printItems : List Value → String
  | [] => ""
  | [v] => Serde.print v
  | v :: v' :: rest => Serde.print v ++ "," ++ Serde.printItems (v' :: rest)
termination_by structural l => l

def Serde.printEntry : String × Value → String
  | (k, v) => Serde.quote k ++ ":" ++ Serde.print v
termination_by structural e => e

def Serde.printEntries : List (String × Value) → String
  | [] => ""
  | [e] => Serde.printEntry e
  | e :: e' :: rest => Serde.printEntry e ++ "," ++ Serde.printEntries (e' :: rest)
termination_by structural l => l

end

/-- A printer for the closed examples, which parse nothing. -/
def plainSerde : Serde := ⟨fun _ => none, Serde.print⟩

/-- The documented behaviour of the pair: a printed value parses back. -/
structure Serde.Lawful (serde : Serde) : Prop where
  fromStr_toText : ∀ v, serde.fromStr (serde.toText v) = some v
