/-
# Tables of a database

A table whose rows are numbered by `AUTOINCREMENT` and have unique keys: the two constraints are fields, so that a
statement that would break one of them has no result.

A new row gets an id above all that were ever given out.  `Table.Evolves R` says that every row is still there and has
changed as `R` allows; it composes over the statements of a run.
-/
import Mathlib.Data.List.Basic
import Mathlib.Data.List.Nodup
import Mathlib.Data.Int.Order.Basic
import Mathlib.Order.MinMax

/-- A table, by the ids of its rows; `last` is the entry of `sqlite_sequence`.  A row without a key is in nobody's
way. -/
structure Table (ρ : Type) {κ : Type} (key : ρ → Option κ) where
  rows : List (ℤ × ρ)
  last : ℤ
  nodup : (rows.map Prod.fst).Nodup
  le_last : ∀ e ∈ rows, e.1 ≤ last
  unique : ∀ e ∈ rows, ∀ e' ∈ rows, (key e.2).isSome → key e.2 = key e'.2 → e.1 = e'.1

/-- Two rows with one id are the same. -/
theorem List.eq_of_nodup_fst {ρ : Type} {l : List (ℤ × ρ)} (hnodup : (l.map Prod.fst).Nodup) {e e' : ℤ × ρ}
    (he : e ∈ l) (he' : e' ∈ l) (h : e.1 = e'.1) : e = e' :=
  List.inj_on_of_nodup_map hnodup he he' h

namespace Table

variable {ρ κ : Type} [DecidableEq κ] {key : ρ → Option κ} {t t' u : Table ρ key} {id other : ℤ} {row row' : ρ}

/-- A table without rows. -/
def empty : Table ρ key where
  rows := []
  last := 0
  nodup := List.nodup_nil
  le_last := fun _ h => absurd h List.not_mem_nil
  unique := fun _ h => absurd h List.not_mem_nil

/-- The row with an id. -/
def get (t : Table ρ key) (id : ℤ) : Option ρ := (t.rows.find? fun e => e.1 = id).map Prod.snd

omit [DecidableEq κ] in
theorem get_eq_some_iff : t.get id = some row ↔ (id, row) ∈ t.rows := by
  rw [get, Option.map_eq_some_iff]
  constructor
  · rintro ⟨e, hfind, rfl⟩
    have hid : e.1 = id := by simpa using List.find?_some hfind
    exact hid ▸ List.mem_of_find?_eq_some hfind
  · intro hmem
    cases hfind : t.rows.find? fun e => e.1 = id with
    | none => exact absurd (List.find?_eq_none.mp hfind (id, row) hmem) (by simp)
    | some e =>
      have hid : e.1 = id := by simpa using List.find?_some hfind
      exact ⟨e, rfl, congrArg Prod.snd (List.eq_of_nodup_fst t.nodup (List.mem_of_find?_eq_some hfind) hmem hid)⟩

omit [DecidableEq κ] in
theorem get_eq_none_iff : t.get id = none ↔ ∀ e ∈ t.rows, e.1 ≠ id := by
  rw [get, Option.map_eq_none_iff, List.find?_eq_none]
  simp

omit [DecidableEq κ] in
theorem le_last_of_get (h : t.get id = some row) : id ≤ t.last := t.le_last _ (get_eq_some_iff.mp h)

omit [DecidableEq κ] in
/-- Keys tell rows apart. -/
theorem eq_of_key (h : t.get id = some row) (h' : t.get other = some row') (hkey : (key row).isSome)
    (heq : key row = key row') : id = other :=
  t.unique _ (get_eq_some_iff.mp h) _ (get_eq_some_iff.mp h') hkey heq

/-- The first row that satisfies a condition, in the order of the ids. -/
def find (t : Table ρ key) (p : ρ → Bool) : Option (ℤ × ρ) := t.rows.find? fun e => p e.2

omit [DecidableEq κ] in
theorem get_of_find {p : ρ → Bool} (h : t.find p = some (id, row)) : t.get id = some row ∧ p row = true :=
  ⟨get_eq_some_iff.mpr (List.mem_of_find?_eq_some h), List.find?_some (p := fun e : ℤ × ρ => p e.2) h⟩

omit [DecidableEq κ] in
theorem find_eq_none_iff {p : ρ → Bool} : t.find p = none ↔ ∀ id row, t.get id = some row → p row = false := by
  rw [find, List.find?_eq_none]
  constructor
  · intro h id row hget
    simpa using h _ (get_eq_some_iff.mp hget)
  · intro h e he
    simpa using h e.1 e.2 (get_eq_some_iff.mpr he)

/-- A row other than the one with the id has the key of the given row. -/
def conflicts (t : Table ρ key) (id : ℤ) (row : ρ) : Bool :=
  (key row).isSome && t.rows.any fun e => e.1 ≠ id && key e.2 = key row

theorem conflicts_iff : t.conflicts id row = true
    ↔ (key row).isSome ∧ ∃ other row', t.get other = some row' ∧ other ≠ id ∧ key row' = key row := by
  simp only [conflicts, Bool.and_eq_true, List.any_eq_true, decide_eq_true_eq, ne_eq, Prod.exists, get_eq_some_iff]

/-! ## Statements -/

/-- `INSERT` of a row with an id. -/
def insertAt (t : Table ρ key) (id : ℤ) (row : ρ) : Option (Table ρ key) :=
  if h : t.get id = none ∧ t.conflicts id row = false then
    some {
      rows := t.rows ++ [(id, row)]
      last := max t.last id
      nodup := by
        rw [List.map_append, List.map_singleton, List.nodup_append]
        refine ⟨t.nodup, List.nodup_singleton _, ?_⟩
        intro a ha b hb
        obtain ⟨e, he, rfl⟩ := List.mem_map.mp ha
        rw [List.mem_singleton.mp hb]
        exact get_eq_none_iff.mp h.1 e he
      le_last := by
        intro e he
        rcases List.mem_append.mp he with he | he
        · exact (t.le_last e he).trans (le_max_left _ _)
        · rw [List.mem_singleton.mp he]
          exact le_max_right _ _
      unique := by
        have hfree : ∀ e ∈ t.rows, (key row).isSome → key e.2 ≠ key row := by
          intro e he hsome heq
          refine absurd (conflicts_iff.mpr ⟨hsome, e.1, e.2, get_eq_some_iff.mpr he, ?_, heq⟩) (by rw [h.2]; decide)
          exact get_eq_none_iff.mp h.1 e he
        intro e he e' he' hsome heq
        rcases List.mem_append.mp he with he | he <;> rcases List.mem_append.mp he' with he' | he'
        · exact t.unique e he e' he' hsome heq
        · rw [List.mem_singleton.mp he'] at heq ⊢
          exact absurd heq (hfree e he (heq ▸ hsome))
        · rw [List.mem_singleton.mp he] at heq hsome ⊢
          exact absurd heq.symm (hfree e' he' hsome)
        · rw [List.mem_singleton.mp he, List.mem_singleton.mp he'] }
  else none

/-- `INSERT` of a row; `last_insert_rowid` is then the entry of `sqlite_sequence`. -/
def insert (t : Table ρ key) (row : ρ) : Option (Table ρ key) := t.insertAt (t.last + 1) row

/-- `UPDATE` of one row. -/
def update (t : Table ρ key) (id : ℤ) (f : ρ → ρ) : Option (Table ρ key) :=
  if h : ∀ row, t.get id = some row → t.conflicts id (f row) = false then
    some {
      rows := t.rows.map fun e => if e.1 = id then (e.1, f e.2) else e
      last := t.last
      nodup := by
        rw [List.map_map]
        refine (List.map_congr_left fun e _ => ?_).symm ▸ t.nodup
        dsimp only [Function.comp]
        split <;> rfl
      le_last := by
        intro e he
        obtain ⟨e₀, he₀, rfl⟩ := List.mem_map.mp he
        split <;> exact t.le_last e₀ he₀
      unique := by
        have hfree : ∀ e ∈ t.rows, e.1 = id → ∀ e' ∈ t.rows, e'.1 ≠ id → (key (f e.2)).isSome →
            key (f e.2) ≠ key e'.2 := by
          intro e he hid e' he' hne hsome heq
          have hclear := h e.2 (get_eq_some_iff.mpr (hid ▸ he))
          refine absurd (conflicts_iff.mpr ⟨hsome, e'.1, e'.2, get_eq_some_iff.mpr he', hne, heq.symm⟩) ?_
          rw [hclear]
          decide
        intro e he e' he' hsome heq
        obtain ⟨e₀, he₀, rfl⟩ := List.mem_map.mp he
        obtain ⟨e₁, he₁, rfl⟩ := List.mem_map.mp he'
        by_cases hid : e₀.1 = id <;> by_cases hid' : e₁.1 = id
        · rw [if_pos hid, if_pos hid']
          exact hid.trans hid'.symm
        · rw [if_pos hid] at hsome heq
          rw [if_neg hid'] at heq
          exact absurd heq (hfree e₀ he₀ hid e₁ he₁ hid' hsome)
        · rw [if_neg hid] at hsome heq
          rw [if_pos hid'] at heq
          exact absurd heq.symm (hfree e₁ he₁ hid' e₀ he₀ hid (heq ▸ hsome))
        · rw [if_neg hid] at hsome heq ⊢
          rw [if_neg hid'] at heq ⊢
          exact t.unique e₀ he₀ e₁ he₁ hsome heq }
  else none

/-- `UPDATE` of the rows with some condition, where no key changes. -/
def updateAll (t : Table ρ key) (f : ρ → ρ) (hkey : ∀ row, key (f row) = key row) : Table ρ key where
  rows := t.rows.map fun e => (e.1, f e.2)
  last := t.last
  nodup := by
    rw [List.map_map]
    exact t.nodup
  le_last := by
    intro e he
    obtain ⟨e₀, he₀, rfl⟩ := List.mem_map.mp he
    exact t.le_last e₀ he₀
  unique := by
    intro e he e' he' hsome heq
    obtain ⟨e₀, he₀, rfl⟩ := List.mem_map.mp he
    obtain ⟨e₁, he₁, rfl⟩ := List.mem_map.mp he'
    rw [hkey] at hsome heq
    rw [hkey] at heq
    exact t.unique e₀ he₀ e₁ he₁ hsome heq

/-- `DELETE` of one row. -/
def delete (t : Table ρ key) (id : ℤ) : Table ρ key where
  rows := t.rows.filter fun e => e.1 ≠ id
  last := t.last
  nodup := t.nodup.sublist (List.filter_sublist.map _)
  le_last := fun e he => t.le_last e (List.mem_of_mem_filter he)
  unique := fun e he e' he' => t.unique e (List.mem_of_mem_filter he) e' (List.mem_of_mem_filter he')

theorem insertAt_eq_none_iff : t.insertAt id row = none ↔ t.get id ≠ none ∨ t.conflicts id row = true := by
  rw [insertAt]
  split
  · rename_i h
    simp [h.1, h.2]
  · rename_i h
    rw [not_and_or, Bool.not_eq_false] at h
    exact iff_of_true rfl h

/-- What an insertion does. -/
theorem get_insertAt (h : t.insertAt id row = some t') (other : ℤ) :
    t.get id = none ∧ t.conflicts id row = false ∧ t'.last = max t.last id
      ∧ t'.get other = if other = id then some row else t.get other := by
  rw [insertAt] at h
  split at h
  · rename_i hfree
    rw [Option.some.injEq] at h
    subst h
    refine ⟨hfree.1, hfree.2, rfl, ?_⟩
    split
    · rename_i hother
      subst hother
      exact get_eq_some_iff.mpr (List.mem_append_right _ List.mem_cons_self)
    · rename_i hother
      refine Option.ext fun r => ?_
      rw [get_eq_some_iff, get_eq_some_iff, List.mem_append, List.mem_singleton, Prod.mk.injEq]
      exact or_iff_left fun heq => hother heq.1
  · cases h

omit [DecidableEq κ] in
theorem get_next (t : Table ρ key) : t.get (t.last + 1) = none :=
  get_eq_none_iff.mpr fun e he heq => absurd (t.le_last e he) (by omega)

theorem insert_eq_none_iff : t.insert row = none ↔ ∃ other row', t.get other = some row'
    ∧ (key row).isSome ∧ key row' = key row := by
  rw [insert, insertAt_eq_none_iff, conflicts_iff]
  constructor
  · rintro (h | ⟨hsome, other, row', hget, -, heq⟩)
    · exact absurd t.get_next h
    · exact ⟨other, row', hget, hsome, heq⟩
  · rintro ⟨other, row', hget, hsome, heq⟩
    refine Or.inr ⟨hsome, other, row', hget, ?_, heq⟩
    rintro rfl
    rw [t.get_next] at hget
    cases hget

theorem get_insert (h : t.insert row = some t') (other : ℤ) :
    t'.last = t.last + 1 ∧ t'.get other = if other = t.last + 1 then some row else t.get other := by
  obtain ⟨-, -, hlast, hget⟩ := get_insertAt h other
  exact ⟨hlast.trans (max_eq_right (by omega)), hget⟩

/-- What an update of one row does. -/
theorem get_update {f : ρ → ρ} (h : t.update id f = some t') (other : ℤ) :
    t'.last = t.last ∧ t'.get other = if other = id then (t.get id).map f else t.get other := by
  rw [update] at h
  split at h
  · rw [Option.some.injEq] at h
    subst h
    refine ⟨rfl, Option.ext fun r => ?_⟩
    rw [get_eq_some_iff, List.mem_map]
    split
    · rename_i hother
      subst hother
      rw [Option.map_eq_some_iff]
      constructor
      · rintro ⟨e, he, heq⟩
        split at heq
        · rename_i hid
          rw [Prod.mk.injEq] at heq
          exact ⟨e.2, get_eq_some_iff.mpr (hid ▸ he), heq.2⟩
        · rename_i hid
          exact absurd (congrArg Prod.fst heq) hid
      · rintro ⟨row, hget, rfl⟩
        exact ⟨(other, row), get_eq_some_iff.mp hget, if_pos rfl⟩
    · rename_i hother
      rw [get_eq_some_iff]
      constructor
      · rintro ⟨e, he, heq⟩
        split at heq
        · rename_i hid
          exact absurd ((congrArg Prod.fst heq).symm.trans hid) hother
        · exact heq ▸ he
      · exact fun hmem => ⟨(other, r), hmem, if_neg hother⟩
  · cases h

omit [DecidableEq κ] in
theorem get_updateAll {f : ρ → ρ} {hkey : ∀ row, key (f row) = key row} (t : Table ρ key) (other : ℤ) :
    (t.updateAll f hkey).get other = (t.get other).map f := by
  refine Option.ext fun r => ?_
  rw [get_eq_some_iff, updateAll, List.mem_map, Option.map_eq_some_iff]
  constructor
  · rintro ⟨e, he, heq⟩
    rw [Prod.mk.injEq] at heq
    exact ⟨e.2, get_eq_some_iff.mpr (heq.1 ▸ he), heq.2⟩
  · rintro ⟨row, hget, rfl⟩
    exact ⟨(other, row), get_eq_some_iff.mp hget, rfl⟩

omit [DecidableEq κ] in
theorem get_delete (t : Table ρ key) (id other : ℤ) :
    (t.delete id).get other = if other = id then none else t.get other := by
  refine Option.ext fun r => ?_
  rw [get_eq_some_iff, delete, List.mem_filter, decide_eq_true_eq]
  split
  · rename_i hother
    exact iff_of_false (fun h => h.2 hother) (Option.some_ne_none r).symm
  · rename_i hother
    rw [get_eq_some_iff]
    exact and_iff_left hother

/-! ## Runs -/

omit [DecidableEq κ] in
/-- Every row is still there, and has changed as the relation allows. -/
def Evolves (R : ρ → ρ → Prop) (t t' : Table ρ key) : Prop :=
  t.last ≤ t'.last ∧ ∀ id row, t.get id = some row → ∃ row', t'.get id = some row' ∧ R row row'

variable {R : ρ → ρ → Prop}

omit [DecidableEq κ] in
theorem Evolves.refl (hrefl : ∀ row, R row row) (t : Table ρ key) : t.Evolves R t :=
  ⟨le_rfl, fun _ row hget => ⟨row, hget, hrefl row⟩⟩

omit [DecidableEq κ] in
theorem Evolves.trans (htrans : ∀ {a b c}, R a b → R b c → R a c) (h : t.Evolves R t') (h' : t'.Evolves R u) :
    t.Evolves R u := by
  refine ⟨h.1.trans h'.1, fun id row hget => ?_⟩
  obtain ⟨row', hget', hrow⟩ := h.2 id row hget
  obtain ⟨row'', hget'', hrow'⟩ := h'.2 id row' hget'
  exact ⟨row'', hget'', htrans hrow hrow'⟩

theorem evolves_insertAt (hrefl : ∀ row, R row row) (h : t.insertAt id row = some t') : t.Evolves R t' := by
  refine ⟨(get_insertAt h id).2.2.1 ▸ le_max_left _ _, fun other r hget => ⟨r, ?_, hrefl r⟩⟩
  obtain ⟨hfree, -, -, hget'⟩ := get_insertAt h other
  rw [hget', if_neg, hget]
  rintro rfl
  rw [hfree] at hget
  cases hget

theorem evolves_update {f : ρ → ρ} (hrefl : ∀ row, R row row) (h : t.update id f = some t')
    (hf : ∀ row, t.get id = some row → R row (f row)) : t.Evolves R t' := by
  refine ⟨(get_update h id).1.ge, fun other r hget => ?_⟩
  have hget' := (get_update h other).2
  split at hget'
  · rename_i hother
    subst hother
    rw [hget, Option.map_some] at hget'
    exact ⟨f r, hget', hf r hget⟩
  · exact ⟨r, hget'.trans hget, hrefl r⟩

omit [DecidableEq κ] in
theorem evolves_updateAll {f : ρ → ρ} {hkey : ∀ row, key (f row) = key row} (hf : ∀ row, R row (f row)) :
    t.Evolves R (t.updateAll f hkey) := by
  refine ⟨le_rfl, fun other r hget => ⟨f r, ?_, hf r⟩⟩
  rw [get_updateAll, hget, Option.map_some]

end Table
