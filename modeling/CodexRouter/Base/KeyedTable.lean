/-
# The first and the best element of each key

Two loops over a list that keep one element of each key.  `collectNew` keeps the
first one, with a set of the keys seen so far; `OrdMap.collect` keeps the best
one, in an ordered map (`std::collections::BTreeMap`) from the keys to the
elements.  `OrdMap.gather` adds the elements of each key up instead.
-/
import Mathlib.Algebra.BigOperators.Group.List.Basic
import Mathlib.Data.List.Basic
import Mathlib.Order.Lattice

/-! ## The first element of each key -/

section

variable {α β κ : Type} [DecidableEq κ]

/-- Map the elements and keep the results whose key was not seen before. -/
def collectNew (key : β → κ) (f : α → Option β) : List κ → List α → List β
  | _, [] => []
  | seen, a :: rest =>
    match f a with
    | none => collectNew key f seen rest
    | some b =>
      if key b ∈ seen then collectNew key f seen rest
      else b :: collectNew key f (key b :: seen) rest

variable {key : β → κ} {f : α → Option β} {s : List κ} {l : List α}

/-- Nothing is reordered or made up. -/
theorem collectNew_sublist : (collectNew key f s l).Sublist (l.filterMap f) := by
  induction l generalizing s with
  | nil => exact List.Sublist.slnil
  | cons a rest ih =>
    rw [collectNew]
    cases hf : f a with
    | none =>
      rw [List.filterMap_cons_none hf]
      exact ih
    | some b =>
      rw [List.filterMap_cons_some hf]
      show List.Sublist (if key b ∈ s then _ else _) _
      split
      · exact ih.cons b
      · exact ih.cons_cons b

theorem mem_collectNew {b : β} (h : b ∈ collectNew key f s l) : ∃ a ∈ l, f a = some b :=
  List.mem_filterMap.mp (collectNew_sublist.subset h)

/-- The keys of the results are new and differ from each other. -/
theorem nodup_collectNew : ((collectNew key f s l).map key).Nodup
    ∧ ∀ b ∈ collectNew key f s l, key b ∉ s := by
  induction l generalizing s with
  | nil => simp [collectNew]
  | cons a rest ih =>
    rw [collectNew]
    cases hf : f a with
    | none => exact ih
    | some b =>
      show ((if key b ∈ s then _ else _ : List β).map key).Nodup
        ∧ ∀ c ∈ (if key b ∈ s then _ else _ : List β), _
      split
      · exact ih
      · rename_i hnew
        obtain ⟨hnodup, hfresh⟩ := ih (s := key b :: s)
        constructor
        · rw [List.map_cons, List.nodup_cons]
          refine ⟨?_, hnodup⟩
          intro hmem
          obtain ⟨c, hc, hkey⟩ := List.mem_map.mp hmem
          exact hfresh c hc (hkey ▸ List.mem_cons_self)
        · intro c hc
          rcases List.mem_cons.mp hc with rfl | hc
          · exact hnew
          · exact fun hmem => hfresh c hc (List.mem_cons_of_mem _ hmem)

/-- What is kept is the first element of its key. -/
theorem find?_of_mem_collectNew {g : α → β} {b : β}
    (h : b ∈ collectNew key (fun a => some (g a)) s l) :
    ∃ a, l.find? (fun a => decide (key (g a) = key b)) = some a ∧ g a = b := by
  induction l generalizing s with
  | nil => simp [collectNew] at h
  | cons a rest ih =>
    by_cases hseen : key (g a) ∈ s
    · have hne : key (g a) ≠ key b := fun heq => nodup_collectNew.2 b h (heq ▸ hseen)
      rw [collectNew] at h
      simp only [if_pos hseen] at h
      rw [List.find?_cons_of_neg (by simpa using hne)]
      exact ih h
    · rw [collectNew] at h
      simp only [if_neg hseen] at h
      rcases List.mem_cons.mp h with rfl | h
      · exact ⟨a, List.find?_cons_of_pos (by simp), rfl⟩
      · have hne : key (g a) ≠ key b := fun heq =>
          nodup_collectNew.2 b h (heq ▸ List.mem_cons_self)
        rw [List.find?_cons_of_neg (by simpa using hne)]
        exact ih h

/-- Every key is taken, by an earlier element or by this one. -/
theorem exists_mem_collectNew {a : α} {b : β} (ha : a ∈ l) (hf : f a = some b) :
    key b ∈ s ∨ ∃ c ∈ collectNew key f s l, key c = key b := by
  induction l generalizing s with
  | nil => simp at ha
  | cons a' rest ih =>
    rw [collectNew]
    rcases List.mem_cons.mp ha with rfl | ha
    · rw [hf]
      by_cases hseen : key b ∈ s
      · exact Or.inl hseen
      · right
        refine ⟨b, ?_, rfl⟩
        show b ∈ if key b ∈ s then _ else _
        rw [if_neg hseen]
        exact List.mem_cons_self
    cases hf' : f a' with
    | none => exact ih ha
    | some b' =>
      show _ ∨ ∃ c ∈ (if key b' ∈ s then _ else _ : List β), _
      split
      · exact ih ha
      · rcases ih (s := key b' :: s) ha with h | ⟨c, hc, hkey⟩
        · rcases List.mem_cons.mp h with h | h
          · exact Or.inr ⟨b', List.mem_cons_self, h.symm⟩
          · exact Or.inl h
        · exact Or.inr ⟨c, List.mem_cons_of_mem _ hc, hkey⟩

/-- Elements whose keys were seen leave no trace. -/
theorem collectNew_append {m : List α} (h : ∀ a ∈ l, ∃ b, f a = some b ∧ key b ∈ s) :
    collectNew key f s (l ++ m) = collectNew key f s m := by
  induction l with
  | nil => rfl
  | cons a rest ih =>
    obtain ⟨b, hf, hseen⟩ := h a List.mem_cons_self
    rw [List.cons_append, collectNew, hf]
    dsimp only
    rw [if_pos hseen]
    exact ih fun c hc => h c (List.mem_cons_of_mem _ hc)

/-- Elements with new keys of their own are all kept. -/
theorem collectNew_eq_self {g : β → Option β} {l : List β} (hf : ∀ b ∈ l, g b = some b)
    (hkeys : (l.map key).Nodup) (hnew : ∀ b ∈ l, key b ∉ s) : collectNew key g s l = l := by
  induction l generalizing s with
  | nil => rfl
  | cons b rest ih =>
    rw [List.map_cons, List.nodup_cons] at hkeys
    rw [collectNew, hf b List.mem_cons_self]
    dsimp only
    rw [if_neg (hnew b List.mem_cons_self), ih (fun c hc => hf c (List.mem_cons_of_mem _ hc)) hkeys.2]
    intro c hc hmem
    rcases List.mem_cons.mp hmem with heq | hmem
    · exact hkeys.1 (heq ▸ List.mem_map_of_mem hc)
    · exact hnew c (List.mem_cons_of_mem _ hc) hmem

end

/-! ## Ordered maps -/

/-- The entries of an ordered map, in key order. -/
abbrev OrdMap (κ α : Type) := List (κ × α)

namespace OrdMap

variable {κ α : Type} [DecidableEq κ] [LT κ] [DecidableLT κ]

/-- `BTreeMap::get`. -/
def get (k : κ) : OrdMap κ α → Option α
  | [] => none
  | (k', v) :: rest => if k' = k then some v else get k rest

/-- `BTreeMap::insert`. -/
def insert (k : κ) (v : α) : OrdMap κ α → OrdMap κ α
  | [] => [(k, v)]
  | (k', v') :: rest =>
    if k' = k then (k, v) :: rest
    else if k < k' then (k, v) :: (k', v') :: rest
    else (k', v') :: insert k v rest

/-- `entry(k).or_insert(v)`. -/
def orInsert (k : κ) (v : α) (m : OrdMap κ α) : OrdMap κ α :=
  if (m.get k).isSome then m else m.insert k v

omit [LT κ] [DecidableLT κ] in
/-- What is read under a key is an entry. -/
theorem mem_of_get {k : κ} {v : α} {m : OrdMap κ α} (h : m.get k = some v) : (k, v) ∈ m := by
  induction m with
  | nil => simp [get] at h
  | cons e rest ih =>
    obtain ⟨k', v'⟩ := e
    rw [get] at h
    split at h
    · rename_i hk
      rw [Option.some.injEq] at h
      rw [hk, h]
      exact List.mem_cons_self
    · exact List.mem_cons_of_mem _ (ih h)

/-- An entry after an insertion is the new one or an old one. -/
theorem mem_insert {k : κ} {v : α} {m : OrdMap κ α} {e : κ × α} (h : e ∈ m.insert k v) :
    e = (k, v) ∨ e ∈ m := by
  induction m with
  | nil => exact Or.inl (by simpa [insert] using h)
  | cons e' rest ih =>
    obtain ⟨k', v'⟩ := e'
    rw [insert] at h
    split at h
    · rcases List.mem_cons.mp h with h | h
      · exact Or.inl h
      · exact Or.inr (List.mem_cons_of_mem _ h)
    split at h
    · rcases List.mem_cons.mp h with h | h
      · exact Or.inl h
      · exact Or.inr h
    · rcases List.mem_cons.mp h with h | h
      · exact Or.inr (h ▸ List.mem_cons_self)
      · rcases ih h with h | h
        · exact Or.inl h
        · exact Or.inr (List.mem_cons_of_mem _ h)

/-- The key that was inserted. -/
@[simp] theorem get_insert_self (k : κ) (v : α) (m : OrdMap κ α) :
    (m.insert k v).get k = some v := by
  induction m with
  | nil => simp [insert, get]
  | cons e rest ih =>
    obtain ⟨k', v'⟩ := e
    by_cases hk : k' = k
    · simp [insert, get, hk]
    · by_cases hlt : k < k'
      · simp [insert, get, hk, hlt]
      · simp [insert, get, hk, hlt, ih]

/-- The other keys. -/
@[simp] theorem get_insert_ne {k k' : κ} (h : k' ≠ k) (v : α) (m : OrdMap κ α) :
    (m.insert k v).get k' = m.get k' := by
  induction m with
  | nil => simp [insert, get, Ne.symm h]
  | cons e rest ih =>
    obtain ⟨k'', v'⟩ := e
    by_cases hk : k'' = k
    · subst hk
      simp [insert, get, Ne.symm h]
    · by_cases hlt : k < k''
      · simp [insert, get, hk, hlt, Ne.symm h]
      · by_cases hk' : k'' = k'
        · subst hk'
          simp [insert, get, hk, hlt]
        · simp [insert, get, hk, hlt, hk', ih]

/-- A key that is there keeps its value. -/
theorem get_orInsert (k k' : κ) (v : α) (m : OrdMap κ α) :
    (m.orInsert k v).get k' = (m.get k').or (if k' = k then some v else none) := by
  rw [orInsert]
  by_cases hk : k' = k
  · subst hk
    cases hget : m.get k' with
    | none => simp
    | some u => simp [hget]
  · rw [if_neg hk, Option.or_none]
    split
    · rfl
    · rw [get_insert_ne hk]

/-! ## Key order -/

section

variable {κ α : Type} [LinearOrder κ]

/-- The entries are in strict key order. -/
def Ordered (m : OrdMap κ α) : Prop := m.Pairwise (·.1 < ·.1)

theorem ordered_nil : Ordered ([] : OrdMap κ α) := List.Pairwise.nil

theorem ordered_insert {k : κ} {v : α} {m : OrdMap κ α} (h : m.Ordered) :
    (m.insert k v).Ordered := by
  induction m with
  | nil => exact List.pairwise_singleton _ _
  | cons e rest ih =>
    obtain ⟨k', v'⟩ := e
    obtain ⟨hlt, hrest⟩ := List.pairwise_cons.mp h
    rw [insert]
    split
    · rename_i hk
      exact List.pairwise_cons.mpr ⟨fun e he => hk ▸ hlt e he, hrest⟩
    split
    · rename_i hk
      refine List.pairwise_cons.mpr ⟨fun e he => ?_, h⟩
      rcases List.mem_cons.mp he with rfl | he
      · exact hk
      · exact lt_trans hk (hlt e he)
    · rename_i hne hnlt
      refine List.pairwise_cons.mpr ⟨fun e he => ?_, ih hrest⟩
      rcases mem_insert he with rfl | he
      · exact lt_of_le_of_ne (not_lt.mp hnlt) hne
      · exact hlt e he

/-- In an ordered map every entry is what is read under its key. -/
theorem get_of_mem {m : OrdMap κ α} (h : m.Ordered) {k : κ} {v : α} (hmem : (k, v) ∈ m) :
    m.get k = some v := by
  induction m with
  | nil => simp at hmem
  | cons e rest ih =>
    obtain ⟨k', v'⟩ := e
    obtain ⟨hlt, hrest⟩ := List.pairwise_cons.mp h
    rw [get]
    rcases List.mem_cons.mp hmem with heq | hmem
    · cases heq
      rw [if_pos rfl]
    · rw [if_neg (ne_of_lt (hlt _ hmem))]
      exact ih hrest hmem

/-- A new key adds one entry. -/
theorem perm_insert_of_get_none {m : OrdMap κ α} {k : κ} (h : m.get k = none) (v : α) :
    (m.insert k v).Perm ((k, v) :: m) := by
  induction m with
  | nil => exact List.Perm.refl _
  | cons e rest ih =>
    obtain ⟨k', v'⟩ := e
    rw [get] at h
    rw [insert]
    split at h
    · cases h
    · rename_i hne
      rw [if_neg hne]
      split
      · exact List.Perm.refl _
      · exact ((ih h).cons _).trans (List.Perm.swap _ _ _)

/-- The entry of a key that is there, and the others. -/
theorem perm_insert_of_get_some {m : OrdMap κ α} (h : m.Ordered) {k : κ} {v : α}
    (hget : m.get k = some v) :
    ∃ rest : OrdMap κ α, m.Perm ((k, v) :: rest) ∧ ∀ w, (m.insert k w).Perm ((k, w) :: rest) := by
  induction m with
  | nil => cases hget
  | cons e rest ih =>
    obtain ⟨k', v'⟩ := e
    obtain ⟨hlt, hrest⟩ := List.pairwise_cons.mp h
    rw [get] at hget
    split at hget
    · rename_i hk
      cases hget
      refine ⟨rest, hk ▸ List.Perm.refl _, fun w => ?_⟩
      rw [insert, if_pos hk]
    · rename_i hne
      obtain ⟨others, hperm, hinsert⟩ := ih hrest hget
      refine ⟨(k', v') :: others, (hperm.cons _).trans (List.Perm.swap _ _ _), fun w => ?_⟩
      have hless : ¬ k < k' := not_lt.mpr (le_of_lt (hlt _ (mem_of_get hget)))
      rw [insert, if_neg hne, if_neg hless]
      exact ((hinsert w).cons _).trans (List.Perm.swap _ _ _)

theorem ordered_orInsert {k : κ} {v : α} {m : OrdMap κ α} (h : m.Ordered) :
    (m.orInsert k v).Ordered := by
  rw [orInsert]
  split
  · exact h
  · exact ordered_insert h

/-- Enter the entries of a list one after the other. -/
def insertAll (m : OrdMap κ α) (entries : List (κ × α)) : OrdMap κ α :=
  entries.foldl (fun m e => m.insert e.1 e.2) m

theorem ordered_insertAll {m : OrdMap κ α} {entries : List (κ × α)} (h : m.Ordered) :
    (m.insertAll entries).Ordered := by
  induction entries generalizing m with
  | nil => exact h
  | cons e rest ih => exact ih (ordered_insert h)

/-- The last entry of a key counts. -/
theorem get_insertAll_concat (m : OrdMap κ α) (entries : List (κ × α)) (e : κ × α) (k : κ) :
    (m.insertAll (entries ++ [e])).get k = if e.1 = k then some e.2 else (m.insertAll entries).get k := by
  have hlast : m.insertAll (entries ++ [e]) = (m.insertAll entries).insert e.1 e.2 := List.foldl_concat ..
  rw [hlast]
  split
  · rename_i hk
    rw [← hk, get_insert_self]
  · rename_i hk
    rw [get_insert_ne (Ne.symm hk)]

/-- One value under several keys. -/
theorem get_insertAll_const (m : OrdMap κ α) (keys : List κ) (v : α) (k : κ) :
    (m.insertAll (keys.map fun key => (key, v))).get k = if k ∈ keys then some v else m.get k := by
  induction keys generalizing m with
  | nil => rfl
  | cons key rest ih =>
    have hfirst : m.insertAll ((key :: rest).map fun key => (key, v))
        = (m.insert key v).insertAll (rest.map fun key => (key, v)) := rfl
    rw [hfirst, ih]
    by_cases hk : k = key
    · rw [hk, get_insert_self, if_pos List.mem_cons_self, ite_self]
    · rw [get_insert_ne hk]
      simp [hk]

/-- Entering an ordered map overrides the keys it has. -/
theorem get_insertAll {m new : OrdMap κ α} (h : new.Ordered) (k : κ) :
    (m.insertAll new).get k = (new.get k).or (m.get k) := by
  induction new generalizing m with
  | nil => rfl
  | cons e rest ih =>
    obtain ⟨k', v'⟩ := e
    obtain ⟨hlt, hrest⟩ := List.pairwise_cons.mp h
    have hstep : (m.insertAll ((k', v') :: rest)).get k
        = (get k rest).or ((m.insert k' v').get k) := ih hrest
    rw [hstep, get]
    by_cases hk : k' = k
    · subst hk
      have hnone : get k' rest = none := by
        cases hget : get k' rest with
        | none => rfl
        | some v => exact absurd (hlt _ (mem_of_get hget)) (lt_irrefl _)
      rw [hnone, if_pos rfl, get_insert_self]
      rfl
    · rw [if_neg hk, get_insert_ne (Ne.symm hk)]

end

/-! ## The best candidate of each key -/

section

variable (key : α → κ) (better : α → α → Bool)

/-- Enter a candidate, unless its key has one that is at least as good. -/
def keep (table : OrdMap κ α) (a : α) : OrdMap κ α :=
  match table.get (key a) with
  | none => table.insert (key a) a
  | some existing => if better a existing then table.insert (key a) a else table

/-- The table of a list of candidates. -/
def collect (candidates : List α) : OrdMap κ α := candidates.foldl (keep key better) []

variable {key better} {table : OrdMap κ α} {candidates : List α}

/-- An entry is an old one or the candidate under its key. -/
theorem mem_keep {a : α} {e : κ × α} (h : e ∈ keep key better table a) :
    e = (key a, a) ∨ e ∈ table := by
  rw [keep] at h
  split at h
  · exact mem_insert h
  · split at h
    · exact mem_insert h
    · exact Or.inr h

/-- The key of a candidate is taken afterwards, and no key is given up. -/
theorem isSome_get_keep {a : α} {k : κ} (h : k = key a ∨ (table.get k).isSome) :
    ((keep key better table a).get k).isSome := by
  by_cases hk : k = key a
  · subst hk
    rw [keep]
    split
    · simp
    · rename_i existing hget
      split
      · simp
      · simp [hget]
  · have hold : (table.get k).isSome := h.resolve_left hk
    rw [keep]
    split
    · rwa [get_insert_ne hk]
    · split
      · rwa [get_insert_ne hk]
      · exact hold

theorem mem_foldl_keep {e : κ × α} (h : e ∈ candidates.foldl (keep key better) table) :
    e ∈ table ∨ e.2 ∈ candidates ∧ e.1 = key e.2 := by
  induction candidates generalizing table with
  | nil => exact Or.inl h
  | cons a rest ih =>
    rcases ih h with h | ⟨h, hkey⟩
    · rcases mem_keep h with rfl | h
      · exact Or.inr ⟨List.mem_cons_self, rfl⟩
      · exact Or.inl h
    · exact Or.inr ⟨List.mem_cons_of_mem _ h, hkey⟩

theorem isSome_get_foldl_keep {k : κ} (h : (∃ a ∈ candidates, k = key a) ∨ (table.get k).isSome) :
    ((candidates.foldl (keep key better) table).get k).isSome := by
  induction candidates generalizing table with
  | nil => simpa using h
  | cons a rest ih =>
    refine ih ?_
    rcases h with ⟨b, hb, hk⟩ | h
    · rcases List.mem_cons.mp hb with rfl | hb
      · exact Or.inr (isSome_get_keep (Or.inl hk))
      · exact Or.inl ⟨b, hb, hk⟩
    · exact Or.inr (isSome_get_keep (Or.inr h))

/-- Every entry of the table is a candidate under its own key. -/
theorem mem_collect {e : κ × α} (h : e ∈ collect key better candidates) :
    e.2 ∈ candidates ∧ e.1 = key e.2 :=
  (mem_foldl_keep h).resolve_left (by simp)

/-- Every candidate's key has an entry. -/
theorem exists_mem_collect {a : α} (h : a ∈ candidates) :
    ∃ b, (key a, b) ∈ collect key better candidates := by
  have hsome : ((collect key better candidates).get (key a)).isSome :=
    isSome_get_foldl_keep (Or.inl ⟨a, h, rfl⟩)
  obtain ⟨b, hb⟩ := Option.isSome_iff_exists.mp hsome
  exact ⟨b, mem_of_get hb⟩

end

/-! ## The elements of each key, added up -/

section

variable {α β κ : Type} [LinearOrder κ] (key : α → κ) (start : α → β) (add : β → α → β)

/-- `entry(key).or_insert_with(..)`, with the element added. -/
def enter (m : OrdMap κ β) (a : α) : OrdMap κ β := m.insert (key a) ((m.get (key a)).elim (start a) (add · a))

/-- Enter the elements of a list one after the other. -/
def gather (l : List α) : OrdMap κ β := l.foldl (enter key start add) []

variable {key start add} {m : OrdMap κ β} {l : List α} {a : α} {k : κ}

theorem get_enter_self : (enter key start add m a).get (key a) = some ((m.get (key a)).elim (start a) (add · a)) :=
  get_insert_self ..

theorem get_enter_ne (h : k ≠ key a) : (enter key start add m a).get k = m.get k := get_insert_ne h ..

theorem ordered_foldl_enter (h : m.Ordered) : (l.foldl (enter key start add) m).Ordered := by
  induction l generalizing m with
  | nil => exact h
  | cons a rest ih => exact ih (ordered_insert h)

/-- Under a key stands what its own elements add up to. -/
theorem get_foldl_enter : (l.foldl (enter key start add) m).get k
    = (l.filter (key · = k)).foldl (fun b a => some (b.elim (start a) (add · a))) (m.get k) := by
  induction l generalizing m with
  | nil => rfl
  | cons a rest ih =>
    rw [List.foldl_cons, ih]
    by_cases hk : key a = k
    · subst hk
      rw [List.filter_cons_of_pos (by simp), List.foldl_cons, get_enter_self]
    · rw [List.filter_cons_of_neg (by simpa using hk), get_enter_ne (Ne.symm hk)]

/-- A weight that every element adds to is summed over the whole table. -/
theorem sum_foldl_enter {M : Type} [AddCommMonoid M] {weight : β → M} {w : α → M}
    (hstart : ∀ a, weight (start a) = w a) (hadd : ∀ b a, weight (add b a) = weight b + w a) (h : m.Ordered) :
    ((l.foldl (enter key start add) m).map fun e => weight e.2).sum
      = (m.map fun e => weight e.2).sum + (l.map w).sum := by
  induction l generalizing m with
  | nil => exact (add_zero _).symm
  | cons a rest ih =>
    have hstep : ((enter key start add m a).map fun e => weight e.2).sum
        = (m.map fun e => weight e.2).sum + w a := by
      unfold enter
      cases hget : m.get (key a) with
      | none =>
        have hperm := (perm_insert_of_get_none hget (start a)).map fun e => weight e.2
        calc ((m.insert (key a) (start a)).map fun e => weight e.2).sum
            = weight (start a) + (m.map fun e => weight e.2).sum := hperm.sum_eq
          _ = (m.map fun e => weight e.2).sum + w a := by rw [hstart, add_comm]
      | some b =>
        obtain ⟨others, hperm, hinsert⟩ := perm_insert_of_get_some h hget
        have hold := (hperm.map fun e => weight e.2).sum_eq
        have hnew := ((hinsert (add b a)).map fun e => weight e.2).sum_eq
        rw [List.map_cons, List.sum_cons] at hold hnew
        calc ((m.insert (key a) (add b a)).map fun e => weight e.2).sum
            = weight b + w a + (others.map fun e => weight e.2).sum := by rw [hnew, hadd]
          _ = (m.map fun e => weight e.2).sum + w a := by rw [hold, add_right_comm]
    have hordered : (enter key start add m a).Ordered := ordered_insert h
    rw [List.foldl_cons, ih hordered, hstep, List.map_cons, List.sum_cons, add_assoc]

theorem ordered_gather : (gather key start add l).Ordered := ordered_foldl_enter ordered_nil

variable (key) in
theorem sum_gather {M : Type} [AddCommMonoid M] (weight : β → M) (w : α → M)
    (hstart : ∀ a, weight (start a) = w a) (hadd : ∀ b a, weight (add b a) = weight b + w a) :
    ((gather key start add l).map fun e => weight e.2).sum = (l.map w).sum := by
  unfold gather
  rw [sum_foldl_enter hstart hadd ordered_nil, List.map_nil, List.sum_nil, zero_add]

/-- The entries are the keys of the elements, each with the sum of its own. -/
theorem mem_gather_iff {b : β} : (k, b) ∈ gather key start add l ↔
    (l.filter (key · = k)).foldl (fun b a => some (b.elim (start a) (add · a))) none = some b := by
  have hget : (gather key start add l).get k = _ := get_foldl_enter (m := [])
  constructor
  · exact fun h => hget.symm.trans (get_of_mem ordered_gather h)
  · exact fun h => mem_of_get (hget.trans h)

/-- The key of an element has an entry. -/
theorem mem_keys_gather (h : a ∈ l) : key a ∈ (gather key start add l).map (·.1) := by
  have hsome : ∀ (rest : List α) (b : β), (rest.foldl (fun (b : Option β) a => some (b.elim (start a) (add · a)))
      (some b)).isSome := by
    intro rest
    induction rest with
    | nil => exact fun b => rfl
    | cons a rest ih => exact fun b => ih _
  have hget : (gather key start add l).get (key a) = _ := get_foldl_enter (m := [])
  cases hfilter : l.filter (key · = key a) with
  | nil => exact absurd (List.filter_eq_nil_iff.mp hfilter a h) (by simp)
  | cons a' rest =>
    rw [hfilter] at hget
    obtain ⟨b, hb⟩ := Option.isSome_iff_exists.mp (hsome rest (start a'))
    exact List.mem_map.mpr ⟨_, mem_of_get (hget.trans hb), rfl⟩

end

end OrdMap
