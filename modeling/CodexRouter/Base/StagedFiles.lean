/-
# Files that are replaced together

Files are replaced in turn, each from a content in memory (`commit`); when one of them cannot be
replaced, all are put back (`putBack`).  The faults say at which paths the replacing fails and what
it leaves there.

* `commit_ok` : when all are replaced, every path holds its content;
* `putBack_commit` : putting back undoes a commit that ended anywhere.
-/
import Mathlib.Data.List.Nodup
import Mathlib.Logic.Function.Basic

/-- What a write that fails leaves: the file that was there, or none. -/
inductive WriteFault where
  | kept
  | lost
  deriving DecidableEq, Repr

/-- The contents of the files at the paths. -/
abbrev Files (P C : Type) := P → Option C

namespace Files

variable {P C : Type} [DecidableEq P]

/-- Write a file in the place of another, or remove it: whether it worked, and the files. -/
def replace (fault : Option WriteFault) (path : P) (content : Option C) (files : Files P C) : Bool × Files P C :=
  match fault, content with
  | none, _ => (true, Function.update files path content)
  | some .kept, some _ => (false, files)
  | some .lost, some _ => (false, Function.update files path none)
  | some _, none => ((files path).isNone, files)

/-- Replace files in turn, up to the first one that fails. -/
def commit (faults : P → Option WriteFault) : List (P × Option C) → Files P C → Bool × Files P C
  | [], files => (true, files)
  | (path, content) :: rest, files =>
    let first := files.replace (faults path) path content
    if first.1 then commit faults rest first.2 else first

/-- Put back the originals at all of the paths: whether all of it worked, and the files. -/
def putBack (faults : P → Option WriteFault) (originals : Files P C) : List P → Files P C → Bool × Files P C
  | [], files => (true, files)
  | path :: rest, files =>
    let first := files.replace (faults path) path (originals path)
    let others := putBack faults originals rest first.2
    (first.1 && others.1, others.2)

/-- The files at the moments of a commit. -/
def commitMoments (faults : P → Option WriteFault) : List (P × Option C) → Files P C → List (Files P C)
  | [], files => [files]
  | (path, content) :: rest, files =>
    let first := files.replace (faults path) path content
    files :: if first.1 then commitMoments faults rest first.2 else [first.2]

/-- The files at the moments of putting back. -/
def putBackMoments (faults : P → Option WriteFault) (originals : Files P C) :
    List P → Files P C → List (Files P C)
  | [], files => [files]
  | path :: rest, files =>
    files :: putBackMoments faults originals rest (files.replace (faults path) path (originals path)).2

variable {fault : Option WriteFault} {faults : P → Option WriteFault} {path other : P} {content : Option C}
  {files originals : Files P C} {ops : List (P × Option C)} {paths : List P}

theorem replace_none (path : P) (content : Option C) (files : Files P C) :
    files.replace none path content = (true, Function.update files path content) := by
  cases content <;> rfl

/-- The files at the other paths stay. -/
theorem replace_other (h : other ≠ path) : (files.replace fault path content).2 other = files other := by
  match fault, content with
  | none, _ => exact Function.update_of_ne h _ _
  | some .kept, some _ => rfl
  | some .lost, some _ => exact Function.update_of_ne h _ _
  | some .kept, none => rfl
  | some .lost, none => rfl

theorem replace_self (h : (files.replace fault path content).1 = true) :
    (files.replace fault path content).2 path = content := by
  match fault, content with
  | none, _ => exact Function.update_self _ _ _
  | some .kept, some _ => cases h
  | some .lost, some _ => cases h
  | some .kept, none => exact Option.isNone_iff_eq_none.mp h
  | some .lost, none => exact Option.isNone_iff_eq_none.mp h

/-- A failed replacing never leaves the new file. -/
theorem replace_failed (h : (files.replace fault path content).1 = false) :
    (files.replace fault path content).2 path = files path ∨ (files.replace fault path content).2 path = none := by
  match fault, content with
  | none, _ => cases h
  | some .kept, some _ => exact .inl rfl
  | some .lost, some _ => exact .inr (Function.update_self _ _ _)
  | some .kept, none => exact .inl rfl
  | some .lost, none => exact .inl rfl

/-- A fault counts if something is written or removed. -/
theorem replace_fst_iff : (files.replace fault path content).1 = true
    ↔ fault = none ∨ (content = none ∧ files path = none) := by
  match fault, content with
  | none, _ => simp [replace]
  | some .kept, some _ => simp [replace]
  | some .lost, some _ => simp [replace]
  | some .kept, none => simp [replace]
  | some .lost, none => simp [replace]

/-! ## Committing -/

theorem commit_cons_of_ok (h : (files.replace (faults path) path content).1 = true) :
    files.commit faults ((path, content) :: ops) = (files.replace (faults path) path content).2.commit faults ops :=
  if_pos h

theorem commit_cons_of_failed (h : (files.replace (faults path) path content).1 = false) :
    files.commit faults ((path, content) :: ops) = files.replace (faults path) path content :=
  if_neg (by rw [h]; decide)

/-- Paths that are not replaced keep their files. -/
theorem commit_other (h : other ∉ ops.map Prod.fst) : (files.commit faults ops).2 other = files other := by
  induction ops generalizing files with
  | nil => rfl
  | cons op ops ih =>
    obtain ⟨path, content⟩ := op
    rw [List.map_cons, List.mem_cons, not_or] at h
    cases hfirst : (files.replace (faults path) path content).1 with
    | true => rw [commit_cons_of_ok hfirst, ih h.2, replace_other h.1]
    | false => rw [commit_cons_of_failed hfirst, replace_other h.1]

/-- When the commit ends well, every path holds its content. -/
theorem commit_ok (hnodup : (ops.map Prod.fst).Nodup) (h : (files.commit faults ops).1 = true)
    (hop : (path, content) ∈ ops) : (files.commit faults ops).2 path = content := by
  induction ops generalizing files with
  | nil => cases hop
  | cons op ops ih =>
    obtain ⟨first, new⟩ := op
    rw [List.map_cons, List.nodup_cons] at hnodup
    cases hfirst : (files.replace (faults first) first new).1 with
    | false =>
      rw [commit_cons_of_failed hfirst, hfirst] at h
      cases h
    | true =>
      rw [commit_cons_of_ok hfirst] at h ⊢
      rcases List.mem_cons.mp hop with heq | hop
      · obtain ⟨rfl, rfl⟩ := Prod.mk.inj heq
        rw [commit_other hnodup.1, replace_self hfirst]
      · exact ih hnodup.2 h hop

/-- A commit that ends well met no fault where it writes. -/
theorem commit_ok_faults (h : (files.commit faults ops).1 = true) {c : C} (hop : (path, some c) ∈ ops) :
    faults path = none := by
  induction ops generalizing files with
  | nil => cases hop
  | cons op ops ih =>
    obtain ⟨first, new⟩ := op
    cases hfirst : (files.replace (faults first) first new).1 with
    | false =>
      rw [commit_cons_of_failed hfirst, hfirst] at h
      cases h
    | true =>
      rw [commit_cons_of_ok hfirst] at h
      rcases List.mem_cons.mp hop with heq | hop
      · obtain ⟨rfl, rfl⟩ := Prod.mk.inj heq
        match hfault : faults path with
        | none => rfl
        | some .kept =>
          rw [hfault] at hfirst
          cases hfirst
        | some .lost =>
          rw [hfault] at hfirst
          cases hfirst
      · exact ih h hop

/-- A commit that fails has not replaced the last file. -/
theorem commit_failed_last (hlast : path ∉ ops.map Prod.fst)
    (h : (files.commit faults (ops ++ [(path, content)])).1 = false) :
    (files.commit faults (ops ++ [(path, content)])).2 path = files path
      ∨ (files.commit faults (ops ++ [(path, content)])).2 path = none := by
  induction ops generalizing files with
  | nil =>
    rw [List.nil_append] at h ⊢
    cases hfirst : (files.replace (faults path) path content).1 with
    | true =>
      rw [commit_cons_of_ok hfirst] at h
      cases h
    | false =>
      rw [commit_cons_of_failed hfirst]
      exact replace_failed hfirst
  | cons op ops ih =>
    obtain ⟨first, new⟩ := op
    rw [List.map_cons, List.mem_cons, not_or] at hlast
    rw [List.cons_append] at h ⊢
    cases hfirst : (files.replace (faults first) first new).1 with
    | true =>
      rw [commit_cons_of_ok hfirst] at h ⊢
      have hkept : (files.replace (faults first) first new).2 path = files path := replace_other hlast.1
      rw [← hkept]
      exact ih hlast.2 h
    | false =>
      rw [commit_cons_of_failed hfirst]
      exact .inl (replace_other hlast.1)

theorem commitMoments_other (hother : other ∉ ops.map Prod.fst) {moment : Files P C}
    (h : moment ∈ files.commitMoments faults ops) : moment other = files other := by
  induction ops generalizing files with
  | nil => rw [List.mem_singleton.mp h]
  | cons op ops ih =>
    obtain ⟨path, content⟩ := op
    rw [List.map_cons, List.mem_cons, not_or] at hother
    rw [commitMoments, List.mem_cons] at h
    rcases h with rfl | h
    · rfl
    · split at h
      · rw [ih hother.2 h, replace_other hother.1]
      · rw [List.mem_singleton.mp h, replace_other hother.1]

/-- At every moment of a commit the last file is replaced only when the others are. -/
theorem commitMoments_last (hnodup : ((ops ++ [(path, content)]).map Prod.fst).Nodup) {moment : Files P C}
    (h : moment ∈ files.commitMoments faults (ops ++ [(path, content)])) :
    moment path = files path ∨ moment path = none ∨ ∀ op ∈ ops, moment op.1 = op.2 := by
  induction ops generalizing files with
  | nil => exact .inr (.inr fun op hop => absurd hop List.not_mem_nil)
  | cons op ops ih =>
    obtain ⟨first, new⟩ := op
    rw [List.cons_append, List.map_cons, List.nodup_cons] at hnodup
    have hne : path ≠ first := by
      rintro rfl
      exact hnodup.1 (by simp)
    rw [List.cons_append, commitMoments, List.mem_cons] at h
    rcases h with rfl | h
    · exact .inl rfl
    · split at h
      · rename_i hfirst
        rcases ih hnodup.2 h with hold | hgone | hothers
        · exact .inl (hold.trans (replace_other hne))
        · exact .inr (.inl hgone)
        · refine .inr (.inr (List.forall_mem_cons.mpr ⟨?_, hothers⟩))
          rw [commitMoments_other hnodup.1 h, replace_self hfirst]
      · rw [List.mem_singleton.mp h]
        exact .inl (replace_other hne)

/-! ## Putting back -/

/-- Without faults every path gets its original. -/
theorem putBack_none (originals : Files P C) (paths : List P) (files : Files P C) :
    putBack (fun _ => none) originals paths files
      = (true, fun path => if path ∈ paths then originals path else files path) := by
  induction paths generalizing files with
  | nil => simp [putBack]
  | cons first rest ih =>
    rw [putBack, replace_none, ih]
    refine Prod.ext rfl (funext fun path => ?_)
    by_cases hrest : path ∈ rest
    · simp [hrest]
    · by_cases hfirst : path = first
      · simp [hfirst]
      · simp [hrest, hfirst]

/-- At every moment of putting back, the file at a path is the one before or the original. -/
theorem putBackMoments_cases {moment : Files P C}
    (h : moment ∈ putBackMoments (fun _ => none) originals paths files) (path : P) :
    moment path = files path ∨ moment path = originals path := by
  induction paths generalizing files with
  | nil => exact .inl (by rw [List.mem_singleton.mp h])
  | cons first rest ih =>
    rw [putBackMoments, List.mem_cons, replace_none] at h
    rcases h with rfl | h
    · exact .inl rfl
    · rcases ih h with heq | heq
      · by_cases hfirst : path = first
        · subst hfirst
          exact .inr (heq.trans (Function.update_self _ _ _))
        · exact .inl (heq.trans (Function.update_of_ne hfirst _ _))
      · exact .inr heq

/-- Putting back undoes a commit, wherever it ended. -/
theorem putBack_commit (hpaths : ∀ path ∈ ops.map Prod.fst, path ∈ paths) :
    putBack (fun _ => none) files paths (files.commit faults ops).2 = (true, files) := by
  rw [putBack_none]
  refine Prod.ext rfl (funext fun path => ?_)
  dsimp only
  split
  · rfl
  · rename_i h
    exact commit_other fun hmem => h (hpaths path hmem)

end Files
