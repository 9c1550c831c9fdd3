/-
# Imports with a journal

An import takes up objects in turn and enters each one in a journal, with a digest of what it was.  An object that is
in the journal with its digest is passed over, one with another digest is refused, and every other one is taken up.

What an import that succeeds has entered stays entered (`takeAll_journaled`), so that the import can be repeated at any
later time, and does nothing more (`takeAll_of_journaled`).
-/
import Mathlib.Data.List.Basic

/-- How objects are taken up: what the journal has of them, what is done with one that is not there, and the error for
one that has changed. -/
structure Importer (S O K H E : Type) where
  key : O → K
  digest : O → H
  journal : S → K → Option H
  changed : O → E
  act : O → S → Except E (Bool × S)

namespace Importer

variable {S O K H E : Type} [DecidableEq H] (imp : Importer S O K H E)

/-- Take up one object, unless there is a fault: whether something is new, and the state. -/
def take (fault : Option E) (o : O) (s : S) : Except E (Bool × S) :=
  match fault with
  | some e => .error e
  | none =>
    match imp.journal s (imp.key o) with
    | some digest => if digest = imp.digest o then .ok (false, s) else .error (imp.changed o)
    | none => imp.act o s

/-- Take up objects in turn, up to the first error. -/
def takeAll (faults : ℕ → Option E) : List O → S → Except E (List Bool × S)
  | [], s => .ok ([], s)
  | o :: rest, s =>
    match imp.take (faults 0) o s with
    | .error e => .error e
    | .ok (isNew, s) =>
      match takeAll (fun n => faults (n + 1)) rest s with
      | .error e => .error e
      | .ok (more, s) => .ok (isNew :: more, s)

/-- Every object is in the journal. -/
def Journaled (s : S) (objects : List O) : Prop := ∀ o ∈ objects, imp.journal s (imp.key o) = some (imp.digest o)

/-- The journal has lost nothing. -/
def Keeps (s t : S) : Prop := ∀ k digest, imp.journal s k = some digest → imp.journal t k = some digest

/-- What is taken up is entered. -/
def Enters : Prop := ∀ o s isNew t, imp.act o s = .ok (isNew, t) → imp.journal s (imp.key o) = none →
  imp.Keeps s t ∧ imp.journal t (imp.key o) = some (imp.digest o)

variable {imp} {s t u : S} {o : O} {objects : List O} {faults : ℕ → Option E} {flags : List Bool}

omit [DecidableEq H] in
theorem Keeps.refl (s : S) : imp.Keeps s s := fun _ _ h => h

omit [DecidableEq H] in
theorem Keeps.trans (h : imp.Keeps s t) (h' : imp.Keeps t u) : imp.Keeps s u := fun k digest hk => h' k digest (h k digest hk)

omit [DecidableEq H] in
theorem Journaled.keep (h : imp.Journaled s objects) (hkeep : imp.Keeps s t) : imp.Journaled t objects :=
  fun o ho => hkeep _ _ (h o ho)

/-- Where one object is taken up, it was passed over, or it was not there and has been entered. -/
theorem take_eq_ok {fault : Option E} {isNew : Bool} (h : imp.take fault o s = .ok (isNew, t)) :
    (imp.journal s (imp.key o) = some (imp.digest o) ∧ isNew = false ∧ t = s)
      ∨ imp.journal s (imp.key o) = none ∧ imp.act o s = .ok (isNew, t) := by
  cases fault with
  | some e => cases h
  | none =>
    rw [take] at h
    split at h
    · rename_i digest hdigest
      split at h
      · rename_i hsame
        cases h
        exact Or.inl ⟨hsame ▸ hdigest, rfl, rfl⟩
      · cases h
    · rename_i hnone
      exact Or.inr ⟨hnone, h⟩

theorem takeAll_cons_eq_ok {rest : List O} (h : imp.takeAll faults (o :: rest) s = .ok (flags, t)) :
    ∃ isNew u more, imp.take (faults 0) o s = .ok (isNew, u)
      ∧ imp.takeAll (fun n => faults (n + 1)) rest u = .ok (more, t) ∧ flags = isNew :: more := by
  rw [takeAll] at h
  split at h
  · cases h
  · rename_i isNew u hfirst
    split at h
    · cases h
    · rename_i more t' hrest
      cases h
      exact ⟨isNew, u, more, hfirst, hrest, rfl⟩

/-- What taking up one object keeps, the import keeps. -/
theorem takeAll_invariant {I : S → Prop} (hact : ∀ o ∈ objects, ∀ s isNew t, I s → imp.act o s = .ok (isNew, t) → I t)
    (h : imp.takeAll faults objects s = .ok (flags, t)) (hs : I s) : I t := by
  induction objects generalizing s faults flags with
  | nil =>
    rw [takeAll] at h
    cases h
    exact hs
  | cons o rest ih =>
    obtain ⟨isNew, u, more, hfirst, hrest, -⟩ := takeAll_cons_eq_ok h
    rw [List.forall_mem_cons] at hact
    refine ih hact.2 hrest ?_
    rcases take_eq_ok hfirst with ⟨-, -, rfl⟩ | ⟨-, hact'⟩
    · exact hs
    · exact hact.1 s isNew u hs hact'

/-- An import that succeeds has entered its objects, and loses nothing. -/
theorem takeAll_journaled (henters : imp.Enters) (h : imp.takeAll faults objects s = .ok (flags, t)) :
    imp.Keeps s t ∧ imp.Journaled t objects := by
  induction objects generalizing s faults flags with
  | nil =>
    rw [takeAll] at h
    cases h
    exact ⟨.refl _, fun _ ho => absurd ho List.not_mem_nil⟩
  | cons o rest ih =>
    obtain ⟨isNew, u, more, hfirst, hrest, -⟩ := takeAll_cons_eq_ok h
    obtain ⟨hkeep, hjournaled⟩ := ih hrest
    have hstep : imp.Keeps s u ∧ imp.journal u (imp.key o) = some (imp.digest o) := by
      rcases take_eq_ok hfirst with ⟨hthere, -, rfl⟩ | ⟨hnone, hact⟩
      · exact ⟨.refl u, hthere⟩
      · exact henters o s isNew u hact hnone
    exact ⟨hstep.1.trans hkeep, List.forall_mem_cons.mpr ⟨hkeep _ _ hstep.2, hjournaled⟩⟩

/-- Objects that are all in the journal are all passed over. -/
theorem takeAll_of_journaled (hjournaled : imp.Journaled s objects) (h : imp.takeAll faults objects s = .ok (flags, t)) :
    t = s ∧ flags = List.replicate objects.length false := by
  induction objects generalizing faults flags with
  | nil =>
    rw [takeAll] at h
    cases h
    exact ⟨rfl, rfl⟩
  | cons o rest ih =>
    obtain ⟨isNew, u, more, hfirst, hrest, rfl⟩ := takeAll_cons_eq_ok h
    rw [Journaled, List.forall_mem_cons] at hjournaled
    rcases take_eq_ok hfirst with ⟨-, rfl, rfl⟩ | ⟨hnone, -⟩
    · obtain ⟨rfl, rfl⟩ := ih hjournaled.2 hrest
      exact ⟨rfl, rfl⟩
    · rw [hjournaled.1] at hnone
      cases hnone

/-- Without faults, such an import succeeds. -/
theorem takeAll_again (hjournaled : imp.Journaled s objects) :
    imp.takeAll (fun _ => none) objects s = .ok (List.replicate objects.length false, s) := by
  induction objects with
  | nil => rfl
  | cons o rest ih =>
    rw [Journaled, List.forall_mem_cons] at hjournaled
    have hfirst : imp.take none o s = .ok (false, s) := by
      rw [take, hjournaled.1]
      exact if_pos rfl
    rw [takeAll, hfirst]
    dsimp only
    rw [ih hjournaled.2]
    rfl

/-- An object with another digest than its entry is never taken up. -/
theorem takeAll_changed (henters : imp.Enters) {digest : H} (ho : o ∈ objects)
    (hentry : imp.journal s (imp.key o) = some digest) (hchanged : digest ≠ imp.digest o) :
    ∃ e, imp.takeAll faults objects s = .error e := by
  cases h : imp.takeAll faults objects s with
  | error e => exact ⟨e, rfl⟩
  | ok result =>
    obtain ⟨hkeep, hjournaled⟩ := takeAll_journaled henters h
    exact absurd (Option.some.inj ((hkeep _ _ hentry).symm.trans (hjournaled o ho))) hchanged

end Importer
