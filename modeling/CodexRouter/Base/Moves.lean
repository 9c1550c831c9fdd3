/-
# Moves that are undone

Files are moved from place to place in turn (`moveAll`), each over what stands at its end.  They are moved back in
the opposite order (`undoAll`), each where a file stands at its end and nothing at its start.

* `undoAll_moveAll` : moves to different free places are undone;
* `undoAll_lost` : of two moves to one place, the first is not.
-/
import Mathlib.Data.List.Nodup
import Mathlib.Logic.Function.Basic

/-- What stands at a place. -/
inductive PlaceNode (C : Type) where
  | file (content : C)
  | folder
  deriving DecidableEq, Repr

/-- A folder. -/
def PlaceNode.isFolder {C : Type} : PlaceNode C → Bool
  | .folder => true
  | _ => false

/-- What stands at which place. -/
abbrev Places (P C : Type) := P → Option (PlaceNode C)

namespace Places

variable {P C : Type} [DecidableEq P]

/-- The file at a place. -/
def fileAt (nodes : Places P C) (place : P) : Option C :=
  match nodes place with
  | some (.file content) => some content
  | _ => none

/-- Move what stands at a place to another one. -/
def move (nodes : Places P C) (start stop : P) : Places P C :=
  Function.update (Function.update nodes start none) stop (nodes start)

/-- Move in turn. -/
def moveAll (moves : List (P × P)) (nodes : Places P C) : Places P C :=
  moves.foldl (fun nodes m => nodes.move m.1 m.2) nodes

/-- Move back, if nothing is in the way. -/
def undo (nodes : Places P C) (start stop : P) : Places P C :=
  if (nodes.fileAt stop).isSome && (nodes start).isNone then nodes.move stop start else nodes

/-- Move back in the opposite order. -/
def undoAll (moves : List (P × P)) (nodes : Places P C) : Places P C :=
  moves.foldr (fun m nodes => nodes.undo m.1 m.2) nodes

variable {nodes : Places P C} {start stop place : P} {moves : List (P × P)}

omit [DecidableEq P] in
theorem fileAt_eq_some_iff {content : C} : nodes.fileAt place = some content ↔ nodes place = some (.file content) := by
  unfold fileAt
  split
  · rename_i found hfound
    rw [hfound]
    simp
  · rename_i hno
    exact iff_of_false (fun h => nomatch h) (hno content)

omit [DecidableEq P] in
theorem fileAt_congr {nodes' : Places P C} {place' : P} (h : nodes place = nodes' place') :
    nodes.fileAt place = nodes'.fileAt place' := by
  unfold fileAt
  rw [h]

/-! ## One move -/

theorem move_stop : nodes.move start stop stop = nodes start := Function.update_self _ _ _

theorem move_start (h : start ≠ stop) : nodes.move start stop start = none := by
  rw [move, Function.update_of_ne h, Function.update_self]

theorem move_other (hstart : place ≠ start) (hstop : place ≠ stop) : nodes.move start stop place = nodes place := by
  rw [move, Function.update_of_ne hstop, Function.update_of_ne hstart]

theorem undo_other (hstart : place ≠ start) (hstop : place ≠ stop) : nodes.undo start stop place = nodes place := by
  unfold undo
  split
  · exact move_other hstop hstart
  · rfl

theorem undo_of_none (h : nodes stop = none) : nodes.undo start stop = nodes := by
  rw [undo, fileAt, h]
  rfl

/-- A move to a free place is undone. -/
theorem undo_move (hne : start ≠ stop) (hfile : (nodes.fileAt start).isSome) (hfree : nodes stop = none) :
    (nodes.move start stop).undo start stop = nodes := by
  have hmoved : (nodes.move start stop).fileAt stop = nodes.fileAt start := fileAt_congr move_stop
  rw [undo, hmoved, hfile, move_start hne, Option.isNone_none, Bool.and_self, if_pos rfl]
  funext place
  by_cases hstart : place = start
  · rw [hstart, move_stop, move_stop]
  · by_cases hstop : place = stop
    · rw [hstop, move_start hne.symm, hfree]
    · rw [move_other hstop hstart, move_other hstart hstop]

/-! ## Many moves -/

theorem moveAll_cons (m : P × P) (rest : List (P × P)) (nodes : Places P C) :
    moveAll (m :: rest) nodes = moveAll rest (nodes.move m.1 m.2) := rfl

theorem undoAll_cons (m : P × P) (rest : List (P × P)) (nodes : Places P C) :
    undoAll (m :: rest) nodes = (undoAll rest nodes).undo m.1 m.2 := rfl

theorem moveAll_other (hstart : place ∉ moves.map Prod.fst) (hstop : place ∉ moves.map Prod.snd) :
    moveAll moves nodes place = nodes place := by
  induction moves generalizing nodes with
  | nil => rfl
  | cons m rest ih =>
    rw [List.map_cons, List.mem_cons, not_or] at hstart hstop
    rw [moveAll_cons, ih hstart.2 hstop.2, move_other hstart.1 hstop.1]

theorem undoAll_other (hstart : place ∉ moves.map Prod.fst) (hstop : place ∉ moves.map Prod.snd) :
    undoAll moves nodes place = nodes place := by
  induction moves with
  | nil => rfl
  | cons m rest ih =>
    rw [List.map_cons, List.mem_cons, not_or] at hstart hstop
    rw [undoAll_cons, undo_other hstart.1 hstop.1, ih hstart.2 hstop.2]

/-- Nothing is left at the starts. -/
theorem moveAll_start (hstart : place ∈ moves.map Prod.fst) (hstop : place ∉ moves.map Prod.snd) :
    moveAll moves nodes place = none := by
  induction moves generalizing nodes with
  | nil => cases hstart
  | cons m rest ih =>
    rw [List.map_cons, List.mem_cons, not_or] at hstop
    rw [moveAll_cons]
    by_cases hrest : place ∈ rest.map Prod.fst
    · exact ih hrest hstop.2
    · rw [moveAll_other hrest hstop.2]
      rcases List.mem_cons.mp hstart with heq | hmem
      · rw [heq]
        exact move_start (heq ▸ hstop.1)
      · exact absurd hmem hrest

/-- What was moved stands at its end, if the ends differ. -/
theorem moveAll_stop (hstarts : (moves.map Prod.fst).Nodup) (hstops : (moves.map Prod.snd).Nodup)
    (happart : ∀ m ∈ moves, m.1 ∉ moves.map Prod.snd) (h : (start, stop) ∈ moves) :
    moveAll moves nodes stop = nodes start := by
  induction moves generalizing nodes with
  | nil => cases h
  | cons m rest ih =>
    rw [List.map_cons, List.nodup_cons] at hstarts hstops
    have hends : ∀ m' ∈ m :: rest, m'.1 ≠ m.2 ∧ m'.1 ∉ rest.map Prod.snd := by
      intro m' hm'
      have hno := happart m' hm'
      rw [List.map_cons, List.mem_cons, not_or] at hno
      exact hno
    have hstop : m.2 ∉ rest.map Prod.fst := by
      intro hmem
      obtain ⟨m', hm', heq⟩ := List.mem_map.mp hmem
      exact (hends m' (List.mem_cons_of_mem _ hm')).1 heq
    rw [moveAll_cons]
    rcases List.mem_cons.mp h with rfl | h
    · rw [moveAll_other hstop hstops.1, move_stop]
    · have hne : start ≠ m.1 := by
        intro heq
        rw [← heq] at hstarts
        exact hstarts.1 (List.mem_map_of_mem h)
      rw [ih hstarts.2 hstops.2 (fun m' hm' => (hends m' (List.mem_cons_of_mem _ hm')).2) h,
        move_other hne (hends _ (List.mem_cons_of_mem _ h)).1]

/-- At the end of a move stands a file. -/
theorem isSome_fileAt_moveAll (hstarts : (moves.map Prod.fst).Nodup)
    (happart : ∀ m ∈ moves, m.1 ∉ moves.map Prod.snd) (hfiles : ∀ m ∈ moves, (nodes.fileAt m.1).isSome)
    (h : place ∈ moves.map Prod.snd) : ((moveAll moves nodes).fileAt place).isSome := by
  induction moves generalizing nodes with
  | nil => cases h
  | cons m rest ih =>
    rw [List.map_cons, List.nodup_cons] at hstarts
    rw [List.forall_mem_cons] at hfiles
    have hends : ∀ m' ∈ m :: rest, m'.1 ≠ m.2 ∧ m'.1 ∉ rest.map Prod.snd := by
      intro m' hm'
      have hno := happart m' hm'
      rw [List.map_cons, List.mem_cons, not_or] at hno
      exact hno
    rw [moveAll_cons]
    by_cases hlater : place ∈ rest.map Prod.snd
    · refine ih hstarts.2 (fun m' hm' => (hends m' (List.mem_cons_of_mem _ hm')).2) (fun m' hm' => ?_) hlater
      have hstart : m'.1 ≠ m.1 := fun heq => hstarts.1 (heq ▸ List.mem_map_of_mem hm')
      rw [fileAt_congr (move_other hstart (hends m' (List.mem_cons_of_mem _ hm')).1)]
      exact hfiles.2 m' hm'
    · have hstop : place = m.2 := by
        rcases List.mem_cons.mp h with heq | hmem
        · exact heq
        · exact absurd hmem hlater
      have hstart : place ∉ rest.map Prod.fst := by
        intro hmem
        obtain ⟨m', hm', heq⟩ := List.mem_map.mp hmem
        exact (hends m' (List.mem_cons_of_mem _ hm')).1 (heq.trans hstop)
      rw [fileAt_congr (moveAll_other hstart hlater), hstop, fileAt_congr move_stop]
      exact hfiles.1

/-! ## Moving back -/

/-- Moves of files to different free places are undone. -/
theorem undoAll_moveAll (hstarts : (moves.map Prod.fst).Nodup) (hstops : (moves.map Prod.snd).Nodup)
    (hfiles : ∀ m ∈ moves, (nodes.fileAt m.1).isSome) (hfree : ∀ m ∈ moves, nodes m.2 = none) :
    undoAll moves (moveAll moves nodes) = nodes := by
  induction moves generalizing nodes with
  | nil => rfl
  | cons m rest ih =>
    rw [List.map_cons, List.nodup_cons] at hstarts hstops
    rw [List.forall_mem_cons] at hfiles hfree
    have hne : ∀ m' ∈ m :: rest, m'.1 ≠ m.2 := by
      intro m' hm' heq
      have hfile : (nodes.fileAt m'.1).isSome := by
        rcases List.mem_cons.mp hm' with rfl | hm'
        · exact hfiles.1
        · exact hfiles.2 m' hm'
      rw [heq, fileAt, hfree.1] at hfile
      cases hfile
    rw [undoAll_cons, moveAll_cons, ih hstarts.2 hstops.2]
    · exact undo_move (hne m List.mem_cons_self) hfiles.1 hfree.1
    · intro m' hm'
      have hstart : m'.1 ≠ m.1 := fun heq => hstarts.1 (heq ▸ List.mem_map_of_mem hm')
      rw [fileAt_congr (move_other hstart (hne m' (List.mem_cons_of_mem _ hm')))]
      exact hfiles.2 m' hm'
    · intro m' hm'
      have hstop : m'.2 ≠ m.2 := fun heq => hstops.1 (heq ▸ List.mem_map_of_mem hm')
      by_cases hstart : m'.2 = m.1
      · rw [hstart, move_start (hne m List.mem_cons_self)]
      · rw [move_other hstart hstop]
        exact hfree.2 m' hm'

/-- When all is moved back nothing is left at an end. -/
theorem undoAll_stop (hstarts : (moves.map Prod.fst).Nodup) (happart : ∀ m ∈ moves, m.1 ∉ moves.map Prod.snd)
    (hmoved : ∀ m ∈ moves, nodes m.1 = none) (h : place ∈ moves.map Prod.snd)
    (hnode : nodes place = none ∨ (nodes.fileAt place).isSome) : undoAll moves nodes place = none := by
  induction moves with
  | nil => cases h
  | cons m rest ih =>
    rw [List.map_cons, List.nodup_cons] at hstarts
    rw [List.forall_mem_cons] at hmoved
    have hends : ∀ m' ∈ m :: rest, m'.1 ≠ m.2 ∧ m'.1 ∉ rest.map Prod.snd := by
      intro m' hm'
      have hno := happart m' hm'
      rw [List.map_cons, List.mem_cons, not_or] at hno
      exact hno
    have hrest := ih hstarts.2 (fun m' hm' => (hends m' (List.mem_cons_of_mem _ hm')).2) hmoved.2
    have hplace : place ∉ (m :: rest).map Prod.fst := by
      intro hmem
      obtain ⟨m', hm', heq⟩ := List.mem_map.mp hmem
      exact happart m' hm' (heq ▸ h)
    rw [List.map_cons, List.mem_cons, not_or] at hplace
    rw [undoAll_cons]
    by_cases hlater : place ∈ rest.map Prod.snd
    · by_cases hstop : place = m.2
      · rw [undo_of_none (hstop ▸ hrest hlater), hrest hlater]
      · rw [undo_other hplace.1 hstop, hrest hlater]
    · -- the last of the moves to the place is moved back first
      have hstop : place = m.2 := by
        rcases List.mem_cons.mp h with heq | hmem
        · exact heq
        · exact absurd hmem hlater
      have hstay : undoAll rest nodes place = nodes place := undoAll_other hplace.2 hlater
      have hstart : undoAll rest nodes m.1 = none := by
        rw [undoAll_other hstarts.1 (hends m List.mem_cons_self).2, hmoved.1]
      rcases hnode with hnone | hfile
      · rw [undo_of_none (hstop ▸ hstay.trans hnone), hstay, hnone]
      · rw [undo, ← hstop, hstart, fileAt_congr hstay, hfile, Option.isNone_none, Bool.and_self, if_pos rfl,
          move_start hplace.1]

/-- Of two moves to one place the first is not undone. -/
theorem undoAll_lost (hstarts : (moves.map Prod.fst).Nodup) (happart : ∀ m ∈ moves, m.1 ∉ moves.map Prod.snd)
    (hmoved : ∀ m ∈ moves, nodes m.1 = none)
    (hnode : ∀ m ∈ moves, nodes m.2 = none ∨ (nodes.fileAt m.2).isSome) (h : ¬ (moves.map Prod.snd).Nodup) :
    ∃ m ∈ moves, undoAll moves nodes m.1 = none := by
  induction moves with
  | nil => exact absurd List.nodup_nil h
  | cons m rest ih =>
    have hwhole := hstarts
    rw [List.map_cons, List.nodup_cons] at hstarts
    have hends : ∀ m' ∈ m :: rest, m'.1 ≠ m.2 ∧ m'.1 ∉ rest.map Prod.snd := by
      intro m' hm'
      have hno := happart m' hm'
      rw [List.map_cons, List.mem_cons, not_or] at hno
      exact hno
    have happart' : ∀ m' ∈ rest, m'.1 ∉ rest.map Prod.snd :=
      fun m' hm' => (hends m' (List.mem_cons_of_mem _ hm')).2
    have hmoved' := (List.forall_mem_cons.mp hmoved).2
    by_cases hlater : m.2 ∈ rest.map Prod.snd
    · refine ⟨m, List.mem_cons_self, ?_⟩
      have hgone := undoAll_stop hstarts.2 happart' hmoved' hlater (hnode m List.mem_cons_self)
      rw [undoAll_cons, undo_of_none hgone, undoAll_other hstarts.1 (hends m List.mem_cons_self).2]
      exact hmoved m List.mem_cons_self
    · obtain ⟨m', hm', hlost⟩ := ih hstarts.2 happart' hmoved' (List.forall_mem_cons.mp hnode).2
        (fun hnodup => h (by rw [List.map_cons, List.nodup_cons]; exact ⟨hlater, hnodup⟩))
      refine ⟨m', List.mem_cons_of_mem _ hm', ?_⟩
      have hstart : m'.1 ≠ m.1 := fun heq => hstarts.1 (heq ▸ List.mem_map_of_mem hm')
      rw [undoAll_cons, undo_other hstart (hends m' (List.mem_cons_of_mem _ hm')).1, hlost]

end Places
