/-
# Programs that crash

A program is a tree of actions, each of which succeeds or fails.  It runs on a world, can crash at
any moment, also within an action, and is started anew from what the world holds then; in between
others change the world.

* `Prog.runAll` : actions in turn, up to the first that fails;
* `Safe` : a condition on the world holds at every moment of a program, whatever the others do;
* `safe_of_exec` : when every program that is started is safe, the condition holds in every state
  of every run, over all crashes.
-/
import CodexRouter.Base.Run
import Mathlib.Logic.Relation

/-- A program: a result, or an action and what follows when it succeeds or fails. -/
inductive Prog (A R : Type) where
  | done (r : R)
  | act (a : A) (next : Bool → Prog A R)

/-- Perform actions in turn; the rest is told the first one that fails. -/
def Prog.runAll {A R : Type} (next : Option A → Prog A R) : List A → Prog A R
  | [] => next none
  | a :: rest => .act a fun ok => if ok then Prog.runAll next rest else next (some a)

/-- What the actions and the others do to a world.  An action that fails or is interrupted leaves
something of the kind `X` behind. -/
structure Actions (W A X Y : Type) where
  succeeds : A → W → Option W
  fails : A → X → W → Option W
  torn : A → X → W → Option W
  others : Y → W → Option W

/-- A moment of a run. -/
inductive Moment (X Y : Type) where
  | begins
  | succeeds
  | fails (left : X)
  | ends
  | crashes
  | tears (left : X)
  | others (change : Y)
  deriving DecidableEq

section

variable {W A R X Y : Type} (actions : Actions W A X Y) (start : W → W × Prog A R)

/-- A moment of a run: the world, and the program that is running. -/
def Actions.step (s : W × Option (Prog A R)) : Moment X Y → Option (W × Option (Prog A R))
  | .begins =>
    match s.2 with
    | none => some ((start s.1).1, some (start s.1).2)
    | some _ => none
  | .succeeds =>
    match s.2 with
    | some (.act a next) => (actions.succeeds a s.1).map fun w => (w, some (next true))
    | _ => none
  | .fails left =>
    match s.2 with
    | some (.act a next) => (actions.fails a left s.1).map fun w => (w, some (next false))
    | _ => none
  | .ends =>
    match s.2 with
    | some (.done _) => some (s.1, none)
    | _ => none
  | .crashes => some (s.1, none)
  | .tears left =>
    match s.2 with
    | some (.act a _) => (actions.torn a left s.1).map fun w => (w, none)
    | _ => none
  | .others change => (actions.others change s.1).map fun w => (w, s.2)

/-- What the others can make of a world. -/
def Actions.Others : W → W → Prop :=
  Relation.ReflTransGen fun w w' => ∃ change, actions.others change w = some w'

variable (I : W → Prop) (Post : R → W → Prop)

/-- The condition holds at every moment of the program, and the result is right. -/
def Safe : Prog A R → W → Prop
  | .done r, w => ∀ w', actions.Others w w' → Post r w'
  | .act a next, w => ∀ w', actions.Others w w' →
      (∀ left w'', actions.torn a left w' = some w'' → I w'')
        ∧ (∀ w'', actions.succeeds a w' = some w'' → I w'' ∧ Safe (next true) w'')
        ∧ ∀ left w'', actions.fails a left w' = some w'' → I w'' ∧ Safe (next false) w''

/-- The others and the start of a program keep the condition, and the program is safe. -/
structure Recovers : Prop where
  others : ∀ {w change w'}, I w → actions.others change w = some w' → I w'
  starts : ∀ {w}, I w → I (start w).1 ∧ Safe actions I Post (start w).2 (start w).1

variable {actions start I Post}

theorem Safe.others {p : Prog A R} {w w' : W} (h : Safe actions I Post p w)
    (hothers : actions.Others w w') : Safe actions I Post p w' := by
  cases p with
  | done r => exact fun w'' hw'' => h w'' (hothers.trans hw'')
  | act a next => exact fun w'' hw'' => h w'' (hothers.trans hw'')

/-- **Crash safety**: the condition holds in every state of every run, and a program that ended
has the right result. -/
theorem safe_of_exec (hrecovers : Recovers actions start I Post) {w w' : W} {p : Option (Prog A R)}
    {moments : List (Moment X Y)} (h : exec (actions.step start) anyStep (w, none) moments = some (w', p))
    (hw : I w) : I w' ∧ ∀ q, p = some q → Safe actions I Post q w' := by
  refine exec_invariant (I := fun s : W × Option (Prog A R) =>
    I s.1 ∧ ∀ q, s.2 = some q → Safe actions I Post q s.1) ?_ h ⟨hw, fun q hq => by cases hq⟩
  rintro ⟨w, p⟩ moment t ⟨hI, hsafe⟩ - hstep
  cases moment with
  | begins =>
    cases p with
    | some q => cases hstep
    | none =>
      obtain rfl := Option.some.inj hstep
      obtain ⟨hstart, hprogram⟩ := hrecovers.starts hI
      exact ⟨hstart, fun q hq => Option.some.inj hq ▸ hprogram⟩
  | succeeds =>
    cases p with
    | none => cases hstep
    | some q =>
      cases q with
      | done r => cases hstep
      | act a next =>
        obtain ⟨w', hw', rfl⟩ := Option.map_eq_some_iff.mp hstep
        obtain ⟨hI', hnext⟩ := (hsafe _ rfl w .refl).2.1 w' hw'
        exact ⟨hI', fun q hq => Option.some.inj hq ▸ hnext⟩
  | fails left =>
    cases p with
    | none => cases hstep
    | some q =>
      cases q with
      | done r => cases hstep
      | act a next =>
        obtain ⟨w', hw', rfl⟩ := Option.map_eq_some_iff.mp hstep
        obtain ⟨hI', hnext⟩ := (hsafe _ rfl w .refl).2.2 left w' hw'
        exact ⟨hI', fun q hq => Option.some.inj hq ▸ hnext⟩
  | ends =>
    cases p with
    | none => cases hstep
    | some q =>
      cases q with
      | act a next => cases hstep
      | done r =>
        obtain rfl := Option.some.inj hstep
        exact ⟨hI, fun q hq => by cases hq⟩
  | crashes =>
    obtain rfl := Option.some.inj hstep
    exact ⟨hI, fun q hq => by cases hq⟩
  | tears left =>
    cases p with
    | none => cases hstep
    | some q =>
      cases q with
      | done r => cases hstep
      | act a next =>
        obtain ⟨w', hw', rfl⟩ := Option.map_eq_some_iff.mp hstep
        exact ⟨(hsafe _ rfl w .refl).1 left w' hw', fun q hq => by cases hq⟩
  | others change =>
    obtain ⟨w', hw', rfl⟩ := Option.map_eq_some_iff.mp hstep
    exact ⟨hrecovers.others hI hw', fun q hq => (hsafe q hq).others (.single ⟨change, hw'⟩)⟩

/-! ## Rules -/

/-- An assertion that the others keep. -/
def Stable (actions : Actions W A X Y) (C : W → Prop) : Prop :=
  ∀ {w change w'}, C w → actions.others change w = some w' → C w'

theorem Stable.others {C : W → Prop} (hstable : Stable actions C) {w w' : W} (hw : C w)
    (hothers : actions.Others w w') : C w' := by
  induction hothers with
  | refl => exact hw
  | tail _ hlast ih =>
    obtain ⟨change, hchange⟩ := hlast
    exact hstable ih hchange

theorem safe_done {C : W → Prop} {r : R} {w : W} (hstable : Stable actions C) (hw : C w)
    (hpost : ∀ w, C w → Post r w) : Safe actions I Post (.done r) w :=
  fun w' hothers => hpost w' (hstable.others hw hothers)

/-- One action: what it leaves keeps the condition, and the rest is safe behind it. -/
theorem safe_act {C : W → Prop} {a : A} {next : Bool → Prog A R} {w : W} (hstable : Stable actions C) (hw : C w)
    (htorn : ∀ w left w', C w → actions.torn a left w = some w' → I w')
    (hsucceeds : ∀ w w', C w → actions.succeeds a w = some w' → I w' ∧ Safe actions I Post (next true) w')
    (hfails : ∀ w left w', C w → actions.fails a left w = some w' → I w' ∧ Safe actions I Post (next false) w') :
    Safe actions I Post (.act a next) w := by
  intro w' hothers
  have hC := hstable.others hw hothers
  exact ⟨fun left w'' => htorn w' left w'' hC, fun w'' => hsucceeds w' w'' hC, fun left w'' => hfails w' left w'' hC⟩

/-- Actions in turn: an assertion on the actions that have been done leads from the first to the
rest, and the rest is safe behind the last one and behind the first one that fails. -/
theorem safe_runAll {C : List A → W → Prop} {next : Option A → Prog A R} {all : List A} {w : W}
    (hstable : ∀ done, Stable actions (C done)) (hw : C [] w)
    (htorn : ∀ done a rest, all = done ++ a :: rest → ∀ w left w', C done w →
      actions.torn a left w = some w' → I w')
    (hsucceeds : ∀ done a rest, all = done ++ a :: rest → ∀ w w', C done w →
      actions.succeeds a w = some w' → I w' ∧ C (done ++ [a]) w')
    (hfails : ∀ done a rest, all = done ++ a :: rest → ∀ w left w', C done w →
      actions.fails a left w = some w' → I w' ∧ Safe actions I Post (next (some a)) w')
    (hdone : ∀ w, C all w → Safe actions I Post (next none) w) :
    Safe actions I Post (Prog.runAll next all) w := by
  have hrest : ∀ rest done w, all = done ++ rest → C done w → Safe actions I Post (Prog.runAll next rest) w := by
    intro rest
    induction rest with
    | nil =>
      intro done w hsplit hC
      rw [List.append_nil] at hsplit
      exact hdone w (hsplit ▸ hC)
    | cons a rest ih =>
      intro done w hsplit hC
      refine safe_act (hstable done) hC (htorn done a rest hsplit) ?_ (hfails done a rest hsplit)
      intro w w' hC' hw'
      obtain ⟨hI, hnext⟩ := hsucceeds done a rest hsplit w w' hC' hw'
      refine ⟨hI, ih (done ++ [a]) w' ?_ hnext⟩
      rw [hsplit, List.append_assoc, List.singleton_append]
  exact hrest all [] w rfl hw

end

/-! ## Histories -/

/-- Every event of a history is allowed by the events before it. -/
def Justified {E : Type} (P : List E → E → Prop) (log : List E) : Prop :=
  ∀ before e after, log = before ++ e :: after → P before e

section

variable {E : Type} {P : List E → E → Prop} {log : List E} {e : E}

theorem justified_nil : Justified P [] := by
  intro before e after h
  have hmem : e ∈ ([] : List E) := by
    rw [h]
    exact List.mem_append_right _ List.mem_cons_self
  cases hmem

/-- A history that is allowed grows by an event that is allowed. -/
theorem justified_concat : Justified P (log ++ [e]) ↔ Justified P log ∧ P log e := by
  constructor
  · intro h
    refine ⟨?_, h log e [] rfl⟩
    intro before e' after hsplit
    refine h before e' (after ++ [e]) ?_
    rw [hsplit, List.append_assoc, List.cons_append]
  · rintro ⟨hlog, hlast⟩ before e' after hsplit
    -- the event is the new one or one of the old history
    rcases List.eq_nil_or_concat after with rfl | ⟨after', last, rfl⟩
    · obtain ⟨rfl, hsame⟩ := List.append_inj' hsplit rfl
      rw [List.cons.injEq] at hsame
      rw [← hsame.1]
      exact hlast
    · rw [List.concat_eq_append, ← List.cons_append, ← List.append_assoc] at hsplit
      exact hlog before e' after' (List.append_inj' hsplit rfl).1

end
