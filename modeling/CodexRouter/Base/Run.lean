/-
# Runs of a step function

A system is a step function on states; a step that is not possible gives `none`.
`exec` performs a list of actions and stops with `none` when a step is not
possible or breaks a rule `ok` on states and actions.  What every step keeps,
every run keeps (`exec_invariant`).

A loop has no actions: its round gives the next state, or `none` when the loop ends
(`StateTransition.Reaches`).
-/
import Mathlib.Computability.StateTransition
import Mathlib.Data.List.Basic

section

variable {S A : Type} (step : S → A → Option S) (ok : S → A → Bool)

/-- Perform the actions in turn, each one allowed by the rule. -/
def exec : S → List A → Option S
  | s, [] => some s
  | s, a :: rest => if ok s a then (step s a).bind fun t => exec t rest else none

/-- The rule that allows everything. -/
def anyStep : S → A → Bool := fun _ _ => true

variable {step ok}

theorem exec_cons {s t : S} {a : A} {rest : List A} (h : exec step ok s (a :: rest) = some t) :
    ok s a = true ∧ ∃ u, step s a = some u ∧ exec step ok u rest = some t := by
  rw [exec] at h
  split at h
  · rename_i hok
    obtain ⟨u, hu, ht⟩ := Option.bind_eq_some_iff.mp h
    exact ⟨hok, u, hu, ht⟩
  · cases h

/-- What every allowed step keeps, every run keeps. -/
theorem exec_invariant {I : S → Prop}
    (hstep : ∀ s a t, I s → ok s a = true → step s a = some t → I t) {s t : S} {actions : List A}
    (h : exec step ok s actions = some t) (hs : I s) : I t := by
  induction actions generalizing s with
  | nil =>
    rw [exec, Option.some.injEq] at h
    exact h ▸ hs
  | cons a rest ih =>
    obtain ⟨hok, u, hu, ht⟩ := exec_cons h
    exact ih ht (hstep s a u hs hok hu)

end

section

open StateTransition

variable {S : Type} {next : S → Option S} {s t : S} {P : S → Prop}

/-- What holds of all states of a loop holds of the first one, and from the next one on. -/
theorem forall_reaches_of_next (h : next s = some t) :
    (∀ u, Reaches next s u → P u) ↔ P s ∧ ∀ u, Reaches next t u → P u := by
  constructor
  · exact fun hall => ⟨hall s .refl, fun u hu => hall u (.head h hu)⟩
  · rintro ⟨hs, hrest⟩ u hu
    rcases Relation.ReflTransGen.cases_head hu with rfl | ⟨v, hv, hvu⟩
    · exact hs
    · exact hrest u (Option.mem_unique hv h ▸ hvu)

/-- A loop that ends has no other states. -/
theorem forall_reaches_of_stop (h : next s = none) : (∀ u, Reaches next s u → P u) ↔ P s := by
  constructor
  · exact fun hall => hall s .refl
  · intro hs u hu
    rcases Relation.ReflTransGen.cases_head hu with rfl | ⟨v, hv, -⟩
    · exact hs
    · rw [Option.mem_def, h] at hv
      cases hv

end

section

variable {S A : Type} {f : S → A → S} {Settled : A → S → Prop} {l : List A}

/-- Where an action settles itself and no other action undoes that, all are settled in the end. -/
theorem foldl_settles (hown : ∀ a ∈ l, ∀ s, Settled a (f s a))
    (hkeeps : ∀ {a b s}, a ∈ l → b ∈ l → Settled a s → Settled a (f s b)) {a : A} (ha : a ∈ l) (s : S) :
    Settled a (l.foldl f s) := by
  have hsuffix : ∀ {rest s}, rest ⊆ l → a ∈ rest ∨ Settled a s → Settled a (rest.foldl f s) := by
    intro rest
    induction rest with
    | nil =>
      intro s _ h
      exact h.resolve_left List.not_mem_nil
    | cons b rest ih =>
      intro s hsub h
      obtain ⟨hb, hrest⟩ := List.cons_subset.mp hsub
      apply ih hrest
      rcases h with h | h
      · rcases List.mem_cons.mp h with rfl | h
        · exact .inr (hown _ hb s)
        · exact .inl h
      · exact .inr (hkeeps ha hb h)
  exact hsuffix (List.Subset.refl l) (.inl ha)

/-- Settled actions change nothing. -/
theorem foldl_of_settled (hsettled : ∀ {a s}, Settled a s → f s a = s) {s : S} (h : ∀ a ∈ l, Settled a s) :
    l.foldl f s = s := by
  induction l with
  | nil => rfl
  | cons a rest ih =>
    rw [List.foldl_cons, hsettled (h a List.mem_cons_self)]
    exact ih fun b hb => h b (List.mem_cons_of_mem _ hb)

/-- Such a list of actions does nothing the second time. -/
theorem foldl_foldl_of_settled (hsettled : ∀ {a s}, Settled a s → f s a = s)
    (hown : ∀ a ∈ l, ∀ s, Settled a (f s a))
    (hkeeps : ∀ {a b s}, a ∈ l → b ∈ l → Settled a s → Settled a (f s b)) (s : S) :
    l.foldl f (l.foldl f s) = l.foldl f s :=
  foldl_of_settled hsettled fun _ ha => foldl_settles hown hkeeps ha s

end
