/-
# Loops that skip or fail

A loop over a list whose body gives a result, skips the element, or ends the loop with an
error.  `collect` keeps the results with the elements they came from.

* `collect_eq_ok_iff` : the loop ends well when no element is an error, and then its results are
  those of the elements;
* `filterMap_filter_of_none` : elements without a result can be left out;
* `filterMap_eq_iff` : two loops collect the same when they agree on every element.
-/
import Mathlib.Data.List.Basic

section

variable {α β ε : Type}

/-- Go through the list and keep the results with their elements. -/
def collect (f : α → Except ε (Option β)) : List α → Except ε (List (α × β))
  | [] => .ok []
  | a :: rest =>
    match f a with
    | .error e => .error e
    | .ok none => collect f rest
    | .ok (some b) =>
      match collect f rest with
      | .error e => .error e
      | .ok out => .ok ((a, b) :: out)

/-- The result of an element, if it has one. -/
def resultOf (f : α → Except ε (Option β)) (a : α) : Option β :=
  match f a with
  | .error _ => none
  | .ok r => r

/-- The element with its result. -/
def withResult (f : α → Except ε (Option β)) (a : α) : Option (α × β) := (resultOf f a).map fun b => (a, b)

/-- The body of the loop ends well on the element. -/
def Runs (f : α → Except ε (Option β)) (a : α) : Prop := ∃ r, f a = .ok r

variable {f g : α → Except ε (Option β)} {l : List α} {out : List (α × β)}

theorem collect_eq_ok_iff : collect f l = .ok out ↔ (∀ a ∈ l, Runs f a) ∧ out = l.filterMap (withResult f) := by
  induction l generalizing out with
  | nil => simp [collect, eq_comm]
  | cons a rest ih =>
    rw [collect, List.forall_mem_cons, List.filterMap_cons]
    cases hf : f a with
    | error e =>
      have hruns : ¬ Runs f a := by
        rintro ⟨r, hr⟩
        rw [hf] at hr
        cases hr
      simp [hruns]
    | ok r =>
      have hruns : Runs f a := ⟨r, hf⟩
      rw [and_iff_right hruns]
      cases r with
      | none =>
        rw [show withResult f a = none by rw [withResult, resultOf, hf]; rfl]
        exact ih
      | some b =>
        rw [show withResult f a = some (a, b) by rw [withResult, resultOf, hf]; rfl]
        cases hrest : collect f rest with
        | error e =>
          constructor
          · intro h
            cases h
          · rintro ⟨hall, -⟩
            rw [ih.mpr ⟨hall, rfl⟩] at hrest
            cases hrest
        | ok out' =>
          obtain ⟨hall, hout⟩ := ih.mp hrest
          simp only [Except.ok.injEq]
          rw [and_iff_right hall, ← hout]
          exact eq_comm

theorem mem_collect (h : collect f l = .ok out) {a : α} {b : β} :
    (a, b) ∈ out ↔ a ∈ l ∧ f a = .ok (some b) := by
  obtain ⟨hall, rfl⟩ := collect_eq_ok_iff.mp h
  rw [List.mem_filterMap]
  constructor
  · rintro ⟨c, hc, hresult⟩
    obtain ⟨b', hb', hpair⟩ := Option.map_eq_some_iff.mp hresult
    cases hpair
    obtain ⟨r, hr⟩ := hall a hc
    rw [resultOf, hr] at hb'
    exact ⟨hc, hb' ▸ hr⟩
  · rintro ⟨hmem, hf⟩
    exact ⟨a, hmem, by rw [withResult, resultOf, hf]; rfl⟩

/-- What an element gives cannot be seen when it gives nothing. -/
theorem filterMap_filter_of_none {γ : Type} {F : α → Option γ} {p : α → Bool}
    (h : ∀ a ∈ l, p a = false → F a = none) : (l.filter p).filterMap F = l.filterMap F := by
  induction l with
  | nil => rfl
  | cons a rest ih =>
    have hrest := ih fun b hb => h b (List.mem_cons_of_mem _ hb)
    rw [List.filter_cons, List.filterMap_cons]
    split
    · rw [List.filterMap_cons, hrest]
    · rename_i hp
      rw [h a List.mem_cons_self (by simpa using hp), hrest]

/-- The results of some of the elements. -/
theorem filter_filterMap_withResult (p : α → Bool) :
    (l.filterMap (withResult f)).filter (fun c => p c.1) = (l.filter p).filterMap (withResult f) := by
  induction l with
  | nil => rfl
  | cons a rest ih =>
    rw [List.filterMap_cons, List.filter_cons]
    cases hresult : resultOf f a with
    | none =>
      have hnone : withResult f a = none := by rw [withResult, hresult]; rfl
      rw [hnone, ih]
      split
      · rw [List.filterMap_cons, hnone]
      · rfl
    | some b =>
      have hsome : withResult f a = some (a, b) := by rw [withResult, hresult]; rfl
      rw [hsome]
      show List.filter _ ((a, b) :: _) = _
      rw [List.filter_cons, ih]
      split
      · rw [List.filterMap_cons, hsome]
      · rfl

/-- Two functions that are defined on the same elements collect the same when they agree. -/
theorem filterMap_eq_iff {γ : Type} {F G : α → Option γ} (h : ∀ a ∈ l, (F a).isSome = (G a).isSome) :
    l.filterMap F = l.filterMap G ↔ ∀ a ∈ l, F a = G a := by
  induction l with
  | nil => simp
  | cons a rest ih =>
    have hrest := ih fun b hb => h b (List.mem_cons_of_mem _ hb)
    have hfirst := h a List.mem_cons_self
    rw [List.filterMap_cons, List.filterMap_cons, List.forall_mem_cons]
    cases hF : F a with
    | none =>
      cases hG : G a with
      | none => simpa using hrest
      | some c => simp [hF, hG] at hfirst
    | some b =>
      cases hG : G a with
      | none => simp [hF, hG] at hfirst
      | some c => simp only [List.cons.injEq, Option.some.injEq, hrest]

end
