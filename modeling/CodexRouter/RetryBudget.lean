/-
# The retry budget over a request

`handle_client` keeps one `RequestRetryBudget` for a request.  It moves the limit
of the budget while it goes on (`set_max_wait`) and asks it for a delay before
every retry (`reserve`), with the headers of the answer if there was one.

A run is any sequence of these two calls.  `BudgetRun` keeps the granted delays
beside the budget, each with the limit that was in force; `RunInvariant` says what
a budget knows of the delays it has granted.
-/
import CodexRouter.GatewayLoop
import Mathlib.Algebra.BigOperators.Group.List.Basic
import Mathlib.Algebra.Ring.Nat

namespace CodexRouter

open Text

/-! ## Runs -/

/-- `RequestRetryBudget::set_max_wait`. -/
def RequestRetryBudget.setMaxWait (b : RequestRetryBudget) (maxWait : ℕ) : RequestRetryBudget :=
  { b with maxWait := maxWait }

/-- A call of the budget. -/
inductive BudgetCall where
  | setMaxWait (maxWait : ℕ)
  | reserve (headers : Option Headers)

/-- The hint of a `Retry-After` header, in seconds. -/
def retryHint (headers : Option Headers) : ℕ :=
  (((headers.bind (Headers.get · "retry-after")).map trim).bind parseU64).getD 0

/-- A granted delay, the hint that was given and the limit that was in force. -/
structure Grant where
  delay : ℕ
  hint : ℕ
  limit : ℕ
  deriving DecidableEq, Repr

/-- A budget and the delays it has granted, in their order. -/
structure BudgetRun where
  budget : RequestRetryBudget
  grants : List Grant
  deriving DecidableEq, Repr

namespace BudgetRun

/-- The run before the first call. -/
def start (configured : ℕ) : BudgetRun := ⟨.new configured, []⟩

/-- What a budget grants. -/
def grantOf (b : RequestRetryBudget) (headers : Option Headers) : Grant :=
  ⟨rateLimitRetryDelay headers b.retriesUsed, retryHint headers, b.maxWait⟩

/-- Perform one call. -/
def perform (r : BudgetRun) : BudgetCall → BudgetRun
  | .setMaxWait maxWait => { r with budget := r.budget.setMaxWait maxWait }
  | .reserve headers =>
    match r.budget.reserve headers with
    | none => r
    | some budget => ⟨budget, r.grants ++ [grantOf r.budget headers]⟩

/-- Perform the calls in turn. -/
def performAll (r : BudgetRun) (calls : List BudgetCall) : BudgetRun := calls.foldl perform r

/-- The waits that were granted, together. -/
def waited (r : BudgetRun) : ℕ := (r.grants.map Grant.delay).sum

end BudgetRun

/-- The run of a request with a configured number of retries. -/
def budgetRun (configured : ℕ) (calls : List BudgetCall) : BudgetRun :=
  (BudgetRun.start configured).performAll calls

/-! ## What a budget knows of its grants -/

/-- The budget counts its grants and adds up their delays; the last delay was
within the limit; every delay is long enough. -/
structure RunInvariant (configured : ℕ) (r : BudgetRun) : Prop where
  most : r.budget.maxRetries = min configured 32
  used : r.budget.retriesUsed = r.grants.length
  room : r.grants.length ≤ r.budget.maxRetries
  reserved : r.budget.reservedWait = r.waited
  last : ∀ g ∈ r.grants.getLast?, r.waited ≤ g.limit
  ladder : ∀ k g, r.grants[k]? = some g → min (5 ^ (k + 1)) 3600 ≤ g.delay
  hint : ∀ g ∈ r.grants, min g.hint 3600 ≤ g.delay

section

variable {configured : ℕ} {r : BudgetRun} {b b' : RequestRetryBudget} {headers : Option Headers}

/-- A delay is granted when there is a retry left and the limit allows the wait. -/
theorem reserve_eq_some_iff : b.reserve headers = some b' ↔
    b.retriesUsed < b.maxRetries
      ∧ b.reservedWait + rateLimitRetryDelay headers b.retriesUsed ≤ b.maxWait
      ∧ b' = { b with retriesUsed := b.retriesUsed + 1
                      reservedWait := b.reservedWait + rateLimitRetryDelay headers b.retriesUsed } := by
  unfold RequestRetryBudget.reserve
  dsimp only
  split
  · rename_i hused
    refine iff_of_false (fun h => by cases h) ?_
    rintro ⟨hlt, -⟩
    omega
  split
  · rename_i hwait
    refine iff_of_false (fun h => by cases h) ?_
    rintro ⟨-, hle, -⟩
    omega
  · rename_i hused hwait
    rw [Option.some.injEq, eq_comm, and_iff_right (by omega : b.retriesUsed < b.maxRetries),
      and_iff_right (not_lt.mp hwait)]

/-- A delay is as long as its step of the ladder and as its hint, up to an hour. -/
theorem le_rateLimitRetryDelay (headers : Option Headers) (attempt : ℕ) :
    min (5 ^ (attempt + 1)) 3600 ≤ rateLimitRetryDelay headers attempt
      ∧ min (retryHint headers) 3600 ≤ rateLimitRetryDelay headers attempt := by
  unfold rateLimitRetryDelay retryHint
  exact ⟨min_le_min_right _ (le_max_left _ _), min_le_min_right _ (le_max_right _ _)⟩

theorem runInvariant_start (configured : ℕ) : RunInvariant configured (BudgetRun.start configured) where
  most := rfl
  used := rfl
  room := Nat.zero_le _
  reserved := rfl
  last := by simp [BudgetRun.start]
  ladder := by simp [BudgetRun.start]
  hint := by simp [BudgetRun.start]

/-- One call keeps the invariant. -/
theorem RunInvariant.perform (h : RunInvariant configured r) (call : BudgetCall) :
    RunInvariant configured (r.perform call) := by
  cases call with
  | setMaxWait maxWait => exact ⟨h.most, h.used, h.room, h.reserved, h.last, h.ladder, h.hint⟩
  | reserve headers =>
    rw [BudgetRun.perform]
    cases hreserve : r.budget.reserve headers with
    | none => exact h
    | some budget =>
      obtain ⟨hroom, hwait, rfl⟩ := reserve_eq_some_iff.mp hreserve
      obtain ⟨hstep, hhint⟩ := le_rateLimitRetryDelay headers r.budget.retriesUsed
      have hwaited : ∀ budget, BudgetRun.waited ⟨budget, r.grants ++ [BudgetRun.grantOf r.budget headers]⟩
          = r.budget.reservedWait + rateLimitRetryDelay headers r.budget.retriesUsed := by
        intro budget
        rw [h.reserved, BudgetRun.waited, List.map_append, List.sum_append]
        rfl
      refine ⟨h.most, ?_, ?_, ?_, ?_, ?_, ?_⟩
      · rw [List.length_append, ← h.used, List.length_singleton]
      · rw [List.length_append, ← h.used, List.length_singleton]
        exact hroom
      · exact (hwaited _).symm
      · intro g hg
        rw [List.getLast?_concat, Option.mem_some_iff] at hg
        subst hg
        rw [hwaited]
        exact hwait
      · intro k g hg
        rcases lt_or_ge k r.grants.length with hk | hk
        · rw [List.getElem?_append_left hk] at hg
          exact h.ladder k g hg
        · -- the new grant stands behind as many as the budget has counted
          rw [List.getElem?_append_right hk, List.getElem?_singleton] at hg
          split at hg
          · rename_i hzero
            obtain rfl : k = r.budget.retriesUsed := by
              rw [h.used]
              omega
            cases hg
            exact hstep
          · cases hg
      · intro g hg
        rcases List.mem_append.mp hg with hg | hg
        · exact h.hint g hg
        · obtain rfl := List.mem_singleton.mp hg
          exact hhint

theorem runInvariant_performAll (h : RunInvariant configured r) (calls : List BudgetCall) :
    RunInvariant configured (r.performAll calls) := by
  induction calls generalizing r with
  | nil => exact h
  | cons call rest ih => exact ih (h.perform call)

end

/-! ## The limits in force -/

section

variable {P : ℕ → Prop} {r : BudgetRun}

/-- When all limits are of one kind, so are those of the grants. -/
theorem limits_performAll {calls : List BudgetCall} (hcalls : ∀ w, .setMaxWait w ∈ calls → P w)
    (hbudget : P r.budget.maxWait) (hgrants : ∀ g ∈ r.grants, P g.limit) :
    ∀ g ∈ (r.performAll calls).grants, P g.limit := by
  induction calls generalizing r with
  | nil => exact hgrants
  | cons call rest ih =>
    have hrest : ∀ w, .setMaxWait w ∈ rest → P w := fun w hw => hcalls w (List.mem_cons_of_mem _ hw)
    cases call with
    | setMaxWait maxWait => exact ih hrest (hcalls maxWait List.mem_cons_self) hgrants
    | reserve headers =>
      show ∀ g ∈ ((r.perform (.reserve headers)).performAll rest).grants, P g.limit
      rw [BudgetRun.perform]
      cases hreserve : r.budget.reserve headers with
      | none => exact ih hrest hbudget hgrants
      | some budget =>
        obtain ⟨-, -, rfl⟩ := reserve_eq_some_iff.mp hreserve
        refine ih hrest hbudget ?_
        intro g hg
        rcases List.mem_append.mp hg with hg | hg
        · exact hgrants g hg
        · obtain rfl := List.mem_singleton.mp hg
          exact hbudget

end

/-! ## The bounds -/

/-- What bounds the retries of a request, at the end of any sequence of calls. -/
structure BudgetBounded (configured : ℕ) (calls : List BudgetCall) : Prop where
  count : (budgetRun configured calls).grants.length ≤ min configured 32
  /-- The waits together are within the largest limit that was in force at a grant. -/
  total : ∀ bound, (∀ g ∈ (budgetRun configured calls).grants, g.limit ≤ bound) →
    (budgetRun configured calls).waited ≤ bound
  request : (∀ w, .setMaxWait w ∈ calls → w = 8 ∨ w = 180) → (budgetRun configured calls).waited ≤ 180
  /-- Until content is sent, only the short limit has been set. -/
  precontent : ∀ rest, calls = .setMaxWait 8 :: rest → (∀ w, .setMaxWait w ∈ rest → w = 8) →
    (budgetRun configured calls).waited ≤ 8
  ladder : ∀ k g, (budgetRun configured calls).grants[k]? = some g →
    min (5 ^ (k + 1)) 3600 ≤ g.delay ∧ min g.hint 3600 ≤ g.delay
  /-- A refused call leaves the budget as it is. -/
  refused : ∀ headers, (budgetRun configured (calls ++ [.reserve headers])).grants
      = (budgetRun configured calls).grants →
    (budgetRun configured (calls ++ [.reserve headers])).budget = (budgetRun configured calls).budget

/-- The waits are within every bound on the limits of the grants. -/
theorem RunInvariant.waited_le {configured bound : ℕ} {r : BudgetRun} (h : RunInvariant configured r)
    (hbound : ∀ g ∈ r.grants, g.limit ≤ bound) : r.waited ≤ bound := by
  cases hlast : r.grants.getLast? with
  | none =>
    rw [List.getLast?_eq_none_iff] at hlast
    rw [BudgetRun.waited, hlast]
    exact Nat.zero_le _
  | some g => exact (h.last g hlast).trans (hbound g (List.mem_of_getLast? hlast))

/-- **The retry budget is bounded.** -/
theorem budget_bounded (configured : ℕ) (calls : List BudgetCall) : BudgetBounded configured calls := by
  have hrun : RunInvariant configured (budgetRun configured calls) :=
    runInvariant_performAll (runInvariant_start configured) calls
  refine ⟨?_, fun bound hbound => hrun.waited_le hbound, ?_, ?_, ?_, ?_⟩
  · rw [← hrun.most]
    exact hrun.room
  · intro hcalls
    apply hrun.waited_le
    have hstart : ∀ g ∈ (BudgetRun.start configured).grants, g.limit ≤ 180 := fun g hg => by cases hg
    refine limits_performAll (P := (· ≤ 180)) (fun w hw => ?_) (le_refl 180) hstart
    rcases hcalls w hw with rfl | rfl <;> omega
  · rintro rest rfl hrest
    apply hrun.waited_le
    have hstart : ∀ g ∈ (BudgetRun.start configured).grants, g.limit ≤ 8 := fun g hg => by cases hg
    show ∀ g ∈ (((BudgetRun.start configured).perform (.setMaxWait 8)).performAll rest).grants, g.limit ≤ 8
    exact limits_performAll (P := (· ≤ 8)) (fun w hw => (hrest w hw).le) (le_refl 8) hstart
  · intro k g hg
    exact ⟨hrun.ladder k g hg, hrun.hint g (List.mem_of_getElem? hg)⟩
  · intro headers hsame
    rw [budgetRun, BudgetRun.performAll, List.foldl_append] at hsame ⊢
    change ((budgetRun configured calls).perform (.reserve headers)).grants = _ at hsame
    change ((budgetRun configured calls).perform (.reserve headers)).budget = _
    rw [BudgetRun.perform] at hsame ⊢
    cases hreserve : (budgetRun configured calls).budget.reserve headers with
    | none => rfl
    | some budget =>
      rw [hreserve] at hsame
      simp at hsame

/-- The short limit lets one step of the ladder pass, the long one three. -/
example : ((budgetRun 3 ([.setMaxWait 8, .reserve none, .reserve none, .setMaxWait 180, .reserve none,
    .reserve none, .reserve none])).grants.map Grant.delay) = [5, 25, 125] := by
  decide

end CodexRouter
