/-
# What `select_pool` guarantees

A bound conversation stays on its pool while that pool can serve the model;
everything else goes to the least eligible route, by priority and then by pool
id.  `selectPool_spec` says this for every table that `RouteTable::new` builds,
together with the three ways in which the selection fails.

`RouteTable::new` compares prefixes and not pool ids, so a pool can have several
routes for one model.  `select_pool` looks at the first of them only.
-/
import CodexRouter.PoolTable

namespace CodexRouter

open Text

section

variable (table : RouteTable) (model : String) (bound : Option String) (exclude : List String)

/-- A route that may be tried for the model. -/
def Eligible (r : PoolRoute) : Prop :=
  r ∈ table.routes ∧ r.publicModel = model ∧ r.available = true ∧ r.poolId ∉ exclude

/-- The route a bound conversation stays on: the first route of its pool for the
model, unless that is paused or the pool has failed. -/
def StaysOn (r : PoolRoute) : Prop :=
  ∃ poolId, bound = some poolId ∧ poolId ∉ exclude
    ∧ (table.pools model).find? (·.poolId = poolId) = some r ∧ r.available = true

/-- The bound pool has left the table. -/
def OwnerRemoved : Prop :=
  ∃ poolId, bound = some poolId ∧ poolId ∉ exclude ∧ ∀ r ∈ table.routes, r.poolId ≠ poolId

end

section

variable {routes : List PoolRoute} {table : RouteTable} {model : String} {key bound : Option String}
  {bindings : ContinuationBindings} {now : ℕ} {exclude : List String} {r : PoolRoute}

theorem mem_pools : r ∈ table.pools model ↔ r ∈ table.routes ∧ r.publicModel = model := by
  simp [RouteTable.pools]

theorem isEligible_iff : isEligible exclude r = true ↔ r.available = true ∧ r.poolId ∉ exclude := by
  simp [isEligible]

/-! ## The three outcomes of the binding -/

theorem boundPool_eq_some :
    boundPool table model bound exclude = .ok (some r) ↔ StaysOn table model bound exclude r := by
  constructor
  · intro h
    obtain ⟨poolId, hbound, hexclude, hfind⟩ := boundPool_some h
    refine ⟨poolId, hbound, hexclude, hfind, ?_⟩
    rw [hbound, boundPool, if_neg hexclude, hfind] at h
    by_contra hpaused
    simp [hpaused] at h
  · rintro ⟨poolId, rfl, hexclude, hfind, havailable⟩
    rw [boundPool, if_neg hexclude, hfind]
    simp [havailable]

theorem boundPool_eq_error :
    (∃ e, boundPool table model bound exclude = .error e) ↔ OwnerRemoved table bound exclude := by
  constructor
  · rintro ⟨e, h⟩
    cases bound with
    | none => simp [boundPool] at h
    | some poolId =>
      rw [boundPool] at h
      by_cases hexclude : poolId ∈ exclude
      · simp [hexclude] at h
      rw [if_neg hexclude] at h
      refine ⟨poolId, rfl, hexclude, ?_⟩
      cases hfind : (table.pools model).find? (·.poolId = poolId) with
      | some s => by_cases hs : s.available <;> simp [hfind, hs] at h
      | none =>
        cases howner : table.findPool poolId with
        | some s => simp [hfind, howner] at h
        | none => simpa [RouteTable.findPool] using howner
  · rintro ⟨poolId, rfl, hexclude, hgone⟩
    have hfind : (table.pools model).find? (·.poolId = poolId) = none := by
      rw [List.find?_eq_none]
      intro s hs
      simpa using hgone s (mem_pools.mp hs).1
    have howner : table.findPool poolId = none := by
      simpa [RouteTable.findPool] using hgone
    refine ⟨"continuation owner " ++ poolId ++ " was removed", ?_⟩
    rw [boundPool, if_neg hexclude, hfind]
    simp only [howner, Option.isSome_none, Bool.false_eq_true, if_false]

/-! ## Success and failure -/

/-- Where a bound conversation stays on a route, that is the selected one. -/
theorem selectPool_of_staysOn (h : StaysOn table model (key.bind (bindings.pool now)) exclude r) :
    selectPool table model key bindings now exclude = .ok r := by
  have hbound := boundPool_eq_some.mpr h
  obtain ⟨poolId, -, -, hfind, -⟩ := h
  have hne : table.pools model ≠ [] := List.ne_nil_of_mem (List.mem_of_find?_eq_some hfind)
  rw [selectPool, if_neg hne, hbound]

/-- A route that a conversation stays on is eligible. -/
theorem StaysOn.eligible (h : StaysOn table model bound exclude r) :
    Eligible table model exclude r := by
  obtain ⟨poolId, -, hexclude, hfind, havailable⟩ := h
  obtain ⟨hmem, hmodel⟩ := mem_pools.mp (List.mem_of_find?_eq_some hfind)
  have hid : r.poolId = poolId := by simpa using List.find?_some hfind
  exact ⟨hmem, hmodel, havailable, hid ▸ hexclude⟩

/-- The selected route is the bound one, or the first eligible one. -/
theorem staysOn_or_first (h : selectPool table model key bindings now exclude = .ok r) :
    StaysOn table model (key.bind (bindings.pool now)) exclude r
      ∨ (table.pools model).find? (isEligible exclude) = some r := by
  rw [selectPool] at h
  split at h
  · cases h
  split at h
  · cases h
  · rename_i hbound
    exact Or.inl (Except.ok.inj h ▸ boundPool_eq_some.mp hbound)
  · exact Or.inr (firstEligible_eq_ok.mp h)

/-- The selected route is eligible. -/
theorem eligible_of_selectPool (h : selectPool table model key bindings now exclude = .ok r) :
    Eligible table model exclude r := by
  rcases staysOn_or_first h with hstays | hfirst
  · exact hstays.eligible
  · obtain ⟨hmem, hmodel⟩ := mem_pools.mp (List.mem_of_find?_eq_some hfirst)
    exact ⟨hmem, hmodel, isEligible_iff.mp (List.find?_some hfirst)⟩

/-- A fallback pool is an eligible route. -/
theorem hasFallbackPool_iff :
    hasFallbackPool table model exclude = true ↔ ∃ s, Eligible table model exclude s := by
  simp only [hasFallbackPool, List.any_eq_true, mem_pools, isEligible_iff, Eligible, and_assoc]

/-- Some route is selected exactly when the owner is there and a route is
eligible. -/
theorem exists_selectPool_iff :
    (∃ r, selectPool table model key bindings now exclude = .ok r)
      ↔ ¬ OwnerRemoved table (key.bind (bindings.pool now)) exclude
        ∧ ∃ s, Eligible table model exclude s := by
  constructor
  · rintro ⟨r, h⟩
    refine ⟨fun hremoved => ?_, r, eligible_of_selectPool h⟩
    obtain ⟨e, hbound⟩ := boundPool_eq_error.mpr hremoved
    rw [selectPool, hbound] at h
    split at h <;> cases h
  · rintro ⟨howner, s, hmem, hmodel, heligible⟩
    have hs : s ∈ table.pools model := mem_pools.mpr ⟨hmem, hmodel⟩
    have hne : table.pools model ≠ [] := List.ne_nil_of_mem hs
    have hfirst : ((table.pools model).find? (isEligible exclude)).isSome :=
      List.find?_isSome.mpr ⟨s, hs, isEligible_iff.mpr heligible⟩
    obtain ⟨first, hfirst⟩ := Option.isSome_iff_exists.mp hfirst
    rw [selectPool, if_neg hne]
    cases hbound : boundPool table model (key.bind (bindings.pool now)) exclude with
    | error e => exact absurd (boundPool_eq_error.mp ⟨e, hbound⟩) howner
    | ok decided =>
      cases decided with
      | some r => exact ⟨r, rfl⟩
      | none => exact ⟨first, firstEligible_eq_ok.mpr hfirst⟩

theorem isError_iff :
    (∃ e, selectPool table model key bindings now exclude = .error e)
      ↔ ¬ ∃ r, selectPool table model key bindings now exclude = .ok r := by
  cases selectPool table model key bindings now exclude <;> simp

/-- **Sticky, then by priority.**  For every built table: a selected route serves
the model, is available and has not failed; it is the one a bound conversation
stays on, or else least among the eligible ones.  The selection fails exactly
when the model has no route, when the owner has left the table, or when no route
is eligible. -/
theorem selectPool_spec (hnew : RouteTable.new routes = .ok table) (model : String)
    (key : Option String) (bindings : ContinuationBindings) (now : ℕ) (exclude : List String) :
    (∀ r, selectPool table model key bindings now exclude = .ok r →
      Eligible table model exclude r
        ∧ (∀ s, StaysOn table model (key.bind (bindings.pool now)) exclude s → r = s)
        ∧ ((¬ ∃ s, StaysOn table model (key.bind (bindings.pool now)) exclude s) →
            ∀ s, Eligible table model exclude s →
              r.priority < s.priority ∨ r.priority = s.priority ∧ r.poolId ≤ s.poolId))
      ∧ ((∃ e, selectPool table model key bindings now exclude = .error e)
        ↔ table.pools model = [] ∨ OwnerRemoved table (key.bind (bindings.pool now)) exclude
          ∨ ∀ s ∈ table.pools model, ¬ Eligible table model exclude s)
      ∧ (¬ OwnerRemoved table (key.bind (bindings.pool now)) exclude →
          ((∃ r, selectPool table model key bindings now exclude = .ok r)
            ↔ hasFallbackPool table model exclude = true)) := by
  refine ⟨fun r h => ⟨eligible_of_selectPool h, fun s hs => ?_, fun hfree s hs => ?_⟩, ?_, ?_⟩
  · rw [selectPool_of_staysOn hs, Except.ok.injEq] at h
    exact h.symm
  · rcases staysOn_or_first h with hstays | hfirst
    · exact absurd ⟨r, hstays⟩ hfree
    · have hr := (mem_pools.mp (List.mem_of_find?_eq_some hfirst)).2
      obtain ⟨hmem, hmodel, heligible⟩ := hs
      have hle := find?_least (sorted_pools hnew model) hfirst s (mem_pools.mpr ⟨hmem, hmodel⟩)
        (isEligible_iff.mpr heligible)
      exact (routeLe_iff (hr.trans hmodel.symm)).mp hle
  · rw [isError_iff, exists_selectPool_iff]
    constructor
    · intro h
      by_cases howner : OwnerRemoved table (key.bind (bindings.pool now)) exclude
      · exact Or.inr (Or.inl howner)
      · exact Or.inr (Or.inr fun s _ hs => h ⟨howner, s, hs⟩)
    · rintro h ⟨howner, s, hs⟩
      have hmem : s ∈ table.pools model := mem_pools.mpr ⟨hs.1, hs.2.1⟩
      rcases h with hnil | hremoved | hnone
      · rw [hnil] at hmem
        cases hmem
      · exact howner hremoved
      · exact hnone s hmem hs
  · intro howner
    rw [exists_selectPool_iff, hasFallbackPool_iff]
    exact and_iff_right howner

end

/-! ## Two pools -/

/-- A paused route. -/
def pausedRoute : PoolRoute where
  poolId := "own"
  pfx := "cr_own_1"
  publicModel := "m"
  upstreamModel := "m"
  provider := "openai"
  priority := 1
  enabled := true
  available := false

/-- The route of another pool. -/
def otherRoute : PoolRoute :=
  { pausedRoute with poolId := "other", pfx := "cr_other", priority := 2, available := true }

/-- A second route of the first pool. -/
def secondRoute : PoolRoute :=
  { pausedRoute with pfx := "cr_own_2", priority := 3, available := true }

/-- The conversation is bound to the pool with two routes. -/
def ownBindings : ContinuationBindings := ContinuationBindings.bind {} 0 "key" "own" 3600

/-- The paused pool is left for the other one. -/
theorem selectPool_spec_paused :
    Eligible ⟨[pausedRoute, otherRoute]⟩ "m" [] otherRoute
      ∧ ((∃ r, selectPool ⟨[pausedRoute, otherRoute]⟩ "m" (some "key") ownBindings 0 [] = .ok r)
        ↔ hasFallbackPool ⟨[pausedRoute, otherRoute]⟩ "m" [] = true) := by
  have hspec := selectPool_spec
    (by decide +kernel : RouteTable.new [otherRoute, pausedRoute] = .ok ⟨[pausedRoute, otherRoute]⟩)
    "m" (some "key") ownBindings 0 []
  have howner : ¬ OwnerRemoved ⟨[pausedRoute, otherRoute]⟩
      ((some "key").bind (ownBindings.pool 0)) [] := by
    rintro ⟨poolId, hbound, -, hgone⟩
    have hown : (some "key").bind (ownBindings.pool 0) = some "own" := by decide +kernel
    rw [hown, Option.some.injEq] at hbound
    exact hgone pausedRoute List.mem_cons_self hbound
  exact ⟨(hspec.1 otherRoute (by decide +kernel)).1, hspec.2.2 howner⟩

/-- The bound pool serves the model through its second route, but only the first
one is looked at. -/
theorem not_sticky_of_two_routes :
    ¬ ∀ (routes : List PoolRoute) (table : RouteTable) (model key poolId : String)
        (bindings : ContinuationBindings) (now : ℕ) (exclude : List String) (r : PoolRoute),
        RouteTable.new routes = .ok table → bindings.pool now key = some poolId →
        poolId ∉ exclude →
        (∃ s ∈ table.routes, s.poolId = poolId ∧ s.publicModel = model ∧ s.available = true) →
        selectPool table model (some key) bindings now exclude = .ok r → r.poolId = poolId := by
  intro h
  have hid := h [pausedRoute, otherRoute, secondRoute] ⟨[pausedRoute, otherRoute, secondRoute]⟩ "m"
    "key" "own" ownBindings 0 [] otherRoute (by decide +kernel) (by decide +kernel) (by decide)
    ⟨secondRoute, by decide, by decide⟩ (by decide +kernel)
  exact absurd hid (by decide)

end CodexRouter
