/-
# The decision to fail over

After a pool has failed, `data_plane` asks `has_fallback_pool` whether to plan
the request again.  It asks about the whole table, but a request with a forced
provider is planned on that provider's pools only.  `failoverAgrees_iff` says when
the next plan finds a pool.  Each turn of the loop tries a pool that has not
failed yet, so there are at most as many turns as pools.
-/
import CodexRouter.ContinuationFailover
import CodexRouter.PoolSelection

namespace CodexRouter

section

variable (env : HostEnv) (req : HostRequest)

/-- The public model a request asks for. -/
def HostEnv.modelOf : String :=
  ((env.serde.fromStr req.bytes).map (requestModel req)).getD ""

/-- Planning the turn selects a pool. -/
def SelectsPool (turn : Turn) : Prop :=
  ∃ plan bindings, planTurn env req turn.attempt turn.state = (.ok plan, bindings)
    ∧ plan.route.isSome = true

/-- The request may go to any provider, or a pool of the forced one is left. -/
def ForcedProviderServes (turn : Turn) : Prop :=
  ∀ provider, req.providerConstraint = some provider →
    ∃ r ∈ env.routes.routes, r.provider = provider ∧ r.publicModel = env.modelOf req
      ∧ r.available = true ∧ r.poolId ∉ turn.state.failedPools

/-- The pools that were tried, one for each request that was sent to a pool. -/
def triedPools (turns : List Turn) : List String :=
  (turns.filterMap Turn.sent).filterMap fun plan => plan.route.map PoolRoute.poolId

/-- Every turn after a decision to continue selects a pool, and there are at most
as many upstream attempts as pools of the model. -/
def FailoverAgrees (attempts : List Attempt) (start : FailoverState) : Prop :=
  (∀ turn ∈ (failoverTurns env req attempts start).tail, SelectsPool env req turn)
    ∧ (triedPools (failoverTurns env req attempts start)).length
      ≤ (env.routes.pools (env.modelOf req)).length

end

section

variable {env : HostEnv} {req : HostRequest} {a a' : Attempt} {s s' : FailoverState}
  {plan : PlanResult} {bindings : ContinuationBindings}

/-! ## One turn -/

/-- A pool of the view is a pool of the table, of the forced provider. -/
theorem mem_tableFor {r : PoolRoute} : r ∈ (env.tableFor req).routes
    ↔ r ∈ env.routes.routes ∧ ∀ p, req.providerConstraint = some p → r.provider = p := by
  unfold HostEnv.tableFor
  cases hconstraint : req.providerConstraint with
  | none => simp
  | some provider => simp [RouteTable.filteredByProvider]

/-- A plan with a route was made for the model of the request. -/
theorem publicModel_of_planRequest {now : ℕ} {start : ContinuationBindings} {exclude : List String}
    (h : planRequest env req now start exclude = (.ok plan, bindings)) (hplan : plan ≠ .unrouted) :
    plan.publicModel = env.modelOf req := by
  unfold planRequest at h
  split at h
  · simp at h
  rename_i parsed hparsed
  split at h
  · simp only [Prod.mk.injEq, Except.ok.injEq] at h
    exact absurd h.1.symm hplan
  rename_i model hmodel
  simp only at h
  split at h
  · simp at h
  split at h
  · simp at h
  · simp only [Prod.mk.injEq, Except.ok.injEq] at h
    rw [← h.1, HostEnv.modelOf, hparsed]
    show model = requestModel req parsed
    rw [requestModel, hmodel]
    rfl

/-- A planned turn with a model sends to an eligible pool, and binds the key to
it. -/
theorem routed_of_planTurn (h : planTurn env req a s = (.ok plan, bindings))
    (hplan : plan ≠ .unrouted) : ∃ parsed model selected,
      RoutedPlan env req a.now s.bindings s.failedPools plan bindings parsed model selected
        ∧ req.planned = true ∧ model = env.modelOf req ∧ plan.publicModel = model
        ∧ Eligible (env.tableFor req) model s.failedPools selected := by
  have hrequest := planRequest_of_planTurn h hplan
  have hplanned : req.planned = true := by
    by_contra hno
    rw [planTurn, if_neg hno, Prod.mk.injEq, Except.ok.injEq] at h
    exact hplan h.1.symm
  obtain rfl | ⟨parsed, model, selected, hrouted⟩ := planRequest_ok hrequest
  · exact absurd rfl hplan
  have hmodel : model = env.modelOf req := by
    rw [HostEnv.modelOf, hrouted.body_parsed]
    show model = requestModel req parsed
    rw [requestModel, hrouted.model_named]
    rfl
  exact ⟨parsed, model, selected, hrouted, hplanned, hmodel,
    (publicModel_of_planRequest hrequest hplan).trans hmodel.symm,
    eligible_of_selectPool hrouted.is_selected⟩

/-- What is known when the loop goes on. -/
structure Continued (env : HostEnv) (req : HostRequest) (s s' : FailoverState) (parsed : Value)
    (selected : PoolRoute) : Prop where
  planned : req.planned = true
  body_parsed : env.serde.fromStr req.bytes = some parsed
  model_named : (parsed.getStr "model").or req.pathModel = some (env.modelOf req)
  tried : Eligible (env.tableFor req) (env.modelOf req) s.failedPools selected
  failed : s'.failedPools = selected.poolId :: s.failedPools
  bound : ∀ now poolId, (env.keyFor req parsed).bind (s'.bindings.pool now) = some poolId →
    poolId ∈ s'.failedPools
  fallback : hasFallbackPool env.routes (env.modelOf req) s'.failedPools = true

/-- **Inversion of a turn that goes on.** -/
theorem continued_of_next (h : (failoverStep env req a s).2 = some s') :
    ∃ parsed selected, Continued env req s s' parsed selected := by
  obtain ⟨plan, bindings, hturn, hname, rfl⟩ := planTurn_of_next h
  have hplan : plan ≠ .unrouted := fun heq => hname (heq ▸ rfl)
  obtain ⟨parsed, model, selected, hrouted, hplanned, hmodel, hpublic, htried⟩ :=
    routed_of_planTurn hturn hplan
  have hfallback : hasFallbackPool env.routes plan.publicModel (plan.poolId :: s.failedPools)
      = true := by
    unfold failoverStep at h
    rw [hturn] at h
    simp only at h
    split at h
    · cases h
    split at h
    · split at h
      · assumption
      · cases h
    · cases h
  refine ⟨parsed, selected, hplanned, hrouted.body_parsed, ?_, ?_, ?_, ?_, ?_⟩
  · rw [hrouted.model_named, hmodel]
  · rw [← hmodel]
    exact htried
  · rw [hrouted.poolId]
  · intro now poolId hbound
    -- the key was bound to the pool that has just failed
    cases hkey : env.keyFor req parsed with
    | none =>
      rw [hkey] at hbound
      cases hbound
    | some key =>
      rw [hkey, Option.bind_some, hrouted.bound key hkey,
        ContinuationBindings.pool_bind_self] at hbound
      split at hbound
      · rw [← Option.some.inj hbound, hrouted.poolId]
        exact List.mem_cons_self
      · cases hbound
  · rw [← hmodel, ← hpublic]
    exact hfallback

/-- Planning selects a pool when the selection does. -/
theorem selectsPool_iff {parsed : Value} {model : String} {turn : Turn}
    (hplanned : req.planned = true) (hbody : env.serde.fromStr req.bytes = some parsed)
    (hmodel : (parsed.getStr "model").or req.pathModel = some model) :
    SelectsPool env req turn ↔ ∃ r, selectPool (env.tableFor req) model (env.keyFor req parsed)
      turn.state.bindings turn.attempt.now turn.state.failedPools = .ok r := by
  unfold SelectsPool planTurn
  rw [if_pos hplanned]
  constructor
  · rintro ⟨plan, bindings, hplan, hroute⟩
    obtain rfl | ⟨parsed', model', selected, hrouted⟩ := planRequest_ok hplan
    · cases hroute
    have hparsed : parsed' = parsed := Option.some.inj (hrouted.body_parsed.symm.trans hbody)
    subst hparsed
    have hname : model' = model := Option.some.inj (hrouted.model_named.symm.trans hmodel)
    subst hname
    exact ⟨selected, hrouted.is_selected⟩
  · rintro ⟨r, hr⟩
    have hne : (env.tableFor req).pools model ≠ [] := by
      intro hnil
      rw [selectPool, if_pos hnil] at hr
      cases hr
    unfold planRequest
    rw [hbody]
    simp only [hmodel, if_neg hne, hr]
    exact ⟨_, _, rfl, rfl⟩

/-- **After a turn that goes on**, the next plan selects a pool exactly when the
forced provider has one left. -/
theorem selectsPool_iff_serves (h : (failoverStep env req a s).2 = some s') {sent : Option PlanResult} :
    SelectsPool env req ⟨s', a', sent⟩ ↔ ForcedProviderServes env req ⟨s', a', sent⟩ := by
  obtain ⟨parsed, selected, hcont⟩ := continued_of_next h
  have howner : ¬ OwnerRemoved (env.tableFor req)
      ((env.keyFor req parsed).bind (s'.bindings.pool a'.now)) s'.failedPools := by
    rintro ⟨poolId, hbound, hexclude, -⟩
    exact hexclude (hcont.bound _ _ hbound)
  rw [selectsPool_iff hcont.planned hcont.body_parsed hcont.model_named, exists_selectPool_iff]
  unfold ForcedProviderServes Eligible
  constructor
  · rintro ⟨-, r, hmem, hmodel, havailable, hexclude⟩ provider hprovider
    obtain ⟨hroute, hof⟩ := mem_tableFor.mp hmem
    exact ⟨r, hroute, hof provider hprovider, hmodel, havailable, hexclude⟩
  · intro hserves
    refine ⟨howner, ?_⟩
    cases hconstraint : req.providerConstraint with
    | none =>
      obtain ⟨r, hmem, hmodel, heligible⟩ := hasFallbackPool_iff.mp hcont.fallback
      refine ⟨r, mem_tableFor.mpr ⟨hmem, fun p hp => ?_⟩, hmodel, heligible⟩
      rw [hconstraint] at hp
      cases hp
    | some provider =>
      obtain ⟨r, hmem, hof, hmodel, heligible⟩ := hserves provider hconstraint
      refine ⟨r, mem_tableFor.mpr ⟨hmem, fun p hp => ?_⟩, hmodel, heligible⟩
      rw [hconstraint, Option.some.injEq] at hp
      rw [← hp]
      exact hof

/-! ## The run -/

theorem failoverTurns_cons (rest : List Attempt) :
    failoverTurns env req (a :: rest) s = ⟨s, a, (failoverStep env req a s).1⟩ ::
      (match (failoverStep env req a s).2 with
        | some s' => failoverTurns env req rest s'
        | none => []) := rfl

/-- Every turn but the first comes after a turn that goes on. -/
theorem exists_continued (attempts : List Attempt) (start : FailoverState) :
    ∀ turn ∈ (failoverTurns env req attempts start).tail, ∃ b t,
      (failoverStep env req b t).2 = some turn.state := by
  induction attempts generalizing start with
  | nil => simp [failoverTurns]
  | cons a rest ih =>
    intro turn hturn
    rw [failoverTurns_cons, List.tail_cons] at hturn
    cases hnext : (failoverStep env req a start).2 with
    | none => simp [hnext] at hturn
    | some s' =>
      rw [hnext] at hturn
      cases rest with
      | nil => simp [failoverTurns] at hturn
      | cons b rest' =>
        rcases List.mem_cons.mp hturn with rfl | hlater
        · exact ⟨a, start, hnext⟩
        · exact ih s' turn hlater

/-- The pool a turn tries is eligible. -/
theorem eligible_of_sent (hsent : (failoverStep env req a s).1 = some plan) {r : PoolRoute}
    (hroute : plan.route = some r) :
    Eligible (env.tableFor req) (env.modelOf req) s.failedPools r := by
  obtain ⟨bindings, hturn⟩ := planTurn_of_sent hsent
  have hplan : plan ≠ .unrouted := by
    rintro rfl
    cases hroute
  obtain ⟨parsed, model, selected, hrouted, -, hmodel, -, htried⟩ := routed_of_planTurn hturn hplan
  rw [hrouted.route, Option.some.injEq] at hroute
  rw [← hroute, ← hmodel]
  exact htried

/-- A turn that goes on has failed with the pool it tried. -/
theorem failedPools_of_next (hsent : (failoverStep env req a s).1 = some plan)
    (hnext : (failoverStep env req a s).2 = some s') {r : PoolRoute} (hroute : plan.route = some r) :
    s'.failedPools = r.poolId :: s.failedPools := by
  obtain ⟨plan', bindings', hturn', -, rfl⟩ := planTurn_of_next hnext
  obtain ⟨bindings, hturn⟩ := planTurn_of_sent hsent
  rw [hturn', Prod.mk.injEq, Except.ok.injEq] at hturn
  rw [hturn.1]
  have hplan : plan ≠ .unrouted := by
    rintro rfl
    cases hroute
  obtain ⟨parsed, model, selected, hrouted, -⟩ :=
    routed_of_planTurn (planTurn_of_sent hsent).choose_spec hplan
  rw [hrouted.route, Option.some.injEq] at hroute
  rw [hrouted.poolId, hroute]

/-- The failed pools are kept. -/
theorem failedPools_subset_of_next (hnext : (failoverStep env req a s).2 = some s') :
    s.failedPools ⊆ s'.failedPools := by
  obtain ⟨parsed, selected, hcont⟩ := continued_of_next hnext
  rw [hcont.failed]
  exact List.subset_cons_self _ _

/-- **No pool is tried twice**, and the tried ones are pools of the model that had
not failed. -/
theorem triedPools_spec (attempts : List Attempt) (start : FailoverState) :
    (triedPools (failoverTurns env req attempts start)).Nodup
      ∧ ∀ poolId ∈ triedPools (failoverTurns env req attempts start), poolId ∉ start.failedPools
        ∧ poolId ∈ (env.routes.pools (env.modelOf req)).map PoolRoute.poolId := by
  induction attempts generalizing start with
  | nil => simp [failoverTurns, triedPools]
  | cons a rest ih =>
    -- the rest of the run starts with more failed pools
    have hlater : ∀ turns, (match (failoverStep env req a start).2 with
        | some s' => failoverTurns env req rest s'
        | none => []) = turns →
        (triedPools turns).Nodup ∧ ∀ poolId ∈ triedPools turns, poolId ∉ start.failedPools
          ∧ poolId ∈ (env.routes.pools (env.modelOf req)).map PoolRoute.poolId := by
      rintro turns rfl
      cases hnext : (failoverStep env req a start).2 with
      | none => simp [triedPools]
      | some s' =>
        obtain ⟨hnodup, hfresh⟩ := ih s'
        refine ⟨hnodup, fun poolId hid => ⟨fun hfailed => ?_, (hfresh poolId hid).2⟩⟩
        exact (hfresh poolId hid).1 (failedPools_subset_of_next hnext hfailed)
    obtain ⟨hnodup, hfresh⟩ := hlater _ rfl
    rw [failoverTurns_cons]
    cases hsent : (failoverStep env req a start).1 with
    | none => exact ⟨hnodup, hfresh⟩
    | some plan =>
      cases hroute : plan.route with
      | none =>
        rw [triedPools, List.filterMap_cons_some (by rfl), List.filterMap_cons_none (by rw [hroute]; rfl)]
        exact ⟨hnodup, hfresh⟩
      | some r =>
        rw [triedPools, List.filterMap_cons_some (by rfl),
          List.filterMap_cons_some (by rw [hroute]; rfl)]
        have heligible := eligible_of_sent hsent hroute
        have hpool : r.poolId ∈ (env.routes.pools (env.modelOf req)).map PoolRoute.poolId := by
          refine List.mem_map_of_mem (mem_pools.mpr ⟨(mem_tableFor.mp heligible.1).1, ?_⟩)
          exact heligible.2.1
        refine ⟨List.nodup_cons.mpr ⟨fun hmem => ?_, hnodup⟩, ?_⟩
        · cases hnext : (failoverStep env req a start).2 with
          | none =>
            rw [hnext] at hmem
            cases hmem
          | some s' =>
            rw [hnext] at hmem
            have hfailed := failedPools_of_next hsent hnext hroute
            refine ((ih s').2 r.poolId hmem).1 ?_
            rw [hfailed]
            exact List.mem_cons_self
        · intro poolId hmem
          rcases List.mem_cons.mp hmem with rfl | hmem
          · exact ⟨heligible.2.2.2, hpool⟩
          · exact hfresh poolId hmem

/-- The loop sends at most as many requests as the model has pools. -/
theorem triedPools_length_le (attempts : List Attempt) (start : FailoverState) :
    (triedPools (failoverTurns env req attempts start)).length
      ≤ (env.routes.pools (env.modelOf req)).length := by
  obtain ⟨hnodup, hfresh⟩ := @triedPools_spec env req attempts start
  have hsub : triedPools (failoverTurns env req attempts start)
      ⊆ (env.routes.pools (env.modelOf req)).map PoolRoute.poolId :=
    fun poolId hid => (hfresh poolId hid).2
  have hle := (hnodup.subperm hsub).length_le
  rwa [List.length_map] at hle

variable (env req) in
/-- **The decision agrees with the plan** exactly when, after every decision to
continue, a forced provider has a pool left. -/
theorem failoverAgrees_iff (attempts : List Attempt) (start : FailoverState) :
    FailoverAgrees env req attempts start
      ↔ ∀ turn ∈ (failoverTurns env req attempts start).tail, ForcedProviderServes env req turn := by
  have hturn : ∀ turn ∈ (failoverTurns env req attempts start).tail,
      (SelectsPool env req turn ↔ ForcedProviderServes env req turn) := by
    intro turn hmem
    obtain ⟨b, t, hnext⟩ := exists_continued attempts start turn hmem
    exact selectsPool_iff_serves hnext
  constructor
  · rintro ⟨hselects, -⟩ turn hmem
    exact (hturn turn hmem).mp (hselects turn hmem)
  · intro hserves
    exact ⟨fun turn hmem => (hturn turn hmem).mpr (hserves turn hmem),
      triedPools_length_le attempts start⟩

end

/-! ## A forced provider with one pool -/

/-- A request to the surface of one provider. -/
def forcedRequest : HostRequest := { continuedRequest with providerConstraint := some "antigravity" }

/-- The model has a pool of that provider and one of another. -/
def forcedHost : HostEnv := gptHost [gptPool "own" "antigravity" 1 true, gptPool "spare" "openai" 2 true]

/-- The table has a second pool, so the loop goes on, but the request cannot be
planned on it. -/
theorem not_failoverAgrees_of_forced :
    ¬ ∀ (env : HostEnv) (req : HostRequest) (attempts : List Attempt) (start : FailoverState),
        FailoverAgrees env req attempts start := by
  intro h
  obtain ⟨hselects, -⟩ := h forcedHost forcedRequest exhaustedOnce ⟨continuedBindings, []⟩
  have hsecond : ∃ turn ∈ (failoverTurns forcedHost forcedRequest exhaustedOnce
        ⟨continuedBindings, []⟩).tail,
      (planTurn forcedHost forcedRequest turn.attempt turn.state).1
        = .error ⟨503, "CR-RTE-0002", "no schedulable credential in pool"⟩ := by
    decide
  obtain ⟨turn, hturn, herror⟩ := hsecond
  obtain ⟨plan, bindings, hplan, -⟩ := hselects turn hturn
  rw [hplan] at herror
  cases herror

end CodexRouter
