/-
# Continuation handles across a failover

A conversation that is kept by a provider is named by `previous_response_id` or
`conversation_id`.  Planning drops the two when the selected pool belongs to
another provider than the pool bound to the continuation key.  But planning also
binds the key to the selected pool, so from the second turn of the failover loop
on it compares with the pool tried last, and no longer with the owner.

`failover_keeps_provider` is what the loop guarantees: if every turn but the
first meets `AttemptClear`, a handle only ever reaches the owner's provider.
`failover_crosses_provider` is a run with three pools in which it does not.

The run invariant `BoundFailed` says that from the second turn on the bound pool
is one of the failed ones, so that the loop falls back to the first eligible
pool.
-/
import CodexRouter.PlanRequest

namespace CodexRouter

/-- A body that names a conversation. -/
def HasHandle (body : Value) : Prop := ∃ k ∈ handleKeys, (body.get k).isSome

instance (body : Value) : Decidable (HasHandle body) :=
  inferInstanceAs (Decidable (∃ k ∈ handleKeys, _))

/-! ## What planning does to the handles -/

/-- A sanitized body names a conversation only when the body did. -/
theorem HasHandle.of_sanitize {r : Rewriters} {path : String} {body : Value}
    (h : HasHandle (sanitizeResponsesRequest r path body)) : HasHandle body := by
  cases body with
  | object m =>
    obtain ⟨k, hk, hsome⟩ := h
    obtain ⟨v, hv⟩ := Option.isSome_iff_exists.mp hsome
    exact ⟨k, hk, Option.isSome_iff_exists.mpr ⟨v, handlesFrom_sanitizeMembers r path m k hk v hv⟩⟩
  | _ => exact h

theorem HasHandle.of_insert {k : String} (hk : k ∉ handleKeys) {x body : Value}
    (h : HasHandle (body.insert k x)) : HasHandle body := by
  cases body with
  | object m =>
    obtain ⟨k', hk', hsome⟩ := h
    obtain ⟨v, hv⟩ := Option.isSome_iff_exists.mp hsome
    exact ⟨k', hk', Option.isSome_iff_exists.mpr ⟨v, handlesFrom_insert hk x m k' hk' v hv⟩⟩
  | _ => exact h

/-- Dropping removes the handles. -/
theorem not_hasHandle_dropProviderBound (body : Value) : ¬ HasHandle (dropProviderBound body) := by
  rintro ⟨k, hk, hsome⟩
  cases body with
  | object m =>
    have hgone : Members.get k (removeKeys providerBoundKeys m) = none := by
      simp only [handleKeys, List.mem_cons, List.not_mem_nil, or_false] at hk
      rcases hk with rfl | rfl <;> simp [removeKeys, providerBoundKeys]
    simp [dropProviderBound, hgone] at hsome
  | _ => simp [dropProviderBound, Value.get] at hsome

/-- A planned body names a conversation only when the provider stayed. -/
theorem not_switched_of_hasHandle {env : HostEnv} {req : HostRequest} {parsed : Value}
    {model : String} {selected : PoolRoute} {switched : Bool}
    (h : HasHandle (plannedBody env req parsed model selected switched)) : switched = false := by
  have hset : ∀ v : Value, HasHandle
      (if (parsed.getStr "model").isSome then
        v.insert "model" (.string (RouteTable.rewriteRequestModel model selected)) else v) →
      HasHandle v := by
    intro v hv
    split at hv
    · exact hv.of_insert (by decide)
    · exact hv
  have hbody : HasHandle (if switched then dropProviderBound parsed else parsed) := by
    unfold plannedBody at h
    simp only at h
    split at h
    · exact hset _ h
    · exact hset _ (hset _ h).of_sanitize
  cases switched with
  | true => exact absurd hbody (not_hasHandle_dropProviderBound parsed)
  | false => rfl

/-- What a routed plan consists of. -/
structure RoutedPlan (env : HostEnv) (req : HostRequest) (now : ℕ)
    (bindings : ContinuationBindings) (exclude : List String) (plan : PlanResult)
    (bindings' : ContinuationBindings) (parsed : Value) (model : String)
    (selected : PoolRoute) : Prop where
  body_parsed : env.serde.fromStr req.bytes = some parsed
  model_named : (parsed.getStr "model").or req.pathModel = some model
  is_selected : selectPool (env.tableFor req) model (env.keyFor req parsed) bindings now exclude
    = .ok selected
  route : plan.route = some selected
  poolId : plan.poolId = selected.poolId
  body : plan.body = some (plannedBody env req parsed model selected
    (shouldDropPreviousResponse (env.tableFor req) bindings now (env.keyFor req parsed) selected))
  bound : ∀ key, env.keyFor req parsed = some key →
    bindings' = bindings.bind now key selected.poolId continuationTtl

/-- **Inversion of planning**: the plan is unrouted, or one for a selected pool. -/
theorem planRequest_ok {env : HostEnv} {req : HostRequest} {now : ℕ}
    {bindings bindings' : ContinuationBindings} {exclude : List String} {plan : PlanResult}
    (h : planRequest env req now bindings exclude = (.ok plan, bindings')) :
    plan = .unrouted ∨ ∃ parsed model selected,
      RoutedPlan env req now bindings exclude plan bindings' parsed model selected := by
  unfold planRequest at h
  split at h
  · simp at h
  rename_i parsed hparsed
  split at h
  · simp only [Prod.mk.injEq, Except.ok.injEq] at h
    exact Or.inl h.1.symm
  rename_i model hmodel
  simp only at h
  split at h
  · simp at h
  split at h
  · simp at h
  rename_i selected hselected
  simp only [Prod.mk.injEq, Except.ok.injEq] at h
  obtain ⟨rfl, rfl⟩ := h
  refine Or.inr ⟨parsed, model, selected, hparsed, hmodel, hselected, rfl, rfl, rfl, ?_⟩
  intro key hkey
  rw [hkey]

/-! ## The turns of the loop -/

section

variable {env : HostEnv} {req : HostRequest} {a : Attempt} {s : FailoverState}

/-- What is sent was planned. -/
theorem planTurn_of_sent {plan : PlanResult} (h : (failoverStep env req a s).1 = some plan) :
    ∃ bindings, planTurn env req a s = (.ok plan, bindings) := by
  unfold failoverStep at h
  split at h
  · simp at h
  · rename_i plan' bindings hplan
    refine ⟨bindings, ?_⟩
    split at h
    · simp at h
    split at h
    · simp only at h
      split at h <;> exact Option.some.inj h ▸ hplan
    · exact Option.some.inj h ▸ hplan

/-- The next turn excludes the pool that was tried. -/
theorem planTurn_of_next {s' : FailoverState} (h : (failoverStep env req a s).2 = some s') :
    ∃ plan bindings, planTurn env req a s = (.ok plan, bindings) ∧ plan.publicModel ≠ ""
      ∧ s' = ⟨bindings, plan.poolId :: s.failedPools⟩ := by
  unfold failoverStep at h
  split at h
  · simp at h
  · rename_i plan bindings hplan
    split at h
    · simp at h
    split at h
    · rename_i hfails
      simp only at h
      split at h
      · exact ⟨plan, bindings, hplan, hfails.1, (Option.some.inj h).symm⟩
      · simp at h
    · simp at h

/-- A plan with a route comes from `planRequest`. -/
theorem planRequest_of_planTurn {plan : PlanResult} {bindings : ContinuationBindings}
    (h : planTurn env req a s = (.ok plan, bindings)) (hplan : plan ≠ .unrouted) :
    planRequest env req a.now s.bindings s.failedPools = (.ok plan, bindings) := by
  unfold planTurn at h
  split at h
  · exact h
  · simp only [Prod.mk.injEq, Except.ok.injEq] at h
    exact absurd h.1.symm hplan

end

section

variable (env : HostEnv) (req : HostRequest) (parsed : Value) (key owner : String)

/-- The provider of the pool that owned the conversation when the request came. -/
def ownerProvider : Option String := ((env.tableFor req).findPool owner).map (·.provider)

/-- The model of the request. -/
def requestModel : String := ((parsed.getStr "model").or req.pathModel).getD ""

/-- Before a turn: no pool has failed yet, or the next pool belongs to the
owner's provider, or the pool bound to the key is known and belongs to another
provider than the next pool. -/
def AttemptClear (turn : Turn) : Prop :=
  turn.state.failedPools = []
    ∨ ∀ next ∈ ((env.tableFor req).pools (requestModel req parsed)).find?
        (isEligible turn.state.failedPools),
      ownerProvider env req owner = some next.provider
        ∨ ∃ bound ∈ (turn.state.bindings.pool turn.attempt.now key).bind
            (env.tableFor req).findPool, bound.provider ≠ next.provider

instance (turn : Turn) : Decidable (AttemptClear env req parsed key owner turn) :=
  inferInstanceAs (Decidable (_ ∨ ∀ next ∈ _, _ ∨ ∃ bound ∈ _, _))

/-- What a turn sends stays with the owner's provider while it names the
conversation. -/
def KeepsProvider (turn : Turn) : Prop :=
  ∀ plan body route, turn.sent = some plan → plan.body = some body → plan.route = some route →
    HasHandle body → ownerProvider env req owner = some route.provider

/-- The pool bound to the key has failed. -/
def BoundFailed (s : FailoverState) : Prop :=
  ∀ now poolId, s.bindings.pool now key = some poolId → poolId ∈ s.failedPools

end

section

variable {env : HostEnv} {req : HostRequest} {parsed : Value} {key owner : String}

/-- A turn with a failed bound pool tries the first eligible pool; with a clear
attempt the handle goes to the owner's provider or is dropped. -/
theorem keepsProvider_of_clear (hbody : env.serde.fromStr req.bytes = some parsed)
    (hkey : env.keyFor req parsed = some key) {s : FailoverState} {a : Attempt}
    (hbound : (s.failedPools = [] ∧ s.bindings.pool a.now key = some owner)
      ∨ s.failedPools ≠ [] ∧ BoundFailed key s)
    (hclear : AttemptClear env req parsed key owner ⟨s, a, (failoverStep env req a s).1⟩) :
    KeepsProvider env req owner ⟨s, a, (failoverStep env req a s).1⟩ := by
  intro plan body route hsent hpbody hroute hhandle
  obtain ⟨bindings, hturn⟩ := planTurn_of_sent hsent
  have hne : plan ≠ .unrouted := by
    rintro rfl
    simp [PlanResult.unrouted] at hroute
  obtain hplan | ⟨parsed', model, selected, hrouted⟩ :=
    planRequest_ok (planRequest_of_planTurn hturn hne)
  · exact absurd hplan hne
  obtain rfl : parsed' = parsed := Option.some.inj (hrouted.body_parsed.symm.trans hbody)
  obtain rfl : selected = route := Option.some.inj (hrouted.route.symm.trans hroute)
  rw [Option.some.inj (hpbody.symm.trans hrouted.body)] at hhandle
  have hkept := not_switched_of_hasHandle hhandle
  have hselected := hrouted.is_selected
  rw [hkey] at hkept hselected
  -- the provider of a bound pool of the table is that of the selected pool
  have hsame : ∀ bound, (s.bindings.pool a.now key).bind (env.tableFor req).findPool = some bound →
      bound.provider = selected.provider := by
    intro bound hb
    simpa [shouldDropPreviousResponse, hb] using hkept
  rcases hbound with ⟨hfirst, hlive⟩ | ⟨hlater, hfailed⟩
  · have hinTable : ((env.tableFor req).findPool owner).isSome := by
      rcases selectPool_cases hselected with ⟨poolId, hp, _, hfound⟩ | ⟨_, hin⟩
      · obtain rfl : owner = poolId := Option.some.inj (hlive.symm.trans hp)
        exact isSome_findPool_of_pools hfound
      · exact (hin owner hlive).resolve_left (by simp [hfirst])
    obtain ⟨bound, hb⟩ := Option.isSome_iff_exists.mp hinTable
    rw [ownerProvider, hb, Option.map_some, hsame bound (by rw [hlive]; exact hb)]
  · rcases selectPool_cases hselected with ⟨poolId, hp, hex, _⟩ | ⟨hfound, _⟩
    · exact absurd (hfailed a.now poolId hp) hex
    · have hmodel : requestModel req parsed' = model := by
        rw [requestModel, hrouted.model_named, Option.getD_some]
      rcases hclear.resolve_left hlater selected (by rw [hmodel]; exact hfound) with h | ⟨b, hb, hneq⟩
      · exact h
      · exact absurd (hsame b hb) hneq

/-- After a turn that fails over, the bound pool is a failed one. -/
theorem boundFailed_step (hbody : env.serde.fromStr req.bytes = some parsed)
    (hkey : env.keyFor req parsed = some key) {s s' : FailoverState} {a : Attempt}
    (h : (failoverStep env req a s).2 = some s') :
    s'.failedPools ≠ [] ∧ BoundFailed key s' := by
  obtain ⟨plan, bindings, hturn, hmodel, rfl⟩ := planTurn_of_next h
  refine ⟨List.cons_ne_nil _ _, fun now poolId hp => ?_⟩
  have hne : plan ≠ .unrouted := by
    rintro rfl
    exact hmodel rfl
  obtain hplan | ⟨parsed', model, selected, hrouted⟩ :=
    planRequest_ok (planRequest_of_planTurn hturn hne)
  · exact absurd hplan hne
  obtain rfl : parsed' = parsed := Option.some.inj (hrouted.body_parsed.symm.trans hbody)
  rw [hrouted.bound key hkey, ContinuationBindings.pool_bind_self] at hp
  split at hp
  · rw [hrouted.poolId]
    exact Option.some.inj hp ▸ List.mem_cons_self
  · simp at hp

/-- The turns after the first one. -/
theorem keepsProvider_later (hbody : env.serde.fromStr req.bytes = some parsed)
    (hkey : env.keyFor req parsed = some key) {attempts : List Attempt} {s : FailoverState}
    (hs : s.failedPools ≠ [] ∧ BoundFailed key s)
    (hclear : ∀ turn ∈ failoverTurns env req attempts s, AttemptClear env req parsed key owner turn) :
    ∀ turn ∈ failoverTurns env req attempts s, KeepsProvider env req owner turn := by
  induction attempts generalizing s with
  | nil => simp [failoverTurns]
  | cons a rest ih =>
    intro turn hturn
    rw [failoverTurns] at hturn hclear
    rcases List.mem_cons.mp hturn with rfl | hturn
    · exact keepsProvider_of_clear hbody hkey (Or.inr hs) (hclear _ List.mem_cons_self)
    · cases hnext : (failoverStep env req a s).2 with
      | none => simp [hnext] at hturn
      | some s' =>
        rw [hnext] at hturn hclear
        exact ih (boundFailed_step hbody hkey hnext)
          (fun t ht => hclear t (List.mem_cons_of_mem _ ht)) turn hturn

/-- **A handle stays with the owner's provider** in every run of the failover
loop whose turns are clear.  The key is bound to `owner` when the request is
planned first; how many pools fail and how much time passes is arbitrary. -/
theorem failover_keeps_provider (hbody : env.serde.fromStr req.bytes = some parsed)
    (hkey : env.keyFor req parsed = some key) {start : ContinuationBindings} {a : Attempt}
    (hlive : start.pool a.now key = some owner) (rest : List Attempt)
    (hclear : ∀ turn ∈ failoverTurns env req (a :: rest) ⟨start, []⟩,
      AttemptClear env req parsed key owner turn) :
    ∀ turn ∈ failoverTurns env req (a :: rest) ⟨start, []⟩, KeepsProvider env req owner turn := by
  intro turn hturn
  rw [failoverTurns] at hturn hclear
  rcases List.mem_cons.mp hturn with rfl | hturn
  · exact keepsProvider_of_clear hbody hkey (Or.inl ⟨rfl, hlive⟩) (hclear _ List.mem_cons_self)
  · cases hnext : (failoverStep env req a ⟨start, []⟩).2 with
    | none => simp [hnext] at hturn
    | some s' =>
      rw [hnext] at hturn hclear
      exact keepsProvider_later hbody hkey (boundFailed_step hbody hkey hnext)
        (fun t ht => hclear t (List.mem_cons_of_mem _ ht)) turn hturn

end

/-! ## A run that crosses providers -/

/-- Rewriters that change nothing; a model of the OpenAI family calls none. -/
def plainRewriters : Rewriters where
  repairInput := id
  repairMessages := id
  instructions := fun _ _ => none
  normalizeTools := id
  flattenTools := id
  flattenHistory := fun _ => id
  convertShellTools := id
  toolsAreDegraded := fun _ => false
  simplifyTools := fun tools => tools.getD []
  grokTools := id
  toolSchemas := id
  clampTools := fun _ => id
  clampInput := fun _ => id
  rewriteInput := fun _ _ => id
  rewriteMessages := id

/-- A request that continues the response `resp_1`. -/
def continuedBody : Value :=
  .object [("model", .string "gpt-5"), ("previous_response_id", .string "resp_1")]

def continuedRequest : HostRequest :=
  ⟨Serde.print continuedBody, true, none, none, none, "/v1/responses"⟩

/-- A pool of `gpt-5`. -/
def gptPool (id provider : String) (priority : ℤ) (available : Bool) : PoolRoute :=
  ⟨id, "cr_" ++ id, "gpt-5", "gpt-5", provider, priority, true, available⟩

/-- A host with the given pools, reading the one request body. -/
def gptHost (pools : List PoolRoute) : HostEnv where
  serde := ⟨fun s => if s = Serde.print continuedBody then some continuedBody else none, Serde.print⟩
  hexSha256 := fun s =>
    if s = "resp_1" then "7a8babb8a11671dfe03c4a5e8f77c6db3da95d6510d4f52c3cd5c9dd009997ef" else ""
  rewriters := plainRewriters
  routes := ⟨pools⟩

/-- The key of the response `resp_1`. -/
def continuedKey : String := (gptHost []).hexSha256 "resp_1"

/-- The response came from the pool `own`. -/
def continuedBindings : ContinuationBindings := ContinuationBindings.bind {} 0 continuedKey "own" 3600

/-- Two turns; the first pool answers `402`. -/
def exhaustedOnce : List Attempt := [⟨10, .answer 402 "Payment Required"⟩, ⟨20, .stream⟩]

/-- The owner and a second pool of its provider. -/
def spareHost : HostEnv := gptHost [gptPool "own" "openai" 1 true, gptPool "spare" "openai" 2 true]

/-- With two pools of one provider the handle stays there. -/
theorem failover_keeps_provider_spare :
    (failoverTurns spareHost continuedRequest exhaustedOnce ⟨continuedBindings, []⟩).Forall
      (KeepsProvider spareHost continuedRequest "own") :=
  List.forall_iff_forall_mem.mpr
    (@failover_keeps_provider spareHost continuedRequest continuedBody continuedKey "own"
      (by decide) (by decide) continuedBindings ⟨10, .answer 402 "Payment Required"⟩ (by decide)
      [⟨20, .stream⟩] (by decide))

/-- The owner is paused, and two pools of another provider are left. -/
def crossingHost : HostEnv :=
  gptHost [gptPool "own" "openai" 1 false, gptPool "spare" "azure" 2 true,
    gptPool "third" "azure" 3 true]

/-- A handle of one provider reaches another one on the second turn. -/
theorem failover_crosses_provider :
    ¬ ∀ (env : HostEnv) (req : HostRequest) (parsed : Value) (key owner : String)
      (start : ContinuationBindings) (a : Attempt) (rest : List Attempt),
      env.serde.fromStr req.bytes = some parsed → env.keyFor req parsed = some key →
      start.pool a.now key = some owner →
      ∀ turn ∈ failoverTurns env req (a :: rest) ⟨start, []⟩, KeepsProvider env req owner turn := by
  intro h
  have hrun := h crossingHost continuedRequest continuedBody continuedKey "own" continuedBindings
    ⟨10, .answer 402 "Payment Required"⟩ [⟨20, .stream⟩] (by decide) (by decide) (by decide)
  have hsecond : ∃ turn ∈ failoverTurns crossingHost continuedRequest exhaustedOnce
        ⟨continuedBindings, []⟩, ∃ plan ∈ turn.sent, ∃ body ∈ plan.body, ∃ route ∈ plan.route,
      HasHandle body ∧ ownerProvider crossingHost continuedRequest "own" ≠ some route.provider := by
    decide
  obtain ⟨turn, hturn, plan, hplan, body, hbody, route, hroute, hhandle, hother⟩ := hsecond
  exact hother (hrun turn hturn plan body route hplan hbody hroute hhandle)

end CodexRouter
