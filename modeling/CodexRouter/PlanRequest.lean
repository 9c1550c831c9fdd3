/-
# Planning a request and failing over between pools

`plan_request` and the failover loop of `data_plane` in `router_host.rs`.  Each
turn of the loop plans the original bytes again, with the pools that failed so
far excluded, and sends the result; an answer that says the pool is exhausted
starts another turn while an eligible pool is left.

Planning binds the continuation key to the pool it selects, so the bindings are
part of the loop's state, together with the failed pools.  The clock, the
upstream answers and the contents of `HostEnv` are inputs.
-/
import CodexRouter.Routing
import CodexRouter.RequestSanitizer

namespace CodexRouter

open Text

/-- `CONTINUATION_TTL` in seconds. -/
def continuationTtl : ℕ := 3600

/-- What planning reads of the host: the route table, the JSON crate, the digest
and the functions under the request sanitizer. -/
structure HostEnv where
  serde : Serde
  hexSha256 : String → String
  rewriters : Rewriters
  routes : RouteTable

/-- A request of the data plane.  `planned` says that it is a non-empty JSON
body with `POST` or `PUT`; other requests are forwarded without a plan. -/
structure HostRequest where
  bytes : String
  planned : Bool
  sessionHeader : Option String
  pathModel : Option String
  providerConstraint : Option String
  requestPath : String

/-- The error object of `plan_request`. -/
structure PlanError where
  status : ℕ
  code : String
  message : String
  deriving DecidableEq

/-- `PlanResult`.  `body` is the JSON value that is encoded and sent, `none`
where the bytes of the request go as they are.  `route` is the selected pool,
whose id, prefix and upstream model the other fields repeat. -/
structure PlanResult where
  body : Option Value
  publicModel : String
  poolId : String
  poolPrefix : String
  upstreamModel : String
  internalModel : String
  freshUpstreamRequestId : Bool
  route : Option PoolRoute
  deriving DecidableEq

/-- The plan of a request without a model. -/
def PlanResult.unrouted : PlanResult := ⟨none, "", "", "", "", "", false, none⟩

/-- The table a request is planned with: a forced provider sees its own pools. -/
def HostEnv.tableFor (env : HostEnv) (req : HostRequest) : RouteTable :=
  match req.providerConstraint with
  | some provider => env.routes.filteredByProvider provider
  | none => env.routes

/-- The continuation key of a parsed body. -/
def HostEnv.keyFor (env : HostEnv) (req : HostRequest) (parsed : Value) : Option String :=
  RouteTable.continuationKey env.hexSha256 (parsed.getStr "conversation_id")
    (parsed.getStr "previous_response_id") (parsed.getStr "prompt_cache_key") req.sessionHeader

/-- The members that go when the provider changes. -/
def providerBoundKeys : List String :=
  ["previous_response_id", "conversation_id", "conversation", "prompt_cache_key", "client_metadata"]

/-- Drop the members bound to the previous provider. -/
def dropProviderBound : Value → Value
  | .object m => .object (removeKeys providerBoundKeys m)
  | v => v

/-- The body that is sent to the selected pool. -/
def plannedBody (env : HostEnv) (req : HostRequest) (parsed : Value) (model : String)
    (selected : PoolRoute) (switchedProvider : Bool) : Value :=
  let internalModel := RouteTable.rewriteRequestModel model selected
  let setModel := fun v : Value =>
    if (parsed.getStr "model").isSome then v.insert "model" (.string internalModel) else v
  let body := setModel (if switchedProvider then dropProviderBound parsed else parsed)
  if isOpenaiFamilyModel model then body
  else setModel (sanitizeResponsesRequest env.rewriters req.requestPath body)

/-- The error where no pool can be selected. -/
def selectionError (table : RouteTable) (bound : Option String) : PlanError :=
  if (bound.map fun poolId => (table.findPool poolId).isNone).getD false then
    ⟨409, "CR-RTE-0006", "continuation owner is no longer available"⟩
  else ⟨503, "CR-RTE-0002", "no schedulable credential in pool"⟩

/-- `plan_request`, with the bindings it leaves. -/
def planRequest (env : HostEnv) (req : HostRequest) (now : ℕ) (bindings : ContinuationBindings)
    (exclude : List String) : Except PlanError PlanResult × ContinuationBindings :=
  match env.serde.fromStr req.bytes with
  | none => (.error ⟨400, "CR-REQ-0006", "request body is not valid JSON"⟩, bindings)
  | some parsed =>
    match (parsed.getStr "model").or req.pathModel with
    | none => (.ok .unrouted, bindings)
    | some model =>
      let table := env.tableFor req
      let key := env.keyFor req parsed
      if table.pools model = [] then
        (.error ⟨404, "CR-RTE-0001", "no route for model " ++ model⟩, bindings)
      else
        match selectPool table model key bindings now exclude with
        | .error _ => (.error (selectionError table (key.bind (bindings.pool now))), bindings)
        | .ok selected =>
          let switchedProvider := shouldDropPreviousResponse table bindings now key selected
          let bindings := match key with
            | some key => bindings.bind now key selected.poolId continuationTtl
            | none => bindings
          (.ok
            { body := some (plannedBody env req parsed model selected switchedProvider)
              publicModel := model
              poolId := selected.poolId
              poolPrefix := selected.pfx
              upstreamModel := selected.upstreamModel
              internalModel := RouteTable.rewriteRequestModel model selected
              freshUpstreamRequestId := switchedProvider
                || isXaiFamilyModel selected.upstreamModel || isXaiFamilyModel selected.publicModel
              route := some selected }, bindings)

/-! ## Upstream answers -/

/-- `is_missing_provider_auth`. -/
def isMissingProviderAuth (body : String) : Bool :=
  ["auth_unavailable", "no auth available", "unknown provider for model"].any
    (contains (toAsciiLowercase body))

/-- `is_exhausted_account_status`. -/
def isExhaustedAccountStatus (status : ℕ) (body : String) : Bool :=
  status = 503 && !isMissingProviderAuth body
    && ["no available accounts", "too many requests", "rate_limit", "rate limit",
        "service temporarily unavailable", "model temporarily unavailable"].any
      (contains (toAsciiLowercase body))

/-- `is_quota_exhausted_error`. -/
def isQuotaExhaustedError (status : ℕ) (body : String) : Bool :=
  status = 402
    || (status = 429 || status = 503)
      && ["quota", "usage_limit", "usage limit", "resource has been exhausted",
          "resource_exhausted", "cooling down", "model_cooldown", "payment_required",
          "payment required"].any (contains (toAsciiLowercase body))

/-- `is_pool_failover_error`. -/
def isPoolFailoverError (status : ℕ) (body : String) : Bool :=
  status = 402
    || (status = 429 || status = 503)
      && (isQuotaExhaustedError status body
        || ["rate_limit", "rate limit", "too many requests"].any (contains (toAsciiLowercase body))
        || isExhaustedAccountStatus status body)

/-- How a sent request ends: no answer, an event stream, an answer whose body
broke off, or an answer. -/
inductive Upstream where
  | unreachable
  | stream
  | interrupted
  | answer (status : ℕ) (body : String)

/-- `should_failover`, for a request that has a public model. -/
def Upstream.failsOver : Upstream → Bool
  | .answer status body => isPoolFailoverError status body || isMissingProviderAuth body
  | _ => false

/-! ## The failover loop -/

/-- The state of the loop. -/
structure FailoverState where
  bindings : ContinuationBindings
  failedPools : List String := []

/-- The inputs of one turn: the time, and what the upstream does. -/
structure Attempt where
  now : ℕ
  upstream : Upstream

/-- A request for a compaction that is answered locally, if its body is JSON. -/
def answeredLocally (env : HostEnv) (req : HostRequest) (plan : PlanResult) : Bool :=
  isCompactPath req.requestPath && !isOpenaiFamilyModel plan.publicModel
    && !isXaiFamilyModel plan.publicModel
    && (plan.body.isSome || (env.serde.fromStr req.bytes).isSome)

/-- The plan of one turn, with the bindings it leaves. -/
def planTurn (env : HostEnv) (req : HostRequest) (a : Attempt) (s : FailoverState) :
    Except PlanError PlanResult × ContinuationBindings :=
  if req.planned then planRequest env req a.now s.bindings s.failedPools
  else (.ok .unrouted, s.bindings)

/-- One turn of the loop: the plan that is sent, if any, and the state of the
next turn, if there is one. -/
def failoverStep (env : HostEnv) (req : HostRequest) (a : Attempt) (s : FailoverState) :
    Option PlanResult × Option FailoverState :=
  match planTurn env req a s with
  | (.error _, _) => (none, none)
  | (.ok plan, bindings) =>
    if answeredLocally env req plan then (none, none)
    else if plan.publicModel ≠ "" ∧ a.upstream.failsOver then
      let failedPools := plan.poolId :: s.failedPools
      if hasFallbackPool env.routes plan.publicModel failedPools then
        (some plan, some ⟨bindings, failedPools⟩)
      else (some plan, none)
    else (some plan, none)

/-- A turn that was taken: its state, its inputs, and what was sent. -/
structure Turn where
  state : FailoverState
  attempt : Attempt
  sent : Option PlanResult

/-- The turns of the loop for the given inputs, at most one for each. -/
def failoverTurns (env : HostEnv) (req : HostRequest) : List Attempt → FailoverState → List Turn
  | [], _ => []
  | a :: rest, s =>
    ⟨s, a, (failoverStep env req a s).1⟩ ::
      match (failoverStep env req a s).2 with
      | some s' => failoverTurns env req rest s'
      | none => []

end CodexRouter
