/-
# Route tables, continuation bindings and pool selection

The module `routing` of the source.  A route table lists the pools that serve
each public model, in the order in which they are tried; a continuation binding
remembers for a while which pool a conversation was sent to.  `selectPool` sends
a bound conversation to its pool while that pool is available, and everything
else to the first available pool that has not failed yet.

The clock and the digest are parameters: `now` is the time in seconds, and
`hexSha256` the SHA-256 digest of the `sha2` crate in hexadecimal.
-/
import CodexRouter.Base.Text
import Mathlib.Data.List.Sort

namespace CodexRouter

open Text

/-- `PoolRoute`. -/
structure PoolRoute where
  poolId : String
  pfx : String
  publicModel : String
  upstreamModel : String
  provider : String
  priority : ℤ
  enabled : Bool
  available : Bool
  deriving DecidableEq, Repr

/-- `RouteTable`. -/
structure RouteTable where
  routes : List PoolRoute
  deriving DecidableEq

namespace RouteTable

/-- The order of `RouteTable::new`: public model, then priority, then pool id. -/
def routeLe (a b : PoolRoute) : Bool :=
  if a.publicModel ≠ b.publicModel then a.publicModel < b.publicModel
  else if a.priority ≠ b.priority then a.priority < b.priority
  else a.poolId ≤ b.poolId

/-- The prefix checks of `RouteTable::new`, in table order. -/
def checkPrefixes : List String → List PoolRoute → Except String Unit
  | _, [] => .ok ()
  | seen, route :: rest =>
    if startsWith route.pfx "cr/" || contains route.pfx ".." then
      .error ("unsafe internal prefix " ++ route.pfx)
    else if route.pfx ∈ seen then .error ("duplicate internal prefix " ++ route.pfx)
    else checkPrefixes (route.pfx :: seen) rest

/-- `RouteTable::new`.  The loop over the public models has no effect. -/
def new (routes : List PoolRoute) : Except String RouteTable :=
  let routes := (routes.filter (·.enabled)).insertionSort (routeLe · ·)
  match checkPrefixes [] routes with
  | .ok () => .ok ⟨routes⟩
  | .error e => .error e

/-- `filtered_by_provider`. -/
def filteredByProvider (table : RouteTable) (provider : String) : RouteTable :=
  ⟨table.routes.filter (·.provider = provider)⟩

/-- `pools`. -/
def pools (table : RouteTable) (publicModel : String) : List PoolRoute :=
  table.routes.filter (·.publicModel = publicModel)

/-- `table.routes().iter().find(|route| route.pool_id == pool_id)`. -/
def findPool (table : RouteTable) (poolId : String) : Option PoolRoute :=
  table.routes.find? (·.poolId = poolId)

/-- `rewrite_request_model`. -/
def rewriteRequestModel (publicModel : String) (selected : PoolRoute) : String :=
  selected.pfx ++ "/" ++ publicModel

/-- `continuation_key`: the first of the four identities that is there, hashed;
a blank response id does not count. -/
def continuationKey (hexSha256 : String → String) (conversationId previousResponseId
    promptCacheKey sessionHeader : Option String) : Option String :=
  let previousResponseId := previousResponseId.filter fun value => trim value ≠ ""
  ((((previousResponseId.or conversationId).or promptCacheKey).or sessionHeader)).map hexSha256

end RouteTable

/-- `ContinuationBindings`: key, pool id and the second the binding expires. -/
structure ContinuationBindings where
  store : List (String × String × ℕ) := []

namespace ContinuationBindings

/-- `bind`. -/
def bind (b : ContinuationBindings) (now : ℕ) (key poolId : String) (ttl : ℕ) :
    ContinuationBindings :=
  ⟨(key, poolId, now + ttl) :: b.store.filter (·.1 ≠ key)⟩

/-- `pool`: the pool bound to a key, unless the binding has expired. -/
def pool (b : ContinuationBindings) (now : ℕ) (key : String) : Option String :=
  (b.store.lookup key).bind fun (poolId, expires) => if now < expires then some poolId else none

/-- A key is bound to the pool of its last binding until that expires. -/
@[simp] theorem pool_bind_self (b : ContinuationBindings) (now now' : ℕ) (key poolId : String)
    (ttl : ℕ) : (b.bind now key poolId ttl).pool now' key
      = if now' < now + ttl then some poolId else none := by
  simp [pool, bind]

end ContinuationBindings

/-- The pools that may be tried: available and not excluded. -/
def isEligible (exclude : List String) (route : PoolRoute) : Bool :=
  route.available && route.poolId ∉ exclude

/-- The pool a bound conversation is sent to, `none` when the binding does not
decide; the error is that of an owner that left the table. -/
def boundPool (table : RouteTable) (publicModel : String) (bound : Option String)
    (exclude : List String) : Except String (Option PoolRoute) :=
  match bound with
  | none => .ok none
  | some poolId =>
    if poolId ∈ exclude then .ok none
    else
      match (table.pools publicModel).find? (·.poolId = poolId) with
      | some route => if route.available then .ok (some route) else .ok none
      | none =>
        if (table.findPool poolId).isSome then .ok none
        else .error ("continuation owner " ++ poolId ++ " was removed")

/-- The first pool that may be tried. -/
def firstEligible (table : RouteTable) (publicModel : String) (exclude : List String) :
    Except String PoolRoute :=
  match (table.pools publicModel).find? (isEligible exclude) with
  | some route => .ok route
  | none => .error ("no available credential pool for " ++ publicModel)

/-- `select_pool`. -/
def selectPool (table : RouteTable) (publicModel : String) (continuationKey : Option String)
    (bindings : ContinuationBindings) (now : ℕ) (exclude : List String) :
    Except String PoolRoute :=
  if table.pools publicModel = [] then .error ("public model " ++ publicModel ++ " has no route")
  else
    match boundPool table publicModel (continuationKey.bind (bindings.pool now)) exclude with
    | .error e => .error e
    | .ok (some route) => .ok route
    | .ok none => firstEligible table publicModel exclude

/-- `has_fallback_pool`. -/
def hasFallbackPool (table : RouteTable) (publicModel : String) (exclude : List String) : Bool :=
  (table.pools publicModel).any (isEligible exclude)

/-- `should_drop_previous_response`. -/
def shouldDropPreviousResponse (table : RouteTable) (bindings : ContinuationBindings) (now : ℕ)
    (key : Option String) (selected : PoolRoute) : Bool :=
  match (key.bind (bindings.pool now)).bind table.findPool with
  | some previous => previous.provider ≠ selected.provider
  | none => false

/-! ## What is selected -/

section

variable {table : RouteTable} {publicModel : String} {key bound : Option String}
  {bindings : ContinuationBindings} {now : ℕ} {exclude : List String} {route : PoolRoute}

theorem firstEligible_eq_ok :
    firstEligible table publicModel exclude = .ok route
      ↔ (table.pools publicModel).find? (isEligible exclude) = some route := by
  rw [firstEligible]
  cases (table.pools publicModel).find? (isEligible exclude) <;> simp

/-- A pool of the model is a pool of the table. -/
theorem isSome_findPool_of_pools {poolId : String}
    (h : (table.pools publicModel).find? (·.poolId = poolId) = some route) :
    (table.findPool poolId).isSome := by
  have hmem := (List.mem_filter.mp (List.mem_of_find?_eq_some h)).1
  exact List.find?_isSome.mpr ⟨route, hmem, by simpa using List.find?_some h⟩

/-- The binding decides for a pool of the model that has not failed. -/
theorem boundPool_some (h : boundPool table publicModel bound exclude = .ok (some route)) :
    ∃ poolId, bound = some poolId ∧ poolId ∉ exclude
      ∧ (table.pools publicModel).find? (·.poolId = poolId) = some route := by
  cases bound with
  | none => simp [boundPool] at h
  | some poolId =>
    simp only [boundPool] at h
    by_cases hex : poolId ∈ exclude
    · simp [hex] at h
    refine ⟨poolId, rfl, hex, ?_⟩
    rw [if_neg hex] at h
    cases hfound : (table.pools publicModel).find? (·.poolId = poolId) with
    | some r =>
      by_cases hav : r.available <;> simp [hfound, hav] at h
      rw [h]
    | none =>
      by_cases hin : (table.findPool poolId).isSome <;> simp [hfound, hin] at h

/-- Where the binding does not decide, the bound pool has failed or is still in
the table. -/
theorem boundPool_none (h : boundPool table publicModel bound exclude = .ok none) :
    ∀ poolId, bound = some poolId → poolId ∈ exclude ∨ (table.findPool poolId).isSome := by
  rintro poolId rfl
  simp only [boundPool] at h
  by_cases hex : poolId ∈ exclude
  · exact Or.inl hex
  rw [if_neg hex] at h
  cases hfound : (table.pools publicModel).find? (·.poolId = poolId) with
  | some r => exact Or.inr (isSome_findPool_of_pools hfound)
  | none =>
    by_cases hin : (table.findPool poolId).isSome
    · exact Or.inr hin
    · simp [hfound, hin] at h

/-- **The selected pool** is the bound one, which has not failed, or the first
eligible one; in the second case a bound pool has failed or is in the table. -/
theorem selectPool_cases (h : selectPool table publicModel key bindings now exclude = .ok route) :
    (∃ poolId, key.bind (bindings.pool now) = some poolId ∧ poolId ∉ exclude
        ∧ (table.pools publicModel).find? (·.poolId = poolId) = some route)
      ∨ (table.pools publicModel).find? (isEligible exclude) = some route
        ∧ ∀ poolId, key.bind (bindings.pool now) = some poolId →
            poolId ∈ exclude ∨ (table.findPool poolId).isSome := by
  rw [selectPool] at h
  split at h
  · cases h
  split at h
  · cases h
  · rename_i hbound
    exact Or.inl (Except.ok.inj h ▸ boundPool_some hbound)
  · rename_i hbound
    exact Or.inr ⟨firstEligible_eq_ok.mp h, boundPool_none hbound⟩

end

end CodexRouter
