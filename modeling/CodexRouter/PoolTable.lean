/-
# The pools of the published table

Which pools `syncBackend` enters, which of them it marks available and in which
order the table holds them.  A pool id names its pair: `pairPoolRouteId_inj` for
the accounts' own pools, `rowId_of_poolRouteId` for the shared ones.  The table is
sorted by `routeLe`, a total preorder, so the first available pool of a model is
the least one (`selectPool_iff`).
-/
import CodexRouter.Publishing
import CodexRouter.Base.Fresh

namespace CodexRouter

open Text

/-! ## Pool route ids -/

/-- The characters of a decimal integer. -/
theorem notMem_toString {n : ℤ} {c : Char} (h : c.isDigit = false) (h' : c ≠ '-') :
    c ∉ (toString n).toList := by
  intro hc
  rcases digit_or_minus_of_mem n c hc with hd | hm
  · rw [h] at hd
    cases hd
  · exact h' hm

theorem toList_poolRouteId_oauth (routeId accountId : ℤ) (routeHasOauth : Bool) :
    (poolRouteIdForAccount routeId .oauth routeHasOauth accountId).toList
      = 'r' :: ((toString routeId).toList ++ 'a' :: (toString accountId).toList) := by
  rw [poolRouteIdForAccount, if_pos rfl]
  simp [String.toList_append]

theorem toList_poolRouteId_api (routeId accountId : ℤ) (routeHasOauth : Bool) :
    (poolRouteIdForAccount routeId .apikey routeHasOauth accountId).toList
      = 'r' :: ((toString routeId).toList ++ if routeHasOauth then ['f'] else []) := by
  rw [poolRouteIdForAccount, if_neg (by decide)]
  cases routeHasOauth <;> simp [String.toList_append]

/-- The pool of an OAuth account names the route and the account. -/
theorem poolRouteId_oauth_inj {routeId routeId' accountId accountId' : ℤ} {b b' : Bool}
    (h : poolRouteIdForAccount routeId .oauth b accountId
      = poolRouteIdForAccount routeId' .oauth b' accountId') :
    routeId = routeId' ∧ accountId = accountId' := by
  have hlist := congrArg String.toList h
  rw [toList_poolRouteId_oauth, toList_poolRouteId_oauth, List.cons_inj_right] at hlist
  have ha : ∀ n : ℤ, 'a' ∉ (toString n).toList := fun n => notMem_toString (by decide) (by decide)
  obtain ⟨hroute, haccount⟩ := append_cons_inj (ha _) (ha _) hlist
  exact ⟨toString_int_injective (String.toList_injective hroute),
    toString_int_injective (String.toList_injective haccount)⟩

/-- The pool of an OAuth account is no shared pool. -/
theorem poolRouteId_oauth_ne_api (routeId routeId' accountId accountId' : ℤ) (b b' : Bool) :
    poolRouteIdForAccount routeId .oauth b accountId
      ≠ poolRouteIdForAccount routeId' .apikey b' accountId' := by
  intro h
  have hlist := congrArg String.toList h
  rw [toList_poolRouteId_oauth, toList_poolRouteId_api, List.cons_inj_right] at hlist
  have hmem : 'a' ∈ (toString routeId').toList ++ if b' then ['f'] else [] := by
    rw [← hlist]
    simp
  have ha : 'a' ∉ (toString routeId').toList := notMem_toString (by decide) (by decide)
  rcases List.mem_append.mp hmem with hmem | hmem
  · exact ha hmem
  · cases b' <;> simp at hmem

/-- A shared pool names the route. -/
theorem poolRouteId_api_inj {routeId routeId' accountId accountId' : ℤ} {b b' : Bool}
    (h : poolRouteIdForAccount routeId .apikey b accountId
      = poolRouteIdForAccount routeId' .apikey b' accountId') : routeId = routeId' := by
  have hlist := congrArg String.toList h
  rw [toList_poolRouteId_api, toList_poolRouteId_api, List.cons_inj_right] at hlist
  have hf : ∀ n : ℤ, 'f' ∉ (toString n).toList := fun n => notMem_toString (by decide) (by decide)
  have hdigits : (toString routeId).toList = (toString routeId').toList := by
    cases b <;> cases b'
    · simpa using hlist
    · have hmem : 'f' ∈ (toString routeId).toList ++ ([] : List Char) := by
        rw [show (toString routeId).toList ++ ([] : List Char)
          = (toString routeId').toList ++ ['f'] from hlist]
        simp
      exact absurd (by simpa using hmem) (hf routeId)
    · have hmem : 'f' ∈ (toString routeId').toList ++ ([] : List Char) := by
        rw [show (toString routeId').toList ++ ([] : List Char)
          = (toString routeId).toList ++ ['f'] from hlist.symm]
        simp
      exact absurd (by simpa using hmem) (hf routeId')
    · exact (append_cons_inj (hf _) (hf _) hlist).1
  exact toString_int_injective (String.toList_injective hdigits)

/-- No pool route id contains a slash. -/
theorem slash_notMem_poolRouteId (routeId accountId : ℤ) (accountType : AccountType) (b : Bool) :
    '/' ∉ (poolRouteIdForAccount routeId accountType b accountId).toList := by
  have hslash : ∀ n : ℤ, '/' ∉ (toString n).toList := fun n =>
    notMem_toString (by decide) (by decide)
  cases accountType with
  | oauth =>
    rw [toList_poolRouteId_oauth]
    simpa using And.intro (hslash routeId) (hslash accountId)
  | apikey =>
    rw [toList_poolRouteId_api]
    cases b <;> simpa using hslash routeId

/-! ## Marking -/

/-- The second pass reads the pool route id off the pool id. -/
theorem markAvailable_of_poolId {available : List String} {route : PoolRoute}
    {poolRouteId platform : String} (hslash : '/' ∉ poolRouteId.toList)
    (hid : route.poolId = poolIdOf poolRouteId platform) :
    markAvailable available route = { route with available := decide (poolRouteId ∈ available) } := by
  have hstrip : stripPrefix route.poolId "cr/"
      = some (poolRouteId ++ String.ofList ['/'] ++ normalizePlatform platform) := by
    rw [hid, poolIdOf, String.append_assoc, String.append_assoc, stripPrefix_append,
      String.append_assoc]
  unfold markAvailable
  rw [hstrip]
  show ({ route with available := _ } : PoolRoute) = _
  rw [head?_split hslash]
  rfl

/-! ## The order of the table -/

/-- The order of the table is total. -/
theorem routeLe_total (a b : PoolRoute) : RouteTable.routeLe a b = true ∨ RouteTable.routeLe b a = true := by
  unfold RouteTable.routeLe
  by_cases hm : a.publicModel = b.publicModel
  · by_cases hp : a.priority = b.priority
    · simp only [hm, hp, ne_eq, not_true_eq_false, if_false, decide_eq_true_eq]
      exact le_total _ _
    · simp only [hm, ne_eq, not_true_eq_false, if_false, hp, not_false_eq_true, if_true,
        Ne.symm hp, decide_eq_true_eq]
      omega
  · simp only [ne_eq, hm, not_false_eq_true, if_true, Ne.symm hm, decide_eq_true_eq]
    exact lt_or_gt_of_ne hm

/-- The order within a model: by priority, then by pool id. -/
theorem routeLe_iff {a b : PoolRoute} (h : a.publicModel = b.publicModel) :
    RouteTable.routeLe a b = true
      ↔ a.priority < b.priority ∨ a.priority = b.priority ∧ a.poolId ≤ b.poolId := by
  unfold RouteTable.routeLe
  by_cases hp : a.priority = b.priority
  · simp [h, hp]
  · simp [h, hp]

theorem routeLe_trans {a b c : PoolRoute} (hab : RouteTable.routeLe a b = true)
    (hbc : RouteTable.routeLe b c = true) : RouteTable.routeLe a c = true := by
  by_cases hm : a.publicModel = b.publicModel
  · by_cases hm' : b.publicModel = c.publicModel
    · rw [routeLe_iff hm] at hab
      rw [routeLe_iff hm'] at hbc
      rw [routeLe_iff (hm.trans hm')]
      rcases hab with hab | ⟨hab, hid⟩ <;> rcases hbc with hbc | ⟨hbc, hid'⟩
      · exact Or.inl (by omega)
      · exact Or.inl (by omega)
      · exact Or.inl (by omega)
      · exact Or.inr ⟨by omega, le_trans hid hid'⟩
    · have hne : ¬ a.publicModel = c.publicModel := fun h => hm' (hm.symm.trans h)
      unfold RouteTable.routeLe at hbc ⊢
      simpa [hm', hm] using hbc
  · unfold RouteTable.routeLe at hab
    have hlt : a.publicModel < b.publicModel := by simpa [hm] using hab
    by_cases hm' : b.publicModel = c.publicModel
    · unfold RouteTable.routeLe
      rw [← hm', if_pos hm]
      exact decide_eq_true hlt
    · unfold RouteTable.routeLe at hbc ⊢
      have hlt' : b.publicModel < c.publicModel := by simpa [hm'] using hbc
      have hac := lt_trans hlt hlt'
      rw [if_pos (ne_of_lt hac)]
      exact decide_eq_true hac

instance : Std.Total (α := PoolRoute) (RouteTable.routeLe · ·) := ⟨routeLe_total⟩

instance : IsTrans PoolRoute (RouteTable.routeLe · ·) := ⟨fun _ _ _ => routeLe_trans⟩

/-- A pool id determines the pool route id. -/
theorem poolIdOf_inj {poolRouteId poolRouteId' platform platform' : String}
    (h : '/' ∉ poolRouteId.toList) (h' : '/' ∉ poolRouteId'.toList)
    (heq : poolIdOf poolRouteId platform = poolIdOf poolRouteId' platform') :
    poolRouteId = poolRouteId' := by
  have hlist := congrArg String.toList heq
  simp only [poolIdOf, String.toList_append, List.append_assoc] at hlist
  have htail := List.append_cancel_left hlist
  exact String.toList_injective (append_cons_inj h h' htail).1

/-! ## Selection without a binding -/

section

variable {pools : List PoolRoute} {table : RouteTable} {model : String}
  {bindings : ContinuationBindings} {now : ℕ}

/-- The routes of a built table are the enabled pools, in order. -/
theorem routes_of_new (h : RouteTable.new pools = .ok table) :
    table.routes = (pools.filter (·.enabled)).insertionSort (RouteTable.routeLe · ·) := by
  unfold RouteTable.new at h
  dsimp only at h
  split at h
  · rw [← Except.ok.inj h]
  · cases h

/-- Selection without a binding looks for the first available pool. -/
theorem selectPool_unbound (r : PoolRoute) :
    selectPool table model none bindings now [] = .ok r
      ↔ (table.pools model).find? (·.available) = some r := by
  have heligible : isEligible [] = fun route : PoolRoute => route.available := by
    funext route
    simp [isEligible]
  unfold selectPool
  split
  · rename_i hnil
    simp [hnil]
  · show firstEligible table model [] = .ok r ↔ _
    rw [firstEligible_eq_ok, heligible]

/-- The pools a model can be sent to. -/
def Offers (pools : List PoolRoute) (model : String) (r : PoolRoute) : Prop :=
  r ∈ pools ∧ r.publicModel = model ∧ r.available = true

theorem mem_pools_iff (hnew : RouteTable.new pools = .ok table)
    (henabled : ∀ r ∈ pools, r.enabled = true) {r : PoolRoute} :
    r ∈ table.pools model ∧ r.available = true ↔ Offers pools model r := by
  unfold RouteTable.pools Offers
  rw [List.mem_filter, routes_of_new hnew, List.mem_insertionSort, List.mem_filter]
  constructor
  · rintro ⟨⟨⟨hr, -⟩, hm⟩, hav⟩
    exact ⟨hr, by simpa using hm, hav⟩
  · rintro ⟨hr, hm, hav⟩
    exact ⟨⟨⟨hr, henabled r hr⟩, by simpa using hm⟩, hav⟩

/-- The pools of a model are in order. -/
theorem sorted_pools (hnew : RouteTable.new pools = .ok table) (model : String) :
    (table.pools model).Pairwise (RouteTable.routeLe · ·) := by
  unfold RouteTable.pools
  rw [routes_of_new hnew]
  exact (List.pairwise_insertionSort _ _).filter _

/-- The first element that a search finds in a sorted list is least among those
it could find. -/
theorem find?_least {l : List PoolRoute} {r : PoolRoute} {p : PoolRoute → Bool}
    (hsorted : l.Pairwise (RouteTable.routeLe · ·)) (h : l.find? p = some r) :
    ∀ s ∈ l, p s = true → RouteTable.routeLe r s = true := by
  intro s hs hps
  obtain ⟨-, before, after, hsplit, hskip⟩ := List.find?_eq_some_iff_append.mp h
  rw [hsplit] at hs hsorted
  rcases List.mem_append.mp hs with hbefore | hafter
  · have hnot := hskip s hbefore
    rw [hps] at hnot
    cases hnot
  · rcases List.mem_cons.mp hafter with rfl | hafter
    · exact (routeLe_total s s).elim id id
    · exact (List.pairwise_cons.mp (List.pairwise_append.mp hsorted).2.1).1 s hafter

/-- The selected pool is offered, and least among the offered ones. -/
theorem selectPool_least (hnew : RouteTable.new pools = .ok table)
    (henabled : ∀ r ∈ pools, r.enabled = true) {r : PoolRoute}
    (h : selectPool table model none bindings now [] = .ok r) :
    Offers pools model r ∧ ∀ s, Offers pools model s → RouteTable.routeLe r s = true := by
  rw [selectPool_unbound] at h
  have hoffers : Offers pools model r :=
    (mem_pools_iff hnew henabled).mp ⟨List.mem_of_find?_eq_some h, List.find?_some h⟩
  refine ⟨hoffers, fun s hs => ?_⟩
  obtain ⟨hsmem, hsav⟩ := (mem_pools_iff hnew henabled).mpr hs
  exact find?_least (sorted_pools hnew model) h s hsmem hsav

/-- Where a pool is offered, one is selected. -/
theorem exists_selectPool (hnew : RouteTable.new pools = .ok table)
    (henabled : ∀ r ∈ pools, r.enabled = true) {s : PoolRoute} (hs : Offers pools model s) :
    ∃ r, selectPool table model none bindings now [] = .ok r := by
  obtain ⟨hmem, hav⟩ := (mem_pools_iff hnew henabled).mpr hs
  have hsome : ((table.pools model).find? (·.available)).isSome :=
    List.find?_isSome.mpr ⟨s, hmem, hav⟩
  obtain ⟨r, hr⟩ := Option.isSome_iff_exists.mp hsome
  exact ⟨r, (selectPool_unbound r).mpr hr⟩

/-- **Which kind of pool is selected**: one of the kind is, exactly when an
offered pool of the kind stands in front of all offered pools of other kinds. -/
theorem selects_iff (hnew : RouteTable.new pools = .ok table)
    (henabled : ∀ r ∈ pools, r.enabled = true) {P : PoolRoute → Prop}
    (hP : ∀ r s, r.poolId = s.poolId → P r → P s) :
    (∃ r, selectPool table model none bindings now [] = .ok r ∧ P r)
      ↔ ∃ r, Offers pools model r ∧ P r
        ∧ ∀ s, Offers pools model s → ¬ P s → RouteTable.routeLe r s = true := by
  constructor
  · rintro ⟨r, hr, hPr⟩
    obtain ⟨hoffers, hleast⟩ := selectPool_least hnew henabled hr
    exact ⟨r, hoffers, hPr, fun s hs _ => hleast s hs⟩
  · rintro ⟨r, hoffers, hPr, hfront⟩
    obtain ⟨s, hs⟩ : ∃ s, selectPool table model none bindings now [] = .ok s :=
      exists_selectPool hnew henabled hoffers
    obtain ⟨hsoffers, hleast⟩ := selectPool_least hnew henabled hs
    refine ⟨s, hs, ?_⟩
    by_contra hPs
    -- the two pools would stand in front of each other
    have hmodel : r.publicModel = s.publicModel := hoffers.2.1.trans hsoffers.2.1.symm
    have hrs := (routeLe_iff hmodel).mp (hfront s hsoffers hPs)
    have hsr := (routeLe_iff hmodel.symm).mp (hleast r hoffers)
    have hid : r.poolId = s.poolId := by
      rcases hrs with hrs | ⟨hp, hid⟩ <;> rcases hsr with hsr | ⟨hp', hid'⟩
      · omega
      · omega
      · omega
      · exact le_antisymm hid hid'
    exact hPs (hP r s hid hPr)

end

/-! ## The pools of the loop -/

section

variable {groupId : ℤ} {rows : List RouteRow} {accounts : List Account} {oauthIds : List ℤ}
  {credentials : Credentials}

/-- The accounts of the group. -/
def groupAccounts (groupId : ℤ) (accounts : List Account) : List Account :=
  accounts.filter (groupId ∈ ·.groups)

/-- The first API account of the group, which enters the shared pools. -/
def firstApi (groupId : ℤ) (accounts : List Account) : Option Account :=
  (groupAccounts groupId accounts).find? (·.accountType = .apikey)

theorem mem_joinRows_iff {row : RouteRow} {account : Account} :
    (row, account) ∈ joinRows groupId rows accounts
      ↔ row ∈ rows ∧ account ∈ groupAccounts groupId accounts := by
  rw [mem_joinRows, groupAccounts, List.mem_filter, decide_eq_true_eq]

/-- Only one element gives a result. -/
theorem findSome?_of_only {α β : Type} {l : List α} {f : α → Option β} {a : α} (ha : a ∈ l)
    (honly : ∀ x ∈ l, x ≠ a → f x = none) : l.findSome? f = f a := by
  induction l with
  | nil => cases ha
  | cons x rest ih =>
    rw [List.findSome?_cons]
    by_cases hx : x = a
    · subst hx
      cases hf : f x with
      | some b => rfl
      | none =>
        show rest.findSome? f = none
        rw [List.findSome?_eq_none_iff]
        intro y hy
        by_cases hyx : y = x
        · rw [hyx]
          exact hf
        · exact honly y (List.mem_cons_of_mem _ hy) hyx
    · rw [honly x List.mem_cons_self hx]
      refine ih ?_ fun y hy => honly y (List.mem_cons_of_mem _ hy)
      exact (List.mem_cons.mp ha).resolve_left (fun h => hx h.symm)

/-- Rows with the same id are the same. -/
theorem eq_of_row_id (hrows : (rows.map RouteRow.id).Nodup) {row row' : RouteRow} (h : row ∈ rows)
    (h' : row' ∈ rows) (hid : row.id = row'.id) : row = row' :=
  List.inj_on_of_nodup_map hrows h h' hid

/-- The first pair of a shared pool has the first API account. -/
theorem find?_shared (hrows : (rows.map RouteRow.id).Nodup) {row : RouteRow} {account : Account}
    (hrow : row ∈ rows) (hapi : account.accountType = .apikey) :
    (joinRows groupId rows accounts).find?
        (fun q => decide (pairPoolRouteId oauthIds q = pairPoolRouteId oauthIds (row, account)))
      = (firstApi groupId accounts).map fun first => (row, first) := by
  unfold joinRows
  rw [List.find?_flatMap, findSome?_of_only hrow]
  · rw [List.find?_map, firstApi, groupAccounts]
    congr 1
    congr 1
    funext a
    show decide (poolRouteIdForAccount row.id a.accountType _ a.id
      = poolRouteIdForAccount row.id account.accountType _ account.id) = decide (a.accountType = .apikey)
    rw [decide_eq_decide, hapi]
    cases ha : a.accountType with
    | apikey => simp [poolRouteIdForAccount]
    | oauth => simpa using poolRouteId_oauth_ne_api _ _ _ _ _ _
  · intro row' hrow' hne
    rw [List.find?_map, Option.map_eq_none_iff, List.find?_eq_none]
    intro a _ heq
    have heq' : poolRouteIdForAccount row'.id a.accountType (decide (row'.id ∈ oauthIds)) a.id
        = poolRouteIdForAccount row.id .apikey (decide (row.id ∈ oauthIds)) account.id := by
      have hids := of_decide_eq_true heq
      rwa [pairPoolRouteId, pairPoolRouteId, hapi] at hids
    cases ha : a.accountType with
    | apikey =>
      rw [ha] at heq'
      exact hne (eq_of_row_id hrows hrow' hrow (poolRouteId_api_inj heq'))
    | oauth =>
      rw [ha] at heq'
      exact poolRouteId_oauth_ne_api _ _ _ _ _ _ heq'

/-- The own pool of an OAuth account has that pair only. -/
theorem eq_of_own_pool (hrows : (rows.map RouteRow.id).Nodup)
    (haccounts : (accounts.map Account.id).Nodup) {pair q : RouteRow × Account}
    (hpair : pair ∈ joinRows groupId rows accounts) (hq : q ∈ joinRows groupId rows accounts)
    (hoauth : pair.2.accountType = .oauth)
    (hid : pairPoolRouteId oauthIds q = pairPoolRouteId oauthIds pair) : q = pair := by
  obtain ⟨hrow, haccount, -⟩ := mem_joinRows.mp hpair
  obtain ⟨hrow', haccount', -⟩ := mem_joinRows.mp hq
  rw [pairPoolRouteId, pairPoolRouteId, hoauth] at hid
  cases hq' : q.2.accountType with
  | apikey =>
    rw [hq'] at hid
    exact absurd hid.symm (poolRouteId_oauth_ne_api _ _ _ _ _ _)
  | oauth =>
    rw [hq'] at hid
    obtain ⟨hrowid, haccountid⟩ := poolRouteId_oauth_inj hid
    exact Prod.ext (eq_of_row_id hrows hrow' hrow hrowid)
      (List.inj_on_of_nodup_map haccounts haccount' haccount haccountid)

/-- A pool of the loop is that of the first pair with its id. -/
theorem find?_of_mem_poolRoutes {pairs : List (RouteRow × Account)} {p : PoolRoute}
    (h : p ∈ poolRoutes oauthIds pairs) : ∃ pair ∈ pairs, p = pairPool oauthIds pair
      ∧ pairs.find? (fun q => decide (pairPoolRouteId oauthIds q = pairPoolRouteId oauthIds pair))
        = some pair := by
  obtain ⟨b, hb, rfl⟩ := List.mem_map.mp h
  obtain ⟨pair, hfind, rfl⟩ := find?_of_mem_collectNew hb
  exact ⟨pair, List.mem_of_find?_eq_some hfind, rfl, hfind⟩

/-- Every pair has a pool, that of the first pair with its id. -/
theorem exists_mem_poolRoutes (oauthIds : List ℤ) {pairs : List (RouteRow × Account)}
    {pair : RouteRow × Account} (h : pair ∈ pairs) : ∃ first ∈ pairs,
      pairPoolRouteId oauthIds first = pairPoolRouteId oauthIds pair
        ∧ pairPool oauthIds first ∈ poolRoutes oauthIds pairs
        ∧ pairs.find? (fun q => decide (pairPoolRouteId oauthIds q = pairPoolRouteId oauthIds first))
          = some first := by
  rcases @exists_mem_collectNew _ _ _ _ Prod.fst
      (fun pair => some (pairPoolRouteId oauthIds pair, pairPool oauthIds pair)) [] pairs pair _ h rfl
    with hnil | ⟨b, hb, hkey⟩
  · cases hnil
  · obtain ⟨first, hfind, rfl⟩ := find?_of_mem_collectNew hb
    exact ⟨first, List.mem_of_find?_eq_some hfind, hkey, List.mem_map_of_mem hb, hfind⟩

/-- The pools of the loop, marked. -/
def markedPools (oauthIds : List ℤ) (credentials : Credentials)
    (pairs : List (RouteRow × Account)) : List PoolRoute :=
  (poolRoutes oauthIds pairs).map (markAvailable (poolAvailable oauthIds credentials pairs))

/-- A pool with its availability set. -/
def withAvailable (p : PoolRoute) (available : Bool) : PoolRoute := { p with available := available }

@[simp] theorem withAvailable_poolId (p : PoolRoute) (b : Bool) :
    (withAvailable p b).poolId = p.poolId := rfl

@[simp] theorem withAvailable_publicModel (p : PoolRoute) (b : Bool) :
    (withAvailable p b).publicModel = p.publicModel := rfl

@[simp] theorem withAvailable_priority (p : PoolRoute) (b : Bool) :
    (withAvailable p b).priority = p.priority := rfl

@[simp] theorem withAvailable_enabled (p : PoolRoute) (b : Bool) :
    (withAvailable p b).enabled = p.enabled := rfl

@[simp] theorem withAvailable_available (p : PoolRoute) (b : Bool) :
    (withAvailable p b).available = b := rfl

@[simp] theorem pairPool_publicModel (pair : RouteRow × Account) :
    (pairPool oauthIds pair).publicModel = pair.1.route.publicModel := rfl

@[simp] theorem pairPool_poolId (pair : RouteRow × Account) : (pairPool oauthIds pair).poolId
    = poolIdOf (pairPoolRouteId oauthIds pair) pair.1.route.targetPlatform := rfl

@[simp] theorem pairPool_enabled (pair : RouteRow × Account) :
    (pairPool oauthIds pair).enabled = true := rfl

/-- A marked pool is the pool of the first pair with its id, available when a
pair with the id serves. -/
theorem mem_markedPools {pairs : List (RouteRow × Account)} {p : PoolRoute} :
    p ∈ markedPools oauthIds credentials pairs ↔ ∃ pair ∈ pairs,
      pairs.find? (fun q => decide (pairPoolRouteId oauthIds q = pairPoolRouteId oauthIds pair))
          = some pair
        ∧ p = withAvailable (pairPool oauthIds pair) (decide (pairPoolRouteId oauthIds pair
            ∈ poolAvailable oauthIds credentials pairs)) := by
  have hmark : ∀ pair : RouteRow × Account,
      markAvailable (poolAvailable oauthIds credentials pairs) (pairPool oauthIds pair)
        = withAvailable (pairPool oauthIds pair) (decide (pairPoolRouteId oauthIds pair
            ∈ poolAvailable oauthIds credentials pairs)) :=
    fun pair => markAvailable_of_poolId (slash_notMem_poolRouteId _ _ _ _) rfl
  constructor
  · intro h
    obtain ⟨p', hp', rfl⟩ := List.mem_map.mp h
    obtain ⟨pair, hpair, rfl, hfind⟩ := find?_of_mem_poolRoutes hp'
    exact ⟨pair, hpair, hfind, hmark pair⟩
  · rintro ⟨pair, hpair, hfind, rfl⟩
    obtain ⟨first, -, hid, hmem, hfirst⟩ := exists_mem_poolRoutes oauthIds hpair
    rw [hid, hfind, Option.some.injEq] at hfirst
    rw [← hmark, hfirst]
    exact List.mem_map_of_mem hmem

end

end CodexRouter
