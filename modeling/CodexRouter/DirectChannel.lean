/-
# Direct channels

Embeddings are sent past the CLI.  `resolve_pool_direct_channel` reads the route id back off a
pool id and takes the first schedulable API account of the route that has a base URL and a secret.
The publisher and this function ask the tables twice: the one keeps to enabled routes and looks at
the status and the models of an account, the other does neither, and it does not read the pool ids
that the publisher gives to the API accounts beside an OAuth account.
-/
import CodexRouter.PoolPublication

namespace CodexRouter

open Text

/-! ## Integers in texts -/

/-- The integers of 64 bits. -/
def FitsI64 (n : ℤ) : Prop := -9223372036854775808 ≤ n ∧ n < 9223372036854775808

instance (n : ℤ) : Decidable (FitsI64 n) := inferInstanceAs (Decidable (_ ∧ _))

/-- The sign of a number and its digits. -/
def signAndDigits : List Char → Bool × List Char
  | '-' :: digits => (true, digits)
  | '+' :: digits => (false, digits)
  | digits => (false, digits)

/-- The `i64` parser. -/
def parseI64 (s : String) : Option ℤ :=
  let (negative, digits) := signAndDigits s.toList
  if digits = [] ∨ ¬ digits.all isAsciiDigit then none
  else
    let magnitude : ℤ := Nat.ofDigitChars 10 digits 0
    let n := if negative then -magnitude else magnitude
    if FitsI64 n then some n else none

theorem signAndDigits_digits {cs : List Char} (h : cs.all isAsciiDigit = true) : signAndDigits cs = (false, cs) := by
  unfold signAndDigits
  split
  · rw [List.all_cons] at h
    exact absurd (Bool.and_eq_true _ _ ▸ h).1 (by decide)
  · rw [List.all_cons] at h
    exact absurd (Bool.and_eq_true _ _ ▸ h).1 (by decide)
  · rfl

theorem all_isAsciiDigit_repr (n : ℕ) : (Nat.repr n).toList.all isAsciiDigit = true := by
  rw [List.all_eq_true]
  intro c hc
  rw [Nat.toList_repr] at hc
  have hdigit := Nat.isDigit_of_mem_toDigits (by decide) (by decide) hc
  rw [Char.isDigit, Bool.and_eq_true, decide_eq_true_eq, decide_eq_true_eq] at hdigit
  rw [isAsciiDigit, Bool.and_eq_true, decide_eq_true_eq, decide_eq_true_eq]
  exact hdigit

theorem repr_ne_nil (n : ℕ) : (Nat.repr n).toList ≠ [] := by
  rw [Nat.toList_repr]
  exact Nat.toDigits_ne_nil

/-- An integer is read back from its decimal form. -/
theorem parseI64_toString {n : ℤ} (h : FitsI64 n) : parseI64 (toString n) = some n := by
  cases n with
  | ofNat m =>
    have hlist : (toString (Int.ofNat m)).toList = (Nat.repr m).toList := rfl
    have hvalue : Nat.ofDigitChars 10 (Nat.repr m).toList 0 = m := by
      rw [Nat.toList_repr, Nat.ofDigitChars_ten_toDigits]
    rw [parseI64, hlist, signAndDigits_digits (all_isAsciiDigit_repr m)]
    simp only [repr_ne_nil, all_isAsciiDigit_repr, not_true_eq_false, or_self, if_false, Bool.false_eq_true, hvalue]
    exact if_pos h
  | negSucc m =>
    have hlist : (toString (Int.negSucc m)).toList = '-' :: (Nat.repr (m + 1)).toList := by
      show ("-" ++ Nat.repr (m + 1)).toList = _
      rw [String.toList_append]
      rfl
    have hvalue : Nat.ofDigitChars 10 (Nat.repr (m + 1)).toList 0 = m + 1 := by
      rw [Nat.toList_repr, Nat.ofDigitChars_ten_toDigits]
    rw [parseI64, hlist, signAndDigits]
    simp only [repr_ne_nil, all_isAsciiDigit_repr, not_true_eq_false, or_self, if_false, if_true, hvalue]
    exact if_pos h

/-- A text with a character that is neither a digit nor a sign is no number. -/
theorem parseI64_eq_none {s : String} {c : Char} (hc : c ∈ s.toList) (hdigit : isAsciiDigit c = false)
    (hminus : c ≠ '-') (hplus : c ≠ '+') : parseI64 s = none := by
  have hrest : c ∈ (signAndDigits s.toList).2 := by
    unfold signAndDigits
    split
    · rename_i digits hs
      rw [hs] at hc
      exact (List.mem_cons.mp hc).resolve_left hminus
    · rename_i digits hs
      rw [hs] at hc
      exact (List.mem_cons.mp hc).resolve_left hplus
    · exact hc
  rw [parseI64]
  refine if_pos (.inr ?_)
  intro hall
  rw [List.all_eq_true.mp hall c hrest] at hdigit
  cases hdigit

/-! ## The tables -/

/-- A row of `composite_routes`. -/
structure StoredRoute where
  row : RouteRow
  groupId : ℤ
  enabled : Bool
  deleted : Bool

/-- The tables of the store that pools are made of, with their keys. -/
structure BackendStore where
  routes : List StoredRoute
  /-- The accounts, each with whether it is deleted. -/
  accounts : List (StoredAccount × Bool)
  /-- `account_groups`: an account and a group. -/
  accountGroups : List (ℤ × ℤ)
  nodup_routes : (routes.map (·.row.id)).Nodup
  nodup_accounts : (accounts.map (·.1.id)).Nodup
  fits_routes : ∀ route ∈ routes, FitsI64 route.row.id

/-- By priority, then by id. -/
def candidateLe (a b : StoredAccount) : Bool :=
  if a.priority = b.priority then a.id ≤ b.id else a.priority < b.priority

namespace BackendStore

variable (store : BackendStore)

/-- The accounts that are joined to a group. -/
def groupAccounts (groupId : ℤ) : List StoredAccount :=
  (store.accounts.filter fun (account, deleted) => !deleted && (account.id, groupId) ∈ store.accountGroups).map (·.1)

/-- The query of `sync_backend_ex`. -/
def backendRows : List BackendRow :=
  ((store.routes.filter fun route => route.enabled && !route.deleted).insertionSort (·.row.id ≤ ·.row.id)).flatMap
    fun route => ((store.groupAccounts route.groupId).insertionSort (·.id ≤ ·.id)).map fun account => (route.row, account)

/-- The query of `resolve_pool_direct_channel`. -/
def directAccounts (routeId : ℤ) : List StoredAccount :=
  ((store.routes.filter fun route => route.row.id = routeId && !route.deleted).flatMap fun route =>
      (store.groupAccounts route.groupId).filter fun account =>
        account.schedulable && account.accountType = .apikey).insertionSort (candidateLe · ·)

end BackendStore

/-! ## The channel of a pool -/

/-- `DirectChannel`. -/
structure DirectChannel where
  accountId : ℤ
  baseUrl : String
  apiKey : String
  deriving DecidableEq, Repr

/-- The channel of an account with a base URL and a secret. -/
def directChannelOf (env : BackendEnv) (account : StoredAccount) : Option DirectChannel :=
  (baseUrlOf account).bind fun baseUrl =>
    (env.secret account.id).map fun apiKey => ⟨account.id, baseUrl, apiKey⟩

/-- The route id in a pool id. -/
def routeIdOf (poolId : String) : Option ℤ :=
  ((stripPrefix poolId "cr/r").bind fun tail => (split (· = '/') tail).head?).bind parseI64

/-- `resolve_pool_direct_channel`. -/
def resolvePoolDirectChannel (env : BackendEnv) (store : BackendStore) (poolId : String) : Option DirectChannel :=
  match routeIdOf poolId with
  | none => none
  | some routeId => (store.directAccounts routeId).findSome? (directChannelOf env)

/-! ## Pool ids -/

/-- The id in an API pool's pool id, with an `f` beside OAuth accounts. -/
def apiPoolId (routeId : ℤ) (beside : Bool) (platform : String) : String :=
  poolIdOf ("r" ++ toString routeId ++ if beside then "f" else "") platform

/-- The pool id of an OAuth account. -/
def oauthPoolId (routeId accountId : ℤ) (platform : String) : String :=
  poolIdOf ("r" ++ toString routeId ++ "a" ++ toString accountId) platform

theorem routeIdOf_poolIdOf {piece : String} (h : '/' ∉ piece.toList) (platform : String) :
    routeIdOf (poolIdOf ("r" ++ piece) platform) = parseI64 piece := by
  have hid : poolIdOf ("r" ++ piece) platform
      = "cr/r" ++ (piece ++ String.ofList ['/'] ++ normalizePlatform platform) := by
    apply String.toList_injective
    simp [poolIdOf, String.toList_append]
  rw [routeIdOf, hid, stripPrefix_append, Option.bind_some, head?_split h, Option.bind_some]

theorem slash_notMem_toString (n : ℤ) : '/' ∉ (toString n).toList := notMem_toString (by decide) (by decide)

/-- The route of a pool that no OAuth account is beside is found. -/
theorem routeIdOf_plain {routeId : ℤ} (h : FitsI64 routeId) (platform : String) :
    routeIdOf (apiPoolId routeId false platform) = some routeId := by
  have hpiece : "r" ++ toString routeId ++ (if false then "f" else "") = "r" ++ toString routeId := by
    apply String.toList_injective
    simp [String.toList_append]
  rw [apiPoolId, hpiece, routeIdOf_poolIdOf (slash_notMem_toString routeId), parseI64_toString h]

/-- The route of the pool beside an OAuth account is not. -/
theorem routeIdOf_beside (routeId : ℤ) (platform : String) : routeIdOf (apiPoolId routeId true platform) = none := by
  have hpiece : "r" ++ toString routeId ++ (if true then "f" else "") = "r" ++ (toString routeId ++ "f") := by
    apply String.toList_injective
    simp [String.toList_append]
  rw [apiPoolId, hpiece, routeIdOf_poolIdOf]
  · exact parseI64_eq_none (c := 'f') (by simp [String.toList_append]) (by decide) (by decide) (by decide)
  · rw [String.toList_append, List.mem_append, not_or]
    exact ⟨slash_notMem_toString routeId, by decide⟩

theorem routeIdOf_oauth (routeId accountId : ℤ) (platform : String) :
    routeIdOf (oauthPoolId routeId accountId platform) = none := by
  have hpiece : "r" ++ toString routeId ++ "a" ++ toString accountId
      = "r" ++ (toString routeId ++ "a" ++ toString accountId) := by
    apply String.toList_injective
    simp [String.toList_append]
  rw [oauthPoolId, hpiece, routeIdOf_poolIdOf]
  · exact parseI64_eq_none (c := 'a') (by simp [String.toList_append]) (by decide) (by decide) (by decide)
  · rw [String.toList_append, String.toList_append, List.mem_append, List.mem_append, not_or, not_or]
    exact ⟨⟨slash_notMem_toString routeId, by decide⟩, slash_notMem_toString accountId⟩

/-! ## The two queries -/

/-- What is sorted by a key without doubles is strictly sorted. -/
theorem pairwise_lt_insertionSort {α : Type} (key : α → ℤ) {l : List α} (h : (l.map key).Nodup) :
    (l.insertionSort fun a b => key a ≤ key b).Pairwise fun a b => key a < key b := by
  have : Std.Total (α := α) fun a b => key a ≤ key b := ⟨fun a b => le_total _ _⟩
  have : IsTrans α fun a b => key a ≤ key b := ⟨fun _ _ _ => le_trans⟩
  have hsorted := List.pairwise_insertionSort (fun a b => key a ≤ key b) l
  have hnodup : ((l.insertionSort fun a b => key a ≤ key b).map key).Nodup :=
    ((List.perm_insertionSort _ l).map key).nodup_iff.mpr h
  have hne := List.pairwise_map.mp hnodup
  exact hsorted.imp₂ (fun _ _ hle hne => lt_of_le_of_ne hle hne) hne

namespace BackendStore

variable {store : BackendStore} {row : BackendRow} {routeId : ℤ} {account : StoredAccount}

theorem mem_backendRows_iff : row ∈ store.backendRows ↔ ∃ route ∈ store.routes, route.enabled = true
    ∧ route.deleted = false ∧ route.row = row.1 ∧ row.2 ∈ store.groupAccounts route.groupId := by
  simp only [backendRows, List.mem_flatMap, List.mem_insertionSort, List.mem_filter, Bool.and_eq_true, List.mem_map,
    Bool.not_eq_true']
  constructor
  · rintro ⟨route, ⟨hroute, henabled, hdeleted⟩, account, haccount, rfl⟩
    exact ⟨route, hroute, henabled, hdeleted, rfl, haccount⟩
  · rintro ⟨route, hroute, henabled, hdeleted, heq, haccount⟩
    exact ⟨route, ⟨hroute, henabled, hdeleted⟩, row.2, haccount, by rw [heq]⟩

theorem mem_directAccounts_iff : account ∈ store.directAccounts routeId ↔ ∃ route ∈ store.routes,
    route.row.id = routeId ∧ route.deleted = false ∧ account ∈ store.groupAccounts route.groupId
      ∧ account.schedulable = true ∧ account.accountType = .apikey := by
  simp only [directAccounts, List.mem_flatMap, List.mem_insertionSort, List.mem_filter, Bool.and_eq_true,
    decide_eq_true_eq, Bool.not_eq_true', and_assoc]

theorem eq_of_routeId {route other : StoredRoute} (hroute : route ∈ store.routes) (hother : other ∈ store.routes)
    (h : route.row.id = other.row.id) : route = other :=
  List.inj_on_of_nodup_map store.nodup_routes hroute hother h

theorem mem_of_groupAccounts {groupId : ℤ} (h : account ∈ store.groupAccounts groupId) :
    ∃ deleted, (account, deleted) ∈ store.accounts := by
  obtain ⟨record, hrecord, rfl⟩ := List.mem_map.mp h
  exact ⟨record.2, (List.mem_filter.mp hrecord).1⟩

/-- An account is known by its id. -/
theorem eq_of_accountId {groupId groupId' : ℤ} {other : StoredAccount} (h : account ∈ store.groupAccounts groupId)
    (h' : other ∈ store.groupAccounts groupId') (hid : account.id = other.id) : account = other := by
  obtain ⟨deleted, hmem⟩ := mem_of_groupAccounts h
  obtain ⟨deleted', hmem'⟩ := mem_of_groupAccounts h'
  exact congrArg Prod.fst (List.inj_on_of_nodup_map store.nodup_accounts hmem hmem' hid)

theorem nodup_groupAccounts (store : BackendStore) (groupId : ℤ) :
    ((store.groupAccounts groupId).map (·.id)).Nodup := by
  rw [groupAccounts, List.map_map]
  exact store.nodup_accounts.sublist (List.filter_sublist.map _)

/-- The query gives the rows of a join. -/
theorem joined_backendRows (store : BackendStore) : Joined store.backendRows where
  route := by
    intro row hrow other hother hid
    obtain ⟨route, hroute, -, -, heq, -⟩ := mem_backendRows_iff.mp hrow
    obtain ⟨route', hroute', -, -, heq', -⟩ := mem_backendRows_iff.mp hother
    rw [← heq, ← heq'] at hid ⊢
    rw [eq_of_routeId hroute hroute' hid]
  account := by
    intro row hrow other hother hid
    obtain ⟨_, -, -, -, -, haccount⟩ := mem_backendRows_iff.mp hrow
    obtain ⟨_, -, -, -, -, haccount'⟩ := mem_backendRows_iff.mp hother
    exact eq_of_accountId haccount haccount' hid
  ordered := by
    rw [backendRows, List.pairwise_flatMap]
    constructor
    · intro route hroute
      rw [List.pairwise_map]
      exact (pairwise_lt_insertionSort StoredAccount.id (store.nodup_groupAccounts route.groupId)).imp
        fun hlt => Or.inr ⟨rfl, hlt⟩
    · have hnodup : ((store.routes.filter fun route => route.enabled && !route.deleted).map
          fun route => route.row.id).Nodup :=
        store.nodup_routes.sublist (List.filter_sublist.map _)
      refine (pairwise_lt_insertionSort (fun route : StoredRoute => route.row.id) hnodup).imp ?_
      intro route route' hlt row hrow other hother
      obtain ⟨-, -, rfl⟩ := List.mem_map.mp hrow
      obtain ⟨-, -, rfl⟩ := List.mem_map.mp hother
      exact .inl hlt

end BackendStore

/-! ## The first reachable account -/

/-- The account has a base URL and a secret. -/
def Reachable (env : BackendEnv) (account : StoredAccount) : Prop :=
  (∃ baseUrl, baseUrlOf account = some baseUrl) ∧ ∃ secret, env.secret account.id = some secret

/-- The first by priority and id of the accounts that can be reached. -/
structure IsBestCandidate (env : BackendEnv) (store : BackendStore) (routeId : ℤ) (account : StoredAccount) : Prop where
  mem : account ∈ store.directAccounts routeId
  reachable : Reachable env account
  le : ∀ other ∈ store.directAccounts routeId, Reachable env other → candidateLe account other = true

section

variable {env : BackendEnv} {store : BackendStore} {routeId : ℤ} {account other : StoredAccount}
  {channel : DirectChannel}

theorem candidateLe_iff : candidateLe account other = true
    ↔ account.priority < other.priority ∨ account.priority = other.priority ∧ account.id ≤ other.id := by
  rw [candidateLe]
  split
  · rename_i heq
    simp [heq]
  · rename_i hne
    simp [hne]

instance : Std.Total (α := StoredAccount) (candidateLe · ·) where
  total a b := by
    rw [candidateLe_iff, candidateLe_iff]
    omega

instance : IsTrans StoredAccount (candidateLe · ·) where
  trans a b c hab hbc := by
    rw [candidateLe_iff] at hab hbc ⊢
    omega

theorem reachable_iff : Reachable env account ↔ ∃ channel, directChannelOf env account = some channel := by
  rw [Reachable, directChannelOf]
  cases baseUrlOf account with
  | none => simp
  | some baseUrl => simp

theorem accountId_of_directChannelOf (h : directChannelOf env account = some channel) :
    channel.accountId = account.id := by
  rw [directChannelOf, Option.bind_eq_some_iff] at h
  obtain ⟨baseUrl, -, h⟩ := h
  obtain ⟨secret, -, rfl⟩ := Option.map_eq_some_iff.mp h
  rfl

/-- The channel is that of the first account that can be reached. -/
theorem exists_best (h : (store.directAccounts routeId).findSome? (directChannelOf env) = some channel) :
    ∃ account, IsBestCandidate env store routeId account ∧ channel.accountId = account.id := by
  obtain ⟨before, account, after, hsplit, hchannel, hskip⟩ := List.findSome?_eq_some_iff.mp h
  have hsorted : (store.directAccounts routeId).Pairwise (candidateLe · ·) := by
    rw [BackendStore.directAccounts]
    exact List.pairwise_insertionSort _ _
  refine ⟨account, ⟨by simp [hsplit], reachable_iff.mpr ⟨channel, hchannel⟩, ?_⟩,
    accountId_of_directChannelOf hchannel⟩
  intro other hother hreachable
  rw [hsplit] at hother hsorted
  rcases List.mem_append.mp hother with hother | hother
  · obtain ⟨channel', hsome⟩ := reachable_iff.mp hreachable
    rw [hskip other hother] at hsome
    cases hsome
  · rcases List.mem_cons.mp hother with rfl | hother
    · exact candidateLe_iff.mpr (.inr ⟨rfl, le_rfl⟩)
    · exact (List.pairwise_cons.mp (List.pairwise_append.mp hsorted).2.1).1 other hother

theorem exists_findSome (hmem : account ∈ store.directAccounts routeId) (hreachable : Reachable env account) :
    ∃ channel, (store.directAccounts routeId).findSome? (directChannelOf env) = some channel := by
  rw [← Option.isSome_iff_exists, List.findSome?_isSome_iff]
  obtain ⟨channel, hchannel⟩ := reachable_iff.mp hreachable
  exact ⟨account, hmem, by rw [hchannel]; rfl⟩

/-- There is one such account. -/
theorem IsBestCandidate.eq (h : IsBestCandidate env store routeId account)
    (h' : IsBestCandidate env store routeId other) : account = other := by
  have hle := candidateLe_iff.mp (h.le other h'.mem h'.reachable)
  have hge := candidateLe_iff.mp (h'.le account h.mem h.reachable)
  obtain ⟨_, -, -, -, hgroup, -⟩ := BackendStore.mem_directAccounts_iff.mp h.mem
  obtain ⟨_, -, -, -, hgroup', -⟩ := BackendStore.mem_directAccounts_iff.mp h'.mem
  exact BackendStore.eq_of_accountId hgroup hgroup' (by omega)

end

/-! ## Agreement -/

/-- The account of the channel was published in the pool: it is eligible and its models match. -/
def ChannelOf (published : PublishedBackend) (pool : PoolRoute) (channel : DirectChannel) : Prop :=
  ∃ row, published.HandedUnder pool.pfx row ∧ row.2.id = channel.accountId
    ∧ accountIsCliEligible row.2.account = true
    ∧ apiRouteModelMatches row.2.account.modelMapping pool.publicModel pool.upstreamModel = true

/-- The channels of the published pools are those of their accounts. -/
structure ChannelsAgree (env : BackendEnv) (store : BackendStore) (published : PublishedBackend) : Prop where
  resolves : ∀ pool ∈ published.table.routes, ∀ routeId beside platform,
    pool.poolId = apiPoolId routeId beside platform →
    (∃ row, published.HandedUnder pool.pfx row ∧ Reachable env row.2) →
    ∃ channel, resolvePoolDirectChannel env store pool.poolId = some channel
  belongs : ∀ pool ∈ published.table.routes, ∀ channel,
    resolvePoolDirectChannel env store pool.poolId = some channel → ChannelOf published pool channel
  oauth : ∀ pool ∈ published.table.routes, ∀ routeId accountId platform,
    pool.poolId = oauthPoolId routeId accountId platform → resolvePoolDirectChannel env store pool.poolId = none

/-- No account beside an OAuth account can be reached directly, and elsewhere the first account that
can be reached is eligible and its models match. -/
structure DirectSound (env : BackendEnv) (store : BackendStore) : Prop where
  beside : ∀ row ∈ store.backendRows, FallbackRow store.backendRows row → rowMatches row = true →
    ¬ Reachable env row.2
  best : ∀ row ∈ store.backendRows, row.2.accountType = .apikey → row.1.id ∉ rowOauthIds store.backendRows →
    ∀ account, IsBestCandidate env store row.1.id account → accountIsCliEligible account.account = true
      ∧ apiRouteModelMatches account.account.modelMapping row.1.route.publicModel row.1.route.upstreamModel = true

section

variable {env : BackendEnv} {store : BackendStore} {published : PublishedBackend} {row first : BackendRow}
  {account : StoredAccount} {oauthIds : List ℤ}

theorem poolIdOf_api (h : row.2.accountType = .apikey) (platform : String) :
    poolIdOf (rowPoolRouteId oauthIds row) platform = apiPoolId row.1.id (row.1.id ∈ oauthIds) platform := by
  rw [rowPoolRouteId, pairPoolRouteId, apiPoolId]
  simp only [BackendRow.pair, StoredAccount.account, poolRouteIdForAccount, h, reduceCtorEq, if_false]
  congr 1
  apply String.toList_injective
  split <;> simp [String.toList_append]

theorem poolIdOf_oauth (h : row.2.accountType = .oauth) (platform : String) :
    poolIdOf (rowPoolRouteId oauthIds row) platform = oauthPoolId row.1.id row.2.id platform := by
  rw [rowPoolRouteId, pairPoolRouteId, oauthPoolId]
  simp only [BackendRow.pair, StoredAccount.account, poolRouteIdForAccount, h, if_true]

/-- No pool id is of both kinds. -/
theorem oauthPoolId_ne_apiPoolId (routeId accountId routeId' : ℤ) (beside : Bool) (platform platform' : String) :
    oauthPoolId routeId accountId platform ≠ apiPoolId routeId' beside platform' := by
  have hoauth : "r" ++ toString routeId ++ "a" ++ toString accountId
      = poolRouteIdForAccount routeId .oauth true accountId := rfl
  have hapi : ("r" ++ toString routeId' ++ if beside then "f" else "")
      = poolRouteIdForAccount routeId' .apikey beside accountId := by
    apply String.toList_injective
    cases beside <;> simp [poolRouteIdForAccount, String.toList_append]
  rw [oauthPoolId, apiPoolId, hoauth, hapi]
  intro h
  exact poolRouteId_oauth_ne_api _ _ _ _ _ _
    (poolIdOf_inj (slash_notMem_poolRouteId _ _ _ _) (slash_notMem_poolRouteId _ _ _ _) h)

theorem fits_of_mem (h : row ∈ store.backendRows) : FitsI64 row.1.id := by
  obtain ⟨route, hroute, -, -, heq, -⟩ := BackendStore.mem_backendRows_iff.mp h
  rw [← heq]
  exact store.fits_routes route hroute

/-- The pools in which a channel is looked for. -/
theorem resolve_plain (hrow : row ∈ store.backendRows) (htype : row.2.accountType = .apikey)
    (hplain : row.1.id ∉ rowOauthIds store.backendRows) (platform : String) :
    resolvePoolDirectChannel env store (poolIdOf (rowPoolRouteId (rowOauthIds store.backendRows) row) platform)
      = (store.directAccounts row.1.id).findSome? (directChannelOf env) := by
  have hid := routeIdOf_plain (fits_of_mem hrow) platform
  rw [poolIdOf_api htype, decide_eq_false hplain, resolvePoolDirectChannel, hid]

/-- In the others there is none. -/
theorem resolve_eq_none (h : ¬ (row.2.accountType = .apikey ∧ row.1.id ∉ oauthIds)) (platform : String) :
    resolvePoolDirectChannel env store (poolIdOf (rowPoolRouteId oauthIds row) platform) = none := by
  cases htype : row.2.accountType with
  | oauth =>
    have hid := routeIdOf_oauth row.1.id row.2.id platform
    rw [poolIdOf_oauth htype, resolvePoolDirectChannel, hid]
  | apikey =>
    have hbeside : row.1.id ∈ oauthIds := by
      by_contra hplain
      exact h ⟨htype, hplain⟩
    have hid := routeIdOf_beside row.1.id platform
    rw [poolIdOf_api htype, decide_eq_true hbeside, resolvePoolDirectChannel, hid]

/-- The accounts that are asked directly are joined to the route for the publisher too. -/
theorem mem_backendRows_of_direct (hrow : row ∈ store.backendRows) (haccount : account ∈ store.directAccounts row.1.id) :
    (row.1, account) ∈ store.backendRows := by
  obtain ⟨route, hroute, henabled, hdeleted, heq, -⟩ := BackendStore.mem_backendRows_iff.mp hrow
  obtain ⟨route', hroute', hid, -, hgroup, -⟩ := BackendStore.mem_directAccounts_iff.mp haccount
  rw [← heq] at hid
  rw [BackendStore.eq_of_routeId hroute' hroute hid] at hgroup
  exact BackendStore.mem_backendRows_iff.mpr ⟨route, hroute, henabled, hdeleted, heq, hgroup⟩

/-- The other way for an API account that is schedulable. -/
theorem direct_of_mem_backendRows (hrow : row ∈ store.backendRows) (htype : row.2.accountType = .apikey)
    (hmatches : rowMatches row = true) : row.2 ∈ store.directAccounts row.1.id := by
  obtain ⟨route, hroute, -, hdeleted, heq, hgroup⟩ := BackendStore.mem_backendRows_iff.mp hrow
  rw [rowMatches, Bool.and_eq_true, accountIsCliEligible, Bool.and_eq_true] at hmatches
  exact BackendStore.mem_directAccounts_iff.mpr
    ⟨route, hroute, by rw [heq], hdeleted, hgroup, hmatches.1.1, htype⟩

theorem rowMatches_api (htype : row.2.accountType = .apikey) : rowMatches row = true
    ↔ accountIsCliEligible row.2.account = true
      ∧ apiRouteModelMatches row.2.account.modelMapping row.1.route.publicModel row.1.route.upstreamModel = true := by
  rw [rowMatches, Bool.and_eq_true, htype]
  rfl

theorem usable_of_reachable (htype : row.2.accountType = .apikey) (h : Reachable env row.2) : Usable env row := by
  rw [Usable, htype]
  exact h.2

/-- Rows of one pool are of one kind. -/
theorem apikey_of_poolRouteId {other : BackendRow} (h : rowPoolRouteId oauthIds row = rowPoolRouteId oauthIds other)
    (htype : other.2.accountType = .apikey) : row.2.accountType = .apikey := by
  cases hrow : row.2.accountType with
  | apikey => rfl
  | oauth =>
    rw [fallbackRow_congr h hrow] at htype
    cases htype

variable (h : syncBackendEx env store.backendRows = .ok published)

include h

/-- Under the condition every channel is that of an account in the pool. -/
theorem DirectSound.channelOf (hsound : DirectSound env store) (hfirst : FirstOfPool store.backendRows first)
    {channel : DirectChannel} (hchannel : resolvePoolDirectChannel env store
      (backendPool store.backendRows published.credentials first).poolId = some channel) :
    ChannelOf published (backendPool store.backendRows published.credentials first) channel := by
  have hid : (backendPool store.backendRows published.credentials first).poolId
      = poolIdOf (rowPoolRouteId (rowOauthIds store.backendRows) first) first.1.route.targetPlatform := rfl
  rw [hid] at hchannel
  by_cases hplain : first.2.accountType = .apikey ∧ first.1.id ∉ rowOauthIds store.backendRows
  · rw [resolve_plain hfirst.mem hplain.1 hplain.2] at hchannel
    obtain ⟨account, hbest, haccount⟩ := exists_best hchannel
    obtain ⟨heligible, hmodels⟩ := hsound.best first hfirst.mem hplain.1 hplain.2 account hbest
    have hrow := mem_backendRows_of_direct hfirst.mem hbest.mem
    have htype : account.accountType = .apikey := by
      obtain ⟨_, -, -, -, -, -, htype⟩ := BackendStore.mem_directAccounts_iff.mp hbest.mem
      exact htype
    have hpool : rowPoolRouteId (rowOauthIds store.backendRows) (first.1, account)
        = rowPoolRouteId (rowOauthIds store.backendRows) first := by
      rw [rowPoolRouteId, rowPoolRouteId, pairPoolRouteId, pairPoolRouteId]
      simp [BackendRow.pair, StoredAccount.account, poolRouteIdForAccount, htype, hplain.1]
    refine ⟨(first.1, account), ?_, haccount.symm, heligible, hmodels⟩
    have hmatches : rowMatches (first.1, account) = true := (rowMatches_api htype).mpr ⟨heligible, hmodels⟩
    exact (handedUnder_pool_iff (BackendStore.joined_backendRows store) h hfirst).mpr
      ⟨hrow, hpool, hmatches, usable_of_reachable htype hbest.reachable⟩
  · rw [resolve_eq_none hplain] at hchannel
    cases hchannel

/-- An account that was published in an API pool is asked by the resolver, unless it is beside an
OAuth account. -/
theorem DirectSound.exists_channel (hsound : DirectSound env store) (hfirst : FirstOfPool store.backendRows first)
    (htype : first.2.accountType = .apikey)
    (hhanded : published.HandedUnder (rowPrefix (rowOauthIds store.backendRows) first) row)
    (hreachable : Reachable env row.2) : ∃ channel, resolvePoolDirectChannel env store
      (backendPool store.backendRows published.credentials first).poolId = some channel := by
  have hid : (backendPool store.backendRows published.credentials first).poolId
      = poolIdOf (rowPoolRouteId (rowOauthIds store.backendRows) first) first.1.route.targetPlatform := rfl
  obtain ⟨hrow, hpool, hmatches, -⟩ :=
    (handedUnder_pool_iff (BackendStore.joined_backendRows store) h hfirst).mp hhanded
  have hrowType := apikey_of_poolRouteId hpool htype
  have hplain : row.1.id ∉ rowOauthIds store.backendRows := by
    intro hbeside
    exact hsound.beside row hrow ⟨hbeside, by simp [hrowType]⟩ hmatches hreachable
  rw [hid, resolve_plain hfirst.mem htype (routeId_eq hpool ▸ hplain), ← routeId_eq hpool]
  exact exists_findSome (direct_of_mem_backendRows hrow hrowType hmatches) hreachable

theorem DirectSound.agree (hsound : DirectSound env store) : ChannelsAgree env store published where
  resolves := by
    rintro pool hpool routeId beside platform hid ⟨row, hhanded, hreachable⟩
    obtain ⟨first, hfirst, rfl⟩ := (mem_table_iff h).mp hpool
    cases htype : first.2.accountType with
    | apikey => exact hsound.exists_channel h hfirst htype hhanded hreachable
    | oauth =>
      have hoauth : (backendPool store.backendRows published.credentials first).poolId
          = oauthPoolId first.1.id first.2.id first.1.route.targetPlatform := poolIdOf_oauth htype _
      exact absurd (hoauth.symm.trans hid) (oauthPoolId_ne_apiPoolId _ _ _ _ _ _)
  belongs := by
    intro pool hpool channel hchannel
    obtain ⟨first, hfirst, rfl⟩ := (mem_table_iff h).mp hpool
    exact hsound.channelOf h hfirst hchannel
  oauth := by
    intro pool _ routeId accountId platform hid
    rw [hid, resolvePoolDirectChannel, routeIdOf_oauth]

/-- Where the channels agree, the resolver finds the accounts that the publisher finds. -/
theorem ChannelsAgree.directSound (hagree : ChannelsAgree env store published) : DirectSound env store where
  beside := by
    rintro row hrow ⟨hbeside, htype⟩ hmatches hreachable
    have hapi : row.2.accountType = .apikey := by
      cases hcases : row.2.accountType with
      | apikey => rfl
      | oauth => exact absurd hcases htype
    obtain ⟨first, hfirst, hid⟩ := exists_firstOfPool hrow
    have hpool := (mem_table_iff h).mpr ⟨first, hfirst, rfl⟩
    have hfirstBeside : first.1.id ∈ rowOauthIds store.backendRows := routeId_eq hid ▸ hbeside
    have hpoolId : (backendPool store.backendRows published.credentials first).poolId
        = apiPoolId first.1.id true first.1.route.targetPlatform := by
      rw [← decide_eq_true hfirstBeside]
      exact poolIdOf_api (apikey_of_poolRouteId hid hapi) first.1.route.targetPlatform
    have hhanded := (handedUnder_pool_iff (BackendStore.joined_backendRows store) h hfirst).mpr
      ⟨hrow, hid.symm, hmatches, usable_of_reachable hapi hreachable⟩
    obtain ⟨channel, hchannel⟩ := hagree.resolves _ hpool _ _ _ hpoolId ⟨row, hhanded, hreachable⟩
    rw [hpoolId, resolvePoolDirectChannel, routeIdOf_beside] at hchannel
    cases hchannel
  best := by
    intro row hrow htype hplain account hbest
    obtain ⟨first, hfirst, hid⟩ := exists_firstOfPool hrow
    have hpool := (mem_table_iff h).mpr ⟨first, hfirst, rfl⟩
    have hroute : first.1 = row.1 :=
      (BackendStore.joined_backendRows store).route first hfirst.mem row hrow (routeId_eq hid)
    have hresolve : resolvePoolDirectChannel env store
          (backendPool store.backendRows published.credentials first).poolId
        = (store.directAccounts row.1.id).findSome? (directChannelOf env) := by
      rw [← hroute]
      exact resolve_plain hfirst.mem (apikey_of_poolRouteId hid htype) (hroute ▸ hplain) _
    obtain ⟨channel, hchannel⟩ := exists_findSome hbest.mem hbest.reachable
    obtain ⟨account', hbest', haccount⟩ := exists_best hchannel
    obtain ⟨served, hhanded, hserved, heligible, hmodels⟩ := hagree.belongs _ hpool channel (hresolve ▸ hchannel)
    -- the account that was published is the best candidate
    obtain ⟨_, -, -, -, -, hgroup⟩ := BackendStore.mem_backendRows_iff.mp
      ((handedUnder_pool_iff (BackendStore.joined_backendRows store) h hfirst).mp hhanded).1
    obtain ⟨_, -, -, -, hgroup', -⟩ := BackendStore.mem_directAccounts_iff.mp hbest'.mem
    have hsame : served.2 = account := by
      rw [BackendStore.eq_of_accountId hgroup hgroup' (hserved.trans haccount)]
      exact hbest'.eq hbest
    have hmodel : (backendPool store.backendRows published.credentials first).publicModel = row.1.route.publicModel :=
      congrArg (·.route.publicModel) hroute
    have hupstream : (backendPool store.backendRows published.credentials first).upstreamModel
        = row.1.route.upstreamModel := congrArg (·.route.upstreamModel) hroute
    rw [hsame] at heligible hmodels
    rw [hmodel, hupstream] at hmodels
    exact ⟨heligible, hmodels⟩

omit h in
/-- **Direct channels**: the channels of the published pools agree with the accounts published in
them exactly when no reachable API account is beside an OAuth account and the first reachable account
of each other route is eligible and serves the route's models. -/
theorem channelsAgree_iff (h : syncBackendEx env store.backendRows = .ok published) :
    ChannelsAgree env store published ↔ DirectSound env store :=
  ⟨ChannelsAgree.directSound h, DirectSound.agree h⟩

end

/-! ## Runs -/

namespace DirectRun

/-- The accounts in one group with one route. -/
def storeOf (first second : StoredAccount) (h : first.id ≠ second.id) : BackendStore where
  routes := [⟨PublicationRun.routeOf 1 "gpt-5.6-sol", 7, true, false⟩]
  accounts := [(first, false), (second, false)]
  accountGroups := [(first.id, 7), (second.id, 7)]
  nodup_routes := by decide +kernel
  nodup_accounts := by simpa using h
  fits_routes := by decide +kernel

/-- An OAuth account of OpenAI without an auth file. -/
def oauthAccount (id : ℤ) : StoredAccount :=
  { PublicationRun.accountOf id "active" 1 with accountType := .oauth, authFile := "codex.json" }

/-- Two active accounts of a relay. -/
def activeStore : BackendStore :=
  storeOf (PublicationRun.accountOf 1 "active" 3) (PublicationRun.accountOf 2 "active" 5) (by decide)

/-- An account of a relay beside an OAuth account. -/
def besideStore : BackendStore := storeOf (oauthAccount 1) (PublicationRun.accountOf 2 "active" 5) (by decide)

theorem channelsAgree_activeStore : ∃ published,
    syncBackendEx PublicationRun.env activeStore.backendRows = .ok published
      ∧ (ChannelsAgree PublicationRun.env activeStore published ↔ DirectSound PublicationRun.env activeStore) := by
  have hok : (syncBackendEx PublicationRun.env activeStore.backendRows).isOk = true := by decide +kernel
  cases hrun : syncBackendEx PublicationRun.env activeStore.backendRows with
  | error e =>
    rw [hrun] at hok
    cases hok
  | ok published => exact ⟨published, rfl, channelsAgree_iff hrun⟩

/-- The account beside the OAuth account is published, and its pool has no channel. -/
theorem no_channel_beside : ∃ published,
    syncBackendEx PublicationRun.env besideStore.backendRows = .ok published
      ∧ ¬ ChannelsAgree PublicationRun.env besideStore published := by
  have hok : (syncBackendEx PublicationRun.env besideStore.backendRows).isOk = true := by decide +kernel
  cases hrun : syncBackendEx PublicationRun.env besideStore.backendRows with
  | error e =>
    rw [hrun] at hok
    cases hok
  | ok published =>
    refine ⟨published, rfl, ?_⟩
    intro hagree
    have hsound := ChannelsAgree.directSound hrun hagree
    refine hsound.beside (PublicationRun.routeOf 1 "gpt-5.6-sol", PublicationRun.accountOf 2 "active" 5)
      (by decide +kernel) ⟨by decide +kernel, by decide +kernel⟩ (by decide +kernel) ⟨⟨_, rfl⟩, _, rfl⟩

end DirectRun

end CodexRouter
