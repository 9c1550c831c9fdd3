/-
# The state of the control plane

The tables that the admin requests and the import of a legacy export work on, and the statements they are made of.  A
statement fails where it would break a constraint, and then leaves everything as it is; the statements of a request do
not stand in a transaction, unless it says so.

`Settled` says how a row of an account may change: the account stays the same, and what is deleted stays deleted.
-/
import CodexRouter.Base.JsonKeys
import CodexRouter.Base.Table
import CodexRouter.Base.Text

namespace CodexRouter

open Text

/-! ## Rows -/

/-- A row of `accounts`; times are left out, and `deleted_at` is set or not. -/
structure AccountRow where
  platform : String
  accountType : String
  authIndex : String
  authFile : String
  stableIdentityHmac : String
  status : String
  schedulable : Bool
  priority : ℤ
  weight : ℤ
  proxyId : Option ℤ := none
  payload : Value
  deleted : Bool := false

/-- A row of `groups`. -/
structure GroupRow where
  name : String
  status : String
  models : Value
  payload : Value

/-- A row of `proxies`. -/
structure ProxyRow where
  protocol : String
  host : String
  port : ℤ
  normalizedUrl : String
  fallbackPolicy : String := "forbid_direct"
  payload : Value
  deleted : Bool := false

/-- The columns of `composite_routes` that tell routes apart. -/
structure RouteKey where
  groupId : ℤ
  publicModel : String
  upstreamModel : String
  targetPlatform : String
  endpoint : String
  deriving DecidableEq

/-- A row of `composite_routes`. -/
structure CompositeRouteRow where
  key : RouteKey
  priority : ℤ
  enabled : Bool
  payload : Value
  deleted : Bool := false

/-- A row of `api_keys`. -/
structure ApiKeyRow where
  name : String
  keyHmac : String
  keySuffix : String
  groupId : Option ℤ
  status : String
  payload : Value

/-- A row of `migration_journal`. -/
structure JournalRow where
  newId : String
  snapshotHash : String
  deriving DecidableEq

/-- The rows of groups have no key besides their ids. -/
def GroupRow.key (_ : GroupRow) : Option Unit := none

/-- The tables. -/
structure StateTables where
  accounts : Table AccountRow fun row => some row.stableIdentityHmac
  groups : Table GroupRow GroupRow.key
  accountGroups : List (ℤ × ℤ)
  proxies : Table ProxyRow fun row => some row.normalizedUrl
  routes : Table CompositeRouteRow fun row => some row.key
  apiKeys : Table ApiKeyRow fun row => some row.keyHmac
  journal : String → String → Option JournalRow

/-- Why a statement fails. -/
inductive StoreError where
  | unique
  | check
  | foreignKey
  deriving DecidableEq

/-! ## Texts of requests -/

/-- `json_string`. -/
def jsonString (value : Value) (key : String) : String := (value.getStr key).getD ""

/-- A path of two names, as `pointer` reads it. -/
def pointer (value : Value) (outer inner : String) : Option Value := (value.get outer).bind (·.get inner)

/-- The names that `sanitize_state_payload` takes out. -/
def isStateSecret (key : String) : Bool :=
  toAsciiLowercase key ∈ ["api_key", "apikey", "access_token", "refresh_token", "id_token", "password",
    "authorization", "cookie", "sso_token"]

/-- `sanitize_state_payload`. -/
def sanitizeStatePayload (value : Value) : Value := value.prune isStateSecret

/-- No member, at any depth, has the name of a secret. -/
def PayloadClean (value : Value) : Prop := ∀ name ∈ value.keys, isStateSecret name = false

mutual

/-- `merge_payload`; `or_insert` puts a null in the place of a missing member. -/
def mergePayload (base : Value) : Value → Value
  | .object patch =>
    match base with
    | .object members => .object (mergeMembers members patch)
    | _ => .object patch
  | patch => patch
termination_by structural patch => patch

def mergeMembers (members : Members) : List (String × Value) → Members
  | [] => members
  | e :: rest => mergeMembers (mergeMember members e) rest
termination_by structural patch => patch

def mergeMember (members : Members) : String × Value → Members
  | (k, v) => members.insert k (mergePayload ((members.get k).getD .null) v)
termination_by structural e => e

end

/-- `group_ids_from`. -/
def groupIdsFrom (body : Value) : List ℤ := ((body.getArray "group_ids").getD []).filterMap Value.asInt

theorem clean_sanitizeStatePayload (value : Value) : PayloadClean (sanitizeStatePayload value) :=
  Value.notMem_keys_prune value

theorem clean_sanitized_get {value x : Value} {key : String} (h : PayloadClean value) (hget : value.get key = some x) :
    PayloadClean x :=
  fun name hname => h name (Value.keys_subset_of_get hget hname)

theorem clean_pointer {value x : Value} {outer inner : String} (h : PayloadClean value)
    (hget : pointer value outer inner = some x) : PayloadClean x := by
  obtain ⟨v, hv, hx⟩ := Option.bind_eq_some_iff.mp hget
  exact clean_sanitized_get (clean_sanitized_get h hv) hx

mutual

/-- A merged payload has the names of the two. -/
theorem keys_mergePayload : ∀ (patch base : Value) (name : String), name ∈ (mergePayload base patch).keys →
    name ∈ base.keys ∨ name ∈ patch.keys
  | .object patch, base => by
    intro name h
    cases base with
    | object members => exact keys_mergeMembers patch members name h
    | _ => exact Or.inr h
  | .null, _ | .bool _, _ | .number _, _ | .string _, _ | .array _, _ => fun _ => Or.inr
termination_by structural patch => patch

theorem keys_mergeMembers : ∀ (patch : List (String × Value)) (members : Members) (name : String),
    name ∈ Value.keysEntries (mergeMembers members patch) → name ∈ Value.keysEntries members ∨ name ∈ Value.keysEntries patch
  | [], _ => fun _ => Or.inl
  | e :: rest, members => by
    intro name h
    rw [Value.keysEntries, List.mem_append]
    rcases keys_mergeMembers rest (mergeMember members e) name h with h | h
    · exact (keys_mergeMember e members name h).imp_right Or.inl
    · exact Or.inr (Or.inr h)
termination_by structural patch => patch

theorem keys_mergeMember : ∀ (e : String × Value) (members : Members) (name : String),
    name ∈ Value.keysEntries (mergeMember members e) → name ∈ Value.keysEntries members ∨ name ∈ Value.keysEntry e
  | (k, v), members => by
    intro name h
    rw [Value.keysEntry_eq, List.mem_cons]
    rcases Value.mem_keysEntries_insert h with rfl | h | h
    · exact Or.inr (Or.inl rfl)
    · rcases keys_mergePayload v _ name h with h | h
      · cases hget : members.get k with
        | none =>
          rw [hget] at h
          exact absurd h List.not_mem_nil
        | some x =>
          rw [hget] at h
          exact Or.inl (Value.mem_keysEntries.mpr ⟨(k, x), Members.mem_of_get hget, Or.inr h⟩)
      · exact Or.inr (Or.inr h)
    · exact Or.inl h
termination_by structural e => e

end

theorem clean_mergePayload {base patch : Value} (hbase : PayloadClean base) (hpatch : PayloadClean patch) :
    PayloadClean (mergePayload base patch) :=
  fun name h => (keys_mergePayload patch base name h).elim (hbase name) (hpatch name)

/-! ## Statements -/

/-- The constraint `CHECK(weight BETWEEN 1 AND 1000000)`. -/
def AccountRow.weightFits (row : AccountRow) : Bool := 1 ≤ row.weight && row.weight ≤ 1000000

namespace StateTables

/-- A store without rows. -/
def empty : StateTables where
  accounts := .empty
  groups := .empty
  accountGroups := []
  proxies := .empty
  routes := .empty
  apiKeys := .empty
  journal := fun _ _ => none

/-- `INSERT INTO accounts`: the id, and the store. -/
def insertAccount (s : StateTables) (row : AccountRow) : Except StoreError (ℤ × StateTables) :=
  if !row.weightFits then .error .check
  else
    match s.accounts.insert row with
    | none => .error .unique
    | some accounts => .ok (accounts.last, { s with accounts := accounts })

/-- `UPDATE accounts`, of the row with an id; with `live`, only where it is not deleted. -/
def updateAccount (s : StateTables) (live : Bool) (id : ℤ) (f : AccountRow → AccountRow) :
    Except StoreError (ℕ × StateTables) :=
  match (s.accounts.get id).filter fun row => !(live && row.deleted) with
  | none => .ok (0, s)
  | some row =>
    if !(f row).weightFits then .error .check
    else
      match s.accounts.update id f with
      | none => .error .unique
      | some accounts => .ok (1, { s with accounts := accounts })

/-- `DELETE FROM account_groups`. -/
def unlinkAccount (s : StateTables) (accountId : ℤ) : StateTables :=
  { s with accountGroups := s.accountGroups.filter fun link => link.1 ≠ accountId }

/-- `INSERT OR IGNORE INTO account_groups`; a missing account or group is not ignored. -/
def linkAccount (s : StateTables) (accountId groupId : ℤ) : Except StoreError StateTables :=
  if s.accountGroups.any fun link => link.1 = accountId && link.2 = groupId then .ok s
  else if (s.accounts.get accountId).isSome && (s.groups.get groupId).isSome then
    .ok { s with accountGroups := s.accountGroups ++ [(accountId, groupId)] }
  else .error .foreignKey

/-- The loop of `sync_account_groups`, which stops at the first link that fails. -/
def linkAll (s : StateTables) (accountId : ℤ) : List ℤ → Bool × StateTables
  | [] => (true, s)
  | groupId :: rest =>
    match s.linkAccount accountId groupId with
    | .error _ => (false, s)
    | .ok s => s.linkAll accountId rest

/-- `sync_account_groups`. -/
def syncAccountGroups (s : StateTables) (accountId : ℤ) (groupIds : List ℤ) : Bool × StateTables :=
  (s.unlinkAccount accountId).linkAll accountId groupIds

/-- `INSERT INTO composite_routes`. -/
def insertRoute (s : StateTables) (row : CompositeRouteRow) : Except StoreError (ℤ × StateTables) :=
  match s.routes.insert row with
  | none => .error .unique
  | some routes =>
    if (s.groups.get row.key.groupId).isSome then .ok (routes.last, { s with routes := routes })
    else .error .foreignKey

/-- `UPDATE composite_routes`, of the row with an id and a group; with `live`, only where it is not deleted. -/
def updateRoute (s : StateTables) (live : Bool) (id groupId : ℤ) (f : CompositeRouteRow → CompositeRouteRow) :
    Except StoreError (ℕ × StateTables) :=
  match (s.routes.get id).filter fun row => row.key.groupId = groupId && !(live && row.deleted) with
  | none => .ok (0, s)
  | some _ =>
    match s.routes.update id f with
    | none => .error .unique
    | some routes => .ok (1, { s with routes := routes })

/-- `INSERT INTO composite_routes` that takes up the row of the same route, if there is one. -/
def upsertRoute (s : StateTables) (row : CompositeRouteRow) : Except StoreError StateTables :=
  match s.routes.find fun old => old.key = row.key with
  | none =>
    match s.insertRoute row with
    | .error e => .error e
    | .ok (_, store) => .ok store
  | some (id, _) =>
    match s.routes.update id fun old =>
        { old with priority := row.priority, enabled := row.enabled, payload := row.payload, deleted := false } with
    | none => .error .unique
    | some routes => .ok { s with routes := routes }

/-- `INSERT INTO api_keys`. -/
def insertApiKey (s : StateTables) (row : ApiKeyRow) : Except StoreError (ℤ × StateTables) :=
  match s.apiKeys.insert row with
  | none => .error .unique
  | some apiKeys =>
    if row.groupId.all fun groupId => (s.groups.get groupId).isSome then
      .ok (apiKeys.last, { s with apiKeys := apiKeys })
    else .error .foreignKey

variable {s s' : StateTables} {id accountId groupId : ℤ} {n : ℕ}

theorem insertAccount_eq_ok {row : AccountRow} (h : s.insertAccount row = .ok (id, s')) :
    ∃ accounts, s.accounts.insert row = some accounts ∧ id = accounts.last ∧ s' = { s with accounts := accounts } := by
  rw [insertAccount] at h
  split at h
  · cases h
  · split at h
    · cases h
    · rename_i accounts hinsert
      cases h
      exact ⟨accounts, hinsert, rfl, rfl⟩

/-- An update of an account changes no row, or the one with the id. -/
theorem updateAccount_eq_ok {live : Bool} {f : AccountRow → AccountRow} (h : s.updateAccount live id f = .ok (n, s')) :
    (n = 0 ∧ s' = s)
      ∨ n = 1 ∧ ∃ row accounts, s.accounts.get id = some row ∧ (live = true → row.deleted = false)
        ∧ s.accounts.update id f = some accounts ∧ s' = { s with accounts := accounts } := by
  rw [updateAccount] at h
  split at h
  · cases h
    exact Or.inl ⟨rfl, rfl⟩
  · rename_i row hrow
    obtain ⟨hget, hlive⟩ := Option.filter_eq_some_iff.mp hrow
    split at h
    · cases h
    · split at h
      · cases h
      · rename_i accounts hupdate
        cases h
        refine Or.inr ⟨rfl, row, accounts, hget, ?_, hupdate, rfl⟩
        rintro rfl
        simpa using hlive

/-- The loop adds links of the account to groups that exist. -/
theorem linkAll_eq (s : StateTables) (accountId : ℤ) (groupIds : List ℤ) :
    ∃ links, (s.linkAll accountId groupIds).2 = { s with accountGroups := s.accountGroups ++ links }
      ∧ ∀ link ∈ links, link.1 = accountId ∧ (s.groups.get link.2).isSome := by
  induction groupIds generalizing s with
  | nil => exact ⟨[], by rw [List.append_nil, linkAll], fun _ h => absurd h List.not_mem_nil⟩
  | cons groupId rest ih =>
    have hlinked : ∀ s', s.linkAccount accountId groupId = .ok s' → ∃ links,
        s' = { s with accountGroups := s.accountGroups ++ links }
          ∧ ∀ link ∈ links, link.1 = accountId ∧ (s.groups.get link.2).isSome := by
      intro s' hs'
      rw [linkAccount] at hs'
      split at hs'
      · cases hs'
        exact ⟨[], by rw [List.append_nil], fun _ h => absurd h List.not_mem_nil⟩
      · split at hs'
        · rename_i hexist
          cases hs'
          refine ⟨[(accountId, groupId)], rfl, fun link hlink => ?_⟩
          rw [List.mem_singleton.mp hlink]
          exact ⟨rfl, (Bool.and_eq_true_iff.mp hexist).2⟩
        · cases hs'
    rw [linkAll]
    split
    · exact ⟨[], by rw [List.append_nil], fun _ h => absurd h List.not_mem_nil⟩
    · rename_i s' hs'
      obtain ⟨links, rfl, hlinks⟩ := hlinked s' hs'
      obtain ⟨more, hmore, hmoreLinks⟩ := ih { s with accountGroups := s.accountGroups ++ links }
      refine ⟨links ++ more, ?_, List.forall_mem_append.mpr ⟨hlinks, hmoreLinks⟩⟩
      rw [hmore, List.append_assoc]

/-- Afterwards the account has links to groups that exist, and the others have theirs. -/
theorem syncAccountGroups_eq (s : StateTables) (accountId : ℤ) (groupIds : List ℤ) :
    ∃ links, (s.syncAccountGroups accountId groupIds).2
        = { s with accountGroups := (s.accountGroups.filter fun link => link.1 ≠ accountId) ++ links }
      ∧ ∀ link ∈ links, link.1 = accountId ∧ (s.groups.get link.2).isSome :=
  linkAll_eq (s.unlinkAccount accountId) accountId groupIds

theorem insertRoute_eq_ok {row : CompositeRouteRow} (h : s.insertRoute row = .ok (id, s')) :
    ∃ routes, s.routes.insert row = some routes ∧ id = routes.last ∧ (s.groups.get row.key.groupId).isSome
      ∧ s' = { s with routes := routes } := by
  rw [insertRoute] at h
  split at h
  · cases h
  · rename_i routes hinsert
    split at h
    · rename_i hgroup
      cases h
      exact ⟨routes, hinsert, rfl, hgroup, rfl⟩
    · cases h

theorem updateRoute_eq_ok {live : Bool} {f : CompositeRouteRow → CompositeRouteRow} (h : s.updateRoute live id groupId f = .ok (n, s')) :
    (n = 0 ∧ s' = s)
      ∨ n = 1 ∧ ∃ row routes, s.routes.get id = some row ∧ row.key.groupId = groupId ∧ (live = true → row.deleted = false)
        ∧ s.routes.update id f = some routes ∧ s' = { s with routes := routes } := by
  rw [updateRoute] at h
  split at h
  · cases h
    exact Or.inl ⟨rfl, rfl⟩
  · rename_i row hrow
    obtain ⟨hget, hfits⟩ := Option.filter_eq_some_iff.mp hrow
    rw [Bool.and_eq_true, decide_eq_true_eq] at hfits
    split at h
    · cases h
    · rename_i routes hupdate
      cases h
      refine Or.inr ⟨rfl, row, routes, hget, hfits.1, ?_, hupdate, rfl⟩
      rintro rfl
      simpa using hfits.2

theorem insertApiKey_eq_ok {row : ApiKeyRow} (h : s.insertApiKey row = .ok (id, s')) :
    ∃ apiKeys, s.apiKeys.insert row = some apiKeys ∧ id = apiKeys.last ∧ s' = { s with apiKeys := apiKeys } := by
  rw [insertApiKey] at h
  split at h
  · cases h
  · rename_i apiKeys hinsert
    split at h
    · cases h
      exact ⟨apiKeys, hinsert, rfl, rfl⟩
    · cases h

end StateTables

end CodexRouter
