/-
# The pools and what was published in them

What `syncBackendEx` leaves when it ends well.  Every credential carries the prefix of its
row, and no two pools share a prefix, so that a credential belongs to one pool and a pool is
available when a credential carries its prefix.

A pool is entered by its first row, whether or not this row gets a credential, and its priority
is that row's: `publication_iff` says when it is the best one of the accounts in the pool, and
when the pool's model is an alias of each replica.
-/
import CodexRouter.BackendSync
import Mathlib.Order.Bounds.Basic

namespace CodexRouter

open Text

/-! ## Rows of a join -/

/-- The rows of a query over the keys of the routes and the accounts, in their order. -/
structure Joined (rows : List BackendRow) : Prop where
  route : ∀ r ∈ rows, ∀ r' ∈ rows, r.1.id = r'.1.id → r.1 = r'.1
  account : ∀ r ∈ rows, ∀ r' ∈ rows, r.2.id = r'.2.id → r.2 = r'.2
  ordered : rows.Pairwise fun r r' => r.1.id < r'.1.id ∨ r.1.id = r'.1.id ∧ r.2.id < r'.2.id

/-- The routes that an OAuth account of the rows belongs to. -/
def rowOauthIds (rows : List BackendRow) : List ℤ := oauthRoutes (rows.map BackendRow.pair)

section

variable {oauthIds : List ℤ} {rows : List BackendRow} {row other : BackendRow}

/-- Rows of one pool have one route. -/
theorem routeId_eq (h : rowPoolRouteId oauthIds row = rowPoolRouteId oauthIds other) : row.1.id = other.1.id := by
  rw [rowPoolRouteId, rowPoolRouteId, pairPoolRouteId, pairPoolRouteId] at h
  simp only [BackendRow.pair] at h
  cases hrow : row.2.account.accountType with
  | oauth =>
    cases hother : other.2.account.accountType with
    | oauth =>
      rw [hrow, hother] at h
      exact (poolRouteId_oauth_inj h).1
    | apikey =>
      rw [hrow, hother] at h
      exact absurd h (poolRouteId_oauth_ne_api _ _ _ _ _ _)
  | apikey =>
    cases hother : other.2.account.accountType with
    | oauth =>
      rw [hrow, hother] at h
      exact absurd h.symm (poolRouteId_oauth_ne_api _ _ _ _ _ _)
    | apikey =>
      rw [hrow, hother] at h
      exact poolRouteId_api_inj h

/-- Rows of one pool have one prefix. -/
theorem rowPrefix_eq (hjoined : Joined rows) (hrow : row ∈ rows) (hother : other ∈ rows)
    (h : rowPoolRouteId oauthIds row = rowPoolRouteId oauthIds other) :
    rowPrefix oauthIds row = rowPrefix oauthIds other := by
  rw [rowPrefix, rowPrefix, h, hjoined.route row hrow other hother (routeId_eq h)]

end

/-! ## Prefix and aliases of a credential -/

/-- One of the items has this alias. -/
def HasAlias (items : List Value) (shown : String) : Prop := ∃ item ∈ items, item.getStr "alias" = some shown

section

variable {env : BackendEnv} {row : BackendRow} {poolPrefix authType : String}

theorem exists_withProjectId (row : BackendRow) (entries : Members) :
    ∃ entries' : Members, withProjectId row (.object entries) = .object entries'
      ∧ ∀ key, key ≠ "project_id" → entries'.get key = Members.get key entries := by
  rw [withProjectId]
  split
  · split
    · exact ⟨_, rfl, fun key hkey => Members.get_insert_ne hkey _ _⟩
    · exact ⟨entries, rfl, fun _ _ => rfl⟩
  · exact ⟨entries, rfl, fun _ _ => rfl⟩

theorem exists_writtenDocument (entries : Members) :
    ∃ entries' : Members, writtenDocument (.object entries) = .object entries'
      ∧ ∀ key, key ≠ "refresh_token" → entries'.get key = Members.get key entries := by
  rw [writtenDocument]
  split
  · exact ⟨_, rfl, fun key hkey => Members.get_remove_ne hkey _⟩
  · exact ⟨entries, rfl, fun _ _ => rfl⟩

/-- The prefix and the aliases of a replica. -/
theorem exists_replicaDocument (env : BackendEnv) (row : BackendRow) (poolPrefix authType : String)
    (entries : Members) :
    ∃ entries' : Members, replicaDocument env row poolPrefix authType (.object entries) = .object entries'
      ∧ entries'.get "prefix" = some (.string poolPrefix)
      ∧ entries'.get "model_aliases" = some (.array
        ((oauthReplicaAliases poolPrefix row.1.route.publicModel).foldl
          (pushOauthReplicaAlias (env.upstreamOf row authType))
          (((Value.object entries).getArray "model_aliases").getD []))) := by
  obtain ⟨project, hproject, hsame⟩ := exists_withProjectId row entries
  have haliases : Members.get "model_aliases" project = Members.get "model_aliases" entries :=
    hsame "model_aliases" (by decide)
  rw [replicaDocument, hproject]
  simp only [Value.insert]
  obtain ⟨written, hwritten, hkept⟩ := exists_writtenDocument (Members.insert "model_aliases" (.array
      ((oauthReplicaAliases poolPrefix row.1.route.publicModel).foldl
        (pushOauthReplicaAlias (env.upstreamOf row authType))
        (((Value.object entries).getArray "model_aliases").getD [])))
      (Members.insert "weight" (.number (.int (max row.2.weight 1)))
        (Members.insert "priority" (.number (.int (cliPriority (asI32 row.2.priority))))
          (Members.insert "prefix" (.string poolPrefix)
            (Members.insert "router_replica" (.bool true) project)))))
  refine ⟨written, ?_, ?_, ?_⟩
  · rw [← hwritten]
    simp [Value.getArray, haliases]
  · rw [hkept "prefix" (by decide)]
    simp
  · rw [hkept "model_aliases" (by decide)]
    simp

/-- An alias of the longer list is an alias of the shorter one or a new one. -/
theorem hasAlias_push {name shown : String} {items : List Value} (s : String) :
    HasAlias (pushOauthReplicaAlias name items shown) s ↔ HasAlias items s ∨ s = shown := by
  rw [pushOauthReplicaAlias]
  split
  · rename_i hthere
    obtain ⟨item, hitem, hmatches⟩ := List.any_eq_true.mp hthere
    simp only [Bool.and_eq_true, decide_eq_true_eq] at hmatches
    constructor
    · exact .inl
    · rintro (h | rfl)
      · exact h
      · exact ⟨item, hitem, hmatches.2⟩
  · constructor
    · rintro ⟨item, hitem, halias⟩
      rcases List.mem_append.mp hitem with hitem | hitem
      · exact .inl ⟨item, hitem, halias⟩
      · rw [List.mem_singleton.mp hitem] at halias
        right
        simpa [Value.getStr, Value.get, Members.get] using halias.symm
    · rintro (⟨item, hitem, halias⟩ | rfl)
      · exact ⟨item, List.mem_append_left _ hitem, halias⟩
      · refine ⟨_, List.mem_append_right _ List.mem_cons_self, ?_⟩
        simp [Value.getStr, Value.get, Members.get]

theorem hasAlias_foldl {name : String} (names : List String) {items : List Value} (s : String) :
    HasAlias (names.foldl (pushOauthReplicaAlias name) items) s ↔ HasAlias items s ∨ s ∈ names := by
  induction names generalizing items with
  | nil => simp
  | cons first rest ih => rw [List.foldl_cons, ih, hasAlias_push, List.mem_cons, or_assoc]

/-- The public model is one of the new aliases as long as it is not changed by trimming. -/
theorem mem_oauthReplicaAliases_iff (routeId platform publicModel : String) :
    publicModel ∈ oauthReplicaAliases (poolPrefixOf routeId platform) publicModel
      ↔ trim publicModel = publicModel ∧ publicModel ≠ "" := by
  rw [oauthReplicaAliases]
  have hpfx : ∃ cs, (poolPrefixOf routeId platform ++ "/").toList = 'c' :: cs := by
    simp [poolPrefixOf, String.toList_append]
  obtain ⟨cs, hcs⟩ := hpfx
  by_cases hblank : trim publicModel = ""
  · rw [if_pos hblank]
    constructor
    · intro h
      cases h
    · rintro ⟨htrim, hne⟩
      exact absurd (htrim ▸ hblank) hne
  have hother : publicModel ≠ poolPrefixOf routeId platform ++ "/" ++ trim publicModel :=
    ne_append_trim hcs (by decide) hblank
  rw [if_neg hblank]
  have htrimmed : publicModel = trim publicModel ↔ trim publicModel = publicModel ∧ publicModel ≠ "" := by
    constructor
    · intro h
      exact ⟨h.symm, h ▸ hblank⟩
    · exact fun h => h.1.symm
  rw [← htrimmed]
  split
  · rw [List.mem_singleton]
  · simp [hother]

end

/-! ## Rows with a credential -/

section

variable {env : BackendEnv} {oauthIds : List ℤ} {row : BackendRow}

/-- A replica is made of a document that is an object. -/
theorem exists_of_replica {replica : Replica} (h : credentialOf env oauthIds row = .ok (some (.replica replica))) :
    rowMatches row = true ∧ ∃ name entries, env.fileName row.2.authFile = some name
      ∧ sourceDocument env row.2 name = .ok (some (.object entries))
      ∧ replica.document
        = replicaDocument env row (rowPrefix oauthIds row) replica.authType (.object entries) := by
  rw [credentialOf] at h
  split at h
  · cases h
  rename_i hmatches
  split at h
  · split at h
    · cases h
    rename_i name hname
    split at h
    · cases h
    · cases h
    rename_i document hdocument
    rw [Except.ok.injEq, Option.map_eq_some_iff] at h
    obtain ⟨replica', hreplica, heq⟩ := h
    obtain rfl : replica' = replica := by injection heq
    rw [replicaOf] at hreplica
    split at hreplica
    · cases hreplica
    rename_i htype
    split at hreplica
    · rw [Option.some.injEq] at hreplica
      refine ⟨by simpa using hmatches, name, ?_⟩
      cases document with
      | object entries => exact ⟨entries, hname, hdocument, by rw [← hreplica]⟩
      | _ => exact absurd rfl htype
    · cases hreplica
  · rw [Except.ok.injEq, Option.map_eq_some_iff] at h
    obtain ⟨secret, -, heq⟩ := h
    cases heq

/-- A target is made of a secret. -/
theorem target_iff {target : ApiTarget} : credentialOf env oauthIds row = .ok (some (.target target))
    ↔ rowMatches row = true ∧ row.2.accountType = .apikey ∧ ∃ secret, env.secret row.2.id = some secret
      ∧ target = apiTarget row (rowPoolRouteId oauthIds row) secret := by
  rw [credentialOf]
  cases hmatches : rowMatches row with
  | false => simp
  | true =>
    cases htype : row.2.accountType with
    | oauth =>
      simp only [Bool.not_true, Bool.false_eq_true, if_false, if_true, reduceCtorEq, false_and, and_false, iff_false]
      intro h
      split at h
      · cases h
      split at h
      · cases h
      · cases h
      · rw [Except.ok.injEq, Option.map_eq_some_iff] at h
        obtain ⟨replica, -, heq⟩ := h
        cases heq
    | apikey =>
      cases env.secret row.2.id with
      | none => simp
      | some secret => simp [eq_comm]

end

/-! ## What a run leaves -/

section

variable {env : BackendEnv} {rows : List BackendRow} {published : PublishedBackend} {row : BackendRow}
  {pfx : String}

theorem exists_of_compile {targets : List ApiTarget} {config : List CliEntry} (h : compile env targets = .ok config) :
    ∃ out, collect compileTarget targets = .ok out ∧ config = out.map (·.2) := by
  rw [compile] at h
  split at h
  · cases h
  split at h
  · cases h
  rename_i out hout
  split at h
  · cases h
  split at h
  · cases h
  exact ⟨out, hout, (Except.ok.inj h).symm⟩

/-- A run that ends well has gone through all rows, built the table and compiled the targets. -/
theorem syncBackendEx_ok (h : syncBackendEx env rows = .ok published) :
    collect (credentialOf env (rowOauthIds rows)) rows = .ok published.credentials
      ∧ RouteTable.new (backendPools rows published.credentials) = .ok published.table
      ∧ (∃ out, collect compileTarget (targetsOf published.credentials) = .ok out
        ∧ published.config = out.map (·.2))
      ∧ published.cliIndexMap = indexMapOf env published.credentials := by
  rw [syncBackendEx, ← rowOauthIds] at h
  split at h
  · cases h
  rename_i credentials hcredentials
  split at h
  · cases h
  rename_i table htable
  split at h
  · rename_i hempty
    rw [← Except.ok.inj h]
    refine ⟨hcredentials, htable, ⟨[], ?_, rfl⟩, rfl⟩
    rw [List.isEmpty_iff.mp hempty]
    rfl
  · split at h
    · cases h
    rename_i config hconfig
    rw [← Except.ok.inj h]
    exact ⟨hcredentials, htable, exists_of_compile hconfig, rfl⟩

theorem mem_targetsOf {credentials : List (BackendRow × Credential)} {target : ApiTarget} :
    target ∈ targetsOf credentials ↔ ∃ row, (row, .target target) ∈ credentials := by
  rw [targetsOf, List.mem_filterMap]
  constructor
  · rintro ⟨⟨row, credential⟩, hmem, hsome⟩
    cases credential with
    | replica replica => cases hsome
    | target target' =>
      obtain rfl : target' = target := Option.some.inj hsome
      exact ⟨row, hmem⟩
  · rintro ⟨row, hmem⟩
    exact ⟨_, hmem, rfl⟩

/-- A target is compiled into an entry with its prefix and its model, or the loop fails. -/
theorem compileTarget_eq_ok {target : ApiTarget} {result : Option CliEntry} (h : compileTarget target = .ok result) :
    ∃ entry, result = some entry ∧ entry.pfx = poolPrefixOf target.routeId target.platform
      ∧ entry.modelAlias = target.publicModel := by
  rw [compileTarget] at h
  split at h
  · split at h
    · exact ⟨_, (Except.ok.inj h).symm, rfl, rfl⟩
    · cases h
  · split at h
    · cases h
    · exact ⟨_, (Except.ok.inj h).symm, rfl, rfl⟩

theorem cliEntry_of_compileTarget {target : ApiTarget} {entry : CliEntry}
    (h : compileTarget target = .ok (some entry)) :
    entry.pfx = poolPrefixOf target.routeId target.platform ∧ entry.modelAlias = target.publicModel := by
  obtain ⟨entry', heq, hentry⟩ := compileTarget_eq_ok h
  rw [Option.some.injEq] at heq
  rw [heq]
  exact hentry

/-- The entries of the configuration are those of the targets. -/
theorem mem_config_iff (h : syncBackendEx env rows = .ok published) {entry : CliEntry} :
    entry ∈ published.config ↔ ∃ row target, (row, .target target) ∈ published.credentials
      ∧ compileTarget target = .ok (some entry) := by
  obtain ⟨-, -, ⟨out, hout, hconfig⟩, -⟩ := syncBackendEx_ok h
  rw [hconfig, List.mem_map]
  constructor
  · rintro ⟨⟨target, entry'⟩, hmem, rfl⟩
    obtain ⟨htarget, hcompiled⟩ := (mem_collect hout).mp hmem
    obtain ⟨row, hrow⟩ := mem_targetsOf.mp htarget
    exact ⟨row, target, hrow, hcompiled⟩
  · rintro ⟨row, target, hrow, hcompiled⟩
    exact ⟨(target, entry), (mem_collect hout).mpr ⟨mem_targetsOf.mpr ⟨row, hrow⟩, hcompiled⟩, rfl⟩

/-- The credential of a row is handed to the CLI under a prefix: a replica with it, or an entry
of the configuration. -/
def PublishedBackend.HandedUnder (published : PublishedBackend) (pfx : String) (row : BackendRow) : Prop :=
  (∃ replica, (row, .replica replica) ∈ published.credentials ∧ replica.document.getStr "prefix" = some pfx)
    ∨ ∃ target entry, (row, .target target) ∈ published.credentials
      ∧ compileTarget target = .ok (some entry) ∧ entry ∈ published.config ∧ entry.pfx = pfx

theorem prefix_of_replica (h : syncBackendEx env rows = .ok published) {replica : Replica}
    (hmem : (row, .replica replica) ∈ published.credentials) :
    replica.document.getStr "prefix" = some (rowPrefix (rowOauthIds rows) row) := by
  obtain ⟨-, hcredential⟩ := (mem_collect (syncBackendEx_ok h).1).mp hmem
  obtain ⟨-, name, entries, -, -, hdocument⟩ := exists_of_replica hcredential
  obtain ⟨entries', heq, hpfx, -⟩ := exists_replicaDocument env row (rowPrefix (rowOauthIds rows) row)
    replica.authType entries
  rw [hdocument, heq]
  simp [Value.getStr, Value.get, hpfx, Value.asStr]

theorem prefix_of_target (h : syncBackendEx env rows = .ok published) {target : ApiTarget}
    (hmem : (row, .target target) ∈ published.credentials) :
    poolPrefixOf target.routeId target.platform = rowPrefix (rowOauthIds rows) row := by
  obtain ⟨-, hcredential⟩ := (mem_collect (syncBackendEx_ok h).1).mp hmem
  obtain ⟨-, -, secret, -, rfl⟩ := target_iff.mp hcredential
  rfl

/-- A credential is handed under the prefix of its row. -/
theorem handedUnder_iff (h : syncBackendEx env rows = .ok published) : published.HandedUnder pfx row
    ↔ (∃ credential, (row, credential) ∈ published.credentials) ∧ rowPrefix (rowOauthIds rows) row = pfx := by
  constructor
  · rintro (⟨replica, hmem, hpfx⟩ | ⟨target, entry, hmem, hcompiled, -, hpfx⟩)
    · rw [prefix_of_replica h hmem, Option.some.injEq] at hpfx
      exact ⟨⟨_, hmem⟩, hpfx⟩
    · rw [(cliEntry_of_compileTarget hcompiled).1, prefix_of_target h hmem] at hpfx
      exact ⟨⟨_, hmem⟩, hpfx⟩
  · rintro ⟨⟨credential, hmem⟩, rfl⟩
    cases credential with
    | replica replica => exact .inl ⟨replica, hmem, prefix_of_replica h hmem⟩
    | target target =>
      obtain ⟨-, -, ⟨out, hout, -⟩, -⟩ := syncBackendEx_ok h
      obtain ⟨result, hresult⟩ := (collect_eq_ok_iff.mp hout).1 target (mem_targetsOf.mpr ⟨row, hmem⟩)
      obtain ⟨entry, rfl, hpfx, -⟩ := compileTarget_eq_ok hresult
      refine .inr ⟨target, entry, hmem, hresult, (mem_config_iff h).mpr ⟨row, target, hmem, hresult⟩, ?_⟩
      rw [hpfx, prefix_of_target h hmem]

end

/-! ## The pools of the table -/

/-- What the prefix checks reject in a prefix by itself. -/
def rejectedPrefix (pfx : String) : Bool := startsWith pfx "cr/" || contains pfx ".."

/-- The prefix checks accept prefixes that are safe, differ, and are new. -/
theorem checkPrefixes_iff {seen : List String} {routes : List PoolRoute} :
    RouteTable.checkPrefixes seen routes = .ok () ↔ (∀ route ∈ routes, rejectedPrefix route.pfx = false)
      ∧ (routes.map (·.pfx)).Nodup ∧ ∀ route ∈ routes, route.pfx ∉ seen := by
  induction routes generalizing seen with
  | nil => simp [RouteTable.checkPrefixes]
  | cons route rest ih =>
    rw [RouteTable.checkPrefixes, ← rejectedPrefix]
    cases hrejected : rejectedPrefix route.pfx with
    | true =>
      constructor
      · intro h
        cases h
      · rintro ⟨hsafe, -⟩
        rw [hsafe route List.mem_cons_self] at hrejected
        cases hrejected
    | false =>
      rw [if_neg Bool.false_ne_true]
      by_cases hseen : route.pfx ∈ seen
      · rw [if_pos hseen]
        constructor
        · intro h
          cases h
        · rintro ⟨-, -, hfresh⟩
          exact absurd hseen (hfresh route List.mem_cons_self)
      · rw [if_neg hseen, ih, List.map_cons, List.nodup_cons, List.forall_mem_cons, List.forall_mem_cons,
          and_iff_right hrejected, and_iff_right hseen]
        constructor
        · rintro ⟨hsafe, hnodup, hfresh⟩
          refine ⟨hsafe, ⟨?_, hnodup⟩, fun other hother hmem => hfresh other hother (List.mem_cons_of_mem _ hmem)⟩
          intro hmem
          obtain ⟨other, hother, heq⟩ := List.mem_map.mp hmem
          exact hfresh other hother (heq ▸ List.mem_cons_self)
        · rintro ⟨hsafe, ⟨hnew, hnodup⟩, hfresh⟩
          refine ⟨hsafe, hnodup, ?_⟩
          intro other hother hmem
          rcases List.mem_cons.mp hmem with heq | hmem
          · exact hnew (heq ▸ List.mem_map_of_mem hother)
          · exact hfresh other hother hmem

/-- The table of enabled pools is built when the prefixes are accepted. -/
theorem exists_new_iff {pools : List PoolRoute} (henabled : ∀ pool ∈ pools, pool.enabled = true) :
    (∃ table, RouteTable.new pools = .ok table)
      ↔ (∀ pool ∈ pools, rejectedPrefix pool.pfx = false) ∧ (pools.map (·.pfx)).Nodup := by
  have hsorted := List.perm_insertionSort (RouteTable.routeLe · ·) pools
  have hcheck : (∃ table, RouteTable.new pools = .ok table)
      ↔ RouteTable.checkPrefixes [] (pools.insertionSort (RouteTable.routeLe · ·)) = .ok () := by
    rw [RouteTable.new, List.filter_eq_self.mpr henabled]
    split
    · rename_i hok
      exact ⟨fun _ => hok, fun _ => ⟨_, rfl⟩⟩
    · rename_i e herror
      rw [herror]
      simp
  rw [hcheck, checkPrefixes_iff]
  constructor
  · rintro ⟨hsafe, hnodup, -⟩
    exact ⟨fun pool hpool => hsafe pool (hsorted.mem_iff.mpr hpool), (hsorted.map _).nodup_iff.mp hnodup⟩
  · rintro ⟨hsafe, hnodup⟩
    exact ⟨fun pool hpool => hsafe pool (hsorted.mem_iff.mp hpool), (hsorted.map _).nodup_iff.mpr hnodup,
      fun _ _ => List.not_mem_nil⟩

theorem nodup_prefixes {pools : List PoolRoute} {table : RouteTable} (h : RouteTable.new pools = .ok table) :
    (table.routes.map (·.pfx)).Nodup := by
  rw [RouteTable.new] at h
  split at h
  · rename_i hcheck
    rw [← Except.ok.inj h]
    exact (checkPrefixes_iff.mp hcheck).2.1
  · cases h

/-- The first row of its pool, which enters the pool. -/
def FirstOfPool (rows : List BackendRow) (row : BackendRow) : Prop :=
  rows.find? (fun other => rowPoolRouteId (rowOauthIds rows) other = rowPoolRouteId (rowOauthIds rows) row)
    = some row

/-- The pool that a row enters, as it is published. -/
def backendPool (rows : List BackendRow) (credentials : List (BackendRow × Credential)) (row : BackendRow) :
    PoolRoute :=
  { pairPool (rowOauthIds rows) row.pair with
    priority := asI32 (pairPool (rowOauthIds rows) row.pair).priority
    available := rowPoolRouteId (rowOauthIds rows) row
      ∈ credentials.map fun published => rowPoolRouteId (rowOauthIds rows) published.1 }

section

variable {env : BackendEnv} {rows : List BackendRow} {published : PublishedBackend} {row first : BackendRow}

theorem FirstOfPool.mem (h : FirstOfPool rows first) : first ∈ rows := List.mem_of_find?_eq_some h

/-- Every row has a pool. -/
theorem exists_firstOfPool (hrow : row ∈ rows) : ∃ first, FirstOfPool rows first
    ∧ rowPoolRouteId (rowOauthIds rows) first = rowPoolRouteId (rowOauthIds rows) row := by
  cases hfind : rows.find? fun other =>
      rowPoolRouteId (rowOauthIds rows) other = rowPoolRouteId (rowOauthIds rows) row with
  | none =>
    have hnone := List.find?_eq_none.mp hfind row hrow
    simp at hnone
  | some first =>
    have hid : rowPoolRouteId (rowOauthIds rows) first = rowPoolRouteId (rowOauthIds rows) row := by
      simpa using List.find?_some hfind
    refine ⟨first, ?_, hid⟩
    rw [FirstOfPool, hid]
    exact hfind

theorem slash_notMem_rowPoolRouteId (oauthIds : List ℤ) (row : BackendRow) :
    '/' ∉ (rowPoolRouteId oauthIds row).toList := by
  rw [rowPoolRouteId, pairPoolRouteId]
  exact slash_notMem_poolRouteId _ _ _ _

/-- The pool of a row, with its availability. -/
theorem markAvailable_row (credentials : List (BackendRow × Credential)) (row : BackendRow) :
    markAvailable (credentials.map fun published => rowPoolRouteId (rowOauthIds rows) published.1)
        { pairPool (rowOauthIds rows) row.pair with
          priority := asI32 (pairPool (rowOauthIds rows) row.pair).priority }
      = backendPool rows credentials row := by
  have hid : ({ pairPool (rowOauthIds rows) row.pair with
      priority := asI32 (pairPool (rowOauthIds rows) row.pair).priority } : PoolRoute).poolId
        = poolIdOf (rowPoolRouteId (rowOauthIds rows) row) row.1.route.targetPlatform := rfl
  rw [markAvailable_of_poolId (slash_notMem_rowPoolRouteId _ _) hid, backendPool]

/-- The pools are those of the first rows. -/
theorem mem_backendPools {credentials : List (BackendRow × Credential)} {pool : PoolRoute} :
    pool ∈ backendPools rows credentials
      ↔ ∃ first, FirstOfPool rows first ∧ pool = backendPool rows credentials first := by
  have hfind : ∀ row : BackendRow, (rows.map BackendRow.pair).find? (fun q =>
        decide (pairPoolRouteId (rowOauthIds rows) q = pairPoolRouteId (rowOauthIds rows) row.pair))
      = (rows.find? fun other => rowPoolRouteId (rowOauthIds rows) other
        = rowPoolRouteId (rowOauthIds rows) row).map BackendRow.pair := by
    intro row
    rw [List.find?_map]
    rfl
  rw [backendPools, ← rowOauthIds, List.mem_map]
  constructor
  · rintro ⟨entered, hentered, rfl⟩
    obtain ⟨pair, hpair, rfl, hfirst⟩ := find?_of_mem_poolRoutes hentered
    obtain ⟨row, -, rfl⟩ := List.mem_map.mp hpair
    rw [hfind row, Option.map_eq_some_iff] at hfirst
    obtain ⟨first, hfirst, hsame⟩ := hfirst
    have hid : rowPoolRouteId (rowOauthIds rows) first = rowPoolRouteId (rowOauthIds rows) row := by
      rw [rowPoolRouteId, rowPoolRouteId, hsame]
    refine ⟨first, ?_, ?_⟩
    · rw [FirstOfPool, hid]
      exact hfirst
    · rw [← hsame]
      exact markAvailable_row credentials first
  · rintro ⟨first, hfirst, rfl⟩
    obtain ⟨pair, -, hid, hmem, hpair⟩ := exists_mem_poolRoutes (rowOauthIds rows)
      (List.mem_map_of_mem hfirst.mem)
    have hsame : pair = first.pair := by
      rw [hid, hfind first, hfirst, Option.map_some, Option.some.injEq] at hpair
      exact hpair.symm
    rw [hsame] at hmem
    exact ⟨_, hmem, markAvailable_row credentials first⟩

theorem mem_table_iff (h : syncBackendEx env rows = .ok published) {pool : PoolRoute} :
    pool ∈ published.table.routes
      ↔ ∃ first, FirstOfPool rows first ∧ pool = backendPool rows published.credentials first := by
  have hnew := (syncBackendEx_ok h).2.1
  rw [routes_of_new hnew, List.mem_insertionSort, List.mem_filter, mem_backendPools]
  constructor
  · exact fun hpool => hpool.1
  · rintro ⟨first, hfirst, rfl⟩
    exact ⟨⟨first, hfirst, rfl⟩, rfl⟩

/-- Two pools of the table with one prefix are one pool. -/
theorem pool_eq (h : syncBackendEx env rows = .ok published) {pool other : PoolRoute}
    (hpool : pool ∈ published.table.routes) (hother : other ∈ published.table.routes)
    (heq : pool.pfx = other.pfx) : pool = other :=
  List.inj_on_of_nodup_map (nodup_prefixes (syncBackendEx_ok h).2.1) hpool hother heq

/-- The prefixes of the rows are safe, and they name the pools. -/
structure PrefixesAccepted (rows : List BackendRow) : Prop where
  safe : ∀ row ∈ rows, rejectedPrefix (rowPrefix (rowOauthIds rows) row) = false
  differ : ∀ row ∈ rows, ∀ other ∈ rows,
    rowPrefix (rowOauthIds rows) row = rowPrefix (rowOauthIds rows) other →
      rowPoolRouteId (rowOauthIds rows) row = rowPoolRouteId (rowOauthIds rows) other

/-- No two pools are entered under one pool route id. -/
theorem nodup_backendPools (rows : List BackendRow) (credentials : List (BackendRow × Credential)) :
    ((backendPools rows credentials).map (·.poolId)).Nodup := by
  have hid : ∀ available (pool : PoolRoute), (markAvailable available pool).poolId = pool.poolId := by
    intro available pool
    rw [markAvailable]
    split
    · rfl
    · rfl
  rw [backendPools, poolRoutes, List.map_map, List.map_map]
  refine List.Nodup.map_on ?_ (List.Nodup.of_map Prod.fst nodup_collectNew.1)
  intro entered hentered entered' hentered' heq
  simp only [Function.comp_apply, hid] at heq
  refine List.inj_on_of_nodup_map nodup_collectNew.1 hentered hentered' ?_
  obtain ⟨pair, -, hpair⟩ := mem_collectNew hentered
  obtain ⟨pair', -, hpair'⟩ := mem_collectNew hentered'
  rw [← Option.some.inj hpair, ← Option.some.inj hpair'] at heq ⊢
  rw [pairPool_poolId, pairPool_poolId] at heq
  exact poolIdOf_inj (slash_notMem_poolRouteId _ _ _ _) (slash_notMem_poolRouteId _ _ _ _) heq

/-- When the table is built. -/
theorem exists_table_iff (hjoined : Joined rows) {credentials : List (BackendRow × Credential)} :
    (∃ table, RouteTable.new (backendPools rows credentials) = .ok table) ↔ PrefixesAccepted rows := by
  have hpool : ∀ row : BackendRow, (backendPool rows credentials row).pfx = rowPrefix (rowOauthIds rows) row :=
    fun _ => rfl
  rw [exists_new_iff]
  · constructor
    · rintro ⟨hsafe, hnodup⟩
      refine ⟨?_, ?_⟩
      · intro row hrow
        obtain ⟨first, hfirst, hid⟩ := exists_firstOfPool hrow
        rw [← rowPrefix_eq hjoined hfirst.mem hrow hid, ← hpool]
        exact hsafe _ (mem_backendPools.mpr ⟨first, hfirst, rfl⟩)
      · intro row hrow other hother heq
        obtain ⟨first, hfirst, hid⟩ := exists_firstOfPool hrow
        obtain ⟨first', hfirst', hid'⟩ := exists_firstOfPool hother
        have hpfx : rowPrefix (rowOauthIds rows) first = rowPrefix (rowOauthIds rows) first' := by
          rw [rowPrefix_eq hjoined hfirst.mem hrow hid, rowPrefix_eq hjoined hfirst'.mem hother hid', heq]
        have hpools := List.inj_on_of_nodup_map hnodup (mem_backendPools.mpr ⟨first, hfirst, rfl⟩)
          (mem_backendPools.mpr ⟨first', hfirst', rfl⟩) hpfx
        have hids : poolIdOf (rowPoolRouteId (rowOauthIds rows) first) first.1.route.targetPlatform
            = poolIdOf (rowPoolRouteId (rowOauthIds rows) first') first'.1.route.targetPlatform :=
          congrArg PoolRoute.poolId hpools
        have hfirsts := poolIdOf_inj (slash_notMem_rowPoolRouteId _ _) (slash_notMem_rowPoolRouteId _ _) hids
        rw [← hid, ← hid', hfirsts]
    · rintro ⟨hsafe, hdiffer⟩
      constructor
      · intro pool hmem
        obtain ⟨first, hfirst, rfl⟩ := mem_backendPools.mp hmem
        exact hsafe first hfirst.mem
      · refine List.Nodup.map_on ?_ (List.Nodup.of_map _ (nodup_backendPools rows credentials))
        intro pool hmem pool' hmem' heq
        obtain ⟨first, hfirst, rfl⟩ := mem_backendPools.mp hmem
        obtain ⟨first', hfirst', rfl⟩ := mem_backendPools.mp hmem'
        have hid := hdiffer first hfirst.mem first' hfirst'.mem heq
        rw [FirstOfPool, hid, hfirst', Option.some.injEq] at hfirst
        rw [hfirst]
  · intro pool hmem
    obtain ⟨first, -, rfl⟩ := mem_backendPools.mp hmem
    rfl

/-- Rows with one prefix are rows of one pool. -/
theorem poolRouteId_eq (hjoined : Joined rows) (h : syncBackendEx env rows = .ok published)
    {other : BackendRow} (hrow : row ∈ rows) (hother : other ∈ rows)
    (heq : rowPrefix (rowOauthIds rows) row = rowPrefix (rowOauthIds rows) other) :
    rowPoolRouteId (rowOauthIds rows) row = rowPoolRouteId (rowOauthIds rows) other :=
  ((exists_table_iff hjoined).mp ⟨_, (syncBackendEx_ok h).2.1⟩).differ row hrow other hother heq

/-- The pool of a row is the only one with its prefix, and it has the public model of its route. -/
theorem exists_pool (hjoined : Joined rows) (h : syncBackendEx env rows = .ok published) (hrow : row ∈ rows) :
    ∃ pool ∈ published.table.routes, pool.pfx = rowPrefix (rowOauthIds rows) row
      ∧ pool.publicModel = row.1.route.publicModel
      ∧ ∀ other ∈ published.table.routes, other.pfx = rowPrefix (rowOauthIds rows) row → other = pool := by
  obtain ⟨first, hfirst, hid⟩ := exists_firstOfPool hrow
  have hpfx := rowPrefix_eq hjoined hfirst.mem hrow hid
  have hroute := hjoined.route first hfirst.mem row hrow (routeId_eq hid)
  have hmem := (mem_table_iff h).mpr ⟨first, hfirst, rfl⟩
  refine ⟨_, hmem, hpfx, congrArg (·.route.publicModel) hroute, ?_⟩
  intro other hother heq
  exact pool_eq h hother hmem (heq.trans hpfx.symm)

end

/-! ## Usable credentials -/

/-- A document is there that can be written under the name of its replica. -/
def UsableDocument (env : BackendEnv) (row : BackendRow) : Prop :=
  ∃ name entries authType, env.fileName row.2.authFile = some name
    ∧ sourceDocument env row.2 name = .ok (some (.object entries))
    ∧ (Value.object entries).getStr "type" = some authType ∧ authType ≠ ""
    ∧ authIndexIsSafe (replicaStem row authType) = true ∧ env.writes (replicaStem row authType) = true

/-- The account of a row has a credential that can be used. -/
def Usable (env : BackendEnv) (row : BackendRow) : Prop :=
  if row.2.accountType = .oauth then UsableDocument env row else ∃ secret, env.secret row.2.id = some secret

section

variable {env : BackendEnv} {oauthIds : List ℤ} {rows : List BackendRow} {published : PublishedBackend}
  {row : BackendRow}

theorem exists_replicaOf_iff (env : BackendEnv) (row : BackendRow) (poolPrefix : String) (document : Value) :
    (∃ replica, replicaOf env row poolPrefix document = some replica)
    ↔ ∃ entries authType, document = .object entries ∧ (Value.object entries).getStr "type" = some authType
      ∧ authType ≠ "" ∧ authIndexIsSafe (replicaStem row authType) = true
      ∧ env.writes (replicaStem row authType) = true := by
  rw [replicaOf]
  cases htype : document.getStr "type" with
  | none =>
    rw [Option.getD_none, if_pos rfl]
    constructor
    · rintro ⟨replica, hreplica⟩
      cases hreplica
    · rintro ⟨entries, authType, rfl, hsome, -⟩
      rw [htype] at hsome
      cases hsome
  | some authType =>
    obtain ⟨entries, rfl⟩ : ∃ entries, document = .object entries := by
      cases document with
      | object entries => exact ⟨entries, rfl⟩
      | _ => cases htype
    rw [Option.getD_some]
    by_cases hempty : authType = ""
    · rw [if_pos hempty]
      constructor
      · rintro ⟨replica, hreplica⟩
        cases hreplica
      · rintro ⟨entries', authType', heq, hsome, hne, -⟩
        rw [← heq, htype, Option.some.injEq] at hsome
        exact absurd (hsome ▸ hempty) hne
    · rw [if_neg hempty]
      constructor
      · rintro ⟨replica, hreplica⟩
        split at hreplica
        · rename_i hwritten
          rw [Bool.and_eq_true] at hwritten
          exact ⟨entries, authType, rfl, htype, hempty, hwritten⟩
        · cases hreplica
      · rintro ⟨entries', authType', heq, hsome, -, hsafe, hwrites⟩
        rw [← heq, htype, Option.some.injEq] at hsome
        rw [← hsome] at hsafe hwrites
        exact ⟨_, if_pos (by rw [hsafe, hwrites]; rfl)⟩

/-- The rows that get a credential. -/
theorem exists_credential_iff : (∃ credential, credentialOf env oauthIds row = .ok (some credential))
    ↔ rowMatches row = true ∧ Usable env row := by
  rw [credentialOf, Usable]
  cases hmatches : rowMatches row with
  | false => simp
  | true =>
    simp only [Bool.not_true, Bool.false_eq_true, if_false, true_and]
    by_cases htype : row.2.accountType = .oauth
    · rw [if_pos htype, if_pos htype, UsableDocument]
      cases hname : env.fileName row.2.authFile with
      | none => simp
      | some name =>
        simp only [Option.some.injEq]
        cases hdocument : sourceDocument env row.2 name with
        | error e => simp [hdocument]
        | ok document =>
          cases document with
          | none => simp [hdocument]
          | some document =>
            have hiff := exists_replicaOf_iff env row (rowPrefix oauthIds row) document
            simp only [Except.ok.injEq, Option.map_eq_some_iff]
            constructor
            · rintro ⟨credential, replica, hreplica, -⟩
              obtain ⟨entries, authType, rfl, hrest⟩ := hiff.mp ⟨replica, hreplica⟩
              exact ⟨name, entries, authType, rfl, hdocument, hrest⟩
            · rintro ⟨name', entries, authType, rfl, hsource, hrest⟩
              rw [hdocument, Except.ok.injEq, Option.some.injEq] at hsource
              obtain ⟨replica, hreplica⟩ := hiff.mpr ⟨entries, authType, hsource, hrest⟩
              exact ⟨_, replica, hreplica, rfl⟩
    · rw [if_neg htype, if_neg htype]
      cases env.secret row.2.id with
      | none => simp
      | some secret => simp

/-- The published rows are those that match and have a credential. -/
theorem exists_published_iff (h : syncBackendEx env rows = .ok published) :
    (∃ credential, (row, credential) ∈ published.credentials)
      ↔ row ∈ rows ∧ rowMatches row = true ∧ Usable env row := by
  rw [← @exists_credential_iff env (rowOauthIds rows) row]
  constructor
  · rintro ⟨credential, hmem⟩
    obtain ⟨hrow, hcredential⟩ := (mem_collect (syncBackendEx_ok h).1).mp hmem
    exact ⟨hrow, credential, hcredential⟩
  · rintro ⟨hrow, credential, hcredential⟩
    exact ⟨credential, (mem_collect (syncBackendEx_ok h).1).mpr ⟨hrow, hcredential⟩⟩

end

/-! ## What the table says -/

/-- A pool is available when a row that matches has been handed to the CLI under its prefix. -/
def PoolsAvailable (rows : List BackendRow) (published : PublishedBackend) : Prop :=
  ∀ pool ∈ published.table.routes, pool.available = true
    ↔ ∃ row ∈ rows, rowMatches row = true ∧ published.HandedUnder pool.pfx row

/-- A row of the pool that OAuth accounts leave to the others. -/
def FallbackRow (rows : List BackendRow) (row : BackendRow) : Prop :=
  row.1.id ∈ rowOauthIds rows ∧ row.2.accountType ≠ .oauth

/-- A pool that is not such a pool has the best displayed priority of the accounts in it. -/
def BestPriorities (rows : List BackendRow) (published : PublishedBackend) : Prop :=
  ∀ pool ∈ published.table.routes,
    (∀ row ∈ rows, rowPrefix (rowOauthIds rows) row = pool.pfx → ¬ FallbackRow rows row) →
    (∃ row, published.HandedUnder pool.pfx row) →
    IsLeast {p | ∃ row, published.HandedUnder pool.pfx row ∧ p = displayPriority (asI32 row.2.priority)} pool.priority

/-- One pool has the prefix, and its public model is shown. -/
def OnePool (table : RouteTable) (pfx : String) (shown : String → Prop) : Prop :=
  ∃ pool ∈ table.routes, pool.pfx = pfx ∧ shown pool.publicModel
    ∧ ∀ other ∈ table.routes, other.pfx = pfx → other = pool

/-- The aliases of a replica. -/
def Replica.aliases (replica : Replica) : List Value := (replica.document.getArray "model_aliases").getD []

/-- Every credential has the prefix of one pool and shows its public model. -/
def OneModelEach (published : PublishedBackend) : Prop :=
  (∀ entry ∈ published.config, OnePool published.table entry.pfx (· = entry.modelAlias))
    ∧ ∀ row replica, (row, .replica replica) ∈ published.credentials →
      ∃ pfx, replica.document.getStr "prefix" = some pfx
        ∧ OnePool published.table pfx (HasAlias replica.aliases)

/-- The priority of a pool's first row, as it is stored, is the best displayed one of the accounts
that share the pool and are usable. -/
def FirstIsBest (env : BackendEnv) (rows : List BackendRow) : Prop :=
  ∀ first, FirstOfPool rows first → ¬ FallbackRow rows first →
    (∃ row ∈ rows, rowPoolRouteId (rowOauthIds rows) row = rowPoolRouteId (rowOauthIds rows) first
      ∧ rowMatches row = true ∧ Usable env row) →
    IsLeast {p | ∃ row ∈ rows, (rowPoolRouteId (rowOauthIds rows) row = rowPoolRouteId (rowOauthIds rows) first
      ∧ rowMatches row = true ∧ Usable env row) ∧ p = displayPriority (asI32 row.2.priority)}
      (asI32 (max first.2.priority 1))

/-- The auth file of an account has this alias already. -/
def SourceLists (env : BackendEnv) (row : BackendRow) (shown : String) : Prop :=
  ∃ name document, env.fileName row.2.authFile = some name ∧ sourceDocument env row.2 name = .ok (some document)
    ∧ HasAlias ((document.getArray "model_aliases").getD []) shown

/-- The public models of OAuth accounts are not changed by trimming. -/
def ModelsShown (env : BackendEnv) (rows : List BackendRow) : Prop :=
  ∀ row ∈ rows, row.2.accountType = .oauth → rowMatches row = true → Usable env row →
    trim row.1.route.publicModel = row.1.route.publicModel ∧ row.1.route.publicModel ≠ ""
      ∨ SourceLists env row row.1.route.publicModel

section

variable {env : BackendEnv} {rows : List BackendRow} {published : PublishedBackend} {row first : BackendRow}

/-- The rows handed under the prefix of a pool are the usable ones of the pool. -/
theorem handedUnder_pool_iff (hjoined : Joined rows) (h : syncBackendEx env rows = .ok published)
    (hfirst : FirstOfPool rows first) :
    published.HandedUnder (rowPrefix (rowOauthIds rows) first) row ↔ row ∈ rows
      ∧ rowPoolRouteId (rowOauthIds rows) row = rowPoolRouteId (rowOauthIds rows) first
      ∧ rowMatches row = true ∧ Usable env row := by
  rw [handedUnder_iff h, exists_published_iff h]
  constructor
  · rintro ⟨⟨hrow, husable⟩, hpfx⟩
    exact ⟨hrow, poolRouteId_eq hjoined h hrow hfirst.mem hpfx, husable⟩
  · rintro ⟨hrow, hid, husable⟩
    exact ⟨⟨hrow, husable⟩, rowPrefix_eq hjoined hrow hfirst.mem hid⟩

/-- Availability is never wrong. -/
theorem poolsAvailable (hjoined : Joined rows) (h : syncBackendEx env rows = .ok published) :
    PoolsAvailable rows published := by
  intro pool hpool
  obtain ⟨first, hfirst, rfl⟩ := (mem_table_iff h).mp hpool
  have hpfx : (backendPool rows published.credentials first).pfx = rowPrefix (rowOauthIds rows) first := rfl
  rw [hpfx, backendPool, decide_eq_true_eq, List.mem_map]
  constructor
  · rintro ⟨⟨row, credential⟩, hmem, hid⟩
    obtain ⟨hrow, hmatches, husable⟩ := (exists_published_iff h).mp ⟨credential, hmem⟩
    exact ⟨row, hrow, hmatches, (handedUnder_pool_iff hjoined h hfirst).mpr ⟨hrow, hid, hmatches, husable⟩⟩
  · rintro ⟨row, -, -, hhanded⟩
    obtain ⟨hrow, hid, husable⟩ := (handedUnder_pool_iff hjoined h hfirst).mp hhanded
    obtain ⟨credential, hmem⟩ := (exists_published_iff h).mpr ⟨hrow, husable⟩
    exact ⟨(row, credential), hmem, hid⟩

/-- The rows of a pool are all of OAuth accounts or none is. -/
theorem fallbackRow_congr {oauthIds : List ℤ} {other : BackendRow}
    (h : rowPoolRouteId oauthIds row = rowPoolRouteId oauthIds other) :
    row.2.accountType = .oauth → other.2.accountType = .oauth := by
  intro htype
  by_contra hother
  have hapi : other.2.accountType = .apikey := by
    cases hcases : other.2.accountType with
    | oauth => exact absurd hcases hother
    | apikey => rfl
  rw [rowPoolRouteId, rowPoolRouteId, pairPoolRouteId, pairPoolRouteId] at h
  simp only [BackendRow.pair, StoredAccount.account, htype, hapi] at h
  exact poolRouteId_oauth_ne_api _ _ _ _ _ _ h

theorem fallbackRow_iff {other : BackendRow}
    (h : rowPoolRouteId (rowOauthIds rows) row = rowPoolRouteId (rowOauthIds rows) other) :
    FallbackRow rows row ↔ FallbackRow rows other := by
  rw [FallbackRow, FallbackRow, routeId_eq h]
  constructor
  · exact fun hrow => ⟨hrow.1, fun htype => hrow.2 (fallbackRow_congr h.symm htype)⟩
  · exact fun hrow => ⟨hrow.1, fun htype => hrow.2 (fallbackRow_congr h htype)⟩

/-- A pool that is not left to the others has the priority of its first row. -/
theorem priority_of_first {credentials : List (BackendRow × Credential)} (h : ¬ FallbackRow rows first) :
    (backendPool rows credentials first).priority = asI32 (max first.2.priority 1) := by
  have hpriority : (pairPool (rowOauthIds rows) first.pair).priority = max first.2.priority 1 := by
    have hcond : ¬ ((decide (first.pair.1.id ∈ rowOauthIds rows) && first.pair.2.accountType ≠ .oauth) = true) := by
      intro hfallback
      rw [Bool.and_eq_true, decide_eq_true_eq, decide_eq_true_eq] at hfallback
      exact h hfallback
    rw [pairPool]
    exact if_neg hcond
  rw [backendPool, hpriority]

theorem bestPriorities_iff (hjoined : Joined rows) (h : syncBackendEx env rows = .ok published) :
    BestPriorities rows published ↔ FirstIsBest env rows := by
  constructor
  · intro hbest first hfirst hfallback hshared
    have hpool := (mem_table_iff h).mpr ⟨first, hfirst, rfl⟩
    have hleast := hbest _ hpool ?_ ?_
    · rw [priority_of_first hfallback] at hleast
      convert hleast using 1
      ext p
      refine exists_congr fun row => ?_
      rw [← and_assoc]
      exact and_congr_left fun _ => (handedUnder_pool_iff hjoined h hfirst).symm
    · intro row hrow hpfx
      rwa [fallbackRow_iff (poolRouteId_eq hjoined h hrow hfirst.mem hpfx)]
    · obtain ⟨row, hrow, hshared⟩ := hshared
      exact ⟨row, (handedUnder_pool_iff hjoined h hfirst).mpr ⟨hrow, hshared⟩⟩
  · intro hbest pool hpool hfallback hhanded
    obtain ⟨first, hfirst, rfl⟩ := (mem_table_iff h).mp hpool
    have hfallback := hfallback first hfirst.mem rfl
    obtain ⟨row, hrow⟩ := hhanded
    have hleast := hbest first hfirst hfallback
      ⟨row, ((handedUnder_pool_iff hjoined h hfirst).mp hrow).1, ((handedUnder_pool_iff hjoined h hfirst).mp hrow).2⟩
    rw [priority_of_first hfallback]
    convert hleast using 1
    ext p
    refine exists_congr fun row => ?_
    rw [← and_assoc]
    exact and_congr_left fun _ => handedUnder_pool_iff hjoined h hfirst

/-- The pool of a row shows what the public model of its route shows. -/
theorem onePool_iff (hjoined : Joined rows) (h : syncBackendEx env rows = .ok published) (hrow : row ∈ rows)
    {shown : String → Prop} : OnePool published.table (rowPrefix (rowOauthIds rows) row) shown
      ↔ shown row.1.route.publicModel := by
  obtain ⟨pool, hpool, hpfx, hmodel, honly⟩ := exists_pool hjoined h hrow
  rw [← hmodel]
  constructor
  · rintro ⟨pool', hpool', hpfx', hshown, -⟩
    rwa [honly pool' hpool' hpfx'] at hshown
  · exact fun hshown => ⟨pool, hpool, hpfx, hshown, honly⟩

/-- What a replica shows of its route. -/
theorem hasAlias_replica_iff (h : syncBackendEx env rows = .ok published) {replica : Replica}
    (hmem : (row, .replica replica) ∈ published.credentials) :
    HasAlias replica.aliases row.1.route.publicModel ↔ SourceLists env row row.1.route.publicModel
      ∨ trim row.1.route.publicModel = row.1.route.publicModel ∧ row.1.route.publicModel ≠ "" := by
  obtain ⟨-, hcredential⟩ := (mem_collect (syncBackendEx_ok h).1).mp hmem
  obtain ⟨-, name, entries, hname, hsource, hdocument⟩ := exists_of_replica hcredential
  obtain ⟨entries', heq, -, haliases⟩ := exists_replicaDocument env row (rowPrefix (rowOauthIds rows) row)
    replica.authType entries
  have hlisted : replica.aliases = (oauthReplicaAliases (rowPrefix (rowOauthIds rows) row) row.1.route.publicModel).foldl
      (pushOauthReplicaAlias (env.upstreamOf row replica.authType))
      (((Value.object entries).getArray "model_aliases").getD []) := by
    rw [Replica.aliases, hdocument, heq, Value.getArray, Value.get, haliases]
    rfl
  rw [hlisted, hasAlias_foldl, rowPrefix, mem_oauthReplicaAliases_iff]
  refine or_congr_left ?_
  constructor
  · exact fun halias => ⟨name, _, hname, hsource, halias⟩
  · rintro ⟨name', document', hname', hsource', halias⟩
    rw [hname, Option.some.injEq] at hname'
    rw [← hname', hsource, Except.ok.injEq, Option.some.injEq] at hsource'
    rwa [← hsource'] at halias

theorem replica_of_oauth {replica : Replica} {oauthIds : List ℤ}
    (h : credentialOf env oauthIds row = .ok (some (.replica replica))) : row.2.accountType = .oauth := by
  rw [credentialOf] at h
  split at h
  · cases h
  · split at h
    · assumption
    · rw [Except.ok.injEq, Option.map_eq_some_iff] at h
      obtain ⟨secret, -, heq⟩ := h
      cases heq

theorem oneModelEach_iff (hjoined : Joined rows) (h : syncBackendEx env rows = .ok published) :
    OneModelEach published ↔ ModelsShown env rows := by
  have hentries : ∀ entry ∈ published.config, OnePool published.table entry.pfx (· = entry.modelAlias) := by
    intro entry hentry
    obtain ⟨row, target, hmem, hcompiled⟩ := (mem_config_iff h).mp hentry
    obtain ⟨hrow, hcredential⟩ := (mem_collect (syncBackendEx_ok h).1).mp hmem
    obtain ⟨-, -, secret, -, htarget⟩ := target_iff.mp hcredential
    obtain ⟨hpfx, halias⟩ := cliEntry_of_compileTarget hcompiled
    rw [hpfx, prefix_of_target h hmem, onePool_iff hjoined h hrow, halias, htarget]
    rfl
  rw [OneModelEach, and_iff_right hentries]
  constructor
  · intro hreplicas row hrow htype hmatches husable
    obtain ⟨credential, hmem⟩ := (exists_published_iff h).mpr ⟨hrow, hmatches, husable⟩
    obtain ⟨-, hcredential⟩ := (mem_collect (syncBackendEx_ok h).1).mp hmem
    cases credential with
    | target target =>
      have hapi := (target_iff.mp hcredential).2.1
      rw [htype] at hapi
      cases hapi
    | replica replica =>
      obtain ⟨pfx, hpfx, hone⟩ := hreplicas row replica hmem
      rw [prefix_of_replica h hmem, Option.some.injEq] at hpfx
      rw [← hpfx, onePool_iff hjoined h hrow, hasAlias_replica_iff h hmem] at hone
      exact hone.symm
  · intro hshown row replica hmem
    obtain ⟨hrow, hcredential⟩ := (mem_collect (syncBackendEx_ok h).1).mp hmem
    obtain ⟨-, hmatches, husable⟩ := (exists_published_iff h).mp ⟨_, hmem⟩
    refine ⟨_, prefix_of_replica h hmem, ?_⟩
    rw [onePool_iff hjoined h hrow, hasAlias_replica_iff h hmem]
    exact (hshown row hrow (replica_of_oauth hcredential) hmatches husable).symm

/-- **The table and the credentials**: a pool is available exactly when something was handed out
under its prefix; its priority is the best of its accounts when its first row has the best one as it
is stored, and every credential shows the model of its one pool when trimming does not change the
models of the OAuth accounts. -/
theorem publication_iff (hjoined : Joined rows) (h : syncBackendEx env rows = .ok published) :
    (PoolsAvailable rows published ∧ BestPriorities rows published ∧ OneModelEach published)
      ↔ FirstIsBest env rows ∧ ModelsShown env rows := by
  rw [and_iff_right (poolsAvailable hjoined h), bestPriorities_iff hjoined h, oneModelEach_iff hjoined h]

end

/-! ## Runs -/

namespace PublicationRun

/-- Account n has the secret `sk-n`, but account 3 has none; there are no auth files. -/
def env : BackendEnv where
  fileName path := if path = "" then none else some path
  authDocument _ := none
  desktopTokens := none
  secret id := if id = 3 then none else some ("sk-" ++ toString id)
  writes _ := true
  upstreamOf row _ := row.1.route.upstreamModel
  cliFileIndex _ := none
  fileAuthIndex _ name := name
  digest seed := seed
  downstreamKey := "router"
  managementSecret := "management"

/-- The route of a model of OpenAI. -/
def routeOf (id : ℤ) (model : String) : RouteRow := ⟨id, ⟨model, model, "openai", 100⟩⟩

/-- An API account of a relay. -/
def accountOf (id : ℤ) (status : String) (priority : ℤ) : StoredAccount where
  id := id
  platform := "openai"
  accountType := .apikey
  status := status
  schedulable := true
  priority := priority
  weight := 1
  authFile := ""
  payload := some ⟨some [("gpt-5.6-sol", "gpt-5.6-sol")], none, some "https://relay.example", none, []⟩
  joinedProxyUrl := none

/-- Two accounts on one route. -/
def rowsOf (first second : StoredAccount) : List BackendRow :=
  [(routeOf 1 "gpt-5.6-sol", first), (routeOf 1 "gpt-5.6-sol", second)]

/-- The first account is as good as the second one. -/
theorem publication_of_best : ∃ published,
    syncBackendEx env (rowsOf (accountOf 1 "active" 3) (accountOf 2 "active" 5)) = .ok published
      ∧ ((PoolsAvailable (rowsOf (accountOf 1 "active" 3) (accountOf 2 "active" 5)) published
          ∧ BestPriorities (rowsOf (accountOf 1 "active" 3) (accountOf 2 "active" 5)) published
          ∧ OneModelEach published)
        ↔ FirstIsBest env (rowsOf (accountOf 1 "active" 3) (accountOf 2 "active" 5))
          ∧ ModelsShown env (rowsOf (accountOf 1 "active" 3) (accountOf 2 "active" 5))) := by
  have hjoined : Joined (rowsOf (accountOf 1 "active" 3) (accountOf 2 "active" 5)) :=
    ⟨by decide +kernel, by decide +kernel, by decide +kernel⟩
  have hok : (syncBackendEx env (rowsOf (accountOf 1 "active" 3) (accountOf 2 "active" 5))).isOk = true := by
    decide +kernel
  cases hrun : syncBackendEx env (rowsOf (accountOf 1 "active" 3) (accountOf 2 "active" 5)) with
  | error e =>
    rw [hrun] at hok
    cases hok
  | ok published => exact ⟨published, rfl, publication_iff hjoined hrun⟩

/-- The priority of a disabled account stays with the pool. -/
theorem priority_of_disabled : ∃ published,
    Joined (rowsOf (accountOf 1 "disabled" 1) (accountOf 2 "active" 5))
      ∧ syncBackendEx env (rowsOf (accountOf 1 "disabled" 1) (accountOf 2 "active" 5)) = .ok published
      ∧ ¬ BestPriorities (rowsOf (accountOf 1 "disabled" 1) (accountOf 2 "active" 5)) published := by
  have hjoined : Joined (rowsOf (accountOf 1 "disabled" 1) (accountOf 2 "active" 5)) :=
    ⟨by decide +kernel, by decide +kernel, by decide +kernel⟩
  have hok : (syncBackendEx env (rowsOf (accountOf 1 "disabled" 1) (accountOf 2 "active" 5))).isOk = true := by
    decide +kernel
  cases hrun : syncBackendEx env (rowsOf (accountOf 1 "disabled" 1) (accountOf 2 "active" 5)) with
  | error e =>
    rw [hrun] at hok
    cases hok
  | ok published =>
    refine ⟨published, hjoined, rfl, ?_⟩
    rw [bestPriorities_iff hjoined hrun]
    intro hbest
    have hleast := hbest (routeOf 1 "gpt-5.6-sol", accountOf 1 "disabled" 1)
      (by rw [FirstOfPool]; decide +kernel)
      (fun hfallback => absurd hfallback.1 (by decide +kernel))
      ⟨(routeOf 1 "gpt-5.6-sol", accountOf 2 "active" 5), by decide +kernel, by decide +kernel, by decide +kernel,
        ⟨_, rfl⟩⟩
    -- only the second account is published, and its priority is 5
    obtain ⟨row, hrow, ⟨-, hmatches, -⟩, hpriority⟩ := hleast.1
    have hrows : row = (routeOf 1 "gpt-5.6-sol", accountOf 1 "disabled" 1)
        ∨ row = (routeOf 1 "gpt-5.6-sol", accountOf 2 "active" 5) := by
      simpa [rowsOf] using hrow
    rcases hrows with rfl | rfl
    · exact absurd hmatches (by decide +kernel)
    · exact absurd hpriority (by decide)

end PublicationRun

end CodexRouter
