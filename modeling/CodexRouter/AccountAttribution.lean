/-
# Attribution of usage to accounts

The CLI names a credential by an index, and `cli_index_map` leads from the index to an account.  The
index of an API key is a digest of the section, the base URL and the key (`keySeed`), and the map
keeps the last row with an index.  `attributed_iff` : every published key leads to its account
exactly when no two accounts share section, base URL and key.
-/
import CodexRouter.UnusableAccounts

namespace CodexRouter

open Text

/-! ## The index of an entry -/

section

variable {target : ApiTarget} {entry : CliEntry}

/-- The section and the base URL that the compiler chooses for a target are those of its index. -/
theorem keySeed_of_compileTarget (h : compileTarget target = .ok (some entry)) :
    keySeed target.platform target.baseUrl target.credentialRef
      = entry.cliSection.listName ++ ":" ++ entry.baseUrl ++ "+" ++ trim entry.apiKey := by
  rw [compileTarget] at h
  rw [keySeed, keySeedHead]
  split at h
  · rename_i hbase
    rw [hbase]
    split at h
    · rename_i cliSection hsection
      rw [← Option.some.inj (Except.ok.inj h), hsection]
      simp [cliEntry]
    · cases h
  · rename_i baseUrl hbase
    rw [hbase]
    split at h
    · cases h
    · rename_i hblank
      rw [← Option.some.inj (Except.ok.inj h)]
      simp [cliEntry, Option.filter, hblank]

end

/-! ## The map of indexes -/

section

variable {env : BackendEnv} {credentials : List (BackendRow × Credential)} {index : String} {account : ℤ}

/-- The map after the credentials, from any map. -/
theorem get_foldl_authIndex (m : OrdMap String ℤ) :
    ((credentials.foldl (fun (map : OrdMap String ℤ) published =>
        map.insert (authIndexOf env published.2) published.1.2.id) m).get index = some account
      → m.get index = some account
        ∨ ∃ published ∈ credentials, authIndexOf env published.2 = index ∧ published.1.2.id = account) := by
  induction credentials generalizing m with
  | nil => exact .inl
  | cons first rest ih =>
    intro h
    rcases ih _ h with hget | ⟨published, hmem, hpublished⟩
    · by_cases hindex : index = authIndexOf env first.2
      · rw [hindex, OrdMap.get_insert_self, Option.some.injEq] at hget
        exact .inr ⟨first, List.mem_cons_self, hindex.symm, hget⟩
      · rw [OrdMap.get_insert_ne hindex] at hget
        exact .inl hget
    · exact .inr ⟨published, List.mem_cons_of_mem _ hmem, hpublished⟩

/-- An index that was inserted stays in the map. -/
theorem isSome_foldl_authIndex (m : OrdMap String ℤ)
    (h : (m.get index).isSome = true ∨ ∃ published ∈ credentials, authIndexOf env published.2 = index) :
    ((credentials.foldl (fun (map : OrdMap String ℤ) published =>
        map.insert (authIndexOf env published.2) published.1.2.id) m).get index).isSome = true := by
  induction credentials generalizing m with
  | nil =>
    rcases h with h | ⟨published, hmem, -⟩
    · exact h
    · cases hmem
  | cons first rest ih =>
    rw [List.foldl_cons]
    refine ih _ ?_
    by_cases hindex : index = authIndexOf env first.2
    · left
      rw [hindex, OrdMap.get_insert_self]
      rfl
    · rw [OrdMap.get_insert_ne hindex]
      rcases h with h | ⟨published, hmem, heq⟩
      · exact .inl h
      · rcases List.mem_cons.mp hmem with rfl | hmem
        · exact absurd heq.symm hindex
        · exact .inr ⟨published, hmem, heq⟩

/-- An index leads to an account when some credential has it and all that have it are of the account. -/
theorem get_indexMapOf (hsome : ∃ published ∈ credentials, authIndexOf env published.2 = index)
    (hall : ∀ published ∈ credentials, authIndexOf env published.2 = index → published.1.2.id = account) :
    (indexMapOf env credentials).get index = some account := by
  obtain ⟨found, hfound⟩ := Option.isSome_iff_exists.mp (@isSome_foldl_authIndex env credentials index [] (.inr hsome))
  rcases get_foldl_authIndex [] hfound with hnil | ⟨published, hmem, hindex, rfl⟩
  · cases hnil
  · rw [hall published hmem hindex] at hfound
    exact hfound

end

/-! ## Attribution -/

/-- What the index of an API row is the digest of. -/
def rowSeed (row : BackendRow) (secret : String) : String :=
  keySeed row.1.route.targetPlatform (baseUrlOf row.2) secret

theorem cliKeyAuthIndex_apiTarget (env : BackendEnv) (row : BackendRow) (poolRouteId secret : String) :
    cliKeyAuthIndex env (apiTarget row poolRouteId secret).platform (apiTarget row poolRouteId secret).baseUrl
      (apiTarget row poolRouteId secret).credentialRef = env.digest (rowSeed row secret) := by
  rw [cliKeyAuthIndex, rowSeed, apiTarget]

/-- Every published key leads to the account it was published for. -/
def Attributed (env : BackendEnv) (published : PublishedBackend) : Prop :=
  ∀ row target, (row, .target target) ∈ published.credentials →
    published.cliIndexMap.get (cliKeyAuthIndex env target.platform target.baseUrl target.credentialRef)
      = some row.2.id

/-- The digests of different seeds differ, and those of keys from those of files. -/
structure DigestsDiffer (env : BackendEnv) (published : PublishedBackend) : Prop where
  keys : ∀ row target row' target', (row, .target target) ∈ published.credentials →
    (row', .target target') ∈ published.credentials →
      cliKeyAuthIndex env target.platform target.baseUrl target.credentialRef
        = cliKeyAuthIndex env target'.platform target'.baseUrl target'.credentialRef →
      keySeed target.platform target.baseUrl target.credentialRef
        = keySeed target'.platform target'.baseUrl target'.credentialRef
  files : ∀ row target row' replica, (row, .target target) ∈ published.credentials →
    (row', .replica replica) ∈ published.credentials →
      authIndexOf env (.replica replica) ≠ authIndexOf env (.target target)

/-- No two accounts are published with one section, base URL and key. -/
def KeysApart (env : BackendEnv) (rows : List BackendRow) : Prop :=
  ∀ row ∈ rows, ∀ row' ∈ rows, GivesTarget env row → GivesTarget env row' →
    ∀ secret secret', env.secret row.2.id = some secret → env.secret row'.2.id = some secret' →
      rowSeed row secret = rowSeed row' secret' → row.2.id = row'.2.id

section

variable {env : BackendEnv} {rows : List BackendRow} {published : PublishedBackend}

/-- **Attribution of keys**: all published keys lead to their accounts exactly when no two accounts
share section, base URL and key. -/
theorem attributed_iff (h : syncBackendEx env rows = .ok published) (hdigest : DigestsDiffer env published) :
    Attributed env published ↔ KeysApart env rows := by
  obtain ⟨hcollect, -, -, hmap⟩ := syncBackendEx_ok h
  constructor
  · intro hattributed row hrow row' hrow' hgives hgives' secret secret' hsecret hsecret' hseed
    have htarget : ∀ row ∈ rows, GivesTarget env row → ∀ secret, env.secret row.2.id = some secret →
        (indexMapOf env published.credentials).get (env.digest (rowSeed row secret)) = some row.2.id := by
      rintro row hrow ⟨htype, hmatches, -⟩ secret hsecret
      have hcredential : credentialOf env (rowOauthIds rows) row
          = .ok (some (.target (apiTarget row (rowPoolRouteId (rowOauthIds rows) row) secret))) :=
        target_iff.mpr ⟨hmatches, htype, secret, hsecret, rfl⟩
      have hmem := (mem_collect hcollect).mpr ⟨hrow, hcredential⟩
      have hget := hattributed row _ hmem
      rw [cliKeyAuthIndex_apiTarget, hmap] at hget
      exact hget
    have hget := htarget row hrow hgives secret hsecret
    rw [hseed, htarget row' hrow' hgives' secret' hsecret', Option.some.injEq] at hget
    exact hget.symm
  · intro hapart row target hmem
    obtain ⟨hrow, hcredential⟩ := (mem_collect hcollect).mp hmem
    obtain ⟨hmatches, htype, secret, hsecret, htarget⟩ := target_iff.mp hcredential
    rw [hmap]
    refine get_indexMapOf ⟨_, hmem, rfl⟩ ?_
    rintro ⟨row', credential'⟩ hmem' hindex
    cases credential' with
    | replica replica => exact absurd hindex (hdigest.files row target row' replica hmem hmem')
    | target target' =>
      obtain ⟨hrow', hcredential'⟩ := (mem_collect hcollect).mp hmem'
      obtain ⟨hmatches', htype', secret', hsecret', htarget'⟩ := target_iff.mp hcredential'
      have hseed := hdigest.keys row' target' row target hmem' hmem hindex
      rw [htarget, htarget'] at hseed
      exact hapart row' hrow' row hrow ⟨htype', hmatches', secret', hsecret'⟩ ⟨htype, hmatches, secret, hsecret⟩
        secret' secret hsecret' hsecret hseed

end

/-! ## Runs -/

namespace PublicationRun

/-- Two accounts on one route, each with the key of its own number. -/
abbrev ownKeys : List BackendRow := rowsOf (accountOf 1 "active" 1) (accountOf 2 "active" 2)

/-- All accounts have one key. -/
def sharedEnv : BackendEnv := { env with secret := fun _ => some "sk-shared" }

/-- A target among the published credentials is that of its row. -/
theorem target_of_mem {env : BackendEnv} {rows : List BackendRow} {published : PublishedBackend}
    (h : syncBackendEx env rows = .ok published) {row : BackendRow} {credential : Credential}
    (hmem : (row, credential) ∈ published.credentials) :
    row ∈ rows ∧ credentialOf env (rowOauthIds rows) row = .ok (some credential) :=
  (mem_collect (syncBackendEx_ok h).1).mp hmem

/-- Each of two keys leads to its account. -/
theorem attributed_ownKeys : ∃ published, syncBackendEx env ownKeys = .ok published
    ∧ (Attributed env published ↔ KeysApart env ownKeys) := by
  have hok : (syncBackendEx env ownKeys).isOk = true := by decide +kernel
  have hcredentials : ∀ row ∈ ownKeys, ∀ replica : Replica,
      credentialOf env (rowOauthIds ownKeys) row ≠ .ok (some (.replica replica)) := by
    intro row hrow replica hreplica
    have htype : row.2.accountType = .oauth := replica_of_oauth hreplica
    have hapi : ∀ row ∈ ownKeys, row.2.accountType = .apikey := by decide +kernel
    rw [hapi row hrow] at htype
    cases htype
  cases hrun : syncBackendEx env ownKeys with
  | error e =>
    rw [hrun] at hok
    cases hok
  | ok published =>
    have hdigest : DigestsDiffer env published := by
      constructor
      · intro row target row' target' _ _ h
        exact h
      · intro row target row' replica _ hmem
        obtain ⟨hrow, hreplica⟩ := target_of_mem hrun hmem
        exact absurd hreplica (hcredentials row' hrow replica)
    exact ⟨published, rfl, attributed_iff hrun hdigest⟩

/-- With one key the usage of the first account is the second one's. -/
theorem attributed_to_other : ∃ published, syncBackendEx sharedEnv ownKeys = .ok published
    ∧ (published.credentials.map fun c => c.1.2.id) = [1, 2]
    ∧ published.cliIndexMap.get (cliKeyAuthIndex sharedEnv "openai" (some "https://relay.example") "sk-shared") = some 2
    ∧ ¬ Attributed sharedEnv published := by
  have hrun : (syncBackendEx sharedEnv ownKeys).toOption.map (fun published =>
      ((published.credentials.map fun c => c.1.2.id), published.cliIndexMap.get
        (cliKeyAuthIndex sharedEnv "openai" (some "https://relay.example") "sk-shared"))) = some ([1, 2], some 2) := by
    decide +kernel
  cases hpublished : syncBackendEx sharedEnv ownKeys with
  | error e =>
    rw [hpublished] at hrun
    cases hrun
  | ok published =>
    rw [hpublished] at hrun
    obtain ⟨hids, hget⟩ := Prod.mk.inj (Option.some.inj hrun)
    refine ⟨published, rfl, hids, hget, ?_⟩
    intro hattributed
    have hcredential : credentialOf sharedEnv (rowOauthIds ownKeys) (routeOf 1 "gpt-5.6-sol", accountOf 1 "active" 1)
        = .ok (some (.target (apiTarget (routeOf 1 "gpt-5.6-sol", accountOf 1 "active" 1) "r1" "sk-shared"))) := by
      decide +kernel
    have hmem := (mem_collect (syncBackendEx_ok hpublished).1).mpr ⟨List.mem_cons_self, hcredential⟩
    have hfirst := hattributed _ _ hmem
    have hindex : cliKeyAuthIndex sharedEnv "openai" (some "https://relay.example") "sk-shared"
        = cliKeyAuthIndex sharedEnv "openai" (baseUrlOf (accountOf 1 "active" 1)) "sk-shared" := by
      decide +kernel
    rw [hindex] at hget
    have hboth := hget.symm.trans hfirst
    cases hboth

end PublicationRun

end CodexRouter
