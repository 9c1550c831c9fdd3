/-
# Accounts that cannot be used

A row whose account lacks what a credential is made of is skipped by `syncBackendEx` or ends the
run, and it is counted among the rows all the same: it enters its pool, and an OAuth account makes
the other accounts of its route a fallback.  `unblocked_iff` compares a run with the run over the
remaining rows, and says when these get the same of both.
-/
import CodexRouter.PoolPublication

namespace CodexRouter

open Text

/-! ## Unusable accounts -/

section

variable (env : BackendEnv)

/-- The auth file of an account reads as a document that names its type. -/
def hasDocument (row : BackendRow) : Bool :=
  match env.fileName row.2.authFile with
  | none => false
  | some name =>
    match sourceDocument env row.2 name with
    | .ok (some document) => (document.getStr "type").any (· ≠ "")
    | .ok none => false
    | .error _ => false

/-- An API account without a base URL on a platform that has no list of its own. -/
def lacksBaseUrl (row : BackendRow) : Bool :=
  (baseUrlOf row.2).isNone && (nativeSection row.1.route.targetPlatform).isNone

/-- The account of the row cannot be used for a reason of its own: a payload or an auth file that
does not read, no secret, or no base URL where one is needed. -/
def unusable (row : BackendRow) : Bool :=
  row.2.payload.isNone
    || if row.2.accountType = .oauth then !hasDocument env row
      else (env.secret row.2.id).isNone || lacksBaseUrl row

/-- The rows of the other accounts. -/
def otherRows (rows : List BackendRow) : List BackendRow := rows.filter (!unusable env ·)

end

/-- The pool with this prefix is available. -/
def PoolAvailable (table : RouteTable) (pfx : String) : Prop :=
  ∃ pool ∈ table.routes, pool.pfx = pfx ∧ pool.available = true

/-- The run ends well and publishes for the other rows what the run without the unusable accounts
publishes. -/
def Unblocked (env : BackendEnv) (rows : List BackendRow) (without : PublishedBackend) : Prop :=
  ∃ published, syncBackendEx env rows = .ok published
    ∧ published.credentials.filter (fun c => !unusable env c.1) = without.credentials
    ∧ published.config = without.config
    ∧ ∀ row ∈ otherRows env rows, PoolAvailable published.table (rowPrefix (rowOauthIds rows) row)
      ↔ PoolAvailable without.table (rowPrefix (rowOauthIds (otherRows env rows)) row)

/-! ## Rows over other routes with OAuth -/

section

variable {env : BackendEnv} {oauthIds oauthIds' : List ℤ} {row other : BackendRow}

/-- Which pool a row is in depends on the route and, for an OAuth account, on the account. -/
theorem poolRouteId_eq_iff : rowPoolRouteId oauthIds row = rowPoolRouteId oauthIds other
    ↔ row.1.id = other.1.id ∧ row.2.accountType = other.2.accountType
      ∧ (row.2.accountType = .oauth → row.2.id = other.2.id) := by
  constructor
  · intro h
    have htype : row.2.accountType = other.2.accountType := by
      by_cases hrow : row.2.accountType = .oauth
      · rw [hrow, fallbackRow_congr h hrow]
      · have hother : other.2.accountType ≠ .oauth := fun hother => hrow (fallbackRow_congr h.symm hother)
        cases hrow' : row.2.accountType with
        | oauth => exact absurd hrow' hrow
        | apikey =>
          cases hother' : other.2.accountType with
          | oauth => exact absurd hother' hother
          | apikey => rfl
    refine ⟨routeId_eq h, htype, ?_⟩
    intro hrow
    rw [rowPoolRouteId, rowPoolRouteId, pairPoolRouteId, pairPoolRouteId] at h
    simp only [BackendRow.pair, StoredAccount.account, hrow, ← htype] at h
    exact (poolRouteId_oauth_inj h).2
  · rintro ⟨hroute, htype, haccount⟩
    rw [rowPoolRouteId, rowPoolRouteId, pairPoolRouteId, pairPoolRouteId]
    simp only [BackendRow.pair, StoredAccount.account, hroute, htype]
    rw [poolRouteIdForAccount, poolRouteIdForAccount]
    by_cases hoauth : other.2.accountType = .oauth
    · simp [hoauth, haccount (htype.trans hoauth)]
    · by_cases hin : other.1.id ∈ oauthIds
      · simp [hoauth, hin]
      · simp [hoauth, hin]

/-- The pool of an OAuth account has the same name over any rows. -/
theorem rowPoolRouteId_oauth (h : row.2.accountType = .oauth) :
    rowPoolRouteId oauthIds row = rowPoolRouteId oauthIds' row := by
  rw [rowPoolRouteId, rowPoolRouteId, pairPoolRouteId, pairPoolRouteId]
  simp only [BackendRow.pair, StoredAccount.account, h]
  rfl

/-- The pool of an API account is named after whether the route has an OAuth account. -/
theorem rowPoolRouteId_api_iff (h : row.2.accountType = .apikey) :
    rowPoolRouteId oauthIds row = rowPoolRouteId oauthIds' row ↔ (row.1.id ∈ oauthIds ↔ row.1.id ∈ oauthIds') := by
  have hne : ∀ s : String, s ++ "f" ≠ s := by
    intro s heq
    have hlength := congrArg (fun s => s.toList.length) heq
    simp [String.toList_append] at hlength
  rw [rowPoolRouteId, rowPoolRouteId, pairPoolRouteId, pairPoolRouteId]
  simp only [BackendRow.pair, StoredAccount.account, h, poolRouteIdForAccount, reduceCtorEq, if_false,
    decide_eq_true_eq]
  by_cases hin : row.1.id ∈ oauthIds
  · by_cases hin' : row.1.id ∈ oauthIds'
    · simp [hin, hin']
    · simp [hin, hin', hne]
  · by_cases hin' : row.1.id ∈ oauthIds'
    · simp [hin, hin', (hne _).symm]
    · simp [hin, hin']

/-- The replica of an OAuth account is the same over any rows. -/
theorem credentialOf_oauth (h : row.2.accountType = .oauth) :
    credentialOf env oauthIds row = credentialOf env oauthIds' row := by
  have hpfx : rowPrefix oauthIds row = rowPrefix oauthIds' row := by
    rw [rowPrefix, rowPrefix, rowPoolRouteId_oauth h]
  rw [credentialOf, credentialOf, hpfx, if_pos h, if_pos h]

/-- The row is handed out as a target. -/
def GivesTarget (env : BackendEnv) (row : BackendRow) : Prop :=
  row.2.accountType = .apikey ∧ rowMatches row = true ∧ ∃ secret, env.secret row.2.id = some secret

/-- The target of an API account is the same when its pool has the same name. -/
theorem withResult_credentialOf_iff :
    withResult (credentialOf env oauthIds) row = withResult (credentialOf env oauthIds') row
    ↔ (GivesTarget env row → (row.1.id ∈ oauthIds ↔ row.1.id ∈ oauthIds')) := by
  cases htype : row.2.accountType with
  | oauth =>
    have hnot : ¬ GivesTarget env row := by
      rintro ⟨hapi, -⟩
      rw [htype] at hapi
      cases hapi
    have hsame : credentialOf env oauthIds row = credentialOf env oauthIds' row := credentialOf_oauth htype
    rw [withResult, withResult, resultOf, resultOf, hsame]
    exact ⟨fun _ h => absurd h hnot, fun _ => rfl⟩
  | apikey =>
    rw [← rowPoolRouteId_api_iff htype]
    by_cases hgives : GivesTarget env row
    · obtain ⟨-, hmatches, secret, hsecret⟩ := hgives
      have hcredential : ∀ o, credentialOf env o row
          = .ok (some (.target (apiTarget row (rowPoolRouteId o row) secret))) :=
        fun o => target_iff.mpr ⟨hmatches, htype, secret, hsecret, rfl⟩
      rw [withResult, withResult, resultOf, resultOf, hcredential, hcredential]
      constructor
      · intro h _
        have htarget := Credential.target.inj (congrArg Prod.snd (Option.some.inj h))
        exact congrArg (fun target : ApiTarget => target.routeId) htarget
      · intro h
        rw [h ⟨htype, hmatches, secret, hsecret⟩]
    · have hnone : ∀ o, credentialOf env o row = .ok none := by
        intro o
        rw [credentialOf]
        cases hmatches : rowMatches row with
        | false => rfl
        | true =>
          cases hsecret : env.secret row.2.id with
          | some secret => exact absurd ⟨htype, hmatches, secret, hsecret⟩ hgives
          | none => simp [htype]
      rw [withResult, withResult, resultOf, resultOf, hnone, hnone]
      exact ⟨fun _ h => absurd h hgives, fun _ => rfl⟩

end

/-! ## When the run goes through -/

/-- An auth file that is read as JSON has members that can be set. -/
def Settable (document : Value) : Prop := (∃ entries, document = .object entries) ∨ document = .null

/-- No row of an OAuth account ends the run: the path of its auth file has a name, and the file of
an OpenAI account is no JSON or has members. -/
def FilesNamed (env : BackendEnv) (rows : List BackendRow) : Prop :=
  ∀ row ∈ rows, row.2.accountType = .oauth → rowMatches row = true →
    ∃ name, env.fileName row.2.authFile = some name
      ∧ (normalizePlatform row.2.platform = "openai" → ∀ document, env.authDocument name = some document →
        Settable document)

/-- No row of an API account ends the run: one that matches and has a secret has a base URL if it
needs one. -/
def UrlsGiven (env : BackendEnv) (rows : List BackendRow) : Prop :=
  ∀ row ∈ rows, GivesTarget env row → lacksBaseUrl row = false

/-- Where an unusable OAuth account makes the API accounts of its route a fallback, a usable one
does so. -/
def FallbacksKept (env : BackendEnv) (rows : List BackendRow) : Prop :=
  ∀ row ∈ otherRows env rows, GivesTarget env row → row.1.id ∈ rowOauthIds rows →
    row.1.id ∈ rowOauthIds (otherRows env rows)

section

variable {env : BackendEnv} {oauthIds : List ℤ} {rows : List BackendRow} {row : BackendRow}

/-- The type of a document can be set when it has members. -/
theorem exists_withCodexType_iff (document : Value) : (∃ base, withCodexType document = some base) ↔ Settable document := by
  cases document with
  | object entries =>
    rw [withCodexType]
    constructor
    · exact fun _ => .inl ⟨entries, rfl⟩
    · intro _
      split
      · exact ⟨_, rfl⟩
      · exact ⟨_, rfl⟩
  | null => exact ⟨fun _ => .inr rfl, fun _ => ⟨_, rfl⟩⟩
  | _ =>
    constructor
    · rintro ⟨base, hbase⟩
      cases hbase
    · rintro (⟨entries, h⟩ | h)
      · cases h
      · cases h

theorem exists_sourceDocument_iff {name : String} : (∃ r, sourceDocument env row.2 name = .ok r)
    ↔ (normalizePlatform row.2.platform = "openai" → ∀ document, env.authDocument name = some document →
      Settable document) := by
  rw [sourceDocument]
  by_cases hopenai : normalizePlatform row.2.platform = "openai"
  · rw [if_pos hopenai]
    have hread : (∀ document, env.authDocument name = some document → Settable document)
        ↔ Settable ((env.authDocument name).getD (.object [])) := by
      cases env.authDocument name with
      | none => simp [Settable]
      | some document => simp
    rw [forall_prop_of_true hopenai, hread, ← exists_withCodexType_iff]
    cases withCodexType ((env.authDocument name).getD (.object [])) with
    | none => simp
    | some base => simp
  · rw [if_neg hopenai]
    simp [hopenai]

/-- The rows that end the run. -/
theorem runs_credentialOf_iff : Runs (credentialOf env oauthIds) row
    ↔ (row.2.accountType = .oauth → rowMatches row = true → ∃ name, env.fileName row.2.authFile = some name
      ∧ (normalizePlatform row.2.platform = "openai" → ∀ document, env.authDocument name = some document →
        Settable document)) := by
  rw [Runs, credentialOf]
  cases hmatches : rowMatches row with
  | false => simp
  | true =>
    by_cases htype : row.2.accountType = .oauth
    · cases hname : env.fileName row.2.authFile with
      | none => simp [htype]
      | some name =>
        simp only [htype, if_true, Bool.not_true, Bool.false_eq_true, if_false, forall_const, Option.some.injEq,
          exists_eq_left']
        rw [← exists_sourceDocument_iff]
        cases hdocument : sourceDocument env row.2 name with
        | error e => simp
        | ok document =>
          cases document with
          | none => simp
          | some document => simp
    · simp [htype]

theorem collect_credentials_iff : (∃ out, collect (credentialOf env oauthIds) rows = .ok out)
    ↔ FilesNamed env rows := by
  constructor
  · rintro ⟨out, hout⟩ row hrow
    exact runs_credentialOf_iff.mp ((collect_eq_ok_iff.mp hout).1 row hrow)
  · intro h
    exact ⟨_, collect_eq_ok_iff.mpr ⟨fun row hrow => runs_credentialOf_iff.mpr (h row hrow), rfl⟩⟩

/-- A target is compiled when it has a base URL or its platform has a list. -/
theorem runs_compileTarget_iff (target : ApiTarget) : Runs compileTarget target
    ↔ (target.baseUrl = none → nativeSection target.platform ≠ none)
      ∧ ∀ baseUrl, target.baseUrl = some baseUrl → trim baseUrl ≠ "" := by
  rw [Runs, compileTarget]
  cases target.baseUrl with
  | none =>
    cases nativeSection target.platform with
    | none => simp
    | some cliSection => simp
  | some baseUrl =>
    by_cases hblank : trim baseUrl = ""
    · simp [hblank]
    · simp [hblank]

/-- The base URL of an account is not blank. -/
theorem trim_baseUrl_ne {account : StoredAccount} {baseUrl : String} (h : baseUrlOf account = some baseUrl) :
    trim baseUrl ≠ "" := by
  rw [baseUrlOf, Option.filter_eq_some_iff, Option.map_eq_some_iff] at h
  obtain ⟨⟨url, -, rfl⟩, hne⟩ := h
  rw [trim_trim]
  simpa using hne

theorem runs_compile_row_iff (row : BackendRow) (poolRouteId secret : String) :
    Runs compileTarget (apiTarget row poolRouteId secret) ↔ lacksBaseUrl row = false := by
  have hbase : (apiTarget row poolRouteId secret).baseUrl = baseUrlOf row.2 := rfl
  have hplatform : (apiTarget row poolRouteId secret).platform = row.1.route.targetPlatform := rfl
  rw [runs_compileTarget_iff, hbase, hplatform, lacksBaseUrl]
  cases hurl : baseUrlOf row.2 with
  | none => simp [Option.ne_none_iff_isSome]
  | some baseUrl => simp [trim_baseUrl_ne hurl]

end

/-! ## Two runs -/

section

variable {env : BackendEnv} {rows : List BackendRow} {row other : BackendRow} {published without : PublishedBackend}

theorem joined_filter (hjoined : Joined rows) (p : BackendRow → Bool) : Joined (rows.filter p) where
  route r hr r' hr' := hjoined.route r (List.mem_of_mem_filter hr) r' (List.mem_of_mem_filter hr')
  account r hr r' hr' := hjoined.account r (List.mem_of_mem_filter hr) r' (List.mem_of_mem_filter hr')
  ordered := hjoined.ordered.filter p

theorem mem_otherRows : row ∈ otherRows env rows ↔ row ∈ rows ∧ unusable env row = false := by
  rw [otherRows, List.mem_filter, Bool.not_eq_true']

/-- An OAuth account that is left belongs to its route in both runs. -/
theorem rowOauthIds_otherRows {id : ℤ} (h : id ∈ rowOauthIds (otherRows env rows)) : id ∈ rowOauthIds rows := by
  rw [rowOauthIds, oauthRoutes, List.mem_map] at h ⊢
  obtain ⟨pair, hpair, rfl⟩ := h
  rw [List.mem_filter, List.mem_map] at hpair
  obtain ⟨⟨row, hrow, rfl⟩, hserves⟩ := hpair
  exact ⟨_, List.mem_filter.mpr ⟨List.mem_map_of_mem (mem_otherRows.mp hrow).1, hserves⟩, rfl⟩

/-- An API account that matches has a payload, so it is usable when it has a base URL. -/
theorem usable_of_givesTarget (h : GivesTarget env row) (hurl : lacksBaseUrl row = false) :
    unusable env row = false := by
  obtain ⟨htype, hmatches, secret, hsecret⟩ := h
  have hpayload : row.2.payload.isNone = false := by
    cases hnone : row.2.payload with
    | some payload => rfl
    | none =>
      have hmapping : row.2.account.modelMapping = none := by rw [StoredAccount.account, hnone]; rfl
      rw [rowMatches, hmapping, apiRouteModelMatches, if_neg (by rw [htype]; decide)] at hmatches
      simp at hmatches
  rw [unusable, hpayload, if_neg (by rw [htype]; decide), hsecret, hurl]
  rfl

/-- A run ends well when its parts do. -/
theorem syncBackendEx_eq_ok_iff : syncBackendEx env rows = .ok published
    ↔ collect (credentialOf env (rowOauthIds rows)) rows = .ok published.credentials
      ∧ RouteTable.new (backendPools rows published.credentials) = .ok published.table
      ∧ (if (targetsOf published.credentials).isEmpty then .ok []
        else compile env (targetsOf published.credentials)) = .ok published.config
      ∧ published.cliIndexMap = indexMapOf env published.credentials := by
  rw [syncBackendEx, ← rowOauthIds]
  obtain ⟨table, credentials, config, cliIndexMap⟩ := published
  dsimp only
  cases hcredentials : collect (credentialOf env (rowOauthIds rows)) rows with
  | error e => simp
  | ok credentials' =>
    simp only [Except.ok.injEq]
    cases htable : RouteTable.new (backendPools rows credentials') with
    | error e =>
      simp only [reduceCtorEq, false_iff]
      rintro ⟨rfl, h, -⟩
      rw [htable] at h
      cases h
    | ok table' =>
      simp only
      by_cases hempty : (targetsOf credentials').isEmpty = true
      · rw [if_pos hempty, Except.ok.injEq, PublishedBackend.mk.injEq]
        constructor
        · rintro ⟨rfl, rfl, rfl, rfl⟩
          exact ⟨rfl, htable, if_pos hempty, rfl⟩
        · rintro ⟨rfl, h, hconfig, rfl⟩
          rw [htable, Except.ok.injEq] at h
          rw [if_pos hempty, Except.ok.injEq] at hconfig
          exact ⟨h, rfl, hconfig, rfl⟩
      · rw [if_neg hempty]
        cases hcompile : compile env (targetsOf credentials') with
        | error e =>
          simp only [reduceCtorEq, false_iff]
          rintro ⟨rfl, -, hconfig, -⟩
          rw [if_neg hempty, hcompile] at hconfig
          cases hconfig
        | ok config' =>
          simp only [Except.ok.injEq, PublishedBackend.mk.injEq]
          constructor
          · rintro ⟨rfl, rfl, rfl, rfl⟩
            exact ⟨rfl, htable, by rw [if_neg hempty, hcompile], rfl⟩
          · rintro ⟨rfl, h, hconfig, rfl⟩
            rw [htable, Except.ok.injEq] at h
            rw [if_neg hempty, hcompile, Except.ok.injEq] at hconfig
            exact ⟨h, rfl, hconfig, rfl⟩

/-- The pool of a row is available when a row of the pool matches and is usable. -/
theorem poolAvailable_iff (hjoined : Joined rows) (h : syncBackendEx env rows = .ok published) (hrow : row ∈ rows) :
    PoolAvailable published.table (rowPrefix (rowOauthIds rows) row)
      ↔ ∃ other ∈ rows, rowPoolRouteId (rowOauthIds rows) other = rowPoolRouteId (rowOauthIds rows) row
        ∧ rowMatches other = true ∧ Usable env other := by
  obtain ⟨first, hfirst, hid⟩ := exists_firstOfPool hrow
  rw [← rowPrefix_eq hjoined hfirst.mem hrow hid, ← hid]
  constructor
  · rintro ⟨pool, hpool, hpfx, havailable⟩
    obtain ⟨other, -, -, hhanded⟩ := (poolsAvailable hjoined h pool hpool).mp havailable
    rw [hpfx] at hhanded
    exact ⟨other, (handedUnder_pool_iff hjoined h hfirst).mp hhanded⟩
  · rintro ⟨other, hother⟩
    have hpool := (mem_table_iff h).mpr ⟨first, hfirst, rfl⟩
    exact ⟨_, hpool, rfl, (poolsAvailable hjoined h _ hpool).mpr
      ⟨other, hother.1, hother.2.2.1, (handedUnder_pool_iff hjoined h hfirst).mpr hother⟩⟩

/-- What the other rows get is the same when their pools are. -/
theorem credentials_eq_iff {out out' : List (BackendRow × Credential)}
    (h : collect (credentialOf env (rowOauthIds rows)) rows = .ok out)
    (h' : collect (credentialOf env (rowOauthIds (otherRows env rows))) (otherRows env rows) = .ok out') :
    out.filter (fun c => !unusable env c.1) = out' ↔ FallbacksKept env rows := by
  obtain ⟨-, rfl⟩ := collect_eq_ok_iff.mp h
  obtain ⟨-, rfl⟩ := collect_eq_ok_iff.mp h'
  have hsome : ∀ o o' row, (withResult (credentialOf env o) row).isSome = (withResult (credentialOf env o') row).isSome := by
    intro o o' row
    have hiff : ∀ o, (withResult (credentialOf env o) row).isSome = true ↔ rowMatches row = true ∧ Usable env row := by
      intro o
      rw [← @exists_credential_iff env o row, withResult, Option.isSome_map, resultOf]
      cases credentialOf env o row with
      | error e => simp
      | ok credential => simp [Option.isSome_iff_exists]
    rw [Bool.eq_iff_iff, hiff, hiff]
  rw [filter_filterMap_withResult (fun row => !unusable env row), ← otherRows,
    filterMap_eq_iff fun row _ => hsome _ _ row]
  refine forall₂_congr fun row _ => ?_
  rw [withResult_credentialOf_iff]
  exact imp_congr_right fun _ => ⟨Iff.mp, fun hkept => ⟨hkept, rowOauthIds_otherRows⟩⟩

/-- All targets are of other rows when no target lacks a base URL. -/
theorem targetsOf_filter (hurls : UrlsGiven env rows) {out : List (BackendRow × Credential)} {oauthIds : List ℤ}
    (h : collect (credentialOf env oauthIds) rows = .ok out) :
    targetsOf (out.filter fun c => !unusable env c.1) = targetsOf out := by
  refine filterMap_filter_of_none ?_
  rintro ⟨row, credential⟩ hmem hunusable
  cases credential with
  | replica replica => rfl
  | target target =>
    obtain ⟨hrow, hcredential⟩ := (mem_collect h).mp hmem
    obtain ⟨hmatches, htype, secret, hsecret, -⟩ := target_iff.mp hcredential
    have hgives : GivesTarget env row := ⟨htype, hmatches, secret, hsecret⟩
    simp [usable_of_givesTarget hgives (hurls row hrow hgives)] at hunusable

/-- A row in the pool of a usable one is usable itself, when it is published. -/
theorem mem_otherRows_of_pool (hjoined : Joined rows) (hurls : UrlsGiven env rows) (hrow : row ∈ otherRows env rows)
    (hother : other ∈ rows) (hid : rowPoolRouteId (rowOauthIds rows) other = rowPoolRouteId (rowOauthIds rows) row)
    (hmatches : rowMatches other = true) (husable : Usable env other) : other ∈ otherRows env rows := by
  rw [poolRouteId_eq_iff] at hid
  obtain ⟨hroute, htype, haccount⟩ := hid
  obtain ⟨hrow, hok⟩ := mem_otherRows.mp hrow
  refine mem_otherRows.mpr ⟨hother, ?_⟩
  cases hother' : other.2.accountType with
  | oauth =>
    have hsame : other = row := Prod.ext (hjoined.route other hother row hrow hroute)
      (hjoined.account other hother row hrow (haccount hother'))
    rw [hsame]
    exact hok
  | apikey =>
    rw [Usable, if_neg (by rw [hother']; decide)] at husable
    have hgives : GivesTarget env other := ⟨hother', hmatches, husable⟩
    exact usable_of_givesTarget hgives (hurls other hother hgives)

/-- **One unusable account and the others**: they get the same from a run with the unusable accounts
as from one without them exactly when no OAuth account ends the run by the name or the content of its
auth file and no API account by its base URL, no route has only unusable OAuth accounts beside a
usable API account, and the prefixes of all pools are accepted. -/
theorem unblocked_iff (hjoined : Joined rows) (h : syncBackendEx env (otherRows env rows) = .ok without) :
    Unblocked env rows without
      ↔ FilesNamed env rows ∧ UrlsGiven env rows ∧ FallbacksKept env rows ∧ PrefixesAccepted rows := by
  have hwithout := syncBackendEx_eq_ok_iff.mp h
  constructor
  · rintro ⟨published, hrun, hcredentials, -, -⟩
    obtain ⟨hcollect, htable, ⟨out, hout, -⟩, -⟩ := syncBackendEx_ok hrun
    refine ⟨collect_credentials_iff.mp ⟨_, hcollect⟩, ?_, (credentials_eq_iff hcollect hwithout.1).mp hcredentials,
      (exists_table_iff hjoined).mp ⟨_, htable⟩⟩
    intro row hrow hgives
    obtain ⟨htype, hmatches, secret, hsecret⟩ := hgives
    have hcredential : credentialOf env (rowOauthIds rows) row
        = .ok (some (.target (apiTarget row (rowPoolRouteId (rowOauthIds rows) row) secret))) :=
      target_iff.mpr ⟨hmatches, htype, secret, hsecret, rfl⟩
    have htarget := mem_targetsOf.mpr ⟨row, (mem_collect hcollect).mpr ⟨hrow, hcredential⟩⟩
    exact (runs_compile_row_iff _ _ _).mp ((collect_eq_ok_iff.mp hout).1 _ htarget)
  · rintro ⟨hfiles, hurls, hkept, haccepted⟩
    obtain ⟨credentials, hcollect⟩ := (@collect_credentials_iff env (rowOauthIds rows) rows).mpr hfiles
    obtain ⟨table, htable⟩ : ∃ table, RouteTable.new (backendPools rows credentials) = .ok table :=
      (exists_table_iff hjoined).mpr haccepted
    have hsame := (credentials_eq_iff hcollect hwithout.1).mpr hkept
    have htargets : targetsOf credentials = targetsOf without.credentials := by
      rw [← targetsOf_filter hurls hcollect, hsame]
    have hrun : syncBackendEx env rows = .ok ⟨table, credentials, without.config, indexMapOf env credentials⟩ := by
      refine syncBackendEx_eq_ok_iff.mpr ⟨hcollect, htable, ?_, rfl⟩
      dsimp only
      rw [htargets]
      exact hwithout.2.2.1
    refine ⟨_, hrun, hsame, rfl, ?_⟩
    intro row hrow
    have hjoined' : Joined (otherRows env rows) := joined_filter hjoined _
    rw [poolAvailable_iff hjoined hrun (mem_otherRows.mp hrow).1, poolAvailable_iff hjoined' h hrow]
    constructor
    · rintro ⟨other, hother, hid, hmatches, husable⟩
      exact ⟨other, mem_otherRows_of_pool hjoined hurls hrow hother hid hmatches husable,
        poolRouteId_eq_iff.mpr (poolRouteId_eq_iff.mp hid), hmatches, husable⟩
    · rintro ⟨other, hother, hid, hmatches, husable⟩
      exact ⟨other, (mem_otherRows.mp hother).1, poolRouteId_eq_iff.mpr (poolRouteId_eq_iff.mp hid), hmatches, husable⟩

end

/-! ## Runs -/

namespace PublicationRun

/-- An OAuth account without an auth file. -/
def withoutFile : StoredAccount := { accountOf 1 "active" 1 with accountType := .oauth }

/-- The account without a secret is left out. -/
theorem unblocked_of_no_secret : ∃ without,
    syncBackendEx env (otherRows env (rowsOf (accountOf 2 "active" 5) (accountOf 3 "active" 3))) = .ok without
      ∧ (Unblocked env (rowsOf (accountOf 2 "active" 5) (accountOf 3 "active" 3)) without
        ↔ FilesNamed env (rowsOf (accountOf 2 "active" 5) (accountOf 3 "active" 3))
          ∧ UrlsGiven env (rowsOf (accountOf 2 "active" 5) (accountOf 3 "active" 3))
          ∧ FallbacksKept env (rowsOf (accountOf 2 "active" 5) (accountOf 3 "active" 3))
          ∧ PrefixesAccepted (rowsOf (accountOf 2 "active" 5) (accountOf 3 "active" 3))) := by
  have hjoined : Joined (rowsOf (accountOf 2 "active" 5) (accountOf 3 "active" 3)) :=
    ⟨by decide +kernel, by decide +kernel, by decide +kernel⟩
  have hok : (syncBackendEx env (otherRows env (rowsOf (accountOf 2 "active" 5) (accountOf 3 "active" 3)))).isOk
      = true := by
    decide +kernel
  cases hrun : syncBackendEx env (otherRows env (rowsOf (accountOf 2 "active" 5) (accountOf 3 "active" 3))) with
  | error e =>
    rw [hrun] at hok
    cases hok
  | ok without => exact ⟨without, rfl, unblocked_iff hjoined hrun⟩

/-- The account without an auth file ends the run for the other one. -/
theorem blocked_by_file_name : ∃ without, Joined (rowsOf withoutFile (accountOf 2 "active" 5))
    ∧ syncBackendEx env (otherRows env (rowsOf withoutFile (accountOf 2 "active" 5))) = .ok without
    ∧ without.credentials.map (·.1.2.id) = [2]
    ∧ ¬ Unblocked env (rowsOf withoutFile (accountOf 2 "active" 5)) without := by
  have hjoined : Joined (rowsOf withoutFile (accountOf 2 "active" 5)) :=
    ⟨by decide +kernel, by decide +kernel, by decide +kernel⟩
  have hids : (syncBackendEx env (otherRows env (rowsOf withoutFile (accountOf 2 "active" 5)))).toOption.map
      (fun without => without.credentials.map (·.1.2.id)) = some [2] := by
    decide +kernel
  have hfails : (syncBackendEx env (rowsOf withoutFile (accountOf 2 "active" 5))).isOk = false := by
    decide +kernel
  cases hrun : syncBackendEx env (otherRows env (rowsOf withoutFile (accountOf 2 "active" 5))) with
  | error e =>
    rw [hrun] at hids
    cases hids
  | ok without =>
    rw [hrun] at hids
    refine ⟨without, hjoined, rfl, Option.some.inj hids, ?_⟩
    rintro ⟨published, hpublished, -⟩
    rw [hpublished] at hfails
    cases hfails

end PublicationRun

end CodexRouter
