/-
# Synchronising the backend

`sync_backend_ex` goes through the rows of the query, a composite route and an account each,
and makes a credential of a row where it can: a replica of the account's auth file for an OAuth
account, a target for the CLI's configuration for an API account.  It enters the pools, marks
those that got a credential, compiles the configuration, and notes under which index the CLI
will report each credential.

Most rows without a credential are skipped; three kinds end the whole run (`credentialOf`,
`compileTarget`).  What a row gives depends on the other rows only through the routes that have
an OAuth account.
-/
import CodexRouter.Base.Collect
import CodexRouter.PoolTable

namespace CodexRouter

open Text

/-! ## Rows and surroundings -/

/-- What is read of the payload of an account. -/
structure AccountPayload where
  modelMapping : Option (OrdMap String String)
  projectId : Option String
  baseUrl : Option String
  proxyUrl : Option String
  openaiCapabilities : List String
  deriving DecidableEq

/-- The columns of an account.  A payload that is no JSON reads as an empty one. -/
structure StoredAccount where
  id : ℤ
  platform : String
  accountType : AccountType
  status : String
  schedulable : Bool
  priority : ℤ
  weight : ℤ
  authFile : String
  payload : Option AccountPayload
  joinedProxyUrl : Option String
  deriving DecidableEq

/-- The account as the loop over the pools sees it. -/
def StoredAccount.account (stored : StoredAccount) : Account where
  id := stored.id
  name := ""
  platform := stored.platform
  accountType := stored.accountType
  status := stored.status
  schedulable := stored.schedulable
  priority := stored.priority
  weight := stored.weight
  groups := []
  groupIds := []
  modelMapping := stored.payload.bind (·.modelMapping)
  baseUrl := (stored.payload.bind (·.baseUrl)).getD ""

/-- A row of the query. -/
abbrev BackendRow := RouteRow × StoredAccount

/-- The row as the loop over the pools sees it. -/
def BackendRow.pair (row : BackendRow) : RouteRow × Account := (row.1, row.2.account)

/-- What the loop reads outside the database. -/
structure BackendEnv where
  /-- `Path::file_name`. -/
  fileName : String → Option String
  /-- A file of the auth directory, read as JSON. -/
  authDocument : String → Option Value
  /-- `tokens` of the desktop login, with an access token. -/
  desktopTokens : Option Members
  /-- `read_account_secret`. -/
  secret : ℤ → Option String
  /-- A file of that stem can be written. -/
  writes : String → Bool
  /-- `resolve_live_oauth_upstream` of `mapped_upstream_model`, for an auth type. -/
  upstreamOf : BackendRow → String → String
  /-- The index the CLI reports for a replica. -/
  cliFileIndex : String → Option String
  /-- `cli_file_auth_index` of a type and a replica. -/
  fileAuthIndex : String → String → String
  /-- The first bytes of SHA-256 in hexadecimal. -/
  digest : String → String
  downstreamKey : String
  managementSecret : String

/-- `as i32`. -/
def asI32 (n : ℤ) : ℤ := (n + 2147483648) % 4294967296 - 2147483648

/-- `cli_priority`. -/
def cliPriority (legacyPriority : ℤ) : ℤ := max (1000000 - displayPriority legacyPriority) 1

/-! ## Replicas of auth files -/

/-- `sync_openai_access_token`. -/
def syncOpenaiAccessToken (tokens : Option Members) (document : Value) : Value :=
  match document with
  | .object entries =>
    let entries := Members.remove "refresh_token" entries
    match tokens with
    | none => .object entries
    | some tokens =>
      .object (["access_token", "id_token", "account_id", "email", "last_refresh", "expired"].foldl
        (fun (entries : Members) key =>
          ((Members.get key tokens).map fun value => Members.insert key value entries).getD entries) entries)
  | document => document

/-- A text member that is missing or blank. -/
def lacks (document : Value) (key : String) : Bool := (document.getStr key).all (trim · = "")

/-- Name the type of an OpenAI document that has none; indexing a value that is no object panics. -/
def withCodexType (document : Value) : Option Value :=
  if lacks document "type" then
    match document with
    | .object entries => some (.object (Members.insert "type" (.string "codex") entries))
    | .null => some (.object [("type", .string "codex")])
    | _ => none
  else some document

/-- The document that is copied for an account, if there is one. -/
def sourceDocument (env : BackendEnv) (account : StoredAccount) (name : String) : Except String (Option Value) :=
  if normalizePlatform account.platform = "openai" then
    match withCodexType ((env.authDocument name).getD (.object [])) with
    | none => .error "cannot access key \"type\" in JSON value"
    | some base =>
      let document := syncOpenaiAccessToken env.desktopTokens base
      .ok (if lacks document "access_token" then none else some document)
  else .ok (env.authDocument name)

/-- `auth_index_is_safe`. -/
def authIndexIsSafe (authIndex : String) : Bool :=
  trim authIndex ≠ ""
    && (trim authIndex).toList.all fun c => isAsciiAlphanumeric c || c ∈ ['-', '_', '.', '@', '+']

/-- `oauth_replica_aliases`. -/
def oauthReplicaAliases (poolPrefix publicModel : String) : List String :=
  let shown := trim publicModel
  if shown = "" then []
  else if poolPrefix ++ "/" ++ shown = shown then [shown]
  else [shown, poolPrefix ++ "/" ++ shown]

/-- `push_oauth_replica_alias`. -/
def pushOauthReplicaAlias (name : String) (aliases : List Value) (shown : String) : List Value :=
  if aliases.any fun entry => entry.getStr "name" = some name && entry.getStr "alias" = some shown then aliases
  else aliases ++ [.object [("alias", .string shown), ("force-mapping", .bool true), ("name", .string name)]]

/-- A replica in the auth directory. -/
structure Replica where
  name : String
  authType : String
  document : Value
  deriving DecidableEq

/-- The stem of a replica. -/
def replicaStem (row : BackendRow) (authType : String) : String :=
  "cr-router-oauth-" ++ toString row.2.id ++ "-" ++ toString row.1.id ++ "-" ++ authType

/-- `write_auth_file` leaves no refresh token in an OpenAI document. -/
def writtenDocument (document : Value) : Value :=
  match document with
  | .object entries =>
    if (document.getStr "type").any fun type => toAsciiLowercase (trim type) ∈ ["codex", "openai", "chatgpt"] then
      .object (Members.remove "refresh_token" entries)
    else document
  | document => document

/-- The project of a Gemini account. -/
def withProjectId (row : BackendRow) (document : Value) : Value :=
  match (row.2.payload.bind (·.projectId)).map trim with
  | some projectId =>
    if normalizePlatform row.2.platform = "gemini" ∧ projectId ≠ "" then
      document.insert "project_id" (.string projectId)
    else document
  | none => document

/-- The members that make a document a replica. -/
def replicaDocument (env : BackendEnv) (row : BackendRow) (poolPrefix authType : String) (document : Value) : Value :=
  let document := withProjectId row document
  let document := document.insert "router_replica" (.bool true)
  let document := document.insert "prefix" (.string poolPrefix)
  let document := document.insert "priority" (.number (.int (cliPriority (asI32 row.2.priority))))
  let document := document.insert "weight" (.number (.int (max row.2.weight 1)))
  let aliases := (document.getArray "model_aliases").getD []
  writtenDocument (document.insert "model_aliases" (.array
    ((oauthReplicaAliases poolPrefix row.1.route.publicModel).foldl
      (pushOauthReplicaAlias (env.upstreamOf row authType)) aliases)))

/-- The replica that is written of a document. -/
def replicaOf (env : BackendEnv) (row : BackendRow) (poolPrefix : String) (document : Value) : Option Replica :=
  let authType := (document.getStr "type").getD ""
  let stem := replicaStem row authType
  if authType = "" then none
  else if authIndexIsSafe stem && env.writes stem then
    some ⟨stem ++ ".json", authType, replicaDocument env row poolPrefix authType document⟩
  else none

/-! ## Targets -/

/-- `RouteTarget` with the members that only the configuration reads. -/
structure ApiTarget extends RouteTarget where
  proxyUrl : Option String
  openaiCapabilities : List String
  deriving DecidableEq

/-- The base URL of an account, if it gives one. -/
def baseUrlOf (account : StoredAccount) : Option String :=
  ((account.payload.bind (·.baseUrl)).map trim).filter (· ≠ "")

/-- The target of an API account. -/
def apiTarget (row : BackendRow) (poolRouteId secret : String) : ApiTarget where
  routeId := poolRouteId
  publicModel := row.1.route.publicModel
  upstreamModel := row.1.route.upstreamModel
  platform := row.1.route.targetPlatform
  baseUrl := baseUrlOf row.2
  credentialRef := secret
  priority := displayPriority (asI32 row.2.priority)
  weight := asI32 row.2.weight
  proxyUrl := row.2.joinedProxyUrl.or (row.2.payload.bind (·.proxyUrl))
  openaiCapabilities := ((row.2.payload.map (·.openaiCapabilities)).getD [])

/-- What a row is turned into. -/
inductive Credential where
  | replica (replica : Replica)
  | target (target : ApiTarget)
  deriving DecidableEq

/-! ## A row -/

section

variable (env : BackendEnv) (oauthIds : List ℤ)

/-- The pool route id of a row. -/
def rowPoolRouteId (row : BackendRow) : String := pairPoolRouteId oauthIds row.pair

/-- The pool prefix of a row. -/
def rowPrefix (row : BackendRow) : String := poolPrefixOf (rowPoolRouteId oauthIds row) row.1.route.targetPlatform

/-- The account is eligible, and its provider and models match the route. -/
def rowMatches (row : BackendRow) : Bool :=
  accountIsCliEligible row.2.account
    && if row.2.accountType = .oauth then oauthServes row.1 row.2.account
      else apiRouteModelMatches row.2.account.modelMapping row.1.route.publicModel row.1.route.upstreamModel

/-- The body of the loop behind the pool entry. -/
def credentialOf (row : BackendRow) : Except String (Option Credential) :=
  if !rowMatches row then .ok none
  else if row.2.accountType = .oauth then
    match env.fileName row.2.authFile with
    | none => .error "OAuth auth file name is missing"
    | some name =>
      match sourceDocument env row.2 name with
      | .error e => .error e
      | .ok none => .ok none
      | .ok (some document) => .ok ((replicaOf env row (rowPrefix oauthIds row) document).map .replica)
  else
    .ok ((env.secret row.2.id).map fun secret => .target (apiTarget row (rowPoolRouteId oauthIds row) secret))

end

/-! ## The configuration of the CLI -/

/-- The lists of credentials in a `CliProxyConfig`. -/
inductive CliSection where
  | gemini
  | claude
  | codex
  | xai
  | openaiCompatibility
  deriving DecidableEq, Repr

/-- An entry of one of the lists. -/
structure CliEntry where
  cliSection : CliSection
  apiKey : String
  pfx : String
  baseUrl : String
  weight : ℤ
  priority : ℤ
  proxyUrl : Option String
  openaiCapabilities : List String
  modelName : String
  modelAlias : String
  image : Bool
  deriving DecidableEq

/-- The platforms that have a list of their own. -/
def nativeSection (platform : String) : Option CliSection :=
  match normalizePlatform platform with
  | "gemini" => some .gemini
  | "anthropic" => some .claude
  | "openai" => some .codex
  | "xai" => some .xai
  | _ => none

/-- The entry of a target in a list. -/
def cliEntry (target : ApiTarget) (cliSection : CliSection) (baseUrl : String) : CliEntry where
  cliSection := cliSection
  apiKey := target.credentialRef
  pfx := poolPrefixOf target.routeId target.platform
  baseUrl := baseUrl
  weight := max 1 (min 1000000 target.weight)
  priority := cliPriority target.priority
  proxyUrl := target.proxyUrl
  openaiCapabilities := if cliSection = .openaiCompatibility then target.openaiCapabilities else []
  modelName := target.upstreamModel
  modelAlias := target.publicModel
  image := contains (toAsciiLowercase target.upstreamModel) "image"

/-- One round of the loop of `compile`. -/
def compileTarget (target : ApiTarget) : Except String (Option CliEntry) :=
  match target.baseUrl with
  | none =>
    match nativeSection target.platform with
    | some cliSection => .ok (some (cliEntry target cliSection ""))
    | none => .error ("platform " ++ target.platform ++ " requires an API base URL")
  | some baseUrl =>
    if trim baseUrl = "" then .error ("platform " ++ target.platform ++ " requires an API base URL")
    else .ok (some (cliEntry target .openaiCompatibility (trim baseUrl)))

/-- What `validate` rejects in the prefix of a native entry. -/
def unsafePrefix (entry : CliEntry) : Bool :=
  entry.cliSection ≠ .openaiCompatibility && (startsWith entry.pfx "cr/" || contains entry.pfx "..")

/-- `compile`, as far as the targets go. -/
def compile (env : BackendEnv) (targets : List ApiTarget) : Except String (List CliEntry) :=
  if trim env.downstreamKey = "" || trim env.managementSecret = "" then
    .error "downstream and management credentials must be non-empty"
  else
    match collect compileTarget targets with
    | .error e => .error e
    | .ok out =>
      if targets.any fun target => trim target.publicModel = "" then .error "public model cannot be empty"
      else if (out.map (·.2)).any unsafePrefix then .error "unsafe internal prefix leaked into CLI config"
      else .ok (out.map (·.2))

/-- The list of a section, as the CLI names it. -/
def CliSection.listName : CliSection → String
  | .gemini => "gemini-api-key"
  | .claude => "claude-api-key"
  | .codex => "codex-api-key"
  | .xai => "xai-api-key"
  | .openaiCompatibility => "openai-compatibility"

/-- The section and the base URL of `cli_key_auth_index`. -/
def keySeedHead (platform : String) (baseUrl : Option String) : String :=
  match (baseUrl.map trim).filter (· ≠ "") with
  | none => ((nativeSection platform).getD .openaiCompatibility).listName ++ ":"
  | some base => CliSection.openaiCompatibility.listName ++ ":" ++ base

/-- What `cli_key_auth_index` takes the digest of. -/
def keySeed (platform : String) (baseUrl : Option String) (apiKey : String) : String :=
  keySeedHead platform baseUrl ++ "+" ++ trim apiKey

/-- `cli_key_auth_index`. -/
def cliKeyAuthIndex (env : BackendEnv) (platform : String) (baseUrl : Option String) (apiKey : String) : String :=
  env.digest (keySeed platform baseUrl apiKey)

/-! ## The whole run -/

/-- What a run publishes. -/
structure PublishedBackend where
  table : RouteTable
  credentials : List (BackendRow × Credential)
  config : List CliEntry
  cliIndexMap : OrdMap String ℤ

/-- The targets among the credentials. -/
def targetsOf (credentials : List (BackendRow × Credential)) : List ApiTarget :=
  credentials.filterMap fun published =>
    match published.2 with
    | .target target => some target
    | .replica _ => none

section

variable (env : BackendEnv)

/-- The index under which the CLI reports a credential. -/
def authIndexOf : Credential → String
  | .replica replica => (env.cliFileIndex replica.name).getD (env.fileAuthIndex replica.authType replica.name)
  | .target target => cliKeyAuthIndex env target.platform target.baseUrl target.credentialRef

/-- `cli_index_map`: a later row overwrites. -/
def indexMapOf (credentials : List (BackendRow × Credential)) : OrdMap String ℤ :=
  credentials.foldl (fun map published => map.insert (authIndexOf env published.2) published.1.2.id) []

/-- The pools with their availability. -/
def backendPools (rows : List BackendRow) (credentials : List (BackendRow × Credential)) : List PoolRoute :=
  let oauthIds := oauthRoutes (rows.map BackendRow.pair)
  (poolRoutes oauthIds (rows.map BackendRow.pair)).map fun pool =>
    markAvailable (credentials.map fun published => rowPoolRouteId oauthIds published.1)
      { pool with priority := asI32 pool.priority }

/-- `sync_backend_ex`. -/
def syncBackendEx (rows : List BackendRow) : Except String PublishedBackend :=
  match collect (credentialOf env (oauthRoutes (rows.map BackendRow.pair))) rows with
  | .error e => .error e
  | .ok credentials =>
    match RouteTable.new (backendPools rows credentials) with
    | .error e => .error e
    | .ok table =>
      if (targetsOf credentials).isEmpty then .ok ⟨table, credentials, [], indexMapOf env credentials⟩
      else
        match compile env (targetsOf credentials) with
        | .error e => .error e
        | .ok config => .ok ⟨table, credentials, config, indexMapOf env credentials⟩

end

end CodexRouter
