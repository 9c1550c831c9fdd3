/-
# The import of a legacy export

`import_legacy_export_with_auth_dir` changes three stores one after the other: it converts the credentials of the OAuth
accounts to files of the auth directory, puts the secrets of the API accounts into the credential store, and takes up
the objects of the export in one transaction over the tables.  The files and the secrets have undo lists of their own.

Anything outside may fail at any point; `ImportFaults` says what does.  A `COMMIT` or a `ROLLBACK` that fails is left
out, and the writes that undo something succeed.
-/
import CodexRouter.AdminRuns
import CodexRouter.DirectChannel
import CodexRouter.Base.JournaledImport

namespace CodexRouter

open Text

/-! ## The export -/

structure LegacyGroup where
  id : ℤ
  name : String
  status : String := "active"
  models : List String := []

structure LegacyCompositeRoute where
  groupId : ℤ
  publicModel : String
  upstreamModel : String
  targetPlatform : String
  endpoint : String
  priority : ℤ := 1
  enabled : Bool := true

structure LegacyProxy where
  id : ℤ
  protocol : String
  host : String
  port : ℕ
  fallbackPolicy : String := "forbid_direct"

structure LegacyApiKey where
  id : ℤ
  name : String
  value : String
  groupId : Option ℤ

structure LegacyAccount where
  id : ℤ
  name : String := ""
  platform : String
  accountType : String
  priority : ℤ := 1
  weight : ℤ := 1
  schedulable : Bool := true
  authFile : Option String
  authIndex : Option String
  proxyId : Option ℤ := none
  groupIds : List ℤ := []
  credentials : Value := .null
  extra : Value := .null

structure LegacyExport where
  groups : List LegacyGroup := []
  compositeRoutes : List LegacyCompositeRoute := []
  proxies : List LegacyProxy := []
  apiKeys : List LegacyApiKey := []
  accounts : List LegacyAccount := []

/-- The kinds of objects. -/
inductive LegacyKind where
  | group
  | compositeRoute
  | proxy
  | apiKey
  | account
  deriving DecidableEq

/-- The `object_type` of the journal. -/
def LegacyKind.objectType : LegacyKind → String
  | .group => "group"
  | .compositeRoute => "composite_route"
  | .proxy => "proxy"
  | .apiKey => "api_key"
  | .account => "account"

inductive LegacyObject where
  | group (group : LegacyGroup)
  | compositeRoute (route : LegacyCompositeRoute)
  | proxy (proxy : LegacyProxy)
  | apiKey (key : LegacyApiKey)
  | account (account : LegacyAccount)

def LegacyObject.kind : LegacyObject → LegacyKind
  | .group _ => .group
  | .compositeRoute _ => .compositeRoute
  | .proxy _ => .proxy
  | .apiKey _ => .apiKey
  | .account _ => .account

/-- The objects, in the order of the import. -/
def LegacyExport.objects (e : LegacyExport) : List LegacyObject :=
  e.groups.map .group ++ e.compositeRoutes.map .compositeRoute ++ e.proxies.map .proxy ++ e.apiKeys.map .apiKey
    ++ e.accounts.map .account

/-- How often objects of a kind were taken up, and passed over. -/
structure MigrationSummary where
  imported : LegacyKind → ℕ
  skipped : LegacyKind → ℕ

def optionalValue {α : Type} (f : α → Value) : Option α → Value
  | none => .null
  | some a => f a

/-- The members that `serde_json` writes, in the order of the fields. -/
def LegacyObject.members : LegacyObject → Members
  | .group g => [("id", intValue g.id), ("name", .string g.name), ("status", .string g.status),
      ("models", .array (g.models.map .string))]
  | .compositeRoute r => [("group_id", intValue r.groupId), ("public_model", .string r.publicModel),
      ("upstream_model", .string r.upstreamModel), ("target_platform", .string r.targetPlatform),
      ("endpoint", .string r.endpoint), ("priority", intValue r.priority), ("enabled", .bool r.enabled)]
  | .proxy p => [("id", intValue p.id), ("protocol", .string p.protocol), ("host", .string p.host),
      ("port", intValue p.port), ("fallback_policy", .string p.fallbackPolicy)]
  | .apiKey k => [("id", intValue k.id), ("name", .string k.name), ("value", .string k.value),
      ("group_id", optionalValue intValue k.groupId)]
  | .account a => [("id", intValue a.id), ("name", .string a.name), ("platform", .string a.platform),
      ("account_type", .string a.accountType), ("priority", intValue a.priority), ("weight", intValue a.weight),
      ("schedulable", .bool a.schedulable), ("auth_file", optionalValue .string a.authFile),
      ("auth_index", optionalValue .string a.authIndex), ("proxy_id", optionalValue intValue a.proxyId),
      ("group_ids", .array (a.groupIds.map intValue)), ("credentials", a.credentials), ("extra", a.extra)]

/-! ## Credentials -/

inductive OAuthProvider where
  | openAi
  | anthropic
  | gemini
  | antigravity
  | grok
  deriving DecidableEq

namespace OAuthProvider

/-- `OAuthProvider::parse`. -/
@[irreducible]
def parse (value : String) : Option OAuthProvider :=
  let normalized := replace (replace (toAsciiLowercase (trim value)) "-" "_") " " "_"
  if normalized ∈ ["openai", "chatgpt", "codex"] then some .openAi
  else if normalized ∈ ["anthropic", "claude"] then some .anthropic
  else if normalized ∈ ["gemini", "google", "gemini_cli"] then some .gemini
  else if normalized = "antigravity" then some .antigravity
  else if normalized ∈ ["grok", "xai"] then some .grok
  else none

def canonicalName : OAuthProvider → String
  | openAi => "openai"
  | anthropic => "anthropic"
  | gemini => "gemini"
  | antigravity => "antigravity"
  | grok => "grok"

def cliType : OAuthProvider → String
  | openAi => "codex"
  | anthropic => "claude"
  | gemini => "gemini-cli"
  | antigravity => "antigravity"
  | grok => "xai"

end OAuthProvider

/-- `string_field`. -/
def stringField (value : Value) (names : List String) : String := trim ((names.findSome? value.getStr).getD "")

/-- `value_field`. -/
def valueField (value : Value) (names : List String) : Value := (names.findSome? value.get).getD .null

/-- The members of a converted credential, in the order of their names. -/
def authMembers (provider : OAuthProvider) (credentials : Value) (access : String) : Members :=
  let text (name : String) (names : List String) : String × Value := (name, .string (stringField credentials names))
  let refresh := text "refresh_token" ["refresh_token", "refreshToken"]
  let idToken := text "id_token" ["id_token", "idToken"]
  let email := text "email" ["email"]
  let expiry := stringField credentials ["expired", "expires_at", "expiresAt", "expiry"]
  let lastRefresh := stringField credentials ["last_refresh", "lastRefresh"]
  let lastRefresh : String × Value :=
    ("last_refresh", .string (if lastRefresh = "" then "1970-01-01T00:00:00Z" else lastRefresh))
  let expiresIn : String × Value := ("expires_in", valueField credentials ["expires_in", "expiresIn"])
  let type : String × Value := ("type", .string provider.cliType)
  let access : String × Value := ("access_token", .string access)
  match provider with
  | .openAi => [access, text "account_id" ["account_id", "accountId", "chatgpt_account_id"], email,
      ("expired", .string expiry), idToken, lastRefresh, refresh, type]
  | .anthropic => [access, text "account_uuid" ["account_uuid", "accountUuid"], email, ("expired", .string expiry),
      expiresIn, idToken, lastRefresh, text "organization_name" ["organization_name", "organizationName"],
      text "organization_uuid" ["organization_uuid", "organizationUuid"], refresh, type]
  | .gemini | .antigravity => [access, email, ("expires_at", .string expiry), lastRefresh,
      text "project_id" ["project_id", "projectId"], refresh, text "token_type" ["token_type", "tokenType"], type]
  | .grok => [access, ("auth_kind", .string "oauth"), text "base_url" ["base_url", "baseUrl"], email,
      ("expired", .string expiry), expiresIn, idToken, lastRefresh,
      text "redirect_uri" ["redirect_uri", "redirectUri"], refresh, text "sub" ["sub", "subject"],
      text "token_endpoint" ["token_endpoint", "tokenEndpoint"], text "token_type" ["token_type", "tokenType"], type]

/-- `build_auth_file`, without a route prefix. -/
def buildAuthFile (provider : OAuthProvider) (credentials : Value) : Option Value :=
  match credentials with
  | .object _ =>
    let access := stringField credentials ["access_token", "accessToken"]
    if access = "" then none else some (.object (authMembers provider credentials access))
  | _ => none

/-- `stable_identity_source`. -/
def stableIdentitySource (credentials : Value) : Option String :=
  ["account_id", "accountId", "chatgpt_account_id", "account_uuid", "accountUuid", "sub", "subject", "email",
    "project_id", "projectId", "refresh_token", "refreshToken", "access_token", "accessToken"].findSome? fun name =>
      ((credentials.getStr name).map trim).filter (· ≠ "")

/-! ## Surroundings -/

/-- What the import takes from the crates and the system: digests, the location of the auth directory, and the bytes of
a document. -/
structure ImportLibs (Bytes : Type) where
  sha256Hex : String → String
  hmacHex : String → String
  absolute : String → String
  encode : Value → Bytes
  decode : Bytes → Option Value

/-- What fails: an auth file that is there cannot be read, the auth directory cannot be made, a file cannot be written,
a secret cannot be read or written, the transaction cannot begin, a statement of an object fails; by position. -/
structure ImportFaults where
  existing : ℕ → Bool := fun _ => false
  directory : Bool := false
  file : ℕ → Bool := fun _ => false
  secretRead : ℕ → Bool := fun _ => false
  secretWrite : ℕ → Bool := fun _ => false
  transaction : Bool := false
  object : ℕ → Bool := fun _ => false

inductive ImportError where
  /-- An error of the import itself, with its text. -/
  | refused (text : String)
  /-- A read or write of a file or of a secret, or a statement, fails. -/
  | fault
  /-- An index into a text that is no boundary of a character: there is no result. -/
  | panic
  deriving DecidableEq

/-- The three stores; the auth directory has the files by name. -/
structure ImportState (Bytes : Type) where
  store : StateTables
  files : String → Option Bytes
  secrets : AccountSecrets

/-! ## The objects -/

section

variable {Bytes : Type} (libs : ImportLibs Bytes)

/-- The digest of an object: of its compact JSON. -/
def snapshotHash (object : LegacyObject) : String := libs.sha256Hex (Serde.print (.object object.members))

/-- The key of an object in the journal.  A route has no id of its own; it goes by its group and its public model. -/
def journalKey (object : LegacyObject) : String × String :=
  (object.kind.objectType,
    match object with
    | .group g => toString g.id
    | .compositeRoute r => libs.sha256Hex (toString r.groupId ++ ":" ++ r.publicModel)
    | .proxy p => toString p.id
    | .apiKey k => toString k.id
    | .account a => toString a.id)

/-- `journal_record`. -/
def journalRecord (s : StateTables) (object : LegacyObject) (newId : ℤ) : StateTables :=
  { s with journal := fun objectType legacyId =>
      if (objectType, legacyId) = journalKey libs object then some ⟨toString newId, snapshotHash libs object⟩
      else s.journal objectType legacyId }

/-- `resolve_legacy_id`. -/
def resolveLegacyId (s : StateTables) (objectType : String) (legacyId : ℤ) : ℤ :=
  ((s.journal objectType (toString legacyId)).bind fun row => parseI64 row.newId).getD legacyId

/-- The payload `{"legacy":true}`. -/
def legacyPayload : Value := .object [("legacy", .bool true)]

def importGroup (group : LegacyGroup) (s : StateTables) : Bool × StateTables :=
  match s.groups.insertAt group.id ⟨group.name, group.status, .array (group.models.map .string), legacyPayload⟩ with
  | none => (false, journalRecord libs s (.group group) group.id)
  | some groups => (true, journalRecord libs { s with groups := groups } (.group group) group.id)

def importRoute (route : LegacyCompositeRoute) (s : StateTables) : Except ImportError (Bool × StateTables) :=
  let row : CompositeRouteRow :=
    { key := ⟨resolveLegacyId s "group" route.groupId, route.publicModel, route.upstreamModel, route.targetPlatform,
        route.endpoint⟩
      priority := route.priority
      enabled := route.enabled
      payload := legacyPayload }
  match s.insertRoute row with
  | .error _ => .error .fault
  | .ok (id, s) => .ok (true, journalRecord libs s (.compositeRoute route) id)

def importProxy (proxy : LegacyProxy) (s : StateTables) : Bool × StateTables :=
  let row : ProxyRow :=
    { protocol := proxy.protocol
      host := proxy.host
      port := proxy.port
      normalizedUrl := proxy.protocol ++ "://" ++ proxy.host ++ ":" ++ toString proxy.port
      fallbackPolicy := proxy.fallbackPolicy
      payload := legacyPayload }
  match s.proxies.insertAt proxy.id row with
  | none => (false, journalRecord libs s (.proxy proxy) proxy.id)
  | some proxies => (true, journalRecord libs { s with proxies := proxies } (.proxy proxy) proxy.id)

/-- The last six bytes of a key, if a character starts there; a shorter key is taken whole. -/
def keySuffix (value : String) : Option String :=
  if value.utf8ByteSize < 6 then some value
  else (value.toList.tails.map String.ofList).find? fun suffix => suffix.utf8ByteSize = 6

/-- `import_api_key`; a key whose group is not there is no conflict to be passed over. -/
def importApiKey (key : LegacyApiKey) (s : StateTables) : Except ImportError (Bool × StateTables) :=
  match keySuffix key.value with
  | none => .error .panic
  | some suffix =>
    let groupId := key.groupId.map (resolveLegacyId s "group")
    match s.apiKeys.insertAt key.id
        ⟨key.name, libs.hmacHex ("key:" ++ key.value), suffix, groupId, "active", legacyPayload⟩ with
    | none => .ok (false, journalRecord libs s (.apiKey key) key.id)
    | some apiKeys =>
      if groupId.all fun id => (s.groups.get id).isSome then
        .ok (true, journalRecord libs { s with apiKeys := apiKeys } (.apiKey key) key.id)
      else .error .fault

/-- What `prepare_oauth_files` says of a converted account. -/
structure PreparedOAuth where
  authIndex : String
  authFile : String

/-- The names and the source of the identity of an account. -/
def accountSource (prepared : Option PreparedOAuth) (account : LegacyAccount) :
    Except ImportError (String × String × String) :=
  if eqIgnoreAsciiCase account.accountType "oauth" then
    match prepared with
    | none => .error (.refused ("CR-MIG-0003: legacy OAuth account " ++ toString account.id
        ++ " has no converted auth file"))
    | some prepared =>
      match stableIdentitySource account.credentials with
      | none => .error (.refused ("CR-MIG-0003: legacy OAuth account " ++ toString account.id
          ++ " has no stable credential identity"))
      | some source => .ok (prepared.authIndex, prepared.authFile, source)
  else
    .ok (account.authIndex.getD (toString account.id),
      account.authFile.getD ("legacy-" ++ account.platform ++ "-" ++ toString account.id ++ ".json"),
      toString account.id)

/-- The credentials without those that are secret. -/
def safeCredentials : Value → Value
  | .object members => .object (members.filter fun e =>
      e.1 ∉ ["api_key", "access_token", "refresh_token", "id_token", "cookie", "password"])
  | credentials => credentials

/-- The row of an account. -/
def legacyAccountRow (now : String) (account : LegacyAccount) (authIndex authFile identity : String) : AccountRow where
  platform := account.platform
  accountType := account.accountType
  authIndex := authIndex
  authFile := authFile
  stableIdentityHmac := identity
  status := "active"
  schedulable := account.schedulable
  priority := account.priority
  weight := account.weight
  proxyId := account.proxyId
  payload := .object [("credentials", safeCredentials account.credentials), ("extra", account.extra),
    ("imported_at", .string now), ("legacy", .bool true), ("name", .string account.name)]

/-- `import_account`.  Rows of an account whose weight does not fit are passed over, but the links behind it fail. -/
def importAccount (now : String) (prepared : Option PreparedOAuth) (account : LegacyAccount) (s : StateTables) :
    Except ImportError (Bool × StateTables) :=
  match accountSource prepared account with
  | .error e => .error e
  | .ok (authIndex, authFile, source) =>
    let identity := libs.hmacHex ("account:" ++ account.platform ++ ":" ++ source)
    match s.accounts.find fun row => row.stableIdentityHmac = identity && !row.deleted with
    | some (id, _) => .ok (false, journalRecord libs s (.account account) id)
    | none =>
      let row := legacyAccountRow now account authIndex authFile identity
      let inserted := if row.weightFits then s.accounts.insertAt account.id row else none
      let linked := StateTables.linkAll { s with accounts := inserted.getD s.accounts } account.id account.groupIds
      if linked.1 then .ok (inserted.isSome, journalRecord libs linked.2 (.account account) account.id)
      else .error .fault

/-- What is done with an object that is not in the journal. -/
def importObject (now : String) (prepared : ℤ → Option PreparedOAuth) (s : StateTables) :
    LegacyObject → Except ImportError (Bool × StateTables)
  | .group group => .ok (importGroup libs group s)
  | .compositeRoute route => importRoute libs route s
  | .proxy proxy => .ok (importProxy libs proxy s)
  | .apiKey key => importApiKey libs key s
  | .account account => importAccount libs now (prepared account.id) account s

/-- The text for an object that has changed. -/
def changedText : LegacyObject → String
  | .group group => "CR-MIG-0004: legacy group " ++ toString group.id ++ " changed after import (hash mismatch)"
  | .compositeRoute _ => "CR-MIG-0004: legacy composite route changed after import"
  | .proxy proxy => "CR-MIG-0004: legacy proxy " ++ toString proxy.id ++ " changed after import"
  | .apiKey key => "CR-MIG-0004: legacy api key " ++ toString key.id ++ " changed after import"
  | .account account => "CR-MIG-0004: legacy account " ++ toString account.id ++ " changed after import"

/-- The import of the objects, over the tables and their journal. -/
def legacyImporter (now : String) (prepared : ℤ → Option PreparedOAuth) :
    Importer StateTables LegacyObject (String × String) String ImportError where
  key := journalKey libs
  digest := snapshotHash libs
  journal := fun s key => (s.journal key.1 key.2).map (·.snapshotHash)
  changed := fun object => .refused (changedText object)
  act := fun object s => importObject libs now prepared s object

end

/-! ## Secrets -/

/-- `api_account_secrets`: the names and the secrets of the API accounts. -/
def apiAccountSecrets : List LegacyAccount → Except ImportError (List (String × String))
  | [] => .ok []
  | account :: rest =>
    if eqIgnoreAsciiCase account.accountType "oauth" then apiAccountSecrets rest
    else
      match ((account.credentials.getStr "api_key").map trim).filter (· ≠ "") with
      | none => .error (.refused ("CR-MIG-0003: legacy API account " ++ toString account.id ++ " has no API key"))
      | some secret =>
        match apiAccountSecrets rest with
        | .error e => .error e
        | .ok secrets => .ok ((accountSecretName account.id, secret) :: secrets)

/-- `restore_api_account_secrets`, of a list that has the last write first. -/
def restoreApiSecrets (secrets : AccountSecrets) : List (String × Option String) → AccountSecrets
  | [] => secrets
  | (name, some old) :: rest => restoreApiSecrets (secrets.writeText name old) rest
  | (name, none) :: rest => restoreApiSecrets (secrets.deleteText name) rest

/-- `write_api_account_secrets`, with what has been overwritten so far, the last one first.  Where a secret cannot be
written, the others are put back; where one cannot be read, nothing is. -/
def writeApiSecrets (reads writes : ℕ → Bool) (secrets : AccountSecrets) (previous : List (String × Option String)) :
    List (String × String) → AccountSecrets × Except ImportError (List (String × Option String))
  | [] => (secrets, .ok previous)
  | (name, secret) :: rest =>
    if reads 0 then (secrets, .error .fault)
    else if writes 0 then (restoreApiSecrets secrets previous, .error .fault)
    else
      writeApiSecrets (fun n => reads (n + 1)) (fun n => writes (n + 1)) (secrets.writeText name secret)
        ((name, secrets.readText name) :: previous) rest

/-! ## Auth files -/

/-- A converted account that is to be written. -/
structure PendingOAuth where
  accountId : ℤ
  provider : OAuthProvider
  authFile : String
  document : Value

/-- The conversion of one account. -/
def convertAccount (account : LegacyAccount) : Except ImportError PendingOAuth :=
  match OAuthProvider.parse account.platform with
  | none => .error (.refused ("CR-MIG-0003: unsupported OAuth provider for legacy account " ++ toString account.id))
  | some provider =>
    match buildAuthFile provider account.credentials with
    | none => .error (.refused ("CR-MIG-0003: legacy OAuth account " ++ toString account.id ++ " cannot be converted"))
    | some document =>
      .ok ⟨account.id, provider, "legacy-" ++ provider.canonicalName ++ "-" ++ toString account.id ++ ".json", document⟩

/-- The first loop of `prepare_oauth_files`. -/
def pendingOAuth : List LegacyAccount → Except ImportError (List PendingOAuth)
  | [] => .ok []
  | account :: rest =>
    if eqIgnoreAsciiCase account.accountType "oauth" then
      match convertAccount account with
      | .error e => .error e
      | .ok item =>
        match pendingOAuth rest with
        | .error e => .error e
        | .ok pending => .ok (item :: pending)
    else pendingOAuth rest

section

variable {Bytes : Type} (libs : ImportLibs Bytes)

/-- The second loop: a file that is there must have the document. -/
def checkExisting (files : String → Option Bytes) (faults : ℕ → Bool) : List PendingOAuth → Except ImportError Unit
  | [] => .ok ()
  | item :: rest =>
    match files item.authFile with
    | none => checkExisting files (fun n => faults (n + 1)) rest
    | some bytes =>
      if faults 0 then .error .fault
      else
        match libs.decode bytes with
        | none => .error (.refused "CR-MIG-0003: existing converted auth file is invalid")
        | some existing =>
          if existing = item.document then checkExisting files (fun n => faults (n + 1)) rest
          else .error (.refused ("CR-MIG-0004: converted auth file collision for legacy account "
            ++ toString item.accountId))

/-- `cleanup_created_auth_files`. -/
def cleanupCreated (files : String → Option Bytes) (created : List String) : String → Option Bytes :=
  created.foldl (fun files name => Function.update files name none) files

/-- `cli_file_auth_index`. -/
def cliFileAuthIndex (authType path : String) : String :=
  String.ofList ((libs.sha256Hex (toAsciiLowercase (trim authType) ++ ":" ++ trim path)).toList.take 16)

/-- The third loop, with the files made so far and what is prepared. -/
def writePending (faults : ℕ → Bool) (files : String → Option Bytes) (created : List String)
    (prepared : ℤ → Option PreparedOAuth) : List PendingOAuth →
    (String → Option Bytes) × Except ImportError ((ℤ → Option PreparedOAuth) × List String)
  | [] => (files, .ok (prepared, created))
  | item :: rest =>
    let prepared := Function.update prepared item.accountId
      (some ⟨cliFileAuthIndex libs item.provider.cliType (libs.absolute item.authFile), item.authFile⟩)
    match files item.authFile with
    | some _ => writePending (fun n => faults (n + 1)) files created prepared rest
    | none =>
      if faults 0 then (cleanupCreated files created, .error .fault)
      else
        writePending (fun n => faults (n + 1)) (Function.update files item.authFile (some (libs.encode item.document)))
          (created ++ [item.authFile]) prepared rest

/-- `prepare_oauth_files`. -/
def prepareOAuthFiles (faults : ImportFaults) (files : String → Option Bytes) (accounts : List LegacyAccount) :
    (String → Option Bytes) × Except ImportError ((ℤ → Option PreparedOAuth) × List String) :=
  match pendingOAuth accounts with
  | .error e => (files, .error e)
  | .ok [] => (files, .ok (fun _ => none, []))
  | .ok pending =>
    match checkExisting libs files faults.existing pending with
    | .error e => (files, .error e)
    | .ok () =>
      if faults.directory then (files, .error .fault)
      else writePending libs faults.file files [] (fun _ => none) pending

/-! ## The import -/

/-- The counts of a summary. -/
def summarize (objects : List LegacyObject) (flags : List Bool) : MigrationSummary where
  imported := fun kind => (objects.zip flags).countP fun e => e.1.kind = kind && e.2
  skipped := fun kind => (objects.zip flags).countP fun e => e.1.kind = kind && !e.2

/-- `import_legacy_export_with_auth_dir`: no result where it panics. -/
def importLegacyExport (faults : ImportFaults) (now : String) (e : LegacyExport) (s : ImportState Bytes) :
    Option (ImportState Bytes × Except ImportError MigrationSummary) :=
  match apiAccountSecrets e.accounts with
  | .error error => some (s, .error error)
  | .ok apiSecrets =>
    let files := prepareOAuthFiles libs faults s.files e.accounts
    match files.2 with
    | .error error => some ({ s with files := files.1 }, .error error)
    | .ok (prepared, created) =>
      let secrets := writeApiSecrets faults.secretRead faults.secretWrite s.secrets [] apiSecrets
      match secrets.2 with
      | .error error => some (⟨s.store, cleanupCreated files.1 created, secrets.1⟩, .error error)
      | .ok previous =>
        let undone : ImportState Bytes :=
          ⟨s.store, cleanupCreated files.1 created, restoreApiSecrets secrets.1 previous⟩
        if faults.transaction then some (undone, .error .fault)
        else
          match (legacyImporter libs now prepared).takeAll (fun n => if faults.object n then some .fault else none)
              e.objects s.store with
          | .error .panic => none
          | .error error => some (undone, .error error)
          | .ok (flags, store) => some (⟨store, files.1, secrets.1⟩, .ok (summarize e.objects flags))

end

end CodexRouter
