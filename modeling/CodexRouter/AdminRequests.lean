/-
# Admin requests

The handlers of `http_compat.rs` that write accounts, groups, composite routes and API keys, each from the decoded
body to the state and the response.  The authorization and the synchronisation of the backend behind a change are
left out.

A handler writes its statements one by one: when a link of an account fails, the account itself is there already.
-/
import CodexRouter.StateTables

namespace CodexRouter

open Text

/-- What the handlers take from the crates: the digests. -/
structure AdminLibs where
  stableIdentityHmac : String → String → String
  sha256Hex : String → String

/-- A response.  Writing a member of a value that is no object panics. -/
inductive Response where
  | success (data : Value)
  | failure (status : ℕ) (code message : String)
  | panicked
  deriving DecidableEq

/-- `value[key] = x`, several times. -/
def assignAll (value : Value) : List (String × Value) → Option Value
  | [] => some value
  | (key, x) :: rest =>
    match value with
    | .object members => assignAll (.object (Members.insert key x members)) rest
    | .null => assignAll (.object [(key, x)]) rest
    | _ => none

/-- A success with some members written into its data. -/
def succeed (value : Value) (entries : List (String × Value)) : Response :=
  match assignAll value entries with
  | none => .panicked
  | some value => .success value

def intValue (n : ℤ) : Value := .number (.int n)

/-- What is read of a secret: the part up to its first NUL. -/
def readableSecret (secret : String) : String := String.ofList (secret.toList.takeWhile (· ≠ '\x00'))

theorem readableSecret_readableSecret (secret : String) :
    readableSecret (readableSecret secret) = readableSecret secret := by
  rw [readableSecret, readableSecret, String.toList_ofList, List.takeWhile_takeWhile]
  simp

/-- The secrets of the API accounts, by name, as they are read: those of this installation, and those under the legacy
target, which are read where a scope is set. -/
structure AccountSecrets where
  isScoped : Bool
  own : String → Option String
  legacy : String → Option String
  readable : ∀ name secret, own name = some secret ∨ legacy name = some secret → readableSecret secret = secret

namespace AccountSecrets

/-- `read_text`. -/
def readText (secrets : AccountSecrets) (name : String) : Option String :=
  (secrets.own name).or (if secrets.isScoped then secrets.legacy name else none)

/-- `write_text`. -/
def writeText (secrets : AccountSecrets) (name secret : String) : AccountSecrets where
  isScoped := secrets.isScoped
  own := Function.update secrets.own name (some (readableSecret secret))
  legacy := secrets.legacy
  readable := by
    intro other old h
    rcases h with h | h
    · by_cases heq : other = name
      · subst heq
        rw [Function.update_self, Option.some.injEq] at h
        rw [← h, readableSecret_readableSecret]
      · rw [Function.update_of_ne heq] at h
        exact secrets.readable other old (Or.inl h)
    · exact secrets.readable other old (Or.inr h)

/-- `delete_text`. -/
def deleteText (secrets : AccountSecrets) (name : String) : AccountSecrets where
  isScoped := secrets.isScoped
  own := Function.update secrets.own name none
  legacy := if secrets.isScoped then Function.update secrets.legacy name none else secrets.legacy
  readable := by
    have hkept : ∀ (f : String → Option String) (other old : String), Function.update f name none other = some old →
        f other = some old := by
      intro f other old h
      by_cases heq : other = name
      · rw [heq, Function.update_self] at h
        cases h
      · rwa [Function.update_of_ne heq] at h
    intro other old h
    refine secrets.readable other old (h.imp (hkept _ other old) fun h => ?_)
    split at h
    · exact hkept _ other old h
    · exact h

end AccountSecrets

/-- `account_secret_name`. -/
def accountSecretName (id : ℤ) : String := "AccountKey-" ++ toString id

/-- The state of the control plane. -/
structure ControlState where
  store : StateTables
  secrets : AccountSecrets

/-! ## Groups -/

/-- `create_group`. -/
def createGroup (s : ControlState) (body : Value) : ControlState × Response :=
  let name := jsonString body "name"
  if trim name = "" then (s, .failure 400 "CR-VAL-0003" "group name is required")
  else
    let body := sanitizeStatePayload body
    let models := (pointer body "models_list_config" "models").getD (.array [])
    match s.store.groups.insert ⟨name, (body.getStr "status").getD "active", models, body⟩ with
    | none => (s, .failure 500 "CR-STO-0004" "could not create group")
    | some groups =>
      ({ s with store := { s.store with groups := groups } },
        succeed body [("id", intValue groups.last), ("models", models)])

/-- `update_group`. -/
def updateGroup (s : ControlState) (id : ℤ) (body : Value) : ControlState × Response :=
  let body := sanitizeStatePayload body
  let models := pointer body "models_list_config" "models"
  match s.store.groups.get id, s.store.groups.update id fun row =>
      { name := (body.getStr "name").getD row.name
        status := (body.getStr "status").getD row.status
        models := models.getD row.models
        payload := body } with
  | some _, some groups => ({ s with store := { s.store with groups := groups } }, succeed body [("id", intValue id)])
  | _, _ => (s, .failure 404 "CR-STO-0007" "group not found")

/-! ## Composite routes -/

/-- The endpoint of a route, which is any by default. -/
def routeEndpoint (body : Value) : String :=
  if trim (jsonString body "endpoint") = "" then "any" else jsonString body "endpoint"

/-- The row of a route: its models and platform are read before its secrets are taken out. -/
def routeRow (groupId : ℤ) (body : Value) : CompositeRouteRow :=
  let clean := sanitizeStatePayload body
  { key := {
      groupId := groupId
      publicModel := jsonString body "public_model"
      upstreamModel := jsonString body "upstream_model"
      targetPlatform := jsonString body "target_platform"
      endpoint := routeEndpoint clean }
    priority := max 1 (min 999999 (((clean.get "priority").bind Value.asInt).getD 1))
    enabled := ((clean.get "enabled").bind Value.asBool).getD true
    payload := clean }

/-- A route needs its models and its platform. -/
def routeNamed (body : Value) : Bool :=
  trim (jsonString body "public_model") ≠ "" && trim (jsonString body "upstream_model") ≠ ""
    && trim (jsonString body "target_platform") ≠ ""

def routeRequired : Response :=
  .failure 400 "CR-VAL-0003" "public_model, upstream_model and target_platform are required"

/-- `create_composite_route`. -/
def createCompositeRoute (s : ControlState) (groupId : ℤ) (body : Value) : ControlState × Response :=
  if !routeNamed body then (s, routeRequired)
  else
    match s.store.insertRoute (routeRow groupId body) with
    | .ok (id, store) =>
      ({ s with store := store },
        succeed (sanitizeStatePayload body) [("id", intValue id), ("group_id", intValue groupId)])
    | .error .unique => (s, .failure 409 "CR-STO-0008" "duplicate composite route")
    | .error _ => (s, .failure 500 "CR-STO-0004" "could not create composite route")

/-- `update_composite_route`. -/
def updateCompositeRoute (s : ControlState) (groupId id : ℤ) (body : Value) : ControlState × Response :=
  let body := sanitizeStatePayload body
  let updated := s.store.updateRoute true id groupId fun row =>
    { row with
      key := { row.key with
        publicModel := (body.getStr "public_model").getD row.key.publicModel
        upstreamModel := (body.getStr "upstream_model").getD row.key.upstreamModel
        targetPlatform := (body.getStr "target_platform").getD row.key.targetPlatform }
      priority := ((body.get "priority").bind Value.asInt).getD row.priority
      enabled := ((body.get "enabled").bind Value.asBool).getD row.enabled
      payload := body }
  match updated with
  | .ok (1, store) => ({ s with store := store }, succeed body [("id", intValue id), ("group_id", intValue groupId)])
  | _ => (s, .failure 404 "CR-STO-0007" "composite route not found")

/-- `delete_composite_route`. -/
def deleteCompositeRoute (s : ControlState) (groupId id : ℤ) : ControlState × Response :=
  match s.store.updateRoute false id groupId fun row => { row with deleted := true } with
  | .ok (1, store) => ({ s with store := store }, .success (.object [("deleted", .bool true)]))
  | _ => (s, .failure 404 "CR-STO-0007" "composite route not found")

/-- The loop of `reconcile_composite_routes`. -/
def upsertRoutes (store : StateTables) : List CompositeRouteRow → Except StoreError StateTables
  | [] => .ok store
  | row :: rest =>
    match store.upsertRoute row with
    | .error e => .error e
    | .ok store => upsertRoutes store rest

/-- Delete the routes of a group. -/
def StateTables.deleteRoutesOf (store : StateTables) (groupId : ℤ) : StateTables :=
  let delete (row : CompositeRouteRow) : CompositeRouteRow := { row with deleted := row.deleted || row.key.groupId = groupId }
  { store with routes := store.routes.updateAll delete fun _ => rfl }

/-- `reconcile_composite_routes`, whose statements are one transaction. -/
def reconcileCompositeRoutes (s : ControlState) (groupId : ℤ) (body : Value) : ControlState × Response :=
  match body.getArray "routes" with
  | none => (s, .failure 400 "CR-VAL-0003" "routes array is required")
  | some routes =>
    if !routes.all routeNamed then (s, routeRequired)
    else
      match upsertRoutes (s.store.deleteRoutesOf groupId) (routes.map (routeRow groupId)) with
      | .error _ => (s, .failure 500 "CR-STO-0004" "could not reconcile composite routes")
      | .ok store => ({ s with store := store }, .success (.object [("updated", intValue routes.length)]))

/-! ## Accounts -/

/-- `account_identity_source`. -/
def accountIdentitySource (accountType : String) (body : Value) : String :=
  ((if accountType = "apikey" then body.get "name"
    else ((pointer body "credentials" "access_token").or (pointer body "credentials" "refresh_token")).or
      (body.get "name")).bind Value.asStr).getD ""

/-- `account_payload`. -/
def accountPayload (id : ℤ) (row : AccountRow) : List (String × Value) :=
  [("id", intValue id), ("platform", .string row.platform), ("type", .string row.accountType),
    ("status", .string row.status), ("schedulable", .bool row.schedulable), ("priority", intValue row.priority),
    ("weight", intValue row.weight)]

/-- The secret that `persist_api_credential` writes. -/
def apiCredential (body : Value) : Option String :=
  ((pointer body "credentials" "api_key").bind Value.asStr).filter (trim · ≠ "")

/-- `persist_api_credential`, and whether it succeeded; a write may fail. -/
def persistApiCredential (s : ControlState) (fails : Bool) (id : ℤ) (body : Value) : Bool × ControlState :=
  match apiCredential body with
  | none => (true, s)
  | some secret =>
    if fails then (false, s)
    else (true, { s with secrets := s.secrets.writeText (accountSecretName id) secret })

@[simp] theorem store_persistApiCredential (s : ControlState) (fails : Bool) (id : ℤ) (body : Value) :
    (persistApiCredential s fails id body).2.store = s.store := by
  rw [persistApiCredential]
  split
  · rfl
  · split <;> rfl

section

variable (libs : AdminLibs)

/-- The type of an account, as it is stored. -/
def accountTypeOf (raw : String) : Option String :=
  if raw = "api" || raw = "apikey" then some "apikey" else if raw = "oauth" then some "oauth" else none

/-- The row of a new account. -/
def accountRow (accountType : String) (body : Value) : AccountRow :=
  let identity := libs.stableIdentityHmac (jsonString body "platform") (accountIdentitySource accountType body)
  let authIndex := "cr-account-" ++ takeChars identity 16
  { platform := jsonString body "platform"
    accountType := accountType
    authIndex := authIndex
    authFile := authIndex ++ ".json"
    stableIdentityHmac := identity
    status := ((sanitizeStatePayload body).getStr "status").getD "active"
    schedulable := true
    priority := max 1 (min 999999 (((body.get "priority").bind Value.asInt).getD 1))
    weight := max 1 (min 1000000 (((body.get "weight").bind Value.asInt).getD 1))
    payload := sanitizeStatePayload body }

/-- `create_account`; `fails` is a failure of the write of its secret. -/
def createAccountRequest (s : ControlState) (fails : Bool) (body : Value) : ControlState × Response :=
  let invalid := Response.failure 400 "CR-VAL-0003" "valid platform and account type are required"
  match accountTypeOf (jsonString body "type") with
  | none => (s, invalid)
  | some accountType =>
    if trim (jsonString body "platform") = "" then (s, invalid)
    else if trim (accountIdentitySource accountType body) = "" then
      (s, .failure 422 "CR-VAL-0004" "account credential reference is required")
    else
      let row := accountRow libs accountType body
      match s.store.insertAccount row with
      | .error .unique => (s, .failure 409 "CR-STO-0008" "duplicate account identity")
      | .error _ => (s, .failure 500 "CR-STO-0004" "could not create account")
      | .ok (id, store) =>
        let linked := store.syncAccountGroups id (groupIdsFrom body)
        let s := { s with store := linked.2 }
        if !linked.1 then (s, .failure 500 "CR-STO-0004" "could not create account")
        else
          let persisted := if accountType = "apikey" then persistApiCredential s fails id body else (true, s)
          if !persisted.1 then (persisted.2, .failure 500 "CR-AUT-0008" "could not store account credential")
          else (persisted.2, succeed row.payload
            (accountPayload id { row with status := "active" } ++ [("auth_index", .string row.authIndex)]))

/-- `update_account`. -/
def updateAccountRequest (s : ControlState) (fails : Bool) (id : ℤ) (body : Value) : ControlState × Response :=
  let clean := sanitizeStatePayload body
  let groupIds := groupIdsFrom clean
  let notFound := Response.failure 404 "CR-STO-0007" "account not found"
  match (s.store.accounts.get id).filter fun row => !row.deleted with
  | none => (s, notFound)
  | some old =>
    let merged := mergePayload old.payload clean
    let updated := s.store.updateAccount true id fun row =>
      { row with
        status := (clean.getStr "status").getD row.status
        schedulable := ((clean.get "schedulable").bind Value.asBool).getD row.schedulable
        priority := ((clean.get "priority").bind Value.asInt).getD row.priority
        weight := ((clean.get "weight").bind Value.asInt).getD row.weight
        payload := merged }
    match updated with
    | .ok (1, store) =>
      let linked := if groupIds.isEmpty then (true, store) else store.syncAccountGroups id groupIds
      let s := { s with store := linked.2 }
      if !linked.1 then (s, notFound)
      else ((persistApiCredential s fails id body).2, succeed merged [("id", intValue id)])
    | _ => (s, notFound)

/-- `deleted_account_tombstone`, with the new UUID. -/
def deletedAccountTombstone (id : ℤ) (uuid : String) : String :=
  libs.stableIdentityHmac "deleted" (toString id ++ ":" ++ uuid)

/-- `delete_account`; `fails` is a failure of the removal of its secret. -/
def deleteAccountRequest (s : ControlState) (fails : Bool) (uuid : String) (id : ℤ) : ControlState × Response :=
  match s.store.updateAccount true id fun row =>
      { row with deleted := true, schedulable := false, stableIdentityHmac := deletedAccountTombstone libs id uuid } with
  | .error _ => (s, .failure 500 "CR-STO-0006" "could not delete account")
  | .ok (0, _) => (s, .failure 404 "CR-STO-0007" "account not found")
  | .ok (_, store) =>
    ({ store := store.unlinkAccount id
       secrets := if fails then s.secrets else s.secrets.deleteText (accountSecretName id) },
      .success (.object [("deleted", .bool true)]))

/-- `update_account_status`. -/
def updateAccountStatus (s : ControlState) (id : ℤ) (status : String) : ControlState × Response :=
  match s.store.updateAccount true id fun row => { row with status := status } with
  | .ok (1, store) =>
    ({ s with store := store }, .success (.object [("id", intValue id), ("status", .string status)]))
  | _ => (s, .failure 404 "CR-STO-0007" "account not found")

/-- The action `schedulable` of `account_action`. -/
def setSchedulable (s : ControlState) (id : ℤ) (schedulable : Bool) : ControlState × Response :=
  match s.store.updateAccount true id fun row => { row with schedulable := schedulable } with
  | .ok (1, store) =>
    ({ s with store := store }, .success (.object [("id", intValue id), ("schedulable", .bool schedulable)]))
  | _ => (s, .failure 404 "CR-STO-0007" "account not found")

/-- The updates of `recover_account_after_probe`, which put an account back, or as it was before. -/
def setAccountState (s : ControlState) (id : ℤ) (status : String) (schedulable : Bool) : ControlState :=
  match s.store.updateAccount true id fun row => { row with status := status, schedulable := schedulable } with
  | .ok (_, store) => { s with store := store }
  | .error _ => s

/-! ## Logins -/

/-- What `materialize_oauth_account` has found out about a login before it writes. -/
structure OauthLogin where
  platform : String
  authIndex : String
  authFile : String
  identity : String
  priority : ℤ
  groupIds : List ℤ
  name : String
  email : String
  externalAccountId : String
  projectId : String
  /-- `oauth_type` and `tier_id`, for a login at Gemini. -/
  geminiOptions : Option (String × String)

/-- The members for the options of a login at Gemini. -/
def geminiMembers : Option (String × String) → Members
  | none => []
  | some (oauthType, tierId) => [("oauth_type", .string oauthType), ("tier_id", .string tierId)]

/-- The payload of an account that is made by a login. -/
def OauthLogin.payload (login : OauthLogin) : Value :=
  let named (key text : String) : Members := if trim text = "" then [] else [(key, .string text)]
  .object [
    ("credentials", .object (named "account_id" login.externalAccountId ++ named "email" login.email
      ++ named "project_id" login.projectId)),
    ("extra", .object ([("auth_file", .string login.authFile), ("auth_index", .string login.authIndex)]
      ++ geminiMembers login.geminiOptions)),
    ("name", .string login.name),
    ("notes", .string "Created by Codex-Router OAuth exchange.")]

/-- The second part of `materialize_oauth_account`: the account that was found to be the one of the login is
written over, whatever has become of it since; without one, there is a new account. -/
def writeOauthAccount (s : ControlState) (existing : Option ℤ) (login : OauthLogin) : ControlState × Option ℤ :=
  match existing with
  | some id =>
    match s.store.updateAccount false id fun row =>
        { row with
          authIndex := login.authIndex
          authFile := login.authFile
          stableIdentityHmac := login.identity
          status := "active"
          schedulable := true
          priority := login.priority
          payload := login.payload } with
    | .error _ => (s, none)
    | .ok (_, store) =>
      let linked := store.syncAccountGroups id login.groupIds
      ({ s with store := linked.2 }, if linked.1 then some id else none)
  | none =>
    match s.store.insertAccount {
        platform := login.platform
        accountType := "oauth"
        authIndex := login.authIndex
        authFile := login.authFile
        stableIdentityHmac := login.identity
        status := "active"
        schedulable := true
        priority := login.priority
        weight := 1
        payload := login.payload } with
    | .error _ => (s, none)
    | .ok (id, store) =>
      let linked := store.syncAccountGroups id login.groupIds
      ({ s with store := linked.2 }, if linked.1 then some id else none)

/-- A token of `grok_sso_to_oauth` that was converted: an account that is there already is left alone. -/
def importGrokAccount (s : ControlState) (token : String) (priority : ℤ) (name : String) (groupIds : List ℤ) :
    ControlState :=
  let identity := libs.stableIdentityHmac "grok" token
  let authIndex := "cr-account-" ++ takeChars identity 16
  if (s.store.accounts.find fun row => row.stableIdentityHmac = identity && !row.deleted).isSome then s
  else
    match s.store.insertAccount {
        platform := "grok"
        accountType := "oauth"
        authIndex := authIndex
        authFile := authIndex ++ ".json"
        stableIdentityHmac := identity
        status := "active"
        schedulable := true
        priority := priority
        weight := 1
        payload := .object [("name", .string name), ("notes", .string "Imported by Codex-Router SSO conversion.")] } with
    | .error _ => s
    | .ok (id, store) => { s with store := (store.syncAccountGroups id groupIds).2 }

/-! ## API keys -/

/-- `create_api_key`, with the key that it would make up. -/
def createApiKey (s : ControlState) (generated : String) (body : Value) : ControlState × Response :=
  let name := jsonString body "name"
  let customKey := jsonString body "custom_key"
  let keyValue := if trim customKey = "" then generated else customKey
  let groupId := (body.get "group_id").bind Value.asInt
  match s.store.insertApiKey {
      name := name
      keyHmac := libs.sha256Hex keyValue
      keySuffix := String.ofList (keyValue.toList.reverse.take 4).reverse
      groupId := groupId
      status := "active"
      payload := sanitizeStatePayload body } with
  | .ok (id, store) =>
    ({ s with store := store }, .success (.object [("group_id", (groupId.map intValue).getD .null), ("id", intValue id),
      ("key", .string keyValue), ("name", .string name), ("status", .string "active")]))
  | .error .unique => (s, .failure 409 "CR-STO-0008" "duplicate API key")
  | .error _ => (s, .failure 500 "CR-STO-0004" "could not create API key")

/-- `update_api_key`. -/
def updateApiKey (s : ControlState) (id : ℤ) (body : Value) : ControlState × Response :=
  let body := sanitizeStatePayload body
  match s.store.apiKeys.get id, s.store.apiKeys.update id fun row =>
      { row with
        status := if jsonString body "status" = "" then row.status else jsonString body "status"
        payload := body } with
  | some _, some apiKeys => ({ s with store := { s.store with apiKeys := apiKeys } }, succeed body [("id", intValue id)])
  | _, _ => (s, .failure 404 "CR-STO-0007" "API key not found")

/-- `delete_api_key`. -/
def deleteApiKey (s : ControlState) (id : ℤ) : ControlState × Response :=
  match s.store.apiKeys.get id with
  | none => (s, .failure 404 "CR-STO-0007" "API key not found")
  | some _ =>
    ({ s with store := { s.store with apiKeys := s.store.apiKeys.delete id } },
      .success (.object [("deleted", .bool true)]))

/-- `data_key_valid`. -/
def dataKeyValid (s : ControlState) (presented : String) : Bool :=
  s.store.apiKeys.rows.any fun e => e.2.keyHmac = libs.sha256Hex presented && e.2.status = "active"

end

end CodexRouter
