/-
# New logins of known accounts

A login makes a new account.  `reconcile_new_account` looks for an account that has the same identity, writes the
new credentials into it and deletes the new one.  The identity is one of several fields of an account, the first that
it carries (`stable_identity`), so that the other fields do not count.

`attachesSame_iff` says which accounts come out right.
-/
import CodexRouter.Base.Json
import CodexRouter.Base.Text
import Mathlib.Data.List.Nodup

namespace CodexRouter

open Text

/-! ## Reading accounts -/

/-- `usage::data`. -/
def usageData (value : Value) : Value := (value.get "data").getD value

/-- `usage::get`: the first member of the name, in any letter case. -/
def usageGet (value : Value) (name : String) : Option Value :=
  value.asObject.bind fun members => (members.find? fun entry => eqIgnoreAsciiCase entry.1 name).map (·.2)

/-- `usage::string`. -/
def usageString (value : Value) (name : String) : String :=
  match usageGet value name with
  | some (.string text) => text
  | some .null => ""
  | some other => trimMatches (· = '"') (Serde.print other)
  | none => ""

/-- `first_string`. -/
def firstString (value : Value) (fields : List String) : Option String :=
  (fields.map (usageString value)).find? (trim · ≠ "")

/-- `Provider`. -/
inductive LoginProvider where
  | openAi
  | anthropic
  | gemini
  | antigravity
  | grok
  deriving DecidableEq, Repr

/-- `Provider::as_str`. -/
def LoginProvider.asStr : LoginProvider → String
  | .openAi => "openai"
  | .anthropic => "anthropic"
  | .gemini => "gemini"
  | .antigravity => "antigravity"
  | .grok => "grok"

/-- The identity fields of a platform, with their kinds. -/
def identityFields (platform : String) : List (String × String) :=
  if platform = "openai" then [("account", "chatgpt_account_id"), ("user", "chatgpt_user_id")]
  else if platform = "anthropic" then
    [("account", "account_uuid"), ("organization", "org_uuid"), ("email", "email_address")]
  else if platform = "gemini" ∨ platform = "antigravity" ∨ platform = "google_one" then
    [("email", "email"), ("account", "account_id")]
  else if platform = "grok" then [("subject", "sub"), ("team", "team_id"), ("email", "email")]
  else []

/-- `stable_identity`. -/
def stableIdentity (platform : String) (credentials extra : Value) : Option String :=
  let platform := toAsciiLowercase (trim platform)
  (identityFields platform).findSome? fun (kind, field) =>
    (((firstString credentials [field]).or (firstString extra [field])).filter (trim · ≠ "")).map fun value =>
      platform ++ "|" ++ kind ++ "|" ++ toAsciiLowercase (trim value)

/-- `ExistingAccount`. -/
structure ExistingAccount where
  id : ℤ
  name : String
  priority : ℤ
  identity : Option String

/-- `OAuthResult`. -/
structure OAuthResult where
  accountId : ℤ
  accountName : String
  reusedExisting : Bool
  deriving DecidableEq, Repr

/-- A request that changes accounts. -/
inductive AccountCall where
  | put (id : ℤ) (body : Value)
  | delete (id : ℤ)

/-- The answers of the administration to the requests, by the request. -/
structure AccountReplies where
  detail : Except String Value
  put : Except String Unit
  delete : Except String Unit

/-- `reconcile_new_account`, with the id in the created account: the result, and the requests that were answered
well. -/
def reconcileNewAccount (replies : AccountReplies) (provider : LoginProvider) (createdId : ℤ)
    (existing : List ExistingAccount) (groupId : ℤ) : Except String OAuthResult × List AccountCall :=
  if createdId ≤ 0 then (.error "class=invalid_response", [])
  else
    match replies.detail with
    | .error e => (.error e, [])
    | .ok reply =>
      let detail := usageData reply
      let credentials := (usageGet detail "credentials").getD .null
      let extra := (usageGet detail "extra").getD .null
      let identity := stableIdentity provider.asStr credentials extra
      let duplicate := identity.bind fun identity => existing.find? fun account => account.identity = some identity
      match duplicate with
      | none => (.ok ⟨createdId, usageString detail "name", false⟩, [])
      | some account =>
        let body := Value.object [("credentials", credentials), ("extra", extra), ("status", .string "active"),
          ("group_ids", .array [.number (.int groupId)]), ("priority", .number (.int account.priority)),
          ("confirm_mixed_channel_risk", .bool true)]
        match replies.put with
        | .error e => (.error e, [])
        | .ok () =>
          match replies.delete with
          | .error e => (.error e, [.put account.id body])
          | .ok () => (.ok ⟨account.id, account.name, true⟩, [.put account.id body, .delete createdId])

/-! ## What it is to do -/

/-- An account with what identifies it. -/
structure LoginAccount where
  id : ℤ
  name : String
  priority : ℤ
  credentials : Value
  extra : Value

namespace LoginAccount

/-- The account as it is listed. -/
def existing (provider : LoginProvider) (account : LoginAccount) : ExistingAccount where
  id := account.id
  name := account.name
  priority := account.priority
  identity := stableIdentity provider.asStr account.credentials account.extra

/-- The account as the administration shows it. -/
def detail (account : LoginAccount) : Value :=
  .object [("name", .string account.name), ("credentials", account.credentials), ("extra", account.extra)]

/-- What an account carries in a field, without surrounding space and in lower case. -/
def carried (account : LoginAccount) (field : String) : Option String :=
  ((firstString account.credentials [field]).or (firstString account.extra [field])).map
    fun value => toAsciiLowercase (trim value)

/-- The first field that an account carries, by its kind. -/
def firstCarried (provider : LoginProvider) (account : LoginAccount) : Option (String × String) :=
  (identityFields provider.asStr).findSome? fun (kind, field) => (account.carried field).map (kind, ·)

end LoginAccount

/-- Two accounts carry a field both, and agree on all such fields. -/
structure SameAccount (provider : LoginProvider) (account other : LoginAccount) : Prop where
  common : ∃ field ∈ (identityFields provider.asStr).map (·.2),
    (account.carried field).isSome ∧ (other.carried field).isSome
  agree : ∀ field ∈ (identityFields provider.asStr).map (·.2), ∀ value value', account.carried field = some value →
    other.carried field = some value' → value = value'

/-- The accounts of a provider, by their ids. -/
structure LoginAccounts where
  accounts : List LoginAccount
  nodup : (accounts.map LoginAccount.id).Nodup

section

variable (provider : LoginProvider) (known : LoginAccounts) (created : LoginAccount) (groupId : ℤ)

/-- The requests for a new account, as they are answered. -/
def loginCalls (put delete : Except String Unit) : List AccountCall :=
  (reconcileNewAccount ⟨.ok created.detail, put, delete⟩ provider created.id
    (known.accounts.map (LoginAccount.existing provider)) groupId).2

/-- A login is attached only to the same account, and if there is one; the users of a workspace stay apart. -/
structure AttachesSame : Prop where
  only : ∀ put delete, ∀ account ∈ known.accounts, ∀ body,
    .put account.id body ∈ loginCalls provider known created groupId put delete → SameAccount provider account created
  whenever : 0 < created.id → (∃ account ∈ known.accounts, SameAccount provider account created) →
    ∃ account ∈ known.accounts, ∃ body, SameAccount provider account created
      ∧ loginCalls provider known created groupId (.ok ()) (.ok ()) = [.put account.id body, .delete created.id]
  users : provider = .openAi → ∀ put delete, ∀ account ∈ known.accounts, ∀ user user' body,
    account.carried "chatgpt_user_id" = some user → created.carried "chatgpt_user_id" = some user' → user ≠ user' →
      .put account.id body ∉ loginCalls provider known created groupId put delete

/-- The first account whose first field is the new account's is the same account; if there is none, no account is. -/
def FirstFieldDecides : Prop :=
  match (created.firstCarried provider).bind fun first =>
    known.accounts.find? fun account => account.firstCarried provider = some first with
  | some account => SameAccount provider account created
  | none => ∀ account ∈ known.accounts, ¬ SameAccount provider account created

end

/-! ## The identity -/

section

variable {provider : LoginProvider} {known : LoginAccounts} {created account : LoginAccount} {groupId : ℤ}

theorem trim_of_firstString {value : Value} {field text : String} (h : firstString value [field] = some text) :
    trim text ≠ "" := by
  simpa using List.find?_some h

/-- What is carried is not blank, so that the check for it changes nothing. -/
theorem filter_carried (account : LoginAccount) (field : String) :
    (((firstString account.credentials [field]).or (firstString account.extra [field])).filter (trim · ≠ ""))
      = (firstString account.credentials [field]).or (firstString account.extra [field]) := by
  cases hfirst : (firstString account.credentials [field]).or (firstString account.extra [field]) with
  | none => rfl
  | some text =>
    rw [Option.filter_some, if_pos]
    rw [decide_eq_true_eq]
    cases hcredentials : firstString account.credentials [field] with
    | some text' =>
      rw [hcredentials, Option.some_or] at hfirst
      exact Option.some.inj hfirst ▸ trim_of_firstString hcredentials
    | none =>
      rw [hcredentials, Option.none_or] at hfirst
      exact trim_of_firstString hfirst

/-- The text of an identity. -/
def identityText (provider : LoginProvider) (first : String × String) : String :=
  provider.asStr ++ "|" ++ first.1 ++ "|" ++ first.2

/-- The identity is the first field that an account carries. -/
theorem stableIdentity_eq (provider : LoginProvider) (account : LoginAccount) :
    stableIdentity provider.asStr account.credentials account.extra
      = (account.firstCarried provider).map (identityText provider) := by
  have hplatform : toAsciiLowercase (trim provider.asStr) = provider.asStr := by
    cases provider <;> decide +kernel
  unfold stableIdentity LoginAccount.firstCarried
  dsimp only
  rw [hplatform]
  induction identityFields provider.asStr with
  | nil => rfl
  | cons entry rest ih =>
    obtain ⟨kind, field⟩ := entry
    rw [List.findSome?_cons, List.findSome?_cons, ih]
    dsimp only
    rw [filter_carried, LoginAccount.carried]
    cases (firstString account.credentials [field]).or (firstString account.extra [field]) <;> rfl

/-- The first field is one of the provider's. -/
theorem mem_identityFields_of_firstCarried {first : String × String}
    (h : account.firstCarried provider = some first) : ∃ field, (first.1, field) ∈ identityFields provider.asStr
      ∧ account.carried field = some first.2 := by
  obtain ⟨⟨kind, field⟩, hmem, hcarried⟩ := List.exists_of_findSome?_eq_some h
  obtain ⟨value, hvalue, rfl⟩ := Option.map_eq_some_iff.mp hcarried
  exact ⟨field, hmem, hvalue⟩

/-- Identities are equal only if the first fields are. -/
theorem identityText_injective {first first' : String × String} {other : LoginAccount}
    (h : account.firstCarried provider = some first) (h' : other.firstCarried provider = some first')
    (htext : identityText provider first = identityText provider first') : first = first' := by
  have hkind : ∀ entry ∈ identityFields provider.asStr, '|' ∉ entry.1.toList := by
    cases provider <;> decide +kernel
  obtain ⟨field, hmem, -⟩ := mem_identityFields_of_firstCarried h
  obtain ⟨field', hmem', -⟩ := mem_identityFields_of_firstCarried h'
  have hchars := congrArg String.toList htext
  unfold identityText at hchars
  simp only [String.toList_append, List.append_assoc] at hchars
  have hrest := List.append_cancel_left (List.append_cancel_left hchars)
  obtain ⟨hkinds, hvalues⟩ := append_cons_inj (hkind _ hmem) (hkind _ hmem') hrest
  exact Prod.ext (String.toList_injective hkinds) (String.toList_injective hvalues)

/-- The account that a login is attached to. -/
theorem find_identity (provider : LoginProvider) (accounts : List LoginAccount) (created : LoginAccount) :
    ((created.firstCarried provider).map (identityText provider)).bind (fun identity =>
        (accounts.map (LoginAccount.existing provider)).find? fun account => account.identity = some identity)
      = ((created.firstCarried provider).bind fun first =>
        accounts.find? fun account => account.firstCarried provider = some first).map (LoginAccount.existing provider) := by
  cases hfirst : created.firstCarried provider with
  | none => rfl
  | some first =>
    rw [Option.map_some, Option.bind_some, Option.bind_some, List.find?_map]
    have hsame : ((fun existing : ExistingAccount => decide (existing.identity = some (identityText provider first)))
        ∘ LoginAccount.existing provider) = fun account => decide (account.firstCarried provider = some first) := by
      funext account
      rw [Function.comp_apply, decide_eq_decide, LoginAccount.existing, stableIdentity_eq, Option.map_eq_some_iff]
      constructor
      · rintro ⟨first', hother, htext⟩
        rw [hother, identityText_injective hother hfirst htext]
      · intro hother
        exact ⟨first, hother, rfl⟩
    rw [hsame]

/-! ## The requests -/

/-- The account that a login is attached to, if any. -/
def attachedTo (provider : LoginProvider) (known : LoginAccounts) (created : LoginAccount) : Option LoginAccount :=
  (created.firstCarried provider).bind fun first =>
    known.accounts.find? fun account => account.firstCarried provider = some first

theorem mem_of_attachedTo (h : attachedTo provider known created = some account) : account ∈ known.accounts := by
  obtain ⟨first, -, hfind⟩ := Option.bind_eq_some_iff.mp h
  exact List.mem_of_find?_eq_some hfind

theorem usageGet_detail (account : LoginAccount) : usageGet account.detail "credentials" = some account.credentials
    ∧ usageGet account.detail "extra" = some account.extra := by
  have hname : eqIgnoreAsciiCase "name" "credentials" = false ∧ eqIgnoreAsciiCase "name" "extra" = false
      ∧ eqIgnoreAsciiCase "credentials" "extra" = false := by decide +kernel
  have hsame : eqIgnoreAsciiCase "credentials" "credentials" = true ∧ eqIgnoreAsciiCase "extra" "extra" = true := by
    decide +kernel
  simp [usageGet, LoginAccount.detail, Value.asObject, hname, hsame]

/-- The requests for a new account: none, or those of the account it is attached to. -/
theorem loginCalls_eq (provider : LoginProvider) (known : LoginAccounts) (created : LoginAccount) (groupId : ℤ)
    (put delete : Except String Unit) : ∃ body : LoginAccount → Value,
      loginCalls provider known created groupId put delete =
        if created.id ≤ 0 then []
        else
          match attachedTo provider known created, put, delete with
          | none, _, _ => []
          | some _, .error _, _ => []
          | some account, .ok (), .error _ => [.put account.id (body account)]
          | some account, .ok (), .ok () => [.put account.id (body account), .delete created.id] := by
  refine ⟨fun account => .object [("credentials", created.credentials), ("extra", created.extra),
    ("status", .string "active"), ("group_ids", .array [.number (.int groupId)]),
    ("priority", .number (.int account.priority)), ("confirm_mixed_channel_risk", .bool true)], ?_⟩
  have hdetail : usageData created.detail = created.detail := rfl
  obtain ⟨hcredentials, hextra⟩ := usageGet_detail created
  unfold loginCalls reconcileNewAccount
  split
  · rfl
  · dsimp only
    rw [hdetail, hcredentials, hextra, Option.getD_some, Option.getD_some, stableIdentity_eq, find_identity,
      ← attachedTo]
    cases attachedTo provider known created with
    | none => rfl
    | some account =>
      cases put with
      | error e => rfl
      | ok _ => cases delete <;> rfl

/-- A request that writes into an account is made for the one that the login is attached to. -/
theorem put_mem_loginCalls {put delete : Except String Unit} {id : ℤ} {body : Value}
    (h : .put id body ∈ loginCalls provider known created groupId put delete) :
    ∃ account, attachedTo provider known created = some account ∧ account.id = id := by
  obtain ⟨body', hcalls⟩ := loginCalls_eq provider known created groupId put delete
  rw [hcalls] at h
  split at h
  · cases h
  · split at h
    · cases h
    · cases h
    · rename_i account _ hattached
      obtain ⟨hid, -⟩ := AccountCall.put.inj (List.mem_singleton.mp h)
      exact ⟨account, hattached, hid.symm⟩
    · rename_i account hattached
      rcases List.mem_cons.mp h with hput | hdelete
      · exact ⟨account, hattached, (AccountCall.put.inj hput).1.symm⟩
      · cases List.mem_singleton.mp hdelete

variable (groupId) in
theorem loginCalls_of_attached (hid : 0 < created.id) (h : attachedTo provider known created = some account) :
    ∃ body, loginCalls provider known created groupId (.ok ()) (.ok ())
      = [.put account.id body, .delete created.id] := by
  obtain ⟨body, hcalls⟩ := loginCalls_eq provider known created groupId (.ok ()) (.ok ())
  rw [if_neg (by omega), h] at hcalls
  exact ⟨body account, hcalls⟩

theorem loginCalls_of_not_attached (put delete : Except String Unit) (h : attachedTo provider known created = none) :
    loginCalls provider known created groupId put delete = [] := by
  obtain ⟨body, hcalls⟩ := loginCalls_eq provider known created groupId put delete
  rw [hcalls, h]
  split <;> rfl

/-- Logins are attached to the same account exactly where the first field decides it. -/
theorem attachesSame_iff (provider : LoginProvider) (known : LoginAccounts) (created : LoginAccount) (groupId : ℤ) :
    AttachesSame provider known created groupId ↔ (0 < created.id → FirstFieldDecides provider known created) := by
  have hdecides : FirstFieldDecides provider known created ↔
      match attachedTo provider known created with
      | some account => SameAccount provider account created
      | none => ∀ account ∈ known.accounts, ¬ SameAccount provider account created := Iff.rfl
  constructor
  · intro hattaches hid
    rw [hdecides]
    cases hattached : attachedTo provider known created with
    | none =>
      intro account hmem hsame
      obtain ⟨_, -, _, -, hcalls⟩ := hattaches.whenever hid ⟨account, hmem, hsame⟩
      rw [loginCalls_of_not_attached _ _ hattached] at hcalls
      cases hcalls
    | some account =>
      obtain ⟨body, hcalls⟩ := loginCalls_of_attached groupId hid hattached
      refine hattaches.only (.ok ()) (.ok ()) account (mem_of_attachedTo hattached) body ?_
      rw [hcalls]
      exact List.mem_cons_self
  · intro hcondition
    have honly : ∀ put delete, ∀ account ∈ known.accounts, ∀ body,
        .put account.id body ∈ loginCalls provider known created groupId put delete →
          SameAccount provider account created := by
      intro put delete account hmem body hput
      by_cases hid : created.id ≤ 0
      · obtain ⟨body', hcalls⟩ := loginCalls_eq provider known created groupId put delete
        rw [hcalls, if_pos hid] at hput
        cases hput
      · obtain ⟨other, hattached, hsame⟩ := put_mem_loginCalls hput
        have hother : other = account :=
          List.inj_on_of_nodup_map known.nodup (mem_of_attachedTo hattached) hmem hsame
        have hdecided := hdecides.mp (hcondition (by omega))
        rw [hattached] at hdecided
        exact hother ▸ hdecided
    refine ⟨honly, fun hid hexists => ?_, fun hprovider put delete account hmem user user' body huser huser' hne hput =>
      ?_⟩
    · have hdecided := hdecides.mp (hcondition hid)
      cases hattached : attachedTo provider known created with
      | none =>
        rw [hattached] at hdecided
        obtain ⟨account, hmem, hsame⟩ := hexists
        exact absurd hsame (hdecided account hmem)
      | some account =>
        rw [hattached] at hdecided
        obtain ⟨body, hcalls⟩ := loginCalls_of_attached groupId hid hattached
        exact ⟨account, mem_of_attachedTo hattached, body, hdecided, hcalls⟩
    · have hfield : "chatgpt_user_id" ∈ (identityFields provider.asStr).map (·.2) := by
        rw [hprovider]
        decide +kernel
      exact hne ((honly put delete account hmem body hput).agree _ hfield user user' huser huser')

/-- The account of one user of a workspace. -/
def workspaceUser (id : ℤ) (user : String) : LoginAccount where
  id := id
  name := user
  priority := 1
  credentials := .object [("chatgpt_account_id", .string "w"), ("chatgpt_user_id", .string user)]
  extra := .null

/-- The first user of a workspace. -/
def firstUser : LoginAccounts := ⟨[workspaceUser 1 "ann"], List.nodup_singleton _⟩

/-- The login of the second user takes the account of the first. -/
theorem not_attachesSame_workspace :
    (reconcileNewAccount ⟨.ok (workspaceUser 2 "bob").detail, .ok (), .ok ()⟩ .openAi 2
        (firstUser.accounts.map (LoginAccount.existing .openAi)) 7).1 = .ok ⟨1, "ann", true⟩
      ∧ ¬ AttachesSame .openAi firstUser (workspaceUser 2 "bob") 7 := by
  refine ⟨by decide +kernel, fun hattaches => ?_⟩
  have huser : (workspaceUser 1 "ann").carried "chatgpt_user_id" = some "ann" := by decide +kernel
  have huser' : (workspaceUser 2 "bob").carried "chatgpt_user_id" = some "bob" := by decide +kernel
  have hattached : (attachedTo .openAi firstUser (workspaceUser 2 "bob")).map LoginAccount.id = some 1 := by
    decide +kernel
  obtain ⟨account, hattached, hid⟩ := Option.map_eq_some_iff.mp hattached
  obtain ⟨body, hcalls⟩ := loginCalls_of_attached 7 (show 0 < (workspaceUser 2 "bob").id by decide) hattached
  refine hattaches.users rfl (.ok ()) (.ok ()) (workspaceUser 1 "ann") List.mem_cons_self "ann" "bob" body huser huser'
    (by decide) ?_
  rw [hcalls, hid]
  exact List.mem_cons_self

end

end CodexRouter
