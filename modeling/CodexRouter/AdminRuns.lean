/-
# Runs of admin requests

What holds of the tables after any admin requests, in any order.  `StoreChange` says once what a request can do to
them, one statement or pair of statements at a time, and every result here is read off it.

* `accounts_settled` : the id of an account stands for this account for ever, and what is deleted stays deleted;
* `clean_run` : no payload ever holds a member with the name of a secret;
* `sound_run` : a deleted account has no links and is not scheduled, in runs in which no login is written into an
  account that was deleted since it was found.
-/
import CodexRouter.AdminRequests
import CodexRouter.Base.Run
import Mathlib.Logic.Relation

namespace CodexRouter

open Text Relation

/-! ## Requests -/

/-- An admin request, with what it decides on its own: failures of the secret store, new UUIDs, and for a login the
account that was found. -/
inductive AdminRequest where
  | createGroup (body : Value)
  | updateGroup (id : ℤ) (body : Value)
  | createRoute (groupId : ℤ) (body : Value)
  | updateRoute (groupId id : ℤ) (body : Value)
  | deleteRoute (groupId id : ℤ)
  | reconcileRoutes (groupId : ℤ) (body : Value)
  | createAccount (fails : Bool) (body : Value)
  | updateAccount (fails : Bool) (id : ℤ) (body : Value)
  | deleteAccount (fails : Bool) (uuid : String) (id : ℤ)
  | accountStatus (id : ℤ) (status : String)
  | accountSchedulable (id : ℤ) (schedulable : Bool)
  | accountState (id : ℤ) (status : String) (schedulable : Bool)
  | login (existing : Option ℤ) (login : OauthLogin)
  | grokAccount (token : String) (priority : ℤ) (name : String) (groupIds : List ℤ)
  | createKey (generated : String) (body : Value)
  | updateKey (id : ℤ) (body : Value)
  | deleteKey (id : ℤ)

section

variable (libs : AdminLibs)

/-- The state behind a request. -/
def performAdmin (s : ControlState) : AdminRequest → ControlState
  | .createGroup body => (createGroup s body).1
  | .updateGroup id body => (updateGroup s id body).1
  | .createRoute groupId body => (createCompositeRoute s groupId body).1
  | .updateRoute groupId id body => (updateCompositeRoute s groupId id body).1
  | .deleteRoute groupId id => (deleteCompositeRoute s groupId id).1
  | .reconcileRoutes groupId body => (reconcileCompositeRoutes s groupId body).1
  | .createAccount fails body => (createAccountRequest libs s fails body).1
  | .updateAccount fails id body => (updateAccountRequest s fails id body).1
  | .deleteAccount fails uuid id => (deleteAccountRequest libs s fails uuid id).1
  | .accountStatus id status => (updateAccountStatus s id status).1
  | .accountSchedulable id schedulable => (setSchedulable s id schedulable).1
  | .accountState id status schedulable => setAccountState s id status schedulable
  | .login existing login => (writeOauthAccount s existing login).1
  | .grokAccount token priority name groupIds => importGrokAccount libs s token priority name groupIds
  | .createKey generated body => (createApiKey libs s generated body).1
  | .updateKey id body => (updateApiKey s id body).1
  | .deleteKey id => (deleteApiKey s id).1

/-- The identity that a deletion would leave. -/
def tombstoneOf : AdminRequest → Option String
  | .deleteAccount _ uuid id => some (deletedAccountTombstone libs id uuid)
  | _ => none

/-- The group whose routes are replaced. -/
def replacedGroup : AdminRequest → Option ℤ
  | .reconcileRoutes groupId _ => some groupId
  | _ => none

/-- The request is about the API keys. -/
def keyRequest : AdminRequest → Bool
  | .createKey _ _ | .updateKey _ _ | .deleteKey _ => true
  | _ => false

/-- The account of a login is still there when the login is written. -/
def undisturbedLogin (s : ControlState) : AdminRequest → Bool
  | .login (some id) _ => (s.store.accounts.get id).any fun row => !row.deleted
  | _ => true

/-! ## Changes -/

/-- The texts of JSON in the rows of a table. -/
def RowsClean {ρ κ : Type} {key : ρ → Option κ} (payloads : ρ → List Value) (t : Table ρ key) : Prop :=
  ∀ id row, t.get id = some row → ∀ v ∈ payloads row, PayloadClean v

def GroupRow.payloads (row : GroupRow) : List Value := [row.models, row.payload]

/-- What the requests of a run may do: the tombstones that they make, the groups whose routes they replace, whether they
may not write to accounts that are deleted, and whether they may write API keys. -/
structure Scope where
  tombstones : String → Prop
  replaced : ℤ → Prop
  calm : Bool
  keys : Prop

/-- No limits. -/
def Scope.all : Scope := ⟨fun _ => True, fun _ => True, false, True⟩

/-- The route of a group stays in the group, and a deleted one stays as it is. -/
structure CompositeRouteRow.Kept (groupId : ℤ) (row row' : CompositeRouteRow) : Prop where
  group : row'.key.groupId = row.key.groupId
  deleted : row.key.groupId = groupId → row.deleted = true → row'.deleted = true ∧ row'.key = row.key

variable (scope : Scope)

/-- What a request can do to the tables at a time. -/
inductive StoreChange (s : StateTables) : StateTables → Prop where
  | newAccount {row : AccountRow} {accounts : Table AccountRow fun row => some row.stableIdentityHmac}
      (h : s.accounts.insert row = some accounts) (hlive : row.deleted = false) (hclean : PayloadClean row.payload) :
      StoreChange s { s with accounts := accounts }
  | edit {id : ℤ} {f : AccountRow → AccountRow} {row : AccountRow}
      {accounts : Table AccountRow fun row => some row.stableIdentityHmac} (hget : s.accounts.get id = some row)
      (hlive : scope.calm = true → row.deleted = false) (h : s.accounts.update id f = some accounts)
      (hf : (f row).platform = row.platform ∧ (f row).accountType = row.accountType ∧ (f row).deleted = row.deleted)
      (hclean : PayloadClean row.payload → PayloadClean (f row).payload) :
      StoreChange s { s with accounts := accounts }
  | delete {id : ℤ} {tombstone : String} {row : AccountRow}
      {accounts : Table AccountRow fun row => some row.stableIdentityHmac} (hget : s.accounts.get id = some row)
      (h : s.accounts.update id (fun row =>
        { row with deleted := true, schedulable := false, stableIdentityHmac := tombstone }) = some accounts)
      (hmade : scope.tombstones tombstone) : StoreChange s (StateTables.unlinkAccount { s with accounts := accounts } id)
  | link {id : ℤ} {groupIds : List ℤ}
      (hlive : scope.calm = true → ∃ row, s.accounts.get id = some row ∧ row.deleted = false) :
      StoreChange s (s.syncAccountGroups id groupIds).2
  | groups {groups : Table GroupRow GroupRow.key} (h : s.groups.Evolves (fun _ _ => True) groups)
      (hclean : RowsClean GroupRow.payloads s.groups → RowsClean GroupRow.payloads groups) :
      StoreChange s { s with groups := groups }
  | routes {routes : Table CompositeRouteRow fun row => some row.key}
      (h : ∀ id row, routes.get id = some row → (s.groups.get row.key.groupId).isSome
        ∨ ∃ old, s.routes.get id = some old ∧ old.key.groupId = row.key.groupId)
      (hkept : ∀ groupId, ¬ scope.replaced groupId → s.routes.Evolves (CompositeRouteRow.Kept groupId) routes)
      (hclean : RowsClean (fun row => [row.payload]) s.routes → RowsClean (fun row => [row.payload]) routes) :
      StoreChange s { s with routes := routes }
  | apiKeys {apiKeys : Table ApiKeyRow fun row => some row.keyHmac} (hkeys : scope.keys)
      (hclean : RowsClean (fun row => [row.payload]) s.apiKeys → RowsClean (fun row => [row.payload]) apiKeys) :
      StoreChange s { s with apiKeys := apiKeys }

/-- The changes of a request. -/
abbrev StoreChanges : StateTables → StateTables → Prop := ReflTransGen (StoreChange scope)

variable {libs scope} {s s' : StateTables} {id : ℤ} {n : ℕ}

section

variable {ρ κ : Type} [DecidableEq κ] {key : ρ → Option κ} {t t' : Table ρ key} {payloads : ρ → List Value} {row : ρ}

theorem rowsClean_insert (h : t.insert row = some t') (hrow : ∀ v ∈ payloads row, PayloadClean v)
    (ht : RowsClean payloads t) : RowsClean payloads t' := by
  intro id r hget
  rw [(Table.get_insert h id).2] at hget
  split at hget
  · cases hget
    exact hrow
  · exact ht id r hget

theorem rowsClean_update {f : ρ → ρ} (h : t.update id f = some t')
    (hf : ∀ row, t.get id = some row → (∀ v ∈ payloads row, PayloadClean v) → ∀ v ∈ payloads (f row), PayloadClean v)
    (ht : RowsClean payloads t) : RowsClean payloads t' := by
  intro other r hget
  rw [(Table.get_update h other).2] at hget
  split at hget
  · obtain ⟨row, hrow, rfl⟩ := Option.map_eq_some_iff.mp hget
    exact hf row hrow (ht id row hrow)
  · exact ht other r hget

end

theorem changes_newAccount {row : AccountRow} (h : s.insertAccount row = .ok (id, s')) (hlive : row.deleted = false)
    (hclean : PayloadClean row.payload) (groupIds : List ℤ) :
    StoreChanges scope s (s'.syncAccountGroups id groupIds).2 := by
  obtain ⟨accounts, hinsert, rfl, rfl⟩ := StateTables.insertAccount_eq_ok h
  obtain ⟨hlast, hget⟩ := Table.get_insert hinsert accounts.last
  rw [if_pos hlast] at hget
  exact (ReflTransGen.single (StoreChange.newAccount hinsert hlive hclean)).tail (.link fun _ => ⟨row, hget, hlive⟩)

/-- An update of one account, and then maybe of its links. -/
theorem changes_edit {live : Bool} {f : AccountRow → AccountRow} (h : s.updateAccount live id f = .ok (n, s'))
    (hlive : scope.calm = true → live = true ∨ ∀ row, s.accounts.get id = some row → row.deleted = false)
    (hf : ∀ row, (f row).platform = row.platform ∧ (f row).accountType = row.accountType ∧ (f row).deleted = row.deleted)
    (hclean : ∀ row, s.accounts.get id = some row → PayloadClean row.payload → PayloadClean (f row).payload) :
    StoreChanges scope s s'
      ∧ (n = 1 → ∀ groupIds, StoreChanges scope s (s'.syncAccountGroups id groupIds).2) := by
  rcases StateTables.updateAccount_eq_ok h with ⟨rfl, rfl⟩ | ⟨-, row, accounts, hget, hlive', hupdate, rfl⟩
  · exact ⟨.refl, fun h => absurd h (by decide)⟩
  · have hrow : scope.calm = true → row.deleted = false := fun hcalm => (hlive hcalm).elim hlive' fun h => h row hget
    have hchange : StoreChanges scope s { s with accounts := accounts } :=
      .single (.edit hget hrow hupdate (hf row) (hclean row hget))
    refine ⟨hchange, fun _ groupIds => hchange.tail (.link fun hcalm => ⟨f row, ?_, (hf row).2.2.trans (hrow hcalm)⟩)⟩
    rw [(Table.get_update hupdate id).2, if_pos rfl, hget, Option.map_some]

theorem changes_groups {groups : Table GroupRow GroupRow.key} (h : s.groups.Evolves (fun _ _ => True) groups)
    (hclean : RowsClean GroupRow.payloads s.groups → RowsClean GroupRow.payloads groups) :
    StoreChanges scope s { s with groups := groups } := .single (.groups h hclean)

/-! ### The payloads of new rows -/

theorem clean_emptyArray : PayloadClean (.array []) := fun _ h => absurd h List.not_mem_nil

theorem clean_getD {o : Option Value} {v : Value} (ho : ∀ x, o = some x → PayloadClean x) (hv : PayloadClean v) :
    PayloadClean (o.getD v) := by
  cases o with
  | none => exact hv
  | some x => exact ho x rfl

theorem clean_groupModels (body : Value) {models : Value} (hmodels : PayloadClean models) :
    PayloadClean ((pointer (sanitizeStatePayload body) "models_list_config" "models").getD models) :=
  clean_getD (fun _ h => clean_pointer (clean_sanitizeStatePayload body) h) hmodels

/-- An object is clean when its names are, and its values. -/
theorem clean_object {m : Members} (h : ∀ e ∈ m, isStateSecret e.1 = false ∧ PayloadClean e.2) :
    PayloadClean (.object m) := by
  intro name hname
  obtain ⟨e, he, rfl | hname⟩ := Value.mem_keysEntries.mp hname
  · exact (h e he).1
  · exact (h e he).2 name hname

theorem clean_string (text : String) : PayloadClean (.string text) := fun _ h => absurd h List.not_mem_nil

/-- The names in the payloads that are made here. -/
def plainNames : List String :=
  ["account_id", "auth_file", "auth_index", "credentials", "email", "extra", "name", "notes", "oauth_type", "project_id",
    "tier_id"]

theorem plainNames_plain : plainNames.all (fun name => !isStateSecret name) = true := by decide +kernel

theorem clean_plain {m : Members} (h : ∀ e ∈ m, e.1 ∈ plainNames ∧ PayloadClean e.2) : PayloadClean (.object m) := by
  refine clean_object fun e he => ⟨?_, (h e he).2⟩
  simpa using List.all_eq_true.mp plainNames_plain e.1 (h e he).1

/-- A member that is left out where its text is blank. -/
theorem clean_named {key text : String} (hkey : key ∈ plainNames) :
    ∀ e ∈ (if trim text = "" then [] else [(key, Value.string text)] : Members), e.1 ∈ plainNames ∧ PayloadClean e.2 := by
  intro e he
  split at he
  · exact absurd he List.not_mem_nil
  · rw [List.mem_singleton.mp he]
    exact ⟨hkey, clean_string text⟩

theorem clean_strings {m : List (String × String)} (h : ∀ e ∈ m, e.1 ∈ plainNames) :
    ∀ e ∈ (m.map fun e => (e.1, Value.string e.2) : Members), e.1 ∈ plainNames ∧ PayloadClean e.2 := by
  intro e he
  obtain ⟨e₀, he₀, rfl⟩ := List.mem_map.mp he
  exact ⟨h e₀ he₀, clean_string e₀.2⟩

theorem clean_oauthLogin (login : OauthLogin) : PayloadClean login.payload := by
  have hcredentials : PayloadClean (.object
      ((if trim login.externalAccountId = "" then [] else [("account_id", .string login.externalAccountId)])
        ++ (if trim login.email = "" then [] else [("email", .string login.email)])
        ++ (if trim login.projectId = "" then [] else [("project_id", .string login.projectId)]))) :=
    clean_plain (List.forall_mem_append.mpr ⟨List.forall_mem_append.mpr
      ⟨clean_named (by decide), clean_named (by decide)⟩, clean_named (by decide)⟩)
  have hextra : ∀ options : List (String × String), (∀ e ∈ options, e.1 ∈ plainNames) → PayloadClean (.object
      ([("auth_file", .string login.authFile), ("auth_index", .string login.authIndex)]
        ++ options.map fun e => (e.1, Value.string e.2))) := by
    intro options hoptions
    refine clean_plain (List.forall_mem_append.mpr ⟨List.forall_mem_cons.mpr ⟨⟨?_, clean_string _⟩,
      List.forall_mem_singleton.mpr ⟨?_, clean_string _⟩⟩, clean_strings hoptions⟩) <;>
      (dsimp only; decide)
  have hoptions : PayloadClean (.object ([("auth_file", .string login.authFile), ("auth_index", .string login.authIndex)]
      ++ geminiMembers login.geminiOptions)) := by
    cases login.geminiOptions with
    | none => exact hextra [] fun _ h => absurd h List.not_mem_nil
    | some options =>
      refine hextra [("oauth_type", options.1), ("tier_id", options.2)] ?_
      refine List.forall_mem_cons.mpr ⟨?_, List.forall_mem_singleton.mpr ?_⟩ <;> (dsimp only; decide)
  refine clean_plain (List.forall_mem_cons.mpr ⟨⟨?_, hcredentials⟩, List.forall_mem_cons.mpr ⟨⟨?_, hoptions⟩,
    List.forall_mem_cons.mpr ⟨⟨?_, clean_string _⟩, List.forall_mem_singleton.mpr ⟨?_, clean_string _⟩⟩⟩⟩)
  all_goals (dsimp only; decide)

/-! ### The changes of each request -/

section

variable {s : ControlState} {id groupId : ℤ} {body : Value}

theorem changes_createGroup : StoreChanges scope s.store (createGroup s body).1.store := by
  rw [createGroup]
  split
  · exact .refl
  · dsimp only
    split
    · exact .refl
    · rename_i groups hinsert
      refine changes_groups (Table.evolves_insertAt (fun _ => trivial) hinsert) (rowsClean_insert hinsert ?_)
      exact List.forall_mem_cons.mpr ⟨clean_groupModels body clean_emptyArray,
        List.forall_mem_singleton.mpr (clean_sanitizeStatePayload body)⟩

theorem changes_updateGroup : StoreChanges scope s.store (updateGroup s id body).1.store := by
  rw [updateGroup]
  split
  · rename_i row groups hget hupdate
    refine changes_groups (Table.evolves_update (fun _ => trivial) hupdate fun _ _ => trivial)
      (rowsClean_update hupdate fun row _ hrow => ?_)
    exact List.forall_mem_cons.mpr ⟨clean_groupModels body (hrow _ List.mem_cons_self),
      List.forall_mem_singleton.mpr (clean_sanitizeStatePayload body)⟩
  · exact .refl

theorem changes_createAccount {fails : Bool} :
    StoreChanges scope s.store (createAccountRequest libs s fails body).1.store := by
  rw [createAccountRequest]
  dsimp only
  split
  · exact .refl
  · rename_i accountType _
    split
    · exact .refl
    · split
      · exact .refl
      · split
        · exact .refl
        · exact .refl
        · rename_i id store hinsert
          have hchanges : StoreChanges scope s.store (store.syncAccountGroups id (groupIdsFrom body)).2 :=
            changes_newAccount hinsert rfl (clean_sanitizeStatePayload body) (groupIdsFrom body)
          generalize store.syncAccountGroups id (groupIdsFrom body) = linked at hchanges ⊢
          have hpersisted : (if accountType = "apikey" then
                persistApiCredential { s with store := linked.2 } fails id body
              else (true, { s with store := linked.2 })).2.store = linked.2 := by
            split
            · exact store_persistApiCredential _ fails id body
            · rfl
          generalize (if accountType = "apikey" then _ else _ : Bool × ControlState) = persisted at hpersisted ⊢
          split
          · exact hchanges
          · split <;> exact hpersisted.symm ▸ hchanges

theorem changes_updateAccount {fails : Bool} :
    StoreChanges scope s.store (updateAccountRequest s fails id body).1.store := by
  rw [updateAccountRequest]
  dsimp only
  split
  · exact .refl
  · rename_i old hold
    obtain ⟨hget, -⟩ := Option.filter_eq_some_iff.mp hold
    split
    · rename_i store hupdate
      have hmerged : ∀ row, s.store.accounts.get id = some row → PayloadClean row.payload →
          PayloadClean (mergePayload old.payload (sanitizeStatePayload body)) := by
        intro row hrow hclean
        rw [hget, Option.some.injEq] at hrow
        subst hrow
        exact clean_mergePayload hclean (clean_sanitizeStatePayload body)
      obtain ⟨hchange, hlinked⟩ : StoreChanges scope s.store store ∧ (1 = 1 → ∀ groupIds,
          StoreChanges scope s.store (store.syncAccountGroups id groupIds).2) :=
        changes_edit hupdate (fun _ => Or.inl rfl) (fun _ => ⟨rfl, rfl, rfl⟩) hmerged
      have hchanges : StoreChanges scope s.store
          (if (groupIdsFrom (sanitizeStatePayload body)).isEmpty = true then (true, store)
            else store.syncAccountGroups id (groupIdsFrom (sanitizeStatePayload body))).2 := by
        split
        · exact hchange
        · exact hlinked rfl _
      generalize (if (groupIdsFrom (sanitizeStatePayload body)).isEmpty = true then _ else _ : Bool × StateTables) = linked
        at hchanges ⊢
      split
      · exact hchanges
      · rw [store_persistApiCredential]
        exact hchanges
    · exact .refl

theorem changes_deleteAccount {fails : Bool} {uuid : String} (hmade : scope.tombstones (deletedAccountTombstone libs id uuid)) :
    StoreChanges scope s.store (deleteAccountRequest libs s fails uuid id).1.store := by
  rw [deleteAccountRequest]
  split
  · exact .refl
  · exact .refl
  · rename_i n store hn hupdate
    rcases StateTables.updateAccount_eq_ok hupdate with ⟨rfl, -⟩ | ⟨-, row, accounts, hget, -, h, rfl⟩
    · exact absurd rfl hn
    · exact .single (.delete hget h hmade)

/-- A request that updates one account and nothing else. -/
theorem changes_editOnly {f : AccountRow → AccountRow} {store : StateTables} {n : ℕ}
    (h : s.store.updateAccount true id f = .ok (n, store))
    (hf : ∀ row, (f row).platform = row.platform ∧ (f row).accountType = row.accountType ∧ (f row).deleted = row.deleted
      ∧ (f row).payload = row.payload) : StoreChanges scope s.store store :=
  (changes_edit h (fun _ => Or.inl rfl) (fun row => ⟨(hf row).1, (hf row).2.1, (hf row).2.2.1⟩)
    fun row _ hclean => (hf row).2.2.2.symm ▸ hclean).1

theorem changes_updateAccountStatus {status : String} :
    StoreChanges scope s.store (updateAccountStatus s id status).1.store := by
  rw [updateAccountStatus]
  split
  · rename_i store hupdate
    exact changes_editOnly hupdate fun _ => ⟨rfl, rfl, rfl, rfl⟩
  · exact .refl

theorem changes_setSchedulable {schedulable : Bool} :
    StoreChanges scope s.store (setSchedulable s id schedulable).1.store := by
  rw [setSchedulable]
  split
  · rename_i store hupdate
    exact changes_editOnly hupdate fun _ => ⟨rfl, rfl, rfl, rfl⟩
  · exact .refl

theorem changes_setAccountState {status : String} {schedulable : Bool} :
    StoreChanges scope s.store (setAccountState s id status schedulable).store := by
  rw [setAccountState]
  split
  · rename_i n store hupdate
    exact changes_editOnly hupdate fun _ => ⟨rfl, rfl, rfl, rfl⟩
  · exact .refl

theorem changes_login {existing : Option ℤ} {login : OauthLogin}
    (hcalm : scope.calm = true → undisturbedLogin s (.login existing login) = true) :
    StoreChanges scope s.store (writeOauthAccount s existing login).1.store := by
  cases existing with
  | some id =>
    rw [writeOauthAccount]
    split
    · exact .refl
    · rename_i n store hupdate
      have hlive : scope.calm = true → ∃ row, s.store.accounts.get id = some row ∧ row.deleted = false := by
        intro h
        have hany := hcalm h
        rw [undisturbedLogin, Option.any_eq_true] at hany
        obtain ⟨row, hrow, hlive⟩ := hany
        exact ⟨row, hrow, by simpa using hlive⟩
      rcases StateTables.updateAccount_eq_ok hupdate with ⟨-, rfl⟩ | ⟨rfl, -⟩
      · exact .single (.link hlive)
      · refine (changes_edit hupdate (fun h => Or.inr fun row hrow => ?_) (fun _ => ⟨rfl, rfl, rfl⟩)
          fun _ _ _ => clean_oauthLogin login).2 rfl login.groupIds
        obtain ⟨row', hrow', hdeleted⟩ := hlive h
        rw [hrow, Option.some.injEq] at hrow'
        exact hrow' ▸ hdeleted
  | none =>
    rw [writeOauthAccount]
    split
    · exact .refl
    · rename_i id store hinsert
      exact changes_newAccount hinsert rfl (clean_oauthLogin login) login.groupIds

theorem changes_importGrokAccount {token : String} {priority : ℤ} {name : String} {groupIds : List ℤ} :
    StoreChanges scope s.store (importGrokAccount libs s token priority name groupIds).store := by
  rw [importGrokAccount]
  split
  · exact .refl
  · split
    · exact .refl
    · rename_i id store hinsert
      refine changes_newAccount hinsert rfl (clean_plain (List.forall_mem_cons.mpr
        ⟨⟨?_, clean_string _⟩, List.forall_mem_singleton.mpr ⟨?_, clean_string _⟩⟩)) groupIds <;>
        (dsimp only; decide)

/-! ### Routes and keys -/

/-- A new route of a group that exists. -/
theorem changes_insertRoute {store store' : StateTables} {row : CompositeRouteRow} (h : store.insertRoute row = .ok (id, store'))
    (hclean : PayloadClean row.payload) : StoreChanges scope store store' := by
  obtain ⟨routes, hroutes, -, hgroup, rfl⟩ := StateTables.insertRoute_eq_ok h
  refine .single (.routes (fun other old hget => ?_)
    (fun groupId _ => Table.evolves_insertAt (fun _ => ⟨rfl, fun _ hdeleted => ⟨hdeleted, rfl⟩⟩) hroutes)
    (rowsClean_insert hroutes (List.forall_mem_singleton.mpr hclean)))
  rw [(Table.get_insert hroutes other).2] at hget
  split at hget
  · cases hget
    exact Or.inl hgroup
  · exact Or.inr ⟨old, hget, rfl⟩

/-- An update of a route that leaves it in its group. -/
theorem changes_editRoute {store : StateTables} {routes : Table CompositeRouteRow fun row => some row.key} {f : CompositeRouteRow → CompositeRouteRow}
    (h : store.routes.update id f = some routes) {row : CompositeRouteRow} (hget : store.routes.get id = some row)
    (hgroup : (f row).key.groupId = row.key.groupId)
    (hkept : ¬ scope.replaced row.key.groupId → row.deleted = true → (f row).deleted = true ∧ (f row).key = row.key)
    (hclean : PayloadClean row.payload → PayloadClean (f row).payload) :
    StoreChanges scope store { store with routes := routes } := by
  refine .single (.routes (fun other r hr => Or.inr ?_) (fun groupId hgroupId =>
    Table.evolves_update (fun _ => ⟨rfl, fun _ hdeleted => ⟨hdeleted, rfl⟩⟩) h fun r hr => ?_)
    (rowsClean_update h fun r hr hrow => ?_))
  · rw [(Table.get_update h other).2] at hr
    split at hr
    · rename_i hother
      rw [hget, Option.map_some, Option.some.injEq] at hr
      exact ⟨row, hother ▸ hget, hr ▸ hgroup.symm⟩
    · exact ⟨r, hr, rfl⟩
  · rw [hget, Option.some.injEq] at hr
    subst hr
    exact ⟨hgroup, fun heq => hkept (heq ▸ hgroupId)⟩
  · rw [hget, Option.some.injEq] at hr
    subst hr
    rw [List.forall_mem_singleton] at hrow ⊢
    exact hclean hrow

theorem changes_createRoute : StoreChanges scope s.store (createCompositeRoute s groupId body).1.store := by
  rw [createCompositeRoute]
  split
  · exact .refl
  · split
    · rename_i id store hinsert
      exact changes_insertRoute hinsert (clean_sanitizeStatePayload body)
    · exact .refl
    · exact .refl

theorem changes_updateRoute : StoreChanges scope s.store (updateCompositeRoute s groupId id body).1.store := by
  rw [updateCompositeRoute]
  dsimp only
  split
  · rename_i store hupdate
    rcases StateTables.updateRoute_eq_ok hupdate with ⟨h, -⟩ | ⟨-, row, routes, hget, -, hlive, hroutes, rfl⟩
    · exact absurd h (by decide)
    · exact changes_editRoute hroutes hget rfl
        (fun _ hdeleted => absurd ((hlive rfl).symm.trans hdeleted) Bool.false_ne_true)
        fun _ => clean_sanitizeStatePayload body
  · exact .refl

theorem changes_deleteRoute : StoreChanges scope s.store (deleteCompositeRoute s groupId id).1.store := by
  rw [deleteCompositeRoute]
  split
  · rename_i store hupdate
    rcases StateTables.updateRoute_eq_ok hupdate with ⟨h, -⟩ | ⟨-, row, routes, hget, -, -, hroutes, rfl⟩
    · exact absurd h (by decide)
    · exact changes_editRoute hroutes hget rfl (fun _ _ => ⟨rfl, rfl⟩) fun hclean => hclean
  · exact .refl

theorem changes_upsertRoute {store store' : StateTables} {row : CompositeRouteRow} (h : store.upsertRoute row = .ok store')
    (hreplaced : scope.replaced row.key.groupId) (hclean : PayloadClean row.payload) :
    StoreChanges scope store store' := by
  rw [StateTables.upsertRoute] at h
  split at h
  · split at h
    · cases h
    · rename_i id store₁ hinsert
      cases h
      exact changes_insertRoute hinsert hclean
  · rename_i id old hfind
    obtain ⟨hget, hkey⟩ := Table.get_of_find hfind
    split at h
    · cases h
    · rename_i routes hroutes
      cases h
      refine changes_editRoute hroutes hget rfl (fun hnot => absurd hreplaced ?_) fun _ => hclean
      rwa [of_decide_eq_true hkey] at hnot

theorem changes_upsertRoutes {rows : List CompositeRouteRow} (hreplaced : ∀ row ∈ rows, scope.replaced row.key.groupId)
    (hclean : ∀ row ∈ rows, PayloadClean row.payload) {store store' : StateTables}
    (h : upsertRoutes store rows = .ok store') : StoreChanges scope store store' := by
  induction rows generalizing store with
  | nil =>
    rw [upsertRoutes] at h
    cases h
    exact .refl
  | cons row rest ih =>
    rw [List.forall_mem_cons] at hclean hreplaced
    rw [upsertRoutes] at h
    split at h
    · cases h
    · rename_i store₁ hupsert
      exact (changes_upsertRoute hupsert hreplaced.1 hclean.1).trans (ih hreplaced.2 hclean.2 h)

theorem changes_reconcileRoutes (hreplaced : scope.replaced groupId) :
    StoreChanges scope s.store (reconcileCompositeRoutes s groupId body).1.store := by
  rw [reconcileCompositeRoutes]
  split
  · exact .refl
  · rename_i routes _
    split
    · exact .refl
    · split
      · exact .refl
      · rename_i store hstore
        have hdelete : StoreChanges scope s.store (s.store.deleteRoutesOf groupId) := by
          refine .single (.routes (fun other row hget => Or.inr ?_) (fun other _ => Table.evolves_updateAll fun row =>
            ⟨rfl, fun _ hdeleted => ⟨by rw [hdeleted, Bool.true_or], rfl⟩⟩) fun hclean other row hget => ?_) <;>
            rw [Table.get_updateAll] at hget <;> obtain ⟨old, hold, rfl⟩ := Option.map_eq_some_iff.mp hget
          · exact ⟨old, hold, rfl⟩
          · exact hclean other old hold
        refine hdelete.trans (changes_upsertRoutes (fun row hrow => ?_) (fun row hrow => ?_) hstore) <;>
          obtain ⟨route, -, rfl⟩ := List.mem_map.mp hrow
        · exact hreplaced
        · exact clean_sanitizeStatePayload route

theorem changes_createKey {generated : String} (hkeys : scope.keys) :
    StoreChanges scope s.store (createApiKey libs s generated body).1.store := by
  rw [createApiKey]
  split
  · rename_i id store hinsert
    obtain ⟨apiKeys, hinserted, -, rfl⟩ := StateTables.insertApiKey_eq_ok hinsert
    exact .single (.apiKeys hkeys (rowsClean_insert hinserted (List.forall_mem_singleton.mpr (clean_sanitizeStatePayload body))))
  · exact .refl
  · exact .refl

theorem changes_updateKey (hkeys : scope.keys) : StoreChanges scope s.store (updateApiKey s id body).1.store := by
  rw [updateApiKey]
  split
  · rename_i hupdate
    exact .single (.apiKeys hkeys (rowsClean_update hupdate fun _ _ _ =>
      List.forall_mem_singleton.mpr (clean_sanitizeStatePayload body)))
  · exact .refl

theorem changes_deleteKey (hkeys : scope.keys) : StoreChanges scope s.store (deleteApiKey s id).1.store := by
  rw [deleteApiKey]
  split
  · exact .refl
  · refine .single (.apiKeys hkeys fun hclean other row hget => ?_)
    rw [Table.get_delete] at hget
    split at hget
    · cases hget
    · exact hclean other row hget

variable (libs scope) in
/-- A request stays within what the requests of a run may do. -/
structure AdminRequest.Within (s : ControlState) (request : AdminRequest) : Prop where
  tombstone : ∀ tombstone, tombstoneOf libs request = some tombstone → scope.tombstones tombstone
  replaced : ∀ groupId, replacedGroup request = some groupId → scope.replaced groupId
  calm : scope.calm = true → undisturbedLogin s request = true
  keys : keyRequest request = true → scope.keys

/-- What a request does is a sequence of changes. -/
theorem changes_performAdmin (request : AdminRequest) (hwithin : request.Within libs scope s) :
    StoreChanges scope s.store (performAdmin libs s request).store := by
  cases request with
  | createGroup => exact changes_createGroup
  | updateGroup => exact changes_updateGroup
  | createRoute => exact changes_createRoute
  | updateRoute => exact changes_updateRoute
  | deleteRoute => exact changes_deleteRoute
  | reconcileRoutes groupId => exact changes_reconcileRoutes (hwithin.replaced _ rfl)
  | createAccount => exact changes_createAccount
  | updateAccount => exact changes_updateAccount
  | deleteAccount fails uuid id => exact changes_deleteAccount (hwithin.tombstone _ rfl)
  | accountStatus => exact changes_updateAccountStatus
  | accountSchedulable => exact changes_setSchedulable
  | accountState => exact changes_setAccountState
  | login existing login => exact changes_login hwithin.calm
  | grokAccount => exact changes_importGrokAccount
  | createKey => exact changes_createKey (hwithin.keys rfl)
  | updateKey => exact changes_updateKey (hwithin.keys rfl)
  | deleteKey => exact changes_deleteKey (hwithin.keys rfl)

end

/-! ## Runs -/

variable (libs) in
/-- A request, as a step of a run. -/
def adminStep (s : ControlState) (request : AdminRequest) : Option ControlState := some (performAdmin libs s request)

/-- What every change keeps, the changes of a request keep. -/
theorem changes_keep {I : StateTables → Prop} (hchange : ∀ {s s'}, I s → StoreChange scope s s' → I s')
    (h : StoreChanges scope s s') (hs : I s) : I s' := by
  induction h with
  | refl => exact hs
  | tail _ hstep ih => exact hchange ih hstep

variable (scope) in
/-- What every change keeps, a run keeps. -/
theorem run_invariant {I : StateTables → Prop} {ok : ControlState → AdminRequest → Bool} {requests : List AdminRequest}
    (hwithin : ∀ request ∈ requests, ∀ s, ok s request = true → request.Within libs scope s)
    (hchange : ∀ {s s'}, I s → StoreChange scope s s' → I s') {s t : ControlState}
    (h : exec (adminStep libs) ok s requests = some t) (hs : I s.store) : I t.store := by
  induction requests generalizing s with
  | nil =>
    rw [exec, Option.some.injEq] at h
    exact h ▸ hs
  | cons request rest ih =>
    obtain ⟨hok, u, hu, ht⟩ := exec_cons h
    rw [adminStep, Option.some.injEq] at hu
    subst hu
    rw [List.forall_mem_cons] at hwithin
    exact ih hwithin.2 ht (changes_keep hchange (changes_performAdmin request (hwithin.1 s hok)) hs)

theorem within_all (request : AdminRequest) (s : ControlState) : request.Within libs .all s :=
  ⟨fun _ _ => trivial, fun _ _ => trivial, fun h => absurd h Bool.false_ne_true, fun _ => trivial⟩

/-- Requests in turn give a run. -/
theorem exec_anyStep {s : ControlState} (requests : List AdminRequest) :
    exec (adminStep libs) anyStep s requests = some (requests.foldl (performAdmin libs) s) := by
  induction requests generalizing s with
  | nil => rfl
  | cons request rest ih => exact ih

/-! ### Accounts -/

/-- How an account may change: it stays the same account, and what is deleted stays deleted. -/
structure AccountRow.Settled (row row' : AccountRow) : Prop where
  platform : row'.platform = row.platform
  accountType : row'.accountType = row.accountType
  deleted : row.deleted = true → row'.deleted = true

theorem AccountRow.Settled.refl (row : AccountRow) : row.Settled row := ⟨rfl, rfl, id⟩

theorem AccountRow.Settled.trans {row row' row'' : AccountRow} (h : row.Settled row') (h' : row'.Settled row'') :
    row.Settled row'' :=
  ⟨h'.platform.trans h.platform, h'.accountType.trans h.accountType, h'.deleted ∘ h.deleted⟩

theorem StoreChange.accounts_evolve (h : StoreChange scope s s') :
    s.accounts.Evolves AccountRow.Settled s'.accounts := by
  cases h with
  | newAccount h => exact Table.evolves_insertAt AccountRow.Settled.refl h
  | edit hget hlive h hf hclean =>
    refine Table.evolves_update AccountRow.Settled.refl h fun r hr => ?_
    rw [hget, Option.some.injEq] at hr
    subst hr
    exact ⟨hf.1, hf.2.1, fun hdeleted => hf.2.2.trans hdeleted⟩
  | delete hget h => exact Table.evolves_update AccountRow.Settled.refl h fun r _ => ⟨rfl, rfl, fun _ => rfl⟩
  | link =>
    obtain ⟨links, heq, -⟩ := s.syncAccountGroups_eq _ _
    rw [heq]
    exact .refl AccountRow.Settled.refl _
  | groups | routes | apiKeys => exact .refl AccountRow.Settled.refl _

/-- Whatever is requested, the id of an account stands for the same account for ever, and a deletion is final. -/
theorem accounts_settled {requests : List AdminRequest} {s t : ControlState}
    (h : exec (adminStep libs) anyStep s requests = some t) :
    s.store.accounts.Evolves AccountRow.Settled t.store.accounts :=
  run_invariant .all (I := fun u => s.store.accounts.Evolves AccountRow.Settled u.accounts)
    (fun request _ s _ => within_all request s)
    (fun hs hchange => hs.trans AccountRow.Settled.trans hchange.accounts_evolve) h (.refl AccountRow.Settled.refl _)

/-! ### Secrets -/

/-- No payload has a member with the name of a secret. -/
structure StoreClean (s : StateTables) : Prop where
  accounts : RowsClean (fun row => [row.payload]) s.accounts
  groups : RowsClean GroupRow.payloads s.groups
  routes : RowsClean (fun row => [row.payload]) s.routes
  apiKeys : RowsClean (fun row => [row.payload]) s.apiKeys

theorem StoreChange.clean (h : StoreChange scope s s') (hs : StoreClean s) : StoreClean s' := by
  cases h with
  | newAccount h _ hclean =>
    exact { hs with accounts := rowsClean_insert h (List.forall_mem_singleton.mpr hclean) hs.accounts }
  | edit hget _ h _ hclean =>
    refine { hs with accounts := rowsClean_update h (fun r hr hrow => ?_) hs.accounts }
    rw [hget, Option.some.injEq] at hr
    subst hr
    rw [List.forall_mem_singleton] at hrow ⊢
    exact hclean hrow
  | delete _ h => exact { hs with accounts := rowsClean_update h (fun _ _ hrow => hrow) hs.accounts }
  | link =>
    obtain ⟨links, heq, -⟩ := s.syncAccountGroups_eq _ _
    rw [heq]
    exact { hs with }
  | groups _ hclean => exact { hs with groups := hclean hs.groups }
  | routes _ _ hclean => exact { hs with routes := hclean hs.routes }
  | apiKeys _ hclean => exact { hs with apiKeys := hclean hs.apiKeys }

/-- Whatever is requested, no payload ever gets a member with the name of a secret. -/
theorem clean_run {requests : List AdminRequest} {s t : ControlState}
    (h : exec (adminStep libs) anyStep s requests = some t) (hs : StoreClean s.store) : StoreClean t.store :=
  run_invariant .all (I := StoreClean) (fun request _ s _ => within_all request s)
    (fun hs hchange => hchange.clean hs) h hs

/-! ### References -/

/-- A deleted account is out of use, and what refers to something refers to something that is there. -/
structure StoreSound (tombstones : String → Prop) (s : StateTables) : Prop where
  inert : ∀ id row, s.accounts.get id = some row → row.deleted = true →
    row.schedulable = false ∧ tombstones row.stableIdentityHmac
  linked : ∀ link ∈ s.accountGroups, (∃ row, s.accounts.get link.1 = some row ∧ row.deleted = false)
    ∧ (s.groups.get link.2).isSome
  routed : ∀ id row, s.routes.get id = some row → (s.groups.get row.key.groupId).isSome

theorem StoreChange.sound (hcalm : scope.calm = true) (h : StoreChange scope s s') (hs : StoreSound scope.tombstones s) :
    StoreSound scope.tombstones s' := by
  cases h with
  | newAccount h hlive =>
    refine ⟨fun id row hget hdeleted => ?_, fun link hlink => ?_, hs.routed⟩
    · rw [(Table.get_insert h id).2] at hget
      split at hget
      · cases hget
        exact absurd (hlive.symm.trans hdeleted) Bool.false_ne_true
      · exact hs.inert id row hget hdeleted
    · obtain ⟨⟨row, hget, hrow⟩, hgroup⟩ := hs.linked link hlink
      obtain ⟨row', hget', hsame⟩ := (Table.evolves_insertAt (R := Eq) (fun _ => rfl) h).2 link.1 row hget
      exact ⟨⟨row', hget', hsame ▸ hrow⟩, hgroup⟩
  | edit hget hlive h hf hclean =>
    rename_i id f row accounts
    have hrow := hlive hcalm
    have hother : ∀ other r, accounts.get other = some r →
        (other = id ∧ r = f row) ∨ s.accounts.get other = some r := by
      intro other r hr
      rw [(Table.get_update h other).2] at hr
      split at hr
      · rename_i heq
        rw [hget, Option.map_some, Option.some.injEq] at hr
        exact Or.inl ⟨heq, hr.symm⟩
      · exact Or.inr hr
    refine ⟨fun other r hr hdeleted => ?_, fun link hlink => ?_, hs.routed⟩
    · rcases hother other r hr with ⟨-, rfl⟩ | hr
      · exact absurd ((hf.2.2.trans hrow).symm.trans hdeleted) Bool.false_ne_true
      · exact hs.inert other r hr hdeleted
    · obtain ⟨⟨r, hr, hlive'⟩, hgroup⟩ := hs.linked link hlink
      refine ⟨?_, hgroup⟩
      by_cases heq : link.1 = id
      · refine ⟨f row, ?_, hf.2.2.trans hrow⟩
        rw [(Table.get_update h link.1).2, if_pos heq, hget, Option.map_some]
      · refine ⟨r, ?_, hlive'⟩
        rw [(Table.get_update h link.1).2, if_neg heq, hr]
  | delete hget h hmade =>
    rename_i id tombstone row accounts
    refine ⟨fun other r hr hdeleted => ?_, fun link hlink => ?_, hs.routed⟩
    · rw [show (StateTables.unlinkAccount { s with accounts := accounts } id).accounts = accounts from rfl,
        (Table.get_update h other).2] at hr
      split at hr
      · rw [hget, Option.map_some, Option.some.injEq] at hr
        subst hr
        exact ⟨rfl, hmade⟩
      · exact hs.inert other r hr hdeleted
    · obtain ⟨hmem, hne⟩ := List.mem_filter.mp hlink
      obtain ⟨⟨r, hr, hlive'⟩, hgroup⟩ := hs.linked link hmem
      refine ⟨⟨r, ?_, hlive'⟩, hgroup⟩
      rw [show (StateTables.unlinkAccount { s with accounts := accounts } id).accounts = accounts from rfl,
        (Table.get_update h link.1).2, if_neg (by simpa using hne), hr]
  | link hlive =>
    obtain ⟨row, hget, hrow⟩ := hlive hcalm
    obtain ⟨links, heq, hlinks⟩ := s.syncAccountGroups_eq _ _
    rw [heq]
    refine ⟨hs.inert, fun link hlink => ?_, hs.routed⟩
    rcases List.mem_append.mp hlink with hlink | hlink
    · exact hs.linked link (List.mem_of_mem_filter hlink)
    · obtain ⟨hid, hgroup⟩ := hlinks link hlink
      exact ⟨⟨row, hid ▸ hget, hrow⟩, hgroup⟩
  | groups h =>
    have hkept : ∀ {id : ℤ}, (s.groups.get id).isSome → (Table.get _ id).isSome := fun {id} hsome => by
      obtain ⟨row, hrow⟩ := Option.isSome_iff_exists.mp hsome
      obtain ⟨row', hrow', -⟩ := h.2 id row hrow
      exact Option.isSome_iff_exists.mpr ⟨row', hrow'⟩
    exact ⟨hs.inert, fun link hlink => (hs.linked link hlink).imp_right hkept,
      fun id row hget => hkept (hs.routed id row hget)⟩
  | routes h =>
    refine ⟨hs.inert, hs.linked, fun id row hget => ?_⟩
    rcases h id row hget with hgroup | ⟨old, hold, hsame⟩
    · exact hgroup
    · exact hsame ▸ hs.routed id old hold
  | apiKeys => exact ⟨hs.inert, hs.linked, hs.routed⟩

/-- In every run in which no login is written into an account that was deleted meanwhile, deleted accounts are out of
use, and every link and route leads to what is there. -/
theorem sound_run {tombstones : String → Prop} {requests : List AdminRequest} {s t : ControlState}
    (h : exec (adminStep libs) undisturbedLogin s requests = some t)
    (hmade : ∀ request ∈ requests, ∀ tombstone, tombstoneOf libs request = some tombstone → tombstones tombstone)
    (hs : StoreSound tombstones s.store) : StoreSound tombstones t.store :=
  run_invariant ⟨tombstones, fun _ => True, true, True⟩
    (fun request hrequest _ hok => ⟨hmade request hrequest, fun _ _ => trivial, fun _ => hok, fun _ => trivial⟩)
    (fun hs hchange => hchange.sound rfl hs) h hs

/-! ### Accounts that are added again -/

/-- A state without rows. -/
def ControlState.start (secrets : AccountSecrets) : ControlState := ⟨.empty, secrets⟩

theorem sound_start {tombstones : String → Prop} (secrets : AccountSecrets) :
    StoreSound tombstones (ControlState.start secrets).store where
  inert := fun _ _ hget => absurd hget.symm (Option.some_ne_none _)
  linked := fun _ h => absurd h List.not_mem_nil
  routed := fun _ _ hget => absurd hget.symm (Option.some_ne_none _)

theorem clean_start (secrets : AccountSecrets) : StoreClean (ControlState.start secrets).store :=
  ⟨fun _ _ hget => absurd hget.symm (Option.some_ne_none _), fun _ _ hget => absurd hget.symm (Option.some_ne_none _),
    fun _ _ hget => absurd hget.symm (Option.some_ne_none _), fun _ _ hget => absurd hget.symm (Option.some_ne_none _)⟩

/-- What `create_account` asks of a body, with the type of the account. -/
structure AccountFits (accountType : String) (body : Value) : Prop where
  type : accountTypeOf (jsonString body "type") = some accountType
  platform : trim (jsonString body "platform") ≠ ""
  source : trim (accountIdentitySource accountType body) ≠ ""

theorem succeed_ne_failure (value : Value) (entries : List (String × Value)) (status : ℕ) (code message : String) :
    succeed value entries ≠ .failure status code message := by
  rw [succeed]
  split <;> exact fun h => by cases h

theorem weightFits_accountRow (accountType : String) (body : Value) :
    (accountRow libs accountType body).weightFits = true := by
  rw [AccountRow.weightFits, accountRow, Bool.and_eq_true, decide_eq_true_eq, decide_eq_true_eq]
  dsimp only
  omega

variable (libs) in
/-- A request that fits fails as a duplicate, or its row is there. -/
theorem createAccount_cases (s : ControlState) {accountType : String} {body : Value} (hfits : AccountFits accountType body)
    (fails : Bool) :
    (s.store.accounts.insert (accountRow libs accountType body) = none
        ∧ createAccountRequest libs s fails body = (s, .failure 409 "CR-STO-0008" "duplicate account identity"))
      ∨ ∃ accounts, s.store.accounts.insert (accountRow libs accountType body) = some accounts
        ∧ (createAccountRequest libs s fails body).1.store.accounts = accounts
        ∧ (createAccountRequest libs s fails body).2 ≠ .failure 409 "CR-STO-0008" "duplicate account identity" := by
  rw [createAccountRequest]
  dsimp only
  rw [hfits.type]
  dsimp only
  rw [if_neg hfits.platform, if_neg hfits.source, StateTables.insertAccount, if_neg (by rw [weightFits_accountRow]; decide)]
  cases hinsert : s.store.accounts.insert (accountRow libs accountType body) with
  | none => exact Or.inl ⟨rfl, rfl⟩
  | some accounts =>
    refine Or.inr ⟨accounts, rfl, ?_⟩
    dsimp only
    generalize hlinks : StateTables.syncAccountGroups { s.store with accounts := accounts } accounts.last (groupIdsFrom body)
      = linked
    have haccounts : linked.2.accounts = accounts := by
      obtain ⟨links, heq, -⟩ := StateTables.syncAccountGroups_eq { s.store with accounts := accounts } accounts.last
        (groupIdsFrom body)
      rw [hlinks] at heq
      rw [heq]
    have hpersisted : (if accountType = "apikey" then
          persistApiCredential { s with store := linked.2 } fails accounts.last body
        else (true, { s with store := linked.2 })).2.store = linked.2 := by
      split
      · exact store_persistApiCredential _ fails _ body
      · rfl
    generalize (if accountType = "apikey" then _ else _ : Bool × ControlState) = persisted at hpersisted ⊢
    split
    · exact ⟨haccounts, fun h => by cases h⟩
    · split
      · exact ⟨(congrArg StateTables.accounts hpersisted).trans haccounts, fun h => by cases h⟩
      · exact ⟨(congrArg StateTables.accounts hpersisted).trans haccounts, succeed_ne_failure _ _ _ _ _⟩

/-- After any such run an account is refused as a duplicate exactly when an account with its identity is there and not
deleted; otherwise it gets an id that no account had before.  No tombstone may be the digest of the new account. -/
theorem duplicate_iff {requests : List AdminRequest} {secrets : AccountSecrets} {t : ControlState}
    (h : exec (adminStep libs) undisturbedLogin (.start secrets) requests = some t) {accountType : String} {body : Value}
    (hfits : AccountFits accountType body)
    (hapart : ∀ request ∈ requests, tombstoneOf libs request ≠ some (accountRow libs accountType body).stableIdentityHmac)
    (fails : Bool) :
    ((createAccountRequest libs t fails body).2 = .failure 409 "CR-STO-0008" "duplicate account identity"
        ↔ ∃ id row, t.store.accounts.get id = some row ∧ row.deleted = false
          ∧ row.stableIdentityHmac = (accountRow libs accountType body).stableIdentityHmac)
      ∧ ((createAccountRequest libs t fails body).2 ≠ .failure 409 "CR-STO-0008" "duplicate account identity" →
        ∃ id, (createAccountRequest libs t fails body).1.store.accounts.get id = some (accountRow libs accountType body)
          ∧ ∀ other row, t.store.accounts.get other = some row → other < id) := by
  have hsound : StoreSound (fun tombstone => ∃ request ∈ requests, tombstoneOf libs request = some tombstone) t.store :=
    run_invariant ⟨_, fun _ => True, true, True⟩
      (fun request hrequest _ hok =>
        ⟨fun _ htombstone => ⟨request, hrequest, htombstone⟩, fun _ _ => trivial, fun _ => hok, fun _ => trivial⟩)
      (fun hs hchange => hchange.sound rfl hs) h (sound_start secrets)
  have hlive : ∀ id row, t.store.accounts.get id = some row →
      row.stableIdentityHmac = (accountRow libs accountType body).stableIdentityHmac → row.deleted = false := by
    intro id row hget hsame
    cases hdeleted : row.deleted with
    | false => rfl
    | true =>
      obtain ⟨-, request, hrequest, htombstone⟩ := hsound.inert id row hget hdeleted
      exact absurd (hsame ▸ htombstone) (hapart request hrequest)
  rcases createAccount_cases libs t hfits fails with ⟨hinsert, heq⟩ | ⟨accounts, hinsert, haccounts, hne⟩
  · rw [heq]
    obtain ⟨other, row, hget, -, hsame⟩ := Table.insert_eq_none_iff.mp hinsert
    have hsame : row.stableIdentityHmac = (accountRow libs accountType body).stableIdentityHmac := Option.some.inj hsame
    exact ⟨iff_of_true rfl ⟨other, row, hget, hlive other row hget hsame, hsame⟩, fun h => absurd rfl h⟩
  · refine ⟨iff_of_false hne ?_, fun _ => ⟨t.store.accounts.last + 1, ?_, fun other row hget => ?_⟩⟩
    · rintro ⟨id, row, hget, -, hsame⟩
      rw [Table.insert_eq_none_iff.mpr ⟨id, row, hget, rfl, congrArg some hsame⟩] at hinsert
      cases hinsert
    · rw [haccounts, (Table.get_insert hinsert _).2, if_pos rfl]
    · exact Int.lt_add_one_of_le (Table.le_last_of_get hget)

/-! ### A run -/

/-- The digests of one account, and of the UUID with which it is deleted. -/
def sampleLibs : AdminLibs where
  stableIdentityHmac := fun platform identity =>
    if platform = "openai" && identity = "main" then
      "b9824d3fab83596abc695d4f20b99264ff6f71409d280d02bdc063752cfbb42c"
    else "aeb513ee70fed497bee44804e2ebc9c339c872179988329e5793e8b094ab6a56"
  sha256Hex := fun _ => ""

def sampleSecrets : AccountSecrets where
  isScoped := false
  own := fun _ => none
  legacy := fun _ => none
  readable := fun _ _ h => absurd h.symm (by simp)

/-- The body of an account. -/
def sampleAccount : Value :=
  .object [("credentials", .object [("api_key", .string "sk-test")]), ("name", .string "main"),
    ("platform", .string "openai"), ("type", .string "apikey")]

/-- Create an account, and delete it. -/
def sampleRequests : List AdminRequest :=
  [.createAccount false sampleAccount, .deleteAccount false "0197f0c0a1b27000800000000000abcd" 1]

/-- The state behind them. -/
def sampleState : ControlState :=
  performAdmin sampleLibs (performAdmin sampleLibs (.start sampleSecrets) (.createAccount false sampleAccount))
    (.deleteAccount false "0197f0c0a1b27000800000000000abcd" 1)

theorem sampleAccount_fits : AccountFits "apikey" sampleAccount :=
  ⟨by decide +kernel, by decide +kernel, by decide +kernel⟩

theorem exec_sample : exec (adminStep sampleLibs) undisturbedLogin (.start sampleSecrets) sampleRequests = some sampleState :=
  rfl

theorem tombstones_sample :
    tombstoneOf sampleLibs (.deleteAccount false "0197f0c0a1b27000800000000000abcd" 1)
      ≠ some (accountRow sampleLibs "apikey" sampleAccount).stableIdentityHmac := by
  decide +kernel

/-- The deletion settles the account. -/
theorem accounts_settled_sample :
    (performAdmin sampleLibs (.start sampleSecrets) (.createAccount false sampleAccount)).store.accounts.Evolves
      AccountRow.Settled sampleState.store.accounts :=
  accounts_settled (exec_anyStep [.deleteAccount false "0197f0c0a1b27000800000000000abcd" 1])

theorem clean_run_sample : StoreClean sampleState.store :=
  clean_run (exec_anyStep sampleRequests) (clean_start sampleSecrets)

theorem sound_run_sample :
    StoreSound (fun tombstone => tombstone = deletedAccountTombstone sampleLibs 1 "0197f0c0a1b27000800000000000abcd")
      sampleState.store := by
  refine sound_run exec_sample (List.forall_mem_cons.mpr ⟨fun _ h => ?_, List.forall_mem_singleton.mpr fun _ h => ?_⟩)
    (sound_start sampleSecrets)
  · cases h
  · cases h
    rfl

/-- The deleted account can be added again. -/
theorem duplicate_iff_sample :
    ((createAccountRequest sampleLibs sampleState false sampleAccount).2
          = .failure 409 "CR-STO-0008" "duplicate account identity"
        ↔ ∃ id row, sampleState.store.accounts.get id = some row ∧ row.deleted = false
          ∧ row.stableIdentityHmac = (accountRow sampleLibs "apikey" sampleAccount).stableIdentityHmac)
      ∧ ((createAccountRequest sampleLibs sampleState false sampleAccount).2
          ≠ .failure 409 "CR-STO-0008" "duplicate account identity" →
        ∃ id, (createAccountRequest sampleLibs sampleState false sampleAccount).1.store.accounts.get id
            = some (accountRow sampleLibs "apikey" sampleAccount)
          ∧ ∀ other row, sampleState.store.accounts.get other = some row → other < id) := by
  refine duplicate_iff exec_sample sampleAccount_fits (List.forall_mem_cons.mpr
    ⟨fun h => ?_, List.forall_mem_singleton.mpr tombstones_sample⟩) false
  cases h

end

end CodexRouter
