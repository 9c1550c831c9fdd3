/-
# The credentials of a profile

`isolate_profile_credentials` copies the secrets of a configuration to names of the profile's own: all are
gathered first, then written one by one, and a write that fails removes the ones before it.

What stood under such a name is not put back, and the secret of a proxy that is switched off is not copied:
`isolatesCredentials_iff` says when neither shows.
-/
import CodexRouter.Base.Fresh
import CodexRouter.RoutePlan

namespace CodexRouter

open Text

/-! ## The store -/

/-- A secret, in UTF-16. -/
abbrev Secret := List UInt16

/-- `encode_utf16`. -/
def encodeUtf16 (s : String) : Secret :=
  s.toList.flatMap fun c =>
    if c.toNat < 0x10000 then [UInt16.ofNat c.toNat]
    else [UInt16.ofNat (0xD800 + (c.toNat - 0x10000) / 0x400), UInt16.ofNat (0xDC00 + (c.toNat - 0x10000) % 0x400)]

/-- The credential manager, with what else a credential is read from. -/
structure CredentialStore where
  environment : String → Option String
  /-- `CREDENTIAL_SCOPE`. -/
  scope : String
  targets : String → Option Secret

/-- `router_credential_environment`. -/
def routerCredentialEnvironment (name : String) : Option String :=
  [("AdminPassword", "CODEX_ROUTER_ADMIN_PASSWORD"), ("LocalApiKey", "CODEX_ROUTER_LOCAL_API_KEY"),
    ("CliManagementSecret", "CODEX_ROUTER_CLI_MANAGEMENT_SECRET")].lookup name

/-- `legacy_wincred_target`. -/
def legacyWincredTarget (name : String) : String := "CodexRouter/" ++ name

namespace CredentialStore

variable (store : CredentialStore)

/-- `wincred_target`. -/
def wincredTarget (name : String) : String :=
  if store.scope = "" then "CodexRouter/" ++ name else "CodexRouter/" ++ store.scope ++ "/" ++ name

/-- `read_router_credential`, where no read fails. -/
def readRouterCredential (name : String) : Option Secret :=
  match ((routerCredentialEnvironment name).bind store.environment).filter (trim · ≠ "") with
  | some value => some (encodeUtf16 value)
  | none => (store.targets (store.wincredTarget name)).or (store.targets (legacyWincredTarget name))

/-- What is written under a name at all. -/
def writable (name : String) (secret : Secret) : Bool :=
  !((routerCredentialEnvironment name).bind store.environment).isSome && trim name ≠ "" && '\x00' ∉ name.toList
    && secret.length * 2 ≤ 2560

/-- `write_router_credential`, which may fail. -/
def writeRouterCredential (fails : Bool) (name : String) (secret : Secret) : Option CredentialStore :=
  if fails || !store.writable name secret then none
  else some { store with targets := Function.update store.targets (store.wincredTarget name) (some secret) }

/-- `delete_router_credential`, which leaves the secret where it fails. -/
def deleteRouterCredential (fails : Bool) (name : String) : CredentialStore :=
  if fails then store
  else { store with targets := Function.update store.targets (store.wincredTarget name) none }

/-- `remove_isolated_profile_credentials`. -/
def removeIsolatedProfileCredentials (fails : String → Bool) (names : List String) : CredentialStore :=
  names.foldl (fun store name => if trim name = "" then store else store.deleteRouterCredential (fails name) name) store

end CredentialStore

/-! ## The configuration -/

/-- The fields of a card that secrets are read from. -/
structure SecretCard where
  source : String := "apikey"
  model : String
  apiKey : String := ""
  credentialName : String := ""
  deriving DecidableEq, Repr

/-- The fields of `ProxyConfig` that its secret is read from. -/
structure SecretProxy where
  enabled : Bool := false
  password : String := ""
  passwordCredential : String := ""
  deriving DecidableEq, Repr

/-- The part of a configuration that holds secrets. -/
structure SecretConfig where
  models : List SecretCard := []
  proxy : SecretProxy := {}
  deriving DecidableEq, Repr

/-- What goes wrong: a read of a card's secret, by the card and the attempt, the read of the proxy's, and a write
or a removal under a name. -/
structure CredentialFaults where
  readCard : ℕ → ℕ → Bool
  readProxy : Bool
  write : String → Bool
  delete : String → Bool

section

variable (libs : Libs) (store : CredentialStore) (faults : CredentialFaults)

/-- The attempts to read a secret. -/
def readAttempts (fails : ℕ → Bool) (name : String) : List ℕ → Except String Secret
  | [] => .error "ROUTER_PROFILE_CREDENTIAL_MISSING"
  | attempt :: rest =>
    if fails attempt then .error "ROUTER_PROFILE_CREDENTIAL_READ_FAILED"
    else
      match (store.readRouterCredential name).filter (· ≠ []) with
      | some secret => .ok secret
      | none => readAttempts fails name rest

/-- The secret of a card. -/
def cardSecret (fails : ℕ → Bool) (card : SecretCard) : Except String Secret :=
  if trim card.apiKey = "" then
    if trim card.credentialName = "" then .error "ROUTER_PROFILE_CREDENTIAL_MISSING"
    else readAttempts store fails card.credentialName [0, 1, 2]
  else .ok (encodeUtf16 card.apiKey)

/-- The start of the new names. -/
def profilePrefix (profileId : String) : String := "Profile-" ++ slugify libs profileId ++ "-"

/-- The new name of a card. -/
def cardName (profileId : String) (index : ℕ) (card : SecretCard) : String :=
  profilePrefix libs profileId ++ "Model-" ++ toString (index + 1) ++ "-" ++ takeChars (slugify libs card.model) 40

/-- The new name of the proxy. -/
def proxyName (profileId : String) : String := profilePrefix libs profileId ++ "ProxyPassword"

/-- The loop over the cards, from an index on: what is to be written, and the new name of each card. -/
def gatherCards (profileId : String) : ℕ → List SecretCard → Except String (List (String × Secret) × List String)
  | _, [] => .ok ([], [])
  | index, card :: rest =>
    if card.source = "oauth" then
      (gatherCards profileId (index + 1) rest).map fun (writes, names) => (writes, "" :: names)
    else
      match cardSecret store (faults.readCard index) card with
      | .error e => .error e
      | .ok secret =>
        (gatherCards profileId (index + 1) rest).map fun (writes, names) =>
          ((cardName libs profileId index card, secret) :: writes, cardName libs profileId index card :: names)

/-- The secret of the proxy, if there is one. -/
def proxySecret (proxy : SecretProxy) : Except String (Option Secret) :=
  if !proxy.enabled then .ok none
  else if proxy.password ≠ "" then .ok (some (encodeUtf16 proxy.password))
  else if trim proxy.passwordCredential ≠ "" then
    if faults.readProxy then .error "ROUTER_PROFILE_CREDENTIAL_READ_FAILED"
    else .ok ((store.readRouterCredential proxy.passwordCredential).filter (· ≠ []))
  else .ok none

/-- All that is to be written, and the new names of the cards. -/
def gatherSecrets (profileId : String) (cfg : SecretConfig) : Except String (List (String × Secret) × List String) :=
  match gatherCards libs store faults profileId 0 cfg.models with
  | .error e => .error e
  | .ok (writes, names) =>
    match proxySecret store faults cfg.proxy with
    | .error e => .error e
    | .ok none => .ok (writes, names)
    | .ok (some secret) => .ok (writes ++ [(proxyName libs profileId, secret)], names)

/-- The loop of writes: whether all were written, the names that were, and the store. -/
def writeSecrets : List (String × Secret) → List String → CredentialStore → Bool × List String × CredentialStore
  | [], written, store => (true, written, store)
  | (name, secret) :: rest, written, store =>
    match store.writeRouterCredential (faults.write name) name secret with
    | none => (false, written, store)
    | some store => writeSecrets rest (written ++ [name]) store

/-- The configuration with the new names, and without secrets. -/
def SecretConfig.isolated (cfg : SecretConfig) (names : List String) (proxyName : String) : SecretConfig where
  models := cfg.models.zipWith (fun card name => { card with credentialName := name, apiKey := "" }) names
  proxy := { cfg.proxy with passwordCredential := proxyName, password := "" }

/-- `isolate_profile_credentials`: the names that were written, the configuration and the store. -/
def isolateProfileCredentials (cfg : SecretConfig) (profileId : String) :
    Except String (List String) × SecretConfig × CredentialStore :=
  match gatherSecrets libs store faults profileId cfg with
  | .error e => (.error e, cfg, store)
  | .ok (writes, names) =>
    let (done, written, after) := writeSecrets faults writes [] store
    if done then (.ok written, cfg.isolated names (proxyName libs profileId), after)
    else
      (.error "ROUTER_PROFILE_CREDENTIAL_WRITE_FAILED", cfg,
        after.removeIsolatedProfileCredentials faults.delete written)

end

/-! ## What it is to do -/

section

variable (libs : Libs) (store : CredentialStore) (faults : CredentialFaults) (cfg : SecretConfig) (profileId : String)

/-- The secret that a card has. -/
def SecretCard.secret (card : SecretCard) : Option Secret :=
  if trim card.apiKey ≠ "" then some (encodeUtf16 card.apiKey)
  else if trim card.credentialName = "" then none
  else (store.readRouterCredential card.credentialName).filter (· ≠ [])

/-- The secret that a proxy has. -/
def SecretProxy.secret (proxy : SecretProxy) : Option Secret :=
  if proxy.password ≠ "" then some (encodeUtf16 proxy.password)
  else if trim proxy.passwordCredential = "" then none
  else (store.readRouterCredential proxy.passwordCredential).filter (· ≠ [])

/-- A call that fails changes nothing; one that ends well leaves every card, and the proxy, its secret under the
new name, and writes under no other names. -/
structure IsolatesCredentials : Prop where
  failed : ∀ e, (isolateProfileCredentials libs store faults cfg profileId).1 = .error e →
    (isolateProfileCredentials libs store faults cfg profileId).2 = (cfg, store)
  cards : ∀ written, (isolateProfileCredentials libs store faults cfg profileId).1 = .ok written →
    List.Forall₂ (fun card card' => card.source ≠ "oauth" →
      ((isolateProfileCredentials libs store faults cfg profileId).2.2.readRouterCredential card'.credentialName).filter
        (· ≠ []) = card.secret store)
      cfg.models (isolateProfileCredentials libs store faults cfg profileId).2.1.models
  proxy : ∀ written, (isolateProfileCredentials libs store faults cfg profileId).1 = .ok written →
    (isolateProfileCredentials libs store faults cfg profileId).2.1.proxy.secret
      (isolateProfileCredentials libs store faults cfg profileId).2.2 = cfg.proxy.secret store
  others : ∀ written, (isolateProfileCredentials libs store faults cfg profileId).1 = .ok written → ∀ target,
    (isolateProfileCredentials libs store faults cfg profileId).2.2.targets target ≠ store.targets target →
      ∃ name, startsWith name (profilePrefix libs profileId) = true ∧ target = store.wincredTarget name

/-- The secret of every card can be had, as well as that of a proxy in use. -/
structure SecretsReadable : Prop where
  cards : ∀ entry ∈ cfg.models.zipIdx, entry.1.source ≠ "oauth" →
    entry.1.secret store ≠ none ∧ (trim entry.1.apiKey = "" → faults.readCard entry.2 0 = false)
  proxy : cfg.proxy.enabled = true → cfg.proxy.password = "" → trim cfg.proxy.passwordCredential ≠ "" →
    faults.readProxy = false

/-- What is written for the cards, numbered from an index on. -/
def cardWrites (index : ℕ) (cards : List SecretCard) : List (String × Secret) :=
  (cards.zipIdx index).filterMap fun (card, index) =>
    if card.source = "oauth" then none else (card.secret store).map (cardName libs profileId index card, ·)

/-- What is written for the proxy. -/
def proxyWrites : List (String × Secret) :=
  if cfg.proxy.enabled then ((cfg.proxy.secret store).map (proxyName libs profileId, ·)).toList else []

/-- All that is written: the secrets under the new names. -/
def secretWrites : List (String × Secret) :=
  cardWrites libs store profileId 0 cfg.models ++ proxyWrites libs store cfg profileId

/-- A write that goes through. -/
def writeWorks (write : String × Secret) : Bool := !faults.write write.1 && store.writable write.1 write.2

/-- The writes before the first one that fails. -/
def writesBefore (writes : List (String × Secret)) : List (String × Secret) :=
  writes.takeWhile (writeWorks store faults)

/-- Removing what was written gives back what was there: nothing, or the same secret where the removal fails. -/
def Undone (write : String × Secret) : Prop :=
  store.targets (store.wincredTarget write.1) = if faults.delete write.1 then some write.2 else none

/-- The proxy has a secret that is copied, or what can be read under its new name is its secret already. -/
def ProxyKept : Prop :=
  (cfg.proxy.enabled = true ∧ cfg.proxy.secret store ≠ none)
    ∨ (store.readRouterCredential (proxyName libs profileId)).filter (· ≠ []) = cfg.proxy.secret store

end

/-! ## The writes -/

section

variable {libs : Libs} {store : CredentialStore} {faults : CredentialFaults} {cfg : SecretConfig} {profileId : String}
  {writes : List (String × Secret)} {names : List String} {name : String} {secret : Secret}

theorem wincredTarget_injective (store : CredentialStore) : Function.Injective store.wincredTarget := by
  intro name name' h
  unfold CredentialStore.wincredTarget at h
  have hlist : ∀ {front : String}, front ++ name = front ++ name' → name = name' := by
    intro front h
    have hchars := congrArg String.toList h
    rw [String.toList_append, String.toList_append] at hchars
    exact String.toList_injective (List.append_cancel_left hchars)
  split at h <;> exact hlist h

/-- Write under the targets, without a check. -/
def putSecrets (store : CredentialStore) (writes : List (String × Secret)) (targets : String → Option Secret) :
    String → Option Secret :=
  writes.foldl (fun targets write => Function.update targets (store.wincredTarget write.1) (some write.2)) targets

theorem putSecrets_cons (write : String × Secret) (rest : List (String × Secret)) (targets : String → Option Secret) :
    putSecrets store (write :: rest) targets
      = putSecrets store rest (Function.update targets (store.wincredTarget write.1) (some write.2)) := rfl

theorem putSecrets_of_notMem {target : String} (h : ∀ write ∈ writes, target ≠ store.wincredTarget write.1)
    (targets : String → Option Secret) : putSecrets store writes targets target = targets target := by
  induction writes generalizing targets with
  | nil => rfl
  | cons write rest ih =>
    rw [List.forall_mem_cons] at h
    rw [putSecrets_cons, ih h.2, Function.update_of_ne h.1]

/-- Under different names every secret stays. -/
theorem putSecrets_of_mem (hnodup : (writes.map Prod.fst).Nodup) (hmem : (name, secret) ∈ writes)
    (targets : String → Option Secret) :
    putSecrets store writes targets (store.wincredTarget name) = some secret := by
  induction writes generalizing targets with
  | nil => cases hmem
  | cons write rest ih =>
    rw [List.map_cons, List.nodup_cons] at hnodup
    rw [putSecrets_cons]
    rcases List.mem_cons.mp hmem with rfl | hmem
    · rw [putSecrets_of_notMem, Function.update_self]
      intro other hother htarget
      have hmem : other.1 ∈ rest.map Prod.fst := List.mem_map_of_mem hother
      rw [← wincredTarget_injective store htarget] at hmem
      exact hnodup.1 hmem
    · exact ih hnodup.2 hmem _

/-- The loop writes what comes before the first write that fails. -/
theorem writeSecrets_eq (faults : CredentialFaults) (writes : List (String × Secret)) (written : List String)
    (store : CredentialStore) : writeSecrets faults writes written store
      = (writes.all (writeWorks store faults), written ++ (writesBefore store faults writes).map Prod.fst,
        { store with targets := putSecrets store (writesBefore store faults writes) store.targets }) := by
  induction writes generalizing written store with
  | nil => simp [writeSecrets, writesBefore, putSecrets]
  | cons write rest ih =>
    obtain ⟨name, secret⟩ := write
    rw [writeSecrets, CredentialStore.writeRouterCredential, writesBefore]
    have hfails : (faults.write name || !store.writable name secret) = !writeWorks store faults (name, secret) := by
      rw [writeWorks, Bool.not_and, Bool.not_not]
    rw [hfails]
    cases hworks : writeWorks store faults (name, secret) with
    | false =>
      rw [Bool.not_false, if_pos rfl, List.takeWhile_cons_of_neg (by rw [hworks]; decide), List.all_cons, hworks]
      simp [putSecrets]
    | true =>
      rw [Bool.not_true, if_neg Bool.false_ne_true, List.takeWhile_cons_of_pos hworks, List.all_cons, hworks]
      dsimp only
      rw [ih, Bool.true_and, List.map_cons, putSecrets_cons, List.append_assoc]
      rfl

/-- Removing the names that were written. -/
theorem targets_remove (hnames : ∀ name ∈ names, trim name ≠ "") (fails : String → Bool) (store : CredentialStore)
    (target : String) : (store.removeIsolatedProfileCredentials fails names).targets target
      = if ∃ name ∈ names, fails name = false ∧ target = store.wincredTarget name then none else store.targets target := by
  induction names generalizing store with
  | nil => simp [CredentialStore.removeIsolatedProfileCredentials]
  | cons name rest ih =>
    rw [List.forall_mem_cons] at hnames
    have hstep : store.removeIsolatedProfileCredentials fails (name :: rest)
        = (store.deleteRouterCredential (fails name) name).removeIsolatedProfileCredentials fails rest := by
      rw [CredentialStore.removeIsolatedProfileCredentials, List.foldl_cons, if_neg hnames.1]
      rfl
    have htarget : (store.deleteRouterCredential (fails name) name).wincredTarget = store.wincredTarget := by
      unfold CredentialStore.deleteRouterCredential
      split <;> rfl
    rw [hstep, ih hnames.2, htarget]
    simp only [List.mem_cons, exists_eq_or_imp]
    by_cases hrest : ∃ name ∈ rest, fails name = false ∧ target = store.wincredTarget name
    · rw [if_pos hrest, if_pos (.inr hrest)]
    · rw [if_neg hrest]
      unfold CredentialStore.deleteRouterCredential
      cases hfails : fails name with
      | true =>
        rw [if_pos rfl, if_neg]
        rintro (⟨hno, -⟩ | hmem)
        · cases hno
        · exact hrest hmem
      | false =>
        rw [if_neg Bool.false_ne_true]
        by_cases heq : target = store.wincredTarget name
        · rw [if_pos (.inl ⟨rfl, heq⟩), heq]
          exact Function.update_self _ _ _
        · rw [if_neg]
          · exact Function.update_of_ne heq _ _
          · rintro (⟨-, hsame⟩ | hmem)
            · exact heq hsame
            · exact hrest hmem

/-! ## The names -/

theorem startsWith_append (front back : String) : startsWith (front ++ back) front = true := by
  rw [startsWith, String.toList_append, List.isPrefixOf_iff_prefix]
  exact List.prefix_append _ _

theorem append_left_injective (front : String) : Function.Injective fun back => front ++ back := by
  intro back back' h
  have hchars := congrArg String.toList h
  dsimp only at hchars
  rw [String.toList_append, String.toList_append] at hchars
  exact String.toList_injective (List.append_cancel_left hchars)

/-- A name of a profile. -/
theorem head_of_profileName (h : startsWith name (profilePrefix libs profileId) = true) :
    ∃ rest, name.toList = 'P' :: rest := by
  rw [startsWith, List.isPrefixOf_iff_prefix] at h
  obtain ⟨rest, hrest⟩ := h
  unfold profilePrefix at hrest
  rw [String.toList_append, String.toList_append] at hrest
  exact ⟨_, hrest.symm⟩

theorem trim_profileName (h : startsWith name (profilePrefix libs profileId) = true) : trim name ≠ "" := by
  obtain ⟨rest, hrest⟩ := head_of_profileName h
  intro htrim
  have hwhite : isWhitespace 'P' = true := isWhitespace_of_trim htrim (by rw [hrest]; exact List.mem_cons_self)
  exact absurd hwhite (by decide)

/-- No variable of the environment stands for it. -/
theorem environment_profileName (h : startsWith name (profilePrefix libs profileId) = true) :
    routerCredentialEnvironment name = none := by
  obtain ⟨rest, hrest⟩ := head_of_profileName h
  have hne : ∀ other : String, other.toList.head? ≠ some 'P' → (name == other) = false := by
    intro other hother
    rw [beq_eq_false_iff_ne]
    rintro rfl
    exact hother (by rw [hrest]; rfl)
  simp [routerCredentialEnvironment, List.lookup_cons, hne "AdminPassword" (by decide),
    hne "LocalApiKey" (by decide), hne "CliManagementSecret" (by decide)]

theorem read_profileName (h : startsWith name (profilePrefix libs profileId) = true) :
    store.readRouterCredential name
      = (store.targets (store.wincredTarget name)).or (store.targets (legacyWincredTarget name)) := by
  rw [CredentialStore.readRouterCredential, environment_profileName h]
  rfl

theorem startsWith_cardName (index : ℕ) (card : SecretCard) :
    startsWith (cardName libs profileId index card) (profilePrefix libs profileId) = true := by
  unfold cardName
  rw [String.append_assoc, String.append_assoc, String.append_assoc]
  exact startsWith_append _ _

theorem startsWith_proxyName : startsWith (proxyName libs profileId) (profilePrefix libs profileId) = true :=
  startsWith_append _ _

/-- The names of two cards differ in their numbers. -/
theorem cardName_injective {index index' : ℕ} {card card' : SecretCard}
    (h : cardName libs profileId index card = cardName libs profileId index' card') : index = index' := by
  have hdigits : ∀ n : ℕ, '-' ∉ (toString (n + 1)).toList := by
    intro n hmem
    rw [Nat.toString_eq_repr, Nat.toList_repr] at hmem
    exact absurd (Nat.isDigit_of_mem_toDigits (by decide) (by decide) hmem) (by decide)
  unfold cardName at h
  rw [String.append_assoc, String.append_assoc, String.append_assoc, String.append_assoc, String.append_assoc,
    String.append_assoc] at h
  have hrest := append_left_injective _ (append_left_injective _ h)
  have hchars := congrArg String.toList hrest
  rw [String.toList_append, String.toList_append, String.toList_append, String.toList_append] at hchars
  have hnumber := (append_cons_inj (hdigits index) (hdigits index') hchars).1
  rw [Nat.toString_eq_repr, Nat.toString_eq_repr] at hnumber
  have := natRepr_injective (String.toList_injective hnumber)
  omega

/-- The name of a card is not the one of the proxy. -/
theorem cardName_ne_proxyName (index : ℕ) (card : SecretCard) :
    cardName libs profileId index card ≠ proxyName libs profileId := by
  intro h
  unfold cardName proxyName at h
  rw [String.append_assoc, String.append_assoc, String.append_assoc] at h
  have hrest := congrArg String.toList (append_left_injective _ h)
  rw [String.toList_append] at hrest
  have hhead : some 'M' = some 'P' := congrArg List.head? hrest
  exact absurd (Option.some.inj hhead) (by decide)

theorem encodeUtf16_ne_nil {text : String} (h : text ≠ "") : encodeUtf16 text ≠ [] := by
  unfold encodeUtf16
  cases hchars : text.toList with
  | nil => exact absurd (String.toList_injective hchars) h
  | cons c rest =>
    rw [List.flatMap_cons]
    split <;> simp

/-- The legacy target of the proxy is no target that a card's secret is written to. -/
theorem legacyWincredTarget_proxyName (store : CredentialStore) (index : ℕ) (card : SecretCard) :
    legacyWincredTarget (proxyName libs profileId) ≠ store.wincredTarget (cardName libs profileId index card) := by
  unfold legacyWincredTarget CredentialStore.wincredTarget
  split
  · intro h
    exact cardName_ne_proxyName index card (append_left_injective _ h).symm
  · intro h
    rw [String.append_assoc, String.append_assoc] at h
    have hchars := congrArg String.toList (append_left_injective _ h)
    -- the last hyphen of the proxy's name comes before the one that the card's name has there
    obtain ⟨front, hfront⟩ : ∃ front, "Profile-" ++ slugify libs profileId = front := ⟨_, rfl⟩
    obtain ⟨back, hback⟩ : ∃ back, (cardName libs profileId index card).toList = front.toList ++ '-' :: back := by
      refine ⟨("Model-" ++ toString (index + 1) ++ "-" ++ takeChars (slugify libs card.model) 40).toList, ?_⟩
      unfold cardName profilePrefix
      rw [hfront]
      simp only [String.toList_append, List.append_assoc]
      rfl
    have hproxy : (proxyName libs profileId).toList = front.toList ++ '-' :: "ProxyPassword".toList := by
      unfold proxyName profilePrefix
      rw [hfront, String.toList_append, String.toList_append, List.append_assoc]
      rfl
    rw [String.toList_append, String.toList_append, hproxy, hback, ← List.append_assoc, ← List.append_assoc] at hchars
    rcases List.append_eq_append_iff.mp hchars with ⟨middle, hlong, hrest⟩ | ⟨middle, hlong, -⟩
    · cases middle with
      | nil =>
        have hlength := congrArg List.length hlong
        rw [List.append_nil, List.length_append, List.length_append, show "/".toList.length = 1 from rfl] at hlength
        omega
      | cons c middle =>
        have hmem : '-' ∈ "ProxyPassword".toList := by
          rw [(List.cons.inj hrest).2]
          exact List.mem_append_right _ List.mem_cons_self
        exact absurd hmem (by decide)
    · have hlength := congrArg List.length hlong
      rw [List.length_append, List.length_append, List.length_append, show "/".toList.length = 1 from rfl] at hlength
      omega

/-! ## What is gathered -/

/-- A secret that can be had is had at the first attempt. -/
theorem readAttempts_ok_iff (fails : ℕ → Bool) : readAttempts store fails name [0, 1, 2] = .ok secret ↔
    (store.readRouterCredential name).filter (· ≠ []) = some secret ∧ fails 0 = false := by
  cases hread : (store.readRouterCredential name).filter (· ≠ []) with
  | none =>
    simp only [readAttempts, hread]
    refine ⟨fun h => ?_, fun h => nomatch h.1⟩
    split at h
    · cases h
    · split at h
      · cases h
      · split at h <;> cases h
  | some found =>
    simp only [readAttempts, hread]
    cases hfails : fails 0 with
    | true => simp
    | false => simp

/-- The secret that is gathered for a card is the one it has. -/
theorem cardSecret_ok_iff (fails : ℕ → Bool) (card : SecretCard) : cardSecret store fails card = .ok secret ↔
    card.secret store = some secret ∧ (trim card.apiKey = "" → fails 0 = false) := by
  unfold cardSecret SecretCard.secret
  by_cases hkey : trim card.apiKey = ""
  · rw [if_pos hkey, if_neg (not_not.mpr hkey)]
    by_cases hnamed : trim card.credentialName = ""
    · rw [if_pos hnamed, if_pos hnamed]
      simp
    · rw [if_neg hnamed, if_neg hnamed, readAttempts_ok_iff]
      simp only [hkey, true_imp_iff]
  · rw [if_neg hkey, if_pos hkey]
    simp [hkey]

theorem cardSecret_ne_nil {card : SecretCard} (h : card.secret store = some secret) : secret ≠ [] := by
  unfold SecretCard.secret at h
  split at h
  · rename_i hkey
    rw [← Option.some.inj h]
    refine encodeUtf16_ne_nil fun heq => hkey ?_
    rw [heq]
    rfl
  · split at h
    · cases h
    · simpa using (Option.filter_eq_some_iff.mp h).2

theorem proxySecret_ne_nil {proxy : SecretProxy} (h : proxy.secret store = some secret) : secret ≠ [] := by
  unfold SecretProxy.secret at h
  split at h
  · rename_i hpassword
    rw [← Option.some.inj h]
    exact encodeUtf16_ne_nil hpassword
  · split at h
    · cases h
    · simpa using (Option.filter_eq_some_iff.mp h).2

/-- The new names of the cards. -/
def cardNames (libs : Libs) (profileId : String) (index : ℕ) (cards : List SecretCard) : List String :=
  (cards.zipIdx index).map fun (card, index) =>
    if card.source = "oauth" then "" else cardName libs profileId index card

/-- The loop over the cards gathers the secrets that they have, or fails. -/
theorem gatherCards_ok_iff (index : ℕ) (cards : List SecretCard) :
    gatherCards libs store faults profileId index cards = .ok (writes, names) ↔
      (∀ entry ∈ cards.zipIdx index, entry.1.source ≠ "oauth" →
        entry.1.secret store ≠ none ∧ (trim entry.1.apiKey = "" → faults.readCard entry.2 0 = false))
      ∧ writes = cardWrites libs store profileId index cards ∧ names = cardNames libs profileId index cards := by
  induction cards generalizing index writes names with
  | nil =>
    simp only [gatherCards, cardWrites, cardNames, List.zipIdx_nil, List.filterMap_nil, List.map_nil, Except.ok.injEq,
      Prod.mk.injEq, List.not_mem_nil, false_imp_iff, implies_true, true_and]
    exact and_congr eq_comm eq_comm
  | cons card rest ih =>
    have hmap : ∀ (f : List (String × Secret) × List String → List (String × Secret) × List String),
        (gatherCards libs store faults profileId (index + 1) rest).map f = .ok (writes, names) ↔
          ∃ writes' names', gatherCards libs store faults profileId (index + 1) rest = .ok (writes', names')
            ∧ f (writes', names') = (writes, names) := by
      intro f
      cases hrest : gatherCards libs store faults profileId (index + 1) rest with
      | error e => simp [Except.map]
      | ok gathered =>
        obtain ⟨writes', names'⟩ := gathered
        simp [Except.map]
    rw [gatherCards]
    simp only [List.zipIdx_cons, List.forall_mem_cons, cardWrites, cardNames, List.map_cons, List.filterMap_cons]
    by_cases hoauth : card.source = "oauth"
    · rw [if_pos hoauth, hmap]
      simp only [hoauth, ne_eq, not_true_eq_false, false_imp_iff, true_and, if_true, ih, Prod.mk.injEq]
      constructor
      · rintro ⟨writes', names', ⟨hrest, hwrites, hnames⟩, rfl, rfl⟩
        exact ⟨hrest, hwrites, by rw [hnames, cardNames]⟩
      · rintro ⟨hrest, rfl, rfl⟩
        exact ⟨_, _, ⟨hrest, rfl, rfl⟩, rfl, rfl⟩
    · rw [if_neg hoauth]
      simp only [hoauth, ne_eq, not_false_eq_true, true_imp_iff, if_false]
      cases hsecret : cardSecret store (faults.readCard index) card with
      | error e =>
        refine iff_of_false (fun h => nomatch h) ?_
        rintro ⟨⟨⟨hhas, hread⟩, -⟩, -⟩
        obtain ⟨secret, hsecret'⟩ := Option.ne_none_iff_exists'.mp hhas
        rw [(cardSecret_ok_iff _ _).mpr ⟨hsecret', hread⟩] at hsecret
        cases hsecret
      | ok secret =>
        obtain ⟨hhas, hread⟩ := (cardSecret_ok_iff _ _).mp hsecret
        dsimp only
        rw [hmap, hhas]
        simp only [ih, Prod.mk.injEq, Option.map_some]
        constructor
        · rintro ⟨writes', names', ⟨hrest, rfl, rfl⟩, rfl, rfl⟩
          exact ⟨⟨⟨Option.some_ne_none secret, hread⟩, hrest⟩, rfl, rfl⟩
        · rintro ⟨⟨-, hrest⟩, rfl, rfl⟩
          exact ⟨_, _, ⟨hrest, rfl, rfl⟩, rfl, rfl⟩

/-- The secret that is gathered for the proxy is the one it has, where it is in use. -/
theorem proxySecret_ok_iff (proxy : SecretProxy) (found : Option Secret) : proxySecret store faults proxy = .ok found ↔
    (proxy.enabled = true → proxy.password = "" → trim proxy.passwordCredential ≠ "" → faults.readProxy = false)
      ∧ (if proxy.enabled then proxy.secret store else none) = found := by
  unfold proxySecret SecretProxy.secret
  cases proxy.enabled with
  | false => simp
  | true =>
    by_cases hpassword : proxy.password = ""
    · by_cases hnamed : trim proxy.passwordCredential = ""
      · simp [hpassword, hnamed]
      · cases hread : faults.readProxy <;> simp [hpassword, hnamed]
    · simp [hpassword]

theorem gatherSecrets_ok_iff : gatherSecrets libs store faults profileId cfg = .ok (writes, names) ↔
    SecretsReadable store faults cfg ∧ secretWrites libs store cfg profileId = writes
      ∧ cardNames libs profileId 0 cfg.models = names := by
  unfold gatherSecrets
  cases hcards : gatherCards libs store faults profileId 0 cfg.models with
  | error e =>
    refine iff_of_false (fun h => nomatch h) fun h => ?_
    rw [(gatherCards_ok_iff 0 cfg.models).mpr ⟨h.1.cards, rfl, rfl⟩] at hcards
    cases hcards
  | ok gathered =>
    obtain ⟨cards, names'⟩ := gathered
    obtain ⟨hreadable, hwrites, hnames⟩ := (gatherCards_ok_iff 0 cfg.models).mp hcards
    cases hproxy : proxySecret store faults cfg.proxy with
    | error e =>
      refine iff_of_false (fun h => nomatch h) fun h => ?_
      rw [(proxySecret_ok_iff cfg.proxy _).mpr ⟨h.1.proxy, rfl⟩] at hproxy
      cases hproxy
    | ok found =>
      obtain ⟨hread, hfound⟩ := (proxySecret_ok_iff cfg.proxy found).mp hproxy
      have hboth : SecretsReadable store faults cfg := ⟨hreadable, hread⟩
      have hall : secretWrites libs store cfg profileId
          = cards ++ (found.map (proxyName libs profileId, ·)).toList := by
        unfold secretWrites proxyWrites
        rw [← hwrites, ← hfound]
        cases cfg.proxy.enabled <;> rfl
      rw [hall, ← hnames]
      cases found with
      | none => simp [hboth]
      | some secret => simp [hboth]

/-! ## All that is written -/

theorem mem_cardWrites {index : ℕ} {cards : List SecretCard} {write : String × Secret}
    (h : write ∈ cardWrites libs store profileId index cards) :
    ∃ card place, (card, place) ∈ cards.zipIdx index ∧ write.1 = cardName libs profileId place card
      ∧ card.secret store = some write.2 := by
  obtain ⟨⟨card, place⟩, hmem, hwrite⟩ := List.mem_filterMap.mp h
  dsimp only at hwrite
  split at hwrite
  · cases hwrite
  · obtain ⟨secret, hsecret, rfl⟩ := Option.map_eq_some_iff.mp hwrite
    exact ⟨card, place, hmem, rfl, hsecret⟩

theorem mem_proxyWrites {write : String × Secret} (h : write ∈ proxyWrites libs store cfg profileId) :
    cfg.proxy.enabled = true ∧ write.1 = proxyName libs profileId ∧ cfg.proxy.secret store = some write.2 := by
  unfold proxyWrites at h
  split at h
  · rename_i hon
    obtain ⟨secret, hsecret, rfl⟩ := Option.map_eq_some_iff.mp (Option.mem_toList.mp h)
    exact ⟨hon, rfl, hsecret⟩
  · cases h

theorem nodup_cardWrites (index : ℕ) (cards : List SecretCard) :
    ((cardWrites libs store profileId index cards).map Prod.fst).Nodup := by
  induction cards generalizing index with
  | nil => exact List.nodup_nil
  | cons card rest ih =>
    rw [cardWrites, List.zipIdx_cons, List.filterMap_cons]
    split
    · exact ih (index + 1)
    · rename_i write hwrite
      dsimp only at hwrite
      split at hwrite
      · cases hwrite
      · obtain ⟨secret, -, rfl⟩ := Option.map_eq_some_iff.mp hwrite
        rw [List.map_cons, List.nodup_cons]
        refine ⟨fun hmem => ?_, ih (index + 1)⟩
        obtain ⟨other, hother, hsame⟩ := List.mem_map.mp hmem
        obtain ⟨card', place, hplace, hname, -⟩ := mem_cardWrites hother
        have hequal := cardName_injective (hname.symm.trans hsame)
        have := (List.mem_zipIdx hplace).1
        omega

theorem nodup_secretWrites : ((secretWrites libs store cfg profileId).map Prod.fst).Nodup := by
  rw [secretWrites, List.map_append, List.nodup_append]
  refine ⟨nodup_cardWrites 0 cfg.models, ?_, ?_⟩
  · unfold proxyWrites
    split
    · cases cfg.proxy.secret store with
      | none => exact List.nodup_nil
      | some secret => exact List.nodup_singleton _
    · exact List.nodup_nil
  · intro name hcard name' hproxy
    obtain ⟨write, hwrite, rfl⟩ := List.mem_map.mp hcard
    obtain ⟨write', hwrite', rfl⟩ := List.mem_map.mp hproxy
    obtain ⟨card, place, -, hname, -⟩ := mem_cardWrites hwrite
    rw [hname, (mem_proxyWrites hwrite').2.1]
    exact cardName_ne_proxyName place card

theorem mem_secretWrites {write : String × Secret} (h : write ∈ secretWrites libs store cfg profileId) :
    startsWith write.1 (profilePrefix libs profileId) = true ∧ write.2 ≠ [] := by
  rcases List.mem_append.mp h with hcard | hproxy
  · obtain ⟨card, place, -, hname, hsecret⟩ := mem_cardWrites hcard
    exact ⟨by rw [hname]; exact startsWith_cardName place card, cardSecret_ne_nil hsecret⟩
  · obtain ⟨-, hname, hsecret⟩ := mem_proxyWrites hproxy
    exact ⟨by rw [hname]; exact startsWith_proxyName, proxySecret_ne_nil hsecret⟩

/-- The store when all was written. -/
def CredentialStore.written (store : CredentialStore) (writes : List (String × Secret)) : CredentialStore :=
  { store with targets := putSecrets store writes store.targets }

/-- What was written is what is read. -/
theorem read_written {write : String × Secret} (h : write ∈ secretWrites libs store cfg profileId) :
    ((store.written (secretWrites libs store cfg profileId)).readRouterCredential write.1).filter (· ≠ [])
      = some write.2 := by
  obtain ⟨hstarts, hne⟩ := mem_secretWrites h
  have htarget : (store.written (secretWrites libs store cfg profileId)).targets (store.wincredTarget write.1)
      = some write.2 := putSecrets_of_mem nodup_secretWrites h _
  have hread : (store.written (secretWrites libs store cfg profileId)).readRouterCredential write.1 = some write.2 := by
    rw [read_profileName hstarts]
    exact (congrArg (Option.or · _) htarget).trans (Option.some_or ..)
  rw [hread, Option.filter_some, if_pos (by simpa using hne)]

/-- Where the secret of the proxy is not written, its name is read as before. -/
theorem read_written_proxyName (h : proxyWrites libs store cfg profileId = []) :
    (store.written (secretWrites libs store cfg profileId)).readRouterCredential (proxyName libs profileId)
      = store.readRouterCredential (proxyName libs profileId) := by
  rw [read_profileName startsWith_proxyName, read_profileName startsWith_proxyName, secretWrites, h, List.append_nil]
  have hother : ∀ write ∈ cardWrites libs store profileId 0 cfg.models,
      store.wincredTarget (proxyName libs profileId) ≠ store.wincredTarget write.1
        ∧ legacyWincredTarget (proxyName libs profileId) ≠ store.wincredTarget write.1 := by
    intro write hwrite
    obtain ⟨card, place, -, hname, -⟩ := mem_cardWrites hwrite
    rw [hname]
    exact ⟨fun h => cardName_ne_proxyName place card (wincredTarget_injective store h).symm,
      legacyWincredTarget_proxyName store place card⟩
  exact congrArg₂ Option.or (putSecrets_of_notMem (fun write hwrite => (hother write hwrite).1) _)
    (putSecrets_of_notMem (fun write hwrite => (hother write hwrite).2) _)

/-! ## The two outcomes -/

variable (libs store faults cfg profileId) in
/-- Where all secrets can be had, all are written, or those before the first write that fails are removed. -/
theorem isolateProfileCredentials_of_readable (h : SecretsReadable store faults cfg) :
    isolateProfileCredentials libs store faults cfg profileId =
      if (secretWrites libs store cfg profileId).all (writeWorks store faults) then
        (.ok ((secretWrites libs store cfg profileId).map Prod.fst),
          cfg.isolated (cardNames libs profileId 0 cfg.models) (proxyName libs profileId),
          store.written (secretWrites libs store cfg profileId))
      else
        (.error "ROUTER_PROFILE_CREDENTIAL_WRITE_FAILED", cfg,
          (store.written (writesBefore store faults (secretWrites libs store cfg profileId))).removeIsolatedProfileCredentials
            faults.delete ((writesBefore store faults (secretWrites libs store cfg profileId)).map Prod.fst)) := by
  unfold isolateProfileCredentials
  rw [gatherSecrets_ok_iff.mpr ⟨h, rfl, rfl⟩]
  dsimp only
  rw [writeSecrets_eq]
  cases hall : (secretWrites libs store cfg profileId).all (writeWorks store faults) with
  | false => rfl
  | true =>
    have hbefore : writesBefore store faults (secretWrites libs store cfg profileId)
        = secretWrites libs store cfg profileId :=
      List.takeWhile_eq_self_iff.mpr (List.all_eq_true.mp hall)
    dsimp only
    rw [if_pos rfl, if_pos rfl, hbefore, List.nil_append]
    rfl

variable (libs profileId) in
theorem isolateProfileCredentials_of_not_readable (h : ¬ SecretsReadable store faults cfg) :
    ∃ e, isolateProfileCredentials libs store faults cfg profileId = (.error e, cfg, store) := by
  unfold isolateProfileCredentials
  cases hgather : gatherSecrets libs store faults profileId cfg with
  | error e => exact ⟨e, rfl⟩
  | ok gathered => exact absurd (gatherSecrets_ok_iff.mp hgather).1 h

theorem remove_rest (fails : String → Bool) (names : List String) (store : CredentialStore) :
    (store.removeIsolatedProfileCredentials fails names).environment = store.environment
      ∧ (store.removeIsolatedProfileCredentials fails names).scope = store.scope := by
  induction names generalizing store with
  | nil => exact ⟨rfl, rfl⟩
  | cons name rest ih =>
    have hstep := ih (if trim name = "" then store else store.deleteRouterCredential (fails name) name)
    rw [CredentialStore.removeIsolatedProfileCredentials, List.foldl_cons]
    rw [CredentialStore.removeIsolatedProfileCredentials] at hstep
    rw [hstep.1, hstep.2]
    unfold CredentialStore.deleteRouterCredential
    split
    · exact ⟨rfl, rfl⟩
    · split <;> exact ⟨rfl, rfl⟩

/-- Removing some of the writes gives back the store exactly where each is undone by it. -/
theorem remove_written_iff (hsub : writes.Sublist (secretWrites libs store cfg profileId)) :
    (store.written writes).removeIsolatedProfileCredentials faults.delete (writes.map Prod.fst) = store ↔
      ∀ write ∈ writes, Undone store faults write := by
  have hnodup : (writes.map Prod.fst).Nodup := nodup_secretWrites.sublist (hsub.map Prod.fst)
  have hnames : ∀ name ∈ writes.map Prod.fst, trim name ≠ "" := by
    intro name hname
    obtain ⟨write, hwrite, rfl⟩ := List.mem_map.mp hname
    exact trim_profileName (mem_secretWrites (hsub.subset hwrite)).1
  have htargets : ∀ target, ((store.written writes).removeIsolatedProfileCredentials faults.delete
      (writes.map Prod.fst)).targets target = if ∃ name ∈ writes.map Prod.fst, faults.delete name = false
        ∧ target = store.wincredTarget name then none else putSecrets store writes store.targets target :=
    fun target => targets_remove hnames faults.delete (store.written writes) target
  have hwritten : ∀ write ∈ writes, ((store.written writes).removeIsolatedProfileCredentials faults.delete
      (writes.map Prod.fst)).targets (store.wincredTarget write.1)
        = if faults.delete write.1 then some write.2 else none := by
    intro write hwrite
    rw [htargets, putSecrets_of_mem hnodup hwrite]
    cases hdelete : faults.delete write.1 with
    | false => rw [if_pos ⟨write.1, List.mem_map_of_mem hwrite, hdelete, rfl⟩, if_neg Bool.false_ne_true]
    | true =>
      rw [if_neg, if_pos rfl]
      rintro ⟨name, -, hkept, hsame⟩
      rw [← wincredTarget_injective store hsame, hdelete] at hkept
      cases hkept
  constructor
  · intro hsame write hwrite
    rw [Undone, ← hwritten write hwrite, hsame]
  · intro hundone
    have hall : ((store.written writes).removeIsolatedProfileCredentials faults.delete (writes.map Prod.fst)).targets
        = store.targets := by
      funext target
      by_cases hmem : ∃ write ∈ writes, target = store.wincredTarget write.1
      · obtain ⟨write, hwrite, rfl⟩ := hmem
        rw [hwritten write hwrite, hundone write hwrite]
      · rw [htargets, if_neg, putSecrets_of_notMem (fun write hwrite h => hmem ⟨write, hwrite, h⟩)]
        rintro ⟨name, hname, -, h⟩
        obtain ⟨write, hwrite, rfl⟩ := List.mem_map.mp hname
        exact hmem ⟨write, hwrite, h⟩
    obtain ⟨henvironment, hscope⟩ := remove_rest faults.delete (writes.map Prod.fst) (store.written writes)
    cases hafter : (store.written writes).removeIsolatedProfileCredentials faults.delete (writes.map Prod.fst) with
    | mk environment scope targets =>
      rw [hafter] at hall henvironment hscope
      dsimp only at hall henvironment hscope
      rw [hall, henvironment, hscope]
      rfl

theorem writes_sublist (faults : CredentialFaults) (writes : List (String × Secret)) :
    (writesBefore store faults writes).Sublist writes := List.takeWhile_sublist _

/-- The cards under their new names, read from a store. -/
theorem forall₂_isolated {index : ℕ} {cards : List SecretCard} {after : CredentialStore}
    (h : ∀ entry ∈ cards.zipIdx index, entry.1.source ≠ "oauth" →
      (after.readRouterCredential (cardName libs profileId entry.2 entry.1)).filter (· ≠ []) = entry.1.secret store) :
    List.Forall₂ (fun card card' => card.source ≠ "oauth" →
        (after.readRouterCredential card'.credentialName).filter (· ≠ []) = card.secret store)
      cards (cards.zipWith (fun card name => { card with credentialName := name, apiKey := "" })
        (cardNames libs profileId index cards)) := by
  induction cards generalizing index with
  | nil => exact .nil
  | cons card rest ih =>
    rw [List.zipIdx_cons, List.forall_mem_cons] at h
    refine .cons (fun hsource => ?_) (ih h.2)
    dsimp only
    rw [if_neg hsource]
    exact h.1 hsource

theorem mem_secretWrites_of_card {card : SecretCard} {place : ℕ} (hmem : (card, place) ∈ cfg.models.zipIdx)
    (hsource : card.source ≠ "oauth") (hsecret : card.secret store = some secret) :
    (cardName libs profileId place card, secret) ∈ secretWrites libs store cfg profileId := by
  refine List.mem_append_left _ (List.mem_filterMap.mpr ⟨(card, place), hmem, ?_⟩)
  dsimp only
  rw [if_neg hsource, hsecret, Option.map_some]

/-- The secret of the proxy after all was written. -/
theorem secret_isolated_proxy (names : List String) (after : CredentialStore) :
    (cfg.isolated names (proxyName libs profileId)).proxy.secret after
      = (after.readRouterCredential (proxyName libs profileId)).filter (· ≠ []) := by
  unfold SecretProxy.secret SecretConfig.isolated
  dsimp only
  rw [if_neg (not_not.mpr rfl), if_neg (trim_profileName startsWith_proxyName)]

/-- The proxy has its secret after all was written exactly where it is copied or was under the new name. -/
theorem proxy_written_iff : ((store.written (secretWrites libs store cfg profileId)).readRouterCredential
      (proxyName libs profileId)).filter (· ≠ []) = cfg.proxy.secret store ↔ ProxyKept libs store cfg profileId := by
  unfold ProxyKept
  cases hwrites : proxyWrites libs store cfg profileId with
  | nil =>
    rw [read_written_proxyName hwrites]
    refine (or_iff_right ?_).symm
    rintro ⟨hon, hsome⟩
    obtain ⟨secret, hsecret⟩ := Option.ne_none_iff_exists'.mp hsome
    rw [proxyWrites, if_pos hon, hsecret] at hwrites
    cases hwrites
  | cons write rest =>
    have hmem : write ∈ proxyWrites libs store cfg profileId := by
      rw [hwrites]
      exact List.mem_cons_self
    obtain ⟨hon, hname, hsecret⟩ := mem_proxyWrites hmem
    refine iff_of_true ?_ (.inl ⟨hon, by rw [hsecret]; exact Option.some_ne_none _⟩)
    rw [← hname, hsecret]
    exact read_written (List.mem_append_right _ hmem)

/-- A call does what it is to do, except where nothing but what it wrote itself should have been under the names that
it removes, or where the proxy's secret is not copied. -/
theorem isolatesCredentials_iff (libs : Libs) (store : CredentialStore) (faults : CredentialFaults) (cfg : SecretConfig)
    (profileId : String) : IsolatesCredentials libs store faults cfg profileId ↔
      (SecretsReadable store faults cfg →
        if (secretWrites libs store cfg profileId).all (writeWorks store faults) then ProxyKept libs store cfg profileId
        else ∀ write ∈ writesBefore store faults (secretWrites libs store cfg profileId), Undone store faults write) := by
  by_cases hreadable : SecretsReadable store faults cfg
  · have hrun := isolateProfileCredentials_of_readable libs store faults cfg profileId hreadable
    rw [imp_iff_right hreadable]
    cases hall : (secretWrites libs store cfg profileId).all (writeWorks store faults) with
    | false =>
      rw [hall, if_neg Bool.false_ne_true] at hrun
      rw [if_neg Bool.false_ne_true, ← remove_written_iff (writes_sublist faults _)]
      constructor
      · intro hisolates
        have hsame := hisolates.failed _ (by rw [hrun])
        rw [hrun] at hsame
        exact (Prod.mk.inj hsame).2
      · intro hsame
        have hno : ∀ written, (isolateProfileCredentials libs store faults cfg profileId).1 ≠ .ok written := by
          intro written hok
          rw [hrun] at hok
          cases hok
        refine ⟨fun e _ => ?_, fun written h => absurd h (hno written), fun written h => absurd h (hno written),
          fun written h => absurd h (hno written)⟩
        rw [hrun]
        exact Prod.ext rfl hsame
    | true =>
      rw [hall, if_pos rfl] at hrun
      rw [if_pos rfl, ← proxy_written_iff]
      have hok : (isolateProfileCredentials libs store faults cfg profileId).1
          = .ok ((secretWrites libs store cfg profileId).map Prod.fst) := by rw [hrun]
      constructor
      · intro hisolates
        rw [← hisolates.proxy _ hok, hrun]
        exact (secret_isolated_proxy _ _).symm
      · intro hproxy
        refine ⟨fun e he => ?_, fun _ _ => ?_, fun _ _ => ?_, fun _ _ target htarget => ?_⟩
        · rw [hrun] at he
          cases he
        · rw [hrun]
          refine forall₂_isolated fun entry hentry hsource => ?_
          obtain ⟨secret, hsecret⟩ := Option.ne_none_iff_exists'.mp (hreadable.cards entry hentry hsource).1
          rw [hsecret]
          exact read_written (mem_secretWrites_of_card hentry hsource hsecret)
        · rw [hrun]
          exact (secret_isolated_proxy _ _).trans hproxy
        · rw [hrun] at htarget
          by_contra hnone
          refine htarget (putSecrets_of_notMem (fun write hwrite hsame => hnone ?_) _)
          exact ⟨write.1, (mem_secretWrites hwrite).1, hsame⟩
  · obtain ⟨e, hrun⟩ := isolateProfileCredentials_of_not_readable libs profileId hreadable
    have hno : ∀ written, (isolateProfileCredentials libs store faults cfg profileId).1 ≠ .ok written := by
      intro written hok
      rw [hrun] at hok
      cases hok
    refine iff_of_true ⟨fun e _ => by rw [hrun], fun written h => absurd h (hno written),
      fun written h => absurd h (hno written), fun written h => absurd h (hno written)⟩ fun h => absurd h hreadable

/-- A store with the secret of an earlier profile of the same name. -/
def earlierStore : CredentialStore where
  environment _ := none
  scope := ""
  targets target := if target = "CodexRouter/Profile-home-Model-1-a" then some [65] else none

/-- Two cards with keys. -/
def twoSecretCards : SecretConfig where
  models := [{ model := "a", apiKey := "b" }, { model := "c", apiKey := "d" }]

/-- The second write is refused. -/
def secondWriteFails : CredentialFaults :=
  ⟨fun _ _ => false, false, fun name => name = "Profile-home-Model-2-c", fun _ => false⟩

/-- The earlier secret is gone. -/
theorem not_isolatesCredentials_earlier :
    earlierStore.targets "CodexRouter/Profile-home-Model-1-a" = some [65]
      ∧ (isolateProfileCredentials plainLibs earlierStore secondWriteFails twoSecretCards "home").1
        = .error "ROUTER_PROFILE_CREDENTIAL_WRITE_FAILED"
      ∧ (isolateProfileCredentials plainLibs earlierStore secondWriteFails twoSecretCards "home").2.2.targets
        "CodexRouter/Profile-home-Model-1-a" = none
      ∧ ¬ IsolatesCredentials plainLibs earlierStore secondWriteFails twoSecretCards "home" := by
  have hfailed : (isolateProfileCredentials plainLibs earlierStore secondWriteFails twoSecretCards "home").1
      = .error "ROUTER_PROFILE_CREDENTIAL_WRITE_FAILED" := by decide +kernel
  have hgone : (isolateProfileCredentials plainLibs earlierStore secondWriteFails twoSecretCards "home").2.2.targets
      "CodexRouter/Profile-home-Model-1-a" = none := by decide +kernel
  refine ⟨rfl, hfailed, hgone, fun hisolates => ?_⟩
  have hsame := hisolates.failed _ hfailed
  rw [hsame] at hgone
  cases hgone

end

end CodexRouter
