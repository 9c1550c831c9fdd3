/-
# Where API channels are published

The plan gives every joined channel a public id; the publishing loop decides
again, by the last path segments of the ids in an account's mapping.  The
mapping of an account is made of the cards that are filed under its name
(`FiledUnder`, carried through `sync_api_channels` by `filed_syncApiChannels`).
`publishedAsPlanned_iff` says when the two decisions agree.
-/
import CodexRouter.AdvertisedModels
import CodexRouter.Publishing

namespace CodexRouter

open Text

/-- A card and its row. -/
abbrev PlannedCard := ModelConfig × ModelRoute

/-! ## The mapping of a card -/

section

variable (libs : Libs)

/-- The ids a card is requested by. -/
def channelIds (card : PlannedCard) : List String := card.2.requestModelIds ++ [card.1.model]

/-- The id a card is sent upstream with. -/
def cardUpstream (card : PlannedCard) : String :=
  upstreamModelId libs card.1.model card.1.baseUrl

/-- What the cards map an id to: the last card with the id decides. -/
def upstreamOf (cards : List PlannedCard) (id : String) : Option String :=
  cards.foldl (fun found card => if id ∈ channelIds card then some (cardUpstream libs card) else found)
    none

@[simp] theorem upstreamOf_append (cards : List PlannedCard) (card : PlannedCard) (id : String) :
    upstreamOf libs (cards ++ [card]) id
      = if id ∈ channelIds card then some (cardUpstream libs card) else upstreamOf libs cards id := by
  rw [upstreamOf, List.foldl_append]
  rfl

theorem get_foldl_insert (ids : List String) (upstream : String) (m : OrdMap String String)
    (id : String) : (ids.foldl (fun m k => OrdMap.insert k upstream m) m).get id
      = if id ∈ ids then some upstream else m.get id := by
  induction ids generalizing m with
  | nil => rfl
  | cons k rest ih =>
    rw [List.foldl_cons, ih]
    by_cases hrest : id ∈ rest
    · rw [if_pos hrest, if_pos (List.mem_cons_of_mem _ hrest)]
    · rw [if_neg hrest]
      by_cases hk : id = k
      · subst hk
        rw [OrdMap.get_insert_self, if_pos List.mem_cons_self]
      · rw [OrdMap.get_insert_ne hk, if_neg (by simp [hk, hrest])]

theorem ordered_foldl_insert (ids : List String) (upstream : String) {m : OrdMap String String}
    (h : m.Ordered) : (ids.foldl (fun m k => OrdMap.insert k upstream m) m).Ordered := by
  induction ids generalizing m with
  | nil => exact h
  | cons k rest ih => exact ih (OrdMap.ordered_insert h)

/-- The mapping sends the ids of the card to its upstream id. -/
theorem get_channelMapping (card : PlannedCard) (id : String) :
    (channelMapping libs card.1 card.2).get id
      = if id ∈ channelIds card then some (cardUpstream libs card) else none := by
  have hids : id ∈ channelIds card ↔ id ∈ card.2.requestModelIds ∨ id = card.1.model := by
    simp [channelIds]
  rw [channelMapping, OrdMap.get_orInsert, get_foldl_insert]
  by_cases hreq : id ∈ card.2.requestModelIds
  · rw [if_pos hreq, if_pos (hids.mpr (Or.inl hreq))]
    rfl
  · by_cases hid : id = card.1.model
    · rw [if_neg hreq, if_pos hid, if_pos (hids.mpr (Or.inr hid))]
      rfl
    · rw [if_neg hreq, if_neg hid, if_neg (by rw [hids]; exact not_or.mpr ⟨hreq, hid⟩)]
      rfl

theorem ordered_channelMapping (card : PlannedCard) :
    (channelMapping libs card.1 card.2).Ordered :=
  OrdMap.ordered_orInsert (ordered_foldl_insert _ _ OrdMap.ordered_nil)

end

/-! ## The accounts of the cards -/

section

variable (libs : Libs) (apiKey : ModelConfig → Option String)

/-- The cards that are filed under an account name, in the order of the plan. -/
def filedCards (cards : List PlannedCard) (name : String) : List PlannedCard :=
  cards.filter fun card =>
    card.1.source ≠ "oauth" && (apiKey card.1).isSome && apiAccountName libs card.1 = name

/-- The account that holds the given cards and nothing else. -/
structure FiledUnder (groupId : ℤ) (cards : List PlannedCard) (account : Account) : Prop where
  apikey : account.accountType = .apikey
  active : account.status = "active"
  schedulable : account.schedulable = true
  mapping : ∃ m, account.modelMapping = some m ∧ m.Ordered ∧ ∀ id, m.get id = upstreamOf libs cards id
  groups : groupId ∈ account.groups ↔ ∃ card ∈ cards, card.2.joinRouter = true
  groupIds : ∀ id ∈ account.groupIds, id = groupId

variable {libs apiKey} {cfg : RouterConfig} {groupId : ℤ}

/-- The groups of an account that is in no other group. -/
theorem desiredGroups_of_managed {current : List ℤ} (h : ∀ id ∈ current, id = groupId)
    (joined : Bool) : desiredGroups groupId joined current = if joined then [groupId] else [] := by
  have hothers : (current.filter (0 < ·)).filter (· ≠ groupId) = [] := by
    rw [List.filter_eq_nil_iff]
    intro id hid
    simpa using h id (List.mem_filter.mp hid).1
  rw [desiredGroups, hothers]
  cases joined
  · rfl
  · rfl

/-- A created account holds its first card. -/
theorem filedUnder_createAccount (all : List Account) (name : String) (card : PlannedCard) :
    FiledUnder libs groupId [card]
      (createAccount all name (channelBody libs cfg groupId card.1 card.2 none)) where
  apikey := rfl
  active := rfl
  schedulable := rfl
  mapping := by
    refine ⟨channelMapping libs card.1 card.2, rfl, ordered_channelMapping libs card, fun id => ?_⟩
    rw [get_channelMapping]
    rfl
  groups := by
    show groupId ∈ desiredGroups groupId card.2.joinRouter [] ↔ _
    rw [desiredGroups_of_managed (by simp)]
    cases hj : card.2.joinRouter <;> simp [hj]
  groupIds := by
    show ∀ id ∈ desiredGroups groupId card.2.joinRouter [], id = groupId
    rw [desiredGroups_of_managed (by simp)]
    cases card.2.joinRouter <;> simp

/-- An active account needs no recovery. -/
theorem recover_of_active {account : Account} (ha : account.status = "active")
    (hs : account.schedulable = true) : account.recover = account := by
  rw [Account.recover, if_neg (by simp [ha, hs])]

/-- An update adds a card. -/
theorem FiledUnder.update {cards : List PlannedCard} {account : Account}
    (h : FiledUnder libs groupId cards account) (card : PlannedCard) :
    FiledUnder libs groupId (cards ++ [card])
      (account.update (channelBody libs cfg groupId card.1 card.2 (some account))).recover := by
  have hids : (channelBody libs cfg groupId card.1 card.2 (some account)).groupIds
      = if card.2.joinRouter then [groupId] else [] := desiredGroups_of_managed h.groupIds _
  have hactive : (account.update (channelBody libs cfg groupId card.1 card.2 (some account))).recover
      = account.update (channelBody libs cfg groupId card.1 card.2 (some account)) :=
    recover_of_active h.active h.schedulable
  rw [hactive]
  refine ⟨h.apikey, h.active, h.schedulable, ?_, ?_, ?_⟩
  · obtain ⟨m, hm, hord, hget⟩ := h.mapping
    refine ⟨m.insertAll (channelMapping libs card.1 card.2), ?_, OrdMap.ordered_insertAll hord,
      fun id => ?_⟩
    · show mergeMapping account.modelMapping (some (channelMapping libs card.1 card.2)) = _
      rw [hm]
      rfl
    · rw [OrdMap.get_insertAll (ordered_channelMapping libs card), get_channelMapping, hget,
        upstreamOf_append]
      by_cases hid : id ∈ channelIds card
      · rw [if_pos hid, if_pos hid]
        rfl
      · rw [if_neg hid, if_neg hid]
        rfl
  · show groupId ∈ (if _ ≠ [] then _ else account.groups) ↔ _
    rw [hids]
    cases hj : card.2.joinRouter
    -- a card that does not join names no group, and the host keeps the old ones
    · simpa [hj] using h.groups
    · simp [hj]
  · show ∀ id ∈ (channelBody libs cfg groupId card.1 card.2 (some account)).groupIds, id = groupId
    rw [hids]
    cases card.2.joinRouter <;> simp

/-! ## The run of the sync -/

/-- The accounts with a name. -/
def named (name : String) (accounts : List Account) : List Account :=
  accounts.filter (·.name = name)

theorem named_writeAccount_ne {name n : String} (h : n ≠ name)
    (body : Option Account → AccountBody) (all accounts : List Account) :
    named n (writeAccount name body all accounts) = named n accounts := by
  induction accounts with
  | nil => simp [writeAccount, named, createAccount, Ne.symm h]
  | cons account rest ih =>
    rw [writeAccount]
    split
    · rename_i hname
      have hne : ¬ account.name = n := fun h' => h (h'.symm.trans hname)
      have hne' : ¬ ((account.update (body (some account))).recover).name = n := by
        have hkeep : ((account.update (body (some account))).recover).name = account.name := by
          rw [Account.recover]
          split <;> rfl
        rw [hkeep]
        exact hne
      rw [named, named, List.filter_cons_of_neg (by simpa using hne'),
        List.filter_cons_of_neg (by simpa using hne)]
    · by_cases hn : account.name = n
      · rw [named, named, List.filter_cons_of_pos (by simpa using hn),
          List.filter_cons_of_pos (by simpa using hn)]
        exact congrArg _ ih
      · rw [named, named, List.filter_cons_of_neg (by simpa using hn),
          List.filter_cons_of_neg (by simpa using hn)]
        exact ih

theorem named_writeAccount_nil {name : String} {accounts : List Account}
    (h : named name accounts = []) (body : Option Account → AccountBody) (all : List Account) :
    named name (writeAccount name body all accounts) = [createAccount all name (body none)] := by
  induction accounts with
  | nil => simp [writeAccount, named, createAccount]
  | cons account rest ih =>
    have hne : ¬ account.name = name := by
      intro heq
      rw [named, List.filter_cons_of_pos (by simpa using heq)] at h
      cases h
    rw [named, List.filter_cons_of_neg (by simpa using hne)] at h
    rw [writeAccount, if_neg hne, named, List.filter_cons_of_neg (by simpa using hne)]
    exact ih h

theorem named_writeAccount_one {name : String} {accounts : List Account} {account : Account}
    (h : named name accounts = [account]) (body : Option Account → AccountBody) (all : List Account) :
    named name (writeAccount name body all accounts)
      = [(account.update (body (some account))).recover] := by
  induction accounts with
  | nil => cases h
  | cons first rest ih =>
    by_cases hname : first.name = name
    · rw [named, List.filter_cons_of_pos (by simpa using hname), List.cons.injEq] at h
      obtain ⟨rfl, hrest⟩ := h
      have hkeep : ((first.update (body (some first))).recover).name = name := by
        rw [Account.recover]
        split <;> exact hname
      rw [writeAccount, if_pos hname, named, List.filter_cons_of_pos (by simpa using hkeep), hrest]
    · rw [named, List.filter_cons_of_neg (by simpa using hname)] at h
      rw [writeAccount, if_neg hname, named, List.filter_cons_of_neg (by simpa using hname)]
      exact ih h

variable (libs apiKey groupId) in
/-- The invariant of the loop: a name that was not taken before has one account
with its cards once a card is filed under it. -/
structure Filed (before : List Account) (done : List PlannedCard) (accounts : List Account)
    (names : List String) : Prop where
  names_iff : ∀ n, n ∈ names ↔ filedCards libs apiKey done n ≠ []
  untouched : ∀ n, filedCards libs apiKey done n = [] → named n accounts = named n before
  written : ∀ n, named n before = [] → filedCards libs apiKey done n ≠ [] →
    ∃ account, named n accounts = [account]
      ∧ FiledUnder libs groupId (filedCards libs apiKey done n) account

theorem filed_nil (before : List Account) : Filed libs apiKey groupId before [] before [] where
  names_iff n := by simp [filedCards]
  untouched _ _ := rfl
  written n _ h := by simp [filedCards] at h

/-- A card that is skipped changes nothing. -/
theorem Filed.skip {before accounts : List Account} {done : List PlannedCard} {names : List String}
    (h : Filed libs apiKey groupId before done accounts names) {card : PlannedCard}
    (hskip : card.1.source = "oauth" ∨ (apiKey card.1).isNone) :
    Filed libs apiKey groupId before (done ++ [card]) accounts names := by
  have hcards : ∀ n, filedCards libs apiKey (done ++ [card]) n = filedCards libs apiKey done n := by
    intro n
    rw [filedCards, List.filter_append, List.filter_cons_of_neg, List.filter_nil, List.append_nil]
    · rfl
    · rcases hskip with hskip | hskip
      · simp [hskip]
      · simp [Option.isNone_iff_eq_none.mp hskip]
  refine ⟨fun n => ?_, fun n hn => ?_, fun n hnew hn => ?_⟩
  · rw [hcards]
    exact h.names_iff n
  · exact h.untouched n (hcards n ▸ hn)
  · rw [hcards] at hn ⊢
    exact h.written n hnew hn

/-- A card that is written joins the cards of its name. -/
theorem Filed.write {before accounts : List Account} {done : List PlannedCard} {names : List String}
    (h : Filed libs apiKey groupId before done accounts names) {card : PlannedCard}
    (hsource : card.1.source ≠ "oauth") (hkey : (apiKey card.1).isSome) :
    Filed libs apiKey groupId before (done ++ [card])
      (writeAccount (apiAccountName libs card.1) (channelBody libs cfg groupId card.1 card.2)
        accounts accounts)
      (apiAccountName libs card.1 :: names) := by
  have hcards : ∀ n, filedCards libs apiKey (done ++ [card]) n = filedCards libs apiKey done n
      ++ if apiAccountName libs card.1 = n then [card] else [] := by
    intro n
    rw [filedCards, List.filter_append, ← filedCards]
    by_cases hn : apiAccountName libs card.1 = n
    · rw [if_pos hn, List.filter_cons_of_pos (by simp [hsource, hkey, hn]), List.filter_nil]
    · rw [if_neg hn, List.filter_cons_of_neg (by simp [hn]), List.filter_nil]
  refine ⟨fun n => ?_, fun n hn => ?_, fun n hnew hn => ?_⟩
  · rw [hcards, List.mem_cons, h.names_iff]
    by_cases hn : apiAccountName libs card.1 = n
    · simp [hn]
    · simp [hn, Ne.symm hn]
  · have hne : apiAccountName libs card.1 ≠ n := by
      rintro rfl
      rw [hcards, if_pos rfl] at hn
      simp at hn
    rw [hcards, if_neg hne, List.append_nil] at hn
    rw [named_writeAccount_ne (Ne.symm hne)]
    exact h.untouched n hn
  · by_cases hname : apiAccountName libs card.1 = n
    · subst hname
      rw [hcards, if_pos rfl]
      by_cases hfirst : filedCards libs apiKey done (apiAccountName libs card.1) = []
      · rw [hfirst]
        have hnone : named (apiAccountName libs card.1) accounts = [] :=
          (h.untouched _ hfirst).trans hnew
        exact ⟨_, named_writeAccount_nil hnone _ _, filedUnder_createAccount _ _ card⟩
      · obtain ⟨account, hone, hfiled⟩ := h.written _ hnew hfirst
        exact ⟨_, named_writeAccount_one hone _ _, hfiled.update card⟩
    · rw [hcards, if_neg hname, List.append_nil] at hn ⊢
      rw [named_writeAccount_ne (Ne.symm hname)]
      exact h.written n hnew hn

/-- **The accounts after the sync** hold the cards filed under their names. -/
theorem filed_syncApiChannels {before : List Account} {cards done : List PlannedCard}
    {accounts accounts' : List Account} {names names' : List String}
    (h : Filed libs apiKey groupId before done accounts names)
    (hsync : syncApiChannels libs apiKey cfg groupId cards accounts names = .ok (accounts', names')) :
    Filed libs apiKey groupId before (done ++ cards) accounts' names' := by
  induction cards generalizing done accounts names with
  | nil =>
    rw [syncApiChannels, Except.ok.injEq, Prod.mk.injEq] at hsync
    obtain ⟨rfl, rfl⟩ := hsync
    rw [List.append_nil]
    exact h
  | cons card rest ih =>
    obtain ⟨model, route⟩ := card
    rw [← List.singleton_append, ← List.append_assoc]
    rw [syncApiChannels] at hsync
    split at hsync
    · rename_i hskip
      exact ih (h.skip (by simpa using hskip)) hsync
    rename_i hwrite
    rw [Bool.or_eq_true, not_or] at hwrite
    split at hsync
    · cases hsync
    refine ih (h.write ?_ ?_) hsync
    · simpa using hwrite.1
    · simpa [Option.isSome_iff_ne_none] using hwrite.2

end

/-! ## Deployments -/

/-- A deployment of a configuration up to the publishing loop: the plan, the
accounts that `sync_api_channels` leaves, and the composite routes with the ids
they have in the database. -/
structure Deployment (libs : Libs) (apiKey : ModelConfig → Option String) (cfg : RouterConfig) where
  groupId : ℤ
  plan : List ModelRoute
  before : List Account
  accounts : List Account
  names : List String
  platforms : List (ℤ × String)
  isolated : List ℤ
  rows : List RouteRow
  plan_eq : buildRoutePlan libs cfg = .ok plan
  sync_eq : syncApiChannels libs apiKey cfg groupId (cfg.models.zip plan) before []
    = .ok (accounts, names)
  rows_eq : rows.map RouteRow.route = compositeRoutes cfg plan platforms isolated

/-- A deployment that finds none of its accounts already there: what an account
holds is what the cards were written with. -/
structure FirstDeployment (libs : Libs) (apiKey : ModelConfig → Option String) (cfg : RouterConfig)
    extends Deployment libs apiKey cfg where
  names_new : ∀ n ∈ names, named n before = []

/-- An id and a route have a last path segment in common. -/
def SharesSegment (id : String) (route : CompositeRoute) : Prop :=
  sameRouteModel id route.publicModel = true ∨ sameRouteModel id route.upstreamModel = true

instance (id : String) (route : CompositeRoute) : Decidable (SharesSegment id route) :=
  inferInstanceAs (Decidable (_ ∨ _))

namespace Deployment

variable {libs : Libs} {apiKey : ModelConfig → Option String} {cfg : RouterConfig}

section

variable (d : Deployment libs apiKey cfg)

/-- The pairs the publishing loop runs over. -/
def pairs : List (RouteRow × Account) := joinRows d.groupId d.rows d.accounts

/-- The cards that are filed under an account name. -/
def cards (name : String) : List PlannedCard := filedCards libs apiKey (cfg.models.zip d.plan) name

/-- The plan gave a joined channel of the account this public id. -/
def Planned (name : String) (route : CompositeRoute) : Prop :=
  ∃ card ∈ d.cards name, card.2.joinRouter = true
    ∧ card.2.catalogId = toAsciiLowercase route.publicModel

instance (name : String) (route : CompositeRoute) : Decidable (d.Planned name route) :=
  inferInstanceAs (Decidable (∃ card ∈ d.cards name, _))

/-- An API account becomes a target of a route, and its pool available, only
where the plan put one of its channels. -/
def PublishedAsPlanned : Prop :=
  ∀ credentials, ∀ pair ∈ d.pairs, pair.2.name ∈ d.names →
    (routeTarget (oauthRoutes d.pairs) credentials pair).isSome →
    pairPoolRouteId (oauthRoutes d.pairs) pair
      ∈ poolAvailable (oauthRoutes d.pairs) credentials d.pairs →
    d.Planned pair.2.name pair.1.route

/-- Segments agree with the plan.  Where the cards filed under one name include a
joined one, each of their ids, and what the last card with the id sends it
upstream as, shares a last path segment only with routes the plan gave them. -/
def SegmentsAgree : Prop :=
  ∀ name, (∃ card ∈ d.cards name, card.2.joinRouter = true) →
    ∀ route ∈ compositeRoutes cfg d.plan d.platforms d.isolated,
      ∀ id ∈ (d.cards name).flatMap channelIds, ∀ u ∈ upstreamOf libs (d.cards name) id,
        SharesSegment id route ∨ SharesSegment u route → d.Planned name route

end

end Deployment

namespace FirstDeployment

variable {libs : Libs} {apiKey : ModelConfig → Option String} {cfg : RouterConfig}
  {d : FirstDeployment libs apiKey cfg}

/-- The accounts hold the cards filed under their names. -/
theorem filed (d : FirstDeployment libs apiKey cfg) : Filed libs apiKey d.groupId d.before
    (cfg.models.zip d.plan) d.accounts d.names :=
  filed_syncApiChannels (filed_nil d.before) d.sync_eq

/-- The account of a name holds its cards. -/
theorem filedUnder_of_mem {account : Account} (h : account ∈ d.accounts)
    (hname : account.name ∈ d.names) :
    FiledUnder libs d.groupId (d.cards account.name) account := by
  obtain ⟨a, hone, hfiled⟩ :=
    d.filed.written _ (d.names_new _ hname) ((d.filed.names_iff _).mp hname)
  have hmem : account ∈ named account.name d.accounts := List.mem_filter.mpr ⟨h, by simp⟩
  rw [hone, List.mem_singleton] at hmem
  rw [hmem] at hfiled ⊢
  exact hfiled

/-- A name with a card has an account. -/
theorem exists_account {name : String} {card : PlannedCard} (h : card ∈ d.cards name) :
    ∃ account ∈ d.accounts, account.name = name ∧ name ∈ d.names := by
  have hne : d.cards name ≠ [] := List.ne_nil_of_mem h
  have hname : name ∈ d.names := (d.filed.names_iff name).mpr hne
  obtain ⟨account, hone, -⟩ := d.filed.written name (d.names_new name hname) hne
  have hmem : account ∈ named name d.accounts := hone ▸ List.mem_singleton_self _
  obtain ⟨hmem, heq⟩ := List.mem_filter.mp hmem
  exact ⟨account, hmem, by simpa using heq, hname⟩

/-- An id with an upstream is an id of one of the cards. -/
theorem mem_channelIds_of_upstreamOf {cards : List PlannedCard} {id u : String}
    (h : upstreamOf libs cards id = some u) : id ∈ cards.flatMap channelIds := by
  induction cards using List.reverseRecOn with
  | nil => cases h
  | append_singleton rest card ih =>
    rw [upstreamOf_append] at h
    rw [List.flatMap_append, List.mem_append]
    by_cases hid : id ∈ channelIds card
    · exact Or.inr (by simpa using hid)
    · rw [if_neg hid] at h
      exact Or.inl (ih h)

/-- An account matches a route through an id of its cards or what the id is sent
upstream as. -/
theorem matches_iff {cards : List PlannedCard} {account : Account} {groupId : ℤ}
    (h : FiledUnder libs groupId cards account) (route : CompositeRoute) :
    apiRouteModelMatches account.modelMapping route.publicModel route.upstreamModel = true
      ↔ ∃ id u, upstreamOf libs cards id = some u
        ∧ (SharesSegment id route ∨ SharesSegment u route) := by
  obtain ⟨m, hm, hord, hget⟩ := h.mapping
  rw [hm, apiRouteModelMatches, List.any_eq_true]
  constructor
  · rintro ⟨⟨id, u⟩, hmem, hshares⟩
    refine ⟨id, u, (hget id).symm.trans (OrdMap.get_of_mem hord hmem), ?_⟩
    simpa [SharesSegment, or_assoc] using hshares
  · rintro ⟨id, u, hu, hshares⟩
    refine ⟨(id, u), OrdMap.mem_of_get ((hget id).trans hu), ?_⟩
    simpa [SharesSegment, or_assoc] using hshares

/-- A target makes the pool of its pair available. -/
theorem mem_poolAvailable {oauthIds : List ℤ} {credentials : Credentials}
    {rows : List (RouteRow × Account)} {pair : RouteRow × Account} (hpair : pair ∈ rows)
    (h : (routeTarget oauthIds credentials pair).isSome) :
    pairPoolRouteId oauthIds pair ∈ poolAvailable oauthIds credentials rows := by
  refine List.mem_map_of_mem (List.mem_filter.mpr ⟨hpair, ?_⟩)
  rw [routeTarget] at h
  split at h
  · rename_i hserves
    exact (Bool.and_eq_true _ _ ▸ hserves).2
  · simp at h

/-- A managed account becomes a target when its mapping matches and its secret is
there. -/
theorem isSome_routeTarget_iff {cards : List PlannedCard} {groupId : ℤ} {oauthIds : List ℤ}
    {credentials : Credentials} {pair : RouteRow × Account}
    (h : FiledUnder libs groupId cards pair.2) :
    (routeTarget oauthIds credentials pair).isSome
      ↔ apiRouteModelMatches pair.2.modelMapping pair.1.route.publicModel
          pair.1.route.upstreamModel = true ∧ (credentials.secret pair.2.id).isSome := by
  have hno : ¬ pair.2.accountType = .oauth := by rw [h.apikey]; decide
  have heligible : accountIsCliEligible pair.2 = true := by
    rw [accountIsCliEligible, h.active, h.schedulable]
    decide
  rw [routeTarget, serves, heligible, if_neg hno]
  cases hsecret : credentials.secret pair.2.id <;> simp [hno]

/-- **Publication follows the plan** exactly when the segments agree with it. -/
theorem publishedAsPlanned_iff (d : FirstDeployment libs apiKey cfg) :
    d.PublishedAsPlanned ↔ d.SegmentsAgree := by
  constructor
  · rintro h name ⟨card, hcard, hjoin⟩ route hroute id - u hu hshares
    obtain ⟨account, haccount, rfl, hname⟩ := exists_account hcard
    have hfiled := filedUnder_of_mem haccount hname
    rw [← d.rows_eq] at hroute
    obtain ⟨row, hrow, rfl⟩ := List.mem_map.mp hroute
    -- publish with every secret at hand
    have hpair : (row, account) ∈ d.pairs :=
      mem_joinRows.mpr ⟨hrow, haccount, hfiled.groups.mpr ⟨card, hcard, hjoin⟩⟩
    have htarget : (routeTarget (oauthRoutes d.pairs) ⟨fun _ => some "", fun _ => true⟩
        (row, account)).isSome :=
      (isSome_routeTarget_iff hfiled).mpr ⟨(matches_iff hfiled _).mpr ⟨id, u, hu, hshares⟩, rfl⟩
    exact h _ _ hpair hname htarget (mem_poolAvailable hpair htarget)
  · intro h credentials pair hpair hname htarget _
    obtain ⟨hrow, haccount, hgroup⟩ := mem_joinRows.mp hpair
    have hfiled := filedUnder_of_mem haccount hname
    obtain ⟨id, u, hu, hshares⟩ :=
      (matches_iff hfiled _).mp ((isSome_routeTarget_iff hfiled).mp htarget).1
    refine h _ (hfiled.groups.mp hgroup) _ ?_ id (mem_channelIds_of_upstreamOf hu) u hu hshares
    rw [← d.rows_eq]
    exact List.mem_map_of_mem hrow

/-! ## A subscription-only model -/

/-- The account's card. -/
def subscriptionCard : ModelConfig where
  model := "gpt-5.6-sol"
  source := "oauth"
  oauthAccountId := 7
  oauthPlatform := "openai"

/-- A relay channel of the same model. -/
def relayCard : ModelConfig where
  model := "gpt-5.6-sol"
  baseUrl := "https://relay.example/v1"
  credentialName := "relaykey"

/-- The model may only be served by the subscription. -/
def subscriptionOnly : RouterConfig where
  modelRoutePolicies := [("openai:gpt-5.6-sol", "subscription_only")]
  models := [subscriptionCard, relayCard]

/-- The libraries with the two digests the cards need. -/
def relayLibs : Libs :=
  { plainLibs with
    sha256 := fun seed =>
      ([("gpt-5.6-sol\nhttps://relay.example/v1\nrelaykey",
          "78373f27dfd88ea586eaab5935b7d0ffffcfb240241e1ac4c50b7a099bd7ed50"),
        ("relaykey\nhttps://relay.example/v1",
          "7d9fc8902ec595ba340790750924861a9326e755f59005135aada06f44192932")].lookup
        seed).getD "" }

/-- Every card with a credential has a key. -/
def relayKey (model : ModelConfig) : Option String :=
  if model.credentialName = "" then none else some "sk-relay"

/-- The plan: the channel's id is split off, but it is still requested by the
model's id. -/
def relayPlan : List ModelRoute :=
  [{ index := 0
     model := subscriptionCard
     source := "oauth"
     canonicalModelId := "gpt-5.6-sol"
     identityKey := "openai:gpt-5.6-sol"
     identityDisplayCandidate := "ChatGPT-5.6-Sol"
     publicModelId := "gpt-5.6-sol"
     requestModelIds := ["gpt-5.6-sol"]
     includeInCatalog := true
     joinRouter := true
     isOauthFallback := false
     isMergedOauthRoute := false
     servedBy := .oauth },
   { index := 1
     model := relayCard
     source := "apikey"
     canonicalModelId := "gpt-5.6-sol"
     identityKey := "openai:gpt-5.6-sol"
     identityDisplayCandidate := "ChatGPT-5.6-Sol"
     publicModelId := "gpt-5-6-sol--api-78373f27dfd8"
     requestModelIds := ["gpt-5.6-sol"]
     includeInCatalog := true
     joinRouter := true
     isOauthFallback := false
     isMergedOauthRoute := false
     servedBy := .api }]

/-- The account of the channel. -/
def relayAccount : Account where
  id := 1
  name := "Codex-Router / gpt-5.6-sol / openai-7d9fc890"
  platform := "openai"
  accountType := .apikey
  priority := 10
  groups := [1]
  groupIds := [1]
  modelMapping := some [("gpt-5.6-sol", "gpt-5.6-sol")]
  baseUrl := "https://relay.example/v1"

/-- The published routes. -/
def relayRoutes : List RouteRow :=
  [⟨1, "gpt-5-6-sol--api-78373f27dfd8", "gpt-5.6-sol", "openai", 100⟩,
    ⟨2, "gpt-5.6-sol", "gpt-5.6-sol", "openai", 1⟩]

/-- The first deployment of the two cards. -/
def relayDeployment : FirstDeployment relayLibs relayKey subscriptionOnly where
  groupId := 1
  plan := relayPlan
  before := []
  accounts := [relayAccount]
  names := [relayAccount.name]
  platforms := [(7, "openai")]
  isolated := []
  rows := relayRoutes
  plan_eq := by decide +kernel
  sync_eq := by decide +kernel
  names_new := fun _ _ => rfl
  rows_eq := by decide +kernel

/-- The channel's own public id is split off, but its account is still mapped
from the model's id, and the loop publishes it under the account's model. -/
theorem not_publishedAsPlanned_of_subscription_only :
    ¬ ∀ (libs : Libs) (apiKey : ModelConfig → Option String) (cfg : RouterConfig)
        (d : FirstDeployment libs apiKey cfg), d.PublishedAsPlanned := by
  intro h
  have hbad : ∃ pair ∈ relayDeployment.pairs, pair.2.name ∈ relayDeployment.names
      ∧ (routeTarget (oauthRoutes relayDeployment.pairs) ⟨fun _ => some "sk-relay", fun _ => true⟩
          pair).isSome = true
      ∧ pair.1.route.publicModel = "gpt-5.6-sol"
      ∧ ¬ relayDeployment.Planned pair.2.name pair.1.route := by
    decide +kernel
  obtain ⟨pair, hpair, hname, htarget, -, hplanned⟩ := hbad
  exact hplanned (h _ _ _ relayDeployment _ pair hpair hname htarget
    (mem_poolAvailable hpair htarget))

end FirstDeployment

end CodexRouter
