/-
# Slots for all accounts of a provider

`replicate_oauth_slots_for_accounts` gives every selected account the models that the
others of its provider have.  The models are collected under the platforms of their slots,
while an account's provider comes from the list of the host or from its first slot: a slot
whose platform is not that of its account is collected elsewhere (`slotReplication_iff`).
-/
import CodexRouter.ModelIdentity
import CodexRouter.OAuthRanks

namespace CodexRouter

open Text

/-! ## Templates -/

/-- `SlotTemplate`. -/
structure SlotTemplate where
  model : String
  cardAlias : String
  baseUrl : String
  extra : String
  contextWindow : ℤ
  autoCompactPercent : ℤ
  platform : String
  deriving DecidableEq, Repr

/-- The template of a slot. -/
def SlotTemplate.of (model : ModelConfig) : SlotTemplate :=
  { model := model.model
    cardAlias := model.cardAlias
    baseUrl := model.baseUrl
    extra := model.extra
    contextWindow := model.contextWindow
    autoCompactPercent := model.autoCompactPercent
    platform := model.oauthPlatform }

/-- `selected_order`. -/
def selectedAccounts (cfg : RouterConfig) : List ℤ := (cfg.oauthAccountIds.getD []).filter (0 < ·)

/-- The account and the canonical model of a slot. -/
def slotKey (model : ModelConfig) : ℤ × String := (model.oauthAccountId, canonicalRouteModelId model.model)

/-- `present`: what the accounts have. -/
def presentSlots (cfg : RouterConfig) : List (ℤ × String) := (cfg.models.filter isOauthSlot).map slotKey

/-- The key of a template: the provider of the slot and its canonical model. -/
def templateKey (model : ModelConfig) : String × String :=
  (oauthPlatformKey model.oauthPlatform, canonicalRouteModelId model.model)

/-- The template of a slot of a selected account, under its key. -/
def templateEntry (cfg : RouterConfig) (model : ModelConfig) : Option ((String × String) × SlotTemplate) :=
  if isOauthSlot model && model.oauthAccountId ∈ selectedAccounts cfg then
    some (templateKey model, SlotTemplate.of model)
  else none

/-- `templates`: the first one of each key.  They are gone through in an order of their own. -/
def slotTemplates (cfg : RouterConfig) : List ((String × String) × SlotTemplate) :=
  collectNew Prod.fst (templateEntry cfg) [] cfg.models

/-- `account_platform`: what the host says, then what the slots say; the first one counts. -/
def accountPlatform (extraAccounts : List (ℤ × String)) (cfg : RouterConfig) : List (ℤ × String) :=
  (extraAccounts.filter fun account => 0 < account.1 && account.1 ∈ selectedAccounts cfg)
    ++ (cfg.models.filter isOauthSlot).map fun model => (model.oauthAccountId, model.oauthPlatform)

/-! ## Replication -/

/-- The slot that an account gets from a template. -/
def newSlot (id : ℤ) (platform : String) (template : SlotTemplate) : ModelConfig :=
  { model := template.model
    cardAlias := template.cardAlias
    baseUrl := if trim template.baseUrl = "" then "Router OAuth / " ++ platform else template.baseUrl
    extra := template.extra
    contextWindow := template.contextWindow
    autoCompactPercent := template.autoCompactPercent
    source := "oauth"
    oauthAccountId := id
    oauthPlatform := if platform = "" then template.platform else platform
    priority := 1 }

section

variable (order : List ((String × String) × SlotTemplate)) (extraAccounts : List (ℤ × String)) (cfg : RouterConfig)

/-- The slots that the loops over the accounts and the templates come to, under what they are. -/
def candidateSlots : List ((ℤ × String) × ModelConfig) :=
  (selectedAccounts cfg).flatMap fun id =>
    match (accountPlatform extraAccounts cfg).lookup id with
    | none => []
    | some platform =>
      (order.filter fun template => template.1.1 = oauthPlatformKey platform).map fun template =>
        ((id, template.1.2), newSlot id platform template.2)

/-- `additions`: the slots that no account has yet. -/
def additions : List ModelConfig :=
  (collectNew Prod.fst some (presentSlots cfg) (candidateSlots order extraAccounts cfg)).map Prod.snd

/-- `replicate_oauth_slots_for_accounts`, which goes through the templates in some order. -/
def replicateOauthSlotsForAccounts : RouterConfig :=
  if (selectedAccounts cfg).isEmpty then cfg
  else if (slotTemplates cfg).isEmpty then cfg
  else { cfg with models := cfg.models ++ additions order extraAccounts cfg }

/-- The provider of an account. -/
def providerOf (id : ℤ) : Option String := ((accountPlatform extraAccounts cfg).lookup id).map oauthPlatformKey

end

/-- The cards stay, the accounts of each provider have the same models afterwards, none of them
twice, and nothing is left to be added. -/
structure SlotReplication (extraAccounts : List (ℤ × String)) (cfg result : RouterConfig) : Prop where
  kept : cfg.models <+: result.models
  selectedOnly : ∀ m ∈ result.models.drop cfg.models.length,
    isOauthSlot m ∧ m.oauthAccountId ∈ selectedAccounts cfg
  once : ((result.models.drop cfg.models.length).map slotKey).Nodup
    ∧ ∀ m ∈ result.models.drop cfg.models.length, slotKey m ∉ presentSlots cfg
  closed : ∀ a ∈ selectedAccounts cfg, ∀ b ∈ selectedAccounts cfg, ∀ provider,
    providerOf extraAccounts cfg a = some provider → providerOf extraAccounts cfg b = some provider →
    ∀ canonical, (b, canonical) ∈ presentSlots result → (a, canonical) ∈ presentSlots result
  again : ∀ order, order.Perm (slotTemplates result) →
    replicateOauthSlotsForAccounts order extraAccounts result = result

/-- What an account of the provider has another one has as well, or some selected account has it
under the provider. -/
def CollectedUnderProvider (extraAccounts : List (ℤ × String)) (cfg : RouterConfig) : Prop :=
  ∀ a ∈ selectedAccounts cfg, ∀ b ∈ selectedAccounts cfg, ∀ provider,
    providerOf extraAccounts cfg a = some provider → providerOf extraAccounts cfg b = some provider →
    ∀ canonical, (b, canonical) ∈ presentSlots cfg → (a, canonical) ∈ presentSlots cfg
      ∨ ∃ m ∈ cfg.models, isOauthSlot m ∧ m.oauthAccountId ∈ selectedAccounts cfg
        ∧ templateKey m = (provider, canonical)

section

variable {order : List ((String × String) × SlotTemplate)} {extraAccounts : List (ℤ × String)} {cfg : RouterConfig}
  {m : ModelConfig} {key : String × String} {template : SlotTemplate} {id : ℤ} {platform : String}

theorem slotKey_eq_iff {canonical : String} :
    slotKey m = (id, canonical) ↔ m.oauthAccountId = id ∧ canonicalRouteModelId m.model = canonical := by
  rw [slotKey, Prod.mk.injEq]

theorem templateKey_eq_iff {provider canonical : String} : templateKey m = (provider, canonical)
    ↔ oauthPlatformKey m.oauthPlatform = provider ∧ canonicalRouteModelId m.model = canonical := by
  rw [templateKey, Prod.mk.injEq]

theorem templateKey_fst (m : ModelConfig) : (templateKey m).1 = oauthPlatformKey m.oauthPlatform := by
  rw [templateKey]

/-- A template is that of a slot of a selected account. -/
theorem exists_of_mem_slotTemplates (h : (key, template) ∈ slotTemplates cfg) : ∃ m ∈ cfg.models, isOauthSlot m
    ∧ m.oauthAccountId ∈ selectedAccounts cfg ∧ key = templateKey m ∧ template = SlotTemplate.of m := by
  obtain ⟨m, hm, hsome⟩ := mem_collectNew h
  unfold templateEntry at hsome
  split at hsome
  · rename_i hslot
    obtain ⟨hslot, hselected⟩ := Bool.and_eq_true_iff.mp hslot
    obtain ⟨rfl, rfl⟩ := Prod.ext_iff.mp (Option.some.inj hsome)
    exact ⟨m, hm, hslot, of_decide_eq_true hselected, rfl, rfl⟩
  · cases hsome

/-- The key of every such slot has a template. -/
theorem exists_mem_slotTemplates (hm : m ∈ cfg.models) (hslot : isOauthSlot m)
    (hselected : m.oauthAccountId ∈ selectedAccounts cfg) : ∃ template, (templateKey m, template) ∈ slotTemplates cfg := by
  have hsome : templateEntry cfg m = some (templateKey m, SlotTemplate.of m) :=
    if_pos (Bool.and_eq_true_iff.mpr ⟨hslot, decide_eq_true hselected⟩)
  have htaken : templateKey m ∈ [] ∨ ∃ entry ∈ slotTemplates cfg, entry.1 = templateKey m :=
    @exists_mem_collectNew _ _ _ _ Prod.fst (templateEntry cfg) [] cfg.models m (templateKey m, SlotTemplate.of m) hm
      hsome
  obtain ⟨⟨key, template⟩, hmem, rfl⟩ := htaken.resolve_left List.not_mem_nil
  exact ⟨template, hmem⟩

theorem mem_candidateSlots {candidate : (ℤ × String) × ModelConfig} : candidate ∈ candidateSlots order extraAccounts cfg
    ↔ ∃ id ∈ selectedAccounts cfg, ∃ platform, (accountPlatform extraAccounts cfg).lookup id = some platform
      ∧ ∃ key template, (key, template) ∈ order ∧ key.1 = oauthPlatformKey platform
        ∧ candidate = ((id, key.2), newSlot id platform template) := by
  unfold candidateSlots
  rw [List.mem_flatMap]
  refine exists_congr fun id => and_congr_right fun _ => ?_
  cases (accountPlatform extraAccounts cfg).lookup id with
  | none => simp
  | some platform =>
    simp only [List.mem_map, List.mem_filter, Option.some.injEq, exists_eq_left']
    constructor
    · rintro ⟨⟨key, template⟩, ⟨hmem, hkey⟩, rfl⟩
      exact ⟨key, template, hmem, of_decide_eq_true hkey, rfl⟩
    · rintro ⟨key, template, hmem, hkey, rfl⟩
      exact ⟨(key, template), ⟨hmem, decide_eq_true hkey⟩, rfl⟩

/-- A new slot is what it was entered under. -/
theorem slotKey_newSlot (horder : order.Perm (slotTemplates cfg)) (h : (key, template) ∈ order) :
    slotKey (newSlot id platform template) = (id, key.2) := by
  obtain ⟨m, -, -, -, hkey, htemplate⟩ := exists_of_mem_slotTemplates (horder.subset h)
  rw [hkey, templateKey, htemplate, SlotTemplate.of, slotKey, newSlot]

theorem pos_of_mem_selected (h : id ∈ selectedAccounts cfg) : 0 < id := by
  unfold selectedAccounts at h
  simpa using (List.mem_filter.mp h).2

theorem isOauthSlot_newSlot (h : id ∈ selectedAccounts cfg) : isOauthSlot (newSlot id platform template) = true := by
  unfold isOauthSlot newSlot
  simpa using pos_of_mem_selected h

/-- A new slot has the key of its template. -/
theorem templateKey_newSlot (horder : order.Perm (slotTemplates cfg)) (h : (key, template) ∈ order)
    (hkey : key.1 = oauthPlatformKey platform) : templateKey (newSlot id platform template) = key := by
  obtain ⟨m, -, -, -, rfl, rfl⟩ := exists_of_mem_slotTemplates (horder.subset h)
  unfold templateKey newSlot at *
  dsimp only at hkey ⊢
  split
  · rfl
  · rw [← hkey]
    rfl

/-! ## Additions -/

/-- What is added: a slot of a selected account, from a template of its provider, that no one has. -/
theorem exists_of_mem_additions (horder : order.Perm (slotTemplates cfg)) (h : m ∈ additions order extraAccounts cfg) :
    isOauthSlot m ∧ m.oauthAccountId ∈ selectedAccounts cfg ∧ slotKey m ∉ presentSlots cfg
      ∧ ∃ platform, (accountPlatform extraAccounts cfg).lookup m.oauthAccountId = some platform
        ∧ ∃ template, (templateKey m, template) ∈ order ∧ (templateKey m).1 = oauthPlatformKey platform := by
  obtain ⟨candidate, hcandidate, rfl⟩ := List.mem_map.mp h
  have hnew := nodup_collectNew.2 candidate hcandidate
  obtain ⟨other, hother, hsome⟩ := mem_collectNew hcandidate
  obtain rfl := Option.some.inj hsome
  obtain ⟨id, hid, platform, hlookup, key, template, hmem, hkey, rfl⟩ := mem_candidateSlots.mp hother
  refine ⟨isOauthSlot_newSlot hid, hid, ?_, platform, hlookup, template, ?_, ?_⟩
  · rw [slotKey_newSlot horder hmem]
    exact hnew
  · rw [templateKey_newSlot horder hmem hkey]
    exact hmem
  · rw [templateKey_newSlot horder hmem hkey]
    exact hkey

/-- What is added are slots. -/
theorem filter_additions (horder : order.Perm (slotTemplates cfg)) :
    (additions order extraAccounts cfg).filter isOauthSlot = additions order extraAccounts cfg :=
  List.filter_eq_self.mpr fun _ hm => (exists_of_mem_additions horder hm).1

theorem map_slotKey_additions (horder : order.Perm (slotTemplates cfg)) :
    (additions order extraAccounts cfg).map slotKey
      = (collectNew Prod.fst some (presentSlots cfg) (candidateSlots order extraAccounts cfg)).map Prod.fst := by
  unfold additions
  rw [List.map_map]
  apply List.map_congr_left
  intro candidate hcandidate
  obtain ⟨other, hother, hsome⟩ := mem_collectNew hcandidate
  obtain rfl := Option.some.inj hsome
  obtain ⟨id, -, platform, -, key, template, hmem, -, rfl⟩ := mem_candidateSlots.mp hother
  exact slotKey_newSlot horder hmem

theorem nodup_additions (horder : order.Perm (slotTemplates cfg)) :
    ((additions order extraAccounts cfg).map slotKey).Nodup := by
  rw [map_slotKey_additions horder]
  exact nodup_collectNew.1

/-- Every candidate is there in the end. -/
theorem mem_additions_of_candidate (horder : order.Perm (slotTemplates cfg)) {candidate : (ℤ × String) × ModelConfig}
    (h : candidate ∈ candidateSlots order extraAccounts cfg) :
    candidate.1 ∈ presentSlots cfg ∨ candidate.1 ∈ (additions order extraAccounts cfg).map slotKey := by
  have htaken : candidate.1 ∈ presentSlots cfg
      ∨ ∃ other ∈ collectNew Prod.fst some (presentSlots cfg) (candidateSlots order extraAccounts cfg),
        other.1 = candidate.1 :=
    @exists_mem_collectNew _ _ _ _ Prod.fst some (presentSlots cfg) _ candidate candidate h rfl
  rw [map_slotKey_additions horder]
  rcases htaken with hold | ⟨other, hother, hkey⟩
  · exact .inl hold
  · exact .inr (hkey ▸ List.mem_map_of_mem hother)

/-- Where nothing is selected, or no template is found, there is nothing to add. -/
theorem replicate_eq (horder : order.Perm (slotTemplates cfg)) :
    replicateOauthSlotsForAccounts order extraAccounts cfg
      = { cfg with models := cfg.models ++ additions order extraAccounts cfg } := by
  have hnone : candidateSlots order extraAccounts cfg = [] →
      cfg = { cfg with models := cfg.models ++ additions order extraAccounts cfg } := by
    intro hnil
    have hadditions : additions order extraAccounts cfg = [] := by
      unfold additions
      rw [hnil]
      rfl
    rw [hadditions, List.append_nil]
  unfold replicateOauthSlotsForAccounts
  split
  · rename_i hselected
    apply hnone
    rw [List.eq_nil_iff_forall_not_mem]
    intro candidate hcandidate
    obtain ⟨id, hid, -⟩ := mem_candidateSlots.mp hcandidate
    rw [List.isEmpty_iff.mp hselected] at hid
    cases hid
  split
  · rename_i htemplates
    apply hnone
    rw [List.eq_nil_iff_forall_not_mem]
    intro candidate hcandidate
    obtain ⟨id, -, platform, -, key, template, hmem, -⟩ := mem_candidateSlots.mp hcandidate
    have hmem := horder.subset hmem
    rw [List.isEmpty_iff.mp htemplates] at hmem
    cases hmem
  · rfl

/-- What the accounts have afterwards. -/
theorem presentSlots_replicate (horder : order.Perm (slotTemplates cfg)) :
    presentSlots (replicateOauthSlotsForAccounts order extraAccounts cfg)
      = presentSlots cfg ++ (additions order extraAccounts cfg).map slotKey := by
  rw [replicate_eq horder]
  unfold presentSlots
  rw [List.filter_append, List.map_append, filter_additions horder]

/-- An account has what it had and every template of its provider. -/
theorem mem_presentSlots_replicate (horder : order.Perm (slotTemplates cfg)) (hid : id ∈ selectedAccounts cfg)
    {provider canonical : String} (hprovider : providerOf extraAccounts cfg id = some provider) :
    (id, canonical) ∈ presentSlots (replicateOauthSlotsForAccounts order extraAccounts cfg)
      ↔ (id, canonical) ∈ presentSlots cfg ∨ ∃ template, ((provider, canonical), template) ∈ slotTemplates cfg := by
  obtain ⟨platform, hlookup, hplatform⟩ := Option.map_eq_some_iff.mp hprovider
  rw [presentSlots_replicate horder, List.mem_append]
  constructor
  · rintro (h | h)
    · exact .inl h
    -- the account that the slot was added for has the platform it was looked up with
    · obtain ⟨m, hm, hkey⟩ := List.mem_map.mp h
      obtain ⟨-, -, -, platform', hlookup', template, hmem, hplatform'⟩ := exists_of_mem_additions horder hm
      obtain ⟨rfl, hcanonical⟩ := slotKey_eq_iff.mp hkey
      obtain rfl : platform' = platform := Option.some.inj (hlookup'.symm.trans hlookup)
      rw [templateKey_fst, hplatform] at hplatform'
      rw [templateKey_eq_iff.mpr ⟨hplatform', hcanonical⟩] at hmem
      exact .inr ⟨template, horder.subset hmem⟩
  · rintro (h | ⟨template, h⟩)
    · exact .inl h
    · have hcandidate : ((id, canonical), newSlot id platform template) ∈ candidateSlots order extraAccounts cfg :=
        mem_candidateSlots.mpr ⟨id, hid, platform, hlookup, (provider, canonical), template, horder.symm.subset h,
          hplatform.symm, rfl⟩
      exact mem_additions_of_candidate horder hcandidate

/-- The accounts keep their platforms. -/
theorem lookup_platforms_replicate (horder : order.Perm (slotTemplates cfg)) (id : ℤ) :
    (accountPlatform extraAccounts (replicateOauthSlotsForAccounts order extraAccounts cfg)).lookup id
      = (accountPlatform extraAccounts cfg).lookup id := by
  have hplatforms : accountPlatform extraAccounts (replicateOauthSlotsForAccounts order extraAccounts cfg)
      = accountPlatform extraAccounts cfg
        ++ (additions order extraAccounts cfg).map fun model => (model.oauthAccountId, model.oauthPlatform) := by
    rw [replicate_eq horder]
    unfold accountPlatform
    rw [List.filter_append, List.map_append, filter_additions horder, List.append_assoc]
    rfl
  rw [hplatforms, List.lookup_append]
  cases hlookup : (accountPlatform extraAccounts cfg).lookup id with
  | some platform => rfl
  | none =>
    rw [Option.none_or, List.lookup_eq_none_iff]
    intro entry hentry
    obtain ⟨m, hm, rfl⟩ := List.mem_map.mp hentry
    obtain ⟨-, -, -, platform, hsome, -⟩ := exists_of_mem_additions horder hm
    refine bne_iff_ne.mpr fun heq => ?_
    rw [show m.oauthAccountId = id from heq.symm, hlookup] at hsome
    cases hsome

/-! ## Closure -/

theorem selectedAccounts_replicate (horder : order.Perm (slotTemplates cfg)) :
    selectedAccounts (replicateOauthSlotsForAccounts order extraAccounts cfg) = selectedAccounts cfg := by
  rw [replicate_eq horder]
  rfl

/-- A template of the result is one of the configuration, perhaps under another slot. -/
theorem exists_template_of_replicate (horder : order.Perm (slotTemplates cfg))
    (h : (key, template) ∈ slotTemplates (replicateOauthSlotsForAccounts order extraAccounts cfg)) :
    ∃ template, (key, template) ∈ slotTemplates cfg := by
  obtain ⟨m, hm, hslot, hselected, rfl, -⟩ := exists_of_mem_slotTemplates h
  rw [selectedAccounts_replicate horder] at hselected
  rw [replicate_eq horder] at hm
  rcases List.mem_append.mp hm with hm | hm
  · exact exists_mem_slotTemplates hm hslot hselected
  · obtain ⟨-, -, -, platform, -, template, hmem, -⟩ := exists_of_mem_additions horder hm
    exact ⟨template, horder.subset hmem⟩

/-- The second time there is nothing to add. -/
theorem replicate_again (horder : order.Perm (slotTemplates cfg)) {order' : List ((String × String) × SlotTemplate)}
    (horder' : order'.Perm (slotTemplates (replicateOauthSlotsForAccounts order extraAccounts cfg))) :
    replicateOauthSlotsForAccounts order' extraAccounts (replicateOauthSlotsForAccounts order extraAccounts cfg)
      = replicateOauthSlotsForAccounts order extraAccounts cfg := by
  have hadditions : additions order' extraAccounts (replicateOauthSlotsForAccounts order extraAccounts cfg) = [] := by
    rw [List.eq_nil_iff_forall_not_mem]
    intro m hm
    obtain ⟨-, hid, hnew, platform, hlookup, template, hmem, hplatform⟩ := exists_of_mem_additions horder' hm
    rw [selectedAccounts_replicate horder] at hid
    rw [lookup_platforms_replicate horder] at hlookup
    obtain ⟨template, hold⟩ := exists_template_of_replicate horder (horder'.subset hmem)
    have hprovider : providerOf extraAccounts cfg m.oauthAccountId = some (oauthPlatformKey platform) := by
      unfold providerOf
      rw [hlookup, Option.map_some]
    rw [templateKey_fst] at hplatform
    rw [templateKey_eq_iff.mpr ⟨hplatform, rfl⟩] at hold
    refine hnew ?_
    rw [slotKey_eq_iff.mpr ⟨rfl, rfl⟩]
    exact (mem_presentSlots_replicate horder hid hprovider).mpr (.inr ⟨template, hold⟩)
  rw [replicate_eq horder', hadditions, List.append_nil]

/-- The templates of a provider are the models collected under it. -/
theorem exists_template_iff : (∃ template, (key, template) ∈ slotTemplates cfg)
    ↔ ∃ m ∈ cfg.models, isOauthSlot m ∧ m.oauthAccountId ∈ selectedAccounts cfg ∧ templateKey m = key := by
  constructor
  · rintro ⟨template, h⟩
    obtain ⟨m, hm, hslot, hselected, hkey, -⟩ := exists_of_mem_slotTemplates h
    exact ⟨m, hm, hslot, hselected, hkey.symm⟩
  · rintro ⟨m, hm, hslot, hselected, rfl⟩
    exact exists_mem_slotTemplates hm hslot hselected

/-- The accounts of each provider have the same models afterwards if and only if each model of
theirs is there already or is collected under the provider; the rest is true in any case. -/
theorem slotReplication_iff (horder : order.Perm (slotTemplates cfg)) :
    SlotReplication extraAccounts cfg (replicateOauthSlotsForAccounts order extraAccounts cfg)
      ↔ CollectedUnderProvider extraAccounts cfg := by
  constructor
  · intro h a ha b hb provider hprovider hprovider' canonical hcanonical
    have hthere := (mem_presentSlots_replicate horder hb hprovider').mpr (.inl hcanonical)
    have hclosed := h.closed a ha b hb provider hprovider hprovider' canonical hthere
    rwa [mem_presentSlots_replicate horder ha hprovider, exists_template_iff] at hclosed
  · intro h
    have hdrop : (replicateOauthSlotsForAccounts order extraAccounts cfg).models.drop cfg.models.length
        = additions order extraAccounts cfg := by
      rw [replicate_eq horder]
      exact List.drop_left
    refine ⟨?_, ?_, ?_, ?_, fun order' horder' => replicate_again horder horder'⟩
    · rw [replicate_eq horder]
      exact List.prefix_append _ _
    · rw [hdrop]
      intro m hm
      obtain ⟨hslot, hselected, -⟩ := exists_of_mem_additions horder hm
      exact ⟨hslot, hselected⟩
    · rw [hdrop]
      exact ⟨nodup_additions horder, fun m hm => (exists_of_mem_additions horder hm).2.2.1⟩
    · intro a ha b hb provider hprovider hprovider' canonical hcanonical
      rw [mem_presentSlots_replicate horder ha hprovider, exists_template_iff]
      rcases (mem_presentSlots_replicate horder hb hprovider').mp hcanonical with hold | hcollected
      · exact h a ha b hb provider hprovider hprovider' canonical hold
      · exact .inr (exists_template_iff.mp hcollected)

/-- Two accounts of which one has a slot under its platform. -/
def namedSlots : RouterConfig := { oauthAccountIds := some [42, 43], models := [grokSlot 42 1] }

theorem slotReplication_named :
    SlotReplication [(42, "grok"), (43, "grok")] namedSlots
        (replicateOauthSlotsForAccounts (slotTemplates namedSlots) [(42, "grok"), (43, "grok")] namedSlots)
      ↔ CollectedUnderProvider [(42, "grok"), (43, "grok")] namedSlots :=
  slotReplication_iff (List.Perm.refl _)

/-- The slot has no platform. -/
def unnamedSlots : RouterConfig :=
  { oauthAccountIds := some [42, 43], models := [{ grokSlot 42 1 with oauthPlatform := "" }] }

/-- Both accounts are known as accounts of one provider, but the second one gets nothing. -/
theorem not_slotReplication_unnamed :
    replicateOauthSlotsForAccounts (slotTemplates unnamedSlots) [(42, "grok"), (43, "grok")] unnamedSlots = unnamedSlots
      ∧ ¬ SlotReplication [(42, "grok"), (43, "grok")] unnamedSlots
        (replicateOauthSlotsForAccounts (slotTemplates unnamedSlots) [(42, "grok"), (43, "grok")] unnamedSlots) := by
  have hresult : replicateOauthSlotsForAccounts (slotTemplates unnamedSlots) [(42, "grok"), (43, "grok")] unnamedSlots
      = unnamedSlots := by decide +kernel
  refine ⟨hresult, fun h => ?_⟩
  rw [hresult] at h
  have hclosed := h.closed 43 (by decide +kernel) 42 (by decide +kernel) "grok" (by decide +kernel) (by decide +kernel)
    "grok-4.6" (by decide +kernel)
  exact absurd hclosed (by decide +kernel)

end

end CodexRouter
