/-
# The ranking of a configuration

What `assign_sequential_oauth_account_priorities` makes of a whole configuration, as long
as every account has slots of one provider: all slots of an account get the value of the
account in the group of its provider.
-/
import CodexRouter.OAuthRanks

namespace CodexRouter

open Text

/-! ## The groups of a configuration -/

/-- The entry has the best priority of the slots of its account, and the first of them. -/
structure IsEntryOf (slots : List (ModelConfig × ℕ)) (entry : OAuthEntry) : Prop where
  priority_le : ∀ slot ∈ slots, slot.1.oauthAccountId = entry.accountId → entry.priority ≤ max slot.1.priority 1
  priority_mem : ∃ slot ∈ slots, slot.1.oauthAccountId = entry.accountId ∧ entry.priority = max slot.1.priority 1
  index_le : ∀ slot ∈ slots, slot.1.oauthAccountId = entry.accountId → entry.index ≤ slot.2
  index_mem : ∃ slot ∈ slots, slot.1.oauthAccountId = entry.accountId ∧ entry.index = slot.2

section

variable {entries : List OAuthEntry} {entry : OAuthEntry} {slot : ModelConfig × ℕ} {slots : List (ModelConfig × ℕ)}
  {cfg : RouterConfig} {provider : String}

theorem mem_ids_enterSlot {id : ℤ} : id ∈ (enterSlot entries slot).map OAuthEntry.accountId
    ↔ id ∈ entries.map OAuthEntry.accountId ∨ id = slot.1.oauthAccountId := by
  induction entries with
  | nil => simp [enterSlot]
  | cons existing rest ih =>
    rw [enterSlot]
    split
    · rename_i hid
      simp only [List.map_cons, List.mem_cons, hid]
      tauto
    · simp only [List.map_cons, List.mem_cons, ih, or_assoc]

theorem nodup_ids_enterSlot (h : (entries.map OAuthEntry.accountId).Nodup) :
    ((enterSlot entries slot).map OAuthEntry.accountId).Nodup := by
  induction entries with
  | nil => exact List.nodup_singleton _
  | cons existing rest ih =>
    obtain ⟨hnew, hrest⟩ := List.nodup_cons.mp h
    rw [enterSlot]
    split
    · exact h
    · rename_i hid
      refine List.nodup_cons.mpr ⟨fun hmem => ?_, ih hrest⟩
      rcases mem_ids_enterSlot.mp hmem with hmem | hmem
      · exact hnew hmem
      · exact hid hmem

/-- What a slot makes of the entries: that of its account takes it up, the others stay. -/
theorem mem_enterSlot (hnodup : (entries.map OAuthEntry.accountId).Nodup) (h : entry ∈ enterSlot entries slot) :
    (entry ∈ entries ∧ entry.accountId ≠ slot.1.oauthAccountId)
      ∨ (∃ existing ∈ entries, existing.accountId = slot.1.oauthAccountId
        ∧ entry = ⟨existing.accountId, min existing.priority (max slot.1.priority 1), min existing.index slot.2⟩)
      ∨ (slot.1.oauthAccountId ∉ entries.map OAuthEntry.accountId
        ∧ entry = ⟨slot.1.oauthAccountId, max slot.1.priority 1, slot.2⟩) := by
  induction entries with
  | nil => exact .inr (.inr ⟨List.not_mem_nil, List.mem_singleton.mp h⟩)
  | cons existing rest ih =>
    obtain ⟨hnew, hrest⟩ := List.nodup_cons.mp hnodup
    rw [enterSlot] at h
    split at h
    · rename_i hid
      rcases List.mem_cons.mp h with rfl | h
      · exact .inr (.inl ⟨existing, List.mem_cons_self, hid, rfl⟩)
      · refine .inl ⟨List.mem_cons_of_mem _ h, fun heq => hnew ?_⟩
        rw [hid, ← heq]
        exact List.mem_map_of_mem h
    · rename_i hid
      rcases List.mem_cons.mp h with rfl | h
      · exact .inl ⟨List.mem_cons_self, hid⟩
      rcases ih hrest h with ⟨hmem, hne⟩ | ⟨old, hold, heq⟩ | ⟨hfresh, heq⟩
      · exact .inl ⟨List.mem_cons_of_mem _ hmem, hne⟩
      · exact .inr (.inl ⟨old, List.mem_cons_of_mem _ hold, heq⟩)
      · refine .inr (.inr ⟨fun hmem => ?_, heq⟩)
        rcases List.mem_cons.mp hmem with hmem | hmem
        · exact hid hmem.symm
        · exact hfresh hmem

section

variable {last : ModelConfig × ℕ}

/-- A slot of another account. -/
theorem IsEntryOf.other (h : IsEntryOf slots entry) (hne : entry.accountId ≠ last.1.oauthAccountId) :
    IsEntryOf (slots ++ [last]) entry := by
  obtain ⟨hle, ⟨s, hs, hs'⟩, hindex, ⟨t, ht, ht'⟩⟩ := h
  have hold : ∀ slot ∈ slots ++ [last], slot.1.oauthAccountId = entry.accountId → slot ∈ slots := by
    intro slot hslot heq
    rcases List.mem_append.mp hslot with hslot | hslot
    · exact hslot
    · obtain rfl := List.mem_singleton.mp hslot
      exact absurd heq.symm hne
  exact ⟨fun slot hslot heq => hle slot (hold slot hslot heq) heq, ⟨s, List.mem_append_left _ hs, hs'⟩,
    fun slot hslot heq => hindex slot (hold slot hslot heq) heq, ⟨t, List.mem_append_left _ ht, ht'⟩⟩

/-- A slot of the account. -/
theorem IsEntryOf.takeUp (h : IsEntryOf slots entry) (hid : entry.accountId = last.1.oauthAccountId) :
    IsEntryOf (slots ++ [last])
      ⟨entry.accountId, min entry.priority (max last.1.priority 1), min entry.index last.2⟩ := by
  obtain ⟨hle, ⟨s, hs, hs', hpriority⟩, hindex, ⟨t, ht, ht', htindex⟩⟩ := h
  have hlast : last ∈ slots ++ [last] := List.mem_append_right _ (List.mem_singleton_self _)
  constructor
  · intro slot hslot heq
    rcases List.mem_append.mp hslot with hslot | hslot
    · exact (min_le_left _ _).trans (hle slot hslot heq)
    · obtain rfl := List.mem_singleton.mp hslot
      exact min_le_right _ _
  · rcases min_choice entry.priority (max last.1.priority 1) with heq | heq
    · exact ⟨s, List.mem_append_left _ hs, hs', heq.trans hpriority⟩
    · exact ⟨last, hlast, hid.symm, heq⟩
  · intro slot hslot heq
    rcases List.mem_append.mp hslot with hslot | hslot
    · exact (min_le_left _ _).trans (hindex slot hslot heq)
    · obtain rfl := List.mem_singleton.mp hslot
      exact min_le_right _ _
  · rcases min_choice entry.index last.2 with heq | heq
    · exact ⟨t, List.mem_append_left _ ht, ht', heq.trans htindex⟩
    · exact ⟨last, hlast, hid.symm, heq⟩

/-- The first slot of an account. -/
theorem isEntryOf_first (hfresh : ∀ slot ∈ slots, slot.1.oauthAccountId ≠ last.1.oauthAccountId) :
    IsEntryOf (slots ++ [last]) ⟨last.1.oauthAccountId, max last.1.priority 1, last.2⟩ := by
  have hlast : last ∈ slots ++ [last] := List.mem_append_right _ (List.mem_singleton_self _)
  have honly : ∀ slot ∈ slots ++ [last], slot.1.oauthAccountId = last.1.oauthAccountId → slot = last := by
    intro slot hslot heq
    rcases List.mem_append.mp hslot with hslot | hslot
    · exact absurd heq (hfresh slot hslot)
    · exact List.mem_singleton.mp hslot
  refine ⟨fun slot hslot heq => ?_, ⟨last, hlast, rfl, rfl⟩, fun slot hslot heq => ?_, ⟨last, hlast, rfl, rfl⟩⟩
  · rw [honly slot hslot heq]
  · rw [honly slot hslot heq]

end

/-- The table of some slots has one entry for each of their accounts. -/
theorem entries_foldl_enterSlot (slots : List (ModelConfig × ℕ)) :
    ((slots.foldl enterSlot []).map OAuthEntry.accountId).Nodup
      ∧ (∀ id, id ∈ (slots.foldl enterSlot []).map OAuthEntry.accountId
        ↔ ∃ slot ∈ slots, slot.1.oauthAccountId = id)
      ∧ ∀ entry ∈ slots.foldl enterSlot [], IsEntryOf slots entry := by
  induction slots using List.reverseRecOn with
  | nil => simp
  | append_singleton slots last ih =>
    obtain ⟨hnodup, hids, hentries⟩ := ih
    rw [List.foldl_append, List.foldl_cons, List.foldl_nil]
    refine ⟨nodup_ids_enterSlot hnodup, fun id => ?_, fun entry hentry => ?_⟩
    · rw [mem_ids_enterSlot, hids]
      simp only [List.mem_append, List.mem_singleton, or_and_right, exists_or, exists_eq_left]
      exact or_congr_right eq_comm
    · rcases mem_enterSlot hnodup hentry with ⟨hmem, hne⟩ | ⟨existing, hmem, hid, rfl⟩ | ⟨hfresh, rfl⟩
      · exact (hentries entry hmem).other hne
      · exact (hentries existing hmem).takeUp hid
      · exact isEntryOf_first fun slot hslot heq => hfresh ((hids _).mpr ⟨slot, hslot, heq⟩)

/-- Where there are slots there is an entry in the map. -/
theorem foldl_entry_eq_some_iff {entries : List OAuthEntry} :
    slots.foldl (fun (b : Option (List OAuthEntry)) slot => some (b.elim (enterSlot [] slot) (enterSlot · slot))) none
        = some entries
      ↔ slots ≠ [] ∧ slots.foldl enterSlot [] = entries := by
  have hsome : ∀ (rest : List (ModelConfig × ℕ)) (es : List OAuthEntry),
      rest.foldl (fun (b : Option (List OAuthEntry)) slot => some (b.elim (enterSlot [] slot) (enterSlot · slot)))
        (some es) = some (rest.foldl enterSlot es) := by
    intro rest
    induction rest with
    | nil => exact fun es => rfl
    | cons slot rest ih => exact fun es => ih _
  cases slots with
  | nil => simp
  | cons slot rest =>
    rw [List.foldl_cons, Option.elim_none, hsome, Option.some.injEq]
    simp

theorem eq_nil_of_foldl_enterSlot (h : slots.foldl enterSlot [] = []) : slots = [] := by
  have hids := (entries_foldl_enterSlot slots).2.1
  rw [h] at hids
  rw [List.eq_nil_iff_forall_not_mem]
  intro slot hslot
  exact List.not_mem_nil ((hids slot.1.oauthAccountId).mpr ⟨slot, hslot, rfl⟩)

theorem mem_oauthGroups_iff {entries : List OAuthEntry} :
    (provider, entries) ∈ oauthGroups cfg ↔ entriesOf cfg provider = entries ∧ entries ≠ [] := by
  unfold oauthGroups entriesOf
  rw [OrdMap.mem_gather_iff, foldl_entry_eq_some_iff]
  generalize (oauthSlots cfg).filter _ = slots
  constructor
  · rintro ⟨hne, rfl⟩
    exact ⟨rfl, fun hnil => hne (eq_nil_of_foldl_enterSlot hnil)⟩
  · rintro ⟨rfl, hne⟩
    exact ⟨fun hnil => hne (hnil ▸ rfl), rfl⟩

theorem mem_oauthSlots_iff {m : ModelConfig} {i : ℕ} :
    (m, i) ∈ oauthSlots cfg ↔ cfg.models[i]? = some m ∧ isOauthSlot m := by
  unfold oauthSlots
  rw [List.mem_filter, List.mem_zipIdx_iff_getElem?]

theorem nodup_entriesOf : ((entriesOf cfg provider).map OAuthEntry.accountId).Nodup :=
  (entries_foldl_enterSlot _).1

/-- The accounts of a provider are those that have a slot of it. -/
theorem mem_ids_entriesOf {id : ℤ} : id ∈ (entriesOf cfg provider).map OAuthEntry.accountId
    ↔ ∃ m ∈ cfg.models, isOauthSlot m ∧ oauthPlatformKey m.oauthPlatform = provider ∧ m.oauthAccountId = id := by
  unfold entriesOf
  rw [(entries_foldl_enterSlot _).2.1]
  constructor
  · rintro ⟨⟨m, i⟩, hslot, hid⟩
    obtain ⟨hslot, hprovider⟩ := List.mem_filter.mp hslot
    obtain ⟨hget, hoauth⟩ := mem_oauthSlots_iff.mp hslot
    exact ⟨m, List.mem_of_getElem? hget, hoauth, of_decide_eq_true hprovider, hid⟩
  · rintro ⟨m, hm, hoauth, hprovider, hid⟩
    obtain ⟨i, hget⟩ := List.getElem?_of_mem hm
    exact ⟨(m, i), List.mem_filter.mpr ⟨mem_oauthSlots_iff.mpr ⟨hget, hoauth⟩, decide_eq_true hprovider⟩, hid⟩

/-- An entry of a provider stands for the slots of its account. -/
theorem isEntryOf_of_mem (h : entry ∈ entriesOf cfg provider) :
    IsEntryOf ((oauthSlots cfg).filter fun slot => oauthPlatformKey slot.1.oauthPlatform = provider) entry :=
  (entries_foldl_enterSlot _).2.2 entry h

/-- Two accounts have different first slots. -/
theorem nodup_index_entriesOf : ((entriesOf cfg provider).map OAuthEntry.index).Nodup := by
  refine List.Nodup.map_on (fun e he e' he' heq => ?_) (List.Nodup.of_map _ nodup_entriesOf)
  obtain ⟨⟨m, i⟩, hslot, hid, hindex⟩ := (isEntryOf_of_mem he).index_mem
  obtain ⟨⟨m', i'⟩, hslot', hid', hindex'⟩ := (isEntryOf_of_mem he').index_mem
  have hget := (mem_oauthSlots_iff.mp (List.mem_of_mem_filter hslot)).1
  have hget' := (mem_oauthSlots_iff.mp (List.mem_of_mem_filter hslot')).1
  have hi : i = i' := hindex.symm.trans (heq.trans hindex')
  have hm : m = m' := Option.some.inj (hget.symm.trans (hi ▸ hget'))
  exact List.inj_on_of_nodup_map nodup_entriesOf he he' (hid.symm.trans (hm ▸ hid'))

end

/-! ## The ranked configuration -/

/-- Every account has slots of one provider. -/
def SingleProvider (cfg : RouterConfig) : Prop :=
  ∀ m ∈ cfg.models, ∀ m' ∈ cfg.models, isOauthSlot m → isOauthSlot m' → m.oauthAccountId = m'.oauthAccountId →
    oauthPlatformKey m.oauthPlatform = oauthPlatformKey m'.oauthPlatform

instance (cfg : RouterConfig) : Decidable (SingleProvider cfg) :=
  inferInstanceAs (Decidable (∀ m ∈ cfg.models, ∀ m' ∈ cfg.models, _ → _ → _ → _ = _))

/-- The priorities rank the accounts of each provider, and ranking them again changes nothing. -/
structure SequentialRanking (cfg ranked : RouterConfig) : Prop where
  uniform : ∀ m ∈ ranked.models, ∀ m' ∈ ranked.models, isOauthSlot m → isOauthSlot m' →
    m.oauthAccountId = m'.oauthAccountId → m.priority = m'.priority
  distinct : ∀ m ∈ ranked.models, ∀ m' ∈ ranked.models, isOauthSlot m → isOauthSlot m' →
    oauthPlatformKey m.oauthPlatform = oauthPlatformKey m'.oauthPlatform →
    m.oauthAccountId ≠ m'.oauthAccountId → m.priority ≠ m'.priority
  inRange : ∀ m ∈ ranked.models, isOauthSlot m → 1 ≤ m.priority ∧ m.priority ≤ 999
  keepsOrder : ∀ provider, allSame (entriesOf cfg provider) = false →
    ∀ entry ∈ entriesOf cfg provider, ∀ other ∈ entriesOf cfg provider, ¬ other.before entry →
    ∀ m ∈ ranked.models, ∀ m' ∈ ranked.models, isOauthSlot m → isOauthSlot m' →
      m.oauthAccountId = entry.accountId → m'.oauthAccountId = other.accountId → m.priority < m'.priority
  again : ∀ order, order.Perm (oauthGroups ranked) → assignSequentialOauthAccountPriorities order ranked = ranked

/-- Where the accounts of a provider differ, there is room behind each one for those that come
after it. -/
def LeavesRoom (cfg : RouterConfig) : Prop :=
  ∀ provider, allSame (entriesOf cfg provider) = false → ∀ entry ∈ entriesOf cfg provider,
    clampRank entry.priority + (entriesOf cfg provider).countP (fun other => ¬ other.before entry) ≤ 999

section

variable {cfg : RouterConfig} {order : List (String × List OAuthEntry)} {provider : String} {m m' : ModelConfig}
  {id v : ℤ}

/-- What is assigned comes from the groups. -/
theorem mem_assignedPriorities (horder : order.Perm (oauthGroups cfg)) : (id, v) ∈ assignedPriorities cfg order
    ↔ ∃ provider, (id, v) ∈ rankGroup (cfg.oauthAccountIds.getD []) (entriesOf cfg provider) := by
  unfold assignedPriorities
  rw [List.mem_flatMap]
  constructor
  · rintro ⟨⟨provider, entries⟩, hgroup, hmem⟩
    obtain ⟨hentries, -⟩ := mem_oauthGroups_iff.mp (horder.subset hgroup)
    exact ⟨provider, hentries ▸ hmem⟩
  · rintro ⟨provider, hmem⟩
    have hne : entriesOf cfg provider ≠ [] := by
      intro hnil
      have hid := mem_ids_of_mem_rankGroup hmem
      rw [hnil] at hid
      cases hid
    exact ⟨(provider, _), horder.symm.subset (mem_oauthGroups_iff.mpr ⟨rfl, hne⟩), hmem⟩

/-- An account of one provider has one value. -/
theorem lookup_assigned (hsingle : SingleProvider cfg) (horder : order.Perm (oauthGroups cfg))
    (h : (id, v) ∈ rankGroup (cfg.oauthAccountIds.getD []) (entriesOf cfg provider)) :
    (assignedPriorities cfg order).reverse.lookup id = some v := by
  have hmem := (mem_assignedPriorities horder).mpr ⟨provider, h⟩
  cases hlookup : (assignedPriorities cfg order).reverse.lookup id with
  | none =>
    have hnone := List.lookup_eq_none_iff.mp hlookup (id, v) (List.mem_reverse.mpr hmem)
    simp at hnone
  | some w =>
    obtain ⟨_, _, hsplit, -⟩ := List.lookup_eq_some_iff.mp hlookup
    have hw : (id, w) ∈ (assignedPriorities cfg order).reverse := hsplit ▸ by simp
    obtain ⟨provider', hw⟩ := (mem_assignedPriorities horder).mp (List.mem_reverse.mp hw)
    -- the account has a slot of either provider
    obtain ⟨m, hm, hslot, hkey, hid⟩ := mem_ids_entriesOf.mp (mem_ids_of_mem_rankGroup h)
    obtain ⟨m', hm', hslot', hkey', hid'⟩ := mem_ids_entriesOf.mp (mem_ids_of_mem_rankGroup hw)
    have hsame : provider' = provider :=
      hkey'.symm.trans ((hsingle m' hm' m hm hslot' hslot (hid'.trans hid.symm)).trans hkey)
    rw [hsame] at hw
    rw [eq_of_mem_rankGroup nodup_entriesOf hw h]

/-- The value of an account. -/
def rankOf (cfg : RouterConfig) (order : List (String × List OAuthEntry)) (id : ℤ) : ℤ :=
  ((assignedPriorities cfg order).reverse.lookup id).getD 1

theorem rankOf_eq (hsingle : SingleProvider cfg) (horder : order.Perm (oauthGroups cfg))
    (h : (id, v) ∈ rankGroup (cfg.oauthAccountIds.getD []) (entriesOf cfg provider)) : rankOf cfg order id = v := by
  unfold rankOf
  rw [lookup_assigned hsingle horder h]
  rfl

/-- A slot has a value in the group of its provider. -/
theorem exists_rank (hm : m ∈ cfg.models) (hslot : isOauthSlot m) :
    ∃ v, (m.oauthAccountId, v) ∈ rankGroup (cfg.oauthAccountIds.getD [])
      (entriesOf cfg (oauthPlatformKey m.oauthPlatform)) :=
  exists_mem_rankGroup (mem_ids_entriesOf.mpr ⟨m, hm, hslot, rfl, rfl⟩)

/-- A slot gets the value of its account. -/
theorem withPriority_of_slot (hsingle : SingleProvider cfg) (horder : order.Perm (oauthGroups cfg))
    (hm : m ∈ cfg.models) (hslot : isOauthSlot m) : withPriority (assignedPriorities cfg order) m
      = { m with priority := rankOf cfg order m.oauthAccountId } := by
  obtain ⟨v, hv⟩ := exists_rank hm hslot
  have hsource : ¬ m.source ≠ "oauth" := by
    unfold isOauthSlot at hslot
    simpa using (Bool.and_eq_true_iff.mp hslot).1
  unfold withPriority
  rw [if_neg hsource, rankOf_eq hsingle horder hv, lookup_assigned hsingle horder hv]

/-- Other cards stay as they are. -/
theorem withPriority_of_not_slot (horder : order.Perm (oauthGroups cfg)) (hslot : ¬ isOauthSlot m) :
    withPriority (assignedPriorities cfg order) m = m := by
  unfold withPriority
  split
  · rfl
  · rename_i hsource
    have hnone : (assignedPriorities cfg order).reverse.lookup m.oauthAccountId = none := by
      rw [List.lookup_eq_none_iff]
      rintro ⟨id, v⟩ hmem
      obtain ⟨provider, hmem⟩ := (mem_assignedPriorities horder).mp (List.mem_reverse.mp hmem)
      obtain ⟨m', -, hslot', -, rfl⟩ := mem_ids_entriesOf.mp (mem_ids_of_mem_rankGroup hmem)
      unfold isOauthSlot at hslot hslot'
      have hpositive := of_decide_eq_true (Bool.and_eq_true_iff.mp hslot').2
      simp only [not_not.mp hsource, decide_true, Bool.true_and, decide_eq_true_eq] at hslot
      refine bne_iff_ne.mpr fun heq => hslot ?_
      exact heq ▸ hpositive
    rw [hnone]

/-- A card of the ranked configuration. -/
theorem mem_ranked_iff (hsingle : SingleProvider cfg) (horder : order.Perm (oauthGroups cfg)) (hslot : isOauthSlot m) :
    m ∈ (assignSequentialOauthAccountPriorities order cfg).models
      ↔ ∃ m₀ ∈ cfg.models, isOauthSlot m₀ ∧ m = { m₀ with priority := rankOf cfg order m₀.oauthAccountId } := by
  unfold assignSequentialOauthAccountPriorities
  rw [List.mem_map]
  constructor
  · rintro ⟨m₀, hm₀, rfl⟩
    by_cases hslot₀ : isOauthSlot m₀
    · exact ⟨m₀, hm₀, hslot₀, withPriority_of_slot hsingle horder hm₀ hslot₀⟩
    · rw [withPriority_of_not_slot horder hslot₀] at hslot
      exact absurd hslot hslot₀
  · rintro ⟨m₀, hm₀, hslot₀, rfl⟩
    exact ⟨m₀, hm₀, withPriority_of_slot hsingle horder hm₀ hslot₀⟩

/-! ## Ranking again -/

/-- A slot with the priority that a ranking gives its account. -/
def rankedSlot (rank : ℤ → ℤ) (slot : ModelConfig × ℕ) : ModelConfig × ℕ :=
  ({ slot.1 with priority := rank slot.1.oauthAccountId }, slot.2)

theorem platform_rankedSlot (rank : ℤ → ℤ) (slot : ModelConfig × ℕ) :
    (rankedSlot rank slot).1.oauthPlatform = slot.1.oauthPlatform := rfl

/-- A ranked slot keeps the entry of its account ranked. -/
theorem enterSlot_ranked {rank : ℤ → ℤ} {slot : ModelConfig × ℕ} (h : 1 ≤ rank slot.1.oauthAccountId)
    (entries : List OAuthEntry) : enterSlot (entries.map (OAuthEntry.ranked rank)) (rankedSlot rank slot)
      = (enterSlot entries slot).map (OAuthEntry.ranked rank) := by
  have hmax : max (rank slot.1.oauthAccountId) 1 = rank slot.1.oauthAccountId := max_eq_left h
  induction entries with
  | nil =>
    show [_] = [_]
    unfold rankedSlot OAuthEntry.ranked
    rw [hmax]
  | cons existing rest ih =>
    rw [List.map_cons, enterSlot, enterSlot]
    by_cases hid : existing.accountId = slot.1.oauthAccountId
    · rw [if_pos hid, if_pos (by exact hid), List.map_cons]
      congr 1
      unfold rankedSlot OAuthEntry.ranked
      simp only [hmax, hid, min_self]
    · rw [if_neg hid, if_neg (by exact hid), List.map_cons, ih]

theorem foldl_enterSlot_ranked {rank : ℤ → ℤ} {slots : List (ModelConfig × ℕ)}
    (h : ∀ slot ∈ slots, 1 ≤ rank slot.1.oauthAccountId) (entries : List OAuthEntry) :
    (slots.map (rankedSlot rank)).foldl enterSlot (entries.map (OAuthEntry.ranked rank))
      = (slots.foldl enterSlot entries).map (OAuthEntry.ranked rank) := by
  induction slots generalizing entries with
  | nil => rfl
  | cons slot rest ih =>
    obtain ⟨hslot, hrest⟩ := List.forall_mem_cons.mp h
    rw [List.map_cons, List.foldl_cons, enterSlot_ranked hslot, ih hrest, List.foldl_cons]

theorem isOauthSlot_withPriority (assigned : List (ℤ × ℤ)) (m : ModelConfig) :
    isOauthSlot (withPriority assigned m) = isOauthSlot m := by
  unfold withPriority
  split
  · rfl
  · split <;> rfl

/-- The slots of the ranked configuration are the old ones with their ranks. -/
theorem oauthSlots_ranked (hsingle : SingleProvider cfg) (horder : order.Perm (oauthGroups cfg)) :
    oauthSlots (assignSequentialOauthAccountPriorities order cfg)
      = (oauthSlots cfg).map (rankedSlot (rankOf cfg order)) := by
  unfold oauthSlots assignSequentialOauthAccountPriorities
  rw [List.zipIdx_map, List.filter_map]
  have hslots : ((fun slot : ModelConfig × ℕ => isOauthSlot slot.1)
      ∘ Prod.map (withPriority (assignedPriorities cfg order)) id) = fun slot => isOauthSlot slot.1 := by
    funext slot
    exact isOauthSlot_withPriority _ _
  rw [hslots]
  apply List.map_congr_left
  rintro ⟨m, i⟩ hmem
  obtain ⟨hget, hslot⟩ := List.mem_filter.mp hmem
  have hm : m ∈ cfg.models := List.mem_of_getElem? (List.mem_zipIdx_iff_getElem?.mp hget)
  exact Prod.ext (withPriority_of_slot hsingle horder hm hslot) rfl

theorem one_le_rankOf (hsingle : SingleProvider cfg) (horder : order.Perm (oauthGroups cfg)) (hm : m ∈ cfg.models)
    (hslot : isOauthSlot m) : 1 ≤ rankOf cfg order m.oauthAccountId := by
  obtain ⟨v, hv⟩ := exists_rank hm hslot
  rw [rankOf_eq hsingle horder hv]
  exact one_le_of_mem_rankGroup hv

/-- The entries of the ranked configuration are the old ones with their ranks. -/
theorem entriesOf_ranked (hsingle : SingleProvider cfg) (horder : order.Perm (oauthGroups cfg)) (provider : String) :
    entriesOf (assignSequentialOauthAccountPriorities order cfg) provider
      = (entriesOf cfg provider).map (OAuthEntry.ranked (rankOf cfg order)) := by
  have hfilter : ((fun slot : ModelConfig × ℕ => decide (oauthPlatformKey slot.1.oauthPlatform = provider))
      ∘ rankedSlot (rankOf cfg order)) = fun slot => decide (oauthPlatformKey slot.1.oauthPlatform = provider) := by
    funext slot
    rw [Function.comp_apply, platform_rankedSlot]
  have hranks : ∀ slot ∈ (oauthSlots cfg).filter fun slot => oauthPlatformKey slot.1.oauthPlatform = provider,
      1 ≤ rankOf cfg order slot.1.oauthAccountId := by
    intro slot hslot
    obtain ⟨hget, hoauth⟩ := mem_oauthSlots_iff.mp (List.mem_of_mem_filter hslot)
    exact one_le_rankOf hsingle horder (List.mem_of_getElem? hget) hoauth
  unfold entriesOf
  rw [oauthSlots_ranked hsingle horder, List.filter_map, hfilter]
  exact foldl_enterSlot_ranked hranks []

theorem singleProvider_ranked (hsingle : SingleProvider cfg) (horder : order.Perm (oauthGroups cfg)) :
    SingleProvider (assignSequentialOauthAccountPriorities order cfg) := by
  intro m hm m' hm' hslot hslot' hid
  obtain ⟨m₀, hm₀, hslot₀, rfl⟩ := (mem_ranked_iff hsingle horder hslot).mp hm
  obtain ⟨m₁, hm₁, hslot₁, rfl⟩ := (mem_ranked_iff hsingle horder hslot').mp hm'
  exact hsingle m₀ hm₀ m₁ hm₁ hslot₀ hslot₁ hid

theorem assign_eq_self (h : ∀ m ∈ cfg.models, withPriority (assignedPriorities cfg order) m = m) :
    assignSequentialOauthAccountPriorities order cfg = cfg := by
  unfold assignSequentialOauthAccountPriorities
  rw [List.map_congr_left h, List.map_id'' fun _ => rfl]

/-- Ranking again changes nothing, whatever the order of the groups is. -/
theorem assign_again (hsingle : SingleProvider cfg) (horder : order.Perm (oauthGroups cfg))
    {order' : List (String × List OAuthEntry)}
    (horder' : order'.Perm (oauthGroups (assignSequentialOauthAccountPriorities order cfg))) :
    assignSequentialOauthAccountPriorities order' (assignSequentialOauthAccountPriorities order cfg)
      = assignSequentialOauthAccountPriorities order cfg := by
  have hsingle' := singleProvider_ranked hsingle horder
  have hcards : ∀ m ∈ (assignSequentialOauthAccountPriorities order cfg).models,
      withPriority (assignedPriorities (assignSequentialOauthAccountPriorities order cfg) order') m = m := by
    intro m hm
    by_cases hslot : isOauthSlot m
    · rw [withPriority_of_slot hsingle' horder' hm hslot]
      obtain ⟨m₀, hm₀, hslot₀, rfl⟩ := (mem_ranked_iff hsingle horder hslot).mp hm
      obtain ⟨v, hv⟩ := exists_rank hm₀ hslot₀
      have hagain : (m₀.oauthAccountId, v) ∈ rankGroup (cfg.oauthAccountIds.getD [])
          (entriesOf (assignSequentialOauthAccountPriorities order cfg) (oauthPlatformKey m₀.oauthPlatform)) := by
        rw [entriesOf_ranked hsingle horder, rankGroup_ranked fun id v h => rankOf_eq hsingle horder h]
        exact hv
      have hrank : rankOf (assignSequentialOauthAccountPriorities order cfg) order' m₀.oauthAccountId
          = rankOf cfg order m₀.oauthAccountId :=
        (rankOf_eq hsingle' horder' hagain).trans (rankOf_eq hsingle horder hv).symm
      show { m₀ with priority := _ } = { m₀ with priority := _ }
      rw [hrank]
    · exact withPriority_of_not_slot horder' hslot
  exact assign_eq_self hcards

/-! ## The ranking -/

/-- A slot of the ranked configuration has a value of the group of its provider. -/
theorem mem_rankGroup_of_ranked (hsingle : SingleProvider cfg) (horder : order.Perm (oauthGroups cfg))
    (hm : m ∈ (assignSequentialOauthAccountPriorities order cfg).models) (hslot : isOauthSlot m) :
    (m.oauthAccountId, m.priority) ∈ rankGroup (cfg.oauthAccountIds.getD [])
      (entriesOf cfg (oauthPlatformKey m.oauthPlatform)) := by
  obtain ⟨m₀, hm₀, hslot₀, rfl⟩ := (mem_ranked_iff hsingle horder hslot).mp hm
  obtain ⟨v, hv⟩ := exists_rank hm₀ hslot₀
  show (m₀.oauthAccountId, rankOf cfg order m₀.oauthAccountId) ∈ _
  rw [rankOf_eq hsingle horder hv]
  exact hv

/-- An account of a group has its slots there. -/
theorem platform_of_ranked (hsingle : SingleProvider cfg) (horder : order.Perm (oauthGroups cfg))
    (hm : m ∈ (assignSequentialOauthAccountPriorities order cfg).models) (hslot : isOauthSlot m)
    (hid : m.oauthAccountId ∈ (entriesOf cfg provider).map OAuthEntry.accountId) :
    oauthPlatformKey m.oauthPlatform = provider := by
  obtain ⟨m₀, hm₀, hslot₀, rfl⟩ := (mem_ranked_iff hsingle horder hslot).mp hm
  obtain ⟨m₁, hm₁, hslot₁, rfl, hid₁⟩ := mem_ids_entriesOf.mp hid
  exact hsingle m₀ hm₀ m₁ hm₁ hslot₀ hslot₁ hid₁.symm

/-- The priorities are a ranking within 999 if and only if there is room behind every account of a
provider whose accounts differ. -/
theorem sequentialRanking_iff (hsingle : SingleProvider cfg)
    (hfew : ∀ provider, (entriesOf cfg provider).length ≤ 999) (horder : order.Perm (oauthGroups cfg)) :
    SequentialRanking cfg (assignSequentialOauthAccountPriorities order cfg) ↔ LeavesRoom cfg := by
  constructor
  · intro h provider
    refine (rankGroup_le_iff (cfg.oauthAccountIds.getD []) nodup_index_entriesOf (hfew provider)).mp
      fun id v hv => ?_
    obtain ⟨m₀, hm₀, hslot₀, rfl, rfl⟩ := mem_ids_entriesOf.mp (mem_ids_of_mem_rankGroup hv)
    have hranked := (mem_ranked_iff (m := { m₀ with priority := v }) hsingle horder hslot₀).mpr
      ⟨m₀, hm₀, hslot₀, by rw [rankOf_eq hsingle horder hv]⟩
    exact (h.inRange _ hranked hslot₀).2
  · intro h
    refine ⟨?_, ?_, ?_, ?_, fun order' horder' => assign_again hsingle horder horder'⟩
    · intro m hm m' hm' hslot hslot' hid
      obtain ⟨m₀, -, -, rfl⟩ := (mem_ranked_iff hsingle horder hslot).mp hm
      obtain ⟨m₁, -, -, rfl⟩ := (mem_ranked_iff hsingle horder hslot').mp hm'
      exact congrArg (rankOf cfg order) hid
    · intro m hm m' hm' hslot hslot' hplatform hne
      have hv := mem_rankGroup_of_ranked hsingle horder hm hslot
      have hw := mem_rankGroup_of_ranked hsingle horder hm' hslot'
      rw [← hplatform] at hw
      exact ne_of_mem_rankGroup hne hv hw
    · intro m hm hslot
      have hv := mem_rankGroup_of_ranked hsingle horder hm hslot
      exact ⟨one_le_of_mem_rankGroup hv, (rankGroup_le_iff _ nodup_index_entriesOf (hfew _)).mpr (h _) _ _ hv⟩
    · intro provider hsame entry hentry other hother hnot m hm m' hm' hslot hslot' hid hid'
      have hv := mem_rankGroup_of_ranked hsingle horder hm hslot
      have hw := mem_rankGroup_of_ranked hsingle horder hm' hslot'
      have hgroup : m.oauthAccountId ∈ (entriesOf cfg provider).map OAuthEntry.accountId :=
        List.mem_map.mpr ⟨entry, hentry, hid.symm⟩
      have hgroup' : m'.oauthAccountId ∈ (entriesOf cfg provider).map OAuthEntry.accountId :=
        List.mem_map.mpr ⟨other, hother, hid'.symm⟩
      rw [platform_of_ranked hsingle horder hm hslot hgroup, hid] at hv
      rw [platform_of_ranked hsingle horder hm' hslot' hgroup', hid'] at hw
      exact lt_of_mem_rankGroup nodup_entriesOf hsame hentry hother hnot hv hw

theorem length_enterSlot_le (entries : List OAuthEntry) (slot : ModelConfig × ℕ) :
    (enterSlot entries slot).length ≤ entries.length + 1 := by
  induction entries with
  | nil => exact le_rfl
  | cons existing rest ih =>
    rw [enterSlot]
    split
    · exact Nat.le_succ _
    · exact Nat.succ_le_succ ih

theorem length_foldl_enterSlot_le (slots : List (ModelConfig × ℕ)) (entries : List OAuthEntry) :
    (slots.foldl enterSlot entries).length ≤ entries.length + slots.length := by
  induction slots generalizing entries with
  | nil => exact le_rfl
  | cons slot rest ih =>
    have hle := length_enterSlot_le entries slot
    have hrest := ih (enterSlot entries slot)
    rw [List.foldl_cons, List.length_cons]
    omega

/-- A group has no more accounts than there are cards. -/
theorem length_entriesOf_le : (entriesOf cfg provider).length ≤ cfg.models.length := by
  calc (entriesOf cfg provider).length ≤ ([] : List OAuthEntry).length + _ := length_foldl_enterSlot_le _ []
    _ ≤ (oauthSlots cfg).length := by
      rw [List.length_nil, zero_add]
      exact List.length_filter_le _ _
    _ ≤ cfg.models.length := (List.length_filter_le _ _).trans (List.length_zipIdx).le

/-- Two accounts with room behind them. -/
def roomyAccounts : RouterConfig := { models := [grokSlot 42 7, grokSlot 43 3] }

theorem sequentialRanking_roomy :
    SequentialRanking roomyAccounts (assignSequentialOauthAccountPriorities (oauthGroups roomyAccounts) roomyAccounts)
      ↔ LeavesRoom roomyAccounts :=
  sequentialRanking_iff (by decide +kernel) (fun _ => length_entriesOf_le.trans (by decide)) (List.Perm.refl _)

/-- Two accounts on 999, behind which there is no room for both. -/
def crowdedAccounts : RouterConfig := { models := [grokSlot 42 998, grokSlot 43 999, grokSlot 44 999] }

theorem not_sequentialRanking_crowded :
    (assignSequentialOauthAccountPriorities (oauthGroups crowdedAccounts) crowdedAccounts).models.map
        ModelConfig.priority = [998, 999, 1000]
      ∧ ¬ SequentialRanking crowdedAccounts
        (assignSequentialOauthAccountPriorities (oauthGroups crowdedAccounts) crowdedAccounts) :=
  ⟨by decide +kernel, fun h => absurd h.inRange (by decide +kernel)⟩

end

end CodexRouter
