/-
# Sequential priorities of OAuth accounts

`assign_sequential_oauth_account_priorities` makes P1, P2, P3... of the accounts of a
provider.  Accounts that all have the same priority are counted in the order in which they
were selected; others keep their order, and each one gets its own priority or, where that is taken, the
next one above (`rankGroup_eq`).  The values are in strict order and stay as they are when
they are ranked again, but the last ones may lie above 999 (`rankGroup_le_iff`).

The accounts of a provider are found by the platforms of their slots.  An account with
slots of two providers is in two groups and keeps the priority of the group that comes
last in the hash map.
-/
import CodexRouter.Base.Ascending
import CodexRouter.Base.KeyedTable
import CodexRouter.RouterConfig
import Mathlib.Data.List.Dedup
import Mathlib.Data.List.Sort

namespace CodexRouter

open Text

/-- `oauth_platform_key`. -/
def oauthPlatformKey (platform : String) : String :=
  let value := toAsciiLowercase (trim platform)
  if value ∈ ["openai", "chatgpt"] then "chatgpt"
  else if value ∈ ["grok", "xai", "x-ai"] then "grok"
  else if value ∈ ["anthropic", "claude"] then "claude"
  else if value ∈ ["gemini", "google", "google_one", "google-one"] then "gemini"
  else value

/-- The card is a slot of an OAuth account. -/
def isOauthSlot (model : ModelConfig) : Bool := model.source = "oauth" && 0 < model.oauthAccountId

/-- The slot of an account, for runs on fixed accounts. -/
def grokSlot (id priority : ℤ) : ModelConfig :=
  { model := "grok-4.6", source := "oauth", oauthAccountId := id, oauthPlatform := "grok", priority := priority }

/-! ## Groups -/

/-- An account in the group of its provider: its best priority and its first slot. -/
structure OAuthEntry where
  accountId : ℤ
  priority : ℤ
  index : ℕ
  deriving DecidableEq, Repr

/-- Enter a slot of an account. -/
def enterSlot : List OAuthEntry → ModelConfig × ℕ → List OAuthEntry
  | [], slot => [⟨slot.1.oauthAccountId, max slot.1.priority 1, slot.2⟩]
  | existing :: rest, slot =>
    if existing.accountId = slot.1.oauthAccountId then
      { existing with
        priority := min existing.priority (max slot.1.priority 1)
        index := min existing.index slot.2 } :: rest
    else existing :: enterSlot rest slot

/-- The slots of the configuration and where they stand. -/
def oauthSlots (cfg : RouterConfig) : List (ModelConfig × ℕ) := cfg.models.zipIdx.filter (isOauthSlot ·.1)

/-- The groups under their providers.  They are gone through in an order of their own. -/
def oauthGroups (cfg : RouterConfig) : OrdMap String (List OAuthEntry) :=
  OrdMap.gather (fun slot : ModelConfig × ℕ => oauthPlatformKey slot.1.oauthPlatform) (enterSlot []) enterSlot
    (oauthSlots cfg)

/-- The accounts of a provider. -/
def entriesOf (cfg : RouterConfig) (provider : String) : List OAuthEntry :=
  ((oauthSlots cfg).filter fun slot => oauthPlatformKey slot.1.oauthPlatform = provider).foldl enterSlot []

/-! ## Ranks -/

/-- `clamp(1, 999)`. -/
def clampRank (priority : ℤ) : ℤ := max 1 (min 999 priority)

/-- The loop that looks for a value that is not used, and uses it. -/
def firstFree (used : List ℤ) (value : ℤ) : ℤ × List ℤ :=
  if value ∉ used then (value, value :: used)
  else
    let next := clampRank (satI32 (value + 1))
    if next = 999 ∧ 999 ∈ used then (next, used) else firstFree used next
  termination_by (999 - value).natAbs
  decreasing_by
    rename_i hused hstop
    have hvalue : value ≠ 999 := by
      rintro rfl
      exact hstop ⟨by decide, not_not.mp hused⟩
    unfold clampRank satI32
    omega

/-- The lower bound of the next value and the values that are used. -/
structure RankState where
  next : ℤ
  used : List ℤ
  deriving DecidableEq, Repr

/-- The value of an account, and the state afterwards. -/
def rankStep (s : RankState) (priority : ℤ) : ℤ × RankState :=
  let found := firstFree s.used (clampRank priority)
  let taken := if found.1 < s.next ∧ s.next ∉ found.2 then (s.next, s.next :: found.2) else found
  (taken.1, ⟨max s.next (taken.1 + 1), taken.2⟩)

/-- The values of the accounts in turn. -/
def rankAll : RankState → List OAuthEntry → List (ℤ × ℤ)
  | _, [] => []
  | s, entry :: rest =>
    let ranked := rankStep s entry.priority
    (entry.accountId, ranked.1) :: rankAll ranked.2 rest

/-- The place of an account among the selected ones. -/
def selectedPlace (selectedOrder : List ℤ) (id : ℤ) : ℕ := (selectedOrder.idxOf? id).getD 18446744073709551615

/-- The sort key `(order, account_id, index)`. -/
def OAuthEntry.selectedBefore (selectedOrder : List ℤ) (entry other : OAuthEntry) : Prop :=
  let place := selectedPlace selectedOrder entry.accountId
  let place' := selectedPlace selectedOrder other.accountId
  place < place' ∨ place = place' ∧ (entry.accountId < other.accountId
    ∨ entry.accountId = other.accountId ∧ entry.index ≤ other.index)

/-- The sort key `(priority, index)`. -/
def OAuthEntry.before (entry other : OAuthEntry) : Prop :=
  entry.priority < other.priority ∨ entry.priority = other.priority ∧ entry.index ≤ other.index

instance (selectedOrder : List ℤ) : DecidableRel (OAuthEntry.selectedBefore selectedOrder) := fun _ _ =>
  inferInstanceAs (Decidable (_ ∨ _))

instance : DecidableRel OAuthEntry.before := fun _ _ => inferInstanceAs (Decidable (_ ∨ _))

/-- There is no more than one priority. -/
def allSame (entries : List OAuthEntry) : Bool := (entries.map OAuthEntry.priority).dedup.length ≤ 1

/-- The values that a group enters. -/
def rankGroup (selectedOrder : List ℤ) (entries : List OAuthEntry) : List (ℤ × ℤ) :=
  if allSame entries ∧ 1 < entries.length then
    (entries.insertionSort (OAuthEntry.selectedBefore selectedOrder)).zipIdx.map fun ranked =>
      (ranked.1.accountId, (ranked.2 : ℤ) + 1)
  else rankAll ⟨1, []⟩ (entries.insertionSort OAuthEntry.before)

/-- The values of all accounts; a later one of an account overwrites an earlier one. -/
def assignedPriorities (cfg : RouterConfig) (order : List (String × List OAuthEntry)) : List (ℤ × ℤ) :=
  order.flatMap fun group => rankGroup (cfg.oauthAccountIds.getD []) group.2

/-- A card with the value of its account. -/
def withPriority (assigned : List (ℤ × ℤ)) (model : ModelConfig) : ModelConfig :=
  if model.source ≠ "oauth" then model
  else
    match assigned.reverse.lookup model.oauthAccountId with
    | some priority => { model with priority := priority }
    | none => model

/-- `assign_sequential_oauth_account_priorities`, which goes through the groups in some order. -/
def assignSequentialOauthAccountPriorities (order : List (String × List OAuthEntry)) (cfg : RouterConfig) :
    RouterConfig :=
  { cfg with models := cfg.models.map (withPriority (assignedPriorities cfg order)) }

/-! ## The search for a value -/

theorem clampRank_of_rank {v : ℤ} (h : 1 ≤ v) (h' : v ≤ 999) : clampRank v = v := by
  unfold clampRank
  omega

theorem clampRank_bounds (v : ℤ) : 1 ≤ clampRank v ∧ clampRank v ≤ 999 := by
  unfold clampRank
  omega

/-- The values from `low` on up to the next one are used, and no other ones above. -/
structure FullFrom (s : RankState) (low : ℤ) : Prop where
  full : ∀ v, low ≤ v → v < s.next → v ∈ s.used
  below : ∀ v ∈ s.used, v < s.next

theorem fullFrom_start : FullFrom ⟨1, []⟩ 1 where
  full _ h h' := absurd h (not_le.mpr h')
  below _ h := absurd h List.not_mem_nil

section

variable {used : List ℤ} {value next low priority : ℤ} {s : RankState}

theorem firstFree_of_not_mem (h : value ∉ used) : firstFree used value = (value, value :: used) := by
  rw [firstFree, if_pos h]

theorem firstFree_of_mem (h : value ∈ used) (hlow : 1 ≤ value) (hvalue : value < 999) :
    firstFree used value = if value + 1 = 999 ∧ 999 ∈ used then (value + 1, used) else firstFree used (value + 1) := by
  have hnext : clampRank (satI32 (value + 1)) = value + 1 := by
    rw [satI32_of_small (by omega) (by omega), clampRank_of_rank (by omega) (by omega)]
  rw [firstFree, if_neg (not_not.mpr h)]
  simp only [hnext]

/-- The search goes up to the first value that is not used. -/
theorem firstFree_eq (hlow : 1 ≤ value) (hle : value ≤ next) (hnext : next ≤ 999) (hnew : next ∉ used)
    (hfull : ∀ v, value ≤ v → v < next → v ∈ used) : firstFree used value = (next, next :: used) := by
  obtain ⟨k, rfl⟩ := Int.le.dest hle
  clear hle
  induction k generalizing value with
  | zero => simpa using firstFree_of_not_mem (by simpa using hnew)
  | succ k ih =>
    have hstop : ¬ (value + 1 = 999 ∧ 999 ∈ used) := by
      rintro ⟨hend, hused⟩
      have hk : value + ((k + 1 : ℕ) : ℤ) = 999 := by omega
      exact hnew (hk ▸ hused)
    have hshift : value + ((k + 1 : ℕ) : ℤ) = value + 1 + (k : ℤ) := by omega
    rw [firstFree_of_mem (hfull value le_rfl (by omega)) hlow (by omega), if_neg hstop, hshift]
    rw [hshift] at hnext hnew hfull
    exact ih (by omega) hnext hnew fun v hv hv' => hfull v (by omega) hv'

/-- Where all values are used it ends with the last one. -/
theorem firstFree_full (hlow : 1 ≤ value) (hle : value ≤ 999) (hfull : ∀ v, value ≤ v → v ≤ 999 → v ∈ used) :
    firstFree used value = (999, used) := by
  have hlast : 999 ∈ used := hfull 999 hle le_rfl
  obtain ⟨k, hk⟩ := Int.le.dest hle
  induction k generalizing value with
  | zero =>
    obtain rfl : value = 999 := by simpa using hk
    rw [firstFree, if_neg (not_not.mpr hlast)]
    exact if_pos ⟨by decide, hlast⟩
  | succ k ih =>
    rw [firstFree_of_mem (hfull value le_rfl hle) hlow (by omega)]
    split
    · rename_i hend
      rw [hend.1]
    · exact ih (by omega) (by omega) (fun v hv hv' => hfull v (by omega) hv') (by omega)

/-- One account gets its own value or the next one; what is used stays full. -/
theorem rankStep_eq (h : FullFrom s low) (hlow : low ≤ clampRank priority) :
    (rankStep s priority).1 = max (clampRank priority) s.next
      ∧ (rankStep s priority).2.next = max (clampRank priority) s.next + 1
      ∧ FullFrom (rankStep s priority).2 (clampRank priority) := by
  obtain ⟨hone, htop⟩ := clampRank_bounds priority
  have hnext : s.next ∉ s.used := fun hmem => lt_irrefl _ (h.below _ hmem)
  -- it is enough to say which value is taken and that it is used
  have hstep : ∀ value, rankStep s priority = (value, ⟨max s.next (value + 1), value :: s.used⟩) →
      value = max (clampRank priority) s.next →
      (rankStep s priority).1 = max (clampRank priority) s.next
        ∧ (rankStep s priority).2.next = max (clampRank priority) s.next + 1
        ∧ FullFrom (rankStep s priority).2 (clampRank priority) := by
    rintro value heq rfl
    rw [heq]
    refine ⟨rfl, by dsimp only; omega, fun v hv hv' => ?_, fun v hv => ?_⟩
    · dsimp only at hv' ⊢
      by_cases hvalue : v = max (clampRank priority) s.next
      · exact List.mem_cons.mpr (.inl hvalue)
      · exact List.mem_cons_of_mem _ (h.full v (by omega) (by omega))
    · dsimp only
      rcases List.mem_cons.mp hv with rfl | hv
      · omega
      · have hbelow := h.below v hv
        omega
  unfold rankStep at hstep ⊢
  by_cases hfree : s.next ≤ clampRank priority
  · have hnew : clampRank priority ∉ s.used := fun hmem => by
      have hbelow := h.below _ hmem
      omega
    apply hstep (clampRank priority)
    · rw [firstFree_of_not_mem hnew]
      simp only [not_lt.mpr hfree, false_and, if_false]
    · omega
  have hbehind : clampRank priority < s.next := not_le.mp hfree
  by_cases hroom : s.next ≤ 999
  · apply hstep s.next
    · rw [firstFree_eq hone hbehind.le hroom hnext fun v hv hv' => h.full v (by omega) hv']
      simp only [lt_irrefl, false_and, if_false]
    · omega
  · -- the values up to 999 are used up, and the next one is taken all the same
    apply hstep s.next
    · rw [firstFree_full hone htop fun v hv hv' => h.full v (by omega) (by omega)]
      have hlast : (999 : ℤ) < s.next := by omega
      simp only [hlast, hnext, not_false_eq_true, and_self, if_true]
    · omega

/-- The accounts of a sorted group ascend from their own values. -/
theorem rankAll_eq {entries : List OAuthEntry} (h : FullFrom s low)
    (hsorted : entries.Pairwise fun entry other => entry.priority ≤ other.priority)
    (hlow : ∀ entry ∈ entries, low ≤ clampRank entry.priority) :
    rankAll s entries = (entries.map OAuthEntry.accountId).zip
      (ascend s.next (entries.map fun entry => clampRank entry.priority)) := by
  induction entries generalizing s low with
  | nil => rfl
  | cons entry rest ih =>
    obtain ⟨hfirst, hsorted⟩ := List.pairwise_cons.mp hsorted
    obtain ⟨hentry, hrest⟩ := List.forall_mem_cons.mp hlow
    obtain ⟨hvalue, hnext, hfull⟩ := rankStep_eq h hentry
    have hlow' : ∀ other ∈ rest, clampRank entry.priority ≤ clampRank other.priority := by
      intro other hother
      have hle := hfirst other hother
      unfold clampRank
      omega
    rw [rankAll, List.map_cons, List.map_cons, ascend, List.zip_cons_cons, ih hfull hsorted hlow', hvalue, hnext]

end

/-! ## Pairs of a zip -/

section

variable {α β γ : Type} {l : List α} {vs : List β} {a b : α} {v w : β}

theorem exists_mem_zip (hlength : l.length = vs.length) (h : a ∈ l) : ∃ v, (a, v) ∈ l.zip vs := by
  rw [← List.map_fst_zip hlength.le] at h
  obtain ⟨⟨a', v⟩, hmem, rfl⟩ := List.mem_map.mp h
  exact ⟨v, hmem⟩

theorem eq_of_mem_zip_left (hlength : l.length = vs.length) (h : l.Nodup) (hv : (a, v) ∈ l.zip vs)
    (hw : (a, w) ∈ l.zip vs) : v = w := by
  rw [← List.map_fst_zip hlength.le] at h
  exact congrArg Prod.snd (List.inj_on_of_nodup_map h hv hw rfl)

theorem eq_of_mem_zip_right (hlength : l.length = vs.length) (h : vs.Nodup) (hv : (a, v) ∈ l.zip vs)
    (hw : (b, v) ∈ l.zip vs) : a = b := by
  rw [← List.map_snd_zip hlength.ge] at h
  exact congrArg Prod.fst (List.inj_on_of_nodup_map h hv hw rfl)

/-- A function that reads the values off gives them all. -/
theorem map_eq_of_zip {f : α → β} (hlength : l.length = vs.length) (h : ∀ a v, (a, v) ∈ l.zip vs → f a = v) :
    l.map f = vs := by
  calc l.map f = (l.zip vs).map (f ∘ Prod.fst) := by rw [← List.map_map, List.map_fst_zip hlength.le]
    _ = (l.zip vs).map Prod.snd := List.map_congr_left fun pair hpair => h pair.1 pair.2 hpair
    _ = vs := List.map_snd_zip hlength.ge

/-- Values in strict order tell the elements in order. -/
theorem lt_of_mem_zip [Preorder β] {r : α → α → Prop} (hl : l.Pairwise r) (hvs : vs.Pairwise (· < ·))
    (hv : (a, v) ∈ l.zip vs) (hw : (b, w) ∈ l.zip vs) (hrefl : r a a) (hnot : ¬ r b a) : v < w := by
  induction l generalizing vs with
  | nil => cases hv
  | cons first rest ih =>
    cases vs with
    | nil => cases hv
    | cons value others =>
      obtain ⟨hfirst, hl⟩ := List.pairwise_cons.mp hl
      obtain ⟨hvalue, hvs⟩ := List.pairwise_cons.mp hvs
      rw [List.zip_cons_cons] at hv hw
      rcases List.mem_cons.mp hv with hv' | hv' <;> rcases List.mem_cons.mp hw with hw' | hw'
      · cases hv'
        cases hw'
        exact absurd hrefl hnot
      · cases hv'
        exact hvalue w (List.of_mem_zip hw').2
      · cases hw'
        exact absurd (hfirst a (List.of_mem_zip hv').1) hnot
      · exact ih hl hvs hv' hw'

end

/-! ## The values of a group -/

instance : Std.Total OAuthEntry.before where
  total entry other := by
    unfold OAuthEntry.before
    omega

instance : IsTrans OAuthEntry OAuthEntry.before where
  trans entry other third := by
    unfold OAuthEntry.before
    omega

theorem OAuthEntry.le_of_before {entry other : OAuthEntry} (h : entry.before other) :
    entry.priority ≤ other.priority := by
  unfold OAuthEntry.before at h
  omega

theorem OAuthEntry.before_refl (entry : OAuthEntry) : entry.before entry := .inr ⟨rfl, le_rfl⟩

section

variable {selectedOrder : List ℤ} {entries : List OAuthEntry} {entry other : OAuthEntry} {id v w : ℤ}

/-- The accounts of a group in the order of their values. -/
def rankedEntries (selectedOrder : List ℤ) (entries : List OAuthEntry) : List OAuthEntry :=
  if allSame entries ∧ 1 < entries.length then
    entries.insertionSort (OAuthEntry.selectedBefore selectedOrder)
  else entries.insertionSort OAuthEntry.before

/-- What the accounts of a group wish for. -/
def rankWishes (selectedOrder : List ℤ) (entries : List OAuthEntry) : List ℤ :=
  (rankedEntries selectedOrder entries).map fun entry =>
    if allSame entries ∧ 1 < entries.length then 1 else clampRank entry.priority

theorem perm_rankedEntries : (rankedEntries selectedOrder entries).Perm entries := by
  unfold rankedEntries
  split
  · exact List.perm_insertionSort _ _
  · exact List.perm_insertionSort _ _

theorem rankWishes_bounds : ∀ wish ∈ rankWishes selectedOrder entries, 1 ≤ wish ∧ wish ≤ 999 := by
  intro wish hwish
  obtain ⟨entry, -, rfl⟩ := List.mem_map.mp hwish
  split
  · omega
  · exact clampRank_bounds _

theorem length_ranked : ((rankedEntries selectedOrder entries).map OAuthEntry.accountId).length
    = (ascend 1 (rankWishes selectedOrder entries)).length := by
  unfold rankWishes
  rw [length_ascend, List.length_map, List.length_map]

/-- In both cases the values ascend from the wishes. -/
theorem rankGroup_eq : rankGroup selectedOrder entries
    = ((rankedEntries selectedOrder entries).map OAuthEntry.accountId).zip
      (ascend 1 (rankWishes selectedOrder entries)) := by
  unfold rankGroup rankWishes rankedEntries
  split
  · rw [ascend_of_le (fun wish hwish => ?_)]
    · rw [List.length_map, List.zip_map, List.range_eq_range', ← List.zipIdx_eq_zip_range']
      apply List.map_congr_left
      intro ranked _
      exact Prod.ext rfl (add_comm _ _)
    · obtain ⟨entry, -, rfl⟩ := List.mem_map.mp hwish
      exact le_rfl
  · have hsorted := List.pairwise_insertionSort OAuthEntry.before entries
    exact rankAll_eq fullFrom_start (hsorted.imp OAuthEntry.le_of_before) fun _ _ => (clampRank_bounds _).1

theorem nodup_rankedIds (hnodup : (entries.map OAuthEntry.accountId).Nodup) :
    ((rankedEntries selectedOrder entries).map OAuthEntry.accountId).Nodup :=
  (perm_rankedEntries.map _).nodup_iff.mpr hnodup

/-- Every account of the group has one value. -/
theorem exists_mem_rankGroup (h : id ∈ entries.map OAuthEntry.accountId) :
    ∃ v, (id, v) ∈ rankGroup selectedOrder entries := by
  rw [rankGroup_eq]
  exact exists_mem_zip length_ranked ((perm_rankedEntries.map _).symm.subset h)

theorem eq_of_mem_rankGroup (hnodup : (entries.map OAuthEntry.accountId).Nodup)
    (hv : (id, v) ∈ rankGroup selectedOrder entries) (hw : (id, w) ∈ rankGroup selectedOrder entries) : v = w := by
  rw [rankGroup_eq] at hv hw
  exact eq_of_mem_zip_left length_ranked (nodup_rankedIds hnodup) hv hw

theorem mem_ids_of_mem_rankGroup (h : (id, v) ∈ rankGroup selectedOrder entries) :
    id ∈ entries.map OAuthEntry.accountId := by
  rw [rankGroup_eq] at h
  exact (perm_rankedEntries.map _).subset (List.of_mem_zip h).1

/-- Different accounts have different values. -/
theorem ne_of_mem_rankGroup {id' : ℤ} (hne : id ≠ id') (hv : (id, v) ∈ rankGroup selectedOrder entries)
    (hw : (id', w) ∈ rankGroup selectedOrder entries) : v ≠ w := by
  rintro rfl
  rw [rankGroup_eq] at hv hw
  exact hne (eq_of_mem_zip_right length_ranked nodup_ascend hv hw)

theorem one_le_of_mem_rankGroup (h : (id, v) ∈ rankGroup selectedOrder entries) : 1 ≤ v := by
  rw [rankGroup_eq] at h
  exact le_of_mem_ascend (List.of_mem_zip h).2

/-- Where the priorities differ the values keep the order. -/
theorem lt_of_mem_rankGroup (hnodup : (entries.map OAuthEntry.accountId).Nodup) (hsame : allSame entries = false)
    (hentry : entry ∈ entries) (hother : other ∈ entries) (hnot : ¬ other.before entry)
    (hv : (entry.accountId, v) ∈ rankGroup selectedOrder entries)
    (hw : (other.accountId, w) ∈ rankGroup selectedOrder entries) : v < w := by
  have hsorted : rankedEntries selectedOrder entries = entries.insertionSort OAuthEntry.before := by
    unfold rankedEntries
    rw [hsame]
    exact if_neg fun h => Bool.noConfusion h.1
  rw [rankGroup_eq, List.zip_map_left] at hv hw
  -- the account of a value is the entry itself
  have hself : ∀ e ∈ entries, ∀ u, (e.accountId, u) ∈ ((rankedEntries selectedOrder entries).zip
      (ascend 1 (rankWishes selectedOrder entries))).map (Prod.map OAuthEntry.accountId fun u => u) →
      (e, u) ∈ (entries.insertionSort OAuthEntry.before).zip (ascend 1 (rankWishes selectedOrder entries)) := by
    intro e he u hu
    obtain ⟨⟨e', u'⟩, hmem, heq⟩ := List.mem_map.mp hu
    obtain ⟨hid, rfl⟩ := Prod.ext_iff.mp heq
    have he' : e' ∈ entries := perm_rankedEntries.subset (List.of_mem_zip hmem).1
    obtain rfl : e' = e := List.inj_on_of_nodup_map hnodup he' he hid
    exact hsorted ▸ hmem
  exact lt_of_mem_zip (List.pairwise_insertionSort OAuthEntry.before entries) pairwise_ascend (hself _ hentry v hv)
    (hself _ hother w hw) entry.before_refl hnot

/-- An entry with the priority that a ranking gives its account. -/
def OAuthEntry.ranked (rank : ℤ → ℤ) (entry : OAuthEntry) : OAuthEntry :=
  { entry with priority := rank entry.accountId }

section

variable {rank : ℤ → ℤ} (h : ∀ id v, (id, v) ∈ rankGroup selectedOrder entries → rank id = v)

include h

/-- The accounts in the order of their values have these as their priorities. -/
theorem priorities_ranked :
    ((rankedEntries selectedOrder entries).map (OAuthEntry.ranked rank)).map OAuthEntry.priority
      = ascend 1 (rankWishes selectedOrder entries) := by
  rw [rankGroup_eq] at h
  calc ((rankedEntries selectedOrder entries).map (OAuthEntry.ranked rank)).map OAuthEntry.priority
      = ((rankedEntries selectedOrder entries).map OAuthEntry.accountId).map rank := by
        rw [List.map_map, List.map_map]
        rfl
    _ = ascend 1 (rankWishes selectedOrder entries) := map_eq_of_zip length_ranked h

theorem nodup_priorities_ranked : ((entries.map (OAuthEntry.ranked rank)).map OAuthEntry.priority).Nodup := by
  have hperm : ((rankedEntries selectedOrder entries).map (OAuthEntry.ranked rank)).Perm
      (entries.map (OAuthEntry.ranked rank)) := perm_rankedEntries.map _
  rw [← (hperm.map OAuthEntry.priority).nodup_iff, priorities_ranked h]
  exact nodup_ascend

/-- Sorted by the new priorities the accounts stand in the order of their values. -/
theorem insertionSort_ranked : (entries.map (OAuthEntry.ranked rank)).insertionSort OAuthEntry.before
    = (rankedEntries selectedOrder entries).map (OAuthEntry.ranked rank) := by
  have hperm : ((rankedEntries selectedOrder entries).map (OAuthEntry.ranked rank)).Perm
      (entries.map (OAuthEntry.ranked rank)) := perm_rankedEntries.map _
  have hlt : (ascend 1 (rankWishes selectedOrder entries)).Pairwise (· < ·) := pairwise_ascend
  rw [← priorities_ranked h, List.pairwise_map] at hlt
  refine List.Perm.eq_of_pairwise (fun e e' he he' hle hle' => ?_)
    (List.pairwise_insertionSort OAuthEntry.before _) (hlt.imp .inl)
    ((List.perm_insertionSort _ _).trans hperm.symm)
  -- no two accounts have the same priority, so that the order of the cards decides nothing
  have heq : e.priority = e'.priority := by
    unfold OAuthEntry.before at hle hle'
    omega
  exact List.inj_on_of_nodup_map (nodup_priorities_ranked h) ((List.perm_insertionSort _ _).subset he)
    (hperm.subset he') heq

theorem not_allSame_ranked :
    ¬ (allSame (entries.map (OAuthEntry.ranked rank)) ∧ 1 < (entries.map (OAuthEntry.ranked rank)).length) := by
  rintro ⟨hsame, hlength⟩
  unfold allSame at hsame
  rw [List.dedup_eq_self.mpr (nodup_priorities_ranked h), List.length_map] at hsame
  have hle := of_decide_eq_true hsame
  omega

/-- Ranked priorities are kept. -/
theorem rankGroup_ranked :
    rankGroup selectedOrder (entries.map (OAuthEntry.ranked rank)) = rankGroup selectedOrder entries := by
  have hpriorities := priorities_ranked h
  -- the new priorities are clamped from above only
  have hclamp : ((rankedEntries selectedOrder entries).map (OAuthEntry.ranked rank)).map
      (fun entry => clampRank entry.priority) = (ascend 1 (rankWishes selectedOrder entries)).map (min 999) := by
    rw [← hpriorities]
    conv_rhs => rw [List.map_map]
    apply List.map_congr_left
    intro entry hentry
    have hone : 1 ≤ entry.priority := le_of_mem_ascend (hpriorities ▸ List.mem_map_of_mem hentry)
    show clampRank entry.priority = min 999 entry.priority
    unfold clampRank
    omega
  have hsorted := List.pairwise_insertionSort OAuthEntry.before (entries.map (OAuthEntry.ranked rank))
  rw [insertionSort_ranked h] at hsorted
  unfold rankGroup
  rw [if_neg (not_allSame_ranked h), insertionSort_ranked h,
    rankAll_eq fullFrom_start (hsorted.imp OAuthEntry.le_of_before) (fun _ _ => (clampRank_bounds _).1), hclamp,
    ascend_ascend fun wish hwish => (rankWishes_bounds wish hwish).2, List.map_map]
  exact rankGroup_eq.symm

end

/-- Behind an account of a sorted group stand those that come after it. -/
theorem countP_of_suffix {rest sorted : List OAuthEntry} (hsorted : sorted.Pairwise OAuthEntry.before)
    (hindex : (sorted.map OAuthEntry.index).Nodup) (h : entry :: rest <:+ sorted) :
    sorted.countP (fun other => ¬ other.before entry) = rest.length := by
  obtain ⟨first, rfl⟩ := h
  obtain ⟨-, hlast, hacross⟩ := List.pairwise_append.mp hsorted
  have hfirst : ∀ other ∈ first, other.before entry := fun other hother => hacross other hother entry List.mem_cons_self
  rw [List.map_append] at hindex
  have hrest : ∀ other ∈ rest, ¬ other.before entry := by
    intro other hother hbefore
    have hafter := (List.pairwise_cons.mp hlast).1 other hother
    have hne : other.index ≠ entry.index := by
      intro heq
      have hnodup := (List.nodup_append.mp hindex).2.1
      rw [List.map_cons, List.nodup_cons] at hnodup
      exact hnodup.1 (heq ▸ List.mem_map_of_mem hother)
    unfold OAuthEntry.before at hbefore hafter
    omega
  rw [List.countP_append, List.countP_cons_of_neg (by simpa using entry.before_refl),
    List.countP_eq_zero.mpr (by simpa using hfirst), zero_add, List.countP_eq_length]
  simpa using hrest

variable (selectedOrder) in
/-- The values stay within 999 where the accounts that are all the same are not more, or where
behind every account there is room for those that come after it. -/
theorem rankGroup_le_iff (hindex : (entries.map OAuthEntry.index).Nodup) (hfew : entries.length ≤ 999) :
    (∀ id v, (id, v) ∈ rankGroup selectedOrder entries → v ≤ 999) ↔ (allSame entries = false →
      ∀ entry ∈ entries, clampRank entry.priority + entries.countP (fun other => ¬ other.before entry) ≤ 999) := by
  have hvalues : (∀ id v, (id, v) ∈ rankGroup selectedOrder entries → v ≤ 999)
      ↔ ∀ v ∈ ascend 1 (rankWishes selectedOrder entries), v ≤ 999 := by
    rw [rankGroup_eq]
    constructor
    · intro h v hv
      have hsnd : (((rankedEntries selectedOrder entries).map OAuthEntry.accountId).zip
          (ascend 1 (rankWishes selectedOrder entries))).map Prod.snd = ascend 1 (rankWishes selectedOrder entries) :=
        List.map_snd_zip length_ranked.ge
      rw [← hsnd] at hv
      obtain ⟨⟨id, v⟩, hmem, rfl⟩ := List.mem_map.mp hv
      exact h id v hmem
    · exact fun h id v hmem => h v (List.of_mem_zip hmem).2
  rw [hvalues, ascend_one_le_iff fun wish hwish => (rankWishes_bounds wish hwish).1]
  cases hsame : allSame entries with
  | true =>
    refine iff_of_true (fun wish rest hsuffix => ?_) fun h => Bool.noConfusion h
    have hwish : wish ∈ rankWishes selectedOrder entries := hsuffix.subset List.mem_cons_self
    have hlength : rest.length + 1 ≤ entries.length := by
      have hle := hsuffix.length_le
      unfold rankWishes at hle
      rwa [List.length_map, perm_rankedEntries.length_eq] at hle
    by_cases hmany : 1 < entries.length
    · -- they all wish for one
      obtain ⟨entry, -, rfl⟩ := List.mem_map.mp hwish
      rw [if_pos ⟨hsame, hmany⟩]
      omega
    · have htop := (rankWishes_bounds wish hwish).2
      omega
  | false =>
    have hnot : ¬ (allSame entries ∧ 1 < entries.length) := fun h => Bool.noConfusion (hsame.symm.trans h.1)
    have hwishes : rankWishes selectedOrder entries
        = (entries.insertionSort OAuthEntry.before).map fun entry => clampRank entry.priority := by
      unfold rankWishes rankedEntries
      simp only [if_neg hnot]
    have hperm := List.perm_insertionSort OAuthEntry.before entries
    have hcount : ∀ entry rest, entry :: rest <:+ entries.insertionSort OAuthEntry.before →
        entries.countP (fun other => ¬ other.before entry) = rest.length := by
      intro entry rest h
      rw [← hperm.countP_eq]
      exact countP_of_suffix (List.pairwise_insertionSort _ _) ((hperm.map _).nodup_iff.mpr hindex) h
    rw [hwishes]
    constructor
    · intro h _ entry hentry
      obtain ⟨first, rest, hsplit⟩ := List.append_of_mem (hperm.symm.subset hentry)
      have hsuffix : entry :: rest <:+ entries.insertionSort OAuthEntry.before := ⟨first, hsplit.symm⟩
      have hmapped := hsuffix.map fun entry : OAuthEntry => clampRank entry.priority
      rw [List.map_cons] at hmapped
      have hle := h _ _ hmapped
      rwa [List.length_map, ← hcount entry rest hsuffix] at hle
    · rintro h wish wishes ⟨first, hsplit⟩
      obtain ⟨before, after, hsorted, -, hafter⟩ := List.append_eq_map_iff.mp hsplit
      obtain ⟨entry, rest, rfl, rfl, rfl⟩ := List.map_eq_cons_iff.mp hafter
      have hsuffix : entry :: rest <:+ entries.insertionSort OAuthEntry.before := ⟨before, hsorted.symm⟩
      rw [List.length_map, ← hcount entry rest hsuffix]
      exact h rfl entry (hperm.subset (hsuffix.subset List.mem_cons_self))

end

end CodexRouter
