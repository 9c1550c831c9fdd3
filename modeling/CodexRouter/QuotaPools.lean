/-
# Quota pools

`merge_api_quota_pools` puts the records of the usage monitor into groups, by the quota
pool of their channel, and makes one record of each group: the first one that has
windows takes up the totals and the windows of the others.  No usage is lost on the way;
of the windows those of the first record are taken as they are, so that one that stands
there twice stays twice (`poolsUsage_iff`).
-/
import CodexRouter.UsageCache
import CodexRouter.UsageChannels
import Mathlib.Algebra.Ring.Int.Defs

namespace CodexRouter

open Text

/-! ## Usage -/

/-- `UsageModelSummary`. -/
structure UsageModelSummary where
  name : String
  requests : ℤ := 0
  inputTokens : ℤ := 0
  outputTokens : ℤ := 0
  cacheReadTokens : ℤ := 0
  cacheCreationTokens : ℤ := 0
  totalTokens : ℤ := 0
  cost : Float := 0

/-- `UsageTotals`. -/
structure UsageTotals where
  requests : ℤ := 0
  totalTokens : ℤ := 0
  cost : Float := 0
  models : List UsageModelSummary := []

/-- An `AccountRecord` with the rest of what the quota pools use: the name, the platform
and the totals of its account, and its configured model. -/
structure PooledRecord extends AccountRecord where
  name : String
  platform : String
  totals : UsageTotals
  configuredModel : String

/-- The counters of a model, of which a merge keeps the sums. -/
inductive ModelCounter where
  | requests
  | inputTokens
  | outputTokens
  | cacheReadTokens
  | cacheCreationTokens
  | totalTokens
  deriving DecidableEq, Repr

/-- A counter of a row. -/
def UsageModelSummary.count (row : UsageModelSummary) : ModelCounter → ℤ
  | .requests => row.requests
  | .inputTokens => row.inputTokens
  | .outputTokens => row.outputTokens
  | .cacheReadTokens => row.cacheReadTokens
  | .cacheCreationTokens => row.cacheCreationTokens
  | .totalTokens => row.totalTokens

/-! ## Merging -/

/-- The row of a model with the usage of another row. -/
def UsageModelSummary.add (existing model : UsageModelSummary) : UsageModelSummary :=
  { existing with
    requests := existing.requests + model.requests
    inputTokens := existing.inputTokens + model.inputTokens
    outputTokens := existing.outputTokens + model.outputTokens
    cacheReadTokens := existing.cacheReadTokens + model.cacheReadTokens
    cacheCreationTokens := existing.cacheCreationTokens + model.cacheCreationTokens
    totalTokens := existing.totalTokens + model.totalTokens
    cost := existing.cost + model.cost }

/-- Add a row to the first one of its name, or behind the others. -/
def mergeModel : List UsageModelSummary → UsageModelSummary → List UsageModelSummary
  | [], model => [model]
  | item :: rest, model => if item.name = model.name then item.add model :: rest else item :: mergeModel rest model

/-- `merge_totals`. -/
def mergeTotals (target incoming : UsageTotals) : UsageTotals where
  requests := target.requests + incoming.requests
  totalTokens := target.totalTokens + incoming.totalTokens
  cost := target.cost + incoming.cost
  models := incoming.models.foldl mergeModel target.models

section

/- `f64::to_string`, the URLs and credentials of channels, and the channels under their names. -/
variable (showAmount : ℚ → String) (quotas : QuotaLibs) (channels : ChannelMap)

/-- The key of the group of a record, and the label of the group. -/
def poolOf (record : PooledRecord) : String × String :=
  match channels.lookup record.name with
  | some channel => (apiQuotaPoolKey quotas channel, apiQuotaPoolProvider quotas channel)
  | none => ("account:" ++ toString record.account.id, record.platform)

/-- The key of the group of a record. -/
def poolKey (record : PooledRecord) : String := (poolOf quotas channels record).1

/-- A record under the label of its group. -/
def labelled (record : PooledRecord) : PooledRecord :=
  { record with platform := (poolOf quotas channels record).2 }

/-- The groups, each with the label of its first record. -/
def poolGroups (records : List PooledRecord) : OrdMap String (String × List PooledRecord) :=
  OrdMap.gather (poolKey quotas channels)
    (fun record => ((poolOf quotas channels record).2, [labelled quotas channels record]))
    (fun group record => (group.1, group.2 ++ [labelled quotas channels record])) records

/-- A record has windows. -/
def hasWindows (record : PooledRecord) : Bool := !record.account.windows.isEmpty

/-- The round of the loop over the other records. -/
def mergeRecord (first record : PooledRecord) : PooledRecord :=
  { first with
    totals := mergeTotals first.totals record.totals
    account :=
      { first.account with
        windows := mergeWindows showAmount first.account.windows record.account.windows
        queryNote := appendNote first.account.queryNote record.account.queryNote } }

/-- The records of a group, merged. -/
def mergeGroup (label : String) (group : List PooledRecord) : List PooledRecord :=
  if group.length = 1 then group
  else
    -- the sort is stable, and `false` comes first
    match group.filter hasWindows ++ group.filter (!hasWindows ·) with
    | [] => []
    | first :: rest =>
      [rest.foldl (mergeRecord showAmount) { first with name := "Codex-Router / " ++ label, configuredModel := label }]

/-- `merge_api_quota_pools`. -/
def mergeApiQuotaPools (records : List PooledRecord) : List PooledRecord :=
  (poolGroups quotas channels records).flatMap fun group => mergeGroup showAmount group.2.1 group.2.2

/-! ## What a merge keeps -/

/-- The records of a group. -/
def recordsOf (records : List PooledRecord) (key : String) : List PooledRecord :=
  records.filter (poolKey quotas channels · = key)

/-- A counter of a model, over all rows of that name. -/
def rowsUsage (name : String) (counter : ModelCounter) (rows : List UsageModelSummary) : ℤ :=
  ((rows.filter (·.name = name)).map (·.count counter)).sum

/-- The result has the windows of its group, one of each key. -/
structure KeepsWindows (group : List PooledRecord) (result : PooledRecord) : Prop where
  own : ∀ window ∈ result.account.windows, ∃ record ∈ group, window ∈ record.account.windows
  kept : ∀ record ∈ group, ∀ window ∈ record.account.windows,
    windowCacheKey showAmount window ∈ result.account.windows.map (windowCacheKey showAmount)
  once : (result.account.windows.map (windowCacheKey showAmount)).Nodup

/-- There is one result for each key, with the windows of its group, and no usage is lost. -/
structure PoolsUsage (records results : List PooledRecord) : Prop where
  pools : ∃ keys : List String, keys.Nodup
    ∧ (∀ key, key ∈ keys ↔ ∃ record ∈ records, poolKey quotas channels record = key)
    ∧ List.Forall₂ (fun key => KeepsWindows showAmount (recordsOf quotas channels records key)) keys results
  requests : (results.map (·.totals.requests)).sum = (records.map (·.totals.requests)).sum
  totalTokens : (results.map (·.totals.totalTokens)).sum = (records.map (·.totals.totalTokens)).sum
  models : ∀ name counter, (results.map fun result => rowsUsage name counter result.totals.models).sum
    = (records.map fun record => rowsUsage name counter record.totals.models).sum

end

/-! ## Totals -/

section

variable {name : String} {counter : ModelCounter}

theorem UsageModelSummary.count_add (existing model : UsageModelSummary) :
    (existing.add model).count counter = existing.count counter + model.count counter := by
  cases counter <;> rfl

theorem rowsUsage_cons (row : UsageModelSummary) (rows : List UsageModelSummary) :
    rowsUsage name counter (row :: rows)
      = (if row.name = name then row.count counter else 0) + rowsUsage name counter rows := by
  unfold rowsUsage
  rw [List.filter_cons]
  by_cases h : row.name = name
  · simp [h]
  · simp [h]

/-- A row adds what it counts, also where the name stands twice. -/
theorem rowsUsage_mergeModel (rows : List UsageModelSummary) (model : UsageModelSummary) :
    rowsUsage name counter (mergeModel rows model)
      = rowsUsage name counter rows + (if model.name = name then model.count counter else 0) := by
  induction rows with
  | nil => rw [mergeModel, rowsUsage_cons, add_comm]
  | cons item rest ih =>
    rw [mergeModel]
    split
    · rename_i hname
      rw [rowsUsage_cons, rowsUsage_cons, UsageModelSummary.count_add, show (item.add model).name = item.name from rfl,
        ← hname]
      split
      · rw [add_right_comm]
      · rw [add_zero]
    · rw [rowsUsage_cons, rowsUsage_cons, ih, add_assoc]

theorem rowsUsage_foldl_mergeModel (incoming rows : List UsageModelSummary) :
    rowsUsage name counter (incoming.foldl mergeModel rows)
      = rowsUsage name counter rows + rowsUsage name counter incoming := by
  induction incoming generalizing rows with
  | nil => exact (add_zero _).symm
  | cons model rest ih => rw [List.foldl_cons, ih, rowsUsage_mergeModel, rowsUsage_cons, add_assoc]

end

/-- What is read off totals and added up when they are merged. -/
def AddsUp (usage : UsageTotals → ℤ) : Prop := ∀ target incoming, usage (mergeTotals target incoming) = usage target + usage incoming

theorem addsUp_requests : AddsUp (·.requests) := fun _ _ => rfl

theorem addsUp_totalTokens : AddsUp (·.totalTokens) := fun _ _ => rfl

theorem addsUp_rowsUsage (name : String) (counter : ModelCounter) :
    AddsUp fun totals => rowsUsage name counter totals.models :=
  fun target incoming => rowsUsage_foldl_mergeModel incoming.models target.models

section

variable {showAmount : ℚ → String} {quotas : QuotaLibs} {channels : ChannelMap} {records group : List PooledRecord}
  {first : PooledRecord} {label : String}

theorem usage_foldl_mergeRecord {usage : UsageTotals → ℤ} (h : AddsUp usage) (rest : List PooledRecord) :
    usage (rest.foldl (mergeRecord showAmount) first).totals
      = usage first.totals + (rest.map fun record => usage record.totals).sum := by
  induction rest generalizing first with
  | nil => exact (add_zero _).symm
  | cons record rest ih =>
    have hstep : usage (mergeRecord showAmount first record).totals = usage first.totals + usage record.totals :=
      h first.totals record.totals
    rw [List.foldl_cons, ih, hstep, List.map_cons, List.sum_cons, add_assoc]

/-! ## Windows -/

theorem mem_mergeWindows {target incoming : List UsageWindow} {window : UsageWindow}
    (h : window ∈ mergeWindows showAmount target incoming) : window ∈ target ∨ window ∈ incoming := by
  rcases List.mem_append.mp h with h | h
  · exact .inl h
  · exact .inr (mem_of_mem_carriedOver h)

variable (showAmount) in
theorem key_mem_mergeWindows {target incoming : List UsageWindow} {window : UsageWindow}
    (h : window ∈ target ∨ window ∈ incoming) : windowCacheKey showAmount window
      ∈ (mergeWindows showAmount target incoming).map (windowCacheKey showAmount) := by
  unfold mergeWindows
  rw [List.map_append, List.mem_append]
  rcases h with h | h
  · exact .inl (List.mem_map_of_mem h)
  · have htaken : windowCacheKey showAmount window ∈ target.map (windowCacheKey showAmount)
        ∨ ∃ other ∈ carriedOver showAmount target incoming, windowCacheKey showAmount other
          = windowCacheKey showAmount window := exists_mem_collectNew h rfl
    rcases htaken with hold | ⟨other, hother, hkey⟩
    · exact .inl hold
    · exact .inr (hkey ▸ List.mem_map_of_mem hother)

/-- What is carried over has new keys; the old windows stay as they are. -/
theorem nodup_mergeWindows {target incoming : List UsageWindow} :
    ((mergeWindows showAmount target incoming).map (windowCacheKey showAmount)).Nodup
      ↔ (target.map (windowCacheKey showAmount)).Nodup := by
  unfold mergeWindows
  rw [List.map_append]
  constructor
  · exact fun h => h.of_append_left
  · intro h
    have hcarried : ((carriedOver showAmount target incoming).map (windowCacheKey showAmount)).Nodup
        ∧ ∀ window ∈ carriedOver showAmount target incoming,
          windowCacheKey showAmount window ∉ target.map (windowCacheKey showAmount) := nodup_collectNew
    obtain ⟨hnodup, hfresh⟩ := hcarried
    refine h.append hnodup ?_
    intro key hold hnew
    obtain ⟨window, hwindow, rfl⟩ := List.mem_map.mp hnew
    exact hfresh window hwindow hold

section

variable {target : List UsageWindow} {others : List (List UsageWindow)} {window : UsageWindow}

theorem mem_foldl_mergeWindows (h : window ∈ others.foldl (mergeWindows showAmount) target) :
    window ∈ target ∨ ∃ incoming ∈ others, window ∈ incoming := by
  induction others generalizing target with
  | nil => exact .inl h
  | cons incoming rest ih =>
    rcases ih h with h | ⟨other, hother, h⟩
    · rcases mem_mergeWindows h with h | h
      · exact .inl h
      · exact .inr ⟨incoming, List.mem_cons_self, h⟩
    · exact .inr ⟨other, List.mem_cons_of_mem _ hother, h⟩

/-- A window is there, or another one with its key. -/
theorem key_mem_foldl_mergeWindows (h : window ∈ target ∨ ∃ incoming ∈ others, window ∈ incoming) :
    windowCacheKey showAmount window
      ∈ (others.foldl (mergeWindows showAmount) target).map (windowCacheKey showAmount) := by
  induction others generalizing target window with
  | nil => exact List.mem_map_of_mem (h.resolve_right (by simp))
  | cons incoming rest ih =>
    rw [List.foldl_cons]
    by_cases hfirst : window ∈ target ∨ window ∈ incoming
    · obtain ⟨other, hother, hkey⟩ := List.mem_map.mp (key_mem_mergeWindows showAmount hfirst)
      exact hkey ▸ ih (.inl hother)
    · obtain ⟨htarget, hincoming⟩ := not_or.mp hfirst
      obtain ⟨other, hother, hwindow⟩ := h.resolve_left htarget
      rcases List.mem_cons.mp hother with rfl | hother
      · exact absurd hwindow hincoming
      · exact ih (.inr ⟨other, hother, hwindow⟩)

theorem nodup_foldl_mergeWindows :
    ((others.foldl (mergeWindows showAmount) target).map (windowCacheKey showAmount)).Nodup
      ↔ (target.map (windowCacheKey showAmount)).Nodup := by
  induction others generalizing target with
  | nil => exact Iff.rfl
  | cons incoming rest ih => exact ih.trans nodup_mergeWindows

end

theorem windows_mergeRecord (record : PooledRecord) : (mergeRecord showAmount first record).account.windows
    = mergeWindows showAmount first.account.windows record.account.windows := rfl

/-- The first record takes up the windows of the others. -/
theorem windows_foldl_mergeRecord (rest : List PooledRecord) :
    (rest.foldl (mergeRecord showAmount) first).account.windows
      = (rest.map (·.account.windows)).foldl (mergeWindows showAmount) first.account.windows := by
  induction rest generalizing first with
  | nil => rfl
  | cons record rest ih => rw [List.foldl_cons, ih, windows_mergeRecord, List.map_cons, List.foldl_cons]

/-! ## Groups -/

variable (showAmount label) in
/-- A group becomes one record, from its first one with windows. -/
theorem mergeGroup_eq (h : group ≠ []) : ∃ first start rest, mergeGroup showAmount label group
      = [rest.foldl (mergeRecord showAmount) start]
    ∧ (first :: rest).Perm group ∧ start.account = first.account ∧ start.totals = first.totals
    ∧ (group.find? hasWindows = some first ∨ ∀ record ∈ group, record.account.windows = []) := by
  have hempty : ∀ record : PooledRecord, hasWindows record = false → record.account.windows = [] := by
    intro record hrecord
    simpa [hasWindows] using hrecord
  unfold mergeGroup
  split
  · rename_i hone
    obtain ⟨record, rfl⟩ := List.length_eq_one_iff.mp hone
    refine ⟨record, record, [], rfl, List.Perm.refl _, rfl, rfl, ?_⟩
    cases hrecord : hasWindows record with
    | true => exact .inl (List.find?_cons_of_pos hrecord)
    | false =>
      right
      intro other hother
      obtain rfl := List.mem_singleton.mp hother
      exact hempty other hrecord
  · have hperm : (group.filter hasWindows ++ group.filter (!hasWindows ·)).Perm group :=
      List.filter_append_perm hasWindows group
    cases hsorted : group.filter hasWindows ++ group.filter (!hasWindows ·) with
    | nil =>
      rw [hsorted] at hperm
      exact absurd hperm.symm.eq_nil h
    | cons first rest =>
      rw [hsorted] at hperm
      refine ⟨first, _, rest, rfl, hperm, rfl, rfl, ?_⟩
      cases hfilled : group.filter hasWindows with
      | nil =>
        right
        intro record hrecord
        exact hempty record (by simpa using List.filter_eq_nil_iff.mp hfilled record hrecord)
      | cons filled others =>
        rw [hfilled, List.cons_append, List.cons.injEq] at hsorted
        left
        rw [← List.head?_filter, hfilled, hsorted.1]
        rfl

/-- Nothing of the usage of a group is lost. -/
theorem usage_mergeGroup {usage : UsageTotals → ℤ} (h : AddsUp usage) :
    ((mergeGroup showAmount label group).map fun record => usage record.totals).sum
      = (group.map fun record => usage record.totals).sum := by
  by_cases hgroup : group = []
  · subst hgroup
    rfl
  · obtain ⟨first, start, rest, hmerge, hperm, -, htotals, -⟩ := mergeGroup_eq showAmount label hgroup
    rw [hmerge, List.map_singleton, List.sum_singleton, usage_foldl_mergeRecord h, htotals]
    exact (hperm.map fun record => usage record.totals).sum_eq

variable (showAmount group) in
/-- The first record that has windows has no two of one key. -/
def FirstOnce : Prop :=
  ∀ first, group.find? hasWindows = some first → (first.account.windows.map (windowCacheKey showAmount)).Nodup

variable (showAmount label) in
/-- The windows of a group are kept, and each stands once if each of the first record
that has windows does. -/
theorem windows_mergeGroup (h : group ≠ []) : ∃ result, mergeGroup showAmount label group = [result]
    ∧ (((result.account.windows.map (windowCacheKey showAmount)).Nodup → KeepsWindows showAmount group result)
      ∧ ((result.account.windows.map (windowCacheKey showAmount)).Nodup ↔ FirstOnce showAmount group)) := by
  obtain ⟨first, start, rest, hmerge, hperm, haccount, -, hfirst⟩ := mergeGroup_eq showAmount label h
  have hwindows : (rest.foldl (mergeRecord showAmount) start).account.windows
      = (rest.map (·.account.windows)).foldl (mergeWindows showAmount) first.account.windows :=
    haccount ▸ windows_foldl_mergeRecord rest
  refine ⟨_, hmerge, fun hnodup => ⟨?_, ?_, hnodup⟩, ?_⟩
  · intro window hwindow
    rw [hwindows] at hwindow
    rcases mem_foldl_mergeWindows hwindow with hthere | ⟨incoming, hincoming, hthere⟩
    · exact ⟨first, hperm.subset List.mem_cons_self, hthere⟩
    · obtain ⟨record, hrecord, rfl⟩ := List.mem_map.mp hincoming
      exact ⟨record, hperm.subset (List.mem_cons_of_mem _ hrecord), hthere⟩
  · intro record hrecord window hwindow
    rw [hwindows]
    apply key_mem_foldl_mergeWindows
    rcases List.mem_cons.mp (hperm.symm.subset hrecord) with rfl | hrecord
    · exact .inl hwindow
    · exact .inr ⟨_, List.mem_map_of_mem hrecord, hwindow⟩
  · rw [hwindows, nodup_foldl_mergeWindows]
    unfold FirstOnce
    rcases hfirst with hfind | hnone
    · rw [hfind]
      exact ⟨fun hnodup other hother => Option.some.inj hother ▸ hnodup, fun hall => hall first rfl⟩
    · -- no record has windows, so there is nothing to show on either side
      refine iff_of_true ?_ fun other hother => ?_
      · rw [hnone first (hperm.subset List.mem_cons_self)]
        exact List.nodup_nil
      · rw [hnone other (List.mem_of_find?_eq_some hother)]
        exact List.nodup_nil

/-- The entry of a key: its records under their labels. -/
theorem mem_poolGroups {key : String} {entry : String × List PooledRecord}
    (h : (key, entry) ∈ poolGroups quotas channels records) : entry.2 ≠ []
      ∧ entry.2 = (recordsOf quotas channels records key).map (labelled quotas channels) := by
  have hfold : ∀ (rest : List PooledRecord) (entry : String × List PooledRecord),
      rest.foldl (fun (group : Option (String × List PooledRecord)) record =>
        some (group.elim ((poolOf quotas channels record).2, [labelled quotas channels record])
          fun group => (group.1, group.2 ++ [labelled quotas channels record]))) (some entry)
        = some (entry.1, entry.2 ++ rest.map (labelled quotas channels)) := by
    intro rest
    induction rest with
    | nil => simp
    | cons record rest ih => intro entry; simp [ih]
  rw [poolGroups, OrdMap.mem_gather_iff] at h
  unfold recordsOf
  cases hrecords : records.filter (poolKey quotas channels · = key) with
  | nil =>
    rw [hrecords] at h
    cases h
  | cons record rest =>
    rw [hrecords, List.foldl_cons, Option.elim_none, hfold, Option.some.injEq] at h
    rw [← h]
    exact ⟨by simp, rfl⟩

variable (quotas channels records) in
/-- There is one entry for each key. -/
theorem keys_poolGroups : ((poolGroups quotas channels records).map (·.1)).Nodup ∧ ∀ key,
    key ∈ (poolGroups quotas channels records).map (·.1) ↔ ∃ record ∈ records, poolKey quotas channels record = key := by
  have hordered : (poolGroups quotas channels records).Ordered := OrdMap.ordered_gather
  refine ⟨List.pairwise_map.mpr (hordered.imp fun hlt => ne_of_lt hlt), fun key => ?_⟩
  constructor
  · rw [List.mem_map]
    rintro ⟨⟨key, entry⟩, hmem, rfl⟩
    obtain ⟨hne, hentry⟩ := mem_poolGroups hmem
    have hrecords : recordsOf quotas channels records key ≠ [] := fun hnil => hne (by rw [hentry, hnil]; rfl)
    obtain ⟨record, hrecord⟩ := List.exists_mem_of_ne_nil _ hrecords
    obtain ⟨hthere, hkey⟩ := List.mem_filter.mp hrecord
    exact ⟨record, hthere, of_decide_eq_true hkey⟩
  · rintro ⟨record, hrecord, rfl⟩
    exact OrdMap.mem_keys_gather hrecord

/-- The usage of all groups. -/
theorem usage_mergeApiQuotaPools {usage : UsageTotals → ℤ} (h : AddsUp usage) :
    ((mergeApiQuotaPools showAmount quotas channels records).map fun record => usage record.totals).sum
      = (records.map fun record => usage record.totals).sum := by
  have hgroups : ∀ groups : List (String × String × List PooledRecord),
      ((groups.flatMap fun group => mergeGroup showAmount group.2.1 group.2.2).map fun record => usage record.totals).sum
        = (groups.map fun group => (group.2.2.map fun record => usage record.totals).sum).sum := by
    intro groups
    induction groups with
    | nil => rfl
    | cons group rest ih =>
      rw [List.flatMap_cons, List.map_append, List.sum_append, usage_mergeGroup h, ih, List.map_cons, List.sum_cons]
  unfold mergeApiQuotaPools
  rw [hgroups]
  unfold poolGroups
  have hstart : ∀ record, (([labelled quotas channels record] : List PooledRecord).map fun record => usage record.totals).sum
      = usage record.totals := fun record => List.sum_singleton
  have hadd : ∀ (group : String × List PooledRecord) record,
      ((group.2 ++ [labelled quotas channels record]).map fun record => usage record.totals).sum
        = (group.2.map fun record => usage record.totals).sum + usage record.totals := by
    intro group record
    rw [List.map_append, List.sum_append, hstart]
  refine OrdMap.sum_gather (poolKey quotas channels) (fun group : String × List PooledRecord =>
    (group.2.map fun record => usage record.totals).sum) (fun record => usage record.totals) ?_ ?_
  · exact hstart
  · exact hadd

/-- The labels say nothing about the windows. -/
theorem keepsWindows_map_labelled {result : PooledRecord} :
    KeepsWindows showAmount (group.map (labelled quotas channels)) result ↔ KeepsWindows showAmount group result := by
  constructor
  · rintro ⟨hown, hkept, honce⟩
    refine ⟨fun window hwindow => ?_, fun record hrecord => ?_, honce⟩
    · obtain ⟨other, hother, hthere⟩ := hown window hwindow
      obtain ⟨record, hrecord, rfl⟩ := List.mem_map.mp hother
      exact ⟨record, hrecord, hthere⟩
    · exact hkept (labelled quotas channels record) (List.mem_map_of_mem hrecord)
  · rintro ⟨hown, hkept, honce⟩
    refine ⟨fun window hwindow => ?_, fun other hother => ?_, honce⟩
    · obtain ⟨record, hrecord, hthere⟩ := hown window hwindow
      exact ⟨_, List.mem_map_of_mem hrecord, hthere⟩
    · obtain ⟨record, hrecord, rfl⟩ := List.mem_map.mp hother
      exact hkept record hrecord

theorem firstOnce_map_labelled :
    FirstOnce showAmount (group.map (labelled quotas channels)) ↔ FirstOnce showAmount group := by
  unfold FirstOnce
  rw [List.find?_map]
  constructor
  · intro hall first hfirst
    exact hall (labelled quotas channels first) (congrArg (Option.map (labelled quotas channels)) hfirst)
  · intro hall other hother
    obtain ⟨first, hfirst, rfl⟩ := Option.map_eq_some_iff.mp hother
    exact hall first hfirst

variable (showAmount) in
/-- The result of an entry. -/
theorem result_of_mem {key : String} {entry : String × List PooledRecord}
    (h : (key, entry) ∈ poolGroups quotas channels records) : ∃ result,
      mergeGroup showAmount entry.1 entry.2 = [result]
        ∧ ((result.account.windows.map (windowCacheKey showAmount)).Nodup →
          KeepsWindows showAmount (recordsOf quotas channels records key) result)
        ∧ ((result.account.windows.map (windowCacheKey showAmount)).Nodup
          ↔ FirstOnce showAmount (recordsOf quotas channels records key)) := by
  obtain ⟨hne, hentry⟩ := mem_poolGroups h
  obtain ⟨result, hmerge, hkeeps, honce⟩ := windows_mergeGroup showAmount entry.1 hne
  rw [hentry, keepsWindows_map_labelled] at hkeeps
  rw [hentry, firstOnce_map_labelled] at honce
  exact ⟨result, hmerge, hkeeps, honce⟩

theorem exists_of_forall₂ {α β : Type} {R : α → β → Prop} {l : List α} {l' : List β} (h : List.Forall₂ R l l') {b : β}
    (hb : b ∈ l') : ∃ a, R a b := by
  induction h with
  | nil => cases hb
  | cons hR _ ih =>
    rcases List.mem_cons.mp hb with rfl | hb
    · exact ⟨_, hR⟩
    · exact ih hb

/-- No result has two windows of one key. -/
theorem PoolsUsage.once {results : List PooledRecord} (h : PoolsUsage showAmount quotas channels records results) :
    ∀ result ∈ results, (result.account.windows.map (windowCacheKey showAmount)).Nodup := by
  intro result hresult
  obtain ⟨keys, -, -, hpools⟩ := h.pools
  obtain ⟨_, hkeeps⟩ := exists_of_forall₂ hpools hresult
  exact hkeeps.once

/-- No usage is lost, and every result has the windows of its group, each once, if and only if in
each group the first record that has windows has no two of one key. -/
theorem poolsUsage_iff (showAmount : ℚ → String) (quotas : QuotaLibs) (channels : ChannelMap)
    (records : List PooledRecord) :
    PoolsUsage showAmount quotas channels records (mergeApiQuotaPools showAmount quotas channels records) ↔
      ∀ record ∈ records, FirstOnce showAmount (recordsOf quotas channels records (poolKey quotas channels record)) := by
  obtain ⟨hnodup, hkeys⟩ := keys_poolGroups quotas channels records
  constructor
  · intro h record hrecord
    obtain ⟨⟨key, entry⟩, hmem, hkey⟩ := List.mem_map.mp ((hkeys _).mpr ⟨record, hrecord, rfl⟩)
    obtain rfl : key = poolKey quotas channels record := hkey
    obtain ⟨result, hmerge, -, honce⟩ := result_of_mem showAmount hmem
    have hresult : result ∈ mergeApiQuotaPools showAmount quotas channels records :=
      List.mem_flatMap.mpr ⟨_, hmem, hmerge ▸ List.mem_singleton_self result⟩
    exact honce.mp (h.once result hresult)
  · intro h
    refine ⟨⟨_, hnodup, hkeys, ?_⟩, usage_mergeApiQuotaPools addsUp_requests,
      usage_mergeApiQuotaPools addsUp_totalTokens,
      fun name counter => usage_mergeApiQuotaPools (addsUp_rowsUsage name counter)⟩
    have hentries : ∀ groups ⊆ poolGroups quotas channels records, List.Forall₂
        (fun key => KeepsWindows showAmount (recordsOf quotas channels records key)) (groups.map (·.1))
        (groups.flatMap fun group => mergeGroup showAmount group.2.1 group.2.2) := by
      intro groups
      induction groups with
      | nil => exact fun _ => .nil
      | cons group rest ih =>
        intro hsub
        obtain ⟨hgroup, hrest⟩ := List.cons_subset.mp hsub
        obtain ⟨result, hmerge, hkeeps, honce⟩ := result_of_mem showAmount hgroup
        obtain ⟨record, hrecord, hkey⟩ := (hkeys group.1).mp (List.mem_map_of_mem hgroup)
        rw [List.map_cons, List.flatMap_cons, hmerge]
        exact .cons (hkeeps (honce.mpr (hkey ▸ h record hrecord))) (ih hrest)
    exact hentries _ (List.Subset.refl _)

/-- The URL of one plan is parsed, and there are no credentials. -/
def planQuotas : QuotaLibs where
  parseUrl := fun text =>
    if text = "https://ark.cn-beijing.volces.com/api/plan/v3" then
      some ⟨"https", "", false, some "ark.cn-beijing.volces.com", "/api/plan/v3", text⟩
    else none
  credentialString := fun _ => none
  secretDigest := fun _ => ""

/-- Two cards of the plan. -/
def planChannels : ChannelMap :=
  [("Codex-Router / doubao", { model := "doubao", baseUrl := "https://ark.cn-beijing.volces.com/api/plan/v3" }),
    ("Codex-Router / kimi", { model := "kimi", baseUrl := "https://ark.cn-beijing.volces.com/api/plan/v3" })]

/-- A record of a card. -/
def planRecord (id : ℤ) (name : String) (windows : List UsageWindow) : PooledRecord where
  account :=
    { id := id, kind := "apikey", status := "active", health := "healthy", statusDetail := "", queryNote := ""
      windows := windows }
  quotaEvidence := .unknown
  autoIsolateOnExhaustion := false
  routingChanged := false
  name := name
  platform := "openai"
  totals := { requests := 2 }
  configuredModel := name

/-- The upstream reported its weekly quota in two rows. -/
def weeklyTwice : PooledRecord :=
  planRecord 1 "Codex-Router / doubao" [⟨"weekly", "Volcengine weekly quota", some 25, "", none, ""⟩,
    ⟨"weekly", "Volcengine weekly quota", some 40, "", none, ""⟩]

/-- The other card with the five-hour quota. -/
def fiveHourOnce : PooledRecord :=
  planRecord 2 "Codex-Router / kimi" [⟨"fiveHour", "Volcengine 5-hour quota", some 10, "", none, ""⟩]

/-- What the records have together. -/
theorem windows_weeklyTwice :
    (mergeApiQuotaPools (fun _ => "") planQuotas planChannels [weeklyTwice, fiveHourOnce]).map (·.account.windows)
      = [weeklyTwice.account.windows ++ fiveHourOnce.account.windows] := by
  decide +kernel

/-- Where the record of the two rows comes second they are one window, but not where it comes first. -/
theorem not_poolsUsage_weeklyTwice :
    (mergeApiQuotaPools (fun _ => "") planQuotas planChannels [fiveHourOnce, weeklyTwice]).map
        (·.account.windows.length) = [2]
      ∧ (mergeApiQuotaPools (fun _ => "") planQuotas planChannels [weeklyTwice, fiveHourOnce]).map
        (·.account.windows) = [weeklyTwice.account.windows ++ fiveHourOnce.account.windows]
      ∧ ¬ PoolsUsage (fun _ => "") planQuotas planChannels [weeklyTwice, fiveHourOnce]
        (mergeApiQuotaPools (fun _ => "") planQuotas planChannels [weeklyTwice, fiveHourOnce]) := by
  refine ⟨by decide +kernel, windows_weeklyTwice, fun h => ?_⟩
  have hmem : weeklyTwice.account.windows ++ fiveHourOnce.account.windows
      ∈ (mergeApiQuotaPools (fun _ => "") planQuotas planChannels [weeklyTwice, fiveHourOnce]).map
        (·.account.windows) := windows_weeklyTwice ▸ List.mem_singleton_self _
  obtain ⟨result, hresult, hwindows⟩ := List.mem_map.mp hmem
  have honce := h.once result hresult
  rw [hwindows] at honce
  -- the two rows differ in what is used only
  exact (List.nodup_cons.mp honce).1 List.mem_cons_self

end

end CodexRouter
