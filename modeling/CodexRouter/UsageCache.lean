/-
# The cache of quota windows

`save_cache` keeps the windows that a usage query has read, `cached_usage` shows them while
they are younger than `CACHE_TTL`.  A save can merge: the cached windows that the query did
not read are carried over into the new entry, which gives them its own age.

`reportedLive_of_cachedUsage` is about any run of these calls: as long as nothing is carried
over, what the cache shows was read within the last six hours.
-/
import CodexRouter.Base.KeyedTable
import CodexRouter.QuotaWindows
import Mathlib.Data.String.Basic

namespace CodexRouter

open Text

/-! ## The cache -/

/-- `CacheEntry`. -/
structure CacheEntry where
  updatedAt : String
  windows : List UsageWindow
  note : String
  deriving DecidableEq, Repr

/-- `UsageCache`. -/
abbrev UsageCache := OrdMap String CacheEntry

/-- `ProviderUsage`. -/
structure ProviderUsage where
  provider : String
  windows : List UsageWindow
  note : String
  cached : Bool
  deriving DecidableEq, Repr

/-- `CACHE_TTL`. -/
def cacheTtl : ℤ := minutes 360

/-- `cache_key`. -/
def cacheKey (provider baseUrl credential : String) : String :=
  toAsciiLowercase provider ++ "|" ++ toAsciiLowercase (trimEndMatches (· = '/') baseUrl) ++ "|"
    ++ toAsciiLowercase credential

section

/- `f64::to_string`. -/
variable (showAmount : ℚ → String)

/-- `window_cache_key`. -/
def windowCacheKey (window : UsageWindow) : String :=
  toAsciiLowercase window.kind ++ "|" ++ toAsciiLowercase window.displayName ++ "|"
    ++ toAsciiLowercase window.currency ++ "|" ++ (window.limitAmount.map showAmount).getD ""

/-- What `merge_windows` adds. -/
def carriedOver (target incoming : List UsageWindow) : List UsageWindow :=
  collectNew (windowCacheKey showAmount) some (target.map (windowCacheKey showAmount)) incoming

/-- `merge_windows`. -/
def mergeWindows (target incoming : List UsageWindow) : List UsageWindow :=
  target ++ carriedOver showAmount target incoming

variable (clock : Rfc3339)

/-- `cached_usage`. -/
def cachedUsage (cache : UsageCache) (key provider note : String) (now : ℤ) : Option ProviderUsage :=
  match cache.get key with
  | none => none
  | some entry =>
    if entry.windows.isEmpty then none
    else
      match clock.parse entry.updatedAt with
      | none => none
      | some updated =>
        let age := now - updated
        -- a negative age is no duration, whatever the tolerance
        if age.tdiv 1000 < -300 || age < 0 || cacheTtl < age then none
        else some
          { provider := provider
            windows := entry.windows
            note := note ++ " Last successful refresh: " ++ entry.updatedAt ++ "."
            cached := true }

/-- The windows that `save_cache` keeps. -/
def savedWindows (cache : UsageCache) (key : String) (windows : List UsageWindow) (merge : Bool) : List UsageWindow :=
  if merge then
    match cache.get key with
    | some existing => mergeWindows showAmount windows existing.windows
    | none => windows
  else windows

/-- `save_cache`. -/
def saveCache (cache : UsageCache) (key : String) (windows : List UsageWindow) (merge : Bool) (note : String)
    (now : ℤ) : UsageCache :=
  let windows := savedWindows showAmount cache key windows merge
  if windows.isEmpty then cache
  else cache.insert key { updatedAt := clock.render now, windows := windows, note := note }

/-! ## Runs -/

/-- A call on the cache. -/
inductive CacheCall where
  | save (now : ℤ) (key : String) (windows : List UsageWindow) (merge : Bool) (note : String)
  | read (now : ℤ) (key provider note : String)
  deriving DecidableEq

/-- One call: reading leaves the cache as it is. -/
def CacheCall.perform (cache : UsageCache) : CacheCall → UsageCache
  | .save now key windows merge note => saveCache showAmount clock cache key windows merge note now
  | .read _ _ _ _ => cache

/-- The cache after some calls. -/
def cacheAfter (calls : List CacheCall) : UsageCache :=
  calls.foldl (fun cache call => call.perform showAmount clock cache) []

/-- A window was among those that a query has read for the key at that time. -/
def ReportedLive (calls : List CacheCall) (key : String) (window : UsageWindow) (time : ℤ) : Prop :=
  ∃ windows merge note, CacheCall.save time key windows merge note ∈ calls ∧ window ∈ windows

/-- No cached window is carried over: the save does not merge, or it has read every window
that is in the cache. -/
def NothingCarried (cache : UsageCache) : CacheCall → Prop
  | .save _ key windows merge _ => merge = true → ∀ entry, cache.get key = some entry →
    ∀ window ∈ entry.windows, windowCacheKey showAmount window ∈ windows.map (windowCacheKey showAmount)
  | .read _ _ _ _ => True

end

/-! ## What is saved -/

section

variable {showAmount : ℚ → String} {clock : Rfc3339}

/-- What is carried over has been in the cache. -/
theorem mem_of_mem_carriedOver {target incoming : List UsageWindow} {window : UsageWindow}
    (h : window ∈ carriedOver showAmount target incoming) : window ∈ incoming := by
  obtain ⟨other, hother, hsome⟩ := mem_collectNew h
  exact Option.some.inj hsome ▸ hother

theorem carriedOver_eq_nil {target incoming : List UsageWindow}
    (h : ∀ window ∈ incoming, windowCacheKey showAmount window ∈ target.map (windowCacheKey showAmount)) :
    carriedOver showAmount target incoming = [] := by
  rw [List.eq_nil_iff_forall_not_mem]
  intro window hwindow
  exact nodup_collectNew.2 window hwindow (h window (mem_of_mem_carriedOver hwindow))

/-- A save that carries nothing over keeps what was read. -/
theorem savedWindows_eq {cache : UsageCache} {now : ℤ} {key note : String} {windows : List UsageWindow}
    {merge : Bool} (h : NothingCarried showAmount cache (.save now key windows merge note)) :
    savedWindows showAmount cache key windows merge = windows := by
  rw [savedWindows]
  split
  · rename_i hmerge
    cases hget : cache.get key with
    | none => rfl
    | some entry =>
      show windows ++ carriedOver showAmount windows entry.windows = windows
      rw [carriedOver_eq_nil (h hmerge entry hget), List.append_nil]
  · rfl

/-- Every entry has its time, and its windows were read then. -/
def AllReported (clock : Rfc3339) (calls : List CacheCall) (cache : UsageCache) : Prop :=
  ∀ key entry, cache.get key = some entry →
    ∃ time, clock.parse entry.updatedAt = some time
      ∧ ∀ window ∈ entry.windows, ReportedLive calls key window time

theorem ReportedLive.mono {calls : List CacheCall} {key : String} {window : UsageWindow} {time : ℤ}
    (h : ReportedLive calls key window time) (later : List CacheCall) :
    ReportedLive (calls ++ later) key window time := by
  obtain ⟨windows, merge, note, hcall, hwindow⟩ := h
  exact ⟨windows, merge, note, List.mem_append_left _ hcall, hwindow⟩

/-- A call that carries nothing over. -/
theorem AllReported.perform {calls : List CacheCall} {cache : UsageCache} {call : CacheCall}
    (h : AllReported clock calls cache) (hnothing : NothingCarried showAmount cache call)
    (hnow : ∀ now key windows merge note, call = .save now key windows merge note →
      clock.parse (clock.render now) = some now) :
    AllReported clock (calls ++ [call]) (call.perform showAmount clock cache) := by
  have hbefore : AllReported clock (calls ++ [call]) cache := by
    intro key entry hget
    obtain ⟨time, htime, hreported⟩ := h key entry hget
    exact ⟨time, htime, fun window hwindow => (hreported window hwindow).mono _⟩
  cases call with
  | read now key provider note => exact hbefore
  | save now key windows merge note =>
    intro key' entry hget
    rw [CacheCall.perform, saveCache] at hget
    simp only [savedWindows_eq hnothing] at hget
    split at hget
    · exact hbefore key' entry hget
    by_cases hkey : key' = key
    · subst hkey
      rw [OrdMap.get_insert_self, Option.some.injEq] at hget
      subst hget
      refine ⟨now, hnow now key' windows merge note rfl, fun window hwindow => ?_⟩
      exact ⟨windows, merge, note, List.mem_append_right _ List.mem_cons_self, hwindow⟩
    · rw [OrdMap.get_insert_ne hkey] at hget
      exact hbefore key' entry hget

theorem allReported_cacheAfter {calls : List CacheCall}
    (hnow : ∀ now key windows merge note, CacheCall.save now key windows merge note ∈ calls →
      clock.parse (clock.render now) = some now)
    (hnothing : ∀ front call back, calls = front ++ call :: back →
      NothingCarried showAmount (cacheAfter showAmount clock front) call) :
    AllReported clock calls (cacheAfter showAmount clock calls) := by
  induction calls using List.reverseRecOn with
  | nil => exact fun key entry hget => by cases hget
  | append_singleton calls call ih =>
    have hbefore : AllReported clock calls (cacheAfter showAmount clock calls) := by
      apply ih
      · intro now key windows merge note hmem
        exact hnow now key windows merge note (List.mem_append_left _ hmem)
      · intro front call' back hsplit
        refine hnothing front call' (back ++ [call]) ?_
        rw [hsplit, List.append_assoc, List.cons_append]
    rw [cacheAfter, List.foldl_append, List.foldl_cons, List.foldl_nil, ← cacheAfter]
    refine hbefore.perform (hnothing calls call [] rfl) ?_
    rintro now key windows merge note rfl
    exact hnow now key windows merge note (List.mem_append_right _ List.mem_cons_self)

/-- While nothing is carried over, what the cache shows was read within the last six hours. -/
theorem reportedLive_of_cachedUsage {calls : List CacheCall}
    (hnow : ∀ now key windows merge note, CacheCall.save now key windows merge note ∈ calls →
      clock.parse (clock.render now) = some now)
    (hnothing : ∀ front call back, calls = front ++ call :: back →
      NothingCarried showAmount (cacheAfter showAmount clock front) call)
    {key provider note : String} {now : ℤ} {usage : ProviderUsage}
    (h : cachedUsage clock (cacheAfter showAmount clock calls) key provider note now = some usage) :
    ∀ window ∈ usage.windows, ∃ time, ReportedLive calls key window time ∧ now - time ≤ cacheTtl := by
  rw [cachedUsage] at h
  split at h
  · cases h
  rename_i entry hget
  obtain ⟨time, htime, hreported⟩ := allReported_cacheAfter hnow hnothing key entry hget
  simp only [htime] at h
  split at h
  · cases h
  split at h
  · cases h
  rename_i hage
  rw [Option.some.injEq] at h
  subst h
  simp only [Bool.or_eq_true, decide_eq_true_eq, not_or] at hage
  exact fun window hwindow => ⟨time, hreported window hwindow, by omega⟩

end

end CodexRouter
