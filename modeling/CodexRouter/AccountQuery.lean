/-
# The query of an OAuth account

`query_account` asks the service for the statistics and the quota of an account, saves the
windows it has read in the cache or shows the cached ones, and decides from the windows whether
the account is taken out of the pool or put back.

When the quota was read, the decision should not depend on the cache.  But a note on the
statistics makes the save merge, and the cached windows that are carried over are judged with
the others: `evidence_of_read_iff` says when this makes no difference.
-/
import CodexRouter.Base.Fresh
import CodexRouter.UsageCache

namespace CodexRouter

open Text

/-! ## The task and the answers -/

/-- What is read of an `AccountTask` whose account is an OAuth one. -/
structure OAuthTask where
  id : ℤ
  platform : String
  status : String
  schedulable : Option Bool
  tempUnschedulableReason : String
  errorMessage : String
  /-- `api_quota_pool_provider` of the channel. -/
  channelProvider : Option String
  autoIsolateOnExhaustion : Bool
  deriving DecidableEq, Repr

/-- What is read of a usage payload. -/
structure UsagePayload where
  isNull : Bool
  stale : Option Bool
  source : String
  errorCode : String
  needsReauth : Option Bool
  /-- The windows `five_hour`, `seven_day` and `monthly`. -/
  standard : List UsageWindow
  /-- `normalize_grok`. -/
  billing : List UsageWindow
  /-- `normalize_antigravity`. -/
  pools : List UsageWindow
  deriving DecidableEq, Repr

/-- `Value::Null`. -/
def UsagePayload.null : UsagePayload := ⟨true, none, "", "", none, [], [], []⟩

/-- What is read of the answer to an action. -/
structure AdminAction where
  success : Option Bool
  error_code : String
  errorCode : String
  deriving DecidableEq, Repr

/-- How the service answers a query: the error of the statistics, the usage payload or its
error, and the answers to the two actions. -/
structure AdminResponses where
  stats : Option String
  usage : Except String UsagePayload
  recoverState : Option AdminAction
  schedulable : Bool

/-- `credential_rejected`. -/
def credentialRejected (note : String) : Bool :=
  let note := toAsciiLowercase note
  contains note "router_kimi_credential_rejected" || contains note "class=authentication"
    || contains note "class=permission"

/-- `live_usage_payload_is_fresh`. -/
def liveUsagePayloadIsFresh (usage : UsagePayload) : Bool :=
  !usage.isNull && usage.stale ≠ some true && !eqIgnoreAsciiCase usage.source "cache"

/-- `admin_action_succeeded`. -/
def adminActionSucceeded (action : AdminAction) : Bool :=
  action.success ≠ some false && action.error_code = "" && action.errorCode = ""

/-- `normalize_usage_provider`. -/
def normalizeUsageProvider (platform : String) : String :=
  match toAsciiLowercase (trim platform) with
  | "chatgpt" => "openai"
  | "xai" => "grok"
  | "x-ai" => "grok"
  | "claude" => "anthropic"
  | value => value

/-! ## What was read -/

/-- The provider of the account. -/
def OAuthTask.provider (task : OAuthTask) : String :=
  normalizeUsageProvider (task.channelProvider.getD task.platform)

/-- `grok`, by any of its names. -/
def isGrok (provider : String) : Bool := provider ∈ ["grok", "xai", "x-ai"]

/-- The usage payload, of an account that is not disabled. -/
def usageOf (task : OAuthTask) (responses : AdminResponses) : UsagePayload :=
  if task.status = "disabled" then .null
  else
    match responses.usage with
    | .ok usage => usage
    | .error _ => .null

/-- The usage payload as a billing quota. -/
def grokQuotaOf (task : OAuthTask) (responses : AdminResponses) : UsagePayload :=
  if task.provider = "grok" then usageOf task responses else .null

/-- The windows of the billing quota. -/
def billingWindows (task : OAuthTask) (responses : AdminResponses) : List UsageWindow :=
  if isGrok task.provider then
    if (grokQuotaOf task responses).isNull then (usageOf task responses).billing
    else (grokQuotaOf task responses).billing
  else []

/-- The windows of the model pools. -/
def poolWindows (task : OAuthTask) (responses : AdminResponses) : List UsageWindow :=
  if task.provider = "antigravity" then (usageOf task responses).pools else []

/-- All windows of the payload. -/
def readWindows (task : OAuthTask) (responses : AdminResponses) : List UsageWindow :=
  (usageOf task responses).standard ++ billingWindows task responses ++ poolWindows task responses

/-- The windows are those of a live payload. -/
def readFresh (task : OAuthTask) (responses : AdminResponses) : Bool :=
  (liveUsagePayloadIsFresh (usageOf task responses) && !(usageOf task responses).standard.isEmpty)
    || (isGrok task.provider && liveUsagePayloadIsFresh (grokQuotaOf task responses)
      && !(billingWindows task responses).isEmpty)
    || (task.provider = "antigravity" && liveUsagePayloadIsFresh (usageOf task responses)
      && !(poolWindows task responses).isEmpty)

/-! ## Notes -/

/-- The note on an error code. -/
def errorClass (errorCode other : String) : String :=
  match errorCode with
  | "unauthenticated" => "class=authentication"
  | "forbidden" => "class=permission"
  | "rate_limited" => "class=rate_limit"
  | "network_error" => "class=network"
  | _ => other

/-- The note on the two requests. -/
def requestNote (task : OAuthTask) (responses : AdminResponses) : String :=
  let note := responses.stats.getD ""
  if task.status = "disabled" then note
  else
    match responses.usage with
    | .ok _ => note
    | .error message =>
      if note = "" then
        if task.provider = "grok" then
          "Grok billing quota is unavailable; showing local usage statistics."
        else message
      else note

/-- The note on a payload without windows. -/
def emptyNote (task : OAuthTask) (usage : UsagePayload) (note : String) : String :=
  let note := if task.provider = "antigravity" then
      appendNote note (errorClass usage.errorCode
        (if usage.needsReauth = some true then "class=authentication" else ""))
    else note
  let note := if task.provider ∈ ["openai", "chatgpt"] ∧ usage.errorCode ≠ "" then
      appendNote note (errorClass usage.errorCode "ChatGPT quota refresh unavailable.")
    else note
  if task.provider ∈ ["gemini", "google", "google_one", "google-one"] then
    appendNote note "Gemini CLI has no official quota window API; showing local request/token ledger."
  else if task.provider ∈ ["anthropic", "claude"] then
    appendNote note "Anthropic OAuth has no dedicated quota window; showing local ledger."
  else if isGrok task.provider then
    appendNote note (errorClass usage.errorCode "Grok billing quota is unavailable.")
  else note

/-- The note on a payload that is not live. -/
def staleNote (task : OAuthTask) (usage : UsagePayload) (note : String) : String :=
  if usage.isNull || liveUsagePayloadIsFresh usage then note
  else
    appendNote note (errorClass usage.errorCode
      (if task.provider = "grok" then "Grok billing quota is unavailable; showing cached quota."
      else if task.provider = "openai" then "OpenAI quota refresh unavailable; showing cached usage."
      else "OAuth quota refresh unavailable; showing cached usage."))

/-- All notes on the requests and the payload. -/
def queryNote (task : OAuthTask) (responses : AdminResponses) : String :=
  let usage := usageOf task responses
  let note := requestNote task responses
  staleNote task usage (if (readWindows task responses).isEmpty then emptyNote task usage note else note)

/-! ## Decisions -/

/-- `maybe_recover_misdisabled_account`. -/
def maybeRecoverMisdisabledAccount (task : OAuthTask) (responses : AdminResponses) (windows : List UsageWindow)
    (fresh : Bool) (note : String) : Bool :=
  if task.status = "disabled" then false
  else if task.platform ∈ ["openai", "chatgpt"] then false
  else
    let currentlyDisabled := task.status = "error" || task.schedulable = some false
    let liveQuotaUsable := fresh && liveQuotaIsUsable windows
    let mayProbeWithoutLiveQuota := !fresh
    if !currentlyDisabled || (!liveQuotaUsable && !mayProbeWithoutLiveQuota) || credentialRejected note then false
    else if task.id ≤ 0 then false
    else responses.recoverState.any adminActionSucceeded

/-- `maybe_isolate_exhausted_oauth_account`. -/
def maybeIsolateExhaustedOAuthAccount (task : OAuthTask) (responses : AdminResponses) (windows : List UsageWindow)
    (fresh : Bool) (note : String) : Bool :=
  if !task.autoIsolateOnExhaustion || !fresh || !liveQuotaIsExhausted windows || credentialRejected note then false
  else if task.status = "error" || task.schedulable = some false then true
  else if task.id ≤ 0 then false
  else responses.schedulable

/-- The evidence that the windows give. -/
def quotaEvidence (recovered fresh : Bool) (note : String) (windows : List UsageWindow) : OAuthQuotaEvidence :=
  if recovered then .usable
  else if fresh && !credentialRejected note then
    if liveQuotaIsExhausted windows then .exhausted
    else if liveQuotaIsUsable windows then .usable
    else .unknown
  else .unknown

/-- `resolve_state`. -/
def resolveState (status : String) (schedulable : Option Bool) (detail : String) (windows : List UsageWindow)
    (fresh : Bool) : String × String :=
  let detail := if schedulable ≠ some false && (fresh || (status = "active" && schedulable ≠ some false)) then ""
    else detail
  let lower := toAsciiLowercase detail
  let health :=
    if liveQuotaIsExhausted windows then "quotaExhausted"
    else if status = "active" && schedulable ≠ some false then "healthy"
    else if contains lower "usage limit" || contains lower "quota" || contains lower "billing cycle" then
      "quotaExhausted"
    else if detail ≠ "" || status = "error" then "upstreamError"
    else "cooldown"
  (health, detail)

/-- What a query leaves: the account, the two decisions and the cache. -/
structure QueriedAccount where
  record : AccountRecord
  recovered : Bool
  isolated : Bool
  cache : UsageCache
  deriving DecidableEq, Repr

/-- The decisions on the windows that are shown. -/
def judgeAccount (task : OAuthTask) (responses : AdminResponses) (reconcileRecovery fresh : Bool)
    (windows : List UsageWindow) (note : String) (cache : UsageCache) : QueriedAccount :=
  let note := if fresh && !credentialRejected note then "" else note
  let wasUnschedulable := task.status = "error" || task.schedulable = some false
  let decides := reconcileRecovery && task.status ≠ "disabled"
  let recovered := decides && maybeRecoverMisdisabledAccount task responses windows fresh note
  let isolated := decides && maybeIsolateExhaustedOAuthAccount task responses windows fresh note
  let detail := if task.tempUnschedulableReason ≠ "" then task.tempUnschedulableReason else task.errorMessage
  let status := if recovered then "active" else task.status
  let schedulable := if recovered then some true else if isolated then some false else task.schedulable
  let detail := if recovered then "" else if isolated then
      "OAuth quota exhausted; matching API fallback is active."
    else detail
  let state := resolveState status schedulable detail windows fresh
  { record :=
      { account :=
          { id := task.id
            kind := "oauth"
            status := status
            health := state.1
            statusDetail := state.2
            queryNote := note
            windows := windows }
        quotaEvidence := quotaEvidence recovered fresh note windows
        autoIsolateOnExhaustion := task.autoIsolateOnExhaustion
        routingChanged := recovered || (isolated && !wasUnschedulable) }
    recovered := recovered
    isolated := isolated
    cache := cache }

section

variable (showAmount : ℚ → String) (clock : Rfc3339)

/-- The key of an account in the cache. -/
def OAuthTask.cacheKey (task : OAuthTask) : String :=
  CodexRouter.cacheKey ("oauth-" ++ task.provider) ("account:" ++ toString task.id) ""

/-- `query_account` of an OAuth account. -/
def queryAccount (task : OAuthTask) (responses : AdminResponses) (reconcileRecovery : Bool) (now : ℤ)
    (cache : UsageCache) : QueriedAccount :=
  let fresh := readFresh task responses
  let windows := readWindows task responses
  let note := queryNote task responses
  if fresh && !windows.isEmpty then
    judgeAccount task responses reconcileRecovery fresh
      (savedWindows showAmount cache task.cacheKey windows (note ≠ "")) note
      (saveCache showAmount clock cache task.cacheKey windows (note ≠ "") "" now)
  else
    match cachedUsage clock cache task.cacheKey task.provider
        (task.provider ++ " live quota query failed; showing cached quota.") now with
    | some fallback =>
      judgeAccount task responses reconcileRecovery fresh fallback.windows (appendNote note fallback.note) cache
    | none => judgeAccount task responses reconcileRecovery fresh windows note cache

end

/-! ## A quota that was read -/

section

variable {task : OAuthTask} {responses : AdminResponses}

/-- Only a live payload counts as read. -/
theorem live_of_readFresh (h : readFresh task responses = true) :
    liveUsagePayloadIsFresh (usageOf task responses) = true := by
  simp only [readFresh, Bool.or_eq_true, Bool.and_eq_true] at h
  rcases h with (⟨hlive, -⟩ | ⟨⟨-, hlive⟩, -⟩) | ⟨⟨-, hlive⟩, -⟩
  · exact hlive
  · rw [grokQuotaOf] at hlive
    split at hlive
    · exact hlive
    · simp [liveUsagePayloadIsFresh, UsagePayload.null] at hlive
  · exact hlive

/-- A live payload comes without an error of its request. -/
theorem requestNote_of_live (h : liveUsagePayloadIsFresh (usageOf task responses) = true) :
    requestNote task responses = responses.stats.getD "" := by
  rw [requestNote]
  rw [usageOf] at h
  split
  · rfl
  · rename_i hstatus
    rw [if_neg hstatus] at h
    cases husage : responses.usage with
    | ok usage => rfl
    | error message =>
      rw [husage] at h
      simp [liveUsagePayloadIsFresh, UsagePayload.null] at h

/-- The only note on a quota that was read is the one on the statistics. -/
theorem queryNote_of_read (hfresh : readFresh task responses = true) (hread : readWindows task responses ≠ []) :
    queryNote task responses = responses.stats.getD "" := by
  have hlive := live_of_readFresh hfresh
  have hsome : (readWindows task responses).isEmpty = false := List.isEmpty_eq_false_iff.mpr hread
  rw [queryNote]
  simp only [hsome, staleNote, hlive, Bool.or_true, if_true, Bool.false_eq_true, if_false]
  exact requestNote_of_live hlive

end

/-! ## Windows that are judged -/

section

variable {windows others : List UsageWindow} {window : UsageWindow}

/-- A weekly or a five-hour window is full. -/
def LimitReached (windows : List UsageWindow) : Prop :=
  ∃ window ∈ windows, (isWeekly window = true ∨ isFiveHour window = true) ∧ windowAtCapacity window = true

theorem limitReached_iff : LimitReached windows
    ↔ (weeklyQuotaIsExhausted windows || shortQuotaIsExhausted windows) = true := by
  simp only [LimitReached, weeklyQuotaIsExhausted, shortQuotaIsExhausted, Bool.or_eq_true, List.any_eq_true,
    List.mem_filter]
  constructor
  · rintro ⟨window, hmem, hkind | hkind, hfull⟩
    · exact .inl ⟨window, ⟨hmem, hkind⟩, hfull⟩
    · exact .inr ⟨window, ⟨hmem, hkind⟩, hfull⟩
  · rintro (⟨window, ⟨hmem, hkind⟩, hfull⟩ | ⟨window, ⟨hmem, hkind⟩, hfull⟩)
    · exact ⟨window, hmem, .inl hkind, hfull⟩
    · exact ⟨window, hmem, .inr hkind, hfull⟩

/-- A full weekly or five-hour window blocks the account. -/
theorem exhausted_of_limitReached (h : LimitReached windows) : liveQuotaIsExhausted windows = true := by
  have hlimit := limitReached_iff.mp h
  obtain ⟨window, hmem, -, hfull⟩ := h
  have hsome : windows.isEmpty = false := List.isEmpty_eq_false_iff.mpr (List.ne_nil_of_mem hmem)
  rw [liveQuotaIsExhausted, hsome]
  simp only [Bool.false_eq_true, if_false]
  split
  · exact hlimit
  · exact List.any_eq_true.mpr ⟨window, hmem, hfull⟩

/-- Beside a weekly window nothing else blocks it. -/
theorem exhausted_of_weekly (h : hasWeeklyQuotaWindow windows = true) :
    liveQuotaIsExhausted windows = true ↔ LimitReached windows := by
  have hsome : windows.isEmpty = false := by
    obtain ⟨window, hmem, -⟩ := List.any_eq_true.mp h
    exact List.isEmpty_eq_false_iff.mpr (List.ne_nil_of_mem hmem)
  rw [liveQuotaIsExhausted, hsome, h, limitReached_iff]
  simp

theorem LimitReached.append (h : LimitReached windows) (others : List UsageWindow) :
    LimitReached (windows ++ others) := by
  obtain ⟨window, hmem, hkind, hfull⟩ := h
  exact ⟨window, List.mem_append_left _ hmem, hkind, hfull⟩

/-- A weekly window beside others of which none has reached its limit. -/
theorem exhausted_append_weekly (hweekly : isWeekly window = true) (h : ¬ LimitReached windows) :
    liveQuotaIsExhausted (windows ++ [window]) = windowAtCapacity window := by
  have hhas : hasWeeklyQuotaWindow (windows ++ [window]) = true :=
    List.any_eq_true.mpr ⟨window, List.mem_append_right _ List.mem_cons_self, hweekly⟩
  rw [Bool.eq_iff_iff, exhausted_of_weekly hhas]
  constructor
  · rintro ⟨other, hmem, hkind, hfull⟩
    rcases List.mem_append.mp hmem with hmem | hmem
    · exact absurd ⟨other, hmem, hkind, hfull⟩ h
    · obtain rfl := List.mem_singleton.mp hmem
      exact hfull
  · exact fun hfull => ⟨window, List.mem_append_right _ List.mem_cons_self, .inl hweekly, hfull⟩

end

/-! ## Two caches -/

/-- The evidence and the two decisions. -/
def QueriedAccount.decision (queried : QueriedAccount) : OAuthQuotaEvidence × Bool × Bool :=
  (queried.record.quotaEvidence, queried.recovered, queried.isolated)

section

variable {showAmount : ℚ → String} {clock : Rfc3339} {task : OAuthTask} {responses : AdminResponses}
  {reconcileRecovery : Bool} {windows windows' : List UsageWindow} {cache cache' : UsageCache} {note : String}

/-- A rejected credential decides, whatever the windows. -/
theorem decision_of_rejected (h : credentialRejected note = true) :
    (judgeAccount task responses reconcileRecovery true windows note cache).decision
      = (.unknown, false, false) := by
  have hrecover : maybeRecoverMisdisabledAccount task responses windows true note = false := by
    simp [maybeRecoverMisdisabledAccount, h]
  have hisolate : maybeIsolateExhaustedOAuthAccount task responses windows true note = false := by
    simp [maybeIsolateExhaustedOAuthAccount, h]
  simp [QueriedAccount.decision, judgeAccount, h, hrecover, hisolate, quotaEvidence]

/-- The decisions on windows that were read see only whether they are exhausted. -/
theorem decision_congr (hne : windows ≠ []) (hne' : windows' ≠ [])
    (h : liveQuotaIsExhausted windows = liveQuotaIsExhausted windows') :
    (judgeAccount task responses reconcileRecovery true windows note cache).decision
      = (judgeAccount task responses reconcileRecovery true windows' note cache').decision := by
  have husable : liveQuotaIsUsable windows = liveQuotaIsUsable windows' := by
    rw [liveQuotaIsUsable_eq hne, liveQuotaIsUsable_eq hne', h]
  simp only [QueriedAccount.decision, judgeAccount, maybeRecoverMisdisabledAccount,
    maybeIsolateExhaustedOAuthAccount, quotaEvidence, h, husable]

/-- Only exhausted windows are evidence of it. -/
theorem exhausted_of_quotaEvidence {recovered fresh : Bool}
    (h : quotaEvidence recovered fresh note windows = .exhausted) : liveQuotaIsExhausted windows = true := by
  rw [quotaEvidence] at h
  split at h
  · cases h
  split at h
  · split at h
    · assumption
    · split at h
      · cases h
      · cases h
  · cases h

/-- Exhausted windows that were read are evidence of it. -/
theorem evidence_eq_exhausted_iff (cache : UsageCache) (hne : windows ≠ []) (h : credentialRejected note = false) :
    (judgeAccount task responses reconcileRecovery true windows note cache).record.quotaEvidence = .exhausted
      ↔ liveQuotaIsExhausted windows = true := by
  refine ⟨exhausted_of_quotaEvidence, fun hexhausted => ?_⟩
  have hempty : credentialRejected "" = false := by decide
  have husable : liveQuotaIsUsable windows = false := by rw [liveQuotaIsUsable_eq hne, hexhausted, Bool.not_true]
  have hrecover : maybeRecoverMisdisabledAccount task responses windows true "" = false := by
    simp [maybeRecoverMisdisabledAccount, husable]
  simp [judgeAccount, h, hempty, hrecover, quotaEvidence, hexhausted]

/-- A save keeps at least what was read. -/
theorem savedWindows_eq_append (showAmount : ℚ → String) (cache : UsageCache) (windows : List UsageWindow)
    (key : String) (merge : Bool) :
    ∃ carried, savedWindows showAmount cache key windows merge = windows ++ carried := by
  rw [savedWindows]
  split
  · cases cache.get key with
    | none => exact ⟨[], (List.append_nil _).symm⟩
    | some entry => exact ⟨_, rfl⟩
  · exact ⟨[], (List.append_nil _).symm⟩

/-- There is a window of each kind that none of the others is taken for. -/
theorem exists_fresh_window (windows : List UsageWindow) (usedPercent : Option ℚ) :
    ∃ window : UsageWindow, window.kind = "weekly" ∧ window.usedPercent = usedPercent
      ∧ windowCacheKey showAmount window ∉ windows.map (windowCacheKey showAmount) := by
  let named (n : ℕ) : UsageWindow := ⟨"weekly", String.ofList (List.replicate n 'a'), usedPercent, "", none, ""⟩
  have hinjective : Function.Injective fun n => windowCacheKey showAmount (named n) := by
    intro n m h
    have hlength := congrArg String.length h
    simpa [windowCacheKey, named, toAsciiLowercase] using hlength
  obtain ⟨key, hkey⟩ := exists_searchFresh hinjective
    (Nat.lt_succ_self (windows.map (windowCacheKey showAmount)).length) 0
  obtain ⟨hnew, n, rfl⟩ := searchFresh_spec hkey
  exact ⟨named n, rfl, rfl, hnew⟩

/-- The cache can add a weekly window of any use to the windows that were read. -/
theorem exists_cache_with (key : String) (windows : List UsageWindow) (usedPercent : Option ℚ) :
    ∃ (cache : UsageCache) (window : UsageWindow), window.kind = "weekly" ∧ window.usedPercent = usedPercent
      ∧ savedWindows showAmount cache key windows true = windows ++ [window] := by
  obtain ⟨window, hkind, hused, hnew⟩ := @exists_fresh_window showAmount windows usedPercent
  refine ⟨OrdMap.insert key ⟨"", [window], ""⟩ [], window, hkind, hused, ?_⟩
  rw [savedWindows, if_pos rfl, OrdMap.get_insert_self]
  show windows ++ collectNew (windowCacheKey showAmount) some _ [window] = _
  rw [collectNew]
  simp only [if_neg hnew]
  rw [collectNew]

/-- A query that has read the quota judges the windows that are saved. -/
theorem queryAccount_of_read (hfresh : readFresh task responses = true) (hread : readWindows task responses ≠ [])
    (now : ℤ) :
    queryAccount showAmount clock task responses reconcileRecovery now cache
      = judgeAccount task responses reconcileRecovery true
          (savedWindows showAmount cache task.cacheKey (readWindows task responses)
            (responses.stats.getD "" ≠ "")) (responses.stats.getD "")
          (saveCache showAmount clock cache task.cacheKey (readWindows task responses)
            (responses.stats.getD "" ≠ "") "" now) := by
  have hsome : (readWindows task responses).isEmpty = false := List.isEmpty_eq_false_iff.mpr hread
  rw [queryAccount]
  simp only [hfresh, hsome, queryNote_of_read hfresh hread, Bool.not_false, Bool.and_true, if_true]

/-- When the quota was read, the decision does not depend on the cache if there is no note on
the statistics, if that note rejects the credential, or if a weekly or five-hour window that
was read is full: in no other case. -/
theorem decision_of_read_iff (hfresh : readFresh task responses = true) (hread : readWindows task responses ≠ [])
    (now : ℤ) :
    (∀ cache cache' : UsageCache,
        (queryAccount showAmount clock task responses reconcileRecovery now cache).decision
          = (queryAccount showAmount clock task responses reconcileRecovery now cache').decision)
      ↔ responses.stats.getD "" = "" ∨ credentialRejected (responses.stats.getD "") = true
        ∨ LimitReached (readWindows task responses) := by
  simp only [queryAccount_of_read hfresh hread]
  constructor
  · intro h
    by_contra hnot
    obtain ⟨hnote, hrejected, hlimit⟩ := by simpa only [not_or] using hnot
    have hrejected' : credentialRejected (responses.stats.getD "") = false := by simpa using hrejected
    simp only [hnote, ne_eq, not_false_eq_true, decide_true] at h
    -- one cache adds a weekly window that is full, the other one that is not
    obtain ⟨full, window, hkind, hused, hsaved⟩ :=
      @exists_cache_with showAmount task.cacheKey (readWindows task responses) (some 100)
    obtain ⟨free, window', hkind', hused', hsaved'⟩ :=
      @exists_cache_with showAmount task.cacheKey (readWindows task responses) none
    have hevidence := congrArg Prod.fst (h full free)
    rw [hsaved, hsaved'] at hevidence
    have hne : ∀ window, readWindows task responses ++ [window] ≠ [] := by simp
    have hfull : liveQuotaIsExhausted (readWindows task responses ++ [window]) = true := by
      rw [exhausted_append_weekly (by simp [isWeekly, hkind]) hlimit, windowAtCapacity, hused]
      decide +kernel
    have hfree : liveQuotaIsExhausted (readWindows task responses ++ [window']) = false := by
      rw [exhausted_append_weekly (by simp [isWeekly, hkind']) hlimit, windowAtCapacity, hused']
      rfl
    -- the cache that is left is not part of the evidence
    have hother := (evidence_eq_exhausted_iff [] (hne window') hrejected').mp
      (hevidence.symm.trans ((evidence_eq_exhausted_iff [] (hne window) hrejected').mpr hfull))
    rw [hfree] at hother
    cases hother
  · rintro (hnote | hrejected | hlimit) cache cache'
    · simp only [hnote, ne_eq, not_true_eq_false, decide_false]
      exact decision_congr hread hread rfl
    · rw [decision_of_rejected hrejected, decision_of_rejected hrejected]
    · obtain ⟨carried, hsaved⟩ := savedWindows_eq_append showAmount cache (readWindows task responses)
        task.cacheKey (decide (responses.stats.getD "" ≠ ""))
      obtain ⟨carried', hsaved'⟩ := savedWindows_eq_append showAmount cache' (readWindows task responses)
        task.cacheKey (decide (responses.stats.getD "" ≠ ""))
      rw [hsaved, hsaved']
      apply decision_congr
      · simp [hread]
      · simp [hread]
      · rw [exhausted_of_limitReached (hlimit.append carried), exhausted_of_limitReached (hlimit.append carried')]

end

/-- What a quota that was read is evidence of, and how old a cached window can be. -/
theorem decision_and_age (showAmount : ℚ → String) (clock : Rfc3339) :
    (∀ (task : OAuthTask) (responses : AdminResponses) (reconcileRecovery : Bool) (now : ℤ),
        readFresh task responses = true → readWindows task responses ≠ [] →
        ((∀ cache cache' : UsageCache,
            (queryAccount showAmount clock task responses reconcileRecovery now cache).decision
              = (queryAccount showAmount clock task responses reconcileRecovery now cache').decision)
          ↔ responses.stats.getD "" = "" ∨ credentialRejected (responses.stats.getD "") = true
            ∨ LimitReached (readWindows task responses)))
      ∧ ∀ calls : List CacheCall,
        (∀ now key windows merge note, CacheCall.save now key windows merge note ∈ calls →
          clock.parse (clock.render now) = some now) →
        (∀ front call back, calls = front ++ call :: back →
          NothingCarried showAmount (cacheAfter showAmount clock front) call) →
        ∀ (key provider note : String) (now : ℤ) (usage : ProviderUsage),
          cachedUsage clock (cacheAfter showAmount clock calls) key provider note now = some usage →
          ∀ window ∈ usage.windows, ∃ time, ReportedLive calls key window time ∧ now - time ≤ cacheTtl := by
  constructor
  · intro task responses reconcileRecovery now hfresh hread
    exact decision_of_read_iff hfresh hread now
  · intro calls hnow hnothing key provider note now usage h
    exact reportedLive_of_cachedUsage hnow hnothing h

namespace QueryRun

/-- The times of the runs below. -/
def times : List (String × ℤ) :=
  [("2026-08-12T00:00:00.000Z", midnight), ("2026-08-12T05:00:00.000Z", midnight + minutes 300)]

def clock : Rfc3339 := .ofTable times

/-- No window of the runs has an amount. -/
def showAmount : ℚ → String := fun _ => ""

def weekly (percent : ℚ) : UsageWindow := ⟨"weekly", "", some percent, "", none, ""⟩

def fiveHour (percent : ℚ) : UsageWindow := ⟨"fiveHour", "", some percent, "", none, ""⟩

def task : OAuthTask := ⟨1, "openai", "active", some true, "", "", none, true⟩

/-- The quota is read and gives the five-hour window only. -/
def responses (stats : Option String) : AdminResponses where
  stats := stats
  usage := .ok ⟨false, none, "", "", none, [fiveHour 20], [], []⟩
  recoverState := none
  schedulable := true

/-- The statistics are not available. -/
def statsFailed : AdminResponses := responses (some "class=upstream http=502 path=/api/v1/admin/accounts/1/stats")

/-- A cache whose weekly window is full. -/
def weeklyFull : UsageCache := OrdMap.insert task.cacheKey ⟨"2026-08-12T00:00:00.000Z", [weekly 100], ""⟩ []

/-- Two queries five hours apart: the first reads the weekly window, the second one does not
and merges. -/
def merged : List CacheCall :=
  [.save midnight "key" [weekly 30] false "", .save (midnight + minutes 300) "key" [fiveHour 20] true ""]

/-- With the statistics the decision is the same with any two caches, and what is saved without
merging is shown at its own age. -/
theorem decision_and_age_read :
    (∀ cache cache' : UsageCache, (queryAccount showAmount clock task (responses none) true midnight cache).decision
        = (queryAccount showAmount clock task (responses none) true midnight cache').decision)
      ∧ ∀ window ∈ [weekly 30], ∃ time,
        ReportedLive [.save midnight "key" [weekly 30] false ""] "key" window time
          ∧ midnight + minutes 300 - time ≤ cacheTtl := by
  obtain ⟨hdecision, hage⟩ := decision_and_age showAmount clock
  constructor
  · exact (hdecision task (responses none) true midnight (by decide +kernel) (by decide +kernel)).mpr (.inl rfl)
  · refine hage [.save midnight "key" [weekly 30] false ""] ?_ ?_ "key" "openai" "" (midnight + minutes 300)
      ⟨"openai", [weekly 30], " Last successful refresh: 2026-08-12T00:00:00.000Z.", true⟩ (by decide +kernel)
    · intro now key windows merge note h
      cases List.mem_singleton.mp h
      decide +kernel
    · intro front call back h
      cases front with
      | nil =>
        obtain rfl : call = _ := (List.cons.inj h).1.symm
        exact fun hmerge => by cases hmerge
      | cons first rest => simp at h

/-- Without the statistics a cached window decides, and merging shows a window that was last
read ten hours before. -/
theorem decision_and_age_merged :
    readFresh task statsFailed = true ∧ readWindows task statsFailed ≠ []
      ∧ (queryAccount showAmount clock task statsFailed true (midnight + minutes 300) []).decision
        = (.usable, false, false)
      ∧ (queryAccount showAmount clock task statsFailed true (midnight + minutes 300) weeklyFull).decision
        = (.exhausted, false, true)
      ∧ ∃ usage, cachedUsage clock (cacheAfter showAmount clock merged) "key" "openai" "" (midnight + minutes 600)
          = some usage
        ∧ weekly 30 ∈ usage.windows
        ∧ ∀ time, ReportedLive merged "key" (weekly 30) time → cacheTtl < midnight + minutes 600 - time := by
  refine ⟨by decide +kernel, by decide +kernel, by decide +kernel, by decide +kernel,
    ⟨"openai", [fiveHour 20, weekly 30], " Last successful refresh: 2026-08-12T05:00:00.000Z.", true⟩,
    by decide +kernel, List.mem_cons_of_mem _ List.mem_cons_self, ?_⟩
  rintro time ⟨windows, merge, note, hcall, hwindow⟩
  rcases List.mem_cons.mp hcall with h | h
  · cases h
    decide
  · cases List.mem_singleton.mp h
    exact absurd hwindow (by decide +kernel)

end QueryRun

end CodexRouter
