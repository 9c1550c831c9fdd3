/-
# The recovery of isolated accounts

`reconcile_oauth_recovery_observations` runs behind every usage query.  It takes exhausted
accounts out of the pool, notes when it did so and when their quota is said to be reset,
and puts them back.  A run is a list of such passes over one store of notes.

An account has at most one note, whatever the passes (`onePerAccount_storedAfter`), and
`recovers_iff` says which accounts are put back after five hours.
-/
import CodexRouter.QuotaWindows
import Mathlib.Data.List.Perm.Basic
import Mathlib.Data.List.Sort
import Mathlib.Data.String.Basic

namespace CodexRouter

open Text

/-! ## The notes -/

/-- `OAuthRecoveryObservation`. -/
structure OAuthRecoveryObservation where
  accountId : ℤ
  exhausted : Bool
  observedAt : String
  lastProbeAt : String
  nextProbeAt : String
  resetAt : String
  recentError : String
  deriving DecidableEq, Repr

/-- `OAuthRecoveryDirective`. -/
inductive OAuthRecoveryDirective where
  | none
  | isolate
  | recover
  deriving DecidableEq, Repr

/-- `OAUTH_UNKNOWN_MAX_ISOLATION`. -/
def oauthUnknownMaxIsolation : ℤ := minutes 300

/-- The first note on an account. -/
def findObservation (observations : List OAuthRecoveryObservation) (id : ℤ) :
    Option OAuthRecoveryObservation :=
  observations.find? (·.accountId = id)

/-- Remove the first note on an account. -/
def removeObservation (id : ℤ) (observations : List OAuthRecoveryObservation) :
    List OAuthRecoveryObservation :=
  observations.eraseP (·.accountId = id)

/-- Replace the first note on an account. -/
def replaceObservation (entry : OAuthRecoveryObservation) :
    List OAuthRecoveryObservation → List OAuthRecoveryObservation
  | [] => []
  | e :: rest => if e.accountId = entry.accountId then entry :: rest else e :: replaceObservation entry rest

/-- How the service answers in a pass: whether the calls that isolate and recover an account
succeed, and whether the notes can be written. -/
structure AdminAnswers where
  isolate : ℤ → Bool
  recover : ℤ → Bool
  writes : Bool

/-! ## A pass -/

section

variable (clock : Rfc3339)

/-- `oauth_recovery_directive`. -/
def oauthRecoveryDirective (evidence : OAuthQuotaEvidence) (currentlyIsolated : Bool) (observedAt : String)
    (quotaResetConfirmed : Bool) (now : ℤ) : OAuthRecoveryDirective :=
  match evidence with
  | .usable =>
    if currentlyIsolated then
      let stableLongEnough := (clock.parse observedAt).any fun started => minutes 10 ≤ now - started
      if stableLongEnough && quotaResetConfirmed then .recover else .isolate
    else .none
  | .exhausted => .isolate
  | .unknown =>
    if observedAt = "" then .none
    else
      let expired := (clock.parse observedAt).any fun started => oauthUnknownMaxIsolation ≤ now - started
      if expired then .recover else .isolate

/-- The latest reset that any window reports. -/
def currentResetAt (windows : List UsageWindow) : String :=
  ((windows.map fun window => trim window.resetAt).filter (· ≠ "")).max?.getD ""

/-- A noted reset is past, or the account reports another one. -/
def quotaResetConfirmed (entry : OAuthRecoveryObservation) (windows : List UsageWindow) (now : ℤ) : Bool :=
  if trim entry.resetAt = "" then false
  else
    let resetElapsed := (clock.parse entry.resetAt).any fun reset => reset ≤ now
    resetElapsed || (currentResetAt windows ≠ "" && currentResetAt windows ≠ entry.resetAt)

/-- The windows at capacity that report a reset. -/
def fullWindows (windows : List UsageWindow) : List UsageWindow :=
  windows.filter fun window => windowAtCapacity window && window.resetAt ≠ ""

/-- The reset that is noted of an account. -/
def notedResetAt (windows : List UsageWindow) (previous : Option OAuthRecoveryObservation) : String :=
  (((fullWindows windows).map (·.resetAt)).max?.or (previous.map (·.resetAt))).getD ""

/-- The note on an isolated account. -/
def isolatedObservation (now : ℤ) (record : AccountRecord) (previous : Option OAuthRecoveryObservation) :
    OAuthRecoveryObservation where
  accountId := record.account.id
  exhausted := record.quotaEvidence = .exhausted
  observedAt := ((previous.map (·.observedAt)).filter (· ≠ "")).getD (clock.render now)
  lastProbeAt := clock.render now
  nextProbeAt := clock.render
    (now + if record.quotaEvidence = .exhausted then oauthUnknownMaxIsolation else minutes 10)
  resetAt := notedResetAt record.account.windows previous
  recentError := if record.quotaEvidence = .unknown then "quota_unavailable" else ""

/-- The accounts that a pass looks at. -/
def AccountRecord.isActive (record : AccountRecord) : Bool :=
  record.account.kind = "oauth" && record.account.status ≠ "disabled" && record.autoIsolateOnExhaustion

/-- What a pass decides on an account. -/
def directiveOf (now : ℤ) (observations : List OAuthRecoveryObservation) (record : AccountRecord) :
    OAuthRecoveryDirective :=
  let previous := findObservation observations record.account.id
  let currentlyIsolated := record.account.status = "error" || record.account.health = "quotaExhausted"
    || record.account.health = "cooldown" || contains record.account.statusDetail "fallback"
    || previous.isSome || (record.quotaEvidence = .unknown && previous.isSome)
  oauthRecoveryDirective clock record.quotaEvidence currentlyIsolated ((previous.map (·.observedAt)).getD "")
    (previous.any fun entry => quotaResetConfirmed clock entry record.account.windows now) now

/-- What a pass carries from one account to the next: the notes, whether they have changed,
and whether the routing has. -/
structure ReconcilePass where
  observations : List OAuthRecoveryObservation
  observationsChanged : Bool
  routingChanged : Bool
  deriving DecidableEq, Repr

/-- One account of a pass. -/
def reconcileRecord (now : ℤ) (answers : AdminAnswers) (s : ReconcilePass) (record : AccountRecord) :
    ReconcilePass × AccountRecord :=
  let id := record.account.id
  let previous := findObservation s.observations id
  match directiveOf clock now s.observations record with
  | .none =>
    if previous.isSome then
      ({ s with observations := removeObservation id s.observations, observationsChanged := true }, record)
    else (s, record)
  | .isolate =>
    let stillInPool := record.account.status ≠ "error" && record.account.status ≠ "disabled"
      && !contains (toAsciiLowercase record.account.statusDetail) "fallback"
    let flipped := stillInPool && answers.isolate id
    let account := if flipped then
        { record.account with
          health := "quotaExhausted"
          statusDetail := "OAuth quota is unavailable; matching API fallback remains active." }
      else record.account
    let entry := isolatedObservation clock now record previous
    ({ observations := if previous.isSome then replaceObservation entry s.observations
          else s.observations ++ [entry]
       observationsChanged := s.observationsChanged || previous ≠ some entry
       routingChanged := s.routingChanged || flipped }, { record with account := account })
  | .recover =>
    if answers.recover id then
      let note := if record.quotaEvidence = .unknown then
          appendNote record.account.queryNote
            "OAuth isolation reached its five-hour safety limit; the account was restored."
        else record.account.queryNote
      ({ observations := removeObservation id s.observations
         observationsChanged := true
         routingChanged := true },
        { record with account := { record.account with
            status := "active", health := "healthy", statusDetail := "", queryNote := note } })
    else (s, record)

/-- The accounts of a pass, one after the other. -/
def reconcileRecords (now : ℤ) (answers : AdminAnswers) (s : ReconcilePass) :
    List AccountRecord → ReconcilePass × List AccountRecord
  | [] => (s, [])
  | record :: rest =>
    let first := if record.isActive then reconcileRecord clock now answers s record else (s, record)
    let last := reconcileRecords now answers first.1 rest
    (last.1, first.2 :: last.2)

/-- `retain_active_oauth_recovery_observations`. -/
def retainActive (records : List AccountRecord) (observations : List OAuthRecoveryObservation) :
    List OAuthRecoveryObservation :=
  observations.filter fun entry =>
    records.any fun record => record.isActive && record.account.id = entry.accountId

/-- `sort_by_key` with the account as key. -/
def sortByAccount (observations : List OAuthRecoveryObservation) : List OAuthRecoveryObservation :=
  observations.insertionSort fun e f => e.accountId ≤ f.accountId

/-- A usage query: when it takes place, the accounts it found and the answers it gets. -/
structure Pass where
  now : ℤ
  records : List AccountRecord
  answers : AdminAnswers

/-- A pass before its first account. -/
def Pass.start (pass : Pass) (stored : List OAuthRecoveryObservation) : ReconcilePass where
  observations := retainActive pass.records stored
  observationsChanged := (retainActive pass.records stored).length ≠ stored.length
  routingChanged := pass.records.any (·.routingChanged)

/-- What a pass leaves: the stored notes, the accounts, and whether the routing has changed. -/
structure ReconcileResult where
  stored : List OAuthRecoveryObservation
  records : List AccountRecord
  routingChanged : Bool
  deriving DecidableEq, Repr

/-- The notes of a pass are written. -/
def Pass.writes (pass : Pass) (stored : List OAuthRecoveryObservation) : Bool :=
  (reconcileRecords clock pass.now pass.answers (pass.start stored) pass.records).1.observationsChanged
    && pass.answers.writes

/-- `reconcile_oauth_recovery_observations`. -/
def reconcileOAuthRecoveryObservations (stored : List OAuthRecoveryObservation) (pass : Pass) :
    ReconcileResult :=
  let last := reconcileRecords clock pass.now pass.answers (pass.start stored) pass.records
  { stored := if pass.writes clock stored then sortByAccount last.1.observations else stored
    records := last.2
    routingChanged := last.1.routingChanged }

/-- The notes that are stored after some passes. -/
def storedAfter (passes : List Pass) : List OAuthRecoveryObservation :=
  passes.foldl (fun stored pass => (reconcileOAuthRecoveryObservations clock stored pass).stored) []

/-- What a pass has reached behind some of its accounts. -/
def Pass.behind (pass : Pass) (stored : List OAuthRecoveryObservation) (front : List AccountRecord) :
    ReconcilePass :=
  (reconcileRecords clock pass.now pass.answers (pass.start stored) front).1

end

/-! ## At most one note on an account -/

section

variable {observations others : List OAuthRecoveryObservation} {entry : OAuthRecoveryObservation} {id : ℤ}

/-- No account has two notes. -/
def OnePerAccount (observations : List OAuthRecoveryObservation) : Prop :=
  (observations.map (·.accountId)).Nodup

theorem findObservation_cons (e : OAuthRecoveryObservation) (id : ℤ) :
    findObservation (e :: observations) id
      = if e.accountId = id then some e else findObservation observations id := by
  rw [findObservation, List.find?_cons]
  by_cases h : e.accountId = id
  · simp [h]
  · simp [h, findObservation]

theorem findObservation_eq_none_iff :
    findObservation observations id = none ↔ id ∉ observations.map (·.accountId) := by
  simp [findObservation]

/-- With one note for each account, the note that is found is the note that is there. -/
theorem findObservation_eq_some_iff (hone : OnePerAccount observations) :
    findObservation observations id = some entry ↔ entry ∈ observations ∧ entry.accountId = id := by
  induction observations with
  | nil => simp [findObservation]
  | cons e rest ih =>
    obtain ⟨hnew, hrest⟩ := List.nodup_cons.mp hone
    rw [findObservation_cons]
    split
    · rename_i hid
      constructor
      · intro h
        obtain rfl := Option.some.inj h
        exact ⟨List.mem_cons_self, hid⟩
      · rintro ⟨hmem, hentry⟩
        rcases List.mem_cons.mp hmem with rfl | hmem
        · rfl
        exact absurd (List.mem_map.mpr ⟨entry, hmem, hentry.trans hid.symm⟩) hnew
    · rename_i hid
      rw [ih hrest]
      constructor
      · rintro ⟨hmem, hentry⟩
        exact ⟨List.mem_cons_of_mem _ hmem, hentry⟩
      · rintro ⟨hmem, hentry⟩
        rcases List.mem_cons.mp hmem with rfl | hmem
        · exact absurd hentry hid
        · exact ⟨hmem, hentry⟩

theorem OnePerAccount.perm (hone : OnePerAccount observations) (hperm : others.Perm observations) :
    OnePerAccount others :=
  (hperm.map _).nodup_iff.mpr hone

/-- The order of the notes does not matter. -/
theorem findObservation_perm (hone : OnePerAccount observations) (hperm : others.Perm observations) :
    findObservation others id = findObservation observations id := by
  ext e
  rw [findObservation_eq_some_iff (hone.perm hperm), findObservation_eq_some_iff hone, hperm.mem_iff]

theorem OnePerAccount.remove (hone : OnePerAccount observations) :
    OnePerAccount (removeObservation id observations) :=
  List.Nodup.sublist (List.eraseP_sublist.map _) hone

/-- A note that is removed is gone, since there is no other one. -/
theorem findObservation_remove (hone : OnePerAccount observations) (j : ℤ) :
    findObservation (removeObservation id observations) j
      = if j = id then none else findObservation observations j := by
  induction observations with
  | nil => simp [findObservation, removeObservation]
  | cons e rest ih =>
    obtain ⟨hnew, hrest⟩ := List.nodup_cons.mp hone
    by_cases hid : e.accountId = id
    · rw [removeObservation, List.eraseP_cons_of_pos (by simpa using hid), findObservation_cons, hid]
      split
      · rename_i hj
        rw [findObservation_eq_none_iff, hj, ← hid]
        exact hnew
      · rename_i hj
        rw [if_neg fun h => hj h.symm]
    · rw [removeObservation, List.eraseP_cons_of_neg (by simpa using hid), findObservation_cons,
        findObservation_cons, ← removeObservation, ih hrest]
      split
      · rename_i hj
        rw [if_neg fun h => hid (hj.trans h)]
      · rfl

@[simp] theorem map_accountId_replaceObservation :
    (replaceObservation entry observations).map (·.accountId) = observations.map (·.accountId) := by
  induction observations with
  | nil => rfl
  | cons e rest ih =>
    rw [replaceObservation]
    split
    · rename_i hid
      rw [List.map_cons, List.map_cons, hid]
    · rw [List.map_cons, List.map_cons, ih]

theorem findObservation_replace (hsome : (findObservation observations entry.accountId).isSome) (j : ℤ) :
    findObservation (replaceObservation entry observations) j
      = if j = entry.accountId then some entry else findObservation observations j := by
  induction observations with
  | nil => simp [findObservation] at hsome
  | cons e rest ih =>
    rw [findObservation_cons] at hsome
    rw [replaceObservation]
    by_cases hid : e.accountId = entry.accountId
    · rw [if_pos hid, findObservation_cons, findObservation_cons, hid]
      simp only [eq_comm (a := j)]
      split
      · rfl
      · rfl
    · rw [if_neg hid, findObservation_cons, findObservation_cons]
      rw [if_neg hid] at hsome
      rw [ih hsome]
      split
      · rename_i hj
        rw [if_neg fun h => hid (hj.trans h)]
      · rfl

theorem findObservation_append (hnone : findObservation observations entry.accountId = none) (j : ℤ) :
    findObservation (observations ++ [entry]) j
      = if j = entry.accountId then some entry else findObservation observations j := by
  rw [findObservation, List.find?_append, ← findObservation, ← findObservation, findObservation_cons]
  by_cases hj : j = entry.accountId
  · rw [if_pos hj, hj, hnone, if_pos rfl, Option.none_or]
  · rw [if_neg hj, if_neg fun h => hj h.symm, findObservation, findObservation, List.find?_nil, Option.or_none]

/-- A note is written, over the one that was there or behind the others. -/
theorem findObservation_write (j : ℤ) :
    findObservation (if (findObservation observations entry.accountId).isSome
        then replaceObservation entry observations else observations ++ [entry]) j
      = if j = entry.accountId then some entry else findObservation observations j := by
  split
  · rename_i h
    exact findObservation_replace h j
  · rename_i h
    exact findObservation_append (by simpa using h) j

theorem OnePerAccount.write (hone : OnePerAccount observations) :
    OnePerAccount (if (findObservation observations entry.accountId).isSome
      then replaceObservation entry observations else observations ++ [entry]) := by
  split
  · rw [OnePerAccount, map_accountId_replaceObservation]
    exact hone
  · rename_i h
    have hnew : entry.accountId ∉ observations.map (·.accountId) :=
      findObservation_eq_none_iff.mp (by simpa using h)
    rw [OnePerAccount, List.map_append, List.nodup_append]
    refine ⟨hone, List.nodup_singleton _, ?_⟩
    rintro a ha b hb rfl
    obtain rfl : a = entry.accountId := List.mem_singleton.mp hb
    exact hnew ha

theorem OnePerAccount.retain (hone : OnePerAccount observations) (records : List AccountRecord) :
    OnePerAccount (retainActive records observations) :=
  List.Nodup.sublist (List.filter_sublist.map _) hone

/-- The note on an account is kept when the account is looked at. -/
theorem findObservation_retain (records : List AccountRecord) (j : ℤ) :
    findObservation (retainActive records observations) j
      = if records.any fun record => record.isActive && record.account.id = j
        then findObservation observations j else none := by
  induction observations with
  | nil => simp [retainActive, findObservation]
  | cons e rest ih =>
    rw [retainActive, List.filter_cons, ← retainActive]
    by_cases hj : e.accountId = j
    · subst hj
      rw [findObservation_cons, if_pos rfl]
      split
      · rw [findObservation_cons, if_pos rfl]
      · rename_i hkeep
        rw [ih, if_neg hkeep]
    · rw [findObservation_cons, if_neg hj, ← ih]
      split
      · rw [findObservation_cons, if_neg hj]
      · rfl

end

/-! ## What a pass keeps -/

section

variable {clock : Rfc3339} {now : ℤ} {answers : AdminAnswers} {s : ReconcilePass} {record : AccountRecord}

/-- One account changes the note on that account, at most. -/
theorem findObservation_reconcileRecord (hone : OnePerAccount s.observations) (j : ℤ) :
    findObservation (reconcileRecord clock now answers s record).1.observations j
      = if j = record.account.id then
          match directiveOf clock now s.observations record with
          | .none => none
          | .isolate => some (isolatedObservation clock now record (findObservation s.observations j))
          | .recover => if answers.recover j then none else findObservation s.observations j
        else findObservation s.observations j := by
  rw [reconcileRecord]
  cases hdirective : directiveOf clock now s.observations record with
  | none =>
    simp only
    split
    · exact findObservation_remove hone j
    · rename_i hnone
      split
      · rename_i hj
        rw [hj]
        simpa using hnone
      · rfl
  | isolate =>
    -- the note that is written is the one on this account
    refine (@findObservation_write s.observations (isolatedObservation clock now record
      (findObservation s.observations record.account.id)) j).trans ?_
    show (if j = record.account.id then _ else _) = _
    split
    · rename_i hj
      rw [hj]
    · rfl
  | recover =>
    simp only
    by_cases hj : j = record.account.id
    · rw [if_pos hj, hj]
      split
      · rw [findObservation_remove hone, if_pos rfl]
      · rfl
    · rw [if_neg hj]
      split
      · rw [findObservation_remove hone, if_neg hj]
      · rfl

theorem OnePerAccount.reconcileRecord (hone : OnePerAccount s.observations) :
    OnePerAccount (reconcileRecord clock now answers s record).1.observations := by
  rw [CodexRouter.reconcileRecord]
  cases directiveOf clock now s.observations record with
  | none =>
    simp only
    split
    · exact hone.remove
    · exact hone
  | isolate =>
    exact @OnePerAccount.write s.observations (isolatedObservation clock now record
      (findObservation s.observations record.account.id)) hone
  | recover =>
    simp only
    split
    · exact hone.remove
    · exact hone

/-- The first account of a pass, then the others. -/
theorem reconcileRecords_cons (rest : List AccountRecord) :
    (reconcileRecords clock now answers s (record :: rest)).1
      = (reconcileRecords clock now answers
          (if record.isActive then (reconcileRecord clock now answers s record).1 else s) rest).1 := by
  rw [reconcileRecords]
  split
  · rfl
  · rfl

theorem reconcileRecords_append (front back : List AccountRecord) :
    (reconcileRecords clock now answers s (front ++ back)).1
      = (reconcileRecords clock now answers (reconcileRecords clock now answers s front).1 back).1 := by
  induction front generalizing s with
  | nil => rfl
  | cons record rest ih => rw [List.cons_append, reconcileRecords_cons, reconcileRecords_cons, ih]

/-- What holds before the accounts of a pass and is kept by each of them holds behind them. -/
theorem reconcileRecords_invariant {I : ReconcilePass → Prop}
    (hstep : ∀ s record, record.isActive = true → I s → I (reconcileRecord clock now answers s record).1)
    (records : List AccountRecord) (hs : I s) : I (reconcileRecords clock now answers s records).1 := by
  induction records generalizing s with
  | nil => exact hs
  | cons record rest ih =>
    rw [reconcileRecords_cons]
    split
    · rename_i hactive
      exact ih (hstep s record hactive hs)
    · exact ih hs

theorem OnePerAccount.behind {stored : List OAuthRecoveryObservation} (hone : OnePerAccount stored)
    (pass : Pass) (front : List AccountRecord) :
    OnePerAccount (pass.behind clock stored front).observations :=
  reconcileRecords_invariant (I := fun s => OnePerAccount s.observations)
    (fun _ _ _ hs => hs.reconcileRecord) front (hone.retain pass.records)

/-- Whatever the passes, no account has two notes. -/
theorem onePerAccount_storedAfter (passes : List Pass) : OnePerAccount (storedAfter clock passes) := by
  rw [storedAfter]
  induction passes using List.reverseRecOn with
  | nil => exact List.nodup_nil
  | append_singleton passes pass ih =>
    rw [List.foldl_append, List.foldl_cons, List.foldl_nil, reconcileOAuthRecoveryObservations]
    simp only
    split
    · exact (ih.behind pass pass.records).perm (List.perm_insertionSort _ _)
    · exact ih

end

/-! ## The safety limit of five hours -/

/-- A window whose reset is the latest that the account reports. -/
def ReportsLatest (windows : List UsageWindow) (window : UsageWindow) : Prop :=
  window ∈ windows ∧ trim window.resetAt ≠ ""
    ∧ ∀ other ∈ windows, trim other.resetAt ≤ trim window.resetAt

/-- The reset of a note is past, or another one is the latest that the account reports. -/
def ResetSeen (clock : Rfc3339) (entry : OAuthRecoveryObservation) (windows : List UsageWindow) (now : ℤ) : Prop :=
  (∃ reset, clock.parse entry.resetAt = some reset ∧ reset ≤ now)
    ∨ ∃ window, ReportsLatest windows window ∧ trim window.resetAt ≠ entry.resetAt

section

variable {clock : Rfc3339} {windows : List UsageWindow} {window : UsageWindow}
  {entry : OAuthRecoveryObservation} {now : ℤ}

theorem currentResetAt_eq (h : ReportsLatest windows window) : currentResetAt windows = trim window.resetAt := by
  obtain ⟨hmem, hne, hle⟩ := h
  have hmax : ((windows.map fun window => trim window.resetAt).filter (· ≠ "")).max?
      = some (trim window.resetAt) := by
    rw [List.max?_eq_some_iff]
    constructor
    · exact List.mem_filter.mpr ⟨List.mem_map.mpr ⟨window, hmem, rfl⟩, by simpa using hne⟩
    · intro text htext
      obtain ⟨other, hother, rfl⟩ := List.mem_map.mp (List.mem_filter.mp htext).1
      exact hle other hother
  rw [currentResetAt, hmax, Option.getD_some]

theorem exists_latest (h : currentResetAt windows ≠ "") : ∃ window, ReportsLatest windows window := by
  rw [currentResetAt] at h
  cases hmax : ((windows.map fun window => trim window.resetAt).filter (· ≠ "")).max? with
  | none =>
    rw [hmax] at h
    exact absurd rfl h
  | some text =>
    obtain ⟨htext, hle⟩ := List.max?_eq_some_iff.mp hmax
    obtain ⟨hmap, hne⟩ := List.mem_filter.mp htext
    obtain ⟨window, hmem, rfl⟩ := List.mem_map.mp hmap
    refine ⟨window, hmem, by simpa using hne, fun other hother => ?_⟩
    by_cases hblank : trim other.resetAt = ""
    · rw [hblank, ← not_lt, String.lt_iff_toList_lt]
      exact List.not_lt_nil _
    · exact hle _ (List.mem_filter.mpr ⟨List.mem_map.mpr ⟨other, hother, rfl⟩, by simpa using hblank⟩)

/-- A note is confirmed when it gives a reset and that reset is seen. -/
theorem quotaResetConfirmed_iff :
    quotaResetConfirmed clock entry windows now = true
      ↔ trim entry.resetAt ≠ "" ∧ ResetSeen clock entry windows now := by
  rw [quotaResetConfirmed]
  split
  · rename_i hblank
    simp [hblank]
  rename_i hblank
  simp only [Bool.or_eq_true, Option.any_eq_true, decide_eq_true_eq, Bool.and_eq_true]
  rw [ResetSeen, and_iff_right hblank]
  apply or_congr Iff.rfl
  constructor
  · rintro ⟨hcurrent, hdiffers⟩
    obtain ⟨window, hlatest⟩ := exists_latest hcurrent
    exact ⟨window, hlatest, currentResetAt_eq hlatest ▸ hdiffers⟩
  · rintro ⟨window, hlatest, hdiffers⟩
    rw [currentResetAt_eq hlatest]
    exact ⟨hlatest.2.1, hdiffers⟩

/-- An account with a note is given back on unknown evidence after five hours, and on usable
evidence after ten minutes when its note is confirmed. -/
theorem directiveOf_eq_recover_iff {observations : List OAuthRecoveryObservation} {record : AccountRecord}
    {started : ℤ} (hempty : clock.parse "" = none)
    (hentry : findObservation observations record.account.id = some entry)
    (hstarted : clock.parse entry.observedAt = some started) :
    directiveOf clock now observations record = .recover
      ↔ record.quotaEvidence = .usable ∧ minutes 10 ≤ now - started
            ∧ quotaResetConfirmed clock entry record.account.windows now = true
          ∨ record.quotaEvidence = .unknown ∧ oauthUnknownMaxIsolation ≤ now - started := by
  have hobserved : entry.observedAt ≠ "" := by
    intro h
    rw [h, hempty] at hstarted
    cases hstarted
  rw [directiveOf]
  simp only [hentry, Option.isSome_some, Option.map_some, Option.getD_some, Option.any_some, Bool.or_true,
    Bool.true_or]
  cases record.quotaEvidence with
  | usable => simp [oauthRecoveryDirective, hstarted]
  | exhausted => simp [oauthRecoveryDirective]
  | unknown => simp [oauthRecoveryDirective, hobserved, hstarted]

end

/-- Five hours after the first note, an account that is not exhausted is put back and its note
is dropped if its quota is unknown, or if the reset that the note gives is seen. -/
theorem recovers_iff {clock : Rfc3339} (hempty : clock.parse "" = none) (passes : List Pass) {now : ℤ}
    {front back : List AccountRecord} {record : AccountRecord} {answers : AdminAnswers}
    {entry : OAuthRecoveryObservation} {started : ℤ}
    (hactive : record.isActive = true)
    (hentry : findObservation ((Pass.mk now (front ++ record :: back) answers).behind clock
      (storedAfter clock passes) front).observations record.account.id = some entry)
    (hstarted : clock.parse entry.observedAt = some started)
    (hlong : started + oauthUnknownMaxIsolation ≤ now)
    (hevidence : record.quotaEvidence ≠ .exhausted)
    (hreset : record.quotaEvidence = .usable → trim entry.resetAt ≠ "") :
    (directiveOf clock now ((Pass.mk now (front ++ record :: back) answers).behind clock
          (storedAfter clock passes) front).observations record = .recover
        ∧ (answers.recover record.account.id = true →
          findObservation ((Pass.mk now (front ++ record :: back) answers).behind clock
            (storedAfter clock passes) (front ++ [record])).observations record.account.id = none))
      ↔ record.quotaEvidence = .unknown ∨ ResetSeen clock entry record.account.windows now := by
  have hone : OnePerAccount ((Pass.mk now (front ++ record :: back) answers).behind clock
      (storedAfter clock passes) front).observations :=
    (onePerAccount_storedAfter passes).behind _ front
  have hafter : (Pass.mk now (front ++ record :: back) answers).behind clock (storedAfter clock passes)
        (front ++ [record])
      = (reconcileRecord clock now answers ((Pass.mk now (front ++ record :: back) answers).behind clock
        (storedAfter clock passes) front) record).1 := by
    rw [Pass.behind, reconcileRecords_append, reconcileRecords_cons, if_pos hactive]
    rfl
  have hdropped : directiveOf clock now ((Pass.mk now (front ++ record :: back) answers).behind clock
        (storedAfter clock passes) front).observations record = .recover →
      answers.recover record.account.id = true →
      findObservation ((Pass.mk now (front ++ record :: back) answers).behind clock
        (storedAfter clock passes) (front ++ [record])).observations record.account.id = none := by
    intro hrecover hanswer
    rw [hafter, findObservation_reconcileRecord hone, if_pos rfl, hrecover]
    exact if_pos hanswer
  have hlimit : oauthUnknownMaxIsolation ≤ now - started := by omega
  have hstable : minutes 10 ≤ now - started := by
    simp only [oauthUnknownMaxIsolation, minutes] at hlimit ⊢
    omega
  rw [and_iff_left_of_imp hdropped, directiveOf_eq_recover_iff hempty hentry hstarted, quotaResetConfirmed_iff]
  cases hcase : record.quotaEvidence with
  | usable => simp [hstable, hreset hcase]
  | exhausted => exact absurd hcase hevidence
  | unknown => simp [hlimit]

namespace RecoveryRun

/-- The times of the runs below. -/
def times : List (String × ℤ) :=
  [("2026-08-12T00:00:00.000Z", midnight), ("2026-08-12T00:10:00.000Z", midnight + minutes 10),
   ("2026-08-12T04:00:00Z", midnight + minutes 240), ("2026-08-12T05:00:00.000Z", midnight + minutes 300),
   ("2026-08-17T00:00:00Z", midnight + minutes 7200)]

def clock : Rfc3339 := .ofTable times

/-- A window of which so much is used. -/
def window (kind resetAt : String) (percent : ℚ) : UsageWindow where
  kind := kind
  displayName := kind
  usedPercent := some percent
  resetAt := resetAt
  limitAmount := none
  currency := ""

/-- The account 1 as a usage query finds it. -/
def found (windows : List UsageWindow) (evidence : OAuthQuotaEvidence) : AccountRecord where
  account :=
    { id := 1, kind := "oauth", status := "active", health := "healthy", statusDetail := "", queryNote := ""
      windows := windows }
  quotaEvidence := evidence
  autoIsolateOnExhaustion := true
  routingChanged := false

/-- Every call succeeds. -/
def answers : AdminAnswers := ⟨fun _ => true, fun _ => true, true⟩

/-- A usage query that finds the account 1. -/
def query (now : ℤ) (windows : List UsageWindow) (evidence : OAuthQuotaEvidence) : Pass :=
  ⟨now, [found windows evidence], answers⟩

/-- The weekly window, which resets in five days. -/
def weekly (percent : ℚ) : UsageWindow := window "weekly" "2026-08-17T00:00:00Z" percent

/-- The note on an account whose weekly window is full. -/
def noted : OAuthRecoveryObservation where
  accountId := 1
  exhausted := true
  observedAt := "2026-08-12T00:00:00.000Z"
  lastProbeAt := "2026-08-12T00:00:00.000Z"
  nextProbeAt := "2026-08-12T05:00:00.000Z"
  resetAt := "2026-08-17T00:00:00Z"
  recentError := ""

/-- The account as it is found with the note in the store. -/
theorem find_noted (evidence : OAuthQuotaEvidence) (windows : List UsageWindow) :
    findObservation ((query (midnight + minutes 300) windows evidence).behind clock
        (storedAfter clock [query midnight [weekly 100] .exhausted]) []).observations 1 = some noted := by
  have hstored : storedAfter clock [query midnight [weekly 100] .exhausted] = [noted] := by decide +kernel
  rw [hstored, Pass.behind, reconcileRecords]
  rfl

/-- An account whose quota stays unknown is back after five hours. -/
theorem recovers_unknown :
    directiveOf clock (midnight + minutes 300) ((query (midnight + minutes 300) [] .unknown).behind clock
        (storedAfter clock [query midnight [weekly 100] .exhausted]) []).observations (found [] .unknown)
      = .recover := by
  have hrecovers := (@recovers_iff clock (by decide) [query midnight [weekly 100] .exhausted]
    (midnight + minutes 300) [] [] (found [] .unknown) answers noted midnight (by decide)
    (find_noted .unknown []) (by decide +kernel) (by decide) (by decide) (fun h => by cases h)).mpr (.inl rfl)
  exact hrecovers.1

/-- An account whose weekly window is below capacity again is not, while the reset of the window
is days away. -/
theorem isolates_usable :
    (found [weekly 90] .usable).isActive = true
      ∧ findObservation ((query (midnight + minutes 300) [weekly 90] .usable).behind clock
          (storedAfter clock [query midnight [weekly 100] .exhausted]) []).observations 1 = some noted
      ∧ clock.parse noted.observedAt = some midnight
      ∧ midnight + oauthUnknownMaxIsolation ≤ midnight + minutes 300
      ∧ directiveOf clock (midnight + minutes 300) ((query (midnight + minutes 300) [weekly 90] .usable).behind clock
          (storedAfter clock [query midnight [weekly 100] .exhausted]) []).observations (found [weekly 90] .usable)
        = .isolate := by
  refine ⟨by decide, find_noted .usable [weekly 90], by decide +kernel, by decide, ?_⟩
  decide +kernel

end RecoveryRun

end CodexRouter
