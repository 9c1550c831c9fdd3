/-
# The scheduler of account probes

`run_due_once` goes through the plans that are due and claims the first one of every
account.  A claim needs the next occurrence of the plan; where there is none the whole
tick ends, and as the plan stays due, so does every later one.  `serves_iff` says which
ticks serve every account, and `servesAll_iff` the same for whole runs, in which the
table of the plans may also be changed by others between the ticks.
-/
import CodexRouter.Base.Json
import CodexRouter.Base.KeyedTable
import CodexRouter.Base.Text
import Mathlib.Data.List.Sort

namespace CodexRouter

open Text

/-! ## Cron expressions -/

/-- The crates behind the schedules; a time is a number of milliseconds. -/
structure CronLibs where
  /-- `Schedule::from_str`. -/
  parses : String → Bool
  /-- `Schedule::after(..).next()`. -/
  nextAfter : String → ℤ → Option ℤ
  /-- `to_rfc3339_opts(SecondsFormat::Millis, true)`. -/
  text : ℤ → String

/-- `normalized_cron`. -/
def normalizedCron (libs : CronLibs) (expression : String) : Except String String :=
  let expression := trim expression
  let fields := (splitWhitespace expression).length
  if fields = 5 ∨ fields = 6 ∨ fields = 7 then
    let normalized := if fields = 5 then "0 " ++ expression else expression
    if libs.parses normalized then .ok normalized else .error "parse cron expression"
  else .error "cron expression must contain 5, 6 or 7 fields"

/-- `next_run`. -/
def nextRun (libs : CronLibs) (expression : String) (after : ℤ) : Except String ℤ :=
  match normalizedCron libs expression with
  | .error e => .error e
  | .ok normalized =>
    match libs.nextAfter normalized after with
    | none => .error "cron expression has no future occurrence"
    | some time => .ok time

/-- `next_run_text`. -/
def nextRunText (libs : CronLibs) (expression : String) (after : ℤ) : Except String String :=
  (nextRun libs expression after).map libs.text

/-! ## The tables -/

/-- A row of `scheduled_test_plans`. -/
structure PlanRow where
  id : ℤ
  accountId : ℤ
  model : String
  cron : String
  enabled : Bool
  autoRecover : Bool
  maxResults : ℤ
  lastRun : Option String
  nextRun : Option String

/-- `ScheduledPlan`. -/
structure ScheduledPlan where
  id : ℤ
  accountId : ℤ
  model : String
  cron : String
  autoRecover : Bool
  maxResults : ℤ
  deriving DecidableEq, Repr

/-- A row of `scheduled_test_results`. -/
structure TestResult where
  id : ℕ
  planId : ℤ
  status : String
  errorCode : Option String
  details : Value
  createdAt : String

/-- A row of `accounts`, as the scheduler reads it. -/
structure ProbedAccount where
  id : ℤ
  platform : String
  accountType : String
  status : String
  schedulable : Bool
  deleted : Bool

/-- The tables of the scheduler.  The id is the primary key of the plans. -/
structure SchedulerStore where
  plans : List PlanRow
  results : List TestResult
  accounts : List ProbedAccount
  lastResultId : ℕ
  nodup : (plans.map PlanRow.id).Nodup

/-- The columns that are selected. -/
def PlanRow.plan (row : PlanRow) : ScheduledPlan :=
  ⟨row.id, row.accountId, row.model, row.cron, row.autoRecover, row.maxResults⟩

/-- `enabled=1 AND next_run IS NOT NULL AND next_run<=now`. -/
def PlanRow.isDue (row : PlanRow) (now : String) : Bool :=
  row.enabled && row.nextRun.any fun next => ¬ now < next

/-- `ORDER BY next_run,id`. -/
def PlanRow.before (row other : PlanRow) : Prop :=
  row.nextRun.getD "" < other.nextRun.getD ""
    ∨ row.nextRun.getD "" = other.nextRun.getD "" ∧ row.id ≤ other.id

instance : DecidableRel PlanRow.before := fun _ _ => inferInstanceAs (Decidable (_ ∨ _))

/-- `due_plans`. -/
def duePlans (libs : CronLibs) (store : SchedulerStore) (now : ℤ) : List ScheduledPlan :=
  ((store.plans.filter fun row => row.isDue (libs.text now)).insertionSort PlanRow.before).map PlanRow.plan

/-- The `UPDATE` of a claim. -/
def PlanRow.claimed (row : PlanRow) (id : ℤ) (started next : String) : PlanRow :=
  if row.id = id && row.isDue started then { row with lastRun := some started, nextRun := some next } else row

theorem PlanRow.claimed_id (row : PlanRow) (id : ℤ) (started next : String) :
    (row.claimed id started next).id = row.id := by
  unfold PlanRow.claimed
  split <;> rfl

theorem map_claimed_id (plans : List PlanRow) (id : ℤ) (started next : String) :
    (plans.map (·.claimed id started next)).map PlanRow.id = plans.map PlanRow.id := by
  rw [List.map_map]
  exact List.map_congr_left fun row _ => row.claimed_id id started next

/-- The rows after a claim. -/
def SchedulerStore.markClaimed (store : SchedulerStore) (id : ℤ) (started next : String) : SchedulerStore :=
  { store with
    plans := store.plans.map (·.claimed id started next)
    nodup := (map_claimed_id store.plans id started next).symm ▸ store.nodup }

/-- `claim_plan`: the id of the new result, if a row was updated. -/
def claimPlan (libs : CronLibs) (store : SchedulerStore) (plan : ScheduledPlan) (startedAt : ℤ) :
    Except String (Option ℕ × SchedulerStore) :=
  match nextRunText libs plan.cron startedAt with
  | .error e => .error e
  | .ok next =>
    let started := libs.text startedAt
    let changes := store.plans.countP fun row => row.id = plan.id && row.isDue started
    let marked := store.markClaimed plan.id started next
    if changes ≠ 1 then .ok (none, marked)
    else
      let id := store.lastResultId + 1
      let result : TestResult :=
        { id := id
          planId := plan.id
          status := "running"
          errorCode := none
          details := .object [("account_id", .number (.int plan.accountId)), ("model", .string plan.model),
            ("started_at", .string started)]
          createdAt := started }
      .ok (some id, { marked with results := store.results ++ [result], lastResultId := id })

/-! ## A probe -/

/-- `ProbeSuccess`. -/
structure ProbeSuccess where
  model : String
  latencyMs : ℤ
  upstreamStatus : ℤ

/-- `ProbeFailure`. -/
structure ProbeFailure where
  errorCode : String
  upstreamStatus : Option ℤ
  latencyMs : ℤ

/-- What the rest of the host answers while a plan is carried out. -/
structure ProbeWorld where
  /-- `reauth_cooldown_active`; `none` on an error. -/
  cooldown : ℤ → Option Bool
  /-- `probe_account`. -/
  probe : ℤ → String → Except ProbeFailure ProbeSuccess
  /-- `sync_backend` succeeds. -/
  syncs : Bool
  /-- The time a result is finished. -/
  finishedAt : String

/-- `finish_result`: write the result, and keep the newest ones of the plan. -/
def finishResult (store : SchedulerStore) (plan : ScheduledPlan) (resultId : ℕ) (status : String)
    (errorCode : Option String) (details : Value) : SchedulerStore :=
  let written := store.results.map fun result =>
    if result.id = resultId then { result with status := status, errorCode := errorCode, details := details }
    else result
  let newest := (((written.filter fun result => result.planId = plan.id).map TestResult.id).insertionSort
    (· ≥ ·)).take (max 1 (min 1000 plan.maxResults)).toNat
  { store with results := written.filter fun result => result.planId ≠ plan.id || result.id ∈ newest }

/-- The account that is active again, and that can be scheduled. -/
def recoverAccount (plan : ScheduledPlan) (account : ProbedAccount) : ProbedAccount :=
  if account.id = plan.accountId && !account.deleted && (account.status ≠ "active" || !account.schedulable) then
    { account with status := "active", schedulable := true }
  else account

/-- `auto_recover`: the tables, and whether an account was recovered; `none` if the backend was not synced. -/
def autoRecover (world : ProbeWorld) (store : SchedulerStore) (plan : ScheduledPlan) :
    SchedulerStore × Option Bool :=
  if plan.autoRecover then
    let changes := store.accounts.countP fun account =>
      account.id = plan.accountId && !account.deleted && (account.status ≠ "active" || !account.schedulable)
    let recovered := { store with accounts := store.accounts.map (recoverAccount plan) }
    if changes = 1 then (recovered, if world.syncs then some true else none) else (recovered, some false)
  else (store, some false)

/-- The details of a result. -/
def planDetails (plan : ScheduledPlan) (more : Members) : Value :=
  .object (more.foldl (fun m e => Members.insert e.1 e.2 m)
    [("account_id", .number (.int plan.accountId)), ("model", .string plan.model)])

/-- Why a plan is not carried out. -/
def skipReason (world : ProbeWorld) (store : SchedulerStore) (plan : ScheduledPlan) : Option String :=
  match store.accounts.find? fun account => account.id = plan.accountId && !account.deleted with
  | none => some "account_disabled"
  | some account =>
    if eqIgnoreAsciiCase account.accountType "oauth" && eqIgnoreAsciiCase account.platform "openai" then
      some "desktop_openai_auth_owner"
    else if account.status = "disabled" then some "account_disabled"
    else
      match world.cooldown plan.accountId with
      | some false => none
      | some true => some "reauth_cooldown"
      | none => some "reauth_cooldown_unavailable"

/-- `execute_claimed`. -/
def executeClaimed (world : ProbeWorld) (store : SchedulerStore) (plan : ScheduledPlan) (resultId : ℕ) :
    SchedulerStore :=
  match skipReason world store plan with
  | some reason =>
    finishResult store plan resultId "skipped" (some reason)
      (planDetails plan [("finished_at", .string world.finishedAt), ("reason", .string reason)])
  | none =>
    match world.probe plan.accountId plan.model with
    | .ok probe =>
      let measured : Members := [("latency_ms", .number (.int probe.latencyMs)), ("model", .string probe.model),
        ("upstream_status", .number (.int probe.upstreamStatus))]
      match autoRecover world store plan with
      | (store, none) =>
        finishResult store plan resultId "failed" (some "CR-CFG-0005")
          (planDetails plan (measured ++ [("model", .string plan.model),
            ("recovery_error", .string "backend_sync_failed")]))
      | (store, some recovered) =>
        finishResult store plan resultId "success" none
          (planDetails plan (measured ++ [("finished_at", .string world.finishedAt), ("recovered", .bool recovered)]))
    | .error failure =>
      finishResult store plan resultId "failed" (some failure.errorCode)
        (planDetails plan [("finished_at", .string world.finishedAt),
          ("latency_ms", .number (.int failure.latencyMs)),
          ("upstream_status", (failure.upstreamStatus.map fun status => .number (.int status)).getD .null)])

/-! ## A tick -/

/-- What a tick did: the tables afterwards, the plans that were claimed, and an error that ended it. -/
structure Tick where
  store : SchedulerStore
  claimed : List ScheduledPlan
  error : Option String

/-- The loop of `run_due_once`. -/
def runPlans (libs : CronLibs) (world : ProbeWorld) (now : ℤ) : SchedulerStore → List ℤ → List ScheduledPlan → Tick
  | store, _, [] => ⟨store, [], none⟩
  | store, seenAccounts, plan :: rest =>
    if plan.accountId ∈ seenAccounts then runPlans libs world now store seenAccounts rest
    else
      match claimPlan libs store plan now with
      -- the `?` of a plan ends the tick for all plans behind it
      | .error e => ⟨store, [], some e⟩
      | .ok (none, store) => runPlans libs world now store (plan.accountId :: seenAccounts) rest
      | .ok (some resultId, store) =>
        let others := runPlans libs world now (executeClaimed world store plan resultId)
          (plan.accountId :: seenAccounts) rest
        { others with claimed := plan :: others.claimed }

/-- `run_due_once`. -/
def runDueOnce (libs : CronLibs) (world : ProbeWorld) (store : SchedulerStore) (now : ℤ) : Tick :=
  runPlans libs world now store [] (duePlans libs store now)

/-- What `run_due_once` returns. -/
def Tick.answer (tick : Tick) : Except String ℕ :=
  match tick.error with
  | some e => .error e
  | none => .ok tick.claimed.length

/-! ## The plans of a tick -/

/-- The plan has a next occurrence. -/
def hasNext (libs : CronLibs) (now : ℤ) (plan : ScheduledPlan) : Bool := (nextRun libs plan.cron now).isOk

/-- The first due plan of every account, in the order of the due plans. -/
def firstDue (libs : CronLibs) (store : SchedulerStore) (now : ℤ) : List ScheduledPlan :=
  collectNew ScheduledPlan.accountId some [] (duePlans libs store now)

/-- The row of the plan is due. -/
def SchedulerStore.IsDue (libs : CronLibs) (now : ℤ) (store : SchedulerStore) (plan : ScheduledPlan) : Prop :=
  ∃ row ∈ store.plans, row.id = plan.id ∧ row.isDue (libs.text now)

section

variable {libs : CronLibs} {world : ProbeWorld} {store : SchedulerStore} {now : ℤ} {plan : ScheduledPlan}

theorem mem_duePlans : plan ∈ duePlans libs store now ↔
    ∃ row ∈ store.plans, row.isDue (libs.text now) ∧ row.plan = plan := by
  unfold duePlans
  simp only [List.mem_map, List.mem_insertionSort, List.mem_filter, and_assoc]

theorem isDue_of_mem_duePlans (h : plan ∈ duePlans libs store now) : store.IsDue libs now plan := by
  obtain ⟨row, hrow, hdue, rfl⟩ := mem_duePlans.mp h
  exact ⟨row, hrow, rfl, hdue⟩

/-- No plan is due twice. -/
theorem nodup_duePlans : ((duePlans libs store now).map ScheduledPlan.id).Nodup := by
  have hperm : ((duePlans libs store now).map ScheduledPlan.id).Perm
      ((store.plans.filter fun row => row.isDue (libs.text now)).map PlanRow.id) := by
    unfold duePlans
    rw [List.map_map]
    exact (List.perm_insertionSort _ _).map _
  exact hperm.nodup_iff.mpr (store.nodup.sublist (List.filter_sublist.map _))

/-- A plan that is due has one row. -/
theorem countP_of_isDue (h : store.IsDue libs now plan) :
    (store.plans.countP fun row => row.id = plan.id && row.isDue (libs.text now)) = 1 := by
  obtain ⟨row, hrow, hid, hdue⟩ := h
  apply le_antisymm
  · calc (store.plans.countP fun row => row.id = plan.id && row.isDue (libs.text now))
        ≤ store.plans.countP ((· == plan.id) ∘ PlanRow.id) :=
          List.countP_mono_left fun r _ hr => by simpa using (Bool.and_eq_true_iff.mp hr).1
      _ = (store.plans.map PlanRow.id).count plan.id := (List.countP_map ..).symm
      _ ≤ 1 := List.nodup_iff_count_le_one.mp store.nodup plan.id
  · exact List.countP_pos_iff.mpr ⟨row, hrow, by simp [hid, hdue]⟩

/-- A claim leaves the other plans due. -/
theorem isDue_markClaimed {other : ScheduledPlan} {started next : String} (h : store.IsDue libs now other)
    (hne : other.id ≠ plan.id) : (store.markClaimed plan.id started next).IsDue libs now other := by
  obtain ⟨row, hrow, hid, hdue⟩ := h
  refine ⟨row, List.mem_map.mpr ⟨row, hrow, ?_⟩, hid, hdue⟩
  unfold PlanRow.claimed
  rw [if_neg (by simp [hid, hne])]

/-- Nothing but a claim writes the table of the plans. -/
theorem finishResult_plans (resultId : ℕ) (status : String) (errorCode : Option String) (details : Value) :
    (finishResult store plan resultId status errorCode details).plans = store.plans := rfl

theorem autoRecover_plans : (autoRecover world store plan).1.plans = store.plans := by
  unfold autoRecover
  split
  · dsimp only
    split <;> rfl
  · rfl

theorem executeClaimed_plans (resultId : ℕ) :
    (executeClaimed world store plan resultId).plans = store.plans := by
  unfold executeClaimed
  split
  · exact finishResult_plans ..
  split
  · have hrecover : (autoRecover world store plan).1.plans = store.plans := autoRecover_plans
    dsimp only
    split <;> rename_i heq <;> rw [heq] at hrecover <;> exact hrecover
  · exact finishResult_plans ..

theorem nextRunText_isOk : (nextRunText libs plan.cron now).isOk = hasNext libs now plan := by
  unfold nextRunText hasNext
  cases nextRun libs plan.cron now <;> rfl

variable (store) in
/-- Without a next occurrence there is no claim. -/
theorem claimPlan_of_exhausted (h : hasNext libs now plan = false) :
    ∃ e, claimPlan libs store plan now = .error e := by
  rw [← nextRunText_isOk] at h
  unfold claimPlan
  cases hnext : nextRunText libs plan.cron now with
  | error e => exact ⟨e, rfl⟩
  | ok next =>
    rw [hnext] at h
    cases h

/-- A plan that is due is claimed, and the others stay due. -/
theorem claimPlan_of_isDue (hdue : store.IsDue libs now plan) (h : hasNext libs now plan = true) :
    ∃ id claimed, claimPlan libs store plan now = .ok (some id, claimed)
      ∧ ∀ other : ScheduledPlan, other.id ≠ plan.id → store.IsDue libs now other →
        claimed.IsDue libs now other := by
  rw [← nextRunText_isOk] at h
  unfold claimPlan
  cases hnext : nextRunText libs plan.cron now with
  | error e =>
    rw [hnext] at h
    cases h
  | ok next =>
    dsimp only
    rw [if_neg (not_not.mpr (countP_of_isDue hdue))]
    exact ⟨_, _, rfl, fun other hne hother => isDue_markClaimed hother hne⟩

/-- The loop claims the first plan of every account it has not seen, up to the first one
without a next occurrence; there it ends with an error. -/
theorem runPlans_eq {seen : List ℤ} {plans : List ScheduledPlan}
    (hdue : ∀ q ∈ plans, store.IsDue libs now q) (hnodup : (plans.map ScheduledPlan.id).Nodup) :
    (runPlans libs world now store seen plans).claimed
        = (collectNew ScheduledPlan.accountId some seen plans).takeWhile (hasNext libs now)
      ∧ ((runPlans libs world now store seen plans).error = none ↔
        ∀ q ∈ collectNew ScheduledPlan.accountId some seen plans, hasNext libs now q = true) := by
  induction plans generalizing store seen with
  | nil => simp [runPlans, collectNew]
  | cons plan rest ih =>
    obtain ⟨hplan, hrest⟩ := List.forall_mem_cons.mp hdue
    obtain ⟨hfresh, hnodup⟩ := List.nodup_cons.mp hnodup
    have hother : ∀ q ∈ rest, q.id ≠ plan.id := fun q hq heq =>
      hfresh (List.mem_map.mpr ⟨q, hq, heq⟩)
    rw [runPlans, collectNew]
    dsimp only
    split
    -- a second plan of an account is passed over, due or not
    · exact ih hrest hnodup
    cases hnext : hasNext libs now plan with
    | false =>
      obtain ⟨e, he⟩ := claimPlan_of_exhausted store hnext
      rw [he]
      simp [hnext]
    | true =>
      obtain ⟨id, claimed, hclaim, hkeeps⟩ := claimPlan_of_isDue hplan hnext
      -- the claim and the probe leave the rest due, so that the hypothesis applies behind them
      have hstill : ∀ q ∈ rest, (executeClaimed world claimed plan id).IsDue libs now q := by
        intro q hq
        obtain ⟨row, hrow, hid, hrowdue⟩ := hkeeps q (hother q hq) (hrest q hq)
        exact ⟨row, (executeClaimed_plans id).symm ▸ hrow, hid, hrowdue⟩
      rw [hclaim]
      dsimp only
      rw [(ih hstill hnodup).1, (ih hstill hnodup).2]
      simp [hnext]

variable (world) in
/-- A tick claims the first due plans up to the first one without a next occurrence. -/
theorem runDueOnce_claimed :
    (runDueOnce libs world store now).claimed = (firstDue libs store now).takeWhile (hasNext libs now) :=
  (runPlans_eq (fun _ => isDue_of_mem_duePlans) nodup_duePlans).1

/-- A tick ends with an error if there is such a plan. -/
theorem runDueOnce_error : (runDueOnce libs world store now).error = none ↔
    ∀ plan ∈ firstDue libs store now, hasNext libs now plan = true :=
  (runPlans_eq (fun _ => isDue_of_mem_duePlans) nodup_duePlans).2

/-- Otherwise it returns the number of accounts that were served. -/
theorem runDueOnce_answer (h : ∀ plan ∈ firstDue libs store now, hasNext libs now plan = true) :
    (runDueOnce libs world store now).answer = .ok (firstDue libs store now).length := by
  unfold Tick.answer
  rw [runDueOnce_error.mpr h, runDueOnce_claimed, List.takeWhile_eq_self_iff.mpr h]

end

/-! ## Runs -/

/-- What happens to the tables: a tick of the scheduler, or any other change. -/
inductive SchedulerEvent where
  | tick (now : ℤ) (world : ProbeWorld)
  | change (edit : SchedulerStore → SchedulerStore)

/-- The tables after an event. -/
def SchedulerStore.after (libs : CronLibs) (store : SchedulerStore) : SchedulerEvent → SchedulerStore
  | .tick now world => (runDueOnce libs world store now).store
  | .change edit => edit store

/-- `P` holds at every tick of the run, of the tables before it. -/
def EveryTick (libs : CronLibs) (P : SchedulerStore → ℤ → ProbeWorld → Prop) :
    SchedulerStore → List SchedulerEvent → Prop
  | _, [] => True
  | store, .tick now world :: rest =>
    P store now world ∧ EveryTick libs P (store.after libs (.tick now world)) rest
  | store, .change edit :: rest => EveryTick libs P (store.after libs (.change edit)) rest

/-- The tick claims the first due plan of every account, also beside a plan without a
next occurrence. -/
structure Serves (libs : CronLibs) (store : SchedulerStore) (now : ℤ) (world : ProbeWorld) : Prop where
  claimsFirst : (runDueOnce libs world store now).claimed = firstDue libs store now
  sparesOthers : ∀ exhausted ∈ duePlans libs store now, hasNext libs now exhausted = false →
    ∀ plan ∈ firstDue libs store now, plan ≠ exhausted → plan ∈ (runDueOnce libs world store now).claimed

/-- What is the same at every tick is the same over a run. -/
theorem everyTick_congr {libs : CronLibs} {P Q : SchedulerStore → ℤ → ProbeWorld → Prop}
    (h : ∀ store now world, P store now world ↔ Q store now world) {store : SchedulerStore}
    {events : List SchedulerEvent} : EveryTick libs P store events ↔ EveryTick libs Q store events := by
  induction events generalizing store with
  | nil => exact Iff.rfl
  | cons event rest ih =>
    cases event with
    | tick now world => exact and_congr (h store now world) ih
    | change edit => exact ih

/-- A tick serves every account if and only if all first due plans have a next occurrence. -/
theorem serves_iff {libs : CronLibs} {world : ProbeWorld} {store : SchedulerStore} {now : ℤ} :
    Serves libs store now world ↔ ∀ plan ∈ firstDue libs store now, hasNext libs now plan = true := by
  rw [← List.takeWhile_eq_self_iff, ← runDueOnce_claimed world]
  constructor
  · exact Serves.claimsFirst
  · intro h
    exact ⟨h, fun _ _ _ plan hplan _ => h.symm ▸ hplan⟩

/-- Every tick of a run serves every account if and only if at every tick all first due
plans have a next occurrence. -/
theorem servesAll_iff (libs : CronLibs) (store : SchedulerStore) (events : List SchedulerEvent) :
    EveryTick libs (Serves libs) store events ↔
      EveryTick libs (fun store now _ => ∀ plan ∈ firstDue libs store now, hasNext libs now plan = true)
        store events :=
  everyTick_congr fun _ _ _ => serves_iff

/-- The clock of 2026-01-01, with a schedule for every minute and one for the year 2025. -/
def newYearLibs : CronLibs where
  parses := fun _ => true
  nextAfter := fun expression after =>
    if expression = "0 * * * * *" then some ((after / 60000 + 1) * 60000) else none
  text := fun time =>
    if time = 1767225600000 then "2026-01-01T00:00:00.000Z"
    else if time = 1767225605000 then "2026-01-01T00:00:05.000Z" else "2026-01-01T00:01:00.000Z"

/-- Two accounts; the plan of the first one was for the year 2025. -/
def newYearStore : SchedulerStore where
  plans := [⟨1, 1, "gpt-5", "0 0 0 31 12 * 2025", true, true, 10, none, some "2025-12-31T00:00:00.000Z"⟩,
    ⟨2, 2, "grok-4", "* * * * *", true, true, 10, none, some "2026-01-01T00:00:00.000Z"⟩]
  results := []
  accounts := [⟨1, "grok", "oauth", "active", true, false⟩, ⟨2, "grok", "oauth", "active", true, false⟩]
  lastResultId := 0
  nodup := by decide

/-- Every probe succeeds. -/
def healthyWorld : ProbeWorld where
  cooldown := fun _ => some false
  probe := fun _ model => .ok ⟨model, 100, 200⟩
  syncs := true
  finishedAt := "2026-01-01T00:00:01.000Z"

/-- The plan of the second account is never claimed, in this tick and in the next one. -/
theorem not_servesAll_newYear :
    EveryTick newYearLibs (fun store now world =>
        (⟨2, 2, "grok-4", "* * * * *", true, 10⟩ : ScheduledPlan) ∈ firstDue newYearLibs store now
          ∧ hasNext newYearLibs now ⟨2, 2, "grok-4", "* * * * *", true, 10⟩ = true
          ∧ (runDueOnce newYearLibs world store now).claimed = [])
      newYearStore [.tick 1767225600000 healthyWorld, .tick 1767225605000 healthyWorld]
    ∧ ¬ EveryTick newYearLibs (Serves newYearLibs) newYearStore
      [.tick 1767225600000 healthyWorld, .tick 1767225605000 healthyWorld] := by
  refine ⟨⟨by decide +kernel, by decide +kernel, trivial⟩, fun h => ?_⟩
  exact absurd h.1.claimsFirst (by decide +kernel)

end CodexRouter
