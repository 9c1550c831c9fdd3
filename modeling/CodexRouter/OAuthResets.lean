/-
# Recoveries and resets

The note on an isolated account gives one reset for all windows of the account.  `Watch` keeps,
for the proofs, what that reset was taken from: when the note was begun, when the account was
first exhausted, and the full windows whose reset is noted.  It runs beside the passes and
says of every note where it comes from (`noted_after`).

`recovered_after_reset` says when a recovery on usable evidence follows the reset of these
very windows.
-/
import CodexRouter.OAuthRecovery

namespace CodexRouter

open Text

/-! ## Where a note comes from -/

/-- What the note on an account was taken from. -/
structure Watch where
  /-- The pass that began the note. -/
  begun : ℤ
  /-- The first pass since then that found the account exhausted. -/
  exhausted : Option ℤ
  /-- The full windows whose reset is noted. -/
  full : List UsageWindow
  deriving DecidableEq, Repr

/-- The watch on each account that has a note. -/
abbrev Watches := ℤ → Option Watch

/-- The full windows whose reset is noted of an account. -/
def notedWindows (windows previous : List UsageWindow) : List UsageWindow :=
  match ((fullWindows windows).map (·.resetAt)).max? with
  | some reset => (fullWindows windows).filter (·.resetAt = reset)
  | none => previous

/-- The watch on an account that is isolated. -/
def watched (now : ℤ) (record : AccountRecord) (previous : Option Watch) : Watch where
  begun := (previous.map (·.begun)).getD now
  exhausted := (previous.bind (·.exhausted)).or (if record.quotaEvidence = .exhausted then some now else none)
  full := notedWindows record.account.windows ((previous.map (·.full)).getD [])

section

variable (clock : Rfc3339)

/-- The watches behind one account of a pass. -/
def watchRecord (now : ℤ) (answers : AdminAnswers) (s : ReconcilePass) (watches : Watches)
    (record : AccountRecord) : Watches := fun j =>
  if j = record.account.id then
    match directiveOf clock now s.observations record with
    | .none => none
    | .isolate => some (watched now record (watches j))
    | .recover => if answers.recover j then none else watches j
  else watches j

/-- The watches behind the accounts of a pass. -/
def watchRecords (now : ℤ) (answers : AdminAnswers) (s : ReconcilePass) (watches : Watches) :
    List AccountRecord → Watches
  | [] => watches
  | record :: rest =>
    if record.isActive then
      watchRecords now answers (reconcileRecord clock now answers s record).1
        (watchRecord clock now answers s watches record) rest
    else watchRecords now answers s watches rest

/-- The watches of a pass behind some of its accounts. -/
def Pass.watchesBehind (pass : Pass) (stored : List OAuthRecoveryObservation) (watches : Watches)
    (front : List AccountRecord) : Watches :=
  watchRecords clock pass.now pass.answers (pass.start stored)
    (fun j => if pass.records.any fun record => record.isActive && record.account.id = j then watches j else none)
    front

/-- A pass with its watches, which are those of the stored notes. -/
def watchPass (t : List OAuthRecoveryObservation × Watches) (pass : Pass) :
    List OAuthRecoveryObservation × Watches :=
  ((reconcileOAuthRecoveryObservations clock t.1 pass).stored,
    if pass.writes clock t.1 then pass.watchesBehind clock t.1 t.2 pass.records else t.2)

/-- The watches after some passes. -/
def watchesAfter (passes : List Pass) : Watches := (passes.foldl (watchPass clock) ([], fun _ => none)).2

end

/-! ## Notes and watches -/

section

variable {clock : Rfc3339}

/-- The watch says where the note comes from. -/
structure Noted (clock : Rfc3339) (entry : OAuthRecoveryObservation) (watch : Watch) : Prop where
  begun : clock.parse entry.observedAt = some watch.begun
  resets : ∀ window ∈ watch.full, window.resetAt = entry.resetAt
  full : entry.resetAt ≠ "" → watch.full ≠ []

/-- Every note has its watch. -/
def AllNoted (clock : Rfc3339) (observations : List OAuthRecoveryObservation) (watches : Watches) : Prop :=
  ∀ j, Option.Rel (Noted clock) (findObservation observations j) (watches j)

/-- The full windows give the noted reset. -/
theorem resetAt_of_mem_notedWindows {windows previous : List UsageWindow}
    {previousEntry : Option OAuthRecoveryObservation}
    (hprevious : ∀ window ∈ previous, window.resetAt = (previousEntry.map (·.resetAt)).getD "") {window : UsageWindow}
    (h : window ∈ notedWindows windows previous) : window.resetAt = notedResetAt windows previousEntry := by
  rw [notedWindows] at h
  rw [notedResetAt]
  cases hmax : ((fullWindows windows).map (·.resetAt)).max? with
  | none =>
    rw [hmax] at h
    rw [Option.none_or]
    exact hprevious window h
  | some reset =>
    rw [hmax] at h
    rw [Option.some_or, Option.getD_some]
    simpa using (List.mem_filter.mp h).2

/-- A reset that is noted is that of a full window. -/
theorem notedWindows_ne_nil {windows previous : List UsageWindow}
    {previousEntry : Option OAuthRecoveryObservation}
    (hprevious : (previousEntry.map (·.resetAt)).getD "" ≠ "" → previous ≠ [])
    (h : notedResetAt windows previousEntry ≠ "") : notedWindows windows previous ≠ [] := by
  rw [notedResetAt] at h
  rw [notedWindows]
  cases hmax : ((fullWindows windows).map (·.resetAt)).max? with
  | none =>
    rw [hmax, Option.none_or] at h
    exact hprevious h
  | some reset =>
    obtain ⟨hmem, -⟩ := List.max?_eq_some_iff.mp hmax
    obtain ⟨window, hwindow, hreset⟩ := List.mem_map.mp hmem
    have hnoted : window ∈ (fullWindows windows).filter (·.resetAt = reset) :=
      List.mem_filter.mpr ⟨hwindow, by simpa using hreset⟩
    exact List.ne_nil_of_mem hnoted

/-- A new note has the watch of this pass, a note that is renewed keeps when it was begun. -/
theorem noted_isolated {now : ℤ} {record : AccountRecord} {previous : Option OAuthRecoveryObservation}
    {watch : Option Watch} (hempty : clock.parse "" = none) (hnow : clock.parse (clock.render now) = some now)
    (h : Option.Rel (Noted clock) previous watch) :
    Noted clock (isolatedObservation clock now record previous) (watched now record watch) := by
  cases h with
  | none =>
    constructor
    · exact hnow
    · intro window hwindow
      exact resetAt_of_mem_notedWindows (fun _ h => absurd h List.not_mem_nil) hwindow
    · exact notedWindows_ne_nil fun h => absurd rfl h
  | @some entry watch hnoted =>
    have hobserved : entry.observedAt ≠ "" := by
      intro h
      have hbegun := hnoted.begun
      rw [h, hempty] at hbegun
      cases hbegun
    constructor
    · show clock.parse (((some entry.observedAt).filter (· ≠ "")).getD (clock.render now)) = _
      rw [Option.filter_some, if_pos (by simpa using hobserved), Option.getD_some]
      exact hnoted.begun
    · intro window hwindow
      exact resetAt_of_mem_notedWindows hnoted.resets hwindow
    · exact notedWindows_ne_nil hnoted.full

/-- One account of a pass. -/
theorem AllNoted.record {now : ℤ} {answers : AdminAnswers} {s : ReconcilePass} {watches : Watches}
    {record : AccountRecord} (hempty : clock.parse "" = none) (hnow : clock.parse (clock.render now) = some now)
    (hone : OnePerAccount s.observations) (h : AllNoted clock s.observations watches) :
    AllNoted clock (reconcileRecord clock now answers s record).1.observations
      (watchRecord clock now answers s watches record) := by
  intro j
  rw [findObservation_reconcileRecord hone, watchRecord]
  split
  · cases directiveOf clock now s.observations record with
    | none => exact .none
    | isolate => exact .some (noted_isolated hempty hnow (h j))
    | recover =>
      show Option.Rel _ (if answers.recover j then _ else _) (if answers.recover j then _ else _)
      split
      · exact .none
      · exact h j
  · exact h j

/-- The accounts of a pass, one after the other. -/
theorem AllNoted.records {now : ℤ} {answers : AdminAnswers} {s : ReconcilePass} {watches : Watches}
    (hempty : clock.parse "" = none) (hnow : clock.parse (clock.render now) = some now)
    (records : List AccountRecord) (hone : OnePerAccount s.observations)
    (h : AllNoted clock s.observations watches) :
    AllNoted clock (reconcileRecords clock now answers s records).1.observations
      (watchRecords clock now answers s watches records) := by
  induction records generalizing s watches with
  | nil => exact h
  | cons record rest ih =>
    rw [reconcileRecords_cons, watchRecords]
    split
    · exact ih hone.reconcileRecord (h.record hempty hnow hone)
    · exact ih hone h

/-- A pass behind some of its accounts. -/
theorem AllNoted.behind {stored : List OAuthRecoveryObservation} {watches : Watches} {pass : Pass}
    (hempty : clock.parse "" = none) (hnow : clock.parse (clock.render pass.now) = some pass.now)
    (front : List AccountRecord) (hone : OnePerAccount stored) (h : AllNoted clock stored watches) :
    AllNoted clock (pass.behind clock stored front).observations (pass.watchesBehind clock stored watches front) := by
  refine AllNoted.records hempty hnow front (hone.retain pass.records) ?_
  intro j
  show Option.Rel _ (findObservation (retainActive pass.records stored) j)
    (if pass.records.any fun record => record.isActive && record.account.id = j then watches j else none)
  rw [findObservation_retain]
  split
  · exact h j
  · exact .none

theorem foldl_watchPass_fst (passes : List Pass) :
    (passes.foldl (watchPass clock) ([], fun _ => none)).1 = storedAfter clock passes := by
  rw [storedAfter]
  induction passes using List.reverseRecOn with
  | nil => rfl
  | append_singleton passes pass ih =>
    rw [List.foldl_append, List.foldl_append, List.foldl_cons, List.foldl_cons, List.foldl_nil, List.foldl_nil, ← ih]
    rfl

/-- After any passes, every stored note has its watch. -/
theorem noted_after (hempty : clock.parse "" = none) {passes : List Pass}
    (hnow : ∀ pass ∈ passes, clock.parse (clock.render pass.now) = some pass.now) :
    AllNoted clock (storedAfter clock passes) (watchesAfter clock passes) := by
  rw [← foldl_watchPass_fst, watchesAfter]
  induction passes using List.reverseRecOn with
  | nil => exact fun j => .none
  | append_singleton passes pass ih =>
    have hbefore := ih fun pass hpass => hnow pass (List.mem_append_left _ hpass)
    have hone : OnePerAccount (passes.foldl (watchPass clock) ([], fun _ => none)).1 := by
      rw [foldl_watchPass_fst]
      exact onePerAccount_storedAfter passes
    rw [List.foldl_append, List.foldl_cons, List.foldl_nil, watchPass, reconcileOAuthRecoveryObservations]
    simp only
    split
    · intro j
      have hbehind := hbefore.behind hempty (hnow pass (List.mem_append_right _ List.mem_cons_self))
        pass.records hone
      have hlast : OnePerAccount (pass.behind clock (passes.foldl (watchPass clock) ([], fun _ => none)).1
          pass.records).observations := hone.behind pass pass.records
      show Option.Rel _ (findObservation (sortByAccount (pass.behind clock _ pass.records).observations) j) _
      rw [sortByAccount, findObservation_perm hlast (List.perm_insertionSort _ _)]
      exact hbehind j
    · exact hbefore

end

/-! ## Recoveries -/

/-- The same window in two reports. -/
def SameWindow (window other : UsageWindow) : Prop :=
  other.kind = window.kind ∧ other.displayName = window.displayName

/-- The reset of a window is past, or the window reports another one. -/
def WindowReset (clock : Rfc3339) (window : UsageWindow) (windows : List UsageWindow) (now : ℤ) : Prop :=
  (∃ reset, clock.parse window.resetAt = some reset ∧ reset ≤ now)
    ∨ ∃ other ∈ windows, SameWindow window other ∧ other.resetAt ≠ window.resetAt

/-- The noted reset is past, or the windows it was taken from report the latest one. -/
def ResetOfWatched (clock : Rfc3339) (entry : OAuthRecoveryObservation) (watch : Watch)
    (windows : List UsageWindow) (now : ℤ) : Prop :=
  (∃ reset, clock.parse entry.resetAt = some reset ∧ reset ≤ now)
    ∨ trim entry.resetAt = entry.resetAt
      ∧ ∀ window ∈ watch.full, ∃ other, ReportsLatest windows other ∧ SameWindow window other

/-- An exhausted account that is put back on usable evidence was exhausted ten minutes before,
and the windows that were full have been reset: if its note was begun by that exhaustion, and
the noted reset is past or these windows report the latest reset. -/
theorem recovered_after_reset {clock : Rfc3339} (hempty : clock.parse "" = none) {passes : List Pass} {now : ℤ}
    {front back : List AccountRecord} {record : AccountRecord} {answers : AdminAnswers}
    (hnow : ∀ pass ∈ passes ++ [Pass.mk now (front ++ record :: back) answers],
      clock.parse (clock.render pass.now) = some pass.now)
    {entry : OAuthRecoveryObservation} {watch : Watch} {exhausted : ℤ}
    (hentry : findObservation ((Pass.mk now (front ++ record :: back) answers).behind clock
      (storedAfter clock passes) front).observations record.account.id = some entry)
    (hwatch : (Pass.mk now (front ++ record :: back) answers).watchesBehind clock (storedAfter clock passes)
      (watchesAfter clock passes) front record.account.id = some watch)
    (hexhausted : watch.exhausted = some exhausted)
    (hevidence : record.quotaEvidence = .usable)
    (hrecover : directiveOf clock now ((Pass.mk now (front ++ record :: back) answers).behind clock
      (storedAfter clock passes) front).observations record = .recover)
    (hbegun : watch.begun = exhausted)
    (hreset : ResetOfWatched clock entry watch record.account.windows now) :
    exhausted + minutes 10 ≤ now ∧ watch.full ≠ []
      ∧ ∀ window ∈ watch.full, WindowReset clock window record.account.windows now := by
  have hnoted : Noted clock entry watch := by
    have hall := (noted_after hempty fun pass hpass => hnow pass (List.mem_append_left _ hpass)).behind hempty
      (hnow _ (List.mem_append_right _ List.mem_cons_self)) front (onePerAccount_storedAfter passes)
    have hrel := hall record.account.id
    rw [hentry, hwatch] at hrel
    cases hrel with
    | some hnoted => exact hnoted
  have hconfirmed : minutes 10 ≤ now - watch.begun
      ∧ quotaResetConfirmed clock entry record.account.windows now = true := by
    rcases (directiveOf_eq_recover_iff hempty hentry hnoted.begun).mp hrecover with ⟨-, h⟩ | ⟨h, -⟩
    · exact h
    · rw [hevidence] at h
      cases h
  obtain ⟨hstable, hconfirmed⟩ := hconfirmed
  obtain ⟨hgiven, hseen⟩ := quotaResetConfirmed_iff.mp hconfirmed
  refine ⟨by omega, ?_, ?_⟩
  · refine hnoted.full fun h => hgiven ?_
    rw [h]
    rfl
  intro window hwindow
  have hresetAt := hnoted.resets window hwindow
  rcases hreset with hpast | ⟨htrim, hlatest⟩
  · left
    rw [hresetAt]
    exact hpast
  rcases hseen with hpast | ⟨seen, hseen, hdiffers⟩
  · left
    rw [hresetAt]
    exact hpast
  -- the latest reset that is reported is that of the same window
  right
  obtain ⟨other, hother, hsame⟩ := hlatest window hwindow
  refine ⟨other, hother.1, hsame, fun h => hdiffers ?_⟩
  rw [← currentResetAt_eq hseen, currentResetAt_eq hother, h, hresetAt, htrim]

namespace RecoveryRun

/-- The five-hour window of the account 1. -/
def fiveHour (percent : ℚ) : UsageWindow := window "five_hour" "2026-08-12T04:00:00Z" percent

/-- The five-hour window is full, half of the weekly one is left. -/
def exhaustedQuery : Pass := query midnight [fiveHour 100, weekly 50] .exhausted

/-- The note that is taken of it. -/
def notedFiveHour : OAuthRecoveryObservation := { noted with resetAt := "2026-08-12T04:00:00Z" }

/-- The watch on the account 1. -/
def watchFiveHour : Watch := ⟨midnight, some midnight, [fiveHour 100]⟩

theorem find_notedFiveHour (now : ℤ) (percent : ℚ) :
    findObservation ((query now [fiveHour percent, weekly 50] .usable).behind clock
        (storedAfter clock [exhaustedQuery]) []).observations 1 = some notedFiveHour := by
  have hstored : storedAfter clock [exhaustedQuery] = [notedFiveHour] := by decide +kernel
  rw [hstored, Pass.behind, reconcileRecords]
  rfl

theorem watch_fiveHour (now : ℤ) (percent : ℚ) :
    (query now [fiveHour percent, weekly 50] .usable).watchesBehind clock (storedAfter clock [exhaustedQuery])
        (watchesAfter clock [exhaustedQuery]) [] 1 = some watchFiveHour := by
  have hwatch : watchesAfter clock [exhaustedQuery] 1 = some watchFiveHour := by decide +kernel
  rw [Pass.watchesBehind, watchRecords, hwatch]
  rfl

/-- At five o'clock the five-hour window has been reset. -/
theorem recovered_fiveHour :
    midnight + minutes 10 ≤ midnight + minutes 300 ∧ watchFiveHour.full ≠ []
      ∧ ∀ window ∈ watchFiveHour.full,
        WindowReset clock window [fiveHour 0, weekly 50] (midnight + minutes 300) := by
  refine @recovered_after_reset clock (by decide) [exhaustedQuery] (midnight + minutes 300) [] []
    (found [fiveHour 0, weekly 50] .usable) answers ?_ notedFiveHour watchFiveHour midnight
    (find_notedFiveHour _ 0) (watch_fiveHour _ 0) rfl rfl (by decide +kernel) rfl ?_
  · intro pass hpass
    rcases List.mem_cons.mp hpass with rfl | hpass
    · decide +kernel
    · obtain rfl := List.mem_singleton.mp hpass
      decide +kernel
  · exact .inl ⟨midnight + minutes 240, by decide +kernel, by decide⟩

/-- Ten minutes after the five-hour window was full the account is put back, since the reset of
the weekly window is a later one: nothing has been reset. -/
theorem recovered_before_reset :
    (query (midnight + minutes 10) [fiveHour 99, weekly 50] .usable).watchesBehind clock
        (storedAfter clock [exhaustedQuery]) (watchesAfter clock [exhaustedQuery]) [] 1 = some watchFiveHour
      ∧ watchFiveHour.exhausted = some midnight
      ∧ directiveOf clock (midnight + minutes 10)
          ((query (midnight + minutes 10) [fiveHour 99, weekly 50] .usable).behind clock
            (storedAfter clock [exhaustedQuery]) []).observations (found [fiveHour 99, weekly 50] .usable)
        = .recover
      ∧ ¬ (midnight + minutes 10 ≤ midnight + minutes 10 ∧ watchFiveHour.full ≠ []
        ∧ ∀ window ∈ watchFiveHour.full,
          WindowReset clock window [fiveHour 99, weekly 50] (midnight + minutes 10)) := by
  refine ⟨watch_fiveHour _ 99, rfl, by decide +kernel, ?_⟩
  rintro ⟨-, -, h⟩
  rcases h (fiveHour 100) List.mem_cons_self with ⟨reset, hparse, hpast⟩ | ⟨other, hother, hsame, hdiffers⟩
  · have htime : clock.parse (fiveHour 100).resetAt = some (midnight + minutes 240) := by decide +kernel
    rw [htime, Option.some.injEq] at hparse
    simp only [minutes] at hparse hpast
    omega
  · rcases List.mem_cons.mp hother with rfl | hother
    · exact hdiffers rfl
    · obtain rfl := List.mem_singleton.mp hother
      exact absurd hsame.1 (by decide)

end RecoveryRun

end CodexRouter
