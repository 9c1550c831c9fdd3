/-
# Quota windows

What the usage query reads of an account: the windows of its quota, each with the share
that is used, and what they say about the account.  A full weekly or five-hour window
blocks the account; where there is no weekly window, any full one does.

Times count milliseconds, the resolution in which they are written.
-/
import CodexRouter.Base.Text
import Mathlib.Data.Rat.Defs
import Mathlib.Order.Lattice

namespace CodexRouter

open Text

/-! ## Windows -/

/-- `UsageWindow`. -/
structure UsageWindow where
  kind : String
  displayName : String
  usedPercent : Option ℚ
  resetAt : String
  limitAmount : Option ℚ
  currency : String
  deriving DecidableEq, Repr

/-- The `f32` that is written 99.999. -/
def capacityPercent : ℚ := 13107069 / 131072

/-- `window_at_capacity`. -/
def windowAtCapacity (window : UsageWindow) : Bool :=
  window.usedPercent.any fun percent => capacityPercent ≤ percent

/-- A weekly window. -/
def isWeekly (window : UsageWindow) : Bool := window.kind ∈ ["weekly", "seven_day", "sevenDay"]

/-- A five-hour window. -/
def isFiveHour (window : UsageWindow) : Bool :=
  window.kind ∈ ["fiveHour", "five_hour", "five-hour", "fivehour"]

/-- `has_weekly_quota_window`. -/
def hasWeeklyQuotaWindow (windows : List UsageWindow) : Bool := windows.any isWeekly

/-- `weekly_quota_is_exhausted`. -/
def weeklyQuotaIsExhausted (windows : List UsageWindow) : Bool :=
  (windows.filter isWeekly).any windowAtCapacity

/-- `short_quota_is_exhausted`. -/
def shortQuotaIsExhausted (windows : List UsageWindow) : Bool :=
  (windows.filter isFiveHour).any windowAtCapacity

/-- `live_quota_is_usable`. -/
def liveQuotaIsUsable (windows : List UsageWindow) : Bool :=
  if windows.isEmpty then false
  else if hasWeeklyQuotaWindow windows then
    !weeklyQuotaIsExhausted windows && !shortQuotaIsExhausted windows
  else !windows.any windowAtCapacity

/-- `live_quota_is_exhausted`. -/
def liveQuotaIsExhausted (windows : List UsageWindow) : Bool :=
  if windows.isEmpty then false
  else if hasWeeklyQuotaWindow windows then
    weeklyQuotaIsExhausted windows || shortQuotaIsExhausted windows
  else windows.any windowAtCapacity

/-- `OAuthQuotaEvidence`. -/
inductive OAuthQuotaEvidence where
  | usable
  | exhausted
  | unknown
  deriving DecidableEq, Repr

/-- Windows are usable or exhausted, if there are any. -/
theorem liveQuotaIsUsable_eq {windows : List UsageWindow} (h : windows ≠ []) :
    liveQuotaIsUsable windows = !liveQuotaIsExhausted windows := by
  have hempty : windows.isEmpty = false := by
    rw [List.isEmpty_eq_false_iff]
    exact h
  rw [liveQuotaIsUsable, liveQuotaIsExhausted, hempty]
  simp only [Bool.false_eq_true, if_false]
  split
  · rw [Bool.not_or]
  · rfl

/-! ## Accounts -/

/-- What is used of a `UsageAccount`. -/
structure UsageAccount where
  id : ℤ
  kind : String
  status : String
  health : String
  statusDetail : String
  queryNote : String
  windows : List UsageWindow
  deriving DecidableEq, Repr

/-- `AccountRecord`. -/
structure AccountRecord where
  account : UsageAccount
  quotaEvidence : OAuthQuotaEvidence
  autoIsolateOnExhaustion : Bool
  routingChanged : Bool
  deriving DecidableEq, Repr

/-- `append_note`. -/
def appendNote (target note : String) : String :=
  if trim note = "" then target
  else if target = "" then trim note
  else target ++ " " ++ trim note

/-! ## Times -/

/-- The `chrono` crate: a time is read, or it is written with its milliseconds. -/
structure Rfc3339 where
  /-- `DateTime::parse_from_rfc3339`. -/
  parse : String → Option ℤ
  /-- `to_rfc3339_opts(SecondsFormat::Millis, true)`. -/
  render : ℤ → String

/-- The crate as far as a table of texts and times goes. -/
def Rfc3339.ofTable (times : List (String × ℤ)) : Rfc3339 where
  parse text := times.lookup text
  render time := ((times.find? fun entry => entry.2 = time).map (·.1)).getD ""

/-- The milliseconds of 2026-08-12T00:00:00Z, for runs on fixed times. -/
def midnight : ℤ := 1786492800000

/-- So many minutes in milliseconds. -/
def minutes (n : ℤ) : ℤ := n * 60000

end CodexRouter
