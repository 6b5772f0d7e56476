import TradingAgent.Library.Time

/-!
# The calendar of the exchange

The regular sessions of the US equity exchanges, for the years whose calendar is published: on
every day of the week but the holidays, from 9:30 to 16:00, or to 13:00 on some days, on the
clocks of New York.
-/

namespace TradingAgent

def REGULAR_OPEN : TimeDelta := .hours 9 + .minutes 30
def REGULAR_CLOSE : TimeDelta := .hours 16
def EARLY_CLOSE : TimeDelta := .hours 13

def FULL_DAY_HOLIDAYS : List Date :=
  [.ofCivil 2023 1 2, .ofCivil 2023 1 16, .ofCivil 2023 2 20, .ofCivil 2023 4 7,
    .ofCivil 2023 5 29, .ofCivil 2023 6 19, .ofCivil 2023 7 4, .ofCivil 2023 9 4,
    .ofCivil 2023 11 23, .ofCivil 2023 12 25,
    .ofCivil 2024 1 1, .ofCivil 2024 1 15, .ofCivil 2024 2 19, .ofCivil 2024 3 29,
    .ofCivil 2024 5 27, .ofCivil 2024 6 19, .ofCivil 2024 7 4, .ofCivil 2024 9 2,
    .ofCivil 2024 11 28, .ofCivil 2024 12 25,
    .ofCivil 2025 1 1, .ofCivil 2025 1 9, .ofCivil 2025 1 20, .ofCivil 2025 2 17,
    .ofCivil 2025 4 18, .ofCivil 2025 5 26, .ofCivil 2025 6 19, .ofCivil 2025 7 4,
    .ofCivil 2025 9 1, .ofCivil 2025 11 27, .ofCivil 2025 12 25,
    .ofCivil 2026 1 1, .ofCivil 2026 1 19, .ofCivil 2026 2 16, .ofCivil 2026 4 3,
    .ofCivil 2026 5 25, .ofCivil 2026 6 19, .ofCivil 2026 7 3, .ofCivil 2026 9 7,
    .ofCivil 2026 11 26, .ofCivil 2026 12 25,
    .ofCivil 2027 1 1, .ofCivil 2027 1 18, .ofCivil 2027 2 15, .ofCivil 2027 3 26,
    .ofCivil 2027 5 31, .ofCivil 2027 6 18, .ofCivil 2027 7 5, .ofCivil 2027 9 6,
    .ofCivil 2027 11 25, .ofCivil 2027 12 24,
    .ofCivil 2028 1 17, .ofCivil 2028 2 21, .ofCivil 2028 4 14, .ofCivil 2028 5 29,
    .ofCivil 2028 6 19, .ofCivil 2028 7 4, .ofCivil 2028 9 4, .ofCivil 2028 11 23,
    .ofCivil 2028 12 25]

def EARLY_CLOSE_DAYS : List Date :=
  [.ofCivil 2023 7 3, .ofCivil 2023 11 24,
    .ofCivil 2024 7 3, .ofCivil 2024 11 29, .ofCivil 2024 12 24,
    .ofCivil 2025 7 3, .ofCivil 2025 11 28, .ofCivil 2025 12 24,
    .ofCivil 2026 11 27, .ofCivil 2026 12 24,
    .ofCivil 2027 11 26,
    .ofCivil 2028 7 3, .ofCivil 2028 11 24]

/-- Whether the calendar of the year of a day is published: `PUBLISHED_CALENDAR_YEARS`. -/
def isPublishedCalendarDate (d : Date) : Bool :=
  .ofCivil 2023 1 1 ≤ d ∧ d < .ofCivil 2029 1 1

/-- What the clocks of New York show when a regular session opens and when it closes. -/
structure SessionBounds where
  opens : ℤ
  closes : ℤ
  deriving DecidableEq, Repr

/-- The regular session of a day. -/
def regularSessionBounds (sessionDate : Date) : Option SessionBounds :=
  if ¬ isPublishedCalendarDate sessionDate
      ∨ 5 ≤ sessionDate.weekday
      ∨ sessionDate ∈ FULL_DAY_HOLIDAYS then
    none
  else
    let closeTime := if sessionDate ∈ EARLY_CLOSE_DAYS then EARLY_CLOSE else REGULAR_CLOSE
    some ⟨sessionDate.start + REGULAR_OPEN, sessionDate.start + closeTime⟩

/-- A session closes on the day it opens, and after it opens. -/
theorem regularSessionBounds_within {d : Date} {bounds : SessionBounds}
    (h : regularSessionBounds d = some bounds) :
    d.start ≤ bounds.opens ∧ bounds.opens < bounds.closes
      ∧ bounds.closes < Date.start (d + 1) := by
  rw [regularSessionBounds] at h
  split_ifs at h
  all_goals
    cases h
    simp only [REGULAR_OPEN, EARLY_CLOSE, REGULAR_CLOSE, Date.start, TimeDelta.days,
      TimeDelta.hours, TimeDelta.minutes, TimeDelta.seconds]
    omega

example : regularSessionBounds (.ofCivil 2026 7 3) = none
    ∧ regularSessionBounds (.ofCivil 2026 7 4) = none
    ∧ (regularSessionBounds (.ofCivil 2026 7 6)).isSome := by
  decide +kernel

end TradingAgent
