import Mathlib.Algebra.Order.Ring.Int
import Mathlib.Tactic.Common

/-!
# Points in time

The times of the `datetime` module of Python, to the microsecond.

* A `DateTime` is what the clock on the wall shows, with the offset of that clock from UTC if
  it is *aware* of one. The instants of aware times are ordered, whatever their offsets: this is
  the order of Python, between aware times.
* The time zones of the code are those of a database that is no part of it: here, a `ZoneInfo`
  is any function from the instants to the offsets. Python compares two times of the same zone
  by what its clocks show, which is `DateTime.wall`.
* A `TimeDelta` is a number of microseconds, and the difference of two times is that between
  their instants.
* A `Date` is a day of the proleptic Gregorian calendar, numbered from 1 for the 1st of January
  of the year 1, as by `date.toordinal`.
-/

/-- A duration, in microseconds. -/
abbrev TimeDelta := ℤ

namespace TimeDelta

def seconds (n : ℤ) : TimeDelta := n * 1000000
def minutes (n : ℤ) : TimeDelta := seconds (n * 60)
def hours (n : ℤ) : TimeDelta := minutes (n * 60)
def days (n : ℤ) : TimeDelta := hours (n * 24)

end TimeDelta

/-- A time that is aware of its offset, by the microseconds of UTC: aware times are compared so. -/
abbrev Instant := ℤ

/-- A time, as shown by a clock on the wall. -/
structure DateTime where
  /-- The time shown, in microseconds from the start of the year 1. -/
  wall : ℤ
  /-- How much the clock is ahead of UTC, if that is known. -/
  utcoffset : Option TimeDelta
  deriving DecidableEq, Repr, Inhabited

namespace DateTime

/-- Whether the time is aware of its offset. The code tests
    `value.tzinfo is None or value.utcoffset() is None` for the negation. -/
def aware (t : DateTime) : Bool := t.utcoffset.isSome

/-- The time in UTC. -/
def instant (t : DateTime) : ℤ := t.wall - t.utcoffset.getD 0

instance : LT DateTime := ⟨fun s t => s.instant < t.instant⟩
instance : LE DateTime := ⟨fun s t => s.instant ≤ t.instant⟩
instance (s t : DateTime) : Decidable (s < t) := inferInstanceAs (Decidable (s.instant < t.instant))
instance (s t : DateTime) : Decidable (s ≤ t) := inferInstanceAs (Decidable (s.instant ≤ t.instant))
instance : HSub DateTime DateTime TimeDelta := ⟨fun s t => s.instant - t.instant⟩
instance : HAdd DateTime TimeDelta DateTime := ⟨fun t d => { t with wall := t.wall + d }⟩
instance : HSub DateTime TimeDelta DateTime := ⟨fun t d => { t with wall := t.wall - d }⟩

theorem lt_def {s t : DateTime} : s < t ↔ s.instant < t.instant := Iff.rfl
theorem le_def {s t : DateTime} : s ≤ t ↔ s.instant ≤ t.instant := Iff.rfl
theorem not_lt {s t : DateTime} : ¬ s < t ↔ t ≤ s := Int.not_lt
theorem not_le {s t : DateTime} : ¬ s ≤ t ↔ t < s := Int.not_le
theorem le_refl (t : DateTime) : t ≤ t := Int.le_refl t.instant
theorem le_trans {s t u : DateTime} (h : s ≤ t) (h' : t ≤ u) : s ≤ u := Int.le_trans h h'
theorem sub_def (s t : DateTime) : s - t = s.instant - t.instant := rfl

@[simp] theorem instant_add (t : DateTime) (d : TimeDelta) : (t + d).instant = t.instant + d :=
  sub_add_eq_add_sub t.wall _ d |>.symm

@[simp] theorem instant_sub (t : DateTime) (d : TimeDelta) : (t - d).instant = t.instant - d :=
  sub_right_comm t.wall d _

theorem add_timeDelta_inj {s t : DateTime} {d : TimeDelta} (h : s + d = t + d) : s = t := by
  obtain ⟨wall, offset⟩ := s
  obtain ⟨wall', offset'⟩ := t
  obtain ⟨hwall, hoffset⟩ := DateTime.mk.inj h
  have hwall : wall = wall' := add_right_cancel hwall
  have hoffset : offset = offset' := hoffset
  rw [hwall, hoffset]

/-- A time of a clock that shows UTC. -/
def utc (wall : ℤ) : DateTime := ⟨wall, some 0⟩

@[simp] theorem instant_utc (wall : ℤ) : (utc wall).instant = wall := sub_zero wall

end DateTime

/-- A time zone: how much its clocks are ahead of UTC, at each instant. -/
structure ZoneInfo where
  utcoffset : ℤ → TimeDelta

/-- The same instant, on a clock of a time zone: the method `astimezone`. -/
def DateTime.astimezone (t : DateTime) (zone : ZoneInfo) : DateTime :=
  ⟨t.instant + zone.utcoffset t.instant, some (zone.utcoffset t.instant)⟩

@[simp] theorem DateTime.instant_astimezone (t : DateTime) (zone : ZoneInfo) :
    (t.astimezone zone).instant = t.instant :=
  add_sub_cancel_right t.instant _

/-- A day, by its ordinal. -/
abbrev Date := ℤ

namespace Date

/-- The start of the day on a clock on the wall, in microseconds. -/
def start (d : Date) : ℤ := TimeDelta.days (d - 1)

/-- The days before a year. -/
def daysBeforeYear (year : ℤ) : ℤ :=
  (year - 1) * 365 + (year - 1) / 4 - (year - 1) / 100 + (year - 1) / 400

def isLeap (year : ℤ) : Bool := year % 4 = 0 ∧ (year % 100 ≠ 0 ∨ year % 400 = 0)

/-- The days before a month of a year. -/
def daysBeforeMonth (year : ℤ) (month : ℕ) : ℤ :=
  ([0, 31, 59, 90, 120, 151, 181, 212, 243, 273, 304, 334].getD (month - 1) 0 : ℤ) +
    if 2 < month ∧ isLeap year then 1 else 0

/-- The day of a year, a month and a day of the month. -/
def ofCivil (year : ℤ) (month : ℕ) (day : ℤ) : Date :=
  daysBeforeYear year + daysBeforeMonth year month + day

/-- The day of the week, where 0 is Monday: the method `weekday`. -/
def weekday (d : Date) : ℤ := (d + 6) % 7

end Date

/-- The day a clock on the wall shows: the method `date`. -/
def DateTime.date (t : DateTime) : Date := t.wall / TimeDelta.days 1 + 1

/-- The time since the start of the day that a clock on the wall shows. -/
def DateTime.timeOfDay (t : DateTime) : TimeDelta := t.wall % TimeDelta.days 1

/-- A time on the wall at an hour and a minute of a day: `datetime.combine`. -/
def DateTime.combine (d : Date) (hour minute : ℤ) (offset : TimeDelta) : DateTime :=
  ⟨d.start + TimeDelta.hours hour + TimeDelta.minutes minute, some offset⟩

example : Date.ofCivil 2026 7 15 = 739812 ∧ (Date.ofCivil 2026 7 15).weekday = 2 := by decide
