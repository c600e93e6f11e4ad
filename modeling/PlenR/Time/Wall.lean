import PlenR.Time.Days
import PlenR.Time.Format

/-! The clock on the wall, which the forms read and set.

`Date` reads and builds an instant by its local year, month, day, hour and
minute. An hour that does not exist on a day is moved and one that comes twice
is its first occurrence, so the laws hold where the offset of the zone changes
by an hour at most. Years below 100 are read as years of the 20th century and
are left out.
-/

set_option autoImplicit false

namespace PlenR.Time

structure WallClock extends DayClock where
  getHours : ℤ → ℤ
  hours_range : ∀ instant, 0 ≤ getHours instant ∧ getHours instant < 24
  getMinutes : ℤ → ℤ
  minutes_range : ∀ instant, 0 ≤ getMinutes instant ∧ getMinutes instant < 60
  /-- `new Date(year, month, date, hours, minutes, 0, 0)`. -/
  newDate : (year month date hours minutes : ℤ) → ℤ
  day_newDate : ∀ year month date hours minutes, 100 ≤ year → 0 ≤ hours ∧ hours < 24 → 0 ≤ minutes ∧ minutes < 60 →
    toClock.day.unitOf (newDate year month date hours minutes) =
      toClock.monthOfDay.startOf (12 * year + month) + (date - 1)
  newDate_le_succ : ∀ year month date hours minutes,
    newDate year month date hours minutes ≤ newDate year month date (hours + 1) minutes
  hourAfter_eq : ∀ instant, 100 ≤ toClock.yearOf instant →
    toClock.hourAfter instant =
      newDate (toClock.yearOf instant) (toClock.monthOf instant) (toClock.dateOf instant) (getHours instant + 1)
        (getMinutes instant)
  le_hourAfter : ∀ instant, instant ≤ toClock.hourAfter instant

/-- What `new Date()` and `moment()` give; no device shows a year that is left out. -/
structure Present (clock : Clock) where
  time : ℤ
  fullYear : 100 ≤ clock.yearOf time

namespace WallClock
variable (clock : WallClock)

theorem day_newDate_of_fields {instant hours : ℤ} (fullYear : 100 ≤ clock.yearOf instant)
    (inDay : 0 ≤ hours ∧ hours < 24) :
    clock.day.unitOf (clock.newDate (clock.yearOf instant) (clock.monthOf instant) (clock.dateOf instant) hours 0) =
      clock.day.unitOf instant := by
  rw [clock.day_newDate _ _ _ _ _ fullYear inDay (by decide), clock.month_of_fields, clock.day_of_fields]

end WallClock

def universalWall : WallClock where
  toDayClock := universalDays
  getHours := fun instant => instant / 3600000 % 24
  hours_range := by
    intro instant
    omega
  getMinutes := fun instant => instant / 60000 % 60
  minutes_range := by
    intro instant
    omega
  newDate := fun year month date hours minutes =>
    (monthStart (12 * year + month) + (date - 1)) * 86400000 + hours * 3600000 + minutes * 60000
  day_newDate := by
    intro year month date hours minutes _ inDay inHour
    change _ / 60000 / 1440 = monthStart (12 * year + month) + (date - 1)
    omega
  newDate_le_succ := by
    intro year month date hours minutes
    omega
  hourAfter_eq := by
    intro instant _
    have day : universalDays.day.unitOf instant = instant / 60000 / 1440 := rfl
    have fields := universalDays.day_of_fields instant
    change monthStart _ + _ = _ at fields
    change instant / 60000 * 60000 + 3600000 = (monthStart _ + _) * _ + _ + _
    rw [Clock.month_of_fields, fields, day]
    omega
  le_hourAfter := by
    intro instant
    change instant ≤ instant / 60000 * 60000 + 3600000
    omega

end PlenR.Time
