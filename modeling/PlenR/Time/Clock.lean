import Mathlib.Order.SuccPred.IntervalSucc
import PlenR.Foundation.Granularity
import PlenR.Time.Texts

/-! Local calendar time, as the date library of the app computes it.

An instant is the time value of a `Date`: milliseconds, as an integer. Minutes,
days and months are numbered by integers; month `12 * year + month` counts
months of the calendar, with January as month zero of its year. A `Clock` is
the local time of one device: which instant starts each unit, the three wall-clock
operations the screens perform, and what `moment` makes of a month and of a number
of months. Zones with changing offsets are
clocks like any other, so nothing below assumes days of equal length.
-/

set_option autoImplicit false

namespace PlenR.Time

open Foundation

structure Clock where
  minute : Granularity ℤ ℤ
  dayOfMinute : Granularity ℤ ℤ
  monthOfDay : Granularity ℤ ℤ
  /-- `moment.add(n, 'months')`. -/
  addMonths : ℤ → ℤ → ℤ
  month_addMonths : ∀ instant n,
    monthOfDay.unitOf (dayOfMinute.unitOf (minute.unitOf (addMonths instant n))) =
      monthOfDay.unitOf (dayOfMinute.unitOf (minute.unitOf instant)) + n
  /-- `moment.date(d)`: day `d` of the month the instant lies in. -/
  setDate : ℤ → ℤ → ℤ
  day_setDate : ∀ instant date,
    dayOfMinute.unitOf (minute.unitOf (setDate instant date)) =
      monthOfDay.startOf (monthOfDay.unitOf (dayOfMinute.unitOf (minute.unitOf instant))) + (date - 1)
  /-- `new Date(y, m, d, h + 1, min, 0, 0)` for the wall-clock fields of an instant. -/
  hourAfter : ℤ → ℤ
  /-- `moment.format("MMMM YYYY")` of a month and a year. -/
  formatMonthYear : ℤ → ℤ → String
  formatMonthYear_injective : ∀ {month year month' year'}, 0 ≤ month ∧ month < 12 → 0 ≤ month' ∧ month' < 12 →
    0 ≤ year → 0 ≤ year' → formatMonthYear month year = formatMonthYear month' year' → month = month' ∧ year = year'
  blank_mem_formatMonthYear : ∀ month year, ' ' ∈ (formatMonthYear month year).toList
  /-- The rounding of `moment.add` and `moment.subtract` for a number of months. -/
  absRound : ℚ → ℤ
  absRound_intCast : ∀ number : ℤ, absRound number = number

namespace Clock

variable (clock : Clock)

def day : Granularity ℤ ℤ := clock.minute.comp clock.dayOfMinute

def month : Granularity ℤ ℤ := clock.day.comp clock.monthOfDay

@[simp] theorem month_unitOf_addMonths (instant : ℤ) (n : ℤ) :
    clock.month.unitOf (clock.addMonths instant n) = clock.month.unitOf instant + n :=
  clock.month_addMonths instant n

@[simp] theorem day_unitOf_setDate (instant : ℤ) (date : ℤ) :
    clock.day.unitOf (clock.setDate instant date) =
      clock.monthOfDay.startOf (clock.month.unitOf instant) + (date - 1) :=
  clock.day_setDate instant date

end Clock

/-! ## Comparison at a stated unit -/

section Comparison
variable (units : Granularity ℤ ℤ)

def isSame (instant other : ℤ) : Bool :=
  units.unitOf instant = units.unitOf other

def isBefore (instant other : ℤ) : Bool :=
  units.unitOf instant < units.unitOf other

/-- `moment.isBetween(lower, upper, unit, '[)')`. -/
def isBetween (instant lower upper : ℤ) : Bool :=
  !isBefore units instant lower && isBefore units instant upper

theorem isSame_iff (instant other : ℤ) :
    isSame units instant other = true ↔ units.unitOf instant = units.unitOf other := by
  simp [isSame]

theorem isBetween_iff (instant lower upper : ℤ) :
    isBetween units instant lower upper = true ↔
      units.unitOf lower ≤ units.unitOf instant ∧ units.unitOf instant < units.unitOf upper := by
  simp [isBetween, isBefore]

end Comparison

/-! ## A concrete clock -/

/-- Number of the first day of a month, with 1 January 1970 as day zero. Years
are counted from March, so that the leap day ends a year. -/
def monthStart (month : ℤ) : ℤ :=
  let year := (month - 2) / 12
  365 * year + year / 4 - year / 100 + year / 400 + (153 * ((month - 2) % 12) + 2) / 5 - 719468

/-- A month has from 1 to 31 days. -/
theorem monthStart_step (month : ℤ) :
    monthStart month < monthStart (month + 1) ∧ monthStart (month + 1) ≤ monthStart month + 31 := by
  unfold monthStart
  have split : (month + 1 - 2) / 12 = (month - 2) / 12 ∧ (month + 1 - 2) % 12 = (month - 2) % 12 + 1 ∨
      (month + 1 - 2) / 12 = (month - 2) / 12 + 1 ∧ (month + 1 - 2) % 12 = 0 ∧ (month - 2) % 12 = 11 := by
    omega
  rcases split with ⟨sameYear, nextMonth⟩ | ⟨nextYear, march, february⟩
  · rw [sameYear, nextMonth]
    dsimp only
    omega
  · rw [nextYear, march, february]
    dsimp only
    omega

theorem monthStart_lt_succ (month : ℤ) : monthStart month < monthStart (month + 1) := (monthStart_step month).1

/-- The month a day lies in or the one before it, from the mean length of a month. -/
def monthEstimate (day : ℤ) : ℤ := 4800 * (day + 719464) / 146097 + 2

theorem monthStart_estimate_le (day : ℤ) : monthStart (monthEstimate day) ≤ day := by
  unfold monthStart
  dsimp only
  generalize estimate : monthEstimate day - 2 = month
  have mean : 146097 * month ≤ 4800 * (day + 719464) := by unfold monthEstimate at estimate; omega
  have parts : month = 12 * (month / 12) + month % 12 := by omega
  have bounds : 0 ≤ month % 12 ∧ month % 12 ≤ 11 := by omega
  generalize month / 12 = year at parts ⊢
  generalize month % 12 = rest at parts bounds ⊢
  omega

theorem lt_monthStart_estimate (day : ℤ) : day < monthStart (monthEstimate day + 2) := by
  unfold monthStart
  dsimp only
  generalize estimate : monthEstimate day + 2 - 2 = month
  have mean : 4800 * (day + 719464) < 146097 * (month - 1) := by unfold monthEstimate at estimate; omega
  have parts : month = 12 * (month / 12) + month % 12 := by omega
  have bounds : 0 ≤ month % 12 ∧ month % 12 ≤ 11 := by omega
  generalize month / 12 = year at parts ⊢
  generalize month % 12 = rest at parts bounds ⊢
  omega

def monthOfDayNumber (day : ℤ) : ℤ :=
  if monthStart (monthEstimate day + 1) ≤ day then monthEstimate day + 1 else monthEstimate day

def gregorianMonths : Granularity ℤ ℤ :=
  .ofBrackets monthStart monthOfDayNumber (strictMono_int_of_lt_succ monthStart_lt_succ)
    (by
      intro day
      unfold monthOfDayNumber
      split
      next reached => exact reached
      next => exact monthStart_estimate_le day)
    (by
      intro day
      unfold monthOfDayNumber
      split
      next => exact (lt_monthStart_estimate day).trans_eq (congrArg monthStart (by omega))
      next before => omega)

def onDay (day : ℤ) (instant : ℤ) : ℤ := day * 86400000 + instant % 86400000

theorem day_onDay (day : ℤ) (instant : ℤ) : onDay day instant / 60000 / 1440 = day := by
  unfold onDay
  omega

theorem month_of_within (month day : ℤ) (lower : monthStart month ≤ day) (upper : day < monthStart (month + 1)) :
    gregorianMonths.unitOf day = month := by
  refine (gregorianMonths.within_iff month day).mp ⟨lower, ?_⟩
  change day ≤ monthStart (month + 1) - 1
  omega

def universalClock : Clock where
  minute := .every 60000 (by decide)
  dayOfMinute := .every 1440 (by decide)
  monthOfDay := gregorianMonths
  -- the day of the month is kept, or cut to the last day of a shorter month
  addMonths := fun instant n =>
    let day := instant / 60000 / 1440
    let month := gregorianMonths.unitOf day
    let length := monthStart (month + n + 1) - monthStart (month + n)
    onDay (monthStart (month + n) + min (day - monthStart month) (length - 1)) instant
  month_addMonths := by
    intro instant n
    change gregorianMonths.unitOf (onDay _ instant / 60000 / 1440) =
      gregorianMonths.unitOf (instant / 60000 / 1440) + n
    rw [day_onDay]
    have here : monthStart (gregorianMonths.unitOf (instant / 60000 / 1440)) ≤ instant / 60000 / 1440 :=
      (gregorianMonths.startOf_le_iff _ _).mpr le_rfl
    have room := monthStart_lt_succ (gregorianMonths.unitOf (instant / 60000 / 1440) + n)
    exact month_of_within _ _ (by omega) (by omega)
  setDate := fun instant date =>
    onDay (monthStart (gregorianMonths.unitOf (instant / 60000 / 1440)) + (date - 1)) instant
  day_setDate := fun _ _ => day_onDay _ _
  hourAfter := fun instant => instant / 60000 * 60000 + 3600000
  formatMonthYear := formatMonthYear
  formatMonthYear_injective := formatMonthYear_injective
  blank_mem_formatMonthYear := blank_mem_formatMonthYear
  absRound := absRound
  absRound_intCast := absRound_intCast

-- 18 July 2018, 12:34, a Wednesday: its month, and the last day of the month after the next.
example : universalClock.month.unitOf 1531917240000 = 12 * 2018 + 6 := by decide
example : universalClock.day.unitOf (universalClock.addMonths 1533040440000 2) = monthStart (12 * 2018 + 9) - 1 := by
  decide

end PlenR.Time
