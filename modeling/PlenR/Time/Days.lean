import PlenR.Time.Clock

/-! Calendar days added to an instant, which the week view counts with. -/

set_option autoImplicit false

namespace PlenR.Time

structure DayClock extends Clock where
  /-- `moment.add(n, 'days')`. -/
  addDays : ℤ → ℤ → ℤ
  day_addDays : ∀ instant n, toClock.day.unitOf (addDays instant n) = toClock.day.unitOf instant + n

attribute [simp] DayClock.day_addDays

def universalDays : DayClock where
  toClock := universalClock
  addDays := fun instant n => instant + n * 86400000
  day_addDays := by
    intro instant n
    change (instant + n * 86400000) / 60000 / 1440 = instant / 60000 / 1440 + n
    omega

def isSameOrBefore (units : Foundation.Granularity ℤ ℤ) (instant other : ℤ) : Bool :=
  units.unitOf instant ≤ units.unitOf other

def isAfter (units : Foundation.Granularity ℤ ℤ) (instant other : ℤ) : Bool :=
  units.unitOf other < units.unitOf instant

/-- `moment.isBetween(lower, upper, unit, '()')`. -/
def isStrictlyBetween (units : Foundation.Granularity ℤ ℤ) (instant lower upper : ℤ) : Bool :=
  isAfter units instant lower && isBefore units instant upper

theorem isStrictlyBetween_iff (units : Foundation.Granularity ℤ ℤ) (instant lower upper : ℤ) :
    isStrictlyBetween units instant lower upper = true ↔
      units.unitOf lower < units.unitOf instant ∧ units.unitOf instant < units.unitOf upper := by
  simp [isStrictlyBetween, isAfter, isBefore]

/-- The text of an instant, as `format('YYYY-MM-DD HH:mm:ss')` gives it, and what `moment` reads from it. -/
structure StampFormat (clock : Clock) (Stamp : Type) where
  format : ℤ → Stamp
  parse : Stamp → ℤ
  day_parse : ∀ instant, clock.day.unitOf (parse (format instant)) = clock.day.unitOf instant

def universalStamps : StampFormat universalDays.toClock ℤ where
  format := fun instant => instant / 1000
  parse := fun stamp => stamp * 1000
  day_parse := by
    intro instant
    change instant / 1000 * 1000 / 60000 / 1440 = instant / 60000 / 1440
    omega

end PlenR.Time
