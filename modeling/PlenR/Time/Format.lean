import PlenR.Time.Clock

/-! The fields of an instant, as `moment` numbers them. -/

set_option autoImplicit false

namespace PlenR.Time

namespace Clock
variable (clock : Clock)

/-- `moment.month()`, from zero. -/
def monthOf (time : ℤ) : ℤ := clock.month.unitOf time % 12

def yearOf (time : ℤ) : ℤ := clock.month.unitOf time / 12

/-- `moment.date()`, the day of the month. -/
def dateOf (time : ℤ) : ℤ := clock.day.unitOf time - clock.monthOfDay.startOf (clock.month.unitOf time) + 1

theorem monthOf_range (time : ℤ) : 0 ≤ clock.monthOf time ∧ clock.monthOf time < 12 := by
  unfold monthOf
  omega

theorem month_of_fields (time : ℤ) : 12 * clock.yearOf time + clock.monthOf time = clock.month.unitOf time := by
  unfold yearOf monthOf
  omega

theorem day_of_fields (time : ℤ) :
    clock.monthOfDay.startOf (clock.month.unitOf time) + (clock.dateOf time - 1) = clock.day.unitOf time := by
  unfold dateOf
  omega

end Clock

end PlenR.Time
