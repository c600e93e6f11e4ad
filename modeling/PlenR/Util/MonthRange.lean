import PlenR.Time.Format
import PlenR.Util.Calendar

/-! The months between two moments, as `generateYearMonthData` lists them.

The loops over the rest of the first year and over the start of the last one run
apart, so moments of one year have its months listed by both. Months of years
that differ are listed once each. Keys glue the digits of month and year
together, which can be undone as long as years have four digits.
-/

set_option autoImplicit false

namespace PlenR.Util.Calendar

open PlenR.Time Foundation

def monthsBetween (clock : Clock) (start end_ : ℤ) : List YearMonth :=
  generateYearMonthData (clock.monthOf start) (clock.yearOf start) (clock.monthOf end_) (clock.yearOf end_)

/-- All months from that of the start to that of the end, in order and each once;
the keys tell the months of four-digit years apart. -/
structure ListsMonths (clock : Clock) (start end_ : ℤ) (data : List YearMonth) : Prop where
  months : data = (upTo (clock.month.unitOf start) (clock.month.unitOf end_ + 1)).map monthPage
  count : (data.length : ℤ) =
    12 * (clock.yearOf end_ - clock.yearOf start) + clock.monthOf end_ - clock.monthOf start + 1
  keys : 1000 ≤ clock.yearOf start → clock.yearOf end_ < 10000 → (data.map YearMonth.key).Nodup

section Keys

theorem toList_toString_of_nonneg {number : ℤ} (nonneg : 0 ≤ number) :
    (toString number).toList = Nat.toDigits 10 number.toNat := by
  obtain ⟨value, rfl⟩ := Int.eq_ofNat_of_zero_le nonneg
  exact Nat.toList_repr

theorem number_of_key {month year : ℤ} (inYear : 0 ≤ month) (lower : 1000 ≤ year) (upper : year < 10000) :
    (Nat.ofDigitChars 10 (createYearMonthObj month year).key.toList 0 : ℤ) = 10000 * month + year := by
  have atMost : (Nat.toDigits 10 year.toNat).length ≤ 4 := (Nat.length_toDigits_le_iff (by omega) (by omega)).mpr (by omega)
  have atLeast : ¬ (Nat.toDigits 10 year.toNat).length ≤ 3 := by
    rw [Nat.length_toDigits_le_iff (by omega) (by omega)]
    omega
  have fourDigits : (Nat.toDigits 10 year.toNat).length = 4 := by omega
  simp only [createYearMonthObj, String.toList_append, Nat.ofDigitChars_append,
    toList_toString_of_nonneg inYear, toList_toString_of_nonneg (show 0 ≤ year by omega), Nat.ofDigitChars_ten_toDigits]
  rw [Nat.ofDigitChars_eq_ofDigitChars_zero, fourDigits, Nat.ofDigitChars_ten_toDigits]
  omega

theorem key_monthPage_injective {first second : ℤ} (lower : 1000 ≤ first / 12) (upper : first / 12 < 10000)
    (lower' : 1000 ≤ second / 12) (upper' : second / 12 < 10000)
    (same : (monthPage first).key = (monthPage second).key) : first = second := by
  have numbers := congrArg (fun key : String => (Nat.ofDigitChars 10 key.toList 0 : ℤ)) same
  simp only [monthPage] at numbers
  rw [number_of_key (by omega) lower upper, number_of_key (by omega) lower' upper'] at numbers
  omega

theorem keys_nodup {first last : ℤ} (lower : 1000 ≤ first / 12) (upper : (last - 1) / 12 < 10000) :
    (((upTo first last).map monthPage).map YearMonth.key).Nodup := by
  rw [List.map_map, List.Nodup, List.pairwise_map]
  apply (pairwise_upTo first last).imp_of_mem
  intro month later member member' order same
  obtain ⟨above, below⟩ := mem_upTo.mp member
  obtain ⟨above', below'⟩ := mem_upTo.mp member'
  have repeated := key_monthPage_injective (by omega) (by omega) (by omega) (by omega) same
  omega

end Keys

section Range
variable {clock : Clock} {start end_ : ℤ}

theorem length_monthsBetween_of_same_year (same : clock.yearOf start = clock.yearOf end_) :
    ((monthsBetween clock start end_).length : ℤ) = 12 - clock.monthOf start + (clock.monthOf end_ + 1) := by
  have startInYear := clock.monthOf_range start
  have endInYear := clock.monthOf_range end_
  simp only [monthsBetween, generateYearMonthData, same, upTo_empty (show clock.yearOf end_ ≤ clock.yearOf end_ + 1 by omega),
    List.flatMap_nil, List.append_nil, List.length_append, List.length_map, length_upTo]
  omega

end Range

/-- For moments in order, the months between them are listed right exactly if their years differ. -/
theorem monthsBetween_listsMonths_iff (clock : Clock) (start end_ : ℤ) (order : start ≤ end_) :
    ListsMonths clock start end_ (monthsBetween clock start end_) ↔ clock.yearOf start < clock.yearOf end_ := by
  have startMonth := clock.month_of_fields start
  have endMonth := clock.month_of_fields end_
  have startInYear := clock.monthOf_range start
  have endInYear := clock.monthOf_range end_
  have monthOrder := clock.month.unitOf_mono order
  constructor
  · intro lists
    by_contra notBefore
    have same : clock.yearOf start = clock.yearOf end_ := by omega
    have twice := length_monthsBetween_of_same_year same
    have once := lists.count
    omega
  · intro later
    have months : monthsBetween clock start end_ =
        (upTo (clock.month.unitOf start) (clock.month.unitOf end_ + 1)).map monthPage := by
      rw [monthsBetween, generateYearMonthData_eq startInYear endInYear later, startMonth, endMonth]
    constructor
    case months => exact months
    case count =>
      rw [months, List.length_map, length_upTo]
      omega
    case keys =>
      intro lower upper
      rw [months]
      exact keys_nodup (by omega) (by omega)

/-- From December 2017 to January 2018. -/
theorem monthsBetween_listsMonths_iff_new_year :
    ListsMonths universalClock 1514764799000 1514764800000 (monthsBetween universalClock 1514764799000 1514764800000) ↔
      universalClock.yearOf 1514764799000 < universalClock.yearOf 1514764800000 :=
  monthsBetween_listsMonths_iff universalClock 1514764799000 1514764800000 (by decide)

/-- For two moments in July 2018, thirteen months are listed. -/
theorem one_month_listed_as_thirteen :
    ¬ ∀ start end_ : ℤ, start ≤ end_ →
      ListsMonths universalClock start end_ (monthsBetween universalClock start end_) := by
  intro lists
  have count := (lists 1531917240000 1531920840000 (by decide)).count
  revert count
  decide

end PlenR.Util.Calendar
