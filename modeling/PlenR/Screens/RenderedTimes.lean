import PlenR.Foundation.PrefixCodes
import PlenR.Screens.EventBox
import PlenR.Time.Format

/-! The times of an event as the details and the forms show them.

`EventDetails` names the day once for an event of one day and puts the day behind
each time otherwise; the forms leave out the day of the end where it is that of
the start. Either way the texts can be read back: a time ends two letters behind
its blank, a date is as long as all dates up to the year, and what is left out is
known from the rest.
-/

set_option autoImplicit false

namespace PlenR.Screens.RenderedTimes

open PlenR.Time Foundation

/-! ## Dates and times of day -/

structure WeekdayClock extends WallClock where
  getDay : ℤ → ℤ
  getDay_range : ∀ instant, 0 ≤ getDay instant ∧ getDay instant < 7
  getDay_of_day : ∀ instant other, toClock.day.unitOf instant = toClock.day.unitOf other → getDay instant = getDay other
  dateOf_le : ∀ instant, toClock.dateOf instant ≤ 31

structure Fields where
  year : ℤ
  month : ℤ
  date : ℤ
  hours : ℤ
  minutes : ℤ
  deriving DecidableEq

def dayNames : List String := ["Sun", "Mon", "Tue", "Wed", "Thu", "Fri", "Sat"]

/-- `months` of `formatDate`, which `toDateString` uses too. -/
def months : List String := ["Jan", "Feb", "Mar", "Apr", "May", "Jun", "Jul", "Aug", "Sep", "Oct", "Nov", "Dec"]

section Screens
variable (clock : WeekdayClock)

def fields (time : ℤ) : Fields where
  year := clock.yearOf time
  month := clock.monthOf time
  date := clock.dateOf time
  hours := clock.getHours time
  minutes := clock.getMinutes time

def toDateString (date : ℤ) : String :=
  dayNames.getD (clock.getDay date).toNat "" ++ " " ++ months.getD (clock.monthOf date).toNat "" ++ " " ++
    zeroFill (clock.dateOf date) 2 ++ " " ++ zeroFill (clock.yearOf date) 4

/-- `formatDate` of the forms. -/
def formatDate (date : ℤ) : String :=
  months.getD (clock.monthOf date).toNat "" ++ " " ++ toString (clock.dateOf date) ++ ", " ++ toString (clock.yearOf date)

abbrev formatDateAMPM (date : ℤ) : String := EventBox.formatDateAMPM clock.toWallClock date

/-- The two lines of `EventDetails`. -/
def renderTime (start end_ : ℤ) : String × String :=
  if clock.yearOf start = clock.yearOf end_ ∧ clock.monthOf start = clock.monthOf end_ ∧
      clock.dateOf start = clock.dateOf end_ then
    (toDateString clock start, formatDateAMPM clock start ++ " to " ++ formatDateAMPM clock end_)
  else
    (formatDateAMPM clock start ++ " " ++ toDateString clock start,
      "to " ++ formatDateAMPM clock end_ ++ " " ++ toDateString clock end_)

/-- The texts of the rows `Starts` and `Ends` in `AddEvent` and `EditEvent`. -/
def selectionTexts (start end_ : ℤ) : List String :=
  [formatDate clock start, formatDateAMPM clock start,
    if toDateString clock end_ = toDateString clock start then "" else formatDate clock end_,
    formatDateAMPM clock end_]

end Screens

/-! ## Numbers and names -/

section Numbers

theorem zeroFill_of_neg {number : ℤ} (negative : number < 0) (targetLength : ℕ) :
    zeroFill number targetLength = "-" ++ zeroFill (-number) targetLength := by
  have sign : ¬ number ≥ 0 := not_le.mpr negative
  have positive : -number ≥ 0 := by omega
  simp only [zeroFill, sign, positive, if_true, if_false, Int.natAbs_neg, String.empty_append, String.append_assoc]

theorem minus_not_mem_zeroFill {number : ℤ} (nonneg : 0 ≤ number) (targetLength : ℕ) :
    '-' ∉ (zeroFill number targetLength).toList := by
  intro member
  simp only [zeroFill, ge_iff_le, nonneg, if_true, String.empty_append, String.toList_append, String.toList_ofList,
    List.mem_append, List.mem_replicate, Nat.toString_eq_repr, Nat.toList_repr] at member
  obtain ⟨_, zero⟩ | digit := member
  · exact absurd zero (by decide)
  · exact absurd (Nat.isDigit_of_mem_toDigits (by decide) (by decide) digit) (by decide)

theorem zeroFill_inj {first second : ℤ} {targetLength : ℕ}
    (same : zeroFill first targetLength = zeroFill second targetLength) : first = second := by
  have sign : ∀ {negative nonneg : ℤ}, negative < 0 → 0 ≤ nonneg →
      zeroFill negative targetLength ≠ zeroFill nonneg targetLength := by
    intro negative nonneg below above again
    apply minus_not_mem_zeroFill above targetLength
    rw [← again, zeroFill_of_neg below]
    simp
  rcases lt_or_ge first 0 with negative | nonneg
  · rcases lt_or_ge second 0 with negative' | nonneg'
    · rw [zeroFill_of_neg negative, zeroFill_of_neg negative', String.append_right_inj] at same
      have opposite := zeroFill_injective (by omega) (by omega) same
      omega
    · exact absurd same (sign negative nonneg')
  · rcases lt_or_ge second 0 with negative' | nonneg'
    · exact absurd same.symm (sign negative' nonneg)
    · exact zeroFill_injective nonneg nonneg' same

theorem toString_eq_zeroFill (number : ℤ) : toString number = zeroFill number 0 := by
  cases number with
  | ofNat value =>
    simp only [zeroFill, Int.ofNat_eq_natCast, ge_iff_le, Int.natCast_nonneg, if_true, Nat.zero_sub, List.replicate_zero,
      String.ofList_nil, String.empty_append, Int.natAbs_natCast]
    rfl
  | negSucc value =>
    have sign : ¬ Int.negSucc value ≥ 0 := by omega
    simp only [zeroFill, sign, if_false, Nat.zero_sub, List.replicate_zero, String.ofList_nil, String.append_empty]
    rfl

theorem toString_inj {first second : ℤ} (same : toString first = toString second) : first = second := by
  rw [toString_eq_zeroFill, toString_eq_zeroFill] at same
  exact zeroFill_inj same

theorem not_mem_toString {number : ℤ} (nonneg : 0 ≤ number) {mark : Char} (notDigit : mark.isDigit = false) :
    mark ∉ (toString number).toList := by
  intro member
  obtain ⟨value, rfl⟩ := Int.eq_ofNat_of_zero_le nonneg
  change mark ∈ (toString value).toList at member
  rw [Nat.toString_eq_repr, Nat.toList_repr] at member
  rw [Nat.isDigit_of_mem_toDigits (by decide) (by decide) member] at notDigit
  cases notDigit

theorem length_zeroFill_two {number : ℤ} (inRange : 0 ≤ number ∧ number < 100) : (zeroFill number 2).toList.length = 2 := by
  have all : ∀ value : Fin 100, (zeroFill (value : ℕ) 2).toList.length = 2 := by decide
  obtain ⟨value, rfl⟩ := Int.eq_ofNat_of_zero_le inRange.1
  exact all ⟨value, by omega⟩

theorem minutes_eq_zeroFill {minutes : ℤ} (inHour : 0 ≤ minutes ∧ minutes < 60) :
    (if minutes < 10 then "0" ++ toString minutes else toString minutes) = zeroFill minutes 2 := by
  have all : ∀ value : Fin 60, (if ((value : ℕ) : ℤ) < 10 then "0" ++ toString ((value : ℕ) : ℤ) else toString ((value : ℕ) : ℤ)) =
      zeroFill (value : ℕ) 2 := by decide
  obtain ⟨value, rfl⟩ := Int.eq_ofNat_of_zero_le inHour.1
  exact all ⟨value, by omega⟩

theorem name_delimiting (names : List String) {count : ℤ} (counted : names.length = count) (distinct : names.Nodup)
    (long : ∀ name ∈ names, name.toList.length = 3) :
    SelfDelimiting (fun number : ℤ => 0 ≤ number ∧ number < count) fun number => (names.getD number.toNat "").toList := by
  subst counted
  have named : ∀ number : ℤ, 0 ≤ number ∧ number < names.length →
      ∃ inside : number.toNat < names.length, names.getD number.toNat "" = names[number.toNat] := by
    intro number inRange
    have inside : number.toNat < names.length := by omega
    exact ⟨inside, List.getD_eq_getElem _ _ inside⟩
  apply SelfDelimiting.of_length 3
  · intro number inRange
    obtain ⟨inside, same⟩ := named number inRange
    rw [same]
    exact long _ (List.getElem_mem inside)
  · intro number other inRange otherInRange same
    obtain ⟨inside, found⟩ := named number inRange
    obtain ⟨otherInside, otherFound⟩ := named other otherInRange
    have texts := String.toList_inj.mp same
    rw [found, otherFound] at texts
    have numbers := distinct.getElem_inj_iff.mp texts
    omega

end Numbers

/-! ## Times of day -/

section Time

def face (time : ℤ × ℤ) : ℤ × (ℤ × Bool) := (if time.1 % 12 = 0 then 12 else time.1 % 12, (time.2, decide (time.1 ≥ 12)))

def InDay (time : ℤ × ℤ) : Prop := (0 ≤ time.1 ∧ time.1 < 24) ∧ 0 ≤ time.2 ∧ time.2 < 60

theorem hour_delimiting : SelfDelimiting (fun hour : ℤ => 0 ≤ hour) fun hour => (toString hour).toList ++ [':'] :=
  .of_mark ':' (fun _ nonneg => not_mem_toString nonneg (by decide))
    fun _ _ _ _ same => toString_inj (String.toList_inj.mp same)

theorem minutes_delimiting : SelfDelimiting (fun minutes : ℤ => 0 ≤ minutes ∧ minutes < 60)
    fun minutes => (zeroFill minutes 2).toList :=
  .of_length 2 (fun _ inHour => length_zeroFill_two (by omega))
    fun _ _ _ _ same => zeroFill_inj (String.toList_inj.mp same)

theorem half_delimiting : SelfDelimiting (fun _ : Bool => True)
    fun afternoon => [' ', if afternoon then 'p' else 'a', 'm'] :=
  .of_length 3 (fun _ _ => rfl) (by decide)

theorem time_delimiting : SelfDelimiting InDay fun time =>
    ((toString (face time).1).toList ++ [':']) ++
      ((zeroFill (face time).2.1 2).toList ++ [' ', if (face time).2.2 then 'p' else 'a', 'm']) := by
  refine (hour_delimiting.append (minutes_delimiting.append half_delimiting)).comap face ?_ ?_
  · intro ⟨hours, minutes⟩ ⟨_, inHour⟩
    refine ⟨?_, inHour, trivial⟩
    change 0 ≤ if hours % 12 = 0 then 12 else hours % 12
    split
    · decide
    · omega
  · intro ⟨hours, minutes⟩ ⟨hours', minutes'⟩ ⟨inDay, _⟩ ⟨inDay', _⟩ same
    simp only [face, Prod.mk.injEq, decide_eq_decide] at same
    obtain ⟨hour, rfl, half⟩ := same
    dsimp only at inDay inDay'
    have hours_same : hours = hours' := by
      split at hour <;> split at hour <;> omega
    rw [hours_same]

variable {clock : WeekdayClock}

theorem formatDateAMPM_toList (date : ℤ) : (formatDateAMPM clock date).toList =
    ((toString (face (clock.getHours date, clock.getMinutes date)).1).toList ++ [':']) ++
      ((zeroFill (face (clock.getHours date, clock.getMinutes date)).2.1 2).toList ++
        [' ', if (face (clock.getHours date, clock.getMinutes date)).2.2 then 'p' else 'a', 'm']) := by
  simp only [formatDateAMPM, EventBox.formatDateAMPM, face, minutes_eq_zeroFill (clock.minutes_range date)]
  by_cases afternoon : clock.getHours date ≥ 12
  · simp [afternoon]
  · simp [afternoon]

theorem formatDateAMPM_append {date other : ℤ} {rest rest' : List Char}
    (same : (formatDateAMPM clock date).toList ++ rest = (formatDateAMPM clock other).toList ++ rest') :
    (clock.getHours date = clock.getHours other ∧ clock.getMinutes date = clock.getMinutes other) ∧ rest = rest' := by
  rw [formatDateAMPM_toList, formatDateAMPM_toList] at same
  obtain ⟨times, rests⟩ := time_delimiting (clock.getHours date, clock.getMinutes date)
    (clock.getHours other, clock.getMinutes other) ⟨clock.hours_range date, clock.minutes_range date⟩
    ⟨clock.hours_range other, clock.minutes_range other⟩ _ _ same
  exact ⟨Prod.mk.inj times, rests⟩

theorem formatDateAMPM_inj {date other : ℤ} (same : formatDateAMPM clock date = formatDateAMPM clock other) :
    clock.getHours date = clock.getHours other ∧ clock.getMinutes date = clock.getMinutes other := by
  have texts := congrArg (fun text : String => text.toList ++ []) same
  exact (formatDateAMPM_append texts).1

theorem formatDateAMPM_ne_letter {date : ℤ} {letter : Char} (notDigit : letter.isDigit = false) (notColon : letter ≠ ':')
    (rest rest' : List Char) : (formatDateAMPM clock date).toList ++ rest ≠ letter :: rest' := by
  intro same
  rw [formatDateAMPM_toList, List.append_assoc, List.append_assoc] at same
  have hour : 0 ≤ (face (clock.getHours date, clock.getMinutes date)).1 := by
    unfold face
    dsimp only
    split
    · decide
    · omega
  have absent := not_mem_toString hour notDigit
  cases digits : (toString (face (clock.getHours date, clock.getMinutes date)).1).toList with
  | nil =>
    rw [digits] at same
    exact notColon (List.cons.inj same).1.symm
  | cons digit digits' =>
    rw [digits] at same absent
    exact absent ((List.cons.inj same).1 ▸ List.mem_cons_self)

end Time

/-! ## Dates -/

section Date
variable (clock : WeekdayClock)

def SameDate (date other : ℤ) : Prop :=
  clock.yearOf date = clock.yearOf other ∧ clock.monthOf date = clock.monthOf other ∧ clock.dateOf date = clock.dateOf other

instance (date other : ℤ) : Decidable (SameDate clock date other) := inferInstanceAs (Decidable (_ ∧ _))

theorem dateOf_pos (date : ℤ) : 1 ≤ clock.dateOf date := by
  have started := (clock.monthOfDay.startOf_le_iff (clock.month.unitOf date) (clock.day.unitOf date)).mpr le_rfl
  unfold Clock.dateOf
  omega

variable {clock} {date other : ℤ}

theorem SameDate.day (same : SameDate clock date other) : clock.day.unitOf date = clock.day.unitOf other := by
  rw [← clock.day_of_fields date, ← clock.day_of_fields other, ← clock.month_of_fields date, ← clock.month_of_fields other,
    same.1, same.2.1, same.2.2]

theorem month_delimiting : SelfDelimiting (fun month : ℤ => 0 ≤ month ∧ month < 12)
    fun month => (months.getD month.toNat "").toList :=
  name_delimiting months rfl (by decide) (by decide)

theorem toDateString_delimiting : SelfDelimiting
    (fun day : ℤ × (ℤ × ℤ) => (0 ≤ day.1 ∧ day.1 < 7) ∧ (0 ≤ day.2.1 ∧ day.2.1 < 12) ∧ (0 ≤ day.2.2 ∧ day.2.2 < 100))
    fun day => (dayNames.getD day.1.toNat "").toList ++
      ([' '] ++ ((months.getD day.2.1.toNat "").toList ++ ([' '] ++ (zeroFill day.2.2 2).toList))) := by
  have dates : SelfDelimiting (fun date : ℤ => 0 ≤ date ∧ date < 100) fun date => (zeroFill date 2).toList :=
    .of_length 2 (fun _ inRange => length_zeroFill_two inRange) fun _ _ _ _ same => zeroFill_inj (String.toList_inj.mp same)
  have names : SelfDelimiting (fun day : ℤ => 0 ≤ day ∧ day < 7) fun day => (dayNames.getD day.toNat "").toList :=
    name_delimiting dayNames rfl (by decide) (by decide)
  exact names.append ((month_delimiting.append (dates.behind [' '])).behind [' '])

theorem toDateString_iff : toDateString clock date = toDateString clock other ↔ SameDate clock date other := by
  constructor
  · intro same
    have texts := congrArg String.toList same
    have split : ∀ date, (toDateString clock date).toList =
        ((dayNames.getD (clock.getDay date).toNat "").toList ++ ([' '] ++ ((months.getD (clock.monthOf date).toNat "").toList ++
          ([' '] ++ (zeroFill (clock.dateOf date) 2).toList)))) ++ (' ' :: (zeroFill (clock.yearOf date) 4).toList) := by
      intro date
      simp [toDateString]
    have inRange : ∀ date, (0 ≤ clock.getDay date ∧ clock.getDay date < 7) ∧
        (0 ≤ clock.monthOf date ∧ clock.monthOf date < 12) ∧ 0 ≤ clock.dateOf date ∧ clock.dateOf date < 100 := by
      intro date
      have lower := dateOf_pos clock date
      have upper := clock.dateOf_le date
      exact ⟨clock.getDay_range date, clock.monthOf_range date, by omega, by omega⟩
    rw [split, split] at texts
    obtain ⟨days, rests⟩ := toDateString_delimiting (clock.getDay date, clock.monthOf date, clock.dateOf date)
      (clock.getDay other, clock.monthOf other, clock.dateOf other) (inRange date) (inRange other) _ _ texts
    simp only [Prod.mk.injEq] at days
    exact ⟨zeroFill_inj (String.toList_inj.mp (List.cons.inj rests).2), days.2⟩
  · intro same
    unfold toDateString
    rw [clock.getDay_of_day date other same.day, same.1, same.2.1, same.2.2]

theorem formatDate_iff : formatDate clock date = formatDate clock other ↔ SameDate clock date other := by
  constructor
  · intro same
    have texts := congrArg String.toList same
    have split : ∀ date, (formatDate clock date).toList = ((months.getD (clock.monthOf date).toNat "").toList ++
        ([' '] ++ ((toString (clock.dateOf date)).toList ++ [',']))) ++ (' ' :: (toString (clock.yearOf date)).toList) := by
      intro date
      simp [formatDate]
    have dates : SelfDelimiting (fun date : ℤ => 0 ≤ date) fun date => (toString date).toList ++ [','] :=
      .of_mark ',' (fun _ nonneg => not_mem_toString nonneg (by decide))
        fun _ _ _ _ same => toString_inj (String.toList_inj.mp same)
    have inRange : ∀ date, (0 ≤ clock.monthOf date ∧ clock.monthOf date < 12) ∧ 0 ≤ clock.dateOf date := by
      intro date
      have lower := dateOf_pos clock date
      exact ⟨clock.monthOf_range date, by omega⟩
    rw [split, split] at texts
    obtain ⟨days, rests⟩ := (month_delimiting.append (dates.behind [' '])) (clock.monthOf date, clock.dateOf date)
      (clock.monthOf other, clock.dateOf other) (inRange date) (inRange other) _ _ texts
    exact ⟨toString_inj (String.toList_inj.mp (List.cons.inj rests).2), Prod.mk.inj days⟩
  · intro same
    unfold formatDate
    rw [same.1, same.2.1, same.2.2]

theorem formatDate_ne_empty : formatDate clock date ≠ "" := by
  intro empty
  have comma : ',' ∈ (formatDate clock date).toList := by simp [formatDate]
  rw [empty] at comma
  cases comma

end Date

/-! ## What the texts tell -/

section Texts
variable {clock : WeekdayClock} {start end_ start' end_' : ℤ}

theorem fields_eq_iff {date other : ℤ} : fields clock date = fields clock other ↔
    SameDate clock date other ∧ clock.getHours date = clock.getHours other ∧ clock.getMinutes date = clock.getMinutes other := by
  simp [fields, SameDate, and_assoc]

theorem formatDateAMPM_congr {date other : ℤ} (same : fields clock date = fields clock other) :
    formatDateAMPM clock date = formatDateAMPM clock other := by
  obtain ⟨_, hours, minutes⟩ := fields_eq_iff.mp same
  simp only [formatDateAMPM, EventBox.formatDateAMPM, hours, minutes]

theorem SameDate.symm {date other : ℤ} (same : SameDate clock date other) : SameDate clock other date :=
  ⟨same.1.symm, same.2.1.symm, same.2.2.symm⟩

theorem SameDate.trans {date other third : ℤ} (same : SameDate clock date other) (next : SameDate clock other third) :
    SameDate clock date third :=
  ⟨same.1.trans next.1, same.2.1.trans next.2.1, same.2.2.trans next.2.2⟩

theorem sameDate_congr (startSame : SameDate clock start start') (endSame : SameDate clock end_ end_') :
    SameDate clock start end_ ↔ SameDate clock start' end_' :=
  ⟨fun same => (startSame.symm.trans same).trans endSame, fun same => (startSame.trans same).trans endSame.symm⟩

theorem renderTime_oneDay (same : SameDate clock start end_) : renderTime clock start end_ =
    (toDateString clock start, formatDateAMPM clock start ++ " to " ++ formatDateAMPM clock end_) := if_pos same

theorem renderTime_days (differ : ¬ SameDate clock start end_) : renderTime clock start end_ =
    (formatDateAMPM clock start ++ " " ++ toDateString clock start,
      "to " ++ formatDateAMPM clock end_ ++ " " ++ toDateString clock end_) := if_neg differ

theorem renderTime_kinds (same : SameDate clock start end_) (differ : ¬ SameDate clock start' end_') :
    renderTime clock start end_ ≠ renderTime clock start' end_' := by
  intro again
  rw [renderTime_oneDay same, renderTime_days differ] at again
  have texts := congrArg String.toList (Prod.mk.inj again).2
  simp only [String.toList_append, List.append_assoc] at texts
  exact formatDateAMPM_ne_letter (by decide) (by decide) _ _ texts

end Texts

/-- Two events are shown alike in `EventDetails` exactly if their starts and their
ends are of one date, hour and minute. -/
theorem renderTime_eq_iff (clock : WeekdayClock) (start end_ start' end_' : ℤ) :
    renderTime clock start end_ = renderTime clock start' end_' ↔
      fields clock start = fields clock start' ∧ fields clock end_ = fields clock end_' := by
  constructor
  · intro same
    by_cases oneDay : SameDate clock start end_
    · by_cases oneDay' : SameDate clock start' end_'
      · rw [renderTime_oneDay oneDay, renderTime_oneDay oneDay'] at same
        obtain ⟨dates, times⟩ := Prod.mk.inj same
        have startDate := toDateString_iff.mp dates
        have texts := congrArg String.toList times
        simp only [String.toList_append, List.append_assoc] at texts
        obtain ⟨startTime, rests⟩ := formatDateAMPM_append texts
        have endTime := formatDateAMPM_inj (String.toList_inj.mp (List.append_cancel_left rests))
        exact ⟨fields_eq_iff.mpr ⟨startDate, startTime⟩,
          fields_eq_iff.mpr ⟨(oneDay.symm.trans startDate).trans oneDay', endTime⟩⟩
      · exact absurd same (renderTime_kinds oneDay oneDay')
    · by_cases oneDay' : SameDate clock start' end_'
      · exact absurd same.symm (renderTime_kinds oneDay' oneDay)
      · rw [renderTime_days oneDay, renderTime_days oneDay'] at same
        obtain ⟨first, second⟩ := Prod.mk.inj same
        have firstTexts := congrArg String.toList first
        have secondTexts := congrArg String.toList second
        simp only [String.toList_append, List.append_assoc] at firstTexts secondTexts
        obtain ⟨startTime, startRest⟩ := formatDateAMPM_append firstTexts
        obtain ⟨endTime, endRest⟩ := formatDateAMPM_append (List.append_cancel_left secondTexts)
        have startDate := toDateString_iff.mp (String.toList_inj.mp (List.append_cancel_left startRest))
        have endDate := toDateString_iff.mp (String.toList_inj.mp (List.append_cancel_left endRest))
        exact ⟨fields_eq_iff.mpr ⟨startDate, startTime⟩, fields_eq_iff.mpr ⟨endDate, endTime⟩⟩
  · intro ⟨startSame, endSame⟩
    have startDate := (fields_eq_iff.mp startSame).1
    have endDate := (fields_eq_iff.mp endSame).1
    have days := sameDate_congr startDate endDate
    by_cases oneDay : SameDate clock start end_
    · rw [renderTime_oneDay oneDay, renderTime_oneDay (days.mp oneDay), toDateString_iff.mpr startDate,
        formatDateAMPM_congr startSame, formatDateAMPM_congr endSame]
    · rw [renderTime_days oneDay, renderTime_days (mt days.mpr oneDay), toDateString_iff.mpr startDate,
        toDateString_iff.mpr endDate, formatDateAMPM_congr startSame, formatDateAMPM_congr endSame]

/-- Two pairs of dates are shown alike in the forms exactly if they are the same
down to the minute; the date that is left out is that of the start. -/
theorem selectionTexts_eq_iff (clock : WeekdayClock) (start end_ start' end_' : ℤ) :
    selectionTexts clock start end_ = selectionTexts clock start' end_' ↔
      fields clock start = fields clock start' ∧ fields clock end_ = fields clock end_' := by
  simp only [selectionTexts, toDateString_iff, List.cons.injEq, and_true]
  constructor
  · intro ⟨startDates, startTimes, endDates, endTimes⟩
    have startDate := formatDate_iff.mp startDates
    have endDate : SameDate clock end_ end_' := by
      split at endDates
      next oneDay =>
        split at endDates
        next oneDay' => exact (oneDay.trans startDate).trans oneDay'.symm
        next => exact absurd endDates.symm formatDate_ne_empty
      next =>
        split at endDates
        next => exact absurd endDates formatDate_ne_empty
        next => exact formatDate_iff.mp endDates
    exact ⟨fields_eq_iff.mpr ⟨startDate, formatDateAMPM_inj startTimes⟩,
      fields_eq_iff.mpr ⟨endDate, formatDateAMPM_inj endTimes⟩⟩
  · intro ⟨startSame, endSame⟩
    have startDate := (fields_eq_iff.mp startSame).1
    have endDate := (fields_eq_iff.mp endSame).1
    refine ⟨formatDate_iff.mpr startDate, formatDateAMPM_congr startSame, ?_, formatDateAMPM_congr endSame⟩
    simp only [sameDate_congr endDate startDate, formatDate_iff.mpr endDate]

def universalWeekdays : WeekdayClock where
  toWallClock := universalWall
  getDay := fun instant => (instant / 86400000 + 4) % 7
  getDay_range := by
    intro instant
    omega
  getDay_of_day := by
    intro instant other same
    change instant / 60000 / 1440 = other / 60000 / 1440 at same
    omega
  dateOf_le := by
    intro instant
    have next := (gregorianMonths.le_endOf_iff (gregorianMonths.unitOf (instant / 60000 / 1440)) (instant / 60000 / 1440)).mpr le_rfl
    have length := (monthStart_step (gregorianMonths.unitOf (instant / 60000 / 1440))).2
    change instant / 60000 / 1440 ≤ monthStart _ - 1 at next
    change instant / 60000 / 1440 - monthStart (gregorianMonths.unitOf (instant / 60000 / 1440)) + 1 ≤ 31
    omega

-- 18 July 2018, from 12:34 for an hour.
example : renderTime universalWeekdays 1531917240000 1531920840000 = ("Wed Jul 18 2018", "12:34 pm to 1:34 pm") := by
  decide

end PlenR.Screens.RenderedTimes
