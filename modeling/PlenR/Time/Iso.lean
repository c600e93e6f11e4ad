import PlenR.Time.Format

/-! The ISO text of a moment, as `Date` writes and reads it.

`toISOString` writes the fields of universal time, and `new Date` reads them
from such a text. A year that has no four digits is written with a sign and six
digits, or more beyond the years a `Date` can have.
-/

set_option autoImplicit false

namespace PlenR.Time

open Foundation

/-- The fields of universal time; months and dates count from one. -/
structure IsoFields where
  year : ℤ
  month : ℤ
  date : ℤ
  hours : ℤ
  minutes : ℤ
  seconds : ℤ
  milliseconds : ℤ

namespace IsoFields

def of (time : ℤ) : IsoFields :=
  let day := time / 86400000
  let month := gregorianMonths.unitOf day
  { year := month / 12
    month := month % 12 + 1
    date := day - monthStart month + 1
    hours := time / 3600000 % 24
    minutes := time / 60000 % 60
    seconds := time / 1000 % 60
    milliseconds := time % 1000 }

/-- `Date.UTC` of the fields. -/
def time (fields : IsoFields) : ℤ :=
  (monthStart (12 * fields.year + (fields.month - 1)) + (fields.date - 1)) * 86400000 + fields.hours * 3600000 +
    fields.minutes * 60000 + fields.seconds * 1000 + fields.milliseconds

def Legal (fields : IsoFields) : Prop :=
  (1 ≤ fields.month ∧ fields.month ≤ 12) ∧
    (1 ≤ fields.date ∧ monthStart (12 * fields.year + (fields.month - 1)) + fields.date ≤
      monthStart (12 * fields.year + fields.month)) ∧
    (0 ≤ fields.hours ∧ fields.hours < 24) ∧ (0 ≤ fields.minutes ∧ fields.minutes < 60) ∧
    (0 ≤ fields.seconds ∧ fields.seconds < 60) ∧ (0 ≤ fields.milliseconds ∧ fields.milliseconds < 1000)

instance (fields : IsoFields) : Decidable fields.Legal := inferInstanceAs (Decidable (_ ∧ _))

def writeYear (year : ℤ) : String :=
  if year < 0 then "-" ++ zeroFill (-year) 6
  else if year ≤ 9999 then zeroFill year 4
  else "+" ++ zeroFill year 6

def write (fields : IsoFields) : String :=
  writeYear fields.year ++ "-" ++ zeroFill fields.month 2 ++ "-" ++ zeroFill fields.date 2 ++ "T" ++
    zeroFill fields.hours 2 ++ ":" ++ zeroFill fields.minutes 2 ++ ":" ++ zeroFill fields.seconds 2 ++ "." ++
    zeroFill fields.milliseconds 3 ++ "Z"

def readPart (fits : ℕ → Bool) (mark : Char) (chars : List Char) : Option (ℤ × List Char) :=
  let digits := chars.takeWhile Char.isDigit
  match chars.dropWhile Char.isDigit with
  | [] => none
  | char :: rest => if fits digits.length ∧ char = mark then some (Nat.ofDigitChars 10 digits 0, rest) else none

def readYear (chars : List Char) : Option (ℤ × List Char) :=
  match chars with
  | '-' :: rest => (readPart (6 ≤ ·) '-' rest).map fun part => (-part.1, part.2)
  | '+' :: rest => readPart (6 ≤ ·) '-' rest
  | chars => readPart (· = 4) '-' chars

def read (chars : List Char) : Option IsoFields := do
  let (year, rest) ← readYear chars
  let (month, rest) ← readPart (· = 2) '-' rest
  let (date, rest) ← readPart (· = 2) 'T' rest
  let (hours, rest) ← readPart (· = 2) ':' rest
  let (minutes, rest) ← readPart (· = 2) ':' rest
  let (seconds, rest) ← readPart (· = 2) '.' rest
  let (milliseconds, rest) ← readPart (· = 3) 'Z' rest
  if rest = [] then some { year, month, date, hours, minutes, seconds, milliseconds } else none

end IsoFields

def toISOString (time : ℤ) : String := (IsoFields.of time).write

/-- The time value of `new Date(text)`; absent for an invalid date. -/
def parseDate (text : String) : Option ℤ := do
  let fields ← IsoFields.read text.toList
  if fields.Legal then some fields.time else none

/-! ## Parts of a text -/

section Parts

theorem toList_zeroFill {number : ℤ} (nonneg : 0 ≤ number) (width : ℕ) :
    (zeroFill number width).toList =
      List.replicate (width - (Nat.toDigits 10 number.natAbs).length) '0' ++ Nat.toDigits 10 number.natAbs := by
  simp [zeroFill, nonneg, Nat.toString_eq_repr, ← String.length_toList]

theorem isDigit_of_mem_zeroFill {number : ℤ} (nonneg : 0 ≤ number) (width : ℕ) :
    ∀ char ∈ (zeroFill number width).toList, char.isDigit = true := by
  intro char member
  rw [toList_zeroFill nonneg, List.mem_append] at member
  cases member with
  | inl zero =>
    rw [List.eq_of_mem_replicate zero]
    decide
  | inr digit => exact Nat.isDigit_of_mem_toDigits (by decide) (by decide) digit

theorem le_length_zeroFill {number : ℤ} (nonneg : 0 ≤ number) (width : ℕ) :
    width ≤ (zeroFill number width).toList.length := by
  rw [toList_zeroFill nonneg, List.length_append, List.length_replicate]
  omega

theorem length_zeroFill {number : ℤ} {width : ℕ} (nonneg : 0 ≤ number) (positive : 0 < width)
    (small : number.natAbs < 10 ^ width) : (zeroFill number width).toList.length = width := by
  have atMost := (Nat.length_toDigits_le_iff (by decide) positive).mpr small
  rw [toList_zeroFill nonneg, List.length_append, List.length_replicate]
  omega

theorem readPart_zeroFill {number : ℤ} (nonneg : 0 ≤ number) {width : ℕ} {fits : ℕ → Bool}
    (fitting : fits (zeroFill number width).toList.length = true) {mark : Char} (noDigit : mark.isDigit = false)
    (rest : List Char) :
    IsoFields.readPart fits mark ((zeroFill number width).toList ++ mark :: rest) = some (number, rest) := by
  have digits := isDigit_of_mem_zeroFill nonneg width
  have value : Nat.ofDigitChars 10 (zeroFill number width).toList 0 = number.natAbs := by
    rw [toList_zeroFill nonneg, Nat.ofDigitChars_append, Nat.ofDigitChars_replicate_zero, mul_zero,
      Nat.ofDigitChars_ten_toDigits]
  unfold IsoFields.readPart
  rw [List.takeWhile_append_of_pos digits, List.dropWhile_append_of_pos digits, List.takeWhile_cons_of_neg (by simp [noDigit]),
    List.dropWhile_cons_of_neg (by simp [noDigit]), List.append_nil]
  simp [fitting, value, nonneg]

theorem readPart_atLeast {number : ℤ} (nonneg : 0 ≤ number) (width : ℕ) {mark : Char} (noDigit : mark.isDigit = false)
    (rest : List Char) :
    IsoFields.readPart (width ≤ ·) mark ((zeroFill number width).toList ++ mark :: rest) = some (number, rest) :=
  readPart_zeroFill nonneg (decide_eq_true (le_length_zeroFill nonneg width)) noDigit rest

theorem readPart_exactly {number : ℤ} (nonneg : 0 ≤ number) {width : ℕ} (positive : 0 < width)
    (small : number.natAbs < 10 ^ width) {mark : Char} (noDigit : mark.isDigit = false) (rest : List Char) :
    IsoFields.readPart (· = width) mark ((zeroFill number width).toList ++ mark :: rest) = some (number, rest) :=
  readPart_zeroFill nonneg (decide_eq_true (length_zeroFill nonneg positive small)) noDigit rest

theorem readPart_twoDigits {number : ℤ} (nonneg : 0 ≤ number) (small : number < 100) (mark : Char)
    (noDigit : mark.isDigit = false) (rest : List Char) :
    IsoFields.readPart (· = 2) mark ((zeroFill number 2).toList ++ mark :: rest) = some (number, rest) :=
  readPart_exactly nonneg (by decide) (by omega) noDigit rest

theorem readYear_writeYear (year : ℤ) (rest : List Char) :
    IsoFields.readYear ((IsoFields.writeYear year).toList ++ '-' :: rest) = some (year, rest) := by
  have noDigit : Char.isDigit '-' = false := rfl
  unfold IsoFields.writeYear
  split
  next negative =>
    have read := readPart_atLeast (show 0 ≤ -year by omega) 6 noDigit rest
    simp [IsoFields.readYear, read]
  next notNegative =>
    have nonneg : 0 ≤ year := by omega
    split
    next small =>
      have length := length_zeroFill nonneg (show 0 < 4 by decide) (by omega)
      have read := readPart_exactly nonneg (show 0 < 4 by decide) (by omega) noDigit rest
      -- the text begins with a digit, and so with no sign
      obtain ⟨digit, digits, split⟩ := List.exists_cons_of_length_eq_add_one length
      have isDigit := isDigit_of_mem_zeroFill nonneg 4 digit (by simp [split])
      have notMinus : digit ≠ '-' := by
        rintro rfl
        exact absurd isDigit (by decide)
      have notPlus : digit ≠ '+' := by
        rintro rfl
        exact absurd isDigit (by decide)
      rw [split] at read ⊢
      simpa [IsoFields.readYear, notMinus, notPlus] using read
    next large =>
      have read := readPart_atLeast nonneg 6 noDigit rest
      simp [IsoFields.readYear, read]

end Parts

/-! ## Fields and moments -/

namespace IsoFields

theorem read_write {fields : IsoFields} (legal : fields.Legal) : read fields.write.toList = some fields := by
  obtain ⟨month, date, hours, minutes, seconds, milliseconds⟩ := legal
  have longest := (monthStart_step (12 * fields.year + (fields.month - 1))).2
  have next : 12 * fields.year + (fields.month - 1) + 1 = 12 * fields.year + fields.month := by omega
  rw [next] at longest
  have monthRead := readPart_twoDigits (show 0 ≤ fields.month by omega) (by omega) '-' rfl
  have dateRead := readPart_twoDigits (show 0 ≤ fields.date by omega) (by omega) 'T' rfl
  have hoursRead := readPart_twoDigits hours.1 (by omega) ':' rfl
  have minutesRead := readPart_twoDigits minutes.1 (by omega) ':' rfl
  have secondsRead := readPart_twoDigits seconds.1 (by omega) '.' rfl
  have millisecondsRead := readPart_exactly milliseconds.1 (show 0 < 3 by decide) (by omega)
    (show Char.isDigit 'Z' = false from rfl) []
  have text : fields.write.toList = (writeYear fields.year).toList ++ '-' :: ((zeroFill fields.month 2).toList ++ '-' ::
      ((zeroFill fields.date 2).toList ++ 'T' :: ((zeroFill fields.hours 2).toList ++ ':' ::
      ((zeroFill fields.minutes 2).toList ++ ':' :: ((zeroFill fields.seconds 2).toList ++ '.' ::
      ((zeroFill fields.milliseconds 3).toList ++ ['Z'])))))) := by
    simp [write]
  rw [text]
  simp [read, readYear_writeYear, monthRead, dateRead, hoursRead, minutesRead, secondsRead, millisecondsRead]

theorem month_of (time : ℤ) : 12 * (of time).year + ((of time).month - 1) = gregorianMonths.unitOf (time / 86400000) := by
  change 12 * (gregorianMonths.unitOf (time / 86400000) / 12) + (gregorianMonths.unitOf (time / 86400000) % 12 + 1 - 1) = _
  omega

theorem legal_of (time : ℤ) : (of time).Legal := by
  have within := (gregorianMonths.within_iff (gregorianMonths.unitOf (time / 86400000)) (time / 86400000)).mpr rfl
  change monthStart _ ≤ _ ∧ _ ≤ monthStart (_ + 1) - 1 at within
  have month := month_of time
  have next : 12 * (of time).year + (of time).month = gregorianMonths.unitOf (time / 86400000) + 1 := by omega
  have inYear : 1 ≤ (of time).month ∧ (of time).month ≤ 12 := by
    change 1 ≤ _ % 12 + 1 ∧ _ % 12 + 1 ≤ 12
    omega
  have date : (of time).date = time / 86400000 - monthStart (gregorianMonths.unitOf (time / 86400000)) + 1 := rfl
  unfold Legal
  rw [month, next, date]
  refine ⟨inYear, by omega, ?_⟩
  change (0 ≤ _ % 24 ∧ _ % 24 < 24) ∧ (0 ≤ _ % 60 ∧ _ % 60 < 60) ∧ (0 ≤ _ % 60 ∧ _ % 60 < 60) ∧ (0 ≤ _ % 1000 ∧ _ % 1000 < 1000)
  omega

theorem time_of (time : ℤ) : (of time).time = time := by
  have date : (of time).date = time / 86400000 - monthStart (gregorianMonths.unitOf (time / 86400000)) + 1 := rfl
  unfold IsoFields.time
  rw [month_of, date]
  change (_ + (_ - _ + 1 - 1)) * 86400000 + time / 3600000 % 24 * 3600000 + time / 60000 % 60 * 60000 +
    time / 1000 % 60 * 1000 + time % 1000 = time
  omega

end IsoFields

@[simp] theorem parseDate_toISOString (time : ℤ) : parseDate (toISOString time) = some time := by
  have legal := IsoFields.legal_of time
  simp [parseDate, toISOString, IsoFields.read_write legal, legal, IsoFields.time_of]

-- 18 July 2018, 12:34 universal time
example : toISOString 1531917240000 = "2018-07-18T12:34:00.000Z" := by decide +kernel

end PlenR.Time
