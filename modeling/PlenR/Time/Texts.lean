import Mathlib.Algebra.Order.Floor.Ring
import Mathlib.Data.List.GetD
import Mathlib.Data.List.Nodup
import Mathlib.Data.Rat.Floor
import Mathlib.Tactic.NormNum

/-! Padded numbers, and months as an English `moment` writes and counts them. -/

set_option autoImplicit false

namespace PlenR.Time

def monthNames : List String :=
  ["January", "February", "March", "April", "May", "June", "July", "August",
    "September", "October", "November", "December"]

/-- The padding of `moment.format`. -/
def zeroFill (number : ℤ) (targetLength : ℕ) : String :=
  let absNumber := toString number.natAbs
  (if number ≥ 0 then "" else "-") ++
    String.ofList (List.replicate (targetLength - absNumber.length) '0') ++ absNumber

/-- `moment.format("MMMM YYYY")`. -/
def formatMonthYear (month year : ℤ) : String :=
  monthNames.getD month.toNat "" ++ " " ++ zeroFill year 4

/-- The rounding of `moment.add` and `moment.subtract` for a number of months. -/
def absRound (number : ℚ) : ℤ :=
  if number < 0 then -⌊-number + 1 / 2⌋ else ⌊number + 1 / 2⌋

theorem floor_add_half (number : ℤ) : ⌊(number : ℚ) + 1 / 2⌋ = number := by
  rw [Int.floor_intCast_add]
  norm_num

@[simp] theorem absRound_intCast (number : ℤ) : absRound number = number := by
  unfold absRound
  split
  · rw [← Int.cast_neg, floor_add_half, neg_neg]
  · exact floor_add_half number

/-! ## Keys in two formats -/

theorem zeroFill_injective {first second : ℤ} {targetLength : ℕ} (firstNonneg : 0 ≤ first) (secondNonneg : 0 ≤ second)
    (same : zeroFill first targetLength = zeroFill second targetLength) : first = second := by
  have digits := congrArg (fun text => Nat.ofDigitChars 10 text.toList 0) same
  simp only [zeroFill, ge_iff_le, firstNonneg, secondNonneg, if_true, String.empty_append, String.toList_append,
    String.toList_ofList, Nat.ofDigitChars_append, Nat.ofDigitChars_replicate_zero, mul_zero,
    Nat.toString_eq_repr, Nat.toList_repr, Nat.ofDigitChars_ten_toDigits] at digits
  omega

theorem isAlpha_of_mem_monthName {month : ℤ} {letter : Char}
    (member : letter ∈ (monthNames.getD month.toNat "").toList) : letter.isAlpha = true := by
  have letters : ("" :: monthNames).all (fun name => name.toList.all Char.isAlpha) = true := by decide
  apply List.all_eq_true.mp (List.all_eq_true.mp letters (monthNames.getD month.toNat "") _) letter member
  by_cases inside : month.toNat < monthNames.length
  · rw [List.getD_eq_getElem _ _ inside]
    exact List.mem_cons_of_mem _ (List.getElem_mem inside)
  · rw [List.getD_eq_default _ _ (Nat.le_of_not_lt inside)]
    exact List.mem_cons_self

theorem monthName_injective {first second : ℤ} (firstInYear : 0 ≤ first ∧ first < 12)
    (secondInYear : 0 ≤ second ∧ second < 12)
    (same : monthNames.getD first.toNat "" = monthNames.getD second.toNat "") : first = second := by
  have distinct : monthNames.Nodup := by decide
  have firstInside : first.toNat < monthNames.length := by change first.toNat < 12; omega
  have secondInside : second.toNat < monthNames.length := by change second.toNat < 12; omega
  rw [List.getD_eq_getElem _ _ firstInside, List.getD_eq_getElem _ _ secondInside] at same
  have number := distinct.getElem_inj_iff.mp same
  omega

/-- A month and its year can be read back from the text: the name ends at the first blank. -/
theorem formatMonthYear_injective {month year month' year' : ℤ} (inYear : 0 ≤ month ∧ month < 12)
    (inYear' : 0 ≤ month' ∧ month' < 12) (nonneg : 0 ≤ year) (nonneg' : 0 ≤ year')
    (same : formatMonthYear month year = formatMonthYear month' year') : month = month' ∧ year = year' := by
  have split : ∀ month year : ℤ, (formatMonthYear month year).toList =
      (monthNames.getD month.toNat "").toList ++ ' ' :: (zeroFill year 4).toList := by
    intro month year
    simp [formatMonthYear]
  have texts := congrArg String.toList same
  rw [split, split] at texts
  have names := congrArg (List.takeWhile Char.isAlpha) texts
  have rests := congrArg (List.dropWhile Char.isAlpha) texts
  rw [List.takeWhile_append_of_pos (fun _ => isAlpha_of_mem_monthName),
    List.takeWhile_append_of_pos (fun _ => isAlpha_of_mem_monthName)] at names
  rw [List.dropWhile_append_of_pos (fun _ => isAlpha_of_mem_monthName),
    List.dropWhile_append_of_pos (fun _ => isAlpha_of_mem_monthName)] at rests
  have blank : Char.isAlpha ' ' = false := by decide
  simp only [List.takeWhile_cons, List.dropWhile_cons, blank, Bool.false_eq_true, if_false, List.append_nil,
    List.cons.injEq, true_and] at names rests
  exact ⟨monthName_injective inYear inYear' (String.toList_inj.mp names),
    zeroFill_injective nonneg nonneg' (String.toList_inj.mp rests)⟩

theorem blank_not_mem_toString (number : ℤ) : ' ' ∉ (toString number).toList := by
  have digits : ∀ natural : ℕ, ' ' ∉ (toString natural).toList := by
    intro natural member
    rw [Nat.toString_eq_repr, Nat.toList_repr] at member
    exact absurd (Nat.isDigit_of_mem_toDigits (by decide) (by decide) member) (by decide)
  cases number with
  | ofNat natural => exact digits natural
  | negSucc natural =>
    intro member
    have text : (toString (Int.negSucc natural)).toList = '-' :: (toString (natural + 1)).toList := by
      change ("-" ++ toString (natural + 1)).toList = _
      simp
    rw [text] at member
    obtain blank | member := List.mem_cons.mp member
    · exact absurd blank (by decide)
    · exact digits _ member

theorem blank_mem_formatMonthYear (month year : ℤ) : ' ' ∈ (formatMonthYear month year).toList := by
  simp [formatMonthYear]

end PlenR.Time
