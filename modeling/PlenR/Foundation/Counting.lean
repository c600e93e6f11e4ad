import Mathlib.Data.Int.Notation
import Mathlib.Data.List.Basic

/-! The integers from a first to below a last one, as a counting loop visits them. -/

set_option autoImplicit false

namespace Foundation

def upTo (first last : ℤ) : List ℤ :=
  (List.range (last - first).toNat).map fun (offset : ℕ) => first + (offset : ℤ)

@[simp] theorem length_upTo (first last : ℤ) : (upTo first last).length = (last - first).toNat := by simp [upTo]

theorem mem_upTo {first last number : ℤ} : number ∈ upTo first last ↔ first ≤ number ∧ number < last := by
  simp only [upTo, List.mem_map, List.mem_range]
  constructor
  · intro ⟨offset, inside, same⟩
    omega
  · intro ⟨lower, upper⟩
    exact ⟨(number - first).toNat, by omega, by omega⟩

theorem pairwise_upTo (first last : ℤ) : (upTo first last).Pairwise (· < ·) := by
  rw [upTo, List.pairwise_map]
  apply List.pairwise_lt_range.imp
  intro offset later order
  omega

theorem getElem?_upTo {first last : ℤ} {index : ℕ} (inside : first + index < last) :
    (upTo first last)[index]? = some (first + index) := by
  have within : index < (last - first).toNat := by omega
  simp [upTo, within]

theorem upTo_empty {first last : ℤ} (none_left : last ≤ first) : upTo first last = [] := by
  have length : (last - first).toNat = 0 := by omega
  simp [upTo, length]

theorem upTo_succ {first last : ℤ} (order : first ≤ last) : upTo first (last + 1) = upTo first last ++ [last] := by
  have length : (last + 1 - first).toNat = (last - first).toNat + 1 := by omega
  have final : first + ((last - first).toNat : ℤ) = last := by omega
  simp only [upTo, length, List.range_succ, List.map_append, List.map_cons, List.map_nil, final]

theorem upTo_singleton (number : ℤ) : upTo number (number + 1) = [number] := by
  rw [upTo_succ (Int.le_refl number), upTo_empty (Int.le_refl number), List.nil_append]

theorem upTo_append {first middle last : ℤ} (lower : first ≤ middle) (upper : middle ≤ last) :
    upTo first middle ++ upTo middle last = upTo first last := by
  obtain ⟨count, rfl⟩ := Int.le.dest upper
  induction count with
  | zero => simp [upTo_empty]
  | succ count ih =>
    have grows : middle + ((count + 1 : ℕ) : ℤ) = middle + count + 1 := by omega
    rw [grows, upTo_succ (by omega), upTo_succ (by omega), ← List.append_assoc, ih (by omega)]

theorem upTo_cons {first last : ℤ} (order : first < last) : upTo first last = first :: upTo (first + 1) last := by
  rw [← @upTo_append first (first + 1) last (by omega) (by omega), upTo_singleton, List.singleton_append]

theorem map_upTo_shift {Image : Type} (image : ℤ → Image) (shift first last : ℤ) :
    (upTo first last).map (fun number => image (shift + number)) = (upTo (shift + first) (shift + last)).map image := by
  have length : (shift + last - (shift + first)).toNat = (last - first).toNat := by omega
  simp only [upTo, length, List.map_map]
  apply List.map_congr_left
  intro offset _
  simp only [Function.comp_apply]
  congr 1
  omega

theorem flatten_blocks (first length : ℤ) (positive : 0 ≤ length) (count : ℕ) :
    ((upTo 0 count).map fun block => upTo (first + length * block) (first + length * (block + 1))).flatten =
      upTo first (first + length * count) := by
  induction count with
  | zero => simp [upTo_empty]
  | succ count ih =>
    have lower := Int.mul_nonneg positive (Int.natCast_nonneg count)
    have upper : length * count ≤ length * (count + 1) := by
      rw [Int.mul_add, Int.mul_one]
      omega
    rw [Int.natCast_succ, upTo_succ (Int.natCast_nonneg count), List.map_append, List.flatten_append, ih]
    simp only [List.map_cons, List.map_nil, List.flatten_cons, List.flatten_nil, List.append_nil]
    exact upTo_append (by omega) (by omega)

theorem filter_upTo {first lower upper last : ℤ} {test : ℤ → Bool} (begins : first ≤ lower) (order : lower ≤ upper)
    (ends : upper ≤ last) (within : ∀ number, test number = true ↔ lower ≤ number ∧ number < upper) :
    (upTo first last).filter test = upTo lower upper := by
  have before : (upTo first lower).filter test = [] := by
    rw [List.filter_eq_nil_iff]
    intro number member inside
    have low := (mem_upTo.mp member).2
    have high := ((within number).mp inside).1
    omega
  have after : (upTo upper last).filter test = [] := by
    rw [List.filter_eq_nil_iff]
    intro number member inside
    have low := (mem_upTo.mp member).1
    have high := ((within number).mp inside).2
    omega
  have inside : (upTo lower upper).filter test = upTo lower upper := by
    rw [List.filter_eq_self]
    intro number member
    exact (within number).mpr (mem_upTo.mp member)
  rw [← upTo_append begins (Int.le_trans order ends), ← upTo_append order ends, List.filter_append, List.filter_append,
    before, inside, after, List.nil_append, List.append_nil]

theorem flatMap_upTo_perm {Item : Type} (number : Item → ℤ) (items : List Item) (first last : ℤ) :
    ((upTo first last).flatMap fun current => items.filter fun item => number item = current).Perm
      (items.filter fun item => first ≤ number item ∧ number item < last) := by
  have nothing : ∀ last ≤ first, (items.filter fun item => first ≤ number item ∧ number item < last) = [] := by
    intro last order
    rw [List.filter_eq_nil_iff]
    intro item _ inside
    have bounds := of_decide_eq_true inside
    omega
  by_cases order : first ≤ last
  · obtain ⟨count, rfl⟩ := Int.le.dest order
    clear order
    induction count with
    | zero =>
      rw [nothing _ (by omega), upTo_empty (by omega)]
      exact .refl _
    | succ count ih =>
      have grows : first + ((count + 1 : ℕ) : ℤ) = first + count + 1 := by omega
      rw [grows, upTo_succ (by omega), List.flatMap_append, List.flatMap_singleton]
      refine (ih.append_right _).trans ?_
      -- the last number takes what the others leave
      have parted := List.filter_append_perm (fun item => decide (number item < first + count))
        (items.filter fun item => first ≤ number item ∧ number item < first + count + 1)
      rw [List.filter_filter, List.filter_filter] at parted
      refine .trans (.of_eq ?_) parted
      congr 1
      · apply List.filter_congr
        intro item _
        rw [Bool.eq_iff_iff, Bool.and_eq_true, decide_eq_true_iff, decide_eq_true_iff, decide_eq_true_iff]
        omega
      · apply List.filter_congr
        intro item _
        rw [Bool.eq_iff_iff, Bool.and_eq_true, Bool.not_eq_true', decide_eq_false_iff_not, decide_eq_true_iff,
          decide_eq_true_iff]
        omega
  · rw [nothing last (by omega), upTo_empty (by omega)]
    exact .refl _

end Foundation
