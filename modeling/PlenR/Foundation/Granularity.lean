import Mathlib.Order.GaloisConnection.Basic
import Mathlib.Order.Monotone.Basic
import Mathlib.Algebra.Order.Group.Int

/-! Granularities of a time line.

A granularity sends each fine instant to the coarse unit it lies in and each
unit to its first instant. The two maps are adjoint, which is all that is used
of units of any length: minutes, calendar days and calendar months alike.
-/

set_option autoImplicit false

namespace Foundation

/-- The order of the integers as a computable instance, ahead of those through complete lattices. -/
instance integerPreorder : Preorder ℤ := Int.instLinearOrder.toPreorder

/-- Units of `Coarse` laid over the instants of `Fine`. -/
structure Granularity (Fine Coarse : Type) [Preorder Fine] [Preorder Coarse] where
  startOf : Coarse → Fine
  unitOf : Fine → Coarse
  adjoint : GaloisConnection startOf unitOf

namespace Granularity

section Preorder
variable {Fine Coarse Coarser : Type} [Preorder Fine] [Preorder Coarse] [Preorder Coarser]

theorem startOf_le_iff (units : Granularity Fine Coarse) (unit : Coarse) (instant : Fine) :
    units.startOf unit ≤ instant ↔ unit ≤ units.unitOf instant :=
  units.adjoint unit instant

theorem unitOf_mono (units : Granularity Fine Coarse) : Monotone units.unitOf :=
  units.adjoint.monotone_u

def comp (units : Granularity Fine Coarse) (coarser : Granularity Coarse Coarser) :
    Granularity Fine Coarser where
  startOf := fun unit => units.startOf (coarser.startOf unit)
  unitOf := fun instant => coarser.unitOf (units.unitOf instant)
  adjoint := coarser.adjoint.compose units.adjoint

end Preorder

section Integers
variable (units : Granularity ℤ ℤ)

def endOf (unit : ℤ) : ℤ := units.startOf (unit + 1) - 1

theorem le_endOf_iff (unit instant : ℤ) : instant ≤ units.endOf unit ↔ units.unitOf instant ≤ unit := by
  have next := units.startOf_le_iff (unit + 1) instant
  unfold endOf
  omega

theorem within_iff (unit instant : ℤ) :
    units.startOf unit ≤ instant ∧ instant ≤ units.endOf unit ↔ units.unitOf instant = unit := by
  rw [units.startOf_le_iff, units.le_endOf_iff]
  omega

theorem unitOf_startOf_unitOf (instant : ℤ) : units.unitOf (units.startOf (units.unitOf instant)) = units.unitOf instant :=
  units.adjoint.u_l_u_eq_u instant

def every (length : ℤ) (positive : 0 < length) : Granularity ℤ ℤ where
  startOf := fun unit => unit * length
  unitOf := fun instant => instant / length
  adjoint := fun _ _ => (Int.le_ediv_iff_mul_le positive).symm

/-- Units of varying length, from a strictly increasing sequence of first
instants and a lookup that brackets each instant. -/
def ofBrackets (startOf unitOf : ℤ → ℤ) (increasing : StrictMono startOf)
    (lower : ∀ instant, startOf (unitOf instant) ≤ instant)
    (upper : ∀ instant, instant < startOf (unitOf instant + 1)) : Granularity ℤ ℤ where
  startOf := startOf
  unitOf := unitOf
  adjoint := by
    intro unit instant
    constructor
    · intro before
      have order := increasing.lt_iff_lt.mp (before.trans_lt (upper instant))
      omega
    · intro before
      exact (increasing.monotone before).trans (lower instant)

end Integers
end Granularity
end Foundation
