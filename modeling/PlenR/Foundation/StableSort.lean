import Mathlib.Data.List.Perm.Basic
import Mathlib.Order.Lattice

/-! Stable sorts.

A list is the stable sort of another one by a rank when it rearranges it in
order of rank and keeps elements of equal rank in the order they had. Inserting
an element that arrived later behind all its equals extends a stable sort, and
these three properties leave no choice.
-/

set_option autoImplicit false

namespace Foundation

variable {Elem Rank : Type} [LinearOrder Rank]

structure StableSort (rank : Elem → Rank) (input output : List Elem) : Prop where
  perm : output.Perm input
  ordered : output.Pairwise (fun first second => rank first ≤ rank second)
  stable : ∀ level, output.filter (fun elem => rank elem = level) = input.filter (fun elem => rank elem = level)

namespace StableSort

variable {rank : Elem → Rank} {input before after : List Elem} {item : Elem}

theorem nil : StableSort rank [] [] where
  perm := .refl _
  ordered := .nil
  stable := fun _ => rfl

theorem insert (sorted : StableSort rank input (before ++ after)) (lower : ∀ elem ∈ before, rank elem ≤ rank item)
    (upper : ∀ elem ∈ after, rank item < rank elem) :
    StableSort rank (input ++ [item]) (before ++ item :: after) where
  perm := List.perm_middle.trans ((sorted.perm.cons item).trans (List.perm_append_singleton item input).symm)
  ordered := by
    obtain ⟨first, rest, across⟩ := List.pairwise_append.mp sorted.ordered
    refine List.pairwise_append.mpr ⟨first, List.pairwise_cons.mpr ⟨fun elem member => (upper elem member).le, rest⟩, ?_⟩
    intro elem member
    exact List.forall_mem_cons.mpr ⟨lower elem member, across elem member⟩
  stable := by
    intro level
    simp only [List.filter_append, ← sorted.stable level, List.append_assoc]
    by_cases here : rank item = level
    · -- nothing of this level comes after the place of the item
      have nothing : after.filter (fun elem => rank elem = level) = [] := by
        rw [List.filter_eq_nil_iff]
        intro elem member
        simpa [← here] using (upper elem member).ne'
      simp [here, nothing]
    · simp [here]

/-- Two ordered lists with the same elements of each rank, in the same order, are one. -/
theorem eq_of_filters {first second : List Elem} (firstOrdered : first.Pairwise fun a b => rank a ≤ rank b)
    (secondOrdered : second.Pairwise fun a b => rank a ≤ rank b)
    (same : ∀ level, first.filter (fun elem => rank elem = level) = second.filter (fun elem => rank elem = level)) :
    first = second := by
  have mem_iff : ∀ elem, elem ∈ first ↔ elem ∈ second := by
    intro elem
    have there := congrArg (elem ∈ ·) (same (rank elem))
    simpa using there
  induction first generalizing second with
  | nil =>
    cases second with
    | nil => rfl
    | cons head tail => exact absurd ((mem_iff head).mpr List.mem_cons_self) List.not_mem_nil
  | cons head tail ih =>
    cases second with
    | nil => exact absurd ((mem_iff head).mp List.mem_cons_self) List.not_mem_nil
    | cons other rest =>
      have below : ∀ elem ∈ head :: tail, rank head ≤ rank elem :=
        List.forall_mem_cons.mpr ⟨le_rfl, (List.pairwise_cons.mp firstOrdered).1⟩
      have above : ∀ elem ∈ other :: rest, rank other ≤ rank elem :=
        List.forall_mem_cons.mpr ⟨le_rfl, (List.pairwise_cons.mp secondOrdered).1⟩
      -- both heads have the least rank, and come first among those of it
      have level : rank other = rank head :=
        le_antisymm (above head ((mem_iff head).mp List.mem_cons_self))
          (below other ((mem_iff other).mpr List.mem_cons_self))
      have heads := same (rank head)
      rw [List.filter_cons_of_pos (by simp), List.filter_cons_of_pos (by simpa using level)] at heads
      obtain ⟨rfl, _⟩ := List.cons.inj heads
      have tails : ∀ level, tail.filter (fun elem => rank elem = level) = rest.filter (fun elem => rank elem = level) := by
        intro level
        have whole := same level
        simp only [List.filter_cons] at whole
        split at whole
        · exact (List.cons.inj whole).2
        · exact whole
      rw [ih (List.pairwise_cons.mp firstOrdered).2 (List.pairwise_cons.mp secondOrdered).2 tails]
      intro elem
      have there := congrArg (elem ∈ ·) (tails (rank elem))
      simpa using there

theorem unique {output other : List Elem} (sorted : StableSort rank input output) (again : StableSort rank input other) :
    other = output :=
  eq_of_filters again.ordered sorted.ordered fun level => (again.stable level).trans (sorted.stable level).symm

end StableSort
end Foundation
