import Mathlib.Data.List.Induction
import Mathlib.Order.Lattice

/-! Merging ordered lists by a test that may misjudge.

A merge asks a test which of two heads comes first. The test extends the order
of ranks, but may also put an item before one of lesser rank. The merge of two
ordered lists is ordered exactly if it never meets such a pair, and it meets one
exactly if the test puts the first item of the one list above the rank of an
item of the other before this item. A fold of merges is judged list by list.
-/

set_option autoImplicit false

namespace Foundation.Merging

variable {Item Rank : Type} [LinearOrder Rank] (rank : Item → Rank)

abbrev Ordered (items : List Item) : Prop := items.Pairwise fun first second => rank first ≤ rank second

def firstAbove (bound : Rank) (items : List Item) : Option Item := items.find? fun item => bound < rank item

/-- The item of lesser rank, the first of two of equal rank. -/
def sooner : Option Item → Option Item → Option Item
  | none, other => other
  | some item, none => some item
  | some item, some other => if rank other < rank item then some other else some item

theorem sooner_cases {rank : Item → Rank} {first second : Option Item} {item : Item}
    (found : item ∈ sooner rank first second) : item ∈ first ∨ item ∈ second := by
  cases first with
  | none => exact .inr found
  | some candidate =>
    cases second with
    | none => exact .inl found
    | some other =>
      rw [sooner] at found
      split at found
      · exact .inr found
      · exact .inl found

def firstAboveAll (bound : Rank) (lists : List (List Item)) : Option Item :=
  lists.foldl (fun found items => sooner rank found (firstAbove rank bound items)) none

theorem rank_lt_of_firstAboveAll {rank : Item → Rank} {bound : Rank} {lists : List (List Item)} {item : Item}
    (found : item ∈ firstAboveAll rank bound lists) : bound < rank item := by
  induction lists using List.reverseRecOn generalizing item with
  | nil => cases found
  | append_singleton lists items ih =>
    rw [firstAboveAll, List.foldl_append] at found
    change item ∈ sooner rank (firstAboveAll rank bound lists) (firstAbove rank bound items) at found
    cases sooner_cases found with
    | inl before => exact ih before
    | inr here => simpa using List.find?_some here

def mergeAll (le : Item → Item → Bool) (lists : List (List Item)) : List Item :=
  lists.foldl (fun merged items => merged.merge items le) []

section FirstAbove
variable {rank} {bound : Rank} {x : Item}

theorem firstAbove_cons_above (above : bound < rank x) (items : List Item) :
    firstAbove rank bound (x :: items) = some x := by
  simp [firstAbove, above]

theorem firstAbove_cons_below (below : ¬ bound < rank x) (items : List Item) :
    firstAbove rank bound (x :: items) = firstAbove rank bound items := by
  simp [firstAbove, below]

theorem head_le {items : List Item} (ordered : Ordered rank (x :: items)) (lower : bound ≤ rank x) :
    ∀ item ∈ x :: items, bound ≤ rank item := by
  rw [List.forall_mem_cons]
  exact ⟨lower, fun item member => lower.trans ((List.pairwise_cons.mp ordered).1 item member)⟩

theorem forall_mem_merge {good : Item → Prop} {xs ys : List Item} (left : ∀ x ∈ xs, good x) (right : ∀ y ∈ ys, good y)
    (le : Item → Item → Bool) : ∀ item ∈ xs.merge ys le, good item := by
  intro item member
  cases List.mem_merge.mp member with
  | inl inside => exact left item inside
  | inr inside => exact right item inside

end FirstAbove

section Merge
variable {rank} {le : Item → Item → Bool} (respects : ∀ x y, rank x ≤ rank y → le x y = true)
include respects

theorem rank_lt_of_test {x y : Item} (after : le x y = false) : rank y < rank x := by
  rw [← not_le]
  intro before
  rw [respects x y before] at after
  cases after

theorem merge_ordered_iff {xs ys : List Item} (first : Ordered rank xs) (second : Ordered rank ys) :
    Ordered rank (xs.merge ys le) ↔ ∀ y ∈ ys, ∀ x ∈ firstAbove rank (rank y) xs, le x y = false := by
  fun_induction List.merge xs ys le with
  | case1 ys => simp [firstAbove, second]
  | case2 xs => simp [first]
  | case3 x xs y ys before ih =>
    obtain ⟨later, rest⟩ := List.pairwise_cons.mp first
    by_cases misjudged : rank y < rank x
    · -- the test puts `x` first although `y` is below it
      apply iff_of_false
      · intro ordered
        have order := (List.pairwise_cons.mp ordered).1 y (List.mem_merge_right _ List.mem_cons_self)
        exact absurd misjudged order.not_gt
      · intro judged
        rw [judged y List.mem_cons_self x (firstAbove_cons_above misjudged xs)] at before
        cases before
    · have beyond := head_le second (not_lt.mp misjudged)
      have least := forall_mem_merge later beyond le
      unfold Ordered at ih ⊢
      rw [List.pairwise_cons, and_iff_right least, ih rest second]
      apply forall₂_congr
      intro item member
      rw [firstAbove_cons_below (beyond item member).not_gt]
  | case4 x xs y ys after ih =>
    have test : le x y = false := by simpa using after
    have order := rank_lt_of_test respects test
    obtain ⟨later, rest⟩ := List.pairwise_cons.mp second
    have least := forall_mem_merge (head_le first order.le) later le
    unfold Ordered at ih ⊢
    rw [List.pairwise_cons, and_iff_right least, ih first rest, List.forall_mem_cons, firstAbove_cons_above order]
    simp [test]

theorem firstAbove_merge {xs ys : List Item} (first : Ordered rank xs) (second : Ordered rank ys)
    (ordered : Ordered rank (xs.merge ys le)) (bound : Rank) :
    firstAbove rank bound (xs.merge ys le) = sooner rank (firstAbove rank bound xs) (firstAbove rank bound ys) := by
  fun_induction List.merge xs ys le with
  | case1 ys => rfl
  | case2 xs =>
    cases firstAbove rank bound xs with
    | none => rfl
    | some item => rfl
  | case3 x xs y ys before ih =>
    obtain ⟨least, rest⟩ := List.pairwise_cons.mp ordered
    by_cases above : bound < rank x
    · rw [firstAbove_cons_above above, firstAbove_cons_above above]
      cases found : firstAbove rank bound (y :: ys) with
      | none => rfl
      | some other =>
        have order := least other (List.mem_merge_right _ (List.mem_of_find?_eq_some found))
        rw [sooner, if_neg order.not_gt]
    · rw [firstAbove_cons_below above, firstAbove_cons_below above]
      exact ih (List.pairwise_cons.mp first).2 second rest
  | case4 x xs y ys after ih =>
    have order := rank_lt_of_test respects (by simpa using after : le x y = false)
    obtain ⟨_, rest⟩ := List.pairwise_cons.mp ordered
    by_cases above : bound < rank y
    · rw [firstAbove_cons_above above, firstAbove_cons_above above, firstAbove_cons_above (above.trans order), sooner,
        if_pos order]
    · rw [firstAbove_cons_below above, firstAbove_cons_below above]
      exact ih first (List.pairwise_cons.mp second).2 rest

end Merge

/-! ## Folds -/

theorem sublist_merge_left (le : Item → Item → Bool) (xs ys : List Item) : xs.Sublist (xs.merge ys le) := by
  fun_induction List.merge xs ys le with
  | case1 ys => exact List.nil_sublist _
  | case2 xs => exact List.Sublist.refl _
  | case3 x xs y ys before ih => exact ih.cons_cons x
  | case4 x xs y ys after ih => exact ih.cons y

/-- What holds of every element and the elements before it, for a list that ends with one more. -/
theorem forall_split_concat {Elem : Type} {good : List Elem → Elem → Prop} {list : List Elem} {last : Elem} :
    (∀ before elem after, list ++ [last] = before ++ elem :: after → good before elem) ↔
      (∀ before elem after, list = before ++ elem :: after → good before elem) ∧ good list last := by
  constructor
  · intro all
    refine ⟨?_, all list last [] rfl⟩
    intro before elem after split
    exact all before elem (after ++ [last]) (by simp [split])
  · intro ⟨inner, final⟩ before elem after split
    cases List.eq_nil_or_concat after with
    | inl nothing =>
      subst nothing
      obtain ⟨rfl, rfl⟩ := List.append_inj' split rfl |>.imp id (List.cons.inj · |>.1)
      exact final
    | inr more =>
      obtain ⟨rest, final, rfl⟩ := more
      rw [List.concat_eq_append, ← List.cons_append, ← List.append_assoc] at split
      exact inner before elem rest (List.append_inj' split rfl).1

/-- The test puts the first item of the lists before above the rank of an item here behind this item. -/
def InTurn (le : Item → Item → Bool) (earlier : List (List Item)) (items : List Item) : Prop :=
  ∀ y ∈ items, ∀ x ∈ firstAboveAll rank (rank y) earlier, le x y = false

section Fold
variable {rank} {le : Item → Item → Bool} (respects : ∀ x y, rank x ≤ rank y → le x y = true)
include respects

/-- As long as the merge of the lists is ordered, its first items are those of the lists. -/
theorem mergeAll_cases {lists : List (List Item)} (each : ∀ items ∈ lists, Ordered rank items) :
    (Ordered rank (mergeAll le lists) ↔
        ∀ earlier items later, lists = earlier ++ items :: later → InTurn rank le earlier items) ∧
      (Ordered rank (mergeAll le lists) →
        ∀ bound, firstAbove rank bound (mergeAll le lists) = firstAboveAll rank bound lists) := by
  induction lists using List.reverseRecOn with
  | nil =>
    constructor
    · exact iff_of_true .nil fun earlier items later split => by simp at split
    · exact fun _ _ => rfl
  | append_singleton lists items ih =>
    obtain ⟨each, here⟩ := List.forall_mem_append.mp each
    have ordered := List.forall_mem_singleton.mp here
    obtain ⟨before, heads⟩ := ih each
    have grown : mergeAll le (lists ++ [items]) = (mergeAll le lists).merge items le := by simp [mergeAll]
    rw [grown, forall_split_concat, ← before]
    by_cases prior : Ordered rank (mergeAll le lists)
    · constructor
      · rw [and_iff_right prior, merge_ordered_iff respects prior ordered]
        simp only [InTurn, heads prior]
      · intro merged bound
        rw [firstAbove_merge respects prior ordered merged, heads prior]
        simp [firstAboveAll]
    · -- a merge keeps the order of its first list
      have unordered : ¬ Ordered rank ((mergeAll le lists).merge items le) :=
        fun merged => prior (merged.sublist (sublist_merge_left le _ items))
      exact ⟨iff_of_false unordered fun both => prior both.1, fun merged => absurd merged unordered⟩

theorem mergeAll_ordered_iff {lists : List (List Item)} (each : ∀ items ∈ lists, Ordered rank items) :
    Ordered rank (mergeAll le lists) ↔
      ∀ earlier items later, lists = earlier ++ items :: later → InTurn rank le earlier items :=
  (mergeAll_cases respects each).1

end Fold
end Foundation.Merging
