import PlenR.Foundation.Run
import PlenR.Util.Event
import PlenR.Util.SortedList

/-! The cached size of a list, over everything a program can do with lists.

A program holds some lists and derives a new one in each step. The size of a
list is right when it, and the size of each of its tails, is the number of
elements listed. `add` counts an element it replaces, `delete` one it does not
find, and `filter` and `merge` count nothing, so sizes stay right exactly if
these cases are avoided.
-/

set_option autoImplicit false

namespace PlenR.Util.SortedList

open Foundation.Run

variable {Item : Type}

def tails : SortedList Item → List (SortedList Item)
  | .empty => [.empty]
  | .node head tail size => .node head tail size :: tail.tails

def Sized (list : SortedList Item) : Prop :=
  ∀ tail ∈ list.tails, tail.size = tail.toArray.length

@[simp] theorem sized_empty : (empty : SortedList Item).Sized := by
  intro tail member
  rw [List.mem_singleton.mp member]
  rfl

@[simp] theorem sized_node_iff {head : Item} {tail : SortedList Item} {size : ℤ} :
    (node head tail size).Sized ↔ size = tail.toArray.length + 1 ∧ tail.Sized := by
  simp [Sized, tails, SortedList.size]

theorem Sized.size_eq {list : SortedList Item} (sized : list.Sized) : list.size = list.toArray.length := by
  cases list with
  | empty => rfl
  | node head tail size => simpa [SortedList.size] using (sized_node_iff.mp sized).1

theorem not_sized_uncounted (head : Item) (tail : SortedList Item) : ¬ (node head tail 0).Sized := by
  intro sized
  have counted := (sized_node_iff.mp sized).1
  omega

section Compare
variable {compare : Item → Item → ℤ}

theorem replaces_cons {item head : Item} {tail : List Item} :
    replaces compare item (head :: tail) =
      if compare head item = 0 then true
      else if compare head item > 0 then false
      else replaces compare item tail := by
  unfold replaces
  rw [List.find?_cons]
  split
  next reached =>
    have order : 0 ≤ compare head item := by simpa using reached
    split
    next same => simp [same]
    next different => simp [different, show compare head item > 0 by omega]
  next below =>
    have order : compare head item < 0 := by simpa using below
    simp [show compare head item ≠ 0 by omega, show ¬ compare head item > 0 by omega]

theorem sized_add_iff {list : SortedList Item} (sized : list.Sized) (item : Item) :
    (list.add compare item).Sized ↔ replaces compare item list.toArray = false := by
  induction list with
  | empty => simp [add, replaces]
  | node head tail size ih =>
    obtain ⟨counted, rest⟩ := sized_node_iff.mp sized
    rw [toArray_node, replaces_cons]
    simp only [add, clone_eq]
    split
    next same =>
      -- the tail is one shorter than what was counted
      simp only [sized_node_iff, reduceCtorEq, iff_false, not_and]
      intro again
      omega
    next different =>
      split
      next above => simp [counted, rest]
      next below =>
        have placement : Placement compare item tail.toArray (tail.add compare item).toArray := add_placement tail item
        rw [sized_node_iff, ih rest, placement.length_eq]
        constructor
        · exact fun both => both.2
        · intro besides
          rw [besides, counted]
          simp

theorem sized_delete_iff {list : SortedList Item} (sized : list.Sized) (item : Item) :
    (list.delete compare item).Sized ↔
      list.toArray = [] ∨ ∃ stored ∈ list.toArray, compare stored item = 0 := by
  induction list with
  | empty => simp [delete]
  | node head tail size ih =>
    obtain ⟨counted, rest⟩ := sized_node_iff.mp sized
    simp only [delete, clone_eq, toArray_node, List.mem_cons, exists_eq_or_imp, reduceCtorEq, false_or]
    split
    next same => exact iff_of_true rest (.inl same)
    next different =>
      rw [sized_node_iff, ih rest, toArray_delete, or_iff_right different]
      by_cases stored : ∃ other ∈ tail.toArray, compare other item = 0
      · obtain ⟨other, member, same⟩ := stored
        have shorter : (tail.toArray.eraseP fun head => compare head item = 0).length = tail.toArray.length - 1 :=
          List.length_eraseP_of_mem member (by simpa using same)
        have nonempty : 0 < tail.toArray.length := List.length_pos_of_mem member
        refine iff_of_true ⟨?_, .inr ⟨other, member, same⟩⟩ ⟨other, member, same⟩
        omega
      · -- nothing was taken out of the tail, but it was counted less
        have kept : (tail.toArray.eraseP fun head => compare head item = 0) = tail.toArray := by
          apply List.eraseP_of_forall_not
          intro other member same
          exact stored ⟨other, member, by simpa using same⟩
        rw [kept, counted]
        refine iff_of_false ?_ stored
        omega

theorem sized_merge_iff {list1 list2 : SortedList Item} (sized1 : list1.Sized) (sized2 : list2.Sized) :
    (merge compare list1 list2).Sized ↔ list1.toArray = [] ∨ list2.toArray = [] := by
  cases list1 with
  | empty => simpa [merge] using sized2
  | node head1 tail1 size1 =>
    cases list2 with
    | empty => simpa [merge, mergeInto] using sized1
    | node head2 tail2 size2 =>
      simp only [merge, mergeInto, toArray_node, reduceCtorEq, or_self, iff_false]
      split
      · exact not_sized_uncounted _ _
      · exact not_sized_uncounted _ _

end Compare

theorem sized_map {Image : Type} {list : SortedList Item} (sized : list.Sized) (mapper : Item → Image) :
    (list.map mapper).Sized := by
  induction list with
  | empty => exact sized_empty
  | node head tail size ih =>
    obtain ⟨counted, rest⟩ := sized_node_iff.mp sized
    rw [map, sized_node_iff, toArray_map, List.length_map]
    exact ⟨counted, ih rest⟩

theorem sized_filter_iff (list : SortedList Item) (predicate : Item → Bool) :
    (list.filter predicate).Sized ↔ ∀ item ∈ list.toArray, predicate item = false := by
  induction list with
  | empty => simp [filter]
  | node head tail size ih =>
    rw [toArray_node, List.forall_mem_cons, filter]
    split
    next kept => exact iff_of_false (not_sized_uncounted _ _) (fun all => by simp [all.1] at kept)
    next dropped => rw [ih, and_iff_right (by simpa using dropped)]

/-! ## Programs over lists -/

namespace Programs

/-- What derives a list; lists are named by the order they were made in. -/
inductive Operation (Item : Type) where
  | empty
  | add (source : ℕ) (item : Item)
  | delete (source : ℕ) (item : Item)
  | clone (source : ℕ)
  | map (source : ℕ) (mapper : Item → Item)
  | filter (source : ℕ) (predicate : Item → Bool)
  | merge (source1 source2 : ℕ)

section Operations
variable (compare : Item → Item → ℤ) (lists : List (SortedList Item))

/-- The list an operation makes; absent if a list it reads was not made yet. -/
def made : Operation Item → Option (SortedList Item)
  | .empty => some .empty
  | .add source item => lists[source]?.map fun list => list.add compare item
  | .delete source item => lists[source]?.map fun list => list.delete compare item
  | .clone source => lists[source]?.map clone
  | .map source mapper => lists[source]?.map fun list => list.map mapper
  | .filter source predicate => lists[source]?.map fun list => list.filter predicate
  | .merge source1 source2 => do return SortedList.merge compare (← lists[source1]?) (← lists[source2]?)

def step (operation : Operation Item) : Option (List (SortedList Item)) :=
  (made compare lists operation).map fun list => lists ++ [list]

def AllSized : Prop := ∀ list ∈ lists, list.Sized

def CountsRight : Operation Item → Prop
  | .empty => True
  | .add source item => ∀ list, lists[source]? = some list → replaces compare item list.toArray = false
  | .delete source item => ∀ list, lists[source]? = some list →
      list.toArray = [] ∨ ∃ stored ∈ list.toArray, compare stored item = 0
  | .clone _ => True
  | .map _ _ => True
  | .filter source predicate => ∀ list, lists[source]? = some list → ∀ item ∈ list.toArray, predicate item = false
  | .merge source1 source2 => ∀ list1 list2, lists[source1]? = some list1 → lists[source2]? = some list2 →
      list1.toArray = [] ∨ list2.toArray = []

end Operations

section Step
variable {compare : Item → Item → ℤ} {lists : List (SortedList Item)} {source : ℕ}

theorem source_of_derived {derive : SortedList Item → SortedList Item} (sized : AllSized lists)
    {new : SortedList Item} (derived : lists[source]?.map derive = some new) :
    ∃ list, lists[source]? = some list ∧ list.Sized ∧ derive list = new := by
  obtain ⟨list, found, same⟩ := Option.map_eq_some_iff.mp derived
  exact ⟨list, found, sized list (List.mem_of_getElem? found), same⟩

theorem sized_made_iff (sized : AllSized lists) {operation : Operation Item} {new : SortedList Item}
    (derived : made compare lists operation = some new) :
    new.Sized ↔ CountsRight compare lists operation := by
  cases operation with
  | empty =>
    cases derived
    exact iff_of_true sized_empty trivial
  | add source item =>
    obtain ⟨list, found, here, rfl⟩ := source_of_derived sized derived
    rw [sized_add_iff here]
    simp [CountsRight, found]
  | delete source item =>
    obtain ⟨list, found, here, rfl⟩ := source_of_derived sized derived
    rw [sized_delete_iff here]
    simp [CountsRight, found]
  | clone source =>
    obtain ⟨list, _, here, rfl⟩ := source_of_derived sized derived
    rw [clone_eq]
    exact iff_of_true here trivial
  | map source mapper =>
    obtain ⟨list, _, here, rfl⟩ := source_of_derived sized derived
    exact iff_of_true (sized_map here mapper) trivial
  | filter source predicate =>
    obtain ⟨list, found, _, rfl⟩ := source_of_derived sized derived
    rw [sized_filter_iff]
    simp [CountsRight, found]
  | merge source1 source2 =>
    obtain ⟨list1, found1, rest⟩ := Option.bind_eq_some_iff.mp derived
    obtain ⟨list2, found2, same⟩ := Option.bind_eq_some_iff.mp rest
    cases same
    rw [sized_merge_iff (sized list1 (List.mem_of_getElem? found1)) (sized list2 (List.mem_of_getElem? found2))]
    simp [CountsRight, found1, found2]

theorem step_allSized_iff {next : List (SortedList Item)} (sized : AllSized lists) {operation : Operation Item}
    (moved : step compare lists operation = some next) : AllSized next ↔ CountsRight compare lists operation := by
  obtain ⟨new, derived, rfl⟩ := Option.map_eq_some_iff.mp moved
  rw [← sized_made_iff sized derived]
  unfold AllSized
  rw [List.forall_mem_append, List.forall_mem_singleton]
  exact and_iff_right sized

end Step

/-- Starting from no lists, all lists of a program over events always have the right
sizes exactly if no operation miscounts: no `add` replaces an event, no `delete`
misses in a list that has events, no `filter` keeps one and no `merge` joins two
lists with events. -/
theorem allSized_iff_countsRight (operations : List (Operation Event)) :
    Always (step Event.eventComparator) AllSized [] operations ↔
      Guarded (step Event.eventComparator) (CountsRight Event.eventComparator) [] operations :=
  always_iff_guarded_of_lawful (fun _ _ _ sized moved => step_allSized_iff sized moved) (List.forall_mem_nil _)

/-- Lunch, added again, is counted as a second event. -/
theorem replaced_event_counted_twice :
    ¬ Always (step Event.eventComparator) AllSized []
        [.empty, .add 0 (.plain "lunch" 12 13), .add 1 (.plain "lunch" 12 14)] := by
  intro always
  have sized := ((always.2 _ rfl).2 _ rfl).2 _ rfl
  have counted := (sized (.node (.plain "lunch" 12 14) .empty 2) (by decide)).size_eq
  revert counted
  decide

end Programs
end PlenR.Util.SortedList
