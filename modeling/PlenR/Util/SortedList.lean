import Mathlib.Data.Int.Notation
import Mathlib.Data.List.Basic
import Mathlib.Data.List.Perm.Basic

/-! The persistent list of `SortedList.js`.

A list object has a head, a tail and a cached size; the empty list has neither
head nor tail. The comparison is stored in every list object by the constructor
and handed on unchanged, so here it is one parameter of the operations that
read it. Results about the listed elements are stated on `toArray`; the cached
size is carried along as the source computes it.
-/

set_option autoImplicit false

namespace PlenR.Util

inductive SortedList (Item : Type) where
  | empty : SortedList Item
  | node (head : Item) (tail : SortedList Item) (size : ℤ) : SortedList Item
  deriving DecidableEq, Repr

namespace SortedList

variable {Item : Type}

def size : SortedList Item → ℤ
  | .empty => 0
  | .node _ _ size => size

def isEmpty : SortedList Item → Bool
  | .empty => true
  | .node .. => false

def clone : SortedList Item → SortedList Item
  | .empty => .empty
  | .node head tail size => .node head tail.clone size

def forEach {State : Type} (action : State → Item → State) : State → SortedList Item → State
  | state, .empty => state
  | state, .node head tail _ => forEach action (action state head) tail

def toArray (list : SortedList Item) : List Item :=
  list.forEach (fun array item => array ++ [item]) []

def map {Image : Type} (mapper : Item → Image) : SortedList Item → SortedList Image
  | .empty => .empty
  | .node head tail size => .node (mapper head) (tail.map mapper) size

-- nodes built here keep the size of a fresh list object
def filter (predicate : Item → Bool) : SortedList Item → SortedList Item
  | .empty => .empty
  | .node head tail _ =>
      if predicate head then .node head (tail.filter predicate) 0 else tail.filter predicate

section Compare
variable (compare : Item → Item → ℤ)

def add : SortedList Item → Item → SortedList Item
  | .empty, item => .node item .empty (0 + 1)
  | .node head tail size, item =>
      -- an equal element is replaced, but an equal one behind a later element is never reached
      if compare head item = 0 then .node item tail.clone (size + 1)
      else if compare head item > 0 then .node item (node head tail size).clone (size + 1)
      else .node head (tail.add item) (size + 1)

def delete : SortedList Item → Item → SortedList Item
  | .empty, _ => .empty
  | .node head tail size, item =>
      -- only the first equal element is taken out
      if compare head item = 0 then tail.clone
      else .node head (tail.delete item) (size - 1)

/-- The recursion of `merge` on its second list, for a first list with a head;
`mergeTail` merges the tail of the first list. -/
def mergeInto (list1 : SortedList Item) (head1 : Item) (mergeTail : SortedList Item → SortedList Item) :
    SortedList Item → SortedList Item
  | .empty => list1
  | .node head2 tail2 size2 =>
      if compare head1 head2 ≤ 0 then .node head1 (mergeTail (.node head2 tail2 size2)) 0
      else .node head2 (mergeInto list1 head1 mergeTail tail2) 0

def merge : SortedList Item → SortedList Item → SortedList Item
  | .empty => fun list2 => list2
  | .node head1 tail1 size1 => mergeInto compare (.node head1 tail1 size1) head1 (merge tail1)

end Compare

/-! ## What the operations list -/

@[simp] theorem clone_eq (list : SortedList Item) : list.clone = list := by
  induction list with
  | empty => rfl
  | node head tail size ih => rw [clone, ih]

theorem forEach_push (list : SortedList Item) (array : List Item) :
    list.forEach (fun array item => array ++ [item]) array = array ++ list.toArray := by
  unfold toArray
  induction list generalizing array with
  | empty => exact (List.append_nil array).symm
  | node head tail size ih =>
    simp only [forEach]
    rw [ih (array ++ [head]), ih ([] ++ [head])]
    simp only [List.append_assoc, List.nil_append]

@[simp] theorem toArray_empty : (empty : SortedList Item).toArray = [] := rfl

@[simp] theorem toArray_node (head : Item) (tail : SortedList Item) (size : ℤ) :
    (node head tail size).toArray = head :: tail.toArray :=
  forEach_push tail [head]

@[simp] theorem toArray_filter (predicate : Item → Bool) (list : SortedList Item) :
    (list.filter predicate).toArray = list.toArray.filter predicate := by
  induction list with
  | empty => rfl
  | node head tail size ih =>
    simp only [filter, toArray_node, List.filter_cons]
    split
    · rw [toArray_node, ih]
    · exact ih

section Compare
variable {compare : Item → Item → ℤ}

/-- Where `add` puts an item: past the elements that compare below it, then in
place of an equal element, before a greater one, or at the end. -/
inductive Placement (compare : Item → Item → ℤ) (item : Item) : List Item → List Item → Prop where
  | atEnd {before : List Item} : (∀ head ∈ before, compare head item < 0) →
      Placement compare item before (before ++ [item])
  | replacing {before after : List Item} {head : Item} : (∀ head ∈ before, compare head item < 0) →
      compare head item = 0 →
      Placement compare item (before ++ head :: after) (before ++ item :: after)
  | inserted {before after : List Item} {head : Item} : (∀ head ∈ before, compare head item < 0) →
      0 < compare head item →
      Placement compare item (before ++ head :: after) (before ++ item :: head :: after)

theorem Placement.cons {item head : Item} {old new : List Item} (below : compare head item < 0)
    (placement : Placement compare item old new) :
    Placement compare item (head :: old) (head :: new) := by
  cases placement with
  | atEnd before => exact .atEnd (List.forall_mem_cons.mpr ⟨below, before⟩)
  | replacing before same => exact .replacing (List.forall_mem_cons.mpr ⟨below, before⟩) same
  | inserted before above => exact .inserted (List.forall_mem_cons.mpr ⟨below, before⟩) above

theorem Placement.perm_cons {item : Item} {old new : List Item} (placement : Placement compare item old new)
    (absent : ∀ stored ∈ old, compare stored item ≠ 0) : new.Perm (item :: old) := by
  cases placement with
  | atEnd before => exact List.perm_append_singleton item old
  | replacing before same => exact absurd same (absent _ (by simp))
  | inserted before above => exact List.perm_middle

/-- The first element that does not compare below the item is equal to it, so that `add` puts the item in its place. -/
def replaces (compare : Item → Item → ℤ) (item : Item) (list : List Item) : Bool :=
  (list.find? fun head => 0 ≤ compare head item).any fun head => compare head item = 0

theorem replaces_append_of_below {item : Item} {before : List Item} (below : ∀ head ∈ before, compare head item < 0)
    (rest : List Item) : replaces compare item (before ++ rest) = replaces compare item rest := by
  have passed : before.find? (fun head => 0 ≤ compare head item) = none := by simpa using below
  rw [replaces, List.find?_append, passed, Option.none_or, replaces]

theorem Placement.length_eq {item : Item} {old new : List Item} (placement : Placement compare item old new) :
    new.length = old.length + if replaces compare item old then 0 else 1 := by
  cases placement with
  | atEnd below =>
    rw [← List.append_nil old, replaces_append_of_below below]
    simp [replaces]
  | replacing below same =>
    rw [replaces_append_of_below below]
    simp [replaces, same]
  | inserted below above =>
    rw [replaces_append_of_below below]
    simp [replaces, Int.le_of_lt above, Int.ne_of_gt above]
    omega

theorem Placement.perm_cons_of_not_replaces {item : Item} {old new : List Item}
    (placement : Placement compare item old new) (besides : replaces compare item old = false) :
    new.Perm (item :: old) := by
  cases placement with
  | atEnd below => exact List.perm_append_singleton item old
  | replacing below same =>
    rw [replaces_append_of_below below] at besides
    simp [replaces, same] at besides
  | inserted below above => exact List.perm_middle

theorem add_placement (list : SortedList Item) (item : Item) :
    Placement compare item list.toArray (list.add compare item).toArray := by
  induction list with
  | empty => exact .atEnd (List.forall_mem_nil _)
  | node head tail size ih =>
    simp only [add, clone_eq]
    split
    next same =>
      simp only [toArray_node]
      change Placement compare item ([] ++ head :: tail.toArray) ([] ++ item :: tail.toArray)
      exact .replacing (List.forall_mem_nil _) same
    next different =>
      split
      next above =>
        simp only [toArray_node]
        change Placement compare item ([] ++ head :: tail.toArray) ([] ++ item :: head :: tail.toArray)
        exact .inserted (List.forall_mem_nil _) above
      next notAbove =>
        simp only [toArray_node]
        exact ih.cons (by omega)

theorem toArray_delete (list : SortedList Item) (item : Item) :
    (list.delete compare item).toArray = list.toArray.eraseP (fun head => compare head item = 0) := by
  induction list with
  | empty => rfl
  | node head tail size ih =>
    simp only [delete, toArray_node, clone_eq]
    split
    next same => rw [List.eraseP_cons_of_pos (by simpa using same)]
    next different => rw [List.eraseP_cons_of_neg (by simpa using different), toArray_node, ih]

theorem toArray_merge (list1 list2 : SortedList Item) :
    (merge compare list1 list2).toArray =
      list1.toArray.merge list2.toArray (fun first second => compare first second ≤ 0) := by
  induction list1 generalizing list2 with
  | empty => exact (List.nil_merge _).symm
  | node head1 tail1 size1 ih1 =>
    induction list2 with
    | empty => exact (List.merge_right _).symm
    | node head2 tail2 size2 ih2 =>
      simp only [merge] at ih2
      simp only [merge, mergeInto, toArray_node, List.cons_merge_cons, decide_eq_true_eq]
      split
      · rw [toArray_node, ih1, toArray_node]
      · rw [toArray_node, ih2, toArray_node]

theorem toArray_merge_perm (list1 list2 : SortedList Item) :
    (merge compare list1 list2).toArray.Perm (list1.toArray ++ list2.toArray) := by
  rw [toArray_merge]
  exact List.merge_perm_append _

theorem Placement.mem_of_mem {item elem : Item} {old new : List Item} (placement : Placement compare item old new)
    (member : elem ∈ new) : elem = item ∨ elem ∈ old := by
  cases placement with
  | atEnd before => simpa [or_comm] using member
  | replacing before same =>
    simp only [List.mem_append, List.mem_cons] at member ⊢
    grind
  | inserted before above =>
    simp only [List.mem_append, List.mem_cons] at member ⊢
    grind

end Compare

/-! ## Reading the elements through a function -/

section Map
variable {Image : Type} {compare : Item → Item → ℤ} {compareImages : Image → Image → ℤ} {read : Item → Image}

@[simp] theorem toArray_map (list : SortedList Item) : (list.map read).toArray = list.toArray.map read := by
  induction list with
  | empty => rfl
  | node head tail size ih => simp [map, ih]

theorem map_filter (predicate : Image → Bool) (list : SortedList Item) :
    (list.filter fun item => predicate (read item)).map read = (list.map read).filter predicate := by
  induction list with
  | empty => rfl
  | node head tail size ih =>
    simp only [filter, map]
    split
    · rw [map, ih]
    · exact ih

theorem map_add (agree : ∀ first second, compare first second = compareImages (read first) (read second))
    (list : SortedList Item) (item : Item) :
    (list.add compare item).map read = (list.map read).add compareImages (read item) := by
  induction list with
  | empty => rfl
  | node head tail size ih =>
    simp only [add, map, clone_eq, agree]
    split
    · rfl
    · split
      · rfl
      · rw [map, ih]

theorem map_merge (agree : ∀ first second, compare first second = compareImages (read first) (read second))
    (list1 list2 : SortedList Item) :
    (merge compare list1 list2).map read = merge compareImages (list1.map read) (list2.map read) := by
  induction list1 generalizing list2 with
  | empty => rfl
  | node head1 tail1 size1 ih1 =>
    induction list2 with
    | empty => rfl
    | node head2 tail2 size2 ih2 =>
      simp only [merge, mergeInto, map, agree]
      split
      · rw [map, ih1]
        rfl
      · simp only [merge, map] at ih2
        rw [map, ih2]

end Map
end SortedList
end PlenR.Util
