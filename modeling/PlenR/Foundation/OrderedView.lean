import Mathlib.Data.List.Nodup
import Mathlib.Logic.Function.Basic
import Mathlib.Order.Defs.PartialOrder

/-! Lists that show a finite map in order.

A list of records is an ordered view of a map from keys to records when it is
ordered by rank, has no key twice and holds exactly the records of the map. The
rules below say what inserting, replacing and erasing a record at a place in
the list does to the map, for any keys and any preorder of ranks.
-/

set_option autoImplicit false

namespace Foundation

theorem pairwise_insert_iff {Elem : Type} {rel : Elem → Elem → Prop} {before after : List Elem} {item : Elem} :
    (before ++ item :: after).Pairwise rel ↔
      (before ++ after).Pairwise rel ∧ (∀ elem ∈ before, rel elem item) ∧ (∀ elem ∈ after, rel item elem) := by
  simp only [List.pairwise_append, List.pairwise_cons, List.forall_mem_cons]
  constructor
  · rintro ⟨first, ⟨upper, rest⟩, across⟩
    exact ⟨⟨first, rest, fun elem member => (across elem member).2⟩,
      fun elem member => (across elem member).1, upper⟩
  · rintro ⟨⟨first, rest, across⟩, lower, upper⟩
    exact ⟨first, ⟨upper, rest⟩, fun elem member => ⟨lower elem member, across elem member⟩⟩

variable {Elem Key Rank : Type} [Preorder Rank] {key : Elem → Key} {rank : Elem → Rank}

/-- `list` shows the finite map `contents`, in order of rank. -/
structure OrderedView (key : Elem → Key) (rank : Elem → Rank) (contents : Key → Option Elem)
    (list : List Elem) : Prop where
  ordered : list.Pairwise (fun first second => rank first ≤ rank second)
  unique : (list.map key).Nodup
  shows : ∀ name elem, contents name = some elem ↔ elem ∈ list ∧ key elem = name

namespace OrderedView

theorem empty : OrderedView key rank (fun _ => none) [] where
  ordered := .nil
  unique := .nil
  shows := by simp

variable {contents : Key → Option Elem} {list before after : List Elem} {item old : Elem}

theorem absent_iff (view : OrderedView key rank contents list) (name : Key) :
    contents name = none ↔ ∀ elem ∈ list, key elem ≠ name := by
  constructor
  · intro none elem member same
    have held := (view.shows name elem).mpr ⟨member, same⟩
    rw [none] at held
    exact nomatch held
  · intro different
    cases held : contents name with
    | none => rfl
    | some elem =>
      obtain ⟨member, same⟩ := (view.shows name elem).mp held
      exact absurd same (different elem member)

theorem key_ne_of_split (view : OrderedView key rank contents (before ++ old :: after)) :
    ∀ elem ∈ before ++ after, key elem ≠ key old := by
  have unique := (List.perm_middle.map key).nodup_iff.mp view.unique
  rw [List.map_cons, List.nodup_cons] at unique
  intro elem member same
  exact unique.1 (same ▸ List.mem_map_of_mem member)

theorem split_unique (view : OrderedView key rank contents (before ++ old :: after)) {first rest : List Elem}
    (same : before ++ old :: after = first ++ item :: rest) (named : key item = key old) :
    before = first ∧ old = item ∧ after = rest := by
  have different := view.key_ne_of_split
  refine (List.append_cons_inj_of_notMem ?_ ?_).mp same
  · exact fun member => different item (List.mem_append_left _ member) named
  · exact fun member => different item (List.mem_append_right _ member) named

variable [DecidableEq Key]

theorem erase (view : OrderedView key rank contents (before ++ old :: after)) :
    OrderedView key rank (Function.update contents (key old) none) (before ++ after) where
  ordered := (pairwise_insert_iff.mp view.ordered).1
  unique := by
    have unique := (List.perm_middle.map key).nodup_iff.mp view.unique
    rw [List.map_cons, List.nodup_cons] at unique
    exact unique.2
  shows := by
    intro name elem
    -- other keys are looked up as before
    by_cases same : name = key old
    · subst same
      simp only [Function.update_self, reduceCtorEq, false_iff, not_and]
      exact view.key_ne_of_split elem
    · rw [Function.update_of_ne same, view.shows name elem]
      simp only [List.mem_append, List.mem_cons]
      constructor
      · rintro ⟨first | rfl | rest, named⟩
        · exact ⟨.inl first, named⟩
        · exact absurd named.symm same
        · exact ⟨.inr rest, named⟩
      · rintro ⟨first | rest, named⟩
        · exact ⟨.inl first, named⟩
        · exact ⟨.inr (.inr rest), named⟩

theorem erase_absent (view : OrderedView key rank contents list) (name : Key)
    (absent : ∀ elem ∈ list, key elem ≠ name) :
    OrderedView key rank (Function.update contents name none) list := by
  have same : Function.update contents name none = contents := by
    rw [← (view.absent_iff name).mpr absent, Function.update_eq_self]
  rwa [same]

theorem insert (view : OrderedView key rank contents (before ++ after))
    (absent : ∀ elem ∈ before ++ after, key elem ≠ key item)
    (lower : ∀ elem ∈ before, rank elem ≤ rank item) (upper : ∀ elem ∈ after, rank item ≤ rank elem) :
    OrderedView key rank (Function.update contents (key item) (some item)) (before ++ item :: after) where
  ordered := pairwise_insert_iff.mpr ⟨view.ordered, lower, upper⟩
  unique := by
    refine (List.perm_middle.map key).nodup_iff.mpr ?_
    rw [List.map_cons, List.nodup_cons]
    refine ⟨?_, view.unique⟩
    intro member
    obtain ⟨elem, inside, same⟩ := List.mem_map.mp member
    exact absent elem inside same
  shows := by
    intro name elem
    by_cases same : name = key item
    · subst same
      simp only [Function.update_self, Option.some.injEq]
      constructor
      · rintro rfl
        exact ⟨by simp, rfl⟩
      · rintro ⟨member, named⟩
        rcases List.mem_cons.mp (List.perm_middle.mem_iff.mp member) with rfl | inside
        · rfl
        · exact absurd named (absent elem inside)
    · rw [Function.update_of_ne same, view.shows name elem, List.perm_middle.mem_iff, List.mem_cons]
      constructor
      · rintro ⟨member, named⟩
        exact ⟨.inr member, named⟩
      · rintro ⟨rfl | member, named⟩
        · exact absurd named.symm same
        · exact ⟨member, named⟩

theorem replace (view : OrderedView key rank contents (before ++ old :: after)) (same : key old = key item)
    (lower : ∀ elem ∈ before, rank elem ≤ rank item) (upper : ∀ elem ∈ after, rank item ≤ rank elem) :
    OrderedView key rank (Function.update contents (key item) (some item)) (before ++ item :: after) := by
  have inserted := view.erase.insert (same ▸ view.key_ne_of_split) lower upper
  rwa [same, Function.update_idem] at inserted

end OrderedView
end Foundation
