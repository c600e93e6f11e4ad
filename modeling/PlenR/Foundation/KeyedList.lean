import Mathlib.Data.List.Basic
import Mathlib.Data.List.Dedup
import Mathlib.Data.List.Perm.Basic
import Mathlib.Logic.Function.Basic

/-! A list that holds a finite map.

Each element carries its key; the list holds a map when the elements of every
key are exactly the one the map gives. Positions do not matter, so an element
may be replaced by removing it and appending its successor.
-/

set_option autoImplicit false

namespace Foundation

variable {Elem Key : Type} [DecidableEq Key] (key : Elem → Key)

theorem update_eq_some_iff {contents : Key → Option Elem} {changed name : Key} {item found : Elem} :
    Function.update contents changed (some item) name = some found ↔
      name = changed ∧ found = item ∨ name ≠ changed ∧ contents name = some found := by
  by_cases same : name = changed
  · rw [same, Function.update_self]
    simp [eq_comm]
  · rw [Function.update_of_ne same]
    simp [same]

theorem map_update {Image : Type} (read : Elem → Image) (contents : Key → Option Elem) (changed : Key) (item : Elem) :
    (fun name => (Function.update contents changed (some item) name).map read) =
      Function.update (fun name => (contents name).map read) changed (some (read item)) := by
  funext name
  by_cases same : name = changed
  · rw [same, Function.update_self, Function.update_self]
    rfl
  · rw [Function.update_of_ne same, Function.update_of_ne same]

theorem filter_replace_other (list : List Elem) {item : Elem} {other : Key} (different : other ≠ key item) :
    (list.filter (fun elem => key elem ≠ key item) ++ [item]).filter (fun elem => key elem = other) =
      list.filter (fun elem => key elem = other) := by
  have new : ¬ key item = other := fun same => different same.symm
  rw [List.filter_append, List.filter_filter, List.filter_cons_of_neg (by simpa using new), List.filter_nil,
    List.append_nil]
  apply List.filter_congr
  intro elem _
  by_cases named : key elem = other
  · simp [named, different]
  · simp [named]

theorem flatMap_filter_perm {names : List Key} (distinct : names.Nodup) {list : List Elem}
    (named : ∀ elem ∈ list, key elem ∈ names) :
    (names.flatMap fun name => list.filter fun elem => key elem = name).Perm list := by
  induction names generalizing list with
  | nil =>
    have empty : list = [] := List.eq_nil_iff_forall_not_mem.mpr fun elem member => List.not_mem_nil (named elem member)
    rw [empty]
    exact List.Perm.refl []
  | cons name names ih =>
    obtain ⟨fresh, distinct⟩ := List.nodup_cons.mp distinct
    have others : (names.flatMap fun other => list.filter fun elem => key elem = other) =
        names.flatMap fun other =>
          (list.filter fun elem => ¬ key elem = name).filter fun elem => key elem = other := by
      apply List.flatMap_congr
      intro other member
      have different : other ≠ name := fun same => fresh (same ▸ member)
      rw [List.filter_filter]
      apply List.filter_congr
      intro elem _
      by_cases here : key elem = other
      · simp [here, different]
      · simp [here]
    have rest : (names.flatMap fun other => list.filter fun elem => key elem = other).Perm
        (list.filter fun elem => ¬ key elem = name) := by
      rw [others]
      apply ih distinct
      intro elem member
      obtain ⟨inside, different⟩ := List.mem_filter.mp member
      exact (List.mem_cons.mp (named elem inside)).resolve_left (by simpa using different)
    rw [List.flatMap_cons]
    exact (rest.append_left _).trans (by simpa using List.filter_append_perm (fun elem => decide (key elem = name)) list)

/-- The list has, for each key, the element the map gives, once, and no other. -/
def Holds (contents : Key → Option Elem) (list : List Elem) : Prop :=
  ∀ name, list.filter (fun elem => key elem = name) = (contents name).toList

namespace Holds

variable {key} {contents : Key → Option Elem} {list : List Elem}

theorem empty : Holds key (fun _ => none) [] := fun _ => rfl

theorem mem_iff (holds : Holds key contents list) {elem : Elem} :
    elem ∈ list ↔ contents (key elem) = some elem := by
  have same := holds (key elem)
  constructor
  · intro member
    have inside : elem ∈ list.filter (fun other => key other = key elem) :=
      List.mem_filter.mpr ⟨member, by simp⟩
    rw [same] at inside
    exact Option.mem_toList.mp inside
  · intro found
    have inside : elem ∈ list.filter (fun other => key other = key elem) := by
      rw [same, found]
      exact List.mem_cons_self
    exact (List.mem_filter.mp inside).1

theorem flatMap_perm {Image : Type} (holds : Holds key contents list) {contents' : Key → Option Elem}
    {list' : List Elem} (holds' : Holds key contents' list') (read : Elem → List Image)
    (alike : ∀ name, ((contents name).toList.flatMap read).Perm ((contents' name).toList.flatMap read)) :
    (list.flatMap read).Perm (list'.flatMap read) := by
  let names := ((list ++ list').map key).dedup
  have distinct : names.Nodup := List.nodup_dedup _
  have named : ∀ elem ∈ list ++ list', key elem ∈ names :=
    fun elem member => List.mem_dedup.mpr (List.mem_map_of_mem member)
  have first := flatMap_filter_perm key distinct fun elem member => named elem (List.mem_append_left _ member)
  have second := flatMap_filter_perm key distinct fun elem member => named elem (List.mem_append_right _ member)
  have middle : ((names.flatMap fun name => list.filter fun elem => key elem = name).flatMap read).Perm
      ((names.flatMap fun name => list'.filter fun elem => key elem = name).flatMap read) := by
    simp only [List.flatMap_assoc, holds _, holds' _]
    exact List.Perm.flatMap_left names fun name _ => alike name
  exact ((first.flatMap_right read).symm.trans middle).trans (second.flatMap_right read)

theorem replace (holds : Holds key contents list) (item : Elem) :
    Holds key (Function.update contents (key item) (some item))
      (list.filter (fun elem => key elem ≠ key item) ++ [item]) := by
  intro name
  by_cases same : name = key item
  · subst same
    have none_left : list.filter (fun elem => key elem = key item && key elem ≠ key item) = [] := by
      apply List.filter_eq_nil_iff.mpr
      simp
    rw [List.filter_append, List.filter_filter, none_left, Function.update_self]
    simp
  · rw [filter_replace_other key list same, holds name, Function.update_of_ne same]

theorem erase (holds : Holds key contents list) (removed : Key) :
    Holds key (Function.update contents removed none) (list.filter fun elem => key elem ≠ removed) := by
  intro name
  rw [List.filter_filter]
  by_cases same : name = removed
  · rw [same, Function.update_self]
    apply List.filter_eq_nil_iff.mpr
    simp
  · rw [Function.update_of_ne same, ← holds name]
    apply List.filter_congr
    intro elem _
    by_cases named : key elem = name
    · simp [named, same]
    · simp [named]

theorem append (holds : Holds key contents list) {item : Elem} (absent : ∀ elem ∈ list, key elem ≠ key item) :
    Holds key (Function.update contents (key item) (some item)) (list ++ [item]) := by
  have kept : list.filter (fun elem => key elem ≠ key item) = list := by
    apply List.filter_eq_self.mpr
    simpa using absent
  have replaced := holds.replace item
  rwa [kept] at replaced

theorem set (holds : Holds key contents list) {item : Elem} {index : ℕ}
    (found : list[index]?.map key = some (key item)) :
    Holds key (Function.update contents (key item) (some item)) (list.set index item) := by
  obtain ⟨old, here, named⟩ := Option.map_eq_some_iff.mp found
  obtain ⟨inside, rfl⟩ := List.getElem?_eq_some_iff.mp here
  have split : list.take index ++ list[index] :: list.drop (index + 1) = list := by simp
  rw [List.set_eq_take_append_cons_drop, if_pos inside]
  intro name
  have before := holds name
  rw [← split, List.filter_append, List.filter_cons] at before
  rw [List.filter_append, List.filter_cons]
  by_cases same : name = key item
  · subst same
    -- the old element is the only one of its key
    have one := congrArg List.length before
    have atMost : (contents (key item)).toList.length ≤ 1 := by
      cases contents (key item) with
      | none => exact Nat.zero_le 1
      | some elem => exact Nat.le_refl 1
    simp only [named, decide_true, if_true, List.length_append, List.length_cons] at one
    have first : (list.take index).filter (fun elem => key elem = key item) = [] :=
      List.length_eq_zero_iff.mp (by omega)
    have rest : (list.drop (index + 1)).filter (fun elem => key elem = key item) = [] :=
      List.length_eq_zero_iff.mp (by omega)
    rw [first, rest, Function.update_self]
    simp
  · have different : ¬ key item = name := fun again => same again.symm
    simp only [named, different, decide_false] at before
    rw [Function.update_of_ne same, ← before]
    simp [different]

end Holds
end Foundation
