import Mathlib.Data.List.Perm.Basic

/-! A view to which deliveries only ever add.

Deliveries come under keys, and a later one stands in the place of an earlier
one of its key. The view should show the last delivery of each key; since nothing
is taken out of it, it does so only as long as there is nothing to take out.
-/

set_option autoImplicit false

namespace Foundation.Accretion

variable {Key Item : Type}

/-- The items of the last deliveries; one that could not be read has none. -/
def contents (latest : List (Key × Option (List Item))) : List Item :=
  latest.flatMap fun entry => entry.2.getD []

/-- Every last delivery was read, and the view has their items, each as often as they do. -/
def Shows (latest : List (Key × Option (List Item))) (shown : List Item) : Prop :=
  (∀ entry ∈ latest, entry.2.isSome) ∧ shown.Perm (contents latest)

/-- The last delivery of the key, if there was one, had no items. -/
def NothingOf (latest : List (Key × Option (List Item))) (key : Key) : Prop :=
  ∀ entry ∈ latest, entry.1 = key → entry.2 = some []

theorem shows_nil : Shows ([] : List (Key × Option (List Item))) [] := ⟨List.forall_mem_nil _, .refl _⟩

variable [DecidableEq Key]

def record (latest : List (Key × Option (List Item))) (key : Key) (items : Option (List Item)) :
    List (Key × Option (List Item)) :=
  latest.filter (fun entry => entry.1 ≠ key) ++ [(key, items)]

theorem contents_split (latest : List (Key × Option (List Item))) (key : Key) :
    (contents latest).Perm (contents (latest.filter fun entry => entry.1 ≠ key) ++
      contents (latest.filter fun entry => entry.1 = key)) := by
  unfold contents
  rw [← List.flatMap_append]
  apply List.Perm.flatMap_right
  have split := List.filter_append_perm (fun entry : Key × Option (List Item) => entry.1 ≠ key) latest
  simpa using split.symm

theorem nothingOf_iff {latest : List (Key × Option (List Item))} (read : ∀ entry ∈ latest, entry.2.isSome)
    (key : Key) : NothingOf latest key ↔ contents (latest.filter fun entry => entry.1 = key) = [] := by
  simp only [contents, List.flatMap_eq_nil_iff, List.mem_filter, decide_eq_true_eq, and_imp]
  constructor
  · intro nothing entry member named
    rw [nothing entry member named]
    rfl
  · intro empty entry member named
    obtain ⟨items, some_⟩ := Option.isSome_iff_exists.mp (read entry member)
    have none_left := empty entry member named
    rw [some_] at none_left ⊢
    exact congrArg some none_left

theorem shows_record_iff {latest : List (Key × Option (List Item))} {shown : List Item} (shows : Shows latest shown)
    {key : Key} {items : Option (List Item)} {added : List Item} (read : ∀ list ∈ items, added = list) :
    Shows (record latest key items) (shown ++ added) ↔ items.isSome ∧ NothingOf latest key := by
  obtain ⟨allRead, same⟩ := shows
  have kept : ∀ entry ∈ latest.filter (fun entry => entry.1 ≠ key), entry.2.isSome :=
    fun entry member => allRead entry (List.mem_filter.mp member).1
  cases items with
  | none =>
    apply iff_of_false
    · intro ⟨readNow, _⟩
      cases readNow (key, none) (List.mem_append_right _ List.mem_cons_self)
    · intro ⟨readNow, _⟩
      cases readNow
  | some items =>
    obtain rfl := read items rfl
    have readNow : ∀ entry ∈ record latest key (some added), entry.2.isSome := by
      intro entry member
      cases List.mem_append.mp member with
      | inl old => exact kept entry old
      | inr new => exact List.mem_singleton.mp new ▸ rfl
    have shownNow : contents (record latest key (some added)) =
        contents (latest.filter fun entry => entry.1 ≠ key) ++ added := by
      simp [contents, record]
    have before := same.trans (contents_split latest key)
    rw [nothingOf_iff allRead]
    simp only [Shows, Option.isSome_some, true_and, shownNow, List.perm_append_right_iff]
    constructor
    · intro ⟨_, after⟩
      -- what was shown is the rest alone, and the rest with the items of the key
      have sizes := after.length_eq.symm.trans before.length_eq
      rw [List.length_append] at sizes
      exact List.length_eq_zero_iff.mp (by omega)
    · intro empty
      rw [empty, List.append_nil] at before
      exact ⟨readNow, before⟩

end Foundation.Accretion
