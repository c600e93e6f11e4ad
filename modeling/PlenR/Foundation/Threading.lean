import Mathlib.Data.List.Basic

/-! Mapping over a list while a state is passed from each item to the next.

The image of an item depends on the state it finds. Where an invariant of the
state and of the items to come fixes that image, the whole traversal is a plain
map.
-/

set_option autoImplicit false

namespace Foundation

variable {Item State Image : Type}

def mapThread (visit : Item → State → Image × State) : List Item → State → List Image × State
  | [], state => ([], state)
  | item :: items, state =>
      let (image, state) := visit item state
      let (images, state) := mapThread visit items state
      (image :: images, state)

theorem mapThread_map {Source : Type} (visit : Item → State → Image × State) (read : Source → Item)
    (items : List Source) (state : State) :
    mapThread visit (items.map read) state = mapThread (fun item => visit (read item)) items state := by
  induction items generalizing state with
  | nil => rfl
  | cons item items ih => simp only [List.map_cons, mapThread, ih]

/-- The rule: what the invariant fixes for the next item it fixes for all items to come. -/
theorem mapThread_eq {visit : Item → State → Image × State} {image : Item → Image} (invariant : State → List Item → Prop)
    (decided : ∀ state item rest, invariant state (item :: rest) →
      (visit item state).1 = image item ∧ invariant (visit item state).2 rest)
    {items : List Item} {state : State} (start : invariant state items) :
    (mapThread visit items state).1 = items.map image ∧ invariant (mapThread visit items state).2 [] := by
  induction items generalizing state with
  | nil => exact ⟨rfl, start⟩
  | cons item items ih =>
    obtain ⟨same, next⟩ := decided state item items start
    obtain ⟨others, final⟩ := ih next
    simp only [mapThread, List.map_cons, same, others]
    exact ⟨trivial, final⟩

end Foundation
