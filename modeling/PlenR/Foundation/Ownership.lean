import Mathlib.Data.List.Basic

/-! What a session shows, and whose it is.

A session belongs to one party or to none. It shows items; an item belongs to a
party by whatever relation the user of these lemmas has. A new item is brought
by a source that holds it, possibly on behalf of an earlier session.
-/

set_option autoImplicit false

namespace Foundation

variable {Party Item : Type} (belongs : Party → Item → Prop)

/-- Everything shown belongs to the party in session; nothing is shown without one. -/
def Owned (session : Option Party) (items : List Item) : Prop :=
  match session with
  | none => items = []
  | some party => ∀ item ∈ items, belongs party item

variable {belongs} {session : Option Party} {items brought next : List Item}

theorem Owned.nil : Owned belongs session [] := by
  cases session with
  | none => rfl
  | some party => exact List.forall_mem_nil _

theorem Owned.mono {weaker : Party → Item → Prop} (owned : Owned belongs session items)
    (weaken : ∀ party item, belongs party item → weaker party item) : Owned weaker session items := by
  cases session with
  | none => exact owned
  | some party => exact fun item member => weaken party item (owned item member)

end Foundation
