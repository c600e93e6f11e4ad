import Mathlib.Data.List.Basic

/-! Listeners that are registered for a handle and removed by it.

Handles are numbers that are never issued twice, so removing a listener again
does nothing. A component keeps handles in whatever form it likes; it is cleaned
up when nothing it registered is live after it was unmounted.
-/

set_option autoImplicit false

namespace Foundation

structure Registry (Kind : Type) where
  issued : ℕ
  live : List (ℕ × Kind)

namespace Registry

variable {Kind : Type}

def empty : Registry Kind where
  issued := 0
  live := []

def register (kind : Kind) (registry : Registry Kind) : Registry Kind where
  issued := registry.issued + 1
  live := registry.live ++ [(registry.issued, kind)]

def registerMany (kind : Kind) : ℕ → Registry Kind → Registry Kind
  | 0, registry => registry
  | count + 1, registry => registerMany kind count (registry.register kind)

def unsubscribe (handle : ℕ) (registry : Registry Kind) : Registry Kind :=
  { registry with live := registry.live.filter fun entry => entry.1 ≠ handle }

def unsubscribeAll (handles : List ℕ) (registry : Registry Kind) : Registry Kind :=
  handles.foldl (fun registry handle => registry.unsubscribe handle) registry

def delivers [DecidableEq Kind] (kind : Kind) (registry : Registry Kind) : Bool :=
  registry.live.any fun entry => entry.2 = kind

def Complete (registry : Registry Kind) : Prop := registry.live.map Prod.fst = List.range registry.issued

variable {registry : Registry Kind}

theorem complete_empty : Complete (empty : Registry Kind) := rfl

theorem Complete.register (complete : Complete registry) (kind : Kind) : Complete (registry.register kind) := by
  unfold Complete Registry.register
  rw [List.map_append, complete, List.range_succ]
  rfl

def Bounded (registry : Registry Kind) : Prop := ∀ entry ∈ registry.live, entry.1 < registry.issued

theorem bounded_empty : Bounded (empty : Registry Kind) := List.forall_mem_nil _

theorem Bounded.register (bounded : Bounded registry) (kind : Kind) : Bounded (registry.register kind) := by
  intro entry member
  cases List.mem_append.mp member with
  | inl old => exact Nat.lt_succ_of_lt (bounded entry old)
  | inr new =>
    rw [List.mem_singleton.mp new]
    exact Nat.lt_succ_self _

theorem Bounded.registerMany (bounded : Bounded registry) (kind : Kind) (count : ℕ) :
    Bounded (registry.registerMany kind count) := by
  induction count generalizing registry with
  | zero => exact bounded
  | succ count ih => exact ih (bounded.register kind)

theorem issued_registerMany (kind : Kind) (count : ℕ) :
    (registry.registerMany kind count).issued = registry.issued + count := by
  induction count generalizing registry with
  | zero => rfl
  | succ count ih =>
    rw [Registry.registerMany, ih]
    simp only [Registry.register]
    omega

theorem live_registerMany (kind : Kind) (count : ℕ) :
    ∀ entry ∈ (registry.registerMany kind count).live,
      entry ∈ registry.live ∨ entry.2 = kind ∧ registry.issued ≤ entry.1 := by
  induction count generalizing registry with
  | zero => exact fun entry member => .inl member
  | succ count ih =>
    intro entry member
    obtain before | ⟨same, later⟩ := ih entry member
    · cases List.mem_append.mp before with
      | inl old => exact .inl old
      | inr new =>
        rw [List.mem_singleton.mp new]
        exact .inr ⟨rfl, Nat.le_refl _⟩
    · exact .inr ⟨same, Nat.le_of_succ_le later⟩

@[simp] theorem issued_unsubscribeAll (handles : List ℕ) : (registry.unsubscribeAll handles).issued = registry.issued := by
  unfold unsubscribeAll
  induction handles generalizing registry with
  | nil => rfl
  | cons handle handles ih => exact ih

theorem live_unsubscribeAll (handles : List ℕ) :
    (registry.unsubscribeAll handles).live = registry.live.filter fun entry => entry.1 ∉ handles := by
  unfold unsubscribeAll
  induction handles generalizing registry with
  | nil => simp
  | cons handle handles ih =>
    rw [List.foldl_cons, ih, unsubscribe, List.filter_filter]
    apply List.filter_congr
    intro entry _
    simp [Bool.and_comm]

theorem cleared_iff_live (handles : List ℕ) :
    (registry.unsubscribeAll handles).live = [] ↔ ∀ entry ∈ registry.live, entry.1 ∈ handles := by
  rw [live_unsubscribeAll, List.filter_eq_nil_iff]
  simp

theorem Bounded.unsubscribeAll (bounded : Bounded registry) (handles : List ℕ) :
    Bounded (registry.unsubscribeAll handles) := by
  intro entry member
  rw [live_unsubscribeAll] at member
  rw [issued_unsubscribeAll]
  exact bounded entry (List.mem_filter.mp member).1

theorem Complete.cleared_iff (complete : Complete registry) (handles : List ℕ) :
    (registry.unsubscribeAll handles).live = [] ↔ ∀ handle < registry.issued, handle ∈ handles := by
  rw [cleared_iff_live]
  constructor
  · intro used handle inside
    have issued : handle ∈ registry.live.map Prod.fst := by
      rw [complete]
      exact List.mem_range.mpr inside
    obtain ⟨entry, member, rfl⟩ := List.mem_map.mp issued
    exact used entry member
  · intro used entry member
    have issued := List.mem_map_of_mem (f := Prod.fst) member
    rw [complete] at issued
    exact used entry.1 (List.mem_range.mp issued)

end Registry

/-- A component with the handles it keeps. `failed` tells that a handler has thrown. -/
structure Component (Kind Handles : Type) where
  registry : Registry Kind
  handles : Handles
  mounted : Bool
  failed : Bool

/-- No handler has failed, and once unmounted nothing it registered is live. -/
def CleanedUp {Kind Handles : Type} (component : Component Kind Handles) : Prop :=
  component.failed = false ∧ (component.mounted = false → component.registry.live = [])

theorem cleanedUp_unmounted_iff {Kind Handles : Type} {registry : Registry Kind} {handles : Handles} {failed : Bool} :
    CleanedUp ⟨registry, handles, false, failed⟩ ↔ failed = false ∧ registry.live = [] := by
  simp [CleanedUp]

theorem CleanedUp.mounted_of_delivers {Kind Handles : Type} [DecidableEq Kind] {component : Component Kind Handles}
    (cleaned : CleanedUp component) {kind : Kind} (delivers : component.registry.delivers kind = true) :
    component.mounted = true := by
  cases mounted : component.mounted with
  | true => rfl
  | false =>
    rw [Registry.delivers, cleaned.2 mounted] at delivers
    cases delivers

theorem CleanedUp.of_mounted {Kind Handles : Type} {component : Component Kind Handles}
    (succeeded : component.failed = false) (mounted : component.mounted = true) : CleanedUp component :=
  ⟨succeeded, fun unmounted => nomatch mounted.symm.trans unmounted⟩

end Foundation
