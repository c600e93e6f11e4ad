import PlenR.Foundation.Registrations
import PlenR.Foundation.Run

/-! Components that push the handle of every listener onto one array.

A component registers listeners when it is mounted, in the callbacks of its
listeners, in its own handlers, and when a request it has issued is answered, which
may be after it was unmounted. Unmounting removes every handle of the array, so
what is left over was registered by a late answer.
-/

set_option autoImplicit false

namespace Foundation

open Run

/-- What a component does with what it is told: the data after it, and the listeners it registers. -/
structure Subscriber (Kind Data Report Gesture Answer : Type) where
  data : Data
  mounts : List Kind
  /-- The listener that makes the report. -/
  source : Report → Kind
  callback : Report → Data → Data × List Kind
  gesture : Gesture → Data → Data × List Kind
  /-- Absent if no such request is under way. -/
  answer : Answer → Data → Option (Data × List Kind)

namespace Subscriber

structure State (Kind Data : Type) where
  registry : Registry Kind
  unsubscribe : List ℕ
  mounted : Bool
  data : Data

inductive Action (Report Gesture Answer : Type) where
  | report (report : Report)
  | gesture (gesture : Gesture)
  | answer (answer : Answer)
  | unmount

namespace State
variable {Kind Data : Type}

def push (kind : Kind) (state : State Kind Data) : State Kind Data :=
  { state with
    registry := state.registry.register kind
    unsubscribe := state.unsubscribe ++ [state.registry.issued] }

def pushAll (kinds : List Kind) (state : State Kind Data) : State Kind Data :=
  kinds.foldl (fun state kind => state.push kind) state

def after (result : Data × List Kind) (state : State Kind Data) : State Kind Data :=
  { state with data := result.1 }.pushAll result.2

def unmount (state : State Kind Data) : State Kind Data :=
  { state with registry := state.registry.unsubscribeAll state.unsubscribe, mounted := false }

def Holding (state : State Kind Data) : Prop := ∀ entry ∈ state.registry.live, entry.1 ∈ state.unsubscribe

def Released (state : State Kind Data) : Prop := state.mounted = false → state.registry.live = []

variable {state : State Kind Data}

@[simp] theorem pushAll_mounted (kinds : List Kind) : (state.pushAll kinds).mounted = state.mounted := by
  unfold pushAll
  induction kinds generalizing state with
  | nil => rfl
  | cons kind kinds ih => exact ih

theorem pushAll_live_eq_nil (kinds : List Kind) :
    (state.pushAll kinds).registry.live = [] ↔ state.registry.live = [] ∧ kinds = [] := by
  unfold pushAll
  induction kinds generalizing state with
  | nil => simp
  | cons kind kinds ih =>
    rw [List.foldl_cons, ih]
    simp [push, Registry.register]

theorem Holding.push (holding : Holding state) (kind : Kind) : Holding (state.push kind) := by
  intro entry member
  cases List.mem_append.mp member with
  | inl old => exact List.mem_append_left _ (holding entry old)
  | inr new =>
    rw [List.mem_singleton.mp new]
    exact List.mem_append_right _ (List.mem_singleton_self _)

theorem Holding.pushAll (holding : Holding state) (kinds : List Kind) : Holding (state.pushAll kinds) := by
  unfold State.pushAll
  induction kinds generalizing state with
  | nil => exact holding
  | cons kind kinds ih => exact ih (holding.push kind)

theorem Holding.after (holding : Holding state) (result : Data × List Kind) : Holding (state.after result) := by
  have held : Holding { state with data := result.1 } := holding
  exact held.pushAll result.2

theorem Holding.unmount (holding : Holding state) : Holding state.unmount := by
  intro entry member
  rw [State.unmount, Registry.live_unsubscribeAll] at member
  exact holding entry (List.mem_filter.mp member).1

theorem Holding.released_unmount (holding : Holding state) : Released state.unmount :=
  fun _ => (Registry.cleared_iff_live state.unsubscribe).mpr holding

theorem released_of_mounted (mounted : state.mounted = true) : Released state :=
  fun unmounted => absurd (mounted.symm.trans unmounted) Bool.noConfusion

theorem Released.after_iff (released : Released state) (result : Data × List Kind) :
    Released (state.after result) ↔ result.2 = [] ∨ state.mounted = true := by
  cases mounted : state.mounted with
  | true => exact iff_of_true (released_of_mounted (by simpa [State.after] using mounted)) (.inr rfl)
  | false =>
    have nothing : state.registry.live = [] := released mounted
    simp [Released, State.after, pushAll_live_eq_nil, mounted, nothing]

end State

section Runs
variable {Kind Data Report Gesture Answer : Type} [DecidableEq Kind]
  (subscriber : Subscriber Kind Data Report Gesture Answer)

def initial : State Kind Data :=
  State.pushAll subscriber.mounts
    { registry := .empty, unsubscribe := [], mounted := true, data := subscriber.data }

def step (state : State Kind Data) : Action Report Gesture Answer → Option (State Kind Data)
  | .report report =>
      if state.registry.delivers (subscriber.source report) then
        some (state.after (subscriber.callback report state.data))
      else none
  | .gesture gesture => if state.mounted then some (state.after (subscriber.gesture gesture state.data)) else none
  | .answer answer => (subscriber.answer answer state.data).map fun result => state.after result
  | .unmount => if state.mounted then some state.unmount else none

/-- An answer that registers anything comes while the component is mounted. -/
def InTime (state : State Kind Data) : Action Report Gesture Answer → Prop
  | .answer answer => ∀ result ∈ subscriber.answer answer state.data, result.2 = [] ∨ state.mounted = true
  | _ => True

variable {subscriber} {state next : State Kind Data} {action : Action Report Gesture Answer}

theorem holding_step (holding : state.Holding) (moved : subscriber.step state action = some next) : next.Holding := by
  cases action with
  | report report =>
    obtain ⟨_, same⟩ := Option.ite_none_right_eq_some.mp moved
    exact Option.some.inj same ▸ holding.after _
  | gesture gesture =>
    obtain ⟨_, same⟩ := Option.ite_none_right_eq_some.mp moved
    exact Option.some.inj same ▸ holding.after _
  | answer answer =>
    obtain ⟨result, _, rfl⟩ := Option.map_eq_some_iff.mp moved
    exact holding.after result
  | unmount =>
    obtain ⟨_, same⟩ := Option.ite_none_right_eq_some.mp moved
    exact Option.some.inj same ▸ holding.unmount

theorem released_step_iff (holding : state.Holding) (released : state.Released)
    (moved : subscriber.step state action = some next) : next.Released ↔ InTime subscriber state action := by
  cases action with
  | report report =>
    obtain ⟨delivers, same⟩ := Option.ite_none_right_eq_some.mp moved
    cases same
    rw [released.after_iff]
    -- an unmounted component has no listener that could report
    have present : state.mounted = true := by
      cases mounted : state.mounted with
      | true => rfl
      | false =>
        rw [Registry.delivers, released mounted] at delivers
        cases delivers
    exact iff_of_true (.inr present) trivial
  | gesture gesture =>
    obtain ⟨mounted, same⟩ := Option.ite_none_right_eq_some.mp moved
    cases same
    rw [released.after_iff]
    exact iff_of_true (.inr mounted) trivial
  | answer answer =>
    obtain ⟨result, found, rfl⟩ := Option.map_eq_some_iff.mp moved
    rw [released.after_iff, InTime, found]
    exact ⟨fun inTime _ same => Option.some.inj same ▸ inTime, fun inTime => inTime result rfl⟩
  | unmount =>
    obtain ⟨_, same⟩ := Option.ite_none_right_eq_some.mp moved
    cases same
    exact iff_of_true holding.released_unmount trivial

theorem released_iff_inTime (subscriber : Subscriber Kind Data Report Gesture Answer)
    (actions : List (Action Report Gesture Answer)) :
    Always subscriber.step State.Released subscriber.initial actions ↔
      Guarded subscriber.step (InTime subscriber) subscriber.initial actions := by
  apply always_iff_guarded_of_step_iff State.Holding
  case kept => exact fun _ _ _ holding moved => holding_step holding moved
  case decided => exact fun _ _ _ holding released moved => released_step_iff holding released moved
  case start =>
    have empty : (⟨.empty, [], true, subscriber.data⟩ : State Kind Data).Holding := List.forall_mem_nil _
    exact empty.pushAll subscriber.mounts
  case lawful => exact State.released_of_mounted (State.pushAll_mounted subscriber.mounts)

theorem released_of_silent {subscriber : Subscriber Kind Data Report Gesture Answer}
    (silent : ∀ answer data, ∀ result ∈ subscriber.answer answer data, result.2 = [])
    (actions : List (Action Report Gesture Answer)) :
    Always subscriber.step State.Released subscriber.initial actions := by
  rw [released_iff_inTime]
  apply guarded_of_forall
  intro state action next _
  cases action with
  | answer answer => exact fun result found => .inl (silent answer state.data result found)
  | _ => trivial

end Runs
end Subscriber
end Foundation
