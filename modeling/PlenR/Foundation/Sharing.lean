import Mathlib.Logic.Function.Basic
import PlenR.Foundation.Run

/-! Parties that share data.

Each party has data of its own and steps on these and the shared ones; the parties
take turns in any order. The rule speaks of one party at a time: what its own steps
keep, and what it may rely on about the steps of the others, each of which
guarantees it.
-/

set_option autoImplicit false

namespace Foundation.Sharing

open Run

structure State (Party Shared Own : Type) where
  shared : Shared
  own : Party → Own

variable {Party Shared Own Action : Type} [DecidableEq Party]

def step (perform : Party → Shared → Own → Action → Option (Shared × Own)) (state : State Party Shared Own)
    (action : Party × Action) : Option (State Party Shared Own) :=
  (perform action.1 state.shared (state.own action.1) action.2).map fun (shared, own) =>
    { shared := shared, own := Function.update state.own action.1 own }

structure Lawful (common : Shared → Prop) (kept : Party → Shared → Own → Prop) (state : State Party Shared Own) :
    Prop where
  common : common state.shared
  kept : ∀ party, kept party state.shared (state.own party)

/-- A step of one party keeps what is common and its own, and guarantees the change that the others rely on. -/
structure Guarantees (perform : Party → Shared → Own → Action → Option (Shared × Own)) (common : Shared → Prop)
    (kept : Party → Shared → Own → Prop) (changes : Shared → Shared → Prop) : Prop where
  guaranteed : ∀ {party shared own action shared' own'}, common shared → kept party shared own →
    perform party shared own action = some (shared', own') →
      common shared' ∧ kept party shared' own' ∧ changes shared shared'
  relied : ∀ {party shared own shared'}, kept party shared own → changes shared shared' → common shared' →
    kept party shared' own

section Rule
variable {perform : Party → Shared → Own → Action → Option (Shared × Own)} {common : Shared → Prop}
  {kept : Party → Shared → Own → Prop} {changes : Shared → Shared → Prop}

theorem Lawful.step (guarantees : Guarantees perform common kept changes) {state next : State Party Shared Own}
    (lawful : Lawful common kept state) {action : Party × Action}
    (moved : Sharing.step perform state action = some next) : Lawful common kept next := by
  obtain ⟨⟨shared, own⟩, performed, rfl⟩ := Option.map_eq_some_iff.mp moved
  obtain ⟨mover, action⟩ := action
  obtain ⟨common', own', changed⟩ := guarantees.guaranteed lawful.common (lawful.kept mover) performed
  refine ⟨common', ?_⟩
  intro party
  by_cases same : party = mover
  · subst same
    simpa using own'
  · simpa [Function.update_of_ne same] using guarantees.relied (lawful.kept party) changed common'

/-- The rule of rely and guarantee: what the parties keep holds in every run, in whatever order they step. -/
theorem always_of_guarantees (guarantees : Guarantees perform common kept changes) {start : State Party Shared Own}
    (lawful : Lawful common kept start) (actions : List (Party × Action)) :
    Always (Sharing.step perform) (Lawful common kept) start actions :=
  always_of_step (fun _ _ _ holds moved => holds.step guarantees moved) actions lawful

end Rule
end Foundation.Sharing
