import Mathlib.Data.List.Basic

/-! Finite runs of a partial step function.

A run is a list of actions; a disabled action has no successor state. The laws
below speak of every state a run passes through, so a property of the last
state alone is never enough. The step function, the law and the guard are
arbitrary: nothing here depends on what the system does.
-/

set_option autoImplicit false

namespace Foundation.Run

variable {State Action : Type} (step : State → Action → Option State)

/-- Perform the actions in order; the result is absent once an action is disabled. -/
def run : State → List Action → Option State
  | state, [] => some state
  | state, action :: rest => (step state action).bind (fun next => run next rest)

/-- The law holds at the start and in every state the run passes through. -/
def Always (law : State → Prop) : State → List Action → Prop
  | state, [] => law state
  | state, action :: rest =>
      law state ∧ ∀ next, step state action = some next → Always law next rest

/-- Every action the run performs meets the guard in the state it is taken from. -/
def Guarded (guard : State → Action → Prop) : State → List Action → Prop
  | _, [] => True
  | state, action :: rest =>
      ∀ next, step state action = some next → guard state action ∧ Guarded guard next rest

variable {step}

@[simp] theorem run_nil (state : State) : run step state [] = some state := rfl

@[simp] theorem run_cons (state : State) (action : Action) (rest : List Action) :
    run step state (action :: rest) = (step state action).bind (fun next => run step next rest) := rfl

theorem Always.start {law : State → Prop} {state : State} {actions : List Action}
    (always : Always step law state actions) : law state := by
  cases actions with
  | nil => exact always
  | cons action rest => exact always.1

instance Guarded.decidable {guard : State → Action → Prop} [∀ state action, Decidable (guard state action)] :
    ∀ (state : State) (actions : List Action), Decidable (Guarded step guard state actions)
  | _, [] => isTrue trivial
  | state, action :: rest =>
      match taken : step state action with
      | none => isTrue (fun _ moved => nomatch taken.symm.trans moved)
      | some next =>
          have : Decidable (Guarded step guard next rest) := Guarded.decidable next rest
          decidable_of_iff (guard state action ∧ Guarded step guard next rest)
            ⟨fun both _ moved => Option.some.inj (taken.symm.trans moved) ▸ both, fun all => all next taken⟩

theorem Guarded.cons {guard : State → Action → Prop} {state next : State} {action : Action} {rest : List Action}
    (moved : step state action = some next) (here : guard state action) (later : Guarded step guard next rest) :
    Guarded step guard state (action :: rest) := by
  intro other same
  obtain rfl := Option.some.inj (moved.symm.trans same)
  exact ⟨here, later⟩

theorem guarded_of_forall {guard : State → Action → Prop}
    (met : ∀ state action next, step state action = some next → guard state action) (state : State)
    (actions : List Action) : Guarded step guard state actions := by
  induction actions generalizing state with
  | nil => trivial
  | cons action rest ih => exact fun next moved => ⟨met state action next moved, ih next⟩

theorem guarded_congr {guard other : State → Action → Prop}
    (same : ∀ state action next, step state action = some next → (guard state action ↔ other state action))
    (state : State) (actions : List Action) :
    Guarded step guard state actions ↔ Guarded step other state actions := by
  induction actions generalizing state with
  | nil => rfl
  | cons action rest ih =>
    exact forall₂_congr fun next moved => and_congr (same state action next moved) (ih next)

theorem always_iff_reached {law : State → Prop} (state : State) (actions : List Action) :
    Always step law state actions ↔
      ∀ performed, performed <+: actions → ∀ reached, run step state performed = some reached →
        law reached := by
  induction actions generalizing state with
  | nil =>
    constructor
    · intro here performed before reached same
      rw [List.prefix_nil.mp before] at same
      exact Option.some.inj same ▸ here
    · intro reached
      exact reached [] List.nil_prefix state rfl
  | cons action rest ih =>
    constructor
    · rintro ⟨here, later⟩ performed before reached same
      cases performed with
      | nil => exact Option.some.inj same ▸ here
      | cons taken performed =>
        obtain ⟨rfl, tail⟩ := List.cons_prefix_cons.mp before
        obtain ⟨next, moved, same⟩ := Option.bind_eq_some_iff.mp same
        exact (ih next).mp (later next moved) performed tail reached same
    · intro reached
      refine ⟨reached [] List.nil_prefix state rfl, ?_⟩
      intro next moved
      refine (ih next).mpr ?_
      intro performed before final same
      refine reached (action :: performed) (List.cons_prefix_cons.mpr ⟨rfl, before⟩) final ?_
      rw [run_cons, moved]
      exact same

theorem Always.mono {law weaker : State → Prop} (weaken : ∀ state, law state → weaker state)
    {state : State} {actions : List Action} (always : Always step law state actions) :
    Always step weaker state actions := by
  induction actions generalizing state with
  | nil => exact weaken state always
  | cons action rest ih =>
    exact ⟨weaken state always.1, fun next moved => ih (always.2 next moved)⟩

theorem always_of_guarded {invariant : State → Prop} {guard : State → Action → Prop}
    (keep : ∀ state action next, invariant state → guard state action →
      step state action = some next → invariant next)
    {state : State} {actions : List Action} (start : invariant state)
    (guarded : Guarded step guard state actions) : Always step invariant state actions := by
  induction actions generalizing state with
  | nil => exact start
  | cons action rest ih =>
    refine ⟨start, ?_⟩
    intro next moved
    obtain ⟨here, later⟩ := guarded next moved
    exact ih (keep state action next start here moved) later

theorem always_of_step {invariant : State → Prop}
    (keep : ∀ state action next, invariant state → step state action = some next → invariant next)
    {state : State} (actions : List Action) (start : invariant state) :
    Always step invariant state actions := by
  induction actions generalizing state with
  | nil => exact start
  | cons action rest ih => exact ⟨start, fun next moved => ih (keep state action next start moved)⟩

/-- The exact rule. When a guarded step keeps an invariant that implies the law,
and a step that reaches a lawful state was guarded, the law holds of every
state of a run exactly if the run is guarded. -/
theorem always_iff_guarded {invariant law : State → Prop} {guard : State → Action → Prop}
    (sound : ∀ state, invariant state → law state)
    (keep : ∀ state action next, invariant state → guard state action →
      step state action = some next → invariant next)
    (needed : ∀ state action next, invariant state → step state action = some next →
      law next → guard state action)
    {state : State} {actions : List Action} (start : invariant state) :
    Always step law state actions ↔ Guarded step guard state actions := by
  constructor
  · intro always
    -- the law of the next state gives the guard of the step, and the guard the invariant
    induction actions generalizing state with
    | nil => trivial
    | cons action rest ih =>
      intro next moved
      have later := always.2 next moved
      have here := needed state action next start moved later.start
      exact ⟨here, ih (keep state action next start here moved) later⟩
  · intro guarded
    exact (always_of_guarded keep start guarded).mono sound

/-- The exact rule where the step from a lawful state is lawful exactly if it was guarded. -/
theorem always_iff_guarded_of_lawful {law : State → Prop} {guard : State → Action → Prop}
    (decided : ∀ state action next, law state → step state action = some next → (law next ↔ guard state action))
    {state : State} {actions : List Action} (lawful : law state) :
    Always step law state actions ↔ Guarded step guard state actions := by
  apply always_iff_guarded (fun _ holds => holds)
  case keep => exact fun state action next holds guarded moved => (decided state action next holds moved).mpr guarded
  case needed => exact fun state action next holds moved => (decided state action next holds moved).mp
  case start => exact lawful

/-- The exact rule where one step decides: beside a background that every step keeps,
the step from a lawful state is lawful exactly if it was guarded. -/
theorem always_iff_guarded_of_step_iff (background : State → Prop) {law : State → Prop}
    {guard : State → Action → Prop}
    (kept : ∀ state action next, background state → step state action = some next → background next)
    (decided : ∀ state action next, background state → law state → step state action = some next →
      (law next ↔ guard state action))
    {state : State} {actions : List Action} (start : background state) (lawful : law state) :
    Always step law state actions ↔ Guarded step guard state actions := by
  have sound : ∀ state, background state ∧ law state → law state := fun state both => both.2
  apply always_iff_guarded sound
  case keep =>
    intro state action next ⟨here, holds⟩ guarded moved
    exact ⟨kept state action next here moved, (decided state action next here holds moved).mpr guarded⟩
  case needed =>
    intro state action next ⟨here, holds⟩ moved after
    exact (decided state action next here holds moved).mp after
  case start => exact ⟨start, lawful⟩

end Foundation.Run
