import PlenR.Foundation.Run

/-! Answering an invitation on its card, as `InvitationCard.js` does.

Each answer deletes the notification and, when the deletion has succeeded, sets
the access record of the host. Requests are answered one by one, or never; the
callbacks of an app that has stopped do not run. So from the deletion until the
record is set the decision is kept nowhere, and lost if the app stops there.
-/

set_option autoImplicit false

namespace PlenR.Screens.InvitationCard

open Foundation.Run

structure State where
  /-- `notifications/{id}` exists. -/
  notification : Bool
  /-- `granted` of `access_granted_users/{host_id}`. -/
  access : Option Bool
  /-- Deletions under way, each with the decision its callback will record, if the callback is alive. -/
  deletes : List (Option Bool)
  /-- Decisions being recorded. -/
  sets : List Bool
  shown : Bool
  presses : List Bool
  deriving DecidableEq

/-- The invitation as it arrives; an earlier one of the same host may have been answered. -/
def State.initial (earlier : Option Bool) : State where
  notification := true
  access := earlier
  deletes := []
  sets := []
  shown := false
  presses := []

/-- The handlers of both buttons, which differ in the decision only. -/
def State.answer (granted : Bool) (state : State) : State :=
  { state with
    deletes := state.deletes ++ [some granted]
    presses := state.presses ++ [granted] }

def State.deny (state : State) : State := state.answer false

def State.grant (state : State) : State := state.answer true

/-- A deletion was answered. It has no handler for failures; its callback sets the
record and dismisses the card. -/
def State.deleted (position : ℕ) (success : Bool) (callback : Option Bool) (state : State) : State :=
  let state := { state with deletes := state.deletes.eraseIdx position }
  if success then
    match callback with
    | some granted => { state with notification := false, sets := state.sets ++ [granted], shown := false }
    | none => { state with notification := false }
  else state

inductive Action where
  | openCard
  | deny
  | grant
  | dismiss
  | appStops
  | deleteAnswered (position : ℕ) (success : Bool)
  | setAnswered (position : ℕ) (success : Bool)

def step (state : State) : Action → Option State
  -- the card can be opened as long as the notification is listed
  | .openCard => if state.notification then some { state with shown := true } else none
  | .deny => if state.shown then some state.deny else none
  | .grant => if state.shown then some state.grant else none
  | .dismiss => some { state with shown := false }
  | .appStops => some { state with shown := false, deletes := state.deletes.map fun _ => none }
  | .deleteAnswered position success =>
      state.deletes[position]?.map fun callback => state.deleted position success callback
  | .setAnswered position success =>
      state.sets[position]?.map fun granted =>
        { state with
          sets := state.sets.eraseIdx position
          access := if success then some granted else state.access }

def Recorded (state : State) : Prop := ∃ granted ∈ state.presses, state.access = some granted

def NotLost (state : State) : Prop := state.notification = true ∨ Recorded state

/-- The notification is not deleted, or the record an earlier invitation left
happens to be the decision of a press. -/
def Covered (earlier : Option Bool) (state : State) : Action → Prop
  | .deleteAnswered _ success =>
      success = true → state.notification = true → ∃ granted ∈ state.presses, earlier = some granted
  | _ => True

/-! ## The requests of a run -/

structure Pending (earlier : Option Bool) (state : State) : Prop where
  deletes : ∀ granted, some granted ∈ state.deletes → granted ∈ state.presses
  sets : ∀ granted ∈ state.sets, granted ∈ state.presses
  untouched : state.notification = true → state.access = earlier ∧ state.sets = []

section Step
variable {earlier : Option Bool} {state next : State}

theorem Pending.answer (pending : Pending earlier state) (granted : Bool) : Pending earlier (state.answer granted) where
  deletes := by
    intro decision underWay
    cases List.mem_append.mp underWay with
    | inl before => exact List.mem_append_left _ (pending.deletes decision before)
    | inr new =>
      obtain rfl := Option.some.inj (List.mem_singleton.mp new)
      exact List.mem_append_right _ (List.mem_singleton_self _)
  sets := fun decision underWay => List.mem_append_left _ (pending.sets decision underWay)
  untouched := pending.untouched

theorem Pending.deleted (pending : Pending earlier state) {position : ℕ} {success : Bool} {callback : Option Bool}
    (underWay : state.deletes[position]? = some callback) :
    Pending earlier (state.deleted position success callback) := by
  have others : ∀ granted, some granted ∈ state.deletes.eraseIdx position → granted ∈ state.presses :=
    fun granted member => pending.deletes granted (List.mem_of_mem_eraseIdx member)
  unfold State.deleted
  cases success with
  | false => exact ⟨others, pending.sets, pending.untouched⟩
  | true =>
    cases callback with
    | none => exact ⟨others, pending.sets, nofun⟩
    | some decision =>
      constructor
      case deletes => exact others
      case untouched => exact nofun
      case sets =>
        intro granted underWay'
        cases List.mem_append.mp underWay' with
        | inl before => exact pending.sets granted before
        | inr new =>
          rw [List.mem_singleton.mp new]
          exact pending.deletes decision (List.mem_of_getElem? underWay)

theorem pending_step (pending : Pending earlier state) {action : Action} (moved : step state action = some next) :
    Pending earlier next := by
  cases action with
  | openCard =>
    obtain ⟨_, rfl⟩ := Option.ite_some_none_eq_some.mp moved
    exact ⟨pending.deletes, pending.sets, pending.untouched⟩
  | deny =>
    obtain ⟨_, rfl⟩ := Option.ite_some_none_eq_some.mp moved
    exact pending.answer false
  | grant =>
    obtain ⟨_, rfl⟩ := Option.ite_some_none_eq_some.mp moved
    exact pending.answer true
  | dismiss =>
    cases moved
    exact ⟨pending.deletes, pending.sets, pending.untouched⟩
  | appStops =>
    cases moved
    constructor
    case deletes =>
      intro granted underWay
      obtain ⟨_, _, gone⟩ := List.mem_map.mp underWay
      cases gone
    case sets => exact pending.sets
    case untouched => exact pending.untouched
  | deleteAnswered position success =>
    obtain ⟨callback, underWay, rfl⟩ := Option.map_eq_some_iff.mp moved
    exact pending.deleted underWay
  | setAnswered position success =>
    obtain ⟨granted, underWay, rfl⟩ := Option.map_eq_some_iff.mp moved
    constructor
    case deletes => exact pending.deletes
    case sets => exact fun decision member => pending.sets decision (List.mem_of_mem_eraseIdx member)
    case untouched =>
      intro exists_
      -- a set is under way only after a deletion
      have none_ := (pending.untouched exists_).2
      rw [none_] at underWay
      cases underWay

theorem NotLost.answer (notLost : NotLost state) (granted : Bool) : NotLost (state.answer granted) := by
  cases notLost with
  | inl exists_ => exact .inl exists_
  | inr recorded =>
    obtain ⟨decision, pressed, same⟩ := recorded
    exact .inr ⟨decision, List.mem_append_left _ pressed, same⟩

/-- Once the notification is gone, a decision must be recorded already. -/
theorem notLost_deleted_iff (pending : Pending earlier state) (notLost : NotLost state) (position : ℕ)
    (callback : Option Bool) : NotLost (state.deleted position true callback) ↔
      (state.notification = true → ∃ granted ∈ state.presses, earlier = some granted) := by
  have gone : NotLost (state.deleted position true callback) ↔ Recorded state := by
    cases callback with
    | none => exact or_iff_right nofun
    | some decision => exact or_iff_right nofun
  rw [gone]
  constructor
  · intro ⟨granted, pressed, same⟩ exists_
    exact ⟨granted, pressed, (pending.untouched exists_).1.symm.trans same⟩
  · intro covered
    by_cases exists_ : state.notification = true
    · obtain ⟨granted, pressed, same⟩ := covered exists_
      exact ⟨granted, pressed, (pending.untouched exists_).1.trans same⟩
    · exact notLost.resolve_left exists_

theorem notLost_step_iff (pending : Pending earlier state) (notLost : NotLost state) {action : Action}
    (moved : step state action = some next) : NotLost next ↔ Covered earlier state action := by
  cases action with
  | openCard =>
    obtain ⟨_, rfl⟩ := Option.ite_some_none_eq_some.mp moved
    exact iff_of_true notLost trivial
  | deny =>
    obtain ⟨_, rfl⟩ := Option.ite_some_none_eq_some.mp moved
    exact iff_of_true (notLost.answer false) trivial
  | grant =>
    obtain ⟨_, rfl⟩ := Option.ite_some_none_eq_some.mp moved
    exact iff_of_true (notLost.answer true) trivial
  | dismiss =>
    cases moved
    exact iff_of_true notLost trivial
  | appStops =>
    cases moved
    exact iff_of_true notLost trivial
  | deleteAnswered position success =>
    obtain ⟨callback, underWay, rfl⟩ := Option.map_eq_some_iff.mp moved
    cases success with
    | false => exact iff_of_true notLost nofun
    | true => exact (notLost_deleted_iff pending notLost position callback).trans (by simp [Covered])
  | setAnswered position success =>
    obtain ⟨granted, underWay, rfl⟩ := Option.map_eq_some_iff.mp moved
    apply iff_of_true _ trivial
    cases success with
    | false => exact notLost
    | true => exact .inr ⟨granted, pending.sets granted (List.mem_of_getElem? underWay), rfl⟩

end Step

/-- At every point of a run the invitation or a decision on it is stored, exactly if
the notification is never deleted unless an earlier record covers for it. -/
theorem notLost_iff_covered (earlier : Option Bool) (actions : List Action) :
    Always step NotLost (.initial earlier) actions ↔ Guarded step (Covered earlier) (.initial earlier) actions := by
  apply always_iff_guarded_of_step_iff (Pending earlier)
  case kept => exact fun state action next pending moved => pending_step pending moved
  case decided => exact fun state action next pending notLost moved => notLost_step_iff pending notLost moved
  case start => exact ⟨nofun, nofun, fun _ => ⟨rfl, rfl⟩⟩
  case lawful => exact .inl rfl

/-- The invitation is granted and its notification deleted; before the record is set the app stops. -/
theorem granted_invitation_lost :
    ¬ Always step NotLost (.initial none) [.openCard, .grant, .deleteAnswered 0 true, .appStops] := by
  intro always
  have lost := ((((always.2 _ rfl).2 _ rfl).2 _ rfl).2 _ rfl)
  cases lost with
  | inl exists_ => cases exists_
  | inr recorded =>
    obtain ⟨_, _, same⟩ := recorded
    cases same

end PlenR.Screens.InvitationCard
