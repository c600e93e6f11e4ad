import PlenR.Foundation.Effects
import PlenR.Screens.EditEvent
import PlenR.Screens.Store
import PlenR.Time.Wall

/-! The form of `AddEvent.js`, and the callbacks other screens pass to it.

The form is opened for a day and starts with the present hour of it; it has the
inputs of the form of `EditEvent`, but its picker of the start always moves the
end. Writes are issued and not waited for. A callback that is missing, or that reads
a property of a missing value, aborts the handler it is called from.
-/

set_option autoImplicit false

namespace PlenR.Screens

open PlenR.Time PlenR.Util Foundation

inductive Request where
  /-- `users/{user}/calendars/PlenR Calendar/events/{data.id}`, set. -/
  | setEvent (user : String) (data : Event)
  /-- `users/{user}/pending_events/{id}`, deleted. -/
  | deletePending (user id : String)
  deriving DecidableEq

namespace AddEvent

structure Props where
  inviteesAdded : Option (List Invitee)
  onAddEvent : Option (Event → Option (List Invitee) → Effect Request)
  deletePendingEvent : Option (Effect Request)

structure State where
  title : String
  location : String
  start : ℤ
  end_ : ℤ
  notes : String

structure Prefill where
  title : Option String
  location : Option String
  notes : Option String
  year_selected : ℤ
  month_selected : ℤ
  day_selected : ℤ

def State.initial (clock : WallClock) (today : ℤ) (props : Prefill) : State where
  title := props.title.getD ""
  location := props.location.getD ""
  start := clock.newDate props.year_selected props.month_selected props.day_selected (clock.getHours today) 0
  end_ := clock.newDate props.year_selected props.month_selected props.day_selected (clock.getHours today + 1) 0
  notes := props.notes.getD ""

def State.change (clock : Clock) (state : State) : EditEvent.Change → State
  | .title text => { state with title := text }
  | .location text => { state with location := text }
  | .notes text => { state with notes := text }
  | .start newDate => { state with start := newDate, end_ := clock.hourAfter newDate }
  | .end_ newDate => { state with end_ := newDate }

/-- The event made of the form; `freshId` is what `idCreator` draws. -/
def State.event (freshId : String) (state : State) : Event :=
  .new freshId
    { title := some state.title, location := some state.location, start := state.start, end_ := state.end_,
      notes := some state.notes, allday := false, recurrence := none }

/-- The handler of `done`; without a title it only shows an alert. -/
def done (freshId : String) (props : Props) (state : State) : Effect Request :=
  if state.title = "" then .issue []
  else
    match props.onAddEvent with
    | none => .abort
    | some onAddEvent =>
        -- the deletion is issued at once after the writes
        (onAddEvent (state.event freshId) props.inviteesAdded).andThen (props.deletePendingEvent.getD (.issue []))

def State.handed (freshId : String) (state : State) : Option Event :=
  if state.title = "" then none else some (state.event freshId)

theorem done_eq_handed (freshId : String) (props : Props) (state : State) :
    done freshId props state =
      match state.handed freshId with
      | none => .issue []
      | some event =>
          match props.onAddEvent with
          | none => .abort
          | some onAddEvent =>
              (onAddEvent event props.inviteesAdded).andThen (props.deletePendingEvent.getD (.issue [])) := by
  unfold done State.handed
  split
  · rfl
  · rfl

end AddEvent
end PlenR.Screens
