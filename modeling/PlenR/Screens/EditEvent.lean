import PlenR.Util.Event

/-! The form of `EditEvent.js`.

The form starts with the fields of the event it was opened for and writes all of
them back; the picker of the start may move the end as well.
-/

set_option autoImplicit false

namespace PlenR.Screens.EditEvent

open PlenR.Time PlenR.Util

structure State where
  title : Option String
  location : Option String
  start : ℤ
  end_ : ℤ
  notes : Option String

def State.initial (event : Event) : State where
  title := event.title
  location := event.location
  start := event.start
  end_ := event.end_
  notes := event.notes

inductive Change where
  | title (text : String)
  | location (text : String)
  | notes (text : String)
  | start (newDate : ℤ)
  | end_ (newDate : ℤ)

def State.change (clock : Clock) (state : State) : Change → State
  | .title text => { state with title := some text }
  | .location text => { state with location := some text }
  | .notes text => { state with notes := some text }
  | .start newDate =>
      -- the end follows only when the new start lies after it
      { state with
        start := newDate
        end_ := if newDate > state.end_ then clock.hourAfter newDate else state.end_ }
  | .end_ newDate => { state with end_ := newDate }

def State.done (state : State) (event : Event) : Option Event :=
  if state.title = some "" then none
  else some (event.edit
    { title := state.title, location := state.location, start := some state.start, end_ := some state.end_,
      notes := state.notes, allday := none })

theorem done_cases {state : State} {event handed : Event} (done : state.done event = some handed) :
    state.title ≠ some "" ∧ handed = event.edit
      { title := state.title, location := state.location, start := some state.start, end_ := some state.end_,
        notes := state.notes, allday := none } := by
  unfold State.done at done
  obtain ⟨titled, same⟩ := Option.ite_none_left_eq_some.mp done
  exact ⟨titled, (Option.some.inj same).symm⟩

end PlenR.Screens.EditEvent
