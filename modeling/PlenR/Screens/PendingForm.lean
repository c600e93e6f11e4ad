import PlenR.Screens.AddEvent
import PlenR.Screens.PendingEventDetails
import PlenR.Timeline.EventCalendar

/-! The form that `PendingEventDetails` opens for a pending event.

The constructor of the screen takes the day of the form from the property
`start`. `PendingEvents` passes the event and not its start, and a moment of a
missing value is the present one. Neither the pages of the timeline nor the
callbacks of the screen change that day, so the form starts in the week of the
event exactly if the screen was opened in this week.
-/

set_option autoImplicit false

namespace PlenR.Screens.PendingForm

open PlenR.Time PlenR.Util PlenR.Timeline Foundation.Run

def moment (now : ℤ) (value : Option ℤ) : ℤ := value.getD now

structure Props where
  event : PendingEvent
  start : Option ℤ

/-- The properties `PendingEvents` passes when an event of its list is pressed. -/
def passProps (event : PendingEvent) : Props where
  event := event
  start := none

structure State (Stamp : Type) where
  day_selected : ℤ
  calendar : EventCalendar.State
  schedules : PendingEventDetails.Screen Stamp

inductive Action where
  | timeline (action : EventCalendar.Action)
  | callback (action : PendingEventDetails.Action)

section Screen
variable {Stamp : Type} (format : ℤ → Stamp) (clock : WallClock) (width : ℚ) (props : Props)

def timeline : EventCalendar.Props := EventCalendar.opened clock.toDayClock props.event.start props.event.end_ width

def State.initial (Stamp : Type) (now : ℤ) : State Stamp where
  day_selected := moment now props.start
  calendar := .initial (timeline clock width props)
  schedules := .initial Stamp

def step (state : State Stamp) : Action → Option (State Stamp)
  | .timeline action =>
      (EventCalendar.step clock.toDayClock (timeline clock width props) state.calendar action).map fun calendar =>
        { state with calendar := calendar }
  | .callback action =>
      (PendingEventDetails.step format clock.toClock props.event.inviteesAdded state.schedules action).map
        fun schedules => { state with schedules := schedules }

def State.prefill (state : State Stamp) : AddEvent.Prefill where
  title := some props.event.title
  location := some props.event.location
  notes := some props.event.notes
  year_selected := clock.yearOf state.day_selected
  month_selected := clock.monthOf state.day_selected
  day_selected := clock.dateOf state.day_selected

def State.form (today : ℤ) (state : State Stamp) : AddEvent.State := .initial clock today (state.prefill clock props)

/-- Whenever `create` is pressed, the form starts on a day of the event. -/
def OpensInWeek (state : State Stamp) : Prop :=
  ∀ today, clock.day.unitOf props.event.start ≤ clock.day.unitOf (state.form clock props today).start ∧
    clock.day.unitOf (state.form clock props today).start ≤ clock.day.unitOf props.event.end_

end Screen

section Week
variable {Stamp : Type} {format : ℤ → Stamp} {clock : WallClock} {width : ℚ} {props : Props}

theorem day_form_start {state : State Stamp} (fullYear : 100 ≤ clock.yearOf state.day_selected) (today : ℤ) :
    clock.day.unitOf (state.form clock props today).start = clock.day.unitOf state.day_selected :=
  clock.day_newDate_of_fields fullYear (clock.hours_range today)

theorem opensInWeek_iff {state : State Stamp} (fullYear : 100 ≤ clock.yearOf state.day_selected) :
    OpensInWeek clock props state ↔ clock.day.unitOf props.event.start ≤ clock.day.unitOf state.day_selected ∧
      clock.day.unitOf state.day_selected ≤ clock.day.unitOf props.event.end_ := by
  unfold OpensInWeek
  simp only [day_form_start fullYear, forall_const]

theorem step_day_selected {state next : State Stamp} {action : Action}
    (moved : step format clock width props state action = some next) : next.day_selected = state.day_selected := by
  cases action with
  | timeline action =>
    obtain ⟨calendar, _, rfl⟩ := Option.map_eq_some_iff.mp moved
    rfl
  | callback action =>
    obtain ⟨schedules, _, rfl⟩ := Option.map_eq_some_iff.mp moved
    rfl

end Week

/-- Whatever pages of the timeline are visited, the form opened for a pending event
starts on a day of the event exactly if the screen was opened on such a day. -/
theorem opensInWeek_iff_opened_in_week {Stamp : Type} (format : ℤ → Stamp) (clock : WallClock) (event : PendingEvent)
    (width : ℚ) (now : Present clock.toClock) (actions : List Action) :
    Always (step format clock width (passProps event)) (OpensInWeek clock (passProps event))
        (.initial clock width (passProps event) Stamp now.time) actions ↔
      clock.day.unitOf event.start ≤ clock.day.unitOf now.time ∧
        clock.day.unitOf now.time ≤ clock.day.unitOf event.end_ := by
  constructor
  · intro always
    exact (opensInWeek_iff now.fullYear).mp always.start
  · intro inWeek
    have unchanged : Always (step format clock width (passProps event)) (fun state => state.day_selected = now.time)
        (.initial clock width (passProps event) Stamp now.time) actions :=
      always_of_step (fun _ _ _ same moved => (step_day_selected moved).trans same) actions rfl
    apply unchanged.mono
    intro state same
    rw [opensInWeek_iff (same ▸ now.fullYear), same]
    exact inWeek

-- the week from 30 July 2018, and half past twelve on 18 July
def lastOfJuly : PendingEvent where
  id := "picnic"
  title := "Picnic"
  start := 1532908800000
  end_ := 1533427200000
  location := ""
  notes := ""
  inviteesAdded := []

def middleOfJuly : Present universalClock where
  time := 1531917240000
  fullYear := by decide

/-- Opened on 18 July, the form for the week from 30 July starts on 18 July. -/
theorem picnic_starts_today :
    ¬ Always (step id universalWall 300 (passProps lastOfJuly)) (OpensInWeek universalWall (passProps lastOfJuly))
      (.initial universalWall 300 (passProps lastOfJuly) ℤ middleOfJuly.time) [.timeline (.tap 2)] := by
  intro always
  have opened := (always.start middleOfJuly.time).1
  revert opened
  decide

end PlenR.Screens.PendingForm
