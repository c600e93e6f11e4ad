import PlenR.Foundation.Run
import PlenR.Screens.AddEvent

/-! The order of start and end in the two forms.

The picker of the start leaves no form with its end before its start: `AddEvent`
moves the end with every new start, `EditEvent` when it has to. The picker of the
end takes any date. So the event a form hands over ends before it starts exactly
if such an end is picked.
-/

set_option autoImplicit false

namespace PlenR.Screens.DatePickers

open PlenR.Time PlenR.Util Foundation.Run

def InOrder (handed : Option Event) : Prop := ∀ event ∈ handed, event.start ≤ event.end_

/-- An end is picked that does not lie before the start of the form. -/
def PicksInOrder (start : ℤ) : EditEvent.Change → Prop
  | .end_ newDate => start ≤ newDate
  | _ => True

section Add
variable (clock : WallClock)

def addStep (form : AddEvent.State) (change : EditEvent.Change) : Option AddEvent.State :=
  some (form.change clock.toClock change)

/-- Whatever title is typed last, `done` hands over an event that ends after it starts. -/
def AddsInOrder (form : AddEvent.State) : Prop :=
  ∀ freshId title, InOrder ({ form with title := title }.handed freshId)

variable {clock}

theorem addsInOrder_iff (form : AddEvent.State) : AddsInOrder form ↔ form.start ≤ form.end_ := by
  constructor
  · intro ordered
    exact ordered "" "untitled" _ rfl
  · intro ordered freshId title event handed
    obtain ⟨_, same⟩ := Option.ite_none_left_eq_some.mp handed
    cases same
    exact ordered

theorem addsInOrder_initial (today : ℤ) (props : AddEvent.Prefill) : AddsInOrder (.initial clock today props) :=
  (addsInOrder_iff _).mpr (clock.newDate_le_succ _ _ _ _ _)

theorem addStep_inOrder_iff {form next : AddEvent.State} {change : EditEvent.Change} (ordered : AddsInOrder form)
    (moved : addStep clock form change = some next) : AddsInOrder next ↔ PicksInOrder form.start change := by
  rw [addsInOrder_iff] at ordered ⊢
  cases moved
  cases change with
  | title text => exact iff_of_true ordered trivial
  | location text => exact iff_of_true ordered trivial
  | notes text => exact iff_of_true ordered trivial
  | start newDate => exact iff_of_true (clock.le_hourAfter newDate) trivial
  | end_ newDate => exact Iff.rfl

end Add

section Edit
variable (clock : WallClock)

def editStep (form : EditEvent.State) (change : EditEvent.Change) : Option EditEvent.State :=
  some (form.change clock.toClock change)

def EditsInOrder (event : Event) (form : EditEvent.State) : Prop :=
  ∀ title, InOrder ({ form with title := some title }.done event)

variable {clock} {event : Event}

theorem editsInOrder_iff (form : EditEvent.State) : EditsInOrder event form ↔ form.start ≤ form.end_ := by
  constructor
  · intro ordered
    exact ordered "untitled" _ rfl
  · intro ordered title edited done
    obtain ⟨_, rfl⟩ := EditEvent.done_cases done
    exact ordered

theorem editStep_inOrder_iff {form next : EditEvent.State} {change : EditEvent.Change}
    (ordered : EditsInOrder event form) (moved : editStep clock form change = some next) :
    EditsInOrder event next ↔ PicksInOrder form.start change := by
  rw [editsInOrder_iff] at ordered ⊢
  cases moved
  cases change with
  | title text => exact iff_of_true ordered trivial
  | location text => exact iff_of_true ordered trivial
  | notes text => exact iff_of_true ordered trivial
  | start newDate =>
    refine iff_of_true ?_ trivial
    simp only [EditEvent.State.change]
    split
    next passed => exact clock.le_hourAfter newDate
    next before => exact not_lt.mp before
  | end_ newDate => exact Iff.rfl

end Edit

/-- From every day and hour in `AddEvent`, and from every event that ends after it starts
in `EditEvent`, each form hands over such an event after every run of changes exactly if
no end is picked before the start the form has then. -/
theorem handed_inOrder_iff (clock : WallClock) (today : ℤ) (props : AddEvent.Prefill) (event : Event)
    (ordered : event.start ≤ event.end_) (addChanges editChanges : List EditEvent.Change) :
    (Always (addStep clock) AddsInOrder (.initial clock today props) addChanges ↔
        Guarded (addStep clock) (fun form => PicksInOrder form.start) (.initial clock today props) addChanges) ∧
      (Always (editStep clock) (EditsInOrder event) (.initial event) editChanges ↔
        Guarded (editStep clock) (fun form => PicksInOrder form.start) (.initial event) editChanges) := by
  constructor
  · apply always_iff_guarded_of_lawful
    case decided => exact fun form change next holds moved => addStep_inOrder_iff holds moved
    case lawful => exact addsInOrder_initial today props
  · apply always_iff_guarded_of_lawful
    case decided => exact fun form change next holds moved => editStep_inOrder_iff holds moved
    case lawful => exact (editsInOrder_iff _).mpr ordered

-- 18 July 2018, a quarter past twelve, and a form opened for this day
def noon : ℤ := 1531916100000

def lunchForm : AddEvent.Prefill where
  title := some "Lunch"
  location := none
  notes := none
  year_selected := 2018
  month_selected := 6
  day_selected := 18

theorem handed_inOrder_iff_lunch :
    (Always (addStep universalWall) AddsInOrder (.initial universalWall noon lunchForm) [.end_ 1531918800000] ↔
        Guarded (addStep universalWall) (fun form => PicksInOrder form.start) (.initial universalWall noon lunchForm)
          [.end_ 1531918800000]) ∧
      (Always (editStep universalWall) (EditsInOrder (.plain "lunch" 12 13)) (.initial (.plain "lunch" 12 13)) [.start 14] ↔
        Guarded (editStep universalWall) (fun form => PicksInOrder form.start) (.initial (.plain "lunch" 12 13))
          [.start 14]) :=
  handed_inOrder_iff universalWall noon lunchForm (.plain "lunch" 12 13) (by decide) _ _

/-- Lunch starts at twelve, and eleven is picked for its end. -/
theorem lunch_ends_before_it_starts :
    ¬ Always (addStep universalWall) AddsInOrder (.initial universalWall noon lunchForm) [.end_ 1531911600000] := by
  intro always
  have order := (always.2 _ rfl).start "lunch" "Lunch" _ rfl
  revert order
  decide

end PlenR.Screens.DatePickers
