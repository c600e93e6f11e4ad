import PlenR.Foundation.OrderedView
import PlenR.Foundation.Run
import PlenR.Util.Calendar

/-! A calendar as a start-ordered view of a map from ids to events.

The map is what a calendar is for: the event last added under each id and not
deleted since. `SortedList.add` decides by one pass from the front, replacing
the first equal id it meets or stopping before the first later start, so an
event that is added again keeps the view exactly if its new start does not move
it past a stored neighbour.
-/

set_option autoImplicit false

namespace PlenR.Util.CalendarView

open Foundation Foundation.Run

inductive Change where
  | addEvent (event : Event)
  | deleteEvent (event : Event)
  deriving DecidableEq, Repr

structure State where
  calendar : Calendar
  latest : String → Option Event

def start (freshId title : String) : State where
  calendar := .new freshId title
  latest := fun _ => none

def step (state : State) : Change → Option State
  | .addEvent event => some
      { calendar := state.calendar.addEvent event
        latest := Function.update state.latest event.id (some event) }
  | .deleteEvent event => some
      { calendar := state.calendar.deleteEvent event
        latest := Function.update state.latest event.id none }

/-- The listed events are ordered by start, have no id twice and are exactly the latest ones. -/
def Shows (state : State) : Prop :=
  OrderedView Event.id Event.start state.latest state.calendar.eventsList.toArray

def Fits (event : Event) (events : List Event) : Prop :=
  ∀ before stored after, events = before ++ stored :: after → stored.id = event.id →
    (∀ other ∈ before, other.start ≤ event.start) ∧ (∀ other ∈ after, event.start ≤ other.start)

/-- Adding again must not move an event past a stored neighbour; deleting is always fine. -/
def KeepsPlace (state : State) : Change → Prop
  | .addEvent event => Fits event state.calendar.eventsList.toArray
  | .deleteEvent _ => True

section Step
variable {latest : String → Option Event} {events placed : List Event} {event : Event}

theorem absent_of_below {before : List Event}
    (below : ∀ head ∈ before, Event.eventComparator head event < 0) :
    ∀ head ∈ before, head.id ≠ event.id :=
  fun head member => ((Event.eventComparator_neg head event).mp (below head member)).1

theorem start_le_of_below {before : List Event}
    (below : ∀ head ∈ before, Event.eventComparator head event < 0) :
    ∀ head ∈ before, head.start ≤ event.start :=
  fun head member => ((Event.eventComparator_neg head event).mp (below head member)).2

theorem absent_of_fits {before after : List Event} {head : Event}
    (below : ∀ elem ∈ before, Event.eventComparator elem event < 0)
    (above : 0 < Event.eventComparator head event) (fits : Fits event (before ++ head :: after)) :
    ∀ elem ∈ before ++ head :: after, elem.id ≠ event.id := by
  obtain ⟨different, later⟩ := (Event.eventComparator_pos head event).mp above
  intro elem member same
  rcases List.mem_append.mp member with inside | inside
  · exact absent_of_below below elem inside same
  · rcases List.mem_cons.mp inside with rfl | inside
    · exact different same
    -- a copy behind the later event would have to start after it, and the event with it
    · obtain ⟨middle, rest, rfl⟩ := List.append_of_mem inside
      have order := (fits (before ++ head :: middle) elem rest (by simp) same).1 head (by simp)
      omega

theorem shows_placed_iff (view : OrderedView Event.id Event.start latest events)
    (placement : SortedList.Placement Event.eventComparator event events placed) :
    OrderedView Event.id Event.start (Function.update latest event.id (some event)) placed ↔
      Fits event events := by
  cases placement with
  | atEnd below =>
    have absent := absent_of_below below
    constructor
    · rintro _ before stored after rfl same
      exact absurd same (absent stored (by simp))
    · intro _
      rw [← List.append_nil events] at view absent
      exact view.insert absent (start_le_of_below below) (List.forall_mem_nil _)
  | @replacing before after head below equal =>
    have same := (Event.eventComparator_eq_zero head event).mp equal
    constructor
    · intro shown first stored rest split named
      obtain ⟨rfl, _, rfl⟩ := view.split_unique split (named.trans same.symm)
      exact (pairwise_insert_iff.mp shown.ordered).2
    · intro fits
      obtain ⟨lower, upper⟩ := fits before head after rfl same
      exact view.replace same lower upper
  | @inserted before after head below above =>
    obtain ⟨different, later⟩ := (Event.eventComparator_pos head event).mp above
    constructor
    · rintro shown first stored rest split named
      refine absurd named (shown.key_ne_of_split stored ?_)
      rw [split]
      simp
    · intro fits
      refine view.insert (absent_of_fits below above fits) (start_le_of_below below) ?_
      have ordered := (List.pairwise_cons.mp (List.pairwise_append.mp view.ordered).2.1).1
      rw [List.forall_mem_cons]
      exact ⟨later.le, fun elem member => later.le.trans (ordered elem member)⟩

theorem shows_deleted (view : OrderedView Event.id Event.start latest events) :
    OrderedView Event.id Event.start (Function.update latest event.id none)
      (events.eraseP fun head => Event.eventComparator head event = 0) := by
  by_cases stored : ∃ elem ∈ events, elem.id = event.id
  · obtain ⟨elem, member, same⟩ := stored
    obtain ⟨found, before, after, _, equal, rfl, erased⟩ :=
      List.exists_of_eraseP (p := fun head => Event.eventComparator head event = 0) member (by simpa using same)
    have named : found.id = event.id := by simpa using equal
    rw [erased, ← named]
    exact view.erase
  · have absent : ∀ elem ∈ events, elem.id ≠ event.id :=
      fun elem member same => stored ⟨elem, member, same⟩
    rw [List.eraseP_of_forall_not (by simpa using absent)]
    exact view.erase_absent event.id absent

theorem step_shows_iff (state next : State) (change : Change) (shown : Shows state)
    (moved : step state change = some next) : Shows next ↔ KeepsPlace state change := by
  cases change with
  | addEvent event =>
    cases moved
    exact shows_placed_iff shown (Calendar.addEvent_placement state.calendar event)
  | deleteEvent event =>
    cases moved
    refine iff_of_true ?_ trivial
    unfold Shows
    rw [Calendar.deleteEvent_eventsList, SortedList.toArray_delete]
    exact shows_deleted shown

end Step

/-- From an empty calendar, every state of a run of additions and deletions shows
the latest events in order of start exactly if no addition moves a stored event
past one of its neighbours. -/
theorem shows_latest_iff_keepsPlace (freshId title : String) (changes : List Change) :
    Always step Shows (start freshId title) changes ↔
      Guarded step KeepsPlace (start freshId title) changes :=
  always_iff_guarded_of_lawful (fun state change next shown moved => step_shows_iff state next change shown moved)
    OrderedView.empty

/-- Dinner, moved from after the meeting to before it, is listed twice, and one
deletion leaves the old copy. -/
theorem moved_event_survives_deletion :
    ¬ Always step Shows (start "c" "Main Calendar")
        [.addEvent (.plain "meeting" 10 11), .addEvent (.plain "dinner" 20 21),
         .addEvent (.plain "dinner" 5 6), .deleteEvent (.plain "dinner" 5 6)] := by
  intro always
  have shown := ((((always.2 _ rfl).2 _ rfl).2 _ rfl).2 _ rfl)
  have gone := (shown.absent_iff "dinner").mp (by rfl)
  exact gone (Event.plain "dinner" 20 21) (by decide) rfl

end PlenR.Util.CalendarView
