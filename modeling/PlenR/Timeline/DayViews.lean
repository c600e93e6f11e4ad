import PlenR.Timeline.EventCalendar

/-! Two ways to say that an event is on a day.

`Calendar.getEvents` lists an event on every day from that of its start to that
of its end. A page of the timeline has only the events that start on its day. So
the views differ exactly on the later days of an event.
-/

set_option autoImplicit false

namespace PlenR.Timeline.DayViews

open PlenR.Time PlenR.Util PlenR.Timeline.EventCalendar

theorem mem_getEvents_iff {clock : Clock} {calendar : Calendar} {event : Event}
    (stored : event ∈ calendar.eventsList.toArray) (ordered : event.start ≤ event.end_) (date : ℤ) :
    event ∈ (calendar.getEvents clock date).toArray ↔ Calendar.CoversDay clock date event := by
  rw [Calendar.getEvents, SortedList.toArray_filter, List.mem_filter]
  constructor
  · intro ⟨_, occurs⟩
    exact Calendar.coversDay_of_occursOn ordered occurs
  · intro covers
    exact ⟨stored, Calendar.occursOn_of_coversDay covers⟩

section Page
variable {Stamp : Type} {clock : DayClock} (stamps : StampFormat clock.toClock Stamp) (props : Props) (name : String)

def entryOf (event : Event) : TimelineEvent Stamp where
  start := stamps.format event.start
  end_ := stamps.format event.end_
  title := name
  summary := "something on"

/-- The page of a day, over the entries of a calendar. -/
def page (calendar : Calendar) (index : ℤ) : Except Exception (List (TimelineEvent Stamp)) :=
  (Calendar.parseForTimeline stamps.format (some calendar.eventsList.toArray) name).map fun entries =>
    getItem clock props stamps.parse entries index

/-- The page of a day has the entry of an event exactly if the calendar lists the
event for the moments of that day. -/
def ViewsAgree (calendar : Calendar) (event : Event) (index : ℤ) : Prop :=
  ∃ entries, page stamps props name calendar index = .ok entries ∧
    ∀ date, clock.day.unitOf date = clock.day.unitOf (pageDate clock props index) →
      (entryOf stamps name event ∈ entries ↔ event ∈ (calendar.getEvents clock.toClock date).toArray)

variable {stamps props name} {calendar : Calendar} {event : Event}

theorem mem_getItem_iff {events : List Event} (member : event ∈ events) (index : ℤ) :
    entryOf stamps name event ∈ getItem clock props stamps.parse (events.map (entryOf stamps name)) index ↔
      clock.day.unitOf event.start = clock.day.unitOf (pageDate clock props index) := by
  have present := List.mem_map_of_mem (f := entryOf stamps name) member
  simp only [getItem, List.mem_filter, present, true_and, Bool.and_eq_true, decide_eq_true_eq]
  rw [clock.day.within_iff, entryOf, stamps.day_parse]

end Page

/-- The views agree about an event exactly on the days that are not later days of it. -/
theorem viewsAgree_iff_not_laterDay {Stamp : Type} {clock : DayClock} (stamps : StampFormat clock.toClock Stamp)
    (props : Props) (name : String) (calendar : Calendar) (event : Event)
    (stored : event ∈ calendar.eventsList.toArray) (ordered : event.start ≤ event.end_) (index : ℤ) :
    ViewsAgree stamps props name calendar event index ↔
      ¬ (clock.day.unitOf event.start < clock.day.unitOf (pageDate clock props index) ∧
        clock.day.unitOf (pageDate clock props index) ≤ clock.day.unitOf event.end_) := by
  have read : page stamps props name calendar index = .ok (getItem clock props stamps.parse
      (calendar.eventsList.toArray.map (entryOf stamps name)) index) := rfl
  have order := clock.day.unitOf_mono ordered
  unfold ViewsAgree
  rw [read]
  simp only [Except.ok.injEq, exists_eq_left', mem_getItem_iff stored, mem_getEvents_iff stored ordered,
    Calendar.CoversDay]
  constructor
  · intro agree ⟨later, notOver⟩
    have starts := (agree (pageDate clock props index) rfl).mpr ⟨later.le, notOver⟩
    omega
  · intro notLater date onPage
    rw [onPage]
    omega

/-! ## A trip over the end of July -/

def trip : Event := .plain "trip" 1532952000000 1533124800000

def travels : Calendar := Calendar.parse "c1" [trip] "PlenR Calendar"

def julyWeek : Props := opened universalDays 1532908800000 1533427200000 300

theorem trip_on_first_day : ViewsAgree universalStamps julyWeek "Bob" travels trip 0 ↔
    ¬ (universalDays.day.unitOf trip.start < universalDays.day.unitOf (pageDate universalDays julyWeek 0) ∧
      universalDays.day.unitOf (pageDate universalDays julyWeek 0) ≤ universalDays.day.unitOf trip.end_) :=
  viewsAgree_iff_not_laterDay universalStamps julyWeek "Bob" travels trip (by decide) (by decide) 0

/-- On 31 July Bob is travelling, but the page of that day is free. -/
theorem trip_free_on_second_day : ¬ ViewsAgree universalStamps julyWeek "Bob" travels trip 1 := by
  intro ⟨entries, read, agree⟩
  cases read
  have shown := (agree (pageDate universalDays julyWeek 1) rfl).mpr (by decide)
  revert shown
  decide

end PlenR.Timeline.DayViews
