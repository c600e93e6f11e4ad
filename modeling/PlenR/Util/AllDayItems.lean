import PlenR.Util.Calendar

/-! The days a calendar lists an all-day Google item on.

Google names the day after the last one as the end of such an item. The import
turns both days into their first instants, and `getEvents` lists an event on the
day of its end too, so the day after the last one is always among them.
-/

set_option autoImplicit false

namespace PlenR.Util.AllDayItems

open PlenR.Time

/-- An item that takes whole days, from the first one to before the next one. -/
structure AllDay (item : Event.GoogleItem) (first next : ℤ) : Prop where
  start : item.start.bind Event.GoogleTime.date = some first
  end_ : item.end_.bind Event.GoogleTime.date = some next
  order : first < next

/-- The event is listed on the days from the first to before the next one, whatever the moment asked for. -/
def ListedOnItsDays (clock : Clock) (calendar : Calendar) (event : Event) (first next : ℤ) : Prop :=
  ∀ date, event ∈ (calendar.getEvents clock date).toArray ↔
    first ≤ clock.day.unitOf date ∧ clock.day.unitOf date < next

section Listed
variable {clock : Clock} {item : Event.GoogleItem} {event : Event} {first next : ℤ}

/-- Such an item lasts from the first instant of its first day to that of the day it ends before. -/
theorem formatGoogle_allDay (days : AllDay item first next) (formatted : Event.formatGoogle clock item = .ok event) :
    event.start = clock.day.startOf first ∧ event.end_ = clock.day.startOf next := by
  obtain ⟨start, startGiven, startDate⟩ := Option.bind_eq_some_iff.mp days.start
  obtain ⟨end_, endGiven, endDate⟩ := Option.bind_eq_some_iff.mp days.end_
  have made : Event.formatGoogle clock item = .ok (Event.importAdd
      { title := item.summary, location := item.location, start := clock.day.startOf first,
        end_ := clock.day.startOf next, notes := item.description, allday := true,
        recurrence := item.recurrence } item.id) := by
    simp [Event.formatGoogle, Event.GoogleItem.both, startGiven, startDate, endGiven, endDate, bind, Except.bind,
      pure, Except.pure]
  rw [made] at formatted
  cases formatted
  exact ⟨rfl, rfl⟩

theorem startOf_le {lower upper : ℤ} (order : lower ≤ upper) :
    clock.day.startOf lower ≤ clock.day.startOf upper :=
  clock.day.adjoint.monotone_l order

/-- `getEvents` lists the item from its first day up to and including the day of its end. -/
theorem mem_getEvents_allDay_iff (calendar : Calendar) (days : AllDay item first next)
    (formatted : Event.formatGoogle clock item = .ok event) (date : ℤ) :
    event ∈ (calendar.getEvents clock date).toArray ↔
      event ∈ calendar.eventsList.toArray ∧ first ≤ clock.day.unitOf date ∧
        clock.day.unitOf date ≤ clock.day.unitOf (clock.day.startOf next) := by
  obtain ⟨start, end_⟩ := formatGoogle_allDay days formatted
  have ordered : event.start ≤ event.end_ := by
    rw [start, end_]
    exact startOf_le days.order.le
  have lower : clock.day.unitOf event.start ≤ clock.day.unitOf date ↔ first ≤ clock.day.unitOf date := by
    rw [start]
    constructor
    · intro later
      have reached := (clock.day.startOf_le_iff first (clock.day.startOf first)).mp le_rfl
      exact reached.trans later
    · intro reached
      exact clock.day.unitOf_mono ((clock.day.startOf_le_iff first date).mpr reached)
  have occurs : Calendar.occursOn clock date event = true ↔
      first ≤ clock.day.unitOf date ∧ clock.day.unitOf date ≤ clock.day.unitOf (clock.day.startOf next) := by
    rw [← lower, ← end_]
    exact ⟨Calendar.coversDay_of_occursOn ordered, Calendar.occursOn_of_coversDay⟩
  rw [Calendar.getEvents, SortedList.toArray_filter, List.mem_filter, occurs]

end Listed

/-- No calendar lists an all-day item on its days alone: it lists it on the day of its end too. -/
theorem allDay_not_listedOnItsDays (clock : Clock) (calendar : Calendar) (item : Event.GoogleItem) (event : Event)
    (first next : ℤ) (days : AllDay item first next) (formatted : Event.formatGoogle clock item = .ok event)
    (held : event ∈ calendar.eventsList.toArray) : ¬ ListedOnItsDays clock calendar event first next := by
  intro listed
  have ends := (clock.day.startOf_le_iff next (clock.day.startOf next)).mp le_rfl
  -- asked for at the first instant of the day it ends before
  have member := (mem_getEvents_allDay_iff calendar days formatted (clock.day.startOf next)).mpr
    ⟨held, days.order.le.trans ends, le_rfl⟩
  have before := ((listed (clock.day.startOf next)).mp member).2
  exact absurd before (not_lt.mpr ends)

def holiday : Event.GoogleItem where
  id := "holiday"
  summary := some "Holiday"
  location := none
  description := none
  start := some ⟨some 17742, none⟩
  end_ := some ⟨some 17743, none⟩
  recurrence := none

def holidayEvent : Event where
  title := some "Holiday"
  location := none
  start := 17742 * 1440 * 60000
  end_ := 17743 * 1440 * 60000
  notes := none
  allday := true
  isImported := true
  id := "holiday"
  recurrence := none

def holidays : Calendar := (Calendar.new "c" "Holidays").addEvent holidayEvent

theorem allDay_not_listedOnItsDays_holiday : ¬ ListedOnItsDays universalClock holidays holidayEvent 17742 17743 :=
  allDay_not_listedOnItsDays universalClock holidays holiday holidayEvent 17742 17743
    ⟨rfl, rfl, by decide⟩ rfl (by decide)

/-- The holiday is listed on 31 July. -/
theorem holiday_listed_on_next_day :
    ¬ ∀ (item : Event.GoogleItem) (event : Event) (first next : ℤ), AllDay item first next →
      Event.formatGoogle universalClock item = .ok event →
      ListedOnItsDays universalClock ((Calendar.new "c" "Holidays").addEvent event) event first next := by
  intro listed
  have onNextDay := listed holiday holidayEvent 17742 17743 ⟨rfl, rfl, by decide⟩ rfl (17743 * 86400000)
  revert onNextDay
  decide

end PlenR.Util.AllDayItems
