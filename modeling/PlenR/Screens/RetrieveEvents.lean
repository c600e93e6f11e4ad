import PlenR.Foundation.Merging
import PlenR.Screens.DayAgenda
import PlenR.Screens.Deliveries

/-! What the agenda of a day lists, and in which order.

`retrieveEvents` folds `merge` over the calendars. The merge loses nothing, so
the agenda is the union of what the calendars list. Its comparator answers 0 for
two events of one id, whatever their starts, and a merge puts the event of its
first list before the other on 0. So an event that stands in two calendars with
different starts may be listed out of order, and this is the only way.
-/

set_option autoImplicit false

namespace PlenR.Screens.MyPlenR

open PlenR.Time PlenR.Util Foundation.Merging PlenR.Screens.Deliveries

/-! ## The listed events -/

def EndsOn (clock : Clock) (date : ℤ) (event : Event) : Prop :=
  clock.day.unitOf event.start = clock.day.unitOf date ∨ clock.day.unitOf event.end_ = clock.day.unitOf date

instance (clock : Clock) (date : ℤ) (event : Event) : Decidable (EndsOn clock date event) :=
  inferInstanceAs (Decidable (_ ∨ _))

/-- The events of a day: those that last over it, and of the events that end
before they start those that start or end on it. -/
def Listed (clock : Clock) (date : ℤ) (event : Event) : Prop :=
  if event.start ≤ event.end_ then Calendar.CoversDay clock date event else EndsOn clock date event

instance (clock : Clock) (date : ℤ) (event : Event) : Decidable (Listed clock date event) :=
  inferInstanceAs
    (Decidable (if event.start ≤ event.end_ then Calendar.CoversDay clock date event else EndsOn clock date event))

section Listed
variable {clock : Clock} {date : ℤ}

theorem occursOn_iff_listed (event : Event) : Calendar.occursOn clock date event = true ↔ Listed clock date event := by
  unfold Listed
  split
  next ordered => exact ⟨Calendar.coversDay_of_occursOn ordered, Calendar.occursOn_of_coversDay⟩
  next reversed =>
    -- no minute lies between a start and an earlier end
    have minutes := clock.minute.unitOf_mono (not_le.mp reversed).le
    simp only [Calendar.occursOn, Bool.or_eq_true, isSame_iff, isBetween_iff, EndsOn]
    constructor
    · intro occurs
      obtain (first | between) | last := occurs
      · exact .inl first
      · exact absurd (between.1.trans_lt between.2) minutes.not_gt
      · exact .inr last
    · exact Or.imp_left .inl

theorem listed_congr {other : ℤ} (sameDay : clock.day.unitOf other = clock.day.unitOf date) (event : Event) :
    Listed clock other event ↔ Listed clock date event := by
  unfold Listed Calendar.CoversDay EndsOn
  rw [sameDay]

theorem occursOn_congr {other : ℤ} (sameDay : clock.day.unitOf other = clock.day.unitOf date) :
    Calendar.occursOn clock other = Calendar.occursOn clock date := by
  funext event
  rw [Bool.eq_iff_iff, occursOn_iff_listed, occursOn_iff_listed, listed_congr sameDay]

theorem toArray_getEvents (calendar : Calendar) :
    (calendar.getEvents clock date).toArray =
      calendar.eventsList.toArray.filter fun event => Listed clock date event := by
  unfold Calendar.getEvents
  rw [SortedList.toArray_filter]
  apply List.filter_congr
  intro event _
  rw [Bool.eq_iff_iff, occursOn_iff_listed, decide_eq_true_iff]

end Listed

/-- The agenda lists the events of the day, of every calendar and each as often as
there, and it does not depend on the time of day. -/
theorem retrieveEvents_union (clock : Clock) (state : State) (date : ℤ) :
    (state.retrieveEvents clock date).toArray.Perm
        (state.local_calendars.flatMap fun calendar =>
          calendar.eventsList.toArray.filter fun event => Listed clock date event) ∧
      ∀ other, clock.day.unitOf other = clock.day.unitOf date →
        state.retrieveEvents clock other = state.retrieveEvents clock date := by
  constructor
  · have union : (state.retrieveEvents clock date).toArray.Perm _ := retrieveEvents_perm state date
    simpa only [toArray_getEvents] using union
  · intro other sameDay
    unfold State.retrieveEvents Calendar.getEvents
    rw [occursOn_congr sameDay]

def agendaOf (deliveries : List Delivery) : State :=
  { State.initial universalClock 0 with local_calendars := deliveries.map Delivery.entry }

def singleDelivery (calendar : String) (event : Event) : Delivery where
  calendar := calendar
  title := none
  docs := [event]
  freshId := calendar
  unique := List.nodup_singleton _

/-- An event from twelve to eleven is listed, though it starts after its end. -/
theorem reversed_event_listed :
    ¬ ∀ (state : State) (date : ℤ), (state.retrieveEvents universalClock date).toArray.Perm
      (state.local_calendars.flatMap fun calendar => calendar.eventsList.toArray.filter fun event =>
        event.start ≤ event.end_ ∧ Calendar.CoversDay universalClock date event) := by
  intro union
  have listed := (union (agendaOf [singleDelivery "Main Calendar" (.plain "lunch" 43200000 39600000)]) 0).length_eq
  revert listed
  decide

/-! ## The order of the agenda -/

section Order
variable {clock : Clock} {date : ℤ}

def mergesFirst (first second : Event) : Bool := Event.eventComparator first second ≤ 0

theorem mergesFirst_of_start_le (first second : Event) (order : first.start ≤ second.start) :
    mergesFirst first second = true := by
  unfold mergesFirst
  rw [decide_eq_true_iff, ← not_lt, Event.eventComparator_pos]
  exact fun after => order.not_gt after.2

theorem mergesFirst_eq_false_iff {first second : Event} (later : second.start < first.start) :
    mergesFirst first second = false ↔ first.id ≠ second.id := by
  unfold mergesFirst
  rw [decide_eq_false_iff_not, not_le, Event.eventComparator_pos]
  exact and_iff_left later

theorem toArray_foldl_merge (calendars : List Calendar) (retrieved : SortedList Event) :
    (calendars.foldl (fun retrieved calendar =>
        SortedList.merge Event.eventComparator retrieved (calendar.getEvents clock date)) retrieved).toArray =
      (calendars.map fun calendar => (calendar.getEvents clock date).toArray).foldl
        (fun merged day => merged.merge day mergesFirst) retrieved.toArray := by
  induction calendars generalizing retrieved with
  | nil => rfl
  | cons calendar calendars ih =>
    rw [List.map_cons, List.foldl_cons, List.foldl_cons, ih, SortedList.toArray_merge]
    rfl

def days (clock : Clock) (date : ℤ) (deliveries : List Delivery) : List (List Event) :=
  deliveries.map fun delivery => (delivery.entry.getEvents clock date).toArray

theorem ordered_of_mem_days {deliveries : List Delivery} {day : List Event}
    (member : day ∈ days clock date deliveries) : Ordered Event.start day := by
  obtain ⟨delivery, _, rfl⟩ := List.mem_map.mp member
  have sorted := Calendar.parse_stableSort delivery.freshId delivery.docs delivery.calendar delivery.unique
  have filtered := sorted.ordered.sublist (List.filter_sublist (p := Calendar.occursOn clock date))
  rw [← SortedList.toArray_filter] at filtered
  exact filtered

/-- No event of a calendar has the id of the event that the calendars before it list
first after its start. -/
def NextIsOther (days : List (List Event)) : Prop :=
  ∀ earlier day later, days = earlier ++ day :: later →
    ∀ event ∈ day, ∀ next ∈ firstAboveAll Event.start event.start earlier, next.id ≠ event.id

theorem inTurn_iff (earlier : List (List Event)) (day : List Event) :
    InTurn Event.start mergesFirst earlier day ↔
      ∀ event ∈ day, ∀ next ∈ firstAboveAll Event.start event.start earlier, next.id ≠ event.id := by
  apply forall₂_congr
  intro event _
  apply forall₂_congr
  intro next found
  exact mergesFirst_eq_false_iff (rank_lt_of_firstAboveAll found)

end Order

/-- The agenda of calendars that snapshots have filled is in order of start exactly if
no event has the id of the next event of the calendars before its own. -/
theorem retrieveEvents_ordered_iff (clock : Clock) (state : State) (deliveries : List Delivery) (date : ℤ) :
    (({ state with local_calendars := deliveries.map Delivery.entry }).retrieveEvents clock date).toArray.Pairwise
        (fun first second : Event => first.start ≤ second.start) ↔
      NextIsOther (days clock date deliveries) := by
  have merged : (({ state with local_calendars := deliveries.map Delivery.entry }).retrieveEvents clock date).toArray =
      mergeAll mergesFirst (days clock date deliveries) := by
    unfold State.retrieveEvents
    rw [toArray_foldl_merge, List.map_map]
    rfl
  rw [merged]
  apply (mergeAll_ordered_iff mergesFirst_of_start_le fun day member => ordered_of_mem_days member).trans
  unfold NextIsOther
  simp only [inTurn_iff]

/-- One event, stored at eight in the evening in one calendar and at ten in the morning
in the next, is listed in this order. -/
theorem shared_event_out_of_order :
    ¬ ∀ (deliveries : List Delivery) (date : ℤ),
      ((agendaOf deliveries).retrieveEvents universalClock date).toArray.Pairwise
        (fun first second : Event => first.start ≤ second.start) := by
  intro ordered
  have evening := ordered [singleDelivery "Old" (.plain "call" 72000000 75600000),
    singleDelivery "New" (.plain "call" 36000000 39600000)] 0
  revert evening
  decide

end PlenR.Screens.MyPlenR
