import Mathlib.Data.List.Perm.Subperm
import PlenR.Util.Calendar

/-! Adding a list of events at once, against adding them one after another.

`addEvents` starts every turn from the list of the receiver, so its result is
that of the last turn alone: the receiver with the last event added, or an empty
calendar when there was no turn.
-/

set_option autoImplicit false

namespace PlenR.Util.Calendar

/-- The result of a batch is that of adding its events one by one, and every event
stored before and every event of the batch has a place of its own in it. -/
structure AddsAll (calendar : Calendar) (events : List Event) (result : Calendar) : Prop where
  listed : result.eventsList.toArray = (events.foldl addEvent calendar).eventsList.toArray
  id : result.id = (events.foldl addEvent calendar).id
  title : result.title = (events.foldl addEvent calendar).title
  kept : (calendar.eventsList.toArray ++ events).Subperm result.eventsList.toArray

@[simp] theorem addEvents_nil (calendar : Calendar) : (calendar.addEvents []).eventsList = .empty := rfl

/-- Only the last turn counts. -/
theorem addEvents_concat (calendar : Calendar) (events : List Event) (event : Event) :
    (calendar.addEvents (events ++ [event])).eventsList = (calendar.addEvent event).eventsList := by
  rw [addEvents, List.foldl_append]
  rfl

theorem addEvents_singleton (calendar : Calendar) (event : Event) :
    calendar.addEvents [event] = calendar.addEvent event := rfl

theorem addEvents_id (calendar : Calendar) (events : List Event) :
    (calendar.addEvents events).id = (events.foldl addEvent calendar).id := by
  rw [foldl_keeps Calendar.id addEvent_id]
  apply foldl_keeps Calendar.id
  intro newCalendar event
  rfl

theorem addEvents_title (calendar : Calendar) (events : List Event) :
    (calendar.addEvents events).title = (events.foldl addEvent calendar).title := by
  rw [foldl_keeps Calendar.title addEvent_title]
  apply foldl_keeps Calendar.title
  intro newCalendar event
  rfl

theorem addsAll_nil_iff (calendar : Calendar) :
    AddsAll calendar [] (calendar.addEvents []) ↔ calendar.eventsList.toArray = [] := by
  constructor
  · intro all
    have length := all.kept.length_le
    simp only [addEvents_nil, SortedList.toArray_empty, List.append_nil, List.length_nil] at length
    exact List.length_eq_zero_iff.mp (Nat.le_zero.mp length)
  · intro none_stored
    constructor
    case listed => exact none_stored.symm
    case id => rfl
    case title => rfl
    case kept => simp [none_stored]

theorem addsAll_singleton_iff (calendar : Calendar) (event : Event) :
    AddsAll calendar [event] (calendar.addEvents [event]) ↔
      SortedList.replaces Event.eventComparator event calendar.eventsList.toArray = false := by
  have placement := addEvent_placement calendar event
  rw [addEvents_singleton]
  constructor
  · intro all
    have length := all.kept.length_le
    rw [placement.length_eq, List.length_append, List.length_singleton] at length
    cases replaced : SortedList.replaces Event.eventComparator event calendar.eventsList.toArray with
    | false => rfl
    | true =>
      rw [replaced, if_pos rfl] at length
      omega
  · intro besides
    constructor
    case listed => rfl
    case id => rfl
    case title => rfl
    case kept =>
      have listed := placement.perm_cons_of_not_replaces besides
      exact ((List.perm_append_singleton event _).trans listed.symm).subperm

theorem length_le_of_addsAll {calendar : Calendar} {events : List Event}
    (all : AddsAll calendar events (calendar.addEvents events)) : events.length ≤ 1 := by
  obtain rfl | ⟨initial, event, rfl⟩ := events.eq_nil_or_concat
  · exact Nat.zero_le 1
  · have length := all.kept.length_le
    rw [List.concat_eq_append, addEvents_concat, (addEvent_placement calendar event).length_eq, List.length_append] at length
    rw [List.concat_eq_append]
    split at length
    · omega
    · omega

/-- `addEvents` adds all exactly if it has no event to add to no event, or one event
that takes the place of none. -/
theorem addEvents_addsAll_iff (calendar : Calendar) (events : List Event) :
    AddsAll calendar events (calendar.addEvents events) ↔
      (events = [] ∧ calendar.eventsList.toArray = []) ∨
        ∃ event, events = [event] ∧
          SortedList.replaces Event.eventComparator event calendar.eventsList.toArray = false := by
  constructor
  · intro all
    have atMost := length_le_of_addsAll all
    cases events with
    | nil => exact .inl ⟨rfl, (addsAll_nil_iff calendar).mp all⟩
    | cons event rest =>
      have last : rest = [] := List.length_eq_zero_iff.mp (by simpa using atMost)
      subst last
      exact .inr ⟨event, rfl, (addsAll_singleton_iff calendar event).mp all⟩
  · intro reason
    obtain ⟨rfl, none_stored⟩ | ⟨event, rfl, besides⟩ := reason
    · exact (addsAll_nil_iff calendar).mpr none_stored
    · exact (addsAll_singleton_iff calendar event).mpr besides

/-! ## Batches of new events -/

theorem foldl_addEvent_perm (events : List Event) {calendar : Calendar}
    (distinct : ((calendar.eventsList.toArray ++ events).map Event.id).Nodup) :
    (events.foldl addEvent calendar).eventsList.toArray.Perm (calendar.eventsList.toArray ++ events) := by
  induction events generalizing calendar with
  | nil => rw [List.foldl_nil, List.append_nil]
  | cons event events ih => exact (ih (distinct_addEvent distinct)).trans (addEvent_append_perm distinct)

theorem addEvents_listed_iff {calendar : Calendar} {events : List Event}
    (distinct : ((calendar.eventsList.toArray ++ events).map Event.id).Nodup) :
    (calendar.addEvents events).eventsList.toArray = (events.foldl addEvent calendar).eventsList.toArray ↔
      (events = [] ∧ calendar.eventsList.toArray = []) ∨ events.length = 1 := by
  have oneByOne := foldl_addEvent_perm events distinct
  constructor
  · intro listed
    -- all events fit, so the batch is one of those that add all
    have all : AddsAll calendar events (calendar.addEvents events) := by
      constructor
      case listed => exact listed
      case id => exact addEvents_id calendar events
      case title => exact addEvents_title calendar events
      case kept => exact listed ▸ oneByOne.symm.subperm
    obtain nothing | ⟨event, rfl, _⟩ := (addEvents_addsAll_iff calendar events).mp all
    · exact .inl nothing
    · exact .inr rfl
  · intro reason
    obtain ⟨rfl, none_stored⟩ | one := reason
    · exact none_stored.symm
    · obtain ⟨event, rfl⟩ := List.length_eq_one_iff.mp one
      rfl

/-- Of breakfast and lunch, added at once to an empty calendar, breakfast is lost. -/
theorem first_of_two_lost :
    ¬ AddsAll (.new "c" "Main Calendar") [.plain "breakfast" 8 9, .plain "lunch" 12 13]
        ((Calendar.new "c" "Main Calendar").addEvents [.plain "breakfast" 8 9, .plain "lunch" 12 13]) := by
  intro all
  have listed := all.listed
  revert listed
  decide

end PlenR.Util.Calendar
