import PlenR.Foundation.Json
import PlenR.Time.Iso
import PlenR.Util.Calendar
import PlenR.Util.Copies

/-! Events and calendars as JSON texts, and what is read back from them.

The text of an event has no recurrence, and reading it goes through the
constructor, so origin and recurrence are lost. The text of a calendar is the
list of the texts of its events: what is read back are texts in place of events,
which all lack an id, so each takes the place of the one before.
-/

set_option autoImplicit false

namespace PlenR.Util

open PlenR.Time Foundation

namespace Event

/-- A field of an object literal; one that is absent is not written. -/
def optional (name : String) (value : Option String) : List (String × Json) :=
  value.toList.map fun text => (name, .str text)

def toJSON (event : Event) : String :=
  Json.stringify (.obj
    (optional "title" event.title ++ optional "location" event.location ++
      [("start", .str (toISOString event.start)), ("end", .str (toISOString event.end_))] ++
      optional "notes" event.notes ++
      [("allday", .bool event.allday), ("id", .str event.id), ("isImported", .bool event.isImported)]))

def textOf (props : Json) (name : String) : Option (Option String) :=
  match props.get name with
  | none => some none
  | some .null => some none
  | some (.str text) => some (some text)
  | some _ => none

def dateOf (props : Json) (name : String) : Option ℤ := do
  parseDate (← (← props.get name).text?)

/-- Absent where the values read make no event: a date that is invalid, say. -/
def localAdd (props : Json) : Option Event := do
  let newEvent := new ""
    { title := ← textOf props "title"
      location := ← textOf props "location"
      start := ← dateOf props "start"
      end_ := ← dateOf props "end"
      notes := ← textOf props "notes"
      allday := ← (← props.get "allday").bool?
      recurrence := none }
  return { newEvent with id := ← (← props.get "id").text? }

end Event

namespace Calendar

/-- A text of texts: `stringify` takes what `toJSON` returns for the value, and that is a text already. -/
def toJSON (calendar : Calendar) : String :=
  Json.stringify (.arr (calendar.eventsList.toArray.map fun event => .str event.toJSON))

def idText (value : Json) : Option String := (value.get "id").bind Json.text?

def startText (value : Json) : Option String := (value.get "start").bind Json.text?

/-- `eventComparator` on values that were read from JSON; a field a value lacks
is `undefined`, which equals itself and is greater than nothing. -/
def valueComparator (first second : Json) : ℤ :=
  if idText first = idText second then 0
  else
    match startText first, startText second with
    | some firstStart, some secondStart => if secondStart < firstStart then 1 else -1
    | _, _ => -1

def listOf {Item : Type} (compare : Item → Item → ℤ) (items : List Item) : SortedList Item :=
  items.foldl (SortedList.add compare) .empty

/-- `Calendar.parse(JSON.parse(text), title).eventsList`, for a text of an array. -/
def parseText (text : String) : Option (SortedList Json) := do
  let .arr items ← Json.parse text | none
  return listOf valueComparator items

end Calendar

def EventRoundTrips (event : Event) : Prop := (Json.parse event.toJSON).bind Event.localAdd = some event

/-- The calendar read back from its text holds values that read as its events, in the same order. -/
def CalendarRoundTrips (calendar : Calendar) : Prop :=
  ∃ values, Calendar.parseText calendar.toJSON = some values ∧
    values.toArray.map Event.localAdd = calendar.eventsList.toArray.map some

namespace Serialise

open Copies

/-! ## Events -/

theorem localAdd_toJSON (event : Event) : (Json.parse event.toJSON).bind Event.localAdd = some (stripped event) := by
  rw [Event.toJSON, Json.parse_stringify, Option.bind_some]
  obtain ⟨title, location, start, end_, notes, allday, isImported, id, recurrence⟩ := event
  cases title <;> cases location <;> cases notes <;>
    simp [Event.localAdd, Event.optional, Event.textOf, Event.dateOf, Json.get, Json.text?, Json.bool?, List.lookup_cons,
      stripped, Event.new]

theorem eventRoundTrips_iff (event : Event) :
    EventRoundTrips event ↔ event.isImported = false ∧ event.recurrence = none := by
  rw [EventRoundTrips, localAdd_toJSON, Option.some.injEq, stripped_eq_iff]

/-! ## Calendars -/

theorem parse_eventsList (freshId : String) (events : List Event) (title : String) :
    (Calendar.parse freshId events title).eventsList = Calendar.listOf Event.eventComparator events := by
  have same : ∀ calendar : Calendar, (events.foldl Calendar.addEvent calendar).eventsList =
      events.foldl (SortedList.add Event.eventComparator) calendar.eventsList := by
    induction events with
    | nil => exact fun _ => rfl
    | cons event events ih => exact fun calendar => ih (calendar.addEvent event)
  exact same (Calendar.new freshId title)

theorem toArray_foldl_of_no_id (values : List Json) (head : Json) (size : ℤ) (headNoId : Calendar.idText head = none)
    (noId : ∀ value ∈ values, Calendar.idText value = none) :
    (values.foldl (SortedList.add Calendar.valueComparator) (.node head .empty size)).toArray =
      [(head :: values).getLast (List.cons_ne_nil head values)] := by
  induction values generalizing head size with
  | nil => rfl
  | cons value values ih =>
    obtain ⟨valueNoId, noId⟩ := List.forall_mem_cons.mp noId
    have same : Calendar.valueComparator head value = 0 := by
      rw [Calendar.valueComparator, headNoId, valueNoId, if_pos rfl]
    rw [List.foldl_cons, SortedList.add, if_pos same, SortedList.clone_eq, ih value (size + 1) valueNoId noId,
      List.getLast_cons_cons]

theorem toArray_listOf_of_no_id {values : List Json} (nonempty : values ≠ [])
    (noId : ∀ value ∈ values, Calendar.idText value = none) :
    (Calendar.listOf Calendar.valueComparator values).toArray = [values.getLast nonempty] := by
  cases values with
  | nil => exact absurd rfl nonempty
  | cons value values =>
    obtain ⟨valueNoId, noId⟩ := List.forall_mem_cons.mp noId
    exact toArray_foldl_of_no_id values value (0 + 1) valueNoId noId

theorem parseText_toJSON (calendar : Calendar) : Calendar.parseText calendar.toJSON =
    some (Calendar.listOf Calendar.valueComparator
      (calendar.eventsList.toArray.map fun event => .str event.toJSON)) := by
  rw [Calendar.parseText, Calendar.toJSON, Json.parse_stringify]
  rfl

theorem localAdd_str (text : String) : Event.localAdd (.str text) = none := rfl

theorem calendarRoundTrips_iff (calendar : Calendar) :
    CalendarRoundTrips calendar ↔ calendar.eventsList.toArray = [] := by
  unfold CalendarRoundTrips
  rw [parseText_toJSON]
  cases events : calendar.eventsList.toArray with
  | nil => exact iff_of_true ⟨_, rfl, rfl⟩ rfl
  | cons event rest =>
    refine iff_of_false ?_ (List.cons_ne_nil event rest)
    intro ⟨values, read, same⟩
    cases read
    have noId : ∀ value ∈ (event :: rest).map (fun event => Json.str event.toJSON), Calendar.idText value = none := by
      intro value member
      obtain ⟨other, _, rfl⟩ := List.mem_map.mp member
      rfl
    have texts : (event :: rest).map (fun event => Json.str event.toJSON) ≠ [] := List.cons_ne_nil _ _
    -- one text is left, which reads as no event
    rw [toArray_listOf_of_no_id texts noId, List.getLast_map] at same
    simp [localAdd_str] at same

/-- An event comes back from its text exactly if it is local and does not recur, and
a calendar exactly if it is empty. -/
theorem roundTrips_iff (event : Event) (calendar : Calendar) :
    (EventRoundTrips event ↔ event.isImported = false ∧ event.recurrence = none) ∧
      (CalendarRoundTrips calendar ↔ calendar.eventsList.toArray = []) :=
  ⟨eventRoundTrips_iff event, calendarRoundTrips_iff calendar⟩

/-- An imported meeting comes back as a local event, and the main calendar without its lunch. -/
theorem meeting_and_lunch_lost :
    (¬ ∀ event, EventRoundTrips event) ∧ ¬ ∀ calendar, CalendarRoundTrips calendar := by
  constructor
  · intro events
    have isLocal := (eventRoundTrips_iff { Event.plain "meeting" 12 13 with isImported := true }).mp (events _)
    exact absurd isLocal.1 (by decide)
  · intro calendars
    have none_left := (calendarRoundTrips_iff ((Calendar.new "c" "Main Calendar").addEvent (.plain "lunch" 12 13))).mp
      (calendars _)
    exact absurd none_left (by decide)

end Serialise
end PlenR.Util
