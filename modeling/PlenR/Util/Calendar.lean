import PlenR.Foundation.Counting
import PlenR.Util.Event
import PlenR.Util.SortedList

/-! Calendars, as `Calendar.js` fills, filters and decodes them.

Every calendar object draws an id of its own; operations that copy a calendar
restore the old one. Timeline entries carry formatted times, so the formatting
of instants and the type of its results are parameters.
-/

set_option autoImplicit false

namespace PlenR.Util

open PlenR.Time Foundation

structure Calendar where
  title : String
  id : String
  eventsList : SortedList Event
  deriving DecidableEq, Repr

/-- What the timeline draws: formatted times under the name of their owner. -/
structure TimelineEvent (Stamp : Type) where
  start : Stamp
  end_ : Stamp
  title : String
  summary : String
  deriving DecidableEq, Repr

structure YearMonth where
  key : String
  month : ℤ
  year : ℤ
  deriving DecidableEq, Repr

namespace Calendar

/-- The constructor; `freshId` is what `idCreator` draws. -/
def new (freshId : String) (title : String) : Calendar where
  title := title
  id := freshId
  eventsList := .empty

def addEvent (calendar : Calendar) (event : Event) : Calendar :=
  { new "" calendar.title with
    id := calendar.id
    eventsList := calendar.eventsList.add Event.eventComparator event }

def deleteEvent (calendar : Calendar) (event : Event) : Calendar :=
  { new "" calendar.title with
    id := calendar.id
    eventsList := calendar.eventsList.delete Event.eventComparator event }

def occursOn (clock : Clock) (date : ℤ) (event : Event) : Bool :=
  isSame clock.day event.start date ||
    isBetween clock.minute date event.start event.end_ ||
    isSame clock.day event.end_ date

def getEvents (clock : Clock) (calendar : Calendar) (date : ℤ) : SortedList Event :=
  calendar.eventsList.filter (occursOn clock date)

/-- Every turn adds its event to the list of the receiver, not to that of the turn before. -/
def addEvents (calendar : Calendar) (events : List Event) : Calendar :=
  events.foldl
    (fun newCalendar event =>
      { newCalendar with eventsList := calendar.eventsList.add Event.eventComparator event })
    { new "" calendar.title with id := calendar.id }

def parse (freshId : String) (events : List Event) (title : String) : Calendar :=
  events.foldl addEvent (new freshId title)

/-- The first item that cannot be formatted ends the loop and the call. -/
def parseGoogle (clock : Clock) (freshId : String) (events : List Event.GoogleItem) : Except Exception Calendar :=
  events.foldlM (fun newCalendar event => do
    let newEvent ← Event.formatGoogle clock event
    return newCalendar.addEvent newEvent) (new freshId "Google Calendar")

section Timeline
variable {Stamp : Type} (format : ℤ → Stamp)

/-- `events` is absent where the document read has no such field; iterating it
then aborts. -/
def parseForTimeline (events : Option (List Event)) (name : String) :
    Except Exception (List (TimelineEvent Stamp)) :=
  match events with
  | none => .error .typeError
  | some events => .ok (events.map fun event =>
      { start := format event.start, end_ := format event.end_, title := name,
        summary := "something on" })

def parseGoogleForTimeline (clock : Clock) (events : Option (List Event.GoogleItem)) (name : String) :
    Except Exception (List (TimelineEvent Stamp)) :=
  match events with
  | none => .error .typeError
  | some events => events.mapM fun event => do
      let localEvent ← Event.formatGoogle clock event
      return { start := format localEvent.start, end_ := format localEvent.end_, title := name,
               summary := "likely free" }

end Timeline

def createYearMonthObj (month year : ℤ) : YearMonth where
  key := toString month ++ toString year
  month := month
  year := year

/-- The months of two moments, given by the year and month of each. The years of
both ends are listed apart, even when they are the same year. -/
def generateYearMonthData (startMonth startYear endMonth endYear : ℤ) : List YearMonth :=
  (upTo startMonth 12).map (fun month => createYearMonthObj month startYear) ++
    (upTo (startYear + 1) endYear).flatMap (fun year =>
      (upTo 0 12).map fun month => createYearMonthObj month year) ++
    (upTo 0 (endMonth + 1)).map (fun month => createYearMonthObj month endYear)

/-! ## The months of a range -/

def monthPage (month : ℤ) : YearMonth := createYearMonthObj (month % 12) (month / 12)

theorem pages_of_year {year first last : ℤ} (lower : 0 ≤ first) (upper : last ≤ 12) :
    (upTo first last).map (fun month => createYearMonthObj month year) =
      (upTo (12 * year + first) (12 * year + last)).map monthPage := by
  rw [← map_upTo_shift]
  apply List.map_congr_left
  intro month inside
  obtain ⟨above, below⟩ := mem_upTo.mp inside
  have sameMonth : (12 * year + month) % 12 = month := by omega
  have sameYear : (12 * year + month) / 12 = year := by omega
  rw [monthPage, sameMonth, sameYear]

theorem pages_of_years {first last : ℤ} (order : first ≤ last) :
    (upTo first last).flatMap (fun year => (upTo 0 12).map fun month => createYearMonthObj month year) =
      (upTo (12 * first) (12 * last)).map monthPage := by
  obtain ⟨count, rfl⟩ := Int.le.dest order
  induction count with
  | zero => simp [upTo_empty]
  | succ count ih =>
    have grows : first + ((count + 1 : ℕ) : ℤ) = first + count + 1 := by omega
    have nextYear : 12 * (first + count + 1) = 12 * (first + (count : ℤ)) + 12 := by omega
    rw [grows, upTo_succ (by omega), List.flatMap_append, ih (by omega), List.flatMap_singleton,
      pages_of_year le_rfl le_rfl, ← List.map_append, nextYear, add_zero, upTo_append (by omega) (by omega)]

theorem generateYearMonthData_eq {startMonth startYear endMonth endYear : ℤ} (start : 0 ≤ startMonth ∧ startMonth < 12)
    (final : 0 ≤ endMonth ∧ endMonth < 12) (order : startYear < endYear) :
    generateYearMonthData startMonth startYear endMonth endYear =
      (upTo (12 * startYear + startMonth) (12 * endYear + endMonth + 1)).map monthPage := by
  have nextYear : 12 * (startYear + 1) = 12 * startYear + 12 := by omega
  unfold generateYearMonthData
  rw [pages_of_year start.1 le_rfl, pages_of_years (by omega), pages_of_year le_rfl (by omega), nextYear, add_zero,
    ← List.map_append, upTo_append (by omega) (by omega), ← List.map_append, ← add_assoc,
    upTo_append (by omega) (by omega)]

/-! ## The events a calendar lists -/

@[simp] theorem deleteEvent_eventsList (calendar : Calendar) (event : Event) :
    (calendar.deleteEvent event).eventsList =
      calendar.eventsList.delete Event.eventComparator event := rfl

theorem foldl_keeps {Field : Type} (read : Calendar → Field) {turn : Calendar → Event → Calendar}
    (keeps : ∀ calendar event, read (turn calendar event) = read calendar) (events : List Event) (calendar : Calendar) :
    read (events.foldl turn calendar) = read calendar := by
  induction events generalizing calendar with
  | nil => rfl
  | cons event events ih => rw [List.foldl_cons, ih, keeps]

@[simp] theorem addEvent_id (calendar : Calendar) (event : Event) : (calendar.addEvent event).id = calendar.id := rfl

@[simp] theorem addEvent_title (calendar : Calendar) (event : Event) :
    (calendar.addEvent event).title = calendar.title := rfl

@[simp] theorem parse_title (freshId : String) (events : List Event) (title : String) :
    (parse freshId events title).title = title := by
  rw [parse, foldl_keeps Calendar.title addEvent_title]
  rfl

theorem addEvent_placement (calendar : Calendar) (event : Event) :
    SortedList.Placement Event.eventComparator event calendar.eventsList.toArray
      (calendar.addEvent event).eventsList.toArray :=
  SortedList.add_placement calendar.eventsList event

theorem addEvent_perm (calendar : Calendar) (event : Event)
    (absent : ∀ stored ∈ calendar.eventsList.toArray, stored.id ≠ event.id) :
    (calendar.addEvent event).eventsList.toArray.Perm (event :: calendar.eventsList.toArray) := by
  apply (addEvent_placement calendar event).perm_cons
  intro stored member same
  exact absent stored member ((Event.eventComparator_eq_zero stored event).mp same)

section Distinct
variable {calendar : Calendar} {event : Event} {events : List Event}
  (distinct : ((calendar.eventsList.toArray ++ event :: events).map Event.id).Nodup)
include distinct

theorem absent_of_distinct : ∀ stored ∈ calendar.eventsList.toArray, stored.id ≠ event.id := by
  intro stored member
  rw [List.map_append, List.nodup_append] at distinct
  exact distinct.2.2 _ (List.mem_map_of_mem member) _ (List.mem_map_of_mem List.mem_cons_self)

theorem addEvent_append_perm :
    ((calendar.addEvent event).eventsList.toArray ++ events).Perm (calendar.eventsList.toArray ++ event :: events) :=
  ((addEvent_perm calendar event (absent_of_distinct distinct)).append_right events).trans List.perm_middle.symm

theorem distinct_addEvent : (((calendar.addEvent event).eventsList.toArray ++ events).map Event.id).Nodup :=
  ((addEvent_append_perm distinct).map Event.id).nodup_iff.mpr distinct

end Distinct

/-! ## Days an event occurs on -/

def CoversDay (clock : Clock) (date : ℤ) (event : Event) : Prop :=
  clock.day.unitOf event.start ≤ clock.day.unitOf date ∧ clock.day.unitOf date ≤ clock.day.unitOf event.end_

instance (clock : Clock) (date : ℤ) (event : Event) : Decidable (CoversDay clock date event) :=
  inferInstanceAs (Decidable (_ ∧ _))

theorem occursOn_of_coversDay {clock : Clock} {date : ℤ} {event : Event}
    (covers : CoversDay clock date event) : occursOn clock date event = true := by
  obtain ⟨lower, upper⟩ := covers
  simp only [occursOn, Bool.or_eq_true, isSame_iff, isBetween_iff]
  by_cases first : clock.day.unitOf event.start = clock.day.unitOf date
  · exact .inl (.inl first)
  · by_cases last : clock.day.unitOf event.end_ = clock.day.unitOf date
    · exact .inr last
    · have before := clock.dayOfMinute.unitOf_mono.reflect_lt (lt_of_le_of_ne lower first)
      have after := clock.dayOfMinute.unitOf_mono.reflect_lt (lt_of_le_of_ne upper (Ne.symm last))
      exact .inl (.inr ⟨before.le, after⟩)

theorem coversDay_of_occursOn {clock : Clock} {date : ℤ} {event : Event} (ordered : event.start ≤ event.end_)
    (occurs : occursOn clock date event = true) : CoversDay clock date event := by
  have order := clock.day.unitOf_mono ordered
  unfold CoversDay
  simp only [occursOn, Bool.or_eq_true, isSame_iff, isBetween_iff] at occurs
  obtain (first | between) | last := occurs
  · exact ⟨first.le, first ▸ order⟩
  · exact ⟨clock.dayOfMinute.unitOf_mono between.1, clock.dayOfMinute.unitOf_mono between.2.le⟩
  · exact ⟨last ▸ order, last.ge⟩

end Calendar
end PlenR.Util
