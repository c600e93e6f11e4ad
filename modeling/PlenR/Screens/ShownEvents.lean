import PlenR.Screens.AddEvent
import PlenR.Screens.EditEvent
import PlenR.Screens.MyPlenR
import PlenR.Screens.TimelineSource

/-! The way of an event from `AddEvent` through the store to `EditEvent`.

`edit` is a method, found through the prototype of an object. An object made by
the constructor of `Event` has it; a document keeps fields only, and the data of
a snapshot are records of these. `Calendar.parse` and the lists hand on the
objects they are given. Reading off the fields of the objects gives the calendars
and lists of events used elsewhere.
-/

set_option autoImplicit false

namespace PlenR.Screens.ShownEvents

open PlenR.Time PlenR.Util Foundation.Run

structure Object where
  fields : Event
  /-- Whether its prototype is that of `Event`. -/
  hasMethods : Bool
  deriving DecidableEq

/-- The object `AddEvent` makes of its form. -/
def created (freshId : String) (form : AddEvent.State) : Object where
  fields := form.event freshId
  hasMethods := true

def data (doc : Event) : Object where
  fields := doc
  hasMethods := false

/-! ## Calendars of objects -/

def comparator (first second : Object) : ℤ := Event.eventComparator first.fields second.fields

theorem comparator_agrees (first second : Object) :
    comparator first second = Event.eventComparator first.fields second.fields := rfl

structure ObjectCalendar where
  title : String
  id : String
  eventsList : SortedList Object

namespace ObjectCalendar

def new (freshId : String) (title : String) : ObjectCalendar where
  title := title
  id := freshId
  eventsList := .empty

def addEvent (calendar : ObjectCalendar) (event : Object) : ObjectCalendar :=
  { new "" calendar.title with
    id := calendar.id
    eventsList := calendar.eventsList.add comparator event }

def parse (freshId : String) (events : List Object) (title : String) : ObjectCalendar :=
  events.foldl addEvent (new freshId title)

def getEvents (clock : Clock) (calendar : ObjectCalendar) (date : ℤ) : SortedList Object :=
  calendar.eventsList.filter fun object => Calendar.occursOn clock date object.fields

def toCalendar (calendar : ObjectCalendar) : Calendar where
  title := calendar.title
  id := calendar.id
  eventsList := calendar.eventsList.map Object.fields

theorem parse_toCalendar (freshId : String) (events : List Object) (title : String) :
    (parse freshId events title).toCalendar = Calendar.parse freshId (events.map Object.fields) title := by
  have added : ∀ calendar : ObjectCalendar, (events.foldl addEvent calendar).toCalendar =
      (events.map Object.fields).foldl Calendar.addEvent calendar.toCalendar := by
    induction events with
    | nil => exact fun _ => rfl
    | cons event events ih =>
      intro calendar
      have here : (calendar.addEvent event).toCalendar = calendar.toCalendar.addEvent event.fields := by
        simp only [toCalendar, addEvent, Calendar.addEvent, Calendar.new, new,
          SortedList.map_add comparator_agrees]
      rw [List.foldl_cons, List.map_cons, List.foldl_cons, ih, here]
  exact added (new freshId title)

end ObjectCalendar

/-! ## The screen -/

structure App where
  store : Store
  local_calendars : List ObjectCalendar

def App.initial : App where
  store := .empty
  local_calendars := []

inductive Action where
  | addEvent (freshId : String) (form : AddEvent.State)
  | eventsSnapshot (calendar : String) (docs : List Event) (freshId : String)
  | signOut

namespace App

def showEvents (calendar freshId : String) (docs : List Event) (app : App) : App :=
  { app with
    local_calendars := app.local_calendars.filter (fun entry => entry.title ≠ calendar) ++
      [ObjectCalendar.parse freshId (docs.map data) calendar] }

def retrieveEvents (clock : Clock) (app : App) (currentDay : ℤ) : SortedList Object :=
  app.local_calendars.foldl (fun retrievedEvents calendar =>
    SortedList.merge comparator retrievedEvents (calendar.getEvents clock currentDay)) .empty

end App

/-- Setting a document stores the fields of the object; a snapshot brings stored documents. -/
def step (user : String) (app : App) : Action → Option App
  | .addEvent freshId form =>
      if form.title = "" then none
      else some { app with store := TimelineSource.onAddEvent app.store user (created freshId form).fields }
  | .eventsSnapshot calendar docs freshId =>
      if ∀ doc ∈ docs, doc ∈ app.store.events user calendar then some (app.showEvents calendar freshId docs)
      else none
  | .signOut => some { app with local_calendars := [] }

theorem showEvents_toCalendar {app : App} {state : MyPlenR.State}
    (same : app.local_calendars.map ObjectCalendar.toCalendar = state.local_calendars) (calendar freshId : String)
    (docs : List Event) :
    (app.showEvents calendar freshId docs).local_calendars.map ObjectCalendar.toCalendar =
      (state.showEvents calendar freshId docs).local_calendars := by
  have read : (docs.map data).map Object.fields = docs := by
    rw [List.map_map]
    exact List.map_id docs
  simp only [App.showEvents, MyPlenR.State.showEvents, List.map_append, List.map_singleton,
    ObjectCalendar.parse_toCalendar, read, ← same, List.filter_map]
  rfl

theorem retrieveEvents_fields {app : App} {state : MyPlenR.State}
    (same : app.local_calendars.map ObjectCalendar.toCalendar = state.local_calendars) (clock : Clock)
    (currentDay : ℤ) :
    (app.retrieveEvents clock currentDay).map Object.fields = state.retrieveEvents clock currentDay := by
  have merged : ∀ (calendars : List ObjectCalendar) (retrievedEvents : SortedList Object),
      (calendars.foldl (fun retrievedEvents calendar =>
          SortedList.merge comparator retrievedEvents (calendar.getEvents clock currentDay)) retrievedEvents).map
            Object.fields =
        (calendars.map ObjectCalendar.toCalendar).foldl (fun retrievedEvents calendar =>
          SortedList.merge Event.eventComparator retrievedEvents (calendar.getEvents clock currentDay))
            (retrievedEvents.map Object.fields) := by
    intro calendars
    induction calendars with
    | nil => exact fun _ => rfl
    | cons calendar calendars ih =>
      intro retrievedEvents
      rw [List.foldl_cons, ih, SortedList.map_merge comparator_agrees,
        ObjectCalendar.getEvents, SortedList.map_filter]
      rfl
  unfold App.retrieveEvents MyPlenR.State.retrieveEvents
  rw [merged, same]
  rfl

/-! ## The form -/

/-- `done` of `EditEvent` for an object: `edit` is called only if the object has it. -/
def done (object : Object) (form : EditEvent.State) : Except Exception (Option Event) :=
  if form.title = some "" then .ok none
  else if object.hasMethods then .ok (form.done object.fields)
  else .error .typeError

/-- An event is handed over that has the id of the shown one and the fields of the form. -/
def DoneSucceeds (object : Object) (form : EditEvent.State) : Prop :=
  ∃ handed, done object form = .ok (some handed) ∧ handed.id = object.fields.id ∧ handed.title = form.title ∧
    handed.location = form.location ∧ handed.start = form.start ∧ handed.end_ = form.end_ ∧ handed.notes = form.notes

def Records (app : App) : Prop :=
  ∀ calendar ∈ app.local_calendars, ∀ object ∈ calendar.eventsList.toArray, object.hasMethods = false

theorem parse_records (freshId : String) (docs : List Event) (title : String) :
    ∀ object ∈ (ObjectCalendar.parse freshId (docs.map data) title).eventsList.toArray, object.hasMethods = false := by
  have added : ∀ calendar : ObjectCalendar, (∀ object ∈ calendar.eventsList.toArray, object.hasMethods = false) →
      ∀ object ∈ ((docs.map data).foldl ObjectCalendar.addEvent calendar).eventsList.toArray,
        object.hasMethods = false := by
    induction docs with
    | nil => exact fun _ records => records
    | cons doc docs ih =>
      intro calendar records
      apply ih
      intro object member
      cases (SortedList.add_placement calendar.eventsList (data doc)).mem_of_mem member with
      | inl new => exact new ▸ rfl
      | inr old => exact records object old
  exact added (.new freshId title) (List.forall_mem_nil _)

theorem records_step {user : String} {app next : App} (records : Records app) {action : Action}
    (moved : step user app action = some next) : Records next := by
  cases action with
  | addEvent freshId form =>
    obtain ⟨_, same⟩ := Option.ite_none_left_eq_some.mp moved
    cases same
    exact records
  | eventsSnapshot calendar docs freshId =>
    obtain ⟨_, same⟩ := Option.ite_none_right_eq_some.mp moved
    cases same
    intro entry member
    cases List.mem_append.mp member with
    | inl kept => exact records entry (List.mem_filter.mp kept).1
    | inr new => exact List.mem_singleton.mp new ▸ parse_records freshId docs calendar
  | signOut =>
    cases moved
    exact List.forall_mem_nil _

theorem retrieveEvents_records {app : App} (records : Records app) (clock : Clock) (currentDay : ℤ) :
    ∀ object ∈ (app.retrieveEvents clock currentDay).toArray, object.hasMethods = false := by
  have merged : ∀ (calendars : List ObjectCalendar) (retrievedEvents : SortedList Object),
      (∀ calendar ∈ calendars, ∀ object ∈ calendar.eventsList.toArray, object.hasMethods = false) →
      (∀ object ∈ retrievedEvents.toArray, object.hasMethods = false) →
      ∀ object ∈ (calendars.foldl (fun retrievedEvents calendar =>
          SortedList.merge comparator retrievedEvents (calendar.getEvents clock currentDay)) retrievedEvents).toArray,
        object.hasMethods = false := by
    intro calendars
    induction calendars with
    | nil => exact fun _ _ before => before
    | cons calendar calendars ih =>
      intro retrievedEvents all before
      obtain ⟨here, later⟩ := List.forall_mem_cons.mp all
      apply ih _ later
      intro object member
      have either := SortedList.toArray_merge_perm _ _ |>.mem_iff.mp member
      cases List.mem_append.mp either with
      | inl old => exact before object old
      | inr new =>
        rw [ObjectCalendar.getEvents, SortedList.toArray_filter] at new
        exact here object (List.mem_filter.mp new).1
  exact merged app.local_calendars .empty records (List.forall_mem_nil _)

theorem not_doneSucceeds {object : Object} (record : object.hasMethods = false) (form : EditEvent.State) :
    ¬ DoneSucceeds object form := by
  intro ⟨handed, succeeds, _⟩
  unfold done at succeeds
  rw [record] at succeeds
  split at succeeds
  · cases succeeds
  · cases succeeds

/-- In every run no event that is shown can be edited, whatever the form holds. -/
theorem no_shown_event_edited (clock : Clock) (user : String) (actions : List Action) :
    Always (step user) (fun app => ∀ currentDay, ∀ object ∈ (app.retrieveEvents clock currentDay).toArray,
      ∀ form, ¬ DoneSucceeds object form) .initial actions := by
  have start : Records .initial := List.forall_mem_nil _
  apply (always_of_step (fun _ _ _ records moved => records_step records moved) actions start).mono
  intro app records currentDay object shown form
  exact not_doneSucceeds (retrieveEvents_records records clock currentDay object shown) form

/-! ## Lunch -/

def lunchForm : AddEvent.State where
  title := "Lunch"
  location := ""
  start := 1532952000000
  end_ := 1532955600000
  notes := ""

/-- Lunch is added, stored and shown; with a new title in the form `done` aborts. -/
theorem lunch_not_edited :
    ¬ Always (step "ann") (fun app => ∀ currentDay, ∀ object ∈ (app.retrieveEvents universalClock currentDay).toArray,
      ∀ form : EditEvent.State, form.title ≠ some "" → DoneSucceeds object form) .initial
      [.addEvent "e1" lunchForm, .eventsSnapshot "PlenR Calendar" [lunchForm.event "e1"] "c1"] := by
  intro always
  have edited := ((always.2 _ rfl).2 _ rfl) 1532952000000 (data (lunchForm.event "e1")) (by decide +kernel)
    { EditEvent.State.initial (lunchForm.event "e1") with title := some "Late lunch" } (by decide)
  obtain ⟨handed, succeeds, _⟩ := edited
  cases succeeds

end PlenR.Screens.ShownEvents
