import PlenR.Foundation.Snapshots
import PlenR.Screens.Store

/-! The profile screen, `Profile.js`: the local calendars and how many events each has. -/

set_option autoImplicit false

namespace PlenR.Screens.Profile

open PlenR.Util Foundation.Snapshots

structure Row where
  id : String
  title : Option String
  numOfEvents : ℕ
  deriving DecidableEq, Repr

structure State where
  calendarList : List Row
  currentUser : Option String

/-- All events of one calendar, with the title its document had. -/
structure EventsQuery where
  user : String
  calendar : String
  title : Option String
  deriving DecidableEq

/-- `where("tag", "==", "local")`. -/
def localCalendars (store : Store) (user : String) : List CalendarDoc :=
  (store.calendars user).filter fun doc => doc.tag = some "local"

def EventsQuery.result (store : Store) (query : EventsQuery) : List Event :=
  store.events query.user query.calendar

def EventsQuery.row (query : EventsQuery) (docs : List Event) : Row where
  id := query.calendar
  title := query.title
  numOfEvents := docs.length

/-- The index of the last row with the id, as the loop over the list leaves it. -/
def indexOfRow (id : String) (calendarList : List Row) : Option ℕ :=
  calendarList.zipIdx.foldl (fun index (calendar, i) => if calendar.id = id then some i else index) none

def State.showRow (wrapper : Row) (state : State) : State :=
  match indexOfRow wrapper.id state.calendarList with
  | none => { state with calendarList := state.calendarList ++ [wrapper] }
  | some index => { state with calendarList := state.calendarList.set index wrapper }

structure Screen where
  state : State
  calendarsListeners : List (Listener String CalendarDoc)
  eventsListeners : List (Listener EventsQuery Event)

def Screen.initial : Screen where
  state := { calendarList := [], currentUser := none }
  calendarsListeners := []
  eventsListeners := []

inductive Action where
  | authStateChanged (user : Option String)
  | calendarsSnapshot (position : ℕ) (docs : List CalendarDoc)
  | eventsSnapshot (position : ℕ) (docs : List Event)

namespace Screen

def authStateChanged (user : Option String) (screen : Screen) : Screen :=
  match user with
  | some uid =>
      { screen with
        state := { screen.state with currentUser := some uid }
        calendarsListeners := screen.calendarsListeners ++ [subscribe uid] }
  -- the list is cleared once; the listeners stay registered
  | none => { screen with state := { calendarList := [], currentUser := none } }

def listenToEvents (user : String) (docs : List CalendarDoc) (screen : Screen) : Screen :=
  { screen with
    eventsListeners := screen.eventsListeners ++
      docs.map fun doc => subscribe { user := user, calendar := doc.id, title := doc.title } }

def queryAt (screen : Screen) (position : ℕ) : Option EventsQuery :=
  screen.eventsListeners[position]?.map Listener.query

end Screen

def step (store : Store) (screen : Screen) : Action → Option Screen
  | .authStateChanged user => some (screen.authStateChanged user)
  | .calendarsSnapshot position docs =>
      (deliver (localCalendars store) screen.calendarsListeners position docs).map
        fun (user, listeners) => { screen with calendarsListeners := listeners }.listenToEvents user docs
  | .eventsSnapshot position docs =>
      (deliver (EventsQuery.result store) screen.eventsListeners position docs).map
        fun (query, listeners) =>
          { screen with state := screen.state.showRow (query.row docs), eventsListeners := listeners }

/-! ## The row a report makes -/

/-- A loop that keeps the last hit, as a search from the end. -/
theorem foldl_eq_find? (id : String) (rows : List (Row × ℕ)) (index : Option ℕ) :
    rows.foldl (fun index (calendar, i) => if calendar.id = id then some i else index) index =
      ((rows.reverse.find? fun entry => entry.1.id = id).map Prod.snd <|> index) := by
  induction rows generalizing index with
  | nil => rfl
  | cons entry rows ih =>
    simp only [List.foldl_cons, ih, List.reverse_cons, List.find?_append, List.find?_singleton]
    cases rows.reverse.find? fun entry => entry.1.id = id with
    | some later => rfl
    | none =>
      by_cases same : entry.1.id = id
      · simp [same]
      · simp [same]

theorem indexOfRow_eq_find? (id : String) (calendarList : List Row) :
    indexOfRow id calendarList =
      (calendarList.zipIdx.reverse.find? fun entry => entry.1.id = id).map Prod.snd := by
  unfold indexOfRow
  rw [foldl_eq_find?]
  simp

theorem indexOfRow_some {id : String} {calendarList : List Row} {index : ℕ}
    (found : indexOfRow id calendarList = some index) : calendarList[index]?.map Row.id = some id := by
  rw [indexOfRow_eq_find?] at found
  obtain ⟨⟨row, place⟩, hit, rfl⟩ := Option.map_eq_some_iff.mp found
  have member := List.mem_reverse.mp (List.mem_of_find?_eq_some hit)
  have named : row.id = id := by simpa using List.find?_some hit
  rw [List.mk_mem_zipIdx_iff_getElem?.mp member]
  exact congrArg some named

theorem indexOfRow_none {id : String} {calendarList : List Row} (notFound : indexOfRow id calendarList = none) :
    ∀ row ∈ calendarList, row.id ≠ id := by
  rw [indexOfRow_eq_find?, Option.map_eq_none_iff, List.find?_eq_none] at notFound
  intro row member
  obtain ⟨place, inside, rfl⟩ := List.mem_iff_getElem.mp member
  have indexed : (calendarList[place], place) ∈ calendarList.zipIdx.reverse := by
    rw [List.mem_reverse, List.mk_mem_zipIdx_iff_getElem?]
    exact List.getElem?_eq_getElem inside
  simpa using notFound _ indexed

end PlenR.Screens.Profile
