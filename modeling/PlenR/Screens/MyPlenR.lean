import PlenR.Foundation.Snapshots
import PlenR.Screens.Store
import PlenR.Time.Format

/-! The calendar screen, `MyPlenR.js`, as a step system.

The state is the component's own; beside it stand the listeners the screen has
registered, which are removed only when the screen is unmounted, and that ends a
run. A listener of the calendars collection registers one events listener for
each document it reports. The one of `componentDidMount` queries the month shown
when it reports, those of `updateLocalCalendar` the month they were made for.
-/

set_option autoImplicit false

namespace PlenR.Screens.MyPlenR

open PlenR.Time PlenR.Util Foundation.Snapshots

structure State where
  currentTime : ℤ
  currentUser : Option String
  scrollOffset : ℚ
  yearMonthData : List YearMonth
  local_calendars : List Calendar
  refresh : Bool
  deriving DecidableEq

/-- A page of the month list, with the key `handlePageChange` gives it. -/
def futureMonth (clock : Clock) (time : ℤ) : YearMonth where
  key := clock.formatMonthYear (clock.monthOf time) (clock.yearOf time)
  month := clock.monthOf time
  year := clock.yearOf time

namespace State

variable (clock : Clock)

def initial (today : ℤ) : State :=
  let nextMonth := clock.addMonths today 1
  let data := Calendar.generateYearMonthData 0 1918 (clock.monthOf nextMonth) (clock.yearOf nextMonth)
  { currentTime := today
    currentUser := none
    scrollOffset := (data.length - 2) * 300
    yearMonthData := data
    local_calendars := []
    refresh := false }

def retrieveEvents (state : State) (currentDay : ℤ) : SortedList Event :=
  state.local_calendars.foldl (fun retrievedEvents calendar =>
    SortedList.merge Event.eventComparator retrievedEvents (calendar.getEvents clock currentDay)) .empty

def checkIfCalendarDataExists (state : State) (data : YearMonth) : List YearMonth :=
  if state.yearMonthData.any (fun cal => cal.key = data.key) then state.yearMonthData
  else state.yearMonthData ++ [data]

/-- The month scrolled to is shown from its first day, the current one at the present moment. -/
def shownTime (today time : ℤ) : ℤ :=
  if isSame clock.month time today then today else clock.month.startOf (clock.month.unitOf time)

/-- The new state, and the moment `updateLocalCalendar` is called with. -/
def handlePageChange (today : ℤ) (currentOffset : ℚ) (state : State) : State × Option ℤ :=
  let diff := currentOffset - state.scrollOffset
  let prevMonth := clock.addMonths state.currentTime (-clock.absRound (-diff / 300))
  let nextMonth := clock.addMonths state.currentTime (clock.absRound (diff / 300))
  -- a scroll that comes to rest within half a page turns nothing
  if diff > 160 then
    ({ state with
        scrollOffset := currentOffset
        currentTime := shownTime clock today nextMonth
        yearMonthData := state.checkIfCalendarDataExists (futureMonth clock (clock.addMonths nextMonth 1))
        refresh := !state.refresh }, some nextMonth)
  else if diff < -160 then
    ({ state with
        scrollOffset := currentOffset
        currentTime := shownTime clock today prevMonth
        refresh := !state.refresh }, some prevMonth)
  else (state, none)

def selectDay (day : ℤ) (state : State) : State :=
  { state with currentTime := clock.setDate state.currentTime day }

/-- The callback of an events listener: the entry of its calendar is made anew. -/
def showEvents (calendar : String) (freshId : String) (events : List Event) (state : State) : State :=
  { state with
    local_calendars := state.local_calendars.filter (fun entry => entry.title ≠ calendar) ++
      [Calendar.parse freshId events calendar] }

end State

/-! ## Listeners -/

/-- The month that the events listeners of a calendars listener query. -/
inductive Target where
  | shown
  | month (time : ℤ)
  deriving DecidableEq

structure CalendarsQuery where
  user : String
  target : Target
  deriving DecidableEq

structure EventsQuery where
  user : String
  calendar : String
  time : ℤ
  deriving DecidableEq

/-- `where('start', '<=', endOf('month')).where('start', '>=', startOf('month'))`. -/
def startsInMonth (clock : Clock) (time : ℤ) (event : Event) : Bool :=
  event.start ≤ clock.month.endOf (clock.month.unitOf time) &&
    clock.month.startOf (clock.month.unitOf time) ≤ event.start

def EventsQuery.result (clock : Clock) (store : Store) (query : EventsQuery) : List Event :=
  (store.events query.user query.calendar).filter (startsInMonth clock query.time)

structure Screen where
  state : State
  calendarsListeners : List (Listener CalendarsQuery CalendarDoc)
  eventsListeners : List (Listener EventsQuery Event)

def Screen.initial (clock : Clock) (today : ℤ) : Screen where
  state := .initial clock today
  calendarsListeners := []
  eventsListeners := []

inductive Action where
  | authStateChanged (user : Option String)
  | calendarsSnapshot (position : ℕ) (docs : List CalendarDoc)
  | eventsSnapshot (position : ℕ) (docs : List Event) (freshId : String)
  | pageChange (today : ℤ) (currentOffset : ℚ)
  | daySelect (day : ℤ)

namespace Screen

def authStateChanged (user : Option String) (screen : Screen) : Screen :=
  match user with
  | some uid =>
      { screen with
        state := { screen.state with currentUser := some uid }
        calendarsListeners := screen.calendarsListeners ++ [subscribe { user := uid, target := .shown }] }
  -- the listeners of the account stay registered
  | none => { screen with state := { screen.state with currentUser := none, local_calendars := [] } }

def updateLocalCalendar (time : ℤ) (screen : Screen) : Screen :=
  match screen.state.currentUser with
  | some uid =>
      { screen with
        calendarsListeners := screen.calendarsListeners ++ [subscribe { user := uid, target := .month time }] }
  | none => screen

def pageChange (clock : Clock) (today : ℤ) (currentOffset : ℚ) (screen : Screen) : Screen :=
  let (state, turned) := screen.state.handlePageChange clock today currentOffset
  match turned with
  | some time => { screen with state := state }.updateLocalCalendar time
  | none => { screen with state := state }

def listenToEvents (query : CalendarsQuery) (docs : List CalendarDoc) (screen : Screen) : Screen :=
  -- `componentDidMount` reads `currentTime` when the calendars are reported
  let time := match query.target with
    | .shown => screen.state.currentTime
    | .month time => time
  { screen with
    eventsListeners := screen.eventsListeners ++
      docs.map fun doc => subscribe { user := query.user, calendar := doc.id, time := time } }

end Screen

/-- One callback of the screen, with the documents as the server has them. -/
def step (clock : Clock) (store : Store) (screen : Screen) : Action → Option Screen
  | .authStateChanged user => some (screen.authStateChanged user)
  | .calendarsSnapshot position docs =>
      (deliver (fun query => store.calendars query.user) screen.calendarsListeners position docs).map
        fun (query, listeners) => { screen with calendarsListeners := listeners }.listenToEvents query docs
  | .eventsSnapshot position docs freshId =>
      (deliver (EventsQuery.result clock store) screen.eventsListeners position docs).map
        fun (query, listeners) =>
          { screen with
            state := screen.state.showEvents query.calendar freshId docs
            eventsListeners := listeners }
  | .pageChange today currentOffset => some (screen.pageChange clock today currentOffset)
  | .daySelect day => some { screen with state := screen.state.selectDay clock day }

/-! ## What a page change leaves alone -/

section PageChange
variable (clock : Clock) (today : ℤ) (currentOffset : ℚ)

theorem handlePageChange_cases (state : State) :
    (∃ time data refresh, state.handlePageChange clock today currentOffset =
        ({ state with
            scrollOffset := currentOffset
            currentTime := State.shownTime clock today time
            yearMonthData := data
            refresh := refresh }, some time)) ∨
      state.handlePageChange clock today currentOffset = (state, none) := by
  unfold State.handlePageChange
  by_cases forward : currentOffset - state.scrollOffset > 160
  · simp only [forward, if_true]
    exact .inl ⟨_, _, _, rfl⟩
  · by_cases back : currentOffset - state.scrollOffset < -160
    · simp only [forward, back, if_true, if_false]
      exact .inl ⟨_, state.yearMonthData, _, rfl⟩
    · simp only [forward, back, if_false]
      exact .inr trivial

@[simp] theorem handlePageChange_local_calendars (state : State) :
    (state.handlePageChange clock today currentOffset).1.local_calendars = state.local_calendars := by
  obtain ⟨_, _, _, turned⟩ | kept := handlePageChange_cases clock today currentOffset state
  · rw [turned]
  · rw [kept]

@[simp] theorem handlePageChange_currentUser (state : State) :
    (state.handlePageChange clock today currentOffset).1.currentUser = state.currentUser := by
  obtain ⟨_, _, _, turned⟩ | kept := handlePageChange_cases clock today currentOffset state
  · rw [turned]
  · rw [kept]

@[simp] theorem updateLocalCalendar_state (time : ℤ) (screen : Screen) :
    (screen.updateLocalCalendar time).state = screen.state := by
  unfold Screen.updateLocalCalendar
  cases screen.state.currentUser with
  | none => rfl
  | some uid => rfl

@[simp] theorem pageChange_eventsListeners (screen : Screen) :
    (screen.pageChange clock today currentOffset).eventsListeners = screen.eventsListeners := by
  unfold Screen.pageChange
  generalize screen.state.handlePageChange clock today currentOffset = change
  obtain ⟨state, turned⟩ := change
  cases turned with
  | none => rfl
  | some time =>
    simp only [Screen.updateLocalCalendar]
    cases state.currentUser with
    | none => rfl
    | some uid => rfl

@[simp] theorem pageChange_state (screen : Screen) :
    (screen.pageChange clock today currentOffset).state =
      (screen.state.handlePageChange clock today currentOffset).1 := by
  unfold Screen.pageChange
  generalize screen.state.handlePageChange clock today currentOffset = change
  obtain ⟨state, turned⟩ := change
  cases turned with
  | none => rfl
  | some time => exact updateLocalCalendar_state time _

end PageChange
end PlenR.Screens.MyPlenR
