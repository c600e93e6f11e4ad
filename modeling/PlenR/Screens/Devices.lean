import PlenR.Foundation.Sharing
import PlenR.Screens.Agenda

/-! Several devices on one store.

Every device runs the calendar screen with its details screens and its form, under
the account signed in on it, at its own local time; each writes to the store at any
time and is told of it by its own listeners. When two devices of an account have
both read the month of the day they have selected, they list the same events,
whichever of them wrote or deleted them, and in whatever order the reports came.
-/

set_option autoImplicit false

namespace PlenR.Screens.Devices

open PlenR.Time PlenR.Util Foundation Foundation.Run MyPlenR EventDetails

/-- The store, and beside it what the events collections are there for. -/
structure Server where
  store : Store
  contents : Contents

structure Device where
  screen : Screen
  reports : String → Option EventsReport
  shown : String → Option (List Event)
  details : List Opened
  form : Option Opened
  requests : List EventDetails.Request
  deleted : Option Deletion

def Device.app (server : Server) (device : Device) : EventDetails.State where
  world := { store := server.store, screen := device.screen, reports := device.reports, shown := device.shown }
  details := device.details
  form := device.form
  requests := device.requests
  deleted := device.deleted
  contents := server.contents

def server (state : EventDetails.State) : Server where
  store := state.world.store
  contents := state.contents

def device (state : EventDetails.State) : Device where
  screen := state.world.screen
  reports := state.world.reports
  shown := state.world.shown
  details := state.details
  form := state.form
  requests := state.requests
  deleted := state.deleted

abbrev World := Sharing.State ℕ Server Device

def World.app (world : World) (index : ℕ) : EventDetails.State := (world.own index).app world.shared

def World.agenda (clock : ℕ → Clock) (world : World) (index : ℕ) : List Event :=
  let state := (world.app index).world.screen.state
  (state.retrieveEvents (clock index) state.currentTime).toArray

section Devices
variable (clock : ℕ → Clock)

def initial (today : ℕ → ℤ) : World where
  shared := { store := .empty, contents := .empty }
  own := fun index => device (.initial (clock index) (today index))

def perform (index : ℕ) (shared : Server) (own : Device) (action : EventDetails.Action) : Option (Server × Device) :=
  (EventDetails.step (clock index) (own.app shared) action).map fun state => (server state, device state)

def step : World → ℕ × EventDetails.Action → Option World := Sharing.step (perform clock)

end Devices

/-! ## What the devices rely on -/

structure Sound (server : Server) : Prop where
  refines : server.contents.Refines server.store
  stored : StoreOrigin server.store

def Grows (server server' : Server) : Prop := KeepsCalendars server.store server'.store

section Rely
variable {clock : Clock} {state next : EventDetails.State}

theorem keepsCalendars_rfl (store : Store) : KeepsCalendars store store := fun _ doc member => ⟨doc, member, rfl⟩

theorem keepsCalendars_step {action : EventDetails.Action} (moved : EventDetails.step clock state action = some next) :
    KeepsCalendars state.world.store next.world.store := by
  cases action with
  | write write =>
    obtain ⟨store, written, rfl⟩ := Option.map_eq_some_iff.mp moved
    exact keepsCalendars_write written
  | callback action =>
    obtain ⟨world, called, rfl⟩ := Option.map_eq_some_iff.mp moved
    obtain ⟨_, _, rfl⟩ := Option.map_eq_some_iff.mp called
    exact keepsCalendars_rfl _
  | press calendar event =>
    obtain ⟨_, _, rfl⟩ := step_browses rfl moved
    exact keepsCalendars_rfl _
  | back =>
    obtain ⟨_, _, rfl⟩ := step_browses rfl moved
    exact keepsCalendars_rfl _
  | edit =>
    obtain ⟨_, _, rfl⟩ := step_browses rfl moved
    exact keepsCalendars_rfl _
  | cancel =>
    obtain ⟨_, _, rfl⟩ := step_browses rfl moved
    exact keepsCalendars_rfl _
  | confirmDeletion =>
    obtain ⟨opened, _, rfl⟩ := Option.map_eq_some_iff.mp moved
    unfold EventDetails.State.confirmDeletion
    split
    next => exact keepsCalendars_rfl _
    next => exact keepsCalendars_rfl _
  | deletionAnswered position succeeds =>
    obtain ⟨request, _, rfl⟩ := Option.map_eq_some_iff.mp moved
    unfold EventDetails.State.deletionAnswered
    split
    next => exact fun _ doc member => ⟨doc, member, rfl⟩
    next => exact keepsCalendars_rfl _

theorem kept_of_grows {shared shared' : Server} {own : Device} (kept : Kept (own.app shared))
    (grows : Grows shared shared') (sound : Sound shared') : Kept (own.app shared') where
  recorded := kept.recorded.of_same rfl rfl (List.Subset.refl _)
  informed := kept.informed.store grows
  refines := sound.refines
  stored := sound.stored
  details := kept.details
  form := kept.form
  requests := kept.requests

end Rely

theorem guarantees (clock : ℕ → Clock) :
    Sharing.Guarantees (perform clock) Sound (fun _ server device => Kept (device.app server)) Grows where
  guaranteed := by
    intro index shared own action shared' own' sound kept performed
    obtain ⟨state, moved, same⟩ := Option.map_eq_some_iff.mp performed
    cases same
    have after : Kept state := kept_step kept moved
    exact ⟨⟨after.refines, after.stored⟩, after, keepsCalendars_step moved⟩
  relied := fun kept grows sound => kept_of_grows kept grows sound

theorem lawful_initial (clock : ℕ → Clock) (today : ℕ → ℤ) :
    Sharing.Lawful Sound (fun _ server device => Kept (device.app server)) (initial clock today) where
  common := ⟨.empty, fun _ _ _ member => absurd member List.not_mem_nil⟩
  kept := fun index => kept_initial (clock index) (today index)

/-! ## Agreement -/

section Agreement
variable {clock : Clock} {user : String} {first second : EventDetails.State}

theorem docs_perm (keptFirst : Kept first) (keptSecond : Kept second) (store : first.world.store = second.world.store)
    (readFirst : Read clock user first.world) (readSecond : Read clock user second.world)
    (sameMonth : clock.month.unitOf first.world.screen.state.currentTime =
      clock.month.unitOf second.world.screen.state.currentTime) {calendar : String} {report report' : EventsReport}
    (found : first.world.reports calendar = some report) (found' : second.world.reports calendar = some report') :
    report.docs.Perm report'.docs := by
  have unique := (keptFirst.recorded.unique calendar report found).of_map _
  have unique' := (keptSecond.recorded.unique calendar report' found').of_map _
  apply (List.perm_ext_iff_of_nodup unique unique').mpr
  intro event
  rw [mem_report_iff keptFirst.recorded readFirst.settled found (readFirst.displayed calendar report found),
    mem_report_iff keptSecond.recorded readSecond.settled found' (readSecond.displayed calendar report' found'),
    store, StartsInMonth, StartsInMonth, sameMonth]

theorem reported_of_reported (keptFirst : Kept first) (store : first.world.store = second.world.store)
    (readFirst : Read clock user first.world) (readSecond : Read clock user second.world) {calendar : String}
    {report : EventsReport} (found : first.world.reports calendar = some report) :
    ∃ report', second.world.reports calendar = some report' := by
  obtain ⟨doc, present, rfl⟩ := calendar_of_report keptFirst readFirst found
  exact Option.isSome_iff_exists.mp (readSecond.reported doc (store ▸ present))

theorem agenda_perm (keptFirst : Kept first) (keptSecond : Kept second) (store : first.world.store = second.world.store)
    (readFirst : Read clock user first.world) (readSecond : Read clock user second.world)
    (sameDay : clock.day.unitOf first.world.screen.state.currentTime =
      clock.day.unitOf second.world.screen.state.currentTime) :
    (first.world.screen.state.retrieveEvents clock first.world.screen.state.currentTime).toArray.Perm
      (second.world.screen.state.retrieveEvents clock second.world.screen.state.currentTime).toArray := by
  have sameMonth : clock.month.unitOf first.world.screen.state.currentTime =
      clock.month.unitOf second.world.screen.state.currentTime := congrArg clock.monthOfDay.unitOf sameDay
  have union := (retrieveEvents_union clock first.world.screen.state first.world.screen.state.currentTime).1
  have union' := (retrieveEvents_union clock second.world.screen.state second.world.screen.state.currentTime).1
  simp only [listed_congr sameDay] at union
  refine (union.trans ?_).trans union'.symm
  apply keptFirst.recorded.entries.flatMap_perm keptSecond.recorded.entries
  intro calendar
  cases found : first.world.reports calendar with
  | none =>
    have unreported : second.world.reports calendar = none := by
      apply Option.eq_none_iff_forall_ne_some.mpr
      intro report' found'
      obtain ⟨report, reported⟩ := reported_of_reported keptSecond store.symm readSecond readFirst found'
      cases found.symm.trans reported
    rw [unreported]
  | some report =>
    obtain ⟨report', found'⟩ := reported_of_reported keptFirst store readFirst readSecond found
    have docs := docs_perm keptFirst keptSecond store readFirst readSecond sameMonth found found'
    have entry := (keptFirst.recorded.entry_perm found).trans
      (docs.trans (keptSecond.recorded.entry_perm found').symm)
    rw [found']
    simpa using entry.filter _

end Agreement

/-- A device that has read its month shows what there is; two devices of an account
and of one local time that have selected the same day list the same events. -/
structure Converged (clock : ℕ → Clock) (world : World) : Prop where
  shows : ∀ index user, Read (clock index) user (world.app index).world →
    ShowsContents (clock index) user (world.app index)
  agree : ∀ index other user, clock index = clock other → Read (clock index) user (world.app index).world →
    Read (clock other) user (world.app other).world →
    (clock index).day.unitOf (world.app index).world.screen.state.currentTime =
      (clock other).day.unitOf (world.app other).world.screen.state.currentTime →
    (world.agenda clock index).Perm (world.agenda clock other)

/-- In every run of any number of devices from an empty store, whatever they write and
delete and in whatever order their steps come, the devices that have read their
months have converged. -/
theorem agendas_converge (clock : ℕ → Clock) (today : ℕ → ℤ) (actions : List (ℕ × EventDetails.Action)) :
    Always (step clock) (Converged clock) (initial clock today) actions := by
  apply (Sharing.always_of_guarantees (guarantees clock) (lawful_initial clock today) actions).mono
  intro world lawful
  constructor
  case shows => exact fun index user read => showsContents (lawful.kept index) read
  case agree =>
    intro index other user zone read read' sameDay
    rw [← zone] at read' sameDay
    unfold World.agenda
    rw [← zone]
    exact agenda_perm (lawful.kept index) (lawful.kept other) rfl read read' sameDay

/-! ## Ann's two devices -/

def lunchQuery : EventsQuery where
  user := "ann"
  calendar := "PlenR Calendar"
  time := lunch.start

def annsLunch : List (ℕ × EventDetails.Action) :=
  [(0, .write (.signIn "ann")), (1, .callback (.authStateChanged (some "ann"))),
    (0, .callback (.authStateChanged (some "ann"))), (1, .callback (.calendarsSnapshot 0 [Store.plenrCalendar])),
    (0, .write (.onAddEvent "ann" lunch)), (0, .callback (.calendarsSnapshot 0 [Store.plenrCalendar])),
    (0, .callback (.eventsSnapshot 0 [lunch] "entry")), (1, .callback (.eventsSnapshot 0 [lunch] "other"))]

theorem read_lunch (freshId : String) {world : MyPlenR.World} (signedIn : world.screen.state.currentUser = some "ann")
    (listeners : world.screen.eventsListeners = [{ query := lunchQuery, delivered := some [lunch] }])
    (time : world.screen.state.currentTime = lunch.start)
    (calendars : world.store.calendars "ann" = [Store.plenrCalendar])
    (events : world.store.events "ann" "PlenR Calendar" = [lunch])
    (reports : world.reports = Function.update (fun _ => none) "PlenR Calendar"
      (some { query := lunchQuery, docs := [lunch], freshId := freshId })) : Read universalClock "ann" world := by
  constructor
  case settled =>
    constructor
    case signedIn => exact signedIn
    case listening =>
      intro doc member
      rw [calendars] at member
      obtain rfl := List.mem_singleton.mp member
      rw [listeners]
      exact ⟨_, List.mem_singleton_self _, rfl, signedIn, by rw [time]; rfl⟩
    case delivered =>
      intro listener member _
      rw [listeners] at member
      obtain rfl := List.mem_singleton.mp member
      refine ⟨[lunch], rfl, ?_⟩
      unfold EventsQuery.result
      have all : world.store.events lunchQuery.user lunchQuery.calendar = [lunch] := events
      rw [all]
      decide
  case reported =>
    intro doc member
    rw [calendars] at member
    obtain rfl := List.mem_singleton.mp member
    rw [reports]
    rfl
  case displayed =>
    intro calendar report found
    rw [reports, update_eq_some_iff] at found
    obtain ⟨rfl, rfl⟩ | ⟨_, before⟩ := found
    · exact ⟨signedIn, by rw [time]; rfl⟩
    · cases before

/-- The lunch entered on one device is listed on the other. -/
theorem agendas_converge_ann : ∃ world, run (step fun _ => universalClock)
      (initial (fun _ => universalClock) fun _ => lunch.start) annsLunch = some world ∧
    lunch ∈ world.agenda (fun _ => universalClock) 0 ∧
    (world.agenda (fun _ => universalClock) 0).Perm (world.agenda (fun _ => universalClock) 1) := by
  refine ⟨_, rfl, ?_⟩
  have always := agendas_converge (fun _ => universalClock) (fun _ => lunch.start) annsLunch
  have converged := (((((((always.2 _ rfl).2 _ rfl).2 _ rfl).2 _ rfl).2 _ rfl).2 _ rfl).2 _ rfl).2 _ rfl
  have listed : Listed universalClock lunch.start lunch := by decide
  constructor
  · have shows := converged.shows 0 "ann" (read_lunch "entry" rfl rfl rfl rfl rfl rfl)
    exact (shows lunch).mpr ⟨⟨Store.plenrCalendar, List.mem_singleton_self _, rfl⟩, rfl, listed⟩
  · exact converged.agree 0 1 "ann" rfl (read_lunch "entry" rfl rfl rfl rfl rfl rfl)
      (read_lunch "other" rfl rfl rfl rfl rfl rfl) rfl

end PlenR.Screens.Devices
