import PlenR.Foundation.KeyedList
import PlenR.Foundation.Run
import PlenR.Screens.MyPlenR
import PlenR.Util.Parse

/-! Runs of the calendar screen, and what its entries were made from.

A world is a store together with the screen; the store changes at any time. Two
records of the run stand beside them: the last report for each calendar since
the entries were cleared, and what the listeners of the displayed month reported
last since the page was opened. In every run the entries are exactly the parsed
last reports, whichever listeners they came from.
-/

set_option autoImplicit false

namespace PlenR.Screens.MyPlenR

open PlenR.Time PlenR.Util Foundation Foundation.Run Foundation.Snapshots

structure EventsReport where
  query : EventsQuery
  docs : List Event
  freshId : String

def EventsReport.entry (report : EventsReport) : Calendar :=
  Calendar.parse report.freshId report.docs report.query.calendar

structure World where
  store : Store
  screen : Screen
  reports : String → Option EventsReport
  shown : String → Option (List Event)

inductive WorldAction where
  | write (store : Store)
  | callback (action : Action)

def Displayed (clock : Clock) (screen : Screen) (query : EventsQuery) : Prop :=
  screen.state.currentUser = some query.user ∧
    clock.month.unitOf query.time = clock.month.unitOf screen.state.currentTime

instance (clock : Clock) (screen : Screen) (query : EventsQuery) : Decidable (Displayed clock screen query) :=
  inferInstanceAs (Decidable (_ ∧ _))

def Screen.queryAt (screen : Screen) (position : ℕ) : Option EventsQuery :=
  screen.eventsListeners[position]?.map Listener.query

namespace World

def initial (clock : Clock) (store : Store) (today : ℤ) : World where
  store := store
  screen := .initial clock today
  reports := fun _ => none
  shown := fun _ => none

def reportsAfter (world : World) : Action → String → Option EventsReport
  | .eventsSnapshot position docs freshId =>
      match world.screen.queryAt position with
      | some query => Function.update world.reports query.calendar
          (some { query := query, docs := docs, freshId := freshId })
      | none => world.reports
  | .authStateChanged none => fun _ => none
  | _ => world.reports

def shownAfter (clock : Clock) (world : World) : Action → String → Option (List Event)
  | .eventsSnapshot position docs _ =>
      match world.screen.queryAt position with
      | some query =>
          if Displayed clock world.screen query then Function.update world.shown query.calendar (some docs)
          else world.shown
      | none => world.shown
  | .authStateChanged none => fun _ => none
  -- only a scroll that turns the page opens another month
  | .pageChange today currentOffset =>
      if (world.screen.state.handlePageChange clock today currentOffset).2.isSome then fun _ => none
      else world.shown
  | _ => world.shown

def step (clock : Clock) (world : World) : WorldAction → Option World
  | .write store => some { world with store := store }
  | .callback action => (MyPlenR.step clock world.store world.screen action).map fun screen =>
      { world with
        screen := screen
        reports := world.reportsAfter action
        shown := world.shownAfter clock action }

end World

/-! ## What a callback does to the entries -/

section Callback
variable {clock : Clock} {store : Store} {screen next : Screen}

theorem eventsSnapshot_cases {position : ℕ} {docs : List Event} {freshId : String}
    (moved : step clock store screen (.eventsSnapshot position docs freshId) = some next) :
    ∃ query, screen.queryAt position = some query ∧
      Report (EventsQuery.result clock store) screen.eventsListeners position docs query next.eventsListeners ∧
      next.state = screen.state.showEvents query.calendar freshId docs := by
  obtain ⟨⟨query, listeners⟩, reported, rfl⟩ := Option.map_eq_some_iff.mp moved
  have report := deliver_report reported
  exact ⟨query, report.source, report, rfl⟩

end Callback

/-! ## The entries of a run -/

/-- The entries are the parsed last reports, one for each calendar that reported,
and each of these is still the last report of the listener it came from. -/
structure Recorded (world : World) : Prop where
  named : ∀ calendar report, world.reports calendar = some report → report.query.calendar = calendar
  unique : ∀ calendar report, world.reports calendar = some report → (report.docs.map Event.id).Nodup
  remembered : ∀ calendar report, world.reports calendar = some report →
    { query := report.query, delivered := some report.docs } ∈ world.screen.eventsListeners
  entries : Holds Calendar.title (fun calendar => (world.reports calendar).map EventsReport.entry)
    world.screen.state.local_calendars

theorem result_unique (clock : Clock) (store : Store) (query : EventsQuery) :
    ((query.result clock store).map Event.id).Nodup :=
  (store.events_unique query.user query.calendar).sublist (List.filter_sublist.map Event.id)

namespace Recorded
variable {clock : Clock} {world next : World}

theorem cleared (signedOut : next.reports = fun _ => none)
    (state : next.screen.state.local_calendars = []) : Recorded next where
  named := by
    rw [signedOut]
    exact nofun
  unique := by
    rw [signedOut]
    exact nofun
  remembered := by
    rw [signedOut]
    exact nofun
  entries := by
    rw [signedOut, state]
    exact Holds.empty

theorem initial (clock : Clock) (store : Store) (today : ℤ) : Recorded (.initial clock store today) :=
  cleared rfl rfl

theorem of_same (recorded : Recorded world) (reports : next.reports = world.reports)
    (entries : next.screen.state.local_calendars = world.screen.state.local_calendars)
    (listeners : world.screen.eventsListeners ⊆ next.screen.eventsListeners) : Recorded next where
  named := by
    rw [reports]
    exact recorded.named
  unique := by
    rw [reports]
    exact recorded.unique
  remembered := by
    rw [reports]
    exact fun calendar report found => listeners (recorded.remembered calendar report found)
  entries := by
    rw [reports, entries]
    exact recorded.entries

/-- A report replaces the record and the entry of its calendar. The records of other
calendars came from listeners of other queries. -/
theorem of_report (recorded : Recorded world) {query : EventsQuery} {docs : List Event} {freshId : String}
    {store : Store} {position : ℕ} (report : Report (EventsQuery.result clock store)
      world.screen.eventsListeners position docs query next.screen.eventsListeners)
    (reports : next.reports = Function.update world.reports query.calendar (some ⟨query, docs, freshId⟩))
    (state : next.screen.state = world.screen.state.showEvents query.calendar freshId docs) : Recorded next where
  named := by
    intro calendar last found
    rw [reports, update_eq_some_iff] at found
    obtain ⟨rfl, rfl⟩ | ⟨_, before⟩ := found
    · rfl
    · exact recorded.named calendar last before
  unique := by
    intro calendar last found
    rw [reports, update_eq_some_iff] at found
    obtain ⟨rfl, rfl⟩ | ⟨_, before⟩ := found
    · exact (report.current.map Event.id).nodup_iff.mpr (result_unique clock store query)
    · exact recorded.unique calendar last before
  remembered := by
    intro calendar last found
    rw [reports, update_eq_some_iff] at found
    obtain ⟨rfl, rfl⟩ | ⟨different, before⟩ := found
    · exact report.remembered
    · have elsewhere : last.query ≠ query := by
        intro again
        exact different ((recorded.named calendar last before).symm.trans (congrArg EventsQuery.calendar again))
      exact report.others _ (recorded.remembered calendar last before) elsewhere
  entries := by
    have replaced := recorded.entries.replace (EventsReport.entry ⟨query, docs, freshId⟩)
    simp only [EventsReport.entry, Calendar.parse_title] at replaced
    rw [state, reports, map_update]
    exact replaced

theorem step (recorded : Recorded world) {action : WorldAction} (moved : world.step clock action = some next) :
    Recorded next := by
  cases action with
  | write store =>
    cases moved
    exact recorded.of_same rfl rfl (List.Subset.refl _)
  | callback action =>
    obtain ⟨screen, called, rfl⟩ := Option.map_eq_some_iff.mp moved
    cases action with
    | authStateChanged user =>
      cases called
      cases user with
      | none => exact cleared rfl rfl
      | some uid => exact recorded.of_same rfl rfl (List.Subset.refl _)
    | calendarsSnapshot position docs =>
      obtain ⟨_, _, rfl⟩ := Option.map_eq_some_iff.mp called
      exact recorded.of_same rfl rfl (List.subset_append_left _ _)
    | eventsSnapshot position docs freshId =>
      obtain ⟨query, source, report, state⟩ := eventsSnapshot_cases called
      apply recorded.of_report report _ state
      simp only [World.reportsAfter, source]
    | pageChange today currentOffset =>
      cases called
      exact recorded.of_same rfl (by simp) (by simp)
    | daySelect day =>
      cases called
      exact recorded.of_same rfl rfl (List.Subset.refl _)

theorem always (clock : Clock) (store : Store) (today : ℤ) (actions : List WorldAction) :
    Always (World.step clock) Recorded (.initial clock store today) actions :=
  always_of_step (fun _ _ _ recorded moved => recorded.step moved) actions (.initial clock store today)

theorem entry_perm (recorded : Recorded world) {calendar : String} {report : EventsReport}
    (found : world.reports calendar = some report) : report.entry.eventsList.toArray.Perm report.docs :=
  (Calendar.parse_stableSort _ _ _ (recorded.unique calendar report found)).perm

theorem filter_eq (recorded : Recorded world) {calendar : String} {report : EventsReport}
    (found : world.reports calendar = some report) :
    world.screen.state.local_calendars.filter (fun entry => entry.title = calendar) = [report.entry] := by
  rw [recorded.entries calendar]
  simp [found]

end Recorded
end PlenR.Screens.MyPlenR
