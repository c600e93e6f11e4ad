import PlenR.Screens.Entries

/-! The agenda of the selected day, once the displayed month has been read.

The displayed month is queried by the start of an event, while `getEvents` lists
an event on every day from its start to its end. When every listener of the
displayed month has reported what the store has now, the entries made from its
reports hold exactly the events that start in it, so the agenda misses every
event of an earlier month that lasts until the selected day, unless the entry of
a listener of another month or account happens to hold it.
-/

set_option autoImplicit false

namespace PlenR.Screens.MyPlenR

open PlenR.Time PlenR.Util Foundation.Run Foundation.Snapshots

/-! ## The listed events -/

section Retrieve
variable {clock : Clock}

theorem foldl_merge_perm (date : ℤ) (calendars : List Calendar) (retrieved : SortedList Event) :
    (calendars.foldl (fun retrieved calendar =>
        SortedList.merge Event.eventComparator retrieved (calendar.getEvents clock date)) retrieved).toArray.Perm
      (retrieved.toArray ++
        calendars.flatMap fun calendar => (calendar.getEvents clock date).toArray) := by
  induction calendars generalizing retrieved with
  | nil => simp
  | cons calendar calendars ih =>
    rw [List.foldl_cons, List.flatMap_cons, ← List.append_assoc]
    apply (ih _).trans
    exact (SortedList.toArray_merge_perm _ _).append_right _

theorem retrieveEvents_perm (state : State) (date : ℤ) :
    (state.retrieveEvents clock date).toArray.Perm
      (state.local_calendars.flatMap fun calendar => (calendar.getEvents clock date).toArray) :=
  foldl_merge_perm date state.local_calendars .empty

theorem mem_retrieveEvents {state : State} {date : ℤ} {event : Event} :
    event ∈ (state.retrieveEvents clock date).toArray ↔
      ∃ calendar ∈ state.local_calendars, event ∈ calendar.eventsList.toArray ∧
        Calendar.occursOn clock date event = true := by
  rw [(retrieveEvents_perm state date).mem_iff, List.mem_flatMap]
  simp only [Calendar.getEvents, SortedList.toArray_filter, List.mem_filter]

theorem startsInMonth_iff {time : ℤ} {event : Event} :
    startsInMonth clock time event = true ↔ clock.month.unitOf event.start = clock.month.unitOf time := by
  rw [← clock.month.within_iff]
  simp [startsInMonth, and_comm]

theorem mem_result {store : Store} {query : EventsQuery} {event : Event} :
    event ∈ query.result clock store ↔ event ∈ store.events query.user query.calendar ∧
      clock.month.unitOf event.start = clock.month.unitOf query.time := by
  rw [EventsQuery.result, List.mem_filter, startsInMonth_iff]

end Retrieve

/-! ## The displayed month, read completely -/

/-- Every calendar of the signed-in user is listened to for the displayed month, and
every live listener of the displayed month has reported the documents the store has now. -/
structure Settled (clock : Clock) (user : String) (world : World) : Prop where
  signedIn : world.screen.state.currentUser = some user
  listening : ∀ doc ∈ world.store.calendars user, ∃ listener ∈ world.screen.eventsListeners,
    listener.query.calendar = doc.id ∧ Displayed clock world.screen listener.query
  delivered : ∀ listener ∈ world.screen.eventsListeners, Displayed clock world.screen listener.query →
    ∃ docs, listener.delivered = some docs ∧ docs.Perm (listener.query.result clock world.store)

def Covering (clock : Clock) (user : String) (world : World) (event : Event) : Prop :=
  (∃ doc ∈ world.store.calendars user, event ∈ world.store.events user doc.id) ∧
    Calendar.CoversDay clock world.screen.state.currentTime event

def StartsInMonth (clock : Clock) (world : World) (event : Event) : Prop :=
  clock.month.unitOf event.start = clock.month.unitOf world.screen.state.currentTime

/-- A calendar that stores the event has its entry from a listener of the displayed month. -/
def EntryDisplayed (clock : Clock) (user : String) (world : World) (event : Event) : Prop :=
  ∃ calendar report, world.reports calendar = some report ∧ Displayed clock world.screen report.query ∧
    event ∈ world.store.events user calendar

/-- The event is held by an entry from a listener of another month or account. -/
def LeftBehind (clock : Clock) (world : World) (event : Event) : Prop :=
  ∃ calendar report, world.reports calendar = some report ∧ ¬ Displayed clock world.screen report.query ∧
    event ∈ report.docs

section Settled
variable {clock : Clock} {user : String} {world : World}

theorem mem_report_iff (recorded : Recorded world) (settled : Settled clock user world) {calendar : String}
    {report : EventsReport} (found : world.reports calendar = some report)
    (displayed : Displayed clock world.screen report.query) (event : Event) :
    event ∈ report.docs ↔ event ∈ world.store.events user calendar ∧ StartsInMonth clock world event := by
  obtain ⟨docs, same, current⟩ := settled.delivered _ (recorded.remembered calendar report found) displayed
  obtain rfl : report.docs = docs := Option.some.inj same
  have account : report.query.user = user := Option.some.inj (displayed.1.symm.trans settled.signedIn)
  have named := recorded.named calendar report found
  rw [current.mem_iff, mem_result, account, named, displayed.2, StartsInMonth]

theorem mem_local_calendars (recorded : Recorded world) {entry : Calendar} :
    entry ∈ world.screen.state.local_calendars ↔
      ∃ report, world.reports entry.title = some report ∧ report.entry = entry := by
  rw [recorded.entries.mem_iff]
  simp [Option.map_eq_some_iff]

theorem listed_iff_reported (recorded : Recorded world) {event : Event}
    (covers : Calendar.CoversDay clock world.screen.state.currentTime event) :
    event ∈ (world.screen.state.retrieveEvents clock world.screen.state.currentTime).toArray ↔
      ∃ calendar report, world.reports calendar = some report ∧ event ∈ report.docs := by
  rw [mem_retrieveEvents]
  constructor
  · intro ⟨entry, listed, inside, _⟩
    obtain ⟨report, found, rfl⟩ := (mem_local_calendars recorded).mp listed
    exact ⟨_, report, found, (recorded.entry_perm found).mem_iff.mp inside⟩
  · intro ⟨calendar, report, found, inside⟩
    have title : report.entry.title = calendar :=
      (Calendar.parse_title _ _ _).trans (recorded.named calendar report found)
    have listed : report.entry ∈ world.screen.state.local_calendars :=
      (mem_local_calendars recorded).mpr ⟨report, title ▸ found, rfl⟩
    have entry := (recorded.entry_perm found).mem_iff.mpr inside
    exact ⟨report.entry, listed, entry, Calendar.occursOn_of_coversDay covers⟩

theorem listed_iff (recorded : Recorded world) (settled : Settled clock user world) {event : Event}
    (covers : Calendar.CoversDay clock world.screen.state.currentTime event) :
    event ∈ (world.screen.state.retrieveEvents clock world.screen.state.currentTime).toArray ↔
      StartsInMonth clock world event ∧ EntryDisplayed clock user world event ∨ LeftBehind clock world event := by
  rw [listed_iff_reported recorded covers]
  constructor
  · intro ⟨calendar, report, found, inside⟩
    -- an entry is current when its listener is one of the displayed month's
    by_cases displayed : Displayed clock world.screen report.query
    · have held := (mem_report_iff recorded settled found displayed event).mp inside
      exact .inl ⟨held.2, calendar, report, found, displayed, held.1⟩
    · exact .inr ⟨calendar, report, found, displayed, inside⟩
  · intro reason
    cases reason with
    | inl here =>
      obtain ⟨starts, calendar, report, found, displayed, stored⟩ := here
      have inside := (mem_report_iff recorded settled found displayed event).mpr ⟨stored, starts⟩
      exact ⟨calendar, report, found, inside⟩
    | inr elsewhere =>
      obtain ⟨calendar, report, found, _, inside⟩ := elsewhere
      exact ⟨calendar, report, found, inside⟩

end Settled

/-- In every settled state of a run, the agenda lists all stored events over the
selected day exactly if each of them starts in the displayed month and the entry of
its calendar is the displayed month's, entries of other listeners aside. -/
theorem agenda_complete_iff_startsInMonth (clock : Clock) (store : Store) (today : ℤ) (user : String)
    (actions : List WorldAction) :
    Always (World.step clock) (fun world => Settled clock user world →
        ((∀ event, Covering clock user world event →
            event ∈ (world.screen.state.retrieveEvents clock world.screen.state.currentTime).toArray) ↔
          ∀ event, Covering clock user world event →
            StartsInMonth clock world event ∧ EntryDisplayed clock user world event ∨
              LeftBehind clock world event))
      (.initial clock store today) actions := by
  apply (Recorded.always clock store today actions).mono
  intro world recorded settled
  apply forall₂_congr
  intro event covering
  exact listed_iff recorded settled covering.2

/-! ## A trip over the end of July -/

-- 30 July to 2 August 2018
def trip : Event := .plain "trip" 1532937600000 1533211200000

-- noon of 1 August 2018
def firstOfAugust : ℤ := 1533124800000

def readAugust : List WorldAction :=
  [.callback (.authStateChanged (some "ann")), .callback (.calendarsSnapshot 0 [Store.plenrCalendar]),
    .callback (.eventsSnapshot 0 [] "entry")]

/-- On 1 August everything of August has been read, and the trip is not listed. -/
theorem trip_missing_in_august :
    ¬ Always (World.step universalClock) (fun world => Settled universalClock "ann" world →
        ∀ event, Covering universalClock "ann" world event →
          event ∈ (world.screen.state.retrieveEvents universalClock world.screen.state.currentTime).toArray)
      (.initial universalClock (.single "ann" Store.plenrCalendar [trip] (by decide)) firstOfAugust) readAugust := by
  intro always
  have complete := ((always.2 _ rfl).2 _ rfl).2 _ rfl
  have listed := complete (by
    constructor
    case signedIn => rfl
    case listening =>
      intro doc member
      obtain rfl : doc = Store.plenrCalendar := List.mem_singleton.mp member
      exact ⟨_, List.mem_singleton_self _, rfl, by decide⟩
    case delivered =>
      intro listener member _
      obtain rfl := List.mem_singleton.mp member
      exact ⟨[], rfl, by decide⟩)
  have covering := listed trip ⟨⟨Store.plenrCalendar, List.mem_singleton_self _, List.mem_singleton_self _⟩, by decide⟩
  revert covering
  decide

end PlenR.Screens.MyPlenR
