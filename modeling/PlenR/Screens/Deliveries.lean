import Mathlib.Data.List.Induction
import PlenR.Screens.Entries
import PlenR.Screens.Profile
import PlenR.Util.Parse

/-! What the calendar screen and the profile make of events snapshots.

Listeners multiply, since each report of the calendars collection registers new
ones, so a session is taken as snapshots in any order, each for the calendar
its listener was made for. Both screens hold a map from calendars to entries in
a list: one removes the old entry and appends the new, the other looks for the
index of the old row and overwrites it there.
-/

set_option autoImplicit false

namespace PlenR.Screens.Deliveries

open PlenR.Time PlenR.Util Foundation

/-- A snapshot of the events of a calendar. `title` is the title its document
had, `freshId` what `idCreator` draws for the entry. -/
structure Delivery where
  calendar : String
  title : Option String
  docs : List Event
  freshId : String
  unique : (docs.map Event.id).Nodup

namespace Delivery

def entry (delivery : Delivery) : Calendar := Calendar.parse delivery.freshId delivery.docs delivery.calendar

def row (delivery : Delivery) : Profile.Row where
  id := delivery.calendar
  title := delivery.title
  numOfEvents := delivery.docs.length

end Delivery

def lastDelivery (deliveries : List Delivery) (calendar : String) : Option Delivery :=
  (deliveries.filter fun delivery => delivery.calendar = calendar).getLast?

theorem lastDelivery_concat (deliveries : List Delivery) (delivery : Delivery) :
    lastDelivery (deliveries ++ [delivery]) =
      Function.update (lastDelivery deliveries) delivery.calendar (some delivery) := by
  funext calendar
  unfold lastDelivery
  rw [List.filter_append]
  by_cases same : calendar = delivery.calendar
  · simp [same]
  · have different : ¬ delivery.calendar = calendar := fun again => same again.symm
    rw [Function.update_of_ne same]
    simp [different]

/-! ## The calendar screen -/

inductive Callback where
  | delivery (delivery : Delivery)
  | pageChange (today : ℤ) (currentOffset : ℚ)
  | daySelect (day : ℤ)

def Callback.delivered? : Callback → Option Delivery
  | .delivery snapshot => some snapshot
  | _ => none

section Calendars
variable (clock : Clock)

def onCallback (state : MyPlenR.State) : Callback → MyPlenR.State
  | .delivery delivery => state.showEvents delivery.calendar delivery.freshId delivery.docs
  | .pageChange today currentOffset => (state.handlePageChange clock today currentOffset).1
  | .daySelect day => state.selectDay clock day

def session (screen : MyPlenR.Screen) (user : String) (callbacks : List Callback) : MyPlenR.State :=
  callbacks.foldl (onCallback clock) ((screen.authStateChanged none).authStateChanged (some user)).state

def entriesOf (state : MyPlenR.State) (calendar : String) : List Calendar :=
  state.local_calendars.filter fun entry => entry.title = calendar

variable {clock}

theorem onCallback_of_step {store : Store} {screen next : MyPlenR.Screen} {action : MyPlenR.Action}
    (sameUser : ∀ user, action ≠ .authStateChanged user) (moved : MyPlenR.step clock store screen action = some next) :
    next.state = screen.state ∨ ∃ callback, next.state = onCallback clock screen.state callback := by
  cases action with
  | authStateChanged user => exact absurd rfl (sameUser user)
  | calendarsSnapshot position docs =>
    obtain ⟨_, _, rfl⟩ := Option.map_eq_some_iff.mp moved
    exact .inl rfl
  | eventsSnapshot position docs freshId =>
    obtain ⟨query, source, report, state⟩ := MyPlenR.eventsSnapshot_cases moved
    have unique := (report.current.map Event.id).nodup_iff.mpr (MyPlenR.result_unique clock store query)
    exact .inr ⟨.delivery ⟨query.calendar, none, docs, freshId, unique⟩, state⟩
  | pageChange today currentOffset =>
    cases moved
    exact .inr ⟨.pageChange today currentOffset, by simp [onCallback]⟩
  | daySelect day =>
    cases moved
    exact .inr ⟨.daySelect day, rfl⟩

theorem session_holds (screen : MyPlenR.Screen) (user : String) (callbacks : List Callback) :
    Holds Calendar.title (fun calendar => (lastDelivery (callbacks.filterMap Callback.delivered?) calendar).map
      Delivery.entry) (session clock screen user callbacks).local_calendars := by
  induction callbacks using List.reverseRecOn with
  | nil => exact Holds.empty
  | append_singleton callbacks callback ih =>
    unfold session at ih ⊢
    rw [List.foldl_append, List.filterMap_append]
    cases callback with
    | delivery delivery =>
      have replaced := ih.replace delivery.entry
      simp only [Delivery.entry, Calendar.parse_title] at replaced
      simp only [List.filterMap_cons, Callback.delivered?, List.filterMap_nil, lastDelivery_concat, map_update]
      exact replaced
    | pageChange today currentOffset =>
      simpa [Callback.delivered?, onCallback, List.filterMap_cons] using ih
    | daySelect day =>
      simpa [Callback.delivered?, onCallback, MyPlenR.State.selectDay, List.filterMap_cons] using ih

theorem entriesOf_other (state : MyPlenR.State) (calendar freshId : String) (docs : List Event) {other : String}
    (different : other ≠ calendar) :
    entriesOf (state.showEvents calendar freshId docs) other = entriesOf state other := by
  have elsewhere : other ≠ (Calendar.parse freshId docs calendar).title := by
    rw [Calendar.parse_title]
    exact different
  have kept := filter_replace_other Calendar.title state.local_calendars elsewhere
  rw [Calendar.parse_title] at kept
  exact kept

end Calendars

/-! ## The profile -/

section Profile

def profileSession (screen : Profile.Screen) (user : String) (deliveries : List Delivery) : Profile.State :=
  deliveries.foldl (fun state delivery => state.showRow delivery.row)
    ((screen.authStateChanged none).authStateChanged (some user)).state

def rowsOf (state : Profile.State) (calendar : String) : List Profile.Row :=
  state.calendarList.filter fun row => row.id = calendar

theorem profileStep_state {store : Store} {screen next : Profile.Screen} {action : Profile.Action}
    (sameUser : ∀ user, action ≠ .authStateChanged user) (moved : Profile.step store screen action = some next) :
    next.state = screen.state ∨ ∃ delivery : Delivery, next.state = screen.state.showRow delivery.row := by
  cases action with
  | authStateChanged user => exact absurd rfl (sameUser user)
  | calendarsSnapshot position docs =>
    obtain ⟨_, _, rfl⟩ := Option.map_eq_some_iff.mp moved
    exact .inl rfl
  | eventsSnapshot position docs =>
    obtain ⟨⟨query, listeners⟩, reported, rfl⟩ := Option.map_eq_some_iff.mp moved
    have unique := ((Foundation.Snapshots.deliver_report reported).current.map Event.id).nodup_iff.mpr
      (store.events_unique query.user query.calendar)
    exact .inr ⟨⟨query.calendar, query.title, docs, "", unique⟩, rfl⟩

/-- Both branches of the upsert set the row of the calendar. -/
theorem showRow_holds {contents : String → Option Profile.Row} {state : Profile.State}
    (holds : Holds Profile.Row.id contents state.calendarList) (wrapper : Profile.Row) :
    Holds Profile.Row.id (Function.update contents wrapper.id (some wrapper))
      (state.showRow wrapper).calendarList := by
  unfold Profile.State.showRow
  cases found : Profile.indexOfRow wrapper.id state.calendarList with
  | none => exact holds.append (Profile.indexOfRow_none found)
  | some index => exact holds.set (Profile.indexOfRow_some found)

theorem profileSession_holds (screen : Profile.Screen) (user : String) (deliveries : List Delivery) :
    Holds Profile.Row.id (fun calendar => (lastDelivery deliveries calendar).map Delivery.row)
      (profileSession screen user deliveries).calendarList := by
  induction deliveries using List.reverseRecOn with
  | nil => exact Holds.empty
  | append_singleton deliveries delivery ih =>
    have replaced := showRow_holds ih delivery.row
    unfold profileSession
    rw [List.foldl_append, lastDelivery_concat, map_update]
    exact replaced

theorem rowsOf_eq (screen : Profile.Screen) (user : String) (deliveries : List Delivery) (calendar : String) :
    rowsOf (profileSession screen user deliveries) calendar =
      ((lastDelivery deliveries calendar).map Delivery.row).toList :=
  profileSession_holds screen user deliveries calendar

end Profile

/-! ## One entry for each calendar that has delivered -/

/-- Of a calendar that has delivered there is one entry, with the events of its
last snapshot in order of start, and of any other there is none. -/
def EntryOfLast (last : Option Delivery) (entries : List Calendar) : Prop :=
  match last with
  | none => entries = []
  | some delivery => ∃ entry, entries = [entry] ∧ entry.eventsList.toArray.Perm delivery.docs ∧
      entry.eventsList.toArray.Pairwise (fun first second => first.start ≤ second.start)

def RowOfLast (last : Option Delivery) (rows : List Profile.Row) : Prop :=
  match last with
  | none => rows = []
  | some delivery => ∃ row, rows = [row] ∧ row.numOfEvents = delivery.docs.length

theorem entryOfLast_of_eq {last : Option Delivery} {entries : List Calendar}
    (same : entries = (last.map Delivery.entry).toList) : EntryOfLast last entries := by
  cases last with
  | none => exact same
  | some delivery =>
    have sorted := Calendar.parse_stableSort delivery.freshId delivery.docs delivery.calendar delivery.unique
    exact ⟨delivery.entry, same, sorted.perm, sorted.ordered⟩

theorem rowOfLast_of_eq {last : Option Delivery} {rows : List Profile.Row}
    (same : rows = (last.map Delivery.row).toList) : RowOfLast last rows := by
  cases last with
  | none => exact same
  | some delivery => exact ⟨delivery.row, same, rfl⟩

/-- In every session both screens show, of each calendar, what its last snapshot
makes of it, and a snapshot changes nothing of the other calendars. -/
theorem each_from_last_delivery (clock : Clock) (calendarScreen : MyPlenR.Screen) (profileScreen : Profile.Screen)
    (user : String) (callbacks : List Callback) (deliveries : List Delivery) :
    (∀ calendar, EntryOfLast (lastDelivery (callbacks.filterMap Callback.delivered?) calendar)
        (entriesOf (session clock calendarScreen user callbacks) calendar)) ∧
      (∀ calendar, RowOfLast (lastDelivery deliveries calendar)
        (rowsOf (profileSession profileScreen user deliveries) calendar)) ∧
      ∀ (delivery : Delivery) (other : String), other ≠ delivery.calendar →
        entriesOf (session clock calendarScreen user (callbacks ++ [.delivery delivery])) other =
            entriesOf (session clock calendarScreen user callbacks) other ∧
          rowsOf (profileSession profileScreen user (deliveries ++ [delivery])) other =
            rowsOf (profileSession profileScreen user deliveries) other := by
  constructor
  · intro calendar
    exact entryOfLast_of_eq (session_holds calendarScreen user callbacks calendar)
  · constructor
    · intro calendar
      exact rowOfLast_of_eq (rowsOf_eq profileScreen user deliveries calendar)
    · intro delivery other different
      constructor
      · unfold session
        rw [List.foldl_append]
        exact entriesOf_other _ delivery.calendar delivery.freshId delivery.docs different
      · -- the map of last deliveries has not changed there
        rw [rowsOf_eq, rowsOf_eq, lastDelivery_concat, Function.update_of_ne different]

end PlenR.Screens.Deliveries
