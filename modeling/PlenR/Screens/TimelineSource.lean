import PlenR.Foundation.Run
import PlenR.Screens.Store
import PlenR.Util.Database

/-! What the timeline screens read of a calendar, against what the app writes.

`PendingEventDetails` and `InvitationCard` read arrays in the calendar's own
document; every writer of the app puts events into the `events` collection
below it and sets a document without these arrays. So no document any run of
the writers leads to can be read.
-/

set_option autoImplicit false

namespace PlenR.Screens.TimelineSource

open PlenR.Time PlenR.Util Foundation.Run

/-! ## The writers -/

/-- The calendar document of `GoogleLogin.signIn`. -/
def signIn (store : Store) (user : String) : Store :=
  store.setCalendar user
    { id := "PlenR Calendar", title := some "Main Calendar", tag := some "local", events := none, items := none }

/-- `MyPlenR`'s `onAddEvent`; the document of the calendar is neither read nor written. -/
def onAddEvent (store : Store) (user : String) (data : Event) : Store := store.setEvent user "PlenR Calendar" data

/-- A successful sync of `CalendarBox`: the document, then the events of `importCalendarFromGoogle`. -/
def sync (clock : Clock) (store : Store) (user id summary freshId : String) (items : List Event.GoogleItem) : Store :=
  (Database.importCalendarFromGoogle clock freshId summary items).written.foldl
    (fun store event => store.setEvent user id event)
    (store.setCalendar user
      { id := id, title := some summary, tag := some "imported", events := none, items := none })

inductive Write where
  | signIn (user : String)
  | onAddEvent (user : String) (data : Event)
  | sync (user id summary freshId : String) (items : List Event.GoogleItem)

def step (clock : Clock) (store : Store) : Write → Option Store
  | .signIn user => some (signIn store user)
  | .onAddEvent user data => some (onAddEvent store user data)
  | .sync user id summary freshId items => some (sync clock store user id summary freshId items)

/-! ## The reader -/

section Read
variable {Stamp : Type} (format : ℤ → Stamp) (clock : Clock)

def readCalendar (displayName : String) (calendar : CalendarDoc) : Except Exception (List (TimelineEvent Stamp)) :=
  if calendar.id = "PlenR Calendar" then Calendar.parseForTimeline format calendar.events displayName
  else Calendar.parseGoogleForTimeline format clock calendar.items displayName

/-- One entry for each stored event, with its start and end. -/
def ShowsStored (store : Store) (user displayName : String) (calendar : CalendarDoc) : Prop :=
  ∃ entries, readCalendar format clock displayName calendar = .ok entries ∧
    (entries.map fun entry => (entry.start, entry.end_)).Perm
      ((store.events user calendar.id).map fun event => (format event.start, format event.end_))

end Read

/-! ## The documents of a run -/

def Bare (calendar : CalendarDoc) : Prop := calendar.events = none ∧ calendar.items = none

def AllBare (store : Store) : Prop := ∀ user, ∀ calendar ∈ store.calendars user, Bare calendar

theorem setCalendar_bare {store : Store} (bare : AllBare store) (user : String) {calendar : CalendarDoc}
    (written : Bare calendar) : AllBare (store.setCalendar user calendar) := by
  intro other stored member
  rw [Store.mem_setCalendar] at member
  by_cases same : other = user
  · rw [if_pos same] at member
    cases member with
    | inl new => exact new ▸ written
    | inr kept => exact bare user stored kept.1
  · rw [if_neg same] at member
    exact bare other stored member

theorem setEvents_bare {store : Store} (bare : AllBare store) (user calendar : String) (events : List Event) :
    AllBare (events.foldl (fun store event => store.setEvent user calendar event) store) := by
  induction events generalizing store with
  | nil => exact bare
  | cons event events ih =>
    have kept : AllBare (store.setEvent user calendar event) := bare
    exact ih kept

theorem step_bare {clock : Clock} {store next : Store} (bare : AllBare store) {write : Write}
    (moved : step clock store write = some next) : AllBare next := by
  cases write with
  | signIn user =>
    cases moved
    exact setCalendar_bare bare user ⟨rfl, rfl⟩
  | onAddEvent user data =>
    cases moved
    exact bare
  | sync user id summary freshId items =>
    cases moved
    exact setEvents_bare (setCalendar_bare bare user ⟨rfl, rfl⟩) user id _

section Read
variable {Stamp : Type} (format : ℤ → Stamp) (clock : Clock)

theorem readCalendar_bare (displayName : String) {calendar : CalendarDoc} (bare : Bare calendar) :
    readCalendar format clock displayName calendar = .error .typeError := by
  unfold readCalendar
  rw [bare.1, bare.2]
  split
  · rfl
  · rfl

/-- Whatever the writers have done, no calendar document of any user can be shown. -/
theorem no_document_shows_stored (writes : List Write) :
    Always (step clock) (fun store => ∀ user displayName, ∀ calendar ∈ store.calendars user,
      ¬ ShowsStored format clock store user displayName calendar) .empty writes := by
  have start : AllBare .empty := fun _ _ member => absurd member List.not_mem_nil
  apply (always_of_step (fun _ _ _ bare moved => step_bare bare moved) writes start).mono
  intro store bare user displayName calendar member ⟨entries, read, _⟩
  rw [readCalendar_bare format clock displayName (bare user calendar member)] at read
  cases read

end Read

/-- After signing in for the first time, the one calendar of the user cannot be shown. -/
theorem first_sign_in_not_shown :
    ¬ Always (step universalClock) (fun store => ∀ user displayName, ∀ calendar ∈ store.calendars user,
      ShowsStored id universalClock store user displayName calendar) .empty [.signIn "ann"] := by
  intro always
  obtain ⟨entries, read, _⟩ := (always.2 _ rfl) "ann" "Ann"
    { id := "PlenR Calendar", title := some "Main Calendar", tag := some "local", events := none, items := none }
    (by decide)
  revert read
  exact nofun

end PlenR.Screens.TimelineSource
