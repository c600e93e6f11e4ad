import PlenR.Foundation.KeyedList
import PlenR.Screens.GoogleImport
import PlenR.Screens.TimelineSource

/-! What the events collections are there for.

Every account has calendars, and a calendar gives each id at most one event. The
writers of the app put events, under the local calendar or the one that is
synced, and the deletion takes one out; the collections hold exactly these maps.
-/

set_option autoImplicit false

namespace PlenR.Screens

open PlenR.Time PlenR.Util Foundation GoogleImport

abbrev Contents := String → String → String → Option Event

namespace Contents

def empty : Contents := fun _ _ _ => none

def put (contents : Contents) (user calendar : String) (event : Event) : Contents :=
  fun other name =>
    if other = user ∧ name = calendar then Function.update (contents user calendar) event.id (some event)
    else contents other name

def remove (contents : Contents) (user calendar id : String) : Contents :=
  fun other name =>
    if other = user ∧ name = calendar then Function.update (contents user calendar) id none
    else contents other name

/-- Signing in stores no event, a sync one for each valid item. -/
def perform (clock : Clock) (contents : Contents) : TimelineSource.Write → Contents
  | .signIn _ => contents
  | .onAddEvent user data => contents.put user "PlenR Calendar" data
  | .sync user id _ _ items => (eventsOf clock items).foldl (fun contents event => contents.put user id event) contents

def Refines (contents : Contents) (store : Store) : Prop :=
  ∀ user calendar, Holds Event.id (contents user calendar) (store.events user calendar)

namespace Refines
variable {contents : Contents} {store : Store}

theorem empty : Refines .empty .empty := fun _ _ => Holds.empty

theorem mem_iff (refines : Refines contents store) {user calendar : String} {event : Event} :
    event ∈ store.events user calendar ↔ contents user calendar event.id = some event :=
  (refines user calendar).mem_iff

theorem setEvent (refines : Refines contents store) (user calendar : String) (event : Event) :
    Refines (contents.put user calendar event) (store.setEvent user calendar event) := by
  intro other name
  by_cases here : other = user ∧ name = calendar
  · simp only [put, Store.setEvent, if_pos here, Store.setDoc]
    exact (refines user calendar).replace event
  · simp only [put, Store.setEvent, if_neg here]
    exact refines other name

theorem deleteEvent (refines : Refines contents store) (user calendar id : String) :
    Refines (contents.remove user calendar id) (store.deleteEvent user calendar id) := by
  intro other name
  by_cases here : other = user ∧ name = calendar
  · simp only [remove, Store.deleteEvent, if_pos here, Store.deleteDoc]
    exact (refines user calendar).erase id
  · simp only [remove, Store.deleteEvent, if_neg here]
    exact refines other name

theorem setEvents (refines : Refines contents store) (user calendar : String) (events : List Event) :
    Refines (events.foldl (fun contents event => contents.put user calendar event) contents)
      (events.foldl (fun store event => store.setEvent user calendar event) store) := by
  induction events generalizing contents store with
  | nil => exact refines
  | cons event events ih => exact ih (refines.setEvent user calendar event)

theorem write (refines : Refines contents store) {clock : Clock} {write : TimelineSource.Write} {next : Store}
    (moved : TimelineSource.step clock store write = some next) : Refines (contents.perform clock write) next := by
  cases write with
  | signIn user =>
    cases moved
    exact refines
  | onAddEvent user data =>
    cases moved
    exact refines.setEvent user "PlenR Calendar" data
  | sync user id summary freshId items =>
    cases moved
    unfold TimelineSource.sync
    rw [import_eq]
    have documented : Refines contents (store.setCalendar user
        { id := id, title := some summary, tag := some "imported", events := none, items := none }) := refines
    exact documented.setEvents user id (eventsOf clock items)

end Refines
end Contents
end PlenR.Screens
