import Mathlib.Logic.Function.Basic
import PlenR.Util.Calendar

/-! The documents of `users/{uid}` that the screens read and write.

A document has a name that is unique in its collection. Fields a document may
lack are optional. The `events` collection of a calendar is kept under the names
of user and calendar, since it exists whether or not the calendar's own document
does.
-/

set_option autoImplicit false

namespace PlenR.Screens

open PlenR.Util

/-- A document of `calendars`. No writer of the app sets the last two fields. -/
structure CalendarDoc where
  id : String
  title : Option String
  tag : Option String
  events : Option (List Event)
  items : Option (List Event.GoogleItem)
  deriving DecidableEq, Repr

structure UserDoc where
  id : String
  displayName : String
  email : String
  deriving DecidableEq, Repr

structure Invitee where
  id : String
  displayName : String
  deriving DecidableEq, Repr

/-- A document of `notifications`: an invitation. -/
structure Notification where
  id : String
  seen : Bool
  host_id : String
  host_name : Option String
  host_photo : Option String
  title : String
  location : String
  start : ℤ
  end_ : ℤ
  notes : String
  inviteesAdded : List Invitee
  deriving DecidableEq, Repr

structure PendingEvent where
  id : String
  title : String
  start : ℤ
  end_ : ℤ
  location : String
  notes : String
  inviteesAdded : List Invitee
  deriving DecidableEq, Repr

structure Store where
  calendars : String → List CalendarDoc
  events : String → String → List Event
  notifications : String → List Notification
  calendars_unique : ∀ user, ((calendars user).map CalendarDoc.id).Nodup
  events_unique : ∀ user calendar, ((events user calendar).map Event.id).Nodup
  notifications_unique : ∀ user, ((notifications user).map Notification.id).Nodup

namespace Store

def empty : Store where
  calendars := fun _ => []
  events := fun _ _ => []
  notifications := fun _ => []
  calendars_unique := fun _ => List.nodup_nil
  events_unique := fun _ _ => List.nodup_nil
  notifications_unique := fun _ => List.nodup_nil

section Writes
variable {Doc : Type} (name : Doc → String)

/-- `doc(name).set(data)` in one collection: whatever the document held is replaced. -/
def setDoc (docs : List Doc) (doc : Doc) : List Doc := docs.filter (fun old => name old ≠ name doc) ++ [doc]

theorem setDoc_unique {docs : List Doc} (unique : (docs.map name).Nodup) (doc : Doc) :
    ((setDoc name docs doc).map name).Nodup := by
  rw [setDoc, List.map_append, List.nodup_append]
  constructor
  · exact unique.sublist (List.filter_sublist.map name)
  · constructor
    · simp
    · intro old kept new added
      obtain ⟨stored, inside, rfl⟩ := List.mem_map.mp kept
      simp only [List.map_cons, List.map_nil, List.mem_singleton] at added
      rw [added]
      simpa using (List.mem_filter.mp inside).2

theorem mem_setDoc {docs : List Doc} {doc stored : Doc} :
    stored ∈ setDoc name docs doc ↔ stored = doc ∨ stored ∈ docs ∧ name stored ≠ name doc := by
  simp [setDoc, or_comm]

/-- `doc(id).delete()` in one collection; a document that is not there is no error. -/
def deleteDoc (docs : List Doc) (id : String) : List Doc := docs.filter fun old => name old ≠ id

theorem deleteDoc_unique {docs : List Doc} (unique : (docs.map name).Nodup) (id : String) :
    ((deleteDoc name docs id).map name).Nodup :=
  unique.sublist (List.filter_sublist.map name)

theorem mem_deleteDoc {docs : List Doc} {id : String} {stored : Doc} :
    stored ∈ deleteDoc name docs id ↔ stored ∈ docs ∧ name stored ≠ id := by
  simp [deleteDoc]

end Writes

def setCalendar (store : Store) (user : String) (doc : CalendarDoc) : Store where
  calendars := Function.update store.calendars user (setDoc CalendarDoc.id (store.calendars user) doc)
  events := store.events
  notifications := store.notifications
  calendars_unique := by
    intro other
    by_cases same : other = user
    · rw [same, Function.update_self]
      exact setDoc_unique CalendarDoc.id (store.calendars_unique user) doc
    · rw [Function.update_of_ne same]
      exact store.calendars_unique other
  events_unique := store.events_unique
  notifications_unique := store.notifications_unique

def setEvent (store : Store) (user calendar : String) (event : Event) : Store where
  calendars := store.calendars
  events := fun other id =>
    if other = user ∧ id = calendar then setDoc Event.id (store.events user calendar) event else store.events other id
  notifications := store.notifications
  calendars_unique := store.calendars_unique
  events_unique := by
    intro other id
    split
    · exact setDoc_unique Event.id (store.events_unique user calendar) event
    · exact store.events_unique other id
  notifications_unique := store.notifications_unique

def deleteEvent (store : Store) (user calendar id : String) : Store where
  calendars := store.calendars
  events := fun other name =>
    if other = user ∧ name = calendar then deleteDoc Event.id (store.events user calendar) id
    else store.events other name
  notifications := store.notifications
  calendars_unique := store.calendars_unique
  events_unique := by
    intro other name
    split
    · exact deleteDoc_unique Event.id (store.events_unique user calendar) id
    · exact store.events_unique other name
  notifications_unique := store.notifications_unique

def withNotifications (store : Store) (user : String) (docs : List Notification)
    (unique : (docs.map Notification.id).Nodup) : Store where
  calendars := store.calendars
  events := store.events
  notifications := Function.update store.notifications user docs
  calendars_unique := store.calendars_unique
  events_unique := store.events_unique
  notifications_unique := by
    intro other
    by_cases same : other = user
    · rw [same, Function.update_self]
      exact unique
    · rw [Function.update_of_ne same]
      exact store.notifications_unique other

/-- `users/{user}/notifications/{doc.id}`, set; `add` draws the id first. -/
def setNotification (store : Store) (user : String) (doc : Notification) : Store :=
  store.withNotifications user (setDoc Notification.id (store.notifications user) doc)
    (setDoc_unique Notification.id (store.notifications_unique user) doc)

def deleteNotification (store : Store) (user id : String) : Store :=
  store.withNotifications user (deleteDoc Notification.id (store.notifications user) id)
    (deleteDoc_unique Notification.id (store.notifications_unique user) id)

theorem mem_setCalendar {store : Store} {user other : String} {doc stored : CalendarDoc} :
    stored ∈ (store.setCalendar user doc).calendars other ↔
      if other = user then stored = doc ∨ stored ∈ store.calendars user ∧ stored.id ≠ doc.id
      else stored ∈ store.calendars other := by
  by_cases here : other = user
  · simp only [setCalendar, here, Function.update_self, mem_setDoc, if_true]
  · simp only [setCalendar, Function.update_of_ne here, if_neg here]

theorem mem_setEvent {store : Store} {user calendar : String} {event stored : Event} {other id : String} :
    stored ∈ (store.setEvent user calendar event).events other id ↔
      if other = user ∧ id = calendar then stored = event ∨ stored ∈ store.events user calendar ∧ stored.id ≠ event.id
      else stored ∈ store.events other id := by
  by_cases here : other = user ∧ id = calendar
  · simp only [setEvent, if_pos here, mem_setDoc]
  · simp only [setEvent, if_neg here]

theorem mem_deleteEvent {store : Store} {user calendar id : String} {stored : Event} {other name : String} :
    stored ∈ (store.deleteEvent user calendar id).events other name ↔
      stored ∈ store.events other name ∧ (other = user ∧ name = calendar → stored.id ≠ id) := by
  by_cases here : other = user ∧ name = calendar
  · obtain ⟨rfl, rfl⟩ := here
    simp [deleteEvent, mem_deleteDoc]
  · simp only [deleteEvent, if_neg here]
    exact (and_iff_left fun same => absurd same here).symm

theorem mem_setNotification {store : Store} {user other : String} {doc stored : Notification} :
    stored ∈ (store.setNotification user doc).notifications other ↔
      if other = user then stored = doc ∨ stored ∈ store.notifications user ∧ stored.id ≠ doc.id
      else stored ∈ store.notifications other := by
  by_cases here : other = user
  · simp only [setNotification, withNotifications, here, Function.update_self, mem_setDoc, if_true]
  · simp only [setNotification, withNotifications, Function.update_of_ne here, if_neg here]

theorem mem_deleteNotification {store : Store} {user other id : String} {stored : Notification} :
    stored ∈ (store.deleteNotification user id).notifications other ↔
      stored ∈ store.notifications other ∧ (other = user → stored.id ≠ id) := by
  by_cases here : other = user
  · simp [deleteNotification, withNotifications, here, Function.update_self, mem_deleteDoc]
  · simp [deleteNotification, withNotifications, here]

def single (user : String) (calendar : CalendarDoc) (events : List Event)
    (unique : (events.map Event.id).Nodup) : Store where
  calendars := fun other => if other = user then [calendar] else []
  events := fun other id => if other = user ∧ id = calendar.id then events else []
  notifications := fun _ => []
  calendars_unique := by
    intro other
    split
    · exact List.pairwise_singleton _ _
    · exact List.nodup_nil
  events_unique := by
    intro other id
    split
    · exact unique
    · exact List.nodup_nil
  notifications_unique := fun _ => List.nodup_nil

/-- The calendar document that signing in creates. -/
def plenrCalendar : CalendarDoc where
  id := "PlenR Calendar"
  title := some "Main Calendar"
  tag := some "local"
  events := none
  items := none

end Store
end PlenR.Screens
