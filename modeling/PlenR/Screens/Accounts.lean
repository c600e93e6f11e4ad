import PlenR.Foundation.Ownership
import PlenR.Screens.Entries
import PlenR.Screens.Notifications
import PlenR.Screens.Profile

/-! Three screens over changing accounts.

Each screen is told about sign-ins and sign-outs by a callback of its own, and
keeps the listeners of every account it was ever told about. What is shown
belongs to a user whose documents held it at some time, and a row, which is only a
number of events, to the account it was reported for. A screen shows only what
is its current user's exactly as long as nothing of another account is brought
to it: listeners of earlier accounts stay silent, or repeat what is also the
current user's, and no account follows another without a sign-out between.
-/

set_option autoImplicit false

namespace PlenR.Screens.Accounts

open PlenR.Time PlenR.Util Foundation Foundation.Run Foundation.Snapshots

structure World where
  store : Store
  /-- Every store there has been, the present one included. -/
  past : List Store
  myPlenR : MyPlenR.Screen
  profile : Profile.Screen
  /-- The account a row was reported for, by the id of its calendar. -/
  rowOwners : String → Option String
  notifications : Notifications.Screen

def rowOwnersAfter (screen : Profile.Screen) (owners : String → Option String) : Profile.Action → String → Option String
  | .eventsSnapshot position _ =>
      match screen.queryAt position with
      | some query => Function.update owners query.calendar (some query.user)
      | none => owners
  | .authStateChanged _ | .calendarsSnapshot _ _ => owners

def World.initial (clock : Clock) (store : Store) (today : ℤ) : World where
  store := store
  past := [store]
  myPlenR := .initial clock today
  profile := .initial
  rowOwners := fun _ => none
  notifications := .initial

inductive Action where
  | write (store : Store)
  | myPlenR (action : MyPlenR.Action)
  | profile (action : Profile.Action)
  | notifications (action : Notifications.Action)

def step (clock : Clock) (world : World) : Action → Option World
  | .write store => some { world with store := store, past := store :: world.past }
  | .myPlenR action => (MyPlenR.step clock world.store world.myPlenR action).map fun screen =>
      { world with myPlenR := screen }
  | .profile action => (Profile.step world.store world.profile action).map fun screen =>
      { world with profile := screen, rowOwners := rowOwnersAfter world.profile world.rowOwners action }
  | .notifications action => (Notifications.step world.store world.notifications action).map fun screen =>
      { world with notifications := screen }

/-! ## Whose documents held it -/

section Ownership
variable (past : List Store)

def EventOf (user : String) (event : Event) : Prop := ∃ store ∈ past, ∃ calendar, event ∈ store.events user calendar

def NotificationOf (user : String) (notification : Notification) : Prop :=
  ∃ store ∈ past, notification ∈ store.notifications user

variable {past}

theorem EventOf.later {user : String} {event : Event} (store : Store) (owned : EventOf past user event) :
    EventOf (store :: past) user event :=
  List.exists_mem_cons_of_exists owned

theorem NotificationOf.later {user : String} {notification : Notification} (store : Store)
    (owned : NotificationOf past user notification) : NotificationOf (store :: past) user notification :=
  List.exists_mem_cons_of_exists owned

end Ownership

/-! ## The law and its condition, screen by screen -/

section MyPlenR
variable {past : List Store} {clock : Clock} {store : Store} {screen next : MyPlenR.Screen}

end MyPlenR

section Profile
variable {owners : String → Option String} {store : Store} {screen next : Profile.Screen}

end Profile

section Notifications
variable {past : List Store} {store : Store} {screen next : Notifications.Screen}

end Notifications

/-! ## All screens together -/

def lunch : Event := .plain "lunch" 1532952000000 1532955600000
def dinner : Event := .plain "dinner" 1532970000000 1532973600000

end PlenR.Screens.Accounts
