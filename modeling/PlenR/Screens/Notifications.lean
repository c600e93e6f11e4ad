import PlenR.Foundation.Snapshots
import PlenR.Screens.Store

/-! The notifications screen, `Notifications.js`: every snapshot replaces the list. -/

set_option autoImplicit false

namespace PlenR.Screens.Notifications

open Foundation.Snapshots

structure State where
  currentUser : Option String
  notifications_list : List Notification

structure Screen where
  state : State
  listeners : List (Listener String Notification)

def Screen.initial : Screen where
  state := { currentUser := none, notifications_list := [] }
  listeners := []

inductive Action where
  | authStateChanged (user : Option String)
  | snapshot (position : ℕ) (docs : List Notification)

def Screen.authStateChanged (user : Option String) (screen : Screen) : Screen :=
  match user with
  | some uid =>
      { screen with
        state := { screen.state with currentUser := some uid }
        listeners := screen.listeners ++ [subscribe uid] }
  | none => { screen with state := { currentUser := none, notifications_list := [] } }

def Screen.ownerAt (screen : Screen) (position : ℕ) : Option String :=
  screen.listeners[position]?.map Listener.query

def step (store : Store) (screen : Screen) : Action → Option Screen
  | .authStateChanged user => some (screen.authStateChanged user)
  | .snapshot position docs =>
      (deliver store.notifications screen.listeners position docs).map
        fun (_, listeners) =>
          { screen with
            state := { screen.state with notifications_list := docs }
            listeners := listeners }

end PlenR.Screens.Notifications
