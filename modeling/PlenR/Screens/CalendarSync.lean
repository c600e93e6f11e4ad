import PlenR.Foundation.Run
import PlenR.Screens.Store
import PlenR.Util.Database

/-! The box of a Google calendar with its button `Sync`, `CalendarBox.js`.

A press asks Google with the token of the account there is then. The answer is
written under the user the box was told of last: the document of the calendar under
the user in the state, its events through the `Database` that was made for that user
and is kept through a sign-out. Several requests share one indicator, which every
answer that can be read puts out.
-/

set_option autoImplicit false

namespace PlenR.Screens.CalendarSync

open PlenR.Time PlenR.Util Foundation.Run

inductive Document where
  | calendar (doc : CalendarDoc)
  | event (event : Event)
  deriving DecidableEq

/-- A document that was set for a user, after a press under the account of `asker`. -/
structure Write where
  asker : Option String
  user : String
  document : Document
  deriving DecidableEq

/-- The box, the account signed in on the device, and the accounts whose presses are
under way; beside them stands what was written. -/
structure State where
  account : Option String
  currentUser : Option String
  dataBase : Option String
  retrievingEvents : Bool
  requests : List (Option String)
  writes : List Write

def State.initial (account : Option String) : State where
  account := account
  currentUser := none
  dataBase := none
  retrievingEvents := false
  requests := []
  writes := []

inductive Reply where
  /-- A status other than 200. -/
  | failed
  /-- `JSON.parse` fails. -/
  | unreadable
  | received (summary freshId : String) (items : Option (List Event.GoogleItem))

inductive Action where
  | account (user : Option String)
  /-- The listener of the box reports. -/
  | authStateChanged
  | press
  | answered (position : ℕ) (reply : Reply)

namespace State

/-- The constructor of `Database` reads `user.uid` and fails without a user. -/
def authStateChanged (user : Option String) (state : State) : State :=
  match user with
  | none => { state with currentUser := none }
  | some uid => { state with currentUser := some uid, dataBase := some uid }

def press (state : State) : State :=
  { state with retrievingEvents := true, requests := state.requests ++ [state.account] }

section Answer
variable (clock : Clock) (id : String)

/-- What an answer sets: nothing without a user, and no event if it has no items. -/
def written (asker : Option String) (summary freshId : String) (items : Option (List Event.GoogleItem))
    (state : State) : List Write :=
  match state.currentUser with
  | none => []
  | some uid =>
      { asker := asker
        user := uid
        document := .calendar { id := id, title := some summary, tag := some "imported", events := none, items := none } } ::
        match state.dataBase, items with
        | some owner, some items =>
            (Database.importCalendarFromGoogle clock freshId summary items).written.map fun event =>
              { asker := asker, user := owner, document := .event event }
        | _, _ => []

def answered (position : ℕ) (asker : Option String) (reply : Reply) (state : State) : State :=
  let state := { state with requests := state.requests.eraseIdx position }
  match reply with
  | .failed => { state with retrievingEvents := false }
  -- the handler fails before it sets anything
  | .unreadable => state
  | .received summary freshId items =>
      { state with
        retrievingEvents := false
        writes := state.writes ++ state.written clock id asker summary freshId items }

end Answer
end State

def step (clock : Clock) (id : String) (state : State) : Action → Option State
  | .account user => some { state with account := user }
  | .authStateChanged => some (state.authStateChanged state.account)
  | .press => some state.press
  | .answered position reply => state.requests[position]?.map fun asker => state.answered clock id position asker reply

/-- What was written belongs to the account that asked for it, and the indicator is
shown exactly while a request is under way. -/
structure InOrder (state : State) : Prop where
  own : ∀ write ∈ state.writes, write.asker = some write.user
  told : state.retrievingEvents = true ↔ state.requests ≠ []

def Kept (state : State) : Prop := ∀ uid ∈ state.currentUser, state.dataBase = some uid

section Step
variable {clock : Clock} {id : String} {state next : State}

theorem kept_step (kept : Kept state) {action : Action} (moved : step clock id state action = some next) :
    Kept next := by
  cases action with
  | account user =>
    cases moved
    exact kept
  | authStateChanged =>
    cases moved
    unfold State.authStateChanged
    cases state.account with
    | none => exact fun _ nobody => nomatch nobody
    | some uid => exact fun _ same => same
  | press =>
    cases moved
    exact kept
  | answered position reply =>
    obtain ⟨asker, _, rfl⟩ := Option.map_eq_some_iff.mp moved
    cases reply with
    | failed => exact kept
    | unreadable => exact kept
    | received summary freshId items => exact kept

end Step

end PlenR.Screens.CalendarSync
