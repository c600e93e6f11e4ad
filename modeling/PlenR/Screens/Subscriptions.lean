import PlenR.Foundation.Subscribers
import PlenR.Screens.CalendarSync
import PlenR.Screens.MyPlenR
import PlenR.Screens.Notifications
import PlenR.Screens.OrganiseEvent
import PlenR.Screens.Schedules

/-! What six screens and boxes remove when they are unmounted.

Each keeps the handles of all its listeners: `CalendarBox` the one it has, the others
in an array that is walked at the end. The only listeners registered outside a
callback of a listener or a handler of the screen are those of the calendars of an
invitee in `PendingEventDetails`, which wait for the read of the access document.
-/

set_option autoImplicit false

namespace PlenR.Screens.Subscriptions

open PlenR.Time PlenR.Util Foundation Foundation.Run

inductive Kind where
  | auth
  | calendars
  | events
  | notifications
  | users (listener : PendingEventDetails.UsersListener)
  | calendarsOf (invitee : UserDoc)
  deriving DecidableEq

/-! ## Screens whose answers register nothing

Data and listeners are what the screens' own functions make of a screen without listeners.
-/

inductive MyPlenRReport where
  | authStateChanged (user : Option String)
  /-- Of a listener of `componentDidMount` or of `updateLocalCalendar`. -/
  | calendarsSnapshot (query : MyPlenR.CalendarsQuery) (docs : List CalendarDoc)
  | eventsSnapshot (calendar freshId : String) (docs : List Event)

inductive MyPlenRGesture where
  | pageChange (today : ℤ) (currentOffset : ℚ)
  | daySelect (day : ℤ)

def bareMyPlenR (state : MyPlenR.State) : MyPlenR.Screen where
  state := state
  calendarsListeners := []
  eventsListeners := []

def registersMyPlenR (screen : MyPlenR.Screen) : MyPlenR.State × List Kind :=
  (screen.state,
    screen.calendarsListeners.map (fun _ => .calendars) ++ screen.eventsListeners.map fun _ => .events)

def myPlenR (clock : Clock) (today : ℤ) : Subscriber Kind MyPlenR.State MyPlenRReport MyPlenRGesture Empty where
  data := .initial clock today
  mounts := [.auth]
  source
    | .authStateChanged _ => .auth
    | .calendarsSnapshot _ _ => .calendars
    | .eventsSnapshot _ _ _ => .events
  callback
    | .authStateChanged user, state => registersMyPlenR ((bareMyPlenR state).authStateChanged user)
    | .calendarsSnapshot query docs, state => registersMyPlenR ((bareMyPlenR state).listenToEvents query docs)
    | .eventsSnapshot calendar freshId docs, state => (state.showEvents calendar freshId docs, [])
  gesture
    | .pageChange today currentOffset, state =>
        registersMyPlenR ((bareMyPlenR state).pageChange clock today currentOffset)
    | .daySelect day, state => (state.selectDay clock day, [])
  answer := fun answer => nomatch answer

inductive NotificationsReport where
  | authStateChanged (user : Option String)
  | snapshot (docs : List Notification)

def notifications : Subscriber Kind Notifications.State NotificationsReport Empty Empty where
  data := Notifications.Screen.initial.state
  mounts := [.auth]
  source
    | .authStateChanged _ => .auth
    | .snapshot _ => .notifications
  callback
    | .authStateChanged user, state =>
        let screen := ({ state := state, listeners := [] } : Notifications.Screen).authStateChanged user
        (screen.state, screen.listeners.map fun _ => .notifications)
    | .snapshot docs, state => ({ state with notifications_list := docs }, [])
  gesture := fun gesture => nomatch gesture
  answer := fun answer => nomatch answer

def organiseEvent (clock : DayClock) (currentDate : ℤ) :
    Subscriber Kind OrganiseEvent.Form (Option OrganiseEvent.Host) OrganiseEvent.Action Empty where
  data := .initial clock currentDate
  mounts := [.auth]
  source := fun _ => .auth
  callback := fun user form => ({ form with state := { form.state with currentUser := user } }, [])
  -- a change that is not enabled leaves the form as it is
  gesture := fun action form => ((OrganiseEvent.step clock form action).getD form, [])
  answer := fun answer => nomatch answer

inductive CardReport where
  | authStateChanged (user : Option Schedules.CardUser)
  | calendarsSnapshot (user : Schedules.CardUser) (docs : List CalendarDoc)

section Card
variable {Stamp : Type} (format : ℤ → Stamp) (clock : Clock)

def registersCard (card : Schedules.Card Stamp) : Schedules.Card Stamp × List Kind :=
  ({ card with calendarsListeners := [] }, card.calendarsListeners.map fun _ => .calendars)

/-- The two buttons only write documents. -/
def invitationCard : Subscriber Kind (Schedules.Card Stamp) CardReport Empty Empty where
  data := .initial Stamp
  mounts := [.auth]
  source
    | .authStateChanged _ => .auth
    | .calendarsSnapshot _ _ => .calendars
  callback
    | .authStateChanged user, card => registersCard (card.authStateChanged user)
    | .calendarsSnapshot user docs, card => registersCard (card.calendarsSnapshot format clock user docs)
  gesture := fun gesture => nomatch gesture
  answer := fun answer => nomatch answer

end Card

structure SyncAnswer where
  position : ℕ
  reply : CalendarSync.Reply

/-- The field `unsubscribe` is the one handle; the box is told of the account there is. -/
def calendarBox (clock : Clock) (id : String) (account : Option String) :
    Subscriber Kind CalendarSync.State (Option String) Unit SyncAnswer where
  data := .initial account
  mounts := [.auth]
  source := fun _ => .auth
  callback := fun user state => ({ state with account := user }.authStateChanged user, [])
  gesture := fun _ state => (state.press, [])
  answer := fun answer state =>
    (CalendarSync.step clock id state (.answered answer.position answer.reply)).map fun state => (state, [])

/-! ## PendingEventDetails -/

inductive DetailsReport where
  | authStateChanged (user : Option String)
  | usersSnapshot (listener : PendingEventDetails.UsersListener) (docs : List UserDoc)
  | calendarsSnapshot (invitee : UserDoc) (docs : List CalendarDoc)

structure DetailsAnswer where
  position : ℕ
  outcome : PendingEventDetails.AccessRead

section Details
variable {Stamp : Type} (format : ℤ → Stamp) (clock : Clock) (inviteesAdded : List Invitee)

def detailsCallback : DetailsReport → PendingEventDetails.Screen Stamp → PendingEventDetails.Screen Stamp × List Kind
  | .authStateChanged user, screen => (screen.authStateChanged inviteesAdded user,
      inviteesAdded.map fun invitee => .users { user := user, invitee := invitee.id })
  | .usersSnapshot listener docs, screen => (screen.usersSnapshot listener docs, [])
  | .calendarsSnapshot invitee docs, screen => (screen.calendarsSnapshot format clock invitee docs, [])

def detailsAnswer (answer : DetailsAnswer) (screen : PendingEventDetails.Screen Stamp) :
    Option (PendingEventDetails.Screen Stamp × List Kind) :=
  screen.accessReads[answer.position]?.map fun invitee =>
    (screen.accessRead answer.position answer.outcome invitee,
      if answer.outcome.access = some true then [.calendarsOf invitee] else [])

def pendingEventDetails : Subscriber Kind (PendingEventDetails.Screen Stamp) DetailsReport Empty DetailsAnswer where
  data := .initial Stamp
  mounts := [.auth]
  source
    | .authStateChanged _ => .auth
    | .usersSnapshot listener _ => .users listener
    | .calendarsSnapshot invitee _ => .calendarsOf invitee
  callback := detailsCallback format clock inviteesAdded
  gesture := fun gesture => nomatch gesture
  answer := detailsAnswer

def GrantedInTime (state : Subscriber.State Kind (PendingEventDetails.Screen Stamp)) :
    Subscriber.Action DetailsReport Empty DetailsAnswer → Prop
  | .answer answer => answer.outcome.access = some true → state.mounted = true
  | _ => True

variable {format clock inviteesAdded} {state next : Subscriber.State Kind (PendingEventDetails.Screen Stamp)}

theorem inTime_iff {action : Subscriber.Action DetailsReport Empty DetailsAnswer}
    (moved : (pendingEventDetails format clock inviteesAdded).step state action = some next) :
    Subscriber.InTime (pendingEventDetails format clock inviteesAdded) state action ↔ GrantedInTime state action := by
  cases action with
  | answer answer =>
    obtain ⟨result, found, _⟩ := Option.map_eq_some_iff.mp moved
    rw [Subscriber.InTime, found, GrantedInTime]
    obtain ⟨invitee, _, rfl⟩ := Option.map_eq_some_iff.mp found
    by_cases granted : answer.outcome.access = some true
    · simp [granted]
    · simp [granted]
  | _ => exact Iff.rfl

end Details

/-- In every run `MyPlenR`, `Notifications`, `OrganiseEvent`, `InvitationCard` and
`CalendarBox` leave no listener behind when they are unmounted, and `PendingEventDetails`
leaves none exactly if no read that grants access completes after it. -/
theorem released_screens {Stamp : Type} (format : ℤ → Stamp) (clock : DayClock) (today : ℤ) (inviteesAdded : List Invitee)
    (id : String) (account : Option String) :
    (∀ actions, Always (myPlenR clock.toClock today).step Subscriber.State.Released
        (myPlenR clock.toClock today).initial actions) ∧
      (∀ actions, Always notifications.step Subscriber.State.Released notifications.initial actions) ∧
      (∀ actions, Always (organiseEvent clock today).step Subscriber.State.Released
        (organiseEvent clock today).initial actions) ∧
      (∀ actions, Always (invitationCard format clock.toClock).step Subscriber.State.Released
        (invitationCard format clock.toClock).initial actions) ∧
      (∀ actions, Always (calendarBox clock.toClock id account).step Subscriber.State.Released
        (calendarBox clock.toClock id account).initial actions) ∧
      ∀ actions, Always (pendingEventDetails format clock.toClock inviteesAdded).step Subscriber.State.Released
          (pendingEventDetails format clock.toClock inviteesAdded).initial actions ↔
        Guarded (pendingEventDetails format clock.toClock inviteesAdded).step GrantedInTime
          (pendingEventDetails format clock.toClock inviteesAdded).initial actions := by
  refine ⟨?_, ?_, ?_, ?_, ?_, ?_⟩
  · exact Subscriber.released_of_silent fun answer => nomatch answer
  · exact Subscriber.released_of_silent fun answer => nomatch answer
  · exact Subscriber.released_of_silent fun answer => nomatch answer
  · exact Subscriber.released_of_silent fun answer => nomatch answer
  · apply Subscriber.released_of_silent
    intro answer state result found
    obtain ⟨_, _, rfl⟩ := Option.map_eq_some_iff.mp found
    rfl
  · intro actions
    rw [Subscriber.released_iff_inTime]
    exact guarded_congr (fun _ _ _ moved => inTime_iff moved) _ actions

end PlenR.Screens.Subscriptions
