import PlenR.Foundation.Accretion
import PlenR.Screens.PendingEventDetails

/-! Which snapshots the shown schedules come from.

`PendingEventDetails` and `InvitationCard` append the entries of every report of
a calendars collection. A report describes the whole collection, so what is
shown should be the entries of the last report of each user, and a calendar that
has gone from the collection should have none. Appending gives that exactly as
long as no report follows one that had entries.
-/

set_option autoImplicit false

namespace PlenR.Screens.Schedules

open PlenR.Time PlenR.Util Foundation Foundation.Run

section Read
variable {Stamp : Type} (format : ℤ → Stamp) (clock : Clock)

def snapshotEntries (displayName : String) : List CalendarDoc → Option (List (TimelineEvent Stamp))
  | [] => some []
  | calendar :: calendars =>
      match TimelineSource.readCalendar format clock displayName calendar with
      | .ok entries => (snapshotEntries displayName calendars).map fun rest => entries ++ rest
      | .error _ => none

variable {format clock}

theorem appendCalendars_of_read {displayName : String} {docs : List CalendarDoc} :
    ∀ entries ∈ snapshotEntries format clock displayName docs,
      PendingEventDetails.appendCalendars format clock displayName docs [] = entries := by
  induction docs with
  | nil =>
    intro entries read
    exact Option.some.inj read
  | cons calendar calendars ih =>
    intro entries read
    simp only [snapshotEntries, Option.mem_def] at read
    simp only [PendingEventDetails.appendCalendars]
    cases here : TimelineSource.readCalendar format clock displayName calendar with
    | error _ =>
      rw [here] at read
      cases read
    | ok first =>
      rw [here] at read
      obtain ⟨rest, later, rfl⟩ := Option.map_eq_some_iff.mp read
      simp only [List.nil_append]
      rw [PendingEventDetails.appendCalendars_eq, ih rest later]

end Read

/-! ## The schedules of the invitees -/

/-- The details screen with the last snapshot of each invitee's calendars and the
invitees whose access was found denied. -/
structure Details (Stamp : Type) where
  screen : PendingEventDetails.Screen Stamp
  latest : List (String × Option (List (TimelineEvent Stamp)))
  denied : List UserDoc

def Details.initial (Stamp : Type) : Details Stamp where
  screen := .initial Stamp
  latest := []
  denied := []

namespace Details
variable {Stamp : Type} (format : ℤ → Stamp) (clock : Clock) (inviteesAdded : List Invitee)

def latestAfter (details : Details Stamp) :
    PendingEventDetails.Action → List (String × Option (List (TimelineEvent Stamp)))
  | .calendarsSnapshot position docs =>
      match details.screen.calendarsListeners[position]? with
      | some doc => Accretion.record details.latest doc.id (snapshotEntries format clock doc.displayName docs)
      | none => details.latest
  | _ => details.latest

def deniedAfter (details : Details Stamp) : PendingEventDetails.Action → List UserDoc
  | .accessRead position outcome =>
      match details.screen.accessReads[position]?, outcome.access with
      | some doc, some false => details.denied ++ [doc]
      | _, _ => details.denied
  | _ => details.denied

def step (details : Details Stamp) (action : PendingEventDetails.Action) : Option (Details Stamp) :=
  (PendingEventDetails.step format clock inviteesAdded details.screen action).map fun screen =>
    { screen := screen
      latest := details.latestAfter format clock action
      denied := details.deniedAfter action }

/-- The screen shows the last snapshots and names nobody twice. -/
structure ShowsLatest (details : Details Stamp) : Prop where
  events : Accretion.Shows details.latest details.screen.state.events
  names : details.screen.state.invitees_without_access = details.denied.map UserDoc.displayName
  once : (details.denied.map UserDoc.id).Nodup

/-- A denial is the first of its invitee; a snapshot can be read, and the one of
the invitee before it had no entries. -/
def FirstOnly (details : Details Stamp) : PendingEventDetails.Action → Prop
  | .accessRead position outcome => ∀ doc ∈ details.screen.accessReads[position]?,
      outcome.access = some false → ∀ other ∈ details.denied, other.id ≠ doc.id
  | .calendarsSnapshot position docs => ∀ doc ∈ details.screen.calendarsListeners[position]?,
      (snapshotEntries format clock doc.displayName docs).isSome ∧ Accretion.NothingOf details.latest doc.id
  | _ => True

variable {format clock inviteesAdded} {details next : Details Stamp}

theorem step_iff (shows : ShowsLatest details) {action : PendingEventDetails.Action}
    (moved : details.step format clock inviteesAdded action = some next) :
    ShowsLatest next ↔ FirstOnly format clock details action := by
  obtain ⟨screen, called, rfl⟩ := Option.map_eq_some_iff.mp moved
  obtain ⟨events, names, once⟩ := shows
  cases action with
  | authStateChanged user =>
    cases called
    exact iff_of_true ⟨events, names, once⟩ trivial
  | usersSnapshot position docs =>
    obtain ⟨listener, _, rfl⟩ := Option.map_eq_some_iff.mp called
    unfold PendingEventDetails.Screen.usersSnapshot
    split
    · exact iff_of_true ⟨events, names, once⟩ trivial
    · exact iff_of_true ⟨events, names, once⟩ trivial
  | accessRead position outcome =>
    obtain ⟨doc, found, rfl⟩ := Option.map_eq_some_iff.mp called
    simp only [FirstOnly, PendingEventDetails.Screen.accessRead, deniedAfter, found, Option.mem_some_iff, forall_eq']
    cases outcome.access with
    | none =>
      apply iff_of_true ⟨events, names, once⟩
      intro denied
      cases denied
    | some access =>
      cases access with
      | true =>
        apply iff_of_true ⟨events, names, once⟩
        intro denied
        cases denied
      | false =>
        have more : ((details.denied ++ [doc]).map UserDoc.id).Nodup ↔
            ∀ other ∈ details.denied, other.id ≠ doc.id := by
          rw [List.map_append, List.map_singleton, (List.perm_append_singleton _ _).nodup_iff, List.nodup_cons]
          simp [once]
        constructor
        · intro after _
          exact more.mp after.once
        · intro first
          constructor
          case events => exact events
          case names => simp [names]
          case once => exact more.mpr (first rfl)
  | calendarsSnapshot position docs =>
    obtain ⟨doc, found, rfl⟩ := Option.map_eq_some_iff.mp called
    simp only [FirstOnly, latestAfter, found, Option.mem_some_iff, forall_eq']
    rw [← Accretion.shows_record_iff events appendCalendars_of_read, ← PendingEventDetails.appendCalendars_eq]
    constructor
    · intro after
      exact after.events
    · intro shown
      exact ⟨shown, names, once⟩

end Details

/-! ## The user's own schedule on an invitation -/

structure CardUser where
  uid : String
  displayName : String
  deriving DecidableEq

structure CardState (Stamp : Type) where
  currentUser : Option CardUser
  events : List (TimelineEvent Stamp)

structure Card (Stamp : Type) where
  state : CardState Stamp
  calendarsListeners : List CardUser
  latest : List (String × Option (List (TimelineEvent Stamp)))

def Card.initial (Stamp : Type) : Card Stamp where
  state := { currentUser := none, events := [] }
  calendarsListeners := []
  latest := []

inductive CardAction where
  | authStateChanged (user : Option CardUser)
  | calendarsSnapshot (position : ℕ) (docs : List CalendarDoc)

namespace Card
variable {Stamp : Type} (format : ℤ → Stamp) (clock : Clock)

def authStateChanged (user : Option CardUser) (card : Card Stamp) : Card Stamp :=
  let card := { card with state := { card.state with currentUser := user } }
  match user with
  -- the callback aborts at `user.uid`
  | none => card
  | some user => { card with calendarsListeners := card.calendarsListeners ++ [user] }

def calendarsSnapshot (user : CardUser) (docs : List CalendarDoc) (card : Card Stamp) : Card Stamp :=
  { card with
    state := { card.state with
      events := PendingEventDetails.appendCalendars format clock user.displayName docs card.state.events }
    latest := Accretion.record card.latest user.uid (snapshotEntries format clock user.displayName docs) }

def step (card : Card Stamp) : CardAction → Option (Card Stamp)
  | .authStateChanged user => some (card.authStateChanged user)
  | .calendarsSnapshot position docs =>
      card.calendarsListeners[position]?.map fun user => card.calendarsSnapshot format clock user docs

def ShowsLatest (card : Card Stamp) : Prop := Accretion.Shows card.latest card.state.events

def FirstOnly (card : Card Stamp) : CardAction → Prop
  | .authStateChanged _ => True
  | .calendarsSnapshot position docs => ∀ user ∈ card.calendarsListeners[position]?,
      (snapshotEntries format clock user.displayName docs).isSome ∧ Accretion.NothingOf card.latest user.uid

variable {format clock} {card next : Card Stamp}

theorem step_iff (shows : ShowsLatest card) {action : CardAction} (moved : card.step format clock action = some next) :
    ShowsLatest next ↔ FirstOnly format clock card action := by
  cases action with
  | authStateChanged user =>
    cases moved
    apply iff_of_true _ trivial
    cases user with
    | none => exact shows
    | some user => exact shows
  | calendarsSnapshot position docs =>
    obtain ⟨user, found, rfl⟩ := Option.map_eq_some_iff.mp moved
    simp only [FirstOnly, found, Option.mem_some_iff, forall_eq']
    rw [← Accretion.shows_record_iff shows appendCalendars_of_read, ← PendingEventDetails.appendCalendars_eq]
    exact Iff.rfl

end Card

/-- In every run of either screen the last snapshots are shown, and nobody is
named twice, exactly if no snapshot follows one of the same user that had
entries, every snapshot can be read, and nobody is denied twice. -/
theorem showsLatest_iff_firstOnly {Stamp : Type} (format : ℤ → Stamp) (clock : Clock) (inviteesAdded : List Invitee)
    (actions : List PendingEventDetails.Action) (cardActions : List CardAction) :
    (Always (Details.step format clock inviteesAdded) Details.ShowsLatest (.initial Stamp) actions ↔
        Guarded (Details.step format clock inviteesAdded) (Details.FirstOnly format clock) (.initial Stamp) actions) ∧
      (Always (Card.step format clock) Card.ShowsLatest (.initial Stamp) cardActions ↔
        Guarded (Card.step format clock) (Card.FirstOnly format clock) (.initial Stamp) cardActions) := by
  constructor
  · apply always_iff_guarded_of_lawful
    case decided => exact fun details action next shows moved => Details.step_iff shows moved
    case lawful => exact ⟨Accretion.shows_nil, rfl, List.nodup_nil⟩
  · apply always_iff_guarded_of_lawful
    case decided => exact fun card action next shows moved => Card.step_iff shows moved
    case lawful => exact Accretion.shows_nil

/-- Bob adds an event: his whole calendar is reported again, and his first event is shown twice. -/
theorem dentist_shown_twice :
    ¬ Always (Details.step (fun time => time) universalClock [⟨"bob", "Bob"⟩]) Details.ShowsLatest (.initial ℤ)
      [.authStateChanged (some "ann"),
       .usersSnapshot 0 [⟨"bob", "Bob", "bob@mail"⟩], .accessRead 0 (.completed (some true)),
       .calendarsSnapshot 0 [PendingEventDetails.bobsCalendar [.plain "dentist" 10 20]],
       .calendarsSnapshot 0 [PendingEventDetails.bobsCalendar [.plain "dentist" 10 20, .plain "party" 30 40]]] := by
  intro always
  have shown := (((((always.2 _ rfl).2 _ rfl).2 _ rfl).2 _ rfl).2 _ rfl)
  have sizes := shown.events.2.length_eq
  revert sizes
  decide

end PlenR.Screens.Schedules
