import PlenR.Screens.TimelineSource

/-! The schedules of the invitees, as `PendingEventDetails.js` collects them.

Callbacks nest three deep. Each auth callback registers a users listener for
every invitee; each report of it starts a read of the access document of the
invitee; and each read that grants access registers a calendars listener, whose
reports append to what is shown. Nothing is removed before the screen is
unmounted, and that ends a run.
-/

set_option autoImplicit false

namespace PlenR.Screens.PendingEventDetails

open PlenR.Time PlenR.Util Foundation.Run

section Append
variable {Stamp : Type} (format : ℤ → Stamp) (clock : Clock)

/-- The loop over the calendars of a snapshot: each is appended by a `setState` of its own. -/
def appendCalendars (displayName : String) : List CalendarDoc → List (TimelineEvent Stamp) → List (TimelineEvent Stamp)
  | [], events => events
  | calendar :: calendars, events =>
      match TimelineSource.readCalendar format clock displayName calendar with
      | .ok entries => appendCalendars displayName calendars (events ++ entries)
      -- a calendar that cannot be read ends the loop, and what was appended stays
      | .error _ => events

theorem appendCalendars_eq (displayName : String) (calendars : List CalendarDoc) (events : List (TimelineEvent Stamp)) :
    appendCalendars format clock displayName calendars events =
      events ++ appendCalendars format clock displayName calendars [] := by
  induction calendars generalizing events with
  | nil => simp [appendCalendars]
  | cons calendar calendars ih =>
    simp only [appendCalendars]
    cases TimelineSource.readCalendar format clock displayName calendar with
    | error _ => simp
    | ok entries =>
      simp only [List.nil_append]
      rw [ih (events ++ entries), ih entries, List.append_assoc]

end Append

/-! ## The screen -/

structure State (Stamp : Type) where
  currentUser : Option String
  events : List (TimelineEvent Stamp)
  invitees_without_access : List String

/-- A listener of the users collection, with the user of the auth callback that registered it. -/
structure UsersListener where
  user : Option String
  invitee : String
  deriving DecidableEq

/-- The document of the invitee is kept by the callbacks that wait for its
access document and by those that listen to its calendars. -/
structure Screen (Stamp : Type) where
  state : State Stamp
  usersListeners : List UsersListener
  accessReads : List UserDoc
  calendarsListeners : List UserDoc

def Screen.initial (Stamp : Type) : Screen Stamp where
  state := { currentUser := none, events := [], invitees_without_access := [] }
  usersListeners := []
  accessReads := []
  calendarsListeners := []

inductive AccessRead where
  | rejected
  /-- `granted` of the document, if there is one and it has the field. -/
  | completed (granted : Option Bool)
  deriving DecidableEq

def AccessRead.access : AccessRead → Option Bool
  | .rejected => none
  | .completed granted => some (granted.getD false)

inductive Action where
  | authStateChanged (user : Option String)
  | usersSnapshot (position : ℕ) (docs : List UserDoc)
  | accessRead (position : ℕ) (outcome : AccessRead)
  | calendarsSnapshot (position : ℕ) (docs : List CalendarDoc)

namespace Screen
variable {Stamp : Type}

def authStateChanged (inviteesAdded : List Invitee) (user : Option String) (screen : Screen Stamp) : Screen Stamp :=
  { screen with
    state := { screen.state with currentUser := user }
    usersListeners := screen.usersListeners ++ inviteesAdded.map fun invitee => { user := user, invitee := invitee.id } }

def usersSnapshot (listener : UsersListener) (docs : List UserDoc) (screen : Screen Stamp) : Screen Stamp :=
  match listener.user with
  -- without a user the first matching document aborts the callback at `user.uid`
  | none => screen
  | some _ =>
      { screen with accessReads := screen.accessReads ++ docs.filter fun doc => doc.id = listener.invitee }

def accessRead (position : ℕ) (outcome : AccessRead) (doc : UserDoc) (screen : Screen Stamp) : Screen Stamp :=
  let screen := { screen with accessReads := screen.accessReads.eraseIdx position }
  match outcome.access with
  | none => screen
  | some true => { screen with calendarsListeners := screen.calendarsListeners ++ [doc] }
  | some false =>
      { screen with
        state := { screen.state with
          invitees_without_access := screen.state.invitees_without_access ++ [doc.displayName] } }

def calendarsSnapshot (format : ℤ → Stamp) (clock : Clock) (doc : UserDoc) (docs : List CalendarDoc)
    (screen : Screen Stamp) : Screen Stamp :=
  { screen with
    state := { screen.state with
      events := appendCalendars format clock doc.displayName docs screen.state.events } }

end Screen

section Step
variable {Stamp : Type} (format : ℤ → Stamp) (clock : Clock) (inviteesAdded : List Invitee)

def step (screen : Screen Stamp) : Action → Option (Screen Stamp)
  | .authStateChanged user => some (screen.authStateChanged inviteesAdded user)
  | .usersSnapshot position docs =>
      screen.usersListeners[position]?.map fun listener => screen.usersSnapshot listener docs
  | .accessRead position outcome =>
      screen.accessReads[position]?.map fun doc => screen.accessRead position outcome doc
  | .calendarsSnapshot position docs =>
      screen.calendarsListeners[position]?.map fun doc => screen.calendarsSnapshot format clock doc docs

/-! ## What the screen has learned about access -/

/-- The screen, with the last completed access read of each invitee, and for each
time entries were appended the invitee and that read. The calendars listeners of
an invitee outlive a denial that is read while they are registered, until a
later read grants access again. -/
structure Session (Stamp : Type) where
  screen : Screen Stamp
  lastRead : String → Option Bool
  appended : List (String × Option Bool)
  outlived : String → Bool

def Session.initial (Stamp : Type) : Session Stamp where
  screen := .initial Stamp
  lastRead := fun _ => none
  appended := []
  outlived := fun _ => false

def Session.lastReadAfter (session : Session Stamp) : Action → String → Option Bool
  | .accessRead position outcome =>
      match session.screen.accessReads[position]?, outcome.access with
      | some doc, some access => Function.update session.lastRead doc.id (some access)
      | _, _ => session.lastRead
  | _ => session.lastRead

def Session.appendedAfter (session : Session Stamp) : Action → List (String × Option Bool)
  | .calendarsSnapshot position docs =>
      match session.screen.calendarsListeners[position]? with
      | some doc =>
          if (appendCalendars format clock doc.displayName docs []).isEmpty then session.appended
          else session.appended ++ [(doc.id, session.lastRead doc.id)]
      | none => session.appended
  | _ => session.appended

def Session.outlivedAfter (session : Session Stamp) : Action → String → Bool
  | .accessRead position outcome =>
      match session.screen.accessReads[position]?, outcome.access with
      | some doc, some access => Function.update session.outlived doc.id
          (!access && session.screen.calendarsListeners.any fun other => other.id = doc.id)
      | _, _ => session.outlived
  | _ => session.outlived

def Session.step (session : Session Stamp) (action : Action) : Option (Session Stamp) :=
  (PendingEventDetails.step format clock inviteesAdded session.screen action).map fun screen =>
    { screen := screen
      lastRead := session.lastReadAfter action
      appended := session.appendedAfter format clock action
      outlived := session.outlivedAfter action }

/-- Entries were appended only of invitees whose last completed read granted access. -/
def OnlyGranted (session : Session Stamp) : Prop := ∀ entry ∈ session.appended, entry.2 = some true

def NotOutlived (session : Session Stamp) : Action → Prop
  | .calendarsSnapshot position docs => ∀ doc ∈ session.screen.calendarsListeners[position]?,
      session.outlived doc.id = true → appendCalendars format clock doc.displayName docs [] = []
  | _ => True

def NotWithdrawn (session : Session Stamp) : Action → Prop
  | .accessRead position outcome => ∀ doc ∈ session.screen.accessReads[position]?,
      outcome.access = some false → ∀ other ∈ session.screen.calendarsListeners, other.id ≠ doc.id
  | _ => True

/-- A calendars listener is registered when access is granted, so it has outlived
a denial exactly if the last completed read denied access. -/
def Checked (session : Session Stamp) : Prop :=
  ∀ doc ∈ session.screen.calendarsListeners, session.lastRead doc.id = some (!session.outlived doc.id)

variable {format clock inviteesAdded} {session next : Session Stamp}

theorem checked_read (checked : Checked session) (doc : UserDoc) (access : Bool) {listeners : List UserDoc}
    (registered : ∀ other ∈ listeners, other ∈ session.screen.calendarsListeners ∨ access = true ∧ other = doc) :
    ∀ other ∈ listeners, Function.update session.lastRead doc.id (some access) other.id =
      some (!Function.update session.outlived doc.id
        (!access && session.screen.calendarsListeners.any fun listener => listener.id = doc.id) other.id) := by
  intro other member
  by_cases same : other.id = doc.id
  · rw [same, Function.update_self, Function.update_self]
    cases registered other member with
    | inl old =>
      have present : (session.screen.calendarsListeners.any fun listener => listener.id = doc.id) = true :=
        List.any_eq_true.mpr ⟨other, old, by simpa using same⟩
      rw [present]
      simp
    | inr new =>
      rw [new.1]
      rfl
  · rw [Function.update_of_ne same, Function.update_of_ne same]
    cases registered other member with
    | inl old => exact checked other old
    | inr new => exact absurd (congrArg UserDoc.id new.2) same

theorem checked_step (checked : Checked session) {action : Action}
    (moved : session.step format clock inviteesAdded action = some next) : Checked next := by
  obtain ⟨screen, called, rfl⟩ := Option.map_eq_some_iff.mp moved
  cases action with
  | authStateChanged user =>
    cases called
    exact checked
  | usersSnapshot position docs =>
    obtain ⟨listener, _, rfl⟩ := Option.map_eq_some_iff.mp called
    unfold Screen.usersSnapshot
    split
    · exact checked
    · exact checked
  | accessRead position outcome =>
    obtain ⟨doc, found, rfl⟩ := Option.map_eq_some_iff.mp called
    simp only [Checked, Screen.accessRead, Session.lastReadAfter, Session.outlivedAfter, found]
    cases outcome.access with
    | none => exact checked
    | some access =>
      apply checked_read checked doc access
      intro other member
      cases access with
      | true => simpa [or_comm] using member
      | false => exact .inl member
  | calendarsSnapshot position docs =>
    obtain ⟨doc, _, rfl⟩ := Option.map_eq_some_iff.mp called
    exact checked

theorem onlyGranted_step_iff (checked : Checked session) (granted : OnlyGranted session) {action : Action}
    (moved : session.step format clock inviteesAdded action = some next) :
    OnlyGranted next ↔ NotOutlived format clock session action := by
  obtain ⟨screen, called, rfl⟩ := Option.map_eq_some_iff.mp moved
  cases action with
  | authStateChanged user => exact iff_of_true granted trivial
  | usersSnapshot position docs => exact iff_of_true granted trivial
  | accessRead position outcome => exact iff_of_true granted trivial
  | calendarsSnapshot position docs =>
    obtain ⟨doc, found, rfl⟩ := Option.map_eq_some_iff.mp called
    have read := checked doc (List.mem_of_getElem? found)
    simp only [OnlyGranted, NotOutlived, Session.appendedAfter, found, Option.mem_some_iff, forall_eq', read]
    by_cases nothing : appendCalendars format clock doc.displayName docs [] = []
    · rw [nothing]
      exact iff_of_true granted fun _ => rfl
    · have brought : (appendCalendars format clock doc.displayName docs []).isEmpty = false := by simpa using nothing
      rw [brought]
      simp only [Bool.false_eq_true, if_false, List.forall_mem_append, List.forall_mem_singleton]
      constructor
      · intro ⟨_, now⟩ outlived
        rw [outlived] at now
        cases now
      · intro silent
        refine ⟨granted, ?_⟩
        cases outlived : session.outlived doc.id with
        | false => rfl
        | true => exact absurd (silent outlived) nothing

theorem outlived_step (none_outlived : ∀ name, session.outlived name = false) {action : Action}
    (kept : NotWithdrawn session action) (moved : session.step format clock inviteesAdded action = some next) :
    ∀ name, next.outlived name = false := by
  obtain ⟨screen, called, rfl⟩ := Option.map_eq_some_iff.mp moved
  cases action with
  | accessRead position outcome =>
    obtain ⟨doc, found, _⟩ := Option.map_eq_some_iff.mp called
    simp only [Session.outlivedAfter, found]
    intro name
    cases read : outcome.access with
    | none => exact none_outlived name
    | some access =>
      dsimp only
      by_cases same : name = doc.id
      · rw [same, Function.update_self]
        cases access with
        | true => rfl
        | false => simpa using kept doc found read
      · rw [Function.update_of_ne same]
        exact none_outlived name
  | _ => exact none_outlived

end Step

/-- In every run entries are appended only while the last completed read grants
access, exactly if no listener that has outlived a denial brings entries. -/
theorem onlyGranted_iff_notOutlived {Stamp : Type} (format : ℤ → Stamp) (clock : Clock) (inviteesAdded : List Invitee)
    (actions : List Action) :
    Always (Session.step format clock inviteesAdded) OnlyGranted (.initial Stamp) actions ↔
      Guarded (Session.step format clock inviteesAdded) (NotOutlived format clock) (.initial Stamp) actions := by
  apply always_iff_guarded_of_step_iff Checked
  case kept => exact fun session action next checked moved => checked_step checked moved
  case decided => exact fun session action next checked granted moved => onlyGranted_step_iff checked granted moved
  case start => exact List.forall_mem_nil _
  case lawful => exact List.forall_mem_nil _

/-- In particular they are where no read denies access to an invitee already listened to. -/
theorem onlyGranted_of_notWithdrawn {Stamp : Type} (format : ℤ → Stamp) (clock : Clock) (inviteesAdded : List Invitee)
    {actions : List Action}
    (guarded : Guarded (Session.step format clock inviteesAdded) NotWithdrawn (.initial Stamp) actions) :
    Always (Session.step format clock inviteesAdded) OnlyGranted (.initial Stamp) actions := by
  have keep : ∀ (session : Session Stamp) action next,
      (Checked session ∧ OnlyGranted session ∧ ∀ name, session.outlived name = false) →
      NotWithdrawn session action → session.step format clock inviteesAdded action = some next →
      Checked next ∧ OnlyGranted next ∧ ∀ name, next.outlived name = false := by
    intro session action next ⟨checked, granted, none_outlived⟩ kept moved
    have silent : NotOutlived format clock session action := by
      cases action with
      | calendarsSnapshot position docs =>
        intro doc _ outlived
        rw [none_outlived doc.id] at outlived
        cases outlived
      | _ => trivial
    exact ⟨checked_step checked moved, (onlyGranted_step_iff checked granted moved).mpr silent,
      outlived_step none_outlived kept moved⟩
  have start : Checked (.initial Stamp) ∧ OnlyGranted (.initial Stamp) ∧
      ∀ name, (Session.initial Stamp).outlived name = false :=
    ⟨List.forall_mem_nil _, List.forall_mem_nil _, fun _ => rfl⟩
  exact (always_of_guarded keep start guarded).mono fun session kept => kept.2.1

/-! ## Bob withdraws his access -/

def bobsCalendar (events : List Event) : CalendarDoc where
  id := "PlenR Calendar"
  title := some "Main Calendar"
  tag := some "local"
  events := some events
  items := none

/-- Bob has granted access and his schedule is shown. He denies a later
invitation, the users are reported again and the second read is denied; then his
calendar changes. -/
theorem withdrawn_schedule_shown :
    ¬ Always (Session.step (fun time => time) universalClock [⟨"bob", "Bob"⟩]) OnlyGranted (.initial ℤ)
      [.authStateChanged (some "ann"),
       .usersSnapshot 0 [⟨"bob", "Bob", "bob@mail"⟩], .accessRead 0 (.completed (some true)),
       .calendarsSnapshot 0 [bobsCalendar [.plain "dentist" 10 20]],
       .usersSnapshot 0 [⟨"bob", "Bob", "bob@mail"⟩], .accessRead 0 (.completed (some false)),
       .calendarsSnapshot 0 [bobsCalendar [.plain "dentist" 10 20, .plain "party" 30 40]]] := by
  intro always
  have shown := (((((((always.2 _ rfl).2 _ rfl).2 _ rfl).2 _ rfl).2 _ rfl).2 _ rfl).2 _ rfl)
  have denied := shown ("bob", some false) (by decide)
  cases denied

end PlenR.Screens.PendingEventDetails
