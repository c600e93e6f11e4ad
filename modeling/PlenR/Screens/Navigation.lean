import PlenR.Foundation.Run
import PlenR.Screens.ConfirmPending

/-! The ways to an `AddEvent` form, and what its `done` button calls there.

`onAddEvent` is handed from screen to screen: `MyPlenR` makes it, and
`PendingEvents` and `PendingEventDetails` hand on what they were given.
`OrganiseEvent` opens `PendingEvents` as well and gives it nothing. The screens
above `MyPlenR` form a stack, topmost first, whose user stays signed in.
-/

set_option autoImplicit false

namespace PlenR.Screens.Navigation

open PlenR.Util Foundation Foundation.Run

abbrev OnAddEvent := Event → Option (List Invitee) → Effect Request

inductive Screen where
  /-- The last field is the event that `deletePendingEvent` deletes, if it was passed. -/
  | addEvent (inviteesAdded : Option (List Invitee)) (onAddEvent : Option OnAddEvent) (pending : Option PendingEvent)
  | organiseEvent
  | pendingEvents (onAddEvent : Option OnAddEvent)
  | pendingEventDetails (event : PendingEvent) (onAddEvent : Option OnAddEvent) (currentUser : Option String)

/-- `onAddEvent` as `MyPlenR` passes it to `AddEvent`; the invitees are ignored. -/
def addOwnEvent (currentUser : Option String) : OnAddEvent := fun data _ =>
  match currentUser with
  | none => .abort
  | some uid => .issue [.setEvent uid data]

structure Confirmation where
  props : AddEvent.Props
  form : AddEvent.State
  freshId : String

structure Nav where
  stack : List Screen
  confirmed : List Confirmation

def Nav.initial : Nav where
  stack := []
  confirmed := []

inductive Action where
  | add
  | organise
  | pendingEvents
  | send (title : String) (inviteesAdded : List Invitee)
  | openDetails (event : PendingEvent)
  | detailsAuthStateChanged
  | create
  | done (freshId : String) (form : AddEvent.State)
  | dismissAllModals
  | back

def detailsUser : List Screen → Option String
  | .pendingEventDetails _ _ currentUser :: _ => currentUser
  | _ => none

/-- The props of a form; `deletePendingEvent` reads the user when it is called. -/
def formProps (inviteesAdded : Option (List Invitee)) (onAddEvent : Option OnAddEvent)
    (pending : Option PendingEvent) (below : List Screen) : AddEvent.Props where
  inviteesAdded := inviteesAdded
  onAddEvent := onAddEvent
  deletePendingEvent := pending.map fun event => ConfirmPending.deletePendingEvent (detailsUser below) event

def Screen.told (host : String) : Screen → Screen
  | .pendingEventDetails event onAddEvent _ => .pendingEventDetails event onAddEvent (some host)
  | screen => screen

/-- A handler that ends dismisses all modals, one that aborts leaves the form open. -/
def Nav.done (freshId : String) (form : AddEvent.State) (props : AddEvent.Props) (nav : Nav) : Nav :=
  if form.title = "" then nav
  else
    { stack := if (AddEvent.done freshId props form).aborted then nav.stack else []
      confirmed := nav.confirmed ++ [{ props := props, form := form, freshId := freshId }] }

section Step
variable (host : String)

def navigate (action : Action) (stack : List Screen) : Option (List Screen) :=
  match action, stack with
  | .add, [] => some [.addEvent none (some (addOwnEvent (some host))) none]
  | .organise, [] => some [.organiseEvent]
  | .pendingEvents, [] => some [.pendingEvents (ConfirmPending.passedOnAddEvent (some host) .myPlenR)]
  | .send title inviteesAdded, .organiseEvent :: below =>
      -- without invitees or a title only an alert is shown
      if inviteesAdded = [] ∨ title = "" then some (.organiseEvent :: below)
      else some (.pendingEvents (ConfirmPending.passedOnAddEvent (some host) .organiseEvent) :: .organiseEvent :: below)
  | .openDetails event, .pendingEvents onAddEvent :: below =>
      some (.pendingEventDetails event onAddEvent none :: .pendingEvents onAddEvent :: below)
  | .detailsAuthStateChanged, stack => some (stack.map (Screen.told host))
  | .create, .pendingEventDetails event onAddEvent currentUser :: below =>
      some (.addEvent (some event.inviteesAdded) onAddEvent (some event) ::
        .pendingEventDetails event onAddEvent currentUser :: below)
  | .dismissAllModals, .pendingEvents _ :: _ => some []
  -- the topmost screen is cancelled or popped
  | .back, _ :: below => some below
  | _, _ => none

def step (nav : Nav) : Action → Option Nav
  | .done freshId form =>
      match nav.stack with
      | .addEvent inviteesAdded onAddEvent pending :: below =>
          some (nav.done freshId form (formProps inviteesAdded onAddEvent pending below))
      | _ => none
  | action => (navigate host action nav.stack).map fun stack => { nav with stack := stack }

/-- The callback is defined, the event is stored for the host and nothing aborts. -/
def Stored (confirmation : Confirmation) : Prop :=
  confirmation.props.onAddEvent.isSome ∧
    .setEvent host (confirmation.form.event confirmation.freshId) ∈
      (AddEvent.done confirmation.freshId confirmation.props confirmation.form).requests ∧
    (AddEvent.done confirmation.freshId confirmation.props confirmation.form).aborted = false

def AllStored (nav : Nav) : Prop := ∀ confirmation ∈ nav.confirmed, Stored host confirmation

def DetailsTold (stack : List Screen) : Prop :=
  ∀ event onAddEvent currentUser, .pendingEventDetails event onAddEvent currentUser ∈ stack → currentUser.isSome

/-- A titled form is confirmed only without `OrganiseEvent` below it, and after the
details screen below it has been told of its user. -/
def Answered (nav : Nav) : Action → Prop
  | .done _ form => form.title = "" ∨ Screen.organiseEvent ∉ nav.stack ∧ DetailsTold nav.stack
  | _ => True

/-! ## The stacks of a run -/

open ConfirmPending (Opener passedOnAddEvent)

def opened : Opener → List Screen
  | .myPlenR => []
  | .organiseEvent => [.organiseEvent]

def pendingOver (opener : Opener) : List Screen := .pendingEvents (passedOnAddEvent (some host) opener) :: opened opener

def detailsOver (opener : Opener) (event : PendingEvent) (currentUser : Option String) : List Screen :=
  .pendingEventDetails event (passedOnAddEvent (some host) opener) currentUser :: pendingOver host opener

inductive Nested : List Screen → Prop where
  | root : Nested []
  | add : Nested [.addEvent none (some (addOwnEvent (some host))) none]
  | organise : Nested [.organiseEvent]
  | pending (opener : Opener) : Nested (pendingOver host opener)
  | details (opener : Opener) (event : PendingEvent) {currentUser : Option String} :
      (∀ user ∈ currentUser, user = host) → Nested (detailsOver host opener event currentUser)
  | create (opener : Opener) (event : PendingEvent) {currentUser : Option String} :
      (∀ user ∈ currentUser, user = host) →
      Nested (.addEvent (some event.inviteesAdded) (passedOnAddEvent (some host) opener) (some event) ::
        detailsOver host opener event currentUser)

variable {host}

theorem nested_opened (opener : Opener) : Nested host (opened opener) := by
  cases opener with
  | myPlenR => exact .root
  | organiseEvent => exact .organise

theorem Nested.below {screen : Screen} {below : List Screen} (nested : Nested host (screen :: below)) :
    Nested host below := by
  cases nested with
  | add => exact .root
  | organise => exact .root
  | pending opener => exact nested_opened opener
  | details opener event user => exact .pending opener
  | create opener event user => exact .details opener event user

theorem map_told_opened (opener : Opener) : (opened opener).map (Screen.told host) = opened opener := by
  cases opener with
  | myPlenR => rfl
  | organiseEvent => rfl

theorem Nested.told {stack : List Screen} (nested : Nested host stack) : Nested host (stack.map (Screen.told host)) := by
  have same : ∀ user ∈ some host, user = host := fun user member => (Option.some.inj member).symm
  cases nested with
  | root => exact .root
  | add => exact .add
  | organise => exact .organise
  | pending opener =>
    rw [pendingOver, List.map_cons, map_told_opened]
    exact .pending opener
  | details opener event user =>
    rw [detailsOver, pendingOver, List.map_cons, List.map_cons, map_told_opened]
    exact .details opener event same
  | create opener event user =>
    rw [detailsOver, pendingOver, List.map_cons, List.map_cons, List.map_cons, map_told_opened]
    exact .create opener event same

theorem nested_done {nav : Nav} (nested : Nested host nav.stack) (freshId : String) (form : AddEvent.State)
    (props : AddEvent.Props) : Nested host (nav.done freshId form props).stack := by
  unfold Nav.done
  split
  · exact nested
  · dsimp only
    split
    · exact nested
    · exact .root

theorem nested_navigate {stack next : List Screen} (nested : Nested host stack) {action : Action}
    (moved : navigate host action stack = some next) : Nested host next := by
  cases action with
  | add =>
    cases nested with
    | root =>
      cases moved
      exact .add
    | _ => cases moved
  | organise =>
    cases nested with
    | root =>
      cases moved
      exact .organise
    | _ => cases moved
  | pendingEvents =>
    cases nested with
    | root =>
      cases moved
      exact .pending .myPlenR
    | _ => cases moved
  | send title inviteesAdded =>
    cases nested with
    | organise =>
      simp only [navigate] at moved
      split at moved
      · cases moved
        exact .organise
      · cases moved
        exact .pending .organiseEvent
    | _ => cases moved
  | openDetails event =>
    cases nested with
    | pending opener =>
      cases moved
      exact .details opener event nofun
    | _ => cases moved
  | detailsAuthStateChanged =>
    cases moved
    exact nested.told
  | create =>
    cases nested with
    | details opener event user =>
      cases moved
      exact .create opener event user
    | _ => cases moved
  | done freshId form => cases moved
  | dismissAllModals =>
    cases nested with
    | pending opener =>
      cases moved
      exact .root
    | _ => cases moved
  | back =>
    cases stack with
    | nil => cases moved
    | cons screen below =>
      cases moved
      exact nested.below

theorem nested_step {nav next : Nav} (nested : Nested host nav.stack) {action : Action}
    (moved : step host nav action = some next) : Nested host next.stack := by
  obtain ⟨stack, confirmed⟩ := nav
  cases action with
  | done freshId form =>
    cases nested with
    | add =>
      cases moved
      exact nested_done .add freshId form _
    | create opener event user =>
      cases moved
      exact nested_done (.create opener event user) freshId form _
    | _ => cases moved
  | detailsAuthStateChanged =>
    cases moved
    exact nested.told
  | _ =>
    obtain ⟨after, navigated, rfl⟩ := Option.map_eq_some_iff.mp moved
    exact nested_navigate nested navigated

/-! ## One step -/

theorem stored_own (form : AddEvent.State) (freshId : String) (titled : form.title ≠ "") (below : List Screen) :
    Stored host ⟨formProps none (some (addOwnEvent (some host))) none below, form, freshId⟩ := by
  simp [Stored, AddEvent.done, titled, formProps, addOwnEvent, Effect.andThen, Effect.issue]

/-- The form for a pending event stores the event exactly if `MyPlenR` opened
`PendingEvents` and the details screen knows its user. -/
theorem stored_pending_iff (form : AddEvent.State) (freshId : String) (titled : form.title ≠ "") (opener : Opener)
    (event : PendingEvent) (currentUser : Option String) :
    Stored host ⟨formProps (some event.inviteesAdded) (passedOnAddEvent (some host) opener) (some event)
        (detailsOver host opener event currentUser), form, freshId⟩ ↔
      opener = .myPlenR ∧ currentUser.isSome := by
  cases opener with
  | organiseEvent => simp [Stored, formProps, passedOnAddEvent]
  | myPlenR =>
    cases currentUser with
    | none =>
      simp [Stored, AddEvent.done, titled, formProps, detailsOver, detailsUser, passedOnAddEvent,
        ConfirmPending.onAddEvent, ConfirmPending.deletePendingEvent, Effect.andThen, Effect.issue, Effect.abort]
    | some uid =>
      simp [Stored, AddEvent.done, titled, formProps, detailsOver, detailsUser, passedOnAddEvent,
        ConfirmPending.onAddEvent, ConfirmPending.deletePendingEvent, Effect.andThen, Effect.issue]

theorem answered_own : Screen.organiseEvent ∉ [Screen.addEvent none (some (addOwnEvent (some host))) none] ∧
    DetailsTold [Screen.addEvent none (some (addOwnEvent (some host))) none] := by
  simp [DetailsTold]

theorem answered_pending_iff (inviteesAdded : Option (List Invitee)) (onAddEvent : Option OnAddEvent)
    (pending : Option PendingEvent) (opener : Opener) (event : PendingEvent) (currentUser : Option String) :
    (Screen.organiseEvent ∉ .addEvent inviteesAdded onAddEvent pending :: detailsOver host opener event currentUser ∧
        DetailsTold (.addEvent inviteesAdded onAddEvent pending :: detailsOver host opener event currentUser)) ↔
      opener = .myPlenR ∧ currentUser.isSome := by
  cases opener with
  | organiseEvent => simp [detailsOver, pendingOver, opened]
  | myPlenR =>
    constructor
    · intro ⟨_, told⟩
      exact ⟨rfl, told event _ currentUser (List.mem_cons_of_mem _ List.mem_cons_self)⟩
    · intro ⟨_, known⟩
      constructor
      · simp [detailsOver, pendingOver, opened]
      · intro other callback user member
        simp only [detailsOver, pendingOver, opened, List.mem_cons, reduceCtorEq, Screen.pendingEventDetails.injEq,
          List.not_mem_nil, or_false, false_or] at member
        rw [member.2.2]
        exact known

theorem allStored_done_iff {nav : Nav} (stored : AllStored host nav) (freshId : String) (form : AddEvent.State)
    (props : AddEvent.Props) :
    AllStored host (nav.done freshId form props) ↔ form.title = "" ∨ Stored host ⟨props, form, freshId⟩ := by
  unfold Nav.done
  by_cases untitled : form.title = ""
  · rw [if_pos untitled]
    exact iff_of_true stored (.inl untitled)
  · rw [if_neg untitled]
    simp only [AllStored, List.forall_mem_append, List.forall_mem_singleton, untitled, false_or]
    exact and_iff_right stored

theorem allStored_step_iff {nav next : Nav} (nested : Nested host nav.stack) (stored : AllStored host nav)
    {action : Action} (moved : step host nav action = some next) : AllStored host next ↔ Answered nav action := by
  obtain ⟨stack, confirmed⟩ := nav
  cases action with
  | done freshId form =>
    cases nested with
    | add =>
      cases moved
      rw [allStored_done_iff stored]
      by_cases untitled : form.title = ""
      · exact iff_of_true (.inl untitled) (.inl untitled)
      · exact iff_of_true (.inr (stored_own form freshId untitled [])) (.inr answered_own)
    | create opener event user =>
      cases moved
      rw [allStored_done_iff stored]
      simp only [Answered, answered_pending_iff]
      by_cases untitled : form.title = ""
      · exact iff_of_true (.inl untitled) (.inl untitled)
      · simp only [untitled, false_or]
        exact stored_pending_iff form freshId untitled opener event _
    | _ => cases moved
  | detailsAuthStateChanged =>
    cases moved
    exact iff_of_true stored trivial
  | _ =>
    -- no other action confirms anything
    obtain ⟨after, _, rfl⟩ := Option.map_eq_some_iff.mp moved
    exact iff_of_true stored trivial

end Step

/-- In every run each confirmed event is stored without an abort exactly if no titled
form is confirmed above `OrganiseEvent`, or before the details screen knows its user. -/
theorem allStored_iff_answered (host : String) (actions : List Action) :
    Always (step host) (AllStored host) .initial actions ↔ Guarded (step host) Answered .initial actions := by
  apply always_iff_guarded_of_step_iff fun nav => Nested host nav.stack
  case kept => exact fun nav action next nested moved => nested_step nested moved
  case decided => exact fun nav action next nested stored moved => allStored_step_iff nested stored moved
  case start => exact .root
  case lawful => exact List.forall_mem_nil _

/-- An event is organised, opened from the list that `Send` opens, and confirmed there. -/
theorem organised_event_not_stored :
    ¬ Always (step "ann") (AllStored "ann") .initial
      [.organise, .send "Dinner" [⟨"bob", "Bob"⟩], .openDetails ConfirmPending.dinner, .detailsAuthStateChanged,
       .create, .done "e1" ConfirmPending.dinnerForm] := by
  intro always
  have stored := ((((((always.2 _ rfl).2 _ rfl).2 _ rfl).2 _ rfl).2 _ rfl).2 _ rfl)
  have defined := (stored _ List.mem_cons_self).1
  cases defined

end PlenR.Screens.Navigation
