import PlenR.Screens.Contents
import PlenR.Screens.RetrieveEvents

/-! From the agenda to the store and back: `EventDetails.js` and the deletion.

The calendar screen runs among the writers of the app. A box of its agenda opens
a details screen, which is pushed and stays while the account changes; its form
deletes under the account signed in by then, always from the local calendar.
Every event outside the local calendars is imported and an imported event gets
no form, so the calendar is always the right one, and the account is the matter.

Beside the screens stand what the events collections are there for, and where
each details screen's event was read.
-/

set_option autoImplicit false

namespace PlenR.Screens.EventDetails

open PlenR.Time PlenR.Util Foundation Foundation.Run Foundation.Snapshots MyPlenR GoogleImport

structure Opened where
  event : Event
  source : EventsQuery

/-- A deletion that is on its way, under the account signed in when it was asked for. -/
structure Request where
  opened : Opened
  user : String

structure Deletion where
  opened : Opened
  before : Store
  after : Store

structure State where
  world : World
  /-- The screens pushed on the calendar screen, the top one first. -/
  details : List Opened
  /-- The modal `EditEvent`, with the event of its props. -/
  form : Option Opened
  requests : List Request
  deleted : Option Deletion
  contents : Contents

inductive Action where
  | write (write : TimelineSource.Write)
  | callback (action : MyPlenR.Action)
  /-- The box of an event is pressed; it is listed from the entry of the calendar. -/
  | press (calendar : String) (event : Event)
  | back
  | edit
  | cancel
  | confirmDeletion
  | deletionAnswered (position : ℕ) (succeeds : Bool)

def State.initial (clock : Clock) (today : ℤ) : State where
  world := .initial clock .empty today
  details := []
  form := none
  requests := []
  deleted := none
  contents := .empty

namespace State

def press (clock : Clock) (state : State) (calendar : String) (event : Event) : Option State :=
  (state.world.reports calendar).bind fun report =>
    if event ∈ (report.entry.getEvents clock state.world.screen.state.currentTime).toArray then
      some { state with details := { event, source := report.query } :: state.details }
    else none

/-- The button `edit` of the screen on top: an imported event only gets an alert. -/
def edit (state : State) : Option State :=
  match state.details with
  | [] => none
  | opened :: _ => if opened.event.isImported then some state else some { state with form := some opened }

/-- `onDeleteEvent` of `MyPlenR`, then `popToRoot` and `dismissModal`, which wait for no answer. -/
def confirmDeletion (state : State) (opened : Opened) : State :=
  match state.world.screen.state.currentUser with
  -- reading `uid` fails, and nothing is popped
  | none => state
  | some uid => { state with
      details := []
      form := none
      requests := state.requests ++ [{ opened := opened, user := uid }] }

def deletionAnswered (state : State) (position : ℕ) (request : Request) (succeeds : Bool) : State :=
  let state := { state with requests := state.requests.eraseIdx position }
  if succeeds then
    let store := state.world.store.deleteEvent request.user "PlenR Calendar" request.opened.event.id
    { state with
      world := { state.world with store := store }
      deleted := some { opened := request.opened, before := state.world.store, after := store }
      contents := state.contents.remove request.user "PlenR Calendar" request.opened.event.id }
  else state

end State

/-- The form lies over the other screens; writers and callbacks go on below it. -/
def step (clock : Clock) (state : State) : Action → Option State
  | .write write => (TimelineSource.step clock state.world.store write).map fun store =>
      { state with world := { state.world with store := store }, contents := state.contents.perform clock write }
  | .callback action => (state.world.step clock (.callback action)).map fun world => { state with world := world }
  | .press calendar event => if state.form.isNone then state.press clock calendar event else none
  | .back =>
      match state.form, state.details with
      | none, _ :: below => some { state with details := below }
      | _, _ => none
  | .edit => if state.form.isNone then state.edit else none
  | .cancel => state.form.map fun _ => { state with form := none }
  | .confirmDeletion => state.form.map fun opened => state.confirmDeletion opened
  | .deletionAnswered position succeeds =>
      state.requests[position]?.map fun request => state.deletionAnswered position request succeeds

def Action.browses : Action → Bool
  | .press _ _ | .back | .edit | .cancel => true
  | .write _ | .callback _ | .confirmDeletion | .deletionAnswered _ _ => false

theorem step_browses {clock : Clock} {state next : State} {action : Action} (browses : action.browses = true)
    (moved : step clock state action = some next) :
    ∃ details form, next = { state with details := details, form := form } := by
  cases action with
  | write write => cases browses
  | callback action => cases browses
  | press calendar event =>
    obtain ⟨_, pressed⟩ := Option.ite_none_right_eq_some.mp moved
    obtain ⟨_, _, pressed⟩ := Option.bind_eq_some_iff.mp pressed
    obtain ⟨_, same⟩ := Option.ite_none_right_eq_some.mp pressed
    exact ⟨_, _, (Option.some.inj same).symm⟩
  | back =>
    simp only [step] at moved
    split at moved
    next => exact ⟨_, _, (Option.some.inj moved).symm⟩
    next => cases moved
  | edit =>
    obtain ⟨_, edited⟩ := Option.ite_none_right_eq_some.mp moved
    unfold State.edit at edited
    split at edited
    next => cases edited
    next =>
      split at edited
      next => exact ⟨_, _, (Option.some.inj edited).symm⟩
      next => exact ⟨_, _, (Option.some.inj edited).symm⟩
  | cancel =>
    obtain ⟨_, _, rfl⟩ := Option.map_eq_some_iff.mp moved
    exact ⟨_, _, rfl⟩
  | confirmDeletion => cases browses
  | deletionAnswered position succeeds => cases browses

/-! ## Where events come from -/

/-- Outside the local calendar an event is imported. -/
def Origin (calendar : String) (event : Event) : Prop := calendar ≠ "PlenR Calendar" → event.isImported = true

def StoreOrigin (store : Store) : Prop :=
  ∀ user calendar, ∀ event ∈ store.events user calendar, Origin calendar event

section Origin
variable {clock : Clock} {store : Store}

theorem isImported_of_mem_eventsOf {items : List Event.GoogleItem} {event : Event} (member : event ∈ eventsOf clock items) :
    event.isImported = true := by
  obtain ⟨item, _, formatted⟩ := mem_eventsOf.mp member
  obtain ⟨times, _, rfl⟩ := Option.map_eq_some_iff.mp (times_of_formatGoogle formatted)
  rfl

theorem StoreOrigin.setEvent (origin : StoreOrigin store) {user calendar : String} {event : Event}
    (imported : Origin calendar event) : StoreOrigin (store.setEvent user calendar event) := by
  intro other name stored member
  rw [Store.mem_setEvent] at member
  split at member
  next here =>
    obtain ⟨rfl, rfl⟩ := here
    obtain rfl | ⟨before, _⟩ := member
    · exact imported
    · exact origin _ _ stored before
  next => exact origin other name stored member

theorem StoreOrigin.setEvents (origin : StoreOrigin store) (user calendar : String) {events : List Event}
    (imported : ∀ event ∈ events, event.isImported = true) :
    StoreOrigin (events.foldl (fun store event => store.setEvent user calendar event) store) := by
  induction events generalizing store with
  | nil => exact origin
  | cons event events ih =>
    obtain ⟨here, rest⟩ := List.forall_mem_cons.mp imported
    exact ih (origin.setEvent fun _ => here) rest

theorem StoreOrigin.deleteEvent (origin : StoreOrigin store) (user calendar id : String) :
    StoreOrigin (store.deleteEvent user calendar id) := by
  intro other name stored member
  exact origin other name stored (Store.mem_deleteEvent.mp member).1

theorem StoreOrigin.write (origin : StoreOrigin store) {write : TimelineSource.Write} {next : Store}
    (moved : TimelineSource.step clock store write = some next) : StoreOrigin next := by
  cases write with
  | signIn user =>
    cases moved
    exact origin
  | onAddEvent user data =>
    cases moved
    exact origin.setEvent fun elsewhere => absurd rfl elsewhere
  | sync user id summary freshId items =>
    cases moved
    unfold TimelineSource.sync
    rw [import_eq]
    have documented : StoreOrigin (store.setCalendar user
        { id := id, title := some summary, tag := some "imported", events := none, items := none }) := origin
    exact documented.setEvents user id fun event member => isImported_of_mem_eventsOf member

end Origin

/-! ## The calendars that there are -/

section Calendars
variable {clock : Clock} {store next : Store}

def KeepsCalendars (store next : Store) : Prop :=
  ∀ user, ∀ doc ∈ store.calendars user, ∃ kept ∈ next.calendars user, kept.id = doc.id

theorem calendars_setEvents (store : Store) (user calendar : String) (events : List Event) :
    (events.foldl (fun store event => store.setEvent user calendar event) store).calendars = store.calendars := by
  induction events generalizing store with
  | nil => rfl
  | cons event events ih => exact ih (store.setEvent user calendar event)

theorem keepsCalendars_setCalendar (store : Store) (user : String) (doc : CalendarDoc) :
    KeepsCalendars store (store.setCalendar user doc) := by
  intro other old member
  by_cases here : other = user
  · subst here
    by_cases same : old.id = doc.id
    · exact ⟨doc, Store.mem_setCalendar.mpr (by simp), same.symm⟩
    · exact ⟨old, Store.mem_setCalendar.mpr (by simp [member, same]), rfl⟩
  · exact ⟨old, Store.mem_setCalendar.mpr (by simpa [here] using member), rfl⟩

theorem keepsCalendars_write {write : TimelineSource.Write} (moved : TimelineSource.step clock store write = some next) :
    KeepsCalendars store next := by
  cases write with
  | signIn user =>
    cases moved
    exact keepsCalendars_setCalendar store user _
  | onAddEvent user data =>
    cases moved
    exact fun other doc member => ⟨doc, member, rfl⟩
  | sync user id summary freshId items =>
    cases moved
    unfold TimelineSource.sync KeepsCalendars
    rw [calendars_setEvents]
    exact keepsCalendars_setCalendar store user _

end Calendars

/-! ## What the screen has been told -/

structure Informed (world : World) : Prop where
  calendars : ∀ listener ∈ world.screen.eventsListeners,
    ∃ doc ∈ world.store.calendars listener.query.user, doc.id = listener.query.calendar
  origin : ∀ calendar report, world.reports calendar = some report → ∀ event ∈ report.docs,
    Origin report.query.calendar event

section Informed
variable {clock : Clock} {world next : World}

theorem Informed.store (informed : Informed world) {store : Store} (keeps : KeepsCalendars world.store store) :
    Informed { world with store := store } where
  calendars := by
    intro listener member
    obtain ⟨doc, present, same⟩ := informed.calendars listener member
    obtain ⟨kept, there, again⟩ := keeps _ doc present
    exact ⟨kept, there, again.trans same⟩
  origin := informed.origin

theorem Informed.callback (informed : Informed world) (stored : StoreOrigin world.store) {action : MyPlenR.Action}
    (moved : world.step clock (.callback action) = some next) : Informed next := by
  obtain ⟨screen, called, rfl⟩ := Option.map_eq_some_iff.mp moved
  cases action with
  | authStateChanged user =>
    cases called
    cases user with
    | none => exact ⟨informed.calendars, fun _ _ cleared => nomatch cleared⟩
    | some uid => exact ⟨informed.calendars, informed.origin⟩
  | calendarsSnapshot position docs =>
    obtain ⟨⟨query, listeners⟩, reported, rfl⟩ := Option.map_eq_some_iff.mp called
    have current := (deliver_report reported).current
    refine ⟨?_, informed.origin⟩
    intro listener member
    cases List.mem_append.mp member with
    | inl old => exact informed.calendars listener old
    | inr new =>
      obtain ⟨doc, present, rfl⟩ := List.mem_map.mp new
      exact ⟨doc, current.mem_iff.mp present, rfl⟩
  | eventsSnapshot position docs freshId =>
    obtain ⟨query, source, report, _⟩ := eventsSnapshot_cases called
    constructor
    case calendars =>
      intro listener member
      obtain ⟨before, old, same⟩ := report.query_mem member
      exact same ▸ informed.calendars before old
    case origin =>
      intro calendar last found event member
      simp only [World.reportsAfter, source, update_eq_some_iff] at found
      obtain ⟨rfl, rfl⟩ | ⟨_, before⟩ := found
      · exact stored _ _ event (mem_result.mp (report.current.mem_iff.mp member)).1
      · exact informed.origin calendar last before event member
  | pageChange today currentOffset =>
    cases called
    exact ⟨by simpa using informed.calendars, informed.origin⟩
  | daySelect day =>
    cases called
    exact ⟨informed.calendars, informed.origin⟩

end Informed

/-! ## What every step keeps -/

structure Kept (state : State) : Prop where
  recorded : Recorded state.world
  informed : Informed state.world
  refines : state.contents.Refines state.world.store
  stored : StoreOrigin state.world.store
  details : ∀ opened ∈ state.details, Origin opened.source.calendar opened.event
  form : ∀ opened ∈ state.form, opened.source.calendar = "PlenR Calendar"
  requests : ∀ request ∈ state.requests, request.opened.source.calendar = "PlenR Calendar"

theorem kept_initial (clock : Clock) (today : ℤ) : Kept (.initial clock today) where
  recorded := .initial clock .empty today
  informed := ⟨List.forall_mem_nil _, fun _ _ unreported => nomatch unreported⟩
  refines := .empty
  stored := fun _ _ _ member => absurd member List.not_mem_nil
  details := List.forall_mem_nil _
  form := fun _ closed => nomatch closed
  requests := List.forall_mem_nil _

section Step
variable {clock : Clock} {state next : State}

theorem Kept.press (kept : Kept state) {calendar : String} {event : Event}
    (moved : state.press clock calendar event = some next) : Kept next := by
  obtain ⟨report, found, pressed⟩ := Option.bind_eq_some_iff.mp moved
  obtain ⟨listed, same⟩ := Option.ite_none_right_eq_some.mp pressed
  cases same
  refine { kept with details := ?_ }
  rw [List.forall_mem_cons]
  refine ⟨?_, kept.details⟩
  have inside : event ∈ report.entry.eventsList.toArray := by
    rw [toArray_getEvents] at listed
    exact (List.mem_filter.mp listed).1
  exact kept.informed.origin calendar report found event ((kept.recorded.entry_perm found).mem_iff.mp inside)

theorem Kept.edit (kept : Kept state) (moved : state.edit = some next) : Kept next := by
  unfold State.edit at moved
  split at moved
  next => cases moved
  next opened below stack =>
    split at moved
    next => exact Option.some.inj moved ▸ kept
    next owned =>
      cases moved
      refine { kept with form := ?_ }
      intro edited same
      cases same
      have top : opened ∈ state.details := stack ▸ List.mem_cons_self
      by_contra elsewhere
      exact owned (kept.details opened top elsewhere)

theorem Kept.confirmDeletion (kept : Kept state) {opened : Opened} (form : opened ∈ state.form) :
    Kept (state.confirmDeletion opened) := by
  unfold State.confirmDeletion
  split
  next => exact kept
  next uid _ =>
    have closed : ∀ opened ∈ (none : Option Opened), opened.source.calendar = "PlenR Calendar" :=
      fun _ absent => nomatch absent
    refine { kept with details := List.forall_mem_nil _, form := closed, requests := ?_ }
    rw [List.forall_mem_append, List.forall_mem_singleton]
    exact ⟨kept.requests, kept.form opened form⟩

theorem Kept.deletionAnswered (kept : Kept state) (position : ℕ) (request : Request) (succeeds : Bool) :
    Kept (state.deletionAnswered position request succeeds) := by
  have requests : ∀ other ∈ state.requests.eraseIdx position, other.opened.source.calendar = "PlenR Calendar" :=
    fun other member => kept.requests other (List.mem_of_mem_eraseIdx member)
  unfold State.deletionAnswered
  split
  next =>
    constructor
    case recorded => exact kept.recorded.of_same rfl rfl (List.Subset.refl _)
    case informed => exact kept.informed.store fun user doc member => ⟨doc, member, rfl⟩
    case refines => exact kept.refines.deleteEvent request.user "PlenR Calendar" request.opened.event.id
    case stored => exact kept.stored.deleteEvent request.user "PlenR Calendar" request.opened.event.id
    case details => exact kept.details
    case form => exact kept.form
    case requests => exact requests
  next => exact { kept with requests := requests }

theorem kept_step (kept : Kept state) {action : Action} (moved : step clock state action = some next) : Kept next := by
  cases action with
  | write write =>
    obtain ⟨store, written, rfl⟩ := Option.map_eq_some_iff.mp moved
    constructor
    case recorded => exact kept.recorded.of_same rfl rfl (List.Subset.refl _)
    case informed => exact kept.informed.store (keepsCalendars_write written)
    case refines => exact kept.refines.write written
    case stored => exact kept.stored.write written
    case details => exact kept.details
    case form => exact kept.form
    case requests => exact kept.requests
  | callback action =>
    obtain ⟨world, called, rfl⟩ := Option.map_eq_some_iff.mp moved
    have store : world.store = state.world.store := by
      obtain ⟨_, _, rfl⟩ := Option.map_eq_some_iff.mp called
      rfl
    constructor
    case recorded => exact kept.recorded.step called
    case informed => exact kept.informed.callback kept.stored called
    case refines => exact store ▸ kept.refines
    case stored => exact store ▸ kept.stored
    case details => exact kept.details
    case form => exact kept.form
    case requests => exact kept.requests
  | press calendar event =>
    obtain ⟨_, pressed⟩ := Option.ite_none_right_eq_some.mp moved
    exact kept.press pressed
  | back =>
    simp only [step] at moved
    split at moved
    next _ below _ stack =>
      cases moved
      have details := kept.details
      rw [stack, List.forall_mem_cons] at details
      exact { kept with details := details.2 }
    next => cases moved
  | edit =>
    obtain ⟨_, edited⟩ := Option.ite_none_right_eq_some.mp moved
    exact kept.edit edited
  | cancel =>
    obtain ⟨_, _, rfl⟩ := Option.map_eq_some_iff.mp moved
    exact { kept with form := fun _ closed => nomatch closed }
  | confirmDeletion =>
    obtain ⟨opened, form, rfl⟩ := Option.map_eq_some_iff.mp moved
    exact kept.confirmDeletion form
  | deletionAnswered position succeeds =>
    obtain ⟨request, _, rfl⟩ := Option.map_eq_some_iff.mp moved
    exact kept.deletionAnswered position request succeeds

end Step

/-! ## Deletions -/

/-- The event that was opened, and nothing else, has gone from the calendar it was read from. -/
def Deletion.Exact (deletion : Deletion) : Prop :=
  ∀ user calendar stored, stored ∈ deletion.after.events user calendar ↔
    stored ∈ deletion.before.events user calendar ∧
      ¬ (user = deletion.opened.source.user ∧ calendar = deletion.opened.source.calendar ∧
        stored.id = deletion.opened.event.id)

def Exact (state : State) : Prop := ∀ deletion ∈ state.deleted, deletion.Exact

/-- A deletion that succeeds was asked for under the account the event was read from,
unless neither account has an event of that id. -/
def OfOwner (state : State) : Action → Prop
  | .deletionAnswered position true => ∀ request ∈ state.requests[position]?,
      request.user ≠ request.opened.source.user → ∀ user ∈ [request.user, request.opened.source.user],
        ∀ stored ∈ state.world.store.events user "PlenR Calendar", stored.id ≠ request.opened.event.id
  | _ => True

section Deletion
variable {clock : Clock}

theorem exact_iff {store : Store} {opened : Opened} {uid : String} (read : opened.source.calendar = "PlenR Calendar") :
    Deletion.Exact { opened, before := store, after := store.deleteEvent uid "PlenR Calendar" opened.event.id } ↔
      (uid ≠ opened.source.user → ∀ user ∈ [uid, opened.source.user],
        ∀ stored ∈ store.events user "PlenR Calendar", stored.id ≠ opened.event.id) := by
  unfold Deletion.Exact
  simp only [Store.mem_deleteEvent, read]
  constructor
  · intro same different user member stored inside gone
    obtain rfl | member := List.mem_cons.mp member
    · -- the event of the account signed in is gone, though it was not the one opened
      have kept := (same user "PlenR Calendar" stored).mpr ⟨inside, fun here => different here.1⟩
      exact kept.2 ⟨rfl, rfl⟩ gone
    · obtain rfl := List.mem_singleton.mp member
      -- the event that was opened is still there
      have kept := (same opened.source.user "PlenR Calendar" stored).mp ⟨inside, fun here => absurd here.1.symm different⟩
      exact kept.2 ⟨rfl, rfl, gone⟩
  · intro owned user calendar stored
    apply and_congr_right
    intro inside
    by_cases same : uid = opened.source.user
    · rw [same]
      tauto
    · have absent := owned same
      constructor
      · rintro _ ⟨rfl, rfl, gone⟩
        exact absent _ (by simp) stored inside gone
      · rintro _ ⟨rfl, rfl⟩ gone
        exact absent _ (by simp) stored inside gone

theorem exact_step_iff {state next : State} (kept : Kept state) (exact_ : Exact state) {action : Action}
    (moved : step clock state action = some next) : Exact next ↔ OfOwner state action := by
  cases action with
  | write write =>
    obtain ⟨_, _, rfl⟩ := Option.map_eq_some_iff.mp moved
    exact iff_of_true exact_ trivial
  | callback action =>
    obtain ⟨_, _, rfl⟩ := Option.map_eq_some_iff.mp moved
    exact iff_of_true exact_ trivial
  | press calendar event =>
    obtain ⟨_, _, rfl⟩ := step_browses rfl moved
    exact iff_of_true exact_ trivial
  | back =>
    obtain ⟨_, _, rfl⟩ := step_browses rfl moved
    exact iff_of_true exact_ trivial
  | edit =>
    obtain ⟨_, _, rfl⟩ := step_browses rfl moved
    exact iff_of_true exact_ trivial
  | cancel =>
    obtain ⟨_, _, rfl⟩ := step_browses rfl moved
    exact iff_of_true exact_ trivial
  | confirmDeletion =>
    obtain ⟨opened, _, rfl⟩ := Option.map_eq_some_iff.mp moved
    apply iff_of_true _ trivial
    unfold State.confirmDeletion
    split
    next => exact exact_
    next => exact exact_
  | deletionAnswered position succeeds =>
    obtain ⟨request, found, rfl⟩ := Option.map_eq_some_iff.mp moved
    cases succeeds with
    | false => exact iff_of_true exact_ trivial
    | true =>
      have read := kept.requests request (List.mem_of_getElem? found)
      simp only [State.deletionAnswered, if_true, OfOwner, found, Exact, Option.mem_def, Option.some.injEq, forall_eq']
      exact exact_iff read

end Deletion

/-- In every run of the app, whenever a deletion is reported as successful, exactly
the event that was opened has gone from the calendar it was read from, if and only
if every such deletion was asked for under the account the event was read from, or under
one where neither account has an event of that id. -/
theorem exact_iff_ofOwner (clock : Clock) (today : ℤ) (actions : List Action) :
    Always (step clock) Exact (.initial clock today) actions ↔
      Guarded (step clock) OfOwner (.initial clock today) actions := by
  apply always_iff_guarded_of_step_iff Kept
  case kept => exact fun _ _ _ kept moved => kept_step kept moved
  case decided => exact fun _ _ _ kept lawful moved => exact_step_iff kept lawful moved
  case start => exact kept_initial clock today
  case lawful => exact fun _ none_yet => nomatch none_yet

end PlenR.Screens.EventDetails
