import PlenR.Foundation.Snapshots
import PlenR.Screens.Navigation
import PlenR.Screens.OrganiseEvent

/-! From an invitation to the event in everybody's calendar.

`Send` adds an invitation to the notifications of each invitee under the user of the
form, and the pending event under the user of `MyPlenR`. A pending event is listed,
opened and confirmed under whoever is signed in by then, and is put into the
calendars of all its invitees. The screens hear of a change of the account one by
one, no request is waited for, and answers come in any order. A dismissed screen
may still act here, which allows more than the app does.
-/

set_option autoImplicit false

namespace PlenR.Screens.Invitations

open PlenR.Time PlenR.Util Foundation Foundation.Run Foundation.Snapshots ConfirmPending

/-- A `PendingEvents` screen; beside its list stands whose events were reported last. -/
structure PendingList where
  opener : Opener
  currentUser : Option String
  pendingEvents : List PendingEvent
  listeners : List (Listener String PendingEvent)
  source : Option String

structure Details where
  opener : Opener
  event : PendingEvent
  owner : String
  currentUser : Option String
  day_selected : ℤ

structure AddForm where
  details : ℕ
  state : AddEvent.State

structure Device where
  currentUser : Option String
  forms : List OrganiseEvent.Form
  lists : List PendingList
  details : List Details
  addForms : List AddForm

def Device.initial : Device where
  currentUser := none
  forms := []
  lists := []
  details := []
  addForms := []

inductive Outgoing where
  /-- `users/{user}/notifications`, added to. -/
  | invite (user : String) (doc : Notification)
  /-- `users/{user}/pending_events`, added to. -/
  | organise (user : String) (pending : PendingEvent)
  | write (request : Request)

/-- Beside the documents and the requests stand four records no code keeps: who was
sent which invitation, who organised and who confirmed which event, and what an
account has put into its own calendar. -/
structure World where
  database : Database
  requests : List Outgoing
  devices : ℕ → Device
  sent : List (String × Notification)
  organised : List (String × PendingEvent)
  confirmed : List (String × PendingEvent × Event)
  own : List (String × Event)

def World.initial : World where
  database := { store := .empty, pendingEvents := fun _ => [] }
  requests := []
  devices := fun _ => .initial
  sent := []
  organised := []
  confirmed := []
  own := []

/-! ## The screens of a device -/

inductive ScreenAction where
  /-- The listener of `MyPlenR`. -/
  | authStateChanged (user : Option String)
  | openForm (currentDate : ℤ)
  | formAuth (form : ℕ) (user : Option OrganiseEvent.Host)
  | form (form : ℕ) (action : OrganiseEvent.Action)
  | openList
  | listAuth (list : ℕ) (user : Option String)
  | listSnapshot (list position : ℕ) (docs : List PendingEvent)
  | openDetails (list position : ℕ) (now : ℤ)
  | detailsAuth (details : ℕ) (user : Option String)
  | create (details : ℕ) (today : ℤ)
  | change (addForm : ℕ) (change : EditEvent.Change)

namespace PendingList

def initial (opener : Opener) : PendingList where
  opener := opener
  currentUser := none
  pendingEvents := []
  listeners := []
  source := none

def authStateChanged (user : Option String) (list : PendingList) : PendingList :=
  match user with
  | some uid => { list with currentUser := some uid, listeners := list.listeners ++ [subscribe uid] }
  -- the user is set before reading `user.uid` fails
  | none => { list with currentUser := none }

def snapshot (pendingEvents : String → List PendingEvent) (position : ℕ) (docs : List PendingEvent)
    (list : PendingList) : Option PendingList :=
  (deliver pendingEvents list.listeners position docs).map fun (user, listeners) =>
    { list with pendingEvents := docs, listeners := listeners, source := some user }

end PendingList

/-- A press of an element of the list; the details screen finds no `start` in its properties. -/
def PendingList.press (list : PendingList) (position : ℕ) (now : ℤ) : Option Details :=
  list.source.bind fun owner => list.pendingEvents[position]?.map fun event =>
    { opener := list.opener, event := event, owner := owner, currentUser := none, day_selected := now }

section Clock
variable (clock : WallClock)

def Details.prefill (details : Details) : AddEvent.Prefill where
  title := some details.event.title
  location := some details.event.location
  notes := some details.event.notes
  year_selected := clock.yearOf details.day_selected
  month_selected := clock.monthOf details.day_selected
  day_selected := clock.dateOf details.day_selected

def Device.step (pendingEvents : String → List PendingEvent) (device : Device) : ScreenAction → Option Device
  | .authStateChanged user => some { device with currentUser := user }
  | .openForm currentDate => some { device with forms := device.forms ++ [.initial clock.toDayClock currentDate] }
  | .formAuth position user => device.forms[position]?.map fun form =>
      { device with
        forms := device.forms.set position { form with state := { form.state with currentUser := user } } }
  | .form position action => device.forms[position]?.bind fun form =>
      (OrganiseEvent.step clock.toDayClock form action).map fun next =>
        { device with forms := device.forms.set position next }
  | .openList => some { device with lists := device.lists ++ [.initial .myPlenR] }
  | .listAuth position user => device.lists[position]?.map fun list =>
      { device with lists := device.lists.set position (list.authStateChanged user) }
  | .listSnapshot position listener docs => device.lists[position]?.bind fun list =>
      (list.snapshot pendingEvents listener docs).map fun next =>
        { device with lists := device.lists.set position next }
  | .openDetails position place now => device.lists[position]?.bind fun list =>
      (list.press place now).map fun details => { device with details := device.details ++ [details] }
  | .detailsAuth position user => device.details[position]?.map fun details =>
      { device with details := device.details.set position { details with currentUser := user } }
  | .create position today => device.details[position]?.map fun details =>
      { device with
        addForms := device.addForms ++
          [{ details := position, state := .initial clock today (details.prefill clock) }] }
  | .change position change => device.addForms[position]?.map fun form =>
      { device with
        addForms := device.addForms.set position { form with state := form.state.change clock.toClock change } }

/-! ## The parties -/

inductive Action where
  | screen (device : ℕ) (action : ScreenAction)
  /-- `onAddEvent` of `MyPlenR`, for an event of one's own that was added or edited. -/
  | put (device : ℕ) (data : Event)
  | send (device form : ℕ) (draw : ℕ → String) (id : String)
  | delete (device details : ℕ)
  /-- `done` of the form over a pending event. -/
  | confirm (device addForm : ℕ) (freshId : String)
  | answered (position : ℕ) (success : Bool)

/-- `eventData`, under the id that `add` draws. -/
def pendingEvent (id : String) (form : OrganiseEvent.State) : PendingEvent where
  id := id
  title := form.title
  start := form.start
  end_ := form.end_
  location := form.location
  notes := form.notes
  inviteesAdded := form.inviteesAdded.map fun invitee => { id := invitee.id, displayName := invitee.displayName }

def Device.props (device : Device) (details : Details) : AddEvent.Props where
  inviteesAdded := some details.event.inviteesAdded
  onAddEvent := passedOnAddEvent device.currentUser details.opener
  deletePendingEvent := some (deletePendingEvent details.currentUser details.event)

/-- The account `onAddEvent` acts for, if it is there, knows an account and is handed an event. -/
def Device.confirmation (device : Device) (details : Details) (handed : Option Event) :
    List (String × PendingEvent × Event) :=
  match details.opener, device.currentUser, handed with
  | .myPlenR, some uid, some event => [(uid, details.event, event)]
  | _, _, _ => []

namespace World

def setDevice (index : ℕ) (device : Device) (world : World) : World :=
  { world with devices := Function.update world.devices index device }

def invite (form : OrganiseEvent.State) (draw : ℕ → String) (world : World) : World :=
  { world with
    requests := world.requests ++ (form.send draw).map fun (user, doc) => .invite user doc
    sent := world.sent ++ form.send draw }

/-- `onOrganiseEvent`, which aborts if `MyPlenR` knows no user, and the screen shown after it. -/
def organise (index : ℕ) (pending : PendingEvent) (world : World) : World :=
  match (world.devices index).currentUser with
  | none => world
  | some uid =>
      { world.setDevice index
          { world.devices index with lists := (world.devices index).lists ++ [.initial .organiseEvent] } with
        requests := world.requests ++ [.organise uid pending]
        organised := world.organised ++ [(uid, pending)] }

def send (index : ℕ) (form : OrganiseEvent.State) (draw : ℕ → String) (id : String) (world : World) : World :=
  (world.invite form draw).organise index (pendingEvent id form)

def confirm (index : ℕ) (details : Details) (form : AddEvent.State) (freshId : String) (world : World) : World :=
  let confirmation := (world.devices index).confirmation details (form.handed freshId)
  { world with
    requests := world.requests ++
      (AddEvent.done freshId ((world.devices index).props details) form).requests.map .write
    confirmed := world.confirmed ++ confirmation
    own := world.own ++ confirmation.map fun (uid, _, event) => (uid, event) }

def performed (database : Database) : Outgoing → Database
  | .invite user doc => { database with store := database.store.setNotification user doc }
  | .organise user pending =>
      { database with
        pendingEvents := Function.update database.pendingEvents user
          (Store.setDoc PendingEvent.id (database.pendingEvents user) pending) }
  | .write request => database.perform request

end World

def step (world : World) : Action → Option World
  | .screen index action =>
      ((world.devices index).step clock world.database.pendingEvents action).map fun device =>
        world.setDevice index device
  | .put index data => some
      { world with
        requests := world.requests ++
          (Navigation.addOwnEvent (world.devices index).currentUser data none).requests.map .write
        own := world.own ++ (world.devices index).currentUser.toList.map fun uid => (uid, data) }
  | .send index position draw id => (world.devices index).forms[position]?.bind fun form =>
      -- otherwise there is an alert without this button
      if form.state.numOfInvitees ≠ 0 ∧ form.state.title ≠ "" then some (world.send index form.state draw id)
      else none
  | .delete index position => (world.devices index).details[position]?.map fun details =>
      { world with
        requests := world.requests ++ (deletePendingEvent details.currentUser details.event).requests.map .write }
  | .confirm index position freshId => (world.devices index).addForms[position]?.bind fun form =>
      (world.devices index).details[form.details]?.map fun details => world.confirm index details form.state freshId
  | .answered position success => world.requests[position]?.map fun request =>
      { world with
        requests := world.requests.eraseIdx position
        database := if success then World.performed world.database request else world.database }

end Clock

/-! ## Who was invited -/

structure Announces (doc : Notification) (pending : PendingEvent) : Prop where
  title : doc.title = pending.title
  location : doc.location = pending.location
  start : doc.start = pending.start
  end_ : doc.end_ = pending.end_
  notes : doc.notes = pending.notes
  inviteesAdded : doc.inviteesAdded = pending.inviteesAdded

def Invited (sent : List (String × Notification)) (host : String) (pending : PendingEvent) (user : String) : Prop :=
  ∃ doc, (user, doc) ∈ sent ∧ doc.host_id = host ∧ Announces doc pending

def AllInvited (sent : List (String × Notification)) (host : String) (pending : PendingEvent) : Prop :=
  ∀ invitee ∈ pending.inviteesAdded, Invited sent host pending invitee.id

/-- Who organises or confirms an event has invited everyone on its list, and nobody
else gets it: what is in a calendar was put there by its account, or made of a
pending event to which the account was invited by the one who confirmed it. -/
structure OnlyInvited (world : World) : Prop where
  organised : ∀ entry ∈ world.organised, AllInvited world.sent entry.1 entry.2
  confirmed : ∀ entry ∈ world.confirmed, AllInvited world.sent entry.1 entry.2.1
  stored : ∀ user, ∀ event ∈ world.database.store.events user "PlenR Calendar",
    (user, event) ∈ world.own ∨
      ∃ host pending, (host, pending, event) ∈ world.confirmed ∧ Invited world.sent host pending user

/-- `Send` is pressed when the form and `MyPlenR` know the same user, and a pending
event is confirmed by the account from whose list it was opened, or else by one who
has sent all the invitations before. -/
def ByHost (world : World) : Action → Prop
  | .send index position _ id => ∀ form ∈ (world.devices index).forms[position]?,
      ∀ uid ∈ (world.devices index).currentUser,
        form.state.currentUser.map OrganiseEvent.Host.uid = some uid ∨
          AllInvited world.sent uid (pendingEvent id form.state)
  | .confirm index position freshId => ∀ form ∈ (world.devices index).addForms[position]?,
      ∀ details ∈ (world.devices index).details[form.details]?,
        ∀ entry ∈ (world.devices index).confirmation details (form.state.handed freshId),
          entry.1 = details.owner ∨ AllInvited world.sent entry.1 details.event
  | _ => True

/-! ## Where pending events and events come from -/

/-- The account has put the event into its own calendar, or is on the list of the
pending event it was made of. -/
def Rightful (world : World) (user : String) (event : Event) : Prop :=
  (user, event) ∈ world.own ∨
    ∃ host pending, (host, pending, event) ∈ world.confirmed ∧ user ∈ pending.inviteesAdded.map Invitee.id

def Accounted (world : World) : Outgoing → Prop
  | .organise user pending => (user, pending) ∈ world.organised
  | .write (.setEvent user event) => Rightful world user event
  | _ => True

structure DeviceKept (organised : List (String × PendingEvent)) (device : Device) : Prop where
  lists : ∀ list ∈ device.lists, ∀ owner ∈ list.source, ∀ pending ∈ list.pendingEvents, (owner, pending) ∈ organised
  details : ∀ details ∈ device.details, (details.owner, details.event) ∈ organised

structure Kept (world : World) : Prop where
  requests : ∀ request ∈ world.requests, Accounted world request
  stored : ∀ user, ∀ event ∈ world.database.store.events user "PlenR Calendar", Rightful world user event
  pending : ∀ user, ∀ pending ∈ world.database.pendingEvents user, (user, pending) ∈ world.organised
  devices : ∀ index, DeviceKept world.organised (world.devices index)

section Device
variable {organised : List (String × PendingEvent)} {device next : Device}

theorem DeviceKept.mono (kept : DeviceKept organised device) {more : List (String × PendingEvent)}
    (grown : organised ⊆ more) : DeviceKept more device where
  lists := fun list member owner source pending listed => grown (kept.lists list member owner source pending listed)
  details := fun details member => grown (kept.details details member)

theorem DeviceKept.addList (kept : DeviceKept organised device) (opener : Opener) :
    DeviceKept organised { device with lists := device.lists ++ [.initial opener] } := by
  refine { kept with lists := ?_ }
  rw [List.forall_mem_append, List.forall_mem_singleton]
  exact ⟨kept.lists, fun _ unreported => nomatch unreported⟩

theorem DeviceKept.setList (kept : DeviceKept organised device) (position : ℕ) {list : PendingList}
    (listed : ∀ owner ∈ list.source, ∀ pending ∈ list.pendingEvents, (owner, pending) ∈ organised) :
    DeviceKept organised { device with lists := device.lists.set position list } := by
  refine { kept with lists := ?_ }
  intro other member
  cases List.mem_or_eq_of_mem_set member with
  | inl old => exact kept.lists other old
  | inr new => exact new ▸ listed

theorem DeviceKept.step {clock : WallClock} {pendingEvents : String → List PendingEvent}
    (kept : DeviceKept organised device)
    (stored : ∀ user, ∀ pending ∈ pendingEvents user, (user, pending) ∈ organised) {action : ScreenAction}
    (moved : device.step clock pendingEvents action = some next) : DeviceKept organised next := by
  cases action with
  | authStateChanged user =>
    cases moved
    exact ⟨kept.lists, kept.details⟩
  | openForm currentDate =>
    cases moved
    exact ⟨kept.lists, kept.details⟩
  | formAuth position user =>
    obtain ⟨form, _, rfl⟩ := Option.map_eq_some_iff.mp moved
    exact ⟨kept.lists, kept.details⟩
  | form position action =>
    obtain ⟨form, _, moved⟩ := Option.bind_eq_some_iff.mp moved
    obtain ⟨changed, _, rfl⟩ := Option.map_eq_some_iff.mp moved
    exact ⟨kept.lists, kept.details⟩
  | openList =>
    cases moved
    exact kept.addList .myPlenR
  | listAuth position user =>
    obtain ⟨list, found, rfl⟩ := Option.map_eq_some_iff.mp moved
    apply kept.setList
    have listed := kept.lists list (List.mem_of_getElem? found)
    cases user with
    | none => exact listed
    | some uid => exact listed
  | listSnapshot position listener docs =>
    obtain ⟨list, _, moved⟩ := Option.bind_eq_some_iff.mp moved
    obtain ⟨reported, called, rfl⟩ := Option.map_eq_some_iff.mp moved
    obtain ⟨⟨user, listeners⟩, delivered, rfl⟩ := Option.map_eq_some_iff.mp called
    apply kept.setList
    -- the report holds what is stored for the user of the listener
    intro owner same pending member
    obtain rfl := Option.some.inj same
    exact stored user pending ((deliver_report delivered).current.mem_iff.mp member)
  | openDetails position place now =>
    obtain ⟨list, found, moved⟩ := Option.bind_eq_some_iff.mp moved
    obtain ⟨details, pressed, rfl⟩ := Option.map_eq_some_iff.mp moved
    obtain ⟨owner, source, pressed⟩ := Option.bind_eq_some_iff.mp pressed
    obtain ⟨event, listed, rfl⟩ := Option.map_eq_some_iff.mp pressed
    refine { kept with details := ?_ }
    rw [List.forall_mem_append, List.forall_mem_singleton]
    exact ⟨kept.details, kept.lists list (List.mem_of_getElem? found) owner source event (List.mem_of_getElem? listed)⟩
  | detailsAuth position user =>
    obtain ⟨details, found, rfl⟩ := Option.map_eq_some_iff.mp moved
    refine { kept with details := ?_ }
    intro other member
    cases List.mem_or_eq_of_mem_set member with
    | inl old => exact kept.details other old
    | inr new =>
      rw [new]
      exact kept.details details (List.mem_of_getElem? found)
  | create position today =>
    obtain ⟨details, _, rfl⟩ := Option.map_eq_some_iff.mp moved
    exact ⟨kept.lists, kept.details⟩
  | change position change =>
    obtain ⟨form, _, rfl⟩ := Option.map_eq_some_iff.mp moved
    exact ⟨kept.lists, kept.details⟩

end Device

section Keep
variable {world : World}

theorem Rightful.grow {larger : World} {user : String} {event : Event} (own : world.own ⊆ larger.own)
    (confirmed : world.confirmed ⊆ larger.confirmed) (rightful : Rightful world user event) :
    Rightful larger user event := by
  obtain put | ⟨host, pending, made, listed⟩ := rightful
  · exact .inl (own put)
  · exact .inr ⟨host, pending, confirmed made, listed⟩

theorem Kept.grow (kept : Kept world) (sent : List (String × Notification)) {organised : List (String × PendingEvent)}
    {confirmed : List (String × PendingEvent × Event)} {own : List (String × Event)}
    (moreOrganised : world.organised ⊆ organised) (moreConfirmed : world.confirmed ⊆ confirmed)
    (moreOwn : world.own ⊆ own) :
    Kept { world with sent := sent, organised := organised, confirmed := confirmed, own := own } where
  requests := by
    intro request member
    have accounted := kept.requests request member
    cases request with
    | invite user doc => trivial
    | organise user pending => exact moreOrganised accounted
    | write request =>
      cases request with
      | setEvent user event => exact Rightful.grow moreOwn moreConfirmed accounted
      | deletePending user id => trivial
  stored := fun user event member => Rightful.grow moreOwn moreConfirmed (kept.stored user event member)
  pending := fun user pending member => moreOrganised (kept.pending user pending member)
  devices := fun index => (kept.devices index).mono moreOrganised

theorem Kept.issue (kept : Kept world) {requests : List Outgoing}
    (accounted : ∀ request ∈ requests, Accounted world request) :
    Kept { world with requests := world.requests ++ requests } := by
  refine { kept with requests := ?_ }
  rw [List.forall_mem_append]
  exact ⟨kept.requests, accounted⟩

theorem Kept.setDevice (kept : Kept world) (index : ℕ) {device : Device} (own : DeviceKept world.organised device) :
    Kept (world.setDevice index device) := by
  refine { kept with devices := ?_ }
  intro other
  by_cases same : other = index
  · subst same
    simpa [World.setDevice] using own
  · simpa [World.setDevice, Function.update_of_ne same] using kept.devices other

theorem Kept.put (kept : Kept world) (currentUser : Option String) (data : Event) :
    Kept { world with
      requests := world.requests ++ (Navigation.addOwnEvent currentUser data none).requests.map .write
      own := world.own ++ currentUser.toList.map fun uid => (uid, data) } := by
  have grown := kept.grow world.sent (List.Subset.refl _) (List.Subset.refl _)
    (List.subset_append_left world.own (currentUser.toList.map fun uid => (uid, data)))
  apply grown.issue
  cases currentUser with
  | none => exact List.forall_mem_nil _
  | some uid =>
    intro request issued
    obtain rfl := List.mem_singleton.mp issued
    exact .inl (List.mem_append_right _ (List.mem_singleton_self _))

theorem Kept.invite (kept : Kept world) (form : OrganiseEvent.State) (draw : ℕ → String) :
    Kept (world.invite form draw) := by
  have grown := kept.grow (world.sent ++ form.send draw) (List.Subset.refl world.organised)
    (List.Subset.refl world.confirmed) (List.Subset.refl world.own)
  apply grown.issue
  intro request issued
  obtain ⟨invitation, _, rfl⟩ := List.mem_map.mp issued
  trivial

theorem Kept.organise (kept : Kept world) (index : ℕ) (pending : PendingEvent) :
    Kept (world.organise index pending) := by
  unfold World.organise
  cases (world.devices index).currentUser with
  | none => exact kept
  | some uid =>
    have listed := kept.setDevice index ((kept.devices index).addList .organiseEvent)
    have grown := listed.grow world.sent (List.subset_append_left world.organised [(uid, pending)])
      (List.Subset.refl world.confirmed) (List.Subset.refl world.own)
    apply grown.issue
    rw [List.forall_mem_singleton]
    exact List.mem_append_right _ (List.mem_singleton_self _)

theorem deletePendingEvent_requests {currentUser : Option String} {event : PendingEvent} {request : Request}
    (issued : request ∈ (deletePendingEvent currentUser event).requests) :
    ∃ user id, request = .deletePending user id := by
  cases currentUser with
  | none => cases issued
  | some uid => exact ⟨uid, event.id, List.mem_singleton.mp issued⟩

theorem mem_done_requests {device : Device} {details : Details} {form : AddEvent.State} {freshId : String}
    {request : Request} (issued : request ∈ (AddEvent.done freshId (device.props details) form).requests) :
    (∃ user id, request = .deletePending user id) ∨
      ∃ uid event, (uid, details.event, event) ∈ device.confirmation details (form.handed freshId) ∧
        ∃ user, request = .setEvent user event ∧
          (user = uid ∨ user ∈ details.event.inviteesAdded.map Invitee.id) := by
  rw [AddEvent.done_eq_handed] at issued
  unfold Device.confirmation
  cases handed : form.handed freshId with
  | none => simp [handed, Effect.issue] at issued
  | some event =>
    cases opener : details.opener with
    | organiseEvent => simp [handed, Device.props, opener, passedOnAddEvent, Effect.abort] at issued
    | myPlenR =>
      cases signedIn : device.currentUser with
      | none =>
        simp [handed, Device.props, opener, signedIn, passedOnAddEvent, onAddEvent, Effect.abort, Effect.andThen] at issued
      | some uid =>
        have writes : request ∈ (.setEvent uid event :: details.event.inviteesAdded.map fun invitee =>
            .setEvent invitee.id event) ++ (deletePendingEvent details.currentUser details.event).requests := by
          simpa [handed, Device.props, opener, signedIn, passedOnAddEvent, onAddEvent, Effect.issue, Effect.andThen]
            using issued
        obtain put | deleted := List.mem_append.mp writes
        · refine .inr ⟨uid, event, by simp, ?_⟩
          obtain rfl | invited := List.mem_cons.mp put
          · exact ⟨uid, rfl, .inl rfl⟩
          · obtain ⟨invitee, listed, rfl⟩ := List.mem_map.mp invited
            exact ⟨invitee.id, rfl, .inr (List.mem_map_of_mem listed)⟩
        · exact .inl (deletePendingEvent_requests deleted)

theorem Kept.confirm (kept : Kept world) (index : ℕ) (details : Details) (form : AddEvent.State) (freshId : String) :
    Kept (world.confirm index details form freshId) := by
  have grown := kept.grow world.sent (List.Subset.refl world.organised)
    (List.subset_append_left world.confirmed ((world.devices index).confirmation details (form.handed freshId)))
    (List.subset_append_left world.own
      (((world.devices index).confirmation details (form.handed freshId)).map fun (uid, _, event) => (uid, event)))
  apply grown.issue
  intro request member
  obtain ⟨write, issued, rfl⟩ := List.mem_map.mp member
  obtain ⟨user, id, rfl⟩ | ⟨uid, event, confirmed, user, rfl, whose⟩ := mem_done_requests issued
  · trivial
  · obtain rfl | listed := whose
    · exact .inl (List.mem_append_right _ (List.mem_map_of_mem confirmed))
    · exact .inr ⟨uid, details.event, List.mem_append_right _ confirmed, listed⟩

theorem Kept.answered (kept : Kept world) {position : ℕ} {request : Outgoing}
    (found : world.requests[position]? = some request) (success : Bool) :
    Kept { world with
      requests := world.requests.eraseIdx position
      database := if success then World.performed world.database request else world.database } := by
  have remaining : ∀ other ∈ world.requests.eraseIdx position, Accounted world other :=
    fun other member => kept.requests other (List.mem_of_mem_eraseIdx member)
  have accounted := kept.requests request (List.mem_of_getElem? found)
  cases success with
  | false => exact ⟨remaining, kept.stored, kept.pending, kept.devices⟩
  | true =>
    cases request with
    | invite user doc => exact ⟨remaining, kept.stored, kept.pending, kept.devices⟩
    | organise user pending =>
      refine ⟨remaining, kept.stored, ?_, kept.devices⟩
      intro other stored member
      by_cases same : other = user
      · subst same
        simp only [World.performed, if_true, Function.update_self] at member
        obtain rfl | ⟨old, _⟩ := (Store.mem_setDoc PendingEvent.id).mp member
        · exact accounted
        · exact kept.pending other stored old
      · simp only [World.performed, if_true, Function.update_of_ne same] at member
        exact kept.pending other stored member
    | write request =>
      cases request with
      | setEvent user data =>
        refine ⟨remaining, ?_, kept.pending, kept.devices⟩
        intro other stored member
        simp only [World.performed, Database.perform, if_true, Store.mem_setEvent] at member
        split at member
        next same =>
          obtain rfl | ⟨old, _⟩ := member
          · rw [same.1]
            exact accounted
          · rw [same.1]
            exact kept.stored user stored old
        next => exact kept.stored other stored member
      | deletePending user id =>
        refine ⟨remaining, kept.stored, ?_, kept.devices⟩
        intro other stored member
        simp only [World.performed, Database.perform, if_true] at member
        split at member
        next same =>
          rw [same]
          exact kept.pending user stored (List.mem_filter.mp member).1
        next => exact kept.pending other stored member

theorem kept_step {clock : WallClock} {next : World} (kept : Kept world) {action : Action}
    (moved : step clock world action = some next) : Kept next := by
  cases action with
  | screen index action =>
    obtain ⟨device, called, rfl⟩ := Option.map_eq_some_iff.mp moved
    exact kept.setDevice index ((kept.devices index).step kept.pending called)
  | put index data =>
    cases moved
    exact kept.put _ data
  | send index position draw id =>
    obtain ⟨form, _, moved⟩ := Option.bind_eq_some_iff.mp moved
    obtain ⟨_, rfl⟩ := Option.ite_some_none_eq_some.mp moved
    exact (kept.invite form.state draw).organise index (pendingEvent id form.state)
  | delete index position =>
    obtain ⟨details, _, rfl⟩ := Option.map_eq_some_iff.mp moved
    apply kept.issue
    intro request member
    obtain ⟨write, issued, rfl⟩ := List.mem_map.mp member
    obtain ⟨user, id, rfl⟩ := deletePendingEvent_requests issued
    trivial
  | confirm index position freshId =>
    obtain ⟨form, _, moved⟩ := Option.bind_eq_some_iff.mp moved
    obtain ⟨details, _, rfl⟩ := Option.map_eq_some_iff.mp moved
    exact kept.confirm index details form.state freshId
  | answered position success =>
    obtain ⟨request, found, rfl⟩ := Option.map_eq_some_iff.mp moved
    exact kept.answered found success

theorem kept_initial : Kept .initial where
  requests := List.forall_mem_nil _
  stored := fun _ => List.forall_mem_nil _
  pending := fun _ => List.forall_mem_nil _
  devices := fun _ => ⟨List.forall_mem_nil _, List.forall_mem_nil _⟩

end Keep

/-! ## Whose invitations count -/

section Invited
variable {sent more : List (String × Notification)} {host : String} {pending : PendingEvent}

theorem AllInvited.mono (grown : sent ⊆ more) (all : AllInvited sent host pending) : AllInvited more host pending := by
  intro invitee listed
  obtain ⟨doc, member, announced⟩ := all invitee listed
  exact ⟨doc, grown member, announced⟩

theorem of_mem_send {form : OrganiseEvent.State} {draw : ℕ → String} {user : String} {doc : Notification}
    (member : (user, doc) ∈ form.send draw) : form.currentUser.map OrganiseEvent.Host.uid = some doc.host_id := by
  unfold OrganiseEvent.State.send at member
  cases known : form.currentUser with
  | none => simp [known] at member
  | some host =>
    rw [known] at member
    obtain ⟨⟨invitee, place⟩, _, same⟩ := List.mem_map.mp member
    cases same
    rfl

theorem mem_send {form : OrganiseEvent.State} {host : OrganiseEvent.Host} (known : form.currentUser = some host)
    (draw : ℕ → String) {invitee : UserDoc} (selected : invitee ∈ form.inviteesAdded) :
    ∃ id, (invitee.id, form.invitation host id) ∈ form.send draw := by
  obtain ⟨place, found⟩ := List.mem_iff_getElem?.mp selected
  refine ⟨draw place, ?_⟩
  simp only [OrganiseEvent.State.send, known]
  exact List.mem_map.mpr ⟨(invitee, place), List.mem_zipIdx_iff_getElem?.mpr found, rfl⟩

theorem allInvited_invite_iff {form : OrganiseEvent.State} {draw : ℕ → String} {uid id : String} :
    AllInvited (sent ++ form.send draw) uid (pendingEvent id form) ↔
      form.currentUser.map OrganiseEvent.Host.uid = some uid ∨ AllInvited sent uid (pendingEvent id form) := by
  constructor
  · intro all
    by_cases known : form.currentUser.map OrganiseEvent.Host.uid = some uid
    · exact .inl known
    · apply Or.inr
      intro invitee listed
      obtain ⟨doc, member, hosted, announced⟩ := all invitee listed
      cases List.mem_append.mp member with
      | inl old => exact ⟨doc, old, hosted, announced⟩
      | inr new => exact absurd (hosted ▸ of_mem_send new) known
  · intro either
    cases either with
    | inl known =>
      obtain ⟨host, signedIn, rfl⟩ := Option.map_eq_some_iff.mp known
      intro invitee listed
      obtain ⟨selected, member, rfl⟩ := List.mem_map.mp listed
      obtain ⟨drawn, issued⟩ := mem_send signedIn draw member
      exact ⟨_, List.mem_append_right _ issued, rfl, ⟨rfl, rfl, rfl, rfl, rfl, rfl⟩⟩
    | inr before => exact before.mono (List.subset_append_left _ _)

end Invited

section Step
variable {clock : WallClock} {world next : World}

theorem onlyInvited_iff (kept : Kept world) : OnlyInvited world ↔
    (∀ entry ∈ world.organised, AllInvited world.sent entry.1 entry.2) ∧
      ∀ entry ∈ world.confirmed, AllInvited world.sent entry.1 entry.2.1 := by
  constructor
  · intro only
    exact ⟨only.organised, only.confirmed⟩
  · intro ⟨organised, confirmed⟩
    refine ⟨organised, confirmed, ?_⟩
    intro user event member
    obtain own | ⟨host, pending, made, listed⟩ := kept.stored user event member
    · exact .inl own
    · obtain ⟨invitee, selected, rfl⟩ := List.mem_map.mp listed
      exact .inr ⟨host, pending, made, confirmed _ made invitee selected⟩

theorem OnlyInvited.of_same (only : OnlyInvited world) (kept : Kept next) (sent : next.sent = world.sent)
    (organised : next.organised = world.organised) (confirmed : next.confirmed = world.confirmed) :
    OnlyInvited next := by
  rw [onlyInvited_iff kept, sent, organised, confirmed]
  exact ⟨only.organised, only.confirmed⟩

theorem onlyInvited_send_iff (only : OnlyInvited world) {index : ℕ} {form : OrganiseEvent.State} {draw : ℕ → String}
    {id : String} (kept : Kept (world.send index form draw id)) :
    OnlyInvited (world.send index form draw id) ↔ ∀ uid ∈ (world.devices index).currentUser,
      form.currentUser.map OrganiseEvent.Host.uid = some uid ∨ AllInvited world.sent uid (pendingEvent id form) := by
  have before : ∀ entry ∈ world.organised, AllInvited (world.sent ++ form.send draw) entry.1 entry.2 :=
    fun entry member => (only.organised entry member).mono (List.subset_append_left _ _)
  have confirmed : ∀ entry ∈ world.confirmed, AllInvited (world.sent ++ form.send draw) entry.1 entry.2.1 :=
    fun entry member => (only.confirmed entry member).mono (List.subset_append_left _ _)
  rw [onlyInvited_iff kept]
  cases known : (world.devices index).currentUser with
  | none =>
    have same : world.send index form draw id = world.invite form draw := by
      simp [World.send, World.organise, World.invite, known]
    rw [same]
    exact iff_of_true ⟨before, confirmed⟩ fun _ absent => nomatch absent
  | some uid =>
    have sent : (world.send index form draw id).sent = world.sent ++ form.send draw := by
      simp [World.send, World.organise, World.invite, World.setDevice, known]
    have organised : (world.send index form draw id).organised = world.organised ++ [(uid, pendingEvent id form)] := by
      simp [World.send, World.organise, World.invite, World.setDevice, known]
    have unconfirmed : (world.send index form draw id).confirmed = world.confirmed := by
      simp [World.send, World.organise, World.invite, World.setDevice, known]
    rw [sent, organised, unconfirmed, List.forall_mem_append, List.forall_mem_singleton, allInvited_invite_iff]
    constructor
    · intro ⟨⟨_, new⟩, _⟩ other same
      obtain rfl := Option.some.inj same
      exact new
    · intro guarded
      exact ⟨⟨before, guarded uid rfl⟩, confirmed⟩

theorem onlyInvited_confirm_iff (kept : Kept world) (only : OnlyInvited world) {index : ℕ} {details : Details}
    (opened : details ∈ (world.devices index).details) (form : AddEvent.State) (freshId : String) :
    OnlyInvited (world.confirm index details form freshId) ↔
      ∀ entry ∈ (world.devices index).confirmation details (form.handed freshId),
        entry.1 = details.owner ∨ AllInvited world.sent entry.1 details.event := by
  have event : ∀ entry ∈ (world.devices index).confirmation details (form.handed freshId),
      entry.2.1 = details.event := by
    intro entry member
    unfold Device.confirmation at member
    split at member
    next => rw [List.mem_singleton.mp member]
    next => cases member
  rw [onlyInvited_iff (kept.confirm index details form freshId)]
  simp only [World.confirm, List.forall_mem_append]
  constructor
  · intro ⟨_, _, new⟩ entry member
    exact .inr (event entry member ▸ new entry member)
  · intro guarded
    refine ⟨only.organised, only.confirmed, ?_⟩
    intro entry member
    rw [event entry member]
    cases guarded entry member with
    | inl owner =>
      rw [owner]
      exact only.organised _ ((kept.devices index).details details opened)
    | inr invited => exact invited

theorem onlyInvited_step_iff (kept : Kept world) (only : OnlyInvited world) {action : Action}
    (moved : step clock world action = some next) : OnlyInvited next ↔ ByHost world action := by
  have after := kept_step kept moved
  cases action with
  | screen index action =>
    obtain ⟨device, _, rfl⟩ := Option.map_eq_some_iff.mp moved
    exact iff_of_true (only.of_same after rfl rfl rfl) trivial
  | put index data =>
    cases moved
    exact iff_of_true (only.of_same after rfl rfl rfl) trivial
  | send index position draw id =>
    obtain ⟨form, found, moved⟩ := Option.bind_eq_some_iff.mp moved
    obtain ⟨_, rfl⟩ := Option.ite_some_none_eq_some.mp moved
    rw [onlyInvited_send_iff only after, ByHost, found]
    exact ⟨fun guarded _ same => Option.some.inj same ▸ guarded, fun guarded => guarded form rfl⟩
  | delete index position =>
    obtain ⟨details, _, rfl⟩ := Option.map_eq_some_iff.mp moved
    exact iff_of_true (only.of_same after rfl rfl rfl) trivial
  | confirm index position freshId =>
    obtain ⟨form, found, moved⟩ := Option.bind_eq_some_iff.mp moved
    obtain ⟨details, opened, rfl⟩ := Option.map_eq_some_iff.mp moved
    rw [onlyInvited_confirm_iff kept only (List.mem_of_getElem? opened), ByHost, found]
    simp only [Option.mem_some_iff, forall_eq', opened]
  | answered position success =>
    obtain ⟨request, _, rfl⟩ := Option.map_eq_some_iff.mp moved
    exact iff_of_true (only.of_same after rfl rfl rfl) trivial

end Step

/-- In every run of all parties, whatever is pressed on whichever screen and however
the requests are answered: everyone on the list of an event that is organised or
confirmed was invited by the account that does so, and calendars hold nothing but
own events and events their accounts were invited to, exactly if every `Send` finds
form and `MyPlenR` agreed on the user and every event is confirmed under the account
it was listed from, or by one who has sent these invitations before. -/
theorem onlyInvited_iff_byHost (clock : WallClock) (actions : List Action) :
    Always (step clock) OnlyInvited .initial actions ↔ Guarded (step clock) ByHost .initial actions := by
  apply always_iff_guarded_of_step_iff Kept
  case kept => exact fun _ _ _ kept moved => kept_step kept moved
  case decided => exact fun _ _ _ kept only moved => onlyInvited_step_iff kept only moved
  case start => exact kept_initial
  case lawful => exact ⟨List.forall_mem_nil _, List.forall_mem_nil _, fun _ => List.forall_mem_nil _⟩

-- Ann organises a picnic with Bob and confirms it, and Bob's calendar has it
example : (run (step universalWall) .initial
    [.screen 0 (.authStateChanged (some "ann")), .screen 0 (.openForm 1532908800000),
      .screen 0 (.formAuth 0 (some ⟨"ann", some "Ann", none⟩)), .screen 0 (.form 0 (.titleChanged "picnic")),
      .screen 0 (.form 0 .openAddInvitees), .screen 0 (.form 0 (.usersSnapshot "B" [⟨"bob", "Bob", "bob@mail"⟩])),
      .screen 0 (.form 0 (.pick 0)), .send 0 0 (fun _ => "n") "p", .answered 1 true, .screen 0 .openList,
      .screen 0 (.listAuth 1 (some "ann")), .screen 0 (.listSnapshot 1 0 [⟨"p", "picnic", 1532908800000, 1533427200000,
        "", "", [⟨"bob", "Bob"⟩]⟩]), .screen 0 (.openDetails 1 0 1532908800000), .screen 0 (.create 0 1532908800000),
      .confirm 0 0 "e", .answered 2 true]).map (fun world =>
        (world.database.store.events "bob" "PlenR Calendar").map Event.id) = some ["e"] := by
  rfl

end PlenR.Screens.Invitations
