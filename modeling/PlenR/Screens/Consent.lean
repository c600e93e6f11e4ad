import PlenR.Screens.Notifications
import PlenR.Screens.OrganiseEvent
import PlenR.Screens.PendingEventDetails

/-! From an invitation to a schedule that is shown: the screens of all parties together.

A host sends invitations, which are added to the notifications of the invitees.
What the notifications screen of a device has reported can be opened as a card.
Pressing a button of it asks to delete the notification, and the answer asks to
record the decision under whoever is signed in on the card by then. A host who
looks at a pending event reads the record and, if it grants access, listens to
the calendars of the invitee. No request is waited for, and answers come in any
order.
-/

set_option autoImplicit false

namespace PlenR.Screens.Consent

open PlenR.Time PlenR.Util Foundation.Run

/-- A mounted or dismissed `InvitationCard`, opened for a document of the notifications of `owner`. -/
structure Card where
  owner : String
  doc : Notification
  currentUser : Option String
  mounted : Bool

structure Device where
  screen : Notifications.Screen
  brought : List (String × Notification)
  cards : List Card

def Device.initial : Device where
  screen := .initial
  brought := []
  cards := []

/-- A notification is being deleted; the callback waits on its card. -/
structure Deletion where
  device : ℕ
  card : ℕ
  user : String
  doc : Notification
  granted : Bool

/-- `access_granted_users/{host}` of the user is being set. -/
structure Recording where
  user : String
  host : String
  granted : Bool

/-- A `PendingEventDetails`, opened under the account of the host. Each read of an access
document under way has the account whose listener asked for it. -/
structure Viewer (Stamp : Type) where
  host : String
  inviteesAdded : List Invitee
  session : PendingEventDetails.Session Stamp
  readers : List String

/-- Beside the documents and the requests stand two records no code keeps: who sent
an invitation to whom, and who has pressed Grant on an invitation of whom. -/
structure World (Stamp : Type) where
  store : Store
  access : String → String → Option Bool
  outbox : List (String × Notification)
  devices : ℕ → Device
  deletions : List Deletion
  recordings : List Recording
  viewers : List (Viewer Stamp)
  sent : List (String × String)
  consents : List (String × String)

def World.initial (Stamp : Type) : World Stamp where
  store := .empty
  access := fun _ _ => none
  outbox := []
  devices := fun _ => .initial
  deletions := []
  recordings := []
  viewers := []
  sent := []
  consents := []

/-- How a deletion ends; an app that was stopped does not hear of it. -/
inductive Answer where
  | failed
  | unheard
  | heard
  deriving DecidableEq

inductive Action where
  /-- `Send` of `OrganiseEvent`. -/
  | send (form : OrganiseEvent.State) (draw : ℕ → String)
  | addAnswered (position : ℕ) (success : Bool)
  | notifications (device : ℕ) (action : Notifications.Action)
  | openCard (device position : ℕ)
  | cardAuth (device card : ℕ) (user : Option String)
  | dismissCard (device card : ℕ)
  | press (device card : ℕ) (granted : Bool)
  | deletionAnswered (position : ℕ) (answer : Answer)
  | recordingAnswered (position : ℕ) (success : Bool)
  | openDetails (host : String) (inviteesAdded : List Invitee)
  | details (viewer : ℕ) (action : PendingEventDetails.Action)

/-! ## The parties -/

namespace Device

def broughtAfter (device : Device) : Notifications.Action → List (String × Notification)
  | .snapshot position docs =>
      match device.screen.ownerAt position with
      | some owner => device.brought ++ docs.map fun doc => (owner, doc)
      | none => device.brought
  | .authStateChanged _ => device.brought

def openCard (owner : String) (doc : Notification) (device : Device) : Device :=
  { device with cards := device.cards ++ [{ owner := owner, doc := doc, currentUser := none, mounted := true }] }

def setCard (index : ℕ) (card : Card) (device : Device) : Device :=
  { device with cards := device.cards.set index card }

end Device

/-- The callback of the auth listener of a card; an unmounted card has none. -/
def Card.authStateChanged (user : Option String) (card : Card) : Card :=
  if card.mounted then { card with currentUser := user } else card

/-- A users listener asks in the name of the account it was registered for. -/
def Viewer.readersAfter {Stamp : Type} (viewer : Viewer Stamp) : PendingEventDetails.Action → List String
  | .usersSnapshot position docs =>
      match viewer.session.screen.usersListeners[position]? with
      | some { user := some user, invitee } =>
          viewer.readers ++ (docs.filter fun doc => doc.id = invitee).map fun _ => user
      | _ => viewer.readers
  | .accessRead position _ => viewer.readers.eraseIdx position
  | .authStateChanged _ | .calendarsSnapshot _ _ => viewer.readers

namespace World
variable {Stamp : Type}

def setDevice (index : ℕ) (device : Device) (world : World Stamp) : World Stamp :=
  { world with devices := Function.update world.devices index device }

def cardAt (world : World Stamp) (device card : ℕ) : Option Card := (world.devices device).cards[card]?

def send (form : OrganiseEvent.State) (draw : ℕ → String) (world : World Stamp) : World Stamp :=
  { world with
    outbox := world.outbox ++ form.send draw
    sent := world.sent ++ (form.send draw).map fun (user, doc) => (doc.host_id, user) }

def addAnswered (position : ℕ) (success : Bool) (user : String) (doc : Notification) (world : World Stamp) :
    World Stamp :=
  { world with
    outbox := world.outbox.eraseIdx position
    store := if success then world.store.setNotification user doc else world.store }

/-- Both buttons; without a user the handler aborts at `currentUser.uid`. -/
def press (device index : ℕ) (granted : Bool) (card : Card) (world : World Stamp) : World Stamp :=
  match card.currentUser with
  | none => world
  | some user =>
      { world with
        deletions := world.deletions ++
          [{ device := device, card := index, user := user, doc := card.doc, granted := granted }]
        consents := if granted then world.consents ++ [(user, card.doc.host_id)] else world.consents }

/-- What the callback of a deletion asks for: it reads the user of the card anew. -/
def record (deletion : Deletion) (world : World Stamp) : List Recording :=
  match (world.cardAt deletion.device deletion.card).bind Card.currentUser with
  | none => []
  | some user => [{ user := user, host := deletion.doc.host_id, granted := deletion.granted }]

def deletionAnswered (position : ℕ) (answer : Answer) (deletion : Deletion) (world : World Stamp) : World Stamp :=
  { world with
    deletions := world.deletions.eraseIdx position
    store := if answer = .failed then world.store
      else world.store.deleteNotification deletion.user deletion.doc.id
    recordings := if answer = .heard then world.recordings ++ world.record deletion else world.recordings }

def recordingAnswered (position : ℕ) (success : Bool) (recording : Recording) (world : World Stamp) : World Stamp :=
  { world with
    recordings := world.recordings.eraseIdx position
    access := if success then
        Function.update world.access recording.user
          (Function.update (world.access recording.user) recording.host (some recording.granted))
      else world.access }

/-- A read that completes gives the record that is stored for its account. -/
def Allows (world : World Stamp) (viewer : Viewer Stamp) : PendingEventDetails.Action → Prop
  | .accessRead position (.completed granted) => ∀ doc ∈ viewer.session.screen.accessReads[position]?,
      ∀ reader ∈ viewer.readers[position]?, granted = world.access doc.id reader
  | _ => True

instance (world : World Stamp) (viewer : Viewer Stamp) (action : PendingEventDetails.Action) :
    Decidable (world.Allows viewer action) := by
  unfold Allows
  split <;> infer_instance

end World

section Step
variable {Stamp : Type} (format : ℤ → Stamp) (clock : Clock)

def step (world : World Stamp) : Action → Option (World Stamp)
  | .send form draw => some (world.send form draw)
  | .addAnswered position success =>
      world.outbox[position]?.map fun (user, doc) => world.addAnswered position success user doc
  | .notifications index action =>
      (Notifications.step world.store (world.devices index).screen action).map fun screen =>
        world.setDevice index
          { world.devices index with
            screen := screen
            brought := (world.devices index).broughtAfter action }
  | .openCard index position =>
      (world.devices index).brought[position]?.map fun (owner, doc) =>
        world.setDevice index ((world.devices index).openCard owner doc)
  | .cardAuth index card user => (world.cardAt index card).map fun shown =>
      world.setDevice index ((world.devices index).setCard card (shown.authStateChanged user))
  | .dismissCard index card => (world.cardAt index card).map fun shown =>
      world.setDevice index ((world.devices index).setCard card { shown with mounted := false })
  | .press index card granted =>
      (world.cardAt index card).bind fun shown =>
        if shown.mounted then some (world.press index card granted shown) else none
  | .deletionAnswered position answer =>
      world.deletions[position]?.map fun deletion => world.deletionAnswered position answer deletion
  | .recordingAnswered position success =>
      world.recordings[position]?.map fun recording => world.recordingAnswered position success recording
  | .openDetails host inviteesAdded =>
      some { world with
        viewers := world.viewers ++
          [{ host := host, inviteesAdded := inviteesAdded, session := .initial Stamp, readers := [] }] }
  | .details index action =>
      world.viewers[index]?.bind fun viewer =>
        if world.Allows viewer action then
          (viewer.session.step format clock viewer.inviteesAdded action).map fun session =>
            { world with
              viewers := world.viewers.set index
                { viewer with session := session, readers := viewer.readersAfter action } }
        else none

end Step

/-! ## Who agreed to what -/

/-- The invitee pressed Grant on an invitation of the host, and the host had sent one to the invitee. -/
def Agreed {Stamp : Type} (world : World Stamp) (invitee host : String) : Prop :=
  (invitee, host) ∈ world.consents ∧ (host, invitee) ∈ world.sent

/-- Access is granted to, and entries are shown to, only hosts the invitee has agreed to. -/
structure Consented {Stamp : Type} (world : World Stamp) : Prop where
  access : ∀ invitee host, world.access invitee host = some true → Agreed world invitee host
  shown : ∀ viewer ∈ world.viewers, ∀ entry ∈ viewer.session.appended, Agreed world entry.1 viewer.host

/-- A card is answered by the user it was brought to, who is still the one signed in,
if anyone is, when the deletion has been answered; and a details screen is told of no
other account than the one it was opened under. -/
def OneAccount {Stamp : Type} (world : World Stamp) : Action → Prop
  | .press device card _ => ∀ shown ∈ world.cardAt device card, ∀ user ∈ shown.currentUser, user = shown.owner
  | .deletionAnswered position .heard => ∀ deletion ∈ world.deletions[position]?,
      ∀ shown ∈ world.cardAt deletion.device deletion.card, ∀ user ∈ shown.currentUser, user = deletion.user
  | .details index (.authStateChanged user) => ∀ viewer ∈ world.viewers[index]?, ∀ uid ∈ user, uid = viewer.host
  | _ => True

/-! ## The screen of a host -/

section Viewer
variable {Stamp : Type} {format : ℤ → Stamp} {clock : Clock} {inviteesAdded : List Invitee}
  {session next : PendingEventDetails.Session Stamp}

structure Only (good : String → Prop) (session : PendingEventDetails.Session Stamp) : Prop where
  listened : ∀ doc ∈ session.screen.calendarsListeners, good doc.id
  appended : ∀ entry ∈ session.appended, good entry.1

theorem Only.mono {good better : String → Prop} (only : Only good session) (weaken : ∀ name, good name → better name) :
    Only better session where
  listened := fun doc member => weaken doc.id (only.listened doc member)
  appended := fun entry member => weaken entry.1 (only.appended entry member)

theorem Only.step {good : String → Prop} (only : Only good session) {action : PendingEventDetails.Action}
    (moved : session.step format clock inviteesAdded action = some next)
    (granted : ∀ position outcome, action = .accessRead position outcome → outcome.access = some true →
      ∀ doc ∈ session.screen.accessReads[position]?, good doc.id) : Only good next := by
  obtain ⟨screen, called, rfl⟩ := Option.map_eq_some_iff.mp moved
  cases action with
  | authStateChanged user =>
    cases called
    exact ⟨only.listened, only.appended⟩
  | usersSnapshot position docs =>
    obtain ⟨listener, _, rfl⟩ := Option.map_eq_some_iff.mp called
    unfold PendingEventDetails.Screen.usersSnapshot
    split
    · exact ⟨only.listened, only.appended⟩
    · exact ⟨only.listened, only.appended⟩
  | accessRead position outcome =>
    obtain ⟨doc, found, rfl⟩ := Option.map_eq_some_iff.mp called
    unfold PendingEventDetails.Screen.accessRead
    cases read : outcome.access with
    | none => exact ⟨only.listened, only.appended⟩
    | some access =>
      cases access with
      | false => exact ⟨only.listened, only.appended⟩
      | true =>
        constructor
        case appended => exact only.appended
        case listened =>
          intro other member
          cases List.mem_append.mp member with
          | inl old => exact only.listened other old
          | inr new =>
            rw [List.mem_singleton.mp new]
            exact granted position outcome rfl read doc found
  | calendarsSnapshot position docs =>
    obtain ⟨doc, found, rfl⟩ := Option.map_eq_some_iff.mp called
    constructor
    case listened => exact only.listened
    case appended =>
      simp only [PendingEventDetails.Session.appendedAfter, found]
      split
      · exact only.appended
      · intro entry member
        cases List.mem_append.mp member with
        | inl old => exact only.appended entry old
        | inr new =>
          rw [List.mem_singleton.mp new]
          exact only.listened doc (List.mem_of_getElem? found)

structure OwnHost (viewer : Viewer Stamp) : Prop where
  listeners : ∀ listener ∈ viewer.session.screen.usersListeners, ∀ user ∈ listener.user, user = viewer.host
  readers : viewer.readers = List.replicate viewer.session.screen.accessReads.length viewer.host

theorem OwnHost.step {viewer : Viewer Stamp} (own : OwnHost viewer) {action : PendingEventDetails.Action}
    (moved : viewer.session.step format clock viewer.inviteesAdded action = some next)
    (told : ∀ user, action = .authStateChanged user → ∀ uid ∈ user, uid = viewer.host) :
    OwnHost { viewer with session := next, readers := viewer.readersAfter action } := by
  obtain ⟨screen, called, rfl⟩ := Option.map_eq_some_iff.mp moved
  cases action with
  | authStateChanged user =>
    cases called
    refine ⟨?_, own.readers⟩
    intro listener member
    cases List.mem_append.mp member with
    | inl old => exact own.listeners listener old
    | inr new =>
      obtain ⟨invitee, _, rfl⟩ := List.mem_map.mp new
      exact told user rfl
  | usersSnapshot position docs =>
    obtain ⟨⟨user, invitee⟩, found, rfl⟩ := Option.map_eq_some_iff.mp called
    cases user with
    | none =>
      refine ⟨own.listeners, ?_⟩
      simp only [Viewer.readersAfter, found]
      exact own.readers
    | some user =>
      have host : user = viewer.host := own.listeners _ (List.mem_of_getElem? found) user rfl
      refine ⟨own.listeners, ?_⟩
      simp only [Viewer.readersAfter, found, PendingEventDetails.Screen.usersSnapshot, own.readers, host,
        List.map_const', List.length_append]
      exact List.replicate_append_replicate
  | accessRead position outcome =>
    obtain ⟨doc, found, rfl⟩ := Option.map_eq_some_iff.mp called
    obtain ⟨inside, _⟩ := List.getElem?_eq_some_iff.mp found
    have left : viewer.readers.eraseIdx position =
        List.replicate (viewer.session.screen.accessReads.eraseIdx position).length viewer.host := by
      rw [own.readers, List.eraseIdx_replicate, if_pos inside, List.length_eraseIdx_of_lt inside]
    unfold PendingEventDetails.Screen.accessRead
    cases outcome.access with
    | none => exact ⟨own.listeners, left⟩
    | some access =>
      cases access with
      | false => exact ⟨own.listeners, left⟩
      | true => exact ⟨own.listeners, left⟩
  | calendarsSnapshot position docs =>
    obtain ⟨doc, found, rfl⟩ := Option.map_eq_some_iff.mp called
    exact ⟨own.listeners, own.readers⟩

end Viewer

/-! ## What the parties know of each other -/

structure Kept {Stamp : Type} (world : World Stamp) : Prop where
  outbox : ∀ entry ∈ world.outbox, (entry.2.host_id, entry.1) ∈ world.sent
  stored : ∀ user, ∀ doc ∈ world.store.notifications user, (doc.host_id, user) ∈ world.sent
  brought : ∀ device, ∀ entry ∈ (world.devices device).brought, (entry.2.host_id, entry.1) ∈ world.sent
  cards : ∀ device, ∀ card ∈ (world.devices device).cards, (card.doc.host_id, card.owner) ∈ world.sent
  deletions : ∀ deletion ∈ world.deletions, deletion.granted = true →
    Agreed world deletion.user deletion.doc.host_id
  recordings : ∀ recording ∈ world.recordings, recording.granted = true →
    Agreed world recording.user recording.host
  access : ∀ invitee host, world.access invitee host = some true → Agreed world invitee host
  viewers : ∀ viewer ∈ world.viewers, Only (fun invitee => Agreed world invitee viewer.host) viewer.session
  hosts : ∀ viewer ∈ world.viewers, OwnHost viewer

section Keep
variable {Stamp : Type} {world : World Stamp}

theorem Kept.consented (kept : Kept world) : Consented world where
  access := kept.access
  shown := fun viewer member => (kept.viewers viewer member).appended

theorem kept_initial : Kept (.initial Stamp) where
  outbox := List.forall_mem_nil _
  stored := fun _ => List.forall_mem_nil _
  brought := fun _ => List.forall_mem_nil _
  cards := fun _ => List.forall_mem_nil _
  deletions := List.forall_mem_nil _
  recordings := List.forall_mem_nil _
  access := fun _ _ => nofun
  viewers := List.forall_mem_nil _
  hosts := List.forall_mem_nil _

theorem Kept.grow (kept : Kept world) {sent consents : List (String × String)} (moreSent : world.sent ⊆ sent)
    (moreConsents : world.consents ⊆ consents) : Kept { world with sent := sent, consents := consents } := by
  have agreed : ∀ invitee host, Agreed world invitee host →
      Agreed { world with sent := sent, consents := consents } invitee host :=
    fun invitee host both => ⟨moreConsents both.1, moreSent both.2⟩
  constructor
  case outbox => exact fun entry member => moreSent (kept.outbox entry member)
  case stored => exact fun user doc member => moreSent (kept.stored user doc member)
  case brought => exact fun device entry member => moreSent (kept.brought device entry member)
  case cards => exact fun device card member => moreSent (kept.cards device card member)
  case deletions => exact fun deletion member granted => agreed _ _ (kept.deletions deletion member granted)
  case recordings => exact fun recording member granted => agreed _ _ (kept.recordings recording member granted)
  case access => exact fun invitee host granted => agreed _ _ (kept.access invitee host granted)
  case viewers => exact fun viewer member => (kept.viewers viewer member).mono fun name => agreed name viewer.host
  case hosts => exact kept.hosts

theorem Kept.setDevice (kept : Kept world) (index : ℕ) {device : Device}
    (brought : ∀ entry ∈ device.brought, (entry.2.host_id, entry.1) ∈ world.sent)
    (cards : ∀ card ∈ device.cards, (card.doc.host_id, card.owner) ∈ world.sent) :
    Kept (world.setDevice index device) := by
  refine { kept with brought := ?_, cards := ?_ }
  · intro other
    by_cases same : other = index
    · subst same
      simpa [World.setDevice] using brought
    · simpa [World.setDevice, Function.update_of_ne same] using kept.brought other
  · intro other
    by_cases same : other = index
    · subst same
      simpa [World.setDevice] using cards
    · simpa [World.setDevice, Function.update_of_ne same] using kept.cards other

theorem Kept.setCard (kept : Kept world) {index position : ℕ} {card changed : Card}
    (found : world.cardAt index position = some card) (same : changed.doc = card.doc ∧ changed.owner = card.owner) :
    Kept (world.setDevice index ((world.devices index).setCard position changed)) := by
  refine kept.setDevice index ?_ ?_
  · exact kept.brought index
  · intro other member
    cases List.mem_or_eq_of_mem_set member with
    | inl old => exact kept.cards index other old
    | inr new =>
      rw [new, same.1, same.2]
      exact kept.cards index card (List.mem_of_getElem? found)

theorem Kept.send (kept : Kept world) (form : OrganiseEvent.State) (draw : ℕ → String) :
    Kept (world.send form draw) := by
  have grown := kept.grow (List.subset_append_left world.sent
    ((form.send draw).map fun (user, doc) => (doc.host_id, user))) (List.Subset.refl world.consents)
  refine { grown with outbox := ?_ }
  intro entry member
  cases List.mem_append.mp member with
  | inl old => exact grown.outbox entry old
  | inr new => exact List.mem_append_right _ (List.mem_map.mpr ⟨entry, new, rfl⟩)

theorem Kept.addAnswered (kept : Kept world) {position : ℕ} (success : Bool) {user : String} {doc : Notification}
    (found : world.outbox[position]? = some (user, doc)) : Kept (world.addAnswered position success user doc) := by
  refine { kept with outbox := ?_, stored := ?_ }
  · exact fun entry member => kept.outbox entry (List.mem_of_mem_eraseIdx member)
  · intro other stored member
    cases success with
    | false => exact kept.stored other stored member
    | true =>
      simp only [World.addAnswered, if_true, Store.mem_setNotification] at member
      split at member
      next same =>
        obtain new | old := member
        · rw [new, same]
          exact kept.outbox _ (List.mem_of_getElem? found)
        · exact same ▸ kept.stored user stored old.1
      next => exact kept.stored other stored member

theorem Kept.press (kept : Kept world) {device position : ℕ} {granted : Bool} {card : Card}
    (found : world.cardAt device position = some card) (own : ∀ user ∈ card.currentUser, user = card.owner) :
    Kept (world.press device position granted card) := by
  unfold World.press
  cases signedIn : card.currentUser with
  | none => exact kept
  | some user =>
    have more : world.consents ⊆ if granted then world.consents ++ [(user, card.doc.host_id)] else world.consents := by
      split
      · exact List.subset_append_left _ _
      · exact List.Subset.refl _
    have grown := kept.grow (List.Subset.refl world.sent) more
    refine { grown with deletions := ?_ }
    intro deletion member pressed
    cases List.mem_append.mp member with
    | inl old => exact grown.deletions deletion old pressed
    | inr new =>
      rw [List.mem_singleton.mp new] at pressed ⊢
      have sent := kept.cards device card (List.mem_of_getElem? found)
      rw [← own user (signedIn ▸ rfl)] at sent
      dsimp only at pressed
      subst pressed
      exact ⟨List.mem_append_right _ (List.mem_singleton_self _), sent⟩

theorem Kept.deletionAnswered (kept : Kept world) {position : ℕ} {answer : Answer} {deletion : Deletion}
    (found : world.deletions[position]? = some deletion)
    (same : answer = .heard → ∀ card ∈ world.cardAt deletion.device deletion.card,
      ∀ user ∈ card.currentUser, user = deletion.user) :
    Kept (world.deletionAnswered position answer deletion) := by
  refine { kept with stored := ?_, deletions := ?_, recordings := ?_ }
  · intro user doc member
    simp only [World.deletionAnswered] at member
    split at member
    next => exact kept.stored user doc member
    next => exact kept.stored user doc (Store.mem_deleteNotification.mp member).1
  · exact fun other member => kept.deletions other (List.mem_of_mem_eraseIdx member)
  · intro recording member granted
    simp only [World.deletionAnswered] at member
    split at member
    next heard =>
      cases List.mem_append.mp member with
      | inl old => exact kept.recordings recording old granted
      | inr new =>
        unfold World.record at new
        cases reader : (world.cardAt deletion.device deletion.card).bind Card.currentUser with
        | none =>
          rw [reader] at new
          cases new
        | some user =>
          rw [reader] at new
          rw [List.mem_singleton.mp new] at granted ⊢
          obtain ⟨card, shown, signedIn⟩ := Option.bind_eq_some_iff.mp reader
          rw [same heard card shown user signedIn]
          exact kept.deletions deletion (List.mem_of_getElem? found) granted
    next => exact kept.recordings recording member granted

theorem Kept.recordingAnswered (kept : Kept world) {position : ℕ} (success : Bool) {recording : Recording}
    (found : world.recordings[position]? = some recording) :
    Kept (world.recordingAnswered position success recording) := by
  refine { kept with recordings := ?_, access := ?_ }
  · exact fun other member => kept.recordings other (List.mem_of_mem_eraseIdx member)
  · intro invitee host granted
    cases success with
    | false => exact kept.access invitee host granted
    | true =>
      simp only [World.recordingAnswered, if_true] at granted
      by_cases user : invitee = recording.user
      · subst user
        rw [Function.update_self] at granted
        by_cases other : host = recording.host
        · subst other
          rw [Function.update_self] at granted
          exact kept.recordings recording (List.mem_of_getElem? found) (Option.some.inj granted)
        · rw [Function.update_of_ne other] at granted
          exact kept.access _ host granted
      · rw [Function.update_of_ne user] at granted
        exact kept.access invitee host granted

theorem Kept.setViewer (kept : Kept world) (index : ℕ) {viewer : Viewer Stamp}
    (only : Only (fun invitee => Agreed world invitee viewer.host) viewer.session) (own : OwnHost viewer) :
    Kept { world with viewers := world.viewers.set index viewer } := by
  refine { kept with viewers := ?_, hosts := ?_ }
  · intro other member
    cases List.mem_or_eq_of_mem_set member with
    | inl old => exact kept.viewers other old
    | inr new => exact new ▸ only
  · intro other member
    cases List.mem_or_eq_of_mem_set member with
    | inl old => exact kept.hosts other old
    | inr new => exact new ▸ own

variable {format : ℤ → Stamp} {clock : Clock} {next : World Stamp}

theorem kept_step (kept : Kept world) {action : Action} (account : OneAccount world action)
    (moved : step format clock world action = some next) : Kept next := by
  cases action with
  | send form draw =>
    cases moved
    exact kept.send form draw
  | addAnswered position success =>
    obtain ⟨⟨user, doc⟩, found, rfl⟩ := Option.map_eq_some_iff.mp moved
    exact kept.addAnswered success found
  | notifications index action =>
    obtain ⟨screen, called, rfl⟩ := Option.map_eq_some_iff.mp moved
    refine kept.setDevice index ?_ ?_
    · cases action with
      | authStateChanged user => exact kept.brought index
      | snapshot position docs =>
        obtain ⟨⟨owner, listeners⟩, reported, rfl⟩ := Option.map_eq_some_iff.mp called
        have report := Foundation.Snapshots.deliver_report reported
        have source : (world.devices index).screen.ownerAt position = some owner := report.source
        simp only [Device.broughtAfter, source, List.forall_mem_append, List.forall_mem_map]
        exact ⟨kept.brought index, fun doc new => kept.stored owner doc (report.current.mem_iff.mp new)⟩
    · exact kept.cards index
  | openCard index position =>
    obtain ⟨⟨owner, doc⟩, found, rfl⟩ := Option.map_eq_some_iff.mp moved
    refine kept.setDevice index ?_ ?_
    · exact kept.brought index
    · simp only [Device.openCard, List.forall_mem_append, List.forall_mem_singleton]
      exact ⟨kept.cards index, kept.brought index _ (List.mem_of_getElem? found)⟩
  | cardAuth index card user =>
    obtain ⟨shown, found, rfl⟩ := Option.map_eq_some_iff.mp moved
    apply kept.setCard found
    unfold Card.authStateChanged
    split
    · exact ⟨rfl, rfl⟩
    · exact ⟨rfl, rfl⟩
  | dismissCard index card =>
    obtain ⟨shown, found, rfl⟩ := Option.map_eq_some_iff.mp moved
    exact kept.setCard found ⟨rfl, rfl⟩
  | press index card granted =>
    obtain ⟨shown, found, moved⟩ := Option.bind_eq_some_iff.mp moved
    obtain ⟨_, rfl⟩ := Option.ite_some_none_eq_some.mp moved
    exact kept.press found (account shown found)
  | deletionAnswered position answer =>
    obtain ⟨deletion, found, rfl⟩ := Option.map_eq_some_iff.mp moved
    apply kept.deletionAnswered found
    intro heard
    subst heard
    exact account deletion found
  | recordingAnswered position success =>
    obtain ⟨recording, found, rfl⟩ := Option.map_eq_some_iff.mp moved
    exact kept.recordingAnswered success found
  | openDetails host inviteesAdded =>
    cases moved
    refine { kept with viewers := ?_, hosts := ?_ }
    · simp only [List.forall_mem_append, List.forall_mem_singleton]
      exact ⟨kept.viewers, List.forall_mem_nil _, List.forall_mem_nil _⟩
    · simp only [List.forall_mem_append, List.forall_mem_singleton]
      exact ⟨kept.hosts, List.forall_mem_nil _, rfl⟩
  | details index action =>
    obtain ⟨viewer, found, moved⟩ := Option.bind_eq_some_iff.mp moved
    obtain ⟨allowed, moved⟩ := Option.ite_none_right_eq_some.mp moved
    obtain ⟨session, called, rfl⟩ := Option.map_eq_some_iff.mp moved
    have here := List.mem_of_getElem? found
    have own := kept.hosts viewer here
    apply kept.setViewer index
    · apply (kept.viewers viewer here).step called
      -- the record that was read is the host's, and the invitee has agreed to it
      rintro position outcome rfl granted doc reading
      cases outcome with
      | rejected => cases granted
      | completed value =>
        obtain ⟨inside, _⟩ := List.getElem?_eq_some_iff.mp reading
        have reader : viewer.readers[position]? = some viewer.host := by
          rw [own.readers, List.getElem?_replicate, if_pos inside]
        apply kept.access
        rw [← allowed doc reading viewer.host reader]
        cases value with
        | none => cases granted
        | some access => exact granted
    · apply own.step called
      rintro user rfl
      exact account viewer found

end Keep

/-- Whatever the parties do and however their requests are answered: as long as cards
are answered by the accounts they were brought to, and details screens are told of no
account but the one they were opened under, no host is granted access to, or shown an
entry of, anyone who was not invited by that host and did not press Grant. -/
theorem consented_of_oneAccount {Stamp : Type} (format : ℤ → Stamp) (clock : Clock) {actions : List Action}
    (guarded : Guarded (step format clock) OneAccount (.initial Stamp) actions) :
    Always (step format clock) Consented (.initial Stamp) actions := by
  have keep : ∀ (world : World Stamp) action next, Kept world → OneAccount world action →
      step format clock world action = some next → Kept next :=
    fun world action next kept account moved => kept_step kept account moved
  exact (always_of_guarded keep kept_initial guarded).mono fun world kept => kept.consented

/-! ## Ann invites Bob -/

def picnic : OrganiseEvent.State where
  currentUser := some ⟨"ann", some "Ann", none⟩
  title := "picnic"
  location := ""
  start := 1532908800000
  end_ := 1533427200000
  notes := ""
  numOfInvitees := 1
  inviteesAdded := [⟨"bob", "Bob", "bob@mail"⟩]

def bobGrants : List Action :=
  [.send picnic fun _ => "n", .addAnswered 0 true,
    .notifications 0 (.authStateChanged (some "bob")),
    .notifications 0 (.snapshot 0 [picnic.invitation ⟨"ann", some "Ann", none⟩ "n"]),
    .openCard 0 0, .cardAuth 0 0 (some "bob"), .press 0 0 true, .deletionAnswered 0 .heard, .recordingAnswered 0 true,
    .openDetails "ann" [⟨"bob", "Bob"⟩], .details 0 (.authStateChanged (some "ann")),
    .details 0 (.usersSnapshot 0 [⟨"bob", "Bob", "bob@mail"⟩]), .details 0 (.accessRead 0 (.completed (some true))),
    .details 0 (.calendarsSnapshot 0 [PendingEventDetails.bobsCalendar [.plain "dentist" 10 20]])]

theorem bobGrants_oneAccount :
    Guarded (step id universalClock) OneAccount (.initial ℤ) bobGrants :=
  .cons rfl trivial <| .cons rfl trivial <| .cons rfl trivial <| .cons rfl trivial <| .cons rfl trivial <|
    .cons rfl trivial <| .cons rfl (by rintro _ ⟨⟩ _ ⟨⟩; rfl) <| .cons rfl (by rintro _ ⟨⟩ _ ⟨⟩ _ ⟨⟩; rfl) <|
    .cons rfl trivial <| .cons rfl trivial <| .cons rfl (by rintro _ ⟨⟩ _ ⟨⟩; rfl) <| .cons rfl trivial <|
    .cons rfl trivial <| .cons rfl trivial trivial

/-- Bob's dentist is shown to Ann, by his consent. -/
theorem consented_of_oneAccount_bob :
    Always (step id universalClock) Consented (.initial ℤ) bobGrants ∧
      (run (step id universalClock) (.initial ℤ) bobGrants).map
          (fun world => world.viewers.map fun viewer => viewer.session.appended) = some [[("bob", some true)]] :=
  ⟨consented_of_oneAccount id universalClock bobGrants_oneAccount, by rfl⟩

end PlenR.Screens.Consent
