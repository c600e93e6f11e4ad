import PlenR.Screens.Notifications
import PlenR.Screens.OrganiseEvent

/-! Which invitations are pushed into the app.

Every report of a notifications listener pushes the documents that have not been
seen, whatever an earlier report pushed. A press of a box asks to mark its document
as seen, and the card opened by it to delete the document. An update does not make
a document, so what was marked or deleted once is not pushed again, by any device
and in whichever order the requests are performed, as long as `add` draws no id twice.
-/

set_option autoImplicit false

namespace PlenR.Screens.InAppNotifications

open Foundation.Run Foundation.Snapshots

inductive Request where
  | add (user : String) (doc : Notification)
  /-- `update({seen: true})`. -/
  | seen (user id : String)
  | delete (user id : String)

structure Pushes where
  owner : String
  shown : List Notification

/-- Beside the documents, the requests and the screens of all devices stand what the
last action pushed, the ids `add` has drawn, and which documents were marked or deleted. -/
structure World where
  store : Store
  requests : List Request
  screens : ℕ → Notifications.Screen
  pushes : Option Pushes
  drawn : List (String × String)
  settled : List (String × String)

def World.initial : World where
  store := .empty
  requests := []
  screens := fun _ => .initial
  pushes := none
  drawn := []
  settled := []

inductive Action where
  | send (form : OrganiseEvent.State) (draw : ℕ → String)
  | screen (device : ℕ) (action : Notifications.Action)
  /-- A `NotificationBox` is pressed. -/
  | onSeen (device : ℕ) (id : String)
  /-- A button of an `InvitationCard` is pressed. -/
  | answerCard (user id : String)
  | answered (position : ℕ) (success : Bool)

/-! ## Marking a document -/

def markSeen (docs : List Notification) (id : String) : List Notification :=
  docs.map fun doc => if doc.id = id then { doc with seen := true } else doc

theorem map_id_markSeen (docs : List Notification) (id : String) :
    (markSeen docs id).map Notification.id = docs.map Notification.id := by
  rw [markSeen, List.map_map]
  apply List.map_congr_left
  intro doc _
  rw [Function.comp_apply]
  split
  · rfl
  · rfl

/-- `users/{user}/notifications/{id}`, updated; a document that is not there stays away. -/
def seeNotification (store : Store) (user id : String) : Store :=
  store.withNotifications user (markSeen (store.notifications user) id)
    (by rw [map_id_markSeen]; exact store.notifications_unique user)

theorem mem_seeNotification {store : Store} {user id other : String} {doc : Notification} :
    doc ∈ (seeNotification store user id).notifications other ↔
      if other = user then
        doc ∈ store.notifications user ∧ doc.id ≠ id ∨
          ∃ old ∈ store.notifications user, old.id = id ∧ { old with seen := true } = doc
      else doc ∈ store.notifications other := by
  by_cases here : other = user
  · subst here
    simp only [seeNotification, Store.withNotifications, Function.update_self, markSeen, List.mem_map, if_true]
    constructor
    · rintro ⟨old, stored, rfl⟩
      split
      next same => exact .inr ⟨old, stored, same, rfl⟩
      next different => exact .inl ⟨stored, different⟩
    · intro either
      obtain ⟨stored, different⟩ | ⟨old, stored, same, rfl⟩ := either
      · exact ⟨doc, stored, if_neg different⟩
      · exact ⟨old, stored, if_pos same⟩
  · simp only [seeNotification, Store.withNotifications, Function.update_of_ne here, if_neg here]

/-! ## The parties -/

def key (added : String × Notification) : String × String := (added.1, added.2.id)

namespace World

def settle (world : World) (user id : String) : List (String × String) :=
  if id ∈ (world.store.notifications user).map Notification.id then world.settled ++ [(user, id)] else world.settled

def perform (world : World) : Request → World
  | .add user doc => { world with store := world.store.setNotification user doc }
  | .seen user id =>
      { world with store := seeNotification world.store user id, settled := world.settle user id }
  | .delete user id =>
      { world with store := world.store.deleteNotification user id, settled := world.settle user id }

end World

/-- `if (!wrapper.seen)`, for each document of the report. -/
def pushesOf (screen : Notifications.Screen) : Notifications.Action → Option Pushes
  | .snapshot position docs => (screen.ownerAt position).map fun owner =>
      { owner := owner, shown := docs.filter fun doc => !doc.seen }
  | .authStateChanged _ => none

def step (world : World) : Action → Option World
  | .send form draw => some
      { world with
        requests := world.requests ++ (form.send draw).map fun (user, doc) => .add user doc
        drawn := world.drawn ++ (form.send draw).map key
        pushes := none }
  | .screen device action =>
      (Notifications.step world.store (world.screens device) action).map fun screen =>
        { world with
          screens := Function.update world.screens device screen
          pushes := pushesOf (world.screens device) action }
  | .onSeen device id => some
      { world with
        -- without a user the handler aborts at `currentUser.uid`
        requests := world.requests ++
          (world.screens device).state.currentUser.toList.map fun uid => .seen uid id
        pushes := none }
  | .answerCard user id => some { world with requests := world.requests ++ [.delete user id], pushes := none }
  | .answered position success => world.requests[position]?.map fun request =>
      let world := { world with requests := world.requests.eraseIdx position, pushes := none }
      if success then world.perform request else world

def FreshIds (world : World) : Action → Prop
  | .send form draw => (world.drawn ++ (form.send draw).map key).Nodup
  | _ => True

/-! ## The life of an invitation -/

def added (requests : List Request) : List (String × Notification) :=
  requests.filterMap fun
    | .add user doc => some (user, doc)
    | _ => none

structure Kept (world : World) : Prop where
  stored : ∀ user, ∀ doc ∈ world.store.notifications user, doc.seen = true ↔ (user, doc.id) ∈ world.settled
  coming : ∀ entry ∈ added world.requests, entry.2.seen = false ∧ key entry ∉ world.settled ∧
    entry.2.id ∉ (world.store.notifications entry.1).map Notification.id
  apart : ((added world.requests).map key).Nodup
  drawnComing : ∀ entry ∈ added world.requests, key entry ∈ world.drawn
  drawnStored : ∀ user, ∀ doc ∈ world.store.notifications user, (user, doc.id) ∈ world.drawn
  drawnSettled : ∀ name ∈ world.settled, name ∈ world.drawn

section Keep
variable {world next : World}

theorem kept_initial : Kept .initial where
  stored := fun _ => List.forall_mem_nil _
  coming := List.forall_mem_nil _
  apart := List.nodup_nil
  drawnComing := List.forall_mem_nil _
  drawnStored := fun _ => List.forall_mem_nil _
  drawnSettled := List.forall_mem_nil _

theorem added_append (requests more : List Request) : added (requests ++ more) = added requests ++ added more :=
  List.filterMap_append

theorem added_map_add (entries : List (String × Notification)) :
    added (entries.map fun (user, doc) => .add user doc) = entries := by
  rw [added, List.filterMap_map]
  exact List.filterMap_some

theorem Kept.issue (kept : Kept world) {requests : List Request} (silent : added requests = []) :
    Kept { world with requests := world.requests ++ requests, pushes := none } := by
  have same : added (world.requests ++ requests) = added world.requests := by
    rw [added_append, silent, List.append_nil]
  exact ⟨kept.stored, same ▸ kept.coming, same ▸ kept.apart, same ▸ kept.drawnComing, kept.drawnStored, kept.drawnSettled⟩

theorem send_unseen {form : OrganiseEvent.State} {draw : ℕ → String} :
    ∀ entry ∈ form.send draw, entry.2.seen = false := by
  intro entry member
  unfold OrganiseEvent.State.send at member
  cases signedIn : form.currentUser with
  | none => simp [signedIn] at member
  | some host =>
    rw [signedIn] at member
    obtain ⟨invitee, _, rfl⟩ := List.mem_map.mp member
    rfl

theorem Kept.send (kept : Kept world) {form : OrganiseEvent.State} {draw : ℕ → String}
    (fresh : (world.drawn ++ (form.send draw).map key).Nodup) :
    Kept { world with
      requests := world.requests ++ (form.send draw).map fun (user, doc) => .add user doc
      drawn := world.drawn ++ (form.send draw).map key
      pushes := none } := by
  obtain ⟨_, distinct, separate⟩ := List.nodup_append.mp fresh
  have undrawn : ∀ entry ∈ form.send draw, key entry ∉ world.drawn :=
    fun entry member drawn => separate _ drawn _ (List.mem_map_of_mem member) rfl
  have all : added (world.requests ++ (form.send draw).map fun (user, doc) => .add user doc) =
      added world.requests ++ form.send draw := by
    rw [added_append, added_map_add]
  constructor
  case stored => exact kept.stored
  case coming =>
    rw [all, List.forall_mem_append]
    refine ⟨kept.coming, ?_⟩
    intro entry member
    refine ⟨send_unseen entry member, fun settled => undrawn entry member (kept.drawnSettled _ settled), ?_⟩
    intro stored
    obtain ⟨doc, present, same⟩ := List.mem_map.mp stored
    apply undrawn entry member
    rw [key, ← same]
    exact kept.drawnStored _ doc present
  case apart =>
    rw [all, List.map_append, List.nodup_append]
    refine ⟨kept.apart, distinct, ?_⟩
    intro old before new later same
    obtain ⟨entry, coming, rfl⟩ := List.mem_map.mp before
    exact separate _ (kept.drawnComing entry coming) _ later same
  case drawnComing =>
    rw [all, List.forall_mem_append]
    exact ⟨fun entry member => List.mem_append_left _ (kept.drawnComing entry member),
      fun entry member => List.mem_append_right _ (List.mem_map_of_mem member)⟩
  case drawnStored => exact fun user doc member => List.mem_append_left _ (kept.drawnStored user doc member)
  case drawnSettled => exact fun name member => List.mem_append_left _ (kept.drawnSettled name member)

theorem Kept.drop (kept : Kept world) (position : ℕ) :
    Kept { world with requests := world.requests.eraseIdx position, pushes := none } := by
  have fewer : (added (world.requests.eraseIdx position)).Sublist (added world.requests) :=
    (List.eraseIdx_sublist world.requests position).filterMap _
  exact ⟨kept.stored, fun entry member => kept.coming entry (fewer.subset member), kept.apart.sublist (fewer.map key),
    fun entry member => kept.drawnComing entry (fewer.subset member), kept.drawnStored, kept.drawnSettled⟩

theorem Kept.arrive (kept : Kept world) {position : ℕ} {user : String} {doc : Notification}
    (found : world.requests[position]? = some (.add user doc)) :
    Kept { world with
      requests := world.requests.eraseIdx position
      pushes := none
      store := world.store.setNotification user doc } := by
  obtain ⟨inside, located⟩ := List.getElem?_eq_some_iff.mp found
  have split : (added world.requests).Perm ((user, doc) :: added (world.requests.eraseIdx position)) := by
    have moved := (List.getElem_cons_eraseIdx_perm inside).symm
    rw [located] at moved
    exact moved.filterMap _
  have coming : (user, doc) ∈ added world.requests := split.mem_iff.mpr List.mem_cons_self
  obtain ⟨unseen, unsettled, _⟩ := kept.coming _ coming
  obtain ⟨alone, _⟩ := List.nodup_cons.mp ((split.map key).nodup_iff.mp kept.apart)
  have rest := kept.drop position
  refine ⟨?_, ?_, rest.apart, rest.drawnComing, ?_, rest.drawnSettled⟩
  · intro other stored member
    rw [Store.mem_setNotification] at member
    split at member
    next same =>
      subst same
      obtain rfl | ⟨old, _⟩ := member
      · exact iff_of_false (by rw [unseen]; exact Bool.false_ne_true) unsettled
      · exact kept.stored other stored old
    next => exact kept.stored other stored member
  · intro entry member
    obtain ⟨unseenYet, unsettledYet, absent⟩ := rest.coming entry member
    refine ⟨unseenYet, unsettledYet, ?_⟩
    intro present
    obtain ⟨stored, member', same⟩ := List.mem_map.mp present
    rw [Store.mem_setNotification] at member'
    split at member'
    next here =>
      obtain rfl | ⟨old, _⟩ := member'
      · apply alone
        have named : key entry = key (user, stored) := Prod.ext here same.symm
        exact named ▸ List.mem_map_of_mem member
      · exact absent (same ▸ here ▸ List.mem_map_of_mem old)
    next => exact absent (same ▸ List.mem_map_of_mem member')
  · intro other stored member
    rw [Store.mem_setNotification] at member
    split at member
    next same =>
      subst same
      obtain rfl | ⟨old, _⟩ := member
      · exact kept.drawnComing _ coming
      · exact kept.drawnStored other stored old
    next => exact kept.drawnStored other stored member

theorem mem_settle {user id : String} {name : String × String} : name ∈ world.settle user id ↔
    name ∈ world.settled ∨ name = (user, id) ∧ id ∈ (world.store.notifications user).map Notification.id := by
  unfold World.settle
  split
  next stored => simp [stored]
  next absent => simp [absent]

/-- Marking and deleting leave the other documents alone, and what still has the name is seen. -/
theorem Kept.settle (kept : Kept world) {user id : String} {store : Store}
    (others : ∀ other, ∀ doc ∈ store.notifications other, ∃ old ∈ world.store.notifications other, old.id = doc.id ∧
      ((other, doc.id) ≠ (user, id) → doc.seen = old.seen))
    (named : ∀ doc ∈ store.notifications user, doc.id = id → doc.seen = true) :
    Kept { world with store := store, settled := world.settle user id } := by
  constructor
  case stored =>
    intro other doc member
    obtain ⟨old, before, sameId, unchanged⟩ := others other doc member
    by_cases same : (other, doc.id) = (user, id)
    · obtain ⟨rfl, rfl⟩ := Prod.mk.inj same
      apply iff_of_true (named doc member rfl)
      exact mem_settle.mpr (.inr ⟨rfl, sameId ▸ List.mem_map_of_mem before⟩)
    · rw [unchanged same, kept.stored other old before, sameId, mem_settle]
      exact (or_iff_left fun new => same new.1).symm
  case coming =>
    intro entry member
    obtain ⟨unseen, unsettled, absent⟩ := kept.coming entry member
    refine ⟨unseen, ?_, ?_⟩
    · intro settled
      obtain before | ⟨same, stored⟩ := mem_settle.mp settled
      · exact unsettled before
      · obtain ⟨rfl, rfl⟩ := Prod.mk.inj same
        exact absent stored
    · intro present
      obtain ⟨doc, stored, same⟩ := List.mem_map.mp present
      obtain ⟨old, before, sameId, _⟩ := others _ doc stored
      exact absent (same ▸ sameId ▸ List.mem_map_of_mem before)
  case apart => exact kept.apart
  case drawnComing => exact kept.drawnComing
  case drawnStored =>
    intro other doc member
    obtain ⟨old, before, sameId, _⟩ := others other doc member
    exact sameId ▸ kept.drawnStored other old before
  case drawnSettled =>
    intro name settled
    obtain before | ⟨rfl, stored⟩ := mem_settle.mp settled
    · exact kept.drawnSettled name before
    · obtain ⟨doc, present, rfl⟩ := List.mem_map.mp stored
      exact kept.drawnStored user doc present

theorem Kept.seen (kept : Kept world) (user id : String) : Kept (world.perform (.seen user id)) := by
  apply kept.settle
  case others =>
    intro other doc member
    rw [mem_seeNotification] at member
    split at member
    next same =>
      subst same
      obtain ⟨stored, _⟩ | ⟨old, stored, here, rfl⟩ := member
      · exact ⟨doc, stored, rfl, fun _ => rfl⟩
      · exact ⟨old, stored, rfl, fun elsewhere => absurd (congrArg (Prod.mk other) here) elsewhere⟩
    next => exact ⟨doc, member, rfl, fun _ => rfl⟩
  case named =>
    intro doc member same
    rw [mem_seeNotification, if_pos rfl] at member
    obtain ⟨_, different⟩ | ⟨old, _, _, rfl⟩ := member
    · exact absurd same different
    · rfl

theorem Kept.delete (kept : Kept world) (user id : String) : Kept (world.perform (.delete user id)) := by
  apply kept.settle
  case others => exact fun other doc member => ⟨doc, (Store.mem_deleteNotification.mp member).1, rfl, fun _ => rfl⟩
  case named => exact fun doc member same => absurd same ((Store.mem_deleteNotification.mp member).2 rfl)

theorem kept_step (kept : Kept world) {action : Action} (fresh : FreshIds world action)
    (moved : step world action = some next) : Kept next := by
  cases action with
  | send form draw =>
    cases moved
    exact kept.send fresh
  | screen device action =>
    obtain ⟨screen, _, rfl⟩ := Option.map_eq_some_iff.mp moved
    exact ⟨kept.stored, kept.coming, kept.apart, kept.drawnComing, kept.drawnStored, kept.drawnSettled⟩
  | onSeen device id =>
    cases moved
    apply kept.issue
    cases (world.screens device).state.currentUser with
    | none => rfl
    | some uid => rfl
  | answerCard user id =>
    cases moved
    exact kept.issue rfl
  | answered position success =>
    obtain ⟨request, found, rfl⟩ := Option.map_eq_some_iff.mp moved
    cases success with
    | false => exact kept.drop position
    | true =>
      cases request with
      | add user doc => exact kept.arrive found
      | seen user id => exact (kept.drop position).seen user id
      | delete user id => exact (kept.drop position).delete user id

end Keep

def anns : OrganiseEvent.State where
  currentUser := some ⟨"ann", some "Ann", none⟩
  title := "picnic"
  location := ""
  start := 1532908800000
  end_ := 1533427200000
  notes := ""
  numOfInvitees := 1
  inviteesAdded := [⟨"bob", "Bob", "bob@mail"⟩]

def unseen : Notification := anns.invitation ⟨"ann", some "Ann", none⟩ "n"

end PlenR.Screens.InAppNotifications
