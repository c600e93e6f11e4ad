import PlenR.Screens.AddEvent

/-! Confirming a pending event.

`AddEvent` calls `onAddEvent`, which issues one write for the host and one for
each invitee, and then `deletePendingEvent`, without waiting for any of the
writes. The pending event survives a failed write only if its deletion fails too.
-/

set_option autoImplicit false

namespace PlenR.Screens.ConfirmPending

open PlenR.Util Foundation

structure Database where
  store : Store
  pendingEvents : String → List PendingEvent

def Database.perform (database : Database) : Request → Database
  | .setEvent user data => { database with store := database.store.setEvent user "PlenR Calendar" data }
  | .deletePending user id =>
      { database with
        pendingEvents := fun other =>
          if other = user then (database.pendingEvents user).filter (fun event => event.id ≠ id)
          else database.pendingEvents other }

/-! ## The callbacks -/

/-- `onAddEvent` as `MyPlenR` passes it to `PendingEvents`. -/
def onAddEvent (currentUser : Option String) (data : Event) (invitees : Option (List Invitee)) : Effect Request :=
  match currentUser, invitees with
  | none, _ => .abort
  -- the write for the host is issued before `forEach` fails
  | some uid, none => (Effect.issue [.setEvent uid data]).andThen .abort
  | some uid, some invitees =>
      .issue (.setEvent uid data :: invitees.map fun invitee => .setEvent invitee.id data)

/-- `deletePendingEvent` as `PendingEventDetails` passes it to `AddEvent`. -/
def deletePendingEvent (currentUser : Option String) (event : PendingEvent) : Effect Request :=
  match currentUser with
  | none => .abort
  | some uid => .issue [.deletePending uid event.id]

/-- The screen that opened `PendingEvents`; `OrganiseEvent` passes no callback. -/
inductive Opener where
  | myPlenR
  | organiseEvent
  deriving DecidableEq

def passedOnAddEvent (currentUser : Option String) :
    Opener → Option (Event → Option (List Invitee) → Effect Request)
  | .myPlenR => some (onAddEvent currentUser)
  | .organiseEvent => none

/-- What pressing `done` issues when the form was opened for a pending event. -/
def confirm (opener : Opener) (host freshId : String) (pending : PendingEvent) (form : AddEvent.State) :
    Effect Request :=
  AddEvent.done freshId
    { inviteesAdded := some pending.inviteesAdded
      onAddEvent := passedOnAddEvent (some host) opener
      deletePendingEvent := some (deletePendingEvent (some host) pending) } form

/-! ## What the host relies on -/

def recipients (host : String) (pending : PendingEvent) : List String :=
  host :: pending.inviteesAdded.map Invitee.id

/-- If the pending event is gone, everybody has the event; if a write failed, it is not gone. -/
def SafelyConfirmed (host : String) (pending : PendingEvent) (event : Event) (requests : List Request)
    (outcomes : ℕ → Bool) (after : Database) : Prop :=
  (pending ∉ after.pendingEvents host →
      ∀ user ∈ recipients host pending, event ∈ after.store.events user "PlenR Calendar") ∧
    ((∃ index user, requests[index]? = some (.setEvent user event) ∧ outcomes index = false) →
      pending ∈ after.pendingEvents host)

section Confirm
variable {host freshId : String} {pending : PendingEvent} {form : AddEvent.State}

def writes (host : String) (pending : PendingEvent) (event : Event) : List Request :=
  (recipients host pending).map (fun user => .setEvent user event) ++ [.deletePending host pending.id]

theorem confirm_requests (titled : form.title ≠ "") :
    (confirm .myPlenR host freshId pending form).requests = writes host pending (form.event freshId) := by
  simp [confirm, AddEvent.done, titled, passedOnAddEvent, onAddEvent, deletePendingEvent, Effect.andThen,
    Effect.issue, writes, recipients, Function.comp_def]

theorem writes_getElem? {event : Event} {index : ℕ} (inside : index < (recipients host pending).length) :
    (writes host pending event)[index]? = some (.setEvent (recipients host pending)[index] event) := by
  rw [writes, List.getElem?_append_left (by simpa using inside), List.getElem?_map,
    List.getElem?_eq_getElem inside]
  rfl

theorem confirm_nothing {opener : Opener} (unanswered : form.title = "" ∨ opener = .organiseEvent) :
    (confirm opener host freshId pending form).requests = [] := by
  unfold confirm AddEvent.done
  by_cases untitled : form.title = ""
  · rw [if_pos untitled]
    rfl
  · obtain rfl := unanswered.resolve_left untitled
    rw [if_neg untitled]
    rfl

theorem perform_keeps_event {event : Event} {request : Request} (issued : request ∈ writes host pending event)
    {user : String} {database : Database} (stored : event ∈ database.store.events user "PlenR Calendar") :
    event ∈ (database.perform request).store.events user "PlenR Calendar" := by
  cases List.mem_append.mp issued with
  | inl write =>
    obtain ⟨other, _, rfl⟩ := List.mem_map.mp write
    apply Store.mem_setEvent.mpr
    by_cases same : user = other ∧ "PlenR Calendar" = "PlenR Calendar"
    · rw [if_pos same]
      exact .inl rfl
    · rw [if_neg same]
      exact stored
  | inr delete =>
    rw [List.mem_singleton.mp delete]
    exact stored

theorem all_stored {event : Event} (outcomes : ℕ → Bool) (database : Database)
    (succeed : ∀ index < (recipients host pending).length, outcomes index = true) {user : String}
    (recipient : user ∈ recipients host pending) :
    event ∈ (perform Database.perform outcomes database (writes host pending event)).store.events
      user "PlenR Calendar" := by
  obtain ⟨index, inside, found⟩ := List.mem_iff_getElem.mp recipient
  -- the write for this recipient makes it so, and no other request takes it back
  have issued : (writes host pending event)[index]? = some (.setEvent user event) := by
    rw [writes_getElem? inside, found]
  have makes : ∀ database : Database,
      event ∈ (database.perform (.setEvent user event)).store.events user "PlenR Calendar" := by
    intro database
    apply Store.mem_setEvent.mpr
    rw [if_pos ⟨rfl, rfl⟩]
    exact .inl rfl
  exact perform_makes (fun after : Database => event ∈ after.store.events user "PlenR Calendar") issued
    (succeed index inside) database makes fun request member state stored => perform_keeps_event member stored

theorem pending_iff {event : Event} (outcomes : ℕ → Bool) {database : Database}
    (held : pending ∈ database.pendingEvents host) :
    pending ∈ (perform Database.perform outcomes database (writes host pending event)).pendingEvents host ↔
      outcomes (recipients host pending).length = false := by
  have before : pending ∈ (perform Database.perform outcomes database
      ((recipients host pending).map fun user => .setEvent user event)).pendingEvents host := by
    apply perform_keeps (fun database : Database => pending ∈ database.pendingEvents host) outcomes held
    intro request issued state stays
    obtain ⟨user, _, rfl⟩ := List.mem_map.mp issued
    exact stays
  rw [writes, perform_append, List.length_map]
  change _ ∈ (if outcomes (recipients host pending).length then Database.perform _ _ else _).pendingEvents host ↔ _
  by_cases deleted : outcomes (recipients host pending).length = true
  · rw [if_pos deleted, deleted]
    simp [Database.perform]
  · rw [if_neg deleted, Bool.eq_false_iff]
    exact iff_of_true before deleted

theorem safelyConfirmed_iff {event : Event} (outcomes : ℕ → Bool) {database : Database}
    (held : pending ∈ database.pendingEvents host) :
    SafelyConfirmed host pending event (writes host pending event) outcomes
        (perform Database.perform outcomes database (writes host pending event)) ↔
      outcomes (recipients host pending).length = false ∨
        ∀ index < (recipients host pending).length, outcomes index = true := by
  unfold SafelyConfirmed
  rw [pending_iff outcomes held]
  constructor
  · intro ⟨_, retry⟩
    by_cases deleted : outcomes (recipients host pending).length = false
    · exact .inl deleted
    · apply Or.inr
      intro index inside
      by_contra failed
      apply deleted
      apply retry
      exact ⟨index, (recipients host pending)[index], writes_getElem? inside, Bool.eq_false_iff.mpr failed⟩
  · intro condition
    cases condition with
    | inl kept => exact ⟨fun gone => absurd kept gone, fun _ => kept⟩
    | inr succeed =>
      constructor
      · intro _ user recipient
        exact all_stored outcomes database succeed recipient
      · intro ⟨index, user, issued, failed⟩
        by_cases inside : index < (recipients host pending).length
        · rw [succeed index inside] at failed
          cases failed
        · rw [writes, List.getElem?_append_right (by simpa using Nat.le_of_not_lt inside)] at issued
          have final := List.mem_of_getElem? issued
          simp at final

end Confirm

/-- A confirmation is safe exactly if nothing is written, or the deletion fails,
or the write for the host and for every invitee succeeds. -/
theorem confirm_safely_iff (opener : Opener) (host freshId : String) (pending : PendingEvent) (form : AddEvent.State)
    (outcomes : ℕ → Bool) (database : Database) (held : pending ∈ database.pendingEvents host) :
    SafelyConfirmed host pending (form.event freshId) (confirm opener host freshId pending form).requests outcomes
        (perform Database.perform outcomes database (confirm opener host freshId pending form).requests) ↔
      (form.title = "" ∨ opener = .organiseEvent) ∨ outcomes (recipients host pending).length = false ∨
        ∀ index < (recipients host pending).length, outcomes index = true := by
  by_cases unanswered : form.title = "" ∨ opener = .organiseEvent
  · rw [confirm_nothing unanswered]
    apply iff_of_true _ (.inl unanswered)
    exact ⟨fun gone => absurd held gone, fun _ => held⟩
  · obtain ⟨titled, answered⟩ := not_or.mp unanswered
    have callback : opener = .myPlenR := by
      cases opener with
      | myPlenR => rfl
      | organiseEvent => exact absurd rfl answered
    rw [callback, confirm_requests titled, safelyConfirmed_iff outcomes held]
    simp [titled]

/-! ## A dinner with one invitee -/

def dinner : PendingEvent where
  id := "p1"
  title := "Dinner"
  start := 1532952000000
  end_ := 1533470400000
  location := ""
  notes := ""
  inviteesAdded := [⟨"bob", "Bob"⟩]

def dinnerForm : AddEvent.State where
  title := "Dinner"
  location := ""
  start := 1532970000000
  end_ := 1532973600000
  notes := ""

def organised : Database where
  store := .empty
  pendingEvents := fun user => if user = "ann" then [dinner] else []

theorem confirm_safely_all_succeed :
    SafelyConfirmed "ann" dinner (dinnerForm.event "e1") (confirm .myPlenR "ann" "e1" dinner dinnerForm).requests
        (fun _ => true)
        (perform Database.perform (fun _ => true) organised
          (confirm .myPlenR "ann" "e1" dinner dinnerForm).requests) ↔
      (dinnerForm.title = "" ∨ Opener.myPlenR = .organiseEvent) ∨
        (fun _ => true) (recipients "ann" dinner).length = false ∨
          ∀ index < (recipients "ann" dinner).length, (fun _ => true) index = true :=
  confirm_safely_iff .myPlenR "ann" "e1" dinner dinnerForm (fun _ => true) organised (by decide)

/-- The write for Bob fails, everything else succeeds: the pending event is gone. -/
theorem dinner_lost_for_bob :
    ¬ SafelyConfirmed "ann" dinner (dinnerForm.event "e1") (confirm .myPlenR "ann" "e1" dinner dinnerForm).requests
      (fun index => index ≠ 1)
      (perform Database.perform (fun index => index ≠ 1) organised
        (confirm .myPlenR "ann" "e1" dinner dinnerForm).requests) := by
  intro safely
  have kept := safely.2 ⟨1, "bob", by decide, by decide⟩
  revert kept
  decide

end PlenR.Screens.ConfirmPending
