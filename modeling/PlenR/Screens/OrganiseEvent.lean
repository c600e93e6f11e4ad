import Mathlib.Data.List.Infix
import Mathlib.Data.List.Nodup
import PlenR.Foundation.Run
import PlenR.Screens.Store
import PlenR.Time.Days

/-! The form of `OrganiseEvent.js`, with the search of `AddInvitees.js` over it.

The form keeps the selected invitees in a list and their number beside it. The
search shows whoever matches the typed text, selected already or not; a tap on a
hit adds it and closes the search. `Send` follows the list.
-/

set_option autoImplicit false

namespace PlenR.Screens

open PlenR.Time Foundation.Run

namespace AddInvitees

def includes (text part : String) : Bool := part.toList <:+: text.toList

def retrieveInvitees (currentUserId text : String) (docs : List UserDoc) : List UserDoc :=
  docs.filter fun doc => doc.id ≠ currentUserId && (includes doc.displayName text || includes doc.email text)

end AddInvitees

namespace OrganiseEvent

structure Host where
  uid : String
  displayName : Option String
  photoURL : Option String
  deriving DecidableEq

structure State where
  currentUser : Option Host
  title : String
  location : String
  start : ℤ
  end_ : ℤ
  notes : String
  numOfInvitees : ℕ
  inviteesAdded : List UserDoc
  deriving DecidableEq

structure Search where
  currentUserId : String
  inviteeHits : List UserDoc
  deriving DecidableEq

structure Form where
  state : State
  search : Option Search
  deriving DecidableEq

section Clock
variable (clock : DayClock)

/-- The constructor; `currentDate` is the hour of now on the selected day. -/
def Form.initial (currentDate : ℤ) : Form where
  state :=
    { currentUser := none
      title := ""
      location := ""
      start := currentDate
      end_ := clock.addDays currentDate 6
      notes := ""
      numOfInvitees := 0
      inviteesAdded := [] }
  search := none

inductive Action where
  | authStateChanged (user : Host)
  | titleChanged (text : String)
  | locationChanged (text : String)
  | notesChanged (text : String)
  | startChanged (newDate : ℤ)
  | endChanged (newDate : ℤ)
  | openAddInvitees
  | usersSnapshot (text : String) (docs : List UserDoc)
  | pick (position : ℕ)
  | dismissAddInvitees

namespace State

def onAddInvitee (invitee : UserDoc) (state : State) : State :=
  { state with
    inviteesAdded := state.inviteesAdded ++ [invitee]
    numOfInvitees := state.numOfInvitees + 1 }

def invitation (host : Host) (id : String) (state : State) : Notification where
  id := id
  seen := false
  host_id := host.uid
  host_name := host.displayName
  host_photo := host.photoURL
  title := state.title
  location := state.location
  start := state.start
  end_ := state.end_
  notes := state.notes
  inviteesAdded := state.inviteesAdded.map fun invitee => { id := invitee.id, displayName := invitee.displayName }

/-- What `Send` adds: for each element of the list a document to the notifications of that user. -/
def send (draw : ℕ → String) (state : State) : List (String × Notification) :=
  match state.currentUser with
  | none => []
  | some host => state.inviteesAdded.zipIdx.map fun (invitee, i) => (invitee.id, state.invitation host (draw i))

end State

def step (form : Form) : Action → Option Form
  | .authStateChanged user => some { form with state := { form.state with currentUser := some user } }
  | .titleChanged text => some { form with state := { form.state with title := text } }
  | .locationChanged text => some { form with state := { form.state with location := text } }
  | .notesChanged text => some { form with state := { form.state with notes := text } }
  -- either picker moves the other date along
  | .startChanged newDate =>
      some { form with state := { form.state with start := newDate, end_ := clock.addDays newDate 6 } }
  | .endChanged newDate =>
      some { form with state := { form.state with end_ := newDate, start := clock.addDays newDate (-6) } }
  | .openAddInvitees =>
      match form.state.currentUser with
      -- the handler aborts at `currentUser.uid`
      | none => some form
      | some host => some { form with search := some { currentUserId := host.uid, inviteeHits := [] } }
  | .usersSnapshot text docs => form.search.map fun search =>
      { form with
        search := some { search with
          inviteeHits := AddInvitees.retrieveInvitees search.currentUserId text docs } }
  | .pick position =>
      (form.search.bind fun search => search.inviteeHits[position]?).map fun invitee =>
        { state := form.state.onAddInvitee invitee, search := none }
  | .dismissAddInvitees => some { form with search := none }

end Clock

/-! ## Who is invited -/

def Form.ids (form : Form) : List String := form.state.inviteesAdded.map UserDoc.id

/-- Nobody is listed twice, the number is that of the list, and pressing `Send`
notifies each listed user once and no one else. -/
structure InvitesEachOnce (form : Form) : Prop where
  distinct : form.ids.Nodup
  counted : form.state.numOfInvitees = form.state.inviteesAdded.length
  notified : ∀ draw user, ((form.state.send draw).filter fun added => added.1 = user).length =
    if user ∈ form.ids then 1 else 0

def NewPick (form : Form) : Action → Prop
  | .pick position => ∀ invitee ∈ form.search.bind (fun search => search.inviteeHits[position]?), invitee.id ∉ form.ids
  | _ => True

structure Kept (form : Form) : Prop where
  counted : form.state.numOfInvitees = form.state.inviteesAdded.length
  signedIn : form.state.currentUser = none → form.search = none ∧ form.state.inviteesAdded = []

section Step
variable {clock : DayClock} {form next : Form}

theorem send_map_fst (draw : ℕ → String) (kept : Kept form) : (form.state.send draw).map Prod.fst = form.ids := by
  unfold State.send Form.ids
  cases signedIn : form.state.currentUser with
  | none =>
    rw [(kept.signedIn signedIn).2]
    rfl
  | some host =>
    have names : form.state.inviteesAdded.zipIdx.map (UserDoc.id ∘ Prod.fst) =
        form.state.inviteesAdded.map UserDoc.id := by
      rw [← List.map_map, List.zipIdx_map_fst]
    rw [List.map_map]
    exact names

theorem invitesEachOnce_iff (kept : Kept form) : InvitesEachOnce form ↔ form.ids.Nodup := by
  constructor
  · intro once
    exact once.distinct
  · intro distinct
    constructor
    case distinct => exact distinct
    case counted => exact kept.counted
    case notified =>
      intro draw user
      rw [← distinct.count, ← send_map_fst draw kept, List.count, List.countP_map, List.countP_eq_length_filter]
      rfl

theorem kept_step (kept : Kept form) {action : Action} (moved : step clock form action = some next) : Kept next := by
  obtain ⟨counted, signedIn⟩ := kept
  cases action with
  | authStateChanged user =>
    cases moved
    exact ⟨counted, nofun⟩
  | openAddInvitees =>
    simp only [step] at moved
    split at moved
    next => exact Option.some.inj moved ▸ ⟨counted, signedIn⟩
    next host present =>
      cases moved
      exact ⟨counted, fun absent => nomatch present.symm.trans absent⟩
  | usersSnapshot text docs =>
    obtain ⟨search, open_, rfl⟩ := Option.map_eq_some_iff.mp moved
    exact ⟨counted, fun absent => nomatch open_.symm.trans (signedIn absent).1⟩
  | pick position =>
    obtain ⟨invitee, found, rfl⟩ := Option.map_eq_some_iff.mp moved
    constructor
    case counted => simp [State.onAddInvitee, counted]
    case signedIn =>
      -- the search that was open shows that there is a user
      intro absent
      rw [(signedIn absent).1] at found
      cases found
  | dismissAddInvitees =>
    cases moved
    exact ⟨counted, fun absent => ⟨rfl, (signedIn absent).2⟩⟩
  | _ =>
    cases moved
    exact ⟨counted, signedIn⟩

theorem ids_step {action : Action} (moved : step clock form action = some next)
    (notPick : ∀ position, action ≠ .pick position) : next.ids = form.ids := by
  cases action with
  | openAddInvitees =>
    simp only [step] at moved
    split at moved
    next => exact Option.some.inj moved ▸ rfl
    next => exact Option.some.inj moved ▸ rfl
  | usersSnapshot text docs =>
    obtain ⟨search, _, rfl⟩ := Option.map_eq_some_iff.mp moved
    rfl
  | pick position => exact absurd rfl (notPick position)
  | _ =>
    cases moved
    rfl

theorem invitesEachOnce_step_iff (kept : Kept form) (once : InvitesEachOnce form) {action : Action}
    (moved : step clock form action = some next) : InvitesEachOnce next ↔ NewPick form action := by
  rw [invitesEachOnce_iff (kept_step kept moved)]
  cases action with
  | pick position =>
    obtain ⟨invitee, found, rfl⟩ := Option.map_eq_some_iff.mp moved
    have grown : (form.ids ++ [invitee.id]).Nodup ↔ invitee.id ∉ form.ids := by
      rw [(List.perm_append_singleton _ _).nodup_iff, List.nodup_cons]
      exact and_iff_left once.distinct
    simp only [NewPick, found, Option.mem_some_iff, forall_eq', ← grown]
    simp [Form.ids, State.onAddInvitee]
  | _ =>
    rw [ids_step moved nofun]
    exact iff_of_true once.distinct trivial

end Step

/-- In every run of the form each selected invitee is listed, counted and notified
once exactly if no pick selects somebody again. -/
theorem invitesEachOnce_iff_newPick (clock : DayClock) (currentDate : ℤ) (actions : List Action) :
    Always (step clock) InvitesEachOnce (.initial clock currentDate) actions ↔
      Guarded (step clock) NewPick (.initial clock currentDate) actions := by
  apply always_iff_guarded_of_step_iff Kept
  case kept => exact fun form action next kept moved => kept_step kept moved
  case decided => exact fun form action next kept once moved => invitesEachOnce_step_iff kept once moved
  case start => exact ⟨rfl, fun _ => ⟨rfl, rfl⟩⟩
  case lawful =>
    constructor
    case distinct => exact List.nodup_nil
    case counted => rfl
    case notified => exact fun draw user => rfl

/-- Bob is searched for and picked twice. -/
theorem bob_invited_twice :
    ¬ Always (step universalDays) InvitesEachOnce (.initial universalDays 1531872000000)
      [.authStateChanged ⟨"ann", some "Ann", none⟩,
       .openAddInvitees, .usersSnapshot "Bo" [⟨"bob", "Bob", "bob@mail"⟩], .pick 0,
       .openAddInvitees, .usersSnapshot "Bo" [⟨"bob", "Bob", "bob@mail"⟩], .pick 0] := by
  intro always
  have once := (((((((always.2 _ rfl).2 _ rfl).2 _ rfl).2 _ rfl).2 _ rfl).2 _ rfl).2 _ rfl)
  have distinct := once.distinct
  revert distinct
  decide

end OrganiseEvent
end PlenR.Screens
