import PlenR.Foundation.Run

/-! The account screen, `GoogleLogin.js`, with everything it waits for.

The mount, sign-ins, sign-outs and requests for the list of calendars are under
way beside each other, and each goes on from where it stopped, whatever the
others have done since. On iOS a request is opened and sent. On Android it is sent
before the token to open it with is there, which fails: no list ever comes, and
nothing takes back the spinner that was shown for it. On iOS the same happens when the
last answer cannot be read.
-/

set_option autoImplicit false

namespace PlenR.Screens.GoogleLogin

open Foundation.Run

inductive Platform where
  | ios
  | android
  deriving DecidableEq

inductive Mount where
  | configuring
  | readingUser
  /-- `getCurrentUser` has ended, and the mount has not gone on yet. -/
  | userRead
  | registering
  | ended
  /-- The request of the mount has failed. -/
  | rejected
  deriving DecidableEq

inductive SignIn (User : Type) where
  | google
  | firebase (data : User)

inductive SignOut where
  | revokeAccess
  | google
  | firebase
  deriving DecidableEq

/-- The state of the component, and what is under way. A request is known by the
user whose token it was opened with. -/
structure State (User Item : Type) where
  user : Option User
  firebaseUser : Option String
  calendarListArray : List Item
  signingIn : Bool
  retrievingCalendars : Bool
  mount : Mount
  signIns : List (SignIn User)
  signOuts : List SignOut
  requests : List User

inductive Reply (Item : Type) where
  | failed
  /-- `JSON.parse` fails. -/
  | unreadable
  /-- The `items` of the body, which every list of Google has. -/
  | list (items : List Item)

def Reply.items {Item : Type} : Reply Item → List Item
  | .failed | .unreadable => []
  | .list items => items

inductive Action (User Item : Type) where
  | configured
  | currentUser (user : Option User)
  | mountGoesOn
  | registered
  | authStateChanged (user : Option String)
  | pressSignIn
  /-- The answer of Google, absent when it is an error; so with the others. -/
  | googleSignedIn (position : ℕ) (data : Option User)
  | firebaseSignedIn (position : ℕ) (uid : Option String)
  | pressSignOut
  | signOutGoesOn (position : ℕ) (succeeds : Bool)
  | answered (position : ℕ) (reply : Reply Item)

section Component
variable {User Item : Type}

def State.initial : State User Item where
  user := none
  firebaseUser := none
  calendarListArray := []
  signingIn := false
  retrievingCalendars := false
  mount := .configuring
  signIns := []
  signOuts := []
  requests := []

def State.getCalendarsFromGoogle (platform : Platform) (user : User) (state : State User Item) : State User Item :=
  let state := { state with retrievingCalendars := true }
  match platform with
  | .ios => { state with requests := state.requests ++ [user] }
  -- a request that has not been opened cannot be sent
  | .android => state

def State.mountGoesOn (platform : Platform) (state : State User Item) : State User Item :=
  match state.user with
  | none => { state with mount := .registering }
  | some user =>
      let state := state.getCalendarsFromGoogle platform user
      match platform with
      | .ios => { state with mount := .registering }
      | .android => { state with mount := .rejected }

def State.signedIn (platform : Platform) (data : User) (uid : String) (state : State User Item) : State User Item :=
  { state with user := some data, signingIn := false, firebaseUser := some uid }.getCalendarsFromGoogle platform data

def SignOut.next : SignOut → Option SignOut
  | .revokeAccess => some .google
  | .google => some .firebase
  | .firebase => none

/-- An end of `signOut`; a failure only shows an alert. -/
def State.signOutGoesOn (state : State User Item) (position : ℕ) (stage : SignOut) : Bool → State User Item
  | false => { state with signOuts := state.signOuts.eraseIdx position }
  | true =>
      match stage.next with
      | some stage => { state with signOuts := state.signOuts.set position stage }
      | none => { state with
          signOuts := state.signOuts.eraseIdx position
          user := none
          calendarListArray := [] }

def State.answer (state : State User Item) (position : ℕ) (reply : Reply Item) : State User Item :=
  let state := { state with requests := state.requests.eraseIdx position }
  match reply with
  | .failed => { state with retrievingCalendars := false }
  -- the handler ends before it sets anything
  | .unreadable => state
  | .list items => { state with calendarListArray := items, retrievingCalendars := false }

variable (platform : Platform) (belongs : User → Item → Bool)

/-- Google answers with calendars of the account the token is of. -/
def step (state : State User Item) : Action User Item → Option (State User Item)
  | .configured => if state.mount = .configuring then some { state with mount := .readingUser } else none
  | .currentUser user =>
      if state.mount = .readingUser then some { state with user := user, mount := .userRead } else none
  | .mountGoesOn => if state.mount = .userRead then some (state.mountGoesOn platform) else none
  | .registered => if state.mount = .registering then some { state with mount := .ended } else none
  | .authStateChanged user => if state.mount = .ended then some { state with firebaseUser := user } else none
  | .pressSignIn =>
      if state.user.isNone then some { state with signingIn := true, signIns := state.signIns ++ [.google] } else none
  | .googleSignedIn position data =>
      match state.signIns[position]?, data with
      | some .google, some data => some { state with signIns := state.signIns.set position (.firebase data) }
      | some .google, none => some { state with signIns := state.signIns.eraseIdx position, signingIn := false }
      | _, _ => none
  | .firebaseSignedIn position uid =>
      match state.signIns[position]?, uid with
      | some (.firebase data), some uid =>
          some ({ state with signIns := state.signIns.eraseIdx position }.signedIn platform data uid)
      | some (.firebase _), none =>
          some { state with signIns := state.signIns.eraseIdx position, signingIn := false }
      | _, _ => none
  | .pressSignOut =>
      if state.user.isSome then some { state with signOuts := state.signOuts ++ [.revokeAccess] } else none
  | .signOutGoesOn position succeeds =>
      state.signOuts[position]?.map fun stage => state.signOutGoesOn position stage succeeds
  | .answered position reply =>
      state.requests[position]?.bind fun user =>
        if reply.items.all (belongs user) then some (state.answer position reply) else none

def State.drawn (state : State User Item) : Option (List Item) :=
  if state.user.isSome && !state.retrievingCalendars then some state.calendarListArray else none

end Component

/-! ## What is under way -/

section UnderWay
variable {User Item : Type} {platform : Platform} {belongs : User → Item → Bool} {state next : State User Item}

structure UnderWay (platform : Platform) (state : State User Item) : Prop where
  signIn : state.signingIn = true → state.signIns ≠ []
  android : platform = .android → state.requests = [] ∧ state.calendarListArray = [] ∧
    (state.user.isSome → state.mount = .userRead ∨ state.retrievingCalendars = true)

theorem UnderWay.getCalendars (underWay : UnderWay platform state) (user : User) :
    UnderWay platform (state.getCalendarsFromGoogle platform user) := by
  unfold State.getCalendarsFromGoogle
  cases platform with
  | ios => exact ⟨underWay.signIn, nofun⟩
  | android =>
    obtain ⟨requests, list, _⟩ := underWay.android rfl
    exact ⟨underWay.signIn, fun _ => ⟨requests, list, fun _ => .inr rfl⟩⟩

theorem UnderWay.mountGoesOn (underWay : UnderWay platform state) :
    UnderWay platform (state.mountGoesOn platform) := by
  unfold State.mountGoesOn
  cases state.user with
  | none =>
    refine ⟨underWay.signIn, ?_⟩
    intro android
    obtain ⟨requests, list, _⟩ := underWay.android android
    exact ⟨requests, list, nofun⟩
  | some user =>
    have asked := underWay.getCalendars user
    cases platform with
    | ios => exact ⟨asked.signIn, nofun⟩
    | android =>
      obtain ⟨requests, list, _⟩ := underWay.android rfl
      exact ⟨underWay.signIn, fun _ => ⟨requests, list, fun _ => .inr rfl⟩⟩

theorem UnderWay.signedIn (underWay : UnderWay platform state) (others : List (SignIn User)) (data : User) (uid : String) :
    UnderWay platform ({ state with signIns := others }.signedIn platform data uid) := by
  unfold State.signedIn State.getCalendarsFromGoogle
  cases platform with
  | ios => exact ⟨nofun, nofun⟩
  | android =>
    obtain ⟨requests, list, _⟩ := underWay.android rfl
    exact ⟨nofun, fun _ => ⟨requests, list, fun _ => .inr rfl⟩⟩

theorem UnderWay.signOutGoesOn (underWay : UnderWay platform state) (position : ℕ) (stage : SignOut) (succeeds : Bool) :
    UnderWay platform (state.signOutGoesOn position stage succeeds) := by
  cases succeeds with
  | false => exact ⟨underWay.signIn, underWay.android⟩
  | true =>
    cases stage with
    | revokeAccess => exact ⟨underWay.signIn, underWay.android⟩
    | google => exact ⟨underWay.signIn, underWay.android⟩
    | firebase =>
      refine ⟨underWay.signIn, ?_⟩
      exact fun android => ⟨(underWay.android android).1, rfl, nofun⟩

theorem UnderWay.ios_of_sent (underWay : UnderWay platform state) {position : ℕ} {user : User}
    (sent : state.requests[position]? = some user) : platform = .ios := by
  cases platform with
  | ios => rfl
  | android =>
    rw [(underWay.android rfl).1] at sent
    cases sent

theorem UnderWay.answer (underWay : UnderWay platform state) {position : ℕ} {user : User}
    (sent : state.requests[position]? = some user) (reply : Reply Item) :
    UnderWay platform (state.answer position reply) := by
  cases underWay.ios_of_sent sent
  unfold State.answer
  cases reply with
  | failed => exact ⟨underWay.signIn, nofun⟩
  | unreadable => exact ⟨underWay.signIn, nofun⟩
  | list items => exact ⟨underWay.signIn, nofun⟩

end UnderWay

/-! ## The spinner -/

section Spinner
variable {User Item : Type} {platform : Platform} {belongs : User → Item → Bool} {state next : State User Item}

end Spinner

def DrawsOwn {User Item : Type} (belongs : User → Item → Bool) (state : State User Item) : Prop :=
  ∀ user ∈ state.user, ∀ items ∈ state.drawn, ∀ item ∈ items, belongs user item = true

/-- A list arrives for the user, an error finds the list of the user, and no user is
read over the list of another. -/
def ForUser {User Item : Type} (belongs : User → Item → Bool) (state : State User Item) : Action User Item → Prop
  | .answered position (.list items) => ∀ user ∈ state.user, state.requests[position]? = some user ∨
      ∀ item ∈ items, belongs user item = true
  | .answered _ .failed => ∀ user ∈ state.user, ∀ item ∈ state.calendarListArray, belongs user item = true
  | .currentUser (some user) => state.retrievingCalendars = false →
      ∀ item ∈ state.calendarListArray, belongs user item = true
  | _ => True

section DrawsOwn
variable {User Item : Type} {platform : Platform} {belongs : User → Item → Bool} {state next : State User Item}

theorem drawsOwn_iff : DrawsOwn belongs state ↔ ∀ user ∈ state.user, state.retrievingCalendars = false →
    ∀ item ∈ state.calendarListArray, belongs user item = true := by
  unfold DrawsOwn State.drawn
  apply forall₂_congr
  intro user known
  have present : state.user.isSome = true := Option.isSome_of_mem known
  cases retrieving : state.retrievingCalendars with
  | true => simp [present]
  | false => simp [present]

theorem drawsOwn_of_retrieving (retrieving : state.retrievingCalendars = true) : DrawsOwn belongs state :=
  drawsOwn_iff.mpr fun _ _ drawn => absurd (drawn.symm.trans retrieving) Bool.false_ne_true

theorem drawsOwn_of_signedOut (signedOut : state.user = none) : DrawsOwn belongs state := by
  intro user known
  rw [signedOut] at known
  cases known

theorem DrawsOwn.of_same (own : DrawsOwn belongs state) (user : next.user = state.user)
    (retrieving : next.retrievingCalendars = state.retrievingCalendars)
    (list : next.calendarListArray = state.calendarListArray) : DrawsOwn belongs next := by
  rw [drawsOwn_iff, user, retrieving, list]
  exact drawsOwn_iff.mp own

@[simp] theorem getCalendars_retrieving (user : User) :
    (state.getCalendarsFromGoogle platform user).retrievingCalendars = true := by
  cases platform with
  | ios => rfl
  | android => rfl

theorem drawsOwn_mountGoesOn : DrawsOwn belongs (state.mountGoesOn platform) := by
  unfold State.mountGoesOn
  cases state.user with
  | none => exact drawsOwn_of_signedOut rfl
  | some user =>
    cases platform with
    | ios => exact drawsOwn_of_retrieving rfl
    | android => exact drawsOwn_of_retrieving rfl

theorem DrawsOwn.signOutGoesOn (own : DrawsOwn belongs state) (position : ℕ) (stage : SignOut) (succeeds : Bool) :
    DrawsOwn belongs (state.signOutGoesOn position stage succeeds) := by
  cases succeeds with
  | false => exact own.of_same rfl rfl rfl
  | true =>
    cases stage with
    | revokeAccess => exact own.of_same rfl rfl rfl
    | google => exact own.of_same rfl rfl rfl
    | firebase => exact drawsOwn_of_signedOut rfl

theorem answer_drawsOwn_iff (own : DrawsOwn belongs state) {position : ℕ} {owner : User}
    (sent : state.requests[position]? = some owner) {reply : Reply Item}
    (held : reply.items.all (belongs owner) = true) :
    DrawsOwn belongs (state.answer position reply) ↔ ForUser belongs state (.answered position reply) := by
  cases reply with
  | failed =>
    rw [drawsOwn_iff]
    exact forall₂_congr fun user _ => forall_prop_of_true rfl
  | unreadable => exact iff_of_true (own.of_same rfl rfl rfl) trivial
  | list items =>
    rw [drawsOwn_iff]
    simp only [State.answer, ForUser, sent, Option.some.injEq, forall_const]
    apply forall₂_congr
    intro user _
    constructor
    · exact .inr
    · intro reason
      obtain rfl | own := reason
      · exact List.all_eq_true.mp held
      · exact own

theorem drawsOwn_step_iff (own : DrawsOwn belongs state) {action : Action User Item}
    (moved : step platform belongs state action = some next) : DrawsOwn belongs next ↔ ForUser belongs state action := by
  cases action with
  | configured =>
    obtain ⟨_, same⟩ := Option.ite_none_right_eq_some.mp moved
    cases same
    exact iff_of_true (own.of_same rfl rfl rfl) trivial
  | currentUser user =>
    obtain ⟨_, same⟩ := Option.ite_none_right_eq_some.mp moved
    cases same
    cases user with
    | none => exact iff_of_true (drawsOwn_of_signedOut rfl) trivial
    | some user =>
      rw [drawsOwn_iff]
      simp [ForUser]
  | mountGoesOn =>
    obtain ⟨_, same⟩ := Option.ite_none_right_eq_some.mp moved
    cases same
    exact iff_of_true drawsOwn_mountGoesOn trivial
  | registered =>
    obtain ⟨_, same⟩ := Option.ite_none_right_eq_some.mp moved
    cases same
    exact iff_of_true (own.of_same rfl rfl rfl) trivial
  | authStateChanged user =>
    obtain ⟨_, same⟩ := Option.ite_none_right_eq_some.mp moved
    cases same
    exact iff_of_true (own.of_same rfl rfl rfl) trivial
  | pressSignIn =>
    obtain ⟨_, same⟩ := Option.ite_none_right_eq_some.mp moved
    cases same
    exact iff_of_true (own.of_same rfl rfl rfl) trivial
  | googleSignedIn position data =>
    apply iff_of_true _ trivial
    simp only [step] at moved
    split at moved
    next =>
      cases moved
      exact own.of_same rfl rfl rfl
    next =>
      cases moved
      exact own.of_same rfl rfl rfl
    next => cases moved
  | firebaseSignedIn position uid =>
    apply iff_of_true _ trivial
    simp only [step] at moved
    split at moved
    next =>
      cases moved
      exact drawsOwn_of_retrieving (getCalendars_retrieving _)
    next =>
      cases moved
      exact own.of_same rfl rfl rfl
    next => cases moved
  | pressSignOut =>
    obtain ⟨_, same⟩ := Option.ite_none_right_eq_some.mp moved
    cases same
    exact iff_of_true (own.of_same rfl rfl rfl) trivial
  | signOutGoesOn position succeeds =>
    obtain ⟨stage, _, rfl⟩ := Option.map_eq_some_iff.mp moved
    exact iff_of_true (own.signOutGoesOn position stage succeeds) trivial
  | answered position reply =>
    obtain ⟨owner, sent, answered⟩ := Option.bind_eq_some_iff.mp moved
    obtain ⟨held, same⟩ := Option.ite_none_right_eq_some.mp answered
    cases same
    exact answer_drawsOwn_iff own sent held

end DrawsOwn

/-- In every run the calendars that are drawn are those of the user exactly if every
list that arrives was asked for by the user there is then, or is also the user's, no
error brings back the list of another, and no user is read over it. -/
theorem drawsOwn_iff_forUser {User Item : Type} (platform : Platform) (belongs : User → Item → Bool)
    (actions : List (Action User Item)) :
    Always (step platform belongs) (DrawsOwn belongs) .initial actions ↔
      Guarded (step platform belongs) (ForUser belongs) .initial actions := by
  apply always_iff_guarded_of_lawful
  case decided => exact fun _ _ _ own moved => drawsOwn_step_iff own moved
  case lawful => exact drawsOwn_of_signedOut rfl

end PlenR.Screens.GoogleLogin
