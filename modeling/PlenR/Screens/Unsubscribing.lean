import PlenR.Foundation.Registrations
import PlenR.Foundation.Run

/-! What four screens remove when they are unmounted.

`AddInvitees` keeps one handle for the listeners of all keystrokes, `Profile` an
array that lacks the events listeners, `PendingEvents` one handle for its user
and one for the documents of whichever user came last, and `GoogleLogin` a handle
it gets at the end of an asynchronous mount. A handler fails by calling a handle
that is still null, or by reading the id of no user.
-/

set_option autoImplicit false

namespace PlenR.Screens.Unsubscribing

open Foundation Foundation.Run

inductive Kind where
  | auth
  | users
  | calendars
  | events
  | pendingEvents
  deriving DecidableEq

/-! ## AddInvitees -/

namespace AddInvitees

abbrev State := Component Kind (Option ℕ)

def initial : State where
  registry := .empty
  handles := none
  mounted := true
  failed := false

inductive Action where
  | keystroke
  | usersSnapshot
  | unmount

def step (state : State) : Action → Option State
  | .keystroke =>
      -- the handle of the listener before is overwritten
      if state.mounted then
        some { state with registry := state.registry.register .users, handles := some state.registry.issued }
      else none
  | .usersSnapshot => if state.registry.delivers .users then some state else none
  | .unmount =>
      if state.mounted then
        some { state with registry := state.registry.unsubscribeAll state.handles.toList, mounted := false }
      else none

def OnceAtMost (state : State) : Action → Prop
  | .unmount => state.registry.issued ≤ 1
  | _ => True

structure Kept (state : State) : Prop where
  complete : state.mounted = true → state.registry.Complete
  last : state.handles = (List.range state.registry.issued).getLast?

theorem kept_step {state next : State} (kept : Kept state) {action : Action} (moved : step state action = some next) :
    Kept next := by
  cases action with
  | keystroke =>
    obtain ⟨mounted, same⟩ := Option.ite_none_right_eq_some.mp moved
    cases same
    constructor
    case complete => exact fun _ => (kept.complete mounted).register .users
    case last => simp [Registry.register, List.range_succ]
  | usersSnapshot =>
    obtain ⟨_, same⟩ := Option.ite_none_right_eq_some.mp moved
    cases same
    exact kept
  | unmount =>
    obtain ⟨_, same⟩ := Option.ite_none_right_eq_some.mp moved
    cases same
    constructor
    case complete =>
      intro present
      cases present
    case last => simpa using kept.last

/-- The last handle alone is enough exactly if it is the only one. -/
theorem last_covers_iff (issued : ℕ) :
    (∀ handle < issued, handle ∈ (List.range issued).getLast?.toList) ↔ issued ≤ 1 := by
  cases issued with
  | zero => simp
  | succ before =>
    simp only [List.range_succ, List.getLast?_append, List.getLast?_singleton, Option.some_or, Option.toList_some,
      List.mem_singleton]
    constructor
    · intro covers
      have first := covers 0 (by omega)
      omega
    · intro single handle inside
      omega

theorem cleanedUp_step_iff {state next : State} (kept : Kept state) (cleaned : CleanedUp state) {action : Action}
    (moved : step state action = some next) : CleanedUp next ↔ OnceAtMost state action := by
  cases action with
  | keystroke =>
    obtain ⟨mounted, same⟩ := Option.ite_none_right_eq_some.mp moved
    cases same
    exact iff_of_true (.of_mounted cleaned.1 mounted) trivial
  | usersSnapshot =>
    obtain ⟨_, same⟩ := Option.ite_none_right_eq_some.mp moved
    cases same
    exact iff_of_true cleaned trivial
  | unmount =>
    obtain ⟨mounted, same⟩ := Option.ite_none_right_eq_some.mp moved
    cases same
    simp only [cleanedUp_unmounted_iff, cleaned.1, true_and, (kept.complete mounted).cleared_iff, kept.last]
    exact last_covers_iff state.registry.issued

end AddInvitees

/-! ## Profile -/

namespace Profile

abbrev State := Component Kind (List ℕ)

def initial : State where
  registry := Registry.empty.register .auth
  handles := [0]
  mounted := true
  failed := false

inductive Action where
  | authStateChanged (user : Option String)
  | calendarsSnapshot (count : ℕ)
  | eventsSnapshot
  | unmount

def step (state : State) : Action → Option State
  | .authStateChanged user =>
      if state.registry.delivers .auth then
        match user with
        | some _ => some { state with
            registry := state.registry.register .calendars
            handles := state.handles ++ [state.registry.issued] }
        | none => some state
      else none
  | .calendarsSnapshot count =>
      -- one events listener for each calendar, whose handle nobody keeps
      if state.registry.delivers .calendars then
        some { state with registry := state.registry.registerMany .events count }
      else none
  | .eventsSnapshot => if state.registry.delivers .events then some state else none
  | .unmount =>
      if state.mounted then
        some { state with registry := state.registry.unsubscribeAll state.handles, mounted := false }
      else none

def NoEvents (state : State) : Action → Prop
  | .unmount => ∀ entry ∈ state.registry.live, entry.2 ≠ .events
  | _ => True

structure Kept (state : State) : Prop where
  bounded : state.registry.Bounded
  issued : ∀ handle ∈ state.handles, handle < state.registry.issued
  stored : ∀ entry ∈ state.registry.live, entry.1 ∈ state.handles ↔ entry.2 ≠ .events

theorem kept_auth {state : State} (kept : Kept state) :
    Kept { state with
      registry := state.registry.register .calendars
      handles := state.handles ++ [state.registry.issued] } := by
  constructor
  case bounded => exact kept.bounded.register .calendars
  case issued =>
    intro handle member
    cases List.mem_append.mp member with
    | inl old => exact Nat.lt_succ_of_lt (kept.issued handle old)
    | inr new =>
      rw [List.mem_singleton.mp new]
      exact Nat.lt_succ_self _
  case stored =>
    intro entry member
    cases List.mem_append.mp member with
    | inl old =>
      have elsewhere : entry.1 ≠ state.registry.issued := Nat.ne_of_lt (kept.bounded entry old)
      simp only [List.mem_append, List.mem_singleton, elsewhere, or_false]
      exact kept.stored entry old
    | inr new =>
      rw [List.mem_singleton.mp new]
      simp

theorem kept_events {state : State} (kept : Kept state) (count : ℕ) :
    Kept { state with registry := state.registry.registerMany .events count } := by
  constructor
  case bounded => exact kept.bounded.registerMany .events count
  case issued =>
    intro handle member
    rw [Registry.issued_registerMany]
    exact Nat.lt_add_right count (kept.issued handle member)
  case stored =>
    intro entry member
    obtain old | ⟨events, later⟩ := Registry.live_registerMany .events count entry member
    · exact kept.stored entry old
    · -- a handle issued now was not stored before
      have absent : entry.1 ∉ state.handles := fun stored => absurd (kept.issued entry.1 stored) (by omega)
      simp [absent, events]

theorem kept_step {state next : State} (kept : Kept state) {action : Action} (moved : step state action = some next) :
    Kept next := by
  cases action with
  | authStateChanged user =>
    obtain ⟨_, same⟩ := Option.ite_none_right_eq_some.mp moved
    cases user with
    | none => exact Option.some.inj same ▸ kept
    | some uid => exact Option.some.inj same ▸ kept_auth kept
  | calendarsSnapshot count =>
    obtain ⟨_, same⟩ := Option.ite_none_right_eq_some.mp moved
    exact Option.some.inj same ▸ kept_events kept count
  | eventsSnapshot =>
    obtain ⟨_, same⟩ := Option.ite_none_right_eq_some.mp moved
    exact Option.some.inj same ▸ kept
  | unmount =>
    obtain ⟨_, same⟩ := Option.ite_none_right_eq_some.mp moved
    cases same
    constructor
    case bounded => exact kept.bounded.unsubscribeAll state.handles
    case issued => simpa using kept.issued
    case stored =>
      intro entry member
      rw [Registry.live_unsubscribeAll] at member
      exact kept.stored entry (List.mem_filter.mp member).1

theorem cleanedUp_step_iff {state next : State} (kept : Kept state) (cleaned : CleanedUp state) {action : Action}
    (moved : step state action = some next) : CleanedUp next ↔ NoEvents state action := by
  cases action with
  | authStateChanged user =>
    obtain ⟨delivers, same⟩ := Option.ite_none_right_eq_some.mp moved
    cases user with
    | none => exact Option.some.inj same ▸ iff_of_true cleaned trivial
    | some uid =>
      cases same
      exact iff_of_true (.of_mounted cleaned.1 (cleaned.mounted_of_delivers delivers)) trivial
  | calendarsSnapshot count =>
    obtain ⟨delivers, same⟩ := Option.ite_none_right_eq_some.mp moved
    cases same
    exact iff_of_true (.of_mounted cleaned.1 (cleaned.mounted_of_delivers delivers)) trivial
  | eventsSnapshot =>
    obtain ⟨_, same⟩ := Option.ite_none_right_eq_some.mp moved
    exact Option.some.inj same ▸ iff_of_true cleaned trivial
  | unmount =>
    obtain ⟨_, same⟩ := Option.ite_none_right_eq_some.mp moved
    cases same
    simp only [cleanedUp_unmounted_iff, cleaned.1, true_and, Registry.cleared_iff_live, NoEvents]
    exact forall₂_congr kept.stored

end Profile

/-! ## PendingEvents -/

namespace PendingEvents

structure Handles where
  unsubscribe : ℕ
  unsubscribe_pending_events : Option ℕ

abbrev State := Component Kind Handles

def initial : State where
  registry := Registry.empty.register .auth
  handles := { unsubscribe := 0, unsubscribe_pending_events := none }
  mounted := true
  failed := false

inductive Action where
  | authStateChanged (user : Option String)
  | pendingSnapshot
  | unmount

def step (state : State) : Action → Option State
  | .authStateChanged user =>
      if state.registry.delivers .auth then
        match user with
        | some _ => some { state with
            registry := state.registry.register .pendingEvents
            handles := { state.handles with unsubscribe_pending_events := some state.registry.issued } }
        -- reading `user.uid` fails
        | none => some { state with failed := true }
      else none
  | .pendingSnapshot => if state.registry.delivers .pendingEvents then some state else none
  | .unmount =>
      if state.mounted then
        match state.handles.unsubscribe_pending_events with
        -- the first handle has been called when the second is found null
        | none => some { state with
            registry := state.registry.unsubscribeAll [state.handles.unsubscribe]
            mounted := false
            failed := true }
        | some handle => some { state with
            registry := state.registry.unsubscribeAll [state.handles.unsubscribe, handle]
            mounted := false }
      else none

/-- Every auth callback brings a user, and there has been exactly one when the screen is unmounted. -/
def OneUser (state : State) : Action → Prop
  | .authStateChanged user => user.isSome
  | .pendingSnapshot => True
  | .unmount => state.registry.issued = 2

structure Kept (state : State) : Prop where
  complete : state.mounted = true → state.registry.Complete
  auth : state.handles.unsubscribe = 0
  issued : 0 < state.registry.issued
  pending : state.handles.unsubscribe_pending_events =
    if state.registry.issued = 1 then none else some (state.registry.issued - 1)

theorem kept_step {state next : State} (kept : Kept state) {action : Action} (moved : step state action = some next) :
    Kept next := by
  obtain ⟨complete, auth, issued, pending⟩ := kept
  cases action with
  | authStateChanged user =>
    obtain ⟨_, same⟩ := Option.ite_none_right_eq_some.mp moved
    cases user with
    | none => exact Option.some.inj same ▸ ⟨complete, auth, issued, pending⟩
    | some uid =>
      cases same
      constructor
      case complete => exact fun mounted => (complete mounted).register .pendingEvents
      case auth => exact auth
      case issued => exact Nat.succ_pos _
      case pending =>
        have before : state.registry.issued ≠ 0 := by omega
        simp [Registry.register, before]
  | pendingSnapshot =>
    obtain ⟨_, same⟩ := Option.ite_none_right_eq_some.mp moved
    exact Option.some.inj same ▸ ⟨complete, auth, issued, pending⟩
  | unmount =>
    obtain ⟨_, same⟩ := Option.ite_none_right_eq_some.mp moved
    cases stored : state.handles.unsubscribe_pending_events with
    | none =>
      rw [stored] at same pending
      cases same
      constructor
      case complete =>
        intro present
        cases present
      case auth => exact auth
      case issued => simpa using issued
      case pending => simpa [stored] using pending
    | some handle =>
      rw [stored] at same pending
      cases same
      constructor
      case complete =>
        intro present
        cases present
      case auth => exact auth
      case issued => simpa using issued
      case pending => simpa [stored] using pending

theorem two_cover_iff {issued : ℕ} (more : 1 < issued) :
    (∀ handle < issued, handle ∈ [0, issued - 1]) ↔ issued = 2 := by
  simp only [List.mem_cons, List.not_mem_nil, or_false]
  constructor
  · intro covers
    have second := covers 1 more
    omega
  · intro two handle inside
    omega

theorem cleanedUp_step_iff {state next : State} (kept : Kept state) (cleaned : CleanedUp state) {action : Action}
    (moved : step state action = some next) : CleanedUp next ↔ OneUser state action := by
  cases action with
  | authStateChanged user =>
    obtain ⟨delivers, same⟩ := Option.ite_none_right_eq_some.mp moved
    cases user with
    | none =>
      cases same
      exact iff_of_false (fun after => nomatch after.1) nofun
    | some uid =>
      cases same
      exact iff_of_true (.of_mounted cleaned.1 (cleaned.mounted_of_delivers delivers)) rfl
  | pendingSnapshot =>
    obtain ⟨_, same⟩ := Option.ite_none_right_eq_some.mp moved
    exact Option.some.inj same ▸ iff_of_true cleaned trivial
  | unmount =>
    obtain ⟨mounted, same⟩ := Option.ite_none_right_eq_some.mp moved
    have pending := kept.pending
    have issued := kept.issued
    by_cases single : state.registry.issued = 1
    · rw [if_pos single] at pending
      rw [pending] at same
      cases same
      exact iff_of_false (fun after => nomatch after.1) (by simp [OneUser, single])
    · rw [if_neg single] at pending
      rw [pending] at same
      cases same
      simp only [cleanedUp_unmounted_iff, cleaned.1, true_and, (kept.complete mounted).cleared_iff, kept.auth]
      exact two_cover_iff (by omega)

end PendingEvents

/-! ## GoogleLogin -/

namespace GoogleLogin

structure Handles where
  unsubscribe : Option ℕ
  /-- The handle that `componentDidMount` awaits. -/
  awaited : Option ℕ

abbrev State := Component Kind Handles

/-- `componentDidMount` runs up to its first `await`. -/
def initial : State where
  registry := .empty
  handles := { unsubscribe := none, awaited := none }
  mounted := true
  failed := false

inductive Action where
  | mountRegisters
  | mountStores
  | authStateChanged (user : Option String)
  | unmount

def step (state : State) : Action → Option State
  -- the mount goes on whether or not the screen is still there
  | .mountRegisters =>
      if state.registry.issued = 0 then
        some { state with
          registry := state.registry.register .auth
          handles := { state.handles with awaited := some state.registry.issued } }
      else none
  | .mountStores =>
      state.handles.awaited.map fun handle =>
        { state with handles := { unsubscribe := some handle, awaited := none } }
  | .authStateChanged _ => if state.registry.delivers .auth then some state else none
  | .unmount =>
      if state.mounted then
        match state.handles.unsubscribe with
        | none => some { state with mounted := false, failed := true }
        | some handle => some { state with registry := state.registry.unsubscribeAll [handle], mounted := false }
      else none

def MountEnded (state : State) : Action → Prop
  | .unmount => state.handles.unsubscribe.isSome
  | _ => True

/-- The mount has not registered yet, waits for the handle of the one listener, or has stored it. -/
inductive Phase : ℕ → Handles → Prop where
  | early : Phase 0 ⟨none, none⟩
  | waiting : Phase 1 ⟨none, some 0⟩
  | ended : Phase 1 ⟨some 0, none⟩

structure Kept (state : State) : Prop where
  phase : Phase state.registry.issued state.handles
  complete : state.mounted = true → state.registry.Complete
  stored : state.mounted = false → state.failed = false → state.handles.unsubscribe.isSome

theorem kept_step {state next : State} (kept : Kept state) {action : Action} (moved : step state action = some next) :
    Kept next := by
  obtain ⟨⟨issued, live⟩, handles, mounted, failed⟩ := state
  obtain ⟨phase, complete, stored⟩ := kept
  cases action with
  | mountRegisters =>
    obtain ⟨first, same⟩ := Option.ite_none_right_eq_some.mp moved
    cases same
    cases phase with
    | early => exact ⟨.waiting, fun present => (complete present).register .auth, stored⟩
    | waiting => cases first
    | ended => cases first
  | mountStores =>
    obtain ⟨handle, awaited, rfl⟩ := Option.map_eq_some_iff.mp moved
    cases phase with
    | early => cases awaited
    | waiting =>
      cases awaited
      exact ⟨.ended, complete, fun _ _ => rfl⟩
    | ended => cases awaited
  | authStateChanged user =>
    obtain ⟨_, same⟩ := Option.ite_none_right_eq_some.mp moved
    exact Option.some.inj same ▸ ⟨phase, complete, stored⟩
  | unmount =>
    obtain ⟨_, same⟩ := Option.ite_none_right_eq_some.mp moved
    cases phase with
    | early =>
      cases same
      exact ⟨.early, nofun, nofun⟩
    | waiting =>
      cases same
      exact ⟨.waiting, nofun, nofun⟩
    | ended =>
      cases same
      exact ⟨.ended, nofun, fun _ _ => rfl⟩

theorem cleanedUp_step_iff {state next : State} (kept : Kept state) (cleaned : CleanedUp state) {action : Action}
    (moved : step state action = some next) : CleanedUp next ↔ MountEnded state action := by
  obtain ⟨⟨issued, live⟩, handles, mounted, failed⟩ := state
  obtain ⟨phase, complete, stored⟩ := kept
  cases action with
  | mountRegisters =>
    obtain ⟨first, same⟩ := Option.ite_none_right_eq_some.mp moved
    cases same
    apply iff_of_true _ trivial
    cases mounted with
    | true => exact .of_mounted cleaned.1 rfl
    | false =>
      -- an unmount that did not fail found the handle, so the mount had registered before
      have ended := stored rfl cleaned.1
      cases phase with
      | early => cases ended
      | waiting => cases first
      | ended => cases first
  | mountStores =>
    obtain ⟨handle, _, rfl⟩ := Option.map_eq_some_iff.mp moved
    exact iff_of_true cleaned trivial
  | authStateChanged user =>
    obtain ⟨_, same⟩ := Option.ite_none_right_eq_some.mp moved
    exact Option.some.inj same ▸ iff_of_true cleaned trivial
  | unmount =>
    obtain ⟨present, same⟩ := Option.ite_none_right_eq_some.mp moved
    cases phase with
    | early =>
      cases same
      exact iff_of_false (fun after => nomatch after.1) nofun
    | waiting =>
      cases same
      exact iff_of_false (fun after => nomatch after.1) nofun
    | ended =>
      cases same
      rw [cleanedUp_unmounted_iff, (complete present).cleared_iff]
      apply iff_of_true _ rfl
      refine ⟨cleaned.1, ?_⟩
      intro handle inside
      exact List.mem_singleton.mpr (Nat.lt_one_iff.mp inside)

end GoogleLogin

/-- In every run of the four screens no handler fails and nothing is left registered
exactly if `AddInvitees` is unmounted after at most one change of the text, `Profile`
before any calendar is reported, `PendingEvents` after one auth callback, all of
which bring a user, and `GoogleLogin` after its mount has ended. -/
theorem cleanedUp_iff (typed : List AddInvitees.Action) (visited : List Profile.Action)
    (pending : List PendingEvents.Action) (login : List GoogleLogin.Action) :
    (Always AddInvitees.step CleanedUp AddInvitees.initial typed ↔
        Guarded AddInvitees.step AddInvitees.OnceAtMost AddInvitees.initial typed) ∧
      (Always Profile.step CleanedUp Profile.initial visited ↔
        Guarded Profile.step Profile.NoEvents Profile.initial visited) ∧
      (Always PendingEvents.step CleanedUp PendingEvents.initial pending ↔
        Guarded PendingEvents.step PendingEvents.OneUser PendingEvents.initial pending) ∧
      (Always GoogleLogin.step CleanedUp GoogleLogin.initial login ↔
        Guarded GoogleLogin.step GoogleLogin.MountEnded GoogleLogin.initial login) := by
  refine ⟨?_, ?_, ?_, ?_⟩
  · apply always_iff_guarded_of_step_iff AddInvitees.Kept
    case kept => exact fun state action next kept moved => AddInvitees.kept_step kept moved
    case decided => exact fun state action next kept cleaned moved => AddInvitees.cleanedUp_step_iff kept cleaned moved
    case start => exact ⟨fun _ => Registry.complete_empty, rfl⟩
    case lawful => exact .of_mounted rfl rfl
  · apply always_iff_guarded_of_step_iff Profile.Kept
    case kept => exact fun state action next kept moved => Profile.kept_step kept moved
    case decided => exact fun state action next kept cleaned moved => Profile.cleanedUp_step_iff kept cleaned moved
    case start => exact ⟨Registry.bounded_empty.register Kind.auth, by decide, by decide⟩
    case lawful => exact .of_mounted rfl rfl
  · apply always_iff_guarded_of_step_iff PendingEvents.Kept
    case kept => exact fun state action next kept moved => PendingEvents.kept_step kept moved
    case decided =>
      exact fun state action next kept cleaned moved => PendingEvents.cleanedUp_step_iff kept cleaned moved
    case start => exact ⟨fun _ => Registry.complete_empty.register Kind.auth, rfl, Nat.one_pos, rfl⟩
    case lawful => exact .of_mounted rfl rfl
  · apply always_iff_guarded_of_step_iff GoogleLogin.Kept
    case kept => exact fun state action next kept moved => GoogleLogin.kept_step kept moved
    case decided => exact fun state action next kept cleaned moved => GoogleLogin.cleanedUp_step_iff kept cleaned moved
    case start => exact ⟨.early, fun _ => Registry.complete_empty, nofun⟩
    case lawful => exact .of_mounted rfl rfl

/-- Two letters are typed in `AddInvitees`, `Profile` shows a calendar, the user of
`PendingEvents` signs out, and `GoogleLogin` is left during its mount. -/
theorem not_cleanedUp :
    ¬ Always AddInvitees.step CleanedUp AddInvitees.initial [.keystroke, .keystroke, .unmount] ∧
      ¬ Always Profile.step CleanedUp Profile.initial
        [.authStateChanged (some "ann"), .calendarsSnapshot 1, .unmount] ∧
      ¬ Always PendingEvents.step CleanedUp PendingEvents.initial
        [.authStateChanged (some "ann"), .authStateChanged none] ∧
      ¬ Always GoogleLogin.step CleanedUp GoogleLogin.initial [.unmount] := by
  refine ⟨?_, ?_, ?_, ?_⟩
  · intro always
    have nothing := (((always.2 _ rfl).2 _ rfl).2 _ rfl).2 rfl
    cases nothing
  · intro always
    have nothing := (((always.2 _ rfl).2 _ rfl).2 _ rfl).2 rfl
    cases nothing
  · intro always
    have succeeded := ((always.2 _ rfl).2 _ rfl).1
    cases succeeded
  · intro always
    have succeeded := (always.2 _ rfl).1
    cases succeeded

end PlenR.Screens.Unsubscribing
