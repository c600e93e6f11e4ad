import PlenR.Foundation.Run
import PlenR.Screens.EditEvent

/-! Edit sessions from one `EventDetails` screen.

The screen keeps the edited event in its state, but opens every form with the
event it was itself opened with. A session is right exactly if the fields it
leaves untouched are still those of the opened event, and the event has no
recurrence, which `clone` does not copy.
-/

set_option autoImplicit false

namespace PlenR.Screens.EditSessions

open PlenR.Time PlenR.Util Foundation.Run EditEvent

/-- `EventDetails`, with the last event handed to `onAddEvent` and the one that
should have been handed; both are the opened event at first. -/
structure Details where
  props : Event
  event : Event
  handed : Event
  expected : Event

def Details.initial (event : Event) : Details where
  props := event
  event := event
  handed := event
  expected := event

/-! ## The fields a session changes -/

structure Touched where
  title : Bool
  location : Bool
  start : Bool
  end_ : Bool
  notes : Bool

def Touched.none : Touched where
  title := false
  location := false
  start := false
  end_ := false
  notes := false

def Touched.touch (touched : Touched) (form : State) : Change → Touched
  | .title _ => { touched with title := true }
  | .location _ => { touched with location := true }
  | .notes _ => { touched with notes := true }
  -- the picker of the start moves the end only when it has to
  | .start newDate => { touched with start := true, end_ := touched.end_ || newDate > form.end_ }
  | .end_ _ => { touched with end_ := true }

def editing (clock : Clock) (event : Event) (changes : List Change) : State × Touched :=
  changes.foldl (fun (form, touched) change => (form.change clock change, touched.touch form change))
    (.initial event, .none)

def Touched.replace (touched : Touched) (form : State) (saved : Event) : Event :=
  { saved with
    title := if touched.title then form.title else saved.title
    location := if touched.location then form.location else saved.location
    start := if touched.start then form.start else saved.start
    end_ := if touched.end_ then form.end_ else saved.end_
    notes := if touched.notes then form.notes else saved.notes }

/-- A session from `edit` to `done`; imported events cannot be edited. -/
def session (clock : Clock) (details : Details) (changes : List Change) : Option Details :=
  if details.event.isImported then none
  else
    -- the form is opened with the event of the props, not with the one displayed
    let (form, touched) := editing clock details.props changes
    (form.done details.props).map fun handed =>
      { details with
        event := handed
        handed := handed
        expected := touched.replace form details.handed }

/-- The event handed over is the one saved before with only the changed fields
replaced, and the screen displays it. -/
def NoUpdateLost (details : Details) : Prop := details.handed = details.expected ∧ details.event = details.handed

/-- Every field the session leaves alone has in the displayed event the value it
had when the screen was opened. -/
def UntouchedAgree (touched : Touched) (props event : Event) : Prop :=
  (touched.title = false → props.title = event.title) ∧
    (touched.location = false → props.location = event.location) ∧
    (touched.start = false → props.start = event.start) ∧
    (touched.end_ = false → props.end_ = event.end_) ∧
    (touched.notes = false → props.notes = event.notes) ∧
    event.recurrence = none

def Composes (clock : Clock) (details : Details) (changes : List Change) : Prop :=
  UntouchedAgree (editing clock details.props changes).2 details.props details.event

/-! ## One session -/

section Session
variable {clock : Clock}

structure Follows (event : Event) (form : State) (touched : Touched) : Prop where
  title : if touched.title then form.title.isSome else form.title = event.title
  location : if touched.location then form.location.isSome else form.location = event.location
  start : touched.start = false → form.start = event.start
  end_ : touched.end_ = false → form.end_ = event.end_
  notes : if touched.notes then form.notes.isSome else form.notes = event.notes

theorem Follows.change {event : Event} {form : State} {touched : Touched} (follows : Follows event form touched)
    (change : Change) : Follows event (form.change clock change) (touched.touch form change) := by
  obtain ⟨title, location, start, end_, notes⟩ := follows
  cases change with
  | title text => exact ⟨rfl, location, start, end_, notes⟩
  | location text => exact ⟨title, rfl, start, end_, notes⟩
  | notes text => exact ⟨title, location, start, end_, rfl⟩
  | end_ newDate => exact ⟨title, location, start, nofun, notes⟩
  | start newDate =>
    constructor
    case title => exact title
    case location => exact location
    case start => exact nofun
    case notes => exact notes
    case end_ =>
      intro untouched
      simp only [Touched.touch, Bool.or_eq_false_iff, decide_eq_false_iff_not] at untouched
      simp only [State.change, untouched.2, if_false]
      exact end_ untouched.1

theorem foldl_follows {event : Event} (changes : List Change) {form : State} {touched : Touched}
    (follows : Follows event form touched) :
    let final := changes.foldl (fun (form, touched) change => (form.change clock change, touched.touch form change))
      (form, touched)
    Follows event final.1 final.2 := by
  induction changes generalizing form touched with
  | nil => exact follows
  | cons change changes ih => exact ih (follows.change change)

theorem editing_follows (event : Event) (changes : List Change) :
    Follows event (editing clock event changes).1 (editing clock event changes).2 :=
  foldl_follows changes ⟨rfl, rfl, fun _ => rfl, fun _ => rfl, rfl⟩

theorem text_iff {touched : Bool} {shown old saved : Option String}
    (follows : if touched then shown.isSome else shown = old) :
    (shown <|> old) = (if touched then shown else saved) ↔ (touched = false → old = saved) := by
  cases touched with
  | true =>
    obtain ⟨text, rfl⟩ := Option.isSome_iff_exists.mp follows
    exact iff_of_true rfl nofun
  | false =>
    have same : shown = old := follows
    subst same
    cases shown with
    | none => simp
    | some text => simp

theorem date_iff {touched : Bool} {shown old saved : ℤ} (follows : touched = false → shown = old) :
    shown = (if touched then shown else saved) ↔ (touched = false → old = saved) := by
  cases touched with
  | true => exact iff_of_true rfl nofun
  | false =>
    rw [follows rfl]
    simp

theorem done_eq_replace_iff {props saved handed : Event} {form : State} {touched : Touched}
    (follows : Follows props form touched) (done : form.done props = some handed)
    (kept : props.allday = saved.allday ∧ props.id = saved.id) (ownEvent : saved.isImported = false) :
    handed = touched.replace form saved ↔ UntouchedAgree touched props saved := by
  obtain ⟨_, rfl⟩ := done_cases done
  unfold UntouchedAgree
  rw [← text_iff follows.title, ← text_iff follows.location, ← date_iff follows.start, ← date_iff follows.end_,
    ← text_iff follows.notes]
  simp only [Event.edit, Event.clone, Event.new, Touched.replace, Event.mk.injEq, Option.getD_some, Option.getD_none,
    kept, ownEvent, true_and]
  constructor
  · intro ⟨title, location, start, end_, notes, recurrence⟩
    exact ⟨title, location, start, end_, notes, recurrence.symm⟩
  · intro ⟨title, location, start, end_, notes, recurrence⟩
    exact ⟨title, location, start, end_, notes, recurrence.symm⟩

structure Kept (details : Details) : Prop where
  allday : details.props.allday = details.handed.allday
  id : details.props.id = details.handed.id

theorem session_cases {details next : Details} {changes : List Change}
    (moved : session clock details changes = some next) :
    details.event.isImported = false ∧
      ∃ handed, (editing clock details.props changes).1.done details.props = some handed ∧
        next = { details with
          event := handed
          handed := handed
          expected := (editing clock details.props changes).2.replace (editing clock details.props changes).1
            details.handed } := by
  unfold session at moved
  obtain ⟨ownEvent, moved⟩ := Option.ite_none_left_eq_some.mp moved
  obtain ⟨handed, done, rfl⟩ := Option.map_eq_some_iff.mp moved
  exact ⟨Bool.eq_false_iff.mpr ownEvent, handed, done, rfl⟩

theorem session_kept {details next : Details} {changes : List Change}
    (moved : session clock details changes = some next) : Kept next := by
  obtain ⟨_, handed, done, rfl⟩ := session_cases moved
  obtain ⟨_, rfl⟩ := done_cases done
  exact ⟨rfl, rfl⟩

theorem session_right_iff {details next : Details} {changes : List Change} (kept : Kept details)
    (right : NoUpdateLost details) (moved : session clock details changes = some next) :
    NoUpdateLost next ↔ Composes clock details changes := by
  obtain ⟨ownEvent, handed, done, rfl⟩ := session_cases moved
  unfold Composes
  -- until now the displayed event is the one handed over last
  rw [right.2] at ownEvent ⊢
  rw [← done_eq_replace_iff (editing_follows details.props changes) done ⟨kept.allday, kept.id⟩ ownEvent]
  exact and_iff_left rfl

end Session

/-- In every run of sessions no update is lost exactly if each session finds the
fields it leaves alone as they were when the screen was opened. -/
theorem noUpdateLost_iff_composes (clock : Clock) (event : Event) (sessions : List (List Change)) :
    Always (session clock) NoUpdateLost (.initial event) sessions ↔
      Guarded (session clock) (Composes clock) (.initial event) sessions := by
  apply always_iff_guarded_of_step_iff Kept
  case kept => exact fun details changes next _ moved => session_kept moved
  case decided => exact fun details changes next kept right moved => session_right_iff kept right moved
  case start => exact ⟨rfl, rfl⟩
  case lawful => exact ⟨rfl, rfl⟩

/-- A new title in the first session is lost by new notes in the second. -/
theorem title_lost_by_second_session :
    ¬ Always (session universalClock) NoUpdateLost (.initial (.plain "lunch" 1532952000000 1532955600000))
      [[.title "Lunch with Bob"], [.notes "bring the tickets"]] := by
  intro always
  have lost := ((always.2 _ rfl).2 _ rfl).1
  revert lost
  decide

end PlenR.Screens.EditSessions
