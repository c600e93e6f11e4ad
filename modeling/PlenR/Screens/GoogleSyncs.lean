import PlenR.Foundation.Run
import PlenR.Screens.GoogleImport
import PlenR.Screens.TimelineSource

/-! An imported calendar under changes on Google and syncs.

Google answers a sync with items that end after a given moment. A sync sets one
document for each valid item of the answer and deletes none, so what earlier
syncs left stays whenever its id is not among those set. The stored events are
the right ones exactly if nothing is left that has not ended by then.
-/

set_option autoImplicit false

namespace PlenR.Screens.GoogleSyncs

open PlenR.Time PlenR.Util Foundation.Run GoogleImport

structure Synced where
  before : List Event
  timeMin : ℤ
  items : List Event.GoogleItem

/-- The items of the calendar on Google, the store, and the last sync, which no
code of the app keeps. -/
structure State where
  google : List Event.GoogleItem
  store : Store
  last : Option Synced

inductive Action where
  /-- An item is added, changed or moved on Google. -/
  | put (item : Event.GoogleItem)
  /-- An item is removed on Google. -/
  | remove (id : String)
  | sync (timeMin : ℤ) (summary freshId : String) (items : List Event.GoogleItem)

def start (google : List Event.GoogleItem) (store : Store) : State where
  google := google
  store := store
  last := none

section Step
variable (clock : Clock) (user id : String)

def EndsAfter (timeMin : ℤ) (item : Event.GoogleItem) : Prop :=
  ∃ ends ∈ times clock item, timeMin < ends.2.1

/-- What Google may answer: items of the calendar, none twice, and among them all that end after `timeMin`. -/
def Answers (google : List Event.GoogleItem) (timeMin : ℤ) (items : List Event.GoogleItem) : Prop :=
  (items.map Event.GoogleItem.id).Nodup ∧ (∀ item ∈ items, item ∈ google) ∧
    ∀ item ∈ google, EndsAfter clock timeMin item → item ∈ items

instance (timeMin : ℤ) (item : Event.GoogleItem) : Decidable (EndsAfter clock timeMin item) :=
  inferInstanceAs (Decidable (∃ ends ∈ times clock item, timeMin < ends.2.1))

instance (google : List Event.GoogleItem) (timeMin : ℤ) (items : List Event.GoogleItem) :
    Decidable (Answers clock google timeMin items) :=
  inferInstanceAs (Decidable (_ ∧ _ ∧ _))

def step (state : State) : Action → Option State
  | .put item => some { state with google := Store.setDoc Event.GoogleItem.id state.google item }
  | .remove id => some { state with google := state.google.filter fun item => item.id ≠ id }
  | .sync timeMin summary freshId items =>
      if Answers clock state.google timeMin items then
        some
          { google := state.google
            store := TimelineSource.sync clock state.store user id summary freshId items
            last := some { before := state.store.events user id, timeMin, items } }
      else none

def NotSet (items : List Event.GoogleItem) (stored : Event) : Prop :=
  ∀ event ∈ eventsOf clock items, stored.id ≠ event.id

/-- Stored are the events of the last answer and, of the others, those that had ended before. -/
def Mirrors (state : State) : Prop :=
  ∀ synced ∈ state.last, ∀ stored, stored ∈ state.store.events user id ↔
    stored ∈ eventsOf clock synced.items ∨
      stored ∈ synced.before ∧ NotSet clock synced.items stored ∧ stored.end_ < synced.timeMin

/-- A sync leaves nothing that was neither set nor had ended. -/
def LeavesEnded (state : State) : Action → Prop
  | .put _ => True
  | .remove _ => True
  | .sync timeMin _ _ items =>
      ∀ stored ∈ state.store.events user id, NotSet clock items stored → stored.end_ < timeMin

end Step

section Sync
variable {clock : Clock} {user id : String}

theorem mem_sync {items : List Event.GoogleItem} (distinct : (items.map Event.GoogleItem.id).Nodup) (store : Store)
    (summary freshId : String) (stored : Event) :
    stored ∈ (TimelineSource.sync clock store user id summary freshId items).events user id ↔
      stored ∈ eventsOf clock items ∨ stored ∈ store.events user id ∧ NotSet clock items stored := by
  unfold TimelineSource.sync
  rw [import_eq]
  exact mem_foldl_setEvent user id (eventsOf_distinct distinct) _ stored

theorem mem_sync_again {items : List Event.GoogleItem} (distinct : (items.map Event.GoogleItem.id).Nodup) (store : Store)
    (summary freshId freshId' : String) (stored : Event) :
    stored ∈ (TimelineSource.sync clock (TimelineSource.sync clock store user id summary freshId items) user id summary
        freshId' items).events user id ↔
      stored ∈ (TimelineSource.sync clock store user id summary freshId items).events user id := by
  rw [mem_sync distinct, mem_sync distinct]
  constructor
  · intro reason
    obtain set | ⟨before, _⟩ := reason
    · exact .inl set
    · exact before
  · intro before
    obtain set | ⟨kept, notSet⟩ := before
    · exact .inl set
    · exact .inr ⟨.inr ⟨kept, notSet⟩, notSet⟩

theorem current_stored {state next : State} {timeMin : ℤ} {summary freshId : String} {items : List Event.GoogleItem}
    (moved : step clock user id state (.sync timeMin summary freshId items) = some next) {item : Event.GoogleItem}
    (current : item ∈ state.google) (later : EndsAfter clock timeMin item) :
    ∃ event, Event.formatGoogle clock item = .ok event ∧ event ∈ next.store.events user id := by
  obtain ⟨⟨distinct, _, complete⟩, same⟩ := Option.ite_none_right_eq_some.mp moved
  cases same
  have answered := complete item current later
  obtain ⟨ends, taken, _⟩ := later
  have valid : Valid item := times_isSome_iff.mp (Option.isSome_of_mem taken)
  obtain ⟨event, formatted⟩ := formatGoogle_ok_iff.mpr valid
  refine ⟨event, formatted, (mem_sync distinct state.store summary freshId event).mpr (.inl ?_)⟩
  exact mem_eventsOf.mpr ⟨item, answered, formatted⟩

theorem step_mirrors_iff {state next : State} {action : Action} (mirrors : Mirrors clock user id state)
    (moved : step clock user id state action = some next) :
    Mirrors clock user id next ↔ LeavesEnded clock user id state action := by
  cases action with
  | put item =>
    cases moved
    exact iff_of_true mirrors trivial
  | remove id =>
    cases moved
    exact iff_of_true mirrors trivial
  | sync timeMin summary freshId items =>
    obtain ⟨⟨distinct, _⟩, same⟩ := Option.ite_none_right_eq_some.mp moved
    cases same
    constructor
    · intro after stored before notSet
      have kept := (mem_sync distinct state.store summary freshId stored).mpr (.inr ⟨before, notSet⟩)
      obtain set | ⟨_, _, ended⟩ := (after _ rfl stored).mp kept
      -- an event that was set is not among those whose id was not
      · exact absurd rfl (notSet stored set)
      · exact ended
    · intro ended synced same stored
      cases same
      rw [mem_sync distinct]
      apply or_congr_right
      constructor
      · intro ⟨before, notSet⟩
        exact ⟨before, notSet, ended stored before notSet⟩
      · intro ⟨before, notSet, _⟩
        exact ⟨before, notSet⟩

end Sync

/-- Whatever was stored at first and whatever happens on Google, the store mirrors
every answer exactly if no sync finds an event stored that has not ended and is
no valid item of the answer. -/
theorem mirrors_iff_leavesEnded (clock : Clock) (user id : String) (google : List Event.GoogleItem) (store : Store)
    (actions : List Action) :
    Always (step clock user id) (Mirrors clock user id) (start google store) actions ↔
      Guarded (step clock user id) (LeavesEnded clock user id) (start google store) actions := by
  apply always_iff_guarded_of_lawful
  case decided => exact fun _ _ _ mirrors moved => step_mirrors_iff mirrors moved
  case lawful =>
    intro synced never
    cases never

/-- The meeting is imported, removed on Google, and still stored after the next sync. -/
theorem removed_item_still_stored :
    ¬ Always (step universalClock "ann" "work") (Mirrors universalClock "ann" "work") (start [] .empty)
        [.put meeting, .sync 1529323200000 "Work" "c" [meeting], .remove "meeting",
          .sync 1529323200000 "Work" "d" []] := by
  intro always
  have mirrors := (((always.2 _ rfl).2 _ rfl).2 _ rfl).2 _ rfl
  obtain set | ⟨_, _, ended⟩ :=
    (mirrors _ rfl (eventOf meeting (1531915200000, 1531918800000, false))).mp (by decide)
  · exact List.not_mem_nil set
  · exact absurd ended (by decide)

end PlenR.Screens.GoogleSyncs
