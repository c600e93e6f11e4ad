import PlenR.Util.Event

/-! What `clone` and `edit` carry over, through chains of copies.

A copy goes through the constructor, which makes every event a local one, and the
recurrence is not among the fields handed to it. So a copy is the one intended
without its origin and its recurrence, and a copy of a copy has none to lose.
-/

set_option autoImplicit false

namespace PlenR.Util.Copies

open PlenR.Time

inductive Origin where
  | new (freshId : String) (props : Event.Props)
  | importAdd (props : Event.Props) (id : String)
  | formatGoogle (item : Event.GoogleItem)

def Origin.event (clock : Clock) : Origin → Except Exception Event
  | .new freshId props => .ok (Event.new freshId props)
  | .importAdd props id => .ok (Event.importAdd props id)
  | .formatGoogle item => Event.formatGoogle clock item

def Origin.Plain : Origin → Prop
  | .new _ props => props.recurrence = none
  | .importAdd _ _ => False
  | .formatGoogle _ => False

inductive Copy where
  | clone
  | edit (props : Event.EditProps)

def Copy.of (event : Event) : Copy → Event
  | .clone => event.clone
  | .edit props => event.edit props

def Copy.intended (event : Event) : Copy → Event
  | .clone => event
  | .edit props =>
      { event with
        title := props.title <|> event.title
        location := props.location <|> event.location
        start := props.start.getD event.start
        end_ := props.end_.getD event.end_
        notes := props.notes <|> event.notes
        allday := props.allday.getD event.allday }

def CopiesKeep (event : Event) : Prop := ∀ copy, Copy.of event copy = Copy.intended event copy

def stripped (event : Event) : Event := { event with isImported := false, recurrence := none }

section Copies
variable {event : Event}

theorem copy_of_eq (event : Event) (copy : Copy) : Copy.of event copy = stripped (Copy.intended event copy) := by
  cases copy with
  | clone => rfl
  | edit props => rfl

theorem copy_of_stripped (event : Event) (copy : Copy) : Copy.of (stripped event) copy = Copy.of event copy := by
  cases copy with
  | clone => rfl
  | edit props => rfl

@[simp] theorem intended_isImported (event : Event) (copy : Copy) :
    (Copy.intended event copy).isImported = event.isImported := by
  cases copy with
  | clone => rfl
  | edit props => rfl

@[simp] theorem intended_recurrence (event : Event) (copy : Copy) :
    (Copy.intended event copy).recurrence = event.recurrence := by
  cases copy with
  | clone => rfl
  | edit props => rfl

theorem stripped_eq_iff : stripped event = event ↔ event.isImported = false ∧ event.recurrence = none := by
  constructor
  · intro same
    exact ⟨(congrArg Event.isImported same).symm, (congrArg Event.recurrence same).symm⟩
  · intro ⟨isLocal, once⟩
    rw [stripped, ← isLocal, ← once]

theorem copiesKeep_iff : CopiesKeep event ↔ event.isImported = false ∧ event.recurrence = none := by
  constructor
  · intro keep
    exact stripped_eq_iff.mp (keep .clone)
  · intro plain copy
    rw [copy_of_eq, stripped_eq_iff, intended_isImported, intended_recurrence]
    exact plain

theorem chain_eq (event : Event) (copy : Copy) (chain : List Copy) :
    (copy :: chain).foldl Copy.of event = stripped ((copy :: chain).foldl Copy.intended event) := by
  rw [List.foldl_cons, List.foldl_cons, copy_of_eq]
  generalize Copy.intended event copy = first
  induction chain generalizing first with
  | nil => rfl
  | cons copy chain ih => rw [List.foldl_cons, List.foldl_cons, copy_of_stripped, copy_of_eq, ih]

theorem foldl_intended (chain : List Copy) (event : Event) :
    (chain.foldl Copy.intended event).isImported = event.isImported ∧
      (chain.foldl Copy.intended event).recurrence = event.recurrence := by
  induction chain generalizing event with
  | nil => exact ⟨rfl, rfl⟩
  | cons copy chain ih =>
    obtain ⟨isImported, recurrence⟩ := ih (Copy.intended event copy)
    rw [List.foldl_cons, isImported, recurrence, intended_isImported, intended_recurrence]
    exact ⟨rfl, rfl⟩

theorem chain_intended_iff (event : Event) (copy : Copy) (chain : List Copy) :
    (copy :: chain).foldl Copy.of event = (copy :: chain).foldl Copy.intended event ↔ CopiesKeep event := by
  obtain ⟨isImported, recurrence⟩ := foldl_intended (copy :: chain) event
  rw [chain_eq, stripped_eq_iff, copiesKeep_iff, isImported, recurrence]

end Copies

section Origins
variable {clock : Clock}

theorem imported_of_formatGoogle {item : Event.GoogleItem} {event : Event}
    (formatted : Event.formatGoogle clock item = .ok event) : event.isImported = true := by
  obtain ⟨id, summary, location, description, start, end_, recurrence⟩ := item
  rcases start with _ | ⟨_ | date, _ | dateTime⟩ <;> rcases end_ with _ | ⟨_ | endDate, _ | endDateTime⟩ <;>
    cases formatted <;> rfl

theorem plain_iff {origin : Origin} {event : Event} (built : origin.event clock = .ok event) :
    event.isImported = false ∧ event.recurrence = none ↔ origin.Plain := by
  cases origin with
  | new freshId props =>
    cases built
    exact and_iff_right rfl
  | importAdd props id =>
    cases built
    exact iff_of_false (fun plain => Bool.noConfusion plain.1) not_false
  | formatGoogle item =>
    refine iff_of_false ?_ not_false
    intro ⟨isLocal, _⟩
    rw [imported_of_formatGoogle built] at isLocal
    cases isLocal

end Origins

/-- The copies of an event keep all they should exactly if the event is a copy
itself, or was built as a local event that does not recur. -/
theorem copiesKeep_iff_copied_or_plain (clock : Clock) (origin : Origin) (event : Event) (chain : List Copy)
    (built : origin.event clock = .ok event) :
    CopiesKeep (chain.foldl Copy.of event) ↔ chain ≠ [] ∨ origin.Plain := by
  rw [copiesKeep_iff, ← plain_iff built]
  cases chain with
  | nil => simp
  | cons copy chain =>
    rw [chain_eq]
    exact iff_of_true ⟨rfl, rfl⟩ (.inl (List.cons_ne_nil _ _))

/-- Lunch, edited and cloned. -/
theorem copiesKeep_iff_copied_or_plain_lunch :
    CopiesKeep ([Copy.edit ⟨none, some "Hall", none, some 14, none, none⟩, .clone].foldl Copy.of
        (.new "lunch" ⟨some "Lunch", none, 12, 13, none, false, none⟩)) ↔
      [Copy.edit ⟨none, some "Hall", none, some 14, none, none⟩, .clone] ≠ [] ∨
        (Origin.new "lunch" ⟨some "Lunch", none, 12, 13, none, false, none⟩).Plain :=
  copiesKeep_iff_copied_or_plain universalClock (.new "lunch" ⟨some "Lunch", none, 12, 13, none, false, none⟩) _ _ rfl

/-- The clone of an imported event is a local one. -/
theorem clone_of_import_is_local :
    ¬ ∀ (origin : Origin) (event : Event) (chain : List Copy), origin.event universalClock = .ok event →
      CopiesKeep (chain.foldl Copy.of event) := by
  intro keep
  have cloned := keep (.importAdd ⟨some "Meeting", none, 12, 13, none, false, none⟩ "meeting") _ [] rfl .clone
  have same := congrArg Event.isImported cloned
  revert same
  decide

end PlenR.Util.Copies
