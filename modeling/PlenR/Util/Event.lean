import PlenR.Time.Clock

/-! Events, as `Event.js` builds, imports, compares and edits them.

Text fields may be absent, in a Google item as in an edit; absent stands for
`undefined` and `null` alike, which the source never tells apart. Dates are
time values. The id drawn by the constructor is an argument wherever it
survives.
-/

set_option autoImplicit false

namespace PlenR.Util

open PlenR.Time

inductive Exception where
  | typeError
  | thrown (value : String)
  deriving DecidableEq, Repr

structure Event where
  title : Option String
  location : Option String
  start : ℤ
  end_ : ℤ
  notes : Option String
  allday : Bool
  isImported : Bool
  id : String
  recurrence : Option (List String)
  deriving DecidableEq, Repr

namespace Event

structure Props where
  title : Option String
  location : Option String
  start : ℤ
  end_ : ℤ
  notes : Option String
  allday : Bool
  recurrence : Option (List String)

/-- The constructor; `freshId` is what `idCreator` draws. -/
def new (freshId : String) (props : Props) : Event where
  title := props.title
  location := props.location
  start := props.start
  end_ := props.end_
  notes := props.notes
  allday := props.allday
  isImported := false
  id := freshId
  recurrence := props.recurrence

def eventComparator (first second : Event) : ℤ :=
  if first.id = second.id then 0
  else if first.start > second.start then 1
  else -1

-- the id drawn by the constructor is overwritten at once, here and in `clone`
def importAdd (props : Props) (id : String) : Event :=
  { new "" props with isImported := true, id := id }

/-- A start or end of a Google item: a calendar day, an instant, or neither. -/
structure GoogleTime where
  date : Option ℤ
  dateTime : Option ℤ
  deriving DecidableEq, Repr

structure GoogleItem where
  id : String
  summary : Option String
  location : Option String
  description : Option String
  start : Option GoogleTime
  end_ : Option GoogleTime
  recurrence : Option (List String)
  deriving DecidableEq, Repr

/-- `e.start.f && e.end.f`: the end is read only when the start has the field. -/
def GoogleItem.both (field : GoogleTime → Option ℤ) (start : GoogleTime) (end_ : Option GoogleTime) :
    Except Exception (Option (ℤ × ℤ)) :=
  match field start, end_ with
  | none, _ => .ok none
  | some _, none => .error .typeError
  | some first, some end_ => .ok ((field end_).map fun last => (first, last))

def formatGoogle (clock : Clock) (e : GoogleItem) : Except Exception Event := do
  let some start := e.start | throw .typeError
  let imported (first last : ℤ) (allDay : Bool) : Event :=
    importAdd
      { title := e.summary, location := e.location, start := first, end_ := last,
        notes := e.description, allday := allDay, recurrence := e.recurrence } e.id
  match ← GoogleItem.both GoogleTime.date start e.end_ with
  | some (first, last) => return imported (clock.day.startOf first) (clock.day.startOf last) true
  | none =>
    match ← GoogleItem.both GoogleTime.dateTime start e.end_ with
    | some (first, last) => return imported first last false
    | none => throw (.thrown "invalid event")

def clone (event : Event) : Event :=
  { new "" { title := event.title, location := event.location, start := event.start,
             end_ := event.end_, notes := event.notes, allday := event.allday,
             recurrence := none } with
    id := event.id }

/-- The argument of `edit`: a field left out keeps its old value. -/
structure EditProps where
  title : Option String
  location : Option String
  start : Option ℤ
  end_ : Option ℤ
  notes : Option String
  allday : Option Bool

def edit (event : Event) (props : EditProps) : Event :=
  { event.clone with
    title := props.title <|> event.title
    location := props.location <|> event.location
    start := props.start.getD event.start
    end_ := props.end_.getD event.end_
    notes := props.notes <|> event.notes
    allday := props.allday.getD event.allday
    id := event.id }

def plain (id : String) (first last : ℤ) : Event where
  title := some id
  location := none
  start := first
  end_ := last
  notes := none
  allday := false
  isImported := false
  id := id
  recurrence := none

/-! ## The comparison -/

@[simp] theorem eventComparator_eq_zero (first second : Event) :
    eventComparator first second = 0 ↔ first.id = second.id := by
  unfold eventComparator
  split
  next same => simp [same]
  next different => split <;> simp [different]

theorem eventComparator_pos (first second : Event) :
    0 < eventComparator first second ↔ first.id ≠ second.id ∧ second.start < first.start := by
  unfold eventComparator
  split
  next same => simp [same]
  next different => split <;> simp_all

theorem eventComparator_neg (first second : Event) :
    eventComparator first second < 0 ↔ first.id ≠ second.id ∧ first.start ≤ second.start := by
  unfold eventComparator
  split
  next same => simp [same]
  next different => split <;> simp_all

end Event
end PlenR.Util
