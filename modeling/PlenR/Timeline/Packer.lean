import Mathlib.Data.List.Sort
import Mathlib.Data.Rat.Defs
import PlenR.Util.Calendar

/-! The layout of a day's events, as `Packer.js` computes it.

Events are compared through the order of their formatted times, so any linear
order of stamps will do; the date library enters only through the three reads
of `buildEvent`. The callback of `forEach` hands a finished group to `pack`,
which is a parameter here: it is `pack` itself in `populateEvents`, and the
identity where the groups are of interest.
-/

set_option autoImplicit false

namespace PlenR.Timeline

open PlenR.Util

structure Moments (Stamp : Type) where
  /-- Whether a stamp is truthy, that is, not the empty string. -/
  truthy : Stamp → Bool
  /-- `moment(s).diff(moment(s).startOf('day'), 'hours', true)`. -/
  hoursIntoDay : Stamp → ℚ
  /-- `moment(s).diff(moment(t), 'hours', true)`. -/
  diffHours : Stamp → Stamp → ℚ

structure IndexedEvent (Stamp : Type) extends TimelineEvent Stamp where
  index : ℕ
  deriving DecidableEq, Repr

structure PackedEvent (Stamp : Type) extends IndexedEvent Stamp where
  top : ℚ
  height : ℚ
  width : ℚ
  left : ℚ
  deriving DecidableEq, Repr

/-- A column is opened with its first event, so it has a last one. -/
structure Column (Stamp : Type) where
  events : List (IndexedEvent Stamp)
  nonempty : events ≠ []
  deriving DecidableEq, Repr

namespace Column
variable {Stamp : Type}

def last (column : Column Stamp) : IndexedEvent Stamp := column.events.getLast column.nonempty

def push (column : Column Stamp) (ev : IndexedEvent Stamp) : Column Stamp where
  events := column.events ++ [ev]
  nonempty := by simp

def single (ev : IndexedEvent Stamp) : Column Stamp where
  events := [ev]
  nonempty := by simp

end Column

def CALENDER_HEIGHT : ℚ := 1680
def offset : ℚ := CALENDER_HEIGHT / 24

section
variable {Stamp : Type} (moments : Moments Stamp)

def buildEvent (column : IndexedEvent Stamp) (left width : ℚ) : PackedEvent Stamp :=
  { column with
    top := moments.hoursIntoDay column.start * offset
    -- an end that is missing is one hour after the start
    height := (if moments.truthy column.end_ then moments.diffHours column.end_ column.start else 1) * offset
    width := width
    left := left }

end

section
variable {Stamp : Type} [LinearOrder Stamp] (moments : Moments Stamp)

def collision (a b : TimelineEvent Stamp) : Bool := a.end_ > b.start && a.start < b.end_

/-- The loop of `expand` over the columns to the right. -/
def expandOver (ev : IndexedEvent Stamp) : List (Column Stamp) → ℕ → ℕ
  | [], colSpan => colSpan
  | col :: columns, colSpan =>
      if col.events.any (fun ev1 => collision ev.toTimelineEvent ev1.toTimelineEvent) then colSpan
      else expandOver ev columns (colSpan + 1)

def expand (ev : IndexedEvent Stamp) (column : ℕ) (columns : List (Column Stamp)) : ℕ :=
  expandOver ev (columns.drop (column + 1)) 1

def pack (width : ℚ) (columns : List (Column Stamp)) : List (PackedEvent Stamp) :=
  columns.zipIdx.flatMap fun (col, i) => col.events.map fun ev =>
    buildEvent moments ev (i / columns.length * width)
      (width * expand ev i columns / columns.length - 10)

/-- First fit: the first column whose last event does not collide, or a new one. -/
def place (ev : IndexedEvent Stamp) : List (Column Stamp) → List (Column Stamp)
  | [] => [.single ev]
  | col :: columns =>
      if !collision col.last.toTimelineEvent ev.toTimelineEvent then col.push ev :: columns
      else col :: place ev columns

def compareEvents (a b : TimelineEvent Stamp) : ℤ :=
  if a.start < b.start then -1
  else if a.start > b.start then 1
  else if a.end_ < b.end_ then -1
  else if a.end_ > b.end_ then 1
  else 0

/-- The variables of `populateEvents` that the callback of `forEach` assigns. -/
structure Sweep (Stamp Out : Type) where
  columns : List (Column Stamp)
  lastEnd : Option Stamp
  calculatedEvents : List Out

variable {Out : Type} (handOver : List (Column Stamp) → List Out)

def Sweep.flush (sweep : Sweep Stamp Out) : Sweep Stamp Out where
  columns := []
  lastEnd := none
  calculatedEvents := sweep.calculatedEvents ++ handOver sweep.columns

def Sweep.visit (sweep : Sweep Stamp Out) (ev : IndexedEvent Stamp) : Sweep Stamp Out :=
  -- an event at or after the running maximum of ends closes the group
  let sweep := match sweep.lastEnd with
    | none => sweep
    | some lastEnd => if ev.start ≥ lastEnd then sweep.flush handOver else sweep
  { sweep with
    columns := place ev sweep.columns
    lastEnd := match sweep.lastEnd with
      | none => some ev.end_
      | some lastEnd => if ev.end_ > lastEnd then some ev.end_ else some lastEnd }

/-- The group that is still open after the last event is packed too. -/
def Sweep.finish (sweep : Sweep Stamp Out) : List Out :=
  if sweep.columns.length > 0 then (sweep.flush handOver).calculatedEvents else sweep.calculatedEvents

def Sweep.start : Sweep Stamp Out where
  columns := []
  lastEnd := none
  calculatedEvents := []

/-- The body of `populateEvents` after sorting. -/
def sweepEvents (events : List (IndexedEvent Stamp)) : List Out :=
  (events.foldl (Sweep.visit handOver) Sweep.start).finish handOver

def sortEvents (events : List (TimelineEvent Stamp)) : List (IndexedEvent Stamp) :=
  (events.zipIdx.map fun (ev, index) => { ev with index := index }).insertionSort fun a b =>
    compareEvents a.toTimelineEvent b.toTimelineEvent ≤ 0

def populateEvents (events : List (TimelineEvent Stamp)) (screenWidth : ℚ) : List (PackedEvent Stamp) :=
  sweepEvents (pack moments screenWidth) (sortEvents events)

def packedGroups (events : List (TimelineEvent Stamp)) : List (List (Column Stamp)) :=
  sweepEvents (fun columns => [columns]) (sortEvents events)

end
end PlenR.Timeline
