import PlenR.Foundation.StableSort
import PlenR.Util.Calendar

/-! The order in which `parse` lists a snapshot.

`eventComparator` is not an order: of two events that start together each is
said to come before the other. `add` asks it about a stored event and the new
one only, so the new event goes behind everything that starts no later, and the
loop of `parse` sorts stably.
-/

set_option autoImplicit false

namespace PlenR.Util.Calendar

open Foundation

theorem stableSort_placed {arrived stored placed : List Event} {event : Event}
    (sorted : StableSort Event.start arrived stored) (absent : ∀ other ∈ stored, other.id ≠ event.id)
    (placement : SortedList.Placement Event.eventComparator event stored placed) :
    StableSort Event.start (arrived ++ [event]) placed := by
  cases placement with
  | atEnd below =>
    rw [← List.append_nil stored] at sorted
    refine sorted.insert ?_ (List.forall_mem_nil _)
    exact fun other member => ((Event.eventComparator_neg other event).mp (below other member)).2
  | @replacing before after head below equal =>
    exact absurd ((Event.eventComparator_eq_zero head event).mp equal) (absent head (by simp))
  | @inserted before after head below above =>
    have later := ((Event.eventComparator_pos head event).mp above).2
    refine sorted.insert ?_ ?_
    · exact fun other member => ((Event.eventComparator_neg other event).mp (below other member)).2
    · have beyond := (List.pairwise_cons.mp (List.pairwise_append.mp sorted.ordered).2.1).1
      exact List.forall_mem_cons.mpr ⟨later, fun other member => later.trans_le (beyond other member)⟩

theorem foldl_addEvent_stableSort (events : List Event) {calendar : Calendar} {arrived : List Event}
    (sorted : StableSort Event.start arrived calendar.eventsList.toArray)
    (distinct : ((calendar.eventsList.toArray ++ events).map Event.id).Nodup) :
    StableSort Event.start (arrived ++ events) (events.foldl addEvent calendar).eventsList.toArray := by
  induction events generalizing calendar arrived with
  | nil =>
    rw [List.append_nil]
    exact sorted
  | cons event events ih =>
    have placed := stableSort_placed sorted (absent_of_distinct distinct) (addEvent_placement calendar event)
    rw [List.append_cons]
    exact ih placed (distinct_addEvent distinct)

theorem parse_stableSort (freshId : String) (events : List Event) (title : String)
    (distinct : (events.map Event.id).Nodup) :
    StableSort Event.start events (parse freshId events title).eventsList.toArray := by
  have start : StableSort Event.start [] (new freshId title).eventsList.toArray := .nil
  exact foldl_addEvent_stableSort events start distinct

/-- `parse` lists a snapshot with distinct ids as the one stable sort of it by start. -/
theorem parse_is_the_stableSort (freshId : String) (events : List Event) (title : String)
    (distinct : (events.map Event.id).Nodup) :
    StableSort Event.start events (parse freshId events title).eventsList.toArray ∧
      ∀ other, StableSort Event.start events other → other = (parse freshId events title).eventsList.toArray := by
  have sorted := parse_stableSort freshId events title distinct
  exact ⟨sorted, fun other again => sorted.unique again⟩

theorem parse_is_the_stableSort_morning :
    StableSort Event.start [.plain "lunch" 12 13, .plain "run" 7 8, .plain "call" 12 12]
        (parse "c" [.plain "lunch" 12 13, .plain "run" 7 8, .plain "call" 12 12] "Main Calendar").eventsList.toArray ∧
      ∀ other, StableSort Event.start [.plain "lunch" 12 13, .plain "run" 7 8, .plain "call" 12 12] other →
        other = (parse "c" [.plain "lunch" 12 13, .plain "run" 7 8, .plain "call" 12 12] "Main Calendar").eventsList.toArray :=
  parse_is_the_stableSort "c" _ "Main Calendar" (by decide)

end PlenR.Util.Calendar
