import PlenR.Timeline.Packing

/-! Every event is drawn in one box, and a tap on the box finds it.

The sweep puts each visited event into one column, closing a group moves its
columns and changes no event, and `pack` makes one box of each event of a
column. The index an event was given before sorting stays with it, so the box
leads back to the place of its event in the list.
-/

set_option autoImplicit false

namespace PlenR.Timeline

open PlenR.Util

/-- What `DayView` reports when a box is tapped. -/
def DayView.tapped {Stamp : Type} (events : List (TimelineEvent Stamp)) (box : PackedEvent Stamp) :
    Option (TimelineEvent Stamp) := events[box.index]?

variable {Stamp : Type} [LinearOrder Stamp]

/-! ## The events the sweep holds -/

section Sweep

theorem eventsOf_place_perm (ev : IndexedEvent Stamp) (columns : List (Column Stamp)) :
    (eventsOf (place ev columns)).Perm (ev :: eventsOf columns) := by
  induction columns with
  | nil => exact .refl _
  | cons col columns ih =>
    simp only [eventsOf] at ih
    simp only [place]
    split
    · simp only [eventsOf, List.flatMap_cons, Column.push, List.append_assoc, List.singleton_append]
      exact List.perm_middle
    · simp only [eventsOf, List.flatMap_cons]
      exact (ih.append_left _).trans List.perm_middle

def Sweep.held (sweep : Sweep Stamp (List (Column Stamp))) : List (IndexedEvent Stamp) :=
  sweep.calculatedEvents.flatMap eventsOf ++ eventsOf sweep.columns

theorem held_visit_perm (sweep : Sweep Stamp (List (Column Stamp))) (ev : IndexedEvent Stamp) :
    (visitGroups sweep ev).held.Perm (ev :: sweep.held) := by
  have put : ∀ (closed : List (IndexedEvent Stamp)) (columns : List (Column Stamp)),
      (closed ++ eventsOf (place ev columns)).Perm (ev :: (closed ++ eventsOf columns)) := by
    intro closed columns
    exact ((eventsOf_place_perm ev columns).append_left closed).trans List.perm_middle
  unfold Sweep.held
  obtain ⟨placed, same⟩ | ⟨placed, flushed⟩ := visitGroups_cases sweep ev
  · rw [placed, same]
    exact put _ sweep.columns
  · -- the events of the closed group have moved to the others
    rw [placed, flushed, List.flatMap_append, List.flatMap_singleton]
    simpa [eventsOf] using put (sweep.calculatedEvents.flatMap eventsOf ++ eventsOf sweep.columns) []

theorem held_foldl_perm (events : List (IndexedEvent Stamp)) (sweep : Sweep Stamp (List (Column Stamp))) :
    (events.foldl visitGroups sweep).held.Perm (events ++ sweep.held) := by
  induction events generalizing sweep with
  | nil => exact .refl _
  | cons ev rest ih =>
    have visited := (held_visit_perm sweep ev).append_left rest
    exact (ih (visitGroups sweep ev)).trans (visited.trans List.perm_middle)

omit [LinearOrder Stamp] in
theorem finish_flatMap (sweep : Sweep Stamp (List (Column Stamp))) :
    (sweep.finish fun columns => [columns]).flatMap eventsOf = sweep.held := by
  unfold Sweep.finish
  split
  next => simp [Sweep.held, Sweep.flush]
  next empty =>
    -- without a column nothing is left open
    have none_left : sweep.columns = [] := List.length_eq_zero_iff.mp (Nat.eq_zero_of_not_pos empty)
    simp [Sweep.held, none_left, eventsOf]

theorem packedGroups_perm (events : List (TimelineEvent Stamp)) :
    ((packedGroups events).flatMap eventsOf).Perm (sortEvents events) := by
  have visited := held_foldl_perm (sortEvents events) Sweep.start
  have nothing : (Sweep.start : Sweep Stamp (List (Column Stamp))).held = [] := rfl
  rw [nothing, List.append_nil] at visited
  rw [packedGroups, sweepEvents, finish_flatMap]
  exact visited

end Sweep

/-! ## The boxes -/

theorem pack_map_toIndexedEvent (moments : Moments Stamp) (width : ℚ) (columns : List (Column Stamp)) :
    (pack moments width columns).map PackedEvent.toIndexedEvent = eventsOf columns := by
  have boxes : ∀ entry ∈ columns.zipIdx, (entry.1.events.map fun ev =>
      buildEvent moments ev (entry.2 / columns.length * width)
        (width * expand ev entry.2 columns / columns.length - 10)).map PackedEvent.toIndexedEvent =
          entry.1.events := by
    intro entry _
    rw [List.map_map]
    exact List.map_id _
  unfold pack eventsOf
  rw [List.map_flatMap, List.flatMap_congr boxes, ← List.flatMap_map, List.zipIdx_map_fst]

theorem populateEvents_perm (moments : Moments Stamp) (events : List (TimelineEvent Stamp)) (screenWidth : ℚ) :
    ((populateEvents moments events screenWidth).map PackedEvent.toIndexedEvent).Perm
      (events.zipIdx.map fun (ev, index) => { ev with index := index }) := by
  rw [populateEvents_eq_groups, List.map_flatMap]
  simp only [pack_map_toIndexedEvent]
  exact (packedGroups_perm events).trans (sortEvents_perm events)

/-- Every event is drawn exactly once, and a tap on its box reports it. -/
theorem populateEvents_eachOnce (moments : Moments Stamp) (events : List (TimelineEvent Stamp)) (screenWidth : ℚ) :
    ((populateEvents moments events screenWidth).map fun box => box.index).Perm (List.range events.length) ∧
      ∀ box ∈ populateEvents moments events screenWidth, DayView.tapped events box = some box.toTimelineEvent := by
  have drawn := populateEvents_perm moments events screenWidth
  constructor
  · have indices := drawn.map IndexedEvent.index
    rw [List.map_map, List.map_map] at indices
    have numbers : events.zipIdx.map Prod.snd = List.range events.length := by
      rw [List.zipIdx_map_snd, List.range_eq_range']
    rw [← numbers]
    exact indices
  · intro box member
    have indexed := drawn.mem_iff.mp (List.mem_map_of_mem member)
    obtain ⟨⟨ev, index⟩, inside, same⟩ := List.mem_map.mp indexed
    have found : events[index]? = some ev := List.mk_mem_zipIdx_iff_getElem?.mp inside
    unfold DayView.tapped
    rw [← same]
    exact found

end PlenR.Timeline
