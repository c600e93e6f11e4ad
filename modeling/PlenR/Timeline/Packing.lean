import Mathlib.Algebra.Order.Field.Basic
import Mathlib.Order.CompletePartialOrder
import Mathlib.Order.Interval.Set.Disjoint
import Mathlib.Tactic.Linarith
import Mathlib.Tactic.Ring
import PlenR.Foundation.Tracks
import PlenR.Timeline.Packer

/-! No two simultaneous events are drawn over each other.

The sweep keeps each column a track of events that follow each other, although
it compares a new event with the last one of the column only. Groups are closed
at a running maximum of ends, so a closed group has ended before anything after
it starts. Inside a group an event is widened over later columns until the first
that holds a colliding event, which is at or before that event's own column.
-/

set_option autoImplicit false

namespace PlenR.Timeline

open Foundation.Tracks PlenR.Util

variable {Stamp : Type} [LinearOrder Stamp]

section Order

abbrev startOf (ev : IndexedEvent Stamp) : Stamp := ev.start
abbrev endOf (ev : IndexedEvent Stamp) : Stamp := ev.end_

theorem collision_iff (a b : IndexedEvent Stamp) :
    collision a.toTimelineEvent b.toTimelineEvent = true ↔ Overlaps startOf endOf a b := by
  simp [collision, Overlaps]

theorem compareEvents_le_zero (a b : IndexedEvent Stamp) :
    compareEvents a.toTimelineEvent b.toTimelineEvent ≤ 0 ↔ Before startOf endOf a b := by
  unfold compareEvents Before startOf endOf
  rcases lt_trichotomy a.start b.start with earlier | same | later
  · simp [earlier]
  · rcases lt_trichotomy a.end_ b.end_ with sooner | ends | after
    · simp [same, sooner, sooner.le]
    · simp [same, ends]
    · simp [same, after, after.not_gt]
  · simp [later, later.not_gt, later.ne']

theorem before_trans {a b c : IndexedEvent Stamp} (ab : Before startOf endOf a b)
    (bc : Before startOf endOf b c) : Before startOf endOf a c := by
  rcases ab with earlier | ⟨same, ends⟩
  · exact .inl (earlier.trans_le bc.first_le)
  · rcases bc with later | ⟨again, after⟩
    · exact .inl (same.le.trans_lt later)
    · exact .inr ⟨same.trans again, ends.trans after⟩

theorem before_total (a b : IndexedEvent Stamp) : Before startOf endOf a b ∨ Before startOf endOf b a := by
  unfold Before
  rcases lt_trichotomy (startOf a) (startOf b) with earlier | same | later
  · exact .inl (.inl earlier)
  · rcases le_total (endOf a) (endOf b) with ends | ends
    · exact .inl (.inr ⟨same, ends⟩)
    · exact .inr (.inr ⟨same.symm, ends⟩)
  · exact .inr (.inl later)

theorem sortEvents_perm (events : List (TimelineEvent Stamp)) :
    (sortEvents events).Perm (events.zipIdx.map fun (ev, index) => { ev with index := index }) :=
  List.perm_insertionSort _ _

theorem sortEvents_before (events : List (TimelineEvent Stamp)) :
    (sortEvents events).Pairwise (Before startOf endOf) := by
  have total : Std.Total fun a b : IndexedEvent Stamp => compareEvents a.toTimelineEvent b.toTimelineEvent ≤ 0 :=
    ⟨fun a b => by simpa only [compareEvents_le_zero] using before_total a b⟩
  have trans : IsTrans _ fun a b : IndexedEvent Stamp => compareEvents a.toTimelineEvent b.toTimelineEvent ≤ 0 :=
    ⟨fun a b c => by simpa only [compareEvents_le_zero] using before_trans⟩
  exact (List.pairwise_insertionSort _ _).imp (compareEvents_le_zero _ _).mp

theorem sortEvents_proper {events : List (TimelineEvent Stamp)} (proper : ∀ ev ∈ events, ev.start ≤ ev.end_) :
    ∀ ev ∈ sortEvents events, startOf ev ≤ endOf ev := by
  intro ev member
  obtain ⟨⟨source, index⟩, inside, rfl⟩ := List.mem_map.mp ((sortEvents_perm events).mem_iff.mp member)
  exact proper source (List.fst_mem_of_mem_zipIdx inside)

end Order

/-! ## The sweep -/

section Sweep

def eventsOf (columns : List (Column Stamp)) : List (IndexedEvent Stamp) := columns.flatMap Column.events

def OnTracks (columns : List (Column Stamp)) : Prop :=
  ∀ column ∈ columns, Successive startOf endOf column.events

theorem mem_eventsOf_place {ev other : IndexedEvent Stamp} {columns : List (Column Stamp)} :
    other ∈ eventsOf (place ev columns) ↔ other = ev ∨ other ∈ eventsOf columns := by
  induction columns with
  | nil => simp [place, eventsOf, Column.single]
  | cons col columns ih =>
    simp only [eventsOf] at ih
    simp only [place]
    split
    · simp only [eventsOf, List.flatMap_cons, List.mem_append, Column.push, List.mem_singleton]
      tauto
    · simp only [eventsOf, List.flatMap_cons, List.mem_append, ih]
      tauto

theorem place_onTracks {ev : IndexedEvent Stamp} {columns : List (Column Stamp)} (tracks : OnTracks columns)
    (proper : ∀ other ∈ eventsOf columns, startOf other ≤ endOf other) (whole : startOf ev ≤ endOf ev)
    (before : ∀ other ∈ eventsOf columns, Before startOf endOf other ev) : OnTracks (place ev columns) := by
  induction columns with
  | nil => simp [place, OnTracks, Column.single, Successive]
  | cons col columns ih =>
    simp only [OnTracks, List.forall_mem_cons] at tracks
    simp only [eventsOf, List.flatMap_cons, List.forall_mem_append] at proper before
    simp only [place]
    split
    next apart =>
      rw [OnTracks, List.forall_mem_cons]
      refine ⟨?_, tracks.2⟩
      have final : col.last ∈ col.events := List.getLast_mem col.nonempty
      refine tracks.1.push proper.1 col.nonempty ?_
      refine last_le_first (before.1 _ final) whole ?_
      change ¬ Overlaps startOf endOf col.last ev
      rw [← collision_iff]
      simpa using apart
    next =>
      rw [OnTracks, List.forall_mem_cons]
      exact ⟨tracks.1, ih tracks.2 proper.2 before.2⟩

def EndsBefore (columns : List (Column Stamp)) (later : List (IndexedEvent Stamp)) : Prop :=
  ∀ ev ∈ eventsOf columns, ∀ other ∈ later, endOf ev ≤ startOf other

structure Grouped (rest : List (IndexedEvent Stamp)) (sweep : Sweep Stamp (List (Column Stamp))) : Prop where
  order : ∀ ev ∈ eventsOf sweep.columns, ∀ other ∈ rest, Before startOf endOf ev other
  proper : ∀ ev ∈ eventsOf sweep.columns, startOf ev ≤ endOf ev
  tracks : OnTracks sweep.columns
  opened : sweep.lastEnd = none → sweep.columns = []
  ended : ∀ lastEnd ∈ sweep.lastEnd, ∀ ev ∈ eventsOf sweep.columns, endOf ev ≤ lastEnd
  closed_tracks : ∀ columns ∈ sweep.calculatedEvents, OnTracks columns
  closed_apart : sweep.calculatedEvents.Pairwise fun columns later => EndsBefore columns (eventsOf later)
  closed_before : ∀ columns ∈ sweep.calculatedEvents, EndsBefore columns (eventsOf sweep.columns ++ rest)

abbrev visitGroups (sweep : Sweep Stamp (List (Column Stamp))) (ev : IndexedEvent Stamp) :=
  sweep.visit (fun columns => [columns]) ev

theorem visitGroups_cases (sweep : Sweep Stamp (List (Column Stamp))) (ev : IndexedEvent Stamp) :
    ((visitGroups sweep ev).columns = place ev sweep.columns ∧
        (visitGroups sweep ev).calculatedEvents = sweep.calculatedEvents) ∨
      ((visitGroups sweep ev).columns = place ev [] ∧
        (visitGroups sweep ev).calculatedEvents = sweep.calculatedEvents ++ [sweep.columns]) := by
  unfold visitGroups Sweep.visit
  split
  next => exact .inl ⟨rfl, rfl⟩
  next =>
    split
    next => exact .inr ⟨rfl, rfl⟩
    next => exact .inl ⟨rfl, rfl⟩

theorem grouped_start (events : List (IndexedEvent Stamp)) : Grouped events Sweep.start where
  order := by simp [Sweep.start, eventsOf]
  proper := by simp [Sweep.start, eventsOf]
  tracks := by simp [Sweep.start, OnTracks]
  opened := fun _ => rfl
  ended := by simp [Sweep.start]
  closed_tracks := by simp [Sweep.start]
  closed_apart := .nil
  closed_before := by simp [Sweep.start]

theorem Grouped.flush {ev : IndexedEvent Stamp} {rest : List (IndexedEvent Stamp)}
    {sweep : Sweep Stamp (List (Column Stamp))} {lastEnd : Stamp} (grouped : Grouped (ev :: rest) sweep)
    (sorted : (ev :: rest).Pairwise (Before startOf endOf)) (last : sweep.lastEnd = some lastEnd)
    (past : lastEnd ≤ ev.start) : Grouped (ev :: rest) (sweep.flush fun columns => [columns]) where
  order := by simp [Sweep.flush, eventsOf]
  proper := by simp [Sweep.flush, eventsOf]
  tracks := by simp [Sweep.flush, OnTracks]
  opened := fun _ => rfl
  ended := by simp [Sweep.flush]
  closed_tracks := List.forall_mem_append.mpr
    ⟨grouped.closed_tracks, List.forall_mem_singleton.mpr grouped.tracks⟩
  closed_apart := by
    refine List.pairwise_append.mpr ⟨grouped.closed_apart, List.pairwise_singleton _ _, ?_⟩
    intro columns closed later current other member next inside
    rw [List.mem_singleton.mp current] at inside
    exact grouped.closed_before columns closed other member next (List.mem_append_left _ inside)
  closed_before := by
    refine List.forall_mem_append.mpr ⟨?_, List.forall_mem_singleton.mpr ?_⟩
    · intro columns closed other member next ahead
      exact grouped.closed_before columns closed other member next (List.mem_append_right _ ahead)
    · intro other member next ahead
      have before : endOf other ≤ startOf ev := (grouped.ended lastEnd last other member).trans past
      rcases List.mem_cons.mp ahead with rfl | later
      · exact before
      · exact before.trans ((List.pairwise_cons.mp sorted).1 next later).first_le

theorem Grouped.put {ev : IndexedEvent Stamp} {rest : List (IndexedEvent Stamp)}
    {sweep : Sweep Stamp (List (Column Stamp))} {lastEnd : Stamp} (grouped : Grouped (ev :: rest) sweep)
    (sorted : (ev :: rest).Pairwise (Before startOf endOf)) (whole : startOf ev ≤ endOf ev)
    (covers : endOf ev ≤ lastEnd) (grows : ∀ previous ∈ sweep.lastEnd, previous ≤ lastEnd) :
    Grouped rest { sweep with columns := place ev sweep.columns, lastEnd := some lastEnd } where
  order := by
    intro other member next ahead
    rcases mem_eventsOf_place.mp member with rfl | old
    · exact (List.pairwise_cons.mp sorted).1 next ahead
    · exact grouped.order other old next (List.mem_cons_of_mem _ ahead)
  proper := by
    intro other member
    rcases mem_eventsOf_place.mp member with rfl | old
    · exact whole
    · exact grouped.proper other old
  tracks := place_onTracks grouped.tracks grouped.proper whole
    fun other member => grouped.order other member ev List.mem_cons_self
  opened := nofun
  ended := by
    intro bound same other member
    rw [← Option.some.inj same]
    rcases mem_eventsOf_place.mp member with rfl | old
    · exact covers
    · cases open_ : sweep.lastEnd with
      | none =>
        rw [grouped.opened open_] at old
        exact absurd old List.not_mem_nil
      | some previous => exact (grouped.ended previous open_ other old).trans (grows previous open_)
  closed_tracks := grouped.closed_tracks
  closed_apart := grouped.closed_apart
  closed_before := by
    intro columns closed other member next inside
    refine grouped.closed_before columns closed other member next ?_
    rcases List.mem_append.mp inside with placed | ahead
    · rcases mem_eventsOf_place.mp placed with rfl | old
      · exact List.mem_append_right _ List.mem_cons_self
      · exact List.mem_append_left _ old
    · exact List.mem_append_right _ (List.mem_cons_of_mem _ ahead)

theorem Grouped.visit {ev : IndexedEvent Stamp} {rest : List (IndexedEvent Stamp)}
    {sweep : Sweep Stamp (List (Column Stamp))} (grouped : Grouped (ev :: rest) sweep)
    (sorted : (ev :: rest).Pairwise (Before startOf endOf)) (whole : startOf ev ≤ endOf ev) :
    Grouped rest (visitGroups sweep ev) := by
  unfold visitGroups Sweep.visit
  cases last : sweep.lastEnd with
  | none =>
    -- the first event of all opens the first group
    simp only [last]
    refine grouped.put sorted whole le_rfl ?_
    simp [last]
  | some lastEnd =>
    by_cases past : lastEnd ≤ ev.start
    · simp only [ge_iff_le, past, if_true]
      refine (grouped.flush sorted last past).put sorted whole le_rfl ?_
      simp [Sweep.flush]
    · simp only [ge_iff_le, past, if_false, last]
      -- the group stays open, and its maximum grows if this event ends later
      by_cases longer : ev.end_ > lastEnd
      · rw [if_pos longer]
        refine grouped.put sorted whole le_rfl ?_
        simpa [last] using longer.le
      · rw [if_neg longer]
        refine grouped.put sorted whole (not_lt.mp longer) ?_
        simp [last]

theorem grouped_foldl {events : List (IndexedEvent Stamp)} {sweep : Sweep Stamp (List (Column Stamp))}
    (grouped : Grouped events sweep) (sorted : events.Pairwise (Before startOf endOf))
    (proper : ∀ ev ∈ events, startOf ev ≤ endOf ev) : Grouped [] (events.foldl visitGroups sweep) := by
  induction events generalizing sweep with
  | nil => exact grouped
  | cons ev rest ih =>
    obtain ⟨whole, proper⟩ := List.forall_mem_cons.mp proper
    exact ih (grouped.visit sorted whole) (List.pairwise_cons.mp sorted).2 proper

theorem Grouped.finish {sweep : Sweep Stamp (List (Column Stamp))} (grouped : Grouped [] sweep) :
    (∀ columns ∈ sweep.finish fun columns => [columns], OnTracks columns) ∧
      (sweep.finish fun columns => [columns]).Pairwise fun columns later => EndsBefore columns (eventsOf later) := by
  unfold Sweep.finish
  split
  next =>
    refine ⟨List.forall_mem_append.mpr ⟨grouped.closed_tracks, List.forall_mem_singleton.mpr grouped.tracks⟩, ?_⟩
    refine List.pairwise_append.mpr ⟨grouped.closed_apart, List.pairwise_singleton _ _, ?_⟩
    intro columns closed later current
    rw [List.mem_singleton.mp current]
    simpa using grouped.closed_before columns closed
  next => exact ⟨grouped.closed_tracks, grouped.closed_apart⟩

theorem packedGroups_apart {events : List (TimelineEvent Stamp)} (proper : ∀ ev ∈ events, ev.start ≤ ev.end_) :
    (∀ columns ∈ packedGroups events, OnTracks columns) ∧
      (packedGroups events).Pairwise fun columns later => EndsBefore columns (eventsOf later) :=
  (grouped_foldl (grouped_start (sortEvents events)) (sortEvents_before events)
    (sortEvents_proper proper)).finish

def Sweep.handing {Out : Type} (handOver : List (Column Stamp) → List Out)
    (sweep : Sweep Stamp (List (Column Stamp))) : Sweep Stamp Out :=
  { sweep with calculatedEvents := sweep.calculatedEvents.flatMap handOver }

theorem handing_visit {Out : Type} (handOver : List (Column Stamp) → List Out)
    (sweep : Sweep Stamp (List (Column Stamp))) (ev : IndexedEvent Stamp) :
    (sweep.handing handOver).visit handOver ev = (visitGroups sweep ev).handing handOver := by
  rcases sweep with ⟨columns, _ | lastEnd, calculated⟩
  · rfl
  · by_cases past : ev.start ≥ lastEnd
    · simp [visitGroups, Sweep.visit, Sweep.handing, Sweep.flush, past]
    · simp [visitGroups, Sweep.visit, Sweep.handing, past]

theorem handing_foldl {Out : Type} (handOver : List (Column Stamp) → List Out)
    (events : List (IndexedEvent Stamp)) (sweep : Sweep Stamp (List (Column Stamp))) :
    events.foldl (Sweep.visit handOver) (sweep.handing handOver) =
      (events.foldl visitGroups sweep).handing handOver := by
  induction events generalizing sweep with
  | nil => rfl
  | cons ev rest ih => rw [List.foldl_cons, List.foldl_cons, handing_visit, ih]

omit [LinearOrder Stamp] in
theorem handing_finish {Out : Type} (handOver : List (Column Stamp) → List Out)
    (sweep : Sweep Stamp (List (Column Stamp))) :
    (sweep.handing handOver).finish handOver = (sweep.finish fun columns => [columns]).flatMap handOver := by
  by_cases opened : sweep.columns.length > 0
  · simp only [Sweep.finish, Sweep.handing, Sweep.flush, opened, if_true, List.flatMap_append,
      List.flatMap_singleton]
  · simp only [Sweep.finish, Sweep.handing, opened, if_false]

theorem populateEvents_eq_groups (moments : Moments Stamp) (events : List (TimelineEvent Stamp))
    (screenWidth : ℚ) :
    populateEvents moments events screenWidth = (packedGroups events).flatMap (pack moments screenWidth) := by
  unfold populateEvents packedGroups sweepEvents
  rw [← handing_finish, ← handing_foldl]
  rfl

end Sweep

/-! ## The columns of one group -/

section Pack

theorem expandOver_le_length (ev : IndexedEvent Stamp) (columns : List (Column Stamp)) (colSpan : ℕ) :
    expandOver ev columns colSpan ≤ colSpan + columns.length := by
  induction columns generalizing colSpan with
  | nil => exact le_rfl
  | cons col columns ih =>
    unfold expandOver
    split
    · omega
    · have rest := ih (colSpan + 1)
      simp only [List.length_cons]
      omega

theorem expandOver_le {ev other : IndexedEvent Stamp} {columns : List (Column Stamp)} {column : Column Stamp}
    {position : ℕ} (colSpan : ℕ) (found : columns[position]? = some column) (member : other ∈ column.events)
    (collides : collision ev.toTimelineEvent other.toTimelineEvent = true) :
    expandOver ev columns colSpan ≤ colSpan + position := by
  induction columns generalizing colSpan position with
  | nil => cases found
  | cons col columns ih =>
    unfold expandOver
    split
    next => omega
    next free =>
      cases position with
      | zero =>
        obtain rfl := Option.some.inj found
        exact absurd (List.any_eq_true.mpr ⟨other, member, collides⟩) free
      | succ position =>
        have rest := ih (colSpan + 1) found
        omega

theorem expand_le_rest {ev : IndexedEvent Stamp} {columns : List (Column Stamp)} {i : ℕ}
    (inside : i < columns.length) : i + expand ev i columns ≤ columns.length := by
  have within := expandOver_le_length ev (columns.drop (i + 1)) 1
  rw [List.length_drop] at within
  unfold expand
  omega

theorem expand_le {ev other : IndexedEvent Stamp} {columns : List (Column Stamp)} {column : Column Stamp}
    {i j : ℕ} (right : i < j) (found : columns[j]? = some column) (member : other ∈ column.events)
    (collides : collision ev.toTimelineEvent other.toTimelineEvent = true) : i + expand ev i columns ≤ j := by
  have there : (columns.drop (i + 1))[j - (i + 1)]? = some column := by
    rw [List.getElem?_drop, show i + 1 + (j - (i + 1)) = j by omega]
    exact found
  have within := expandOver_le 1 there member collides
  unfold expand
  omega

/-- The right edge of a packed event, in columns. -/
theorem right_edge (width : ℚ) (i span n : ℕ) :
    (i : ℚ) / n * width + (width * span / n - 10) = ((i + span : ℕ) : ℚ) / n * width - 10 := by
  push_cast
  ring

theorem edge_le {width : ℚ} (wide : 0 ≤ width) {i j : ℕ} (n : ℕ) (below : i ≤ j) :
    (i : ℚ) / n * width ≤ (j : ℚ) / n * width := by
  gcongr

def drawnOn (ev : PackedEvent Stamp) : Set ℚ := Set.Ico ev.left (ev.left + ev.width)

/-- Two events that are under way together are drawn side by side. -/
def SideBySide (a b : PackedEvent Stamp) : Prop :=
  collision a.toTimelineEvent b.toTimelineEvent = true → Disjoint (drawnOn a) (drawnOn b)

theorem sideBySide_of_le {a b : PackedEvent Stamp} (apart : a.end_ ≤ b.start) : SideBySide a b := by
  intro collides
  simp only [collision, gt_iff_lt, Bool.and_eq_true, decide_eq_true_eq] at collides
  exact absurd collides.1 apart.not_gt

theorem mem_pack {moments : Moments Stamp} {width : ℚ} {columns : List (Column Stamp)}
    {drawn : PackedEvent Stamp} :
    drawn ∈ pack moments width columns ↔ ∃ (i : ℕ) (column : Column Stamp), columns[i]? = some column ∧ ∃ ev ∈ column.events,
      buildEvent moments ev (i / columns.length * width)
        (width * expand ev i columns / columns.length - 10) = drawn := by
  simp only [pack, List.mem_flatMap, List.mem_map, Prod.exists, List.mk_mem_zipIdx_iff_getElem?]
  constructor
  · rintro ⟨column, i, found, placed⟩
    exact ⟨i, column, found, placed⟩
  · rintro ⟨i, column, found, placed⟩
    exact ⟨column, i, found, placed⟩

theorem pack_bounds {moments : Moments Stamp} {width : ℚ} (wide : 0 ≤ width) {columns : List (Column Stamp)}
    {drawn : PackedEvent Stamp} (member : drawn ∈ pack moments width columns) :
    0 ≤ drawn.left ∧ drawn.left + drawn.width ≤ width - 10 := by
  obtain ⟨i, column, found, ev, placed, rfl⟩ := mem_pack.mp member
  obtain ⟨inside, _⟩ := List.getElem?_eq_some_iff.mp found
  constructor
  · change 0 ≤ (i : ℚ) / columns.length * width
    positivity
  · change (i : ℚ) / columns.length * width + (width * expand ev i columns / columns.length - 10) ≤ width - 10
    have edge := edge_le wide columns.length (expand_le_rest inside : i + expand ev i columns ≤ columns.length)
    have nonempty : (columns.length : ℚ) ≠ 0 := Nat.cast_ne_zero.mpr (by omega)
    rw [div_self nonempty, one_mul] at edge
    rw [right_edge]
    linarith

theorem sideBySide_of_lt {moments : Moments Stamp} {width : ℚ} (wide : 0 ≤ width) {columns : List (Column Stamp)}
    {i j : ℕ} (right : i < j) {column : Column Stamp} (found : columns[j]? = some column)
    {ev other : IndexedEvent Stamp} (member : other ∈ column.events) (otherSpan : ℕ) :
    SideBySide
      (buildEvent moments ev (i / columns.length * width) (width * expand ev i columns / columns.length - 10))
      (buildEvent moments other (j / columns.length * width) (width * otherSpan / columns.length - 10)) := by
  intro collides
  -- the collision stops the widening at the column of the other event
  have reach : i + expand ev i columns ≤ j := expand_le right found member collides
  have edge := edge_le wide columns.length reach
  refine Set.Ico_disjoint_Ico.mpr ?_
  refine (min_le_left _ _).trans (le_trans ?_ (le_max_right _ _))
  change (i : ℚ) / columns.length * width + (width * expand ev i columns / columns.length - 10) ≤
    (j : ℚ) / columns.length * width
  rw [right_edge]
  linarith

-- Within a column the events follow each other; across columns the left one is not widened too far.
theorem pack_sideBySide (moments : Moments Stamp) {width : ℚ} (wide : 0 ≤ width) {columns : List (Column Stamp)}
    (tracks : OnTracks columns) : (pack moments width columns).Pairwise SideBySide := by
  refine List.pairwise_flatMap.mpr ⟨?_, ?_⟩
  · rintro ⟨column, i⟩ member
    refine List.pairwise_map.mpr ((tracks column (List.fst_mem_of_mem_zipIdx member)).imp ?_)
    intro ev later apart
    exact sideBySide_of_le apart
  · have increasing : columns.zipIdx.Pairwise fun first second => first.2 < second.2 := by
      rw [← List.pairwise_map, List.zipIdx_map_snd]
      exact List.pairwise_lt_range'
    refine increasing.imp_of_mem ?_
    rintro ⟨column, i⟩ ⟨later, j⟩ _ found right drawn member other placed
    obtain ⟨ev, _, rfl⟩ := List.mem_map.mp member
    obtain ⟨next, inside, rfl⟩ := List.mem_map.mp placed
    exact sideBySide_of_lt wide right (List.mk_mem_zipIdx_iff_getElem?.mp found) inside _

theorem pack_endsBefore {moments : Moments Stamp} {width : ℚ} {columns later : List (Column Stamp)}
    (before : EndsBefore columns (eventsOf later)) {drawn other : PackedEvent Stamp}
    (member : drawn ∈ pack moments width columns) (placed : other ∈ pack moments width later) :
    SideBySide drawn other := by
  obtain ⟨_, column, found, ev, inside, rfl⟩ := mem_pack.mp member
  obtain ⟨_, next, there, ev', within, rfl⟩ := mem_pack.mp placed
  refine sideBySide_of_le (before ev ?_ ev' ?_)
  · exact List.mem_flatMap.mpr ⟨column, List.mem_of_getElem? found, inside⟩
  · exact List.mem_flatMap.mpr ⟨next, List.mem_of_getElem? there, within⟩

end Pack

/-- Simultaneous events are never drawn over each other, and none leaves the screen. -/
theorem populateEvents_sideBySide (moments : Moments Stamp) (events : List (TimelineEvent Stamp))
    (screenWidth : ℚ) (proper : ∀ ev ∈ events, ev.start ≤ ev.end_) (wide : 0 ≤ screenWidth) :
    (populateEvents moments events screenWidth).Pairwise SideBySide ∧
      ∀ ev ∈ populateEvents moments events screenWidth, 0 ≤ ev.left ∧ ev.left + ev.width ≤ screenWidth - 10 := by
  obtain ⟨tracks, apart⟩ := packedGroups_apart proper
  rw [populateEvents_eq_groups]
  constructor
  · refine List.pairwise_flatMap.mpr ⟨?_, ?_⟩
    · intro columns member
      exact pack_sideBySide moments wide (tracks columns member)
    · refine apart.imp ?_
      intro columns later before drawn member other placed
      exact pack_endsBefore before member placed
  · intro drawn member
    obtain ⟨columns, _, packed⟩ := List.mem_flatMap.mp member
    exact pack_bounds wide packed

def hourStamps : Moments ℕ where
  truthy := fun _ => true
  hoursIntoDay := fun stamp => stamp
  diffHours := fun stamp other => (stamp : ℚ) - other

theorem populateEvents_sideBySide_morning :
    (populateEvents hourStamps
        [⟨9, 12, "", ""⟩, ⟨10, 10, "", ""⟩, ⟨9, 11, "", ""⟩, ⟨12, 13, "", ""⟩] 360).Pairwise SideBySide ∧
      ∀ ev ∈ populateEvents hourStamps
        [⟨9, 12, "", ""⟩, ⟨10, 10, "", ""⟩, ⟨9, 11, "", ""⟩, ⟨12, 13, "", ""⟩] 360,
        0 ≤ ev.left ∧ ev.left + ev.width ≤ 360 - 10 :=
  populateEvents_sideBySide hourStamps _ 360 (by decide) (by norm_num)
end PlenR.Timeline
