import Mathlib.Order.Bounds.Defs
import PlenR.Timeline.Boxes

/-! The number of columns, and what it leaves for an event to be seen.

A column is opened only when the last events of all others are still under way,
so each group exhibits as many events colliding with each other as it has
columns, and no layout without overlaps has fewer. The width of an event is a
share of the screen less a fixed margin. The share of the last column is never
widened, so it is the size of the largest clique that decides whether every
event of a group is left with a width.
-/

set_option autoImplicit false

namespace PlenR.Timeline

open Foundation.Tracks PlenR.Util

variable {Stamp : Type} [LinearOrder Stamp]

/-- Some of the events, each as often as it is listed, that all collide with each other. -/
def AllCollide (events clique : List (TimelineEvent Stamp)) : Prop :=
  clique.Subperm events ∧ clique.Pairwise fun a b => collision a b = true

def groupEvents (columns : List (Column Stamp)) : List (TimelineEvent Stamp) :=
  (eventsOf columns).map IndexedEvent.toTimelineEvent

/-! ## A clique for every column -/

def Exhibits (columns : List (Column Stamp)) : Prop :=
  ∃ clique : List (IndexedEvent Stamp), clique.Sublist (eventsOf columns) ∧
    clique.Pairwise (Overlaps startOf endOf) ∧ clique.length = columns.length

theorem exhibits_nil : Exhibits ([] : List (Column Stamp)) := ⟨[], List.nil_sublist _, .nil, rfl⟩

theorem place_cases (ev : IndexedEvent Stamp) (columns : List (Column Stamp)) :
    (∀ col ∈ columns, Overlaps startOf endOf col.last ev) ∧ place ev columns = columns ++ [.single ev] ∨
      (place ev columns).length = columns.length ∧ (eventsOf columns).Sublist (eventsOf (place ev columns)) := by
  induction columns with
  | nil => exact .inl ⟨List.forall_mem_nil _, rfl⟩
  | cons col columns ih =>
    simp only [place]
    split
    next =>
      refine .inr ⟨rfl, ?_⟩
      simp only [eventsOf, List.flatMap_cons, Column.push]
      exact (List.sublist_append_left _ _).append (List.Sublist.refl _)
    next collides =>
      have here : Overlaps startOf endOf col.last ev := by
        rw [← collision_iff]
        simpa using collides
      obtain ⟨all, opened⟩ | ⟨same, grown⟩ := ih
      · refine .inl ⟨List.forall_mem_cons.mpr ⟨here, all⟩, ?_⟩
        rw [opened, List.cons_append]
      · refine .inr ⟨congrArg Nat.succ same, ?_⟩
        simp only [eventsOf, List.flatMap_cons]
        exact (List.Sublist.refl _).append grown

omit [LinearOrder Stamp] in
theorem lasts_sublist (columns : List (Column Stamp)) : (columns.map Column.last).Sublist (eventsOf columns) := by
  induction columns with
  | nil => exact List.Sublist.refl _
  | cons col columns ih =>
    simp only [eventsOf, List.map_cons, List.flatMap_cons]
    have here : [col.last].Sublist col.events := List.singleton_sublist.mpr (List.getLast_mem col.nonempty)
    exact here.append ih

theorem exhibits_place {ev : IndexedEvent Stamp} {columns : List (Column Stamp)} (exhibits : Exhibits columns)
    (before : ∀ other ∈ eventsOf columns, Before startOf endOf other ev) : Exhibits (place ev columns) := by
  obtain ⟨collide, opened⟩ | ⟨same, grown⟩ := place_cases ev columns
  · -- the last events of all columns and the event itself
    have lasts := lasts_sublist columns
    rw [opened]
    refine ⟨columns.map Column.last ++ [ev], ?_, ?_, by simp⟩
    · simp only [eventsOf, List.flatMap_append, List.flatMap_singleton, Column.single]
      exact lasts.append (List.Sublist.refl _)
    · apply pairwise_overlaps_of_common
      · intro other member
        exact (before other (lasts.subset member)).first_le
      · intro other member
        obtain ⟨col, inside, rfl⟩ := List.mem_map.mp member
        exact collide col inside
  · obtain ⟨clique, inside, together, size⟩ := exhibits
    exact ⟨clique, inside.trans grown, together, size.trans same.symm⟩

def AllExhibit (sweep : Sweep Stamp (List (Column Stamp))) : Prop :=
  Exhibits sweep.columns ∧ ∀ columns ∈ sweep.calculatedEvents, Exhibits columns

theorem allExhibit_visit {sweep : Sweep Stamp (List (Column Stamp))} {ev : IndexedEvent Stamp}
    {rest : List (IndexedEvent Stamp)} (grouped : Grouped (ev :: rest) sweep) (exhibit : AllExhibit sweep) :
    AllExhibit (visitGroups sweep ev) := by
  obtain ⟨opened, closed⟩ := exhibit
  obtain ⟨placed, same⟩ | ⟨placed, flushed⟩ := visitGroups_cases sweep ev
  · rw [AllExhibit, placed, same]
    exact ⟨exhibits_place opened fun other member => grouped.order other member ev List.mem_cons_self, closed⟩
  · rw [AllExhibit, placed, flushed]
    refine ⟨exhibits_place exhibits_nil (List.forall_mem_nil _), ?_⟩
    exact List.forall_mem_append.mpr ⟨closed, List.forall_mem_singleton.mpr opened⟩

theorem allExhibit_foldl {events : List (IndexedEvent Stamp)} {sweep : Sweep Stamp (List (Column Stamp))}
    (grouped : Grouped events sweep) (exhibit : AllExhibit sweep) (sorted : events.Pairwise (Before startOf endOf))
    (proper : ∀ ev ∈ events, startOf ev ≤ endOf ev) : AllExhibit (events.foldl visitGroups sweep) := by
  induction events generalizing sweep with
  | nil => exact exhibit
  | cons ev rest ih =>
    obtain ⟨whole, proper⟩ := List.forall_mem_cons.mp proper
    exact ih (grouped.visit sorted whole) (allExhibit_visit grouped exhibit) (List.pairwise_cons.mp sorted).2 proper

omit [LinearOrder Stamp] in
theorem mem_finish {sweep : Sweep Stamp (List (Column Stamp))} {columns : List (Column Stamp)}
    (member : columns ∈ sweep.finish fun columns => [columns]) :
    columns ∈ sweep.calculatedEvents ∨ columns = sweep.columns := by
  unfold Sweep.finish at member
  split at member
  next => simpa [Sweep.flush] using member
  next => exact .inl member

theorem packedGroups_exhibit {events : List (TimelineEvent Stamp)} (proper : ∀ ev ∈ events, ev.start ≤ ev.end_) :
    ∀ columns ∈ packedGroups events, Exhibits columns := by
  intro columns member
  have start : AllExhibit (Sweep.start : Sweep Stamp (List (Column Stamp))) := ⟨exhibits_nil, List.forall_mem_nil _⟩
  obtain ⟨opened, closed⟩ := allExhibit_foldl (grouped_start (sortEvents events)) start (sortEvents_before events)
    (sortEvents_proper proper)
  cases mem_finish member with
  | inl before => exact closed columns before
  | inr final => exact final ▸ opened

/-! ## The largest clique -/

theorem allCollide_iff {events clique : List (TimelineEvent Stamp)} :
    AllCollide events clique ↔ Clique TimelineEvent.start TimelineEvent.end_ events clique := by
  have same : (fun a b : TimelineEvent Stamp => collision a b = true) =
      Overlaps TimelineEvent.start TimelineEvent.end_ := by
    funext a b
    simp [collision, Overlaps]
  unfold AllCollide
  rw [same]
  constructor
  · intro both
    exact ⟨both.1, both.2⟩
  · intro isClique
    exact ⟨isClique.among, isClique.together⟩

theorem Exhibits.allCollide {columns : List (Column Stamp)} (exhibits : Exhibits columns) :
    ∃ clique, AllCollide (groupEvents columns) clique ∧ clique.length = columns.length := by
  obtain ⟨clique, inside, together, size⟩ := exhibits
  refine ⟨clique.map IndexedEvent.toTimelineEvent, allCollide_iff.mpr ⟨(inside.map _).subperm, ?_⟩, ?_⟩
  · exact List.pairwise_map.mpr together
  · rw [List.length_map, size]

/-- No layout without overlaps has fewer columns. -/
theorem Exhibits.le_layout {columns : List (Column Stamp)} (exhibits : Exhibits columns)
    {layout : List (List (TimelineEvent Stamp))} (covers : layout.flatten.Perm (groupEvents columns))
    (apart : ∀ track ∈ layout, track.Pairwise fun a b => ¬ collision a b = true) :
    columns.length ≤ layout.length := by
  obtain ⟨clique, allCollide, size⟩ := exhibits.allCollide
  rw [← size]
  apply (allCollide_iff.mp allCollide).length_le covers
  intro track member
  refine (apart track member).imp ?_
  intro a b free overlaps
  simp only [collision, gt_iff_lt, Bool.and_eq_true, decide_eq_true_eq] at free
  exact free overlaps

theorem OnTracks.clique_le {columns : List (Column Stamp)} (tracks : OnTracks columns)
    {clique : List (TimelineEvent Stamp)} (allCollide : AllCollide (groupEvents columns) clique) :
    clique.length ≤ columns.length := by
  have layout : (columns.map fun col => col.events.map IndexedEvent.toTimelineEvent).flatten = groupEvents columns := by
    rw [groupEvents, eventsOf, List.map_flatMap, List.flatMap_def]
  have within := (allCollide_iff.mp allCollide).length_le (.of_eq layout)
  rw [List.length_map] at within
  apply within
  intro track member
  obtain ⟨col, inside, rfl⟩ := List.mem_map.mp member
  exact List.pairwise_map.mpr (tracks col inside).apart

/-- Every group has as many columns as its largest set of colliding events has
members, which no layout without overlaps can do with less. -/
theorem columns_length_isGreatest (events : List (TimelineEvent Stamp)) (proper : ∀ ev ∈ events, ev.start ≤ ev.end_) :
    ∀ columns ∈ packedGroups events,
      IsGreatest {size | ∃ clique, AllCollide (groupEvents columns) clique ∧ clique.length = size} columns.length ∧
        ∀ layout : List (List (TimelineEvent Stamp)), layout.flatten.Perm (groupEvents columns) →
          (∀ track ∈ layout, track.Pairwise fun a b => ¬ collision a b = true) → columns.length ≤ layout.length := by
  intro columns member
  have exhibits := packedGroups_exhibit proper columns member
  have tracks := (packedGroups_apart proper).1 columns member
  refine ⟨⟨exhibits.allCollide, ?_⟩, fun layout covers apart => exhibits.le_layout covers apart⟩
  rintro size ⟨clique, allCollide, rfl⟩
  exact tracks.clique_le allCollide

theorem columns_length_isGreatest_morning : ∃ columns ∈ packedGroups
      ([⟨9, 12, "", ""⟩, ⟨10, 10, "", ""⟩, ⟨9, 11, "", ""⟩, ⟨12, 13, "", ""⟩] : List (TimelineEvent ℕ)),
    IsGreatest {size | ∃ clique, AllCollide (groupEvents columns) clique ∧ clique.length = size} 3 ∧
      ∀ layout : List (List (TimelineEvent ℕ)), layout.flatten.Perm (groupEvents columns) →
        (∀ track ∈ layout, track.Pairwise fun a b => ¬ collision a b = true) → 3 ≤ layout.length :=
  ⟨_, List.head_mem (by decide), columns_length_isGreatest _ (by decide) _ (List.head_mem (by decide))⟩

/-! ## The width of an event -/

theorem le_expandOver (ev : IndexedEvent Stamp) (columns : List (Column Stamp)) (colSpan : ℕ) :
    colSpan ≤ expandOver ev columns colSpan := by
  induction columns generalizing colSpan with
  | nil => exact le_rfl
  | cons col columns ih =>
    unfold expandOver
    split
    · exact le_rfl
    · exact (Nat.le_succ colSpan).trans (ih (colSpan + 1))

theorem one_le_expand (ev : IndexedEvent Stamp) (i : ℕ) (columns : List (Column Stamp)) : 1 ≤ expand ev i columns :=
  le_expandOver ev _ 1

theorem expand_last (ev : IndexedEvent Stamp) {i : ℕ} {columns : List (Column Stamp)} (last : columns.length = i + 1) :
    expand ev i columns = 1 := by
  rw [expand, ← last, List.drop_length]
  rfl

theorem width_pos_iff {width : ℚ} {span n : ℕ} (some_columns : 0 < n) :
    0 < width * span / n - 10 ↔ 10 * (n : ℚ) < width * span := by
  have columns : (0 : ℚ) < n := by exact_mod_cast some_columns
  rw [sub_pos, lt_div_iff₀ columns]

/-- The events of the last column are the ones to be left without a width first. -/
theorem pack_width_pos_iff {moments : Moments Stamp} {width : ℚ} (wide : 0 < width) (columns : List (Column Stamp)) :
    (∀ box ∈ pack moments width columns, 0 < box.width) ↔ 10 * (columns.length : ℚ) < width := by
  constructor
  · intro visible
    cases size : columns.length with
    | zero => simpa using wide
    | succ i =>
      obtain ⟨column, found⟩ : ∃ column, columns[i]? = some column :=
        ⟨columns[i], List.getElem?_eq_getElem (by omega)⟩
      have shown := visible _ (mem_pack.mpr ⟨i, column, found, column.last, List.getLast_mem column.nonempty, rfl⟩)
      have positive : 0 < width * (expand column.last i columns : ℕ) / (columns.length : ℕ) - 10 := shown
      rw [width_pos_iff (by omega), expand_last column.last size, size, Nat.cast_one, mul_one] at positive
      exact positive
  · intro room box member
    obtain ⟨i, column, found, ev, _, rfl⟩ := mem_pack.mp member
    obtain ⟨inside, _⟩ := List.getElem?_eq_some_iff.mp found
    change 0 < width * (expand ev i columns : ℕ) / (columns.length : ℕ) - 10
    rw [width_pos_iff (by omega)]
    have span : (1 : ℚ) ≤ expand ev i columns := by exact_mod_cast one_le_expand ev i columns
    exact room.trans_le (le_mul_of_one_le_right wide.le span)

theorem groups_perm (events : List (TimelineEvent Stamp)) :
    ((packedGroups events).map groupEvents).flatten.Perm events := by
  have drawn := ((packedGroups_perm events).trans (sortEvents_perm events)).map IndexedEvent.toTimelineEvent
  rw [List.map_flatMap, List.flatMap_def, List.map_map] at drawn
  exact drawn.trans (.of_eq (List.zipIdx_map_fst 0 events))

/-- Every event is left with a width exactly if the screen has more than ten units
for each event of the largest set of colliding ones. -/
theorem populateEvents_width_pos_iff (moments : Moments Stamp) (events : List (TimelineEvent Stamp)) (screenWidth : ℚ)
    (proper : ∀ ev ∈ events, ev.start ≤ ev.end_) (wide : 10 < screenWidth) :
    (∀ box ∈ populateEvents moments events screenWidth, 0 < box.width) ↔
      ∀ clique, AllCollide events clique → 10 * (clique.length : ℚ) < screenWidth := by
  have positive : 0 < screenWidth := by linarith
  obtain ⟨tracks, closed⟩ := packedGroups_apart proper
  rw [populateEvents_eq_groups]
  simp only [List.forall_mem_flatMap, pack_width_pos_iff positive]
  constructor
  · intro room clique allCollide
    have apart : ((packedGroups events).map groupEvents).Pairwise
        fun group later => ∀ ev ∈ group, ∀ other ∈ later, ev.end_ ≤ other.start := by
      refine List.pairwise_map.mpr (closed.imp ?_)
      intro columns later before
      simp only [groupEvents, List.forall_mem_map]
      exact before
    cases (allCollide_iff.mp allCollide).within_group (groups_perm events) apart with
    | inl nothing =>
      rw [nothing]
      simpa using positive
    | inr found =>
      obtain ⟨_, member, within⟩ := found
      obtain ⟨columns, packed, rfl⟩ := List.mem_map.mp member
      have few := (tracks columns packed).clique_le (allCollide_iff.mpr within)
      have fewer : (clique.length : ℚ) ≤ columns.length := by exact_mod_cast few
      linarith [room columns packed]
  · intro room columns packed
    obtain ⟨clique, ⟨among, together⟩, size⟩ := (packedGroups_exhibit proper columns packed).allCollide
    have inside := (List.sublist_flatten_of_mem (List.mem_map_of_mem packed)).subperm.trans (groups_perm events).subperm
    rw [← size]
    exact room clique ⟨among.trans inside, together⟩

theorem populateEvents_width_pos_iff_morning :
    (∀ box ∈ populateEvents hourStamps [⟨9, 12, "", ""⟩, ⟨10, 10, "", ""⟩, ⟨9, 11, "", ""⟩, ⟨12, 13, "", ""⟩] 25,
        0 < box.width) ↔
      ∀ clique, AllCollide [⟨9, 12, "", ""⟩, ⟨10, 10, "", ""⟩, ⟨9, 11, "", ""⟩, ⟨12, 13, "", ""⟩] clique →
        10 * (clique.length : ℚ) < 25 :=
  populateEvents_width_pos_iff hourStamps _ 25 (by decide) (by norm_num)

/-- Thirty invitees who are busy at nine leave no room for any of them on a screen of 355. -/
theorem thirty_invisible :
    ¬ ∀ box ∈ populateEvents hourStamps (List.replicate 30 ⟨9, 10, "", ""⟩) 296, 0 < box.width := by
  decide +kernel

end PlenR.Timeline
