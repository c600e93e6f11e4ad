import Mathlib.Data.List.Basic
import Mathlib.Data.List.Perm.Subperm
import Mathlib.Order.Lattice

/-! Intervals laid on tracks.

Items occupy an interval of a linearly ordered time line, possibly of length
zero. On a track each item ends before the next one starts. A scheduler that
visits items by start, then by end, and looks at the last item of a track only,
never lays overlapping items on one track. Items that all overlap each other
need a track each, so a clique bounds the tracks of every layout from below.
-/

set_option autoImplicit false

namespace Foundation.Tracks

variable {Item Point : Type} [LinearOrder Point] (first last : Item → Point)

/-- Two items are under way together. -/
def Overlaps (item other : Item) : Prop := first other < last item ∧ first item < last other

/-- Visiting order: by start, then by end. -/
def Before (item other : Item) : Prop :=
  first item < first other ∨ first item = first other ∧ last item ≤ last other

def Successive (track : List Item) : Prop :=
  track.Pairwise (fun item later => last item ≤ first later)

variable {first last} {item other : Item}

theorem Before.first_le (before : Before first last item other) : first item ≤ first other := by
  rcases before with earlier | ⟨same, _⟩
  · exact earlier.le
  · exact same.le

/-- Items visited in order that do not overlap follow each other. Only items of
length zero at one point could be the other way round, and they are equal there. -/
theorem last_le_first (before : Before first last item other) (proper : first other ≤ last other)
    (apart : ¬ Overlaps first last item other) : last item ≤ first other := by
  by_contra late
  have early : last other ≤ first item := not_lt.mp fun earlier => apart ⟨not_le.mp late, earlier⟩
  rcases before with earlier | ⟨same, ends⟩
  · exact absurd (earlier.trans_le (proper.trans early)) (lt_irrefl _)
  · exact late (ends.trans (early.trans same.le))

theorem Successive.push {track : List Item} (successive : Successive first last track)
    (proper : ∀ item ∈ track, first item ≤ last item) (nonempty : track ≠ [])
    (follows : last (track.getLast nonempty) ≤ first other) :
    Successive first last (track ++ [other]) := by
  -- items before the last one end before it starts, and so before it ends
  have all : ∀ item ∈ track, last item ≤ first other := by
    intro item member
    rw [← List.dropLast_append_getLast nonempty] at successive member
    rcases List.mem_append.mp member with earlier | final
    · have next := (List.pairwise_append.mp successive).2.2 item earlier _ (List.mem_singleton_self _)
      exact next.trans ((proper _ (List.getLast_mem nonempty)).trans follows)
    · rw [List.mem_singleton.mp final]
      exact follows
  refine List.pairwise_append.mpr ⟨successive, List.pairwise_singleton _ _, ?_⟩
  intro item member next final
  rw [List.mem_singleton.mp final]
  exact all item member

/-! ## Cliques -/

/-- Some of the items, each as often as it occurs, that are all under way together. -/
structure Clique (first last : Item → Point) (items clique : List Item) : Prop where
  among : clique.Subperm items
  together : clique.Pairwise (Overlaps first last)

theorem Overlaps.symm (overlaps : Overlaps first last item other) : Overlaps first last other item :=
  ⟨overlaps.2, overlaps.1⟩

/-- Items under way when another one starts are under way together. -/
theorem overlaps_of_common {next : Item} (starts : first item ≤ first other) (overlaps : Overlaps first last item other)
    (startsToo : first next ≤ first other) (overlapsToo : Overlaps first last next other) :
    Overlaps first last item next :=
  ⟨startsToo.trans_lt overlaps.1, starts.trans_lt overlapsToo.1⟩

theorem pairwise_overlaps_of_common {items : List Item} (starts : ∀ item ∈ items, first item ≤ first other)
    (overlaps : ∀ item ∈ items, Overlaps first last item other) :
    (items ++ [other]).Pairwise (Overlaps first last) := by
  refine List.pairwise_append.mpr ⟨?_, List.pairwise_singleton _ _, ?_⟩
  · refine List.pairwise_of_forall_mem_list ?_
    intro item member next inside
    exact overlaps_of_common (starts item member) (overlaps item member) (starts next inside) (overlaps next inside)
  · intro item member final here
    rw [List.mem_singleton.mp here]
    exact overlaps item member

theorem Successive.apart {track : List Item} (successive : Successive first last track) :
    track.Pairwise (fun item later => ¬ Overlaps first last item later) :=
  successive.imp fun ends overlaps => absurd overlaps.1 ends.not_gt

theorem length_le_of_sublist {tracks : List (List Item)}
    (apart : ∀ track ∈ tracks, track.Pairwise fun item later => ¬ Overlaps first last item later)
    {clique : List Item} (inside : clique.Sublist tracks.flatten) (together : clique.Pairwise (Overlaps first last)) :
    clique.length ≤ tracks.length := by
  induction tracks generalizing clique with
  | nil =>
    rw [List.sublist_nil.mp inside]
    exact Nat.le_refl 0
  | cons track tracks ih =>
    obtain ⟨here, rest, rfl, onTrack, elsewhere⟩ := List.sublist_append_iff.mp inside
    obtain ⟨apartHere, apart⟩ := List.forall_mem_cons.mp apart
    obtain ⟨togetherHere, togetherRest, _⟩ := List.pairwise_append.mp together
    have single : here.length ≤ 1 := by
      match here with
      | [] => exact Nat.zero_le 1
      | [_] => exact Nat.le_refl 1
      | item :: later :: _ =>
        have overlaps := (List.pairwise_cons.mp togetherHere).1 later List.mem_cons_self
        exact absurd overlaps ((List.pairwise_cons.mp (apartHere.sublist onTrack)).1 later List.mem_cons_self)
    have others := ih apart elsewhere togetherRest
    rw [List.length_append, List.length_cons]
    omega

theorem Clique.length_le {items clique : List Item} (isClique : Clique first last items clique)
    {tracks : List (List Item)} (layout : tracks.flatten.Perm items)
    (apart : ∀ track ∈ tracks, track.Pairwise fun item later => ¬ Overlaps first last item later) :
    clique.length ≤ tracks.length := by
  obtain ⟨arranged, same, inside⟩ := isClique.among.trans layout.symm.subperm
  rw [← same.length_eq]
  exact length_le_of_sublist apart inside (same.symm.pairwise isClique.together fun overlaps => overlaps.symm)

/-- Where each group is over before the next one starts, a clique lies in one group. -/
theorem exists_sublist_of_pairwise {groups : List (List Item)}
    (ended : groups.Pairwise fun group later => ∀ item ∈ group, ∀ other ∈ later, last item ≤ first other)
    {clique : List Item} (inside : clique.Sublist groups.flatten) (together : clique.Pairwise (Overlaps first last)) :
    clique = [] ∨ ∃ group ∈ groups, clique.Sublist group := by
  induction groups generalizing clique with
  | nil => exact .inl (List.sublist_nil.mp inside)
  | cons group groups ih =>
    obtain ⟨here, rest, rfl, within, elsewhere⟩ := List.sublist_append_iff.mp inside
    obtain ⟨endedHere, ended⟩ := List.pairwise_cons.mp ended
    obtain ⟨_, togetherRest, across⟩ := List.pairwise_append.mp together
    cases ih ended elsewhere togetherRest with
    | inl nothing =>
      rw [nothing, List.append_nil]
      exact .inr ⟨group, List.mem_cons_self, within⟩
    | inr found =>
      obtain ⟨later, member, behind⟩ := found
      match here, rest with
      | [], rest => exact .inr ⟨later, List.mem_cons_of_mem _ member, behind⟩
      | item :: here, [] =>
        rw [List.append_nil]
        exact .inr ⟨group, List.mem_cons_self, within⟩
      | item :: here, other :: rest =>
        -- an item of this group is over when one of a later group starts
        have overlaps := across item List.mem_cons_self other List.mem_cons_self
        have ends := endedHere later member item (within.subset List.mem_cons_self) other
          (behind.subset List.mem_cons_self)
        exact absurd overlaps.1 ends.not_gt

theorem Clique.within_group {items clique : List Item} (isClique : Clique first last items clique)
    {groups : List (List Item)} (all : groups.flatten.Perm items)
    (ended : groups.Pairwise fun group later => ∀ item ∈ group, ∀ other ∈ later, last item ≤ first other) :
    clique = [] ∨ ∃ group ∈ groups, Clique first last group clique := by
  obtain ⟨arranged, same, inside⟩ := isClique.among.trans all.symm.subperm
  have together := same.symm.pairwise isClique.together fun overlaps => overlaps.symm
  cases exists_sublist_of_pairwise ended inside together with
  | inl nothing =>
    rw [nothing] at same
    exact .inl (List.nil_perm.mp same)
  | inr found =>
    obtain ⟨group, member, within⟩ := found
    exact .inr ⟨group, member, same.symm.subperm.trans within.subperm, isClique.together⟩

end Foundation.Tracks
