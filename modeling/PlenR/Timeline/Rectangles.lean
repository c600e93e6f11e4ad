import Mathlib.Data.Set.Prod
import PlenR.Screens.GoogleImport
import PlenR.Time.Wall
import PlenR.Timeline.Boxes
import PlenR.Timeline.DayViews

/-! What the pages of the week view show, down to the rectangles.

A page reads the texts of its entries back as instants and hangs each box at the
hours from the start of the day. Texts with four-digit years are in the order of
the instants they are read as, so entries that do not collide as texts follow
each other on the page. Heights count elapsed hours and the sheet has 24 of
them: the box of an event that lasts longer leaves it at the bottom. The style of
a box has a least height, and the box of a shorter event reaches over what follows.
-/

set_option autoImplicit false

namespace PlenR.Timeline.Rectangles

open PlenR.Time PlenR.Util Foundation Foundation.Run PlenR.Timeline.EventCalendar

/-- `moment(instant).diff(moment(other), 'hours', true)`. -/
def diffHours (instant other : ℤ) : ℚ := ((instant - other : ℤ) : ℚ) / 3600000

theorem diffHours_le {first second other : ℤ} : diffHours first other ≤ diffHours second other ↔ first ≤ second := by
  unfold diffHours
  rw [div_le_div_iff_of_pos_right (by norm_num), Int.cast_le]
  omega

theorem diffHours_add (first second third : ℤ) :
    diffHours second first + diffHours third second = diffHours third first := by
  unfold diffHours
  push_cast
  ring

def FourDigits (clock : Clock) (instant : ℤ) : Prop := 0 ≤ clock.yearOf instant ∧ clock.yearOf instant < 10000

instance (clock : Clock) (instant : ℤ) : Decidable (FourDigits clock instant) := inferInstanceAs (Decidable (_ ∧ _))

/-- Texts compare like the instants `moment` reads from them. -/
structure OrderedStamps (clock : DayClock) (Stamp : Type) [LinearOrder Stamp] extends StampFormat clock.toClock Stamp where
  parse_mono : ∀ first second, FourDigits clock.toClock first → FourDigits clock.toClock second → format first ≤ format second →
    parse (format first) ≤ parse (format second)

section Page
variable {clock : DayClock} {Stamp : Type} [LinearOrder Stamp] (stamps : OrderedStamps clock Stamp)

def moments : Moments Stamp where
  -- no formatted time is the empty text
  truthy := fun _ => true
  hoursIntoDay := fun stamp => diffHours (stamps.parse stamp) (clock.day.startOf (clock.day.unitOf (stamps.parse stamp)))
  diffHours := fun stamp other => diffHours (stamps.parse stamp) (stamps.parse other)

/-- An entry of the parse functions of `Calendar`, which does not end before it starts. -/
structure Stamped (entry : TimelineEvent Stamp) : Prop where
  start : ∃ instant, FourDigits clock.toClock instant ∧ entry.start = stamps.format instant
  end_ : ∃ instant, FourDigits clock.toClock instant ∧ entry.end_ = stamps.format instant
  ordered : entry.start ≤ entry.end_

namespace DayView

def LEFT_MARGIN : ℚ := 60 - 1

/-- The boxes of a page, which the constructor and `componentWillReceiveProps` compute alike. -/
def packedEvents (width : ℚ) (events : List (TimelineEvent Stamp)) : List (PackedEvent Stamp) :=
  populateEvents (moments stamps) events (width - LEFT_MARGIN)

/-- `minHeight` of `styles.event`. -/
def minHeight : ℚ := 25

def drawnHeight (box : PackedEvent Stamp) : ℚ := max minHeight box.height

/-- `top` of the line `_renderRedLine` draws for the present time. -/
def redLine (clock : WallClock) (now : ℤ) : ℚ :=
  offset * clock.getHours now + offset * clock.getMinutes now / 60

end DayView

def pageBoxes (props : Props) (entries : List (TimelineEvent Stamp)) (index : ℤ) : List (PackedEvent Stamp) :=
  DayView.packedEvents stamps props.width (getItem clock props stamps.parse entries index)

variable (clock) in
def yOf (day instant : ℤ) : ℚ := diffHours instant (clock.day.startOf day) * offset

def drawnDown (box : PackedEvent Stamp) : Set ℚ := Set.Ico box.top (box.top + DayView.drawnHeight box)

def rectangle (box : PackedEvent Stamp) : Set (ℚ × ℚ) := drawnOn box ×ˢ drawnDown box

/-- From the first to the second instant there is the time of the least height, 25/70 of an hour. -/
def LeastTime (first second : ℤ) : Prop := 9000000 ≤ 7 * (second - first)

/-- What a page shows of its entries. -/
structure Shows (day : ℤ) (width : ℚ) (page : List (TimelineEvent Stamp)) (boxes : List (PackedEvent Stamp)) : Prop where
  boxed : (boxes.map fun box => box.toTimelineEvent).Perm page
  sideBySide : boxes.Pairwise SideBySide
  apart : boxes.Pairwise fun box other => (Disjoint (rectangle box) (rectangle other) ↔
    Disjoint (drawnOn box) (drawnOn other) ∨ LeastTime (stamps.parse box.start) (stamps.parse other.start) ∨
      LeastTime (stamps.parse other.start) (stamps.parse box.start))
  within : ∀ box ∈ boxes, 0 ≤ box.left ∧ box.left + box.width ≤ width - DayView.LEFT_MARGIN - 10
  below : ∀ box ∈ boxes, 0 ≤ box.top ∧ 0 ≤ box.height
  crossed : ∀ box ∈ boxes, ∀ instant, yOf clock day instant ∈ drawnDown box ↔
    stamps.parse box.start ≤ instant ∧
      (instant < stamps.parse box.end_ ∨ ¬ LeastTime (stamps.parse box.start) instant)
  onSheet : ∀ box ∈ boxes, box.top + DayView.drawnHeight box ≤ CALENDER_HEIGHT ↔
    stamps.parse box.end_ ≤ clock.day.startOf day + 24 * 3600000 ∧
      LeastTime (stamps.parse box.start) (clock.day.startOf day + 24 * 3600000)

end Page

/-! ## Positions on a page -/

section Positions
variable {clock : DayClock} {day : ℤ}

theorem yOf_le {first second : ℤ} : yOf clock day first ≤ yOf clock day second ↔ first ≤ second := by
  have positive : 0 < offset := by norm_num [offset, CALENDER_HEIGHT]
  rw [yOf, yOf, mul_le_mul_iff_left₀ positive, diffHours_le]

theorem yOf_lt {first second : ℤ} : yOf clock day first < yOf clock day second ↔ first < second :=
  lt_iff_lt_of_le_iff_le yOf_le

variable (clock day) in
theorem yOf_startOf : yOf clock day (clock.day.startOf day) = 0 := by simp [yOf, diffHours]

variable (clock day) in
theorem yOf_sheet : yOf clock day (clock.day.startOf day + 24 * 3600000) = CALENDER_HEIGHT := by
  norm_num [yOf, diffHours, offset, CALENDER_HEIGHT]

theorem yOf_add_minHeight_le {first second : ℤ} :
    yOf clock day first + DayView.minHeight ≤ yOf clock day second ↔ LeastTime first second := by
  have apart : yOf clock day second - yOf clock day first = (second - first : ℤ) / 3600000 * 70 := by
    norm_num [yOf, diffHours, offset, CALENDER_HEIGHT]
    ring
  rw [← le_sub_iff_add_le', apart, LeastTime, DayView.minHeight, div_mul_eq_mul_div, le_div_iff₀ (by norm_num)]
  constructor
  · intro enough
    have whole : (25 * 3600000 : ℤ) ≤ (second - first) * 70 := by exact_mod_cast enough
    omega
  · intro enough
    have whole : (25 * 3600000 : ℤ) ≤ (second - first) * 70 := by omega
    exact_mod_cast whole

end Positions

/-- What hangs below something, and is drawn with a least height, is apart from it if its top is that much lower. -/
theorem drawn_disjoint_iff {top bottom top' bottom' least : ℚ} (positive : 0 < least) (order : top ≤ bottom)
    (follows : bottom ≤ top') :
    Disjoint (Set.Ico top (max (top + least) bottom)) (Set.Ico top' (max (top' + least) bottom')) ↔
      top + least ≤ top' := by
  have sunk : ¬ max (top' + least) bottom' ≤ top' := by
    rw [max_le_iff]
    intro both
    linarith [both.1]
  rw [Set.Ico_disjoint_Ico, max_eq_right (order.trans follows), min_le_iff, max_le_iff]
  constructor
  · intro either
    exact (either.resolve_right sunk).1
  · exact fun enough => .inl ⟨enough, follows⟩

/-! ## The boxes of a page -/

section Boxes
variable {clock : DayClock} {Stamp : Type} [LinearOrder Stamp] {stamps : OrderedStamps clock Stamp}

theorem parse_le {entry other : TimelineEvent Stamp} (stamped : Stamped stamps entry) (otherStamped : Stamped stamps other)
    (follows : entry.end_ ≤ other.start) : stamps.parse entry.end_ ≤ stamps.parse other.start := by
  obtain ⟨last, lastDigits, lastText⟩ := stamped.end_
  obtain ⟨first, firstDigits, firstText⟩ := otherStamped.start
  rw [lastText, firstText] at follows ⊢
  exact stamps.parse_mono last first lastDigits firstDigits follows

theorem parse_start_le {entry : TimelineEvent Stamp} (stamped : Stamped stamps entry) :
    stamps.parse entry.start ≤ stamps.parse entry.end_ := by
  obtain ⟨first, firstDigits, firstText⟩ := stamped.start
  obtain ⟨last, lastDigits, lastText⟩ := stamped.end_
  have ordered := stamped.ordered
  rw [firstText, lastText] at ordered ⊢
  exact stamps.parse_mono first last firstDigits lastDigits ordered

theorem buildEvent_top {ev : IndexedEvent Stamp} {day : ℤ} (starts : clock.day.unitOf (stamps.parse ev.start) = day)
    (left width : ℚ) : (buildEvent (moments stamps) ev left width).top = yOf clock day (stamps.parse ev.start) := by
  rw [← starts]
  rfl

theorem buildEvent_bottom {ev : IndexedEvent Stamp} {day : ℤ} (starts : clock.day.unitOf (stamps.parse ev.start) = day)
    (left width : ℚ) :
    (buildEvent (moments stamps) ev left width).top + (buildEvent (moments stamps) ev left width).height =
      yOf clock day (stamps.parse ev.end_) := by
  rw [buildEvent_top starts]
  change diffHours _ _ * offset + diffHours _ _ * offset = diffHours _ _ * offset
  rw [← add_mul, diffHours_add]

structure Hung (stamps : OrderedStamps clock Stamp) (day : ℤ) (box : PackedEvent Stamp) : Prop where
  top : box.top = yOf clock day (stamps.parse box.start)
  bottom : box.top + box.height = yOf clock day (stamps.parse box.end_)
  onDay : clock.day.unitOf (stamps.parse box.start) = day

section Hung
variable {day : ℤ} {box : PackedEvent Stamp}

theorem Hung.drawnDown_eq (hung : Hung stamps day box) : drawnDown box =
    Set.Ico (yOf clock day (stamps.parse box.start))
      (max (yOf clock day (stamps.parse box.start) + DayView.minHeight) (yOf clock day (stamps.parse box.end_))) := by
  rw [drawnDown, DayView.drawnHeight, ← max_add_add_left, hung.bottom, hung.top]

theorem Hung.crossed (hung : Hung stamps day box) (instant : ℤ) : yOf clock day instant ∈ drawnDown box ↔
    stamps.parse box.start ≤ instant ∧
      (instant < stamps.parse box.end_ ∨ ¬ LeastTime (stamps.parse box.start) instant) := by
  rw [hung.drawnDown_eq, Set.mem_Ico, yOf_le, lt_max_iff, yOf_lt, ← not_le, yOf_add_minHeight_le, or_comm]

theorem Hung.onSheet (hung : Hung stamps day box) : box.top + DayView.drawnHeight box ≤ CALENDER_HEIGHT ↔
    stamps.parse box.end_ ≤ clock.day.startOf day + 24 * 3600000 ∧
      LeastTime (stamps.parse box.start) (clock.day.startOf day + 24 * 3600000) := by
  rw [DayView.drawnHeight, ← max_add_add_left, hung.bottom, hung.top, ← yOf_sheet clock day, max_le_iff, yOf_le,
    yOf_add_minHeight_le, and_comm]

theorem Hung.below (hung : Hung stamps day box) (stamped : Stamped stamps box.toTimelineEvent) :
    0 ≤ box.top ∧ 0 ≤ box.height := by
  constructor
  · rw [hung.top, ← yOf_startOf clock day, yOf_le, ← hung.onDay]
    exact (clock.day.startOf_le_iff _ _).mpr le_rfl
  · have order : yOf clock day (stamps.parse box.start) ≤ yOf clock day (stamps.parse box.end_) :=
      yOf_le.mpr (parse_start_le stamped)
    rw [← hung.top, ← hung.bottom] at order
    linarith

theorem Hung.drawnDown_disjoint_iff {other : PackedEvent Stamp} (hung : Hung stamps day box)
    (otherHung : Hung stamps day other) (stamped : Stamped stamps box.toTimelineEvent)
    (otherStamped : Stamped stamps other.toTimelineEvent) (follows : box.end_ ≤ other.start) :
    Disjoint (drawnDown box) (drawnDown other) ↔
      LeastTime (stamps.parse box.start) (stamps.parse other.start) ∨
        LeastTime (stamps.parse other.start) (stamps.parse box.start) := by
  have order := parse_start_le stamped
  have after := parse_le stamped otherStamped follows
  have never : ¬ LeastTime (stamps.parse other.start) (stamps.parse box.start) := by
    unfold LeastTime
    omega
  rw [hung.drawnDown_eq, otherHung.drawnDown_eq, or_iff_left never,
    drawn_disjoint_iff (by norm_num [DayView.minHeight]) (yOf_le.mpr order) (yOf_le.mpr after), yOf_add_minHeight_le]

theorem Hung.apart {other : PackedEvent Stamp} (hung : Hung stamps day box) (otherHung : Hung stamps day other)
    (stamped : Stamped stamps box.toTimelineEvent) (otherStamped : Stamped stamps other.toTimelineEvent)
    (sideBySide : SideBySide box other) : Disjoint (rectangle box) (rectangle other) ↔
      Disjoint (drawnOn box) (drawnOn other) ∨ LeastTime (stamps.parse box.start) (stamps.parse other.start) ∨
        LeastTime (stamps.parse other.start) (stamps.parse box.start) := by
  unfold rectangle
  rw [Set.disjoint_prod]
  by_cases collides : collision box.toTimelineEvent other.toTimelineEvent = true
  · exact iff_of_true (.inl (sideBySide collides)) (.inl (sideBySide collides))
  · simp only [collision, gt_iff_lt, Bool.and_eq_true, decide_eq_true_eq, not_and_or, not_lt] at collides
    apply or_congr_right
    obtain before | after := collides
    · exact hung.drawnDown_disjoint_iff otherHung stamped otherStamped before
    · rw [disjoint_comm, or_comm]
      exact otherHung.drawnDown_disjoint_iff hung otherStamped stamped after

end Hung

theorem mem_of_packedEvents {events : List (TimelineEvent Stamp)} {width : ℚ} {box : PackedEvent Stamp}
    (member : box ∈ DayView.packedEvents stamps width events) : box.toTimelineEvent ∈ events := by
  have indexed := (populateEvents_perm _ _ _).mem_iff.mp (List.mem_map_of_mem member)
  obtain ⟨⟨entry, index⟩, inside, same⟩ := List.mem_map.mp indexed
  rw [← same]
  exact List.fst_mem_of_mem_zipIdx inside

theorem hung_of_mem {events : List (TimelineEvent Stamp)} {day : ℤ} {width : ℚ} {box : PackedEvent Stamp}
    (onDay : ∀ entry ∈ events, clock.day.unitOf (stamps.parse entry.start) = day)
    (member : box ∈ DayView.packedEvents stamps width events) : Hung stamps day box := by
  have starts := onDay _ (mem_of_packedEvents member)
  unfold DayView.packedEvents at member
  rw [populateEvents_eq_groups] at member
  obtain ⟨columns, _, packed⟩ := List.mem_flatMap.mp member
  obtain ⟨_, _, _, ev, _, rfl⟩ := mem_pack.mp packed
  exact { top := buildEvent_top starts _ _, bottom := buildEvent_bottom starts _ _, onDay := starts }

theorem of_getItem (props : Props) {entries : List (TimelineEvent Stamp)} (index : ℤ) :
    ∀ entry ∈ getItem clock props stamps.parse entries index, entry ∈ entries ∧
      clock.day.unitOf (stamps.parse entry.start) = clock.day.unitOf (pageDate clock props index) := by
  intro entry member
  obtain ⟨known, starts⟩ := List.mem_filter.mp member
  simp only [Bool.and_eq_true, decide_eq_true_eq] at starts
  exact ⟨known, (clock.day.within_iff _ _).mp starts⟩

theorem hung_of_page (props : Props) (entries : List (TimelineEvent Stamp)) (index : ℤ) :
    ∀ box ∈ pageBoxes stamps props entries index, Hung stamps (clock.day.unitOf (pageDate clock props index)) box :=
  fun _ member => hung_of_mem (fun entry listed => (of_getItem props index entry listed).2) member

theorem packedEvents_boxed (width : ℚ) (events : List (TimelineEvent Stamp)) :
    ((DayView.packedEvents stamps width events).map fun box => box.toTimelineEvent).Perm events := by
  have drawn := (populateEvents_perm (moments stamps) events (width - DayView.LEFT_MARGIN)).map
    IndexedEvent.toTimelineEvent
  rw [List.map_map, List.map_map] at drawn
  refine drawn.trans (.of_eq ?_)
  exact List.zipIdx_map_fst 0 events

end Boxes

/-! ## The entries the screens make -/

section Entries
variable {clock : DayClock} {Stamp : Type} [LinearOrder Stamp] (stamps : OrderedStamps clock Stamp)

structure Writable (event : Event) : Prop where
  start : FourDigits clock.toClock event.start
  end_ : FourDigits clock.toClock event.end_
  ordered : stamps.format event.start ≤ stamps.format event.end_

variable {stamps} {name : String} {entries : List (TimelineEvent Stamp)}

theorem Writable.stamped {event : Event} (writable : Writable stamps event) (title summary : String) :
    Stamped stamps { start := stamps.format event.start, end_ := stamps.format event.end_, title, summary } where
  start := ⟨event.start, writable.start, rfl⟩
  end_ := ⟨event.end_, writable.end_, rfl⟩
  ordered := writable.ordered

theorem stamped_parseGoogleForTimeline {items : List Event.GoogleItem}
    (writable : ∀ event ∈ Screens.GoogleImport.eventsOf clock.toClock items, Writable stamps event)
    (read : Calendar.parseGoogleForTimeline stamps.format clock.toClock (some items) name = .ok entries) :
    ∀ entry ∈ entries, Stamped stamps entry := by
  rw [Screens.GoogleImport.parseGoogleForTimeline_eq] at read
  cases decoding : items.mapM (Event.formatGoogle clock.toClock) with
  | error error =>
    rw [decoding] at read
    cases read
  | ok events =>
    rw [decoding] at read
    cases read
    obtain ⟨_, rfl⟩ := Screens.GoogleImport.mapM_formatGoogle_iff.mp decoding
    intro entry member
    obtain ⟨event, known, rfl⟩ := List.mem_map.mp member
    exact (writable event known).stamped _ _

end Entries

section Pages
variable {clock : DayClock} {Stamp : Type} [LinearOrder Stamp] (stamps : OrderedStamps clock Stamp)

def orderedSeconds : OrderedStamps universalDays ℤ where
  toStampFormat := universalStamps
  parse_mono := by
    intro first second _ _ follows
    change first / 1000 * 1000 ≤ second / 1000 * 1000
    change first / 1000 ≤ second / 1000 at follows
    omega

theorem pageBoxes_perm (props : Props) (entries : List (TimelineEvent Stamp)) (index : ℤ) :
    ((pageBoxes stamps props entries index).map fun box => box.toTimelineEvent).Perm
      (entries.filter fun entry =>
        clock.day.unitOf (stamps.parse entry.start) = clock.day.unitOf (pageDate clock props index)) := by
  refine (packedEvents_boxed _ _).trans (.of_eq ?_)
  apply List.filter_congr
  intro entry _
  rw [Bool.eq_iff_iff, Bool.and_eq_true, decide_eq_true_iff, decide_eq_true_iff, decide_eq_true_iff,
    clock.day.within_iff]

/-- The pages together show every entry that starts in their days, each once. -/
theorem pages_show_window (props : Props) (entries : List (TimelineEvent Stamp)) :
    ((upTo 0 (props.size * 2)).flatMap fun index =>
      (pageBoxes stamps props entries index).map fun box => box.toTimelineEvent).Perm
        (entries.filter fun entry =>
          clock.day.unitOf props.initDate - props.size ≤ clock.day.unitOf (stamps.parse entry.start) ∧
            clock.day.unitOf (stamps.parse entry.start) < clock.day.unitOf props.initDate + props.size) := by
  have drawn : ∀ index ∈ upTo 0 (props.size * 2),
      ((pageBoxes stamps props entries index).map fun box => box.toTimelineEvent).Perm
        (entries.filter fun entry => clock.day.unitOf (stamps.parse entry.start) =
          clock.day.unitOf props.initDate - props.size + index) := by
    intro index _
    refine (pageBoxes_perm stamps props entries index).trans (.of_eq ?_)
    apply List.filter_congr
    intro entry _
    rw [day_pageDate, decide_eq_decide]
    omega
  refine (List.Perm.flatMap_left _ drawn).trans ?_
  -- the days are counted from the first one of the window
  rw [List.flatMap_def, map_upTo_shift fun day => entries.filter fun entry => clock.day.unitOf (stamps.parse entry.start) = day,
    ← List.flatMap_def]
  refine (flatMap_upTo_perm (fun entry => clock.day.unitOf (stamps.parse entry.start)) entries _ _).trans (.of_eq ?_)
  apply List.filter_congr
  intro entry _
  rw [decide_eq_decide]
  omega

/-- The pages a tap on each day of the bar leads to draw every entry that starts on
one of these days, each once. -/
def BarShowsWeek (props : Props) (entries : List (TimelineEvent Stamp)) (state : EventCalendar.State) : Prop :=
  ((week clock props).flatMap fun day =>
    (pageBoxes stamps props entries (tapDay clock props day state).index).map fun box => box.toTimelineEvent).Perm
      (entries.filter fun entry =>
        clock.day.unitOf props.start ≤ clock.day.unitOf (stamps.parse entry.start) ∧
          clock.day.unitOf (stamps.parse entry.start) ≤ clock.day.unitOf props.end_)

theorem barShowsWeek_of_inStep {props : Props} {state : EventCalendar.State} (inStep : InStep clock props state)
    (entries : List (TimelineEvent Stamp)) : BarShowsWeek stamps props entries state := by
  have drawn : ∀ day ∈ week clock props,
      ((pageBoxes stamps props entries (tapDay clock props day state).index).map fun box => box.toTimelineEvent).Perm
        (entries.filter fun entry => clock.day.unitOf (stamps.parse entry.start) = clock.day.unitOf day) := by
    intro day shown
    rw [← (inStep.tapped day shown).2.2.2]
    exact pageBoxes_perm stamps props entries _
  refine (List.Perm.flatMap_left _ drawn).trans ?_
  have days := List.flatMap_map clock.day.unitOf
    (fun day => entries.filter fun entry => clock.day.unitOf (stamps.parse entry.start) = day) (week clock props)
  rw [← days, week, weekFrom_days]
  refine (flatMap_upTo_perm (fun entry => clock.day.unitOf (stamps.parse entry.start)) entries _ _).trans (.of_eq ?_)
  apply List.filter_congr
  intro entry _
  rw [decide_eq_decide]
  omega

/-- Whatever is done in the form of an organised event, and wherever taps and swipes
have led in the view opened for it: the days of its bar lead to pages that together
show everything that starts in the seven days of the event, each entry once. -/
theorem organised_barShowsWeek (entries : List (TimelineEvent Stamp)) (currentDate : ℤ)
    (changes : List Screens.OrganiseEvent.Action) (width : ℚ) (actions : List Action) :
    Always (Screens.OrganiseEvent.step clock)
      (fun form =>
        clock.day.unitOf form.state.end_ = clock.day.unitOf form.state.start + 6 ∧
          Always (EventCalendar.step clock (opened clock form.state.start form.state.end_ width))
            (BarShowsWeek stamps (opened clock form.state.start form.state.end_ width) entries)
            (.initial (opened clock form.state.start form.state.end_ width)) actions)
      (.initial clock currentDate) changes := by
  have start : clock.day.unitOf (Screens.OrganiseEvent.Form.initial clock currentDate).state.end_ =
      clock.day.unitOf (Screens.OrganiseEvent.Form.initial clock currentDate).state.start + 6 :=
    clock.day_addDays currentDate 6
  apply (always_of_step (fun form action next spans moved => organised_spans spans moved) changes start).mono
  intro form spans
  refine ⟨spans, ?_⟩
  apply (weekShown_of_spans spans width actions).inStep.mono
  exact fun state inStep => barShowsWeek_of_inStep stamps inStep entries

end Pages

/-! ## The line of the present time -/

/-- No hour was left out or came twice since the day has started. -/
def Regular (clock : WallClock) (now : ℤ) : Prop :=
  clock.day.startOf (clock.day.unitOf now) + (clock.getHours now * 60 + clock.getMinutes now) * 60000 =
    clock.minute.startOf (clock.minute.unitOf now)

instance (clock : WallClock) (now : ℤ) : Decidable (Regular clock now) := inferInstanceAs (Decidable (_ = _))

theorem redLine_eq {clock : WallClock} {now : ℤ} (regular : Regular clock now) :
    DayView.redLine clock now =
      yOf clock.toDayClock (clock.day.unitOf now) (clock.minute.startOf (clock.minute.unitOf now)) := by
  rw [← regular, DayView.redLine, yOf, diffHours]
  push_cast
  ring

/-- On the page of today the red line crosses the boxes of what is under way in the
present minute, or has started within the time of the least height, and no other box. -/
theorem redLine_crosses {clock : WallClock} {Stamp : Type} [LinearOrder Stamp]
    (stamps : OrderedStamps clock.toDayClock Stamp) (props : Props) (entries : List (TimelineEvent Stamp))
    (index now : ℤ) (today : clock.day.unitOf now = clock.day.unitOf (pageDate clock.toDayClock props index))
    (regular : Regular clock now) :
    ∀ box ∈ pageBoxes stamps props entries index, DayView.redLine clock now ∈ drawnDown box ↔
      stamps.parse box.start ≤ clock.minute.startOf (clock.minute.unitOf now) ∧
        (clock.minute.startOf (clock.minute.unitOf now) < stamps.parse box.end_ ∨
          ¬ LeastTime (stamps.parse box.start) (clock.minute.startOf (clock.minute.unitOf now))) := by
  intro box member
  rw [redLine_eq regular, today]
  exact (hung_of_page props entries index box member).crossed _

/-- In the afternoon of 30 July there is the box of the trip, and the line crosses it if
the trip is under way. -/
theorem redLine_crosses_trip :
    pageBoxes orderedSeconds DayViews.julyWeek [DayViews.entryOf universalStamps "Bob" DayViews.trip] 0 ≠ [] ∧
      ∀ box ∈ pageBoxes orderedSeconds DayViews.julyWeek [DayViews.entryOf universalStamps "Bob" DayViews.trip] 0,
        DayView.redLine universalWall 1532955600000 ∈ drawnDown box ↔
          orderedSeconds.parse box.start ≤ universalWall.minute.startOf (universalWall.minute.unitOf 1532955600000) ∧
            (universalWall.minute.startOf (universalWall.minute.unitOf 1532955600000) < orderedSeconds.parse box.end_ ∨
              ¬ LeastTime (orderedSeconds.parse box.start)
                (universalWall.minute.startOf (universalWall.minute.unitOf 1532955600000))) :=
  ⟨by decide +kernel,
    @redLine_crosses universalWall ℤ _ orderedSeconds DayViews.julyWeek
      [DayViews.entryOf universalStamps "Bob" DayViews.trip] 0 1532955600000 (by decide) (by decide)⟩

end PlenR.Timeline.Rectangles
