import Mathlib.Tactic.Linarith
import Mathlib.Tactic.Ring
import PlenR.Foundation.Run
import PlenR.Screens.MyPlenR

/-! The list of month pages under paging.

The list starts as the months from January 1918 to the one after the screen was
opened, and each forward turn offers the month after the new page. Whether that
month is listed already is decided by keys, but the first pages and the added
ones have keys of different formats, so a first page is never recognised. The
list stays right exactly if forward turns lead to months after the opening one.
-/

set_option autoImplicit false

namespace PlenR.Screens.MyPlenR

open PlenR.Time PlenR.Util Foundation Foundation.Run

/-- January 1918, counting all months. -/
def firstMonth : ℤ := 12 * 1918

structure PageTurn where
  today : ℤ
  index : ℕ

def turn (clock : Clock) (state : State) (page : PageTurn) : Option State :=
  if page.index < state.yearMonthData.length then
    some (state.handlePageChange clock page.today (300 * page.index)).1
  else none

/-- The pages are consecutive months, and the page scrolled to is that of `currentTime`,
so a tap selects a day of the month that is shown. -/
structure PagesRight (clock : Clock) (state : State) : Prop where
  consecutive : state.yearMonthData.map (fun item => (item.year, item.month)) =
    (upTo firstMonth (firstMonth + state.yearMonthData.length)).map fun month => (month / 12, month % 12)
  shown : ∃ (index : ℕ) (item : YearMonth), state.scrollOffset = 300 * index ∧
    state.yearMonthData[index]? = some item ∧
    item.month = clock.monthOf state.currentTime ∧ item.year = clock.yearOf state.currentTime ∧
    ∀ day, clock.day.unitOf (state.selectDay clock day).currentTime =
      clock.monthOfDay.startOf (12 * item.year + item.month) + (day - 1)

def PastOpening (clock : Clock) (opened : ℤ) (state : State) (page : PageTurn) : Prop :=
  state.scrollOffset < 300 * page.index → clock.month.unitOf opened < firstMonth + page.index

/-! ## One page turn -/

section Turn
variable {clock : Clock} {state : State}

theorem month_shownTime (today time : ℤ) :
    clock.month.unitOf (State.shownTime clock today time) = clock.month.unitOf time := by
  unfold State.shownTime
  by_cases current : isSame clock.month time today
  · rw [if_pos current]
    exact ((isSame_iff clock.month time today).mp current).symm
  · rw [if_neg current]
    exact clock.month.adjoint.u_l_u_eq_u time

theorem beyond_threshold_iff (old index : ℕ) : (300 * (index : ℚ) - 300 * old > 160) ↔ old < index := by
  constructor
  · intro far
    by_contra before
    have order : (index : ℚ) ≤ old := by exact_mod_cast Nat.le_of_not_lt before
    linarith
  · intro before
    have order : (old : ℚ) + 1 ≤ index := by exact_mod_cast before
    linarith

theorem pages_between (old index : ℕ) : (300 * (index : ℚ) - 300 * old) / 300 = ((index - old : ℤ) : ℚ) := by
  push_cast
  ring

theorem handlePageChange_page (today : ℤ) {old index : ℕ} (offset : state.scrollOffset = 300 * old) :
    (state.handlePageChange clock today (300 * index)).1 =
      if old < index then
        { state with
          scrollOffset := 300 * index
          currentTime := State.shownTime clock today (clock.addMonths state.currentTime (index - old))
          yearMonthData := state.checkIfCalendarDataExists
            (futureMonth clock (clock.addMonths (clock.addMonths state.currentTime (index - old)) 1))
          refresh := !state.refresh }
      else if index < old then
        { state with
          scrollOffset := 300 * index
          currentTime := State.shownTime clock today (clock.addMonths state.currentTime (index - old))
          refresh := !state.refresh }
      else state := by
  have forward : clock.absRound ((300 * (index : ℚ) - state.scrollOffset) / 300) = index - old := by
    rw [offset, pages_between, clock.absRound_intCast]
  have back : clock.absRound (-(300 * (index : ℚ) - state.scrollOffset) / 300) = -(index - old) := by
    rw [offset, neg_sub, pages_between, clock.absRound_intCast, neg_sub]
  have up : (300 * (index : ℚ) - state.scrollOffset > 160) ↔ old < index := by
    rw [offset, beyond_threshold_iff]
  have down : (300 * (index : ℚ) - state.scrollOffset < -160) ↔ index < old := by
    rw [offset, ← beyond_threshold_iff index old, lt_neg, neg_sub]
  unfold State.handlePageChange
  simp only [forward, back, up, down, neg_neg]
  split
  · rfl
  · split
    · rfl
    · rfl

end Turn

/-! ## The pages of a run -/

def addedPage (clock : Clock) (month : ℤ) : YearMonth where
  key := clock.formatMonthYear (month % 12) (month / 12)
  month := month % 12
  year := month / 12

/-- The pages are the first ones and then added ones up to `last`, and `index` is shown. -/
structure Pages (clock : Clock) (opened last : ℤ) (index : ℕ) (state : State) : Prop where
  data : state.yearMonthData = (upTo firstMonth (clock.month.unitOf opened + 2)).map Calendar.monthPage ++
    (upTo (clock.month.unitOf opened + 2) last).map (addedPage clock)
  bound : clock.month.unitOf opened + 2 ≤ last
  offset : state.scrollOffset = 300 * index
  inside : firstMonth + index < last
  time : clock.month.unitOf state.currentTime = firstMonth + index

def OpenedLate (clock : Clock) (opened : ℤ) : Prop := firstMonth + 12 ≤ clock.month.unitOf opened + 1

section Pages
variable {clock : Clock} {opened last : ℤ} {index : ℕ} {state : State}

theorem Pages.months (pages : Pages clock opened last index state) (late : OpenedLate clock opened) :
    state.yearMonthData.map (fun item => (item.year, item.month)) =
      (upTo firstMonth last).map fun month => (month / 12, month % 12) := by
  have lower : firstMonth ≤ clock.month.unitOf opened + 2 := by unfold OpenedLate at late; omega
  rw [pages.data, ← upTo_append lower pages.bound, List.map_append, List.map_append, List.map_map, List.map_map]
  rfl

theorem Pages.length (pages : Pages clock opened last index state) (late : OpenedLate clock opened) :
    firstMonth + (state.yearMonthData.length : ℤ) = last := by
  have months := congrArg List.length (pages.months late)
  have bound := pages.bound
  unfold OpenedLate at late
  rw [List.length_map, List.length_map, length_upTo] at months
  omega

theorem Pages.right (pages : Pages clock opened last index state) (late : OpenedLate clock opened) :
    PagesRight clock state := by
  constructor
  case consecutive => rw [pages.length late, pages.months late]
  case shown =>
    have there := congrArg (fun months => months[index]?) (pages.months late)
    simp only [List.getElem?_map, getElem?_upTo pages.inside, Option.map_some] at there
    obtain ⟨item, found, same⟩ := Option.map_eq_some_iff.mp there
    obtain ⟨year, month⟩ := Prod.mk.inj same
    refine ⟨index, item, pages.offset, found, ?_, ?_, ?_⟩
    · rw [month, Clock.monthOf, pages.time]
    · rw [year, Clock.yearOf, pages.time]
    · intro day
      have whole : 12 * item.year + item.month = firstMonth + index := by omega
      rw [whole, ← pages.time]
      exact clock.day_unitOf_setDate state.currentTime day

theorem Pages.key_known_iff (pages : Pages clock opened last index state) (late : OpenedLate clock opened) {month : ℤ}
    (nonneg : firstMonth ≤ month) :
    state.yearMonthData.any (fun cal => cal.key = (addedPage clock month).key) = true ↔
      clock.month.unitOf opened + 2 ≤ month ∧ month < last := by
  unfold OpenedLate at late
  unfold firstMonth at nonneg late
  simp only [pages.data, List.any_append, Bool.or_eq_true, List.any_eq_true, List.mem_map, decide_eq_true_eq,
    exists_exists_and_eq_and, mem_upTo]
  constructor
  · intro known
    cases known with
    -- the key of a first page has no blank in it
    | inl first =>
      obtain ⟨other, _, same⟩ := first
      have blank : ' ' ∈ (Calendar.monthPage other).key.toList := by
        rw [same]
        exact clock.blank_mem_formatMonthYear _ _
      simp only [Calendar.monthPage, Calendar.createYearMonthObj, String.toList_append, List.mem_append] at blank
      cases blank with
      | inl inMonth => exact absurd inMonth (blank_not_mem_toString _)
      | inr inYear => exact absurd inYear (blank_not_mem_toString _)
    | inr added =>
      obtain ⟨other, range, same⟩ := added
      have parts := clock.formatMonthYear_injective (by omega) (by omega) (by omega) (by omega) same
      omega
  · intro range
    exact .inr ⟨month, range, rfl⟩

theorem Pages.check_eq (pages : Pages clock opened last index state) (late : OpenedLate clock opened) {month : ℤ}
    (nonneg : firstMonth ≤ month) :
    state.checkIfCalendarDataExists (addedPage clock month) =
      if clock.month.unitOf opened + 2 ≤ month ∧ month < last then state.yearMonthData
      else state.yearMonthData ++ [addedPage clock month] := by
  unfold State.checkIfCalendarDataExists
  simp only [pages.key_known_iff late nonneg]

theorem Pages.turn (pages : Pages clock opened last index state) (late : OpenedLate clock opened) {page : PageTurn}
    {next : State} (past : PastOpening clock opened state page) (moved : turn clock state page = some next) :
    ∃ last, Pages clock opened last page.index next := by
  have length := pages.length late
  have bound := pages.bound
  obtain ⟨inside, rfl⟩ := Option.ite_some_none_eq_some.mp moved
  have existing : firstMonth + page.index < last := by omega
  have time : clock.month.unitOf (clock.addMonths state.currentTime (page.index - index)) =
      firstMonth + page.index := by
    rw [clock.month_unitOf_addMonths, pages.time]
    omega
  rw [handlePageChange_page page.today pages.offset]
  split
  next forward =>
    have later : clock.month.unitOf opened < firstMonth + page.index := by
      apply past
      rw [pages.offset]
      exact_mod_cast Nat.mul_lt_mul_of_pos_left forward (by decide)
    have future : futureMonth clock (clock.addMonths (clock.addMonths state.currentTime (page.index - index)) 1) =
        addedPage clock (firstMonth + page.index + 1) := by
      rw [← time, ← clock.month_unitOf_addMonths]
      rfl
    rw [future, pages.check_eq late (by omega)]
    -- the month offered is an added page already, or the next one after the last
    by_cases listed : clock.month.unitOf opened + 2 ≤ firstMonth + page.index + 1 ∧ firstMonth + page.index + 1 < last
    · rw [if_pos listed]
      exact ⟨last, pages.data, bound, rfl, existing, (month_shownTime _ _).trans time⟩
    · rw [if_neg listed]
      have final : firstMonth + page.index + 1 = last := by omega
      refine ⟨last + 1, ?_, by omega, rfl, by omega, (month_shownTime _ _).trans time⟩
      simp only [pages.data, upTo_succ bound, List.map_append, List.append_assoc, final, List.map_cons, List.map_nil]
  next =>
    split
    next => exact ⟨last, pages.data, bound, rfl, existing, (month_shownTime _ _).trans time⟩
    next =>
      have same : page.index = index := by omega
      rw [same]
      exact ⟨last, pages⟩

/-- A turn forward to a month that was listed at the opening adds the month after
it once more, at the end. -/
theorem Pages.pastOpening (pages : Pages clock opened last index state) (late : OpenedLate clock opened)
    {page : PageTurn} {next : State} (moved : MyPlenR.turn clock state page = some next)
    (right : PagesRight clock next) : PastOpening clock opened state page := by
  intro ahead
  by_contra early
  have length := pages.length late
  have bound := pages.bound
  obtain ⟨inside, rfl⟩ := Option.ite_some_none_eq_some.mp moved
  have forward : index < page.index := by
    rw [pages.offset] at ahead
    have order : (index : ℚ) < page.index := by linarith
    exact_mod_cast order
  have time : clock.month.unitOf (clock.addMonths (clock.addMonths state.currentTime (page.index - index)) 1) =
      firstMonth + page.index + 1 := by
    rw [clock.month_unitOf_addMonths, clock.month_unitOf_addMonths, pages.time]
    omega
  have future : futureMonth clock (clock.addMonths (clock.addMonths state.currentTime (page.index - index)) 1) =
      addedPage clock (firstMonth + page.index + 1) := by
    rw [← time]
    rfl
  -- it is listed as a first page only, and those are not recognised
  have unlisted : ¬ (clock.month.unitOf opened + 2 ≤ firstMonth + page.index + 1 ∧
      firstMonth + page.index + 1 < last) := by omega
  have consecutive := right.consecutive
  rw [handlePageChange_page page.today pages.offset, if_pos forward, future, pages.check_eq late (by omega),
    if_neg unlisted] at consecutive
  -- the page at the end of the list should be the month after the last one
  have final := congrArg (fun months => months[state.yearMonthData.length]?) consecutive
  simp only [List.getElem?_map, List.getElem?_concat_length, Option.map_some, List.length_append,
    List.length_singleton] at final
  rw [getElem?_upTo (by omega)] at final
  simp only [addedPage, Option.map_some, Option.some.injEq, Prod.mk.injEq] at final
  omega

theorem Pages.initial (late : OpenedLate clock opened) :
    ∃ last index, Pages clock opened last index (.initial clock opened) := by
  have month : 12 * clock.yearOf (clock.addMonths opened 1) + clock.monthOf (clock.addMonths opened 1) =
      clock.month.unitOf opened + 1 := by
    unfold Clock.yearOf Clock.monthOf
    rw [clock.month_unitOf_addMonths]
    omega
  unfold OpenedLate firstMonth at late
  have data : (State.initial clock opened).yearMonthData =
      (upTo firstMonth (clock.month.unitOf opened + 2)).map Calendar.monthPage := by
    have year : 1918 < clock.yearOf (clock.addMonths opened 1) := by
      unfold Clock.yearOf
      rw [clock.month_unitOf_addMonths]
      omega
    have inYear := clock.monthOf_range (clock.addMonths opened 1)
    change Calendar.generateYearMonthData 0 1918 _ _ = _
    rw [Calendar.generateYearMonthData_eq (by omega) inYear year, month, add_assoc]
    rfl
  have length : (State.initial clock opened).yearMonthData.length =
      (clock.month.unitOf opened - firstMonth).toNat + 2 := by
    rw [data, List.length_map, length_upTo]
    unfold firstMonth
    omega
  refine ⟨clock.month.unitOf opened + 2, (clock.month.unitOf opened - firstMonth).toNat, ?_, le_rfl, ?_, ?_, ?_⟩
  · rw [data, upTo_empty le_rfl, List.map_nil, List.append_nil]
  · change (((State.initial clock opened).yearMonthData.length : ℚ) - 2) * 300 = _
    rw [length]
    push_cast
    ring
  · unfold firstMonth
    omega
  · change clock.month.unitOf opened = _
    unfold firstMonth
    omega

/-- Opened in the first year or before, the screen already starts with wrong pages. -/
theorem openedLate_of_right (right : PagesRight clock (.initial clock opened)) : OpenedLate clock opened := by
  by_contra early
  unfold OpenedLate firstMonth at early
  have year : clock.yearOf (clock.addMonths opened 1) ≤ 1918 := by
    unfold Clock.yearOf
    rw [clock.month_unitOf_addMonths]
    omega
  have month := (clock.monthOf_range (clock.addMonths opened 1)).1
  have data : (State.initial clock opened).yearMonthData = (upTo 0 12).map (fun month =>
      Calendar.createYearMonthObj month 1918) ++
        (upTo 0 (clock.monthOf (clock.addMonths opened 1) + 1)).map (fun month =>
          Calendar.createYearMonthObj month (clock.yearOf (clock.addMonths opened 1))) := by
    change Calendar.generateYearMonthData 0 1918 _ _ = _
    unfold Calendar.generateYearMonthData
    rw [upTo_empty (show clock.yearOf (clock.addMonths opened 1) ≤ 1918 + 1 by omega), List.flatMap_nil,
      List.append_nil]
  -- the thirteenth page should be January 1919
  have final := congrArg (fun months => months[12]?) right.consecutive
  rw [data] at final
  rw [List.getElem?_map, List.getElem?_append_right (by simp), List.getElem?_map, List.getElem?_map,
    getElem?_upTo (by simp; omega), getElem?_upTo (by simp; omega)] at final
  simp [Calendar.createYearMonthObj, firstMonth] at final
  omega

end Pages

/-- From the initial state on, the pages are right in every state of a run of page
turns exactly if the screen was opened after 1918 and every forward turn leads to
a month after the one it was opened in. -/
theorem pagesRight_iff_pastOpening (clock : Clock) (opened : ℤ) (turns : List PageTurn) :
    Always (turn clock) (PagesRight clock) (.initial clock opened) turns ↔
      OpenedLate clock opened ∧
        Guarded (turn clock) (PastOpening clock opened) (.initial clock opened) turns := by
  by_cases late : OpenedLate clock opened
  · have sound : ∀ state, (∃ last index, Pages clock opened last index state) → PagesRight clock state := by
      intro state ⟨last, index, pages⟩
      exact pages.right late
    rw [and_iff_right late]
    apply always_iff_guarded sound
    case keep =>
      intro state page next ⟨last, index, pages⟩ past moved
      obtain ⟨last, pages⟩ := pages.turn late past moved
      exact ⟨last, page.index, pages⟩
    case needed =>
      intro state page next ⟨last, index, pages⟩ moved right
      exact pages.pastOpening late moved right
    case start => exact Pages.initial late
  · apply iff_of_false
    · intro always
      exact late (openedLate_of_right always.start)
    · intro condition
      exact late condition.1

/-- Opened in July 2018, turned back to June and forward to July again: August is listed twice. -/
theorem august_listed_twice :
    ¬ Always (turn universalClock) (PagesRight universalClock) (.initial universalClock 1531917240000)
      [⟨1531917240000, 1205⟩, ⟨1531917240000, 1206⟩] := by
  intro always
  have ends : (run (turn universalClock) (.initial universalClock 1531917240000)
      [⟨1531917240000, 1205⟩, ⟨1531917240000, 1206⟩]).map (fun state =>
        (state.yearMonthData.length, state.yearMonthData[1208]?.map fun item => (item.year, item.month))) =
          some (1209, some (2018, 7)) := by decide +kernel
  obtain ⟨reached, ran, same⟩ := Option.map_eq_some_iff.mp ends
  obtain ⟨length, item⟩ := Prod.mk.inj same
  have right := (always_iff_reached _ _).mp always _ (List.prefix_refl _) reached ran
  have final := congrArg (fun months => months[1208]?) right.consecutive
  rw [List.getElem?_map, item, length] at final
  revert final
  decide +kernel

end PlenR.Screens.MyPlenR
