import PlenR.Screens.CalendarMonthView
import PlenR.Screens.MonthPages

/-! The day that is highlighted and the day that is listed.

Both the calendar screen and each mounted month page keep a selected day: the
page for highlighting, the screen for the agenda. A press sets both, and a page
turn gives all pages a new key, so that they are mounted anew from the moment of
the screen. Drawing a page leaves its state as it was (`render_eq`), so it is no
step here.
-/

set_option autoImplicit false

namespace PlenR.Screens.DaySelection

open PlenR.Time PlenR.Util Foundation Foundation.Run MyPlenR

/-- A mounted month page; `key` is the value of `refresh` it was mounted under. -/
structure View where
  key : Bool
  props : CalendarMonthView.Props
  state : CalendarMonthView.State

structure World where
  screen : MyPlenR.State
  views : ℕ → Option View

inductive Action where
  | turn (page : PageTurn)
  | mount (index : ℕ)
  | unmount (index : ℕ)
  | press (index : ℕ) (day : ℤ)

section Clock
variable (clock : Clock)

def View.mount (screen : MyPlenR.State) (props : CalendarMonthView.Props) : View where
  key := screen.refresh
  props := props
  state := .initial clock props screen.currentTime

/-- An element with another key is a new one. -/
def View.reconcile (screen : MyPlenR.State) (view : View) : View :=
  if view.key = screen.refresh then view else .mount clock screen view.props

def lengthOf (props : CalendarMonthView.Props) : ℤ :=
  clock.monthOfDay.startOf (12 * props.year + props.month + 1) - clock.monthOfDay.startOf (12 * props.year + props.month)

namespace World

def initial (opened : ℤ) : World where
  screen := .initial clock opened
  views := fun _ => none

def press (index : ℕ) (day : ℤ) (view : View) (world : World) : World where
  screen := world.screen.selectDay clock day
  views := Function.update world.views index (some { view with state := { view.state with day_selected := day } })

end World

def step (world : World) : Action → Option World
  | .turn page => (MyPlenR.turn clock world.screen page).map fun screen =>
      { screen := screen, views := fun index => (world.views index).map (View.reconcile clock screen) }
  | .mount index =>
      if (world.views index).isNone then
        world.screen.yearMonthData[index]?.map fun item =>
          { world with
            views := Function.update world.views index
              (some (.mount clock world.screen { year := item.year, month := item.month })) }
      else none
  | .unmount index => some { world with views := Function.update world.views index none }
  -- the day that is selected already is drawn without a touchable
  | .press index day => (world.views index).bind fun view =>
      if 1 ≤ day ∧ day ≤ lengthOf clock view.props ∧ day ≠ view.state.day_selected then some (world.press clock index day view)
      else none

/-- Forward turns lead past the opening month, and days are pressed on the page that is scrolled to. -/
def OnShownPage (opened : ℤ) (world : World) : Action → Prop
  | .turn page => PastOpening clock opened world.screen page
  | .press index _ => world.screen.scrollOffset = 300 * index
  | _ => True

instance (opened : ℤ) (world : World) (action : Action) : Decidable (OnShownPage clock opened world action) :=
  match action with
  | .turn _ => inferInstanceAs (Decidable (_ → _))
  | .press _ _ => inferInstanceAs (Decidable (_ = _))
  | .mount _ => isTrue trivial
  | .unmount _ => isTrue trivial

end Clock

/-! ## The two selected days -/

section Keep
variable {clock : Clock} {opened last : ℤ} {index : ℕ} {world : World}

theorem month_selectDay {screen : MyPlenR.State} {day : ℤ}
    (inside : 1 ≤ day ∧ day ≤ clock.monthOfDay.startOf (clock.month.unitOf screen.currentTime + 1) -
      clock.monthOfDay.startOf (clock.month.unitOf screen.currentTime)) :
    clock.month.unitOf (screen.selectDay clock day).currentTime = clock.month.unitOf screen.currentTime := by
  have reached : clock.day.unitOf (screen.selectDay clock day).currentTime =
      clock.monthOfDay.startOf (clock.month.unitOf screen.currentTime) + (day - 1) :=
    clock.day_unitOf_setDate _ _
  change clock.monthOfDay.unitOf (clock.day.unitOf (screen.selectDay clock day).currentTime) = _
  rw [reached]
  apply (clock.monthOfDay.within_iff _ _).mp
  unfold Granularity.endOf
  omega

theorem dateOf_selectDay {screen : MyPlenR.State} {day : ℤ}
    (inside : 1 ≤ day ∧ day ≤ clock.monthOfDay.startOf (clock.month.unitOf screen.currentTime + 1) -
      clock.monthOfDay.startOf (clock.month.unitOf screen.currentTime)) :
    clock.dateOf (screen.selectDay clock day).currentTime = day := by
  have reached : clock.day.unitOf (screen.selectDay clock day).currentTime =
      clock.monthOfDay.startOf (clock.month.unitOf screen.currentTime) + (day - 1) :=
    clock.day_unitOf_setDate _ _
  unfold Clock.dateOf
  rw [month_selectDay inside, reached]
  omega

/-- A page is mounted with the day of the screen if it is that day's month. -/
theorem day_selected_mount {screen : MyPlenR.State} {props : CalendarMonthView.Props}
    (year : props.year = clock.yearOf screen.currentTime) (month : props.month = clock.monthOf screen.currentTime) :
    (View.mount clock screen props).state.day_selected = clock.dateOf screen.currentTime := by
  unfold View.mount CalendarMonthView.State.initial
  exact if_pos ⟨year.symm, month.symm⟩

def OfMonth (props : CalendarMonthView.Props) (index : ℕ) : Prop :=
  props.year = (firstMonth + index) / 12 ∧ props.month = (firstMonth + index) % 12

theorem OfMonth.number {props : CalendarMonthView.Props} (ofMonth : OfMonth props index) :
    12 * props.year + props.month = firstMonth + index := by
  rw [ofMonth.1, ofMonth.2]
  omega

theorem ofMonth_of_item {screen : MyPlenR.State} (pages : Pages clock opened last index screen)
    (late : OpenedLate clock opened) {position : ℕ} {item : YearMonth}
    (found : screen.yearMonthData[position]? = some item) :
    OfMonth { year := item.year, month := item.month } position := by
  have length := pages.length late
  have inside := (List.getElem?_eq_some_iff.mp found).1
  have months := congrArg (fun months => months[position]?) (pages.months late)
  simp only [List.getElem?_map, found, Option.map_some] at months
  rw [getElem?_upTo (by omega)] at months
  exact Prod.mk.inj (Option.some.inj months)

structure InStep (clock : Clock) (opened last : ℤ) (index : ℕ) (world : World) : Prop where
  pages : Pages clock opened last index world.screen
  keys : ∀ position view, world.views position = some view → view.key = world.screen.refresh
  months : ∀ position view, world.views position = some view → OfMonth view.props position
  selected : ∀ view, world.views index = some view → view.state.day_selected = clock.dateOf world.screen.currentTime

theorem mounted_here {screen : MyPlenR.State} (pages : Pages clock opened last index screen)
    {props : CalendarMonthView.Props} (ofMonth : OfMonth props index) :
    (View.mount clock screen props).state.day_selected = clock.dateOf screen.currentTime := by
  apply day_selected_mount
  · rw [ofMonth.1, Clock.yearOf, pages.time]
  · rw [ofMonth.2, Clock.monthOf, pages.time]

theorem InStep.mount (inStep : InStep clock opened last index world) (late : OpenedLate clock opened) {position : ℕ}
    {item : YearMonth} (found : world.screen.yearMonthData[position]? = some item) :
    InStep clock opened last index { world with
      views := Function.update world.views position
        (some (.mount clock world.screen { year := item.year, month := item.month })) } := by
  have ofMonth := ofMonth_of_item inStep.pages late found
  have cases_ : ∀ other view, Function.update world.views position
      (some (View.mount clock world.screen { year := item.year, month := item.month })) other = some view →
        world.views other = some view ∨
          other = position ∧ view = .mount clock world.screen { year := item.year, month := item.month } := by
    intro other view shown
    by_cases same : other = position
    · subst same
      rw [Function.update_self] at shown
      exact .inr ⟨rfl, (Option.some.inj shown).symm⟩
    · rw [Function.update_of_ne same] at shown
      exact .inl shown
  constructor
  case pages => exact inStep.pages
  case keys =>
    intro other view shown
    obtain before | ⟨_, rfl⟩ := cases_ other view shown
    · exact inStep.keys other view before
    · rfl
  case months =>
    intro other view shown
    obtain before | ⟨rfl, rfl⟩ := cases_ other view shown
    · exact inStep.months other view before
    · exact ofMonth
  case selected =>
    intro view shown
    obtain before | ⟨rfl, rfl⟩ := cases_ index view shown
    · exact inStep.selected view before
    · exact mounted_here inStep.pages ofMonth

theorem InStep.unmount (inStep : InStep clock opened last index world) (position : ℕ) :
    InStep clock opened last index { world with views := Function.update world.views position none } := by
  have kept : ∀ other view, Function.update world.views position none other = some view →
      world.views other = some view := by
    intro other view shown
    by_cases same : other = position
    · rw [same, Function.update_self] at shown
      cases shown
    · rwa [Function.update_of_ne same] at shown
  constructor
  case pages => exact inStep.pages
  case keys => exact fun other view shown => inStep.keys other view (kept other view shown)
  case months => exact fun other view shown => inStep.months other view (kept other view shown)
  case selected => exact fun view shown => inStep.selected view (kept index view shown)

theorem InStep.press (inStep : InStep clock opened last index world) {day : ℤ} {view : View}
    (found : world.views index = some view) (inside : 1 ≤ day ∧ day ≤ lengthOf clock view.props) :
    InStep clock opened last index (world.press clock index day view) := by
  have pages := inStep.pages
  have ofMonth := inStep.months index view found
  unfold lengthOf at inside
  rw [ofMonth.number, ← pages.time] at inside
  have cases_ : ∀ other shown, (world.press clock index day view).views other = some shown →
      other ≠ index ∧ world.views other = some shown ∨
        other = index ∧ shown = { view with state := { view.state with day_selected := day } } := by
    intro other shown mounted
    by_cases same : other = index
    · subst same
      simp only [World.press, Function.update_self] at mounted
      exact .inr ⟨rfl, (Option.some.inj mounted).symm⟩
    · simp only [World.press, Function.update_of_ne same] at mounted
      exact .inl ⟨same, mounted⟩
  constructor
  case pages => exact ⟨pages.data, pages.bound, pages.offset, pages.inside, (month_selectDay inside).trans pages.time⟩
  case keys =>
    intro other shown mounted
    obtain ⟨_, before⟩ | ⟨_, rfl⟩ := cases_ other shown mounted
    · exact inStep.keys other shown before
    · exact inStep.keys index view found
  case months =>
    intro other shown mounted
    obtain ⟨_, before⟩ | ⟨rfl, rfl⟩ := cases_ other shown mounted
    · exact inStep.months other shown before
    · exact ofMonth
  case selected =>
    intro shown mounted
    obtain ⟨elsewhere, _⟩ | ⟨_, rfl⟩ := cases_ index shown mounted
    · exact absurd rfl elsewhere
    · exact (dateOf_selectDay inside).symm

/-- Every page turn changes the keys of all mounted pages. -/
theorem refresh_turn {page : PageTurn} {screen next : MyPlenR.State} (offset : screen.scrollOffset = 300 * index)
    (moved : MyPlenR.turn clock screen page = some next) :
    next.refresh = !screen.refresh ∨ page.index = index ∧ next = screen := by
  obtain ⟨_, rfl⟩ := Option.ite_some_none_eq_some.mp moved
  rw [handlePageChange_page page.today offset]
  split
  · exact .inl rfl
  · split
    · exact .inl rfl
    · exact .inr ⟨by omega, rfl⟩

theorem InStep.turn (inStep : InStep clock opened last index world) (late : OpenedLate clock opened) {page : PageTurn}
    {screen : MyPlenR.State} (past : PastOpening clock opened world.screen page)
    (moved : MyPlenR.turn clock world.screen page = some screen) :
    ∃ last, InStep clock opened last page.index
      { screen := screen, views := fun index => (world.views index).map (View.reconcile clock screen) } := by
  obtain ⟨last, pages⟩ := inStep.pages.turn late past moved
  refine ⟨last, ?_⟩
  obtain turned | ⟨same, rfl⟩ := refresh_turn inStep.pages.offset moved
  · have anew : ∀ position view, (world.views position).map (View.reconcile clock screen) = some view →
        OfMonth view.props position ∧ view = .mount clock screen view.props := by
      intro position view shown
      obtain ⟨before, found, rfl⟩ := Option.map_eq_some_iff.mp shown
      have other : before.key ≠ screen.refresh := by
        rw [inStep.keys position before found, turned]
        exact (Bool.not_ne_self _).symm
      unfold View.reconcile
      rw [if_neg other]
      exact ⟨inStep.months position before found, rfl⟩
    constructor
    case pages => exact pages
    case keys =>
      intro position view shown
      rw [(anew position view shown).2]
      rfl
    case months => exact fun position view shown => (anew position view shown).1
    case selected =>
      intro view shown
      obtain ⟨ofMonth, mounted⟩ := anew page.index view shown
      rw [mounted]
      exact mounted_here pages ofMonth
  · -- nothing was turned, and nothing is mounted anew
    have kept : ∀ position view, (world.views position).map (View.reconcile clock world.screen) = some view →
        world.views position = some view := by
      intro position view shown
      obtain ⟨before, found, rfl⟩ := Option.map_eq_some_iff.mp shown
      unfold View.reconcile
      rw [if_pos (inStep.keys position before found)]
      exact found
    constructor
    case pages => exact pages
    case keys => exact fun position view shown => inStep.keys position view (kept position view shown)
    case months => exact fun position view shown => inStep.months position view (kept position view shown)
    case selected => exact fun view shown => inStep.selected view (same ▸ kept page.index view shown)

theorem inStep_step (late : OpenedLate clock opened) (inStep : InStep clock opened last index world) {action : Action}
    {next : World} (onPage : OnShownPage clock opened world action) (moved : step clock world action = some next) :
    ∃ last index, InStep clock opened last index next := by
  cases action with
  | turn page =>
    obtain ⟨screen, turned, rfl⟩ := Option.map_eq_some_iff.mp moved
    obtain ⟨last, inStep⟩ := inStep.turn late onPage turned
    exact ⟨last, page.index, inStep⟩
  | mount position =>
    obtain ⟨_, moved⟩ := Option.ite_none_right_eq_some.mp moved
    obtain ⟨item, found, rfl⟩ := Option.map_eq_some_iff.mp moved
    exact ⟨last, index, inStep.mount late found⟩
  | unmount position =>
    cases moved
    exact ⟨last, index, inStep.unmount position⟩
  | press position day =>
    obtain ⟨view, found, moved⟩ := Option.bind_eq_some_iff.mp moved
    obtain ⟨⟨lower, upper, _⟩, rfl⟩ := Option.ite_some_none_eq_some.mp moved
    have same : position = index := by
      have scrolled : world.screen.scrollOffset = 300 * position := onPage
      rw [inStep.pages.offset] at scrolled
      have equal : (index : ℚ) = position := by linarith
      exact_mod_cast equal.symm
    subst same
    exact ⟨last, position, inStep.press found ⟨lower, upper⟩⟩

end Keep

end PlenR.Screens.DaySelection
