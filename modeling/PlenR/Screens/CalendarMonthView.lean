import PlenR.Foundation.Counting
import PlenR.Foundation.Run
import PlenR.Foundation.Threading
import PlenR.Time.Format

/-! The page of one month, `CalendarMonthView.js`.

The rows of a month come from a package. Days of the months before and after are
told from the others by a negative number, and which column a day stands in is
known only from a counter in the component's state, which the rendering itself
moves on from day to day and from one rendering to the next.
-/

set_option autoImplicit false

namespace PlenR.Screens

open PlenR.Time Foundation Foundation.Run

/-- The package `calendar-month-array`: the rows of a month run from a Sunday to a
Saturday, and hold each day of the month once. -/
structure MonthArray (clock : Clock) where
  /-- Zero is a Sunday. -/
  dayOfWeek : ℤ → ℤ
  weeks : ℤ → List (List ℤ)
  row : ∀ month, ∀ week ∈ weeks month, ∃ sunday, week = upTo sunday (sunday + 7) ∧
    ∀ column, 0 ≤ column ∧ column < 7 → dayOfWeek (sunday + column) = column
  days : ∀ month, (weeks month).flatten.filter (fun day => clock.monthOfDay.unitOf day = month) =
    upTo (clock.monthOfDay.startOf month) (clock.monthOfDay.startOf (month + 1))

/-- The rows of universal time, whose day zero is a Thursday. -/
def universalArray : MonthArray universalClock where
  dayOfWeek := fun day => (day + 4) % 7
  weeks := fun month =>
    let sunday := monthStart month - (monthStart month + 4) % 7
    (upTo 0 ((monthStart (month + 1) - sunday + 6) / 7).toNat).map fun week =>
      upTo (sunday + 7 * week) (sunday + 7 * (week + 1))
  row := by
    intro month week member
    obtain ⟨number, _, rfl⟩ := List.mem_map.mp member
    refine ⟨_, congrArg _ (by omega), ?_⟩
    intro column inside
    omega
  days := by
    intro month
    have longer := monthStart_lt_succ month
    rw [flatten_blocks _ 7 (by decide)]
    apply filter_upTo
    case begins =>
      change monthStart month - (monthStart month + 4) % 7 ≤ monthStart month
      omega
    case order => exact longer.le
    case ends =>
      change monthStart (month + 1) ≤ _
      omega
    case within =>
      intro day
      have whole := gregorianMonths.within_iff month day
      change monthStart month ≤ day ∧ day ≤ monthStart (month + 1) - 1 ↔ _ at whole
      change decide (gregorianMonths.unitOf day = month) = true ↔ monthStart month ≤ day ∧ day < monthStart (month + 1)
      rw [decide_eq_true_iff, ← whole]
      omega

namespace CalendarMonthView

structure Props where
  year : ℤ
  month : ℤ
  deriving DecidableEq

structure State where
  weekends : ℤ
  day_selected : ℤ
  deriving DecidableEq

/-- What is drawn for a day; only a day that can be touched changes the selection. -/
inductive Cell where
  | sibling (text : ℤ)
  | selected (text : ℤ) (today : Bool)
  | touchableToday (text : ℤ)
  | weekend (text : ℤ)
  | day (text : ℤ)
  deriving DecidableEq

section Clock
variable (clock : Clock)

def State.initial (props : Props) (day_selected : ℤ) : State where
  weekends := 6
  day_selected :=
    if clock.yearOf day_selected = props.year ∧ clock.monthOf day_selected = props.month then clock.dateOf day_selected
    else 1

def isToday (today : ℤ) (props : Props) (day : ℤ) : Bool :=
  props.year = clock.yearOf today && props.month = clock.monthOf today && day = clock.dateOf today

def formatDate (today : ℤ) (props : Props) (day : ℤ) (state : State) : Cell × State :=
  let state := { state with weekends := (state.weekends + 1) % 7 }
  if day < 0 then (.sibling (-day), state)
  else if state.day_selected = day then (.selected day (isToday clock today props day), state)
  else if isToday clock today props day then (.touchableToday day, state)
  else if state.weekends = 0 ∨ state.weekends = 6 then (.weekend day, state)
  else (.day day, state)

def getDate (day : ℤ) : ℤ := day - clock.monthOfDay.startOf (clock.monthOfDay.unitOf day) + 1

def numberOf (month day : ℤ) : ℤ :=
  if clock.monthOfDay.unitOf day = month then getDate clock day else -getDate clock day

def monthArray (array : MonthArray clock) (props : Props) : List (List ℤ) :=
  (array.weeks (12 * props.year + props.month)).map (List.map (numberOf clock (12 * props.year + props.month)))

def render (array : MonthArray clock) (today : ℤ) (props : Props) (state : State) : List (List Cell) × State :=
  mapThread (fun week => mapThread (formatDate clock today props) week) (monthArray clock array props) state

/-! ## Rendering again and again -/

inductive Action where
  | render (today : ℤ)
  /-- `setAndReportDaySelected`, of a day that is drawn as touchable. -/
  | press (day : ℤ)

def step (array : MonthArray clock) (props : Props) (state : State) : Action → Option State
  | .render today => some (render clock array today props state).2
  | .press day => some { state with day_selected := day }

def cellOf (array : MonthArray clock) (today : ℤ) (props : Props) (day_selected day : ℤ) : Cell :=
  if clock.monthOfDay.unitOf day ≠ 12 * props.year + props.month then .sibling (getDate clock day)
  else if day_selected = getDate clock day then .selected (getDate clock day) (isToday clock today props (getDate clock day))
  else if isToday clock today props (getDate clock day) then .touchableToday (getDate clock day)
  else if array.dayOfWeek day = 0 ∨ array.dayOfWeek day = 6 then .weekend (getDate clock day)
  else .day (getDate clock day)

/-- Every day is drawn in its row as what it is, and the days of the month are drawn from the first to the last. -/
structure DrawsMonth (array : MonthArray clock) (props : Props) (state : State) : Prop where
  cells : ∀ today, (render clock array today props state).1 =
    (array.weeks (12 * props.year + props.month)).map (List.map (cellOf clock array today props state.day_selected))
  own : ((monthArray clock array props).flatten.filter (0 < ·)) =
    upTo 1 (clock.monthOfDay.startOf (12 * props.year + props.month + 1) -
      clock.monthOfDay.startOf (12 * props.year + props.month) + 1)

variable {clock}

theorem getDate_pos (day : ℤ) : 0 < getDate clock day := by
  have start := (clock.monthOfDay.startOf_le_iff (clock.monthOfDay.unitOf day) day).mpr le_rfl
  unfold getDate
  omega

theorem numberOf_pos_iff (month day : ℤ) : 0 < numberOf clock month day ↔ clock.monthOfDay.unitOf day = month := by
  have positive : 0 < getDate clock day := getDate_pos day
  unfold numberOf
  split
  next same => exact iff_of_true positive same
  next other => exact iff_of_false (by omega) other

theorem formatDate_numberOf (array : MonthArray clock) (today : ℤ) (props : Props) {state : State} {day : ℤ}
    (column : (state.weekends + 1) % 7 = array.dayOfWeek day) :
    formatDate clock today props (numberOf clock (12 * props.year + props.month) day) state =
      (cellOf clock array today props state.day_selected day, { state with weekends := array.dayOfWeek day }) := by
  have positive : 0 < getDate clock day := getDate_pos day
  unfold formatDate cellOf numberOf
  rw [column]
  by_cases own : clock.monthOfDay.unitOf day = 12 * props.year + props.month
  · have notNegative : ¬ getDate clock day < 0 := by omega
    simp only [own, if_true, notNegative, if_false, ne_eq, not_true_eq_false]
    split
    · rfl
    · split
      · rfl
      · split
        · rfl
        · rfl
  · have negative : -getDate clock day < 0 := by omega
    simp only [own, if_false, negative, if_true, ne_eq, not_false_eq_true, neg_neg]

def AtColumn (sunday : ℤ) (start state : State) (days : List ℤ) : Prop :=
  ∃ column, 0 ≤ column ∧ column ≤ 7 ∧ days = upTo (sunday + column) (sunday + 7) ∧
    state = { start with weekends := (6 + column) % 7 }

theorem AtColumn.next {array : MonthArray clock} {sunday : ℤ} {start state : State} {day : ℤ} {days : List ℤ}
    (weekday : ∀ column, 0 ≤ column ∧ column < 7 → array.dayOfWeek (sunday + column) = column)
    (here : AtColumn sunday start state (day :: days)) :
    (state.weekends + 1) % 7 = array.dayOfWeek day ∧ state.day_selected = start.day_selected ∧
      AtColumn sunday start { state with weekends := array.dayOfWeek day } days := by
  obtain ⟨column, lower, upper, same, rfl⟩ := here
  have inside : column < 7 := by
    by_contra outside
    rw [upTo_empty (by omega)] at same
    cases same
  rw [upTo_cons (by omega)] at same
  obtain ⟨rfl, rfl⟩ := List.cons.inj same
  rw [weekday column ⟨lower, inside⟩]
  refine ⟨by dsimp only; omega, rfl, column + 1, by omega, by omega, by rw [add_assoc], ?_⟩
  have moved : (6 + (column + 1)) % 7 = column := by omega
  rw [moved]

theorem row_cells (array : MonthArray clock) (today : ℤ) (props : Props) {state : State} {week : List ℤ}
    (member : week ∈ array.weeks (12 * props.year + props.month)) (saturday : state.weekends = 6) :
    mapThread (formatDate clock today props) (week.map (numberOf clock (12 * props.year + props.month))) state =
      (week.map (cellOf clock array today props state.day_selected), state) := by
  obtain ⟨sunday, rfl, weekday⟩ := array.row _ week member
  have sameState : { state with weekends := 6 } = state := by rw [← saturday]
  have start : AtColumn sunday state state (upTo sunday (sunday + 7)) :=
    ⟨0, le_rfl, by decide, by rw [add_zero], sameState.symm⟩
  have decided : ∀ current day rest, AtColumn sunday state current (day :: rest) →
      (formatDate clock today props (numberOf clock (12 * props.year + props.month) day) current).1 =
          cellOf clock array today props state.day_selected day ∧
        AtColumn sunday state
          (formatDate clock today props (numberOf clock (12 * props.year + props.month) day) current).2 rest := by
    intro current day rest here
    obtain ⟨column, selected, next⟩ := here.next weekday
    rw [formatDate_numberOf array today props column]
    exact ⟨by rw [selected], next⟩
  obtain ⟨cells, _, _, final, days, counter⟩ := mapThread_eq (AtColumn sunday state) decided start
  rw [mapThread_map]
  apply Prod.ext cells
  have ended := congrArg List.length days
  simp only [List.length_nil, length_upTo] at ended
  rw [counter, show (6 + _) % 7 = (6 : ℤ) by omega]
  exact sameState

theorem render_eq (array : MonthArray clock) (today : ℤ) (props : Props) {state : State}
    (saturday : state.weekends = 6) :
    render clock array today props state =
      ((array.weeks (12 * props.year + props.month)).map (List.map (cellOf clock array today props state.day_selected)),
        state) := by
  have decided : ∀ current week rest,
      (current = state ∧ ∀ other ∈ week :: rest, other ∈ array.weeks (12 * props.year + props.month)) →
      (mapThread (formatDate clock today props) (week.map (numberOf clock (12 * props.year + props.month))) current).1 =
          week.map (cellOf clock array today props state.day_selected) ∧
        (mapThread (formatDate clock today props)
            (week.map (numberOf clock (12 * props.year + props.month))) current).2 = state ∧
          ∀ other ∈ rest, other ∈ array.weeks (12 * props.year + props.month) := by
    rintro _ week rest ⟨rfl, members⟩
    obtain ⟨member, later⟩ := List.forall_mem_cons.mp members
    rw [row_cells array today props member saturday]
    exact ⟨rfl, rfl, later⟩
  obtain ⟨rows, same, _⟩ := mapThread_eq
    (fun current rest => current = state ∧ ∀ week ∈ rest, week ∈ array.weeks (12 * props.year + props.month))
    decided ⟨rfl, fun _ member => member⟩
  unfold render monthArray
  rw [mapThread_map]
  exact Prod.ext rows same

theorem monthArray_own (array : MonthArray clock) (props : Props) :
    (monthArray clock array props).flatten.filter (0 < ·) =
      upTo 1 (clock.monthOfDay.startOf (12 * props.year + props.month + 1) -
        clock.monthOfDay.startOf (12 * props.year + props.month) + 1) := by
  generalize number : 12 * props.year + props.month = month
  unfold monthArray
  rw [number, ← List.map_flatten, List.filter_map]
  have own : (fun day => decide (0 < day)) ∘ numberOf clock month =
      fun day => decide (clock.monthOfDay.unitOf day = month) := by
    funext day
    simp only [Function.comp_apply, numberOf_pos_iff]
  rw [own, array.days]
  have counted : (upTo (clock.monthOfDay.startOf month) (clock.monthOfDay.startOf (month + 1))).map (numberOf clock month) =
      (upTo (clock.monthOfDay.startOf month) (clock.monthOfDay.startOf (month + 1))).map
        fun day => day - clock.monthOfDay.startOf month + 1 := by
    apply List.map_congr_left
    intro day member
    have inside : clock.monthOfDay.unitOf day = month := by
      apply (clock.monthOfDay.within_iff month day).mp
      obtain ⟨lower, upper⟩ := mem_upTo.mp member
      exact ⟨lower, by unfold Granularity.endOf; omega⟩
    rw [numberOf, if_pos inside, getDate, inside]
  rw [counted]
  have shifted := map_upTo_shift (fun number : ℤ => number) (1 - clock.monthOfDay.startOf month)
    (clock.monthOfDay.startOf month) (clock.monthOfDay.startOf (month + 1))
  simp only [List.map_id'] at shifted
  have bounds : 1 - clock.monthOfDay.startOf month + clock.monthOfDay.startOf month = 1 ∧
      1 - clock.monthOfDay.startOf month + clock.monthOfDay.startOf (month + 1) =
        clock.monthOfDay.startOf (month + 1) - clock.monthOfDay.startOf month + 1 := by omega
  rw [bounds.1, bounds.2] at shifted
  rw [← shifted]
  apply List.map_congr_left
  intro day _
  omega

end Clock

/-- However often the page was drawn and its days were pressed: every day gets the
cell of its own month, date and day of the week, whatever the counter has been
through, and the days of the month are there once each and in order. -/
theorem draws_month (clock : Clock) (array : MonthArray clock) (props : Props) (day_selected : ℤ)
    (actions : List Action) :
    Always (step clock array props) (DrawsMonth clock array props) (.initial clock props day_selected) actions := by
  have keep : ∀ state action next, state.weekends = 6 → step clock array props state action = some next →
      next.weekends = 6 := by
    intro state action next saturday moved
    cases action with
    | render today =>
      cases moved
      rw [render_eq array today props saturday]
      exact saturday
    | press day =>
      cases moved
      exact saturday
  have start : (State.initial clock props day_selected).weekends = 6 := rfl
  apply (always_of_step keep actions start).mono
  intro state saturday
  constructor
  case cells =>
    intro today
    rw [render_eq array today props saturday]
  case own => exact monthArray_own array props

-- The first week of July 2018, looked at on the 4th with the 2nd selected.
example : (render universalClock universalArray 1530705600000 ⟨2018, 6⟩ ⟨6, 2⟩).1.head? =
    some [.weekend 1, .selected 2 false, .day 3, .touchableToday 4, .day 5, .day 6, .weekend 7] := by decide

end CalendarMonthView
end PlenR.Screens
