import Mathlib.Data.Int.Log
import Mathlib.Data.Rat.Floor
import PlenR.Foundation.Run
import PlenR.Screens.OrganiseEvent

/-! The week view, `EventCalendar.js`.

Pages are counted by an index and the middle page is the initial date. Two
handlers change index and date together: a tap on a day of the week bar counts
the days to it, and a swipe divides the offset it comes to rest at by the width
of a page. For the week of an organised event the initial date lies four days
after its start, so the days of the bar are the pages 0 to 6 of 8.
-/

set_option autoImplicit false

namespace PlenR.Timeline.EventCalendar

open PlenR.Time PlenR.Util Foundation Foundation.Run PlenR.Screens

structure Props where
  initDate : ℤ
  size : ℤ
  width : ℚ
  /-- `event.start` and `event.end`. -/
  start : ℤ
  end_ : ℤ

structure State where
  date : ℤ
  index : ℤ

section Component
variable (clock : DayClock) (props : Props)

def State.initial : State where
  date := props.initDate
  index := props.size

/-- The date of a page, which `_getItem`, `_renderItem` and both handlers compute alike. -/
def pageDate (index : ℤ) : ℤ := clock.addDays props.initDate (index - props.size)

/-- `_getItem`: the events that start on the day of the page. -/
def getItem {Stamp : Type} (parse : Stamp → ℤ) (events : List (TimelineEvent Stamp)) (index : ℤ) :
    List (TimelineEvent Stamp) :=
  let day := clock.day.unitOf (pageDate clock props index)
  events.filter fun event =>
    clock.day.startOf day ≤ parse event.start && parse event.start ≤ clock.day.endOf day

def goToPage (index : ℤ) (state : State) : State :=
  if index < 0 ∨ index ≥ props.size * 2 then state
  else { index := index, date := pageDate clock props index }

/-- The loop of `renderWeekDays`. -/
def weekFrom (end_ start : ℤ) : List ℤ :=
  if isSameOrBefore clock.day start end_ then start :: weekFrom end_ (clock.addDays start 1) else []
  -- the day of the start comes closer to the day after the end
  termination_by (clock.day.unitOf end_ + 1 - clock.day.unitOf start).toNat
  decreasing_by
    rename_i before
    simp only [isSameOrBefore, decide_eq_true_eq] at before
    rw [clock.day_addDays]
    omega

def week : List ℤ := weekFrom clock props.end_ props.start

/-- `day.startOf('day').diff(date.startOf('day'), 'days')`. -/
def diffDays (day date : ℤ) : ℤ := clock.day.unitOf day - clock.day.unitOf date

def tapDay (day : ℤ) (state : State) : State := goToPage clock props (state.index + diffDays clock day state.date) state

def leadingDigit (number : ℚ) : ℤ := (number / 10 ^ Int.log 10 |number|).num.tdiv (number / 10 ^ Int.log 10 |number|).den

/-- `parseInt` of a number, whose text it reads up to the point. -/
def parseInt (number : ℚ) : ℤ :=
  -- text with an exponent: one digit stands before the point
  if number ≠ 0 ∧ (|number| < 1 / 10 ^ 6 ∨ 10 ^ 21 ≤ |number|) then leadingDigit number
  else number.num.tdiv number.den

example : parseInt (2339 / 1000) = 2 ∧ parseInt (-53 / 10 ^ 8) = -5 := by decide +kernel

/-- `onMomentumScrollEnd`. -/
def swipe (offset : ℚ) : State :=
  let index := parseInt (offset / props.width)
  { index := index, date := pageDate clock props index }

inductive Action where
  | tap (position : ℕ)
  | swipe (offset : ℚ)

def step (state : State) : Action → Option State
  | .tap position => (week clock props)[position]?.map fun day => tapDay clock props day state
  | .swipe offset => some (swipe clock props offset)

/-- The date is the one of the page, and a tap on any shown day goes to the page of that day. -/
structure InStep (state : State) : Prop where
  date : clock.day.unitOf state.date = clock.day.unitOf props.initDate + (state.index - props.size)
  tapped : ∀ day ∈ week clock props,
    (tapDay clock props day state).index = state.index + diffDays clock day state.date ∧
      0 ≤ (tapDay clock props day state).index ∧ (tapDay clock props day state).index < props.size * 2 ∧
      clock.day.unitOf (pageDate clock props (tapDay clock props day state).index) = clock.day.unitOf day

end Component

/-- The view that `PendingEventDetails` and `InvitationCard` open for an event. -/
def opened (clock : DayClock) (start end_ : ℤ) (width : ℚ) : Props where
  -- the date is passed as text without a time of day
  initDate := clock.day.startOf (clock.day.unitOf (clock.addDays start 4))
  size := 4
  width := width
  start := start
  end_ := end_

section Week
variable {clock : DayClock} {props : Props}

theorem weekFrom_days (end_ start : ℤ) :
    (weekFrom clock end_ start).map clock.day.unitOf = upTo (clock.day.unitOf start) (clock.day.unitOf end_ + 1) := by
  fun_induction weekFrom clock end_ start with
  | case1 start before ih =>
    simp only [isSameOrBefore, decide_eq_true_eq] at before
    rw [List.map_cons, ih, clock.day_addDays, ← upTo_cons (by omega)]
  | case2 start after =>
    simp only [isSameOrBefore, decide_eq_true_eq] at after
    rw [List.map_nil, upTo_empty (by omega)]

theorem mem_week {day : ℤ} (shown : day ∈ week clock props) :
    clock.day.unitOf props.start ≤ clock.day.unitOf day ∧ clock.day.unitOf day ≤ clock.day.unitOf props.end_ := by
  have inside := List.mem_map_of_mem (f := clock.day.unitOf) shown
  rw [week, weekFrom_days, mem_upTo] at inside
  omega

theorem day_pageDate (index : ℤ) : clock.day.unitOf (pageDate clock props index) =
    clock.day.unitOf props.initDate + (index - props.size) :=
  clock.day_addDays _ _

theorem day_opened (start end_ : ℤ) (width : ℚ) :
    clock.day.unitOf (opened clock start end_ width).initDate = clock.day.unitOf start + 4 := by
  rw [opened, Granularity.unitOf_startOf_unitOf, clock.day_addDays]

theorem tapDay_index {day : ℤ} {state : State} (lower : 0 ≤ state.index + diffDays clock day state.date)
    (upper : state.index + diffDays clock day state.date < props.size * 2) :
    (tapDay clock props day state).index = state.index + diffDays clock day state.date := by
  have inside : ¬ (state.index + diffDays clock day state.date < 0 ∨
      state.index + diffDays clock day state.date ≥ props.size * 2) := by omega
  rw [tapDay, goToPage, if_neg inside]

/-- A state whose date is the one of its page is in step: over the week of an
organised event no tap leaves the pages of the list. -/
theorem inStep_of_date {start end_ : ℤ} {width : ℚ} (spans : clock.day.unitOf end_ = clock.day.unitOf start + 6)
    {state : State} (date : clock.day.unitOf state.date =
      clock.day.unitOf (opened clock start end_ width).initDate + (state.index - (opened clock start end_ width).size)) :
    InStep clock (opened clock start end_ width) state := by
  constructor
  case date => exact date
  case tapped =>
    intro day shown
    obtain ⟨lower, upper⟩ := mem_week shown
    rw [day_opened] at date
    -- the target counts the days from the start of the event
    have target : state.index + diffDays clock day state.date =
        clock.day.unitOf day - clock.day.unitOf start := by
      simp only [opened] at date
      unfold diffDays
      omega
    simp only [opened] at lower upper
    have moved : (tapDay clock (opened clock start end_ width) day state).index =
        state.index + diffDays clock day state.date := by
      apply tapDay_index
      · omega
      · simp only [opened]
        omega
    refine ⟨moved, ?_, ?_, ?_⟩
    · omega
    · simp only [opened] at moved ⊢
      omega
    · rw [moved, day_pageDate, day_opened]
      simp only [opened]
      omega

theorem inStep_step {start end_ : ℤ} {width : ℚ} (spans : clock.day.unitOf end_ = clock.day.unitOf start + 6)
    {state next : State} (inStep : InStep clock (opened clock start end_ width) state) {action : Action}
    (moved : step clock (opened clock start end_ width) state action = some next) :
    InStep clock (opened clock start end_ width) next := by
  apply inStep_of_date spans
  cases action with
  | tap position =>
    obtain ⟨day, _, rfl⟩ := Option.map_eq_some_iff.mp moved
    unfold tapDay goToPage
    split
    · exact inStep.date
    · exact day_pageDate _
  | swipe offset =>
    cases moved
    exact day_pageDate _

end Week

/-! ## The week of an organised event -/

/-- Seven days, shown as they are, and a view that stays in step over them. -/
structure WeekShown (clock : DayClock) (width : ℚ) (actions : List Action) (start end_ : ℤ) : Prop where
  spans : clock.day.unitOf end_ = clock.day.unitOf start + 6
  shown : (week clock (opened clock start end_ width)).map clock.day.unitOf =
    upTo (clock.day.unitOf start) (clock.day.unitOf start + 7)
  inStep : Always (step clock (opened clock start end_ width)) (InStep clock (opened clock start end_ width))
    (.initial (opened clock start end_ width)) actions

theorem weekShown_of_spans {clock : DayClock} {start end_ : ℤ}
    (spans : clock.day.unitOf end_ = clock.day.unitOf start + 6) (width : ℚ) (actions : List Action) :
    WeekShown clock width actions start end_ := by
  constructor
  case spans => exact spans
  case shown =>
    rw [week, weekFrom_days]
    simp only [opened, spans]
    congr 1
    omega
  case inStep =>
    apply always_of_step
    case keep => exact fun state action next inStep moved => inStep_step spans inStep moved
    case start => exact inStep_of_date spans (by simp [State.initial])

/-- The pickers of `OrganiseEvent` keep the end six days after the start. -/
theorem organised_spans {clock : DayClock} {form next : OrganiseEvent.Form}
    (spans : clock.day.unitOf form.state.end_ = clock.day.unitOf form.state.start + 6) {action : OrganiseEvent.Action}
    (moved : OrganiseEvent.step clock form action = some next) :
    clock.day.unitOf next.state.end_ = clock.day.unitOf next.state.start + 6 := by
  cases action with
  | startChanged newDate =>
    cases moved
    exact clock.day_addDays newDate 6
  | endChanged newDate =>
    cases moved
    simp
  | openAddInvitees =>
    simp only [OrganiseEvent.step] at moved
    split at moved
    next => exact Option.some.inj moved ▸ spans
    next => exact Option.some.inj moved ▸ spans
  | usersSnapshot text docs =>
    obtain ⟨search, _, rfl⟩ := Option.map_eq_some_iff.mp moved
    exact spans
  | pick position =>
    obtain ⟨invitee, _, rfl⟩ := Option.map_eq_some_iff.mp moved
    exact spans
  | _ =>
    cases moved
    exact spans

/-- Whatever is done in the form, the event it holds spans seven days, and the week
view opened for it shows these days and reaches each of them from every state. -/
theorem organised_weekShown (clock : DayClock) (currentDate : ℤ) (changes : List OrganiseEvent.Action) (width : ℚ)
    (actions : List Action) :
    Always (OrganiseEvent.step clock) (fun form => WeekShown clock width actions form.state.start form.state.end_)
      (.initial clock currentDate) changes := by
  have start : clock.day.unitOf (OrganiseEvent.Form.initial clock currentDate).state.end_ =
      clock.day.unitOf (OrganiseEvent.Form.initial clock currentDate).state.start + 6 :=
    clock.day_addDays currentDate 6
  apply (always_of_step (fun form action next spans moved => organised_spans spans moved) changes start).mono
  exact fun form spans => weekShown_of_spans spans width actions

end PlenR.Timeline.EventCalendar
