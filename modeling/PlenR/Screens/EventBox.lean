import PlenR.Time.Wall
import PlenR.Util.Calendar

/-! The time in the box of an event, as `TimeInfo` of `EventBox.js` words it.

The words depend on where the selected day lies in the event, which `TimeInfo`
asks day by day, while `getEvents` lets an event through by minutes as well. The
last branch, an alert, is for a day that is neither the first, nor the last, nor
between both, and `getEvents` lists no event on such a day.
-/

set_option autoImplicit false

namespace PlenR.Screens.EventBox

open PlenR.Time PlenR.Util

def formatDateAMPM (clock : WallClock) (date : ℤ) : String :=
  let hours := clock.getHours date
  let minutes := clock.getMinutes date
  let ampm := if hours ≥ 12 then "pm" else "am"
  let hours := hours % 12
  let hours := if hours = 0 then 12 else hours
  let minutes := if minutes < 10 then "0" ++ toString minutes else toString minutes
  toString hours ++ ":" ++ minutes ++ " " ++ ampm

/-- What `render` of `TimeInfo` comes to: the texts of a view, or an alert and no view. -/
inductive TimeInfo where
  | view (texts : List String)
  | alert (message : String)
  deriving DecidableEq, Repr

def render (clock : WallClock) (event : Event) (day_selected : ℤ) : TimeInfo :=
  let formatted_start := formatDateAMPM clock event.start
  let formatted_end := formatDateAMPM clock event.end_
  if event.allday then .view ["all-day"]
  else if !isSame clock.day event.start event.end_ then
    if isSame clock.day day_selected event.start then .view ["starts", formatted_start]
    else if isStrictlyBetween clock.day day_selected event.start event.end_ then .view ["all-day"]
    else if isSame clock.day day_selected event.end_ then .view ["ends", formatted_end]
    else .alert "something wrong with the event. Or I missed out a case in my if-else statement oops"
  else .view [formatted_start, formatted_end]

section Words
variable (clock : WallClock)

theorem formatDateAMPM_ne {word : String} (plain : ':' ∉ word.toList) (date : ℤ) :
    formatDateAMPM clock date ≠ word := by
  intro same
  apply plain
  rw [← same]
  simp [formatDateAMPM]

theorem formatDateAMPM_ne_starts (date : ℤ) : formatDateAMPM clock date ≠ "starts" :=
  formatDateAMPM_ne clock (by decide) date

theorem formatDateAMPM_ne_ends (date : ℤ) : formatDateAMPM clock date ≠ "ends" :=
  formatDateAMPM_ne clock (by decide) date

end Words

section Render
variable {clock : WallClock} {event : Event} {date : ℤ}

inductive Branch (clock : WallClock) (event : Event) (date : ℤ) : TimeInfo → Prop where
  | allday : event.allday = true → Branch clock event date (.view ["all-day"])
  | single : clock.day.unitOf event.start = clock.day.unitOf event.end_ →
      Branch clock event date (.view [formatDateAMPM clock event.start, formatDateAMPM clock event.end_])
  | first : clock.day.unitOf event.start ≠ clock.day.unitOf event.end_ →
      clock.day.unitOf date = clock.day.unitOf event.start →
      Branch clock event date (.view ["starts", formatDateAMPM clock event.start])
  | between : clock.day.unitOf event.start < clock.day.unitOf date →
      clock.day.unitOf date < clock.day.unitOf event.end_ → Branch clock event date (.view ["all-day"])
  | last : clock.day.unitOf event.start ≠ clock.day.unitOf event.end_ →
      clock.day.unitOf date = clock.day.unitOf event.end_ →
      Branch clock event date (.view ["ends", formatDateAMPM clock event.end_])
  | outside (message : String) : clock.day.unitOf date ≠ clock.day.unitOf event.start →
      ¬ (clock.day.unitOf event.start < clock.day.unitOf date ∧ clock.day.unitOf date < clock.day.unitOf event.end_) →
      clock.day.unitOf date ≠ clock.day.unitOf event.end_ → Branch clock event date (.alert message)

theorem render_branch (clock : WallClock) (event : Event) (date : ℤ) :
    Branch clock event date (render clock event date) := by
  unfold render
  simp only [Bool.not_eq_true', Bool.eq_false_iff, ne_eq, isSame_iff, isStrictlyBetween_iff]
  split
  next allday => exact .allday allday
  next =>
    split
    next several =>
      split
      next first => exact .first several first
      next notFirst =>
        split
        next between => exact .between between.1 between.2
        next notBetween =>
          split
          next last => exact .last several last
          next notLast => exact .outside _ notFirst notBetween notLast
    next single => exact .single (not_not.mp single)

theorem not_outside (occurs : Calendar.occursOn clock.toClock date event = true) (message : String) :
    render clock event date ≠ .alert message := by
  simp only [Calendar.occursOn, Bool.or_eq_true, isSame_iff, isBetween_iff] at occurs
  intro alerted
  have branch := render_branch clock event date
  rw [alerted] at branch
  cases branch with
  | outside _ notFirst notBetween notLast =>
    obtain (first | between) | last := occurs
    · exact notFirst first.symm
    · have lower := clock.dayOfMinute.unitOf_mono between.1
      have upper := clock.dayOfMinute.unitOf_mono between.2.le
      exact notBetween ⟨lower.lt_of_ne (Ne.symm notFirst), upper.lt_of_ne notLast⟩
    · exact notLast last.symm

end Render

/-- For an event that the calendar lists for the day there is no alert, and for one
with times that ends after its start each wording is shown on exactly its days. -/
theorem render_of_getEvents (clock : WallClock) (calendar : Calendar) (date : ℤ) (event : Event)
    (listed : event ∈ (calendar.getEvents clock.toClock date).toArray) :
    (∀ message, render clock event date ≠ .alert message) ∧
      (event.allday = false → event.start ≤ event.end_ →
        (render clock event date = .view [formatDateAMPM clock event.start, formatDateAMPM clock event.end_] ↔
            clock.day.unitOf event.start = clock.day.unitOf event.end_) ∧
          (render clock event date = .view ["starts", formatDateAMPM clock event.start] ↔
            clock.day.unitOf event.start ≠ clock.day.unitOf event.end_ ∧
              clock.day.unitOf date = clock.day.unitOf event.start) ∧
          (render clock event date = .view ["ends", formatDateAMPM clock event.end_] ↔
            clock.day.unitOf event.start ≠ clock.day.unitOf event.end_ ∧
              clock.day.unitOf date = clock.day.unitOf event.end_) ∧
          (render clock event date = .view ["all-day"] ↔
            clock.day.unitOf event.start < clock.day.unitOf date ∧
              clock.day.unitOf date < clock.day.unitOf event.end_)) := by
  have occurs : Calendar.occursOn clock.toClock date event = true := by
    unfold Calendar.getEvents at listed
    rw [SortedList.toArray_filter] at listed
    exact (List.mem_filter.mp listed).2
  constructor
  · exact not_outside occurs
  · intro timed ordered
    obtain ⟨lower, upper⟩ := Calendar.coversDay_of_occursOn ordered occurs
    have branch := render_branch clock event date
    generalize render clock event date = shown at branch ⊢
    have notStarts := formatDateAMPM_ne_starts clock event.start
    have notEnds := formatDateAMPM_ne_ends clock event.start
    cases branch with
    | allday allday =>
      rw [timed] at allday
      cases allday
    | single single =>
      simp [single, notStarts, notEnds]
      omega
    | first several first =>
      simp [several, first, notStarts.symm]
    | between before after =>
      simp
      omega
    | last several last =>
      simp [several, last, notEnds.symm]
      omega
    | outside message notFirst notBetween notLast => omega

-- from the evening of 1 January 1970 to the morning of the third
def trip : Event := .plain "trip" 72000000 201600000

/-- On the day between, noon selected, the box says that the trip lasts all day. -/
theorem render_of_getEvents_trip :
    (∀ message, render universalWall trip 129600000 ≠ .alert message) ∧
      render universalWall trip 129600000 = .view ["all-day"] := by
  have shown := render_of_getEvents universalWall (.parse "c" [trip] "Main Calendar") 129600000 trip (by decide)
  exact ⟨shown.1, (shown.2 rfl (by decide)).2.2.2.mpr (by decide)⟩

end PlenR.Screens.EventBox
