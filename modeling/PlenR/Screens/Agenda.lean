import PlenR.Screens.EventDetails

/-! The agenda against what was put and not taken out.

When the displayed month has been read completely, the chain from the writers to
the screen is closed: collections, listeners of the month, parsed entries, the
filter of the day and the fold of merges together show the events that were put
under some calendar of the account and not removed since, as far as they start in
the displayed month.
-/

set_option autoImplicit false

namespace PlenR.Screens.EventDetails

open PlenR.Time PlenR.Util Foundation Foundation.Run MyPlenR

/-- Every calendar of the account has reported, and all that is shown is the displayed month's. -/
structure Read (clock : Clock) (user : String) (world : World) : Prop where
  settled : Settled clock user world
  reported : ∀ doc ∈ world.store.calendars user, (world.reports doc.id).isSome
  displayed : ∀ calendar report, world.reports calendar = some report → Displayed clock world.screen report.query

/-- The agenda lists what the calendars of the account give for the selected day and the displayed month. -/
def ShowsContents (clock : Clock) (user : String) (state : State) : Prop :=
  ∀ event, event ∈ (state.world.screen.state.retrieveEvents clock state.world.screen.state.currentTime).toArray ↔
    (∃ doc ∈ state.world.store.calendars user, state.contents user doc.id event.id = some event) ∧
      StartsInMonth clock state.world event ∧ Listed clock state.world.screen.state.currentTime event

instance (clock : Clock) (world : World) (event : Event) : Decidable (StartsInMonth clock world event) :=
  inferInstanceAs (Decidable (_ = _))

section Agenda
variable {clock : Clock} {user : String} {state : State}

theorem mem_agenda_iff {world : World} (recorded : Recorded world) {date : ℤ} {event : Event} :
    event ∈ (world.screen.state.retrieveEvents clock date).toArray ↔
      (∃ calendar report, world.reports calendar = some report ∧ event ∈ report.docs) ∧ Listed clock date event := by
  rw [mem_retrieveEvents]
  simp only [occursOn_iff_listed]
  constructor
  · intro ⟨entry, member, inside, listed⟩
    obtain ⟨report, found, rfl⟩ := (mem_local_calendars recorded).mp member
    exact ⟨⟨_, report, found, (recorded.entry_perm found).mem_iff.mp inside⟩, listed⟩
  · intro ⟨⟨calendar, report, found, inside⟩, listed⟩
    have title : report.entry.title = calendar :=
      (Calendar.parse_title _ _ _).trans (recorded.named calendar report found)
    have member : report.entry ∈ world.screen.state.local_calendars :=
      (mem_local_calendars recorded).mpr ⟨report, title ▸ found, rfl⟩
    exact ⟨report.entry, member, (recorded.entry_perm found).mem_iff.mpr inside, listed⟩

/-- A calendar that reported to the displayed month is one of the account. -/
theorem calendar_of_report (kept : Kept state) (read : Read clock user state.world) {calendar : String}
    {report : EventsReport} (found : state.world.reports calendar = some report) :
    ∃ doc ∈ state.world.store.calendars user, doc.id = calendar := by
  obtain ⟨doc, present, same⟩ := kept.informed.calendars _ (kept.recorded.remembered calendar report found)
  have account : report.query.user = user :=
    Option.some.inj ((read.displayed calendar report found).1.symm.trans read.settled.signedIn)
  exact ⟨doc, account ▸ present, same.trans (kept.recorded.named calendar report found)⟩

theorem showsContents (kept : Kept state) (read : Read clock user state.world) : ShowsContents clock user state := by
  intro event
  rw [mem_agenda_iff kept.recorded, ← and_assoc]
  apply and_congr_left
  intro _
  constructor
  · intro ⟨calendar, report, found, inside⟩
    have held := (mem_report_iff kept.recorded read.settled found (read.displayed calendar report found) event).mp inside
    obtain ⟨doc, present, rfl⟩ := calendar_of_report kept read found
    exact ⟨⟨doc, present, kept.refines.mem_iff.mp held.1⟩, held.2⟩
  · intro ⟨⟨doc, present, given⟩, starts⟩
    obtain ⟨report, found⟩ := Option.isSome_iff_exists.mp (read.reported doc present)
    refine ⟨doc.id, report, found, ?_⟩
    exact (mem_report_iff kept.recorded read.settled found (read.displayed doc.id report found) event).mpr
      ⟨kept.refines.mem_iff.mpr given, starts⟩

end Agenda

/-- In every run of the app from an empty store, whenever the displayed month of the
signed-in account has been read, the agenda of the selected day lists exactly the
events put under one of its calendars and not removed or replaced since that start
in this month and last over this day. -/
theorem agenda_showsContents (clock : Clock) (today : ℤ) (user : String) (actions : List Action) :
    Always (step clock) (fun state => Read clock user state.world → ShowsContents clock user state)
      (.initial clock today) actions := by
  apply (always_of_step (fun _ _ _ kept moved => kept_step kept moved) actions (kept_initial clock today)).mono
  exact fun state kept read => showsContents kept read

/-! ## A lunch in July -/

-- 18 July 2018, 12:34 to 13:34
def lunch : Event := .plain "lunch" 1531917240000 1531920840000

def lunchRead : List Action :=
  [.write (.signIn "ann"), .write (.onAddEvent "ann" lunch), .callback (.authStateChanged (some "ann")),
    .callback (.calendarsSnapshot 0 [Store.plenrCalendar]), .callback (.eventsSnapshot 0 [lunch] "entry")]

/-- After the reports the lunch of the day is listed. -/
theorem lunch_shown : ∃ state, run (step universalClock) (.initial universalClock 1531917240000) lunchRead = some state ∧
    lunch ∈ (state.world.screen.state.retrieveEvents universalClock state.world.screen.state.currentTime).toArray := by
  refine ⟨_, rfl, ?_⟩
  have always := agenda_showsContents universalClock 1531917240000 "ann" lunchRead
  have shows := (((((always.2 _ rfl).2 _ rfl).2 _ rfl).2 _ rfl).2 _ rfl) (by
    constructor
    case settled =>
      constructor
      case signedIn => rfl
      case listening =>
        intro doc member
        obtain rfl : doc = Store.plenrCalendar := List.mem_singleton.mp member
        exact ⟨_, List.mem_singleton_self _, rfl, by decide⟩
      case delivered =>
        intro listener member _
        obtain rfl := List.mem_singleton.mp member
        exact ⟨[lunch], rfl, by decide⟩
    case reported =>
      intro doc member
      obtain rfl : doc = Store.plenrCalendar := List.mem_singleton.mp member
      rfl
    case displayed =>
      intro calendar report found
      obtain ⟨rfl, rfl⟩ | ⟨_, before⟩ := update_eq_some_iff.mp found
      · decide
      · cases before)
  exact (shows lunch).mpr ⟨⟨Store.plenrCalendar, List.mem_singleton_self _, rfl⟩, by decide, by decide⟩

end PlenR.Screens.EventDetails
