import PlenR.Screens.Entries

/-! The entries of the displayed month, and the listeners of earlier ones.

An entry is keyed by its calendar alone and every listener ever registered stays
registered, so a listener of an earlier month that reports late replaces what
the displayed month's listener has shown. The entries stay right exactly as long
as no such report brings other events.
-/

set_option autoImplicit false

namespace PlenR.Screens.MyPlenR

open PlenR.Time PlenR.Util Foundation Foundation.Run

/-- What the displayed month's listener of a calendar reported last is what its one entry holds. -/
def ShowsDisplayed (world : World) : Prop :=
  ∀ calendar docs, world.shown calendar = some docs →
    ∃ entry, world.screen.state.local_calendars.filter (fun other => other.title = calendar) = [entry] ∧
      entry.eventsList.toArray.Perm docs

/-- A report is the displayed month's, or brings the events that are shown already,
or there is nothing to replace yet. -/
def OnTime (clock : Clock) (world : World) : WorldAction → Prop
  | .callback (.eventsSnapshot position docs _) => ∀ query ∈ world.screen.queryAt position,
      Displayed clock world.screen query ∨ ∀ shown ∈ world.shown query.calendar, docs.Perm shown
  | _ => True

section Step
variable {clock : Clock} {world next : World}

def Agrees (reports : String → Option EventsReport) (shown : String → Option (List Event)) : Prop :=
  ∀ calendar docs, shown calendar = some docs → ∃ report, reports calendar = some report ∧ report.docs.Perm docs

theorem showsDisplayed_iff (recorded : Recorded world) :
    ShowsDisplayed world ↔ Agrees world.reports world.shown := by
  apply forall₂_congr
  intro calendar docs
  apply imp_congr_right
  intro _
  constructor
  · intro ⟨entry, only, holds⟩
    rw [recorded.entries calendar] at only
    cases found : world.reports calendar with
    | none => simp [found] at only
    | some report =>
      simp only [found, Option.map_some, Option.toList_some, List.cons.injEq, and_true] at only
      subst only
      exact ⟨report, rfl, (recorded.entry_perm found).symm.trans holds⟩
  · intro ⟨report, found, same⟩
    exact ⟨report.entry, recorded.filter_eq found, (recorded.entry_perm found).trans same⟩

theorem Agrees.cleared (reports : String → Option EventsReport) : Agrees reports fun _ => none := nofun

theorem Agrees.displayed {reports : String → Option EventsReport} {shown : String → Option (List Event)}
    (agrees : Agrees reports shown) (calendar : String) (report : EventsReport) :
    Agrees (Function.update reports calendar (some report)) (Function.update shown calendar (some report.docs)) := by
  intro other docs found
  obtain ⟨rfl, rfl⟩ | ⟨different, before⟩ := update_eq_some_iff.mp found
  · exact ⟨report, Function.update_self .., .refl _⟩
  · rw [Function.update_of_ne different]
    exact agrees other docs before

theorem Agrees.stale_iff {reports : String → Option EventsReport} {shown : String → Option (List Event)}
    (agrees : Agrees reports shown) (calendar : String) (report : EventsReport) :
    Agrees (Function.update reports calendar (some report)) shown ↔
      ∀ docs ∈ shown calendar, report.docs.Perm docs := by
  constructor
  · intro after docs found
    obtain ⟨last, recorded, same⟩ := after calendar docs found
    rw [Function.update_self] at recorded
    cases recorded
    exact same
  · intro same other docs found
    by_cases named : other = calendar
    · rw [named, Function.update_self]
      exact ⟨report, rfl, same docs (named ▸ found)⟩
    · rw [Function.update_of_ne named]
      exact agrees other docs found

theorem step_agrees_iff (agrees : Agrees world.reports world.shown) {action : WorldAction}
    (moved : world.step clock action = some next) :
    Agrees next.reports next.shown ↔ OnTime clock world action := by
  cases action with
  | write store =>
    cases moved
    exact iff_of_true agrees trivial
  | callback action =>
    obtain ⟨screen, called, rfl⟩ := Option.map_eq_some_iff.mp moved
    cases action with
    | authStateChanged user =>
      cases user with
      | none => exact iff_of_true (Agrees.cleared _) trivial
      | some uid => exact iff_of_true agrees trivial
    | calendarsSnapshot position docs => exact iff_of_true agrees trivial
    | daySelect day => exact iff_of_true agrees trivial
    | pageChange today currentOffset =>
      -- after a page change nothing has been shown yet
      apply iff_of_true _ trivial
      simp only [World.reportsAfter, World.shownAfter]
      split
      · exact Agrees.cleared _
      · exact agrees
    | eventsSnapshot position docs freshId =>
      obtain ⟨query, source, _⟩ := eventsSnapshot_cases called
      simp only [World.reportsAfter, World.shownAfter, OnTime, source]
      -- a report of the displayed month is recorded twice, any other one only as the last report
      by_cases displayed : Displayed clock world.screen query
      · simp only [displayed, if_true]
        exact iff_of_true (agrees.displayed query.calendar ⟨query, docs, freshId⟩) (by simp [displayed])
      · simp only [displayed, if_false]
        rw [agrees.stale_iff query.calendar ⟨query, docs, freshId⟩]
        simp [displayed]

end Step

/-- In every state of a run the entries show what the displayed month's listeners
reported last, exactly if no other listener replaces it by other events. -/
theorem showsDisplayed_iff_onTime (clock : Clock) (store : Store) (today : ℤ) (actions : List WorldAction) :
    Always (World.step clock) ShowsDisplayed (.initial clock store today) actions ↔
      Guarded (World.step clock) (OnTime clock) (.initial clock store today) actions := by
  apply always_iff_guarded_of_step_iff Recorded
  case kept => exact fun world action next recorded moved => recorded.step moved
  case decided =>
    intro world action next recorded shows moved
    rw [showsDisplayed_iff (recorded.step moved)]
    exact step_agrees_iff ((showsDisplayed_iff recorded).mp shows) moved
  case start => exact .initial clock store today
  case lawful => exact (showsDisplayed_iff (.initial clock store today)).mpr (Agrees.cleared _)

/-! ## July events on the page of August -/

-- 30 July, 31 July and 1 August 2018, an hour at noon each
def july : Event := .plain "july" 1532952000000 1532955600000
def lateJuly : Event := .plain "late july" 1533038400000 1533042000000
def august : Event := .plain "august" 1533124800000 1533128400000

def turnToAugust : List WorldAction :=
  [.callback (.authStateChanged (some "ann")), .callback (.calendarsSnapshot 0 [Store.plenrCalendar]),
    .callback (.eventsSnapshot 0 [july] "first"), .callback (.pageChange 1533038400000 362100),
    .callback (.calendarsSnapshot 1 [Store.plenrCalendar]), .callback (.eventsSnapshot 1 [august] "second"),
    .write (.single "ann" Store.plenrCalendar [july, lateJuly, august] (by decide)),
    .callback (.eventsSnapshot 0 [july, lateJuly] "third")]

theorem july_replaces_august :
    ¬ Always (World.step universalClock) ShowsDisplayed
      (.initial universalClock (.single "ann" Store.plenrCalendar [july, august] (by decide)) 1533038400000)
      turnToAugust := by
  intro always
  have ends : (run (World.step universalClock)
      (.initial universalClock (.single "ann" Store.plenrCalendar [july, august] (by decide)) 1533038400000)
      turnToAugust).map (fun world => (world.shown "PlenR Calendar", world.screen.state.local_calendars)) =
        some (some [august], [Calendar.parse "third" [july, lateJuly] "PlenR Calendar"]) := by decide +kernel
  obtain ⟨reached, ran, same⟩ := Option.map_eq_some_iff.mp ends
  obtain ⟨shown, entries⟩ := Prod.mk.inj same
  have shows := (always_iff_reached _ _).mp always turnToAugust (List.prefix_refl _) reached ran
  obtain ⟨entry, only, holds⟩ := shows "PlenR Calendar" [august] shown
  rw [entries] at only
  have replaced : [Calendar.parse "third" [july, lateJuly] "PlenR Calendar"] = [entry] := only
  cases replaced
  revert holds
  decide

end PlenR.Screens.MyPlenR
