import Mathlib.Data.List.Nodup
import PlenR.Foundation.Decoding
import PlenR.Screens.Store
import PlenR.Util.Database
import PlenR.Util.Parse

/-! The three ways the app reads the items of a Google calendar.

The import formats every item inside a `try`, so an item that is no event is
skipped, and what is written and what is returned are made of the same events.
The two decoders of `Calendar.js` have no `try`: one such item and they return
nothing at all.
-/

set_option autoImplicit false

namespace PlenR.Screens.GoogleImport

open PlenR.Time PlenR.Util Foundation Foundation.Decoding

/-! ## The event of an item -/

def bothEnds (field : Event.GoogleTime → Option ℤ) (item : Event.GoogleItem) : Option (ℤ × ℤ) := do
  let start ← item.start
  let end_ ← item.end_
  return (← field start, ← field end_)

/-- Both ends are given, and both as days or both as instants. -/
def Valid (item : Event.GoogleItem) : Prop :=
  (bothEnds Event.GoogleTime.date item).isSome ∨ (bothEnds Event.GoogleTime.dateTime item).isSome

instance (item : Event.GoogleItem) : Decidable (Valid item) := inferInstanceAs (Decidable (_ ∨ _))

def times (clock : Clock) (item : Event.GoogleItem) : Option (ℤ × ℤ × Bool) :=
  match bothEnds Event.GoogleTime.date item with
  | some (first, last) => some (clock.day.startOf first, clock.day.startOf last, true)
  | none => (bothEnds Event.GoogleTime.dateTime item).map fun (first, last) => (first, last, false)

def eventOf (item : Event.GoogleItem) (times : ℤ × ℤ × Bool) : Event where
  title := item.summary
  location := item.location
  start := times.1
  end_ := times.2.1
  notes := item.description
  allday := times.2.2
  isImported := true
  id := item.id
  recurrence := item.recurrence

def eventsOf (clock : Clock) (items : List Event.GoogleItem) : List Event :=
  items.filterMap fun item => (times clock item).map (eventOf item)

section Format
variable {clock : Clock} {item : Event.GoogleItem} {event : Event}

theorem times_isSome_iff : (times clock item).isSome ↔ Valid item := by
  unfold times Valid
  cases bothEnds Event.GoogleTime.date item with
  | none => simp
  | some days => simp

theorem toOption_formatGoogle (item : Event.GoogleItem) :
    (Event.formatGoogle clock item).toOption = (times clock item).map (eventOf item) := by
  obtain ⟨id, summary, location, description, start, end_, recurrence⟩ := item
  rcases start with _ | ⟨_ | date, _ | dateTime⟩ <;> rcases end_ with _ | ⟨_ | endDate, _ | endDateTime⟩ <;> rfl

theorem decoded_formatGoogle (items : List Event.GoogleItem) :
    decoded (Event.formatGoogle clock) items = eventsOf clock items := by
  unfold decoded eventsOf
  simp only [toOption_formatGoogle]

theorem times_of_formatGoogle (formatted : Event.formatGoogle clock item = .ok event) :
    (times clock item).map (eventOf item) = some event := by
  rw [← toOption_formatGoogle, formatted]
  rfl

theorem formatGoogle_id (formatted : Event.formatGoogle clock item = .ok event) : event.id = item.id := by
  obtain ⟨_, _, rfl⟩ := Option.map_eq_some_iff.mp (times_of_formatGoogle formatted)
  rfl

theorem formatGoogle_ok_iff : (∃ event, Event.formatGoogle clock item = .ok event) ↔ Valid item := by
  rw [← times_isSome_iff, ← Option.isSome_map, ← toOption_formatGoogle]
  cases Event.formatGoogle clock item with
  | ok event => simp [Except.toOption]
  | error error => simp [Except.toOption]

variable {items : List Event.GoogleItem}

theorem mem_eventsOf : event ∈ eventsOf clock items ↔ ∃ item ∈ items, Event.formatGoogle clock item = .ok event := by
  rw [← decoded_formatGoogle]
  exact mem_decoded _

theorem eventsOf_distinct (distinct : (items.map Event.GoogleItem.id).Nodup) :
    ((eventsOf clock items).map Event.id).Nodup := by
  rw [← decoded_formatGoogle]
  exact nodup_decoded _ (fun _ _ formatted => formatGoogle_id formatted) distinct

end Format

/-! ## The import -/

def record (state : Database.Import) (event : Event) : Database.Import where
  written := state.written ++ [event]
  newCalendar := state.newCalendar.addEvent event

theorem foldl_record (events : List Event) (state : Database.Import) :
    events.foldl record state =
      { written := state.written ++ events, newCalendar := events.foldl Calendar.addEvent state.newCalendar } := by
  induction events generalizing state with
  | nil => simp
  | cons event events ih => simp [ih, record]

theorem import_eq (clock : Clock) (freshId summary : String) (items : List Event.GoogleItem) :
    Database.importCalendarFromGoogle clock freshId summary items =
      { written := eventsOf clock items, newCalendar := .parse freshId (eventsOf clock items) summary } := by
  have takes : ∀ state item event, Event.formatGoogle clock item = .ok event →
      Database.importItem clock state item = record state event := by
    intro state item event formatted
    simp [Database.importItem, formatted, record]
  have skips : ∀ state item error, Event.formatGoogle clock item = .error error →
      Database.importItem clock state item = state := by
    intro state item error failed
    simp [Database.importItem, failed]
  unfold Database.importCalendarFromGoogle
  rw [foldl_skip _ takes skips, foldl_record, decoded_formatGoogle]
  rfl

theorem mem_foldl_setEvent (user id : String) {events : List Event} (distinct : (events.map Event.id).Nodup)
    (store : Store) (stored : Event) :
    stored ∈ (events.foldl (fun store event => store.setEvent user id event) store).events user id ↔
      stored ∈ events ∨ stored ∈ store.events user id ∧ ∀ event ∈ events, stored.id ≠ event.id := by
  induction events generalizing store with
  | nil => simp
  | cons event events ih =>
    obtain ⟨fresh, distinct⟩ := List.nodup_cons.mp distinct
    rw [List.foldl_cons, ih distinct, Store.mem_setEvent, if_pos ⟨rfl, rfl⟩, List.mem_cons, List.forall_mem_cons]
    constructor
    · intro reason
      obtain later | ⟨rfl | kept, apart⟩ := reason
      · exact .inl (.inr later)
      · exact .inl (.inl rfl)
      · exact .inr ⟨kept.1, kept.2, apart⟩
    · intro reason
      obtain (rfl | later) | ⟨kept, here, apart⟩ := reason
      · -- no later event has the id of this one
        refine .inr ⟨.inl rfl, ?_⟩
        intro other member same
        exact fresh (same ▸ List.mem_map_of_mem member)
      · exact .inl later
      · exact .inr ⟨.inr ⟨kept, here⟩, apart⟩

/-- What an import of items comes to: the valid ones give one event each, which are
written and returned, and the others are skipped. -/
structure Imported (clock : Clock) (items : List Event.GoogleItem) (result : Database.Import) : Prop where
  written : result.written = eventsOf clock items
  returned : result.newCalendar.eventsList.toArray.Perm result.written
  skipped : ∀ item ∈ items, (∀ event ∈ result.written, event.id ≠ item.id) ↔
    ∃ error, Event.formatGoogle clock item = .error error
  stored : ∀ (store : Store) (user id : String) (stored : Event),
    stored ∈ (result.written.foldl (fun store event => store.setEvent user id event) store).events user id ↔
      stored ∈ result.newCalendar.eventsList.toArray ∨
        stored ∈ store.events user id ∧ ∀ event ∈ result.written, stored.id ≠ event.id

theorem skipped_iff {clock : Clock} {items : List Event.GoogleItem} (distinct : (items.map Event.GoogleItem.id).Nodup)
    {item : Event.GoogleItem} (member : item ∈ items) :
    (∀ event ∈ eventsOf clock items, event.id ≠ item.id) ↔ ∃ error, Event.formatGoogle clock item = .error error := by
  cases formatted : Event.formatGoogle clock item with
  | ok event =>
    apply iff_of_false
    · intro absent
      exact absent event (mem_eventsOf.mpr ⟨item, member, formatted⟩) (formatGoogle_id formatted)
    · intro ⟨error, impossible⟩
      cases impossible
  | error error =>
    apply iff_of_true _ ⟨error, rfl⟩
    intro event listed same
    obtain ⟨other, inside, read⟩ := mem_eventsOf.mp listed
    -- the event comes from the one item of its id
    have named : other.id = item.id := (formatGoogle_id read).symm.trans same
    rw [List.inj_on_of_nodup_map distinct inside member named, formatted] at read
    cases read

/-- The import writes and returns the same events, one for each valid item, and
skips exactly the items that cannot be formatted. -/
theorem importCalendarFromGoogle_imported (clock : Clock) (freshId summary : String) (items : List Event.GoogleItem)
    (distinct : (items.map Event.GoogleItem.id).Nodup) :
    Imported clock items (Database.importCalendarFromGoogle clock freshId summary items) := by
  have unique := (eventsOf_distinct distinct : ((eventsOf clock items).map Event.id).Nodup)
  have listed := (Calendar.parse_stableSort freshId (eventsOf clock items) summary unique).perm
  rw [import_eq]
  constructor
  case written => rfl
  case returned => exact listed
  case skipped => exact fun item member => skipped_iff distinct member
  case stored =>
    intro store user id stored
    rw [listed.mem_iff]
    exact mem_foldl_setEvent user id unique store stored

-- an item from two instants, and one that carries no times
def meeting : Event.GoogleItem where
  id := "meeting"
  summary := some "Meeting"
  location := none
  description := none
  start := some ⟨none, some 1531915200000⟩
  end_ := some ⟨none, some 1531918800000⟩
  recurrence := none

def cancelled : Event.GoogleItem where
  id := "cancelled"
  summary := none
  location := none
  description := none
  start := none
  end_ := none
  recurrence := none

theorem importCalendarFromGoogle_imported_meeting :
    Imported universalClock [cancelled, meeting]
      (Database.importCalendarFromGoogle universalClock "c" "Work" [cancelled, meeting]) :=
  importCalendarFromGoogle_imported universalClock "c" "Work" [cancelled, meeting] (by decide)

/-! ## The other decoders -/

/-- Both decoders return, one the events of the import and the other an entry for each. -/
def DecodersAgree {Stamp : Type} (format : ℤ → Stamp) (clock : Clock) (freshId name : String)
    (items : List Event.GoogleItem) (result : Database.Import) : Prop :=
  ∃ calendar entries, Calendar.parseGoogle clock freshId items = .ok calendar ∧
    Calendar.parseGoogleForTimeline format clock (some items) name = .ok entries ∧
    calendar.eventsList.toArray.Perm result.newCalendar.eventsList.toArray ∧
    (entries.map fun entry => (entry.start, entry.end_)).Perm
      (result.newCalendar.eventsList.toArray.map fun event => (format event.start, format event.end_))

section Decoders
variable {Stamp : Type} {format : ℤ → Stamp} {clock : Clock} {freshId name : String} {items : List Event.GoogleItem}

theorem parseGoogle_eq : Calendar.parseGoogle clock freshId items =
    (items.mapM (Event.formatGoogle clock)).map fun events => .parse freshId events "Google Calendar" :=
  foldlM_decode _ Calendar.addEvent items _

theorem parseGoogleForTimeline_eq : Calendar.parseGoogleForTimeline format clock (some items) name =
    (items.mapM (Event.formatGoogle clock)).map (List.map fun event =>
      { start := format event.start, end_ := format event.end_, title := name, summary := "likely free" }) :=
  mapM_decode _ _ items

theorem mapM_formatGoogle_iff {events : List Event} : items.mapM (Event.formatGoogle clock) = .ok events ↔
    (∀ item ∈ items, Valid item) ∧ events = eventsOf clock items := by
  rw [mapM_eq_ok_iff, decoded_formatGoogle]
  simp only [formatGoogle_ok_iff]

end Decoders

/-- The three decoders agree on a list of items exactly if all of them are valid. -/
theorem decodersAgree_iff_valid {Stamp : Type} (format : ℤ → Stamp) (clock : Clock) (freshId newId summary name : String)
    (items : List Event.GoogleItem) (distinct : (items.map Event.GoogleItem.id).Nodup) :
    DecodersAgree format clock newId name items (Database.importCalendarFromGoogle clock freshId summary items) ↔
      ∀ item ∈ items, Valid item := by
  unfold DecodersAgree
  rw [parseGoogle_eq, parseGoogleForTimeline_eq, import_eq]
  constructor
  · intro ⟨calendar, entries, parsed, _⟩
    cases decoding : items.mapM (Event.formatGoogle clock) with
    | error error =>
      rw [decoding] at parsed
      cases parsed
    | ok events => exact (mapM_formatGoogle_iff.mp decoding).1
  · intro valid
    have unique := (eventsOf_distinct distinct : ((eventsOf clock items).map Event.id).Nodup)
    have sorted := fun freshId title => (Calendar.parse_stableSort freshId (eventsOf clock items) title unique).perm
    rw [mapM_formatGoogle_iff.mpr ⟨valid, rfl⟩]
    refine ⟨_, _, rfl, rfl, (sorted _ _).trans (sorted _ _).symm, ?_⟩
    rw [List.map_map]
    exact ((sorted freshId summary).map _).symm

theorem decodersAgree_iff_valid_meeting :
    DecodersAgree id universalClock "n" "Ann" [meeting]
      (Database.importCalendarFromGoogle universalClock "c" "Work" [meeting]) :=
  (decodersAgree_iff_valid id universalClock "c" "n" "Work" "Ann" [meeting] (by decide)).mpr (by decide)

/-- Behind a cancelled item the meeting is imported, and `parseGoogle` aborts. -/
theorem cancelled_item_aborts :
    ¬ ∀ items : List Event.GoogleItem, (items.map Event.GoogleItem.id).Nodup →
      DecodersAgree id universalClock "n" "Ann" items
        (Database.importCalendarFromGoogle universalClock "c" "Work" items) := by
  intro agree
  obtain ⟨calendar, entries, parsed, _⟩ := agree [cancelled, meeting] (by decide)
  cases parsed

end PlenR.Screens.GoogleImport
