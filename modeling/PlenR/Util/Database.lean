import PlenR.Util.Calendar

/-! The import of a Google calendar, as `Database.js` performs it. -/

set_option autoImplicit false

namespace PlenR.Util.Database

open PlenR.Time

structure Import where
  written : List Event
  newCalendar : Calendar

/-- One turn of the loop: an item that cannot be formatted is skipped. -/
def importItem (clock : Clock) (state : Import) (event : Event.GoogleItem) : Import :=
  match Event.formatGoogle clock event with
  | .ok newEvent =>
      { written := state.written ++ [newEvent]
        newCalendar := state.newCalendar.addEvent newEvent }
  | .error _ => state

def importCalendarFromGoogle (clock : Clock) (freshId summary : String) (items : List Event.GoogleItem) : Import :=
  items.foldl (importItem clock) { written := [], newCalendar := .new freshId summary }

end PlenR.Util.Database
