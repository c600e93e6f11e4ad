import PlenR.Foundation.Run
import PlenR.Foundation.Granularity
import PlenR.Time.Clock
import PlenR.Util.Event
import PlenR.Util.SortedList
import PlenR.Util.Calendar
import PlenR.Foundation.OrderedView
import PlenR.Util.CalendarView
import PlenR.Foundation.Tracks
import PlenR.Timeline.Packer
import PlenR.Timeline.Packing
import PlenR.Foundation.Snapshots
import PlenR.Screens.MyPlenR
import PlenR.Screens.DayAgenda
import PlenR.Foundation.KeyedList
import PlenR.Screens.Entries
import PlenR.Screens.StaleListeners
import PlenR.Foundation.Ownership
import PlenR.Screens.Accounts
import PlenR.Foundation.Counting
import PlenR.Time.Format
import PlenR.Screens.MonthPages
import PlenR.Screens.TimelineSource
import PlenR.Screens.EditEvent
import PlenR.Screens.EditSessions
import PlenR.Foundation.Effects
import PlenR.Screens.AddEvent
import PlenR.Screens.ConfirmPending
import PlenR.Screens.InvitationCard
import PlenR.Screens.Deliveries
import PlenR.Timeline.Boxes
import PlenR.Foundation.Accretion
import PlenR.Screens.PendingEventDetails
import PlenR.Screens.Schedules
import PlenR.Screens.Navigation
import PlenR.Screens.ShownEvents
import PlenR.Screens.OrganiseEvent
import PlenR.Timeline.EventCalendar
import PlenR.Timeline.DayViews
import PlenR.Foundation.Registrations
import PlenR.Screens.Unsubscribing
import PlenR.Timeline.Columns
import PlenR.Foundation.Merging
import PlenR.Foundation.StableSort
import PlenR.Util.Parse
import PlenR.Screens.RetrieveEvents
import PlenR.Time.Wall
import PlenR.Screens.DatePickers
import PlenR.Screens.EventBox
import PlenR.Screens.PendingForm
import PlenR.Foundation.Decoding
import PlenR.Screens.GoogleImport
import PlenR.Util.AllDayItems
import PlenR.Util.Sizes
import PlenR.Util.Batches
import PlenR.Util.MonthRange
import PlenR.Screens.GoogleSyncs
import PlenR.Util.Copies
import PlenR.Foundation.Json
import PlenR.Time.Iso
import PlenR.Util.Serialise
import PlenR.Screens.Consent
import PlenR.Foundation.Threading
import PlenR.Screens.CalendarMonthView
import PlenR.Screens.DaySelection
import PlenR.Timeline.Rectangles
import PlenR.Screens.Contents
import PlenR.Screens.Agenda
import PlenR.Screens.GoogleLogin
import PlenR.Foundation.PrefixCodes
import PlenR.Screens.RenderedTimes
import PlenR.Screens.Invitations
import PlenR.Foundation.Subscribers
import PlenR.Screens.Subscriptions
import PlenR.Screens.InAppNotifications
import PlenR.Screens.CalendarSync
import PlenR.Screens.SearchHits
import PlenR.Foundation.Sharing
import PlenR.Screens.Devices
