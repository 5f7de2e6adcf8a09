/-!
# Request parameters

The names of the fields that a calendar request may have.
-/

namespace MeetingCalendar.Parameter

abbrev title : String := "title"
abbrev description : String := "description"
abbrev location : String := "location"
abbrev startDate : String := "startDate"
abbrev endDate : String := "endDate"
abbrev duration : String := "duration"
abbrev typeId : String := "typeId"
abbrev repeating : String := "repeating"
abbrev frequency : String := "frequency"
abbrev interval : String := "interval"
abbrev repeatsOnDay : String := "repeatsOnDay"
abbrev repeatsOnNthDayOfMonth : String := "repeatsOnNthDayOfMonth"
abbrev repeatsOnLastWeekdayOfMonth : String := "repeatsOnLastWeekdayOfMonth"
abbrev remindById : String := "remindById"
abbrev firstReminderOffset : String := "firstReminderOffset"
abbrev secondReminderOffset : String := "secondReminderOffset"
abbrev meetingTime : String := "meetingTime"
abbrev rescheduleBasedOnMeetingDates : String := "rescheduleBasedOnMeetingDates"
abbrev presentMeetingDate : String := "presentMeetingDate"
abbrev newMeetingDate : String := "newMeetingDate"
abbrev locale : String := "locale"
abbrev dateFormat : String := "dateFormat"
abbrev timeFormat : String := "timeFormat"

/-- Every parameter of a request to create or update an event. -/
def all : List String :=
  [title, description, location, startDate, endDate, duration, typeId, repeating, frequency,
    interval, repeatsOnDay, repeatsOnNthDayOfMonth, repeatsOnLastWeekdayOfMonth, remindById,
    firstReminderOffset, secondReminderOffset, meetingTime, rescheduleBasedOnMeetingDates,
    presentMeetingDate, newMeetingDate, locale, dateFormat, timeFormat]

end MeetingCalendar.Parameter
