/-
The next time of a cron schedule: the first whole second after a given instant whose parts the
schedule's fields all admit. A year that has yet to begin is not searched from its beginning (see
`Cron.entry?`). Looking past the last instant is a fault of its own.
-/
import Rota.Cron.Parser
import Rota.Fault
import Rota.Time.Instant

namespace Rota.Cron

/-- Whether the schedule admits a day, by its date and by its day of the week. -/
def admitsDay (cron : Cron) (number : Int) : Bool :=
  let date := Date.ofDayNumber number
  0 ≤ date.year && cron.years.contains date.year.toNat && cron.months.contains date.month &&
    cron.daysOfMonth.contains date.day && cron.daysOfWeek.contains (Date.weekdayOf number)

/-- The first time of day the schedule admits at or after a given one. -/
def firstTime? (cron : Cron) (least : TimeOfDay) : Option TimeOfDay :=
  cron.hours.findSome? fun hour =>
    if hour < least.hour then none
    else cron.minutes.findSome? fun minute =>
      if hour = least.hour ∧ minute < least.minute then none
      else cron.seconds.findSome? fun second =>
        if hour = least.hour ∧ minute = least.minute ∧ second < least.second then none
        else some ⟨hour, minute, second⟩

/-- The first day the schedule admits among so many, counted from a given one. -/
def firstDay? (cron : Cron) : Nat → Int → Option Int
  | 0, _ => none
  | days + 1, number => if cron.admitsDay number then some number else firstDay? cron days (number + 1)

/-- The day after the last that any schedule admits. -/
def endOfDays : Int := Date.dayNumber ⟨2101, 1, 1⟩

def instantAt? (day : Int) (time : TimeOfDay) : Option Instant :=
  Instant.ofNanos? ((day * secondsPerDay + time.toSeconds) * nanosPerSecond)

/-- The first second the schedule admits at or after a given time of a given day. -/
def firstFrom? (cron : Cron) (day : Int) (time : TimeOfDay) : Option Instant :=
  match if cron.admitsDay day then cron.firstTime? time else none with
  | some found => instantAt? day found
  | none => do
    let later ← cron.firstDay? (endOfDays - (day + 1)).toNat (day + 1)
    instantAt? later (← cron.firstTime? .midnight)

/-- Where the search for the next time sets in: in the first year admitted that is not over. A year
still to come is entered in the same month, on the same day and at the same time as the instant, not
at its beginning. Where the day is 29 February and the year has none, that is the 28th, all of it
unless the schedule admits a 29th. -/
def entry? (cron : Cron) (start : Instant) : Option (Date × TimeOfDay) :=
  let date := start.date
  (cron.years.find? fun (year : Nat) => decide (date.year ≤ (year : Int))).map fun year =>
    let day := min date.day (Date.lastOfMonth year date.month)
    (⟨year, date.month, day⟩,
      if day < date.day ∧ !cron.daysOfMonth.contains date.day then .midnight else start.timeOfDay)

/-- The next time of the schedule after an instant, if there is one. A schedule has no times for an
instant before the year 0. -/
def next (cron : Cron) (after : Instant) : Except Fault (Option Instant) :=
  match after.add? .second with
  | none => .error .instantOverflow
  | some start => .ok (
    if start.date.year < 0 then none
    else (cron.entry? start).bind fun (date, time) => cron.firstFrom? date.dayNumber time)

end Rota.Cron
