/-
Points in time, exact to the nanosecond, from the start of the year -262143 to the end of the year
262142, and the two ways they are written.
-/
import Rota.Time.Civil
import Rota.Time.Duration

namespace Rota

/-- A point in time, in nanoseconds since the start of 1970. -/
structure Instant where
  nanos : Int
  bounded : -8334601228800000000000 ≤ nanos ∧ nanos ≤ 8210266876799999999999
deriving DecidableEq

namespace Instant

instance : LE Instant := ⟨fun a b => a.nanos ≤ b.nanos⟩
instance : LT Instant := ⟨fun a b => a.nanos < b.nanos⟩
instance (a b : Instant) : Decidable (a ≤ b) := inferInstanceAs (Decidable (a.nanos ≤ b.nanos))
instance (a b : Instant) : Decidable (a < b) := inferInstanceAs (Decidable (a.nanos < b.nanos))

/-- The instant so many nanoseconds after the start of 1970, if it is in range. -/
def ofNanos? (nanos : Int) : Option Instant :=
  if h : -8334601228800000000000 ≤ nanos ∧ nanos ≤ 8210266876799999999999 then some ⟨nanos, h⟩
  else none

def earliest : Instant := ⟨-8334601228800000000000, by decide⟩

def latest : Instant := ⟨8210266876799999999999, by decide⟩

def epoch : Instant := ⟨0, by decide⟩

instance : Inhabited Instant := ⟨epoch⟩

/-- The instant a span later, refused outside the range. -/
def add? (t : Instant) (span : Span) : Option Instant := ofNanos? (t.nanos + span.nanos)

/-- The time from `since` until an instant, if that is not in the past. -/
def until? (t since : Instant) : Option Duration :=
  if since ≤ t then some ⟨(t.nanos - since.nanos).toNat⟩ else none

def seconds (t : Instant) : Int := t.nanos.fdiv nanosPerSecond

def subsecond (t : Instant) : Nat := (t.nanos.fmod nanosPerSecond).toNat

def dayNumber (t : Instant) : Int := t.seconds.fdiv secondsPerDay

def date (t : Instant) : Date := .ofDayNumber t.dayNumber

def timeOfDay (t : Instant) : TimeOfDay :=
  .ofSeconds (t.seconds.fmod secondsPerDay).toNat

/-- A year as text: four digits, with a sign outside the years 0 to 9999. -/
def yearText (year : Int) : String :=
  if 0 ≤ year ∧ year ≤ 9999 then Text.padded 4 year.toNat
  else (if year < 0 then "-" else "+") ++ Text.padded 4 year.natAbs

def dateText (t : Instant) : String :=
  let date := t.date
  yearText date.year ++ "-" ++ Text.padded 2 date.month ++ "-" ++ Text.padded 2 date.day

def timeText (t : Instant) : String :=
  let time := t.timeOfDay
  Text.padded 2 time.hour ++ ":" ++ Text.padded 2 time.minute ++ ":" ++ Text.padded 2 time.second ++
    Text.groupedFraction t.subsecond

/-- The instant as messages show it: `2023-11-14 22:13:20 UTC`. -/
def text (t : Instant) : String := dateText t ++ " " ++ timeText t ++ " UTC"

/-- The instant as data shows it: `2023-11-14T22:13:20Z`. -/
def isoText (t : Instant) : String := dateText t ++ "T" ++ timeText t ++ "Z"

end Instant

end Rota
