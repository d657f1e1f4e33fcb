/-
How a job comes back after it has run: not at all, at an interval, on dates, or on a cron schedule.
Each due time follows from the one before it, never from when the job really ran.
-/
import Rota.Cron.Next

namespace Rota

inductive Cadence
  | never
  /-- At an interval, counted from one due time to the next. -/
  | periodic (interval : Span)
  /-- On each of the dates that remain, in order. -/
  | dates (remaining : List Instant)
  | cron (schedule : Cron)
deriving DecidableEq

namespace Cadence

/-- Drops each element that equals the one before it. -/
def dropRepeats : List Instant → List Instant
  | a :: b :: rest => if a = b then dropRepeats (b :: rest) else a :: dropRepeats (b :: rest)
  | short => short

/-- The cadence of a list of dates in any order. A date given twice counts once. -/
def onDates (dates : List Instant) : Cadence :=
  .dates (dropRepeats (dates.mergeSort fun a b => decide (a ≤ b)))

def isNever : Cadence → Bool
  | never => true
  | _ => false

/-- The due time after `previous`, and the cadence that is left. A date is used up; it is given even
when it has gone by. -/
def next (cadence : Cadence) (previous : Instant) : Except Fault (Option Instant × Cadence) :=
  match cadence with
  | never => .ok (none, never)
  | periodic interval => .ok (previous.add? interval, cadence)
  | dates [] => .ok (none, dates [])
  | dates (date :: rest) => .ok (some date, dates rest)
  | cron schedule => (schedule.next previous).map (·, cadence)

/-- The due times that follow one, each counted from the one before, at most so many. -/
def following (cadence : Cadence) : Nat → Instant → Except Fault (List Instant)
  | 0, _ => .ok []
  | most + 1, previous => do
    match ← cadence.next previous with
    | (none, _) => return []
    | (some due, left) => return due :: (← left.following most due)

/-- What the cadence gives for each of some instants in turn, with what is left of it each time. -/
def answers (cadence : Cadence) : List Instant → Except Fault (List (Option Instant × Cadence))
  | [] => .ok []
  | previous :: rest => do
    let (due, left) ← cadence.next previous
    return (due, left) :: (← left.answers rest)

end Cadence

end Rota
