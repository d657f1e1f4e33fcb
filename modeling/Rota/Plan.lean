/-
What a caller asks for when it schedules a job, and the plan that comes of it: when the job is first
due, how it comes back, and with what priority and retry limit.
-/
import Rota.Job.Basic

namespace Rota

inductive Start
  | after (delay : Span)
  | on (date : Instant)
deriving DecidableEq

inductive Timing
  | once (start : Start)
  /-- At an interval, the first time one interval after the delay. -/
  | periodic (interval delay : Span)
  /-- On a cron schedule, from after the delay. -/
  | cron (schedule : Cron) (delay : Span)
  | dates (dates : List Instant)
deriving DecidableEq

structure Request where
  timing : Timing
  priority : Option Priority
  /-- The retries that each occurrence is granted. -/
  limit : RetryLimit
deriving DecidableEq

structure Plan where
  dueAt : Instant
  cadence : Cadence
  priority : Option Priority
  limit : RetryLimit
deriving DecidableEq

namespace Request

/-- A request with nothing but a timing: the kind's priority and no retries. -/
def of (timing : Timing) : Request := ⟨timing, none, .limited 0⟩

def withPriority (request : Request) (priority : Priority) : Request :=
  { request with priority := some priority }

def withLimit (request : Request) (limit : RetryLimit) : Request := { request with limit := limit }

/-- Sets the delay before the first run, in place of a date set before. A list of dates has none. -/
def withDelay (request : Request) (delay : Span) : Request :=
  match request.timing with
  | .once _ => { request with timing := .once (.after delay) }
  | .periodic interval _ => { request with timing := .periodic interval delay }
  | .cron schedule _ => { request with timing := .cron schedule delay }
  | .dates _ => request

/-- Sets the date of a job that runs once, in place of a delay set before. -/
def startingOn (request : Request) (date : Instant) : Request :=
  match request.timing with
  | .once _ => { request with timing := .once (.on date) }
  | _ => request

def withDate (request : Request) (date : Instant) : Request :=
  match request.timing with
  | .dates dates => { request with timing := .dates (dates ++ [date]) }
  | _ => request

end Request

namespace Timing

/-- The instant a span after another, refused out of range. -/
def offset (start : Instant) (span : Span) : Except Refusal Instant :=
  match start.add? span with
  | some instant => .ok instant
  | none => .error (.badArgument (.outOfRange span start))

/-- A delay, where a negative one counts as none. -/
def notNegative (delay : Span) : Span := max delay .zero

/-- The first due time of a timing and how its job comes back, counted from an instant, or why there
is none. Only a cron schedule that is asked past the last instant leaves this unanswered. -/
def first (timing : Timing) (now : Instant) : Except Fault (Except Refusal (Instant × Cadence)) :=
  match timing with
  | .once (.after delay) => .ok ((offset now (notNegative delay)).map (·, .never))
  | .once (.on date) => .ok (.ok (date, .never))
  | .periodic interval delay => .ok do
    let start ← offset now (notNegative delay)
    if interval < minInterval then throw (.badArgument (.shortInterval interval))
    return (← offset start interval, .periodic interval)
  | .cron schedule delay =>
    match offset now (notNegative delay) with
    | .error refusal => .ok (.error refusal)
    | .ok start => (schedule.next start).map fun
      | some due => .ok (due, .cron schedule)
      | none => .error (.badArgument .nothingUpcoming)
  | .dates listed => .ok (
    match listed.find? (· < now), Cadence.onDates listed with
    | some past, _ => .error (.badArgument (.pastDate past))
    | none, .dates (due :: rest) => .ok (due, .dates rest)
    | none, _ => .error (.badArgument .noDates))

end Timing

/-- The plan of a request made at an instant, or why it is refused. -/
def Request.plan (request : Request) (now : Instant) : Except Fault (Except Refusal Plan) :=
  (request.timing.first now).map fun answer =>
    answer.map fun (due, cadence) => ⟨due, cadence, request.priority, request.limit⟩

end Rota
