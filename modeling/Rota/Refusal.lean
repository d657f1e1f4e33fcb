/-
Refusals: the answers by which a scheduler turns a call down. Each names its cause, and `message`
puts it into words.
-/
import Rota.Job.Id
import Rota.Job.State
import Rota.SettingsError
import Rota.Time.Instant

namespace Rota

inductive Operation
  | schedule
  | enqueue
  | run
  | complete
  | fail
  | retry
  | reschedule
  | cancel
  | performNow
deriving DecidableEq, Repr

def Operation.text : Operation → String
  | schedule => "schedule"
  | enqueue => "enqueue"
  | run => "run"
  | complete => "complete"
  | fail => "fail"
  | retry => "retry"
  | reschedule => "reschedule"
  | cancel => "cancel"
  | performNow => "perform now"

inductive BadArgument
  /-- A span after an instant lies outside the range of instants. -/
  | outOfRange (span : Span) (start : Instant)
  /-- A job is to come back faster than is allowed. -/
  | shortInterval (interval : Span)
  | nothingUpcoming
  | pastDate (date : Instant)
  | noDates
  | foreignJob (operation : Operation) (job : JobId)
  /-- Any other fault, in words. -/
  | described (text : String)
deriving DecidableEq

/-- The shortest interval at which a job may come back. -/
def minInterval : Span := .second

def BadArgument.message : BadArgument → String
  | outOfRange span start => span.text ++ " after " ++ start.text ++ " is out of range"
  | shortInterval interval =>
    "periodic interval must be at least " ++ minInterval.text ++ ", got " ++ interval.text
  | nothingUpcoming => "cron schedule has no upcoming time"
  | pastDate date => "calendar date " ++ date.text ++ " is in the past"
  | noDates => "calendar schedule requires at least one date"
  | foreignJob operation job =>
    "cannot " ++ operation.text ++ " job " ++ job.text ++ ": it belongs to another scheduler"
  | described text => text

inductive Refusal
  | notPermitted (operation : Operation) (job : JobId) (state : State)
  | badArgument (cause : BadArgument)
  /-- No instance of the kind could ever be built. -/
  | unbuildable (kind : String)
  | disposed
  /-- The scheduler's loops did not stop as they should. -/
  | uncleanShutdown
  | badSettings (cause : SettingsError)
deriving DecidableEq

def Refusal.message : Refusal → String
  | notPermitted operation job state =>
    "Cannot " ++ operation.text ++ " job " ++ job.text ++ " in state " ++ state.text
  | badArgument cause => "Invalid argument: " ++ cause.message
  | unbuildable kind => "No dependency provider or default constructor for job type " ++ kind
  | disposed => "The scheduler has been disposed"
  | uncleanShutdown => "Failed to gracefully shut down"
  | badSettings _ => "Invalid configuration"

end Rota
