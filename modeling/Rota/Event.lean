/-
What happens to jobs, as it is written down: some events are shown as messages with a level, some
as lines of the log that job bodies keep, and every event is part of the record of a run.
-/
import Rota.Job.Basic

namespace Rota

inductive Event
  /-- A job was accepted and is to wait for its due time. -/
  | scheduled (job : JobId) (time : Instant)
  /-- A job was accepted, or moved up, and waits for a slot. -/
  | enqueued (job : JobId)
  | performedNow (job : JobId)
  | cancelled (job : JobId)
  | due (job : JobId)
  | notPromoted (job : JobId)
  | notDispatched (job : JobId)
  /-- A job was left out of the timetable because of its state. -/
  | notInserted (job : JobId) (state : State)
  /-- A job was left out of the lineup because of its state. -/
  | notPushed (job : JobId) (state : State)
  | built (job : JobId) (task : TaskId) (kind : Kind) (maker : Maker)
  | abandoned (job : JobId) (kind : Kind)
  | executing (job : JobId) (task : TaskId) (performer : Instance)
  /-- The hook of the body with a key was called, in its so many-th attempt. -/
  | hookCalled (key : String) (attempt : Nat)
  | bodyCalled (key : String) (attempt : Nat)
  | bodyEnded (key : String) (attempt : Nat)
  | completed (job : JobId)
  | rescheduled (job : JobId) (time : Instant)
  | retrying (job : JobId) (kind : FailureKind) (message : String)
  | exhausted (job : JobId) (kind : FailureKind) (message : String)
  | completeRefused (job : JobId) (refusal : Refusal)
  | failRefused (job : JobId) (refusal : Refusal)
  | retryRefused (job : JobId) (refusal : Refusal)
  | rescheduleRefused (job : JobId) (refusal : Refusal)
  | disposing
  | shuttingDown
  | promotionStopped
  | dispatchStopped
deriving DecidableEq

namespace Event

/-- The words in which a failed attempt is reported. -/
def failureText (kind : FailureKind) (message : String) : String :=
  "error type: " ++ kind.text ++ ", message: " ++ message

/-- The event as a message with its level, if it is one that is reported. -/
def message? : Event → Option String
  | scheduled job time => some ("DEBUG Job " ++ job.text ++ " scheduled for " ++ time.text)
  | enqueued job => some ("DEBUG Job " ++ job.text ++ " enqueued")
  | performedNow job => some ("DEBUG Job " ++ job.text ++ " performed now")
  | cancelled job => some ("DEBUG Job " ++ job.text ++ " cancelled")
  | due job => some ("DEBUG Job " ++ job.text ++ " is due")
  | notPromoted job => some ("DEBUG Skipping promotion of job " ++ job.text)
  | notDispatched job => some ("DEBUG Skipping dispatch of job " ++ job.text)
  | notInserted job state => some ("DEBUG Not scheduling job " ++ job.text ++ " in state " ++ state.text)
  | notPushed job state => some ("DEBUG Not enqueuing job " ++ job.text ++ " in state " ++ state.text)
  | abandoned job kind =>
    some ("ERROR Job " ++ job.text ++ " could not be instantiated and is abandoned: " ++ kind.noMakerMessage)
  | executing job _ _ => some ("DEBUG Executing job " ++ job.text)
  | completed job => some ("DEBUG Job complete " ++ job.text)
  | rescheduled job time => some ("DEBUG Job " ++ job.text ++ " rescheduled for " ++ time.text)
  | retrying job kind message =>
    some ("WARN Job " ++ job.text ++ " failed and will be retried: " ++ failureText kind message)
  | exhausted job kind message =>
    some ("ERROR Job " ++ job.text ++ " failed and exhausted its retries: " ++ failureText kind message)
  | completeRefused job refusal =>
    some ("ERROR Failed to mark job " ++ job.text ++ " as complete: " ++ refusal.message)
  | failRefused job refusal =>
    some ("ERROR Failed to mark job " ++ job.text ++ " as failed: " ++ refusal.message)
  | retryRefused job refusal => some ("ERROR Failed to retry job " ++ job.text ++ ": " ++ refusal.message)
  | rescheduleRefused job refusal =>
    some ("ERROR Failed to reschedule job " ++ job.text ++ ": " ++ refusal.message)
  | disposing => some "DEBUG Disposing scheduler"
  | shuttingDown => some "DEBUG Shutting down scheduler"
  | promotionStopped => some "DEBUG Shutting down promotion loop"
  | dispatchStopped => some "DEBUG Shutting down dispatch loop"
  | built .. | hookCalled .. | bodyCalled .. | bodyEnded .. => none

/-- The event as a line of the bodies' log, if it is one. -/
def line? : Event → Option String
  | built _ _ kind maker => some ("construct:" ++ kind.name ++ ":" ++ maker.text)
  | hookCalled key attempt => some ("before:" ++ key ++ ":" ++ Nat.repr attempt)
  | bodyCalled key attempt => some ("perform:" ++ key ++ ":" ++ Nat.repr attempt)
  | bodyEnded key attempt => some ("end:" ++ key ++ ":" ++ Nat.repr attempt)
  | _ => none

end Event

end Rota
