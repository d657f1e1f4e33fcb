/-
One execution of a job: it begins with an instance to perform the job, and ends by routing the job
on. A job that succeeded, or failed for good, comes back on its cadence or is done with; one that
may be retried goes to the timetable or straight to the lineup. A step that a job's state refuses is
written down, and the execution goes on.
-/
import Rota.Board
import Rota.Delay.Policy
import Rota.Supply

namespace Rota.Board

/-- Moves a job by one of its operations; a refusal is only written down. -/
def moveOrNote (board : Board) (id : JobId) (operation : Job → Except Refusal Job)
    (note : Refusal → Event) : Board :=
  match board.move id operation with
  | .ok board => board
  | .error refusal => board.write (note refusal)

/-! ## The beginning -/

inductive Begun
  | performing (task : TaskId) (performer : Instance)
  /-- No instance could be built, and the job is done with. -/
  | abandoned
deriving DecidableEq

/-- Begins the execution of a job: finds the instance bound to it, or builds one and binds it. -/
def begin (board : Board) (supply : Supply) (now : Instant) (job : Job) : Begun × Board :=
  let (task, board) := board.register job.id
  match job.bound with
  | some performer => (.performing task performer, board.write (.executing job.id task performer))
  | none =>
    match supply.maker? job.kind with
    | some maker =>
      let performer := ⟨job.kind, job.kind.name, .built task maker⟩
      let board := (board.write (.built job.id task job.kind maker)).put (job.bind performer)
      (.performing task performer, board.write (.executing job.id task performer))
    | none =>
      let board := board.write (.abandoned job.id job.kind)
      let board := board.moveOrNote job.id (·.fail .instantiation job.kind.noMakerMessage now)
        (.failRefused job.id)
      (.abandoned, (board.drop task).finish job.id)

/-! ## The end -/

/-- Brings a job back on its cadence, or is done with it. -/
def recurOrFinish (board : Board) (id : JobId) : Except Fault Board :=
  match board.job? id with
  | none => .ok board
  | some job => job.advance.map fun
    | (none, job) => (board.put job).finish id
    | (some due, job) =>
      let board := board.put job
      match board.move id (·.reschedule due) with
      | .ok board => (board.write (.rescheduled id due)).insert id
      | .error refusal => (board.write (.rescheduleRefused id refusal)).finish id

/-- Sends a failed job back for another attempt. -/
def sendBack (board : Board) (id : JobId) (retryAt : Option Instant) : Board :=
  match board.move id (·.retry retryAt) with
  | .ok board => if retryAt.isSome then board.insert id else board.push id
  | .error refusal => (board.write (.retryRefused id refusal)).finish id

/-- Takes note of how an attempt ended: the first half of the end of an execution, after which its
slot is free. -/
def settle (board : Board) (now : Instant) (id : JobId) (task : TaskId) (ending : Ending) : Board :=
  match ending with
  | .done => ((board.write (.completed id)).moveOrNote id Job.complete (.completeRefused id)).drop task
  | .failed kind message =>
    (board.moveOrNote id (·.fail kind message now) (.failRefused id)).drop task

/-- Sends a job on after an attempt: the second half of the end of an execution. A fault leaves the
job where it is, in no queue. -/
def route (board : Board) (policy : RetryPolicy) (now : Instant) (id : JobId) (ending : Ending) :
    Board × Option Fault :=
  match ending, board.job? id with
  | _, none => (board, none)
  | .done, _ =>
    match board.recurOrFinish id with
    | .ok board => (board, none)
    | .error fault => (board, some fault)
  | .failed kind message, some job =>
    if policy.permits job then
      match policy.retryAt job now with
      | .ok retryAt => ((board.write (.retrying id kind message)).sendBack id retryAt, none)
      | .error fault => (board, some fault)
    else
      let board := board.write (.exhausted id kind message)
      match board.recurOrFinish id with
      | .ok board => (board, none)
      | .error fault => (board, some fault)

def conclude (board : Board) (policy : RetryPolicy) (now : Instant) (id : JobId) (task : TaskId)
    (ending : Ending) : Board × Option Fault :=
  (board.settle now id task ending).route policy now id ending

end Rota.Board
