/-
A census: what the timetable, the lineup and the executions in flight hold at one moment.
-/
import Rota.Board

namespace Rota

/-- A job as a census shows it. -/
structure JobView where
  id : JobId
  state : State
  priority : Priority
  limit : RetryLimit
  retries : Nat
  kind : String
  dueAt : Instant
  nextDueAt : Instant
deriving DecidableEq

def Job.view (job : Job) : JobView :=
  ⟨job.id, job.state, job.priority, job.limit, job.retries, job.kind.name, job.dueAt, job.nextDueAt⟩

/-- The live jobs at one moment. -/
structure Census where
  takenAt : Instant
  scheduled : List JobView
  /-- The jobs in the lineup, in order of arrival. -/
  enqueued : List JobView
  running : List JobView
deriving DecidableEq

def Board.census (board : Board) (now : Instant) : Census where
  takenAt := now
  scheduled := (board.timetable.ids.filterMap board.job?).map Job.view
  enqueued := (board.lineup.ids.filterMap board.job?).map Job.view
  running := (board.inFlight.ids.filterMap board.job?).map Job.view

namespace Census

/-- Every job of the census: the scheduled, then the enqueued, then the running ones. -/
def jobs (census : Census) : List JobView := census.scheduled ++ census.enqueued ++ census.running

def size (census : Census) : Nat :=
  census.scheduled.length + census.enqueued.length + census.running.length

def isEmpty (census : Census) : Bool := census.size == 0

def find? (census : Census) (id : JobId) : Option JobView := census.jobs.find? (·.id = id)

end Census

end Rota
