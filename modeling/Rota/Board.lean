/-
The board: every job there is, and the timetable, the lineup and the executions in flight that hold
the live ones. `outstanding` counts the jobs accepted and not yet done with.
-/
import Rota.Event
import Rota.Queue.InFlight
import Rota.Queue.Lineup
import Rota.Queue.Timetable

namespace Rota

structure Board where
  /-- Every job, in order of its number. -/
  jobs : List Job
  timetable : Timetable
  lineup : Lineup
  inFlight : InFlight
  /-- The jobs accepted and not yet done with; it wraps around below zero. -/
  outstanding : UInt64
  /-- What has happened so far, the latest first. -/
  journal : List Event
deriving DecidableEq

namespace Board

def empty : Board := ⟨[], .empty, .empty, .empty, 0, []⟩

/-! ## Jobs -/

def job? (board : Board) (id : JobId) : Option Job := board.jobs.find? (·.id = id)

/-- Puts a job in place of the one with its number. -/
def put (board : Board) (job : Job) : Board :=
  { board with jobs := board.jobs.map fun j => if j.id = job.id then job else j }

def add (board : Board) (job : Job) : Board := { board with jobs := board.jobs ++ [job] }

def write (board : Board) (event : Event) : Board := { board with journal := event :: board.journal }

def move (board : Board) (id : JobId) (operation : Job → Except Refusal Job) : Except Refusal Board :=
  match board.job? id with
  | none => .ok board
  | some job => (operation job).map board.put

/-! ## What holds them -/

/-- Puts a job into the timetable, unless its state speaks against it. -/
def insert (board : Board) (id : JobId) : Board :=
  match board.job? id with
  | none => board
  | some job =>
    if job.state = .scheduled then { board with timetable := board.timetable.insert job }
    else board.write (.notInserted id job.state)

/-- Puts a job at the end of the lineup, unless its state speaks against it. -/
def push (board : Board) (id : JobId) : Board :=
  match board.job? id with
  | none => board
  | some job =>
    if job.state = .enqueued then { board with lineup := board.lineup.push job }
    else board.write (.notPushed id job.state)

def unschedule (board : Board) (id : JobId) : Option JobId × Board :=
  let (found, timetable) := board.timetable.remove id
  (found, { board with timetable := timetable })

def withdraw (board : Board) (id : JobId) : Option JobId × Board :=
  let (found, lineup) := board.lineup.remove id
  (found, { board with lineup := lineup })

def takeDue (board : Board) (now : Instant) : List JobId × Board :=
  let (due, timetable) := board.timetable.takeDue now
  (due, { board with timetable := timetable })

def takeNext (board : Board) : Option JobId × Board :=
  let (next, lineup) := board.lineup.takeNext
  (next, { board with lineup := lineup })

def register (board : Board) (id : JobId) : TaskId × Board :=
  let (task, flights) := board.inFlight.register id
  (task, { board with inFlight := flights })

def drop (board : Board) (task : TaskId) : Board :=
  { board with inFlight := board.inFlight.drop task }

/-! ## The count of outstanding jobs -/

def track (board : Board) : Board := { board with outstanding := board.outstanding + 1 }

/-- Is done with a job, which no longer counts from the first time on. -/
def finish (board : Board) (id : JobId) : Board :=
  match board.job? id with
  | none => board
  | some job =>
    if job.finished then board
    else { board.put job.finish with outstanding := board.outstanding - 1 }

def isIdle (board : Board) : Bool := board.outstanding == 0

end Board

end Rota
