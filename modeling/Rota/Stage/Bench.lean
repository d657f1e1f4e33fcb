/-
A bench: a board whose jobs are handled one operation at a time, with scripted bodies and a clock
that is set by hand.
-/
import Rota.Execution
import Rota.Stage.Script

namespace Rota

/-- A clock is never set before 1970; where that is asked, it shows a day in November 2023. -/
def wallClock (asked : Instant) : Instant :=
  if asked < .epoch then ⟨1700000000000000000, by decide⟩ else asked

/-- What an instance does when it performs its next attempt from beginning to end: the stage after
it, what happens, and how it ends, nothing if it never does. -/
def Stage.play (stage : Stage) (performer : Instance) : Stage × List Event × Option Ending :=
  let limit := stage.limit performer
  let (number, scene, stage) := stage.nextScene performer.key
  let attempt := scene.attempt performer limit
  let events :=
    (if performer.kind.isBodyOnly then [] else [Event.hookCalled performer.key number]) ++
      (if attempt.bodyBegins then [Event.bodyCalled performer.key number] else []) ++
      (if attempt.bodyEnds then [Event.bodyEnded performer.key number] else [])
  (stage, events, attempt.result.map (·.2))

structure Bench where
  now : Instant
  board : Board
  stage : Stage
  supply : Supply
  policy : RetryPolicy
  /-- The executions that were begun by hand. -/
  held : List TaskId
  /-- The slots of the lineup, none of which is ever taken here. -/
  slots : Nat

namespace Bench

def openingTime : Instant := wallClock .earliest

/-- An empty bench, if its slots can be handed out. -/
def start (supply : Supply) (policy : RetryPolicy) (slots : Nat) : Except Fault Bench :=
  if maxSlots < slots then .error .tooManySlots
  else .ok ⟨openingTime, .empty, .empty, supply, policy, [], slots⟩

def setClock (bench : Bench) (asked : Instant) : Bench := { bench with now := wallClock asked }

def nextId (bench : Bench) : JobId := ⟨bench.board.jobs.length + 1⟩

def create (bench : Bench) (job : Job) : Bench := { bench with board := bench.board.add job }

def move (bench : Bench) (id : JobId) (operation : Job → Except Refusal Job) : Except Refusal Bench :=
  (bench.board.move id operation).map fun board => { bench with board := board }

/-- Moves a job's cadence on by one occurrence. -/
def advance (bench : Bench) (job : Job) : Except Fault (Option Instant × Bench) :=
  job.advance.map fun (due, job) => (due, { bench with board := bench.board.put job })

/-- Begins an execution that does nothing, to be dropped by hand. -/
def hold (bench : Bench) (id : JobId) : TaskId × Bench :=
  let (task, board) := bench.board.register id
  (task, { bench with board := board, held := task :: bench.held })

/-- Drops an execution begun by hand, if there is such a one. -/
def letGo (bench : Bench) (task : TaskId) : Bool × Bench :=
  if bench.held.contains task then
    (true, { bench with board := bench.board.drop task, held := bench.held.filter (· ≠ task) })
  else (false, bench)

/-- Executes a job from beginning to end, whatever its state. An attempt that never ends leaves its
execution in flight. -/
def execute (bench : Bench) (job : Job) : Except Fault Bench :=
  match bench.board.begin bench.supply bench.now job with
  | (.abandoned, board) => .ok { bench with board := board }
  | (.performing task performer, board) =>
    let (stage, events, ending) := bench.stage.play performer
    let board := events.foldl Board.write board
    match ending with
    | none => .ok { bench with board := board, stage := stage }
    | some ending =>
      match board.conclude bench.policy bench.now job.id task ending with
      | (board, none) => .ok { bench with board := board, stage := stage }
      | (_, some fault) => .error fault

end Bench

end Rota
