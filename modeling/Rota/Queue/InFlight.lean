/-
The executions in flight, each under a number of its own, in the order they began.
-/
import Rota.Job.Id

namespace Rota

structure InFlight where
  tasks : List (TaskId × JobId)
  next : Nat
deriving DecidableEq, Repr

namespace InFlight

def empty : InFlight := ⟨[], 0⟩

/-- Begins an execution of a job: its number, and the executions then in flight. -/
def register (flights : InFlight) (id : JobId) : TaskId × InFlight :=
  (⟨flights.next⟩, ⟨flights.tasks ++ [(⟨flights.next⟩, id)], flights.next + 1⟩)

def drop (flights : InFlight) (task : TaskId) : InFlight :=
  { flights with tasks := flights.tasks.filter fun t => t.1 ≠ task }

def ids (flights : InFlight) : List JobId := flights.tasks.map (·.2)

def size (flights : InFlight) : Nat := flights.tasks.length

end InFlight

end Rota
