/-
The lineup: due jobs waiting for a slot, in order of arrival. The next to run is the first of the
highest priority present.
-/
import Rota.Job.Basic

namespace Rota

structure Waiter where
  id : JobId
  priority : Priority
deriving DecidableEq, Repr

structure Lineup where
  waiters : List Waiter
  /-- Whether an arrival has been announced that nobody has looked at yet. -/
  bell : Bool
deriving DecidableEq, Repr

namespace Lineup

def empty : Lineup := ⟨[], false⟩

/-- Adds a job that waits for a slot at the end, and announces it. A job in any other state is left
out. -/
def push (lineup : Lineup) (job : Job) : Lineup :=
  if job.state ≠ .enqueued then lineup
  else { waiters := lineup.waiters ++ [⟨job.id, job.priority⟩], bell := true }

/-- Takes out a job: its number if it was there, and what is left. -/
def remove (lineup : Lineup) (id : JobId) : Option JobId × Lineup :=
  match lineup.waiters.findIdx? (·.id = id) with
  | none => (none, lineup)
  | some index => (some id, { lineup with waiters := lineup.waiters.eraseIdx index })

/-- The index of the next to run, given the best waiter so far. The search ends at the first waiter
of the highest priority there is. -/
def scan : List Waiter → Nat → Option (Nat × Priority) → Option Nat
  | [], _, best => best.map (·.1)
  | waiter :: rest, index, best =>
    let best := if best.all (·.2 < waiter.priority) then some (index, waiter.priority) else best
    if waiter.priority = Priority.highest then best.map (·.1) else scan rest (index + 1) best

/-- Takes out the next to run, if there is one, and what is left. -/
def takeNext (lineup : Lineup) : Option JobId × Lineup :=
  match scan lineup.waiters 0 none with
  | none => (none, lineup)
  | some index =>
    (lineup.waiters[index]?.map (·.id), { lineup with waiters := lineup.waiters.eraseIdx index })

/-- Takes out so many jobs at most, each the next to run, and what is left. -/
def takeAll : Nat → Lineup → List JobId × Lineup
  | 0, lineup => ([], lineup)
  | most + 1, lineup =>
    match lineup.takeNext with
    | (none, lineup) => ([], lineup)
    | (some id, lineup) =>
      let (ids, lineup) := takeAll most lineup
      (id :: ids, lineup)

/-- Takes out all jobs, each the next to run. -/
def drain (lineup : Lineup) : List JobId × Lineup := lineup.takeAll lineup.waiters.length

def ids (lineup : Lineup) : List JobId := lineup.waiters.map (·.id)

def size (lineup : Lineup) : Nat := lineup.waiters.length

def isEmpty (lineup : Lineup) : Bool := lineup.waiters.isEmpty

end Lineup

end Rota
