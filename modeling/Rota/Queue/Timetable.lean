/-
The timetable: jobs waiting for their due time, earliest first, those due at one instant in the
order they were put in. An index by job says under which key each of them stands.
-/
import Rota.Job.Basic

namespace Rota

/-- Where a job stands in the timetable: by due time, then by order of insertion. -/
structure Slot where
  due : Instant
  sequence : Nat
deriving DecidableEq

def Slot.before (a b : Slot) : Bool := a.due < b.due || (a.due = b.due && a.sequence < b.sequence)

structure Timetable where
  /-- The waiting jobs by slot, in order. -/
  bySlot : List (Slot × JobId)
  slots : List (JobId × Slot)
  sequence : Nat
  /-- Whether an insertion has been announced that nobody has looked at yet. -/
  bell : Bool
deriving DecidableEq

namespace Timetable

def empty : Timetable := ⟨[], [], 0, false⟩

/-- Puts an entry in front of the first that comes after it. -/
def place (slot : Slot) (id : JobId) : List (Slot × JobId) → List (Slot × JobId)
  | [] => [(slot, id)]
  | e :: rest => if slot.before e.1 then (slot, id) :: e :: rest else e :: place slot id rest

def vacate (slot : Slot) (entries : List (Slot × JobId)) : List (Slot × JobId) :=
  entries.filter fun e => e.1 ≠ slot

def forget (id : JobId) (slots : List (JobId × Slot)) : List (JobId × Slot) :=
  slots.filter fun e => e.1 ≠ id

/-- Puts in a job that waits for its due time, under the time it is next due, in place of any entry
it has already, and announces it. A job in any other state is left out. -/
def insert (timetable : Timetable) (job : Job) : Timetable :=
  if job.state ≠ .scheduled then timetable
  else
    let slot := ⟨job.nextDueAt, timetable.sequence⟩
    let bySlot := match timetable.slots.lookup job.id with
      | some previous => vacate previous timetable.bySlot
      | none => timetable.bySlot
    { bySlot := place slot job.id bySlot
      slots := (job.id, slot) :: forget job.id timetable.slots
      sequence := timetable.sequence + 1
      bell := true }

/-- Takes out one job: its number if it was there, and what is left. -/
def remove (timetable : Timetable) (id : JobId) : Option JobId × Timetable :=
  match timetable.slots.lookup id with
  | none => (none, timetable)
  | some slot =>
    (timetable.bySlot.lookup slot,
      { timetable with bySlot := vacate slot timetable.bySlot, slots := forget id timetable.slots })

/-- Takes out every job due by an instant, in order, and what is left. -/
def takeDue (timetable : Timetable) (now : Instant) : List JobId × Timetable :=
  let due := (timetable.bySlot.takeWhile fun e => decide (e.1.due ≤ now)).map (·.2)
  (due,
    { timetable with
      bySlot := timetable.bySlot.dropWhile fun e => decide (e.1.due ≤ now)
      slots := timetable.slots.filter fun e => !due.contains e.1 })

def nextDueAt (timetable : Timetable) : Option Instant := timetable.bySlot.head?.map (·.1.due)

def ids (timetable : Timetable) : List JobId := timetable.bySlot.map (·.2)

def size (timetable : Timetable) : Nat := timetable.bySlot.length

/-- How long nobody need look at the timetable: the polling rate, or less if a job is due sooner. -/
def idleDelay (timetable : Timetable) (rate : Duration) (now : Instant) : Duration :=
  match timetable.nextDueAt.bind (·.until? now) with
  | some untilDue => min untilDue rate
  | none => rate

end Timetable

end Rota
