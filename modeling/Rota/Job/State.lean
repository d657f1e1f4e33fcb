/-
The states of a job and the moves between them: a job waits for its due time, then for a slot, runs,
and succeeds or fails; from success and failure it may come back.
-/
namespace Rota

inductive State
  | notStarted
  | scheduled
  | enqueued
  | running
  | success
  | failed
  /-- Called off before it ran. -/
  | cancelled
deriving DecidableEq, Repr

namespace State

/-- Whether a job may move from one state to another. -/
def canBecome : State → State → Bool
  | notStarted, scheduled => true
  | notStarted, enqueued => true
  | scheduled, enqueued => true
  | scheduled, cancelled => true
  | enqueued, running => true
  | enqueued, cancelled => true
  | running, success => true
  | running, failed => true
  | failed, enqueued => true
  | failed, scheduled => true
  | success, scheduled => true
  | _, _ => false

/-- Whether a job in this state can still be cancelled. -/
def isCancellable : State → Bool
  | scheduled | enqueued => true
  | _ => false

/-- Whether a job in this state neither runs nor waits to. -/
def isStopped : State → Bool
  | cancelled | failed | success => true
  | _ => false

def text : State → String
  | notStarted => "NotStarted"
  | scheduled => "Scheduled"
  | enqueued => "Enqueued"
  | running => "Running"
  | success => "Success"
  | failed => "Failed"
  | cancelled => "Cancelled"

def all : List State := [notStarted, scheduled, enqueued, running, success, failed, cancelled]

end State

end Rota
