/-
A job and its life: every operation moves it between two states, or is refused and changes nothing.
-/
import Rota.Job.Cadence
import Rota.Job.Failure
import Rota.Job.Kind
import Rota.Job.RetryLimit
import Rota.Refusal

namespace Rota

structure Job where
  id : JobId
  kind : Kind
  priority : Priority
  limit : RetryLimit
  /-- Whether its instance came with it, to be kept for every attempt. -/
  supplied : Bool
  owner : Option Nat
  state : State
  /-- The retries of the present occurrence. -/
  retries : Nat
  dueAt : Instant
  /-- When the pending retry is due, if it waits for one. -/
  retryAt : Option Instant
  /-- The instance that performs it, once there is one. -/
  bound : Option Instance
  cadence : Cadence
  /-- Every failed attempt so far, oldest first. -/
  failures : List Failure
  finished : Bool
deriving DecidableEq

namespace Job

def new (id : JobId) (kind : Kind) (bound : Option Instance) (priority : Priority) (limit : RetryLimit)
    (dueAt : Instant) (cadence : Cadence) (owner : Option Nat) : Job where
  id := id
  kind := kind
  priority := priority
  limit := limit
  supplied := bound.isSome
  owner := owner
  state := .notStarted
  retries := 0
  dueAt := dueAt
  retryAt := none
  bound := bound
  cadence := cadence
  failures := []
  finished := false

/-- When the job is next to be made ready: at its retry time if it waits for one, else when its
occurrence is due. -/
def nextDueAt (job : Job) : Instant := job.retryAt.getD job.dueAt

def isOwnedBy (job : Job) (owner : Nat) : Bool := job.owner == some owner

/-- Moves the job to another state, if its own permits that. -/
def move (job : Job) (operation : Operation) (target : State) : Except Refusal Job :=
  if job.state.canBecome target then .ok { job with state := target }
  else .error (.notPermitted operation job.id job.state)

/-- Lets go of an instance that was built for one execution. -/
def release (job : Job) : Job := if job.supplied then job else { job with bound := none }

/-! ## Operations -/

/-- The job is to wait for its due time. -/
def schedule (job : Job) : Except Refusal Job := job.move .schedule .scheduled

/-- The job is to wait for a slot. -/
def enqueue (job : Job) : Except Refusal Job := job.move .enqueue .enqueued

/-- The job has a slot; a pending retry time is over. -/
def run (job : Job) : Except Refusal Job :=
  (job.move .run .running).map fun job => { job with retryAt := none }

def complete (job : Job) : Except Refusal Job := job.move .complete .success

/-- The attempt failed, which the job remembers. -/
def fail (job : Job) (kind : FailureKind) (details : String) (now : Instant) : Except Refusal Job :=
  (job.move .fail .failed).map fun job =>
    { job with failures := job.failures ++ [⟨job.retries + 1, kind, details, now⟩] }

/-- Uses up a retry: the job waits until `retryAt`, or for a slot if there is no such time. -/
def retry (job : Job) (retryAt : Option Instant) : Except Refusal Job :=
  (job.move .retry (if retryAt.isSome then .scheduled else .enqueued)).map fun job =>
    { job with retries := job.retries + 1, retryAt := retryAt }.release

def reschedule (job : Job) (dueAt : Instant) : Except Refusal Job :=
  (job.move .reschedule .scheduled).map fun job =>
    { job with dueAt := dueAt, retryAt := none, retries := 0 }.release

def cancel (job : Job) : Except Refusal Job := job.move .cancel .cancelled

/-- Refuses an operation unless the job waits for its due time. -/
def ensureScheduled (job : Job) (operation : Operation) : Except Refusal Unit :=
  if job.state = .scheduled then .ok () else .error (.notPermitted operation job.id job.state)

/-- The due time of the next occurrence, counted from the present one, with the cadence moved on. -/
def advance (job : Job) : Except Fault (Option Instant × Job) :=
  (job.cadence.next job.dueAt).map fun (due, cadence) => (due, { job with cadence := cadence })

def finish (job : Job) : Job := { job with finished := true }

def bind (job : Job) (instance_ : Instance) : Job := { job with bound := some instance_ }

def text (job : Job) : String :=
  "JobRecord \x7b id: " ++ job.id.text ++ ", job_type: \"" ++ job.kind.name ++ "\", priority: " ++ job.priority.text ++
    ", max_retries: " ++ job.limit.text ++ ", state: " ++ job.state.text ++ ", retry_count: " ++
    Nat.repr job.retries ++ ", due_at: " ++ job.dueAt.isoText ++ " \x7d"

end Job

end Rota
