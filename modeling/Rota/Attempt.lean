/-
One attempt at a job: its hook, then its body, within a time limit if there is one. What ends at the
very end of the limit is still in time. The attempt's result is how it ends, and when.
-/
import Rota.Job.Failure

namespace Rota

/-- What a panic carries. -/
inductive Payload
  | text (words : String)
  /-- Anything that is not a text. -/
  | other
deriving DecidableEq, Repr

/-- How the hook or the body of a job ends. -/
inductive Outcome
  | done
  | error (kind message : String)
  | panic (payload : Payload)
deriving DecidableEq, Repr

def Payload.message : Payload → String
  | text words => words
  | other => "task N panicked"

def Outcome.ending : Outcome → Ending
  | done => .done
  | error kind message => .failed (.other kind) message
  | panic payload => .failed .panic payload.message

/-- The end of an attempt that took too long. -/
def Ending.timedOut (limit : Duration) : Ending :=
  .failed .timeout ("Job failed to complete within timeout: " ++ limit.text)

/-- The hook or the body: how many milliseconds it takes, nothing if it never ends, and its outcome. -/
structure Part where
  takes : Option Nat
  outcome : Outcome
deriving DecidableEq, Repr

inductive Limit
  | none
  | within (limit : Duration)
  | panics (payload : Payload)
deriving DecidableEq, Repr

structure Attempt where
  hook : Part
  body : Part
  limit : Limit
deriving DecidableEq, Repr

namespace Attempt

/-- When and how the attempt ends if nothing stops it. The body begins only after the hook is done. -/
def unlimited (attempt : Attempt) : Option (Nat × Ending) :=
  match attempt.hook.takes, attempt.hook.outcome with
  | none, _ => none
  | some hookTakes, .done =>
    attempt.body.takes.map fun bodyTakes => (hookTakes + bodyTakes, attempt.body.outcome.ending)
  | some hookTakes, failed => some (hookTakes, failed.ending)

/-- Whether so many milliseconds are within the limit. -/
def inTime (attempt : Attempt) (millis : Nat) : Bool :=
  match attempt.limit with
  | .none => true
  | .within limit => millis ≤ limit.ceilMillis
  | .panics _ => false

/-- When and how the attempt ends, nothing if it never does. -/
def result (attempt : Attempt) : Option (Nat × Ending) :=
  match attempt.limit with
  | .none => attempt.unlimited
  | .panics payload => some (0, (Outcome.panic payload).ending)
  | .within limit =>
    match attempt.unlimited with
    | some (time, ending) =>
      if time ≤ limit.ceilMillis then some (time, ending) else some (limit.ceilMillis, .timedOut limit)
    | none => some (limit.ceilMillis, .timedOut limit)

def hookBegins (attempt : Attempt) : Bool := attempt.inTime 0

def bodyBegins (attempt : Attempt) : Bool :=
  attempt.hook.outcome = .done && attempt.hook.takes.any attempt.inTime

def bodyEnds (attempt : Attempt) : Bool :=
  attempt.bodyBegins &&
    match attempt.hook.takes, attempt.body.takes with
    | some hookTakes, some bodyTakes => attempt.inTime (hookTakes + bodyTakes)
    | _, _ => false

end Attempt

end Rota
