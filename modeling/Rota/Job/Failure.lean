/-
How an attempt ends, and the failures a job remembers.
-/
import Rota.Time.Instant

namespace Rota

inductive FailureKind
  | panic
  | timeout
  | instantiation
  /-- A kind of the job's own. -/
  | other (name : String)
deriving DecidableEq, Repr

def FailureKind.text : FailureKind → String
  | panic => "panic"
  | timeout => "timeout"
  | instantiation => "instantiation"
  | other name => name

inductive Ending
  | done
  | failed (kind : FailureKind) (message : String)
deriving DecidableEq, Repr

/-- A failed attempt, as its job remembers it. -/
structure Failure where
  attempt : Nat
  kind : FailureKind
  details : String
  recordedAt : Instant
deriving DecidableEq

end Rota
