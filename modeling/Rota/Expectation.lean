/-
Expectations on a census: so many of its jobs, or at least one, meet every one of some criteria.
-/
import Rota.Filter

namespace Rota

structure Expectation where
  /-- How many jobs are expected, nothing for at least one. -/
  count : Option Nat
  criteria : List Filter

inductive Shortfall
  | noJobs
  | wrongCount (expected found : Nat)
deriving DecidableEq, Repr

def Shortfall.message : Shortfall → String
  | noJobs => "No jobs"
  | wrongCount expected found =>
    "Expected " ++ Nat.repr expected ++ " jobs, found " ++ Nat.repr found

namespace Expectation

def matching (expectation : Expectation) (census : Census) : List JobView :=
  census.jobs.filter fun job => expectation.criteria.all (·.holds job)

/-- Nothing if the census is as expected, else how it falls short. -/
def check (expectation : Expectation) (census : Census) : Option Shortfall :=
  let found := (expectation.matching census).length
  match expectation.count with
  | none => if found = 0 then some .noJobs else none
  | some expected => if found = expected then none else some (.wrongCount expected found)

end Expectation

end Rota
