/-
Whether a failed job is tried again, and when.
-/
import Rota.Job.Basic
import Rota.Delay.Rule

namespace Rota

/-- A way to find the delay before a retry from the number of the retry, counted from 1. -/
abbrev DelayStrategy := Nat → Except Fault Span

/-- The strategy of a rule, given what is drawn for each retry. -/
def DelayRule.strategy (rule : DelayRule) (draw : Nat → Int) : DelayStrategy :=
  fun retry => rule.delay (draw retry) retry

/-- How failed jobs are tried again: after a delay, or at once. -/
structure RetryPolicy where
  delay : Option DelayStrategy

namespace RetryPolicy

def permits (_policy : RetryPolicy) (job : Job) : Bool := job.limit.allows job.retries

/-- When the next attempt may begin, nothing for at once. A delay that leaves the range of instants
waits until the last of them. -/
def retryAt (policy : RetryPolicy) (job : Job) (now : Instant) : Except Fault (Option Instant) :=
  match policy.delay with
  | none => .ok none
  | some strategy => (strategy (job.retries + 1)).map fun delay => some ((now.add? delay).getD .latest)

/-- What a policy makes of a failed attempt. -/
structure Verdict where
  permitted : Bool
  /-- When the next attempt may begin, nothing for at once. -/
  retryAt : Option Instant
  /-- The retries used up before. -/
  retries : Nat
deriving DecidableEq

/-- The verdicts on a running job that fails at each of some times and is retried at once, up to the
first that does not permit it; and whether the job's states permitted every move. -/
def verdicts (policy : RetryPolicy) (job : Job) : List Instant → Except Fault (List Verdict × Bool)
  | [] => .ok ([], true)
  | time :: rest =>
    match job.fail .panic "" time with
    | .error _ => .ok ([], false)
    | .ok failed => do
      let verdict : Verdict := ⟨policy.permits failed, ← policy.retryAt failed time, failed.retries⟩
      if !verdict.permitted then return ([verdict], true)
      match (failed.retry none).bind Job.run with
      | .error _ => return ([verdict], false)
      | .ok running =>
        let (others, consistent) ← policy.verdicts running rest
        return (verdict :: others, consistent)

end RetryPolicy

end Rota
