/-
Delays before retries: a base that stays, grows by steps or doubles, up to a cap, with a random part
on top. A product out of range, on either side, counts as the longest span, and no delay is negative.
-/
import Rota.Fault
import Rota.Time.Span

namespace Rota

inductive Growth
  | constant
  | linear
  | exponential
deriving DecidableEq, Repr

inductive Jitter
  /-- At most the given span either way. -/
  | absolute (span : Span)
  /-- At most the given share of the delay either way. -/
  | relative (ratio : Float)

structure DelayRule where
  base : Span
  growth : Growth
  cap : Option Span
  jitter : Option Jitter

/-- The greatest factor a base is multiplied by. -/
def maxFactor : Nat := 2147483647

/-- The factor of a retry, counted from 1; the retry 0 counts as the first. -/
def Growth.factor (growth : Growth) (retry : Nat) : Nat :=
  let retry := max retry 1
  match growth with
  | constant => 1
  | linear => min retry maxFactor
  | exponential => if retry ≤ 31 then Nat.pow 2 (retry - 1) else maxFactor

namespace Jitter

/-- A share of a number of milliseconds, to the nearest whole one and within 64 bits. -/
def share (millis : Int) (ratio : Float) : Int :=
  ((Float.ofInt millis * ratio.abs).round.toInt64).toInt

/-- The most milliseconds that are added to a delay or taken from it. -/
def spread (jitter : Jitter) (delay : Span) : Int :=
  match jitter with
  | absolute span => span.millis.natAbs
  | relative ratio => share delay.millis ratio

/-- Adds the drawn number of milliseconds, which is to lie within the spread. -/
def apply (jitter : Jitter) (draw : Int) (delay : Span) : Except Fault Span :=
  let spread := jitter.spread delay
  if spread = 0 then .ok delay
  else if spread < 0 then .error .emptyRange
  else match (Span.ofNanos? (draw * nanosPerMilli)).bind delay.add? with
    | some sum => .ok sum
    | none => .error .spanOverflow

end Jitter

namespace DelayRule

/-- The base times its factor, or the longest span where there is no such product. -/
def grown (rule : DelayRule) (retry : Nat) : Span :=
  (rule.base.scale? (rule.growth.factor retry)).getD .longest

/-- The grown delay, cut at the cap. -/
def capped (rule : DelayRule) (retry : Nat) : Span :=
  match rule.cap with
  | some cap => min (rule.grown retry) cap
  | none => rule.grown retry

/-- How far the random part may take the delay either way, in milliseconds. -/
def spread (rule : DelayRule) (retry : Nat) : Int :=
  match rule.jitter with
  | some jitter => jitter.spread (rule.capped retry)
  | none => 0

/-- The delay before a retry when `draw` is drawn for its random part. -/
def delay (rule : DelayRule) (draw : Int) (retry : Nat) : Except Fault Span :=
  match rule.jitter with
  | none => .ok (max (rule.capped retry) .zero)
  | some jitter => (jitter.apply draw (rule.capped retry)).map (max · .zero)

def extremes (rule : DelayRule) (retry : Nat) : Except Fault (Span × Span) := do
  let spread := rule.spread retry
  return (← rule.delay (-spread) retry, ← rule.delay spread retry)

/-- Every delay that there can be before a retry, in order. -/
def outcomes (rule : DelayRule) (retry : Nat) : Except Fault (List Span) := do
  let spread := rule.spread retry
  if spread < 0 then throw .emptyRange
  let draws := (List.range (2 * spread + 1).toNat).map fun (n : Nat) => (n : Int) - spread
  return (← draws.mapM fun draw => rule.delay draw retry).eraseReps

end DelayRule

end Rota
