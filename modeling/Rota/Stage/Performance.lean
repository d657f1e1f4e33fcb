/-
Performances: attempts under way. A performance runs until it ends or has to wait, for its sleep to
be over or for its gate to be opened; whenever it is woken it first goes on if it can, and only then
is it stopped if its time is up. Time is counted in milliseconds.
-/
import Rota.Event
import Rota.Stage.Script

namespace Rota

inductive Waiting
  | curtain
  | sleep (till : Nat) (act : Act)
  | gate
  /-- Nothing: its gate has been opened. -/
  | opened (outcome : Outcome)
  | forever
deriving DecidableEq, Repr

structure Performance where
  seat : Nat
  job : JobId
  task : TaskId
  performer : Instance
  /-- The number of the attempt under the performer's key, once it has begun. -/
  attempt : Nat
  /-- How long it may take, and when that time is up. -/
  limit : Option (Duration × Nat)
  waiting : Waiting
deriving DecidableEq, Repr

inductive Progress
  | waits (performance : Performance)
  | ended (ending : Ending)
deriving DecidableEq, Repr

namespace Performance

def alarm? (p : Performance) : Option Nat :=
  match p.waiting, p.limit with
  | .sleep till _, some (_, deadline) => some (min till deadline)
  | .sleep till _, none => some till
  | _, some (_, deadline) => some deadline
  | _, none => none

/-- The performance waits, unless its time is up. -/
def wait (p : Performance) (time : Nat) (waiting : Waiting) : Progress :=
  match p.limit with
  | some (limit, deadline) =>
    if deadline ≤ time then .ended (.timedOut limit) else .waits { p with waiting := waiting }
  | none => .waits { p with waiting := waiting }

def finish (p : Performance) (outcome : Outcome) : Progress × List Event :=
  (.ended outcome.ending, [.bodyEnded p.performer.key p.attempt])

/-- The body, awake, does what its scene says. -/
def act (p : Performance) (time : Nat) : Act → Progress × List Event
  | .gate => (p.wait time .gate, [])
  | .hang => (p.wait time .forever, [])
  | .ends outcome => p.finish outcome

/-- The performance begins with a scene: its hook, then its body. -/
def raise (p : Performance) (time : Nat) (scene : Scene) : Progress × List Event :=
  let key := p.performer.key
  let hookEvents := if p.performer.kind.isBodyOnly then [] else [Event.hookCalled key p.attempt]
  match if p.performer.kind.isBodyOnly then .done else scene.hook with
  | .done =>
    let (progress, events) :=
      if scene.sleep = 0 then p.act time scene.act
      else (p.wait time (.sleep (time + scene.sleep) scene.act), [])
    (progress, hookEvents ++ .bodyCalled key p.attempt :: events)
  | failed => (.ended failed.ending, hookEvents)

/-- The performance is woken: the stage after that, what becomes of it, and what happens. -/
def wake (p : Performance) (time : Nat) (stage : Stage) : Stage × Progress × List Event :=
  match p.waiting with
  | .curtain =>
    let limit := (stage.limit p.performer).map fun limit => (limit, time + limit.ceilMillis)
    let (attempt, scene, stage) := stage.nextScene p.performer.key
    let p := { p with attempt := attempt, limit := limit }
    (stage, p.raise time scene)
  | .sleep till act => (stage, if till ≤ time then p.act time act else (p.wait time p.waiting, []))
  | .opened outcome => (stage, p.finish outcome)
  | .gate | .forever => (stage, p.wait time p.waiting, [])

end Performance

end Rota
