/-
Filters over the jobs of a census: tests of one property, and their negations, conjunctions and
disjunctions. Adding to a conjunction on its right does not nest, and so for disjunctions.
-/
import Rota.Census

namespace Rota

inductive Filter
  | not (inner : Filter)
  | and (parts : List Filter)
  | or (parts : List Filter)
  | hasId (id : JobId)
  | idIn (ids : List JobId)
  | inState (state : State)
  | hasPriority (priority : Priority)
  | ofKind (kind : String)
  | dueBefore (time : Instant)
  | dueAfter (time : Instant)
  | retriedAtLeast (retries : Nat)

namespace Filter

/-- Both filters: what is added to a conjunction becomes a part of it. -/
def both (a b : Filter) : Filter :=
  match a with
  | and parts => and (parts ++ [b])
  | a => and [a, b]

/-- Either filter: what is added to a disjunction becomes a part of it. -/
def either (a b : Filter) : Filter :=
  match a with
  | or parts => or (parts ++ [b])
  | a => or [a, b]

mutual

def holds (job : JobView) : Filter → Bool
  | not inner => !holds job inner
  | and parts => allHold job parts
  | or parts => anyHolds job parts
  | hasId id => job.id = id
  | idIn ids => ids.contains job.id
  | inState state => job.state = state
  | hasPriority priority => job.priority = priority
  | ofKind kind => job.kind = kind
  | dueBefore time => job.nextDueAt < time
  | dueAfter time => time < job.nextDueAt
  | retriedAtLeast retries => retries ≤ job.retries

def allHold (job : JobView) : List Filter → Bool
  | [] => true
  | part :: rest => holds job part && allHold job rest

def anyHolds (job : JobView) : List Filter → Bool
  | [] => false
  | part :: rest => holds job part || anyHolds job rest

end

mutual

/-- Whether two filters are the same, part by part. -/
def same : Filter → Filter → Bool
  | not a, not b => same a b
  | and as, and bs => allSame as bs
  | or as, or bs => allSame as bs
  | hasId a, hasId b => a = b
  | idIn as, idIn bs => as = bs
  | inState a, inState b => a = b
  | hasPriority a, hasPriority b => a = b
  | ofKind a, ofKind b => a = b
  | dueBefore a, dueBefore b => a = b
  | dueAfter a, dueAfter b => a = b
  | retriedAtLeast a, retriedAtLeast b => a = b
  | _, _ => false

def allSame : List Filter → List Filter → Bool
  | [], [] => true
  | a :: as, b :: bs => same a b && allSame as bs
  | _, _ => false

end

end Filter

def Census.query (census : Census) (filter : Filter) : List JobView := census.jobs.filter (filter.holds ·)

end Rota
