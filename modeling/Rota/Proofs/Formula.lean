/-
Filters as they are put together. A formula is made of tests of one property each, by "not", "both" and "either", nested
in any way; the filter that comes of it is true of a job just when the formula is, however flat it has become. An
expectation asks its criteria one by one and so counts the jobs of which all of them are true together.
-/
import Rota.Expectation

namespace Rota

/-! ## Formulas -/

/-- A question about one property of a job. -/
inductive Test
  | hasId (id : JobId)
  | idIn (ids : List JobId)
  | inState (state : State)
  | hasPriority (priority : Priority)
  | ofKind (kind : String)
  | dueBefore (time : Instant)
  | dueAfter (time : Instant)
  | retriedAtLeast (retries : Nat)

namespace Test

/-- Whether the answer is yes. -/
def Passes (job : JobView) : Test → Prop
  | hasId id => job.id = id
  | idIn ids => job.id ∈ ids
  | inState state => job.state = state
  | hasPriority priority => job.priority = priority
  | ofKind kind => job.kind = kind
  | dueBefore time => job.nextDueAt < time
  | dueAfter time => time < job.nextDueAt
  | retriedAtLeast retries => retries ≤ job.retries

instance (job : JobView) : (test : Test) → Decidable (test.Passes job)
  | hasId id => inferInstanceAs (Decidable (job.id = id))
  | idIn ids => inferInstanceAs (Decidable (job.id ∈ ids))
  | inState state => inferInstanceAs (Decidable (job.state = state))
  | hasPriority priority => inferInstanceAs (Decidable (job.priority = priority))
  | ofKind kind => inferInstanceAs (Decidable (job.kind = kind))
  | dueBefore time => inferInstanceAs (Decidable (job.nextDueAt < time))
  | dueAfter time => inferInstanceAs (Decidable (time < job.nextDueAt))
  | retriedAtLeast retries => inferInstanceAs (Decidable (retries ≤ job.retries))

def filter : Test → Filter
  | hasId id => .hasId id
  | idIn ids => .idIn ids
  | inState state => .inState state
  | hasPriority priority => .hasPriority priority
  | ofKind kind => .ofKind kind
  | dueBefore time => .dueBefore time
  | dueAfter time => .dueAfter time
  | retriedAtLeast retries => .retriedAtLeast retries

theorem holds_filter (job : JobView) (test : Test) : test.filter.holds job = decide (test.Passes job) := by
  cases test with
  | idIn ids => rw [filter, Filter.holds]; exact List.contains_eq_mem ..
  | _ => rw [filter, Filter.holds]; rfl

end Test

inductive Formula
  | test (test : Test)
  | not (inner : Formula)
  | both (a b : Formula)
  | either (a b : Formula)

namespace Formula

/-- The truth of a formula for a job. -/
def value (job : JobView) : Formula → Bool
  | test t => decide (t.Passes job)
  | not inner => !inner.value job
  | both a b => a.value job && b.value job
  | either a b => a.value job || b.value job

/-- The filter that comes of a formula. -/
def filter : Formula → Filter
  | test t => t.filter
  | not inner => .not inner.filter
  | both a b => a.filter.both b.filter
  | either a b => a.filter.either b.filter

end Formula

namespace Filter

variable {job : JobView}

/-! ## What the builders make -/

theorem allHold_append (as bs : List Filter) : allHold job (as ++ bs) = (allHold job as && allHold job bs) := by
  induction as with
  | nil => rfl
  | cons a as ih => rw [List.cons_append, allHold, allHold, ih, Bool.and_assoc]

theorem anyHolds_append (as bs : List Filter) : anyHolds job (as ++ bs) = (anyHolds job as || anyHolds job bs) := by
  induction as with
  | nil => rfl
  | cons a as ih => rw [List.cons_append, anyHolds, anyHolds, ih, Bool.or_assoc]

theorem allHold_pair (a b : Filter) : allHold job [a, b] = (holds job a && holds job b) := by
  simp only [allHold, Bool.and_true]

theorem anyHolds_pair (a b : Filter) : anyHolds job [a, b] = (holds job a || holds job b) := by
  simp only [anyHolds, Bool.or_false]

/-- What is added to a conjunction is asked with its parts. -/
theorem holds_both (a b : Filter) : (a.both b).holds job = (a.holds job && b.holds job) := by
  cases a with
  | and parts =>
    rw [both, holds, holds, allHold_append]
    simp only [allHold, Bool.and_true]
  | _ => exact allHold_pair _ b

theorem holds_either (a b : Filter) : (a.either b).holds job = (a.holds job || b.holds job) := by
  cases a with
  | or parts =>
    rw [either, holds, holds, anyHolds_append]
    simp only [anyHolds, Bool.or_false]
  | _ => exact anyHolds_pair _ b

/-- A chain of conjunctions lies flat, so one after the other is asked. -/
theorem holds_foldl_both (first : Filter) (rest : List Filter) :
    (rest.foldl both first).holds job = (first.holds job && rest.all (·.holds job)) := by
  induction rest generalizing first with
  | nil => simp
  | cons next rest ih => rw [List.foldl_cons, ih, holds_both, List.all_cons, Bool.and_assoc]

/-- Some criteria as one filter, if there are any. -/
def together? : List Filter → Option Filter
  | [] => none
  | first :: rest => some (rest.foldl both first)

end Filter

/-- The jobs of a census that meet all of some criteria at once: every job if there are none. -/
def Census.meeting (census : Census) (criteria : List Filter) : List JobView :=
  match Filter.together? criteria with
  | none => census.jobs
  | some filter => census.query filter

/-- To ask one criterion after the other is to ask for all at once. -/
theorem Expectation.matching_eq (count : Option Nat) (criteria : List Filter) (census : Census) :
    (Expectation.mk count criteria).matching census = census.meeting criteria := by
  unfold Census.meeting
  cases criteria with
  | nil =>
    show census.jobs.filter (fun _ => true) = census.jobs
    exact List.filter_eq_self.2 fun _ _ => rfl
  | cons first rest =>
    show census.jobs.filter (fun job => (first :: rest).all (·.holds job)) =
      census.jobs.filter ((rest.foldl Filter.both first).holds ·)
    congr 1
    funext job
    rw [List.all_cons, Filter.holds_foldl_both]

namespace Formula

theorem holds_filter (job : JobView) (formula : Formula) : formula.filter.holds job = formula.value job := by
  induction formula with
  | test t => exact t.holds_filter job
  | not inner ih => rw [filter, value, Filter.holds, ih]
  | both a b iha ihb => rw [filter, value, Filter.holds_both, iha, ihb]
  | either a b iha ihb => rw [filter, value, Filter.holds_either, iha, ihb]

/-- Whatever filter a formula has become, it is true of the same jobs, and a query finds just those, in the order of the
census. An expectation counts the jobs that a query would find for all its criteria together, and is met if these are as
many as expected, or at least one where no number is given. -/
theorem filter_keeps_meaning (formula : Formula) (census : Census) (criteria : List Filter) :
    (∀ job, formula.filter.holds job = formula.value job) ∧
      census.query formula.filter = (census.scheduled ++ census.enqueued ++ census.running).filter (formula.value ·) ∧
      (∀ count, (Expectation.mk count criteria).matching census = census.meeting criteria) ∧
      (∀ expected, (Expectation.mk (some expected) criteria).check census = none ↔
        (census.meeting criteria).length = expected) ∧
      ((Expectation.mk none criteria).check census = none ↔ 1 ≤ (census.meeting criteria).length) := by
  refine ⟨fun job => formula.holds_filter job, ?_, fun count => Expectation.matching_eq .., fun expected => ?_, ?_⟩
  · unfold Census.query
    simp only [holds_filter]
    rfl
  · unfold Expectation.check
    rw [Expectation.matching_eq]
    by_cases enough : (census.meeting criteria).length = expected
    · exact ⟨fun _ => enough, fun _ => if_pos enough⟩
    · dsimp only
      rw [if_neg enough]
      exact ⟨nofun, fun met => absurd met enough⟩
  · unfold Expectation.check
    rw [Expectation.matching_eq]
    by_cases nobody : (census.meeting criteria).length = 0
    · dsimp only
      rw [if_pos nobody, nobody]
      exact ⟨nofun, nofun⟩
    · exact ⟨fun _ => Nat.pos_of_ne_zero nobody, fun _ => if_neg nobody⟩

/-- What is added on the right of a chain stays a part of its own. -/
example : ((Filter.inState .enqueued).both (.hasPriority .low)).both ((Filter.ofKind "A").both (.retriedAtLeast 1)) =
    .and [.inState .enqueued, .hasPriority .low, .and [.ofKind "A", .retriedAtLeast 1]] := rfl

end Formula

end Rota
