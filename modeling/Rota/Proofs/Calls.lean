/-
The life of one job under any calls of its operations, in any order, whether its state permits them or not. `Called` lists
what a single call can do; whatever holds of a run of calls is taken from it, one call after the other.
-/
import Rota.Proofs.Board
import Mathlib.Data.List.DropRight
import Mathlib.Data.List.Chain

namespace Rota

namespace Job

/-- The operations that move a job from state to state. -/
inductive Move
  | schedule
  | enqueue
  | run
  | complete
  | fail (kind : FailureKind) (details : String) (now : Instant)
  | retry (retryAt : Option Instant)
  | reschedule (dueAt : Instant)
  | cancel
deriving DecidableEq

inductive Call
  | move (move : Move)
  /-- Binds an instance to the job. -/
  | bind (performer : Instance)
  /-- Moves the cadence on by one occurrence. -/
  | advance
  | finish
deriving DecidableEq

inductive Answer
  | done
  | refused (refusal : Refusal)
  /-- The due time of the next occurrence, if there is one. -/
  | next (due : Option Instant)
  | faulted (fault : Fault)
  /-- Whether the job was not done with before. -/
  | finished (first : Bool)
deriving DecidableEq

namespace Move

def target : Move → State
  | schedule => .scheduled
  | enqueue => .enqueued
  | run => .running
  | complete => .success
  | fail .. => .failed
  | retry retryAt => if retryAt.isSome then .scheduled else .enqueued
  | reschedule _ => .scheduled
  | cancel => .cancelled

def operation : Move → Operation
  | schedule => .schedule
  | enqueue => .enqueue
  | run => .run
  | complete => .complete
  | fail .. => .fail
  | retry _ => .retry
  | reschedule _ => .reschedule
  | cancel => .cancel

def make (job : Job) : Move → Except Refusal Job
  | schedule => job.schedule
  | enqueue => job.enqueue
  | run => job.run
  | complete => job.complete
  | fail kind details now => job.fail kind details now
  | retry retryAt => job.retry retryAt
  | reschedule dueAt => job.reschedule dueAt
  | cancel => job.cancel

/-- The job after a move that its state permits. -/
def made (job : Job) : Move → Job
  | run => { job with state := .running, retryAt := none }
  | fail kind details now => job.failedWith kind details now
  | retry retryAt => job.retriedAt retryAt
  | reschedule dueAt => job.nextOn dueAt job.cadence
  | move => { job with state := move.target }

theorem make_eq (job : Job) (move : Move) :
    move.make job =
      if job.state.canBecome move.target then .ok (move.made job)
      else .error (.notPermitted move.operation job.id job.state) := by
  cases permitted : job.state.canBecome move.target with
  | true =>
    have moved : job.move move.operation move.target = .ok { job with state := move.target } := if_pos permitted
    rw [if_pos rfl]
    cases move
    case run | fail | retry | reschedule => exact congrArg (Except.map _) moved
    all_goals exact moved
  | false =>
    have refused : job.move move.operation move.target = .error (.notPermitted move.operation job.id job.state) :=
      if_neg (by simp [permitted])
    rw [if_neg Bool.false_ne_true]
    cases move
    case run | fail | retry | reschedule => exact congrArg (Except.map _) refused
    all_goals exact refused

@[simp] theorem made_state (job : Job) (move : Move) : (move.made job).state = move.target := by
  cases move <;> simp [made, target, failedWith, retriedAt, nextOn]

@[simp] theorem made_finished (job : Job) (move : Move) : (move.made job).finished = job.finished := by
  cases move <;> simp [made, failedWith, retriedAt, nextOn]

end Move

/-! ## One call -/

/-- Calls an operation of a job: the answer, and the job as it is then. -/
def call (job : Job) : Call → Answer × Job
  | .move move => match move.make job with
    | .ok job => (.done, job)
    | .error refusal => (.refused refusal, job)
  | .bind performer => (.done, job.bind performer)
  | .advance => match job.advance with
    | .ok (due, job) => (.next due, job)
    | .error fault => (.faulted fault, job)
  | .finish => (.finished !job.finished, job.finish)

/-- All that a call can do to a job. -/
inductive Called (job : Job) : Call → Answer → Job → Prop
  | moved {move : Move} (permitted : job.state.canBecome move.target = true) :
    Called job (.move move) .done (move.made job)
  | refused {move : Move} (forbidden : job.state.canBecome move.target = false) :
    Called job (.move move) (.refused (.notPermitted move.operation job.id job.state)) job
  | bound {performer : Instance} : Called job (.bind performer) .done (job.bind performer)
  | advanced {due : Option Instant} {rest : Cadence} (h : job.cadence.next job.dueAt = .ok (due, rest)) :
    Called job .advance (.next due) { job with cadence := rest }
  | stuck {fault : Fault} (h : job.cadence.next job.dueAt = .error fault) : Called job .advance (.faulted fault) job
  | finished : Called job .finish (.finished !job.finished) { job with finished := true }

theorem called (job : Job) (call : Call) : Called job call (job.call call).1 (job.call call).2 := by
  cases call with
  | move move =>
    unfold Job.call
    dsimp only
    rw [Move.make_eq]
    cases permitted : job.state.canBecome move.target with
    | true => exact .moved permitted
    | false => exact .refused permitted
  | bind performer => exact .bound
  | advance =>
    unfold Job.call Job.advance
    dsimp only
    cases h : job.cadence.next job.dueAt with
    | ok answer => exact .advanced h
    | error fault => exact .stuck h
  | finish => exact .finished

/-- What a job is accepted with, and keeps. -/
def terms (job : Job) : JobId × Kind × Priority × RetryLimit × Bool × Option Nat :=
  (job.id, job.kind, job.priority, job.limit, job.supplied, job.owner)

namespace Called

variable {job job' : Job} {call : Call} {answer : Answer}

theorem terms (h : Called job call answer job') : job'.terms = job.terms := by
  cases h with
  | @moved move _ => cases move <;> simp [Job.terms, Move.made, failedWith, retriedAt, nextOn]
  | _ => rfl

/-- A call changes the state only as the states permit. -/
theorem state (h : Called job call answer job') : job'.state = job.state ∨ job.state.canBecome job'.state = true := by
  cases h with
  | moved permitted =>
    rw [Move.made_state]
    exact .inr permitted
  | _ => exact .inl rfl

theorem dueAt (h : Called job call answer job') (changed : job'.dueAt ≠ job.dueAt) :
    ∃ dueAt, call = .move (.reschedule dueAt) ∧ answer = .done ∧ job'.dueAt = dueAt := by
  cases h with
  | @moved move permitted =>
    clear permitted
    cases move
    case reschedule due => exact ⟨due, rfl, rfl, by simp [Move.made, nextOn]⟩
    all_goals simp [Move.made, failedWith, retriedAt] at changed
  | _ => exact absurd rfl changed

/-- What is refused is a move that the state does not permit, and leaves the job as it is. -/
theorem atomic {refusal : Refusal} (h : Called job call (.refused refusal) job') :
    job' = job ∧ ∃ move, call = .move move ∧ job.state.canBecome move.target = false ∧
      refusal = .notPermitted move.operation job.id job.state := by
  cases h with
  | @refused move forbidden => exact ⟨rfl, move, rfl, forbidden, rfl⟩

theorem finished_eq (h : Called job call answer job') : job'.finished = (job.finished || decide (call = .finish)) := by
  cases h <;> simp [Job.bind]

end Called

/-! ## A run of calls -/

/-- One call of a run, with the job before it and after it. -/
structure Step where
  before : Job
  call : Call
  answer : Answer
  after : Job

def step (job : Job) (call : Call) : Step := ⟨job, call, (job.call call).1, (job.call call).2⟩

/-- The steps of a run of calls, in order. -/
def steps (job : Job) : List Call → List Step
  | [] => []
  | call :: rest => job.step call :: (job.call call).2.steps rest

/-- The job after a run of calls. -/
def after (job : Job) (calls : List Call) : Job := calls.foldl (fun job call => (job.call call).2) job

/-- The states that a job comes through in a run of calls, each where it is entered. -/
def path (job : Job) : List Call → List State
  | [] => [job.state]
  | call :: rest =>
    let job' := (job.call call).2
    if job'.state = job.state then job'.path rest else job.state :: job'.path rest

namespace Step

/-- Whether the step is a move of some kind that was made. -/
def did (step : Step) (kind : Move → Bool) : Bool :=
  match step.call, step.answer with
  | .move move, .done => kind move
  | _, _ => false

/-- Whether an attempt begins with the step. -/
def starts (step : Step) : Bool :=
  step.did fun
    | .run => true
    | _ => false

/-- Whether an attempt ends with the step. -/
def ends (step : Step) : Bool :=
  step.did fun
    | .complete | .fail .. => true
    | _ => false

/-- Whether a retry is used up in the step. -/
def retries (step : Step) : Bool :=
  step.did fun
    | .retry _ => true
    | _ => false

/-- Whether the next occurrence begins with the step. -/
def reschedules (step : Step) : Bool :=
  step.did fun
    | .reschedule _ => true
    | _ => false

/-- The failure that the job is to remember of the step, counted from the first attempt of its occurrence. -/
def failure? (step : Step) : Option Failure :=
  match step.call, step.answer with
  | .move (.fail kind details now), .done => some ⟨step.before.retries + 1, kind, details, now⟩
  | _, _ => none

end Step

/-- What is to be said of a run of calls on a job, whatever became of it before. -/
structure Lawful (start : Job) (calls : List Call) : Prop where
  atomic : ∀ step ∈ start.steps calls, ∀ refusal, step.answer = .refused refusal →
    step.after = step.before ∧ ∃ move, step.call = .move move ∧ step.before.state.canBecome move.target = false ∧
      refusal = .notPermitted move.operation step.before.id step.before.state
  terms : ∀ step ∈ start.steps calls, step.after.terms = start.terms
  dueAt : ∀ step ∈ start.steps calls, step.after.dueAt ≠ step.before.dueAt →
    ∃ dueAt, step.call = .move (.reschedule dueAt) ∧ step.answer = .done ∧ step.after.dueAt = dueAt
  begins : (start.path calls).head? = some start.state
  stops : (start.path calls).getLast? = some (start.after calls).state
  permitted : (start.path calls).IsChain fun a b => a.canBecome b = true
  neverAnew : State.notStarted ∉ (start.path calls).tail
  neverOn : State.cancelled ∉ (start.path calls).dropLast

/-- What is to be said of a run of calls on a new job. -/
structure AddsUp (start : Job) (calls : List Call) : Prop extends start.Lawful calls where
  anew : (start.path calls).head? = some .notStarted
  attempts : (start.steps calls).countP Step.starts =
    (start.steps calls).countP Step.ends + if (start.after calls).state = .running then 1 else 0
  failures : (start.after calls).failures = (start.steps calls).filterMap Step.failure?
  retries : (start.after calls).retries =
    ((start.steps calls).rtakeWhile fun step => !step.reschedules).countP Step.retries
  finish : ∀ before rest, calls = before ++ .finish :: rest →
    ((start.after before).call .finish).1 = .finished (decide (Call.finish ∉ before))

variable {start : Job}

theorem after_concat (start : Job) (calls : List Call) (call : Call) :
    start.after (calls ++ [call]) = ((start.after calls).call call).2 := by
  simp [after]

theorem steps_concat (start : Job) (calls : List Call) (call : Call) :
    start.steps (calls ++ [call]) = start.steps calls ++ [(start.after calls).step call] := by
  induction calls generalizing start with
  | nil => rfl
  | cons first rest ih =>
    rw [List.cons_append, steps, ih]
    rfl

/-- Every step of a run is a call, on a job of the terms that the run began with. -/
theorem steps_called {calls : List Call} {step : Step} (h : step ∈ start.steps calls) :
    Called step.before step.call step.answer step.after ∧ step.after.terms = start.terms := by
  induction calls generalizing start with
  | nil => cases h
  | cons call rest ih =>
    have first := called start call
    rcases List.mem_cons.1 h with rfl | later
    · exact ⟨first, first.terms⟩
    · obtain ⟨called, terms⟩ := ih later
      exact ⟨called, terms.trans first.terms⟩

/-! ## The states that a job comes through -/

theorem path_head? (start : Job) (calls : List Call) : (start.path calls).head? = some start.state := by
  induction calls generalizing start with
  | nil => rfl
  | cons call rest ih =>
    unfold path
    dsimp only
    split
    next stays => rw [ih, stays]
    next => rfl

theorem path_getLast? (start : Job) (calls : List Call) :
    (start.path calls).getLast? = some (start.after calls).state := by
  induction calls generalizing start with
  | nil => rfl
  | cons call rest ih =>
    have last : ((start.call call).2.path rest).getLast? = some (start.after (call :: rest)).state := ih _
    unfold path
    dsimp only
    split
    next => exact last
    next => rw [List.getLast?_cons, last]; rfl

theorem path_permitted (start : Job) (calls : List Call) :
    (start.path calls).IsChain fun a b => a.canBecome b = true := by
  induction calls generalizing start with
  | nil => exact .singleton _
  | cons call rest ih =>
    unfold path
    dsimp only
    split
    next => exact ih _
    next moves =>
      have permitted := (called start call).state.resolve_left moves
      refine List.isChain_cons.2 ⟨fun state next => ?_, ih _⟩
      rw [path_head?] at next
      cases next
      exact permitted

end Job

namespace State

/-- No state leads back to the first. -/
theorem notStarted_not_mem_tail : ∀ {path : List State}, path.IsChain (fun a b => a.canBecome b = true) →
    notStarted ∉ path.tail
  | [], _ => List.not_mem_nil
  | [_], _ => List.not_mem_nil
  | a :: b :: rest, h => by
    obtain ⟨permitted, later⟩ := List.isChain_cons_cons.1 h
    rintro (_ | ⟨_, mem⟩)
    · cases a <;> cases permitted
    · exact notStarted_not_mem_tail later mem

/-- A job that runs goes on to an outcome, and nothing else does. -/
theorem running_iff {a b : State} (h : a.canBecome b = true) : a = running ↔ b = success ∨ b = failed := by
  cases a <;> cases b <;> simp_all [canBecome]

/-- A cancelled job stays so. -/
theorem cancelled_not_mem_dropLast : ∀ {path : List State}, path.IsChain (fun a b => a.canBecome b = true) →
    cancelled ∉ path.dropLast
  | [], _ => List.not_mem_nil
  | [_], _ => List.not_mem_nil
  | a :: b :: rest, h => by
    obtain ⟨permitted, later⟩ := List.isChain_cons_cons.1 h
    rw [List.dropLast_cons_cons]
    rintro (_ | ⟨_, mem⟩)
    · cases b <;> cases permitted
    · exact cancelled_not_mem_dropLast later mem

end State

namespace Job

variable {start : Job}

theorem lawful (start : Job) (calls : List Call) : start.Lawful calls where
  atomic step h refusal refused := by
    have called := (steps_called h).1
    rw [refused] at called
    exact called.atomic
  terms step h := (steps_called h).2
  dueAt step h changed := (steps_called h).1.dueAt changed
  begins := path_head? start calls
  stops := path_getLast? start calls
  permitted := path_permitted start calls
  neverAnew := State.notStarted_not_mem_tail (path_permitted start calls)
  neverOn := State.cancelled_not_mem_dropLast (path_permitted start calls)

/-! ## The sums -/

namespace Called

variable {job job' : Job} {call : Call} {answer : Answer}

/-- An attempt begins where the job comes to run, and ends where it does so no more. -/
theorem attempts (h : Called job call answer job') :
    (if Step.starts ⟨job, call, answer, job'⟩ then 1 else 0) + (if job.state = .running then 1 else 0) =
      (if Step.ends ⟨job, call, answer, job'⟩ then 1 else 0) + (if job'.state = .running then 1 else 0) := by
  cases h with
  | @moved move permitted =>
    simp only [Move.made_state, State.running_iff permitted]
    cases move with
    | retry retryAt => cases retryAt <;> rfl
    | _ => rfl
  | _ => rfl

theorem failures (h : Called job call answer job') :
    job'.failures = job.failures ++ (Step.failure? ⟨job, call, answer, job'⟩).toList := by
  cases h with
  | @moved move permitted =>
    cases move <;> simp [Move.made, failedWith, retriedAt, nextOn, Step.failure?]
  | _ => simp [Step.failure?, Job.bind]

theorem retries (h : Called job call answer job') :
    job'.retries =
      if Step.reschedules ⟨job, call, answer, job'⟩ then 0
      else job.retries + if Step.retries ⟨job, call, answer, job'⟩ then 1 else 0 := by
  cases h with
  | @moved move permitted =>
    cases move <;> simp [Move.made, failedWith, retriedAt, nextOn, Step.reschedules, Step.retries, Step.did]
  | _ => rfl

end Called

theorem after_failures (start : Job) (calls : List Call) :
    (start.after calls).failures = start.failures ++ (start.steps calls).filterMap Step.failure? := by
  induction calls using List.reverseRecOn with
  | nil => simp [after, steps]
  | append_singleton calls call ih =>
    rw [after_concat, steps_concat, (called (start.after calls) call).failures, ih, List.append_assoc, List.filterMap_append]
    rfl

theorem after_terms (start : Job) (calls : List Call) : (start.after calls).terms = start.terms := by
  induction calls generalizing start with
  | nil => rfl
  | cons call rest ih => exact (ih _).trans (called start call).terms

theorem after_id (start : Job) (calls : List Call) : (start.after calls).id = start.id :=
  congrArg Prod.fst (after_terms start calls)

theorem after_finished (start : Job) (calls : List Call) :
    (start.after calls).finished = (start.finished || decide (Call.finish ∈ calls)) := by
  induction calls using List.reverseRecOn with
  | nil => simp [after]
  | append_singleton calls call ih =>
    rw [after_concat, (called (start.after calls) call).finished_eq, ih]
    simp [Bool.or_assoc, eq_comm]

/-- Of a job that did not run at the start, as many attempts have ended as have begun, but for the one under way. -/
theorem after_attempts (idle : start.state ≠ .running) (calls : List Call) :
    (start.steps calls).countP Step.starts =
      (start.steps calls).countP Step.ends + if (start.after calls).state = .running then 1 else 0 := by
  induction calls using List.reverseRecOn with
  | nil => simp [after, steps, idle]
  | append_singleton calls call ih =>
    have balance := (called (start.after calls) call).attempts
    rw [after_concat, steps_concat, List.countP_append, List.countP_append, List.countP_singleton, List.countP_singleton]
    unfold step
    omega

/-- The retries of a job that had none at the start are those made since it was last sent to another occurrence. -/
theorem after_retries (none : start.retries = 0) (calls : List Call) :
    (start.after calls).retries =
      ((start.steps calls).rtakeWhile fun step => !step.reschedules).countP Step.retries := by
  induction calls using List.reverseRecOn with
  | nil => simpa [after, steps] using none
  | append_singleton calls call ih =>
    have last := (called (start.after calls) call).retries
    rw [after_concat, steps_concat, last, List.rtakeWhile_concat, ih]
    unfold step
    cases Step.reschedules ⟨start.after calls, call, _, _⟩ with
    | true => rfl
    | false => simp [List.countP_append, List.countP_singleton]

/-- For every new job and any calls of its operations, in any order and whether its state permits them or not: what is
refused changes nothing, what the job was accepted with stays, and its state, its failures, its retries and its end are
what the calls made of it add up to. -/
theorem new_addsUp (id : JobId) (kind : Kind) (bound : Option Instance) (priority : Priority) (limit : RetryLimit)
    (dueAt : Instant) (cadence : Cadence) (owner : Option Nat) (calls : List Call) :
    (Job.new id kind bound priority limit dueAt cadence owner).AddsUp calls where
  toLawful := lawful _ calls
  anew := path_head? _ calls
  attempts := after_attempts (by rintro ⟨⟩) calls
  failures := after_failures _ calls
  retries := after_retries rfl calls
  finish := by
    rintro before rest rfl
    show Answer.finished _ = _
    rw [after_finished]
    simp [Job.new]

end Job
end Rota
