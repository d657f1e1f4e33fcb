/-
The ledger of a scheduler: its jobs, where their numbers stand, and the annals of each of them, without
the clock, the slots and the bells. `Effect` lists all that one action can do to it, and `Passage` what
becomes of one job meanwhile.
-/
import Rota.Proofs.Cadence
import Rota.Proofs.Execution
import Rota.Proofs.Run
import Mathlib.Data.Multiset.Filter

namespace Rota

/-- What a scheduler keeps of its jobs. -/
@[ext]
structure Ledger where
  jobs : List Job
  /-- The jobs in the timetable. -/
  waiting : Multiset JobId
  /-- The jobs that the promotion loop holds. -/
  inHand : List JobId
  lineup : Multiset JobId
  /-- The job that the dispatch loop holds. -/
  chosen : List JobId
  launched : Multiset JobId
  inFlight : List (TaskId × JobId)
  nextTask : Nat
  outstanding : UInt64
  annals : JobId → List Mark

/-- The ledger of a board, given what the loops hold and which executions are about to begin. -/
def Board.ledger (board : Board) (inHand chosen launched : List JobId) : Ledger where
  jobs := board.jobs
  waiting := board.timetable.ids
  inHand := inHand
  lineup := board.lineup.ids
  chosen := chosen
  launched := launched
  inFlight := board.inFlight.tasks
  nextTask := board.inFlight.next
  outstanding := board.outstanding
  annals := board.annals

def Scheduler.ledger (s : Scheduler) : Ledger := s.board.ledger s.inHand s.chosen s.launched

theorem Scheduler.count_waiting (s : Scheduler) (id : JobId) :
    s.ledger.waiting.count id = s.board.timetable.ids.count id := Multiset.coe_count ..

theorem Scheduler.count_lineup (s : Scheduler) (id : JobId) :
    s.ledger.lineup.count id = s.board.lineup.ids.count id := Multiset.coe_count ..

namespace Ledger

def job? (l : Ledger) (id : JobId) : Option Job := l.jobs.find? (·.id = id)

/-- Puts a job in place of the one with its number. -/
def put (l : Ledger) (job : Job) : Ledger := { l with jobs := l.jobs.map fun j => if j.id = job.id then job else j }

def note (l : Ledger) (id : JobId) (marks : List Mark) : Ledger :=
  { l with annals := fun i => if i = id then marks ++ l.annals i else l.annals i }

/-- Puts a job where it is to wait. -/
def send (l : Ledger) (id : JobId) : Fate → Ledger
  | .timetable => { l with waiting := id ::ₘ l.waiting.filter (· ≠ id) }
  | .lineup => { l with lineup := id ::ₘ l.lineup }
  | _ => l

/-- Counts a job no more, if it did. -/
def discount (l : Ledger) (finished : Bool) : Ledger :=
  { l with outstanding := if finished then l.outstanding else l.outstanding - 1 }

/-- The jobs being executed. -/
def flying (l : Ledger) : List JobId := l.inFlight.map (·.2)

/-- The executions there are, begun or not. -/
def executions (l : Ledger) : Multiset JobId := l.launched + ↑l.flying

end Ledger

/-- A job that was accepted with a plan, in the state in which it begins to wait. -/
def Plan.job (plan : Plan) (id : JobId) (work : Work) (number : Nat) (state : State) : Job :=
  { Job.new id work.kind work.performer? (plan.priority.getD work.kind.priority) plan.limit plan.dueAt plan.cadence
      (some number) with state := state }

/-- A job that was given up because no instance could be built for it. -/
def Job.givenUp (job : Job) (now : Instant) : Job :=
  { job.failedWith .instantiation job.kind.noMakerMessage now with finished := true }

/-- Where a job that is sent on begins to wait, and in which state. -/
inductive Waits : Fate → State → Prop
  | timetable : Waits .timetable .scheduled
  | lineup : Waits .lineup .enqueued

open Ledger in
/-- All that an action can do to a ledger. -/
inductive Effect (supply : Supply) (policy : RetryPolicy) (now : Instant) (l : Ledger) : Action → Ledger → Prop
  | quiet {action : Action} : Effect supply policy now l action l
  | accepted {made : Instant} {id : JobId} {work : Work} {request : Request} {plan : Plan} {number : Nat} {fate : Fate}
    {state : State} (unknown : l.job? id = none) (planned : request.plan made = .ok (.ok plan))
    (tame : plan.cadence.Tame plan.dueAt) (waits : Waits fate state) :
    Effect supply policy now l (.schedule made id work request)
      ({ l with jobs := l.jobs ++ [plan.job id work number state], outstanding := l.outstanding + 1 }.send id fate)
  | taken {batch : List JobId} {rest : Multiset JobId} (free : l.inHand = []) (split : l.waiting = ↑batch + rest) :
    Effect supply policy now l .promotion { l with waiting := rest, inHand := batch }
  | promoted {id : JobId} {rest : List JobId} {job : Job} (hand : l.inHand = id :: rest) (known : l.job? id = some job)
    (state : job.state.canBecome .enqueued = true) :
    Effect supply policy now l .promotion
      ({ l.put { job with state := .enqueued } with inHand := rest }.send id .lineup)
  | passedOver {id : JobId} {rest : List JobId} {job : Job} (hand : l.inHand = id :: rest) (known : l.job? id = some job)
    (state : job.state.canBecome .enqueued = false) :
    Effect supply policy now l .promotion { l with inHand := rest }
  | hurried {id : JobId} {job : Job} (known : l.job? id = some job) (state : job.state = .scheduled) :
    Effect supply policy now l (.performNow id)
      ({ l.put { job with state := .enqueued } with waiting := l.waiting.filter (· ≠ id) }.send id .lineup)
  | cancelled {id : JobId} {job : Job} (known : l.job? id = some job) (state : job.state.canBecome .cancelled = true) :
    Effect supply policy now l (.cancel id)
      ({ l.put { job with state := .cancelled, finished := true } with
          waiting := l.waiting.filter (· ≠ id)
          lineup := if id ∈ l.waiting then l.lineup else l.lineup.erase id }.discount job.finished)
  | chose {id : JobId} {rest : Multiset JobId} {slotFirst : Bool} (free : l.chosen = []) (split : l.lineup = id ::ₘ rest) :
    Effect supply policy now l (.dispatch slotFirst) { l with lineup := rest, chosen := [id] }
  | launched {id : JobId} {job : Job} {slotFirst : Bool} (hand : l.chosen = [id]) (known : l.job? id = some job)
    (state : job.state = .enqueued) :
    Effect supply policy now l (.dispatch slotFirst)
      { l.put { job with state := .running, retryAt := none } with chosen := [], launched := id ::ₘ l.launched }
  | notLaunched {id : JobId} {job : Job} {slotFirst : Bool} (hand : l.chosen = [id]) (known : l.job? id = some job)
    (state : job.state ≠ .enqueued) :
    Effect supply policy now l (.dispatch slotFirst) { l with chosen := [] }
  | begun {id : JobId} {job : Job} {performer : Instance} (waited : id ∈ l.launched) (known : l.job? id = some job)
    (supplied : job.bound = none → (supply.maker? job.kind).isSome) :
    Effect supply policy now l (.begin id)
      { (l.put (job.bind performer)).note id [.started] with
        launched := l.launched.erase id
        inFlight := l.inFlight ++ [(⟨l.nextTask⟩, id)]
        nextTask := l.nextTask + 1 }
  | givenUp {id : JobId} {job : Job} (waited : id ∈ l.launched) (known : l.job? id = some job)
    (unbound : job.bound = none) (unsupplied : supply.maker? job.kind = none) :
    Effect supply policy now l (.begin id)
      ({ (l.put (job.givenUp now)).note id [.abandoned] with
          launched := l.launched.erase id
          nextTask := l.nextTask + 1 }.discount job.finished)
  | concluded {task : TaskId} {id : JobId} {ending : Ending} {job job' : Job} {marks : List Mark} {fate : Fate}
    (flying : (task, id) ∈ l.inFlight) (known : l.job? id = some job) (sequel : Sequel policy now job ending marks job' fate) :
    Effect supply policy now l (.conclude task ending)
      (({ (l.put job').note id marks with inFlight := l.inFlight.filter fun t => t.1 ≠ task }.send id fate).discount
        (decide (fate ≠ Fate.ended) || job.finished))

/-- What becomes of one job by an action, and what is noted of it. -/
inductive Passage (supply : Supply) (policy : RetryPolicy) (now : Instant) (l : Ledger) (job : Job) :
    Action → List Mark → Job → Prop
  | stays {action : Action} : Passage supply policy now l job action [] job
  | promoted (hand : l.inHand.head? = some job.id) (state : job.state.canBecome .enqueued = true) :
    Passage supply policy now l job .promotion [] { job with state := .enqueued }
  | hurried (state : job.state = .scheduled) :
    Passage supply policy now l job (.performNow job.id) [] { job with state := .enqueued }
  | cancelled (state : job.state.canBecome .cancelled = true) :
    Passage supply policy now l job (.cancel job.id) [] { job with state := .cancelled, finished := true }
  | launched {slotFirst : Bool} (state : job.state = .enqueued) :
    Passage supply policy now l job (.dispatch slotFirst) [] { job with state := .running, retryAt := none }
  | begun {performer : Instance} (waited : job.id ∈ l.launched)
    (supplied : job.bound = none → (supply.maker? job.kind).isSome) :
    Passage supply policy now l job (.begin job.id) [.started] (job.bind performer)
  | givenUp (waited : job.id ∈ l.launched) (unbound : job.bound = none) (unsupplied : supply.maker? job.kind = none) :
    Passage supply policy now l job (.begin job.id) [.abandoned] (job.givenUp now)
  | concluded {task : TaskId} {ending : Ending} {job' : Job} {marks : List Mark} {fate : Fate}
    (flying : (task, job.id) ∈ l.inFlight) (sequel : Sequel policy now job ending marks job' fate) :
    Passage supply policy now l job (.conclude task ending) marks job'

theorem Passage.id_eq {supply : Supply} {policy : RetryPolicy} {now : Instant} {l : Ledger} {job job' : Job}
    {action : Action} {marks : List Mark} (h : Passage supply policy now l job action marks job') : job'.id = job.id := by
  cases h with
  | concluded _ sequel => exact sequel.id_eq
  | _ => rfl

section

variable {supply : Supply} {policy : RetryPolicy} {now : Instant} {l l' : Ledger} {action : Action}

namespace Ledger

theorem job?_id {id : JobId} {job : Job} (h : l.job? id = some job) : job.id = id := find?_id h

theorem job?_put {id : JobId} {job job' : Job} (jobs : l'.jobs = (l.put job').jobs) (known : l.job? id = some job)
    (hi : job'.id = job.id) (i : JobId) : l'.job? i = if i = id then some job' else l.job? i := by
  unfold job? at known ⊢
  rw [jobs]
  exact find?_put_known known hi i

theorem job?_append {id : JobId} {job : Job} (jobs : l'.jobs = l.jobs ++ [job]) (unknown : l.job? id = none)
    (hi : job.id = id) (i : JobId) : l'.job? i = if i = id then some job else l.job? i := by
  unfold job? at unknown ⊢
  rw [jobs]
  exact find?_append_unknown unknown hi i

@[simp] theorem send_jobs (l : Ledger) (id : JobId) (fate : Fate) : (l.send id fate).jobs = l.jobs := by cases fate <;> rfl
@[simp] theorem send_inHand (l : Ledger) (id : JobId) (fate : Fate) : (l.send id fate).inHand = l.inHand := by
  cases fate <;> rfl
@[simp] theorem send_chosen (l : Ledger) (id : JobId) (fate : Fate) : (l.send id fate).chosen = l.chosen := by
  cases fate <;> rfl
@[simp] theorem send_launched (l : Ledger) (id : JobId) (fate : Fate) : (l.send id fate).launched = l.launched := by
  cases fate <;> rfl
@[simp] theorem send_inFlight (l : Ledger) (id : JobId) (fate : Fate) : (l.send id fate).inFlight = l.inFlight := by
  cases fate <;> rfl
@[simp] theorem send_nextTask (l : Ledger) (id : JobId) (fate : Fate) : (l.send id fate).nextTask = l.nextTask := by
  cases fate <;> rfl
@[simp] theorem send_outstanding (l : Ledger) (id : JobId) (fate : Fate) :
    (l.send id fate).outstanding = l.outstanding := by cases fate <;> rfl
@[simp] theorem send_annals (l : Ledger) (id : JobId) (fate : Fate) : (l.send id fate).annals = l.annals := by
  cases fate <;> rfl

end Ledger

@[simp] theorem Plan.job_id (plan : Plan) (id : JobId) (work : Work) (number : Nat) (state : State) :
    (plan.job id work number state).id = id := rfl

/-- An action touches one job at most: it accepts it, or passes it on. -/
inductive Touch (supply : Supply) (policy : RetryPolicy) (now : Instant) (l l' : Ledger) : Action → Prop
  | none {action : Action} (jobs : l'.jobs = l.jobs) (annals : l'.annals = l.annals) : Touch supply policy now l l' action
  | new {made : Instant} {id : JobId} {work : Work} {request : Request} {plan : Plan} {number : Nat} {fate : Fate}
    {state : State} (unknown : l.job? id = .none) (planned : request.plan made = .ok (.ok plan))
    (tame : plan.cadence.Tame plan.dueAt) (waits : Waits fate state) (jobs : l'.jobs = l.jobs ++ [plan.job id work number state])
    (annals : l'.annals = l.annals) : Touch supply policy now l l' (.schedule made id work request)
  | passage {action : Action} {id : JobId} {job job' : Job} {marks : List Mark} (known : l.job? id = some job)
    (passage : Passage supply policy now l job action marks job') (jobs : l'.jobs = (l.put job').jobs)
    (annals : l'.annals = (l.note id marks).annals) : Touch supply policy now l l' action

theorem Effect.touch (h : Effect supply policy now l action l') : Touch supply policy now l l' action := by
  -- to note nothing is to leave the annals alone
  have hnil : ∀ id, l.annals = (l.note id []).annals := fun id => funext fun i => by
    show l.annals i = if i = id then [] ++ l.annals i else l.annals i
    split <;> rfl
  cases h with
  | quiet => exact .none rfl rfl
  | accepted unknown planned tame waits => exact .new unknown planned tame waits (Ledger.send_jobs ..) (Ledger.send_annals ..)
  | taken => exact .none rfl rfl
  | promoted hand known state =>
    cases Ledger.job?_id known
    exact .passage known (.promoted (by rw [hand]; rfl) state) rfl (hnil _)
  | passedOver => exact .none rfl rfl
  | hurried known state =>
    cases Ledger.job?_id known
    exact .passage known (.hurried state) rfl (hnil _)
  | cancelled known state =>
    cases Ledger.job?_id known
    exact .passage known (.cancelled state) rfl (hnil _)
  | chose => exact .none rfl rfl
  | launched _ known state => exact .passage known (.launched state) rfl (hnil _)
  | notLaunched => exact .none rfl rfl
  | begun waited known supplied =>
    cases Ledger.job?_id known
    exact .passage known (.begun waited supplied) rfl rfl
  | givenUp waited known unbound unsupplied =>
    cases Ledger.job?_id known
    exact .passage known (.givenUp waited unbound unsupplied) rfl rfl
  | concluded flying known sequel =>
    cases Ledger.job?_id known
    refine .passage known (.concluded flying sequel) ?_ ?_
    · simp [Ledger.discount, Ledger.note]
    · simp [Ledger.discount, Ledger.note, Ledger.put]

/-- Each job of a ledger has one passage by an action. -/
theorem Effect.passage (h : Effect supply policy now l action l') {id : JobId} {job : Job} (known : l.job? id = some job) :
    ∃ marks job', Passage supply policy now l job action marks job' ∧ l'.job? id = some job' ∧
      l'.annals id = marks ++ l.annals id := by
  cases h.touch with
  | none jobs annals => exact ⟨[], job, .stays, by unfold Ledger.job?; rw [jobs]; exact known, by rw [annals]; rfl⟩
  | new unknown _ _ _ jobs annals =>
    refine ⟨[], job, .stays, ?_, by rw [annals]; rfl⟩
    rw [Ledger.job?_append jobs unknown rfl, if_neg, known]
    rintro rfl
    rw [unknown] at known; cases known
  | @passage _ id₀ job₀ job' marks known₀ passage jobs annals =>
    have hj := Ledger.job?_put jobs known₀ passage.id_eq id
    by_cases hi : id = id₀
    · subst hi
      cases known₀.symm.trans known
      exact ⟨marks, job', passage, by rw [hj, if_pos rfl], by rw [annals]; exact if_pos rfl⟩
    · exact ⟨[], job, .stays, by rw [hj, if_neg hi, known], by rw [annals]; exact if_neg hi⟩

/-- A job that turns up has been accepted. -/
theorem Effect.turns_up (h : Effect supply policy now l action l') {id : JobId} (unknown : l.job? id = none) :
    l'.annals id = l.annals id ∧ (l'.job? id = none ∨ ∃ made work request plan number fate state,
      action = .schedule made id work request ∧ request.plan made = .ok (.ok plan) ∧ plan.cadence.Tame plan.dueAt ∧
      Waits fate state ∧ l'.job? id = some (plan.job id work number state)) := by
  cases h.touch with
  | none jobs annals => exact ⟨by rw [annals], .inl (by unfold Ledger.job?; rw [jobs]; exact unknown)⟩
  | @new made id₀ work request plan number fate state unknown₀ planned tame waits jobs annals =>
    refine ⟨by rw [annals], ?_⟩
    have hj := Ledger.job?_append jobs unknown₀ rfl id
    by_cases hi : id = id₀
    · subst hi
      exact .inr ⟨made, work, request, plan, number, fate, state, rfl, planned, tame, waits, by rw [hj, if_pos rfl]⟩
    · exact .inl (by rw [hj, if_neg hi, unknown])
  | @passage _ id₀ job₀ job' marks known₀ passage jobs annals =>
    have hi : id ≠ id₀ := by rintro rfl; rw [unknown] at known₀; cases known₀
    refine ⟨by rw [annals]; exact if_neg hi, .inl ?_⟩
    rw [Ledger.job?_put jobs known₀ passage.id_eq, if_neg hi, unknown]

end

end Rota
