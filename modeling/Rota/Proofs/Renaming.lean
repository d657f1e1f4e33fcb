/-
Renaming. A scheduler uses the numbers of its jobs, and its own, for nothing but to tell them apart: whatever it does
after they have been given other numbers is what it would have done before, under the other numbers.
-/
import Rota.Proofs.Run
import Mathlib.Data.List.Basic
import Mathlib.Data.List.InsertIdx

namespace Rota

/-- Other numbers for jobs and for schedulers, by which they are told apart as before. -/
structure Renaming where
  job : JobId → JobId
  scheduler : Nat → Nat
  job_injective : Function.Injective job
  scheduler_injective : Function.Injective scheduler

/-! ## What bears a number -/

def Job.renamed (ρ : Renaming) (job : Job) : Job :=
  { job with id := ρ.job job.id, owner := job.owner.map ρ.scheduler }

def BadArgument.renamed (ρ : Renaming) : BadArgument → BadArgument
  | .foreignJob operation job => .foreignJob operation (ρ.job job)
  | cause => cause

def Refusal.renamed (ρ : Renaming) : Refusal → Refusal
  | .notPermitted operation job state => .notPermitted operation (ρ.job job) state
  | .badArgument cause => .badArgument (cause.renamed ρ)
  | refusal => refusal

def Event.renamed (ρ : Renaming) : Event → Event
  | .scheduled job time => .scheduled (ρ.job job) time
  | .enqueued job => .enqueued (ρ.job job)
  | .performedNow job => .performedNow (ρ.job job)
  | .cancelled job => .cancelled (ρ.job job)
  | .due job => .due (ρ.job job)
  | .notPromoted job => .notPromoted (ρ.job job)
  | .notDispatched job => .notDispatched (ρ.job job)
  | .notInserted job state => .notInserted (ρ.job job) state
  | .notPushed job state => .notPushed (ρ.job job) state
  | .built job task kind maker => .built (ρ.job job) task kind maker
  | .abandoned job kind => .abandoned (ρ.job job) kind
  | .executing job task performer => .executing (ρ.job job) task performer
  | .completed job => .completed (ρ.job job)
  | .rescheduled job time => .rescheduled (ρ.job job) time
  | .retrying job kind message => .retrying (ρ.job job) kind message
  | .exhausted job kind message => .exhausted (ρ.job job) kind message
  | .completeRefused job refusal => .completeRefused (ρ.job job) (refusal.renamed ρ)
  | .failRefused job refusal => .failRefused (ρ.job job) (refusal.renamed ρ)
  | .retryRefused job refusal => .retryRefused (ρ.job job) (refusal.renamed ρ)
  | .rescheduleRefused job refusal => .rescheduleRefused (ρ.job job) (refusal.renamed ρ)
  | event => event

def Timetable.renamed (ρ : Renaming) (t : Timetable) : Timetable where
  bySlot := t.bySlot.map fun e => (e.1, ρ.job e.2)
  slots := t.slots.map fun e => (ρ.job e.1, e.2)
  sequence := t.sequence
  bell := t.bell

def Waiter.renamed (ρ : Renaming) (w : Waiter) : Waiter := ⟨ρ.job w.id, w.priority⟩

def Lineup.renamed (ρ : Renaming) (lineup : Lineup) : Lineup := ⟨lineup.waiters.map (Waiter.renamed ρ), lineup.bell⟩

def InFlight.renamed (ρ : Renaming) (flights : InFlight) : InFlight :=
  ⟨flights.tasks.map fun t => (t.1, ρ.job t.2), flights.next⟩

def Board.renamed (ρ : Renaming) (board : Board) : Board where
  jobs := board.jobs.map (Job.renamed ρ)
  timetable := board.timetable.renamed ρ
  lineup := board.lineup.renamed ρ
  inFlight := board.inFlight.renamed ρ
  outstanding := board.outstanding
  journal := board.journal.map (Event.renamed ρ)

def Promotion.renamed (ρ : Renaming) : Promotion → Promotion
  | .holding batch => .holding (batch.map ρ.job)
  | promotion => promotion

def Dispatch.renamed (ρ : Renaming) : Dispatch → Dispatch
  | .chosen job => .chosen (ρ.job job)
  | dispatch => dispatch

def Scheduler.renamed (ρ : Renaming) (s : Scheduler) : Scheduler where
  number := ρ.scheduler s.number
  settings := s.settings
  board := s.board.renamed ρ
  freeSlots := s.freeSlots
  disposed := s.disposed
  promotion := s.promotion.renamed ρ
  dispatch := s.dispatch.renamed ρ
  restedLast := s.restedLast
  launched := s.launched.map ρ.job

def Action.renamed (ρ : Renaming) : Action → Action
  | .schedule made id work request => .schedule made (ρ.job id) work request
  | .cancel id => .cancel (ρ.job id)
  | .performNow id => .performNow (ρ.job id)
  | .begin id => .begin (ρ.job id)
  | action => action

namespace Renaming

variable {α β : Type}

/-- The answer to a call under other numbers. -/
def answer (ρ : Renaming) (f : α → β) : Except Refusal α → Except Refusal β
  | .ok a => .ok (f a)
  | .error refusal => .error (refusal.renamed ρ)

/-- An operation on jobs that heeds no numbers. -/
def Respects (ρ : Renaming) (operation : Job → Except Refusal Job) : Prop :=
  ∀ job, operation (job.renamed ρ) = ρ.answer (Job.renamed ρ) (operation job)

theorem job_eq_iff (ρ : Renaming) {a b : JobId} : ρ.job a = ρ.job b ↔ a = b := ρ.job_injective.eq_iff

/-- What is found under the other number is what is found under the old one. -/
theorem lookup_job (ρ : Renaming) (id : JobId) (l : List (JobId × α)) :
    (l.map fun e => (ρ.job e.1, e.2)).lookup (ρ.job id) = l.lookup id := by
  induction l with
  | nil => rfl
  | cons e rest ih =>
    rw [List.map_cons, List.lookup_cons, List.lookup_cons, ih]
    have same : (ρ.job id == ρ.job e.1) = (id == e.1) := by
      rw [Bool.eq_iff_iff, beq_iff_eq, beq_iff_eq, ρ.job_eq_iff]
    rw [same]

theorem lookup_value [BEq α] (ρ : Renaming) (key : α) (l : List (α × JobId)) :
    (l.map fun e => (e.1, ρ.job e.2)).lookup key = (l.lookup key).map ρ.job := by
  induction l with
  | nil => rfl
  | cons e rest ih =>
    rw [List.map_cons, List.lookup_cons, List.lookup_cons, ih]
    cases key == e.1 <;> rfl

end Renaming

variable (ρ : Renaming)

/-! ## Jobs -/

namespace Job

@[simp] theorem renamed_id (job : Job) : (job.renamed ρ).id = ρ.job job.id := rfl

@[simp] theorem renamed_state (job : Job) : (job.renamed ρ).state = job.state := rfl


theorem move_renamed (job : Job) (operation : Operation) (target : State) :
    (job.renamed ρ).move operation target = ρ.answer (Job.renamed ρ) (job.move operation target) := by
  unfold move
  rw [renamed_state]
  split <;> rfl

theorem schedule_renamed : ρ.Respects schedule := fun job => job.move_renamed ρ .schedule .scheduled

theorem enqueue_renamed : ρ.Respects enqueue := fun job => job.move_renamed ρ .enqueue .enqueued

theorem complete_renamed : ρ.Respects complete := fun job => job.move_renamed ρ .complete .success

theorem cancel_renamed : ρ.Respects cancel := fun job => job.move_renamed ρ .cancel .cancelled

theorem release_renamed (job : Job) : (job.renamed ρ).release = job.release.renamed ρ := by
  unfold release
  rw [show (job.renamed ρ).supplied = job.supplied from rfl]
  split <;> rfl

theorem run_renamed : ρ.Respects run := by
  intro job
  unfold run
  rw [move_renamed]
  cases job.move .run .running <;> rfl

theorem fail_renamed (kind : FailureKind) (details : String) (now : Instant) :
    ρ.Respects (·.fail kind details now) := by
  intro job
  dsimp only
  unfold fail
  rw [move_renamed]
  cases job.move .fail .failed <;> rfl

theorem retry_renamed (retryAt : Option Instant) : ρ.Respects (·.retry retryAt) := by
  intro job
  dsimp only
  unfold retry
  rw [move_renamed]
  cases job.move .retry (if retryAt.isSome then .scheduled else .enqueued) with
  | error => rfl
  | ok moved => exact congrArg Except.ok (release_renamed ρ { moved with retries := moved.retries + 1, retryAt := retryAt })

theorem reschedule_renamed (dueAt : Instant) : ρ.Respects (·.reschedule dueAt) := by
  intro job
  dsimp only
  unfold reschedule
  rw [move_renamed]
  cases job.move .reschedule .scheduled with
  | error => rfl
  | ok moved =>
    exact congrArg Except.ok (release_renamed ρ { moved with dueAt := dueAt, retryAt := none, retries := 0 })

theorem advance_renamed (job : Job) :
    (job.renamed ρ).advance = job.advance.map fun answer => (answer.1, answer.2.renamed ρ) := by
  unfold advance
  rw [show (job.renamed ρ).cadence = job.cadence from rfl, show (job.renamed ρ).dueAt = job.dueAt from rfl]
  cases job.cadence.next job.dueAt <;> rfl

theorem ensureScheduled_renamed (operation : Operation) (job : Job) :
    (job.renamed ρ).ensureScheduled operation = ρ.answer (fun done => done) (job.ensureScheduled operation) := by
  unfold ensureScheduled
  rw [renamed_state]
  split <;> rfl

end Job

/-! ## Queues -/

namespace Timetable

theorem place_renamed (slot : Slot) (id : JobId) (entries : List (Slot × JobId)) :
    place slot (ρ.job id) (entries.map fun e => (e.1, ρ.job e.2)) =
      (place slot id entries).map fun e => (e.1, ρ.job e.2) := by
  induction entries with
  | nil => rfl
  | cons e rest ih =>
    simp only [List.map_cons, place]
    split
    · rfl
    · rw [ih]; rfl

theorem vacate_renamed (slot : Slot) (entries : List (Slot × JobId)) :
    vacate slot (entries.map fun e => (e.1, ρ.job e.2)) = (vacate slot entries).map fun e => (e.1, ρ.job e.2) :=
  List.filter_map

theorem forget_renamed (id : JobId) (slots : List (JobId × Slot)) :
    forget (ρ.job id) (slots.map fun e => (ρ.job e.1, e.2)) = (forget id slots).map fun e => (ρ.job e.1, e.2) := by
  unfold forget
  rw [List.filter_map]
  congr 2
  funext e
  simp [ρ.job_eq_iff]

theorem insert_renamed (t : Timetable) (job : Job) :
    (t.renamed ρ).insert (job.renamed ρ) = (t.insert job).renamed ρ := by
  unfold insert
  rw [Job.renamed_state]
  split
  · rfl
  · simp only [renamed, Job.renamed, ρ.lookup_job, forget_renamed]
    cases t.slots.lookup job.id <;> simp only [vacate_renamed, place_renamed] <;> rfl

theorem remove_renamed (t : Timetable) (id : JobId) :
    (t.renamed ρ).remove (ρ.job id) = ((t.remove id).1.map ρ.job, (t.remove id).2.renamed ρ) := by
  unfold remove
  simp only [renamed, ρ.lookup_job]
  cases t.slots.lookup id with
  | none => rfl
  | some slot => simp only [ρ.lookup_value, vacate_renamed, forget_renamed]

theorem takeDue_renamed (t : Timetable) (now : Instant) :
    (t.renamed ρ).takeDue now = ((t.takeDue now).1.map ρ.job, (t.takeDue now).2.renamed ρ) := by
  have due : (((t.renamed ρ).bySlot.takeWhile fun e => decide (e.1.due ≤ now)).map (·.2)) =
      ((t.bySlot.takeWhile fun e => decide (e.1.due ≤ now)).map (·.2)).map ρ.job := by
    simp only [renamed, List.takeWhile_map, List.map_map]
    rfl
  unfold takeDue
  simp only [due, Prod.mk.injEq, true_and]
  simp only [renamed, List.dropWhile_map, List.filter_map, Timetable.mk.injEq, and_true]
  refine ⟨rfl, congrArg (List.map _) (List.filter_congr fun e _ => ?_)⟩
  simp only [Function.comp, List.contains_eq_mem, List.mem_map_of_injective ρ.job_injective]

theorem idleDelay_renamed (t : Timetable) (rate : Duration) (now : Instant) :
    (t.renamed ρ).idleDelay rate now = t.idleDelay rate now := by
  have next : (t.renamed ρ).nextDueAt = t.nextDueAt := by
    simp only [nextDueAt, renamed, List.head?_map, Option.map_map]
    rfl
  unfold idleDelay
  rw [next]

end Timetable

namespace Lineup

theorem push_renamed (lineup : Lineup) (job : Job) :
    (lineup.renamed ρ).push (job.renamed ρ) = (lineup.push job).renamed ρ := by
  unfold push
  rw [Job.renamed_state]
  split
  · rfl
  · simp [renamed, Waiter.renamed, Job.renamed]

theorem remove_renamed (lineup : Lineup) (id : JobId) :
    (lineup.renamed ρ).remove (ρ.job id) = ((lineup.remove id).1.map ρ.job, (lineup.remove id).2.renamed ρ) := by
  have found : (lineup.waiters.map (Waiter.renamed ρ)).findIdx? (·.id = ρ.job id) =
      lineup.waiters.findIdx? (·.id = id) := by
    rw [List.findIdx?_map]
    congr 1
    funext w
    simp [Waiter.renamed, ρ.job_eq_iff]
  unfold remove
  simp only [renamed, found]
  cases lineup.waiters.findIdx? (·.id = id) with
  | none => rfl
  | some index => simp only [Option.map_some, List.eraseIdx_map]

theorem scan_renamed (waiters : List Waiter) (index : Nat) (best : Option (Nat × Priority)) :
    scan (waiters.map (Waiter.renamed ρ)) index best = scan waiters index best := by
  induction waiters generalizing index best with
  | nil => rfl
  | cons w rest ih =>
    simp only [List.map_cons, scan, ih]
    rfl

theorem takeNext_renamed (lineup : Lineup) :
    (lineup.renamed ρ).takeNext = (lineup.takeNext.1.map ρ.job, lineup.takeNext.2.renamed ρ) := by
  unfold takeNext
  simp only [renamed, scan_renamed]
  cases scan lineup.waiters 0 none with
  | none => rfl
  | some index =>
    simp only [List.getElem?_map, Option.map_map, List.eraseIdx_map]
    rfl

theorem isEmpty_renamed (lineup : Lineup) : (lineup.renamed ρ).isEmpty = lineup.isEmpty := List.isEmpty_map

end Lineup

namespace InFlight

theorem register_renamed (flights : InFlight) (id : JobId) :
    (flights.renamed ρ).register (ρ.job id) = ((flights.register id).1, (flights.register id).2.renamed ρ) := by
  simp [register, renamed]

theorem drop_renamed (flights : InFlight) (task : TaskId) :
    (flights.renamed ρ).drop task = (flights.drop task).renamed ρ := by
  simp only [drop, renamed, List.filter_map]
  rfl

end InFlight

/-! ## The board -/

namespace Board

theorem job?_renamed (board : Board) (id : JobId) :
    (board.renamed ρ).job? (ρ.job id) = (board.job? id).map (Job.renamed ρ) := by
  unfold job? renamed
  rw [List.find?_map]
  congr 2
  funext job
  simp [Job.renamed, ρ.job_eq_iff]

theorem put_renamed (board : Board) (job : Job) : (board.renamed ρ).put (job.renamed ρ) = (board.put job).renamed ρ := by
  have jobs : (board.jobs.map (Job.renamed ρ)).map (fun j => if j.id = (job.renamed ρ).id then job.renamed ρ else j) =
      (board.jobs.map fun j => if j.id = job.id then job else j).map (Job.renamed ρ) := by
    rw [List.map_map, List.map_map]
    refine List.map_congr_left fun j _ => ?_
    simp only [Function.comp, Job.renamed, ρ.job_eq_iff]
    split <;> rfl
  unfold put renamed
  rw [jobs]

theorem add_renamed (board : Board) (job : Job) : (board.renamed ρ).add (job.renamed ρ) = (board.add job).renamed ρ := by
  simp [add, renamed]

theorem write_renamed (board : Board) (event : Event) :
    (board.renamed ρ).write (event.renamed ρ) = (board.write event).renamed ρ := rfl

theorem move_renamed {operation : Job → Except Refusal Job} (h : ρ.Respects operation) (board : Board) (id : JobId) :
    (board.renamed ρ).move (ρ.job id) operation = ρ.answer (renamed ρ) (board.move id operation) := by
  unfold move
  rw [job?_renamed]
  cases board.job? id with
  | none => rfl
  | some job =>
    simp only [Option.map_some, h job]
    cases operation job with
    | error => rfl
    | ok moved => exact congrArg Except.ok (board.put_renamed ρ moved)

theorem insert_renamed (board : Board) (id : JobId) : (board.renamed ρ).insert (ρ.job id) = (board.insert id).renamed ρ := by
  unfold insert
  rw [job?_renamed]
  cases board.job? id with
  | none => rfl
  | some job =>
    simp only [Option.map_some]
    rw [Job.renamed_state]
    split
    · simp [renamed, Timetable.insert_renamed]
    · rfl

theorem push_renamed (board : Board) (id : JobId) : (board.renamed ρ).push (ρ.job id) = (board.push id).renamed ρ := by
  unfold push
  rw [job?_renamed]
  cases board.job? id with
  | none => rfl
  | some job =>
    simp only [Option.map_some]
    rw [Job.renamed_state]
    split
    · simp [renamed, Lineup.push_renamed]
    · rfl

theorem unschedule_renamed (board : Board) (id : JobId) :
    (board.renamed ρ).unschedule (ρ.job id) = ((board.unschedule id).1.map ρ.job, (board.unschedule id).2.renamed ρ) := by
  simp [unschedule, renamed, Timetable.remove_renamed]

theorem withdraw_renamed (board : Board) (id : JobId) :
    (board.renamed ρ).withdraw (ρ.job id) = ((board.withdraw id).1.map ρ.job, (board.withdraw id).2.renamed ρ) := by
  simp [withdraw, renamed, Lineup.remove_renamed]

theorem takeDue_renamed (board : Board) (now : Instant) :
    (board.renamed ρ).takeDue now = ((board.takeDue now).1.map ρ.job, (board.takeDue now).2.renamed ρ) := by
  simp [takeDue, renamed, Timetable.takeDue_renamed]

theorem takeNext_renamed (board : Board) :
    (board.renamed ρ).takeNext = (board.takeNext.1.map ρ.job, board.takeNext.2.renamed ρ) := by
  simp [takeNext, renamed, Lineup.takeNext_renamed]

theorem register_renamed (board : Board) (id : JobId) :
    (board.renamed ρ).register (ρ.job id) = ((board.register id).1, (board.register id).2.renamed ρ) := by
  simp [register, renamed, InFlight.register_renamed]

theorem drop_renamed (board : Board) (task : TaskId) : (board.renamed ρ).drop task = (board.drop task).renamed ρ := by
  simp [drop, renamed, InFlight.drop_renamed]

theorem finish_renamed (board : Board) (id : JobId) : (board.renamed ρ).finish (ρ.job id) = (board.finish id).renamed ρ := by
  unfold finish
  rw [job?_renamed]
  cases board.job? id with
  | none => rfl
  | some job =>
    simp only [Option.map_some, show (job.renamed ρ).finished = job.finished from rfl]
    split
    · rfl
    · rw [show (job.renamed ρ).finish = job.finish.renamed ρ from rfl, put_renamed]
      rfl

/-! ## Executions -/

theorem moveOrNote_renamed {operation : Job → Except Refusal Job} (h : ρ.Respects operation) (note : JobId → Refusal → Event)
    (board : Board) (id : JobId) (hn : ∀ refusal, note (ρ.job id) (refusal.renamed ρ) = (note id refusal).renamed ρ) :
    (board.renamed ρ).moveOrNote (ρ.job id) operation (note (ρ.job id)) = (board.moveOrNote id operation (note id)).renamed ρ := by
  unfold moveOrNote
  rw [move_renamed ρ h]
  cases board.move id operation with
  | ok => rfl
  | error refusal => simp only [Renaming.answer, hn, write_renamed]

theorem begin_renamed (board : Board) (supply : Supply) (now : Instant) (job : Job) :
    (board.renamed ρ).begin supply now (job.renamed ρ) =
      ((board.begin supply now job).1, (board.begin supply now job).2.renamed ρ) := by
  unfold begin
  rw [Job.renamed_id, register_renamed]
  dsimp only
  rw [show (job.renamed ρ).bound = job.bound from rfl]
  cases job.bound with
  | some performer => rfl
  | none =>
    dsimp only
    rw [show (job.renamed ρ).kind = job.kind from rfl]
    cases supply.maker? job.kind with
    | some maker =>
      have put := ((board.register job.id).2.write (.built job.id (board.register job.id).1 job.kind maker)).put_renamed ρ
        (job.bind ⟨job.kind, job.kind.name, .built (board.register job.id).1 maker⟩)
      exact Prod.ext rfl (congrArg (write · (.executing (ρ.job job.id) (board.register job.id).1
        ⟨job.kind, job.kind.name, .built (board.register job.id).1 maker⟩)) put)
    | none =>
      have noted := moveOrNote_renamed ρ (Job.fail_renamed ρ .instantiation job.kind.noMakerMessage now) .failRefused
        ((board.register job.id).2.write (.abandoned job.id job.kind)) job.id fun _ => rfl
      have dropped : ∀ {b b' : Board}, b' = b.renamed ρ →
          (b'.drop (board.register job.id).1).finish (ρ.job job.id) =
            ((b.drop (board.register job.id).1).finish job.id).renamed ρ := fun h => by
        rw [h, drop_renamed, finish_renamed]
      exact Prod.ext rfl (dropped noted)

theorem recurOrFinish_renamed (board : Board) (id : JobId) :
    (board.renamed ρ).recurOrFinish (ρ.job id) = (board.recurOrFinish id).map (renamed ρ) := by
  unfold recurOrFinish
  rw [job?_renamed]
  cases board.job? id with
  | none => rfl
  | some job =>
    simp only [Option.map_some, Job.advance_renamed]
    cases job.advance with
    | error => rfl
    | ok answer =>
      obtain ⟨_ | due, left⟩ := answer
      · refine congrArg Except.ok ?_
        simp only [put_renamed, finish_renamed]
      · simp only [Except.map, put_renamed, move_renamed ρ (Job.reschedule_renamed ρ due)]
        cases (board.put left).move id (·.reschedule due) with
        | ok moved => exact congrArg Except.ok ((moved.write (.rescheduled id due)).insert_renamed ρ id)
        | error refusal =>
          exact congrArg Except.ok (((board.put left).write (.rescheduleRefused id refusal)).finish_renamed ρ id)

theorem sendBack_renamed (board : Board) (id : JobId) (retryAt : Option Instant) :
    (board.renamed ρ).sendBack (ρ.job id) retryAt = (board.sendBack id retryAt).renamed ρ := by
  unfold sendBack
  rw [move_renamed ρ (Job.retry_renamed ρ retryAt)]
  cases board.move id (·.retry retryAt) with
  | ok moved =>
    simp only [Renaming.answer]
    split
    · exact insert_renamed ..
    · exact push_renamed ..
  | error refusal => exact finish_renamed ρ (board.write (.retryRefused id refusal)) id

theorem settle_renamed (board : Board) (now : Instant) (id : JobId) (task : TaskId) (ending : Ending) :
    (board.renamed ρ).settle now (ρ.job id) task ending = (board.settle now id task ending).renamed ρ := by
  cases ending with
  | done =>
    have noted := moveOrNote_renamed ρ (Job.complete_renamed ρ) .completeRefused (board.write (.completed id)) id fun _ => rfl
    exact (congrArg (drop · task) noted).trans (drop_renamed ..)
  | failed kind message =>
    have noted := moveOrNote_renamed ρ (Job.fail_renamed ρ kind message now) .failRefused board id fun _ => rfl
    exact (congrArg (drop · task) noted).trans (drop_renamed ..)

theorem route_renamed (board : Board) (policy : RetryPolicy) (now : Instant) (id : JobId) (ending : Ending) :
    (board.renamed ρ).route policy now (ρ.job id) ending =
      ((board.route policy now id ending).1.renamed ρ, (board.route policy now id ending).2) := by
  unfold route
  rw [job?_renamed]
  cases board.job? id with
  | none => cases ending <;> rfl
  | some job =>
    cases ending with
    | done =>
      simp only [Option.map_some, recurOrFinish_renamed]
      cases board.recurOrFinish id <;> rfl
    | failed kind message =>
      simp only [Option.map_some, show policy.permits (job.renamed ρ) = policy.permits job from rfl,
        show policy.retryAt (job.renamed ρ) now = policy.retryAt job now from rfl]
      split
      · cases policy.retryAt job now with
        | error => rfl
        | ok retryAt => exact Prod.ext (sendBack_renamed ρ (board.write (.retrying id kind message)) id retryAt) rfl
      · have sent := (board.write (.exhausted id kind message)).recurOrFinish_renamed ρ id
        rw [← write_renamed] at sent
        simp only [Event.renamed] at sent
        rw [sent]
        cases (board.write (.exhausted id kind message)).recurOrFinish id <;> rfl

end Board

/-! ## Schedulers -/

namespace Scheduler

@[simp] theorem renamed_board (s : Scheduler) : (s.renamed ρ).board = s.board.renamed ρ := rfl

@[simp] theorem renamed_settings (s : Scheduler) : (s.renamed ρ).settings = s.settings := rfl

@[simp] theorem renamed_disposed (s : Scheduler) : (s.renamed ρ).disposed = s.disposed := rfl

theorem accept_renamed (s : Scheduler) (now : Instant) (id : JobId) (work : Work) (plan : Plan) :
    (s.renamed ρ).accept now (ρ.job id) work plan = ρ.answer (renamed ρ) (s.accept now id work plan) := by
  have added := s.board.add_renamed ρ (Job.new id work.kind work.performer? (plan.priority.getD work.kind.priority)
    plan.limit plan.dueAt plan.cadence (some s.number))
  unfold accept
  rw [renamed_disposed]
  split
  · rfl
  · dsimp only
    rw [show (s.renamed ρ).board.add (Job.new (ρ.job id) work.kind work.performer?
      (plan.priority.getD work.kind.priority) plan.limit plan.dueAt plan.cadence (some (s.renamed ρ).number)) = _ from added]
    generalize s.board.add _ = board
    split
    · rw [Board.move_renamed ρ (Job.enqueue_renamed ρ)]
      cases board.move id Job.enqueue with
      | error => rfl
      | ok moved =>
        exact congrArg (fun b => Except.ok { s.renamed ρ with board := b })
          ((moved.track.write (.enqueued id)).push_renamed ρ id)
    · rw [Board.move_renamed ρ (Job.schedule_renamed ρ)]
      cases board.move id Job.schedule with
      | error => rfl
      | ok moved =>
        exact congrArg (fun b => Except.ok { s.renamed ρ with board := b })
          ((moved.track.write (.scheduled id plan.dueAt)).insert_renamed ρ id)

/-- A request is granted under other numbers just when it is granted under the old ones. -/
theorem schedule_renamed (s : Scheduler) (made now : Instant) (id : JobId) (work : Work) (request : Request) :
    ((s.renamed ρ).schedule made now (ρ.job id) work request).toOption.bind (·.toOption) =
      ((s.schedule made now id work request).toOption.bind (·.toOption)).map (renamed ρ) := by
  unfold schedule
  rw [show (s.renamed ρ).supply = s.supply from rfl]
  split
  · rfl
  · cases request.plan made with
    | error fault => rfl
    | ok answer =>
      cases answer with
      | error refusal => rfl
      | ok plan =>
        show ((s.renamed ρ).accept now (ρ.job id) work plan).toOption = (s.accept now id work plan).toOption.map (renamed ρ)
        rw [accept_renamed]
        cases s.accept now id work plan <;> rfl

/-- A scheduler tells its own jobs from those of others by any numbers. -/
theorem ensureOwned_renamed (s : Scheduler) (job : Job) (operation : Operation) :
    (s.renamed ρ).ensureOwned (job.renamed ρ) operation = ρ.answer (fun done => done) (s.ensureOwned job operation) := by
  have owned : (job.renamed ρ).isOwnedBy (s.renamed ρ).number = job.isOwnedBy s.number := by
    unfold Job.isOwnedBy
    show (job.owner.map ρ.scheduler == some (ρ.scheduler s.number)) = (job.owner == some s.number)
    cases job.owner with
    | none => rfl
    | some owner =>
      rw [Option.map_some, Bool.eq_iff_iff, beq_iff_eq, beq_iff_eq, Option.some.injEq, Option.some.injEq,
        ρ.scheduler_injective.eq_iff]
  unfold ensureOwned
  rw [owned]
  split <;> rfl

theorem cancel_renamed (s : Scheduler) (job : Job) :
    (s.renamed ρ).cancel (job.renamed ρ) = ρ.answer (renamed ρ) (s.cancel job) := by
  unfold cancel
  rw [ensureOwned_renamed, renamed_board,
    Job.renamed_id, Board.move_renamed ρ (Job.cancel_renamed ρ)]
  cases s.ensureOwned job .cancel with
  | error => rfl
  | ok =>
    cases s.board.move job.id Job.cancel with
    | error => rfl
    | ok board =>
      have cancelled : ∀ left : Board, Except.ok { s.renamed ρ with
          board := ((left.renamed ρ).finish (ρ.job job.id)).write (.cancelled (ρ.job job.id)) } =
          ρ.answer (renamed ρ) (.ok { s with board := (left.finish job.id).write (.cancelled job.id) }) :=
        fun left => by rw [Board.finish_renamed]; rfl
      simp only [Bind.bind, Except.bind, Renaming.answer, Board.unschedule_renamed]
      cases board.unschedule job.id with
      | mk found left =>
        cases found with
        | some _ => exact cancelled left
        | none =>
          simp only [Option.map_none, Board.withdraw_renamed]
          exact cancelled (left.withdraw job.id).2

theorem performNow_renamed (s : Scheduler) (job : Job) :
    (s.renamed ρ).performNow (job.renamed ρ) = ρ.answer (renamed ρ) (s.performNow job) := by
  unfold performNow
  rw [ensureOwned_renamed, renamed_board,
    Job.renamed_id, Job.ensureScheduled_renamed, Board.unschedule_renamed]
  cases s.ensureOwned job .performNow with
  | error => rfl
  | ok =>
    cases job.ensureScheduled .performNow with
    | error => rfl
    | ok =>
      simp only [Bind.bind, Except.bind, Renaming.answer, Board.move_renamed ρ (Job.enqueue_renamed ρ)]
      cases (s.board.unschedule job.id).2.move job.id Job.enqueue with
      | error => rfl
      | ok board =>
        exact congrArg (fun b => Except.ok { s.renamed ρ with board := b })
          ((board.write (.performedNow job.id)).push_renamed ρ job.id)

theorem promote_renamed (s : Scheduler) (id : JobId) : (s.renamed ρ).promote (ρ.job id) = (s.promote id).renamed ρ := by
  unfold promote
  rw [renamed_board, Board.move_renamed ρ (Job.enqueue_renamed ρ)]
  cases s.board.move id Job.enqueue with
  | ok board =>
    have pushed := (board.write (.due id)).push_renamed ρ id
    exact congrArg (fun b => ({ s.renamed ρ with board := b } : Scheduler)) pushed
  | error => rfl

theorem promotionStep_renamed (s : Scheduler) (now : Instant) :
    (s.renamed ρ).promotionStep now = (s.promotionStep now).renamed ρ := by
  unfold promotionStep
  rw [show (s.renamed ρ).promotion = s.promotion.renamed ρ from rfl]
  cases s.promotion with
  | looking =>
    dsimp only [Promotion.renamed]
    rw [renamed_disposed]
    split
    · rfl
    · rw [renamed_board, Board.takeDue_renamed]
      rcases s.board.takeDue now with ⟨_ | ⟨first, rest⟩, board⟩ <;> rfl
  | holding batch =>
    cases batch with
    | nil => rfl
    | cons id rest => exact congrArg (fun s => ({ s with promotion := .holding (rest.map ρ.job) } : Scheduler)) (s.promote_renamed ρ id)
  | measuring read =>
    dsimp only [Promotion.renamed]
    rw [show (s.renamed ρ).board.timetable = s.board.timetable.renamed ρ from rfl, Timetable.idleDelay_renamed]
    rfl
  | parking read delay =>
    dsimp only [Promotion.renamed]
    rw [show (s.renamed ρ).board.timetable.bell = s.board.timetable.bell from rfl]
    split <;> rfl
  | parked read delay =>
    dsimp only [Promotion.renamed]
    rw [renamed_disposed,
      show (s.renamed ρ).board.timetable.bell = s.board.timetable.bell from rfl]
    repeat' split
    all_goals rfl
  | stopped => rfl

theorem choose_renamed (s : Scheduler) : (s.renamed ρ).choose = s.choose.renamed ρ := by
  unfold choose
  rw [renamed_board, Board.takeNext_renamed]
  rcases s.board.takeNext with ⟨_ | id, board⟩ <;> rfl

theorem launch_renamed (s : Scheduler) (id : JobId) : (s.renamed ρ).launch (ρ.job id) = (s.launch id).renamed ρ := by
  unfold launch
  rw [renamed_board, Board.move_renamed ρ (Job.run_renamed ρ)]
  cases s.board.move id Job.run with
  | ok board =>
    have launched : s.launched.map ρ.job ++ [ρ.job id] = (s.launched ++ [id]).map ρ.job := by simp
    exact congrArg (fun l => ({ s.renamed ρ with board := board.renamed ρ, launched := l, dispatch := .looking } : Scheduler))
      launched
  | error => rfl

theorem dispatchStep_renamed (s : Scheduler) (now : Instant) (slotFirst : Bool) :
    (s.renamed ρ).dispatchStep now slotFirst = (s.dispatchStep now slotFirst).renamed ρ := by
  unfold dispatchStep
  rw [show (s.renamed ρ).dispatch = s.dispatch.renamed ρ from rfl]
  cases s.dispatch with
  | looking =>
    dsimp only [Dispatch.renamed]
    rw [renamed_disposed,
      show (s.renamed ρ).board.lineup = s.board.lineup.renamed ρ from rfl, Lineup.isEmpty_renamed]
    repeat' split
    all_goals rfl
  | parking =>
    dsimp only [Dispatch.renamed]
    rw [show (s.renamed ρ).board.lineup.bell = s.board.lineup.bell from rfl]
    split <;> rfl
  | parked read =>
    dsimp only [Dispatch.renamed]
    rw [renamed_disposed,
      show (s.renamed ρ).board.lineup.bell = s.board.lineup.bell from rfl,
      renamed_settings]
    repeat' split
    all_goals rfl
  | waiting =>
    dsimp only [Dispatch.renamed]
    rw [renamed_disposed, show (s.renamed ρ).freeSlots = s.freeSlots from rfl]
    repeat' split
    all_goals rfl
  | granted => exact s.choose_renamed ρ
  | chosen id => exact s.launch_renamed ρ id
  | stopped => rfl

theorem begin_renamed (s : Scheduler) (now : Instant) : ((s.renamed ρ).begin now).2 = (s.begin now).2.renamed ρ := by
  unfold begin
  rw [show (s.renamed ρ).launched = s.launched.map ρ.job from rfl]
  cases s.launched with
  | nil => rfl
  | cons id rest =>
    simp only [List.map_cons, renamed_board, Board.job?_renamed]
    cases s.board.job? id with
    | none => rfl
    | some job =>
      have next : (s.board.renamed ρ).inFlight.next = s.board.inFlight.next := rfl
      simp only [Option.map_some, supply, renamed_settings, next, Board.begin_renamed]
      rcases s.board.begin (s.settings.supply ⟨s.board.inFlight.next⟩) now job with ⟨_ | _, board⟩ <;> rfl

theorem conclude_renamed (s : Scheduler) (now : Instant) (id : JobId) (task : TaskId) (ending : Ending) :
    (s.renamed ρ).conclude now (ρ.job id) task ending = (s.conclude now id task ending).renamed ρ := by
  have routed := congrArg Prod.fst ((s.board.settle now id task ending).route_renamed ρ s.policy now id ending)
  rw [← Board.settle_renamed] at routed
  exact congrArg (fun b => ({ s.renamed ρ with board := b, freeSlots := s.freeSlots + 1 } : Scheduler)) routed

/-- Whatever a scheduler does under other numbers, it would have done under the old ones. -/
theorem act_renamed (s : Scheduler) (now : Instant) (action : Action) :
    (s.renamed ρ).act now (action.renamed ρ) = (s.act now action).renamed ρ := by
  cases action with
  | schedule made id work request =>
    simp only [act, Action.renamed, schedule_renamed]
    cases (s.schedule made now id work request).toOption.bind (·.toOption) <;> rfl
  | cancel id =>
    simp only [act, Action.renamed]
    rw [renamed_board, Board.job?_renamed]
    cases s.board.job? id with
    | none => rfl
    | some job =>
      simp only [Option.map_some, Option.bind_some, cancel_renamed]
      cases s.cancel job <;> rfl
  | performNow id =>
    simp only [act, Action.renamed]
    rw [renamed_board, Board.job?_renamed]
    cases s.board.job? id with
    | none => rfl
    | some job =>
      simp only [Option.map_some, Option.bind_some, performNow_renamed]
      cases s.performNow job <;> rfl
  | dispose =>
    simp only [act, Action.renamed, dispose]
    rw [renamed_disposed]
    split <;> rfl
  | shutDown =>
    simp only [act, Action.renamed, shutDown, dispose]
    rw [show ((s.renamed ρ).write .shuttingDown).disposed = (s.write .shuttingDown).disposed from rfl]
    split <;> rfl
  | abandon => rfl
  | promotion => exact s.promotionStep_renamed ρ now
  | dispatch slotFirst => exact s.dispatchStep_renamed ρ now slotFirst
  | begin id =>
    have launched : ρ.job id ∈ (s.renamed ρ).launched ↔ id ∈ s.launched := List.mem_map_of_injective ρ.job_injective
    have first : (s.launched.map ρ.job).erase (ρ.job id) = (s.launched.erase id).map ρ.job :=
      (List.map_erase ρ.job_injective s.launched).symm
    simp only [act, Action.renamed, launched]
    split
    · rw [← begin_renamed]
      exact congrArg (fun l => (Scheduler.begin { s.renamed ρ with launched := ρ.job id :: l } now).2) first
    · rfl
  | conclude task ending =>
    simp only [act, Action.renamed]
    rw [show (s.renamed ρ).board.inFlight.tasks = s.board.inFlight.tasks.map fun t => (t.1, ρ.job t.2) from rfl,
      ρ.lookup_value]
    cases s.board.inFlight.tasks.lookup task with
    | none => rfl
    | some id => exact s.conclude_renamed ρ now id task ending

end Scheduler

end Rota
