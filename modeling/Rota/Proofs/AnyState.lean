/-
One execution of a job in any state at all, done with or not. What the state of the job does not permit is noted and
passed over, and what comes after it meets a state that nobody has planned for. Every call that an execution makes of the
operations of its job is listed in `Board.calls`; `Noted` follows the board from one of them to the next, and `Housed` says
where the last of them leaves the job.
-/
import Rota.Proofs.Calls
import Rota.Proofs.Routing

namespace Rota

/-! ## The calls that an execution makes -/

namespace Job

/-- A move, and the end of the job if it is refused. -/
def orFinish (job : Job) (move : Move) : List Call :=
  if job.state.canBecome move.target then [.move move] else [.move move, .finish]

/-- The calls that bring a job back on its cadence, or are done with it. -/
def onward (job : Job) : List Call :=
  .advance :: match job.cadence.next job.dueAt with
    | .ok (some due, _) => job.orFinish (.reschedule due)
    | .ok (none, _) => [.finish]
    | .error _ => []

/-- The call that binds an instance to a job which has none. -/
def fetch (job : Job) (performer : Instance) : List Call :=
  match job.bound with
  | some _ => []
  | none => [.bind performer]

end Job

/-- The move by which an execution takes note of how its attempt ended. -/
def Course.outcome (course : Course) : Ending → Job.Move
  | .done => .complete
  | .failed kind message => .fail kind message course.ended

namespace Board

/-- All calls that an execution makes of the operations of its job. -/
def calls (board : Board) (course : Course) (job : Job) : List Job.Call :=
  match board.performer? course.supply job with
  | none => [.move (.fail .instantiation job.kind.noMakerMessage course.began), .finish]
  | some performer =>
    let attempt := job.fetch performer ++ [.move (course.outcome (board.ending course performer))]
    let stopped := job.after attempt
    attempt ++ match board.ending course performer with
      | .done => stopped.onward
      | .failed .. =>
        if job.limit.allows job.retries then
          match course.policy.retryAt job course.routed with
          | .ok retryAt => stopped.orFinish (.retry retryAt)
          | .error _ => []
        else stopped.onward

/-- What calls of the operations of a job make of a board: the job as it is then, the executions in flight, and a count
that is one lower if the job has come to be done with. -/
structure Works (board : Board) (job : Job) (calls : List Job.Call) (flights : InFlight) (board' : Board) : Prop where
  jobs : board'.jobs = (board.put (job.after calls)).jobs
  inFlight : board'.inFlight = flights
  outstanding : board'.outstanding =
    if (job.after calls).finished = job.finished then board.outstanding else board.outstanding - 1

/-- Calls that leave the queues as they are. -/
structure Noted (board : Board) (job : Job) (calls : List Job.Call) (flights : InFlight) (board' : Board) : Prop
    extends board.Works job calls flights board' where
  timetable : board'.timetable = board.timetable
  lineup : board'.lineup = board.lineup

/-- Where a job may be left: done with, with the queues as they were; or waiting as the last in one of them. -/
inductive Housing (board : Board) (job : Job) (board' : Board) : Prop
  | finished (finished : job.finished = true) (timetable : board'.timetable = board.timetable)
    (lineup : board'.lineup = board.lineup)
  | scheduled (state : job.state = .scheduled) (timetable : board'.timetable = board.timetable.joined job.nextDueAt job.id)
    (lineup : board'.lineup = board.lineup)
  | enqueued (state : job.state = .enqueued) (timetable : board'.timetable = board.timetable)
    (lineup : board'.lineup = board.lineup.joined job.id job.priority)

/-- Calls that leave the job where it belongs. -/
structure Housed (board : Board) (job : Job) (calls : List Job.Call) (flights : InFlight) (board' : Board) : Prop
    extends board.Works job calls flights board' where
  housing : board.Housing (job.after calls) board'

end Board

namespace Job

variable {job : Job}

theorem after_fetch (job : Job) (performer : Instance) (same : ∀ bound, job.bound = some bound → bound = performer) :
    job.after (job.fetch performer) = job.bind performer := by
  unfold fetch
  cases bound : job.bound with
  | none => rfl
  | some other =>
    cases same other bound
    show job = { job with bound := some performer }
    rw [← bound]

theorem after_moved {calls : List Call} {move : Move} (permitted : (job.after calls).state.canBecome move.target = true) :
    job.after (calls ++ [.move move]) = move.made (job.after calls) := by
  rw [after_concat, call, Move.make_eq, if_pos permitted]

theorem after_refused {calls : List Call} {move : Move} (forbidden : (job.after calls).state.canBecome move.target = false) :
    job.after (calls ++ [.move move]) = job.after calls := by
  rw [after_concat, call, Move.make_eq, forbidden]
  rfl

/-- How often a job may be tried again and when it comes back are the same after its attempt. -/
theorem after_attempt (job : Job) (performer : Instance) (course : Course) (ending : Ending) :
    let stopped := job.after (job.fetch performer ++ [.move (course.outcome ending)])
    (stopped.limit = job.limit ∧ stopped.retries = job.retries) ∧
      stopped.cadence = job.cadence ∧ stopped.dueAt = job.dueAt := by
  have fetched : ∃ bound, job.after (job.fetch performer) = { job with bound := bound } := by
    unfold fetch
    cases job.bound <;> exact ⟨_, rfl⟩
  obtain ⟨bound, fetched⟩ := fetched
  cases permitted : (job.after (job.fetch performer)).state.canBecome (course.outcome ending).target with
  | true =>
    rw [after_moved permitted, fetched]
    cases ending <;> exact ⟨⟨rfl, rfl⟩, rfl, rfl⟩
  | false =>
    rw [after_refused permitted, fetched]
    exact ⟨⟨rfl, rfl⟩, rfl, rfl⟩

end Job

namespace Board

variable {board mid : Board} {job : Job} {calls : List Job.Call} {flights : InFlight}

/-! ## From one call to the next -/

theorem Works.known (h : board.Works job calls flights mid) (known : board.job? job.id = some job) :
    mid.job? job.id = some (job.after calls) := by
  unfold job?
  rw [h.jobs]
  exact job?_put_self known _ (Job.after_id job calls)

/-- As an execution begins, no call has been made. -/
theorem Noted.registered (tidy : board.Tidy) (known : board.job? job.id = some job) :
    board.Noted job [] (board.inFlight.register job.id).2 (board.register job.id).2 := by
  refine ⟨⟨?_, rfl, (if_pos rfl).symm⟩, rfl, rfl⟩
  rw [show job.after [] = job from rfl, put_self tidy.distinct known]
  rfl

/-- What is written down makes no difference. -/
theorem Noted.write (h : board.Noted job calls flights mid) (event : Event) :
    board.Noted job calls flights (mid.write event) :=
  ⟨⟨h.jobs, h.inFlight, h.outstanding⟩, h.timetable, h.lineup⟩

theorem Noted.writes (h : board.Noted job calls flights mid) (events : List Event) :
    board.Noted job calls flights (events.foldl Board.write mid) := by
  rw [foldl_write]
  exact ⟨⟨h.jobs, h.inFlight, h.outstanding⟩, h.timetable, h.lineup⟩

theorem Noted.drop (h : board.Noted job calls flights mid) (task : TaskId) :
    board.Noted job calls (flights.drop task) (mid.drop task) :=
  ⟨⟨h.jobs, congrArg (InFlight.drop · task) h.inFlight, h.outstanding⟩, h.timetable, h.lineup⟩

/-- To make a call, other than to be done with the job, is to put the job in its place as it is then. -/
theorem Noted.put (h : board.Noted job calls flights mid) {call : Job.Call} (unfinished : call ≠ .finish) :
    board.Noted job (calls ++ [call]) flights (mid.put (job.after (calls ++ [call]))) := by
  have finished : (job.after (calls ++ [call])).finished = (job.after calls).finished := by
    rw [Job.after_finished, Job.after_finished]
    simp [unfinished.symm]
  have same : (job.after (calls ++ [call])).id = (job.after calls).id := by
    rw [Job.after_id, Job.after_id]
  refine ⟨⟨put_over h.jobs same, h.inFlight, ?_⟩, h.timetable, h.lineup⟩
  rw [finished]
  exact h.outstanding

/-- A move that the state of the job permits is made. -/
theorem Noted.moved (h : board.Noted job calls flights mid) (known : board.job? job.id = some job) {move : Job.Move}
    (permitted : (job.after calls).state.canBecome move.target = true) :
    ∃ board', mid.move job.id (fun job => move.make job) = .ok board' ∧
      board.Noted job (calls ++ [.move move]) flights board' := by
  refine ⟨_, ?_, h.put (by rintro ⟨⟩)⟩
  rw [move_some (h.known known), Job.Move.make_eq, if_pos permitted, ← Job.after_moved permitted]
  rfl

/-- Any other is refused, and changes nothing. -/
theorem Noted.refused (h : board.Noted job calls flights mid) (known : board.job? job.id = some job) {move : Job.Move}
    (forbidden : (job.after calls).state.canBecome move.target = false) :
    ∃ refusal, mid.move job.id (fun job => move.make job) = .error refusal ∧
      board.Noted job (calls ++ [.move move]) flights mid := by
  refine ⟨.notPermitted move.operation (job.after calls).id (job.after calls).state, ?_, ?_⟩
  · rw [move_some (h.known known), Job.Move.make_eq, forbidden]
    rfl
  · obtain ⟨⟨jobs, inFlight, outstanding⟩, timetable, lineup⟩ := h
    rw [← Job.after_refused forbidden] at jobs outstanding
    exact ⟨⟨jobs, inFlight, outstanding⟩, timetable, lineup⟩

theorem Noted.moveOrNote (h : board.Noted job calls flights mid) (known : board.job? job.id = some job) (move : Job.Move)
    (note : Refusal → Event) :
    board.Noted job (calls ++ [.move move]) flights (mid.moveOrNote job.id (fun job => move.make job) note) := by
  unfold Board.moveOrNote
  cases permitted : (job.after calls).state.canBecome move.target with
  | true =>
    obtain ⟨board', moved, noted⟩ := h.moved known permitted
    rw [moved]
    exact noted
  | false =>
    obtain ⟨refusal, refused, noted⟩ := h.refused known permitted
    rw [refused]
    exact noted.write _

/-- A job counts no more from the first time on that it is done with. -/
theorem Noted.finish (h : board.Noted job calls flights mid) (known : board.job? job.id = some job) :
    board.Noted job (calls ++ [.finish]) flights (mid.finish job.id) := by
  have last : job.after (calls ++ [.finish]) = (job.after calls).finish := Job.after_concat job calls .finish
  unfold Board.finish
  rw [h.known known]
  dsimp only
  split
  next done =>
    obtain ⟨⟨jobs, inFlight, outstanding⟩, timetable, lineup⟩ := h
    rw [← Job.finish_of_finished done, ← last] at jobs outstanding
    exact ⟨⟨jobs, inFlight, outstanding⟩, timetable, lineup⟩
  next live =>
    -- a job that is not done with now was not done with before
    have before : (job.after calls).finished = job.finished := by
      have finished := Job.after_finished job calls
      cases fresh : job.finished <;> simp_all
    have outstanding : mid.outstanding = board.outstanding := h.outstanding.trans (if_pos before)
    have counted : (job.after calls).finish.finished ≠ job.finished := by
      rw [← before]
      exact fun same => live same.symm
    rw [← last] at counted ⊢
    have jobs : (mid.put (job.after (calls ++ [.finish]))).jobs = (board.put (job.after (calls ++ [.finish]))).jobs := by
      rw [last]
      exact put_over h.jobs rfl
    refine ⟨⟨jobs, h.inFlight, ?_⟩, h.timetable, h.lineup⟩
    rw [if_neg counted]
    exact congrArg (· - 1) outstanding

/-! ## To where the job belongs -/

theorem Noted.housed (h : board.Noted job calls flights mid) (finished : (job.after calls).finished = true) :
    board.Housed job calls flights mid :=
  ⟨h.toWorks, .finished finished h.timetable h.lineup⟩

theorem Noted.finished (h : board.Noted job calls flights mid) (known : board.job? job.id = some job) :
    board.Housed job (calls ++ [.finish]) flights (mid.finish job.id) :=
  (h.finish known).housed (by rw [Job.after_finished]; simp)

theorem Noted.insert (h : board.Noted job calls flights mid) (tidy : board.Tidy) (known : board.job? job.id = some job)
    (absent : job.id ∉ board.timetable.ids) (scheduled : (job.after calls).state = .scheduled) :
    board.Housed job calls flights (mid.insert job.id) := by
  have same := Job.after_id job calls
  have wf : mid.timetable.WF := h.timetable ▸ tidy.timetable
  have absent : (job.after calls).id ∉ mid.timetable.ids := by rwa [same, h.timetable]
  rw [insert_scheduled (h.known known) scheduled, joined_of_insert wf scheduled absent, h.timetable]
  exact ⟨⟨h.jobs, h.inFlight, h.outstanding⟩, .scheduled scheduled rfl h.lineup⟩

theorem Noted.push (h : board.Noted job calls flights mid) (known : board.job? job.id = some job)
    (enqueued : (job.after calls).state = .enqueued) : board.Housed job calls flights (mid.push job.id) := by
  rw [push_enqueued (h.known known) enqueued, joined_of_push enqueued, h.lineup]
  exact ⟨⟨h.jobs, h.inFlight, h.outstanding⟩, .enqueued enqueued h.timetable rfl⟩

/-- A move into a queue, where a job that it is refused to is done with. -/
theorem Noted.moveOrFinish (h : board.Noted job calls flights mid) (known : board.job? job.id = some job) (move : Job.Move)
    (queue : Board → Board) (note : Refusal → Event)
    (queued : ∀ board', board.Noted job (calls ++ [.move move]) flights board' →
      (job.after (calls ++ [.move move])).state = move.target →
        board.Housed job (calls ++ [.move move]) flights (queue board')) :
    board.Housed job (calls ++ (job.after calls).orFinish move) flights
      (match mid.move job.id (fun job => move.make job) with
        | .ok board => queue board
        | .error refusal => (mid.write (note refusal)).finish job.id) := by
  unfold Job.orFinish
  cases permitted : (job.after calls).state.canBecome move.target with
  | true =>
    obtain ⟨board', moved, noted⟩ := h.moved known permitted
    rw [moved]
    apply queued board' noted
    rw [Job.after_moved permitted, Job.Move.made_state]
  | false =>
    obtain ⟨refusal, refused, noted⟩ := h.refused known permitted
    rw [refused]
    have ended := (noted.write (note refusal)).finished known
    rwa [List.append_assoc] at ended

/-- A job that is sent back waits in a queue, or is done with if its state does not permit that. -/
theorem Noted.sentBack (h : board.Noted job calls flights mid) (tidy : board.Tidy) (known : board.job? job.id = some job)
    (absent : job.id ∉ board.timetable.ids) (retryAt : Option Instant) :
    board.Housed job (calls ++ (job.after calls).orFinish (.retry retryAt)) flights (mid.sendBack job.id retryAt) := by
  refine h.moveOrFinish known (.retry retryAt)
    (fun board => if retryAt.isSome then board.insert job.id else board.push job.id) (.retryRefused job.id)
    fun board' noted state => ?_
  cases retryAt with
  | none => exact noted.push known state
  | some time => exact noted.insert tidy known absent state

/-- A job whose outcome stands comes back on its cadence, or is done with if there is no next occurrence or its state does
not permit that. -/
theorem Noted.recurs (h : board.Noted job calls flights mid) (tidy : board.Tidy) (known : board.job? job.id = some job)
    (absent : job.id ∉ board.timetable.ids) {due : Option Instant} {rest : Cadence}
    (followed : (job.after calls).cadence.next (job.after calls).dueAt = .ok (due, rest)) :
    ∃ board', mid.recurOrFinish job.id = .ok board' ∧ board.Housed job (calls ++ (job.after calls).onward) flights board' := by
  have advanced : job.after (calls ++ [.advance]) = { job.after calls with cadence := rest } := by
    rw [Job.after_concat, Job.call, Job.advance, followed]
    rfl
  have noted : board.Noted job (calls ++ [.advance]) flights (mid.put { job.after calls with cadence := rest }) :=
    advanced ▸ h.put (by rintro ⟨⟩)
  unfold recurOrFinish Job.onward Job.advance
  rw [h.known known]
  dsimp only
  rw [followed]
  cases due with
  | none =>
    have ended := noted.finished known
    rw [List.append_assoc] at ended
    exact ⟨_, rfl, ended⟩
  | some due =>
    have housed := noted.moveOrFinish known (.reschedule due)
      (fun board => (board.write (.rescheduled job.id due)).insert job.id) (.rescheduleRefused job.id)
      fun board' noted state => (noted.write _).insert tidy known absent state
    rw [List.append_assoc, advanced] at housed
    exact ⟨_, rfl, housed⟩

/-! ## From beginning to end -/

/-- An execution that is given up leaves its job done with. -/
theorem execute_gaveUp (course : Course) (tidy : board.Tidy) (known : board.job? job.id = some job)
    (unfound : board.performer? course.supply job = none) :
    ∃ board', board.execute course job = (board', none) ∧
      board.Housed job (board.calls course job) { board.inFlight with next := board.inFlight.next + 1 } board' := by
  obtain ⟨unbound, unsupplied⟩ := performer?_eq_none.1 unfound
  have failed := ((Noted.registered tidy known).write (.abandoned job.id job.kind)).moveOrNote known
    (.fail .instantiation job.kind.noMakerMessage course.began) (.failRefused job.id)
  have ended := (failed.drop ⟨board.inFlight.next⟩).finished known
  rw [InFlight.drop_register tidy.below] at ended
  unfold execute begin calls
  rw [unbound, unsupplied, unfound]
  exact ⟨_, rfl, ended⟩

/-- With an instance found, an execution takes note of how its attempt ended, and comes to send the job on. -/
theorem execute_stopped (course : Course) (tidy : board.Tidy) (known : board.job? job.id = some job) {performer : Instance}
    (found : board.performer? course.supply job = some performer) :
    ∃ mid, board.Noted job (job.fetch performer ++ [.move (course.outcome (board.ending course performer))])
        { board.inFlight with next := board.inFlight.next + 1 } mid ∧
      board.execute course job = mid.route course.policy course.routed job.id (board.ending course performer) := by
  obtain ⟨begun, hb, begins⟩ := begin_found tidy.distinct known found course.began
  have fetched : job.after (job.fetch performer) = job.bind performer := by
    apply Job.after_fetch
    intro bound same
    unfold performer? at found
    rw [same] at found
    exact Option.some.inj found
  have noted : board.Noted job (job.fetch performer) (board.inFlight.register job.id).2 begun := by
    refine ⟨⟨?_, begins.inFlight, ?_⟩, begins.timetable, begins.lineup⟩
    · rw [fetched, begins.jobs]
    · rw [fetched, begins.outstanding]
      exact (if_pos rfl).symm
  unfold execute ending
  cases played : course.attempt ⟨board.inFlight.next⟩ performer with | mk events ending
  simp only [hb, played]
  refine ⟨_, ?_, rfl⟩
  have noted := noted.writes events
  rw [← InFlight.drop_register tidy.below job.id]
  cases ending with
  | done => exact ((noted.write _).moveOrNote known .complete _).drop _
  | failed kind message => exact (noted.moveOrNote known (.fail kind message course.ended) _).drop _

/-- How the job of an execution is sent on where its outcome stands. -/
theorem Noted.stands (h : board.Noted job calls flights mid) (tidy : board.Tidy) (known : board.job? job.id = some job)
    (absent : job.id ∉ board.timetable.ids) {course : Course} {performer : Instance}
    (found : board.performer? course.supply job = some performer)
    (stands : ∀ kind message, board.ending course performer = .failed kind message → job.limit.allows job.retries = false)
    (same : (job.after calls).cadence = job.cadence ∧ (job.after calls).dueAt = job.dueAt) :
    let result := match mid.recurOrFinish job.id with
      | .ok board => (board, none)
      | .error fault => (mid, some fault)
    (result.2 = none ↔ ¬ board.Overruns course job) ∧
      (result.2 = none → board.Housed job (calls ++ (job.after calls).onward) flights result.1) := by
  rw [overruns_iff course found stands, ← same.1, ← same.2]
  cases followed : (job.after calls).cadence.next (job.after calls).dueAt with
  | ok answer =>
    obtain ⟨board', sent, housed⟩ := h.recurs tidy known absent followed
    rw [sent]
    simp [housed]
  | error fault =>
    have stuck : mid.recurOrFinish job.id = .error fault := by
      unfold recurOrFinish Job.advance
      rw [h.known known]
      dsimp only
      rw [followed]
      rfl
    rw [stuck]
    simp

/-- An execution of a job in any state comes to its end unless it asks a cron schedule for a time after the last second
there is, and then leaves the job where it belongs. -/
theorem execute_housed (course : Course) (tidy : board.Tidy) (known : board.job? job.id = some job)
    (absent : job.id ∉ board.timetable.ids) (returns : course.policy.Returns) :
    ((board.execute course job).2 = none ↔ ¬ board.Overruns course job) ∧
      ((board.execute course job).2 = none →
        board.Housed job (board.calls course job) { board.inFlight with next := board.inFlight.next + 1 }
          (board.execute course job).1) := by
  cases found : board.performer? course.supply job with
  | none =>
    obtain ⟨board', executed, housed⟩ := execute_gaveUp course tidy known found
    rw [executed]
    refine ⟨⟨?_, fun _ => rfl⟩, fun _ => housed⟩
    rintro - ⟨⟨performer, found', -⟩, -⟩
    cases found.symm.trans found'
  | some performer =>
    obtain ⟨mid, noted, executed⟩ := execute_stopped course tidy known found
    obtain ⟨⟨limit, retries⟩, same⟩ := Job.after_attempt job performer course (board.ending course performer)
    have known' := noted.known known
    -- by its `limit`, `retries` and `same` cadence, the job as it is sent on is judged like the one that was begun with
    rw [executed]
    unfold calls
    rw [found]
    dsimp only
    cases ended : board.ending course performer with
    | done =>
      rw [ended] at noted known' same
      rw [route_done known']
      exact noted.stands tidy known absent found (fun _ _ failed => by cases ended.symm.trans failed) same
    | failed kind message =>
      rw [ended] at noted known' same limit retries
      cases allowed : job.limit.allows job.retries with
      | true =>
        obtain ⟨retryAt, delayed⟩ := returns.retryAt job course.routed
        have delayed' := delayed
        unfold RetryPolicy.retryAt at delayed'
        rw [← retries] at delayed'
        rw [route_allowed known' (by rw [limit, retries, allowed]) delayed', if_pos rfl, delayed]
        refine ⟨⟨?_, fun _ => rfl⟩, fun _ => (noted.write _).sentBack tidy known absent retryAt⟩
        rintro - ⟨⟨performer', found', spent⟩, -⟩
        cases found.symm.trans found'
        cases allowed.symm.trans (spent kind message ended)
      | false =>
        rw [route_spent known' (by rw [limit, retries, allowed])]
        exact (noted.write _).stands tidy known absent found (fun _ _ _ => allowed) same

end Board

/-! ## In the slot of a scheduler -/

namespace Scheduler

/-- What an execution meets with in a scheduler, besides the clock and what instances do. -/
def course (s : Scheduler) (began ended : Instant) (attempt : TaskId → Instance → List Event × Ending) : Course :=
  ⟨s.supply, s.policy, began, ended, ended, attempt⟩

/-- Executes the job launched first from beginning to end, with nothing else happening meanwhile. -/
def execute (s : Scheduler) (began ended : Instant) (attempt : TaskId → Instance → List Event × Ending) : Scheduler :=
  match s.begin began with
  | (none, s) => s
  | (some (task, id, performer), s) =>
    let (events, ending) := attempt task performer
    { s with board := events.foldl Board.write s.board }.conclude ended id task ending

/-- What is to be said of an execution in a slot, whatever state its job is in: it comes to its end, it gives back its slot
once and is no longer in flight, its job is as the calls made of its operations leave it, with nothing refused that had
an effect and no state entered that may not be, it counts no more if it has come to be done with, and it is done with or
waits in a queue. -/
structure Endures (s : Scheduler) (course : Course) (job : Job) (s' : Scheduler) : Prop where
  returns : (s.board.execute course job).2 = none
  slot : s' = { s with board := s'.board, launched := s.launched.tail, freeSlots := s.freeSlots + 1 }
  tasks : s'.board.inFlight.tasks = s.board.inFlight.tasks
  known : s'.board.job? job.id = some (job.after (s.board.calls course job))
  jobs : s'.board.jobs = (s.board.put (job.after (s.board.calls course job))).jobs
  outstanding : s'.board.outstanding =
    if (job.after (s.board.calls course job)).finished = job.finished then s.board.outstanding
    else s.board.outstanding - 1
  housing : s.board.Housing (job.after (s.board.calls course job)) s'.board
  lawful : job.Lawful (s.board.calls course job)

variable {s : Scheduler} {job : Job} {rest : List JobId} {began ended : Instant}
  {attempt : TaskId → Instance → List Event × Ending}

/-- An execution in a slot is one on its board, and gives the slot back. -/
theorem execute_eq (known : s.board.job? job.id = some job) (launched : s.launched = job.id :: rest) :
    s.execute began ended attempt =
      { s with
        board := (s.board.execute (s.course began ended attempt) job).1
        launched := rest
        freeSlots := s.freeSlots + 1 } := by
  unfold execute begin Board.execute course
  rw [launched]
  dsimp only
  rw [known]
  dsimp only
  rw [show supply { s with launched := rest } = s.supply from rfl]
  cases s.board.begin s.supply began job with
  | mk begun board => cases begun <;> rfl

/-- An execution in a slot of a scheduler, of a job in any state, done with or not, that no timetable holds, for every
instance found or not, every end of the attempt, every cadence, every limit and every delay: its job is not stranded,
unless a cron schedule is asked for a time after the last second there is. -/
theorem endures_iff (tidy : s.board.Tidy) (known : s.board.job? job.id = some job) (absent : job.id ∉ s.board.timetable.ids)
    (launched : s.launched = job.id :: rest) (returns : s.policy.Returns) (began ended : Instant)
    (attempt : TaskId → Instance → List Event × Ending) :
    s.Endures (s.course began ended attempt) job (s.execute began ended attempt) ↔
      ¬ s.board.Overruns (s.course began ended attempt) job := by
  obtain ⟨returned, housed⟩ := Board.execute_housed (s.course began ended attempt) tidy known absent returns
  constructor
  · intro endures
    exact returned.1 endures.returns
  · intro followed
    have ended := returned.2 followed
    have housed := housed ended
    rw [execute_eq known launched]
    constructor
    case returns => exact ended
    case slot => rw [launched]; rfl
    case tasks => rw [housed.inFlight]
    case known => exact housed.known known
    case jobs => exact housed.jobs
    case outstanding => exact housed.outstanding
    case housing => exact housed.housing
    case lawful => exact Job.lawful job _

/-- No job that a scheduler may hold is stranded by an execution in a slot, in whatever state it is, done with or not,
as long as no timetable holds it: for every instance found or not, every end of the attempt, every cadence, every limit
and every delay the execution comes to its end and leaves the job done with or in a queue. -/
theorem endures (tidy : s.board.Tidy) (known : s.board.job? job.id = some job) (absent : job.id ∉ s.board.timetable.ids)
    (held : job.Held) (launched : s.launched = job.id :: rest) (returns : s.policy.Returns) (began ended : Instant)
    (attempt : TaskId → Instance → List Event × Ending) :
    s.Endures (s.course began ended attempt) job (s.execute began ended attempt) :=
  (endures_iff tidy known absent launched returns began ended attempt).2 (held.not_overruns s.board _)

/-- A scheduler with one job, which has its only slot in whatever state it is. -/
def misplaced (job : Job) : Scheduler :=
  { single with board := .ofOne job, freeSlots := 0, launched := [job.id] }

/-- A job that is due each second and has not even started fails, which it does not remember, and is sent back for
another attempt. -/
theorem endures_notStarted :
    let job := Job.new ⟨1⟩ .plain none .medium (.limited 1) .afterSecond (.cron .eachSecond) none
    let s := misplaced job
    let attempt := fun (_ : TaskId) (_ : Instance) => (([], .failed .timeout "too slow") : List Event × Ending)
    let s' := s.execute .epoch .epoch attempt
    s.board.Tidy ∧ s.board.job? job.id = some job ∧ job.id ∉ s.board.timetable.ids ∧ job.Held ∧ s.launched = [job.id] ∧
      s.policy.Returns ∧ s.Endures (s.course .epoch .epoch attempt) job s' ∧
      (s'.board.job? ⟨1⟩).map (fun job => (job.state, job.retries, job.failures)) = some (.enqueued, 1, []) ∧
      s'.board.lineup.ids = [⟨1⟩] ∧ s'.freeSlots = 1 := by
  intro job s attempt s'
  have tidy : s.board.Tidy := Board.ofOne_tidy job
  have known : s.board.job? job.id = some job := rfl
  have absent : job.id ∉ s.board.timetable.ids := List.not_mem_nil
  have held : job.Held := Board.held_secondly (.limited 1)
  have returns : s.policy.Returns := by
    rintro strategy ⟨⟩
  have endures : s.Endures (s.course .epoch .epoch attempt) job s' :=
    endures tidy known absent held rfl returns .epoch .epoch attempt
  exact ⟨tidy, known, absent, held, rfl, returns, endures, by decide +kernel, by decide +kernel, rfl⟩

end Scheduler

end Rota
