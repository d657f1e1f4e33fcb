/-
One execution from its beginning to its end, on a board on which nothing else happens meanwhile. Whether an instance
is found, how the attempt ends, how often the job may be tried again, how long it is to wait and how it comes back
decide together where the job is left: abandoned, sent back for another attempt, waiting for its next occurrence, or
done with.
-/
import Rota.Proofs.Steps
import Rota.Stage.Bench

namespace Rota

/-! ## Executions -/

/-- What an execution meets with: where instances come from and how failed jobs are tried again, the clock as it
begins, as the end of the attempt is noted and as the job is sent on, and what the instance found does in its attempt. -/
structure Course where
  supply : Supply
  policy : RetryPolicy
  began : Instant
  ended : Instant
  routed : Instant
  attempt : TaskId → Instance → List Event × Ending

namespace Board

/-- Executes a job from beginning to end; a fault keeps it from being sent on. -/
def execute (board : Board) (course : Course) (job : Job) : Board × Option Fault :=
  match board.begin course.supply course.began job with
  | (.abandoned, board) => (board, none)
  | (.performing task performer, board) =>
    let (events, ending) := course.attempt task performer
    ((events.foldl write board).settle course.ended job.id task ending).route course.policy course.routed job.id ending

/-- How the attempt of an instance ends in an execution that is begun here. -/
def ending (board : Board) (course : Course) (performer : Instance) : Ending :=
  (course.attempt ⟨board.inFlight.next⟩ performer).2

end Board

/-- On a bench a job is executed in this way, by the script of whoever performs it. -/
theorem Bench.execute_eq (bench : Bench) (job : Job) {course : Course} (supply : course.supply = bench.supply)
    (policy : course.policy = bench.policy)
    (clock : course.began = bench.now ∧ course.ended = bench.now ∧ course.routed = bench.now)
    (plays : ∀ task performer, (bench.stage.play performer).2 =
      ((course.attempt task performer).1, some (course.attempt task performer).2)) :
    (bench.execute job).map (·.board) = match bench.board.execute course job with
      | (board, none) => .ok board
      | (_, some fault) => .error fault := by
  obtain ⟨began, ended, routed⟩ := clock
  unfold Bench.execute Board.execute
  rw [supply, began]
  cases bench.board.begin bench.supply bench.now job with
  | mk begun board =>
    cases begun with
    | abandoned => rfl
    | performing task performer =>
      have played := plays task performer
      dsimp only
      generalize bench.stage.play performer = play at played ⊢
      obtain ⟨stage, events, ending⟩ := play
      cases played
      dsimp only
      unfold Board.conclude
      rw [policy, ended, routed]
      cases (((course.attempt task performer).1.foldl Board.write board).settle bench.now job.id task
        (course.attempt task performer).2).route bench.policy bench.now job.id (course.attempt task performer).2 with
      | mk board fault => cases fault <;> rfl

/-! ## Where a job is left -/

/-- A board whose jobs are told apart by their numbers, whose timetable tells the same in its two tables, and whose
next execution has a number of its own. -/
structure Board.Tidy (board : Board) : Prop where
  distinct : (board.jobs.map (·.id)).Nodup
  timetable : board.timetable.WF
  below : ∀ e ∈ board.inFlight.tasks, e.1.number < board.inFlight.next

theorem Scheduler.Sound.tidy {s : Scheduler} (h : s.Sound) : s.board.Tidy := ⟨h.ledger.distinct, h.timetable, h.ledger.below⟩

/-- A job that is running, not done with, and held by no queue. -/
structure Board.Runs (board : Board) (job : Job) : Prop where
  known : board.job? job.id = some job
  running : job.state = .running
  live : job.finished = false
  unscheduled : job.id ∉ board.timetable.ids
  withdrawn : job.id ∉ board.lineup.ids

/-- A timetable with a new entry under a date, behind those of the same date. -/
def Timetable.joined (t : Timetable) (due : Instant) (id : JobId) : Timetable where
  bySlot := place ⟨due, t.sequence⟩ id t.bySlot
  slots := (id, ⟨due, t.sequence⟩) :: t.slots
  sequence := t.sequence + 1
  bell := true

/-- A lineup with one more at its end. -/
def Lineup.joined (lineup : Lineup) (id : JobId) (priority : Priority) : Lineup where
  waiters := lineup.waiters ++ [⟨id, priority⟩]
  bell := true

namespace Board

/-- What an execution leaves: the job itself, the two queues, the executions in flight and the other jobs as they were,
and a count that is one lower if the job is done with. -/
structure Leaves (board : Board) (job : Job) (timetable : Timetable) (lineup : Lineup) (board' : Board) : Prop where
  known : board'.job? job.id = some job
  jobs : board'.jobs = (board.put job).jobs
  timetable : board'.timetable = timetable
  lineup : board'.lineup = lineup
  tasks : board'.inFlight.tasks = board.inFlight.tasks
  outstanding : board'.outstanding = if job.finished then board.outstanding - 1 else board.outstanding

/-- What becomes of a job that has come to an outcome: it waits for its next occurrence, or it is done with. -/
structure Recurs (board : Board) (job : Job) (board' : Board) : Prop where
  again : ∀ due rest, job.cadence.next job.dueAt = .ok (some due, rest) →
    board.Leaves
      { job with state := .scheduled, dueAt := due, retryAt := none, retries := 0, cadence := rest }.release
      (board.timetable.joined due job.id) board.lineup board'
  spent : ∀ rest, job.cadence.next job.dueAt = .ok (none, rest) →
    board.Leaves { job with cadence := rest, finished := true } board.timetable board.lineup board'

/-- What an execution comes to, by the instance found, the end of its attempt, and whether the job may be tried again. -/
structure Routes (board : Board) (course : Course) (job : Job) (result : Board × Option Fault) : Prop where
  returns : result.2 = none
  abandoned : board.performer? course.supply job = none →
    board.Leaves
      { job with
        state := .failed
        failures := job.failures ++ [⟨job.retries + 1, .instantiation, job.kind.noMakerMessage, course.began⟩]
        finished := true }
      board.timetable board.lineup result.1
  done : ∀ performer, board.performer? course.supply job = some performer → board.ending course performer = .done →
    board.Recurs { job with bound := some performer, state := .success } result.1
  retriedAtOnce : ∀ performer kind message, board.performer? course.supply job = some performer →
    board.ending course performer = .failed kind message → job.limit.allows job.retries = true →
    course.policy.retryAt job course.routed = .ok none →
    board.Leaves
      ({ job with
        bound := some performer
        state := .enqueued
        failures := job.failures ++ [⟨job.retries + 1, kind, message, course.ended⟩]
        retries := job.retries + 1
        retryAt := none } : Job).release
      board.timetable (board.lineup.joined job.id job.priority) result.1
  retriedLater : ∀ performer kind message time, board.performer? course.supply job = some performer →
    board.ending course performer = .failed kind message → job.limit.allows job.retries = true →
    course.policy.retryAt job course.routed = .ok (some time) →
    board.Leaves
      ({ job with
        bound := some performer
        state := .scheduled
        failures := job.failures ++ [⟨job.retries + 1, kind, message, course.ended⟩]
        retries := job.retries + 1
        retryAt := some time } : Job).release
      (board.timetable.joined time job.id) board.lineup result.1
  exhausted : ∀ performer kind message, board.performer? course.supply job = some performer →
    board.ending course performer = .failed kind message → job.limit.allows job.retries = false →
    board.Recurs
      { job with
        bound := some performer
        state := .failed
        failures := job.failures ++ [⟨job.retries + 1, kind, message, course.ended⟩] }
      result.1

/-- Whether an execution asks a cron schedule for a time after the last second there is. -/
def Overruns (board : Board) (course : Course) (job : Job) : Prop :=
  (∃ performer, board.performer? course.supply job = some performer ∧
    ∀ kind message, board.ending course performer = .failed kind message → job.limit.allows job.retries = false) ∧
  (∃ schedule, job.cadence = .cron schedule) ∧ Instant.latest.nanos - Span.second.nanos < job.dueAt.nanos

variable {board mid board' : Board} {course : Course} {job : Job}

/-! ## From one part of an execution to the next -/

/-- A job that is put over another in its place is put where that was. -/
theorem put_over {job' : Job} (jobs : mid.jobs = (board.put job).jobs) (same : job'.id = job.id) :
    (mid.put job').jobs = (board.put job').jobs := by
  rw [← put_put board same]
  simp only [put, jobs]

theorem Leaves.of_jobs {t : Timetable} {l : Lineup} {id : JobId} {before : Job} (known : board.job? id = some before)
    (same : job.id = id) (jobs : board'.jobs = (board.put job).jobs) (timetable : board'.timetable = t)
    (lineup : board'.lineup = l) (tasks : board'.inFlight.tasks = board.inFlight.tasks)
    (outstanding : board'.outstanding = if job.finished then board.outstanding - 1 else board.outstanding) :
    board.Leaves job t l board' := by
  refine ⟨?_, jobs, timetable, lineup, tasks, outstanding⟩
  unfold job?
  rw [jobs, same]
  exact job?_put_self known job (same.trans (job?_id known).symm)

/-- To leave a job where it is and then to send it on is to send it on from where it was. -/
theorem Leaves.trans {job' : Job} {t : Timetable} {l : Lineup} (h : board.Leaves job board.timetable board.lineup mid)
    (live : job.finished = false) (same : job'.id = job.id) (h' : mid.Leaves job' t l board') :
    board.Leaves job' t l board' := by
  have outstanding : mid.outstanding = board.outstanding := by rw [h.outstanding, live]; rfl
  exact ⟨h'.known, h'.jobs.trans (put_over h.jobs same), h'.timetable, h'.lineup, h'.tasks.trans h.tasks,
    by rw [h'.outstanding, outstanding]⟩

theorem Recurs.trans (h : board.Leaves job board.timetable board.lineup mid) (live : job.finished = false)
    (h' : mid.Recurs job board') : board.Recurs job board' where
  again due rest found := by
    have next := h'.again due rest found
    rw [h.timetable, h.lineup] at next
    exact h.trans live (by simp) next
  spent rest found := by
    have last := h'.spent rest found
    rw [h.timetable, h.lineup] at last
    exact h.trans live (by rfl) last

theorem joined_of_insert (wf : board.timetable.WF) (scheduled : job.state = .scheduled)
    (absent : job.id ∉ board.timetable.ids) : board.timetable.insert job = board.timetable.joined job.nextDueAt job.id :=
  wf.insert_new scheduled absent

theorem joined_of_push (enqueued : job.state = .enqueued) : board.lineup.push job = board.lineup.joined job.id job.priority := by
  unfold Lineup.push
  rw [if_neg (by simp [enqueued])]
  rfl

/-! ## The two halves of an execution -/

/-- The job as its attempt leaves it. -/
def stopped (course : Course) (job : Job) : Ending → Job
  | .done => { job with state := .success }
  | .failed kind message => job.failedWith kind message course.ended

/-- With an instance found, an execution comes to send on the job as its attempt has left it, and nothing else of the
board has changed by then. -/
theorem execute_found (course : Course) (tidy : board.Tidy) (runs : board.Runs job) {performer : Instance}
    (found : board.performer? course.supply job = some performer) :
    ∃ mid, board.Leaves (stopped course (job.bind performer) (board.ending course performer)) board.timetable board.lineup mid ∧
      board.execute course job = mid.route course.policy course.routed job.id (board.ending course performer) := by
  obtain ⟨begun, hb, begins⟩ := begin_found tidy.distinct runs.known found course.began
  unfold execute ending
  cases played : course.attempt ⟨board.inFlight.next⟩ performer with | mk events ending
  simp only [hb, played, foldl_write]
  -- the attempt writes down what happens in it, and changes nothing else
  generalize hw : ({ begun with journal := _ } : Board) = performed
  have begins : performed.jobs = (board.put (job.bind performer)).jobs ∧ performed.timetable = board.timetable ∧
      performed.lineup = board.lineup ∧ performed.inFlight = (board.inFlight.register job.id).2 ∧
      performed.outstanding = board.outstanding := by
    rw [← hw]
    exact ⟨begins.jobs, begins.timetable, begins.lineup, begins.inFlight, begins.outstanding⟩
  obtain ⟨jobs, timetable, lineup, inFlight, outstanding⟩ := begins
  have known : performed.job? job.id = some (job.bind performer) := by
    unfold job?
    rw [jobs]
    exact job?_put_self runs.known _ rfl
  have tasks : (performed.inFlight.drop ⟨board.inFlight.next⟩).tasks = board.inFlight.tasks := by
    rw [inFlight, InFlight.drop_register tidy.below]
  refine ⟨_, ?_, rfl⟩
  rw [settle_eq known runs.running]
  cases ending with
  | done =>
    refine .of_jobs runs.known rfl (put_over jobs rfl) timetable lineup tasks ?_
    rw [stopped, Job.bind, runs.live]
    exact outstanding
  | failed kind message =>
    refine .of_jobs runs.known rfl (put_over jobs rfl) timetable lineup tasks ?_
    rw [stopped, Job.failedWith, Job.bind, runs.live]
    exact outstanding

/-- A job that has come to an outcome is sent to its next occurrence, or is done with. -/
theorem recurOrFinish_recurs (wf : board.timetable.WF) (absent : job.id ∉ board.timetable.ids)
    (known : board.job? job.id = some job) (state : job.state = .success ∨ job.state = .failed)
    (live : job.finished = false) (h : board.recurOrFinish job.id = .ok board') : board.Recurs job board' := by
  rw [recurOrFinish_eq known state] at h
  constructor
  case again =>
    intro due rest next
    rw [next] at h
    cases h
    have waits : (job.nextOn due rest).nextDueAt = due := by simp [Job.nextDueAt, Job.nextOn]
    have joined : board.timetable.insert (job.nextOn due rest) = board.timetable.joined due job.id := by
      rw [joined_of_insert wf (by simp [Job.nextOn]) (by simpa [Job.nextOn] using absent), waits]
      simp [Job.nextOn]
    exact .of_jobs known (by simp) rfl joined rfl rfl (by simp [live, put, write])
  case spent =>
    intro rest next
    rw [next] at h
    cases h
    have same : ({ job with cadence := rest } : Job).id = job.id := rfl
    have last : board.Leaves { job with cadence := rest, finished := true } board.timetable board.lineup
        ((board.put { job with cadence := rest }).finish job.id) := by
      rw [finish_put known same]
      exact .of_jobs known rfl rfl rfl rfl rfl (by simp [live])
    exact last

/-- A failed job that is sent back at once joins the lineup. -/
theorem sendBack_none (known : board.job? job.id = some job) (state : job.state = .failed) (live : job.finished = false) :
    board.Leaves (job.retriedAt none) board.timetable (board.lineup.joined job.id job.priority)
      (board.sendBack job.id none) := by
  have sent := sendBack_sent known state none false
  have joined : board.lineup.push (job.retriedAt none) = board.lineup.joined job.id job.priority := by
    rw [joined_of_push (by simp [Job.retriedAt])]
    simp [Job.retriedAt]
  refine .of_jobs known (by simp [Job.retriedAt]) sent.jobs sent.timetable (sent.lineup.trans joined) (congrArg _ sent.inFlight) ?_
  rw [sent.outstanding]
  simp [Job.retriedAt, live]

/-- A failed job that is to wait joins the timetable under its retry time. -/
theorem sendBack_some (wf : board.timetable.WF) (absent : job.id ∉ board.timetable.ids)
    (known : board.job? job.id = some job) (state : job.state = .failed) (live : job.finished = false) (time : Instant) :
    board.Leaves (job.retriedAt (some time)) (board.timetable.joined time job.id) board.lineup
      (board.sendBack job.id (some time)) := by
  have sent := sendBack_sent known state (some time) false
  have joined : board.timetable.insert (job.retriedAt (some time)) = board.timetable.joined time job.id := by
    rw [joined_of_insert wf (by simp [Job.retriedAt]) (by simpa [Job.retriedAt] using absent)]
    simp [Job.nextDueAt, Job.retriedAt]
  refine .of_jobs known (by simp [Job.retriedAt]) sent.jobs (sent.timetable.trans joined) sent.lineup (congrArg _ sent.inFlight) ?_
  rw [sent.outstanding]
  simp [Job.retriedAt, live]

/-! ## One way for each combination -/

section

variable {kind : FailureKind} {message : String} {performer : Instance}

theorem Routes.of_abandoned (unfound : board.performer? course.supply job = none)
    (leaves : board.Leaves (job.givenUp course.began) board.timetable board.lineup board') :
    board.Routes course job (board', none) where
  returns := rfl
  abandoned _ := leaves
  done _ found := by cases unfound.symm.trans found
  retriedAtOnce _ _ _ found := by cases unfound.symm.trans found
  retriedLater _ _ _ _ found := by cases unfound.symm.trans found
  exhausted _ _ _ found := by cases unfound.symm.trans found

theorem Routes.of_done (found : board.performer? course.supply job = some performer)
    (ended : board.ending course performer = .done)
    (recurs : board.Recurs (stopped course (job.bind performer) .done) board') : board.Routes course job (board', none) where
  returns := rfl
  abandoned unfound := by cases unfound.symm.trans found
  done _ found' _ := by cases found.symm.trans found'; exact recurs
  retriedAtOnce _ _ _ found' ended' := by cases found.symm.trans found'; cases ended.symm.trans ended'
  retriedLater _ _ _ _ found' ended' := by cases found.symm.trans found'; cases ended.symm.trans ended'
  exhausted _ _ _ found' ended' := by cases found.symm.trans found'; cases ended.symm.trans ended'

theorem Routes.of_retriedAtOnce (found : board.performer? course.supply job = some performer)
    (ended : board.ending course performer = .failed kind message) (allowed : job.limit.allows job.retries = true)
    (delayed : course.policy.retryAt job course.routed = .ok none)
    (leaves : board.Leaves ((stopped course (job.bind performer) (.failed kind message)).retriedAt none) board.timetable
      (board.lineup.joined job.id job.priority) board') : board.Routes course job (board', none) where
  returns := rfl
  abandoned unfound := by cases unfound.symm.trans found
  done _ found' ended' := by cases found.symm.trans found'; cases ended.symm.trans ended'
  retriedAtOnce _ _ _ found' ended' _ _ := by
    cases found.symm.trans found'
    cases ended.symm.trans ended'
    exact leaves
  retriedLater _ _ _ _ _ _ _ delayed' := by cases delayed.symm.trans delayed'
  exhausted _ _ _ _ _ spent := by cases allowed.symm.trans spent

theorem Routes.of_retriedLater {time : Instant} (found : board.performer? course.supply job = some performer)
    (ended : board.ending course performer = .failed kind message) (allowed : job.limit.allows job.retries = true)
    (delayed : course.policy.retryAt job course.routed = .ok (some time))
    (leaves : board.Leaves ((stopped course (job.bind performer) (.failed kind message)).retriedAt (some time))
      (board.timetable.joined time job.id) board.lineup board') : board.Routes course job (board', none) where
  returns := rfl
  abandoned unfound := by cases unfound.symm.trans found
  done _ found' ended' := by cases found.symm.trans found'; cases ended.symm.trans ended'
  retriedAtOnce _ _ _ _ _ _ delayed' := by cases delayed.symm.trans delayed'
  retriedLater _ _ _ _ found' ended' _ delayed' := by
    cases found.symm.trans found'
    cases ended.symm.trans ended'
    cases delayed.symm.trans delayed'
    exact leaves
  exhausted _ _ _ _ _ spent := by cases allowed.symm.trans spent

theorem Routes.of_exhausted (found : board.performer? course.supply job = some performer)
    (ended : board.ending course performer = .failed kind message) (spent : job.limit.allows job.retries = false)
    (recurs : board.Recurs (stopped course (job.bind performer) (.failed kind message)) board') :
    board.Routes course job (board', none) where
  returns := rfl
  abandoned unfound := by cases unfound.symm.trans found
  done _ found' ended' := by cases found.symm.trans found'; cases ended.symm.trans ended'
  retriedAtOnce _ _ _ _ _ allowed := by cases spent.symm.trans allowed
  retriedLater _ _ _ _ _ _ allowed := by cases spent.symm.trans allowed
  exhausted _ _ _ found' ended' _ := by
    cases found.symm.trans found'
    cases ended.symm.trans ended'
    exact recurs

end

/-- An execution for which no instance is found abandons its job. -/
theorem execute_unfound (course : Course) (tidy : board.Tidy) (runs : board.Runs job)
    (unfound : board.performer? course.supply job = none) : board.Routes course job (board.execute course job) := by
  obtain ⟨unbound, unsupplied⟩ := performer?_eq_none.1 unfound
  obtain ⟨board', begun, begins⟩ := begin_givesUp tidy.below runs.known runs.running course.supply course.began unbound unsupplied
  unfold execute
  rw [begun]
  refine .of_abandoned unfound (.of_jobs runs.known rfl begins.jobs begins.timetable begins.lineup ?_ ?_)
  · rw [begins.inFlight]
  · rw [begins.outstanding, runs.live]; rfl

/-- A job that has come to an outcome recurs or is done with, unless its cadence cannot be followed. -/
theorem recurOrFinish_total (wf : board.timetable.WF) (absent : job.id ∉ board.timetable.ids)
    (known : board.job? job.id = some job) (state : job.state = .success ∨ job.state = .failed)
    (live : job.finished = false) :
    (∃ board', board.recurOrFinish job.id = .ok board' ∧ board.Recurs job board' ∧
        ¬ ∃ fault, job.cadence.next job.dueAt = .error fault) ∨
      ∃ fault, board.recurOrFinish job.id = .error fault ∧ job.cadence.next job.dueAt = .error fault := by
  cases h : board.recurOrFinish job.id with
  | ok board' =>
    refine .inl ⟨board', rfl, recurOrFinish_recurs wf absent known state live h, fun ⟨fault, stuck⟩ => ?_⟩
    rw [recurOrFinish_eq known state, stuck] at h
    cases h
  | error fault =>
    refine .inr ⟨fault, rfl, ?_⟩
    rw [recurOrFinish_eq known state] at h
    cases next : job.cadence.next job.dueAt with
    | ok answer => rw [next] at h; cases h
    | error fault' => rw [next] at h; cases h; rfl

end Board

/-- What keeps a cadence from being followed: a cron schedule that is asked for a time after the last second. -/
theorem Cadence.next_fault (cadence : Cadence) (due : Instant) :
    (∃ fault, cadence.next due = .error fault) ↔
      (∃ schedule, cadence = .cron schedule) ∧ Instant.latest.nanos - Span.second.nanos < due.nanos := by
  cases cadence with
  | never => simp [next]
  | periodic interval => simp [next]
  | dates remaining => cases remaining <;> simp [next]
  | cron schedule =>
    rw [← schedule.next_fault due]
    simp only [next]
    cases schedule.next due <;> simp [Except.map]

namespace Board

variable {board mid board' : Board} {course : Course} {job : Job} {performer : Instance}

/-! ## The end of an execution -/

theorem route_done {id : JobId} (known : board.job? id = some job) (policy : RetryPolicy) (now : Instant) :
    board.route policy now id .done = match board.recurOrFinish id with
      | .ok board => (board, none)
      | .error fault => (board, some fault) := by
  cases sent : board.recurOrFinish id <;> simp only [route, known, sent]

theorem route_allowed {id : JobId} {kind : FailureKind} {message : String} {policy : RetryPolicy} {now : Instant}
    {retryAt : Option Instant} (known : board.job? id = some job) (allowed : job.limit.allows job.retries = true)
    (delayed : policy.retryAt job now = .ok retryAt) :
    board.route policy now id (.failed kind message) = ((board.write (.retrying id kind message)).sendBack id retryAt, none) := by
  unfold route
  rw [known]
  dsimp only
  rw [if_pos (show policy.permits job = true from allowed), delayed]

/-- Without a delay a failed job that may be tried again is not sent on. -/
theorem route_stuck {id : JobId} {kind : FailureKind} {message : String} {policy : RetryPolicy} {now : Instant}
    {fault : Fault} (known : board.job? id = some job) (allowed : job.limit.allows job.retries = true)
    (stuck : policy.retryAt job now = .error fault) :
    board.route policy now id (.failed kind message) = (board, some fault) := by
  unfold route
  rw [known]
  dsimp only
  rw [if_pos (show policy.permits job = true from allowed), stuck]

theorem route_spent {id : JobId} {kind : FailureKind} {message : String} (known : board.job? id = some job)
    (spent : job.limit.allows job.retries = false) (policy : RetryPolicy) (now : Instant) :
    board.route policy now id (.failed kind message) =
      match (board.write (.exhausted id kind message)).recurOrFinish id with
      | .ok board => (board, none)
      | .error fault => (board.write (.exhausted id kind message), some fault) := by
  have refused : policy.permits job = false := spent
  unfold route
  rw [known]
  dsimp only
  rw [refused]
  rfl

/-- Where the cadence is what sends a job on, the execution overruns if the cadence cannot be followed. -/
theorem overruns_iff (course : Course) (found : board.performer? course.supply job = some performer)
    (stands : ∀ kind message, board.ending course performer = .failed kind message → job.limit.allows job.retries = false) :
    board.Overruns course job ↔ ∃ fault, job.cadence.next job.dueAt = .error fault := by
  rw [Cadence.next_fault]
  exact ⟨fun beyond => beyond.2, fun late => ⟨⟨performer, found, stands⟩, late⟩⟩

/-- A job whose outcome stands is sent on by its cadence, if that can be followed. -/
theorem routes_of_stands (outcome : Job) (leaves : board.Leaves outcome board.timetable board.lineup mid)
    (wf : board.timetable.WF) (absent : outcome.id ∉ board.timetable.ids)
    (state : outcome.state = .success ∨ outcome.state = .failed) (live : outcome.finished = false)
    (beyond : board.Overruns course job ↔ ∃ fault, outcome.cadence.next outcome.dueAt = .error fault)
    (routes : ∀ board', board.Recurs outcome board' → board.Routes course job (board', none)) :
    board.Routes course job (match mid.recurOrFinish outcome.id with
        | .ok board => (board, none)
        | .error fault => (mid, some fault)) ↔ ¬ board.Overruns course job := by
  rw [beyond]
  rw [← leaves.timetable] at wf absent
  rcases recurOrFinish_total wf absent leaves.known state live with ⟨board', sent, recurs, followed⟩ | ⟨fault, stuck, late⟩
  · rw [sent]
    exact ⟨fun _ => followed, fun _ => routes board' (recurs.trans leaves live)⟩
  · rw [stuck]
    exact ⟨fun routes => (by cases routes.returns), fun followed => absurd ⟨fault, late⟩ followed⟩

/-- What is written down about a job leaves it where it is. -/
theorem Leaves.write (leaves : board.Leaves job board.timetable board.lineup mid) (event : Event) :
    board.Leaves job board.timetable board.lineup (mid.write event) :=
  ⟨leaves.known, leaves.jobs, leaves.timetable, leaves.lineup, leaves.tasks, leaves.outstanding⟩

/-- A failed job that is sent back to wait joins the timetable under its retry time. -/
theorem Leaves.sentBack (leaves : board.Leaves job board.timetable board.lineup mid) (wf : board.timetable.WF)
    (absent : job.id ∉ board.timetable.ids) (state : job.state = .failed) (live : job.finished = false) (time : Instant) :
    board.Leaves (job.retriedAt (some time)) (board.timetable.joined time job.id) board.lineup
      (mid.sendBack job.id (some time)) := by
  have same : (job.retriedAt (some time)).id = job.id := by simp [Job.retriedAt]
  have sent := sendBack_some (leaves.timetable ▸ wf) (leaves.timetable ▸ absent) leaves.known state live time
  rw [leaves.timetable, leaves.lineup] at sent
  exact leaves.trans live same sent

/-- A failed job that may be tried again is sent back. -/
theorem routes_of_allowed {kind : FailureKind} {message : String} (tidy : board.Tidy) (runs : board.Runs job)
    (returns : course.policy.Returns) (found : board.performer? course.supply job = some performer)
    (ended : board.ending course performer = .failed kind message) (allowed : job.limit.allows job.retries = true)
    (leaves : board.Leaves (stopped course (job.bind performer) (.failed kind message)) board.timetable board.lineup mid) :
    board.Routes course job (mid.route course.policy course.routed job.id (.failed kind message)) := by
  obtain ⟨retryAt, delayed⟩ := returns.retryAt job course.routed
  have known : mid.job? job.id = some (stopped course (job.bind performer) (.failed kind message)) := leaves.known
  rw [route_allowed known allowed delayed]
  have noted := leaves.write (.retrying job.id kind message)
  have live : (stopped course (job.bind performer) (.failed kind message)).finished = false := runs.live
  cases retryAt with
  | none =>
    have sent := noted.trans live (by simp [Job.retriedAt]) (sendBack_none noted.known rfl live)
    rw [noted.timetable, noted.lineup] at sent
    exact .of_retriedAtOnce found ended allowed delayed sent
  | some time => exact .of_retriedLater found ended allowed delayed (noted.sentBack tidy.timetable runs.unscheduled rfl live time)

/-- Where an execution leaves its job, for every instance found or not, every end of the attempt, every limit, every
delay and every cadence: in one way only, and the way it should, unless a cron schedule is asked for a time after the
last second there is. -/
theorem routes_iff (tidy : board.Tidy) (runs : board.Runs job) (returns : course.policy.Returns) :
    board.Routes course job (board.execute course job) ↔ ¬ board.Overruns course job := by
  cases found : board.performer? course.supply job with
  | none =>
    refine ⟨fun _ beyond => ?_, fun _ => execute_unfound course tidy runs found⟩
    obtain ⟨⟨performer, found', -⟩, -⟩ := beyond
    cases found.symm.trans found'
  | some performer =>
    obtain ⟨mid, leaves, executed⟩ := execute_found course tidy runs found
    rw [executed]
    cases ended : board.ending course performer with
    | done =>
      rw [ended] at leaves
      have beyond := overruns_iff course found fun _ _ failed => by cases ended.symm.trans failed
      rw [show mid.route _ _ job.id .done = _ from route_done leaves.known course.policy course.routed]
      exact routes_of_stands (stopped course (job.bind performer) .done) leaves tidy.timetable runs.unscheduled (.inl rfl)
        runs.live beyond fun _ => .of_done found ended
    | failed kind message =>
      rw [ended] at leaves
      cases allowed : job.limit.allows job.retries with
      | true =>
        refine ⟨?_, fun _ => routes_of_allowed tidy runs returns found ended allowed leaves⟩
        rintro - ⟨⟨performer', found', spent⟩, -⟩
        cases found.symm.trans found'
        cases allowed.symm.trans (spent kind message ended)
      | false =>
        have beyond := overruns_iff course found fun _ _ _ => allowed
        rw [show mid.route _ _ job.id (.failed kind message) = _ from
          route_spent leaves.known allowed course.policy course.routed]
        exact routes_of_stands (stopped course (job.bind performer) (.failed kind message)) (leaves.write _) tidy.timetable
          runs.unscheduled (.inr rfl) runs.live beyond fun _ => .of_exhausted found ended allowed

end Board

/-! ## Jobs of schedulers -/

/-- The cadence and the due time of a job are those that a job of some scheduler has come to have, in whatever state it
is and however often it has been tried. -/
def Job.Held (job : Job) : Prop :=
  ∃ s : Scheduler, s.Reached .fine ∧ ∃ held ∈ s.board.jobs, held.cadence = job.cadence ∧ held.dueAt = job.dueAt

/-- What a cron schedule gives is long before the end, so that no execution of a scheduler's job overruns. -/
theorem Job.Held.not_overruns {job : Job} (h : job.Held) (board : Board) (course : Course) :
    ¬ board.Overruns course job := by
  obtain ⟨s, reached, held, hm, cadence, dueAt⟩ := h
  have sound : s.Sound := reached.sound
  obtain ⟨next, followed⟩ := (sound.ledger.tame held.id held (find?_of_mem sound.ledger.distinct hm)).next_ok
  rw [cadence, dueAt] at followed
  rintro ⟨-, late⟩
  obtain ⟨fault, stuck⟩ := (job.cadence.next_fault job.dueAt).2 late
  cases stuck.symm.trans followed

/-- Every execution of a running job that a scheduler may hold ends in one of the ways there are, and leaves the job
where it should, for every instance found or not, every end of the attempt, every limit, every delay and every
cadence. -/
theorem Board.routes {board : Board} {course : Course} {job : Job} (tidy : board.Tidy) (runs : board.Runs job)
    (held : job.Held) (returns : course.policy.Returns) : board.Routes course job (board.execute course job) :=
  (routes_iff tidy runs returns).2 (held.not_overruns board course)

/-! ## A board with one job -/

/-- A plain job that is running. -/
def Job.atWork (limit : RetryLimit) (dueAt : Instant) (cadence : Cadence) : Job :=
  { Job.new ⟨1⟩ .plain none .medium limit dueAt cadence none with state := .running }

/-- The schedule of every second. -/
def Cron.eachSecond : Cron where
  seconds := List.range 60
  minutes := List.range 60
  hours := List.range 24
  daysOfMonth := List.range' 1 31
  months := List.range' 1 12
  daysOfWeek := List.range' 1 7
  years := List.range' 1970 131

/-- A board with a job that is running, and nothing else. -/
def Board.ofOne (job : Job) : Board := { Board.empty with jobs := [job], outstanding := 1 }

/-- An execution at the start of 1970, with failed jobs tried again after a second. -/
def Course.brief (ending : Ending) : Course :=
  ⟨⟨none⟩, ⟨some fun _ => .ok .second⟩, .epoch, .epoch, .epoch, fun _ _ => ([], ending)⟩

namespace Board

theorem ofOne_tidy (job : Job) : (ofOne job).Tidy :=
  ⟨List.nodup_singleton _, Timetable.empty_wf, List.forall_mem_nil _⟩

theorem ofOne_runs (limit : RetryLimit) (dueAt : Instant) (cadence : Cadence) :
    (ofOne (.atWork limit dueAt cadence)).Runs (.atWork limit dueAt cadence) :=
  ⟨by simp [ofOne, job?], rfl, rfl, List.not_mem_nil, List.not_mem_nil⟩

theorem brief_returns (ending : Ending) : (Course.brief ending).policy.Returns := by
  rintro _ ⟨⟩ retry
  exact ⟨.second, rfl⟩

/-- A caller gives a job that is due each second. -/
def secondly : List (Instant × Action) :=
  [(.epoch, .schedule .epoch ⟨1⟩ (.ofKind .plain) (.of (.cron .eachSecond .zero)))]

theorem held_secondly (limit : RetryLimit) : (Job.atWork limit .afterSecond (.cron .eachSecond)).Held := by
  have allowed : Scheduler.single.Allows .fine secondly := by
    refine ⟨⟨⟨by decide +kernel, fun cron delay h => ?_⟩, nofun⟩, trivial⟩
    cases h
    exact ⟨"* * * * * *", by decide +kernel⟩
  have terms : ((Scheduler.single.run secondly).board.job? ⟨1⟩).map (fun job => (job.cadence, job.dueAt)) =
      some (.cron .eachSecond, .afterSecond) := by decide +kernel
  obtain ⟨held, hj, he⟩ := Option.map_eq_some_iff.1 terms
  exact ⟨_, ⟨0, _, .single, secondly, Scheduler.start_single, allowed, rfl⟩, held, List.mem_of_find?_eq_some hj,
    congrArg Prod.fst he, congrArg Prod.snd he⟩

/-- A job that is due each second fails for good, and waits for the next second. -/
theorem routes_secondly :
    let job := Job.atWork (.limited 0) .afterSecond (.cron .eachSecond)
    let course := Course.brief (.failed .timeout "too slow")
    (ofOne job).Tidy ∧ (ofOne job).Runs job ∧ job.Held ∧ course.policy.Returns ∧
      (ofOne job).Routes course job ((ofOne job).execute course job) ∧
      ((ofOne job).execute course job).1.timetable.bySlot = [(⟨.afterTwo, 0⟩, ⟨1⟩)] := by
  intro job course
  have tidy := ofOne_tidy job
  have runs := ofOne_runs (.limited 0) .afterSecond (.cron .eachSecond)
  have returns := brief_returns (.failed .timeout "too slow")
  have held := held_secondly (.limited 0)
  exact ⟨tidy, runs, held, returns, routes tidy runs held returns, by decide +kernel⟩

end Board

end Rota
