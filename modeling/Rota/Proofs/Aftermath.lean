/-
What the end of an attempt leaves behind. It matters for where the job goes whether the attempt was done or failed, and
not how it failed: whatever the failure, the job and all that holds it are left in the same way, and only what the job
remembers differs.
-/
import Rota.Proofs.Performances

namespace Rota

/-- The job with other failures to remember. -/
def Job.remembering (job : Job) (failures : List Failure) : Job := { job with failures := failures }

theorem Job.retriedAt_remembering (job : Job) (failures : List Failure) (retryAt : Option Instant) :
    (job.remembering failures).retriedAt retryAt = (job.retriedAt retryAt).remembering failures := by
  simp [retriedAt, remembering, release_eq]

theorem Job.nextOn_remembering (job : Job) (failures : List Failure) (due : Instant) (rest : Cadence) :
    (job.remembering failures).nextOn due rest = (job.nextOn due rest).remembering failures := by
  simp [nextOn, remembering, release_eq]

/-- What the end of an attempt leaves, but for what the job remembers of it. -/
structure Aftermath where
  job : Job
  timetable : Timetable
  lineup : Lineup
  inFlight : InFlight
  outstanding : UInt64
  fault : Option Fault

namespace Aftermath

/-- A job whose outcome stands comes back when its cadence says so, or is done with. -/
def recurred (aftermath : Aftermath) : Aftermath :=
  match aftermath.job.cadence.next aftermath.job.dueAt with
  | .error fault => { aftermath with fault := some fault }
  | .ok (none, rest) =>
    { aftermath with
      job := { aftermath.job with cadence := rest, finished := true }
      outstanding := if aftermath.job.finished then aftermath.outstanding else aftermath.outstanding - 1 }
  | .ok (some due, rest) =>
    { aftermath with
      job := aftermath.job.nextOn due rest
      timetable := aftermath.timetable.insert (aftermath.job.nextOn due rest) }

/-- A failed job is sent back to wait for the time of its next attempt, or for a slot at once. -/
def sentBack (aftermath : Aftermath) (retryAt : Option Instant) : Aftermath :=
  let next := aftermath.job.retriedAt retryAt
  { aftermath with
    job := next
    timetable := if retryAt.isSome then aftermath.timetable.insert next else aftermath.timetable
    lineup := if retryAt.isSome then aftermath.lineup else aftermath.lineup.push next }

/-- A failed job is sent back if it may be tried again; else its outcome stands. -/
def sentOn (aftermath : Aftermath) (policy : RetryPolicy) (routed : Instant) : Aftermath :=
  if aftermath.job.limit.allows aftermath.job.retries then
    match policy.retryAt aftermath.job routed with
    | .ok retryAt => aftermath.sentBack retryAt
    | .error fault => { aftermath with fault := some fault }
  else aftermath.recurred

end Aftermath

/-- A board is left so, with the job remembering some failures and all other jobs as they were. -/
structure Aftermath.Left (aftermath : Aftermath) (board : Board) (id : JobId) (failures : List Failure)
    (result : Board × Option Fault) : Prop where
  known : result.1.job? id = some (aftermath.job.remembering failures)
  jobs : result.1.jobs = (board.put (aftermath.job.remembering failures)).jobs
  timetable : result.1.timetable = aftermath.timetable
  lineup : result.1.lineup = aftermath.lineup
  inFlight : result.1.inFlight = aftermath.inFlight
  outstanding : result.1.outstanding = aftermath.outstanding
  fault : result.2 = aftermath.fault

variable {board settled : Board} {id : JobId} {job outcome : Job} {aftermath : Aftermath} {failures : List Failure}

/-- Nothing that is written down makes a difference. -/
theorem Aftermath.Left.write (left : aftermath.Left board id failures (settled, none)) (event : Event) :
    aftermath.Left board id failures (settled.write event, none) :=
  ⟨left.known, left.jobs, left.timetable, left.lineup, left.inFlight, left.outstanding, left.fault⟩

/-- The job is put in its place once more, with the same to remember. -/
theorem Aftermath.Left.put {next : Job} (left : aftermath.Left board id failures (settled, none))
    (same : next.id = aftermath.job.id) :
    { aftermath with job := next }.Left board id failures (settled.put (next.remembering failures), none) :=
  have same : (next.remembering failures).id = (aftermath.job.remembering failures).id := same
  ⟨Board.job?_put_self left.known _ same, Board.put_over left.jobs same, left.timetable, left.lineup, left.inFlight,
    left.outstanding, left.fault⟩

namespace Board

/-! ## The first half of the end -/

/-- The job has come to an outcome, and is not sent on yet. -/
def stopping (board : Board) (outcome : Job) (task : TaskId) : Aftermath :=
  ⟨outcome, board.timetable, board.lineup, board.inFlight.drop task, board.outstanding, none⟩

theorem settle_done_left (known : board.job? id = some job) (running : job.state = .running) (ended : Instant)
    (task : TaskId) :
    (board.stopping { job with state := .success } task).Left board id job.failures
      (board.settle ended id task .done, none) := by
  rw [settle_eq known running]
  exact ⟨job?_put_self known _ rfl, rfl, rfl, rfl, rfl, rfl, rfl⟩

theorem settle_failed_left (known : board.job? id = some job) (running : job.state = .running) (ended : Instant)
    (task : TaskId) (kind : FailureKind) (message : String) :
    (board.stopping { job with state := .failed } task).Left board id
      (job.failures ++ [⟨job.retries + 1, kind, message, ended⟩])
      (board.settle ended id task (.failed kind message), none) := by
  rw [settle_eq known running]
  exact ⟨job?_put_self known _ rfl, rfl, rfl, rfl, rfl, rfl, rfl⟩

/-! ## The second half -/

theorem recurOrFinish_remembering (known : settled.job? id = some (outcome.remembering failures))
    (state : outcome.state = .success ∨ outcome.state = .failed) :
    settled.recurOrFinish id = (outcome.cadence.next outcome.dueAt).map fun
      | (none, rest) => (settled.put ({ outcome with cadence := rest }.remembering failures)).finish id
      | (some due, rest) =>
        { (settled.put ((outcome.nextOn due rest).remembering failures)).write (.rescheduled id due) with
          timetable := settled.timetable.insert (outcome.nextOn due rest) } := by
  rw [recurOrFinish_eq known state]
  simp only [Job.nextOn_remembering]
  rfl

/-- A job whose outcome stands comes back or is done with in one way, whatever it remembers. -/
theorem recurOrFinish_left (left : aftermath.Left board id failures (settled, none))
    (state : aftermath.job.state = .success ∨ aftermath.job.state = .failed) :
    aftermath.recurred.Left board id failures (match settled.recurOrFinish id with
      | .ok board => (board, none)
      | .error fault => (settled, some fault)) := by
  rw [recurOrFinish_remembering left.known state]
  unfold Aftermath.recurred
  cases aftermath.job.cadence.next aftermath.job.dueAt with
  | error fault => exact ⟨left.known, left.jobs, left.timetable, left.lineup, left.inFlight, left.outstanding, rfl⟩
  | ok answer =>
    obtain ⟨_ | due, rest⟩ := answer
    · let last : Job := { aftermath.job with cadence := rest, finished := true }
      have final := left.put (show last.id = aftermath.job.id from rfl)
      simp only [Except.map]
      rw [finish_put left.known (by rfl)]
      refine ⟨final.known, final.jobs, final.timetable, final.lineup, final.inFlight, ?_, final.fault⟩
      rw [← left.outstanding]
      rfl
    · let next := aftermath.job.nextOn due rest
      have waits := left.put (show next.id = aftermath.job.id by simp [next, Job.nextOn])
      simp only [Except.map]
      refine ⟨waits.known, waits.jobs, ?_, waits.lineup, waits.inFlight, waits.outstanding, waits.fault⟩
      rw [← left.timetable]

/-- A failed job is sent back in one way, whatever it remembers. -/
theorem sendBack_left (left : aftermath.Left board id failures (settled, none)) (state : aftermath.job.state = .failed)
    (retryAt : Option Instant) : (aftermath.sentBack retryAt).Left board id failures (settled.sendBack id retryAt, none) := by
  let next := aftermath.job.retriedAt retryAt
  have waits := left.put (show next.id = aftermath.job.id by simp [next, Job.retriedAt])
  have sent := sendBack_sent left.known state retryAt false
  rw [Job.retriedAt_remembering] at sent
  have jobs : (settled.sendBack id retryAt).jobs = (settled.put (next.remembering failures)).jobs := sent.jobs
  refine ⟨?_, jobs.trans waits.jobs, ?_, ?_, ?_, ?_, left.fault⟩
  · unfold job?
    rw [jobs]
    exact waits.known
  · cases retryAt with
    | none => exact sent.timetable.trans left.timetable
    | some time => exact sent.timetable.trans (congrArg (fun timetable => timetable.insert next) left.timetable)
  · cases retryAt with
    | none => exact sent.lineup.trans (congrArg (fun lineup => lineup.push next) left.lineup)
    | some time => exact sent.lineup.trans left.lineup
  · exact sent.inFlight.trans left.inFlight
  · refine sent.outstanding.trans (Eq.trans ?_ left.outstanding)
    cases retryAt <;> simp

/-- A failed job is sent on in one way, whatever it remembers and whatever is said of its failure. -/
theorem route_failed_left (left : aftermath.Left board id failures (settled, none)) (state : aftermath.job.state = .failed)
    (policy : RetryPolicy) (routed : Instant) (kind : FailureKind) (message : String) :
    (aftermath.sentOn policy routed).Left board id failures (settled.route policy routed id (.failed kind message)) := by
  unfold Aftermath.sentOn
  cases allowed : aftermath.job.limit.allows aftermath.job.retries with
  | true =>
    rw [if_pos rfl]
    cases delayed : policy.retryAt aftermath.job routed with
    | ok retryAt =>
      rw [route_allowed left.known allowed delayed]
      exact sendBack_left (left.write _) state retryAt
    | error fault =>
      rw [route_stuck left.known allowed delayed]
      exact ⟨left.known, left.jobs, left.timetable, left.lineup, left.inFlight, left.outstanding, rfl⟩
  | false =>
    rw [if_neg (by decide), route_spent left.known allowed]
    exact recurOrFinish_left (left.write _) (.inr state)

/-! ## Both halves -/

/-- What the end of an attempt that was done leaves of a job. -/
def afterSuccess (board : Board) (job : Job) (task : TaskId) : Aftermath :=
  (board.stopping { job with state := .success } task).recurred

/-- What the end of an attempt that failed leaves of a job, whatever the failure. -/
def afterFailure (board : Board) (policy : RetryPolicy) (routed : Instant) (job : Job) (task : TaskId) : Aftermath :=
  (board.stopping { job with state := .failed } task).sentOn policy routed

/-- What becomes of the board when the attempt at a job has ended, with the clock as the end is noted and as the job is
sent on; nothing if it never ends. -/
def afterAttempt (board : Board) (policy : RetryPolicy) (ended routed : Instant) (id : JobId) (task : TaskId)
    (attempt : Attempt) : Option (Board × Option Fault) :=
  attempt.result.map fun (_, ending) => (board.settle ended id task ending).route policy routed id ending

theorem afterAttempt_eq {attempt : Attempt} {time : Nat} {ending : Ending} (ends : attempt.EndsAt time ending)
    (policy : RetryPolicy) (ended routed : Instant) (task : TaskId) :
    board.afterAttempt policy ended routed id task attempt =
      some ((board.settle ended id task ending).route policy routed id ending) := by
  rw [afterAttempt, (attempt.endsAt_iff_result time ending).1 ends]
  rfl

/-- Attempts are fair, on stage as well, and what they end with is what is noted of them: a job that was done has
succeeded, and one that failed remembers a failure more, with its kind and its message. In all else the board is left in
one way by every attempt that was done, and in one way by every attempt that failed. -/
theorem attempts_remembered (known : board.job? id = some job) (running : job.state = .running) (policy : RetryPolicy)
    (ended routed : Instant) (task : TaskId) :
    (∀ attempt : Attempt, attempt.Fair) ∧
      (∀ (p : Performance) start stage, p.waiting = .curtain → ∀ ending,
        (∃ n, (p.after start stage n).2.1 = .ended ending) ↔ ∃ time, (p.attemptOn stage).EndsAt time ending) ∧
      ∀ (attempt : Attempt) time,
        (attempt.EndsAt time .done →
          (board.settle ended id task .done).job? id = some { job with state := .success } ∧
            ∃ result, board.afterAttempt policy ended routed id task attempt = some result ∧
              (board.afterSuccess job task).Left board id job.failures result) ∧
        ∀ kind message, attempt.EndsAt time (.failed kind message) →
          (board.settle ended id task (.failed kind message)).job? id = some (job.failedWith kind message ended) ∧
            ∃ result, board.afterAttempt policy ended routed id task attempt = some result ∧
              (board.afterFailure policy routed job task).Left board id
                (job.failures ++ [⟨job.retries + 1, kind, message, ended⟩]) result := by
  refine ⟨Attempt.fair, fun p start stage curtain => p.ends_iff start stage curtain, fun attempt time => ?_⟩
  refine ⟨fun ends => ?_, fun kind message ends => ?_⟩
  · have settled := settle_done_left known running ended task
    refine ⟨settled.known, _, afterAttempt_eq ends policy ended routed task, ?_⟩
    rw [route_done settled.known]
    exact recurOrFinish_left settled (.inl rfl)
  · have settled := settle_failed_left known running ended task kind message
    exact ⟨settled.known, _, afterAttempt_eq ends policy ended routed task,
      route_failed_left settled rfl policy routed kind message⟩

/-- A hook that takes 20 milliseconds and a body that panics after another 30 have just the 50 that they may take. -/
theorem attempts_remembered_panic :
    let job := Job.atWork (.limited 1) .epoch (.periodic .second)
    let attempt : Attempt := ⟨⟨some 20, .done⟩, ⟨some 30, .panic (.text "boom")⟩, .within (.ofMillis 50)⟩
    (ofOne job).job? ⟨1⟩ = some job ∧ job.state = .running ∧ attempt.EndsAt 50 (.failed .panic "boom") ∧
      ∃ result, (ofOne job).afterAttempt ⟨none⟩ .epoch .epoch ⟨1⟩ ⟨0⟩ attempt = some result ∧
        (result.1.job? ⟨1⟩).map (·.failures) = some [⟨1, .panic, "boom", .epoch⟩] := by
  intro job attempt
  have known : (ofOne job).job? ⟨1⟩ = some job := (ofOne_runs (.limited 1) .epoch (.periodic .second)).known
  obtain ⟨fair, -, recorded⟩ := attempts_remembered known rfl ⟨none⟩ .epoch .epoch ⟨0⟩
  have ends : attempt.EndsAt 50 (.failed .panic "boom") := ((fair attempt).result _ _).2 (by decide)
  obtain ⟨-, result, came, left⟩ := (recorded attempt 50).2 .panic "boom" ends
  exact ⟨known, rfl, ends, result, came, by rw [left.known]; rfl⟩

end Board

end Rota
