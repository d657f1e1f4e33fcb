/-
The jobs of a board under its operations: finding a job by its number, putting one in its place, and
moving one from state to state.
-/
import Rota.Board
import Mathlib.Data.List.Nodup

namespace Rota

namespace Job

/-! ## Operations -/

theorem release_eq (job : Job) :
    job.release = { job with bound := if job.supplied then job.bound else none } := by
  unfold release
  split <;> rfl

@[simp] theorem release_id (job : Job) : job.release.id = job.id := by rw [release_eq]
@[simp] theorem release_state (job : Job) : job.release.state = job.state := by rw [release_eq]
@[simp] theorem release_finished (job : Job) : job.release.finished = job.finished := by rw [release_eq]
@[simp] theorem release_retries (job : Job) : job.release.retries = job.retries := by rw [release_eq]
@[simp] theorem release_failures (job : Job) : job.release.failures = job.failures := by rw [release_eq]
@[simp] theorem release_limit (job : Job) : job.release.limit = job.limit := by rw [release_eq]
@[simp] theorem release_dueAt (job : Job) : job.release.dueAt = job.dueAt := by rw [release_eq]
@[simp] theorem release_cadence (job : Job) : job.release.cadence = job.cadence := by rw [release_eq]
@[simp] theorem release_retryAt (job : Job) : job.release.retryAt = job.retryAt := by rw [release_eq]
@[simp] theorem release_priority (job : Job) : job.release.priority = job.priority := by rw [release_eq]
@[simp] theorem release_owner (job : Job) : job.release.owner = job.owner := by rw [release_eq]
@[simp] theorem release_kind (job : Job) : job.release.kind = job.kind := by rw [release_eq]
@[simp] theorem release_supplied (job : Job) : job.release.supplied = job.supplied := by rw [release_eq]

theorem move_eq_ok {job moved : Job} {operation : Operation} {target : State} :
    job.move operation target = .ok moved ↔ job.state.canBecome target = true ∧ moved = { job with state := target } := by
  unfold move
  split
  · rename_i h; simp [h, eq_comm]
  · rename_i h; simp [h]

theorem enqueue_eq_ok {job moved : Job} :
    job.enqueue = .ok moved ↔ job.state.canBecome .enqueued = true ∧ moved = { job with state := .enqueued } := move_eq_ok

theorem cancel_eq_ok {job moved : Job} :
    job.cancel = .ok moved ↔ job.state.canBecome .cancelled = true ∧ moved = { job with state := .cancelled } := move_eq_ok

theorem run_eq_ok {job moved : Job} :
    job.run = .ok moved ↔
      job.state.canBecome .running = true ∧ moved = { job with state := .running, retryAt := none } := by
  unfold run move
  split
  · rename_i h; simp [h, Except.map, eq_comm]
  · rename_i h; simp [h, Except.map]

theorem complete_running {job : Job} (h : job.state = .running) : job.complete = .ok { job with state := .success } := by
  simp [complete, move, h, State.canBecome]

/-- The job after an attempt that failed. -/
def failedWith (job : Job) (kind : FailureKind) (details : String) (now : Instant) : Job :=
  { job with state := .failed, failures := job.failures ++ [⟨job.retries + 1, kind, details, now⟩] }

theorem fail_running {job : Job} (h : job.state = .running) (kind : FailureKind) (details : String) (now : Instant) :
    job.fail kind details now = .ok (job.failedWith kind details now) := by
  simp [fail, move, h, State.canBecome, Except.map, failedWith]

/-- The job as it waits for its next attempt. -/
def retriedAt (job : Job) (retryAt : Option Instant) : Job :=
  { job with
    state := if retryAt.isSome then .scheduled else .enqueued
    retries := job.retries + 1
    retryAt := retryAt }.release

theorem retry_failed {job : Job} (h : job.state = .failed) (retryAt : Option Instant) :
    job.retry retryAt = .ok (job.retriedAt retryAt) := by
  cases retryAt <;> simp [retry, move, h, State.canBecome, Except.map, retriedAt]

/-- The job as it waits for its next occurrence. -/
def nextOn (job : Job) (dueAt : Instant) (cadence : Cadence) : Job :=
  { job with state := .scheduled, cadence := cadence, dueAt := dueAt, retryAt := none, retries := 0 }.release

theorem reschedule_stopped {job : Job} (h : job.state = .success ∨ job.state = .failed) (dueAt : Instant)
    (cadence : Cadence) : { job with cadence := cadence }.reschedule dueAt = .ok (job.nextOn dueAt cadence) := by
  rcases h with h | h <;> simp [reschedule, move, h, State.canBecome, Except.map, nextOn]

end Job

/-! ## Finding a job and putting one in its place -/

theorem find?_id {jobs : List Job} {id : JobId} {job : Job} (h : jobs.find? (·.id = id) = some job) : job.id = id := by
  simpa using List.find?_some h

theorem find?_of_mem {jobs : List Job} {job : Job} (hn : (jobs.map (·.id)).Nodup) (hm : job ∈ jobs) :
    jobs.find? (·.id = job.id) = some job := by
  cases hf : jobs.find? (·.id = job.id) with
  | none => exact absurd (List.find?_eq_none.1 hf job hm) (by simp)
  | some found => rw [List.inj_on_of_nodup_map hn (List.mem_of_find?_eq_some hf) hm (find?_id hf)]

theorem find?_put (jobs : List Job) (job : Job) (id : JobId) :
    (jobs.map fun j => if j.id = job.id then job else j).find? (·.id = id) =
      if id = job.id then (jobs.find? (·.id = id)).map fun _ => job else jobs.find? (·.id = id) := by
  induction jobs with
  | nil => simp
  | cons j jobs ih =>
    simp only [List.map_cons, List.find?_cons]
    by_cases hj : j.id = job.id <;> by_cases hi : id = job.id
    · simp [hj, hi]
    · have : job.id ≠ id := Ne.symm hi
      simp [hj, hi, this] at ih ⊢
      exact ih
    · have : j.id ≠ id := fun h => hj (h.trans hi)
      simp [hj, hi] at ih ⊢
      exact ih
    · simp only [hj, hi, if_false] at ih ⊢
      rw [ih]

/-- Whoever is looked for after a job has been put in its place is that job or one that was there. -/
theorem find?_put_known {jobs : List Job} {id : JobId} {job job' : Job} (known : jobs.find? (·.id = id) = some job)
    (hi : job'.id = job.id) (i : JobId) :
    (jobs.map fun j => if j.id = job'.id then job' else j).find? (·.id = i) =
      if i = id then some job' else jobs.find? (·.id = i) := by
  cases find?_id known
  rw [find?_put, hi]
  by_cases h : i = job.id
  · subst h; rw [if_pos rfl, if_pos rfl, known]; rfl
  · rw [if_neg h, if_neg h]

theorem find?_append_unknown {jobs : List Job} {id : JobId} {job : Job} (unknown : jobs.find? (·.id = id) = none)
    (hi : job.id = id) (i : JobId) :
    (jobs ++ [job]).find? (·.id = i) = if i = id then some job else jobs.find? (·.id = i) := by
  subst hi
  rw [List.find?_append]
  by_cases h : i = job.id
  · subst h; rw [unknown]; simp
  · simp [h, Ne.symm h]

theorem map_id_put (jobs : List Job) (job : Job) :
    (jobs.map fun j => if j.id = job.id then job else j).map (·.id) = jobs.map (·.id) := by
  rw [List.map_map]
  refine List.map_congr_left fun j _ => ?_
  simp only [Function.comp]
  split
  · rename_i h; exact h.symm
  · rfl

namespace Board

theorem job?_id {board : Board} {id : JobId} {job : Job} (h : board.job? id = some job) : job.id = id := find?_id h

theorem job?_put (board : Board) (job : Job) (id : JobId) :
    (board.put job).job? id = if id = job.id then (board.job? id).map fun _ => job else board.job? id :=
  find?_put board.jobs job id

theorem job?_put_self {board : Board} {id : JobId} {job : Job} (h : board.job? id = some job) (job' : Job)
    (hi : job'.id = job.id) : (board.put job').job? id = some job' := by
  rw [job?_put, if_pos (hi.trans (job?_id h)).symm, h]; rfl

theorem put_put (board : Board) {job job' : Job} (h : job'.id = job.id) : (board.put job).put job' = board.put job' := by
  unfold put
  simp only [List.map_map]
  congr 1
  refine List.map_congr_left fun j _ => ?_
  simp only [Function.comp, h]
  split
  · rw [if_pos rfl]
  · rfl

/-- To put a job in its own place changes nothing. -/
theorem put_self {board : Board} {id : JobId} {job : Job} (hn : (board.jobs.map (·.id)).Nodup)
    (h : board.job? id = some job) : board.put job = board := by
  have hm : job ∈ board.jobs := List.mem_of_find?_eq_some h
  have hj : (board.jobs.map fun j => if j.id = job.id then job else j) = board.jobs := by
    refine (List.map_congr_left fun j hj => ?_).trans (List.map_id _)
    split
    next hi => exact (List.inj_on_of_nodup_map hn hj hm hi).symm
    next => rfl
  unfold put
  rw [hj]

theorem job?_add {board : Board} {job : Job} (h : board.job? job.id = none) :
    (board.add job).job? job.id = some job := by
  unfold job? at h ⊢
  simp [add, List.find?_append, h]

/-- To move a job that has just been added is to add it moved. -/
theorem put_add {board : Board} {job job' : Job} (h : board.job? job.id = none) (hi : job'.id = job.id) :
    (board.add job).put job' = board.add job' := by
  unfold put add
  simp only [List.map_append, List.map_cons, List.map_nil, hi, ↓reduceIte]
  congr 1
  have hn : ∀ j ∈ board.jobs, j.id ≠ job.id := by
    unfold job? at h
    simpa [List.find?_eq_none] using h
  rw [List.map_congr_left (g := id) fun j hj => by rw [if_neg (hn j hj)]; rfl, List.map_id]

/-- To write in a journal changes nothing else. -/
theorem foldl_write (events : List Event) (board : Board) :
    events.foldl write board = { board with journal := events.reverse ++ board.journal } := by
  induction events generalizing board with
  | nil => rfl
  | cons event events ih => rw [List.foldl_cons, ih]; simp [write]

theorem move_some {board : Board} {id : JobId} {job : Job} {operation : Job → Except Refusal Job}
    (h : board.job? id = some job) : board.move id operation = (operation job).map board.put := by
  unfold move; rw [h]

theorem Job.finish_of_finished {job : Job} (h : job.finished = true) : job.finish = job := by
  unfold Job.finish; rw [← h]

/-- A job that is put in its place and done with counts no more, unless it did not count before. -/
theorem finish_put {board : Board} {id : JobId} {job job' : Job} (h : board.job? id = some job) (hi : job'.id = job.id) :
    (board.put job').finish id =
      { board.put job'.finish with
        outstanding := if job'.finished then board.outstanding else board.outstanding - 1 } := by
  unfold finish
  rw [job?_put_self h job' hi]
  by_cases hf : job'.finished = true
  · simp only [hf, if_true]
    rw [Job.finish_of_finished hf]; rfl
  · simp only [hf, Bool.false_eq_true, if_false]
    -- it is put twice, and the second time counts
    have hp : (board.put job').put job'.finish = board.put job'.finish := put_put board rfl
    rw [hp]; rfl

end Board

end Rota
