/-
What an execution does to its job. `Sequel` lists every way in which the end of an attempt sends a
running job on; `conclude_sent` says that the end of an execution is one of them and that nothing
else on the board changes.
-/
import Rota.Execution
import Rota.Proofs.Annals
import Rota.Proofs.Board

namespace Rota

/-- Where the end of an execution leaves its job. -/
inductive Fate
  | timetable
  | lineup
  /-- In no queue, and done with. -/
  | ended
  /-- In no queue, with a fault having kept it from being sent on. -/
  | stranded
deriving DecidableEq

/-- The strategy, if there is one, always gives a delay. -/
def RetryPolicy.Returns (policy : RetryPolicy) : Prop :=
  ∀ strategy, policy.delay = some strategy → ∀ retry, ∃ span, strategy retry = .ok span

theorem RetryPolicy.Returns.retryAt {policy : RetryPolicy} (h : policy.Returns) (job : Job) (now : Instant) :
    ∃ retryAt, policy.retryAt job now = .ok retryAt := by
  unfold RetryPolicy.retryAt
  cases hd : policy.delay with
  | none => exact ⟨_, rfl⟩
  | some strategy =>
    obtain ⟨span, hs⟩ := h strategy hd (job.retries + 1)
    exact ⟨_, by simp only [hs]; rfl⟩

/-- What the cadence makes of a job whose attempt has come to an outcome that stands. -/
inductive Recurrence (job : Job) : List Mark → Job → Fate → Prop
  | ended {rest : Cadence} (h : job.cadence.next job.dueAt = .ok (none, rest)) :
    Recurrence job [] { job with cadence := rest, finished := true } .ended
  | again {due : Instant} {rest : Cadence} (h : job.cadence.next job.dueAt = .ok (some due, rest)) :
    Recurrence job [.rescheduled due] (job.nextOn due rest) .timetable
  | stuck {fault : Fault} (h : job.cadence.next job.dueAt = .error fault) : Recurrence job [] job .stranded

/-- What the end of an attempt makes of a running job. -/
inductive Sequel (policy : RetryPolicy) (now : Instant) (job : Job) : Ending → List Mark → Job → Fate → Prop
  | succeeded {marks : List Mark} {job' : Job} {fate : Fate}
    (h : Recurrence { job with state := .success } marks job' fate) :
    Sequel policy now job .done (marks ++ [.succeeded]) job' fate
  | retried {kind : FailureKind} {message : String} {retryAt : Option Instant}
    (allowed : job.limit.allows job.retries = true) (h : policy.retryAt job now = .ok retryAt) :
    Sequel policy now job (.failed kind message) [.retried] ((job.failedWith kind message now).retriedAt retryAt)
      (if retryAt.isSome then .timetable else .lineup)
  | exhausted {kind : FailureKind} {message : String} {marks : List Mark} {job' : Job} {fate : Fate}
    (spent : job.limit.allows job.retries = false)
    (h : Recurrence (job.failedWith kind message now) marks job' fate) :
    Sequel policy now job (.failed kind message) (marks ++ [.exhausted]) job' fate
  | stuck {kind : FailureKind} {message : String} {fault : Fault}
    (allowed : job.limit.allows job.retries = true) (h : policy.retryAt job now = .error fault) :
    Sequel policy now job (.failed kind message) [] (job.failedWith kind message now) .stranded

namespace Board

/-- How a board changes when a job is sent to where it belongs: `finished` says whether it had been
done with before. -/
structure Sent (board board' : Board) (id : JobId) (finished : Bool) (marks : List Mark) (job' : Job) (fate : Fate) :
    Prop where
  jobs : board'.jobs = (board.put job').jobs
  timetable : board'.timetable = if fate = .timetable then board.timetable.insert job' else board.timetable
  lineup : board'.lineup = if fate = .lineup then board.lineup.push job' else board.lineup
  inFlight : board'.inFlight = board.inFlight
  outstanding : board'.outstanding =
    if fate = .ended ∧ finished = false then board.outstanding - 1 else board.outstanding
  annals : ∀ i, board'.annals i = if i = id then marks ++ board.annals i else board.annals i

theorem annals_write_of (board : Board) (event : Event) {id : JobId} {mark : Mark}
    (h : ∀ i, event.mark? i = if id = i then some mark else none) (i : JobId) :
    (board.write event).annals i = if i = id then mark :: board.annals i else board.annals i := by
  rw [annals_cons rfl, h]
  by_cases hi : i = id
  · simp [hi]
  · simp [hi, Ne.symm hi]

theorem insert_scheduled {board : Board} {id : JobId} {job : Job} (h : board.job? id = some job)
    (hs : job.state = .scheduled) : board.insert id = { board with timetable := board.timetable.insert job } := by
  unfold insert; rw [h]; exact if_pos hs

theorem push_enqueued {board : Board} {id : JobId} {job : Job} (h : board.job? id = some job)
    (hs : job.state = .enqueued) : board.push id = { board with lineup := board.lineup.push job } := by
  unfold push; rw [h]; exact if_pos hs

/-- A job that is done with after its outcome has been noted. -/
theorem finish_sent {board : Board} {id : JobId} {job : Job} (h : board.job? id = some job) (rest : Cadence) :
    Sent board ((board.put { job with cadence := rest }).finish id) id job.finished []
      { job with cadence := rest, finished := true } .ended := by
  have hi : ({ job with cadence := rest } : Job).id = job.id := rfl
  rw [finish_put h hi]
  refine ⟨rfl, rfl, rfl, rfl, ?_, fun i => ?_⟩
  · cases job.finished <;> rfl
  · show board.annals i = _
    split <;> rfl

theorem recurOrFinish_eq {board : Board} {id : JobId} {job : Job} (h : board.job? id = some job)
    (hs : job.state = .success ∨ job.state = .failed) :
    board.recurOrFinish id = (job.cadence.next job.dueAt).map fun
      | (none, rest) => (board.put { job with cadence := rest }).finish id
      | (some due, rest) =>
        { (board.put (job.nextOn due rest)).write (.rescheduled id due) with
          timetable := board.timetable.insert (job.nextOn due rest) } := by
  unfold recurOrFinish
  rw [h]
  dsimp only
  unfold Job.advance
  cases hn : job.cadence.next job.dueAt with
  | error fault => rfl
  | ok answer =>
    obtain ⟨due, rest⟩ := answer
    cases due with
    | none => rfl
    | some due =>
      have hj := job?_put_self h { job with cadence := rest } rfl
      have hj' := job?_put_self hj (job.nextOn due rest) (by simp [Job.nextOn])
      -- the cadence is written back before the job is moved; the second put covers the first
      have hp : (board.put { job with cadence := rest }).put (job.nextOn due rest) = board.put (job.nextOn due rest) :=
        put_put board (by simp [Job.nextOn])
      simp only [Except.map]
      rw [move_some hj, Job.reschedule_stopped hs]
      simp only [Except.map]
      rw [hp] at hj' ⊢
      have hw : ((board.put (job.nextOn due rest)).write (.rescheduled id due)).job? id = some (job.nextOn due rest) := hj'
      rw [insert_scheduled hw (by simp [Job.nextOn])]
      rfl

/-- The cadence sends a stopped job to its next occurrence, or it is done with. -/
theorem recurOrFinish_sent {board : Board} {id : JobId} {job : Job} (h : board.job? id = some job)
    (hp : board.put job = board) (hs : job.state = .success ∨ job.state = .failed) :
    ∃ marks job' fate, Recurrence job marks job' fate ∧
      Sent board ((board.recurOrFinish id).toOption.getD board) id job.finished marks job' fate := by
  rw [recurOrFinish_eq h hs]
  cases hn : job.cadence.next job.dueAt with
  | error fault =>
    exact ⟨_, _, _, .stuck hn, ⟨by rw [hp]; rfl, rfl, rfl, rfl, rfl, fun i => by split <;> rfl⟩⟩
  | ok answer =>
    obtain ⟨due, rest⟩ := answer
    cases due with
    | none => exact ⟨_, _, _, .ended hn, finish_sent h rest⟩
    | some due =>
      refine ⟨_, _, _, .again hn, ⟨rfl, rfl, rfl, rfl, rfl, fun i => ?_⟩⟩
      exact annals_write_of (board.put (job.nextOn due rest)) (.rescheduled id due) (fun i => rfl) i

/-- To take note of an ending is to move the job on and to end its execution. -/
theorem settle_eq {board : Board} {id : JobId} {job : Job} (h : board.job? id = some job) (hr : job.state = .running)
    (now : Instant) (task : TaskId) (ending : Ending) :
    board.settle now id task ending = match ending with
      | .done => ((board.write (.completed id)).put { job with state := .success }).drop task
      | .failed kind message => (board.put (job.failedWith kind message now)).drop task := by
  unfold settle moveOrNote
  cases ending with
  | done =>
    have hw : (board.write (.completed id)).job? id = some job := h
    simp only
    rw [move_some hw, Job.complete_running hr]
    rfl
  | failed kind message =>
    simp only
    rw [move_some h, Job.fail_running hr]
    rfl

theorem sendBack_sent {board : Board} {id : JobId} {job : Job} (h : board.job? id = some job)
    (hs : job.state = .failed) (retryAt : Option Instant) (finished : Bool) :
    Sent board (board.sendBack id retryAt) id finished [] (job.retriedAt retryAt)
      (if retryAt.isSome then .timetable else .lineup) := by
  have hi : (job.retriedAt retryAt).id = job.id := by simp [Job.retriedAt]
  have hj := job?_put_self h _ hi
  unfold sendBack
  rw [move_some h, Job.retry_failed hs]
  simp only [Except.map]
  cases retryAt with
  | none =>
    rw [if_neg (by simp), push_enqueued hj (by simp [Job.retriedAt])]
    exact ⟨rfl, rfl, rfl, rfl, rfl, fun i => by split <;> rfl⟩
  | some time =>
    rw [Option.isSome_some, if_pos rfl, insert_scheduled hj (by simp [Job.retriedAt])]
    exact ⟨rfl, rfl, rfl, rfl, rfl, fun i => by split <;> rfl⟩

/-- To note a job where it is and then to send it on is to send it on from where it was. -/
theorem Sent.trans {board settled board' : Board} {job job' : Job} {id : JobId} {finished : Bool}
    {marks before : List Mark} {fate : Fate} (hn : Sent board settled id finished before job .stranded)
    (hi : job'.id = job.id) (h : Sent settled board' id finished marks job' fate) :
    Sent board board' id finished (marks ++ before) job' fate := by
  have ht : settled.timetable = board.timetable := hn.timetable
  have hl : settled.lineup = board.lineup := hn.lineup
  have ho : settled.outstanding = board.outstanding := by rw [hn.outstanding, if_neg (by simp)]
  refine ⟨?_, by rw [h.timetable, ht], by rw [h.lineup, hl], h.inFlight.trans hn.inFlight, by rw [h.outstanding, ho],
    fun i => ?_⟩
  · rw [h.jobs, ← put_put board hi]
    simp only [put, hn.jobs]
  · rw [h.annals, hn.annals]
    split
    · rw [List.append_assoc]
    · rfl

theorem route_eq {board : Board} {id : JobId} {job : Job} (h : board.job? id = some job) (policy : RetryPolicy)
    (now : Instant) (ending : Ending) :
    (board.route policy now id ending).1 = match ending with
      | .done => (board.recurOrFinish id).toOption.getD board
      | .failed kind message =>
        if policy.permits job then
          match policy.retryAt job now with
          | .ok retryAt => (board.write (.retrying id kind message)).sendBack id retryAt
          | .error _ => board
        else
          ((board.write (.exhausted id kind message)).recurOrFinish id).toOption.getD
            (board.write (.exhausted id kind message)) := by
  unfold route
  rw [h]
  cases ending with
  | done =>
    dsimp only
    cases board.recurOrFinish id <;> rfl
  | failed kind message =>
    dsimp only
    split
    · cases policy.retryAt job now <;> rfl
    · cases (board.write (.exhausted id kind message)).recurOrFinish id <;> rfl

end Board

theorem Recurrence.id_eq {job job' : Job} {marks : List Mark} {fate : Fate} (h : Recurrence job marks job' fate) :
    job'.id = job.id := by
  cases h <;> simp [Job.nextOn]

theorem Recurrence.state_eq {job job' : Job} {marks : List Mark} {fate : Fate} (h : Recurrence job marks job' fate) :
    (fate = .timetable → job'.state = .scheduled) ∧ fate ≠ .lineup := by
  cases h with
  | again => exact ⟨fun _ => by simp [Job.nextOn], by simp⟩
  | _ => simp

/-- A job that comes back waits for its due time; any other keeps the state of its outcome. -/
theorem Recurrence.outcome {job job' : Job} {marks : List Mark} {fate : Fate} (h : Recurrence job marks job' fate) :
    (fate = .timetable ∧ job'.state = .scheduled ∧ job'.finished = job.finished) ∨
      ((fate = .ended ∨ fate = .stranded) ∧ job'.state = job.state) := by
  cases h with
  | again => exact .inl ⟨rfl, by simp [Job.nextOn], by simp [Job.nextOn]⟩
  | ended => exact .inr ⟨.inl rfl, rfl⟩
  | stuck => exact .inr ⟨.inr rfl, rfl⟩

theorem Recurrence.terms_eq {job job' : Job} {marks : List Mark} {fate : Fate} (h : Recurrence job marks job' fate) :
    job'.priority = job.priority ∧ job'.owner = job.owner := by
  cases h <;> simp [Job.nextOn]

theorem Recurrence.failures_eq {job job' : Job} {marks : List Mark} {fate : Fate} (h : Recurrence job marks job' fate) :
    job'.failures = job.failures := by
  cases h <;> simp [Job.nextOn]

theorem Sequel.id_eq {policy : RetryPolicy} {now : Instant} {job job' : Job} {ending : Ending} {marks : List Mark}
    {fate : Fate} (h : Sequel policy now job ending marks job' fate) : job'.id = job.id := by
  cases h with
  | succeeded h => exact h.id_eq
  | retried => simp [Job.retriedAt, Job.failedWith]
  | exhausted _ h => exact h.id_eq
  | stuck => rfl

/-- A job that is sent on to a queue is in the state of those that wait there. -/
theorem Sequel.state_eq {policy : RetryPolicy} {now : Instant} {job job' : Job} {ending : Ending} {marks : List Mark}
    {fate : Fate} (h : Sequel policy now job ending marks job' fate) :
    (fate = .timetable → job'.state = .scheduled) ∧ (fate = .lineup → job'.state = .enqueued) := by
  cases h with
  | succeeded h => exact ⟨h.state_eq.1, fun hf => absurd hf h.state_eq.2⟩
  | @retried _ _ retryAt => cases retryAt <;> simp [Job.retriedAt]
  | exhausted _ h => exact ⟨h.state_eq.1, fun hf => absurd hf h.state_eq.2⟩
  | stuck => simp

/-- After an attempt a job waits in one of the queues, in the state of those that wait there, or it has succeeded or
failed. -/
theorem Sequel.outcome {policy : RetryPolicy} {now : Instant} {job job' : Job} {ending : Ending} {marks : List Mark}
    {fate : Fate} (h : Sequel policy now job ending marks job' fate) :
    (fate = .timetable ∧ job'.state = .scheduled ∧ job'.finished = job.finished) ∨
      (fate = .lineup ∧ job'.state = .enqueued ∧ job'.finished = job.finished) ∨
      ((fate = .ended ∨ fate = .stranded) ∧ (job'.state = .success ∨ job'.state = .failed)) := by
  cases h with
  | succeeded h =>
    rcases h.outcome with waits | ⟨hf, state⟩
    · exact .inl waits
    · exact .inr (.inr ⟨hf, .inl state⟩)
  | @retried _ _ retryAt =>
    cases retryAt with
    | none => exact .inr (.inl ⟨rfl, by simp [Job.retriedAt], by simp [Job.retriedAt, Job.failedWith]⟩)
    | some => exact .inl ⟨rfl, by simp [Job.retriedAt], by simp [Job.retriedAt, Job.failedWith]⟩
  | exhausted _ h =>
    rcases h.outcome with waits | ⟨hf, state⟩
    · exact .inl waits
    · exact .inr (.inr ⟨hf, .inr state⟩)
  | stuck => exact .inr (.inr ⟨.inr rfl, .inr rfl⟩)

namespace Board

/-- The end of an execution drops it and sends its job on in one of the ways there are. -/
theorem conclude_sent {board : Board} {id : JobId} {job : Job} (h : board.job? id = some job)
    (hr : job.state = .running) (policy : RetryPolicy) (now : Instant) (task : TaskId) (ending : Ending) :
    ∃ marks job' fate, Sequel policy now job ending marks job' fate ∧
      Sent (board.drop task) ((board.settle now id task ending).route policy now id ending).1 id job.finished
        marks job' fate := by
  rw [settle_eq h hr]
  cases ending with
  | done =>
    dsimp only
    have hj := job?_put_self h { job with state := .success } rfl
    have hp : (board.put { job with state := .success }).put { job with state := .success } =
      board.put { job with state := .success } := put_put board rfl
    -- from here on only what holds of the settled board matters
    generalize hb : ((board.write (.completed id)).put { job with state := .success }).drop task = settled
    have hj' : settled.job? id = some { job with state := .success } := by rw [← hb]; exact hj
    have hp' : settled.put { job with state := .success } = settled := by
      rw [← hb]; exact congrArg (fun b => (b.write (.completed id)).drop task) hp
    have hn : Sent (board.drop task) settled id job.finished [.succeeded] { job with state := .success } .stranded := by
      rw [← hb]
      refine ⟨rfl, rfl, rfl, rfl, rfl, fun i => ?_⟩
      exact annals_write_of (board.drop task) (.completed id) (fun i => rfl) i
    obtain ⟨marks, job', fate, hc, hs⟩ := recurOrFinish_sent hj' hp' (.inl rfl)
    refine ⟨_, _, _, .succeeded hc, ?_⟩
    rw [route_eq hj']
    exact hn.trans hc.id_eq hs
  | failed kind message =>
    dsimp only
    have hj := job?_put_self h (job.failedWith kind message now) rfl
    have hp : (board.put (job.failedWith kind message now)).put (job.failedWith kind message now) =
      board.put (job.failedWith kind message now) := put_put board rfl
    generalize hb : (board.put (job.failedWith kind message now)).drop task = settled
    have hj' : settled.job? id = some (job.failedWith kind message now) := by rw [← hb]; exact hj
    have hp' : settled.put (job.failedWith kind message now) = settled := by
      rw [← hb]; exact congrArg (fun b => b.drop task) hp
    have hn : Sent (board.drop task) settled id job.finished [] (job.failedWith kind message now) .stranded := by
      rw [← hb]
      exact ⟨rfl, rfl, rfl, rfl, rfl, fun i => by split <;> rfl⟩
    -- the failure is noted on the job before its event is written
    have hw : ∀ event mark, (∀ i, event.mark? i = if id = i then some mark else none) →
        Sent (board.drop task) (settled.write event) id job.finished [mark] (job.failedWith kind message now) .stranded := by
      intro event mark hm
      refine ⟨hn.jobs, hn.timetable, hn.lineup, hn.inFlight, hn.outstanding, fun i => ?_⟩
      rw [annals_write_of settled event hm, hn.annals]
      split <;> rfl
    rw [route_eq hj']
    dsimp only
    by_cases hl : job.limit.allows job.retries = true
    · rw [if_pos (show RetryPolicy.permits policy (job.failedWith kind message now) = true from hl)]
      have hr' : policy.retryAt (job.failedWith kind message now) now = policy.retryAt job now := rfl
      rw [hr']
      cases ht : policy.retryAt job now with
      | error fault => exact ⟨_, _, _, .stuck hl ht, hn⟩
      | ok retryAt =>
        refine ⟨_, _, _, .retried hl ht, ?_⟩
        have hj'' : (settled.write (.retrying id kind message)).job? id = some (job.failedWith kind message now) := hj'
        have hs := sendBack_sent hj'' rfl retryAt job.finished
        exact (hw (.retrying id kind message) .retried fun i => rfl).trans (by simp [Job.retriedAt]) hs
    · rw [if_neg (show ¬ RetryPolicy.permits policy (job.failedWith kind message now) = true from hl)]
      have hj'' : (settled.write (.exhausted id kind message)).job? id = some (job.failedWith kind message now) := hj'
      obtain ⟨marks, job', fate, hc, hs⟩ := recurOrFinish_sent hj''
        (congrArg (fun b => b.write (.exhausted id kind message)) hp') (.inr rfl)
      refine ⟨_, _, _, .exhausted (by simpa using hl) hc, ?_⟩
      exact (hw (.exhausted id kind message) .exhausted fun i => rfl).trans hc.id_eq hs

end Board

end Rota
