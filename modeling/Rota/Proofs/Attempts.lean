/-
The attempts of a job: how many have begun and failed in each occurrence, and how the retries and the
failures of the job agree with them, from its acceptance on and by every passage.
-/
import Rota.Proofs.Sound

namespace Rota

/-! ## Failed attempts -/

/-- How many attempts of an occurrence have failed: of those that began all but the ones that succeeded
and, if there is one, the one under way. -/
def missed (underWay : Bool) (chapter : List Mark) : Nat :=
  chapter.countP Mark.isStart - chapter.count .succeeded - underWay.toNat

/-- How many attempts of each occurrence have failed, the earliest occurrence first. -/
def misses (underWay : Bool) (annals : List Mark) : List Nat :=
  (earlierChapters annals).reverse.map (missed false) ++ [missed underWay (presentChapter annals)]

theorem missed_le (underWay : Bool) (chapter : List Mark) : missed underWay chapter ≤ chapter.countP Mark.isStart := by
  unfold missed; omega

section

variable {underWay underWay' : Bool} {annals annals' : List Mark}

theorem misses_congr (he : earlierChapters annals' = earlierChapters annals)
    (hn : missed underWay' (presentChapter annals') = missed underWay (presentChapter annals)) :
    misses underWay' annals' = misses underWay annals := by
  unfold misses; rw [he, hn]

/-- One more attempt that failed has the next number. -/
theorem misses_succ (he : earlierChapters annals' = earlierChapters annals)
    (hn : missed underWay' (presentChapter annals') = missed underWay (presentChapter annals) + 1) :
    (misses underWay' annals').flatMap (List.range' 1) =
      (misses underWay annals).flatMap (List.range' 1) ++ [missed underWay (presentChapter annals) + 1] := by
  unfold misses
  rw [he, hn, List.flatMap_append, List.flatMap_append, List.append_assoc]
  refine congrArg _ ?_
  simp only [List.flatMap_cons, List.flatMap_nil, List.append_nil]
  rw [List.range'_1_concat, Nat.add_comm 1]

/-- An occurrence that begins has no failed attempt. -/
theorem misses_rescheduled (dueAt : Instant) (annals : List Mark) :
    (misses false (.rescheduled dueAt :: annals)).flatMap (List.range' 1) =
      (misses false annals).flatMap (List.range' 1) := by
  unfold misses
  simp [missed]

end

/-! ## One job -/

/-- All the retries that the job was granted have been used up, and their attempts have failed. -/
def Job.Spent (job : Job) (underWay : Bool) (annals : List Mark) : Prop :=
  ∃ most, job.limit = .limited most ∧ job.retries = most.toNat ∧
    (misses underWay annals).getLast? = some (most.toNat + 1)

/-- The retries and failures of a job agree with its limit and its annals. -/
structure Job.Tallies (job : Job) (policy : RetryPolicy) (underWay : Bool) (annals : List Mark) : Prop where
  retries : (presentChapter annals).countP Mark.isRetry = job.retries
  /-- Every attempt of an occurrence but the first is a retry. -/
  attempts : (presentChapter annals).countP Mark.isStart ≤ job.retries + 1
  /-- The failures of each occurrence are numbered from one on. -/
  failures : job.failures.map (·.attempt) = (misses underWay annals).flatMap (List.range' 1)
  limited : ∀ most, job.limit = .limited most → job.retries ≤ most.toNat ∧
    (∀ chapter ∈ chapters annals, chapter.countP Mark.isStart ≤ most.toNat + 1) ∧
    ∀ n ∈ misses underWay annals, n ≤ most.toNat + 1
  unlimited : job.limit = .unlimited → .exhausted ∉ annals
  /-- A job stays failed only if no instance could be built or no retry was left, or for want of a delay. -/
  failed : job.state = .failed → (job.finished = true ∨ policy.Returns) →
    .abandoned ∈ presentChapter annals ∨ job.Spent underWay annals

/-- Whether an attempt has begun that neither led to a retry nor ended its occurrence. -/
def Job.hasTried (job : Job) (underWay : Bool) : Bool := underWay || job.state = .success || job.state = .failed

/-- What holds of a job from step to step, until it is promoted after it has failed. -/
structure Job.InStep (job : Job) (policy : RetryPolicy) (underWay : Bool) (annals : List Mark) : Prop where
  retries : (presentChapter annals).countP Mark.isRetry = job.retries
  starts : (presentChapter annals).countP Mark.isStart = job.retries + (job.hasTried underWay).toNat
  succeeded : (presentChapter annals).count .succeeded = (decide (job.state = .success)).toNat
  failures : job.failures.map (·.attempt) = (misses underWay annals).flatMap (List.range' 1)
  limited : ∀ most, job.limit = .limited most → job.retries ≤ most.toNat ∧
    ∀ chapter ∈ earlierChapters annals, chapter.countP Mark.isStart ≤ most.toNat + 1
  unlimited : job.limit = .unlimited → .exhausted ∉ annals
  failed : job.state = .failed → (job.finished = true ∨ policy.Returns) →
    .abandoned ∈ presentChapter annals ∨ job.Spent underWay annals
  ended : job.finished = true → job.state.isStopped = true

section

variable {policy : RetryPolicy} {now : Instant} {job job' : Job} {underWay : Bool} {annals marks : List Mark}

theorem Job.hasTried_le (job : Job) (underWay : Bool) : (job.hasTried underWay).toNat ≤ 1 := Bool.toNat_le _

theorem Job.InStep.tallies (h : job.InStep policy underWay annals) : job.Tallies policy underWay annals := by
  have tried := job.hasTried_le underWay
  have starts := h.starts
  refine ⟨h.retries, by omega, h.failures, fun most hl => ?_, h.unlimited, h.failed⟩
  obtain ⟨within, past⟩ := h.limited most hl
  refine ⟨within, ?_, fun n hn => ?_⟩
  · rw [chapters_eq]
    exact List.forall_mem_cons.2 ⟨by omega, past⟩
  · rcases List.mem_append.1 hn with hn | hn
    · obtain ⟨chapter, hc, rfl⟩ := List.mem_map.1 hn
      exact (missed_le ..).trans (past chapter (List.mem_reverse.1 hc))
    · rw [List.mem_singleton.1 hn]
      exact (missed_le ..).trans (by omega)

/-- A job whose state changes while it waits, or as it comes to run, stays in step. -/
theorem Job.InStep.moved (h : job.InStep policy false annals) (retries : job'.retries = job.retries)
    (failures : job'.failures = job.failures) (limit : job'.limit = job.limit)
    (before : job.state ≠ .success ∧ job.state ≠ .failed) (after : job'.state ≠ .success ∧ job'.state ≠ .failed)
    (ended : job'.finished = true → job'.state.isStopped = true) : job'.InStep policy false annals where
  retries := by rw [retries]; exact h.retries
  starts := by
    have := h.starts
    simp only [Job.hasTried, before.1, before.2] at this
    simpa only [Job.hasTried, after.1, after.2, retries] using this
  succeeded := by
    have := h.succeeded
    simp only [before.1] at this
    simpa only [after.1] using this
  failures := by rw [failures]; exact h.failures
  limited := by rw [limit, retries]; exact h.limited
  unlimited := by rw [limit]; exact h.unlimited
  failed := fun hs => absurd hs after.2
  ended := ended

/-- The attempts of a running job's occurrence are its retries and the one under way, if it has begun. -/
theorem Job.InStep.counts (h : job.InStep policy underWay annals) (running : job.state = .running) :
    (presentChapter annals).countP Mark.isStart = job.retries + underWay.toNat ∧
      (presentChapter annals).count .succeeded = 0 := by
  have starts := h.starts
  have succeeded := h.succeeded
  simp only [Job.hasTried, running] at starts succeeded
  exact ⟨by simpa using starts, succeeded⟩

/-- A job whose attempt begins stays in step. -/
theorem Job.InStep.begun (h : job.InStep policy false annals) (running : job.state = .running) (performer : Instance) :
    (job.bind performer).InStep policy true (.started :: annals) := by
  obtain ⟨starts, succeeded⟩ := h.counts running
  have hp := presentChapter_cons .started rfl annals
  have he := earlierChapters_cons .started rfl annals
  refine ⟨?_, ?_, ?_, ?_, ?_, fun hl => ?_, fun hs => ?_, h.ended⟩
  · rw [hp]; exact h.retries
  · rw [hp, List.countP_cons_of_pos rfl, starts]; rfl
  · rw [hp, List.count_cons_of_ne (by simp)]; exact h.succeeded
  · rw [misses_congr he]
    · exact h.failures
    · rw [hp, missed, missed, List.countP_cons_of_pos rfl, List.count_cons_of_ne (by simp)]
      simp only [Bool.toNat_true, Bool.toNat_false]
      omega
  · rw [he]; exact h.limited
  · simpa using h.unlimited hl
  · exact absurd (running.symm.trans hs) (by simp)

/-- The failure of an attempt: one more began than was retried, and the failures are one more. -/
theorem Job.InStep.failure {underWay' : Bool} {annals' : List Mark} (h : job.InStep policy underWay annals)
    (running : job.state = .running) (he : earlierChapters annals' = earlierChapters annals)
    (hn : missed underWay' (presentChapter annals') = job.retries + 1) (kind : FailureKind) (details : String)
    (now : Instant) :
    (job.failedWith kind details now).failures.map (·.attempt) = (misses underWay' annals').flatMap (List.range' 1) := by
  obtain ⟨starts, succeeded⟩ := h.counts running
  -- all that began before were retried, but for the one under way
  have before : missed underWay (presentChapter annals) = job.retries := by
    unfold missed
    omega
  rw [misses_succ he (by rw [hn, before]), before, ← h.failures]
  simp [Job.failedWith]

/-- A running job is not done with. -/
theorem Job.InStep.live (h : job.InStep policy underWay annals) (running : job.state = .running) :
    job.finished = false := by
  by_contra hf
  have := h.ended (by simpa using hf)
  rw [running] at this
  cases this

/-- A job for which no instance can be built is left in step. -/
theorem Job.InStep.givenUp (h : job.InStep policy false annals) (running : job.state = .running) (now : Instant) :
    (job.givenUp now).InStep policy false (.abandoned :: annals) := by
  obtain ⟨starts, succeeded⟩ := h.counts running
  have hp := presentChapter_cons .abandoned rfl annals
  have he := earlierChapters_cons .abandoned rfl annals
  refine ⟨?_, ?_, ?_, ?_, ?_, fun hl => ?_, fun _ _ => .inl ?_, fun _ => rfl⟩
  · rw [hp]; exact h.retries
  · rw [hp, List.countP_cons_of_pos rfl, starts]; rfl
  · rw [hp, List.count_cons_of_ne (by simp), succeeded]; rfl
  · refine h.failure running he ?_ _ _ _
    rw [hp, missed, List.countP_cons_of_pos rfl, List.count_cons_of_ne (by simp), starts, succeeded]
    rfl
  · rw [he]; exact h.limited
  · simpa using h.unlimited hl
  · rw [hp]; exact List.mem_cons_self ..

theorem Job.InStep.success (h : job.InStep policy true annals) (running : job.state = .running) :
    { job with state := .success }.InStep policy false (.succeeded :: annals) := by
  obtain ⟨starts, succeeded⟩ := h.counts running
  have hp := presentChapter_cons .succeeded rfl annals
  have he := earlierChapters_cons .succeeded rfl annals
  refine ⟨?_, ?_, ?_, ?_, ?_, fun hl => ?_, fun hs => (by cases hs), fun _ => rfl⟩
  · rw [hp]; exact h.retries
  · rw [hp, List.countP_cons_of_neg (by simp [Mark.isStart]), starts]; rfl
  · rw [hp, List.count_cons_self, succeeded]; rfl
  · rw [misses_congr he]
    · exact h.failures
    · rw [hp, missed, missed, List.countP_cons_of_neg (by simp [Mark.isStart]), List.count_cons_self, starts, succeeded]
      rfl
  · rw [he]; exact h.limited
  · simpa using h.unlimited hl

theorem Job.InStep.exhausted (h : job.InStep policy true annals) (running : job.state = .running)
    (spent : job.limit.allows job.retries = false) (kind : FailureKind) (details : String) (now : Instant) :
    (job.failedWith kind details now).InStep policy false (.exhausted :: annals) ∧
      (job.failedWith kind details now).Spent false (.exhausted :: annals) := by
  obtain ⟨starts, succeeded⟩ := h.counts running
  have hp := presentChapter_cons .exhausted rfl annals
  have he := earlierChapters_cons .exhausted rfl annals
  have hn : missed false (presentChapter (.exhausted :: annals)) = job.retries + 1 := by
    rw [hp, missed, List.countP_cons_of_neg (by simp [Mark.isStart]), List.count_cons_of_ne (by simp), starts, succeeded]
    rfl
  have last : (job.failedWith kind details now).Spent false (.exhausted :: annals) := by
    cases hl : job.limit with
    | unlimited => rw [hl] at spent; cases spent
    | limited most =>
      have within := (h.limited most hl).1
      rw [hl] at spent
      have : ¬ job.retries < most.toNat := by simpa [RetryLimit.allows] using spent
      -- the limit was never passed, and now it allows no more
      have he : job.retries = most.toNat := by omega
      exact ⟨most, hl, he, by rw [misses, List.getLast?_append, hn, he]; rfl⟩
  refine ⟨⟨?_, ?_, ?_, h.failure running he hn _ _ _, ?_, fun hl => ?_, fun _ _ => .inr last, fun _ => rfl⟩, last⟩
  · rw [hp]; exact h.retries
  · rw [hp, List.countP_cons_of_neg (by simp [Mark.isStart]), starts]; rfl
  · rw [hp, List.count_cons_of_ne (by simp), succeeded]; rfl
  · rw [he]; exact h.limited
  · have hl : job.limit = .unlimited := hl
    rw [hl] at spent
    cases spent

theorem Job.InStep.retried (h : job.InStep policy true annals) (running : job.state = .running)
    (allowed : job.limit.allows job.retries = true) (kind : FailureKind) (details : String) (now : Instant)
    (retryAt : Option Instant) : ((job.failedWith kind details now).retriedAt retryAt).InStep policy false (.retried :: annals) := by
  have starts := h.starts
  have succeeded := h.succeeded
  have live := h.live running
  simp only [Job.hasTried, running] at starts succeeded
  have hp := presentChapter_cons .retried rfl annals
  have he := earlierChapters_cons .retried rfl annals
  have hn : missed false (presentChapter (.retried :: annals)) = job.retries + 1 := by
    rw [hp, missed, List.countP_cons_of_neg (by simp [Mark.isStart]), List.count_cons_of_ne (by simp), starts, succeeded]
    rfl
  have finished : ((job.failedWith kind details now).retriedAt retryAt).finished = false := by
    simpa [Job.retriedAt, Job.failedWith] using h.live running
  have state : ((job.failedWith kind details now).retriedAt retryAt).state ≠ .success ∧
      ((job.failedWith kind details now).retriedAt retryAt).state ≠ .failed := by
    cases retryAt <;> simp [Job.retriedAt]
  have retries : ((job.failedWith kind details now).retriedAt retryAt).retries = job.retries + 1 := by
    simp [Job.retriedAt, Job.failedWith]
  have limit : ((job.failedWith kind details now).retriedAt retryAt).limit = job.limit := by
    simp [Job.retriedAt, Job.failedWith]
  refine ⟨?_, ?_, ?_, ?_, fun most hl => ?_, fun hl => ?_, fun hs => absurd hs state.2, fun hf => ?_⟩
  · rw [hp, List.countP_cons_of_pos rfl, h.retries, retries]
  · rw [hp, List.countP_cons_of_neg (by simp [Mark.isStart]), starts, retries]
    simp [Job.hasTried, state]
  · rw [hp, List.count_cons_of_ne (by simp), succeeded]
    simp [state]
  · rw [← h.failure running he hn kind details now]
    simp [Job.retriedAt]
  · rw [limit] at hl
    rw [he, retries]
    rw [hl] at allowed
    have left : job.retries < most.toNat := by simpa [RetryLimit.allows] using allowed
    exact ⟨left, (h.limited most hl).2⟩
  · simpa using h.unlimited (limit.symm.trans hl)
  · rw [finished] at hf; cases hf

/-- A strategy that gives no delay leaves a job failed, with a failure more. -/
theorem Job.InStep.stuck (h : job.InStep policy true annals) (running : job.state = .running) {fault : Fault}
    (hd : policy.retryAt job now = .error fault) (kind : FailureKind) (details : String) :
    (job.failedWith kind details now).InStep policy false annals := by
  obtain ⟨starts, succeeded⟩ := h.counts running
  have live := h.live running
  have hn : missed false (presentChapter annals) = job.retries + 1 := by
    rw [missed, starts, succeeded]; rfl
  refine ⟨h.retries, ?_, ?_, h.failure running rfl hn _ _ _, h.limited, h.unlimited, fun _ hf => ?_, fun _ => rfl⟩
  · rw [starts]; rfl
  · rw [succeeded]; rfl
  · rcases hf with hf | hf
    · exact absurd (live.symm.trans hf) (by simp)
    · obtain ⟨retryAt, he⟩ := hf.retryAt job now
      cases he.symm.trans hd

/-- After an outcome that stands, the next occurrence begins in step. -/
theorem Recurrence.inStep {fate : Fate} (h : Recurrence job marks job' fate) (tame : job.cadence.Tame job.dueAt)
    (inStep : job.InStep policy false annals) (live : job.finished = false)
    (stopped : job.state.isStopped = true) (failed : job.state = .failed → job.Spent false annals) :
    job'.InStep policy false (marks ++ annals) := by
  cases h with
  | @ended rest hn =>
    exact ⟨inStep.retries, inStep.starts, inStep.succeeded, inStep.failures, inStep.limited, inStep.unlimited,
      fun hs _ => .inr (failed hs), fun _ => stopped⟩
  | @again due rest hn =>
    have tallies := inStep.tallies
    have state : (job.nextOn due rest).state = .scheduled := by simp [Job.nextOn]
    have retries : (job.nextOn due rest).retries = 0 := by simp [Job.nextOn]
    have limit : (job.nextOn due rest).limit = job.limit := by simp [Job.nextOn]
    refine ⟨retries.symm, ?_, ?_, ?_, fun most hl => ?_, fun hl => ?_, fun hs => ?_, fun hf => ?_⟩
    · simp [Job.hasTried, state, retries]
    · simp [state]
    · rw [List.singleton_append, misses_rescheduled, ← inStep.failures]
      simp [Job.nextOn]
    · obtain ⟨-, attempts, -⟩ := tallies.limited most (limit.symm.trans hl)
      rw [retries, List.singleton_append, earlierChapters_rescheduled, ← chapters_eq]
      exact ⟨Nat.zero_le _, attempts⟩
    · simpa using inStep.unlimited (limit.symm.trans hl)
    · rw [state] at hs; cases hs
    · have : job.finished = true := by simpa [Job.nextOn] using hf
      rw [live] at this; cases this
  | stuck hn =>
    obtain ⟨answer, he⟩ := tame.next_ok
    cases he.symm.trans hn

/-- The end of an attempt leaves its job in step. -/
theorem Sequel.inStep {ending : Ending} {fate : Fate} (h : Sequel policy now job ending marks job' fate)
    (tame : job.cadence.Tame job.dueAt) (inStep : job.InStep policy true annals) (running : job.state = .running) :
    job'.InStep policy false (marks ++ annals) := by
  have live := inStep.live running
  cases h with
  | succeeded hr =>
    rw [List.append_assoc]
    exact hr.inStep tame (inStep.success running) live rfl fun hs => by cases hs
  | retried allowed => exact inStep.retried running allowed _ _ _ _
  | exhausted spent hr =>
    rw [List.append_assoc]
    obtain ⟨inStep, spent⟩ := inStep.exhausted running spent _ _ now
    exact hr.inStep tame inStep live rfl fun _ => spent
  | stuck _ hd => exact inStep.stuck running hd _ _

/-- No more attempts were retried than began, and if one is under way or the job has failed, fewer. -/
structure Job.Trails (job : Job) (underWay : Bool) (annals : List Mark) : Prop where
  retries : job.retries ≤ (presentChapter annals).countP Mark.isStart
  tried : underWay = true ∨ job.state = .failed → job.retries + 1 ≤ (presentChapter annals).countP Mark.isStart

theorem Recurrence.trails {fate : Fate} (h : Recurrence job marks job' fate)
    (tried : job.retries + 1 ≤ (presentChapter annals).countP Mark.isStart) : job'.Trails false (marks ++ annals) := by
  cases h with
  | ended => exact ⟨Nat.le_of_succ_le tried, fun _ => tried⟩
  | again => exact ⟨by simp [Job.nextOn], by simp [Job.nextOn]⟩
  | stuck => exact ⟨Nat.le_of_succ_le tried, fun _ => tried⟩

theorem Sequel.trails {ending : Ending} {fate : Fate} (h : Sequel policy now job ending marks job' fate)
    (trails : job.Trails true annals) : job'.Trails false (marks ++ annals) := by
  have tried := trails.tried (.inl rfl)
  have noted : ∀ {mark : Mark}, mark.dueAt? = none → mark.isStart = false →
      (presentChapter (mark :: annals)).countP Mark.isStart = (presentChapter annals).countP Mark.isStart :=
    fun hm hs => by rw [presentChapter_cons _ hm, List.countP_cons_of_neg (by simp [hs])]
  cases h with
  | succeeded hr =>
    rw [List.append_assoc]
    exact hr.trails (by rw [List.singleton_append, noted rfl rfl]; exact tried)
  | @retried _ _ retryAt =>
    rw [List.singleton_append]
    refine ⟨by rw [noted rfl rfl]; simpa [Job.retriedAt, Job.failedWith] using tried, ?_⟩
    cases retryAt <;> simp [Job.retriedAt]
  | exhausted _ hr =>
    rw [List.append_assoc]
    exact hr.trails (by rw [List.singleton_append, noted rfl rfl]; exact tried)
  | stuck => exact ⟨trails.retries, fun _ => tried⟩

/-- A job has used up no more retries than it was granted. -/
def Job.Within (job : Job) : Prop := ∀ most, job.limit = .limited most → job.retries ≤ most.toNat

theorem Recurrence.within {fate : Fate} (h : Recurrence job marks job' fate) (within : job.Within) : job'.Within := by
  cases h with
  | ended => exact within
  | again =>
    intro most hl
    simp [Job.nextOn]
  | stuck => exact within

theorem Sequel.within {ending : Ending} {fate : Fate} (h : Sequel policy now job ending marks job' fate)
    (within : job.Within) : job'.Within := by
  cases h with
  | succeeded hr => exact hr.within within
  | @retried kind message retryAt allowed =>
    intro most hl
    have limit : job.limit = .limited most := by simpa [Job.retriedAt, Job.failedWith] using hl
    rw [limit] at allowed
    have left : job.retries < most.toNat := by simpa [RetryLimit.allows] using allowed
    have retries : ((job.failedWith kind message now).retriedAt retryAt).retries = job.retries + 1 := by
      simp [Job.retriedAt, Job.failedWith]
    rw [retries]
    exact left
  | exhausted _ hr => exact hr.within within
  | stuck => exact within

/-- A job that was promoted after it had failed, and whose attempt has not begun. -/
structure Job.Resumed (job : Job) (underWay : Bool) : Prop where
  idle : underWay = false
  state : job.state = .enqueued ∨ job.state = .running ∨ job.state = .cancelled

/-- Until its attempt begins, such a job is as it was when it was promoted. -/
theorem Job.Resumed.tallies (h : job'.Resumed underWay) (tallies : job.Tallies policy false annals)
    (retries : job'.retries = job.retries) (failures : job'.failures = job.failures) (limit : job'.limit = job.limit) :
    job'.Tallies policy underWay annals := by
  cases h.idle
  refine ⟨?_, ?_, ?_, ?_, ?_, fun hs => ?_⟩
  · rw [retries]; exact tallies.retries
  · rw [retries]; exact tallies.attempts
  · rw [failures]; exact tallies.failures
  · rw [retries, limit]; exact tallies.limited
  · rw [limit]; exact tallies.unlimited
  · rcases h.state with h | h | h <;> rw [h] at hs <;> cases hs

end

/-! ## One step -/

section

variable {supply : Supply} {policy : RetryPolicy} {now : Instant} {l : Ledger} {action : Action} {job job' : Job}
  {annals marks : List Mark} {underWay underWay' : Bool}

/-- Whether an attempt is under way before a passage of its job and after it. -/
structure Ledger.Watches (l : Ledger) (job : Job) (underWay : Bool) (marks : List Mark) (job' : Job) (underWay' : Bool) :
    Prop where
  sound : l.Sound
  known : l.job? job.id = some job
  before : underWay = true ↔ job.id ∈ l.flying
  after : underWay' = true ↔ marks = [.started] ∨ underWay = true ∧ job'.state = .running

theorem Ledger.Watches.running (h : l.Watches job underWay marks job' underWay') (hu : underWay = true) :
    job.state = .running :=
  h.sound.manned.running h.known (Multiset.mem_add.2 (.inr (Multiset.mem_coe.2 (h.before.1 hu))))

theorem Ledger.Watches.idle (h : l.Watches job underWay marks job' underWay') (hs : job.state ≠ .running) :
    underWay = false :=
  Bool.eq_false_iff.2 fun hu => hs (h.running hu)

/-- Where nothing is noted, an attempt is under way as long as its job runs. -/
theorem Ledger.Watches.quiet (h : l.Watches job underWay [] job' underWay')
    (hs : underWay = true → job'.state = .running) : underWay' = underWay := by
  rw [Bool.eq_iff_iff, h.after]
  constructor
  · rintro (he | hu)
    · cases he
    · exact hu.1
  · exact fun hu => .inr ⟨hu, hs hu⟩

theorem Ledger.Watches.stopped (h : l.Watches job underWay marks job' underWay') (hm : marks ≠ [.started])
    (hs : job'.state ≠ .running) : underWay' = false :=
  Bool.eq_false_iff.2 fun hu => (h.after.1 hu).elim hm fun hr => hs hr.2

/-- The attempt of a job that is concluded was under way, and is so no longer. -/
theorem Ledger.Watches.concluded {task : TaskId} {ending : Ending} {fate : Fate}
    (h : l.Watches job underWay marks job' underWay') (flies : (task, job.id) ∈ l.inFlight)
    (sequel : Sequel policy now job ending marks job' fate) : underWay = true ∧ underWay' = false := by
  refine ⟨h.before.2 (List.mem_map.2 ⟨_, flies, rfl⟩), h.stopped (fun he => ?_) sequel.not_running⟩
  rw [he] at sequel
  exact sequel.not_started (List.mem_singleton_self _)

theorem Ledger.Watches.waited (h : l.Watches job underWay marks job' underWay') (hl : job.id ∈ l.launched) :
    underWay = false ∧ job.state = .running :=
  ⟨Bool.eq_false_iff.2 fun hu => h.sound.manned.not_flying hl (h.before.1 hu),
    h.sound.manned.running h.known (Ledger.mem_executions_of_launched hl)⟩

/-- A job that changes its state without running has no attempt under way before or after. -/
theorem Ledger.Watches.waits (h : l.Watches job underWay [] job' underWay') (hs : job.state ≠ .running) :
    underWay = false ∧ underWay' = false := by
  have idle := h.idle hs
  refine ⟨idle, ?_⟩
  rw [← idle]
  exact h.quiet fun hu => absurd (hu.symm.trans idle) (by simp)

/-- A passage leaves a job in step, unless it promotes it after it has failed. -/
theorem Passage.inStep (h : Passage supply policy now l job action marks job')
    (watches : l.Watches job underWay marks job' underWay')
    (fresh : action = .promotion → l.inHand.head? = some job.id → job.state ≠ .failed)
    (inStep : job.InStep policy underWay annals) : job'.InStep policy underWay' (marks ++ annals) := by
  -- a job that waits has not been done with
  have live : ∀ {state : State}, job.state = state → state.isStopped = false → job.finished = true → False :=
    fun hs hn hf => by
      have := inStep.ended hf
      rw [hs, hn] at this
      cases this
  cases h with
  | stays =>
    rw [watches.quiet watches.running]
    exact inStep
  | promoted hand state =>
    have failed := fresh rfl hand
    obtain ⟨rfl, rfl⟩ := watches.waits fun hr => by rw [hr] at state; cases state
    refine inStep.moved rfl rfl rfl ⟨fun hs => ?_, failed⟩ ⟨by simp, by simp⟩ fun hf => ?_
    · rw [hs] at state; cases state
    · exact absurd (State.failed_of_stopped (inStep.ended hf) state) failed
  | hurried state =>
    obtain ⟨rfl, rfl⟩ := watches.waits (by simp [state])
    exact inStep.moved rfl rfl rfl (by simp [state]) (by simp) fun hf => (live state rfl hf).elim
  | cancelled state =>
    obtain ⟨rfl, rfl⟩ := watches.waits fun hr => by rw [hr] at state; cases state
    refine inStep.moved rfl rfl rfl ⟨fun hs => ?_, fun hs => ?_⟩ (by simp) fun _ => rfl
    · rw [hs] at state; cases state
    · rw [hs] at state; cases state
  | launched state =>
    obtain ⟨rfl, rfl⟩ := watches.waits (by simp [state])
    exact inStep.moved rfl rfl rfl (by simp [state]) (by simp) fun hf => (live state rfl hf).elim
  | begun waited =>
    obtain ⟨rfl, running⟩ := watches.waited waited
    rw [watches.after.2 (.inl rfl)]
    exact inStep.begun running _
  | givenUp waited =>
    obtain ⟨rfl, running⟩ := watches.waited waited
    rw [watches.stopped (by simp) (by simp [Job.givenUp, Job.failedWith])]
    exact inStep.givenUp running now
  | concluded flies sequel =>
    obtain ⟨rfl, rfl⟩ := watches.concluded flies sequel
    exact sequel.inStep (watches.sound.tame _ _ watches.known) inStep (watches.running rfl)

theorem Job.Trails.moved (h : job.Trails underWay annals) (retries : job'.retries = job.retries)
    (state : job'.state ≠ .failed) : job'.Trails false annals :=
  ⟨retries ▸ h.retries, fun hs => absurd (hs.resolve_left (by simp)) state⟩

theorem Job.Trails.tries (h : job.Trails underWay annals) (retries : job'.retries = job.retries) (mark : Mark)
    (hm : mark.dueAt? = none) (hs : mark.isStart = true) : job'.Trails underWay' (mark :: annals) := by
  have := h.retries
  constructor
  · rw [presentChapter_cons _ hm, List.countP_cons_of_pos hs, retries]; omega
  · intro _
    rw [presentChapter_cons _ hm, List.countP_cons_of_pos hs, retries]; omega

/-- However a job passes, its retries trail its attempts. -/
theorem Passage.trails (h : Passage supply policy now l job action marks job')
    (watches : l.Watches job underWay marks job' underWay') (trails : job.Trails underWay annals) :
    job'.Trails underWay' (marks ++ annals) := by
  cases h with
  | stays =>
    rw [watches.quiet watches.running]
    exact trails
  | promoted _ state =>
    obtain ⟨-, rfl⟩ := watches.waits fun hr => by rw [hr] at state; cases state
    exact trails.moved rfl (by simp)
  | hurried state =>
    obtain ⟨-, rfl⟩ := watches.waits (by simp [state])
    exact trails.moved rfl (by simp)
  | cancelled state =>
    obtain ⟨-, rfl⟩ := watches.waits fun hr => by rw [hr] at state; cases state
    exact trails.moved rfl (by simp)
  | launched state =>
    obtain ⟨-, rfl⟩ := watches.waits (by simp [state])
    exact trails.moved rfl (by simp)
  | @begun performer =>
    have retries : (job.bind performer).retries = job.retries := rfl
    exact trails.tries retries .started rfl rfl
  | givenUp =>
    have retries : (job.givenUp now).retries = job.retries := rfl
    exact trails.tries retries .abandoned rfl rfl
  | concluded flies sequel =>
    obtain ⟨rfl, rfl⟩ := watches.concluded flies sequel
    exact sequel.trails trails

/-- A resumed job is as it was, but for its state, until its attempt begins. -/
structure Job.Rests (job job' : Job) : Prop where
  retries : job'.retries = job.retries
  failures : job'.failures = job.failures
  limit : job'.limit = job.limit

theorem Passage.resumed (h : Passage supply policy now l job action marks job')
    (watches : l.Watches job underWay marks job' underWay') (resumed : job.Resumed underWay)
    (waits : action = .begin job.id → job.id ∉ l.launched) : marks = [] ∧ job'.Resumed underWay' ∧ job.Rests job' := by
  have idle := resumed.idle
  subst idle
  cases h with
  | stays =>
    rw [watches.quiet watches.running]
    exact ⟨rfl, resumed, rfl, rfl, rfl⟩
  | promoted _ state => rcases resumed.state with hs | hs | hs <;> rw [hs] at state <;> cases state
  | hurried state => rcases resumed.state with hs | hs | hs <;> rw [hs] at state <;> cases state
  | cancelled state =>
    exact ⟨rfl, ⟨(watches.waits fun hr => by rw [hr] at state; cases state).2, .inr (.inr rfl)⟩, rfl, rfl, rfl⟩
  | launched state => exact ⟨rfl, ⟨(watches.waits (by simp [state])).2, .inr (.inl rfl)⟩, rfl, rfl, rfl⟩
  | begun waited => exact absurd waited (waits rfl)
  | givenUp waited => exact absurd waited (waits rfl)
  | concluded flies sequel => exact absurd (watches.concluded flies sequel).1 (by simp)

/-- However a job passes, its retries stay within its limit: whether one more is allowed is asked
before it is counted, also of a job that was promoted after it had failed. -/
theorem Passage.within (h : Passage supply policy now l job action marks job') (within : job.Within) : job'.Within := by
  cases h with
  | concluded _ sequel => exact sequel.within within
  | _ => exact within

/-- No failure is ever forgotten or changed. -/
theorem Passage.failures_prefix (h : Passage supply policy now l job action marks job') :
    job.failures <+: job'.failures := by
  cases h with
  | givenUp => exact List.prefix_append ..
  | concluded _ sequel =>
    cases sequel with
    | succeeded hr => exact ⟨[], by rw [hr.failures_eq, List.append_nil]⟩
    | retried => simp [Job.retriedAt, Job.failedWith]
    | exhausted _ hr => rw [hr.failures_eq]; exact List.prefix_append ..
    | stuck => exact List.prefix_append ..
  | _ => exact List.prefix_rfl

end

end Rota
