/-
Whether a job that is done with stays as it is. It does, unless the promotion loop still holds it from
when it was last due: a job that has failed meanwhile is then moved to the lineup once more.
-/
import Rota.Proofs.Steps

namespace Rota

namespace Scheduler

/-- Between two points of a run a job that was done with has stayed so, in the same state, and it has no
execution. -/
def Final (id : JobId) (s s' : Scheduler) : Prop :=
  ∀ job, s.board.job? id = some job → job.finished = true →
    (∃ job', s'.board.job? id = some job' ∧ job'.finished = true ∧ job'.state = job.state) ∧
      id ∉ s'.launched ∧ id ∉ s'.board.inFlight.ids

/-- The promotion loop is about to promote a job that has failed for good since it was taken. -/
structure Revives (s : Scheduler) (id : JobId) (action : Action) : Prop where
  promotion : action = .promotion
  next : s.inHand.head? = some id
  failed : ∃ job, s.board.job? id = some job ∧ job.state = .failed ∧ job.finished = true

end Scheduler

/-! ## One step -/

theorem State.not_cancellable_of_stopped {state : State} (hs : state.isStopped = true) :
    state.canBecome .cancelled = false := by
  cases state <;> simp_all [State.isStopped, State.canBecome]

theorem Recurrence.stopped {job job' : Job} {marks : List Mark} {fate : Fate} (h : Recurrence job marks job' fate)
    (hs : job.state.isStopped = true) (hf : job.finished = false) (hf' : job'.finished = true) :
    job'.state.isStopped = true := by
  cases h with
  | ended => exact hs
  | again => simp [Job.nextOn, hf] at hf'
  | stuck => exact hs

theorem Sequel.stopped {policy : RetryPolicy} {now : Instant} {job job' : Job} {ending : Ending} {marks : List Mark}
    {fate : Fate} (h : Sequel policy now job ending marks job' fate) (hf : job.finished = false)
    (hf' : job'.finished = true) : job'.state.isStopped = true := by
  cases h with
  | succeeded h => exact h.stopped rfl hf hf'
  | retried => simp [Job.retriedAt, Job.failedWith, hf] at hf'
  | exhausted _ h => exact h.stopped rfl hf hf'
  | stuck => rfl

section

variable {supply : Supply} {policy : RetryPolicy} {now : Instant} {l : Ledger} {action : Action} {job job' : Job}
  {marks : List Mark}

/-- A job is not done with unless it has stopped. -/
theorem Passage.stopped (h : Passage supply policy now l job action marks job') (hf : job.finished = false)
    (hf' : job'.finished = true) : job'.state.isStopped = true := by
  cases h with
  | cancelled => rfl
  | givenUp => rfl
  | concluded _ sequel => exact sequel.stopped hf hf'
  | _ => exact absurd (hf.symm.trans hf') (by simp)

/-- A job that has stopped and is done with changes only if it has failed and is promoted. -/
theorem Passage.final (h : Passage supply policy now l job action marks job') (hm : l.Manned)
    (known : l.job? job.id = some job) (hs : job.state.isStopped = true) :
    job' = job ∨ action = .promotion ∧ l.inHand.head? = some job.id ∧ job.state = .failed := by
  obtain ⟨-, move⟩ := h.move hm known (by rintro he; rw [he] at hs; cases hs)
  cases move with
  | stays => exact .inl rfl
  | promoted hand state => exact .inr ⟨rfl, hand, State.failed_of_stopped hs state⟩
  | hurried state => rw [state] at hs; cases hs
  | cancelled state => rw [State.not_cancellable_of_stopped hs] at state; cases state
  | launched state => rw [state] at hs; cases hs

end

namespace Scheduler

/-- A job that is done with has stopped. -/
def Stopped (s : Scheduler) (id : JobId) : Prop :=
  ∀ job, s.board.job? id = some job → job.finished = true → job.state.isStopped = true

variable {s s₀ : Scheduler} {now : Instant} {action : Action} {id : JobId}

/-- A job that does not run has no execution. -/
theorem Sound.idle (hs : s.Sound) {job : Job} (hj : s.board.job? id = some job) (state : job.state ≠ .running) :
    id ∉ s.launched ∧ id ∉ s.board.inFlight.ids := by
  have idle : id ∉ s.ledger.executions := fun he => state (hs.ledger.manned.running hj he)
  constructor
  · intro hl
    exact idle (Ledger.mem_executions_of_launched (Multiset.mem_coe.2 hl))
  · intro hl
    exact idle (Multiset.mem_add.2 (.inr (Multiset.mem_coe.2 hl)))

theorem Stopped.final (h : s.Stopped id) (hs : s.Sound) : Final id s s := by
  intro job hj hf
  refine ⟨⟨job, hj, hf, rfl⟩, hs.idle hj ?_⟩
  intro running
  have stopped := h job hj hf
  rw [running] at stopped
  cases stopped

/-- Unless it revives the job, an action leaves it as it is once it is done with. -/
theorem Stopped.act (h : s.Stopped id) (hs : s.Sound) (legal : action.Legal s) (hr : ¬ s.Revives id action) :
    (s.act now action).Stopped id ∧ ∀ job, s.board.job? id = some job → job.finished = true →
      ∃ job', (s.act now action).board.job? id = some job' ∧ job'.finished = true ∧ job'.state = job.state := by
  have step : s.Step now action _ := act_step hs legal
  have kept : ∀ job, s.board.job? id = some job → job.finished = true → (s.act now action).board.job? id = some job := by
    intro job hj hf
    obtain ⟨marks, job', passage, hj', -⟩ := step.effect.passage hj
    cases Board.job?_id hj
    rcases passage.final hs.ledger.manned hj (h job hj hf) with he | ⟨ha, hand, state⟩
    · exact hj'.trans (congrArg some he)
    · exact absurd ⟨ha, hand, job, hj, state, hf⟩ hr
  refine ⟨fun job' hj' hf' => ?_, fun job hj hf => ⟨job, kept job hj hf, hf, rfl⟩⟩
  cases hj : s.board.job? id with
  | none =>
    rcases (step.effect.turns_up hj).2 with hn | ⟨_, _, _, plan, _, _, _, -, -, -, -, hn⟩
    · exact absurd (hn.symm.trans hj') (by simp)
    · cases hn.symm.trans hj'
      cases hf'
  | some job =>
    by_cases hf : job.finished = true
    · cases (kept job hj hf).symm.trans hj'
      exact h _ hj hf
    · obtain ⟨marks, job₁, passage, hj₁, -⟩ := step.effect.passage hj
      cases hj₁.symm.trans hj'
      exact passage.stopped (by simpa using hf) hf'

/-- A failed job that is promoted is not as it was. -/
theorem Revives.not_final (h : s.Revives id action) (now : Instant) : ¬ Final id s (s.act now action) := by
  obtain ⟨rfl, hand, job, hj, state, hf⟩ := h
  intro final
  obtain ⟨⟨job', hj', -, state'⟩, -⟩ := final job hj hf
  cases (promotion_job? hj hand (by rw [state]; rfl)).symm.trans hj'
  rw [state] at state'
  cases state'

/-! ## Runs -/

/-- As long as nothing revives it, a job stays as it was once it is done with. -/
theorem Stopped.run (h : s.Stopped id) (hs : s.Sound) {grain : Grain} {actions : List (Instant × Action)}
    (ha : s.Allows grain actions)
    (hr : ∀ before now action after, actions = before ++ (now, action) :: after → ¬ (s.run before).Revives id action) :
    (s.run actions).Stopped id ∧ Final id s (s.run actions) := by
  induction actions generalizing s with
  | nil => exact ⟨h, h.final hs⟩
  | cons x rest ih =>
    obtain ⟨now, action⟩ := x
    obtain ⟨fits, ha⟩ := ha
    have hs' : (s.act now action).Sound := act_sound hs fits.legal
    obtain ⟨h', kept⟩ := h.act hs fits.legal (hr [] now action rest rfl)
    obtain ⟨stopped, final⟩ := ih h' hs' ha fun before now' action' after he =>
      hr ((now, action) :: before) now' action' after (by rw [he]; rfl)
    refine ⟨stopped, fun job hj hf => ?_⟩
    obtain ⟨job', hj', hf', state'⟩ := kept job hj hf
    obtain ⟨⟨job'', hj'', hf'', state''⟩, idle⟩ := final job' hj' hf'
    exact ⟨⟨job'', hj'', hf'', state''.trans state'⟩, idle⟩

/-- A job that is done with stays as it is, and is not executed again, in just those runs in which it is
never promoted after it has failed for good. -/
theorem final_iff {number : Nat} {settings : Settings} (h₀ : start number settings = .ok s₀)
    {actions : List (Instant × Action)} (ha : s₀.Allows .fine actions) (id : JobId) :
    (∀ before between after, actions = before ++ between ++ after →
        Final id (s₀.run before) (s₀.run (before ++ between))) ↔
      ∀ before now action after, actions = before ++ (now, action) :: after →
        ¬ (s₀.run before).Revives id action := by
  have hs : s₀.Sound := start_sound h₀
  have stopped : s₀.Stopped id := by
    unfold start at h₀
    split at h₀ <;> cases h₀
    intro job hj
    cases hj
  constructor
  · intro final before now action after he revives
    refine revives.not_final now ?_
    have := final before [(now, action)] after (by rw [he, List.append_assoc]; rfl)
    rwa [run_append] at this
  · intro hr before between after he
    rw [he, List.append_assoc, allows_append, allows_append] at ha
    obtain ⟨hb, hbetween, -⟩ := ha
    -- first from the start to the one point, then from there to the other
    have hbefore := (stopped.run hs hb fun pre now action post hp =>
      hr pre now action (post ++ between ++ after) (by rw [he, hp]; simp)).1
    rw [run_append]
    refine (hbefore.run (run_sound hs hb) hbetween fun pre now action post hp => ?_).2
    rw [← run_append]
    exact hr (before ++ pre) now action (post ++ after) (by rw [he, hp]; simp)

/-- A job comes due and is taken in hand; then it is performed early, fails for good and is done with. -/
def overtaken : List (Instant × Action) :=
  (.epoch, .plain 1 (.after .second) (.limited 0)) ::
    [.promotion, .performNow ⟨1⟩, .dispatch true, .dispatch true, .dispatch true, .dispatch true, .begin ⟨1⟩,
      .conclude ⟨0⟩ (.failed .panic "")].map (.afterSecond, ·)

theorem overtaken_allowed : single.Allows .fine overtaken := by
  refine ⟨Action.fits_plain (by decide +kernel), ?_⟩
  exact .of_not_brings rfl

/-- The promotion loop goes on with the job in its hand, and the job waits for a slot once more. -/
theorem late_promotion_revives :
    single.Allows .fine (overtaken ++ [(.epoch, .promotion)]) ∧
      ∃ job, (single.run overtaken).board.job? ⟨1⟩ = some job ∧ job.finished = true ∧
        ¬ Final ⟨1⟩ (single.run overtaken) (single.run (overtaken ++ [(.epoch, .promotion)])) := by
  refine ⟨(allows_append ..).2 ⟨overtaken_allowed, ⟨trivial, nofun⟩, trivial⟩, ?_⟩
  have revives : (single.run overtaken).Revives ⟨1⟩ .promotion := by
    have failed : ((single.run overtaken).board.job? ⟨1⟩).map (fun job => (job.state, job.finished)) =
        some (.failed, true) := by decide +kernel
    obtain ⟨job, hj, he⟩ := Option.map_eq_some_iff.1 failed
    exact ⟨rfl, by decide +kernel, job, hj, congrArg Prod.fst he, congrArg Prod.snd he⟩
  obtain ⟨job, hj, -, hf⟩ := revives.failed
  refine ⟨job, hj, hf, ?_⟩
  rw [run_append]
  exact revives.not_final .epoch

theorem final_iff_overtaken :
    (∀ before between after, overtaken = before ++ between ++ after →
        Final ⟨1⟩ (single.run before) (single.run (before ++ between))) ↔
      ∀ before now action after, overtaken = before ++ (now, action) :: after →
        ¬ (single.run before).Revives ⟨1⟩ action :=
  final_iff start_single overtaken_allowed ⟨1⟩

end Scheduler

end Rota
