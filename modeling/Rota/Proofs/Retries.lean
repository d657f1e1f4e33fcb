/-
The retries of a job. In every run they stay within its limit and no failure is forgotten. The failures
are a block of attempt numbers for each occurrence, unless the promotion loop still holds the job when
it has failed, and it is tried again.
-/
import Rota.Proofs.Attempts
import Rota.Proofs.Finality

namespace Rota

namespace Scheduler

/-- Whether an attempt of the job is under way. -/
def underWay (s : Scheduler) (id : JobId) : Bool := decide (id ∈ s.board.inFlight.ids)

/-- What holds of the job, if it is known, with its annals. -/
def OfJob (s : Scheduler) (id : JobId) (P : Job → Bool → List Mark → Prop) : Prop :=
  ∀ job, s.board.job? id = some job → P job (s.underWay id) (s.board.annals id)

/-- The retries and failures of the job agree with its limit and its annals. -/
def Tallies (s : Scheduler) (id : JobId) : Prop := s.OfJob id fun job => job.Tallies s.policy

/-- The job, if it is known, has used up no more retries than it was granted. -/
def Within (s : Scheduler) (id : JobId) : Prop := s.OfJob id fun job _ _ => job.Within

/-- What the job remembers of its failures is still so, in the same order. -/
def Remembers (s s' : Scheduler) (id : JobId) : Prop :=
  ∀ job, s.board.job? id = some job → ∃ job', s'.board.job? id = some job' ∧ job.failures <+: job'.failures

/-- The promotion loop is about to promote a job that has failed since it was taken. -/
structure Reopens (s : Scheduler) (id : JobId) : Prop where
  next : s.inHand.head? = some id
  failed : ∃ job, s.board.job? id = some job ∧ job.state = .failed

/-- A job is promoted after it has failed, and later an attempt of it begins. -/
def TriesAgain (s : Scheduler) (id : JobId) (actions : List (Instant × Action)) : Prop :=
  ∃ before now between now' after, actions = before ++ (now, .promotion) :: between ++ (now', .begin id) :: after ∧
    (s.run before).Reopens id ∧ id ∈ (s.run (before ++ (now, .promotion) :: between)).launched

variable {s s₀ : Scheduler} {now : Instant} {action : Action} {id : JobId} {job : Job}
  {P : Job → Bool → List Mark → Prop}

/-- A known job passes by an action, and its attempts are watched. -/
theorem act_passage (hs : s.Sound) (legal : action.Legal s) (now : Instant) (hj : s.board.job? id = some job) :
    ∃ marks job', Passage s.supply s.policy now s.ledger job action marks job' ∧
      s.ledger.Watches job (s.underWay id) marks job' ((s.act now action).underWay id) ∧
      (s.act now action).board.job? id = some job' ∧ (s.act now action).board.annals id = marks ++ s.board.annals id := by
  have step : s.Step now action _ := act_step hs legal
  obtain ⟨marks, job', passage, hj', ha⟩ := step.effect.passage hj
  have hj' : (s.act now action).board.job? id = some job' := hj'
  have ha : (s.act now action).board.annals id = marks ++ s.board.annals id := ha
  refine ⟨marks, job', passage, ?_, hj', ha⟩
  cases Board.job?_id hj
  refine ⟨hs.ledger, hj, decide_eq_true_iff, ?_⟩
  have flying := step.effect.flying_iff hs.ledger job.id
  rw [underWay, decide_eq_true_iff, underWay, decide_eq_true_iff]
  refine flying.trans (or_congr ?_ (and_congr .rfl ?_))
  · show (s.act now action).board.annals job.id = [.started] ++ s.board.annals job.id ↔ _
    rw [ha, List.append_cancel_right_eq]
  · show (∃ job₁, (s.act now action).board.job? job.id = some job₁ ∧ job₁.state = .running) ↔ _
    rw [hj']
    simp

/-- What holds of a job as it is accepted, and is kept by its passage, holds of it after an action. -/
theorem OfJob.act (h : s.OfJob id P) (hs : s.Sound) (legal : action.Legal s)
    (new : ∀ (plan : Plan) work number fate state, Waits fate state → P (plan.job id work number state) false [])
    (kept : ∀ job marks job' underWay', s.board.job? id = some job →
      Passage s.supply s.policy now s.ledger job action marks job' →
      s.ledger.Watches job (s.underWay id) marks job' underWay' → P job (s.underWay id) (s.board.annals id) →
      P job' underWay' (marks ++ s.board.annals id)) : (s.act now action).OfJob id P := by
  intro job' hj'
  cases hj : s.board.job? id with
  | some job =>
    obtain ⟨marks, job₁, passage, watches, hj₁, ha⟩ := act_passage hs legal now hj
    cases hj₁.symm.trans hj'
    rw [ha]
    exact kept job marks job' _ hj passage watches (h job hj)
  | none =>
    have step : s.Step now action _ := act_step hs legal
    obtain ⟨ha, hn⟩ := step.effect.turns_up hj
    have ha : (s.act now action).board.annals id = s.board.annals id := ha
    rcases hn with hn | ⟨_, work, _, plan, number, fate, state, -, -, -, waits, hn⟩
    · cases hn.symm.trans hj'
    · cases hn.symm.trans hj'
      have idle : (s.act now action).underWay id = false := by
        refine decide_eq_false fun hf => ?_
        have := (step.effect.manned hs.ledger).running hj' (Multiset.mem_add.2 (.inr (Multiset.mem_coe.2 hf)))
        cases waits <;> cases this
      have unheard : s.board.annals id = [] := hs.ledger.unheard id hj
      rw [ha, unheard, idle]
      exact new plan work number fate state waits

theorem inStep_new (policy : RetryPolicy) {fate : Fate} {state : State} (waits : Waits fate state) (plan : Plan) (id : JobId)
    (work : Work) (number : Nat) : (plan.job id work number state).InStep policy false [] := by
  refine ⟨rfl, ?_, ?_, rfl, fun most hl => ⟨Nat.zero_le _, ?_⟩, fun hl => (by simp), fun hs => ?_, fun hf => by cases hf⟩
  · cases waits <;> rfl
  · cases waits <;> rfl
  · intro chapter hc; cases hc
  · cases waits <;> cases hs

/-- A job stays in step, unless it is promoted after it has failed. -/
theorem inStep_act {policy : RetryPolicy} (hs : s.Sound) (legal : action.Legal s) (hp : s.policy = policy)
    (h : s.OfJob id (·.InStep policy)) (fresh : action = .promotion → ¬ s.Reopens id) :
    (s.act now action).OfJob id (·.InStep policy) := by
  subst hp
  refine h.act hs legal (fun plan work number fate state waits => inStep_new _ waits plan id work number) ?_
  intro job marks job' underWay' hj passage watches inStep
  cases Board.job?_id hj
  exact passage.inStep watches (fun ha hand hf => fresh ha ⟨hand, job, hj, hf⟩) inStep

theorem trails_act (hs : s.Sound) (legal : action.Legal s) (h : s.OfJob id Job.Trails) :
    (s.act now action).OfJob id Job.Trails := by
  refine h.act hs legal (fun plan work number fate state waits => ⟨Nat.zero_le _, fun hs => ?_⟩) ?_
  · rcases hs with hs | hs
    · cases hs
    · cases waits <;> cases hs
  · exact fun job marks job' underWay' hj passage watches trails => passage.trails watches trails

theorem within_act (hs : s.Sound) (legal : action.Legal s) (h : s.Within id) : (s.act now action).Within id := by
  refine OfJob.act (P := fun job _ _ => job.Within) h hs legal (fun _ _ _ _ _ _ _ _ => Nat.zero_le _) ?_
  exact fun _ _ _ _ _ passage _ within => passage.within within

/-- The promotion of a job that has failed resumes it. -/
theorem Reopens.resumes (h : s.Reopens id) (hs : s.Sound) (now : Instant) :
    ∃ job job', s.board.job? id = some job ∧ job.state = .failed ∧ s.underWay id = false ∧
      (s.act now .promotion).board.job? id = some job' ∧ job'.Resumed ((s.act now .promotion).underWay id) ∧ job.Rests job' ∧
      (s.act now .promotion).board.annals id = s.board.annals id := by
  obtain ⟨hand, job, hj, state⟩ := h
  have legal : Action.promotion.Legal s := trivial
  have hq : (s.act now .promotion).board.job? id = _ := promotion_job? hj hand (by rw [state]; rfl)
  obtain ⟨marks, job', passage, watches, hj', ha⟩ := act_passage hs legal now hj
  have quiet : marks = [] := by cases passage <;> rfl
  subst quiet
  cases hq.symm.trans hj'
  exact ⟨job, _, hj, state, watches.idle (by simp [state]), hj', ⟨watches.stopped (by simp) (by simp), .inl rfl⟩,
    ⟨rfl, rfl, rfl⟩, ha⟩

/-- While no attempt of it begins, a resumed job stays as it was, but for its state. -/
theorem resumed_run (hs : s.Sound) {grain : Grain} {actions : List (Instant × Action)} (ha : s.Allows grain actions)
    (hj : s.board.job? id = some job) (resumed : job.Resumed (s.underWay id))
    (waits : ∀ before now after, actions = before ++ (now, .begin id) :: after → id ∉ (s.run before).launched) :
    ∃ job', (s.run actions).board.job? id = some job' ∧ job'.Resumed ((s.run actions).underWay id) ∧ job.Rests job' ∧
      (s.run actions).board.annals id = s.board.annals id := by
  induction actions generalizing s job with
  | nil => exact ⟨job, hj, resumed, ⟨rfl, rfl, rfl⟩, rfl⟩
  | cons x rest ih =>
    obtain ⟨now, action⟩ := x
    obtain ⟨marks, job₁, passage, watches, hj₁, he⟩ := act_passage hs ha.1.legal now hj
    cases Board.job?_id hj
    obtain ⟨rfl, resumed₁, rests₁⟩ := passage.resumed watches resumed fun hb hl => by
      subst hb
      exact waits [] now rest rfl (Multiset.mem_coe.1 hl)
    obtain ⟨job', hj', resumed', rests', he'⟩ := ih (act_sound hs ha.1.legal) ha.2 hj₁ resumed₁ fun before now' after hb =>
      waits ((now, action) :: before) now' after (by rw [hb]; rfl)
    exact ⟨job', hj', resumed', ⟨rests'.retries.trans rests₁.retries, rests'.failures.trans rests₁.failures,
      rests'.limit.trans rests₁.limit⟩, he'.trans he⟩

/-- An attempt of a job that has made all its retries already is one too many. -/
theorem begin_not_tallies (hs : s.Sound) (hj : s.board.job? id = some job) (hl : id ∈ s.launched)
    (tried : job.retries + 1 ≤ (presentChapter (s.board.annals id)).countP Mark.isStart) (now : Instant) :
    ¬ (s.act now (.begin id)).Tallies id := by
  intro tallies
  have legal : (Action.begin id).Legal s := trivial
  obtain ⟨marks, job', passage, -, hj', ha⟩ := act_passage hs legal now hj
  obtain ⟨mark, hm, he⟩ := begin_annals hs hl
  have he : (s.act now (.begin id)).board.annals id = _ := he
  have hd : mark.dueAt? = none := by rcases hm with rfl | rfl <;> rfl
  have hstart : mark.isStart = true := by rcases hm with rfl | rfl <;> rfl
  have retries : job'.retries = job.retries := by cases passage <;> rfl
  have := (tallies job' hj').attempts
  rw [he, presentChapter_cons _ hd, List.countP_cons_of_pos hstart, retries] at this
  omega

/-! ## Runs -/

section

variable {grain : Grain} {actions : List (Instant × Action)}

theorem remembers_run (hs : s.Sound) (ha : s.Allows grain actions) (id : JobId) : s.Remembers (s.run actions) id := by
  intro job hj
  refine run_keeps (P := fun job' _ => job.failures <+: job'.failures) ?_ hs ha hj List.prefix_rfl
  intro _ _ _ _ _ _ _ _ _ passage kept
  exact kept.trans passage.failures_prefix

theorem within_run (hs : s.Sound) (ha : s.Allows grain actions) (h : s.Within id) : (s.run actions).Within id :=
  run_always (P := (·.Within id)) (fun _ _ _ hs legal h => within_act hs legal h) hs ha h

/-- Unless the job is tried again after it has failed, its retries and failures agree with its limit. -/
theorem tallies_run {policy : RetryPolicy} (hs : s.Sound) (ha : s.Allows grain actions) (hp : s.policy = policy)
    (h : s.OfJob id (·.InStep policy)) (once : ¬ s.TriesAgain id actions) : (s.run actions).Tallies id := by
  induction actions generalizing s with
  | nil =>
    intro job hj
    rw [show (s.run []).policy = policy from hp]
    exact (h job hj).tallies
  | cons x rest ih =>
    obtain ⟨now, action⟩ := x
    have hs' : (s.act now action).Sound := act_sound hs ha.1.legal
    -- once it is resumed it never tries again, so that the rest of the run is still; else it stays in step
    by_cases hr : action = .promotion ∧ s.Reopens id
    · obtain ⟨rfl, reopens⟩ := hr
      obtain ⟨job, job₁, hj, -, idle, hj₁, resumed, rests, he⟩ := reopens.resumes hs now
      obtain ⟨job', hj', resumed', rests', he'⟩ := resumed_run hs' ha.2 hj₁ resumed fun before now' after hb hl =>
        once ⟨[], now, before, now', after, by rw [hb]; rfl, reopens, hl⟩
      intro job₂ hj₂
      cases hj'.symm.trans hj₂
      have tallies := (h job hj).tallies
      have policy_eq : (s.run ((now, .promotion) :: rest)).policy = policy := (run_policy hs ha).trans hp
      have annals : (s.run ((now, .promotion) :: rest)).board.annals id = s.board.annals id := he'.trans he
      rw [idle] at tallies
      rw [policy_eq, annals]
      exact resumed'.tallies tallies (rests'.retries.trans rests.retries) (rests'.failures.trans rests.failures)
        (rests'.limit.trans rests.limit)
    · refine ih hs' ha.2 ((act_policy hs ha.1.legal).trans hp) ?_ ?_
      · exact inStep_act hs ha.1.legal hp h fun hpr reopens => hr ⟨hpr, reopens⟩
      · rintro ⟨before, now₁, between, now₂, after, he, reopens, hl⟩
        exact once ⟨(now, action) :: before, now₁, between, now₂, after, by rw [he]; rfl, reopens, hl⟩

theorem trails_run (hs : s.Sound) (ha : s.Allows grain actions) (h : s.OfJob id Job.Trails) :
    (s.run actions).OfJob id Job.Trails :=
  run_always (P := (·.OfJob id Job.Trails)) (fun _ _ _ hs legal h => trails_act hs legal h) hs ha h

/-- As long as its retries tally, a resumed job waits. -/
theorem resumed_waits (hs : s.Sound) (ha : s.Allows grain actions) (hj : s.board.job? id = some job)
    (resumed : job.Resumed (s.underWay id))
    (tried : job.retries + 1 ≤ (presentChapter (s.board.annals id)).countP Mark.isStart)
    (tallies : ∀ before after, actions = before ++ after → (s.run before).Tallies id) (n : Nat) :
    ∀ before now after, before.length = n → actions = before ++ (now, .begin id) :: after →
      id ∉ (s.run before).launched := by
  -- by strong induction on when the attempt begins: before that no other has begun
  induction n using Nat.strong_induction_on with
  | _ n ih =>
    rintro before now after rfl he hl
    have hb : s.Allows grain before := by
      rw [he, allows_append] at ha
      exact ha.1
    obtain ⟨job', hj', -, rests, annals⟩ := resumed_run hs hb hj resumed fun first now' later hf =>
      ih first.length (by rw [hf]; simp) first now' (later ++ (now, .begin id) :: after) rfl (by rw [he, hf]; simp)
    have := tallies (before ++ [(now, .begin id)]) after (by rw [he]; simp)
    rw [run_append] at this
    exact begin_not_tallies (run_sound hs hb) hj' hl (by rw [rests.retries, annals]; exact tried) now this

/-- If a job is tried again after it has failed, its retries do not tally throughout. -/
theorem not_triesAgain (hs : s.Sound) (ha : s.Allows grain actions) (h : s.OfJob id Job.Trails)
    (tallies : ∀ before after, actions = before ++ after → (s.run before).Tallies id) : ¬ s.TriesAgain id actions := by
  rintro ⟨before, now, between, now', after, rfl, reopens, hl⟩
  rw [List.append_assoc, allows_append] at ha
  obtain ⟨hb, -, ha⟩ := ha
  have hs' : (s.run before).Sound := run_sound hs hb
  obtain ⟨job, job₁, hj, state, -, hj₁, resumed, rests, annals⟩ := reopens.resumes hs' now
  -- a job that has failed has begun more attempts than it was granted retries
  have tried := (trails_run hs hb h job hj).tried (.inr state)
  have hs₁ : ((s.run before).act now .promotion).Sound := act_sound hs' trivial
  rw [run_append] at hl
  refine resumed_waits hs₁ ha hj₁ resumed (by rw [rests.retries, annals]; exact tried) ?_ between.length between now'
    after rfl rfl hl
  intro first last he
  have he : between ++ (now', .begin id) :: after = first ++ last := he
  have := tallies (before ++ (now, .promotion) :: first) last (by rw [List.append_assoc, List.cons_append, he]; simp)
  rw [run_append] at this
  exact this

end

/-- In every run the retries of a job stay within its limit and no failure is forgotten; and its attempts
and failures agree with them in just those runs in which it is not tried again after it has failed for good. -/
theorem tallies_iff {number : Nat} {settings : Settings} (h₀ : start number settings = .ok s₀)
    {actions : List (Instant × Action)} (ha : s₀.Allows .fine actions) (id : JobId) :
    (∀ before after, actions = before ++ after →
        (s₀.run before).Within id ∧ (s₀.run before).Remembers (s₀.run actions) id) ∧
      ((∀ before after, actions = before ++ after → (s₀.run before).Tallies id) ↔ ¬ s₀.TriesAgain id actions) := by
  have hs : s₀.Sound := start_sound h₀
  have unknown : ∀ P, s₀.OfJob id P := by
    unfold start at h₀
    split at h₀ <;> cases h₀
    intro P job hj
    cases hj
  refine ⟨?_, ?_, ?_⟩
  · rintro before after rfl
    obtain ⟨hb, hafter⟩ := (allows_append ..).1 ha
    refine ⟨within_run hs hb (unknown _), ?_⟩
    rw [run_append]
    exact remembers_run (run_sound hs hb) hafter id
  · exact fun h => not_triesAgain hs ha (unknown _) h
  · rintro once before after rfl
    obtain ⟨hb, -⟩ := (allows_append ..).1 ha
    refine tallies_run hs hb rfl (unknown _) ?_
    rintro ⟨first, now, between, now', last, rfl, reopens, hl⟩
    exact once ⟨first, now, between, now', last ++ after, by simp, reopens, hl⟩

/-- After a job has failed for good it is promoted late, and fails again. -/
def triedAgain : List (Instant × Action) :=
  overtaken ++ [.promotion, .dispatch true, .dispatch true, .dispatch true, .dispatch true, .begin ⟨1⟩,
    .conclude ⟨1⟩ (.failed .panic "")].map (.afterSecond, ·)

theorem triedAgain_allowed : single.Allows .fine triedAgain := by
  refine (allows_append ..).2 ⟨overtaken_allowed, ?_⟩
  exact .of_not_brings rfl

/-- Without a retry it has made two attempts, and both failures have the same number. -/
theorem triedAgain_not_tallies :
    single.Allows .fine triedAgain ∧
      ((single.run triedAgain).board.job? ⟨1⟩).map (fun job => (job.limit, job.failures.map (·.attempt))) =
        some (.limited 0, [1, 1]) ∧
      ¬ (single.run triedAgain).Tallies ⟨1⟩ := by
  refine ⟨triedAgain_allowed, by decide +kernel, fun tallies => ?_⟩
  have limit : ((single.run triedAgain).board.job? ⟨1⟩).map (·.limit) = some (.limited 0) := by decide +kernel
  have attempts : (presentChapter ((single.run triedAgain).board.annals ⟨1⟩)).countP Mark.isStart = 2 := by decide +kernel
  obtain ⟨job, hj, hl⟩ := Option.map_eq_some_iff.1 limit
  have := ((tallies job hj).limited 0 hl).2.1 _ (by rw [chapters_eq]; exact List.mem_cons_self ..)
  rw [attempts] at this
  exact absurd this (by decide)

/-- A job that may be retried once fails twice. -/
def retriedOnce : List (Instant × Action) :=
  [.plain 1 (.after .zero) (.limited 1), .dispatch true, .dispatch true, .dispatch true, .dispatch true, .begin ⟨1⟩,
    .conclude ⟨0⟩ (.failed .panic ""), .dispatch true, .dispatch true, .dispatch true, .dispatch true, .begin ⟨1⟩,
    .conclude ⟨1⟩ (.failed .panic "")].map (.epoch, ·)

theorem retriedOnce_allowed : single.Allows .fine retriedOnce := by
  refine ⟨Action.fits_plain (by decide +kernel), ?_⟩
  exact .of_not_brings rfl

theorem tallies_iff_retriedOnce :
    ((single.run retriedOnce).board.job? ⟨1⟩).map (fun job => (job.retries, job.failures.map (·.attempt))) =
        some (1, [1, 2]) ∧
      (∀ before after, retriedOnce = before ++ after →
        (single.run before).Within ⟨1⟩ ∧ (single.run before).Remembers (single.run retriedOnce) ⟨1⟩) ∧
      ((∀ before after, retriedOnce = before ++ after → (single.run before).Tallies ⟨1⟩) ↔
        ¬ single.TriesAgain ⟨1⟩ retriedOnce) :=
  ⟨by decide +kernel, tallies_iff start_single retriedOnce_allowed ⟨1⟩⟩

end Scheduler

end Rota
