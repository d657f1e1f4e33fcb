/-
The due times of a job. They are the ones that its plan alone determines, in that order, whatever the
attempts come to and whenever they are made; and each of them but the last was seen to just once.
-/
import Rota.Proofs.Steps

namespace Rota

/-! ## Due times that follow from a plan -/

namespace Cadence

/-- From a cadence and a due time, some due times lead to what is left of it and to the last of them. -/
inductive Leads (cadence : Cadence) (due : Instant) : List Instant → Cadence → Instant → Prop
  | refl : Leads cadence due [] cadence due
  | snoc {dues : List Instant} {left rest : Cadence} {last later : Instant} (h : Leads cadence due dues left last)
    (hn : left.next last = .ok (some later, rest)) : Leads cadence due (dues ++ [later]) rest later

variable {cadence left rest : Cadence} {due last later : Instant} {dues : List Instant}

theorem following_succ (hn : cadence.next due = .ok (some later, rest)) (most : Nat) :
    cadence.following (most + 1) due = (rest.following most later).map (later :: ·) := by
  simp only [following, hn, bind, Except.bind]
  cases rest.following most later <;> rfl

theorem following_of_next_none (hn : cadence.next due = .ok (none, rest)) (most : Nat) :
    cadence.following most due = .ok [] := by
  cases most with
  | zero => rfl
  | succ most =>
    simp only [following, hn, bind, Except.bind]
    rfl

/-- A cadence that comes to its end is left as it is. -/
theorem rest_of_next_none (hn : cadence.next due = .ok (none, rest)) : rest = cadence := by
  cases cadence with
  | never => cases hn; rfl
  | periodic interval =>
    unfold next at hn
    exact (congrArg Prod.snd (Except.ok.inj hn)).symm
  | dates remaining =>
    cases remaining with
    | nil => cases hn; rfl
    | cons date later => cases hn
  | cron schedule =>
    cases ht : schedule.next due with
    | error fault => simp [next, ht, Except.map] at hn
    | ok t => simp [next, ht, Except.map] at hn; exact hn.2.symm

theorem Leads.following (h : cadence.Leads due dues left last) (most : Nat) :
    cadence.following (dues.length + most) due = (left.following most last).map (dues ++ ·) := by
  induction h generalizing most with
  | refl =>
    rw [List.length_nil, Nat.zero_add]
    cases cadence.following most due <;> rfl
  | @snoc dues left rest last later _ hn ih =>
    rw [List.length_append, List.length_singleton, Nat.add_assoc, Nat.add_comm 1, ih, following_succ hn]
    cases rest.following most later with
    | error fault => rfl
    | ok found => simp [Except.map]

theorem Leads.sequence (h : cadence.Leads due dues left last) : cadence.following dues.length due = .ok dues := by
  have := h.following 0
  simpa [Cadence.following, Except.map] using this

theorem Leads.exhausted (h : cadence.Leads due dues left last) (hn : left.next last = .ok (none, rest)) (most : Nat) :
    cadence.following (dues.length + most) due = .ok dues := by
  rw [h.following, following_of_next_none hn]
  simp [Except.map]

theorem Leads.last_eq (h : cadence.Leads due dues left last) : dues.getLastD due = last := by
  cases h with
  | refl => rfl
  | snoc => simp

end Cadence

/-! ## One job -/

/-- The job has no further occurrence. -/
def Job.Last (job : Job) : Prop := ∃ rest, job.cadence.next job.dueAt = .ok (none, rest)

/-- What the annals of a job tell of its occurrences: where its plan has led, that each earlier one came
to one outcome that stands, and that the present one has none unless it is the last. -/
structure Job.Occurs (plan : Plan) (job : Job) (annals : List Mark) : Prop where
  leads : plan.cadence.Leads plan.dueAt (dueTimes annals) job.cadence job.dueAt
  past : ∀ chapter ∈ earlierChapters annals, chapter.countP Mark.isFinal = 1
  present : (presentChapter annals).countP Mark.isFinal = 0 ∨ job.Last
  ended : job.finished = true → job.state = .cancelled ∨ .abandoned ∈ annals ∨ job.Last

section

variable {plan : Plan} {job job' : Job} {annals marks : List Mark}

theorem Job.Last.of_eq (h : job.Last) (cadence : job'.cadence = job.cadence) (dueAt : job'.dueAt = job.dueAt) :
    job'.Last := by
  unfold Job.Last at h ⊢
  rwa [cadence, dueAt]

/-- A change of state leaves the occurrences as they are. -/
theorem Job.Occurs.same (h : job.Occurs plan annals) (cadence : job'.cadence = job.cadence)
    (dueAt : job'.dueAt = job.dueAt)
    (ended : job'.finished = true → job'.state = .cancelled ∨ .abandoned ∈ annals ∨ job'.Last) :
    job'.Occurs plan annals where
  leads := by rw [cadence, dueAt]; exact h.leads
  past := h.past
  present := h.present.imp_right (·.of_eq cadence dueAt)
  ended := ended

/-- So does whatever is noted that is neither an outcome that stands nor a change of due time. -/
theorem Job.Occurs.note (h : job.Occurs plan annals) {mark : Mark} (hm : mark.dueAt? = none) (hf : mark.isFinal = false)
    (cadence : job'.cadence = job.cadence) (dueAt : job'.dueAt = job.dueAt)
    (ended : job'.finished = true → job'.state = .cancelled ∨ .abandoned ∈ mark :: annals ∨ job'.Last) :
    job'.Occurs plan (mark :: annals) := by
  refine ⟨?_, ?_, ?_, ended⟩
  · rw [dueTimes_cons hm, cadence, dueAt]; exact h.leads
  · rw [earlierChapters_cons _ hm]; exact h.past
  · rw [presentChapter_cons _ hm, List.countP_cons_of_neg (by simp [hf])]
    exact h.present.imp_right (·.of_eq cadence dueAt)

/-- After an outcome that stands, the cadence leads to the next occurrence, or there is none. -/
theorem Recurrence.occurs {fate : Fate} (h : Recurrence job marks job' fate) (tame : job.cadence.Tame job.dueAt)
    (leads : plan.cadence.Leads plan.dueAt (dueTimes annals) job.cadence job.dueAt)
    (past : ∀ chapter ∈ earlierChapters annals, chapter.countP Mark.isFinal = 1)
    (present : (presentChapter annals).countP Mark.isFinal = 1 ∨ job.Last)
    (ended : job.finished = true → .abandoned ∈ annals ∨ job.Last) : job'.Occurs plan (marks ++ annals) := by
  cases h with
  | @ended rest hn =>
    cases Cadence.rest_of_next_none hn
    exact ⟨leads, past, .inr ⟨_, hn⟩, fun _ => .inr (.inr ⟨_, hn⟩)⟩
  | @again due rest hn =>
    -- there is a next due time, so the chapter that is closed holds an outcome that stands
    have more : ¬ job.Last := fun ⟨_, hl⟩ => by cases hl.symm.trans hn
    refine ⟨?_, ?_, .inl rfl, fun hf => .inr (.inl ?_)⟩
    · show plan.cadence.Leads plan.dueAt (dueTimes (.rescheduled due :: annals)) _ _
      rw [dueTimes_rescheduled]
      simpa [Job.nextOn] using leads.snoc hn
    · show ∀ chapter ∈ earlierChapters (.rescheduled due :: annals), _
      rw [earlierChapters_rescheduled]
      exact List.forall_mem_cons.2 ⟨present.resolve_right more, past⟩
    · have hf : job.finished = true := by simpa [Job.nextOn] using hf
      exact List.mem_cons_of_mem _ ((ended hf).resolve_right more)
  | stuck hn =>
    obtain ⟨answer, he⟩ := tame.next_ok
    cases he.symm.trans hn

/-- The end of an attempt keeps the occurrences of its job in order. -/
theorem Sequel.occurs {policy : RetryPolicy} {now : Instant} {ending : Ending} {fate : Fate}
    (h : Sequel policy now job ending marks job' fate) (occurs : job.Occurs plan annals) (running : job.state = .running)
    (tame : job.cadence.Tame job.dueAt) : job'.Occurs plan (marks ++ annals) := by
  have ended : job.finished = true → .abandoned ∈ annals ∨ job.Last := fun hf =>
    (occurs.ended hf).resolve_left (by rw [running]; simp)
  -- what an outcome that stands adds to the present chapter
  have final : ∀ {mark : Mark} {job₀ : Job} {marks : List Mark}, Recurrence job₀ marks job' fate → mark.dueAt? = none →
      mark.isFinal = true → job₀.cadence = job.cadence → job₀.dueAt = job.dueAt → job₀.finished = job.finished →
      job'.Occurs plan (marks ++ mark :: annals) := by
    intro mark job₀ marks hr hm hf cadence dueAt finished
    refine hr.occurs (by rw [cadence, dueAt]; exact tame) ?_ ?_ ?_ ?_
    · rw [dueTimes_cons hm, cadence, dueAt]; exact occurs.leads
    · rw [earlierChapters_cons _ hm]; exact occurs.past
    · rw [presentChapter_cons _ hm, List.countP_cons_of_pos hf]
      exact occurs.present.imp (fun hz => by omega) (·.of_eq cadence dueAt)
    · intro hfin
      rw [finished] at hfin
      exact (ended hfin).imp (List.mem_cons_of_mem _) (·.of_eq cadence dueAt)
  cases h with
  | succeeded hr =>
    rw [List.append_assoc]
    exact final hr rfl rfl rfl rfl rfl
  | @retried _ _ retryAt =>
    have kept : ∀ job₁ : Job, (job₁.retriedAt retryAt).cadence = job₁.cadence ∧
        (job₁.retriedAt retryAt).dueAt = job₁.dueAt ∧ (job₁.retriedAt retryAt).finished = job₁.finished :=
      fun job₁ => by simp [Job.retriedAt]
    obtain ⟨cadence, dueAt, finished⟩ := kept (job.failedWith _ _ now)
    refine occurs.note rfl rfl cadence dueAt fun hf => .inr ?_
    exact (ended (finished.symm.trans hf)).imp (List.mem_cons_of_mem _) (·.of_eq cadence dueAt)
  | exhausted _ hr =>
    rw [List.append_assoc]
    exact final hr rfl rfl rfl rfl rfl
  | stuck => exact occurs.same rfl rfl fun hf => .inr (ended hf)

/-- Whatever becomes of a job, its occurrences stay in order. -/
theorem Passage.occurs {supply : Supply} {policy : RetryPolicy} {now : Instant} {l : Ledger} {action : Action}
    (h : Passage supply policy now l job action marks job') (sound : l.Sound) (known : l.job? job.id = some job)
    (occurs : job.Occurs plan annals) : job'.Occurs plan (marks ++ annals) := by
  cases h with
  | stays => exact occurs
  | promoted _ state =>
    refine occurs.same rfl rfl fun hf => .inr ((occurs.ended hf).resolve_left fun hc => ?_)
    rw [hc] at state; cases state
  | hurried state =>
    refine occurs.same rfl rfl fun hf => .inr ((occurs.ended hf).resolve_left fun hc => ?_)
    rw [hc] at state; cases state
  | cancelled => exact occurs.same rfl rfl fun _ => .inl rfl
  | launched state =>
    refine occurs.same rfl rfl fun hf => .inr ((occurs.ended hf).resolve_left fun hc => ?_)
    rw [hc] at state; cases state
  | begun =>
    refine occurs.note rfl rfl rfl rfl fun hf => ?_
    exact (occurs.ended hf).imp_right (·.imp_left (List.mem_cons_of_mem _))
  | givenUp => exact occurs.note rfl rfl rfl rfl fun _ => .inr (.inl (List.mem_cons_self ..))
  | concluded flies sequel =>
    have running := sound.manned.running known (Ledger.mem_executions_of_inFlight flies)
    exact sequel.occurs occurs running (sound.tame _ _ known)

end

/-- Whether no due time follows those that the annals tell of. -/
def Plan.Exhausted (plan : Plan) (annals : List Mark) : Prop :=
  ∀ most, plan.cadence.following ((dueTimes annals).length + most) plan.dueAt = .ok (dueTimes annals)

/-- A job follows its plan. -/
structure Job.Follows (plan : Plan) (job : Job) (annals : List Mark) : Prop where
  /-- After its first due time it has had the first of those that the plan determines, and no others. -/
  sequence : plan.cadence.following (dueTimes annals).length plan.dueAt = .ok (dueTimes annals)
  dueAt : job.dueAt = (dueTimes annals).getLastD plan.dueAt
  /-- Every occurrence before the present one came to one outcome that stands. -/
  past : ∀ chapter ∈ earlierChapters annals, chapter.countP Mark.isFinal = 1
  present : (presentChapter annals).countP Mark.isFinal = 0 ∨ plan.Exhausted annals
  ended : job.finished = true → job.state = .cancelled ∨ .abandoned ∈ annals ∨ plan.Exhausted annals

theorem Job.Occurs.follows {plan : Plan} {job : Job} {annals : List Mark} (h : job.Occurs plan annals) :
    job.Follows plan annals := by
  have last : job.Last → plan.Exhausted annals := fun ⟨_, hn⟩ => h.leads.exhausted hn
  exact ⟨h.leads.sequence, h.leads.last_eq.symm, h.past, h.present.imp_right last,
    fun hf => (h.ended hf).imp_right (·.imp_right last)⟩

/-! ## Runs -/

namespace Scheduler

end Scheduler

end Rota
