/-
Who has a job, and how many jobs there are. However the actions of a run interleave, the outstanding jobs are
those not done with, the jobs with an execution are those that run, each with one, and a census shows the jobs in
the timetable, in the lineup and in flight, each as often as it stands there.
-/
import Rota.Census
import Rota.Proofs.Steps

namespace Rota

namespace Ledger

/-- The jobs that are not done with. -/
def live (l : Ledger) : Nat := l.jobs.countP (!·.finished)

end Ledger

/-! ## The count of live jobs -/

theorem countP_put {jobs : List Job} {job job' : Job} (p : Job → Bool) (hn : (jobs.map (·.id)).Nodup) (hm : job ∈ jobs)
    (hi : job'.id = job.id) :
    (jobs.map fun j => if j.id = job'.id then job' else j).countP p + (p job).toNat = jobs.countP p + (p job').toNat := by
  induction jobs with
  | nil => cases hm
  | cons j jobs ih =>
    rw [List.map_cons, List.nodup_cons] at hn
    rw [List.map_cons, List.countP_cons, List.countP_cons]
    rcases List.mem_cons.1 hm with rfl | hm
    -- the job is the first, and no other has its number
    · have hj : (jobs.map fun j => if j.id = job'.id then job' else j) = jobs := by
        refine (List.map_congr_left fun j hj => if_neg fun he => hn.1 ?_).trans (List.map_id _)
        exact List.mem_map.2 ⟨j, hj, he.trans hi⟩
      rw [hj, if_pos hi.symm]
      cases p job <;> cases p job' <;> simp
    · have hj : j.id ≠ job'.id := fun he => hn.1 (List.mem_map.2 ⟨job, hm, (he.trans hi).symm⟩)
      have := ih hn.2 hm
      rw [if_neg hj]
      omega

section

variable {l l' : Ledger} {id : JobId} {job job' : Job}

namespace Ledger

theorem live_put (hn : (l.jobs.map (·.id)).Nodup) (jobs : l'.jobs = (l.put job').jobs) (known : l.job? id = some job)
    (hi : job'.id = job.id) : l'.live + (!job.finished).toNat = l.live + (!job'.finished).toNat := by
  unfold live
  rw [jobs]
  exact countP_put (fun j => !j.finished) hn (List.mem_of_find?_eq_some known) hi

/-- As long as it is not done with by a change, a job is counted as before. -/
theorem outstanding_kept (hn : (l.jobs.map (·.id)).Nodup) (jobs : l'.jobs = (l.put job').jobs)
    (known : l.job? id = some job) (hi : job'.id = job.id) (hf : job'.finished = job.finished)
    (ho : l.outstanding = .ofNat l.live) : l.outstanding = .ofNat l'.live := by
  have counted := live_put hn jobs known hi
  rw [hf] at counted
  rw [ho, Nat.add_right_cancel counted]

/-- A job that is done with now is counted no more, unless it was done with before. -/
theorem outstanding_discount (hn : (l.jobs.map (·.id)).Nodup) (known : l.job? id = some job) {ended : Bool}
    (hf : job'.finished = (job.finished || ended)) (hi : job'.id = job.id) (jobs : l'.jobs = (l.put job').jobs)
    (ho : l.outstanding = .ofNat l.live) :
    (if !ended || job.finished then l.outstanding else l.outstanding - 1) = .ofNat l'.live := by
  cases hd : !ended || job.finished with
  | true =>
    have kept : job'.finished = job.finished := by
      rw [hf]
      cases ended <;> simp_all
    exact outstanding_kept hn jobs known hi kept ho
  | false =>
    have counted := live_put hn jobs known hi
    simp only [Bool.or_eq_false_iff, Bool.not_eq_false'] at hd
    rw [hf, hd.1, hd.2] at counted
    simp only [Bool.or_true, Bool.not_false, Bool.not_true, Bool.toNat_true, Bool.toNat_false] at counted
    rw [if_neg (by decide), ho, show l.live = l'.live + 1 by omega]
    simp

/-- A job that is not known stands nowhere. -/
theorem Sound.absent (hs : l.Sound) (unknown : l.job? id = none) :
    l.waiting.count id = 0 ∧ l.inHand.count id = 0 ∧ l.lineup.count id = 0 ∧ l.chosen.count id = 0 := by
  have hn : ¬ (l.job? id).isSome := by rw [unknown]; simp
  refine ⟨Multiset.count_eq_zero.2 ?_, List.count_eq_zero.2 ?_, Multiset.count_eq_zero.2 ?_, List.count_eq_zero.2 ?_⟩
  · exact fun h => hn (hs.held id (.inl h))
  · exact fun h => hn (hs.held id (.inr (.inl h)))
  · exact fun h => hn (hs.held id (.inr (.inr (.inl h))))
  · exact fun h => hn (hs.held id (.inr (.inr (.inr h))))

end Ledger

end

/-- A job that has come to its end is done with. -/
theorem Recurrence.finished_eq {job job' : Job} {marks : List Mark} {fate : Fate} (h : Recurrence job marks job' fate) :
    job'.finished = (job.finished || decide (fate = Fate.ended)) := by
  cases h <;> simp [Job.nextOn]

theorem Sequel.finished_eq {policy : RetryPolicy} {now : Instant} {job job' : Job} {ending : Ending} {marks : List Mark}
    {fate : Fate} (h : Sequel policy now job ending marks job' fate) :
    job'.finished = (job.finished || decide (fate = Fate.ended)) := by
  cases h with
  | succeeded h => exact h.finished_eq
  | @retried _ _ retryAt => cases retryAt <;> simp [Job.retriedAt, Job.failedWith]
  | exhausted _ h => exact h.finished_eq
  | stuck => simp [Job.failedWith]

namespace Effect

open Ledger

variable {supply : Supply} {policy : RetryPolicy} {now : Instant} {l l' : Ledger} {action : Action}

/-- The count of outstanding jobs keeps step with the jobs. -/
theorem outstanding (h : Effect supply policy now l action l') (hs : l.Sound) (ho : l.outstanding = .ofNat l.live) :
    l'.outstanding = .ofNat l'.live := by
  cases h with
  | @accepted made id work request plan number fate state unknown planned tame waits =>
    have fresh : (plan.job id work number state).finished = false := rfl
    unfold live
    rw [send_outstanding, send_jobs, List.countP_append]
    simp only [List.countP_singleton, fresh, Bool.not_false, if_true]
    rw [ho]
    exact (UInt64.ofNat_add ..).symm
  | promoted hand known => exact outstanding_kept (l := l) hs.distinct rfl known rfl rfl ho
  | hurried known => exact outstanding_kept (l := l) hs.distinct rfl known rfl rfl ho
  | @cancelled id job known =>
    have off : ({ job with state := .cancelled, finished := true } : Job).finished = (job.finished || true) := by simp
    exact outstanding_discount (l := l) hs.distinct known off rfl rfl ho
  | launched hand known => exact outstanding_kept (l := l) hs.distinct rfl known rfl rfl ho
  | begun waited known => exact outstanding_kept (l := l) hs.distinct rfl known rfl rfl ho
  | @givenUp id job waited known =>
    have off : (job.givenUp now).finished = (job.finished || true) := by simp [Job.givenUp]
    exact outstanding_discount (l := l) hs.distinct known off rfl rfl ho
  | @concluded task id ending job job' marks fate flies known sequel =>
    have sent : ∀ l₁ : Ledger, (l₁.send id fate).outstanding = l₁.outstanding := fun l₁ => send_outstanding l₁ id fate
    have counted := outstanding_discount (l := l) hs.distinct known sequel.finished_eq sequel.id_eq rfl ho
    rw [← decide_not] at counted
    simp only [discount, sent]
    exact counted.trans (by simp [live, note])
  | _ => exact ho

end Effect

/-! ## Runs -/

namespace Scheduler

variable {s : Scheduler}

/-- Wherever a run leads, the outstanding jobs are those not done with. -/
theorem Reached.outstanding {grain : Grain} (h : s.Reached grain) : s.ledger.outstanding = .ofNat s.ledger.live := by
  refine (h.induct (P := fun s => s.Sound ∧ s.ledger.outstanding = .ofNat s.ledger.live) ?_ ?_).2
  · intro number settings s h₀
    refine ⟨start_sound h₀, ?_⟩
    cases start_eq h₀
    rfl
  · rintro s now action ⟨sound, counted⟩ fits
    have step : s.Step now action _ := act_step sound fits.legal
    exact ⟨act_sound sound fits.legal, step.effect.outstanding sound.ledger counted⟩

end Scheduler

/-! ## Executions and censuses -/

namespace Scheduler

variable {s : Scheduler}

theorem Sound.inFlight_nodup (hs : s.Sound) : s.board.inFlight.ids.Nodup :=
  Multiset.coe_nodup.1 (Multiset.nodup_add.1 hs.ledger.manned.nodup).2.1

/-- Jobs that are known are shown each in its turn. -/
theorem ids_shown {board : Board} {ids : List JobId} (known : ∀ id ∈ ids, (board.job? id).isSome) :
    ((ids.filterMap board.job?).map Job.view).map JobView.id = ids := by
  induction ids with
  | nil => rfl
  | cons id ids ih =>
    rw [List.forall_mem_cons] at known
    obtain ⟨job, hj⟩ := Option.isSome_iff_exists.1 known.1
    rw [List.filterMap_cons_some hj, List.map_cons, List.map_cons, ih known.2]
    exact congrArg (· :: ids) (Board.job?_id hj)

/-- A census shows whoever is in the timetable, in the lineup or in flight. -/
theorem Sound.census_ids (hs : s.Sound) (now : Instant) :
    (s.census now).scheduled.map (·.id) = s.board.timetable.ids ∧
      (s.census now).enqueued.map (·.id) = s.board.lineup.ids ∧
      (s.census now).running.map (·.id) = s.board.inFlight.ids := by
  refine ⟨ids_shown fun id hm => hs.ledger.held id (.inl hm),
    ids_shown fun id hm => hs.ledger.held id (.inr (.inr (.inl hm))), ids_shown fun id hm => ?_⟩
  have he : id ∈ s.ledger.executions := Multiset.mem_add.2 (.inr (Multiset.mem_coe.2 hm))
  obtain ⟨job, hj, -⟩ := (hs.ledger.manned.runs id).1 he
  exact Option.isSome_iff_exists.2 ⟨job, hj⟩

theorem Sound.census_size (hs : s.Sound) (now : Instant) :
    (s.census now).size = (s.board.timetable.ids ++ s.board.lineup.ids ++ s.board.inFlight.ids).length := by
  obtain ⟨scheduled, enqueued, running⟩ := hs.census_ids now
  rw [← scheduled, ← enqueued, ← running]
  simp [Census.size, Nat.add_assoc]

/-- On the one slot a job runs; another waits for it, a third has yet to come due and a fourth is cancelled. -/
def busy : List (Instant × Action) :=
  [.plain 1 (.after .zero) (.limited 0), .dispatch true, .dispatch true, .dispatch true, .dispatch true, .begin ⟨1⟩,
    .plain 2 (.after .zero) (.limited 0), .plain 3 (.after .second) (.limited 0), .plain 4 (.after .second) (.limited 0),
    .cancel ⟨4⟩, .promotion, .promotion, .promotion, .promotion, .promotion, .promotion, .dispatch true].map (.epoch, ·)

theorem busy_allowed : single.Allows .coarse busy := by
  refine ⟨Action.fits_plain (by decide +kernel), ?_⟩
  refine ⟨⟨trivial, nofun⟩, ⟨trivial, nofun⟩, ⟨trivial, nofun⟩, ⟨trivial, nofun⟩, ⟨trivial, nofun⟩, ?_⟩
  refine ⟨Action.fits_plain (by decide +kernel), Action.fits_plain (by decide +kernel),
    Action.fits_plain (by decide +kernel), ⟨trivial, nofun⟩, ?_⟩
  exact ⟨⟨trivial, nofun⟩, ⟨trivial, nofun⟩, ⟨trivial, nofun⟩, ⟨trivial, nofun⟩, ⟨trivial, nofun⟩, ⟨trivial, nofun⟩,
    ⟨trivial, nofun⟩, trivial⟩

theorem busy_settled : (single.run busy).Settled :=
  ⟨⟨.epoch, fun loop => by cases loop <;> decide +kernel⟩, by decide +kernel⟩

end Scheduler

end Rota
