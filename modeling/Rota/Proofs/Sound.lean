/-
What holds of every ledger, however the actions of a run interleave: the queues hold known jobs only,
and the jobs that run are those with an execution, each with one. Every effect keeps it.
-/
import Rota.Proofs.Ledger
import Mathlib.Data.Multiset.UnionInter

namespace Rota

namespace Ledger

/-- Whether a job is running. -/
def Runs (l : Ledger) (id : JobId) : Prop := ∃ job, l.job? id = some job ∧ job.state = .running

/-- The executions are those of the running jobs, one for each. -/
structure Manned (l : Ledger) : Prop where
  nodup : l.executions.Nodup
  runs : ∀ id, id ∈ l.executions ↔ l.Runs id

/-- What always holds of a ledger. -/
structure Sound (l : Ledger) : Prop where
  distinct : (l.jobs.map (·.id)).Nodup
  held : ∀ id, id ∈ l.waiting ∨ id ∈ l.inHand ∨ id ∈ l.lineup ∨ id ∈ l.chosen → (l.job? id).isSome
  manned : l.Manned
  tasks : (l.inFlight.map (·.1)).Nodup
  below : ∀ e ∈ l.inFlight, e.1.number < l.nextTask
  unheard : ∀ id, l.job? id = none → l.annals id = []
  begun : ∀ id job, l.job? id = some job → job.state ≠ .notStarted
  tame : ∀ id job, l.job? id = some job → job.cadence.Tame job.dueAt

theorem Manned.running {l : Ledger} (h : l.Manned) {id : JobId} {job : Job} (known : l.job? id = some job)
    (hm : id ∈ l.executions) : job.state = .running := by
  obtain ⟨job₀, h₀, hr⟩ := (h.runs id).1 hm
  cases known.symm.trans h₀
  exact hr

theorem Manned.not_flying {l : Ledger} (h : l.Manned) {id : JobId} (hl : id ∈ l.launched) : id ∉ l.flying := fun hf =>
  Multiset.disjoint_left.1 (Multiset.nodup_add.1 h.nodup).2.2 hl (Multiset.mem_coe.2 hf)

theorem mem_executions_of_launched {l : Ledger} {id : JobId} (h : id ∈ l.launched) : id ∈ l.executions :=
  Multiset.mem_add.2 (.inl h)

theorem mem_executions_of_inFlight {l : Ledger} {task : TaskId} {id : JobId} (h : (task, id) ∈ l.inFlight) :
    id ∈ l.executions :=
  Multiset.mem_add.2 (.inr (Multiset.mem_coe.2 (List.mem_map.2 ⟨_, h, rfl⟩)))

/-! ## Executions -/

section

variable {l l' : Ledger} {id : JobId} {job job' : Job}

/-- After a job has been put in its place, it runs if it does so there, and the others as before. -/
theorem runs_put (jobs : l'.jobs = (l.put job').jobs) (known : l.job? id = some job) (hi : job'.id = job.id) (i : JobId) :
    l'.Runs i ↔ if i = id then job'.state = .running else l.Runs i := by
  unfold Runs
  rw [job?_put jobs known hi]
  by_cases h : i = id
  · simp [h]
  · simp [h]

theorem Manned.same (h : l.Manned) (he : l'.executions = l.executions) (hr : ∀ i, l'.Runs i ↔ l.Runs i) : l'.Manned :=
  ⟨he ▸ h.nodup, fun i => by rw [he, hr]; exact h.runs i⟩

/-- A job that does not run may be put in another state in which it does not. -/
theorem Manned.put (h : l.Manned) (jobs : l'.jobs = (l.put job').jobs) (known : l.job? id = some job)
    (hi : job'.id = job.id) (hs : job'.state = .running ↔ job.state = .running)
    (he : l'.executions = l.executions) : l'.Manned := by
  refine h.same he fun i => ?_
  rw [runs_put jobs known hi]
  by_cases h : i = id
  · subst h; simp [Runs, known, hs]
  · rw [if_neg h]

theorem Manned.launch (h : l.Manned) (jobs : l'.jobs = (l.put job').jobs) (known : l.job? id = some job)
    (hi : job'.id = job.id) (hs : job.state ≠ .running) (hs' : job'.state = .running) (he : l'.executions = id ::ₘ l.executions) :
    l'.Manned := by
  -- a job that does not run yet has no execution
  have hn : id ∉ l.executions := fun hm => hs (h.running known hm)
  refine ⟨he ▸ Multiset.nodup_cons.2 ⟨hn, h.nodup⟩, fun i => ?_⟩
  rw [he, Multiset.mem_cons, runs_put jobs known hi, h.runs]
  by_cases hx : i = id
  · simp [hx, hs']
  · simp [hx]

theorem Manned.leave (h : l.Manned) (jobs : l'.jobs = (l.put job').jobs) (known : l.job? id = some job)
    (hi : job'.id = job.id) (hs' : job'.state ≠ .running) (he : l'.executions = l.executions.erase id) : l'.Manned := by
  refine ⟨he ▸ h.nodup.erase id, fun i => ?_⟩
  rw [he, h.nodup.mem_erase_iff, runs_put jobs known hi, h.runs]
  by_cases hx : i = id
  · simp [hx, hs']
  · simp [hx]

/-- The executions that are left when one ends are the others. -/
theorem flying_filter {task : TaskId} {tasks : List (TaskId × JobId)} (hn : (tasks.map (·.1)).Nodup)
    (hm : (task, id) ∈ tasks) :
    (((tasks.filter fun t => t.1 ≠ task).map (·.2) : List JobId) : Multiset JobId) =
      (↑(tasks.map (·.2)) : Multiset JobId).erase id := by
  have hf : (↑(tasks.filter fun t => t.1 ≠ task) : Multiset (TaskId × JobId)) = (↑tasks : Multiset _).erase (task, id) := by
    rw [Multiset.Nodup.erase_eq_filter _ (Multiset.coe_nodup.2 (List.Nodup.of_map _ hn)), Multiset.filter_coe]
    refine congrArg _ (List.filter_congr fun t ht => ?_)
    -- each execution has its own number
    have : t.1 = task ↔ t = (task, id) :=
      ⟨fun he => List.inj_on_of_nodup_map hn ht hm he, fun he => by rw [he]⟩
    simp [this]
  rw [← Multiset.map_coe, ← Multiset.map_coe, hf]
  exact Multiset.map_erase_of_mem (fun t : TaskId × JobId => t.2) (↑tasks) (Multiset.mem_coe.2 hm)

end

end Ledger

theorem State.failed_of_stopped {state : State} (hs : state.isStopped = true) (he : state.canBecome .enqueued = true) :
    state = .failed := by
  cases state <;> simp_all [State.isStopped, State.canBecome]

theorem Recurrence.not_running {job job' : Job} {marks : List Mark} {fate : Fate} (h : Recurrence job marks job' fate)
    (hs : job.state ≠ .running) : job'.state ≠ .running := by
  cases h with
  | ended => exact hs
  | again => simp [Job.nextOn]
  | stuck => exact hs

theorem Sequel.not_running {policy : RetryPolicy} {now : Instant} {job job' : Job} {ending : Ending} {marks : List Mark}
    {fate : Fate} (h : Sequel policy now job ending marks job' fate) : job'.state ≠ .running := by
  cases h with
  | succeeded h => exact h.not_running (by simp)
  | @retried _ _ retryAt => cases retryAt <;> simp [Job.retriedAt]
  | exhausted _ h => exact h.not_running (by simp [Job.failedWith])
  | stuck => simp [Job.failedWith]

theorem Recurrence.not_notStarted {job job' : Job} {marks : List Mark} {fate : Fate}
    (h : Recurrence job marks job' fate) (hs : job.state ≠ .notStarted) : job'.state ≠ .notStarted := by
  cases h with
  | ended => exact hs
  | again => simp [Job.nextOn]
  | stuck => exact hs

theorem Recurrence.tame {job job' : Job} {marks : List Mark} {fate : Fate} (h : Recurrence job marks job' fate)
    (ht : job.cadence.Tame job.dueAt) : job'.cadence.Tame job'.dueAt := by
  cases h with
  | ended hn => exact ht.next hn
  | again hn =>
    have := ht.next hn
    simpa [Job.nextOn] using this
  | stuck => exact ht

theorem Sequel.not_notStarted {policy : RetryPolicy} {now : Instant} {job job' : Job} {ending : Ending}
    {marks : List Mark} {fate : Fate} (h : Sequel policy now job ending marks job' fate) : job'.state ≠ .notStarted := by
  cases h with
  | succeeded h => exact h.not_notStarted (by simp)
  | @retried _ _ retryAt => cases retryAt <;> simp [Job.retriedAt]
  | exhausted _ h => exact h.not_notStarted (by simp [Job.failedWith])
  | stuck => simp [Job.failedWith]

theorem Recurrence.not_started {job job' : Job} {marks : List Mark} {fate : Fate} (h : Recurrence job marks job' fate) :
    .started ∉ marks := by
  cases h <;> simp

theorem Sequel.not_started {policy : RetryPolicy} {now : Instant} {job job' : Job} {ending : Ending} {marks : List Mark}
    {fate : Fate} (h : Sequel policy now job ending marks job' fate) : .started ∉ marks := by
  cases h with
  | succeeded h => simpa using h.not_started
  | retried => simp
  | exhausted _ h => simpa using h.not_started
  | stuck => simp

theorem Sequel.tame {policy : RetryPolicy} {now : Instant} {job job' : Job} {ending : Ending} {marks : List Mark}
    {fate : Fate} (h : Sequel policy now job ending marks job' fate) (ht : job.cadence.Tame job.dueAt) :
    job'.cadence.Tame job'.dueAt := by
  cases h with
  | succeeded h => exact h.tame ht
  | retried => simpa [Job.retriedAt, Job.failedWith] using ht
  | exhausted _ h => exact h.tame ht
  | stuck => exact ht

theorem Passage.not_notStarted {supply : Supply} {policy : RetryPolicy} {now : Instant} {l : Ledger} {job job' : Job}
    {action : Action} {marks : List Mark} (h : Passage supply policy now l job action marks job')
    (hs : job.state ≠ .notStarted) : job'.state ≠ .notStarted := by
  cases h with
  | stays => exact hs
  | begun => exact hs
  | givenUp => simp [Job.givenUp, Job.failedWith]
  | concluded _ sequel => exact sequel.not_notStarted
  | _ => simp

theorem Passage.tame {supply : Supply} {policy : RetryPolicy} {now : Instant} {l : Ledger} {job job' : Job}
    {action : Action} {marks : List Mark} (h : Passage supply policy now l job action marks job')
    (ht : job.cadence.Tame job.dueAt) : job'.cadence.Tame job'.dueAt := by
  cases h with
  | concluded _ sequel => exact sequel.tame ht
  | _ => exact ht

/-- What may become of a job that does not run: it stays as it is, or goes on to where it waits next. -/
inductive Move (l : Ledger) (job : Job) : Action → Job → Prop
  | stays {action : Action} : Move l job action job
  | promoted (hand : l.inHand.head? = some job.id) (state : job.state.canBecome .enqueued = true) :
    Move l job .promotion { job with state := .enqueued }
  | hurried (state : job.state = .scheduled) : Move l job (.performNow job.id) { job with state := .enqueued }
  | cancelled (state : job.state.canBecome .cancelled = true) :
    Move l job (.cancel job.id) { job with state := .cancelled, finished := true }
  | launched {slotFirst : Bool} (state : job.state = .enqueued) :
    Move l job (.dispatch slotFirst) { job with state := .running, retryAt := none }

/-- A job that does not run has no execution to begin or to end, and nothing is noted of it. -/
theorem Passage.move {supply : Supply} {policy : RetryPolicy} {now : Instant} {l : Ledger} {job job' : Job}
    {action : Action} {marks : List Mark} (h : Passage supply policy now l job action marks job') (hm : l.Manned)
    (known : l.job? job.id = some job) (hs : job.state ≠ .running) : marks = [] ∧ Move l job action job' := by
  have idle : job.id ∉ l.executions := fun he => hs (hm.running known he)
  cases h with
  | stays => exact ⟨rfl, .stays⟩
  | promoted hand state => exact ⟨rfl, .promoted hand state⟩
  | hurried state => exact ⟨rfl, .hurried state⟩
  | cancelled state => exact ⟨rfl, .cancelled state⟩
  | launched state => exact ⟨rfl, .launched state⟩
  | begun waited => exact absurd (Ledger.mem_executions_of_launched waited) idle
  | givenUp waited => exact absurd (Ledger.mem_executions_of_launched waited) idle
  | concluded flies => exact absurd (Ledger.mem_executions_of_inFlight flies) idle

namespace Effect

variable {supply : Supply} {policy : RetryPolicy} {now : Instant} {l l' : Ledger} {action : Action}

open Ledger

theorem manned (h : Effect supply policy now l action l') (hs : l.Sound) : l'.Manned := by
  have hm := hs.manned
  cases h with
  | quiet => exact hm
  | @accepted made id work request plan number fate state unknown planned tame waits =>
    refine hm.same (by simp [executions, flying]) fun i => ?_
    unfold Runs
    rw [job?_append (send_jobs ..) unknown (Plan.job_id plan id work number state)]
    by_cases hi : i = id
    · subst hi
      rw [if_pos rfl, unknown]
      cases waits <;> simp [Plan.job]
    · rw [if_neg hi]
  | taken => exact hm.same rfl fun _ => .rfl
  | promoted _ known state =>
    refine hm.put rfl known rfl ?_ rfl
    refine ⟨fun h => (by cases h), fun h => ?_⟩
    rw [h] at state; cases state
  | passedOver => exact hm.same rfl fun _ => .rfl
  | hurried known state => exact hm.put rfl known rfl (by simp [state]) rfl
  | cancelled known state =>
    refine hm.put rfl known rfl ?_ rfl
    refine ⟨fun h => (by cases h), fun h => ?_⟩
    rw [h] at state; cases state
  | chose => exact hm.same rfl fun _ => .rfl
  | @launched id job _ _ known state =>
    refine hm.launch rfl known rfl (by simp [state]) rfl ?_
    exact Multiset.cons_add id l.launched l.flying
  | notLaunched => exact hm.same rfl fun _ => .rfl
  | @begun id job performer waited known _ =>
    refine hm.put rfl known rfl .rfl ?_
    have hf : (↑((l.inFlight ++ [((⟨l.nextTask⟩ : TaskId), id)]).map (·.2)) : Multiset JobId) = id ::ₘ ↑l.flying := by
      rw [List.map_append, ← Multiset.coe_add, Multiset.add_comm]
      rfl
    show l.launched.erase id + _ = l.launched + ↑l.flying
    unfold flying at hf ⊢
    rw [hf, Multiset.add_cons, ← Multiset.cons_add, Multiset.cons_erase waited]
  | @givenUp id job waited known _ _ =>
    refine hm.leave rfl known rfl (by simp [Job.givenUp, Job.failedWith]) ?_
    exact (Multiset.erase_add_left_pos _ waited).symm
  | @concluded task id ending job job' marks fate flies known sequel =>
    refine hm.leave (by simp [discount, note]) known sequel.id_eq sequel.not_running ?_
    show (Ledger.send _ id fate).launched + ↑((Ledger.send _ id fate).inFlight.map (·.2)) = _
    rw [send_launched, send_inFlight]
    show l.launched + ↑((l.inFlight.filter fun t => t.1 ≠ task).map (·.2)) = (l.launched + ↑(l.inFlight.map (·.2))).erase id
    rw [flying_filter hs.tasks flies]
    refine (Multiset.erase_add_right_pos _ ?_).symm
    exact Multiset.mem_coe.2 (List.mem_map.2 ⟨_, flies, rfl⟩)

theorem distinct (h : Effect supply policy now l action l') (hs : l.Sound) : (l'.jobs.map (·.id)).Nodup := by
  cases h.touch with
  | none jobs => rw [jobs]; exact hs.distinct
  | @new made id work request plan number fate state unknown planned tame waits jobs =>
    rw [jobs, List.map_append, List.nodup_append]
    refine ⟨hs.distinct, by simp, ?_⟩
    rintro a ha b hb rfl
    simp only [List.map_cons, List.map_nil, List.mem_singleton, Plan.job_id] at hb
    subst hb
    obtain ⟨job, hm, hi⟩ := List.mem_map.1 ha
    exact absurd hi (by simpa using List.find?_eq_none.1 unknown job hm)
  | passage known passage jobs =>
    rw [jobs]
    unfold put
    rw [map_id_put]
    exact hs.distinct

/-- Jobs stay known. -/
theorem known (h : Effect supply policy now l action l') {id : JobId} (hk : (l.job? id).isSome) : (l'.job? id).isSome := by
  obtain ⟨job, hj⟩ := Option.isSome_iff_exists.1 hk
  obtain ⟨_, job', -, hj', -⟩ := h.passage hj
  rw [hj']; rfl

theorem held (h : Effect supply policy now l action l') (hs : l.Sound) :
    ∀ id, id ∈ l'.waiting ∨ id ∈ l'.inHand ∨ id ∈ l'.lineup ∨ id ∈ l'.chosen → (l'.job? id).isSome := by
  -- whoever was held is known still, and so is the job that the action is about
  have waiting : ∀ i ∈ l.waiting, (l'.job? i).isSome := fun i hi => h.known (hs.held i (.inl hi))
  have inHand : ∀ i ∈ l.inHand, (l'.job? i).isSome := fun i hi => h.known (hs.held i (.inr (.inl hi)))
  have lineup : ∀ i ∈ l.lineup, (l'.job? i).isSome := fun i hi => h.known (hs.held i (.inr (.inr (.inl hi))))
  have chosen : ∀ i ∈ l.chosen, (l'.job? i).isSome := fun i hi => h.known (hs.held i (.inr (.inr (.inr hi))))
  have self : ∀ {i job}, l.job? i = some job → (l'.job? i).isSome := fun hj => h.known (by rw [hj]; rfl)
  have added : ∀ {i : JobId} {held : Multiset JobId}, (l'.job? i).isSome → (∀ i ∈ held, (l'.job? i).isSome) →
      ∀ x ∈ i ::ₘ held, (l'.job? x).isSome := by
    intro i held hi hk x hx
    rcases Multiset.mem_cons.1 hx with rfl | hx
    · exact hi
    · exact hk x hx
  have fewer : ∀ {i : JobId}, ∀ x ∈ l.waiting.filter (· ≠ i), (l'.job? x).isSome := fun x hx =>
    waiting x (Multiset.mem_of_mem_filter hx)
  suffices (∀ i ∈ l'.waiting, (l'.job? i).isSome) ∧ (∀ i ∈ l'.inHand, (l'.job? i).isSome) ∧
      (∀ i ∈ l'.lineup, (l'.job? i).isSome) ∧ ∀ i ∈ l'.chosen, (l'.job? i).isSome by
    obtain ⟨hw, hh, hl, hc⟩ := this
    rintro i (hi | hi | hi | hi)
    · exact hw i hi
    · exact hh i hi
    · exact hl i hi
    · exact hc i hi
  cases h with
  | quiet => exact ⟨waiting, inHand, lineup, chosen⟩
  | @accepted made id work request plan number fate state unknown planned tame waits =>
    have new : ∀ l' : Ledger, l'.jobs = l.jobs ++ [plan.job id work number state] → (l'.job? id).isSome := fun l' jobs => by
      rw [job?_append jobs unknown (Plan.job_id plan id work number state), if_pos rfl]; rfl
    cases waits with
    | timetable => exact ⟨added (new _ (send_jobs ..)) fewer, inHand, lineup, chosen⟩
    | lineup => exact ⟨waiting, inHand, added (new _ (send_jobs ..)) lineup, chosen⟩
  | taken free split =>
    refine ⟨fun i hi => waiting i ?_, fun i hi => waiting i ?_, lineup, chosen⟩
    · rw [split]; exact Multiset.mem_add.2 (.inr hi)
    · rw [split]; exact Multiset.mem_add.2 (.inl (Multiset.mem_coe.2 hi))
  | promoted hand known =>
    exact ⟨waiting, fun i hi => inHand i (hand ▸ List.mem_cons_of_mem _ hi), added (self known) lineup, chosen⟩
  | passedOver hand => exact ⟨waiting, fun i hi => inHand i (hand ▸ List.mem_cons_of_mem _ hi), lineup, chosen⟩
  | hurried known => exact ⟨fewer, inHand, added (self known) lineup, chosen⟩
  | cancelled known =>
    refine ⟨fewer, inHand, fun i hi => lineup i ?_, chosen⟩
    simp only [discount] at hi
    split at hi
    · exact hi
    · exact Multiset.mem_of_mem_erase hi
  | chose free split =>
    refine ⟨waiting, inHand, fun i hi => lineup i ?_, fun i hi => lineup i ?_⟩
    · rw [split]; exact Multiset.mem_cons_of_mem hi
    · rw [split, List.mem_singleton.1 hi]; exact Multiset.mem_cons_self ..
  | launched => exact ⟨waiting, inHand, lineup, fun _ hi => absurd hi List.not_mem_nil⟩
  | notLaunched => exact ⟨waiting, inHand, lineup, fun _ hi => absurd hi List.not_mem_nil⟩
  | begun => exact ⟨waiting, inHand, lineup, chosen⟩
  | givenUp => exact ⟨waiting, inHand, lineup, chosen⟩
  | @concluded task id ending job job' marks fate flies known sequel =>
    cases fate with
    | timetable => exact ⟨added (self known) fewer, inHand, lineup, chosen⟩
    | lineup => exact ⟨waiting, inHand, added (self known) lineup, chosen⟩
    | ended => exact ⟨waiting, inHand, lineup, chosen⟩
    | stranded => exact ⟨waiting, inHand, lineup, chosen⟩

theorem tasks (h : Effect supply policy now l action l') (hs : l.Sound) : (l'.inFlight.map (·.1)).Nodup := by
  cases h with
  | accepted => rw [send_inFlight]; exact hs.tasks
  | begun =>
    simp only [List.map_append, List.map_cons, List.map_nil]
    refine List.nodup_append.2 ⟨hs.tasks, by simp, ?_⟩
    rintro a ha b hb rfl
    obtain ⟨e, he, rfl⟩ := List.mem_map.1 ha
    have := hs.below e he
    rw [List.mem_singleton.1 hb] at this
    exact Nat.lt_irrefl _ this
  | concluded =>
    simp only [discount, send_inFlight]
    exact hs.tasks.sublist (List.filter_sublist.map _)
  | _ => exact hs.tasks

theorem below (h : Effect supply policy now l action l') (hs : l.Sound) : ∀ e ∈ l'.inFlight, e.1.number < l'.nextTask := by
  cases h with
  | accepted => rw [send_inFlight, send_nextTask]; exact hs.below
  | begun =>
    intro e he
    rcases List.mem_append.1 he with he | he
    · exact Nat.lt_succ_of_lt (hs.below e he)
    · rw [List.mem_singleton.1 he]; exact Nat.lt_succ_self _
  | givenUp => exact fun e he => Nat.lt_succ_of_lt (hs.below e he)
  | concluded =>
    simp only [discount, send_inFlight, send_nextTask]
    exact fun e he => hs.below e (List.mem_of_mem_filter he)
  | _ => exact hs.below

theorem unheard (h : Effect supply policy now l action l') (hs : l.Sound) (id : JobId) (unknown : l'.job? id = none) :
    l'.annals id = [] := by
  cases hj : l.job? id with
  | none => rw [(h.turns_up hj).1]; exact hs.unheard id hj
  | some job =>
    obtain ⟨_, job', -, hj', -⟩ := h.passage hj
    rw [hj'] at unknown; cases unknown

/-- An attempt is under way if it has just begun, or if it was and its job runs on. -/
theorem flying_iff (h : Effect supply policy now l action l') (hs : l.Sound) (id : JobId) :
    id ∈ l'.flying ↔ l'.annals id = .started :: l.annals id ∨ (id ∈ l.flying ∧ l'.Runs id) := by
  have hm := h.manned hs
  have runs : id ∈ l'.flying → l'.Runs id := fun hf => (hm.runs id).1 (Multiset.mem_add.2 (.inr (Multiset.mem_coe.2 hf)))
  have longer : ∀ {mark : Mark} {marks : List Mark}, marks ≠ mark :: marks := fun {_ _} he => by
    have := congrArg List.length he
    simp at this
  -- where nothing is noted and nothing begins or ends
  have still : l'.inFlight = l.inFlight → l'.annals id = l.annals id →
      (id ∈ l'.flying ↔ l'.annals id = .started :: l.annals id ∨ (id ∈ l.flying ∧ l'.Runs id)) := by
    intro hi ha
    have hf : l'.flying = l.flying := by unfold flying; rw [hi]
    rw [hf] at runs ⊢
    constructor
    · exact fun hx => .inr ⟨hx, runs hx⟩
    · rintro (he | hx)
      · exact absurd (ha.symm.trans he) longer
      · exact hx.1
  cases h with
  | accepted => exact still (send_inFlight ..) (congrFun (send_annals ..) id)
  | @begun i job performer waited =>
    by_cases hi : id = i
    · subst hi
      refine ⟨fun _ => .inl (if_pos rfl), fun _ => ?_⟩
      exact List.mem_map.2 ⟨_, List.mem_append_right _ (List.mem_singleton_self _), rfl⟩
    · have ha : (if id = i then [Mark.started] ++ l.annals id else l.annals id) = l.annals id := if_neg hi
      refine ⟨fun hx => .inr ⟨?_, runs hx⟩, ?_⟩
      · obtain ⟨e, he, rfl⟩ := List.mem_map.1 hx
        rcases List.mem_append.1 he with he | he
        · exact List.mem_map.2 ⟨e, he, rfl⟩
        · rw [List.mem_singleton.1 he] at hi
          exact absurd rfl hi
      · rintro (he | hx)
        · exact absurd (ha.symm.trans he) longer
        · obtain ⟨e, he, rfl⟩ := List.mem_map.1 hx.1
          exact List.mem_map.2 ⟨e, List.mem_append_left _ he, rfl⟩
  | @givenUp i job waited =>
    refine ⟨fun hx => .inr ⟨hx, runs hx⟩, ?_⟩
    rintro (he | hx)
    · have he : (if id = i then [Mark.abandoned] ++ l.annals id else l.annals id) = .started :: l.annals id := he
      split at he
      · cases he
      · exact absurd he longer
    · exact hx.1
  | @concluded task i ending job job' marks fate flies known sequel =>
    refine ⟨fun hx => .inr ⟨?_, runs hx⟩, ?_⟩
    · simp only [flying, discount, send_inFlight] at hx
      obtain ⟨e, he, rfl⟩ := List.mem_map.1 hx
      exact List.mem_map.2 ⟨e, List.mem_of_mem_filter he, rfl⟩
    · rintro (he | ⟨hx, hr⟩)
      · have he : ((Ledger.send _ i fate).annals id) = .started :: l.annals id := he
        rw [send_annals] at he
        have he : (if id = i then marks ++ l.annals id else l.annals id) = [.started] ++ l.annals id := he
        split at he
        · rw [List.append_cancel_right he] at sequel
          exact absurd (List.mem_singleton_self _) sequel.not_started
        · exact absurd he longer
      · rcases Multiset.mem_add.1 ((hm.runs id).2 hr) with hl | hf
        · simp only [discount, send_launched] at hl
          exact absurd hx (hs.manned.not_flying hl)
        · exact Multiset.mem_coe.1 hf
  | _ => exact still rfl rfl

/-- What holds of every job that has just been accepted, and is kept by every passage, holds of each job
and its annals. -/
theorem each (h : Effect supply policy now l action l') (hu : ∀ id, l.job? id = none → l.annals id = [])
    {P : Job → List Mark → Prop} (hp : ∀ id job, l.job? id = some job → P job (l.annals id))
    (new : ∀ (plan : Plan) id work number fate state, plan.cadence.Tame plan.dueAt → Waits fate state →
      P (plan.job id work number state) [])
    (kept : ∀ job job' marks past, Passage supply policy now l job action marks job' → l.job? job.id = some job →
      P job past → P job' (marks ++ past)) :
    ∀ id job, l'.job? id = some job → P job (l'.annals id) := by
  intro id job hk
  cases hj : l.job? id with
  | none =>
    obtain ⟨ha, hn⟩ := h.turns_up hj
    rw [ha, hu id hj]
    rcases hn with hn | ⟨_, work, _, plan, number, fate, state, -, -, tame, waits, hn⟩
    · rw [hn] at hk; cases hk
    · cases hn.symm.trans hk; exact new plan id work number fate state tame waits
  | some job₀ =>
    obtain ⟨marks, job', passage, hj', ha⟩ := h.passage hj
    cases hj'.symm.trans hk
    rw [ha]
    exact kept job₀ job marks _ passage (by rw [job?_id hj, hj]) (hp id job₀ hj)

/-- Every effect keeps a ledger sound. -/
theorem sound (h : Effect supply policy now l action l') (hs : l.Sound) : l'.Sound where
  distinct := h.distinct hs
  held := h.held hs
  manned := h.manned hs
  tasks := h.tasks hs
  below := h.below hs
  unheard := h.unheard hs
  begun := by
    refine h.each hs.unheard hs.begun (fun plan id work number fate state _ waits => ?_) fun _ _ _ _ passage _ => passage.not_notStarted
    cases waits <;> simp [Plan.job]
  tame := h.each hs.unheard hs.tame (fun _ _ _ _ _ _ tame _ => tame) fun _ _ _ _ passage _ => passage.tame

end Effect

end Rota
