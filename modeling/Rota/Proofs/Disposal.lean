/-
What disposal ends and what it leaves alone. Nobody is accepted any more, and the promotion loop moves no job but
those it has in hand; cancelling, performing early and the executions go on as they did. The dispatch loop is to
launch no job any more, but one that waits for a slot may still take a slot before it hears of disposal: the jobs
that start to run are those it launches so, one at most.
-/
import Rota.Proofs.Dispatching
import Rota.Proofs.Submission

namespace Rota

/-! ## One action -/

/-- How many jobs the dispatch loop may still launch once it is to stop: it never begins to wait for a slot again. -/
def Dispatch.prospects : Dispatch → Nat
  | .waiting | .granted | .chosen _ => 1
  | _ => 0

/-- How a job that runs after an action came to do so. -/
inductive Started (d : Desk) (id : JobId) : Action → Prop
  | before {action : Action} {job : Job} (known : d.job? id = some job) (state : job.state = .running) :
    Started d id action
  | launched {slotFirst : Bool} {job : Job} (chosen : d.dispatch = .chosen id) (known : d.job? id = some job)
    (state : job.state = .enqueued) : Started d id (.dispatch slotFirst)

section

variable {number : Nat} {settings : Settings} {now : Instant} {d d' : Desk} {action : Action} {id : JobId} {job job' : Job}

theorem Started.same (jobs : d'.jobs = d.jobs) (hj : d'.job? id = some job') (state : job'.state = .running) :
    Started d id action := by
  have known : d.job? id = some job' := by
    rw [← hj]
    unfold Desk.job?
    rw [jobs]
  exact .before known state

theorem Started.put {i : JobId} {put : Job} (hj : d'.job? id = some job') (jobs : d'.jobs = (d.put put).jobs)
    (known : d.job? i = some job) (hi : put.id = job.id) (state : job'.state = .running)
    (self : put.state = .running → Started d i action) : Started d id action := by
  rw [Desk.job?_put jobs known hi] at hj
  split at hj
  next he =>
    cases hj
    exact he ▸ self state
  next => exact .before hj state

/-- A job starts to run by being launched, and in no other way. -/
theorem Shift.started (h : Shift number settings now d action d') (hj : d'.job? id = some job')
    (state : job'.state = .running) : Started d id action := by
  cases h with
  | enqueued unknown =>
    rw [Desk.job?_append rfl unknown (Plan.job_id ..)] at hj
    split at hj
    next => cases hj; cases state
    next => exact .before hj state
  | scheduled unknown =>
    rw [Desk.job?_append rfl unknown (Plan.job_id ..)] at hj
    split at hj
    next => cases hj; cases state
    next => exact .before hj state
  | cancelled known => exact .put hj rfl known rfl state nofun
  | hurried known => exact .put hj rfl known rfl state nofun
  | promoted hand known => exact .put hj rfl known rfl state nofun
  | launched chosen known waits => exact .put hj rfl known rfl state fun _ => .launched chosen known waits
  | begun waited known => exact .put hj rfl known rfl state fun runs => .before known runs
  | givenUp waited known => exact .put hj rfl known rfl state nofun
  | concluded flying known sequel =>
    exact .put hj rfl known sequel.id_eq state fun runs => absurd runs sequel.not_running
  | _ => exact .same rfl hj state

theorem Shift.disposed (h : Shift number settings now d action d') (off : d.disposed = true) : d'.disposed = true := by
  cases h <;> first | exact off | rfl

/-- A promotion loop that is to stop takes nothing in hand any more. -/
theorem Shift.inHand_of_disposed (h : Shift number settings now d action d') (off : d.disposed = true)
    (hm : id ∈ d'.inHand) : id ∈ d.inHand := by
  rcases h.inHand hm with held | ⟨rfl, looking, -⟩
  · exact held
  · generalize ha : Action.promotion = action at h
    cases h with
    | taken _ on => cases off.symm.trans on
    | promotionPauses pauses =>
      unfold Desk.inHand at hm
      split at hm
      next hp => exact absurd hp (pauses.inHand _)
      next => cases hm
    | promoted hand => cases looking.symm.trans hand
    | passedOver hand => cases looking.symm.trans hand
    | quiet => exact hm
    | closed => exact hm
    | _ => cases ha

/-- The dispatch loop has a slot in its hands if it had one or takes one. -/
theorem Shift.slot_held (h : Shift number settings now d action d') (hand : d'.dispatch.slots = 1) :
    d.dispatch.slots = 1 ∨ d.Takes action := by
  cases h with
  | granted waiting grants => exact .inr (.granted waiting grants)
  | chose granted => exact .inl (by rw [granted]; rfl)
  | drained => cases hand
  | launched => cases hand
  | notLaunched => cases hand
  | dispatchPauses refused pauses => cases pauses.slots.2.symm.trans hand
  | _ => exact .inl hand

/-- With each job it launches, a dispatch loop that is to stop has one less to launch. -/
theorem Shift.prospects (h : Shift number settings now d action d') (off : d.disposed = true) :
    (d'.launchedSince d).length + d'.dispatch.prospects ≤ d.dispatch.prospects := by
  have none : ∀ d' : Desk, d'.launchedSince d = [] → d'.dispatch.prospects ≤ d.dispatch.prospects →
      (d'.launchedSince d).length + d'.dispatch.prospects ≤ d.dispatch.prospects := fun d' launched fewer => by
    rw [launched, List.length_nil, Nat.zero_add]
    exact fewer
  cases h with
  | granted waiting => exact none _ (Desk.launchedSince_self rfl) (by rw [waiting]; exact Nat.le_refl _)
  | chose granted => exact none _ (Desk.launchedSince_self rfl) (by rw [granted]; exact Nat.le_refl _)
  | drained => exact none _ (Desk.launchedSince_self rfl) (Nat.zero_le _)
  | launched chosen => simp [Desk.launchedSince, chosen, Dispatch.prospects]
  | notLaunched => exact none _ (Desk.launchedSince_self rfl) (Nat.zero_le _)
  | dispatchPauses refused pauses =>
    refine none _ (Desk.launchedSince_self rfl) ?_
    generalize d.dispatch = q at pauses ⊢
    cases pauses with
    | idle on => cases off.symm.trans on
    | waits on => cases off.symm.trans on
    | _ => exact Nat.zero_le _
  | begun => exact none _ (Desk.launchedSince_erase rfl) (Nat.le_refl _)
  | givenUp => exact none _ (Desk.launchedSince_erase rfl) (Nat.le_refl _)
  | _ => exact none _ (Desk.launchedSince_self rfl) (Nat.le_refl _)

/-- A job that has been launched waits for its execution to begin. -/
theorem Shift.launched_on (h : Shift number settings now d action d') (hm : id ∈ d.launched) (unbegun : action ≠ .begin id) :
    id ∈ d'.launched := by
  cases h with
  | launched => exact List.mem_append_left _ hm
  | begun => exact (List.mem_erase_of_ne fun same => unbegun (by rw [same])).2 hm
  | givenUp => exact (List.mem_erase_of_ne fun same => unbegun (by rw [same])).2 hm
  | _ => exact hm

/-- An entry of the timetable stays there, unless it is due, or its job is called for or put in anew. -/
theorem Shift.entry_on (h : Shift number settings now d action d') (hw : d.timetable.WF) (off : d.disposed = true)
    {slot : Slot} (he : (slot, id) ∈ d.timetable.bySlot) (known : d.job? id = some job) (state : job.state = .scheduled)
    (running : ∀ task job, (task, id) ∈ d.inFlight.tasks → d.job? id = some job → job.state = .running)
    (cancel : action ≠ .cancel id) (hurry : action ≠ .performNow id) : (slot, id) ∈ d'.timetable.bySlot := by
  have removed : ∀ {other : JobId}, other ≠ id → (slot, id) ∈ (d.timetable.remove other).2.bySlot := fun hn => by
    rw [hw.remove_eq]
    exact List.mem_filter.2 ⟨he, decide_eq_true fun same => hn same.symm⟩
  have inserted : ∀ {other : Job}, other.state = .scheduled → other.id ≠ id →
      (slot, id) ∈ (d.timetable.insert other).bySlot := fun scheduled hn => by
    rw [hw.insert_eq scheduled]
    refine (Timetable.place_perm _ _ _).mem_iff.2 (List.mem_cons_of_mem _ ?_)
    exact List.mem_filter.2 ⟨he, decide_eq_true fun same => hn same.symm⟩
  cases h with
  | scheduled unknown =>
    refine inserted rfl fun same => ?_
    rw [Plan.job_id] at same
    cases (same ▸ unknown).symm.trans known
  | cancelled => exact removed fun same => cancel (same ▸ rfl)
  | hurried => exact removed fun same => hurry (same ▸ rfl)
  | taken looking on => cases off.symm.trans on
  | @concluded task i ending _ job' marks fate flying there sequel =>
    by_cases hfate : fate = .timetable
    · simp only [if_pos hfate]
      refine inserted (sequel.state_eq.1 hfate) fun same => ?_
      have same : i = id := (find?_id there).symm.trans (sequel.id_eq.symm.trans same)
      subst same
      cases state.symm.trans (running task job flying known)
    · simp only [if_neg hfate]
      exact he
  | _ => exact he

/-- Whoever waits in the lineup or has been chosen for a slot, and is not cancelled, goes on doing so or is launched. -/
theorem Advance.waits_on (h : Advance d d' action) {w : Waiter} (hw : w ∈ d.lineup.waiters ∨ w.id ∈ d.chosen)
    (known : d.job? w.id = some job) (state : job.state = .enqueued) (cancel : action ≠ .cancel w.id) :
    (w ∈ d'.lineup.waiters ∨ w.id ∈ d'.chosen) ∨ w.id ∈ d'.launchedSince d := by
  cases h with
  | stays waiters chosen => exact .inl (by rw [waiters, chosen]; exact hw)
  | joined there waiters dispatch =>
    have chosen : d'.chosen = d.chosen := by unfold Desk.chosen; rw [dispatch]
    rw [waiters, chosen]
    exact .inl (hw.imp_left (List.mem_append_left _))
  | withdrawn waits waiters dispatch =>
    have chosen : d'.chosen = d.chosen := by unfold Desk.chosen; rw [dispatch]
    rw [waiters, chosen]
    refine .inl (hw.imp_left fun hm => (List.mem_eraseP_of_neg ?_).2 hm)
    simpa using fun same : w.id = _ => cancel (by rw [same])
  | chose free waiters foremost others chosen =>
    rcases hw with hm | hm
    · rw [waiters, List.mem_append, List.mem_cons] at hm
      rw [others, chosen, List.mem_append]
      rcases hm with hm | rfl | hm
      · exact .inl (.inl (.inl hm))
      · exact .inl (.inr (List.mem_singleton_self _))
      · exact .inl (.inl (.inr hm))
    · rw [free] at hm
      cases hm
  | launched hand waiters free launched =>
    rcases hw with hm | hm
    · exact .inl (.inl (waiters ▸ hm))
    · exact .inr (by rw [launched, ← hand]; exact hm)
  | dropped hand there other waiters =>
    rcases hw with hm | hm
    · exact .inl (.inl (waiters ▸ hm))
    · rw [hand, List.mem_singleton] at hm
      cases (hm ▸ there).symm.trans known
      exact absurd state other

end

namespace Scheduler

variable {s : Scheduler} {now : Instant} {action : Action} {id : JobId} {job : Job}
  {actions : List (Instant × Action)}

/-! ## Calls and executions -/

theorem cancel_abandon (s : Scheduler) (job : Job) : s.abandon.cancel job = (s.cancel job).map abandon := by
  unfold cancel
  rw [show s.abandon.ensureOwned job .cancel = s.ensureOwned job .cancel from rfl, show s.abandon.board = s.board from rfl]
  cases s.ensureOwned job .cancel with
  | error => rfl
  | ok => cases s.board.move job.id Job.cancel <;> rfl

theorem performNow_abandon (s : Scheduler) (job : Job) : s.abandon.performNow job = (s.performNow job).map abandon := by
  unfold performNow
  rw [show s.abandon.ensureOwned job .performNow = s.ensureOwned job .performNow from rfl,
    show s.abandon.board = s.board from rfl]
  cases s.ensureOwned job .performNow with
  | error => rfl
  | ok =>
    cases job.ensureScheduled .performNow with
    | error => rfl
    | ok =>
      dsimp only [Bind.bind, Except.bind]
      cases (s.board.unschedule job.id).2.move job.id Job.enqueue <;> rfl

theorem begin_abandon (s : Scheduler) (now : Instant) : s.abandon.begin now = ((s.begin now).1, (s.begin now).2.abandon) := by
  unfold begin
  rw [show s.abandon.launched = s.launched from rfl]
  cases s.launched with
  | nil => rfl
  | cons id rest =>
    dsimp only
    rw [show s.abandon.board = s.board from rfl]
    cases s.board.job? id with
    | none => rfl
    | some job =>
      simp only [supply, abandon]
      rcases s.board.begin (s.settings.supply ⟨s.board.inFlight.next⟩) now job with ⟨_ | _, board⟩ <;> rfl

/-- The scheduler as if it had not been disposed of. -/
def reopened (s : Scheduler) : Scheduler := { s with disposed := false }

/-- Disposal makes no difference to the calls that are still heard, nor to the beginnings and ends of executions. -/
structure WorksOff (s : Scheduler) : Prop where
  cancels : ∀ job, s.cancel job = (s.reopened.cancel job).map abandon
  performs : ∀ job, s.performNow job = (s.reopened.performNow job).map abandon
  begins : ∀ now, s.begin now = ((s.reopened.begin now).1, (s.reopened.begin now).2.abandon)
  concludes : ∀ now id task ending, s.conclude now id task ending = (s.reopened.conclude now id task ending).abandon

theorem worksOff (off : s.disposed = true) : s.WorksOff := by
  have same : s = s.reopened.abandon := by
    cases s
    cases off
    rfl
  constructor
  case cancels => exact fun job => (congrArg (cancel · job) same).trans (s.reopened.cancel_abandon job)
  case performs => exact fun job => (congrArg (performNow · job) same).trans (s.reopened.performNow_abandon job)
  case begins => exact fun now => (congrArg (begin · now) same).trans (s.reopened.begin_abandon now)
  case concludes => exact fun now id task ending => congrArg (conclude · now id task ending) same

theorem act_disposed (hs : s.Sound) (legal : action.Legal s) (off : s.disposed = true) :
    (s.act now action).disposed = true := by
  have shift : Shift s.number s.settings now s.desk action (s.act now action).desk := act_shift hs legal
  exact shift.disposed off

theorem run_disposed (hs : s.Sound) (ha : s.Allows .fine actions) (off : s.disposed = true) :
    (s.run actions).disposed = true :=
  run_always (fun _ _ _ hs legal off => act_disposed hs legal off) hs ha off

/-- An execution in flight stays so until it ends. -/
theorem run_flies (hs : s.Sound) (ha : s.Allows .fine actions) {task : TaskId} (flies : (task, id) ∈ s.board.inFlight.tasks)
    (goes_on : ∀ x ∈ actions, ∀ ending, x.2 ≠ .conclude task ending) : (task, id) ∈ (s.run actions).board.inFlight.tasks := by
  refine run_invariant (P := fun s => (task, id) ∈ s.board.inFlight.tasks) (Q := fun x => ∀ ending, x ≠ .conclude task ending)
    ?_ hs ha goes_on flies
  intro s now action hs legal goes_on flies
  have shift : Shift s.number s.settings now s.desk action (s.act now action).desk := act_shift hs legal
  exact shift.flies_on flies goes_on

/-- A job that has been launched stays so until its execution begins. -/
theorem run_launched (hs : s.Sound) (ha : s.Allows .fine actions) (launched : id ∈ s.launched)
    (unbegun : ∀ x ∈ actions, x.2 ≠ .begin id) : id ∈ (s.run actions).launched := by
  refine run_invariant (P := fun s => id ∈ s.launched) (Q := (· ≠ .begin id)) ?_ hs ha unbegun launched
  intro s now action hs legal unbegun launched
  have shift : Shift s.number s.settings now s.desk action (s.act now action).desk := act_shift hs legal
  exact shift.launched_on launched unbegun

/-! ## Promotion -/

/-- Whether a job waits for a slot. -/
def AwaitsSlot (s : Scheduler) (id : JobId) : Prop := ∃ job, s.board.job? id = some job ∧ job.state = .enqueued

/-- A promotion loop that is to stop takes nothing in hand any more. -/
theorem run_not_inHand (hs : s.Sound) (ha : s.Allows .fine actions) (off : s.disposed = true) (free : id ∉ s.inHand) :
    id ∉ (s.run actions).inHand := by
  refine (run_always (P := fun s => s.disposed = true ∧ id ∉ s.inHand) ?_ hs ha ⟨off, free⟩).2
  rintro s now action hs legal ⟨off, free⟩
  have shift : Shift s.number s.settings now s.desk action (s.act now action).desk := act_shift hs legal
  exact ⟨act_disposed hs legal off, fun hm => free (shift.inHand_of_disposed off hm)⟩

/-- The promotion loop moves a job only out of its hands. -/
theorem inHand_of_promoted (hs : s.Sound) (before : ¬ s.AwaitsSlot id) (after : (s.act now .promotion).AwaitsSlot id) :
    id ∈ s.inHand := by
  have shift : Shift s.number s.settings now s.desk .promotion (s.act now .promotion).desk := promotion_shift hs
  obtain ⟨job', hj', state⟩ := after
  cases Board.job?_id hj'
  cases shift.readied hj' state with
  | before known waits => exact absurd ⟨_, known, waits⟩ before
  | promoted hand =>
    have hand : s.promotion = .holding _ := hand
    simp [inHand, hand]

/-! ## Those who wait -/

/-- A job that waits for its due time, and is not in the hand of the promotion loop, stays as it is and where it is. -/
theorem entry_act (now : Instant) (hs : s.Sound) (legal : action.Legal s) (off : s.disposed = true) {slot : Slot}
    (he : (slot, id) ∈ s.board.timetable.bySlot) (known : s.board.job? id = some job) (state : job.state = .scheduled)
    (free : id ∉ s.inHand) (cancel : action ≠ .cancel id) (hurry : action ≠ .performNow id) :
    (slot, id) ∈ (s.act now action).board.timetable.bySlot ∧ (s.act now action).board.job? id = some job := by
  have shift : Shift s.number s.settings now s.desk action (s.act now action).desk := act_shift hs legal
  have step : s.Step now action _ := act_step hs legal
  refine ⟨shift.entry_on hs.timetable off he known state (fun task job flies hj => ?_) cancel hurry, ?_⟩
  · exact hs.ledger.manned.running hj (Ledger.mem_executions_of_inFlight flies)
  · obtain ⟨marks, job', passage, hj', -⟩ := step.effect.passage known
    cases Board.job?_id known
    obtain ⟨-, move⟩ := passage.move hs.ledger.manned known (by rw [state]; nofun)
    cases move with
    | stays => exact hj'
    | promoted hand => exact absurd (List.mem_of_mem_head? hand) free
    | hurried => exact absurd rfl hurry
    | cancelled => exact absurd rfl cancel
    | launched waits => cases state.symm.trans waits

theorem entry_run (hs : s.Sound) (ha : s.Allows .fine actions) (off : s.disposed = true) {slot : Slot}
    (he : (slot, id) ∈ s.board.timetable.bySlot) (known : s.board.job? id = some job) (state : job.state = .scheduled)
    (free : id ∉ s.inHand) (untouched : ∀ x ∈ actions, x.2 ≠ .cancel id ∧ x.2 ≠ .performNow id) :
    (slot, id) ∈ (s.run actions).board.timetable.bySlot ∧ (s.run actions).board.job? id = some job := by
  refine (run_invariant (P := fun s => (s.disposed = true ∧ id ∉ s.inHand) ∧
    (slot, id) ∈ s.board.timetable.bySlot ∧ s.board.job? id = some job) (Q := fun x => x ≠ .cancel id ∧ x ≠ .performNow id)
    ?_ hs ha untouched ⟨⟨off, free⟩, he, known⟩).2
  rintro s now action hs legal ⟨cancel, hurry⟩ ⟨⟨off, free⟩, he, known⟩
  have shift : Shift s.number s.settings now s.desk action (s.act now action).desk := act_shift hs legal
  have out : id ∉ (s.act now action).inHand := fun hm => free (shift.inHand_of_disposed off hm)
  exact ⟨⟨act_disposed hs legal off, out⟩, entry_act now hs legal off he known state free cancel hurry⟩

/-! ## Starting to run -/

/-- A job starts to run by one of some actions. -/
def Starts (s : Scheduler) (id : JobId) (actions : List (Instant × Action)) : Prop :=
  ∃ before now action after, actions = before ++ (now, action) :: after ∧ ¬ (s.run before).ledger.Runs id ∧
    ((s.run before).act now action).ledger.Runs id

/-- The dispatch loop has a slot in its hands, or takes one by some actions. -/
def Grasps (s : Scheduler) (actions : List (Instant × Action)) : Prop :=
  s.dispatch.slots = 1 ∨
    ∃ before now action after, actions = before ++ (now, action) :: after ∧ (s.run before).desk.Takes action

/-- The dispatch loop has a slot or takes one, and goes on to launch a job that it has chosen for the slot. -/
def Lapses (s : Scheduler) (id : JobId) (actions : List (Instant × Action)) : Prop :=
  ∃ before now slotFirst after, actions = before ++ (now, .dispatch slotFirst) :: after ∧ s.Grasps before ∧
    (s.run before).dispatch = .chosen id ∧ (s.run before).AwaitsSlot id

theorem Starts.head (idle : ¬ s.ledger.Runs id) (runs : (s.act now action).ledger.Runs id) :
    s.Starts id ((now, action) :: actions) :=
  ⟨[], now, action, actions, rfl, idle, runs⟩

theorem Starts.tail (h : (s.act now action).Starts id actions) : s.Starts id ((now, action) :: actions) := by
  obtain ⟨before, now', action', after, rfl, idle, runs⟩ := h
  exact ⟨(now, action) :: before, now', action', after, rfl, idle, runs⟩

theorem starts_cons : s.Starts id ((now, action) :: actions) ↔
    ¬ s.ledger.Runs id ∧ (s.act now action).ledger.Runs id ∨ (s.act now action).Starts id actions := by
  refine ⟨?_, fun h => h.elim (fun h => .head h.1 h.2) .tail⟩
  rintro ⟨before, now', action', after, he, idle, runs⟩
  cases before with
  | nil => cases he; exact .inl ⟨idle, runs⟩
  | cons x before => cases he; exact .inr ⟨before, now', action', after, rfl, idle, runs⟩

/-- What the dispatch loop launches runs from then on. -/
theorem act_chosen (chosen : s.dispatch = .chosen id) (known : s.board.job? id = some job) (state : job.state = .enqueued)
    (slotFirst : Bool) : (s.act now (.dispatch slotFirst)).ledger.Runs id ∧ s.launchedBy now (.dispatch slotFirst) = [id] := by
  have run : job.run = .ok { job with state := .running, retryAt := none } := Job.run_eq_ok.2 ⟨by rw [state]; rfl, rfl⟩
  have after : s.act now (.dispatch slotFirst) =
      { s with
        board := s.board.put { job with state := .running, retryAt := none }
        launched := s.launched ++ [id]
        dispatch := .looking } := by
    simp only [act, dispatchStep, chosen, launch, Board.move_some known, run]
    rfl
  unfold launchedBy
  rw [after]
  refine ⟨⟨_, Board.job?_put_self known { job with state := .running, retryAt := none } rfl, rfl⟩, ?_⟩
  exact List.drop_left

/-- A job starts to run just when the dispatch loop launches it. -/
theorem starts_iff_chosen (hs : s.Sound) (legal : action.Legal s) :
    ¬ s.ledger.Runs id ∧ (s.act now action).ledger.Runs id ↔
      ∃ slotFirst, action = .dispatch slotFirst ∧ s.dispatch = .chosen id ∧ s.AwaitsSlot id := by
  have shift : Shift s.number s.settings now s.desk action (s.act now action).desk := act_shift hs legal
  constructor
  · rintro ⟨idle, job', hj', runs⟩
    cases shift.started hj' runs with
    | before known running => exact absurd ⟨_, known, running⟩ idle
    | launched chosen known waits => exact ⟨_, rfl, chosen, _, known, waits⟩
  · rintro ⟨slotFirst, rfl, chosen, job, known, waits⟩
    refine ⟨?_, (act_chosen chosen known waits slotFirst).1⟩
    rintro ⟨job', known', runs⟩
    cases known.symm.trans known'
    cases waits.symm.trans runs

theorem grasps_run (hs : s.Sound) (ha : s.Allows .fine actions) (hand : (s.run actions).dispatch.slots = 1) :
    s.Grasps actions := by
  induction actions generalizing s with
  | nil => exact .inl hand
  | cons x rest ih =>
    have shift : Shift s.number s.settings x.1 s.desk x.2 (s.act x.1 x.2).desk := act_shift hs ha.1.legal
    rcases ih (act_sound hs ha.1.legal) ha.2 hand with held | ⟨before, now, action, after, rfl, takes⟩
    · exact (shift.slot_held held).imp_right fun takes => ⟨[], x.1, x.2, rest, rfl, takes⟩
    · exact .inr ⟨x :: before, now, action, after, rfl, takes⟩

/-- Jobs start to run only by what the dispatch loop does with a slot that it has or takes. -/
theorem starts_iff_lapses (hs : s.Sound) (ha : s.Allows .fine actions) : s.Starts id actions ↔ s.Lapses id actions := by
  have allowed : ∀ {before after : List (Instant × Action)} {x : Instant × Action}, actions = before ++ x :: after →
      s.Allows .fine before ∧ x.2.Legal (s.run before) := fun he => by
    rw [he, allows_append] at ha
    exact ⟨ha.1, ha.2.1.legal⟩
  constructor
  · rintro ⟨before, now, action, after, he, starts⟩
    obtain ⟨hb, legal⟩ := allowed he
    obtain ⟨slotFirst, rfl, chosen, waits⟩ := (starts_iff_chosen (run_sound hs hb) legal).1 starts
    exact ⟨before, now, slotFirst, after, he, grasps_run hs hb (by rw [chosen]; rfl), chosen, waits⟩
  · rintro ⟨before, now, slotFirst, after, he, -, chosen, waits⟩
    obtain ⟨hb, legal⟩ := allowed he
    exact ⟨before, now, _, after, he, (starts_iff_chosen (run_sound hs hb) legal).2 ⟨slotFirst, rfl, chosen, waits⟩⟩

/-- While the dispatch loop waits, a slot that comes free is one that it may take for the next in the lineup. -/
theorem lapses_of_waiting (waiting : s.dispatch = .waiting) (free : 0 < s.freeSlots)
    (next : s.board.lineup.takeNext.1 = some id) (awaits : s.AwaitsSlot id) (now now' now'' : Instant) :
    s.Lapses id [(now, .dispatch true), (now', .dispatch true), (now'', .dispatch true)] := by
  have granted : s.act now (.dispatch true) = s.grantSlot := by
    simp [act, dispatchStep, waiting, free]
  have chosen : s.grantSlot.act now' (.dispatch true) =
      { s.grantSlot with board := { s.board with lineup := s.board.lineup.takeNext.2 }, dispatch := .chosen id } := by
    have taken : s.board.takeNext = (some id, { s.board with lineup := s.board.lineup.takeNext.2 }) := by
      rw [← next]
      rfl
    simp only [act, dispatchStep, grantSlot, choose, taken]
  have after : s.run [(now, .dispatch true), (now', .dispatch true)] = _ := (congrArg (act · now' _) granted).trans chosen
  refine ⟨[(now, .dispatch true), (now', .dispatch true)], now'', true, [], rfl, ?_, ?_⟩
  · exact .inr ⟨[], now, _, _, rfl, .granted waiting ⟨free, .inl rfl⟩⟩
  · rw [after]
    exact ⟨rfl, awaits⟩

theorem mem_launches_of_starts (hs : s.Sound) (ha : s.Allows .fine actions) (h : s.Starts id actions) :
    id ∈ s.launches actions := by
  induction actions generalizing s with
  | nil =>
    obtain ⟨before, _, _, _, he, -⟩ := h
    cases before <;> cases he
  | cons x rest ih =>
    unfold launches
    rcases starts_cons.1 h with starts | later
    · obtain ⟨slotFirst, he, chosen, job, known, waits⟩ := (starts_iff_chosen hs ha.1.legal).1 starts
      refine List.mem_append_left _ ?_
      rw [he, (act_chosen chosen known waits slotFirst).2]
      exact List.mem_singleton_self _
    · exact List.mem_append_right _ (ih (act_sound hs ha.1.legal) ha.2 later)

theorem launches_le (hs : s.Sound) (ha : s.Allows .fine actions) (off : s.disposed = true) :
    (s.launches actions).length ≤ s.dispatch.prospects := by
  induction actions generalizing s with
  | nil => exact Nat.zero_le _
  | cons x rest ih =>
    have shift : Shift s.number s.settings x.1 s.desk x.2 (s.act x.1 x.2).desk := act_shift hs ha.1.legal
    have first : (s.launchedBy x.1 x.2).length + (s.act x.1 x.2).dispatch.prospects ≤ s.dispatch.prospects :=
      shift.prospects off
    have others := ih (act_sound hs ha.1.legal) ha.2 (act_disposed hs ha.1.legal off)
    unfold launches
    rw [List.length_append]
    omega

/-- A job that waits for a slot goes on waiting as it is, unless it is cancelled or starts to run. -/
theorem waits_run (hs : s.Sound) (ha : s.Allows .fine actions) {w : Waiter}
    (hw : w ∈ s.board.lineup.waiters ∨ w.id ∈ s.chosen) (known : s.board.job? w.id = some job) (state : job.state = .enqueued)
    (kept : ∀ x ∈ actions, x.2 ≠ .cancel w.id) :
    ((w ∈ (s.run actions).board.lineup.waiters ∨ w.id ∈ (s.run actions).chosen) ∧
      (s.run actions).board.job? w.id = some job) ∨ s.Starts w.id actions := by
  induction actions generalizing s with
  | nil => exact .inl ⟨hw, known⟩
  | cons x rest ih =>
    have step : s.Step x.1 x.2 _ := act_step hs ha.1.legal
    have advance : Advance s.desk (s.act x.1 x.2).desk x.2 := act_advance hs ha.1.legal
    rw [List.forall_mem_cons] at kept
    have hs' : (s.act x.1 x.2).Sound := act_sound hs ha.1.legal
    by_cases runs : (s.act x.1 x.2).ledger.Runs w.id
    · refine .inr (.head ?_ runs)
      rintro ⟨job', known', running⟩
      cases known.symm.trans known'
      cases state.symm.trans running
    · obtain ⟨marks, job', passage, hj', -⟩ := step.effect.passage known
      have hi : job.id = w.id := Board.job?_id known
      have same : job' = job := by
        rcases passage.of_enqueued hs.ledger.manned (hi ▸ known) state with same | cancel | running
        · exact same
        · exact absurd (hi ▸ cancel) kept.1
        · exact absurd ⟨job', hj', running⟩ runs
      subst same
      rcases advance.waits_on hw known state kept.1 with on | launched
      · exact (ih hs' ha.2 on hj' kept.2).imp_right .tail
      · -- what has been launched runs
        have launched : w.id ∈ (s.act x.1 x.2).launched := List.mem_of_mem_drop launched
        exact absurd ((hs'.ledger.manned.runs w.id).1 (Ledger.mem_executions_of_launched launched)) runs

/-! ## Runs -/

/-- What is to be said of a scheduler that has been disposed of. -/
structure WindsUp (s : Scheduler) : Prop where
  again : s.dispose = s
  lasts : ∀ more, s.Allows .fine more → (s.run more).disposed = true
  refuses : ∀ made now id work request plan, s.CanPerform work → request.plan made = .ok (.ok plan) →
    s.schedule made now id work request = .ok (.error .disposed)
  worksOff : s.WorksOff
  flies : ∀ more, s.Allows .fine more → ∀ task id, (task, id) ∈ s.board.inFlight.tasks →
    (∀ x ∈ more, ∀ ending, x.2 ≠ .conclude task ending) → (task, id) ∈ (s.run more).board.inFlight.tasks
  launched : ∀ more, s.Allows .fine more → ∀ id ∈ s.launched, (∀ x ∈ more, x.2 ≠ .begin id) → id ∈ (s.run more).launched
  /-- The promotion loop moves no job but those that it has in hand already. -/
  promotes : ∀ more, s.Allows .fine more → ∀ now id, ¬ (s.run more).AwaitsSlot id →
    ((s.run more).act now .promotion).AwaitsSlot id → id ∈ s.inHand
  /-- Whoever waits for its due time waits on. -/
  timetable : ∀ more, s.Allows .fine more → ∀ slot id job, (slot, id) ∈ s.board.timetable.bySlot →
    s.board.job? id = some job → job.state = .scheduled → id ∉ s.inHand →
    (∀ x ∈ more, x.2 ≠ .cancel id ∧ x.2 ≠ .performNow id) →
    (slot, id) ∈ (s.run more).board.timetable.bySlot ∧ (s.run more).board.job? id = some job
  /-- Whoever waits for a slot waits on, unless it starts to run after all. -/
  lineup : ∀ more, s.Allows .fine more → ∀ w ∈ s.board.lineup.waiters, ∀ job, s.board.job? w.id = some job →
    job.state = .enqueued → (∀ x ∈ more, x.2 ≠ .cancel w.id) →
    ((w ∈ (s.run more).board.lineup.waiters ∨ w.id ∈ (s.run more).chosen) ∧
      (s.run more).board.job? w.id = some job) ∨ s.Starts w.id more
  /-- One job at most starts to run, and none if the dispatch loop does not wait for a slot nor has one. -/
  once : ∀ more, s.Allows .fine more →
    (s.launches more).length ≤ s.dispatch.prospects ∧ ∀ id, s.Starts id more → id ∈ s.launches more
  /-- A slot that comes free while the loop waits may still go to the next in the lineup. -/
  lapses : s.dispatch = .waiting → 0 < s.freeSlots → ∀ id, s.board.lineup.takeNext.1 = some id → s.AwaitsSlot id →
    ∀ now now' now'', s.Lapses id [(now, .dispatch true), (now', .dispatch true), (now'', .dispatch true)]

/-- Once a scheduler has been disposed of it only works off what it has taken on; and just as long as its dispatch loop
does not launch a job with a slot that it has or takes, no job starts to run. -/
theorem winds_up_iff (reached : s.Reached .fine) (off : s.disposed = true) :
    s.WindsUp ∧ ∀ more, s.Allows .fine more → ((∀ id, ¬ s.Starts id more) ↔ ∀ id, ¬ s.Lapses id more) := by
  have hs : s.Sound := reached.sound
  refine ⟨?_, fun more ha => forall_congr' fun id => not_congr (starts_iff_lapses hs ha)⟩
  constructor
  case again => exact if_pos off
  case lasts => exact fun more ha => run_disposed hs ha off
  case refuses =>
    intro made now id work request plan able planned
    exact (Objects.disposed able rfl off).refused planned
  case worksOff => exact worksOff off
  case flies => exact fun more ha task id flies goes_on => run_flies hs ha flies goes_on
  case launched => exact fun more ha id launched unbegun => run_launched hs ha launched unbegun
  case promotes =>
    intro more ha now id before after
    by_contra free
    exact run_not_inHand hs ha off free (inHand_of_promoted (run_sound hs ha) before after)
  case timetable =>
    intro more ha slot id job he known state free untouched
    exact entry_run hs ha off he known state free untouched
  case lineup => exact fun more ha w hw job known state kept => waits_run hs ha (.inl hw) known state kept
  case once => exact fun more ha => ⟨launches_le hs ha off, fun id => mem_launches_of_starts hs ha⟩
  case lapses => exact fun waiting free id next awaits => lapses_of_waiting waiting free next awaits

/-- On the one slot a job has run to its end while another waited for it, and then the scheduler is disposed of. -/
def closing : List (Instant × Action) := busy ++ [(.epoch, .conclude ⟨0⟩ .done), (.epoch, .dispose)]

theorem closing_allowed : single.Allows .fine closing :=
  (allows_append ..).2 ⟨busy_allowed.fine, ⟨trivial, nofun⟩, ⟨trivial, nofun⟩, trivial⟩

theorem closing_reached : (single.run closing).Reached .fine := ⟨0, _, single, closing, start_single, closing_allowed, rfl⟩

/-- The dispatch loop waits for a slot, and one is free. -/
theorem winds_up_iff_closing :
    (single.run closing).Reached .fine ∧ (single.run closing).disposed = true ∧
      (single.run closing).dispatch = .waiting ∧ (single.run closing).freeSlots = 1 ∧
      (single.run closing).WindsUp ∧ ∀ more, (single.run closing).Allows .fine more →
        ((∀ id, ¬ (single.run closing).Starts id more) ↔ ∀ id, ¬ (single.run closing).Lapses id more) :=
  have off : (single.run closing).disposed = true := by decide +kernel
  ⟨closing_reached, off, by decide +kernel, by decide +kernel, winds_up_iff closing_reached off⟩

/-- The dispatch loop takes the slot before it hears of disposal, and the job that waited starts to run. -/
theorem freed_slot_starts : (single.run closing).disposed = true ∧
    ¬ ∀ more, (single.run closing).Allows .fine more → ∀ id, ¬ (single.run closing).Starts id more := by
  have awaits : ((single.run closing).board.job? ⟨2⟩).map (·.state) = some .enqueued := by decide +kernel
  obtain ⟨job, known, state⟩ := Option.map_eq_some_iff.1 awaits
  have lapses := lapses_of_waiting (s := single.run closing) (by decide +kernel) (by decide +kernel) (by decide +kernel)
    ⟨job, known, state⟩ .epoch .epoch .epoch
  have allowed : (single.run closing).Allows .fine
      [(.epoch, .dispatch true), (.epoch, .dispatch true), (.epoch, .dispatch true)] := Allows.of_not_brings rfl
  refine ⟨by decide +kernel, fun none => none _ allowed ⟨2⟩ ?_⟩
  exact (starts_iff_lapses closing_reached.sound allowed).2 lapses

end Scheduler

end Rota
