/-
The slots of a scheduler. Each of them is free, in the hands of the dispatch loop, or with one execution,
begun or not. The dispatch loop takes a slot in one way only; `GivesBack` lists the ways in which a slot comes
back, and each of them gives back just one.
-/
import Rota.Proofs.Custody
import Rota.Proofs.Desk
import Rota.Proofs.Precedence

namespace Rota

/-- How many slots the dispatch loop has in its hands. -/
def Dispatch.slots : Dispatch → Nat
  | .granted | .chosen _ => 1
  | _ => 0

namespace Desk

/-- How many slots are in use. -/
def inUse (d : Desk) : Nat := d.dispatch.slots + d.launched.length + d.inFlight.size

/-- Whether the dispatch loop takes a slot by an action. -/
inductive Takes (d : Desk) : Action → Prop
  | granted {slotFirst : Bool} (waiting : d.dispatch = .waiting) (grants : d.Grants slotFirst) :
    Takes d (.dispatch slotFirst)

/-- Whether a slot comes back by an action. -/
inductive GivesBack (supply : Supply) (d : Desk) : Action → Prop
  /-- Nobody waits any more. -/
  | drained {slotFirst : Bool} (granted : d.dispatch = .granted) (empty : d.lineup.waiters = []) :
    GivesBack supply d (.dispatch slotFirst)
  /-- The chosen job may not run any more. -/
  | notRun {slotFirst : Bool} {id : JobId} {job : Job} (chosen : d.dispatch = .chosen id) (known : d.job? id = some job)
    (state : job.state ≠ .enqueued) : GivesBack supply d (.dispatch slotFirst)
  /-- No instance can be built for the job that is to be executed. -/
  | unbuildable {id : JobId} {job : Job} (waited : id ∈ d.launched) (known : d.job? id = some job)
    (unbound : job.bound = none) (unsupplied : supply.maker? job.kind = none) : GivesBack supply d (.begin id)
  /-- An attempt ends, whatever its ending. -/
  | ended {task : TaskId} {ending : Ending} (flying : task ∈ d.inFlight.tasks.map (·.1)) :
    GivesBack supply d (.conclude task ending)

/-- Whoever waits for a slot has none to give back. -/
theorem Takes.not_givesBack {d : Desk} {supply : Supply} {action : Action} (h : d.Takes action) :
    ¬ d.GivesBack supply action := by
  intro gives
  cases h with
  | granted waiting =>
    cases gives with
    | drained granted => cases waiting.symm.trans granted
    | notRun chosen => cases waiting.symm.trans chosen

end Desk

/-! ## One action -/

/-- To drop an execution is to drop one. -/
theorem InFlight.size_drop {flights : InFlight} {task : TaskId} {id : JobId} (hn : (flights.tasks.map (·.1)).Nodup)
    (hm : (task, id) ∈ flights.tasks) : (flights.drop task).size + 1 = flights.size := by
  have hcount : (flights.tasks.map (·.1)).count task = 1 :=
    List.count_eq_one_of_mem hn (List.mem_map.2 ⟨_, hm, rfl⟩)
  have hone : flights.tasks.countP (fun t => t.1 = task) = 1 := by
    rw [List.count, List.countP_map] at hcount
    exact hcount
  have hlen := List.length_eq_countP_add_countP (fun t : TaskId × JobId => decide (t.1 = task)) (l := flights.tasks)
  unfold drop size
  rw [hlen, hone, ← List.countP_eq_length_filter, Nat.add_comm]
  simp

theorem Dispatch.Pauses.slots {lineup : Lineup} {disposed : Bool} {rate : Duration} {now : Instant} {p p' : Dispatch}
    {bell : Bool} (h : Pauses lineup disposed rate now p p' bell) : p.slots = 0 ∧ p'.slots = 0 := by
  cases h with
  | stopped _ h => obtain rfl | rfl | ⟨_, rfl⟩ := h <;> exact ⟨rfl, rfl⟩
  | _ => exact ⟨rfl, rfl⟩

section

variable {number : Nat} {settings : Settings} {now : Instant} {d d' : Desk} {action : Action}

/-- Slots are neither lost nor made: those that are free and those in use are as many as before. -/
theorem Shift.slots (h : Shift number settings now d action d') (tasks : (d.inFlight.tasks.map (·.1)).Nodup) :
    d'.freeSlots + d'.inUse = d.freeSlots + d.inUse := by
  unfold Desk.inUse
  cases h with
  | granted waiting grants =>
    have := grants.1
    simp only [waiting, Dispatch.slots]; omega
  | chose granted next => simp only [granted, Dispatch.slots]
  | drained granted next => simp only [granted, Dispatch.slots]; omega
  | launched chosen known state =>
    simp only [Desk.put, chosen, Dispatch.slots, List.length_append, List.length_singleton]; omega
  | notLaunched chosen known state => simp only [chosen, Dispatch.slots]; omega
  | dispatchPauses refused pauses => simp only [pauses.slots.1, pauses.slots.2]
  | begun waited known supplied =>
    have := List.length_erase_of_mem waited
    have := List.length_pos_of_mem waited
    simp only [Desk.put, InFlight.size, InFlight.register, List.length_append, List.length_singleton]; omega
  | givenUp waited known unbound unsupplied =>
    have := List.length_erase_of_mem waited
    have := List.length_pos_of_mem waited
    simp only [Desk.put, InFlight.size]; omega
  | concluded flying known sequel =>
    have := InFlight.size_drop tasks flying
    simp only [Desk.put]; omega
  | _ => rfl

/-- A slot is taken, given back or neither. -/
theorem Shift.freeSlots (h : Shift number settings now d action d') :
    d.Takes action ∧ d'.freeSlots + 1 = d.freeSlots ∨
      d.GivesBack (settings.supply ⟨d.inFlight.next⟩) action ∧ d'.freeSlots = d.freeSlots + 1 ∨
      ¬ d.Takes action ∧ ¬ d.GivesBack (settings.supply ⟨d.inFlight.next⟩) action ∧ d'.freeSlots = d.freeSlots := by
  cases h with
  | granted waiting grants => exact .inl ⟨.granted waiting grants, Nat.sub_add_cancel grants.1⟩
  | drained granted next => exact .inr (.inl ⟨.drained granted (Lineup.takeNext_eq_none next).1, rfl⟩)
  | notLaunched chosen known state => exact .inr (.inl ⟨.notRun chosen known state, rfl⟩)
  | givenUp waited known unbound unsupplied => exact .inr (.inl ⟨.unbuildable waited known unbound unsupplied, rfl⟩)
  | concluded flying => exact .inr (.inl ⟨.ended (List.mem_map.2 ⟨_, flying, rfl⟩), rfl⟩)
  | quiet still =>
    -- whoever has nothing to do neither has a slot nor gets one
    refine .inr (.inr ⟨fun takes => ?_, fun gives => ?_, rfl⟩)
    · cases takes with
      | granted waiting grants => simp [Desk.Still, waiting, grants] at still
    · cases gives with
      | drained granted => simp [Desk.Still, granted] at still
      | notRun chosen => simp [Desk.Still, chosen] at still
      | unbuildable waited => exact still waited
      | ended flying => exact still flying
  | closed h =>
    refine .inr (.inr ⟨fun takes => ?_, fun gives => ?_, rfl⟩)
    · cases takes; rcases h with h | h | h <;> cases h
    · cases gives <;> rcases h with h | h | h <;> cases h
  | chose granted next =>
    refine .inr (.inr ⟨fun takes => ?_, fun gives => ?_, rfl⟩)
    · cases takes with
      | granted waiting => cases granted.symm.trans waiting
    · cases gives with
      | drained _ empty => cases (Lineup.takeNext_nil empty).symm.trans next
      | notRun chosen => cases granted.symm.trans chosen
  | launched chosen known state =>
    refine .inr (.inr ⟨fun takes => ?_, fun gives => ?_, rfl⟩)
    · cases takes with
      | granted waiting => cases chosen.symm.trans waiting
    · cases gives with
      | drained granted => cases chosen.symm.trans granted
      | notRun chosen' known' other =>
        cases chosen.symm.trans chosen'
        cases known.symm.trans known'
        exact other state
  | dispatchPauses refused pauses =>
    refine .inr (.inr ⟨fun takes => ?_, fun gives => ?_, rfl⟩)
    · cases takes with
      | granted waiting grants => exact refused waiting grants
    · have none := pauses.slots.1
      cases gives with
      | drained granted => rw [granted] at none; cases none
      | notRun chosen => rw [chosen] at none; cases none
  | begun waited known supplied =>
    refine .inr (.inr ⟨nofun, fun gives => ?_, rfl⟩)
    cases gives with
    | unbuildable _ known' unbound unsupplied =>
      cases known.symm.trans known'
      have built := supplied unbound
      rw [unsupplied] at built
      cases built
  | _ => exact .inr (.inr ⟨nofun, nofun, rfl⟩)

/-- The executions in flight are those there were, but for one that begins under a new number. -/
theorem Shift.tasks (h : Shift number settings now d action d') :
    d.inFlight.next ≤ d'.inFlight.next ∧
      ∀ e ∈ d'.inFlight.tasks, e ∈ d.inFlight.tasks ∨ e.1.number = d.inFlight.next ∧ d.inFlight.next < d'.inFlight.next := by
  cases h with
  | begun waited known supplied =>
    refine ⟨Nat.le_succ _, fun e he => ?_⟩
    rcases List.mem_append.1 he with he | he
    · exact .inl he
    · rw [List.mem_singleton.1 he]
      exact .inr ⟨rfl, Nat.lt_succ_self _⟩
  | givenUp => exact ⟨Nat.le_succ _, fun e he => .inl he⟩
  | concluded => exact ⟨Nat.le_refl _, fun e he => .inl (List.mem_of_mem_filter he)⟩
  | _ => exact ⟨Nat.le_refl _, fun e he => .inl he⟩

end

namespace Scheduler

/-- An execution that has ended: its number has been given and is in flight no more. -/
def Over (s : Scheduler) (task : TaskId) : Prop :=
  task.number < s.board.inFlight.next ∧ task ∉ s.board.inFlight.tasks.map (·.1)

variable {s s₀ : Scheduler} {now : Instant} {action : Action} {task : TaskId}

theorem act_slots (hs : s.Sound) (legal : action.Legal s) :
    (s.act now action).freeSlots + (s.act now action).desk.inUse = s.freeSlots + s.desk.inUse :=
  (act_shift hs legal).slots hs.ledger.tasks

theorem act_freeSlots (hs : s.Sound) (legal : action.Legal s) :
    ((s.act now action).freeSlots + 1 = s.freeSlots ↔ s.desk.Takes action) ∧
      ((s.act now action).freeSlots = s.freeSlots + 1 ↔ s.desk.GivesBack s.supply action) ∧
      (¬ s.desk.Takes action → ¬ s.desk.GivesBack s.supply action → (s.act now action).freeSlots = s.freeSlots) := by
  have shift : Shift _ _ now _ action _ := act_shift hs legal
  rcases shift.freeSlots with ⟨takes, he⟩ | ⟨gives, he⟩ | ⟨keeps, keeps', he⟩
  · have he : (s.act now action).freeSlots + 1 = s.freeSlots := he
    refine ⟨iff_of_true he takes, iff_of_false ?_ takes.not_givesBack, fun h => absurd takes h⟩
    omega
  · have he : (s.act now action).freeSlots = s.freeSlots + 1 := he
    refine ⟨iff_of_false ?_ fun takes => takes.not_givesBack gives, iff_of_true he gives, fun _ h => absurd gives h⟩
    omega
  · have he : (s.act now action).freeSlots = s.freeSlots := he
    refine ⟨iff_of_false ?_ keeps, iff_of_false ?_ keeps', fun _ _ => he⟩
    · omega
    · omega

theorem Over.act (h : s.Over task) (hs : s.Sound) (legal : action.Legal s) : (s.act now action).Over task := by
  have shift : Shift _ _ now s.desk action _ := act_shift hs legal
  obtain ⟨grown, kept⟩ := shift.tasks
  refine ⟨Nat.lt_of_lt_of_le h.1 grown, fun hm => ?_⟩
  obtain ⟨e, he, rfl⟩ := List.mem_map.1 hm
  rcases kept e he with he | ⟨hn, -⟩
  · exact h.2 (List.mem_map.2 ⟨e, he, rfl⟩)
  · exact Nat.ne_of_lt h.1 hn

theorem over_of_ended (hs : s.Sound) (hm : task ∈ s.board.inFlight.tasks.map (·.1)) (ending : Ending) :
    (s.act now (.conclude task ending)).Over task := by
  obtain ⟨e, he, rfl⟩ := List.mem_map.1 hm
  have below := hs.ledger.below e he
  have shift : Shift s.number s.settings now s.desk (.conclude e.1 ending) _ := conclude_shift hs e.1 ending
  generalize hd : (s.act now (.conclude e.1 ending)).desk = d at shift
  have flights : (s.act now (.conclude e.1 ending)).board.inFlight = d.inFlight := congrArg Desk.inFlight hd
  unfold Over
  rw [flights]
  cases shift with
  | quiet still => exact absurd hm still
  | concluded => exact ⟨below, by simp [InFlight.drop]⟩
  | closed h => rcases h with h | h | h <;> cases h

/-! ## Runs -/

/-- What is to be said of the slots of a scheduler. -/
structure Budgeted (s : Scheduler) (slots : Nat) : Prop where
  total : s.freeSlots + s.desk.inUse = slots
  executions : s.launched.length + s.board.inFlight.size ≤ slots
  rest : s.Paused → s.freeSlots + s.board.inFlight.size = slots
  takes : ∀ now action, action.Legal s → ((s.act now action).freeSlots + 1 = s.freeSlots ↔ s.desk.Takes action)
  givesBack : ∀ now action, action.Legal s →
    ((s.act now action).freeSlots = s.freeSlots + 1 ↔ s.desk.GivesBack s.supply action)
  otherwise : ∀ now action, action.Legal s → ¬ s.desk.Takes action → ¬ s.desk.GivesBack s.supply action →
    (s.act now action).freeSlots = s.freeSlots
  /-- An execution ends once. -/
  once : ∀ now task ending more, task ∈ s.board.inFlight.tasks.map (·.1) →
    (s.act now (.conclude task ending)).Allows .fine more →
    task ∉ ((s.act now (.conclude task ending)).run more).board.inFlight.tasks.map (·.1)

theorem run_slots (hs : s.Sound) {grain : Grain} {actions : List (Instant × Action)} (ha : s.Allows grain actions) :
    (s.run actions).freeSlots + (s.run actions).desk.inUse = s.freeSlots + s.desk.inUse := by
  induction actions generalizing s with
  | nil => rfl
  | cons x rest ih => exact (ih (act_sound hs ha.1.legal) ha.2).trans (act_slots hs ha.1.legal)

theorem Over.run (h : s.Over task) (hs : s.Sound) {grain : Grain} {actions : List (Instant × Action)}
    (ha : s.Allows grain actions) : (s.run actions).Over task :=
  run_always (P := (·.Over task)) (fun _ _ _ hs legal h => h.act hs legal) hs ha h

/-- Whatever is done to a scheduler, its executions are never more than it has slots; each dispatch takes one
slot, and each end of a dispatch gives one back. -/
theorem budgeted {number : Nat} {settings : Settings} (h₀ : start number settings = .ok s₀)
    {actions : List (Instant × Action)} (ha : s₀.Allows .fine actions) : (s₀.run actions).Budgeted settings.slots := by
  have hs₀ : s₀.Sound := start_sound h₀
  have hs : (s₀.run actions).Sound := run_sound hs₀ ha
  have total : (s₀.run actions).freeSlots + (s₀.run actions).desk.inUse = settings.slots := by
    rw [run_slots hs₀ ha]
    cases start_eq h₀
    rfl
  generalize s₀.run actions = s at hs total
  have inUse : s.desk.inUse = s.dispatch.slots + s.launched.length + s.board.inFlight.size := rfl
  constructor
  case total => exact total
  case executions => omega
  case rest =>
    intro paused
    have idle : s.dispatch.slots = 0 := by
      rcases paused.dispatch with h | h | ⟨_, h⟩ <;> rw [h] <;> rfl
    rw [inUse, idle, paused.launched] at total
    simpa using total
  case takes => exact fun now action legal => (act_freeSlots hs legal).1
  case givesBack => exact fun now action legal => (act_freeSlots hs legal).2.1
  case otherwise => exact fun now action legal => (act_freeSlots hs legal).2.2
  case once =>
    intro now task ending more hm ha
    exact ((over_of_ended hs hm ending).run (act_sound hs trivial) ha).2

/-- One slot is with the job that runs, and the dispatch loop waits for it. -/
theorem budgeted_busy : (single.run busy).Settled ∧ (single.run busy).board.inFlight.size = 1 ∧ (single.run busy).Budgeted 1 :=
  ⟨busy_settled, by decide +kernel, budgeted start_single busy_allowed.fine⟩

end Scheduler

end Rota
