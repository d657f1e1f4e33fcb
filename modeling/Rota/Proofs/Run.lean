/-
Runs of a scheduler: calls, steps of its two loops, and beginnings and ends of executions, in any
order and each at an instant of its own, so that the clock may stand still, leap or go back between
two of them. A call that is refused leaves the scheduler as it is.
-/
import Rota.Scheduler

namespace Rota

/-! ## Actions -/

/-- Something that is done to a scheduler, or that it does. -/
inductive Action
  /-- A caller gives it a job, the plan of which was made at an instant, to be accepted under a number. -/
  | schedule (made : Instant) (id : JobId) (work : Work) (request : Request)
  | cancel (id : JobId)
  | performNow (id : JobId)
  | dispose
  | shutDown
  | abandon
  /-- One step of the promotion loop. -/
  | promotion
  /-- One step of the dispatch loop, which takes a slot before it hears of disposal, or not. -/
  | dispatch (slotFirst : Bool)
  /-- The execution of a job that has been launched begins, in whatever order they were launched. -/
  | begin (id : JobId)
  /-- An attempt under way ends. -/
  | conclude (task : TaskId) (ending : Ending)

namespace Scheduler

/-- The scheduler after an action at an instant. -/
def act (s : Scheduler) (now : Instant) : Action → Scheduler
  | .schedule made id work request => ((s.schedule made now id work request).toOption.bind (·.toOption)).getD s
  | .cancel id => ((s.board.job? id).bind fun job => (s.cancel job).toOption).getD s
  | .performNow id => ((s.board.job? id).bind fun job => (s.performNow job).toOption).getD s
  | .dispose => s.dispose
  | .shutDown => s.shutDown
  | .abandon => s.abandon
  | .promotion => s.promotionStep now
  | .dispatch slotFirst => s.dispatchStep now slotFirst
  | .begin id =>
    if id ∈ s.launched then ({ s with launched := id :: s.launched.erase id }.begin now).2 else s
  | .conclude task ending =>
    match s.board.inFlight.tasks.lookup task with
    | some id => s.conclude now id task ending
    | none => s

/-- The jobs that the promotion loop has taken out of the timetable and not yet promoted. -/
def inHand (s : Scheduler) : List JobId :=
  match s.promotion with
  | .holding batch => batch
  | _ => []

/-- The job that the dispatch loop has taken out of the lineup and not yet launched. -/
def chosen (s : Scheduler) : List JobId :=
  match s.dispatch with
  | .chosen id => [id]
  | _ => []

end Scheduler

/-! ## Runs -/

/-- How finely the actions of a run interleave. -/
inductive Grain
  /-- Anything may come between the taking of a due job and its promotion. -/
  | fine
  /-- A sweep of the promotion loop is one step for the jobs it moves: none of them is performed
  early between being taken out of the timetable and being promoted. -/
  | coarse
deriving DecidableEq

/-- What callers see to: numbers are drawn afresh, and a cron schedule has been read from a text. -/
def Action.Legal (s : Scheduler) : Action → Prop
  | .schedule _ id _ request =>
    s.board.job? id = none ∧ ∀ cron delay, request.timing = .cron cron delay → ∃ text, Cron.parse? text = some cron
  | _ => True

/-- Whether an action may come at this point of a run. -/
structure Action.Fits (grain : Grain) (s : Scheduler) (action : Action) : Prop where
  legal : action.Legal s
  whole : grain = .coarse → ∀ id ∈ s.inHand, action ≠ .performNow id

/-- Whether an action brings the scheduler a job. -/
def Action.brings : Action → Bool
  | .schedule .. => true
  | _ => false

theorem Action.fits_of_not_brings {s : Scheduler} {action : Action} (h : action.brings = false) :
    action.Fits .fine s := by
  refine ⟨?_, nofun⟩
  cases action <;> trivial

namespace Scheduler

/-- The scheduler after some actions. -/
def run (s : Scheduler) : List (Instant × Action) → Scheduler
  | [] => s
  | (now, action) :: rest => (s.act now action).run rest

/-- Whether some actions may follow one another from here on. -/
def Allows (grain : Grain) (s : Scheduler) : List (Instant × Action) → Prop
  | [] => True
  | (now, action) :: rest => action.Fits grain s ∧ (s.act now action).Allows grain rest

/-- Whether a run may lead from the start of a scheduler to this state. -/
def Reached (grain : Grain) (s : Scheduler) : Prop :=
  ∃ number settings s₀ actions,
    start number settings = .ok s₀ ∧ s₀.Allows grain actions ∧ s = s₀.run actions

/-- A scheduler starts with nothing to do. -/
theorem start_eq {number : Nat} {settings : Settings} {s : Scheduler} (h : start number settings = .ok s) :
    s = ⟨number, settings, .empty, settings.slots, false, .looking, .looking, .dispatch, []⟩ := by
  unfold start at h
  split at h <;> cases h
  rfl

theorem run_append (s : Scheduler) (a b : List (Instant × Action)) : s.run (a ++ b) = (s.run a).run b := by
  induction a generalizing s with
  | nil => rfl
  | cons x a ih => exact ih _

theorem allows_append (grain : Grain) (s : Scheduler) (a b : List (Instant × Action)) :
    s.Allows grain (a ++ b) ↔ s.Allows grain a ∧ (s.run a).Allows grain b := by
  induction a generalizing s with
  | nil => simp [Allows, run]
  | cons x a ih => simp [Allows, run, ih, and_assoc]

/-- A run by whole sweeps is a run. -/
theorem Allows.fine {grain : Grain} {s : Scheduler} {actions : List (Instant × Action)} (h : s.Allows grain actions) :
    s.Allows .fine actions := by
  induction actions generalizing s with
  | nil => trivial
  | cons x rest ih => exact ⟨⟨h.1.legal, nofun⟩, ih h.2⟩

/-- Actions that bring no job may come at any point of a run. -/
theorem Allows.of_not_brings {s : Scheduler} {actions : List (Instant × Action)}
    (h : actions.any (·.2.brings) = false) : s.Allows .fine actions := by
  induction actions generalizing s with
  | nil => trivial
  | cons x rest ih =>
    rw [List.any_cons, Bool.or_eq_false_iff] at h
    exact ⟨Action.fits_of_not_brings h.1, ih h.2⟩

/-- What holds at the start and is kept by every action holds wherever a run leads. -/
theorem Reached.induct {grain : Grain} {P : Scheduler → Prop}
    (start : ∀ number settings s, Scheduler.start number settings = .ok s → P s)
    (act : ∀ s now action, P s → Action.Fits grain s action → P (s.act now action)) {s : Scheduler}
    (h : s.Reached grain) : P s := by
  obtain ⟨number, settings, s₀, actions, h₀, ha, rfl⟩ := h
  have hp := start number settings s₀ h₀
  clear h₀
  induction actions generalizing s₀ with
  | nil => exact hp
  | cons x rest ih => exact ih _ ha.2 (act _ _ _ hp ha.1)

theorem Reached.run {grain : Grain} {s : Scheduler} (h : s.Reached grain) {actions : List (Instant × Action)}
    (ha : s.Allows grain actions) : (s.run actions).Reached grain := by
  obtain ⟨number, settings, s₀, before, h₀, hb, rfl⟩ := h
  exact ⟨number, settings, s₀, before ++ actions, h₀, (allows_append ..).2 ⟨hb, ha⟩, (run_append ..).symm⟩

/-! ## Rest -/

/-- Both loops have come to rest, and no execution is about to begin. -/
structure Paused (s : Scheduler) : Prop where
  promotion : s.promotion = .stopped ∨ ∃ read delay, s.promotion = .parked read delay
  dispatch : s.dispatch = .stopped ∨ s.dispatch = .waiting ∨ ∃ read, s.dispatch = .parked read
  launched : s.launched = []

theorem Paused.inHand {s : Scheduler} (h : s.Paused) : s.inHand = [] := by
  rcases h.promotion with h | ⟨_, _, h⟩ <;> simp [Scheduler.inHand, h]

theorem Paused.chosen {s : Scheduler} (h : s.Paused) : s.chosen = [] := by
  rcases h.dispatch with h | h | ⟨_, h⟩ <;> simp [Scheduler.chosen, h]

/-- Nothing goes on until time passes or somebody calls: neither loop has anything to wake up for, be it a bell or a
slot to take, and no execution is about to begin. -/
structure Settled (s : Scheduler) : Prop where
  asleep : ∃ now, ∀ loop, s.awake now loop = false
  launched : s.launched = []

theorem Settled.paused {s : Scheduler} (h : s.Settled) : s.Paused := by
  obtain ⟨now, asleep⟩ := h.asleep
  refine ⟨?_, ?_, h.launched⟩
  · have promotion : s.promotionAwake now = false := asleep .promotion
    unfold promotionAwake at promotion
    split at promotion
    next read delay parked => exact .inr ⟨read, delay, parked⟩
    next stopped => exact .inl stopped
    next => cases promotion
  · have dispatch : s.dispatchAwake now = false := asleep .dispatch
    unfold dispatchAwake at dispatch
    split at dispatch
    next read parked => exact .inr (.inr ⟨read, parked⟩)
    next waiting => exact .inr (.inl waiting)
    next stopped => exact .inl stopped
    next => cases dispatch

/-- A loop that rests while it waits for a slot has none to take, and hears of nobody who waits while it sleeps. -/
theorem Settled.starved {s : Scheduler} (h : s.Settled) (on : s.disposed = false) :
    (s.dispatch = .waiting → s.freeSlots = 0) ∧ ∀ read, s.dispatch = .parked read → s.board.lineup.bell = false := by
  obtain ⟨now, asleep⟩ := h.asleep
  have dispatch : s.dispatchAwake now = false := asleep .dispatch
  unfold dispatchAwake at dispatch
  constructor
  · intro waiting
    rw [waiting] at dispatch
    simpa [on] using dispatch
  · intro read parked
    rw [parked] at dispatch
    simp only [Bool.or_eq_false_iff] at dispatch
    exact dispatch.1.2

end Scheduler

/-! ## A scheduler with one slot

On it the statements about runs are tried out. -/

/-- One second after the start of 1970. -/
def Instant.afterSecond : Instant := ⟨1000000000, by decide⟩

def Instant.afterTwo : Instant := ⟨2000000000, by decide⟩

def Kind.plain : Kind := ⟨"Plain", .medium, true⟩

/-- A caller gives a job of a plain kind, to run once. -/
def Action.plain (id : Nat) (start : Start) (limit : RetryLimit) : Action :=
  .schedule .epoch ⟨id⟩ (.ofKind .plain) ((Request.of (.once start)).withLimit limit)

theorem Action.fits_plain {grain : Grain} {s : Scheduler} {id : Nat} {start : Start} {limit : RetryLimit}
    (unknown : s.board.job? ⟨id⟩ = none) : (Action.plain id start limit).Fits grain s :=
  ⟨⟨unknown, fun _ _ h => by cases h⟩, fun _ _ _ h => by cases h⟩

namespace Scheduler

def single : Scheduler :=
  ⟨0, { Settings.default with slots := 1 }, .empty, 1, false, .looking, .looking, .dispatch, []⟩

theorem start_single : start 0 { Settings.default with slots := 1 } = .ok single := rfl

end Scheduler

end Rota
