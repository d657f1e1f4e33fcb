/-
The number of a scheduler, by which it tells its own jobs from those of others: it never changes, and every job it
has accepted bears it.
-/
import Rota.Proofs.Standing

namespace Rota

namespace Scheduler

variable {s s' : Scheduler} {now : Instant} {action : Action}

/-! ## The number -/

theorem accept_number {id : JobId} {work : Work} {plan : Plan} (h : s.accept now id work plan = .ok s') : s'.number = s.number := by
  unfold accept at h
  split at h
  next => cases h
  next =>
    split at h
    all_goals
      simp only [Except.map] at h
      split at h <;> cases h
      rfl

theorem promotionStep_number : (s.promotionStep now).number = s.number := by
  unfold promotionStep stopPromotion promote
  repeat' split
  all_goals rfl

theorem dispatchStep_number {slotFirst : Bool} : (s.dispatchStep now slotFirst).number = s.number := by
  unfold dispatchStep stopDispatch choose launch
  repeat' split
  all_goals rfl

theorem begin_number : (s.begin now).2.number = s.number := by
  unfold begin
  split
  next => rfl
  next =>
    dsimp only
    split
    next => rfl
    next => split <;> rfl

/-- No action gives a scheduler another number. -/
theorem act_number (hs : s.Sound) : (s.act now action).number = s.number := by
  cases action with
  | schedule made id work request =>
    simp only [act]
    cases h : s.schedule made now id work request with
    | error fault => rfl
    | ok answer =>
      cases answer with
      | error refusal => rfl
      | ok s' =>
        obtain ⟨plan, -, ha⟩ := schedule_eq_ok h
        exact accept_number ha
  | cancel id =>
    simp only [act]
    cases hj : s.board.job? id with
    | none => rfl
    | some job =>
      simp only [Option.bind_some]
      cases hc : s.cancel job with
      | error refusal => rfl
      | ok s' =>
        obtain ⟨-, rfl⟩ := cancel_eq_ok hs hj hc
        rfl
  | performNow id =>
    simp only [act]
    cases hj : s.board.job? id with
    | none => rfl
    | some job =>
      simp only [Option.bind_some]
      cases hc : s.performNow job with
      | error refusal => rfl
      | ok s' =>
        obtain ⟨-, rfl⟩ := performNow_eq_ok hj hc
        rfl
  | dispose => simp only [act, dispose]; split <;> rfl
  | shutDown => simp only [act, shutDown, dispose]; split <;> rfl
  | abandon => rfl
  | promotion => exact promotionStep_number
  | dispatch => exact dispatchStep_number
  | begin id =>
    simp only [act]
    split
    next => exact begin_number
    next => rfl
  | conclude task ending =>
    simp only [act]
    split <;> rfl

/-! ## The jobs that bear it -/

/-- A job that was accepted by a scheduler is its own. -/
def Owns (s : Scheduler) : Prop := ∀ id job, s.board.job? id = some job → job.owner = some s.number

/-- What a scheduler does not refuse as another's is its own. -/
theorem ensureOwned_eq_ok {job : Job} {operation : Operation} :
    s.ensureOwned job operation = .ok () ↔ job.owner = some s.number := by
  simp [ensureOwned, Job.isOwnedBy]

theorem cancel_owner {job : Job} (h : s.cancel job = .ok s') : job.owner = some s.number := by
  unfold cancel at h
  cases ho : s.ensureOwned job .cancel with
  | error refusal => rw [ho] at h; cases h
  | ok => exact ensureOwned_eq_ok.1 ho

theorem performNow_owner {job : Job} (h : s.performNow job = .ok s') : job.owner = some s.number := by
  unfold performNow at h
  cases ho : s.ensureOwned job .performNow with
  | error refusal => rw [ho] at h; cases h
  | ok => exact ensureOwned_eq_ok.1 ho

theorem Owns.act (h : s.Owns) (hs : s.Sound) (legal : action.Legal s) : (s.act now action).Owns := by
  intro id job' hj'
  have step : s.Step now action _ := act_step hs legal
  rw [act_number hs]
  cases hj : s.board.job? id with
  | some job =>
    obtain ⟨marks, job'', passage, hj'', -⟩ := step.effect.passage hj
    cases hj''.symm.trans hj'
    rw [passage.terms_eq.2]
    exact h id job hj
  | none =>
    -- a job that turns up has been accepted, and under the number of the scheduler
    obtain ⟨_, work, request, plan, state, -, -, -, -, rfl⟩ := act_turns_up hs legal hj hj'
    rfl

/-- Wherever a run leads, the jobs of a scheduler are its own. -/
theorem Reached.owns {grain : Grain} (h : s.Reached grain) : s.Owns := by
  refine Reached.sound_induct ?_ ?_ h
  · intro number settings s h₀ id job hj
    cases (start_unknown h₀ id).symm.trans hj
  · intro s now action hs owns legal
    exact owns.act hs legal

end Scheduler

end Rota
