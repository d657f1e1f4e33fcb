/-
How executions begin, as the journal tells it: which instances were built, and who performed which attempt. Only the
beginning of an execution adds to that, and what it adds depends on whether the job has an instance already.
-/
import Rota.Proofs.Desk

namespace Rota

/-! ## Events -/

/-- Whether an event is one of the beginning of an attempt. -/
def Event.opens : Event → Bool
  | .built .. | .executing .. => true
  | _ => false

/-- The attempt of a job that an event tells of: under which number it began, and who performs it. -/
def Event.attempt? (id : JobId) : Event → Option (TaskId × Instance)
  | .executing job task performer => if job = id then some (task, performer) else none
  | _ => none

/-- The instance that was built for a job as an event tells it, with the number of the attempt it was built for. -/
def Event.build? (id : JobId) : Event → Option (TaskId × Instance)
  | .built job task kind maker => if job = id then some (task, ⟨kind, kind.name, .built task maker⟩) else none
  | _ => none

namespace Board

/-- What the journal tells of the beginnings of attempts, the latest first. -/
def openings (board : Board) : List Event := board.journal.filter Event.opens

/-- The attempts of a job that have begun, the latest first. -/
def attempts (board : Board) (id : JobId) : List (TaskId × Instance) := board.journal.filterMap (·.attempt? id)

/-- The instances built for a job, the latest first. -/
def builds (board : Board) (id : JobId) : List (TaskId × Instance) := board.journal.filterMap (·.build? id)

theorem attempts_eq (board : Board) (id : JobId) : board.attempts id = board.openings.filterMap (·.attempt? id) := by
  unfold attempts openings
  rw [List.filterMap_filter]
  refine List.filterMap_congr fun event _ => ?_
  cases event <;> simp [Event.attempt?, Event.opens]

theorem builds_eq (board : Board) (id : JobId) : board.builds id = board.openings.filterMap (·.build? id) := by
  unfold builds openings
  rw [List.filterMap_filter]
  refine List.filterMap_congr fun event _ => ?_
  cases event <;> simp [Event.build?, Event.opens]

/-! ## Operations of a board -/

section

variable {board : Board} {id : JobId}

theorem openings_write {event : Event} (h : event.opens = false) : (board.write event).openings = board.openings := by
  unfold openings
  exact List.filter_cons_of_neg (by simp [h])

@[simp] theorem openings_put (job : Job) : (board.put job).openings = board.openings := rfl
@[simp] theorem openings_drop (task : TaskId) : (board.drop task).openings = board.openings := rfl

@[simp] theorem openings_insert : (board.insert id).openings = board.openings := by
  unfold insert
  split
  · rfl
  · split
    · rfl
    · exact openings_write rfl

@[simp] theorem openings_push : (board.push id).openings = board.openings := by
  unfold push
  split
  · rfl
  · split
    · rfl
    · exact openings_write rfl

@[simp] theorem openings_finish : (board.finish id).openings = board.openings := by
  unfold finish
  split
  · rfl
  · split <;> rfl

theorem openings_move {operation : Job → Except Refusal Job} {board' : Board} (h : board.move id operation = .ok board') :
    board'.openings = board.openings := by
  unfold move at h
  split at h
  · cases h
    rfl
  · rename_i job _
    cases ho : operation job with
    | error refusal => rw [ho] at h; cases h
    | ok moved => rw [ho] at h; cases h; rfl

theorem openings_moveOrNote {operation : Job → Except Refusal Job} {note : Refusal → Event}
    (h : ∀ refusal, (note refusal).opens = false) : (board.moveOrNote id operation note).openings = board.openings := by
  unfold moveOrNote
  split
  · rename_i moved
    exact openings_move moved
  · exact openings_write (h _)

theorem openings_recurOrFinish {board' : Board} (h : board.recurOrFinish id = .ok board') :
    board'.openings = board.openings := by
  unfold recurOrFinish at h
  split at h
  · cases h
    rfl
  · rename_i job _
    cases hn : job.advance with
    | error fault => rw [hn] at h; cases h
    | ok answer =>
      rw [hn] at h
      cases h
      obtain ⟨_ | due, job⟩ := answer
      · exact openings_finish
      · dsimp only
        split
        · rename_i moved
          rw [openings_insert, openings_write rfl, openings_move moved, openings_put]
        · rw [openings_finish, openings_write rfl, openings_put]

theorem openings_sendBack (retryAt : Option Instant) : (board.sendBack id retryAt).openings = board.openings := by
  unfold sendBack
  split
  · rename_i moved
    split
    · rw [openings_insert, openings_move moved]
    · rw [openings_push, openings_move moved]
  · rw [openings_finish, openings_write rfl]

theorem openings_settle (now : Instant) (task : TaskId) (ending : Ending) :
    (board.settle now id task ending).openings = board.openings := by
  unfold settle
  split
  · rw [openings_drop, openings_moveOrNote fun _ => rfl, openings_write rfl]
  · rw [openings_drop, openings_moveOrNote fun _ => rfl]

theorem openings_route (policy : RetryPolicy) (now : Instant) (ending : Ending) :
    (board.route policy now id ending).1.openings = board.openings := by
  unfold route
  split
  · rfl
  · split
    · rename_i routed
      exact openings_recurOrFinish routed
    · rfl
  · split
    · split
      · rw [openings_sendBack, openings_write rfl]
      · rfl
    · dsimp only
      split
      · rename_i routed
        rw [openings_recurOrFinish routed, openings_write rfl]
      · exact openings_write rfl

end

/-- What the journal tells when an execution of a job begins: the attempt is performed by the instance bound to it, or
by one that is built for it; or there is none. -/
inductive Opening (supply : Supply) (task : TaskId) (job : Job) : List Event → Prop
  | bound {performer : Instance} (h : job.bound = some performer) :
    Opening supply task job [.executing job.id task performer]
  | built {maker : Maker} (unbound : job.bound = none) (h : supply.maker? job.kind = some maker) :
    Opening supply task job
      [.executing job.id task ⟨job.kind, job.kind.name, .built task maker⟩, .built job.id task job.kind maker]
  | abandoned (unbound : job.bound = none) (h : supply.maker? job.kind = none) : Opening supply task job []

theorem openings_begin (board : Board) (supply : Supply) (now : Instant) (job : Job) :
    ∃ events, Opening supply ⟨board.inFlight.next⟩ job events ∧
      (board.begin supply now job).2.openings = events ++ board.openings := by
  unfold begin
  cases hb : job.bound with
  | some performer => exact ⟨_, .bound hb, rfl⟩
  | none =>
    cases hm : supply.maker? job.kind with
    | some maker => exact ⟨_, .built hb hm, rfl⟩
    | none =>
      refine ⟨[], .abandoned hb hm, ?_⟩
      show (((((board.register job.id).2.write (.abandoned job.id job.kind)).moveOrNote job.id _ _).drop _).finish
        job.id).openings = _
      rw [openings_finish, openings_drop, openings_moveOrNote fun _ => rfl, openings_write rfl]
      rfl

end Board

/-! ## Actions -/

namespace Scheduler

variable {s s' : Scheduler} {now : Instant} {action : Action}

theorem accept_openings {id : JobId} {work : Work} {plan : Plan} (h : s.accept now id work plan = .ok s') :
    s'.board.openings = s.board.openings := by
  unfold accept at h
  split at h
  · cases h
  · dsimp only at h
    split at h
    all_goals
      simp only [Except.map] at h
      split at h <;> cases h
      rename_i moved
      have kept := Board.openings_move moved
      simp only [Board.openings_push, Board.openings_insert]
      rw [Board.openings_write rfl]
      exact kept

theorem promotionStep_openings : (s.promotionStep now).board.openings = s.board.openings := by
  unfold promotionStep stopPromotion promote
  split
  · split
    · exact Board.openings_write rfl
    · split <;> rename_i taken <;> exact congrArg (fun b : List JobId × Board => b.2.openings) taken.symm
  · rfl
  · split
    · rename_i moved
      exact (Board.openings_push.trans (Board.openings_write rfl)).trans (Board.openings_move moved)
    · exact Board.openings_write rfl
  · rfl
  · split <;> rfl
  · split
    · exact Board.openings_write rfl
    · split
      · rfl
      · split <;> rfl
  · rfl

theorem dispatchStep_openings {slotFirst : Bool} : (s.dispatchStep now slotFirst).board.openings = s.board.openings := by
  unfold dispatchStep stopDispatch choose launch
  split
  · split
    · exact Board.openings_write rfl
    · split <;> rfl
  · split <;> rfl
  · split
    · exact Board.openings_write rfl
    · split
      · rfl
      · split <;> rfl
  · split
    · rfl
    · split
      · exact Board.openings_write rfl
      · rfl
  · split <;> rename_i taken <;> exact congrArg (fun b : Option JobId × Board => b.2.openings) taken.symm
  · split
    · rename_i moved
      exact Board.openings_move moved
    · exact Board.openings_write rfl
  · rfl

/-- Nothing but the beginning of an execution opens an attempt. -/
theorem act_openings (hs : s.Sound) (h : ∀ id, action ≠ .begin id) :
    (s.act now action).board.openings = s.board.openings := by
  cases action with
  | schedule made id work request =>
    simp only [act]
    cases h : s.schedule made now id work request with
    | error fault => rfl
    | ok answer =>
      cases answer with
      | error refusal => rfl
      | ok s' =>
        obtain ⟨plan, -, accepted⟩ := schedule_eq_ok h
        exact accept_openings accepted
  | cancel id =>
    simp only [act]
    cases hj : s.board.job? id with
    | none => rfl
    | some job =>
      simp only [Option.bind_some]
      cases hc : s.cancel job with
      | error refusal => rfl
      | ok s' =>
        obtain ⟨-, rfl⟩ := cancel_eq_ok hs hj hc
        exact (Board.openings_write rfl).trans Board.openings_finish
  | performNow id =>
    simp only [act]
    cases hj : s.board.job? id with
    | none => rfl
    | some job =>
      simp only [Option.bind_some]
      cases hc : s.performNow job with
      | error refusal => rfl
      | ok s' =>
        obtain ⟨-, rfl⟩ := performNow_eq_ok hj hc
        exact Board.openings_push.trans (Board.openings_write rfl)
  | dispose =>
    simp only [act, dispose]
    split
    · rfl
    · exact Board.openings_write rfl
  | shutDown =>
    simp only [act, shutDown, dispose]
    split
    · exact Board.openings_write rfl
    · exact (Board.openings_write rfl).trans (Board.openings_write rfl)
  | abandon => rfl
  | promotion => exact promotionStep_openings
  | dispatch => exact dispatchStep_openings
  | begin id => exact absurd rfl (h id)
  | conclude task ending =>
    simp only [act]
    split
    · exact (Board.openings_route ..).trans (Board.openings_settle ..)
    · rfl

theorem begin_board {id : JobId} (hl : id ∈ s.launched) {job : Job} (hj : s.board.job? id = some job) (now : Instant) :
    (s.act now (.begin id)).board = (s.board.begin s.supply now job).2 := by
  simp only [act, if_pos hl, begin, hj]
  rw [show Scheduler.supply { s with launched := s.launched.erase id } = s.supply from rfl]
  rcases s.board.begin s.supply now job with ⟨_ | _, board⟩ <;> rfl

/-- An execution that begins opens an attempt of its job, if it can be performed. -/
theorem begin_openings {id : JobId} (hl : id ∈ s.launched) {job : Job} (hj : s.board.job? id = some job) (now : Instant) :
    ∃ events, Board.Opening s.supply ⟨s.board.inFlight.next⟩ job events ∧
      (s.act now (.begin id)).board.openings = events ++ s.board.openings := by
  rw [begin_board hl hj]
  exact Board.openings_begin s.board s.supply now job

/-- The numbers of executions are given out one after another, at their beginning. -/
theorem begin_next (hs : s.Sound) {id : JobId} (hl : id ∈ s.launched) (now : Instant) :
    (s.act now (.begin id)).board.inFlight.next = s.board.inFlight.next + 1 := by
  have shift : Shift s.number s.settings now s.desk (.begin id) (s.act now (.begin id)).desk := begin_shift hs id
  show (s.act now (.begin id)).desk.inFlight.next = s.desk.inFlight.next + 1
  generalize (s.act now (.begin id)).desk = d at shift
  cases shift with
  | quiet still => exact absurd hl still
  | closed h => rcases h with h | h | h <;> cases h
  | begun => rfl
  | givenUp => rfl

/-- An instance that a job has it keeps when its execution begins. -/
theorem begin_bound {id : JobId} (hl : id ∈ s.launched) {job : Job} (hj : s.board.job? id = some job)
    (bound : job.bound.isSome = true) (now : Instant) : (s.act now (.begin id)).board.job? id = some job := by
  obtain ⟨performer, hb⟩ := Option.isSome_iff_exists.1 bound
  rw [begin_board hl hj]
  unfold Board.begin
  rw [hb]
  exact hj

/-- Unless an execution is about to begin, to begin it is to do nothing. -/
theorem begin_idle {id : JobId} (hl : id ∉ s.launched) : s.act now (.begin id) = s := by
  simp only [act, if_neg hl]

end Scheduler

end Rota
