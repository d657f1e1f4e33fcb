/-
No loop sleeps through what it is to see. Whoever puts a job into a queue rings the bell of the queue, and whatever
else happens to a queue only takes jobs out of it; so what a loop found when it looked goes on holding, while the bell
is silent, however the operations on the queues fall between the steps in which it looks, measures how long it may
sleep, and parks.
-/
import Rota.Proofs.Agenda
import Rota.Proofs.Steps
import Mathlib.Data.List.Induction

namespace Rota

/-! ## Queues that are told of -/

namespace Timetable

/-- The two tables of a timetable tell the same, and its entries stand in order. -/
structure Sorted (t : Timetable) : Prop where
  wf : t.WF
  ordered : t.Ordered

/-- What an operation makes of a timetable: it stays sorted, and nothing comes in unless the bell is rung. -/
structure Tells (t t' : Timetable) : Prop where
  sorted : t.Sorted → t'.Sorted
  told : t'.bell = true ∨ t'.bySlot.Sublist t.bySlot ∧ t'.bell = t.bell

/-- Nothing is due before a time, or the bell tells that something may be. -/
def Quiet (t : Timetable) (time : Int) : Prop := t.bell = true ∨ ∀ e ∈ t.bySlot, time ≤ e.1.due.nanos

variable {t t' t'' : Timetable}

theorem Tells.refl (t : Timetable) : t.Tells t := ⟨id, .inr ⟨.refl _, rfl⟩⟩

theorem Tells.trans (h : t.Tells t') (h' : t'.Tells t'') : t.Tells t'' := by
  refine ⟨h'.sorted ∘ h.sorted, ?_⟩
  rcases h'.told with rung | ⟨fewer', same'⟩
  · exact .inl rung
  · rcases h.told with rung | ⟨fewer, same⟩
    · exact .inl (same'.trans rung)
    · exact .inr ⟨fewer'.trans fewer, same'.trans same⟩

theorem Tells.quiet (h : t.Tells t') {time : Int} (quiet : t.Quiet time) : t'.Quiet time := by
  rcases h.told with rung | ⟨fewer, same⟩
  · exact .inl rung
  · rcases quiet with rung | late
    · exact .inl (same.trans rung)
    · exact .inr fun e he => late e (fewer.subset he)

theorem tells_insert (t : Timetable) {job : Job} (state : job.state = .scheduled) : t.Tells (t.insert job) := by
  refine ⟨fun sorted => ⟨sorted.wf.insert state, sorted.wf.insert_ordered sorted.ordered state⟩, .inl ?_⟩
  unfold insert
  rw [if_neg (by simp [state])]

theorem tells_remove (t : Timetable) (id : JobId) : t.Tells (t.remove id).2 := by
  have fewer : (t.remove id).2.bySlot.Sublist t.bySlot := by
    unfold remove
    split
    · exact .refl _
    · exact List.filter_sublist
  have silent : (t.remove id).2.bell = t.bell := by unfold remove; split <;> rfl
  exact ⟨fun sorted => ⟨sorted.wf.remove id, sorted.ordered.sublist fewer⟩, .inr ⟨fewer, silent⟩⟩

theorem tells_takeDue (t : Timetable) (time : Instant) : t.Tells (t.takeDue time).2 :=
  have fewer : (t.takeDue time).2.bySlot.Sublist t.bySlot := List.dropWhile_sublist _
  ⟨fun sorted => ⟨sorted.wf.takeDue time, sorted.ordered.sublist fewer⟩, .inr ⟨fewer, rfl⟩⟩

/-- What is left when the jobs due by an instant are taken out is due later. -/
theorem Sorted.quiet_takeDue (h : t.Sorted) (now : Instant) : (t.takeDue now).2.Quiet (now.nanos + 1) := by
  refine .inr fun e he => ?_
  rw [(h.ordered.takeDue now).2, List.mem_filter] at he
  have late : ¬ e.1.due.nanos ≤ now.nanos := of_decide_eq_false (Bool.not_eq_true' _ ▸ he.2)
  omega

/-! ## How long a loop may sleep -/

theorem idleDelay_le (t : Timetable) (rate : Duration) (now : Instant) : t.idleDelay rate now ≤ rate := by
  unfold idleDelay
  split
  next untilDue _ =>
    show min untilDue rate ≤ rate
    rw [show min untilDue rate = if untilDue ≤ rate then untilDue else rate from rfl]
    split
    · assumption
    · exact Nat.le_refl _
  next => exact Nat.le_refl _

/-- If nothing was due at an instant, nothing comes to be due in the time that the loop may sleep from then on. -/
theorem Sorted.quiet_idleDelay (h : t.Sorted) {rate : Duration} {now : Instant} (quiet : t.Quiet (now.nanos + 1)) :
    t.Quiet (now.nanos + (t.idleDelay rate now).nanos) := by
  refine quiet.imp_right fun late => ?_
  intro e he
  -- the first entry is the one that is due next, and the delay ends with it at the latest
  obtain ⟨first, rest, entries⟩ := List.exists_cons_of_ne_nil (List.ne_nil_of_mem he)
  have next : first.1.due ≤ e.1.due := by
    have ordered : (first :: rest).Pairwise fun e f => e.1.before f.1 = true := entries ▸ h.ordered
    rcases List.mem_cons.1 (entries ▸ he) with rfl | he
    · exact Int.le_refl _
    · exact Slot.due_le_of_before ((List.pairwise_cons.1 ordered).1 e he)
  have ahead : now.nanos + 1 ≤ first.1.due.nanos := late first (entries ▸ List.mem_cons_self)
  have delay : (t.idleDelay rate now).nanos ≤ (first.1.due.nanos - now.nanos).toNat := by
    have known : now ≤ first.1.due := Int.le_of_lt ahead
    unfold idleDelay nextDueAt
    rw [entries]
    simp only [List.head?_cons, Option.map_some, Option.bind_some, Instant.until?, if_pos known]
    rw [show ∀ a b : Duration, min a b = if a ≤ b then a else b from fun _ _ => rfl]
    split
    · exact Nat.le_refl _
    next longer => exact Nat.le_of_lt (Nat.lt_of_not_le longer)
  have : first.1.due.nanos ≤ e.1.due.nanos := next
  omega

end Timetable

namespace Lineup

/-- What an operation makes of a lineup: nobody joins unless the bell is rung. -/
def Tells (lineup lineup' : Lineup) : Prop :=
  lineup'.bell = true ∨ lineup'.waiters.Sublist lineup.waiters ∧ lineup'.bell = lineup.bell

/-- Nobody waits, or the bell tells that somebody may. -/
def Quiet (lineup : Lineup) : Prop := lineup.bell = true ∨ lineup.waiters = []

variable {l l' l'' : Lineup}

theorem Tells.refl (l : Lineup) : l.Tells l := .inr ⟨.refl _, rfl⟩

theorem Tells.trans (h : l.Tells l') (h' : l'.Tells l'') : l.Tells l'' := by
  rcases h' with rung | ⟨fewer', same'⟩
  · exact .inl rung
  · rcases h with rung | ⟨fewer, same⟩
    · exact .inl (same'.trans rung)
    · exact .inr ⟨fewer'.trans fewer, same'.trans same⟩

theorem Tells.quiet (h : l.Tells l') (quiet : l.Quiet) : l'.Quiet := by
  rcases h with rung | ⟨fewer, same⟩
  · exact .inl rung
  · rcases quiet with rung | empty
    · exact .inl (same.trans rung)
    · exact .inr (List.sublist_nil.1 (empty ▸ fewer))

theorem tells_push (l : Lineup) {job : Job} (state : job.state = .enqueued) : l.Tells (l.push job) := by
  unfold push
  rw [if_neg (by simp [state])]
  exact .inl rfl

theorem tells_remove (l : Lineup) (id : JobId) : l.Tells (l.remove id).2 := by
  unfold remove
  split
  · exact .refl _
  · exact .inr ⟨List.eraseIdx_sublist .., rfl⟩

theorem tells_takeNext (l : Lineup) : l.Tells l.takeNext.2 := by
  unfold takeNext
  split
  · exact .refl _
  · exact .inr ⟨List.eraseIdx_sublist .., rfl⟩

end Lineup

/-! ## The board -/

namespace Board

/-- What an operation makes of the queues of a board: nothing comes into either unless its bell is rung. -/
structure Tells (board board' : Board) : Prop where
  timetable : board.timetable.Tells board'.timetable
  lineup : board.lineup.Tells board'.lineup

variable {b b' b'' : Board}

theorem Tells.refl (b : Board) : b.Tells b := ⟨.refl _, .refl _⟩

theorem Tells.trans (h : b.Tells b') (h' : b'.Tells b'') : b.Tells b'' :=
  ⟨h.timetable.trans h'.timetable, h.lineup.trans h'.lineup⟩

/-- An operation that leaves the queues alone. -/
theorem Tells.of_eq (timetable : b'.timetable = b.timetable) (lineup : b'.lineup = b.lineup) : b.Tells b' :=
  ⟨timetable ▸ .refl _, lineup ▸ .refl _⟩

theorem tells_put (b : Board) (job : Job) : b.Tells (b.put job) := .of_eq rfl rfl

theorem tells_write (b : Board) (event : Event) : b.Tells (b.write event) := .of_eq rfl rfl

theorem tells_drop (b : Board) (task : TaskId) : b.Tells (b.drop task) := .of_eq rfl rfl

theorem tells_insert (b : Board) (id : JobId) : b.Tells (b.insert id) := by
  unfold insert
  split
  next => exact .refl b
  next =>
    split
    next state => exact ⟨b.timetable.tells_insert state, .refl _⟩
    next => exact tells_write b _

theorem tells_push (b : Board) (id : JobId) : b.Tells (b.push id) := by
  unfold push
  split
  next => exact .refl b
  next =>
    split
    next state => exact ⟨.refl _, b.lineup.tells_push state⟩
    next => exact tells_write b _

theorem tells_unschedule (b : Board) (id : JobId) : b.Tells (b.unschedule id).2 := ⟨b.timetable.tells_remove id, .refl _⟩

theorem tells_withdraw (b : Board) (id : JobId) : b.Tells (b.withdraw id).2 := ⟨.refl _, b.lineup.tells_remove id⟩

theorem tells_takeDue (b : Board) (time : Instant) : b.Tells (b.takeDue time).2 := ⟨b.timetable.tells_takeDue time, .refl _⟩

theorem tells_takeNext (b : Board) : b.Tells b.takeNext.2 := ⟨.refl _, b.lineup.tells_takeNext⟩

theorem tells_move {id : JobId} {operation : Job → Except Refusal Job} (h : b.move id operation = .ok b') : b.Tells b' := by
  unfold move at h
  split at h
  next => cases h; exact .refl _
  next job _ =>
    cases ho : operation job with
    | error refusal => rw [ho] at h; cases h
    | ok job' => rw [ho] at h; cases h; exact .of_eq rfl rfl

theorem tells_moveOrNote (b : Board) (id : JobId) (operation : Job → Except Refusal Job) (note : Refusal → Event) :
    b.Tells (b.moveOrNote id operation note) := by
  unfold moveOrNote
  split
  next h => exact tells_move h
  next => exact .of_eq rfl rfl

theorem tells_finish (b : Board) (id : JobId) : b.Tells (b.finish id) := by
  unfold finish
  split
  next => exact .refl b
  next => split <;> exact .of_eq rfl rfl

theorem tells_begin (b : Board) (supply : Supply) (now : Instant) (job : Job) : b.Tells (b.begin supply now job).2 := by
  unfold begin
  dsimp only
  split
  next => exact .of_eq rfl rfl
  next =>
    split
    next => exact .of_eq rfl rfl
    next =>
      have registered : b.Tells ((b.register job.id).2.write (.abandoned job.id job.kind)) := .of_eq rfl rfl
      exact registered.trans (.trans (tells_moveOrNote _ job.id _ _) (.trans (tells_drop _ _) (tells_finish _ job.id)))

theorem tells_recurOrFinish {id : JobId} (h : b.recurOrFinish id = .ok b') : b.Tells b' := by
  unfold recurOrFinish at h
  split at h
  next => cases h; exact .refl b
  next job _ =>
    cases ha : job.advance with
    | error fault => rw [ha] at h; cases h
    | ok next =>
      obtain ⟨due, job'⟩ := next
      rw [ha] at h
      refine (tells_put b job').trans ?_
      cases due with
      | none => cases h; exact tells_finish _ id
      | some due =>
        simp only [Except.map] at h
        split at h
        next moved =>
          cases h
          exact (tells_move moved).trans (.trans (tells_write _ _) (tells_insert _ id))
        next =>
          cases h
          exact (tells_write _ _).trans (tells_finish _ id)

theorem tells_sendBack (b : Board) (id : JobId) (retryAt : Option Instant) : b.Tells (b.sendBack id retryAt) := by
  unfold sendBack
  split
  next moved =>
    split
    · exact (tells_move moved).trans (tells_insert _ id)
    · exact (tells_move moved).trans (tells_push _ id)
  next => exact (tells_write b _).trans (tells_finish _ id)

theorem tells_settle (b : Board) (now : Instant) (id : JobId) (task : TaskId) (ending : Ending) :
    b.Tells (b.settle now id task ending) := by
  cases ending with
  | done => exact (tells_write b _).trans (.trans (tells_moveOrNote _ id _ _) (tells_drop _ task))
  | failed kind message => exact (tells_moveOrNote b id _ _).trans (tells_drop _ task)

theorem tells_route (b : Board) (policy : RetryPolicy) (now : Instant) (id : JobId) (ending : Ending) :
    b.Tells (b.route policy now id ending).1 := by
  unfold route
  split
  next => exact .refl b
  next =>
    split
    next h => exact tells_recurOrFinish h
    next => exact .refl b
  next =>
    dsimp only
    split
    next =>
      split
      next => exact (tells_write b _).trans (tells_sendBack _ id _)
      next => exact .refl b
    next =>
      split
      next h => exact (tells_write b _).trans (tells_recurOrFinish h)
      next => exact tells_write b _

end Board

/-! ## What befalls a scheduler -/

/-- Something that befalls a scheduler. Beside its own actions these are the single operations on its queues and its
jobs, as they come about when several callers are at it at once. -/
inductive Stir
  | act (action : Action)
  | insert (id : JobId)
  | remove (id : JobId)
  | push (id : JobId)
  | withdraw (id : JobId)
  | takeNext
  | takeDue (time : Instant)
  | finish (id : JobId)
  /-- A job becomes another in any way, its state and its times included. -/
  | put (job : Job)
  | add (job : Job)
  /-- A loop that has slept long enough goes on, and leaves the bell as it is. -/
  | alarm (loop : Loop)

namespace Scheduler

/-- A loop at rest looks again if it has slept long enough. -/
def alarmed (s : Scheduler) (now : Instant) : Loop → Scheduler
  | .promotion => match s.promotion with
    | .parked read delay => if sleptEnough read delay now then { s with promotion := .looking } else s
    | _ => s
  | .dispatch => match s.dispatch with
    | .parked read => if sleptEnough read s.settings.queueRate now then { s with dispatch := .looking } else s
    | _ => s

def stir (s : Scheduler) (now : Instant) : Stir → Scheduler
  | .act action => s.act now action
  | .insert id => { s with board := s.board.insert id }
  | .remove id => { s with board := (s.board.unschedule id).2 }
  | .push id => { s with board := s.board.push id }
  | .withdraw id => { s with board := (s.board.withdraw id).2 }
  | .takeNext => { s with board := s.board.takeNext.2 }
  | .takeDue time => { s with board := (s.board.takeDue time).2 }
  | .finish id => { s with board := s.board.finish id }
  | .put job => { s with board := s.board.put job }
  | .add job => { s with board := s.board.add job }
  | .alarm loop => s.alarmed now loop

def stirs (s : Scheduler) : List (Instant × Stir) → Scheduler
  | [] => s
  | (now, stir) :: rest => (s.stir now stir).stirs rest

/-- The clock value that the promotion loop reads in a step, if that is where it looks for jobs that have come due. -/
def reads (s : Scheduler) (now : Instant) : Stir → Option Instant
  | .act .promotion => if s.promotion = .looking ∧ s.disposed = false then some now else none
  | _ => none

/-- The clock value that the promotion loop was the last to read. -/
def lastRead (s : Scheduler) : List (Instant × Stir) → Option Instant
  | [] => none
  | (now, stir) :: rest => ((s.stir now stir).lastRead rest).or (s.reads now stir)

variable {s s' : Scheduler} {now : Instant}

theorem stirs_snoc (s : Scheduler) (moves : List (Instant × Stir)) (now : Instant) (stir : Stir) :
    s.stirs (moves ++ [(now, stir)]) = (s.stirs moves).stir now stir := by
  induction moves generalizing s with
  | nil => rfl
  | cons x moves ih => exact ih _

theorem lastRead_snoc (s : Scheduler) (moves : List (Instant × Stir)) (now : Instant) (stir : Stir) :
    s.lastRead (moves ++ [(now, stir)]) = ((s.stirs moves).reads now stir).or (s.lastRead moves) := by
  induction moves generalizing s with
  | nil => simp [lastRead, stirs]
  | cons x moves ih =>
    rw [List.cons_append, lastRead, ih, lastRead, stirs, Option.or_assoc]

/-! ## Calls and executions -/

/-- What anything but the loops does to a scheduler: both loops stand where they stood, and nothing comes into a queue
unless its bell is rung. -/
structure Tells (s s' : Scheduler) : Prop where
  board : s.board.Tells s'.board
  settings : s'.settings = s.settings
  promotion : s'.promotion = s.promotion
  dispatch : s'.dispatch = s.dispatch

theorem Tells.refl (s : Scheduler) : s.Tells s := ⟨.refl _, rfl, rfl, rfl⟩

theorem Tells.of_board {board : Board} (h : s.board.Tells board) : s.Tells { s with board := board } := ⟨h, rfl, rfl, rfl⟩

theorem tells_accept {id : JobId} {work : Work} {plan : Plan} (h : s.accept now id work plan = .ok s') : s.Tells s' := by
  -- a job that is accepted is added, moved and counted before it comes into its queue
  have brought {job : Job} {operation : Job → Except Refusal Job} {board : Board} {event : Event}
      (moved : (s.board.add job).move id operation = .ok board) : s.board.Tells (board.track.write event) :=
    have added : s.board.Tells (s.board.add job) := .of_eq rfl rfl
    (added.trans (Board.tells_move moved)).trans (.of_eq rfl rfl)
  unfold accept at h
  split at h
  next => cases h
  next =>
    dsimp only at h
    split at h
    all_goals
      simp only [Except.map] at h
      split at h
      next => cases h
      next moved =>
        cases h
        first
        | exact .of_board ((brought moved).trans (Board.tells_push _ id))
        | exact .of_board ((brought moved).trans (Board.tells_insert _ id))

theorem tells_cancel {job : Job} (h : s.cancel job = .ok s') : s.Tells s' := by
  unfold cancel at h
  cases ho : s.ensureOwned job .cancel with
  | error refusal => rw [ho] at h; cases h
  | ok =>
    cases hm : s.board.move job.id Job.cancel with
    | error refusal => rw [ho, hm] at h; cases h
    | ok board =>
      have goes_on : ∀ left : Board, board.Tells left →
          s.Tells { s with board := (left.finish job.id).write (.cancelled job.id) } := fun left out =>
        .of_board ((Board.tells_move hm).trans (out.trans ((Board.tells_finish _ _).trans (Board.tells_write _ _))))
      have unscheduled := board.tells_unschedule job.id
      rw [ho, hm] at h
      simp only [bind, Except.bind] at h
      cases hu : board.unschedule job.id with
      | mk found rest =>
        rw [hu] at h unscheduled
        cases found with
        | none => cases h; exact goes_on _ (unscheduled.trans (rest.tells_withdraw job.id))
        | some => cases h; exact goes_on _ unscheduled

theorem tells_performNow {job : Job} (h : s.performNow job = .ok s') : s.Tells s' := by
  unfold performNow at h
  cases ho : s.ensureOwned job .performNow with
  | error refusal => rw [ho] at h; cases h
  | ok =>
    cases he : job.ensureScheduled .performNow with
    | error refusal => rw [ho, he] at h; cases h
    | ok =>
      cases hm : (s.board.unschedule job.id).2.move job.id Job.enqueue with
      | error refusal => simp [ho, he, hm, bind, Except.bind] at h
      | ok board =>
        simp only [ho, he, hm, bind, Except.bind, pure, Except.pure] at h
        cases h
        have moved := (s.board.tells_unschedule job.id).trans (Board.tells_move hm)
        exact .of_board (moved.trans ((Board.tells_write _ _).trans (Board.tells_push _ _)))

theorem tells_begin (s : Scheduler) (now : Instant) : s.Tells (s.begin now).2 := by
  unfold begin
  split
  next => exact .refl s
  next id rest _ =>
    dsimp only
    split
    next => exact ⟨.refl _, rfl, rfl, rfl⟩
    next job _ =>
      have begun := s.board.tells_begin s.supply now job
      split <;>
      next h =>
        have h' : s.board.begin s.supply now job = _ := h
        rw [h'] at begun
        exact ⟨begun, rfl, rfl, rfl⟩

theorem tells_conclude (s : Scheduler) (now : Instant) (id : JobId) (task : TaskId) (ending : Ending) :
    s.Tells (s.conclude now id task ending) :=
  ⟨(s.board.tells_settle now id task ending).trans (Board.tells_route _ _ now id ending), rfl, rfl, rfl⟩

/-- An action that is no step of a loop leaves the loops where they are. -/
theorem tells_act (s : Scheduler) (now : Instant) {action : Action} (promotion : action ≠ .promotion)
    (dispatch : ∀ slotFirst, action ≠ .dispatch slotFirst) : s.Tells (s.act now action) := by
  cases action with
  | schedule made id work request =>
    simp only [act]
    cases h : s.schedule made now id work request with
    | error fault => exact .refl s
    | ok answer =>
      cases answer with
      | error refusal => exact .refl s
      | ok s' =>
        obtain ⟨plan, -, accepted⟩ := schedule_eq_ok h
        exact tells_accept accepted
  | cancel id =>
    simp only [act]
    cases s.board.job? id with
    | none => exact .refl s
    | some job =>
      simp only [Option.bind_some]
      cases h : s.cancel job with
      | error refusal => exact .refl s
      | ok s' => exact tells_cancel h
  | performNow id =>
    simp only [act]
    cases s.board.job? id with
    | none => exact .refl s
    | some job =>
      simp only [Option.bind_some]
      cases h : s.performNow job with
      | error refusal => exact .refl s
      | ok s' => exact tells_performNow h
  | dispose =>
    simp only [act, dispose]
    split <;> exact ⟨.of_eq rfl rfl, rfl, rfl, rfl⟩
  | shutDown =>
    simp only [act, shutDown, dispose]
    split <;> exact ⟨.of_eq rfl rfl, rfl, rfl, rfl⟩
  | abandon => exact ⟨.refl _, rfl, rfl, rfl⟩
  | promotion => exact absurd rfl promotion
  | dispatch slotFirst => exact absurd rfl (dispatch slotFirst)
  | begin id =>
    simp only [act]
    split
    next =>
      have begun := tells_begin { s with launched := id :: s.launched.erase id } now
      exact ⟨begun.board, begun.settings, begun.promotion, begun.dispatch⟩
    next => exact .refl s
  | conclude task ending =>
    simp only [act]
    split
    next id _ => exact tells_conclude s now id task ending
    next => exact .refl s

end Scheduler

/-! ## The loops -/

/-- When the promotion loop that has found nothing due expects the next job at the earliest. -/
def Promotion.horizon? : Promotion → Option Int
  | .measuring read => some (read.nanos + 1)
  | .parking read delay => some (read.nanos + delay.nanos)
  | .parked read delay => some (read.nanos + delay.nanos)
  | _ => none

/-- The clock value that a promotion loop goes by which has found nothing due. -/
def Promotion.read? : Promotion → Option Instant
  | .measuring read => some read
  | .parking read _ => some read
  | .parked read _ => some read
  | _ => none

/-- How long a promotion loop is to sleep. -/
def Promotion.delay? : Promotion → Option Duration
  | .parking _ delay => some delay
  | .parked _ delay => some delay
  | _ => none

/-- Whether a dispatch loop has found nobody who waits, and is to sleep or does. -/
def Dispatch.isIdle : Dispatch → Bool
  | .parking => true
  | .parked _ => true
  | _ => false

namespace Scheduler

/-- What the promotion loop has found goes on holding while its bell is silent, and it sleeps no longer than the
polling rate. -/
structure PromotionAttends (settings : Settings) (s : Scheduler) : Prop where
  sorted : s.board.timetable.Sorted
  horizon : ∀ time, s.promotion.horizon? = some time → s.board.timetable.Quiet time
  rate : ∀ delay, s.promotion.delay? = some delay → delay ≤ settings.scheduleRate

/-- While the dispatch loop is idle and its bell is silent, nobody waits. -/
def DispatchAttends (s : Scheduler) : Prop := s.dispatch.isIdle = true → s.board.lineup.Quiet

structure Attends (settings : Settings) (s : Scheduler) : Prop where
  unchanged : s.settings = settings
  promotion : s.PromotionAttends settings
  dispatch : s.DispatchAttends

variable {s s' : Scheduler} {settings : Settings} {now : Instant}

theorem PromotionAttends.tells (h : s.PromotionAttends settings) (board : s.board.timetable.Tells s'.board.timetable)
    (promotion : s'.promotion = s.promotion) : s'.PromotionAttends settings where
  sorted := board.sorted h.sorted
  horizon time expected := board.quiet (h.horizon time (promotion ▸ expected))
  rate delay sleeps := h.rate delay (promotion ▸ sleeps)

theorem DispatchAttends.tells (h : s.DispatchAttends) (board : s.board.lineup.Tells s'.board.lineup)
    (dispatch : s'.dispatch = s.dispatch) : s'.DispatchAttends :=
  fun idle => board.quiet (h (dispatch ▸ idle))

theorem Attends.tells (h : s.Attends settings) (tells : s.Tells s') : s'.Attends settings where
  unchanged := tells.settings.trans h.unchanged
  promotion := h.promotion.tells tells.board.timetable tells.promotion
  dispatch := h.dispatch.tells tells.board.lineup tells.dispatch

/-- A promotion loop that expects nothing need not remember anything. -/
theorem PromotionAttends.forget (h : s.PromotionAttends settings) (board : s.board.timetable.Tells s'.board.timetable)
    (horizon : s'.promotion.horizon? = none) (delay : s'.promotion.delay? = none) : s'.PromotionAttends settings where
  sorted := board.sorted h.sorted
  horizon time expected := by rw [horizon] at expected; cases expected
  rate rate sleeps := by rw [delay] at sleeps; cases sleeps

theorem promotionStep_attends (h : s.PromotionAttends settings) (unchanged : s.settings = settings) :
    (s.promotionStep now).PromotionAttends settings := by
  have promoted (id : JobId) : s.board.timetable.Tells (s.promote id).board.timetable := by
    unfold promote
    split
    next moved => exact ((Board.tells_move moved).trans ((Board.tells_write _ _).trans (Board.tells_push _ id))).timetable
    next => exact .refl _
  have heard : s.board.timetable.Sorted → s.hearTimetable.board.timetable.Sorted := fun sorted =>
    ⟨sorted.wf.hear, sorted.ordered⟩
  unfold promotionStep
  split
  case h_1 looking =>
    split
    next => exact h.forget (.refl _) rfl rfl
    next =>
      have taken := (s.board.tells_takeDue now).timetable
      have later : (s.board.takeDue now).2.timetable.Quiet (now.nanos + 1) := h.sorted.quiet_takeDue now
      split
      next board due =>
        rw [due] at taken later
        refine ⟨taken.sorted h.sorted, ?_, nofun⟩
        rintro _ ⟨⟩
        exact later
      next batch board _ due =>
        rw [due] at taken
        exact h.forget taken rfl rfl
  case h_2 => exact h.forget (.refl _) rfl rfl
  case h_3 id rest _ => exact h.forget (promoted id) rfl rfl
  case h_4 read measuring =>
    have quiet := h.horizon _ (by rw [measuring]; rfl)
    refine ⟨h.sorted, ?_, ?_⟩
    · rintro _ ⟨⟩
      exact h.sorted.quiet_idleDelay quiet
    · rintro _ ⟨⟩
      exact unchanged ▸ s.board.timetable.idleDelay_le _ read
  case h_5 read delay parking =>
    split
    next => exact ⟨heard h.sorted, nofun, nofun⟩
    next =>
      have same : s.promotion.horizon? = (Promotion.parked read delay).horizon? := by rw [parking]; rfl
      exact ⟨h.sorted, fun time ht => h.horizon time (same.trans ht), fun d hd => h.rate d (by rw [parking]; exact hd)⟩
  case h_6 read delay parked =>
    split
    next => exact h.forget (.refl _) rfl rfl
    next =>
      split
      next => exact ⟨heard h.sorted, nofun, nofun⟩
      next =>
        split
        next => exact h.forget (.refl _) rfl rfl
        next => exact h
  case h_7 => exact h

/-- The promotion loop leaves the dispatch loop and its queue to themselves, but for the jobs that it brings. -/
theorem promotionStep_lineup (s : Scheduler) (now : Instant) :
    s.board.lineup.Tells (s.promotionStep now).board.lineup ∧ (s.promotionStep now).dispatch = s.dispatch ∧
      (s.promotionStep now).settings = s.settings := by
  have promoted (id : JobId) : s.board.lineup.Tells (s.promote id).board.lineup ∧
      (s.promote id).dispatch = s.dispatch ∧ (s.promote id).settings = s.settings := by
    unfold promote
    split
    next moved => exact ⟨((Board.tells_move moved).trans ((Board.tells_write _ _).trans (Board.tells_push _ id))).lineup, rfl, rfl⟩
    next => exact ⟨.refl _, rfl, rfl⟩
  unfold promotionStep
  split
  case h_1 =>
    split
    next => exact ⟨.refl _, rfl, rfl⟩
    next =>
      have taken := (s.board.tells_takeDue now).lineup
      split <;>
      next due =>
        rw [due] at taken
        exact ⟨taken, rfl, rfl⟩
  case h_3 id _ _ => exact promoted id
  all_goals
    repeat' split
    all_goals exact ⟨.refl _, rfl, rfl⟩

theorem dispatchStep_attends {slotFirst : Bool} (h : s.DispatchAttends) :
    (s.dispatchStep now slotFirst).DispatchAttends := by
  -- wherever the loop goes on, it is not idle
  have busy {s' : Scheduler} (busy : s'.dispatch.isIdle = false) : s'.DispatchAttends := fun idle => by
    rw [busy] at idle
    cases idle
  unfold dispatchStep
  split
  case h_1 =>
    split
    next => exact busy rfl
    next =>
      split
      next empty => exact fun _ => .inr (List.isEmpty_iff.1 empty)
      next => exact busy rfl
  case h_2 parking =>
    split
    next => exact busy rfl
    next => exact fun _ => h (by rw [parking]; rfl)
  case h_3 =>
    split
    next => exact busy rfl
    next =>
      split
      next => exact busy rfl
      next =>
        split
        next => exact busy rfl
        next => exact h
  case h_4 =>
    split
    next => exact busy rfl
    next => split <;> first | exact busy rfl | exact h
  case h_5 =>
    unfold choose
    split <;> exact busy rfl
  case h_6 =>
    unfold launch
    split <;> exact busy rfl
  case h_7 => exact h

/-- The dispatch loop leaves the promotion loop and its queue to themselves. -/
theorem dispatchStep_timetable (s : Scheduler) (now : Instant) (slotFirst : Bool) :
    s.board.timetable.Tells (s.dispatchStep now slotFirst).board.timetable ∧
      (s.dispatchStep now slotFirst).promotion = s.promotion ∧
      (s.dispatchStep now slotFirst).settings = s.settings := by
  unfold dispatchStep
  split
  case h_5 =>
    have taken := s.board.tells_takeNext.timetable
    unfold choose
    split <;>
    next found =>
      rw [found] at taken
      exact ⟨taken, rfl, rfl⟩
  case h_6 id _ =>
    unfold launch
    split
    next moved => exact ⟨(Board.tells_move moved).timetable, rfl, rfl⟩
    next => exact ⟨.refl _, rfl, rfl⟩
  all_goals
    repeat' split
    all_goals exact ⟨.refl _, rfl, rfl⟩

theorem alarmed_attends (h : s.Attends settings) (loop : Loop) : (s.alarmed now loop).Attends settings := by
  unfold alarmed
  split
  case h_1 =>
    split
    next =>
      split
      next => exact ⟨h.unchanged, h.promotion.forget (.refl _) rfl rfl, h.dispatch.tells (.refl _) rfl⟩
      next => exact h
    next => exact h
  case h_2 =>
    split
    next =>
      split
      next => exact ⟨h.unchanged, h.promotion.tells (.refl _) rfl, nofun⟩
      next => exact h
    next => exact h

/-- Whatever befalls a scheduler, its loops attend to their queues as before. -/
theorem Attends.stir (h : s.Attends settings) (stir : Stir) : (s.stir now stir).Attends settings := by
  cases stir with
  | act action =>
    by_cases promotion : action = .promotion
    · subst promotion
      obtain ⟨lineup, dispatch, same⟩ := s.promotionStep_lineup now
      exact ⟨same.trans h.unchanged, promotionStep_attends h.promotion h.unchanged, h.dispatch.tells lineup dispatch⟩
    · by_cases dispatch : ∃ slotFirst, action = .dispatch slotFirst
      · obtain ⟨slotFirst, rfl⟩ := dispatch
        obtain ⟨timetable, promotion, same⟩ := s.dispatchStep_timetable now slotFirst
        exact ⟨same.trans h.unchanged, h.promotion.tells timetable promotion, dispatchStep_attends h.dispatch⟩
      · exact h.tells (s.tells_act now promotion (not_exists.1 dispatch))
  | insert id => exact h.tells (.of_board (s.board.tells_insert id))
  | remove id => exact h.tells (.of_board (s.board.tells_unschedule id))
  | push id => exact h.tells (.of_board (s.board.tells_push id))
  | withdraw id => exact h.tells (.of_board (s.board.tells_withdraw id))
  | takeNext => exact h.tells (.of_board s.board.tells_takeNext)
  | takeDue time => exact h.tells (.of_board (s.board.tells_takeDue time))
  | finish id => exact h.tells (.of_board (s.board.tells_finish id))
  | put job => exact h.tells (.of_board (s.board.tells_put job))
  | add job => exact h.tells (.of_board (.of_eq rfl rfl))
  | alarm loop => exact alarmed_attends h loop

/-! ## The clock value that the promotion loop goes by -/

/-- What a promotion loop goes by it goes on going by, unless it looks again. -/
theorem promotionStep_read {read : Instant} (h : (s.promotionStep now).promotion.read? = some read) :
    s.reads now (.act .promotion) = some read ∨
      s.reads now (.act .promotion) = none ∧ s.promotion.read? = some read := by
  unfold promotionStep at h
  split at h
  case h_1 looking =>
    split at h
    next => cases h
    next on =>
      split at h
      next =>
        cases h
        exact .inl (if_pos ⟨looking, by simpa using on⟩)
      next => cases h
  all_goals
    have unread (other : s.promotion ≠ .looking) : s.reads now (.act .promotion) = none :=
      if_neg fun looks => other looks.1
  case h_2 => cases h
  case h_3 => cases h
  case h_4 measuring => exact .inr ⟨unread (by simp [measuring]), by rw [measuring]; exact h⟩
  case h_5 parking =>
    split at h
    next => cases h
    next => exact .inr ⟨unread (by simp [parking]), by rw [parking]; exact h⟩
  case h_6 parked =>
    refine .inr ⟨unread (by simp [parked]), ?_⟩
    split at h
    next => cases h
    next =>
      split at h
      next => cases h
      next =>
        split at h
        next => cases h
        next => exact h
  case h_7 stopped => rw [stopped] at h; cases h

theorem stir_read {stir : Stir} {read : Instant} (h : (s.stir now stir).promotion.read? = some read) :
    s.reads now stir = some read ∨ s.reads now stir = none ∧ s.promotion.read? = some read := by
  cases stir with
  | act action =>
    by_cases promotion : action = .promotion
    · subst promotion
      exact promotionStep_read h
    · have unread : s.reads now (.act action) = none := by
        unfold reads
        split
        next same => cases same; exact absurd rfl promotion
        next => rfl
      refine .inr ⟨unread, ?_⟩
      by_cases dispatch : ∃ slotFirst, action = .dispatch slotFirst
      · obtain ⟨slotFirst, rfl⟩ := dispatch
        exact (s.dispatchStep_timetable now slotFirst).2.1 ▸ h
      · exact (s.tells_act now promotion (not_exists.1 dispatch)).promotion ▸ h
  | alarm loop =>
    refine .inr ⟨rfl, ?_⟩
    simp only [stir, alarmed] at h
    split at h
    · split at h
      · split at h
        · cases h
        · exact h
      · exact h
    · split at h
      · split at h <;> exact h
      · exact h
  | _ => exact .inr ⟨rfl, h⟩

/-! ## No wake-up is lost -/

variable {s₀ : Scheduler}

theorem start_attends {number : Nat} (h₀ : start number settings = .ok s₀) : s₀.Attends settings := by
  cases start_eq h₀
  exact ⟨rfl, ⟨⟨Timetable.empty_wf, .nil⟩, nofun, nofun⟩, nofun⟩

theorem stirs_attends {number : Nat} (h₀ : start number settings = .ok s₀) (moves : List (Instant × Stir)) :
    (s₀.stirs moves).Attends settings ∧
      ∀ read, (s₀.stirs moves).promotion.read? = some read → s₀.lastRead moves = some read := by
  induction moves using List.reverseRecOn with
  | nil =>
    refine ⟨start_attends h₀, fun read h => ?_⟩
    cases start_eq h₀
    cases h
  | append_singleton moves move ih =>
    obtain ⟨now, stir⟩ := move
    rw [stirs_snoc, lastRead_snoc]
    refine ⟨ih.1.stir stir, fun read h => ?_⟩
    rcases stir_read h with looked | ⟨unread, before⟩
    · rw [looked]; rfl
    · rw [unread]; exact ih.2 read before

/-- What a loop that is parked, with no bell to be heard, may rely on. -/
structure Wakeful (settings : Settings) (s₀ : Scheduler) (moves : List (Instant × Stir)) (s : Scheduler) : Prop where
  promotion : ∀ read delay, s.promotion = .parked read delay → s.board.timetable.bell = false →
    s₀.lastRead moves = some read ∧ delay ≤ settings.scheduleRate ∧
      ∀ slot id, (slot, id) ∈ s.board.timetable.bySlot → read.nanos + delay.nanos ≤ slot.due.nanos
  dispatch : ∀ read, s.dispatch = .parked read → s.board.lineup.bell = false → s.board.lineup.waiters = []

/-- Whatever is done to the queues and the jobs of a scheduler, and however that falls between the steps of its loops:
while the promotion loop is parked and its bell is silent, it sleeps no longer than its polling rate, and nothing in
the timetable is due before it wakes; while the dispatch loop is parked and its bell is silent, nobody waits. -/
theorem wakeful {number : Nat} (h₀ : start number settings = .ok s₀) (moves : List (Instant × Stir)) :
    Wakeful settings s₀ moves (s₀.stirs moves) := by
  obtain ⟨attends, reads⟩ := stirs_attends h₀ moves
  constructor
  case promotion =>
    intro read delay parked silent
    have quiet : (s₀.stirs moves).board.timetable.Quiet (read.nanos + delay.nanos) :=
      attends.promotion.horizon _ (by rw [parked]; rfl)
    refine ⟨reads read (by rw [parked]; rfl), attends.promotion.rate delay (by rw [parked]; rfl), fun slot id he => ?_⟩
    rcases quiet with rung | late
    · rw [silent] at rung; cases rung
    · exact late _ he
  case dispatch =>
    intro read parked silent
    rcases attends.dispatch (by rw [parked]; rfl) with rung | empty
    · rw [silent] at rung; cases rung
    · exact empty

/-- A twentieth of a second before the first second is over. -/
def nearlySecond : Instant := ⟨950000000, by decide⟩

/-- A job is put in while the promotion loop is about to measure its sleep, and another comes and goes before the
dispatch loop looks; then both loops park. -/
def drowsy : List (Instant × Stir) :=
  [(.epoch, .act .promotion), (.epoch, .act (.plain 1 (.after .second) (.limited 0))), (.epoch, .act .promotion),
    (.epoch, .act (.plain 2 (.after .zero) (.limited 0))), (.epoch, .withdraw ⟨2⟩)] ++
  List.replicate 4 (nearlySecond, .act .promotion) ++ List.replicate 4 (nearlySecond, .act (.dispatch true))

/-- The promotion loop sleeps for half of its polling rate, until the job is due. -/
theorem wakeful_drowsy :
    (single.stirs drowsy).promotion = .parked nearlySecond (.ofMillis 50) ∧
      (single.stirs drowsy).board.timetable.bell = false ∧
      (single.stirs drowsy).board.timetable.bySlot = [(⟨.afterSecond, 0⟩, ⟨1⟩)] ∧
      (single.stirs drowsy).dispatch = .parked nearlySecond ∧ (single.stirs drowsy).board.lineup.bell = false ∧
      Wakeful { Settings.default with slots := 1 } single drowsy (single.stirs drowsy) := by
  refine ⟨by decide +kernel, by decide +kernel, by decide +kernel, by decide +kernel, by decide +kernel, ?_⟩
  exact wakeful start_single drowsy

end Scheduler

end Rota
