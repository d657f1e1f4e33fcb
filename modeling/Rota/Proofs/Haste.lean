/-
Performing a job early. It is granted just as long as the job waits for a due time, be it its first, that of a later
occurrence or that of a retry. The job leaves the timetable for the end of the lineup, where it stands once; and until
it is sent to wait for a due time again, the promotion loop has nothing more to do with it. So the early run comes in
place of the one it waited for, and not on top of it.
-/
import Rota.Proofs.Cancellation
import Rota.Proofs.Sweeps

namespace Rota

namespace Scheduler

variable {s s' : Scheduler} {now : Instant} {action : Action} {id : JobId} {job : Job}

/-! ## Jobs that wait for no due time -/

/-- A job waits for no due time, and neither the timetable nor the promotion loop holds it. -/
structure Unawaited (s : Scheduler) (id : JobId) : Prop where
  known : ∃ job, s.board.job? id = some job ∧ job.state ≠ .scheduled
  unlisted : id ∉ s.board.timetable.ids
  unheld : id ∉ s.inHand

/-- After none of these actions does a job wait for a due time. -/
def NeverWaits (s : Scheduler) (id : JobId) : List (Instant × Action) → Prop
  | [] => True
  | (now, action) :: rest =>
    (∀ job ∈ (s.act now action).board.job? id, job.state ≠ .scheduled) ∧ (s.act now action).NeverWaits id rest

def decNeverWaits (id : JobId) : ∀ (s : Scheduler) (actions : List (Instant × Action)), Decidable (s.NeverWaits id actions)
  | _, [] => .isTrue trivial
  | s, (now, action) :: rest =>
    @instDecidableAnd _ _ inferInstance (decNeverWaits id (s.act now action) rest)

instance (s : Scheduler) (id : JobId) (actions : List (Instant × Action)) : Decidable (s.NeverWaits id actions) :=
  decNeverWaits id s actions

theorem Unawaited.act (h : s.Unawaited id) (hs : s.Sound) (legal : action.Legal s)
    (hn : ∀ job ∈ (s.act now action).board.job? id, job.state ≠ .scheduled) : (s.act now action).Unawaited id := by
  have step : s.Step now action _ := act_step hs legal
  have shift : Shift s.number s.settings now s.desk action (s.act now action).desk := act_shift hs legal
  obtain ⟨job, hj, -⟩ := h.known
  obtain ⟨-, job', -, hj', -⟩ := step.effect.passage hj
  constructor
  case known => exact ⟨job', hj', hn job' hj'⟩
  case unlisted => exact (shift.timed hs.timetable).absent hs.timetable hj' (hn job' hj') h.unlisted
  case unheld =>
    intro hm
    rcases shift.inHand hm with hand | ⟨-, -, taken⟩
    · exact h.unheld hand
    · exact h.unlisted (listed_of_due taken)

theorem Unawaited.run (h : s.Unawaited id) (hs : s.Sound) {grain : Grain} {actions : List (Instant × Action)}
    (ha : s.Allows grain actions) (hn : s.NeverWaits id actions) : (s.run actions).Unawaited id := by
  induction actions generalizing s with
  | nil => exact h
  | cons x rest ih => exact ih (h.act hs ha.1.legal hn.1) (act_sound hs ha.1.legal) ha.2 hn.2

/-! ## One early performance -/

theorem performNow_granted (hj : s.board.job? job.id = some job) (owned : job.owner = some s.number)
    (state : job.state = .scheduled) : ∃ s', s.performNow job = .ok s' := by
  have scheduled : job.ensureScheduled .performNow = .ok () := by
    unfold Job.ensureScheduled
    rw [if_pos state]
  have moved : job.enqueue = .ok { job with state := .enqueued } := Job.enqueue_eq_ok.2 ⟨by rw [state]; rfl, rfl⟩
  have known : (s.board.unschedule job.id).2.job? job.id = some job := hj
  unfold performNow
  rw [ensureOwned_eq_ok.2 owned, scheduled]
  simp only [bind, Except.bind, Board.move_some known, moved]
  exact ⟨_, rfl⟩

theorem performNow_refused (owned : job.owner = some s.number) (state : job.state ≠ .scheduled) :
    s.performNow job = .error (.notPermitted .performNow job.id job.state) := by
  have scheduled : job.ensureScheduled .performNow = .error (.notPermitted .performNow job.id job.state) := by
    unfold Job.ensureScheduled
    rw [if_neg state]
  unfold performNow
  rw [ensureOwned_eq_ok.2 owned, scheduled]
  rfl

theorem act_performNow (hj : s.board.job? job.id = some job) (hp : s.performNow job = .ok s') :
    s.act now (.performNow job.id) = s' := by
  simp only [act, hj, Option.bind_some, hp]
  rfl

theorem act_performNow_refused {refusal : Refusal} (hj : s.board.job? job.id = some job)
    (hp : s.performNow job = .error refusal) : s.act now (.performNow job.id) = s := by
  simp only [act, hj, Option.bind_some, hp]
  rfl

/-- A scheduler after a job has been performed early. -/
theorem hurried_eq (hj : s.board.job? job.id = some job) (hp : s.performNow job = .ok s') :
    s' = { s with
      board := { (({ s.board with timetable := (s.board.timetable.remove job.id).2 }.put
          { job with state := .enqueued }).write (.performedNow job.id)) with
        lineup := s.board.lineup.push { job with state := .enqueued } } } := by
  obtain ⟨-, rfl⟩ := performNow_eq_ok hj hp
  have known : ({ s.board with timetable := (s.board.timetable.remove job.id).2 } : Board).job? job.id = some job := hj
  have put := Board.job?_put_self known { job with state := .enqueued } rfl
  have hq : ((({ s.board with timetable := (s.board.timetable.remove job.id).2 } : Board).put
      { job with state := .enqueued }).write (.performedNow job.id)).job? job.id = some { job with state := .enqueued } := put
  rw [Board.push_enqueued hq rfl]
  rfl

/-! ## In place of the delayed run -/

/-- The promotion loop has nothing to do with a job: neither it nor the timetable holds the job, which stands in the
lineup once at most, and does so as long as it waits for a slot; no sweep enqueues it, and of all there is only an
attempt that failed and is made again at once. -/
structure LeftAlone (s : Scheduler) (id : JobId) : Prop where
  unlisted : id ∉ s.board.timetable.ids
  unheld : id ∉ s.inHand
  once : s.board.lineup.ids.count id + s.chosen.count id ≤ 1
  stays : ∀ job, s.board.job? id = some job → job.state = .enqueued →
    s.board.lineup.ids.count id + s.chosen.count id = 1
  unpromoted : ∀ now job, job.id = id → ¬ s.Joins now .promotion job
  readied : ∀ now action job, job.id = id → action.Legal s → s.Joins now action job → s.TriedAtOnce action job

theorem Unawaited.joins (h : s.Unawaited job.id) (hs : s.Sound) (owns : s.Owns) (legal : action.Legal s)
    (joins : s.Joins now action job) : s.TriedAtOnce action job := by
  have shift : Shift _ _ now s.desk action _ := act_shift hs legal
  obtain ⟨earlier, hj, state⟩ := h.known
  cases shift.readied joins.waits.1 joins.waits.2 with
  | before known waited => exact absurd waited (joins.new _ known)
  | accepted =>
    -- a number is given to one job only
    cases hj.symm.trans legal.1
  | hurried =>
    -- such a request is refused, so the job has waited for a slot before
    have hi : earlier.id = job.id := Board.job?_id hj
    have refused := performNow_refused (owns job.id earlier hj) state
    have same : s.act now (.performNow job.id) = s := hi ▸ act_performNow_refused (hi ▸ hj) refused
    have known : s.board.job? job.id = some job := by
      rw [← joins.waits.1, same]
    exact absurd joins.waits.2 (joins.new job known)
  | @promoted rest _ hand =>
    refine absurd ?_ h.unheld
    unfold inHand
    rw [show s.promotion = .holding (job.id :: rest) from hand]
    exact List.mem_cons_self ..
  | @retried task kind message before flying known retries atOnce =>
    exact ⟨⟨task, kind, message, rfl, flying⟩, ⟨before, known, retries⟩, atOnce⟩

theorem Unawaited.leftAlone (h : s.Unawaited id) (reached : s.Reached .fine) : s.LeftAlone id := by
  obtain ⟨job, hj, -⟩ := h.known
  have lined := (reached.lined id).inLine hj
  rw [count_lineup] at lined
  have readied : ∀ now action job, job.id = id → action.Legal s → s.Joins now action job → s.TriedAtOnce action job := by
    rintro now action job rfl legal joins
    exact h.joins reached.sound reached.owns legal joins
  constructor
  case unlisted => exact h.unlisted
  case unheld => exact h.unheld
  case once => exact lined.le_one
  case stays =>
    intro job' hj' state
    cases hj.symm.trans hj'
    rw [state] at lined
    exact lined
  case unpromoted =>
    intro now job hi joins
    obtain ⟨task, kind, message, ended, -⟩ := (readied now .promotion job hi trivial joins).failed
    cases ended
  case readied => exact readied

/-- What comes of performing a job early: it waits for a slot instead, behind all others, everything else is as
before, and the promotion loop leaves the job alone until it is sent to wait for a due time again. -/
structure BringsForward (s : Scheduler) (job : Job) (s' : Scheduler) : Prop where
  record : s'.board.job? job.id = some { job with state := .enqueued }
  others : ∀ id, id ≠ job.id → s'.board.job? id = s.board.job? id
  timetable : s'.board.timetable.bySlot = s.board.timetable.bySlot.filter (·.2 ≠ job.id)
  lineup : s'.board.lineup.waiters = s.board.lineup.waiters ++ [⟨job.id, job.priority⟩]
  once : s'.board.lineup.ids.count job.id = 1
  pending : s'.pending = s.pending
  executions : s'.launched = s.launched ∧ s'.board.inFlight = s.board.inFlight
  instead : ∀ more, s'.Allows .fine more → s'.NeverWaits job.id more → (s'.run more).LeftAlone job.id

theorem performNow_bringsForward (reached : s.Reached .fine) (unheld : job.id ∉ s.inHand)
    (hj : s.board.job? job.id = some job) (hp : s.performNow job = .ok s') : s.BringsForward job s' := by
  have hs : s.Sound := reached.sound
  obtain ⟨state, -⟩ := performNow_eq_ok hj hp
  have acted : s.act .epoch (.performNow job.id) = s' := act_performNow hj hp
  have allowed : s.Allows .fine [(.epoch, .performNow job.id)] := .of_not_brings rfl
  have after := hurried_eq hj hp
  have record : s'.board.job? job.id = some { job with state := .enqueued } := by
    rw [after]
    exact Board.job?_put_self hj { job with state := .enqueued } rfl
  have timetable : s'.board.timetable.bySlot = s.board.timetable.bySlot.filter (·.2 ≠ job.id) := by
    rw [after]
    exact congrArg (fun t : Option JobId × Timetable => t.2.bySlot) (hs.timetable.remove_eq job.id)
  have lineup : s'.board.lineup.waiters = s.board.lineup.waiters ++ [⟨job.id, job.priority⟩] := by
    rw [after]
    rfl
  constructor
  case record => exact record
  case others =>
    intro id hi
    rw [after]
    exact (find?_put_known hj (rfl : ({ job with state := .enqueued } : Job).id = job.id) id).trans (if_neg hi)
  case timetable => exact timetable
  case lineup => exact lineup
  case once =>
    -- no job in the lineup is scheduled
    have absent := (((reached.lined job.id).inLine hj).eq_zero (by rw [state]; nofun) (by rw [state]; nofun)).1
    rw [count_lineup] at absent
    have ids : s'.board.lineup.ids = s.board.lineup.ids ++ [job.id] := by
      unfold Lineup.ids
      rw [lineup, List.map_append]
      rfl
    rw [ids, List.count_append, absent, List.count_singleton_self]
  case pending =>
    rw [after]
    rfl
  case executions =>
    rw [after]
    exact ⟨rfl, rfl⟩
  case instead =>
    intro more ha hn
    have reached' : s'.Reached .fine := acted ▸ reached.run allowed
    have unlisted : job.id ∉ s'.board.timetable.ids := by
      unfold Timetable.ids
      rw [timetable]
      simp
    have hand : s'.inHand = s.inHand := by
      rw [after]
      rfl
    have unawaited : s'.Unawaited job.id := ⟨⟨_, record, nofun⟩, unlisted, hand ▸ unheld⟩
    exact (unawaited.run reached'.sound ha hn).leftAlone (reached'.run ha)

/-! ## Settled schedulers -/

/-- What is to be said of performing a job early. -/
structure Hastens (s : Scheduler) : Prop where
  granted : ∀ job, s.board.job? job.id = some job → ((∃ s', s.performNow job = .ok s') ↔ job.state = .scheduled)
  bringsForward : ∀ job s', s.board.job? job.id = some job → s.performNow job = .ok s' →
    (∀ now, s.act now (.performNow job.id) = s') ∧ s.BringsForward job s'
  refused : ∀ job refusal, s.board.job? job.id = some job → s.performNow job = .error refusal →
    refusal = .notPermitted .performNow job.id job.state ∧ ∀ now, s.act now (.performNow job.id) = s

/-- Wherever a run comes to rest, a job that waits for a due time can be performed early instead, and no other. -/
theorem performed_early (reached : s.Reached .fine) (paused : s.Paused) : s.Hastens := by
  have owns : s.Owns := reached.owns
  constructor
  case granted =>
    intro job hj
    constructor
    · rintro ⟨s', hp⟩
      exact (performNow_eq_ok hj hp).1
    · exact performNow_granted hj (owns job.id job hj)
  case bringsForward =>
    intro job s' hj hp
    have unheld : job.id ∉ s.inHand := by
      rw [paused.inHand]
      exact List.not_mem_nil
    exact ⟨fun now => act_performNow hj hp, performNow_bringsForward reached unheld hj hp⟩
  case refused =>
    intro job refusal hj hp
    have state : job.state ≠ .scheduled := by
      intro state
      obtain ⟨s', granted⟩ := performNow_granted hj (owns job.id job hj) state
      cases granted.symm.trans hp
    refine ⟨?_, fun now => act_performNow_refused hj hp⟩
    cases (performNow_refused (owns job.id job hj) state).symm.trans hp
    rfl

/-- The only attempt of a job fails, the job waits a second to be tried again, and the loops come to rest. -/
def backingOff : List (Instant × Action) :=
  (.epoch, .plain 1 (.after .zero) (.limited 1)) ::
    [.promotion, .promotion, .promotion, .dispatch true, .dispatch true, .dispatch true, .dispatch true, .begin ⟨1⟩,
      .conclude ⟨0⟩ (.failed .panic ""), .promotion, .promotion, .promotion, .promotion, .dispatch true, .dispatch true,
      .dispatch true, .dispatch true].map (.epoch, ·)

theorem backingOff_allowed : delaying.Allows .fine backingOff :=
  ⟨Action.fits_plain (by decide +kernel), .of_not_brings rfl⟩

theorem backingOff_settled : (delaying.run backingOff).Settled :=
  ⟨⟨.epoch, fun loop => by cases loop <;> decide +kernel⟩, by decide +kernel⟩

/-- The job is tried again at once and succeeds; then its second is over, and the promotion loop looks for due jobs. -/
def triedEarly : List (Instant × Action) :=
  [.dispatch true, .dispatch true, .dispatch true, .dispatch true, .dispatch true, .begin ⟨1⟩,
    .conclude ⟨1⟩ .done].map (.epoch, ·) ++ List.replicate 5 (.afterTwo, .promotion)

/-- A job that waits to be tried again is tried early instead, and left alone when its second is over. -/
theorem performed_early_backingOff :
    (delaying.run backingOff).Settled ∧ (delaying.run backingOff).Hastens ∧
      ∃ job s', (delaying.run backingOff).board.job? ⟨1⟩ = some job ∧ job.retryAt = some .afterSecond ∧
        (delaying.run backingOff).performNow job = .ok s' ∧ (delaying.run backingOff).BringsForward job s' ∧
        (s'.run triedEarly).LeftAlone job.id ∧
        ((s'.run triedEarly).board.job? ⟨1⟩).map (fun job => (job.state, job.retries)) = some (.success, 1) := by
  have reached : (delaying.run backingOff).Reached .fine :=
    ⟨0, delaying.settings, delaying, backingOff, rfl, backingOff_allowed, rfl⟩
  have hastens : (delaying.run backingOff).Hastens := performed_early reached backingOff_settled.paused
  have waits : ((delaying.run backingOff).board.job? ⟨1⟩).map (fun job => (job.state, job.retryAt)) =
      some (.scheduled, some .afterSecond) := by decide +kernel
  obtain ⟨job, hj, he⟩ := Option.map_eq_some_iff.1 waits
  have state : job.state = .scheduled := congrArg Prod.fst he
  have hi : job.id = ⟨1⟩ := Board.job?_id hj
  have known : (delaying.run backingOff).board.job? job.id = some job := hi ▸ hj
  obtain ⟨s', hp⟩ := (hastens.granted job known).2 state
  obtain ⟨acted, forward⟩ := hastens.bringsForward job s' known hp
  have after : s' = (delaying.run backingOff).act .epoch (.performNow ⟨1⟩) := by rw [← acted .epoch, hi]
  have never : s'.NeverWaits job.id triedEarly := by
    rw [hi, after]
    decide +kernel
  refine ⟨backingOff_settled, hastens, job, s', hj, congrArg Prod.snd he, hp, forward, ?_, ?_⟩
  · exact forward.instead triedEarly (.of_not_brings rfl) never
  · rw [after]
    decide +kernel

end Scheduler

end Rota
