/-
Every action of a scheduler has one of the effects there are on its ledger, keeps the two tables of the
timetable in step and leaves the settings alone.
-/
import Rota.Proofs.Queues
import Rota.Proofs.Sound

namespace Rota

/-! ## Boards and their ledgers -/

/-- An execution that is dropped as soon as it is registered leaves the others, none of which has its number. -/
theorem InFlight.drop_register {flights : InFlight} (below : ∀ e ∈ flights.tasks, e.1.number < flights.next) (id : JobId) :
    (flights.register id).2.drop ⟨flights.next⟩ = { flights with next := flights.next + 1 } := by
  have hold : (flights.tasks.filter fun t => t.1 ≠ ⟨flights.next⟩) = flights.tasks := by
    refine List.filter_eq_self.2 fun e he => decide_eq_true fun hx => ?_
    have := below e he
    rw [hx] at this
    exact Nat.lt_irrefl _ this
  unfold register drop
  rw [List.filter_append, hold]
  simp

namespace Board

variable {board : Board} {id : JobId} {job : Job} {inHand chosen launched : List JobId}

/-- An event that no annals tell of leaves the ledger alone. -/
theorem ledger_write (event : Event) (h : ∀ i, event.mark? i = none) :
    (board.write event).ledger inHand chosen launched = board.ledger inHand chosen launched := by
  refine Ledger.ext rfl rfl rfl rfl rfl rfl rfl rfl rfl (funext fun i => ?_)
  show (board.write event).annals i = board.annals i
  rw [annals_cons rfl, h]; rfl

theorem ledger_put : (board.put job).ledger inHand chosen launched = (board.ledger inHand chosen launched).put job := rfl

theorem ledger_push (h : board.job? id = some job) (hs : job.state = .enqueued) :
    (board.push id).ledger inHand chosen launched = (board.ledger inHand chosen launched).send id .lineup := by
  rw [push_enqueued h hs]
  refine Ledger.ext rfl rfl rfl ?_ rfl rfl rfl rfl rfl rfl
  show (↑(board.lineup.push job).ids : Multiset JobId) = id ::ₘ ↑board.lineup.ids
  rw [Lineup.ids_push _ hs, job?_id h, ← Multiset.coe_add, Multiset.add_comm]
  rfl

theorem ledger_insert (hw : board.timetable.WF) (h : board.job? id = some job) (hs : job.state = .scheduled) :
    (board.insert id).ledger inHand chosen launched = (board.ledger inHand chosen launched).send id .timetable := by
  rw [insert_scheduled h hs]
  refine Ledger.ext rfl ?_ rfl rfl rfl rfl rfl rfl rfl rfl
  show (↑(board.timetable.insert job).ids : Multiset JobId) = id ::ₘ (↑board.timetable.ids : Multiset JobId).filter (· ≠ id)
  rw [Multiset.filter_coe, Multiset.cons_coe]
  have := hw.ids_insert hs
  rw [job?_id h] at this
  exact Multiset.coe_eq_coe.2 this

/-- To be done with a job that has just been put in its place is to put it there done with. -/
theorem ledger_finish {job' : Job} (h : board.job? id = some job) (hi : job'.id = job.id) :
    ((board.put job').finish id).ledger inHand chosen launched =
      ((board.ledger inHand chosen launched).put { job' with finished := true }).discount job'.finished := by
  rw [finish_put h hi]
  rfl

theorem finish_wf {job' : Job} (hw : board.timetable.WF) (h : board.job? id = some job) (hi : job'.id = job.id) :
    ((board.put job').finish id).timetable.WF := by
  rw [finish_put h hi]
  exact hw

theorem ids_remove (hw : board.timetable.WF) (id : JobId) :
    (↑(board.timetable.remove id).2.ids : Multiset JobId) = (↑board.timetable.ids : Multiset JobId).filter (· ≠ id) := by
  rw [hw.ids_remove, Multiset.filter_coe]

/-- A job that is sent on is sent on in the ledger. -/
theorem Sent.ledger {board' : Board} {job' : Job} {finished : Bool} {marks : List Mark} {fate : Fate}
    (h : Sent board board' id finished marks job' fate) (hw : board.timetable.WF) (hi : job'.id = id)
    (scheduled : fate = .timetable → job'.state = .scheduled) (enqueued : fate = .lineup → job'.state = .enqueued) :
    board'.ledger inHand chosen launched =
      ((((board.ledger inHand chosen launched).put job').note id marks).send id fate).discount
        (decide (fate ≠ Fate.ended) || finished) := by
  have hn : board'.inFlight.next = board.inFlight.next := by rw [h.inFlight]
  have hf : board'.inFlight.tasks = board.inFlight.tasks := by rw [h.inFlight]
  have waiting : (↑board'.timetable.ids : Multiset JobId) =
      if fate = .timetable then id ::ₘ (↑board.timetable.ids : Multiset JobId).filter (· ≠ id) else ↑board.timetable.ids := by
    rw [h.timetable]
    split
    next ht =>
      have hp := hw.ids_insert (scheduled ht)
      rw [hi] at hp
      rw [Multiset.filter_coe, Multiset.cons_coe]
      exact Multiset.coe_eq_coe.2 hp
    next => rfl
  have lineup : (↑board'.lineup.ids : Multiset JobId) =
      if fate = .lineup then id ::ₘ ↑board.lineup.ids else ↑board.lineup.ids := by
    rw [h.lineup]
    split
    next hl => rw [Lineup.ids_push _ (enqueued hl), hi, ← Multiset.coe_add, Multiset.add_comm]; rfl
    next => rfl
  have outstanding : board'.outstanding =
      if decide (fate ≠ Fate.ended) || finished then board.outstanding else board.outstanding - 1 := by
    rw [h.outstanding]
    cases fate <;> cases finished <;> rfl
  cases fate with
  | timetable => exact Ledger.ext h.jobs waiting rfl lineup rfl rfl hf hn outstanding (funext h.annals)
  | lineup => exact Ledger.ext h.jobs waiting rfl lineup rfl rfl hf hn outstanding (funext h.annals)
  | ended => exact Ledger.ext h.jobs waiting rfl lineup rfl rfl hf hn outstanding (funext h.annals)
  | stranded => exact Ledger.ext h.jobs waiting rfl lineup rfl rfl hf hn outstanding (funext h.annals)

theorem Sent.wf {board' : Board} {job' : Job} {finished : Bool} {marks : List Mark} {fate : Fate}
    (h : Sent board board' id finished marks job' fate) (hw : board.timetable.WF)
    (scheduled : fate = .timetable → job'.state = .scheduled) : board'.timetable.WF := by
  rw [h.timetable]
  split
  next ht => exact hw.insert (scheduled ht)
  next => exact hw

theorem insert_wf (hw : board.timetable.WF) (h : board.job? id = some job) (hs : job.state = .scheduled) :
    (board.insert id).timetable.WF := by
  rw [insert_scheduled h hs]
  exact hw.insert hs

theorem push_wf (hw : board.timetable.WF) (h : board.job? id = some job) (hs : job.state = .enqueued) :
    (board.push id).timetable.WF := by
  rw [push_enqueued h hs]
  exact hw

/-- A board on which an execution has begun, or was given up: its job and the executions in flight as they are then,
what is noted, the count, and all else as it was. -/
structure Begins (board : Board) (job : Job) (mark : Mark) (inFlight : InFlight) (outstanding : UInt64) (board' : Board) :
    Prop where
  jobs : board'.jobs = (board.put job).jobs
  timetable : board'.timetable = board.timetable
  lineup : board'.lineup = board.lineup
  inFlight : board'.inFlight = inFlight
  outstanding : board'.outstanding = outstanding
  annals : ∀ i, board'.annals i = if i = job.id then mark :: board.annals i else board.annals i

theorem Begins.ledger {mark : Mark} {flights : InFlight} {count : UInt64} {board' : Board}
    (h : board.Begins job mark flights count board') :
    board'.ledger inHand chosen launched =
      { ((board.ledger inHand chosen launched).put job).note job.id [mark] with
        inFlight := flights.tasks, nextTask := flights.next, outstanding := count } := by
  obtain ⟨jobs, timetable, lineup, rfl, rfl, annals⟩ := h
  have waiting : (board'.timetable.ids : Multiset JobId) = board.timetable.ids := by rw [timetable]
  have waiters : (board'.lineup.ids : Multiset JobId) = board.lineup.ids := by rw [lineup]
  exact Ledger.ext jobs waiting rfl waiters rfl rfl rfl rfl rfl (funext annals)

/-- The instance that performs a job: the one bound to it, or one that is built for it. -/
def performer? (board : Board) (supply : Supply) (job : Job) : Option Instance :=
  match job.bound with
  | some performer => some performer
  | none => (supply.maker? job.kind).map fun maker => ⟨job.kind, job.kind.name, .built ⟨board.inFlight.next⟩ maker⟩

theorem performer?_eq_none {supply : Supply} :
    board.performer? supply job = none ↔ job.bound = none ∧ supply.maker? job.kind = none := by
  unfold performer?
  cases job.bound <;> simp

/-- An execution begins with the instance found. -/
theorem begin_found (hn : (board.jobs.map (·.id)).Nodup) (h : board.job? id = some job) {supply : Supply}
    {performer : Instance} (found : board.performer? supply job = some performer) (now : Instant) :
    ∃ board', board.begin supply now job = (.performing ⟨board.inFlight.next⟩ performer, board') ∧
      board.Begins (job.bind performer) .started (board.inFlight.register id).2 board.outstanding board' := by
  cases job?_id h
  unfold performer? at found
  unfold begin
  cases hp : job.bound with
  | some bound =>
    rw [hp] at found
    cases found
    -- bound before, it is left as it is
    have hself : board.put (job.bind performer) = board := by
      rw [show job.bind performer = job by cases job; simp only at hp; subst hp; rfl]
      exact put_self hn h
    refine ⟨_, rfl, (congrArg jobs hself).symm, rfl, rfl, rfl, rfl, ?_⟩
    exact annals_write_of board (.executing job.id _ performer) fun _ => rfl
  | none =>
    rw [hp] at found
    obtain ⟨maker, hm, rfl⟩ := Option.map_eq_some_iff.1 found
    simp only [hm]
    refine ⟨_, rfl, rfl, rfl, rfl, rfl, rfl, ?_⟩
    exact annals_write_of board (.executing job.id _ _) fun _ => rfl

/-- An execution begins with an instance, bound before or built for it. -/
theorem begin_performs (hn : (board.jobs.map (·.id)).Nodup) (h : board.job? id = some job) (supply : Supply)
    (now : Instant) (hb : job.bound = none → (supply.maker? job.kind).isSome) :
    ∃ task performer board', board.begin supply now job = (.performing task performer, board') ∧
      board.Begins (job.bind performer) .started (board.inFlight.register id).2 board.outstanding board' := by
  have someone : ∃ performer, board.performer? supply job = some performer := by
    unfold performer?
    cases hp : job.bound with
    | some performer => exact ⟨performer, rfl⟩
    | none =>
      obtain ⟨maker, hm⟩ := Option.isSome_iff_exists.1 (hb hp)
      exact ⟨_, by rw [hm]; rfl⟩
  obtain ⟨performer, found⟩ := someone
  obtain ⟨board', begun, begins⟩ := begin_found hn h found now
  exact ⟨_, performer, board', begun, begins⟩

/-- An execution is given up if no instance can be built for it. -/
theorem begin_givesUp (below : ∀ e ∈ board.inFlight.tasks, e.1.number < board.inFlight.next)
    (h : board.job? id = some job) (hr : job.state = .running) (supply : Supply) (now : Instant) (hb : job.bound = none)
    (hm : supply.maker? job.kind = none) :
    ∃ board', board.begin supply now job = (.abandoned, board') ∧
      board.Begins (job.givenUp now) .abandoned { board.inFlight with next := board.inFlight.next + 1 }
        (if job.finished then board.outstanding else board.outstanding - 1) board' := by
  cases job?_id h
  have hreg : ((board.register job.id).2.write (.abandoned job.id job.kind)).job? job.id = some job := h
  have hdrop : (((board.register job.id).2.write (.abandoned job.id job.kind)).drop ⟨board.inFlight.next⟩).job? job.id =
      some job := h
  have hflight := InFlight.drop_register below job.id
  have hfail : (job.failedWith .instantiation job.kind.noMakerMessage now).id = job.id := rfl
  refine ⟨((((board.register job.id).2.write (.abandoned job.id job.kind)).drop ⟨board.inFlight.next⟩).put
    (job.failedWith .instantiation job.kind.noMakerMessage now)).finish job.id, ?_, ?_⟩
  · unfold begin moveOrNote
    rw [hb, hm]
    simp only
    rw [show (board.register job.id).1 = ⟨board.inFlight.next⟩ from rfl, move_some hreg, Job.fail_running hr]
    rfl
  · rw [finish_put hdrop hfail]
    refine ⟨rfl, rfl, rfl, hflight, rfl, ?_⟩
    exact annals_write_of board (.abandoned job.id job.kind) fun _ => rfl

end Board

namespace Scheduler

/-- What always holds of a scheduler. -/
structure Sound (s : Scheduler) : Prop where
  timetable : s.board.timetable.WF
  ledger : s.ledger.Sound

/-- What an action does to a scheduler. -/
structure Step (s : Scheduler) (now : Instant) (action : Action) (s' : Scheduler) : Prop where
  effect : Effect s.supply s.policy now s.ledger action s'.ledger
  timetable : s'.board.timetable.WF
  settings : s'.settings = s.settings

variable {s s' : Scheduler} {now : Instant} {action : Action}

/-- A step that changes nothing but the clock, the slots and the bells. -/
theorem Step.quiet (hl : s'.ledger = s.ledger) (ht : s'.board.timetable.WF) (hset : s'.settings = s.settings) :
    s.Step now action s' :=
  ⟨hl ▸ .quiet, ht, hset⟩

/-- Two schedulers have one ledger if their boards do and their loops hold the same. -/
theorem ledger_congr (hb : ∀ a b c, s'.board.ledger a b c = s.board.ledger a b c) (hi : s'.inHand = s.inHand)
    (hc : s'.chosen = s.chosen) (hl : s'.launched = s.launched) : s'.ledger = s.ledger := by
  unfold ledger
  rw [hb, hi, hc, hl]

/-! ## Calls -/

theorem dispose_step (hs : s.Sound) : s.Step now .dispose s.dispose := by
  unfold dispose
  split
  · exact .quiet rfl hs.timetable rfl
  · exact .quiet (Board.ledger_write .disposing fun _ => rfl) hs.timetable rfl

theorem shutDown_step (hs : s.Sound) : s.Step now .shutDown s.shutDown := by
  have hw : (s.write .shuttingDown).ledger = s.ledger := Board.ledger_write .shuttingDown fun _ => rfl
  unfold shutDown dispose
  split
  · exact .quiet hw hs.timetable rfl
  · exact .quiet ((Board.ledger_write .disposing fun _ => rfl).trans hw) hs.timetable rfl

theorem abandon_step (hs : s.Sound) : s.Step now .abandon s.abandon := .quiet rfl hs.timetable rfl

/-- A job that is accepted is added as it begins to wait, and is put where it does. -/
theorem accept_eq {id : JobId} (hn : s.board.job? id = none) (hd : s.disposed = false) (work : Work) (plan : Plan) :
    s.accept now id work plan = .ok { s with
      board :=
        if plan.dueAt ≤ now then ((s.board.add (plan.job id work s.number .enqueued)).track.write (.enqueued id)).push id
        else ((s.board.add (plan.job id work s.number .scheduled)).track.write (.scheduled id plan.dueAt)).insert id } := by
  have hadd : ∀ state, (s.board.add (plan.job id work s.number .notStarted)).put (plan.job id work s.number state) =
      s.board.add (plan.job id work s.number state) := fun state => Board.put_add hn rfl
  have hj : (s.board.add (plan.job id work s.number .notStarted)).job? id = some (plan.job id work s.number .notStarted) :=
    Board.job?_add hn
  unfold accept
  rw [hd]
  simp only [Bool.false_eq_true, if_false]
  show (if _ then Except.map _ ((s.board.add (plan.job id work s.number .notStarted)).move id Job.enqueue)
    else Except.map _ ((s.board.add (plan.job id work s.number .notStarted)).move id Job.schedule)) = _
  split
  · rw [Board.move_some hj, ← hadd .enqueued]; rfl
  · rw [Board.move_some hj, ← hadd .scheduled]; rfl

/-- The job that has been added is known in the state in which it waits. -/
theorem added_job? {id : JobId} (hn : s.board.job? id = none) (work : Work) (plan : Plan) (state : State) (event : Event) :
    ((s.board.add (plan.job id work s.number state)).track.write event).job? id = some (plan.job id work s.number state) := by
  have hj : (s.board.add (plan.job id work s.number state)).job? id = some (plan.job id work s.number state) :=
    Board.job?_add hn
  exact hj

/-- A job that is due is accepted into the lineup. -/
theorem accept_due {id : JobId} (hn : s.board.job? id = none) (hd : s.disposed = false) (work : Work) {plan : Plan}
    (due : plan.dueAt ≤ now) :
    s.accept now id work plan = .ok { s with
      board := { (s.board.add (plan.job id work s.number .enqueued)).track.write (.enqueued id) with
        lineup := s.board.lineup.push (plan.job id work s.number .enqueued) } } := by
  rw [accept_eq hn hd, if_pos due, Board.push_enqueued (added_job? hn ..) rfl]
  rfl

/-- A job that is not due yet is accepted into the timetable. -/
theorem accept_ahead {id : JobId} (hn : s.board.job? id = none) (hd : s.disposed = false) (work : Work) {plan : Plan}
    (ahead : ¬ plan.dueAt ≤ now) :
    s.accept now id work plan = .ok { s with
      board := { (s.board.add (plan.job id work s.number .scheduled)).track.write (.scheduled id plan.dueAt) with
        timetable := s.board.timetable.insert (plan.job id work s.number .scheduled) } } := by
  rw [accept_eq hn hd, if_neg ahead, Board.insert_scheduled (added_job? hn ..) rfl]
  rfl

theorem accept_open {id : JobId} {work : Work} {plan : Plan} (h : s.accept now id work plan = .ok s') :
    s.disposed = false := by
  unfold accept at h
  split at h
  · cases h
  · simp_all

/-- A job that has been accepted waits with its plan, and nothing is noted of it. -/
theorem accept_job? {id : JobId} {work : Work} {plan : Plan} (hn : s.board.job? id = none)
    (h : s.accept now id work plan = .ok s') :
    ∃ state, (state = .enqueued ∨ state = .scheduled) ∧ s'.board.job? id = some (plan.job id work s.number state) ∧
      s'.board.annals id = s.board.annals id := by
  by_cases due : plan.dueAt ≤ now
  · rw [accept_due hn (accept_open h) work due] at h
    cases h
    exact ⟨.enqueued, .inl rfl, added_job? hn work plan .enqueued (.enqueued id), rfl⟩
  · rw [accept_ahead hn (accept_open h) work due] at h
    cases h
    exact ⟨.scheduled, .inr rfl, added_job? hn work plan .scheduled (.scheduled id plan.dueAt), rfl⟩

theorem schedule_eq_ok {made : Instant} {id : JobId} {work : Work} {request : Request}
    (h : s.schedule made now id work request = .ok (.ok s')) :
    ∃ plan, request.plan made = .ok (.ok plan) ∧ s.accept now id work plan = .ok s' := by
  unfold schedule at h
  split at h
  · cases h
  · cases hp : request.plan made with
    | error fault => rw [hp] at h; cases h
    | ok answer =>
      rw [hp] at h
      cases answer with
      | error refusal => cases h
      | ok plan =>
        refine ⟨plan, rfl, ?_⟩
        simp only [Except.map, Except.bind, Except.ok.injEq] at h
        exact h

theorem accept_step (hs : s.Sound) {made : Instant} {id : JobId} {work : Work} {request : Request} {plan : Plan}
    (hn : s.board.job? id = none) (hp : request.plan made = .ok (.ok plan)) (ht : plan.cadence.Tame plan.dueAt)
    (h : s.accept now id work plan = .ok s') : s.Step now (.schedule made id work request) s' := by
  rw [accept_eq hn (accept_open h)] at h
  cases h
  split
  · have waits := added_job? hn work plan .enqueued (.enqueued id)
    refine ⟨?_, Board.push_wf hs.timetable waits rfl, rfl⟩
    show Effect _ _ _ _ _ (Board.ledger _ s.inHand s.chosen s.launched)
    rw [Board.ledger_push waits rfl, Board.ledger_write (.enqueued id) fun _ => rfl]
    exact .accepted hn hp ht .lineup
  · have waits := added_job? hn work plan .scheduled (.scheduled id plan.dueAt)
    have hw : ((s.board.add (plan.job id work s.number .scheduled)).track.write (.scheduled id plan.dueAt)).timetable.WF :=
      hs.timetable
    refine ⟨?_, Board.insert_wf hw waits rfl, rfl⟩
    show Effect _ _ _ _ _ (Board.ledger _ s.inHand s.chosen s.launched)
    rw [Board.ledger_insert hw waits rfl, Board.ledger_write (.scheduled id plan.dueAt) fun _ => rfl]
    exact .accepted hn hp ht .timetable

theorem schedule_step (hs : s.Sound) {made : Instant} {id : JobId} {work : Work} {request : Request}
    (hl : (Action.schedule made id work request).Legal s) :
    s.Step now (.schedule made id work request) (s.act now (.schedule made id work request)) := by
  have hquiet : s.Step now (.schedule made id work request) s := .quiet rfl hs.timetable rfl
  simp only [act]
  cases h : s.schedule made now id work request with
  | error fault => exact hquiet
  | ok answer =>
    cases answer with
    | error refusal => exact hquiet
    | ok s' =>
      obtain ⟨plan, hp, ha⟩ := schedule_eq_ok h
      exact accept_step hs hl.1 hp (Request.plan_tame hl.2 hp) ha

/-- A job that is cancelled leaves the queue it is in, and is done with. -/
theorem cancel_eq_ok (hs : s.Sound) {id : JobId} {job : Job} (hj : s.board.job? id = some job)
    (h : s.cancel job = .ok s') :
    job.state.canBecome .cancelled = true ∧ s' = { s with
      board := (({ s.board with
        timetable := (s.board.timetable.remove id).2
        lineup := if id ∈ s.board.timetable.ids then s.board.lineup else (s.board.lineup.remove id).2 }.put
          { job with state := .cancelled }).finish id).write (.cancelled id) } := by
  have hi : job.id = id := Board.job?_id hj
  unfold cancel at h
  rw [hi] at h
  cases ho : s.ensureOwned job .cancel with
  | error refusal => rw [ho] at h; cases h
  | ok owned =>
    rw [ho, Board.move_some hj] at h
    cases hm : job.cancel with
    | error refusal => rw [hm] at h; cases h
    | ok moved =>
      obtain ⟨hc, rfl⟩ := Job.cancel_eq_ok.1 hm
      refine ⟨hc, ?_⟩
      rw [hm] at h
      simp only [bind, Except.bind, Except.map, pure, Except.pure, Except.ok.injEq] at h
      rw [← h]
      -- the timetable is searched after the job has been put, which does not touch it
      have hu : (s.board.put { job with state := .cancelled }).unschedule id =
          (if id ∈ s.board.timetable.ids then some id else none,
            { s.board.put { job with state := .cancelled } with timetable := (s.board.timetable.remove id).2 }) := by
        unfold Board.unschedule
        rw [show (s.board.put { job with state := .cancelled }).timetable = s.board.timetable from rfl,
          hs.timetable.remove_eq id]
      rw [hu]
      by_cases hm : id ∈ s.board.timetable.ids
      · simp only [if_pos hm]; rfl
      · simp only [if_neg hm]; rfl

theorem cancel_step (hs : s.Sound) (id : JobId) : s.Step now (.cancel id) (s.act now (.cancel id)) := by
  have hquiet : s.Step now (.cancel id) s := .quiet rfl hs.timetable rfl
  simp only [act]
  cases hj : s.board.job? id with
  | none => exact hquiet
  | some job =>
    simp only [Option.bind_some]
    cases hc : s.cancel job with
    | error refusal => exact hquiet
    | ok s' =>
      obtain ⟨state, rfl⟩ := cancel_eq_ok hs hj hc
      -- the board without the job in its queues, before the job is put and finished
      generalize hb : ({ s.board with
        timetable := (s.board.timetable.remove id).2
        lineup := if id ∈ s.board.timetable.ids then s.board.lineup else (s.board.lineup.remove id).2 } : Board) = left
      have hj' : left.job? id = some job := by rw [← hb]; exact hj
      have hl : left.ledger s.inHand s.chosen s.launched = { s.ledger with
          waiting := s.ledger.waiting.filter (· ≠ id)
          lineup := if id ∈ s.ledger.waiting then s.ledger.lineup else s.ledger.lineup.erase id } := by
        rw [← hb]
        refine Ledger.ext rfl (Board.ids_remove hs.timetable id) rfl ?_ rfl rfl rfl rfl rfl rfl
        show (↑(if id ∈ s.board.timetable.ids then s.board.lineup else (s.board.lineup.remove id).2).ids : Multiset JobId) =
          if id ∈ s.board.timetable.ids then ↑s.board.lineup.ids else (↑s.board.lineup.ids : Multiset JobId).erase id
        split
        · rfl
        · rw [Lineup.ids_remove, Multiset.coe_erase]
      have hi : ({ job with state := .cancelled } : Job).id = job.id := rfl
      refine ⟨?_, Board.finish_wf (by rw [← hb]; exact hs.timetable.remove id) hj' hi, rfl⟩
      show Effect _ _ _ _ _ (Board.ledger (Board.write _ _) s.inHand s.chosen s.launched)
      rw [Board.ledger_write _ fun _ => rfl, Board.ledger_finish hj' hi, hl]
      have he : Effect s.supply s.policy now s.ledger (.cancel id) _ := .cancelled hj state
      exact he

/-- A job that is performed early leaves the timetable for the lineup. -/
theorem performNow_eq_ok {id : JobId} {job : Job} (hj : s.board.job? id = some job)
    (h : s.performNow job = .ok s') :
    job.state = .scheduled ∧ s' = { s with
      board := (({ s.board with timetable := (s.board.timetable.remove id).2 }.put { job with state := .enqueued }).write
        (.performedNow id)).push id } := by
  have hi : job.id = id := Board.job?_id hj
  unfold performNow at h
  rw [hi] at h
  cases ho : s.ensureOwned job .performNow with
  | error refusal => rw [ho] at h; cases h
  | ok owned =>
    rw [ho] at h
    cases he : job.ensureScheduled .performNow with
    | error refusal => rw [he] at h; cases h
    | ok scheduled =>
      have state : job.state = .scheduled := by
        unfold Job.ensureScheduled at he
        split at he
        · assumption
        · cases he
      refine ⟨state, ?_⟩
      have hj' : (s.board.unschedule id).2.job? id = some job := hj
      have hm : job.enqueue = .ok { job with state := .enqueued } := Job.enqueue_eq_ok.2 ⟨by rw [state]; rfl, rfl⟩
      rw [he] at h
      simp only [bind, Except.bind, Board.move_some hj', hm, Except.map, pure, Except.pure, Except.ok.injEq] at h
      rw [← h]
      rfl

theorem performNow_step (hs : s.Sound) (id : JobId) : s.Step now (.performNow id) (s.act now (.performNow id)) := by
  have hquiet : s.Step now (.performNow id) s := .quiet rfl hs.timetable rfl
  simp only [act]
  cases hj : s.board.job? id with
  | none => exact hquiet
  | some job =>
    simp only [Option.bind_some]
    cases hc : s.performNow job with
    | error refusal => exact hquiet
    | ok s' =>
      obtain ⟨state, rfl⟩ := performNow_eq_ok hj hc
      generalize hb : ({ s.board with timetable := (s.board.timetable.remove id).2 } : Board) = left
      have hl : left.ledger s.inHand s.chosen s.launched =
          { s.ledger with waiting := s.ledger.waiting.filter (· ≠ id) } := by
        rw [← hb]
        exact Ledger.ext rfl (Board.ids_remove hs.timetable id) rfl rfl rfl rfl rfl rfl rfl rfl
      have hj' : left.job? id = some job := by rw [← hb]; exact hj
      have hp : ((left.put { job with state := .enqueued }).write (.performedNow id)).job? id =
          some { job with state := .enqueued } := Board.job?_put_self hj' _ rfl
      have hw : left.timetable.WF := by rw [← hb]; exact hs.timetable.remove id
      refine ⟨?_, Board.push_wf hw hp rfl, rfl⟩
      show Effect _ _ _ _ _ (Board.ledger (Board.push _ _) s.inHand s.chosen s.launched)
      rw [Board.ledger_push hp rfl, Board.ledger_write _ fun _ => rfl, Board.ledger_put, hl]
      exact .hurried hj state

/-! ## The loops -/

theorem takeDue_step (hs : s.Sound) (hh : s.inHand = []) (p : Promotion) (hp : { s with promotion := p }.inHand = (s.board.takeDue now).1) :
    s.Step now .promotion { s with board := (s.board.takeDue now).2, promotion := p } := by
  refine ⟨?_, hs.timetable.takeDue now, rfl⟩
  have hsplit : s.ledger.waiting = ↑(s.board.timetable.takeDue now).1 + ↑(s.board.timetable.takeDue now).2.ids := by
    rw [Multiset.coe_add, ← Timetable.ids_takeDue]
    rfl
  have he : Effect s.supply s.policy now s.ledger .promotion _ := .taken hh hsplit
  convert he using 1
  exact Ledger.ext rfl rfl hp rfl rfl rfl rfl rfl rfl rfl

theorem promote_step (hs : s.Sound) {id : JobId} {rest : List JobId} (hp : s.promotion = .holding (id :: rest)) :
    s.Step now .promotion { s.promote id with promotion := .holding rest } := by
  have hand : s.ledger.inHand = id :: rest := by simp [ledger, Board.ledger, inHand, hp]
  obtain ⟨job, hj⟩ := Option.isSome_iff_exists.1 (hs.ledger.held id (.inr (.inl (by simp [hand]))))
  have hj : s.board.job? id = some job := hj
  unfold promote
  rw [Board.move_some hj]
  cases hm : job.enqueue with
  | error refusal =>
    have state : job.state.canBecome .enqueued = false := by
      by_contra hc
      rw [Job.enqueue_eq_ok.2 ⟨by simpa using hc, rfl⟩] at hm
      cases hm
    refine ⟨?_, hs.timetable, rfl⟩
    show Effect _ _ _ _ _ ((s.board.write (.notPromoted id)).ledger rest s.chosen s.launched)
    rw [Board.ledger_write _ fun _ => rfl]
    exact .passedOver hand hj state
  | ok moved =>
    obtain ⟨state, rfl⟩ := Job.enqueue_eq_ok.1 hm
    have hq : ((s.board.put { job with state := .enqueued }).write (.due id)).job? id =
        some { job with state := .enqueued } := Board.job?_put_self hj _ rfl
    refine ⟨?_, Board.push_wf hs.timetable hq rfl, rfl⟩
    show Effect _ _ _ _ _ ((Board.push _ id).ledger rest s.chosen s.launched)
    rw [Board.ledger_push hq rfl, Board.ledger_write _ fun _ => rfl]
    exact .promoted hand hj state

theorem promotion_step (hs : s.Sound) : s.Step now .promotion (s.act now .promotion) := by
  simp only [act, promotionStep]
  cases hp : s.promotion with
  | looking =>
    have hh : s.inHand = [] := by simp [inHand, hp]
    dsimp only
    split
    · refine .quiet (ledger_congr (fun _ _ _ => Board.ledger_write _ fun _ => rfl) ?_ rfl rfl) hs.timetable rfl
      simp [stopPromotion, inHand, hp]
    · split
      next board ht =>
        have := takeDue_step hs hh (.measuring now) (by rw [ht]; rfl)
        rwa [ht] at this
      next batch board _ ht =>
        have := takeDue_step hs hh (.holding batch) (by rw [ht]; rfl)
        rwa [ht] at this
  | holding batch =>
    cases batch with
    | nil => exact .quiet (ledger_congr (fun _ _ _ => rfl) (by simp [inHand, hp]) rfl rfl) hs.timetable rfl
    | cons id rest => exact promote_step hs hp
  | measuring read => exact .quiet (ledger_congr (fun _ _ _ => rfl) (by simp [inHand, hp]) rfl rfl) hs.timetable rfl
  | parking read delay =>
    dsimp only
    split
    · refine .quiet (ledger_congr (fun _ _ _ => rfl) ?_ rfl rfl) hs.timetable.hear rfl
      simp [inHand, hp]
    · exact .quiet (ledger_congr (fun _ _ _ => rfl) (by simp [inHand, hp]) rfl rfl) hs.timetable rfl
  | parked read delay =>
    dsimp only
    split
    · refine .quiet (ledger_congr (fun _ _ _ => Board.ledger_write _ fun _ => rfl) ?_ rfl rfl) hs.timetable rfl
      simp [stopPromotion, inHand, hp]
    split
    · refine .quiet (ledger_congr (fun _ _ _ => rfl) ?_ rfl rfl) hs.timetable.hear rfl
      simp [inHand, hp]
    split
    · exact .quiet (ledger_congr (fun _ _ _ => rfl) (by simp [inHand, hp]) rfl rfl) hs.timetable rfl
    · exact .quiet rfl hs.timetable rfl
  | stopped => exact .quiet rfl hs.timetable rfl

/-- The job that the promotion loop promotes next is the first of its batch. -/
theorem holding_of_next {id : JobId} (next : s.inHand.head? = some id) :
    ∃ rest, s.promotion = .holding (id :: rest) := by
  unfold inHand at next
  split at next
  next batch hp =>
    obtain ⟨rest, rfl⟩ := List.head?_eq_some_iff.1 next
    exact ⟨rest, hp⟩
  next => cases next

/-- A job that the promotion loop promotes waits for a slot. -/
theorem promotion_job? {id : JobId} {job : Job} (hj : s.board.job? id = some job) (hand : s.inHand.head? = some id)
    (state : job.state.canBecome .enqueued = true) :
    (s.act now .promotion).board.job? id = some { job with state := .enqueued } := by
  obtain ⟨rest, hp⟩ := holding_of_next hand
  have hq : ((s.board.put { job with state := .enqueued }).write (.due id)).job? id = some { job with state := .enqueued } :=
    Board.job?_put_self hj _ rfl
  simp only [act, promotionStep, hp, promote]
  rw [Board.move_some hj, Job.enqueue_eq_ok.2 ⟨state, rfl⟩]
  show (Board.push _ id).job? id = _
  rw [Board.push_enqueued hq rfl]
  exact hq

theorem choose_step (hs : s.Sound) {slotFirst : Bool} (hd : s.dispatch = .granted) :
    s.Step now (.dispatch slotFirst) s.choose := by
  have hc : s.chosen = [] := by simp [chosen, hd]
  unfold choose Board.takeNext
  rcases hn : s.board.lineup.takeNext with ⟨_ | id, rest⟩
  · refine .quiet ?_ hs.timetable rfl
    refine Ledger.ext rfl rfl rfl ?_ hc.symm rfl rfl rfl rfl rfl
    show (↑rest.ids : Multiset JobId) = ↑s.board.lineup.ids
    rw [Lineup.ids_takeNext_none hn]
  · refine ⟨?_, hs.timetable, rfl⟩
    have hsplit : s.ledger.lineup = id ::ₘ ↑rest.ids := Multiset.coe_eq_coe.2 (Lineup.ids_takeNext_some hn)
    exact .chose hc hsplit

theorem launch_step (hs : s.Sound) {id : JobId} {slotFirst : Bool} (hd : s.dispatch = .chosen id) :
    s.Step now (.dispatch slotFirst) (s.launch id) := by
  have hand : s.ledger.chosen = [id] := by simp [ledger, Board.ledger, chosen, hd]
  obtain ⟨job, hj⟩ := Option.isSome_iff_exists.1 (hs.ledger.held id (.inr (.inr (.inr (by simp [hand])))))
  have hj : s.board.job? id = some job := hj
  unfold launch
  rw [Board.move_some hj]
  cases hm : job.run with
  | error refusal =>
    have state : job.state ≠ .enqueued := by
      intro hc
      rw [Job.run_eq_ok.2 ⟨by rw [hc]; rfl, rfl⟩] at hm
      cases hm
    refine ⟨?_, hs.timetable, rfl⟩
    show Effect _ _ _ _ _ ((s.board.write (.notDispatched id)).ledger s.inHand [] s.launched)
    rw [Board.ledger_write _ fun _ => rfl]
    exact .notLaunched hand hj state
  | ok moved =>
    obtain ⟨hc, rfl⟩ := Job.run_eq_ok.1 hm
    have state : job.state = .enqueued := by
      cases h : job.state <;> rw [h] at hc <;> first | rfl | cases hc
    refine ⟨?_, hs.timetable, rfl⟩
    have he : Effect s.supply s.policy now s.ledger (.dispatch slotFirst) _ := .launched hand hj state
    convert he using 1
    refine Ledger.ext rfl rfl rfl rfl rfl ?_ rfl rfl rfl rfl
    show (↑(s.launched ++ [id]) : Multiset JobId) = id ::ₘ ↑s.launched
    rw [← Multiset.coe_add, Multiset.add_comm]
    rfl

theorem dispatch_step (hs : s.Sound) (slotFirst : Bool) :
    s.Step now (.dispatch slotFirst) (s.act now (.dispatch slotFirst)) := by
  simp only [act, dispatchStep]
  cases hd : s.dispatch with
  | looking =>
    dsimp only
    split
    · refine .quiet (ledger_congr (fun _ _ _ => Board.ledger_write _ fun _ => rfl) rfl ?_ rfl) hs.timetable rfl
      simp [stopDispatch, chosen, hd]
    split
    · exact .quiet (ledger_congr (fun _ _ _ => rfl) rfl (by simp [chosen, hd]) rfl) hs.timetable rfl
    · exact .quiet (ledger_congr (fun _ _ _ => rfl) rfl (by simp [chosen, hd]) rfl) hs.timetable rfl
  | parking =>
    dsimp only
    split
    · refine .quiet (ledger_congr (fun _ _ _ => rfl) rfl ?_ rfl) hs.timetable rfl
      simp [chosen, hd]
    · exact .quiet (ledger_congr (fun _ _ _ => rfl) rfl (by simp [chosen, hd]) rfl) hs.timetable rfl
  | parked read =>
    dsimp only
    split
    · refine .quiet (ledger_congr (fun _ _ _ => Board.ledger_write _ fun _ => rfl) rfl ?_ rfl) hs.timetable rfl
      simp [stopDispatch, chosen, hd]
    split
    · refine .quiet (ledger_congr (fun _ _ _ => rfl) rfl ?_ rfl) hs.timetable rfl
      simp [chosen, hd]
    split
    · exact .quiet (ledger_congr (fun _ _ _ => rfl) rfl (by simp [chosen, hd]) rfl) hs.timetable rfl
    · exact .quiet rfl hs.timetable rfl
  | waiting =>
    dsimp only
    split
    · refine .quiet (ledger_congr (fun _ _ _ => rfl) rfl ?_ rfl) hs.timetable rfl
      simp [grantSlot, chosen, hd]
    split
    · refine .quiet (ledger_congr (fun _ _ _ => Board.ledger_write _ fun _ => rfl) rfl ?_ rfl) hs.timetable rfl
      simp [stopDispatch, chosen, hd]
    · exact .quiet rfl hs.timetable rfl
  | granted => exact choose_step hs hd
  | chosen id => exact launch_step hs hd
  | stopped => exact .quiet rfl hs.timetable rfl

/-! ## Executions -/

theorem begin_step (hs : s.Sound) (id : JobId) : s.Step now (.begin id) (s.act now (.begin id)) := by
  simp only [act]
  split
  next hm =>
    obtain ⟨job, hj, hr⟩ := (hs.ledger.manned.runs id).1 (Ledger.mem_executions_of_launched (Multiset.mem_coe.2 hm))
    have hj : s.board.job? id = some job := hj
    have hi : job.id = id := Board.job?_id hj
    have waited : id ∈ s.ledger.launched := Multiset.mem_coe.2 hm
    have launched : (↑(s.launched.erase id) : Multiset JobId) = s.ledger.launched.erase id := (Multiset.coe_erase ..).symm
    unfold begin
    simp only [hj]
    by_cases hb : job.bound = none → (s.supply.maker? job.kind).isSome
    · obtain ⟨task, performer, board', hbeg, begins⟩ := Board.begin_performs hs.ledger.distinct hj s.supply now hb
      rw [show Scheduler.supply { s with launched := s.launched.erase id } = s.supply from rfl, hbeg]
      refine ⟨?_, begins.timetable ▸ hs.timetable, rfl⟩
      show Effect _ _ _ _ _ (board'.ledger s.inHand s.chosen (s.launched.erase id))
      rw [begins.ledger, show (job.bind performer).id = id from hi]
      have he : Effect s.supply s.policy now s.ledger (.begin id)
          { (s.ledger.put (job.bind performer)).note id [.started] with
            launched := s.ledger.launched.erase id
            inFlight := s.ledger.inFlight ++ [(⟨s.ledger.nextTask⟩, id)]
            nextTask := s.ledger.nextTask + 1 } := .begun waited hj hb
      rw [← launched] at he
      exact he
    · rw [Classical.not_imp] at hb
      have hmaker : s.supply.maker? job.kind = none := by simpa using hb.2
      obtain ⟨board', hbeg, begins⟩ := Board.begin_givesUp hs.ledger.below hj hr s.supply now hb.1 hmaker
      rw [show Scheduler.supply { s with launched := s.launched.erase id } = s.supply from rfl, hbeg]
      refine ⟨?_, begins.timetable ▸ hs.timetable, rfl⟩
      show Effect _ _ _ _ _ (board'.ledger s.inHand s.chosen (s.launched.erase id))
      rw [begins.ledger, show (job.givenUp now).id = id from hi]
      have he : Effect s.supply s.policy now s.ledger (.begin id)
          ({ (s.ledger.put (job.givenUp now)).note id [.abandoned] with
            launched := s.ledger.launched.erase id
            nextTask := s.ledger.nextTask + 1 }.discount job.finished) := .givenUp waited hj hb.1 hmaker
      rw [← launched] at he
      exact he
  next => exact .quiet rfl hs.timetable rfl

/-- An execution that begins is noted. -/
theorem begin_annals (hs : s.Sound) {id : JobId} (hl : id ∈ s.launched) :
    ∃ mark, (mark = .started ∨ mark = .abandoned) ∧ (s.act now (.begin id)).board.annals id = mark :: s.board.annals id := by
  have left : (s.act now (.begin id)).launched = s.launched.erase id := by
    simp only [act, if_pos hl, begin]
    split
    · rfl
    · split <;> rfl
  have left : (s.act now (.begin id)).ledger.launched = s.ledger.launched.erase id :=
    (congrArg _ left).trans (Multiset.coe_erase ..).symm
  have step : s.Step now (.begin id) _ := begin_step hs id
  have effect := step.effect
  show ∃ mark, _ ∧ (s.act now (.begin id)).ledger.annals id = mark :: s.ledger.annals id
  generalize (s.act now (.begin id)).ledger = l at effect left ⊢
  cases effect with
  | quiet =>
    -- a ledger that is left alone would still hold the launched job
    have held : id ∈ s.ledger.launched := Multiset.mem_coe.2 hl
    have fewer := Multiset.card_erase_lt_of_mem held
    rw [← left] at fewer
    exact absurd fewer (Nat.lt_irrefl _)
  | begun => exact ⟨.started, .inl rfl, if_pos rfl⟩
  | givenUp => exact ⟨.abandoned, .inr rfl, if_pos rfl⟩

theorem conclude_step (hs : s.Sound) (task : TaskId) (ending : Ending) :
    s.Step now (.conclude task ending) (s.act now (.conclude task ending)) := by
  simp only [act]
  cases hl : s.board.inFlight.tasks.lookup task with
  | none => exact .quiet rfl hs.timetable rfl
  | some id =>
    have hm : (task, id) ∈ s.board.inFlight.tasks := by
      obtain ⟨before, after, he, -⟩ := List.lookup_eq_some_iff.1 hl
      rw [he]; simp
    obtain ⟨job, hj, hr⟩ := (hs.ledger.manned.runs id).1 (Ledger.mem_executions_of_inFlight hm)
    have hj : s.board.job? id = some job := hj
    obtain ⟨marks, job', fate, sequel, sent⟩ := Board.conclude_sent hj hr s.policy now task ending
    have hw : (s.board.drop task).timetable.WF := hs.timetable
    refine ⟨?_, sent.wf hw sequel.state_eq.1, rfl⟩
    have he : Effect s.supply s.policy now s.ledger (.conclude task ending) _ := .concluded hm hj sequel
    show Effect _ _ _ _ _ (((s.board.settle now id task ending).route s.policy now id ending).1.ledger s.inHand s.chosen
      s.launched)
    rw [sent.ledger hw (sequel.id_eq.trans (Board.job?_id hj)) sequel.state_eq.1 sequel.state_eq.2]
    exact he

/-- Every action has an effect. -/
theorem act_step (hs : s.Sound) (legal : action.Legal s) : s.Step now action (s.act now action) := by
  cases action with
  | schedule made id work request => exact schedule_step hs legal
  | cancel id => exact cancel_step hs id
  | performNow id => exact performNow_step hs id
  | dispose => exact dispose_step hs
  | shutDown => exact shutDown_step hs
  | abandon => exact abandon_step hs
  | promotion => exact promotion_step hs
  | dispatch slotFirst => exact dispatch_step hs slotFirst
  | begin id => exact begin_step hs id
  | conclude task ending => exact conclude_step hs task ending

/-- A job that turns up has been accepted, under the number of the scheduler. -/
theorem act_turns_up (hs : s.Sound) (legal : action.Legal s) {id : JobId} {job' : Job} (unknown : s.board.job? id = none)
    (hj : (s.act now action).board.job? id = some job') :
    ∃ made work request plan state, action = .schedule made id work request ∧ request.plan made = .ok (.ok plan) ∧
      s.schedule made now id work request = .ok (.ok (s.act now action)) ∧ (state = .enqueued ∨ state = .scheduled) ∧
      job' = plan.job id work s.number state := by
  have step : s.Step now action _ := act_step hs legal
  rcases (step.effect.turns_up unknown).2 with absent | ⟨made, work, request, -, -, -, -, rfl, -, -, -, -⟩
  · cases absent.symm.trans hj
  · simp only [act] at hj ⊢
    cases h : s.schedule made now id work request with
    | error fault =>
      rw [h] at hj
      cases unknown.symm.trans hj
    | ok answer =>
      rw [h] at hj
      cases answer with
      | error refusal => cases unknown.symm.trans hj
      | ok s' =>
        obtain ⟨plan, planned, accepted⟩ := schedule_eq_ok h
        obtain ⟨state, waits, known, -⟩ := accept_job? unknown accepted
        cases known.symm.trans hj
        exact ⟨made, work, request, plan, state, rfl, planned, h, waits, rfl⟩

theorem act_sound (hs : s.Sound) (legal : action.Legal s) : (s.act now action).Sound :=
  ⟨(act_step hs legal).timetable, (act_step hs legal).effect.sound hs.ledger⟩

theorem start_sound {number : Nat} {settings : Settings} (h : start number settings = .ok s) : s.Sound := by
  cases start_eq h
  refine ⟨Timetable.empty_wf, ⟨List.nodup_nil, ?_, ⟨Multiset.nodup_zero, ?_⟩, List.nodup_nil, ?_, ?_, ?_, ?_⟩⟩
  · intro id hi
    rcases hi with hi | hi | hi | hi <;> cases hi
  · intro id
    constructor
    · intro hm; cases hm
    · rintro ⟨job, hj, -⟩; cases hj
  · intro e he; cases he
  · intro id _; rfl
  · intro id job hj; cases hj
  · intro id job hj; cases hj

/-! ## Runs -/

theorem run_sound (hs : s.Sound) {grain : Grain} {actions : List (Instant × Action)} (ha : s.Allows grain actions) :
    (s.run actions).Sound := by
  induction actions generalizing s with
  | nil => exact hs
  | cons x rest ih => exact ih (act_sound hs ha.1.legal) ha.2

theorem Reached.sound {grain : Grain} (h : s.Reached grain) : s.Sound := by
  obtain ⟨number, settings, s₀, actions, h₀, ha, rfl⟩ := h
  exact run_sound (start_sound h₀) ha

/-- What holds at the start, and is kept by every action of a sound scheduler, holds wherever a run leads. -/
theorem Reached.sound_induct {grain : Grain} {P : Scheduler → Prop}
    (start : ∀ number settings s, Scheduler.start number settings = .ok s → P s)
    (act : ∀ (s : Scheduler) now action, s.Sound → P s → action.Legal s → P (s.act now action)) (h : s.Reached grain) :
    P s := by
  have both : s.Sound ∧ P s := by
    refine Reached.induct (P := fun s => s.Sound ∧ P s) ?_ ?_ h
    · intro number settings s h₀
      exact ⟨start_sound h₀, start number settings s h₀⟩
    · intro s now action hp fits
      exact ⟨act_sound hp.1 fits.legal, act s now action hp.1 hp.2 fits.legal⟩
  exact both.2

theorem run_settings (hs : s.Sound) {grain : Grain} {actions : List (Instant × Action)} (ha : s.Allows grain actions) :
    (s.run actions).settings = s.settings := by
  induction actions generalizing s with
  | nil => rfl
  | cons x rest ih => exact (ih (act_sound hs ha.1.legal) ha.2).trans (act_step hs ha.1.legal).settings

theorem act_policy (hs : s.Sound) (legal : action.Legal s) : (s.act now action).policy = s.policy := by
  have step : s.Step now action _ := act_step hs legal
  unfold policy
  rw [step.settings]

theorem run_policy (hs : s.Sound) {grain : Grain} {actions : List (Instant × Action)} (ha : s.Allows grain actions) :
    (s.run actions).policy = s.policy := by
  unfold policy
  rw [run_settings hs ha]

/-- What a scheduler keeps by each of some actions it has kept after all of them. -/
theorem run_invariant {P : Scheduler → Prop} {Q : Action → Prop}
    (kept : ∀ (s : Scheduler) now action, s.Sound → action.Legal s → Q action → P s → P (s.act now action))
    (hs : s.Sound) {grain : Grain} {actions : List (Instant × Action)} (ha : s.Allows grain actions)
    (hq : ∀ x ∈ actions, Q x.2) (hp : P s) : P (s.run actions) := by
  induction actions generalizing s with
  | nil => exact hp
  | cons x rest ih =>
    rw [List.forall_mem_cons] at hq
    exact ih (act_sound hs ha.1.legal) ha.2 hq.2 (kept s x.1 x.2 hs ha.1.legal hq.1 hp)

/-- What a scheduler keeps by every action it keeps wherever a run leads. -/
theorem run_always {P : Scheduler → Prop}
    (kept : ∀ (s : Scheduler) now action, s.Sound → action.Legal s → P s → P (s.act now action))
    (hs : s.Sound) {grain : Grain} {actions : List (Instant × Action)} (ha : s.Allows grain actions) (hp : P s) :
    P (s.run actions) :=
  run_invariant (Q := fun _ => True) (fun s now action hs legal _ => kept s now action hs legal) hs ha
    (fun _ _ => trivial) hp

/-- What holds of a job and its annals, and is kept by every passage, holds of them wherever a run leads. -/
theorem run_keeps {P : Job → List Mark → Prop}
    (kept : ∀ (s : Scheduler) now action job job' marks past, s.Sound → s.board.job? job.id = some job →
      Passage s.supply s.policy now s.ledger job action marks job' → P job past → P job' (marks ++ past))
    (hs : s.Sound) {grain : Grain} {actions : List (Instant × Action)} (ha : s.Allows grain actions) {id : JobId} {job : Job}
    (hj : s.board.job? id = some job) (hp : P job (s.board.annals id)) :
    ∃ job', (s.run actions).board.job? id = some job' ∧ P job' ((s.run actions).board.annals id) := by
  induction actions generalizing s job with
  | nil => exact ⟨job, hj, hp⟩
  | cons x rest ih =>
    have step : s.Step x.1 x.2 _ := act_step hs ha.1.legal
    obtain ⟨marks, job', passage, hj', he⟩ := step.effect.passage hj
    have he : (s.act x.1 x.2).board.annals id = marks ++ s.board.annals id := he
    cases Board.job?_id hj
    exact ih (act_sound hs ha.1.legal) ha.2 hj' (by rw [he]; exact kept s _ _ _ _ _ _ hs hj passage hp)

end Scheduler

end Rota
