/-
The desk of a scheduler: its jobs, its queues in their order, its slots, and where its two loops stand.
`Shift` lists all that one action can do to a desk, with the conditions under which it does so.
-/
import Rota.Proofs.Steps

namespace Rota

/-- What a scheduler has before it, without the count and the journal. -/
@[ext]
structure Desk where
  jobs : List Job
  timetable : Timetable
  lineup : Lineup
  inFlight : InFlight
  launched : List JobId
  freeSlots : Nat
  disposed : Bool
  promotion : Promotion
  dispatch : Dispatch

def Scheduler.desk (s : Scheduler) : Desk where
  jobs := s.board.jobs
  timetable := s.board.timetable
  lineup := s.board.lineup
  inFlight := s.board.inFlight
  launched := s.launched
  freeSlots := s.freeSlots
  disposed := s.disposed
  promotion := s.promotion
  dispatch := s.dispatch

namespace Desk

def job? (d : Desk) (id : JobId) : Option Job := d.jobs.find? (·.id = id)

/-- Puts a job in place of the one with its number. -/
def put (d : Desk) (job : Job) : Desk := { d with jobs := d.jobs.map fun j => if j.id = job.id then job else j }

theorem job?_put {d d' : Desk} {id : JobId} {job job' : Job} (jobs : d'.jobs = (d.put job').jobs)
    (known : d.job? id = some job) (hi : job'.id = job.id) (i : JobId) :
    d'.job? i = if i = id then some job' else d.job? i := by
  unfold job? at known ⊢
  rw [jobs]
  exact find?_put_known known hi i

theorem job?_put_self {d d' : Desk} {id : JobId} {job job' : Job} (jobs : d'.jobs = (d.put job').jobs)
    (known : d.job? id = some job) (hi : job'.id = job.id) : d'.job? job'.id = some job' := by
  rw [job?_put jobs known hi, hi, find?_id known, if_pos rfl]

theorem job?_append {d d' : Desk} {id : JobId} {job : Job} (jobs : d'.jobs = d.jobs ++ [job]) (unknown : d.job? id = none)
    (hi : job.id = id) (i : JobId) : d'.job? i = if i = id then some job else d.job? i := by
  unfold job? at unknown ⊢
  rw [jobs]
  exact find?_append_unknown unknown hi i

end Desk

/-- How the promotion loop goes on while it moves no job, and whether the bell of the timetable is still to be
heard then. -/
inductive Promotion.Pauses (timetable : Timetable) (disposed : Bool) (rate : Duration) (now : Instant) :
    Promotion → Promotion → Bool → Prop
  | emptied : Pauses timetable disposed rate now (.holding []) .looking timetable.bell
  | measured {read : Instant} :
    Pauses timetable disposed rate now (.measuring read) (.parking read (timetable.idleDelay rate read)) timetable.bell
  | called {read : Instant} {delay : Duration} (bell : timetable.bell = true) :
    Pauses timetable disposed rate now (.parking read delay) .looking false
  | parked {read : Instant} {delay : Duration} (bell : timetable.bell = false) :
    Pauses timetable disposed rate now (.parking read delay) (.parked read delay) false
  | woken {read : Instant} {delay : Duration} (on : disposed = false) (bell : timetable.bell = true) :
    Pauses timetable disposed rate now (.parked read delay) .looking false
  | slept {read : Instant} {delay : Duration} (on : disposed = false)
    (enough : Scheduler.sleptEnough read delay now = true) :
    Pauses timetable disposed rate now (.parked read delay) .looking timetable.bell
  | stopped {p : Promotion} (off : disposed = true) (h : p = .looking ∨ ∃ read delay, p = .parked read delay) :
    Pauses timetable disposed rate now p .stopped timetable.bell

/-- How the dispatch loop goes on while it has neither a slot nor a job, and whether the bell of the lineup is
still to be heard then. -/
inductive Dispatch.Pauses (lineup : Lineup) (disposed : Bool) (rate : Duration) (now : Instant) :
    Dispatch → Dispatch → Bool → Prop
  | idle (on : disposed = false) (empty : lineup.waiters = []) :
    Pauses lineup disposed rate now .looking .parking lineup.bell
  | waits (on : disposed = false) : Pauses lineup disposed rate now .looking .waiting lineup.bell
  | called (bell : lineup.bell = true) : Pauses lineup disposed rate now .parking .looking false
  | parked (bell : lineup.bell = false) : Pauses lineup disposed rate now .parking (.parked now) false
  | woken {read : Instant} (on : disposed = false) (bell : lineup.bell = true) :
    Pauses lineup disposed rate now (.parked read) .looking false
  | slept {read : Instant} (on : disposed = false) (enough : Scheduler.sleptEnough read rate now = true) :
    Pauses lineup disposed rate now (.parked read) .looking lineup.bell
  | stopped {p : Dispatch} (off : disposed = true) (h : p = .looking ∨ p = .waiting ∨ ∃ read, p = .parked read) :
    Pauses lineup disposed rate now p .stopped lineup.bell

/-- Where the promotion loop stands once it has taken what is due. -/
def Promotion.after (now : Instant) : List JobId → Promotion
  | [] => .measuring now
  | batch => .holding batch

/-- Whether a dispatch loop that waits gets a slot: one is free, and the loop heeds it or has not heard of disposal. -/
def Desk.Grants (d : Desk) (slotFirst : Bool) : Prop := 0 < d.freeSlots ∧ (slotFirst = true ∨ d.disposed = false)

/-- Whether nothing need come of an action: a call may be refused, and whoever has nothing to do waits. -/
def Desk.Still (d : Desk) : Action → Prop
  | .schedule .. | .cancel _ | .performNow _ => True
  | .dispose | .shutDown => d.disposed = true
  | .abandon => False
  | .promotion => d.promotion = .stopped ∨ ∃ read delay, d.promotion = .parked read delay
  | .dispatch slotFirst => d.dispatch = .stopped ∨ (∃ read, d.dispatch = .parked read) ∨
      d.dispatch = .waiting ∧ ¬ d.Grants slotFirst
  | .begin id => id ∉ d.launched
  | .conclude task _ => task ∉ d.inFlight.tasks.map (·.1)

/-- All that an action can do to a desk. -/
inductive Shift (number : Nat) (settings : Settings) (now : Instant) (d : Desk) : Action → Desk → Prop
  | quiet {action : Action} (still : d.Still action) : Shift number settings now d action d
  | enqueued {made : Instant} {id : JobId} {work : Work} {request : Request} {plan : Plan} (unknown : d.job? id = none)
    (planned : request.plan made = .ok (.ok plan)) (due : plan.dueAt ≤ now) :
    Shift number settings now d (.schedule made id work request)
      { d with
        jobs := d.jobs ++ [plan.job id work number .enqueued]
        lineup := d.lineup.push (plan.job id work number .enqueued) }
  | scheduled {made : Instant} {id : JobId} {work : Work} {request : Request} {plan : Plan} (unknown : d.job? id = none)
    (planned : request.plan made = .ok (.ok plan)) (later : ¬ plan.dueAt ≤ now) :
    Shift number settings now d (.schedule made id work request)
      { d with
        jobs := d.jobs ++ [plan.job id work number .scheduled]
        timetable := d.timetable.insert (plan.job id work number .scheduled) }
  | cancelled {id : JobId} {job : Job} (known : d.job? id = some job) (state : job.state.canBecome .cancelled = true) :
    Shift number settings now d (.cancel id)
      { d.put { job with state := .cancelled, finished := true } with
        timetable := (d.timetable.remove id).2
        lineup := if id ∈ d.timetable.ids then d.lineup else (d.lineup.remove id).2 }
  | hurried {id : JobId} {job : Job} (known : d.job? id = some job) (state : job.state = .scheduled) :
    Shift number settings now d (.performNow id)
      { d.put { job with state := .enqueued } with
        timetable := (d.timetable.remove id).2
        lineup := d.lineup.push { job with state := .enqueued } }
  | closed {action : Action} (h : action = .dispose ∨ action = .shutDown ∨ action = .abandon) :
    Shift number settings now d action { d with disposed := true }
  | taken (looking : d.promotion = .looking) (on : d.disposed = false) :
    Shift number settings now d .promotion
      { d with timetable := (d.timetable.takeDue now).2, promotion := .after now (d.timetable.takeDue now).1 }
  | promoted {id : JobId} {rest : List JobId} {job : Job} (hand : d.promotion = .holding (id :: rest))
    (known : d.job? id = some job) (state : job.state.canBecome .enqueued = true) :
    Shift number settings now d .promotion
      { d.put { job with state := .enqueued } with
        lineup := d.lineup.push { job with state := .enqueued }
        promotion := .holding rest }
  | passedOver {id : JobId} {rest : List JobId} {job : Job} (hand : d.promotion = .holding (id :: rest))
    (known : d.job? id = some job) (state : job.state.canBecome .enqueued = false) :
    Shift number settings now d .promotion { d with promotion := .holding rest }
  | promotionPauses {p : Promotion} {bell : Bool}
    (pauses : Promotion.Pauses d.timetable d.disposed settings.scheduleRate now d.promotion p bell) :
    Shift number settings now d .promotion { d with timetable := { d.timetable with bell := bell }, promotion := p }
  | granted {slotFirst : Bool} (waiting : d.dispatch = .waiting) (grants : d.Grants slotFirst) :
    Shift number settings now d (.dispatch slotFirst) { d with freeSlots := d.freeSlots - 1, dispatch := .granted }
  | chose {slotFirst : Bool} {id : JobId} {rest : Lineup} (granted : d.dispatch = .granted)
    (next : d.lineup.takeNext = (some id, rest)) :
    Shift number settings now d (.dispatch slotFirst) { d with lineup := rest, dispatch := .chosen id }
  | drained {slotFirst : Bool} {rest : Lineup} (granted : d.dispatch = .granted) (next : d.lineup.takeNext = (none, rest)) :
    Shift number settings now d (.dispatch slotFirst)
      { d with lineup := rest, freeSlots := d.freeSlots + 1, dispatch := .looking }
  | launched {slotFirst : Bool} {id : JobId} {job : Job} (chosen : d.dispatch = .chosen id) (known : d.job? id = some job)
    (state : job.state = .enqueued) :
    Shift number settings now d (.dispatch slotFirst)
      { d.put { job with state := .running, retryAt := none } with launched := d.launched ++ [id], dispatch := .looking }
  | notLaunched {slotFirst : Bool} {id : JobId} {job : Job} (chosen : d.dispatch = .chosen id)
    (known : d.job? id = some job) (state : job.state ≠ .enqueued) :
    Shift number settings now d (.dispatch slotFirst) { d with freeSlots := d.freeSlots + 1, dispatch := .looking }
  | dispatchPauses {slotFirst : Bool} {p : Dispatch} {bell : Bool} (refused : d.dispatch = .waiting → ¬ d.Grants slotFirst)
    (pauses : Dispatch.Pauses d.lineup d.disposed settings.queueRate now d.dispatch p bell) :
    Shift number settings now d (.dispatch slotFirst) { d with lineup := { d.lineup with bell := bell }, dispatch := p }
  | begun {id : JobId} {job : Job} {performer : Instance} (waited : id ∈ d.launched) (known : d.job? id = some job)
    (supplied : job.bound = none → ((settings.supply ⟨d.inFlight.next⟩).maker? job.kind).isSome) :
    Shift number settings now d (.begin id)
      { d.put (job.bind performer) with launched := d.launched.erase id, inFlight := (d.inFlight.register id).2 }
  | givenUp {id : JobId} {job : Job} (waited : id ∈ d.launched) (known : d.job? id = some job) (unbound : job.bound = none)
    (unsupplied : (settings.supply ⟨d.inFlight.next⟩).maker? job.kind = none) :
    Shift number settings now d (.begin id)
      { d.put (job.givenUp now) with
        launched := d.launched.erase id
        inFlight := { d.inFlight with next := d.inFlight.next + 1 }
        freeSlots := d.freeSlots + 1 }
  | concluded {task : TaskId} {id : JobId} {ending : Ending} {job job' : Job} {marks : List Mark} {fate : Fate}
    (flying : (task, id) ∈ d.inFlight.tasks) (known : d.job? id = some job)
    (sequel : Sequel ⟨settings.delay⟩ now job ending marks job' fate) :
    Shift number settings now d (.conclude task ending)
      { d.put job' with
        timetable := if fate = .timetable then d.timetable.insert job' else d.timetable
        lineup := if fate = .lineup then d.lineup.push job' else d.lineup
        inFlight := d.inFlight.drop task
        freeSlots := d.freeSlots + 1 }

theorem State.enqueued_of_canBecome_running {state : State} (h : state.canBecome .running = true) : state = .enqueued := by
  cases state <;> first | rfl | cases h

namespace Scheduler

variable {s : Scheduler} {now : Instant} {action : Action}

/-! ## Calls -/

theorem schedule_shift {made : Instant} {id : JobId} {work : Work} {request : Request}
    (hl : (Action.schedule made id work request).Legal s) :
    Shift s.number s.settings now s.desk (.schedule made id work request) (s.act now (.schedule made id work request)).desk := by
  simp only [act]
  cases h : s.schedule made now id work request with
  | error fault => exact .quiet trivial
  | ok answer =>
    cases answer with
    | error refusal => exact .quiet trivial
    | ok s' =>
      obtain ⟨plan, planned, ha⟩ := schedule_eq_ok h
      by_cases due : plan.dueAt ≤ now
      · rw [accept_due hl.1 (accept_open ha) work due] at ha
        cases ha
        exact .enqueued hl.1 planned due
      · rw [accept_ahead hl.1 (accept_open ha) work due] at ha
        cases ha
        exact .scheduled hl.1 planned due

theorem cancel_shift (hs : s.Sound) (id : JobId) :
    Shift s.number s.settings now s.desk (.cancel id) (s.act now (.cancel id)).desk := by
  simp only [act]
  cases hj : s.board.job? id with
  | none => exact .quiet trivial
  | some job =>
    simp only [Option.bind_some]
    cases hc : s.cancel job with
    | error refusal => exact .quiet trivial
    | ok s' =>
      obtain ⟨state, rfl⟩ := cancel_eq_ok hs hj hc
      have hj' : ({ s.board with
        timetable := (s.board.timetable.remove id).2
        lineup := if id ∈ s.board.timetable.ids then s.board.lineup else (s.board.lineup.remove id).2 } : Board).job? id =
          some job := hj
      have hi : ({ job with state := .cancelled } : Job).id = job.id := rfl
      rw [Board.finish_put hj' hi]
      have known : s.desk.job? id = some job := hj
      exact (.cancelled known state : Shift s.number s.settings now s.desk (.cancel id) _)

theorem performNow_shift (id : JobId) :
    Shift s.number s.settings now s.desk (.performNow id) (s.act now (.performNow id)).desk := by
  simp only [act]
  cases hj : s.board.job? id with
  | none => exact .quiet trivial
  | some job =>
    simp only [Option.bind_some]
    cases hc : s.performNow job with
    | error refusal => exact .quiet trivial
    | ok s' =>
      obtain ⟨state, rfl⟩ := performNow_eq_ok hj hc
      have hj' : ({ s.board with timetable := (s.board.timetable.remove id).2 } : Board).job? id = some job := hj
      have hp : ((({ s.board with timetable := (s.board.timetable.remove id).2 } : Board).put
          { job with state := .enqueued }).write (.performedNow id)).job? id = some { job with state := .enqueued } :=
        Board.job?_put_self hj' _ rfl
      rw [Board.push_enqueued hp rfl]
      exact .hurried hj state

theorem dispose_shift : Shift s.number s.settings now s.desk .dispose s.dispose.desk := by
  unfold dispose
  split
  next off => exact .quiet off
  next => exact .closed (.inl rfl)

theorem shutDown_shift : Shift s.number s.settings now s.desk .shutDown s.shutDown.desk := by
  unfold shutDown dispose
  split
  next off => exact .quiet off
  next => exact .closed (.inr (.inl rfl))

/-! ## The loops -/

theorem promotion_shift (hs : s.Sound) :
    Shift s.number s.settings now s.desk .promotion (s.act now .promotion).desk := by
  -- a pause changes where the loop stands and the bell, and nothing else
  have pauses : ∀ {p : Promotion} {bell : Bool},
      Promotion.Pauses s.board.timetable s.disposed s.settings.scheduleRate now s.promotion p bell →
      Shift s.number s.settings now s.desk .promotion
        { s.desk with timetable := { s.board.timetable with bell := bell }, promotion := p } := fun h => .promotionPauses h
  simp only [act, promotionStep]
  cases hp : s.promotion with
  | looking =>
    dsimp only
    rw [hp] at pauses
    split
    next off => exact pauses (.stopped off (.inl rfl))
    next on =>
      have taken : Shift s.number s.settings now s.desk .promotion _ := .taken hp (Bool.eq_false_iff.2 on)
      unfold Board.takeDue
      rw [show s.desk.timetable = s.board.timetable from rfl] at taken
      rcases hd : s.board.timetable.takeDue now with ⟨_ | ⟨first, rest⟩, timetable⟩
      · rw [hd] at taken; exact taken
      · rw [hd] at taken; exact taken
  | holding batch =>
    rw [hp] at pauses
    cases batch with
    | nil => exact pauses .emptied
    | cons id rest =>
      obtain ⟨job, hj⟩ := Option.isSome_iff_exists.1 (hs.ledger.held id (.inr (.inl (by simp [ledger, Board.ledger, inHand, hp]))))
      have hj : s.board.job? id = some job := hj
      dsimp only
      unfold promote
      rw [Board.move_some hj]
      cases hm : job.enqueue with
      | error refusal =>
        refine .passedOver hp hj (Bool.eq_false_iff.2 fun hc => ?_)
        rw [Job.enqueue_eq_ok.2 ⟨hc, rfl⟩] at hm
        cases hm
      | ok moved =>
        obtain ⟨state, rfl⟩ := Job.enqueue_eq_ok.1 hm
        have hq : ((s.board.put { job with state := .enqueued }).write (.due id)).job? id =
            some { job with state := .enqueued } := Board.job?_put_self hj _ rfl
        simp only [Except.map]
        rw [Board.push_enqueued hq rfl]
        exact .promoted hp hj state
  | measuring read => exact pauses (by rw [hp]; exact .measured)
  | parking read delay =>
    rw [hp] at pauses
    dsimp only
    split
    next bell => exact pauses (.called bell)
    next bell =>
      have silent : s.board.timetable.bell = false := Bool.eq_false_iff.2 bell
      have parked := pauses (.parked silent)
      rw [← silent] at parked
      exact parked
  | parked read delay =>
    rw [hp] at pauses
    dsimp only
    split
    next off => exact pauses (.stopped off (.inr ⟨_, _, rfl⟩))
    next on =>
      have on : s.disposed = false := Bool.eq_false_iff.2 on
      split
      next bell => exact pauses (.woken on bell)
      next =>
        split
        next enough => exact pauses (.slept on enough)
        next => exact .quiet (.inr ⟨_, _, hp⟩)
  | stopped => exact .quiet (.inl hp)

theorem dispatch_shift (hs : s.Sound) (slotFirst : Bool) :
    Shift s.number s.settings now s.desk (.dispatch slotFirst) (s.act now (.dispatch slotFirst)).desk := by
  have pauses : ∀ {p : Dispatch} {bell : Bool}, (s.dispatch = .waiting → ¬ s.desk.Grants slotFirst) →
      Dispatch.Pauses s.board.lineup s.disposed s.settings.queueRate now s.dispatch p bell →
      Shift s.number s.settings now s.desk (.dispatch slotFirst)
        { s.desk with lineup := { s.board.lineup with bell := bell }, dispatch := p } := fun hr h => .dispatchPauses hr h
  have grants : (0 < s.freeSlots ∧ (slotFirst = true ∨ (!s.disposed) = true)) ↔ s.desk.Grants slotFirst := by
    simp [Desk.Grants, desk]
  simp only [act, dispatchStep]
  cases hd : s.dispatch with
  | looking =>
    rw [hd] at pauses
    dsimp only
    split
    next off => exact pauses (by simp) (.stopped off (.inl rfl))
    next on =>
      have on : s.disposed = false := Bool.eq_false_iff.2 on
      split
      next empty => exact pauses (by simp) (.idle on (List.isEmpty_iff.1 empty))
      next => exact pauses (by simp) (.waits on)
  | parking =>
    rw [hd] at pauses
    dsimp only
    split
    next bell => exact pauses (by simp) (.called bell)
    next bell =>
      have silent : s.board.lineup.bell = false := Bool.eq_false_iff.2 bell
      have parked := pauses (by simp) (.parked silent)
      rw [← silent] at parked
      exact parked
  | parked read =>
    rw [hd] at pauses
    dsimp only
    split
    next off => exact pauses (by simp) (.stopped off (.inr (.inr ⟨_, rfl⟩)))
    next on =>
      have on : s.disposed = false := Bool.eq_false_iff.2 on
      split
      next bell => exact pauses (by simp) (.woken on bell)
      next =>
        split
        next enough => exact pauses (by simp) (.slept on enough)
        next => exact .quiet (.inr (.inl ⟨_, hd⟩))
  | waiting =>
    rw [hd] at pauses
    dsimp only
    split
    next grant => exact .granted hd (grants.1 grant)
    next refused =>
      split
      next off => exact pauses (fun _ => mt grants.2 refused) (.stopped off (.inr (.inl rfl)))
      next => exact .quiet (.inr (.inr ⟨hd, mt grants.2 refused⟩))
  | granted =>
    dsimp only
    unfold choose Board.takeNext
    rcases hn : s.board.lineup.takeNext with ⟨_ | id, rest⟩
    · exact .drained hd hn
    · exact .chose hd hn
  | chosen id =>
    obtain ⟨job, hj⟩ := Option.isSome_iff_exists.1
      (hs.ledger.held id (.inr (.inr (.inr (by simp [ledger, Board.ledger, chosen, hd])))))
    have hj : s.board.job? id = some job := hj
    dsimp only
    unfold launch
    rw [Board.move_some hj]
    cases hm : job.run with
    | error refusal =>
      refine .notLaunched hd hj fun hc => ?_
      rw [Job.run_eq_ok.2 ⟨by rw [hc]; rfl, rfl⟩] at hm
      cases hm
    | ok moved =>
      obtain ⟨hc, rfl⟩ := Job.run_eq_ok.1 hm
      exact .launched hd hj (State.enqueued_of_canBecome_running hc)
  | stopped => exact .quiet (.inl hd)

/-! ## Executions -/

theorem begin_shift (hs : s.Sound) (id : JobId) :
    Shift s.number s.settings now s.desk (.begin id) (s.act now (.begin id)).desk := by
  simp only [act]
  split
  next hm =>
    obtain ⟨job, hj, hr⟩ := (hs.ledger.manned.runs id).1 (Ledger.mem_executions_of_launched (Multiset.mem_coe.2 hm))
    have hj : s.board.job? id = some job := hj
    unfold begin
    simp only [hj]
    rw [show Scheduler.supply { s with launched := s.launched.erase id } = s.supply from rfl]
    by_cases hb : job.bound = none → (s.supply.maker? job.kind).isSome
    · obtain ⟨task, performer, board', hbeg, begins⟩ := Board.begin_performs hs.ledger.distinct hj s.supply now hb
      rw [hbeg]
      have after : ({ s with launched := s.launched.erase id, board := board' } : Scheduler).desk =
          { s.desk.put (job.bind performer) with
            launched := s.launched.erase id
            inFlight := (s.board.inFlight.register id).2 } :=
        Desk.ext begins.jobs begins.timetable begins.lineup begins.inFlight rfl rfl rfl rfl rfl
      exact after ▸ .begun hm hj hb
    · rw [Classical.not_imp] at hb
      have hmaker : s.supply.maker? job.kind = none := by simpa using hb.2
      obtain ⟨board', hbeg, begins⟩ := Board.begin_givesUp hs.ledger.below hj hr s.supply now hb.1 hmaker
      rw [hbeg]
      have he : Shift s.number s.settings now s.desk (.begin id) _ := .givenUp hm hj hb.1 hmaker
      convert he using 1
      exact Desk.ext begins.jobs begins.timetable begins.lineup begins.inFlight rfl rfl rfl rfl rfl
  next hm => exact .quiet hm

theorem conclude_shift (hs : s.Sound) (task : TaskId) (ending : Ending) :
    Shift s.number s.settings now s.desk (.conclude task ending) (s.act now (.conclude task ending)).desk := by
  simp only [act]
  cases hl : s.board.inFlight.tasks.lookup task with
  | none =>
    refine .quiet fun hm => ?_
    obtain ⟨e, he, rfl⟩ := List.mem_map.1 hm
    simpa using List.lookup_eq_none_iff.1 hl e he
  | some id =>
    have hm : (task, id) ∈ s.board.inFlight.tasks := by
      obtain ⟨before, after, he, -⟩ := List.lookup_eq_some_iff.1 hl
      rw [he]; simp
    obtain ⟨job, hj, hr⟩ := (hs.ledger.manned.runs id).1 (Ledger.mem_executions_of_inFlight hm)
    have hj : s.board.job? id = some job := hj
    obtain ⟨marks, job', fate, sequel, sent⟩ := Board.conclude_sent hj hr s.policy now task ending
    have he : Shift s.number s.settings now s.desk (.conclude task ending) _ := .concluded hm hj sequel
    convert he using 1
    exact Desk.ext sent.jobs sent.timetable sent.lineup sent.inFlight rfl rfl rfl rfl rfl

/-- Every action shifts the desk in one of the ways there are. -/
theorem act_shift (hs : s.Sound) (legal : action.Legal s) :
    Shift s.number s.settings now s.desk action (s.act now action).desk := by
  cases action with
  | schedule made id work request => exact schedule_shift legal
  | cancel id => exact cancel_shift hs id
  | performNow id => exact performNow_shift id
  | dispose => exact dispose_shift
  | shutDown => exact shutDown_shift
  | abandon => exact .closed (.inr (.inr rfl))
  | promotion => exact promotion_shift hs
  | dispatch slotFirst => exact dispatch_shift hs slotFirst
  | begin id => exact begin_shift hs id
  | conclude task ending => exact conclude_shift hs task ending

end Scheduler

end Rota
