/-
A scheduler: a board, a number of slots, and two loops. The promotion loop moves jobs that have come
due from the timetable to the lineup; the dispatch loop gives free slots to the jobs of the lineup.
Both go by small steps, between which anything else may happen, and park when there is nothing to
do.
-/
import Rota.Census
import Rota.Execution
import Rota.Plan
import Rota.Settings

namespace Rota

/-- Where the promotion loop stands. -/
inductive Promotion
  /-- It is about to look for jobs that have come due. -/
  | looking
  /-- It holds jobs that were due, still to be moved to the lineup. -/
  | holding (batch : List JobId)
  /-- It found nothing due at an instant, and is about to see how long it may sleep. -/
  | measuring (read : Instant)
  | parking (read : Instant) (delay : Duration)
  | parked (read : Instant) (delay : Duration)
  | stopped
deriving DecidableEq

/-- Where the dispatch loop stands. -/
inductive Dispatch
  /-- It is about to look whether anybody waits. -/
  | looking
  | parking
  | parked (read : Instant)
  /-- Somebody waits, and it waits for a slot. -/
  | waiting
  | granted
  /-- It has taken a job out of the lineup and has a slot for it. -/
  | chosen (job : JobId)
  | stopped
deriving DecidableEq

inductive Loop
  | promotion
  | dispatch
deriving DecidableEq, Repr

structure Scheduler where
  /-- What tells it from other schedulers. -/
  number : Nat
  settings : Settings
  board : Board
  freeSlots : Nat
  disposed : Bool
  promotion : Promotion
  dispatch : Dispatch
  /-- The loop that was the last to come to rest. -/
  restedLast : Loop
  /-- The jobs that have a slot and whose execution is yet to begin, in order. -/
  launched : List JobId

/-- What a caller gives to be performed. -/
inductive Work
  | supplied (performer : Instance)
  /-- A kind, of which an instance is built for each attempt. -/
  | ofKind (kind : Kind)
deriving DecidableEq

def Work.kind : Work → Kind
  | supplied performer => performer.kind.provided
  | ofKind kind => kind

def Work.performer? : Work → Option Instance
  | supplied performer => some performer
  | ofKind _ => none

namespace Scheduler

/-- Starts a scheduler, if its slots can be handed out. -/
def start (number : Nat) (settings : Settings) : Except Fault Scheduler :=
  if maxSlots < settings.slots then .error .tooManySlots
  else .ok ⟨number, settings, .empty, settings.slots, false, .looking, .looking, .dispatch, []⟩

/-- What there is to build instances with by the next execution. -/
def supply (s : Scheduler) : Supply := s.settings.supply ⟨s.board.inFlight.next⟩

def policy (s : Scheduler) : RetryPolicy := ⟨s.settings.delay⟩

def write (s : Scheduler) (event : Event) : Scheduler := { s with board := s.board.write event }

/-! ## Calls -/

/-- Accepts a job under a number: it waits for a slot if it is due already, else for its due time. -/
def accept (s : Scheduler) (now : Instant) (id : JobId) (work : Work) (plan : Plan) : Except Refusal Scheduler :=
  if s.disposed then .error .disposed
  else
    let job := Job.new id work.kind work.performer? (plan.priority.getD work.kind.priority) plan.limit
      plan.dueAt plan.cadence (some s.number)
    let board := s.board.add job
    if plan.dueAt ≤ now then
      (board.move id Job.enqueue).map fun board =>
        { s with board := (board.track.write (.enqueued id)).push id }
    else
      (board.move id Job.schedule).map fun board =>
        { s with board := (board.track.write (.scheduled id plan.dueAt)).insert id }

/-- Schedules a job under a number, its plan made at one instant and accepted at another. It is refused, in this
order, if no instance of its kind could be built, if its request is at fault, and if the scheduler has been
disposed of. -/
def schedule (s : Scheduler) (made now : Instant) (id : JobId) (work : Work) (request : Request) :
    Except Fault (Except Refusal Scheduler) :=
  if work.performer?.isNone && !s.supply.canBuild work.kind then .ok (.error (.unbuildable work.kind.name))
  else (request.plan made).map (·.bind (s.accept now id work))

/-- Refuses an operation on a job that another scheduler accepted. -/
def ensureOwned (s : Scheduler) (job : Job) (operation : Operation) : Except Refusal Unit :=
  if job.isOwnedBy s.number then .ok () else .error (.badArgument (.foreignJob operation job.id))

def cancel (s : Scheduler) (job : Job) : Except Refusal Scheduler := do
  s.ensureOwned job .cancel
  let board ← s.board.move job.id Job.cancel
  let board := match board.unschedule job.id with
    | (some _, board) => board
    | (none, board) => (board.withdraw job.id).2
  return { s with board := (board.finish job.id).write (.cancelled job.id) }

/-- Moves a job that waits for its due time straight to the lineup. -/
def performNow (s : Scheduler) (job : Job) : Except Refusal Scheduler := do
  s.ensureOwned job .performNow
  job.ensureScheduled .performNow
  let (_, board) := s.board.unschedule job.id
  let board ← board.move job.id Job.enqueue
  return { s with board := (board.write (.performedNow job.id)).push job.id }

/-- Ends promotion and dispatch for good; executions in flight go on. -/
def dispose (s : Scheduler) : Scheduler :=
  if s.disposed then s else { s.write .disposing with disposed := true }

/-- Ends promotion and dispatch as a part of shutting down. -/
def shutDown (s : Scheduler) : Scheduler := (s.write .shuttingDown).dispose

/-- Ends promotion and dispatch because nobody holds the scheduler any more. -/
def abandon (s : Scheduler) : Scheduler := { s with disposed := true }

/-- The number of jobs accepted and not yet done with. -/
def pending (s : Scheduler) : UInt64 := s.board.outstanding

/-! ## The promotion loop -/

def promote (s : Scheduler) (id : JobId) : Scheduler :=
  match s.board.move id Job.enqueue with
  | .ok board => { s with board := (board.write (.due id)).push id }
  | .error _ => s.write (.notPromoted id)

def stopPromotion (s : Scheduler) : Scheduler := { s.write .promotionStopped with promotion := .stopped }

def hearTimetable (s : Scheduler) : Scheduler :=
  { s with board := { s.board with timetable := { s.board.timetable with bell := false } } }

/-- Whether a sleep that began at one instant is over at another. -/
def sleptEnough (read : Instant) (delay : Duration) (now : Instant) : Bool :=
  read < now && decide (read.nanos + delay.nanos ≤ now.nanos)

def promotionAwake (s : Scheduler) (now : Instant) : Bool :=
  match s.promotion with
  | .parked read delay => s.disposed || s.board.timetable.bell || sleptEnough read delay now
  | .stopped => false
  | _ => true

def promotionStep (s : Scheduler) (now : Instant) : Scheduler :=
  match s.promotion with
  | .looking =>
    if s.disposed then s.stopPromotion
    else match s.board.takeDue now with
      | ([], board) => { s with board := board, promotion := .measuring now }
      | (batch, board) => { s with board := board, promotion := .holding batch }
  | .holding [] => { s with promotion := .looking }
  | .holding (id :: rest) => { s.promote id with promotion := .holding rest }
  | .measuring read =>
    { s with promotion := .parking read (s.board.timetable.idleDelay s.settings.scheduleRate read) }
  | .parking read delay =>
    if s.board.timetable.bell then { s.hearTimetable with promotion := .looking }
    else { s with promotion := .parked read delay, restedLast := .promotion }
  | .parked read delay =>
    if s.disposed then s.stopPromotion
    else if s.board.timetable.bell then { s.hearTimetable with promotion := .looking }
    else if sleptEnough read delay now then { s with promotion := .looking }
    else s
  | .stopped => s

def promotionSteps (now : Instant) : Nat → Scheduler → Scheduler
  | 0, s => s
  | most + 1, s => if s.promotionAwake now then promotionSteps now most (s.promotionStep now) else s

/-- The steps of the promotion loop until it parks or stops. -/
def promotionTurn (s : Scheduler) (now : Instant) : Scheduler :=
  promotionSteps now (s.board.timetable.size + 16) s

/-! ## The dispatch loop -/

def stopDispatch (s : Scheduler) : Scheduler := { s.write .dispatchStopped with dispatch := .stopped }

def hearLineup (s : Scheduler) : Scheduler :=
  { s with board := { s.board with lineup := { s.board.lineup with bell := false } } }

def releaseSlot (s : Scheduler) : Scheduler := { s with freeSlots := s.freeSlots + 1 }

def grantSlot (s : Scheduler) : Scheduler :=
  { s with freeSlots := s.freeSlots - 1, dispatch := .granted }

/-- Takes the next job to run for the slot at hand, which goes back if nobody waits any more. -/
def choose (s : Scheduler) : Scheduler :=
  match s.board.takeNext with
  | (some id, board) => { s with board := board, dispatch := .chosen id }
  | (none, board) => { s.releaseSlot with board := board, dispatch := .looking }

/-- Has the chosen job executed in its slot, which goes back if the job may not run. -/
def launch (s : Scheduler) (id : JobId) : Scheduler :=
  match s.board.move id Job.run with
  | .ok board => { s with board := board, launched := s.launched ++ [id], dispatch := .looking }
  | .error _ => { (s.write (.notDispatched id)).releaseSlot with dispatch := .looking }

def dispatchAwake (s : Scheduler) (now : Instant) : Bool :=
  match s.dispatch with
  | .parked read => s.disposed || s.board.lineup.bell || sleptEnough read s.settings.queueRate now
  | .waiting => s.disposed || 0 < s.freeSlots
  | .stopped => false
  | _ => true

/-- One step of the dispatch loop. While it waits for a slot it also listens for disposal; where it
finds both at once, it may heed either, and `slotFirst` says whether it takes the slot. -/
def dispatchStep (s : Scheduler) (now : Instant) (slotFirst : Bool) : Scheduler :=
  match s.dispatch with
  | .looking =>
    if s.disposed then s.stopDispatch
    else if s.board.lineup.isEmpty then { s with dispatch := .parking }
    else { s with dispatch := .waiting, restedLast := .dispatch }
  | .parking =>
    if s.board.lineup.bell then { s.hearLineup with dispatch := .looking }
    else { s with dispatch := .parked now, restedLast := .dispatch }
  | .parked read =>
    if s.disposed then s.stopDispatch
    else if s.board.lineup.bell then { s.hearLineup with dispatch := .looking }
    else if sleptEnough read s.settings.queueRate now then { s with dispatch := .looking }
    else s
  | .waiting =>
    if 0 < s.freeSlots ∧ (slotFirst ∨ !s.disposed) then s.grantSlot
    else if s.disposed then s.stopDispatch
    else s
  | .granted => s.choose
  | .chosen id => s.launch id
  | .stopped => s

def dispatchSteps (now : Instant) (slotFirst : Bool) : Nat → Scheduler → Scheduler
  | 0, s => s
  | most + 1, s =>
    if s.dispatchAwake now then dispatchSteps now slotFirst most (s.dispatchStep now slotFirst) else s

/-- The steps of the dispatch loop until it parks, waits for a slot or stops. -/
def dispatchTurn (s : Scheduler) (now : Instant) (slotFirst : Bool) : Scheduler :=
  dispatchSteps now slotFirst (4 * s.board.lineup.size + 16) s

/-! ## Both loops -/

def awake (s : Scheduler) (now : Instant) : Loop → Bool
  | .promotion => s.promotionAwake now
  | .dispatch => s.dispatchAwake now

/-- Whether a loop looks again and again without a pause while it has nothing to do. -/
def isRestless (s : Scheduler) : Loop → Bool
  | .promotion => s.settings.scheduleRate = .zero
  | .dispatch => s.settings.queueRate = .zero && s.dispatch ≠ .waiting

/-- The loops in the order in which they hear of disposal: a restless loop at once, loops at rest in
the order in which they came to rest. -/
def hearingOrder (s : Scheduler) : List Loop :=
  if s.isRestless .promotion then [.promotion, .dispatch]
  else if s.isRestless .dispatch then [.dispatch, .promotion]
  else match s.restedLast with
    | .promotion => [.dispatch, .promotion]
    | .dispatch => [.promotion, .dispatch]

/-- When a loop at rest is to look again, as an instant and the time from then on. -/
def sleep? (s : Scheduler) : Loop → Option (Instant × Duration)
  | .promotion => match s.promotion with
    | .parked read delay => some (read, delay)
    | _ => none
  | .dispatch => match s.dispatch with
    | .parked read => some (read, s.settings.queueRate)
    | _ => none

/-! ## Executions -/

/-- Begins the execution of the job launched first. A job that no instance can be built for gives
its slot back at once. -/
def begin (s : Scheduler) (now : Instant) : Option (TaskId × JobId × Instance) × Scheduler :=
  match s.launched with
  | [] => (none, s)
  | id :: rest =>
    let s := { s with launched := rest }
    match s.board.job? id with
    | none => (none, s.releaseSlot)
    | some job =>
      match s.board.begin s.supply now job with
      | (.performing task performer, board) => (some (task, id, performer), { s with board := board })
      | (.abandoned, board) => (none, { s with board := board }.releaseSlot)

/-- Ends the execution of a job: takes note of the ending, frees the slot, and sends the job on. A
fault on the way leaves the job where it is. -/
def conclude (s : Scheduler) (now : Instant) (id : JobId) (task : TaskId) (ending : Ending) : Scheduler :=
  let s := { s with board := s.board.settle now id task ending }.releaseSlot
  { s with board := (s.board.route s.policy now id ending).1 }

/-! ## Views -/

def census (s : Scheduler) (now : Instant) : Census := s.board.census now

def text (s : Scheduler) : String :=
  "Scheduler \x7b config: " ++ s.settings.text ++ ", scheduled: " ++ Nat.repr s.board.timetable.size ++
    ", enqueued: " ++ Nat.repr s.board.lineup.size ++ ", running: " ++ Nat.repr s.board.inFlight.size ++
    ", free_slots: " ++ Nat.repr s.freeSlots ++ ", pending_jobs: " ++ Nat.repr s.pending.toNat ++ ", disposed: " ++
    Settings.yesNo s.disposed ++ ", .. \x7d"

end Scheduler

end Rota
