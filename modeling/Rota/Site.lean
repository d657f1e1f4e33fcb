/-
A site: schedulers that share one clock, one sequence of job numbers and one stage. What there is to
do next stands on an agenda, first come first served; to settle is to work off the agenda until all
wait. Time passes only when it is told to, and wakes what has slept long enough.
-/
import Rota.Scheduler
import Rota.Stage.Bench
import Rota.Stage.Performance

namespace Rota

inductive Turn
  | loop (seat : Nat) (loop : Loop)
  | begin (seat : Nat)
  | perform (seat : Nat) (task : TaskId)
  /-- An attempt has ended, and so does its execution. -/
  | conclude (seat : Nat) (job : JobId) (task : TaskId) (ending : Ending)
deriving DecidableEq, Repr

/-- The place of a scheduler, who may have left it. -/
structure Seat where
  scheduler : Scheduler
  gone : Bool

/-- Schedulers under one clock. -/
structure Site where
  opened : Instant
  /-- The milliseconds that have passed since. -/
  elapsed : Nat
  accepted : Nat
  seats : List Seat
  stage : Stage
  /-- The attempts under way, in the order they began. -/
  performances : List Performance
  agenda : List Turn
  /-- What has happened since the last report, the latest first. -/
  news : List Event

namespace Site

/-- The instant so many milliseconds after the site was opened. -/
def clockAt (site : Site) (millis : Nat) : Instant :=
  (Instant.ofNanos? (site.opened.nanos + millis * nanosPerMilli)).getD .latest

def now (site : Site) : Instant := site.clockAt site.elapsed

/-- Opens a site with a scheduler for each of some settings. -/
def start (now : Instant) (settings : List Settings) : Except Fault Site := do
  let schedulers ← settings.zipIdx.mapM fun (s, i) => Scheduler.start i s
  return {
    opened := now
    elapsed := 0
    accepted := 0
    seats := schedulers.map (⟨·, false⟩)
    stage := .empty
    performances := []
    agenda := (List.range settings.length).flatMap fun i => [.loop i .promotion, .loop i .dispatch]
    news := [] }

def scheduler? (site : Site) (seat : Nat) : Option Scheduler := site.seats[seat]?.map (·.scheduler)

def present? (site : Site) (seat : Nat) : Option Scheduler :=
  site.seats[seat]?.bind fun s => if s.gone then none else some s.scheduler

/-- Every job of every scheduler, in order of its number. -/
def jobs (site : Site) : List Job :=
  (site.seats.flatMap (·.scheduler.board.jobs)).mergeSort fun a b => a.id.number ≤ b.id.number

def job? (site : Site) (id : JobId) : Option Job := site.seats.findSome? (·.scheduler.board.job? id)

/-! ## The agenda -/

/-- Puts something on the agenda, unless it stands there already. -/
def call (site : Site) (turn : Turn) : Site :=
  if site.agenda.contains turn then site else { site with agenda := site.agenda ++ [turn] }

/-- Puts a scheduler's loops on the agenda if they can go on. A dispatch that is handed a slot comes
first, and disposal is heard of in an order of its own. -/
def rouse (site : Site) (seat : Nat) : Site :=
  match site.scheduler? seat with
  | none => site
  | some s =>
    let order :=
      if s.disposed then s.hearingOrder
      else if s.dispatch = .waiting then [.dispatch, .promotion]
      else [.promotion, .dispatch]
    (order.filter (s.awake site.now)).foldl (fun site loop => site.call (.loop seat loop)) site

/-- Puts a scheduler in its seat; what it has written down becomes news. -/
def replace (site : Site) (seat : Nat) (scheduler : Scheduler) : Site :=
  { site with
    seats := site.seats.modify seat fun s =>
      { s with scheduler := { scheduler with board := { scheduler.board with journal := [] } } }
    news := scheduler.board.journal ++ site.news }

/-- Changes a scheduler, and rouses its loops where that gives them something to do. -/
def update (site : Site) (seat : Nat) (f : Scheduler → Scheduler) : Site :=
  match site.scheduler? seat with
  | none => site
  | some s => (site.replace seat (f s)).rouse seat

def putPerformance (site : Site) (performance : Performance) : Site :=
  { site with
    performances := site.performances.map fun (p : Performance) =>
      if p.seat = performance.seat ∧ p.task = performance.task then performance else p }

/-! ## Turns -/

/-- The dispatch loop goes on, and each execution it launches is to begin. Disposal comes before a
slot. -/
def dispatchTurn (site : Site) (seat : Nat) : Site :=
  match site.scheduler? seat with
  | none => site
  | some s =>
    let after := s.dispatchTurn site.now false
    let begun := List.replicate (after.launched.length - s.launched.length) (Turn.begin seat)
    let site := site.replace seat after
    { site with agenda := site.agenda ++ begun }.rouse seat

/-- An execution begins, and so does its attempt if somebody performs it. -/
def beginTurn (site : Site) (seat : Nat) : Site :=
  match site.scheduler? seat with
  | none => site
  | some s =>
    let (begun, after) := s.begin site.now
    let site := site.replace seat after
    match begun with
    | none => site.rouse seat
    | some (task, job, performer) =>
      { site with
        performances := site.performances ++ [⟨seat, job, task, performer, 0, none, .curtain⟩]
        agenda := site.agenda ++ [.perform seat task] }

def performTurn (site : Site) (seat : Nat) (task : TaskId) : Site :=
  match site.performances.find? fun p => p.seat = seat && p.task = task with
  | none => site
  | some p =>
    let (stage, progress, events) := p.wake site.elapsed site.stage
    let site := { site with stage := stage }.update seat fun s => { s with board := events.foldl Board.write s.board }
    match progress with
    | .waits waiting => site.putPerformance waiting
    | .ended ending =>
      { site with
        performances := site.performances.filter fun q => !(q.seat = seat && q.task = task)
        agenda := site.agenda ++ [.conclude seat p.job task ending] }

/-- Does what stands first on the agenda. -/
def takeTurn (site : Site) : Site :=
  match site.agenda with
  | [] => site
  | turn :: rest =>
    let site := { site with agenda := rest }
    match turn with
    | .loop seat .promotion => site.update seat (·.promotionTurn site.now)
    | .loop seat .dispatch => site.dispatchTurn seat
    | .begin seat => site.beginTurn seat
    | .perform seat task => site.performTurn seat task
    | .conclude seat job task ending => site.update seat (·.conclude site.now job task ending)

/-- Works off the agenda, in so many turns at most. -/
def turns : Nat → Site → Site
  | 0, site => site
  | most + 1, site => if site.agenda.isEmpty then site else turns most site.takeTurn

/-- How many times a job can come due before it is ahead of the clock. -/
def arrears (now : Instant) (job : Job) : Nat :=
  (now.seconds - job.nextDueAt.seconds).toNat + 2 +
    match job.cadence with
    | .dates remaining => remaining.length
    | _ => 0

/-- More turns than can be taken before all wait: each attempt costs a handful, and there are no
more of them than occurrences in arrears and scenes that fail. -/
def turnBudget (site : Site) : Nat :=
  16 * (site.jobs.foldl (fun n job => n + arrears site.now job) 0 + site.stage.length + site.performances.length +
    site.agenda.length + site.seats.length + 1)

/-- Works off the agenda until all wait. -/
def settle (site : Site) : Site := turns site.turnBudget site

/-! ## The clock -/

/-- What sleeps until now at the latest, with the time it was to be woken. -/
def alarms (site : Site) : List (Nat × Turn) :=
  let loops := site.seats.zipIdx.flatMap fun (seat, i) =>
    seat.scheduler.hearingOrder.filterMap fun loop =>
      match seat.scheduler.sleep? loop with
      | some (read, delay) =>
        if Scheduler.sleptEnough read delay site.now then
          some (Duration.ceilMillis ⟨(read.nanos - site.opened.nanos).toNat + delay.nanos⟩, Turn.loop i loop)
        else none
      | none => none
  let bodies := site.performances.filterMap fun p =>
    match p.alarm? with
    | some time => if time ≤ site.elapsed then some (time, Turn.perform p.seat p.task) else none
    | none => none
  (loops ++ bodies).mergeSort fun a b => a.1 ≤ b.1

/-- So many milliseconds pass, and what has slept long enough is woken, the earliest first. -/
def pass (site : Site) (millis : Nat) : Site :=
  let site := { site with elapsed := site.elapsed + millis }
  site.alarms.foldl (fun site alarm => site.call alarm.2) site

/-- So many milliseconds pass in parts of at most `part`, and everything settles after each. -/
def advance (site : Site) (millis part : Nat) : Site :=
  let part := max part 1
  let site := (List.range (millis / part)).foldl (fun site _ => (site.pass part).settle) site
  if millis % part = 0 then site else (site.pass (millis % part)).settle

/-! ## Calls -/

def nextId (site : Site) : JobId := ⟨site.accepted + 1⟩

def setScript (site : Site) (key : String) (script : Script) : Site :=
  { site with stage := site.stage.setScript key script }

/-- Has a scheduler accept a job; a number is drawn only if it does. -/
def schedule (site : Site) (seat : Nat) (work : Work) (request : Request) :
    Except Fault (Except Refusal (JobId × Site)) :=
  match site.scheduler? seat with
  | none => .ok (.error .disposed)
  | some s =>
    (s.schedule site.now site.now site.nextId work request).map (·.map fun after =>
      (site.nextId, { site.replace seat after with accepted := site.accepted + 1 }.rouse seat))

/-- Makes a call to a scheduler that may be refused. -/
def attempt (site : Site) (seat : Nat) (call : Scheduler → Except Refusal Scheduler) : Except Refusal Site :=
  match site.scheduler? seat with
  | none => .ok site
  | some s => (call s).map fun after => (site.replace seat after).rouse seat

def cancel (site : Site) (seat : Nat) (job : Job) : Except Refusal Site := site.attempt seat (·.cancel job)

def performNow (site : Site) (seat : Nat) (job : Job) : Except Refusal Site :=
  site.attempt seat (·.performNow job)

/-- Moves a job by one of its operations behind its scheduler's back. -/
def move (site : Site) (job : Job) (operation : Job → Except Refusal Job) : Except Refusal Site :=
  match site.seats.findIdx? fun s => (s.scheduler.board.job? job.id).isSome with
  | none => .ok site
  | some seat => site.attempt seat fun s => (s.board.move job.id operation).map fun board => { s with board := board }

/-- Takes the jobs due by an instant out of a timetable behind its scheduler's back. -/
def takeDue (site : Site) (seat : Nat) (time : Instant) : List JobId × Site :=
  match site.scheduler? seat with
  | none => ([], site)
  | some s =>
    let (ids, board) := s.board.takeDue time
    (ids, (site.replace seat { s with board := board }).rouse seat)

/-- Opens the gate that somebody with a key has waited at longest, for the outcome given. -/
def openGate (site : Site) (key : String) (outcome : Outcome) : Bool × Site :=
  match site.performances.find? fun p => p.performer.key = key && p.waiting = .gate with
  | none => (false, site)
  | some p =>
    (true, (site.putPerformance { p with waiting := .opened outcome }).call (.perform p.seat p.task))

/-- Disposes of a scheduler once all have settled. -/
def dispose (site : Site) (seat : Nat) : Site := site.settle.update seat Scheduler.dispose

/-- A scheduler leaves its seat once all have settled. -/
def leave (site : Site) (seat : Nat) (farewell : Scheduler → Scheduler) : Site :=
  let site := site.settle.update seat farewell
  { site with seats := site.seats.modify seat fun s => { s with gone := true } }

/-- How long a wait lets pass at a time, in milliseconds. -/
def waitPart : Nat := 10

/-- Lets time pass until something holds, in so many parts at most. It is looked at when a scheduler's
waits next look, and at once when that is disposed of. -/
def waitParts (seat : Nat) (holds : Site → Bool) (rate : Nat) : Nat → Nat → Site → Bool × Site
  | 0, _, site => (false, site)
  | parts + 1, nextLook, site =>
    let site := site.advance waitPart waitPart
    if site.scheduler? seat |>.all (·.disposed) then (true, site)
    else if nextLook ≤ site.elapsed then
      if holds site then (true, site)
      else waitParts seat holds rate parts (site.elapsed + rate) site
    else waitParts seat holds rate parts nextLook site

/-- Waits for something at a scheduler, for so many milliseconds at most. -/
def waitUntil (site : Site) (seat : Nat) (millis : Nat) (holds : Site → Bool) : Bool × Site :=
  match site.scheduler? seat with
  | none => (false, site)
  | some s =>
    if holds site || s.disposed then (true, site)
    else
      let rate := s.settings.waitRate.ceilMillis
      waitParts seat holds rate ((millis + waitPart - 1) / waitPart) (site.elapsed + rate) site

/-- Waits until a job is done with: its state then, or nothing if that takes too long. -/
def waitJob (site : Site) (seat : Nat) (job : Job) (millis : Nat) : Option State × Site :=
  let (inTime, site) := site.waitUntil seat millis fun site => (site.job? job.id).any (·.finished)
  (if inTime then (site.job? job.id).map (·.state) else none, site)

/-- Waits until a scheduler is done with every job: whether it was in time. -/
def waitAll (site : Site) (seat : Nat) (millis : Nat) : Bool × Site :=
  site.waitUntil seat millis fun site => (site.scheduler? seat).all (·.board.isIdle)

/-- The news, the earliest first, which are none from then on. -/
def report (site : Site) : List Event × Site := (site.news.reverse, { site with news := [] })

end Site

end Rota
