/-
Cancelling a job. It is granted just as long as the job waits, for its due time or for a slot; a job that has been
cancelled is done with for ever. It is gone from where it waited, and counted no more, unless it was promoted out of
the hands of the promotion loop after it had been performed early meanwhile.
-/
import Rota.Proofs.Due
import Rota.Proofs.Owners
import Rota.Proofs.Precedence
import Rota.Proofs.Standing

namespace Rota

theorem State.canBecome_cancelled {state : State} :
    state.canBecome .cancelled = true ↔ state = .scheduled ∨ state = .enqueued := by
  cases state <;> simp [canBecome]

/-- A cancelled job stays as it is, and nothing is noted of it any more. -/
theorem Passage.of_cancelled {supply : Supply} {policy : RetryPolicy} {now : Instant} {l : Ledger} {job job' : Job}
    {action : Action} {marks : List Mark} (h : Passage supply policy now l job action marks job') (hm : l.Manned)
    (known : l.job? job.id = some job) (hs : job.state = .cancelled) : job' = job ∧ marks = [] := by
  obtain ⟨rfl, move⟩ := h.move hm known (by rw [hs]; nofun)
  cases move with
  | stays => exact ⟨rfl, rfl⟩
  | promoted _ state => rw [hs] at state; cases state
  | hurried state => rw [hs] at state; cases state
  | cancelled state => rw [hs] at state; cases state
  | launched state => rw [hs] at state; cases state

/-- A job that the timetable lets go stays out of it until it is scheduled. -/
theorem Timed.absent {d d' : Desk} (h : Timed d d') (hw : d.timetable.WF) {id : JobId} {job : Job}
    (known : d'.job? id = some job) (state : job.state ≠ .scheduled) (hn : id ∉ d.timetable.ids) :
    id ∉ d'.timetable.ids := by
  intro hm
  cases h with
  | fewer bySlot => exact hn ((bySlot.map _).subset hm)
  | inserted put known' scheduled timetable =>
    rw [timetable, (hw.ids_insert scheduled).mem_iff, List.mem_cons] at hm
    rcases hm with rfl | hm
    · cases known'.symm.trans known
      exact state scheduled
    · exact hn (List.mem_of_mem_filter hm)

namespace Scheduler

variable {s s' s₀ : Scheduler} {now : Instant} {action : Action} {id : JobId} {job : Job}

/-! ## Being called off -/

/-- A job has been cancelled: it is done with, it is not in the timetable, and it has no execution. -/
structure Off (s : Scheduler) (job : Job) : Prop where
  known : s.board.job? job.id = some job
  state : job.state = .cancelled
  finished : job.finished = true
  unscheduled : job.id ∉ s.board.timetable.ids
  idle : job.id ∉ s.launched ∧ job.id ∉ s.board.inFlight.ids

theorem Off.act (h : s.Off job) (hs : s.Sound) (legal : action.Legal s) :
    (s.act now action).Off job ∧ (s.act now action).board.annals job.id = s.board.annals job.id := by
  have step : s.Step now action _ := act_step hs legal
  have shift : Shift s.number s.settings now s.desk action (s.act now action).desk := act_shift hs legal
  obtain ⟨marks, job', passage, hj', annals⟩ := step.effect.passage h.known
  obtain ⟨rfl, rfl⟩ := passage.of_cancelled hs.ledger.manned h.known h.state
  have unscheduled : job'.id ∉ (s.act now action).board.timetable.ids :=
    (shift.timed hs.timetable).absent hs.timetable hj' (by rw [h.state]; nofun) h.unscheduled
  exact ⟨⟨hj', h.state, h.finished, unscheduled, (act_sound hs legal).idle hj' (by rw [h.state]; nofun)⟩, annals⟩

/-- Nothing is ever done again with a job that has been cancelled. -/
theorem Off.run (h : s.Off job) (hs : s.Sound) {grain : Grain} {actions : List (Instant × Action)}
    (ha : s.Allows grain actions) :
    (s.run actions).Off job ∧ (s.run actions).board.annals job.id = s.board.annals job.id := by
  refine run_always (P := fun s' => s'.Off job ∧ s'.board.annals job.id = s.board.annals job.id) ?_ hs ha ⟨h, rfl⟩
  rintro s' now action hs legal ⟨off, annals⟩
  obtain ⟨off', annals'⟩ := off.act hs legal
  exact ⟨off', annals'.trans annals⟩

/-! ## One cancellation -/

theorem cancel_granted (hj : s.board.job? job.id = some job) (owned : job.owner = some s.number)
    (state : job.state = .scheduled ∨ job.state = .enqueued) : ∃ s', s.cancel job = .ok s' := by
  have moved : job.cancel = .ok { job with state := .cancelled } :=
    Job.cancel_eq_ok.2 ⟨State.canBecome_cancelled.2 state, rfl⟩
  unfold cancel
  rw [ensureOwned_eq_ok.2 owned, Board.move_some hj, moved]
  exact ⟨_, rfl⟩

theorem cancel_refused (hj : s.board.job? job.id = some job) (owned : job.owner = some s.number)
    (state : ¬ (job.state = .scheduled ∨ job.state = .enqueued)) :
    s.cancel job = .error (.notPermitted .cancel job.id job.state) := by
  have moved : job.cancel = .error (.notPermitted .cancel job.id job.state) := by
    unfold Job.cancel Job.move
    rw [if_neg (fun h => state (State.canBecome_cancelled.1 h))]
  unfold cancel
  rw [ensureOwned_eq_ok.2 owned, Board.move_some hj, moved]
  rfl

/-- What comes of cancelling a job, in any case: the job is called off for good, and the others stay where they are,
in their order. -/
structure CallsOff (s : Scheduler) (job : Job) (s' : Scheduler) : Prop where
  record : s'.board.job? job.id = some { job with state := .cancelled, finished := true }
  others : ∀ id, id ≠ job.id → s'.board.job? id = s.board.job? id
  timetable : s'.board.timetable.bySlot = s.board.timetable.bySlot.filter (·.2 ≠ job.id)
  lineup : s'.board.lineup.waiters.filter (·.id ≠ job.id) = s.board.lineup.waiters.filter (·.id ≠ job.id)
  executions : s'.launched = s.launched ∧ s'.board.inFlight = s.board.inFlight
  forGood : ∀ more, s'.Allows .fine more →
    (s'.run more).Off { job with state := .cancelled, finished := true } ∧
      (s'.run more).board.annals job.id = s.board.annals job.id

/-- What more is to come of it: the job waits for no slot, and is counted no more. -/
structure Clears (s : Scheduler) (job : Job) (s' : Scheduler) : Prop where
  lineup : job.id ∉ s'.board.lineup.ids
  pending : s'.pending + 1 = s.pending

/-- A scheduler after a job has been cancelled. -/
theorem cancelled_eq (hs : s.Sound) (hj : s.board.job? job.id = some job) (hc : s.cancel job = .ok s') :
    s' = { s with
      board := ({ s.board with
        timetable := (s.board.timetable.remove job.id).2
        lineup := if job.id ∈ s.board.timetable.ids then s.board.lineup else (s.board.lineup.remove job.id).2
        outstanding := if job.finished then s.board.outstanding else s.board.outstanding - 1 }.put
          { job with state := .cancelled, finished := true }).write (.cancelled job.id) } := by
  obtain ⟨state, rfl⟩ := cancel_eq_ok hs hj hc
  have known : ({ s.board with
      timetable := (s.board.timetable.remove job.id).2
      lineup := if job.id ∈ s.board.timetable.ids then s.board.lineup else (s.board.lineup.remove job.id).2 } :
      Board).job? job.id = some job := hj
  have hi : ({ job with state := .cancelled } : Job).id = job.id := rfl
  rw [Board.finish_put known hi]
  rfl

theorem cancelled_lineup (hs : s.Sound) (hj : s.board.job? job.id = some job) (hc : s.cancel job = .ok s') :
    s'.board.lineup = if job.id ∈ s.board.timetable.ids then s.board.lineup else (s.board.lineup.remove job.id).2 := by
  rw [cancelled_eq hs hj hc]
  rfl

theorem cancelled_pending (hs : s.Sound) (hj : s.board.job? job.id = some job) (hc : s.cancel job = .ok s') :
    s'.pending = if job.finished then s.pending else s.pending - 1 := by
  rw [cancelled_eq hs hj hc]
  rfl

theorem act_cancel (hj : s.board.job? job.id = some job) (hc : s.cancel job = .ok s') :
    s.act now (.cancel job.id) = s' := by
  simp only [act, hj, Option.bind_some, hc]
  rfl

theorem cancel_callsOff (hs : s.Sound) (hj : s.board.job? job.id = some job) (hc : s.cancel job = .ok s') :
    s.CallsOff job s' := by
  have sound : s'.Sound := by
    rw [← (act_cancel hj hc : s.act .epoch (.cancel job.id) = s')]
    exact act_sound hs trivial
  have after := cancelled_eq hs hj hc
  have jobs : ∀ id, s'.board.job? id =
      if id = job.id then some { job with state := .cancelled, finished := true } else s.board.job? id := by
    intro id
    rw [after]
    exact find?_put_known hj (rfl : ({ job with state := .cancelled, finished := true } : Job).id = job.id) id
  have record : s'.board.job? job.id = some { job with state := .cancelled, finished := true } := by
    rw [jobs, if_pos rfl]
  have timetable : s'.board.timetable.bySlot = s.board.timetable.bySlot.filter (·.2 ≠ job.id) := by
    rw [after]
    exact congrArg (fun t : Option JobId × Timetable => t.2.bySlot) (hs.timetable.remove_eq job.id)
  constructor
  case record => exact record
  case others =>
    intro id hi
    rw [jobs, if_neg hi]
  case timetable => exact timetable
  case lineup =>
    rw [cancelled_lineup hs hj hc]
    split
    · rfl
    · exact Lineup.remove_others s.board.lineup job.id
  case executions =>
    rw [after]
    exact ⟨rfl, rfl⟩
  case forGood =>
    intro more ha
    have unscheduled : job.id ∉ s'.board.timetable.ids := by
      unfold Timetable.ids
      rw [timetable]
      simp
    have annals : s'.board.annals job.id = s.board.annals job.id := by
      have journal : s'.board.journal = .cancelled job.id :: s.board.journal := by
        rw [after]
        rfl
      exact Board.annals_cons journal job.id
    have off : s'.Off { job with state := .cancelled, finished := true } :=
      ⟨record, rfl, rfl, unscheduled, sound.idle record nofun⟩
    obtain ⟨off', later⟩ := off.run sound ha
    exact ⟨off', later.trans annals⟩

/-- The job is gone and counted no more just when it was not done with yet and did not wait in two places. -/
theorem clears_iff (hs : s.Sound) (hl : s.ledger.Lined job.id) (hj : s.board.job? job.id = some job)
    (hc : s.cancel job = .ok s') :
    s.Clears job s' ↔ job.finished = false ∧ ¬ (job.id ∈ s.board.timetable.ids ∧ job.id ∈ s.board.lineup.ids) := by
  have lineup : job.id ∉ s'.board.lineup.ids ↔ ¬ (job.id ∈ s.board.timetable.ids ∧ job.id ∈ s.board.lineup.ids) := by
    rw [cancelled_lineup hs hj hc]
    by_cases hm : job.id ∈ s.board.timetable.ids
    · rw [if_pos hm]
      simp [hm]
    · -- it stood in the lineup once at most
      have once : s.board.lineup.ids.count job.id ≤ 1 := by
        have := (hl.inLine hj).le_one
        rw [count_lineup] at this
        omega
      have gone : job.id ∉ s.board.lineup.ids.erase job.id := by
        rw [← List.count_eq_zero, List.count_erase_self]
        omega
      rw [if_neg hm, Lineup.ids_remove]
      simp [hm, gone]
  have pending : s'.pending + 1 = s.pending ↔ job.finished = false := by
    rw [cancelled_pending hs hj hc]
    cases job.finished with
    | false => simp
    | true => simp
  constructor
  · rintro ⟨absent, counted⟩
    exact ⟨pending.1 counted, lineup.1 absent⟩
  · rintro ⟨live, single⟩
    exact ⟨lineup.2 single, pending.2 live⟩

/-- A job that was never performed early out of the hands of the promotion loop is not done with, and waits in one
place. -/
theorem clears_of_punctual (hs : s.Sound) (hl : s.ledger.Lined job.id) (hp : s.ledger.Punctual job.id)
    (hj : s.board.job? job.id = some job) (hc : s.cancel job = .ok s') : s.Clears job s' := by
  obtain ⟨state, -⟩ := cancel_eq_ok hs hj hc
  refine (clears_iff hs hl hj hc).2 ⟨((hp.onTime hj).cancelled state).2, ?_⟩
  rintro ⟨waits, lines⟩
  have waits : 0 < s.ledger.waiting.count job.id := Multiset.count_pos.2 (Multiset.mem_coe.2 waits)
  have lines : 0 < s.ledger.lineup.count job.id := Multiset.count_pos.2 (Multiset.mem_coe.2 lines)
  -- whoever is in the timetable is scheduled, and no scheduled job is in the lineup
  have scheduled : job.state = .scheduled := (hp.onTime hj).scheduled waits
  have absent := (hl.inLine hj).eq_zero (by rw [scheduled]; nofun) (by rw [scheduled]; nofun)
  omega

/-! ## Runs -/

/-- What is to be said of cancelling a job at one point of a run. A job is undisturbed if it is never performed early
while the promotion loop holds it. -/
structure Revocable (s₀ : Scheduler) (actions : List (Instant × Action)) (s : Scheduler) : Prop where
  granted : ∀ job, s.board.job? job.id = some job →
    ((∃ s', s.cancel job = .ok s') ↔ job.state = .scheduled ∨ job.state = .enqueued)
  refused : ∀ job refusal, s.board.job? job.id = some job → s.cancel job = .error refusal →
    refusal = .notPermitted .cancel job.id job.state ∧ ∀ now, s.act now (.cancel job.id) = s
  callsOff : ∀ job s', s.board.job? job.id = some job → s.cancel job = .ok s' →
    (∀ now, s.act now (.cancel job.id) = s') ∧ s.CallsOff job s'
  clears : ∀ job s', s.board.job? job.id = some job → s.cancel job = .ok s' →
    (s.Clears job s' ↔ job.finished = false ∧ ¬ (job.id ∈ s.board.timetable.ids ∧ job.id ∈ s.board.lineup.ids))
  undisturbed : ∀ job s', s.board.job? job.id = some job → s.cancel job = .ok s' → s₀.Undisturbed job.id actions →
    s.Clears job s'

/-- Whatever a scheduler is put through, a job that still waits can be cancelled, and no other. -/
theorem revocable {number : Nat} {settings : Settings} (h₀ : start number settings = .ok s₀)
    {actions : List (Instant × Action)} (ha : s₀.Allows .fine actions) : s₀.Revocable actions (s₀.run actions) := by
  have reached : (s₀.run actions).Reached .fine := ⟨number, settings, s₀, actions, h₀, ha, rfl⟩
  have sound : (s₀.run actions).Sound := reached.sound
  have owns : (s₀.run actions).Owns := reached.owns
  constructor
  case granted =>
    intro job hj
    constructor
    · rintro ⟨s', hc⟩
      by_contra state
      cases hc.symm.trans (cancel_refused hj (owns job.id job hj) state)
    · exact cancel_granted hj (owns job.id job hj)
  case refused =>
    intro job refusal hj hc
    have state : ¬ (job.state = .scheduled ∨ job.state = .enqueued) := by
      intro state
      obtain ⟨s', hok⟩ := cancel_granted hj (owns job.id job hj) state
      cases hc.symm.trans hok
    constructor
    · cases hc.symm.trans (cancel_refused hj (owns job.id job hj) state)
      rfl
    · intro now
      simp only [act, hj, Option.bind_some, hc]
      rfl
  case callsOff => exact fun job s' hj hc => ⟨fun now => act_cancel hj hc, cancel_callsOff sound hj hc⟩
  case clears => exact fun job s' hj hc => clears_iff sound (reached.lined job.id) hj hc
  case undisturbed =>
    exact fun job s' hj hc hu => clears_of_punctual sound (reached.lined job.id) (punctual_of_undisturbed h₀ ha hu) hj hc

/-- Of four jobs the one that waits for the slot can be cancelled for good. -/
theorem revocable_busy :
    (single.run busy).Settled ∧ single.Revocable busy (single.run busy) ∧
      ∃ job s', (single.run busy).board.job? ⟨2⟩ = some job ∧ (single.run busy).cancel job = .ok s' ∧
        (single.run busy).CallsOff job s' ∧ (single.run busy).Clears job s' := by
  have revocable : single.Revocable busy (single.run busy) := revocable start_single busy_allowed.fine
  have waits : ((single.run busy).board.job? ⟨2⟩).map Job.state = some .enqueued := by decide +kernel
  obtain ⟨job, hj, state⟩ := Option.map_eq_some_iff.1 waits
  have hi : job.id = ⟨2⟩ := Board.job?_id hj
  have known : (single.run busy).board.job? job.id = some job := hi ▸ hj
  obtain ⟨s', hc⟩ := (revocable.granted job known).2 (.inr state)
  refine ⟨busy_settled, revocable, job, s', hj, hc, (revocable.callsOff job s' known hc).2, ?_⟩
  exact revocable.undisturbed job s' known hc (busy_allowed.undisturbed job.id)

/-- The job that was overtaken is promoted late, while another has the slot, and the loops come to rest. -/
def overdue : List (Instant × Action) :=
  overtaken ++ [.plain 2 (.after .zero) (.limited 0), .dispatch true, .dispatch true, .dispatch true, .dispatch true,
    .begin ⟨2⟩, .promotion, .promotion, .promotion, .promotion, .promotion, .promotion, .promotion, .promotion,
    .dispatch true].map (.afterSecond, ·)

theorem overdue_allowed : single.Allows .fine overdue := by
  refine (allows_append ..).2 ⟨overtaken_allowed, Action.fits_plain (by decide +kernel), ?_⟩
  exact .of_not_brings rfl

theorem overdue_settled : (single.run overdue).Settled :=
  ⟨⟨.afterSecond, fun loop => by cases loop <;> decide +kernel⟩, by decide +kernel⟩

/-- It waits for a slot though it is done with, so that its cancellation is granted, but counts for nothing. -/
theorem overdue_not_clears :
    single.Allows .fine overdue ∧ (single.run overdue).Settled ∧
      ∃ job s', (single.run overdue).board.job? ⟨1⟩ = some job ∧ job.state = .enqueued ∧
        (single.run overdue).cancel job = .ok s' ∧ (single.run overdue).pending = 1 ∧ s'.pending = 1 := by
  have waits : ((single.run overdue).board.job? ⟨1⟩).map (fun job => (job.state, job.finished, job.owner)) =
      some (.enqueued, true, some 0) := by decide +kernel
  obtain ⟨job, hj, he⟩ := Option.map_eq_some_iff.1 waits
  have state : job.state = .enqueued := congrArg Prod.fst he
  have finished : job.finished = true := congrArg (·.2.1) he
  have owner : job.owner = some (single.run overdue).number := congrArg (·.2.2) he
  have hi : job.id = ⟨1⟩ := Board.job?_id hj
  have known : (single.run overdue).board.job? job.id = some job := hi ▸ hj
  have counted : (single.run overdue).pending = 1 := by decide +kernel
  obtain ⟨s', hc⟩ := cancel_granted known owner (.inr state)
  have after := cancelled_pending (run_sound (start_sound start_single) overdue_allowed) known hc
  rw [finished, if_pos rfl, counted] at after
  exact ⟨overdue_allowed, overdue_settled, job, s', hj, state, hc, counted, after⟩

/-- A scheduler that has a job wait a second before it is tried again. -/
def delaying : Scheduler :=
  { single with settings := { single.settings with delay := some fun _ => .ok .second } }

/-- A job that is to be tried again when it is promoted late waits in the timetable and in the lineup, and its
cancellation takes it out of the timetable only. -/
example : (delaying.run ((.epoch, .plain 1 (.after .second) (.limited 1)) ::
    [.promotion, .performNow ⟨1⟩, .dispatch true, .dispatch true, .dispatch true, .dispatch true, .begin ⟨1⟩,
      .conclude ⟨0⟩ (.failed .panic ""), .promotion, .cancel ⟨1⟩].map (.afterSecond, ·))).board.lineup.ids = [⟨1⟩] := by
  decide +kernel

end Scheduler

end Rota
