/-
What is conserved of the jobs of a scheduler. No job ever has two executions, and the outstanding jobs are those not
done with. At any moment a job waits for its due time, waits for a slot, runs or is done with, and stands just where
such a job belongs; at rest that is the timetable, the lineup or the executions in flight, so that a census shows
each live job once. All this goes wrong when a job is promoted late: when the promotion loop still holds it after it
was performed early, and it has failed for good meanwhile or waits in the timetable to be tried again.
-/
import Rota.Proofs.Census

namespace Rota

/-! ## Jobs that are looked after -/

/-- Whether a job may be in a state, given whether it is done with and how often it stands in the timetable and in the
hand of the promotion loop: a scheduled job is not lost, and a job is done with just when it has stopped. -/
def Tended (held : Nat) : State → Bool → Prop
  | .scheduled, false => 0 < held
  | .enqueued, false | .running, false => True
  | .success, true | .failed, true | .cancelled, true => True
  | _, _ => False

theorem Tended.situation {held : Nat} {state : State} {finished : Bool} (h : Tended held state finished) :
    (state = .scheduled ∧ finished = false ∧ 0 < held) ∨ (state = .enqueued ∧ finished = false) ∨
      (state = .running ∧ finished = false) ∨ (state.isStopped = true ∧ finished = true) := by
  cases state <;> cases finished <;> simp_all [Tended, State.isStopped]

theorem Tended.live {held : Nat} {state : State} {finished : Bool} (h : Tended held state finished)
    (hs : state = .scheduled ∨ state = .enqueued ∨ state = .running) : finished = false := by
  rcases hs with rfl | rfl | rfl <;> cases finished <;> first | rfl | exact h.elim

/-- Only a scheduled job need stand anywhere. -/
theorem Tended.elsewhere {held held' : Nat} {state : State} {finished : Bool} (h : Tended held state finished)
    (hs : state ≠ .scheduled) : Tended held' state finished := by
  cases state <;> cases finished <;> first | exact h | contradiction

theorem Tended.more {held held' : Nat} {state : State} {finished : Bool} (h : Tended held state finished)
    (more : held ≤ held') : Tended held' state finished := by
  by_cases hs : state = .scheduled
  · subst hs
    cases finished
    · exact Nat.lt_of_lt_of_le h more
    · exact h
  · exact h.elsewhere hs

/-- A job that is promoted is not done with, unless it has failed for good. -/
theorem Tended.promoted {held held' : Nat} {state : State} {finished : Bool} (h : Tended held state finished)
    (hs : state.canBecome .enqueued = true) (lives : state = .failed → finished = false) :
    Tended held' .enqueued finished := by
  cases state <;> cases finished <;> simp_all [Tended, State.canBecome]

/-- A job that has come to the end of an attempt is sent to wait, or it is done with. -/
theorem Recurrence.tended {job job' : Job} {marks : List Mark} {fate : Fate} (h : Recurrence job marks job' fate)
    (ht : job.cadence.Tame job.dueAt) (hs : job.state = .success ∨ job.state = .failed) (hf : job.finished = false) :
    Tended (if fate = .timetable then 1 else 0) job'.state job'.finished := by
  cases h with
  | ended => rcases hs with hs | hs <;> simp [hs, Tended]
  | again => simp [Job.nextOn, hf, Tended]
  | stuck hn =>
    obtain ⟨r, hr⟩ := ht.next_ok
    cases hr.symm.trans hn

theorem Sequel.tended {policy : RetryPolicy} {now : Instant} {job job' : Job} {ending : Ending} {marks : List Mark}
    {fate : Fate} (h : Sequel policy now job ending marks job' fate) (ht : job.cadence.Tame job.dueAt)
    (hp : policy.Returns) (hf : job.finished = false) :
    Tended (if fate = .timetable then 1 else 0) job'.state job'.finished := by
  cases h with
  | succeeded h => exact h.tended ht (.inl rfl) hf
  | @retried _ _ retryAt => cases retryAt <;> simp [Job.retriedAt, Job.failedWith, hf, Tended]
  | exhausted _ h => exact h.tended ht (.inr rfl) hf
  | stuck _ hr =>
    obtain ⟨r, hr'⟩ := hp.retryAt job now
    cases hr'.symm.trans hr

namespace Ledger

/-- A job is looked after. -/
def Tends (l : Ledger) (id : JobId) : Prop :=
  l.Says id fun l job => Tended (l.waiting.count job.id + l.inHand.count job.id) job.state job.finished

theorem Tends.tended {l : Ledger} {id : JobId} {job : Job} (h : l.Tends id) (known : l.job? id = some job) :
    Tended (l.waiting.count id + l.inHand.count id) job.state job.finished := by
  have tended : Tended (l.waiting.count job.id + l.inHand.count job.id) job.state job.finished := h job known
  rwa [job?_id known] at tended

end Ledger

namespace Effect

open Ledger

variable {supply : Supply} {policy : RetryPolicy} {now : Instant} {l l' : Ledger} {action : Action} {id : JobId}

/-- Every effect looks after a job, unless the job is promoted after it has failed for good. -/
theorem tends (h : Effect supply policy now l action l') (hs : l.Sound) (ht : l.Tends id) (hp : policy.Returns)
    (lives : action = .promotion → l.inHand.head? = some id → ∀ job, l.job? id = some job → job.state = .failed →
      job.finished = false) : l'.Tends id := by
  cases h with
  | quiet => exact ht
  | @accepted made i work request plan number fate state unknown planned tame waits =>
    refine Says.append (l := l) ht (send_jobs ..) unknown (Plan.job_id ..) ?_ fun j hi hj => ?_
    · have sent : Tended (if fate = .timetable then 1 else 0) state false := by
        cases waits <;> simp [Tended]
      refine sent.more ?_
      cases waits <;> simp [send]
    · cases waits <;> simpa [send, hi, Multiset.count_cons, Multiset.count_filter] using hj
  | @taken batch rest free split =>
    refine Says.same ht rfl fun j _ hj => ?_
    rw [split, free, Multiset.count_add, Multiset.coe_count, List.count_nil, Nat.add_zero, Nat.add_comm] at hj
    exact hj
  | @promoted i rest job hand known state =>
    refine Says.put ht rfl known rfl (fun he hj => ?_) fun j hi hj => ?_
    · subst he
      have next : l.inHand.head? = some id := by
        rw [hand]
        rfl
      exact hj.promoted state (lives rfl next job known)
    · simpa [send, put, hand, hi, Ne.symm hi] using hj
  | @passedOver i rest job hand known state =>
    refine Says.same ht rfl fun j known' hj => ?_
    by_cases hi : j.id = i
    · rw [hi] at known'
      cases known.symm.trans known'
      -- a scheduled job would have been promoted
      exact hj.elsewhere fun scheduled => by rw [scheduled] at state; cases state
    · rwa [hand, List.count_cons_of_ne (Ne.symm hi)] at hj
  | @hurried i job known state =>
    refine Says.put ht rfl known rfl (fun _ hj => ?_) fun j hi hj => ?_
    · exact hj.promoted (by rw [state]; rfl) fun failed => by rw [state] at failed; cases failed
    · simpa [send, put, hi] using hj
  | @cancelled i job known state =>
    refine Says.put ht rfl known rfl (fun _ _ => trivial) fun j hi hj => ?_
    simpa [discount, put, hi] using hj
  | chose => exact Says.same ht rfl fun j _ hj => hj
  | @launched i job slotFirst hand known state =>
    refine Says.put ht rfl known rfl (fun _ hj => ?_) fun j _ hj => hj
    have live := hj.live (.inr (.inl state))
    simp [live, Tended]
  | notLaunched => exact Says.same ht rfl fun j _ hj => hj
  | begun waited known => exact Says.put ht rfl known rfl (fun _ hj => hj) fun j _ hj => hj
  | givenUp waited known => exact Says.put ht rfl known rfl (fun _ _ => trivial) fun j _ hj => hj
  | @concluded task i ending job job' marks fate flies known sequel =>
    refine Says.put ht (by simp [discount, note]) known sequel.id_eq (fun _ hj => ?_) fun j hi hj => ?_
    · have live := hj.live (.inr (.inr (hs.manned.running known (mem_executions_of_inFlight flies))))
      refine (sequel.tended (hs.tame i job known) hp live).more ?_
      rw [sequel.id_eq, job?_id known]
      cases fate <;> simp [send, discount]
    · cases fate <;> simpa [send, discount, note, put, hi] using hj

end Effect

/-! ## Situations -/

/-- The situations that a job can be in. -/
inductive Situation
  | scheduled
  | enqueued
  | running
  | ended
deriving DecidableEq

namespace Board

/-- The number of jobs accepted and not done with. -/
def live (board : Board) : Nat := board.jobs.countP (!·.finished)

/-- Whether a job is in a situation while its scheduler is at rest: what its state is, whether it is done with, and
which of the three has it, and how often. -/
def Holds (board : Board) (job : Job) : Situation → Prop
  | .scheduled => job.state = .scheduled ∧ job.finished = false ∧ board.timetable.ids.count job.id = 1 ∧
      job.id ∉ board.lineup.ids ∧ job.id ∉ board.inFlight.ids
  | .enqueued => job.state = .enqueued ∧ job.finished = false ∧ job.id ∉ board.timetable.ids ∧
      board.lineup.ids.count job.id = 1 ∧ job.id ∉ board.inFlight.ids
  | .running => job.state = .running ∧ job.finished = false ∧ job.id ∉ board.timetable.ids ∧
      job.id ∉ board.lineup.ids ∧ board.inFlight.ids.count job.id = 1
  | .ended => job.state.isStopped = true ∧ job.finished = true ∧ job.id ∉ board.timetable.ids ∧
      job.id ∉ board.lineup.ids ∧ job.id ∉ board.inFlight.ids

/-- A live job is held once by the three together, and a job that is done with by none. -/
theorem Holds.count {board : Board} {job : Job} {situation : Situation} (h : board.Holds job situation) :
    (board.timetable.ids ++ board.lineup.ids ++ board.inFlight.ids).count job.id = if job.finished then 0 else 1 := by
  cases situation <;> simp_all [Holds, List.count_eq_zero_of_not_mem]

end Board

namespace Scheduler

variable {s s₀ : Scheduler} {now : Instant} {action : Action} {id : JobId} {job : Job} {grain : Grain}
  {actions : List (Instant × Action)}

/-- Whether a job is in a situation at any moment, where what the loops have in hand counts, and the executions that
are about to begin. The promotion loop may hold a job that has moved on meanwhile, and the dispatch loop one that has
been cancelled. -/
def Has (s : Scheduler) (job : Job) : Situation → Prop
  | .scheduled => job.state = .scheduled ∧ job.finished = false ∧ (job.id ∈ s.board.timetable.ids ∨ job.id ∈ s.inHand) ∧
      job.id ∉ s.board.lineup.ids ++ s.chosen ∧ job.id ∉ s.launched ++ s.board.inFlight.ids
  | .enqueued => job.state = .enqueued ∧ job.finished = false ∧ job.id ∉ s.board.timetable.ids ∧
      (s.board.lineup.ids ++ s.chosen).count job.id = 1 ∧ job.id ∉ s.launched ++ s.board.inFlight.ids
  | .running => job.state = .running ∧ job.finished = false ∧ job.id ∉ s.board.timetable.ids ∧
      job.id ∉ s.board.lineup.ids ++ s.chosen ∧ (s.launched ++ s.board.inFlight.ids).count job.id = 1
  | .ended => job.state.isStopped = true ∧ job.finished = true ∧ job.id ∉ s.board.timetable.ids ∧
      job.id ∉ s.board.lineup.ids ∧ job.id ∉ s.launched ++ s.board.inFlight.ids

theorem Has.unique {a b : Situation} (ha : s.Has job a) (hb : s.Has job b) : a = b := by
  cases a <;> cases b <;> simp_all [Has, State.isStopped]

/-- At rest the loops have nothing in hand, and a job is where the board has it. -/
theorem Paused.has_iff (h : s.Paused) (hn : s.board.timetable.ids.Nodup) (situation : Situation) :
    s.Has job situation ↔ s.board.Holds job situation := by
  cases situation <;> simp [Has, Board.Holds, h.inHand, h.chosen, h.launched, hn.count]

/-- The jobs with an execution are those that run. -/
theorem Sound.mem_executions (hs : s.Sound) (hj : s.board.job? id = some job) :
    id ∈ s.launched ++ s.board.inFlight.ids ↔ job.state = .running := by
  have runs : id ∈ s.launched ++ s.board.inFlight.ids ↔ ∃ job, s.board.job? id = some job ∧ job.state = .running :=
    hs.ledger.manned.runs id
  rw [runs, hj]
  simp

theorem Sound.executions_nodup (hs : s.Sound) : (s.launched ++ s.board.inFlight.ids).Nodup :=
  Multiset.coe_nodup.1 hs.ledger.manned.nodup

/-- A job that is looked after and does not stand in two places is in a situation. -/
theorem Sound.has (hs : s.Sound) (hl : s.ledger.Lined id) (hd : s.ledger.Single id) (ht : s.ledger.Tends id)
    (hj : s.board.job? id = some job) : ∃ situation, s.Has job situation := by
  have executions := hs.mem_executions hj
  have apart := hd.apart hj
  have inLine := hl.inLine hj
  have tended := ht.tended hj
  rw [count_waiting] at apart tended
  rw [count_lineup] at apart inLine
  cases Board.job?_id hj
  have listed : job.id ∈ s.board.timetable.ids → job.state = .scheduled := fun hm =>
    apart.scheduled (List.count_pos_iff.2 hm)
  have lines : job.id ∈ s.board.lineup.ids → job.state = .enqueued := fun hm =>
    apart.enqueued inLine (List.count_pos_iff.2 hm)
  have unlined : job.state ≠ .enqueued → job.state ≠ .cancelled → job.id ∉ s.board.lineup.ids ++ s.chosen := by
    intro waits live
    have free : s.board.lineup.ids.count job.id = 0 ∧ s.chosen.count job.id = 0 := inLine.eq_zero waits live
    rw [← List.count_eq_zero, List.count_append, free.1, free.2]
  rcases tended.situation with ⟨state, live, held⟩ | ⟨state, live⟩ | ⟨state, live⟩ | ⟨stopped, finished⟩
  · have held : 0 < s.board.timetable.ids.count job.id + s.inHand.count job.id := held
    have somewhere : job.id ∈ s.board.timetable.ids ∨ job.id ∈ s.inHand := by
      rw [← List.count_pos_iff, ← List.count_pos_iff]
      omega
    refine ⟨.scheduled, state, live, somewhere, unlined (by simp [state]) (by simp [state]), fun hm => ?_⟩
    cases state.symm.trans (executions.1 hm)
  · have once : s.board.lineup.ids.count job.id + s.chosen.count job.id = 1 := by
      rw [state] at inLine
      exact inLine
    refine ⟨.enqueued, state, live, fun hm => ?_, by rw [List.count_append, once], fun hm => ?_⟩
    · cases state.symm.trans (listed hm)
    · cases state.symm.trans (executions.1 hm)
  · refine ⟨.running, state, live, fun hm => ?_, unlined (by simp [state]) (by simp [state]), ?_⟩
    · cases state.symm.trans (listed hm)
    · exact List.count_eq_one_of_mem hs.executions_nodup (executions.2 state)
  · refine ⟨.ended, stopped, finished, fun hm => ?_, fun hm => ?_, fun hm => ?_⟩
    · rw [listed hm] at stopped
      cases stopped
    · rw [lines hm] at stopped
      cases stopped
    · rw [executions.1 hm] at stopped
      cases stopped

/-- A job that is not known is nowhere. -/
theorem Sound.nowhere (hs : s.Sound) (unknown : s.board.job? id = none) :
    id ∉ s.board.timetable.ids ++ s.board.lineup.ids ++ s.board.inFlight.ids := by
  have known : ∀ {job : Job}, s.board.job? id ≠ some job := by simp [unknown]
  obtain ⟨waiting, -, lineup, -⟩ := hs.ledger.absent unknown
  rw [count_waiting] at waiting
  rw [count_lineup] at lineup
  simp only [List.mem_append, not_or]
  refine ⟨⟨List.count_eq_zero.1 waiting, List.count_eq_zero.1 lineup⟩, fun flies => ?_⟩
  obtain ⟨job, hj, -⟩ := (hs.ledger.manned.runs id).1 (Multiset.mem_add.2 (.inr (Multiset.mem_coe.2 flies)))
  exact known hj

/-- Where each job is in a situation at rest, the three hold the live jobs, each of them once. -/
theorem Sound.held (hs : s.Sound) (holds : ∀ job ∈ s.board.jobs, ∃ situation, s.board.Holds job situation) :
    (s.board.timetable.ids ++ s.board.lineup.ids ++ s.board.inFlight.ids).Perm
      ((s.board.jobs.filter (!·.finished)).map (·.id)) := by
  have hn : ((s.board.jobs.filter (!·.finished)).map (·.id)).Nodup :=
    hs.ledger.distinct.sublist (List.filter_sublist.map _)
  have live : ∀ id, id ∈ (s.board.jobs.filter (!·.finished)).map (·.id) ↔
      ∃ job, s.board.job? id = some job ∧ job.finished = false := by
    intro id
    simp only [List.mem_map, List.mem_filter, Bool.not_eq_true']
    constructor
    · rintro ⟨job, ⟨hm, hf⟩, rfl⟩
      exact ⟨job, find?_of_mem hs.ledger.distinct hm, hf⟩
    · rintro ⟨job, hj, hf⟩
      exact ⟨job, ⟨List.mem_of_find?_eq_some hj, hf⟩, Board.job?_id hj⟩
  -- the live numbers have no duplicates, so that it is enough to count each of them on both sides
  refine List.perm_iff_count.2 fun id => ?_
  simp only [hn.count, live]
  cases hj : s.board.job? id with
  | none =>
    rw [List.count_eq_zero.2 (hs.nowhere hj)]
    simp
  | some job =>
    cases Board.job?_id hj
    obtain ⟨situation, held⟩ := holds job (List.mem_of_find?_eq_some hj)
    rw [held.count]
    cases finished : job.finished <;> simp [finished]

/-! ## What is conserved -/

/-- What is conserved in any case: no job has two executions, and the outstanding jobs are those not done with. -/
structure Counted (s : Scheduler) : Prop where
  executions : (s.launched ++ s.board.inFlight.ids).Nodup
  pending : s.pending = .ofNat s.board.live
  unwrapped : s.board.live < UInt64.size → s.pending.toNat = s.board.live

/-- What else is conserved: each job is in one situation, and at rest a census shows the live jobs, each of them once. -/
structure Conserved (s : Scheduler) : Prop extends Counted s where
  anyTime : ∀ job ∈ s.board.jobs, ∃! situation, s.Has job situation
  atRest : s.Paused → ∀ job ∈ s.board.jobs, ∃! situation, s.board.Holds job situation
  census : s.Paused → ∀ now, (s.census now).size = s.board.live

/-- The promotion loop is about to promote a job that has gone on since it was taken: it waits in the timetable again,
or has failed for good. -/
def PromotesLate (s : Scheduler) (id : JobId) (action : Action) : Prop := s.Doubles id action ∨ s.Revives id action

theorem Reached.counted (h : s.Reached grain) : s.Counted := by
  have pending : s.pending = .ofNat s.board.live := h.outstanding
  refine ⟨h.sound.executions_nodup, pending, fun fits => ?_⟩
  rw [pending]
  exact UInt64.toNat_ofNat_of_lt' fits

/-- Jobs that are looked after and stand in one place each are conserved. -/
theorem Reached.conserved (h : s.Reached grain) (hd : ∀ id, s.ledger.Single id) (ht : ∀ id, s.ledger.Tends id) :
    s.Conserved := by
  have sound : s.Sound := h.sound
  have has : ∀ job ∈ s.board.jobs, ∃ situation, s.Has job situation := fun job hm =>
    sound.has (h.lined job.id) (hd job.id) (ht job.id) (find?_of_mem sound.ledger.distinct hm)
  have holds : s.Paused → ∀ job ∈ s.board.jobs, ∃ situation, s.board.Holds job situation := fun paused job hm =>
    (has job hm).imp fun situation => (paused.has_iff sound.timetable.nodup situation).1
  refine ⟨h.counted, fun job hm => ?_, fun paused job hm => ?_, fun paused now => ?_⟩
  · obtain ⟨situation, hh⟩ := has job hm
    exact ⟨situation, hh, fun other ho => ho.unique hh⟩
  · obtain ⟨situation, hh⟩ := holds paused job hm
    refine ⟨situation, hh, fun other ho => ?_⟩
    rw [← paused.has_iff sound.timetable.nodup] at hh ho
    exact ho.unique hh
  · rw [sound.census_size, (sound.held (holds paused)).length_eq, List.length_map, ← List.countP_eq_length_filter]
    rfl

/-- A job that is promoted late is in no situation. -/
theorem PromotesLate.not_conserved (h : s.PromotesLate id action) (hs : s.Sound) (before : s.Conserved) :
    ¬ (s.act now action).Conserved := by
  intro after
  rcases h with ⟨rfl, next, waits⟩ | ⟨rfl, next, job, hj, state, finished⟩
  · obtain ⟨job, hj⟩ := Option.isSome_iff_exists.1 (hs.ledger.held id (.inl (Multiset.mem_coe.2 waits)))
    have hj : s.board.job? id = some job := hj
    cases Board.job?_id hj
    -- whoever stands in the timetable is scheduled, until it is promoted and stands there still
    obtain ⟨situation, has, -⟩ := before.anyTime job (List.mem_of_find?_eq_some hj)
    have state : job.state = .scheduled := by
      cases situation <;> simp_all [Has]
    obtain ⟨rest, hand⟩ := holding_of_next next
    obtain ⟨-, -, timetable, jobs⟩ := promotion_of_holding hs hand hj state now
    have hj' : (s.act now .promotion).board.job? job.id = some { job with state := .enqueued } :=
      (jobs job.id).trans (if_pos rfl)
    obtain ⟨situation', has', -⟩ := after.anyTime _ (List.mem_of_find?_eq_some hj')
    cases situation' <;> simp_all [Has, State.isStopped]
  · have hj' : (s.act now .promotion).board.job? id = some { job with state := .enqueued } :=
      promotion_job? hj next (by rw [state]; rfl)
    obtain ⟨situation, has, -⟩ := after.anyTime _ (List.mem_of_find?_eq_some hj')
    cases situation <;> simp_all [Has, State.isStopped]

/-! ## Runs -/

theorem run_tends (hs : s.Sound) (hp : s.policy.Returns) (ht : s.ledger.Tends id) (ha : s.Allows grain actions)
    (never : ∀ before now action after, actions = before ++ (now, action) :: after →
      ¬ (s.run before).Revives id action) : (s.run actions).ledger.Tends id := by
  induction actions generalizing s with
  | nil => exact ht
  | cons x rest ih =>
    obtain ⟨now, action⟩ := x
    have step : s.Step now action _ := act_step hs ha.1.legal
    have tends : (s.act now action).ledger.Tends id := by
      refine step.effect.tends hs.ledger ht hp fun promotion next job hj failed => ?_
      by_contra finished
      exact never [] now action rest rfl ⟨promotion, next, job, hj, failed, by simpa using finished⟩
    refine ih (act_sound hs ha.1.legal) ((act_policy hs ha.1.legal).symm ▸ hp) tends ha.2 ?_
    exact fun before now' action' after he => never ((now, action) :: before) now' action' after (by rw [he]; rfl)

/-- As long as no job is promoted late, the jobs are conserved. -/
theorem conserved_of_timely {number : Nat} {settings : Settings} (h₀ : start number settings = .ok s₀)
    (returns : s₀.policy.Returns) (ha : s₀.Allows grain actions)
    (timely : ∀ before now action after, actions = before ++ (now, action) :: after →
      ∀ id, ¬ (s₀.run before).PromotesLate id action) : (s₀.run actions).Conserved := by
  have sound : s₀.Sound := start_sound h₀
  have unknown : ∀ id, s₀.board.job? id = none := start_unknown h₀
  refine Reached.conserved ⟨number, settings, s₀, actions, h₀, ha, rfl⟩ (fun id => ?_) (fun id => ?_)
  · refine run_single sound (fun job hj => ?_) (fun job hj => ?_) ha fun before now action after he doubles => ?_
    · cases (unknown id).symm.trans hj
    · cases (unknown id).symm.trans hj
    · exact timely before now action after he id (.inl doubles)
  · refine run_tends sound returns (fun job hj => ?_) ha fun before now action after he revives => ?_
    · cases (unknown id).symm.trans hj
    · exact timely before now action after he id (.inr revives)

/-- A job that is never performed early while the promotion loop holds it is never promoted late. -/
theorem not_promotesLate (hs : s.Sound) (hp : s.ledger.Punctual id) : ¬ s.PromotesLate id action := by
  rintro (doubles | ⟨-, next, job, hj, state, -⟩)
  · exact not_doubles hs hp doubles
  · have hand : 0 < s.ledger.inHand.count id := List.count_pos_iff.2 (List.mem_of_head? next)
    rcases (hp.onTime hj).held hand with scheduled | cancelled
    · cases state.symm.trans scheduled
    · cases state.symm.trans cancelled

/-- Whatever is done to a scheduler whose strategy gives delays, no job has two executions and the outstanding jobs
are counted; and the jobs are conserved throughout in just those runs in which none is promoted late, so in every run
in which none is performed early while the promotion loop holds it. -/
theorem conserved_iff {number : Nat} {settings : Settings} (h₀ : start number settings = .ok s₀)
    (returns : s₀.policy.Returns) (ha : s₀.Allows .fine actions) :
    (∀ before after, actions = before ++ after → (s₀.run before).Counted) ∧
      ((∀ before after, actions = before ++ after → (s₀.run before).Conserved) ↔
        ∀ before now action after, actions = before ++ (now, action) :: after →
          ∀ id, ¬ (s₀.run before).PromotesLate id action) ∧
      ((∀ id, s₀.Undisturbed id actions) → ∀ before after, actions = before ++ after → (s₀.run before).Conserved) := by
  have hs : s₀.Sound := start_sound h₀
  have allowed : ∀ before after, actions = before ++ after → s₀.Allows .fine before := by
    rintro before after rfl
    exact ((allows_append ..).1 ha).1
  refine ⟨fun before after he => ?_, ⟨?_, ?_⟩, ?_⟩
  · exact Reached.counted ⟨number, settings, s₀, before, h₀, allowed before after he, rfl⟩
  · intro conserved before now action after he id late
    have later := conserved (before ++ [(now, action)]) after (by rw [he, List.append_assoc]; rfl)
    rw [run_append] at later
    exact late.not_conserved (run_sound hs (allowed before _ he)) (conserved before _ he) later
  · intro timely before after he
    refine conserved_of_timely h₀ returns (allowed before after he) fun first now action rest hb => ?_
    exact timely first now action (rest ++ after) (by rw [he, hb, List.append_assoc]; rfl)
  · intro undisturbed before after he
    refine conserved_of_timely h₀ returns (allowed before after he) fun first now action rest hb id => ?_
    have hu := undisturbed id
    rw [he, hb, List.append_assoc, undisturbed_append] at hu
    have hf : s₀.Allows .fine first := allowed first ((now, action) :: rest ++ after) (by rw [he, hb, List.append_assoc])
    exact not_promotesLate (run_sound hs hf) (punctual_of_undisturbed h₀ hf hu.1)

/-- Of four jobs one runs, one waits for the slot, one for its due time, and one has been cancelled. -/
theorem conserved_iff_busy :
    (single.run busy).Settled ∧ (single.run busy).board.jobs.length = 4 ∧ (single.run busy).Conserved := by
  refine ⟨busy_settled, by decide +kernel, ?_⟩
  have allowed : single.Allows .fine busy := busy_allowed.fine
  exact (conserved_iff start_single nofun allowed).2.2 busy_allowed.undisturbed busy [] (List.append_nil _).symm

/-- The job that is promoted late runs and yet waits in the timetable, so that a census shows it twice while one job
is outstanding. -/
theorem doubled_not_conserved :
    delaying.Allows .fine doubled ∧ (delaying.run doubled).Settled ∧
      ((delaying.run doubled).board.job? ⟨1⟩).map (·.state) = some .running ∧
      (delaying.run doubled).board.timetable.ids = [⟨1⟩] ∧ (delaying.run doubled).board.inFlight.ids = [⟨1⟩] ∧
      ((delaying.run doubled).census .afterSecond).size = 2 ∧ (delaying.run doubled).pending = 1 ∧
      ¬ (delaying.run doubled).Conserved := by
  have size : ((delaying.run doubled).census .afterSecond).size = 2 := by decide +kernel
  refine ⟨doubled_allowed, doubled_settled, by decide +kernel, by decide +kernel, by decide +kernel, size,
    by decide +kernel, fun conserved => ?_⟩
  have live : (delaying.run doubled).board.live = 1 := by decide +kernel
  have shown := conserved.census doubled_settled.paused .afterSecond
  rw [size, live] at shown
  cases shown

end Scheduler

end Rota
