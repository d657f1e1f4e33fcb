/-
Where a job may stand while it waits, however the actions of a run interleave. In the lineup an enqueued job
stands once, or is in the hand of the dispatch loop, and no other job stands there but a cancelled one. In the
timetable stands none but a scheduled job, as long as it is never performed early out of the hands of the
promotion loop.
-/
import Rota.Proofs.Custody
import Rota.Proofs.Finality

namespace Rota

/-! ## The lineup -/

/-- How often a job may stand in the lineup and in the hand of the dispatch loop, given its state. A cancelled job
may be left standing. -/
@[local simp] def InLine (lineup chosen : Nat) : State → Prop
  | .enqueued => lineup + chosen = 1
  | .cancelled => lineup + chosen ≤ 1
  | _ => lineup = 0 ∧ chosen = 0

theorem InLine.le_one {lineup chosen : Nat} {state : State} (h : InLine lineup chosen state) : lineup + chosen ≤ 1 := by
  cases state <;> simp only [InLine] at h <;> omega

theorem InLine.eq_zero {lineup chosen : Nat} {state : State} (h : InLine lineup chosen state)
    (waits : state ≠ .enqueued) (live : state ≠ .cancelled) : lineup = 0 ∧ chosen = 0 := by
  cases state <;> first | exact h | contradiction

/-- A job that can join the lineup does not stand in it. -/
theorem InLine.joins {lineup chosen : Nat} {state : State} (h : InLine lineup chosen state)
    (hs : state.canBecome .enqueued = true) : InLine (lineup + 1) chosen .enqueued := by
  have : state ≠ .enqueued ∧ state ≠ .cancelled := by cases state <;> simp [State.canBecome] at hs ⊢
  have := h.eq_zero this.1 this.2
  simp only [InLine]
  omega

/-- A job that is cancelled leaves the lineup, or has been left standing. -/
theorem InLine.cancelled {lineup chosen : Nat} {state : State} (h : InLine lineup chosen state) {lineup' : Nat}
    (fewer : lineup' ≤ lineup) : InLine lineup' chosen .cancelled := by
  have := h.le_one
  simp only [InLine]
  omega

/-- To choose a job is to take it out of the lineup. -/
theorem InLine.chose {lineup : Nat} {state : State} (h : InLine (lineup + 1) 0 state) : InLine lineup 1 state := by
  cases state <;> simp_all

theorem InLine.notRun {lineup : Nat} {state : State} (h : InLine lineup 1 state) (hs : state ≠ .enqueued) :
    InLine lineup 0 state := by
  cases state <;> simp_all

theorem InLine.launched {lineup : Nat} (h : InLine lineup 1 .enqueued) : InLine lineup 0 .running := by
  simp_all

/-! ## The timetable -/

/-- How often a job may stand in the timetable and in the hand of the promotion loop, given its state and whether
it is done with. -/
@[local simp] def OnTime (waiting inHand : Nat) : State → Bool → Prop
  | .scheduled, false => waiting + inHand = 1
  | .cancelled, true => waiting = 0 ∧ inHand ≤ 1
  | .success, _ | .failed, _ | .enqueued, false | .running, false => waiting = 0 ∧ inHand = 0
  | _, _ => False

/-- To take a job into the hand is to take it out of the timetable. -/
theorem OnTime.taken {waiting inHand : Nat} {state : State} {finished : Bool}
    (h : OnTime (inHand + waiting) 0 state finished) : OnTime waiting inHand state finished := by
  cases state <;> cases finished <;> simp only [OnTime] at h ⊢ <;> omega

/-- A job in the hand that can be promoted was scheduled. -/
theorem OnTime.promoted {waiting inHand : Nat} {state : State} {finished : Bool}
    (h : OnTime waiting (inHand + 1) state finished) (hs : state.canBecome .enqueued = true) :
    OnTime waiting inHand .enqueued finished := by
  cases state <;> cases finished <;> simp_all [State.canBecome]
  omega

theorem OnTime.passedOver {waiting inHand : Nat} {state : State} {finished : Bool}
    (h : OnTime waiting (inHand + 1) state finished) (hs : state.canBecome .enqueued = false) :
    OnTime waiting inHand state finished := by
  cases state <;> cases finished <;> simp_all [State.canBecome]

theorem OnTime.hurried {waiting : Nat} {finished : Bool} (h : OnTime waiting 0 .scheduled finished) :
    OnTime 0 0 .enqueued finished := by
  cases finished <;> simp_all

theorem OnTime.cancelled {waiting inHand : Nat} {state : State} {finished : Bool} (h : OnTime waiting inHand state finished)
    (hs : state.canBecome .cancelled = true) : OnTime 0 inHand .cancelled true ∧ finished = false := by
  cases state <;> cases finished <;> simp_all [State.canBecome]
  omega

/-- A job that waits for a slot or runs is in neither place. -/
theorem OnTime.away {waiting inHand : Nat} {state : State} {finished : Bool} (h : OnTime waiting inHand state finished)
    (hs : state = .enqueued ∨ state = .running) : waiting = 0 ∧ inHand = 0 ∧ finished = false := by
  rcases hs with rfl | rfl <;> cases finished <;> simp_all

/-! ## Jobs of a ledger -/

theorem OnTime.scheduled {waiting inHand : Nat} {state : State} {finished : Bool} (h : OnTime waiting inHand state finished)
    (waits : 0 < waiting) : state = .scheduled := by
  cases state <;> cases finished <;> simp only [OnTime] at h <;> first | rfl | omega

/-- Whoever stands in the timetable is in no hand. -/
theorem OnTime.not_held {waiting inHand : Nat} {state : State} {finished : Bool} (h : OnTime waiting inHand state finished)
    (waits : 0 < waiting) : inHand = 0 := by
  cases state <;> cases finished <;> simp only [OnTime] at h <;> omega

/-- A job in the hand of the promotion loop is scheduled, or was cancelled meanwhile. -/
theorem OnTime.held {waiting inHand : Nat} {state : State} {finished : Bool} (h : OnTime waiting inHand state finished)
    (hand : 0 < inHand) : state = .scheduled ∨ state = .cancelled := by
  cases state <;> cases finished <;> simp only [OnTime] at h <;> first | exact .inl rfl | exact .inr rfl | omega

namespace Ledger

/-- Whether something is to be said of a job, if it is known. -/
def Says (l : Ledger) (id : JobId) (P : Ledger → Job → Prop) : Prop := ∀ job, l.job? id = some job → P l job

/-- A job stands in the lineup as its state says. -/
def Lined (l : Ledger) (id : JobId) : Prop :=
  l.Says id fun l job => InLine (l.lineup.count job.id) (l.chosen.count job.id) job.state

/-- A job stands in the timetable as its state says. -/
def Punctual (l : Ledger) (id : JobId) : Prop :=
  l.Says id fun l job => OnTime (l.waiting.count job.id) (l.inHand.count job.id) job.state job.finished

section

variable {l l' : Ledger} {id i : JobId} {job job' : Job} {P : Ledger → Job → Prop}

theorem Lined.inLine (h : l.Lined id) (known : l.job? id = some job) :
    InLine (l.lineup.count id) (l.chosen.count id) job.state := by
  have lined : InLine (l.lineup.count job.id) (l.chosen.count job.id) job.state := h job known
  rwa [job?_id known] at lined

theorem Punctual.onTime (h : l.Punctual id) (known : l.job? id = some job) :
    OnTime (l.waiting.count id) (l.inHand.count id) job.state job.finished := by
  have onTime : OnTime (l.waiting.count job.id) (l.inHand.count job.id) job.state job.finished := h job known
  rwa [job?_id known] at onTime

theorem Says.same (h : l.Says id P) (jobs : l'.jobs = l.jobs) (kept : ∀ j, l.job? j.id = some j → P l j → P l' j) :
    l'.Says id P := by
  intro j hj
  have hj : l.job? id = some j := by rw [← hj]; unfold job?; rw [jobs]
  exact kept j (by rw [job?_id hj, hj]) (h j hj)

theorem Says.put (h : l.Says id P) (jobs : l'.jobs = (l.put job').jobs) (known : l.job? i = some job)
    (hi : job'.id = job.id) (self : id = i → P l job → P l' job') (others : ∀ j, j.id ≠ i → P l j → P l' j) :
    l'.Says id P := by
  intro j hj
  rw [job?_put jobs known hi] at hj
  by_cases he : id = i
  · subst he
    rw [if_pos rfl] at hj
    cases hj
    exact self rfl (h job known)
  · rw [if_neg he] at hj
    exact others j (fun hx => he ((job?_id hj).symm.trans hx)) (h j hj)

theorem Says.append (h : l.Says id P) (jobs : l'.jobs = l.jobs ++ [job]) (unknown : l.job? i = none) (hi : job.id = i)
    (self : P l' job) (others : ∀ j, j.id ≠ i → P l j → P l' j) : l'.Says id P := by
  intro j hj
  rw [job?_append jobs unknown hi] at hj
  by_cases he : id = i
  · subst he
    rw [if_pos rfl] at hj
    cases hj
    exact self
  · rw [if_neg he] at hj
    exact others j (fun hx => he ((job?_id hj).symm.trans hx)) (h j hj)

end

end Ledger

/-- A job that joins the lineup after an attempt stands in it once. -/
theorem Sequel.inLine {policy : RetryPolicy} {now : Instant} {job job' : Job} {ending : Ending} {marks : List Mark}
    {fate : Fate} (h : Sequel policy now job ending marks job' fate) :
    InLine (if fate = .lineup then 1 else 0) 0 job'.state := by
  rcases h.outcome with ⟨rfl, state, -⟩ | ⟨rfl, state, -⟩ | ⟨rfl | rfl, state | state⟩ <;> simp [state]

theorem Sequel.onTime {policy : RetryPolicy} {now : Instant} {job job' : Job} {ending : Ending} {marks : List Mark}
    {fate : Fate} (h : Sequel policy now job ending marks job' fate) (hf : job.finished = false) :
    OnTime (if fate = .timetable then 1 else 0) 0 job'.state job'.finished := by
  rcases h.outcome with ⟨rfl, state, he⟩ | ⟨rfl, state, he⟩ | ⟨rfl | rfl, state | state⟩
  · simp [state, he, hf]
  · simp [state, he, hf]
  all_goals simp [state]

/-! ## What never changes -/

/-- A job keeps the priority and the owner it was accepted with. -/
theorem Passage.terms_eq {supply : Supply} {policy : RetryPolicy} {now : Instant} {l : Ledger} {job job' : Job}
    {action : Action} {marks : List Mark} (h : Passage supply policy now l job action marks job') :
    job'.priority = job.priority ∧ job'.owner = job.owner := by
  cases h with
  | concluded _ sequel =>
    cases sequel with
    | succeeded h => exact h.terms_eq
    | retried => simp [Job.retriedAt, Job.failedWith]
    | exhausted _ h => exact h.terms_eq
    | stuck => exact ⟨rfl, rfl⟩
  | _ => exact ⟨rfl, rfl⟩

/-! ## One effect -/

namespace Effect

open Ledger

variable {supply : Supply} {policy : RetryPolicy} {now : Instant} {l l' : Ledger} {action : Action} {id : JobId}

/-- Every effect keeps a job in the lineup as its state says. -/
theorem lined (h : Effect supply policy now l action l') (hs : l.Sound) (hl : l.Lined id) : l'.Lined id := by
  cases h with
  | quiet => exact hl
  | @accepted made i work request plan number fate state unknown planned tame waits =>
    obtain ⟨-, -, hline, hchosen⟩ := hs.absent unknown
    refine Says.append (l := l) hl (send_jobs ..) unknown (Plan.job_id ..) ?_ fun j hi hj => ?_
    · rw [Plan.job_id]
      cases waits <;> simp [send, Plan.job, hline, hchosen]
    · cases waits <;> simpa [send, hi] using hj
  | taken => exact Says.same hl rfl fun j _ hj => hj
  | @promoted i rest job hand known state =>
    refine Says.put hl rfl known rfl (fun _ hj => ?_) fun j hi hj => ?_
    · simpa [send, put, job?_id known] using hj.joins state
    · simpa [send, put, hi] using hj
  | passedOver => exact Says.same hl rfl fun j _ hj => hj
  | @hurried i job known state =>
    refine Says.put hl rfl known rfl (fun _ hj => ?_) fun j hi hj => ?_
    · have := hj.joins (by rw [state]; rfl)
      simpa [send, put, job?_id known] using this
    · simpa [send, put, hi] using hj
  | @cancelled i job known state =>
    refine Says.put hl rfl known rfl (fun _ hj => ?_) fun j hi hj => ?_
    · refine hj.cancelled ?_
      show (if i ∈ l.waiting then l.lineup else l.lineup.erase i).count job.id ≤ _
      split
      · exact Nat.le_refl _
      · exact Multiset.count_le_of_le _ (Multiset.erase_le ..)
    · show InLine ((if i ∈ l.waiting then l.lineup else l.lineup.erase i).count j.id) _ _
      split
      · exact hj
      · rw [Multiset.count_erase_of_ne hi]
        exact hj
  | @chose i rest slotFirst free split =>
    refine Says.same hl rfl fun j _ hj => ?_
    rw [split, free] at hj
    by_cases hi : j.id = i
    · subst hi
      rw [Multiset.count_cons_self] at hj
      simpa using hj.chose
    · rw [Multiset.count_cons_of_ne hi] at hj
      simpa [Ne.symm hi] using hj
  | @launched i job slotFirst hand known state =>
    refine Says.put hl rfl known rfl (fun _ hj => ?_) fun j hi hj => ?_
    · rw [hand, state, job?_id known, List.count_singleton_self] at hj
      simpa [put, job?_id known] using hj.launched
    · simpa [put, hand, Ne.symm hi] using hj
  | @notLaunched i job slotFirst hand known state =>
    refine Says.same hl rfl fun j known' hj => ?_
    rw [hand] at hj
    by_cases hi : j.id = i
    · rw [hi] at known'
      cases known.symm.trans known'
      rw [hi, List.count_singleton_self] at hj
      simpa [hi] using hj.notRun state
    · simpa [Ne.symm hi] using hj
  | begun waited known => exact Says.put hl rfl known rfl (fun _ hj => hj) fun j _ hj => hj
  | @givenUp i job waited known unbound unsupplied =>
    refine Says.put hl rfl known rfl (fun _ hj => ?_) fun j _ hj => hj
    rw [hs.manned.running known (mem_executions_of_launched waited)] at hj
    exact hj
  | @concluded task i ending job job' marks fate flies known sequel =>
    refine Says.put hl (by simp [discount, note]) known sequel.id_eq (fun _ hj => ?_) fun j hi hj => ?_
    · rw [hs.manned.running known (mem_executions_of_inFlight flies)] at hj
      have standing := sequel.inLine
      rw [sequel.id_eq, job?_id known] at *
      cases fate <;> simpa [send, discount, note, put, hj.1, hj.2] using standing
    · cases fate <;> simpa [send, discount, note, put, hi] using hj

/-- Every effect keeps a job in the timetable as its state says, as long as the job is not performed early out of
the hands of the promotion loop. -/
theorem punctual (h : Effect supply policy now l action l') (hs : l.Sound) (hl : l.Punctual id)
    (whole : id ∈ l.inHand → action ≠ .performNow id) : l'.Punctual id := by
  cases h with
  | quiet => exact hl
  | @accepted made i work request plan number fate state unknown planned tame waits =>
    obtain ⟨hwaiting, hhand, -, -⟩ := hs.absent unknown
    refine Says.append (l := l) hl (send_jobs ..) unknown (Plan.job_id ..) ?_ fun j hi hj => ?_
    · rw [Plan.job_id]
      cases waits <;> simp [send, Plan.job, Job.new, hwaiting, hhand]
    · cases waits <;> simpa [send, hi, Multiset.count_cons, Multiset.count_filter] using hj
  | @taken batch rest free split =>
    refine Says.same hl rfl fun j _ hj => ?_
    rw [split, free, Multiset.count_add, Multiset.coe_count] at hj
    exact hj.taken
  | @promoted i rest job hand known state =>
    refine Says.put hl rfl known rfl (fun _ hj => ?_) fun j hi hj => ?_
    · rw [hand, job?_id known, List.count_cons_self] at hj
      simpa [send, put, job?_id known] using hj.promoted state
    · simpa [send, put, hand, hi, Ne.symm hi] using hj
  | @passedOver i rest job hand known state =>
    refine Says.same hl rfl fun j known' hj => ?_
    rw [hand] at hj
    by_cases hi : j.id = i
    · rw [hi] at known'
      cases known.symm.trans known'
      rw [hi, List.count_cons_self] at hj
      rw [hi]
      exact hj.passedOver state
    · rwa [List.count_cons_of_ne (Ne.symm hi)] at hj
  | @hurried i job known state =>
    refine Says.put hl rfl known rfl (fun he hj => ?_) fun j hi hj => ?_
    · -- the only effect that moves a job on while a hand may hold it; here none does
      have free : l.inHand.count i = 0 := List.count_eq_zero.2 fun h => whole (he ▸ h) (he ▸ rfl)
      rw [state, job?_id known, free] at hj
      simpa [send, put, job?_id known, free] using hj.hurried
    · simpa [send, put, hi] using hj
  | @cancelled i job known state =>
    refine Says.put hl rfl known rfl (fun _ hj => ?_) fun j hi hj => ?_
    · have := (hj.cancelled state).1
      simpa [discount, put, job?_id known] using this
    · simpa [discount, put, hi] using hj
  | chose => exact Says.same hl rfl fun j _ hj => hj
  | @launched i job slotFirst hand known state =>
    refine Says.put hl rfl known rfl (fun _ hj => ?_) fun j hi hj => hj
    obtain ⟨hwaiting, hhand, hf⟩ := hj.away (.inl state)
    simp [put, hwaiting, hhand, hf]
  | notLaunched => exact Says.same hl rfl fun j _ hj => hj
  | begun waited known => exact Says.put hl rfl known rfl (fun _ hj => hj) fun j _ hj => hj
  | @givenUp i job waited known unbound unsupplied =>
    refine Says.put hl rfl known rfl (fun _ hj => ?_) fun j hi hj => hj
    obtain ⟨hwaiting, hhand, -⟩ := hj.away (.inr (hs.manned.running known (mem_executions_of_launched waited)))
    simp [discount, note, put, Job.givenUp, Job.failedWith, hwaiting, hhand]
  | @concluded task i ending job job' marks fate flies known sequel =>
    refine Says.put hl (by simp [discount, note]) known sequel.id_eq (fun _ hj => ?_) fun j hi hj => ?_
    · obtain ⟨hwaiting, hhand, hf⟩ := hj.away (.inr (hs.manned.running known (mem_executions_of_inFlight flies)))
      have standing := sequel.onTime hf
      rw [sequel.id_eq, job?_id known] at *
      cases fate <;> simpa [send, discount, note, put, hwaiting, hhand] using standing
    · cases fate <;> simpa [send, discount, note, put, hi] using hj

end Effect

/-! ## Runs -/

namespace Scheduler

variable {s s₀ : Scheduler} {id : JobId}

/-- A job is never performed early while the promotion loop holds it. -/
def Undisturbed (s : Scheduler) (id : JobId) : List (Instant × Action) → Prop
  | [] => True
  | (now, action) :: rest => (id ∈ s.inHand → action ≠ .performNow id) ∧ (s.act now action).Undisturbed id rest

theorem undisturbed_append (s : Scheduler) (a b : List (Instant × Action)) :
    s.Undisturbed id (a ++ b) ↔ s.Undisturbed id a ∧ (s.run a).Undisturbed id b := by
  induction a generalizing s with
  | nil => simp [Undisturbed, run]
  | cons x a ih => simp [Undisturbed, run, ih, and_assoc]

/-- Whole sweeps disturb no job. -/
theorem Allows.undisturbed {actions : List (Instant × Action)} (h : s.Allows .coarse actions) (id : JobId) :
    s.Undisturbed id actions := by
  induction actions generalizing s with
  | nil => trivial
  | cons x rest ih => exact ⟨h.1.whole rfl id, ih h.2⟩

/-- Nor is a job disturbed that is never performed early. -/
theorem undisturbed_of_not_hurried {actions : List (Instant × Action)} (h : ∀ x ∈ actions, x.2 ≠ .performNow id) :
    s.Undisturbed id actions := by
  induction actions generalizing s with
  | nil => trivial
  | cons x rest ih =>
    rw [List.forall_mem_cons] at h
    exact ⟨fun _ => h.1, ih h.2⟩

theorem start_unknown {number : Nat} {settings : Settings} (h : start number settings = .ok s) (id : JobId) :
    s.board.job? id = none := by
  cases start_eq h
  rfl

theorem run_lined (hs : s.Sound) (hl : s.ledger.Lined id) {grain : Grain} {actions : List (Instant × Action)}
    (ha : s.Allows grain actions) : (s.run actions).ledger.Lined id := by
  refine run_always (P := fun s => s.ledger.Lined id) ?_ hs ha hl
  intro s now action hs legal hl
  have step : s.Step now action _ := act_step hs legal
  exact step.effect.lined hs.ledger hl

theorem run_punctual (hs : s.Sound) (hp : s.ledger.Punctual id) {grain : Grain} {actions : List (Instant × Action)}
    (ha : s.Allows grain actions) (hu : s.Undisturbed id actions) : (s.run actions).ledger.Punctual id := by
  induction actions generalizing s with
  | nil => exact hp
  | cons x rest ih =>
    have step : s.Step x.1 x.2 _ := act_step hs ha.1.legal
    exact ih (act_sound hs ha.1.legal) (step.effect.punctual hs.ledger hp hu.1) ha.2 hu.2

/-- Wherever a run leads, a job stands in the lineup as its state says. -/
theorem Reached.lined {grain : Grain} (h : s.Reached grain) (id : JobId) : s.ledger.Lined id := by
  obtain ⟨number, settings, s₀, actions, h₀, ha, rfl⟩ := h
  refine run_lined (start_sound h₀) (fun job hj => ?_) ha
  cases (start_unknown h₀ id).symm.trans hj

theorem punctual_of_undisturbed {number : Nat} {settings : Settings} (h₀ : start number settings = .ok s₀) {grain : Grain}
    {actions : List (Instant × Action)} (ha : s₀.Allows grain actions) (hu : s₀.Undisturbed id actions) :
    (s₀.run actions).ledger.Punctual id := by
  refine run_punctual (start_sound h₀) (fun job hj => ?_) ha hu
  cases (start_unknown h₀ id).symm.trans hj

end Scheduler

end Rota
