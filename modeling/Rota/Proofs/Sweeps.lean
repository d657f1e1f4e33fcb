/-
When jobs are promoted. A scheduled job stands in the timetable under the time it is next due, and keeps that time
until the promotion loop, which took it at or after it, promotes it; so, performed early apart, no job joins the
lineup before it is due. A sweep moves just the jobs that are due, in their order.
-/
import Rota.Proofs.Due
import Rota.Proofs.Standing

namespace Rota

/-- A job that waits for its due time, or was cancelled while it did, stays as it is or waits no more. -/
theorem Passage.of_waiting {supply : Supply} {policy : RetryPolicy} {now : Instant} {l : Ledger} {job job' : Job}
    {action : Action} {marks : List Mark} (h : Passage supply policy now l job action marks job') (hm : l.Manned)
    (known : l.job? job.id = some job) (hs : job.state = .scheduled ∨ job.state = .cancelled) :
    job' = job ∨ job'.state ≠ .scheduled := by
  obtain ⟨-, move⟩ := h.move hm known (by rcases hs with hs | hs <;> rw [hs] <;> nofun)
  cases move with
  | stays => exact .inl rfl
  | promoted => exact .inr nofun
  | hurried => exact .inr nofun
  | cancelled => exact .inr nofun
  | launched => exact .inr nofun

namespace Scheduler

variable {s s₀ : Scheduler} {now : Instant} {action : Action} {id : JobId}

/-! ## Readings of the clock -/

/-- The reading of the clock by which the promotion loop goes after an action, given the one by which it went before. -/
def reading (s : Scheduler) (read : Option Instant) (now : Instant) (action : Action) : Option Instant :=
  match action, s.promotion with
  | .promotion, .looking => some now
  | _, _ => read

/-- The reading by which the promotion loop goes after some actions: that of its last look for due jobs. -/
def lastReading (s : Scheduler) (read : Option Instant) : List (Instant × Action) → Option Instant
  | [] => read
  | (now, action) :: rest => (s.act now action).lastReading (s.reading read now action) rest

/-- The reading by which an action goes: the promotion loop goes by that of its last look, all else by the time it is. -/
def clock (s₀ : Scheduler) (actions : List (Instant × Action)) (now : Instant) : Action → Option Instant
  | .promotion => s₀.lastReading none actions
  | _ => some now

/-- A scheduled job in the hand of the promotion loop was due at a reading of the clock. -/
def Timely (s : Scheduler) (id : JobId) (read : Option Instant) : Prop :=
  ∀ job, s.board.job? id = some job → id ∈ s.inHand → job.state = .scheduled →
    ∃ instant, read = some instant ∧ job.nextDueAt ≤ instant

/-- A job that the promotion loop takes is scheduled, and due. -/
theorem due_of_taken (hd : s.desk.Dated) (hp : s.ledger.Punctual id) {job : Job} (hj : s.board.job? id = some job)
    (hm : id ∈ (s.board.timetable.takeDue now).1) : job.state = .scheduled ∧ job.nextDueAt ≤ now := by
  obtain ⟨slot, entry, due⟩ := hd.ordered.mem_takeDue.1 hm
  have waits : 0 < s.ledger.waiting.count id :=
    Multiset.count_pos.2 (Multiset.mem_coe.2 (List.mem_map.2 ⟨_, entry, rfl⟩))
  have state := (hp.onTime hj).scheduled waits
  exact ⟨state, hd.keyed slot id job entry hj state ▸ due⟩

theorem Timely.act {read : Option Instant} (h : s.Timely id read) (hs : s.Sound) (hd : s.desk.Dated)
    (hp : s.ledger.Punctual id) (legal : action.Legal s) :
    (s.act now action).Timely id (s.reading read now action) := by
  intro job' hj' hm state
  have step : s.Step now action _ := act_step hs legal
  have shift : Shift _ _ now s.desk action _ := act_shift hs legal
  have held : id ∈ s.inHand ∨ action = .promotion ∧ s.promotion = .looking ∧ id ∈ (s.board.timetable.takeDue now).1 :=
    shift.inHand hm
  -- whoever is in hand was known before
  have known : (s.board.job? id).isSome := by
    rcases held with hand | ⟨-, -, taken⟩
    · exact hs.ledger.held id (.inr (.inl hand))
    · obtain ⟨slot, entry, -⟩ := hd.ordered.mem_takeDue.1 taken
      exact hs.ledger.held id (.inl (Multiset.mem_coe.2 (List.mem_map.2 ⟨_, entry, rfl⟩)))
  obtain ⟨job, hj⟩ := Option.isSome_iff_exists.1 known
  obtain ⟨marks, job'', passage, hj'', -⟩ := step.effect.passage hj
  cases hj''.symm.trans hj'
  cases Board.job?_id hj
  rcases held with hand | ⟨rfl, looking, taken⟩
  · have waited := (hp.onTime hj).held (List.count_pos_iff.2 hand)
    rcases passage.of_waiting hs.ledger.manned hj waited with rfl | moved
    · obtain ⟨instant, hr, due⟩ := h _ hj hand state
      refine ⟨instant, ?_, due⟩
      unfold reading
      split
      next _ looking => rw [inHand, looking] at hand; cases hand
      next => exact hr
    · exact absurd state moved
  · obtain ⟨waited, due⟩ := due_of_taken hd hp hj taken
    rcases passage.of_waiting hs.ledger.manned hj (.inl waited) with rfl | moved
    · refine ⟨now, ?_, due⟩
      unfold reading
      rw [looking]
    · exact absurd state moved

theorem run_timely {read : Option Instant} (h : s.Timely id read) (hs : s.Sound) (hd : s.desk.Dated)
    (hp : s.ledger.Punctual id) {grain : Grain} {actions : List (Instant × Action)} (ha : s.Allows grain actions)
    (hu : s.Undisturbed id actions) : (s.run actions).Timely id (s.lastReading read actions) := by
  induction actions generalizing s read with
  | nil => exact h
  | cons x rest ih =>
    have step : s.Step x.1 x.2 _ := act_step hs ha.1.legal
    have shift : Shift _ _ x.1 s.desk x.2 _ := act_shift hs ha.1.legal
    exact ih (h.act hs hd hp ha.1.legal) (act_sound hs ha.1.legal) ((shift.timed hs.timetable).dated hs.timetable hd)
      (step.effect.punctual hs.ledger hp hu.1) ha.2 hu.2

theorem start_dated {number : Nat} {settings : Settings} (h : start number settings = .ok s) : s.desk.Dated := by
  cases start_eq h
  exact ⟨List.Pairwise.nil, fun slot id job he => absurd he List.not_mem_nil⟩

/-- Wherever a run leads, the timetable is in order and its jobs stand under the times they are next due. -/
theorem Reached.dated {grain : Grain} (h : s.Reached grain) : s.desk.Dated := by
  refine Reached.sound_induct (P := fun s => s.desk.Dated) ?_ ?_ h
  · intro number settings s h₀
    exact start_dated h₀
  · intro s now action hs dated legal
    have shift : Shift s.number s.settings now s.desk action (s.act now action).desk := act_shift hs legal
    exact (shift.timed hs.timetable).dated hs.timetable dated

/-! ## No job is early -/

/-- A job waits for a slot after an action, and did not before. -/
structure Joins (s : Scheduler) (now : Instant) (action : Action) (job : Job) : Prop where
  waits : (s.act now action).board.job? job.id = some job ∧ job.state = .enqueued
  new : ∀ earlier, s.board.job? job.id = some earlier → earlier.state ≠ .enqueued

/-- An attempt of a job has failed by an action, and the job is tried again at once. -/
structure TriedAtOnce (s : Scheduler) (action : Action) (job : Job) : Prop where
  failed : ∃ task kind message, action = .conclude task (.failed kind message) ∧ (task, job.id) ∈ s.board.inFlight.tasks
  retried : ∃ earlier, s.board.job? job.id = some earlier ∧ job.retries = earlier.retries + 1
  atOnce : job.retryAt = none

theorem Joins.in_time {job : Job} {actions : List (Instant × Action)} (h : s.Joins now action job) (hs : s.Sound)
    (hp : s.ledger.Punctual job.id) (ht : s.Timely job.id (s₀.lastReading none actions)) (legal : action.Legal s)
    (hn : action ≠ .performNow job.id) :
    s.TriedAtOnce action job ∨ ∃ instant, s₀.clock actions now action = some instant ∧ job.nextDueAt ≤ instant := by
  have shift : Shift _ _ now s.desk action _ := act_shift hs legal
  cases shift.readied h.waits.1 h.waits.2 with
  | before known state => exact absurd state (h.new _ known)
  | accepted due => exact .inr ⟨now, rfl, due⟩
  | hurried => exact absurd rfl hn
  | @promoted rest earlier hand known able due =>
    have hand : s.inHand = job.id :: rest := by
      unfold inHand
      rw [show s.promotion = .holding (job.id :: rest) from hand]
    have held : job.id ∈ s.inHand := by rw [hand]; exact List.mem_cons_self ..
    rcases (hp.onTime known).held (List.count_pos_iff.2 held) with state | state
    · rw [due]
      exact .inr (ht earlier known held state)
    · rw [state] at able
      cases able
  | @retried task kind message earlier flying known retries atOnce =>
    exact .inl ⟨⟨task, kind, message, rfl, flying⟩, ⟨earlier, known, retries⟩, atOnce⟩

/-! ## The order of insertion -/

/-- The jobs in the order in which they were last put into the timetable. -/
def insertions (s : Scheduler) (order : List JobId) : List (Instant × Action) → List JobId
  | [] => order
  | (now, action) :: rest =>
    (s.act now action).insertions
      (Timetable.reordered order ((s.act now action).board.timetable.insertedSince s.board.timetable)) rest

theorem insertions_nodup {order : List JobId} (h : order.Nodup) (actions : List (Instant × Action)) :
    (s.insertions order actions).Nodup := by
  induction actions generalizing s order with
  | nil => exact h
  | cons x rest ih => exact ih (Timetable.nodup_reordered h _)

theorem run_follows {order : List JobId} (h : Timetable.Follows order s.board.timetable) (hs : s.Sound) {grain : Grain}
    {actions : List (Instant × Action)} (ha : s.Allows grain actions) :
    Timetable.Follows (s.insertions order actions) (s.run actions).board.timetable := by
  induction actions generalizing s order with
  | nil => exact h
  | cons x rest ih =>
    have shift : Shift _ _ x.1 s.desk x.2 _ := act_shift hs ha.1.legal
    exact ih ((shift.timed hs.timetable).follows hs.timetable h) (act_sound hs ha.1.legal) ha.2

/-- From the start on, the jobs in the timetable stand in the order in which they were last put in. -/
theorem insertions_follows {number : Nat} {settings : Settings} (h₀ : start number settings = .ok s) {grain : Grain}
    {actions : List (Instant × Action)} (ha : s.Allows grain actions) :
    Timetable.Follows (s.insertions [] actions) (s.run actions).board.timetable := by
  have noEntry : ∀ e, e ∉ s.board.timetable.bySlot := fun e => by
    cases start_eq h₀
    exact List.not_mem_nil
  exact run_follows ⟨fun e he => absurd he (noEntry e), fun e he => absurd he (noEntry e)⟩ (start_sound h₀) ha

/-! ## Sweeps -/

/-- The jobs that are due at an instant, as the timetable has them. -/
def due (s : Scheduler) (now : Instant) : List JobId := (s.board.timetable.takeDue now).1

/-- The actions of a sweep of the promotion loop: it looks at an instant, and promotes the jobs it has taken. -/
def sweep (now : Instant) (times : List Instant) : List (Instant × Action) :=
  (now, .promotion) :: times.map (·, .promotion)

/-- One scheduler comes from another by the promotion of some jobs. -/
structure Promoted (batch : List JobId) (s s' : Scheduler) : Prop where
  lineup : s'.board.lineup.ids = s.board.lineup.ids ++ batch
  timetable : s'.board.timetable = s.board.timetable
  moved : ∀ id ∈ batch, ∃ job, s.board.job? id = some job ∧ job.state = .scheduled ∧
    s'.board.job? id = some { job with state := .enqueued }
  others : ∀ id, id ∉ batch → s'.board.job? id = s.board.job? id
  released : s'.inHand = []

theorem Promoted.nil (h : s.inHand = []) : Promoted [] s s :=
  ⟨(List.append_nil _).symm, rfl, nofun, fun _ _ => rfl, h⟩

/-- A scheduled job that is next in the hand of the promotion loop is promoted. -/
theorem promotion_of_holding (hs : s.Sound) {rest : List JobId} (hand : s.promotion = .holding (id :: rest)) {job : Job}
    (hj : s.board.job? id = some job) (state : job.state = .scheduled) (now : Instant) :
    (s.act now .promotion).promotion = .holding rest ∧
      (s.act now .promotion).board.lineup.ids = s.board.lineup.ids ++ [id] ∧
      (s.act now .promotion).board.timetable = s.board.timetable ∧
      ∀ i, (s.act now .promotion).board.job? i =
        if i = id then some { job with state := .enqueued } else s.board.job? i := by
  have shift : Shift s.number s.settings now s.desk .promotion (s.act now .promotion).desk := promotion_shift hs
  have known : s.desk.job? id = some job := hj
  have after := shift.of_holding hand known (by rw [state]; rfl)
  have promotion := congrArg Desk.promotion after
  have lineup := congrArg (fun d : Desk => d.lineup.ids) after
  have timetable := congrArg Desk.timetable after
  have jobs := congrArg Desk.jobs after
  refine ⟨promotion, lineup.trans ?_, timetable, Desk.job?_put jobs known rfl⟩
  rw [show [id] = [({ job with state := .enqueued } : Job).id] from congrArg (fun i => [i]) (Board.job?_id hj).symm]
  exact Lineup.ids_push _ rfl

/-- The promotion loop goes through the jobs in its hand one by one. -/
theorem promoted_of_holding {batch : List JobId} (hs : s.Sound) (hand : s.promotion = .holding batch) (hn : batch.Nodup)
    (waits : ∀ id ∈ batch, ∃ job, s.board.job? id = some job ∧ job.state = .scheduled) {times : List Instant}
    (ht : times.length = batch.length) : Promoted batch s (s.run (times.map (·, .promotion))) := by
  induction batch generalizing s times with
  | nil =>
    cases List.length_eq_zero_iff.1 ht
    refine .nil ?_
    unfold inHand
    rw [hand]
  | cons id rest ih =>
    obtain ⟨now, times, rfl⟩ := List.exists_cons_of_length_eq_add_one ht
    rw [List.nodup_cons] at hn
    obtain ⟨job, hj, state⟩ := waits id (List.mem_cons_self ..)
    obtain ⟨promotion, lineup, timetable, jobs⟩ := promotion_of_holding hs hand hj state now
    have sound : (s.act now .promotion).Sound := by
      apply act_sound hs
      trivial
    have waits' : ∀ i ∈ rest, ∃ job, (s.act now .promotion).board.job? i = some job ∧ job.state = .scheduled := by
      intro i hi
      have he : i ≠ id := fun he => hn.1 (he ▸ hi)
      rw [jobs, if_neg he]
      exact waits i (List.mem_cons_of_mem _ hi)
    have promoted := ih sound promotion hn.2 waits' (Nat.succ.inj ht)
    constructor
    case lineup =>
      show ((s.act now .promotion).run _).board.lineup.ids = _
      rw [promoted.lineup, lineup, List.append_assoc]
      rfl
    case timetable => exact promoted.timetable.trans timetable
    case moved =>
      intro i hi
      by_cases he : i = id
      · subst he
        exact ⟨job, hj, state, (promoted.others i hn.1).trans ((jobs i).trans (if_pos rfl))⟩
      · obtain ⟨job', hj', state', moved⟩ := promoted.moved i ((List.mem_cons.1 hi).resolve_left he)
        rw [jobs, if_neg he] at hj'
        exact ⟨job', hj', state', moved⟩
    case others =>
      intro i hi
      rw [List.mem_cons, not_or] at hi
      exact (promoted.others i hi.2).trans ((jobs i).trans (if_neg hi.1))
    case released => exact promoted.released

/-- A sweep at an instant has moved the jobs due then, and no others, in order of their due times and, at one due time,
of their last insertion. -/
structure Swept (order : List JobId) (now : Instant) (s s' : Scheduler) : Prop where
  dueOnly : ∀ id, id ∈ s.due now ↔
    id ∈ s.board.timetable.ids ∧ ∃ job, s.board.job? id = some job ∧ job.nextDueAt ≤ now
  nodup : (s.due now).Nodup
  inOrder : (s.due now).Pairwise fun a b => ∀ first second, s.board.job? a = some first → s.board.job? b = some second →
    first.nextDueAt < second.nextDueAt ∨ first.nextDueAt = second.nextDueAt ∧ [a, b].Sublist order
  lineup : s'.board.lineup.ids = s.board.lineup.ids ++ s.due now
  left : s'.board.timetable.ids = s.board.timetable.ids.filter (· ∉ s.due now)
  moved : ∀ id ∈ s.due now, ∃ job, s.board.job? id = some job ∧ job.state = .scheduled ∧
    s'.board.job? id = some { job with state := .enqueued }
  others : ∀ id, id ∉ s.due now → s'.board.job? id = s.board.job? id
  released : s'.inHand = []

/-- The jobs in the timetable stand there by the times they are next due and, at one time, by their last insertion. -/
theorem ids_inOrder {order : List JobId} (hd : s.desk.Dated) (hf : Timetable.Follows order s.board.timetable)
    (scheduled : ∀ id ∈ s.board.timetable.ids, ∀ job, s.board.job? id = some job → job.state = .scheduled) :
    s.board.timetable.ids.Pairwise fun a b => ∀ first second, s.board.job? a = some first → s.board.job? b = some second →
      first.nextDueAt < second.nextDueAt ∨ first.nextDueAt = second.nextDueAt ∧ [a, b].Sublist order := by
  unfold Timetable.ids
  rw [List.pairwise_map]
  refine List.Pairwise.imp_of_mem ?_ hd.ordered
  intro e f he hf' before first second hfirst hsecond
  have key : ∀ g ∈ s.board.timetable.bySlot, ∀ job, s.board.job? g.2 = some job → g.1.due = job.nextDueAt :=
    fun g hg job hj => hd.keyed g.1 g.2 job hg hj (scheduled g.2 (List.mem_map.2 ⟨g, hg, rfl⟩) job hj)
  rw [← key e he first hfirst, ← key f hf' second hsecond]
  rcases Slot.before_iff.1 before with hlt | ⟨hdue, hlt⟩
  · exact .inl hlt
  · exact .inr ⟨hdue, hf.sequences e he f hf' hlt⟩

/-- The jobs that are due stand under their due times, in order. -/
theorem due_inOrder {order : List JobId} (hd : s.desk.Dated) (hf : Timetable.Follows order s.board.timetable)
    (scheduled : ∀ id ∈ s.board.timetable.ids, ∀ job, s.board.job? id = some job → job.state = .scheduled)
    (now : Instant) :
    (s.due now).Pairwise fun a b => ∀ first second, s.board.job? a = some first → s.board.job? b = some second →
      first.nextDueAt < second.nextDueAt ∨ first.nextDueAt = second.nextDueAt ∧ [a, b].Sublist order := by
  have inOrder := ids_inOrder hd hf scheduled
  rw [Timetable.ids_takeDue s.board.timetable now, List.pairwise_append] at inOrder
  exact inOrder.1

theorem listed_of_due (hm : id ∈ s.due now) : id ∈ s.board.timetable.ids := by
  rw [Timetable.ids_takeDue s.board.timetable now]
  exact List.mem_append_left _ hm

/-- Those in the timetable are scheduled. -/
theorem scheduled_of_listed (hs : s.Sound) (hp : s.ledger.Punctual id) (hm : id ∈ s.board.timetable.ids) :
    ∃ job, s.board.job? id = some job ∧ job.state = .scheduled := by
  have waits : id ∈ s.ledger.waiting := Multiset.mem_coe.2 hm
  obtain ⟨job, hj⟩ := Option.isSome_iff_exists.1 (hs.ledger.held id (.inl waits))
  exact ⟨job, hj, (hp.onTime hj).scheduled (Multiset.count_pos.2 waits)⟩

theorem mem_due (hs : s.Sound) (hd : s.desk.Dated) (hp : ∀ id ∈ s.board.timetable.ids, s.ledger.Punctual id) :
    id ∈ s.due now ↔ id ∈ s.board.timetable.ids ∧ ∃ job, s.board.job? id = some job ∧ job.nextDueAt ≤ now := by
  constructor
  · intro hm
    have listed : id ∈ s.board.timetable.ids := listed_of_due hm
    obtain ⟨job, hj, -⟩ := scheduled_of_listed hs (hp id listed) listed
    exact ⟨listed, job, hj, (due_of_taken hd (hp id listed) hj hm).2⟩
  · rintro ⟨hm, job, hj, hle⟩
    obtain ⟨job', hj', state⟩ := scheduled_of_listed hs (hp id hm) hm
    cases hj'.symm.trans hj
    obtain ⟨e, he, rfl⟩ := List.mem_map.1 hm
    have key : e.1.due = job.nextDueAt := hd.keyed e.1 e.2 job he hj state
    exact hd.ordered.mem_takeDue.2 ⟨e.1, he, key ▸ hle⟩

/-- The promotion loop takes the jobs that are due in hand. -/
theorem promotion_of_looking (hs : s.Sound) (on : s.disposed = false) (looking : s.promotion = .looking) (now : Instant) :
    (s.act now .promotion).promotion = .after now (s.due now) ∧
      (s.act now .promotion).board.lineup = s.board.lineup ∧
      (s.act now .promotion).board.timetable = (s.board.timetable.takeDue now).2 ∧
      (s.act now .promotion).board.jobs = s.board.jobs := by
  have shift : Shift s.number s.settings now s.desk .promotion (s.act now .promotion).desk := promotion_shift hs
  have after := shift.of_looking looking on
  exact ⟨congrArg Desk.promotion after, congrArg Desk.lineup after, congrArg Desk.timetable after,
    congrArg Desk.jobs after⟩

/-- A sweep takes the jobs that are due, and promotes them. -/
theorem promoted_of_sweep (hs : s.Sound) (hp : ∀ id ∈ s.board.timetable.ids, s.ledger.Punctual id)
    (on : s.disposed = false) (looking : s.promotion = .looking) {times : List Instant}
    (ht : times.length = (s.due now).length) :
    Promoted (s.due now) (s.act now .promotion) (s.run (sweep now times)) := by
  obtain ⟨promotion, -, -, jobs⟩ := promotion_of_looking hs on looking now
  have hn : (s.due now).Nodup := by
    have nodup := hs.timetable.nodup
    rw [Timetable.ids_takeDue s.board.timetable now] at nodup
    exact nodup.of_append_left
  have waits : ∀ id ∈ s.due now, ∃ job, (s.act now .promotion).board.job? id = some job ∧ job.state = .scheduled := by
    intro id hm
    have listed : id ∈ s.board.timetable.ids := listed_of_due hm
    unfold Board.job?
    rw [jobs]
    exact scheduled_of_listed hs (hp id listed) listed
  have sound : (s.act now .promotion).Sound := by
    apply act_sound hs
    trivial
  cases hdue : s.due now with
  | nil =>
    rw [hdue] at promotion ht
    cases List.length_eq_zero_iff.1 ht
    refine .nil ?_
    show (s.act now .promotion).inHand = []
    unfold inHand
    rw [promotion]
    rfl
  | cons first rest =>
    rw [hdue] at promotion ht hn waits
    exact promoted_of_holding sound promotion hn waits ht

theorem swept {order : List JobId} (hs : s.Sound) (hd : s.desk.Dated) (hf : Timetable.Follows order s.board.timetable)
    (hp : ∀ id ∈ s.board.timetable.ids, s.ledger.Punctual id) (on : s.disposed = false)
    (looking : s.promotion = .looking) {times : List Instant} (ht : times.length = (s.due now).length) :
    Swept order now s (s.run (sweep now times)) := by
  obtain ⟨-, lineup, timetable, jobs⟩ := promotion_of_looking hs on looking now
  have jobs : ∀ id, (s.act now .promotion).board.job? id = s.board.job? id := fun id => by
    unfold Board.job?
    rw [jobs]
  have promoted := promoted_of_sweep hs hp on looking ht
  have ids : s.board.timetable.ids = s.due now ++ (s.board.timetable.takeDue now).2.ids := Timetable.ids_takeDue _ now
  have nodup := hs.timetable.nodup
  rw [ids, List.nodup_append] at nodup
  obtain ⟨hn, -, apart⟩ := nodup
  constructor
  case dueOnly => exact fun id => mem_due hs hd hp
  case nodup => exact hn
  case inOrder =>
    refine due_inOrder hd hf (fun id hm job hj => ?_) now
    obtain ⟨job', hj', state⟩ := scheduled_of_listed hs (hp id hm) hm
    cases hj'.symm.trans hj
    exact state
  case lineup => rw [promoted.lineup, lineup]
  case left =>
    have gone : (s.due now).filter (· ∉ s.due now) = [] :=
      List.filter_eq_nil_iff.2 fun id hm => by simpa using hm
    have kept : (s.board.timetable.takeDue now).2.ids.filter (· ∉ s.due now) = (s.board.timetable.takeDue now).2.ids :=
      List.filter_eq_self.2 fun id hm => decide_eq_true fun hx => apart id hx id hm rfl
    rw [promoted.timetable, timetable, ids, List.filter_append, gone, kept]
    rfl
  case moved =>
    intro id hm
    obtain ⟨job, hj, state, moved⟩ := promoted.moved id hm
    rw [jobs] at hj
    exact ⟨job, hj, state, moved⟩
  case others => exact fun id hm => (promoted.others id hm).trans (jobs id)
  case released => exact promoted.released

/-- What a sweep does is the same from any state with the same jobs in the same queues. -/
theorem Swept.of_same {order : List JobId} {s' : Scheduler} (h : Swept order now s s') (jobs : s.board.jobs = s₀.board.jobs)
    (lineup : s.board.lineup = s₀.board.lineup) (bySlot : s.board.timetable.bySlot = s₀.board.timetable.bySlot) :
    Swept order now s₀ s' := by
  have hjobs : ∀ id, s.board.job? id = s₀.board.job? id := fun id => by
    unfold Board.job?
    rw [jobs]
  have hdue : s.due now = s₀.due now := by
    unfold due Timetable.takeDue
    rw [bySlot]
  have hids : s.board.timetable.ids = s₀.board.timetable.ids := by
    unfold Timetable.ids
    rw [bySlot]
  obtain ⟨dueOnly, nodup, inOrder, lineup', left, moved, others, released⟩ := h
  simp only [hjobs, hdue, hids, lineup] at dueOnly nodup inOrder lineup' left moved others
  exact ⟨dueOnly, nodup, inOrder, lineup', left, moved, others, released⟩

theorem swept_awakened {order : List JobId} (hs : s.Sound) (hd : s.desk.Dated)
    (hf : Timetable.Follows order s.board.timetable) (hp : ∀ id ∈ s.board.timetable.ids, s.ledger.Punctual id)
    (on : s.disposed = false) {read : Instant} (looking : (s.act read .promotion).promotion = .looking)
    {times : List Instant} (ht : times.length = (s.due now).length) :
    Swept order now s (s.run ((read, .promotion) :: sweep now times)) := by
  have step : s.Step read .promotion (s.act read .promotion) := act_step hs trivial
  have shift : Shift s.number s.settings read s.desk .promotion (s.act read .promotion).desk := promotion_shift hs
  obtain ⟨jobs, lineup, bySlot, disposed⟩ := shift.to_looking looking
  have jobs : (s.act read .promotion).board.jobs = s.board.jobs := jobs
  have bySlot : (s.act read .promotion).board.timetable.bySlot = s.board.timetable.bySlot := bySlot
  have hids : (s.act read .promotion).board.timetable.ids = s.board.timetable.ids := by
    unfold Timetable.ids
    rw [bySlot]
  have hdue : (s.act read .promotion).due now = s.due now := by
    unfold due Timetable.takeDue
    rw [bySlot]
  have follows : Timetable.Follows order (s.act read .promotion).board.timetable :=
    ⟨fun e he => hf.known e (bySlot ▸ he), fun e he f hf' => hf.sequences e (bySlot ▸ he) f (bySlot ▸ hf')⟩
  have punctual : ∀ id ∈ (s.act read .promotion).board.timetable.ids, (s.act read .promotion).ledger.Punctual id :=
    fun id hm => step.effect.punctual hs.ledger (hp id (hids ▸ hm)) fun _ => nofun
  have sound : (s.act read .promotion).Sound := by
    apply act_sound hs
    trivial
  have after := swept sound ((shift.timed hs.timetable).dated hs.timetable hd) follows punctual (disposed.trans on) looking
    (hdue ▸ ht)
  exact after.of_same jobs lineup bySlot

/-! ## Runs -/

/-- What is to be said of the promotion of jobs at one point of a run: no job joins the lineup before it is due, and
a sweep that nothing comes into moves the jobs that are due, from where the loop looks for them or from where it comes
to look for them. A job is undisturbed if it is never performed early while the promotion loop holds it. -/
structure Punctually (s₀ : Scheduler) (actions : List (Instant × Action)) (s : Scheduler) : Prop where
  once : (s₀.insertions [] actions).Nodup
  notEarly : ∀ job, s₀.Undisturbed job.id actions → ∀ now action, action.Legal s → action ≠ .performNow job.id →
    s.Joins now action job →
    s.TriedAtOnce action job ∨ ∃ instant, s₀.clock actions now action = some instant ∧ job.nextDueAt ≤ instant
  sweeps : (∀ id ∈ s.board.timetable.ids, s₀.Undisturbed id actions) → s.disposed = false → s.promotion = .looking →
    ∀ now times, times.length = (s.due now).length → Swept (s₀.insertions [] actions) now s (s.run (sweep now times))
  awakened : (∀ id ∈ s.board.timetable.ids, s₀.Undisturbed id actions) → s.disposed = false →
    ∀ read, (s.act read .promotion).promotion = .looking → ∀ now times, times.length = (s.due now).length →
      Swept (s₀.insertions [] actions) now s (s.run ((read, .promotion) :: sweep now times))

/-- Whatever a scheduler is put through, its jobs are promoted when they are due and in the order in which they are. -/
theorem promoted_in_time {number : Nat} {settings : Settings} (h₀ : start number settings = .ok s₀)
    {actions : List (Instant × Action)} (ha : s₀.Allows .fine actions) : s₀.Punctually actions (s₀.run actions) := by
  have reached : (s₀.run actions).Reached .fine := ⟨number, settings, s₀, actions, h₀, ha, rfl⟩
  have sound : (s₀.run actions).Sound := reached.sound
  have dated : (s₀.run actions).desk.Dated := reached.dated
  have free : s₀.inHand = [] := by
    cases start_eq h₀
    rfl
  have follows : Timetable.Follows (s₀.insertions [] actions) (s₀.run actions).board.timetable :=
    insertions_follows h₀ ha
  constructor
  case once => exact insertions_nodup List.nodup_nil actions
  case notEarly =>
    intro job hu now action legal hn joins
    have timely : (s₀.run actions).Timely job.id (s₀.lastReading none actions) := by
      have started : s₀.Reached .fine := ⟨number, settings, s₀, [], h₀, trivial, rfl⟩
      refine run_timely (fun j _ hand => ?_) (start_sound h₀) started.dated (fun j hj => ?_) ha hu
      · rw [free] at hand; cases hand
      · cases (start_unknown h₀ job.id).symm.trans hj
    exact joins.in_time sound (punctual_of_undisturbed h₀ ha hu) timely legal hn
  case sweeps =>
    intro hu on looking now times ht
    exact swept sound dated follows (fun id hm => punctual_of_undisturbed h₀ ha (hu id hm)) on looking ht
  case awakened =>
    intro hu on read looking now times ht
    exact swept_awakened sound dated follows (fun id hm => punctual_of_undisturbed h₀ ha (hu id hm)) on looking ht

/-- Four jobs wait for their due times, while both loops rest: the first for that of two seconds, the next two for
that of one, and the last for that of three. -/
def waiting : List (Instant × Action) :=
  [.promotion, .promotion, .promotion, .dispatch true, .dispatch true].map (.epoch, ·) ++
    [(.afterSecond, .plain 1 (.on .afterTwo) (.limited 0)), (.epoch, .plain 2 (.after .second) (.limited 0)),
      (.epoch, .plain 3 (.after .second) (.limited 0)),
      (.afterTwo, .plain 4 (.on ⟨3000000000, by decide⟩) (.limited 0))]

theorem waiting_allowed : single.Allows .fine waiting := by
  refine (allows_append ..).2 ⟨.of_not_brings rfl, ?_⟩
  refine ⟨Action.fits_plain (by decide +kernel), Action.fits_plain (by decide +kernel), ?_⟩
  exact ⟨Action.fits_plain (by decide +kernel), Action.fits_plain (by decide +kernel), trivial⟩

theorem waiting_paused : (single.run waiting).Paused :=
  ⟨.inr ⟨.epoch, .ofMillis 100, by decide +kernel⟩, .inr (.inr ⟨.epoch, by decide +kernel⟩), by decide +kernel⟩

/-- At two seconds the promotion loop awakes, and its sweep moves those that are due. -/
theorem promoted_in_time_waiting :
    (single.run waiting).Paused ∧ (single.run waiting).due .afterTwo = [⟨2⟩, ⟨3⟩, ⟨1⟩] ∧
      single.Punctually waiting (single.run waiting) ∧
      Swept (single.insertions [] waiting) .afterTwo (single.run waiting)
        ((single.run waiting).run ((.afterTwo, .promotion) :: sweep .afterTwo [.epoch, .epoch, .epoch])) := by
  have punctually : single.Punctually waiting (single.run waiting) := promoted_in_time start_single waiting_allowed
  have undisturbed : ∀ id, single.Undisturbed id waiting := by
    intro id
    apply undisturbed_of_not_hurried
    intro x hx he
    simp only [waiting, List.map_cons, List.map_nil, List.cons_append, List.nil_append, List.mem_cons, List.not_mem_nil,
      or_false] at hx
    rcases hx with rfl | rfl | rfl | rfl | rfl | rfl | rfl | rfl | rfl <;> cases he
  refine ⟨waiting_paused, by decide +kernel, punctually, ?_⟩
  exact punctually.awakened (fun id _ => undisturbed id) (by decide +kernel) .afterTwo (by decide +kernel) .afterTwo
    [.epoch, .epoch, .epoch] (by decide +kernel)

/-- Those that are due join the lineup as their due times follow one another, and at one due time as they came. -/
example : ((single.run waiting).run ((.afterTwo, .promotion) :: sweep .afterTwo [.epoch, .epoch, .epoch])).board.lineup.ids =
    [⟨2⟩, ⟨3⟩, ⟨1⟩] := by
  decide +kernel

end Scheduler

end Rota
