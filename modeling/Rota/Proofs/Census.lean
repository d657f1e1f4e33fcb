/-
What a census shows. The jobs in the lineup stand there in the order in which they joined it, and the executions
in flight in that in which they began; the jobs in the timetable stand by the times they are next due and are
scheduled, and no job is shown twice, unless a job is promoted out of the hands of the promotion loop after it has
come to wait in the timetable again.
-/
import Rota.Proofs.Cancellation
import Rota.Proofs.Dispatching
import Rota.Proofs.Sweeps

namespace Rota

/-! ## Where a job may stand -/

/-- How often a job may stand in the timetable and in the lineup, given its state, as long as it does not come to
stand in both. -/
def Apart (waiting lineup : Nat) : State → Prop
  | .scheduled => True
  | .cancelled => waiting = 0 ∧ lineup = 0
  | _ => waiting = 0

theorem Apart.fewer {waiting lineup waiting' lineup' : Nat} {state : State} (h : Apart waiting lineup state)
    (hw : waiting' ≤ waiting) (hl : lineup' ≤ lineup) : Apart waiting' lineup' state := by
  cases state <;> simp only [Apart] at h ⊢ <;> omega

/-- Whoever stands in the timetable is scheduled. -/
theorem Apart.scheduled {waiting lineup : Nat} {state : State} (h : Apart waiting lineup state) (waits : 0 < waiting) :
    state = .scheduled := by
  cases state <;> simp only [Apart] at h <;> first | rfl | omega

/-- Whoever stands in the lineup waits for a slot. -/
theorem Apart.enqueued {waiting lineup chosen : Nat} {state : State} (h : Apart waiting lineup state)
    (hl : InLine lineup chosen state) (lines : 0 < lineup) : state = .enqueued := by
  cases state <;> simp only [Apart, InLine] at h hl <;> first | rfl | omega

/-- A job that is sent on after an attempt stands where it is sent. -/
theorem Sequel.apart {policy : RetryPolicy} {now : Instant} {job job' : Job} {ending : Ending} {marks : List Mark}
    {fate : Fate} (h : Sequel policy now job ending marks job' fate) :
    Apart (if fate = .timetable then 1 else 0) (if fate = .lineup then 1 else 0) job'.state := by
  rcases h.outcome with ⟨rfl, state, -⟩ | ⟨rfl, state, -⟩ | ⟨rfl | rfl, state | state⟩ <;> simp [state, Apart]

namespace Ledger

/-- A job does not stand in two places. -/
def Single (l : Ledger) (id : JobId) : Prop :=
  l.Says id fun l job => Apart (l.waiting.count job.id) (l.lineup.count job.id) job.state

theorem Single.apart {l : Ledger} {id : JobId} {job : Job} (h : l.Single id) (known : l.job? id = some job) :
    Apart (l.waiting.count id) (l.lineup.count id) job.state := by
  have apart : Apart (l.waiting.count job.id) (l.lineup.count job.id) job.state := h job known
  rwa [job?_id known] at apart

end Ledger

namespace Effect

open Ledger

variable {supply : Supply} {policy : RetryPolicy} {now : Instant} {l l' : Ledger} {action : Action} {id : JobId}

/-- Every effect keeps a job from standing in two places, unless the job is promoted while it stands in the
timetable. -/
theorem single (h : Effect supply policy now l action l') (hs : l.Sound) (hl : l.Lined id) (hd : l.Single id)
    (once : action = .promotion → l.inHand.head? = some id → id ∉ l.waiting) : l'.Single id := by
  cases h with
  | quiet => exact hd
  | @accepted made i work request plan number fate state unknown planned tame waits =>
    obtain ⟨hwaiting, -, hline, -⟩ := hs.absent unknown
    refine Says.append (l := l) hd (send_jobs ..) unknown (Plan.job_id ..) ?_ fun j hi hj => ?_
    · rw [Plan.job_id]
      cases waits <;> simp [send, Plan.job, Apart, hwaiting]
    · cases waits <;> simpa [send, hi, Multiset.count_cons, Multiset.count_filter] using hj
  | @taken batch rest free split =>
    refine Says.same hd rfl fun j _ hj => hj.fewer ?_ (Nat.le_refl _)
    show rest.count j.id ≤ l.waiting.count j.id
    rw [split, Multiset.count_add]
    exact Nat.le_add_left _ _
  | @promoted i rest job hand known state =>
    refine Says.put hd rfl known rfl (fun he _ => ?_) fun j hi hj => ?_
    · subst he
      have absent : id ∉ l.waiting := by
        apply once rfl
        rw [hand]
        rfl
      simpa [send, put, Apart, job?_id known] using absent
    · simpa [send, put, hi] using hj
  | passedOver => exact Says.same hd rfl fun j _ hj => hj
  | @hurried i job known state =>
    refine Says.put hd rfl known rfl (fun _ _ => ?_) fun j hi hj => ?_
    · simp [send, put, Apart, job?_id known]
    · simpa [send, put, hi] using hj
  | @cancelled i job known state =>
    refine Says.put hd rfl known rfl (fun he hj => ?_) fun j hi hj => ?_
    · subst he
      refine ⟨by simp [discount, put, job?_id known], ?_⟩
      show (if id ∈ l.waiting then l.lineup else l.lineup.erase id).count job.id = 0
      have inLine := hl.inLine known
      rw [job?_id known] at hj ⊢
      split
      next hm =>
        -- it waits for its due time, and so not for a slot
        have scheduled := hj.scheduled (Multiset.count_pos.2 hm)
        exact (inLine.eq_zero (by rw [scheduled]; decide) (by rw [scheduled]; decide)).1
      next =>
        rw [Multiset.count_erase_self]
        have := inLine.le_one
        omega
    · refine hj.fewer ?_ ?_
      · simp [discount, put, hi]
      · show (if i ∈ l.waiting then l.lineup else l.lineup.erase i).count j.id ≤ l.lineup.count j.id
        split
        · exact Nat.le_refl _
        · exact Multiset.count_le_of_le _ (Multiset.erase_le ..)
  | @chose i rest slotFirst free split =>
    refine Says.same hd rfl fun j _ hj => hj.fewer (Nat.le_refl _) ?_
    show rest.count j.id ≤ l.lineup.count j.id
    rw [split]
    exact Multiset.count_le_count_cons ..
  | @launched i job slotFirst hand known state =>
    refine Says.put hd rfl known rfl (fun _ hj => ?_) fun j _ hj => hj
    rwa [state] at hj
  | notLaunched => exact Says.same hd rfl fun j _ hj => hj
  | begun waited known => exact Says.put hd rfl known rfl (fun _ hj => hj) fun j _ hj => hj
  | @givenUp i job waited known unbound unsupplied =>
    refine Says.put hd rfl known rfl (fun _ hj => ?_) fun j _ hj => hj
    rwa [hs.manned.running known (mem_executions_of_launched waited)] at hj
  | @concluded task i ending job job' marks fate flies known sequel =>
    refine Says.put hd (by simp [discount, note]) known sequel.id_eq (fun he hj => ?_) fun j hi hj => ?_
    · subst he
      have running : job.state = .running := hs.manned.running known (mem_executions_of_inFlight flies)
      have lineup := ((hl.inLine known).eq_zero (by rw [running]; decide) (by rw [running]; decide)).1
      have waiting : l.waiting.count job.id = 0 := by rwa [running] at hj
      have apart := sequel.apart
      rw [job?_id known] at waiting
      rw [sequel.id_eq, job?_id known]
      cases fate <;> simpa [send, discount, note, put, waiting, lineup] using apart
    · cases fate <;> simpa [send, discount, note, put, hi] using hj

end Effect

/-! ## The order of arrival -/

/-- From one list of jobs to a later one some may have left, or one has joined at the end. -/
inductive Grows (ids : List JobId) : List JobId → Prop
  | left {ids' : List JobId} (fewer : ids'.Sublist ids) : Grows ids ids'
  | joined (id : JobId) : Grows ids (ids ++ [id])

/-- Jobs that stand in the order in which they last joined go on standing in it. -/
theorem Grows.sublist {ids ids' order : List JobId} (h : Grows ids ids') (hn : ids'.Nodup) (ho : ids.Sublist order) :
    ids'.Sublist (Timetable.reordered order (ids'.find? (· ∉ ids))) := by
  cases h with
  | left fewer =>
    rw [List.find?_eq_none.2 fun id hm => by simpa using fewer.subset hm]
    exact fewer.trans ho
  | joined id =>
    have fresh : ∀ a ∈ ids, a ≠ id := fun a ha he => (List.nodup_append.1 hn).2.2 a ha id (List.mem_singleton_self _) he
    have newcomer : (ids ++ [id]).find? (· ∉ ids) = some id := by
      rw [List.find?_append, List.find?_eq_none.2 fun a ha => by simpa using ha]
      simpa using fun hm => fresh id hm rfl
    rw [newcomer]
    have kept := ho.filter (· ≠ id)
    rw [List.filter_eq_self.2 fun a ha => decide_eq_true (fresh a ha)] at kept
    exact kept.append (.refl _)

theorem Advance.lineup {d d' : Desk} {action : Action} (h : Advance d d' action) : Grows d.lineup.ids d'.lineup.ids := by
  unfold Lineup.ids
  cases h with
  | stays waiters => exact .left (waiters ▸ .refl _)
  | joined known waiters =>
    rw [waiters, List.map_append]
    exact .joined _
  | withdrawn waits waiters => exact .left (waiters ▸ List.eraseP_sublist.map _)
  | chose free waiters foremost others =>
    rw [waiters, others]
    exact .left (((List.Sublist.refl _).append (List.sublist_cons_self _ _)).map _)
  | launched hand waiters => exact .left (waiters ▸ .refl _)
  | dropped hand known state waiters => exact .left (waiters ▸ .refl _)

theorem Shift.inFlight {number : Nat} {settings : Settings} {now : Instant} {d d' : Desk} {action : Action}
    (h : Shift number settings now d action d') : Grows d.inFlight.ids d'.inFlight.ids := by
  cases h with
  | @begun id job performer waited known supplied =>
    have ids : (d.inFlight.register id).2.ids = d.inFlight.ids ++ [id] := by simp [InFlight.register, InFlight.ids]
    exact ids ▸ .joined id
  | concluded => exact .left (List.filter_sublist.map _)
  | _ => exact .left (.refl _)

namespace Scheduler

variable {s s₀ : Scheduler} {now : Instant} {action : Action} {id : JobId} {grain : Grain}
  {actions : List (Instant × Action)}

/-- The jobs in the order in which they last joined a list, which they may leave again. -/
def arrivals (ids : Scheduler → List JobId) (s : Scheduler) (order : List JobId) : List (Instant × Action) → List JobId
  | [] => order
  | (now, action) :: rest =>
    (s.act now action).arrivals ids
      (Timetable.reordered order ((ids (s.act now action)).find? (· ∉ ids s))) rest

theorem arrivals_nodup {ids : Scheduler → List JobId} {order : List JobId} (h : order.Nodup)
    (actions : List (Instant × Action)) : (s.arrivals ids order actions).Nodup := by
  induction actions generalizing s order with
  | nil => exact h
  | cons x rest ih => exact ih (Timetable.nodup_reordered h _)

/-- A list that only grows at its end stands in the order in which its jobs joined it. -/
theorem Reached.arrivals (ids : Scheduler → List JobId)
    (grows : ∀ s now action, s.Reached grain → action.Legal s → Grows (ids s) (ids (s.act now action)))
    (nodup : ∀ s, s.Reached grain → (ids s).Nodup) (h : s.Reached grain) {order : List JobId}
    (ho : (ids s).Sublist order) (ha : s.Allows grain actions) :
    (ids (s.run actions)).Sublist (s.arrivals ids order actions) := by
  induction actions generalizing s order with
  | nil => exact ho
  | cons x rest ih =>
    have alone : s.Allows grain [x] := ⟨ha.1, trivial⟩
    have reached : (s.act x.1 x.2).Reached grain := h.run alone
    exact ih reached ((grows s x.1 x.2 h ha.1.legal).sublist (nodup _ reached) ho) ha.2

theorem lineup_arrivals (h : s.Reached grain) {order : List JobId} (ho : s.board.lineup.ids.Sublist order)
    (ha : s.Allows grain actions) :
    (s.run actions).board.lineup.ids.Sublist (s.arrivals (·.board.lineup.ids) order actions) := by
  refine Reached.arrivals (·.board.lineup.ids) (fun s now action h legal => ?_) (fun s h => ?_) h ho ha
  · have advance : Advance s.desk (s.act now action).desk action := act_advance h.sound legal
    exact advance.lineup
  · exact lineup_nodup h.sound h.lined

theorem inFlight_arrivals (h : s.Reached grain) {order : List JobId} (ho : s.board.inFlight.ids.Sublist order)
    (ha : s.Allows grain actions) :
    (s.run actions).board.inFlight.ids.Sublist (s.arrivals (·.board.inFlight.ids) order actions) := by
  refine Reached.arrivals (·.board.inFlight.ids) (fun s now action h legal => ?_) (fun s h => ?_) h ho ha
  · have shift : Shift s.number s.settings now s.desk action (s.act now action).desk := act_shift h.sound legal
    exact shift.inFlight
  · exact h.sound.inFlight_nodup

/-! ## What a census shows -/

/-- What is always to be said of a census at one point of a run: it shows the timetable, the lineup and the executions
in flight; a scheduled job in the timetable stands under the time it is next due; and the jobs in the lineup stand in
the order in which they were pushed, those in flight in the order in which their executions were registered. -/
structure Listed (s₀ : Scheduler) (actions : List (Instant × Action)) (s : Scheduler) : Prop where
  orders : (s₀.insertions [] actions).Nodup ∧ (s₀.arrivals (·.board.lineup.ids) [] actions).Nodup ∧
    (s₀.arrivals (·.board.inFlight.ids) [] actions).Nodup
  whole : ∀ now, (s.census now).jobs.map (·.id) =
    s.board.timetable.ids ++ s.board.lineup.ids ++ s.board.inFlight.ids
  keys : ∀ slot id job, (slot, id) ∈ s.board.timetable.bySlot → s.board.job? id = some job → job.state = .scheduled →
    slot.due = job.nextDueAt
  enqueued : ∀ now, ((s.census now).enqueued.map (·.id)).Sublist (s₀.arrivals (·.board.lineup.ids) [] actions)
  running : ∀ now, ((s.census now).running.map (·.id)).Sublist (s₀.arrivals (·.board.inFlight.ids) [] actions)
  executed : ∀ now, ∀ view ∈ (s.census now).running, view.state = .running

/-- What more is to be said of it: whoever stands in the timetable stands under the time it is next due, so that a
census shows them by that time and, at one time, by their last insertion; each job is shown in the state that its place
says, and none twice. -/
structure Charted (s₀ : Scheduler) (actions : List (Instant × Action)) (s : Scheduler) : Prop extends
    Listed s₀ actions s where
  keyed : ∀ slot id, (slot, id) ∈ s.board.timetable.bySlot → ∃ job, s.board.job? id = some job ∧ slot.due = job.nextDueAt
  inOrder : ∀ now, (s.census now).scheduled.Pairwise fun a b =>
    a.nextDueAt < b.nextDueAt ∨ a.nextDueAt = b.nextDueAt ∧ [a.id, b.id].Sublist (s₀.insertions [] actions)
  states : ∀ now, (∀ view ∈ (s.census now).scheduled, view.state = .scheduled) ∧
    ∀ view ∈ (s.census now).enqueued, view.state = .enqueued
  distinct : ∀ now, ((s.census now).jobs.map (·.id)).Nodup

/-- The promotion loop is about to promote a job that has come to wait in the timetable again since it was taken. -/
structure Doubles (s : Scheduler) (id : JobId) (action : Action) : Prop where
  promotion : action = .promotion
  next : s.inHand.head? = some id
  waits : id ∈ s.board.timetable.ids

/-- A job that is undisturbed is not promoted while it waits in the timetable. -/
theorem not_doubles (hs : s.Sound) (hp : s.ledger.Punctual id) : ¬ s.Doubles id action := by
  rintro ⟨-, next, waits⟩
  have waits : id ∈ s.ledger.waiting := Multiset.mem_coe.2 waits
  obtain ⟨job, hj⟩ := Option.isSome_iff_exists.1 (hs.ledger.held id (.inl waits))
  have released := (hp.onTime hj).not_held (Multiset.count_pos.2 waits)
  exact List.count_eq_zero.1 released (List.mem_of_head? next)

theorem run_single (hs : s.Sound) (hl : s.ledger.Lined id) (hd : s.ledger.Single id) (ha : s.Allows grain actions)
    (once : ∀ before now action after, actions = before ++ (now, action) :: after → ¬ (s.run before).Doubles id action) :
    (s.run actions).ledger.Single id := by
  induction actions generalizing s with
  | nil => exact hd
  | cons x rest ih =>
    obtain ⟨now, action⟩ := x
    have step : s.Step now action _ := act_step hs ha.1.legal
    have single : (s.act now action).ledger.Single id := by
      refine step.effect.single hs.ledger hl hd fun promotion next waits => ?_
      exact once [] now action rest rfl ⟨promotion, next, Multiset.mem_coe.1 waits⟩
    refine ih (act_sound hs ha.1.legal) (step.effect.lined hs.ledger hl) single ha.2 ?_
    exact fun before now' action' after he => once ((now, action) :: before) now' action' after (by rw [he]; rfl)

theorem mem_shown {board : Board} {ids : List JobId} {view : JobView} :
    view ∈ (ids.filterMap board.job?).map Job.view ↔ ∃ id ∈ ids, ∃ job, board.job? id = some job ∧ job.view = view := by
  simp only [List.mem_map, List.mem_filterMap]
  constructor
  · rintro ⟨job, ⟨id, hm, hj⟩, rfl⟩
    exact ⟨id, hm, job, hj, rfl⟩
  · rintro ⟨id, hm, job, hj, rfl⟩
    exact ⟨job, ⟨id, hm, hj⟩, rfl⟩

/-- Whoever has an execution in flight runs. -/
theorem running_of_inFlight (hs : s.Sound) (hm : id ∈ s.board.inFlight.ids) {job : Job}
    (hj : s.board.job? id = some job) : job.state = .running :=
  hs.ledger.manned.running hj (Multiset.mem_add.2 (.inr (Multiset.mem_coe.2 hm)))

/-- Wherever a run leads, a census lists its jobs. -/
theorem listed {number : Nat} {settings : Settings} (h₀ : start number settings = .ok s₀)
    (ha : s₀.Allows .fine actions) : s₀.Listed actions (s₀.run actions) := by
  have reached : (s₀.run actions).Reached .fine := ⟨number, settings, s₀, actions, h₀, ha, rfl⟩
  have started : s₀.Reached .fine := ⟨number, settings, s₀, [], h₀, trivial, rfl⟩
  have empty : s₀.board.lineup.ids = [] ∧ s₀.board.inFlight.ids = [] := by
    cases start_eq h₀
    exact ⟨rfl, rfl⟩
  constructor
  case orders =>
    exact ⟨insertions_nodup List.nodup_nil actions, arrivals_nodup List.nodup_nil actions,
      arrivals_nodup List.nodup_nil actions⟩
  case whole =>
    intro now
    obtain ⟨scheduled, enqueued, running⟩ := reached.sound.census_ids now
    unfold Census.jobs
    rw [List.map_append, List.map_append, scheduled, enqueued, running]
  case keys => exact fun slot id job => reached.dated.keyed slot id job
  case enqueued =>
    intro now
    rw [(reached.sound.census_ids now).2.1]
    exact lineup_arrivals started (by rw [empty.1]) ha
  case running =>
    intro now
    rw [(reached.sound.census_ids now).2.2]
    exact inFlight_arrivals started (by rw [empty.2]) ha
  case executed =>
    intro now view shown
    obtain ⟨id, hm, job, hj, rfl⟩ := mem_shown.1 shown
    exact running_of_inFlight reached.sound hm hj

/-- As long as no job stands in two places, a census charts them. -/
theorem Listed.charted (h : s₀.Listed actions s) (hr : s.Reached .fine) (hd : ∀ id, s.ledger.Single id)
    (hf : Timetable.Follows (s₀.insertions [] actions) s.board.timetable) : s₀.Charted actions s := by
  have sound : s.Sound := hr.sound
  have scheduled : ∀ id ∈ s.board.timetable.ids, ∀ job, s.board.job? id = some job → job.state = .scheduled :=
    fun id hm job hj => ((hd id).apart hj).scheduled (Multiset.count_pos.2 (Multiset.mem_coe.2 hm))
  have enqueued : ∀ id ∈ s.board.lineup.ids, ∀ job, s.board.job? id = some job → job.state = .enqueued :=
    fun id hm job hj =>
      ((hd id).apart hj).enqueued ((hr.lined id).inLine hj) (Multiset.count_pos.2 (Multiset.mem_coe.2 hm))
  constructor
  case toListed => exact h
  case keyed =>
    intro slot id he
    have hm : id ∈ s.board.timetable.ids := List.mem_map.2 ⟨(slot, id), he, rfl⟩
    obtain ⟨job, hj⟩ := Option.isSome_iff_exists.1 (sound.ledger.held id (.inl (Multiset.mem_coe.2 hm)))
    exact ⟨job, hj, h.keys slot id job he hj (scheduled id hm job hj)⟩
  case inOrder =>
    intro now
    show ((s.board.timetable.ids.filterMap s.board.job?).map Job.view).Pairwise _
    rw [List.pairwise_map, List.pairwise_filterMap]
    refine (ids_inOrder hr.dated hf scheduled).imp ?_
    intro a b ordered first hfirst second hsecond
    have := ordered first second hfirst hsecond
    rwa [← Board.job?_id hfirst, ← Board.job?_id hsecond] at this
  case states =>
    intro now
    constructor
    · intro view shown
      obtain ⟨id, hm, job, hj, rfl⟩ := mem_shown.1 shown
      exact scheduled id hm job hj
    · intro view shown
      obtain ⟨id, hm, job, hj, rfl⟩ := mem_shown.1 shown
      exact enqueued id hm job hj
  case distinct =>
    intro now
    rw [h.whole now, List.nodup_append, List.nodup_append]
    refine ⟨⟨sound.timetable.nodup, lineup_nodup sound hr.lined, ?_⟩, sound.inFlight_nodup, ?_⟩
    · rintro id hm _ hm' rfl
      obtain ⟨job, hj⟩ := Option.isSome_iff_exists.1 (sound.ledger.held id (.inl (Multiset.mem_coe.2 hm)))
      cases (scheduled id hm job hj).symm.trans (enqueued id hm' job hj)
    · rintro id hm _ hm' rfl
      have he : id ∈ s.ledger.executions := Multiset.mem_add.2 (.inr (Multiset.mem_coe.2 hm'))
      obtain ⟨job, hj, running⟩ := (sound.ledger.manned.runs id).1 he
      rcases List.mem_append.1 hm with hm | hm
      · cases (scheduled id hm job hj).symm.trans running
      · cases (enqueued id hm job hj).symm.trans running

/-- A job that is promoted while it stands in the timetable stands in two places. -/
theorem Doubles.not_charted (h : s.Doubles id action) (hs : s.Sound) {later : List (Instant × Action)}
    (before : s₀.Charted actions s) : ¬ s₀.Charted later (s.act now action) := by
  obtain ⟨rfl, next, waits⟩ := h
  intro after
  have shown : ∀ {s : Scheduler} {job : Job}, id ∈ s.board.timetable.ids → s.board.job? id = some job →
      job.view ∈ (s.census now).scheduled := fun hm hj => mem_shown.2 ⟨id, hm, _, hj, rfl⟩
  obtain ⟨job, hj⟩ := Option.isSome_iff_exists.1 (hs.ledger.held id (.inl (Multiset.mem_coe.2 waits)))
  have hj : s.board.job? id = some job := hj
  have state : job.state = .scheduled := (before.states now).1 job.view (shown waits hj)
  obtain ⟨rest, hand⟩ := holding_of_next next
  obtain ⟨-, -, timetable, jobs⟩ := promotion_of_holding hs hand hj state now
  have hj' : (s.act now .promotion).board.job? id = some { job with state := .enqueued } := (jobs id).trans (if_pos rfl)
  have waits' : id ∈ (s.act now .promotion).board.timetable.ids := timetable ▸ waits
  cases (after.states now).1 _ (shown waits' hj')

/-! ## Runs -/

/-- Wherever a run leads, a census lists its jobs; and it charts them in just those runs in which no job is promoted
while it waits in the timetable. -/
theorem charted_iff {number : Nat} {settings : Settings} (h₀ : start number settings = .ok s₀)
    (ha : s₀.Allows .fine actions) :
    (∀ before after, actions = before ++ after → s₀.Listed before (s₀.run before)) ∧
      ((∀ before after, actions = before ++ after → s₀.Charted before (s₀.run before)) ↔
        ∀ before now action after, actions = before ++ (now, action) :: after →
          ∀ id, ¬ (s₀.run before).Doubles id action) := by
  have hs : s₀.Sound := start_sound h₀
  refine ⟨?_, ?_, ?_⟩
  · rintro before after rfl
    exact listed h₀ ((allows_append ..).1 ha).1
  · intro charted before now action after he id doubles
    have hb : s₀.Allows .fine before := by
      rw [he, allows_append] at ha
      exact ha.1
    have later := charted (before ++ [(now, action)]) after (by rw [he, List.append_assoc]; rfl)
    rw [run_append] at later
    exact doubles.not_charted (run_sound hs hb) (charted before _ he) later
  · rintro once before after rfl
    obtain ⟨hb, -⟩ := (allows_append ..).1 ha
    refine (listed h₀ hb).charted ⟨number, settings, s₀, before, h₀, hb, rfl⟩ (fun id => ?_) (insertions_follows h₀ hb)
    refine run_single hs (fun job hj => ?_) (fun job hj => ?_) hb fun first now action rest he => ?_
    · cases (start_unknown h₀ id).symm.trans hj
    · cases (start_unknown h₀ id).symm.trans hj
    · exact once first now action (rest ++ after) (by rw [he, List.append_assoc]; rfl) id

/-- Of four jobs one runs, one waits for the slot and one for its due time. -/
theorem charted_iff_busy :
    (single.run busy).Settled ∧ single.Charted busy (single.run busy) ∧
      (((single.run busy).census .epoch).scheduled.map (·.id), ((single.run busy).census .epoch).enqueued.map (·.id),
        ((single.run busy).census .epoch).running.map (·.id)) = ([⟨3⟩], [⟨2⟩], [⟨1⟩]) := by
  refine ⟨busy_settled, ?_, by decide +kernel⟩
  refine (charted_iff start_single busy_allowed.fine).2.2 ?_ busy [] (List.append_nil _).symm
  -- its sweeps are whole, so that they disturb no job
  intro before now action after he id
  have hb : single.Allows .coarse before := by
    have := busy_allowed
    rw [he, allows_append] at this
    exact this.1
  exact not_doubles (run_sound (start_sound start_single) hb)
    (punctual_of_undisturbed start_single hb (hb.undisturbed id))

/-- A job that is performed early out of the hands of the promotion loop fails and is to be tried again in a second;
then it is promoted late, and runs when the loops come to rest. -/
def doubled : List (Instant × Action) :=
  (.epoch, .plain 1 (.after .second) (.limited 1)) ::
    [.promotion, .performNow ⟨1⟩, .dispatch true, .dispatch true, .dispatch true, .dispatch true, .begin ⟨1⟩,
      .conclude ⟨0⟩ (.failed .panic ""), .promotion, .promotion, .promotion, .promotion, .promotion, .promotion,
      .promotion, .promotion, .dispatch true, .dispatch true, .dispatch true, .dispatch true, .begin ⟨1⟩,
      .dispatch true, .dispatch true, .dispatch true, .dispatch true].map (.afterSecond, ·)

theorem doubled_allowed : delaying.Allows .fine doubled := by
  refine ⟨Action.fits_plain (by decide +kernel), ?_⟩
  exact .of_not_brings rfl

theorem doubled_settled : (delaying.run doubled).Settled :=
  ⟨⟨.afterSecond, fun loop => by cases loop <;> decide +kernel⟩, by decide +kernel⟩

/-- It is shown among the scheduled though it runs, under a time at which it is no longer due, and twice. -/
theorem doubled_not_charted :
    delaying.Allows .fine doubled ∧ (delaying.run doubled).Settled ∧
      (delaying.run doubled).board.timetable.bySlot.map (fun e => (e.1.due, e.2)) = [(.afterTwo, ⟨1⟩)] ∧
      ((delaying.run doubled).census .afterSecond).jobs.map (fun view => (view.id, view.state, view.nextDueAt)) =
        [(⟨1⟩, .running, .afterSecond), (⟨1⟩, .running, .afterSecond)] ∧
      ¬ delaying.Charted doubled (delaying.run doubled) := by
  have shown : ((delaying.run doubled).census .afterSecond).jobs.map (fun view => (view.id, view.state, view.nextDueAt)) =
      [(⟨1⟩, .running, .afterSecond), (⟨1⟩, .running, .afterSecond)] := by decide +kernel
  refine ⟨doubled_allowed, doubled_settled, by decide +kernel, shown, fun charted => ?_⟩
  have distinct := charted.distinct .afterSecond
  have ids := congrArg (List.map Prod.fst) shown
  rw [List.map_map] at ids
  rw [show ((delaying.run doubled).census .afterSecond).jobs.map (·.id) = [⟨1⟩, ⟨1⟩] from ids] at distinct
  exact absurd distinct (by decide)

end Scheduler

end Rota
