/-
The order in which jobs get their slots. The dispatch loop chooses with a slot in its hands, and it chooses the
foremost of those who wait then; between the getting of the slot and the choice others may only join the lineup
at its end or be cancelled. While nobody joins, those who wait are launched in the order of a stable sort by
descending priority. And a loop that is at rest with a slot to give away has nobody who waits.
-/
import Rota.Proofs.Advance
import Rota.Proofs.Standing
import Mathlib.Data.List.Induction

namespace Rota

/-- A job that waits for a slot waits on, unless it is cancelled or starts to run. -/
theorem Passage.of_enqueued {supply : Supply} {policy : RetryPolicy} {now : Instant} {l : Ledger} {job job' : Job}
    {action : Action} {marks : List Mark} (h : Passage supply policy now l job action marks job') (hm : l.Manned)
    (known : l.job? job.id = some job) (hs : job.state = .enqueued) :
    job' = job ∨ action = .cancel job.id ∨ job'.state = .running := by
  obtain ⟨-, move⟩ := h.move hm known (by rw [hs]; nofun)
  cases move with
  | stays => exact .inl rfl
  | promoted _ state => rw [hs] at state; cases state
  | hurried state => rw [hs] at state; cases state
  | cancelled => exact .inr (.inl rfl)
  | launched => exact .inr (.inr rfl)

/-- A caller gives a job of a plain kind, due at once, with a priority of its own. -/
def Action.prioritized (id : Nat) (priority : Priority) : Action :=
  .schedule .epoch ⟨id⟩ (.ofKind .plain) ((Request.of (.once (.after .zero))).withPriority priority)

theorem Action.fits_prioritized {grain : Grain} {s : Scheduler} {id : Nat} {priority : Priority}
    (unknown : s.board.job? ⟨id⟩ = none) : (Action.prioritized id priority).Fits grain s :=
  ⟨⟨unknown, fun _ _ h => by cases h⟩, fun _ _ _ h => by cases h⟩

namespace Scheduler

/-! ## What holds of a scheduler -/

variable {s s₀ : Scheduler} {now : Instant} {action : Action}

/-- The jobs that an action launches. -/
def launchedBy (s : Scheduler) (now : Instant) (action : Action) : List JobId :=
  (s.act now action).desk.launchedSince s.desk

/-- Those who wait do so under their own priorities. -/
def Ranked (s : Scheduler) : Prop :=
  ∀ w ∈ s.board.lineup.waiters, ∃ job, s.board.job? w.id = some job ∧ job.priority = w.priority

theorem act_advance (hs : s.Sound) (legal : action.Legal s) : Advance s.desk (s.act now action).desk action := by
  have shift : Shift _ _ now _ action _ := act_shift hs legal
  exact shift.advance

theorem Ranked.act (h : s.Ranked) (hs : s.Sound) (legal : action.Legal s) : (s.act now action).Ranked := by
  intro w hw
  rcases (act_advance hs legal).waiter hw with hm | joined
  · obtain ⟨job, hj, hp⟩ := h w hm
    have step : s.Step now action _ := act_step hs legal
    obtain ⟨marks, job', passage, hj', -⟩ := step.effect.passage hj
    exact ⟨job', hj', passage.terms_eq.1.trans hp⟩
  · exact joined

/-- Nobody stands in the lineup twice. -/
theorem lineup_nodup (hs : s.Sound) (hl : ∀ id, s.ledger.Lined id) : s.board.lineup.ids.Nodup := by
  refine List.nodup_iff_count_le_one.2 fun id => ?_
  by_cases hm : id ∈ s.board.lineup.ids
  · obtain ⟨job, hj⟩ := Option.isSome_iff_exists.1 (hs.ledger.held id (.inr (.inr (.inl (Multiset.mem_coe.2 hm)))))
    have := ((hl id).inLine hj).le_one
    rw [count_lineup] at this
    exact Nat.le_trans (Nat.le_add_right _ _) this
  · rw [List.count_eq_zero.2 hm]
    exact Nat.zero_le _

theorem waiters_nodup (hs : s.Sound) (hl : ∀ id, s.ledger.Lined id) : s.board.lineup.waiters.Nodup :=
  (lineup_nodup hs hl).of_map Waiter.id

/-- At rest there is a slot to give away only if nobody waits. -/
theorem Settled.occupied (settled : s.Settled) (attentive : s.desk.Attentive) (on : s.disposed = false)
    (waits : s.board.lineup.waiters ≠ []) : s.freeSlots = 0 := by
  rcases settled.paused.dispatch with hd | hd | ⟨read, hd⟩
  · have off : s.disposed = true := attentive.stops hd
    rw [on] at off
    cases off
  · exact (settled.starved on).1 hd
  · -- whoever waits has rung the bell of a loop that sleeps
    have bell : s.board.lineup.bell = true := attentive.hears (.inr ⟨read, hd⟩) waits
    exact absurd (bell.symm.trans ((settled.starved on).2 read hd)) (by decide)

theorem mem_order {id : JobId} : id ∈ s.desk.order ↔ id ∈ s.chosen ∨ id ∈ s.board.lineup.ids := by
  unfold Desk.order
  rw [List.mem_append, ((Lineup.byPriority_perm _).map (·.id)).mem_iff]
  exact .rfl

/-- Those in the order of launching who wait for a slot go on waiting, unless they are cancelled or launched. -/
theorem order_enqueued (hs : s.Sound) (hl : ∀ id, s.ledger.Lined id) (legal : action.Legal s)
    (waits : ∀ id ∈ s.desk.order, ∃ job, s.board.job? id = some job ∧ job.state = .enqueued)
    (kept : ∀ id ∈ s.desk.order, action ≠ .cancel id)
    (fewer : ∀ id ∈ (s.act now action).desk.order, id ∈ s.desk.order) :
    ∀ id ∈ (s.act now action).desk.order, ∃ job, (s.act now action).board.job? id = some job ∧ job.state = .enqueued := by
  intro id hm
  obtain ⟨job, hj, state⟩ := waits id (fewer id hm)
  have step : s.Step now action _ := act_step hs legal
  obtain ⟨marks, job', passage, hj', -⟩ := step.effect.passage hj
  cases Board.job?_id hj
  refine ⟨job', hj', ?_⟩
  rcases passage.of_enqueued hs.ledger.manned hj state with rfl | cancel | running
  · exact state
  · exact absurd cancel (kept _ (fewer _ hm))
  · -- a running job is neither in the lineup nor chosen
    have lined := (step.effect.lined hs.ledger (hl job.id)).inLine hj'
    rw [running] at lined
    rcases mem_order.1 hm with hc | hw
    · exact absurd hc (List.count_eq_zero.1 lined.2)
    · exact absurd (Multiset.mem_coe.2 hw) (Multiset.count_eq_zero.1 lined.1)

/-! ## Runs without arrivals -/

/-- The jobs that some actions launch, in order. -/
def launches (s : Scheduler) : List (Instant × Action) → List JobId
  | [] => []
  | (now, action) :: rest => s.launchedBy now action ++ (s.act now action).launches rest

/-- Nobody joins the lineup. -/
def Unjoined (s : Scheduler) : List (Instant × Action) → Prop
  | [] => True
  | (now, action) :: rest =>
    (s.act now action).board.lineup.size ≤ s.board.lineup.size ∧ (s.act now action).Unjoined rest

theorem launches_sublist (hs : s.Sound) {grain : Grain} {actions : List (Instant × Action)} (ha : s.Allows grain actions)
    (hu : s.Unjoined actions) : (s.launches actions ++ (s.run actions).desk.order).Sublist s.desk.order := by
  induction actions generalizing s with
  | nil => exact .refl _
  | cons x rest ih =>
    have advance : Advance s.desk (s.act x.1 x.2).desk x.2 := act_advance hs ha.1.legal
    have rest := ih (act_sound hs ha.1.legal) ha.2 hu.2
    unfold launches
    rw [List.append_assoc]
    exact ((List.Sublist.refl _).append rest).trans (advance.order_sublist hu.1)

theorem launches_eq (hs : s.Sound) (hl : ∀ id, s.ledger.Lined id) {grain : Grain} {actions : List (Instant × Action)}
    (ha : s.Allows grain actions) (hu : s.Unjoined actions)
    (waits : ∀ id ∈ s.desk.order, ∃ job, s.board.job? id = some job ∧ job.state = .enqueued)
    (kept : ∀ id ∈ s.desk.order, ∀ x ∈ actions, x.2 ≠ .cancel id) :
    s.launches actions ++ (s.run actions).desk.order = s.desk.order := by
  induction actions generalizing s with
  | nil => rfl
  | cons x rest ih =>
    have step : s.Step x.1 x.2 _ := act_step hs ha.1.legal
    have advance : Advance s.desk (s.act x.1 x.2).desk x.2 := act_advance hs ha.1.legal
    have now : ∀ id ∈ s.desk.order, x.2 ≠ .cancel id := fun id hm => kept id hm x (List.mem_cons_self ..)
    have fewer : ∀ id ∈ (s.act x.1 x.2).desk.order, id ∈ s.desk.order := fun id hm =>
      (advance.order_sublist hu.1).subset (List.mem_append_right _ hm)
    have rest := ih (act_sound hs ha.1.legal) (fun id => step.effect.lined hs.ledger (hl id)) ha.2 hu.2
      (order_enqueued hs hl ha.1.legal waits now fewer)
      fun id hm y hy => kept id (fewer id hm) y (List.mem_cons_of_mem _ hy)
    unfold launches
    rw [List.append_assoc]
    exact (congrArg _ rest).trans (advance.order_eq hu.1 now waits)

/-! ## How a job comes to be launched -/

/-- The dispatch loop takes no step. -/
def Idle (actions : List (Instant × Action)) : Prop := ∀ x ∈ actions, ∀ slotFirst, x.2 ≠ .dispatch slotFirst

theorem Idle.nil : Idle [] := fun _ hx => absurd hx List.not_mem_nil

theorem Idle.snoc {actions : List (Instant × Action)} (h : Idle actions) (idle : ∀ slotFirst, action ≠ .dispatch slotFirst) :
    Idle (actions ++ [(now, action)]) := by
  intro x hx
  rcases List.mem_append.1 hx with hx | hx
  · exact h x hx
  · rw [List.mem_singleton.1 hx]
    exact idle

/-- By the last of some actions the dispatch loop gets the slot it has waited for. -/
def Gets (s₀ : Scheduler) (actions : List (Instant × Action)) : Prop :=
  ∃ earlier now slotFirst, actions = earlier ++ [(now, .dispatch slotFirst)] ∧ (s₀.run earlier).dispatch = .waiting ∧
    (s₀.run actions).dispatch = .granted

/-- A job has been chosen for the slot that the dispatch loop got: of those who waited at the choice it went before
all others, and of those who waited when the slot was got it went before all but those cancelled since. -/
inductive Picked (s₀ : Scheduler) : List (Instant × Action) → JobId → Prop
  | chosen {before since late : List (Instant × Action)} {now : Instant} {slotFirst : Bool} {waiter : Waiter}
    (gets : s₀.Gets before) (idle : Idle since)
    (waits : waiter ∈ (s₀.run (before ++ since)).board.lineup.waiters)
    (best : ∀ other ∈ (s₀.run (before ++ since)).board.lineup.waiters, other ≠ waiter →
      (s₀.run (before ++ since)).board.lineup.Outranks waiter other)
    (bestSince : ∀ other ∈ (s₀.run before).board.lineup.waiters, (∀ x ∈ since, x.2 ≠ .cancel other.id) →
      other ≠ waiter → (s₀.run before).board.lineup.Outranks waiter other)
    (idleSince : Idle late) :
    Picked s₀ (before ++ since ++ (now, .dispatch slotFirst) :: late) waiter.id

theorem act_idle (hs : s.Sound) (legal : action.Legal s) (idle : ∀ slotFirst, action ≠ .dispatch slotFirst) :
    (s.act now action).dispatch = s.dispatch := by
  have shift : Shift _ _ now _ action _ := act_shift hs legal
  exact shift.dispatch_idle idle

theorem passes_run (hs : s.Sound) (hl : ∀ id, s.ledger.Lined id) {grain : Grain} {actions : List (Instant × Action)}
    (ha : s.Allows grain actions) (idle : Idle actions) :
    s.board.lineup.Passes (s.run actions).board.lineup fun id => ∃ x ∈ actions, x.2 = .cancel id := by
  induction actions generalizing s with
  | nil => exact .refl _ _
  | cons x rest ih =>
    have step : s.Step x.1 x.2 _ := act_step hs ha.1.legal
    have hl' : ∀ id, (s.act x.1 x.2).ledger.Lined id := fun id => step.effect.lined hs.ledger (hl id)
    have hs' : (s.act x.1 x.2).Sound := act_sound hs ha.1.legal
    have advance : Advance s.desk (s.act x.1 x.2).desk x.2 := act_advance hs ha.1.legal
    have first := advance.passes (idle x (List.mem_cons_self ..))
    have rest := ih hs' hl' ha.2 fun y hy => idle y (List.mem_cons_of_mem _ hy)
    refine (first.trans rest (waiters_nodup hs' hl')).mono fun id => ?_
    rintro (hx | ⟨y, hy, he⟩)
    · exact ⟨x, List.mem_cons_self .., hx⟩
    · exact ⟨y, List.mem_cons_of_mem _ hy, he⟩

/-- A dispatch loop that has a slot got it at some point, and has not moved since. -/
theorem gets_of_granted (hs : s₀.Sound) (h₀ : s₀.dispatch = .looking) {grain : Grain} {actions : List (Instant × Action)}
    (ha : s₀.Allows grain actions) (hd : (s₀.run actions).dispatch = .granted) :
    ∃ before since, actions = before ++ since ∧ s₀.Gets before ∧ Idle since := by
  induction actions using List.reverseRecOn with
  | nil => cases h₀.symm.trans hd
  | append_singleton actions x ih =>
    obtain ⟨now, action⟩ := x
    obtain ⟨hb, fits, -⟩ := (allows_append ..).1 ha
    have hs' : (s₀.run actions).Sound := run_sound hs hb
    have act : s₀.run (actions ++ [(now, action)]) = (s₀.run actions).act now action := run_append ..
    by_cases moves : ∃ slotFirst, action = .dispatch slotFirst
    · obtain ⟨slotFirst, rfl⟩ := moves
      have shift : Shift _ _ now _ (.dispatch slotFirst) _ := act_shift hs' fits.legal
      refine ⟨actions ++ [(now, .dispatch slotFirst)], [], by simp, ⟨actions, now, slotFirst, rfl, ?_, hd⟩, .nil⟩
      exact shift.dispatch_granted (act ▸ hd)
    · have idle : ∀ slotFirst, action ≠ .dispatch slotFirst := fun slotFirst he => moves ⟨slotFirst, he⟩
      rw [act, act_idle hs' fits.legal idle] at hd
      obtain ⟨before, since, rfl, gets, still⟩ := ih hb hd
      exact ⟨before, since ++ [(now, action)], by simp, gets, still.snoc idle⟩

/-- What is chosen with a slot in hand is the best of those who wait, and of those who have waited since the slot
was got. -/
theorem picked_of_next (hs : s₀.Sound) (hl : ∀ id, s₀.ledger.Lined id) {grain : Grain}
    {before since : List (Instant × Action)} (ha : s₀.Allows grain (before ++ since)) (gets : s₀.Gets before)
    (idle : Idle since) {id : JobId} {rest : Lineup}
    (next : (s₀.run (before ++ since)).board.lineup.takeNext = (some id, rest)) (now : Instant) (slotFirst : Bool) :
    s₀.Picked (before ++ since ++ [(now, .dispatch slotFirst)]) id := by
  obtain ⟨front, waiter, back, waiters, foremost, rfl, -⟩ := Lineup.takeNext_eq_some next
  have best : ∀ other ∈ (s₀.run (before ++ since)).board.lineup.waiters, other ≠ waiter →
      (s₀.run (before ++ since)).board.lineup.Outranks waiter other := fun other hm hn =>
    foremost.outranks waiters hm hn
  refine .chosen gets idle (by rw [waiters]; simp) best (fun other hm stays hn => ?_) .nil
  have nodup := waiters_nodup (run_sound hs ha) fun id => run_lined hs (hl id) ha
  obtain ⟨hb, hsince⟩ := (allows_append ..).1 ha
  have passes := passes_run (run_sound hs hb) (fun id => run_lined hs (hl id) hb) hsince idle
  rw [← run_append] at passes
  -- whoever has waited since then and was not cancelled waits still, and in the same order
  have stays : ¬ ∃ x ∈ since, x.2 = .cancel other.id := fun ⟨x, hx, he⟩ => stays x hx he
  exact passes.outranks nodup hm stays (best other (passes.waits hm stays) hn)

/-- A job in the hand of the dispatch loop has been chosen for the slot that the loop got. -/
theorem picked_of_chosen (hs : s₀.Sound) (hl : ∀ id, s₀.ledger.Lined id) (h₀ : s₀.dispatch = .looking) {grain : Grain}
    {actions : List (Instant × Action)} (ha : s₀.Allows grain actions) {id : JobId}
    (hd : (s₀.run actions).dispatch = .chosen id) : s₀.Picked actions id := by
  induction actions using List.reverseRecOn with
  | nil => cases h₀.symm.trans hd
  | append_singleton actions x ih =>
    obtain ⟨now, action⟩ := x
    obtain ⟨hb, fits, -⟩ := (allows_append ..).1 ha
    have hs' : (s₀.run actions).Sound := run_sound hs hb
    have act : s₀.run (actions ++ [(now, action)]) = (s₀.run actions).act now action := run_append ..
    by_cases moves : ∃ slotFirst, action = .dispatch slotFirst
    · obtain ⟨slotFirst, rfl⟩ := moves
      have shift : Shift _ _ now _ (.dispatch slotFirst) _ := act_shift hs' fits.legal
      obtain ⟨granted, rest, next⟩ := shift.dispatch_chosen (act ▸ hd)
      obtain ⟨before, since, rfl, gets, idle⟩ := gets_of_granted hs h₀ hb granted
      exact picked_of_next hs hl hb gets idle next now slotFirst
    · have idle : ∀ slotFirst, action ≠ .dispatch slotFirst := fun slotFirst he => moves ⟨slotFirst, he⟩
      rw [act, act_idle hs' fits.legal idle] at hd
      cases ih hb hd with
      | chosen gets still waits best bestSince late =>
        rw [List.append_assoc, List.cons_append]
        exact .chosen gets still waits best bestSince (late.snoc idle)

/-- Wherever a run leads, those who wait do so under their own priorities, and the dispatch loop is attentive. -/
theorem Reached.ranked {grain : Grain} (h : s.Reached grain) : s.Ranked ∧ s.desk.Attentive := by
  refine Reached.sound_induct (P := fun s => s.Ranked ∧ s.desk.Attentive) ?_ ?_ h
  · intro number settings s h₀
    cases start_eq h₀
    exact ⟨fun w hw => absurd hw List.not_mem_nil, .moving (by simp [desk])⟩
  · intro s now action hs hp legal
    have shift : Shift s.number s.settings now s.desk action (s.act now action).desk := act_shift hs legal
    exact ⟨hp.1.act hs legal, shift.attentive hp.2⟩

/-- What is to be said of the dispatch loop at one point of a run: of the job it launches next, of those who wait, and
of what comes of them while nobody joins. -/
structure Orderly (s₀ : Scheduler) (actions : List (Instant × Action)) (s : Scheduler) : Prop where
  picks : ∀ now action, action.Legal s → ∀ id ∈ s.launchedBy now action, s₀.Picked actions id
  arrivals : ∀ now action, action.Legal s → ∃ kept joined,
    (s.act now action).board.lineup.waiters = kept ++ joined ∧ kept.Sublist s.board.lineup.waiters ∧ joined.length ≤ 1
  ranked : s.Ranked
  occupied : s.Settled → s.disposed = false → s.board.lineup.waiters ≠ [] → s.freeSlots = 0
  order : ∀ more, s.Allows .fine more → s.Unjoined more →
    (s.launches more ++ (s.run more).desk.order).Sublist s.desk.order
  wholeOrder : ∀ more, s.Allows .fine more → s.Unjoined more →
    (∀ id ∈ s.desk.order, ∃ job, s.board.job? id = some job ∧ job.state = .enqueued) →
    (∀ id ∈ s.desk.order, ∀ x ∈ more, x.2 ≠ .cancel id) → s.launches more ++ (s.run more).desk.order = s.desk.order

/-- Whatever is done to a scheduler, its slots go to those who wait in the order of their priorities and, at one
priority, of their arrival, and no slot stays free at rest while somebody waits. -/
theorem orderly {number : Nat} {settings : Settings} (h₀ : start number settings = .ok s₀)
    {actions : List (Instant × Action)} (ha : s₀.Allows .fine actions) : s₀.Orderly actions (s₀.run actions) := by
  have hs₀ : s₀.Sound := start_sound h₀
  have looking : s₀.dispatch = .looking := by
    cases start_eq h₀
    rfl
  have hl₀ : ∀ id, s₀.ledger.Lined id := fun id job hj => by cases (start_unknown h₀ id).symm.trans hj
  have hs : (s₀.run actions).Sound := run_sound hs₀ ha
  obtain ⟨ranked, attentive⟩ := Reached.ranked ⟨number, settings, s₀, actions, h₀, ha, rfl⟩
  have hl : ∀ id, (s₀.run actions).ledger.Lined id := fun id => run_lined hs₀ (hl₀ id) ha
  constructor
  case picks =>
    intro now action legal id hm
    have advance : Advance _ ((s₀.run actions).act now action).desk action := act_advance hs legal
    exact picked_of_chosen hs₀ hl₀ looking ha (advance.chosen_of_launched hm)
  case arrivals =>
    intro now action legal
    have advance : Advance _ ((s₀.run actions).act now action).desk action := act_advance hs legal
    exact advance.arrivals
  case ranked => exact ranked
  case occupied => exact fun settled on waits => settled.occupied attentive on waits
  case order => exact fun more hm hu => launches_sublist hs hm hu
  case wholeOrder => exact fun more hm hu waits kept => launches_eq hs hl hm hu waits kept

/-- On the one slot a job runs, and three wait for it: two of low priority and, between them, one of high. -/
def contested : List (Instant × Action) :=
  [.plain 1 (.after .zero) (.limited 0), .dispatch true, .dispatch true, .dispatch true, .dispatch true, .begin ⟨1⟩,
    .prioritized 2 .low, .prioritized 3 .high, .prioritized 4 .low, .promotion, .promotion, .promotion,
    .dispatch true].map (.epoch, ·)

theorem contested_allowed : single.Allows .fine contested := by
  refine ⟨Action.fits_plain (by decide +kernel), ?_⟩
  refine ⟨⟨trivial, nofun⟩, ⟨trivial, nofun⟩, ⟨trivial, nofun⟩, ⟨trivial, nofun⟩, ⟨trivial, nofun⟩, ?_⟩
  refine ⟨Action.fits_prioritized (by decide +kernel), Action.fits_prioritized (by decide +kernel),
    Action.fits_prioritized (by decide +kernel), ?_⟩
  exact ⟨⟨trivial, nofun⟩, ⟨trivial, nofun⟩, ⟨trivial, nofun⟩, ⟨trivial, nofun⟩, trivial⟩

theorem contested_settled : (single.run contested).Settled :=
  ⟨⟨.epoch, fun loop => by cases loop <;> decide +kernel⟩, by decide +kernel⟩

theorem orderly_contested :
    (single.run contested).Settled ∧ (single.run contested).freeSlots = 0 ∧
      (single.run contested).board.lineup.ids = [⟨2⟩, ⟨3⟩, ⟨4⟩] ∧ single.Orderly contested (single.run contested) :=
  ⟨contested_settled, by decide +kernel, by decide +kernel, orderly start_single contested_allowed⟩

/-- As the executions end, the one of high priority gets the slot first, and then the others in their order. -/
example : (single.run contested).launches
    ([.conclude ⟨0⟩ .done, .dispatch true, .dispatch true, .dispatch true, .begin ⟨3⟩, .conclude ⟨1⟩ .done,
      .dispatch true, .dispatch true, .dispatch true, .dispatch true, .begin ⟨2⟩, .conclude ⟨2⟩ .done,
      .dispatch true, .dispatch true, .dispatch true, .dispatch true].map (.epoch, ·)) = [⟨3⟩, ⟨2⟩, ⟨4⟩] := by
  decide +kernel

end Scheduler

end Rota
