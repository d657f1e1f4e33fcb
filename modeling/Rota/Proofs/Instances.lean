/-
Who performs the attempts of a job. A job that came with an instance keeps it for every attempt, and none is ever built
for it. For a job given by its kind an instance is built at the beginning of each attempt, unless the job is promoted
out of the hands of the promotion loop after it has failed for good: it still has the instance of its last attempt
then, and is tried again with that.
-/
import Rota.Proofs.Openings
import Rota.Proofs.Retries
import Rota.Proofs.Supplies

namespace Rota

/-! ## The instance of a job -/

/-- A job that is sent back to a queue has let go of an instance that was built for it. -/
theorem Recurrence.released {job job' : Job} {marks : List Mark} {fate : Fate} (h : Recurrence job marks job' fate)
    (hs : job.state.isStopped = true) (waits : job'.state.isStopped = false) (built : job.supplied = false) :
    job'.bound = none := by
  cases h with
  | again => simp [Job.nextOn, Job.release, built]
  | _ => cases hs.symm.trans waits

theorem Sequel.released {policy : RetryPolicy} {now : Instant} {job job' : Job} {ending : Ending} {marks : List Mark}
    {fate : Fate} (h : Sequel policy now job ending marks job' fate) (waits : job'.state.isStopped = false)
    (built : job.supplied = false) : job'.bound = none := by
  cases h with
  | succeeded h => exact h.released rfl waits built
  | retried => simp [Job.retriedAt, Job.failedWith, Job.release, built]
  | exhausted _ h => exact h.released rfl waits built
  | stuck => cases waits

/-- A job given by its kind has no instance while it waits, for its due time, for a slot or for its execution to begin. -/
structure Job.Bare (kind : Kind) (job : Job) (underWay : Bool) : Prop where
  kind : job.kind = kind
  built : job.supplied = false
  unbound : job.state = .scheduled ∨ job.state = .enqueued ∨ job.state = .running ∧ underWay = false → job.bound = none

/-- A job that came with an instance has it. -/
structure Job.Carries (performer : Instance) (job : Job) : Prop where
  supplied : job.supplied = true
  bound : job.bound = some performer

section

variable {supply : Supply} {policy : RetryPolicy} {now : Instant} {l : Ledger} {action : Action} {job job' : Job}
  {marks : List Mark} {underWay underWay' : Bool}

/-- A job given by its kind stays bare, unless it is promoted after it has failed with an instance. -/
theorem Passage.bare {kind : Kind} (h : Passage supply policy now l job action marks job')
    (watches : l.Watches job underWay marks job' underWay')
    (fresh : action = .promotion → l.inHand.head? = some job.id → job.state = .failed → job.bound = none)
    (bare : job.Bare kind underWay) : job'.Bare kind underWay' := by
  cases h with
  | stays =>
    rw [watches.quiet watches.running]
    exact bare
  | promoted hand state =>
    refine ⟨bare.kind, bare.built, fun _ => ?_⟩
    show job.bound = none
    cases hs : job.state with
    | scheduled => exact bare.unbound (.inl hs)
    | failed => exact fresh rfl hand hs
    | notStarted => exact absurd hs (watches.sound.begun _ _ watches.known)
    | _ => rw [hs] at state; cases state
  | hurried state => exact ⟨bare.kind, bare.built, fun _ => bare.unbound (.inl state)⟩
  | cancelled => exact ⟨bare.kind, bare.built, fun hs => (by rcases hs with hs | hs | ⟨hs, -⟩ <;> cases hs)⟩
  | launched state => exact ⟨bare.kind, bare.built, fun _ => bare.unbound (.inr (.inl state))⟩
  | begun waited =>
    obtain ⟨-, running⟩ := watches.waited waited
    refine ⟨bare.kind, bare.built, fun hs => ?_⟩
    rw [watches.after.2 (.inl rfl)] at hs
    rcases hs with hs | hs | ⟨-, hs⟩
    · cases running.symm.trans hs
    · cases running.symm.trans hs
    · cases hs
  | givenUp => exact ⟨bare.kind, bare.built, fun hs => (by rcases hs with hs | hs | ⟨hs, -⟩ <;> cases hs)⟩
  | concluded flies sequel =>
    obtain ⟨kind, supplied, -⟩ := sequel.instance_eq
    refine ⟨kind.trans bare.kind, supplied.trans bare.built, fun hs => sequel.released ?_ bare.built⟩
    rcases hs with hs | hs | ⟨hs, -⟩
    · rw [hs]; rfl
    · rw [hs]; rfl
    · exact absurd hs sequel.not_running

/-- Until an attempt of it begins, a job that was resumed keeps the instance it has. -/
theorem Passage.resumed_bound (h : Passage supply policy now l job action marks job')
    (watches : l.Watches job underWay marks job' underWay') (resumed : job.Resumed underWay)
    (waits : action = .begin job.id → job.id ∉ l.launched) : job'.bound = job.bound := by
  cases h with
  | begun waited => exact absurd waited (waits rfl)
  | givenUp waited => exact absurd waited (waits rfl)
  | concluded flies sequel => exact absurd (watches.concluded flies sequel).1 (by simp [resumed.idle])
  | _ => rfl

theorem Passage.carries {performer : Instance} (h : Passage supply policy now l job action marks job')
    (waits : action = .begin job.id → job.id ∉ l.launched) (carries : job.Carries performer) : job'.Carries performer := by
  cases h with
  | begun waited => exact absurd waited (waits rfl)
  | givenUp waited => exact absurd waited (waits rfl)
  | concluded flies sequel =>
    obtain ⟨-, supplied, bound | ⟨built, -⟩⟩ := sequel.instance_eq
    · exact ⟨supplied.trans carries.supplied, bound.trans carries.bound⟩
    · cases carries.supplied.symm.trans built
  | _ => exact ⟨carries.supplied, carries.bound⟩

end

/-- The numbers of executions never go back. -/
theorem Effect.nextTask_le {supply : Supply} {policy : RetryPolicy} {now : Instant} {l l' : Ledger} {action : Action}
    (h : Effect supply policy now l action l') : l.nextTask ≤ l'.nextTask := by
  cases h with
  | accepted => rw [Ledger.send_nextTask]
  | begun => exact Nat.le_succ _
  | givenUp => exact Nat.le_succ _
  | concluded => simp only [Ledger.discount, Ledger.send_nextTask]; exact Nat.le_refl _
  | _ => exact Nat.le_refl _

namespace Scheduler

/-- All attempts of a job are performed by one instance, none is built for it, and where its instances could come from
makes no difference to any execution of it. -/
structure PerformedBy (s : Scheduler) (id : JobId) (performer : Instance) : Prop where
  attempts : ∀ attempt ∈ s.board.attempts id, attempt.2 = performer
  builds : s.board.builds id = []
  unconsulted : ∀ job, s.board.job? id = some job → ∀ supply now, s.board.begin supply now job = s.board.begin s.supply now job

/-- The attempts of a job are performed by the instances built for it, each by the one that was built at its own
beginning, by the maker that there was then; no two are performed by the same. -/
structure BuiltAnew (s : Scheduler) (id : JobId) (kind : Kind) : Prop where
  attempts : s.board.attempts id = s.board.builds id
  instances : ((s.board.attempts id).map (·.2)).Nodup
  source : ∀ build ∈ s.board.builds id, ∃ maker, (s.settings.supply build.1).maker? kind = some maker ∧
    build.2 = ⟨kind, kind.name, .built build.1 maker⟩

/-- The promotion loop is about to promote a job that has failed since it was taken, with the instance of its last
attempt. -/
structure Reclaims (s : Scheduler) (id : JobId) : Prop where
  next : s.inHand.head? = some id
  failed : ∃ job, s.board.job? id = some job ∧ job.state = .failed ∧ job.bound.isSome = true

/-- A job is promoted after it has failed, with the instance of its last attempt, and later an attempt of it begins. -/
def Recycles (s : Scheduler) (id : JobId) (actions : List (Instant × Action)) : Prop :=
  ∃ before now between now' after, actions = before ++ (now, .promotion) :: between ++ (now', .begin id) :: after ∧
    (s.run before).Reclaims id ∧ id ∈ (s.run (before ++ (now, .promotion) :: between)).launched

variable {s s₀ s' : Scheduler} {now : Instant} {action : Action} {id : JobId} {job : Job} {kind : Kind}
  {performer : Instance}

/-! ## One action -/

theorem known_of_launched (hs : s.Sound) (hl : id ∈ s.launched) : ∃ job, s.board.job? id = some job := by
  obtain ⟨job, hj, -⟩ := (hs.ledger.manned.runs id).1 (Ledger.mem_executions_of_launched (Multiset.mem_coe.2 hl))
  exact ⟨job, hj⟩

/-- The attempts of a job and the instances built for it stay the same until an execution of it begins. -/
theorem act_untouched (hs : s.Sound) (h : action = .begin id → id ∉ s.launched) (now : Instant) :
    (s.act now action).board.attempts id = s.board.attempts id ∧
      (s.act now action).board.builds id = s.board.builds id := by
  have same : (s.act now action).board.openings = s.board.openings →
      (s.act now action).board.attempts id = s.board.attempts id ∧
        (s.act now action).board.builds id = s.board.builds id := fun he => by
    simp only [Board.attempts_eq, Board.builds_eq, he, and_self]
  by_cases hb : ∃ i, action = .begin i
  · obtain ⟨i, rfl⟩ := hb
    by_cases hl : i ∈ s.launched
    · have hi : i ≠ id := fun he => h (by rw [he]) (he ▸ hl)
      obtain ⟨job, hj⟩ := known_of_launched hs hl
      obtain ⟨events, opening, openings⟩ := begin_openings hl hj now
      cases Board.job?_id hj
      rw [Board.attempts_eq, Board.builds_eq, openings, Board.attempts_eq, Board.builds_eq]
      cases opening <;> simp [Event.attempt?, Event.build?, hi]
    · rw [begin_idle hl]
      exact ⟨rfl, rfl⟩
  · exact same (act_openings hs fun i hi => hb ⟨i, hi⟩)

theorem act_next (hs : s.Sound) (legal : action.Legal s) (now : Instant) :
    s.board.inFlight.next ≤ (s.act now action).board.inFlight.next :=
  (act_step hs legal : s.Step now action _).effect.nextTask_le

/-- An execution of a job with an instance is performed by that one. -/
theorem begin_of_bound (hl : id ∈ s.launched) (hj : s.board.job? id = some job)
    (bound : job.bound = some performer) (now : Instant) :
    (s.act now (.begin id)).board.attempts id = (⟨s.board.inFlight.next⟩, performer) :: s.board.attempts id ∧
      (s.act now (.begin id)).board.builds id = s.board.builds id := by
  obtain ⟨events, opening, openings⟩ := begin_openings hl hj now
  cases Board.job?_id hj
  rw [Board.attempts_eq, Board.builds_eq, openings, Board.attempts_eq, Board.builds_eq]
  cases opening with
  | bound h =>
    cases bound.symm.trans h
    simp [Event.attempt?, Event.build?]
  | built unbound => cases bound.symm.trans unbound
  | abandoned unbound => cases bound.symm.trans unbound

/-- The instance that a job without one is executed with is built then and there. -/
theorem begin_of_unbound (hl : id ∈ s.launched) (hj : s.board.job? id = some job) (unbound : job.bound = none)
    (now : Instant) :
    (∃ maker, s.supply.maker? job.kind = some maker ∧
      (s.act now (.begin id)).board.attempts id =
        (⟨s.board.inFlight.next⟩, ⟨job.kind, job.kind.name, .built ⟨s.board.inFlight.next⟩ maker⟩) :: s.board.attempts id ∧
      (s.act now (.begin id)).board.builds id =
        (⟨s.board.inFlight.next⟩, ⟨job.kind, job.kind.name, .built ⟨s.board.inFlight.next⟩ maker⟩) :: s.board.builds id) ∨
      (s.act now (.begin id)).board.attempts id = s.board.attempts id ∧
        (s.act now (.begin id)).board.builds id = s.board.builds id := by
  obtain ⟨events, opening, openings⟩ := begin_openings hl hj now
  cases Board.job?_id hj
  rw [Board.attempts_eq, Board.builds_eq, openings, Board.attempts_eq s.board, Board.builds_eq s.board]
  cases opening with
  | bound h => cases unbound.symm.trans h
  | @built maker _ h => exact .inl ⟨maker, h, by simp [Event.attempt?], by simp [Event.build?]⟩
  | abandoned => exact .inr ⟨rfl, rfl⟩

/-! ## Jobs that came with an instance -/

/-- How it stands with a job that came with an instance. -/
structure Equipped (s : Scheduler) (id : JobId) (performer : Instance) : Prop where
  carries : ∃ job, s.board.job? id = some job ∧ job.Carries performer
  attempts : ∀ attempt ∈ s.board.attempts id, attempt.2 = performer
  builds : s.board.builds id = []

theorem Equipped.performedBy (h : s.Equipped id performer) : s.PerformedBy id performer := by
  refine ⟨h.attempts, h.builds, fun job hj supply now => ?_⟩
  obtain ⟨job', hj', carries⟩ := h.carries
  cases hj'.symm.trans hj
  unfold Board.begin
  rw [carries.bound]

theorem Equipped.act (h : s.Equipped id performer) (hs : s.Sound) (legal : action.Legal s) (now : Instant) :
    (s.act now action).Equipped id performer := by
  obtain ⟨job, hj, carries⟩ := h.carries
  by_cases hb : action = .begin id ∧ id ∈ s.launched
  · obtain ⟨rfl, hl⟩ := hb
    obtain ⟨attempts, builds⟩ := begin_of_bound hl hj carries.bound now
    refine ⟨⟨job, begin_bound hl hj (by simp [carries.bound]) now, carries⟩, ?_, builds.trans h.builds⟩
    rw [attempts, List.forall_mem_cons]
    exact ⟨rfl, h.attempts⟩
  · have waits : action = .begin id → id ∉ s.launched := fun he hl => hb ⟨he, hl⟩
    obtain ⟨attempts, builds⟩ := act_untouched hs waits now
    obtain ⟨marks, job', passage, -, hj', -⟩ := act_passage hs legal now hj
    cases Board.job?_id hj
    refine ⟨⟨job', hj', passage.carries (fun he hl => waits he (Multiset.mem_coe.1 hl)) carries⟩, ?_, builds.trans h.builds⟩
    rw [attempts]
    exact h.attempts

theorem Equipped.run (h : s.Equipped id performer) (hs : s.Sound) {grain : Grain} {actions : List (Instant × Action)}
    (ha : s.Allows grain actions) : (s.run actions).Equipped id performer :=
  run_always (P := (·.Equipped id performer)) (fun _ now _ hs legal h => h.act hs legal now) hs ha h

/-! ## Jobs given by their kind -/

/-- How it stands with a job given by its kind, as long as no instance is used again. -/
structure Anew (s : Scheduler) (id : JobId) (kind : Kind) : Prop where
  bare : ∃ job, s.board.job? id = some job ∧ job.Bare kind (s.underWay id)
  builtAnew : s.BuiltAnew id kind
  below : ∀ build ∈ s.board.builds id, build.1.number < s.board.inFlight.next

theorem BuiltAnew.same (h : s.BuiltAnew id kind) (settings : s'.settings = s.settings)
    (attempts : s'.board.attempts id = s.board.attempts id) (builds : s'.board.builds id = s.board.builds id) :
    s'.BuiltAnew id kind := by
  refine ⟨?_, ?_, ?_⟩
  · rw [attempts, builds]
    exact h.attempts
  · rw [attempts]
    exact h.instances
  · rw [builds, settings]
    exact h.source

theorem Anew.act (h : s.Anew id kind) (hs : s.Sound) (legal : action.Legal s) (now : Instant)
    (fresh : action = .promotion → ¬ s.Reclaims id) : (s.act now action).Anew id kind := by
  obtain ⟨job, hj, bare⟩ := h.bare
  have settings : (s.act now action).settings = s.settings := (act_step hs legal : s.Step now action _).settings
  have next : s.board.inFlight.next ≤ (s.act now action).board.inFlight.next := act_next hs legal now
  have bare' : ∃ job', (s.act now action).board.job? id = some job' ∧ job'.Bare kind ((s.act now action).underWay id) := by
    obtain ⟨marks, job', passage, watches, hj', -⟩ := act_passage hs legal now hj
    cases Board.job?_id hj
    refine ⟨job', hj', passage.bare watches (fun ha hand state => ?_) bare⟩
    by_contra bound
    exact fresh ha ⟨hand, job, hj, state, Option.isSome_iff_ne_none.2 bound⟩
  have kept : (s.act now action).board.attempts id = s.board.attempts id →
      (s.act now action).board.builds id = s.board.builds id → (s.act now action).Anew id kind := fun attempts builds => by
    refine ⟨bare', h.builtAnew.same settings attempts builds, ?_⟩
    rw [builds]
    exact fun build hb => Nat.lt_of_lt_of_le (h.below build hb) next
  by_cases hb : action = .begin id ∧ id ∈ s.launched
  · obtain ⟨rfl, hl⟩ := hb
    -- whoever is about to begin has no instance yet
    have unbound : job.bound = none := by
      obtain ⟨_, _, _, watches, _⟩ := act_passage hs legal now hj
      cases Board.job?_id hj
      obtain ⟨idle, running⟩ := watches.waited (Multiset.mem_coe.2 hl)
      exact bare.unbound (.inr (.inr ⟨running, idle⟩))
    rcases begin_of_unbound hl hj unbound now with ⟨maker, hm, attempts, builds⟩ | ⟨attempts, builds⟩
    · rw [bare.kind] at hm attempts builds
      constructor
      case bare => exact bare'
      case below =>
        rw [builds, begin_next hs hl, List.forall_mem_cons]
        exact ⟨Nat.lt_succ_self _, fun build hb => Nat.lt_succ_of_lt (h.below build hb)⟩
      case builtAnew =>
        constructor
        case attempts => rw [attempts, builds, h.builtAnew.attempts]
        case instances =>
          rw [attempts, List.map_cons, List.nodup_cons]
          refine ⟨fun hm => ?_, h.builtAnew.instances⟩
          -- an earlier one would have been built under an earlier number
          obtain ⟨build, hb, he⟩ := List.mem_map.1 hm
          rw [h.builtAnew.attempts] at hb
          obtain ⟨maker', -, made⟩ := h.builtAnew.source build hb
          have earlier := h.below build hb
          rw [made] at he
          simp only [Instance.mk.injEq, Origin.built.injEq, true_and] at he
          rw [he.1] at earlier
          exact Nat.lt_irrefl _ earlier
        case source =>
          rw [builds, settings, List.forall_mem_cons]
          exact ⟨⟨maker, hm, rfl⟩, h.builtAnew.source⟩
    · exact kept attempts builds
  · obtain ⟨attempts, builds⟩ := act_untouched hs (fun he hl => hb ⟨he, hl⟩) now
    exact kept attempts builds

/-- Nothing is built or performed for a job while no execution of it begins. -/
theorem run_untouched (hs : s.Sound) {grain : Grain} {actions : List (Instant × Action)} (ha : s.Allows grain actions)
    (waits : ∀ before now after, actions = before ++ (now, .begin id) :: after → id ∉ (s.run before).launched) :
    (s.run actions).board.attempts id = s.board.attempts id ∧ (s.run actions).board.builds id = s.board.builds id := by
  induction actions generalizing s with
  | nil => exact ⟨rfl, rfl⟩
  | cons x rest ih =>
    obtain ⟨now, action⟩ := x
    have waits' : action = .begin id → id ∉ s.launched := by
      rintro rfl
      exact waits [] now rest rfl
    obtain ⟨attempts, builds⟩ := act_untouched hs waits' now
    obtain ⟨attempts', builds'⟩ := ih (act_sound hs ha.1.legal) ha.2 fun before now' after hb =>
      waits ((now, action) :: before) now' after (by rw [hb]; rfl)
    exact ⟨attempts'.trans attempts, builds'.trans builds⟩

/-- Unless the job recycles an instance, each of its attempts gets one built anew. -/
theorem Anew.run (h : s.Anew id kind) (hs : s.Sound) {grain : Grain} {actions : List (Instant × Action)}
    (ha : s.Allows grain actions) (once : ¬ s.Recycles id actions) : (s.run actions).BuiltAnew id kind := by
  induction actions generalizing s with
  | nil => exact h.builtAnew
  | cons x rest ih =>
    obtain ⟨now, action⟩ := x
    have hs' : (s.act now action).Sound := act_sound hs ha.1.legal
    -- once it is promoted with its instance no attempt of it begins any more
    by_cases hr : action = .promotion ∧ s.Reclaims id
    · obtain ⟨rfl, reclaims⟩ := hr
      have waits : Action.promotion = .begin id → id ∉ s.launched := nofun
      obtain ⟨attempts, builds⟩ := act_untouched hs waits now
      obtain ⟨attempts', builds'⟩ := run_untouched hs' ha.2 fun before now' after hb hl =>
        once ⟨[], now, before, now', after, by rw [hb]; rfl, reclaims, hl⟩
      refine h.builtAnew.same ?_ (attempts'.trans attempts) (builds'.trans builds)
      exact run_settings hs ha
    · refine ih (h.act hs ha.1.legal now fun hp reclaims => hr ⟨hp, reclaims⟩) hs' ha.2 ?_
      rintro ⟨before, now₁, between, now₂, after, he, reclaims, hl⟩
      exact once ⟨(now, action) :: before, now₁, between, now₂, after, by rw [he]; rfl, reclaims, hl⟩

/-- An execution that begins with an instance from before does not have one built anew. -/
theorem not_builtAnew_of_bound (hl : id ∈ s.launched) (hj : s.board.job? id = some job) (bound : job.bound.isSome = true)
    (now : Instant) (before : s.BuiltAnew id kind) : ¬ (s.act now (.begin id)).BuiltAnew id kind := by
  intro after
  obtain ⟨performer, hb⟩ := Option.isSome_iff_exists.1 bound
  obtain ⟨attempts, builds⟩ := begin_of_bound hl hj hb now
  have longer := congrArg List.length after.attempts
  rw [attempts, builds, ← before.attempts, List.length_cons] at longer
  omega

/-- A resumed job keeps its instance, and the first attempt of it that begins is performed by that. -/
theorem not_builtAnew_of_resumed (hs : s.Sound) {grain : Grain} {between : List (Instant × Action)} {last : Instant}
    (ha : s.Allows grain (between ++ [(last, .begin id)])) (hj : s.board.job? id = some job)
    (resumed : job.Resumed (s.underWay id)) (bound : job.bound.isSome = true) (hl : id ∈ (s.run between).launched)
    (anew : ∀ before after, between ++ [(last, .begin id)] = before ++ after → (s.run before).BuiltAnew id kind) : False := by
  induction between generalizing s job with
  | nil => exact not_builtAnew_of_bound hl hj bound last (anew [] _ rfl) (anew [(last, .begin id)] [] rfl)
  | cons x rest ih =>
    obtain ⟨now, action⟩ := x
    by_cases hb : action = .begin id ∧ id ∈ s.launched
    · obtain ⟨rfl, waited⟩ := hb
      exact not_builtAnew_of_bound waited hj bound now (anew [] _ rfl) (anew [(now, .begin id)] _ rfl)
    · have waits : action = .begin id → id ∉ s.launched := fun he hl => hb ⟨he, hl⟩
      obtain ⟨marks, job', passage, watches, hj', -⟩ := act_passage hs ha.1.legal now hj
      cases Board.job?_id hj
      have waits : action = .begin job.id → job.id ∉ s.ledger.launched := fun he hl => waits he (Multiset.mem_coe.1 hl)
      obtain ⟨-, resumed', -⟩ := passage.resumed watches resumed waits
      refine ih (act_sound hs ha.1.legal) ha.2 hj' resumed' ?_ hl fun before after he => ?_
      · rw [passage.resumed_bound watches resumed waits]
        exact bound
      · exact anew ((now, action) :: before) after (by rw [List.cons_append, he]; rfl)

/-- If each attempt of the job gets an instance built anew, it recycles none. -/
theorem not_recycles (hs : s.Sound) {grain : Grain} {actions : List (Instant × Action)} (ha : s.Allows grain actions)
    (anew : ∀ before after, actions = before ++ after → (s.run before).BuiltAnew id kind) : ¬ s.Recycles id actions := by
  rintro ⟨before, now, between, last, after, rfl, reclaims, hl⟩
  obtain ⟨job, hj, state, bound⟩ := reclaims.failed
  rw [List.append_assoc, allows_append] at ha
  obtain ⟨hb, -, ha⟩ := ha
  obtain ⟨hbetween, hbegin, -⟩ := (allows_append ..).1 ha
  have hs' : (s.run before).Sound := run_sound hs hb
  have hs₁ : ((s.run before).act now .promotion).Sound := act_sound hs' trivial
  have reopens : (s.run before).Reopens id := ⟨reclaims.next, job, hj, state⟩
  obtain ⟨-, job₁, -, -, -, hj₁, resumed, -⟩ := reopens.resumes hs' now
  cases (promotion_job? hj reclaims.next (by rw [state]; rfl)).symm.trans hj₁
  rw [run_append] at hl
  have ha₁ : ((s.run before).act now .promotion).Allows grain (between ++ [(last, .begin id)]) :=
    (allows_append ..).2 ⟨hbetween, hbegin, trivial⟩
  have anew₁ : ∀ first rest, between ++ [(last, .begin id)] = first ++ rest →
      (((s.run before).act now .promotion).run first).BuiltAnew id kind := by
    intro first rest he
    have split : before ++ (now, .promotion) :: between ++ (last, .begin id) :: after =
        (before ++ (now, .promotion) :: first) ++ (rest ++ after) := by
      have shifted := congrArg (before ++ (now, .promotion) :: · ++ after) he
      simpa using shifted
    have := anew _ _ split
    rwa [run_append] at this
  exact not_builtAnew_of_resumed hs₁ ha₁ hj₁ resumed bound hl anew₁

/-! ## Runs -/

/-- A job that is not known has made no attempt, and no instance was built for it. -/
theorem Reached.unopened {grain : Grain} (h : s.Reached grain) (unknown : s.board.job? id = none) :
    s.board.attempts id = [] ∧ s.board.builds id = [] := by
  refine Reached.sound_induct
    (P := fun s => s.board.job? id = none → s.board.attempts id = [] ∧ s.board.builds id = []) ?_ ?_ h unknown
  · intro number settings s h₀ _
    cases start_eq h₀
    exact ⟨rfl, rfl⟩
  · intro s now action hs ih legal unknown
    have step : s.Step now action _ := act_step hs legal
    cases hj : s.board.job? id with
    | some job =>
      obtain ⟨_, job', -, hj', -⟩ := step.effect.passage hj
      cases hj'.symm.trans unknown
    | none =>
      obtain ⟨attempts, builds⟩ := ih hj
      have waits : action = .begin id → id ∉ s.launched := by
        intro _ hl
        obtain ⟨job, hk⟩ := known_of_launched hs hl
        cases hj.symm.trans hk
      obtain ⟨attempts', builds'⟩ := act_untouched hs waits now
      exact ⟨attempts'.trans attempts, builds'.trans builds⟩

/-- A job that has just been accepted has made no attempt. -/
theorem accepted_unopened (h : s.Reached .fine) {work : Work} {request : Request} (unknown : s.board.job? id = none)
    (accepted : s.schedule made now id work request = .ok (.ok s')) :
    (∃ (plan : Plan) (state : State), s'.board.job? id = some (plan.job id work s.number state)) ∧
      s'.board.attempts id = [] ∧ s'.board.builds id = [] := by
  obtain ⟨plan, -, accepted⟩ := schedule_eq_ok accepted
  obtain ⟨state, -, known, -⟩ := accept_job? unknown accepted
  obtain ⟨attempts, builds⟩ := h.unopened unknown
  have openings : s'.board.openings = s.board.openings := accept_openings accepted
  refine ⟨⟨plan, state, known⟩, ?_, ?_⟩
  · rw [Board.attempts_eq, openings, ← Board.attempts_eq, attempts]
  · rw [Board.builds_eq, openings, ← Board.builds_eq, builds]

/-- Whatever comes after its acceptance, a job that came with an instance is performed by that one at every attempt; and
one that was given by its kind is performed by an instance built anew at each of them, in just those runs in which it is
not tried again with an old one after it has failed. -/
theorem instances_iff (h : s.Reached .fine) {work : Work} {request : Request}
    (legal : (Action.schedule made id work request).Legal s) (accepted : s.schedule made now id work request = .ok (.ok s'))
    {actions : List (Instant × Action)} (ha : s'.Allows .fine actions) :
    (∀ performer, work = .supplied performer → (s'.run actions).PerformedBy id performer) ∧
      ∀ kind, work = .ofKind kind →
        ((∀ before after, actions = before ++ after → (s'.run before).BuiltAnew id kind) ↔ ¬ s'.Recycles id actions) := by
  have after : s.act now (.schedule made id work request) = s' := by
    simp only [act, accepted]
    rfl
  have sound : s'.Sound := after ▸ act_sound h.sound legal
  obtain ⟨⟨plan, state, known⟩, attempts, builds⟩ := accepted_unopened h legal.1 accepted
  constructor
  · rintro performer rfl
    have equipped : s'.Equipped id performer :=
      ⟨⟨_, known, rfl, rfl⟩, fun attempt hm => absurd hm (attempts ▸ List.not_mem_nil), builds⟩
    exact (equipped.run sound ha).performedBy
  · rintro kind rfl
    have anew : s'.Anew id kind := by
      refine ⟨⟨_, known, rfl, rfl, fun _ => rfl⟩, ⟨attempts.trans builds.symm, ?_, ?_⟩, ?_⟩
      · rw [attempts]
        exact List.nodup_nil
      · rw [builds]
        exact fun build hm => absurd hm List.not_mem_nil
      · rw [builds]
        exact fun build hm => absurd hm List.not_mem_nil
    constructor
    · exact not_recycles sound ha
    · rintro once before after rfl
      refine anew.run sound ((allows_append ..).1 ha).1 ?_
      rintro ⟨first, now, between, last, rest, rfl, reclaims, hl⟩
      exact once ⟨first, now, between, last, rest ++ after, by simp, reclaims, hl⟩

/-- A job that is retried once gets an instance for each of its two attempts. -/
theorem instances_iff_retriedOnce :
    (single.run retriedOnce).board.attempts ⟨1⟩ =
        [(⟨1⟩, ⟨.plain, "Plain", .built ⟨1⟩ .default⟩), (⟨0⟩, ⟨.plain, "Plain", .built ⟨0⟩ .default⟩)] ∧
      (single.run retriedOnce).BuiltAnew ⟨1⟩ .plain := by
  have first : retriedOnce = retriedOnce.take 1 ++ retriedOnce.drop 1 := (List.take_append_drop ..).symm
  have reached : single.Reached .fine := ⟨0, _, single, [], start_single, trivial, rfl⟩
  have accepted : single.schedule .epoch .epoch ⟨1⟩ (.ofKind .plain) ((Request.of (.once (.after .zero))).withLimit (.limited 1)) =
      .ok (.ok (single.run (retriedOnce.take 1))) := rfl
  have allowed : (single.run (retriedOnce.take 1)).Allows .fine (retriedOnce.drop 1) := by
    have := retriedOnce_allowed
    rw [first, allows_append] at this
    exact this.2
  refine ⟨by decide +kernel, ?_⟩
  rw [first, run_append]
  refine ((instances_iff reached ⟨rfl, fun _ _ h => by cases h⟩ accepted allowed).2 .plain rfl).2 ?_ _ [] (by simp)
  -- no job is ever promoted here
  rintro ⟨before, now, between, last, after, he, -⟩
  have promoted : (now, Action.promotion) ∈ retriedOnce.drop 1 := by simp [he]
  simp [retriedOnce] at promoted

/-- A job that is tried again after it has failed for good is performed twice by one instance. -/
theorem triedAgain_not_builtAnew :
    single.Allows .fine triedAgain ∧
      (single.run triedAgain).board.attempts ⟨1⟩ =
        [(⟨1⟩, ⟨.plain, "Plain", .built ⟨0⟩ .default⟩), (⟨0⟩, ⟨.plain, "Plain", .built ⟨0⟩ .default⟩)] ∧
      (single.run triedAgain).board.builds ⟨1⟩ = [(⟨0⟩, ⟨.plain, "Plain", .built ⟨0⟩ .default⟩)] ∧
      ¬ (single.run triedAgain).BuiltAnew ⟨1⟩ .plain := by
  have attempts : (single.run triedAgain).board.attempts ⟨1⟩ =
      [(⟨1⟩, ⟨.plain, "Plain", .built ⟨0⟩ .default⟩), (⟨0⟩, ⟨.plain, "Plain", .built ⟨0⟩ .default⟩)] := by decide +kernel
  have builds : (single.run triedAgain).board.builds ⟨1⟩ = [(⟨0⟩, ⟨.plain, "Plain", .built ⟨0⟩ .default⟩)] := by
    decide +kernel
  refine ⟨triedAgain_allowed, attempts, builds, fun anew => ?_⟩
  have lengths := congrArg List.length anew.attempts
  rw [attempts, builds] at lengths
  cases lengths

end Scheduler

end Rota
