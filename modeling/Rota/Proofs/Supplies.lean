/-
Whether there is an instance for a job. A registry gives what was registered for a kind last. With such a registry, or
with no provider at all, a scheduler can build whatever it accepts, at every attempt; so no job of its is ever given up
for want of an instance.
-/
import Rota.Attempt
import Rota.Proofs.Steps
import Mathlib.Data.List.Induction

namespace Rota

/-! ## Registries -/

namespace Registry

/-- The registry that comes of some calls, each of which registers a maker for a kind. -/
def ofCalls (calls : List (Kind × String)) : Registry :=
  calls.foldl (fun registry call => registry.register call.1 call.2) .empty

/-- The maker that the last of some calls for a kind registers, if there is one. -/
def lastFor (calls : List (Kind × String)) (kind : Kind) : Option String :=
  (calls.reverse.find? fun call => call.1.same kind).map (·.2)

/-- A maker replaces what was registered for its kind, and nothing else. -/
theorem maker?_register (registry : Registry) (kind : Kind) (tag : String) (other : Kind) :
    (registry.register kind tag).maker? other = if kind.same other then some tag else registry.maker? other := by
  have others := lookup_filter_key (fun name => name != kind.name) other.name registry.makers
  unfold maker? register Kind.same
  by_cases h : kind.name = other.name
  · simp [h]
  · have h' : (other.name == kind.name) = false := beq_eq_false_iff_ne.2 (Ne.symm h)
    rw [List.lookup_cons, h', others]
    simp [h, Ne.symm h]

theorem maker?_ofCalls (calls : List (Kind × String)) (kind : Kind) : (ofCalls calls).maker? kind = lastFor calls kind := by
  -- by induction on the calls from the last one back, which decides
  induction calls using List.reverseRecOn with
  | nil => rfl
  | append_singleton calls call ih =>
    have last : ofCalls (calls ++ [call]) = (ofCalls calls).register call.1 call.2 := by
      unfold ofCalls
      rw [List.foldl_append]
      rfl
    rw [last, maker?_register, ih]
    unfold lastFor
    rw [List.reverse_append, List.reverse_singleton, List.singleton_append, List.find?_cons]
    cases call.1.same kind <;> rfl

end Registry

namespace Supply

/-- Where a scheduler's instances come from that has no provider, or a registry that comes of some calls. -/
def ofCalls (calls : Option (List (Kind × String))) : Supply :=
  ⟨calls.map fun calls => (Registry.ofCalls calls).provider⟩

/-- The maker of a kind: the last to be registered for it, or else its default constructor. -/
def makerFor (calls : Option (List (Kind × String))) (kind : Kind) : Option Maker :=
  match calls.bind (Registry.lastFor · kind) with
  | some tag => some (.provider tag)
  | none => if kind.hasDefault then some .default else none

/-- Whatever can be built, as it is said beforehand, there is a maker of. -/
def Agrees (supply : Supply) : Prop := ∀ kind, supply.canBuild kind = true ↔ (supply.maker? kind).isSome = true

theorem maker?_ofCalls (calls : Option (List (Kind × String))) (kind : Kind) :
    (ofCalls calls).maker? kind = makerFor calls kind := by
  cases calls with
  | none => rfl
  | some calls =>
    unfold maker? makerFor
    rw [Option.bind_some, ← Registry.maker?_ofCalls]
    rfl

theorem agrees_ofCalls (calls : Option (List (Kind × String))) : (ofCalls calls).Agrees := by
  intro kind
  have provided : (ofCalls calls).provider.any (·.canProvide kind) = (calls.bind (Registry.lastFor · kind)).isSome := by
    cases calls with
    | none => rfl
    | some calls =>
      rw [Option.bind_some, ← Registry.maker?_ofCalls]
      rfl
  rw [maker?_ofCalls]
  unfold canBuild makerFor
  rw [provided]
  cases calls.bind (Registry.lastFor · kind) with
  | some tag => simp
  | none => cases kind.hasDefault <;> simp

end Supply

/-! ## Endings -/

/-- Whether an attempt may end so. -/
def Ending.OfAttempt (ending : Ending) : Prop := ∃ (attempt : Attempt) (time : Nat), attempt.result = some (time, ending)

theorem Outcome.ending_ne_instantiation (outcome : Outcome) (message : String) :
    outcome.ending ≠ .failed .instantiation message := by
  cases outcome <;> simp [Outcome.ending]

/-- No attempt ends with the failure that is kept for want of an instance. -/
theorem Ending.OfAttempt.ne_instantiation {ending : Ending} (h : ending.OfAttempt) (message : String) :
    ending ≠ .failed .instantiation message := by
  obtain ⟨attempt, time, h⟩ := h
  have unlimited : ∀ time ending, attempt.unlimited = some (time, ending) → ending ≠ .failed .instantiation message := by
    intro time ending h
    unfold Attempt.unlimited at h
    split at h
    · cases h
    · obtain ⟨_, -, he⟩ := Option.map_eq_some_iff.1 h
      cases he
      exact Outcome.ending_ne_instantiation _ _
    · cases h
      exact Outcome.ending_ne_instantiation _ _
  unfold Attempt.result at h
  split at h
  · exact unlimited _ _ h
  · cases h
    exact Outcome.ending_ne_instantiation _ _
  · split at h
    · split at h
      · rename_i ended _
        cases h
        exact unlimited _ _ ended
      · cases h
        nofun
    · cases h
      nofun

/-! ## What becomes of a job's instance -/

/-- A job keeps its kind and whether it came with its instance; and it keeps the instance bound to it, or lets go of
one that was built for it. -/
theorem Recurrence.instance_eq {job job' : Job} {marks : List Mark} {fate : Fate} (h : Recurrence job marks job' fate) :
    job'.kind = job.kind ∧ job'.supplied = job.supplied ∧
      (job'.bound = job.bound ∨ job.supplied = false ∧ job'.bound = none) := by
  cases h with
  | again =>
    refine ⟨by simp [Job.nextOn], by simp [Job.nextOn], ?_⟩
    cases hs : job.supplied <;> simp [Job.nextOn, Job.release, hs]
  | _ => exact ⟨rfl, rfl, .inl rfl⟩

theorem Sequel.instance_eq {policy : RetryPolicy} {now : Instant} {job job' : Job} {ending : Ending} {marks : List Mark}
    {fate : Fate} (h : Sequel policy now job ending marks job' fate) :
    job'.kind = job.kind ∧ job'.supplied = job.supplied ∧
      (job'.bound = job.bound ∨ job.supplied = false ∧ job'.bound = none) := by
  cases h with
  | succeeded h => exact h.instance_eq
  | retried =>
    refine ⟨by simp [Job.retriedAt, Job.failedWith], by simp [Job.retriedAt, Job.failedWith], ?_⟩
    cases hs : job.supplied <;> simp [Job.retriedAt, Job.failedWith, Job.release, hs]
  | exhausted _ h => exact h.instance_eq
  | stuck => exact ⟨rfl, rfl, .inl rfl⟩

/-- The failures after an attempt are those before it, and the one in which it ended, if it did. -/
theorem Sequel.failure {policy : RetryPolicy} {now : Instant} {job job' : Job} {ending : Ending} {marks : List Mark}
    {fate : Fate} (h : Sequel policy now job ending marks job' fate) {failure : Failure} (hm : failure ∈ job'.failures) :
    failure ∈ job.failures ∨ ending = .failed failure.kind failure.details := by
  have added : ∀ kind message, failure ∈ (job.failedWith kind message now).failures →
      failure ∈ job.failures ∨ (.failed kind message : Ending) = .failed failure.kind failure.details := by
    intro kind message hm
    rcases List.mem_append.1 hm with hm | hm
    · exact .inl hm
    · rw [List.mem_singleton.1 hm]
      exact .inr rfl
  cases h with
  | succeeded h => exact .inl (h.failures_eq ▸ hm)
  | retried =>
    rw [Job.retriedAt, Job.release_failures] at hm
    exact added _ _ hm
  | exhausted _ h => exact added _ _ (h.failures_eq ▸ hm)
  | stuck => exact added _ _ hm

/-- There is an instance for every attempt of a job, and has been for those so far. -/
structure Job.WellSupplied (job : Job) (supply : Supply) (annals : List Mark) : Prop where
  instances : job.supplied = true ∧ job.bound.isSome = true ∨ (supply.maker? job.kind).isSome = true
  failures : ∀ failure ∈ job.failures, failure.kind ≠ .instantiation
  carriedOut : .abandoned ∉ annals

theorem Recurrence.not_abandoned {job job' : Job} {marks : List Mark} {fate : Fate} (h : Recurrence job marks job' fate) :
    .abandoned ∉ marks := by
  cases h <;> simp

theorem Sequel.not_abandoned {policy : RetryPolicy} {now : Instant} {job job' : Job} {ending : Ending} {marks : List Mark}
    {fate : Fate} (h : Sequel policy now job ending marks job' fate) : .abandoned ∉ marks := by
  cases h with
  | succeeded h => simpa using h.not_abandoned
  | retried => simp
  | exhausted _ h => simpa using h.not_abandoned
  | stuck => simp

/-- A job stays well supplied, whatever comes of it. -/
theorem Passage.wellSupplied {supply : Supply} {policy : RetryPolicy} {now : Instant} {l : Ledger} {job job' : Job}
    {action : Action} {marks past : List Mark} (h : Passage supply policy now l job action marks job')
    (attempted : ∀ task ending, action = .conclude task ending → ending.OfAttempt) (hp : job.WellSupplied supply past) :
    job'.WellSupplied supply (marks ++ past) := by
  cases h with
  | begun =>
    refine ⟨?_, hp.failures, by simpa using hp.carriedOut⟩
    rcases hp.instances with ⟨supplied, -⟩ | maker
    · exact .inl ⟨supplied, rfl⟩
    · exact .inr maker
  | givenUp waited unbound unsupplied =>
    rcases hp.instances with ⟨-, bound⟩ | maker
    · rw [unbound] at bound
      cases bound
    · rw [unsupplied] at maker
      cases maker
  | @concluded task ending job' marks fate flying sequel =>
    obtain ⟨kind, supplied, bound⟩ := sequel.instance_eq
    constructor
    case instances =>
      rw [kind, supplied]
      rcases hp.instances with ⟨given, bound₀⟩ | maker
      · rcases bound with bound | ⟨built, -⟩
        · exact .inl ⟨given, bound ▸ bound₀⟩
        · cases given.symm.trans built
      · exact .inr maker
    case failures =>
      intro failure hm kind'
      rcases sequel.failure hm with old | new
      · exact hp.failures failure old kind'
      · rw [kind'] at new
        exact (attempted task ending rfl).ne_instantiation _ new
    case carriedOut =>
      rw [List.mem_append]
      exact not_or.2 ⟨sequel.not_abandoned, hp.carriedOut⟩
  | _ => exact ⟨hp.instances, hp.failures, hp.carriedOut⟩

/-- A plan's job is well supplied if its work brings an instance, or there is a maker of its kind. -/
theorem Plan.wellSupplied {supply : Supply} {work : Work}
    (h : work.performer?.isSome = true ∨ (supply.maker? work.kind).isSome = true) (plan : Plan) (id : JobId) (number : Nat)
    (state : State) : (plan.job id work number state).WellSupplied supply [] := by
  refine ⟨?_, fun failure hm => absurd hm List.not_mem_nil, List.not_mem_nil⟩
  rcases h with brought | maker
  · exact .inl ⟨brought, brought⟩
  · exact .inr maker

namespace Scheduler

variable {s s₀ : Scheduler} {now : Instant} {action : Action} {id : JobId}

/-! ## What is accepted -/

theorem accept_ne_unbuildable {work : Work} {plan : Plan} {name : String} :
    s.accept now id work plan ≠ .error (.unbuildable name) := by
  have moved : ∀ (board : Board) operation, (∀ job moved, operation job = .error moved → moved ≠ .unbuildable name) →
      board.move id operation ≠ .error (.unbuildable name) := by
    intro board operation refused h
    unfold Board.move at h
    split at h
    · cases h
    · rename_i job _
      cases ho : operation job with
      | ok job => rw [ho] at h; cases h
      | error refusal =>
        rw [ho] at h
        cases h
        exact refused job _ ho rfl
  have refused : ∀ operation target (job : Job) refusal, job.move operation target = .error refusal →
      refusal ≠ .unbuildable name := by
    intro operation target job refusal h
    unfold Job.move at h
    split at h <;> cases h
    nofun
  intro h
  unfold accept at h
  split at h
  · cases h
  · dsimp only at h
    split at h
    all_goals
      simp only [Except.map] at h
      split at h <;> cases h
      rename_i h
      exact moved _ _ (refused _ _) h

/-- Work is refused as unbuildable just if it is given by a kind that is said to be so. -/
theorem schedule_unbuildable_iff {made : Instant} {work : Work} {request : Request} {name : String} :
    s.schedule made now id work request = .ok (.error (.unbuildable name)) ↔
      work.performer? = none ∧ s.supply.canBuild work.kind = false ∧ name = work.kind.name := by
  unfold schedule
  split
  next h =>
    obtain ⟨given, unbuildable⟩ : work.performer? = none ∧ s.supply.canBuild work.kind = false := by simpa using h
    simp [given, unbuildable, eq_comm]
  next h =>
    refine iff_of_false ?_ fun hn => h (by simp [hn.1, hn.2.1])
    intro he
    cases hp : request.plan made with
    | error fault => rw [hp] at he; cases he
    | ok answer =>
      rw [hp] at he
      simp only [Except.map, Except.ok.injEq] at he
      cases answer with
      | error refusal =>
        obtain ⟨cause, rfl⟩ := Request.plan_refused hp
        cases he
      | ok plan => exact accept_ne_unbuildable he

/-- Work that is accepted brings an instance, or is of a kind that is said to be buildable. -/
theorem buildable_of_accepted {made : Instant} {work : Work} {request : Request} {s' : Scheduler}
    (h : s.schedule made now id work request = .ok (.ok s')) :
    work.performer?.isSome = true ∨ s.supply.canBuild work.kind = true := by
  unfold schedule at h
  split at h
  next => cases h
  next hn =>
    cases hp : work.performer? with
    | some performer => exact .inl rfl
    | none => exact .inr (by simpa [hp] using hn)

/-! ## Every attempt -/

/-- All jobs of a scheduler are well supplied. -/
def Provides (s : Scheduler) (supply : Supply) : Prop :=
  ∀ id job, s.board.job? id = some job → job.WellSupplied supply (s.board.annals id)

theorem Provides.act {supply : Supply} (h : s.Provides supply) (hs : s.Sound) (steady : s.supply = supply)
    (agrees : supply.Agrees) (legal : action.Legal s)
    (attempted : ∀ task ending, action = .conclude task ending → ending.OfAttempt) : (s.act now action).Provides supply := by
  intro id job' hj'
  have step : s.Step now action _ := act_step hs legal
  subst steady
  cases hj : s.board.job? id with
  | some job =>
    obtain ⟨marks, job'', passage, hj'', annals⟩ := step.effect.passage hj
    have annals : (s.act now action).board.annals id = marks ++ s.board.annals id := annals
    cases hj''.symm.trans hj'
    rw [annals]
    exact passage.wellSupplied attempted (h id job hj)
  | none =>
    obtain ⟨_, work, request, plan, state, -, -, accepted, -, rfl⟩ := act_turns_up hs legal hj hj'
    have annals : (s.act now action).board.annals id = s.board.annals id := (step.effect.turns_up hj).1
    have unheard : s.board.annals id = [] := hs.ledger.unheard id hj
    rw [annals, unheard]
    refine Plan.wellSupplied ?_ plan id s.number state
    exact (buildable_of_accepted accepted).imp_right (agrees work.kind).1

theorem run_provides {supply : Supply} (h : s.Provides supply) (hs : s.Sound)
    (steady : ∀ task, s.settings.supply task = supply) (agrees : supply.Agrees) {grain : Grain}
    {actions : List (Instant × Action)} (ha : s.Allows grain actions)
    (attempted : ∀ x ∈ actions, ∀ task ending, x.2 = .conclude task ending → ending.OfAttempt) :
    (s.run actions).Provides supply := by
  refine (run_invariant (P := fun s => s.Provides supply ∧ ∀ task, s.settings.supply task = supply)
    (Q := fun x => ∀ task ending, x = .conclude task ending → ending.OfAttempt) ?_ hs ha attempted ⟨h, steady⟩).1
  rintro s now action hs legal attempted ⟨h, steady⟩
  have step : s.Step now action _ := act_step hs legal
  refine ⟨h.act hs (steady _) agrees legal attempted, ?_⟩
  rw [step.settings]
  exact steady

/-- What is to be said of a scheduler whose provider, if it has one, is a registry that comes of some calls: what it
says it can build it can, with the maker registered last; it refuses just the kinds whose executions would be given up,
and it never gives one up. -/
structure Dependable (calls : Option (List (Kind × String))) (s : Scheduler) : Prop where
  agrees : ∀ kind, s.supply.canBuild kind = true ↔ ∃ maker, s.supply.maker? kind = some maker
  maker : ∀ kind, s.supply.maker? kind = Supply.makerFor calls kind
  refused : ∀ made now id kind request,
    s.schedule made now id (.ofKind kind) request = .ok (.error (.unbuildable kind.name)) ↔
      ∀ (board : Board) now (job : Job), job.kind = kind → job.bound = none →
        (board.begin s.supply now job).1 = .abandoned
  instances : ∀ made now id performer request name,
    s.schedule made now id (.supplied performer) request ≠ .ok (.error (.unbuildable name))
  failures : ∀ id job, s.board.job? id = some job → ∀ failure ∈ job.failures, failure.kind ≠ .instantiation
  carriedOut : ∀ id, .abandoned ∉ s.board.annals id

/-- Without an instance an execution is given up just if there is no maker. -/
theorem begin_abandoned_iff {supply : Supply} {kind : Kind} :
    supply.maker? kind = none ↔ ∀ (board : Board) now (job : Job), job.kind = kind → job.bound = none →
      (board.begin supply now job).1 = .abandoned := by
  constructor
  · rintro unsupplied board now job rfl unbound
    unfold Board.begin
    rw [unbound, unsupplied]
  · intro abandoned
    let job := Job.new ⟨0⟩ kind none .medium .unlimited .epoch .never none
    have := abandoned .empty .epoch job rfl rfl
    unfold Board.begin at this
    cases hm : supply.maker? kind with
    | none => rfl
    | some maker =>
      rw [show job.bound = none from rfl, show job.kind = kind from rfl, hm] at this
      cases this

/-- Whatever a scheduler with a registry or without a provider is put through, there is an instance for every attempt of
a job it has accepted. -/
theorem dependable {number : Nat} {settings : Settings} {calls : Option (List (Kind × String))}
    (supplied : ∀ task, settings.supply task = Supply.ofCalls calls) (h₀ : start number settings = .ok s₀)
    {actions : List (Instant × Action)} (ha : s₀.Allows .fine actions)
    (attempted : ∀ x ∈ actions, ∀ task ending, x.2 = .conclude task ending → ending.OfAttempt) :
    Dependable calls (s₀.run actions) := by
  have sound : s₀.Sound := start_sound h₀
  have steady : ∀ task, s₀.settings.supply task = Supply.ofCalls calls := by
    cases start_eq h₀
    exact supplied
  have supply : (s₀.run actions).supply = Supply.ofCalls calls := by
    unfold Scheduler.supply
    rw [run_settings sound ha]
    exact steady _
  have provides : (s₀.run actions).Provides (Supply.ofCalls calls) := by
    refine run_provides (fun id job hj => ?_) sound steady (Supply.agrees_ofCalls calls) ha attempted
    cases start_eq h₀
    cases hj
  have said : ∀ kind, (s₀.run actions).supply.canBuild kind = true ↔ ((s₀.run actions).supply.maker? kind).isSome = true :=
    supply ▸ Supply.agrees_ofCalls calls
  constructor
  case agrees => exact fun kind => (said kind).trans Option.isSome_iff_exists
  case maker => exact fun kind => supply ▸ Supply.maker?_ofCalls calls kind
  case refused =>
    intro made now id kind request
    have unsaid : (s₀.run actions).supply.canBuild kind = false ↔ (s₀.run actions).supply.maker? kind = none := by
      rw [← Bool.not_eq_true, said kind, Option.not_isSome_iff_eq_none]
    rw [schedule_unbuildable_iff, ← begin_abandoned_iff, ← unsaid]
    exact ⟨fun h => h.2.1, fun h => ⟨rfl, h, rfl⟩⟩
  case instances =>
    intro made now id performer request name h
    cases (schedule_unbuildable_iff.1 h).1
  case failures => exact fun id job hj => (provides id job hj).failures
  case carriedOut =>
    intro id
    cases hj : (s₀.run actions).board.job? id with
    | some job => exact (provides id job hj).carriedOut
    | none =>
      have unheard : (s₀.run actions).board.annals id = [] := (run_sound sound ha).ledger.unheard id hj
      rw [unheard]
      exact List.not_mem_nil

/-- A scheduler with a registry in which two makers have been registered for a kind without a default constructor. -/
def stocked : Scheduler :=
  { single with
    settings := { single.settings with
      provider := (Supply.ofCalls (some [(Kind.plain.provided, "first"), (Kind.plain.provided, "second")])).provider } }

/-- A job of that kind fails at its first attempt and succeeds at its second. -/
def suppliedTwice : List (Instant × Action) :=
  [.schedule .epoch ⟨1⟩ (.ofKind Kind.plain.provided) ((Request.of (.once (.after .zero))).withLimit (.limited 1)),
    .dispatch true, .dispatch true, .dispatch true, .dispatch true, .begin ⟨1⟩, .conclude ⟨0⟩ (.failed .panic ""),
    .dispatch true, .dispatch true, .dispatch true, .dispatch true, .begin ⟨1⟩, .conclude ⟨1⟩ .done].map (.epoch, ·)

theorem suppliedTwice_allowed : stocked.Allows .fine suppliedTwice := by
  refine ⟨⟨⟨by decide +kernel, fun _ _ h => by cases h⟩, nofun⟩, ?_⟩
  exact .of_not_brings rfl

theorem suppliedTwice_attempted {x : Instant × Action} (hx : x ∈ suppliedTwice) {task : TaskId} {ending : Ending}
    (h : x.2 = .conclude task ending) : ending.OfAttempt := by
  simp only [suppliedTwice, List.map_cons, List.map_nil, List.mem_cons, List.not_mem_nil, or_false] at hx
  rcases hx with rfl | rfl | rfl | rfl | rfl | rfl | rfl | rfl | rfl | rfl | rfl | rfl | rfl <;> cases h
  · exact ⟨⟨⟨some 0, .panic (.text "")⟩, ⟨some 0, .done⟩, .none⟩, 0, rfl⟩
  · exact ⟨⟨⟨some 0, .done⟩, ⟨some 0, .done⟩, .none⟩, 0, rfl⟩

theorem start_stocked : start 0 stocked.settings = .ok stocked := rfl

/-- Both attempts are made with instances of the maker that was registered last. -/
theorem dependable_suppliedTwice :
    (stocked.run suppliedTwice).board.journal.filter (· matches .built ..) =
        [.built ⟨1⟩ ⟨1⟩ Kind.plain.provided (.provider "second"), .built ⟨1⟩ ⟨0⟩ Kind.plain.provided (.provider "second")] ∧
      Dependable (some [(Kind.plain.provided, "first"), (Kind.plain.provided, "second")]) (stocked.run suppliedTwice) :=
  ⟨by decide +kernel, dependable (fun _ => rfl) start_stocked suppliedTwice_allowed fun _ hx _ _ => suppliedTwice_attempted hx⟩

/-- With a provider that has nothing to give any more after the first execution, the job is given up at its second
attempt. -/
example :
    let failing := { stocked with
      settings := { stocked.settings with
        answers := fun task provider => if task.number = 0 then provider else ⟨provider.canProvide, fun _ => none⟩ } }
    ((failing.run (suppliedTwice.take 12)).board.job? ⟨1⟩).map (fun job => (job.finished, job.failures.map (·.kind))) =
      some (true, [.panic, .instantiation]) := by
  decide +kernel

end Scheduler

end Rota
