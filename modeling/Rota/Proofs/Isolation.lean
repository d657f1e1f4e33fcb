/-
Schedulers at one site keep out of each other's way. They share a clock and the numbers that are drawn for jobs, and a
caller may give any of them a job that another has accepted, which is refused. So each fares as it would alone, up to
the numbers of its jobs.

A run of the site is a list of deeds, each done at the seat of one scheduler at an instant of its own. The deeds that
matter to a scheduler are those done at its seat, less the calls with jobs of others.
-/
import Rota.Proofs.Renaming
import Rota.Proofs.Submission
import Mathlib.Order.Monotone.Basic

namespace Rota

/-! ## Deeds -/

/-- What a caller holds of a job: the seat of the scheduler that accepted it, and its place among the jobs accepted
there. -/
structure Handle where
  owner : Nat
  place : Nat

/-- What a caller may demand with a job, which may be that of another scheduler. -/
inductive Demand
  | cancel
  | performNow

/-- What a scheduler does by itself, or when it is told to. -/
inductive Motion
  | dispose
  | shutDown
  | abandon
  | promotion
  | dispatch (slotFirst : Bool)
  /-- The execution begins of a job that has been launched, given its place among the jobs of the scheduler. -/
  | begin (place : Nat)
  | conclude (task : TaskId) (ending : Ending)

/-- Something that is done to a scheduler at a site, or that it does. -/
inductive Deed
  | schedule (work : Work) (request : Request)
  | demand (demand : Demand) (handle : Handle)
  | motion (motion : Motion)

/-- A deed, with the instant it is done at and the seat of the scheduler that it concerns. -/
structure Done where
  now : Instant
  seat : Nat
  deed : Deed

namespace Demand

def operation : Demand → Operation
  | cancel => .cancel
  | performNow => .performNow

def made : Demand → Scheduler → Job → Except Refusal Scheduler
  | cancel => Scheduler.cancel
  | performNow => Scheduler.performNow

/-- The action of a scheduler that a demand is, with a job of its own. -/
def action : Demand → JobId → Action
  | cancel => .cancel
  | performNow => .performNow

end Demand

/-- A cron schedule has been read from a text. -/
def Deed.Read : Deed → Prop
  | .schedule _ request => ∀ cron delay, request.timing = .cron cron delay → ∃ text, Cron.parse? text = some cron
  | _ => True

/-- How many numbers are drawn for a deed that is not refused. -/
def Deed.draws : Deed → Nat
  | .schedule .. => 1
  | _ => 0

/-- The action of a scheduler that a motion is. -/
def Motion.action? (s : Scheduler) : Motion → Option Action
  | .dispose => some .dispose
  | .shutDown => some .shutDown
  | .abandon => some .abandon
  | .promotion => some .promotion
  | .dispatch slotFirst => some (.dispatch slotFirst)
  | .begin place => s.board.jobs[place]?.map fun job => .begin job.id
  | .conclude task ending => some (.conclude task ending)

/-- No motion brings a job. -/
theorem Motion.brings_action? (motion : Motion) {s : Scheduler} {action : Action} (h : motion.action? s = some action) :
    action.brings = false := by
  cases motion with
  | begin place =>
    obtain ⟨job, -, rfl⟩ := Option.map_eq_some_iff.1 h
    rfl
  | _ => cases h; rfl

namespace Site

/-- The job behind a handle. -/
def held? (site : Site) (handle : Handle) : Option Job :=
  (site.scheduler? handle.owner).bind fun s => s.board.jobs[handle.place]?

def setClock (site : Site) (now : Instant) : Site := { site with opened := now, elapsed := 0 }

/-- Makes a demand to a scheduler with a job. -/
def make (site : Site) (demand : Demand) (seat : Nat) (job : Job) : Except Refusal Site :=
  match demand with
  | .cancel => site.cancel seat job
  | .performNow => site.performNow seat job

/-- A site after a deed at a seat. One that is refused leaves it as it is. -/
def deed (site : Site) (seat : Nat) : Deed → Site
  | .schedule work request => ((site.schedule seat work request).toOption.bind (·.toOption)).elim site (·.2)
  | .demand demand handle => ((site.held? handle).bind fun job => (site.make demand seat job).toOption).getD site
  | .motion motion => site.update seat fun s => (motion.action? s).elim s (s.act site.now)

def did (site : Site) (done : Done) : Site := (site.setClock done.now).deed done.seat done.deed

/-- A site after a run. -/
def run (site : Site) (course : List Done) : Site := course.foldl did site

end Site

/-- A deed at a seat as it would be done if the scheduler there were alone at a site. It would get no calls with jobs of
others. -/
def Deed.alone (seat : Nat) : Deed → Option Deed
  | .demand what handle => if handle.owner = seat then some (.demand what ⟨0, handle.place⟩) else none
  | deed => some deed

def Done.alone (seat : Nat) (done : Done) : Option Done :=
  if done.seat = seat then (done.deed.alone seat).map (⟨done.now, 0, ·⟩) else none

/-- Alone or not, a scheduler draws as many numbers for a deed. -/
theorem Deed.draws_alone (deed : Deed) {seat : Nat} {own : Deed} (h : deed.alone seat = some own) :
    own.draws = deed.draws ∧ deed.draws ≤ 1 := by
  cases deed with
  | schedule work request => cases h; exact ⟨rfl, Nat.le_refl 1⟩
  | motion motion => cases h; exact ⟨rfl, Nat.zero_le 1⟩
  | demand what handle =>
    simp only [alone] at h
    split at h
    next => cases h; exact ⟨rfl, Nat.zero_le 1⟩
    next => cases h

theorem Deed.Read.alone {deed own : Deed} (read : deed.Read) {seat : Nat} (h : deed.alone seat = some own) : own.Read := by
  cases deed with
  | schedule work request => cases h; exact read
  | motion motion => cases h; trivial
  | demand what handle =>
    simp only [Deed.alone] at h
    split at h
    next => cases h; trivial
    next => cases h

/-! ## What becomes of a scheduler by a deed -/

theorem toOption_eq_some_iff {ε α : Type} {x : Except ε α} {a : α} : x.toOption = some a ↔ x = .ok a := by
  cases x <;> simp [Except.toOption]

/-- A scheduler after a deed, if that is not refused. -/
def Deed.on (site : Site) (s : Scheduler) : Deed → Option Scheduler
  | .schedule work request => (s.schedule site.now site.now site.nextId work request).toOption.bind (·.toOption)
  | .demand what handle => (site.held? handle).bind fun job => (what.made s job).toOption
  | .motion step => some ((step.action? s).elim s (s.act site.now))

namespace Site

variable {site : Site} {seat : Nat} {s s' : Scheduler} {deed : Deed}

@[simp] theorem now_setClock (site : Site) (now : Instant) : (site.setClock now).now = now := by
  have same : (site.setClock now).now = (Instant.ofNanos? (now.nanos + (0 * nanosPerMilli : Nat))).getD .latest := rfl
  rw [same, Nat.zero_mul, Int.natCast_zero, Int.add_zero]
  unfold Instant.ofNanos?
  rw [dif_pos now.bounded]
  rfl

/-- What a deed makes of a site if it is not refused: the scheduler at the seat becomes another, and the rest stay. -/
structure Effect (site : Site) (seat : Nat) (deed : Deed) (s' : Scheduler) (after : Site) : Prop where
  scheduler?_eq : ∀ i, after.scheduler? i = if seat = i then (site.scheduler? i).map fun _ => s'.muted else site.scheduler? i
  accepted_eq : after.accepted = site.accepted + deed.draws
  engagements_eq : after.engagements = site.engagements

theorem effect_rouse (site : Site) (seat : Nat) (deed : Deed) (s' : Scheduler) :
    Effect site seat deed s' ({ site.replace seat s' with accepted := site.accepted + deed.draws }.rouse seat) := by
  obtain ⟨loops, he⟩ := rouse_eq { site.replace seat s' with accepted := site.accepted + deed.draws } seat
  rw [he]
  refine ⟨site.scheduler?_replace seat s', rfl, engagements_append fun turn ht => ?_⟩
  obtain ⟨loop, -, rfl⟩ := List.mem_map.1 ht
  rfl

theorem make_eq_attempt (site : Site) (demand : Demand) (seat : Nat) (job : Job) :
    site.make demand seat job = site.attempt seat (demand.made · job) := by cases demand <;> rfl

theorem make_of_there (there : site.scheduler? seat = some s) (demand : Demand) (job : Job) :
    site.make demand seat job = (demand.made s job).map fun after => (site.replace seat after).rouse seat := by
  rw [make_eq_attempt]
  unfold attempt
  rw [there]

theorem schedule_of_there (there : site.scheduler? seat = some s) (work : Work) (request : Request) :
    site.schedule seat work request = (s.schedule site.now site.now site.nextId work request).map (·.map fun after =>
      (site.nextId, { site.replace seat after with accepted := site.accepted + 1 }.rouse seat)) := by
  unfold schedule
  rw [there]

/-- Where nobody has a seat, nothing is done. -/
theorem deed_of_absent (h : site.scheduler? seat = none) (deed : Deed) : site.deed seat deed = site := by
  cases deed with
  | schedule work request =>
    simp only [Site.deed, schedule, h]
    rfl
  | demand demand handle =>
    simp only [Site.deed, make_eq_attempt, attempt, h]
    cases site.held? handle <;> rfl
  | motion motion => simp only [Site.deed, update, h]

theorem deed_refused (there : site.scheduler? seat = some s) (refused : deed.on site s = none) :
    site.deed seat deed = site := by
  cases deed with
  | schedule work request =>
    simp only [Site.deed, schedule_of_there there]
    simp only [Deed.on] at refused
    rcases he : s.schedule site.now site.now site.nextId work request with fault | refusal | s'
    · rfl
    · rfl
    · rw [he] at refused
      cases refused
  | demand demand handle =>
    simp only [Site.deed, make_of_there there]
    simp only [Deed.on] at refused
    cases hj : site.held? handle with
    | none => rfl
    | some job =>
      rw [hj, Option.bind_some] at refused
      cases he : demand.made s job with
      | error refusal => simp only [Option.bind_some, he]; rfl
      | ok s' => rw [he] at refused; cases refused
  | motion motion => cases refused

theorem deed_done (there : site.scheduler? seat = some s) (done : deed.on site s = some s') :
    Effect site seat deed s' (site.deed seat deed) := by
  cases deed with
  | schedule work request =>
    simp only [Site.deed, schedule_of_there there]
    simp only [Deed.on] at done
    obtain ⟨answer, planned, accepted⟩ := Option.bind_eq_some_iff.1 done
    rw [toOption_eq_some_iff] at planned accepted
    rw [planned, accepted]
    exact site.effect_rouse seat (.schedule work request) s'
  | demand demand handle =>
    simp only [Site.deed, make_of_there there]
    simp only [Deed.on] at done
    obtain ⟨job, held, met⟩ := Option.bind_eq_some_iff.1 done
    rw [toOption_eq_some_iff] at met
    simp only [held, Option.bind_some, met]
    exact site.effect_rouse seat (.demand demand handle) s'
  | motion motion =>
    simp only [Site.deed, update, there]
    cases done
    exact site.effect_rouse seat (.motion motion) _

theorem did_refused (done : Done) (there : site.scheduler? done.seat = some s)
    (refused : done.deed.on (site.setClock done.now) s = none) : site.did done = site.setClock done.now := by
  have there' : (site.setClock done.now).scheduler? done.seat = some s := there
  exact deed_refused there' refused

theorem did_done (done : Done) (there : site.scheduler? done.seat = some s)
    (result : done.deed.on (site.setClock done.now) s = some s') :
    Effect (site.setClock done.now) done.seat done.deed s' (site.did done) := by
  have there' : (site.setClock done.now).scheduler? done.seat = some s := there
  exact deed_done there' result

/-- A deed draws a number at most. -/
theorem accepted_deed (site : Site) (seat : Nat) (deed : Deed) :
    (site.deed seat deed).accepted = site.accepted ∨ (site.deed seat deed).accepted = site.accepted + 1 := by
  cases there : site.scheduler? seat with
  | none => exact .inl (congrArg accepted (deed_of_absent there deed))
  | some s =>
    cases done : deed.on site s with
    | none => exact .inl (congrArg accepted (deed_refused there done))
    | some s' =>
      rw [(deed_done there done).accepted_eq]
      cases deed <;> simp [Deed.draws]

/-- A deed leaves the other seats alone. -/
theorem scheduler?_deed_of_ne {i : Nat} (h : seat ≠ i) (deed : Deed) : (site.deed seat deed).scheduler? i = site.scheduler? i := by
  cases there : site.scheduler? seat with
  | none => rw [deed_of_absent there]
  | some s =>
    cases done : deed.on site s with
    | none => rw [deed_refused there done]
    | some s' => rw [(deed_done there done).scheduler?_eq, if_neg h]

end Site

/-! ## Demands with jobs of others -/

namespace Demand

variable {s s' : Scheduler} {job : Job}

theorem made_foreign (demand : Demand) (foreign : job.owner ≠ some s.number) :
    demand.made s job = .error (.badArgument (.foreignJob demand.operation job.id)) := by
  have refused : ∀ operation, s.ensureOwned job operation = .error (.badArgument (.foreignJob operation job.id)) := by
    intro operation
    unfold Scheduler.ensureOwned Job.isOwnedBy
    rw [if_neg (by simpa using foreign)]
  cases demand
  · simp only [made, Scheduler.cancel, refused]
    rfl
  · simp only [made, Scheduler.performNow, refused]
    rfl

/-- With a job of its own, a demand to a scheduler is an action of it. -/
theorem made_eq_act (demand : Demand) (known : s.board.job? job.id = some job) (h : demand.made s job = .ok s') (now : Instant) :
    s.act now (demand.action job.id) = s' := by
  cases demand <;>
  · simp only [made] at h
    simp only [action, Scheduler.act, known, Option.bind_some, h]
    rfl

theorem made_renamed (ρ : Renaming) (demand : Demand) (s : Scheduler) (job : Job) :
    demand.made (s.renamed ρ) (job.renamed ρ) = ρ.answer (Scheduler.renamed ρ) (demand.made s job) := by
  cases demand
  · exact s.cancel_renamed ρ job
  · exact s.performNow_renamed ρ job

end Demand

namespace Site

variable {site : Site} {seat : Nat} {s s' : Scheduler} {deed : Deed} {handle : Handle} {job : Job}

/-- A job is known at the seat of the scheduler that accepted it, and bears its number. -/
theorem Sound.held (h : site.Sound) (held : site.held? handle = some job) :
    ∃ s, site.scheduler? handle.owner = some s ∧ s.board.job? job.id = some job ∧ job.owner = some handle.owner := by
  obtain ⟨s, there, hj⟩ := Option.bind_eq_some_iff.1 held
  have seated := h.seated _ s there
  have known : s.board.job? job.id = some job := find?_of_mem seated.sound.ledger.distinct (List.mem_of_getElem? hj)
  exact ⟨s, there, known, seated.number ▸ seated.owns _ job known⟩

/-- A scheduler meets no demand with a job of another, whatever has become of the job. -/
theorem Sound.made_foreign (h : site.Sound) (there : site.scheduler? seat = some s) (held : site.held? handle = some job)
    (foreign : handle.owner ≠ seat) (demand : Demand) :
    demand.made s job = .error (.badArgument (.foreignJob demand.operation job.id)) := by
  obtain ⟨_, -, -, owner⟩ := h.held held
  refine demand.made_foreign fun own => foreign ?_
  rw [(h.seated seat s there).number] at own
  exact Option.some.inj (owner.symm.trans own)

/-- Whatever a deed makes of a scheduler comes of an action that it may take. -/
theorem Sound.on_eq_act (h : site.Sound) (there : site.scheduler? seat = some s) (read : deed.Read)
    (done : deed.on site s = some s') :
    s' = s ∨ ∃ action : Action, s' = s.act site.now action ∧ action.Legal s ∧
      ∀ made id work request, action = .schedule made id work request → id.number ≤ site.accepted + deed.draws := by
  cases deed with
  | schedule work request =>
    refine .inr ⟨.schedule site.now site.nextId work request, ?_, ⟨h.unknown there, read⟩, fun _ id _ _ he => ?_⟩
    · simp only [Deed.on] at done
      simp only [Scheduler.act, done]
      rfl
    · cases he
      exact Nat.le_refl _
  | demand demand handle =>
    obtain ⟨job, held, met⟩ := Option.bind_eq_some_iff.1 done
    rw [toOption_eq_some_iff] at met
    obtain ⟨owner, seated, known, -⟩ := h.held held
    by_cases own : handle.owner = seat
    · rw [own, there] at seated
      cases seated
      refine .inr ⟨demand.action job.id, (demand.made_eq_act known met _).symm, ?_, fun made id work request ha => ?_⟩
      · cases demand <;> trivial
      · cases demand <;> cases ha
    · cases met.symm.trans (h.made_foreign there held own demand)
  | motion motion =>
    cases done
    cases ha : motion.action? s with
    | none => exact .inl rfl
    | some action =>
      have brings := motion.brings_action? ha
      refine .inr ⟨action, rfl, (Action.fits_of_not_brings brings).legal, fun made id work request he => ?_⟩
      cases he
      cases brings

theorem Sound.setClock (h : site.Sound) (now : Instant) : (site.setClock now).Sound := ⟨h.seated, h.silent, h.engaged, h.apart⟩

/-- Where no attempt is under way that a deed might cut short, a site stays sound. -/
theorem Sound.after_deed (h : site.Sound) (nobody : site.engagements = []) (read : deed.Read) (seat : Nat) :
    (site.deed seat deed).Sound ∧ (site.deed seat deed).engagements = [] := by
  cases there : site.scheduler? seat with
  | none =>
    rw [deed_of_absent there]
    exact ⟨h, nobody⟩
  | some s =>
    cases done : deed.on site s with
    | none =>
      rw [deed_refused there done]
      exact ⟨h, nobody⟩
    | some s' =>
      have effect := deed_done there done
      have idle : (site.deed seat deed).engagements = [] := effect.engagements_eq.trans nobody
      have drawn : site.accepted ≤ site.accepted + deed.draws := Nat.le_add_right _ _
      have seated : s'.Seated seat (site.accepted + deed.draws) := by
        rcases h.on_eq_act there read done with rfl | ⟨action, rfl, legal, new⟩
        · exact (h.seated seat s' there).mono drawn
        · exact (h.seated seat s there).act legal drawn new
      refine ⟨⟨?seated, ?silent, ?engaged, ?apart⟩, idle⟩
      case seated =>
        intro i si hi
        rw [effect.scheduler?_eq] at hi
        rw [effect.accepted_eq]
        split at hi
        next he =>
          obtain ⟨-, -, rfl⟩ := Option.map_eq_some_iff.1 hi
          exact he ▸ seated.muted
        next => exact (h.seated i si hi).mono drawn
      case silent =>
        intro i si hi
        rw [effect.scheduler?_eq] at hi
        split at hi
        next =>
          obtain ⟨-, -, rfl⟩ := Option.map_eq_some_iff.1 hi
          rfl
        next => exact h.silent i si hi
      case engaged =>
        rw [idle]
        intro e he
        cases he
      case apart =>
        rw [idle]
        exact List.nodup_nil

theorem Sound.did (h : site.Sound) (nobody : site.engagements = []) (done : Done) (read : done.deed.Read) :
    (site.did done).Sound ∧ (site.did done).engagements = [] :=
  (h.setClock done.now).after_deed nobody read done.seat

theorem Sound.run (h : site.Sound) (nobody : site.engagements = []) {course : List Done}
    (read : ∀ done ∈ course, done.deed.Read) : (site.run course).Sound := by
  induction course generalizing site with
  | nil => exact h
  | cons done course ih =>
    rw [List.forall_mem_cons] at read
    obtain ⟨sound, nobody⟩ := h.did nobody done read.1
    exact ih sound nobody read.2

end Site

/-! ## A scheduler among others and alone -/

/-- Whether a job is accepted does not depend on its number, as long as that is new. -/
theorem Scheduler.isSome_schedule {s : Scheduler} {id id' : JobId} (h : s.board.job? id = none) (h' : s.board.job? id' = none)
    (made now : Instant) (work : Work) (request : Request) :
    ((s.schedule made now id work request).toOption.bind (·.toOption)).isSome =
      ((s.schedule made now id' work request).toOption.bind (·.toOption)).isSome := by
  unfold schedule
  split
  · rfl
  · rcases request.plan made with fault | refusal | plan
    · rfl
    · rfl
    · show (s.accept now id work plan).toOption.isSome = (s.accept now id' work plan).toOption.isSome
      cases hd : s.disposed with
      | true => simp only [accept, hd, if_true]
      | false =>
        by_cases due : plan.dueAt ≤ now
        · rw [accept_due h hd work due, accept_due h' hd work due]
          rfl
        · rw [accept_ahead h hd work due, accept_ahead h' hd work due]
          rfl

theorem Motion.action?_renamed (ρ : Renaming) (motion : Motion) (s : Scheduler) :
    motion.action? (s.renamed ρ) = (motion.action? s).map (Action.renamed ρ) := by
  cases motion with
  | begin place =>
    show ((s.board.jobs.map (Job.renamed ρ))[place]?.map fun job => Action.begin job.id) = _
    rw [List.getElem?_map, Option.map_map]
    simp only [action?, Option.map_map]
    rfl
  | _ => rfl

namespace Site

variable {ρ : Renaming} {lone site : Site} {seat : Nat} {s : Scheduler} {deed own : Deed}

/-- A deed with which a scheduler alone would not be bothered does nothing to it. -/
theorem Sound.on_foreign (h : site.Sound) (there : site.scheduler? seat = some s) (foreign : deed.alone seat = none) :
    deed.on site s = none := by
  cases deed with
  | schedule work request => cases foreign
  | motion motion => cases foreign
  | demand demand handle =>
    simp only [Deed.alone] at foreign
    split at foreign
    next => cases foreign
    next other =>
      simp only [Deed.on]
      cases held : site.held? handle with
      | none => rfl
      | some job =>
        rw [Option.bind_some, h.made_foreign there held other]
        rfl

/-- A deed does to a scheduler among others what it does to it alone, up to the numbers. -/
theorem on_alone (hl : lone.Sound) (hs : site.Sound) (clock : lone.now = site.now) (there : lone.scheduler? 0 = some s)
    (there' : site.scheduler? seat = some (s.renamed ρ)) (alone : deed.alone seat = some own)
    (named : deed.draws = 1 → (deed.on site (s.renamed ρ)).isSome → ρ.job lone.nextId = site.nextId) :
    deed.on site (s.renamed ρ) = (own.on lone s).map (Scheduler.renamed ρ) := by
  cases deed with
  | schedule work request =>
    cases alone
    have renamed := s.schedule_renamed ρ lone.now lone.now lone.nextId work request
    have new : (s.renamed ρ).board.job? (ρ.job lone.nextId) = none := by
      rw [Scheduler.renamed_board, Board.job?_renamed, hl.unknown there]
      rfl
    have same := Scheduler.isSome_schedule (hs.unknown there') new site.now site.now work request
    simp only [Deed.on] at named ⊢
    rw [clock] at renamed ⊢
    cases granted : ((s.renamed ρ).schedule site.now site.now site.nextId work request).toOption.bind (·.toOption) with
    | some s' => rw [← renamed, named rfl (Option.isSome_of_mem granted), granted]
    | none =>
      rw [granted, renamed] at same
      cases refused : (s.schedule site.now site.now lone.nextId work request).toOption.bind (·.toOption) with
      | none => rfl
      | some s' => rw [refused] at same; cases same
  | demand demand handle =>
    simp only [Deed.alone] at alone
    split at alone
    next he =>
      cases alone
      have held : site.held? handle = (lone.held? ⟨0, handle.place⟩).map (Job.renamed ρ) := by
        unfold held?
        rw [he, there, there']
        exact List.getElem?_map
      simp only [Deed.on, held]
      cases lone.held? ⟨0, handle.place⟩ with
      | none => rfl
      | some job =>
        simp only [Option.map_some, Option.bind_some, demand.made_renamed]
        cases demand.made s job <;> rfl
    next => cases alone
  | motion motion =>
    cases alone
    simp only [Deed.on, Motion.action?_renamed, ← clock]
    cases motion.action? s with
    | none => rfl
    | some action => exact congrArg some (s.act_renamed ρ lone.now action)

/-- By what it has done at its seat, a scheduler fares among others as it does alone; and a number is drawn for it in
both, or in neither. -/
theorem did_alone (hl : lone.Sound) (hs : site.Sound) (there : lone.scheduler? 0 = some s)
    (there' : site.scheduler? seat = some (s.renamed ρ)) (alone : deed.alone seat = some own) (now : Instant)
    (named : (site.did ⟨now, seat, deed⟩).accepted ≠ site.accepted →
      ρ.job lone.nextId = ⟨(site.did ⟨now, seat, deed⟩).accepted⟩) :
    ∃ s' drawn, (lone.did ⟨now, 0, own⟩).scheduler? 0 = some s' ∧
      (site.did ⟨now, seat, deed⟩).scheduler? seat = some (s'.renamed ρ) ∧
      (lone.did ⟨now, 0, own⟩).accepted = lone.accepted + drawn ∧
      (site.did ⟨now, seat, deed⟩).accepted = site.accepted + drawn ∧ drawn ≤ 1 := by
  have draws : own.draws = deed.draws ∧ deed.draws ≤ 1 := deed.draws_alone alone
  have agree : deed.on (site.setClock now) (s.renamed ρ) = (own.on (lone.setClock now) s).map (Scheduler.renamed ρ) := by
    refine on_alone (hl.setClock now) (hs.setClock now) (by simp) there there' alone fun one done => ?_
    obtain ⟨after, done⟩ := Option.isSome_iff_exists.1 done
    have accepted : (site.did ⟨now, seat, deed⟩).accepted = site.accepted + deed.draws :=
      (did_done ⟨now, seat, deed⟩ there' done).accepted_eq
    rw [one] at accepted
    have renamed := named (by rw [accepted]; exact Nat.succ_ne_self _)
    rw [accepted] at renamed
    exact renamed
  cases done : own.on (lone.setClock now) s with
  | none =>
    rw [done] at agree
    have still : lone.did ⟨now, 0, own⟩ = lone.setClock now := did_refused _ there done
    have still' : site.did ⟨now, seat, deed⟩ = site.setClock now := did_refused _ there' agree
    rw [still, still']
    exact ⟨s, 0, there, there', rfl, rfl, Nat.zero_le 1⟩
  | some s' =>
    rw [done] at agree
    obtain ⟨seats, accepted, -⟩ := did_done ⟨now, 0, own⟩ there done
    obtain ⟨seats', accepted', -⟩ := did_done ⟨now, seat, deed⟩ there' agree
    refine ⟨s'.muted, deed.draws, ?_, ?_, ?_, accepted', draws.2⟩
    · exact (seats 0).trans (by rw [if_pos rfl]; exact congrArg (Option.map fun _ => s'.muted) there)
    · exact (seats' seat).trans (by rw [if_pos rfl]; exact congrArg (Option.map fun _ => (s'.renamed ρ).muted) there')
    · rw [← draws.1]
      exact accepted

/-- The numbers that are drawn for the jobs of a scheduler in a run. -/
def drawn (seat : Nat) : Site → List Done → List Nat
  | _, [] => []
  | site, done :: course =>
    let after := site.did done
    if done.seat = seat ∧ after.accepted ≠ site.accepted then after.accepted :: drawn seat after course
    else drawn seat after course

/-- A number that is drawn in a run is above those drawn before the run, and not above those drawn by its end. -/
theorem bounds_of_mem_drawn {site : Site} {course : List Done} :
    site.accepted ≤ (site.run course).accepted ∧
      ∀ n ∈ drawn seat site course, site.accepted < n ∧ n ≤ (site.run course).accepted := by
  induction course generalizing site with
  | nil => exact ⟨Nat.le_refl _, List.forall_mem_nil _⟩
  | cons done course ih =>
    have more : (site.did done).accepted = site.accepted ∨ (site.did done).accepted = site.accepted + 1 :=
      (site.setClock done.now).accepted_deed done.seat done.deed
    obtain ⟨later, among⟩ := @ih (site.did done)
    change (site.did done).accepted ≤ (site.run (done :: course)).accepted at later
    have rest : ∀ n ∈ drawn seat (site.did done) course, site.accepted < n ∧ n ≤ (site.run (done :: course)).accepted := by
      intro n hn
      obtain ⟨above, below⟩ := among n hn
      exact ⟨by omega, below⟩
    refine ⟨by omega, ?_⟩
    unfold drawn
    dsimp only
    split
    next => exact List.forall_mem_cons.2 ⟨⟨by omega, later⟩, rest⟩
    next => exact rest

theorem drawn_ascends (seat : Nat) (site : Site) (course : List Done) : (drawn seat site course).Pairwise (· < ·) := by
  induction course generalizing site with
  | nil => exact .nil
  | cons done course ih =>
    unfold drawn
    dsimp only
    split
    · exact List.pairwise_cons.2 ⟨fun n hn => (bounds_of_mem_drawn.2 n hn).1, ih _⟩
    · exact ih _

end Site

/-! ## Numbers for numbers -/

/-- The numbers of a list in the place of 1, 2, 3 and so on, and after them such as are above a bound. -/
def renumber (numbers : List Nat) (bound : Nat) : Nat → Nat
  | 0 => 0
  | k + 1 => numbers[k]?.getD (bound + k + 1)

theorem renumber_strictMono {numbers : List Nat} {bound : Nat} (ascending : numbers.Pairwise (· < ·))
    (within : ∀ n ∈ numbers, 0 < n ∧ n ≤ bound) : StrictMono (renumber numbers bound) := by
  refine strictMono_nat_of_lt_succ fun k => ?_
  cases k with
  | zero =>
    show 0 < numbers[0]?.getD (bound + 0 + 1)
    cases h : numbers[0]? with
    | none => exact Nat.succ_pos _
    | some n => exact (within n (List.mem_of_getElem? h)).1
  | succ k =>
    show numbers[k]?.getD (bound + k + 1) < numbers[k + 1]?.getD (bound + (k + 1) + 1)
    cases h : numbers[k]? with
    | none =>
      have past : numbers[k + 1]? = none := List.getElem?_eq_none (Nat.le_succ_of_le (List.getElem?_eq_none_iff.1 h))
      rw [past]
      simp only [Option.getD_none]
      omega
    | some n =>
      cases h' : numbers[k + 1]? with
      | none =>
        have := (within n (List.mem_of_getElem? h)).2
        simp only [Option.getD_none, Option.getD_some]
        omega
      | some m =>
        obtain ⟨hk, rfl⟩ := List.getElem?_eq_some_iff.1 h
        obtain ⟨hk', rfl⟩ := List.getElem?_eq_some_iff.1 h'
        exact List.pairwise_iff_getElem.1 ascending k (k + 1) hk hk' (Nat.lt_succ_self k)

/-- A renaming by which later jobs get higher numbers. -/
def Renaming.Ascends (ρ : Renaming) : Prop := ∀ a b : JobId, a.number < b.number → (ρ.job a).number < (ρ.job b).number

/-- The renaming of what a scheduler does alone, given the seat and the numbers of its jobs among others. -/
def Renaming.among (f : Nat → Nat) (ascends : StrictMono f) (seat : Nat) : Renaming where
  job id := ⟨f id.number⟩
  scheduler number := number + seat
  job_injective := fun a b h => by
    cases a
    cases b
    exact congrArg JobId.mk (ascends.injective (JobId.mk.inj h))
  scheduler_injective := fun a b h => Nat.add_right_cancel h

namespace Site

variable {ρ : Renaming} {lone site : Site} {seat : Nat} {s : Scheduler}

/-- A run among others and a run alone lead a scheduler to the same state, up to the numbers. -/
theorem run_alone (hl : lone.Sound) (hs : site.Sound) (nobody : lone.engagements = []) (nobody' : site.engagements = [])
    (there : lone.scheduler? 0 = some s) (there' : site.scheduler? seat = some (s.renamed ρ)) {course : List Done}
    (read : ∀ done ∈ course, done.deed.Read)
    (named : ∀ k n, (drawn seat site course)[k]? = some n → ρ.job ⟨lone.accepted + k + 1⟩ = ⟨n⟩) :
    ∃ s', (lone.run (course.filterMap (·.alone seat))).scheduler? 0 = some s' ∧
      (site.run course).scheduler? seat = some (s'.renamed ρ) := by
  induction course generalizing lone site s with
  | nil => exact ⟨s, there, there'⟩
  | cons done course ih =>
    rw [List.forall_mem_cons] at read
    obtain ⟨sound, still⟩ := hs.did nobody' done read.1
    unfold drawn at named
    dsimp only at named
    by_cases same : done.seat = seat
    · subst same
      cases alone : done.deed.alone done.seat with
      | none =>
        have left : site.did done = site.setClock done.now :=
          did_refused done there' ((hs.setClock done.now).on_foreign there' alone)
        have skipped : done.alone done.seat = none := by
          unfold Done.alone
          rw [if_pos rfl, alone]
          rfl
        rw [List.filterMap_cons_none skipped]
        rw [if_neg (by rw [left]; exact fun h => h.2 rfl)] at named
        refine ih hl sound nobody still there ?_ read.2 named
        rw [left]
        exact there'
      | some own =>
        have kept : done.alone done.seat = some ⟨done.now, 0, own⟩ := by
          unfold Done.alone
          rw [if_pos rfl, alone]
          rfl
        rw [List.filterMap_cons_some kept]
        have first : (site.did done).accepted ≠ site.accepted → ρ.job lone.nextId = ⟨(site.did done).accepted⟩ := by
          intro more
          rw [if_pos ⟨rfl, more⟩] at named
          exact named 0 _ rfl
        obtain ⟨s', most, ahead, ahead', accepted, accepted', one⟩ :=
          did_alone hl hs there there' alone done.now first
        obtain ⟨sound', still'⟩ := hl.did nobody ⟨done.now, 0, own⟩ (read.1.alone alone)
        have counted : (site.did done).accepted = site.accepted + most := accepted'
        refine ih sound' sound still' still ahead ahead' read.2 fun k n hn => ?_
        rw [accepted]
        split at named
        next more =>
          -- its number is the first of those drawn
          have drew : most = 1 := by
            have := more.2
            omega
          have next := named (k + 1) n hn
          rw [drew]
          rwa [Nat.add_right_comm lone.accepted 1 k]
        next none =>
          have drew : most = 0 := by
            by_contra drew
            exact none ⟨rfl, by omega⟩
          rw [drew]
          exact named k n hn
    · have skipped : done.alone seat = none := if_neg same
      rw [List.filterMap_cons_none skipped]
      rw [if_neg fun h => same h.1] at named
      exact ih hl sound nobody still there ((scheduler?_deed_of_ne same done.deed).trans there') read.2 named

/-- At first a scheduler among others is as it would be alone, but for its number. -/
theorem start_scheduler? {now : Instant} {settings : List Settings} (opened : Site.start now settings = .ok site) {own : Settings}
    (given : settings[seat]? = some own) :
    ∃ s, site.scheduler? seat = some s ∧ Scheduler.start seat own = .ok s := by
  unfold Site.start at opened
  simp only [bind, Except.bind] at opened
  split at opened
  next => cases opened
  next schedulers hm =>
    cases opened
    obtain ⟨hi, rfl⟩ := List.getElem?_eq_some_iff.1 given
    have all := mapM_forall₂ hm
    have length := all.length_eq
    rw [List.length_zipIdx] at length
    have started := all.get (by rwa [List.length_zipIdx]) (length ▸ hi)
    rw [List.get_eq_getElem, List.get_eq_getElem, List.getElem_zipIdx, Nat.zero_add] at started
    refine ⟨schedulers[seat], ?_, started⟩
    show (schedulers.map fun s => (⟨s, false⟩ : Seat))[seat]?.map (·.scheduler) = _
    rw [List.getElem?_map, List.getElem?_eq_getElem (length ▸ hi)]
    rfl

theorem start_one {now : Instant} {own : Settings} (h : Scheduler.start 0 own = .ok s) :
    Site.start now [own] = .ok ⟨now, 0, 0, [⟨s, false⟩], .empty, [], [.loop 0 .promotion, .loop 0 .dispatch], []⟩ := by
  simp only [Site.start, List.zipIdx_cons, List.zipIdx_nil, List.mapM_cons, List.mapM_nil, bind, Except.bind, h]
  rfl

theorem start_renamed {own : Settings} {s' : Scheduler} (h : Scheduler.start seat own = .ok s') (named : ρ.scheduler 0 = seat) :
    ∃ s, Scheduler.start 0 own = .ok s ∧ s' = s.renamed ρ := by
  subst named
  unfold Scheduler.start at h ⊢
  split at h
  next => cases h
  next few =>
    cases h
    rw [if_neg few]
    exact ⟨_, rfl, rfl⟩

/-! ## No interference -/

/-- A scheduler that is given a job of another refuses it, whatever has become of the job, and nothing changes. -/
structure Guarded (site : Site) : Prop where
  cancel_refused : ∀ seat s handle job, site.scheduler? seat = some s → handle.owner ≠ seat → site.held? handle = some job →
    site.cancel seat job = .error (.badArgument (.foreignJob .cancel job.id))
  performNow_refused : ∀ seat s handle job, site.scheduler? seat = some s → handle.owner ≠ seat →
    site.held? handle = some job → site.performNow seat job = .error (.badArgument (.foreignJob .performNow job.id))
  unchanged : ∀ now seat demand handle, handle.owner ≠ seat →
    site.did ⟨now, seat, .demand demand handle⟩ = site.setClock now

/-- A scheduler that is alone at one site is in the state of that at a seat of another, up to the numbers of its jobs,
which are in the same order. -/
def Likens (lone site : Site) (seat : Nat) : Prop :=
  ∃ ρ : Renaming, ρ.Ascends ∧ ρ.scheduler 0 = seat ∧
    ∃ s, lone.scheduler? 0 = some s ∧ site.scheduler? seat = some (s.renamed ρ)

theorem Sound.guarded (h : site.Sound) : site.Guarded where
  cancel_refused seat s handle job there foreign held := by
    have refused := h.made_foreign there held foreign .cancel
    have made := make_of_there there .cancel job
    rw [refused] at made
    exact made
  performNow_refused seat s handle job there foreign held := by
    have refused := h.made_foreign there held foreign .performNow
    have made := make_of_there there .performNow job
    rw [refused] at made
    exact made
  unchanged now seat demand handle foreign := by
    cases there : site.scheduler? seat with
    | none =>
      have absent : (site.setClock now).scheduler? seat = none := there
      exact deed_of_absent absent _
    | some s => exact did_refused _ there ((h.setClock now).on_foreign there (if_neg foreign))

/-- Schedulers do not interfere. Whoever is given a job of another refuses it and nothing changes; and after any run each
scheduler is where it would be had it been alone and done only what it did at its own seat, up to the numbers of its jobs. -/
theorem isolated {now : Instant} {settings : List Settings} (opened : Site.start now settings = .ok site) {course : List Done}
    (read : ∀ done ∈ course, done.deed.Read) :
    (site.run course).Guarded ∧ ∀ seat own, settings[seat]? = some own →
      ∃ lone, Site.start now [own] = .ok lone ∧
        Likens (lone.run (course.filterMap (·.alone seat))) (site.run course) seat := by
  have sound := start_sound opened
  have nobody := start_engagements opened
  refine ⟨(sound.run nobody read).guarded, fun seat own given => ?_⟩
  have within : ∀ n ∈ drawn seat site course, 0 < n ∧ n ≤ (site.run course).accepted := fun n hn =>
    (bounds_of_mem_drawn.2 n hn).imp_left Nat.zero_lt_of_lt
  have ascends : StrictMono (renumber (drawn seat site course) (site.run course).accepted) :=
    renumber_strictMono (drawn_ascends seat site course) within
  obtain ⟨s', there', started'⟩ := start_scheduler? opened given
  obtain ⟨s, started, rfl⟩ := start_renamed (ρ := .among _ ascends seat) started' (Nat.zero_add seat)
  have alone : Site.start now [own] = .ok _ := start_one started
  have named : ∀ k n, (drawn seat site course)[k]? = some n → (Renaming.among _ ascends seat).job ⟨0 + k + 1⟩ = ⟨n⟩ := by
    intro k n hn
    have number : renumber (drawn seat site course) (site.run course).accepted (k + 1) = n := by
      rw [renumber, hn]
      rfl
    rw [Nat.zero_add]
    exact congrArg JobId.mk number
  obtain ⟨after, ahead, ahead'⟩ := run_alone (start_sound alone) sound rfl nobody rfl there' read named
  exact ⟨_, alone, _, fun a b lt => ascends lt, Nat.zero_add seat, after, ahead, ahead'⟩

/-- Each of two schedulers takes on a job for a second from now. The second is asked to perform the job of the first at
once, and then its own. -/
def crossing : List Done := [
  ⟨.epoch, 0, .schedule (.ofKind .plain) (.of (.once (.on .afterSecond)))⟩,
  ⟨.epoch, 1, .schedule (.ofKind .plain) (.of (.once (.on .afterSecond)))⟩,
  ⟨.epoch, 1, .demand .performNow ⟨0, 0⟩⟩,
  ⟨.epoch, 1, .demand .performNow ⟨1, 0⟩⟩]

/-- The second scheduler is in the state it would be in alone, but that its job has the second number. -/
theorem isolated_crossing :
    Site.start .epoch [Scheduler.single.settings, Scheduler.single.settings] = .ok pair ∧
      (∀ done ∈ crossing, done.deed.Read) ∧ (pair.run crossing).Guarded ∧
      ((pair.run crossing).held? ⟨1, 0⟩).map (fun job => (job.id, job.state)) = some (⟨2⟩, .enqueued) ∧
      ∃ lone, Site.start .epoch [Scheduler.single.settings] = .ok lone ∧
        Likens (lone.run (crossing.filterMap (·.alone 1))) (pair.run crossing) 1 := by
  have read : ∀ done ∈ crossing, done.deed.Read := by
    simp [crossing, Deed.Read, Request.of]
  obtain ⟨guarded, likens⟩ := isolated start_pair read
  exact ⟨start_pair, read, guarded, rfl, likens 1 _ rfl⟩

end Site

end Rota
