/-
What comes of a request. It is refused for the first of the reasons there are, and then nothing has changed; or one
job is added under the next number, and waits at the end of the lineup or in its place in the timetable.
-/
import Rota.Proofs.Site

namespace Rota

namespace Scheduler

/-- Whether instances to perform some work could be built, or come with it. -/
def CanPerform (s : Scheduler) (work : Work) : Prop := ∀ kind, work = .ofKind kind → s.supply.canBuild kind = true

/-- Why some work is refused, given what comes of planning its request: of the reasons there are, the first. -/
inductive Objects (s : Scheduler) (work : Work) (answer : Except Refusal Plan) : Refusal → Prop
  | unbuildable {kind : Kind} (given : work = .ofKind kind) (unable : s.supply.canBuild kind = false) :
    Objects s work answer (.unbuildable kind.name)
  | badArgument {cause : BadArgument} (able : s.CanPerform work) (rejected : answer = .error (.badArgument cause)) :
    Objects s work answer (.badArgument cause)
  | disposed {plan : Plan} (able : s.CanPerform work) (planned : answer = .ok plan) (closed : s.disposed = true) :
    Objects s work answer .disposed

/-- What a scheduler becomes by taking on a job with a plan, and what it writes down of it. -/
inductive TakesOn (s : Scheduler) (now : Instant) (id : JobId) (work : Work) (plan : Plan) : Event → Scheduler → Prop
  | atOnce (due : plan.dueAt ≤ now) :
    TakesOn s now id work plan (.enqueued id)
      { s with
        board := { s.board with
          jobs := s.board.jobs ++ [plan.job id work s.number .enqueued]
          lineup := ⟨s.board.lineup.waiters ++ [⟨id, plan.priority.getD work.kind.priority⟩], true⟩
          outstanding := s.board.outstanding + 1 } }
  | inTime {earlier later : List (Slot × JobId)} (ahead : now < plan.dueAt)
    (split : s.board.timetable.bySlot = earlier ++ later) (before : ∀ e ∈ earlier, e.1.due ≤ plan.dueAt)
    (after : ∀ e ∈ later, plan.dueAt < e.1.due) :
    TakesOn s now id work plan (.scheduled id plan.dueAt)
      { s with
        board := { s.board with
          jobs := s.board.jobs ++ [plan.job id work s.number .scheduled]
          timetable := {
            bySlot := earlier ++ (⟨plan.dueAt, s.board.timetable.sequence⟩, id) :: later
            slots := (id, ⟨plan.dueAt, s.board.timetable.sequence⟩) :: s.board.timetable.slots
            sequence := s.board.timetable.sequence + 1
            bell := true }
          outstanding := s.board.outstanding + 1 } }

variable {s s' : Scheduler} {made now : Instant} {id : JobId} {work : Work} {request : Request} {plan : Plan}
  {answer : Except Refusal Plan} {refusal : Refusal}

theorem TakesOn.journal_eq {event : Event} (h : s.TakesOn now id work plan event s') : s'.board.journal = s.board.journal := by
  cases h <;> rfl

theorem canPerform_iff : s.CanPerform work ↔ ¬ (work.performer?.isNone && !s.supply.canBuild work.kind) = true := by
  cases work with
  | supplied performer => simp [CanPerform, Work.performer?]
  | ofKind kind => simp [CanPerform, Work.performer?, Work.kind]

/-! ## Refused or accepted -/

/-- Whatever speaks against some work has it refused. -/
theorem Objects.refused (h : s.Objects work answer refusal) (planned : request.plan made = .ok answer) :
    s.schedule made now id work request = .ok (.error refusal) := by
  unfold schedule
  cases h with
  | @unbuildable kind given unable =>
    subst given
    rw [if_pos (by simp [Work.performer?, Work.kind, unable])]
    rfl
  | badArgument able rejected =>
    rw [if_neg (canPerform_iff.1 able), planned, rejected]
    rfl
  | disposed able answered closed =>
    rw [if_neg (canPerform_iff.1 able), planned, answered]
    simp [Except.map, Except.bind, accept, closed]

/-- Some work that nothing speaks against is accepted. -/
theorem schedule_of_not_objects (h : ∀ refusal, ¬ s.Objects work answer refusal)
    (planned : request.plan made = .ok answer) :
    ∃ plan, answer = .ok plan ∧ s.disposed = false ∧
      s.schedule made now id work request = .ok (s.accept now id work plan) := by
  have able : s.CanPerform work := fun kind given => by
    by_contra unable
    exact h _ (.unbuildable given (Bool.eq_false_iff.2 unable))
  cases answer with
  | error refusal =>
    obtain ⟨cause, rfl⟩ := Request.plan_refused planned
    exact absurd (.badArgument able rfl) (h _)
  | ok plan =>
    refine ⟨plan, rfl, Bool.eq_false_iff.2 fun closed => h _ (.disposed able rfl closed), ?_⟩
    unfold schedule
    rw [if_neg (canPerform_iff.1 able), planned]
    rfl

/-- A job that is accepted waits where its due time has it wait, and all else is as before. -/
theorem accept_takesOn (hs : s.Sound) (ordered : s.board.timetable.Ordered) (unknown : s.board.job? id = none)
    (on : s.disposed = false) (work : Work) (plan : Plan) :
    ∃ event s', s.TakesOn now id work plan event s' ∧ s.accept now id work plan = .ok (s'.write event) := by
  by_cases due : plan.dueAt ≤ now
  · exact ⟨.enqueued id, _, .atOnce due, accept_due unknown on work due⟩
  · rw [accept_ahead unknown on work due]
    have absent : id ∉ s.board.timetable.ids := fun hm => by
      have known := hs.ledger.held id (.inl (Multiset.mem_coe.2 hm))
      rw [show s.ledger.job? id = none from unknown] at known
      cases known
    obtain ⟨earlier, later, split, before, after, placed⟩ :=
      Timetable.place_eq ⟨plan.dueAt, s.board.timetable.sequence⟩ id ordered hs.timetable.below
    have inserted : s.board.timetable.insert (plan.job id work s.number .scheduled) = _ :=
      hs.timetable.insert_new rfl absent
    refine ⟨.scheduled id plan.dueAt, _, .inTime (Int.not_le.1 due) split before after, ?_⟩
    rw [inserted, ← placed]
    rfl

end Scheduler

namespace Site

/-- What comes of a request made to a scheduler at a site: the answer, and the site from then on, which is the same
as before if the request is refused. -/
def submit (site : Site) (seat : Nat) (work : Work) (request : Request) : Except Fault (Except Refusal JobId × Site) :=
  (site.schedule seat work request).map fun
    | .ok (id, after) => (.ok id, after)
    | .error refusal => (.error refusal, site)

/-- A site after a request to one of its schedulers has been accepted with a plan. -/
structure Gains (site : Site) (seat : Nat) (s : Scheduler) (work : Work) (plan : Plan) (after : Site) : Prop where
  /-- The scheduler is the one of this number. -/
  number : s.number = seat
  /-- No scheduler has a job of the number that is drawn. -/
  fresh : ∀ other s', site.scheduler? other = some s' → s'.board.job? site.nextId = none
  /-- The scheduler takes on the job and gets turns for its loops, and nothing else changes. -/
  after_eq : ∃ event s' loops, s.TakesOn site.now site.nextId work plan event s' ∧
    after = { site with
      accepted := site.accepted + 1
      seats := site.seats.modify seat fun x => { x with scheduler := s' }
      agenda := site.agenda ++ List.map (.loop seat) loops
      news := event :: site.news }

variable {site : Site} {seat : Nat} {s : Scheduler}

theorem submit_refused (there : site.scheduler? seat = some s) {work : Work} {request : Request} {refusal : Refusal}
    (h : s.schedule site.now site.now site.nextId work request = .ok (.error refusal)) :
    site.submit seat work request = .ok (.error refusal, site) := by
  unfold submit schedule
  simp only [there, h]
  rfl

theorem submit_accepted (there : site.scheduler? seat = some s) {work : Work} {request : Request} {s' : Scheduler}
    (h : s.schedule site.now site.now site.nextId work request = .ok (.ok s')) :
    site.submit seat work request =
      .ok (.ok site.nextId, { site.replace seat s' with accepted := site.accepted + 1 }.rouse seat) := by
  unfold submit schedule
  simp only [there, h]
  rfl

/-- A scheduler that takes on a job goes back to its seat, and what it has written becomes news. -/
theorem replace_write (site : Site) (seat : Nat) {s' : Scheduler} (silent : s'.board.journal = []) (event : Event) :
    site.replace seat (s'.write event) =
      { site with
        seats := site.seats.modify seat fun x => { x with scheduler := s' }
        news := event :: site.news } := by
  have muted : (s'.write event).muted = s' := by
    unfold Scheduler.muted Scheduler.write Board.write
    rw [← silent]
  have news : (s'.write event).board.journal = [event] := congrArg (event :: ·) silent
  show { site with
    seats := site.seats.modify seat fun x => { x with scheduler := (s'.write event).muted }
    news := (s'.write event).board.journal ++ site.news } = _
  rw [muted, news]
  rfl

/-- A request is refused for the first reason that speaks against it, and then the site is as before and no number has
been drawn; or nothing speaks against it, and one job is added under the next number. -/
theorem submit_decides (reached : site.Reached) (there : site.scheduler? seat = some s) (work : Work) {request : Request}
    {answer : Except Refusal Plan} (planned : request.plan site.now = .ok answer) :
    (∀ refusal, site.submit seat work request = .ok (.error refusal, site) ↔ s.Objects work answer refusal) ∧
      ((∀ refusal, ¬ s.Objects work answer refusal) → ∃ plan after, answer = .ok plan ∧
        site.submit seat work request = .ok (.ok site.nextId, after) ∧ site.Gains seat s work plan after) := by
  have sound : site.Sound := reached.sound
  have seated := sound.seated seat s there
  have refused : ∀ {refusal}, s.Objects work answer refusal →
      site.submit seat work request = .ok (.error refusal, site) :=
    fun objects => submit_refused there (objects.refused planned)
  have accepted : (∀ refusal, ¬ s.Objects work answer refusal) → ∃ plan after, answer = .ok plan ∧
      site.submit seat work request = .ok (.ok site.nextId, after) ∧ site.Gains seat s work plan after := by
    intro fine
    obtain ⟨plan, he, on, answered⟩ := Scheduler.schedule_of_not_objects fine planned
    obtain ⟨event, s', takesOn, accepted⟩ :=
      Scheduler.accept_takesOn seated.sound seated.dated.ordered (sound.unknown there) on work plan
    rw [accepted] at answered
    refine ⟨plan, _, he, submit_accepted there answered, seated.number, fun other s' => sound.unknown, event, s', ?_⟩
    have silent : s'.board.journal = [] := takesOn.journal_eq.trans (sound.silent seat s there)
    rw [replace_write site seat silent event]
    obtain ⟨loops, roused⟩ := rouse_eq _ seat
    exact ⟨loops, takesOn, roused⟩
  refine ⟨fun refusal => ⟨fun h => ?_, refused⟩, accepted⟩
  by_cases fine : ∀ refusal, ¬ s.Objects work answer refusal
  · obtain ⟨plan, after, -, done, -⟩ := accepted fine
    cases h.symm.trans done
  · simp only [not_forall, not_not] at fine
    obtain ⟨first, objects⟩ := fine
    cases h.symm.trans (refused objects)
    exact objects

/-- Two schedulers with a slot each. -/
def pair : Site where
  opened := .epoch
  elapsed := 0
  accepted := 0
  seats := [⟨.single, false⟩, ⟨{ Scheduler.single with number := 1 }, false⟩]
  stage := .empty
  performances := []
  agenda := [.loop 0 .promotion, .loop 0 .dispatch, .loop 1 .promotion, .loop 1 .dispatch]
  news := []

theorem start_pair : Site.start .epoch [Scheduler.single.settings, Scheduler.single.settings] = .ok pair := rfl

/-- A plain job for a second from now is added, at the second of two schedulers, under the first number. -/
theorem submit_decides_pair :
    pair.scheduler? 1 = some { Scheduler.single with number := 1 } ∧
      (Request.of (.once (.on .afterSecond))).plan pair.now = .ok (.ok ⟨.afterSecond, .never, none, .limited 0⟩) ∧
      ∃ plan after, pair.submit 1 (.ofKind .plain) (.of (.once (.on .afterSecond))) = .ok (.ok ⟨1⟩, after) ∧
        pair.Gains 1 { Scheduler.single with number := 1 } (.ofKind .plain) plan after := by
  have there : pair.scheduler? 1 = some { Scheduler.single with number := 1 } := rfl
  have planned : (Request.of (.once (.on .afterSecond))).plan pair.now =
      .ok (.ok ⟨.afterSecond, .never, none, .limited 0⟩) := rfl
  obtain ⟨-, accepted⟩ := submit_decides (.start start_pair) there (.ofKind .plain) planned
  have fine : ∀ refusal, ¬ Scheduler.Objects { Scheduler.single with number := 1 } (.ofKind .plain)
      (.ok ⟨.afterSecond, .never, none, .limited 0⟩) refusal := by
    intro refusal objects
    cases objects with
    | unbuildable given unable => cases given; cases unable
    | badArgument _ rejected => cases rejected
    | disposed _ _ closed => cases closed
  obtain ⟨plan, after, -, done, gains⟩ := accepted fine
  exact ⟨there, planned, plan, after, done, gains⟩

end Site

end Rota
