/-
The seats of a site. Every scheduler has a seat, whose number is its own, and numbers are drawn for jobs one after the
other. A site is sound if what always holds of a scheduler holds at every seat, and each attempt under way is one of
the executions in flight there.
-/
import Rota.Site
import Rota.Proofs.Owners
import Rota.Proofs.Sweeps

namespace Rota

/-! ## Schedulers in a seat -/

/-- Whether an action ends an execution. -/
def Action.ends : Action → Bool
  | .conclude .. => true
  | _ => false

/-- An action leaves an execution in flight, unless it ends it. -/
theorem Shift.flies_on {number : Nat} {settings : Settings} {now : Instant} {d d' : Desk} {action : Action}
    (h : Shift number settings now d action d') {task : TaskId} {id : JobId} (hm : (task, id) ∈ d.inFlight.tasks)
    (goes_on : ∀ ending, action ≠ .conclude task ending) : (task, id) ∈ d'.inFlight.tasks := by
  cases h with
  | begun => exact List.mem_append_left _ hm
  | @concluded ended i ending =>
    refine List.mem_filter.2 ⟨hm, decide_eq_true fun he => ?_⟩
    cases he
    exact goes_on ending rfl
  | _ => exact hm

/-- An attempt is registered under the next number. -/
theorem Board.begin_registers {board board' : Board} {supply : Supply} {now : Instant} {job : Job} {task : TaskId}
    {performer : Instance} (h : board.begin supply now job = (.performing task performer, board')) :
    task = ⟨board.inFlight.next⟩ ∧ board'.inFlight = (board.inFlight.register job.id).2 := by
  unfold Board.begin at h
  dsimp only at h
  split at h
  next => cases h; exact ⟨rfl, rfl⟩
  next =>
    split at h
    next => cases h; exact ⟨rfl, rfl⟩
    next => cases h

namespace Scheduler

/-- The scheduler once its journal has been taken away. -/
def muted (s : Scheduler) : Scheduler := { s with board := { s.board with journal := [] } }

/-- What a site can count on in a scheduler, given its seat and how many numbers have been drawn. -/
structure Seated (seat drawn : Nat) (s : Scheduler) : Prop where
  sound : s.Sound
  dated : s.desk.Dated
  owns : s.Owns
  number : s.number = seat
  known : ∀ id job, s.board.job? id = some job → id.number ≤ drawn

variable {s s' : Scheduler} {now : Instant} {action : Action} {seat drawn drawn' : Nat}

theorem start_seated {settings : Settings} (h : start seat settings = .ok s) : s.Seated seat drawn where
  sound := start_sound h
  dated := start_dated h
  owns := fun id job hj => by cases (start_unknown h id).symm.trans hj
  number := by cases start_eq h; rfl
  known := fun id job hj => by cases (start_unknown h id).symm.trans hj

theorem Seated.mono (h : s.Seated seat drawn) (le : drawn ≤ drawn') : s.Seated seat drawn' := by
  refine ⟨h.sound, h.dated, h.owns, h.number, fun id job hj => ?_⟩
  have := h.known id job hj
  omega

/-- The journal has no part in it. -/
theorem Seated.muted (h : s.Seated seat drawn) : s.muted.Seated seat drawn where
  sound := ⟨h.sound.timetable, h.sound.ledger.distinct, h.sound.ledger.held,
    ⟨h.sound.ledger.manned.nodup, h.sound.ledger.manned.runs⟩, h.sound.ledger.tasks, h.sound.ledger.below,
    fun _ _ => rfl, h.sound.ledger.begun, h.sound.ledger.tame⟩
  dated := h.dated
  owns := h.owns
  number := h.number
  known := h.known

theorem Seated.act (h : s.Seated seat drawn) (legal : action.Legal s) (le : drawn ≤ drawn')
    (new : ∀ made id work request, action = .schedule made id work request → id.number ≤ drawn') :
    (s.act now action).Seated seat drawn' where
  sound := act_sound h.sound legal
  dated := ((act_shift h.sound legal).timed h.sound.timetable).dated h.sound.timetable h.dated
  owns := h.owns.act h.sound legal
  number := (act_number h.sound).trans h.number
  known := by
    -- a job that turns up has the number under which it was given
    intro id job' hj'
    cases hj : s.board.job? id with
    | some job =>
      have := h.known id job hj
      omega
    | none =>
      obtain ⟨made, work, request, -, -, rfl, -⟩ := act_turns_up h.sound legal hj hj'
      exact new made id work request rfl

theorem Seated.act_of_not_brings (h : s.Seated seat drawn) (brings : action.brings = false) :
    (s.act now action).Seated seat drawn := by
  refine h.act (Action.fits_of_not_brings brings).legal (Nat.le_refl _) fun made id work request he => ?_
  subst he
  cases brings

/-- A scheduler that has gone on in its seat, with all that was in flight. -/
structure GoesOn (seat drawn : Nat) (s s' : Scheduler) : Prop where
  seated : s'.Seated seat drawn
  flies_on : ∀ e ∈ s.board.inFlight.tasks, e ∈ s'.board.inFlight.tasks

theorem GoesOn.trans {s'' : Scheduler} (h : GoesOn seat drawn s s') (h' : GoesOn seat drawn s' s'') :
    GoesOn seat drawn s s'' :=
  ⟨h'.seated, fun e he => h'.flies_on e (h.flies_on e he)⟩

theorem Seated.goesOn (h : s.Seated seat drawn) : GoesOn seat drawn s s := ⟨h, fun _ he => he⟩

/-- What an action leaves of a scheduler, unless it brings a job or ends an execution. -/
theorem Seated.goesOn_act (h : s.Seated seat drawn) (brings : action.brings = false) (ends : action.ends = false) :
    GoesOn seat drawn s (s.act now action) := by
  refine ⟨h.act_of_not_brings brings, fun e he => ?_⟩
  refine (act_shift h.sound (Action.fits_of_not_brings brings).legal).flies_on he fun ending ended => ?_
  subst ended
  cases ends

theorem Seated.promotionTurn (h : s.Seated seat drawn) (now : Instant) : GoesOn seat drawn s (s.promotionTurn now) := by
  have steps : ∀ (most : Nat) (s : Scheduler), s.Seated seat drawn → GoesOn seat drawn s (promotionSteps now most s) := by
    intro most
    induction most with
    | zero => exact fun s hs => hs.goesOn
    | succ most ih =>
      intro s hs
      unfold promotionSteps
      split
      · have step : GoesOn seat drawn s (s.act now .promotion) := hs.goesOn_act rfl rfl
        exact step.trans (ih _ step.seated)
      · exact hs.goesOn
  exact steps _ s h

theorem Seated.dispatchTurn (h : s.Seated seat drawn) (now : Instant) (slotFirst : Bool) :
    GoesOn seat drawn s (s.dispatchTurn now slotFirst) := by
  have steps : ∀ (most : Nat) (s : Scheduler), s.Seated seat drawn →
      GoesOn seat drawn s (dispatchSteps now slotFirst most s) := by
    intro most
    induction most with
    | zero => exact fun s hs => hs.goesOn
    | succ most ih =>
      intro s hs
      unfold dispatchSteps
      split
      · have step : GoesOn seat drawn s (s.act now (.dispatch slotFirst)) := hs.goesOn_act rfl rfl
        exact step.trans (ih _ step.seated)
      · exact hs.goesOn
  exact steps _ s h

/-- The job launched first is the one whose execution begins. -/
theorem begin_eq_act (s : Scheduler) (now : Instant) : (s.begin now).2 = s ∨ ∃ id, (s.begin now).2 = s.act now (.begin id) := by
  cases hl : s.launched with
  | nil =>
    left
    unfold begin
    rw [hl]
  | cons id rest =>
    right
    refine ⟨id, ?_⟩
    have first : { s with launched := id :: s.launched.erase id } = s := by rw [hl, List.erase_cons_head, ← hl]
    simp only [act]
    rw [if_pos (hl ▸ List.mem_cons_self), first]

theorem Seated.begin (h : s.Seated seat drawn) (now : Instant) : GoesOn seat drawn s (s.begin now).2 := by
  rcases begin_eq_act s now with still | ⟨id, begun⟩
  · rw [still]
    exact h.goesOn
  · rw [begun]
    exact h.goesOn_act rfl rfl

/-- An execution begins under a number that no other has. -/
theorem begin_flies (h : s.Sound) {task : TaskId} {id : JobId} {performer : Instance}
    (hb : s.begin now = (some (task, id, performer), s')) :
    (task, id) ∈ s'.board.inFlight.tasks ∧ ∀ e ∈ s.board.inFlight.tasks, e.1 ≠ task := by
  unfold begin at hb
  split at hb
  next => cases hb
  next i rest launched =>
    dsimp only at hb
    split at hb
    next => cases hb
    next job hj =>
      split at hb
      next t p board begun =>
        cases hb
        obtain ⟨rfl, flights⟩ := Board.begin_registers begun
        rw [flights, Board.job?_id hj]
        refine ⟨List.mem_append_right _ (List.mem_singleton_self _), fun e he same => ?_⟩
        have below : e.1.number < s.board.inFlight.next := h.ledger.below e he
        rw [same] at below
        exact Nat.lt_irrefl _ below
      next => cases hb

/-- An execution in flight ends for the job it is of. -/
theorem conclude_eq_act (h : s.Sound) {task : TaskId} {id : JobId} (flies : (task, id) ∈ s.board.inFlight.tasks)
    (ending : Ending) : s.conclude now id task ending = s.act now (.conclude task ending) := by
  have found : s.board.inFlight.tasks.lookup task = some id := lookup_of_mem h.ledger.tasks flies
  simp only [act, found]

end Scheduler

/-! ## Attempts under way -/

/-- An attempt that has begun at a seat, and whose execution has yet to end. -/
structure Engagement where
  seat : Nat
  task : TaskId
  job : JobId

def Performance.engagement (p : Performance) : Engagement := ⟨p.seat, p.task, p.job⟩

/-- The attempt whose execution ends in a turn. -/
def Turn.engagement? : Turn → Option Engagement
  | .conclude seat job task _ => some ⟨seat, task, job⟩
  | _ => none

/-- Whether a performance that goes on is still the same attempt. -/
def Progress.Keeps (engagement : Engagement) : Progress → Prop
  | .waits p => p.engagement = engagement
  | .ended _ => True

namespace Performance

theorem wait_keeps (p : Performance) (time : Nat) (waiting : Waiting) : (p.wait time waiting).Keeps p.engagement := by
  unfold wait
  split
  · split
    · trivial
    · rfl
  · rfl

theorem act_keeps (p : Performance) (time : Nat) (act : Act) : (p.act time act).1.Keeps p.engagement := by
  cases act with
  | gate => exact p.wait_keeps time .gate
  | hang => exact p.wait_keeps time .forever
  | ends outcome => trivial

theorem raise_keeps (p : Performance) (time : Nat) (scene : Scene) : (p.raise time scene).1.Keeps p.engagement := by
  unfold raise
  dsimp only
  split
  · split
    · exact p.act_keeps time scene.act
    · exact p.wait_keeps time _
  · trivial

/-- A performance that is woken stays the attempt it is. -/
theorem wake_keeps (p : Performance) (time : Nat) (stage : Stage) : (p.wake time stage).2.1.Keeps p.engagement := by
  unfold wake
  split
  · exact raise_keeps _ time _
  · split
    · exact p.act_keeps time _
    · exact p.wait_keeps time _
  · trivial
  · exact p.wait_keeps time _
  · exact p.wait_keeps time _

end Performance

namespace Site

/-- The attempts under way at a site, and those whose executions are about to end. -/
def engagements (site : Site) : List Engagement :=
  site.performances.map (·.engagement) ++ site.agenda.filterMap (·.engagement?)

/-- What always holds of a site: every seat can be counted on and its journal has been taken down, and the attempts
under way are executions in flight, each of its own. -/
structure Sound (site : Site) : Prop where
  seated : ∀ seat s, site.scheduler? seat = some s → s.Seated seat site.accepted
  silent : ∀ seat s, site.scheduler? seat = some s → s.board.journal = []
  engaged : ∀ e ∈ site.engagements, ∃ s, site.scheduler? e.seat = some s ∧ (e.task, e.job) ∈ s.board.inFlight.tasks
  apart : site.engagements.Nodup

variable {site site' : Site} {seat : Nat} {s s' : Scheduler}

/-! ## Seats and the agenda -/

theorem scheduler?_replace (site : Site) (seat : Nat) (s' : Scheduler) (i : Nat) :
    (site.replace seat s').scheduler? i =
      if seat = i then (site.scheduler? i).map fun _ => s'.muted else site.scheduler? i := by
  unfold scheduler? replace
  rw [List.getElem?_modify]
  by_cases h : seat = i
  · simp only [if_pos h, Option.map_map]
    cases site.seats[i]? <;> rfl
  · simp only [if_neg h]
    cases site.seats[i]? <;> rfl

/-- To call for some turns is to put those on the agenda that do not stand there yet. -/
theorem foldl_call (turns : List Turn) (site : Site) :
    ∃ called, called.Sublist turns ∧ turns.foldl call site = { site with agenda := site.agenda ++ called } := by
  induction turns generalizing site with
  | nil => exact ⟨[], .slnil, by simp⟩
  | cons turn turns ih =>
    obtain ⟨called, among, he⟩ := ih (site.call turn)
    rw [List.foldl_cons, he]
    unfold call
    split
    · exact ⟨called, among.cons turn, rfl⟩
    · exact ⟨turn :: called, among.cons_cons turn, by simp⟩

/-- A scheduler that is roused gets turns for its loops, and nothing else changes. -/
theorem rouse_eq (site : Site) (seat : Nat) :
    ∃ loops : List Loop, site.rouse seat = { site with agenda := site.agenda ++ loops.map (.loop seat) } := by
  unfold rouse
  split
  · exact ⟨[], by simp⟩
  · next s =>
    dsimp only
    rw [← List.foldl_map (f := Turn.loop seat) (g := call)]
    obtain ⟨called, among, he⟩ := foldl_call (List.map (Turn.loop seat) _) site
    obtain ⟨loops, -, rfl⟩ := List.sublist_map_iff.1 among
    exact ⟨loops, he⟩

/-- Turns that end no execution engage nobody. -/
theorem engagements_append {turns : List Turn} (h : ∀ turn ∈ turns, turn.engagement? = none) :
    ({ site with agenda := site.agenda ++ turns } : Site).engagements = site.engagements := by
  unfold engagements
  rw [List.filterMap_append, List.filterMap_eq_nil_iff.2 h, List.append_nil]

/-! ## What keeps a site sound -/

/-- An attempt is told by its seat and its number. -/
theorem Sound.engagement_inj (h : site.Sound) {e e' : Engagement} (he : e ∈ site.engagements) (he' : e' ∈ site.engagements)
    (same : e.seat = e'.seat) (task : e.task = e'.task) : e = e' := by
  obtain ⟨s, there, flies⟩ := h.engaged e he
  obtain ⟨s', there', flies'⟩ := h.engaged e' he'
  rw [← same, there] at there'
  cases there'
  have distinct : (s.board.inFlight.tasks.map (·.1)).Nodup := (h.seated _ s there).sound.ledger.tasks
  have job := List.inj_on_of_nodup_map distinct flies flies' task
  cases e
  cases e'
  cases same
  cases job
  rfl

theorem Sound.flies (h : site.Sound) (there : site.scheduler? seat = some s) {e : Engagement} (he : e ∈ site.engagements)
    (same : e.seat = seat) : (e.task, e.job) ∈ s.board.inFlight.tasks := by
  obtain ⟨s', there', flies⟩ := h.engaged e he
  rw [same, there] at there'
  cases there'
  exact flies

/-- Nothing is lost if the schedulers stay and attempts only end. -/
theorem Sound.of_subperm (h : site.Sound) (seats : ∀ i, site'.scheduler? i = site.scheduler? i)
    (accepted : site'.accepted = site.accepted) (fewer : site'.engagements.Subperm site.engagements) : site'.Sound := by
  obtain ⟨left, perm, among⟩ := fewer
  constructor
  case seated =>
    intro seat s there
    rw [accepted]
    exact h.seated seat s (seats seat ▸ there)
  case silent =>
    intro seat s there
    exact h.silent seat s (seats seat ▸ there)
  case engaged =>
    intro e he
    rw [seats]
    exact h.engaged e (among.subset (perm.mem_iff.2 he))
  case apart => exact perm.nodup_iff.1 (h.apart.sublist among)

theorem Sound.append (h : site.Sound) {turns : List Turn} (ht : ∀ turn ∈ turns, turn.engagement? = none) :
    ({ site with agenda := site.agenda ++ turns } : Site).Sound :=
  h.of_subperm (fun _ => rfl) rfl (List.Perm.of_eq (engagements_append ht)).subperm

theorem Sound.rouse (h : site.Sound) (seat : Nat) : (site.rouse seat).Sound := by
  obtain ⟨loops, he⟩ := site.rouse_eq seat
  rw [he]
  refine h.append fun turn ht => ?_
  obtain ⟨loop, -, rfl⟩ := List.mem_map.1 ht
  rfl

/-- A scheduler may change in its seat as long as the attempts under way there fly on. -/
theorem Sound.replace (h : site.Sound) (seated : s'.muted.Seated seat site.accepted)
    (flies_on : ∀ e ∈ site.engagements, e.seat = seat → (e.task, e.job) ∈ s'.board.inFlight.tasks) :
    (site.replace seat s').Sound := by
  constructor
  case seated =>
    intro i si there
    rw [scheduler?_replace] at there
    split at there
    next he =>
      obtain ⟨-, -, rfl⟩ := Option.map_eq_some_iff.1 there
      exact he ▸ seated
    next => exact h.seated i si there
  case silent =>
    intro i si there
    rw [scheduler?_replace] at there
    split at there
    next =>
      obtain ⟨-, -, rfl⟩ := Option.map_eq_some_iff.1 there
      rfl
    next => exact h.silent i si there
  case engaged =>
    intro e he
    obtain ⟨se, there, flies⟩ := h.engaged e he
    rw [scheduler?_replace, there]
    split
    next same => exact ⟨s'.muted, rfl, flies_on e he same.symm⟩
    next => exact ⟨se, rfl, flies⟩
  case apart => exact h.apart

theorem Sound.goesOn (h : site.Sound) (there : site.scheduler? seat = some s)
    (goesOn : Scheduler.GoesOn seat site.accepted s s') : (site.replace seat s').Sound :=
  h.replace goesOn.seated.muted fun _ he same => goesOn.flies_on _ (h.flies there he same)

/-- A scheduler may do anything but take on a job or end an execution that somebody is engaged in. -/
theorem Sound.act (h : site.Sound) (there : site.scheduler? seat = some s) (now : Instant) {action : Action}
    (brings : action.brings = false)
    (free : ∀ task ending, action = .conclude task ending → ∀ e ∈ site.engagements, e.seat = seat → e.task ≠ task) :
    (site.replace seat (s.act now action)).Sound := by
  have seated := h.seated seat s there
  refine h.replace (seated.act_of_not_brings brings).muted fun e he same => ?_
  exact (Scheduler.act_shift seated.sound (Action.fits_of_not_brings brings).legal).flies_on (h.flies there he same)
    fun ending ends => free e.task ending ends e he same rfl

theorem Sound.update (h : site.Sound) {f : Scheduler → Scheduler}
    (goesOn : ∀ s, site.scheduler? seat = some s → Scheduler.GoesOn seat site.accepted s (f s)) :
    (site.update seat f).Sound := by
  unfold Site.update
  split
  next => exact h
  next s there => exact (h.goesOn there (goesOn s there)).rouse seat

/-- A performance engages a seat in which its execution is in flight. -/
theorem Sound.engage (h : site.Sound) {p : Performance} {turn : Turn} (there : site.scheduler? p.seat = some s)
    (flies : (p.task, p.job) ∈ s.board.inFlight.tasks) (new : p.engagement ∉ site.engagements)
    (ht : turn.engagement? = none) :
    ({ site with performances := site.performances ++ [p], agenda := site.agenda ++ [turn] } : Site).Sound := by
  have engaged : ({ site with performances := site.performances ++ [p], agenda := site.agenda ++ [turn] } :
      Site).engagements.Perm (p.engagement :: site.engagements) := by
    unfold engagements
    simp only [List.map_append, List.map_cons, List.map_nil, List.filterMap_append, List.filterMap_cons, ht,
      List.filterMap_nil, List.append_nil, List.append_assoc]
    exact List.perm_middle
  constructor
  case seated => exact h.seated
  case silent => exact h.silent
  case engaged =>
    intro e he
    rcases List.mem_cons.1 (engaged.mem_iff.1 he) with rfl | he
    · exact ⟨s, there, flies⟩
    · exact h.engaged e he
  case apart => exact engaged.nodup_iff.2 (List.nodup_cons.2 ⟨new, h.apart⟩)

end Site

end Rota
