/-
Sites at work. Whatever a site does to a scheduler, in its turns and by the calls made to it, is an action of that
scheduler; so a site stays sound, wherever it may come to.
-/
import Rota.Proofs.Seats
import Mathlib.Data.List.Forall2

namespace Rota.Site

variable {site : Site} {seat : Nat} {s : Scheduler}

/-! ## Turns -/

theorem update_performances (site : Site) (seat : Nat) (f : Scheduler → Scheduler) :
    (site.update seat f).performances = site.performances := by
  unfold Site.update
  split
  next => rfl
  next s _ =>
    obtain ⟨loops, he⟩ := (site.replace seat (f s)).rouse_eq seat
    rw [he]
    rfl

theorem mem_engagements {p : Performance} (hp : p ∈ site.performances) : p.engagement ∈ site.engagements :=
  List.mem_append_left _ (List.mem_map_of_mem hp)

theorem Sound.putPerformance (h : site.Sound) {p waiting : Performance} (hp : p ∈ site.performances)
    (same : waiting.engagement = p.engagement) : (site.putPerformance waiting).Sound := by
  refine h.of_subperm (fun _ => rfl) rfl (List.Perm.of_eq ?_).subperm
  unfold engagements Site.putPerformance
  dsimp only
  rw [List.map_map]
  congr 1
  refine List.map_congr_left fun q hq => ?_
  dsimp only [Function.comp]
  split
  next he =>
    rw [same]
    have seat : q.seat = p.seat := he.1.trans (congrArg Engagement.seat same)
    have task : q.task = p.task := he.2.trans (congrArg Engagement.task same)
    exact h.engagement_inj (mem_engagements hp) (mem_engagements hq) seat.symm task.symm
  next => rfl

/-- A performance that has ended leaves its execution to be ended. -/
theorem Sound.curtain (h : site.Sound) {p : Performance} (hp : p ∈ site.performances) (ending : Ending) :
    ({ site with
      performances := site.performances.filter fun q => !(q.seat = p.seat && q.task = p.task)
      agenda := site.agenda ++ [.conclude p.seat p.job p.task ending] } : Site).Sound := by
  refine h.of_subperm (fun _ => rfl) rfl ?_
  have parts := List.filter_append_perm (fun q : Performance => q.seat = p.seat && q.task = p.task) site.performances
  have self : [p.engagement].Sublist
      ((site.performances.filter fun q => q.seat = p.seat && q.task = p.task).map Performance.engagement) :=
    List.singleton_sublist.2 (List.mem_map_of_mem (List.mem_filter.2 ⟨hp, by simp⟩))
  unfold engagements
  dsimp only
  -- it is taken from the performances, and so may stand on the agenda
  rw [List.filterMap_append, ← List.append_assoc]
  refine (List.perm_append_comm.subperm).trans ?_
  rw [← List.append_assoc]
  refine (List.subperm_append_right _).2 ?_
  refine List.Subperm.trans ?_ (parts.map Performance.engagement).subperm
  rw [List.map_append]
  exact (List.subperm_append_right _).2 self.subperm

theorem Sound.write (h : site.Sound) (events : List Event) :
    (site.update seat fun s => { s with board := events.foldl Board.write s.board }).Sound := by
  unfold Site.update
  split
  next => exact h
  next s there =>
    dsimp only
    rw [Board.foldl_write]
    refine Sound.rouse (h.replace ?_ fun e he same => ?_) seat
    · exact (h.seated seat s there).muted
    · exact h.flies there he same

theorem Sound.performTurn (h : site.Sound) (seat : Nat) (task : TaskId) : (site.performTurn seat task).Sound := by
  unfold Site.performTurn
  split
  next => exact h
  next p found =>
    have hp : p ∈ site.performances := List.mem_of_find?_eq_some found
    obtain ⟨rfl, rfl⟩ : p.seat = seat ∧ p.task = task := by simpa using List.find?_some found
    have keeps := p.wake_keeps site.elapsed site.stage
    rcases hw : p.wake site.elapsed site.stage with ⟨stage, progress, events⟩
    rw [hw] at keeps
    have written : (({ site with stage := stage } : Site).update p.seat fun s =>
        { s with board := events.foldl Board.write s.board }).Sound := by
      have staged : ({ site with stage := stage } : Site).Sound := h.of_subperm (fun _ => rfl) rfl (.refl _)
      exact staged.write events
    generalize hu : (({ site with stage := stage } : Site).update p.seat fun s =>
        { s with board := events.foldl Board.write s.board }) = after at written
    have hp' : p ∈ after.performances := by
      rw [← hu, update_performances]
      exact hp
    dsimp only
    rw [hu]
    cases progress with
    | waits waiting => exact written.putPerformance hp' keeps
    | ended ending => exact written.curtain hp' ending

theorem Sound.dispatchTurn (h : site.Sound) (seat : Nat) : (site.dispatchTurn seat).Sound := by
  unfold Site.dispatchTurn
  split
  next => exact h
  next s there =>
    have after : (site.replace seat (s.dispatchTurn site.now false)).Sound :=
      h.goesOn there ((h.seated seat s there).dispatchTurn site.now false)
    refine Sound.rouse (after.append fun turn ht => ?_) seat
    rw [List.eq_of_mem_replicate ht]
    rfl

theorem Sound.beginTurn (h : site.Sound) (seat : Nat) : (site.beginTurn seat).Sound := by
  unfold Site.beginTurn
  split
  next => exact h
  next s there =>
    have goesOn := (h.seated seat s there).begin site.now
    rcases hb : s.begin site.now with ⟨_ | ⟨task, job, performer⟩, after⟩
    · rw [hb] at goesOn
      exact (h.goesOn there goesOn).rouse seat
    · rw [hb] at goesOn
      obtain ⟨flies, fresh⟩ := Scheduler.begin_flies (h.seated seat s there).sound hb
      have sound : (site.replace seat after).Sound := h.goesOn there goesOn
      have there' : (site.replace seat after).scheduler? seat = some after.muted := by
        rw [scheduler?_replace, if_pos rfl, there]
        rfl
      refine sound.engage there' flies (fun he => ?_) rfl
      exact fresh _ (h.flies there he rfl) rfl

/-- An execution ends, and the other attempts fly on. -/
theorem Sound.concludeTurn (h : site.Sound) {rest : List Turn} {job : JobId} {task : TaskId} {ending : Ending}
    (agenda : site.agenda = .conclude seat job task ending :: rest) :
    (({ site with agenda := rest } : Site).update seat (·.conclude site.now job task ending)).Sound := by
  have all : site.engagements.Perm (⟨seat, task, job⟩ :: ({ site with agenda := rest } : Site).engagements) := by
    unfold engagements
    rw [agenda]
    exact List.perm_middle
  have others : ({ site with agenda := rest } : Site).Sound :=
    h.of_subperm (fun _ => rfl) rfl ((List.sublist_cons_self _ _).subperm.trans all.symm.subperm)
  obtain ⟨alone, -⟩ := List.nodup_cons.1 (all.nodup_iff.1 h.apart)
  unfold Site.update
  split
  next => exact others
  next s there =>
    have self : (⟨seat, task, job⟩ : Engagement) ∈ site.engagements := all.mem_iff.2 List.mem_cons_self
    have flies : (task, job) ∈ s.board.inFlight.tasks := h.flies there self rfl
    dsimp only
    rw [Scheduler.conclude_eq_act (h.seated seat s there).sound flies]
    refine Sound.rouse (others.act there site.now rfl fun ended ending' ends e he same task => ?_) seat
    cases ends
    -- no other attempt has the execution that ends
    have known : e ∈ site.engagements := all.mem_iff.2 (List.mem_cons_of_mem _ he)
    exact alone (h.engagement_inj known self same task ▸ he)

/-- A turn that has been taken is off the agenda. -/
theorem Sound.takeTurn (h : site.Sound) : site.takeTurn.Sound := by
  unfold Site.takeTurn
  split
  next => exact h
  next turn rest agenda =>
    have others : ({ site with agenda := rest } : Site).Sound := by
      refine h.of_subperm (fun _ => rfl) rfl (List.Sublist.subperm ?_)
      unfold engagements
      rw [agenda]
      exact (List.Sublist.refl _).append ((List.sublist_cons_self turn rest).filterMap _)
    dsimp only
    split
    next seat => exact others.update fun s there => (others.seated seat s there).promotionTurn site.now
    next seat => exact others.dispatchTurn seat
    next seat => exact others.beginTurn seat
    next seat task => exact others.performTurn seat task
    next seat job task ending => exact h.concludeTurn agenda

/-! ## The clock -/

theorem engagement?_of_mem_alarms {alarm : Nat × Turn} (h : alarm ∈ site.alarms) : alarm.2.engagement? = none := by
  unfold alarms at h
  rw [List.mem_mergeSort, List.mem_append] at h
  rcases h with h | h
  · obtain ⟨⟨seat, i⟩, -, h⟩ := List.mem_flatMap.1 h
    obtain ⟨loop, -, h⟩ := List.mem_filterMap.1 h
    split at h
    · split at h
      · cases h; rfl
      · cases h
    · cases h
  · obtain ⟨p, -, h⟩ := List.mem_filterMap.1 h
    split at h
    · split at h
      · cases h; rfl
      · cases h
    · cases h

theorem Sound.pass (h : site.Sound) (millis : Nat) : (site.pass millis).Sound := by
  unfold Site.pass
  dsimp only
  rw [← List.foldl_map (f := Prod.snd) (g := call)]
  have later : ({ site with elapsed := site.elapsed + millis } : Site).Sound := h.of_subperm (fun _ => rfl) rfl (.refl _)
  obtain ⟨called, among, he⟩ := foldl_call (List.map Prod.snd _) { site with elapsed := site.elapsed + millis }
  rw [he]
  refine later.append fun turn ht => ?_
  obtain ⟨alarm, ha, rfl⟩ := List.mem_map.1 (among.subset ht)
  exact engagement?_of_mem_alarms ha

/-! ## Calls -/

theorem Sound.openGate (h : site.Sound) (key : String) (outcome : Outcome) : (site.openGate key outcome).2.Sound := by
  unfold Site.openGate
  split
  next => exact h
  next p found =>
    have opened : (site.putPerformance { p with waiting := .opened outcome }).Sound :=
      h.putPerformance (List.mem_of_find?_eq_some found) rfl
    obtain ⟨called, among, he⟩ := foldl_call [.perform p.seat p.task] (site.putPerformance { p with waiting := .opened outcome })
    rw [List.foldl_cons, List.foldl_nil] at he
    dsimp only
    rw [he]
    refine opened.append fun turn ht => ?_
    rw [List.mem_singleton.1 (among.subset ht)]
    rfl

/-- A number that is still to be drawn is that of no job. -/
theorem Sound.unknown (h : site.Sound) (there : site.scheduler? seat = some s) : s.board.job? site.nextId = none := by
  rw [Option.eq_none_iff_forall_ne_some]
  intro job hj
  have drawn : site.accepted + 1 ≤ site.accepted := (h.seated seat s there).known _ job hj
  omega

/-- A site at which a scheduler has accepted a job. -/
theorem Sound.schedule (h : site.Sound) {work : Work} {request : Request} {id : JobId} {after : Site}
    (read : ∀ cron delay, request.timing = .cron cron delay → ∃ text, Cron.parse? text = some cron)
    (accepted : site.schedule seat work request = .ok (.ok (id, after))) : after.Sound := by
  unfold Site.schedule at accepted
  split at accepted
  next => cases accepted
  next s there =>
    have seated := h.seated seat s there
    have legal : (Action.schedule site.now site.nextId work request).Legal s := ⟨h.unknown there, read⟩
    have drawn : site.accepted ≤ site.accepted + 1 := Nat.le_succ _
    have more : ({ site with accepted := site.accepted + 1 } : Site).Sound :=
      ⟨fun i s hs => (h.seated i s hs).mono drawn, h.silent, h.engaged, h.apart⟩
    cases ha : s.schedule site.now site.now site.nextId work request with
    | error fault => rw [ha] at accepted; cases accepted
    | ok answer =>
      rw [ha] at accepted
      cases answer with
      | error refusal => cases accepted
      | ok s' =>
        have act : s.act site.now (.schedule site.now site.nextId work request) = s' := by
          simp only [Scheduler.act, ha]
          rfl
        have goesOn : Scheduler.GoesOn seat (site.accepted + 1) s s' := by
          rw [← act]
          constructor
          · refine seated.act legal drawn fun made id work request he => ?_
            cases he
            exact Nat.le_refl _
          · intro e he
            exact (Scheduler.act_shift seated.sound legal).flies_on he fun ending ends => by cases ends
        cases accepted
        exact (more.goesOn there goesOn).rouse seat

/-- A job that bears the number of a scheduler is at its seat. -/
theorem Sound.owner (h : site.Sound) (there : site.scheduler? seat = some s) {id : JobId} {job : Job}
    (known : site.job? id = some job) (own : job.owner = some s.number) : s.board.job? id = some job := by
  obtain ⟨x, hx, hj⟩ := List.exists_of_findSome?_eq_some known
  obtain ⟨i, hi, hget⟩ := List.getElem_of_mem hx
  have there' : site.scheduler? i = some x.scheduler := by
    unfold scheduler?
    rw [List.getElem?_eq_getElem hi, hget]
    rfl
  have bears : job.owner = some x.scheduler.number := (h.seated i _ there').owns id job hj
  -- a seat has the number of its scheduler
  have same : i = seat := by
    rw [← (h.seated i _ there').number, ← (h.seated seat s there).number]
    exact Option.some.inj (bears.symm.trans own)
  rw [same, there] at there'
  cases there'
  exact hj

theorem Sound.attempt (h : site.Sound) {call : Scheduler → Except Refusal Scheduler} {after : Site}
    (goesOn : ∀ s s', site.scheduler? seat = some s → call s = .ok s' → Scheduler.GoesOn seat site.accepted s s')
    (made : site.attempt seat call = .ok after) : after.Sound := by
  unfold Site.attempt at made
  split at made
  next => cases made; exact h
  next s there =>
    cases hc : call s with
    | error refusal => rw [hc] at made; cases made
    | ok s' =>
      rw [hc] at made
      cases made
      exact (h.goesOn there (goesOn s s' there hc)).rouse seat

theorem Sound.cancel (h : site.Sound) {id : JobId} {job : Job} (known : site.job? id = some job) {after : Site}
    (made : site.cancel seat job = .ok after) : after.Sound := by
  refine h.attempt (fun s s' there hc => ?_) made
  have act : s.act site.now (.cancel id) = s' := by
    simp only [Scheduler.act, h.owner there known (Scheduler.cancel_owner hc), Option.bind_some, hc]
    rfl
  rw [← act]
  exact (h.seated seat s there).goesOn_act rfl rfl

theorem Sound.performNow (h : site.Sound) {id : JobId} {job : Job} (known : site.job? id = some job) {after : Site}
    (made : site.performNow seat job = .ok after) : after.Sound := by
  refine h.attempt (fun s s' there hc => ?_) made
  have act : s.act site.now (.performNow id) = s' := by
    simp only [Scheduler.act, h.owner there known (Scheduler.performNow_owner hc), Option.bind_some, hc]
    rfl
  rw [← act]
  exact (h.seated seat s there).goesOn_act rfl rfl

/-- A scheduler may be disposed of in any of the ways there are. -/
inductive Farewell : (Scheduler → Scheduler) → Prop
  | dispose : Farewell Scheduler.dispose
  | shutDown : Farewell Scheduler.shutDown
  | abandon : Farewell Scheduler.abandon

theorem Sound.close (h : site.Sound) {farewell : Scheduler → Scheduler} (hf : Farewell farewell) :
    (site.update seat farewell).Sound := by
  refine h.update fun s there => ?_
  have seated := h.seated seat s there
  cases hf with
  | dispose => exact (seated.goesOn_act rfl rfl : Scheduler.GoesOn seat site.accepted s (s.act site.now .dispose))
  | shutDown => exact (seated.goesOn_act rfl rfl : Scheduler.GoesOn seat site.accepted s (s.act site.now .shutDown))
  | abandon => exact (seated.goesOn_act rfl rfl : Scheduler.GoesOn seat site.accepted s (s.act site.now .abandon))

/-! ## Wherever a site may come to -/

/-- Whatever is made of a list, one after the other, is made of what stands in its place there. -/
theorem mapM_forall₂ {α β ε : Type} {f : α → Except ε β} {l : List α} {made : List β} (h : l.mapM f = .ok made) :
    List.Forall₂ (fun a b => f a = .ok b) l made := by
  induction l generalizing made with
  | nil => cases h; exact .nil
  | cons a l ih =>
    rw [List.mapM_cons] at h
    cases ha : f a with
    | error e => rw [ha] at h; cases h
    | ok first =>
      rw [ha] at h
      cases hl : l.mapM f with
      | error e => simp only [hl, bind, Except.bind] at h; cases h
      | ok rest =>
        simp only [hl, bind, Except.bind, pure, Except.pure, Except.ok.injEq] at h
        subst h
        exact .cons ha (ih hl)

theorem start_engagements {now : Instant} {settings : List Settings} (opened : Site.start now settings = .ok site) :
    site.engagements = [] := by
  unfold Site.start at opened
  simp only [bind, Except.bind] at opened
  split at opened
  next => cases opened
  next =>
    cases opened
    refine List.filterMap_eq_nil_iff.2 fun turn ht => ?_
    obtain ⟨i, -, ht⟩ := List.mem_flatMap.1 ht
    simp only [List.mem_cons, List.not_mem_nil, or_false] at ht
    rcases ht with rfl | rfl <;> rfl

/-- At first every scheduler has the seat of its number, and nothing is under way. -/
theorem start_sound {now : Instant} {settings : List Settings} (opened : Site.start now settings = .ok site) :
    site.Sound := by
  have nobody := start_engagements opened
  unfold Site.start at opened
  simp only [bind, Except.bind] at opened
  split at opened
  next => cases opened
  next schedulers hm =>
    cases opened
    have started : ∀ seat s, ((schedulers.map fun s => (⟨s, false⟩ : Seat))[seat]?.map (·.scheduler)) = some s →
        ∃ x, Scheduler.start seat x = .ok s := by
      intro seat s there
      rw [List.getElem?_map, Option.map_map] at there
      obtain ⟨_, made, rfl⟩ := Option.map_eq_some_iff.1 there
      obtain ⟨hi, rfl⟩ := List.getElem?_eq_some_iff.1 made
      have all := mapM_forall₂ hm
      have started := all.get (all.length_eq ▸ hi) hi
      rw [List.get_eq_getElem, List.getElem_zipIdx, Nat.zero_add] at started
      exact ⟨_, started⟩
    constructor
    case seated =>
      intro seat s there
      obtain ⟨x, hs⟩ := started seat s there
      exact Scheduler.start_seated hs
    case silent =>
      intro seat s there
      obtain ⟨x, hs⟩ := started seat s there
      cases Scheduler.start_eq hs
      rfl
    case engaged =>
      rw [nobody]
      intro e he
      cases he
    case apart =>
      rw [nobody]
      exact List.nodup_nil

/-- A site that has been opened, and at which turns have been taken, time has passed and calls have been made in any
order. A scheduler may also act by itself, at any instant, as long as it ends no execution that an attempt at the site is
engaged in; and the clock may be set. -/
inductive Reached : Site → Prop
  | start {now : Instant} {settings : List Settings} {site : Site} (opened : Site.start now settings = .ok site) :
    Reached site
  | turn {site : Site} (h : Reached site) : Reached site.takeTurn
  | pass {site : Site} (h : Reached site) (millis : Nat) : Reached (site.pass millis)
  | act {site : Site} (h : Reached site) {seat : Nat} {s : Scheduler} (there : site.scheduler? seat = some s) (now : Instant)
    {action : Action} (brings : action.brings = false)
    (free : ∀ task ending, action = .conclude task ending → ∀ e ∈ site.engagements, e.seat = seat → e.task ≠ task) :
    Reached (site.replace seat (s.act now action))
  | clock {site : Site} (h : Reached site) (opened : Instant) (elapsed : Nat) :
    Reached { site with opened := opened, elapsed := elapsed }
  | schedule {site after : Site} (h : Reached site) {seat : Nat} {work : Work} {request : Request} {id : JobId}
    (read : ∀ cron delay, request.timing = .cron cron delay → ∃ text, Cron.parse? text = some cron)
    (accepted : site.schedule seat work request = .ok (.ok (id, after))) : Reached after
  | cancel {site after : Site} (h : Reached site) {seat : Nat} {id : JobId} {job : Job} (known : site.job? id = some job)
    (made : site.cancel seat job = .ok after) : Reached after
  | performNow {site after : Site} (h : Reached site) {seat : Nat} {id : JobId} {job : Job}
    (known : site.job? id = some job) (made : site.performNow seat job = .ok after) : Reached after
  | close {site : Site} (h : Reached site) (seat : Nat) {farewell : Scheduler → Scheduler} (hf : Farewell farewell) :
    Reached (site.update seat farewell)
  | vacate {site : Site} (h : Reached site) (seat : Nat) :
    Reached { site with seats := site.seats.modify seat fun x => { x with gone := true } }
  | openGate {site : Site} (h : Reached site) (key : String) (outcome : Outcome) : Reached (site.openGate key outcome).2
  | setScript {site : Site} (h : Reached site) (key : String) (script : Script) : Reached (site.setScript key script)
  | report {site : Site} (h : Reached site) : Reached site.report.2

/-- Whatever has been done at a site, it is sound. -/
theorem Reached.sound (h : site.Reached) : site.Sound := by
  induction h with
  | start opened => exact start_sound opened
  | turn _ ih => exact ih.takeTurn
  | pass _ millis ih => exact ih.pass millis
  | act _ there now brings free ih => exact ih.act there now brings free
  | clock _ opened elapsed ih => exact ih.of_subperm (fun _ => rfl) rfl (.refl _)
  | schedule _ read accepted ih => exact ih.schedule read accepted
  | cancel _ known made ih => exact ih.cancel known made
  | performNow _ known made ih => exact ih.performNow known made
  | close _ seat hf ih => exact ih.close hf
  | vacate _ seat ih =>
    refine ih.of_subperm (fun i => ?_) rfl (.refl _)
    unfold scheduler?
    dsimp only
    rw [List.getElem?_modify]
    split
    next => rw [Option.map_eq_map, Option.map_map]; rfl
    next => rw [Option.map_eq_map, Option.map_id']
  | openGate _ key outcome ih => exact ih.openGate key outcome
  | setScript _ key script ih => exact ih.of_subperm (fun _ => rfl) rfl (.refl _)
  | report _ ih => exact ih.of_subperm (fun _ => rfl) rfl (.refl _)

/-! ## Calls that let everything settle

They are made of turns and of time that passes, so a site stays within reach. -/

theorem Reached.turns (h : site.Reached) (most : Nat) : (turns most site).Reached := by
  induction most generalizing site with
  | zero => exact h
  | succ most ih =>
    unfold Site.turns
    split
    · exact h
    · exact ih h.turn

theorem Reached.settle (h : site.Reached) : site.settle.Reached := h.turns _

theorem Reached.dispose (h : site.Reached) (seat : Nat) : (site.dispose seat).Reached := h.settle.close seat .dispose

theorem Reached.leave (h : site.Reached) (seat : Nat) {farewell : Scheduler → Scheduler} (hf : Farewell farewell) :
    (site.leave seat farewell).Reached :=
  (h.settle.close seat hf).vacate seat

theorem Reached.advance (h : site.Reached) (millis part : Nat) : (site.advance millis part).Reached := by
  have parts : ∀ (l : List Nat) (part : Nat) (site : Site), site.Reached →
      (l.foldl (fun site _ => (site.pass part).settle) site).Reached := by
    intro l part
    induction l with
    | nil => exact fun site hs => hs
    | cons _ l ih => exact fun site hs => ih _ (hs.pass part).settle
  unfold Site.advance
  dsimp only
  split
  · exact parts _ _ site h
  · exact ((parts _ _ site h).pass _).settle

theorem Reached.waitParts (h : site.Reached) (seat : Nat) (holds : Site → Bool) (rate parts nextLook : Nat) :
    (waitParts seat holds rate parts nextLook site).2.Reached := by
  induction parts generalizing site nextLook with
  | zero => exact h
  | succ parts ih =>
    have later : (site.advance waitPart waitPart).Reached := h.advance waitPart waitPart
    unfold Site.waitParts
    dsimp only
    split
    · exact later
    · split
      · split
        · exact later
        · exact ih later _
      · exact ih later _

theorem Reached.waitUntil (h : site.Reached) (seat millis : Nat) (holds : Site → Bool) :
    (site.waitUntil seat millis holds).2.Reached := by
  unfold Site.waitUntil
  split
  next => exact h
  next =>
    split
    · exact h
    · exact h.waitParts ..

end Rota.Site
