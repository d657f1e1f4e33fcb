/-
Due times at a desk. What an action takes out of the timetable, and what it puts in under which time; how a job
comes to wait for a slot; what the promotion loop has in hand.
-/
import Rota.Proofs.Agenda
import Rota.Proofs.Desk

namespace Rota

/-- A job that is sent on as scheduled is sent to the timetable. -/
theorem Sequel.fate_of_scheduled {policy : RetryPolicy} {now : Instant} {job job' : Job} {ending : Ending}
    {marks : List Mark} {fate : Fate} (h : Sequel policy now job ending marks job' fate) (hs : job'.state = .scheduled) :
    fate = .timetable := by
  rcases h.outcome with ⟨hf, -⟩ | ⟨-, state, -⟩ | ⟨-, state | state⟩
  · exact hf
  all_goals cases hs.symm.trans state

/-! ## The timetable of a desk -/

/-- What an action does to the timetable: some leave it, or one is put in under the time it is next due. -/
inductive Timed (d d' : Desk) : Prop
  | fewer (bySlot : d'.timetable.bySlot.Sublist d.timetable.bySlot) (sequence : d'.timetable.sequence = d.timetable.sequence)
    (jobs : ∀ id job', d'.job? id = some job' → job'.state = .scheduled →
      ∃ job, d.job? id = some job ∧ job.state = .scheduled ∧ job.nextDueAt = job'.nextDueAt)
  | inserted (job : Job) (known : d'.job? job.id = some job) (state : job.state = .scheduled)
    (timetable : d'.timetable = d.timetable.insert job) (others : ∀ id, id ≠ job.id → d'.job? id = d.job? id)

section

variable {number : Nat} {settings : Settings} {now : Instant} {d d' : Desk} {action : Action}

theorem Timed.same (jobs : d'.jobs = d.jobs) (bySlot : d'.timetable.bySlot.Sublist d.timetable.bySlot)
    (sequence : d'.timetable.sequence = d.timetable.sequence) : Timed d d' := by
  refine .fewer bySlot sequence fun id job' hj state => ⟨job', ?_, state, rfl⟩
  rw [← hj]
  unfold Desk.job?
  rw [jobs]

theorem Timed.put {id : JobId} {job job' : Job} (jobs : d'.jobs = (d.put job').jobs) (known : d.job? id = some job)
    (hi : job'.id = job.id)
    (self : job'.state = .scheduled → job.state = .scheduled ∧ job.nextDueAt = job'.nextDueAt)
    (bySlot : d'.timetable.bySlot.Sublist d.timetable.bySlot) (sequence : d'.timetable.sequence = d.timetable.sequence) :
    Timed d d' := by
  refine .fewer bySlot sequence fun i j hj state => ?_
  rw [Desk.job?_put jobs known hi] at hj
  split at hj
  next he =>
    cases hj
    subst he
    exact ⟨job, known, self state⟩
  next => exact ⟨j, hj, state, rfl⟩

theorem Shift.timed (h : Shift number settings now d action d') (hw : d.timetable.WF) : Timed d d' := by
  have removed : ∀ id, (d.timetable.remove id).2.bySlot.Sublist d.timetable.bySlot ∧
      (d.timetable.remove id).2.sequence = d.timetable.sequence := fun id => by
    rw [hw.remove_eq]
    exact ⟨List.filter_sublist, rfl⟩
  cases h with
  | quiet => exact .same rfl (.refl _) rfl
  | @enqueued made id work request plan unknown planned due =>
    refine .fewer (.refl _) rfl fun i j hj state => ?_
    rw [Desk.job?_append rfl unknown (Plan.job_id ..)] at hj
    split at hj
    next => cases hj; cases state
    next => exact ⟨j, hj, state, rfl⟩
  | @scheduled made id work request plan unknown planned later =>
    have added : ∀ d' : Desk, d'.jobs = d.jobs ++ [plan.job id work number .scheduled] →
        ∀ i, d'.job? i = if i = id then some (plan.job id work number .scheduled) else d.job? i := fun d' jobs i =>
      Desk.job?_append jobs unknown (Plan.job_id ..) i
    refine .inserted (plan.job id work number .scheduled) ?_ rfl rfl fun i hi => ?_
    · exact (added _ rfl id).trans (if_pos rfl)
    · exact (added _ rfl i).trans (if_neg hi)
  | cancelled known => exact .put rfl known rfl nofun (removed _).1 (removed _).2
  | hurried known => exact .put rfl known rfl nofun (removed _).1 (removed _).2
  | closed => exact .same rfl (.refl _) rfl
  | taken => exact .same rfl (List.dropWhile_sublist _) rfl
  | promoted hand known => exact .put rfl known rfl nofun (.refl _) rfl
  | launched chosen known => exact .put rfl known rfl nofun (.refl _) rfl
  | begun waited known => exact .put rfl known rfl (fun hs => ⟨hs, rfl⟩) (.refl _) rfl
  | givenUp waited known => exact .put rfl known rfl nofun (.refl _) rfl
  | @concluded task id ending job job' marks fate flying known sequel =>
    by_cases hfate : fate = .timetable
    · refine .inserted job' (Desk.job?_put_self rfl known sequel.id_eq) (sequel.state_eq.1 hfate) ?_ fun i hi => ?_
      · simp only [if_pos hfate]
      · have hid : job'.id = id := sequel.id_eq.trans (find?_id known)
        exact (Desk.job?_put rfl known sequel.id_eq i).trans (if_neg (hid ▸ hi))
    · refine .put rfl known sequel.id_eq (fun hs => absurd (sequel.fate_of_scheduled hs) hfate) ?_ ?_
      · simp only [if_neg hfate]; exact .refl _
      · simp only [if_neg hfate]
  | _ => exact .same rfl (.refl _) rfl

/-- The timetable is in order, and every scheduled job that stands in it does so under the time it is next due. -/
structure Desk.Dated (d : Desk) : Prop where
  ordered : d.timetable.Ordered
  keyed : ∀ slot id job, (slot, id) ∈ d.timetable.bySlot → d.job? id = some job → job.state = .scheduled →
    slot.due = job.nextDueAt

theorem Timed.dated (h : Timed d d') (hw : d.timetable.WF) (hd : d.Dated) : d'.Dated := by
  cases h with
  | fewer bySlot sequence jobs =>
    refine ⟨hd.ordered.sublist bySlot, fun slot id job' he hj state => ?_⟩
    obtain ⟨job, known, state', due⟩ := jobs id job' hj state
    rw [← due]
    exact hd.keyed slot id job (bySlot.subset he) known state'
  | inserted job known scheduled timetable others =>
    refine ⟨timetable ▸ hw.insert_ordered hd.ordered scheduled, fun slot id job' he hj state => ?_⟩
    rw [timetable, hw.insert_eq scheduled] at he
    rcases List.mem_cons.1 ((Timetable.place_perm _ _ _).mem_iff.1 he) with he | he
    · cases he
      cases known.symm.trans hj
      rfl
    · rw [List.mem_filter] at he
      have hn : id ≠ job.id := of_decide_eq_true he.2
      exact hd.keyed slot id job' he.1 (by rw [← others id hn, hj]) state

theorem Timed.follows (h : Timed d d') (hw : d.timetable.WF) {order : List JobId}
    (hf : Timetable.Follows order d.timetable) :
    Timetable.Follows (Timetable.reordered order (d'.timetable.insertedSince d.timetable)) d'.timetable := by
  cases h with
  | fewer bySlot => exact hf.sublist hw bySlot
  | inserted job known scheduled timetable => rw [timetable]; exact hf.insert hw scheduled

/-! ## Becoming ready -/

/-- How a job that waits for a slot after an action came to do so. -/
inductive Readied (now : Instant) (d : Desk) (job' : Job) : Action → Prop
  | before {action : Action} {job : Job} (known : d.job? job'.id = some job) (state : job.state = .enqueued) :
    Readied now d job' action
  | accepted {made : Instant} {work : Work} {request : Request} (due : job'.nextDueAt ≤ now) :
    Readied now d job' (.schedule made job'.id work request)
  | hurried : Readied now d job' (.performNow job'.id)
  | promoted {rest : List JobId} {job : Job} (hand : d.promotion = .holding (job'.id :: rest))
    (known : d.job? job'.id = some job) (state : job.state.canBecome .enqueued = true)
    (due : job'.nextDueAt = job.nextDueAt) : Readied now d job' .promotion
  | retried {task : TaskId} {kind : FailureKind} {message : String} {job : Job} (flying : (task, job'.id) ∈ d.inFlight.tasks)
    (known : d.job? job'.id = some job) (retries : job'.retries = job.retries + 1) (atOnce : job'.retryAt = none) :
    Readied now d job' (.conclude task (.failed kind message))

theorem Readied.same {id : JobId} {job' : Job} (jobs : d'.jobs = d.jobs) (hj : d'.job? id = some job')
    (state : job'.state = .enqueued) : Readied now d job' action := by
  cases find?_id hj
  have known : d.job? job'.id = some job' := by
    rw [← hj]
    unfold Desk.job?
    rw [jobs]
  exact .before known state

theorem Readied.put {i id : JobId} {job put job' : Job} (hj : d'.job? id = some job')
    (jobs : d'.jobs = (d.put put).jobs) (known : d.job? i = some job) (hi : put.id = job.id) (state : job'.state = .enqueued)
    (self : put.id = i → put.state = .enqueued → Readied now d put action) : Readied now d job' action := by
  rw [Desk.job?_put jobs known hi] at hj
  split at hj
  next he =>
    cases hj
    exact self (hi.trans (find?_id known)) state
  next =>
    cases find?_id hj
    exact .before hj state

/-- An attempt that leaves its job waiting for a slot has failed, and the job is tried again at once. -/
theorem Sequel.enqueued {policy : RetryPolicy} {job job' : Job} {ending : Ending} {marks : List Mark} {fate : Fate}
    (h : Sequel policy now job ending marks job' fate) (hs : job'.state = .enqueued) :
    (∃ kind message, ending = .failed kind message) ∧ job'.retries = job.retries + 1 ∧ job'.retryAt = none := by
  cases h with
  | succeeded h =>
    rcases h.outcome with ⟨-, state, -⟩ | ⟨-, state⟩ <;> cases hs.symm.trans state
  | @retried kind message retryAt =>
    cases retryAt with
    | none => exact ⟨⟨kind, message, rfl⟩, by simp [Job.retriedAt, Job.failedWith]⟩
    | some => simp [Job.retriedAt] at hs
  | exhausted _ h =>
    rcases h.outcome with ⟨-, state, -⟩ | ⟨-, state⟩ <;> cases hs.symm.trans state
  | stuck => cases hs

theorem Shift.readied (h : Shift number settings now d action d') {id : JobId} {job' : Job} (hj : d'.job? id = some job')
    (state : job'.state = .enqueued) : Readied now d job' action := by
  cases h with
  | @enqueued made id' work request plan unknown planned due =>
    rw [Desk.job?_append rfl unknown (Plan.job_id ..)] at hj
    split at hj
    next =>
      cases hj
      exact .accepted due
    next =>
      cases find?_id hj
      exact .before hj state
  | @scheduled made id' work request plan unknown planned later =>
    rw [Desk.job?_append rfl unknown (Plan.job_id ..)] at hj
    split at hj
    next => cases hj; cases state
    next =>
      cases find?_id hj
      exact .before hj state
  | cancelled known => exact .put hj rfl known rfl state nofun
  | hurried known =>
    refine .put hj rfl known rfl state fun hi _ => ?_
    subst hi
    exact .hurried
  | promoted hand known able =>
    refine .put hj rfl known rfl state fun hi _ => ?_
    subst hi
    exact .promoted hand known able rfl
  | launched chosen known => exact .put hj rfl known rfl state nofun
  | begun waited known =>
    refine .put hj rfl known rfl state fun hi hs => ?_
    subst hi
    exact .before known hs
  | givenUp waited known => exact .put hj rfl known rfl state nofun
  | concluded flying known sequel =>
    refine .put hj rfl known sequel.id_eq state fun hi hs => ?_
    subst hi
    obtain ⟨⟨kind, message, rfl⟩, retries, atOnce⟩ := sequel.enqueued hs
    exact .retried flying known retries atOnce
  | quiet => exact .same rfl hj state
  | _ => exact .same rfl hj state

/-! ## The promotion loop -/

/-- The jobs in the hand of the promotion loop. -/
def Desk.inHand (d : Desk) : List JobId :=
  match d.promotion with
  | .holding batch => batch
  | _ => []

theorem Promotion.Pauses.inHand {timetable : Timetable} {disposed : Bool} {rate : Duration} {p p' : Promotion} {bell : Bool}
    (h : Pauses timetable disposed rate now p p' bell) : ∀ batch, p' ≠ .holding batch := by
  cases h <;> exact nofun

/-- The loop takes in hand only what is due when it looks. -/
theorem Shift.inHand (h : Shift number settings now d action d') {id : JobId} (hm : id ∈ d'.inHand) :
    id ∈ d.inHand ∨ action = .promotion ∧ d.promotion = .looking ∧ id ∈ (d.timetable.takeDue now).1 := by
  cases h with
  | taken looking on =>
    refine .inr ⟨rfl, looking, ?_⟩
    unfold Desk.inHand at hm
    simp only at hm
    cases hd : (d.timetable.takeDue now).1 with
    | nil => rw [hd] at hm; cases hm
    | cons first rest => rw [hd] at hm; exact hm
  | promoted hand =>
    refine .inl ?_
    unfold Desk.inHand at hm ⊢
    rw [hand]
    exact List.mem_cons_of_mem _ hm
  | passedOver hand =>
    refine .inl ?_
    unfold Desk.inHand at hm ⊢
    rw [hand]
    exact List.mem_cons_of_mem _ hm
  | promotionPauses pauses =>
    unfold Desk.inHand at hm
    split at hm
    next hp => exact absurd hp (pauses.inHand _)
    next => cases hm
  | _ => exact .inl hm

/-- A loop that looks for due jobs takes them. -/
theorem Shift.of_looking (h : Shift number settings now d .promotion d') (looking : d.promotion = .looking)
    (on : d.disposed = false) :
    d' = { d with timetable := (d.timetable.takeDue now).2, promotion := .after now (d.timetable.takeDue now).1 } := by
  generalize ha : Action.promotion = action at h
  cases h with
  | taken => rfl
  | quiet still => subst ha; simp [Desk.Still, looking] at still
  | closed h => subst ha; rcases h with h | h | h <;> cases h
  | promoted hand => cases looking.symm.trans hand
  | passedOver hand => cases looking.symm.trans hand
  | promotionPauses pauses =>
    rw [looking, on] at pauses
    cases pauses with
    | stopped off => cases off
  | _ => cases ha

/-- A loop that comes to look for due jobs has moved none. -/
theorem Shift.to_looking (h : Shift number settings now d .promotion d') (looking : d'.promotion = .looking) :
    d'.jobs = d.jobs ∧ d'.lineup = d.lineup ∧ d'.timetable.bySlot = d.timetable.bySlot ∧
      d'.disposed = d.disposed := by
  generalize ha : Action.promotion = action at h
  cases h with
  | taken =>
    simp only at looking
    cases hd : (d.timetable.takeDue now).1 <;> rw [hd] at looking <;> cases looking
  | promoted => cases looking
  | passedOver => cases looking
  | closed h => subst ha; rcases h with h | h | h <;> cases h
  | quiet => exact ⟨rfl, rfl, rfl, rfl⟩
  | promotionPauses => exact ⟨rfl, rfl, rfl, rfl⟩
  | _ => cases ha

/-- A loop with a scheduled job in hand promotes it. -/
theorem Shift.of_holding (h : Shift number settings now d .promotion d') {id : JobId} {rest : List JobId} {job : Job}
    (hand : d.promotion = .holding (id :: rest)) (known : d.job? id = some job)
    (state : job.state.canBecome .enqueued = true) :
    d' = { d.put { job with state := .enqueued } with
      lineup := d.lineup.push { job with state := .enqueued }
      promotion := .holding rest } := by
  generalize ha : Action.promotion = action at h
  cases h with
  | promoted hand' known' =>
    cases hand.symm.trans hand'
    cases known.symm.trans known'
    rfl
  | passedOver hand' known' state' =>
    cases hand.symm.trans hand'
    cases known.symm.trans known'
    rw [state] at state'
    cases state'
  | quiet still => subst ha; simp [Desk.Still, hand] at still
  | closed h => subst ha; rcases h with h | h | h <;> cases h
  | taken looking => cases hand.symm.trans looking
  | promotionPauses pauses =>
    rw [hand] at pauses
    cases pauses with
    | stopped _ h => rcases h with h | ⟨_, _, h⟩ <;> cases h
  | _ => cases ha

end

end Rota
