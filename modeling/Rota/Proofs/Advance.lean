/-
What an action does to those who wait for a slot, and where it leaves the dispatch loop. `Advance` tells the
joining, the leaving, the choosing and the launching apart; all else that an action may do is of no matter here.
-/
import Rota.Proofs.Precedence
import Rota.Proofs.Slots

namespace Rota

/-! ## One action -/

namespace Desk

/-- The job that the dispatch loop has chosen. -/
def chosen (d : Desk) : List JobId :=
  match d.dispatch with
  | .chosen id => [id]
  | _ => []

/-- The order in which those who have no execution yet are to get one, if nobody joins or leaves them. -/
def order (d : Desk) : List JobId := d.chosen ++ (Lineup.byPriority d.lineup.waiters).map (·.id)

/-- The jobs that have been launched since an earlier point. -/
def launchedSince (d : Desk) (earlier : Desk) : List JobId := d.launched.drop earlier.launched.length

end Desk

/-- What an action does to those who wait for a slot and to the one that has been chosen. -/
inductive Advance (d d' : Desk) : Action → Prop
  | stays {action : Action} (waiters : d'.lineup.waiters = d.lineup.waiters) (chosen : d'.chosen = d.chosen)
    (launched : d'.launchedSince d = []) : Advance d d' action
  | joined {action : Action} {job : Job} (known : d'.job? job.id = some job)
    (waiters : d'.lineup.waiters = d.lineup.waiters ++ [⟨job.id, job.priority⟩]) (dispatch : d'.dispatch = d.dispatch)
    (launched : d'.launchedSince d = []) : Advance d d' action
  | withdrawn {id : JobId} (waits : id ∈ d.lineup.ids) (waiters : d'.lineup.waiters = d.lineup.waiters.eraseP (·.id = id))
    (dispatch : d'.dispatch = d.dispatch) (launched : d'.launchedSince d = []) : Advance d d' (.cancel id)
  | chose {slotFirst : Bool} {waiter : Waiter} {before after : List Waiter} (free : d.chosen = [])
    (waiters : d.lineup.waiters = before ++ waiter :: after) (foremost : Lineup.Foremost waiter before after)
    (others : d'.lineup.waiters = before ++ after) (chosen : d'.chosen = [waiter.id]) (launched : d'.launchedSince d = []) :
    Advance d d' (.dispatch slotFirst)
  | launched {slotFirst : Bool} {id : JobId} (hand : d.chosen = [id]) (waiters : d'.lineup.waiters = d.lineup.waiters)
    (free : d'.chosen = []) (launched : d'.launchedSince d = [id]) : Advance d d' (.dispatch slotFirst)
  | dropped {slotFirst : Bool} {id : JobId} {job : Job} (hand : d.chosen = [id]) (known : d.job? id = some job)
    (state : job.state ≠ .enqueued) (waiters : d'.lineup.waiters = d.lineup.waiters) (free : d'.chosen = [])
    (launched : d'.launchedSince d = []) : Advance d d' (.dispatch slotFirst)

section

variable {number : Nat} {settings : Settings} {now : Instant} {d d' : Desk} {action : Action}

theorem Desk.launchedSince_self {d d' : Desk} (h : d'.launched = d.launched) : d'.launchedSince d = [] := by
  unfold launchedSince
  rw [h, List.drop_length]

theorem Desk.launchedSince_erase {d d' : Desk} {id : JobId} (h : d'.launched = d.launched.erase id) :
    d'.launchedSince d = [] := by
  unfold launchedSince
  rw [h, List.drop_eq_nil_iff]
  exact List.length_erase_le

theorem Dispatch.Pauses.not_chosen {lineup : Lineup} {disposed : Bool} {rate : Duration} {p p' : Dispatch}
    {bell : Bool} (h : Pauses lineup disposed rate now p p' bell) (id : JobId) : p ≠ .chosen id ∧ p' ≠ .chosen id := by
  cases h with
  | stopped _ h => rcases h with rfl | rfl | ⟨_, rfl⟩ <;> exact ⟨nofun, nofun⟩
  | _ => exact ⟨nofun, nofun⟩

theorem Desk.chosen_eq_nil {d : Desk} (h : ∀ id, d.dispatch ≠ .chosen id) : d.chosen = [] := by
  unfold chosen
  split
  · exact absurd ‹_› (h _)
  · rfl

theorem Advance.stay (waiters : d'.lineup.waiters = d.lineup.waiters) (dispatch : d'.dispatch = d.dispatch)
    (launched : d'.launched = d.launched) : Advance d d' action := by
  refine .stays waiters ?_ (Desk.launchedSince_self launched)
  unfold Desk.chosen
  rw [dispatch]

theorem Advance.join (job : Job) (known : d'.job? job.id = some job) (state : job.state = .enqueued)
    (lineup : d'.lineup = d.lineup.push job) (dispatch : d'.dispatch = d.dispatch) (launched : d'.launched = d.launched) :
    Advance d d' action := by
  refine .joined known ?_ dispatch (Desk.launchedSince_self launched)
  rw [lineup]
  simp [Lineup.push, state]

theorem Shift.advance (h : Shift number settings now d action d') : Advance d d' action := by
  cases h with
  | @enqueued made id work request plan unknown planned due =>
    have known : ∀ d' : Desk, d'.jobs = d.jobs ++ [plan.job id work number .enqueued] →
        d'.job? id = some (plan.job id work number .enqueued) := fun d' jobs => by
      rw [Desk.job?_append jobs unknown (Plan.job_id ..), if_pos rfl]
    exact .join (plan.job id work number .enqueued) (known _ rfl) rfl rfl rfl rfl
  | scheduled => exact .stay rfl rfl rfl
  | @cancelled id job known state =>
    by_cases hout : id ∈ d.timetable.ids
    · exact .stay (by simp only [if_pos hout]) rfl rfl
    by_cases hline : id ∈ d.lineup.ids
    · refine .withdrawn hline ?_ rfl (Desk.launchedSince_self rfl)
      simp only [if_neg hout, Lineup.remove_waiters]
    · refine .stay ?_ rfl rfl
      simp only [if_neg hout, Lineup.remove_waiters]
      refine List.eraseP_of_forall_not fun w hw he => hline ?_
      exact List.mem_map.2 ⟨w, hw, of_decide_eq_true he⟩
  | hurried known state => exact .join _ (Desk.job?_put_self rfl known rfl) rfl rfl rfl rfl
  | closed => exact .stay rfl rfl rfl
  | taken => exact .stay rfl rfl rfl
  | promoted hand known state => exact .join _ (Desk.job?_put_self rfl known rfl) rfl rfl rfl rfl
  | passedOver => exact .stay rfl rfl rfl
  | promotionPauses => exact .stay rfl rfl rfl
  | granted waiting grants =>
    refine .stays rfl ?_ (Desk.launchedSince_self rfl)
    simp [Desk.chosen, waiting]
  | chose granted next =>
    obtain ⟨before, waiter, after, waiters, foremost, rfl, rfl⟩ := Lineup.takeNext_eq_some next
    refine .chose ?_ waiters foremost rfl rfl (Desk.launchedSince_self rfl)
    simp [Desk.chosen, granted]
  | drained granted next =>
    obtain ⟨-, rfl⟩ := Lineup.takeNext_eq_none next
    refine .stays rfl ?_ (Desk.launchedSince_self rfl)
    simp [Desk.chosen, granted]
  | @launched _ id job chosen known state =>
    have hand : d.chosen = [id] := by simp [Desk.chosen, chosen]
    refine .launched hand rfl rfl ?_
    simp [Desk.launchedSince]
  | @notLaunched _ id job chosen known state =>
    have hand : d.chosen = [id] := by simp [Desk.chosen, chosen]
    exact .dropped hand known state rfl rfl (Desk.launchedSince_self rfl)
  | dispatchPauses refused pauses =>
    refine .stays rfl ?_ (Desk.launchedSince_self rfl)
    rw [Desk.chosen_eq_nil fun id => (pauses.not_chosen id).1]
    exact Desk.chosen_eq_nil fun id => (pauses.not_chosen id).2
  | begun => exact .stays rfl rfl (Desk.launchedSince_erase rfl)
  | givenUp => exact .stays rfl rfl (Desk.launchedSince_erase rfl)
  | @concluded task id ending job job' marks fate flying known sequel =>
    by_cases hfate : fate = .lineup
    · refine .join _ (Desk.job?_put_self rfl known sequel.id_eq) (sequel.state_eq.2 hfate) ?_ rfl rfl
      simp only [if_pos hfate]
    · refine .stay ?_ rfl rfl
      simp only [if_neg hfate]
  | quiet => exact .stay rfl rfl rfl

/-! ## The order in which jobs are launched -/

/-- As long as nobody joins, those who wait are launched in their order. -/
theorem Advance.order_sublist (h : Advance d d' action) (unjoined : d'.lineup.size ≤ d.lineup.size) :
    (d'.launchedSince d ++ d'.order).Sublist d.order := by
  unfold Desk.order
  cases h with
  | stays waiters chosen launched => rw [waiters, chosen, launched]; exact .refl _
  | joined known waiters =>
    unfold Lineup.size at unjoined
    rw [waiters, List.length_append] at unjoined
    exact absurd unjoined (by simp)
  | withdrawn waits waiters dispatch launched =>
    have chosen : d'.chosen = d.chosen := by unfold Desk.chosen; rw [dispatch]
    rw [waiters, chosen, launched, List.nil_append]
    exact (List.Sublist.refl _).append ((Lineup.byPriority_sublist List.eraseP_sublist).map _)
  | chose free waiters foremost others chosen launched =>
    rw [free, waiters, others, chosen, launched, foremost.byPriority]
    exact .refl _
  | launched hand waiters free launched => rw [hand, waiters, free, launched]; exact .refl _
  | dropped hand known state waiters free launched =>
    rw [hand, waiters, free, launched]
    exact List.sublist_append_right _ _

/-- They are launched in just their order, unless one of them is cancelled or has moved on. -/
theorem Advance.order_eq (h : Advance d d' action) (unjoined : d'.lineup.size ≤ d.lineup.size)
    (kept : ∀ id ∈ d.order, action ≠ .cancel id)
    (waits : ∀ id ∈ d.order, ∃ job, d.job? id = some job ∧ job.state = .enqueued) :
    d'.launchedSince d ++ d'.order = d.order := by
  have inOrder : ∀ id ∈ d.lineup.ids, id ∈ d.order := fun id hm => by
    refine List.mem_append_right _ ?_
    exact (((Lineup.byPriority_perm _).map (·.id)).mem_iff).2 hm
  cases h with
  | stays waiters chosen launched => unfold Desk.order; rw [waiters, chosen, launched]; rfl
  | joined known waiters =>
    unfold Lineup.size at unjoined
    rw [waiters, List.length_append] at unjoined
    exact absurd unjoined (by simp)
  | withdrawn hm => exact absurd rfl (kept _ (inOrder _ hm))
  | chose free waiters foremost others chosen launched =>
    unfold Desk.order
    rw [free, waiters, others, chosen, launched, foremost.byPriority]
    rfl
  | launched hand waiters free launched => unfold Desk.order; rw [hand, waiters, free, launched]; rfl
  | @dropped _ id job hand known state waiters free launched =>
    obtain ⟨job', known', state'⟩ := waits id (List.mem_append_left _ (by rw [hand]; exact List.mem_singleton_self _))
    cases known.symm.trans known'
    exact absurd state' state

/-- Unless the dispatch loop moves, others may only join the lineup at its end or be cancelled. -/
theorem Advance.passes (h : Advance d d' action) (idle : ∀ slotFirst, action ≠ .dispatch slotFirst) :
    d.lineup.Passes d'.lineup fun id => action = .cancel id := by
  cases h with
  | stays waiters => exact ⟨d.lineup.waiters, [], by simp [waiters], .refl _, fun w hw => .inl hw⟩
  | joined known waiters => exact ⟨d.lineup.waiters, _, waiters, .refl _, fun w hw => .inl hw⟩
  | @withdrawn id waits waiters =>
    refine ⟨d'.lineup.waiters, [], by simp, waiters ▸ List.eraseP_sublist, fun w hw => ?_⟩
    by_cases hi : w.id = id
    · exact .inr (by rw [hi])
    · refine .inl ?_
      rw [waiters, List.mem_eraseP_of_neg (by simpa using hi)]
      exact hw
  | chose => exact absurd rfl (idle _)
  | launched => exact absurd rfl (idle _)
  | dropped => exact absurd rfl (idle _)

/-- Those who wait keep their places, and whoever joins does so at the end. -/
theorem Advance.arrivals (h : Advance d d' action) :
    ∃ kept joined, d'.lineup.waiters = kept ++ joined ∧ kept.Sublist d.lineup.waiters ∧ joined.length ≤ 1 := by
  cases h with
  | stays waiters => exact ⟨d.lineup.waiters, [], by simp [waiters], .refl _, by simp⟩
  | joined known waiters => exact ⟨d.lineup.waiters, _, waiters, .refl _, by simp⟩
  | withdrawn waits waiters => exact ⟨_, [], by rw [waiters, List.append_nil], List.eraseP_sublist, by simp⟩
  | chose free waiters foremost others =>
    refine ⟨_, [], by rw [others, List.append_nil], ?_, by simp⟩
    rw [waiters]
    exact (List.Sublist.refl _).append (List.sublist_cons_self _ _)
  | launched hand waiters => exact ⟨d.lineup.waiters, [], by simp [waiters], .refl _, by simp⟩
  | dropped hand known state waiters => exact ⟨d.lineup.waiters, [], by simp [waiters], .refl _, by simp⟩

/-- Whoever waits waited before, or has just joined under its own priority. -/
theorem Advance.waiter (h : Advance d d' action) {w : Waiter} (hm : w ∈ d'.lineup.waiters) :
    w ∈ d.lineup.waiters ∨ ∃ job, d'.job? w.id = some job ∧ job.priority = w.priority := by
  cases h with
  | stays waiters => exact .inl (waiters ▸ hm)
  | joined known waiters =>
    rw [waiters, List.mem_append, List.mem_singleton] at hm
    rcases hm with hm | rfl
    · exact .inl hm
    · exact .inr ⟨_, known, rfl⟩
  | withdrawn waits waiters => exact .inl (List.mem_of_mem_eraseP (waiters ▸ hm))
  | chose free waiters foremost others =>
    rw [others, List.mem_append] at hm
    rw [waiters, List.mem_append, List.mem_cons]
    exact .inl (hm.imp_right .inr)
  | launched hand waiters => exact .inl (waiters ▸ hm)
  | dropped hand known state waiters => exact .inl (waiters ▸ hm)

/-- Whoever is launched had been chosen. -/
theorem Advance.chosen_of_launched (h : Advance d d' action) {id : JobId} (hm : id ∈ d'.launchedSince d) :
    d.dispatch = .chosen id := by
  have chosen : d.chosen = [id] := by
    cases h with
    | launched hand waiters free launched =>
      rw [launched, List.mem_singleton] at hm
      rw [hand, hm]
    | stays _ _ launched => rw [launched] at hm; cases hm
    | joined _ _ _ launched => rw [launched] at hm; cases hm
    | withdrawn _ _ _ launched => rw [launched] at hm; cases hm
    | chose _ _ _ _ _ launched => rw [launched] at hm; cases hm
    | dropped _ _ _ _ _ launched => rw [launched] at hm; cases hm
  unfold Desk.chosen at chosen
  split at chosen
  next hd => rw [hd, List.singleton_inj.1 chosen]
  next => cases chosen

/-! ## The dispatch loop -/

theorem Shift.dispatch_idle (h : Shift number settings now d action d') (idle : ∀ slotFirst, action ≠ .dispatch slotFirst) :
    d'.dispatch = d.dispatch := by
  cases h with
  | granted => exact absurd rfl (idle _)
  | chose => exact absurd rfl (idle _)
  | drained => exact absurd rfl (idle _)
  | launched => exact absurd rfl (idle _)
  | notLaunched => exact absurd rfl (idle _)
  | dispatchPauses => exact absurd rfl (idle _)
  | _ => rfl

/-- The loop has a slot when it has just waited for one. -/
theorem Shift.dispatch_granted {slotFirst : Bool} (h : Shift number settings now d (.dispatch slotFirst) d')
    (hd : d'.dispatch = .granted) : d.dispatch = .waiting := by
  generalize ha : Action.dispatch slotFirst = action at h
  cases h with
  | granted waiting => exact waiting
  | dispatchPauses refused pauses =>
    -- a pause leaves the loop without a slot
    exact absurd ((congrArg Dispatch.slots hd).symm.trans pauses.slots.2) (by decide)
  | quiet still =>
    subst ha
    simp [Desk.Still, hd] at still
  | closed h => subst ha; rcases h with h | h | h <;> cases h
  | chose => cases hd
  | drained => cases hd
  | launched => cases hd
  | notLaunched => cases hd
  | _ => cases ha

/-- The loop has chosen when it has just had a slot. -/
theorem Shift.dispatch_chosen {slotFirst : Bool} {id : JobId} (h : Shift number settings now d (.dispatch slotFirst) d')
    (hd : d'.dispatch = .chosen id) : d.dispatch = .granted ∧ ∃ rest, d.lineup.takeNext = (some id, rest) := by
  generalize ha : Action.dispatch slotFirst = action at h
  cases h with
  | chose granted next => cases hd; exact ⟨granted, _, next⟩
  | dispatchPauses refused pauses => exact absurd hd (pauses.not_chosen id).2
  | quiet still =>
    subst ha
    simp [Desk.Still, hd] at still
  | closed h => subst ha; rcases h with h | h | h <;> cases h
  | granted => cases hd
  | drained => cases hd
  | launched => cases hd
  | notLaunched => cases hd
  | _ => cases ha

/-- A dispatch loop that has stopped has heard of disposal, and one that parks or is parked while somebody waits
is still to hear the bell. -/
structure Desk.Attentive (d : Desk) : Prop where
  stops : d.dispatch = .stopped → d.disposed = true
  hears : d.dispatch = .parking ∨ (∃ read, d.dispatch = .parked read) → d.lineup.waiters ≠ [] → d.lineup.bell = true

/-- While the loop neither parks nor has stopped there is nothing to hear. -/
theorem Desk.Attentive.moving (h : d.dispatch ≠ .stopped ∧ d.dispatch ≠ .parking ∧ ∀ read, d.dispatch ≠ .parked read) :
    d.Attentive := by
  constructor
  case stops => exact fun hd => absurd hd h.1
  case hears =>
    rintro (hd | ⟨read, hd⟩)
    · exact absurd hd h.2.1
    · exact absurd hd (h.2.2 read)

theorem Shift.attentive (h : Shift number settings now d action d') (hd : d.Attentive) : d'.Attentive := by
  have push : ∀ {job : Job}, job.state = .enqueued → (d.lineup.push job).bell = true := fun hs => by
    simp [Lineup.push, hs]
  cases h with
  | enqueued => exact ⟨hd.stops, fun _ _ => push rfl⟩
  | @cancelled id job known state =>
    have bell : (d.lineup.remove id).2.bell = d.lineup.bell := by
      unfold Lineup.remove
      split <;> rfl
    refine ⟨hd.stops, fun parked waits => ?_⟩
    simp only at waits ⊢
    split
    next hout => exact hd.hears parked (by simpa only [if_pos hout] using waits)
    next hout =>
      rw [if_neg hout, Lineup.remove_waiters] at waits
      rw [bell]
      refine hd.hears parked fun none => waits ?_
      rw [none]; rfl
  | hurried => exact ⟨hd.stops, fun _ _ => push rfl⟩
  | closed => exact ⟨fun _ => rfl, hd.hears⟩
  | promoted => exact ⟨hd.stops, fun _ _ => push rfl⟩
  | granted => exact .moving (by simp)
  | chose => exact .moving (by simp)
  | drained => exact .moving (by simp)
  | launched => exact .moving (by simp)
  | notLaunched => exact .moving (by simp)
  | @dispatchPauses slotFirst p bell refused pauses =>
    obtain ⟨stops, hears⟩ := hd
    generalize hp : d.dispatch = q at stops hears pauses
    cases pauses with
    | idle on empty => exact ⟨by simp, fun _ waits => absurd empty waits⟩
    | waits => exact .moving (by simp)
    | called => exact .moving (by simp)
    | parked silent =>
      refine ⟨by simp, fun _ waits => ?_⟩
      rw [hears (.inl rfl) waits] at silent
      cases silent
    | woken => exact .moving (by simp)
    | slept => exact .moving (by simp)
    | stopped off => exact ⟨fun _ => off, by rintro (h | ⟨_, h⟩) <;> cases h⟩
  | @concluded task id ending job job' marks fate flying known sequel =>
    refine ⟨hd.stops, fun parked waits => ?_⟩
    simp only at waits ⊢
    split
    next hfate => exact push (sequel.state_eq.2 hfate)
    next hfate => exact hd.hears parked (by simpa only [if_neg hfate] using waits)
  | _ => exact ⟨hd.stops, hd.hears⟩

end

end Rota
