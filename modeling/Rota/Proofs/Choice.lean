/-
The choice of the next to run. The search through the lineup, which ends early, comes to what a plain choice comes to:
the first of those of the highest priority present. To choose again and again is to go through the lineup by
descending priority, those of one priority as they arrived; and whoever has joined the lineup is taken out as the next,
or removed, or waits still, just once.
-/
import Rota.Proofs.Levels
import Rota.Proofs.Precedence

namespace Rota

namespace Lineup

/-- The first of those of the highest priority present. -/
def choice (waiters : List Waiter) : Option Waiter :=
  waiters.find? fun w => waiters.all fun other => other.priority ≤ w.priority

/-! ## One choice -/

theorem Foremost.choice {waiter : Waiter} {before after : List Waiter} (h : Foremost waiter before after) :
    choice (before ++ waiter :: after) = some waiter := by
  have best : ∀ w ∈ before ++ waiter :: after, w.priority ≤ waiter.priority := by
    intro w hw
    rw [List.mem_append, List.mem_cons] at hw
    rcases hw with hw | rfl | hw
    · exact Nat.le_of_lt (h.higher w hw)
    · exact Nat.le_refl _
    · exact h.noLower w hw
  apply List.find?_eq_some_iff_append.2
  constructor
  · exact List.all_eq_true.2 fun w hw => decide_eq_true (best w hw)
  · refine ⟨before, after, rfl, fun w hw => ?_⟩
    -- whoever stands in front is of lower priority than the foremost
    have lower : ¬ waiter.priority ≤ w.priority := Nat.not_le.2 (h.higher w hw)
    simp [lower]

theorem Foremost.erase {waiter : Waiter} {before after : List Waiter} (h : Foremost waiter before after) :
    (before ++ waiter :: after).erase waiter = before ++ after := by
  have notBefore : waiter ∉ before := fun hm => Nat.lt_irrefl _ (h.higher waiter hm)
  rw [List.erase_append_right _ notBefore, List.erase_cons_head]

/-- The search takes out the plain choice, and leaves the others as they stand. -/
theorem takeNext_eq_choice (lineup : Lineup) :
    lineup.takeNext =
      match choice lineup.waiters with
      | none => (none, lineup)
      | some waiter => (some waiter.id, { lineup with waiters := lineup.waiters.erase waiter }) := by
  by_cases hw : lineup.waiters = []
  · rw [takeNext_nil hw, hw]
    rfl
  · obtain ⟨before, waiter, after, he, foremost, hn⟩ := takeNext_foremost hw
    rw [hn, he, foremost.choice]
    simp only
    rw [foremost.erase]

/-! ## Choosing again and again -/

theorem byPriority_descends (waiters : List Waiter) :
    (byPriority waiters).Pairwise fun a b => b.priority ≤ a.priority :=
  (List.pairwise_mergeSort precedes_trans precedes_total waiters).imp of_decide_eq_true

theorem level_precedes (w other : Waiter) : level precedes w other = decide (other.priority = w.priority) := by
  rcases w with ⟨-, p⟩
  rcases other with ⟨-, q⟩
  cases p <;> cases q <;> rfl

/-- Those of one priority go as they arrived. -/
theorem byPriority_stable (waiters : List Waiter) (priority : Priority) :
    (byPriority waiters).filter (·.priority = priority) = waiters.filter (·.priority = priority) := by
  have stable := mergeSort_filter_level precedes_trans precedes_total ⟨⟨0⟩, priority⟩ waiters
  have same : level precedes ⟨⟨0⟩, priority⟩ = fun other => decide (other.priority = priority) :=
    funext fun other => level_precedes _ other
  rwa [same] at stable

theorem drained_nobody {lineup : Lineup} (h : lineup.waiters = []) :
    ((byPriority lineup.waiters).map (·.id), { lineup with waiters := [] }) = (([] : List JobId), lineup) := by
  have same : { lineup with waiters := [] } = lineup := by rw [← h]
  rw [same, h]
  simp [byPriority]

/-- To take out the next as often as there are waiters, or oftener, is to take out all, by descending priority. -/
theorem takeAll_eq {most : Nat} : ∀ {lineup : Lineup}, lineup.waiters.length ≤ most →
    lineup.takeAll most = ((byPriority lineup.waiters).map (·.id), { lineup with waiters := [] }) := by
  induction most with
  | zero =>
    intro lineup h
    have none : lineup.waiters = [] := List.length_eq_zero_iff.1 (Nat.le_zero.1 h)
    rw [drained_nobody none]
    rfl
  | succ most ih =>
    intro lineup h
    unfold takeAll
    by_cases hw : lineup.waiters = []
    · rw [takeNext_nil hw, drained_nobody hw]
    · obtain ⟨before, waiter, after, he, foremost, hn⟩ := takeNext_foremost hw
      have fewer : (before ++ after).length ≤ most := by
        rw [he, List.length_append, List.length_cons] at h
        rw [List.length_append]
        omega
      rw [hn]
      simp only
      rw [ih fewer, he, foremost.byPriority]
      rfl

/-! ## Joining and leaving -/

/-- What is done to a lineup. A job is given as it is at that moment, in whatever state. -/
inductive Call
  | push (job : Job)
  | remove (id : JobId)
  | takeNext

/-- What has come of some calls. -/
structure Tally where
  /-- Those who joined the lineup, in order of arrival. -/
  joined : List Waiter
  /-- The jobs taken out as the next to run, in order. -/
  taken : List JobId
  removed : List JobId
  left : Lineup

/-- What comes of some calls. -/
def tally (lineup : Lineup) : List Call → Tally
  | [] => ⟨[], [], [], lineup⟩
  | .push job :: rest =>
    let later := (lineup.push job).tally rest
    { later with joined := (if job.state = .enqueued then [⟨job.id, job.priority⟩] else []) ++ later.joined }
  | .remove id :: rest =>
    let later := (lineup.remove id).2.tally rest
    { later with removed := (lineup.remove id).1.toList ++ later.removed }
  | .takeNext :: rest =>
    let later := lineup.takeNext.2.tally rest
    { later with taken := lineup.takeNext.1.toList ++ later.taken }

/-- Whoever was there or has joined has been taken or removed or waits still, just once; and those who wait still do so
in order of arrival. -/
structure Accounted (lineup : Lineup) (tally : Tally) : Prop where
  once : (lineup.ids ++ tally.joined.map (·.id)).Perm (tally.taken ++ tally.removed ++ tally.left.ids)
  inOrder : tally.left.waiters.Sublist (lineup.waiters ++ tally.joined)

theorem push_waiters (lineup : Lineup) (job : Job) :
    (lineup.push job).waiters = lineup.waiters ++ if job.state = .enqueued then [⟨job.id, job.priority⟩] else [] := by
  unfold push
  by_cases hs : job.state = .enqueued <;> simp [hs]

/-- To remove a job is to be given it, if it is there, and to leave the others where they are. -/
theorem remove_eq (lineup : Lineup) (id : JobId) :
    lineup.remove id = (if id ∈ lineup.ids then some id else none,
      { lineup with waiters := lineup.waiters.eraseP (·.id = id) }) := by
  have left := remove_waiters lineup id
  cases hx : lineup.waiters.findIdx? (·.id = id) with
  | none =>
    have absent : id ∉ lineup.ids := by
      intro hm
      obtain ⟨w, hw, hi⟩ := List.mem_map.1 hm
      have := List.findIdx?_eq_none_iff.1 hx w hw
      simp [hi] at this
    have nobody : lineup.remove id = (none, lineup) := by
      unfold remove
      rw [hx]
    rw [nobody] at left ⊢
    rw [if_neg absent, ← left]
  | some index =>
    have present : id ∈ lineup.ids := by
      obtain ⟨hlt, hi, -⟩ := List.findIdx?_eq_some_iff_getElem.1 hx
      exact List.mem_map.2 ⟨_, List.getElem_mem hlt, of_decide_eq_true hi⟩
    have found : lineup.remove id = (some id, { lineup with waiters := lineup.waiters.eraseIdx index }) := by
      unfold remove
      rw [hx]
    rw [found] at left ⊢
    rw [if_pos present, ← left]

theorem remove_perm (lineup : Lineup) (id : JobId) :
    lineup.ids.Perm ((lineup.remove id).1.toList ++ (lineup.remove id).2.ids) := by
  rw [ids_remove, remove_eq]
  by_cases present : id ∈ lineup.ids
  · rw [if_pos present]
    exact List.perm_cons_erase present
  · rw [if_neg present, List.erase_of_not_mem present]
    exact .refl _

theorem takeNext_perm (lineup : Lineup) : lineup.ids.Perm (lineup.takeNext.1.toList ++ lineup.takeNext.2.ids) := by
  cases hn : lineup.takeNext with
  | mk next rest =>
    cases next with
    | none => rw [(takeNext_eq_none hn).2]; exact .refl _
    | some id => exact ids_takeNext_some hn

theorem takeNext_sublist (lineup : Lineup) : lineup.takeNext.2.waiters.Sublist lineup.waiters := by
  rw [takeNext_eq_choice]
  cases choice lineup.waiters with
  | none => exact .refl _
  | some waiter => exact List.erase_sublist

theorem Accounted.push {lineup : Lineup} {job : Job} {tally : Tally} (h : (lineup.push job).Accounted tally) :
    lineup.Accounted
      { tally with joined := (if job.state = .enqueued then [⟨job.id, job.priority⟩] else []) ++ tally.joined } := by
  obtain ⟨once, inOrder⟩ := h
  constructor
  case once =>
    unfold ids at once ⊢
    rw [push_waiters, List.map_append, List.append_assoc, ← List.map_append] at once
    exact once
  case inOrder =>
    rw [push_waiters, List.append_assoc] at inOrder
    exact inOrder

theorem Accounted.remove {lineup : Lineup} {id : JobId} {tally : Tally} (h : (lineup.remove id).2.Accounted tally) :
    lineup.Accounted { tally with removed := (lineup.remove id).1.toList ++ tally.removed } := by
  obtain ⟨once, inOrder⟩ := h
  constructor
  case once =>
    apply List.perm_iff_count.2
    intro job
    have left := (remove_perm lineup id).count_eq job
    have later := once.count_eq job
    simp only [List.count_append] at left later ⊢
    omega
  case inOrder =>
    refine inOrder.trans (.append_right ?_ _)
    rw [remove_waiters]
    exact List.eraseP_sublist

theorem Accounted.takeNext {lineup : Lineup} {tally : Tally} (h : lineup.takeNext.2.Accounted tally) :
    lineup.Accounted { tally with taken := lineup.takeNext.1.toList ++ tally.taken } := by
  obtain ⟨once, inOrder⟩ := h
  constructor
  case once =>
    apply List.perm_iff_count.2
    intro job
    have left := (takeNext_perm lineup).count_eq job
    have later := once.count_eq job
    simp only [List.count_append] at left later ⊢
    omega
  case inOrder => exact inOrder.trans ((takeNext_sublist lineup).append_right _)

theorem accounted (lineup : Lineup) (calls : List Call) : lineup.Accounted (lineup.tally calls) := by
  induction calls generalizing lineup with
  | nil => exact ⟨by simp [tally], by simp [tally]⟩
  | cons call rest ih =>
    cases call with
    | push job => exact (ih (lineup.push job)).push
    | remove id => exact (ih (lineup.remove id).2).remove
    | takeNext => exact (ih lineup.takeNext.2).takeNext

/-- A lineup gives way plainly: whoever is next is the first of the highest priority present; all together go by
descending priority and, at one priority, as they arrived; a job that is removed is given if it is there, and the
others stay where they are; and nobody is lost or goes twice. -/
structure GivesWay (lineup : Lineup) : Prop where
  next : lineup.takeNext =
    match choice lineup.waiters with
    | none => (none, lineup)
    | some waiter => (some waiter.id, { lineup with waiters := lineup.waiters.erase waiter })
  drained : lineup.drain = ((byPriority lineup.waiters).map (·.id), { lineup with waiters := [] })
  drainedFor : ∀ most, lineup.waiters.length ≤ most → lineup.takeAll most = lineup.drain
  all : (byPriority lineup.waiters).Perm lineup.waiters
  descends : (byPriority lineup.waiters).Pairwise fun a b => b.priority ≤ a.priority
  stable : ∀ priority, (byPriority lineup.waiters).filter (·.priority = priority) =
    lineup.waiters.filter (·.priority = priority)
  removed : ∀ id, lineup.remove id = (if id ∈ lineup.ids then some id else none,
    { lineup with waiters := lineup.waiters.eraseP (·.id = id) })
  accounted : ∀ calls, lineup.Accounted (lineup.tally calls)

/-- Whoever waits in a lineup, it gives way plainly. -/
theorem gives_way (lineup : Lineup) : lineup.GivesWay := by
  have drained : lineup.drain = ((byPriority lineup.waiters).map (·.id), { lineup with waiters := [] }) :=
    takeAll_eq (Nat.le_refl _)
  constructor
  case next => exact takeNext_eq_choice lineup
  case drained => exact drained
  case drainedFor => exact fun most h => (takeAll_eq h).trans drained.symm
  case all => exact byPriority_perm lineup.waiters
  case descends => exact byPriority_descends lineup.waiters
  case stable => exact byPriority_stable lineup.waiters
  case removed => exact remove_eq lineup
  case accounted => exact accounted lineup

end Lineup

end Rota
