/-
The timetable as a docket: a list of the jobs that wait, each with its date, in the order in which they were last
put in. Whatever is put in and taken out, the entries of the timetable are the docket sorted by date, jobs with one
date as they follow one another there; it gives out just the jobs that the docket gives out; and its index tells the
same as its entries.
-/
import Rota.Proofs.Agenda
import Rota.Proofs.Levels

namespace Rota

/-- A job that waits, and the date under which it was put in. -/
structure Entry where
  due : Instant
  id : JobId
deriving DecidableEq

/-- An entry comes no later than another. -/
def Entry.le (a b : Entry) : Bool := a.due ≤ b.due

/-- The jobs that wait, in the order in which they were last put in. -/
structure Docket where
  entries : List Entry

namespace Docket

def empty : Docket := ⟨[]⟩

/-- The entries by date, those of one date in the order in which they were put in. -/
def byDate (docket : Docket) : List Entry := docket.entries.mergeSort Entry.le

def without (docket : Docket) (id : JobId) : Docket := ⟨docket.entries.filter (·.id ≠ id)⟩

/-- A job that waits for its due time comes last, under the time it is next due, and nowhere else. -/
def insert (docket : Docket) (job : Job) : Docket :=
  if job.state = .scheduled then ⟨(docket.without job.id).entries ++ [⟨job.nextDueAt, job.id⟩]⟩ else docket

def remove (docket : Docket) (id : JobId) : Option JobId × Docket :=
  (if id ∈ docket.entries.map (·.id) then some id else none, docket.without id)

/-- The jobs with a date up to an instant are taken out, by date. -/
def takeDue (docket : Docket) (now : Instant) : List JobId × Docket :=
  ((docket.byDate.filter (·.due ≤ now)).map (·.id), ⟨docket.entries.filter fun e => !decide (e.due ≤ now)⟩)

end Docket

/-! ## The docket by date -/

theorem Entry.le_trans (a b c : Entry) (hab : a.le b = true) (hbc : b.le c = true) : a.le c = true := by
  simp only [Entry.le, decide_eq_true_eq] at *
  exact Int.le_trans hab hbc

theorem Entry.le_total (a b : Entry) : (a.le b || b.le a) = true := by
  simp only [Entry.le, Bool.or_eq_true, decide_eq_true_eq]
  exact Int.le_total a.due.nanos b.due.nanos

theorem Docket.byDate_filter (docket : Docket) (p : Entry → Bool) :
    (⟨docket.entries.filter p⟩ : Docket).byDate = docket.byDate.filter p :=
  mergeSort_filter Entry.le_trans Entry.le_total p docket.entries

theorem Docket.byDate_concat (docket : Docket) (e : Entry) :
    (⟨docket.entries ++ [e]⟩ : Docket).byDate =
      docket.byDate.filter (·.due ≤ e.due) ++ e :: docket.byDate.filter fun f => !decide (f.due ≤ e.due) :=
  mergeSort_concat Entry.le_trans Entry.le_total docket.entries e

theorem Docket.byDate_perm (docket : Docket) : docket.byDate.Perm docket.entries := List.mergeSort_perm ..

theorem Docket.byDate_sorted (docket : Docket) : docket.byDate.Pairwise fun a b => a.due ≤ b.due :=
  (List.pairwise_mergeSort Entry.le_trans Entry.le_total docket.entries).imp of_decide_eq_true

namespace Timetable

/-- The entries of a timetable, without the sequence numbers. -/
def entries (t : Timetable) : List Entry := t.bySlot.map fun e => ⟨e.1.due, e.2⟩

theorem entries_ids (t : Timetable) : t.entries.map (·.id) = t.ids := by
  unfold entries ids
  rw [List.map_map]
  rfl

variable {t : Timetable} {docket : Docket}

/-! ## The two tables -/

/-- The table by slot and the index are inverse to one another: each tells what the other tells, and each has every
job and every slot once. The table is in order, and sequence numbers are given once. -/
structure Paired (t : Timetable) : Prop where
  ordered : t.Ordered
  inverse : ∀ id slot, t.slots.lookup id = some slot ↔ t.bySlot.lookup slot = some id
  mirrored : t.slots.Perm (t.bySlot.map Prod.swap)
  oneSlot : (t.slots.map (·.1)).Nodup
  oneJob : (t.bySlot.map (·.1)).Nodup
  once : t.ids.Nodup
  sequences : (t.bySlot.map (·.1.sequence)).Nodup
  below : ∀ e ∈ t.bySlot, e.1.sequence < t.sequence

theorem mem_of_lookup {α β : Type} [BEq α] [LawfulBEq α] {a : α} {b : β} {l : List (α × β)} (h : l.lookup a = some b) :
    (a, b) ∈ l := by
  obtain ⟨l₁, l₂, rfl, -⟩ := List.lookup_eq_some_iff.1 h
  simp

theorem WF.paired (h : t.WF) (ordered : t.Ordered) (oneSlot : (t.slots.map (·.1)).Nodup) : t.Paired := by
  have bySlot : ∀ slot id, t.bySlot.lookup slot = some id ↔ (slot, id) ∈ t.bySlot := fun slot id =>
    ⟨mem_of_lookup, lookup_of_mem h.slots_nodup⟩
  have mem : ∀ id slot, (id, slot) ∈ t.slots ↔ (slot, id) ∈ t.bySlot := fun id slot =>
    ⟨fun hm => (h.index id slot).1 (lookup_of_mem oneSlot hm), fun hm => mem_of_lookup ((h.index id slot).2 hm)⟩
  constructor
  case ordered => exact ordered
  case inverse => exact fun id slot => (h.index id slot).trans (bySlot slot id).symm
  case mirrored =>
    have swapped : (t.bySlot.map Prod.swap).Nodup :=
      (List.Nodup.of_map _ h.slots_nodup).map Prod.swap_injective
    refine (List.perm_ext_iff_of_nodup (List.Nodup.of_map _ oneSlot) swapped).2 fun e => ?_
    rw [List.mem_map]
    constructor
    · intro he
      exact ⟨e.swap, (mem e.1 e.2).1 he, e.swap_swap⟩
    · rintro ⟨f, hf, rfl⟩
      exact (mem f.2 f.1).2 hf
  case oneSlot => exact oneSlot
  case oneJob => exact h.slots_nodup
  case once => exact h.nodup
  case sequences => exact h.sequences
  case below => exact h.below

/-! ## One operation -/

theorem insert_refused {job : Job} (hs : job.state ≠ .scheduled) : t.insert job = t := by
  unfold insert
  rw [if_pos hs]

/-- A job is placed behind all that are due no later, and in front of the others. -/
theorem place_filter (slot : Slot) (id : JobId) {entries : List (Slot × JobId)}
    (ordered : entries.Pairwise fun e f => e.1.before f.1 = true) (newest : ∀ e ∈ entries, e.1.sequence < slot.sequence) :
    place slot id entries =
      entries.filter (fun e => e.1.due ≤ slot.due) ++ (slot, id) :: entries.filter fun e => !decide (e.1.due ≤ slot.due) := by
  obtain ⟨earlier, later, rfl, before, after, placed⟩ := place_eq slot id ordered newest
  have after : ∀ e ∈ later, ¬ e.1.due ≤ slot.due := fun e he => Int.not_le.2 (after e he)
  rw [placed, List.filter_append, List.filter_append, List.filter_eq_self.2 (by simpa using before),
    List.filter_eq_nil_iff.2 (by simpa using after), List.filter_eq_nil_iff.2 (by simpa using before),
    List.filter_eq_self.2 (by simpa using after), List.append_nil, List.nil_append]

theorem map_filter_entries (p : Entry → Bool) (l : List (Slot × JobId)) :
    (l.filter fun e => p ⟨e.1.due, e.2⟩).map (fun e => (⟨e.1.due, e.2⟩ : Entry)) =
      (l.map fun e => (⟨e.1.due, e.2⟩ : Entry)).filter p := by
  rw [List.filter_map]
  rfl

/-- A job that is put in comes behind all others that are due no later, and in front of those due later. -/
theorem entries_insert (h : t.WF) (ho : t.Ordered) {job : Job} (hs : job.state = .scheduled) :
    (t.insert job).entries =
      (t.entries.filter (·.id ≠ job.id)).filter (·.due ≤ job.nextDueAt) ++ ⟨job.nextDueAt, job.id⟩ ::
        (t.entries.filter (·.id ≠ job.id)).filter fun e => !decide (e.due ≤ job.nextDueAt) := by
  have placed := place_filter ⟨job.nextDueAt, t.sequence⟩ job.id (ho.filter fun e => e.2 ≠ job.id)
    fun e he => h.below e (List.mem_of_mem_filter he)
  unfold entries
  rw [h.insert_eq hs]
  simp only
  rw [placed, List.map_append, List.map_cons, ← map_filter_entries (fun e => e.id ≠ job.id),
    ← map_filter_entries (fun e => e.due ≤ job.nextDueAt), ← map_filter_entries fun e => !decide (e.due ≤ job.nextDueAt)]

theorem entries_remove (h : t.WF) (id : JobId) : (t.remove id).2.entries = t.entries.filter (·.id ≠ id) := by
  unfold entries
  rw [h.remove_eq]
  exact map_filter_entries (fun e => e.id ≠ id) t.bySlot

theorem takeDue_entries (ho : t.Ordered) (now : Instant) :
    (t.takeDue now).1 = (t.entries.filter (·.due ≤ now)).map (·.id) ∧
      (t.takeDue now).2.entries = t.entries.filter fun e => !decide (e.due ≤ now) := by
  obtain ⟨taken, left⟩ := ho.takeDue now
  unfold entries
  rw [taken, left, ← map_filter_entries (fun e => e.due ≤ now), ← map_filter_entries fun e => !decide (e.due ≤ now),
    List.map_map]
  exact ⟨rfl, rfl⟩

/-! ## Taking out one at a time -/

/-- Takes out the first entry, if it is due by an instant. -/
def takeFirst (t : Timetable) (now : Instant) : Option (JobId × Timetable) :=
  match t.bySlot with
  | [] => none
  | e :: rest =>
    if e.1.due ≤ now then some (e.2, { t with bySlot := rest, slots := forget e.2 t.slots }) else none

/-- The first entry is taken out again and again until it is not due: the jobs taken, and what is left. -/
inductive Sweeps (now : Instant) : Timetable → List JobId → Timetable → Prop
  | ended {t : Timetable} (none : t.takeFirst now = none) : Sweeps now t [] t
  | more {t t₁ t₂ : Timetable} {id : JobId} {ids : List JobId} (first : t.takeFirst now = some (id, t₁))
    (rest : Sweeps now t₁ ids t₂) : Sweeps now t (id :: ids) t₂

theorem takeDue_of_takeFirst_none {now : Instant} (h : t.takeFirst now = none) : t.takeDue now = ([], t) := by
  have stay : t.bySlot.takeWhile (fun e => decide (e.1.due ≤ now)) = [] ∧
      t.bySlot.dropWhile (fun e => decide (e.1.due ≤ now)) = t.bySlot := by
    unfold takeFirst at h
    cases hb : t.bySlot with
    | nil => exact ⟨rfl, rfl⟩
    | cons e rest =>
      rw [hb] at h
      have late : ¬ e.1.due ≤ now := fun hle => by simp [hle] at h
      simp [late]
  unfold takeDue
  rw [stay.1, stay.2]
  simp

theorem takeDue_of_takeFirst_some {t₁ : Timetable} {now : Instant} {id : JobId} (h : t.takeFirst now = some (id, t₁)) :
    t.takeDue now = (id :: (t₁.takeDue now).1, (t₁.takeDue now).2) ∧ t.size = t₁.size + 1 := by
  unfold takeFirst at h
  cases hb : t.bySlot with
  | nil => rw [hb] at h; cases h
  | cons e rest =>
    rw [hb] at h
    by_cases hle : e.1.due ≤ now
    · simp only [if_pos hle, Option.some.injEq, Prod.mk.injEq] at h
      obtain ⟨rfl, rfl⟩ := h
      unfold takeDue size forget
      rw [hb, List.takeWhile_cons_of_pos (by simpa using hle), List.dropWhile_cons_of_pos (by simpa using hle)]
      simp only [List.map_cons, List.filter_filter, List.contains_cons, Bool.not_or, List.length_cons, and_true,
        Prod.mk.injEq, Timetable.mk.injEq, true_and]
      apply List.filter_congr
      intro other _
      by_cases same : other.1 = e.2 <;> simp [same]
    · simp [hle] at h

theorem Sweeps.eq {t' : Timetable} {now : Instant} {ids : List JobId} (h : Sweeps now t ids t') :
    t.takeDue now = (ids, t') := by
  induction h with
  | ended none => exact takeDue_of_takeFirst_none none
  | more first _ ih =>
    rw [(takeDue_of_takeFirst_some first).1, ih]

/-- The sweep comes to its end: each time there is one entry less. -/
theorem sweeps_takeDue (now : Instant) (t : Timetable) : Sweeps now t (t.takeDue now).1 (t.takeDue now).2 := by
  cases hf : t.takeFirst now with
  | none =>
    rw [takeDue_of_takeFirst_none hf]
    exact .ended hf
  | some first =>
    obtain ⟨eq, less⟩ := takeDue_of_takeFirst_some hf
    rw [eq]
    exact .more hf (sweeps_takeDue now first.2)
termination_by t.size
decreasing_by omega

theorem sweeps_iff {t' : Timetable} {now : Instant} {ids : List JobId} :
    Sweeps now t ids t' ↔ t.takeDue now = (ids, t') := by
  constructor
  · exact Sweeps.eq
  · intro h
    have := sweeps_takeDue now t
    rwa [h] at this

/-! ## Any operations -/

/-- What is done to a timetable. A job is given as it is at that moment, in whatever state and with whatever dates. -/
inductive Call
  | insert (job : Job)
  | remove (id : JobId)
  | takeDue (now : Instant)

/-- What a call gives out, and what it leaves. -/
def call (t : Timetable) : Call → List JobId × Timetable
  | .insert job => ([], t.insert job)
  | .remove id => ((t.remove id).1.toList, (t.remove id).2)
  | .takeDue now => t.takeDue now

/-- What each of some calls gives out in turn, and what they leave. -/
def calls (t : Timetable) : List Call → List (List JobId) × Timetable
  | [] => ([], t)
  | c :: rest =>
    let (given, left) := (t.call c).2.calls rest
    ((t.call c).1 :: given, left)

end Timetable

namespace Docket

def call (docket : Docket) : Timetable.Call → List JobId × Docket
  | .insert job => ([], docket.insert job)
  | .remove id => ((docket.remove id).1.toList, (docket.remove id).2)
  | .takeDue now => docket.takeDue now

def calls (docket : Docket) : List Timetable.Call → List (List JobId) × Docket
  | [] => ([], docket)
  | c :: rest =>
    let (given, left) := (docket.call c).2.calls rest
    ((docket.call c).1 :: given, left)

end Docket

namespace Timetable

variable {t : Timetable} {docket : Docket}

/-- A timetable stands for a docket. -/
structure Stands (t : Timetable) (docket : Docket) : Prop where
  wf : t.WF
  ordered : t.Ordered
  oneSlot : (t.slots.map (·.1)).Nodup
  sorted : t.entries = docket.byDate

theorem empty_stands : empty.Stands .empty := by
  refine ⟨empty_wf, List.Pairwise.nil, List.nodup_nil, ?_⟩
  simp [entries, empty, Docket.byDate, Docket.empty]

theorem forget_nodup {slots : List (JobId × Slot)} (h : (slots.map (·.1)).Nodup) (id : JobId) :
    ((forget id slots).map (·.1)).Nodup := h.sublist (List.filter_sublist.map _)

theorem not_mem_forget (id : JobId) (slots : List (JobId × Slot)) : id ∉ (forget id slots).map (·.1) := by
  intro hm
  obtain ⟨e, he, hi⟩ := List.mem_map.1 hm
  exact of_decide_eq_true (List.mem_filter.1 he).2 hi

theorem Stands.insert (h : t.Stands docket) (job : Job) : (t.insert job).Stands (docket.insert job) := by
  unfold Docket.insert
  by_cases hs : job.state = .scheduled
  · rw [if_pos hs]
    constructor
    case wf => exact h.wf.insert hs
    case ordered => exact h.wf.insert_ordered h.ordered hs
    case oneSlot =>
      rw [h.wf.insert_eq hs]
      exact List.nodup_cons.2 ⟨not_mem_forget job.id t.slots, forget_nodup h.oneSlot job.id⟩
    case sorted =>
      rw [entries_insert h.wf h.ordered hs, h.sorted, Docket.byDate_concat]
      unfold Docket.without
      rw [Docket.byDate_filter]
  · rw [if_neg hs, insert_refused hs]
    exact h

theorem Stands.remove (h : t.Stands docket) (id : JobId) :
    (t.remove id).1 = (docket.remove id).1 ∧ (t.remove id).2.Stands (docket.remove id).2 := by
  have same : id ∈ t.ids ↔ id ∈ docket.entries.map (·.id) := by
    rw [← entries_ids, h.sorted]
    exact (docket.byDate_perm.map _).mem_iff
  have eq := h.wf.remove_eq id
  constructor
  · rw [eq]
    simp only [Docket.remove, same]
  · constructor
    case wf => exact h.wf.remove id
    case ordered =>
      rw [eq]
      exact h.ordered.sublist List.filter_sublist
    case oneSlot =>
      rw [eq]
      exact forget_nodup h.oneSlot id
    case sorted =>
      rw [entries_remove h.wf, h.sorted]
      exact (docket.byDate_filter fun e => e.id ≠ id).symm

theorem Stands.takeDue (h : t.Stands docket) (now : Instant) :
    (t.takeDue now).1 = (docket.takeDue now).1 ∧ (t.takeDue now).2.Stands (docket.takeDue now).2 := by
  obtain ⟨taken, left⟩ := takeDue_entries h.ordered now
  constructor
  · rw [taken, h.sorted]
    rfl
  · constructor
    case wf => exact h.wf.takeDue now
    case ordered => exact h.ordered.sublist (List.dropWhile_sublist _)
    case oneSlot => exact h.oneSlot.sublist (List.filter_sublist.map _)
    case sorted =>
      rw [left, h.sorted]
      exact (docket.byDate_filter fun e => !decide (e.due ≤ now)).symm

theorem Stands.call (h : t.Stands docket) (c : Call) :
    (t.call c).1 = (docket.call c).1 ∧ (t.call c).2.Stands (docket.call c).2 := by
  cases c with
  | insert job => exact ⟨rfl, h.insert job⟩
  | remove id => exact ⟨congrArg Option.toList (h.remove id).1, (h.remove id).2⟩
  | takeDue now => exact h.takeDue now

theorem Stands.calls (h : t.Stands docket) (cs : List Call) :
    (t.calls cs).1 = (docket.calls cs).1 ∧ (t.calls cs).2.Stands (docket.calls cs).2 := by
  induction cs generalizing t docket with
  | nil => exact ⟨rfl, h⟩
  | cons c rest ih =>
    obtain ⟨given, stands⟩ := h.call c
    obtain ⟨more, stands⟩ := ih stands
    refine ⟨?_, stands⟩
    show (t.call c).1 :: _ = (docket.call c).1 :: _
    rw [given, more]

/-- A timetable serves as a docket: it is that docket by date, its tables are inverse to one another, and each
operation does to the entries what it is to do. -/
structure Serves (t : Timetable) (docket : Docket) : Prop where
  sorted : t.entries = docket.byDate
  paired : t.Paired
  leavesOut : ∀ job, job.state ≠ .scheduled → t.insert job = t
  putsIn : ∀ job, job.state = .scheduled →
    ∃ before after, t.entries.filter (·.id ≠ job.id) = before ++ after ∧
      (t.insert job).entries = before ++ ⟨job.nextDueAt, job.id⟩ :: after ∧
      (∀ e ∈ before, e.due ≤ job.nextDueAt) ∧ ∀ e ∈ after, job.nextDueAt < e.due
  removes : ∀ id, (t.remove id).1 = (if id ∈ t.ids then some id else none) ∧
    (t.remove id).2.entries = t.entries.filter (·.id ≠ id)
  takes : ∀ now, (t.takeDue now).1 = (t.entries.filter (·.due ≤ now)).map (·.id) ∧
    (t.takeDue now).2.entries = t.entries.filter fun e => !decide (e.due ≤ now)
  sweeps : ∀ now ids left, Sweeps now t ids left ↔ t.takeDue now = (ids, left)

theorem Stands.serves (h : t.Stands docket) : t.Serves docket := by
  constructor
  case sorted => exact h.sorted
  case paired => exact h.wf.paired h.ordered h.oneSlot
  case leavesOut => exact fun job hs => insert_refused hs
  case putsIn =>
    intro job hs
    refine ⟨_, _, ?_, entries_insert h.wf h.ordered hs, ?_, ?_⟩
    · have inOrder : (t.entries.filter (·.id ≠ job.id)).Pairwise fun a b => a.due ≤ b.due := by
        rw [h.sorted]
        exact docket.byDate_sorted.filter _
      have split := takeWhile_eq_filter (fun e : Entry => decide (e.due ≤ job.nextDueAt))
        (inOrder.imp fun hab hb => decide_eq_true (Int.le_trans hab (of_decide_eq_true hb)))
      rw [← split.1, ← split.2, List.takeWhile_append_dropWhile]
    · intro e he
      exact of_decide_eq_true (List.mem_filter.1 he).2
    · intro e he
      have := (List.mem_filter.1 he).2
      simp only [Bool.not_eq_true', decide_eq_false_iff_not] at this
      exact Int.not_le.1 this
  case removes =>
    intro id
    refine ⟨?_, entries_remove h.wf id⟩
    rw [h.wf.remove_eq id]
  case takes => exact fun now => takeDue_entries h.ordered now
  case sweeps => exact fun now ids left => sweeps_iff

/-- Whatever is done to a timetable from the start on, it gives out what a docket does, and serves as that docket. -/
theorem refines_docket (cs : List Call) :
    (empty.calls cs).1 = (Docket.empty.calls cs).1 ∧ (empty.calls cs).2.Serves (Docket.empty.calls cs).2 := by
  obtain ⟨given, stands⟩ := empty_stands.calls cs
  exact ⟨given, stands.serves⟩

end Timetable

end Rota
