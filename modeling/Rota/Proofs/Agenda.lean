/-
The order of a timetable. Its entries stand by due time and, at one due time, by the order in which they were
last put in; so what is due by an instant is a first part of them, and the rest is not.
-/
import Rota.Proofs.Queues

namespace Rota

/-! ## Slots -/

theorem Instant.eq_of_nanos {a b : Instant} (h : a.nanos = b.nanos) : a = b := by
  cases a; cases b; simp only at h; subst h; rfl

theorem Slot.before_iff {a b : Slot} :
    a.before b = true ↔ a.due < b.due ∨ a.due = b.due ∧ a.sequence < b.sequence := by
  simp [before]

theorem Slot.before_trans {a b c : Slot} (h : a.before b = true) (h' : b.before c = true) : a.before c = true := by
  rw [before_iff] at *
  rcases h with h | ⟨he, h⟩ <;> rcases h' with h' | ⟨he', h'⟩
  · exact .inl (Int.lt_trans h h')
  · exact .inl (he' ▸ h)
  · exact .inl (he ▸ h')
  · exact .inr ⟨he.trans he', Nat.lt_trans h h'⟩

/-- Of two slots with different sequence numbers one is before the other. -/
theorem Slot.before_of_not {a b : Slot} (h : ¬ a.before b = true) (hn : b.sequence ≠ a.sequence) : b.before a = true := by
  rw [before_iff, not_or, not_and] at h
  rw [before_iff]
  rcases Int.lt_trichotomy a.due.nanos b.due.nanos with hd | hd | hd
  · exact absurd hd h.1
  · have hd := Instant.eq_of_nanos hd
    have := h.2 hd
    exact .inr ⟨hd.symm, by omega⟩
  · exact .inl hd

theorem Slot.due_le_of_before {a b : Slot} (h : a.before b = true) : a.due ≤ b.due := by
  rcases before_iff.1 h with h | ⟨h, -⟩
  · exact Int.le_of_lt h
  · exact h ▸ Int.le_refl _

/-- A part of a list that is closed towards its front is its first part. -/
theorem takeWhile_eq_filter {α : Type} (p : α → Bool) :
    ∀ {l : List α}, l.Pairwise (fun a b => p b = true → p a = true) →
      l.takeWhile p = l.filter p ∧ l.dropWhile p = l.filter fun a => !p a
  | [], _ => ⟨rfl, rfl⟩
  | a :: l, h => by
    rw [List.pairwise_cons] at h
    obtain ⟨ht, hd⟩ := takeWhile_eq_filter p h.2
    by_cases hp : p a = true
    · simp [hp, ht, hd]
    · have none : ∀ b ∈ l, ¬ p b = true := fun b hb hpb => hp (h.1 b hb hpb)
      have all : l.filter (fun b => !p b) = l := List.filter_eq_self.2 fun b hb => by simpa using none b hb
      simp [hp, List.filter_eq_nil_iff.2 none, all]

namespace Timetable

/-! ## Entries in order -/

/-- The entries stand in the order of their slots. -/
def Ordered (t : Timetable) : Prop := t.bySlot.Pairwise fun e f => e.1.before f.1 = true

theorem Ordered.sublist {t t' : Timetable} (h : t.Ordered) (hs : t'.bySlot.Sublist t.bySlot) : t'.Ordered :=
  List.Pairwise.sublist hs h

theorem place_ordered (slot : Slot) (id : JobId) : ∀ {entries : List (Slot × JobId)},
    entries.Pairwise (fun e f => e.1.before f.1 = true) → (∀ e ∈ entries, e.1.sequence ≠ slot.sequence) →
    (place slot id entries).Pairwise fun e f => e.1.before f.1 = true
  | [], _, _ => List.pairwise_singleton _ _
  | e :: rest, h, hn => by
    rw [List.pairwise_cons] at h
    rw [List.forall_mem_cons] at hn
    unfold place
    split
    next hb =>
      refine List.pairwise_cons.2 ⟨List.forall_mem_cons.2 ⟨hb, fun f hf => ?_⟩, List.pairwise_cons.2 h⟩
      exact Slot.before_trans hb (h.1 f hf)
    next hb =>
      refine List.pairwise_cons.2 ⟨fun f hf => ?_, place_ordered slot id h.2 hn.2⟩
      rcases List.mem_cons.1 ((place_perm slot id rest).mem_iff.1 hf) with rfl | hf
      · exact Slot.before_of_not hb hn.1
      · exact h.1 f hf

/-- An entry with the highest sequence number is placed after all that are due by its time. -/
theorem place_eq (slot : Slot) (id : JobId) {entries : List (Slot × JobId)}
    (ordered : entries.Pairwise fun e f => e.1.before f.1 = true) (newest : ∀ e ∈ entries, e.1.sequence < slot.sequence) :
    ∃ earlier later, entries = earlier ++ later ∧ (∀ e ∈ earlier, e.1.due ≤ slot.due) ∧
      (∀ e ∈ later, slot.due < e.1.due) ∧ place slot id entries = earlier ++ (slot, id) :: later := by
  induction entries with
  | nil => exact ⟨[], [], rfl, List.forall_mem_nil _, List.forall_mem_nil _, rfl⟩
  | cons e rest ih =>
    rw [List.pairwise_cons] at ordered
    rw [List.forall_mem_cons] at newest
    unfold place
    by_cases hb : slot.before e.1 = true
    · rw [if_pos hb]
      have sooner : slot.due < e.1.due := by
        rcases Slot.before_iff.1 hb with sooner | ⟨-, sequence⟩
        · exact sooner
        · exact absurd sequence (Nat.not_lt.2 (Nat.le_of_lt newest.1))
      refine ⟨[], e :: rest, rfl, List.forall_mem_nil _, List.forall_mem_cons.2 ⟨sooner, fun f hf => ?_⟩, rfl⟩
      exact Int.lt_of_lt_of_le sooner (Slot.due_le_of_before (ordered.1 f hf))
    · rw [if_neg hb]
      have due : e.1.due ≤ slot.due := Int.not_lt.1 fun hlt => hb (Slot.before_iff.2 (.inl hlt))
      obtain ⟨earlier, later, rfl, before, after, placed⟩ := ih ordered.2 newest.2
      exact ⟨e :: earlier, later, rfl, List.forall_mem_cons.2 ⟨due, before⟩, after, by rw [placed]; rfl⟩

theorem WF.insert_ordered {t : Timetable} (h : t.WF) (ho : t.Ordered) {job : Job} (hs : job.state = .scheduled) :
    (t.insert job).Ordered := by
  rw [h.insert_eq hs]
  refine place_ordered _ _ (List.Pairwise.sublist List.filter_sublist ho) fun e he => ?_
  exact Nat.ne_of_lt (h.below e (List.mem_of_mem_filter he))

/-- What is taken out as due is what is due, in order, and the rest is left in order. -/
theorem Ordered.takeDue {t : Timetable} (h : t.Ordered) (now : Instant) :
    (t.takeDue now).1 = (t.bySlot.filter fun e => e.1.due ≤ now).map (·.2) ∧
      (t.takeDue now).2.bySlot = t.bySlot.filter fun e => !decide (e.1.due ≤ now) := by
  have split := takeWhile_eq_filter (fun e : Slot × JobId => decide (e.1.due ≤ now))
    (List.Pairwise.imp (fun hb hd => decide_eq_true (Int.le_trans (Slot.due_le_of_before hb) (of_decide_eq_true hd))) h)
  unfold Timetable.takeDue
  exact ⟨congrArg _ split.1, split.2⟩

theorem Ordered.mem_takeDue {t : Timetable} (h : t.Ordered) {now : Instant} {id : JobId} :
    id ∈ (t.takeDue now).1 ↔ ∃ slot, (slot, id) ∈ t.bySlot ∧ slot.due ≤ now := by
  rw [(h.takeDue now).1]
  simp

/-! ## The order of insertion -/

/-- Jobs stand in the order in which they were last put into a timetable, if they stand in the order of the sequence
numbers there. -/
structure Follows (order : List JobId) (t : Timetable) : Prop where
  known : ∀ e ∈ t.bySlot, e.2 ∈ order
  sequences : ∀ e ∈ t.bySlot, ∀ f ∈ t.bySlot, e.1.sequence < f.1.sequence → [e.2, f.2].Sublist order

/-- The job that has been put into a timetable since it was as before, if one was. -/
def insertedSince (t earlier : Timetable) : Option JobId :=
  (t.bySlot.find? fun e => earlier.sequence ≤ e.1.sequence).map (·.2)

/-- The order of insertion after a job has been put in, or none. -/
def reordered (order : List JobId) : Option JobId → List JobId
  | none => order
  | some id => order.filter (· ≠ id) ++ [id]

theorem nodup_reordered {order : List JobId} (h : order.Nodup) (id : Option JobId) : (reordered order id).Nodup := by
  cases id with
  | none => exact h
  | some id =>
    refine List.nodup_append.2 ⟨h.filter _, List.nodup_singleton _, fun a ha b hb => ?_⟩
    rw [List.mem_singleton.1 hb]
    exact of_decide_eq_true (List.mem_filter.1 ha).2

variable {t t' : Timetable} {order : List JobId}

theorem Follows.sublist (h : Follows order t) (hw : t.WF) (hs : t'.bySlot.Sublist t.bySlot) :
    Follows (reordered order (t'.insertedSince t)) t' := by
  have none : t'.insertedSince t = none := by
    unfold insertedSince
    rw [List.find?_eq_none.2 fun e he => ?_]
    · rfl
    · have := hw.below e (hs.subset he)
      simpa using this
  rw [none]
  exact ⟨fun e he => h.known e (hs.subset he), fun e he f hf => h.sequences e (hs.subset he) f (hs.subset hf)⟩

theorem Follows.insert (h : Follows order t) (hw : t.WF) {job : Job} (hs : job.state = .scheduled) :
    Follows (reordered order ((t.insert job).insertedSince t)) (t.insert job) := by
  have entries := place_perm ⟨job.nextDueAt, t.sequence⟩ job.id (t.bySlot.filter fun e => e.2 ≠ job.id)
  have mem : ∀ e, e ∈ (t.insert job).bySlot ↔ e = (⟨job.nextDueAt, t.sequence⟩, job.id) ∨ e ∈ t.bySlot ∧ e.2 ≠ job.id := by
    intro e
    rw [hw.insert_eq hs, entries.mem_iff, List.mem_cons, List.mem_filter]
    simp
  have since : (t.insert job).insertedSince t = some job.id := by
    unfold insertedSince
    have found : ((t.insert job).bySlot.find? fun e => t.sequence ≤ e.1.sequence).isSome :=
      List.find?_isSome.2 ⟨_, (mem _).2 (.inl rfl), by simp⟩
    obtain ⟨e, he⟩ := Option.isSome_iff_exists.1 found
    rw [he]
    have late : t.sequence ≤ e.1.sequence := by simpa using List.find?_some he
    rcases (mem e).1 (List.mem_of_find?_eq_some he) with rfl | ⟨old, -⟩
    · rfl
    · exact absurd (hw.below e old) (Nat.not_lt.2 late)
  rw [since]
  have others : ∀ e ∈ t.bySlot, e.2 ≠ job.id → e.2 ∈ order.filter (· ≠ job.id) := fun e he hn =>
    List.mem_filter.2 ⟨h.known e he, decide_eq_true hn⟩
  constructor
  case known =>
    intro e he
    rcases (mem e).1 he with rfl | ⟨old, hn⟩
    · exact List.mem_append_right _ (List.mem_singleton_self _)
    · exact List.mem_append_left _ (others e old hn)
  case sequences =>
    intro e he f hf hlt
    rcases (mem f).1 hf with rfl | ⟨fold, fn⟩
    · rcases (mem e).1 he with rfl | ⟨eold, en⟩
      · exact absurd hlt (Nat.lt_irrefl _)
      · exact (List.singleton_sublist.2 (others e eold en)).append (.refl _)
    · rcases (mem e).1 he with rfl | ⟨eold, en⟩
      · exact absurd (hw.below f fold) (Nat.not_lt.2 (Nat.le_of_lt hlt))
      · -- both were there before, and neither is the job that has been put in
        have both := (h.sequences e eold f fold hlt).filter (· ≠ job.id)
        rw [List.filter_eq_self.2 (by simp [en, fn])] at both
        exact both.trans (List.sublist_append_left _ _)

end Timetable

end Rota
