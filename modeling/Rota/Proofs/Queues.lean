/-
The lists of job numbers behind the timetable, the lineup and the executions in flight: what each
operation does to them. The timetable keeps two tables, by slot and by job; `Timetable.WF` says
that they tell the same, and every operation keeps it.
-/
import Rota.Queue.InFlight
import Rota.Queue.Lineup
import Rota.Queue.Timetable
import Mathlib.Data.List.Nodup
import Mathlib.Data.List.Perm.Basic

namespace Rota

theorem lookup_filter_key {α β : Type} [BEq α] [LawfulBEq α] (p : α → Bool) (k : α) :
    ∀ l : List (α × β), (l.filter fun e => p e.1).lookup k = if p k then l.lookup k else none
  | [] => by simp
  | (a, b) :: l => by
    have ih := lookup_filter_key p k l
    by_cases hk : k = a
    · subst hk
      by_cases hp : p k = true
      · simp [hp]
      · simp only [hp, Bool.false_eq_true, ↓reduceIte] at ih ⊢
        rw [List.filter_cons_of_neg (by simpa using hp), ih]
    · have hb : (k == a) = false := by simpa using hk
      by_cases hp : p a = true
      · rw [List.filter_cons_of_pos (by simpa using hp), List.lookup_cons, List.lookup_cons, hb, ih]
      · rw [List.filter_cons_of_neg (by simpa using hp), List.lookup_cons, hb, ih]

theorem lookup_of_mem {α β : Type} [BEq α] [LawfulBEq α] {a : α} {b : β} :
    ∀ {l : List (α × β)}, (l.map (·.1)).Nodup → (a, b) ∈ l → l.lookup a = some b
  | (c, d) :: l, hn, hm => by
    rw [List.map_cons, List.nodup_cons] at hn
    rw [List.lookup_cons]
    rcases List.mem_cons.1 hm with he | hm
    · cases he; simp
    · have hc : a ≠ c := fun he => hn.1 (List.mem_map.2 ⟨_, hm, he⟩)
      rw [beq_eq_false_iff_ne.2 hc]
      exact lookup_of_mem hn.2 hm

namespace Timetable

/-- The two tables of a timetable tell the same, and no two entries have one sequence number. -/
structure WF (t : Timetable) : Prop where
  index : ∀ id slot, t.slots.lookup id = some slot ↔ (slot, id) ∈ t.bySlot
  sequences : (t.bySlot.map (·.1.sequence)).Nodup
  below : ∀ e ∈ t.bySlot, e.1.sequence < t.sequence

theorem empty_wf : empty.WF := ⟨by simp [empty], by simp [empty], by simp [empty]⟩

/-- The bell is no part of what the tables tell. -/
theorem WF.hear {t : Timetable} (h : t.WF) : { t with bell := false }.WF := ⟨h.index, h.sequences, h.below⟩

theorem WF.slot_inj {t : Timetable} (h : t.WF) {e f : Slot × JobId} (he : e ∈ t.bySlot) (hf : f ∈ t.bySlot)
    (hs : e.1 = f.1) : e = f :=
  List.inj_on_of_nodup_map h.sequences he hf (by rw [hs])

theorem WF.slots_nodup {t : Timetable} (h : t.WF) : (t.bySlot.map (·.1)).Nodup :=
  (List.nodup_map_iff_inj_on (List.Nodup.of_map _ h.sequences)).2 fun _ he _ hf hs => h.slot_inj he hf hs

theorem WF.id_inj {t : Timetable} (h : t.WF) {e f : Slot × JobId} (he : e ∈ t.bySlot) (hf : f ∈ t.bySlot)
    (hi : e.2 = f.2) : e = f := by
  have h1 := (h.index e.2 e.1).2 he
  have h2 := (h.index f.2 f.1).2 hf
  rw [hi, h2] at h1
  exact h.slot_inj he hf (Option.some.inj h1).symm

theorem WF.nodup {t : Timetable} (h : t.WF) : t.ids.Nodup := by
  unfold ids
  refine (List.nodup_map_iff_inj_on ?_).2 fun e he f hf hi => h.id_inj he hf hi
  exact List.Nodup.of_map _ h.sequences

theorem WF.mem_ids {t : Timetable} (h : t.WF) {id : JobId} : id ∈ t.ids ↔ ∃ slot, t.slots.lookup id = some slot := by
  simp only [ids, List.mem_map]
  constructor
  · rintro ⟨e, he, rfl⟩; exact ⟨e.1, (h.index _ _).2 he⟩
  · rintro ⟨slot, hs⟩; exact ⟨_, (h.index _ _).1 hs, rfl⟩

/-! ## Taking out one job -/

theorem lookup_forget (id k : JobId) (slots : List (JobId × Slot)) :
    (forget id slots).lookup k = if k = id then none else slots.lookup k := by
  have h := lookup_filter_key (fun i => decide (i ≠ id)) k slots
  simp only [decide_eq_true_eq, ne_eq, ite_not] at h
  exact h

/-- There is nothing to forget of a job that the table does not know. -/
theorem forget_eq_self {id : JobId} {slots : List (JobId × Slot)} (h : slots.lookup id = none) : forget id slots = slots := by
  refine List.filter_eq_self.2 fun e he => ?_
  have unlike := List.lookup_eq_none_iff.1 h e he
  exact decide_eq_true fun same => by rw [same] at unlike; simp at unlike

/-- To vacate the slot of a job is to take out the entries of the job. -/
theorem WF.vacate_eq {t : Timetable} (h : t.WF) {id : JobId} {slot : Slot} (hs : t.slots.lookup id = some slot) :
    vacate slot t.bySlot = t.bySlot.filter fun e => e.2 ≠ id := by
  have hm := (h.index id slot).1 hs
  refine List.filter_congr fun e he => ?_
  have : e.1 = slot ↔ e.2 = id :=
    ⟨fun hx => by rw [h.slot_inj he hm hx], fun hx => by rw [h.id_inj he hm hx]⟩
  simp [this]

theorem ids_filter_ne (id : JobId) (entries : List (Slot × JobId)) :
    (entries.filter fun e => e.2 ≠ id).map (·.2) = (entries.map (·.2)).filter (· ≠ id) := by
  rw [List.filter_map]; rfl

theorem WF.without {t : Timetable} (h : t.WF) (id : JobId) :
    { t with bySlot := t.bySlot.filter (fun e => e.2 ≠ id), slots := forget id t.slots }.WF := by
  refine ⟨fun k slot => ?_, h.sequences.sublist (List.filter_sublist.map _), fun e he => ?_⟩
  · rw [lookup_forget]
    by_cases hk : k = id
    · simp [hk]
    · simp [hk, h.index]
  · exact h.below e (List.mem_of_mem_filter he)

/-- Removal gives the job back exactly if it was there. -/
theorem WF.remove_eq {t : Timetable} (h : t.WF) (id : JobId) :
    t.remove id = (if id ∈ t.ids then some id else none,
      { t with bySlot := t.bySlot.filter (fun e => e.2 ≠ id), slots := forget id t.slots }) := by
  unfold remove
  cases hs : t.slots.lookup id with
  | none =>
    -- neither table knows the job
    have hn : id ∉ t.ids := fun hm => by obtain ⟨slot, h'⟩ := h.mem_ids.1 hm; rw [hs] at h'; cases h'
    have he : t.bySlot.filter (fun e => e.2 ≠ id) = t.bySlot :=
      List.filter_eq_self.2 fun e he => by
        simpa using fun hx => hn (List.mem_map.2 ⟨e, he, hx⟩)
    rw [if_neg hn, he, forget_eq_self hs]
  | some slot =>
    have hm := (h.index id slot).1 hs
    simp only
    rw [if_pos (h.mem_ids.2 ⟨slot, hs⟩), h.vacate_eq hs, lookup_of_mem h.slots_nodup hm]

theorem WF.remove {t : Timetable} (h : t.WF) (id : JobId) : (t.remove id).2.WF := by
  rw [h.remove_eq]; exact h.without id

theorem WF.ids_remove {t : Timetable} (h : t.WF) (id : JobId) : (t.remove id).2.ids = t.ids.filter (· ≠ id) := by
  rw [h.remove_eq]; exact ids_filter_ne id t.bySlot

/-! ## Putting in -/

theorem place_perm (slot : Slot) (id : JobId) : ∀ entries, (place slot id entries).Perm ((slot, id) :: entries)
  | [] => .refl _
  | e :: rest => by
    unfold place
    split
    · exact .refl _
    · exact ((place_perm slot id rest).cons e).trans (.swap _ _ _)

/-- What stands in the timetable when a job is put in: whatever stood there but for the job itself. -/
theorem WF.insert_eq {t : Timetable} (h : t.WF) {job : Job} (hs : job.state = .scheduled) :
    t.insert job =
      { bySlot := place ⟨job.nextDueAt, t.sequence⟩ job.id (t.bySlot.filter fun e => e.2 ≠ job.id)
        slots := (job.id, ⟨job.nextDueAt, t.sequence⟩) :: forget job.id t.slots
        sequence := t.sequence + 1
        bell := true } := by
  have hr := congrArg (fun r : Option JobId × Timetable => r.2.bySlot) (h.remove_eq job.id)
  unfold insert
  rw [if_neg (by simp [hs])]
  unfold Timetable.remove at hr
  cases hl : t.slots.lookup job.id with
  | none => rw [hl] at hr; simp only at hr ⊢; rw [← hr]
  | some slot => rw [hl] at hr; simp only at hr ⊢; rw [← hr]

/-- A job that is put in anew is placed among the others. -/
theorem WF.insert_new {t : Timetable} (h : t.WF) {job : Job} (hs : job.state = .scheduled) (absent : job.id ∉ t.ids) :
    t.insert job =
      { bySlot := place ⟨job.nextDueAt, t.sequence⟩ job.id t.bySlot
        slots := (job.id, ⟨job.nextDueAt, t.sequence⟩) :: t.slots
        sequence := t.sequence + 1
        bell := true } := by
  have unknown : t.slots.lookup job.id = none := by
    rw [Option.eq_none_iff_forall_ne_some]
    exact fun slot found => absent (h.mem_ids.2 ⟨slot, found⟩)
  unfold insert
  rw [if_neg (by simp [hs]), unknown, forget_eq_self unknown]

theorem WF.insert {t : Timetable} (h : t.WF) {job : Job} (hs : job.state = .scheduled) : (t.insert job).WF := by
  rw [h.insert_eq hs]
  have hp := place_perm ⟨job.nextDueAt, t.sequence⟩ job.id (t.bySlot.filter fun e => e.2 ≠ job.id)
  have hw := h.without job.id
  refine ⟨fun k slot => ?_, ?_, fun e he => ?_⟩
  · simp only [List.lookup_cons, hp.mem_iff, List.mem_cons, Prod.mk.injEq]
    by_cases hk : k = job.id
    · subst hk
      -- the job itself has just the new entry
      have : ∀ slot, (slot, job.id) ∉ t.bySlot.filter fun e => e.2 ≠ job.id := by simp
      simp only [beq_self_eq_true, Option.some.injEq, and_true]
      exact ⟨fun hx => .inl hx.symm, fun hx => hx.elim Eq.symm fun hx => absurd hx (this slot)⟩
    · have hb : (k == job.id) = false := by simpa using hk
      simp only [hb, hk, and_false, false_or]
      exact hw.index k slot
  · rw [(hp.map _).nodup_iff, List.map_cons, List.nodup_cons]
    -- the new sequence number is above all that were given
    refine ⟨fun hm => ?_, hw.sequences⟩
    obtain ⟨e, he, hx⟩ := List.mem_map.1 hm
    have := hw.below e he
    simp only at hx this
    omega
  · rcases List.mem_cons.1 (hp.mem_iff.1 he) with rfl | he
    · exact Nat.lt_succ_self _
    · exact Nat.lt_succ_of_lt (hw.below e he)

theorem WF.ids_insert {t : Timetable} (h : t.WF) {job : Job} (hs : job.state = .scheduled) :
    (t.insert job).ids.Perm (job.id :: t.ids.filter (· ≠ job.id)) := by
  rw [h.insert_eq hs]
  have hp := (place_perm ⟨job.nextDueAt, t.sequence⟩ job.id (t.bySlot.filter fun e => e.2 ≠ job.id)).map (·.2)
  rw [List.map_cons, ids_filter_ne] at hp
  exact hp

/-! ## Taking out what is due -/

theorem ids_takeDue (t : Timetable) (now : Instant) : t.ids = (t.takeDue now).1 ++ (t.takeDue now).2.ids := by
  unfold takeDue ids
  rw [← List.map_append, List.takeWhile_append_dropWhile]

theorem WF.takeDue {t : Timetable} (h : t.WF) (now : Instant) : (t.takeDue now).2.WF := by
  have hd : (t.takeDue now).2.bySlot.Sublist t.bySlot := List.dropWhile_sublist _
  have hn := h.nodup
  rw [ids_takeDue t now, List.nodup_append] at hn
  refine ⟨fun id slot => ?_, h.sequences.sublist (hd.map _), fun e he => h.below e (hd.subset he)⟩
  have hl := lookup_filter_key (fun i => !(t.takeDue now).1.contains i) id t.slots
  show ((t.slots.filter fun e => !(t.takeDue now).1.contains e.1).lookup id = some slot) ↔ _
  rw [hl]
  by_cases hdue : id ∈ (t.takeDue now).1
  · have : (slot, id) ∉ (t.takeDue now).2.bySlot := fun hm => hn.2.2 id hdue id (List.mem_map_of_mem hm) rfl
    simp [hdue, this]
  · have hsplit : (slot, id) ∈ t.bySlot ↔ (slot, id) ∈ (t.takeDue now).2.bySlot := by
      refine ⟨fun hm => ?_, fun hm => hd.subset hm⟩
      rw [← List.takeWhile_append_dropWhile (p := fun e => decide (e.1.due ≤ now)) (l := t.bySlot)] at hm
      rcases List.mem_append.1 hm with hm | hm
      · exact absurd (List.mem_map_of_mem (f := (·.2)) hm) hdue
      · exact hm
    simp [hdue, h.index, hsplit]

end Timetable

namespace Lineup

theorem ids_push (lineup : Lineup) {job : Job} (h : job.state = .enqueued) :
    (lineup.push job).ids = lineup.ids ++ [job.id] := by
  simp [push, ids, h]

theorem ids_remove (lineup : Lineup) (id : JobId) : (lineup.remove id).2.ids = lineup.ids.erase id := by
  unfold remove ids
  have he := List.erase_eq_eraseIdx (lineup.waiters.map (·.id)) id
  have hi : (lineup.waiters.map (·.id)).idxOf? id = lineup.waiters.findIdx? (·.id = id) := by
    rw [List.idxOf?, List.findIdx?_map]; rfl
  rw [he, hi]
  cases lineup.waiters.findIdx? (·.id = id) with
  | none => rfl
  | some index => simp [List.eraseIdx_map]

/-- What is taken out next was there, and the rest is left. -/
theorem ids_takeNext_some {lineup rest : Lineup} {id : JobId} (h : lineup.takeNext = (some id, rest)) :
    lineup.ids.Perm (id :: rest.ids) := by
  unfold takeNext at h
  split at h
  · cases h
  · rename_i index hx
    simp only [Prod.mk.injEq, Option.map_eq_some_iff] at h
    obtain ⟨⟨w, hw, rfl⟩, rfl⟩ := h
    obtain ⟨hlt, rfl⟩ := List.getElem?_eq_some_iff.1 hw
    have := (List.getElem_cons_eraseIdx_perm hlt).symm.map Waiter.id
    simpa [ids] using this

theorem ids_takeNext_none {lineup rest : Lineup} (h : lineup.takeNext = (none, rest)) : rest.ids = lineup.ids := by
  unfold takeNext at h
  split at h
  · cases h; rfl
  · rename_i index hx
    simp only [Prod.mk.injEq, Option.map_eq_none_iff, List.getElem?_eq_none_iff] at h
    obtain ⟨hlt, rfl⟩ := h
    simp [ids, List.eraseIdx_of_length_le hlt]

end Lineup

end Rota
