/-
Who of a lineup is next. The foremost waiter is of higher priority than all in front of it and of no lower than
all behind it; so it is the first of a stable sort by descending priority, and to take out the next again and
again is to go through that sort.
-/
import Rota.Proofs.Queues

namespace Rota

theorem Priority.lt_iff {a b : Priority} : a < b ↔ a.rank < b.rank := .rfl

theorem Priority.le_iff {a b : Priority} : a ≤ b ↔ a.rank ≤ b.rank := .rfl

theorem Priority.eq_of_not_lt {a b : Priority} (h : a ≤ b) (hn : ¬ a < b) : a = b := by
  cases a <;> cases b <;> first | rfl | exact absurd (by decide) hn | exact absurd h (by decide)

theorem Priority.le_highest (priority : Priority) : priority ≤ highest := by cases priority <;> decide

namespace Lineup

/-- A waiter goes before all others, which stand in front of it and behind it. -/
structure Foremost (waiter : Waiter) (before after : List Waiter) : Prop where
  higher : ∀ w ∈ before, w.priority < waiter.priority
  noLower : ∀ w ∈ after, w.priority ≤ waiter.priority

/-! ## The next to run -/

/-- The search goes on from the best waiter so far to the foremost of those that are better, if there are any. -/
theorem scan_some (index best : Nat) (priority : Priority) : ∀ waiters : List Waiter,
    ((∀ w ∈ waiters, w.priority ≤ priority) ∧ scan waiters index (some (best, priority)) = some best) ∨
      ∃ before waiter after, waiters = before ++ waiter :: after ∧ priority < waiter.priority ∧ Foremost waiter before after ∧
        scan waiters index (some (best, priority)) = some (index + before.length)
  | [] => .inl ⟨nofun, rfl⟩
  | first :: rest => by
    unfold scan
    simp only [Option.all_some, decide_eq_true_eq]
    have top : ∀ w ∈ rest, w.priority ≤ Priority.highest := fun w _ => w.priority.le_highest
    by_cases hp : priority < first.priority
    · refine .inr ?_
      rw [if_pos hp]
      by_cases hh : first.priority = Priority.highest
      · exact ⟨[], first, rest, rfl, hp, ⟨nofun, hh ▸ top⟩, by rw [if_pos hh]; rfl⟩
      rw [if_neg hh]
      -- the first is the best so far
      obtain ⟨noLower, he⟩ | ⟨before, waiter, after, rfl, better, foremost, he⟩ :=
        scan_some (index + 1) index first.priority rest
      · exact ⟨[], first, rest, rfl, hp, ⟨nofun, noLower⟩, he⟩
      · refine ⟨first :: before, waiter, after, rfl, Nat.lt_trans hp better, ⟨?_, foremost.noLower⟩, ?_⟩
        · exact List.forall_mem_cons.2 ⟨better, foremost.higher⟩
        · rw [he, List.length_cons]; congr 1; omega
    · rw [if_neg hp]
      have hp : first.priority ≤ priority := Nat.not_lt.1 hp
      by_cases hh : first.priority = Priority.highest
      · refine .inl ⟨List.forall_mem_cons.2 ⟨hp, fun w hw => Nat.le_trans (hh ▸ top w hw) hp⟩, ?_⟩
        rw [if_pos hh]; rfl
      rw [if_neg hh]
      obtain ⟨noLower, he⟩ | ⟨before, waiter, after, rfl, better, foremost, he⟩ := scan_some (index + 1) best priority rest
      · exact .inl ⟨List.forall_mem_cons.2 ⟨hp, noLower⟩, he⟩
      · refine .inr ⟨first :: before, waiter, after, rfl, better, ⟨?_, foremost.noLower⟩, ?_⟩
        · exact List.forall_mem_cons.2 ⟨Nat.lt_of_le_of_lt hp better, foremost.higher⟩
        · rw [he, List.length_cons]; congr 1; omega

/-- The search among some waiters ends at the foremost. -/
theorem scan_none {waiters : List Waiter} (h : waiters ≠ []) :
    ∃ before waiter after, waiters = before ++ waiter :: after ∧ Foremost waiter before after ∧
      scan waiters 0 none = some before.length := by
  obtain ⟨first, rest, rfl⟩ := List.exists_cons_of_ne_nil h
  unfold scan
  simp only [Option.all_none, if_true]
  by_cases hh : first.priority = Priority.highest
  · exact ⟨[], first, rest, rfl, ⟨nofun, fun w _ => hh ▸ w.priority.le_highest⟩, by rw [if_pos hh]; rfl⟩
  rw [if_neg hh]
  obtain ⟨noLower, he⟩ | ⟨before, waiter, after, rfl, better, foremost, he⟩ := scan_some 1 0 first.priority rest
  · exact ⟨[], first, rest, rfl, ⟨nofun, noLower⟩, he⟩
  · refine ⟨first :: before, waiter, after, rfl, ⟨List.forall_mem_cons.2 ⟨better, foremost.higher⟩, foremost.noLower⟩, ?_⟩
    rw [he, List.length_cons, Nat.add_comm]

theorem takeNext_nil {lineup : Lineup} (h : lineup.waiters = []) : lineup.takeNext = (none, lineup) := by
  unfold takeNext
  rw [h]
  rfl

/-- Of those that wait the foremost is taken out next, and the others stay as they stand. -/
theorem takeNext_foremost {lineup : Lineup} (h : lineup.waiters ≠ []) :
    ∃ before waiter after, lineup.waiters = before ++ waiter :: after ∧ Foremost waiter before after ∧
      lineup.takeNext = (some waiter.id, { lineup with waiters := before ++ after }) := by
  obtain ⟨before, waiter, after, he, foremost, hs⟩ := scan_none h
  refine ⟨before, waiter, after, he, foremost, ?_⟩
  unfold takeNext
  rw [hs, he]
  simp [List.eraseIdx_append_of_length_le]

theorem takeNext_eq_some {lineup rest : Lineup} {id : JobId} (h : lineup.takeNext = (some id, rest)) :
    ∃ before waiter after, lineup.waiters = before ++ waiter :: after ∧ Foremost waiter before after ∧ waiter.id = id ∧
      rest = { lineup with waiters := before ++ after } := by
  by_cases hw : lineup.waiters = []
  · rw [takeNext_nil hw] at h; cases h
  obtain ⟨before, waiter, after, he, foremost, hn⟩ := takeNext_foremost hw
  cases hn.symm.trans h
  exact ⟨before, waiter, after, he, foremost, rfl, rfl⟩

theorem takeNext_eq_none {lineup rest : Lineup} (h : lineup.takeNext = (none, rest)) :
    lineup.waiters = [] ∧ rest = lineup := by
  by_cases hw : lineup.waiters = []
  · rw [takeNext_nil hw] at h; cases h; exact ⟨hw, rfl⟩
  obtain ⟨before, waiter, after, -, -, hn⟩ := takeNext_foremost hw
  cases hn.symm.trans h

/-! ## The order of precedence -/

/-- Those who wait go before one another as their priorities do. -/
def precedes (a b : Waiter) : Bool := b.priority ≤ a.priority

theorem precedes_trans (a b c : Waiter) (hab : precedes a b = true) (hbc : precedes b c = true) :
    precedes a c = true := by
  simp only [precedes, decide_eq_true_eq, Priority.le_iff] at *
  omega

theorem precedes_total (a b : Waiter) : (precedes a b || precedes b a) = true := by
  simp only [precedes, Bool.or_eq_true, decide_eq_true_eq, Priority.le_iff]
  omega

/-- Waiters by descending priority, those of one priority in the order in which they stand. -/
def byPriority (waiters : List Waiter) : List Waiter := waiters.mergeSort fun a b => b.priority ≤ a.priority

theorem byPriority_perm (waiters : List Waiter) : (byPriority waiters).Perm waiters := List.mergeSort_perm ..

/-- One more in front goes before those of its priority and lower, and after the others. -/
theorem byPriority_cons (first : Waiter) (waiters : List Waiter) :
    ∃ higher lower, byPriority waiters = higher ++ lower ∧ byPriority (first :: waiters) = higher ++ first :: lower ∧
      (∀ w ∈ higher, first.priority < w.priority) ∧ ∀ w ∈ lower, w.priority ≤ first.priority := by
  obtain ⟨higher, lower, he, hw, hh⟩ := List.mergeSort_cons precedes_trans precedes_total first waiters
  have sorted := List.pairwise_mergeSort precedes_trans precedes_total (first :: waiters)
  rw [he, List.pairwise_append, List.pairwise_cons] at sorted
  refine ⟨higher, lower, hw, he, fun w hm => ?_, fun w hm => of_decide_eq_true (sorted.2.1.1 w hm)⟩
  have := hh w hm
  simp only [precedes, Bool.not_eq_true', decide_eq_false_iff_not, Priority.le_iff] at this
  exact Nat.not_le.1 this

theorem byPriority_cons_eq (first : Waiter) (waiters : List Waiter) :
    byPriority (first :: waiters) = (byPriority waiters).filter (first.priority < ·.priority) ++
      first :: (byPriority waiters).filter (·.priority ≤ first.priority) := by
  obtain ⟨higher, lower, hw, he, hh, hl⟩ := byPriority_cons first waiters
  have notLower : higher.filter (·.priority ≤ first.priority) = [] :=
    List.filter_eq_nil_iff.2 fun w hm => by
      have := hh w hm
      simp only [decide_eq_true_eq, Priority.le_iff, Priority.lt_iff] at this ⊢
      omega
  have notHigher : lower.filter (first.priority < ·.priority) = [] :=
    List.filter_eq_nil_iff.2 fun w hm => by
      have := hl w hm
      simp only [decide_eq_true_eq, Priority.le_iff, Priority.lt_iff] at this ⊢
      omega
  rw [he, hw, List.filter_append, List.filter_append, notLower, notHigher,
    List.filter_eq_self.2 fun w hm => decide_eq_true (hh w hm), List.filter_eq_self.2 fun w hm => decide_eq_true (hl w hm)]
  simp

/-- The foremost is the first of all, and after it come the others in their order. -/
theorem Foremost.byPriority {waiter : Waiter} {before after : List Waiter} (h : Foremost waiter before after) :
    byPriority (before ++ waiter :: after) = waiter :: byPriority (before ++ after) := by
  induction before with
  | nil =>
    obtain ⟨higher, lower, hw, he, hh, -⟩ := byPriority_cons waiter after
    have none : higher = [] := List.eq_nil_iff_forall_not_mem.2 fun w hm => by
      have hm' : w ∈ after := (byPriority_perm after).mem_iff.1 (hw ▸ List.mem_append_left _ hm)
      exact Nat.not_le.2 (hh w hm) (h.noLower w hm')
    subst none
    exact he.trans (by rw [List.nil_append, List.nil_append, hw]; rfl)
  | cons first before ih =>
    obtain ⟨lt, higher⟩ := List.forall_mem_cons.1 h.higher
    have ih := ih ⟨higher, h.noLower⟩
    have notLower : ¬ waiter.priority ≤ first.priority := Nat.not_le.2 lt
    rw [List.cons_append, List.cons_append, byPriority_cons_eq, ih, byPriority_cons_eq]
    simp [lt, notLower]

/-- Whoever else leaves, the others keep their order. -/
theorem byPriority_sublist {some all : List Waiter} (h : some.Sublist all) : (byPriority some).Sublist (byPriority all) := by
  induction h with
  | slnil => exact .refl _
  | @cons some all first _ ih =>
    obtain ⟨higher, lower, hw, he, -⟩ := byPriority_cons first all
    rw [hw] at ih
    rw [he]
    exact ih.trans (.append (.refl _) (List.sublist_cons_self _ _))
  | cons_cons first _ ih =>
    rw [byPriority_cons_eq, byPriority_cons_eq]
    exact (ih.filter _).append ((ih.filter _).cons_cons first)

/-! ## Who goes before whom -/

/-- A waiter goes before another: it is of higher priority, or of the same and joined the lineup earlier. -/
def Outranks (lineup : Lineup) (first second : Waiter) : Prop :=
  second.priority < first.priority ∨ second.priority = first.priority ∧ [first, second].Sublist lineup.waiters

/-- From one lineup to a later one some may have gone, and some have joined at the end. -/
def Passes (lineup later : Lineup) (gone : JobId → Prop) : Prop :=
  ∃ kept joined, later.waiters = kept ++ joined ∧ kept.Sublist lineup.waiters ∧
    ∀ w ∈ lineup.waiters, w ∈ kept ∨ gone w.id

/-- The foremost goes before all others. -/
theorem Foremost.outranks {lineup : Lineup} {first : Waiter} {before after : List Waiter}
    (h : Foremost first before after) (hw : lineup.waiters = before ++ first :: after) {second : Waiter}
    (hm : second ∈ lineup.waiters) (hn : second ≠ first) : lineup.Outranks first second := by
  rw [hw, List.mem_append, List.mem_cons] at hm
  rcases hm with hm | rfl | hm
  · exact .inl (h.higher second hm)
  · contradiction
  · by_cases hp : second.priority < first.priority
    · exact .inl hp
    · refine .inr ⟨Priority.eq_of_not_lt (h.noLower second hm) hp, ?_⟩
      rw [hw]
      exact ((List.singleton_sublist.2 hm).cons_cons first).trans (List.sublist_append_right _ _)

/-- Whoever goes before another now did so before, if the other was there before. -/
theorem Passes.outranks {lineup later : Lineup} {gone : JobId → Prop} (h : lineup.Passes later gone)
    (hn : later.waiters.Nodup) {first second : Waiter} (hm : second ∈ lineup.waiters) (stays : ¬ gone second.id)
    (ho : later.Outranks first second) : lineup.Outranks first second := by
  obtain ⟨kept, joined, hl, hk, hg⟩ := h
  have second_kept : second ∈ kept := (hg second hm).resolve_right stays
  rcases ho with hp | ⟨hp, hs⟩
  · exact .inl hp
  · refine .inr ⟨hp, ?_⟩
    rw [hl, List.sublist_append_iff] at hs
    obtain ⟨l₁, l₂, he, h₁, h₂⟩ := hs
    rw [hl, List.nodup_append] at hn
    -- the second is not among those that have joined since
    have none : l₂ = [] := by
      by_contra hne
      have last : second ∈ l₂ := by
        have := congrArg List.getLast? he
        rw [List.getLast?_append_of_ne_nil _ hne] at this
        exact List.mem_of_getLast? this.symm
      exact hn.2.2 second second_kept second (h₂.subset last) rfl
    rw [none, List.append_nil] at he
    rw [he]
    exact h₁.trans hk

theorem Passes.refl (lineup : Lineup) (gone : JobId → Prop) : lineup.Passes lineup gone :=
  ⟨lineup.waiters, [], by simp, .refl _, fun _ hw => .inl hw⟩

/-- Whoever has not gone waits still. -/
theorem Passes.waits {lineup later : Lineup} {gone : JobId → Prop} (h : lineup.Passes later gone) {w : Waiter}
    (hm : w ∈ lineup.waiters) (stays : ¬ gone w.id) : w ∈ later.waiters := by
  obtain ⟨kept, joined, he, -, hg⟩ := h
  rw [he]
  exact List.mem_append_left _ ((hg w hm).resolve_right stays)

theorem Passes.mono {lineup later : Lineup} {gone gone' : JobId → Prop} (h : lineup.Passes later gone)
    (more : ∀ id, gone id → gone' id) : lineup.Passes later gone' := by
  obtain ⟨kept, joined, he, hk, hg⟩ := h
  exact ⟨kept, joined, he, hk, fun w hw => (hg w hw).imp_right (more w.id)⟩

theorem Passes.trans {first second third : Lineup} {gone gone' : JobId → Prop} (h : first.Passes second gone)
    (h' : second.Passes third gone') (hn : second.waiters.Nodup) : first.Passes third fun id => gone id ∨ gone' id := by
  obtain ⟨kept, joined, he, hk, hg⟩ := h
  obtain ⟨kept', joined', he', hk', hg'⟩ := h'
  rw [he, List.sublist_append_iff] at hk'
  obtain ⟨l₁, l₂, rfl, h₁, h₂⟩ := hk'
  refine ⟨l₁, l₂ ++ joined', by rw [he', List.append_assoc], h₁.trans hk, fun w hw => ?_⟩
  rcases hg w hw with hw | hw
  · rcases hg' w (he ▸ List.mem_append_left _ hw) with hw' | hw'
    · rcases List.mem_append.1 hw' with hw' | hw'
      · exact .inl hw'
      · rw [he, List.nodup_append] at hn
        exact absurd rfl (hn.2.2 w hw w (h₂.subset hw'))
    · exact .inr (.inr hw')
  · exact .inr (.inl hw)

theorem remove_waiters (lineup : Lineup) (id : JobId) :
    (lineup.remove id).2.waiters = lineup.waiters.eraseP (·.id = id) := by
  rw [List.eraseP_eq_eraseIdx]
  unfold remove
  cases lineup.waiters.findIdx? (·.id = id) <;> rfl

/-- To remove a job leaves the others in their order. -/
theorem remove_others (lineup : Lineup) (id : JobId) :
    (lineup.remove id).2.waiters.filter (·.id ≠ id) = lineup.waiters.filter (·.id ≠ id) := by
  rw [remove_waiters]
  induction lineup.waiters with
  | nil => rfl
  | cons waiter rest ih =>
    by_cases hi : waiter.id = id
    · rw [List.eraseP_cons_of_pos (by simpa using hi), List.filter_cons_of_neg (by simpa using hi)]
    · rw [List.eraseP_cons_of_neg (by simpa using hi), List.filter_cons, List.filter_cons, ih]

end Lineup

end Rota
