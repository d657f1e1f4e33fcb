/-
Stable sorting, by levels. A list in order is determined by those of its elements that stand at one level, for each
level; so a stable sort keeps what it is given filtered, and one more at the end goes behind those of its own level.
-/
import Mathlib.Data.List.Sort

namespace Rota

section

variable {α : Type} {le : α → α → Bool}

/-- Two elements stand at one level of an order: neither goes before the other. -/
def level (le : α → α → Bool) (a b : α) : Bool := le a b && le b a

theorem level_self (total : ∀ a b, (le a b || le b a) = true) (a : α) : level le a a = true := by
  have := total a a
  simpa [level] using this

/-- Those at one level stand alike to any other. -/
theorem le_of_level (trans : ∀ a b c, le a b = true → le b c = true → le a c = true) {a b : α}
    (h : level le a b = true) (c : α) : le b c = le a c := by
  obtain ⟨hab, hba⟩ := Bool.and_eq_true_iff.1 h
  apply Bool.eq_iff_iff.2
  exact ⟨trans a b c hab, trans b a c hba⟩

/-- Two lists in order are the same if they are so at every level. -/
theorem eq_of_levels (total : ∀ a b, (le a b || le b a) = true) : ∀ {l₁ l₂ : List α},
    l₁.Pairwise (fun a b => le a b = true) → l₂.Pairwise (fun a b => le a b = true) →
    (∀ a, l₁.filter (level le a) = l₂.filter (level le a)) → l₁ = l₂
  | [], [], _, _, _ => rfl
  | [], b :: l₂, _, _, same => by
    have := same b
    simp [level_self total] at this
  | a :: l₁, [], _, _, same => by
    have := same a
    simp [level_self total] at this
  | a :: l₁, b :: l₂, h₁, h₂, same => by
    rw [List.pairwise_cons] at h₁ h₂
    -- each of the two heads occurs in the other list, so they stand at one level
    have atLevel : level le a b = true := by
      have ha : a ∈ (b :: l₂).filter (level le a) := same a ▸ by simp [level_self total]
      have hb : b ∈ (a :: l₁).filter (level le b) := (same b).symm ▸ by simp [level_self total]
      have hba : le b a = true := by
        rcases List.mem_cons.1 (List.mem_of_mem_filter ha) with rfl | ha
        · simpa using total a a
        · exact h₂.1 a ha
      have hab : le a b = true := by
        rcases List.mem_cons.1 (List.mem_of_mem_filter hb) with rfl | hb
        · simpa using total b b
        · exact h₁.1 b hb
      exact Bool.and_eq_true_iff.2 ⟨hab, hba⟩
    have heads : a = b := by
      have := same a
      rw [List.filter_cons_of_pos (level_self total a), List.filter_cons_of_pos atLevel] at this
      exact (List.cons.inj this).1
    subst heads
    have tails : l₁ = l₂ := by
      apply eq_of_levels total h₁.2 h₂.2
      intro c
      have := same c
      by_cases hc : level le c a = true
      · rw [List.filter_cons_of_pos hc, List.filter_cons_of_pos hc] at this
        exact (List.cons.inj this).2
      · rwa [List.filter_cons_of_neg hc, List.filter_cons_of_neg hc] at this
    rw [tails]

/-- A stable sort leaves those at one level in their order. -/
theorem mergeSort_filter_level (trans : ∀ a b c, le a b = true → le b c = true → le a c = true)
    (total : ∀ a b, (le a b || le b a) = true) (a : α) (l : List α) :
    (l.mergeSort le).filter (level le a) = l.filter (level le a) := by
  have inOrder : (l.filter (level le a)).Pairwise fun b c => le b c = true := by
    refine List.pairwise_of_forall_mem_list fun b hb c hc => ?_
    have hba := (Bool.and_eq_true_iff.1 (List.mem_filter.1 hb).2).2
    have hac := (Bool.and_eq_true_iff.1 (List.mem_filter.1 hc).2).1
    exact trans b a c hba hac
  have kept := (List.sublist_mergeSort trans total inOrder List.filter_sublist).filter (level le a)
  simp only [List.filter_filter, Bool.and_self] at kept
  exact (kept.eq_of_length ((List.mergeSort_perm l le).filter _).length_eq.symm).symm

/-- A list in order that has the elements of another at every level, as they stand there, is its stable sort. -/
theorem eq_mergeSort (trans : ∀ a b c, le a b = true → le b c = true → le a c = true)
    (total : ∀ a b, (le a b || le b a) = true) {sorted l : List α} (inOrder : sorted.Pairwise fun a b => le a b = true)
    (same : ∀ a, sorted.filter (level le a) = l.filter (level le a)) : sorted = l.mergeSort le := by
  apply eq_of_levels total inOrder (List.pairwise_mergeSort trans total l)
  intro a
  rw [same, mergeSort_filter_level trans total]

/-- Whoever leaves, the others are sorted as before. -/
theorem mergeSort_filter (trans : ∀ a b c, le a b = true → le b c = true → le a c = true)
    (total : ∀ a b, (le a b || le b a) = true) (p : α → Bool) (l : List α) :
    (l.filter p).mergeSort le = (l.mergeSort le).filter p := by
  symm
  apply eq_mergeSort trans total
  · exact (List.pairwise_mergeSort trans total l).sublist List.filter_sublist
  · intro a
    have swap : ∀ l : List α, (l.filter p).filter (level le a) = (l.filter (level le a)).filter p := by
      intro l
      rw [List.filter_filter, List.filter_filter]
      exact List.filter_congr fun b _ => Bool.and_comm ..
    rw [swap, swap, mergeSort_filter_level trans total]

/-- One more at the end goes behind those that need not come after it, and before the others. -/
theorem mergeSort_concat (trans : ∀ a b c, le a b = true → le b c = true → le a c = true)
    (total : ∀ a b, (le a b || le b a) = true) (l : List α) (a : α) :
    (l ++ [a]).mergeSort le =
      (l.mergeSort le).filter (fun b => le b a) ++ a :: (l.mergeSort le).filter fun b => !le b a := by
  have sorted := List.pairwise_mergeSort trans total l
  symm
  apply eq_mergeSort trans total
  · have above : ∀ b ∈ (l.mergeSort le).filter fun b => !le b a, le a b = true := by
      intro b hb
      have := (List.mem_filter.1 hb).2
      have := total a b
      simp_all
    have below : ∀ b ∈ (l.mergeSort le).filter fun b => le b a, le b a = true := by
      intro b hb
      exact (List.mem_filter.1 hb).2
    refine List.pairwise_append.2 ⟨sorted.sublist List.filter_sublist, ?_, ?_⟩
    · exact List.pairwise_cons.2 ⟨above, sorted.sublist List.filter_sublist⟩
    · intro b hb c hc
      rcases List.mem_cons.1 hc with rfl | hc
      · exact below b hb
      · exact trans b a c (below b hb) (above c hc)
  · intro c
    rw [List.filter_append, List.filter_append, List.filter_filter, ← mergeSort_filter_level trans total c l]
    -- those at the level of `c` stand all below `a` or all above it
    have alike : ∀ b ∈ l.mergeSort le, (level le c b && le b a) = (level le c b && le c a) := by
      intro b _
      cases hb : level le c b with
      | false => rfl
      | true => rw [le_of_level trans hb]
    have alike' : ∀ b ∈ l.mergeSort le, (level le c b && !le b a) = (level le c b && !le c a) := by
      intro b _
      cases hb : level le c b with
      | false => rfl
      | true => rw [le_of_level trans hb]
    rw [List.filter_cons, List.filter_filter, List.filter_congr alike, List.filter_congr alike']
    cases hca : le c a with
    | true => cases hc : level le c a <;> simp [hc]
    | false =>
      have hc : level le c a = false := by simp [level, hca]
      simp [hc]

end

end Rota
