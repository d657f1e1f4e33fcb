/-
Delays before retries without their random part. The base is waited once, once more with each retry, or twice as often
with each, up to the greatest factor; the delay is never negative and never above a cap. It is the product cut at the
longest span and at the cap, except where the product is longer than the longest span and yet not refused: there it is
the product itself, and a later one, which is refused, makes the delay shorter again.
-/
import Rota.Delay.Rule

namespace Rota

namespace Span

theorem nanos_max (a b : Span) : (max a b).nanos = max a.nanos b.nanos := by
  show (if a ≤ b then b else a).nanos = _
  have le : a ≤ b ↔ a.nanos ≤ b.nanos := Iff.rfl
  split
  next h => exact (Int.max_eq_right (le.1 h)).symm
  next h => exact (Int.max_eq_left (Int.le_of_lt (Int.not_le.1 (mt le.2 h)))).symm

theorem nanos_min (a b : Span) : (min a b).nanos = min a.nanos b.nanos := by
  show (if a ≤ b then a else b).nanos = _
  have le : a ≤ b ↔ a.nanos ≤ b.nanos := Iff.rfl
  split
  next h => exact (Int.min_eq_left (le.1 h)).symm
  next h => exact (Int.min_eq_right (Int.le_of_lt (Int.not_le.1 (mt le.2 h)))).symm

/-- What the nanoseconds of a product are to stay below for it not to be refused: as many seconds as a signed 64-bit
word holds. -/
def ceiling : Int := 9223372036854775807000000000

theorem scale?_nanos (a : Span) (factor : Int) :
    ((a.scale? factor).getD .longest).nanos =
      if -ceiling ≤ a.nanos * factor ∧ a.nanos * factor < ceiling then a.nanos * factor else longest.nanos := by
  have ceiling : ceiling = 9223372036854775807000000000 := rfl
  unfold scale?
  dsimp only
  split
  next h => rw [if_pos (by omega)]; rfl
  next h => rw [if_neg (by omega)]; rfl

end Span

namespace Growth

/-- How often the base is waited before a retry, however often that may be. -/
def times (growth : Growth) (retry : Nat) : Nat :=
  match growth with
  | constant => 1
  | linear => max retry 1
  | exponential => Nat.pow 2 (max retry 1 - 1)

variable {retry retry' : Nat}

/-- The factor of a retry is how often the base is to be waited, up to the greatest factor. -/
theorem factor_eq (growth : Growth) (retry : Nat) : growth.factor retry = min (growth.times retry) maxFactor := by
  cases growth with
  | constant => rfl
  | linear => rfl
  | exponential =>
    show (if max retry 1 ≤ 31 then Nat.pow 2 (max retry 1 - 1) else maxFactor) =
      min (Nat.pow 2 (max retry 1 - 1)) maxFactor
    split
    next few =>
      have le : Nat.pow 2 (max retry 1 - 1) ≤ Nat.pow 2 30 := Nat.pow_le_pow_right (by decide) (by omega)
      have less : Nat.pow 2 30 ≤ maxFactor := by decide
      omega
    next many =>
      have ge : Nat.pow 2 31 ≤ Nat.pow 2 (max retry 1 - 1) := Nat.pow_le_pow_right (by decide) (by omega)
      have more : maxFactor ≤ Nat.pow 2 31 := by decide
      omega

theorem times_mono (growth : Growth) (h : retry ≤ retry') : growth.times retry ≤ growth.times retry' := by
  cases growth with
  | constant => exact Nat.le_refl _
  | linear =>
    show max retry 1 ≤ max retry' 1
    omega
  | exponential =>
    apply Nat.pow_le_pow_right
    · decide
    · omega

end Growth

namespace DelayRule

/-- The base so often as it is to be waited before a retry, in nanoseconds. -/
def product (rule : DelayRule) (retry : Nat) : Int :=
  rule.base.nanos * (min (rule.growth.times retry) maxFactor : Nat)

/-- The delay that there should be before a retry, in nanoseconds: the product, no longer than the longest span and the
cap, and not negative. -/
def intended (rule : DelayRule) (retry : Nat) : Int :=
  let within := min (rule.product retry) Span.longest.nanos
  max 0 (match rule.cap with
    | some cap => min within cap.nanos
    | none => within)

/-- Whether the product is longer than the longest span, and neither refused nor cut at the cap for that. -/
def Exceeds (rule : DelayRule) (retry : Nat) : Prop :=
  Span.longest.nanos < rule.product retry ∧ rule.product retry < Span.ceiling ∧
    ∀ cap, rule.cap = some cap → Span.longest.nanos < cap.nanos

/-- Whether it is so before one retry, while before another the product is refused. -/
def Falls (rule : DelayRule) (retry retry' : Nat) : Prop := rule.Exceeds retry ∧ Span.ceiling ≤ rule.product retry'

/-- What is to be said of the delays of a rule that has no random part. -/
structure Grows (rule : DelayRule) : Prop where
  returns : ∀ draw retry, ∃ delay, rule.delay draw retry = .ok delay
  notNegative : ∀ draw retry delay, rule.delay draw retry = .ok delay → 0 ≤ delay.nanos
  notAboveCap : ∀ draw retry delay, rule.delay draw retry = .ok delay →
    ∀ cap, rule.cap = some cap → 0 ≤ cap.nanos → delay.nanos ≤ cap.nanos
  intended : ∀ draw retry delay, rule.delay draw retry = .ok delay →
    (delay.nanos = rule.intended retry ↔ ¬ rule.Exceeds retry)
  ascends : ∀ draw draw' retry retry' delay delay', rule.delay draw retry = .ok delay →
    rule.delay draw' retry' = .ok delay' → retry ≤ retry' → (delay.nanos ≤ delay'.nanos ↔ ¬ rule.Falls retry retry')

variable {rule : DelayRule} {retry retry' : Nat}

theorem product_nonneg (nonneg : 0 ≤ rule.base.nanos) (retry : Nat) : 0 ≤ rule.product retry :=
  Int.mul_nonneg nonneg (Int.natCast_nonneg _)

theorem product_mono (nonneg : 0 ≤ rule.base.nanos) (h : retry ≤ retry') : rule.product retry ≤ rule.product retry' := by
  have times := rule.growth.times_mono h
  apply Int.mul_le_mul_of_nonneg_left
  · omega
  · exact nonneg

theorem grown_nanos (rule : DelayRule) (retry : Nat) :
    (rule.grown retry).nanos =
      if -Span.ceiling ≤ rule.product retry ∧ rule.product retry < Span.ceiling then rule.product retry
      else Span.longest.nanos := by
  unfold grown product
  rw [Span.scale?_nanos, Growth.factor_eq]

/-- A product of a base that is not negative can be refused on one side only. -/
theorem grown_nanos_of_nonneg (nonneg : 0 ≤ rule.base.nanos) (retry : Nat) :
    (rule.grown retry).nanos = if rule.product retry < Span.ceiling then rule.product retry else Span.longest.nanos := by
  have product := product_nonneg nonneg retry
  have ceiling : 0 ≤ Span.ceiling := by decide
  have oneSided : -Span.ceiling ≤ rule.product retry ∧ rule.product retry < Span.ceiling ↔
      rule.product retry < Span.ceiling := by
    omega
  rw [grown_nanos]
  simp only [oneSided]

theorem capped_nanos (rule : DelayRule) (retry : Nat) :
    (rule.capped retry).nanos = match rule.cap with
      | some cap => min (rule.grown retry).nanos cap.nanos
      | none => (rule.grown retry).nanos := by
  unfold capped
  cases rule.cap with
  | none => rfl
  | some cap => exact Span.nanos_min _ _

/-- The product is one that exceeds the longest span just if it is the delay that does. -/
theorem exceeds_iff : rule.Exceeds retry ↔ Span.longest.nanos < (rule.capped retry).nanos := by
  have longest : (0 : Int) ≤ Span.longest.nanos ∧ Span.longest.nanos < Span.ceiling := by decide
  rw [capped_nanos, grown_nanos]
  unfold Exceeds
  cases rule.cap with
  | none =>
    dsimp only
    simp only [reduceCtorEq, false_implies, implies_true, and_true]
    split <;> omega
  | some cap =>
    dsimp only
    simp only [Option.some.injEq, forall_eq']
    split <;> omega

/-- The delay that there should be is the one that there is, cut at the longest span. -/
theorem intended_eq (nonneg : 0 ≤ rule.base.nanos) (retry : Nat) :
    rule.intended retry = max 0 (min (rule.capped retry).nanos Span.longest.nanos) := by
  have longest : (0 : Int) ≤ Span.longest.nanos ∧ Span.longest.nanos < Span.ceiling := by decide
  have product := product_nonneg nonneg retry
  rw [capped_nanos, grown_nanos_of_nonneg nonneg]
  unfold intended
  cases rule.cap with
  | none =>
    dsimp only
    split <;> omega
  | some cap =>
    dsimp only
    split <;> omega

theorem delay_plain (plain : rule.jitter = none) {draw : Int} {delay : Span} (h : rule.delay draw retry = .ok delay) :
    delay.nanos = max (rule.capped retry).nanos 0 := by
  unfold DelayRule.delay at h
  rw [plain] at h
  cases h
  exact Span.nanos_max _ _

/-- The delays of a rule without a random part and with a base that is not negative: the base so often as it is to be
waited, cut at the longest span and the cap, just if the product is not one that exceeds the longest span without being
refused; they grow with the retries just as long as such a product is not followed by one that is refused. -/
theorem grows (plain : rule.jitter = none) (nonneg : 0 ≤ rule.base.nanos) : rule.Grows := by
  have longest : (0 : Int) ≤ Span.longest.nanos ∧ Span.longest.nanos < Span.ceiling := by decide
  constructor
  case returns =>
    intro draw retry
    unfold DelayRule.delay
    rw [plain]
    exact ⟨_, rfl⟩
  case notNegative =>
    intro draw retry delay h
    rw [delay_plain plain h]
    exact Int.le_max_right _ _
  case notAboveCap =>
    intro draw retry delay h cap capped positive
    rw [delay_plain plain h, capped_nanos, capped]
    dsimp only
    omega
  case intended =>
    intro draw retry delay h
    rw [delay_plain plain h, intended_eq nonneg, exceeds_iff]
    omega
  case ascends =>
    intro draw draw' retry retry' delay delay' h h' le
    have product := product_nonneg nonneg retry
    have more := product_mono nonneg le
    rw [delay_plain plain h, delay_plain plain h', capped_nanos, capped_nanos, grown_nanos_of_nonneg nonneg,
      grown_nanos_of_nonneg nonneg]
    unfold Falls Exceeds
    cases rule.cap with
    | none =>
      dsimp only
      simp only [reduceCtorEq, false_implies, implies_true, and_true]
      split <;> split <;> omega
    | some cap =>
      dsimp only
      simp only [Option.some.injEq, forall_eq']
      split <;> split <;> omega

/-- The longest span doubled with each retry. -/
def longestDoubled : DelayRule := ⟨.longest, .exponential, none, none⟩

theorem grows_longestDoubled :
    longestDoubled.jitter = none ∧ 0 ≤ longestDoubled.base.nanos ∧ longestDoubled.Grows := by
  have nonneg : 0 ≤ longestDoubled.base.nanos := by decide
  exact ⟨rfl, nonneg, grows rfl nonneg⟩

/-- It is longer than the longest span from the second retry on, and as long as that again from the eleventh on. -/
theorem longestDoubled_falls :
    ∃ second tenth eleventh, longestDoubled.delay 0 2 = .ok second ∧ longestDoubled.delay 0 10 = .ok tenth ∧
      longestDoubled.delay 0 11 = .ok eleventh ∧ longestDoubled.intended 2 = Span.longest.nanos ∧
      second.nanos = 2 * Span.longest.nanos ∧ second.nanos ≠ longestDoubled.intended 2 ∧ eleventh.nanos < tenth.nanos := by
  refine ⟨_, _, _, rfl, rfl, rfl, ?_⟩
  decide +kernel

end DelayRule

end Rota
