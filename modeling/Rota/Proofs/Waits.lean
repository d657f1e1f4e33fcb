/-
Delays that should be no wait. A base that is not positive makes every delay nothing, except where its product is
refused: there the longest span stands in for it, though what is refused is too low. The time of the next attempt
follows the delay in the same way: it is later for a longer delay and never after the present instant for a negative
one, except where the delay leads back to before the first instant, for which the last one stands in.
-/
import Rota.Delay.Policy
import Rota.Proofs.Agenda
import Rota.Proofs.Delays

namespace Rota

theorem Span.eq_iff {a b : Span} : a = b ↔ a.nanos = b.nanos := by
  cases a
  cases b
  simp

namespace DelayRule

/-! ## Bases that are not positive -/

/-- Whether the product is refused for being too low, and no cap keeps what stands in for it at nothing. -/
def Rebounds (rule : DelayRule) (retry : Nat) : Prop :=
  rule.product retry < -Span.ceiling ∧ ∀ cap, rule.cap = some cap → 0 < cap.nanos

/-- What a rule without a random part waits where its product is refused, in nanoseconds. -/
def substitute (rule : DelayRule) : Int :=
  match rule.cap with
  | some cap => min Span.longest.nanos cap.nanos
  | none => Span.longest.nanos

/-- What is to be said of the delays of a rule that has no random part and whose base is not positive. -/
structure Vanishes (rule : DelayRule) : Prop where
  returns : ∀ draw retry, ∃ delay, rule.delay draw retry = .ok delay
  nothing : ∀ draw retry, rule.delay draw retry = .ok .zero ↔ ¬ rule.Rebounds retry
  otherwise : ∀ draw retry delay, rule.Rebounds retry → rule.delay draw retry = .ok delay →
    delay.nanos = rule.substitute
  lasts : ∀ retry retry', retry ≤ retry' → rule.Rebounds retry → rule.Rebounds retry'
  constant : rule.growth = .constant → ∀ retry, ¬ rule.Rebounds retry

variable {rule : DelayRule} {retry retry' : Nat}

theorem product_nonpos (nonpos : rule.base.nanos ≤ 0) (retry : Nat) : rule.product retry ≤ 0 :=
  Int.mul_nonpos_of_nonpos_of_nonneg nonpos (Int.natCast_nonneg _)

theorem product_anti (nonpos : rule.base.nanos ≤ 0) (h : retry ≤ retry') : rule.product retry' ≤ rule.product retry := by
  have times := rule.growth.times_mono h
  apply Int.mul_le_mul_of_nonpos_left
  · exact nonpos
  · omega

/-- A product of a base that is not positive can be refused on one side only. -/
theorem grown_nanos_of_nonpos (nonpos : rule.base.nanos ≤ 0) (retry : Nat) :
    (rule.grown retry).nanos =
      if rule.product retry < -Span.ceiling then Span.longest.nanos else rule.product retry := by
  have product := product_nonpos nonpos retry
  have ceiling : 0 < Span.ceiling := by decide
  rw [grown_nanos]
  split <;> split <;> omega

/-- The capped delay is positive just where the product is refused and the cap is not in the way. -/
theorem rebounds_iff (nonpos : rule.base.nanos ≤ 0) : rule.Rebounds retry ↔ 0 < (rule.capped retry).nanos := by
  have longest : 0 < Span.longest.nanos := by decide
  have product := product_nonpos nonpos retry
  rw [capped_nanos, grown_nanos_of_nonpos nonpos]
  unfold Rebounds
  cases rule.cap with
  | none =>
    dsimp only
    simp only [reduceCtorEq, false_implies, implies_true, and_true]
    split <;> omega
  | some cap =>
    dsimp only
    simp only [Option.some.injEq, forall_eq']
    split <;> omega

theorem capped_of_rebounds (nonpos : rule.base.nanos ≤ 0) (rebounds : rule.Rebounds retry) :
    (rule.capped retry).nanos = rule.substitute := by
  rw [capped_nanos, grown_nanos_of_nonpos nonpos, if_pos rebounds.1]
  rfl

/-- A base that is waited once before every retry has no product that could be refused. -/
theorem not_rebounds_constant (constant : rule.growth = .constant) (retry : Nat) : ¬ rule.Rebounds retry := by
  rintro ⟨low, -⟩
  have bounded := rule.base.bounded
  have ceiling : Span.ceiling = 9223372036854775807000000000 := rfl
  have once : rule.product retry = rule.base.nanos := by
    unfold product
    rw [constant]
    exact Int.mul_one _
  omega

/-- A rule without a random part whose base is not positive makes no failed job wait, before any retry, just if the
product is not refused with no cap to cut off what stands in for it; once it is, so it is before every later retry. -/
theorem vanishes (plain : rule.jitter = none) (nonpos : rule.base.nanos ≤ 0) : rule.Vanishes := by
  have delay_eq : ∀ draw retry, rule.delay draw retry = .ok (max (rule.capped retry) .zero) := by
    intro draw retry
    unfold DelayRule.delay
    rw [plain]
  constructor
  case returns => exact fun draw retry => ⟨_, delay_eq draw retry⟩
  case nothing =>
    intro draw retry
    rw [rebounds_iff nonpos, delay_eq, Except.ok.injEq, Span.eq_iff, Span.nanos_max]
    have zero : Span.zero.nanos = 0 := rfl
    omega
  case otherwise =>
    intro draw retry delay rebounds answered
    have positive := (rebounds_iff nonpos).1 rebounds
    rw [delay_plain plain answered, ← capped_of_rebounds nonpos rebounds]
    omega
  case lasts =>
    rintro retry retry' le ⟨low, uncapped⟩
    have lower := product_anti nonpos le
    exact ⟨by omega, uncapped⟩
  case constant => exact fun constant retry => not_rebounds_constant constant retry

/-- A minute less with each retry, up to an hour. -/
def minuteLess : DelayRule := ⟨⟨-60000000000, by decide⟩, .linear, some ⟨3600000000000, by decide⟩, none⟩

theorem vanishes_minuteLess :
    minuteLess.jitter = none ∧ minuteLess.base.nanos ≤ 0 ∧ minuteLess.Vanishes ∧
      ∀ draw, minuteLess.delay draw 1000000 = .ok .zero := by
  have nonpos : minuteLess.base.nanos ≤ 0 := by decide
  have vanishes := vanishes rfl nonpos
  refine ⟨rfl, nonpos, vanishes, fun draw => (vanishes.nothing draw 1000000).2 ?_⟩
  rintro ⟨low, -⟩
  have fits : -Span.ceiling ≤ minuteLess.product 1000000 := by decide +kernel
  omega

/-- The lowest span doubled with each retry. -/
def lowestDoubled : DelayRule := ⟨.lowest, .exponential, none, none⟩

/-- It is no wait up to the tenth retry, and the longest span from the eleventh on. -/
theorem lowestDoubled_rebounds :
    lowestDoubled.jitter = none ∧ lowestDoubled.base.nanos ≤ 0 ∧ lowestDoubled.delay 0 10 = .ok .zero ∧
      lowestDoubled.delay 0 11 = .ok .longest ∧ lowestDoubled.delay 0 11 ≠ .ok .zero := by
  refine ⟨rfl, by decide, rfl, rfl, ?_⟩
  intro nothing
  cases nothing

end DelayRule

/-! ## The time of the next attempt -/

namespace Instant

/-- When the next attempt may begin after a delay. -/
def afterDelay (now : Instant) (delay : Span) : Instant := (now.add? delay).getD .latest

/-- Whether a delay leads back to before the first instant. -/
def Undershoots (now : Instant) (delay : Span) : Prop := now.nanos + delay.nanos < earliest.nanos

variable {now : Instant} {delay delay' : Span}

theorem afterDelay_nanos (now : Instant) (delay : Span) :
    (now.afterDelay delay).nanos =
      if earliest.nanos ≤ now.nanos + delay.nanos ∧ now.nanos + delay.nanos ≤ latest.nanos then now.nanos + delay.nanos
      else latest.nanos := by
  unfold afterDelay add? ofNanos?
  split
  next inside => exact (if_pos inside).symm
  next outside => exact (if_neg outside).symm

/-- A delay that does not lead back too far is added, up to the last instant. -/
theorem afterDelay_nanos_of_not_undershoots (h : ¬ now.Undershoots delay) :
    (now.afterDelay delay).nanos = min (now.nanos + delay.nanos) latest.nanos := by
  unfold Undershoots at h
  rw [afterDelay_nanos]
  split <;> omega

theorem afterDelay_of_undershoots (h : now.Undershoots delay) : (now.afterDelay delay).nanos = latest.nanos := by
  unfold Undershoots at h
  rw [afterDelay_nanos, if_neg (by omega)]

/-- A delay that is not negative leads back nowhere. -/
theorem not_undershoots (nonneg : 0 ≤ delay.nanos) : ¬ now.Undershoots delay := by
  have bounded := now.bounded
  have first : earliest.nanos = -8334601228800000000000 := rfl
  unfold Undershoots
  omega

end Instant

/-- No delay of a rule is negative, whatever is drawn. -/
theorem DelayRule.delay_nonneg {rule : DelayRule} {draw : Int} {retry : Nat} {delay : Span}
    (h : rule.delay draw retry = .ok delay) : 0 ≤ delay.nanos := by
  have clamped : ∀ span : Span, 0 ≤ (max span .zero).nanos := by
    intro span
    rw [Span.nanos_max]
    exact Int.le_max_right _ _
  unfold DelayRule.delay at h
  cases jitter : rule.jitter with
  | none =>
    rw [jitter] at h
    cases h
    exact clamped _
  | some jitter' =>
    rw [jitter] at h
    dsimp only at h
    cases applied : jitter'.apply draw (rule.capped retry) with
    | error fault => rw [applied] at h; cases h
    | ok span =>
      rw [applied] at h
      cases h
      exact clamped _

namespace RetryPolicy

/-- The policy of a strategy. -/
def waiting (strategy : DelayStrategy) : RetryPolicy := ⟨some strategy⟩

/-- Whether the first of two delays leads back to before the first instant, for which the last one stands in, while the
second leads to an earlier one. -/
def Overtakes (now : Instant) (delay delay' : Span) : Prop :=
  now.Undershoots delay ∧ ¬ now.Undershoots delay' ∧ now.nanos + delay'.nanos < Instant.latest.nanos

/-- What is to be said of the times that two strategies give for the next attempt of a job, where the delay of the first
is no longer than that of the second. -/
structure Follows (job : Job) (now : Instant) (strategy strategy' : DelayStrategy) (delay delay' : Span) : Prop where
  first : (waiting strategy).retryAt job now = .ok (some (now.afterDelay delay))
  second : (waiting strategy').retryAt job now = .ok (some (now.afterDelay delay'))
  ordered : now.afterDelay delay ≤ now.afterDelay delay' ↔ ¬ Overtakes now delay delay'
  bundled : ∀ rule draws, strategy = DelayRule.strategy rule draws → now.afterDelay delay ≤ now.afterDelay delay'
  added : ¬ now.Undershoots delay → (now.afterDelay delay).nanos = min (now.nanos + delay.nanos) Instant.latest.nanos
  atLast : Instant.latest.nanos ≤ now.nanos + delay.nanos → now.afterDelay delay = .latest
  immediate : delay.nanos < 0 → (now.afterDelay delay ≤ now ↔ ¬ now.Undershoots delay ∨ now = .latest)

variable {now : Instant} {delay delay' : Span} {strategy strategy' : DelayStrategy} {job : Job}

theorem retryAt_waiting (h : strategy (job.retries + 1) = .ok delay) (now : Instant) :
    (waiting strategy).retryAt job now = .ok (some (now.afterDelay delay)) := by
  unfold retryAt waiting
  dsimp only
  rw [h]
  rfl

/-- The times follow the delays unless the first overtakes. -/
theorem afterDelay_le_iff (le : delay.nanos ≤ delay'.nanos) :
    now.afterDelay delay ≤ now.afterDelay delay' ↔ ¬ Overtakes now delay delay' := by
  show (now.afterDelay delay).nanos ≤ (now.afterDelay delay').nanos ↔ _
  unfold Overtakes
  by_cases back : now.Undershoots delay
  · rw [Instant.afterDelay_of_undershoots back]
    by_cases back' : now.Undershoots delay'
    · rw [Instant.afterDelay_of_undershoots back']
      simp [back']
    · rw [Instant.afterDelay_nanos_of_not_undershoots back']
      simp only [back, back', not_false_eq_true, true_and]
      omega
  · have back' : ¬ now.Undershoots delay' := by
      unfold Instant.Undershoots at back ⊢
      omega
    rw [Instant.afterDelay_nanos_of_not_undershoots back, Instant.afterDelay_nanos_of_not_undershoots back']
    simp only [back, false_and, not_false_eq_true, iff_true]
    omega

/-- A negative delay makes no attempt later than at once, unless it leads back too far. -/
theorem afterDelay_le_now_iff (negative : delay.nanos < 0) :
    now.afterDelay delay ≤ now ↔ ¬ now.Undershoots delay ∨ now = .latest := by
  have bounded := now.bounded.2
  have last : Instant.latest.nanos = 8210266876799999999999 := rfl
  show (now.afterDelay delay).nanos ≤ now.nanos ↔ _
  by_cases back : now.Undershoots delay
  · rw [Instant.afterDelay_of_undershoots back]
    constructor
    · intro le
      exact .inr (Instant.eq_of_nanos (by omega))
    · rintro (near | rfl)
      · exact absurd back near
      · exact Int.le_refl _
  · rw [Instant.afterDelay_nanos_of_not_undershoots back]
    simp only [back, not_false_eq_true, true_or, iff_true]
    omega

/-- For every job, every reading of the clock and any two strategies, of which the first gives the shorter delay before
the next retry: the times for the next attempt are in order just if that delay does not lead back to before the first
instant where the other stays in range, as none of a rule does; past the end they are the last instant; and a negative
delay is no wait but where it leads back so far. -/
theorem retryAt_follows (job : Job) (now : Instant) (h : strategy (job.retries + 1) = .ok delay)
    (h' : strategy' (job.retries + 1) = .ok delay') (le : delay.nanos ≤ delay'.nanos) :
    Follows job now strategy strategy' delay delay' := by
  constructor
  case first => exact retryAt_waiting h now
  case second => exact retryAt_waiting h' now
  case ordered => exact afterDelay_le_iff le
  case bundled =>
    rintro rule draws rfl
    have nonneg : 0 ≤ delay.nanos := DelayRule.delay_nonneg h
    rw [afterDelay_le_iff le]
    rintro ⟨back, -⟩
    exact Instant.not_undershoots nonneg back
  case added => exact Instant.afterDelay_nanos_of_not_undershoots
  case atLast =>
    intro past
    apply Instant.eq_of_nanos
    rw [Instant.afterDelay_nanos]
    split <;> omega
  case immediate => exact afterDelay_le_now_iff

/-- A second less than nothing, and a second doubled with each retry, for a job that fails at the start of 1970. -/
theorem retryAt_follows_secondBefore :
    let job := Job.new ⟨1⟩ ⟨"Plain", .medium, true⟩ none .medium (.limited 1) .epoch .never none
    let before : Span := ⟨-1000000000, by decide⟩
    let doubled := DelayRule.strategy ⟨.second, .exponential, none, none⟩ fun _ => 0
    doubled (job.retries + 1) = .ok .second ∧ before.nanos ≤ Span.second.nanos ∧
      Follows job .epoch (fun _ => .ok before) doubled before .second ∧
      (waiting fun _ => .ok before).retryAt job .epoch = .ok (some ⟨-1000000000, by decide⟩) := by
  intro job before doubled
  have first : (fun _ => .ok before : DelayStrategy) (job.retries + 1) = .ok before := rfl
  have second : doubled (job.retries + 1) = .ok .second := by decide +kernel
  have le : before.nanos ≤ Span.second.nanos := by decide
  have follows : Follows job .epoch (fun _ => .ok before) doubled before .second :=
    retryAt_follows job .epoch first second le
  exact ⟨second, le, follows, follows.first⟩

/-- The lowest span leads back to before the first instant, and makes a failed job wait until the last one, where no
delay at all has it tried again at once. -/
theorem lowest_overtakes :
    let job := Job.new ⟨1⟩ ⟨"Plain", .medium, true⟩ none .medium (.limited 1) .epoch .never none
    Span.lowest.nanos ≤ Span.zero.nanos ∧ Span.lowest.nanos < 0 ∧
      (waiting fun _ => .ok .lowest).retryAt job .epoch = .ok (some .latest) ∧
      (waiting fun _ => .ok .zero).retryAt job .epoch = .ok (some .epoch) ∧ ¬ Instant.latest ≤ Instant.epoch := by
  refine ⟨?_, ?_, rfl, rfl, ?_⟩ <;> decide

end RetryPolicy

end Rota
