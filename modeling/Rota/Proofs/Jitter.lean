/-
Delays with a random part of at most a span. The delay is within that span of the one without it, not negative and not
above the longest span, unless what is drawn takes the two out of range: then there is no delay, and the failed job that
was to wait for it is not sent on, in no queue and not done with.
-/
import Rota.Proofs.Delays
import Rota.Proofs.Routing

namespace Rota

namespace Span

/-- Whether a span has no more milliseconds than a signed 64-bit word holds, as every span that is given. -/
def Given (a : Span) : Prop := lowest.nanos ≤ a.nanos ∧ a.nanos ≤ longest.nanos

instance (a : Span) : Decidable a.Given := inferInstanceAs (Decidable (_ ∧ _))

theorem ofNanos?_eq_some (nanos : Int) (h : lowest.nanos ≤ nanos ∧ nanos ≤ longest.nanos) :
    ∃ a, ofNanos? nanos = some a ∧ a.nanos = nanos :=
  ⟨_, dif_pos h, rfl⟩

theorem ofNanos?_eq_none {nanos : Int} (h : nanos < lowest.nanos ∨ longest.nanos < nanos) : ofNanos? nanos = none := by
  apply dif_neg
  have ends : lowest.nanos = -9223372036854775807000000 ∧ longest.nanos = 9223372036854775807000000 := ⟨rfl, rfl⟩
  omega

/-- Whole milliseconds are no more than the span they are of. -/
theorem millis_le (a : Span) : (a.millis.natAbs * nanosPerMilli : Nat) ≤ a.nanos.natAbs := by
  have whole : a.millis.natAbs = a.nanos.natAbs / nanosPerMilli := Int.natAbs_tdiv a.nanos nanosPerMilli
  rw [whole]
  exact Nat.div_mul_le_self a.nanos.natAbs nanosPerMilli

end Span

namespace DelayRule

/-- The delay and what is drawn together, in nanoseconds. -/
def jittered (rule : DelayRule) (draw : Int) (retry : Nat) : Int :=
  (rule.capped retry).nanos + draw * nanosPerMilli

/-- Whether something may be drawn, and what is drawn takes the delay out of range. -/
def Strains (rule : DelayRule) (draw : Int) (retry : Nat) : Prop :=
  rule.spread retry ≠ 0 ∧
    (rule.jittered draw retry < Span.lowest.nanos ∨ Span.longest.nanos < rule.jittered draw retry)

/-- Whether nothing that may be drawn takes the delay out of range. -/
def Holds (rule : DelayRule) (retry : Nat) : Prop :=
  rule.spread retry = 0 ∨
    (Span.lowest.nanos ≤ rule.jittered (-rule.spread retry) retry ∧
      rule.jittered (rule.spread retry) retry ≤ Span.longest.nanos)

/-- Whether there is a delay, and no farther from the one without a random part than a span, not negative and not above
the longest span. -/
def StaysNear (rule : DelayRule) (span : Span) (draw : Int) (retry : Nat) : Prop :=
  ∃ delay, rule.delay draw retry = .ok delay ∧
    max 0 ((rule.capped retry).nanos - span.nanos.natAbs) ≤ delay.nanos ∧
    delay.nanos ≤ min (max 0 ((rule.capped retry).nanos + span.nanos.natAbs)) Span.longest.nanos

variable {rule : DelayRule} {span : Span} {draw : Int} {retry : Nat}

theorem spread_absolute (absolute : rule.jitter = some (.absolute span)) (retry : Nat) :
    rule.spread retry = span.millis.natAbs := by
  unfold spread
  rw [absolute]
  rfl

/-- What is drawn is no longer than the span. -/
theorem drawn_le (absolute : rule.jitter = some (.absolute span))
    (drawn : -rule.spread retry ≤ draw ∧ draw ≤ rule.spread retry) :
    -(span.nanos.natAbs : Int) ≤ draw * nanosPerMilli ∧ draw * nanosPerMilli ≤ span.nanos.natAbs := by
  have whole := span.millis_le
  have perMilli : nanosPerMilli = 1000000 := rfl
  rw [spread_absolute absolute] at drawn
  rw [perMilli] at whole ⊢
  omega

/-- Where nothing can be drawn, the delay is the one without a random part. -/
theorem delay_unspread (absolute : rule.jitter = some (.absolute span)) (unspread : rule.spread retry = 0) (draw : Int) :
    rule.delay draw retry = .ok (max (rule.capped retry) .zero) := by
  have spread : (Jitter.absolute span).spread (rule.capped retry) = 0 := (spread_absolute absolute retry).symm.trans unspread
  unfold DelayRule.delay Jitter.apply
  rw [absolute]
  dsimp only
  rw [spread, if_pos rfl]
  rfl

/-- Else it is the sum, if there is such a span. -/
theorem delay_spread (absolute : rule.jitter = some (.absolute span)) (given : span.Given) (spread : rule.spread retry ≠ 0)
    (drawn : -rule.spread retry ≤ draw ∧ draw ≤ rule.spread retry) :
    rule.delay draw retry = match Span.ofNanos? (rule.jittered draw retry) with
      | some sum => .ok (max sum .zero)
      | none => .error .spanOverflow := by
  have wide : (Jitter.absolute span).spread (rule.capped retry) = rule.spread retry := (spread_absolute absolute retry).symm
  have nonneg : 0 ≤ rule.spread retry := by
    rw [spread_absolute absolute]
    exact Int.natCast_nonneg _
  -- what is drawn is itself a span, so that only the sum can be refused
  have near := drawn_le absolute drawn
  have ends : Span.lowest.nanos = -Span.longest.nanos := rfl
  obtain ⟨part, made, nanos⟩ := Span.ofNanos?_eq_some (draw * nanosPerMilli) (by unfold Span.Given at given; omega)
  have sum : (rule.capped retry).add? part = Span.ofNanos? (rule.jittered draw retry) := by
    unfold Span.add? jittered
    rw [nanos]
  unfold DelayRule.delay Jitter.apply
  rw [absolute]
  dsimp only
  rw [wide, if_neg spread, if_neg (Int.not_lt.2 nonneg), made, Option.bind_some, sum]
  cases Span.ofNanos? (rule.jittered draw retry) with
  | none => rfl
  | some => rfl

/-- There is no delay just if the sum is out of range. -/
theorem delay_cases (absolute : rule.jitter = some (.absolute span)) (given : span.Given)
    (drawn : -rule.spread retry ≤ draw ∧ draw ≤ rule.spread retry) :
    (rule.Strains draw retry ∧ rule.delay draw retry = .error .spanOverflow) ∨
      ¬ rule.Strains draw retry ∧ ∃ delay, rule.delay draw retry = .ok delay ∧
        delay.nanos = max (if rule.spread retry = 0 then (rule.capped retry).nanos else rule.jittered draw retry) 0 := by
  by_cases unspread : rule.spread retry = 0
  · refine .inr ⟨fun strains => strains.1 unspread, _, delay_unspread absolute unspread draw, ?_⟩
    rw [if_pos unspread]
    exact Span.nanos_max _ _
  · have answered := delay_spread absolute given unspread drawn
    by_cases out : rule.jittered draw retry < Span.lowest.nanos ∨ Span.longest.nanos < rule.jittered draw retry
    · rw [Span.ofNanos?_eq_none out] at answered
      exact .inl ⟨⟨unspread, out⟩, answered⟩
    · obtain ⟨sum, made, nanos⟩ := Span.ofNanos?_eq_some (rule.jittered draw retry) (by omega)
      rw [made] at answered
      refine .inr ⟨fun strains => out strains.2, _, answered, ?_⟩
      rw [if_neg unspread, ← nanos]
      exact Span.nanos_max _ _

theorem returns_iff (absolute : rule.jitter = some (.absolute span)) (given : span.Given)
    (drawn : -rule.spread retry ≤ draw ∧ draw ≤ rule.spread retry) :
    (∃ delay, rule.delay draw retry = .ok delay) ↔ ¬ rule.Strains draw retry := by
  rcases delay_cases absolute given drawn with ⟨strains, stuck⟩ | ⟨fits, delay, answered, -⟩
  · constructor
    · rintro ⟨delay, answered⟩
      cases stuck.symm.trans answered
    · intro fits
      exact absurd strains fits
  · exact ⟨fun _ => fits, fun _ => ⟨delay, answered⟩⟩

/-- Whatever is drawn is in range just if the least and the most that can be drawn are. -/
theorem never_strains_iff (absolute : rule.jitter = some (.absolute span)) :
    (∀ draw, -rule.spread retry ≤ draw ∧ draw ≤ rule.spread retry → ¬ rule.Strains draw retry) ↔ rule.Holds retry := by
  have nonneg : 0 ≤ rule.spread retry := by
    rw [spread_absolute absolute]
    exact Int.natCast_nonneg _
  have perMilli : nanosPerMilli = 1000000 := rfl
  unfold Strains Holds jittered
  rw [perMilli]
  constructor
  · intro fits
    have least := fits (-rule.spread retry) (by omega)
    have most := fits (rule.spread retry) (by omega)
    omega
  · rintro holds draw drawn ⟨spread, out⟩
    omega

/-- The delay is near the one without a random part just if what is drawn does not take it out of range, and, where
nothing can be drawn, that one is itself in range. -/
theorem staysNear_iff (absolute : rule.jitter = some (.absolute span)) (given : span.Given)
    (drawn : -rule.spread retry ≤ draw ∧ draw ≤ rule.spread retry) :
    rule.StaysNear span draw retry ↔ ¬ rule.Strains draw retry ∧ (rule.spread retry = 0 → ¬ rule.Exceeds retry) := by
  rw [exceeds_iff]
  have near := drawn_le absolute drawn
  rcases delay_cases absolute given drawn with ⟨strains, stuck⟩ | ⟨strains, delay, answered, nanos⟩
  · constructor
    · rintro ⟨delay, answered, -⟩
      cases stuck.symm.trans answered
    · rintro ⟨fits, -⟩
      exact absurd strains fits
  · have longest : 0 ≤ Span.longest.nanos := by decide
    have sum : rule.jittered draw retry = (rule.capped retry).nanos + draw * nanosPerMilli := rfl
    constructor
    · rintro ⟨delay', answered', -, le⟩
      cases answered.symm.trans answered'
      refine ⟨strains, fun unspread => ?_⟩
      rw [if_pos unspread] at nanos
      omega
    · rintro ⟨-, within⟩
      refine ⟨delay, answered, ?_⟩
      unfold Strains at strains
      split at nanos
      next unspread =>
        have := within unspread
        omega
      next spread =>
        have fits : ¬ (rule.jittered draw retry < Span.lowest.nanos ∨ Span.longest.nanos < rule.jittered draw retry) :=
          fun out => strains ⟨spread, out⟩
        omega

end DelayRule

/-! ## Failed jobs that wait -/

namespace Board

/-- An execution that finds an instance whose attempt fails, of a job that may be tried again, and leaves the job so. -/
structure Stumbles (board : Board) (course : Course) (job failed : Job) : Prop where
  tidy : board.Tidy
  runs : board.Runs job
  fails : ∃ performer kind message, board.performer? course.supply job = some performer ∧
    board.ending course performer = .failed kind message ∧ failed = stopped course (job.bind performer) (.failed kind message)
  allowed : job.limit.allows job.retries = true

/-- The failed job waits in the timetable for its next attempt, for which it has used up a retry. -/
structure SentBack (board : Board) (course : Course) (failed : Job) (result : Board × Option Fault) : Prop where
  returns : result.2 = none
  waits : ∃ time, course.policy.retryAt failed course.routed = .ok (some time) ∧
    board.Leaves (failed.retriedAt (some time)) (board.timetable.joined time failed.id) board.lineup result.1

/-- The failed job is left as it is, not done with, and held by no queue. -/
structure Strands (board : Board) (failed : Job) (result : Board × Option Fault) : Prop where
  faults : ∃ fault, result.2 = some fault
  leaves : board.Leaves failed board.timetable board.lineup result.1
  state : failed.state = .failed
  live : failed.finished = false
  unscheduled : failed.id ∉ result.1.timetable.ids
  withdrawn : failed.id ∉ result.1.lineup.ids

variable {board : Board} {course : Course} {job failed : Job}

theorem Strands.not_sentBack {result : Board × Option Fault} (h : board.Strands failed result) :
    ¬ board.SentBack course failed result := by
  intro sent
  obtain ⟨fault, faults⟩ := h.faults
  cases faults.symm.trans sent.returns

/-- The end of a failed attempt sends the job on from where it was. -/
theorem Stumbles.execute (h : board.Stumbles course job failed) :
    ∃ mid kind message, board.Leaves failed board.timetable board.lineup mid ∧
      board.execute course job = mid.route course.policy course.routed failed.id (.failed kind message) := by
  obtain ⟨performer, kind, message, found, ended, rfl⟩ := h.fails
  obtain ⟨mid, leaves, executed⟩ := execute_found course h.tidy h.runs found
  rw [ended] at leaves executed
  exact ⟨mid, kind, message, leaves, executed⟩

/-- What the attempt changes of the job. -/
theorem Stumbles.failed_eq (h : board.Stumbles course job failed) :
    failed.id = job.id ∧ failed.state = .failed ∧ failed.finished = false ∧ failed.limit = job.limit ∧
      failed.retries = job.retries := by
  obtain ⟨performer, kind, message, -, -, rfl⟩ := h.fails
  exact ⟨rfl, rfl, h.runs.live, rfl, rfl⟩

theorem Stumbles.sentBack (h : board.Stumbles course job failed) {time : Instant}
    (delayed : course.policy.retryAt failed course.routed = .ok (some time)) :
    board.SentBack course failed (board.execute course job) := by
  obtain ⟨id, state, live, limit, retries⟩ := h.failed_eq
  obtain ⟨mid, kind, message, leaves, executed⟩ := h.execute
  have allowed : failed.limit.allows failed.retries = true := by rw [limit, retries, h.allowed]
  have absent : failed.id ∉ board.timetable.ids := id ▸ h.runs.unscheduled
  rw [executed, route_allowed leaves.known allowed delayed]
  exact ⟨rfl, time, delayed, (leaves.write _).sentBack h.tidy.timetable absent state live time⟩

theorem Stumbles.strands (h : board.Stumbles course job failed) {fault : Fault}
    (stuck : course.policy.retryAt failed course.routed = .error fault) :
    board.Strands failed (board.execute course job) := by
  obtain ⟨id, state, live, limit, retries⟩ := h.failed_eq
  obtain ⟨mid, kind, message, leaves, executed⟩ := h.execute
  have allowed : failed.limit.allows failed.retries = true := by rw [limit, retries, h.allowed]
  rw [executed, route_stuck leaves.known allowed stuck]
  refine ⟨⟨fault, rfl⟩, leaves, state, live, ?_, ?_⟩
  · rw [leaves.timetable, id]
    exact h.runs.unscheduled
  · rw [leaves.lineup, id]
    exact h.runs.withdrawn

end Board

namespace DelayRule

/-- What is to be said of the delays of a rule whose random part is at most a span, given what is drawn before each
retry. -/
structure Jitters (rule : DelayRule) (span : Span) (draws : Nat → Int) : Prop where
  returns : ∀ retry, (∃ delay, rule.delay (draws retry) retry = .ok delay) ↔ ¬ rule.Strains (draws retry) retry
  always : ∀ retry, (∀ draw, -rule.spread retry ≤ draw ∧ draw ≤ rule.spread retry →
    ∃ delay, rule.delay draw retry = .ok delay) ↔ rule.Holds retry
  near : ∀ retry, rule.StaysNear span (draws retry) retry ↔
    ¬ rule.Strains (draws retry) retry ∧ (rule.spread retry = 0 → ¬ rule.Exceeds retry)
  sentBack : ∀ board course job failed, Board.Stumbles board course job failed →
    course.policy = ⟨some (rule.strategy draws)⟩ →
    (board.SentBack course failed (board.execute course job) ↔ ¬ rule.Strains (draws (job.retries + 1)) (job.retries + 1))
  strands : ∀ board course job failed, Board.Stumbles board course job failed →
    course.policy = ⟨some (rule.strategy draws)⟩ →
    (board.Strands failed (board.execute course job) ↔ rule.Strains (draws (job.retries + 1)) (job.retries + 1))

variable {rule : DelayRule} {span : Span} {draws : Nat → Int}

/-- A failed job that may be tried again is sent back to wait for its delay, or stranded where there is none. -/
theorem sent_or_stranded (absolute : rule.jitter = some (.absolute span)) (given : span.Given)
    (drawn : ∀ retry, -rule.spread retry ≤ draws retry ∧ draws retry ≤ rule.spread retry)
    {board : Board} {course : Course} {job failed : Job} (stumbles : board.Stumbles course job failed)
    (policy : course.policy = ⟨some (rule.strategy draws)⟩) :
    (¬ rule.Strains (draws (job.retries + 1)) (job.retries + 1) ∧
        board.SentBack course failed (board.execute course job)) ∨
      (rule.Strains (draws (job.retries + 1)) (job.retries + 1) ∧ board.Strands failed (board.execute course job)) := by
  obtain ⟨-, -, -, -, retries⟩ := stumbles.failed_eq
  have retryAt : course.policy.retryAt failed course.routed =
      (rule.delay (draws (job.retries + 1)) (job.retries + 1)).map
        fun delay => some ((course.routed.add? delay).getD .latest) := by
    rw [policy, ← retries]
    rfl
  rcases delay_cases absolute given (drawn (job.retries + 1)) with ⟨strains, stuck⟩ | ⟨fits, delay, answered, -⟩
  · rw [stuck] at retryAt
    exact .inr ⟨strains, stumbles.strands retryAt⟩
  · rw [answered] at retryAt
    exact .inl ⟨fits, stumbles.sentBack retryAt⟩

/-- Whatever is drawn, a delay with a random part is near the one without it, and a failed job that may be tried again
waits for it, just if what is drawn does not take it out of range. -/
theorem jitters (absolute : rule.jitter = some (.absolute span)) (given : span.Given)
    (drawn : ∀ retry, -rule.spread retry ≤ draws retry ∧ draws retry ≤ rule.spread retry) : rule.Jitters span draws := by
  constructor
  case returns => exact fun retry => returns_iff absolute given (drawn retry)
  case always =>
    intro retry
    rw [← never_strains_iff absolute]
    exact forall₂_congr fun draw drawn => returns_iff absolute given drawn
  case near => exact fun retry => staysNear_iff absolute given (drawn retry)
  case sentBack =>
    intro board course job failed stumbles policy
    rcases sent_or_stranded absolute given drawn stumbles policy with ⟨fits, sent⟩ | ⟨strains, strands⟩
    · exact ⟨fun _ => fits, fun _ => sent⟩
    · exact ⟨fun sent => absurd sent strands.not_sentBack, fun fits => absurd strains fits⟩
  case strands =>
    intro board course job failed stumbles policy
    rcases sent_or_stranded absolute given drawn stumbles policy with ⟨fits, sent⟩ | ⟨strains, strands⟩
    · exact ⟨fun strands => absurd sent strands.not_sentBack, fun strains => absurd strains fits⟩
    · exact ⟨fun _ => strains, fun _ => strands⟩

end DelayRule

/-- An execution that takes too long, with failed jobs tried again by a policy. -/
def Course.tooSlow (policy : RetryPolicy) : Course := { Course.brief (.failed .timeout "too slow") with policy := policy }

/-- A job that is running and may be retried once. -/
def Job.onceMore : Job := .atWork (.limited 1) .epoch .never

theorem Board.stumbles_onceMore (policy : RetryPolicy) :
    ∃ failed, (ofOne .onceMore).Stumbles (.tooSlow policy) .onceMore failed :=
  ⟨_, ofOne_tidy _, ofOne_runs _ _ _,
    ⟨⟨.plain, Kind.plain.name, .built ⟨0⟩ .default⟩, .timeout, "too slow", rfl, rfl, rfl⟩, rfl⟩

namespace DelayRule

/-- A fifth of a second. -/
def fifth : Span := ⟨200000000, by decide⟩

/-- A second doubled with each retry, up to half a minute, and a fifth of a second more or less. -/
def aboutHalfMinute : DelayRule := ⟨.second, .exponential, some ⟨30000000000, by decide⟩, some (.absolute fifth)⟩

/-- A fifth of a second less before every retry. -/
theorem jitters_aboutHalfMinute :
    let policy : RetryPolicy := ⟨some (aboutHalfMinute.strategy fun _ => -200)⟩
    aboutHalfMinute.jitter = some (.absolute fifth) ∧ fifth.Given ∧
      (∀ retry, -aboutHalfMinute.spread retry ≤ -200 ∧ -200 ≤ aboutHalfMinute.spread retry) ∧
      aboutHalfMinute.Jitters fifth (fun _ => -200) ∧
      (∃ delay, aboutHalfMinute.delay (-200) 6 = .ok delay ∧ delay.nanos = 29800000000) ∧
      ∃ failed, (Board.ofOne .onceMore).Stumbles (.tooSlow policy) .onceMore failed ∧
        (Board.ofOne .onceMore).SentBack (.tooSlow policy) failed ((Board.ofOne .onceMore).execute (.tooSlow policy) .onceMore) := by
  intro policy
  have given : fifth.Given := by decide
  have drawn : ∀ retry, -aboutHalfMinute.spread retry ≤ -200 ∧ -200 ≤ aboutHalfMinute.spread retry := by
    intro retry
    rw [spread_absolute rfl]
    decide
  have jitters := jitters rfl given drawn
  obtain ⟨failed, stumbles⟩ := Board.stumbles_onceMore policy
  refine ⟨rfl, given, drawn, jitters, ⟨_, rfl, by decide +kernel⟩, failed, stumbles, ?_⟩
  have inRange : ¬ (aboutHalfMinute.jittered (-200) 1 < Span.lowest.nanos ∨
      Span.longest.nanos < aboutHalfMinute.jittered (-200) 1) := by decide +kernel
  exact (jitters.sentBack _ _ _ _ stumbles rfl).2 fun strains => inRange strains.2

/-- The longest span, and a second more or less. -/
def aboutLongest : DelayRule := ⟨.longest, .constant, none, some (.absolute .second)⟩

/-- A millisecond more cannot be added to it, and a failed job that is to wait so long is left in no queue. -/
theorem aboutLongest_strains :
    let policy : RetryPolicy := ⟨some (aboutLongest.strategy fun _ => 1)⟩
    let left := (Board.ofOne .onceMore).execute (.tooSlow policy) .onceMore
    aboutLongest.spread 1 = 1000 ∧ (∀ delay, aboutLongest.delay 1 1 ≠ .ok delay) ∧ ¬ aboutLongest.StaysNear .second 1 1 ∧
      Job.onceMore.limit.allows Job.onceMore.retries = true ∧ left.2 = some .spanOverflow ∧ (left.1.job? ⟨1⟩).map (fun job => (job.state, job.finished)) = some (.failed, false) ∧
      left.1.timetable.ids = [] ∧ left.1.lineup.ids = [] := by
  intro policy left
  have stuck : aboutLongest.delay 1 1 = .error .spanOverflow := rfl
  refine ⟨rfl, ?_, ?_, rfl, by decide +kernel, by decide +kernel, by decide +kernel, by decide +kernel⟩
  · intro delay answered
    cases stuck.symm.trans answered
  · rintro ⟨delay, answered, -⟩
    cases stuck.symm.trans answered

end DelayRule

end Rota
