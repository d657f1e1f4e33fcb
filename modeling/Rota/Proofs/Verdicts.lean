/-
The verdicts on a job that fails again and again, and how far its counts get. The retries are counted up by one from
failure to failure, and the verdicts end with the first failure past the limit. What is counted may be no more than fits in
32 bits: the retries of a job with a limit always do, but the number of its last attempt is one more.
-/
import Rota.Proofs.Execution

namespace Rota

/-- How many failures a policy has a verdict on when a job with so many retries behind it fails so many times. -/
def RetryLimit.rounds (limit : RetryLimit) (retries times : Nat) : Nat :=
  match limit with
  | .unlimited => times
  | .limited most => min times (most.toNat - retries + 1)

theorem RetryLimit.rounds_spent {limit : RetryLimit} {retries : Nat} (spent : limit.allows retries = false) (times : Nat) :
    limit.rounds retries (times + 1) = 1 := by
  cases limit with
  | unlimited => cases spent
  | limited most =>
    have reached : most.toNat ≤ retries := by simpa [allows] using spent
    simp only [rounds]
    omega

theorem RetryLimit.rounds_succ {limit : RetryLimit} {retries : Nat} (allowed : limit.allows retries = true) (times : Nat) :
    limit.rounds retries (times + 1) = limit.rounds (retries + 1) times + 1 := by
  cases limit with
  | unlimited => rfl
  | limited most =>
    have under : retries < most.toNat := by simpa [allows] using allowed
    simp only [rounds]
    omega

/-- The job as it runs again after a failed attempt. -/
def Job.tryingAgain (job : Job) (time : Instant) : Job :=
  { (job.failedWith .panic "" time).retriedAt none with state := .running, retryAt := none }

theorem Job.retry_tryingAgain {job : Job} (time : Instant) :
    ((job.failedWith .panic "" time).retry none).bind Job.run = .ok (job.tryingAgain time) := by
  rw [Job.retry_failed rfl]
  exact Job.run_eq_ok.2 ⟨by simp [Job.retriedAt, State.canBecome], rfl⟩

namespace RetryPolicy

variable {policy : RetryPolicy} {job : Job}

theorem verdicts_nil (policy : RetryPolicy) (job : Job) : policy.verdicts job [] = .ok ([], true) := rfl

theorem verdicts_spent (running : job.state = .running) (spent : job.limit.allows job.retries = false)
    {time : Instant} {retryAt : Option Instant} (delayed : policy.retryAt job time = .ok retryAt) (rest : List Instant) :
    policy.verdicts job (time :: rest) = .ok ([⟨false, retryAt, job.retries⟩], true) := by
  have refused : policy.permits (job.failedWith .panic "" time) = false := spent
  have delayed : policy.retryAt (job.failedWith .panic "" time) time = .ok retryAt := delayed
  unfold verdicts
  rw [Job.fail_running running]
  simp only [delayed, refused]
  rfl

theorem verdicts_allowed (running : job.state = .running) (allowed : job.limit.allows job.retries = true)
    {time : Instant} {retryAt : Option Instant} (delayed : policy.retryAt job time = .ok retryAt) (rest : List Instant) :
    policy.verdicts job (time :: rest) = (policy.verdicts (job.tryingAgain time) rest).map
      fun (others, consistent) => (⟨true, retryAt, job.retries⟩ :: others, consistent) := by
  have permitted : policy.permits (job.failedWith .panic "" time) = true := allowed
  have delayed : policy.retryAt (job.failedWith .panic "" time) time = .ok retryAt := delayed
  rw [verdicts, Job.fail_running running]
  simp only [delayed, permitted, Job.retry_tryingAgain]
  cases policy.verdicts (job.tryingAgain time) rest <;> rfl

/-- A job that fails again and again is counted up by one from verdict to verdict, as long as its limit allows it. -/
theorem verdicts_counted (returns : policy.Returns) (running : job.state = .running) (times : List Instant) :
    ∃ verdicts, policy.verdicts job times = .ok (verdicts, true) ∧
      verdicts.map (·.retries) = List.range' job.retries (job.limit.rounds job.retries times.length) ∧
      ∀ verdict ∈ verdicts, verdict.permitted = job.limit.allows verdict.retries := by
  induction times generalizing job with
  | nil =>
    refine ⟨[], verdicts_nil policy job, ?_, List.forall_mem_nil _⟩
    cases limited : job.limit <;> simp [RetryLimit.rounds]
  | cons time rest ih =>
    obtain ⟨retryAt, delayed⟩ := returns.retryAt job time
    rw [List.length_cons]
    cases allowed : job.limit.allows job.retries with
    | false =>
      refine ⟨_, verdicts_spent running allowed delayed rest, ?_, ?_⟩
      · rw [RetryLimit.rounds_spent allowed]
        rfl
      · rintro verdict (_ | ⟨_, ⟨⟩⟩)
        exact allowed.symm
    | true =>
      have retries : (job.tryingAgain time).retries = job.retries + 1 := by simp [Job.tryingAgain, Job.retriedAt, Job.failedWith]
      have limit : (job.tryingAgain time).limit = job.limit := by simp [Job.tryingAgain, Job.retriedAt, Job.failedWith]
      obtain ⟨others, returned, counted, permitted⟩ := ih (show (job.tryingAgain time).state = .running from rfl)
      rw [retries, limit] at counted
      rw [limit] at permitted
      refine ⟨⟨true, retryAt, job.retries⟩ :: others, ?_, ?_, ?_⟩
      · rw [verdicts_allowed running allowed delayed, returned]
        rfl
      · rw [RetryLimit.rounds_succ allowed, List.range'_succ, ← counted]
        rfl
      · rintro verdict (_ | ⟨_, other⟩)
        · exact allowed.symm
        · exact permitted verdict other

end RetryPolicy

/-! ## How far the counts get -/

namespace RetryLimit

variable {limit : RetryLimit}

/-- A job with the limit, failing often enough, comes to a failure with so many retries behind it. -/
def ComesTo (limit : RetryLimit) (retries : Nat) (permitted : Bool) : Prop :=
  ∃ (policy : RetryPolicy) (job : Job) (times : List Instant) (verdicts : List RetryPolicy.Verdict),
    policy.Returns ∧ job.state = .running ∧ job.retries = 0 ∧ job.limit = limit ∧
      policy.verdicts job times = .ok (verdicts, true) ∧
      ∃ verdict ∈ verdicts, verdict.retries = retries ∧ verdict.permitted = permitted

theorem comesTo_iff (limit : RetryLimit) (retries : Nat) (permitted : Bool) :
    limit.ComesTo retries permitted ↔
      (∀ most, limit = .limited most → retries ≤ most.toNat) ∧ permitted = limit.allows retries := by
  constructor
  · rintro ⟨policy, job, times, verdicts, returns, running, fresh, rfl, returned, verdict, given, rfl, rfl⟩
    obtain ⟨verdicts', returned', counted, permits⟩ := RetryPolicy.verdicts_counted returns running times
    cases returned.symm.trans returned'
    refine ⟨fun most limited => ?_, permits verdict given⟩
    have member : verdict.retries ∈ verdicts.map (·.retries) := List.mem_map_of_mem given
    rw [counted, fresh, limited, rounds, List.mem_range'_1] at member
    omega
  · rintro ⟨within, rfl⟩
    let kind : Kind := ⟨"Plain", .medium, true⟩
    let job : Job := { Job.new ⟨1⟩ kind none .medium limit .epoch .never none with state := .running }
    have returns : RetryPolicy.Returns ⟨none⟩ := by rintro _ ⟨⟩
    have running : job.state = .running := rfl
    obtain ⟨verdicts, returned, counted, permits⟩ :=
      RetryPolicy.verdicts_counted returns running (List.replicate (retries + 1) .epoch)
    have reached : retries ∈ verdicts.map (·.retries) := by
      rw [counted, List.length_replicate, List.mem_range'_1]
      have enough : retries < limit.rounds 0 (retries + 1) := by
        cases limit with
        | unlimited => exact Nat.lt_succ_self _
        | limited most =>
          have within := within most rfl
          simp only [rounds]
          omega
      exact ⟨Nat.zero_le _, (Nat.zero_add _).symm ▸ enough⟩
    obtain ⟨verdict, given, rfl⟩ := List.mem_map.1 reached
    exact ⟨_, job, _, verdicts, returns, running, rfl, rfl, returned, verdict, given, rfl, permits verdict given⟩

/-- The number of an attempt takes more than 32 bits in some run of failures. -/
def AttemptsOverflow (limit : RetryLimit) : Prop :=
  ∃ retries permitted, limit.ComesTo retries permitted ∧ UInt32.size ≤ retries + 1

/-- The number of a retry that is granted takes more than 32 bits in some run of failures. -/
def RetriesOverflow (limit : RetryLimit) : Prop := ∃ retries, limit.ComesTo retries true ∧ UInt32.size ≤ retries + 1

/-- The last attempt is the one whose number may not fit, with the greatest limit there is. -/
theorem attemptsOverflow_iff (limit : RetryLimit) :
    limit.AttemptsOverflow ↔ limit = .unlimited ∨ limit = .limited (.ofNat (UInt32.size - 1)) := by
  constructor
  · rintro ⟨retries, permitted, comes, beyond⟩
    obtain ⟨within, -⟩ := (limit.comesTo_iff retries permitted).1 comes
    cases limit with
    | unlimited => exact .inl rfl
    | limited most =>
      have least := within most rfl
      have greatest := most.toNat_lt
      refine .inr (congrArg limited (UInt32.toNat_inj.1 ?_))
      have full : (UInt32.ofNat (UInt32.size - 1)).toNat = 2 ^ 32 - 1 := by decide
      have size : UInt32.size = 2 ^ 32 := rfl
      omega
  · rintro (rfl | rfl)
    · exact ⟨UInt32.size - 1, _, (comesTo_iff _ _ _).2 ⟨by rintro _ ⟨⟩, rfl⟩, by decide⟩
    · refine ⟨UInt32.size - 1, _, (comesTo_iff _ _ _).2 ⟨?_, rfl⟩, by decide⟩
      rintro _ ⟨⟩
      decide

/-- A retry that is granted has a number that fits, unless there is no limit. -/
theorem retriesOverflow_iff (limit : RetryLimit) : limit.RetriesOverflow ↔ limit = .unlimited := by
  constructor
  · rintro ⟨retries, comes, beyond⟩
    obtain ⟨-, allowed⟩ := (limit.comesTo_iff retries true).1 comes
    cases limit with
    | unlimited => rfl
    | limited most =>
      have under : retries < most.toNat := by simpa [allows] using allowed
      have greatest := most.toNat_lt
      have size : UInt32.size = 2 ^ 32 := rfl
      omega
  · rintro rfl
    exact ⟨UInt32.size - 1, (comesTo_iff _ _ _).2 ⟨by rintro _ ⟨⟩, rfl⟩, by decide⟩

/-- In runs of any length of a job that fails each time, all counts fit with every limit but the greatest there is, with
which the number of the last attempt does not; and without a limit nothing fits in the end. -/
theorem overflows_iff (limit : RetryLimit) :
    (limit.AttemptsOverflow ↔ limit = .unlimited ∨ limit = .limited (.ofNat (UInt32.size - 1))) ∧
      (limit.RetriesOverflow ↔ limit = .unlimited) :=
  ⟨attemptsOverflow_iff limit, retriesOverflow_iff limit⟩

/-- With the greatest limit it is just the last attempt whose number does not fit. Without a limit a retry is granted even
after as many as can be counted. -/
theorem greatest_overflows :
    (limited (.ofNat (UInt32.size - 1))).AttemptsOverflow ∧ ¬ (limited (.ofNat (UInt32.size - 1))).RetriesOverflow ∧
      unlimited.AttemptsOverflow ∧ unlimited.RetriesOverflow ∧ unlimited.allows (UInt32.size - 1) = true := by
  refine ⟨(attemptsOverflow_iff _).2 (.inr rfl), fun overflows => ?_, (attemptsOverflow_iff _).2 (.inl rfl),
    (retriesOverflow_iff _).2 rfl, rfl⟩
  cases (retriesOverflow_iff _).1 overflows

end RetryLimit

end Rota
