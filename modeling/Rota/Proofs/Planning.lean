/-
Every request is answered, by a plan or by a refusal that says what is wrong with it, whatever its intervals and delays
and whenever it is made. A delay may lead out of range, and the times of a cron schedule may all be over when it sets
in. In one case only there is no answer: a cron schedule sets in within the last second there is, and cannot be asked
for a time after it.
-/
import Rota.Proofs.Ascent

namespace Rota

namespace Timing

/-- When a timing sets in after its delay, in nanoseconds, be there such an instant or not. -/
def onset (delay : Span) (now : Instant) : Int := now.nanos + max delay.nanos 0

/-- Whether a cron schedule sets in within the last second there is. -/
def Overruns (now : Instant) : Timing → Prop
  | .cron _ delay => Instant.latest.nanos - Span.second.nanos < onset delay now ∧ onset delay now ≤ Instant.latest.nanos
  | _ => False

variable {now : Instant} {delay : Span}

/-- A delay is refused just if it leads past the last instant. -/
theorem offset_onset (delay : Span) (now : Instant) :
    (∃ start, offset now (notNegative delay) = .ok start ∧ start.nanos = onset delay now) ∨
      Instant.latest.nanos < onset delay now ∧
        offset now (notNegative delay) = .error (.badArgument (.outOfRange (notNegative delay) now)) := by
  unfold offset
  cases added : now.add? (notNegative delay) with
  | some start =>
    left
    refine ⟨start, rfl, ?_⟩
    rw [Instant.add?_nanos added, notNegative_nanos]
    rfl
  | none =>
    right
    refine ⟨?_, rfl⟩
    have earliest : Instant.earliest.nanos ≤ now.nanos := now.bounded.1
    rw [Instant.add?_eq_none, notNegative_nanos] at added
    unfold onset
    omega

/-- A timing has no first due time to tell of, nor a reason why not, just if it is a cron schedule that sets in within
the last second. -/
theorem first_fault (timing : Timing) (now : Instant) :
    (∃ fault, timing.first now = .error fault) ↔ timing.Overruns now := by
  cases timing with
  | once start => cases start <;> simp [first, Overruns]
  | periodic interval delay => simp [first, Overruns]
  | dates listed => simp [first, Overruns]
  | cron schedule delay =>
    rcases offset_onset delay now with ⟨start, set, nanos⟩ | ⟨late, refused⟩
    · have inRange := start.bounded.2
      have asked : (∃ fault, first (.cron schedule delay) now = .error fault) ↔ ∃ fault, schedule.next start = .error fault := by
        simp only [first, set]
        cases schedule.next start <;> simp [Except.map]
      rw [asked, schedule.next_fault, nanos]
      unfold Overruns
      rw [nanos] at inRange
      exact ⟨fun late => ⟨late, inRange⟩, fun overruns => overruns.1⟩
    · simp only [first, refused, Overruns, reduceCtorEq, exists_false, false_iff]
      omega

/-- What a cron schedule is refused for that sets in when all its times are over. -/
def overdue (delay : Span) (now : Instant) : BadArgument :=
  if Instant.latest.nanos < onset delay now then .outOfRange (notNegative delay) now else .nothingUpcoming

theorem first_overdue {schedule : Cron} (bounded : schedule.Bounded) (past : Cron.lastNanos ≤ onset delay now)
    (answered : ¬ (Timing.cron schedule delay).Overruns now) :
    (Timing.cron schedule delay).first now = .ok (.error (.badArgument (overdue delay now))) := by
  unfold overdue
  rcases offset_onset delay now with ⟨start, set, nanos⟩ | ⟨late, refused⟩
  · have inRange : ¬ Instant.latest.nanos < onset delay now := by
      rw [← nanos]
      exact Int.not_lt.2 start.bounded.2
    rw [if_neg inRange]
    cases asked : schedule.next start with
    | error fault => exact absurd ((first_fault _ now).1 ⟨fault, by simp only [first, set, asked]; rfl⟩) answered
    | ok found =>
      cases found with
      | none => simp only [first, set, asked]; rfl
      | some due =>
        -- there is no time of the schedule left
        have before := Cron.next_lt bounded asked
        have after : start.nanos < due.nanos := Cron.next_later asked
        omega
  · rw [if_pos late]
    simp only [first, refused]

end Timing

namespace Request

theorem plan_fault (request : Request) (now : Instant) :
    (∃ fault, request.plan now = .error fault) ↔ request.timing.Overruns now := by
  rw [← Timing.first_fault]
  unfold plan
  cases request.timing.first now with
  | error fault => simp [Except.map]
  | ok answer => simp [Except.map]

/-- What is to be said of the answer to a request. -/
structure Answers (request : Request) (now : Instant) : Prop where
  answered : (∃ plan, request.plan now = .ok (.ok plan)) ∨ ∃ cause, request.plan now = .ok (.error (.badArgument cause))
  overdue : ∀ text schedule delay, Cron.parse? text = some schedule → request.timing = .cron schedule delay →
    Cron.lastNanos ≤ Timing.onset delay now → request.plan now = .ok (.error (.badArgument (Timing.overdue delay now)))

/-- Whatever a request asks for and whenever it is made, it comes to a plan or is refused for what is wrong with it,
and a cron schedule that sets in when all its times are over is refused for that, unless it sets in within the last
second there is. -/
theorem plan_answers_iff (request : Request) (now : Instant) :
    request.Answers now ↔ ¬ request.timing.Overruns now := by
  constructor
  · intro answers overruns
    obtain ⟨fault, stuck⟩ := (plan_fault request now).2 overruns
    rcases answers.answered with ⟨plan, planned⟩ | ⟨cause, refused⟩
    · cases stuck.symm.trans planned
    · cases stuck.symm.trans refused
  · intro inTime
    constructor
    case answered =>
      cases answer : request.plan now with
      | error fault => exact absurd ((plan_fault request now).1 ⟨fault, answer⟩) inTime
      | ok judged =>
        cases judged with
        | ok plan => exact .inl ⟨plan, rfl⟩
        | error refusal =>
          obtain ⟨cause, rfl⟩ := plan_refused answer
          exact .inr ⟨cause, rfl⟩
    case overdue =>
      intro text schedule delay read timing past
      rw [timing] at inTime
      unfold plan
      rw [timing, Timing.first_overdue (Cron.parse?_bounded read) past inTime]
      rfl

/-- A schedule of the first second of each year that is asked for an hour before the last instant and is to set in an
hour later is neither planned nor refused. -/
theorem hour_before_latest_not_answers :
    let now : Instant := ⟨Instant.latest.nanos - 3600 * nanosPerSecond, by decide⟩
    let delay : Span := ⟨3600 * nanosPerSecond, by decide⟩
    let request := Request.of (.cron .yearly delay)
    Cron.parse? "0 0 0 1 1 *" = some .yearly ∧ request.plan now = .error .instantOverflow ∧ ¬ request.Answers now := by
  intro now delay request
  have fault : request.plan now = .error .instantOverflow := by decide +kernel
  refine ⟨by decide +kernel, fault, fun answers => ?_⟩
  rcases answers.answered with ⟨plan, planned⟩ | ⟨cause, refused⟩
  · cases fault.symm.trans planned
  · cases fault.symm.trans refused

end Request

end Rota
