/-
Where a cadence leads. A schedule that has been read from a text admits no year after 2100, so the
due times it gives stay far from the last instant, and it can always be asked for the next one.
-/
import Rota.Plan

namespace Rota

/-- A span later there is no instant just if that is out of range. -/
theorem Instant.add?_eq_none {t : Instant} {span : Span} :
    t.add? span = none ↔ t.nanos + span.nanos < earliest.nanos ∨ latest.nanos < t.nanos + span.nanos := by
  unfold add? ofNanos?
  rw [dite_eq_right_iff]
  simp only [earliest, latest, reduceCtorEq, imp_false]
  omega

/-! ## What a cron schedule admits -/

namespace Cron

/-- The schedule admits no number above the greatest of its field. -/
structure Bounded (cron : Cron) : Prop where
  seconds : ∀ n ∈ cron.seconds, n ≤ 59
  minutes : ∀ n ∈ cron.minutes, n ≤ 59
  hours : ∀ n ∈ cron.hours, n ≤ 23
  years : ∀ n ∈ cron.years, n ≤ 2100

theorem Field.mem_all {f : Field} {n : Nat} (h : n ∈ f.all) (hf : f.least ≤ f.greatest) : n ≤ f.greatest := by
  simp only [Field.all, List.mem_range'_1] at h
  omega

theorem numbers_le {f : Field} {query : Bool} {text rest : List Char} {ns : List Nat} (hf : f.least ≤ f.greatest)
    (h : numbers f query text = some (ns, rest)) : ∀ n ∈ ns, n ≤ f.greatest := by
  unfold numbers at h
  simp only [Option.bind_eq_bind, Option.pure_def, Option.bind_eq_some_iff, Prod.exists, Option.some.injEq,
    Prod.mk.injEq] at h
  obtain ⟨ts, _, -, ns', hn, rfl, -⟩ := h
  unfold Field.numbers? at hn
  simp only [Option.bind_eq_bind, Option.bind_eq_some_iff] at hn
  obtain ⟨_, -, hn⟩ := hn
  split at hn
  · cases hn
    exact fun n hm => Field.mem_all (List.mem_filter.1 hm).1 hf
  · cases hn

theorem fields?_bounded {text : List Char} {cron : Cron} (h : fields? text = some cron) : cron.Bounded := by
  unfold fields? at h
  simp only [Option.bind_eq_bind, Option.bind_eq_some_iff, Prod.exists] at h
  obtain ⟨seconds, _, hs, minutes, _, hm, hours, _, hh, _, _, -, _, _, -, _, text, -, h⟩ := h
  split at h
  · cases h
    refine ⟨numbers_le (by decide) hs, numbers_le (by decide) hm, numbers_le (by decide) hh, ?_⟩
    cases hy : numbers .year false text with
    | none => exact fun n hn => Field.mem_all hn (by decide)
    | some found => exact numbers_le (by decide) hy
  · cases h

theorem shorthand?_bounded {text : List Char} {cron : Cron} (h : shorthand? text = some cron) : cron.Bounded := by
  have hall : ∀ s ∈ shorthands, (∀ n ∈ s.2.seconds, n ≤ 59) ∧ (∀ n ∈ s.2.minutes, n ≤ 59) ∧
      (∀ n ∈ s.2.hours, n ≤ 23) ∧ ∀ n ∈ s.2.years, n ≤ 2100 := by decide +kernel
  unfold shorthand? at h
  obtain ⟨s, hs, rfl⟩ := Option.map_eq_some_iff.1 h
  obtain ⟨h1, h2, h3, h4⟩ := hall s (List.mem_of_find?_eq_some hs)
  exact ⟨h1, h2, h3, h4⟩

/-- A schedule that has been read from a text is bounded. -/
theorem parse?_bounded {text : String} {cron : Cron} (h : parse? text = some cron) : cron.Bounded := by
  unfold parse? at h
  cases hs : shorthand? text.toList with
  | none => rw [hs] at h; exact fields?_bounded h
  | some found => rw [hs] at h; cases h; exact shorthand?_bounded hs

/-! ## The next time -/

/-- A day after any that a schedule can admit. -/
def lastDay : Int := 157114

theorem admitsDay_lt {cron : Cron} (hb : cron.Bounded) {day : Int} (h : cron.admitsDay day = true) : day < lastDay := by
  unfold admitsDay at h
  simp only [Bool.and_eq_true, decide_eq_true_eq, List.contains_iff_mem] at h
  obtain ⟨⟨⟨⟨hpos, hyear⟩, -⟩, -⟩, -⟩ := h
  have hy := hb.years _ hyear
  -- the year is at least the first of its 400, whatever the day
  have hera : (day + 719468).fdiv 146097 * 400 ≤ (Date.ofDayNumber day).year := by
    unfold Date.ofDayNumber
    simp only
    split <;> omega
  have hmod := Int.mul_fdiv_add_fmod (day + 719468) 146097
  have hlt := Int.fmod_lt_of_pos (day + 719468) (b := 146097) (by decide)
  unfold lastDay
  omega

theorem firstDay?_lt {cron : Cron} : ∀ {days : Nat} {from_ day : Int}, cron.firstDay? days from_ = some day →
    day < from_ + days
  | 0, from_, day, h => by cases h
  | days + 1, from_, day, h => by
    unfold firstDay? at h
    split at h
    · cases h; omega
    · have := firstDay?_lt h
      omega

/-- The first time of a day is made of numbers that the schedule admits, and is not before the least. -/
theorem firstTime?_eq_some {cron : Cron} {least time : TimeOfDay} (h : cron.firstTime? least = some time) :
    (time.hour ∈ cron.hours ∧ time.minute ∈ cron.minutes ∧ time.second ∈ cron.seconds) ∧
      ¬ time.hour < least.hour ∧ ¬ (time.hour = least.hour ∧ time.minute < least.minute) ∧
      ¬ (time.hour = least.hour ∧ time.minute = least.minute ∧ time.second < least.second) := by
  unfold firstTime? at h
  obtain ⟨hour, hh, h⟩ := List.exists_of_findSome?_eq_some h
  split at h
  next => cases h
  next hour_ge =>
    obtain ⟨minute, hm, h⟩ := List.exists_of_findSome?_eq_some h
    split at h
    next => cases h
    next minute_ge =>
      obtain ⟨second, hs, h⟩ := List.exists_of_findSome?_eq_some h
      split at h
      next => cases h
      next second_ge =>
        cases h
        exact ⟨⟨hh, hm, hs⟩, hour_ge, minute_ge, second_ge⟩

theorem firstTime?_lt {cron : Cron} (hb : cron.Bounded) {least time : TimeOfDay} (h : cron.firstTime? least = some time) :
    time.toSeconds < secondsPerDay := by
  obtain ⟨⟨hh, hm, hs⟩, -⟩ := firstTime?_eq_some h
  have h1 := hb.hours _ hh
  have h2 := hb.minutes _ hm
  have h3 := hb.seconds _ hs
  simp only [TimeOfDay.toSeconds, secondsPerDay]
  omega

theorem instantAt?_nanos {day : Int} {time : TimeOfDay} {t : Instant} (h : instantAt? day time = some t) :
    t.nanos = (day * secondsPerDay + time.toSeconds) * nanosPerSecond := by
  unfold instantAt? Instant.ofNanos? at h
  split at h
  next => cases h; rfl
  next => cases h

/-- A time is found on the day itself, or on the first one admitted after it. -/
theorem firstFrom?_eq_some {cron : Cron} {day : Int} {time : TimeOfDay} {t : Instant}
    (h : cron.firstFrom? day time = some t) :
    ∃ later found, instantAt? later found = some t ∧
      (later = day ∧ cron.admitsDay day = true ∧ cron.firstTime? time = some found ∨
        cron.firstDay? (endOfDays - (day + 1)).toNat (day + 1) = some later ∧ cron.firstTime? .midnight = some found) := by
  unfold firstFrom? at h
  split at h
  next found hf =>
    split at hf
    next admitted => exact ⟨day, found, h, .inl ⟨rfl, admitted, hf⟩⟩
    next => cases hf
  next =>
    simp only [Option.bind_eq_bind, Option.bind_eq_some_iff] at h
    obtain ⟨later, hl, found, hf, h⟩ := h
    exact ⟨later, found, h, .inr ⟨hl, hf⟩⟩

/-- The next time is found from the second after the instant on. -/
theorem next_eq_some {cron : Cron} {after t : Instant} (h : cron.next after = .ok (some t)) :
    ∃ start date time, after.add? .second = some start ∧ cron.entry? start = some (date, time) ∧
      cron.firstFrom? date.dayNumber time = some t := by
  unfold next at h
  split at h
  next => cases h
  next start hs =>
    rw [Except.ok.injEq] at h
    split at h
    next => cases h
    next =>
      obtain ⟨⟨date, time⟩, he, h⟩ := Option.bind_eq_some_iff.1 h
      exact ⟨start, date, time, hs, he, h⟩

/-- The end of the last day, in nanoseconds: no schedule has a time after it. -/
def lastNanos : Int := lastDay * secondsPerDay * nanosPerSecond

theorem instantAt?_lt {day : Int} {time : TimeOfDay} {t : Instant} (hd : day < lastDay)
    (ht : time.toSeconds < secondsPerDay) (h : instantAt? day time = some t) : t.nanos < lastNanos := by
  rw [instantAt?_nanos h]
  simp only [lastNanos, lastDay, secondsPerDay, nanosPerSecond] at *
  omega

theorem firstFrom?_lt {cron : Cron} (hb : cron.Bounded) {day : Int} {time : TimeOfDay} {t : Instant}
    (h : cron.firstFrom? day time = some t) : t.nanos < lastNanos := by
  obtain ⟨later, found, ht, ⟨rfl, admitted, hf⟩ | ⟨hl, hf⟩⟩ := firstFrom?_eq_some h
  · exact instantAt?_lt (admitsDay_lt hb admitted) (firstTime?_lt hb hf) ht
  · refine instantAt?_lt ?_ (firstTime?_lt hb hf) ht
    have := firstDay?_lt hl
    -- the search goes up to a fixed day, whatever the schedule
    have he : endOfDays < lastDay := by decide
    cases hn : (endOfDays - (day + 1)).toNat with
    | zero => rw [hn] at hl; cases hl
    | succ n => omega

/-- Every time of a schedule is before the end of the last day. -/
theorem next_lt {cron : Cron} (hb : cron.Bounded) {after t : Instant} (h : cron.next after = .ok (some t)) :
    t.nanos < lastNanos := by
  obtain ⟨start, date, time, -, -, found⟩ := next_eq_some h
  exact firstFrom?_lt hb found

/-- A schedule can be asked for the time after any instant before the end of the last day. -/
theorem next_ok (cron : Cron) {after : Instant} (h : after.nanos < lastNanos) : ∃ t, cron.next after = .ok t := by
  have hb := after.bounded
  have hs : ∃ start, after.add? .second = some start := by
    refine ⟨⟨after.nanos + 1000000000, ?_⟩, ?_⟩
    · simp only [lastNanos, lastDay, secondsPerDay, nanosPerSecond] at h
      omega
    · unfold Instant.add? Instant.ofNanos?
      rw [dif_pos]
      rfl
  obtain ⟨start, hs⟩ := hs
  unfold next
  rw [hs]
  exact ⟨_, rfl⟩

/-- What keeps a schedule from answering is to be asked for a time after the last second. -/
theorem next_fault (cron : Cron) (after : Instant) :
    (∃ fault, cron.next after = .error fault) ↔ Instant.latest.nanos - Span.second.nanos < after.nanos := by
  have beyond : after.add? .second = none ↔ Instant.latest.nanos - Span.second.nanos < after.nanos := by
    have bounded := after.bounded
    rw [Instant.add?_eq_none]
    simp only [Instant.earliest, Instant.latest, Span.second]
    omega
  rw [← beyond]
  unfold next
  cases after.add? .second <;> simp

end Cron

/-! ## Cadences that can be followed -/

namespace Cadence

/-- The cadence can be asked for the due time after `due`, and so can what it leaves. -/
def Tame (due : Instant) : Cadence → Prop
  | cron schedule => schedule.Bounded ∧ due.nanos < Cron.lastNanos
  | _ => True

theorem Tame.next_ok {cadence : Cadence} {due : Instant} (h : cadence.Tame due) : ∃ r, cadence.next due = .ok r := by
  cases cadence with
  | never => exact ⟨_, rfl⟩
  | periodic interval => exact ⟨_, rfl⟩
  | dates remaining => cases remaining <;> exact ⟨_, rfl⟩
  | cron schedule =>
    obtain ⟨t, ht⟩ := Cron.next_ok schedule h.2
    exact ⟨(t, cron schedule), by simp [next, ht, Except.map]⟩

theorem Tame.next {cadence rest : Cadence} {due : Instant} {later : Option Instant} (h : cadence.Tame due)
    (hn : cadence.next due = .ok (later, rest)) : rest.Tame (later.getD due) := by
  cases cadence with
  | never => cases hn; trivial
  | periodic interval => cases hn; trivial
  | dates remaining => cases remaining <;> cases hn <;> trivial
  | cron schedule =>
    obtain ⟨t, ht⟩ := Cron.next_ok schedule h.2
    simp only [Cadence.next, ht, Except.map, Except.ok.injEq, Prod.mk.injEq] at hn
    obtain ⟨rfl, rfl⟩ := hn
    cases t with
    | none => exact h
    | some t => exact ⟨h.1, Cron.next_lt h.1 ht⟩

end Cadence

/-! ## Plans -/

/-- How the due times of a timing begin at an instant: with which of them, and by which cadence the others follow. -/
inductive Timing.Opens (now : Instant) : Timing → Instant → Cadence → Prop
  | after {delay : Span} {due : Instant} (delayed : now.add? (notNegative delay) = some due) :
    Opens now (.once (.after delay)) due .never
  | on {date : Instant} : Opens now (.once (.on date)) date .never
  | periodic {interval delay : Span} {start due : Instant} (delayed : now.add? (notNegative delay) = some start)
    (long : ¬ interval < minInterval) (first : start.add? interval = some due) :
    Opens now (.periodic interval delay) due (.periodic interval)
  | cron {schedule : Cron} {delay : Span} {start due : Instant} (delayed : now.add? (notNegative delay) = some start)
    (upcoming : schedule.next start = .ok (some due)) : Opens now (.cron schedule delay) due (.cron schedule)
  | dates {listed rest : List Instant} {due : Instant} (ahead : listed.find? (· < now) = none)
    (sorted : Cadence.onDates listed = .dates (due :: rest)) : Opens now (.dates listed) due (.dates rest)

theorem Timing.offset_eq_ok {start due : Instant} {span : Span} (h : offset start span = .ok due) :
    start.add? span = some due := by
  unfold offset at h
  split at h <;> cases h
  assumption

theorem Timing.first_opens {timing : Timing} {now due : Instant} {cadence : Cadence}
    (h : timing.first now = .ok (.ok (due, cadence))) : timing.Opens now due cadence := by
  unfold first at h
  split at h
  next delay =>
    rw [Except.ok.injEq] at h
    cases ho : offset now (notNegative delay) with
    | error refusal => rw [ho] at h; cases h
    | ok t =>
      rw [ho] at h
      cases h
      exact .after (offset_eq_ok ho)
  next => cases h; exact .on
  next interval delay =>
    rw [Except.ok.injEq] at h
    cases ho : offset now (notNegative delay) with
    | error refusal => rw [ho] at h; cases h
    | ok start =>
      rw [ho] at h
      simp only [bind, Except.bind, pure, Except.pure, throw, throwThe, MonadExceptOf.throw] at h
      split at h
      next => cases h
      next long =>
        cases hi : offset start interval with
        | error refusal => rw [hi] at h; cases h
        | ok t =>
          rw [hi] at h
          cases h
          exact .periodic (offset_eq_ok ho) long (offset_eq_ok hi)
  next schedule delay =>
    split at h
    next => cases h
    next start ho =>
      cases hn : schedule.next start with
      | error fault => rw [hn] at h; cases h
      | ok found =>
        rw [hn] at h
        cases found with
        | none => cases h
        | some t =>
          cases h
          exact .cron (offset_eq_ok ho) hn
  next listed =>
    rw [Except.ok.injEq] at h
    split at h
    next => cases h
    next ahead sorted => cases h; exact .dates ahead sorted
    next => cases h

/-- A plan that came of a request begins as its timing has it. -/
theorem Request.plan_opens {request : Request} {now : Instant} {plan : Plan} (h : request.plan now = .ok (.ok plan)) :
    request.timing.Opens now plan.dueAt plan.cadence := by
  unfold Request.plan at h
  cases hf : request.timing.first now with
  | error fault => rw [hf] at h; cases h
  | ok answer =>
    rw [hf] at h
    cases answer with
    | error refusal => cases h
    | ok first =>
      cases h
      exact Timing.first_opens hf

/-- A plan that came of a request begins a cadence that can be followed. -/
theorem Request.plan_tame {request : Request} {now : Instant} {plan : Plan}
    (hc : ∀ cron delay, request.timing = .cron cron delay → ∃ text, Cron.parse? text = some cron)
    (h : request.plan now = .ok (.ok plan)) : plan.cadence.Tame plan.dueAt := by
  have opens := plan_opens h
  generalize request.timing = timing at hc opens
  generalize plan.cadence = cadence, plan.dueAt = due at opens
  cases opens with
  | cron delayed upcoming =>
    obtain ⟨text, parsed⟩ := hc _ _ rfl
    have bounded := Cron.parse?_bounded parsed
    exact ⟨bounded, Cron.next_lt bounded upcoming⟩
  | _ => trivial

theorem Timing.offset_refused {start : Instant} {span : Span} {refusal : Refusal} (h : offset start span = .error refusal) :
    refusal = .badArgument (.outOfRange span start) := by
  unfold offset at h
  split at h <;> cases h
  rfl

/-- A request is refused for a fault of its own only. -/
theorem Request.plan_refused {request : Request} {now : Instant} {refusal : Refusal}
    (h : request.plan now = .ok (.error refusal)) : ∃ cause, refusal = .badArgument cause := by
  unfold Request.plan at h
  cases hf : request.timing.first now with
  | error fault => rw [hf] at h; cases h
  | ok answer =>
    rw [hf] at h
    cases answer with
    | ok first => cases h
    | error refused =>
      cases h
      unfold Timing.first at hf
      split at hf
      · simp only [Except.ok.injEq] at hf
        cases ho : Timing.offset now (Timing.notNegative _) with
        | error e => rw [ho] at hf; cases hf; exact ⟨_, Timing.offset_refused ho⟩
        | ok t => rw [ho] at hf; cases hf
      · cases hf
      · rename_i interval delay _
        simp only [Except.ok.injEq] at hf
        cases ho : Timing.offset now (Timing.notNegative delay) with
        | error e => rw [ho] at hf; cases hf; exact ⟨_, Timing.offset_refused ho⟩
        | ok start =>
          rw [ho] at hf
          simp only [bind, Except.bind, pure, Except.pure, throw, throwThe, MonadExceptOf.throw] at hf
          split at hf
          · cases hf; exact ⟨_, rfl⟩
          · cases hi : Timing.offset start interval with
            | error e => rw [hi] at hf; cases hf; exact ⟨_, Timing.offset_refused hi⟩
            | ok due => rw [hi] at hf; cases hf
      · split at hf
        · rename_i e ho
          cases hf
          exact ⟨_, Timing.offset_refused ho⟩
        · rename_i start _
          cases hn : Cron.next _ start with
          | error fault => rw [hn] at hf; cases hf
          | ok due =>
            rw [hn] at hf
            cases due with
            | none => cases hf; exact ⟨_, rfl⟩
            | some due => cases hf
      · simp only [Except.ok.injEq] at hf
        split at hf <;> cases hf
        · exact ⟨_, rfl⟩
        · exact ⟨_, rfl⟩

end Rota
