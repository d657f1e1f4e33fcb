/-
The calendar. Days are told by their numbers as well as by their dates, no date has a day after the last of its
month, and in a later year the same time of the year is a later day. The next time of a cron schedule, however far
the search for it leaps ahead, is after the time that it was asked for.
-/
import Rota.Proofs.Cadence

namespace Rota

/-! ## Years that begin in March -/

namespace Date

/-- The days from 1 March of the year 0 to 1 March of a year. -/
def daysBefore (year : Int) : Int := 365 * year + year / 4 - year / 100 + year / 400

/-- The day so many days after 1 March of a year. -/
def fromMarch (year : Int) (day : Nat) : Date :=
  let month := (5 * day + 2) / 153
  let dayOfMonth := day - (153 * month + 2) / 5 + 1
  if month < 10 then ⟨year, month + 3, dayOfMonth⟩ else ⟨year + 1, month - 9, dayOfMonth⟩

/-- A year has a day after its 365th only if it ends in the February of a leap year. -/
def HasDay (year : Int) (day : Nat) : Prop := day < 365 ∨ day = 365 ∧ isLeapYear (year + 1) = true

/-- A day of an era is a day of a year of a span of four years of a century; the leap day is the last of such a span,
and a century that does not end the era lacks its last one. -/
theorem exists_split {day : Nat} (h : day < 146097) :
    ∃ century span year rest, day = 36524 * century + 1461 * span + 365 * year + rest ∧
      century < 4 ∧ span < 25 ∧ year < 4 ∧ (rest < 365 ∨ rest = 365 ∧ year = 3 ∧ (span < 24 ∨ century = 3)) := by
  by_cases last : day = 146096
  · exact ⟨3, 24, 3, 365, by omega⟩
  by_cases leap : day % 36524 % 1461 = 1460
  · exact ⟨day / 36524, day % 36524 / 1461, 3, 365, by omega⟩
  · exact ⟨day / 36524, day % 36524 / 1461, day % 36524 % 1461 / 365, day % 36524 % 1461 % 365, by omega⟩

theorem yearOfEra_eq {day century span year rest : Nat} (hd : day = 36524 * century + 1461 * span + 365 * year + rest)
    (hc : century < 4) (hs : span < 25) (hy : year < 4)
    (hr : rest < 365 ∨ rest = 365 ∧ year = 3 ∧ (span < 24 ∨ century = 3)) :
    (day - day / 1460 + day / 36524 - day / 146096) / 365 = 100 * century + 4 * span + year := by
  by_cases last : day = 146096
  · subst last
    omega
  have era : day / 146096 = 0 := by omega
  have centuries : day / 36524 = century := by omega
  rw [era, centuries]
  rcases hr with hr | ⟨rfl, rfl, -⟩
  · -- towards the end of an era the spans of 1460 days have gained on those of four years, but never a whole year
    have spans : day / 1460 = 25 * century + span ∨ day / 1460 = 25 * century + span + 1 ∧ year = 3 ∧ 1 ≤ rest := by
      omega
    omega
  · have spans : day / 1460 = 25 * century + span + 1 := by omega
    omega

/-- Every day is a day of a year that begins in March. -/
theorem ofDayNumber_eq (number : Int) :
    ∃ year day, ofDayNumber number = fromMarch year day ∧ number + 719468 = daysBefore year + day ∧ HasDay year day := by
  unfold ofDayNumber
  simp only
  generalize he : (number + 719468).fdiv 146097 = era
  generalize hd : (number + 719468 - era * 146097).toNat = dayOfEra
  rw [Int.fdiv_eq_ediv_of_nonneg _ (by decide)] at he
  have whole : number + 719468 = era * 146097 + dayOfEra := by omega
  have below : dayOfEra < 146097 := by omega
  clear he hd
  obtain ⟨century, span, year, rest, hd, hc, hs, hy, hr⟩ := exists_split below
  have spans : (100 * century + 4 * span + year) / 4 = 25 * century + span := by omega
  have centuries : (100 * century + 4 * span + year) / 100 = century := by omega
  have dayOfYear : dayOfEra - (365 * (100 * century + 4 * span + year) + (25 * century + span) - century) = rest := by
    omega
  rw [yearOfEra_eq hd hc hs hy hr, spans, centuries, dayOfYear]
  refine ⟨(100 * century + 4 * span + year : Nat) + era * 400, rest, ?_, ?_, ?_⟩
  · unfold fromMarch
    by_cases hm : (5 * rest + 2) / 153 < 10
    · simp only [if_pos hm]
      rw [if_neg (by omega)]
    · simp only [if_neg hm]
      rw [if_pos (by omega)]
  · unfold daysBefore
    omega
  · rcases hr with hr | ⟨hr, hy, hs⟩
    · exact .inl hr
    · refine .inr ⟨hr, ?_⟩
      simp only [isLeapYear, Bool.and_eq_true, Bool.or_eq_true, decide_eq_true_eq]
      omega

theorem dayNumber_eq (date : Date) : date.dayNumber =
    daysBefore (if date.month ≤ 2 then date.year - 1 else date.year) +
      ((153 * (if 2 < date.month then date.month - 3 else date.month + 9) + 2) / 5 + date.day - 1 : Nat) - 719468 := by
  unfold dayNumber daysBefore
  simp only
  generalize (if date.month ≤ 2 then date.year - 1 else date.year) = year
  generalize (153 * (if 2 < date.month then date.month - 3 else date.month + 9) + 2) / 5 + date.day - 1 = day
  rw [Int.fdiv_eq_ediv_of_nonneg _ (by decide)]
  omega

theorem dayNumber_fromMarch (year : Int) {day : Nat} (h : day ≤ 365) :
    (fromMarch year day).dayNumber = daysBefore year + day - 719468 := by
  rw [dayNumber_eq]
  unfold fromMarch
  simp only
  by_cases hm : (5 * day + 2) / 153 < 10
  · simp only [if_pos hm]
    rw [if_neg (by omega), if_pos (by omega), Nat.add_sub_cancel]
    omega
  · simp only [if_neg hm]
    rw [if_pos (by omega), if_neg (by omega), Int.add_sub_cancel, Nat.sub_add_cancel (by omega)]
    omega

/-- The number of a day can be told from its date. -/
theorem dayNumber_ofDayNumber (number : Int) : (ofDayNumber number).dayNumber = number := by
  obtain ⟨year, day, eq, hn, hd⟩ := ofDayNumber_eq number
  have le : day ≤ 365 := by
    rcases hd with hd | ⟨hd, -⟩ <;> omega
  rw [eq, dayNumber_fromMarch year le]
  omega

theorem day_fromMarch {year : Int} {day : Nat} (h : HasDay year day) :
    (fromMarch year day).day ≤ lastOfMonth (fromMarch year day).year (fromMarch year day).month := by
  have le : day ≤ 365 := by
    rcases h with h | ⟨h, -⟩ <;> omega
  unfold fromMarch lastOfMonth
  by_cases hm : (5 * day + 2) / 153 < 10
  · simp only [if_pos hm]
    rw [if_neg (by omega)]
    split <;> omega
  · simp only [if_neg hm]
    by_cases february : (5 * day + 2) / 153 = 11
    · rw [if_pos (by omega)]
      rcases h with h | ⟨rfl, leap⟩
      · split <;> omega
      · simp only [leap, if_true, Nat.reduceMul, Nat.reduceAdd, Nat.reduceDiv, Nat.reduceSub, Nat.le_refl]
    · rw [if_neg (by omega), if_neg (by omega)]
      omega

/-- No date has a day after the last of its month. -/
theorem day_le_lastOfMonth (number : Int) :
    (ofDayNumber number).day ≤ lastOfMonth (ofDayNumber number).year (ofDayNumber number).month := by
  obtain ⟨year, day, eq, -, hd⟩ := ofDayNumber_eq number
  rw [eq]
  exact day_fromMarch hd

theorem lastOfMonth_le (year : Int) (month : Nat) : lastOfMonth year month ≤ 31 := by
  unfold lastOfMonth
  repeat' split
  all_goals omega

theorem daysBefore_lt {year later : Int} (h : year < later) : daysBefore year + 365 ≤ daysBefore later := by
  -- there are no more centuries between two years than spans of four years
  have : year / 4 - year / 100 ≤ later / 4 - later / 100 := by omega
  unfold daysBefore
  omega

/-- In a later year, every day of the same month comes later. -/
theorem dayNumber_lt {date later : Date} (year : date.year < later.year) (month : later.month = date.month)
    (day : date.day ≤ 31) : date.dayNumber < later.dayNumber := by
  rw [dayNumber_eq, dayNumber_eq later, month]
  by_cases hm : date.month ≤ 2
  · rw [if_pos hm, if_pos hm]
    have := daysBefore_lt (show date.year - 1 < later.year - 1 by omega)
    omega
  · rw [if_neg hm, if_neg hm]
    have := daysBefore_lt year
    omega

end Date

/-! ## The time of a day -/

/-- The parts of the time are such as a clock shows. -/
structure TimeOfDay.Valid (time : TimeOfDay) : Prop where
  hour : time.hour < 24
  minute : time.minute < 60
  second : time.second < 60

theorem TimeOfDay.Valid.toSeconds_lt {time : TimeOfDay} (h : time.Valid) : time.toSeconds < secondsPerDay := by
  obtain ⟨hour, minute, second⟩ := h
  unfold toSeconds secondsPerDay
  omega

theorem TimeOfDay.midnight_valid : midnight.Valid := ⟨by decide, by decide, by decide⟩

theorem TimeOfDay.ofSeconds_valid {seconds : Nat} (h : seconds < secondsPerDay) : (ofSeconds seconds).Valid := by
  unfold secondsPerDay at h
  unfold ofSeconds
  constructor <;> simp only <;> omega

theorem TimeOfDay.toSeconds_ofSeconds (seconds : Nat) : (ofSeconds seconds).toSeconds = seconds := by
  unfold toSeconds ofSeconds
  simp only
  omega

namespace Instant

theorem add?_nanos {t later : Instant} {span : Span} (h : t.add? span = some later) :
    later.nanos = t.nanos + span.nanos := by
  unfold add? ofNanos? at h
  split at h <;> cases h
  rfl

theorem timeOfDay_valid (t : Instant) : t.timeOfDay.Valid := by
  apply TimeOfDay.ofSeconds_valid
  unfold secondsPerDay
  rw [Int.fmod_eq_emod_of_nonneg _ (by decide)]
  omega

/-- An instant is told, to the second, by its day and its time of the day. -/
theorem seconds_eq (t : Instant) : t.dayNumber * secondsPerDay + t.timeOfDay.toSeconds = t.seconds := by
  unfold dayNumber timeOfDay secondsPerDay
  rw [TimeOfDay.toSeconds_ofSeconds, Int.fdiv_eq_ediv_of_nonneg _ (by decide), Int.fmod_eq_emod_of_nonneg _ (by decide)]
  omega

end Instant

/-! ## The next time of a cron schedule -/

namespace Cron

variable {cron : Cron} {day : Int} {time : TimeOfDay} {t : Instant}

theorem firstTime?_ge {least : TimeOfDay} (hl : least.Valid) (h : cron.firstTime? least = some time) :
    least.toSeconds ≤ time.toSeconds := by
  obtain ⟨-, hour, minute, second⟩ := firstTime?_eq_some h
  have hm := hl.minute
  have hs := hl.second
  unfold TimeOfDay.toSeconds
  omega

theorem firstDay?_ge {later : Int} : ∀ {days : Nat} {first : Int}, cron.firstDay? days first = some later → first ≤ later
  | 0, first, h => by cases h
  | days + 1, first, h => by
    unfold firstDay? at h
    split at h
    next => cases h; exact Int.le_refl _
    next =>
      have := firstDay?_ge h
      omega

/-- The search for a time finds none before it sets in. -/
theorem firstFrom?_ge (hv : time.Valid) (h : cron.firstFrom? day time = some t) :
    (day * secondsPerDay + time.toSeconds) * nanosPerSecond ≤ t.nanos := by
  have lt := hv.toSeconds_lt
  obtain ⟨later, found, ht, ⟨rfl, -, hf⟩ | ⟨hl, -⟩⟩ := firstFrom?_eq_some h
  · have ge := firstTime?_ge hv hf
    rw [instantAt?_nanos ht]
    unfold secondsPerDay nanosPerSecond
    omega
  · have ge := firstDay?_ge hl
    rw [instantAt?_nanos ht]
    unfold secondsPerDay nanosPerSecond at *
    omega

theorem entry?_eq {start : Instant} {date : Date} (h : cron.entry? start = some (date, time)) :
    ∃ year : Int, start.date.year ≤ year ∧
      date = ⟨year, start.date.month, min start.date.day (Date.lastOfMonth year start.date.month)⟩ ∧
      time = if date.day < start.date.day ∧ !cron.daysOfMonth.contains start.date.day then .midnight
        else start.timeOfDay := by
  unfold entry? at h
  obtain ⟨_, hy, he⟩ := Option.map_eq_some_iff.1 h
  obtain ⟨year, first, ⟨⟩⟩ := Option.bind_eq_some_iff.1 hy
  have upcoming : start.date.year ≤ (year : Int) := by
    have found := List.find?_some first
    exact of_decide_eq_true found
  cases he
  exact ⟨year, upcoming, rfl, rfl⟩

/-- The search sets in no earlier than at the instant, be it at the instant or in a later year. -/
theorem entry?_ge {start : Instant} {date : Date} (h : cron.entry? start = some (date, time)) :
    time.Valid ∧ start.seconds ≤ date.dayNumber * secondsPerDay + time.toSeconds := by
  obtain ⟨year, upcoming, rfl, rfl⟩ := entry?_eq h
  have dayOfMonth : start.date.day ≤ Date.lastOfMonth start.date.year start.date.month :=
    Date.day_le_lastOfMonth start.dayNumber
  have today : start.date.dayNumber = start.dayNumber := Date.dayNumber_ofDayNumber _
  constructor
  · split
    · exact TimeOfDay.midnight_valid
    · exact start.timeOfDay_valid
  rw [← start.seconds_eq]
  rcases Int.lt_or_eq_of_le upcoming with coming | rfl
  · -- the day may be sooner in its month, as it is in a February that lacks it
    have later : start.date.dayNumber <
        Date.dayNumber ⟨year, start.date.month, min start.date.day (Date.lastOfMonth year start.date.month)⟩ := by
      apply Date.dayNumber_lt
      · exact coming
      · rfl
      · exact Nat.le_trans dayOfMonth (Date.lastOfMonth_le ..)
    rw [today] at later
    have := start.timeOfDay_valid.toSeconds_lt
    unfold secondsPerDay at *
    omega
  · rw [Nat.min_eq_left dayOfMonth, if_neg fun h => Nat.lt_irrefl _ h.1]
    exact Int.le_of_eq (congrArg (fun day : Int => day * secondsPerDay + start.timeOfDay.toSeconds) today.symm)

/-- The next time of a schedule after an instant is after it. -/
theorem next_later {after : Instant} (h : cron.next after = .ok (some t)) : after < t := by
  obtain ⟨start, date, time, hs, he, hf⟩ := next_eq_some h
  obtain ⟨valid, ge⟩ := entry?_ge he
  have found := firstFrom?_ge valid hf
  have nanos : start.nanos = after.nanos + Span.second.nanos := Instant.add?_nanos hs
  have second : Span.second.nanos = 1000000000 := rfl
  show after.nanos < t.nanos
  unfold Instant.seconds at ge
  rw [Int.fdiv_eq_ediv_of_nonneg _ (by decide)] at ge
  unfold secondsPerDay nanosPerSecond at *
  omega

end Cron

end Rota
