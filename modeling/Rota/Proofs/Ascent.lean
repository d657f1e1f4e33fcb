/-
Plans of jobs that come back. Their due times begin at the time the plan is made or after it, and each comes after the
one before: at the interval until no instant is left, on each of the dates in order, or when the cron schedule has it.
-/
import Rota.Proofs.Agenda
import Rota.Proofs.Calendar
import Rota.Proofs.Delays
import Rota.Proofs.Occurrences

namespace Rota

namespace Instant

theorem ofNanos?_nanos (t : Instant) : ofNanos? t.nanos = some t := dif_pos t.bounded

/-- After an instant out of range there is none in range. -/
theorem ofNanos?_eq_none {t : Instant} {nanos more : Int} (ge : t.nanos ≤ nanos) (h : ofNanos? nanos = none)
    (le : nanos ≤ more) : ofNanos? more = none := by
  have lower := t.bounded.1
  unfold ofNanos? at h ⊢
  split at h
  next => cases h
  next out =>
    rw [dif_neg]
    omega

end Instant

theorem Timing.notNegative_nanos (delay : Span) : (notNegative delay).nanos = max delay.nanos 0 := Span.nanos_max delay .zero

/-! ## Lists of dates -/

namespace Cadence

theorem mem_dropRepeats {date : Instant} (l : List Instant) : date ∈ dropRepeats l ↔ date ∈ l := by
  induction l using dropRepeats.induct with
  | case1 a rest ih =>
    rw [dropRepeats, if_pos rfl, ih]
    simp
  | case2 a b rest hab ih =>
    rw [dropRepeats, if_neg hab, List.mem_cons, ih, ← List.mem_cons]
  | case3 l short =>
    unfold dropRepeats
    split
    next => exact absurd rfl (short _ _ _)
    next => rfl

theorem dropRepeats_ascends {l : List Instant} (h : l.Pairwise (· ≤ ·)) : (dropRepeats l).Pairwise (· < ·) := by
  induction l using dropRepeats.induct with
  | case1 a rest ih =>
    rw [dropRepeats, if_pos rfl]
    exact ih h.of_cons
  | case2 a b rest hab ih =>
    rw [List.pairwise_cons] at h
    have lt : a < b := by
      rcases Int.lt_or_eq_of_le (h.1 b (List.mem_cons_self ..)) with lt | eq
      · exact lt
      · exact absurd (Instant.eq_of_nanos eq) hab
    rw [dropRepeats, if_neg hab]
    refine List.pairwise_cons.2 ⟨fun date hd => ?_, ih h.2⟩
    rcases List.mem_cons.1 ((mem_dropRepeats _).1 hd) with rfl | hd
    · exact lt
    · exact Int.lt_of_lt_of_le lt ((List.pairwise_cons.1 h.2).1 date hd)
  | case3 l short =>
    unfold dropRepeats
    split
    next => exact absurd rfl (short _ _ _)
    next =>
      rcases l with _ | ⟨a, _ | ⟨b, rest⟩⟩
      · exact .nil
      · exact List.pairwise_singleton _ _
      · exact absurd rfl (short a b rest)

/-- The cadence of a list of dates has each of them once, in order. -/
theorem onDates_eq {listed remaining : List Instant} (h : onDates listed = .dates remaining) :
    remaining.Pairwise (· < ·) ∧ ∀ date, date ∈ remaining ↔ date ∈ listed := by
  cases h
  have sorted : (listed.mergeSort fun a b => decide (a ≤ b)).Pairwise (· ≤ ·) := by
    refine (List.pairwise_mergeSort ?_ ?_ listed).imp of_decide_eq_true
    · exact fun a b c hab hbc => decide_eq_true (Int.le_trans (of_decide_eq_true hab) (of_decide_eq_true hbc))
    · intro a b
      rw [Bool.or_eq_true, decide_eq_true_eq, decide_eq_true_eq]
      exact Int.le_total a.nanos b.nanos
  refine ⟨dropRepeats_ascends sorted, fun date => ?_⟩
  rw [mem_dropRepeats, List.mem_mergeSort]

theorem following_dates (remaining : List Instant) (most : Nat) (due : Instant) :
    (dates remaining).following most due = .ok (remaining.take most) := by
  induction remaining generalizing most due with
  | nil => rw [List.take_nil, following_of_next_none rfl]
  | cons date rest ih =>
    cases most with
    | zero => rfl
    | succ most =>
      have turn : (dates (date :: rest)).next due = .ok (some date, dates rest) := rfl
      rw [following_succ turn, ih]
      rfl

/-! ## Intervals -/

/-- At an interval the due times are the multiples of it, up to the last instant and no further. -/
theorem following_periodic {interval : Span} (hi : 0 ≤ interval.nanos) {most : Nat} {due : Instant} {dues : List Instant}
    (h : (periodic interval).following most due = .ok dues) {n : Nat} (hn : n ≤ most) :
    (due :: dues)[n]? = Instant.ofNanos? (due.nanos + n * interval.nanos) := by
  induction n generalizing most due dues with
  | zero =>
    rw [Int.natCast_zero, Int.zero_mul, Int.add_zero, due.ofNanos?_nanos]
    rfl
  | succ n ih =>
    obtain ⟨most, rfl⟩ : ∃ fewer, most = fewer + 1 := ⟨most - 1, by omega⟩
    have steps : due.nanos + (n + 1 : Nat) * interval.nanos = due.nanos + interval.nanos + n * interval.nanos := by
      rw [Int.natCast_succ, Int.add_mul, Int.one_mul]
      omega
    have hni : 0 ≤ n * interval.nanos := Int.mul_nonneg (Int.natCast_nonneg n) hi
    rw [List.getElem?_cons_succ, steps]
    cases ha : due.add? interval with
    | none =>
      have ended : (periodic interval).next due = .ok (none, periodic interval) := by simp only [next, ha]
      rw [following_of_next_none ended] at h
      cases h
      exact (Instant.ofNanos?_eq_none (t := due) (by omega) ha (by omega)).symm
    | some later =>
      have goesOn : (periodic interval).next due = .ok (some later, periodic interval) := by simp only [next, ha]
      rw [following_succ goesOn] at h
      cases hl : (periodic interval).following most later with
      | error fault => rw [hl] at h; cases h
      | ok left =>
        rw [hl] at h
        cases h
        rw [ih hl (by omega), Instant.add?_nanos ha]

/-! ## Cadences that only go ahead -/

/-- Each due time that the cadence gives after a due time comes after it. -/
def Ahead (due : Instant) : Cadence → Prop
  | periodic interval => 0 < interval.nanos
  | dates remaining => (due :: remaining).Pairwise (· < ·)
  | _ => True

variable {cadence rest : Cadence} {due later : Instant}

theorem Ahead.next (h : cadence.Ahead due) (hn : cadence.next due = .ok (some later, rest)) :
    due < later ∧ rest.Ahead later := by
  cases cadence with
  | never => cases hn
  | periodic interval =>
    have hn : (due.add? interval, periodic interval) = (some later, rest) := Except.ok.inj hn
    rw [Prod.mk.injEq] at hn
    obtain ⟨added, rfl⟩ := hn
    have nanos := Instant.add?_nanos added
    have positive : 0 < interval.nanos := h
    refine ⟨?_, h⟩
    show due.nanos < later.nanos
    omega
  | dates remaining =>
    cases remaining with
    | nil => cases hn
    | cons date left =>
      cases hn
      exact ⟨(List.pairwise_cons.1 h).1 _ (List.mem_cons_self ..), h.of_cons⟩
  | cron schedule =>
    cases hs : schedule.next due with
    | error fault => simp [Cadence.next, hs, Except.map] at hn
    | ok found =>
      simp only [Cadence.next, hs, Except.map, Except.ok.injEq, Prod.mk.injEq] at hn
      obtain ⟨rfl, rfl⟩ := hn
      exact ⟨Cron.next_later hs, trivial⟩

/-- The due times that follow one another ascend. -/
theorem Ahead.following (h : cadence.Ahead due) (tame : cadence.Tame due) (most : Nat) :
    ∃ dues, cadence.following most due = .ok dues ∧ (due :: dues).Pairwise (· < ·) := by
  induction most generalizing cadence due with
  | zero => exact ⟨[], rfl, List.pairwise_singleton _ _⟩
  | succ most ih =>
    obtain ⟨⟨found, rest⟩, hn⟩ := tame.next_ok
    cases found with
    | none => exact ⟨[], following_of_next_none hn _, List.pairwise_singleton _ _⟩
    | some later =>
      obtain ⟨lt, ahead⟩ := h.next hn
      obtain ⟨dues, hd, ascends⟩ := ih ahead (tame.next hn)
      refine ⟨later :: dues, by rw [following_succ hn, hd]; rfl, List.pairwise_cons.2 ⟨?_, ascends⟩⟩
      rintro date (_ | ⟨_, hm⟩)
      · exact lt
      · exact Int.lt_trans lt ((List.pairwise_cons.1 ascends).1 date hm)

end Cadence

/-! ## Plans -/

namespace Timing.Opens

variable {timing : Timing} {now due : Instant} {cadence : Cadence}

/-- A timing by which a job comes back begins a cadence that only goes ahead. -/
theorem ahead (h : timing.Opens now due cadence) : cadence.Ahead due := by
  cases h with
  | periodic delayed long first =>
    have long := Int.not_lt.1 long
    exact Int.lt_of_lt_of_le (by decide) long
  | dates ahead sorted => exact (Cadence.onDates_eq sorted).1
  | _ => trivial

/-- It begins no earlier than the plan is made, and later unless it begins on a date. -/
theorem begins (h : timing.Opens now due cadence) (recurs : ∀ start, timing ≠ .once start) :
    now ≤ due ∧ ((∀ listed, timing ≠ .dates listed) → now < due) := by
  have start_ge : ∀ {start : Instant} {delay : Span}, now.add? (notNegative delay) = some start → now.nanos ≤ start.nanos := by
    intro start delay hs
    rw [Instant.add?_nanos hs, notNegative_nanos]
    omega
  suffices later : now < due ∨ now ≤ due ∧ ∃ listed, timing = .dates listed by
    rcases later with lt | ⟨le, listed, dated⟩
    · exact ⟨Int.le_of_lt lt, fun _ => lt⟩
    · exact ⟨le, fun undated => absurd dated (undated listed)⟩
  cases h with
  | after => exact absurd rfl (recurs _)
  | on => exact absurd rfl (recurs _)
  | @periodic interval delay start _ delayed long first =>
    left
    have ge := start_ge delayed
    have long : Span.second.nanos ≤ interval.nanos := Int.not_lt.1 long
    have positive : 0 < Span.second.nanos := by decide
    show now.nanos < due.nanos
    rw [Instant.add?_nanos first]
    omega
  | cron delayed upcoming =>
    left
    exact Int.lt_of_le_of_lt (start_ge delayed) (Cron.next_later upcoming)
  | @dates listed rest _ ahead sorted =>
    right
    have hm : due ∈ listed := ((Cadence.onDates_eq sorted).2 due).1 (List.mem_cons_self ..)
    have notPast := List.find?_eq_none.1 ahead due hm
    exact ⟨Int.not_lt.1 fun lt => notPast (decide_eq_true lt), listed, rfl⟩

/-- At an interval, the due times are at the multiples of it from after the delay. -/
theorem multiples {interval delay : Span} (h : (Timing.periodic interval delay).Opens now due cadence) {most : Nat}
    {dues : List Instant} (hd : cadence.following most due = .ok dues) {n : Nat} (hn : n ≤ most) :
    (due :: dues)[n]? = Instant.ofNanos? (now.nanos + max delay.nanos 0 + (n + 1) * interval.nanos) := by
  have positive := h.ahead
  cases h with
  | periodic delayed long first =>
    have nth := Cadence.following_periodic (Int.le_of_lt positive) hd hn
    rw [Instant.add?_nanos first, Instant.add?_nanos delayed, notNegative_nanos] at nth
    rw [nth, Int.add_mul, Int.one_mul, Int.add_assoc, Int.add_comm interval.nanos]

/-- On dates, each that was listed has its turn, and then the cadence is over. -/
theorem turns {listed : List Instant} (h : (Timing.dates listed).Opens now due cadence) :
    ∃ dues, (∀ most, cadence.following most due = .ok (dues.take most)) ∧ (due :: dues).Pairwise (· < ·) ∧
      ∀ date, date ∈ due :: dues ↔ date ∈ listed := by
  cases h with
  | @dates _ rest _ ahead sorted =>
    exact ⟨rest, fun most => Cadence.following_dates rest most due, Cadence.onDates_eq sorted⟩

end Timing.Opens

/-- What is to be said of the due times of a plan that was made at an instant for a timing. -/
structure Plan.Ascends (plan : Plan) (timing : Timing) (now : Instant) : Prop where
  notBefore : now ≤ plan.dueAt
  later : (∀ listed, timing ≠ .dates listed) → now < plan.dueAt
  ascends : ∀ most, ∃ dues, plan.cadence.following most plan.dueAt = .ok dues ∧ (plan.dueAt :: dues).Pairwise (· < ·)
  periodic : ∀ interval delay, timing = .periodic interval delay → ∀ most, ∃ dues,
    plan.cadence.following most plan.dueAt = .ok dues ∧ ∀ n ≤ most,
      (plan.dueAt :: dues)[n]? = Instant.ofNanos? (now.nanos + max delay.nanos 0 + (n + 1) * interval.nanos)
  dates : ∀ listed, timing = .dates listed → ∃ dues,
    (∀ most, plan.cadence.following most plan.dueAt = .ok (dues.take most)) ∧ (plan.dueAt :: dues).Pairwise (· < ·) ∧
      ∀ date, date ∈ plan.dueAt :: dues ↔ date ∈ listed

/-- The due times of a job that comes back ascend from when it is planned. -/
theorem Request.plan_ascends {request : Request} {now : Instant} {plan : Plan}
    (recurs : ∀ start, request.timing ≠ .once start)
    (parsed : ∀ cron delay, request.timing = .cron cron delay → ∃ text, Cron.parse? text = some cron)
    (planned : request.plan now = .ok (.ok plan)) : plan.Ascends request.timing now := by
  have opens := plan_opens planned
  have following := opens.ahead.following (plan_tame parsed planned)
  obtain ⟨notBefore, later⟩ := opens.begins recurs
  constructor
  case notBefore => exact notBefore
  case later => exact later
  case ascends => exact following
  case periodic =>
    intro interval delay timing most
    obtain ⟨dues, hd, -⟩ := following most
    rw [timing] at opens
    exact ⟨dues, hd, fun n hn => opens.multiples hd hn⟩
  case dates =>
    intro listed timing
    rw [timing] at opens
    exact opens.turns

/-- The schedule of the first second of each year. -/
def Cron.yearly : Cron := ⟨[0], [0], [0], [1], [1], List.range' 1 7, List.range' 1970 131⟩

/-- Asked for at the first second of a year, it begins with that of the next one. -/
theorem Request.plan_ascends_yearly :
    Cron.parse? "@yearly" = some .yearly ∧
      ∃ plan, (Request.of (.cron .yearly .zero)).plan .epoch = .ok (.ok plan) ∧
        plan.dueAt.nanos = 365 * secondsPerDay * nanosPerSecond ∧ plan.Ascends (.cron .yearly .zero) .epoch := by
  have read : Cron.parse? "@yearly" = some .yearly := by decide +kernel
  have planned : (Request.of (.cron .yearly .zero)).plan .epoch =
      .ok (.ok ⟨⟨31536000000000000, by decide⟩, .cron .yearly, none, .limited 0⟩) := by decide +kernel
  refine ⟨read, _, planned, rfl, plan_ascends (fun start once => ?_) (fun cron delay timing => ?_) planned⟩
  · cases once
  · cases timing
    exact ⟨_, read⟩

/-- A job that is to come back on three dates, of which two are the same, does so twice. -/
example : (Request.of (.dates [.afterTwo, .afterSecond, .afterTwo])).plan .epoch =
    .ok (.ok ⟨.afterSecond, .dates [.afterTwo], none, .limited 0⟩) := by
  cbv

end Rota
