/-
Jobs that come back on dates. The order in which the dates are listed does not matter, nor how often one of them is: a
request for them is granted if there is one and none has gone by, and the job is then due on each of them once, in
order, and never again.
-/
import Rota.Proofs.Ascent
import Mathlib.Data.List.Sort

namespace Rota

instance : Std.Irrefl fun a b : Instant => a < b := ⟨fun t => Int.lt_irrefl t.nanos⟩

instance : Std.Antisymm fun a b : Instant => a < b := ⟨fun _ _ lt gt => absurd gt (Int.lt_asymm lt)⟩

/-! ## Dates in order -/

/-- The dates of a list in order, each of them once. -/
structure InTurn (listed dates : List Instant) : Prop where
  ascends : dates.Pairwise (· < ·)
  mem : ∀ date, date ∈ dates ↔ date ∈ listed

variable {listed listed' dates dates' : List Instant}

/-- The same dates, listed in one way or another, are in the same order. -/
theorem InTurn.unique (h : InTurn listed dates) (h' : InTurn listed' dates')
    (same : ∀ date, date ∈ listed' ↔ date ∈ listed) : dates' = dates := by
  apply List.Pairwise.eq_of_mem_iff h'.ascends h.ascends
  intro date
  rw [h'.mem, same, h.mem]

theorem InTurn.ne_nil (h : InTurn listed dates) (filled : listed ≠ []) : dates ≠ [] := by
  rintro rfl
  obtain ⟨date, hd⟩ := List.exists_mem_of_ne_nil listed filled
  exact List.not_mem_nil ((h.mem date).2 hd)

theorem Cadence.onDates_inTurn (listed : List Instant) : ∃ dates, onDates listed = .dates dates ∧ InTurn listed dates := by
  have listing : onDates listed = .dates (dropRepeats (listed.mergeSort fun a b => decide (a ≤ b))) := rfl
  obtain ⟨ascends, mem⟩ := onDates_eq listing
  exact ⟨_, listing, ascends, mem⟩

/-- What remains of some dates is given one after the other, whatever instants it is to follow, and then nothing. -/
theorem Cadence.answers_dates (remaining asked : List Instant) :
    ∃ answers, (Cadence.dates remaining).answers asked = .ok answers ∧
      answers.map (·.1) = asked.mapIdx fun n _ => remaining[n]? := by
  induction asked generalizing remaining with
  | nil => exact ⟨[], rfl, rfl⟩
  | cons previous asked ih =>
    cases remaining with
    | nil =>
      obtain ⟨answers, answered, dues⟩ := ih []
      refine ⟨(none, .dates []) :: answers, ?_, ?_⟩
      · simp only [Cadence.answers, Cadence.next, answered, bind, Except.bind, pure, Except.pure]
      · simp [dues]
    | cons date rest =>
      obtain ⟨answers, answered, dues⟩ := ih rest
      refine ⟨(some date, .dates rest) :: answers, ?_, ?_⟩
      · simp only [Cadence.answers, Cadence.next, answered, bind, Except.bind, pure, Except.pure]
      · simp [dues]

/-! ## Requests for dates -/

/-- There is a date, and none has gone by. -/
def Upcoming (listed : List Instant) (now : Instant) : Prop := listed ≠ [] ∧ ∀ date ∈ listed, now ≤ date

theorem Upcoming.same {now : Instant} (same : ∀ date, date ∈ listed' ↔ date ∈ listed) :
    Upcoming listed' now ↔ Upcoming listed now := by
  have filled : listed' ≠ [] ↔ listed ≠ [] := by
    rw [← List.isEmpty_eq_false_iff, ← List.isEmpty_eq_false_iff, List.isEmpty_eq_false_iff_exists_mem,
      List.isEmpty_eq_false_iff_exists_mem]
    exact exists_congr same
  unfold Upcoming
  rw [filled]
  simp only [same]

theorem Timing.first_upcoming {now : Instant} (upcoming : Upcoming listed now) :
    ∃ due rest, InTurn listed (due :: rest) ∧ (Timing.dates listed).first now = .ok (.ok (due, .dates rest)) := by
  obtain ⟨dates, sorted, inTurn⟩ := Cadence.onDates_inTurn listed
  have ahead : listed.find? (· < now) = none := by
    rw [List.find?_eq_none]
    intro date hd gone
    exact Int.not_lt.2 (upcoming.2 date hd) (of_decide_eq_true gone)
  cases dates with
  | nil => exact absurd rfl (inTurn.ne_nil upcoming.1)
  | cons due rest =>
    refine ⟨due, rest, inTurn, ?_⟩
    simp only [first, ahead, sorted]

theorem Timing.first_not_upcoming {now : Instant} (h : ¬ Upcoming listed now) :
    ∃ cause, (Timing.dates listed).first now = .ok (.error (.badArgument cause)) := by
  cases gone : listed.find? (· < now) with
  | some past => exact ⟨.pastDate past, by simp only [first, gone]⟩
  | none =>
    have empty : listed = [] := by
      by_contra filled
      refine h ⟨filled, fun date hd => Int.not_lt.1 fun lt => ?_⟩
      exact List.find?_eq_none.1 gone date hd (decide_eq_true lt)
    subst empty
    have bare : Cadence.onDates [] = .dates [] := by
      rw [Cadence.onDates, List.mergeSort_nil]
      rfl
    exact ⟨.noDates, by simp only [first, List.find?_nil, bare]⟩

namespace Request

/-- What is to be said of a request for the dates of a list. -/
structure OnDates (request : Request) (listed : List Instant) (now : Instant) : Prop where
  planned : (∃ plan, request.plan now = .ok (.ok plan)) ↔ Upcoming listed now
  refused : (∃ cause, request.plan now = .ok (.error (.badArgument cause))) ↔ ¬ Upcoming listed now
  turns : ∀ plan, request.plan now = .ok (.ok plan) → ∃ rest, InTurn listed (plan.dueAt :: rest) ∧
    ∀ asked, ∃ answers, plan.cadence.answers asked = .ok answers ∧
      answers.map (·.1) = asked.mapIdx fun n _ => rest[n]?
  alike : ∀ (other : Request) (listed' : List Instant), other.timing = .dates listed' → (∀ date, date ∈ listed' ↔ date ∈ listed) →
    (∃ cause cause', request.plan now = .ok (.error (.badArgument cause)) ∧
        other.plan now = .ok (.error (.badArgument cause'))) ∨
      ∃ plan plan', request.plan now = .ok (.ok plan) ∧ other.plan now = .ok (.ok plan') ∧
        plan'.dueAt = plan.dueAt ∧ plan'.cadence = plan.cadence

variable {request : Request} {now : Instant}

theorem plan_upcoming (timing : request.timing = .dates listed) (upcoming : Upcoming listed now) :
    ∃ due rest, InTurn listed (due :: rest) ∧
      request.plan now = .ok (.ok ⟨due, .dates rest, request.priority, request.limit⟩) := by
  obtain ⟨due, rest, inTurn, first⟩ := Timing.first_upcoming upcoming
  refine ⟨due, rest, inTurn, ?_⟩
  unfold plan
  rw [timing, first]
  rfl

theorem plan_not_upcoming (timing : request.timing = .dates listed) (h : ¬ Upcoming listed now) :
    ∃ cause, request.plan now = .ok (.error (.badArgument cause)) := by
  obtain ⟨cause, refused⟩ := Timing.first_not_upcoming h
  refine ⟨cause, ?_⟩
  unfold plan
  rw [timing, refused]
  rfl

theorem upcoming_of_plan (timing : request.timing = .dates listed) {plan : Plan} (planned : request.plan now = .ok (.ok plan)) :
    Upcoming listed now := by
  by_contra h
  obtain ⟨cause, refused⟩ := plan_not_upcoming timing h
  cases planned.symm.trans refused

/-- To add dates one by one is to list them behind the others. -/
theorem withDates_timing (added : List Instant) (timing : request.timing = .dates listed) :
    (added.foldl withDate request).timing = .dates (listed ++ added) := by
  induction added generalizing request listed with
  | nil => rw [List.foldl_nil, timing, List.append_nil]
  | cons date added ih =>
    have next : (request.withDate date).timing = .dates (listed ++ [date]) := by
      unfold withDate
      rw [timing]
    rw [List.foldl_cons, ih next, List.append_assoc]
    rfl

/-- A request for dates, in whatever order and however often they are listed, at once or one by one, is granted just
if there is one and none has gone by; the job is due on each of them once, in order, and then never again; and other
requests for the same dates are refused with it or come to the same plan. -/
theorem plan_onDates (dates added : List Instant) (priority : Option Priority) (limit : RetryLimit) (now : Instant) :
    (added.foldl withDate ⟨.dates dates, priority, limit⟩).OnDates (dates ++ added) now := by
  have timing : (added.foldl withDate ⟨.dates dates, priority, limit⟩).timing = .dates (dates ++ added) :=
    withDates_timing added rfl
  generalize added.foldl withDate ⟨.dates dates, priority, limit⟩ = request at timing ⊢
  generalize dates ++ added = listed at timing ⊢
  constructor
  case planned =>
    constructor
    · rintro ⟨plan, planned⟩
      exact upcoming_of_plan timing planned
    · intro upcoming
      obtain ⟨due, rest, -, planned⟩ := plan_upcoming timing upcoming
      exact ⟨_, planned⟩
  case refused =>
    constructor
    · rintro ⟨cause, refused⟩ upcoming
      obtain ⟨due, rest, -, planned⟩ := plan_upcoming timing upcoming
      cases planned.symm.trans refused
    · exact plan_not_upcoming timing
  case turns =>
    intro plan planned
    obtain ⟨due, rest, inTurn, planned'⟩ := plan_upcoming timing (upcoming_of_plan timing planned)
    cases planned.symm.trans planned'
    exact ⟨rest, inTurn, Cadence.answers_dates rest⟩
  case alike =>
    intro other listed' timing' same
    by_cases upcoming : Upcoming listed now
    · right
      obtain ⟨due, rest, inTurn, planned⟩ := plan_upcoming timing upcoming
      obtain ⟨due', rest', inTurn', planned'⟩ := plan_upcoming timing' ((Upcoming.same same).2 upcoming)
      cases inTurn.unique inTurn' same
      exact ⟨_, _, planned, planned', rfl, rfl⟩
    · left
      obtain ⟨cause, refused⟩ := plan_not_upcoming timing upcoming
      obtain ⟨cause', refused'⟩ := plan_not_upcoming timing' (mt (Upcoming.same same).1 upcoming)
      exact ⟨cause, cause', refused, refused'⟩

example : (([.afterTwo, .afterSecond].foldl withDate (.of (.dates [.afterTwo]))).plan .epoch) =
    .ok (.ok ⟨.afterSecond, .dates [.afterTwo], none, .limited 0⟩) := by cbv

end Request

end Rota
