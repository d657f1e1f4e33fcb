/-
An attempt as it goes on in time. It is looked after in every millisecond: first the hook, and after it the body, goes on
as far as it can, and only then is all of it stopped if its time is up. `Reaches` lists what it can have come to after so
many milliseconds; that one step leads from one of these to another is all there is to the invariant. It follows when the
attempt ends and how, what is seen of it and when, and what its job is left with.
-/
import Rota.Proofs.Routing

namespace Rota

/-- How far an attempt has come. -/
inductive Phase
  | hook
  /-- The hook was done at a time, and the body has been under way since. -/
  | body (since : Nat)
  | closed (time : Nat) (ending : Ending)
deriving DecidableEq, Repr

/-- What is seen of an attempt. -/
inductive Sight
  | hookBegins
  | hookEnds
  | bodyBegins
  | bodyEnds
deriving DecidableEq, Repr

/-- An attempt under way, with the times of what has been seen of it. -/
structure Trial where
  phase : Phase
  sights : List (Nat × Sight)
deriving DecidableEq, Repr

/-- A limit in whole milliseconds is up after so many of them. -/
theorem Duration.ceilMillis_ofMillis (millis : Nat) : (Duration.ofMillis millis).ceilMillis = millis := by
  simp only [ceilMillis, ofMillis, nanosPerMilli]
  omega

namespace Attempt

/-! ## Millisecond by millisecond -/

/-- The body, under way since a time, goes on at another. -/
def bodyGoesOn (attempt : Attempt) (since time : Nat) : Trial :=
  if attempt.body.takes.any (since + · ≤ time) then ⟨.closed time attempt.body.outcome.ending, [(time, .bodyEnds)]⟩
  else ⟨.body since, []⟩

/-- The hook goes on at a time, and the body begins as soon as the hook is done. -/
def hookGoesOn (attempt : Attempt) (time : Nat) : Trial :=
  if attempt.hook.takes.any (· ≤ time) then
    match attempt.hook.outcome with
    | .done =>
      let body := attempt.bodyGoesOn time time
      ⟨body.phase, (time, .hookEnds) :: (time, .bodyBegins) :: body.sights⟩
    | failed => ⟨.closed time failed.ending, [(time, .hookEnds)]⟩
  else ⟨.hook, []⟩

/-- What has not ended by itself is stopped if its time is up. -/
def cutOff (attempt : Attempt) (time : Nat) (phase : Phase) : Phase :=
  match phase, attempt.limit with
  | .closed _ _, _ => phase
  | _, .within limit => if limit.ceilMillis ≤ time then .closed time (.timedOut limit) else phase
  | _, _ => phase

/-- The attempt is looked after at a time. -/
def lookAfter (attempt : Attempt) (time : Nat) (trial : Trial) : Trial :=
  match trial.phase with
  | .hook =>
    let hook := attempt.hookGoesOn time
    ⟨attempt.cutOff time hook.phase, trial.sights ++ hook.sights⟩
  | .body since =>
    let body := attempt.bodyGoesOn since time
    ⟨attempt.cutOff time body.phase, trial.sights ++ body.sights⟩
  | .closed _ _ => trial

/-- The attempt begins: the limit is read, and then the hook is called. -/
def begin (attempt : Attempt) : Trial :=
  match attempt.limit with
  | .panics payload => ⟨.closed 0 (Outcome.panic payload).ending, []⟩
  | _ => ⟨.hook, [(0, .hookBegins)]⟩

/-- What the attempt has come to when it has been looked after in each of the first so many milliseconds. -/
def after (attempt : Attempt) : Nat → Trial
  | 0 => attempt.begin
  | n + 1 => attempt.lookAfter n (attempt.after n)

/-- The attempt is over at a time, with an ending. -/
def EndsAt (attempt : Attempt) (time : Nat) (ending : Ending) : Prop :=
  (attempt.after (time + 1)).phase = .closed time ending

/-- Something is seen of the attempt, sooner or later. -/
def Seen (attempt : Attempt) (sight : Sight) : Prop := ∃ n time, (time, sight) ∈ (attempt.after n).sights

/-- When and with what outcome the attempt comes to its end if nothing stops it. -/
inductive Comes (attempt : Attempt) : Nat → Outcome → Prop
  | hookFails {time : Nat} (took : attempt.hook.takes = some time) (failed : attempt.hook.outcome ≠ .done) :
    Comes attempt time attempt.hook.outcome
  | bodyEnds {since time : Nat} (took : attempt.hook.takes = some since) (done : attempt.hook.outcome = .done)
    (takes : attempt.body.takes = some time) : Comes attempt (since + time) attempt.body.outcome

/-- What is seen of the attempt at a time. -/
inductive Shows (attempt : Attempt) : Nat → Sight → Prop
  | hookBegins (read : attempt.inTime 0) : Shows attempt 0 .hookBegins
  | hookEnds {time : Nat} (took : attempt.hook.takes = some time) (inTime : attempt.inTime time) :
    Shows attempt time .hookEnds
  | bodyBegins {time : Nat} (took : attempt.hook.takes = some time) (done : attempt.hook.outcome = .done)
    (inTime : attempt.inTime time) : Shows attempt time .bodyBegins
  | bodyEnds {since time : Nat} (took : attempt.hook.takes = some since) (done : attempt.hook.outcome = .done)
    (takes : attempt.body.takes = some time) (inTime : attempt.inTime (since + time)) :
    Shows attempt (since + time) .bodyEnds

/-- What the attempt has come to when it has been looked after for `n` milliseconds. -/
inductive Reaches (attempt : Attempt) (n : Nat) : Trial → Prop
  | hook (pending : ∀ time, attempt.hook.takes = some time → n ≤ time) (inTime : attempt.inTime n) :
    Reaches attempt n ⟨.hook, [(0, .hookBegins)]⟩
  | body {since : Nat} (took : attempt.hook.takes = some since) (done : attempt.hook.outcome = .done) (began : since < n)
    (pending : ∀ time, attempt.body.takes = some time → n ≤ since + time) (inTime : attempt.inTime n) :
    Reaches attempt n ⟨.body since, [(0, .hookBegins), (since, .hookEnds), (since, .bodyBegins)]⟩
  | unread {payload : Payload} (panics : attempt.limit = .panics payload) :
    Reaches attempt n ⟨.closed 0 (Outcome.panic payload).ending, []⟩
  | hookFailed {time : Nat} (took : attempt.hook.takes = some time) (failed : attempt.hook.outcome ≠ .done)
    (ended : time < n) (inTime : attempt.inTime time) :
    Reaches attempt n ⟨.closed time attempt.hook.outcome.ending, [(0, .hookBegins), (time, .hookEnds)]⟩
  | bodyEnded {since time : Nat} (took : attempt.hook.takes = some since) (done : attempt.hook.outcome = .done)
    (takes : attempt.body.takes = some time) (ended : since + time < n) (inTime : attempt.inTime (since + time)) :
    Reaches attempt n ⟨.closed (since + time) attempt.body.outcome.ending,
      [(0, .hookBegins), (since, .hookEnds), (since, .bodyBegins), (since + time, .bodyEnds)]⟩
  | hookStopped {limit : Duration} (limited : attempt.limit = .within limit) (up : limit.ceilMillis < n)
    (pending : ∀ time, attempt.hook.takes = some time → limit.ceilMillis < time) :
    Reaches attempt n ⟨.closed limit.ceilMillis (.timedOut limit), [(0, .hookBegins)]⟩
  | bodyStopped {limit : Duration} {since : Nat} (limited : attempt.limit = .within limit) (up : limit.ceilMillis < n)
    (took : attempt.hook.takes = some since) (done : attempt.hook.outcome = .done) (began : since ≤ limit.ceilMillis)
    (pending : ∀ time, attempt.body.takes = some time → limit.ceilMillis < since + time) :
    Reaches attempt n ⟨.closed limit.ceilMillis (.timedOut limit),
      [(0, .hookBegins), (since, .hookEnds), (since, .bodyBegins)]⟩

variable {attempt : Attempt} {n : Nat} {trial : Trial}

/-! ## The limit -/

theorem inTime_within {limit : Duration} (limited : attempt.limit = .within limit) (time : Nat) :
    attempt.inTime time ↔ time ≤ limit.ceilMillis := by
  simp [inTime, limited]

theorem inTime_of_le {time later : Nat} (le : time ≤ later) (h : attempt.inTime later) : attempt.inTime time := by
  unfold inTime at h ⊢
  cases limited : attempt.limit with
  | none => rfl
  | within limit =>
    rw [limited] at h
    have up : later ≤ limit.ceilMillis := by simpa using h
    simpa using le.trans up
  | panics payload =>
    rw [limited] at h
    cases h

/-- As long as an attempt is in time, one millisecond leaves it in time, or brings it to its limit. -/
theorem inTime_succ (h : attempt.inTime n) :
    attempt.inTime (n + 1) ∧ (∀ phase, attempt.cutOff n phase = phase) ∨
      ∃ limit, attempt.limit = .within limit ∧ limit.ceilMillis = n := by
  cases limited : attempt.limit with
  | none => exact .inl ⟨by simp [inTime, limited], fun phase => by cases phase <;> simp [cutOff, limited]⟩
  | within limit =>
    have le := (inTime_within limited n).1 h
    by_cases up : limit.ceilMillis = n
    · exact .inr ⟨limit, rfl, up⟩
    · have early : ¬ limit.ceilMillis ≤ n := by omega
      refine .inl ⟨(inTime_within limited _).2 (by omega), fun phase => ?_⟩
      cases phase <;> simp [cutOff, limited, early]
  | panics payload => simp [inTime, limited] at h

theorem cutOff_hook {limit : Duration} (limited : attempt.limit = .within limit) (up : limit.ceilMillis = n) :
    attempt.cutOff n .hook = .closed limit.ceilMillis (.timedOut limit) := by
  simp [cutOff, limited, up]

theorem cutOff_body {limit : Duration} (limited : attempt.limit = .within limit) (up : limit.ceilMillis = n) (since : Nat) :
    attempt.cutOff n (.body since) = .closed limit.ceilMillis (.timedOut limit) := by
  simp [cutOff, limited, up]

/-! ## One millisecond -/

theorem bodyGoesOn_ends {since time : Nat} (takes : attempt.body.takes = some time) (now : since + time = n) :
    attempt.bodyGoesOn since n = ⟨.closed n attempt.body.outcome.ending, [(n, .bodyEnds)]⟩ := by
  simp [bodyGoesOn, takes, now]

theorem bodyGoesOn_pending {since : Nat} (pending : ∀ time, attempt.body.takes = some time → n < since + time) :
    attempt.bodyGoesOn since n = ⟨.body since, []⟩ := by
  unfold bodyGoesOn
  cases takes : attempt.body.takes with
  | none => rfl
  | some time => simp [Nat.not_le.2 (pending time takes)]

theorem hookGoesOn_pending (pending : ∀ time, attempt.hook.takes = some time → n < time) :
    attempt.hookGoesOn n = ⟨.hook, []⟩ := by
  unfold hookGoesOn
  cases takes : attempt.hook.takes with
  | none => rfl
  | some time => simp [Nat.not_le.2 (pending time takes)]

theorem hookGoesOn_done (took : attempt.hook.takes = some n) (done : attempt.hook.outcome = .done) :
    attempt.hookGoesOn n = ⟨(attempt.bodyGoesOn n n).phase,
      (n, .hookEnds) :: (n, .bodyBegins) :: (attempt.bodyGoesOn n n).sights⟩ := by
  simp [hookGoesOn, took, done]

theorem hookGoesOn_failed (took : attempt.hook.takes = some n) (failed : attempt.hook.outcome ≠ .done) :
    attempt.hookGoesOn n = ⟨.closed n attempt.hook.outcome.ending, [(n, .hookEnds)]⟩ := by
  unfold hookGoesOn
  rw [took]
  cases outcome : attempt.hook.outcome with
  | done => exact absurd outcome failed
  | error => simp
  | panic => simp

/-- A body that has not ended before goes on, ends, or is stopped. -/
theorem reaches_body {since : Nat} (took : attempt.hook.takes = some since) (done : attempt.hook.outcome = .done)
    (began : since ≤ n) (pending : ∀ time, attempt.body.takes = some time → n ≤ since + time) (inTime : attempt.inTime n) :
    attempt.Reaches (n + 1) ⟨attempt.cutOff n (attempt.bodyGoesOn since n).phase,
      [(0, .hookBegins), (since, .hookEnds), (since, .bodyBegins)] ++ (attempt.bodyGoesOn since n).sights⟩ := by
  by_cases ends : ∃ time, attempt.body.takes = some time ∧ since + time = n
  · obtain ⟨time, takes, now⟩ := ends
    rw [bodyGoesOn_ends takes now]
    subst now
    exact .bodyEnded took done takes (Nat.lt_succ_self _) inTime
  · have pending : ∀ time, attempt.body.takes = some time → n < since + time := fun time takes =>
      Nat.lt_of_le_of_ne (pending time takes) fun now => ends ⟨time, takes, now.symm⟩
    rw [bodyGoesOn_pending pending]
    rcases inTime_succ inTime with ⟨inTime', goesOn⟩ | ⟨limit, limited, up⟩
    · rw [goesOn]
      exact .body took done (by omega) pending inTime'
    · rw [cutOff_body limited up]
      exact .bodyStopped limited (by omega) took done (by omega) (up ▸ pending)

/-- A hook that has not ended before goes on, is stopped, fails, or is done, and then the body begins. -/
theorem reaches_hook (pending : ∀ time, attempt.hook.takes = some time → n ≤ time) (inTime : attempt.inTime n) :
    attempt.Reaches (n + 1) ⟨attempt.cutOff n (attempt.hookGoesOn n).phase,
      [(0, .hookBegins)] ++ (attempt.hookGoesOn n).sights⟩ := by
  by_cases took : attempt.hook.takes = some n
  · by_cases done : attempt.hook.outcome = .done
    · -- the body begins in the millisecond in which the hook is done, and may end in it
      rw [hookGoesOn_done took done]
      exact reaches_body took done le_rfl (fun time _ => Nat.le_add_right n time) inTime
    · rw [hookGoesOn_failed took done]
      exact .hookFailed took done (Nat.lt_succ_self _) inTime
  · have pending : ∀ time, attempt.hook.takes = some time → n < time := fun time takes =>
      Nat.lt_of_le_of_ne (pending time takes) fun now => took (now ▸ takes)
    rw [hookGoesOn_pending pending]
    rcases inTime_succ inTime with ⟨inTime', goesOn⟩ | ⟨limit, limited, up⟩
    · rw [goesOn]
      exact .hook pending inTime'
    · rw [cutOff_hook limited up]
      exact .hookStopped limited (by omega) (up ▸ pending)

theorem Reaches.lookAfter (h : attempt.Reaches n trial) : attempt.Reaches (n + 1) (attempt.lookAfter n trial) := by
  cases h with
  | hook pending inTime => exact reaches_hook pending inTime
  | body took done began pending inTime => exact reaches_body took done began.le pending inTime
  | unread panics => exact .unread panics
  | hookFailed took failed ended inTime => exact .hookFailed took failed (by omega) inTime
  | bodyEnded took done takes ended inTime => exact .bodyEnded took done takes (by omega) inTime
  | hookStopped limited up pending => exact .hookStopped limited (by omega) pending
  | bodyStopped limited up took done began pending => exact .bodyStopped limited (by omega) took done began pending

theorem begin_reaches (attempt : Attempt) : attempt.Reaches 0 attempt.begin := by
  unfold begin
  cases limited : attempt.limit with
  | none => exact .hook (fun time _ => Nat.zero_le time) (by simp [inTime, limited])
  | within limit => exact .hook (fun time _ => Nat.zero_le time) ((inTime_within limited 0).2 (Nat.zero_le _))
  | panics payload => exact .unread limited

/-- What an attempt comes to, however long it is looked after. -/
theorem after_reaches (attempt : Attempt) (n : Nat) : attempt.Reaches n (attempt.after n) := by
  induction n with
  | zero => exact attempt.begin_reaches
  | succ n ih => exact ih.lookAfter

/-! ## How it ends -/

/-- The end does not come before the hook has ended. -/
theorem Comes.not_before_hook {time bound : Nat} {outcome : Outcome} (comes : attempt.Comes time outcome)
    (pending : ∀ time, attempt.hook.takes = some time → bound ≤ time) : bound ≤ time := by
  cases comes with
  | hookFails took => exact pending _ took
  | bodyEnds took => exact Nat.le_add_right_of_le (pending _ took)

/-- With the hook done, the end does not come before the body has ended. -/
theorem Comes.not_before_body {time since bound : Nat} {outcome : Outcome} (comes : attempt.Comes time outcome)
    (took : attempt.hook.takes = some since) (done : attempt.hook.outcome = .done)
    (pending : ∀ time, attempt.body.takes = some time → bound ≤ since + time) : bound ≤ time := by
  cases comes with
  | hookFails _ failed => exact absurd done failed
  | bodyEnds took' _ takes =>
    cases took.symm.trans took'
    exact pending _ takes

theorem unlimited_of_comes {time : Nat} {outcome : Outcome} (comes : attempt.Comes time outcome) :
    attempt.unlimited = some (time, outcome.ending) := by
  cases comes with
  | hookFails took failed =>
    unfold unlimited
    rw [took]
    cases ended : attempt.hook.outcome with
    | done => exact absurd ended failed
    | error => rfl
    | panic => rfl
  | bodyEnds took done takes => simp [unlimited, took, done, takes]

theorem unlimited_of_endless (endless : ∀ time outcome, ¬ attempt.Comes time outcome) : attempt.unlimited = none := by
  unfold unlimited
  cases took : attempt.hook.takes with
  | none => rfl
  | some since =>
    cases ended : attempt.hook.outcome with
    | done =>
      cases takes : attempt.body.takes with
      | none => rfl
      | some time => exact absurd (.bodyEnds took ended takes) (endless _ _)
    | error => exact absurd (.hookFails took (by simp [ended])) (endless _ _)
    | panic => exact absurd (.hookFails took (by simp [ended])) (endless _ _)

theorem result_of_comes {time : Nat} {outcome : Outcome} (comes : attempt.Comes time outcome) (inTime : attempt.inTime time) :
    attempt.result = some (time, outcome.ending) := by
  unfold result
  cases limited : attempt.limit with
  | none => exact unlimited_of_comes comes
  | within limit =>
    have le := (inTime_within limited time).1 inTime
    simp [unlimited_of_comes comes, le]
  | panics payload => simp [Attempt.inTime, limited] at inTime

theorem result_of_late {limit : Duration} (limited : attempt.limit = .within limit)
    (late : ∀ time outcome, attempt.Comes time outcome → limit.ceilMillis < time) :
    attempt.result = some (limit.ceilMillis, .timedOut limit) := by
  by_cases comes : ∃ time outcome, attempt.Comes time outcome
  · obtain ⟨time, outcome, comes⟩ := comes
    simp [result, limited, unlimited_of_comes comes, Nat.not_le.2 (late time outcome comes)]
  · have endless : ∀ time outcome, ¬ attempt.Comes time outcome := fun time outcome h => comes ⟨time, outcome, h⟩
    simp [result, limited, unlimited_of_endless endless]

/-- An attempt that is over has ended as its result says. -/
theorem Reaches.result_eq (h : attempt.Reaches n trial) {time : Nat} {ending : Ending}
    (closed : trial.phase = .closed time ending) : attempt.result = some (time, ending) := by
  cases h with
  | hook => cases closed
  | body => cases closed
  | unread panics =>
    cases closed
    simp [result, panics]
  | hookFailed took failed ended inTime =>
    cases closed
    exact result_of_comes (.hookFails took failed) inTime
  | bodyEnded took done takes ended inTime =>
    cases closed
    exact result_of_comes (.bodyEnds took done takes) inTime
  | hookStopped limited up pending =>
    cases closed
    exact result_of_late limited fun time outcome comes => comes.not_before_hook pending
  | bodyStopped limited up took done began pending =>
    cases closed
    exact result_of_late limited fun time outcome comes => comes.not_before_body took done pending

/-- An attempt that goes on is in time, and has not come to its end. -/
theorem Reaches.goesOn (h : attempt.Reaches n trial) (stillOpen : ∀ time ending, trial.phase ≠ .closed time ending) :
    attempt.inTime n ∧ ∀ time outcome, attempt.Comes time outcome → n ≤ time := by
  cases h with
  | hook pending inTime => exact ⟨inTime, fun time outcome comes => comes.not_before_hook pending⟩
  | body took done began pending inTime => exact ⟨inTime, fun time outcome comes => comes.not_before_body took done pending⟩
  | unread => exact absurd rfl (stillOpen _ _)
  | hookFailed => exact absurd rfl (stillOpen _ _)
  | bodyEnded => exact absurd rfl (stillOpen _ _)
  | hookStopped => exact absurd rfl (stillOpen _ _)
  | bodyStopped => exact absurd rfl (stillOpen _ _)

/-- An attempt that goes on after a time has not ended at it. -/
theorem result_ne_of_goesOn {time : Nat} (inTime : attempt.inTime (time + 1))
    (pending : ∀ due outcome, attempt.Comes due outcome → time + 1 ≤ due) (ending : Ending) :
    attempt.result ≠ some (time, ending) := by
  intro ended
  by_cases comes : ∃ due outcome, attempt.Comes due outcome ∧ attempt.inTime due
  · obtain ⟨due, outcome, comes, due'⟩ := comes
    cases ended.symm.trans (result_of_comes comes due')
    exact Nat.not_succ_le_self _ (pending _ _ comes)
  · cases limited : attempt.limit with
    | none =>
      have endless : ∀ due outcome, ¬ attempt.Comes due outcome := fun due outcome h =>
        comes ⟨due, outcome, h, by simp [Attempt.inTime, limited]⟩
      simp [result, limited, unlimited_of_endless endless] at ended
    | within limit =>
      have late : ∀ due outcome, attempt.Comes due outcome → limit.ceilMillis < due := fun due outcome h =>
        Nat.not_le.1 fun le => comes ⟨due, outcome, h, (inTime_within limited due).2 le⟩
      cases ended.symm.trans (result_of_late limited late)
      exact Nat.not_succ_le_self _ ((inTime_within limited _).1 inTime)
    | panics payload => simp [Attempt.inTime, limited] at inTime

theorem endsAt_iff_result (attempt : Attempt) (time : Nat) (ending : Ending) :
    attempt.EndsAt time ending ↔ attempt.result = some (time, ending) := by
  have reaches := attempt.after_reaches (time + 1)
  constructor
  · exact reaches.result_eq
  · intro ended
    unfold EndsAt
    by_cases closed : ∃ time' ending', (attempt.after (time + 1)).phase = .closed time' ending'
    · obtain ⟨time', ending', closed⟩ := closed
      cases ended.symm.trans (reaches.result_eq closed)
      exact closed
    · obtain ⟨inTime, pending⟩ := reaches.goesOn fun time' ending' h => closed ⟨time', ending', h⟩
      exact absurd ended (result_ne_of_goesOn inTime pending ending)

/-! ## What is seen of it -/

theorem Reaches.shows (h : attempt.Reaches n trial) {time : Nat} {sight : Sight} (seen : (time, sight) ∈ trial.sights) :
    attempt.Shows time sight := by
  have start {time : Nat} (inTime : attempt.inTime time) : attempt.Shows 0 .hookBegins :=
    .hookBegins (inTime_of_le (Nat.zero_le _) inTime)
  cases h with
  | hook pending inTime =>
    simp only [List.mem_cons, List.not_mem_nil, or_false, Prod.mk.injEq] at seen
    obtain ⟨rfl, rfl⟩ := seen
    exact start inTime
  | body took done began pending inTime =>
    have since := inTime_of_le began.le inTime
    simp only [List.mem_cons, List.not_mem_nil, or_false, Prod.mk.injEq] at seen
    rcases seen with ⟨rfl, rfl⟩ | ⟨rfl, rfl⟩ | ⟨rfl, rfl⟩
    · exact start inTime
    · exact .hookEnds took since
    · exact .bodyBegins took done since
  | unread => cases seen
  | hookFailed took failed ended inTime =>
    simp only [List.mem_cons, List.not_mem_nil, or_false, Prod.mk.injEq] at seen
    rcases seen with ⟨rfl, rfl⟩ | ⟨rfl, rfl⟩
    · exact start inTime
    · exact .hookEnds took inTime
  | bodyEnded took done takes ended inTime =>
    have since := inTime_of_le (Nat.le_add_right _ _) inTime
    simp only [List.mem_cons, List.not_mem_nil, or_false, Prod.mk.injEq] at seen
    rcases seen with ⟨rfl, rfl⟩ | ⟨rfl, rfl⟩ | ⟨rfl, rfl⟩ | ⟨rfl, rfl⟩
    · exact start inTime
    · exact .hookEnds took since
    · exact .bodyBegins took done since
    · exact .bodyEnds took done takes inTime
  | hookStopped limited up pending =>
    simp only [List.mem_cons, List.not_mem_nil, or_false, Prod.mk.injEq] at seen
    obtain ⟨rfl, rfl⟩ := seen
    exact start ((inTime_within limited 0).2 (Nat.zero_le _))
  | bodyStopped limited up took done began pending =>
    have since := (inTime_within limited _).2 began
    simp only [List.mem_cons, List.not_mem_nil, or_false, Prod.mk.injEq] at seen
    rcases seen with ⟨rfl, rfl⟩ | ⟨rfl, rfl⟩ | ⟨rfl, rfl⟩
    · exact start since
    · exact .hookEnds took since
    · exact .bodyBegins took done since

theorem Reaches.seen (h : attempt.Reaches n trial) {time : Nat} {sight : Sight} (shows : attempt.Shows time sight)
    (past : time < n) : (time, sight) ∈ trial.sights := by
  cases shows with
  | hookBegins read =>
    cases h with
    | unread panics => simp [Attempt.inTime, panics] at read
    | _ => exact List.mem_cons_self
  | hookEnds took inTime =>
    cases h with
    | hook pending => exact absurd (pending _ took) (Nat.not_le.2 past)
    | unread panics => simp [Attempt.inTime, panics] at inTime
    | hookStopped limited up pending =>
      exact absurd ((inTime_within limited _).1 inTime) (Nat.not_le.2 (pending _ took))
    | body took' | hookFailed took' | bodyEnded took' | bodyStopped _ _ took' =>
      cases took.symm.trans took'
      simp
  | bodyBegins took done inTime =>
    cases h with
    | hook pending => exact absurd (pending _ took) (Nat.not_le.2 past)
    | unread panics => simp [Attempt.inTime, panics] at inTime
    | hookFailed _ failed => exact absurd done failed
    | hookStopped limited up pending =>
      exact absurd ((inTime_within limited _).1 inTime) (Nat.not_le.2 (pending _ took))
    | body took' | bodyEnded took' | bodyStopped _ _ took' =>
      cases took.symm.trans took'
      simp
  | bodyEnds took done takes inTime =>
    cases h with
    | hook pending => exact absurd (pending _ took) (by omega)
    | body took' _ _ pending =>
      cases took.symm.trans took'
      exact absurd (pending _ takes) (Nat.not_le.2 past)
    | unread panics => simp [Attempt.inTime, panics] at inTime
    | hookFailed _ failed => exact absurd done failed
    | bodyEnded took' _ takes' =>
      cases took.symm.trans took'
      cases takes.symm.trans takes'
      simp
    | hookStopped limited up pending =>
      have late := pending _ took
      have early := (inTime_within limited _).1 inTime
      omega
    | bodyStopped limited up took' _ _ pending =>
      cases took.symm.trans took'
      exact absurd ((inTime_within limited _).1 inTime) (Nat.not_le.2 (pending _ takes))

/-- What is seen of an attempt is what it shows. -/
theorem seen_iff (attempt : Attempt) (sight : Sight) : attempt.Seen sight ↔ ∃ time, attempt.Shows time sight := by
  constructor
  · rintro ⟨n, time, seen⟩
    exact ⟨time, (attempt.after_reaches n).shows seen⟩
  · rintro ⟨time, shows⟩
    exact ⟨time + 1, time, (attempt.after_reaches (time + 1)).seen shows (Nat.lt_succ_self time)⟩

theorem hookBegins_iff (attempt : Attempt) : attempt.hookBegins ↔ attempt.Seen .hookBegins := by
  rw [seen_iff]
  constructor
  · exact fun begins => ⟨0, .hookBegins begins⟩
  · rintro ⟨_, ⟨begins⟩⟩
    exact begins

theorem seen_bodyBegins_iff (attempt : Attempt) : attempt.Seen .bodyBegins ↔
    attempt.hook.outcome = .done ∧ ∃ time, attempt.hook.takes = some time ∧ attempt.inTime time := by
  rw [seen_iff]
  constructor
  · rintro ⟨time, shows⟩
    cases shows with
    | bodyBegins took done inTime => exact ⟨done, time, took, inTime⟩
  · rintro ⟨done, time, took, inTime⟩
    exact ⟨time, .bodyBegins took done inTime⟩

theorem bodyBegins_iff (attempt : Attempt) : attempt.bodyBegins ↔ attempt.Seen .bodyBegins := by
  rw [seen_bodyBegins_iff]
  simp only [bodyBegins, Bool.and_eq_true, decide_eq_true_eq, Option.any_eq_true]

theorem bodyEnds_iff (attempt : Attempt) : attempt.bodyEnds ↔ attempt.Seen .bodyEnds := by
  rw [bodyEnds, Bool.and_eq_true, bodyBegins_iff, seen_bodyBegins_iff, seen_iff]
  constructor
  · rintro ⟨⟨done, since, took, -⟩, inTime⟩
    rw [took] at inTime
    cases takes : attempt.body.takes with
    | none => simp [takes] at inTime
    | some time => exact ⟨since + time, .bodyEnds took done takes (by simpa [takes] using inTime)⟩
  · rintro ⟨_, shows⟩
    cases shows with
    | @bodyEnds since time took done takes inTime =>
      have began := inTime_of_le (Nat.le_add_right since time) inTime
      exact ⟨⟨done, since, took, began⟩, by simp [took, takes, inTime]⟩

/-! ## After it is over -/

/-- Once an attempt is over, nothing of it is seen any more. -/
theorem Reaches.sights_le (h : attempt.Reaches n trial) {time : Nat} {ending : Ending}
    (closed : trial.phase = .closed time ending) : ∀ seen ∈ trial.sights, seen.1 ≤ time := by
  cases h with
  | hook => cases closed
  | body => cases closed
  | _ => cases closed; simp <;> omega

/-- Once an attempt is over, nothing becomes of it any more. -/
theorem after_succ_of_closed {time : Nat} {ending : Ending} (closed : (attempt.after n).phase = .closed time ending) :
    attempt.after (n + 1) = attempt.after n := by
  rw [after, lookAfter, closed]

theorem after_closed {time : Nat} {ending : Ending} (closed : attempt.EndsAt time ending) (later : time < n) :
    attempt.after n = attempt.after (time + 1) := by
  induction n, later using Nat.le_induction with
  | base => rfl
  | succ n later ih => rw [after_succ_of_closed (by rw [ih]; exact closed), ih]

/-- A panic within an attempt: as its limit is read, in its hook, or in its body. -/
inductive Panics (attempt : Attempt) : Nat → Payload → Prop
  | limit {payload : Payload} (panics : attempt.limit = .panics payload) : Panics attempt 0 payload
  | part {time : Nat} {payload : Payload} (comes : attempt.Comes time (.panic payload)) (inTime : attempt.inTime time) :
    Panics attempt time payload

/-- What is to be expected of an attempt. -/
structure Fair (attempt : Attempt) : Prop where
  /-- Nothing is late without a limit, and whatever takes no longer than the limit is in time. -/
  unlimited : attempt.limit = .none → ∀ time, attempt.inTime time
  limited : ∀ millis, attempt.limit = .within (.ofMillis millis) → ∀ time, attempt.inTime time ↔ time ≤ millis
  /-- The body begins if the hook is done in time, and not otherwise. -/
  body : attempt.Seen .bodyBegins ↔
    attempt.hook.outcome = .done ∧ ∃ time, attempt.hook.takes = some time ∧ attempt.inTime time
  inTime : ∀ time outcome, attempt.Comes time outcome → attempt.inTime time → attempt.EndsAt time outcome.ending
  late : ∀ limit, attempt.limit = .within limit →
    (∀ time outcome, attempt.Comes time outcome → limit.ceilMillis < time) →
    attempt.EndsAt limit.ceilMillis (.timedOut limit)
  endless : attempt.limit = .none → (∀ time outcome, ¬ attempt.Comes time outcome) →
    ∀ time ending, ¬ attempt.EndsAt time ending
  panics : ∀ time payload, attempt.Panics time payload → ∃ message,
    attempt.EndsAt time (.failed .panic message) ∧ ∀ words, payload = .text words → message = words
  /-- Nothing is seen of it after its end, and nothing becomes of it. -/
  last : ∀ time ending, attempt.EndsAt time ending → ∀ n, time < n →
    attempt.after n = attempt.after (time + 1) ∧ ∀ seen ∈ (attempt.after n).sights, seen.1 ≤ time
  /-- It ends as its result says, and so much is seen of it. -/
  result : ∀ time ending, attempt.EndsAt time ending ↔ attempt.result = some (time, ending)
  seen : (attempt.hookBegins ↔ attempt.Seen .hookBegins) ∧ (attempt.bodyBegins ↔ attempt.Seen .bodyBegins) ∧
    (attempt.bodyEnds ↔ attempt.Seen .bodyEnds)

theorem fair (attempt : Attempt) : attempt.Fair where
  unlimited unlimited time := by simp [Attempt.inTime, unlimited]
  limited millis limited time := by rw [inTime_within limited, Duration.ceilMillis_ofMillis]
  body := attempt.seen_bodyBegins_iff
  inTime time outcome comes inTime := (attempt.endsAt_iff_result time _).2 (result_of_comes comes inTime)
  late limit limited late := (attempt.endsAt_iff_result _ _).2 (result_of_late limited late)
  endless unlimited endless time ending ends := by
    have ended := (attempt.endsAt_iff_result time ending).1 ends
    simp [Attempt.result, unlimited, unlimited_of_endless endless] at ended
  panics time payload panics := by
    refine ⟨payload.message, ?_, ?_⟩
    · rw [endsAt_iff_result]
      cases panics with
      | limit panics => simp [Attempt.result, panics, Outcome.ending]
      | part comes inTime => exact result_of_comes comes inTime
    · rintro words rfl
      rfl
  last time ending ends n later := by
    rw [after_closed ends later]
    exact ⟨rfl, (attempt.after_reaches _).sights_le ends⟩
  result := attempt.endsAt_iff_result
  seen := ⟨attempt.hookBegins_iff, attempt.bodyBegins_iff, attempt.bodyEnds_iff⟩

end Attempt

end Rota
