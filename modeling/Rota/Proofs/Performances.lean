/-
Performances that nobody outside takes part in. Woken in every millisecond, a performance stands where the attempt stands
that its scene makes, and what happens in it is what is seen of the attempt.
-/
import Rota.Proofs.Trial
import Rota.Stage.Performance

namespace Rota

namespace Performance

/-- The performance after it has been woken in each of the first so many milliseconds, with the stage and what has
happened in it by then. -/
def after (p : Performance) (start : Nat) (stage : Stage) : Nat → Stage × Progress × List Event
  | 0 => (stage, .waits p, [])
  | n + 1 =>
    match p.after start stage n with
    | (stage, .waits p, events) =>
      let (stage, progress, more) := p.wake (start + n) stage
      (stage, progress, events ++ more)
    | (stage, .ended ending, events) => (stage, .ended ending, events)

/-- The performance once it has begun, with the number of its attempt and the time that it may take. -/
def begun (p : Performance) (start number : Nat) (limit : Option Duration) : Performance :=
  { p with attempt := number, limit := limit.map fun limit => (limit, start + limit.ceilMillis) }

/-- What is written down when something is seen of the attempt. -/
def event? (p : Performance) (number : Nat) : Nat × Sight → Option Event
  | (_, .hookBegins) => if p.performer.kind.isBodyOnly then none else some (.hookCalled p.performer.key number)
  | (_, .hookEnds) => none
  | (_, .bodyBegins) => some (.bodyCalled p.performer.key number)
  | (_, .bodyEnds) => some (.bodyEnded p.performer.key number)

/-- The performance `p`, begun, stands after `n` milliseconds where an attempt of the scene does. -/
inductive Mirrors (p : Performance) (start : Nat) (scene : Scene) (n : Nat) : Progress → Phase → Prop
  | asleep (sleeps : n ≤ scene.sleep) :
    Mirrors p start scene n (.waits { p with waiting := .sleep (start + scene.sleep) scene.act }) (.body 0)
  | waits {waiting : Waiting} (idle : waiting = .gate ∨ waiting = .forever)
    (never : ∀ outcome, scene.act ≠ .ends outcome) : Mirrors p start scene n (.waits { p with waiting := waiting }) (.body 0)
  | ended {time : Nat} {ending : Ending} : Mirrors p start scene n (.ended ending) (.closed time ending)

theorem Mirrors.closed {p : Performance} {start n : Nat} {scene : Scene} {ending : Ending} {phase : Phase}
    (h : p.Mirrors start scene n (.ended ending) phase) : ∃ time, phase = .closed time ending := by
  cases h with
  | @ended time => exact ⟨time, rfl⟩

theorem Mirrors.progress {p : Performance} {start n time : Nat} {scene : Scene} {ending : Ending} {progress : Progress}
    (h : p.Mirrors start scene n progress (.closed time ending)) : progress = .ended ending := by
  cases h with
  | ended => rfl

section

variable (p : Performance) (start number : Nat) (limit : Option Duration) {n : Nat} {scene : Scene}

/-- A performance waits as long as its attempt is not stopped. -/
theorem wait_mirrors {waiting : Waiting}
    (stands : (p.begun start number limit).Mirrors start scene (n + 1)
      (.waits { p.begun start number limit with waiting := waiting }) (.body 0)) :
    (p.begun start number limit).Mirrors start scene (n + 1) ((p.begun start number limit).wait (start + n) waiting)
      ((scene.attempt p.performer limit).cutOff n (.body 0)) := by
  cases limit with
  | none => exact stands
  | some limit =>
    by_cases up : limit.ceilMillis ≤ n
    · have up' : start + limit.ceilMillis ≤ start + n := by omega
      simp only [wait, begun, Option.map_some, Attempt.cutOff, Scene.attempt, if_pos up, if_pos up']
      exact .ended
    · have up' : ¬ start + limit.ceilMillis ≤ start + n := by omega
      simp only [wait, begun, Option.map_some, Attempt.cutOff, Scene.attempt, if_neg up, if_neg up']
      exact stands

/-- A body that never ends waits and waits. -/
theorem wait_forever_mirrors {waiting : Waiting} (idle : waiting = .gate ∨ waiting = .forever)
    (never : ∀ outcome, scene.act ≠ .ends outcome) :
    let body := (scene.attempt p.performer limit).bodyGoesOn 0 n
    (p.begun start number limit).Mirrors start scene (n + 1) ((p.begun start number limit).wait (start + n) waiting)
        ((scene.attempt p.performer limit).cutOff n body.phase) ∧
      [] = body.sights.filterMap (p.event? number) := by
  have endless : (scene.attempt p.performer limit).body.takes = none := by
    cases act : scene.act with
    | ends outcome => exact absurd act (never outcome)
    | gate => simp [Scene.attempt, act]
    | hang => simp [Scene.attempt, act]
  rw [Attempt.bodyGoesOn_pending fun time takes => by cases endless.symm.trans takes]
  exact ⟨wait_mirrors p start number limit (.waits idle never), rfl⟩

/-- The body, awake, does what the body of its attempt does. -/
theorem act_mirrors (awake : n = scene.sleep) :
    let acted := (p.begun start number limit).act (start + n) scene.act
    let body := (scene.attempt p.performer limit).bodyGoesOn 0 n
    (p.begun start number limit).Mirrors start scene (n + 1) acted.1
        ((scene.attempt p.performer limit).cutOff n body.phase) ∧
      acted.2 = body.sights.filterMap (p.event? number) := by
  cases act : scene.act with
  | ends outcome =>
    have part : (scene.attempt p.performer limit).body = ⟨some scene.sleep, outcome⟩ := by simp [Scene.attempt, act]
    have ends : (scene.attempt p.performer limit).bodyGoesOn 0 n = ⟨.closed n outcome.ending, [(n, .bodyEnds)]⟩ := by
      rw [Attempt.bodyGoesOn_ends (by rw [part]) (by omega), part]
    rw [ends]
    exact ⟨.ended, rfl⟩
  | gate => exact wait_forever_mirrors p start number limit (.inl rfl) (by simp [act])
  | hang => exact wait_forever_mirrors p start number limit (.inr rfl) (by simp [act])

/-- The body sleeps as long as that of its attempt goes on. -/
theorem sleep_mirrors (asleep : n < scene.sleep) :
    let body := (scene.attempt p.performer limit).bodyGoesOn 0 n
    (p.begun start number limit).Mirrors start scene (n + 1)
        ((p.begun start number limit).wait (start + n) (.sleep (start + scene.sleep) scene.act))
        ((scene.attempt p.performer limit).cutOff n body.phase) ∧
      [] = body.sights.filterMap (p.event? number) := by
  have pending : ∀ time, (scene.attempt p.performer limit).body.takes = some time → n < 0 + time := by
    intro time takes
    cases act : scene.act with
    | ends outcome =>
      have slept : scene.sleep = time := by simpa [Scene.attempt, act] using takes
      omega
    | gate => simp [Scene.attempt, act] at takes
    | hang => simp [Scene.attempt, act] at takes
  rw [Attempt.bodyGoesOn_pending pending]
  exact ⟨wait_mirrors p start number limit (.asleep asleep), rfl⟩

/-- The hook of an attempt that a scene makes ends as soon as it begins. -/
theorem after_one (p : Performance) (scene : Scene) (limit : Option Duration) :
    let attempt := scene.attempt p.performer limit
    attempt.after 1 = ⟨attempt.cutOff 0 (attempt.hookGoesOn 0).phase, (0, .hookBegins) :: (attempt.hookGoesOn 0).sights⟩ := by
  cases limit <;> rfl

theorem hook_events (p : Performance) (number : Nat) (seen : List (Nat × Sight)) :
    (if p.performer.kind.isBodyOnly then [] else [Event.hookCalled p.performer.key number]) ++
        seen.filterMap (p.event? number) = ((0, .hookBegins) :: seen).filterMap (p.event? number) := by
  cases bodyOnly : p.performer.kind.isBodyOnly <;> simp [event?, bodyOnly]

/-- The performance begins as its attempt does. -/
theorem raise_mirrors (scene : Scene) :
    (p.begun start number limit).Mirrors start scene 1 ((p.begun start number limit).raise start scene).1
        ((scene.attempt p.performer limit).after 1).phase ∧
      ((p.begun start number limit).raise start scene).2 =
        ((scene.attempt p.performer limit).after 1).sights.filterMap (p.event? number) := by
  have hook : (scene.attempt p.performer limit).hook = ⟨some 0, if p.performer.kind.isBodyOnly then .done else scene.hook⟩ := rfl
  have raised : (p.begun start number limit).performer = p.performer := rfl
  rw [after_one, ← hook_events]
  unfold raise
  rw [raised]
  cases outcome : if p.performer.kind.isBodyOnly then Outcome.done else scene.hook with
  | done =>
    rw [outcome] at hook
    rw [Attempt.hookGoesOn_done (by rw [hook]) (by rw [hook])]
    by_cases awake : 0 = scene.sleep
    · obtain ⟨stands, events⟩ := act_mirrors p start number limit awake
      simp only [if_pos awake.symm]
      exact ⟨stands, congrArg _ (congrArg _ events)⟩
    · have asleep : scene.sleep ≠ 0 := fun h => awake h.symm
      obtain ⟨stands, events⟩ := sleep_mirrors p start number limit (Nat.pos_of_ne_zero asleep)
      simp only [if_neg asleep]
      exact ⟨stands, congrArg _ (congrArg _ events)⟩
  | error kind message =>
    rw [outcome] at hook
    rw [Attempt.hookGoesOn_failed (by rw [hook]) (by simp [hook]), hook]
    exact ⟨.ended, (List.append_nil _).symm⟩
  | panic payload =>
    rw [outcome] at hook
    rw [Attempt.hookGoesOn_failed (by rw [hook]) (by simp [hook]), hook]
    exact ⟨.ended, (List.append_nil _).symm⟩

/-- A performance that has begun is woken as its attempt is looked after. -/
theorem wake_mirrors (stage : Stage) {q : Performance} {trial : Trial}
    (stands : (p.begun start number limit).Mirrors start scene n (.waits q) trial.phase) :
    (q.wake (start + n) stage).1 = stage ∧
      (p.begun start number limit).Mirrors start scene (n + 1) (q.wake (start + n) stage).2.1
        ((scene.attempt p.performer limit).lookAfter n trial).phase ∧
      trial.sights.filterMap (p.event? number) ++ (q.wake (start + n) stage).2.2 =
        ((scene.attempt p.performer limit).lookAfter n trial).sights.filterMap (p.event? number) := by
  obtain ⟨phase, sights⟩ := trial
  cases stands with
  | asleep sleeps =>
    simp only [wake, Attempt.lookAfter, List.filterMap_append]
    refine ⟨trivial, ?_⟩
    by_cases awake : n = scene.sleep
    · obtain ⟨stands, events⟩ := act_mirrors p start number limit awake
      rw [if_pos (by omega)]
      exact ⟨stands, congrArg _ events⟩
    · obtain ⟨stands, events⟩ := sleep_mirrors p start number limit (Nat.lt_of_le_of_ne sleeps awake)
      rw [if_neg (by omega)]
      exact ⟨stands, congrArg _ events⟩
  | waits idle never =>
    obtain ⟨stands, events⟩ := wait_forever_mirrors p start number limit idle never
    simp only [Attempt.lookAfter, List.filterMap_append]
    rcases idle with rfl | rfl
    · exact ⟨rfl, stands, congrArg _ events⟩
    · exact ⟨rfl, stands, congrArg _ events⟩

end

/-- The attempt that a performance makes on a stage if nobody outside takes part in it. -/
def attemptOn (p : Performance) (stage : Stage) : Attempt :=
  (stage.nextScene p.performer.key).2.1.attempt p.performer (stage.limit p.performer)

/-- However long it is woken, a performance stands where its attempt does, and what has happened in it is what has been
seen of that. -/
theorem after_mirrors (p : Performance) (start : Nat) (stage : Stage) (curtain : p.waiting = .curtain) (n : Nat) :
    let number := (stage.nextScene p.performer.key).1
    (p.begun start number (stage.limit p.performer)).Mirrors start (stage.nextScene p.performer.key).2.1 (n + 1)
        (p.after start stage (n + 1)).2.1 ((p.attemptOn stage).after (n + 1)).phase ∧
      (p.after start stage (n + 1)).2.2 = ((p.attemptOn stage).after (n + 1)).sights.filterMap (p.event? number) := by
  intro number
  -- by the times that it has been woken: the first time it begins, and from then on it no longer asks the stage
  induction n with
  | zero =>
    have raised := raise_mirrors p start number (stage.limit p.performer) (stage.nextScene p.performer.key).2.1
    have woken : p.after start stage 1 = ((stage.nextScene p.performer.key).2.2,
        (p.begun start number (stage.limit p.performer)).raise start (stage.nextScene p.performer.key).2.1) := by
      simp only [after, wake, curtain]
      rfl
    rw [woken]
    exact raised
  | succ n ih =>
    obtain ⟨stands, events⟩ := ih
    rw [after]
    rcases came : p.after start stage (n + 1) with ⟨stage', progress, happened⟩
    rw [came] at stands events
    cases progress with
    | waits q =>
      obtain ⟨-, woken, more⟩ := wake_mirrors p start number (stage.limit p.performer) stage' stands
      refine ⟨woken, ?_⟩
      rw [show happened = _ from events]
      exact more
    | ended ending =>
      obtain ⟨time, closed⟩ := stands.closed
      rw [Attempt.after_succ_of_closed closed]
      exact ⟨by rw [closed]; exact .ended, events⟩

/-- A performance that nobody outside takes part in ends as the attempt does that it makes. -/
theorem ends_iff (p : Performance) (start : Nat) (stage : Stage) (curtain : p.waiting = .curtain) (ending : Ending) :
    (∃ n, (p.after start stage n).2.1 = .ended ending) ↔ ∃ time, (p.attemptOn stage).EndsAt time ending := by
  constructor
  · rintro ⟨_ | n, came⟩
    · cases came
    · obtain ⟨stands, -⟩ := p.after_mirrors start stage curtain n
      rw [came] at stands
      obtain ⟨time, closed⟩ := stands.closed
      have result := ((p.attemptOn stage).after_reaches (n + 1)).result_eq closed
      exact ⟨time, ((p.attemptOn stage).endsAt_iff_result time ending).2 result⟩
  · rintro ⟨time, ends⟩
    obtain ⟨stands, -⟩ := p.after_mirrors start stage curtain time
    rw [show ((p.attemptOn stage).after (time + 1)).phase = _ from ends] at stands
    exact ⟨time + 1, stands.progress⟩

end Performance

end Rota
