/-
From a request for settings to a scheduler that has started. A request is refused for the first thing that is wrong with
it, or granted as it stands; and a scheduler starts with what has been granted, all its slots free. There is one thing
that is not seen to be wrong: a number of slots that is more than can be handed out.
-/
import Rota.Scheduler

namespace Rota

/-- The place of a poller's rate in the order in which the rates are looked at. -/
def Poller.rank : Poller → Nat
  | queue => 0
  | schedule => 1
  | wait => 2

namespace SettingsRequest

/-- The rate that is asked for a poller, if any. -/
def rate? (asked : SettingsRequest) : Poller → Option Span
  | .queue => asked.queueRate
  | .schedule => asked.scheduleRate
  | .wait => asked.waitRate

/-- The number of slots that is asked for, by default if not by number. -/
def wanted (asked : SettingsRequest) : Nat := asked.slots.getD Settings.defaultSlots

/-- No rate that comes before that of a poller is negative. -/
def PollsBefore (asked : SettingsRequest) (poller : Poller) : Prop :=
  ∀ earlier rate, earlier.rank < poller.rank → asked.rate? earlier = some rate → 0 ≤ rate.nanos

/-- No rate is negative. -/
def Polls (asked : SettingsRequest) : Prop := ∀ poller rate, asked.rate? poller = some rate → 0 ≤ rate.nanos

/-- Why a request is refused: of the things that are wrong with it, the first. -/
inductive Objects (asked : SettingsRequest) : SettingsError → Prop
  | noSlots (nobody : asked.wanted = 0) : Objects asked .noSlots
  | negativeRate {poller : Poller} {rate : Span} (slots : asked.wanted ≠ 0) (first : asked.PollsBefore poller)
    (given : asked.rate? poller = some rate) (negative : rate.nanos < 0) : Objects asked (.negativeRate poller rate)

/-- The settings with everything that is asked for, and the defaults for all else. -/
def granted (asked : SettingsRequest) : Settings where
  slots := asked.wanted
  queueRate := asked.queueRate.elim Settings.defaultQueueRate fun rate => ⟨rate.nanos.toNat⟩
  scheduleRate := asked.scheduleRate.elim Settings.defaultScheduleRate fun rate => ⟨rate.nanos.toNat⟩
  waitRate := asked.waitRate.elim Settings.defaultWaitRate fun rate => ⟨rate.nanos.toNat⟩
  provider := asked.provider
  answers := asked.answers
  delay := asked.delay

variable {asked : SettingsRequest} {error : SettingsError}

/-! ## Refused or granted -/

theorem rate_of_nonneg {given : Option Span} (nonneg : ∀ rate, given = some rate → 0 ≤ rate.nanos) (poller : Poller)
    (default : Duration) :
    Settings.rate poller given default = .ok (given.elim default fun rate => ⟨rate.nanos.toNat⟩) := by
  cases given with
  | none => rfl
  | some rate => simp only [Settings.rate, Duration.ofSpan?, if_pos (nonneg rate rfl), Option.elim_some]

theorem rate_of_negative {rate : Span} (negative : rate.nanos < 0) (poller : Poller) (default : Duration) :
    Settings.rate poller (some rate) default = .error (.negativeRate poller rate) := by
  simp only [Settings.rate, Duration.ofSpan?, if_neg (Int.not_le.2 negative)]

theorem settings_of_nobody (nobody : asked.wanted = 0) : asked.settings = .error .noSlots := by
  unfold settings
  dsimp only
  rw [if_pos (show asked.slots.getD Settings.defaultSlots = 0 from nobody)]
  rfl

/-- With slots asked for, the rates are looked at one after the other. -/
theorem settings_of_slots (slots : asked.wanted ≠ 0) :
    asked.settings = do
      let queueRate ← Settings.rate .queue (asked.rate? .queue) Settings.defaultQueueRate
      let scheduleRate ← Settings.rate .schedule (asked.rate? .schedule) Settings.defaultScheduleRate
      let waitRate ← Settings.rate .wait (asked.rate? .wait) Settings.defaultWaitRate
      return ⟨asked.wanted, queueRate, scheduleRate, waitRate, asked.provider, asked.answers, asked.delay⟩ := by
  unfold settings
  dsimp only
  rw [if_neg (show asked.slots.getD Settings.defaultSlots ≠ 0 from slots)]
  rfl

theorem settings_of_objects (h : asked.Objects error) : asked.settings = .error error := by
  cases h with
  | noSlots nobody => exact settings_of_nobody nobody
  | @negativeRate poller rate slots first given negative =>
    rw [settings_of_slots slots]
    cases poller with
    | queue =>
      rw [given, rate_of_negative negative]
      rfl
    | schedule =>
      rw [rate_of_nonneg fun rate => first .queue rate (by decide), given, rate_of_negative negative]
      rfl
    | wait =>
      rw [rate_of_nonneg fun rate => first .queue rate (by decide), rate_of_nonneg fun rate => first .schedule rate (by decide),
        given, rate_of_negative negative]
      rfl

theorem settings_of_polls (slots : asked.wanted ≠ 0) (polls : asked.Polls) : asked.settings = .ok asked.granted := by
  rw [settings_of_slots slots, rate_of_nonneg (polls .queue), rate_of_nonneg (polls .schedule), rate_of_nonneg (polls .wait)]
  rfl

/-- If there is no first rate that is negative, there is none at all. -/
theorem polls_of_not_objects (slots : asked.wanted ≠ 0) (fine : ∀ error, ¬ asked.Objects error) : asked.Polls := by
  -- by the places of the rates, of which the one to be looked at is right as those before it are
  have right : ∀ most poller rate, poller.rank < most → asked.rate? poller = some rate → 0 ≤ rate.nanos := by
    intro most
    induction most with
    | zero => exact fun poller rate below => absurd below (Nat.not_lt_zero _)
    | succ most ih =>
      intro poller rate below given
      refine Int.not_lt.1 fun negative => fine _ (.negativeRate slots ?_ given negative)
      intro earlier rate' before given'
      exact ih earlier rate' (by omega) given'
  exact fun poller rate => right (poller.rank + 1) poller rate (Nat.lt_succ_self _)

theorem objects_or_polls (asked : SettingsRequest) : (∃ error, asked.Objects error) ∨ asked.wanted ≠ 0 ∧ asked.Polls := by
  by_cases refused : ∃ error, asked.Objects error
  · exact .inl refused
  · have fine : ∀ error, ¬ asked.Objects error := fun error objects => refused ⟨error, objects⟩
    have slots : asked.wanted ≠ 0 := fun nobody => fine _ (.noSlots nobody)
    exact .inr ⟨slots, polls_of_not_objects slots fine⟩

theorem settings_error_iff : asked.settings = .error error ↔ asked.Objects error := by
  refine ⟨fun refused => ?_, settings_of_objects⟩
  rcases asked.objects_or_polls with ⟨error', objects⟩ | ⟨slots, polls⟩
  · cases (settings_of_objects objects).symm.trans refused
    exact objects
  · cases (settings_of_polls slots polls).symm.trans refused

theorem settings_ok_iff {settings : Settings} :
    asked.settings = .ok settings ↔ (asked.wanted ≠ 0 ∧ asked.Polls) ∧ settings = asked.granted := by
  constructor
  · intro accepted
    rcases asked.objects_or_polls with ⟨error, objects⟩ | ⟨slots, polls⟩
    · cases (settings_of_objects objects).symm.trans accepted
    · cases (settings_of_polls slots polls).symm.trans accepted
      exact ⟨⟨slots, polls⟩, rfl⟩
  · rintro ⟨⟨slots, polls⟩, rfl⟩
    exact settings_of_polls slots polls

/-! ## Started or not -/

/-- More slots are asked for than can be handed out, and nothing else is wrong. -/
def Oversubscribes (asked : SettingsRequest) : Prop := maxSlots < asked.wanted ∧ asked.Polls

/-- What can be honoured: a number of slots that can be handed out, and no negative rate. -/
structure Feasible (asked : SettingsRequest) : Prop where
  some : asked.wanted ≠ 0
  most : asked.wanted ≤ maxSlots
  polls : asked.Polls

/-- Settings that are put together without an error start a scheduler with all the slots asked for, and a request that
cannot be honoured is refused. -/
structure Reliable (asked : SettingsRequest) : Prop where
  starts : ∀ settings, asked.settings = .ok settings → ∀ number,
    ∃ s, Scheduler.start number settings = .ok s ∧ s.settings = settings ∧ s.freeSlots = asked.wanted
  refuses : ¬ asked.Feasible → ∃ error, asked.settings = .error error

end SettingsRequest

namespace Scheduler

theorem start_of_le (number : Nat) (settings : Settings) (most : settings.slots ≤ maxSlots) :
    start number settings = .ok ⟨number, settings, .empty, settings.slots, false, .looking, .looking, .dispatch, []⟩ := by
  rw [start, if_neg (Nat.not_lt.2 most)]

theorem start_of_lt (number : Nat) (settings : Settings) (beyond : maxSlots < settings.slots) :
    start number settings = .error .tooManySlots := by
  rw [start, if_pos beyond]

end Scheduler

namespace SettingsRequest

theorem reliable_iff (asked : SettingsRequest) : asked.Reliable ↔ ¬ asked.Oversubscribes := by
  constructor
  · rintro reliable ⟨beyond, polls⟩
    have slots : asked.wanted ≠ 0 := by omega
    obtain ⟨s, started, -⟩ := reliable.starts _ (settings_of_polls slots polls) 0
    cases started.symm.trans (Scheduler.start_of_lt 0 asked.granted beyond)
  · intro fits
    constructor
    case starts =>
      intro settings accepted number
      obtain ⟨⟨-, polls⟩, rfl⟩ := settings_ok_iff.1 accepted
      have most : asked.wanted ≤ maxSlots := Nat.not_lt.1 fun beyond => fits ⟨beyond, polls⟩
      exact ⟨_, Scheduler.start_of_le number asked.granted most, rfl, rfl⟩
    case refuses =>
      intro infeasible
      rcases asked.objects_or_polls with ⟨error, objects⟩ | ⟨slots, polls⟩
      · exact ⟨error, settings_of_objects objects⟩
      · exact absurd ⟨slots, Nat.not_lt.1 fun beyond => fits ⟨beyond, polls⟩, polls⟩ infeasible

/-- Requests end in one of three ways. What is refused is refused for the first thing that is wrong with it; what is
not refused is granted as it stands; and what is granted starts a scheduler with all its slots free, unless they are
more than can be handed out, which is found out only then. -/
theorem starts_as_granted (asked : SettingsRequest) :
    (∀ error, asked.settings = .error error ↔ asked.Objects error) ∧
      (∀ settings, asked.settings = .ok settings ↔ (asked.wanted ≠ 0 ∧ asked.Polls) ∧ settings = asked.granted) ∧
      (asked.Reliable ↔ ¬ asked.Oversubscribes) ∧
      (asked.Oversubscribes → asked.settings = .ok asked.granted ∧
        ∀ number, Scheduler.start number asked.granted = .error .tooManySlots) := by
  refine ⟨fun _ => settings_error_iff, fun _ => settings_ok_iff, asked.reliable_iff, ?_⟩
  rintro ⟨beyond, polls⟩
  have slots : asked.wanted ≠ 0 := by omega
  exact ⟨settings_of_polls slots polls, fun number => Scheduler.start_of_lt number asked.granted beyond⟩

/-- One slot more than can be handed out is a number of 64 bits, is granted, and starts no scheduler. -/
theorem oversubscribed_not_reliable :
    let asked : SettingsRequest := { slots := some (maxSlots + 1) }
    maxSlots + 1 < UInt64.size ∧ asked.settings = .ok asked.granted ∧ asked.granted.slots = maxSlots + 1 ∧
      Scheduler.start 0 asked.granted = .error .tooManySlots ∧ ¬ asked.Reliable := by
  intro asked
  have polls : asked.Polls := by
    rintro poller rate given
    cases poller <;> cases given
  have beyond : maxSlots < asked.wanted := Nat.lt_succ_self maxSlots
  refine ⟨by decide, settings_of_polls (Nat.succ_ne_zero maxSlots) polls, rfl,
    Scheduler.start_of_lt 0 asked.granted beyond, ?_⟩
  rw [reliable_iff]
  exact not_not_intro ⟨beyond, polls⟩

end SettingsRequest

end Rota
