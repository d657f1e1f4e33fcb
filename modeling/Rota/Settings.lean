/-
A scheduler's settings, checked when they are put together.
-/
import Rota.Delay.Policy
import Rota.Supply

namespace Rota

structure Settings where
  slots : Nat
  queueRate : Duration
  scheduleRate : Duration
  waitRate : Duration
  provider : Option Provider
  /-- How the provider answers by an execution: it need not give then what it gave before. -/
  answers : TaskId → Provider → Provider
  delay : Option DelayStrategy

/-- Settings as they are asked for, with nothing where the default is to stand. -/
structure SettingsRequest where
  slots : Option Nat := none
  queueRate : Option Span := none
  scheduleRate : Option Span := none
  waitRate : Option Span := none
  provider : Option Provider := none
  answers : TaskId → Provider → Provider := fun _ provider => provider
  delay : Option DelayStrategy := none

namespace Settings

def defaultSlots : Nat := 5

def defaultQueueRate : Duration := .ofMillis 100

def defaultScheduleRate : Duration := .ofMillis 100

def defaultWaitRate : Duration := .ofMillis 50

def default : Settings where
  slots := defaultSlots
  queueRate := defaultQueueRate
  scheduleRate := defaultScheduleRate
  waitRate := defaultWaitRate
  provider := none
  answers _ provider := provider
  delay := none

/-- What there is to build instances with by an execution. -/
def supply (settings : Settings) (task : TaskId) : Supply := ⟨settings.provider.map (settings.answers task)⟩

/-- A polling rate, if it is not negative. -/
def rate (poller : Poller) (asked : Option Span) (default : Duration) : Except SettingsError Duration :=
  match asked with
  | none => .ok default
  | some span =>
    match Duration.ofSpan? span with
    | some rate => .ok rate
    | none => .error (.negativeRate poller span)

def yesNo (b : Bool) : String := if b then "true" else "false"

def text (settings : Settings) : String :=
  "SchedulerConfig \x7b max_concurrent_jobs: " ++ Nat.repr settings.slots ++ ", queue_polling_rate: " ++
    settings.queueRate.text ++ ", schedule_polling_rate: " ++ settings.scheduleRate.text ++
    ", wait_polling_rate: " ++ settings.waitRate.text ++ ", dependency_provider: " ++
    yesNo settings.provider.isSome ++ ", retry_backoff: " ++ yesNo settings.delay.isSome ++ " \x7d"

end Settings

/-- The settings asked for, if nothing is wrong with them; the first fault found is reported. -/
def SettingsRequest.settings (asked : SettingsRequest) : Except SettingsError Settings := do
  let slots := asked.slots.getD Settings.defaultSlots
  if slots = 0 then throw .noSlots
  let queueRate ← Settings.rate .queue asked.queueRate Settings.defaultQueueRate
  let scheduleRate ← Settings.rate .schedule asked.scheduleRate Settings.defaultScheduleRate
  let waitRate ← Settings.rate .wait asked.waitRate Settings.defaultWaitRate
  return ⟨slots, queueRate, scheduleRate, waitRate, asked.provider, asked.answers, asked.delay⟩

end Rota
