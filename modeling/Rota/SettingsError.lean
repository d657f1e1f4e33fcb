/-
What can be wrong with a scheduler's settings.
-/
import Rota.Time.Span

namespace Rota

/-- The loops and waits that have a polling rate of their own. -/
inductive Poller
  | queue
  | schedule
  | wait
deriving DecidableEq, Repr

def Poller.text : Poller → String
  | queue => "queue"
  | schedule => "schedule"
  | wait => "wait"

inductive SettingsError
  | noSlots
  | negativeRate (poller : Poller) (rate : Span)
  | badRetryLimit (value : Int)
deriving DecidableEq

def SettingsError.message : SettingsError → String
  | noSlots => "The maximum number of concurrent jobs must be at least 1"
  | negativeRate poller rate =>
    "The " ++ poller.text ++ " polling rate must not be negative, got " ++ rate.text
  | badRetryLimit value =>
    "Invalid maximum retry count " ++ toString value ++ ": expected -1 for unlimited or a non negative count"

end Rota
