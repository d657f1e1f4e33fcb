/-
How often a failed job is tried again. A limit is also written as a signed number, -1 for none.
-/
import Rota.SettingsError

namespace Rota

inductive RetryLimit
  | unlimited
  | limited (retries : UInt32)
deriving DecidableEq, Repr

namespace RetryLimit

instance : Inhabited RetryLimit := ⟨limited 0⟩

/-- Whether a job retried so often already may be retried once more. -/
def allows : RetryLimit → Nat → Bool
  | unlimited, _ => true
  | limited most, retries => retries < most.toNat

def ofSigned (value : Int) : Except SettingsError RetryLimit :=
  if value = -1 then .ok unlimited
  else if 0 ≤ value ∧ value < UInt32.size then .ok (limited (.ofNat value.toNat))
  else .error (.badRetryLimit value)

def text : RetryLimit → String
  | unlimited => "Unlimited"
  | limited most => "Limited(" ++ Nat.repr most.toNat ++ ")"

end RetryLimit

end Rota
