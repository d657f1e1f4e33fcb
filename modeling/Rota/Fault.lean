/-
Faults: what an operation runs into instead of answering. They are not refusals, which leave all as
it was and are part of an operation's contract.
-/
namespace Rota

/-- What stops an operation from answering at all. -/
inductive Fault
  | instantOverflow
  | spanOverflow
  /-- A random number was to be drawn from an empty range. -/
  | emptyRange
  /-- More slots were asked for than can be handed out. -/
  | tooManySlots
deriving DecidableEq, Repr

/-- The most slots that can be handed out. -/
def maxSlots : Nat := 2305843009213693951

def Fault.message : Fault → String
  | .instantOverflow => "`DateTime + TimeDelta` overflowed"
  | .spanOverflow => "`TimeDelta + TimeDelta` overflowed"
  | .emptyRange => "cannot sample empty range"
  | .tooManySlots => "a semaphore may not have more than MAX_PERMITS permits (" ++ Nat.repr maxSlots ++ ")"

end Rota
