/-
Lengths of time that are never negative: what a loop sleeps and what an attempt may take. They are
written in the largest of four units that leaves a whole part.
-/
import Rota.Time.Span

namespace Rota

structure Duration where
  nanos : Nat
deriving DecidableEq, Repr

namespace Duration

instance : LE Duration := ⟨fun a b => a.nanos ≤ b.nanos⟩
instance (a b : Duration) : Decidable (a ≤ b) := inferInstanceAs (Decidable (a.nanos ≤ b.nanos))
instance : Min Duration := minOfLe

def zero : Duration := ⟨0⟩

def ofMillis (millis : Nat) : Duration := ⟨millis * nanosPerMilli⟩

def ofSpan? (span : Span) : Option Duration :=
  if 0 ≤ span.nanos then some ⟨span.nanos.toNat⟩ else none

/-- The whole milliseconds that cover the duration: a part of a millisecond counts as one. -/
def ceilMillis (d : Duration) : Nat := (d.nanos + (nanosPerMilli - 1)) / nanosPerMilli

/-- The duration as text, in seconds, milliseconds, microseconds or nanoseconds. -/
def text (d : Duration) : String :=
  if nanosPerSecond ≤ d.nanos then
    Nat.repr (d.nanos / nanosPerSecond) ++ Text.trimmedFraction 9 (d.nanos % nanosPerSecond) ++ "s"
  else if nanosPerMilli ≤ d.nanos then
    Nat.repr (d.nanos / nanosPerMilli) ++ Text.trimmedFraction 6 (d.nanos % nanosPerMilli) ++ "ms"
  else if 1000 ≤ d.nanos then
    Nat.repr (d.nanos / 1000) ++ Text.trimmedFraction 3 (d.nanos % 1000) ++ "µs"
  else Nat.repr d.nanos ++ "ns"

end Duration

end Rota
