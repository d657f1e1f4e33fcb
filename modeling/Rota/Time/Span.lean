/-
Signed lengths of time, exact to the nanosecond. A span that is given, and every sum, has no more
milliseconds than a signed 64-bit word holds; a product may have a thousand times as many. What
leaves these ranges is refused.
-/
import Rota.Text.Digits

namespace Rota

def nanosPerMilli : Nat := 1000000

def nanosPerSecond : Nat := 1000000000

structure Span where
  nanos : Int
  bounded : -9223372036854775807000000000 ≤ nanos ∧ nanos < 9223372036854775807000000000
deriving DecidableEq

namespace Span

instance : LE Span := ⟨fun a b => a.nanos ≤ b.nanos⟩
instance : LT Span := ⟨fun a b => a.nanos < b.nanos⟩
instance (a b : Span) : Decidable (a ≤ b) := inferInstanceAs (Decidable (a.nanos ≤ b.nanos))
instance (a b : Span) : Decidable (a < b) := inferInstanceAs (Decidable (a.nanos < b.nanos))
instance : Max Span := maxOfLe
instance : Min Span := minOfLe

/-- The span of so many nanoseconds, if it is in the range of spans that are given. -/
def ofNanos? (nanos : Int) : Option Span :=
  if h : -9223372036854775807000000 ≤ nanos ∧ nanos ≤ 9223372036854775807000000 then
    some ⟨nanos, by omega⟩
  else none

def zero : Span := ⟨0, by decide⟩

def longest : Span := ⟨9223372036854775807000000, by decide⟩

def lowest : Span := ⟨-9223372036854775807000000, by decide⟩

def second : Span := ⟨1000000000, by decide⟩

instance : Inhabited Span := ⟨zero⟩

/-- The sum, refused outside the range of spans that are given. -/
def add? (a b : Span) : Option Span := ofNanos? (a.nanos + b.nanos)

/-- The product with an integer, refused only where its seconds leave a signed 64-bit word. -/
def scale? (a : Span) (factor : Int) : Option Span :=
  let nanos := a.nanos * factor
  if h : -9223372036854775807000000000 ≤ nanos ∧ nanos < 9223372036854775807000000000 then some ⟨nanos, h⟩
  else none

/-- The whole milliseconds of the span; what is left over is dropped. -/
def millis (a : Span) : Int := a.nanos.tdiv nanosPerMilli

/-- The span as text: `P0D`, or `PT` and its seconds with the fraction they need. -/
def text (a : Span) : String :=
  if a.nanos = 0 then "P0D"
  else
    let size := a.nanos.natAbs
    (if a.nanos < 0 then "-PT" else "PT") ++ Nat.repr (size / nanosPerSecond) ++
      Text.trimmedFraction 9 (size % nanosPerSecond) ++ "S"

end Span

end Rota
