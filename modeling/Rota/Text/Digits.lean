/-
Numbers as text: a natural number at a fixed width, and the two ways a fraction of a second is
written, in groups of three digits or without its trailing zeros.
-/
namespace Rota.Text

/-- The number `n` in decimal, with zeros in front up to `width` places. -/
def padded (width n : Nat) : String :=
  let digits := Nat.repr n
  String.ofList (List.replicate (width - digits.length) '0') ++ digits

/-- Drops the trailing zeros of a fraction of `places` digits: the places left and their digits. -/
def trimZeros : Nat → Nat → Nat × Nat
  | 0, n => (0, n)
  | places + 1, n => if n % 10 = 0 then trimZeros places (n / 10) else (places + 1, n)

/-- A fraction of `places` digits after a point, without trailing zeros; nothing for zero. -/
def trimmedFraction (places n : Nat) : String :=
  match trimZeros places n with
  | (0, _) => ""
  | (left, digits) => "." ++ padded left digits

/-- The nanoseconds of a second after a point, as the fewest of three, six or nine digits that
hold them; nothing for zero. -/
def groupedFraction (nanos : Nat) : String :=
  if nanos = 0 then ""
  else if nanos % 1000000 = 0 then "." ++ padded 3 (nanos / 1000000)
  else if nanos % 1000 = 0 then "." ++ padded 6 (nanos / 1000)
  else "." ++ padded 9 nanos

end Rota.Text
