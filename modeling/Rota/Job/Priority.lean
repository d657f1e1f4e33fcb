/-
The three priorities by which due jobs compete for a slot, from low to high.
-/
namespace Rota

inductive Priority
  | low
  | medium
  | high
deriving DecidableEq, Repr

namespace Priority

def rank : Priority → Nat
  | low => 0
  | medium => 1
  | high => 2

instance : LE Priority := ⟨fun a b => a.rank ≤ b.rank⟩
instance : LT Priority := ⟨fun a b => a.rank < b.rank⟩
instance (a b : Priority) : Decidable (a ≤ b) := inferInstanceAs (Decidable (a.rank ≤ b.rank))
instance (a b : Priority) : Decidable (a < b) := inferInstanceAs (Decidable (a.rank < b.rank))
instance : Max Priority := maxOfLe
instance : Inhabited Priority := ⟨medium⟩

def highest : Priority := high

def greatest? (priorities : List Priority) : Option Priority := priorities.max?

def ascending (priorities : List Priority) : List Priority :=
  priorities.mergeSort fun a b => decide (a ≤ b)

def text : Priority → String
  | low => "Low"
  | medium => "Medium"
  | high => "High"

def all : List Priority := [low, medium, high]

end Priority

end Rota
