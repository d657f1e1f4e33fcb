/-
The kinds of job that scripts can be written for.
-/
import Rota.Job.Kind

namespace Rota

namespace Cast

def alpha : Kind := ⟨"Alpha", .medium, true⟩

def low : Kind := ⟨"Low", .low, true⟩

def high : Kind := ⟨"High", .high, true⟩

def bare : Kind := ⟨"Bare", .medium, true⟩

def provided : Kind := ⟨"Provided", .high, false⟩

def custom : Kind := ⟨"Custom", .medium, false⟩

/-- The kind of a job that is a function. -/
def function : Kind := ⟨"FnJob", .medium, false⟩

def all : List Kind := [alpha, low, high, bare, provided, custom]

def named? (name : String) : Option Kind := all.find? (·.name = name)

end Cast

/-- Whether instances of a kind have nothing but a body: no hook is called, and there is no limit. -/
def Kind.isBodyOnly (kind : Kind) : Bool := kind.same Cast.bare || kind.same Cast.function

end Rota
