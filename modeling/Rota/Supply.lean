/-
Where instances come from when a job is given by its kind alone: first a provider, if there is one
and it knows the kind, then the kind's default constructor.
-/
import Rota.Job.Kind

namespace Rota

/-- A provider as it answers at one time. -/
structure Provider where
  canProvide : Kind → Bool
  provide : Kind → Option String

/-- Makers by kind, at most one for each. -/
structure Registry where
  makers : List (String × String)
deriving DecidableEq, Repr

namespace Registry

def empty : Registry := ⟨[]⟩

/-- Registers a maker for a kind in place of any earlier one. -/
def register (registry : Registry) (kind : Kind) (tag : String) : Registry :=
  ⟨(kind.name, tag) :: registry.makers.filter fun m => m.1 != kind.name⟩

def maker? (registry : Registry) (kind : Kind) : Option String := registry.makers.lookup kind.name

def provider (registry : Registry) : Provider where
  canProvide kind := (registry.maker? kind).isSome
  provide := registry.maker?

end Registry

structure Supply where
  provider : Option Provider

namespace Supply

/-- Whether an instance of the kind could be built at all. -/
def canBuild (supply : Supply) (kind : Kind) : Bool :=
  kind.hasDefault || supply.provider.any (·.canProvide kind)

def maker? (supply : Supply) (kind : Kind) : Option Maker :=
  match supply.provider.bind (·.provide kind) with
  | some tag => some (.provider tag)
  | none => if kind.hasDefault then some .default else none

end Supply

end Rota
