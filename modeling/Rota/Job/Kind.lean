/-
Kinds of job and the instances that perform them. An instance is supplied with its job, or built for
one execution by a provider or by its kind's default constructor.
-/
import Rota.Job.Id
import Rota.Job.Priority

namespace Rota

/-- A kind of job: its name tells it from all others. -/
structure Kind where
  name : String
  /-- The priority of a job that asks for none. -/
  priority : Priority
  /-- Whether an instance can be built without a provider. -/
  hasDefault : Bool
deriving DecidableEq, Repr

/-- The kind as one that only a provider can build. -/
def Kind.provided (kind : Kind) : Kind := { kind with hasDefault := false }

/-- Whether two kinds are the same, however they are to be built. -/
def Kind.same (a b : Kind) : Bool := a.name == b.name

/-- What is said of a kind that no instance can be built of. -/
def Kind.noMakerMessage (kind : Kind) : String :=
  "No dependency provider or default constructor available for job type " ++ kind.name

inductive Maker
  | default
  /-- A provider, under the name it goes by. -/
  | provider (tag : String)
deriving DecidableEq, Repr

def Maker.text : Maker → String
  | default => "default"
  | provider tag => tag

inductive Origin
  | supplied
  | built (task : TaskId) (maker : Maker)
deriving DecidableEq, Repr

structure Instance where
  kind : Kind
  /-- The name its script is kept under. -/
  key : String
  origin : Origin
deriving DecidableEq, Repr

end Rota
