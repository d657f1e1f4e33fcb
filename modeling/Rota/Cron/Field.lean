/-
The fields of a cron schedule. A term of a field names the numbers it stands for (all of them, one,
a range, or every so many of these), and a field admits the numbers that one of its terms names.
-/
namespace Rota.Cron

/-- What numbers a field ranges over, and the names some of them have. -/
structure Field where
  least : Nat
  greatest : Nat
  names : List (String × Nat)

namespace Field

def second : Field := ⟨0, 59, []⟩

def minute : Field := ⟨0, 59, []⟩

def hour : Field := ⟨0, 23, []⟩

def dayOfMonth : Field := ⟨1, 31, []⟩

def month : Field := ⟨1, 12,
  [("jan", 1), ("january", 1), ("feb", 2), ("february", 2), ("mar", 3), ("march", 3), ("apr", 4), ("april", 4),
    ("may", 5), ("jun", 6), ("june", 6), ("jul", 7), ("july", 7), ("aug", 8), ("august", 8), ("sep", 9),
    ("september", 9), ("oct", 10), ("october", 10), ("nov", 11), ("november", 11), ("dec", 12), ("december", 12)]⟩

def dayOfWeek : Field := ⟨1, 7,
  [("sun", 1), ("sunday", 1), ("mon", 2), ("monday", 2), ("tue", 3), ("tues", 3), ("tuesday", 3), ("wed", 4),
    ("wednesday", 4), ("thu", 5), ("thurs", 5), ("thursday", 5), ("fri", 6), ("friday", 6), ("sat", 7),
    ("saturday", 7)]⟩

def year : Field := ⟨1970, 2100, []⟩

def all (f : Field) : List Nat := List.range' f.least (f.greatest + 1 - f.least)

def admits (f : Field) (n : Nat) : Bool := f.least ≤ n && n ≤ f.greatest

/-- The number that a name stands for, whatever its case. -/
def named? (f : Field) (name : String) : Option Nat := f.names.lookup name.toLower

end Field

/-- Where a term takes its numbers from. -/
inductive Source
  | all
  | point (n : Nat)
  | range (first last : Nat)
  | namedRange (first last : String)
deriving DecidableEq, Repr

inductive Term
  | plain (source : Source)
  | every (source : Source) (step : Nat)
  | named (name : String)
deriving DecidableEq, Repr

/-- Every number from `first` to `last`, if both are the field's and in order. -/
def between? (f : Field) (first last : Nat) : Option (List Nat) :=
  if f.admits first && f.admits last && first ≤ last then some (List.range' first (last + 1 - first))
  else none

/-- The numbers of a source, which need not be the field's when it is a point. -/
def Source.numbers? (f : Field) : Source → Option (List Nat)
  | .all => some f.all
  | .point n => some [n]
  | .range first last => between? f first last
  | .namedRange first last => do between? f (← f.named? first) (← f.named? last)

/-- The first of a list and every `step`th after it. -/
def everyNth (step : Nat) (ns : List Nat) : List Nat :=
  (ns.zipIdx.filter fun p => p.2 % step = 0).map (·.1)

/-- The numbers of a term. A step counts on from a point up to the field's greatest number. -/
def Term.numbers? (f : Field) : Term → Option (List Nat)
  | .plain source => source.numbers? f
  | .every _ 0 => none
  | .every (.point n) step => (between? f n f.greatest).map (everyNth step)
  | .every source step => (source.numbers? f).map (everyNth step)
  | .named name => (f.named? name).map fun n => [n]

/-- The numbers of a field's terms in order, refused if one term is at fault or a number is not the
field's. -/
def Field.numbers? (f : Field) (terms : List Term) : Option (List Nat) := do
  let named := (← terms.mapM (Term.numbers? f)).flatten
  if named.all f.admits then some (f.all.filter (named.contains ·)) else none

end Rota.Cron
