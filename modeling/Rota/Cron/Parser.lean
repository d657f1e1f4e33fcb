/-
The text of a cron schedule: six or seven fields, or one of five shorthands. Numbers and names may
have blanks around them, a star may not. `Cron.parse?` reads a whole schedule.
-/
import Rota.Cron.Field

namespace Rota

/-- A cron schedule: for each field the numbers it admits, in order. -/
structure Cron where
  seconds : List Nat
  minutes : List Nat
  hours : List Nat
  daysOfMonth : List Nat
  months : List Nat
  daysOfWeek : List Nat
  years : List Nat
deriving DecidableEq, Repr

namespace Cron

/-! ## Words -/

/-- Reads a value off the front of a text and returns what follows it. -/
abbrev Reader (α : Type) := List Char → Option (α × List Char)

def isBlank (c : Char) : Bool := c = ' ' || c = '\t' || c = '\n' || c = '\r'

def skipBlanks (text : List Char) : List Char := text.dropWhile isBlank

/-- The number that a list of decimal digits writes. -/
def digitsValue (digits : List Char) : Nat :=
  digits.foldl (fun n c => n * 10 + (c.toNat - '0'.toNat)) 0

def number : Reader Nat := fun text =>
  let text := skipBlanks text
  let digits := text.takeWhile Char.isDigit
  if digits.isEmpty then none
  else if digitsValue digits < UInt32.size then
    some (digitsValue digits, skipBlanks (text.dropWhile Char.isDigit))
  else none

def word : Reader String := fun text =>
  let text := skipBlanks text
  let letters := text.takeWhile Char.isAlpha
  if letters.isEmpty then none
  else some (String.ofList letters, skipBlanks (text.dropWhile Char.isAlpha))

def char (c : Char) : Reader Unit
  | [] => none
  | d :: rest => if d = c then some ((), rest) else none

/-! ## Fields -/

def range : Reader Source := fun text => do
  let (first, text) ← number text
  let ((), text) ← char '-' text
  let (last, text) ← number text
  return (.range first last, text)

def namedRange : Reader Source := fun text => do
  let (first, text) ← word text
  let ((), text) ← char '-' text
  let (last, text) ← word text
  return (.namedRange first last, text)

/-- A source of numbers. Where `query` is set a question mark stands for all, as a star does. -/
def source (query : Bool) : Reader Source := fun text =>
  ((if query then char '?' text else none).map fun ((), rest) => (.all, rest))
    <|> ((char '*' text).map fun ((), rest) => (.all, rest))
    <|> range text
    <|> ((number text).map fun (n, rest) => (.point n, rest))
    <|> namedRange text

def stepped (query : Bool) : Reader Term := fun text => do
  let (source, text) ← source query text
  let ((), text) ← char '/' text
  let (step, text) ← number text
  return (.every source step, text)

def term (query : Bool) : Reader Term := fun text =>
  stepped query text
    <|> ((source query text).map fun (s, rest) => (.plain s, rest))
    <|> ((word text).map fun (w, rest) => (.named w, rest))

/-- The terms after the first, each behind a comma; at most `limit` of them. A comma that no term
follows is left where it is. -/
def moreTerms (query : Bool) : Nat → List Char → List Term × List Char
  | 0, text => ([], text)
  | limit + 1, text =>
    match char ',' text >>= fun ((), rest) => term query rest with
    | none => ([], text)
    | some (t, rest) =>
      let (ts, rest) := moreTerms query limit rest
      (t :: ts, rest)

/-- A field's terms, with the blanks around them. -/
def terms (query : Bool) : Reader (List Term) := fun text => do
  let (first, text) ← term query (skipBlanks text)
  let (others, text) := moreTerms query text.length text
  return (first :: others, skipBlanks text)

def numbers (f : Field) (query : Bool) : Reader (List Nat) := fun text => do
  let (ts, text) ← terms query text
  return (← f.numbers? ts, text)

/-! ## Schedules -/

/-- The words that stand for a whole schedule. -/
def shorthands : List (String × Cron) :=
  let hours := Field.hour.all
  let days := Field.dayOfMonth.all
  let months := Field.month.all
  let weekdays := Field.dayOfWeek.all
  let years := Field.year.all
  [("@yearly", ⟨[0], [0], [0], [1], [1], weekdays, years⟩),
    ("@monthly", ⟨[0], [0], [0], [1], months, weekdays, years⟩),
    ("@weekly", ⟨[0], [0], [0], days, months, [1], years⟩),
    ("@daily", ⟨[0], [0], [0], days, months, weekdays, years⟩),
    ("@hourly", ⟨[0], [0], hours, days, months, weekdays, years⟩)]

/-- A schedule that a text begins with the shorthand of; what follows it is not looked at. -/
def shorthand? (text : List Char) : Option Cron :=
  (shorthands.find? fun s => s.1.toList.isPrefixOf (skipBlanks text)).map (·.2)

/-- A schedule written out: six fields, a seventh for the year if there is one, and nothing else. -/
def fields? (text : List Char) : Option Cron := do
  let (seconds, text) ← numbers .second false text
  let (minutes, text) ← numbers .minute false text
  let (hours, text) ← numbers .hour false text
  let (daysOfMonth, text) ← numbers .dayOfMonth true text
  let (months, text) ← numbers .month false text
  let (daysOfWeek, text) ← numbers .dayOfWeek true text
  let (years, text) := (numbers .year false text).getD (Field.year.all, text)
  if text.isEmpty then some ⟨seconds, minutes, hours, daysOfMonth, months, daysOfWeek, years⟩ else none

def parse? (text : String) : Option Cron := shorthand? text.toList <|> fields? text.toList

end Cron

end Rota
