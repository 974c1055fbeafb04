import DelegatedVoting.Text.Decimal

/-!
# Logs

Every line of a log has a level. A filter keeps the lines up to some level, which is given by its
name or by its number.

* `Level`, `Line`;
* `bound?`: the number of the level up to which lines are kept.
-/

namespace DelegatedVoting.Log

/-- How important a line is. -/
inductive Level
  | error
  | warn
  | info
  | debug
  | trace
  deriving DecidableEq, Repr

namespace Level

/-- The name of a level. -/
def name : Level → String
  | .error => "ERROR"
  | .warn => "WARN"
  | .info => "INFO"
  | .debug => "DEBUG"
  | .trace => "TRACE"

/-- The number of a level. Less important levels have larger numbers. -/
def number : Level → Nat
  | .error => 1
  | .warn => 2
  | .info => 3
  | .debug => 4
  | .trace => 5

end Level

/-- A line of a log. -/
structure Line where
  level : Level
  message : String
  deriving DecidableEq, Repr

/-- The number of the level up to which lines are kept. At zero none is. -/
def bound? (text : List Char) : Option Nat :=
  match Text.Decimal.readBelow UInt64.size text with
  | some n => if n ≤ 5 then some n else none
  | none =>
    let name := text.map Char.toLower
    if name = [] then some 1
    else if name = "off".toList then some 0
    else ([Level.error, .warn, .info, .debug, .trace].find? fun l =>
      (l.name.toList.map Char.toLower) = name).map Level.number

end DelegatedVoting.Log
