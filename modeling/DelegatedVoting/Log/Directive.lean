import DelegatedVoting.Log
import DelegatedVoting.Text.Pattern
import DelegatedVoting.Text.Utf8

/-!
# Directives

A directive says up to which level the lines of a target are kept, which is the name of the part of
the program that writes them. It may ask for more: that the lines have a field, that a field has
some value, or that the lines are written inside of a span.

Blanks around a directive are left out when its parts are looked for, but the parts are then cut out
of the text with the blanks, at the places where they would stand without them. So a blank in front
of a name belongs to the name, and where blanks of several bytes stand in front, a place can be
inside of a character.

* `Directive`, `Directive.read`: directives;
* `Directive.concerns`, `Directive.weight`: the lines that a directive is about.
-/

namespace DelegatedVoting.Log

/-- What a filter says about a target. -/
structure Directive where
  /-- What the name of the target starts with, if it matters. -/
  target : Option (List Char)
  /-- The names of the fields that a line must have. -/
  fields : List (List Char)
  /-- Whether only lines inside of a span are meant, or only some values of a field. -/
  inContext : Bool
  /-- The number of the level up to which lines are kept. -/
  bound : Nat
  deriving DecidableEq, Repr

namespace Directive

/-- Why a text is no directive. -/
inductive Problem
  | malformed
  /-- The text would have to be cut inside of a character. -/
  | cut
  deriving DecidableEq, Repr

/-- Whether a directive may start with a character. -/
def isStart (c : Char) : Bool := c = '-' || c = ':' || c = '_' || Text.isAlphanumeric c

/-- The part of a text from one place to another. -/
def part (text : List Char) (start length : Nat) : Except Problem (List Char) :=
  match (Text.Utf8.dropBytes? start text).bind (Text.Utf8.takeBytes? length) with
  | some s => .ok s
  | none => .error .cut

/-- The bound that the text from a place on gives. All lines are kept if nothing stands there. -/
def boundFrom (text : List Char) (start : Nat) : Except Problem Nat :=
  match Text.Utf8.dropBytes? start text with
  | none => .error .cut
  | some [] => .ok 5
  | some word =>
    match bound? word with
    | some n => .ok n
    | none => .error .malformed

/-! ### Fields -/

/-- Whether a text is a number behind a plus sign. -/
def isPositive : List Char → Bool
  | '+' :: s =>
    let name := s.map Char.toLower
    let whole := s.takeWhile Text.Decimal.isDigit
    let (places, rest) := match s.dropWhile Text.Decimal.isDigit with
      | '.' :: rest => (rest.takeWhile Text.Decimal.isDigit, rest.dropWhile Text.Decimal.isDigit)
      | rest => ([], rest)
    let exponent := match rest with
      | e :: '+' :: digits => if e.toLower = 'e' then digits else []
      | e :: '-' :: digits => if e.toLower = 'e' then digits else []
      | e :: digits => if e.toLower = 'e' then digits else []
      | [] => ['0']
    name = "inf".toList || name = "infinity".toList || name = "nan".toList ||
      (!(whole ++ places).isEmpty && !exponent.isEmpty && exponent.all Text.Decimal.isDigit)
  | _ => false

/-- The name in the text of a field, and whether a value of the field matters. The value is a number
or a pattern. -/
def field? (text : List Char) : Option (List Char × Bool) :=
  let name := text.takeWhile (· ≠ '=')
  match text.dropWhile (· ≠ '=') with
  | [] => if name = [] then none else some (name, false)
  | _ :: rest =>
    let value := rest.takeWhile (· ≠ '=')
    if isPositive value || Text.isPattern value then some (name, true) else none

/-! ### Reading -/

/-- The directive whose span has been read up to the byte number `place`, where `rest` follows. -/
def afterSpan (text : List Char) (target : Option (List Char)) (fields : List (List Char))
    (inContext : Bool) (place : Nat) : (rest : List Char) → Except Problem Directive
  | [] => .ok ⟨target, fields, inContext, 5⟩
  | '=' :: _ => do
    let bound ← boundFrom text (place + 1)
    pure ⟨target, fields, inContext, bound⟩
  | _ => .error .malformed

/-- The directive with a field, whose text starts at the byte number `place`. -/
def ofField (text : List Char) (target : Option (List Char)) (inSpan : Bool) (place : Nat)
    (rest : List Char) : Except Problem Directive :=
  let length := Text.Utf8.width (rest.takeWhile (· ≠ '\x7d'))
  match rest.dropWhile (· ≠ '\x7d') with
  | [] => .error .malformed
  | _ :: rest => do
    let field ← part text place length
    match field? field, rest with
    | some (name, hasValue), ']' :: rest =>
      afterSpan text target [name] (inSpan || hasValue) (place + length + 2) rest
    | _, _ => .error .malformed

/-- The directive with a span, whose name starts at the byte number `place`. -/
def ofSpan (text : List Char) (target : Option (List Char)) (place : Nat) (rest : List Char) :
    Except Problem Directive :=
  let length := Text.Utf8.width (rest.takeWhile fun c => c ≠ ']' && c ≠ '\x7b')
  match rest.dropWhile fun c => c ≠ ']' && c ≠ '\x7b' with
  | [] => .error .malformed
  | c :: rest => do
    let name ← part text place length
    let place := place + length + 1
    if c = ']' then afterSpan text target [] true place rest
    else ofField text target (!name.isEmpty) place rest

/-- The directive that a text spells. -/
def read (text : List Char) : Except Problem Directive :=
  match Text.trim text with
  | [] => .error .malformed
  | '[' :: rest => ofSpan text none 1 rest
  | s@(c :: _) =>
    if isStart c then
      let length := Text.Utf8.width (s.takeWhile fun c => c ≠ '=' && c ≠ '[')
      match s.dropWhile fun c => c ≠ '=' && c ≠ '[' with
      | [] =>
        match bound? text with
        | some n => .ok ⟨none, [], false, n⟩
        | none => .ok ⟨some text, [], false, 5⟩
      | c :: rest => do
        let target ← part text 0 length
        if c = '=' then
          let bound ← boundFrom text (length + 1)
          pure ⟨some target, [], false, bound⟩
        else ofSpan text (some target) (length + 1) rest
    else .error .malformed

/-! ### The lines that a directive is about -/

/-- Whether the directive says something about the lines of a target that have some fields. -/
def concerns (d : Directive) (target : List Char) (fields : List (List Char)) : Bool :=
  d.target.all (·.isPrefixOf target) && d.fields.all fields.contains

/-- How much the directive asks for: how much of the name of a target, and then how many fields. -/
def weight (d : Directive) : Nat × Nat := (d.target.elim 0 fun t => t.length + 1, d.fields.length)

/-- Whether a directive asks for at least as much as another one. -/
def isAsNarrow (d e : Directive) : Bool :=
  e.weight.1 < d.weight.1 || (e.weight.1 = d.weight.1 && e.weight.2 ≤ d.weight.2)

end Directive

end DelegatedVoting.Log
