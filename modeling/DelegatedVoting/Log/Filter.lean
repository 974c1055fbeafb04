import DelegatedVoting.Log.Directive

/-!
# Filters

A filter says which lines of a log are kept. It is written as a list of directives with commas
between them. Of the directives that are about a line the one that asks for most decides.

* `Filter`, `Filter.read?`, `Filter.readStrict`;
* `Filter.boundFor`, `Filter.keeps`.
-/

namespace DelegatedVoting.Log

/-- A list of directives. -/
structure Filter where
  directives : List Directive
  deriving DecidableEq, Repr

namespace Filter

/-- The texts of directives. -/
def parts (text : String) : List (List Char) := (text.toList.splitOn ',').filter (· ≠ [])

/-- The filter of a text. What is malformed is left out, but there is none if a text would have to
be cut inside of a character. -/
def read? (text : String) : Option Filter :=
  let keep (part : List Char) : Option (Option Directive) :=
    match Directive.read part with
    | .ok d => some (some d)
    | .error .malformed => some none
    | .error .cut => none
  ((parts text).mapM keep).map fun ds => ⟨ds.filterMap id⟩

/-- The filter of a text in which everything is a directive. -/
def readStrict (text : String) : Except Directive.Problem Filter :=
  Filter.mk <$> (parts text).mapM Directive.read

/-- The directives that decide about lines outside of spans. Without a directive errors are kept. -/
def deciding (f : Filter) : List Directive :=
  if f.directives.isEmpty then [⟨none, [], false, 1⟩] else f.directives.filter fun d => !d.inContext

/-- The bound for the lines of a target that have some fields: that of the last directive among
those that ask for most. -/
def boundFor (f : Filter) (target : String) (fields : List String) : Nat :=
  let concerned := f.deciding.filter fun d => d.concerns target.toList (fields.map String.toList)
  (concerned.foldl (fun best d =>
    match best with
    | none => some d
    | some b => if d.isAsNarrow b then some d else best) none).elim 0 Directive.bound

/-- Whether the lines of a level are kept. -/
def keeps (f : Filter) (target : String) (fields : List String) (level : Level) : Bool :=
  level.number ≤ f.boundFor target fields

end Filter

end DelegatedVoting.Log
