import DelegatedVoting.Toml.Scalar
import DelegatedVoting.Toml.Text

/-!
# TOML documents

A document is a list of lines: values under keys, headers of tables, and lines that say nothing.
Values may hold other values between brackets and between braces.

* `Key.read?`: a dotted key;
* `Value.read?`: a value;
* `Line`, `Line.read?`: a line that says something;
* `Document.lines?`, `Document.table?`: the lines of a text, and the table that they describe;
* `read?`: the table of a text.
-/

namespace DelegatedVoting.Toml

/-! ### Blanks and comments -/

/-- The text behind the blanks. -/
def skipBlanks (s : List Char) : List Char := s.dropWhile Text.isBlank

/-- The text behind blanks, line breaks and comments. A comment goes to the end of its line. -/
def skipGap (inComment : Bool) : List Char → List Char
  | [] => []
  | '\n' :: rest => skipGap false rest
  | '\r' :: '\n' :: rest => skipGap false rest
  | c :: rest =>
    if inComment then if Text.isPlain c then skipGap true rest else c :: rest
    else if c = '#' then skipGap true rest
    else if Text.isBlank c then skipGap false rest
    else c :: rest

/-- The text behind the end of the line. There may be a comment before it. -/
def endLine? (s : List Char) : Option (List Char) :=
  let rest := match skipBlanks s with
    | '#' :: rest => rest.dropWhile Text.isPlain
    | rest => rest
  match rest with
  | [] => some []
  | '\n' :: rest => some rest
  | '\r' :: '\n' :: rest => some rest
  | _ => none

/-! ### Keys -/

namespace Key

/-- Whether a character may stand in a key without quotes. -/
def isBareChar (c : Char) : Bool := c.isAlphanum || c = '_' || c = '-'

/-- One part of a key. -/
def part? (s : List Char) : Option (String × List Char) :=
  match s with
  | '"' :: rest => (Text.basic rest).map fun r => (String.ofList r.1, r.2)
  | '\'' :: rest => (Text.literal rest).map fun r => (String.ofList r.1, r.2)
  | s =>
    let name := s.takeWhile isBareChar
    if name.isEmpty then none else some (String.ofList name, s.dropWhile isBareChar)

/-- The largest number of parts of a key. -/
def maxParts : Nat := 79

/-- The parts of a key with points between them and blanks around them, at most `bound`. -/
def parts? : (bound : Nat) → List Char → Option (List String × List Char)
  | 0, _ => none
  | bound + 1, s => do
    let (name, rest) ← part? (skipBlanks s)
    match skipBlanks rest with
    | '.' :: rest => do
      let (names, rest) ← parts? bound rest
      pure (name :: names, rest)
    | rest => pure ([name], rest)

/-- A dotted key, and what follows the blanks after it. -/
def read? (s : List Char) : Option (KeyPath × List Char) := do
  let (names, rest) ← parts? maxParts s
  let name ← names.getLast?
  pure (⟨names.dropLast, name⟩, rest)

end Key

/-! ### Values -/

namespace Value

/-- The reading of values at the front. -/
abbrev Reader := List Char → Option (Item × List Char)

/-- The items of an array up to the closing bracket, where `fuel` bounds their number. The last one
may be followed by a comma. -/
def items (item : Reader) : (fuel : Nat) → List Char → Option (List Item × List Char)
  | 0, _ => none
  | fuel + 1, s =>
    match skipGap false s with
    | ']' :: rest => some ([], rest)
    | s => do
      let (v, rest) ← item s
      match skipGap false rest with
      | ',' :: rest => do
        let (vs, rest) ← items item fuel rest
        pure (v :: vs, rest)
      | ']' :: rest => pure ([v], rest)
      | _ => none

/-- A key, an equals sign and a value, added to a table. -/
def member (item : Reader) (t : Table) (s : List Char) : Option (Table × List Char) := do
  let (path, rest) ← Key.read? s
  match rest with
  | '=' :: rest => do
    let (v, rest) ← item (skipBlanks rest)
    let t ← t.assign path v
    pure (t, skipBlanks rest)
  | _ => none

/-- The members of a table between braces, at least one, up to the closing brace, added to a
table. -/
def members (item : Reader) : (fuel : Nat) → Table → List Char → Option (Table × List Char)
  | 0, _, _ => none
  | fuel + 1, t, s => do
    let (t, rest) ← member item t s
    match rest with
    | ',' :: rest => members item fuel t rest
    | '}' :: rest => pure (t, rest)
    | _ => none

/-- The largest depth of values in values. -/
def maxDepth : Nat := 79

/-- The value at the front, in which other values are nested up to the given depth. -/
def readTo : (depth : Nat) → Reader
  | 0, s =>
    match s with
    | '"' :: _ => (Text.read? s).map fun r => (.text (String.ofList r.1), r.2)
    | '\'' :: _ => (Text.read? s).map fun r => (.text (String.ofList r.1), r.2)
    | s => Scalar.read? s
  | depth + 1, s =>
    match s with
    | '"' :: _ => (Text.read? s).map fun r => (.text (String.ofList r.1), r.2)
    | '\'' :: _ => (Text.read? s).map fun r => (.text (String.ofList r.1), r.2)
    | '[' :: rest => (items (readTo depth) rest.length rest).map fun r => (.array r.1, r.2)
    | '{' :: rest =>
      match skipBlanks rest with
      | '}' :: rest => some (.table (.empty .inline), rest)
      | rest =>
        (members (readTo depth) rest.length (.empty .inline) rest).map fun r => (.table r.1, r.2)
    | s => Scalar.read? s

/-- The value at the front. -/
def read? : Reader := readTo maxDepth

end Value

/-! ### Lines -/

/-- A line that says something. -/
inductive Line
  | assignment (path : KeyPath) (value : Item)
  | header (path : KeyPath)
  /-- The header of one more table of an array. -/
  | element (path : KeyPath)

/-- The line at the front, and what follows it. -/
def Line.read? (s : List Char) : Option (Line × List Char) :=
  match s with
  | '[' :: '[' :: rest => do
    let (path, rest) ← Key.read? rest
    match rest with
    | ']' :: ']' :: rest => do
      let rest ← endLine? rest
      pure (.element path, rest)
    | _ => none
  | '[' :: rest => do
    let (path, rest) ← Key.read? rest
    match rest with
    | ']' :: rest => do
      let rest ← endLine? rest
      pure (.header path, rest)
    | _ => none
  | s => do
    let (path, rest) ← Key.read? s
    match rest with
    | '=' :: rest => do
      let (v, rest) ← Value.read? (skipBlanks rest)
      let rest ← endLine? rest
      pure (.assignment path v, rest)
    | _ => none

namespace Document

/-- The lines of a text that say something, where `fuel` bounds the number of all lines. -/
def linesFrom : (fuel : Nat) → List Char → Option (List Line)
  | 0, _ => none
  | fuel + 1, s =>
    match skipBlanks s with
    | [] => some []
    | '#' :: _ => endLine? s >>= linesFrom fuel
    | '\n' :: _ => endLine? s >>= linesFrom fuel
    | '\r' :: _ => endLine? s >>= linesFrom fuel
    | s => do
      let (line, rest) ← Line.read? s
      let lines ← linesFrom fuel rest
      pure (line :: lines)

/-- The lines of a text that say something. -/
def lines? (s : List Char) : Option (List Line) := linesFrom (s.length + 1) s

/-- The table with some more values. -/
def fill (values : List (KeyPath × Item)) (t : Table) : Option Table :=
  values.foldlM (fun t v => t.assign v.1 v.2) t

/-- The table with the tables that lines describe, where `values` are the values under the header
that comes next. -/
def tablesFrom : List Line → List (KeyPath × Item) → Option Table
  | [], values => fill values (.empty .header)
  | .assignment path v :: earlier, values => tablesFrom earlier ((path, v) :: values)
  | .header path :: earlier, values => tablesFrom earlier [] >>= Table.define path (fill values)
  | .element path :: earlier, values => tablesFrom earlier [] >>= Table.append path (fill values)

/-- The table that lines describe. -/
def table? (lines : List Line) : Option Table := tablesFrom lines.reverse []

/-- The text without a mark of the byte order in front. -/
def dropMark : List Char → List Char
  | '\uFEFF' :: rest => rest
  | rest => rest

/-- The table of a text. -/
def read? (text : String) : Option Table := do
  let lines ← lines? (dropMark text.toList)
  table? lines

end Document

end DelegatedVoting.Toml
