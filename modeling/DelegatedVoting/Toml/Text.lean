import DelegatedVoting.Text.Hex

/-!
# TOML texts

A text is written in one of four styles: between quotes, where a backslash escapes, or between
apostrophes, where nothing does; and either on one line, or over many lines between three quotes or
three apostrophes, where a line break right after the opening is dropped.

* `basic`, `literal`, `basicLines`, `literalLines`: the reading of the four styles, behind the
  opening;
* `read?`: the text at the front;
* `Style`, `Style.for`, `write`: the style in which a text is written, and its written form.
-/

namespace DelegatedVoting.Toml.Text

/-! ### Characters -/

/-- Whether a character may stand for itself on a line: a tab, or a character that controls
nothing. -/
def isPlain (c : Char) : Bool := c = '\t' || (32 ≤ c.toNat && c.toNat ≠ 127)

/-- The character that a backslash and a letter stand for. -/
def unescape? : Char → Option Char
  | 'b' => some '\x08'
  | 't' => some '\t'
  | 'n' => some '\n'
  | 'f' => some '\x0c'
  | 'r' => some '\r'
  | '"' => some '"'
  | '\\' => some '\\'
  | _ => none

/-- The character whose number hexadecimal digits write. -/
def numbered? (digits : List Char) : Option Char := do
  let values ← digits.mapM Text.Hex.value?
  let n := values.foldl (fun n d => 16 * n + d) 0
  if n.isValidChar then some (Char.ofNat n) else none

/-! ### Reading -/

/-- A text and what follows it. -/
abbrev Reading := Option (List Char × List Char)

/-- The reading with one more character in front. -/
def prepend (c : Char) (r : Reading) : Reading := r.map fun r => (c :: r.1, r.2)

/-- The text between quotes on one line. -/
def basic : List Char → Reading
  | [] => none
  | '"' :: rest => some ([], rest)
  | '\\' :: 'u' :: a :: b :: c :: d :: rest => do prepend (← numbered? [a, b, c, d]) (basic rest)
  | '\\' :: 'U' :: a :: b :: c :: d :: e :: f :: g :: h :: rest => do
    prepend (← numbered? [a, b, c, d, e, f, g, h]) (basic rest)
  | '\\' :: e :: rest => do prepend (← unescape? e) (basic rest)
  | c :: rest => if c ≠ '\\' ∧ isPlain c then prepend c (basic rest) else none

/-- The text between apostrophes on one line. -/
def literal : List Char → Reading
  | [] => none
  | '\'' :: rest => some ([], rest)
  | c :: rest => if isPlain c then prepend c (literal rest) else none

/-- What has been read of a backslash that ends a line. -/
inductive Gap
  /-- There is none. -/
  | none
  /-- The line must end after the backslash and blanks. -/
  | opened
  /-- The line has ended; blanks and line breaks are dropped. -/
  | closed
  deriving DecidableEq, Repr

/-- Whether a character is a blank within a line. -/
def isBlank (c : Char) : Bool := c = ' ' || c = '\t'

/-- The text between three quotes. The last three quotes of a row close it, and at most two may
stand before them. -/
def basicLines : Gap → List Char → Reading
  | _, [] => none
  | .opened, '\n' :: rest => basicLines .closed rest
  | .opened, '\r' :: '\n' :: rest => basicLines .closed rest
  | .opened, c :: rest => if isBlank c then basicLines .opened rest else none
  | .closed, '\n' :: rest => basicLines .closed rest
  | .closed, '\r' :: '\n' :: rest => basicLines .closed rest
  | _, '\n' :: rest => prepend '\n' (basicLines .none rest)
  | _, '\r' :: '\n' :: rest => prepend '\n' (basicLines .none rest)
  | _, '"' :: '"' :: '"' :: '"' :: '"' :: '"' :: _ => none
  | _, '"' :: '"' :: '"' :: '"' :: '"' :: rest => some (['"', '"'], rest)
  | _, '"' :: '"' :: '"' :: '"' :: rest => some (['"'], rest)
  | _, '"' :: '"' :: '"' :: rest => some ([], rest)
  | _, '\\' :: 'u' :: a :: b :: c :: d :: rest => do
    prepend (← numbered? [a, b, c, d]) (basicLines .none rest)
  | _, '\\' :: 'U' :: a :: b :: c :: d :: e :: f :: g :: h :: rest => do
    prepend (← numbered? [a, b, c, d, e, f, g, h]) (basicLines .none rest)
  | _, '\\' :: '\n' :: rest => basicLines .closed rest
  | _, '\\' :: '\r' :: '\n' :: rest => basicLines .closed rest
  | _, '\\' :: e :: rest =>
    if isBlank e then basicLines .opened rest
    else do prepend (← unescape? e) (basicLines .none rest)
  | gap, c :: rest =>
    if gap = .closed ∧ isBlank c then basicLines .closed rest
    else if c ≠ '\\' ∧ isPlain c then prepend c (basicLines .none rest)
    else none

/-- The text between three apostrophes. -/
def literalLines : List Char → Reading
  | [] => none
  | '\n' :: rest => prepend '\n' (literalLines rest)
  | '\r' :: '\n' :: rest => prepend '\n' (literalLines rest)
  | '\'' :: '\'' :: '\'' :: '\'' :: '\'' :: '\'' :: _ => none
  | '\'' :: '\'' :: '\'' :: '\'' :: '\'' :: rest => some (['\'', '\''], rest)
  | '\'' :: '\'' :: '\'' :: '\'' :: rest => some (['\''], rest)
  | '\'' :: '\'' :: '\'' :: rest => some ([], rest)
  | c :: rest => if isPlain c then prepend c (literalLines rest) else none

/-- The text without a line break in front. -/
def dropBreak : List Char → List Char
  | '\n' :: rest => rest
  | '\r' :: '\n' :: rest => rest
  | rest => rest

/-- The text at the front, in any of the styles. -/
def read? : List Char → Reading
  | '"' :: '"' :: '"' :: rest => basicLines .none (dropBreak rest)
  | '"' :: rest => basic rest
  | '\'' :: '\'' :: '\'' :: rest => literalLines (dropBreak rest)
  | '\'' :: rest => literal rest
  | _ => none

/-! ### Writing -/

/-- The styles of written texts. -/
inductive Style
  | basic
  | literal
  | basicLines
  | literalLines
  deriving DecidableEq, Repr

/-- The largest number of `q` in a row, where `run` of them stand in front of the text. -/
def longestRun (q : Char) (run : Nat) : List Char → Nat
  | [] => run
  | c :: rest => if c = q then longestRun q (run + 1) rest else max run (longestRun q 0 rest)

/-- Whether a character must be escaped in every style. -/
def needsEscape (c : Char) : Bool := !(c = '\n' || isPlain c)

/-- The style in which a text is written: the simplest one that needs no backslash, if there is
one. -/
def Style.for (s : List Char) : Style :=
  let control := s.any needsEscape
  let backslash := s.contains '\\'
  let lines := s.contains '\n'
  let quotes := longestRun '"' 0 s
  let apostrophes := longestRun '\'' 0 s
  if !control && !backslash && quotes = 0 && !lines then .basic
  else if !control && apostrophes = 0 && !lines then .literal
  else if !control && !backslash && quotes ≤ 2 then .basicLines
  else if !control && apostrophes ≤ 2 then .literalLines
  else if lines then .basicLines
  else .basic

/-- The upper-case hexadecimal digit of a number below sixteen. -/
def digit (n : Nat) : Char := if n < 10 then Char.ofNat (48 + n) else Char.ofNat (55 + n)

/-- A character between quotes. -/
def escape (c : Char) : List Char :=
  match c with
  | '\x08' => ['\\', 'b']
  | '\t' => ['\\', 't']
  | '\n' => ['\\', 'n']
  | '\x0c' => ['\\', 'f']
  | '\r' => ['\\', 'r']
  | '"' => ['\\', '"']
  | '\\' => ['\\', '\\']
  | c =>
    if isPlain c then [c]
    else ['\\', 'u', '0', '0', digit (c.toNat / 16), digit (c.toNat % 16)]

/-- The characters between three quotes, where `run` quotes stand in front of them. Line breaks
stand for themselves, and so do up to two quotes in a row. -/
def escapeLines (run : Nat) : List Char → List Char
  | [] => []
  | '\n' :: rest => '\n' :: escapeLines 0 rest
  | '"' :: rest =>
    if run < 2 then '"' :: escapeLines (run + 1) rest else '\\' :: '"' :: escapeLines 0 rest
  | c :: rest => escape c ++ escapeLines 0 rest

/-- A line break in front of a text of many lines. -/
def opening (s : List Char) : List Char := if s.contains '\n' then ['\n'] else []

/-- A text in the given style. -/
def writeIn (s : List Char) : Style → List Char
  | .basic => '"' :: s.flatMap escape ++ ['"']
  | .literal => '\'' :: s ++ ['\'']
  | .basicLines => ['"', '"', '"'] ++ opening s ++ escapeLines 0 s ++ ['"', '"', '"']
  | .literalLines => ['\'', '\'', '\''] ++ opening s ++ s ++ ['\'', '\'', '\'']

/-- The written form of a text. -/
def write (s : List Char) : List Char := writeIn s (Style.for s)

end DelegatedVoting.Toml.Text
