import DelegatedVoting.Json.Token

/-!
# JSON documents

A document is what a text says, as far as it says anything: where the text goes wrong, the
document has a hole, and every list around the hole is marked as one that was not closed. So a
reader who walks through a document meets what is wrong with it in the order of the text.

* `Json`: documents;
* `Json.ofTokens`: the first document of a list of tokens, and the tokens after it;
* `Json.ofGlyphs`, `Json.ofText?`: the first document of a text, and the document that a whole
  text is;
* `Json.write`: the text of a document;
* `Json.ofString`, `Json.ofNat`, `Json.ofMembers`: the documents of simple values.
-/

namespace DelegatedVoting

/-- What a text says. -/
inductive Json
  | null
  | flag (b : Bool)
  | number (n : Json.Numeral)
  | text (pieces : List Json.Piece)
  | array (items : List Json) (closed : Bool)
  | object (members : List (List Json.Piece × Json)) (closed : Bool)
  /-- A place at which no value can be read. -/
  | hole
  deriving Repr

namespace Json

instance : Inhabited Json := ⟨.null⟩

/-! ### Building -/

/-- A list that has been opened and not been closed, with its parts in reverse. An object waits for
the value of its last key. -/
inductive Frame
  | array (items : List Json)
  | object (members : List (List Piece × Json)) (key : List Piece)

/-- The frame with one more value. -/
def Frame.push (v : Json) : Frame → Frame
  | .array items => .array (v :: items)
  | .object members key => .object ((key, v) :: members) key

/-- The document of a frame. -/
def Frame.finish (closed : Bool) : Frame → Json
  | .array items => .array items.reverse closed
  | .object members _ => .object members.reverse closed

/-- What must come next. -/
inductive Expected
  | value
  | firstItem
  | firstKey
  | key
  | colon
  | separator
  deriving DecidableEq, Repr

/-- The document of frames that will not be closed, where the innermost frame ends with `last`. -/
def abandon (last : Json) (stack : List Frame) : Json :=
  stack.foldl (fun v f => (f.push v).finish false) last

/-- The document of frames that will not be closed, where the innermost frame is complete. -/
def abandonSeparated : List Frame → Json
  | [] => .hole
  | f :: stack => abandon (f.finish false) stack

/-- The tokens that are values of their own. -/
def scalar? : Token → Option Json
  | .null => some .null
  | .flag b => some (.flag b)
  | .number n => some (.number n)
  | .text pieces => some (.text pieces)
  | _ => none

/-- The document under construction, and the tokens that it leaves. -/
def build (stack : List Frame) : Expected → List Token → Json × List Token
  | .value, t :: rest =>
    match t with
    | .openBracket => build (.array [] :: stack) .firstItem rest
    | .openBrace => build (.object [] [] :: stack) .firstKey rest
    | t =>
      match scalar? t, stack with
      | some v, [] => (v, rest)
      | some v, f :: stack => build (f.push v :: stack) .separator rest
      | none, stack => (abandon .hole stack, [])
  | .firstItem, .closeBracket :: rest =>
    match stack with
    | [] => (.hole, [])
    | [f] => (f.finish true, rest)
    | f :: g :: stack => build (g.push (f.finish true) :: stack) .separator rest
  | .firstItem, t :: rest =>
    match t with
    | .openBracket => build (.array [] :: stack) .firstItem rest
    | .openBrace => build (.object [] [] :: stack) .firstKey rest
    | t =>
      match scalar? t, stack with
      | some v, f :: stack => build (f.push v :: stack) .separator rest
      | some _, [] => (.hole, [])
      | none, stack => (abandonSeparated stack, [])
  | .firstKey, .closeBrace :: rest =>
    match stack with
    | [] => (.hole, [])
    | [f] => (f.finish true, rest)
    | f :: g :: stack => build (g.push (f.finish true) :: stack) .separator rest
  | .firstKey, .text key :: rest =>
    match stack with
    | .object members _ :: stack => build (.object members key :: stack) .colon rest
    | stack => (abandonSeparated stack, [])
  | .key, .text key :: rest =>
    match stack with
    | .object members _ :: stack => build (.object members key :: stack) .colon rest
    | stack => (abandonSeparated stack, [])
  | .colon, .colon :: rest => build stack .value rest
  | .colon, _ => (abandon .hole stack, [])
  | .separator, .comma :: rest =>
    match stack with
    | .array items :: stack => build (.array items :: stack) .value rest
    | stack => build stack .key rest
  | .separator, .closeBracket :: rest =>
    match stack with
    | [.array items] => (.array items.reverse true, rest)
    | .array items :: g :: stack =>
      build (g.push (.array items.reverse true) :: stack) .separator rest
    | stack => (abandonSeparated stack, [])
  | .separator, .closeBrace :: rest =>
    match stack with
    | [.object members _] => (.object members.reverse true, rest)
    | .object members _ :: g :: stack =>
      build (g.push (.object members.reverse true) :: stack) .separator rest
    | stack => (abandonSeparated stack, [])
  | .value, [] => (abandon .hole stack, [])
  | _, _ => (abandonSeparated stack, [])

/-- The first document of a list of tokens, and the tokens after it. -/
def ofTokens (ts : List Token) : Json × List Token := build [] .value ts

/-- The first document of a text, whatever follows it. -/
def ofGlyphs (s : List Glyph) : Json := (ofTokens (tokens s)).1

/-- The document that a whole text is. -/
def ofText? (s : List Char) : Option Json :=
  match ofTokens (tokens (s.map some)) with
  | (v, []) => some v
  | _ => none

/-! ### Documents of simple values -/

def ofString (s : String) : Json := .text (pieces s.toList)

def ofNat (n : Nat) : Json := .number (.ofNat n)

def ofMembers (members : List (String × Json)) : Json :=
  .object (members.map fun m => (pieces m.1.toList, m.2)) true

/-! ### Writing -/

/-- A number of four hexadecimal digits. -/
def writeUnit (n : Nat) : List Char :=
  let digit (k : Nat) : Char := if k < 10 then Char.ofNat (48 + k) else Char.ofNat (87 + k)
  ['\\', 'u', digit (n / 4096 % 16), digit (n / 256 % 16), digit (n / 16 % 16), digit (n % 16)]

/-- A character of a quoted text. Quotes, backslashes and control characters are escaped. -/
def writeChar (c : Char) : List Char :=
  match c with
  | '"' => ['\\', '"']
  | '\\' => ['\\', '\\']
  | '\x08' => ['\\', 'b']
  | '\x0c' => ['\\', 'f']
  | '\n' => ['\\', 'n']
  | '\r' => ['\\', 'r']
  | '\t' => ['\\', 't']
  | c => if c.toNat < 32 then writeUnit c.toNat else [c]

def writePiece : Piece → List Char
  | .plain (some c) => writeChar c
  | .plain none => ['\uFFFD']
  | .unit n => writeUnit n

/-- A quoted text. -/
def writeText (pieces : List Piece) : List Char := '"' :: pieces.flatMap writePiece ++ ['"']

def Numeral.write (n : Numeral) : List Char :=
  (if n.negative then ['-'] else []) ++ n.whole ++ (n.fraction.elim [] ('.' :: ·)) ++
    n.exponent.elim [] fun e => 'e' :: (if e.1 then ['-'] else []) ++ e.2

mutual

/-- The text of a document. -/
def write : Json → List Char
  | .null => ['n', 'u', 'l', 'l']
  | .flag true => ['t', 'r', 'u', 'e']
  | .flag false => ['f', 'a', 'l', 's', 'e']
  | .number n => n.write
  | .text pieces => writeText pieces
  | .array items closed => '[' :: writeItems items ++ (if closed then [']'] else [])
  | .object members closed => '{' :: writeMembers members ++ (if closed then ['}'] else [])
  | .hole => []

def writeItems : List Json → List Char
  | [] => []
  | [v] => write v
  | v :: w :: rest => write v ++ ',' :: writeItems (w :: rest)

def writeMembers : List (List Piece × Json) → List Char
  | [] => []
  | [(key, v)] => writeText key ++ ':' :: write v
  | (key, v) :: w :: rest => writeText key ++ ':' :: write v ++ ',' :: writeMembers (w :: rest)

end

end Json

end DelegatedVoting
