import DelegatedVoting.Text.Alphabetic
import DelegatedVoting.Text.Blank
import DelegatedVoting.Text.Hex

/-!
# Patterns

A pattern describes a set of texts: groups in brackets, alternatives with a bar between them,
repetitions, and sets of characters. Here it only matters whether a text is a pattern, and whether
a finite automaton can look for it. A boundary of a word is beyond such an automaton where words are
made of all the letters there are, and so is whatever stands for a byte that is no character.

* `Mode`: how a part of a pattern is read;
* `escape?`, `set?`, `openGroup?`: what a backslash, a square bracket and a round bracket start;
* `isPattern`.
-/

namespace DelegatedVoting.Text.Pattern

/-! ### Modes -/

/-- How a part of a pattern is read. -/
structure Mode where
  /-- Whether a set holds characters. If not it holds bytes. -/
  unicode : Bool := true
  /-- Whether blanks and comments are left out. -/
  spaced : Bool := false
  deriving DecidableEq, Repr

/-- The text behind blanks and comments. -/
def skipSpace (inComment : Bool) : List Char → List Char
  | [] => []
  | c :: rest =>
    if inComment then skipSpace (c ≠ '\n') rest
    else if isBlank c then skipSpace false rest
    else if c = '#' then skipSpace true rest
    else c :: rest

/-- The text behind what the mode leaves out. -/
def Mode.skip (m : Mode) (s : List Char) : List Char := if m.spaced then skipSpace false s else s

/-! ### Behind a backslash -/

/-- What a part of a pattern stands for. -/
inductive Item
  | literal (c : Char)
  /-- Some characters. -/
  | set
  /-- A place between characters. -/
  | place
  deriving DecidableEq, Repr

/-- The characters that have a meaning of their own. -/
def metaChars : List Char := "\\.+*?()|[]\x7b\x7d^$#&-~".toList

/-- Whether a character that stands behind a backslash stands for itself. -/
def isEscapable (c : Char) : Bool :=
  metaChars.contains c || (c.toNat < 128 && !c.isAlphanum && c ≠ '<' && c ≠ '>')

/-- The character with the number that `left` hexadecimal digits write behind the number `n`. -/
def number? (m : Mode) (left n : Nat) (s : List Char) : Option (Char × List Char) :=
  match left with
  | 0 => if n.isValidChar then some (Char.ofNat n, s) else none
  | left + 1 =>
    match m.skip s with
    | [] => none
    | c :: rest => (Hex.value? c).bind fun d => number? m left (16 * n + d) rest

/-- What the text behind a backslash starts with. -/
def escape? (m : Mode) : List Char → Option (Item × List Char)
  | [] => none
  | c :: rest =>
    if isEscapable c then some (.literal c, rest)
    else if c = 'x' then
      (number? m 2 0 rest).bind fun r =>
        if m.unicode || r.1.toNat < 128 then some (.literal r.1, r.2) else none
    else if c = 'u' then (number? m 4 0 rest).map fun r => (.literal r.1, r.2)
    else if c = 'U' then (number? m 8 0 rest).map fun r => (.literal r.1, r.2)
    else if c = 'p' ∨ c = 'P' then
      match m.skip rest with
      | [] => none
      | c :: rest =>
        if m.unicode && "LMNPSZC".toList.contains c.toUpper then some (.set, rest) else none
    else if c = 'd' ∨ c = 's' ∨ c = 'w' then some (.set, rest)
    else if c = 'D' ∨ c = 'S' ∨ c = 'W' then if m.unicode then some (.set, rest) else none
    else if c = 'b' ∨ c = 'B' ∨ c = '<' ∨ c = '>' then
      if m.unicode then none else some (.place, rest)
    else if c = 'A' ∨ c = 'z' then some (.place, rest)
    else if c = 'a' then some (.literal '\x07', rest)
    else if c = 'f' then some (.literal '\x0c', rest)
    else if c = 't' then some (.literal '\t', rest)
    else if c = 'n' then some (.literal '\n', rest)
    else if c = 'r' then some (.literal '\r', rest)
    else if c = 'v' then some (.literal '\x0b', rest)
    else none

/-! ### Sets in square brackets -/

/-- The sets that have names. -/
def setNames : List String :=
  ["alnum", "alpha", "ascii", "blank", "cntrl", "digit", "graph", "lower", "print", "punct",
    "space", "upper", "word", "xdigit"]

/-- The text behind a name between colons and the bracket that closes it, and whether a caret stands
before the name. -/
def named? : List Char → Option (Bool × List Char)
  | ':' :: s =>
    let (negated, s) := match s with
      | '^' :: rest => (true, rest)
      | s => (false, s)
    let name := String.ofList (s.takeWhile (· ≠ ':'))
    match s.dropWhile (· ≠ ':') with
    | ':' :: ']' :: rest => if setNames.contains name then some (negated, rest) else none
    | _ => none
  | _ => none

/-- The text behind the hyphens with which a set starts, where `fuel` bounds their number. -/
def dropHyphens (m : Mode) : (fuel : Nat) → List Char → List Char
  | 0, s => s
  | fuel + 1, s =>
    match s with
    | '-' :: rest => dropHyphens m fuel (m.skip rest)
    | s => s

/-- The text behind the start of a set: a caret, and then hyphens or a closing bracket that belong
to the set. -/
def openSet? (m : Mode) (s : List Char) : Option (List Char) :=
  let inside (s : List Char) : Option (List Char) :=
    match dropHyphens m s.length s with
    | [] => none
    | c :: rest =>
      if c = ']' && rest.length + 1 = s.length then
        match m.skip rest with
        | [] => none
        | rest => some rest
      else some (c :: rest)
  match m.skip s with
  | '^' :: rest => if m.unicode then inside (m.skip rest) else none
  | s => inside s

/-- What stands in a set at the front of a text. -/
def member? (m : Mode) : List Char → Option (Item × List Char)
  | [] => none
  | '\\' :: rest =>
    match escape? m rest with
    | some (.literal c, rest) =>
      if m.unicode || c.toNat < 128 then some (.literal c, rest) else none
    | r => r
  | c :: rest => if m.unicode || c.toNat < 128 then some (.literal c, rest) else none

/-- The text behind a member of a set or behind a range. -/
def afterMember? (m : Mode) (s : List Char) : Option (List Char) :=
  match member? m s with
  | none => none
  | some (first, rest) =>
    let alone := if first = .place then none else some (m.skip rest)
    match m.skip rest with
    | [] => none
    | '-' :: rest =>
      match m.skip rest with
      | [] => none
      | ']' :: _ => alone
      | '-' :: _ => alone
      | rest =>
        match first, member? m rest with
        | .literal a, some (.literal b, rest) => if a ≤ b then some rest else none
        | _, _ => none
    | _ => alone

/-- The text behind the bracket that closes the outermost of `depth` sets. -/
def set? (m : Mode) : (fuel depth : Nat) → List Char → Option (List Char)
  | 0, _, _ => none
  | fuel + 1, depth, s =>
    match m.skip s with
    | [] => none
    | '[' :: rest =>
      match named? rest with
      | some (negated, rest) => if negated && !m.unicode then none else set? m fuel depth rest
      | none => (openSet? m rest).bind (set? m fuel (depth + 1))
    | ']' :: rest => if depth ≤ 1 then some rest else set? m fuel (depth - 1) rest
    | '&' :: '&' :: rest => set? m fuel depth rest
    | '-' :: '-' :: rest => set? m fuel depth rest
    | '~' :: '~' :: rest => set? m fuel depth rest
    | s => (afterMember? m s).bind (set? m fuel depth)

/-! ### Groups -/

/-- How far a pattern has been read. -/
structure State where
  mode : Mode := {}
  /-- The modes around the open groups, the innermost first. -/
  outer : List Mode := []
  /-- The names of groups. -/
  names : List (List Char) := []
  /-- Whether there is something to repeat. -/
  canRepeat : Bool := false

/-- The state inside of a new group. -/
def State.enter (st : State) (mode : Mode) : State :=
  { st with mode, outer := st.mode :: st.outer, canRepeat := false }

/-- The state behind something that can be repeated. -/
def State.behind (st : State) : State := { st with canRepeat := true }

/-- The letters that change how a pattern is read, up to a colon or a closing bracket, and whether
each is switched on. -/
def flags? (on dangling : Bool) (read : List (Char × Bool)) :
    List Char → Option (List (Char × Bool) × List Char)
  | [] => none
  | c :: rest =>
    if c = ':' ∨ c = ')' then if dangling then none else some (read, c :: rest)
    else if c = '-' then if on then flags? false true read rest else none
    else if "imsURux".toList.contains c && !read.any (·.1 = c) then
      flags? on false ((c, on) :: read) rest
    else none

/-- The mode with some letters switched on or off. -/
def Mode.switch (m : Mode) (flags : List (Char × Bool)) : Mode where
  unicode := (flags.lookup 'u').getD m.unicode
  spaced := (flags.lookup 'x').getD m.spaced

/-- Whether a text may be the name of a group. -/
def isGroupName : List Char → Bool
  | [] => false
  | c :: rest =>
    (c = '_' || isAlphabetic c) &&
      rest.all fun c => c = '_' || c = '.' || c = '[' || c = ']' || isAlphanumeric c

/-- The state in a group with a name, and the text behind the name. -/
def nameGroup? (st : State) (s : List Char) : Option (State × List Char) :=
  let name := s.takeWhile (· ≠ '>')
  match s.dropWhile (· ≠ '>') with
  | [] => none
  | _ :: rest =>
    if isGroupName name && !st.names.contains name then
      some ({ st with names := name :: st.names }.enter st.mode, rest)
    else none

/-- The state behind the start of a group, and the text there. Letters alone change the mode of the
group around them. -/
def openGroup? (st : State) (s : List Char) : Option (State × List Char) :=
  match st.mode.skip s with
  | '?' :: 'P' :: '<' :: rest => nameGroup? st rest
  | '?' :: '<' :: rest =>
    match rest with
    | '!' :: _ => none
    | _ => nameGroup? st rest
  | '?' :: rest =>
    match flags? true false [] rest with
    | some ([], ')' :: _) => none
    | some (flags, ')' :: rest) =>
      some ({ st with mode := st.mode.switch flags, canRepeat := false }, rest)
    | some (flags, _ :: rest) => some (st.enter (st.mode.switch flags), rest)
    | _ => none
  | s => some (st.enter st.mode, s)

/-! ### Patterns -/

/-- Whether a text continues a pattern, where `fuel` bounds the number of its parts. -/
def continues : (fuel : Nat) → State → List Char → Bool
  | 0, _, _ => false
  | fuel + 1, st, s =>
    match st.mode.skip s with
    | [] => st.outer.isEmpty
    | '(' :: rest =>
      match openGroup? st rest with
      | some (st, rest) => continues fuel st rest
      | none => false
    | ')' :: rest =>
      match st.outer with
      | [] => false
      | mode :: outer => continues fuel { st with mode, outer, canRepeat := true } rest
    | '|' :: rest => continues fuel { st with canRepeat := false } rest
    | '[' :: rest =>
      match (openSet? st.mode rest).bind (set? st.mode (rest.length + 1) 1) with
      | some rest => continues fuel st.behind rest
      | none => false
    | '\\' :: rest =>
      match escape? st.mode rest with
      | some (_, rest) => continues fuel st.behind rest
      | none => false
    | c :: rest =>
      if c = '?' ∨ c = '*' ∨ c = '+' then
        let rest := match rest with
          | '?' :: rest => rest
          | rest => rest
        st.canRepeat && continues fuel st rest
      else if c = '\x7b' then false
      else if c = '.' then st.mode.unicode && continues fuel st.behind rest
      else continues fuel st.behind rest

end Pattern

/-- Whether a text is a pattern. Repetitions have no numbers here. -/
def isPattern (s : List Char) : Bool := Pattern.continues (s.length + 1) {} s

end DelegatedVoting.Text
