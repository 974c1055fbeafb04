/-!
# Media types

A media type names a kind of content: a type, a subtype, perhaps with a suffix after a plus sign,
and parameters. It is written in words, which have no blanks and no separators.

* `MediaType`, `MediaType.read?`: a media type, and the one that a header names;
* `MediaType.isJson`.
-/

namespace DelegatedVoting.Gateway

/-- A kind of content. The parameters are checked and not kept. -/
structure MediaType where
  main : List Char
  /-- The subtype, up to the last plus sign. -/
  sub : List Char
  /-- What follows the last plus sign. -/
  ending : Option (List Char)
  deriving DecidableEq, Repr

namespace MediaType

/-- Whether a character may stand in a word. -/
def isWordChar (c : Char) : Bool :=
  c.isAlphanum || "!#$%&'*+-.^_`|~".toList.contains c

/-- Whether a character may stand between quotes. -/
def isQuotedChar (c : Char) : Bool := 31 < c.toNat && c.toNat < 127

/-- The word in front and what follows it. -/
def word (s : List Char) : List Char × List Char := (s.takeWhile isWordChar, s.dropWhile isWordChar)

/-- What follows the closing quote, after at least one character. -/
def afterQuoted? : List Char → Option (List Char)
  | [] => none
  | c :: rest =>
    if isQuotedChar c then
      match rest.dropWhile fun c => isQuotedChar c && c != '"' with
      | '"' :: rest => some rest
      | _ => none
    else none

/-- What follows the value of a parameter: nothing, or the next parameter. -/
def afterValue? (s : List Char) : Option (List Char) :=
  match s with
  | '"' :: rest =>
    match afterQuoted? rest with
    | none => none
    | some rest =>
      match rest.dropWhile (· = ' ') with
      | [] => some []
      | ';' :: rest => some rest
      | _ => none
  | s =>
    match word s with
    | (_, []) => some []
    | (_ :: _, ';' :: rest) => some rest
    | _ => none

/-- What follows a parameter. -/
def afterParameter? (s : List Char) : Option (List Char) :=
  match word s with
  | (_ :: _, '=' :: rest) => afterValue? rest
  | _ => none

/-- Whether a text is a list of parameters, where `fuel` bounds their number. -/
def areParameters : (fuel : Nat) → List Char → Bool
  | 0, _ => false
  | fuel + 1, s =>
    match s.dropWhile (· = ' ') with
    | [] => true
    | s =>
      match afterParameter? s with
      | some rest => areParameters fuel rest
      | none => false

/-- The subtype and the suffix in a word. A plus sign in front belongs to the subtype. -/
def splitSuffix (s : List Char) : List Char × Option (List Char) :=
  let ending := (s.drop 1).reverse.takeWhile (· ≠ '+')
  if ending.length < (s.drop 1).length then
    (s.take (s.length - ending.length - 1), some ending.reverse)
  else (s, none)

/-- The media type that a text names. Case does not matter. -/
def read? (text : String) : Option MediaType :=
  match word (text.toList.map Char.toLower) with
  | (main@(_ :: _), '/' :: rest) =>
    match word rest with
    | (whole@(_ :: _), rest) =>
      let (sub, ending) := splitSuffix whole
      let accepted := match rest with
        | [] => true
        | c :: rest => c = ';' && areParameters (rest.length + 1) rest
      if accepted then some ⟨main, sub, ending⟩ else none
    | _ => none
  | _ => none

/-- Whether the content is JSON. -/
def isJson (m : MediaType) : Bool :=
  m.main = "application".toList &&
    (m.sub = "json".toList || m.ending = some "json".toList)

end MediaType

end DelegatedVoting.Gateway
