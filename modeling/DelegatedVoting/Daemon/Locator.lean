import DelegatedVoting.Text.Blank

/-!
# Locators

An address leads to a node and, within the node, along names with slashes between them. The address
that a client is given is tidied first: blanks around it and line ends in it do not count, slashes
may lean either way, and dots stand for the place itself or for the one above it.

* `Locator.clean`: an address without what does not count;
* `Locator.along`: the names that are left of those on the way;
* `Locator.target?`: where in a node an address leads.
-/

namespace DelegatedVoting.Locator

/-- Whether a character does not count at the ends of an address. -/
def isEdge (c : Char) : Bool := c.toNat ≤ 0x20

/-- Whether a character does not count anywhere in an address. -/
def isBreak (c : Char) : Bool := c = '\t' || c = '\n' || c = '\r'

/-- An address without what does not count. -/
def clean (address : List Char) : List Char :=
  (((address.dropWhile isEdge).reverse.dropWhile isEdge).reverse).filter (!isBreak ·)

/-- Whether a character stands between names. -/
def isSlash (c : Char) : Bool := c = '/' || c = '\\'

/-- A name in which the dots that are written with digits are written as dots. -/
def plainDots : List Char → List Char
  | '%' :: '2' :: e :: rest =>
    if e = 'e' ∨ e = 'E' then '.' :: plainDots rest else '%' :: '2' :: plainDots (e :: rest)
  | c :: rest => c :: plainDots rest
  | [] => []

/-- The names that are left of those on the way, where `back` are the names so far, the last one
first. Nothing is above the first name. -/
def along (back : List (List Char)) : List (List Char) → List (List Char)
  | [] => back.reverse
  | name :: names =>
    let isLast := names.isEmpty
    match plainDots name with
    | ['.'] => along (if isLast then [] :: back else back) names
    | ['.', '.'] => along (if isLast then [] :: back.drop 1 else back.drop 1) names
    | _ => along (name :: back) names

/-- What follows a prefix of a text. -/
def after? : (front text : List Char) → Option (List Char)
  | [], text => some text
  | _ :: _, [] => none
  | c :: front, d :: text => if c = d then after? front text else none

/-- The address within a node of what follows the address of the node. -/
def within (rest : List Char) : List Char :=
  let rest := rest.takeWhile (· ≠ '#')
  let names := ((rest.takeWhile (· ≠ '?')).drop 1).splitOnP isSlash
  '/' :: ['/'].intercalate (along [] names) ++ rest.dropWhile (· ≠ '?')

/-- Where in the node at `home` an address leads, if it leads there. -/
def target? (home address : String) : Option String := do
  let rest ← after? home.toList (clean address.toList)
  match rest with
  | [] => pure "/"
  | c :: _ =>
    if isSlash c ∨ c = '?' ∨ c = '#' then pure (String.ofList (within rest)) else none

end DelegatedVoting.Locator
