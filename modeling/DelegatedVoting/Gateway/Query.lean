import DelegatedVoting.Listing.Page
import DelegatedVoting.Text.Decimal
import DelegatedVoting.Text.Percent

/-!
# Queries

A query is a list of pairs of a key and a value, with an ampersand between the pairs and an
equals sign after a key. A plus sign stands for a blank.

* `Query.pairs`: the pairs of a query;
* `pageRequest?`: the page that a query asks for.
-/

namespace DelegatedVoting.Gateway

namespace Query

/-- The text that a part of a query spells. -/
def decode (s : List Char) : List Char :=
  let spaced := s.map fun c => if c = '+' then ' ' else c
  Text.Utf8.decodeLossy (Text.Percent.decode (Text.Utf8.encode (String.ofList spaced)))

/-- The key and the value of a pair. -/
def pair (s : List Char) : List Char × List Char :=
  (decode (s.takeWhile (· ≠ '=')), decode ((s.dropWhile (· ≠ '=')).drop 1))

/-- The pairs of a query. -/
def pairs (query : List Char) : List (List Char × List Char) :=
  ((query.splitOn '&').filter (· ≠ [])).map pair

end Query

/-- A page request with one more pair. A key must not be given twice; other keys mean nothing. -/
def addPair (r : Listing.PageRequest) (pair : List Char × List Char) : Option Listing.PageRequest :=
  if pair.1 = "cursor".toList then
    if r.cursor.isSome then none else some { r with cursor := some (String.ofList pair.2) }
  else if pair.1 = "count".toList then
    if r.count.isSome then none
    else (Text.Decimal.readBelow UInt32.size pair.2).map fun n =>
      { r with count := some (UInt32.ofNat n) }
  else some r

/-- The page that a query asks for. -/
def pageRequest? (query : List Char) : Option Listing.PageRequest :=
  (Query.pairs query).foldlM addPair {}

end DelegatedVoting.Gateway
