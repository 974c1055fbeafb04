import DelegatedVoting.Gateway.Response

/-!
# Requests and responses on lines

Where requests are not sent over a network they stand on lines: the method, the address, and the
content if there is any, with blanks between them. The content is JSON. A response stands on lines,
too: the status, and then the content.

* `Request.ofLine?`: the request on a line;
* `Response.lines`: the lines of a response.
-/

namespace DelegatedVoting.Gateway

/-- The part in front of the first blank, and the part behind it. -/
def splitBlank (s : List Char) : List Char × List Char :=
  (s.takeWhile (· ≠ ' '), (s.dropWhile (· ≠ ' ')).drop 1)

/-- The request on a line. -/
def Request.ofLine? (line : String) : Option Request :=
  let (method, rest) := splitBlank line.toList
  let (target, body) := splitBlank rest
  if target = [] then none
  else some {
    method := .ofName (String.ofList method)
    target := String.ofList target
    contentType := if body = [] then none else some "application/json"
    body := Text.Utf8.encode (String.ofList body) }

/-- The lines of a response. -/
def Response.lines (r : Response) : List String :=
  toString r.status ::
    match r.body with
    | .empty => []
    | .json document => [String.ofList document.write]
    | .text lines => lines

end DelegatedVoting.Gateway
