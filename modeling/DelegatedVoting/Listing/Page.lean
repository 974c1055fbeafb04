import DelegatedVoting.Listing.Cursor

/-!
# Pages of a listing

A listing is read page by page. A request names the cursor of the page and how many items the
page shall have; the answer carries the cursor of the next page, as long as there is one.

* `PageRequest`, with `PageRequest.size` and `PageRequest.start`;
* `Page`, `Page.take`: the page that a request asks for.
-/

namespace DelegatedVoting.Listing

/-- What a client may say about the page that it wants. -/
structure PageRequest where
  cursor : Option String := none
  count : Option UInt32 := none
  deriving DecidableEq, Repr

/-- A cursor that no listing has issued. -/
structure MalformedCursor where
  cursor : String
  deriving DecidableEq, Repr

/-- The report of a malformed cursor. -/
def MalformedCursor.message (e : MalformedCursor) : String :=
  "malformed cursor '" ++ e.cursor ++ "'"

/-- The number of items that a page may hold: 100 unless the client asks for another number, and
between 1 and 1000 in any case. -/
def PageRequest.size (r : PageRequest) : Nat := max 1 (min 1000 (r.count.elim 100 UInt32.toNat))

/-- The sequence number at which the page starts. An empty cursor means the first page. -/
def PageRequest.start (r : PageRequest) : Except MalformedCursor UInt64 :=
  match r.cursor with
  | none => .ok 0
  | some text =>
    if text.isEmpty then .ok 0
    else match Cursor.decode? text with
      | some sequence => .ok sequence
      | none => .error ⟨text⟩

/-- A page and the cursor of the page after it. -/
structure Page (α : Type) where
  items : List α
  next : Option String
  deriving DecidableEq, Repr

/-- The page of a listing that a request asks for, where `sequence` numbers the items. -/
def Page.take {α : Type} (items : List α) (sequence : α → UInt64) (r : PageRequest) :
    Except MalformedCursor (Page α) := do
  let start ← r.start
  let rest := items.dropWhile fun item => sequence item < start
  pure ⟨rest.take r.size, (rest.drop r.size).head?.map fun item => Cursor.encode (sequence item)⟩

end DelegatedVoting.Listing
