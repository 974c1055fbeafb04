import DelegatedVoting.Base64

/-!
# Cursors

A cursor is the written form of the sequence number at which the next page of a listing starts:
its eight bytes, the highest first, in base 64.

* `encode`, `decode?`: the cursor of a sequence number, and the number of a cursor.
-/

namespace DelegatedVoting.Listing.Cursor

/-- The cursor of a sequence number. -/
def encode (sequence : UInt64) : String :=
  String.ofList (Base64.encode (Bytes.bigEndian 8 sequence.toNat))

/-- The sequence number of a cursor. -/
def decode? (cursor : String) : Option UInt64 := do
  let bytes ← Base64.decode? cursor.toList
  if bytes.length = 8 then some (UInt64.ofNat (Bytes.ofBigEndian bytes)) else none

end DelegatedVoting.Listing.Cursor
