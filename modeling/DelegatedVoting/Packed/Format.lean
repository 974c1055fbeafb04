import DelegatedVoting.Bytes
import DelegatedVoting.Text.Utf8

/-!
# Packed bytes

A compact format without names or separators. Numbers take their full width, the lowest byte
first; a text or a byte string follows its length; what a value may be is told by a number in
front of it. Reading takes the value off the front of the bytes and leaves the rest.

* `Problem`: why bytes do not start with a value;
* `Format`: writing and reading of one type;
* `Format.word32`, `word64`, `flag`, `text`, `optional`, `oneOf`: the formats of simple values;
* `Format.pair`, `Format.either`, `Format.list`, `Format.along`: formats of composed values;
* `Format.decode`: the value at the front of bytes.
-/

namespace DelegatedVoting.Packed

/-- Why bytes do not start with a value. -/
inductive Problem
  /-- A value of a fixed width is cut short. -/
  | cutShort
  /-- A length goes beyond the end of the bytes. -/
  | beyondEnd
  /-- There are only `count` alternatives. -/
  | alternative (found : Nat) (count : Nat)
  /-- Neither present nor absent. -/
  | presence (found : Nat)
  /-- Neither true nor false. -/
  | truth (found : Nat)
  | text (fault : Text.Utf8.Fault)
  /-- The bytes of a name are not sixteen. -/
  | nameLength (found : Nat)
  deriving DecidableEq, Repr

/-- The report of a problem. -/
def Problem.message : Problem → String
  | .cutShort => "io error: unexpected end of file"
  | .beyondEnd => "io error: "
  | .alternative found count =>
    "invalid value: integer `" ++ toString found ++ "`, expected variant index 0 <= i < " ++
      toString count
  | .presence found => "tag for enum is not valid, found " ++ toString found
  | .truth found =>
    "invalid u8 while decoding bool, expected 0 or 1, found " ++ toString found
  | .text fault => "string is not valid utf8: " ++ fault.message
  | .nameLength found =>
    "UUID parsing failed: invalid length: expected 16 bytes, found " ++ toString found

/-- The writing and the reading of the values of a type. -/
structure Format (α : Type) where
  write : α → Bytes
  read : Bytes → Except Problem (α × Bytes)

namespace Format

variable {α β : Type}

/-- The bytes of a fixed width at the front. -/
def takeFixed (width : Nat) (bytes : Bytes) : Except Problem (Bytes × Bytes) :=
  if width ≤ bytes.length then .ok (bytes.take width, bytes.drop width) else .error .cutShort

/-- A number of the given width in bytes. -/
def number (width : Nat) : Format Nat where
  write := Bytes.littleEndian width
  read bytes := do
    let (digits, rest) ← takeFixed width bytes
    pure (Bytes.ofLittleEndian digits, rest)

/-- Read the values of one format as values of another type. -/
def along (f : Format α) (ahead : α → β) (back : β → α) : Format β where
  write b := f.write (back b)
  read bytes := do
    let (a, rest) ← f.read bytes
    pure (ahead a, rest)

/-- A number of 32 bits. -/
def word32 : Format UInt32 := (number 4).along UInt32.ofNat UInt32.toNat

/-- A number of 64 bits. -/
def word64 : Format UInt64 := (number 8).along UInt64.ofNat UInt64.toNat

/-- A single byte that must be zero or one. -/
def flagOr (problem : Nat → Problem) : Format Bool where
  write b := [if b then 1 else 0]
  read
    | [] => .error .cutShort
    | b :: rest =>
      if b = 0 then .ok (false, rest)
      else if b = 1 then .ok (true, rest)
      else .error (problem b.toNat)

/-- A truth value. -/
def flag : Format Bool := flagOr .truth

/-- One value after the other. -/
def pair (f : Format α) (g : Format β) : Format (α × β) where
  write v := f.write v.1 ++ g.write v.2
  read bytes := do
    let (a, rest) ← f.read bytes
    let (b, rest) ← g.read rest
    pure ((a, b), rest)

/-- A byte string after its length. -/
def block : Format Bytes where
  write bytes := (number 8).write bytes.length ++ bytes
  read bytes := do
    let (length, rest) ← (number 8).read bytes
    if length ≤ rest.length then pure (rest.take length, rest.drop length)
    else throw .beyondEnd

/-- A text after its length. -/
def text : Format String where
  write s := block.write (Text.Utf8.encode s)
  read bytes := do
    let (body, rest) ← block.read bytes
    match Text.Utf8.decode body with
    | .ok s => pure (s, rest)
    | .error fault => throw (.text fault)

/-- A value that may be absent. -/
def optional (f : Format α) : Format (Option α) where
  write
    | none => (flagOr .presence).write false
    | some a => (flagOr .presence).write true ++ f.write a
  read bytes := do
    let (present, rest) ← (flagOr .presence).read bytes
    if present then
      let (a, rest) ← f.read rest
      pure (some a, rest)
    else pure (none, rest)

/-- One of the listed values, by its place in the list. -/
def oneOf [DecidableEq α] (values : List α) : Format α where
  write a := (number 4).write (values.idxOf a)
  read bytes := do
    let (place, rest) ← (number 4).read bytes
    match values[place]? with
    | some a => pure (a, rest)
    | none => throw (.alternative place values.length)

/-- A value of one type or of another one. -/
def either (f : Format α) (g : Format β) : Format (α ⊕ β) where
  write
    | .inl a => (number 4).write 0 ++ f.write a
    | .inr b => (number 4).write 1 ++ g.write b
  read bytes := do
    let (place, rest) ← (number 4).read bytes
    match place with
    | 0 =>
      let (a, rest) ← f.read rest
      pure (.inl a, rest)
    | 1 =>
      let (b, rest) ← g.read rest
      pure (.inr b, rest)
    | place => throw (.alternative place 2)

/-- So many values of one format at the front of bytes. -/
def readMany (f : Format α) : (count : Nat) → Bytes → Except Problem (List α × Bytes)
  | 0, bytes => .ok ([], bytes)
  | count + 1, bytes => do
    let (a, rest) ← f.read bytes
    let (as, rest) ← readMany f count rest
    pure (a :: as, rest)

/-- Values after their number. -/
def list (f : Format α) : Format (List α) where
  write as := (number 8).write as.length ++ as.flatMap f.write
  read bytes := do
    let (count, rest) ← (number 8).read bytes
    f.readMany count rest

/-- The value at the front of bytes, whatever follows it. -/
def decode (f : Format α) (bytes : Bytes) : Except Problem α := (·.1) <$> f.read bytes

end Format

end DelegatedVoting.Packed
