import DelegatedVoting.Json.Document

/-!
# Shapes of JSON documents

A shape says how the values of a type are written as documents and which documents are read as
values. Reading walks through the document in the order of its text and stops at the first fault:
either the text goes wrong there, or what it says has not the shape.

* `Fault`, `Shape`;
* `Shape.natural`, `flag`, `text`, `textual`, `nullable`, `names`: the shapes of simple values;
* `Field`, `Shape.record`: objects with named fields, or arrays of the fields in their order;
* `Shape.parse`: the value of a whole text.
-/

namespace DelegatedVoting.Json

/-- Why a document is not read as a value. -/
inductive Fault
  /-- The text is no JSON. -/
  | malformed
  /-- The text says something else. -/
  | mismatch
  deriving DecidableEq, Repr

/-- The writing and the reading of the values of a type. -/
structure Shape (α : Type) where
  write : α → Json
  read : Json → Except Fault α

/-- The fault of a document that has not the shape that is asked for. Numbers and texts are read
before they are refused. -/
def refusal : Json → Fault
  | .hole => .malformed
  | .number n => if n.isOutOfRange then .malformed else .mismatch
  | .text pieces => if (textOf? pieces).isSome then .mismatch else .malformed
  | _ => .mismatch

/-- The text that pieces spell. -/
def readPieces (pieces : List Piece) : Except Fault (List Char) :=
  match textOf? pieces with
  | some s => .ok s
  | none => .error .malformed

namespace Shape

variable {α β : Type}

/-- The values of another type that are written like values of this one. -/
def along (f : Shape α) (ahead : α → β) (back : β → α) : Shape β where
  write b := f.write (back b)
  read v := ahead <$> f.read v

/-- The whole numbers below a bound, which is at most `2 ^ 64`. -/
def natural (bound : Nat) : Shape Nat where
  write := ofNat
  read
    | .number n =>
      match n.unsigned? with
      | some m => if m < bound then .ok m else .error .mismatch
      | none => .error (refusal (.number n))
    | v => .error (refusal v)

def word32 : Shape UInt32 := (natural UInt32.size).along UInt32.ofNat UInt32.toNat

def word64 : Shape UInt64 := (natural UInt64.size).along UInt64.ofNat UInt64.toNat

def flag : Shape Bool where
  write := .flag
  read
    | .flag b => .ok b
    | v => .error (refusal v)

/-- The values that are written as texts. -/
def textual (toText : α → String) (ofText : List Char → Option α) : Shape α where
  write a := ofString (toText a)
  read
    | .text pieces => do
      let s ← readPieces pieces
      match ofText s with
      | some a => pure a
      | none => throw .mismatch
    | v => .error (refusal v)

def text : Shape String := textual id fun s => some (String.ofList s)

/-- A value, or nothing. -/
def nullable (f : Shape α) : Shape (Option α) where
  write
    | none => .null
    | some a => f.write a
  read
    | .null => .ok none
    | v => some <$> f.read v

/-- The listed values, written as their names. A name may also be the key of an object that holds
nothing else and says nothing about it. -/
def names [DecidableEq α] (values : List (String × α)) : Shape α where
  write a := ofString ((values.find? (·.2 = a)).elim "" (·.1))
  read v := do
    let pieces ← match v with
      | .text pieces => pure pieces
      | .object [(key, .null)] true => pure key
      | v => throw (refusal v)
    let s ← readPieces pieces
    match values.find? (·.1 = String.ofList s) with
    | some (_, a) => pure a
    | none => throw .mismatch

/-- A value of one type under one key, or a value of another type under another key. -/
def either (leftKey : String) (f : Shape α) (rightKey : String) (g : Shape β) : Shape (α ⊕ β) where
  write
    | .inl a => ofMembers [(leftKey, f.write a)]
    | .inr b => ofMembers [(rightKey, g.write b)]
  read
    | .object ((key, v) :: more) closed => do
      let s ← readPieces key
      let result ← if String.ofList s = leftKey then .inl <$> f.read v
        else if String.ofList s = rightKey then .inr <$> g.read v
        else throw .mismatch
      if more.isEmpty && closed then pure result else throw .malformed
    | .object [] _ => .error .malformed
    | v => .error (refusal v)

end Shape

/-! ### Records -/

/-- A field of a record. -/
structure Field where
  /-- The keys under which the field may stand; it is written under the first one. -/
  keys : List String
  Value : Type
  shape : Shape Value
  /-- The value of a field that an object leaves out, if it may be left out. -/
  absent : Option Value := none
  /-- The value of a field that an array leaves out at its end, if it may be left out. -/
  omitted : Option Value := none

/-- A field that must be given. -/
def Field.required (key : String) {α : Type} (shape : Shape α) : Field :=
  { keys := [key], Value := α, shape }

/-- The values of all the fields. -/
def Values : List Field → Type
  | [] => Unit
  | f :: fs => f.Value × Values fs

/-- The values of the fields that have been read. -/
def Slots : List Field → Type
  | [] => Unit
  | f :: fs => Option f.Value × Slots fs

/-- No field has been read. -/
def Slots.empty : (fs : List Field) → Slots fs
  | [] => ()
  | _ :: fs => (none, Slots.empty fs)

/-- Read the value of the field with the given key, unless there is no such field. A field must
not be given twice. -/
def Slots.fill (key : String) (v : Json) : (fs : List Field) → Slots fs → Except Fault (Slots fs)
  | [], slots => .ok slots
  | f :: fs, (slot, slots) =>
    if f.keys.contains key then
      match slot with
      | some _ => .error .mismatch
      | none => do
        let a ← f.shape.read v
        pure (some a, slots)
    else do
      let slots ← Slots.fill key v fs slots
      pure (slot, slots)

/-- The values of all the fields, where a field that has not been read may have a value of its
own. -/
def Slots.finish : (fs : List Field) → Slots fs → Except Fault (Values fs)
  | [], _ => .ok ()
  | f :: fs, (slot, slots) =>
    match slot <|> f.absent with
    | some a => do
      let rest ← Slots.finish fs slots
      pure (a, rest)
    | none => .error .mismatch

/-- Read the members of an object one after the other. -/
def readMembers (fs : List Field) : Slots fs → List (List Piece × Json) → Except Fault (Slots fs)
  | slots, [] => .ok slots
  | slots, (key, v) :: rest => do
    let s ← readPieces key
    let slots ← Slots.fill (String.ofList s) v fs slots
    readMembers fs slots rest

/-- Read the items of an array as the fields in their order. -/
def readItems : (fs : List Field) → List Json → Bool → Except Fault (Values fs)
  | [], [], true => .ok ()
  | [], _, _ => .error .malformed
  | f :: fs, v :: items, closed => do
    let a ← f.shape.read v
    let rest ← readItems fs items closed
    pure (a, rest)
  | f :: fs, [], true =>
    match f.omitted with
    | some a => do
      let rest ← readItems fs [] true
      pure (a, rest)
    | none => .error .mismatch
  | _ :: _, [], false => .error .malformed

/-- The members that the fields are written as. -/
def writeFields : (fs : List Field) → Values fs → List (String × Json)
  | [], _ => []
  | f :: fs, (a, rest) => (f.keys.headD "", f.shape.write a) :: writeFields fs rest

/-- The records with the given fields. -/
def Shape.record (fs : List Field) : Shape (Values fs) where
  write a := ofMembers (writeFields fs a)
  read
    | .object members closed => do
      let slots ← readMembers fs (Slots.empty fs) members
      if closed then Slots.finish fs slots else throw .malformed
    | .array items closed => readItems fs items closed
    | v => .error (refusal v)

/-- The value that a whole text spells. -/
def Shape.parse {α : Type} (f : Shape α) (s : List Char) : Except Fault α :=
  match ofText? s with
  | some v => f.read v
  | none => .error .malformed

/-- The text of a value. -/
def Shape.print {α : Type} (f : Shape α) (a : α) : List Char := (f.write a).write

end DelegatedVoting.Json
