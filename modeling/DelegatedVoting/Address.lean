import DelegatedVoting.Text.Decimal
import DelegatedVoting.Text.Hex

/-!
# Network addresses

A host is named by four numbers below 256 with points between them, or by eight numbers below
65536 in hexadecimal digits with colons between them, where a row of zeros may be left out once and
the last two numbers may be written as four.

* `Host`, `Host.read?`, `Host.write`: hosts, and their written form, which is unique;
* `Address`, `Address.write`: a host and a port.
-/

namespace DelegatedVoting

/-- The name of a host. -/
inductive Host
  | short (a b c d : UInt8)
  /-- Eight groups. -/
  | long (groups : List UInt16)
  deriving DecidableEq, Repr

namespace Host

/-! ### Reading -/

/-- A number below 256 at the front, without a needless zero. -/
def octet? (s : List Char) : Option (UInt8 × List Char) :=
  let digits := s.takeWhile Text.Decimal.isDigit
  let n := Text.Decimal.ofDigits digits
  let padded := digits.head? = some '0' && 1 < digits.length
  if digits.isEmpty || 3 < digits.length || padded || 255 < n
  then none
  else some (UInt8.ofNat n, s.dropWhile Text.Decimal.isDigit)

/-- The text behind a character. -/
def after? (c : Char) : List Char → Option (List Char)
  | d :: rest => if d = c then some rest else none
  | [] => none

/-- Four numbers with points between them. -/
def short? (s : List Char) : Option ((UInt8 × UInt8 × UInt8 × UInt8) × List Char) := do
  let (a, s) ← octet? s
  let (b, s) ← octet? (← after? '.' s)
  let (c, s) ← octet? (← after? '.' s)
  let (d, s) ← octet? (← after? '.' s)
  pure ((a, b, c, d), s)

/-- A group of up to four hexadecimal digits at the front. -/
def group? (s : List Char) : Option (UInt16 × List Char) :=
  let isDigit (c : Char) : Bool := (Text.Hex.value? c).isSome
  let digits := s.takeWhile isDigit
  if digits.isEmpty || 4 < digits.length then none
  else some (UInt16.ofNat (digits.foldl (fun n c => 16 * n + (Text.Hex.value? c).getD 0) 0),
    s.dropWhile isDigit)

/-- Groups at the front. -/
structure Groups where
  groups : List UInt16
  /-- Whether the last two were written as four numbers. -/
  endsShort : Bool
  rest : List Char

/-- As many groups as there are, up to `room`, with colons between them. -/
def groups (first : Bool) : (room : Nat) → List Char → Groups
  | 0, s => ⟨[], false, s⟩
  | room + 1, s =>
    let start := if first then some s else after? ':' s
    match (if room = 0 then none else start.bind short?) with
    | some ((a, b, c, d), rest) =>
      ⟨[UInt16.ofNat (256 * a.toNat + b.toNat), UInt16.ofNat (256 * c.toNat + d.toNat)], true, rest⟩
    | none =>
      match start.bind group? with
      | some (g, rest) =>
        let more := groups false room rest
        { more with groups := g :: more.groups }
      | none => ⟨[], false, s⟩

/-- Eight groups, of which a row of zeros may be left out between two colons. -/
def long? (s : List Char) : Option (List UInt16 × List Char) :=
  let front := groups true 8 s
  if front.groups.length = 8 then some (front.groups, front.rest)
  else if front.endsShort then none
  else match front.rest with
    | ':' :: ':' :: rest =>
      let back := groups true (7 - front.groups.length) rest
      some (front.groups ++ List.replicate (8 - front.groups.length - back.groups.length) 0 ++
        back.groups, back.rest)
    | _ => none

/-- The host that a text names. -/
def read? (text : String) : Option Host :=
  let s := text.toList
  match short? s with
  | some ((a, b, c, d), rest) => if rest.isEmpty then some (.short a b c d) else none
  | none =>
    match long? s with
    | some (gs, []) => some (.long gs)
    | _ => none

/-! ### Writing -/

/-- Four numbers with points between them. -/
def writeShort (a b c d : UInt8) : String :=
  ".".intercalate ([a, b, c, d].map fun n => toString n.toNat)

/-- Groups with colons between them. -/
def writeGroups (gs : List UInt16) : String :=
  ":".intercalate (gs.map fun g => String.ofList (Nat.toDigits 16 g.toNat))

/-- The number of zeros in front. -/
def zeros (gs : List UInt16) : Nat := (gs.takeWhile (· = 0)).length

/-- Where the first of the longest rows of zeros starts, and its length. -/
def longestZeros (gs : List UInt16) : Nat × Nat :=
  (List.range gs.length).foldl
    (fun best i => if best.2 < zeros (gs.drop i) then (i, zeros (gs.drop i)) else best) (0, 0)

/-- The written form of a host. The first of the longest rows of at least two zeros is left out. -/
def write : Host → String
  | .short a b c d => writeShort a b c d
  | .long [0, 0, 0, 0, 0, 0xFFFF, g, h] =>
    "::ffff:" ++ writeShort (UInt8.ofNat (g.toNat / 256)) (UInt8.ofNat g.toNat)
      (UInt8.ofNat (h.toNat / 256)) (UInt8.ofNat h.toNat)
  | .long gs =>
    let (start, length) := longestZeros gs
    if length < 2 then writeGroups gs
    else writeGroups (gs.take start) ++ "::" ++ writeGroups (gs.drop (start + length))

end Host

/-- A host and a port. -/
structure Address where
  host : Host
  port : UInt16
  deriving DecidableEq, Repr

/-- The written form of an address. -/
def Address.write (a : Address) : String :=
  (match a.host with
    | .short .. => a.host.write
    | .long _ => "[" ++ a.host.write ++ "]") ++ ":" ++ toString a.port.toNat

end DelegatedVoting
