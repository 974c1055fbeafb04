import DelegatedVoting.Bytes
import DelegatedVoting.Text.Hex
import DelegatedVoting.Text.Utf8

/-!
# Percent encoding

In an address a byte may be written as a percent sign and two hexadecimal digits. A percent sign
that is not followed by two digits stands for itself.

* `decode`: the bytes that an address spells;
* `decodeText`: the text that an address spells.
-/

namespace DelegatedVoting.Text.Percent

/-- The value of a byte that is a hexadecimal digit. -/
def digit? (b : UInt8) : Option Nat := Hex.value? (Char.ofNat b.toNat)

/-- The bytes that the bytes of an address spell. -/
def decode : Bytes → Bytes
  | 0x25 :: h :: l :: rest =>
    match digit? h, digit? l with
    | some high, some low => UInt8.ofNat (16 * high + low) :: decode rest
    | _, _ => 0x25 :: decode (h :: l :: rest)
  | b :: rest => b :: decode rest
  | [] => []

/-- The text that an address spells, if it spells one. -/
def decodeText (s : List Char) : Except Utf8.Fault String :=
  Utf8.decode (decode (Utf8.encode (String.ofList s)))

end DelegatedVoting.Text.Percent
