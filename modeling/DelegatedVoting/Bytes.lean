/-!
# Byte strings

Whole numbers as bytes, in either byte order, and the subtree of a byte string in the
lexicographic order.

* `Bytes`: byte strings, ordered lexicographically;
* `bigEndian`, `littleEndian` and their readings `ofBigEndian`, `ofLittleEndian`;
* `Bytes.successor?`: the least byte string above all the extensions of a given one.
-/

namespace DelegatedVoting

/-- A byte string. The order is lexicographic. -/
abbrev Bytes := List UInt8

namespace Bytes

/-- The lowest `width` bytes of a number, the lowest byte first. -/
def littleEndian : (width : Nat) → Nat → Bytes
  | 0, _ => []
  | width + 1, n => UInt8.ofNat n :: littleEndian width (n / 256)

/-- The number that bytes write, the lowest byte first. -/
def ofLittleEndian : Bytes → Nat
  | [] => 0
  | b :: bytes => b.toNat + 256 * ofLittleEndian bytes

/-- The lowest `width` bytes of a number, the highest byte first. -/
def bigEndian (width n : Nat) : Bytes := (littleEndian width n).reverse

/-- The number that bytes write, the highest byte first. -/
def ofBigEndian (bytes : Bytes) : Nat := ofLittleEndian bytes.reverse

/-- The least byte string above every extension of `bytes`: the last byte that is not the
largest one grows by one, and what follows it is dropped. There is none if every byte is the
largest one. -/
def successor? : Bytes → Option Bytes
  | [] => none
  | b :: bytes =>
    match successor? bytes with
    | some next => some (b :: next)
    | none => if b = 0xFF then none else some [b + 1]

/-! ### Widths and reading back -/

@[simp] theorem length_littleEndian (width n : Nat) : (littleEndian width n).length = width := by
  induction width generalizing n with
  | zero => rfl
  | succ width ih => simp [littleEndian, ih]

@[simp] theorem length_bigEndian (width n : Nat) : (bigEndian width n).length = width := by
  simp [bigEndian]

/-- The bytes of the number that bytes write are those bytes. -/
@[simp] theorem littleEndian_ofLittleEndian (bytes : Bytes) :
    littleEndian bytes.length (ofLittleEndian bytes) = bytes := by
  induction bytes with
  | nil => rfl
  | cons b bytes ih =>
    have hb : b.toNat < 256 := b.toNat_lt
    have hdiv : (b.toNat + 256 * ofLittleEndian bytes) / 256 = ofLittleEndian bytes := by omega
    have hmod : UInt8.ofNat (b.toNat + 256 * ofLittleEndian bytes) = b := by
      apply UInt8.toNat_inj.1
      simp only [UInt8.toNat_ofNat']
      omega
    rw [ofLittleEndian, List.length_cons, littleEndian, hdiv, ih, hmod]

@[simp] theorem bigEndian_ofBigEndian (bytes : Bytes) :
    bigEndian bytes.length (ofBigEndian bytes) = bytes := by
  have := littleEndian_ofLittleEndian bytes.reverse
  rw [List.length_reverse] at this
  simp [ofBigEndian, bigEndian, this]

end Bytes

end DelegatedVoting
