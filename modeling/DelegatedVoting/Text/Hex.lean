/-!
# Hexadecimal digits

* `digit`, `value?`: the lower-case digit of a number, and the value of a digit in either case;
* `ofBytes`, `toBytes?`: bytes as pairs of digits.
-/

namespace DelegatedVoting.Text.Hex

/-- The lower-case digit of a number below sixteen. -/
def digit (n : Nat) : Char := if n < 10 then Char.ofNat (48 + n) else Char.ofNat (87 + n)

/-- The value of a digit in either case. -/
def value? (c : Char) : Option Nat :=
  let n := c.toNat
  if 48 ≤ n ∧ n ≤ 57 then some (n - 48)
  else if 97 ≤ n ∧ n ≤ 102 then some (n - 87)
  else if 65 ≤ n ∧ n ≤ 70 then some (n - 55)
  else none

/-- The two digits of a byte. -/
def ofByte (b : UInt8) : List Char := [digit (b.toNat / 16), digit (b.toNat % 16)]

/-- Bytes in digits. -/
def ofBytes (bytes : List UInt8) : List Char := bytes.flatMap ofByte

/-- The bytes that pairs of digits write. -/
def toBytes? : List Char → Option (List UInt8)
  | [] => some []
  | [_] => none
  | h :: l :: rest => do
    let h ← value? h
    let l ← value? l
    let bytes ← toBytes? rest
    pure (UInt8.ofNat (16 * h + l) :: bytes)

theorem value?_digit {n : Nat} (h : n < 16) : value? (digit n) = some n := by
  match n with
  | 0 | 1 | 2 | 3 | 4 | 5 | 6 | 7 | 8 | 9 | 10 | 11 | 12 | 13 | 14 | 15 => decide
  | n + 16 => omega

theorem value?_lt {c : Char} {n : Nat} (h : value? c = some n) : n < 16 := by
  grind [value?]

/-- Bytes written in digits are read back. -/
@[simp] theorem toBytes?_ofBytes (bytes : List UInt8) : toBytes? (ofBytes bytes) = some bytes := by
  induction bytes with
  | nil => rfl
  | cons b bytes ih =>
    have hb : b.toNat < 256 := b.toNat_lt
    have h : 16 * (b.toNat / 16) + b.toNat % 16 = b.toNat := by omega
    simp only [ofBytes, List.flatMap_cons, ofByte, List.cons_append, List.nil_append] at ih ⊢
    simp [toBytes?, value?_digit (show b.toNat / 16 < 16 by omega),
      value?_digit (show b.toNat % 16 < 16 by omega), ih, h, -UInt8.ofNat_add, -UInt8.ofNat_mul]

/-- A byte takes two digits. -/
@[simp] theorem length_ofBytes (bytes : List UInt8) :
    (ofBytes bytes).length = 2 * bytes.length := by
  induction bytes with
  | nil => rfl
  | cons b bytes ih => simp only [ofBytes, List.flatMap_cons] at ih ⊢; simp [ofByte, ih]; omega

theorem length_of_toBytes? {s : List Char} {bytes : List UInt8} (h : toBytes? s = some bytes) :
    s.length = 2 * bytes.length := by
  fun_induction toBytes? s generalizing bytes with
  | case1 => simp_all
  | case2 => simp at h
  | case3 a b rest ih =>
    simp only [Option.bind_eq_bind, Option.bind_eq_some_iff, Option.pure_def,
      Option.some.injEq] at h
    obtain ⟨_, _, _, _, tail, ht, rfl⟩ := h
    simp [ih ht]; omega

end DelegatedVoting.Text.Hex
