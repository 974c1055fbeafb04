import DelegatedVoting.Text.Decimal

/-!
# Shortest decimals

A number that is stored with 53 bits is written with the fewest decimal digits that are read back
as the same number. Of two such decimals the nearer one is taken, and the larger one if they are
equally near. No exponent is written.

* `Binary`: a positive number `m * 2 ^ q` with its neighbours;
* `Rounded`: a number `c * 10 ^ k`;
* `Binary.nearestOn?`: the number `c * 10 ^ k` for a given `k`, if it is read back;
* `Binary.shortest`: the one with the largest `k`;
* `write`: the decimal of a stored number.
-/

namespace DelegatedVoting.Text.Shortest

/-- The positive number `mantissa * 2 ^ exponent`. -/
structure Binary where
  mantissa : Nat
  exponent : Int
  /-- Whether the number below is only half as far away as the number above. -/
  isLowest : Bool
  deriving DecidableEq, Repr

/-- The number `coefficient * 10 ^ exponent`. -/
structure Rounded where
  coefficient : Nat
  exponent : Int
  deriving DecidableEq, Repr

namespace Binary

/-- Quarters of the last place: the lower end of what is rounded to the number. -/
def low (b : Binary) : Nat := 4 * b.mantissa - (if b.isLowest then 1 else 2)

/-- Quarters of the last place: the upper end of what is rounded to the number. -/
def high (b : Binary) : Nat := 4 * b.mantissa + 2

/-- The factors that turn quarters of the last place and multiples of `10 ^ k` into multiples of
one unit. -/
def units (b : Binary) (k : Int) : Nat × Nat :=
  let two := b.exponent - 2
  (Nat.pow 2 two.toNat * Nat.pow 10 (-k).toNat, Nat.pow 2 (-two).toNat * Nat.pow 10 k.toNat)

/-- Whether `x` units are rounded to the number. The ends belong to an even number. -/
def rounds (b : Binary) (quarter x : Nat) : Bool :=
  if b.mantissa % 2 = 0 then b.low * quarter ≤ x && x ≤ b.high * quarter
  else b.low * quarter < x && x < b.high * quarter

/-- The multiple of `10 ^ k` nearest to the number, if it is rounded to the number. -/
def nearestOn? (b : Binary) (k : Int) : Option Rounded :=
  let (quarter, step) := b.units k
  let value := 4 * b.mantissa * quarter
  let c := value / step
  let below := b.rounds quarter (c * step)
  let above := b.rounds quarter ((c + 1) * step)
  if above && (!below || step ≤ 2 * (value - c * step)) then some ⟨c + 1, k⟩
  else if below then some ⟨c, k⟩
  else none

/-- A power of ten above the number. -/
def ceiling (b : Binary) : Int :=
  let bits : Int := b.exponent + (b.mantissa.log2 + 1 : Nat)
  if 0 ≤ bits then 31 * bits / 100 + 1 else 30 * bits / 100 + 1

/-- The decimal with the fewest digits that is rounded to the number. -/
def shortest (b : Binary) : Rounded :=
  ((List.range 40).findSome? fun (i : Nat) => b.nearestOn? (b.ceiling - i)).getD ⟨0, 0⟩

end Binary

/-- The digits of a number, with a point among them or zeros around them where they are needed. -/
def Rounded.write (r : Rounded) : List Char :=
  let digits := Decimal.write r.coefficient
  if 0 ≤ r.exponent then digits ++ List.replicate r.exponent.toNat '0'
  else
    let places := (-r.exponent).toNat
    if places < digits.length then
      digits.take (digits.length - places) ++ '.' :: digits.drop (digits.length - places)
    else '0' :: '.' :: List.replicate (places - digits.length) '0' ++ digits

/-- The number that a word of 64 bits stores, apart from the sign, unless it is zero or not
finite. -/
def binary? (word : Nat) : Option Binary :=
  let scale : Nat := word / Nat.pow 2 52 % Nat.pow 2 11
  let fraction : Nat := word % Nat.pow 2 52
  if scale = 0 then
    if fraction = 0 then none else some ⟨fraction, -1074, false⟩
  else some ⟨fraction + Nat.pow 2 52, (scale : Int) - 1075, fraction = 0 && 1 < scale⟩

/-- The decimal of a finite number. -/
def write (x : Float) : String :=
  let word := x.toBits.toNat
  let digits := (binary? word).elim ['0'] fun b => b.shortest.write
  String.ofList (if Nat.pow 2 63 ≤ word then '-' :: digits else digits)

end DelegatedVoting.Text.Shortest
