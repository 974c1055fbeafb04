import DelegatedVoting.Text.Decimal
import DelegatedVoting.Text.Hex
import DelegatedVoting.Toml.Table

/-!
# TOML scalars

Numbers, truth values and times are words: they hold letters, digits and a few signs, and end where
another character follows. Only a date may be joined to a time by a blank.

* `Scalar.integer?`, `Scalar.isReal`, `Scalar.flag?`: the words that are numbers and truth values;
* `Scalar.isDate`, `Scalar.isTime`, `Scalar.isMoment`: the words that are times;
* `Scalar.ofWord?`: the value of a word;
* `Scalar.read?`: the value at the front.
-/

namespace DelegatedVoting.Toml.Scalar

open DelegatedVoting.Text (Decimal.isDigit Decimal.ofDigits)

/-- Whether a character may stand in a word. -/
def isWordChar (c : Char) : Bool :=
  c.isAlphanum || c = '+' || c = '-' || c = '_' || c = '.' || c = ':'

/-! ### Integers -/

/-- The digits of a number without the underscores, each of which stands between two digits. -/
def ungroup? (isDigit : Char → Bool) : List Char → Option (List Char)
  | [] => none
  | [c] => if isDigit c then some [c] else none
  | c :: '_' :: rest => if isDigit c then (ungroup? isDigit rest).map (c :: ·) else none
  | c :: rest => if isDigit c then (ungroup? isDigit rest).map (c :: ·) else none

/-- The value of a digit below `base`. -/
def digit? (base : Nat) (c : Char) : Option Nat :=
  (Text.Hex.value? c).bind fun n => if n < base then some n else none

/-- The number that grouped digits write. -/
def inBase? (base : Nat) (s : List Char) : Option Nat :=
  (ungroup? (fun c => (digit? base c).isSome) s).map fun ds =>
    ds.foldl (fun n c => base * n + (digit? base c).getD 0) 0

/-- The sign of a number, which may be left out, and what follows it. -/
def sign : List Char → Bool × List Char
  | '-' :: rest => (true, rest)
  | '+' :: rest => (false, rest)
  | rest => (false, rest)

/-- The digits of a decimal number without a needless zero in front. -/
def decimalDigits? (s : List Char) : Option (List Char) :=
  match s with
  | '0' :: _ :: _ => none
  | s => ungroup? Decimal.isDigit s

/-- The number that a word writes in some base, without a limit. -/
def unbounded? (word : List Char) : Option Int :=
  match word with
  | '0' :: 'x' :: rest => (inBase? 16 rest).map Int.ofNat
  | '0' :: 'o' :: rest => (inBase? 8 rest).map Int.ofNat
  | '0' :: 'b' :: rest => (inBase? 2 rest).map Int.ofNat
  | word =>
    let (negative, digits) := sign word
    (decimalDigits? digits).map fun ds =>
      if negative then -(Decimal.ofDigits ds : Int) else Decimal.ofDigits ds

/-- The number of 64 bits that a word writes. -/
def integer? (word : List Char) : Option Int :=
  (unbounded? word).bind fun n =>
    if Int64.minValue.toInt ≤ n ∧ n ≤ Int64.maxValue.toInt then some n else none

/-! ### Numbers with a fraction -/

/-- The exponent that a word writes. -/
def exponent? (s : List Char) : Option Int :=
  let (negative, digits) := sign s
  (ungroup? Decimal.isDigit digits).map fun ds =>
    if negative then -(Decimal.ofDigits ds : Int) else Decimal.ofDigits ds

/-- Whether `m * 10 ^ e` is rounded to a number with 53 significant bits below `2 ^ 1024`. -/
def isFinite (m : Nat) (e : Int) : Bool :=
  let places := (Nat.toDigits 10 m).length + e
  if m = 0 ∨ places ≤ 300 then true
  else if 310 < places then false
  else
    let limit := (Nat.pow 2 54 - 1) * Nat.pow 2 970
    m * Nat.pow 10 e.toNat < limit * Nat.pow 10 (-e).toNat

/-- Whether the number with the given digits before the point, fraction and exponent is
acceptable. A negative number may be of any size. -/
def isRealOf (negative : Bool) (whole : List Char) (fraction exponent : Option (List Char)) :
    Bool :=
  let fractionDigits := fraction.elim (some []) (ungroup? Decimal.isDigit)
  let scale := exponent.elim (some 0) exponent?
  match decimalDigits? whole, fractionDigits, scale with
  | some whole, some fraction, some scale =>
    negative || isFinite (Decimal.ofDigits (whole ++ fraction)) (scale - fraction.length)
  | _, _, _ => false

/-- Whether a word is a number with a fraction or an exponent, or one of the words for what is no
number. -/
def isReal (word : List Char) : Bool :=
  let (negative, body) := sign word
  if body = "inf".toList ∨ body = "nan".toList then true
  else
    let isExponentMark (c : Char) : Bool := c = 'e' || c = 'E'
    let mantissa := body.takeWhile fun c => !isExponentMark c
    let exponent := match body.dropWhile fun c => !isExponentMark c with
      | [] => none
      | _ :: rest => some rest
    let fraction := match mantissa.dropWhile (· ≠ '.') with
      | [] => none
      | _ :: rest => some rest
    (fraction.isSome || exponent.isSome) &&
      isRealOf negative (mantissa.takeWhile (· ≠ '.')) fraction exponent

/-! ### Truth values -/

/-- The truth value that a word names. -/
def flag? (word : List Char) : Option Bool :=
  if word = "true".toList then some true
  else if word = "false".toList then some false
  else none

/-! ### Times -/

/-- The number that a fixed number of digits writes. -/
def fixed? (digits : List Char) : Option Nat :=
  if digits.all Decimal.isDigit then some (Decimal.ofDigits digits) else none

/-- Whether a number of two digits lies between two bounds. -/
def isWithin (low high : Nat) (a b : Char) : Bool :=
  (fixed? [a, b]).any fun n => low ≤ n && n ≤ high

/-- The number of days of a month. -/
def daysOfMonth (year month : Nat) : Nat :=
  if month = 2 then
    if year % 4 = 0 ∧ (year % 100 ≠ 0 ∨ year % 400 = 0) then 29 else 28
  else if month = 4 ∨ month = 6 ∨ month = 9 ∨ month = 11 then 30
  else 31

/-- Whether ten characters are a date. -/
def isDate : List Char → Bool
  | [a, b, c, d, '-', e, f, '-', g, h] =>
    match fixed? [a, b, c, d], fixed? [e, f], fixed? [g, h] with
    | some year, some month, some day =>
      1 ≤ month && month ≤ 12 && 1 ≤ day && day ≤ daysOfMonth year month
    | _, _, _ => false
  | _ => false

/-- What follows a time of the day in front. A minute may have a leap second. -/
def afterTime? : List Char → Option (List Char)
  | a :: b :: ':' :: c :: d :: ':' :: e :: f :: rest =>
    if isWithin 0 23 a b && isWithin 0 59 c d && isWithin 0 60 e f then
      match rest with
      | '.' :: rest =>
        let digits := rest.takeWhile Decimal.isDigit
        if digits.isEmpty then none else some (rest.dropWhile Decimal.isDigit)
      | rest => some rest
    else none
  | _ => none

/-- Whether a text is a distance from the world's time. -/
def isOffset : List Char → Bool
  | ['Z'] => true
  | ['z'] => true
  | [s, a, b, ':', c, d] => (s = '+' || s = '-') && isWithin 0 23 a b && isWithin 0 59 c d
  | _ => false

/-- Whether a text is a time of the day, which may have an offset behind a date. -/
def isTime (offsetAllowed : Bool) (s : List Char) : Bool :=
  match afterTime? s with
  | some [] => true
  | some rest => offsetAllowed && isOffset rest
  | none => false

/-- Whether a word is a date, a time of the day, or both. -/
def isMoment (word : List Char) : Bool :=
  isTime false word || isDate word ||
    (isDate (word.take 10) && match word.drop 10 with
      | c :: rest => (c = 'T' || c = 't') && isTime true rest
      | [] => false)

/-! ### Words -/

/-- The value of a word. -/
def ofWord? (word : List Char) : Option Item :=
  match flag? word with
  | some b => some (.flag b)
  | none =>
    match integer? word with
    | some n => some (.integer n)
    | none =>
      if isReal word then some .real
      else if isMoment word then some .moment
      else none

/-- The value at the front, and what follows it. A date and a time may have a blank between
them. -/
def read? (s : List Char) : Option (Item × List Char) :=
  let word := s.takeWhile isWordChar
  let rest := s.dropWhile isWordChar
  match rest with
  | ' ' :: c :: after =>
    if isDate word && Decimal.isDigit c then
      let time := (c :: after).takeWhile isWordChar
      if isTime true time then some (.moment, (c :: after).dropWhile isWordChar) else none
    else (ofWord? word).map fun v => (v, rest)
  | rest => (ofWord? word).map fun v => (v, rest)

end DelegatedVoting.Toml.Scalar
