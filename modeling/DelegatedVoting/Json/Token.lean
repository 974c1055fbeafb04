import DelegatedVoting.Text.Decimal
import DelegatedVoting.Text.Hex

/-!
# JSON tokens

A text is cut into tokens from the front. The text may have places where no character could be
read; they are harmless inside a quoted text that nobody asks for, and end the tokens elsewhere.

* `Glyph`: a character, or a place where none could be read;
* `Piece`: a part of a quoted text, and `textOf?`: the text that pieces spell;
* `Numeral`: a number as it is written, with `Numeral.isOutOfRange` and `Numeral.unsigned?`;
* `Token`, `tokens`: the tokens of a text, up to the first place that starts none.
-/

namespace DelegatedVoting.Json

open DelegatedVoting.Text (Decimal.isDigit)

/-- A character, or a place where no character could be read. -/
abbrev Glyph := Option Char

/-! ### Quoted text -/

/-- A part of a quoted text: a character of its own, or the number of a UTF-16 unit. -/
inductive Piece
  | plain (g : Glyph)
  | unit (n : Nat)
  deriving DecidableEq, Repr

/-- The character that a pair of surrogate units stands for. -/
def joinSurrogates (high low : Nat) : Char :=
  Char.ofNat (0x10000 + (high - 0xD800) * 0x400 + (low - 0xDC00))

/-- Reading `textOf?` behind the characters already read, last one first. -/
def textOnto (read : List Char) : List Piece → Option (List Char)
  | [] => some read.reverse
  | .plain (some c) :: rest => textOnto (c :: read) rest
  | .plain none :: _ => none
  | .unit n :: .unit m :: rest =>
    if n < 0xD800 ∨ 0xDFFF < n then textOnto (Char.ofNat n :: read) (.unit m :: rest)
    else if n ≤ 0xDBFF ∧ 0xDC00 ≤ m ∧ m ≤ 0xDFFF then textOnto (joinSurrogates n m :: read) rest
    else none
  | .unit n :: rest =>
    if n < 0xD800 ∨ 0xDFFF < n then textOnto (Char.ofNat n :: read) rest else none

/-- The text that pieces spell. Surrogate units must come in pairs, and every place must hold a
character. -/
def textOf? (pieces : List Piece) : Option (List Char) := textOnto [] pieces

/-- The pieces of a text. -/
def pieces (s : List Char) : List Piece := s.map fun c => .plain (some c)

/-- The character that a backslash and a letter stand for. -/
def unescape? : Char → Option Char
  | '"' => some '"'
  | '\\' => some '\\'
  | '/' => some '/'
  | 'b' => some '\x08'
  | 'f' => some '\x0c'
  | 'n' => some '\n'
  | 'r' => some '\r'
  | 't' => some '\t'
  | _ => none

/-- The value of a place that holds a hexadecimal digit. -/
def hexDigit? (g : Glyph) : Option Nat := g.bind Text.Hex.value?

/-- The rest of a quoted text behind the pieces already read, last one first, and what follows the
closing quote. -/
def quoted (read : List Piece) : List Glyph → Option (List Piece × List Glyph)
  | [] => none
  | some '"' :: rest => some (read.reverse, rest)
  | some '\\' :: some 'u' :: a :: b :: c :: d :: rest =>
    match hexDigit? a, hexDigit? b, hexDigit? c, hexDigit? d with
    | some a, some b, some c, some d =>
      quoted (.unit (a * 4096 + b * 256 + c * 16 + d) :: read) rest
    | _, _, _, _ => none
  | some '\\' :: some e :: rest =>
    match unescape? e with
    | some c => quoted (.plain (some c) :: read) rest
    | none => none
  | some '\\' :: _ => none
  | some c :: rest => if c.toNat < 32 then none else quoted (.plain (some c) :: read) rest
  | none :: rest => quoted (.plain none :: read) rest

theorem length_quoted_lt {read : List Piece} {s : List Glyph} {r : List Piece × List Glyph}
    (h : quoted read s = some r) : r.2.length < s.length := by
  fun_induction quoted read s <;> grind

/-! ### Numbers -/

/-- A number as it is written. -/
structure Numeral where
  negative : Bool
  /-- The digits before the point; there is at least one. -/
  whole : List Char
  /-- The digits after the point, if there is a point. -/
  fraction : Option (List Char)
  /-- Whether the exponent is negative, and its digits, if there is an exponent. -/
  exponent : Option (Bool × List Char)
  deriving DecidableEq, Repr

/-- Reading `digits` behind the digits already read, last one first. -/
def digitsOnto (read : List Char) : List Glyph → List Char × List Glyph
  | some c :: rest =>
    if Decimal.isDigit c then digitsOnto (c :: read) rest else (read.reverse, some c :: rest)
  | rest => (read.reverse, rest)

/-- The digits at the front, and what follows them. -/
def digits (s : List Glyph) : List Char × List Glyph := digitsOnto [] s

theorem length_digitsOnto (read : List Char) (s : List Glyph) :
    (digitsOnto read s).1.length + (digitsOnto read s).2.length = read.length + s.length := by
  fun_induction digitsOnto read s with
  | case1 read c rest _ ih =>
    rw [ih, List.length_cons, List.length_cons]
    omega
  | case2 read c rest => rw [List.length_reverse]
  | case3 read rest => rw [List.length_reverse]

theorem length_digits_le (s : List Glyph) : (digits s).2.length ≤ s.length := by
  have := length_digitsOnto [] s
  simp only [digits, List.length_nil] at this ⊢
  omega

/-- The point and the digits after it, if there is a point. -/
def fraction (s : List Glyph) : Option (Option (List Char) × List Glyph) :=
  match s with
  | some '.' :: rest =>
    match digits rest with
    | ([], _) => none
    | (ds, rest) => some (some ds, rest)
  | rest => some (none, rest)

/-- The sign in front of an exponent. -/
def exponentSign : List Glyph → Bool × List Glyph
  | some '-' :: rest => (true, rest)
  | some '+' :: rest => (false, rest)
  | rest => (false, rest)

/-- The sign and the digits of an exponent. -/
def exponentDigits (s : List Glyph) : Option (Option (Bool × List Char) × List Glyph) :=
  match digits (exponentSign s).2 with
  | ([], _) => none
  | (ds, rest) => some (some ((exponentSign s).1, ds), rest)

/-- The exponent, if there is one. -/
def exponent (s : List Glyph) : Option (Option (Bool × List Char) × List Glyph) :=
  match s with
  | some 'e' :: rest => exponentDigits rest
  | some 'E' :: rest => exponentDigits rest
  | rest => some (none, rest)

/-- The number at the front: digits without a needless zero in front, a fraction, an exponent. -/
def numeral (negative : Bool) (s : List Glyph) : Option (Numeral × List Glyph) :=
  match digits s with
  | ([], _) => none
  | ('0' :: _ :: _, _) => none
  | (whole, rest) =>
    match fraction rest with
    | none => none
    | some (fraction, rest) =>
      match exponent rest with
      | none => none
      | some (exponent, rest) => some (⟨negative, whole, fraction, exponent⟩, rest)

theorem length_fraction_le {s : List Glyph} {r : Option (List Char) × List Glyph}
    (h : fraction s = some r) : r.2.length ≤ s.length := by
  unfold fraction at h
  split at h
  · rename_i rest
    have := length_digits_le rest
    split at h <;> grind
  · grind

theorem length_exponentDigits_le {s : List Glyph} {r : Option (Bool × List Char) × List Glyph}
    (h : exponentDigits s = some r) : r.2.length ≤ s.length := by
  have hsign : (exponentSign s).2.length ≤ s.length := by
    unfold exponentSign; split <;> simp
  have hread : (digits (exponentSign s).2).2.length ≤ s.length :=
    Nat.le_trans (length_digits_le _) hsign
  unfold exponentDigits at h
  split at h <;> grind

theorem length_exponent_le {s : List Glyph} {r : Option (Bool × List Char) × List Glyph}
    (h : exponent s = some r) : r.2.length ≤ s.length := by
  unfold exponent at h
  split at h
  · exact Nat.le_succ_of_le (length_exponentDigits_le h)
  · exact Nat.le_succ_of_le (length_exponentDigits_le h)
  · grind

theorem length_numeral_lt {negative : Bool} {s : List Glyph} {r : Numeral × List Glyph}
    (h : numeral negative s = some r) : r.2.length < s.length := by
  have hd : (digits s).1.length + (digits s).2.length = s.length := by
    have := length_digitsOnto [] s
    simpa [digits] using this
  unfold numeral at h
  split at h
  · cases h
  · cases h
  · rename_i whole rest hne _ heq
    rw [heq] at hd
    have hpos : whole.length ≠ 0 := fun h0 => hne (List.length_eq_zero_iff.1 h0)
    split at h
    · cases h
    · rename_i hf
      have := length_fraction_le hf
      split at h
      · cases h
      · rename_i he
        have := length_exponent_le he
        grind

/-- Keep the highest digits whose number fits 64 bits, and count the digits that are left. -/
def leading (n dropped : Nat) : List Char → Nat × Nat
  | [] => (n, dropped)
  | c :: rest =>
    let next := 10 * n + (c.toNat - 48)
    if next < UInt64.size then leading next dropped rest else (n, dropped + (c :: rest).length)

/-- The number that digits write, if it fits 64 bits. -/
def word? (ds : List Char) : Option Nat :=
  match leading 0 0 ds with
  | (n, 0) => some n
  | _ => none

/-- The nearest number with 53 significant bits, the even one of two. -/
def roundTo53 (n : Nat) : Nat :=
  let shift := n.log2 + 1 - 53
  let unit := Nat.pow 2 shift
  let q := n / unit
  let r := n % unit
  if 2 * r < unit ∨ (2 * r = unit ∧ q % 2 = 0) then q * unit else (q + 1) * unit

/-- Whether the number is beyond the numbers with 53 significant bits below `2 ^ 1024`. Up to 64
bits of the digits count, they are rounded, and so are the power of ten and the product. An exponent
that does not fit 64 bits is as good as the first one of these. -/
def Numeral.isOutOfRange (n : Numeral) : Bool :=
  let fraction := n.fraction.getD []
  let (m, dropped) := leading 0 0 n.whole
  let (m, unused) := leading m 0 fraction
  let written : Int := match n.exponent with
    | none => 0
    | some (negative, ds) =>
      let e : Nat := (word? ds).getD UInt64.size
      if negative then -e else e
  let scale : Int := written + dropped + unused - fraction.length
  if m = 0 ∨ scale < 0 then false
  else if 308 < scale then true
  else Nat.pow 2 1024 ≤ roundTo53 (roundTo53 m * roundTo53 (Nat.pow 10 scale.toNat))

/-- The value of a number that is written as digits alone and fits 64 bits. -/
def Numeral.unsigned? (n : Numeral) : Option Nat :=
  if n.negative ∨ n.fraction.isSome ∨ n.exponent.isSome then none else word? n.whole

/-- A number in digits. -/
def Numeral.ofNat (n : Nat) : Numeral := ⟨false, Nat.toDigits 10 n, none, none⟩

/-! ### Tokens -/

/-- The smallest parts of a text that mean something. -/
inductive Token
  | openBrace
  | closeBrace
  | openBracket
  | closeBracket
  | comma
  | colon
  | null
  | flag (b : Bool)
  | number (n : Numeral)
  | text (pieces : List Piece)
  /-- The text cannot be read from here on. -/
  | malformed
  deriving DecidableEq, Repr

/-- What stands between tokens. -/
def isSpace (c : Char) : Bool := c == ' ' || c == '\n' || c == '\t' || c == '\r'

/-- Reading `tokens` behind the tokens already read, last one first. -/
def tokensOnto (read : List Token) (s : List Glyph) : List Token :=
  match s with
  | [] => read.reverse
  | none :: _ => (.malformed :: read).reverse
  | some '{' :: rest => tokensOnto (.openBrace :: read) rest
  | some '}' :: rest => tokensOnto (.closeBrace :: read) rest
  | some '[' :: rest => tokensOnto (.openBracket :: read) rest
  | some ']' :: rest => tokensOnto (.closeBracket :: read) rest
  | some ',' :: rest => tokensOnto (.comma :: read) rest
  | some ':' :: rest => tokensOnto (.colon :: read) rest
  | some 'n' :: some 'u' :: some 'l' :: some 'l' :: rest => tokensOnto (.null :: read) rest
  | some 't' :: some 'r' :: some 'u' :: some 'e' :: rest => tokensOnto (.flag true :: read) rest
  | some 'f' :: some 'a' :: some 'l' :: some 's' :: some 'e' :: rest =>
    tokensOnto (.flag false :: read) rest
  | some '"' :: rest =>
    match _h : quoted [] rest with
    | some (pieces, rest) => tokensOnto (.text pieces :: read) rest
    | none => (.malformed :: read).reverse
  | some '-' :: rest =>
    match _h : numeral true rest with
    | some (n, rest) => tokensOnto (.number n :: read) rest
    | none => (.malformed :: read).reverse
  | some c :: rest =>
    if isSpace c then tokensOnto read rest
    else
      match _h : numeral false (some c :: rest) with
      | some (n, rest) => tokensOnto (.number n :: read) rest
      | none => (.malformed :: read).reverse
termination_by s.length
decreasing_by
  all_goals first
    | (have hlt := length_quoted_lt _h; simp only [List.length_cons] at *; omega)
    | (have hlt := length_numeral_lt _h; simp only [List.length_cons] at *; omega)
    | (simp only [List.length_cons]; omega)

/-- The tokens of a text. -/
def tokens (s : List Glyph) : List Token := tokensOnto [] s

end DelegatedVoting.Json
