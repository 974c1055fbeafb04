import DelegatedVoting.Text.Unprintable

/-!
# Quoted text

A text between quotes, in which every character can be seen: a quote and a backslash follow a
backslash, and a character without a picture is named by its number.

* `escape`, `quote`.
-/

namespace DelegatedVoting.Text.Quoted

/-- The number of a character in hexadecimal digits. -/
def escapeNumber (c : Char) : List Char := "\\u\x7b".toList ++ Nat.toDigits 16 c.toNat ++ ['}']

/-- A character of a quoted text. -/
def escape (c : Char) : List Char :=
  match c with
  | '\x00' => ['\\', '0']
  | '\t' => ['\\', 't']
  | '\n' => ['\\', 'n']
  | '\r' => ['\\', 'r']
  | '"' => ['\\', '"']
  | '\\' => ['\\', '\\']
  | c => if isPrintable c then [c] else escapeNumber c

/-- A text between quotes. -/
def quote (s : List Char) : List Char := '"' :: s.flatMap escape ++ ['"']

end DelegatedVoting.Text.Quoted
