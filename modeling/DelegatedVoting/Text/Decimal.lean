/-!
# Unsigned decimals

A whole number is read from decimal digits, after one optional plus sign, and refused where
it does not stay below a bound.

* `digit?`: the value of a decimal digit;
* `ofDigits`: the number that digits write;
* `digitsBelow`: the number that digits write, if it is below a bound;
* `readBelow`: the reading of a number below a bound;
* `write`: the digits of a number;
* `ofDigits_toDigits`, `head?_toDigits`: these digits write the number, without a needless zero;
* `Writes`, `readBelow_eq_some_iff`: the texts that write a number, and that these are read.
-/

namespace DelegatedVoting.Text.Decimal

/-- The value of a decimal digit. -/
def digit? (c : Char) : Option Nat :=
  if 48 ≤ c.toNat ∧ c.toNat ≤ 57 then some (c.toNat - 48) else none

/-- Whether a character is a decimal digit. -/
def isDigit (c : Char) : Bool := (digit? c).isSome

/-- The number that digits write, the highest digit first. -/
def ofDigits (s : List Char) : Nat := s.foldl (fun n c => 10 * n + (digit? c).getD 0) 0

/-- The number that digits write behind the number `n`, if it is below `bound`. It is found out as
soon as it is not. -/
def digitsBelow (bound n : Nat) : List Char → Option Nat
  | [] => if n < bound then some n else none
  | c :: rest =>
    let next := 10 * n + (digit? c).getD 0
    if next < bound then digitsBelow bound next rest else none

theorem le_foldl_digits (n : Nat) (s : List Char) :
    n ≤ s.foldl (fun n c => 10 * n + (digit? c).getD 0) n := by
  induction s generalizing n with
  | nil => exact Nat.le_refl n
  | cons c rest ih => exact Nat.le_trans (by omega) (ih (10 * n + (digit? c).getD 0))

theorem digitsBelow_eq (bound n : Nat) (s : List Char) :
    digitsBelow bound n s =
      let m := s.foldl (fun n c => 10 * n + (digit? c).getD 0) n
      if m < bound then some m else none := by
  induction s generalizing n with
  | nil => rfl
  | cons c rest ih =>
    rw [digitsBelow, List.foldl_cons]
    have := le_foldl_digits (10 * n + (digit? c).getD 0) rest
    split
    · exact ih _
    · simp only
      split
      · omega
      · rfl

/-- The digits of a number below a bound are read as that number, and others are not read. -/
theorem digitsBelow_zero (bound : Nat) (s : List Char) :
    digitsBelow bound 0 s = if ofDigits s < bound then some (ofDigits s) else none :=
  digitsBelow_eq bound 0 s

/-- The number below `bound` that a text of digits writes, with an optional plus sign. -/
def readBelow (bound : Nat) (s : List Char) : Option Nat :=
  let digits := match s with
    | '+' :: rest => rest
    | _ => s
  if digits.isEmpty || !digits.all isDigit then none else digitsBelow bound 0 digits

/-- The digits of a number. -/
def write (n : Nat) : List Char := Nat.toDigits 10 n

/-! ### The digits of a number -/

theorem digit?_of_isDigit {c : Char} (h : c.isDigit = true) :
    digit? c = some (c.toNat - '0'.toNat) := by
  have hbounds : 48 ≤ c.toNat ∧ c.toNat ≤ 57 := by
    simpa [Char.isDigit, UInt32.le_iff_toNat_le] using h
  exact if_pos hbounds

theorem isDigit_of_isDigit {c : Char} (h : c.isDigit = true) : isDigit c = true := by
  rw [isDigit, digit?_of_isDigit h]
  rfl

theorem isDigit_iff {c : Char} : isDigit c = true ↔ c.isDigit = true := by
  refine ⟨fun h => ?_, isDigit_of_isDigit⟩
  unfold isDigit digit? at h
  split at h
  · rename_i hbounds
    simpa [Char.isDigit, UInt32.le_iff_toNat_le] using hbounds
  · cases h

theorem foldl_eq_ofDigitChars {s : List Char} (hs : ∀ c ∈ s, c.isDigit = true) (n : Nat) :
    s.foldl (fun n c => 10 * n + (digit? c).getD 0) n = Nat.ofDigitChars 10 s n := by
  induction s generalizing n with
  | nil => rfl
  | cons c s ih =>
    simp only [List.mem_cons, forall_eq_or_imp] at hs
    rw [List.foldl_cons, digit?_of_isDigit hs.1, ih hs.2, Nat.ofDigitChars_cons]
    rfl

theorem isDigit_toDigits (n : Nat) : ∀ c ∈ Nat.toDigits 10 n, c.isDigit = true := fun _ hc =>
  Nat.isDigit_of_mem_toDigits (by decide) (by decide) hc

/-- The digits of a number write it. -/
theorem ofDigits_toDigits (n : Nat) : ofDigits (Nat.toDigits 10 n) = n := by
  rw [ofDigits, foldl_eq_ofDigitChars (isDigit_toDigits n)]
  exact Nat.ofDigitChars_ten_toDigits

/-- The digits of a number begin with a zero only if the number is zero. -/
theorem head?_toDigits {n : Nat} (h : 0 < n) : (Nat.toDigits 10 n).head? ≠ some '0' := by
  induction n using Nat.strongRecOn with
  | ind n ih =>
    by_cases hn : n < 10
    · rw [Nat.toDigits_of_lt_base hn]
      have hall : ∀ n < 10, 0 < n → [n.digitChar].head? ≠ some '0' := by decide
      exact hall n hn h
    · have hhead := ih (n / 10) (by omega) (by omega)
      obtain ⟨c, s, hs⟩ := List.exists_cons_of_ne_nil (Nat.toDigits_ne_nil (n := n / 10) (b := 10))
      rw [Nat.toDigits_of_base_le (by decide) (Nat.not_lt.1 hn), hs]
      rwa [hs] at hhead

/-! ### The texts of a number -/

/-- The text is at least one digit, and the digits have the value. -/
structure AreDigitsOf (n : Nat) (s : List Char) : Prop where
  ne_nil : s ≠ []
  isDigit : ∀ c ∈ s, c.isDigit = true
  value : Nat.ofDigitChars 10 s 0 = n

/-- The texts that write a number: digits, alone or after a plus sign. -/
inductive Writes (n : Nat) : List Char → Prop
  | digits {s : List Char} (h : AreDigitsOf n s) : Writes n s
  | signed {s : List Char} (h : AreDigitsOf n s) : Writes n ('+' :: s)

theorem readDigits_eq_some_iff {bound n : Nat} {s : List Char} :
    (if s.isEmpty || !s.all Decimal.isDigit then none else digitsBelow bound 0 s) = some n ↔
      AreDigitsOf n s ∧ n < bound := by
  by_cases hs : s ≠ [] ∧ ∀ c ∈ s, c.isDigit = true
  · have hvalue : ofDigits s = Nat.ofDigitChars 10 s 0 := foldl_eq_ofDigitChars hs.2 0
    rw [if_neg (by simpa [isDigit_iff] using hs), digitsBelow_zero, hvalue]
    constructor
    · intro h
      split at h
      · rename_i hlt
        obtain rfl := Option.some.inj h
        exact ⟨⟨hs.1, hs.2, rfl⟩, hlt⟩
      · cases h
    · rintro ⟨⟨-, -, rfl⟩, hlt⟩
      exact if_pos hlt
  · rw [if_pos]
    · exact iff_of_false nofun fun h => hs ⟨h.1.ne_nil, h.1.isDigit⟩
    · rw [Bool.or_eq_true, Bool.not_eq_true', List.isEmpty_iff, ← Bool.not_eq_true, List.all_eq_true]
      simpa only [isDigit_iff, Classical.not_and_iff_not_or_not, ne_eq, Decidable.not_not] using hs

/-- **A number below a bound is read from the texts that write it.** -/
theorem readBelow_eq_some_iff {bound n : Nat} {s : List Char} :
    readBelow bound s = some n ↔ Writes n s ∧ n < bound := by
  unfold readBelow
  split
  · rename_i rest
    rw [readDigits_eq_some_iff]
    constructor
    · exact fun h => ⟨.signed h.1, h.2⟩
    · rintro ⟨hwrites, hlt⟩
      cases hwrites with
      | digits h => exact absurd (h.isDigit '+' List.mem_cons_self) (by decide)
      | signed h => exact ⟨h, hlt⟩
  · rename_i hsign
    rw [readDigits_eq_some_iff]
    constructor
    · exact fun h => ⟨.digits h.1, h.2⟩
    · rintro ⟨hwrites, hlt⟩
      cases hwrites with
      | digits h => exact ⟨h, hlt⟩
      | signed h => exact absurd rfl (hsign _)

end DelegatedVoting.Text.Decimal
