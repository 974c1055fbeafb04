/-!
# UTF-8

Text as bytes. A byte string that is no text has a first fault: the place where decoding
stops, and the number of bytes there that no character starts with, or the news that the
bytes end inside a character.

* `encode`, `decode`: the bytes of a text, and the text of bytes;
* `front`: what stands at the front of a byte string;
* `firstFault`: the place and the kind of the first fault;
* `glyphs`: the characters of any byte string, with a mark in the place of each fault;
* `width`, `dropBytes?`, `takeBytes?`: places in a text, counted in bytes.
-/

namespace DelegatedVoting.Text.Utf8

/-- What stands at the front of a byte string. -/
inductive Front
  /-- A character, written in `width` bytes. -/
  | char (c : Char) (width : Nat)
  /-- Bytes that start no character; `width` of them are to be skipped. -/
  | broken (width : Nat)
  /-- The start of a character whose last bytes are missing. -/
  | incomplete
  deriving DecidableEq, Repr

/-- The bytes after the first one of a character. -/
def isContinuation (b : UInt8) : Bool := 0x80 ≤ b && b ≤ 0xBF

/-- The second bytes that the first byte of a longer character admits. -/
def admitsSecond (first second : UInt8) : Bool :=
  if first == 0xE0 then 0xA0 ≤ second && second ≤ 0xBF
  else if first == 0xED then 0x80 ≤ second && second ≤ 0x9F
  else if first == 0xF0 then 0x90 ≤ second && second ≤ 0xBF
  else if first == 0xF4 then 0x80 ≤ second && second ≤ 0x8F
  else isContinuation second

/-- The low six bits of a continuation byte. -/
def payload (b : UInt8) : Nat := b.toNat % 64

/-- What the byte `b`, followed by the bytes `rest`, starts. -/
def front (b : UInt8) (rest : List UInt8) : Front :=
  if b < 0x80 then .char (Char.ofNat b.toNat) 1
  else if 0xC2 ≤ b && b ≤ 0xDF then
    match rest with
    | [] => .incomplete
    | c :: _ =>
      if isContinuation c then .char (Char.ofNat (b.toNat % 32 * 64 + payload c)) 2 else .broken 1
  else if 0xE0 ≤ b && b ≤ 0xEF then
    match rest with
    | [] => .incomplete
    | c :: rest =>
      if admitsSecond b c then
        match rest with
        | [] => .incomplete
        | d :: _ =>
          if isContinuation d then
            .char (Char.ofNat (b.toNat % 16 * 4096 + payload c * 64 + payload d)) 3
          else .broken 2
      else .broken 1
  else if 0xF0 ≤ b && b ≤ 0xF4 then
    match rest with
    | [] => .incomplete
    | c :: rest =>
      if admitsSecond b c then
        match rest with
        | [] => .incomplete
        | d :: rest =>
          if isContinuation d then
            match rest with
            | [] => .incomplete
            | e :: _ =>
              if isContinuation e then
                .char (Char.ofNat
                  (b.toNat % 8 * 262144 + payload c * 4096 + payload d * 64 + payload e)) 4
              else .broken 3
          else .broken 2
      else .broken 1
  else .broken 1

/-- The first place of a byte string that is no text. -/
structure Fault where
  /-- The number of bytes before the fault, all of them good. -/
  index : Nat
  /-- The bytes to skip, or nothing where the bytes end inside a character. -/
  width : Option Nat
  deriving DecidableEq, Repr

/-- The report of a fault. -/
def Fault.message (f : Fault) : String :=
  match f.width with
  | some n => s!"invalid utf-8 sequence of {n} bytes from index {f.index}"
  | none => s!"incomplete utf-8 byte sequence from index {f.index}"

/-- The first fault at or after the byte number `index`. -/
def firstFaultFrom (index : Nat) : List UInt8 → Option Fault
  | [] => none
  | b :: rest =>
    match front b rest with
    | .char _ width => firstFaultFrom (index + width) (rest.drop (width - 1))
    | .broken width => some ⟨index, some width⟩
    | .incomplete => some ⟨index, none⟩
termination_by bytes => bytes.length
decreasing_by simp only [List.length_drop, List.length_cons]; omega

/-- The first fault of a byte string, if it has one. -/
def firstFault (bytes : List UInt8) : Option Fault := firstFaultFrom 0 bytes

/-- The bytes of a text. -/
def encode (s : String) : List UInt8 := s.toByteArray.data.toList

/-- The text that bytes write, or the first fault. -/
def decode (bytes : List UInt8) : Except Fault String :=
  match String.fromUTF8? ⟨bytes.toArray⟩ with
  | some s => .ok s
  | none => .error ((firstFault bytes).getD ⟨0, none⟩)

/-- Reading `glyphs` with the characters already read, last one first. -/
def glyphsOnto (read : List (Option Char)) : List UInt8 → List (Option Char)
  | [] => read.reverse
  | b :: rest =>
    match front b rest with
    | .char c width => glyphsOnto (some c :: read) (rest.drop (width - 1))
    | .broken width => glyphsOnto (none :: read) (rest.drop (width - 1))
    | .incomplete => (none :: read).reverse
termination_by bytes => bytes.length
decreasing_by all_goals simp only [List.length_drop, List.length_cons]; omega

/-- The characters of a byte string, where `none` marks bytes that write no character. -/
def glyphs (bytes : List UInt8) : List (Option Char) := glyphsOnto [] bytes

/-- The text of a byte string, with the replacement character in the place of each fault. -/
def decodeLossy (bytes : List UInt8) : List Char := (glyphs bytes).map (·.getD '\uFFFD')

/-! ### Places in a text -/

/-- The number of bytes of a text. -/
def width (s : List Char) : Nat := s.foldl (fun n c => n + c.utf8Size) 0

/-- The text behind its first `n` bytes, unless they end inside a character. -/
def dropBytes? (n : Nat) : List Char → Option (List Char)
  | [] => if n = 0 then some [] else none
  | c :: rest =>
    if n = 0 then some (c :: rest)
    else if c.utf8Size ≤ n then dropBytes? (n - c.utf8Size) rest
    else none

/-- The first `n` bytes of a text, unless they end inside a character. -/
def takeBytes? (n : Nat) : List Char → Option (List Char)
  | [] => if n = 0 then some [] else none
  | c :: rest =>
    if n = 0 then some []
    else if c.utf8Size ≤ n then (takeBytes? (n - c.utf8Size) rest).map (c :: ·)
    else none

/-! ### Reading back -/

/-- The bytes of a text are read back as that text. -/
@[simp] theorem decode_encode (s : String) : decode (encode s) = .ok s := by
  have : (⟨(encode s).toArray⟩ : ByteArray) = s.toByteArray := by simp [encode]
  simp [decode, this, String.fromUTF8?, s.isValidUTF8, String.fromUTF8]

/-- Bytes that are read as a text are the bytes of that text. -/
theorem eq_encode_of_decode {bytes : List UInt8} {s : String} (h : decode bytes = .ok s) :
    bytes = encode s := by
  unfold decode at h
  split at h
  · rename_i t ht
    obtain rfl : t = s := by simpa using h
    unfold String.fromUTF8? at ht
    split at ht
    · obtain rfl := Option.some.inj ht
      simp [encode, String.fromUTF8]
    · cases ht
  · cases h

end DelegatedVoting.Text.Utf8
