import DelegatedVoting.Bytes
import DelegatedVoting.Text.Blank
import DelegatedVoting.Text.Decimal
import DelegatedVoting.Text.Hex

/-!
# Identifiers

Proposals are named by sixteen bytes, participants by numbers of 32 bits.

* `ProposalId`, ordered by its bytes, with the written form `ProposalId.write` (lower-case
  digits in groups of 8, 4, 4, 4 and 12) and the reading `ProposalId.read?` of four spellings;
* `ParticipantId`, with `ParticipantId.read?`;
* `ProposalId.parse`, `ParticipantId.parse`: the readings of a text with blanks around it;
* `IdentifierError`: why a text is no identifier.
-/

namespace DelegatedVoting

/-- The name of a proposal: sixteen bytes. -/
structure ProposalId where
  bytes : Bytes
  length_bytes : bytes.length = 16
  deriving DecidableEq

/-- The name of a participant. -/
abbrev ParticipantId := UInt32

/-- A text that names nothing. -/
inductive IdentifierError
  | notProposal (text : String)
  | notParticipant (text : String)
  deriving DecidableEq, Repr

/-- The report of a text that names nothing, with the text as it was given. -/
def IdentifierError.message : IdentifierError → String
  | .notProposal text => "invalid proposal id: " ++ text
  | .notParticipant text => "invalid participant id: " ++ text

namespace ProposalId

@[ext] theorem ext {p q : ProposalId} (h : p.bytes = q.bytes) : p = q := by
  cases p; cases q; simp_all

/-- Proposals are ordered by their bytes. -/
instance : Ord ProposalId := ⟨fun p q => compare p.bytes q.bytes⟩

theorem compare_def (p q : ProposalId) : compare p q = compare p.bytes q.bytes := rfl

instance : Std.TransOrd ProposalId :=
  inferInstanceAs (Std.TransCmp (compareOn ProposalId.bytes))

instance : Std.LawfulEqOrd ProposalId where
  compare_self {p} := Std.ReflCmp.compare_self (a := p.bytes)
  eq_of_compare h := ext (Std.LawfulEqOrd.eq_of_compare h)

/-- The name that sixteen bytes form. -/
def ofBytes? (bytes : Bytes) : Option ProposalId :=
  if h : bytes.length = 16 then some ⟨bytes, h⟩ else none

theorem ofBytes?_eq_some_iff {bytes : Bytes} {p : ProposalId} :
    ofBytes? bytes = some p ↔ p.bytes = bytes := by
  rw [ofBytes?]
  split
  · exact ⟨fun h => Option.some.inj h ▸ rfl, fun h => congrArg some (ext h.symm)⟩
  · rename_i hlength
    exact ⟨nofun, fun h => absurd (h ▸ p.length_bytes) hlength⟩

/-- The name that sixteen random bytes give. Six of the bits tell that the name is a random one. -/
def ofRandom? (bytes : Bytes) : Option ProposalId :=
  ofBytes? ((bytes.modify 6 fun b => 0x40 + b % 0x10).modify 8 fun b => 0x80 + b % 0x40)

/-! ### Writing -/

/-- Digits in groups of 8, 4, 4, 4 and the rest, with hyphens between the groups. -/
def group (digits : List Char) : List Char :=
  digits.take 8 ++ '-' :: (digits.drop 8).take 4 ++ '-' :: (digits.drop 12).take 4 ++
    '-' :: (digits.drop 16).take 4 ++ '-' :: digits.drop 20

/-- The written form. -/
def write (p : ProposalId) : List Char := group (Text.Hex.ofBytes p.bytes)

instance : ToString ProposalId := ⟨fun p => String.ofList p.write⟩

/-- The written form together with the kind of the name. -/
def describe (p : ProposalId) : String := "ProposalId(" ++ toString p ++ ")"

/-! ### Reading -/

/-- The digits of a text in hyphenated groups. -/
def ungroup? (s : List Char) : Option (List Char) :=
  if s.length = 36 ∧ [8, 13, 18, 23].all (s[·]? = some '-') then
    some (s.take 8 ++ (s.drop 9).take 4 ++ (s.drop 14).take 4 ++ (s.drop 19).take 4 ++ s.drop 24)
  else none

/-- The text between braces. -/
def unbrace? : List Char → Option (List Char)
  | '{' :: rest => if rest.getLast? = some '}' then some rest.dropLast else none
  | _ => none

/-- The text that may stand in front of a hyphenated name, in either case. -/
def scheme : List Char := "urn:uuid:".toList

/-- The text after the scheme. -/
def unscheme? (s : List Char) : Option (List Char) :=
  if (s.take 9).map Char.toLower = scheme then some (s.drop 9) else none

/-- The name that 32 digits write. -/
def ofDigits? (digits : List Char) : Option ProposalId := do
  let bytes ← Text.Hex.toBytes? digits
  ofBytes? bytes

/-- The name that a text spells: 32 digits, or hyphenated groups, alone, in braces or after
the scheme. -/
def read? (s : List Char) : Option ProposalId :=
  match s.length with
  | 32 => ofDigits? s
  | 36 => ungroup? s >>= ofDigits?
  | 38 => unbrace? s >>= ungroup? >>= ofDigits?
  | 45 => unscheme? s >>= ungroup? >>= ofDigits?
  | _ => none

/-- The name that a text spells, with blanks around it or none. -/
def parse (text : String) : Except IdentifierError ProposalId :=
  match read? (Text.trim text.toList) with
  | some p => .ok p
  | none => .error (.notProposal text)

end ProposalId

namespace ParticipantId

/-- The participant that a text of decimal digits names. -/
def read? (s : List Char) : Option ParticipantId := do
  let n ← Text.Decimal.readBelow UInt32.size s
  pure (UInt32.ofNat n)

/-- The participant that a text names, with blanks around it or none. -/
def parse (text : String) : Except IdentifierError ParticipantId :=
  match read? (Text.trim text.toList) with
  | some v => .ok v
  | none => .error (.notParticipant text)

end ParticipantId

end DelegatedVoting
