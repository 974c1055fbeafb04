import DelegatedVoting.Engine.Registry
import DelegatedVoting.Packed.Records
import DelegatedVoting.Store

/-!
# The engine

The engine runs the votes: proposals are created, participants vote or delegate, and a proposal is
finalized once. Whatever it accepts is in the store before it is in memory; whatever it refuses
changes neither.

* `Refusal`: why the engine refuses;
* `Engine`: the rules and the registry;
* `Step`: an answer, and the engine and the store after it;
* `Engine.propose`, `create`, `vote`, `delegate`, `finalize`, `commit`: what changes the state;
* `Engine.proposal`, `list`, `preview`, `resolve`, `current`, `history`, `actors`: what only reads.

The time and the name of a new proposal are given by the caller.
-/

namespace DelegatedVoting

/-- What is wrong with a statement. -/
inductive StatementFault
  | blank
  | tooLong (length limit : Nat)
  deriving DecidableEq, Repr

/-- The report of what is wrong with a statement. -/
def StatementFault.message : StatementFault → String
  | .blank => "statement must not be empty"
  | .tooLong length limit =>
    "statement is " ++ toString length ++ " bytes, limit is " ++ toString limit

/-- Why the engine refuses. -/
inductive Refusal
  | notFound (p : ProposalId)
  | ballotsClosed (p : ProposalId)
  | selfDelegation (v : ParticipantId)
  | alreadyFinalized (p : ProposalId)
  | notProposer (proposer : ParticipantId)
  | statement (fault : StatementFault)
  | store (e : StoreError)
  deriving DecidableEq

namespace Refusal

/-- The report of a refusal. -/
def message : Refusal → String
  | .notFound p => "proposal " ++ toString p ++ " not found"
  | .ballotsClosed p => "proposal " ++ toString p ++ " is finalized, ballots are closed"
  | .selfDelegation v => "participant " ++ toString v.toNat ++ " cannot delegate to themselves"
  | .alreadyFinalized p => "proposal " ++ toString p ++ " has already been finalized"
  | .notProposer proposer =>
    "only the proposer (" ++ toString proposer.toNat ++ ") can finalize this proposal"
  | .statement fault => "invalid statement: " ++ fault.message
  | .store e => "store error: " ++ e.message

/-- The kind of a refusal. -/
def kind : Refusal → String
  | .notFound _ => "not_found"
  | .ballotsClosed _ => "proposal_finalized"
  | .selfDelegation _ => "invalid_delegation"
  | .alreadyFinalized _ => "already_finalized"
  | .notProposer _ => "not_proposer"
  | .statement _ => "invalid_statement"
  | .store _ => "store"

end Refusal

/-- The rules and what is known about the proposals. -/
structure Engine where
  rules : Rules
  registry : Registry
  deriving DecidableEq

/-- An answer, and the engine and the store after it. -/
structure Step (σ α : Type) where
  answer : Except Refusal α
  engine : Engine
  store : σ

namespace Engine

variable {σ α : Type} [Store σ]

/-- The engine that knows no proposal. -/
def new (rules : Rules) : Engine := ⟨rules, .empty⟩

/-- What is known about a proposal. -/
def slot (e : Engine) (p : ProposalId) : Except Refusal Slot :=
  match e.registry.slots[p]? with
  | some slot => .ok slot
  | none => .error (.notFound p)

/-! ### Changes -/

/-- Nothing has changed. -/
def refuse (e : Engine) (s : σ) (r : Refusal) : Step σ α := ⟨.error r, e, s⟩

/-- Create an open proposal. Its place in the order of creation is taken even if the store
refuses it. -/
def create (e : Engine) (s : σ) (now : Timestamp) (fresh : ProposalId) (proposer : ParticipantId)
    (statement : String) : Step σ Proposal :=
  let p : Proposal := ⟨fresh, e.registry.nextSequence, proposer, statement, .open, now, none⟩
  let registry := { e.registry with nextSequence := e.registry.nextSequence + 1 }
  match Store.putProposal p.id (Packed.Format.proposal.write p) s with
  | .error x => refuse { e with registry } s (.store x)
  | .ok s => ⟨.ok p, { e with registry := registry.add p }, s⟩

/-- What is wrong with a statement, if anything is. -/
def statementFault? (rules : Rules) (statement : String) : Option StatementFault :=
  if Text.trim statement.toList = [] then some .blank
  else if rules.maxStatementLength.toNat < statement.utf8ByteSize then
    some (.tooLong statement.utf8ByteSize rules.maxStatementLength.toNat)
  else none

/-- Create an open proposal with an acceptable statement. The statement is kept as it is given. -/
def propose (e : Engine) (s : σ) (now : Timestamp) (fresh : ProposalId) (proposer : ParticipantId)
    (statement : String) : Step σ Proposal :=
  match statementFault? e.rules statement with
  | some fault => refuse e s (.statement fault)
  | none => e.create s now fresh proposer statement

/-- Accept an action on an open proposal, under the next number. -/
def accept (e : Engine) (s : σ) (now : Timestamp) (p : ProposalId)
    (action : UInt64 → Ballot.Action) : Step σ Ballot.Action :=
  match e.slot p with
  | .error r => refuse e s r
  | .ok slot =>
    if slot.proposal.IsOpen then
      let seq := slot.book.nextSeq
      let record : Ballot.Record := ⟨action seq, now⟩
      match Store.putBallot p seq (Packed.Format.ballotRecord.write record) s with
      | .error x => refuse e s (.store x)
      | .ok s =>
        let slot := { slot with book := slot.book.apply record }
        ⟨.ok record.action, { e with registry := e.registry.update p slot }, s⟩
    else refuse e s (.ballotsClosed p)

/-- A participant votes. -/
def vote (e : Engine) (s : σ) (now : Timestamp) (p : ProposalId) (v : ParticipantId)
    (isYes : Bool) : Step σ Ballot.Action :=
  e.accept s now p (.vote v isYes)

/-- A participant lets somebody else vote. -/
def delegate (e : Engine) (s : σ) (now : Timestamp) (p : ProposalId) (v : ParticipantId)
    (delegate : ParticipantId) : Step σ Ballot.Action :=
  if v = delegate then refuse e s (.selfDelegation v)
  else e.accept s now p (.delegation v delegate)

/-- Close an open proposal with a result. -/
def commit (e : Engine) (s : σ) (p : ProposalId) (result : Tally) : Step σ Proposal :=
  match e.slot p with
  | .error r => refuse e s r
  | .ok slot =>
    if slot.proposal.IsOpen then
      let proposal := slot.proposal.finalize result
      match Store.putFinalization slot.proposal.id (Packed.Format.proposal.write proposal)
          (Packed.Format.tally.write result) s with
      | .error x => refuse e s (.store x)
      | .ok s =>
        ⟨.ok proposal, { e with registry := e.registry.update p { slot with proposal } }, s⟩
    else refuse e s (.alreadyFinalized slot.proposal.id)

/-- Whether the rules let a participant finalize a proposal. -/
def MayFinalize (rules : Rules) (proposal : Proposal) (v : ParticipantId) : Prop :=
  rules.finalizePolicy = .anyone ∨ proposal.proposer = v

instance (rules : Rules) (proposal : Proposal) (v : ParticipantId) :
    Decidable (MayFinalize rules proposal v) := inferInstanceAs (Decidable (_ ∨ _))

/-- Count the votes on an open proposal and close it. -/
def finalize (e : Engine) (s : σ) (now : Timestamp) (p : ProposalId) (v : ParticipantId) :
    Step σ Tally :=
  match e.slot p with
  | .error r => refuse e s r
  | .ok slot =>
    if slot.proposal.IsOpen then
      if MayFinalize e.rules slot.proposal v then
        let result := Tally.ofCounts p (.ofResolution slot.book.resolve) v now
        let done := e.commit s p result
        ⟨done.answer.map fun _ => result, done.engine, done.store⟩
      else refuse e s (.notProposer slot.proposal.proposer)
    else refuse e s (.alreadyFinalized p)

/-! ### Reading -/

/-- The proposals in the order of their creation. -/
def list (e : Engine) : List Proposal := e.registry.list

/-- The number of proposals. -/
def count (e : Engine) : Nat := e.registry.count

/-- The number of proposals that accept ballots. -/
def openCount (e : Engine) : Nat := e.registry.openCount

def proposal (e : Engine) (p : ProposalId) : Except Refusal Proposal := (·.proposal) <$> e.slot p

/-- The counts of a proposal: those of its result, or those of its ballots so far. -/
def preview (e : Engine) (p : ProposalId) : Except Refusal Preview := do
  let slot ← e.slot p
  match slot.proposal.result with
  | some t => pure ⟨p, t.counts, t.outcome, slot.proposal.status⟩
  | none =>
    let counts := Counts.ofResolution slot.book.resolve
    pure ⟨p, counts, counts.outcome, slot.proposal.status⟩

def resolve (e : Engine) (p : ProposalId) : Except Refusal Resolution :=
  (·.book.resolve) <$> e.slot p

def current (e : Engine) (p : ProposalId) (v : ParticipantId) :
    Except Refusal (Option Ballot.Action) := (·.book.current? v) <$> e.slot p

def history (e : Engine) (p : ProposalId) (v : ParticipantId) :
    Except Refusal (List Ballot.Record) := (·.book.trail v) <$> e.slot p

def actors (e : Engine) (p : ProposalId) : Except Refusal (List ParticipantId) :=
  (·.book.actors) <$> e.slot p

end Engine

end DelegatedVoting
