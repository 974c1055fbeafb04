import DelegatedVoting.Proofs.Atomicity
import DelegatedVoting.Proofs.Durability
import DelegatedVoting.Proofs.OpenCount

/-!
# Why calls are refused

There are a few things that can be said against a call, and they are looked for in a fixed order. A
call is refused for the first of them that applies, and accepted if none does. What can be said
depends on what is listed, on the rules, and on what the store says to one write.

* `Text.trim_eq_nil_iff`: what is left of a blank text;
* `Engine.listed?`, `Registry.Mirrored.listed?_eq`: the proposal that is listed under a name;
* `Session.objections`: what can be said against a call, in its order;
* `Session.IsDecidedBy`: an answer is the first objection that applies, or there is none;
* `Session.isDecidedBy_respond`: every call is decided by the objections against it;
* `Session.KeepsStatement`, `Session.IsFreeOfSelfDelegation`: what accepted calls leave behind;
* `Session.calls_are_decided`: all of this after any run.
-/

namespace DelegatedVoting

open Packed Recovery

/-! ### Blank texts -/

/-- A text is trimmed to nothing if and only if all its characters are blank. -/
theorem Text.trim_eq_nil_iff {s : List Char} : trim s = [] ↔ ∀ c ∈ s, isBlank c = true := by
  refine ⟨fun h => ?_, trim_eq_nil_of_all_blank⟩
  have hrest : ∀ c ∈ s.dropWhile isBlank, isBlank c = true := by
    simpa [trim, List.dropWhile_eq_nil_iff] using h
  rw [← List.dropWhile_eq_nil_iff]
  -- what is left begins with a character that is not blank
  by_contra hne
  have hhead := List.head_dropWhile_not isBlank hne
  rw [hrest _ (List.head_mem hne)] at hhead
  cases hhead

/-! ### What is listed -/

theorem Engine.not_mayFinalize_iff {rules : Rules} {q : Proposal} {v : ParticipantId} :
    ¬ MayFinalize rules q v ↔ rules.finalizePolicy = .proposerOnly ∧ q.proposer ≠ v := by
  rw [MayFinalize, not_or]
  refine and_congr_left fun _ => ?_
  cases rules.finalizePolicy <;> simp

/-- The proposal that is listed under a name. -/
def Engine.listed? (e : Engine) (p : ProposalId) : Option Proposal := e.list.find? fun q => q.id = p

theorem Registry.Mirrored.mem_list_iff {r : Registry} {c : Contents} (h : r.Mirrored c)
    {q : Proposal} : q ∈ r.list ↔ ∃ slot, r.slots[q.id]? = some slot ∧ slot.proposal = q := by
  rw [h.perm_list.mem_iff, List.mem_map]
  simp only [Maps.mem_toList_iff]
  constructor
  · rintro ⟨e, he, rfl⟩
    exact ⟨e.2, by rwa [h.id_eq he], rfl⟩
  · rintro ⟨slot, hslot, hq⟩
    exact ⟨(q.id, slot), hslot, hq⟩

/-- Every proposal that is known is listed under its name. -/
theorem Registry.Mirrored.listed?_eq {e : Engine} {c : Contents} (h : e.registry.Mirrored c)
    (p : ProposalId) : e.listed? p = e.registry.slots[p]?.map Slot.proposal := by
  refine Option.ext fun q => ?_
  rw [Option.map_eq_some_iff]
  constructor
  · intro hq
    obtain ⟨slot, hslot, rfl⟩ := h.mem_list_iff.1 (List.mem_of_find?_eq_some hq)
    have hid : slot.proposal.id = p := by simpa using List.find?_some hq
    exact ⟨slot, hid ▸ hslot, rfl⟩
  · rintro ⟨slot, hslot, rfl⟩
    have hid := h.id_eq hslot
    cases hfind : e.listed? p with
    | none =>
      have hmem : slot.proposal ∈ e.list := h.mem_list_iff.2 ⟨slot, by rwa [hid], rfl⟩
      exact absurd hid (by simpa using List.find?_eq_none.1 hfind slot.proposal hmem)
    | some q =>
      obtain ⟨slot', hslot', rfl⟩ := h.mem_list_iff.1 (List.mem_of_find?_eq_some hfind)
      have hid' : slot'.proposal.id = p := by simpa using List.find?_some hfind
      rw [hid', hslot] at hslot'
      rw [Option.some.inj hslot']

namespace Session

variable {σ : Type}

/-! ### What can be said against a call -/

/-- The statement is blank. -/
def blank? (text : String) : Option Refusal :=
  if ∀ c ∈ text.toList, Text.isBlank c = true then some (.statement .blank) else none

/-- The statement is longer than the rules allow. -/
def tooLong? (rules : Rules) (text : String) : Option Refusal :=
  if rules.maxStatementLength.toNat < text.utf8ByteSize then
    some (.statement (.tooLong text.utf8ByteSize rules.maxStatementLength.toNat))
  else none

/-- Somebody delegates to themselves. -/
def toSelf? (v delegate : ParticipantId) : Option Refusal :=
  if v = delegate then some (.selfDelegation v) else none

/-- The proposal is not listed. -/
def unknown? (s : Session σ) (p : ProposalId) : Option Refusal :=
  if s.engine.listed? p = none then some (.notFound p) else none

/-- The proposal is finalized, which is a ground for the given refusal. -/
def closed? (s : Session σ) (p : ProposalId) (x : Refusal) : Option Refusal :=
  (s.engine.listed? p).bind fun q => if q.status = .finalized then some x else none

/-- Only the proposer may finalize the proposal, and it is somebody else who wants to. -/
def notProposer? (s : Session σ) (p : ProposalId) (v : ParticipantId) : Option Refusal :=
  (s.engine.listed? p).bind fun q =>
    if s.engine.rules.finalizePolicy = .proposerOnly ∧ q.proposer ≠ v then
      some (.notProposer q.proposer)
    else none

/-- The store refuses the write. -/
def unwritten? [Store σ] (s : Session σ) (w : Option Write) : Option Refusal :=
  w.bind fun w =>
    match w.perform s.store with
    | .error x => some (.store x)
    | .ok _ => none

/-- The write of a new proposal. -/
def creation (s : Session σ) (fresh : ProposalId) (v : ParticipantId) (text : String) : Write :=
  .proposal fresh (Format.proposal.write
    ⟨fresh, s.engine.registry.nextSequence, v, text, .open, s.now, none⟩)

/-- The write of a ballot under the next number. -/
def ballot? (s : Session σ) (p : ProposalId) (action : UInt64 → Ballot.Action) : Option Write :=
  (s.engine.nextBallot p).toOption.map fun seq =>
    .ballot p seq (Format.ballotRecord.write ⟨action seq, s.now⟩)

/-- The write of a result. -/
def closing? (s : Session σ) (p : ProposalId) (result : Tally) : Option Write :=
  (s.engine.listed? p).map fun q =>
    .finalization p (Format.proposal.write (q.finalize result)) (Format.tally.write result)

/-- The result that the votes on a proposal come to. -/
def counted? (s : Session σ) (p : ProposalId) (v : ParticipantId) : Option Tally :=
  (s.engine.preview p).toOption.map fun preview => .ofCounts p preview.counts v s.now

variable [Store σ]

/-- What can be said against a ballot. -/
def ballotObjections (s : Session σ) (p : ProposalId) (action : UInt64 → Ballot.Action) :
    List (Option Refusal) :=
  [s.unknown? p, s.closed? p (.ballotsClosed p), s.unwritten? (s.ballot? p action)]

/-- What can be said against a call, in the order in which it is looked for. -/
def objections (s : Session σ) : Event → List (Option Refusal)
  | .propose fresh v text =>
    [blank? text, tooLong? s.engine.rules text, s.unwritten? (s.creation fresh v text)]
  | .create fresh v text => [s.unwritten? (s.creation fresh v text)]
  | .vote p v isYes => s.ballotObjections p (.vote v isYes)
  | .delegate p v delegate => toSelf? v delegate :: s.ballotObjections p (.delegation v delegate)
  | .finalize p v =>
    [s.unknown? p, s.closed? p (.alreadyFinalized p), s.notProposer? p v,
      s.unwritten? ((s.counted? p v).bind (s.closing? p))]
  | .commit p result =>
    [s.unknown? p, s.closed? p (.alreadyFinalized p), s.unwritten? (s.closing? p result)]
  | _ => []

/-- The answer is the first objection that applies, or none applies and the call is accepted. -/
structure IsDecidedBy (answer : Except Refusal Reply) (objections : List (Option Refusal)) :
    Prop where
  refused_iff : ∀ x, answer = .error x ↔ objections.findSome? id = some x
  accepted_iff : (∃ reply, answer = .ok reply) ↔ ∀ objection ∈ objections, objection = none

section

variable {answer : Except Refusal Reply} {objections objections' : List (Option Refusal)}

/-- It is enough to know when a call is refused, and for which reason. -/
theorem isDecidedBy_of (h : ∀ x, answer = .error x ↔ objections.findSome? id = some x) :
    IsDecidedBy answer objections where
  refused_iff := h
  accepted_iff := by
    refine Iff.trans ?_ (List.findSome?_eq_none_iff (p := id))
    cases hfind : objections.findSome? id with
    | some x =>
      rw [(h x).2 hfind]
      exact iff_of_false nofun nofun
    | none =>
      cases answer with
      | ok reply => exact iff_of_true ⟨reply, rfl⟩ rfl
      | error x =>
        rw [(h x).1 rfl] at hfind
        cases hfind

theorem isDecidedBy_error {x : Refusal} (h : objections.findSome? id = some x) :
    IsDecidedBy (.error x) objections :=
  isDecidedBy_of fun y => by rw [h, Except.error.injEq, Option.some.injEq]

theorem isDecidedBy_ok {reply : Reply} (h : objections.findSome? id = none) :
    IsDecidedBy (.ok reply) objections :=
  isDecidedBy_of fun x => by
    rw [h]
    exact iff_of_false nofun nofun

/-- Objections that do not apply decide nothing. -/
theorem IsDecidedBy.congr (h : IsDecidedBy answer objections)
    (hfind : objections'.findSome? id = objections.findSome? id) :
    IsDecidedBy answer objections' :=
  isDecidedBy_of fun x => by rw [hfind, h.refused_iff]

end

/-! ### Objections on a proposal -/

section Known

variable {s : Session σ} {c : Contents} {p : ProposalId} {slot : Slot} {x : Refusal}
  {rest : List (Option Refusal)}

omit [Store σ]

theorem findSome?_unknown (h : s.engine.registry.Mirrored c)
    (hslot : s.engine.registry.slots[p]? = none) :
    (s.unknown? p :: rest).findSome? id = some (.notFound p) := by
  rw [unknown?, h.listed?_eq, hslot]
  rfl

theorem unknown?_of_slot (h : s.engine.registry.Mirrored c)
    (hslot : s.engine.registry.slots[p]? = some slot) : s.unknown? p = none := by
  rw [unknown?, h.listed?_eq, hslot]
  rfl

theorem closed?_of_slot (h : s.engine.registry.Mirrored c)
    (hslot : s.engine.registry.slots[p]? = some slot) :
    s.closed? p x = if slot.proposal.IsOpen then none else some x := by
  simp only [closed?, h.listed?_eq, hslot, Option.map_some, Option.bind_some,
    Proposal.status_eq_finalized_iff, ite_not]

theorem findSome?_closed (h : s.engine.registry.Mirrored c)
    (hslot : s.engine.registry.slots[p]? = some slot) (hclosed : ¬ slot.proposal.IsOpen) :
    (s.unknown? p :: s.closed? p x :: rest).findSome? id = some x := by
  rw [unknown?_of_slot h hslot, closed?_of_slot h hslot, if_neg hclosed]
  rfl

/-- A proposal that is open leaves it to the other objections to decide. -/
theorem findSome?_open (h : s.engine.registry.Mirrored c)
    (hslot : s.engine.registry.slots[p]? = some slot) (hopen : slot.proposal.IsOpen) :
    (s.unknown? p :: s.closed? p x :: rest).findSome? id = rest.findSome? id := by
  rw [unknown?_of_slot h hslot, closed?_of_slot h hslot, if_pos hopen]
  rfl

theorem notProposer?_of_slot (h : s.engine.registry.Mirrored c)
    (hslot : s.engine.registry.slots[p]? = some slot) (v : ParticipantId) :
    s.notProposer? p v = if Engine.MayFinalize s.engine.rules slot.proposal v then none
      else some (.notProposer slot.proposal.proposer) := by
  simp only [notProposer?, h.listed?_eq, hslot, Option.map_some, Option.bind_some,
    ← Engine.not_mayFinalize_iff, ite_not]

theorem ballot?_of_slot (hslot : s.engine.registry.slots[p]? = some slot)
    (action : UInt64 → Ballot.Action) : s.ballot? p action =
      some (.ballot p slot.book.nextSeq
        (Format.ballotRecord.write ⟨action slot.book.nextSeq, s.now⟩)) := by
  rw [ballot?, Engine.nextBallot, Engine.slot_eq_ok.2 hslot]
  rfl

theorem closing?_of_slot (h : s.engine.registry.Mirrored c)
    (hslot : s.engine.registry.slots[p]? = some slot) (result : Tally) :
    s.closing? p result = some (.finalization slot.proposal.id
      (Format.proposal.write (slot.proposal.finalize result)) (Format.tally.write result)) := by
  rw [closing?, h.listed?_eq, hslot, h.id_eq hslot]
  rfl

/-- As long as a proposal is open, its votes are counted anew. -/
theorem counted?_of_slot (h : s.engine.registry.Mirrored c)
    (hslot : s.engine.registry.slots[p]? = some slot) (hopen : slot.proposal.IsOpen)
    (v : ParticipantId) : s.counted? p v = some (slot.tally p v s.now) := by
  rw [counted?, Engine.preview, Engine.slot_eq_ok.2 hslot, ok_bind,
    (h.mirrors hslot).isOpen_iff.1 hopen]
  rfl

variable [Store σ] {w : Write}

theorem unwritten?_of_error {x : StoreError} (h : w.perform s.store = .error x) :
    s.unwritten? (some w) = some (.store x) := by
  simp only [unwritten?, Option.bind_some, h]

theorem unwritten?_of_ok {store : σ} (h : w.perform s.store = .ok store) :
    s.unwritten? (some w) = none := by
  simp only [unwritten?, Option.bind_some, h]

end Known

/-! ### Every call is decided by the objections against it -/

section Decided

variable {s : Session σ} {c : Contents}

omit [Store σ] in
/-- The statements that are refused are the blank ones and those that are too long. -/
theorem findSome?_statement (rules : Rules) (text : String) (rest : List (Option Refusal)) :
    (blank? text :: tooLong? rules text :: rest).findSome? id =
      match Engine.statementFault? rules text with
      | some fault => some (.statement fault)
      | none => rest.findSome? id := by
  simp only [blank?, tooLong?, Engine.statementFault?, Text.trim_eq_nil_iff]
  split
  · rfl
  · split <;> rfl

theorem create_isDecidedBy (fresh : ProposalId) (v : ParticipantId) (text : String) :
    IsDecidedBy (s.after .proposal (s.engine.create s.store s.now fresh v text)).1
      [s.unwritten? (s.creation fresh v text)] := by
  have hspec := s.engine.create_spec s.store s.now fresh v text
  generalize s.engine.create s.store s.now fresh v text = call at hspec ⊢
  cases hspec with
  | store x hput =>
    refine isDecidedBy_error ?_
    rw [unwritten?_of_error (w := s.creation fresh v text) hput]
    rfl
  | done store hput =>
    refine isDecidedBy_ok ?_
    rw [unwritten?_of_ok (w := s.creation fresh v text) hput]
    rfl

theorem propose_isDecidedBy (fresh : ProposalId) (v : ParticipantId) (text : String) :
    IsDecidedBy (s.after .proposal (s.engine.propose s.store s.now fresh v text)).1
      [blank? text, tooLong? s.engine.rules text, s.unwritten? (s.creation fresh v text)] := by
  have hstatement := findSome?_statement s.engine.rules text
    [s.unwritten? (s.creation fresh v text)]
  unfold Engine.propose
  split
  · rename_i fault hfault
    rw [hfault] at hstatement
    exact isDecidedBy_error hstatement
  · rename_i hfault
    rw [hfault] at hstatement
    exact (create_isDecidedBy fresh v text).congr hstatement

theorem accept_isDecidedBy (h : s.engine.registry.Mirrored c) (p : ProposalId)
    (action : UInt64 → Ballot.Action) :
    IsDecidedBy (s.after .action (s.engine.accept s.store s.now p action)).1
      (s.ballotObjections p action) := by
  have hspec := s.engine.accept_spec s.store s.now p action
  generalize s.engine.accept s.store s.now p action = call at hspec ⊢
  unfold ballotObjections
  cases hspec with
  | notFound hslot => exact isDecidedBy_error (findSome?_unknown h hslot)
  | closed slot hslot hclosed => exact isDecidedBy_error (findSome?_closed h hslot hclosed)
  | store slot x hslot hopen hput =>
    refine isDecidedBy_error ?_
    rw [findSome?_open h hslot hopen, ballot?_of_slot hslot,
      unwritten?_of_error (w := .ballot p _ _) hput]
    rfl
  | done slot store hslot hopen hput =>
    refine isDecidedBy_ok ?_
    rw [findSome?_open h hslot hopen, ballot?_of_slot hslot,
      unwritten?_of_ok (w := .ballot p _ _) hput]
    rfl

theorem delegate_isDecidedBy (h : s.engine.registry.Mirrored c) (p : ProposalId)
    (v d : ParticipantId) :
    IsDecidedBy (s.after .action (s.engine.delegate s.store s.now p v d)).1
      (toSelf? v d :: s.ballotObjections p (.delegation v d)) := by
  unfold Engine.delegate toSelf?
  split
  · exact isDecidedBy_error rfl
  · exact (accept_isDecidedBy h p (.delegation v d)).congr rfl

theorem commit_isDecidedBy (h : s.engine.registry.Mirrored c) (p : ProposalId) (result : Tally) :
    IsDecidedBy (s.after .proposal (s.engine.commit s.store p result)).1
      [s.unknown? p, s.closed? p (.alreadyFinalized p), s.unwritten? (s.closing? p result)] := by
  have hspec := s.engine.commit_spec s.store p result
  generalize s.engine.commit s.store p result = call at hspec ⊢
  cases hspec with
  | notFound hslot => exact isDecidedBy_error (findSome?_unknown h hslot)
  | closed slot hslot hclosed =>
    rw [h.id_eq hslot]
    exact isDecidedBy_error (findSome?_closed h hslot hclosed)
  | store slot x hslot hopen hput =>
    refine isDecidedBy_error ?_
    rw [findSome?_open h hslot hopen, closing?_of_slot h hslot,
      unwritten?_of_error (w := .finalization _ _ _) hput]
    rfl
  | done slot store hslot hopen hput =>
    refine isDecidedBy_ok ?_
    rw [findSome?_open h hslot hopen, closing?_of_slot h hslot,
      unwritten?_of_ok (w := .finalization _ _ _) hput]
    rfl

theorem finalize_isDecidedBy (h : s.engine.registry.Mirrored c) (p : ProposalId)
    (v : ParticipantId) :
    IsDecidedBy (s.after .tally (s.engine.finalize s.store s.now p v)).1
      [s.unknown? p, s.closed? p (.alreadyFinalized p), s.notProposer? p v,
        s.unwritten? ((s.counted? p v).bind (s.closing? p))] := by
  have hspec := s.engine.finalize_spec s.store s.now p v
  generalize s.engine.finalize s.store s.now p v = call at hspec ⊢
  cases hspec with
  | notFound hslot => exact isDecidedBy_error (findSome?_unknown h hslot)
  | closed slot hslot hclosed => exact isDecidedBy_error (findSome?_closed h hslot hclosed)
  | notProposer slot hslot hopen hmay =>
    refine isDecidedBy_error ?_
    rw [findSome?_open h hslot hopen, notProposer?_of_slot h hslot, if_neg hmay]
    rfl
  | store slot x hslot hopen hmay hput =>
    refine isDecidedBy_error ?_
    rw [findSome?_open h hslot hopen, notProposer?_of_slot h hslot, if_pos hmay,
      counted?_of_slot h hslot hopen, Option.bind_some, closing?_of_slot h hslot,
      unwritten?_of_error (w := .finalization _ _ _) hput]
    rfl
  | done slot store hslot hopen hmay hput =>
    refine isDecidedBy_ok ?_
    rw [findSome?_open h hslot hopen, notProposer?_of_slot h hslot, if_pos hmay,
      counted?_of_slot h hslot hopen, Option.bind_some, closing?_of_slot h hslot,
      unwritten?_of_ok (w := .finalization _ _ _) hput]
    rfl

/-- **Every call is decided by the objections against it.** -/
theorem isDecidedBy_respond [LawfulStore σ] (h : s.engine.registry.Mirrored c) {call : Event}
    (hcall : call.IsRequest) : IsDecidedBy (s.respond call).1 (s.objections call) := by
  cases call with
  | propose fresh v text => exact propose_isDecidedBy fresh v text
  | create fresh v text => exact create_isDecidedBy fresh v text
  | vote p v isYes => exact accept_isDecidedBy h p (.vote v isYes)
  | delegate p v d => exact delegate_isDecidedBy h p v d
  | finalize p v => exact finalize_isDecidedBy h p v
  | commit p result => exact commit_isDecidedBy h p result
  | clock => exact hcall.elim
  | refuseWrites => exact hcall.elim
  | restart => exact hcall.elim

end Decided

/-! ### What calls leave behind -/

variable [LawfulStore σ]

/-- A statement that is accepted is kept as it was given, in the reply, in memory and in the
store. -/
def KeepsStatement (s : Session σ) : Prop :=
  ∀ fresh v text reply, (s.respond (.propose fresh v text)).1 = .ok reply →
    ∃ new record, reply = .proposal new ∧ new.statement = text ∧
      (s.step (.propose fresh v text)).engine.proposal fresh = .ok new ∧
      Store.proposal fresh (s.step (.propose fresh v text)).store = .ok record ∧
      Format.proposal.decode record = .ok new

/-- Nobody delegates to themselves, neither in memory nor in the store. -/
structure IsFreeOfSelfDelegation (s : Session σ) : Prop where
  current {p : ProposalId} {v : ParticipantId} {a : Ballot.Action}
    (h : s.engine.current p v = .ok (some a)) : ¬ a.IsSelfDelegation
  history {p : ProposalId} {v : ParticipantId} {records : List Ballot.Record}
    (h : s.engine.history p v = .ok records) : ∀ r ∈ records, ¬ r.action.IsSelfDelegation
  stored (p : ProposalId) : ∃ ballots, Store.ballots p s.store = .ok ballots ∧
    ∀ b ∈ ballots, ∃ r, Format.ballotRecord.decode b.2 = .ok r ∧ r.action.seq = b.1 ∧
      ¬ r.action.IsSelfDelegation

variable {s : Session σ} {c : Contents} {used : List ProposalId}

theorem keepsStatement (hkeeps : LawfulStore.Keeps s.store c) : s.KeepsStatement := by
  intro fresh v text reply hreply
  have hgoes := s.respond_goes (.propose fresh v text)
  rw [hreply] at hgoes
  have hstep : s.step (.propose fresh v text) = (s.respond (.propose fresh v text)).2 := rfl
  rw [hstep]
  generalize (s.respond (.propose fresh v text)).2 = s' at hgoes ⊢
  cases hgoes with
  | created _ fresh' v' text' store hcreates hput =>
    have hfits := hcreates.fits trivial
    rcases hcreates with ⟨heq, -⟩ | heq <;> cases heq
    refine ⟨_, _, rfl, rfl, ?_, ?_, (Format.proposal_roundTrips hfits).decode⟩
    · have hslot := s.engine.slot_enter_self (s.engine.next s.now fresh v text)
      exact congrArg (Slot.proposal <$> ·) hslot
    · rw [LawfulStore.proposal_eq fresh (LawfulStore.keeps_putProposal hkeeps hput)]
      simp [Contents.putProposal]
  | cast _ p action slot store hcasts =>
    rcases hcasts with ⟨_, _, heq, -⟩ | ⟨_, _, heq, -⟩ <;> cases heq
  | closed _ p slot result reply store hcloses =>
    rcases hcloses with ⟨heq, -⟩ | ⟨_, heq, -⟩ <;> cases heq

theorem Sound.isFreeOfSelfDelegation (h : Sound used s c) : s.IsFreeOfSelfDelegation where
  current {p v a} ha := by
    obtain ⟨slot, hslot, ha⟩ := map_eq_ok ha
    obtain ⟨records, hlogged⟩ := (h.mirrored.mirrors (Engine.slot_eq_ok.1 hslot)).logged
    -- the action that counts is that of the last record
    rw [hlogged.book_eq, (Ballot.Book.ordered_ofRecords records).current?_eq,
      Option.map_eq_some_iff] at ha
    obtain ⟨r, hr, rfl⟩ := ha
    exact hlogged.not_self r (Ballot.Book.mem_trail_ofRecords.1 (List.mem_of_getLast? hr)).1
  history {p v trail} htrail r hr := by
    obtain ⟨slot, hslot, rfl⟩ := map_eq_ok htrail
    obtain ⟨records, hlogged⟩ := (h.mirrored.mirrors (Engine.slot_eq_ok.1 hslot)).logged
    rw [hlogged.book_eq] at hr
    exact hlogged.not_self r (Ballot.Book.mem_trail_ofRecords.1 hr).1
  stored p := by
    refine ⟨_, LawfulStore.ballots_eq p h.keeps, fun b hb => ?_⟩
    cases hslot : s.engine.registry.slots[p]? with
    | none =>
      have hempty : c.ballots p = ∅ := congrArg Folder.ballots (h.mirrored.absent hslot)
      rw [hempty] at hb
      cases hb
    | some slot =>
      obtain ⟨records, hlogged⟩ := (h.mirrored.mirrors hslot).logged
      rw [show (c.ballots p).toList = _ from hlogged.ballots_eq] at hb
      obtain ⟨r, hr, rfl⟩ := List.mem_map.1 hb
      exact ⟨r, (Format.ballotRecord_roundTrips r).decode, rfl, hlogged.not_self r hr⟩

/-! ### After any run -/

/-- **Every call is decided by what can be said against it,** after any run that begins with an
empty store and exhausts no counter. It is refused for the first objection that applies, and
accepted if none applies. A statement that is accepted is kept as it was given, and nobody ever
delegates to themselves. -/
theorem calls_are_decided {rules : Rules} {store : σ} {now : Timestamp} {events : List Event}
    (hempty : LawfulStore.Keeps store .empty) (hfits : ∀ event ∈ events, event.Fits)
    (hroom : Throughout HasRoom (start rules store now) events)
    (hnodup : ((start rules store now).generated events).Nodup) :
    let s := (start rules store now).run events
    (∀ call, call.IsRequest → IsDecidedBy (s.respond call).1 (s.objections call)) ∧
      s.KeepsStatement ∧ s.IsFreeOfSelfDelegation := by
  intro s
  obtain ⟨c, hsound⟩ := (sound_start hempty rules now).sound_run ⟨hfits, hroom, hnodup, nofun⟩
  exact ⟨fun call hcall => isDecidedBy_respond hsound.mirrored hcall,
    keepsStatement hsound.keeps, hsound.isFreeOfSelfDelegation⟩

/-- Where several things can be said, the first one decides: a proposal that is finalized, one that
only its proposer may finalize, one that is not known, and a store that refuses writes. -/
theorem calls_are_decided_of_several_objections :
    let p : ProposalId := ⟨.replicate 16 1, rfl⟩
    let q : ProposalId := ⟨.replicate 16 2, rfl⟩
    let r : ProposalId := ⟨.replicate 16 3, rfl⟩
    let s := (start ⟨.proposerOnly, 3⟩ MemoryStore.empty 0).run [.create p 1 "tea", .vote p 2 true,
      .finalize p 1, .create q 1 "cake", .refuseWrites true]
    IsDecidedBy (s.respond (.delegate p 4 4)).1 (s.objections (.delegate p 4 4)) ∧
      (s.respond (.delegate p 4 4)).1 = .error (.selfDelegation 4) ∧
      (s.respond (.delegate p 4 5)).1 = .error (.ballotsClosed p) ∧
      (s.respond (.finalize p 2)).1 = .error (.alreadyFinalized p) ∧
      (s.respond (.finalize q 2)).1 = .error (.notProposer 1) ∧
      (s.respond (.finalize q 1)).1 = .error (.store (.backend "injected write failure")) ∧
      (s.respond (.vote r 2 true)).1 = .error (.notFound r) ∧
      (s.respond (.propose r 1 "\t  \n")).1 = .error (.statement .blank) := by
  intro p q r s
  let events : List Event := [.create p 1 "tea", .vote p 2 true, .finalize p 1, .create q 1 "cake",
    .refuseWrites true]
  have hfits : ∀ event ∈ events, event.Fits := by
    simp [events, Event.Fits]
    decide
  have hnodup : ((start ⟨.proposerOnly, 3⟩ MemoryStore.empty 0).generated events).Nodup :=
    (generated_sublist _ _).nodup (by decide)
  have hroom := (orderly_start MemoryStore.contents_empty hfits
    ((numbersTaken_le_length _ _).trans_lt (by decide)) hnodup).hasRoom
  have hdecided := (calls_are_decided MemoryStore.contents_empty hfits hroom hnodup).1
  have hblank : blank? "\t  \n" = some (.statement .blank) :=
    if_pos (by simp [Text.isBlank])
  refine ⟨hdecided _ trivial, ?_, ?_, ?_, ?_, ?_, ?_, ?_⟩
  · exact ((hdecided (.delegate p 4 4) trivial).refused_iff _).2 (by decide +kernel)
  · exact ((hdecided (.delegate p 4 5) trivial).refused_iff _).2 (by decide +kernel)
  · exact ((hdecided (.finalize p 2) trivial).refused_iff _).2 (by decide +kernel)
  · exact ((hdecided (.finalize q 2) trivial).refused_iff _).2 (by decide +kernel)
  · exact ((hdecided (.finalize q 1) trivial).refused_iff _).2 (by decide +kernel)
  · exact ((hdecided (.vote r 2 true) trivial).refused_iff _).2 (by decide +kernel)
  · refine ((hdecided (.propose r 1 "\t  \n") trivial).refused_iff _).2 ?_
    show (blank? "\t  \n" :: _).findSome? id = _
    rw [hblank]
    rfl

end Session

end DelegatedVoting
