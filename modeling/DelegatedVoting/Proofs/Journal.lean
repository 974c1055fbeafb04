import DelegatedVoting.Proofs.Mirror
import DelegatedVoting.Proofs.Resolution

/-!
# Engines and journals

A journal has a note of every proposal that has been created or that the store has refused, of every
ballot that has been accepted, and of every result, each as it was asked for, at the time of the
call and with the number that was answered. Nothing else is noted of a run. What an engine shows of
its proposals and their ballots can be read off the journal.

* `Session.Note`, `Event.note?`, `Session.journal`: the journal of a run;
* `Journal.created`, `attempts`, `ballots`, `result?`, `standing`: what a journal tells;
* `Ballot.Numbered`: ballots with the numbers one, two, three and so on;
* `Registry.Records`: a registry that agrees with a journal, with one lemma for each kind of note;
* `Session.Accounted`, `Accounted.goes`, `Accounted.run`: an event and a run keep the agreement;
* `Engine.Recounts`, `Session.recounts_run_take`: what an engine shows at any time of a run.
-/

namespace DelegatedVoting

open Recovery

/-! ### Journals -/

namespace Session

/-- A note of something that has been done. -/
inductive Note
  /-- A proposal has been created. -/
  | proposal (new : Proposal)
  /-- A proposal has been refused by the store. -/
  | refusedProposal
  /-- A ballot has been accepted on a proposal. -/
  | ballot (p : ProposalId) (record : Ballot.Record)
  /-- A proposal has been closed with a result. -/
  | result (p : ProposalId) (result : Tally)

/-- The note of a call that asks for a new proposal. -/
def Note.ofCreation (now : Timestamp) (fresh : ProposalId) (v : ParticipantId) (text : String) :
    Except Refusal Reply → Option Note
  | .ok (.proposal new) => some (.proposal ⟨fresh, new.sequence, v, text, .open, now, none⟩)
  | .error (.store _) => some .refusedProposal
  | _ => none

/-- The note of a call that asks to accept an action. -/
def Note.ofBallot (now : Timestamp) (p : ProposalId) (action : UInt64 → Ballot.Action) :
    Except Refusal Reply → Option Note
  | .ok (.action a) => some (.ballot p ⟨action a.seq, now⟩)
  | _ => none

/-- The note of an event that has been answered, if it leaves one. -/
def Event.note? (now : Timestamp) (answer : Except Refusal Reply) : Event → Option Note
  | .propose fresh v text => Note.ofCreation now fresh v text answer
  | .create fresh v text => Note.ofCreation now fresh v text answer
  | .vote p v isYes => Note.ofBallot now p (.vote v isYes) answer
  | .delegate p v d => Note.ofBallot now p (.delegation v d) answer
  | .finalize p _ =>
    match answer with
    | .ok (.tally result) => some (.result p result)
    | _ => none
  | .commit p result => if answer.isOk then some (.result p result) else none
  | _ => none

/-- The notes of a run. -/
def journal {σ : Type} [Store σ] [LawfulStore σ] : Session σ → List Event → List Note
  | _, [] => []
  | s, event :: events =>
    (event.note? s.now (s.respond event).1).toList ++ (s.step event).journal events

/-! ### What a journal tells -/

namespace Note

/-- The proposal that has been created. -/
def proposal? : Note → Option Proposal
  | .proposal new => some new
  | _ => none

/-- Somebody has tried to create a proposal. -/
def isAttempt : Note → Bool
  | .proposal _ => true
  | .refusedProposal => true
  | _ => false

/-- A number has been taken, for a proposal or for a ballot. -/
def takesNumber : Note → Bool
  | .proposal _ => true
  | .refusedProposal => true
  | .ballot .. => true
  | .result .. => false

/-- The ballot that has been accepted on a proposal. -/
def ballot? (p : ProposalId) : Note → Option Ballot.Record
  | .ballot q r => if q = p then some r else none
  | _ => none

/-- The result of a proposal. -/
def result? (p : ProposalId) : Note → Option Tally
  | .result q t => if q = p then some t else none
  | _ => none

end Note

end Session

namespace Journal

open Session

variable {journal : List Note} {note : Note} {new : Proposal} {p q : ProposalId}

/-- The proposals that have been created, as they were when they were created. -/
def created (journal : List Note) : List Proposal := journal.filterMap Note.proposal?

/-- How often somebody has tried to create a proposal. -/
def attempts (journal : List Note) : Nat := journal.countP Note.isAttempt

/-- How many numbers have been taken. -/
def taken (journal : List Note) : Nat := journal.countP Note.takesNumber

/-- The ballots that have been accepted on a proposal. -/
def ballots (p : ProposalId) (journal : List Note) : List Ballot.Record :=
  journal.filterMap (Note.ballot? p)

/-- The ballots of a participant that have been accepted on a proposal. -/
def ballotsOf (p : ProposalId) (v : ParticipantId) (journal : List Note) : List Ballot.Record :=
  (ballots p journal).filter fun r => r.action.voter = v

/-- The result of a proposal. -/
def result? (p : ProposalId) (journal : List Note) : Option Tally :=
  journal.findSome? (Note.result? p)

/-- What a proposal has become. -/
def standing (journal : List Note) (new : Proposal) : Proposal :=
  match result? new.id journal with
  | none => new
  | some result => new.finalize result

theorem created_append (note : Note) :
    created (journal ++ [note]) = created journal ++ note.proposal?.toList := by
  rw [created, List.filterMap_append, created]
  cases note <;> rfl

theorem attempts_append (note : Note) :
    attempts (journal ++ [note]) = attempts journal + if note.isAttempt then 1 else 0 := by
  rw [attempts, List.countP_append, attempts, List.countP_singleton]

theorem taken_append (note : Note) :
    taken (journal ++ [note]) = taken journal + if note.takesNumber then 1 else 0 := by
  rw [taken, List.countP_append, taken, List.countP_singleton]

theorem ballots_append (p : ProposalId) (note : Note) :
    ballots p (journal ++ [note]) = ballots p journal ++ (note.ballot? p).toList := by
  rw [ballots, List.filterMap_append, ballots, List.filterMap_cons, List.filterMap_nil]
  cases note.ballot? p <;> rfl

theorem result?_append (p : ProposalId) (note : Note) :
    result? p (journal ++ [note]) = (result? p journal).or (note.result? p) := by
  rw [result?, List.findSome?_append, result?, List.findSome?_singleton]

theorem standing_append (h : note.result? new.id = none) :
    standing (journal ++ [note]) new = standing journal new := by
  rw [standing, result?_append, h, Option.or_none, standing]

theorem sequence_standing (journal : List Note) (new : Proposal) :
    (standing journal new).sequence = new.sequence := by
  unfold standing
  split <;> rfl

theorem attempts_le_taken (journal : List Note) : attempts journal ≤ taken journal :=
  List.countP_mono_left fun note _ h => by
    cases note with
    | result => exact h
    | _ => rfl

theorem length_ballots_le_taken (p : ProposalId) (journal : List Note) :
    (ballots p journal).length ≤ taken journal := by
  rw [ballots, List.length_filterMap_eq_countP]
  refine List.countP_mono_left fun note _ h => ?_
  cases note with
  | result => exact h
  | _ => rfl

/-- A proposal that is open has no result. -/
theorem result?_of_isOpen_standing (h : (standing journal new).IsOpen) :
    result? new.id journal = none := by
  unfold standing at h
  split at h
  · assumption
  · cases h

/-- Each proposal is created at the place that follows from the attempts before. -/
def Sequenced (journal : List Note) : Prop :=
  ∀ (before after : List Note) (new : Proposal), journal = before ++ .proposal new :: after →
    new.sequence.toNat = attempts before

theorem Sequenced.append (h : Sequenced journal)
    (hnote : ∀ new, note = .proposal new → new.sequence.toNat = attempts journal) :
    Sequenced (journal ++ [note]) := by
  intro before after new heq
  rcases List.eq_nil_or_concat after with rfl | ⟨after, last, rfl⟩
  · obtain ⟨rfl, hlast⟩ := List.append_inj' heq rfl
    exact hnote new (List.head_eq_of_cons_eq hlast)
  · rw [List.concat_eq_append, ← List.cons_append, ← List.append_assoc] at heq
    exact h before after new (List.append_inj' heq rfl).1

theorem Sequenced.lt_attempts (h : Sequenced journal) (hnew : new ∈ created journal) :
    new.sequence.toNat < attempts journal := by
  obtain ⟨note, hnote, hproposal⟩ := List.mem_filterMap.1 hnew
  obtain rfl : note = .proposal new := by
    cases note <;> cases hproposal
    rfl
  obtain ⟨before, after, rfl⟩ := List.append_of_mem hnote
  rw [h before after new rfl, attempts, attempts, List.countP_append, List.countP_cons]
  show _ < _ + (_ + 1)
  omega

end Journal

/-! ### Ballots that are numbered through -/

namespace Ballot

/-- The ballots have the numbers one, two, three and so on. -/
def Numbered (records : List Record) : Prop :=
  records.map (fun r => r.action.seq.toNat) = List.range' 1 records.length

namespace Numbered

variable {records : List Record} {r : Record}

theorem append_iff :
    Numbered (records ++ [r]) ↔ Numbered records ∧ r.action.seq.toNat = records.length + 1 := by
  rw [Numbered, List.map_append, List.length_append, List.length_singleton, List.range'_concat,
    Nat.one_mul, Nat.add_comm 1, List.map_singleton]
  constructor
  · intro h
    obtain ⟨hrecords, hlast⟩ := List.append_inj' h rfl
    exact ⟨hrecords, List.head_eq_of_cons_eq hlast⟩
  · rintro ⟨hrecords, hlast⟩
    rw [hrecords, hlast]

theorem pairwise (h : Numbered records) :
    records.Pairwise fun r r' => r.action.seq < r'.action.seq := by
  have hlt : (records.map fun r => r.action.seq.toNat).Pairwise (· < ·) := by
    rw [h]
    exact List.pairwise_lt_range'
  exact (List.pairwise_map.1 hlt).imp UInt64.lt_iff_toNat_lt.2

/-- The next number is behind the others. -/
theorem toNat_nextSeq (h : Numbered records) (hroom : records.length + 1 < UInt64.size) :
    (Book.ofRecords records).nextSeq.toNat = records.length + 1 := by
  induction records using List.reverseRecOn with
  | nil => rfl
  | append_singleton records last ih =>
    obtain ⟨hrecords, hlast⟩ := append_iff.1 h
    rw [List.length_append, List.length_singleton] at hroom ⊢
    have hafter := Book.toNat_after (n := last.action.seq) (by unfold HasSuccessor; omega)
    rw [Book.ofRecords_append, Book.toNat_nextSeq_apply, ih hrecords (by omega), hafter]
    omega

end Numbered

end Ballot

/-! ### Registries and journals -/

open Session Journal

/-- A registry agrees with a journal. -/
structure Registry.Records (r : Registry) (journal : List Note) : Prop where
  slot_eq {new : Proposal} (h : new ∈ created journal) :
    r.slots[new.id]? =
      some ⟨standing journal new, .ofRecords (ballots new.id journal)⟩
  exists_created {p : ProposalId} {slot : Slot} (h : r.slots[p]? = some slot) :
    ∃ new ∈ created journal, new.id = p
  order_eq : r.order.toList = (created journal).map fun new => (new.sequence, new.id)
  nextSequence_eq : r.nextSequence.toNat = attempts journal
  sequenced : Sequenced journal
  numbered (p : ProposalId) : Ballot.Numbered (ballots p journal)
  /-- Nothing is noted of a proposal before it is created. -/
  unknown {p : ProposalId} (h : ∀ new ∈ created journal, new.id ≠ p) :
    ballots p journal = [] ∧ result? p journal = none

namespace Registry.Records

variable {r : Registry} {journal : List Note} {note : Note} {p : ProposalId} {slot slot' : Slot}

theorem empty : Registry.empty.Records [] where
  slot_eq h := by cases h
  exists_created h := by simp [Registry.empty] at h
  order_eq := rfl
  nextSequence_eq := rfl
  sequenced before after new h := by simp at h
  numbered p := rfl
  unknown _ := ⟨rfl, rfl⟩

/-- The store has refused a proposal. -/
theorem burn (h : r.Records journal) (hroom : HasSuccessor r.nextSequence) :
    r.burn.Records (journal ++ [.refusedProposal]) := by
  have hcreated : created (journal ++ [.refusedProposal]) = created journal := by
    simp [created_append, Note.proposal?]
  have hballots (p : ProposalId) :
      ballots p (journal ++ [.refusedProposal]) = ballots p journal := by
    simp [ballots_append, Note.ballot?]
  constructor
  case slot_eq =>
    intro new hnew
    rw [hballots, standing_append (by rfl)]
    exact h.slot_eq (hcreated ▸ hnew)
  case exists_created => exact hcreated ▸ h.exists_created
  case order_eq => exact hcreated ▸ h.order_eq
  case nextSequence_eq =>
    rw [attempts_append, ← h.nextSequence_eq]
    exact toNat_succ hroom
  case sequenced => exact h.sequenced.append nofun
  case numbered => exact fun p => hballots p ▸ h.numbered p
  case unknown =>
    intro p hp
    rw [hballots, result?_append]
    simpa [Note.result?] using h.unknown (hcreated ▸ hp)

/-- A proposal has been created. -/
theorem enter (h : r.Records journal) {new : Proposal}
    (hnew : ∀ old ∈ created journal, old.id ≠ new.id)
    (hsequence : new.sequence = r.nextSequence) (hroom : HasSuccessor r.nextSequence) :
    (r.burn.add new).Records (journal ++ [.proposal new]) := by
  have hcreated : created (journal ++ [.proposal new]) = created journal ++ [new] := by
    simp [created_append, Note.proposal?]
  have hballots (p : ProposalId) : ballots p (journal ++ [.proposal new]) = ballots p journal := by
    simp [ballots_append, Note.ballot?]
  have hplace : new.sequence.toNat = attempts journal := by rw [hsequence, h.nextSequence_eq]
  obtain ⟨hnone, hresult⟩ := h.unknown hnew
  constructor
  case slot_eq =>
    intro q hq
    rw [hballots, standing_append (by rfl), getElem?_slots_enter]
    rcases List.mem_append.1 (hcreated ▸ hq) with hq | hq
    · rw [if_neg (hnew q hq).symm]
      exact h.slot_eq hq
    · obtain rfl := List.mem_singleton.1 hq
      rw [if_pos rfl, hnone, standing, hresult]
      rfl
  case exists_created =>
    intro q slot hslot
    rw [getElem?_slots_enter] at hslot
    rw [hcreated]
    split at hslot
    · exact ⟨new, by simp, ‹_›⟩
    · obtain ⟨old, hold, hid⟩ := h.exists_created hslot
      exact ⟨old, List.mem_append_left _ hold, hid⟩
  case order_eq =>
    -- all the places that are taken come before the one of the new proposal
    have hlast : ∀ n ∈ r.order, compare n new.sequence = .lt := fun n hn => by
      obtain ⟨q, hq⟩ := Maps.mem_iff.1 hn
      have hmem : (n, q) ∈ r.order.toList := Maps.mem_toList_iff.2 hq
      rw [h.order_eq] at hmem
      obtain ⟨old, hold, heq⟩ := List.mem_map.1 hmem
      cases heq
      have := h.sequenced.lt_attempts hold
      exact Std.compare_eq_lt.2 (UInt64.lt_iff_toNat_lt.2 (by omega))
    rw [hcreated, List.map_append, ← h.order_eq]
    exact Maps.toList_insert_last _ hlast
  case nextSequence_eq =>
    rw [attempts_append, ← h.nextSequence_eq]
    exact toNat_succ hroom
  case sequenced =>
    refine h.sequenced.append fun q hq => ?_
    cases hq
    exact hplace
  case numbered => exact fun p => hballots p ▸ h.numbered p
  case unknown =>
    intro q hq
    rw [hcreated] at hq
    rw [hballots, result?_append]
    simpa [Note.result?] using h.unknown fun old hold => hq old (List.mem_append_left _ hold)

/-- A note about one proposal that is known changes what is known about it. -/
theorem update (h : r.Records journal) (hslot : r.slots[p]? = some slot)
    (hproposal : note.proposal? = none) (hattempt : note.isAttempt = false)
    (hother : ∀ q ≠ p, note.ballot? q = none ∧ note.result? q = none)
    (hstands : ∀ new ∈ created journal, new.id = p →
      slot' = ⟨standing (journal ++ [note]) new, .ofRecords (ballots p (journal ++ [note]))⟩)
    (hnumbered : Ballot.Numbered (ballots p (journal ++ [note]))) :
    (r.update p slot').Records (journal ++ [note]) := by
  have hcreated : created (journal ++ [note]) = created journal := by
    simp [created_append, hproposal]
  have hballots : ∀ q ≠ p, ballots q (journal ++ [note]) = ballots q journal := fun q hq => by
    simp [ballots_append, (hother q hq).1]
  constructor
  case slot_eq =>
    intro new hnew
    rw [hcreated] at hnew
    rw [getElem?_slots_update]
    by_cases hp : p = new.id
    · rw [if_pos hp, hstands new hnew hp.symm, hp]
    · rw [if_neg hp, hballots _ (Ne.symm hp), standing_append (hother _ (Ne.symm hp)).2]
      exact h.slot_eq hnew
  case exists_created =>
    intro q slot'' hq
    rw [getElem?_slots_update] at hq
    rw [hcreated]
    split at hq
    · rename_i hpq
      exact hpq ▸ h.exists_created hslot
    · exact h.exists_created hq
  case order_eq => exact hcreated ▸ h.order_eq
  case nextSequence_eq =>
    rw [attempts_append, hattempt]
    exact h.nextSequence_eq
  case sequenced =>
    refine h.sequenced.append fun new hnew => ?_
    subst hnew
    cases hproposal
  case numbered =>
    intro q
    by_cases hq : q = p
    · exact hq ▸ hnumbered
    · exact hballots q hq ▸ h.numbered q
  case unknown =>
    intro q hq
    rw [hcreated] at hq
    have hne : q ≠ p := fun heq => by
      obtain ⟨new, hnew, hid⟩ := h.exists_created hslot
      exact hq new hnew (hid.trans heq.symm)
    rw [hballots q hne, result?_append, (hother q hne).2, Option.or_none]
    exact h.unknown hq

/-- A ballot has been accepted, under the next number. -/
theorem ballot (h : r.Records journal) (hslot : r.slots[p]? = some slot) {record : Ballot.Record}
    (hseq : record.action.seq = slot.book.nextSeq)
    (hroom : (ballots p journal).length + 1 < UInt64.size) :
    (r.update p { slot with book := slot.book.apply record }).Records
      (journal ++ [.ballot p record]) := by
  have hslot_eq : ∀ new ∈ created journal, new.id = p →
      slot = ⟨standing journal new, .ofRecords (ballots p journal)⟩ := fun new hnew hid => by
    subst hid
    exact Option.some.inj (hslot.symm.trans (h.slot_eq hnew))
  have hballots : ballots p (journal ++ [.ballot p record]) = ballots p journal ++ [record] := by
    simp [ballots_append, Note.ballot?]
  refine h.update hslot rfl rfl (fun q hq => ⟨if_neg hq.symm, rfl⟩) (fun new hnew hid => ?_) ?_
  · rw [hballots, standing_append (by rfl), Ballot.Book.ofRecords_append, hslot_eq new hnew hid]
  · rw [hballots, Ballot.Numbered.append_iff]
    obtain ⟨new, hnew, hid⟩ := h.exists_created hslot
    refine ⟨h.numbered p, ?_⟩
    rw [hseq, hslot_eq new hnew hid]
    exact (h.numbered p).toNat_nextSeq hroom

/-- A proposal has been closed. -/
theorem close (h : r.Records journal) (hslot : r.slots[p]? = some slot)
    (hopen : slot.proposal.IsOpen) (result : Tally) :
    (r.update p { slot with proposal := slot.proposal.finalize result }).Records
      (journal ++ [.result p result]) := by
  have hballots : ballots p (journal ++ [.result p result]) = ballots p journal := by
    simp [ballots_append, Note.ballot?]
  refine h.update hslot rfl rfl (fun q hq => ⟨rfl, if_neg hq.symm⟩) (fun new hnew hid => ?_)
    (hballots ▸ h.numbered p)
  subst hid
  obtain rfl := Option.some.inj (hslot.symm.trans (h.slot_eq hnew))
  have hnone := result?_of_isOpen_standing hopen
  rw [hballots, standing, standing, result?_append, hnone, Option.none_or, Note.result?, if_pos rfl]

end Registry.Records

/-! ### Events and notes -/

namespace Session

variable {σ : Type} [Store σ] [LawfulStore σ] {s s' : Session σ} {event : Event}
  {events : List Event} {answer : Except Refusal Reply} {journal : List Note}
  {used : List ProposalId} {n : Nat}

/-- A registry agrees with a journal, the names in use are known, and up to `n` numbers have been
taken. -/
structure Accounted (used : List ProposalId) (n : Nat) (r : Registry) (journal : List Note) :
    Prop where
  records : r.Records journal
  mem_used : ∀ new ∈ created journal, new.id ∈ used
  taken_le : taken journal ≤ n

theorem accounted_empty : Accounted [] 0 .empty [] := ⟨.empty, nofun, Nat.le_refl _⟩

/-- A call that is refused leaves no note, except for a proposal that the store has refused. -/
theorem note?_of_refused {now : Timestamp} {x : Refusal}
    (hx : ∀ y, x = .store y → event.fresh? = none) : event.note? now (.error x) = none := by
  cases event with
  | propose =>
    cases x with
    | store y => cases hx y rfl
    | _ => rfl
  | create =>
    cases x with
    | store y => cases hx y rfl
    | _ => rfl
  | _ => rfl

omit [Store σ] [LawfulStore σ] in
theorem Creates.note?_of_refused {fresh : ProposalId} {v : ParticipantId} {text : String}
    (h : s.Creates event fresh v text) (x : StoreError) :
    event.note? s.now (.error (.store x)) = some .refusedProposal := by
  rcases h with ⟨rfl, -⟩ | rfl <;> rfl

omit [Store σ] [LawfulStore σ] in
theorem Creates.note?_eq {fresh : ProposalId} {v : ParticipantId} {text : String}
    (h : s.Creates event fresh v text) :
    event.note? s.now (.ok (.proposal (s.engine.next s.now fresh v text))) =
      some (.proposal (s.engine.next s.now fresh v text)) := by
  rcases h with ⟨rfl, -⟩ | rfl <;> rfl

theorem Event.Casts.note?_eq {now : Timestamp} {p : ProposalId} {action : UInt64 → Ballot.Action}
    (h : event.Casts p action) (seq : UInt64) :
    event.note? now (.ok (.action (action seq))) = some (.ballot p ⟨action seq, now⟩) := by
  rcases h with ⟨v, isYes, rfl, rfl⟩ | ⟨v, d, rfl, -, rfl⟩ <;> rfl

omit [Store σ] [LawfulStore σ] in
theorem Closes.note?_eq {p : ProposalId} {slot : Slot} {result : Tally} {reply : Reply}
    (h : s.Closes event p slot result reply) :
    event.note? s.now (.ok reply) = some (.result p result) := by
  rcases h with ⟨rfl, rfl⟩ | ⟨v, rfl, -, -, rfl⟩ <;> rfl

/-- **An event does what is noted of it,** if it is not a restart, if the counters are not exhausted
and if the name of a new proposal is new. -/
theorem Accounted.goes (h : Accounted used n s.engine.registry journal)
    (hgoes : s.Goes event answer s') (haccepts : s.Accepts event ↔ answer.isOk)
    (hrestart : ¬ event.IsRestart) (hroom : n + s.takes event + 2 < UInt64.size)
    (hfresh : ∀ p ∈ s.generates event, p ∉ used) :
    Accounted (used ++ s.generates event) (n + s.takes event) s'.engine.registry
      (journal ++ (event.note? s.now answer).toList) := by
  have hused : ∀ new ∈ created journal, new.id ∈ used ++ s.generates event :=
    fun new hnew => List.mem_append_left _ (h.mem_used new hnew)
  have htaken := h.taken_le
  have hstay : Accounted (used ++ s.generates event) (n + s.takes event) s.engine.registry
      (journal ++ []) := by
    rw [List.append_nil]
    exact ⟨h.records, hused, by omega⟩
  have hsequence : HasSuccessor s.engine.registry.nextSequence := by
    have hattempts := attempts_le_taken journal
    rw [← h.records.nextSequence_eq] at hattempts
    unfold HasSuccessor
    omega
  cases hgoes with
  | refused _ x hx =>
    rw [note?_of_refused hx]
    exact hstay
  | burned _ fresh v text x hcreates =>
    have htakes : 1 ≤ s.takes event := by simp [takes, hcreates.generates_eq]
    rw [hcreates.note?_of_refused]
    refine ⟨h.records.burn hsequence, ?_, ?_⟩
    · simpa [created_append, Note.proposal?] using hused
    · rw [Option.toList_some, taken_append, Note.takesNumber, if_pos rfl]
      omega
  | created _ fresh v text store hcreates hput =>
    have htakes : 1 ≤ s.takes event := by simp [takes, hcreates.generates_eq]
    rw [hcreates.generates_eq] at hfresh hused ⊢
    rw [hcreates.note?_eq]
    have hnew : ∀ old ∈ created journal, old.id ≠ fresh := fun old hold heq =>
      hfresh fresh (List.mem_singleton_self _) (heq ▸ h.mem_used old hold)
    refine ⟨h.records.enter hnew rfl hsequence, fun new hmem => ?_, ?_⟩
    · rw [Option.toList_some, created_append] at hmem
      rcases List.mem_append.1 hmem with hmem | hmem
      · exact hused new hmem
      · obtain rfl := List.mem_singleton.1 hmem
        exact List.mem_append_right _ (List.mem_singleton_self _)
    · rw [Option.toList_some, taken_append, Note.takesNumber, if_pos rfl]
      omega
  | cast _ p action slot store hcasts hslot hopen hput =>
    have htakes : 1 ≤ s.takes event := by
      unfold takes
      rw [if_pos ⟨hcasts.isBallot, haccepts.2 rfl⟩]
      omega
    have hballots := length_ballots_le_taken p journal
    rw [hcasts.note?_eq]
    refine ⟨h.records.ballot hslot (hcasts.seq_eq _) (by omega), ?_, ?_⟩
    · simpa [created_append, Note.proposal?] using hused
    · rw [Option.toList_some, taken_append, Note.takesNumber, if_pos rfl]
      omega
  | closed _ p slot result reply store hcloses hslot hopen hput =>
    rw [hcloses.note?_eq]
    refine ⟨h.records.close hslot hopen result, ?_, ?_⟩
    · simpa [created_append, Note.proposal?] using hused
    · rw [Option.toList_some, taken_append, Note.takesNumber, if_neg Bool.false_ne_true]
      omega
  | clock => exact hstay
  | refuseWrites => exact hstay
  | restarted => exact absurd trivial hrestart

/-- **A run does what is noted of it.** -/
theorem Accounted.run (h : Accounted used n s.engine.registry journal)
    (hrestart : ∀ event ∈ events, ¬ event.IsRestart)
    (htaken : n + s.numbersTaken events + 2 < UInt64.size) (hnodup : (s.generated events).Nodup)
    (hfresh : ∀ p ∈ s.generated events, p ∉ used) :
    (s.run events).engine.registry.Records (journal ++ s.journal events) := by
  induction events generalizing s journal used n with
  | nil => simpa [Session.journal] using h.records
  | cons event events ih =>
    rw [numbersTaken] at htaken
    rw [generated] at hnodup hfresh
    obtain ⟨-, hnodup', hdisjoint⟩ := List.nodup_append.1 hnodup
    have h' := h.goes (s.respond_goes event) Iff.rfl (hrestart event List.mem_cons_self)
      (by omega) fun p hp => hfresh p (List.mem_append_left _ hp)
    rw [Session.journal, ← List.append_assoc]
    refine ih h' (fun event' hevent' => hrestart event' (List.mem_cons_of_mem _ hevent'))
      (by show n + s.takes event + (s.step event).numbersTaken events + 2 < _; omega) hnodup'
      fun p hp hmem => ?_
    rcases List.mem_append.1 hmem with hused | hgenerates
    · exact hfresh p (List.mem_append_right _ hp) hused
    · exact hdisjoint p hgenerates p hp rfl

end Session

/-! ### What an engine shows -/

/-- What an engine shows can be read off a journal. -/
structure Engine.Recounts (e : Engine) (journal : List Note) : Prop where
  /-- The proposals that have been created are listed in the order of their creation. -/
  list_eq : e.list = (created journal).map (standing journal)
  ascends : e.list.Pairwise fun new new' => new.sequence < new'.sequence
  /-- The place of a proposal is the number of attempts before. -/
  sequenced : Sequenced journal
  /-- The ballots on a proposal are numbered through. -/
  numbered (p : ProposalId) : Ballot.Numbered (ballots p journal)
  history_eq {new : Proposal} (h : new ∈ created journal) (v : ParticipantId) :
    e.history new.id v = .ok (ballotsOf new.id v journal)
  current_eq {new : Proposal} (h : new ∈ created journal) (v : ParticipantId) :
    e.current new.id v = .ok ((ballotsOf new.id v journal).getLast?.map Ballot.Record.action)
  actors_eq {new : Proposal} (h : new ∈ created journal) :
    ∃ actors, e.actors new.id = .ok actors ∧ actors.Pairwise (· < ·) ∧
      ∀ v, v ∈ actors ↔ ballotsOf new.id v journal ≠ []
  /-- There are no ballots on a proposal that has not been created, and nothing is shown of it. -/
  unknown {p : ProposalId} (h : ∀ new ∈ created journal, new.id ≠ p) :
    ballots p journal = [] ∧ (∀ v, e.history p v = .error (.notFound p)) ∧
      (∀ v, e.current p v = .error (.notFound p)) ∧ e.actors p = .error (.notFound p)

namespace Registry.Records

variable {e : Engine} {journal : List Note}

theorem list_eq {r : Registry} (h : r.Records journal) :
    r.list = (created journal).map (standing journal) := by
  rw [Registry.list, Maps.values_eq, h.order_eq, List.map_map, List.filterMap_map,
    ← List.filterMap_eq_map]
  refine List.filterMap_congr fun new hnew => ?_
  show r.slots[new.id]?.map Slot.proposal = _
  rw [h.slot_eq hnew]
  rfl

theorem recounts (h : e.registry.Records journal) : e.Recounts journal := by
  have hslot {new : Proposal} (hnew : new ∈ created journal) : e.slot new.id =
      .ok ⟨standing journal new, .ofRecords (ballots new.id journal)⟩ :=
    Engine.slot_eq_ok.2 (h.slot_eq hnew)
  have htrail (p : ProposalId) (v : ParticipantId) :
      (Ballot.Book.ofRecords (ballots p journal)).trail v = ballotsOf p v journal :=
    Ballot.Book.trail_ofRecords (h.numbered p).pairwise v
  have hcurrent (p : ProposalId) (v : ParticipantId) :
      (Ballot.Book.ofRecords (ballots p journal)).current? v =
        (ballotsOf p v journal).getLast?.map Ballot.Record.action := by
    rw [(Ballot.Book.ordered_ofRecords _).current?_eq, htrail]
  constructor
  case list_eq => exact h.list_eq
  case ascends =>
    have hsorted := Maps.sorted_toList e.registry.order
    rw [h.order_eq, List.pairwise_map] at hsorted
    rw [Engine.list, h.list_eq, List.pairwise_map]
    refine hsorted.imp fun hlt => ?_
    rw [sequence_standing, sequence_standing]
    exact Std.compare_eq_lt.1 hlt
  case sequenced => exact h.sequenced
  case numbered => exact h.numbered
  case history_eq =>
    intro new hnew v
    rw [Engine.history, hslot hnew, ← htrail]
    rfl
  case current_eq =>
    intro new hnew v
    rw [Engine.current, hslot hnew, ← hcurrent]
    rfl
  case actors_eq =>
    intro new hnew
    refine ⟨(Ballot.Book.ofRecords (ballots new.id journal)).actors, ?_, ?_, fun v => ?_⟩
    · rw [Engine.actors, hslot hnew]
      rfl
    · exact Std.ExtTreeMap.ordered_keys.imp Std.compare_eq_lt.1
    · rw [Resolution.mem_actors_iff, hcurrent, ne_eq, Option.map_eq_none_iff,
        List.getLast?_eq_none_iff]
  case unknown =>
    intro p hp
    have hnone : e.registry.slots[p]? = none := by
      cases hslot : e.registry.slots[p]? with
      | none => rfl
      | some slot =>
        obtain ⟨new, hnew, hid⟩ := h.exists_created hslot
        exact absurd hid (hp new hnew)
    have herror := Engine.slot_eq_error hnone
    refine ⟨(h.unknown hp).1, fun v => ?_, fun v => ?_, ?_⟩
    · rw [Engine.history, herror]; rfl
    · rw [Engine.current, herror]; rfl
    · rw [Engine.actors, herror]; rfl

end Registry.Records

namespace Session

/-- **What an engine shows can be read off the journal,** at any time of a run without a restart. -/
theorem recounts_run_take {σ : Type} [Store σ] [LawfulStore σ] {rules : Rules} {store : σ}
    {now : Timestamp} {events : List Event} (hrestart : ∀ event ∈ events, ¬ event.IsRestart)
    (htaken : (start rules store now).numbersTaken events < 2 ^ 64 - 2)
    (hnodup : ((start rules store now).generated events).Nodup) (n : Nat) :
    ((start rules store now).run (events.take n)).engine.Recounts
      ((start rules store now).journal (events.take n)) := by
  -- what is asked of the whole run holds of its beginning
  have hsplit : events = events.take n ++ events.drop n := (List.take_append_drop n events).symm
  rw [hsplit, generated_append] at hnodup
  rw [hsplit, numbersTaken_append] at htaken
  have hstart : Accounted [] 0 (start rules store now).engine.registry [] := accounted_empty
  have hrecords := hstart.run
    (fun event hevent => hrestart event (List.mem_of_mem_take hevent)) (by show _ < 2 ^ 64; omega)
    (List.nodup_append.1 hnodup).1 nofun
  exact hrecords.recounts

/-- A proposal and a ballot that the store refuses, a blank statement, and a ballot that comes after
the result. -/
theorem recounts_run_take_of_refusals :
    let p : ProposalId := ⟨.replicate 16 1, rfl⟩
    let q : ProposalId := ⟨.replicate 16 2, rfl⟩
    let r : ProposalId := ⟨.replicate 16 3, rfl⟩
    let s := start {} MemoryStore.empty 0
    let events : List Event := [.create p 1 "tea", .refuseWrites true, .create q 1 "cake",
      .vote p 2 true, .refuseWrites false, .propose r 1 "", .create r 1 "bread", .vote p 2 true,
      .clock 7, .delegate p 2 3, .finalize p 1, .vote p 4 true]
    (s.run events).engine.Recounts (s.journal events) ∧
      (created (s.journal events)).map Proposal.sequence = [0, 2] ∧
      attempts (s.journal events) = 3 ∧
      ballots p (s.journal events) = [⟨.vote 2 true 1, 0⟩, ⟨.delegation 2 3 2, 7⟩] := by
  intro p q r s events
  have hrecounts := @recounts_run_take MemoryStore _ _ {} .empty 0 events (by decide)
    ((numbersTaken_le_length _ _).trans_lt (by decide))
    (by decide +kernel) events.length
  rw [List.take_length] at hrecounts
  exact ⟨hrecounts, by decide +kernel, by decide +kernel, by decide +kernel⟩

end Session

end DelegatedVoting
