import DelegatedVoting.Proofs.Influence

/-!
# Names and sides do not matter

Who somebody is does not matter for the votes, only what they do: if all the participants of a book
are given other names, then its resolution is the same under the other names, and the counts are the
same. Nor does it matter which side of the question is called yes, except in a tie: if everybody
votes the other way round, then everybody ends up with the opposite vote.

* `Relabelling`: other names for the participants, and perhaps other sides of the question;
* `Book.relabel`, `relabel_apply`, `relabel_ofRecords`: a book under other names;
* `Book.endsIn_relabel`, `resolve_relabel`: where chains end under other names;
* `Book.rename`, `Book.turn`: only the names change, and only the sides;
* `Book.tally_is_fair`: neither matters for the counts.
-/

namespace DelegatedVoting

open Ballot

/-! ### Other names and other sides -/

/-- Other names for the participants, and other sides of the question. No two names and no two sides
become the same. -/
structure Relabelling where
  name : ParticipantId ↪ ParticipantId
  side : Bool ↪ Bool

namespace Relabelling

/-- Other names for the participants. -/
def ofNames (name : ParticipantId ↪ ParticipantId) : Relabelling := ⟨name, .refl Bool⟩

/-- The other side of the question. -/
def turn : Relabelling := ⟨.refl ParticipantId, ⟨not, fun _ _ => Bool.not_inj⟩⟩

end Relabelling

/-- The vote on the other sides. -/
def Vote.relabel (π : Relabelling) : Vote → Vote
  | .yes => .direct (π.side true)
  | .no => .direct (π.side false)
  | .abstain => .abstain

/-- The opposite vote. -/
def Vote.opposite : Vote → Vote
  | .yes => .no
  | .no => .yes
  | .abstain => .abstain

namespace Ballot

/-- The action under the other names. -/
def Action.relabel (π : Relabelling) : Action → Action
  | .vote v isYes seq => .vote (π.name v) (π.side isYes) seq
  | .delegation v d seq => .delegation (π.name v) (π.name d) seq

/-- The record under the other names. -/
def Record.relabel (π : Relabelling) (r : Record) : Record :=
  { r with action := r.action.relabel π }

/-- The book under the other names. -/
def Book.relabel (π : Relabelling) (b : Book) : Book where
  counter := b.counter
  current := Maps.mapEntries π.name (Action.relabel π) b.current
  trails := Maps.mapEntries π.name (List.map (Record.relabel π)) b.trails

end Ballot

/-- The resolution under the other names. -/
def Resolution.relabel (π : Relabelling) (r : Resolution) : Resolution :=
  Maps.mapEntries π.name (Vote.relabel π) r

section

variable (π : Relabelling) {b : Book} {v d : ParticipantId} {a : Action} {isYes : Bool}
  {vote : Vote} {r : Record}

theorem Vote.relabel_injective : (Vote.relabel π).Injective := by
  have hside : π.side true ≠ π.side false := fun heq => nomatch π.side.injective heq
  intro vote vote' h
  cases htrue : π.side true <;> cases hfalse : π.side false <;> cases vote <;> cases vote' <;>
    simp_all [Vote.relabel, Vote.direct]

namespace Ballot

@[simp] theorem Action.voter_relabel (a : Action) : (a.relabel π).voter = π.name a.voter := by
  cases a <;> rfl

@[simp] theorem Action.seq_relabel (a : Action) : (a.relabel π).seq = a.seq := by
  cases a <;> rfl

/-! ### A book under other names -/

namespace Book

theorem current?_relabel (v : ParticipantId) :
    (b.relabel π).current? (π.name v) = (b.current? v).map (Action.relabel π) :=
  Maps.getElem?_mapEntries π.name.injective v

theorem trail_relabel (v : ParticipantId) :
    (b.relabel π).trail (π.name v) = (b.trail v).map (Record.relabel π) := by
  simp only [trail, Std.ExtTreeMap.getD_eq_getD_getElem?, relabel,
    Maps.getElem?_mapEntries π.name.injective]
  cases b.trails[v]? <;> rfl

/-- A record enters a trail at the same place under other names. -/
theorem enter_relabel (r : Record) (trail : List Record) :
    enter (r.relabel π) (trail.map (Record.relabel π)) =
      (enter r trail).map (Record.relabel π) := by
  simp [enter, List.takeWhile_map, List.dropWhile_map, Function.comp_def, Record.relabel]

theorem prevailing_relabel (old : Option Action) (a : Action) :
    prevailing (old.map (Action.relabel π)) (a.relabel π) = (prevailing old a).relabel π := by
  cases old with
  | none => rfl
  | some old =>
    simp only [prevailing, Option.map_some, Action.seq_relabel]
    split <;> rfl

/-- **A record enters a book in the same way under other names.** -/
theorem relabel_apply (b : Book) (r : Record) :
    (b.apply r).relabel π = (b.relabel π).apply (r.relabel π) := by
  have hvoter : (r.relabel π).action.voter = π.name r.action.voter := r.action.voter_relabel π
  have hseq : (r.relabel π).action.seq = r.action.seq := r.action.seq_relabel π
  refine (Book.mk.injEq ..).mpr ⟨?_, ?_, ?_⟩
  · show max b.nextSeq (after r.action.seq) = max b.nextSeq (after (r.relabel π).action.seq)
    rw [hseq]
  · show Maps.mapEntries π.name (Action.relabel π) (b.current.insert _ _) =
      (b.relabel π).current.insert _ _
    rw [Maps.mapEntries_insert π.name.injective, hvoter, current?_relabel,
      show (r.relabel π).action = r.action.relabel π from rfl, prevailing_relabel]
    rfl
  · show Maps.mapEntries π.name (List.map (Record.relabel π)) (b.trails.insert _ _) =
      (b.relabel π).trails.insert _ _
    rw [Maps.mapEntries_insert π.name.injective, hvoter, trail_relabel, enter_relabel]
    rfl

/-- The book of records under other names is the book under other names. -/
theorem relabel_ofRecords (records : List Record) :
    (ofRecords records).relabel π = ofRecords (records.map (Record.relabel π)) := by
  induction records using List.reverseRecOn with
  | nil => rfl
  | append_singleton records last ih =>
    rw [ofRecords_append, relabel_apply, ih, List.map_append, List.map_singleton, ofRecords_append]

/-! ### Chains under other names -/

theorem mem_actors_relabel_iff {v' : ParticipantId} :
    v' ∈ (b.relabel π).actors ↔ ∃ v ∈ b.actors, π.name v = v' := by
  rw [Resolution.mem_actors_iff, Option.ne_none_iff_exists']
  simp only [Resolution.mem_actors_iff, Option.ne_none_iff_exists']
  constructor
  · rintro ⟨a', ha'⟩
    obtain ⟨v, a, ha, hv, -⟩ := (Maps.getElem?_mapEntries_eq_some_iff π.name.injective).1 ha'
    exact ⟨v, ⟨a, ha⟩, hv⟩
  · rintro ⟨v, ⟨a, ha⟩, rfl⟩
    exact ⟨a.relabel π, by rw [current?_relabel, ha]; rfl⟩

theorem Delegates.relabel (h : b.Delegates v d) :
    (b.relabel π).Delegates (π.name v) (π.name d) := by
  obtain ⟨voter, seq, h⟩ := h
  exact ⟨π.name voter, seq, by rw [current?_relabel, h]; rfl⟩

theorem Votes.relabel (h : b.Votes v isYes) : (b.relabel π).Votes (π.name v) (π.side isYes) := by
  obtain ⟨voter, seq, h⟩ := h
  exact ⟨π.name voter, seq, by rw [current?_relabel, h]; rfl⟩

theorem LeadsTo.relabel (h : b.LeadsTo v isYes) :
    (b.relabel π).LeadsTo (π.name v) (π.side isYes) := by
  induction h with
  | vote h => exact .vote (h.relabel π)
  | delegation h _ ih => exact .delegation (h.relabel π) ih

/-- What is delegated under other names is delegated under the old ones. -/
theorem exists_delegates_of_relabel {d' : ParticipantId}
    (h : (b.relabel π).Delegates (π.name v) d') : ∃ d, b.Delegates v d ∧ π.name d = d' := by
  obtain ⟨voter, seq, h⟩ := h
  rw [current?_relabel, Option.map_eq_some_iff] at h
  obtain ⟨a, ha, h⟩ := h
  cases a with
  | vote => cases h
  | delegation voter d seq =>
    cases h
    exact ⟨d, ⟨voter, seq, ha⟩, rfl⟩

theorem exists_votes_of_relabel (h : (b.relabel π).Votes (π.name v) isYes) :
    ∃ isYes', b.Votes v isYes' := by
  obtain ⟨voter, seq, h⟩ := h
  rw [current?_relabel, Option.map_eq_some_iff] at h
  obtain ⟨a, ha, h⟩ := h
  cases a with
  | vote voter isYes' seq => exact ⟨isYes', voter, seq, ha⟩
  | delegation => cases h

/-- A chain that comes to a vote under other names comes to one under the old ones. -/
theorem exists_leadsTo_of_relabel (h : (b.relabel π).LeadsTo (π.name v) isYes) :
    ∃ isYes', b.LeadsTo v isYes' := by
  generalize hv' : π.name v = v' at h
  induction h generalizing v with
  | vote h =>
    subst hv'
    obtain ⟨isYes', h⟩ := exists_votes_of_relabel π h
    exact ⟨isYes', .vote h⟩
  | delegation h _ ih =>
    subst hv'
    obtain ⟨d, hd, hd'⟩ := exists_delegates_of_relabel π h
    obtain ⟨isYes', h⟩ := ih hd'
    exact ⟨isYes', .delegation hd h⟩

theorem EndsIn.relabel (h : b.EndsIn v vote) :
    (b.relabel π).EndsIn (π.name v) (vote.relabel π) := by
  cases vote with
  | yes => exact endsIn_direct.2 (LeadsTo.relabel π h)
  | no => exact endsIn_direct.2 (LeadsTo.relabel π h)
  | abstain =>
    intro isYes hlead
    obtain ⟨isYes', hlead'⟩ := exists_leadsTo_of_relabel π hlead
    exact h isYes' hlead'

/-- **The resolution under other names is that of the book under other names.** -/
theorem resolve_relabel (b : Book) : (b.relabel π).resolve = b.resolve.relabel π := by
  refine Std.ExtTreeMap.ext_getElem? fun {v'} => Option.ext fun vote' => ?_
  rw [Resolution.getElem?_resolve, mem_actors_relabel_iff, Resolution.relabel,
    Maps.getElem?_mapEntries_eq_some_iff π.name.injective]
  simp only [Resolution.getElem?_resolve]
  constructor
  · rintro ⟨⟨v, hv, rfl⟩, hend'⟩
    obtain ⟨vote, hend⟩ := b.exists_endsIn v
    exact ⟨v, vote, ⟨hv, hend⟩, rfl, endsIn_unique (hend.relabel π) hend'⟩
  · rintro ⟨v, vote, ⟨hv, hend⟩, rfl, rfl⟩
    exact ⟨⟨v, hv, rfl⟩, hend.relabel π⟩

end Book

end Ballot

/-- As many have a vote under other names as have it under the old ones. -/
theorem Resolution.countP_relabel (r : Resolution) (vote : Vote) :
    (r.relabel π).values.countP (· = vote.relabel π) = r.values.countP (· = vote) := by
  rw [relabel, Maps.values_eq, Maps.values_eq,
    ((Maps.perm_toList_mapEntries π.name.injective).map Prod.snd).countP_eq, List.map_map,
    show Prod.snd ∘ Prod.map π.name (Vote.relabel π) = Vote.relabel π ∘ Prod.snd from rfl,
    ← List.map_map, List.countP_map]
  simp only [Function.comp_def, (Vote.relabel_injective π).eq_iff]

end

/-! ### Only the names, and only the sides -/

/-- The votes of participants who have been given other names. -/
def Resolution.rename (f : ParticipantId ↪ ParticipantId) (r : Resolution) : Resolution :=
  Maps.mapEntries f id r

/-- The outcome of counts whose sides have changed places. -/
theorem Counts.outcome_swap (c : Counts) : Counts.outcome ⟨c.no, c.yes, c.abstain⟩ =
    if c.yes < c.no then .passed else .rejected := rfl

/-- Changing the places of the sides changes the outcome if one side has more votes. -/
theorem Counts.outcome_swap_ne_iff (c : Counts) :
    Counts.outcome ⟨c.no, c.yes, c.abstain⟩ ≠ c.outcome ↔ c.yes ≠ c.no := by
  rw [outcome_swap, Counts.outcome, Outcome.ofCounts]
  by_cases htie : c.yes = c.no
  · rw [htie, if_neg (UInt64.lt_irrefl _)]
    simp
  · refine iff_of_true ?_ htie
    rcases UInt64.lt_or_lt_of_ne htie with hlt | hlt
    · rw [if_pos hlt, if_neg (UInt64.lt_asymm hlt)]
      exact nofun
    · rw [if_neg (UInt64.lt_asymm hlt), if_pos hlt]
      exact nofun

/-- A tie is rejected. -/
theorem Counts.outcome_of_tie {c : Counts} (h : c.yes = c.no) : c.outcome = .rejected := by
  rw [Counts.outcome, h, Outcome.ofCounts, if_neg (UInt64.lt_irrefl _)]

namespace Ballot

/-- The record with other names for the voter and for the delegate. -/
def Record.rename (f : ParticipantId ↪ ParticipantId) : Record → Record :=
  Record.relabel (.ofNames f)

/-- The record with the other side in a direct vote. -/
def Record.turn : Record → Record := Record.relabel .turn

namespace Book

variable {b : Book}

/-- The book with other names for the participants. -/
def rename (f : ParticipantId ↪ ParticipantId) (b : Book) : Book := b.relabel (.ofNames f)

/-- The book with the other side in every direct vote. -/
def turn (b : Book) : Book := b.relabel .turn

theorem relabel_ofNames (f : ParticipantId ↪ ParticipantId) (vote : Vote) :
    vote.relabel (.ofNames f) = vote := by cases vote <;> rfl

theorem relabel_turn (vote : Vote) : vote.relabel .turn = vote.opposite := by cases vote <;> rfl

theorem resolve_rename (f : ParticipantId ↪ ParticipantId) (b : Book) :
    (b.rename f).resolve = b.resolve.rename f := by
  rw [rename, resolve_relabel, Resolution.relabel, funext (relabel_ofNames f)]
  rfl

theorem counts_rename (f : ParticipantId ↪ ParticipantId) (b : Book) :
    (b.rename f).counts = b.counts := by
  have hcount (vote : Vote) : (b.rename f).resolve.values.countP (· = vote) =
      b.resolve.values.countP (· = vote) := by
    rw [rename, resolve_relabel, ← b.resolve.countP_relabel (.ofNames f), relabel_ofNames]
  simp only [counts, Counts.ofResolution, hcount]

theorem getElem?_resolve_turn (b : Book) (v : ParticipantId) :
    b.turn.resolve[v]? = b.resolve[v]?.map Vote.opposite := by
  rw [turn, resolve_relabel, ← funext relabel_turn]
  exact Maps.getElem?_mapEntries Relabelling.turn.name.injective v

theorem counts_turn (b : Book) :
    b.turn.counts = ⟨b.counts.no, b.counts.yes, b.counts.abstain⟩ := by
  have hcount (vote : Vote) : b.turn.resolve.values.countP (· = vote.opposite) =
      b.resolve.values.countP (· = vote) := by
    rw [turn, resolve_relabel, ← relabel_turn, Resolution.countP_relabel]
  have hyes : b.turn.resolve.values.countP (· = .yes) = b.resolve.values.countP (· = .no) :=
    hcount .no
  have hno : b.turn.resolve.values.countP (· = .no) = b.resolve.values.countP (· = .yes) :=
    hcount .yes
  have habstain : b.turn.resolve.values.countP (· = .abstain) =
      b.resolve.values.countP (· = .abstain) := hcount .abstain
  simp only [counts, Counts.ofResolution, hyes, hno, habstain]

/-- **Neither names nor sides matter for the counts.** With other names for the participants, the
resolution of a book is the same under the other names. With the other side in every direct vote,
everybody ends up with the opposite vote, which changes the outcome unless there is a tie. In both
cases the book is that of the records that have been changed one by one. -/
theorem tally_is_fair (b : Book) :
    (∀ f : ParticipantId ↪ ParticipantId, (b.rename f).resolve = b.resolve.rename f ∧
      (b.rename f).counts = b.counts ∧ (b.rename f).counts.outcome = b.counts.outcome) ∧
      ((∀ v : ParticipantId, b.turn.resolve[v]? = b.resolve[v]?.map Vote.opposite) ∧
        b.turn.counts = ⟨b.counts.no, b.counts.yes, b.counts.abstain⟩ ∧
        (b.turn.counts.outcome ≠ b.counts.outcome ↔ b.counts.yes ≠ b.counts.no) ∧
        (b.counts.yes = b.counts.no →
          b.counts.outcome = .rejected ∧ b.turn.counts.outcome = .rejected)) ∧
      ∀ records, (∀ f, (ofRecords records).rename f = ofRecords (records.map (Record.rename f))) ∧
        (ofRecords records).turn = ofRecords (records.map Record.turn) := by
  refine ⟨fun f => ⟨b.resolve_rename f, b.counts_rename f, by rw [counts_rename]⟩,
    ⟨b.getElem?_resolve_turn, b.counts_turn, ?_, fun htie => ?_⟩,
    fun records => ⟨fun f => relabel_ofRecords _ records, relabel_ofRecords _ records⟩⟩
  · rw [counts_turn]
    exact b.counts.outcome_swap_ne_iff
  · rw [counts_turn]
    exact ⟨Counts.outcome_of_tie htie, Counts.outcome_of_tie htie.symm⟩

/-- A yes with a follower, a no, and a delegation to somebody who never acts. Two of the four change
their names, so that they come in another order. Beside it a tie. -/
theorem tally_is_fair_of_four :
    let b := ofRecords [⟨.vote 1 true 1, 0⟩, ⟨.delegation 2 1 2, 0⟩, ⟨.vote 3 false 3, 0⟩,
      ⟨.delegation 4 5 4, 0⟩]
    let tie := ofRecords [⟨.vote 1 true 1, 0⟩, ⟨.vote 2 false 2, 0⟩]
    let f : ParticipantId ↪ ParticipantId := (Equiv.swap 1 4).toEmbedding
    b.rename f = ofRecords [⟨.vote 4 true 1, 0⟩, ⟨.delegation 2 4 2, 0⟩, ⟨.vote 3 false 3, 0⟩,
        ⟨.delegation 1 5 4, 0⟩] ∧
      (b.rename f).counts = ⟨2, 1, 1⟩ ∧ b.turn.counts = ⟨1, 2, 1⟩ ∧
      b.turn.counts.outcome ≠ b.counts.outcome ∧ tie.turn.counts.outcome = .rejected := by
  intro b tie f
  have hcounts : b.counts = ⟨2, 1, 1⟩ := by decide +kernel
  obtain ⟨hnames, ⟨-, hturned, houtcome, -⟩, hrecords⟩ := tally_is_fair b
  obtain ⟨-, ⟨-, -, -, htie⟩, -⟩ := tally_is_fair tie
  refine ⟨((hrecords _).1 f).trans (by decide +kernel), (hnames f).2.1.trans hcounts, ?_, ?_, ?_⟩
  · rw [hturned, hcounts]
  · exact houtcome.2 (by rw [hcounts]; decide)
  · exact (htie (by decide +kernel)).2

end Book

end Ballot

end DelegatedVoting
