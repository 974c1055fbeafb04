import DelegatedVoting.Proofs.Counting

/-!
# What a ballot changes

A ballot changes the votes that flow through its voter, and no others. Whoever's delegations reach
the voter ends up with the vote that the voter now ends up with, and everybody else with the vote of
before, although the ballot may close a ring of delegations or open one, and may give a delegation
an end that it did not have. So a direct vote for a side never takes a vote away from that side.

* `Book.Reaches`, `Book.AgreesOff`: whose delegations reach somebody, and books that differ in one
  action at most;
* `AgreesOff.isChain_iff`, `reaches_iff`: chains to the one who has changed are the same;
* `AgreesOff.endsIn_iff`: so are the votes of those whose chains do not reach them;
* `Sways`, `sways_of_agreesOff`: what a new action changes;
* `endingIn_le_of_forall`, `Favours`, `favours_of_vote`: a direct vote and the counts;
* `ballot_sways`: both, for a ballot with a larger number than those before.
-/

namespace DelegatedVoting

/-- A proposal that passes still does if it gains yes votes and loses no votes. -/
theorem Counts.outcome_passed_of_le {c c' : Counts} (hyes : c.yes ≤ c'.yes) (hno : c'.no ≤ c.no)
    (h : c.outcome = .passed) : c'.outcome = .passed := by
  rw [outcome_eq_passed_iff] at h ⊢
  exact UInt64.lt_of_le_of_lt hno (UInt64.lt_of_lt_of_le h hyes)

namespace Ballot.Book

open Relation Resolution

variable {b b' : Book} {u v d : ParticipantId} {a : Action} {isYes : Bool} {vote : Vote}

/-! ### Chains that reach somebody -/

/-- The delegations from a participant reach somebody. Everybody reaches themselves. -/
def Reaches (b : Book) : ParticipantId → ParticipantId → Prop := ReflTransGen b.Delegates

theorem endsIn_iff_of_reaches (h : b.Reaches u v) : b.EndsIn u vote ↔ b.EndsIn v vote := by
  rcases reflTransGen_iff_eq_or_transGen.1 h with rfl | h
  · rfl
  · exact endsIn_iff_of_transGen h

/-- A delegation that comes back to its voter comes to no vote. -/
theorem endsIn_abstain_of_reaches (h : b.Delegates v d) (hback : b.Reaches d v) :
    b.EndsIn v .abstain :=
  fun _ => not_leadsTo_of_ring (TransGen.head' h hback)

/-- Somebody who has not acted ends up abstaining. -/
theorem endsIn_abstain_of_not_mem (h : v ∉ b.actors) : b.EndsIn v .abstain :=
  fun _ => not_leadsTo_of_current?_eq_none (not_not.1 fun hv => h (mem_actors_iff.2 hv))

/-! ### Books that differ in one action at most -/

/-- The actions that count are the same in two books, except perhaps that of one participant. -/
def AgreesOff (v : ParticipantId) (b b' : Book) : Prop := ∀ u ≠ v, b'.current? u = b.current? u

namespace AgreesOff

theorem symm (h : AgreesOff v b b') : AgreesOff v b' b := fun u hu => (h u hu).symm

theorem delegates_iff (h : AgreesOff v b b') (hu : u ≠ v) :
    b'.Delegates u d ↔ b.Delegates u d := by
  rw [Delegates, Delegates, h u hu]

theorem votes_iff (h : AgreesOff v b b') (hu : u ≠ v) : b'.Votes u isYes ↔ b.Votes u isYes := by
  rw [Votes, Votes, h u hu]

theorem mem_actors_iff (h : AgreesOff v b b') (hu : u ≠ v) : u ∈ b'.actors ↔ u ∈ b.actors := by
  rw [Resolution.mem_actors_iff, Resolution.mem_actors_iff, h u hu]

/-- A chain to the one whose action has changed is the same in both books. -/
theorem isChain_iff (h : AgreesOff v b b') {chain : List ParticipantId} (hchain : v ∉ chain) :
    List.IsChain b'.Delegates (chain ++ [v]) ↔ List.IsChain b.Delegates (chain ++ [v]) := by
  induction chain with
  | nil => simp
  | cons u chain ih =>
    obtain ⟨hu, hrest⟩ := List.ne_and_not_mem_of_not_mem_cons hchain
    simp only [List.cons_append, List.isChain_cons, ih hrest, h.delegates_iff (Ne.symm hu)]

theorem reaches (h : AgreesOff v b b') (hu : b.Reaches u v) : b'.Reaches u v := by
  induction hu using ReflTransGen.head_induction_on with
  | refl => exact .refl
  | @head u d hstep _ ih =>
    by_cases huv : u = v
    · rw [huv]
      exact .refl
    · exact .head ((h.delegates_iff huv).2 hstep) ih

theorem reaches_iff (h : AgreesOff v b b') : b'.Reaches u v ↔ b.Reaches u v :=
  ⟨h.symm.reaches, h.reaches⟩

/-- A chain that does not reach the one whose action has changed comes to the same vote. -/
theorem leadsTo (h : AgreesOff v b b') (hu : ¬ b.Reaches u v) (hlead : b.LeadsTo u isYes) :
    b'.LeadsTo u isYes := by
  induction hlead with
  | @vote u isYes hvote =>
    have huv : u ≠ v := fun heq => hu (heq ▸ .refl)
    exact .vote ((h.votes_iff huv).2 hvote)
  | @delegation u d isYes hstep _ ih =>
    have huv : u ≠ v := fun heq => hu (heq ▸ .refl)
    exact .delegation ((h.delegates_iff huv).2 hstep) (ih fun hd => hu (.head hstep hd))

theorem endsIn_iff (h : AgreesOff v b b') (hu : ¬ b.Reaches u v) :
    b'.EndsIn u vote ↔ b.EndsIn u vote := by
  have hlead (isYes : Bool) : b'.LeadsTo u isYes ↔ b.LeadsTo u isYes :=
    ⟨h.symm.leadsTo fun hback => hu (h.reaches_iff.1 hback), h.leadsTo hu⟩
  cases vote <;> simp only [EndsIn, hlead]

end AgreesOff

/-! ### What a new action changes -/

/-- What a new action changes, where `b` is the book before and `b'` the book after it. -/
structure Sways (b : Book) (a : Action) (b' : Book) : Prop where
  current?_eq : b'.current? a.voter = some a
  agreesOff : AgreesOff a.voter b b'
  /-- A chain is the same up to the voter. -/
  isChain_iff : ∀ chain, a.voter ∉ chain →
    (List.IsChain b'.Delegates (chain ++ [a.voter]) ↔ List.IsChain b.Delegates (chain ++ [a.voter]))
  reaches_iff : ∀ u, b'.Reaches u a.voter ↔ b.Reaches u a.voter
  /-- Whose chain reaches the voter ends up with the vote of the voter. -/
  resolve_of_reaches : ∀ u ∈ b'.actors, b.Reaches u a.voter →
    b'.resolve[u]? = b'.resolve[a.voter]?
  /-- Everybody else ends up with the same vote as before. -/
  resolve_of_not_reaches : ∀ u ∈ b'.actors, ¬ b.Reaches u a.voter → b'.resolve[u]? = b.resolve[u]?
  /-- A direct vote is the vote of the voter. -/
  resolve_of_vote : ∀ v isYes seq, a = .vote v isYes seq → b'.resolve[v]? = some (.direct isYes)
  /-- A delegation hands on the vote that the delegate had before, if there is one. -/
  resolve_of_delegation : ∀ v d seq, a = .delegation v d seq → d ∈ b.actors → ¬ b.Reaches d v →
    b'.resolve[v]? = b.resolve[d]?
  /-- Otherwise a delegation abstains. -/
  resolve_of_vain_delegation : ∀ v d seq, a = .delegation v d seq →
    (d ∉ b.actors ∨ b.Reaches d v) → b'.resolve[v]? = some .abstain

theorem resolve_eq_some (hv : v ∈ b.actors) (h : b.EndsIn v vote) : b.resolve[v]? = some vote :=
  getElem?_resolve.2 ⟨hv, h⟩

/-- Two participants who have acted, perhaps in two books, end up with the same vote if each vote is
that of the one as it is that of the other. -/
theorem resolve_eq_of_endsIn_iff (hu : u ∈ b.actors) (hv : v ∈ b'.actors)
    (h : ∀ vote, b.EndsIn u vote ↔ b'.EndsIn v vote) : b.resolve[u]? = b'.resolve[v]? := by
  obtain ⟨vote, hend⟩ := b.exists_endsIn u
  rw [resolve_eq_some hu hend, resolve_eq_some hv ((h vote).1 hend)]

/-- **A new action changes the votes that flow through its voter.** -/
theorem sways_of_agreesOff (h : AgreesOff a.voter b b') (hcurrent : b'.current? a.voter = some a) :
    b.Sways a b' := by
  have hacted : a.voter ∈ b'.actors := mem_actors_iff.2 (by rw [hcurrent]; exact nofun)
  refine ⟨hcurrent, h, fun _ => h.isChain_iff, fun _ => h.reaches_iff, fun u hu hreach => ?_,
    fun u hu hreach => ?_, ?_, ?_, ?_⟩
  · exact resolve_eq_of_endsIn_iff hu hacted fun _ => endsIn_iff_of_reaches (h.reaches hreach)
  · have huv : u ≠ a.voter := fun heq => hreach (heq ▸ .refl)
    exact resolve_eq_of_endsIn_iff hu ((h.mem_actors_iff huv).1 hu) fun _ => h.endsIn_iff hreach
  · rintro v isYes seq rfl
    exact resolve_eq_some hacted (endsIn_direct.2 (.vote ⟨v, seq, hcurrent⟩))
  · rintro v d seq rfl hd hreach
    have hstep : b'.Delegates v d := ⟨v, seq, hcurrent⟩
    exact resolve_eq_of_endsIn_iff hacted hd fun _ =>
      (endsIn_iff_of_transGen (.single hstep)).trans (h.endsIn_iff hreach)
  · rintro v d seq rfl hvain
    have hstep : b'.Delegates v d := ⟨v, seq, hcurrent⟩
    refine resolve_eq_some hacted ?_
    -- the new delegation closes a ring, or leads to somebody who has not acted
    by_cases hreach : b.Reaches d v
    · exact endsIn_abstain_of_reaches hstep (h.reaches hreach)
    · have hnever := endsIn_abstain_of_not_mem (hvain.resolve_right hreach)
      exact (endsIn_iff_of_transGen (.single hstep)).2 ((h.endsIn_iff hreach).2 hnever)

/-! ### A direct vote and the counts -/

/-- The counts of a book. -/
def counts (b : Book) : Counts := .ofResolution b.resolve

/-- More participants end up with a vote if all those who did still do. -/
theorem endingIn_le_of_forall
    (h : ∀ u ∈ b.actors, b.EndsIn u vote → u ∈ b'.actors ∧ b'.EndsIn u vote) :
    b.endingIn vote ≤ b'.endingIn vote := by
  have hnodup : (b.actors.filter fun u => b.EndsIn u vote).Nodup :=
    Std.ExtTreeMap.nodup_keys.filter _
  have hsubset : (b.actors.filter fun u => b.EndsIn u vote) ⊆
      b'.actors.filter fun u => b'.EndsIn u vote := by
    intro u hu
    obtain ⟨hacted, hend⟩ := List.mem_filter.1 hu
    obtain ⟨hacted', hend'⟩ := h u hacted (of_decide_eq_true hend)
    exact List.mem_filter.2 ⟨hacted', decide_eq_true hend'⟩
  rw [endingIn, endingIn, List.countP_eq_length_filter, List.countP_eq_length_filter]
  exact (hnodup.subperm hsubset).length_le

/-- A change takes no vote away from one side, and gives none to the other. -/
structure Favours (isYes : Bool) (b b' : Book) : Prop where
  own_le : b.endingIn (.direct isYes) ≤ b'.endingIn (.direct isYes)
  other_le : b'.endingIn (.direct !isYes) ≤ b.endingIn (.direct !isYes)

/-- **A direct vote favours its side.** -/
theorem favours_of_vote {seq : UInt64} (h : b.Sways (.vote v isYes seq) b') :
    Favours isYes b b' := by
  have hagrees : AgreesOff v b b' := h.agreesOff
  have hcurrent : b'.current? v = some (.vote v isYes seq) := h.current?_eq
  have hvote : b'.Votes v isYes := ⟨v, seq, hcurrent⟩
  have hacted : v ∈ b'.actors := mem_actors_iff.2 (by rw [hcurrent]; exact nofun)
  constructor
  · refine endingIn_le_of_forall fun u hu hend => ?_
    by_cases hreach : b.Reaches u v
    · -- whose chain reaches the voter ends up on the side of the voter
      have hend' := (endsIn_iff_of_reaches (hagrees.reaches hreach)).2
        (endsIn_direct.2 (.vote hvote))
      by_cases huv : u = v
      · exact ⟨huv ▸ hacted, hend'⟩
      · exact ⟨(hagrees.mem_actors_iff huv).2 hu, hend'⟩
    · have huv : u ≠ v := fun heq => hreach (heq ▸ .refl)
      exact ⟨(hagrees.mem_actors_iff huv).2 hu, (hagrees.endsIn_iff hreach).2 hend⟩
  · refine endingIn_le_of_forall fun u hu hend => ?_
    by_cases hreach : b.Reaches u v
    · -- so nobody whose chain reaches the voter ends up on the other side
      have hend' := endsIn_direct.1 ((endsIn_iff_of_reaches (hagrees.reaches hreach)).1 hend)
      exact absurd ((leadsTo_iff_of_votes hvote).1 hend') (Bool.not_ne_self isYes)
    · have huv : u ≠ v := fun heq => hreach (heq ▸ .refl)
      exact ⟨(hagrees.mem_actors_iff huv).1 hu, (hagrees.endsIn_iff hreach).1 hend⟩

/-- The counts tell how many participants end up with a vote. -/
theorem counts_yes_le_iff : b.counts.yes ≤ b'.counts.yes ↔ b.endingIn .yes ≤ b'.endingIn .yes := by
  rw [UInt64.le_iff_toNat_le, ← b.toNat_count .yes, ← b'.toNat_count .yes]
  rfl

theorem counts_no_le_iff : b.counts.no ≤ b'.counts.no ↔ b.endingIn .no ≤ b'.endingIn .no := by
  rw [UInt64.le_iff_toNat_le, ← b.toNat_count .no, ← b'.toNat_count .no]
  rfl

/-! ### Ballots -/

/-- An action with a larger number than the one that has counted is the one that counts. -/
theorem current?_apply_self {r : Record}
    (hlater : ∀ old, b.current? r.action.voter = some old → old.seq < r.action.seq) :
    (b.apply r).current? r.action.voter = some r.action := by
  rw [current?_apply, if_pos rfl]
  cases hold : b.current? r.action.voter with
  | none => rfl
  | some old => simp only [prevailing, if_pos (hlater old hold)]

theorem agreesOff_apply (b : Book) (r : Record) : AgreesOff r.action.voter b (b.apply r) :=
  fun u hu => by rw [current?_apply, if_neg (Ne.symm hu)]

/-- **A ballot changes only the votes that flow through its voter,** if its number is larger than
that of the action of the voter that has counted. So a direct yes takes no yes away, adds no no and
never turns the outcome from passed to rejected, and a direct no the other way round. -/
theorem ballot_sways (b : Book) (r : Record)
    (hlater : ∀ old, b.current? r.action.voter = some old → old.seq < r.action.seq) :
    let b' := b.apply r
    b.Sways r.action b' ∧
      (∀ v seq, r.action = .vote v true seq → b.counts.yes ≤ b'.counts.yes ∧
        b'.counts.no ≤ b.counts.no ∧ (b.counts.outcome = .passed → b'.counts.outcome = .passed)) ∧
      ∀ v seq, r.action = .vote v false seq → b'.counts.yes ≤ b.counts.yes ∧
        b.counts.no ≤ b'.counts.no ∧
          (b.counts.outcome = .rejected → b'.counts.outcome = .rejected) := by
  intro b'
  have hsways : b.Sways r.action b' :=
    sways_of_agreesOff (b.agreesOff_apply r) (current?_apply_self hlater)
  refine ⟨hsways, fun v seq hvote => ?_, fun v seq hvote => ?_⟩
  · rw [hvote] at hsways
    have hfavours := favours_of_vote hsways
    have hyes := counts_yes_le_iff.2 hfavours.own_le
    have hno := counts_no_le_iff.2 hfavours.other_le
    exact ⟨hyes, hno, Counts.outcome_passed_of_le hyes hno⟩
  · rw [hvote] at hsways
    have hfavours := favours_of_vote hsways
    have hyes := counts_yes_le_iff.2 hfavours.other_le
    have hno := counts_no_le_iff.2 hfavours.own_le
    refine ⟨hyes, hno, fun hrejected => ?_⟩
    cases houtcome : b'.counts.outcome with
    | rejected => rfl
    | passed =>
      rw [Counts.outcome_passed_of_le hyes hno houtcome] at hrejected
      cases hrejected

/-- Three who delegate in a ring abstain, and so does a fourth whose chain leads into the ring. One
of the three votes, and takes the other three along. -/
theorem ballot_sways_of_ring :
    let ring := ofRecords [⟨.delegation 1 2 1, 0⟩, ⟨.delegation 2 3 2, 0⟩, ⟨.delegation 3 1 3, 0⟩,
      ⟨.delegation 4 1 4, 0⟩, ⟨.vote 5 false 5, 0⟩]
    let r : Record := ⟨.vote 2 true 6, 0⟩
    ring.current? 2 = some (.delegation 2 3 2) ∧
      ring.resolve[(4 : ParticipantId)]? = some .abstain ∧
      (ring.apply r).resolve[(4 : ParticipantId)]? = some .yes ∧
      (ring.apply r).resolve[(5 : ParticipantId)]? = ring.resolve[(5 : ParticipantId)]? ∧
      ring.counts.yes ≤ (ring.apply r).counts.yes := by
  intro ring r
  have hold : ring.current? 2 = some (.delegation 2 3 2) := by decide +kernel
  obtain ⟨hsways, hyes, -⟩ := ballot_sways ring r fun old hsome => by
    obtain rfl := Option.some.inj (hold.symm.trans hsome)
    decide
  have hfour : ring.Delegates 4 1 := ⟨4, 4, by decide +kernel⟩
  have hone : ring.Delegates 1 2 := ⟨1, 1, by decide +kernel⟩
  have hvote : ring.Votes 5 false := ⟨5, 5, by decide +kernel⟩
  have hfive : ¬ ring.Reaches 5 2 := by
    intro hreach
    obtain heq | ⟨d, hstep, -⟩ := hreach.cases_head
    · exact absurd heq (by decide)
    · exact hstep.not_votes hvote
  refine ⟨hold, by decide +kernel, ?_, ?_, (hyes 2 6 rfl).1⟩
  · rw [hsways.resolve_of_reaches 4 (by decide +kernel) (.head hfour (.single hone))]
    exact hsways.resolve_of_vote 2 true 6 rfl
  · exact hsways.resolve_of_not_reaches 5 (by decide +kernel) hfive

end Ballot.Book

end DelegatedVoting
