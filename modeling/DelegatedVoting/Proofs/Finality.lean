import DelegatedVoting.Proofs.Runs

/-!
# A closed proposal stays as it is

Once a proposal is closed, nothing that happens changes what is known about it, in memory or in the
store: neither calls by anybody, nor a store that refuses writes, nor recoveries.

* `Session.Moves.keeps_closed`: no change touches a closed proposal;
* `Session.Sound.closed_run`: a closed proposal stays as it is throughout a run;
* `Session.closings_le_one`: a proposal is closed at most once in a run;
* `Session.Final`, `Session.final_of_finalized`: what does not change, and what is refused.
-/

namespace DelegatedVoting

open Packed

namespace Session

variable {σ : Type} [Store σ] [LawfulStore σ] {s : Session σ} {c c' : Contents} {e : Engine}
  {event : Event} {events : List Event} {used : List ProposalId} {p : ProposalId} {slot : Slot}
  {v d : ParticipantId} {isYes : Bool} {result : Tally}

/-! ### No change touches a closed proposal -/

/-- No change touches a closed proposal. -/
theorem Moves.keeps_closed (hmove : s.Moves c event e c') (h : Sound used s c)
    (hfresh : ∀ p ∈ s.generates event, p ∉ used)
    (hslot : s.engine.registry.slots[p]? = some slot) (hclosed : ¬ slot.proposal.IsOpen) :
    e.registry.slots[p]? = some slot ∧ c'.folder p = c.folder p := by
  cases hmove with
  | stay => exact ⟨hslot, rfl⟩
  | burn => exact ⟨hslot, rfl⟩
  | enter q hgenerates =>
    have hne : p ≠ q.id := by
      rintro rfl
      exact hfresh q.id (by simp [hgenerates]) (h.mem_used hslot)
    rw [Registry.getElem?_slots_enter, if_neg hne.symm, Contents.folder_putProposal_of_ne hne]
    exact ⟨hslot, rfl⟩
  | ballot q open' r hopen' hopen =>
    have hne : p ≠ q := by
      rintro rfl
      obtain rfl := Option.some.inj (hslot.symm.trans hopen')
      exact hclosed hopen
    rw [Registry.getElem?_slots_update, if_neg hne.symm, Contents.folder_putBallot_of_ne hne]
    exact ⟨hslot, rfl⟩
  | close q open' result hopen' hopen =>
    have hne : p ≠ q := by
      rintro rfl
      obtain rfl := Option.some.inj (hslot.symm.trans hopen')
      exact hclosed hopen
    rw [Registry.getElem?_slots_update, if_neg hne.symm, h.mirrored.id_eq hopen',
      Contents.folder_putFinalization_of_ne hne]
    exact ⟨hslot, rfl⟩
  | restart rules engine hevent hrecover =>
    obtain ⟨-, rfl⟩ := (h.mirrored.recover_eq_ok_iff h.keeps).1 hrecover
    rw [h.mirrored.slots_restored]
    exact ⟨hslot, rfl⟩

/-- **A closed proposal stays as it is throughout a run,** in memory and in the store. -/
theorem Sound.closed_run (h : Sound used s c)
    (hslot : s.engine.registry.slots[p]? = some slot) (hclosed : ¬ slot.proposal.IsOpen)
    (horderly : Orderly used s events) :
    ∃ c', Sound (used ++ s.generated events) (s.run events) c' ∧
      (s.run events).engine.registry.slots[p]? = some slot ∧ c'.folder p = c.folder p :=
  h.run (Q := fun _ => True)
    (P := fun s c' => s.engine.registry.slots[p]? = some slot ∧ c'.folder p = c.folder p)
    (fun h hP _ _ hfresh hmove => by
      obtain ⟨hslot', hfolder⟩ := hmove.keeps_closed h hfresh hP.1 hclosed
      exact ⟨hslot', hfolder.trans hP.2⟩)
    ⟨hslot, rfl⟩ horderly fun _ _ => trivial

/-! ### A proposal is closed at most once -/

/-- An accepted event that would close a proposal finds it open, and closes it. -/
theorem Moves.closes (hmove : s.Moves c event e c') (hcloses : event.Closes p)
    (haccepts : s.Accepts event) : ∃ (slot : Slot) (result : Tally),
      s.engine.registry.slots[p]? = some slot ∧ slot.proposal.IsOpen ∧
        e.registry.slots[p]? =
          some { slot with proposal := slot.proposal.finalize result } := by
  have hgenerates : s.generates event = [] := by
    cases event <;> first | rfl | exact hcloses.elim
  cases hmove with
  | stay hquiet =>
    have := hquiet haccepts
    cases event <;> first | exact this.elim | exact hcloses.elim
  | burn fresh hfresh =>
    rw [hgenerates] at hfresh
    cases hfresh
  | enter q hfresh =>
    rw [hgenerates] at hfresh
    cases hfresh
  | ballot q slot r _ _ _ _ hballot =>
    cases event <;> first | exact hballot.elim | exact hcloses.elim
  | close q slot result hslot hopen hcloses' =>
    obtain rfl : q = p := by
      cases event <;> first | exact hcloses.elim | exact hcloses'.symm.trans hcloses
    rw [Registry.getElem?_slots_update, if_pos rfl]
    exact ⟨slot, result, hslot, hopen, rfl⟩
  | restart rules engine hevent =>
    rw [hevent] at hcloses
    exact hcloses.elim

/-- A closed proposal is not closed again. -/
theorem closings_eq_zero (h : Sound used s c) (hslot : s.engine.registry.slots[p]? = some slot)
    (hclosed : ¬ slot.proposal.IsOpen) (horderly : Orderly used s events) :
    closings p s events = 0 := by
  induction events generalizing s c used with
  | nil => rfl
  | cons event events ih =>
    obtain ⟨hfits, hroom, hfresh⟩ := horderly.head
    obtain ⟨c', h', hmove⟩ := h.step hfits hroom hfresh
    have hrefused : ¬ (event.Closes p ∧ s.Accepts event) := by
      rintro ⟨hcloses, haccepts⟩
      obtain ⟨slot', -, hslot', hopen, -⟩ := hmove.closes hcloses haccepts
      obtain rfl := Option.some.inj (hslot.symm.trans hslot')
      exact hclosed hopen
    rw [closings, if_neg hrefused, Nat.zero_add]
    exact ih h' (hmove.keeps_closed h hfresh hslot hclosed).1 horderly.tail

/-- **A proposal is closed at most once in a run.** -/
theorem closings_le_one (h : Sound used s c) (horderly : Orderly used s events) :
    closings p s events ≤ 1 := by
  induction events generalizing s c used with
  | nil => exact Nat.zero_le 1
  | cons event events ih =>
    obtain ⟨hfits, hroom, hfresh⟩ := horderly.head
    obtain ⟨c', h', hmove⟩ := h.step hfits hroom hfresh
    rw [closings]
    -- once an event has closed the proposal, none of the later ones does
    by_cases hcloses : event.Closes p ∧ s.Accepts event
    · obtain ⟨slot, result, -, -, hslot'⟩ := hmove.closes hcloses.1 hcloses.2
      rw [if_pos hcloses, closings_eq_zero h' hslot' nofun horderly.tail]
    · rw [if_neg hcloses, Nat.zero_add]
      exact ih h' horderly.tail

/-! ### What a closed proposal replies -/

omit [LawfulStore σ] in
theorem accept_of_closed {now : Timestamp} {store : σ} {action : UInt64 → Ballot.Action}
    (hslot : e.registry.slots[p]? = some slot) (hclosed : ¬ slot.proposal.IsOpen) :
    e.accept store now p action = e.refuse store (.ballotsClosed p) := by
  unfold Engine.accept
  rw [Engine.slot_eq_ok.2 hslot]
  exact if_neg hclosed

theorem respond_vote_of_closed (hslot : s.engine.registry.slots[p]? = some slot)
    (hclosed : ¬ slot.proposal.IsOpen) :
    (s.respond (.vote p v isYes)).1 = .error (.ballotsClosed p) := by
  show ((s.engine.accept s.store s.now p _).answer.map _) = _
  rw [accept_of_closed hslot hclosed]
  rfl

theorem respond_delegate_of_closed (hslot : s.engine.registry.slots[p]? = some slot)
    (hclosed : ¬ slot.proposal.IsOpen) (hother : v ≠ d) :
    (s.respond (.delegate p v d)).1 = .error (.ballotsClosed p) := by
  show ((s.engine.delegate s.store s.now p v d).answer.map _) = _
  rw [Engine.delegate, if_neg hother, accept_of_closed hslot hclosed]
  rfl

theorem respond_finalize_of_closed (hslot : s.engine.registry.slots[p]? = some slot)
    (hclosed : ¬ slot.proposal.IsOpen) :
    (s.respond (.finalize p v)).1 = .error (.alreadyFinalized p) := by
  show ((s.engine.finalize s.store s.now p v).answer.map _) = _
  rw [Engine.finalize, Engine.slot_eq_ok.2 hslot]
  dsimp only
  rw [if_neg hclosed]
  rfl

theorem respond_commit_of_closed (hslot : s.engine.registry.slots[p]? = some slot)
    (hclosed : ¬ slot.proposal.IsOpen) (hid : slot.proposal.id = p) :
    (s.respond (.commit p result)).1 = .error (.alreadyFinalized p) := by
  show ((s.engine.commit s.store p result).answer.map _) = _
  rw [Engine.commit, Engine.slot_eq_ok.2 hslot]
  dsimp only
  rw [if_neg hclosed, hid]
  rfl

/-! ### Finality -/

/-- What is the same about a closed proposal at a later time, and what is refused then. -/
structure Final (p : ProposalId) (proposal : Proposal) (early late : Session σ) : Prop where
  proposal_eq : late.engine.proposal p = .ok proposal
  status_eq : proposal.status = .finalized
  /-- The record in the store is the packed proposal, byte by byte. -/
  record_eq : Store.proposal p late.store = .ok (Format.proposal.write proposal)
  record_eq_early : Store.proposal p late.store = Store.proposal p early.store
  /-- The tally in the store is the packed result, byte by byte. -/
  tally_eq : ∃ t, proposal.result = some t ∧
    Store.tally p late.store = .ok (some (Format.tally.write t))
  tally_eq_early : Store.tally p late.store = Store.tally p early.store
  preview_eq : late.engine.preview p = early.engine.preview p
  resolve_eq : late.engine.resolve p = early.engine.resolve p
  actors_eq : late.engine.actors p = early.engine.actors p
  current_eq : ∀ v, late.engine.current p v = early.engine.current p v
  history_eq : ∀ v, late.engine.history p v = early.engine.history p v
  vote_refused : ∀ v isYes, (late.respond (.vote p v isYes)).1 = .error (.ballotsClosed p)
  delegate_refused : ∀ v d, v ≠ d →
    (late.respond (.delegate p v d)).1 = .error (.ballotsClosed p)
  finalize_refused : ∀ v, (late.respond (.finalize p v)).1 = .error (.alreadyFinalized p)
  commit_refused : ∀ result,
    (late.respond (.commit p result)).1 = .error (.alreadyFinalized p)

/-- Memory and store agree on a closed proposal, so it is final if both stay as they are. -/
theorem final_of_closed {early late : Session σ} {used' : List ProposalId}
    (hearly : Sound used early c) (hlate : Sound used' late c')
    (hslot : early.engine.registry.slots[p]? = some slot)
    (hslot' : late.engine.registry.slots[p]? = some slot) (hfolder : c'.folder p = c.folder p)
    (hclosed : ¬ slot.proposal.IsOpen) : Final p slot.proposal early late := by
  have hmirrors := hlate.mirrored.mirrors hslot'
  have hproposals : c'.proposals[p]? = c.proposals[p]? := congrArg Folder.proposal hfolder
  have htallies : c'.tallies p = c.tallies p := congrArg Folder.tally hfolder
  have hsame : late.engine.slot p = early.engine.slot p := by
    rw [Engine.slot_eq_ok.2 hslot, Engine.slot_eq_ok.2 hslot']
  obtain ⟨t, hresult⟩ : ∃ t, slot.proposal.result = some t :=
    Option.ne_none_iff_exists'.1 fun hnone => hclosed (hmirrors.isOpen_iff.2 hnone)
  refine
    { proposal_eq := ?_, status_eq := ?_, record_eq := ?_, record_eq_early := ?_, tally_eq := ?_
      tally_eq_early := ?_, preview_eq := ?_, resolve_eq := ?_, actors_eq := ?_, current_eq := ?_
      history_eq := ?_
      vote_refused := fun v isYes => respond_vote_of_closed hslot' hclosed
      delegate_refused := fun v d hother => respond_delegate_of_closed hslot' hclosed hother
      finalize_refused := fun v => respond_finalize_of_closed hslot' hclosed
      commit_refused := fun result =>
        respond_commit_of_closed hslot' hclosed (hlate.mirrored.id_eq hslot') }
  · rw [Engine.proposal, Engine.slot_eq_ok.2 hslot']
    rfl
  · cases hstatus : slot.proposal.status with
    | «open» => exact absurd hstatus hclosed
    | finalized => rfl
  · have hrecord : c'.proposals[p]? = some _ := hmirrors.proposal_eq
    rw [LawfulStore.proposal_eq p hlate.keeps, hrecord]
  · rw [LawfulStore.proposal_eq p hlate.keeps, LawfulStore.proposal_eq p hearly.keeps, hproposals]
  · have htally : c'.tallies p = _ := hmirrors.tally_eq
    rw [LawfulStore.tally_eq p hlate.keeps, htally, hresult]
    exact ⟨t, rfl, rfl⟩
  · rw [LawfulStore.tally_eq p hlate.keeps, LawfulStore.tally_eq p hearly.keeps, htallies]
  · simp only [Engine.preview, hsame]
  · simp only [Engine.resolve, hsame]
  · simp only [Engine.actors, hsame]
  · simp only [Engine.current, hsame, implies_true]
  · simp only [Engine.history, hsame, implies_true]

/-- **A finalized proposal is final.** Whatever happens later, its record, its tally, what is shown
of its votes and what the store keeps of it stay as they are, and ballots on it and attempts to
close it are refused. So no proposal is closed twice. -/
theorem final_of_finalized {rules : Rules} {store : σ} {now : Timestamp}
    {before after : List Event} (hempty : LawfulStore.Keeps store .empty)
    (hfits : ∀ event ∈ before ++ after, event.Fits)
    (hroom : Throughout HasRoom (start rules store now) (before ++ after))
    (hnodup : ((start rules store now).generated (before ++ after)).Nodup) :
    let early := (start rules store now).run before
    let late := (start rules store now).run (before ++ after)
    (∀ p proposal, early.engine.proposal p = .ok proposal → proposal.status = .finalized →
      Final p proposal early late) ∧
      ∀ p, closings p (start rules store now) (before ++ after) ≤ 1 := by
  intro early late
  have hstart := sound_start hempty rules now
  have horderly : Orderly [] (start rules store now) (before ++ after) :=
    ⟨hfits, hroom, hnodup, nofun⟩
  obtain ⟨hbefore, hafter⟩ := horderly.append
  refine ⟨fun p proposal hproposal hstatus => ?_, fun p => closings_le_one hstart horderly⟩
  obtain ⟨c, hearly⟩ := hstart.sound_run hbefore
  obtain ⟨slot, hslot, rfl⟩ := map_eq_ok hproposal
  have hslot := Engine.slot_eq_ok.1 hslot
  have hclosed : ¬ slot.proposal.IsOpen := by
    unfold Proposal.IsOpen
    rw [hstatus]
    nofun
  obtain ⟨c', hlate, hslot', hfolder⟩ := hearly.closed_run hslot hclosed hafter
  rw [← run_append] at hlate hslot'
  exact final_of_closed hearly hlate hslot hslot' hfolder hclosed

/-- A proposal that has been closed with two votes, a recovery, and a ballot that comes too late. -/
theorem final_of_finalized_of_late_ballot :
    let p : ProposalId := ⟨.replicate 16 1, rfl⟩
    let before : List Event := [.create p 1 "tea", .vote p 2 true, .delegate p 1 2, .finalize p 3]
    let late := (start {} MemoryStore.empty 0).run (before ++ [.restart {}, .vote p 2 false])
    late.engine.proposal p =
      .ok ⟨p, 0, 1, "tea", .finalized, 0, some ⟨p, 2, 0, 0, .passed, 3, 0⟩⟩ := by
  intro p before late
  have hfits : ∀ event ∈ before ++ [.restart {}, .vote p 2 false], event.Fits := by
    simp [before, Event.Fits]
    decide
  have hnodup : ((start {} MemoryStore.empty 0).generated
      (before ++ [.restart {}, .vote p 2 false])).Nodup :=
    (generated_sublist _ _).nodup (by decide)
  have hroom : Throughout HasRoom (start {} MemoryStore.empty 0)
      (before ++ [.restart {}, .vote p 2 false]) :=
    (orderly_start MemoryStore.contents_empty hfits
      ((numbersTaken_le_length _ _).trans_lt (by decide)) hnodup).hasRoom
  have hearly : ((start {} MemoryStore.empty 0).run before).engine.proposal p =
      .ok ⟨p, 0, 1, "tea", .finalized, 0, some ⟨p, 2, 0, 0, .passed, 3, 0⟩⟩ := by
    decide +kernel
  exact ((@final_of_finalized MemoryStore _ _ {} .empty 0 before _ MemoryStore.contents_empty hfits
    hroom hnodup).1 p _ hearly rfl).proposal_eq

end Session

end DelegatedVoting
