import DelegatedVoting.Proofs.Effects
import DelegatedVoting.Proofs.Listing
import DelegatedVoting.Proofs.Runs

/-!
# The number of open proposals

The number of open proposals is found by going through the list of all proposals. It is one larger
after a proposal has been created, one smaller after one has been closed, and the same after
everything else, whether it is accepted or not.

* `Registry.Mirrored.openCount_eq`: the open proposals are those that are known to be open;
* `Registry.Mirrored.openCount_enter`, `openCount_update`, `openCount_restored`: what changes do;
* `Session.Sound.openCount_step`: what an event does, as its reply tells.
-/

namespace DelegatedVoting

/-! ### The open proposals of a registry -/

theorem Proposal.status_eq_finalized_iff {q : Proposal} : q.status = .finalized ↔ ¬ q.IsOpen := by
  unfold IsOpen
  cases q.status <;> simp

namespace Registry

variable {r : Registry} {c c' : Contents} {p : ProposalId} {slot slot' : Slot}

/-- The entry of an open proposal. -/
def isOpenEntry (e : ProposalId × Slot) : Bool := e.2.proposal.IsOpen

namespace Mirrored

theorem isPlaced (h : r.Mirrored c) : r.IsPlaced := fun _ _ hp => h.order_iff.1 hp

/-- Every proposal that is known is listed, once. -/
theorem perm_list (h : r.Mirrored c) :
    r.list.Perm (r.slots.toList.map fun e => e.2.proposal) := by
  have hnodup : (r.slots.toList.map fun e => e.2.proposal).Nodup := by
    refine List.Nodup.map_on (fun e he e' he' heq => ?_) (Maps.nodup_toList _)
    rw [Maps.mem_toList_iff] at he he'
    have hkey : e.1 = e'.1 := by rw [← h.id_eq he, ← h.id_eq he', heq]
    rw [hkey] at he
    exact Prod.ext hkey (Option.some.inj (he.symm.trans he'))
  refine (List.perm_ext_iff_of_nodup h.isPlaced.nodup_places.of_map hnodup).2 fun q => ?_
  rw [mem_list, List.mem_map]
  constructor
  · rintro ⟨n, p, slot, -, hslot, rfl⟩
    exact ⟨(p, slot), Maps.mem_toList_iff.2 hslot, rfl⟩
  · rintro ⟨e, he, rfl⟩
    rw [Maps.mem_toList_iff] at he
    exact ⟨_, e.1, e.2, h.order_iff.2 ⟨e.2, he, rfl⟩, he, rfl⟩

/-- **The open proposals are those that are known to be open.** -/
theorem openCount_eq (h : r.Mirrored c) : r.openCount = r.slots.toList.countP isOpenEntry := by
  rw [openCount, h.perm_list.countP_eq, List.countP_map]
  rfl

/-- A new proposal is open. -/
theorem openCount_enter {q : Proposal} (h : r.Mirrored c) (h' : (r.burn.add q).Mirrored c')
    (hnew : r.slots[q.id]? = none) (hopen : q.IsOpen) :
    (r.burn.add q).openCount = r.openCount + 1 := by
  rw [h.openCount_eq, h'.openCount_eq]
  show (r.slots.insert q.id ⟨q, .empty⟩).toList.countP isOpenEntry = _
  rw [Maps.countP_insert, Maps.erase_of_getElem?_eq_none hnew,
    if_pos (show isOpenEntry _ = true from decide_eq_true hopen)]

/-- What is known about a proposal changes, and with it whether it is counted. -/
theorem openCount_update (h : r.Mirrored c) (h' : (r.update p slot').Mirrored c')
    (hslot : r.slots[p]? = some slot) :
    (r.update p slot').openCount + (if slot.proposal.IsOpen then 1 else 0) =
      r.openCount + if slot'.proposal.IsOpen then 1 else 0 := by
  rw [h.openCount_eq, h'.openCount_eq, (Maps.perm_toList hslot).countP_eq, List.countP_cons]
  show (r.slots.insert p slot').toList.countP isOpenEntry + _ = _
  rw [Maps.countP_insert]
  simp only [isOpenEntry, decide_eq_true_eq]
  omega

/-- As many proposals are open after a recovery as were before. -/
theorem openCount_restored (h : r.Mirrored c) : r.restored.openCount = r.openCount := by
  rw [h.openCount_eq, h.restored.openCount_eq, h.slots_restored]

end Mirrored

end Registry

/-! ### What an event does -/

namespace Session

variable {σ : Type} [Store σ] [LawfulStore σ] {s : Session σ} {c : Contents} {event : Event}
  {used : List ProposalId}

/-- What a reply tells of the number of open proposals: a new one is open, and one that has been
counted out is closed. -/
def Shifts (reply : Except Refusal Reply) (before after : Nat) : Prop :=
  match reply with
  | .ok (.proposal _) => after = before + 1
  | .ok (.tally _) => after + 1 = before
  | _ => after = before

/-- **What an event does to the number of open proposals is what its reply tells,** unless a result
has been committed, which is replied to by the proposal. -/
theorem Sound.openCount_step (h : Sound used s c) (hfits : event.Fits) (hroom : s.HasRoom)
    (hfresh : ∀ p ∈ s.generates event, p ∉ used) (hcommit : ∀ p t, event ≠ .commit p t) :
    Shifts (s.respond event).1 s.engine.openCount (s.step event).engine.openCount := by
  obtain ⟨c', h', -⟩ := h.step hfits hroom hfresh
  have hbefore := h.mirrored
  have hafter := h'.mirrored
  have hgoes := s.respond_goes event
  have hstep : s.step event = (s.respond event).2 := rfl
  rw [hstep] at hafter ⊢
  generalize s.respond event = outcome at hgoes hafter ⊢
  obtain ⟨reply, after⟩ := outcome
  cases hgoes with
  | refused => rfl
  | burned => rfl
  | created _ fresh v text store hcreates =>
    have hnew := h.slots_eq_none (hfresh fresh (by simp [hcreates.generates_eq]))
    exact hbefore.openCount_enter hafter hnew rfl
  | cast _ p action slot store hcasts hslot hopen =>
    have := hbefore.openCount_update hafter hslot
    rw [if_pos hopen] at this
    exact Nat.add_right_cancel this
  | closed _ p slot result reply store hcloses hslot hopen =>
    have := hbefore.openCount_update hafter hslot
    rw [if_pos hopen, if_neg (by simp [Proposal.IsOpen, Proposal.finalize])] at this
    rcases hcloses with ⟨rfl, -⟩ | ⟨v, -, -, -, rfl⟩
    · exact absurd rfl (hcommit p result)
    · exact this
  | clock => rfl
  | refuseWrites => rfl
  | restarted rules engine hrecover =>
    obtain ⟨-, rfl⟩ := (hbefore.recover_eq_ok_iff h.keeps).1 hrecover
    exact hbefore.openCount_restored

end Session

end DelegatedVoting
