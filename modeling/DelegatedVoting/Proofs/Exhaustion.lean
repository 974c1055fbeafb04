import DelegatedVoting.Proofs.Atomicity

/-!
# The last number

A recovery refuses records under the last number, since it has no successor. The calls do not ask
for this: they give the last number away, and what has then been written is refused by every later
recovery. As long as no call has been answered with the last number, recoveries go on to succeed.

* `Folder.IsSpoiled`: there is a record under the last number;
* `Registry.IsBacked`: what is in memory is what a recovery would read;
* `Session.Linked`, `Session.Linked.step`: what every event keeps, and what becomes of the records;
* `Session.exists_recover_run_iff`: when a recovery succeeds after a run.
-/

namespace DelegatedVoting

open Packed Recovery

/-! ### Records under the last number -/

/-- There is a record under the last number. -/
def Folder.IsSpoiled (f : Folder) : Prop :=
  (∃ q, f.Tells q ∧ ¬ HasSuccessor q.sequence) ∨
    ∃ q, f.Tells q ∧ ∃ seq ∈ f.ballots, ¬ HasSuccessor seq

variable {f : Folder} {p : ProposalId} {slot : Slot} {c c' : Contents}

theorem Folder.IsSpoiled.exists_record (h : f.IsSpoiled) :
    ∃ record, f.proposal = some record := by
  rcases h with ⟨q, ⟨record, hrecord, -⟩, -⟩ | ⟨q, ⟨record, hrecord, -⟩, -⟩ <;>
    exact ⟨record, hrecord⟩

theorem Folder.not_isSpoiled_empty : ¬ Folder.empty.IsSpoiled := by
  intro h
  obtain ⟨record, hrecord⟩ := h.exists_record
  cases hrecord

/-- Records under the last number are not read. -/
theorem Folder.IsSpoiled.not_readFrom (h : f.IsSpoiled) : ¬ slot.ReadFrom p f := by
  intro hread
  rcases h with ⟨q, htells, hlast⟩ | ⟨q, -, seq, hseq, hlast⟩
  · rw [htells.eq hread.tells] at hlast
    exact hlast hread.hasSuccessor
  · obtain ⟨record, hrecord⟩ := Maps.mem_iff.1 hseq
    have he : (seq, record) ∈ f.ballots.toList := Maps.mem_toList_iff.2 hrecord
    obtain ⟨records, hrecords, -⟩ := hread.ballots
    obtain ⟨r, -, hr⟩ := Forall₂.exists_left hrecords he
    exact hlast hr.hasSuccessor

/-- What is in memory about each proposal is what a recovery would read. -/
def Registry.IsBacked (r : Registry) (c : Contents) : Prop :=
  ∀ (p : ProposalId) (slot : Slot), r.slots[p]? = some slot → slot.ReadFrom p (c.folder p)

namespace Session

variable {σ : Type} [Store σ] [LawfulStore σ] {s s' : Session σ} {event : Event}
  {events : List Event} {reply : Reply} {rules : Rules}

/-- The reply reports the last number. -/
def Reply.IsLast : Reply → Prop
  | .proposal q => ¬ HasSuccessor q.sequence
  | .action a => ¬ HasSuccessor a.seq
  | _ => False

instance (reply : Reply) : Decidable reply.IsLast := by
  unfold Reply.IsLast; split <;> infer_instance

/-- The replies to the events of a run. -/
def replies : Session σ → List Event → List (Except Refusal Reply)
  | _, [] => []
  | s, event :: events => (s.respond event).1 :: (s.step event).replies events

/-- The store tells about the proposals that are in memory what is in memory, as far as it is not
about ballots. -/
structure Linked (s : Session σ) (c : Contents) : Prop where
  keeps : LawfulStore.Keeps s.store c
  mem_iff : ∀ p, p ∈ s.engine.registry.slots ↔ p ∈ c.proposals
  id_eq {p : ProposalId} {slot : Slot} (h : s.engine.registry.slots[p]? = some slot) :
    slot.proposal.id = p
  tells {p : ProposalId} {slot : Slot} (h : s.engine.registry.slots[p]? = some slot) :
    (c.folder p).Tells slot.proposal

end Session

/-! ### What becomes of the records of one proposal -/

namespace Write

/-- What becomes of a proposal and its records: they stay linked; once there is a record under the
last number, there always is one; and else they stay in order. -/
structure Turns (last : Prop) (p : ProposalId) (before : Option Slot) (f : Folder) (slot' : Slot)
    (f' : Folder) : Prop where
  id_eq : slot'.proposal.id = p
  tells : f'.Tells slot'.proposal
  isSpoiled : f.IsSpoiled → f'.IsSpoiled
  isSpoiled_of_last : last → f'.IsSpoiled
  readFrom : (∀ slot, before = some slot → slot.ReadFrom p f) → ¬ last → slot'.ReadFrom p f'

variable {σ : Type} {s : Session σ} {event : Session.Event} {reply : Session.Reply}
  {after : Engine} {w : Write}

/-- What an accepted call makes of the records of a proposal. -/
theorem Backs.turns [Store σ] [LawfulStore σ] (h : w.Backs s after event reply)
    (hlinked : s.Linked c) (hnamed : event.IsNamed)
    (hfresh : ∀ p ∈ s.generates event, c.folder p = .empty) :
    ∃ slot', after.slot w.subject = .ok slot' ∧
      Turns reply.IsLast w.subject s.engine.registry.slots[w.subject]? (c.folder w.subject) slot'
        (w.file (c.folder w.subject)) := by
  cases h with
  | @create fresh v text record hcreates hdecode hafter =>
    have hempty := hfresh fresh (by simp [hcreates.generates_eq])
    refine ⟨_, hafter, rfl, ⟨record, rfl, hdecode⟩, fun hspoiled => ?_, fun hlast => ?_,
      fun _ hroom => ?_⟩
    · exact absurd (hempty ▸ hspoiled) Folder.not_isSpoiled_empty
    · exact .inl ⟨_, ⟨record, rfl, hdecode⟩, hlast⟩
    · show Slot.ReadFrom _ _ { c.folder fresh with proposal := some record }
      rw [hempty]
      exact .new hdecode rfl rfl (not_not.1 hroom)
  | @cast p action slot record r hcasts hr hopen hdecode hbefore hafter hheld =>
    have hslot := Engine.slot_eq_ok.1 hbefore
    have hid := hlinked.id_eq hslot
    have htells := hlinked.tells hslot
    refine ⟨_, hafter, hid, htells, ?_, fun hlast => ?_, fun hread hroom => ?_⟩
    · rintro (⟨q, hq, hlast⟩ | ⟨q, hq, seq, hseq, hlast⟩)
      · exact .inl ⟨q, hq, hlast⟩
      · exact .inr ⟨q, hq, seq, Std.ExtTreeMap.mem_insert.2 (.inr hseq), hlast⟩
    · exact .inr ⟨_, htells, _, Std.ExtTreeMap.mem_insert_self, hlast⟩
    · subst hr
      exact (hread slot hslot).ballot hdecode (hcasts.seq_eq _) (not_not.1 hroom)
        (hcasts.not_self _)
  | @close p slot result _ record tally hcloses hopen hdecode htally hbefore hafter =>
    have hslot := Engine.slot_eq_ok.1 hbefore
    have hid := hlinked.id_eq hslot
    have htells := hlinked.tells hslot
    have hresult : result.proposal = p := by
      rcases hcloses with ⟨rfl, -⟩ | ⟨v, -, -, rfl, -⟩
      · exact hnamed
      · rfl
    refine ⟨_, hafter, hid, ⟨record, rfl, hdecode⟩, ?_, fun hlast => ?_,
      fun hread _ => (hread slot hslot).close hdecode htally hresult⟩
    · rintro (⟨q, hq, hlast⟩ | ⟨q, hq, hseq⟩)
      · rw [hq.eq htells] at hlast
        exact .inl ⟨_, ⟨record, rfl, hdecode⟩, hlast⟩
      · exact .inr ⟨_, ⟨record, rfl, hdecode⟩, hseq⟩
    · rcases hcloses with ⟨-, rfl⟩ | ⟨v, -, -, -, rfl⟩
      · exact .inl ⟨_, ⟨record, rfl, hdecode⟩, hlast⟩
      · exact hlast.elim

/-- An accepted call is about a new proposal or about one that is in memory. -/
theorem Backs.subject_mem [Store σ] [LawfulStore σ] (h : w.Backs s after event reply) :
    w.subject ∈ s.generates event ∨ ∃ slot, s.engine.registry.slots[w.subject]? = some slot := by
  cases h with
  | create hcreates => exact .inl (by simp [hcreates.generates_eq, subject])
  | cast _ _ _ _ hbefore => exact .inr ⟨_, Engine.slot_eq_ok.1 hbefore⟩
  | close _ _ _ _ hbefore => exact .inr ⟨_, Engine.slot_eq_ok.1 hbefore⟩

end Write

/-! ### What becomes of the records of all proposals -/

/-- There is a record under the last number. -/
def Contents.IsSpoiled (c : Contents) : Prop := ∃ p, (c.folder p).IsSpoiled

namespace Session

variable {σ : Type} [Store σ] [LawfulStore σ] {s s' : Session σ} {event : Event}
  {events : List Event} {reply : Reply} {rules : Rules} {answer : Except Refusal Reply}

/-- A call has been answered with the last number. -/
def IsLastAnswer : Except Refusal Reply → Prop
  | .ok reply => reply.IsLast
  | .error _ => False

instance (answer : Except Refusal Reply) : Decidable (IsLastAnswer answer) := by
  unfold IsLastAnswer; split <;> infer_instance

/-- What an event makes of memory and store. -/
structure Passes (s : Session σ) (c : Contents) (event : Event) (answer : Except Refusal Reply)
    (s' : Session σ) (c' : Contents) : Prop where
  linked : s'.Linked c'
  isSpoiled : c.IsSpoiled → c'.IsSpoiled
  isSpoiled_of_last : IsLastAnswer answer → c'.IsSpoiled
  isBacked : s.engine.registry.IsBacked c → ¬ IsLastAnswer answer → s'.engine.registry.IsBacked c'
  folder_eq_empty : ∀ p, c.folder p = .empty → p ∉ s.generates event → c'.folder p = .empty

/-- An event that neither writes nor changes what is known about proposals. -/
theorem Linked.passes_of_slots_eq (h : s.Linked c) (hkeeps : LawfulStore.Keeps s'.store c)
    (hslots : s'.engine.registry.slots = s.engine.registry.slots) (hlast : ¬ IsLastAnswer answer) :
    s.Passes c event answer s' c where
  linked :=
    { keeps := hkeeps
      mem_iff := hslots ▸ h.mem_iff
      id_eq := fun hslot => h.id_eq (hslots ▸ hslot)
      tells := fun hslot => h.tells (hslots ▸ hslot) }
  isSpoiled := id
  isSpoiled_of_last h := absurd h hlast
  isBacked h _ p slot hslot := h p slot (hslots ▸ hslot)
  folder_eq_empty _ h _ := h

theorem linked_of_readFrom (hkeeps : LawfulStore.Keeps s.store c)
    (h : s.engine.registry.ReadFrom c) : s.Linked c where
  keeps := hkeeps
  mem_iff := h.mem_iff
  id_eq hslot := h.isFiled _ _ hslot
  tells hslot := (h.slot hslot).tells

/-- What is in memory after a write is its subject as the write has left it, or has been there
before. -/
theorem slots_cases {e e' : Engine} {w : Write} {new : Slot} (hnew : e'.slot w.subject = .ok new)
    (hrest : ∀ p ≠ w.subject, e'.slot p = e.slot p) (hslot : e'.registry.slots[p]? = some slot) :
    p = w.subject ∧ slot = new ∨ p ≠ w.subject ∧ e.registry.slots[p]? = some slot := by
  rw [← Engine.slot_eq_ok] at hslot
  by_cases hp : p = w.subject
  · subst hp
    exact .inl ⟨rfl, Except.ok.inj (hslot.symm.trans hnew)⟩
  · rw [hrest p hp] at hslot
    exact .inr ⟨hp, Engine.slot_eq_ok.1 hslot⟩

/-- Memory and store stay linked if they are linked in what a write is about. -/
theorem Linked.write {w : Write} {new : Slot} (h : s.Linked c)
    (hperform : w.perform s.store = .ok s'.store) (hnew : s'.engine.slot w.subject = .ok new)
    (hrest : ∀ p ≠ w.subject, s'.engine.slot p = s.engine.slot p)
    (hid : new.proposal.id = w.subject)
    (htells : ((w.amend c).folder w.subject).Tells new.proposal) : s'.Linked (w.amend c) := by
  refine ⟨Write.keeps_amend h.keeps hperform, fun p => ?_, fun {p slot} hslot => ?_,
    fun {p slot} hslot => ?_⟩
  · by_cases hp : p = w.subject
    · subst hp
      obtain ⟨record, hrecord, -⟩ := htells
      exact iff_of_true (Maps.mem_iff.2 ⟨new, Engine.slot_eq_ok.1 hnew⟩)
        (Maps.mem_iff.2 ⟨record, hrecord⟩)
    · have hproposal : (w.amend c).proposals[p]? = c.proposals[p]? :=
        congrArg Folder.proposal (w.folder_amend_of_ne c hp)
      have hmem := h.mem_iff p
      simp only [Maps.mem_iff, ← Engine.slot_eq_ok] at hmem ⊢
      rw [hproposal, hrest p hp, hmem]
  · rcases slots_cases hnew hrest hslot with ⟨rfl, rfl⟩ | ⟨-, hslot⟩
    · exact hid
    · exact h.id_eq hslot
  · rcases slots_cases hnew hrest hslot with ⟨rfl, rfl⟩ | ⟨hp, hslot⟩
    · exact htells
    · rw [w.folder_amend_of_ne c hp]
      exact h.tells hslot

/-- An accepted call. -/
theorem Linked.passes_of_write {w : Write} (h : s.Linked c) (hnamed : event.IsNamed)
    (hfresh : ∀ p ∈ s.generates event, c.folder p = .empty)
    (hperform : w.perform s.store = .ok s'.store) (hbacks : w.Backs s s'.engine event reply)
    (hrest : ∀ p ≠ w.subject, s'.engine.slot p = s.engine.slot p) :
    s.Passes c event (.ok reply) s' (w.amend c) := by
  obtain ⟨new, hnew, hturns⟩ := hbacks.turns h hnamed hfresh
  rw [← w.folder_amend c] at hturns
  refine ⟨h.write hperform hnew hrest hturns.id_eq hturns.tells, ?_,
    fun hlast => ⟨_, hturns.isSpoiled_of_last hlast⟩, fun hbacked hlast p slot hslot => ?_,
    fun p hp hgenerates => ?_⟩
  · rintro ⟨p, hp⟩
    by_cases hsubject : p = w.subject
    · subst hsubject
      exact ⟨_, hturns.isSpoiled hp⟩
    · exact ⟨p, by rwa [w.folder_amend_of_ne c hsubject]⟩
  · rcases slots_cases hnew hrest hslot with ⟨rfl, rfl⟩ | ⟨hp, hslot⟩
    · exact hturns.readFrom (fun slot hslot => hbacked _ slot hslot) hlast
    · rw [w.folder_amend_of_ne c hp]
      exact hbacked p slot hslot
  · have hp' : p ≠ w.subject := by
      rintro rfl
      rcases hbacks.subject_mem with hmem | ⟨slot, hslot⟩
      · exact hgenerates hmem
      · obtain ⟨record, hrecord, -⟩ := h.tells hslot
        rw [hp] at hrecord
        cases hrecord
    rw [w.folder_amend_of_ne c hp', hp]

/-- **What every event makes of memory and store.** They stay linked; a record under the last number
is there for good; and as long as there is none, what is in memory is what a recovery would read. -/
theorem Linked.step (h : s.Linked c) (hfits : event.Fits) (hnamed : event.IsNamed)
    (hfresh : ∀ p ∈ s.generates event, c.folder p = .empty) :
    ∃ c', s.Passes c event (s.respond event).1 (s.step event) c' := by
  have hgoes := s.respond_goes event
  have hwritable : s.engine.registry.IsWritable := fun p slot hslot =>
    ⟨h.id_eq hslot, (h.tells hslot).fits⟩
  rw [Session.step]
  generalize (s.respond event).1 = answer, (s.respond event).2 = s' at hgoes ⊢
  cases answer with
  | error x =>
    have hrejects := hgoes.rejects
    exact ⟨c, h.passes_of_slots_eq (hrejects.store_eq ▸ h.keeps) hrejects.slots_eq id⟩
  | ok reply =>
    by_cases hrequest : event.IsRequest
    · obtain ⟨w, hperform, hbacks, -, -, hrest⟩ := hgoes.exists_write hrequest hfits hwritable
      exact ⟨_, h.passes_of_write hnamed hfresh hperform hbacks hrest⟩
    · cases hgoes with
      | clock now => exact ⟨c, h.passes_of_slots_eq h.keeps rfl id⟩
      | refuseWrites refuse =>
        exact ⟨c, h.passes_of_slots_eq (LawfulStore.keeps_refuseWrites refuse h.keeps) rfl id⟩
      | restarted rules engine hrecover =>
        obtain ⟨-, hread⟩ := (recover_eq_ok_iff h.keeps).1 hrecover
        exact ⟨c, linked_of_readFrom h.keeps hread, id, False.elim,
          fun _ _ p slot hslot => hread.slot hslot, fun _ hp _ => hp⟩
      | created _ fresh v text store hcreates => exact absurd hcreates.isRequest hrequest
      | cast _ p action slot store hcasts => exact absurd hcasts.isRequest hrequest
      | closed _ p slot result reply store hcloses => exact absurd hcloses.isRequest hrequest

/-- **What a run makes of memory and store.** -/
theorem Linked.run (h : s.Linked c) (hevents : ∀ event ∈ events, event.Fits ∧ event.IsNamed)
    (hnodup : (s.generated events).Nodup) (hfresh : ∀ p ∈ s.generated events, c.folder p = .empty) :
    ∃ c', (s.run events).Linked c' ∧ (c.IsSpoiled → c'.IsSpoiled) ∧
      ((∃ answer ∈ s.replies events, IsLastAnswer answer) → c'.IsSpoiled) ∧
      (s.engine.registry.IsBacked c → (∀ answer ∈ s.replies events, ¬ IsLastAnswer answer) →
        (s.run events).engine.registry.IsBacked c') := by
  induction events generalizing s c with
  | nil => exact ⟨c, h, id, by simp [replies], fun hbacked _ => hbacked⟩
  | cons event events ih =>
    rw [generated] at hnodup hfresh
    obtain ⟨-, hnodup', hdisjoint⟩ := List.nodup_append.1 hnodup
    obtain ⟨hfits, hnamed⟩ := hevents event (by simp)
    obtain ⟨c', hpasses⟩ := h.step hfits hnamed fun p hp => hfresh p (List.mem_append_left _ hp)
    obtain ⟨c'', hlinked, hspoiled, hlast, hbacked⟩ := ih hpasses.linked
      (fun event' hevent' => hevents event' (by simp [hevent'])) hnodup' fun p hp =>
        hpasses.folder_eq_empty p (hfresh p (List.mem_append_right _ hp))
          fun hgenerates => hdisjoint p hgenerates p hp rfl
    refine ⟨c'', hlinked, hspoiled ∘ hpasses.isSpoiled, ?_, fun hb hanswers => ?_⟩
    · rintro ⟨answer, hanswer, hthis⟩
      rcases List.mem_cons.1 hanswer with rfl | hanswer
      · exact hspoiled (hpasses.isSpoiled_of_last hthis)
      · exact hlast ⟨answer, hanswer, hthis⟩
    · obtain ⟨hnow, hlater⟩ := List.forall_mem_cons.1 hanswers
      exact hbacked (hpasses.isBacked hb hnow) hlater

/-- **When a recovery succeeds after a run.** Whatever an engine has been recovered from, and
whatever has happened to it since then, another recovery succeeds if and only if no call has been
answered with the last number. -/
theorem exists_recover_run_iff {store : σ} {e : Engine} {now : Timestamp} {rules' : Rules}
    (hkeeps : LawfulStore.Keeps store c) (hrecover : Engine.recover rules store = .ok e)
    (hevents : ∀ event ∈ events, event.Fits ∧ event.IsNamed)
    (hnodup : ((⟨e, store, now⟩ : Session σ).generated events).Nodup)
    (hfresh : ∀ p ∈ (⟨e, store, now⟩ : Session σ).generated events, c.folder p = .empty) :
    (∃ e', Engine.recover rules' ((⟨e, store, now⟩ : Session σ).run events).store = .ok e') ↔
      ∀ answer ∈ (⟨e, store, now⟩ : Session σ).replies events, ¬ IsLastAnswer answer := by
  obtain ⟨-, hread⟩ := (recover_eq_ok_iff hkeeps).1 hrecover
  have hlinked : (⟨e, store, now⟩ : Session σ).Linked c := linked_of_readFrom hkeeps hread
  obtain ⟨c', hlinked', -, hlast, hbacked⟩ := hlinked.run hevents hnodup hfresh
  rw [exists_recover_iff hlinked'.keeps]
  constructor
  · intro hslots answer hanswer hthis
    obtain ⟨p, hp⟩ := hlast ⟨answer, hanswer, hthis⟩
    obtain ⟨record, hrecord⟩ := hp.exists_record
    obtain ⟨slot, hslot⟩ := hslots p (Maps.mem_iff.2 ⟨record, hrecord⟩)
    exact hp.not_readFrom hslot
  · intro hanswers p hp
    obtain ⟨slot, hslot⟩ := Maps.mem_iff.1 ((hlinked'.mem_iff p).2 hp)
    exact ⟨slot, hbacked (fun p slot hslot => hread.slot hslot) hanswers p slot hslot⟩

/-- A proposal is at the third place from the end. A recovery succeeds after one more proposal, but
not after two. -/
theorem exists_recover_run_iff_of_two_proposals :
    let p : ProposalId := ⟨.replicate 16 1, rfl⟩
    let q : ProposalId := ⟨.replicate 16 2, rfl⟩
    let q' : ProposalId := ⟨.replicate 16 3, rfl⟩
    let tea : Proposal := ⟨p, 18446744073709551613, 1, "tea", .open, 0, none⟩
    let store : MemoryStore :=
      { MemoryStore.empty with
        proposals := Std.ExtTreeMap.empty.insert p (Format.proposal.write tea) }
    let s : Session MemoryStore := ⟨⟨{}, .ofSlots [⟨tea, .empty⟩]⟩, store, 0⟩
    Engine.recover {} store = .ok s.engine ∧
      (∃ e, Engine.recover {} (s.run [.propose q 1 "cake"]).store = .ok e) ∧
      ¬ ∃ e, Engine.recover {}
        (s.run [.propose q 1 "cake", .propose q' 1 "pie"]).store = .ok e := by
  intro p q q' tea store s
  have hrecover : Engine.recover {} store = .ok s.engine := by decide +kernel
  have hcontents : store.contents =
      Contents.empty.putProposal p (Format.proposal.write tea) := by
    rw [← MemoryStore.contents_empty]
    rfl
  have hempty (fresh : ProposalId) (h : fresh ≠ p) : store.contents.folder fresh = .empty := by
    rw [hcontents, Contents.folder_putProposal_of_ne h, Contents.folder_empty]
  have hone : s.generated [.propose q 1 "cake"] = [q] := by decide +kernel
  have htwo : s.generated [.propose q 1 "cake", .propose q' 1 "pie"] = [q, q'] := by
    decide +kernel
  refine ⟨hrecover, (exists_recover_run_iff (c := store.contents) rfl hrecover
    (by simp [Event.Fits, Event.IsNamed]) (hone ▸ by decide) fun fresh hfresh => ?_).2
      (by decide +kernel), fun hexists => ?_⟩
  · rw [hone, List.mem_singleton] at hfresh
    exact hempty fresh (hfresh ▸ by decide)
  · have hanswers := (exists_recover_run_iff (c := store.contents) rfl hrecover
      (by simp [Event.Fits, Event.IsNamed]) (htwo ▸ by decide) fun fresh hfresh => ?_).1 hexists
    · exact absurd hanswers (by decide +kernel)
    · rw [htwo, List.mem_pair] at hfresh
      rcases hfresh with rfl | rfl
      · exact hempty q (by decide)
      · exact hempty q' (by decide)

/-- A stored ballot has the last number but one. The next vote is accepted under the last number,
and then recoveries fail. -/
theorem not_recover_of_last_ballot :
    let p : ProposalId := ⟨.replicate 16 1, rfl⟩
    let tea : Proposal := ⟨p, 0, 1, "tea", .open, 0, none⟩
    let ballot : Ballot.Record := ⟨.vote 2 true 18446744073709551614, 0⟩
    let store : MemoryStore :=
      { MemoryStore.empty with
        proposals := Std.ExtTreeMap.empty.insert p (Format.proposal.write tea)
        ballots := Std.ExtTreeMap.empty.insert p
          (Std.ExtTreeMap.empty.insert ballot.action.seq (Format.ballotRecord.write ballot)) }
    let s : Session MemoryStore := ⟨⟨{}, .ofSlots [⟨tea, .ofRecords [ballot]⟩]⟩, store, 0⟩
    Engine.recover {} store = .ok s.engine ∧
      (s.respond (.vote p 3 true)).1 = .ok (.action (.vote 3 true 18446744073709551615)) ∧
      Engine.recover {} (s.step (.vote p 3 true)).store =
        .error (.store (flawed p .lastBallotNumber)) := by
  decide +kernel

end Session

end DelegatedVoting
