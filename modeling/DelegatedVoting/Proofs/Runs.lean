import DelegatedVoting.Proofs.Recovery

/-!
# Runs

Memory and store agree throughout a run that begins with an empty store, provided that no name is
generated twice and no counter is exhausted. A property that every change keeps holds after a run.

* `Session.Sound`: memory and store agree, and the names in use are known;
* `Session.Orderly`: what is asked of the events that follow;
* `Session.SlotMoves`: where what is known about a proposal comes from;
* `Session.Sound.step`, `Session.Sound.run`: what holds after an event, and after a run;
* `Session.Bounded`, `Session.throughout_hasRoom`, `orderly_start`: few calls do not exhaust a
  counter;
* `Session.Sound.isConsistent_run`: results that name their proposals keep a registry consistent.
-/

namespace DelegatedVoting

open Recovery

namespace Session

variable {σ : Type} [Store σ] [LawfulStore σ] {s : Session σ} {c c' : Contents} {e : Engine}
  {event : Event} {events more : List Event} {used : List ProposalId} {p : ProposalId} {slot : Slot}

/-- Memory and store agree, and the names in use are among those that have been generated. -/
structure Sound (used : List ProposalId) (s : Session σ) (c : Contents) : Prop where
  keeps : LawfulStore.Keeps s.store c
  mirrored : s.engine.registry.Mirrored c
  mem_used {p : ProposalId} {slot : Slot} (h : s.engine.registry.slots[p]? = some slot) : p ∈ used

/-- The texts of the events fit, no counter is exhausted when they happen, and the names that they
generate are new and do not repeat. -/
structure Orderly (used : List ProposalId) (s : Session σ) (events : List Event) : Prop where
  fits : ∀ event ∈ events, event.Fits
  hasRoom : Throughout HasRoom s events
  nodup : (s.generated events).Nodup
  fresh : ∀ p ∈ s.generated events, p ∉ used

theorem sound_start {store : σ} (h : LawfulStore.Keeps store .empty) (rules : Rules)
    (now : Timestamp) : Sound [] (start rules store now) .empty where
  keeps := h
  mirrored := .empty
  mem_used h := by simp [start, Engine.new, Registry.empty] at h

/-! ### One event -/

theorem Sound.slots_eq_none (h : Sound used s c) (hp : p ∉ used) :
    s.engine.registry.slots[p]? = none := by
  cases hslot : s.engine.registry.slots[p]? with
  | none => rfl
  | some slot => exact absurd (h.mem_used hslot) hp

/-- Memory and store agree after a change. -/
theorem Moves.mirrored (hmove : s.Moves c event e c') (h : Sound used s c) (hroom : s.HasRoom)
    (hfresh : ∀ p ∈ s.generates event, p ∉ used) : e.registry.Mirrored c' := by
  cases hmove with
  | stay => exact h.mirrored
  | burn => exact h.mirrored.burn hroom.1
  | enter p hgenerates hsequence hopen hresult hfits =>
    have hnew := h.slots_eq_none (hfresh p.id (by simp [hgenerates]))
    exact h.mirrored.enter hnew hsequence hroom.1 hopen hresult hfits
  | ballot p slot r hslot hopen hseq hself =>
    exact h.mirrored.ballot hslot hseq (hroom.2 p slot hslot) hself
  | close p slot result hslot => exact h.mirrored.close hslot result
  | restart rules engine hevent hrecover =>
    obtain ⟨-, rfl⟩ := (h.mirrored.recover_eq_ok_iff h.keeps).1 hrecover
    exact h.mirrored.restored

/-- Where what is known about a proposal after an event comes from. -/
inductive SlotMoves (s : Session σ) (event : Event) (p : ProposalId) : Slot → Prop
  /-- It was known before. -/
  | keep (slot : Slot) (hslot : s.engine.registry.slots[p]? = some slot) : SlotMoves s event p slot
  /-- The proposal has been created. -/
  | enter (proposal : Proposal) (hgenerates : s.generates event = [p]) (hid : proposal.id = p)
      (hopen : proposal.IsOpen) (hresult : proposal.result = none) :
    SlotMoves s event p ⟨proposal, .empty⟩
  /-- A ballot has been accepted. -/
  | ballot (slot : Slot) (r : Ballot.Record) (hslot : s.engine.registry.slots[p]? = some slot)
      (hopen : slot.proposal.IsOpen) (hseq : r.action.seq = slot.book.nextSeq)
      (hballot : event.IsBallot) (haccepts : s.Accepts event) :
    SlotMoves s event p { slot with book := slot.book.apply r }
  /-- The proposal has been closed. -/
  | close (slot : Slot) (result : Tally) (hslot : s.engine.registry.slots[p]? = some slot)
      (hopen : slot.proposal.IsOpen)
      (hresult : event = .commit p result ∨
        ∃ v, event = .finalize p v ∧ Engine.MayFinalize s.engine.rules slot.proposal v ∧
          result = slot.tally p v s.now) :
    SlotMoves s event p { slot with proposal := slot.proposal.finalize result }

/-- Every change leaves of a proposal what was known, or what has been made of it. -/
theorem Moves.slotMoves (hmove : s.Moves c event e c') (h : Sound used s c)
    (hslot : e.registry.slots[p]? = some slot) : s.SlotMoves event p slot := by
  cases hmove with
  | stay => exact .keep slot hslot
  | burn => exact .keep slot hslot
  | enter q hgenerates hsequence hopen hresult =>
    rw [Registry.getElem?_slots_enter] at hslot
    split at hslot
    · rename_i hq
      cases hslot
      exact .enter q (hq ▸ hgenerates) hq hopen hresult
    · exact .keep slot hslot
  | ballot q old r hold hopen hseq _ hballot haccepts =>
    rw [Registry.getElem?_slots_update] at hslot
    split at hslot
    · rename_i hq
      subst hq
      cases hslot
      exact .ballot old r hold hopen hseq hballot haccepts
    · exact .keep slot hslot
  | close q old result hold hopen _ _ hresult =>
    rw [Registry.getElem?_slots_update] at hslot
    split at hslot
    · rename_i hq
      subst hq
      cases hslot
      exact .close old result hold hopen hresult
    · exact .keep slot hslot
  | restart rules engine hevent hrecover =>
    obtain ⟨-, rfl⟩ := (h.mirrored.recover_eq_ok_iff h.keeps).1 hrecover
    rw [h.mirrored.slots_restored] at hslot
    exact .keep slot hslot

/-- The names in use after a change. -/
theorem Moves.mem_used (hmove : s.Moves c event e c') (h : Sound used s c)
    (hslot : e.registry.slots[p]? = some slot) : p ∈ used ++ s.generates event := by
  rw [List.mem_append]
  cases hmove.slotMoves h hslot with
  | keep _ hold => exact .inl (h.mem_used hold)
  | enter _ hgenerates => exact .inr (by simp [hgenerates])
  | ballot _ _ hold => exact .inl (h.mem_used hold)
  | close _ _ hold => exact .inl (h.mem_used hold)

/-- **Memory and store agree after an event,** which makes one of the changes. -/
theorem Sound.step (h : Sound used s c) (hfits : event.Fits) (hroom : s.HasRoom)
    (hfresh : ∀ p ∈ s.generates event, p ∉ used) :
    ∃ c', Sound (used ++ s.generates event) (s.step event) c' ∧
      s.Moves c event (s.step event).engine c' := by
  obtain ⟨c', hkeeps, hmove⟩ := step_moves h.keeps hfits
  exact ⟨c', ⟨hkeeps, hmove.mirrored h hroom hfresh, hmove.mem_used h⟩, hmove⟩

namespace Orderly

theorem head (h : Orderly used s (event :: events)) :
    event.Fits ∧ s.HasRoom ∧ ∀ p ∈ s.generates event, p ∉ used :=
  ⟨h.fits event (by simp), h.hasRoom.1,
    fun p hp => h.fresh p (by simp [generated, hp])⟩

theorem tail (h : Orderly used s (event :: events)) :
    Orderly (used ++ s.generates event) (s.step event) events where
  fits event' hevent' := h.fits event' (by simp [hevent'])
  hasRoom := h.hasRoom.2
  nodup := (List.nodup_append.1 h.nodup).2.1
  fresh p hp hused := by
    rcases List.mem_append.1 hused with hused | hgenerates
    · exact h.fresh p (by simp [generated, hp]) hused
    · exact (List.nodup_append.1 h.nodup).2.2 p hgenerates p hp rfl

theorem append (h : Orderly used s (events ++ more)) :
    Orderly used s events ∧ Orderly (used ++ s.generated events) (s.run events) more := by
  obtain ⟨hfits, hroom, hnodup, hfresh⟩ := h
  obtain ⟨hevents, hmore⟩ := (throughout_append s events more).1 hroom
  rw [generated_append] at hnodup hfresh
  obtain ⟨hnodup, hnodup', hdisjoint⟩ := List.nodup_append.1 hnodup
  refine ⟨⟨fun e he => hfits e (List.mem_append_left _ he), hevents, hnodup,
      fun p hp => hfresh p (List.mem_append_left _ hp)⟩,
    ⟨fun e he => hfits e (List.mem_append_right _ he), hmore, hnodup', fun p hp hused => ?_⟩⟩
  rcases List.mem_append.1 hused with hused | hgenerated
  · exact hfresh p (List.mem_append_right _ hp) hused
  · exact hdisjoint p hgenerated p hp rfl

end Orderly

/-! ### Runs -/

/-- **What every change keeps holds after a run.** The events of the run may be asked to be of one
kind. -/
theorem Sound.run {Q : Event → Prop} {P : Session σ → Contents → Prop}
    (hstep : ∀ {used : List ProposalId} {s : Session σ} {c : Contents} {event : Event}
      {c' : Contents}, Sound used s c → P s c → Q event → s.HasRoom →
        (∀ p ∈ s.generates event, p ∉ used) → s.Moves c event (s.step event).engine c' →
          P (s.step event) c')
    (h : Sound used s c) (hP : P s c) (horderly : Orderly used s events)
    (hQ : ∀ event ∈ events, Q event) :
    ∃ c', Sound (used ++ s.generated events) (s.run events) c' ∧ P (s.run events) c' := by
  induction events generalizing s c used with
  | nil => exact ⟨c, by simpa [generated] using h, hP⟩
  | cons event events ih =>
    obtain ⟨hfits, hroom, hfresh⟩ := horderly.head
    obtain ⟨c', h', hmove⟩ := h.step hfits hroom hfresh
    have hP' := hstep h hP (hQ event (by simp)) hroom hfresh hmove
    rw [generated, ← List.append_assoc]
    exact ih h' hP' horderly.tail fun event' hevent' => hQ event' (by simp [hevent'])

/-- Memory and store agree after a run. -/
theorem Sound.sound_run (h : Sound used s c) (horderly : Orderly used s events) :
    ∃ c', Sound (used ++ s.generated events) (s.run events) c' := by
  obtain ⟨c', h', -⟩ := h.run (Q := fun _ => True) (P := fun _ _ => True)
    (fun _ _ _ _ _ _ => trivial) trivial horderly fun _ _ => trivial
  exact ⟨c', h'⟩

/-! ### Few calls do not exhaust a counter -/

/-- Up to `n` numbers have been taken. -/
structure Bounded (n : Nat) (s : Session σ) : Prop where
  nextSequence_le : s.engine.registry.nextSequence.toNat ≤ n
  nextSeq_le {p : ProposalId} {slot : Slot} (h : s.engine.registry.slots[p]? = some slot) :
    slot.book.nextSeq.toNat ≤ n + 1

omit [Store σ] [LawfulStore σ] in
theorem bounded_start {rules : Rules} {store : σ} {now : Timestamp} :
    Bounded 0 (start rules store now) where
  nextSequence_le := Nat.le_refl _
  nextSeq_le h := by simp [start, Engine.new, Registry.empty] at h

omit [Store σ] [LawfulStore σ] in
theorem Bounded.hasRoom {n : Nat} (h : Bounded n s) (hn : n + 2 < UInt64.size) : s.HasRoom := by
  refine ⟨?_, fun p slot hslot => ?_⟩
  · have := h.nextSequence_le
    unfold HasSuccessor
    omega
  · have := h.nextSeq_le hslot
    unfold HasSuccessor
    omega

/-- An event raises a counter only if it takes a number. -/
theorem Bounded.step {n : Nat} (hn : Bounded n s) (h : Sound used s c) (hroom : s.HasRoom)
    (hmove : s.Moves c event (s.step event).engine c') :
    Bounded (n + s.takes event) (s.step event) where
  nextSequence_le := by
    have hle := hn.nextSequence_le
    have hsucc := toNat_succ hroom.1
    generalize (s.step event).engine = e at hmove
    cases hmove with
    | stay => exact Nat.le_add_right_of_le hle
    | burn fresh hgenerates =>
      show (s.engine.registry.nextSequence + 1).toNat ≤ _
      simp only [takes, hgenerates, List.length_singleton]
      omega
    | enter p hgenerates =>
      show (s.engine.registry.nextSequence + 1).toNat ≤ _
      simp only [takes, hgenerates, List.length_singleton]
      omega
    | ballot => exact Nat.le_add_right_of_le hle
    | close => exact Nat.le_add_right_of_le hle
    | restart rules engine hevent hrecover =>
      obtain ⟨-, rfl⟩ := (h.mirrored.recover_eq_ok_iff h.keeps).1 hrecover
      exact Nat.le_add_right_of_le (h.mirrored.nextSequence_restored_le.trans hle)
  nextSeq_le {p slot} hslot := by
    cases hmove.slotMoves h hslot with
    | keep _ hold =>
      have := hn.nextSeq_le hold
      omega
    | enter =>
      show 1 ≤ _
      omega
    | ballot old r hold hopen hseq hballot haccepts =>
      have hle := hn.nextSeq_le hold
      have hafter := Ballot.Book.toNat_after (hroom.2 p old hold)
      show (old.book.apply r).nextSeq.toNat ≤ _
      rw [Ballot.Book.toNat_nextSeq_apply, hseq, hafter, takes, if_pos ⟨hballot, haccepts⟩]
      omega
    | close old result hold =>
      have : old.book.nextSeq.toNat ≤ n + 1 := hn.nextSeq_le hold
      show old.book.nextSeq.toNat ≤ _
      omega

/-- **Few calls do not exhaust a counter.** -/
theorem throughout_hasRoom {n : Nat} (hn : Bounded n s) (h : Sound used s c)
    (htaken : n + s.numbersTaken events + 2 < UInt64.size) (hfits : ∀ event ∈ events, event.Fits)
    (hnodup : (s.generated events).Nodup) (hfresh : ∀ p ∈ s.generated events, p ∉ used) :
    Throughout HasRoom s events := by
  induction events generalizing s c used n with
  | nil => trivial
  | cons event events ih =>
    rw [numbersTaken] at htaken
    rw [generated] at hnodup hfresh
    obtain ⟨-, hnodup', hdisjoint⟩ := List.nodup_append.1 hnodup
    -- the bound gives room for this event, and then the event keeps the agreement and the bound
    have hroom : s.HasRoom := hn.hasRoom (by omega)
    obtain ⟨c', h', hmove⟩ := h.step (hfits event (by simp)) hroom
      fun p hp => hfresh p (List.mem_append_left _ hp)
    refine ⟨hroom, ih (hn.step h hroom hmove) h' (by omega)
      (fun event' hevent' => hfits event' (by simp [hevent'])) hnodup' fun p hp hused => ?_⟩
    rcases List.mem_append.1 hused with hused | hgenerates
    · exact hfresh p (List.mem_append_right _ hp) hused
    · exact hdisjoint p hgenerates p hp rfl

/-- What is asked of the events holds from the start if only few numbers are taken. -/
theorem orderly_start {store : σ} {rules : Rules} {now : Timestamp}
    (hempty : LawfulStore.Keeps store .empty) (hfits : ∀ event ∈ events, event.Fits)
    (htaken : (start rules store now).numbersTaken events < 2 ^ 64 - 2)
    (hnodup : ((start rules store now).generated events).Nodup) :
    Orderly [] (start rules store now) events where
  fits := hfits
  hasRoom := by
    refine throughout_hasRoom bounded_start (sound_start hempty rules now) ?_ hfits hnodup nofun
    show _ < 2 ^ 64
    omega
  nodup := hnodup
  fresh := nofun

/-- Nothing is exhausted by a first proposal. -/
theorem orderly_start_propose {store : σ} {rules : Rules} (hempty : LawfulStore.Keeps store .empty)
    (now : Timestamp) (p : ProposalId) (v : ParticipantId) (text : String) :
    Orderly [] (start rules store 0) [.clock now, .propose p v text] := by
  refine orderly_start hempty (fun event hevent => ?_) ?_ ?_
  · rcases List.mem_pair.1 hevent with rfl | rfl <;> trivial
  · exact (numbersTaken_le_length _ _).trans_lt (by simp)
  · exact (generated_sublist _ _).nodup (List.nodup_singleton p)

/-! ### Consistent registries -/

/-- A registry stays consistent if results name their proposals. -/
theorem Moves.isConsistent (hmove : s.Moves c event e c') (h : Sound used s c)
    (hconsistent : s.engine.registry.IsConsistent) (hnamed : event.IsNamed) :
    e.registry.IsConsistent := by
  intro p slot hslot
  cases hmove.slotMoves h hslot with
  | keep _ hold => exact hconsistent p slot hold
  | enter proposal _ _ hopen hresult =>
    unfold Proposal.IsOpen at hopen
    simp [Proposal.IsConsistent, hopen, hresult]
  | ballot old r hold => exact hconsistent p old hold
  | close old result hold hopen hresult =>
    show result.proposal = old.proposal.id
    rw [h.mirrored.id_eq hold]
    rcases hresult with rfl | ⟨v, rfl, -, rfl⟩
    · exact hnamed
    · rfl

/-- **A registry stays consistent throughout a run** in which results name their proposals. -/
theorem Sound.isConsistent_run (h : Sound used s c) (hconsistent : s.engine.registry.IsConsistent)
    (horderly : Orderly used s events) (hnamed : ∀ event ∈ events, event.IsNamed) :
    ∃ c', Sound (used ++ s.generated events) (s.run events) c' ∧
      (s.run events).engine.registry.IsConsistent :=
  h.run (Q := Event.IsNamed) (P := fun s _ => s.engine.registry.IsConsistent)
    (fun h hP hQ _ _ hmove => hmove.isConsistent h hP hQ) hconsistent horderly hnamed

end Session

end DelegatedVoting
