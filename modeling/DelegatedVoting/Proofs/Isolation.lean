import DelegatedVoting.Proofs.Deeds
import DelegatedVoting.Proofs.Recovery

/-!
# Proposals do not interfere

What becomes of a proposal is decided by what is done on it, by the time and by whether the store
accepts writes whenever something is done on it. Whatever is done on other proposals in between does
not matter, so deeds on two proposals may change places.

The proof has one proposal at work on its own, with what is known and kept of it and nothing else. A
run of a session shows of each proposal what the proposal shows on its own.

* `Session.Dossier`, `Session.Sight`, `Dossier.act`, `Dossier.replay`: one proposal on its own;
* `Session.view`, `Session.answersOn`: what a proposal sees of a run, and what is answered on it;
* `Session.Tidy`, `Goes.frame`: what an event leaves alone;
* `Session.Spares`, `Tidy.deed_eq_act`: what a deed leaves alone, and what it does;
* `Session.Tidy.run_eq_replay`: a run shows what the proposal shows on its own;
* `Session.AgreeOn`, `Session.Coincide`: sessions that agree on a proposal, and that are the same;
* `Session.proposals_do_not_interfere`: any two runs, from any state that can be reached.
-/

namespace DelegatedVoting

open SwitchedStore

/-! ### Registries and contents -/

namespace Registry

variable {r : Registry} {p : ProposalId} {slot : Slot}

theorem IsFiled.enter (h : r.IsFiled) (new : Proposal) : (r.burn.add new).IsFiled := by
  intro q slot' hslot
  rw [getElem?_slots_enter] at hslot
  split at hslot
  · cases hslot
    assumption
  · exact h q slot' hslot

theorem IsFiled.update (h : r.IsFiled) (hid : slot.proposal.id = p) :
    (r.update p slot).IsFiled := by
  intro q slot' hslot
  rw [getElem?_slots_update] at hslot
  split at hslot
  · rename_i hq
    cases hslot
    exact hid.trans hq
  · exact h q slot' hslot

end Registry

/-- Engines are told apart by their rules, by what they know about the proposals and by the order of
creation. -/
theorem Engine.ext_of_slots {e e' : Engine} (hrules : e.rules = e'.rules)
    (horder : e.registry.order = e'.registry.order)
    (hnext : e.registry.nextSequence = e'.registry.nextSequence)
    (hslot : ∀ p, e.slot p = e'.slot p) : e = e' := by
  have hslots : e.registry.slots = e'.registry.slots :=
    Std.ExtTreeMap.ext_getElem? fun p => Option.ext fun slot => by
      rw [← slot_eq_ok, hslot, slot_eq_ok]
  obtain ⟨rules, slots, order, next⟩ := e
  obtain ⟨rules', slots', order', next'⟩ := e'
  cases hrules
  cases hslots
  cases horder
  cases hnext
  rfl

/-- Contents are told apart by what is kept of each proposal. -/
theorem Contents.ext_of_folder {c c' : Contents} (h : ∀ p, c.folder p = c'.folder p) : c = c' := by
  have hproposals : c.proposals = c'.proposals :=
    Std.ExtTreeMap.ext_getElem? fun p => congrArg Folder.proposal (h p)
  have hballots : c.ballots = c'.ballots := funext fun p => congrArg Folder.ballots (h p)
  have htallies : c.tallies = c'.tallies := funext fun p => congrArg Folder.tally (h p)
  cases c
  cases c'
  cases hproposals
  cases hballots
  cases htallies
  rfl

namespace Session

/-! ### One proposal on its own -/

/-- What is known and what is kept of one proposal. -/
structure Dossier where
  slot : Except Refusal Slot
  folder : Folder

/-- What a proposal sees when a deed is done on it: the deed, the time, and why the store refuses
writes, if it does. -/
structure Sight where
  deed : Deed
  now : Timestamp
  obstacle? : Option StoreError
  deriving DecidableEq

namespace Dossier

/-- What is answered to a deed, and what is known and kept of the proposal after it. -/
def act (rules : Rules) (p : ProposalId) (f : Dossier) (sight : Sight) :
    Except Refusal Reply × Dossier :=
  match sight.deed.plan p rules sight.now f.slot with
  | .error x => (.error x, f)
  | .ok plan =>
    match sight.obstacle? with
    | some x => (.error (.store x), f)
    | none => (.ok plan.reply, ⟨.ok plan.slot, plan.write.file f.folder⟩)

/-- What is answered to deeds, one after the other, and what is known and kept of the proposal after
them. -/
def replay (rules : Rules) (p : ProposalId) :
    Dossier → List Sight → List (Except Refusal Reply) × Dossier
  | f, [] => ([], f)
  | f, sight :: sights =>
    let first := f.act rules p sight
    let rest := first.2.replay rules p sights
    (first.1 :: rest.1, rest.2)

end Dossier

variable {σ : Type}

/-- What is known and kept of a proposal in a session, if the store keeps `c`. -/
def dossier (s : Session σ) (c : Contents) (p : ProposalId) : Dossier :=
  ⟨s.engine.slot p, c.folder p⟩

variable [Store σ] [LawfulStore σ]

/-- What is answered to the deeds on a proposal in a run. -/
def answersOn (p : ProposalId) : Session σ → List Event → List (Except Refusal Reply)
  | _, [] => []
  | s, event :: events =>
    match event.deed? p with
    | some _ => (s.respond event).1 :: answersOn p (s.step event) events
    | none => answersOn p (s.step event) events

/-- What a proposal sees of a run. -/
def view [SwitchedStore σ] (p : ProposalId) : Session σ → List Event → List Sight
  | _, [] => []
  | s, event :: events =>
    match event.deed? p with
    | some d => ⟨d, s.now, obstacle? s.store⟩ :: view p (s.step event) events
    | none => view p (s.step event) events

/-! ### What an event leaves alone -/

/-- The store keeps `c`, and every proposal is known under its own name. -/
structure Tidy (s : Session σ) (c : Contents) : Prop where
  keeps : LawfulStore.Keeps s.store c
  isFiled : s.engine.registry.IsFiled

variable {s s' : Session σ} {c : Contents} {event : Event} {events : List Event}
  {answer : Except Refusal Reply} {p q : ProposalId}

/-- **An event leaves a proposal alone** on which it is no deed, unless it names it for a new one. A
new engine that has been recovered knows every proposal under its own name, too. -/
theorem Goes.frame (hgoes : s.Goes event answer s') (h : s.Tidy c) :
    ∃ c', s'.Tidy c' ∧ (¬ event.IsRestart → s'.engine.rules = s.engine.rules ∧
      ∀ q, event.deed? q = none → q ∉ s.generates event → s'.dossier c' q = s.dossier c q) := by
  cases hgoes with
  | refused => exact ⟨c, h, fun _ => ⟨rfl, fun _ _ _ => rfl⟩⟩
  | burned => exact ⟨c, ⟨h.keeps, h.isFiled⟩, fun _ => ⟨rfl, fun _ _ _ => rfl⟩⟩
  | created _ fresh v text store hcreates hput =>
    refine ⟨_, ⟨LawfulStore.keeps_putProposal h.keeps hput, h.isFiled.enter _⟩,
      fun _ => ⟨rfl, fun q _ hq => ?_⟩⟩
    rw [hcreates.generates_eq, List.mem_singleton] at hq
    unfold dossier
    rw [s.engine.slot_enter_of_ne hq, Contents.folder_putProposal_of_ne hq]
  | cast _ p action slot store hcasts hslot hopen hput =>
    have hid := h.isFiled p slot hslot
    refine ⟨_, ⟨LawfulStore.keeps_putBallot h.keeps hput, h.isFiled.update hid⟩,
      fun _ => ⟨rfl, fun q hq _ => ?_⟩⟩
    have hne := hcasts.ne_of_deed? hq
    unfold dossier
    rw [s.engine.slot_update_of_ne _ hne, Contents.folder_putBallot_of_ne hne]
  | closed _ p slot result reply store hcloses hslot hopen hput =>
    have hid := h.isFiled p slot hslot
    refine ⟨_, ⟨LawfulStore.keeps_putFinalization h.keeps hput, h.isFiled.update hid⟩,
      fun _ => ⟨rfl, fun q hq _ => ?_⟩⟩
    have hne := hcloses.ne_of_deed? hq
    unfold dossier
    rw [s.engine.slot_update_of_ne _ hne, hid, Contents.folder_putFinalization_of_ne hne]
  | clock => exact ⟨c, ⟨h.keeps, h.isFiled⟩, fun _ => ⟨rfl, fun _ _ _ => rfl⟩⟩
  | refuseWrites refuse =>
    exact ⟨c, ⟨LawfulStore.keeps_refuseWrites refuse h.keeps, h.isFiled⟩,
      fun _ => ⟨rfl, fun _ _ _ => rfl⟩⟩
  | restarted rules engine hrecover =>
    have hread := ((Recovery.recover_eq_ok_iff h.keeps).1 hrecover).2
    exact ⟨c, ⟨h.keeps, hread.isFiled⟩, fun hrestart => absurd trivial hrestart⟩

theorem Tidy.exists_step (h : s.Tidy c) (event : Event) :
    ∃ c', (s.step event).Tidy c' ∧
      (¬ event.IsRestart → (s.step event).engine.rules = s.engine.rules ∧
        ∀ q, event.deed? q = none → q ∉ s.generates event →
          (s.step event).dossier c' q = s.dossier c q) :=
  (s.respond_goes event).frame h

/-- The store keeps something, and every proposal is known under its own name, after any run. -/
theorem Tidy.exists_run (h : s.Tidy c) (events : List Event) : ∃ c', (s.run events).Tidy c' := by
  induction events generalizing s c with
  | nil => exact ⟨c, h⟩
  | cons event events ih =>
    obtain ⟨c', h', -⟩ := h.exists_step event
    exact ih h'

/-! ### What a deed does -/

variable [SwitchedStore σ]

/-- Two sessions are the same in all that is not about one of the proposals. -/
structure SameSurroundings (s s' : Session σ) : Prop where
  rules_eq : s.engine.rules = s'.engine.rules
  order_eq : s.engine.registry.order = s'.engine.registry.order
  nextSequence_eq : s.engine.registry.nextSequence = s'.engine.registry.nextSequence
  now_eq : s.now = s'.now
  obstacle?_eq : obstacle? s.store = obstacle? s'.store

/-- What a deed on a proposal leaves as it was. -/
structure Spares (p : ProposalId) (s : Session σ) (c : Contents) (s' : Session σ) (c' : Contents) :
    Prop extends SameSurroundings s' s where
  dossier_eq {q : ProposalId} (hq : q ≠ p) : s'.dossier c' q = s.dossier c q

section Surroundings

omit [LawfulStore σ]

theorem SameSurroundings.symm (h : SameSurroundings s s') : SameSurroundings s' s :=
  ⟨h.rules_eq.symm, h.order_eq.symm, h.nextSequence_eq.symm, h.now_eq.symm, h.obstacle?_eq.symm⟩

theorem SameSurroundings.trans {s'' : Session σ} (h : SameSurroundings s s')
    (h' : SameSurroundings s' s'') : SameSurroundings s s'' :=
  ⟨h.rules_eq.trans h'.rules_eq, h.order_eq.trans h'.order_eq,
    h.nextSequence_eq.trans h'.nextSequence_eq, h.now_eq.trans h'.now_eq,
    h.obstacle?_eq.trans h'.obstacle?_eq⟩

theorem Spares.refl (p : ProposalId) (s : Session σ) (c : Contents) : s.Spares p c s c :=
  ⟨⟨rfl, rfl, rfl, rfl, rfl⟩, fun _ => rfl⟩

end Surroundings

/-- **A deed does to a proposal what it does to it on its own,** and spares the others. -/
theorem Tidy.deed_eq_act (h : s.Tidy c) (p : ProposalId) (d : Deed) :
    ∃ c', (s.step (d.event p)).Tidy c' ∧
      (s.respond (d.event p)).1 =
        ((s.dossier c p).act s.engine.rules p ⟨d, s.now, obstacle? s.store⟩).1 ∧
      (s.step (d.event p)).dossier c' p =
        ((s.dossier c p).act s.engine.rules p ⟨d, s.now, obstacle? s.store⟩).2 ∧
      s.Spares p c (s.step (d.event p)) c' := by
  have hid : ∀ slot, s.engine.slot p = .ok slot → slot.proposal.id = p := fun slot hslot =>
    h.isFiled p slot (Engine.slot_eq_ok.1 hslot)
  rw [step, respond_deed hid, Dossier.act, dossier]
  cases hplan : d.plan p s.engine.rules s.now (s.engine.slot p) with
  | error x => exact ⟨c, h, rfl, rfl, .refl p s c⟩
  | ok plan =>
    obtain ⟨hsubject, slot, hslot, hplanId⟩ := Deed.plan_eq_ok hplan
    cases hwrite : plan.write.perform s.store with
    | error x =>
      rw [carryOut_of_error hwrite, perform_eq_error_iff.1 hwrite]
      exact ⟨c, h, rfl, rfl, .refl p s c⟩
    | ok store =>
      rw [carryOut_of_ok hwrite, obstacle?_eq_none_of_perform hwrite]
      refine ⟨plan.write.amend c, ⟨Write.keeps_amend h.keeps hwrite,
        h.isFiled.update (hplanId.trans (hid slot hslot))⟩, rfl, ?_,
        ⟨rfl, rfl, rfl, rfl, obstacle?_eq_of_perform hwrite⟩, fun {q} hq => ?_⟩
      · have hfolder := plan.write.folder_amend c
        rw [hsubject] at hfolder
        unfold dossier
        rw [s.engine.slot_update_self, hfolder]
      · unfold dossier
        rw [s.engine.slot_update_of_ne _ hq, plan.write.folder_amend_of_ne c (hsubject ▸ hq)]

/-! ### What a run does -/

/-- **A run shows of a proposal what the proposal shows on its own.** -/
theorem Tidy.run_eq_replay (h : s.Tidy c) (hrestart : ∀ event ∈ events, ¬ event.IsRestart)
    (hfresh : p ∉ s.generated events) :
    ∃ c', (s.run events).Tidy c' ∧
      s.answersOn p events = ((s.dossier c p).replay s.engine.rules p (s.view p events)).1 ∧
      (s.run events).dossier c' p =
        ((s.dossier c p).replay s.engine.rules p (s.view p events)).2 := by
  induction events generalizing s c with
  | nil => exact ⟨c, h, rfl, rfl⟩
  | cons event events ih =>
    rw [generated, List.mem_append, not_or] at hfresh
    have hrest : ∀ event ∈ events, ¬ event.IsRestart := fun event' hevent' =>
      hrestart event' (List.mem_cons_of_mem _ hevent')
    rw [answersOn, view, run_cons]
    cases hdeed : event.deed? p with
    | some d =>
      obtain rfl := deed?_eq_some_iff.1 hdeed
      obtain ⟨c', h', hanswer, hdossier, hspares⟩ := h.deed_eq_act p d
      obtain ⟨c'', h'', hanswers, hdossier'⟩ := ih h' hrest hfresh.2
      rw [hspares.rules_eq, hdossier] at hanswers hdossier'
      refine ⟨c'', h'', ?_, hdossier'⟩
      show _ :: _ = _ :: _
      rw [hanswer, hanswers]
    | none =>
      obtain ⟨c', h', hframe⟩ := h.exists_step event
      obtain ⟨hrules, hdossier⟩ := hframe (hrestart event List.mem_cons_self)
      obtain ⟨c'', h'', hrun⟩ := ih h' hrest hfresh.2
      rw [hrules, hdossier p hdeed hfresh.1] at hrun
      exact ⟨c'', h'', hrun⟩

/-! ### Two runs -/

omit [LawfulStore σ] [SwitchedStore σ] in
/-- Sessions agree on a proposal: on what is known about it, on what is shown of it, and on what
their stores tell of it. -/
structure AgreeOn (p : ProposalId) (s s' : Session σ) : Prop where
  slot_eq : s.engine.slot p = s'.engine.slot p
  proposal_eq : s.engine.proposal p = s'.engine.proposal p
  preview_eq : s.engine.preview p = s'.engine.preview p
  resolve_eq : s.engine.resolve p = s'.engine.resolve p
  current_eq (v : ParticipantId) : s.engine.current p v = s'.engine.current p v
  history_eq (v : ParticipantId) : s.engine.history p v = s'.engine.history p v
  actors_eq : s.engine.actors p = s'.engine.actors p
  storedProposal_eq : Store.proposal p s.store = Store.proposal p s'.store
  storedBallots_eq : Store.ballots p s.store = Store.ballots p s'.store
  storedTally_eq : Store.tally p s.store = Store.tally p s'.store

omit [SwitchedStore σ] in
theorem agreeOn_of_dossier_eq {c' : Contents} (h : s.Tidy c) (h' : s'.Tidy c')
    (heq : s.dossier c p = s'.dossier c' p) : AgreeOn p s s' := by
  have hslot : s.engine.slot p = s'.engine.slot p := congrArg Dossier.slot heq
  have hfolder : c.folder p = c'.folder p := congrArg Dossier.folder heq
  have hproposal : c.proposals[p]? = c'.proposals[p]? := congrArg Folder.proposal hfolder
  have hballots : c.ballots p = c'.ballots p := congrArg Folder.ballots hfolder
  have htally : c.tallies p = c'.tallies p := congrArg Folder.tally hfolder
  constructor
  case slot_eq => exact hslot
  case proposal_eq => rw [Engine.proposal, hslot, Engine.proposal]
  case preview_eq => rw [Engine.preview, hslot, Engine.preview]
  case resolve_eq => rw [Engine.resolve, hslot, Engine.resolve]
  case current_eq => intro v; rw [Engine.current, hslot, Engine.current]
  case history_eq => intro v; rw [Engine.history, hslot, Engine.history]
  case actors_eq => rw [Engine.actors, hslot, Engine.actors]
  case storedProposal_eq =>
    rw [LawfulStore.proposal_eq p h.keeps, LawfulStore.proposal_eq p h'.keeps, hproposal]
  case storedBallots_eq =>
    rw [LawfulStore.ballots_eq p h.keeps, LawfulStore.ballots_eq p h'.keeps, hballots]
  case storedTally_eq =>
    rw [LawfulStore.tally_eq p h.keeps, LawfulStore.tally_eq p h'.keeps, htally]

/-- Sessions are the same: in their engines and their times, in what their stores keep, and in why
the stores refuse writes, if they do. -/
structure Coincide (s s' : Session σ) : Prop where
  engine_eq : s.engine = s'.engine
  now_eq : s.now = s'.now
  obstacle?_eq : obstacle? s.store = obstacle? s'.store
  keeps : ∃ c, LawfulStore.Keeps s.store c ∧ LawfulStore.Keeps s'.store c

theorem coincide_of_dossier_eq {c' : Contents} (h : s.Tidy c) (h' : s'.Tidy c')
    (hsame : SameSurroundings s s') (hdossier : ∀ p, s.dossier c p = s'.dossier c' p) :
    Coincide s s' where
  engine_eq := Engine.ext_of_slots hsame.rules_eq hsame.order_eq hsame.nextSequence_eq fun p =>
    congrArg Dossier.slot (hdossier p)
  now_eq := hsame.now_eq
  obstacle?_eq := hsame.obstacle?_eq
  keeps := by
    obtain rfl : c = c' := Contents.ext_of_folder fun p => congrArg Dossier.folder (hdossier p)
    exact ⟨c, h.keeps, h'.keeps⟩

/-- Deeds change places: each is answered as if it came first, and in the end nothing tells which
one did. -/
structure ChangePlaces (s : Session σ) (first second : Event) : Prop where
  first_eq : ((s.step second).respond first).1 = (s.respond first).1
  second_eq : ((s.step first).respond second).1 = (s.respond second).1
  coincide : Coincide (s.run [first, second]) (s.run [second, first])

/-- A deed on another proposal does not make a difference to a deed. -/
theorem Tidy.deed_after (h : s.Tidy c) (hne : p ≠ q) (d d' : Deed) :
    ((s.step (d'.event q)).respond (d.event p)).1 = (s.respond (d.event p)).1 := by
  obtain ⟨c', h', -, -, hspares⟩ := h.deed_eq_act q d'
  obtain ⟨-, -, hanswer, -⟩ := h.deed_eq_act p d
  obtain ⟨-, -, hanswer', -⟩ := h'.deed_eq_act p d
  rw [hanswer', hanswer, hspares.dossier_eq hne, hspares.rules_eq, hspares.now_eq,
    hspares.obstacle?_eq]

/-- **Deeds on two proposals change places.** -/
theorem Tidy.changePlaces (h : s.Tidy c) (hne : p ≠ q) (d d' : Deed) :
    s.ChangePlaces (d.event p) (d'.event q) := by
  refine ⟨h.deed_after hne d d', h.deed_after hne.symm d' d, ?_⟩
  obtain ⟨c₁, h₁, -, hp₁, hspares₁⟩ := h.deed_eq_act p d
  obtain ⟨c₁₂, h₁₂, -, hq₁₂, hspares₁₂⟩ := h₁.deed_eq_act q d'
  obtain ⟨c₂, h₂, -, hq₂, hspares₂⟩ := h.deed_eq_act q d'
  obtain ⟨c₂₁, h₂₁, -, hp₂₁, hspares₂₁⟩ := h₂.deed_eq_act p d
  have hsame := (hspares₁₂.toSameSurroundings.trans hspares₁.toSameSurroundings).trans
    (hspares₂₁.toSameSurroundings.trans hspares₂.toSameSurroundings).symm
  refine coincide_of_dossier_eq h₁₂ h₂₁ hsame fun r => ?_
  show ((s.step (d.event p)).step (d'.event q)).dossier c₁₂ r =
    ((s.step (d'.event q)).step (d.event p)).dossier c₂₁ r
  -- each proposal is left by its own deed, which has seen the same in both orders
  by_cases hrp : r = p
  · subst hrp
    rw [hspares₁₂.dossier_eq hne, hp₁, hp₂₁, hspares₂.dossier_eq hne, hspares₂.rules_eq,
      hspares₂.now_eq, hspares₂.obstacle?_eq]
  · rw [hspares₂₁.dossier_eq hrp]
    by_cases hrq : r = q
    · subst hrq
      rw [hq₁₂, hq₂, hspares₁.dossier_eq hrp, hspares₁.rules_eq, hspares₁.now_eq,
        hspares₁.obstacle?_eq]
    · rw [hspares₁₂.dossier_eq hrq, hspares₁.dossier_eq hrp, hspares₂.dossier_eq hrq]

/-- **Proposals do not interfere.** From any state that can be reached, two runs that are the same
to a proposal give the same answers on it and agree on it in the end, whatever they do on other
proposals. Runs may end anywhere, so they agree on it on the way, too. And deeds on two proposals
change places. -/
theorem proposals_do_not_interfere (rules : Rules) {store : σ} (now : Timestamp)
    (hkeeps : LawfulStore.Keeps store c) (before : List Event) :
    let s := (start rules store now).run before
    (∀ (p : ProposalId) (events events' : List Event),
      (∀ event ∈ events ++ events', ¬ event.IsRestart) →
      p ∉ s.generated events → p ∉ s.generated events' →
      s.view p events = s.view p events' →
        s.answersOn p events = s.answersOn p events' ∧
          AgreeOn p (s.run events) (s.run events')) ∧
      ∀ (p q : ProposalId) (d d' : Deed), p ≠ q → s.ChangePlaces (d.event p) (d'.event q) := by
  intro s
  have hstart : (start rules store now).Tidy c := ⟨hkeeps, fun p slot hslot => by
    simp [start, Engine.new, Registry.empty] at hslot⟩
  obtain ⟨c', h⟩ : ∃ c', s.Tidy c' := hstart.exists_run before
  refine ⟨fun p events events' hrestart hfresh hfresh' hview => ?_,
    fun p q d d' hne => h.changePlaces hne d d'⟩
  obtain ⟨c₁, h₁, hanswers₁, hdossier₁⟩ := h.run_eq_replay
    (fun event hevent => hrestart event (List.mem_append_left _ hevent)) hfresh
  obtain ⟨c₂, h₂, hanswers₂, hdossier₂⟩ := h.run_eq_replay
    (fun event hevent => hrestart event (List.mem_append_right _ hevent)) hfresh'
  rw [hview] at hanswers₁ hdossier₁
  exact ⟨hanswers₁.trans hanswers₂.symm,
    agreeOn_of_dossier_eq h₁ h₂ (hdossier₁.trans hdossier₂.symm)⟩

/-- Two runs in which a vote, a delegation and a count on one proposal come at the same times, among
different calls about other proposals. -/
theorem proposals_do_not_interfere_of_busy_neighbours :
    let p : ProposalId := ⟨.replicate 16 1, rfl⟩
    let q : ProposalId := ⟨.replicate 16 2, rfl⟩
    let r : ProposalId := ⟨.replicate 16 3, rfl⟩
    let s := (start {} MemoryStore.empty 0).run [.create p 1 "tea", .create q 1 "cake"]
    let events : List Event := [.vote q 5 false, .vote p 2 true, .clock 9, .finalize q 1,
      .delegate p 3 2, .finalize p 1]
    let events' : List Event := [.vote p 2 true, .refuseWrites true, .create r 4 "bread",
      .vote q 2 true, .refuseWrites false, .clock 9, .delegate p 3 2, .delegate q 2 5,
      .finalize p 1]
    s.answersOn p events = [.ok (.action (.vote 2 true 1)), .ok (.action (.delegation 3 2 2)),
        .ok (.tally ⟨p, 2, 0, 0, .passed, 1, 9⟩)] ∧
      s.answersOn p events = s.answersOn p events' ∧
      AgreeOn p (s.run events) (s.run events') ∧
      s.ChangePlaces (.vote p 2 true) (.finalize q 1) := by
  intro p q r s events events'
  have hkeeps : LawfulStore.Keeps MemoryStore.empty .empty := MemoryStore.contents_empty
  obtain ⟨htwo, hplaces⟩ := proposals_do_not_interfere {} 0 hkeeps
    [.create p 1 "tea", .create q 1 "cake"]
  obtain ⟨hanswers, hagree⟩ := htwo p events events' (by decide) (by decide +kernel)
    (by decide +kernel) (by decide +kernel)
  exact ⟨by decide +kernel, hanswers, hagree, hplaces p q (.vote 2 true) (.finalize 1) (by decide)⟩

end Session

end DelegatedVoting
