import DelegatedVoting.Proofs.Resolution
import Std.Data.ExtTreeSet

/-!
# One walk after the other

The resolution of a book in its single steps. A walk starts at a participant who has no vote yet,
pushes everybody whom it comes to on a path, and stops where a vote is known, where nobody has
acted, or where it meets its own path. Then the path is drained, and everybody who was on it gets
the vote. The steps come to an end and to the resolution of the book, and everybody is pushed once.

* `Phase`, `Pass`, `Pass.next?`, `Pass.run`: the state of the pass, and its steps;
* `Pass.Goes`, `Pass.goes_of_next?`: everything that a step can do;
* `Pass.IsOrderly`, `Pass.IsOrderly.goes`: what is kept by every step;
* `Pass.measure_lt`: every step brings the pass closer to its end;
* `Pass.reaches_walk`, `Pass.reaches_visit`: the steps follow the paths of the resolution;
* `pass_is_linear`: the pass ends after so many steps, and everybody is pushed and settled once.
-/

namespace DelegatedVoting.Resolution

open Relation Ballot

/-- Where the pass is. -/
inductive Phase
  /-- The path is empty, and it is the turn of the next participant. -/
  | between
  /-- The path leads to `v`. -/
  | walking (v : ParticipantId)
  /-- The path has ended, and those who are left on it get a vote. -/
  | settling (vote : Vote)

/-- The state of the pass. -/
structure Pass where
  phase : Phase
  /-- The participants at whom no walk has started. -/
  waiting : List ParticipantId
  resolved : Resolution
  /-- The path, with the first participant first. -/
  path : List ParticipantId
  onPath : Std.ExtTreeSet ParticipantId
  /-- Everybody who has been pushed on the path, in this order. -/
  pushed : List ParticipantId
  /-- The delegations that have been followed, in this order. -/
  followed : List (ParticipantId × ParticipantId)
  /-- The paths that have been drained, or that are being drained, in this order. -/
  drained : List (List ParticipantId)

namespace Pass

/-- The beginning of the pass. -/
def start (b : Book) : Pass := ⟨.between, b.actors, ∅, [], ∅, [], [], []⟩

/-- Push a participant on the path. -/
def push (v : ParticipantId) (s : Pass) : Pass :=
  { s with path := s.path ++ [v], onPath := s.onPath.insert v, pushed := s.pushed ++ [v] }

/-- The path has ended. -/
def finish (vote : Vote) (s : Pass) : Pass :=
  { s with phase := .settling vote, drained := s.drained ++ [s.path] }

/-- The next step, unless the pass is over. -/
def next? (b : Book) (s : Pass) : Option Pass :=
  match s.phase with
  | .between =>
    match s.waiting with
    | [] => none
    | v :: rest =>
      if v ∈ s.resolved then some { s with waiting := rest }
      else some { s with phase := .walking v, waiting := rest }
  | .walking v =>
    match s.resolved[v]? with
    | some vote => some (s.finish vote)
    | none =>
      match b.current? v with
      | none => some (s.finish .abstain)
      | some action =>
        if v ∈ s.onPath then some (s.finish .abstain)
        else match action with
          | .vote _ isYes _ => some ((s.push v).finish (.direct isYes))
          | .delegation _ delegate _ =>
            some { s.push v with
              phase := .walking delegate, followed := s.followed ++ [(v, delegate)] }
  | .settling vote =>
    match s.path with
    | v :: path => some { s with resolved := s.resolved.insert v vote, path := path }
    | [] => some { s with phase := .between, onPath := ∅ }

/-- The state after some steps. -/
def run (b : Book) : Nat → Pass
  | 0 => start b
  | k + 1 => ((run b k).next? b).getD (run b k)

/-! ### What a step can do -/

variable {b : Book} {s t : Pass}

/-- Everything that a step can do. -/
inductive Goes (b : Book) (s : Pass) : Pass → Prop
  | skip {v rest} : s.phase = .between → s.waiting = v :: rest → v ∈ s.resolved →
    Goes b s { s with waiting := rest }
  | start {v rest} : s.phase = .between → s.waiting = v :: rest → v ∉ s.resolved →
    Goes b s { s with phase := .walking v, waiting := rest }
  | known {v vote} : s.phase = .walking v → s.resolved[v]? = some vote → Goes b s (s.finish vote)
  | dangling {v} : s.phase = .walking v → v ∉ s.resolved → b.current? v = none →
    Goes b s (s.finish .abstain)
  | ring {v} : s.phase = .walking v → v ∉ s.resolved → v ∈ s.onPath → Goes b s (s.finish .abstain)
  | vote {v isYes} : s.phase = .walking v → v ∉ s.resolved → v ∉ s.onPath → b.Votes v isYes →
    Goes b s ((s.push v).finish (.direct isYes))
  | delegation {v d} : s.phase = .walking v → v ∉ s.resolved → v ∉ s.onPath → b.Delegates v d →
    Goes b s { s.push v with phase := .walking d, followed := s.followed ++ [(v, d)] }
  | settle {vote v rest} : s.phase = .settling vote → s.path = v :: rest →
    Goes b s { s with resolved := s.resolved.insert v vote, path := rest }
  | clear {vote} : s.phase = .settling vote → s.path = [] →
    Goes b s { s with phase := .between, onPath := ∅ }

theorem goes_of_next? (h : s.next? b = some t) : s.Goes b t := by
  rw [next?] at h
  split at h
  · rename_i hphase
    split at h
    · cases h
    · rename_i v rest hwaiting
      split at h <;> cases h
      · exact .skip hphase hwaiting ‹_›
      · exact .start hphase hwaiting ‹_›
  · rename_i v hphase
    split at h
    · cases h
      exact .known hphase ‹_›
    · rename_i hresolved
      rw [Maps.getElem?_eq_none_iff] at hresolved
      split at h
      · cases h
        exact .dangling hphase hresolved ‹_›
      · rename_i action hcurrent
        split at h
        · cases h
          exact .ring hphase hresolved ‹_›
        · rename_i hpath
          split at h <;> cases h
          · exact .vote hphase hresolved hpath ⟨_, _, hcurrent⟩
          · exact .delegation hphase hresolved hpath ⟨_, _, hcurrent⟩
  · rename_i vote hphase
    split at h <;> cases h
    · exact .settle hphase ‹_›
    · exact .clear hphase ‹_›

theorem Goes.next?_eq (h : s.Goes b t) : s.next? b = some t := by
  cases h with
  | skip hphase hwaiting hv => simp only [next?, hphase, hwaiting, if_pos hv]
  | start hphase hwaiting hv => simp only [next?, hphase, hwaiting, if_neg hv]
  | known hphase hv => simp only [next?, hphase, hv]
  | dangling hphase hv hcurrent =>
    simp only [next?, hphase, Maps.getElem?_eq_none_iff.2 hv, hcurrent]
  | @ring v hphase hv hpath =>
    simp only [next?, hphase, Maps.getElem?_eq_none_iff.2 hv]
    cases b.current? v with
    | none => rfl
    | some action => exact if_pos hpath
  | vote hphase hv hpath hvotes =>
    obtain ⟨_, _, hcurrent⟩ := hvotes
    simp only [next?, hphase, Maps.getElem?_eq_none_iff.2 hv, hcurrent, if_neg hpath]
  | delegation hphase hv hpath hdelegates =>
    obtain ⟨_, _, hcurrent⟩ := hdelegates
    simp only [next?, hphase, Maps.getElem?_eq_none_iff.2 hv, hcurrent, if_neg hpath]
  | settle hphase hpath => simp only [next?, hphase, hpath]
  | clear hphase hpath => simp only [next?, hphase, hpath]

/-! ### What every step keeps -/

/-- What is kept by every step. Everybody who has been pushed has acted and is on the path or has a
vote, and nobody has been pushed twice. -/
structure IsOrderly (b : Book) (s : Pass) : Prop where
  pushed_nodup : s.pushed.Nodup
  pushed_acted : ∀ v ∈ s.pushed, v ∈ b.actors
  path_sublist : s.path.Sublist s.pushed
  mem_resolved_iff : ∀ v, v ∈ s.resolved ↔ v ∈ s.pushed ∧ v ∉ s.path
  /-- Between walks nobody is on the path. -/
  between : s.phase = .between → s.path = [] ∧ s.onPath = ∅
  /-- During a walk the path and the set of those who are on it agree. -/
  onPath_iff : ∀ v, s.phase = .walking v → ∀ u, u ∈ s.onPath ↔ u ∈ s.path
  pushed_eq : (∀ vote, s.phase ≠ .settling vote) → s.pushed = s.drained.flatten ++ s.path
  pushed_eq_of_settling : ∀ vote, s.phase = .settling vote → s.pushed = s.drained.flatten
  followed_sublist : (s.followed.map Prod.fst).Sublist s.pushed
  followed_delegates : ∀ e ∈ s.followed, b.Delegates e.1 e.2

theorem isOrderly_start (b : Book) : (start b).IsOrderly b where
  pushed_nodup := List.nodup_nil
  pushed_acted := nofun
  path_sublist := List.Sublist.refl _
  mem_resolved_iff v := by simp [start]
  between _ := ⟨rfl, rfl⟩
  onPath_iff := nofun
  pushed_eq _ := rfl
  pushed_eq_of_settling := nofun
  followed_sublist := List.Sublist.refl _
  followed_delegates := nofun

namespace IsOrderly

variable {v d : ParticipantId} {vote : Vote} {isYes : Bool}

theorem path_nodup (h : s.IsOrderly b) : s.path.Nodup := h.pushed_nodup.sublist h.path_sublist

theorem followed_nodup (h : s.IsOrderly b) : s.followed.Nodup :=
  (h.pushed_nodup.sublist h.followed_sublist).of_map _

/-- During a walk, who is on no path and has no vote has not been pushed. -/
theorem not_mem_pushed (h : s.IsOrderly b) (hphase : s.phase = .walking v) {u : ParticipantId}
    (hu : u ∉ s.resolved) (hpath : u ∉ s.onPath) : u ∉ s.pushed := fun hpushed =>
  hu ((h.mem_resolved_iff u).2 ⟨hpushed, fun hmem => hpath ((h.onPath_iff v hphase u).2 hmem)⟩)

/-- The end of a path changes nothing but the phase. -/
theorem finish (h : s.IsOrderly b) (hphase : s.phase = .walking v) (vote : Vote) :
    (s.finish vote).IsOrderly b where
  pushed_nodup := h.pushed_nodup
  pushed_acted := h.pushed_acted
  path_sublist := h.path_sublist
  mem_resolved_iff := h.mem_resolved_iff
  between := nofun
  onPath_iff := nofun
  pushed_eq hsettling := absurd rfl (hsettling vote)
  pushed_eq_of_settling vote' _ := by
    have hpushed := h.pushed_eq fun vote' => by rw [hphase]; nofun
    simpa [Pass.finish] using hpushed
  followed_sublist := h.followed_sublist
  followed_delegates := h.followed_delegates

/-- Who has acted, has no vote and is on no path can be pushed. -/
theorem push (h : s.IsOrderly b) (hphase : s.phase = .walking v) (hacted : b.current? v ≠ none)
    (hv : v ∉ s.resolved) (hpath : v ∉ s.onPath) : (s.push v).IsOrderly b where
  pushed_nodup := by
    show (s.pushed ++ [v]).Nodup
    rw [← List.concat_eq_append]
    exact h.pushed_nodup.concat (h.not_mem_pushed hphase hv hpath)
  pushed_acted := List.forall_mem_append.2
    ⟨h.pushed_acted, List.forall_mem_singleton.2 (mem_actors_iff.2 hacted)⟩
  path_sublist := h.path_sublist.append (List.Sublist.refl _)
  mem_resolved_iff u := by
    show u ∈ s.resolved ↔ u ∈ s.pushed ++ [v] ∧ u ∉ s.path ++ [v]
    rw [h.mem_resolved_iff u, List.mem_append, List.mem_append, List.mem_singleton, not_or]
    have hnew := h.not_mem_pushed hphase hv hpath
    constructor
    · rintro ⟨hpushed, hu⟩
      exact ⟨.inl hpushed, hu, fun huv => hnew (huv ▸ hpushed)⟩
    · rintro ⟨hpushed, hu, huv⟩
      exact ⟨hpushed.resolve_right huv, hu⟩
  between hbetween := by
    rw [Pass.push, hphase] at hbetween
    cases hbetween
  onPath_iff _ _ u := by
    show u ∈ s.onPath.insert v ↔ u ∈ s.path ++ [v]
    rw [Std.ExtTreeSet.mem_insert, Std.LawfulEqOrd.compare_eq_iff_eq, h.onPath_iff v hphase,
      List.mem_append, List.mem_singleton, or_comm, eq_comm]
  pushed_eq _ := by
    show s.pushed ++ [v] = s.drained.flatten ++ (s.path ++ [v])
    rw [h.pushed_eq fun vote => by rw [hphase]; nofun, List.append_assoc]
  pushed_eq_of_settling vote hsettling := by
    rw [Pass.push, hphase] at hsettling
    cases hsettling
  followed_sublist := h.followed_sublist.trans (List.sublist_append_left _ _)
  followed_delegates := h.followed_delegates

/-- A delegation of somebody who can be pushed can be followed. -/
theorem follow (h : s.IsOrderly b) (hphase : s.phase = .walking v) (hv : v ∉ s.resolved)
    (hpath : v ∉ s.onPath) (hdelegates : b.Delegates v d) :
    IsOrderly b { s.push v with phase := .walking d, followed := s.followed ++ [(v, d)] } := by
  have hacted : b.current? v ≠ none := by
    obtain ⟨_, _, hcurrent⟩ := hdelegates
    rw [hcurrent]
    nofun
  have hpush := h.push hphase hacted hv hpath
  exact {
    pushed_nodup := hpush.pushed_nodup
    pushed_acted := hpush.pushed_acted
    path_sublist := hpush.path_sublist
    mem_resolved_iff := hpush.mem_resolved_iff
    between := nofun
    onPath_iff := fun _ _ => hpush.onPath_iff v hphase
    pushed_eq := fun _ => hpush.pushed_eq fun vote => by rw [Pass.push, hphase]; nofun
    pushed_eq_of_settling := nofun
    followed_sublist := by
      rw [List.map_append]
      exact h.followed_sublist.append (List.Sublist.refl _)
    followed_delegates := List.forall_mem_append.2
      ⟨h.followed_delegates, List.forall_mem_singleton.2 hdelegates⟩ }

/-- Whoever is left on a path that is being drained can get a vote. -/
theorem settle {rest : List ParticipantId} (h : s.IsOrderly b) (hphase : s.phase = .settling vote)
    (hpath : s.path = v :: rest) :
    IsOrderly b { s with resolved := s.resolved.insert v vote, path := rest } where
  pushed_nodup := h.pushed_nodup
  pushed_acted := h.pushed_acted
  path_sublist := (List.sublist_cons_self v rest).trans (hpath ▸ h.path_sublist)
  mem_resolved_iff u := by
    have hnodup := List.nodup_cons.1 (hpath ▸ h.path_nodup)
    have hv : v ∈ s.pushed := h.path_sublist.subset (hpath ▸ List.mem_cons_self)
    show u ∈ s.resolved.insert v vote ↔ u ∈ s.pushed ∧ u ∉ rest
    rw [Std.ExtTreeMap.mem_insert, Std.LawfulEqOrd.compare_eq_iff_eq, h.mem_resolved_iff, hpath,
      List.mem_cons, not_or]
    constructor
    · rintro (rfl | ⟨hpushed, -, hu⟩)
      · exact ⟨hv, hnodup.1⟩
      · exact ⟨hpushed, hu⟩
    · rintro ⟨hpushed, hu⟩
      by_cases huv : v = u
      · exact .inl huv
      · exact .inr ⟨hpushed, fun heq => huv heq.symm, hu⟩
  between hbetween := by
    rw [hphase] at hbetween
    cases hbetween
  onPath_iff _ hwalking := by
    rw [hphase] at hwalking
    cases hwalking
  pushed_eq hsettling := absurd hphase (hsettling vote)
  pushed_eq_of_settling := h.pushed_eq_of_settling
  followed_sublist := h.followed_sublist
  followed_delegates := h.followed_delegates

/-- Another walk can begin where nobody is on the path. -/
theorem begin (h : s.IsOrderly b) (hphase : s.phase = .between) (v : ParticipantId)
    (rest : List ParticipantId) :
    IsOrderly b { s with phase := .walking v, waiting := rest } where
  pushed_nodup := h.pushed_nodup
  pushed_acted := h.pushed_acted
  path_sublist := h.path_sublist
  mem_resolved_iff := h.mem_resolved_iff
  between := nofun
  onPath_iff _ _ u := by
    obtain ⟨hpath, honPath⟩ := h.between hphase
    show u ∈ s.onPath ↔ u ∈ s.path
    rw [hpath, honPath]
    exact iff_of_false Std.ExtTreeSet.not_mem_empty List.not_mem_nil
  pushed_eq _ := h.pushed_eq fun vote => by rw [hphase]; nofun
  pushed_eq_of_settling := nofun
  followed_sublist := h.followed_sublist
  followed_delegates := h.followed_delegates

/-- Once the path is empty, the walk is over. -/
theorem clear (h : s.IsOrderly b) (hphase : s.phase = .settling vote) (hpath : s.path = []) :
    IsOrderly b { s with phase := .between, onPath := ∅ } where
  pushed_nodup := h.pushed_nodup
  pushed_acted := h.pushed_acted
  path_sublist := h.path_sublist
  mem_resolved_iff := h.mem_resolved_iff
  between _ := ⟨hpath, rfl⟩
  onPath_iff := nofun
  pushed_eq _ := by
    rw [hpath, List.append_nil]
    exact h.pushed_eq_of_settling vote hphase
  pushed_eq_of_settling := nofun
  followed_sublist := h.followed_sublist
  followed_delegates := h.followed_delegates

/-- **Every step keeps the pass in order.** -/
theorem goes (h : s.IsOrderly b) (hgoes : s.Goes b t) : t.IsOrderly b := by
  cases hgoes with
  | skip => exact { h with }
  | start hphase => exact h.begin hphase _ _
  | known hphase => exact h.finish hphase _
  | dangling hphase => exact h.finish hphase _
  | ring hphase => exact h.finish hphase _
  | vote hphase hv hpath hvotes =>
    obtain ⟨_, _, hcurrent⟩ := hvotes
    exact (h.push hphase (by rw [hcurrent]; nofun) hv hpath).finish hphase _
  | delegation hphase hv hpath hdelegates => exact h.follow hphase hv hpath hdelegates
  | settle hphase hpath => exact h.settle hphase hpath
  | clear hphase hpath => exact h.clear hphase hpath

end IsOrderly

/-- Everybody who is pushed is pushed for the first time, and every vote that is entered is the
first one of its participant. -/
theorem IsOrderly.fresh (h : s.IsOrderly b) (hgoes : s.Goes b t) :
    (t.pushed = s.pushed ∨ ∃ v ∈ b.actors, v ∉ s.resolved ∧ v ∉ s.path ∧
      t.pushed = s.pushed ++ [v] ∧ t.path = s.path ++ [v]) ∧
    (t.resolved = s.resolved ∨
      ∃ v vote, v ∉ s.resolved ∧ t.resolved = s.resolved.insert v vote) := by
  have hnew {v : ParticipantId} (hphase : s.phase = .walking v) (hacted : b.current? v ≠ none)
      (hv : v ∉ s.resolved) (hpath : v ∉ s.onPath) : ∃ u ∈ b.actors, u ∉ s.resolved ∧ u ∉ s.path ∧
        s.pushed ++ [v] = s.pushed ++ [u] ∧ s.path ++ [v] = s.path ++ [u] :=
    ⟨v, mem_actors_iff.2 hacted, hv, fun hmem => hpath ((h.onPath_iff v hphase v).2 hmem), rfl, rfl⟩
  cases hgoes with
  | vote hphase hv hpath hvotes =>
    obtain ⟨_, _, hcurrent⟩ := hvotes
    exact ⟨.inr (hnew hphase (by rw [hcurrent]; nofun) hv hpath), .inl rfl⟩
  | delegation hphase hv hpath hdelegates =>
    obtain ⟨_, _, hcurrent⟩ := hdelegates
    exact ⟨.inr (hnew hphase (by rw [hcurrent]; nofun) hv hpath), .inl rfl⟩
  | @settle vote v rest hphase hpath =>
    refine ⟨.inl rfl, .inr ⟨v, vote, fun hv => ?_, rfl⟩⟩
    exact ((h.mem_resolved_iff v).1 hv).2 (hpath ▸ List.mem_cons_self)
  | _ => exact ⟨.inl rfl, .inl rfl⟩

/-! ### The end of the pass -/

/-- The number of steps that may be left: three for every participant at whom no walk has started,
two for everybody who has not been pushed, one for everybody on the path, and those of the phase. -/
def measure (b : Book) (s : Pass) : Nat :=
  3 * s.waiting.length + 2 * (b.actors.length - s.pushed.length) + s.path.length +
    match s.phase with
    | .between => 0
    | .walking _ => 2
    | .settling _ => 1

theorem measure_start (b : Book) : (start b).measure b = 5 * b.actors.length := by
  simp only [measure, start, List.length_nil]
  omega

/-- **Every step brings the pass closer to its end.** -/
theorem measure_lt (h : s.IsOrderly b) (hgoes : s.Goes b t) : t.measure b < s.measure b := by
  -- whoever is pushed has been among those who could be
  have hroom (ht : t.IsOrderly b) : t.pushed.length ≤ b.actors.length :=
    (List.subperm_of_subset ht.pushed_nodup ht.pushed_acted).length_le
  have hroom := hroom (h.goes hgoes)
  cases hgoes with
  | skip hphase hwaiting | start hphase hwaiting =>
    simp only [measure, hphase, hwaiting, List.length_cons]
    omega
  | known hphase | dangling hphase | ring hphase =>
    simp only [measure, finish, hphase]
    omega
  | vote hphase | delegation hphase =>
    simp only [measure, finish, push, hphase, List.length_append, List.length_singleton] at hroom ⊢
    omega
  | settle hphase hpath | clear hphase hpath =>
    simp only [measure, hphase, hpath, List.length_cons, List.length_nil]
    omega

/-- The steps from one state to another one. -/
def Reaches (b : Book) : Pass → Pass → Prop := ReflTransGen (Goes b)

theorem run_succ_of_goes {k : Nat} (h : (run b k).Goes b t) : run b (k + 1) = t := by
  rw [run, h.next?_eq, Option.getD_some]

theorem run_isOrderly (b : Book) (k : Nat) : (run b k).IsOrderly b := by
  induction k with
  | zero => exact isOrderly_start b
  | succ k ih =>
    rw [run]
    cases hnext : (run b k).next? b with
    | none => exact ih
    | some t => exact ih.goes (goes_of_next? hnext)

/-- After so many steps the pass is over, unless there are as many steps less to be done. -/
theorem run_measure (b : Book) (k : Nat) :
    (run b k).next? b = none ∨ (run b k).measure b + k ≤ 5 * b.actors.length := by
  induction k with
  | zero => exact .inr (measure_start b).le
  | succ k ih =>
    rw [run]
    cases hnext : (run b k).next? b with
    | none => exact .inl hnext
    | some t =>
      have hlt := measure_lt (run_isOrderly b k) (goes_of_next? hnext)
      have hle := ih.resolve_left (by rw [hnext]; nofun)
      exact .inr (by rw [Option.getD_some]; omega)

/-- The pass ends. -/
theorem next?_run (b : Book) : (run b (5 * b.actors.length)).next? b = none := by
  rcases run_measure b (5 * b.actors.length) with hnone | hle
  · exact hnone
  cases hnext : (run b (5 * b.actors.length)).next? b with
  | none => rfl
  | some t =>
    have hlt := measure_lt (run_isOrderly b _) (goes_of_next? hnext)
    omega

theorem run_add_of_next?_eq_none {k : Nat} (h : (run b k).next? b = none) (m : Nat) :
    run b (k + m) = run b k := by
  induction m with
  | zero => rfl
  | succ m ih => rw [← Nat.add_assoc, run, ih, h, Option.getD_none]

/-- What is reached without a further step is the end of the pass. -/
theorem run_eq_of_reaches (hreach : Reaches b (start b) t) (hend : t.next? b = none) :
    run b (5 * b.actors.length) = t := by
  obtain ⟨k, rfl⟩ : ∃ k, run b k = t := by
    clear hend
    induction hreach with
    | refl => exact ⟨0, rfl⟩
    | tail _ hgoes ih =>
      obtain ⟨k, rfl⟩ := ih
      exact ⟨k + 1, run_succ_of_goes hgoes⟩
  rcases Nat.le_total k (5 * b.actors.length) with hle | hle
  · obtain ⟨m, hm⟩ := Nat.exists_eq_add_of_le hle
    rw [hm, run_add_of_next?_eq_none hend]
  · obtain ⟨m, rfl⟩ := Nat.exists_eq_add_of_le hle
    exact (run_add_of_next?_eq_none (next?_run b) m).symm

/-! ### The steps follow the paths of the resolution -/

variable {resolved : Resolution} {pending : Pending} {path : List ParticipantId}
  {v : ParticipantId} {vote : Vote} {p : Progress}

theorem IsOrderly.reaches (h : s.IsOrderly b) (hreach : Reaches b s t) : t.IsOrderly b := by
  induction hreach with
  | refl => exact h
  | tail _ hgoes ih => exact ih.goes hgoes

/-- The pending participants are those who have acted and have not been pushed. -/
def Leaves (b : Book) (s : Pass) (pending : Pending) : Prop :=
  ∀ u, pending[u]? = if u ∈ s.pushed then none else b.current? u

/-- Who is pushed is pending no longer. -/
theorem Leaves.push (h : s.Leaves b pending) (v : ParticipantId) :
    (s.push v).Leaves b (pending.erase v) := fun u => by
  show (pending.erase v)[u]? = if u ∈ s.pushed ++ [v] then none else b.current? u
  rw [Maps.getElem?_erase, h u]
  simp only [List.mem_append, List.mem_singleton, eq_comm (a := u)]
  by_cases huv : v = u <;> by_cases hu : u ∈ s.pushed <;> simp [huv, hu]

/-- Who is pending has acted and can be pushed. -/
theorem Leaves.current?_eq {a : Action} (h : s.Leaves b pending) (ha : pending[v]? = some a) :
    v ∉ s.pushed ∧ b.current? v = some a := by
  rw [h v] at ha
  split at ha
  · cases ha
  · exact ⟨‹_›, ha⟩

theorem IsOrderly.not_mem_onPath (h : s.IsOrderly b) (hphase : s.phase = .walking v)
    {u : ParticipantId} (hu : u ∉ s.pushed) : u ∉ s.onPath := fun hmem =>
  hu (h.path_sublist.subset ((h.onPath_iff v hphase u).1 hmem))

/-- **A walk comes to the end of the path** that the resolution follows. -/
theorem reaches_walk (h : s.IsOrderly b) (hphase : s.phase = .walking v)
    (hresolved : s.resolved = resolved) (hpath : s.path = path.reverse)
    (hleaves : s.Leaves b pending) :
    ∃ t, Reaches b s t ∧ t.phase = .settling (follow resolved pending path v).vote ∧
      t.path = (follow resolved pending path v).path.reverse ∧
      t.drained = s.drained ++ [(follow resolved pending path v).path.reverse] ∧
      t.resolved = s.resolved ∧ t.waiting = s.waiting ∧
      t.Leaves b (follow resolved pending path v).pending := by
  fun_induction follow resolved pending path v generalizing s with
  | case1 pending path v vote hv =>
    refine ⟨s.finish vote, .single (.known hphase (hresolved ▸ hv)), rfl, hpath, ?_, rfl, rfl,
      hleaves⟩
    rw [← hpath]
    rfl
  | case2 pending path v hv hnone =>
    have hvote : v ∉ s.resolved := hresolved ▸ Maps.getElem?_eq_none_iff.1 hv
    have hgoes : s.Goes b (s.finish .abstain) := by
      rw [hleaves v] at hnone
      split at hnone
      · -- who has been pushed and has no vote is on the path
        rename_i hpushed
        refine .ring hphase hvote ((h.onPath_iff v hphase v).2 ?_)
        by_contra hmem
        exact hvote ((h.mem_resolved_iff v).2 ⟨hpushed, hmem⟩)
      · exact .dangling hphase hvote hnone
    refine ⟨s.finish .abstain, .single hgoes, rfl, hpath, ?_, rfl, rfl, hleaves⟩
    rw [← hpath]
    rfl
  | case3 pending path v hv voter isYes seq hvotes =>
    obtain ⟨hnew, hcurrent⟩ := hleaves.current?_eq hvotes
    have hvote : v ∉ s.resolved := hresolved ▸ Maps.getElem?_eq_none_iff.1 hv
    have hgoes := Goes.vote hphase hvote (h.not_mem_onPath hphase hnew) ⟨voter, seq, hcurrent⟩
    have hpush : (s.push v).path = (v :: path).reverse := by
      rw [List.reverse_cons, ← hpath]
      rfl
    refine ⟨_, .single hgoes, rfl, hpush, ?_, rfl, rfl, hleaves.push v⟩
    rw [← hpush]
    rfl
  | case4 pending path v hv voter delegate seq hdelegates ih =>
    obtain ⟨hnew, hcurrent⟩ := hleaves.current?_eq hdelegates
    have hvote : v ∉ s.resolved := hresolved ▸ Maps.getElem?_eq_none_iff.1 hv
    have hgoes := Goes.delegation hphase hvote (h.not_mem_onPath hphase hnew)
      ⟨voter, seq, hcurrent⟩
    have hpush : s.path ++ [v] = (v :: path).reverse := by rw [List.reverse_cons, hpath]
    obtain ⟨t, hreach, ht⟩ := ih (h.goes hgoes) rfl hresolved hpush (hleaves.push v)
    exact ⟨t, .head hgoes hreach, ht⟩

/-- A path is drained to its end. -/
theorem reaches_settle (hphase : s.phase = .settling vote) (hpath : s.path = path) :
    Reaches b s { s with phase := .between, path := [], onPath := ∅,
                         resolved := Resolution.settle s.resolved vote path } := by
  induction path generalizing s with
  | nil =>
    have hgoes : s.Goes b _ := .clear hphase hpath
    rw [hpath] at hgoes
    exact .single hgoes
  | cons v rest ih =>
    have hgoes : s.Goes b _ := .settle hphase hpath
    exact .head hgoes (ih (s := { s with resolved := s.resolved.insert v vote, path := rest })
      hphase rfl)

theorem settle_reverse (resolved : Resolution) (vote : Vote) (path : List ParticipantId) :
    Resolution.settle resolved vote path.reverse = Resolution.settle resolved vote path :=
  Std.ExtTreeMap.ext_getElem? fun u => by
    rw [getElem?_settle, getElem?_settle]
    simp only [List.mem_reverse]

/-- Between two walks the pass knows the same as the resolution. -/
structure Agrees (b : Book) (s : Pass) (p : Progress) : Prop where
  phase_eq : s.phase = .between
  resolved_eq : s.resolved = p.resolved
  leaves : s.Leaves b p.pending
  drained_eq : s.drained = (p.paths.map List.reverse).reverse

theorem agrees_start (b : Book) : (start b).Agrees b (.start b) where
  phase_eq := rfl
  resolved_eq := rfl
  leaves _ := (if_neg List.not_mem_nil).symm
  drained_eq := rfl

/-- **The pass comes to the next participant** with what the resolution knows then. -/
theorem reaches_visit {rest : List ParticipantId} (h : s.IsOrderly b) (hp : s.Agrees b p)
    (hwaiting : s.waiting = v :: rest) :
    ∃ t, Reaches b s t ∧ t.waiting = rest ∧ t.Agrees b (p.visit v) := by
  by_cases hv : v ∈ s.resolved
  · refine ⟨_, .single (.skip hp.phase_eq hwaiting hv), rfl, ?_⟩
    rw [Progress.visit_of_mem (hp.resolved_eq ▸ hv)]
    exact ⟨hp.phase_eq, hp.resolved_eq, hp.leaves, hp.drained_eq⟩
  have hstart : s.Goes b { s with phase := .walking v, waiting := rest } :=
    .start hp.phase_eq hwaiting hv
  have hempty : s.path = ([] : List ParticipantId).reverse := (h.between hp.phase_eq).1
  obtain ⟨t, hwalk, hphase, hpath, hdrained, hresolved, hrest, hleaves⟩ :=
    reaches_walk (h.goes hstart) rfl hp.resolved_eq hempty hp.leaves
  refine ⟨_, .head hstart (hwalk.trans (reaches_settle hphase hpath)), hrest, ?_⟩
  rw [Progress.visit, if_neg (hp.resolved_eq ▸ hv)]
  refine ⟨rfl, ?_, hleaves, ?_⟩
  · rw [settle_reverse, hresolved, hp.resolved_eq]
  · rw [hdrained, hp.drained_eq, List.map_cons, List.reverse_cons]

theorem reaches_all (h : s.IsOrderly b) (hp : s.Agrees b p) :
    ∃ t, Reaches b s t ∧ t.waiting = [] ∧ t.Agrees b (s.waiting.foldl Progress.visit p) := by
  generalize hwaiting : s.waiting = waiting
  induction waiting generalizing s p with
  | nil => exact ⟨s, .refl, hwaiting, hp⟩
  | cons v rest ih =>
    obtain ⟨t, hvisit, hrest, ht⟩ := reaches_visit h hp hwaiting
    obtain ⟨u, hreach, hu⟩ := ih (h.reaches hvisit) ht hrest
    exact ⟨u, hvisit.trans hreach, hu⟩

/-- The pass ends with what the resolution knows in the end. -/
theorem run_agrees (b : Book) :
    (run b (5 * b.actors.length)).waiting = [] ∧
      (run b (5 * b.actors.length)).Agrees b (.all b) := by
  obtain ⟨t, hreach, hwaiting, ht⟩ := reaches_all (isOrderly_start b) (agrees_start b)
  have hend : t.next? b = none := by simp only [next?, ht.phase_eq, hwaiting]
  rw [run_eq_of_reaches hreach hend]
  exact ⟨hwaiting, ht⟩

end Pass

/-- **The resolution is one pass that takes everybody once.** After at most five steps for everybody
who has acted the pass is over, with the votes of the resolution. The paths that have been drained
are together everybody who has acted, each of them once, and no delegation has been followed twice.
All the time nobody is on the path twice, during a walk the path and the set of those who are on it
agree, and between walks nobody is on it; whoever is pushed has acted, has no vote and is not on the
path, and no vote takes the place of another one. -/
theorem pass_is_linear (b : Book) :
    let last := Pass.run b (5 * b.actors.length)
    (last.next? b = none ∧ last.waiting = [] ∧ last.resolved = b.resolve ∧
      last.drained = ((Progress.all b).paths.map List.reverse).reverse) ∧
    (last.drained.flatten = last.pushed ∧ last.pushed.Perm b.actors ∧ last.followed.Nodup ∧
      ∀ e ∈ last.followed, b.Delegates e.1 e.2) ∧
    ∀ k, let s := Pass.run b k
      s.path.Nodup ∧
      (∀ v, s.phase = .walking v → ∀ u, u ∈ s.onPath ↔ u ∈ s.path) ∧
      (s.phase = .between → s.path = [] ∧ s.onPath = ∅) ∧
      ∀ t, s.next? b = some t →
        (t.pushed = s.pushed ∨ ∃ v ∈ b.actors, v ∉ s.resolved ∧ v ∉ s.path ∧
          t.pushed = s.pushed ++ [v] ∧ t.path = s.path ++ [v]) ∧
        (t.resolved = s.resolved ∨
          ∃ v vote, v ∉ s.resolved ∧ t.resolved = s.resolved.insert v vote) := by
  obtain ⟨hwaiting, hagrees⟩ := Pass.run_agrees b
  have horderly := Pass.run_isOrderly b (5 * b.actors.length)
  obtain ⟨hpath, -⟩ := horderly.between hagrees.phase_eq
  refine ⟨⟨Pass.next?_run b, hwaiting, hagrees.resolved_eq, hagrees.drained_eq⟩,
    ⟨?_, ?_, horderly.followed_nodup, horderly.followed_delegates⟩, fun k => ?_⟩
  · rw [horderly.pushed_eq fun vote => by rw [hagrees.phase_eq]; nofun, hpath, List.append_nil]
  · -- in the end nobody is on the path, so who has been pushed has a vote
    refine (List.perm_ext_iff_of_nodup horderly.pushed_nodup Std.ExtTreeMap.nodup_keys).2
      fun v => ?_
    have hresolved : (Pass.run b (5 * b.actors.length)).resolved = b.resolve := hagrees.resolved_eq
    have hacted : v ∈ b.actors ↔ v ∈ b.resolve := by
      rw [← keys_resolve, Std.ExtTreeMap.mem_keys]
    refine Iff.trans ?_ hacted.symm
    rw [← hresolved, horderly.mem_resolved_iff, hpath]
    exact (and_iff_left List.not_mem_nil).symm
  · have h := Pass.run_isOrderly b k
    exact ⟨h.path_nodup, h.onPath_iff, h.between, fun t ht => h.fresh (Pass.goes_of_next? ht)⟩

end DelegatedVoting.Resolution
