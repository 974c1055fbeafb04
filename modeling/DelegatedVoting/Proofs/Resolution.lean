import DelegatedVoting.Proofs.Chain
import DelegatedVoting.Proofs.Maps

/-!
# Everybody gets the vote at the end of their chain

The resolution of a book keeps the votes that it has found and takes each participant onto a path
once. It comes to the votes that following the delegations afresh from everybody would give.

* `Known`: what is known while a path is being followed, where the votes found so far are right;
* `follow_spec`: a path ends in the vote of everybody on it, and keeps what is known;
* `Progress.Sound`, `Progress.Sound.foldl_visit`: the participants are looked at one by one, in
  any order and any number of times;
* `getElem?_resolved`: the votes found once everybody has been looked at;
* `resolve_spec`: the resolution is the votes at the ends of the chains.
-/

namespace DelegatedVoting.Resolution

open Relation Ballot

variable {b : Book} {resolved : Resolution} {pending : Pending} {path : List ParticipantId}
  {u v : ParticipantId} {vote : Vote}

/-! ### One path -/

/-- What is known while a path is being followed: the votes found so far are right, and whoever
has acted is pending, on the path or resolved. -/
structure Known (b : Book) (resolved : Resolution) (pending : Pending)
    (path : List ParticipantId) : Prop where
  sound : ∀ u vote, resolved[u]? = some vote → b.EndsIn u vote
  pending_sound : ∀ u a, pending[u]? = some a → b.current? u = some a
  complete : ∀ u, b.current? u ≠ none → u ∈ pending ∨ u ∈ path ∨ u ∈ resolved
  path_acted : ∀ u ∈ path, b.current? u ≠ none

/-- Taking a pending participant onto the path keeps what is known. -/
theorem Known.push (h : Known b resolved pending path) (hv : v ∈ pending) :
    Known b resolved (pending.erase v) (v :: path) where
  sound := h.sound
  pending_sound u a hu := by
    rw [Maps.getElem?_erase] at hu
    split at hu
    · cases hu
    · exact h.pending_sound u a hu
  complete u hu := by
    by_cases huv : v = u
    · exact .inr (.inl (by simp [huv]))
    rcases h.complete u hu with hp | hp | hr
    · exact .inl (Std.ExtTreeMap.mem_erase.2 ⟨by simpa using huv, hp⟩)
    · exact .inr (.inl (List.mem_cons_of_mem _ hp))
    · exact .inr (.inr hr)
  path_acted u hu := by
    rcases List.mem_cons.1 hu with rfl | hu
    · obtain ⟨a, ha⟩ := Maps.mem_iff.1 hv
      rw [h.pending_sound u a ha]
      exact Option.some_ne_none a
    · exact h.path_acted u hu

/-- Where a path ends without a vote, there is none to come to: either nobody has acted there, or
the path has come back to itself. -/
theorem Known.endsIn_abstain (h : Known b resolved pending path)
    (hpath : ∀ u ∈ path, TransGen b.Delegates u v) (hr : resolved[v]? = none)
    (hp : pending[v]? = none) : b.EndsIn v .abstain := by
  intro isYes
  by_cases hv : b.current? v = none
  · exact Book.not_leadsTo_of_current?_eq_none hv
  rcases h.complete v hv with hv | hv | hv
  · exact absurd hv (Maps.getElem?_eq_none_iff.1 hp)
  · exact Book.not_leadsTo_of_ring (hpath v hv)
  · exact absurd hv (Maps.getElem?_eq_none_iff.1 hr)

/-- A path ends in the vote of everybody on it, and keeps what is known. -/
theorem follow_spec (h : Known b resolved pending path)
    (hpath : ∀ u ∈ path, TransGen b.Delegates u v) :
    b.EndsIn v (follow resolved pending path v).vote ∧
      (∀ u ∈ (follow resolved pending path v).path,
        b.EndsIn u (follow resolved pending path v).vote) ∧
      Known b resolved (follow resolved pending path v).pending
        (follow resolved pending path v).path := by
  fun_induction follow resolved pending path v with
  | case1 pending path v vote hr =>
    have hv := h.sound v vote hr
    exact ⟨hv, fun u hu => (Book.endsIn_iff_of_transGen (hpath u hu)).2 hv, h⟩
  | case2 pending path v hr hp =>
    have hv := h.endsIn_abstain hpath hr hp
    exact ⟨hv, fun u hu => (Book.endsIn_iff_of_transGen (hpath u hu)).2 hv, h⟩
  | case3 pending path v hr voter isYes seq hp =>
    have hv : b.EndsIn v (.direct isYes) :=
      Book.endsIn_direct.2 (.vote ⟨voter, seq, h.pending_sound v _ hp⟩)
    refine ⟨hv, fun u hu => ?_, h.push (Maps.mem_iff.2 ⟨_, hp⟩)⟩
    rcases List.mem_cons.1 hu with rfl | hu
    · exact hv
    · exact (Book.endsIn_iff_of_transGen (hpath u hu)).2 hv
  | case4 pending path v hr voter delegate seq hp ih =>
    -- the delegate is one step further on the chain of everybody on the path, `v` included
    have hstep : b.Delegates v delegate := ⟨voter, seq, h.pending_sound v _ hp⟩
    have hnext : ∀ u ∈ v :: path, TransGen b.Delegates u delegate := by
      intro u hu
      rcases List.mem_cons.1 hu with rfl | hu
      · exact .single hstep
      · exact .tail (hpath u hu) hstep
    obtain ⟨hend, hon, hknown⟩ := ih (h.push (Maps.mem_iff.2 ⟨_, hp⟩)) hnext
    exact ⟨(Book.endsIn_iff_of_transGen (.single hstep)).2 hend, hon, hknown⟩

/-- A path only grows. -/
theorem subset_path_follow (resolved : Resolution) (pending : Pending)
    (path : List ParticipantId) (v : ParticipantId) :
    path ⊆ (follow resolved pending path v).path := by
  fun_induction follow resolved pending path v with
  | case1 => exact List.Subset.refl _
  | case2 => exact List.Subset.refl _
  | case3 => exact List.subset_cons_self _ _
  | case4 _ _ _ _ _ _ _ _ ih => exact fun u hu => ih (List.mem_cons_of_mem _ hu)

/-- Whoever is pending gets onto the path that starts with them. -/
theorem mem_path_follow (hr : v ∉ resolved) (hp : v ∈ pending) :
    v ∈ (follow resolved pending path v).path := by
  obtain ⟨a, ha⟩ := Maps.mem_iff.1 hp
  rw [follow, Maps.getElem?_eq_none_iff.2 hr]
  dsimp only
  split
  · rename_i hnone
    rw [ha] at hnone
    cases hnone
  · exact List.mem_cons_self
  · exact subset_path_follow _ _ _ _ List.mem_cons_self

/-! ### One participant after the other -/

/-- Everybody on a path gets the vote, and nobody else. -/
theorem getElem?_settle (resolved : Resolution) (vote : Vote) (path : List ParticipantId)
    (u : ParticipantId) :
    (settle resolved vote path)[u]? = if u ∈ path then some vote else resolved[u]? := by
  induction path generalizing resolved with
  | nil => simp [settle]
  | cons v path ih =>
    have hcons : settle resolved vote (v :: path) = settle (resolved.insert v vote) vote path := rfl
    rw [hcons, ih, Maps.getElem?_insert]
    simp only [List.mem_cons, eq_comm (a := u)]
    by_cases hu : u ∈ path <;> by_cases huv : v = u <;> simp [hu, huv]

namespace Progress

variable {p : Progress}

/-- What has been found is right, and nobody is on a path. -/
structure Sound (b : Book) (p : Progress) : Prop where
  known : Known b p.resolved p.pending []
  acted : ∀ u ∈ p.resolved, b.current? u ≠ none

theorem sound_start (b : Book) : Sound b (start b) where
  known :=
    { sound u vote hu := by simp [start] at hu
      pending_sound u a hu := hu
      complete u hu := .inl (by
        by_contra hmem
        exact hu (Maps.getElem?_eq_none_iff.2 hmem))
      path_acted u hu := absurd hu List.not_mem_nil }
  acted u hu := by simp [start] at hu

theorem visit_of_mem (hv : v ∈ p.resolved) : p.visit v = p := if_pos hv

theorem resolved_visit (hv : v ∉ p.resolved) (u : ParticipantId) :
    (p.visit v).resolved[u]? =
      if u ∈ (follow p.resolved p.pending [] v).path
      then some (follow p.resolved p.pending [] v).vote else p.resolved[u]? := by
  rw [visit, if_neg hv]
  exact getElem?_settle _ _ _ u

theorem Sound.visit (h : Sound b p) (v : ParticipantId) : Sound b (p.visit v) := by
  by_cases hv : v ∈ p.resolved
  · rwa [visit_of_mem hv]
  obtain ⟨-, hon, hknown⟩ :=
    follow_spec (v := v) h.known (fun u hu => absurd hu List.not_mem_nil)
  have hpending : (p.visit v).pending = (follow p.resolved p.pending [] v).pending := by
    rw [Progress.visit, if_neg hv]
  refine ⟨⟨fun u vote hu => ?_, ?_, fun u hu => ?_, fun u hu => absurd hu List.not_mem_nil⟩,
    fun u hu => ?_⟩
  · rw [resolved_visit hv] at hu
    split at hu
    · rename_i hmem
      cases hu
      exact hon u hmem
    · exact h.known.sound u vote hu
  · rw [hpending]
    exact hknown.pending_sound
  · rw [hpending, Maps.mem_iff (m := (p.visit v).resolved), resolved_visit hv]
    -- nobody gets lost: whoever leaves the pending ones is on the path, which is settled
    rcases hknown.complete u hu with hp | hp | hr
    · exact .inl hp
    · exact .inr (.inr (by simp [hp]))
    · refine .inr (.inr ?_)
      split
      · exact ⟨_, rfl⟩
      · exact Maps.mem_iff.1 hr
  · rw [Maps.mem_iff, resolved_visit hv] at hu
    by_cases hmem : u ∈ (follow p.resolved p.pending [] v).path
    · exact hknown.path_acted u hmem
    · rw [if_neg hmem] at hu
      exact h.acted u (Maps.mem_iff.2 hu)

/-- Looking at the participants in any order keeps what has been found right. -/
theorem Sound.foldl_visit (h : Sound b p) (order : List ParticipantId) :
    Sound b (order.foldl Progress.visit p) := by
  induction order generalizing p with
  | nil => exact h
  | cons v order ih => exact ih (h.visit v)

/-- Whoever has a vote keeps it. -/
theorem mem_resolved_visit (hu : u ∈ p.resolved) (v : ParticipantId) :
    u ∈ (p.visit v).resolved := by
  by_cases hv : v ∈ p.resolved
  · rwa [visit_of_mem hv]
  rw [Maps.mem_iff, resolved_visit hv]
  split
  · exact ⟨_, rfl⟩
  · exact Maps.mem_iff.1 hu

/-- Whoever has acted and is looked at has a vote afterwards. -/
theorem Sound.mem_resolved_visit_self (h : Sound b p) (hv : b.current? v ≠ none) :
    v ∈ (p.visit v).resolved := by
  by_cases hmem : v ∈ p.resolved
  · rwa [visit_of_mem hmem]
  have hp : v ∈ p.pending := by
    rcases h.known.complete v hv with hp | hp | hr
    · exact hp
    · exact absurd hp List.not_mem_nil
    · exact absurd hr hmem
  rw [Maps.mem_iff, resolved_visit hmem, if_pos (mem_path_follow hmem hp)]
  exact ⟨_, rfl⟩

theorem Sound.mem_resolved_foldl_visit (h : Sound b p) {order : List ParticipantId}
    (hv : b.current? v ≠ none) (hmem : v ∈ p.resolved ∨ v ∈ order) :
    v ∈ (order.foldl Progress.visit p).resolved := by
  induction order generalizing p with
  | nil => exact hmem.resolve_right List.not_mem_nil
  | cons w order ih =>
    refine ih (h.visit w) ?_
    rcases hmem with hr | hmem
    · exact .inl (mem_resolved_visit hr w)
    rcases List.mem_cons.1 hmem with rfl | hmem
    · exact .inl (h.mem_resolved_visit_self hv)
    · exact .inr hmem

end Progress

/-! ### The resolution -/

theorem mem_actors_iff : v ∈ b.actors ↔ b.current? v ≠ none := by
  rw [Book.actors, Std.ExtTreeMap.mem_keys, ne_eq, Book.current?, Maps.getElem?_eq_none_iff,
    not_not]

/-- Once everybody who has acted has been looked at, in whatever order, exactly they have a vote,
and it is the one at the end of their chain. -/
theorem getElem?_resolved {order : List ParticipantId} (horder : ∀ v ∈ b.actors, v ∈ order) :
    (order.foldl Progress.visit (Progress.start b)).resolved[v]? = some vote ↔
      v ∈ b.actors ∧ b.EndsIn v vote := by
  have h := (Progress.sound_start b).foldl_visit order
  constructor
  · intro hv
    exact ⟨mem_actors_iff.2 (h.acted v (Maps.mem_iff.2 ⟨vote, hv⟩)), h.known.sound v vote hv⟩
  · rintro ⟨hv, hend⟩
    have hmem := (Progress.sound_start b).mem_resolved_foldl_visit (mem_actors_iff.1 hv)
      (.inr (horder v hv))
    obtain ⟨vote', hvote'⟩ := Maps.mem_iff.1 hmem
    rw [hvote', Book.endsIn_unique (h.known.sound v vote' hvote') hend]

theorem getElem?_resolve : b.resolve[v]? = some vote ↔ v ∈ b.actors ∧ b.EndsIn v vote :=
  getElem?_resolved fun _ => id

theorem keys_resolve (b : Book) : b.resolve.keys = b.actors := by
  refine Maps.keys_eq Std.ExtTreeMap.ordered_keys fun v => ?_
  rw [Maps.mem_iff]
  constructor
  · intro hv
    obtain ⟨vote, hend⟩ := b.exists_endsIn v
    exact ⟨vote, getElem?_resolve.2 ⟨hv, hend⟩⟩
  · rintro ⟨vote, hv⟩
    exact (getElem?_resolve.1 hv).1

/-- The resolution does not depend on the order in which the participants are looked at. -/
theorem resolved_eq_resolve {order : List ParticipantId} (horder : ∀ v ∈ b.actors, v ∈ order) :
    (order.foldl Progress.visit (Progress.start b)).resolved = b.resolve :=
  Std.ExtTreeMap.ext_getElem? fun v => Option.ext fun vote => by
    rw [getElem?_resolved horder, getElem?_resolve]

/-- **The resolution is the votes at the ends of the chains.** It has one entry for everybody who
has acted and none for anybody else, and the vote of an entry is the one that following the
delegations afresh comes to. It stays the same if the participants are looked at in another order,
or repeatedly, and a path that is followed after any others ends in the vote of its chain. -/
theorem resolve_spec (b : Book) :
    b.resolve.keys = b.actors ∧
      (∀ v vote, b.resolve[v]? = some vote ↔ v ∈ b.actors ∧ b.EndsIn v vote) ∧
      (∀ order : List ParticipantId, (∀ v ∈ b.actors, v ∈ order) →
        (order.foldl Progress.visit (Progress.start b)).resolved = b.resolve) ∧
      ∀ (earlier : List ParticipantId) (v : ParticipantId),
        let p := earlier.foldl Progress.visit (Progress.start b)
        b.EndsIn v (follow p.resolved p.pending [] v).vote := by
  refine ⟨keys_resolve b, fun v vote => getElem?_resolve, fun order => resolved_eq_resolve,
    fun earlier v => ?_⟩
  have h := (Progress.sound_start b).foldl_visit earlier
  exact (follow_spec h.known fun u hu => absurd hu List.not_mem_nil).1

end DelegatedVoting.Resolution
