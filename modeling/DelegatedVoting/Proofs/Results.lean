import Mathlib.Data.List.Forall2

/-!
# Results

What is computed step by step is a value, or the first error. So a value tells that every step has
come to one.

* `bind_eq_ok_iff`, `map_eq_ok`, `mapError_eq_ok_iff`, `ite_throw_eq_ok_iff`: one step after
  another;
* `toOption_eq_some_iff`: a value whose error does not matter;
* `mapM_eq_ok_iff`, `foldlM_eq_ok_iff`: one step for each member of a list;
* `exists_forall₂_iff`, `Forall₂.exists_left`, `Forall₂.map_eq`: lists whose members correspond.
-/

namespace DelegatedVoting

/-! ### Values and errors -/

theorem ok_bind {ε α β : Type} (a : α) (f : α → Except ε β) : (Except.ok a >>= f) = f a := rfl

theorem map_eq_ok {ε α β : Type} {f : α → β} {r : Except ε α} {b : β} (h : f <$> r = .ok b) :
    ∃ a, r = .ok a ∧ f a = b := by
  cases r with
  | error e => cases h
  | ok a => exact ⟨a, rfl, Except.ok.inj h⟩

@[simp] theorem pure_eq_ok_iff {ε α : Type} {a b : α} :
    (pure a : Except ε α) = .ok b ↔ a = b := Except.ok.injEq a b ▸ Iff.rfl

theorem bind_eq_ok_iff {ε α β : Type} {r : Except ε α} {f : α → Except ε β} {b : β} :
    r >>= f = .ok b ↔ ∃ a, r = .ok a ∧ f a = .ok b := by
  cases r with
  | error e => exact iff_of_false nofun fun ⟨a, ha, _⟩ => nomatch ha
  | ok a => simp [ok_bind]

theorem mapError_eq_ok_iff {ε ε' α : Type} {f : ε → ε'} {r : Except ε α} {a : α} :
    r.mapError f = .ok a ↔ r = .ok a := by
  cases r <;> simp [Except.mapError]

theorem toOption_eq_some_iff {ε α : Type} {r : Except ε α} {a : α} :
    r.toOption = some a ↔ r = .ok a := by
  cases r <;> simp [Except.toOption]

/-- A value that has to meet a condition. -/
theorem ite_throw_eq_ok_iff {ε α : Type} {P : Prop} [Decidable P] {e : ε} {r : Except ε α} {a : α} :
    (if P then throw e else r) = .ok a ↔ ¬ P ∧ r = .ok a := by
  by_cases h : P
  · rw [if_pos h]
    exact iff_of_false nofun fun hboth => hboth.1 h
  · rw [if_neg h, and_iff_right h]

/-- Values are read one by one. -/
theorem mapM_eq_ok_iff {ε α β : Type} {read : β → Except ε α} {l : List β} {l' : List α} :
    l.mapM read = .ok l' ↔ List.Forall₂ (fun b a => read b = .ok a) l l' := by
  induction l generalizing l' with
  | nil =>
    rw [List.mapM_nil, pure_eq_ok_iff, List.forall₂_nil_left_iff, eq_comm]
  | cons b l ih =>
    simp only [List.mapM_cons, bind_eq_ok_iff, ih, pure_eq_ok_iff, List.forall₂_cons_left_iff]
    constructor
    · rintro ⟨a, ha, as, has, rfl⟩
      exact ⟨a, as, ha, has, rfl⟩
    · rintro ⟨a, as, ha, has, rfl⟩
      exact ⟨a, ha, as, has, rfl⟩

/-- Values are read and used one by one. -/
theorem foldlM_eq_ok_iff {ε α β γ : Type} {read : β → Except ε α} {use : γ → α → γ} {l : List β}
    {c c' : γ} : l.foldlM (fun c b => do pure (use c (← read b))) c = .ok c' ↔
      ∃ l', List.Forall₂ (fun b a => read b = .ok a) l l' ∧ c' = l'.foldl use c := by
  induction l generalizing c with
  | nil =>
    simp only [List.foldlM_nil, pure_eq_ok_iff, List.forall₂_nil_left_iff, exists_eq_left,
      List.foldl_nil]
    exact eq_comm
  | cons b l ih =>
    simp only [List.foldlM_cons, bind_eq_ok_iff, ih, pure_eq_ok_iff, List.forall₂_cons_left_iff]
    constructor
    · rintro ⟨_, ⟨a, ha, rfl⟩, as, has, hc⟩
      exact ⟨a :: as, ⟨a, as, ha, has, rfl⟩, hc⟩
    · rintro ⟨_, ⟨a, as, ha, has, rfl⟩, hc⟩
      exact ⟨use c a, ⟨a, ha, rfl⟩, as, has, hc⟩

/-- Values that are written are read back one by one. -/
theorem mapM_map_eq_ok {ε α β : Type} {write : α → β} {read : β → Except ε α} {l : List α}
    (h : ∀ a ∈ l, read (write a) = .ok a) : (l.map write).mapM read = .ok l := by
  rw [mapM_eq_ok_iff, List.forall₂_map_left_iff, List.forall₂_same]
  exact h

/-! ### Lists side by side -/

section Forall₂

variable {α β : Type*} {R S : α → β → Prop} {l : List α} {l' : List β}

theorem forall₂_congr (h : ∀ a ∈ l, ∀ b, R a b ↔ S a b) :
    List.Forall₂ R l l' ↔ List.Forall₂ S l l' := by
  induction l generalizing l' with
  | nil => simp only [List.forall₂_nil_left_iff]
  | cons a l ih =>
    simp only [List.forall₂_cons_left_iff, h a (by simp), ih fun a' ha' => h a' (by simp [ha'])]

theorem exists_forall₂_iff : (∃ l', List.Forall₂ R l l') ↔ ∀ a ∈ l, ∃ b, R a b := by
  induction l with
  | nil => simp
  | cons a l ih =>
    simp only [List.forall₂_cons_left_iff, List.forall_mem_cons, ← ih]
    constructor
    · rintro ⟨_, b, l', hb, hl', -⟩
      exact ⟨⟨b, hb⟩, l', hl'⟩
    · rintro ⟨⟨b, hb⟩, l', hl'⟩
      exact ⟨_, b, l', hb, hl', rfl⟩

theorem Forall₂.exists_left (h : List.Forall₂ R l l') {a : α} (ha : a ∈ l) : ∃ b ∈ l', R a b := by
  induction h with
  | nil => cases ha
  | cons hab _ ih =>
    rcases List.mem_cons.1 ha with rfl | ha
    · exact ⟨_, List.mem_cons_self, hab⟩
    · obtain ⟨b, hb, hab⟩ := ih ha
      exact ⟨b, List.mem_cons_of_mem _ hb, hab⟩

theorem Forall₂.exists_right (h : List.Forall₂ R l l') {b : β} (hb : b ∈ l') : ∃ a ∈ l, R a b :=
  Forall₂.exists_left h.flip hb

/-- Lists that are told by the same keys are related if what has the same key is. -/
theorem forall₂_of_map_eq {γ : Type} {f : α → γ} {g : β → γ} (h : l.map f = l'.map g)
    (hR : ∀ a ∈ l, ∀ b ∈ l', f a = g b → R a b) : List.Forall₂ R l l' := by
  induction l generalizing l' with
  | nil =>
    rw [List.map_nil, eq_comm, List.map_eq_nil_iff] at h
    exact h ▸ .nil
  | cons a l ih =>
    cases l' with
    | nil => cases h
    | cons b l' =>
      rw [List.map_cons, List.map_cons, List.cons.injEq] at h
      exact .cons (hR a (by simp) b (by simp) h.1)
        (ih h.2 fun a' ha' b' hb' => hR a' (by simp [ha']) b' (by simp [hb']))

theorem Forall₂.map_eq {γ : Type} {f : α → γ} {g : β → γ} (h : List.Forall₂ R l l')
    (hR : ∀ a b, R a b → f a = g b) : l.map f = l'.map g := by
  induction h with
  | nil => rfl
  | cons hab _ ih => rw [List.map_cons, List.map_cons, hR _ _ hab, ih]

end Forall₂

end DelegatedVoting
