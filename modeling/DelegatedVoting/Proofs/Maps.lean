import Mathlib.Data.List.Induction
import Mathlib.Data.List.Sort
import Std.Data.ExtTreeMap

/-!
# Ordered maps

Facts about maps that are ordered by their keys, where keys that compare as equal are equal.

* `Maps.getElem?_insert`, `getElem?_erase`, `getElem?_eq_none_iff`, `mem_iff`, `mem_toList_iff`:
  looking a key up;
* `Maps.eq_of_sorted`, `toList_eq`, `keys_eq`: a map is listed in the one order of its keys;
* `Maps.toList_insert_last`: an entry behind all the others is listed last;
* `Maps.perm_toList`, `countP_insert`: the entry of one key is set apart in a listing;
* `Maps.values_eq`, `mem_values_iff`: the values follow the order of the keys;
* `Maps.getElem?_foldl_insert`: a map that is built up from a list;
* `Maps.mapEntries`: the map with other keys and other values.
-/

namespace DelegatedVoting.Maps

open Std

variable {α β : Type} [Ord α] [TransOrd α] {m : ExtTreeMap α β}

/-! ### Looking a key up -/

theorem getElem?_eq_none_iff {k : α} : m[k]? = none ↔ k ∉ m := by
  rw [ExtTreeMap.mem_iff_isSome_getElem?, Bool.not_eq_true, Option.isSome_eq_false_iff,
    Option.isNone_iff_eq_none]

theorem mem_iff {k : α} : k ∈ m ↔ ∃ v, m[k]? = some v := by
  rw [ExtTreeMap.mem_iff_isSome_getElem?, Option.isSome_iff_exists]

/-- The values follow the order of the keys. -/
theorem values_eq (m : ExtTreeMap α β) : m.values = m.toList.map Prod.snd := by
  obtain ⟨m⟩ := m
  induction m using ExtDTreeMap.inductionOn with
  | mk m =>
    obtain ⟨m, -⟩ := m
    show m.values = (DTreeMap.Internal.Impl.Const.toList m).map Prod.snd
    rw [DTreeMap.Internal.Impl.values_eq_map_snd,
      DTreeMap.Internal.Impl.Const.toList_eq_toListModel_map, List.map_map]
    rfl

theorem mem_toList_iff [LawfulEqOrd α] {e : α × β} : e ∈ m.toList ↔ m[e.1]? = some e.2 :=
  ExtTreeMap.mem_toList_iff_getElem?_eq_some

theorem mem_values_iff [LawfulEqOrd α] {v : β} : v ∈ m.values ↔ ∃ k : α, m[k]? = some v := by
  rw [values_eq, List.mem_map]
  constructor
  · rintro ⟨e, he, rfl⟩
    exact ⟨e.1, mem_toList_iff.1 he⟩
  · exact fun ⟨k, hk⟩ => ⟨(k, v), mem_toList_iff.2 hk, rfl⟩

theorem sorted_toList (m : ExtTreeMap α β) :
    m.toList.Pairwise fun a b => compare a.1 b.1 = .lt :=
  ExtTreeMap.ordered_keys_toList

variable [LawfulEqOrd α]

theorem getElem?_insert [DecidableEq α] (m : ExtTreeMap α β) (k a : α) (v : β) :
    (m.insert k v)[a]? = if k = a then some v else m[a]? := by
  rw [ExtTreeMap.getElem?_insert]
  simp only [LawfulEqOrd.compare_eq_iff_eq]

theorem getElem?_erase [DecidableEq α] (m : ExtTreeMap α β) (k a : α) :
    (m.erase k)[a]? = if k = a then none else m[a]? := by
  rw [ExtTreeMap.getElem?_erase]
  simp only [LawfulEqOrd.compare_eq_iff_eq]

/-! ### The listing -/

/-- Two lists in the same strict order that have the same members are the same. -/
theorem eq_of_sorted {γ : Type} (key : γ → α) {l l' : List γ}
    (hl : l.Pairwise fun a b => compare (key a) (key b) = .lt)
    (hl' : l'.Pairwise fun a b => compare (key a) (key b) = .lt)
    (h : ∀ c, c ∈ l ↔ c ∈ l') : l = l' := by
  have irrefl (c d : γ) (hc : compare (key c) (key d) = .lt) : c ≠ d := by
    rintro rfl
    rw [ReflOrd.compare_self] at hc
    cases hc
  have hperm : l.Perm l' :=
    (List.perm_ext_iff_of_nodup (hl.imp (irrefl _ _)) (hl'.imp (irrefl _ _))).2 h
  refine hperm.eq_of_pairwise (fun c d _ _ hcd hdc => ?_) hl hl'
  have := OrientedOrd.eq_swap (a := key c) (b := key d)
  rw [hcd, hdc] at this
  cases this

omit [LawfulEqOrd α] in
/-- The last of a list in strict order comes behind all the others. -/
theorem getLast?_eq_some_iff_of_sorted {γ : Type} {key : γ → α} {l : List γ}
    (h : l.Pairwise fun a b => compare (key a) (key b) = .lt) {a : γ} :
    l.getLast? = some a ↔ a ∈ l ∧ ∀ b ∈ l, b ≠ a → compare (key b) (key a) = .lt := by
  constructor
  · intro ha
    obtain ⟨front, rfl⟩ := List.getLast?_eq_some_iff.1 ha
    refine ⟨by simp, fun b hb hne => ?_⟩
    rcases List.mem_append.1 hb with hb | hb
    · exact (List.pairwise_append.1 h).2.2 b hb a (by simp)
    · exact absurd (List.mem_singleton.1 hb) hne
  · rintro ⟨ha, hlast⟩
    obtain ⟨c, hc⟩ := Option.isSome_iff_exists.1 (List.getLast?_isSome.2 (List.ne_nil_of_mem ha))
    obtain ⟨front, rfl⟩ := List.getLast?_eq_some_iff.1 hc
    rcases List.mem_append.1 ha with hfront | hlast'
    · have hac := (List.pairwise_append.1 h).2.2 a hfront c (by simp)
      by_contra hne
      have hca := hlast c (by simp) fun heq => hne (heq ▸ hc)
      rw [OrientedOrd.eq_swap (a := key a), hca] at hac
      cases hac
    · rw [hc, List.mem_singleton.1 hlast']

/-- A map is listed as `l` if `l` is in the order of the keys and has the same entries. -/
theorem toList_eq {l : List (α × β)} (hl : l.Pairwise fun a b => compare a.1 b.1 = .lt)
    (h : ∀ k v, (k, v) ∈ l ↔ m[k]? = some v) : m.toList = l :=
  eq_of_sorted Prod.fst ExtTreeMap.ordered_keys_toList hl fun ⟨k, v⟩ => by
    rw [mem_toList_iff, h]

theorem keys_eq {l : List α} (hl : l.Pairwise fun a b => compare a b = .lt)
    (h : ∀ k, k ∈ l ↔ k ∈ m) : m.keys = l :=
  eq_of_sorted (fun a => a) ExtTreeMap.ordered_keys hl fun k => by
    rw [ExtTreeMap.mem_keys, h]

/-- An entry behind all the others is listed last. -/
theorem toList_insert_last [DecidableEq α] {k : α} (v : β)
    (hk : ∀ a ∈ m, compare a k = .lt) : (m.insert k v).toList = m.toList ++ [(k, v)] := by
  have hnew : k ∉ m := fun h => by
    have := hk k h
    rw [ReflOrd.compare_self] at this
    cases this
  refine toList_eq (List.pairwise_append.2 ⟨ExtTreeMap.ordered_keys_toList, by simp, ?_⟩) ?_
  · intro a ha c hc
    obtain rfl := List.mem_singleton.1 hc
    exact hk a.1 (mem_iff.2 ⟨a.2, mem_toList_iff.1 ha⟩)
  · intro a w
    rw [List.mem_append, mem_toList_iff, List.mem_singleton,
      getElem?_insert]
    by_cases h : k = a
    · subst h
      simp [getElem?_eq_none_iff.2 hnew, eq_comm]
    · simp [h, Ne.symm h]

/-! ### One entry -/

section Entry

variable [DecidableEq α] {k : α} {v : β}

omit [LawfulEqOrd α] [DecidableEq α] in
theorem nodup_toList (m : ExtTreeMap α β) : m.toList.Nodup := by
  refine List.Nodup.of_map Prod.fst ?_
  rw [ExtTreeMap.map_fst_toList_eq_keys]
  exact ExtTreeMap.nodup_keys

theorem erase_of_getElem?_eq_none (h : m[k]? = none) : m.erase k = m := by
  refine ExtTreeMap.ext_getElem? fun a => ?_
  rw [getElem?_erase]
  split
  · rename_i ha
    rw [← ha, h]
  · rfl

theorem erase_insert (m : ExtTreeMap α β) (k : α) (v : β) :
    (m.insert k v).erase k = m.erase k := by
  refine ExtTreeMap.ext_getElem? fun a => ?_
  rw [getElem?_erase, getElem?_erase, getElem?_insert]
  split <;> rfl

/-- The entry of a key is listed, and besides it what is listed without the key. -/
theorem perm_toList (h : m[k]? = some v) : m.toList.Perm ((k, v) :: (m.erase k).toList) := by
  have hother : (k, v) ∉ (m.erase k).toList := by
    rw [mem_toList_iff, getElem?_erase, if_pos rfl]
    exact nofun
  refine (List.perm_ext_iff_of_nodup (nodup_toList m) (nodup_toList _ |>.cons hother)).2 fun e => ?_
  rw [List.mem_cons, mem_toList_iff, mem_toList_iff, getElem?_erase]
  by_cases hk : k = e.1
  · rw [if_pos hk, ← hk, h, Option.some.injEq, or_iff_left nofun, Prod.ext_iff]
    exact ⟨fun hv => ⟨hk.symm, hv.symm⟩, fun he => he.2.symm⟩
  · rw [if_neg hk, or_iff_right fun he => hk (congrArg Prod.fst he).symm]

/-- What is counted with the value of a key, and what is counted without the key. -/
theorem countP_insert (f : α × β → Bool) (m : ExtTreeMap α β) (k : α) (v : β) :
    (m.insert k v).toList.countP f =
      (m.erase k).toList.countP f + if f (k, v) then 1 else 0 := by
  have hinserted : (m.insert k v)[k]? = some v := by rw [getElem?_insert, if_pos rfl]
  rw [(perm_toList hinserted).countP_eq, erase_insert, List.countP_cons]

end Entry

/-! ### Maps that are built up from lists -/

section FromList

variable {γ : Type} [DecidableEq α] {key : γ → α} {value : γ → β} {l : List γ}

/-- A map that is built up from a list has the last of the values that come with a key. -/
theorem getElem?_foldl_insert (key : γ → α) (value : γ → β) (l : List γ) (k : α) :
    (l.foldl (fun (m : ExtTreeMap α β) a => m.insert (key a) (value a)) ∅)[k]? =
      (l.filter fun a => key a = k).getLast?.map value := by
  induction l using List.reverseRecOn with
  | nil => simp
  | append_singleton l last ih =>
    rw [List.foldl_append, List.foldl_cons, List.foldl_nil, getElem?_insert, List.filter_append]
    by_cases hk : key last = k
    · simp [hk]
    · simp [hk, ih]

/-- A map is built up from a list in which a key comes with one value only. -/
theorem getElem?_foldl_insert_eq_some_iff
    (h : ∀ a ∈ l, ∀ b ∈ l, key a = key b → value a = value b) {k : α} {v : β} :
    (l.foldl (fun (m : ExtTreeMap α β) a => m.insert (key a) (value a)) ∅)[k]? = some v ↔
      ∃ a ∈ l, key a = k ∧ value a = v := by
  have hmem {a : γ} : a ∈ (l.filter fun a => key a = k) ↔ a ∈ l ∧ key a = k := by simp
  rw [getElem?_foldl_insert, Option.map_eq_some_iff]
  constructor
  · rintro ⟨a, ha, rfl⟩
    obtain ⟨ha, hk⟩ := hmem.1 (List.mem_of_getLast? ha)
    exact ⟨a, ha, hk, rfl⟩
  · rintro ⟨a, ha, rfl, rfl⟩
    obtain ⟨b, hb⟩ := Option.isSome_iff_exists.1
      (List.getLast?_isSome.2 (List.ne_nil_of_mem (hmem.2 ⟨ha, rfl⟩)))
    obtain ⟨hbl, hk⟩ := hmem.1 (List.mem_of_getLast? hb)
    exact ⟨b, hb, h b hbl a ha hk⟩

end FromList

/-! ### Other keys and other values -/

section MapEntries

variable {α' β' : Type} [Ord α'] [TransOrd α'] [LawfulEqOrd α'] {f : α → α'} {g : β → β'}

/-- The map with other keys and other values. -/
def mapEntries (f : α → α') (g : β → β') (m : ExtTreeMap α β) : ExtTreeMap α' β' :=
  m.toList.foldl (fun m' e => m'.insert (f e.1) (g e.2)) ∅

variable [DecidableEq α']

theorem getElem?_mapEntries_eq_some_iff (hf : f.Injective) {k' : α'} {v' : β'} :
    (mapEntries f g m)[k']? = some v' ↔ ∃ k v, m[k]? = some v ∧ f k = k' ∧ g v = v' := by
  refine (getElem?_foldl_insert_eq_some_iff fun e he e' he' hkey => ?_).trans ?_
  · rw [mem_toList_iff] at he he'
    rw [hf hkey, he'] at he
    exact congrArg g (Option.some.inj he).symm
  · simp only [mem_toList_iff, Prod.exists]

theorem getElem?_mapEntries (hf : f.Injective) (k : α) :
    (mapEntries f g m)[f k]? = m[k]?.map g := by
  refine Option.ext fun v' => ?_
  rw [getElem?_mapEntries_eq_some_iff hf, Option.map_eq_some_iff]
  constructor
  · rintro ⟨a, v, ha, hk, rfl⟩
    exact ⟨v, hf hk ▸ ha, rfl⟩
  · rintro ⟨v, hv, rfl⟩
    exact ⟨k, v, hv, rfl, rfl⟩

theorem mapEntries_insert [DecidableEq α] (hf : f.Injective) (k : α) (v : β) :
    mapEntries f g (m.insert k v) = (mapEntries f g m).insert (f k) (g v) := by
  refine ExtTreeMap.ext_getElem? fun {k'} => Option.ext fun v' => ?_
  rw [getElem?_insert, getElem?_mapEntries_eq_some_iff hf]
  by_cases hk : f k = k'
  · subst hk
    rw [if_pos rfl, Option.some.injEq]
    constructor
    · rintro ⟨a, w, ha, hak, rfl⟩
      rw [hf hak, getElem?_insert, if_pos rfl] at ha
      rw [Option.some.inj ha]
    · rintro rfl
      exact ⟨k, v, by rw [getElem?_insert, if_pos rfl], rfl, rfl⟩
  · rw [if_neg hk, getElem?_mapEntries_eq_some_iff hf]
    refine exists_congr fun a => exists_congr fun w => and_congr_left fun ⟨hak, _⟩ => ?_
    rw [getElem?_insert, if_neg]
    rintro rfl
    exact hk hak

/-- The entries are those of the map, each with its new key and its new value. -/
theorem perm_toList_mapEntries (hf : f.Injective) :
    (mapEntries f g m).toList.Perm (m.toList.map (Prod.map f g)) := by
  have hnodup : (m.toList.map (Prod.map f g)).Nodup := by
    refine List.Nodup.of_map Prod.fst ?_
    rw [List.map_map, show Prod.fst ∘ Prod.map f g = f ∘ Prod.fst from rfl, ← List.map_map,
      ExtTreeMap.map_fst_toList_eq_keys]
    exact ExtTreeMap.nodup_keys.map hf
  refine (List.perm_ext_iff_of_nodup (nodup_toList _) hnodup).2 fun e => ?_
  rw [mem_toList_iff, getElem?_mapEntries_eq_some_iff hf, List.mem_map]
  constructor
  · rintro ⟨k, v, hk, hf, hg⟩
    exact ⟨(k, v), mem_toList_iff.2 hk, Prod.ext hf hg⟩
  · rintro ⟨⟨k, v⟩, hk, rfl⟩
    exact ⟨k, v, mem_toList_iff.1 hk, rfl, rfl⟩

end MapEntries

end DelegatedVoting.Maps
