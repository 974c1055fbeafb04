import DelegatedVoting.Listing.Page
import DelegatedVoting.Proofs.Cursors

/-!
# Reading a listing page by page

A reader starts without a cursor and asks for every further page with the cursor of the page
before it, until a page has no cursor. The listing may grow at its end between two requests.

* `Visit`, `walk`: the listing as one request finds it, and the pages of one request after
  another;
* `Stands`: the cursor of a reader who has read the first so many items;
* `Page.take_of_stands`, `take_of_size_lt`, `take_of_le_size`: the page of such a reader, and
  where the reader stands after it;
* `Reads`, `walk_reads`: what a reader gets from a number of requests;
* `walk_complete`: the pages are full, and together they are the listing, each item once.
-/

namespace DelegatedVoting.Listing

variable {α : Type} {sequence : α → UInt64} {items : List α}

/-- One request of a reader: the listing as the request finds it, and the number of items that it
asks for. -/
structure Visit (α : Type) where
  items : List α
  count : Option UInt32

namespace Visit

/-- The request for the page at a cursor. -/
def request (v : Visit α) (cursor : Option String) : PageRequest := ⟨cursor, v.count⟩

/-- The number of items that the page may hold: 100 unless the request asks for another number, and
between 1 and 1000 in any case. -/
def size (v : Visit α) : Nat :=
  match v.count with
  | none => 100
  | some n => max 1 (min 1000 n.toNat)

/-- The sequence numbers of the listing. -/
def numbers (v : Visit α) (sequence : α → UInt64) : List UInt64 := v.items.map sequence

theorem size_pos (v : Visit α) : 0 < v.size := by
  unfold size
  split <;> omega

/-- The page of a request has room for so many items, whatever its cursor. -/
theorem size_request (v : Visit α) (cursor : Option String) : (v.request cursor).size = v.size := by
  obtain ⟨items, count⟩ := v
  cases count <;> rfl

end Visit

/-- The pages of at most `n` requests, the first of them at the cursor: every further one asks for
the page after the one before it, and a page without a cursor is the last. -/
def walk (sequence : α → UInt64) :
    (ℕ → Visit α) → ℕ → Option String → Except MalformedCursor (List (Page α))
  | _, 0, _ => pure []
  | visits, n + 1, cursor => do
    let page ← Page.take (visits 0).items sequence ((visits 0).request cursor)
    match page.next with
    | none => pure [page]
    | some cursor =>
      let pages ← walk sequence (fun i => visits (i + 1)) n (some cursor)
      pure (page :: pages)

/-! ### The cursor of a reader -/

/-- The cursor of a reader who has read the first `k` items of a listing with these sequence
numbers: none at the start, else the number of the item after them. -/
inductive Stands (numbers : List UInt64) : Option String → ℕ → Prop
  | first : Stands numbers none 0
  | next {k : ℕ} (h : k < numbers.length) :
      Stands numbers (some (Cursor.encode numbers[k])) k

/-- A listing that grows at its end leaves the reader where it was. -/
theorem Stands.of_isPrefix {cursor : Option String} {k : ℕ} {numbers longer : List UInt64}
    (h : Stands numbers cursor k) (hextends : numbers <+: longer) : Stands longer cursor k := by
  cases h with
  | first => exact .first
  | next hk =>
    rw [hextends.getElem hk]
    exact .next (hk.trans_le hextends.length_le)

/-- The page starts at a number that is above the items read and not above any other. -/
theorem Stands.start {cursor : Option String} {k : ℕ} {numbers : List UInt64}
    (h : Stands numbers cursor k) (hsorted : numbers.Pairwise (· < ·)) (count : Option UInt32) :
    ∃ start, (PageRequest.mk cursor count).start = .ok start ∧
      (∀ number ∈ numbers.take k, number < start) ∧ ∀ number ∈ numbers.drop k, start ≤ number := by
  cases h with
  | first => exact ⟨0, rfl, List.forall_mem_nil _, fun number _ => UInt64.zero_le⟩
  | next hk =>
    refine ⟨numbers[k], ?_, ?_, ?_⟩
    · simp only [PageRequest.start, Cursor.isEmpty_encode, Cursor.decode?_encode,
        Bool.false_eq_true, if_false]
    · intro number hmem
      obtain ⟨i, hi, rfl⟩ := List.mem_take_iff_getElem.1 hmem
      exact List.pairwise_iff_getElem.1 hsorted i k (by omega) hk (by omega)
    · intro number hmem
      obtain ⟨i, hi, rfl⟩ := List.mem_drop_iff_getElem.1 hmem
      rcases Nat.eq_zero_or_pos i with rfl | hpos
      · exact UInt64.le_refl _
      · exact UInt64.le_of_lt
          (List.pairwise_iff_getElem.1 hsorted k (k + i) hk (by omega) (by omega))

/-! ### The page of a reader -/

/-- The items below a number are dropped up to the place where the others start. -/
theorem dropWhile_lt_eq_drop {start : UInt64} {k : ℕ}
    (hbelow : ∀ item ∈ items.take k, sequence item < start)
    (habove : ∀ item ∈ items.drop k, start ≤ sequence item) :
    (items.dropWhile fun item => sequence item < start) = items.drop k := by
  have hread : (items.take k).dropWhile (fun item => decide (sequence item < start)) = [] :=
    List.dropWhile_eq_nil_iff.2 fun item hmem => decide_eq_true (hbelow item hmem)
  have hrest : (items.drop k).dropWhile (fun item => decide (sequence item < start)) =
      items.drop k := by
    cases hdrop : items.drop k with
    | nil => rfl
    | cons item rest =>
      have hitem := habove item (hdrop ▸ List.mem_cons_self)
      exact List.dropWhile_cons_of_neg (by simpa using hitem)
  calc (items.dropWhile fun item => decide (sequence item < start))
      = (items.take k ++ items.drop k).dropWhile
          (fun item => decide (sequence item < start)) := by rw [List.take_append_drop]
    _ = items.drop k := by rw [List.dropWhile_append, hread, hrest]; rfl

/-- **The page of a reader starts after the items read.** -/
theorem Page.take_of_stands {v : Visit α} {cursor : Option String} {k : ℕ}
    (hsorted : (v.numbers sequence).Pairwise (· < ·)) (h : Stands (v.numbers sequence) cursor k) :
    Page.take v.items sequence (v.request cursor) =
      .ok ⟨(v.items.drop k).take v.size,
        (v.items.drop (k + v.size)).head?.map fun item => Cursor.encode (sequence item)⟩ := by
  obtain ⟨start, hstart, hbelow, habove⟩ := h.start hsorted v.count
  have hdrop : (v.items.dropWhile fun item => sequence item < start) = v.items.drop k := by
    refine dropWhile_lt_eq_drop (fun item hmem => hbelow _ ?_) fun item hmem => habove _ ?_
    · rw [Visit.numbers, ← List.map_take]
      exact List.mem_map_of_mem hmem
    · rw [Visit.numbers, ← List.map_drop]
      exact List.mem_map_of_mem hmem
  have hsize := v.size_request cursor
  rw [Visit.request] at hsize
  rw [Page.take, Visit.request, hstart]
  simp only [bind, Except.bind, pure, Except.pure, hdrop, List.drop_drop, hsize]

/-- A page with items after it is full, and its cursor is that of a reader who has read it. -/
theorem take_of_size_lt {v : Visit α} {cursor : Option String} {k : ℕ}
    (hsorted : (v.numbers sequence).Pairwise (· < ·)) (h : Stands (v.numbers sequence) cursor k)
    (hlt : k + v.size < v.items.length) :
    ∃ page next, Page.take v.items sequence (v.request cursor) = .ok page ∧
      page.next = some next ∧ page.items = (v.items.drop k).take v.size ∧
      page.items.length = v.size ∧ Stands (v.numbers sequence) (some next) (k + v.size) := by
  have hnumbers : k + v.size < (v.numbers sequence).length := by
    rw [Visit.numbers, List.length_map]
    exact hlt
  refine ⟨_, _, Page.take_of_stands hsorted h, ?_, rfl, ?_, .next hnumbers⟩
  · rw [List.head?_drop, List.getElem?_eq_getElem hlt]
    simp only [Option.map_some, Visit.numbers, List.getElem_map]
  · simp only [List.length_take, List.length_drop]
    omega

/-- A page with no item after it has no cursor and holds all that was left. -/
theorem take_of_le_size {v : Visit α} {cursor : Option String} {k : ℕ}
    (hsorted : (v.numbers sequence).Pairwise (· < ·)) (h : Stands (v.numbers sequence) cursor k)
    (hle : v.items.length ≤ k + v.size) :
    Page.take v.items sequence (v.request cursor) = .ok ⟨v.items.drop k, none⟩ := by
  rw [Page.take_of_stands hsorted h, List.drop_eq_nil_of_le hle,
    List.take_of_length_le (by rw [List.length_drop]; omega)]
  rfl

/-! ### The pages of a reader -/

/-- What a reader who has read the first `k` items gets from `n` more requests. -/
structure Reads (sequence : α → UInt64) (visits : ℕ → Visit α) (k n : ℕ)
    (pages : List (Page α)) : Prop where
  size_le : ∀ (i : ℕ) (h : i < pages.length), pages[i].items.length ≤ (visits i).size
  full : ∀ (i : ℕ) (h : i < pages.length), pages[i].next ≠ none →
    pages[i].items.length = (visits i).size
  last : ∀ (i : ℕ) (h : i < pages.length), pages[i].next = none →
    i + 1 = pages.length ∧
      (pages.flatMap Page.items).map sequence = ((visits i).numbers sequence).drop k
  length_eq : (∀ page ∈ pages, page.next ≠ none) → pages.length = n
  /-- A reader who is not done has read an item with every page, and not all of them. -/
  lt_length : (∀ page ∈ pages, page.next ≠ none) → ∀ m, n = m + 1 →
    k + n < ((visits m).numbers sequence).length

/-- A reader who asks for nothing gets nothing. -/
theorem Reads.nil {visits : ℕ → Visit α} {k : ℕ} : Reads sequence visits k 0 [] where
  size_le _ h := nomatch h
  full _ h := nomatch h
  last _ h := nomatch h
  length_eq _ := rfl
  lt_length _ _ h := nomatch h

/-- A page that holds all that was left ends the reading. -/
theorem Reads.singleton {visits : ℕ → Visit α} {k n : ℕ}
    (hle : (visits 0).items.length ≤ k + (visits 0).size) :
    Reads sequence visits k (n + 1) [⟨(visits 0).items.drop k, none⟩] where
  size_le i h := by
    obtain rfl : i = 0 := by simpa using h
    simp only [List.getElem_cons_zero, List.length_drop]
    omega
  full i h hnext := by
    obtain rfl : i = 0 := by simpa using h
    exact absurd rfl hnext
  last i h _ := by
    obtain rfl : i = 0 := by simpa using h
    refine ⟨rfl, ?_⟩
    simp only [List.flatMap_cons, List.flatMap_nil, List.append_nil, Visit.numbers, List.map_drop]
  length_eq h := absurd rfl (h _ List.mem_cons_self)
  lt_length h := absurd rfl (h _ List.mem_cons_self)

/-- A full page, and the pages of a reader who has read it as well. -/
theorem Reads.cons {visits : ℕ → Visit α} {k n : ℕ} {page : Page α} {pages : List (Page α)}
    (hgrows : ∀ i, (visits 0).numbers sequence <+: (visits i).numbers sequence)
    (hlt : k + (visits 0).size < (visits 0).items.length) (hnext : page.next ≠ none)
    (hitems : page.items = ((visits 0).items.drop k).take (visits 0).size)
    (hlength : page.items.length = (visits 0).size)
    (h : Reads sequence (fun i => visits (i + 1)) (k + (visits 0).size) n pages) :
    Reads sequence visits k (n + 1) (page :: pages) where
  size_le
    | 0, _ => hlength.le
    | i + 1, hi => h.size_le i (by simpa using hi)
  full
    | 0, _ => fun _ => hlength
    | i + 1, hi => h.full i (by simpa using hi)
  last
    | 0, _ => fun hnone => absurd hnone hnext
    | i + 1, hi => by
      intro hnone
      obtain ⟨hlast, hpages⟩ := h.last i (by simpa using hi) hnone
      refine ⟨by rw [List.length_cons, hlast], ?_⟩
      -- The page is what the later listing, too, has at this place.
      have hpage : page.items.map sequence =
          (((visits (i + 1)).numbers sequence).drop k).take (visits 0).size := by
        obtain ⟨added, hadded⟩ := hgrows (i + 1)
        have hk : k + (visits 0).size ≤ ((visits 0).numbers sequence).length := by
          rw [Visit.numbers, List.length_map]
          exact hlt.le
        rw [← hadded, List.drop_append_of_le_length (by omega),
          List.take_append_of_le_length (by rw [List.length_drop]; omega), hitems, List.map_take,
          List.map_drop, Visit.numbers]
      rw [List.flatMap_cons, List.map_append, hpages, hpage, ← List.drop_drop,
        List.take_append_drop]
  length_eq hall := by
    rw [List.length_cons, h.length_eq fun page hmem => hall page (List.mem_cons_of_mem _ hmem)]
  lt_length hall m hm := by
    have hpos := (visits 0).size_pos
    obtain rfl : n = m := by omega
    cases n with
    | zero =>
      rw [Visit.numbers, List.length_map]
      omega
    | succ n =>
      have hrest := h.lt_length (fun page hmem => hall page (List.mem_cons_of_mem _ hmem)) n rfl
      omega

/-- **Every request of a reader is answered, and the pages are those of the listing.** -/
theorem walk_reads {visits : ℕ → Visit α} {cursor : Option String} {k : ℕ} (n : ℕ)
    (hsorted : ∀ i, ((visits i).numbers sequence).Pairwise (· < ·))
    (hgrows : ∀ i, (visits i).numbers sequence <+: (visits (i + 1)).numbers sequence)
    (h : Stands ((visits 0).numbers sequence) cursor k) :
    ∃ pages, walk sequence visits n cursor = .ok pages ∧ Reads sequence visits k n pages := by
  induction n generalizing visits cursor k with
  | zero => exact ⟨[], rfl, .nil⟩
  | succ n ih =>
    rcases Nat.lt_or_ge (k + (visits 0).size) (visits 0).items.length with hlt | hle
    · obtain ⟨page, next, htake, hnext, hitems, hlength, hstands⟩ :=
        take_of_size_lt (hsorted 0) h hlt
      obtain ⟨pages, hpages, hreads⟩ := @ih (fun i => visits (i + 1)) (some next)
        (k + (visits 0).size) (fun i => hsorted (i + 1)) (fun i => hgrows (i + 1))
        (hstands.of_isPrefix (hgrows 0))
      have hextends (i : ℕ) : (visits 0).numbers sequence <+: (visits i).numbers sequence := by
        induction i with
        | zero => exact List.prefix_rfl
        | succ i ih => exact ih.trans (hgrows i)
      refine ⟨page :: pages, ?_, .cons hextends hlt (by simp [hnext]) hitems hlength hreads⟩
      simp only [walk, htake, hnext, hpages, bind, Except.bind, pure, Except.pure]
    · refine ⟨_, ?_, .singleton hle⟩
      simp only [walk, take_of_le_size (hsorted 0) h hle, bind, Except.bind, pure, Except.pure]

/-- **Reading page by page is complete and repeats nothing.** The listings that the requests find
are in ascending order of their sequence numbers, and each extends the one before it at its end.
Then every request is answered, every page holds at most as many items as its request may have,
and every page that another one follows is full. A page without a cursor ends the reading, and the
pages together are the listing that the request for it found. A reader who is not done has a page
for every request, and once the listing does not grow any more the reading ends. -/
theorem walk_complete (sequence : α → UInt64) (visits : ℕ → Visit α)
    (hsorted : ∀ i, ((visits i).numbers sequence).Pairwise (· < ·))
    (hgrows : ∀ i, (visits i).numbers sequence <+: (visits (i + 1)).numbers sequence) :
    (∀ n, ∃ pages, walk sequence visits n none = .ok pages ∧
      (∀ (i : ℕ) (h : i < pages.length),
        pages[i].items.length ≤ (visits i).size ∧
        (i + 1 < pages.length → pages[i].items.length = (visits i).size) ∧
        (pages[i].next = none → i + 1 = pages.length ∧
          (pages.flatMap Page.items).map sequence = (visits i).numbers sequence)) ∧
      ((∀ page ∈ pages, page.next ≠ none) → pages.length = n)) ∧
    ((∃ N, ∀ i, N ≤ i → (visits i).numbers sequence = (visits N).numbers sequence) →
      ∃ n pages, walk sequence visits n none = .ok pages ∧ ∃ page ∈ pages, page.next = none) := by
  constructor
  · intro n
    obtain ⟨pages, hpages, hreads⟩ := walk_reads n hsorted hgrows .first
    refine ⟨pages, hpages, fun i h => ⟨hreads.size_le i h, fun hlt => ?_, hreads.last i h⟩,
      hreads.length_eq⟩
    exact hreads.full i h fun hnone => by
      have := (hreads.last i h hnone).1
      omega
  · rintro ⟨N, hN⟩
    -- So many requests that a reader who is not done would have read more than there is.
    obtain ⟨pages, hpages, hreads⟩ :=
      walk_reads (N + ((visits N).numbers sequence).length + 1) hsorted hgrows .first
    refine ⟨_, pages, hpages, ?_⟩
    by_contra hnone
    push Not at hnone
    have hlt := hreads.lt_length hnone _ rfl
    rw [hN (N + ((visits N).numbers sequence).length) (Nat.le_add_right _ _)] at hlt
    omega

/-- A listing with gaps in its numbers grows from 600 to 1102 items after the first request. Its
pages are asked for with a count of zero, with a count above the bound, and without a count. -/
theorem walk_complete_of_growing_listing :
    let listing (n : ℕ) : List UInt64 := (List.range n).map fun i => UInt64.ofNat (2 * i)
    let length (i : ℕ) : ℕ := if i = 0 then 600 else 1102
    let count (i : ℕ) : Option UInt32 := if i = 0 then some 0 else if i = 1 then some 5000 else none
    let visits (i : ℕ) : Visit UInt64 := ⟨listing (length i), count i⟩
    ((∀ i, ((visits i).numbers id).Pairwise (· < ·)) ∧
        ∀ i, (visits i).numbers id <+: (visits (i + 1)).numbers id) ∧
      ∃ pages, walk id visits 9 none = .ok pages ∧
        pages.map (·.items.length) = [1, 1000, 100, 1] ∧
        (pages.flatMap Page.items).map id = (visits 3).numbers id := by
  intro listing length count visits
  have hnumbers (i : ℕ) : (visits i).numbers id = listing (length i) := List.map_id _
  have hsorted (i : ℕ) : ((visits i).numbers id).Pairwise (· < ·) := by
    have hle : length i ≤ 1102 := by
      simp only [length]
      split <;> omega
    rw [hnumbers, List.pairwise_map]
    refine (List.pairwise_lt_range (n := length i)).imp_of_mem fun {j k} hj hk hlt => ?_
    rw [List.mem_range] at hj hk
    rw [UInt64.lt_iff_toNat_lt, UInt64.toNat_ofNat_of_lt' (by show _ < 2 ^ 64; omega),
      UInt64.toNat_ofNat_of_lt' (by show _ < 2 ^ 64; omega)]
    omega
  have hgrows (i : ℕ) : (visits i).numbers id <+: (visits (i + 1)).numbers id := by
    have hle : length i ≤ length (i + 1) := by
      simp only [length, Nat.succ_ne_zero, if_false]
      split <;> omega
    obtain ⟨k, hk⟩ := Nat.exists_eq_add_of_le hle
    have hrange : List.range (length i) <+: List.range (length (i + 1)) :=
      hk ▸ ⟨_, List.range_add.symm⟩
    rw [hnumbers, hnumbers]
    exact hrange.map _
  refine ⟨⟨hsorted, hgrows⟩, ?_⟩
  obtain ⟨pages, hpages, hall, -⟩ := (walk_complete id visits hsorted hgrows).1 9
  have hwalk : (walk id visits 9 none).map (·.map fun page => (page.items.length, page.next)) =
      .ok [(1, some (Cursor.encode 2)), (1000, some (Cursor.encode 2002)),
        (100, some (Cursor.encode 2202)), (1, none)] := by
    decide +kernel
  rw [hpages] at hwalk
  replace hwalk : pages.map (fun page => (page.items.length, page.next)) = _ :=
    Except.ok.inj hwalk
  have hlength : pages.length = 4 := by simpa using congrArg List.length hwalk
  have hlast : pages[3].next = none := by
    have := congrArg (fun l => l[3]?.map Prod.snd) hwalk
    simpa [hlength] using this
  refine ⟨pages, hpages, ?_, ((hall 3 (by omega)).2.2 hlast).2⟩
  simpa [Function.comp_def] using congrArg (List.map Prod.fst) hwalk

end DelegatedVoting.Listing
