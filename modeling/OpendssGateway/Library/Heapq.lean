import Mathlib.Data.List.Perm.Basic
import Mathlib.Data.List.Nodup
import Mathlib.Data.List.Sort
import Mathlib.Order.WithBot
import Mathlib.Tactic.Linarith

/-!
# Binary heaps on lists

The five functions of Python's `heapq` that a priority queue needs, on a
list that holds the heap in level order, and the facts that the
documentation of the module promises.

* `heappush` and `heappop` are `append` plus `siftdown` and `pop` plus
  `siftup`, with the loops of the reference implementation.  An entry
  moves by exchanges; the reference implementation moves a hole, and the
  lists that the two leave behind are the same.
* `keyAt` reads the key at an index and answers `⊤` past the end, so the
  heap property has no bounds in it.
* `siftdownAux_heapFrom` and `siftup_heapFrom` are the two inductions.
  `HoleInv` is the invariant that both loops keep.
* `heappop_spec`, `isHeap_heappush` and `isHeap_heapify` are what a
  caller uses: the pop answers a least entry and leaves the rest, and
  every function leaves a heap.

The order is a `key` into a linear order, so two entries with one key are
not told apart.  With distinct keys `sortByKey` is the only list in key
order, and `sortByKey_filter_of_heappop` says that the pops of a heap
come out in that order.
-/

namespace Heapq

variable {α κ : Type*}

/-! ## Exchanges and keys by index -/

/-- Exchange two entries. -/
def swap (h : List α) (i j : Nat) : List α :=
  match h[i]?, h[j]? with
  | some a, some b => (h.set i b).set j a
  | _, _ => h

@[simp] theorem swap_length (h : List α) (i j : Nat) : (swap h i j).length = h.length := by
  unfold swap
  split <;> simp

theorem swap_of_lt {h : List α} {i j : Nat} (hi : i < h.length) (hj : j < h.length) :
    swap h i j = (h.set i h[j]).set j h[i] := by
  simp [swap, List.getElem?_eq_getElem hi, List.getElem?_eq_getElem hj]

theorem swap_perm (h : List α) (i j : Nat) : (swap h i j).Perm h := by
  unfold swap
  split
  · rename_i a b ha hb
    obtain ⟨hi, rfl⟩ := List.getElem?_eq_some_iff.1 ha
    obtain ⟨hj, rfl⟩ := List.getElem?_eq_some_iff.1 hb
    exact List.set_set_perm hi hj
  · exact List.Perm.refl h

/-- The key at an index, `⊤` past the end. -/
def keyAt (key : α → κ) (h : List α) (i : Nat) : WithTop κ :=
  (h[i]?.map fun a => (key a : WithTop κ)).getD ⊤

section KeyAt

variable {key : α → κ}

theorem keyAt_of_le {h : List α} {i : Nat} (hi : h.length ≤ i) : keyAt key h i = ⊤ := by
  rw [keyAt, List.getElem?_eq_none hi]
  rfl

theorem keyAt_of_getElem? {h : List α} {i : Nat} {a : α} (ha : h[i]? = some a) :
    keyAt key h i = key a := by
  rw [keyAt, ha]
  rfl

theorem keyAt_append_left {h t : List α} {i : Nat} (hi : i < h.length) :
    keyAt key (h ++ t) i = keyAt key h i := by
  rw [keyAt, keyAt, List.getElem?_append_left hi]

theorem keyAt_swap {h : List α} {i j : Nat} (hi : i < h.length) (hj : j < h.length) (m : Nat) :
    keyAt key (swap h i j) m =
      if m = j then keyAt key h i else if m = i then keyAt key h j else keyAt key h m := by
  rw [swap_of_lt hi hj]
  unfold keyAt
  split_ifs with h1 h2
  · subst h1
    simp [hj, List.getElem?_eq_getElem hi]
  · subst h2
    rw [List.getElem?_set_ne (Ne.symm h1), List.getElem?_set_self hi,
      List.getElem?_eq_getElem hj]
  · rw [List.getElem?_set_ne (Ne.symm h1), List.getElem?_set_ne (Ne.symm h2)]

end KeyAt

variable [LinearOrder κ] (key : α → κ)

/-! ## The functions -/

/-- `heap[i] < heap[j]`, false when an index is past the end. -/
def before (h : List α) (i j : Nat) : Bool :=
  match h[i]?, h[j]? with
  | some a, some b => decide (key a < key b)
  | _, _ => false

theorem before_iff {key : α → κ} {h : List α} {i j : Nat} (hi : i < h.length)
    (hj : j < h.length) : before key h i j = true ↔ keyAt key h i < keyAt key h j := by
  simp [before, keyAt, List.getElem?_eq_getElem hi, List.getElem?_eq_getElem hj]

def siftdownAux (startpos : Nat) : Nat → List α → Nat → List α
  | 0, h, _ => h
  | fuel + 1, h, pos =>
    if startpos < pos ∧ before key h pos ((pos - 1) / 2) then
      siftdownAux startpos fuel (swap h pos ((pos - 1) / 2)) ((pos - 1) / 2)
    else h

/-- `_siftdown(heap, startpos, pos)`: follow the path to the root, moving
parents down until the entry of `pos` fits.  The position falls at every
step, so `pos` steps are enough. -/
def siftdown (h : List α) (startpos pos : Nat) : List α :=
  siftdownAux key startpos pos h pos

/-- The smaller child of `pos`, the right one on a tie. -/
def smallerChild (h : List α) (pos : Nat) : Nat :=
  if 2 * pos + 2 < h.length ∧ ¬ before key h (2 * pos + 1) (2 * pos + 2) then
    2 * pos + 2
  else 2 * pos + 1

/-- Bubble the smaller child up until the entry of `pos` is at a leaf. -/
def sinkAux : Nat → List α → Nat → List α × Nat
  | 0, h, pos => (h, pos)
  | fuel + 1, h, pos =>
    if 2 * pos + 1 < h.length then
      sinkAux fuel (swap h pos (smallerChild key h pos)) (smallerChild key h pos)
    else (h, pos)

/-- `_siftup(heap, pos)`: sink the entry of `pos` to a leaf, then bubble it
up to its place. -/
def siftup (h : List α) (pos : Nat) : List α :=
  siftdown key (sinkAux key h.length h pos).1 pos (sinkAux key h.length h pos).2

/-- `heappush(heap, item)`. -/
def heappush (h : List α) (item : α) : List α :=
  siftdown key (h ++ [item]) 0 h.length

/-- `heappop(heap)`: the answer and the heap it leaves, `none` on the empty
heap.  The last entry takes the root's place and is sifted. -/
def heappop : List α → Option (α × List α)
  | [] => none
  | [x] => some (x, [])
  | x :: y :: t => some (x, siftup key ((y :: t).getLast (by simp) :: (y :: t).dropLast) 0)

/-- `heapify(x)`: sift every inner node, the last one first. -/
def heapify (h : List α) : List α :=
  (List.range (h.length / 2)).reverse.foldl (fun acc i => siftup key acc i) h

/-! ## The entries are kept -/

theorem siftdownAux_perm (startpos : Nat) :
    ∀ (fuel : Nat) (h : List α) (pos : Nat), (siftdownAux key startpos fuel h pos).Perm h := by
  intro fuel
  induction fuel with
  | zero =>
    intro h pos
    exact List.Perm.refl h
  | succ fuel ih =>
    intro h pos
    rw [siftdownAux]
    split
    · exact (ih _ _).trans (swap_perm h _ _)
    · exact List.Perm.refl h

theorem sinkAux_perm :
    ∀ (fuel : Nat) (h : List α) (pos : Nat), (sinkAux key fuel h pos).1.Perm h := by
  intro fuel
  induction fuel with
  | zero =>
    intro h pos
    exact List.Perm.refl h
  | succ fuel ih =>
    intro h pos
    rw [sinkAux]
    split
    · exact (ih _ _).trans (swap_perm h _ _)
    · exact List.Perm.refl h

theorem siftup_perm (h : List α) (pos : Nat) : (siftup key h pos).Perm h :=
  (siftdownAux_perm key pos _ _ _).trans (sinkAux_perm key _ h pos)

/-- A push adds its item. -/
theorem heappush_perm (h : List α) (item : α) : (heappush key h item).Perm (item :: h) :=
  (siftdownAux_perm key 0 _ _ _).trans (List.perm_append_singleton item h)

/-- A pop answers one entry and keeps the rest. -/
theorem heappop_perm {h rest : List α} {x : α} (hp : heappop key h = some (x, rest)) :
    h.Perm (x :: rest) := by
  match h, hp with
  | [a], hp =>
    simp only [heappop, Option.some.injEq, Prod.mk.injEq] at hp
    obtain ⟨rfl, rfl⟩ := hp
    exact List.Perm.refl _
  | a :: b :: t, hp =>
    simp only [heappop, Option.some.injEq, Prod.mk.injEq] at hp
    obtain ⟨rfl, rfl⟩ := hp
    refine List.Perm.cons _ (List.Perm.trans ?_ (siftup_perm key _ 0).symm)
    have hlast : (b :: t).dropLast ++ [(b :: t).getLast (by simp)] = b :: t :=
      List.dropLast_append_getLast (by simp)
    calc (b :: t).Perm ((b :: t).dropLast ++ [(b :: t).getLast (by simp)]) := by rw [hlast]
      _ |>.Perm _ := List.perm_append_singleton _ _

/-- The pop fails on the empty heap only. -/
theorem heappop_eq_none {h : List α} (hp : heappop key h = none) : h = [] := by
  match h, hp with
  | [], _ => rfl
  | [a], hp | a :: b :: t, hp => simp [heappop] at hp

theorem heapify_perm (h : List α) : (heapify key h).Perm h := by
  rw [heapify]
  generalize (List.range (h.length / 2)).reverse = steps
  induction steps generalizing h with
  | nil => exact List.Perm.refl h
  | cons i rest ih =>
    rw [List.foldl_cons]
    exact (ih _).trans (siftup_perm key h i)

/-! ## The heap invariant -/

/-- The heap property of the parents at or above `k`. -/
def IsHeapFrom (h : List α) (k : Nat) : Prop :=
  ∀ c, 0 < c → k ≤ (c - 1) / 2 → keyAt key h ((c - 1) / 2) ≤ keyAt key h c

/-- Every parent is at or below its children. -/
def IsHeap (h : List α) : Prop :=
  IsHeapFrom key h 0

/-- `c` is `k` or a descendant of `k`. -/
inductive Below (k : Nat) : Nat → Prop
  | root : Below k k
  | child {c : Nat} : 0 < c → Below k ((c - 1) / 2) → Below k c

theorem Below.le {k c : Nat} (h : Below k c) : k ≤ c := by
  induction h with
  | root => exact Nat.le_refl k
  | child hc _ ih => omega

/-- The parent of a strict descendant is a descendant. -/
theorem Below.parent {k c : Nat} (h : Below k c) (hlt : k < c) : Below k ((c - 1) / 2) := by
  cases h with
  | root => exact absurd hlt (Nat.lt_irrefl _)
  | child _ hp => exact hp

theorem below_zero (c : Nat) : Below 0 c := by
  induction c using Nat.strong_induction_on with
  | _ c ih =>
    rcases Nat.eq_zero_or_pos c with rfl | hc
    · exact Below.root
    · exact Below.child hc (ih _ (by omega))

/-- The invariant of both loops.  Every parent at or above `k` is at or
below its children, as far as the pair does not touch `pos`, and the
parent of `pos` is at or below the children of `pos`. -/
structure HoleInv (h : List α) (k pos : Nat) : Prop where
  lt : pos < h.length
  below : Below k pos
  apart : ∀ c, 0 < c → k ≤ (c - 1) / 2 → (c - 1) / 2 ≠ pos → c ≠ pos →
    keyAt key h ((c - 1) / 2) ≤ keyAt key h c
  grand : k < pos → ∀ c, 0 < c → (c - 1) / 2 = pos →
    keyAt key h ((pos - 1) / 2) ≤ keyAt key h c

variable {key}

/-- The exchange of `pos` with its parent `q` keeps the invariant when the
parent is the greater one. -/
theorem HoleInv.up {h : List α} {k pos : Nat} (inv : HoleInv key h k pos) (hk : k < pos) :
    HoleInv key (swap h pos ((pos - 1) / 2)) k ((pos - 1) / 2) := by
  have hq : (pos - 1) / 2 < h.length := by have := inv.lt; omega
  have hbelow := inv.below.parent hk
  refine ⟨by rw [swap_length]; exact hq, hbelow, ?_, ?_⟩
  · intro c hc hkc hpar hne
    simp only [keyAt_swap inv.lt hq, if_neg hpar, if_neg hne]
    by_cases hcp : c = pos
    · exact absurd (by rw [hcp]) hpar
    · rw [if_neg hcp]
      split
      · rename_i hpp
        exact inv.grand hk c hc hpp
      · rename_i hpp
        exact inv.apart c hc hkc hpp hcp
  · intro hkq c hc hpar
    have hkqq : k ≤ ((pos - 1) / 2 - 1) / 2 := (hbelow.parent hkq).le
    have htop : keyAt key h (((pos - 1) / 2 - 1) / 2) ≤ keyAt key h ((pos - 1) / 2) :=
      inv.apart _ (by omega) hkqq (by omega) (by omega)
    simp only [keyAt_swap inv.lt hq]
    rw [if_neg (by omega), if_neg (by omega), if_neg (by omega)]
    split
    · exact htop
    · rename_i hcp
      refine le_trans htop ?_
      have hapart := inv.apart c hc (by omega) (by omega) hcp
      rwa [hpar] at hapart

/-- Bubbling up repairs the heap from `k` up.  The entry of `pos` starts at
or below its own children, and every exchange keeps that. -/
theorem siftdownAux_heapFrom (k : Nat) :
    ∀ (fuel : Nat) (h : List α) (pos : Nat), pos ≤ fuel → HoleInv key h k pos →
      (∀ c, 0 < c → (c - 1) / 2 = pos → keyAt key h pos ≤ keyAt key h c) →
      IsHeapFrom key (siftdownAux key k fuel h pos) k := by
  intro fuel
  induction fuel with
  | zero =>
    intro h pos hfuel inv hchild c hc hkc
    rw [siftdownAux]
    by_cases hpar : (c - 1) / 2 = pos
    · rw [hpar]
      exact hchild c hc hpar
    · exact inv.apart c hc hkc hpar (by omega)
  | succ fuel ih =>
    intro h pos hfuel inv hchild
    have hq : (pos - 1) / 2 < h.length := by have := inv.lt; omega
    rw [siftdownAux]
    split
    · rename_i hstep
      obtain ⟨hk, hb⟩ := hstep
      rw [before_iff inv.lt hq] at hb
      refine ih _ _ (by omega) (inv.up hk) ?_
      intro c hc hpar
      simp only [keyAt_swap inv.lt hq, if_true]
      rw [if_neg (by omega)]
      split
      · exact le_of_lt hb
      · rename_i hcp
        refine le_trans (le_of_lt hb) ?_
        have hle := (inv.below.parent hk).le
        have hapart := inv.apart c hc (by omega) (by omega) hcp
        rwa [hpar] at hapart
    · rename_i hstop
      intro c hc hkc
      by_cases hpar : (c - 1) / 2 = pos
      · rw [hpar]
        exact hchild c hc hpar
      · by_cases hcp : c = pos
        · subst hcp
          rw [before_iff inv.lt hq] at hstop
          exact not_lt.1 fun hlt => hstop ⟨by omega, hlt⟩
        · exact inv.apart c hc hkc hpar hcp

/-! ## Sinking to a leaf -/

/-- The smaller child is a child of `pos` inside the list. -/
theorem smallerChild_spec (key : α → κ) {h : List α} {pos : Nat} (hlt : 2 * pos + 1 < h.length) :
    0 < smallerChild key h pos ∧ (smallerChild key h pos - 1) / 2 = pos ∧
      smallerChild key h pos < h.length := by
  rw [smallerChild]
  split <;> omega

/-- The smaller child is at or below every child of `pos`. -/
theorem smallerChild_le (key : α → κ) {h : List α} {pos : Nat}
    (hlt : 2 * pos + 1 < h.length) {c : Nat} (hc : 0 < c) (hpar : (c - 1) / 2 = pos) :
    keyAt key h (smallerChild key h pos) ≤ keyAt key h c := by
  have hcases : c = 2 * pos + 1 ∨ c = 2 * pos + 2 := by omega
  rw [smallerChild]
  split
  · rename_i hcond
    rcases hcases with rfl | rfl
    · exact not_lt.1 (mt (before_iff hlt hcond.1).2 hcond.2)
    · exact le_refl _
  · rename_i hcond
    rcases hcases with rfl | rfl
    · exact le_refl _
    · rcases Nat.lt_or_ge (2 * pos + 2) h.length with hr | hr
      · exact le_of_lt ((before_iff hlt hr).1 (not_not.1 fun hn => hcond ⟨hr, hn⟩))
      · rw [keyAt_of_le hr]
        exact le_top

/-- The exchange of `pos` with its smaller child keeps the invariant. -/
theorem HoleInv.down {h : List α} {k pos : Nat} (inv : HoleInv key h k pos)
    (hlt : 2 * pos + 1 < h.length) :
    HoleInv key (swap h pos (smallerChild key h pos)) k (smallerChild key h pos) := by
  obtain ⟨hm0, hmpar, hmlt⟩ := smallerChild_spec key hlt
  have hmin := fun c => smallerChild_le key hlt (c := c)
  generalize smallerChild key h pos = m at hm0 hmpar hmlt hmin
  have hkp := inv.below.le
  refine ⟨by rw [swap_length]; exact hmlt, Below.child hm0 (by rw [hmpar]; exact inv.below), ?_, ?_⟩
  · intro c hc hkc hpar hne
    simp only [keyAt_swap inv.lt hmlt, if_neg hpar, if_neg hne]
    by_cases hpp : (c - 1) / 2 = pos
    · rw [if_pos hpp, if_neg (by omega)]
      exact hmin c hc hpp
    · rw [if_neg hpp]
      split
      · rename_i hcp
        subst hcp
        exact inv.grand (by omega) m hm0 hmpar
      · rename_i hcp
        exact inv.apart c hc hkc hpp hcp
  · intro _ c hc hpar
    simp only [keyAt_swap inv.lt hmlt, hmpar]
    rw [if_neg (by omega), if_pos trivial, if_neg (by omega), if_neg (by omega)]
    have hapart := inv.apart c hc (by omega) (by omega) (by omega)
    rwa [hpar] at hapart

/-- The sink ends at a leaf and keeps the invariant. -/
theorem sinkAux_holeInv (k : Nat) :
    ∀ (fuel : Nat) (h : List α) (pos : Nat), h.length ≤ pos + fuel → HoleInv key h k pos →
      HoleInv key (sinkAux key fuel h pos).1 k (sinkAux key fuel h pos).2 ∧
        (sinkAux key fuel h pos).1.length ≤ 2 * (sinkAux key fuel h pos).2 + 1 := by
  intro fuel
  induction fuel with
  | zero =>
    intro h pos hfuel inv
    have := inv.lt
    omega
  | succ fuel ih =>
    intro h pos hfuel inv
    rw [sinkAux]
    split
    · rename_i hlt
      have hspec := smallerChild_spec key hlt
      exact ih _ _ (by rw [swap_length]; omega) (inv.down hlt)
    · rename_i hge
      exact ⟨inv, Nat.le_of_not_lt hge⟩

/-- The sift of `k` turns the heap above `k + 1` into the heap above `k`. -/
theorem siftup_heapFrom {h : List α} {k : Nat} (hk : k < h.length)
    (hh : IsHeapFrom key h (k + 1)) : IsHeapFrom key (siftup key h k) k := by
  have hstart : HoleInv key h k k := by
    refine ⟨hk, Below.root, ?_, ?_⟩
    · intro c hc hkc hpar _
      exact hh c hc (by omega)
    · intro hkk
      exact absurd hkk (Nat.lt_irrefl k)
  obtain ⟨inv, hleaf⟩ := sinkAux_holeInv k h.length h k (by omega) hstart
  refine siftdownAux_heapFrom k _ _ _ (Nat.le_refl _) inv ?_
  intro c hc hpar
  rw [keyAt_of_le (i := c) (by omega)]
  exact le_top

/-! ## What a caller uses -/

theorem isHeap_nil : IsHeap key ([] : List α) := by
  intro c _ _
  rw [keyAt_of_le (i := c) (Nat.zero_le _)]
  exact le_top

/-- A push keeps the heap. -/
theorem isHeap_heappush {h : List α} (hh : IsHeap key h) (item : α) :
    IsHeap key (heappush key h item) := by
  have hpast : ∀ c, h.length < c → keyAt key (h ++ [item]) c = ⊤ := fun c hc =>
    keyAt_of_le (by rw [List.length_append]; exact hc)
  refine siftdownAux_heapFrom 0 _ _ _ (Nat.le_refl _) ⟨by simp, below_zero _, ?_, ?_⟩ ?_
  · intro c hc _ _ hne
    rcases Nat.lt_or_ge c h.length with hlt | hge
    · rw [keyAt_append_left hlt, keyAt_append_left (by omega)]
      exact hh c hc (Nat.zero_le _)
    · rw [hpast c (by omega)]
      exact le_top
  · intro _ c hc hpar
    rw [hpast c (by omega)]
    exact le_top
  · intro c hc hpar
    rw [hpast c (by omega)]
    exact le_top

/-- The root of a heap has a least key. -/
theorem IsHeap.root_le {h : List α} (hh : IsHeap key h) (i : Nat) :
    keyAt key h 0 ≤ keyAt key h i := by
  induction i using Nat.strong_induction_on with
  | _ i ih =>
    rcases Nat.eq_zero_or_pos i with rfl | hi
    · exact le_refl _
    · exact le_trans (ih ((i - 1) / 2) (by omega)) (hh i hi (Nat.zero_le _))

theorem IsHeap.head_le {h : List α} {x : α} (hh : IsHeap key (x :: h)) :
    ∀ a ∈ x :: h, key x ≤ key a := by
  intro a ha
  obtain ⟨i, hi⟩ := List.mem_iff_getElem?.1 ha
  have hle := hh.root_le i
  rw [keyAt_of_getElem? hi, keyAt_of_getElem? (a := x) (by rfl)] at hle
  exact WithTop.coe_le_coe.1 hle

/-- The documented behaviour of `heappop` on a heap: it answers a least
entry, keeps the others, and leaves a heap. -/
theorem heappop_spec {h rest : List α} {x : α} (hh : IsHeap key h)
    (hp : heappop key h = some (x, rest)) :
    h.Perm (x :: rest) ∧ (∀ a ∈ h, key x ≤ key a) ∧ IsHeap key rest := by
  refine ⟨heappop_perm key hp, ?_, ?_⟩
  · match h, hp with
    | [a], hp | a :: b :: t, hp =>
      simp only [heappop, Option.some.injEq, Prod.mk.injEq] at hp
      obtain ⟨rfl, _⟩ := hp
      exact hh.head_le
  · match h, hp with
    | [a], hp =>
      simp only [heappop, Option.some.injEq, Prod.mk.injEq] at hp
      rw [← hp.2]
      exact isHeap_nil
    | a :: b :: t, hp =>
      simp only [heappop, Option.some.injEq, Prod.mk.injEq] at hp
      rw [← hp.2]
      refine siftup_heapFrom (by simp) ?_
      -- off the root the shortened list has the keys of the heap
      have hkeys : ∀ i, 0 < i → i < (b :: t).length →
          keyAt key ((b :: t).getLast (by simp) :: (b :: t).dropLast) i
            = keyAt key (a :: b :: t) i := by
        intro i hi hlt
        obtain ⟨j, rfl⟩ := Nat.exists_eq_succ_of_ne_zero (Nat.pos_iff_ne_zero.1 hi)
        have hj : j < (b :: t).length - 1 := by omega
        simp only [keyAt, List.getElem?_cons_succ, List.getElem?_dropLast, if_pos hj]
      intro c hc hkc
      rcases Nat.lt_or_ge c (b :: t).length with hlt | hge
      · rw [hkeys c hc hlt, hkeys _ (by omega) (by omega)]
        exact hh c hc (Nat.zero_le _)
      · rw [keyAt_of_le (i := c) (by simp at hge ⊢; omega)]
        exact le_top

private theorem heapify_heapFrom_aux (n : Nat) :
    ∀ (m : Nat) (h : List α), h.length = n → m ≤ n / 2 → IsHeapFrom key h m →
      IsHeapFrom key ((List.range m).reverse.foldl (fun acc i => siftup key acc i) h) 0 := by
  intro m
  induction m with
  | zero =>
    intro h _ _ hh
    exact hh
  | succ m ih =>
    intro h hlen hm hh
    rw [List.range_succ, List.reverse_append, List.reverse_singleton, List.singleton_append,
      List.foldl_cons]
    refine ih _ ?_ (by omega) (siftup_heapFrom (by omega) hh)
    rw [(siftup_perm key h m).length_eq, hlen]

/-- `heapify` makes a heap of any list. -/
theorem isHeap_heapify (h : List α) : IsHeap key (heapify key h) := by
  refine heapify_heapFrom_aux h.length (h.length / 2) h rfl (Nat.le_refl _) ?_
  intro c _ hkc
  rw [keyAt_of_le (i := c) (by omega)]
  exact le_top

/-! ## Key order -/

section KeyOrder

variable (key)

/-- The entries in key order, equal keys in their order in the list. -/
def sortByKey (l : List α) : List α :=
  l.insertionSort (fun a b => key a ≤ key b)

theorem sortByKey_perm (l : List α) : (sortByKey key l).Perm l :=
  List.perm_insertionSort _ l

variable {key}

theorem sortByKey_pairwise (l : List α) :
    (sortByKey key l).Pairwise (fun a b => key a ≤ key b) := by
  have : Std.Total (fun a b => key a ≤ key b) := ⟨fun a b => le_total _ _⟩
  have : IsTrans α (fun a b => key a ≤ key b) := ⟨fun a b c => le_trans⟩
  exact List.pairwise_insertionSort _ l

/-- Distinct keys leave one list in key order. -/
theorem eq_of_perm_of_keyOrder {l l' : List α} (hp : l.Perm l') (hn : (l.map key).Nodup)
    (hl : l.Pairwise (fun a b => key a ≤ key b))
    (hl' : l'.Pairwise (fun a b => key a ≤ key b)) : l = l' := by
  refine List.Perm.eq_of_pairwise ?_ hl hl' hp
  intro a b ha hb hab hba
  exact List.inj_on_of_nodup_map hn ha (hp.mem_iff.2 hb) (le_antisymm hab hba)

theorem sortByKey_congr {l l' : List α} (hp : l.Perm l') (hn : (l.map key).Nodup) :
    sortByKey key l = sortByKey key l' := by
  refine eq_of_perm_of_keyOrder ?_ ?_ (sortByKey_pairwise l) (sortByKey_pairwise l')
  · exact ((sortByKey_perm key l).trans hp).trans (sortByKey_perm key l').symm
  · exact ((sortByKey_perm key l).map key).nodup_iff.2 hn

theorem sortByKey_cons {a : α} {l : List α} (h : ∀ b ∈ l, key a ≤ key b) :
    sortByKey key (a :: l) = a :: sortByKey key l :=
  List.insertionSort_cons_of_forall_rel _ h

/-- What a pop answers comes first in key order, also among the entries
that satisfy `p`. -/
theorem sortByKey_filter_of_heappop {h rest : List α} {x : α} (hh : IsHeap key h)
    (hp : heappop key h = some (x, rest)) (hn : (h.map key).Nodup) (p : α → Bool) :
    sortByKey key (h.filter p) =
      if p x then x :: sortByKey key (rest.filter p) else sortByKey key (rest.filter p) := by
  obtain ⟨hperm, hmin, _⟩ := heappop_spec hh hp
  have hnodup : ((h.filter p).map key).Nodup :=
    hn.sublist (List.filter_sublist.map key)
  rw [sortByKey_congr (hperm.filter p) hnodup, List.filter_cons]
  split
  · refine sortByKey_cons fun b hb => hmin b ?_
    exact hperm.mem_iff.2 (List.mem_cons_of_mem x (List.mem_of_mem_filter hb))
  · rfl

end KeyOrder

end Heapq
