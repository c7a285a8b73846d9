import Mathlib.Data.List.Basic

/-!
# Patterns of repeated classes

A pattern is a list of items: a class of characters that is repeated, with
a least and a greatest number, or a condition on what stands ahead.
`accepts` matches it from the start of a text, by backtracking: an item
takes as many characters as it can, and one fewer each time that the items
behind it do not match.

`takes_iff` says that this finds a match if there is one: the text can be
split such that the item takes the first part and the items behind it match
the second.
-/

namespace Backtrack

variable {α : Type*}

/-- An item of a pattern. -/
inductive Item (α : Type*)
  /-- `[..]{min,max}`.  With `none` there is no greatest number. -/
  | rep (p : α → Bool) (min : Nat) (max : Option Nat)
  /-- a condition on what is ahead, of which nothing is taken -/
  | ahead (p : List α → Bool)

/-- Take one more character if the class and the number allow it; else, or if nothing comes
of it, go on behind. -/
def takes (p : α → Bool) (behind : List α → Bool) : Nat → Option Nat → List α → Bool
  | min, _, [] => min == 0 && behind []
  | min, max, c :: s =>
    (p c && max != some 0 && takes p behind (min - 1) (max.map (· - 1)) s) ||
      (min == 0 && behind (c :: s))

/-- The pattern matches at the start of the text. -/
def accepts : List (Item α) → List α → Bool
  | [], _ => true
  | .rep p min max :: items, s => takes p (accepts items) min max s
  | .ahead p :: items, s => p s && accepts items s

/-- What a repeated class may take: characters of the class, and as many as it wants. -/
structure Taken (p : α → Bool) (min : Nat) (max : Option Nat) (taken : List α) : Prop where
  all : ∀ c ∈ taken, p c = true
  least : min ≤ taken.length
  most : ∀ m, max = some m → taken.length ≤ m

section Taken

variable {p : α → Bool} {min : Nat} {max : Option Nat} {c : α} {taken : List α}

theorem taken_nil : Taken p min max [] ↔ min = 0 := by
  constructor
  · intro h
    exact Nat.le_zero.1 h.least
  · rintro rfl
    exact ⟨by simp, Nat.le_refl 0, fun m _ => Nat.zero_le m⟩

/-- One more may be taken if the number does not forbid it. -/
theorem taken_cons :
    Taken p min max (c :: taken) ↔
      (p c = true ∧ max ≠ some 0) ∧ Taken p (min - 1) (max.map (· - 1)) taken := by
  constructor
  · intro h
    have hleast := h.least
    rw [List.length_cons] at hleast
    refine ⟨⟨h.all c (List.mem_cons_self ..), ?_⟩, ?_, by omega, ?_⟩
    · rintro rfl
      exact absurd (h.most 0 rfl) (by simp)
    · intro d hd
      exact h.all d (List.mem_cons_of_mem c hd)
    · intro m hm
      obtain ⟨n, rfl, rfl⟩ := Option.map_eq_some_iff.1 hm
      have hmost := h.most n rfl
      rw [List.length_cons] at hmost
      omega
  · rintro ⟨⟨hc, hroom⟩, h⟩
    have hleast := h.least
    refine ⟨?_, ?_, ?_⟩
    · intro d hd
      rcases List.mem_cons.1 hd with rfl | hd
      · exact hc
      · exact h.all d hd
    · rw [List.length_cons]
      omega
    · rintro m rfl
      have hmost := h.most (m - 1) rfl
      have hpos : m ≠ 0 := fun hm => hroom (congrArg some hm)
      rw [List.length_cons]
      omega

/-- A single character. -/
theorem taken_one : Taken p 1 (some 1) taken ↔ ∃ c, taken = [c] ∧ p c = true := by
  constructor
  · intro h
    obtain ⟨c, rfl⟩ := List.length_eq_one_iff.1 (Nat.le_antisymm (h.most 1 rfl) h.least)
    exact ⟨c, rfl, h.all c (List.mem_singleton_self c)⟩
  · rintro ⟨c, rfl, hc⟩
    exact taken_cons.2 ⟨⟨hc, by simp⟩, taken_nil.2 rfl⟩

end Taken

/-- Backtracking finds a split if there is one. -/
theorem takes_iff {p : α → Bool} {behind : List α → Bool} {min : Nat} {max : Option Nat}
    {s : List α} :
    takes p behind min max s = true ↔
      ∃ taken rest, s = taken ++ rest ∧ Taken p min max taken ∧ behind rest = true := by
  induction s generalizing min max with
  | nil =>
    unfold takes
    rw [Bool.and_eq_true, beq_iff_eq, ← taken_nil (p := p)]
    constructor
    · rintro ⟨hmin, hbehind⟩
      exact ⟨[], [], rfl, hmin, hbehind⟩
    · rintro ⟨taken, rest, hsplit, htaken, hbehind⟩
      obtain ⟨rfl, rfl⟩ := List.append_eq_nil_iff.1 hsplit.symm
      exact ⟨htaken, hbehind⟩
  | cons c s ih =>
    unfold takes
    rw [Bool.or_eq_true, Bool.and_eq_true, Bool.and_eq_true, Bool.and_eq_true, ih, beq_iff_eq,
      bne_iff_ne]
    constructor
    · rintro (⟨hc, taken, rest, rfl, htaken, hbehind⟩ | ⟨hmin, hbehind⟩)
      · exact ⟨c :: taken, rest, rfl, taken_cons.2 ⟨hc, htaken⟩, hbehind⟩
      · exact ⟨[], c :: s, rfl, taken_nil.2 hmin, hbehind⟩
    · rintro ⟨taken, rest, hsplit, htaken, hbehind⟩
      cases taken with
      | nil =>
        cases hsplit
        exact Or.inr ⟨taken_nil.1 htaken, hbehind⟩
      | cons d taken =>
        cases hsplit
        obtain ⟨hc, htaken⟩ := taken_cons.1 htaken
        exact Or.inl ⟨hc, taken, rest, rfl, htaken, hbehind⟩

theorem takes_one_iff {p : α → Bool} {behind : List α → Bool} {s : List α} :
    takes p behind 1 (some 1) s = true ↔
      ∃ c rest, s = c :: rest ∧ p c = true ∧ behind rest = true := by
  rw [takes_iff]
  constructor
  · rintro ⟨taken, rest, rfl, htaken, hbehind⟩
    obtain ⟨c, rfl, hc⟩ := taken_one.1 htaken
    exact ⟨c, rest, rfl, hc, hbehind⟩
  · rintro ⟨c, rest, rfl, hc, hbehind⟩
    exact ⟨[c], rest, rfl, taken_one.2 ⟨c, rfl, hc⟩, hbehind⟩

end Backtrack
