import Mathlib.Algebra.Order.Group.Int
import Mathlib.Data.List.NodupEquivFin
import Mathlib.Order.WellFounded

/-!
# Ranked lists

In a list that is `Ranked bound`, the entry at position `i` has a bound
of at least `i + 1`: it was within its own limit when it came in.  A
single limit for the whole list would not survive entries with different
bounds.

* An entry may be appended while its bound is above the length
  (`Ranked.append`).
* Entries may leave in any order (`Ranked.sublist`): the ones behind them
  move up.
* A common bound is a bound on the length (`Ranked.length_le`).
-/

variable {α : Type*}

/-- Every entry has a bound of at least its position, counted from one. -/
def Ranked (bound : α → Int) (l : List α) : Prop :=
  ∀ (i : Nat) (a : α), l[i]? = some a → (i : Int) + 1 ≤ bound a

namespace Ranked

variable {bound : α → Int} {l l' : List α} {a : α}

theorem nil : Ranked bound [] := by
  intro i a h
  simp at h

theorem append (h : Ranked bound l) (ha : (l.length : Int) < bound a) :
    Ranked bound (l ++ [a]) := by
  intro i b hb
  rw [List.getElem?_append] at hb
  split at hb
  · exact h i b hb
  · rw [List.getElem?_singleton] at hb
    split at hb
    · cases hb
      omega
    · cases hb

/-- The entry at a position of a sublist is at that position or behind it in
the list. -/
theorem sublist (h : Ranked bound l) (hs : l'.Sublist l) : Ranked bound l' := by
  intro i a ha
  obtain ⟨f, hf⟩ := List.sublist_iff_exists_orderEmbedding_getElem?_eq.1 hs
  have hle : i ≤ f i := f.strictMono.le_apply
  have := h (f i) a (by rw [← hf i]; exact ha)
  omega

/-- Entries with a common bound are at most that many. -/
theorem length_le (h : Ranked bound l) {k : Nat} (hk : ∀ a ∈ l, bound a ≤ k) :
    l.length ≤ k := by
  rcases Nat.eq_zero_or_pos l.length with hzero | hpos
  · omega
  · obtain ⟨a, ha⟩ : ∃ a, l[l.length - 1]? = some a :=
      ⟨_, List.getElem?_eq_getElem (by omega)⟩
    have hrank := h (l.length - 1) a ha
    have hbound := hk a (List.mem_of_getElem? ha)
    omega

end Ranked
