import Mathlib.Algebra.Order.Group.Int
import Mathlib.Data.List.Perm.Basic
import Mathlib.Logic.Function.Basic

/-!
# Counters

`collections.Counter` as a total function: a missing key counts as zero.

`Tallies c f out` says that the counter counts the entries of `out` by
the key `f`.  It does not depend on the order of `out` (`Tallies.perm`),
an increment tallies one more entry (`Tallies.append`) and a decrement
one less (`Tallies.remove`).
-/

/-- A counter with keys in `κ`. -/
abbrev Counter (κ : Type*) := κ → Int

namespace Counter

variable {κ α : Type*} [DecidableEq κ]

/-- `counter[k] += d`. -/
def add (c : Counter κ) (k : κ) (d : Int) : Counter κ :=
  Function.update c k (c k + d)

theorem add_apply (c : Counter κ) (k : κ) (d : Int) (x : κ) :
    c.add k d x = if x = k then c x + d else c x := by
  unfold add
  rw [Function.update_apply]
  split
  · rename_i h
    rw [h]
  · rfl

theorem le_add_one (c : Counter κ) (k x : κ) : c x ≤ c.add k 1 x := by
  rw [add_apply]
  split <;> omega

/-- The counter counts the entries of `out` by their key. -/
def Tallies (c : Counter κ) (f : α → κ) (out : List α) : Prop :=
  ∀ k, c k = out.countP fun a => f a = k

variable {c : Counter κ} {f : α → κ} {out out' : List α} {a : α}

theorem Tallies.perm (h : c.Tallies f out) (hp : out.Perm out') : c.Tallies f out' := by
  intro k
  rw [h k, hp.countP_eq]

theorem Tallies.append (h : c.Tallies f out) : (c.add (f a) 1).Tallies f (out ++ [a]) := by
  intro k
  rw [add_apply, h k, List.countP_append, List.countP_singleton]
  by_cases hk : k = f a
  · simp [hk]
  · simp [hk, Ne.symm hk]

theorem Tallies.remove (h : c.Tallies f out) (hp : out.Perm (a :: out')) :
    (c.add (f a) (-1)).Tallies f out' := by
  intro k
  rw [add_apply, h.perm hp k, List.countP_cons]
  by_cases hk : k = f a
  · simp [hk]
  · simp [hk, Ne.symm hk]

end Counter
