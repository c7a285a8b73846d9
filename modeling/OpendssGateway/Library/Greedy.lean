import Mathlib.Data.List.Sublists
import Mathlib.Data.List.Perm.Basic

/-!
# Greedy walks

A greedy policy walks a list of candidates in order and takes each one
that the state admits, as long as there is room.  `walk` answers the
state at the end and the candidates it left, in their order.

* `walk_invariant` is the rule for facts that every take keeps, and
  `walk_perm` says that the walk loses no candidate.
* `walk_blocked` is the reason to call the walk complete: with room left
  at the end, no candidate that it left is admitted.  It needs `Shrinking`:
  a take never makes another candidate admissible.
* `walk_of_first` computes the walk up to the first candidate that is
  admitted.
-/

namespace Greedy

variable {σ α : Type*}

/-- When a candidate is admitted, and what taking it does. -/
structure Policy (σ α : Type*) where
  room : σ → Bool
  ok : σ → α → Bool
  take : σ → α → σ

/-- A take never makes another candidate admissible. -/
def Policy.Shrinking (P : Policy σ α) : Prop :=
  ∀ s a b, P.ok (P.take s a) b = true → P.ok s b = true

/-- Walk the candidates in order.  The second answer is what was left. -/
def walk (P : Policy σ α) : σ → List α → σ × List α
  | s, [] => (s, [])
  | s, a :: as =>
    if P.room s then
      if P.ok s a then walk P (P.take s a) as
      else ((walk P s as).1, a :: (walk P s as).2)
    else (s, a :: as)

variable {P : Policy σ α}

theorem walk_no_room {s : σ} (h : P.room s = false) (as : List α) : walk P s as = (s, as) := by
  cases as with
  | nil => rfl
  | cons a as => simp [walk, h]

theorem walk_take {s : σ} {a : α} (hr : P.room s = true) (ha : P.ok s a = true) (as : List α) :
    walk P s (a :: as) = walk P (P.take s a) as := by
  simp [walk, hr, ha]

theorem walk_skip {s : σ} {a : α} (hr : P.room s = true) (ha : P.ok s a = false) (as : List α) :
    walk P s (a :: as) = ((walk P s as).1, a :: (walk P s as).2) := by
  simp [walk, hr, ha]

/-- What is left is in the order of the candidates. -/
theorem walk_sublist (s : σ) (as : List α) : (walk P s as).2.Sublist as := by
  induction as generalizing s with
  | nil => exact List.Sublist.refl _
  | cons a as ih =>
    rw [walk]
    split_ifs
    · exact (ih _).cons a
    · exact (ih s).cons_cons a
    · exact List.Sublist.refl _

/-- What every take keeps holds at the end. -/
theorem walk_invariant (I : σ → Prop)
    (htake : ∀ s a, I s → P.room s = true → P.ok s a = true → I (P.take s a)) {s : σ}
    (hs : I s) (as : List α) : I (walk P s as).1 := by
  induction as generalizing s with
  | nil => exact hs
  | cons a as ih =>
    rw [walk]
    split_ifs with hr ha
    · exact ih (htake s a hs hr ha)
    · exact ih hs
    · exact hs

/-- What was taken and what was left are the candidates, when `taken` reads
the takes off the state. -/
theorem walk_perm (taken : σ → List α)
    (htake : ∀ s a, P.room s = true → taken (P.take s a) = taken s ++ [a]) (s : σ)
    (as : List α) : (taken (walk P s as).1 ++ (walk P s as).2).Perm (taken s ++ as) := by
  induction as generalizing s with
  | nil => exact List.Perm.refl _
  | cons a as ih =>
    rw [walk]
    split_ifs with hr ha
    · refine (ih _).trans ?_
      rw [htake s a hr, List.append_assoc]
      exact List.Perm.refl _
    · exact List.perm_middle.trans (((ih s).cons a).trans List.perm_middle.symm)
    · exact List.Perm.refl _

/-- What is admitted at the end was admitted at the start. -/
theorem ok_of_walk_ok (hP : P.Shrinking) {s : σ} {as : List α} {b : α}
    (h : P.ok (walk P s as).1 b = true) : P.ok s b = true := by
  induction as generalizing s with
  | nil => exact h
  | cons a as ih =>
    rw [walk] at h
    split_ifs at h
    · exact hP s a b (ih h)
    · exact ih h
    · exact h

/-- With room at the end, nothing that was left is admitted. -/
theorem walk_blocked (hP : P.Shrinking) {s : σ} {as : List α}
    (hr : P.room (walk P s as).1 = true) {b : α} (hb : b ∈ (walk P s as).2) :
    P.ok (walk P s as).1 b = false := by
  induction as generalizing s with
  | nil => cases hb
  | cons a as ih =>
    rw [walk] at hr hb ⊢
    split_ifs at hr hb ⊢ with hroom ha
    · exact ih hr hb
    · rcases List.mem_cons.1 hb with rfl | hb
      · rw [← Bool.not_eq_true]
        exact fun hok => ha (ok_of_walk_ok hP hok)
      · exact ih hr hb
    · exact absurd hr hroom

/-- The walk up to the first candidate that is admitted. -/
theorem walk_of_first {s : σ} {pre post : List α} {a : α} (hr : P.room s = true)
    (hpre : ∀ b ∈ pre, P.ok s b = false) (ha : P.ok s a = true) :
    walk P s (pre ++ a :: post) =
      ((walk P (P.take s a) post).1, pre ++ (walk P (P.take s a) post).2) := by
  induction pre with
  | nil => exact walk_take hr ha post
  | cons b pre ih =>
    rw [List.cons_append, walk_skip hr (hpre b (List.mem_cons_self ..)),
      ih fun c hc => hpre c (List.mem_cons_of_mem b hc)]
    rfl

end Greedy
