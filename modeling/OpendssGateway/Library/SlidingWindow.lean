import Mathlib.Algebra.Order.Group.Defs
import Mathlib.Algebra.Order.Sub.Basic
import Mathlib.Order.Interval.Set.Defs

/-!
# Sliding windows

A limiter keeps the times of the calls that it let through in a queue.  At
each call it pops from the front what is before the window, and it lets the
call through if fewer than the limit are left.

The queue stands for a log of all the calls that were let through.  `Keeps`
is what it has of the log: a suffix, and only times before the window are
missing.  `Keeps.expire_eq` says that popping from the front leaves exactly
the part of the log within the window.

`Spaced` says that each time in a log found fewer than the limit within the
window before it, and `Spaced.countP_le` bounds the times in any interval
as long as the window.
-/

namespace SlidingWindow

section Queue

variable {τ : Type*} [LinearOrder τ]

/-- Pop from the front what is before `start`. -/
def expire (start : τ) (queue : List τ) : List τ :=
  queue.dropWhile fun t => t < start

theorem expire_eq_filter {start : τ} {queue : List τ} (h : queue.Pairwise (· ≤ ·)) :
    expire start queue = queue.filter fun t => start ≤ t := by
  induction queue with
  | nil => rfl
  | cons first rest ih =>
    rw [List.pairwise_cons] at h
    unfold expire at ih ⊢
    by_cases hfirst : first < start
    · rw [List.dropWhile_cons_of_pos (by simpa using hfirst),
        List.filter_cons_of_neg (by simpa using hfirst)]
      exact ih h.2
    · have hstart : start ≤ first := not_lt.1 hfirst
      rw [List.dropWhile_cons_of_neg (by simpa using hstart), List.filter_eq_self.2]
      intro t ht
      rcases List.mem_cons.1 ht with rfl | ht
      · simpa using hstart
      · simpa using hstart.trans (h.1 t ht)

/-- What is popped does not count later on. -/
theorem countP_expire {start later : τ} (hle : start ≤ later) (queue : List τ) :
    ((expire start queue).countP fun t => later ≤ t) = queue.countP fun t => later ≤ t := by
  have hpopped : ((queue.takeWhile fun t => t < start).countP fun t => later ≤ t) = 0 := by
    rw [List.countP_eq_zero]
    intro t ht
    have hlt : t < start := by simpa using List.all_eq_true.1 List.all_takeWhile t ht
    simpa using hlt.trans_le hle
  calc ((expire start queue).countP fun t => later ≤ t)
      = ((queue.takeWhile fun t => t < start).countP fun t => later ≤ t) +
          (expire start queue).countP fun t => later ≤ t := by rw [hpopped, Nat.zero_add]
    _ = queue.countP fun t => later ≤ t := by
      rw [← List.countP_append, expire, List.takeWhile_append_dropWhile]

/-- The queue is the end of the log, and what it lacks of it is before `start`. -/
structure Keeps (start : τ) (log queue : List τ) : Prop where
  sorted : log.Pairwise (· ≤ ·)
  lost : ∃ dropped, log = dropped ++ queue ∧ ∀ t ∈ dropped, t < start

namespace Keeps

variable {start now : τ} {log queue : List τ}

theorem nil : Keeps start [] [] where
  sorted := List.Pairwise.nil
  lost := ⟨[], rfl, by simp⟩

theorem mono {later : τ} (h : Keeps start log queue) (hle : start ≤ later) :
    Keeps later log queue where
  sorted := h.sorted
  lost := by
    obtain ⟨dropped, hlog, hdropped⟩ := h.lost
    exact ⟨dropped, hlog, fun t ht => (hdropped t ht).trans_le hle⟩

/-- Popping from the front leaves the part of the log that is not before `start`. -/
theorem expire_eq (h : Keeps start log queue) :
    expire start queue = log.filter fun t => start ≤ t := by
  obtain ⟨dropped, hlog, hdropped⟩ := h.lost
  have hsorted := h.sorted
  rw [hlog, List.pairwise_append] at hsorted
  have hnone : (dropped.filter fun t => start ≤ t) = [] := by
    rw [List.filter_eq_nil_iff]
    intro t ht
    simpa using hdropped t ht
  rw [expire_eq_filter hsorted.2.1, hlog, List.filter_append, hnone, List.nil_append]

theorem length_expire (h : Keeps start log queue) :
    (expire start queue).length = log.countP fun t => start ≤ t := by
  rw [h.expire_eq, List.countP_eq_length_filter]

protected theorem expire (h : Keeps start log queue) : Keeps start log (expire start queue) where
  sorted := h.sorted
  lost := by
    obtain ⟨dropped, hlog, hdropped⟩ := h.lost
    refine ⟨dropped ++ queue.takeWhile fun t => t < start, ?_, ?_⟩
    · rw [List.append_assoc, expire, List.takeWhile_append_dropWhile, hlog]
    · intro t ht
      rcases List.mem_append.1 ht with ht | ht
      · exact hdropped t ht
      · simpa using List.all_eq_true.1 List.all_takeWhile t ht

theorem push (h : Keeps start log queue) (hlast : ∀ t ∈ log, t ≤ now) :
    Keeps start (log ++ [now]) (queue ++ [now]) where
  sorted := by
    rw [List.pairwise_append]
    refine ⟨h.sorted, List.pairwise_singleton .., fun t ht s hs => ?_⟩
    rw [List.mem_singleton.1 hs]
    exact hlast t ht
  lost := by
    obtain ⟨dropped, hlog, hdropped⟩ := h.lost
    exact ⟨dropped, by rw [hlog, List.append_assoc], hdropped⟩

end Keeps

end Queue

section Bound

variable {τ : Type*} [AddCommGroup τ] [LinearOrder τ] [IsOrderedAddMonoid τ]

/-- Each time found fewer than `limit` others within the window before it. -/
inductive Spaced (limit : Int) (window : τ) : List τ → Prop
  | nil : Spaced limit window []
  | push {log : List τ} {now : τ} :
      Spaced limit window log →
      ((log.countP fun t => now - window ≤ t : Nat) : Int) < limit →
      Spaced limit window (log ++ [now])

/-- An interval as long as the window has at most `limit` times. -/
theorem Spaced.countP_le {limit : Int} {window : τ} {log : List τ} (h : Spaced limit window log)
    (start : τ) :
    ((log.countP fun t => start ≤ t ∧ t ≤ start + window : Nat) : Int) ≤ max limit 0 := by
  induction h with
  | nil => exact le_max_right _ _
  | @push log now _ hfew ih =>
    rw [List.countP_append, List.countP_singleton]
    split_ifs with hin
    · -- the others in the interval were within the window before `now`
      have hwithin : (log.countP fun t => start ≤ t ∧ t ≤ start + window) ≤
          log.countP fun t => now - window ≤ t := by
        apply List.countP_mono_left
        intro t _ ht
        simp only [decide_eq_true_eq] at hin ht ⊢
        exact (sub_le_iff_le_add.2 hin.2).trans ht.1
      omega
    · simpa using ih

end Bound

end SlidingWindow
