import Mathlib.Algebra.Order.Ring.Rat
import Mathlib.Data.List.Induction
import Mathlib.Logic.Function.Basic
import OpendssGateway.Library.SlidingWindow

/-!
# Rate windows

`_RateWindow` of `app.py`: at most `limit` calls of a key within `window`.
It holds a queue of times for each key, and pops from the front of a queue
only when the key calls again.

`Tracks` relates it to the log of the calls that it allowed.
`Tracks.allow_iff` answers a call from the log alone, and `Tracks.step`
keeps the relation.  `allow_window` is the result for any sequence of calls
at times that do not decrease.
-/

namespace OpendssGateway

open SlidingWindow

structure RateWindow (κ : Type) where
  limit : Int
  window : ℚ
  /-- `_hits` -/
  hits : κ → List ℚ

namespace RateWindow

variable {κ : Type}

/-- A call of `allow`, and the time it reads. -/
structure Call (κ : Type) where
  now : ℚ
  key : κ
  deriving DecidableEq

/-- `_RateWindow(limit, window)`. -/
def new (limit : Int) (window : ℚ) : RateWindow κ where
  limit := limit
  window := window
  hits _ := []

variable [DecidableEq κ]

def allow (self : RateWindow κ) (now : ℚ) (key : κ) : RateWindow κ × Bool :=
  let q := expire (now - self.window) (self.hits key)
  if self.limit ≤ q.length then
    ({ self with hits := Function.update self.hits key q }, false)
  else
    ({ self with hits := Function.update self.hits key (q ++ [now]) }, true)

section Allow

variable {w : RateWindow κ} {now : ℚ} {key : κ}

/-- The two ways a call ends. -/
theorem allow_cases (w : RateWindow κ) (now : ℚ) (key : κ) :
    (w.limit ≤ (expire (now - w.window) (w.hits key)).length ∧
      w.allow now key = ({ w with
        hits := Function.update w.hits key (expire (now - w.window) (w.hits key)) },
        false)) ∨
      ((expire (now - w.window) (w.hits key)).length < w.limit ∧
        w.allow now key = ({ w with
          hits := Function.update w.hits key
            (expire (now - w.window) (w.hits key) ++ [now]) }, true)) := by
  unfold allow
  by_cases h : w.limit ≤ (expire (now - w.window) (w.hits key)).length
  · exact Or.inl ⟨h, if_pos h⟩
  · exact Or.inr ⟨not_le.1 h, if_neg h⟩

@[simp] theorem allow_limit : (w.allow now key).1.limit = w.limit := by
  obtain ⟨_, h⟩ | ⟨_, h⟩ := allow_cases w now key <;> rw [h]

@[simp] theorem allow_window_eq : (w.allow now key).1.window = w.window := by
  obtain ⟨_, h⟩ | ⟨_, h⟩ := allow_cases w now key <;> rw [h]

theorem allow_eq_true :
    (w.allow now key).2 = true ↔
      ((expire (now - w.window) (w.hits key)).length : Int) < w.limit := by
  obtain ⟨hfull, h⟩ | ⟨hroom, h⟩ := allow_cases w now key
  · rw [h]
    simpa using hfull
  · rw [h]
    simpa using hroom

/-- The queues of other keys are left alone. -/
theorem allow_hits_of_ne {other : κ} (h : other ≠ key) :
    (w.allow now key).1.hits other = w.hits other := by
  obtain ⟨_, heq⟩ | ⟨_, heq⟩ := allow_cases w now key <;> rw [heq] <;>
    exact Function.update_of_ne h _ _

/-- How many of the calls in the queue of a key count at a time. -/
def used (w : RateWindow κ) (now : ℚ) (key : κ) : Nat :=
  (w.hits key).countP fun t => now - w.window ≤ t

/-- A call that is refused uses nothing up. -/
theorem used_of_refused (h : (w.allow now key).2 = false) {later : ℚ} (hle : now ≤ later)
    (other : κ) : (w.allow now key).1.used later other = w.used later other := by
  unfold used
  rw [allow_window_eq]
  obtain ⟨_, heq⟩ | ⟨_, heq⟩ := allow_cases w now key
  · by_cases hother : other = key
    · subst other
      rw [heq]
      simpa using countP_expire (sub_le_sub_right hle w.window) (w.hits key)
    · rw [allow_hits_of_ne hother]
  · rw [heq] at h
    cases h

/-- A call that is allowed counts. -/
theorem used_of_allowed (h : (w.allow now key).2 = true) (hwindow : 0 ≤ w.window) :
    (w.allow now key).1.used now key = w.used now key + 1 := by
  unfold used
  rw [allow_window_eq]
  obtain ⟨_, heq⟩ | ⟨_, heq⟩ := allow_cases w now key
  · rw [heq] at h
    cases h
  · have hself : now - w.window ≤ now := sub_le_self now hwindow
    simp only [heq, Function.update_self, List.countP_append, List.countP_singleton,
      countP_expire le_rfl, hself, decide_true, if_true]

/-- A call reads the limits and the queue of its key. -/
theorem allow_congr {a b : RateWindow κ} (hlimit : a.limit = b.limit)
    (hwindow : a.window = b.window) (hhits : a.hits key = b.hits key) :
    (a.allow now key).2 = (b.allow now key).2 ∧
      (a.allow now key).1.hits key = (b.allow now key).1.hits key := by
  simp only [allow, hlimit, hwindow, hhits]
  split <;> simp

end Allow

/-! ## The log of the calls that were allowed -/

/-- The times of the calls of a key. -/
def times (key : κ) (log : List (Call κ)) : List ℚ :=
  (log.filter fun call => call.key = key).map Call.now

/-- How many calls of a key there are from `start` on. -/
def since (key : κ) (start : ℚ) (log : List (Call κ)) : Nat :=
  log.countP fun call => call.key = key ∧ start ≤ call.now

/-- How many calls of a key there are from `start` to `stop`. -/
def between (key : κ) (start stop : ℚ) (log : List (Call κ)) : Nat :=
  log.countP fun call => call.key = key ∧ start ≤ call.now ∧ call.now ≤ stop

theorem countP_times (key : κ) (p : ℚ → Prop) [DecidablePred p] (log : List (Call κ)) :
    ((times key log).countP fun t => p t) =
      log.countP fun call => call.key = key ∧ p call.now := by
  unfold times
  rw [List.countP_map, List.countP_filter]
  apply List.countP_congr
  intro call _
  simp [and_comm]

theorem mem_times {key : κ} {log : List (Call κ)} {t : ℚ} (h : t ∈ times key log) :
    ∃ call ∈ log, call.now = t := by
  obtain ⟨call, hcall, ht⟩ := List.mem_map.1 h
  exact ⟨call, (List.mem_filter.1 hcall).1, ht⟩

theorem times_append_self (log : List (Call κ)) (call : Call κ) :
    times call.key (log ++ [call]) = times call.key log ++ [call.now] := by
  simp [times]

theorem times_append_of_ne {key : κ} {log : List (Call κ)} {call : Call κ}
    (h : call.key ≠ key) : times key (log ++ [call]) = times key log := by
  simp [times, h]

/-- The queues stand for the log at a time: no call in it is later, the queue of each key
is the end of its calls, and all of the key's calls within the window are there. -/
structure Tracks (w : RateWindow κ) (log : List (Call κ)) (now : ℚ) : Prop where
  past : ∀ call ∈ log, call.now ≤ now
  keeps : ∀ key, Keeps (now - w.window) (times key log) (w.hits key)
  spaced : ∀ key, Spaced w.limit w.window (times key log)

namespace Tracks

variable {w : RateWindow κ} {log : List (Call κ)} {now : ℚ}

theorem new (limit : Int) (window now : ℚ) :
    Tracks (RateWindow.new limit window : RateWindow κ) [] now where
  past _ h := absurd h List.not_mem_nil
  keeps _ := Keeps.nil
  spaced _ := Spaced.nil

theorem mono {later : ℚ} (h : Tracks w log now) (hle : now ≤ later) :
    Tracks w log later where
  past call hcall := (h.past call hcall).trans hle
  keeps key := (h.keeps key).mono (sub_le_sub_right hle _)
  spaced := h.spaced

theorem length_expire (h : Tracks w log now) (key : κ) :
    (expire (now - w.window) (w.hits key)).length = since key (now - w.window) log := by
  rw [(h.keeps key).length_expire, countP_times key fun t => now - w.window ≤ t]
  rfl

/-- A call is allowed if fewer than `limit` calls of its key were, within the window. -/
theorem allow_iff (h : Tracks w log now) (key : κ) :
    (w.allow now key).2 = true ↔ (since key (now - w.window) log : Int) < w.limit := by
  rw [allow_eq_true, h.length_expire]

/-- A call that is refused is not in the log, and pops what is before the window only. -/
theorem refused (h : Tracks w log now) {key : κ} (hrefused : (w.allow now key).2 = false) :
    Tracks (w.allow now key).1 log now := by
  obtain ⟨-, heq⟩ | ⟨-, heq⟩ := allow_cases w now key
  · refine ⟨h.past, fun other => ?_, fun other => ?_⟩
    · rw [allow_window_eq]
      by_cases hother : other = key
      · subst other
        rw [heq]
        simpa using (h.keeps key).expire
      · rw [allow_hits_of_ne hother]
        exact h.keeps other
    · rw [allow_limit, allow_window_eq]
      exact h.spaced other
  · rw [heq] at hrefused
    cases hrefused

/-- A call that is allowed is the last one of the log, and of the queue of its key. -/
theorem allowed (h : Tracks w log now) {key : κ} (hallowed : (w.allow now key).2 = true) :
    Tracks (w.allow now key).1 (log ++ [⟨now, key⟩]) now := by
  have hroom := allow_eq_true.1 hallowed
  have hlast : ∀ t ∈ times key log, t ≤ now := by
    intro t ht
    obtain ⟨call, hcall, rfl⟩ := mem_times ht
    exact h.past call hcall
  obtain ⟨-, heq⟩ | ⟨-, heq⟩ := allow_cases w now key
  · rw [heq] at hallowed
    cases hallowed
  · refine ⟨fun call hcall => ?_, fun other => ?_, fun other => ?_⟩
    · rcases List.mem_append.1 hcall with hcall | hcall
      · exact h.past call hcall
      · rw [List.mem_singleton.1 hcall]
    · rw [allow_window_eq]
      by_cases hother : other = key
      · subst other
        rw [heq, times_append_self log ⟨now, key⟩]
        simpa using (h.keeps key).expire.push hlast
      · rw [allow_hits_of_ne hother, times_append_of_ne fun hkey => hother hkey.symm]
        exact h.keeps other
    · rw [allow_limit, allow_window_eq]
      by_cases hother : other = key
      · subst other
        rw [times_append_self log ⟨now, key⟩]
        rw [(h.keeps key).length_expire] at hroom
        exact (h.spaced key).push hroom
      · rw [times_append_of_ne fun hkey => hother hkey.symm]
        exact h.spaced other

/-- The log after a call. -/
theorem step (h : Tracks w log now) (key : κ) :
    Tracks (w.allow now key).1
      (if (w.allow now key).2 = true then log ++ [⟨now, key⟩] else log) now := by
  cases hanswer : (w.allow now key).2 with
  | false => exact h.refused hanswer
  | true => exact h.allowed hanswer

/-- An interval as long as the window has at most `limit` calls of a key. -/
theorem between_le (h : Tracks w log now) (key : κ) (start : ℚ) :
    (between key start (start + w.window) log : Int) ≤ max w.limit 0 := by
  have hle := (h.spaced key).countP_le start
  rwa [countP_times key fun t => start ≤ t ∧ t ≤ start + w.window] at hle

end Tracks

/-! ## Any sequence of calls -/

/-- A call, and the log of those that were allowed. -/
def record (state : RateWindow κ × List (Call κ)) (call : Call κ) :
    RateWindow κ × List (Call κ) :=
  ((state.1.allow call.now call.key).1,
    if (state.1.allow call.now call.key).2 = true then state.2 ++ [call] else state.2)

/-- What a sequence of calls leaves, and those of them that were allowed. -/
def run (limit : Int) (window : ℚ) (calls : List (Call κ)) : RateWindow κ × List (Call κ) :=
  calls.foldl record (new limit window, [])

theorem run_append (limit : Int) (window : ℚ) (calls : List (Call κ)) (call : Call κ) :
    run limit window (calls ++ [call]) = record (run limit window calls) call := by
  simp [run, List.foldl_append]

theorem run_params (limit : Int) (window : ℚ) (calls : List (Call κ)) :
    (run limit window calls).1.limit = limit ∧ (run limit window calls).1.window = window := by
  induction calls using List.reverseRecOn with
  | nil => exact ⟨rfl, rfl⟩
  | append_singleton calls call ih =>
    rw [run_append]
    exact ⟨allow_limit.trans ih.1, allow_window_eq.trans ih.2⟩

theorem run_tracks {limit : Int} {window : ℚ} {calls : List (Call κ)}
    (htimes : calls.Pairwise fun a b => a.now ≤ b.now) {now : ℚ}
    (hnow : ∀ call ∈ calls, call.now ≤ now) :
    Tracks (run limit window calls).1 (run limit window calls).2 now := by
  induction calls using List.reverseRecOn generalizing now with
  | nil => exact Tracks.new limit window now
  | append_singleton calls call ih =>
    rw [List.pairwise_append] at htimes
    have hbefore : ∀ c ∈ calls, c.now ≤ call.now := fun c hc =>
      htimes.2.2 c hc call (List.mem_singleton_self call)
    rw [run_append]
    exact ((ih htimes.1 hbefore).step call.key).mono
      (hnow call (List.mem_append_right _ (List.mem_singleton_self call)))

/-- Only the calls of a key decide what is in its queue. -/
theorem run_hits_filter (limit : Int) (window : ℚ) (calls : List (Call κ)) (key : κ) :
    (run limit window calls).1.hits key =
      (run limit window (calls.filter fun call => call.key = key)).1.hits key := by
  induction calls using List.reverseRecOn with
  | nil => rfl
  | append_singleton calls call ih =>
    rw [run_append, List.filter_append]
    by_cases hkey : call.key = key
    · rw [List.filter_cons_of_pos (by simpa using hkey), List.filter_nil, run_append]
      subst key
      refine (allow_congr ?_ ?_ ih).2
      · rw [(run_params ..).1, (run_params ..).1]
      · rw [(run_params ..).2, (run_params ..).2]
    · rw [List.filter_cons_of_neg (by simpa using hkey), List.filter_nil, List.append_nil, ← ih]
      exact allow_hits_of_ne fun h => hkey h.symm

/-- Calls at times that do not decrease: one is allowed if and only if fewer than `limit`
earlier ones of its key were, at or after the start of the window; no interval as long as
the window has more than `limit` of a key; and the calls of other keys do not matter. -/
theorem allow_window (limit : Int) (window : ℚ) (calls : List (Call κ)) (call : Call κ)
    (htimes : (calls ++ [call]).Pairwise fun a b => a.now ≤ b.now) :
    (((run limit window calls).1.allow call.now call.key).2 = true ↔
        (since call.key (call.now - window) (run limit window calls).2 : Int) < limit) ∧
      (∀ key start, (between key start (start + window)
        (run limit window (calls ++ [call])).2 : Int) ≤ max limit 0) ∧
      ((run limit window calls).1.allow call.now call.key).2 =
        ((run limit window (calls.filter fun c => c.key = call.key)).1.allow
          call.now call.key).2 := by
  have hsplit := List.pairwise_append.1 htimes
  have htracks : Tracks (run limit window calls).1 (run limit window calls).2 call.now :=
    run_tracks hsplit.1 fun c hc => hsplit.2.2 c hc call (List.mem_singleton_self call)
  have hparams := run_params limit window calls
  refine ⟨?_, fun key start => ?_, ?_⟩
  · have hiff := htracks.allow_iff call.key
    rwa [hparams.1, hparams.2] at hiff
  · have hle := (htracks.step call.key).between_le key start
    rw [allow_limit, allow_window_eq, hparams.1, hparams.2] at hle
    rw [run_append]
    exact hle
  · refine (allow_congr ?_ ?_ (run_hits_filter limit window calls call.key)).1
    · rw [hparams.1, (run_params ..).1]
    · rw [hparams.2, (run_params ..).2]

/-- A call at the very start of the window still counts. -/
theorem allow_window_boundary :
    ((run 1 3600 [⟨0, 7⟩]).1.allow 3600 (7 : Nat)).2 = false := by
  have hcount : since (7 : Nat) (3600 - 3600) (run 1 3600 [⟨0, 7⟩]).2 = 1 := by decide +kernel
  have hiff := (allow_window 1 3600 [⟨0, 7⟩] (⟨3600, 7⟩ : Call Nat) (by decide)).1
  rw [hcount] at hiff
  exact Bool.eq_false_iff.2 fun h => absurd (hiff.1 h) (by decide)

end RateWindow

end OpendssGateway
