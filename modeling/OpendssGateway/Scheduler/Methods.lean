import OpendssGateway.Scheduler.Dispatch

/-!
# What the methods do

One specification for each method of the scheduler that changes the queue
or the futures.  `_dispatch` has its own module.

* `enqueue_wellFormed`, `forget_spec` and `drain_spec` say what is queued.
* `Quiet` is what giving up, forgetting and draining have in common: no
  worker changes hands.
-/

namespace OpendssGateway

open Heapq

namespace Scheduler

/-! ## Entering the queue -/

theorem enqueue_waiting (s : Scheduler) (w : Waiter) :
    (s.enqueue w).waiting.Perm (w :: s.waiting) :=
  heappush_perm Waiter.key s.waiting w

theorem mem_enqueue_waiting {s : Scheduler} {v w : Waiter} :
    v ∈ (s.enqueue w).waiting ↔ v = w ∨ v ∈ s.waiting := by
  rw [(enqueue_waiting s w).mem_iff, List.mem_cons]

/-- A fresh number keeps the queue well formed. -/
theorem enqueue_wellFormed {s : Scheduler} (h : s.WellFormed) {w : Waiter}
    (hfresh : ∀ v ∈ s.waiting, v.seq ≠ w.seq) : (s.enqueue w).WellFormed where
  heap := isHeap_heappush h.heap w
  nodup := by
    refine ((enqueue_waiting s w).map Waiter.seq).nodup_iff.2 ?_
    rw [List.map_cons, List.nodup_cons]
    refine ⟨fun hmem => ?_, h.nodup⟩
    obtain ⟨v, hv, heq⟩ := List.mem_map.1 hmem
    exact hfresh v hv heq

/-! ## Forgetting a waiter -/

@[simp] theorem forget_futures (s : Scheduler) (w : Waiter) :
    (s.forget w).futures = s.futures := by
  unfold forget
  split <;> rfl

/-- `_forget` changes nothing but the queue. -/
theorem forget_eq (s : Scheduler) (w : Waiter) :
    s.forget w = { s with waiting := (s.forget w).waiting } := by
  unfold forget
  split <;> rfl

theorem forget_waiting (s : Scheduler) (w : Waiter) :
    (s.forget w).waiting.Perm (s.waiting.eraseP fun v => v.key = w.key) := by
  unfold forget
  split
  · exact heapify_perm Waiter.key _
  · rename_i h
    rw [List.eraseP_of_forall_not]
    intro v hv hkey
    exact h (List.any_eq_true.2 ⟨v, hv, hkey⟩)

/-- After `_forget` the queue holds the other waiters. -/
theorem forget_spec {s : Scheduler} (h : s.WellFormed) (w : Waiter) :
    (s.forget w).WellFormed ∧
      ∀ v, v ∈ (s.forget w).waiting ↔ v ∈ s.waiting ∧ v.key ≠ w.key := by
  have hperm := forget_waiting s w
  refine ⟨⟨?_, ?_⟩, fun v => ?_⟩
  · unfold forget
    split
    · exact isHeap_heapify _
    · exact h.heap
  · refine (hperm.map Waiter.seq).nodup_iff.2 ?_
    exact h.nodup.sublist (List.eraseP_sublist.map Waiter.seq)
  · rw [hperm.mem_iff]
    constructor
    · intro hv
      have hmem := List.mem_of_mem_eraseP hv
      refine ⟨hmem, fun hkey => ?_⟩
      -- the erased waiter and `v` would be two entries of one key
      obtain ⟨a, pre, post, -, ha, hsplit, herase⟩ :=
        List.exists_of_eraseP (p := fun v => decide (v.key = w.key)) hmem (by simpa using hkey)
      rw [herase] at hv
      have hkeys := nodup_key_of_nodup_seq h.nodup
      have hmid : (a :: (pre ++ post)).map Waiter.key |>.Nodup := by
        rw [hsplit] at hkeys
        exact (List.perm_middle.map Waiter.key).nodup_iff.1 hkeys
      have haw : a.key = w.key := by simpa using ha
      refine (List.nodup_cons.1 hmid).1 ?_
      rw [haw, ← hkey]
      exact List.mem_map_of_mem hv
    · rintro ⟨hv, hkey⟩
      exact (List.mem_eraseP_of_neg (by simpa using hkey)).2 hv

/-! ## Draining -/

private theorem drain_fold (ws : List Waiter) (s : Scheduler) :
    let s' := ws.foldl (fun acc w =>
      if (acc.futures w.seq).done then acc else acc.setException w.seq .draining) s
    s' = { s with futures := s'.futures } ∧
      ∀ i, s'.futures i = if s.futures i = .pending ∧ i ∈ ws.map Waiter.seq
        then .exception .draining else s.futures i := by
  induction ws generalizing s with
  | nil => simp
  | cons w ws ih =>
    simp only [List.foldl_cons]
    split
    · rename_i hdone
      obtain ⟨hrest, hfut⟩ := ih s
      refine ⟨hrest, fun i => ?_⟩
      rw [hfut i]
      by_cases hi : i = w.seq
      · have hne : s.futures i ≠ .pending := by
          rw [hi]
          intro hp
          rw [hp] at hdone
          cases hdone
        simp [hne]
      · simp [hi]
    · rename_i hpend
      have hpend : (s.futures w.seq).done = false := by simpa using hpend
      rw [setException_of_pending hpend]
      obtain ⟨hrest, hfut⟩ :=
        ih { s with futures := Function.update s.futures w.seq (.exception .draining) }
      refine ⟨hrest, fun i => ?_⟩
      rw [hfut i]
      by_cases hi : i = w.seq
      · subst hi
        simp [Future.done_eq_false.1 hpend]
      · simp [hi]

/-- `drain` fails the pending waiters of the queue, empties it, and changes
nothing else. -/
theorem drain_spec (s : Scheduler) :
    s.drain = { s with draining := true, waiting := [], futures := s.drain.futures } ∧
      ∀ i, s.drain.futures i = if s.futures i = .pending ∧ i ∈ s.waiting.map Waiter.seq
        then .exception .draining else s.futures i := by
  obtain ⟨hrest, hfut⟩ := drain_fold s.waiting { s with draining := true }
  refine ⟨?_, hfut⟩
  unfold drain
  dsimp only
  rw [hrest]

/-! ## Quiet changes -/

/-- A change that moves no worker: at most it takes waiters off the queue,
and it settles pending futures of the queue without a result. -/
structure Quiet (s s' : Scheduler) : Prop where
  free : s'.free = s.free
  poolInuse : s'.poolInuse = s.poolInuse
  clientInuse : s'.clientInuse = s.clientInuse
  grants : s'.grants = s.grants
  nextSeq : s'.nextSeq = s.nextSeq
  invalidState : s'.invalidState = s.invalidState
  wellFormed : s'.WellFormed
  waiting : ∀ w ∈ s'.waiting, w ∈ s.waiting
  futures : ∀ i, s'.futures i = s.futures i ∨
    (s.futures i = .pending ∧ i ∈ s.waiting.map Waiter.seq ∧
      (s'.futures i = .cancelled ∨ ∃ e, s'.futures i = .exception e))

theorem forget_quiet {s : Scheduler} (h : s.WellFormed) (w : Waiter) : Quiet s (s.forget w) := by
  obtain ⟨hwf, hmem⟩ := forget_spec h w
  have heq := forget_eq s w
  exact
    { free := by rw [heq]
      poolInuse := by rw [heq]
      clientInuse := by rw [heq]
      grants := by rw [heq]
      nextSeq := by rw [heq]
      invalidState := by rw [heq]
      wellFormed := hwf
      waiting := fun v hv => ((hmem v).1 hv).1
      futures := fun i => Or.inl (congrFun (forget_futures s w) i) }

theorem drain_quiet (s : Scheduler) : Quiet s s.drain := by
  obtain ⟨heq, hfut⟩ := drain_spec s
  have hempty : s.drain.waiting = [] := by rw [heq]
  exact
    { free := by rw [heq]
      poolInuse := by rw [heq]
      clientInuse := by rw [heq]
      grants := by rw [heq]
      nextSeq := by rw [heq]
      invalidState := by rw [heq]
      wellFormed := ⟨by rw [hempty]; exact isHeap_nil, by rw [hempty]; exact List.nodup_nil⟩
      waiting := fun w hw => by rw [hempty] at hw; cases hw
      futures := by
        intro i
        rw [hfut i]
        split
        · rename_i hi
          exact Or.inr ⟨hi.1, hi.2, Or.inr ⟨_, rfl⟩⟩
        · exact Or.inl rfl }

theorem cancelFuture_futures (s : Scheduler) (i j : Nat) :
    (s.cancelFuture i).futures j =
      if j = i ∧ s.futures i = .pending then .cancelled else s.futures j := by
  unfold cancelFuture
  cases hf : s.futures i <;> simp [Future.done, Function.update_apply]

theorem cancelFuture_quiet {s : Scheduler} (h : s.WellFormed) {i : Nat}
    (hi : s.futures i = .pending → i ∈ s.waiting.map Waiter.seq) : Quiet s (s.cancelFuture i) := by
  have heq : s.cancelFuture i = { s with futures := (s.cancelFuture i).futures } := by
    unfold cancelFuture
    split <;> rfl
  exact
    { free := by rw [heq]
      poolInuse := by rw [heq]
      clientInuse := by rw [heq]
      grants := by rw [heq]
      nextSeq := by rw [heq]
      invalidState := by rw [heq]
      wellFormed := ⟨by rw [heq]; exact h.heap, by rw [heq]; exact h.nodup⟩
      waiting := fun w hw => by rw [heq] at hw; exact hw
      futures := by
        intro j
        rw [cancelFuture_futures]
        split
        · rename_i hj
          exact Or.inr ⟨hj.1 ▸ hj.2, hj.1 ▸ hi hj.2, Or.inl rfl⟩
        · exact Or.inl rfl }

/-- The results of futures stay. -/
theorem Quiet.result_iff {s s' : Scheduler} (h : Quiet s s') (i : Nat) (worker : String) :
    s'.futures i = .result worker ↔ s.futures i = .result worker := by
  rcases h.futures i with hf | ⟨hp, -, hf | ⟨e, hf⟩⟩
  · rw [hf]
  · simp [hf, hp]
  · simp [hf, hp]

end Scheduler

end OpendssGateway
