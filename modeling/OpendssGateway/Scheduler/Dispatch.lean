import OpendssGateway.Library.Greedy
import OpendssGateway.Scheduler.Basic

/-!
# Dispatch is the greedy policy in key order

`_dispatch` pops a heap, drops abandoned waiters, sets blocked waiters
aside and pushes them back.  This module proves that its outcome is the
one of the policy it stands for: sort the live waiters by priority and
arrival, walk them in that order, and hand the head of the free list to
each one that is eligible under the counters of the moment.

* `dispatch_rule` is the induction over the loop, made once.  It turns
  what the three branches keep into what the whole call keeps.
* `slotPolicy` and `reference` state the policy.  It knows nothing of
  heaps and futures.
* `dispatch_spec` is the refinement.
-/

namespace OpendssGateway

open Heapq

namespace Scheduler

variable {cfg : SchedulerConfig}

/-! ## The loop rule -/

theorem pushAll_waiting (s : Scheduler) (skipped : List Waiter) :
    (s.pushAll skipped).waiting.Perm (s.waiting ++ skipped) := by
  unfold pushAll
  simp only
  generalize s.waiting = heap
  induction skipped generalizing heap with
  | nil => simp
  | cons w rest ih =>
    rw [List.foldl_cons]
    refine (ih _).trans ?_
    exact ((heappush_perm Waiter.key heap w).append_right rest).trans List.perm_middle.symm

theorem isHeap_pushAll {s : Scheduler} (h : IsHeap Waiter.key s.waiting)
    (skipped : List Waiter) : IsHeap Waiter.key (s.pushAll skipped).waiting := by
  unfold pushAll
  simp only
  generalize s.waiting = heap at h ⊢
  induction skipped generalizing heap with
  | nil => exact h
  | cons w rest ih =>
    rw [List.foldl_cons]
    exact ih _ (isHeap_heappush h w)

/-- What the three branches of a round have to keep.  `P` speaks about the
scheduler and the waiters that were set aside. -/
structure RoundKeeps (cfg : SchedulerConfig) (P : Scheduler → List Waiter → Prop) : Prop where
  drop : ∀ s skipped waiter rest, P s skipped →
    heappop Waiter.key s.waiting = some (waiter, rest) →
    (s.futures waiter.seq).done = true → P { s with waiting := rest } skipped
  skip : ∀ s skipped waiter rest, P s skipped →
    heappop Waiter.key s.waiting = some (waiter, rest) → s.free ≠ [] →
    (s.futures waiter.seq).done = false → eligible cfg s waiter.job = false →
    P { s with waiting := rest } (skipped ++ [waiter])
  grant : ∀ s skipped waiter rest worker free, P s skipped →
    heappop Waiter.key s.waiting = some (waiter, rest) → s.free = worker :: free →
    (s.futures waiter.seq).done = false → eligible cfg s waiter.job = true →
    P (grant { s with waiting := rest, free := free } waiter worker rest skipped) skipped

private theorem dispatchLoop_rule_aux {P : Scheduler → List Waiter → Prop}
    (hP : RoundKeeps cfg P) :
    ∀ (fuel : Nat) (s : Scheduler) (skipped : List Waiter),
      s.waiting.length ≤ fuel → P s skipped →
      ∃ s' skipped', dispatchLoop cfg fuel s skipped = s'.pushAll skipped' ∧
        P s' skipped' ∧ (s'.free = [] ∨ s'.waiting = []) := by
  intro fuel
  induction fuel with
  | zero =>
    intro s skipped hlen h
    exact ⟨s, skipped, rfl, h, Or.inr (List.eq_nil_of_length_eq_zero (Nat.le_zero.1 hlen))⟩
  | succ fuel ih =>
    intro s skipped hlen h
    rw [dispatchLoop]
    split
    · rename_i waiter rest worker free hpop hfree
      have hrest : rest.length ≤ fuel := by
        have := (heappop_perm Waiter.key hpop).length_eq
        rw [List.length_cons] at this
        omega
      have hne : s.free ≠ [] := by rw [hfree]; exact List.cons_ne_nil _ _
      split_ifs with hdone hblocked
      · exact ih _ _ hrest (hP.drop s skipped waiter rest h hpop hdone)
      · exact ih _ _ hrest (hP.skip s skipped waiter rest h hpop hne (by simpa using hdone)
          (by simpa using hblocked))
      · refine ih _ _ ?_ (hP.grant s skipped waiter rest worker free h hpop hfree
          (by simpa using hdone) (by simpa using hblocked))
        unfold Scheduler.grant setResult
        split <;> exact hrest
    · rename_i hstop
      refine ⟨s, skipped, rfl, h, ?_⟩
      cases hpop : heappop Waiter.key s.waiting with
      | none => exact Or.inr (heappop_eq_none Waiter.key hpop)
      | some p =>
        cases hfree : s.free with
        | nil => exact Or.inl rfl
        | cons worker free => exact absurd hfree (hstop p.1 p.2 worker free hpop)

/-- The induction over `_dispatch`.  What the rounds keep holds of the
scheduler before the last pushes, and the loop ends without a free worker
or without a waiter. -/
theorem dispatch_rule {P : Scheduler → List Waiter → Prop} (hP : RoundKeeps cfg P)
    {s : Scheduler} (h : P s []) :
    ∃ s' skipped', dispatch cfg s = s'.pushAll skipped' ∧ P s' skipped' ∧
      (s'.free = [] ∨ s'.waiting = []) := by
  unfold dispatch
  split
  · rename_i hstop
    refine ⟨s, [], rfl, h, ?_⟩
    simpa using hstop
  · exact dispatchLoop_rule_aux hP _ _ _ (Nat.le_refl _) h

/-! ## The policy -/

/-- What the policy acts on: the free workers, the counters, and the grants
it has made. -/
structure Slots where
  free : List String
  poolInuse : Counter String
  clientInuse : Counter String
  given : List Holding

def slots (s : Scheduler) (given : List Holding) : Slots :=
  ⟨s.free, s.poolInuse, s.clientInuse, given⟩

/-- Hand the head of the free list to a waiter. -/
def Slots.hand (t : Slots) (w : Waiter) : Slots :=
  match t.free with
  | [] => t
  | worker :: free =>
    ⟨free, t.poolInuse.add w.job.pool 1, t.clientInuse.add w.job.client 1,
      t.given ++ [(w, worker)]⟩

/-- The policy: as long as a worker is free, every eligible waiter gets
one. -/
def slotPolicy (cfg : SchedulerConfig) : Greedy.Policy Slots Waiter where
  room t := !t.free.isEmpty
  ok t w := eligibleAt cfg t.poolInuse t.clientInuse w.job
  take := Slots.hand

/-- The live waiters in the order of priority and arrival. -/
def line (s : Scheduler) : List Waiter :=
  sortByKey Waiter.key (s.waiting.filter s.live)

/-- The outcome of the policy on a scheduler: the slots it leaves, with its
grants, and the waiters that stay, in order. -/
def reference (cfg : SchedulerConfig) (s : Scheduler) : Slots × List Waiter :=
  Greedy.walk (slotPolicy cfg) (s.slots []) s.line

/-- The futures after some grants. -/
def settle (futures : Nat → Future) (given : List Holding) : Nat → Future :=
  given.foldl (fun f h => Function.update f h.1.seq (.result h.2)) futures

/-- A grant raises two counters, so it never makes a waiter eligible. -/
theorem slotPolicy_shrinking : (slotPolicy cfg).Shrinking := by
  intro t a b h
  simp only [slotPolicy, Slots.hand] at h ⊢
  split at h
  · exact h
  · exact eligibleAt_mono cfg (Counter.le_add_one ..) (Counter.le_add_one ..) h

/-! ## The refinement -/

/-- The queue is a heap and no number is queued twice. -/
structure WellFormed (s : Scheduler) : Prop where
  heap : IsHeap Waiter.key s.waiting
  nodup : (s.waiting.map Waiter.seq).Nodup

/-- Distinct numbers make distinct keys. -/
theorem nodup_key_of_nodup_seq {l : List Waiter} (h : (l.map Waiter.seq).Nodup) :
    (l.map Waiter.key).Nodup := by
  rw [List.Nodup, List.pairwise_map] at h ⊢
  exact h.imp fun hne heq => hne (Waiter.seq_eq_of_key_eq heq)

/-- The invariant of the loop that started at `s₀`.  The rest of the walk
from here, after the waiters that were set aside, is the whole walk. -/
structure Walking (cfg : SchedulerConfig) (s₀ s : Scheduler) (skipped : List Waiter) :
    Prop where
  heap : IsHeap Waiter.key s.waiting
  nodup : ((s.waiting ++ skipped).map Waiter.seq).Nodup
  live : ∀ w ∈ skipped, s.live w = true
  draining : s.draining = s₀.draining
  nextSeq : s.nextSeq = s₀.nextSeq
  invalidState : s.invalidState = s₀.invalidState
  walk : ∃ given, (given.map Prod.fst ++ (s.waiting ++ skipped)).Subperm s₀.waiting ∧
    s.futures = settle s₀.futures given ∧ s.granted = s₀.granted ++ given ∧
    reference cfg s₀ =
      ((Greedy.walk (slotPolicy cfg) (s.slots given) s.line).1,
        skipped ++ (Greedy.walk (slotPolicy cfg) (s.slots given) s.line).2)

theorem walking_start (cfg : SchedulerConfig) {s : Scheduler} (h : s.WellFormed) :
    Walking cfg s s [] where
  heap := h.heap
  nodup := by rw [List.append_nil]; exact h.nodup
  live := fun _ hw => by cases hw
  draining := rfl
  nextSeq := rfl
  invalidState := rfl
  walk := ⟨[], by simp [List.Subperm.refl], rfl, (List.append_nil _).symm,
    by rw [List.nil_append]; rfl⟩

section Round

variable {s₀ s : Scheduler} {skipped rest : List Waiter} {waiter : Waiter}

/-- The line of a scheduler that popped `waiter`. -/
theorem line_of_heappop (h : Walking cfg s₀ s skipped)
    (hpop : heappop Waiter.key s.waiting = some (waiter, rest)) :
    s.line = if s.live waiter then waiter :: sortByKey Waiter.key (rest.filter s.live)
      else sortByKey Waiter.key (rest.filter s.live) := by
  have hn : (s.waiting.map Waiter.seq).Nodup := by
    have := h.nodup
    rw [List.map_append] at this
    exact this.of_append_left
  exact sortByKey_filter_of_heappop h.heap hpop (nodup_key_of_nodup_seq hn) s.live

theorem nodup_of_heappop (h : Walking cfg s₀ s skipped)
    (hpop : heappop Waiter.key s.waiting = some (waiter, rest)) :
    ((waiter :: (rest ++ skipped)).map Waiter.seq).Nodup := by
  have hperm := (heappop_perm Waiter.key hpop).append_right skipped
  exact (hperm.map Waiter.seq).nodup_iff.1 h.nodup

theorem sub_of_heappop {given : List Waiter}
    (hsub : (given ++ (s.waiting ++ skipped)).Subperm s₀.waiting)
    (hpop : heappop Waiter.key s.waiting = some (waiter, rest)) :
    (given ++ waiter :: (rest ++ skipped)).Subperm s₀.waiting := by
  have hperm := (heappop_perm Waiter.key hpop).append_right skipped
  exact (hperm.append_left given).symm.subperm.trans hsub

theorem Walking.drop (h : Walking cfg s₀ s skipped)
    (hpop : heappop Waiter.key s.waiting = some (waiter, rest))
    (hdone : (s.futures waiter.seq).done = true) :
    Walking cfg s₀ { s with waiting := rest } skipped := by
  obtain ⟨given, hsub, hfut, hgrants, hwalk⟩ := h.walk
  refine ⟨(heappop_spec h.heap hpop).2.2, ?_, h.live, h.draining, h.nextSeq,
    h.invalidState, given, ?_, hfut, hgrants, ?_⟩
  · exact (List.nodup_cons.1 (nodup_of_heappop h hpop)).2
  · exact ((List.sublist_cons_self ..).append_left _).subperm.trans (sub_of_heappop hsub hpop)
  · have hline := line_of_heappop h hpop
    rw [if_neg (by simp [Scheduler.live, hdone])] at hline
    rw [hwalk, hline]
    rfl

theorem Walking.skip (h : Walking cfg s₀ s skipped)
    (hpop : heappop Waiter.key s.waiting = some (waiter, rest)) (hfree : s.free ≠ [])
    (hdone : (s.futures waiter.seq).done = false)
    (hblocked : eligible cfg s waiter.job = false) :
    Walking cfg s₀ { s with waiting := rest } (skipped ++ [waiter]) := by
  obtain ⟨given, hsub, hfut, hgrants, hwalk⟩ := h.walk
  have hlive : s.live waiter = true := by simp [Scheduler.live, hdone]
  have hmove : (rest ++ (skipped ++ [waiter])).Perm (waiter :: (rest ++ skipped)) := by
    rw [← List.append_assoc]
    exact List.perm_append_singleton waiter _
  refine ⟨(heappop_spec h.heap hpop).2.2, ?_, ?_, h.draining, h.nextSeq,
    h.invalidState, given, ?_, hfut, hgrants, ?_⟩
  · exact (hmove.map Waiter.seq).nodup_iff.2 (nodup_of_heappop h hpop)
  · intro w hw
    rcases List.mem_append.1 hw with hw | hw
    · exact h.live w hw
    · rw [List.mem_singleton.1 hw]
      exact hlive
  · exact (hmove.append_left _).subperm.trans (sub_of_heappop hsub hpop)
  · have hline := line_of_heappop h hpop
    rw [if_pos hlive] at hline
    have hroom : (slotPolicy cfg).room (s.slots given) = true := by
      simpa [slotPolicy, slots] using hfree
    rw [hwalk, hline, Greedy.walk_skip hroom (a := waiter) hblocked, List.append_assoc]
    rfl

theorem Walking.grant {worker : String} {free : List String}
    (h : Walking cfg s₀ s skipped)
    (hpop : heappop Waiter.key s.waiting = some (waiter, rest))
    (hfree : s.free = worker :: free) (hdone : (s.futures waiter.seq).done = false)
    (hok : eligible cfg s waiter.job = true) :
    Walking cfg s₀
      (Scheduler.grant { s with waiting := rest, free := free } waiter worker rest skipped)
      skipped := by
  obtain ⟨given, hsub, hfut, hgrants, hwalk⟩ := h.walk
  have hnodup := nodup_of_heappop h hpop
  have hother : ∀ w ∈ rest ++ skipped, w.seq ≠ waiter.seq := by
    intro w hw heq
    exact (List.nodup_cons.1 hnodup).1 (heq ▸ List.mem_map_of_mem hw)
  rw [grant_of_pending (s := { s with waiting := rest, free := free }) hdone]
  refine ⟨(heappop_spec h.heap hpop).2.2, (List.nodup_cons.1 hnodup).2, ?_, h.draining,
    h.nextSeq, h.invalidState, given ++ [(waiter, worker)], ?_, ?_, ?_, ?_⟩
  · intro w hw
    have hne := hother w (List.mem_append_right rest hw)
    have := h.live w hw
    simpa [Scheduler.live, Function.update_of_ne hne] using this
  · rw [List.map_append, List.append_assoc]
    change (given.map Prod.fst ++ waiter :: (rest ++ skipped)).Subperm s₀.waiting
    exact sub_of_heappop hsub hpop
  · simp only [hfut, settle, List.foldl_append, List.foldl_cons, List.foldl_nil]
  · have hlast : s.granted ++ [(waiter, worker)] =
        s₀.granted ++ (given ++ [(waiter, worker)]) := by rw [hgrants, List.append_assoc]
    rw [← hlast]
    exact List.map_append
  · have hline := line_of_heappop h hpop
    rw [if_pos (by simp [Scheduler.live, hdone])] at hline
    have hroom : (slotPolicy cfg).room (s.slots given) = true := by
      simp [slotPolicy, slots, hfree]
    rw [hwalk, hline, Greedy.walk_take hroom (a := waiter) hok]
    have htake : (slotPolicy cfg).take (s.slots given) waiter
        = ⟨free, s.poolInuse.add waiter.job.pool 1, s.clientInuse.add waiter.job.client 1,
            given ++ [(waiter, worker)]⟩ := by
      simp [slotPolicy, slots, Slots.hand, hfree]
    have hsame : rest.filter s.live = rest.filter (fun w =>
        !(Function.update s.futures waiter.seq (.result worker) w.seq).done) := by
      refine List.filter_congr fun w hw => ?_
      rw [Function.update_of_ne (hother w (List.mem_append_left skipped hw))]
      rfl
    rw [htake, hsame]
    rfl

end Round

theorem walking_roundKeeps (s₀ : Scheduler) : RoundKeeps cfg (Walking cfg s₀) where
  drop := fun _ _ _ _ h hpop hdone => h.drop hpop hdone
  skip := fun _ _ _ _ h hpop hfree hdone hblocked => h.skip hpop hfree hdone hblocked
  grant := fun _ _ _ _ _ _ h hpop hfree hdone hok => h.grant hpop hfree hdone hok

/-- The outcome of the reference policy on `s`, as far as a scheduler shows
it: the free workers, the counters, the settled futures, the grants in
order and the line that stays.  The rest of `s` is unchanged. -/
structure FollowsReference (cfg : SchedulerConfig) (s s' : Scheduler) : Prop where
  free : s'.free = (reference cfg s).1.free
  poolInuse : s'.poolInuse = (reference cfg s).1.poolInuse
  clientInuse : s'.clientInuse = (reference cfg s).1.clientInuse
  futures : s'.futures = settle s.futures (reference cfg s).1.given
  granted : s'.granted = s.granted ++ (reference cfg s).1.given
  line : s'.line = (reference cfg s).2
  sub : ((reference cfg s).1.given.map Prod.fst ++ s'.waiting).Subperm s.waiting
  draining : s'.draining = s.draining
  nextSeq : s'.nextSeq = s.nextSeq
  invalidState : s'.invalidState = s.invalidState

/-- The walk from the end of the loop has nothing more to do. -/
private theorem walk_of_stop {s : Scheduler} (given : List Holding)
    (hstop : s.free = [] ∨ s.waiting = []) :
    Greedy.walk (slotPolicy cfg) (s.slots given) s.line = (s.slots given, s.line) := by
  rcases hstop with hfree | hwait
  · exact Greedy.walk_no_room (by simp [slotPolicy, slots, hfree]) _
  · have hline : s.line = [] := by
      rw [line, hwait]
      rfl
    rw [hline]
    rfl

/-- `_dispatch` on a well-formed queue is the reference policy, and it
leaves a well-formed queue. -/
theorem dispatch_spec {s : Scheduler} (h : s.WellFormed) :
    FollowsReference cfg s (dispatch cfg s) ∧ (dispatch cfg s).WellFormed := by
  obtain ⟨s', skipped, hdispatch, hwalking, hstop⟩ :=
    dispatch_rule (walking_roundKeeps s) (walking_start cfg h)
  obtain ⟨given, hsub, hfut, hgrants, href⟩ := hwalking.walk
  rw [walk_of_stop given hstop] at href
  have hperm := pushAll_waiting s' skipped
  have hnodup : ((s'.pushAll skipped).waiting.map Waiter.seq).Nodup :=
    (hperm.map Waiter.seq).nodup_iff.2 hwalking.nodup
  rw [hdispatch]
  refine ⟨?_, isHeap_pushAll hwalking.heap skipped, hnodup⟩
  have hgiven : (reference cfg s).1.given = given := by rw [href]; rfl
  refine
    { free := by rw [href]; rfl
      poolInuse := by rw [href]; rfl
      clientInuse := by rw [href]; rfl
      futures := by rw [hgiven]; exact hfut
      granted := by rw [hgiven]; exact hgrants
      line := ?_
      sub := by rw [hgiven]; exact (hperm.append_left _).subperm.trans hsub
      draining := hwalking.draining
      nextSeq := hwalking.nextSeq
      invalidState := hwalking.invalidState }
  -- both lists are the live waiters of the queue, and both are in key order
  have hlive : (skipped ++ s'.line).Perm (s'.pushAll skipped).line := by
    have hskip : skipped.filter s'.live = skipped := List.filter_eq_self.2 hwalking.live
    calc (skipped ++ s'.line).Perm (s'.waiting.filter s'.live ++ skipped.filter s'.live) := by
          rw [hskip]
          exact List.perm_append_comm.trans ((sortByKey_perm _ _).append_right _)
      _ |>.Perm ((s'.pushAll skipped).waiting.filter s'.live) := by
          rw [← List.filter_append]
          exact (hperm.filter s'.live).symm
      _ |>.Perm (s'.pushAll skipped).line := (sortByKey_perm _ _).symm
  have hrest : (reference cfg s).2 = skipped ++ s'.line := by rw [href]
  rw [hrest]
  refine (eq_of_perm_of_keyOrder hlive ?_ ?_ (sortByKey_pairwise _)).symm
  · have hkeys := nodup_key_of_nodup_seq hnodup
    refine (hlive.map Waiter.key).nodup_iff.2 ?_
    exact ((sortByKey_perm _ _).map Waiter.key).nodup_iff.2
      (hkeys.sublist (List.filter_sublist.map Waiter.key))
  · rw [← hrest]
    exact (sortByKey_pairwise _).sublist (Greedy.walk_sublist _ _)

/-! ## The grants of one dispatch -/

/-- The grants and the waiters that stay are the line. -/
theorem reference_perm (cfg : SchedulerConfig) (s : Scheduler) :
    ((reference cfg s).1.given.map Prod.fst ++ (reference cfg s).2).Perm s.line := by
  refine Greedy.walk_perm (fun t : Slots => t.given.map Prod.fst) ?_ (s.slots []) s.line
  intro t w hroom
  simp only [slotPolicy, Slots.hand] at hroom ⊢
  split
  · rename_i hfree
    simp [hfree] at hroom
  · simp

theorem mem_line {s : Scheduler} {w : Waiter} :
    w ∈ s.line ↔ w ∈ s.waiting ∧ s.live w = true := by
  rw [line, (sortByKey_perm Waiter.key _).mem_iff, List.mem_filter]

/-- A grant goes to a live waiter of the queue. -/
theorem mem_waiting_of_given {s : Scheduler} {h : Holding}
    (hh : h ∈ (reference cfg s).1.given) : h.1 ∈ s.waiting ∧ s.live h.1 = true := by
  refine mem_line.1 ((reference_perm cfg s).mem_iff.1 ?_)
  exact List.mem_append_left _ (List.mem_map_of_mem hh)

theorem WellFormed.nodup_line {s : Scheduler} (h : s.WellFormed) :
    (s.line.map Waiter.seq).Nodup := by
  refine ((sortByKey_perm Waiter.key _).map Waiter.seq).nodup_iff.2 ?_
  exact h.nodup.sublist (List.filter_sublist.map Waiter.seq)

theorem WellFormed.nodup_given {s : Scheduler} (h : s.WellFormed) :
    ((reference cfg s).1.given.map fun g => g.1.seq).Nodup := by
  have hn := ((reference_perm cfg s).map Waiter.seq).nodup_iff.2 h.nodup_line
  rw [List.map_append, List.map_map] at hn
  exact hn.of_append_left

private theorem settle_of_notMem (futures : Nat → Future) {given : List Holding} {i : Nat}
    (h : ∀ g ∈ given, g.1.seq ≠ i) : settle futures given i = futures i := by
  unfold settle
  induction given generalizing futures with
  | nil => rfl
  | cons g rest ih =>
    rw [List.foldl_cons, ih _ fun g' hg' => h g' (List.mem_cons_of_mem g hg'),
      Function.update_of_ne (h g (List.mem_cons_self ..)).symm]

private theorem settle_of_mem (futures : Nat → Future) {given : List Holding}
    (hn : (given.map fun g => g.1.seq).Nodup) {g : Holding} (hg : g ∈ given) :
    settle futures given g.1.seq = .result g.2 := by
  induction given generalizing futures with
  | nil => cases hg
  | cons g' rest ih =>
    rw [List.map_cons, List.nodup_cons] at hn
    rcases List.mem_cons.1 hg with rfl | hg
    · have hrest : ∀ g' ∈ rest, g'.1.seq ≠ g.1.seq := fun g' hg' heq =>
        hn.1 (heq ▸ List.mem_map_of_mem (f := fun g : Holding => g.1.seq) hg')
      have := settle_of_notMem (Function.update futures g.1.seq (.result g.2)) hrest
      rw [Function.update_self] at this
      exact this
    · exact ih _ hn.2 hg

section Futures

variable {s : Scheduler}

/-- A dispatch settles the futures of its grants. -/
theorem dispatch_futures_given (h : s.WellFormed) {g : Holding}
    (hg : g ∈ (reference cfg s).1.given) :
    (dispatch cfg s).futures g.1.seq = .result g.2 := by
  rw [(dispatch_spec h).1.futures]
  exact settle_of_mem _ h.nodup_given hg

/-- A dispatch leaves the other futures alone. -/
theorem dispatch_futures_other (h : s.WellFormed) {i : Nat}
    (hi : ∀ g ∈ (reference cfg s).1.given, g.1.seq ≠ i) :
    (dispatch cfg s).futures i = s.futures i := by
  rw [(dispatch_spec h).1.futures]
  exact settle_of_notMem _ hi

/-- A dispatch leaves a future alone that is done. -/
theorem dispatch_futures_done (h : s.WellFormed) {i : Nat} (hi : s.futures i ≠ .pending) :
    (dispatch cfg s).futures i = s.futures i := by
  refine dispatch_futures_other h fun g hg heq => hi ?_
  have := (mem_waiting_of_given hg).2
  simpa [live, heq] using this

/-- A dispatch leaves a future alone, or it gives a pending one a result. -/
theorem dispatch_futures_cases (h : s.WellFormed) (i : Nat) :
    (dispatch cfg s).futures i = s.futures i ∨
      s.futures i = .pending ∧ ∃ worker, (dispatch cfg s).futures i = .result worker := by
  by_cases hi : ∃ g ∈ (reference cfg s).1.given, g.1.seq = i
  · obtain ⟨g, hg, rfl⟩ := hi
    refine Or.inr ⟨?_, g.2, dispatch_futures_given h hg⟩
    simpa [live] using (mem_waiting_of_given hg).2
  · exact Or.inl (dispatch_futures_other h fun g hg heq => hi ⟨g, hg, heq⟩)

end Futures

end Scheduler

end OpendssGateway
