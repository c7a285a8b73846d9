import OpendssGateway.Scheduler.Coherence

/-!
# Grants are fair

`Dispatch` says what one dispatch does.  This module says what it means
for a run.  Whenever a job is granted, the live waiters that precede it
are ineligible at that moment, and jobs that differ in nothing but their
arrival are granted in the order of arrival.

`Fair` is the invariant.  Its third part looks ahead: no live waiter of
the queue arrived before a grant that it is alike to.
-/

namespace OpendssGateway

open Heapq

/-- Jobs that the scheduler treats alike. -/
def Job.Alike (a b : Job) : Prop :=
  a.priority = b.priority ∧ a.pool = b.pool ∧ a.client = b.client ∧
    a.concurrency = b.concurrency

theorem Scheduler.eligible_of_alike {cfg : SchedulerConfig} {s : Scheduler} {a b : Job}
    (h : a.Alike b) : eligible cfg s a = eligible cfg s b := by
  obtain ⟨-, hpool, hclient, hconc⟩ := h
  unfold eligible eligibleAt
  rw [hpool, hclient, hconc]

namespace Scheduler

variable {cfg : SchedulerConfig}

/-- The grants so far are fair, with the waiters of `queue` still to come. -/
structure Fair (cfg : SchedulerConfig) (s : Scheduler) (queue : List Waiter) : Prop where
  priority : ∀ w ∈ queue, w.priority = w.job.priority
  first : ∀ g ∈ s.grants, ∀ v ∈ g.queue, v.key < g.waiter.key →
    eligibleAt cfg g.poolInuse g.clientInuse v.job = false
  order : s.grants.Pairwise fun g g' =>
    g.waiter.job.Alike g'.waiter.job → g.waiter.seq < g'.waiter.seq
  ahead : ∀ g ∈ s.grants, ∀ w ∈ queue, s.live w = true →
    g.waiter.job.Alike w.job → g.waiter.seq < w.seq

/-- Fewer waiters, and fewer live ones, are no less fair. -/
theorem Fair.shrink {s s' : Scheduler} {queue queue' : List Waiter} (h : Fair cfg s queue)
    (hgrants : s'.grants = s.grants) (hsub : ∀ w ∈ queue', w ∈ queue)
    (hlive : ∀ w ∈ queue', s'.live w = true → s.live w = true) : Fair cfg s' queue' where
  priority := fun w hw => h.priority w (hsub w hw)
  first := by
    rw [hgrants]
    exact h.first
  order := by
    rw [hgrants]
    exact h.order
  ahead := by
    rw [hgrants]
    exact fun g hg w hw hl => h.ahead g hg w (hsub w hw) (hlive w hw hl)

/-! ## One dispatch -/

/-- The invariant of the loop.  A waiter that was set aside stays
ineligible, because grants only raise the counters. -/
structure FairWalk (cfg : SchedulerConfig) (s₀ s : Scheduler) (skipped : List Waiter) :
    Prop where
  walking : Walking cfg s₀ s skipped
  fair : Fair cfg s (s.waiting ++ skipped)
  blocked : ∀ w ∈ skipped, eligible cfg s w.job = false

section Round

variable {s₀ s : Scheduler} {skipped rest : List Waiter} {waiter : Waiter}

theorem mem_queue_of_heappop (hpop : heappop Waiter.key s.waiting = some (waiter, rest))
    {w : Waiter} (hw : w ∈ rest ++ skipped) : w ∈ s.waiting ++ skipped := by
  rcases List.mem_append.1 hw with hw | hw
  · exact List.mem_append_left _ ((heappop_perm Waiter.key hpop).mem_iff.2
      (List.mem_cons_of_mem _ hw))
  · exact List.mem_append_right _ hw

theorem waiter_mem_of_heappop (hpop : heappop Waiter.key s.waiting = some (waiter, rest)) :
    waiter ∈ s.waiting ++ skipped :=
  List.mem_append_left _ ((heappop_perm Waiter.key hpop).mem_iff.2 (List.mem_cons_self ..))

theorem FairWalk.drop (h : FairWalk cfg s₀ s skipped)
    (hpop : heappop Waiter.key s.waiting = some (waiter, rest))
    (hdone : (s.futures waiter.seq).done = true) :
    FairWalk cfg s₀ { s with waiting := rest } skipped where
  walking := h.walking.drop hpop hdone
  fair := h.fair.shrink rfl (fun _ hw => mem_queue_of_heappop hpop hw) fun _ _ hl => hl
  blocked := h.blocked

theorem FairWalk.skip (h : FairWalk cfg s₀ s skipped)
    (hpop : heappop Waiter.key s.waiting = some (waiter, rest)) (hfree : s.free ≠ [])
    (hdone : (s.futures waiter.seq).done = false)
    (hblocked : eligible cfg s waiter.job = false) :
    FairWalk cfg s₀ { s with waiting := rest } (skipped ++ [waiter]) where
  walking := h.walking.skip hpop hfree hdone hblocked
  fair := by
    refine h.fair.shrink rfl (fun w hw => ?_) fun _ _ hl => hl
    rw [← List.append_assoc, List.mem_append, List.mem_singleton] at hw
    rcases hw with hw | rfl
    · exact mem_queue_of_heappop hpop hw
    · exact waiter_mem_of_heappop hpop
  blocked := by
    intro w hw
    rcases List.mem_append.1 hw with hw | hw
    · exact h.blocked w hw
    · rw [List.mem_singleton.1 hw]
      exact hblocked

theorem FairWalk.grant {worker : String} {free : List String}
    (h : FairWalk cfg s₀ s skipped)
    (hpop : heappop Waiter.key s.waiting = some (waiter, rest))
    (hfree : s.free = worker :: free) (hdone : (s.futures waiter.seq).done = false)
    (hok : eligible cfg s waiter.job = true) :
    FairWalk cfg s₀
      (Scheduler.grant { s with waiting := rest, free := free } waiter worker rest skipped)
      skipped := by
  have hwalking := h.walking.grant hpop hfree hdone hok
  have hmin : ∀ v ∈ rest, waiter.key ≤ v.key := fun v hv =>
    (heappop_spec h.walking.heap hpop).2.1 v
      ((heappop_perm Waiter.key hpop).mem_iff.2 (List.mem_cons_of_mem waiter hv))
  have hlive : s.live waiter = true := by simp [Scheduler.live, hdone]
  have hne : ∀ w ∈ rest ++ skipped, w.seq ≠ waiter.seq := fun w hw heq =>
    (List.nodup_cons.1 (nodup_of_heappop h.walking hpop)).1 (heq ▸ List.mem_map_of_mem hw)
  rw [grant_of_pending (s := { s with waiting := rest, free := free }) hdone] at hwalking ⊢
  -- the futures of the other waiters are untouched
  have hkept : ∀ w ∈ rest ++ skipped,
      (Function.update s.futures waiter.seq (.result worker)) w.seq = s.futures w.seq :=
    fun w hw => Function.update_of_ne (hne w hw) ..
  refine ⟨hwalking, ⟨?_, ?_, ?_, ?_⟩, ?_⟩
  · exact fun w hw => h.fair.priority w (mem_queue_of_heappop hpop hw)
  · intro g hg v hv hlt
    rcases List.mem_append.1 hg with hg | hg
    · exact h.fair.first g hg v hv hlt
    · rw [List.mem_singleton.1 hg] at hv hlt ⊢
      rcases List.mem_append.1 (List.mem_of_mem_filter hv) with hv | hv
      · exact absurd hlt (not_lt.2 (hmin v hv))
      · exact h.blocked v hv
  · refine List.pairwise_append.2 ⟨h.fair.order, List.pairwise_singleton .., ?_⟩
    intro g hg g' hg' halike
    rw [List.mem_singleton.1 hg'] at halike ⊢
    exact h.fair.ahead g hg waiter (waiter_mem_of_heappop hpop) hlive halike
  · intro g hg w hw hl halike
    have hl : s.live w = true := by
      change (!(Function.update s.futures waiter.seq (.result worker) w.seq).done) = true at hl
      rw [hkept w hw] at hl
      exact hl
    rcases List.mem_append.1 hg with hg | hg
    · exact h.fair.ahead g hg w (mem_queue_of_heappop hpop hw) hl halike
    · rw [List.mem_singleton.1 hg] at halike ⊢
      dsimp only at halike ⊢
      rcases List.mem_append.1 hw with hrest | hskip
      · have hkey := hmin w hrest
        have hp : waiter.priority = w.priority := by
          rw [h.fair.priority waiter (waiter_mem_of_heappop hpop),
            h.fair.priority w (mem_queue_of_heappop hpop hw)]
          exact halike.1
        have hseq := hne w hw
        rcases lt_or_gt_of_ne hseq with hlt | hlt
        · exact absurd (Waiter.key_lt_iff.2 (Or.inr ⟨hp.symm, hlt⟩)) (not_lt.2 hkey)
        · exact hlt
      · rw [eligible_of_alike halike] at hok
        rw [h.blocked w hskip] at hok
        cases hok
  · intro w hw
    have hblocked : eligibleAt cfg s.poolInuse s.clientInuse w.job = false := h.blocked w hw
    rw [← Bool.not_eq_true] at hblocked ⊢
    exact fun hok' =>
      hblocked (eligibleAt_mono cfg (Counter.le_add_one ..) (Counter.le_add_one ..) hok')

end Round

/-- A dispatch keeps the grants fair. -/
theorem Fair.dispatch {s : Scheduler} (hwf : s.WellFormed) (h : Fair cfg s s.waiting) :
    Fair cfg (dispatch cfg s) (dispatch cfg s).waiting := by
  have hkeeps : RoundKeeps cfg (FairWalk cfg s) :=
    { drop := fun _ _ _ _ h hpop hdone => h.drop hpop hdone
      skip := fun _ _ _ _ h hpop hfree hdone hblocked => h.skip hpop hfree hdone hblocked
      grant := fun _ _ _ _ _ _ h hpop hfree hdone hok => h.grant hpop hfree hdone hok }
  have hstart : FairWalk cfg s s [] :=
    ⟨walking_start cfg hwf, by rw [List.append_nil]; exact h, fun _ hw => by cases hw⟩
  obtain ⟨s', skipped, hdispatch, hwalk, -⟩ := dispatch_rule hkeeps hstart
  rw [hdispatch]
  exact hwalk.fair.shrink rfl (fun w hw => (pushAll_waiting s' skipped).mem_iff.1 hw)
    fun _ _ hl => hl

theorem Fair.quiet {s s' : Scheduler} (h : Fair cfg s s.waiting) (hq : s.Quiet s') :
    Fair cfg s' s'.waiting := by
  refine h.shrink hq.grants hq.waiting fun w _ hl => ?_
  have hl : s'.futures w.seq = .pending := by simpa [live] using hl
  rcases hq.futures w.seq with hf | ⟨hp, -⟩
  · simp [live, ← hf, hl]
  · simp [live, hp]

end Scheduler

namespace Loop

variable {cfg : SchedulerConfig} {l l' : Loop}

/-- A new waiter arrives after every grant. -/
theorem fair_enter (h : l.Coherent) (hfair : l.sched.Fair cfg l.sched.waiting) (job : Job)
    (waitS : ℚ) : (l.enter (l.newWaiter job) waitS).sched.Fair cfg
      (l.enter (l.newWaiter job) waitS).sched.waiting := by
  have hwaiting : ∀ v, v ∈ (l.enter (l.newWaiter job) waitS).sched.waiting ↔
      v = l.newWaiter job ∨ v ∈ l.sched.waiting := fun v => Scheduler.mem_enqueue_waiting
  have hfut := enter_futures h job waitS
  refine ⟨fun w hw => ?_, hfair.first, hfair.order, fun g hg w hw hl halike => ?_⟩
  · rcases (hwaiting w).1 hw with rfl | hw
    · rfl
    · exact hfair.priority w hw
  · rcases (hwaiting w).1 hw with rfl | hw
    · exact h.granted_lt (g := g.holding) (List.mem_map_of_mem hg)
    · rw [Scheduler.live, hfut] at hl
      exact hfair.ahead g hg w hw hl halike

theorem fair_part (h : l.Coherent) (hfair : l.sched.Fair cfg l.sched.waiting)
    (hp : Part cfg l l') : l'.sched.Fair cfg l'.sched.waiting := by
  cases hp with
  | tick | pickUp | raise => exact hfair
  | enter job waitS =>
    exact Scheduler.Fair.dispatch (h.enter job waitS).wellFormed (fair_enter h hfair job waitS)
  | interrupt i c expired cancelled hw => exact hfair.quiet (cancel_quiet h hw.1)
  | abandon i c => exact hfair.quiet (Scheduler.forget_quiet h.wellFormed c.waiter)
  | forget i c => exact hfair.quiet (Scheduler.forget_quiet h.wellFormed c.waiter)
  | handBack i c worker state hcall hheld hstate =>
    exact Scheduler.Fair.dispatch (h.handBack hcall hheld hstate).wellFormed
      (hfair.shrink rfl (fun _ hw => hw) fun _ _ hl => hl)
  | drain => exact hfair.quiet (Scheduler.drain_quiet l.sched)

theorem reachable_fair (hr : (machine cfg).Reachable l) :
    l.sched.Fair cfg l.sched.waiting := by
  refine (reachable_by_parts
    (fun l => l.Coherent ∧ l.sched.Fair cfg l.sched.waiting) ⟨coherent_init, ?_⟩ ?_ hr).2
  · exact ⟨fun _ hw => (by cases hw), fun _ hg => (by cases hg), List.Pairwise.nil,
      fun _ hg => (by cases hg)⟩
  · exact fun _ _ h hp => ⟨h.1.part hp, fair_part h.1 h.2 hp⟩

/-- The schedulers on which the methods call `_dispatch`: after a push, after
a worker came back, and after a worker came back from a call that gave up. -/
inductive DispatchedAt (l : Loop) : Scheduler → Prop
  | between : DispatchedAt l l.sched
  | acquire (job : Job) : DispatchedAt l (l.sched.enqueue (l.newWaiter job))
  | release (worker : String) (job : Job) : DispatchedAt l (l.sched.reclaim worker job)
  | giveUp (w : Waiter) (worker : String) (job : Job) :
      DispatchedAt l ((l.sched.forget w).reclaim worker job)

theorem DispatchedAt.wellFormed (h : l.Coherent) {s : Scheduler} (hs : l.DispatchedAt s) :
    s.WellFormed := by
  cases hs with
  | between => exact h.wellFormed
  | acquire job => exact (h.enter job 0).wellFormed
  | release => exact ⟨h.wellFormed.heap, h.wellFormed.nodup⟩
  | giveUp w worker job =>
    have := (Scheduler.forget_spec h.wellFormed w).1
    exact ⟨this.heap, this.nodup⟩

/-- In every run a dispatch has the outcome of the reference policy, every
grant was made while the live waiters before it were ineligible, and jobs
that are alike were granted in the order of arrival. -/
theorem dispatch_refines_reference (hr : (machine cfg).Reachable l) :
    (∀ s, l.DispatchedAt s → Scheduler.FollowsReference cfg s (Scheduler.dispatch cfg s)) ∧
    (∀ g ∈ l.sched.grants, ∀ v ∈ g.queue, v.key < g.waiter.key →
      Scheduler.eligibleAt cfg g.poolInuse g.clientInuse v.job = false) ∧
    l.sched.grants.Pairwise fun g g' =>
      g.waiter.job.Alike g'.waiter.job → g.waiter.seq < g'.waiter.seq := by
  have hc := reachable_coherent hr
  have hfair := reachable_fair hr
  exact ⟨fun s hs => (Scheduler.dispatch_spec (hs.wellFormed hc)).1, hfair.first, hfair.order⟩

theorem dispatch_refines_reference_guestsQueued :
    Scheduler.FollowsReference smallConfig guestsQueued.sched
      (Scheduler.dispatch smallConfig guestsQueued.sched) :=
  (dispatch_refines_reference guestsQueued_reachable).1 _ DispatchedAt.between

end Loop

end OpendssGateway
