import OpendssGateway.Scheduler.Accounting

/-!
# No worker idles while an eligible job waits

A dispatch leaves no eligible waiter behind while a worker is free, and
nothing that happens between two dispatches makes a waiter eligible.  So
`Conserved` holds between any two steps.

It also decides what happens to a job that is eligible when it calls
`acquire`: all waiters before it are blocked, so it gets the free worker,
unless `max_queue` turned it away before anyone looked.
-/

namespace OpendssGateway

namespace Scheduler

variable {cfg : SchedulerConfig}

/-- While a worker is free, no live waiter is eligible. -/
def Conserved (cfg : SchedulerConfig) (s : Scheduler) : Prop :=
  s.free ≠ [] → ∀ w ∈ s.waiting, s.live w = true → eligible cfg s w.job = false

/-- A dispatch leaves no eligible waiter while a worker is free. -/
theorem conserved_dispatch {s : Scheduler} (h : s.WellFormed) :
    Conserved cfg (dispatch cfg s) := by
  have hspec : FollowsReference cfg s (dispatch cfg s) := (dispatch_spec h).1
  intro hfree w hw hlive
  have hleft : w ∈ (reference cfg s).2 := by
    rw [← hspec.line]
    exact mem_line.2 ⟨hw, hlive⟩
  have hroom : (slotPolicy cfg).room (reference cfg s).1 = true := by
    rw [hspec.free] at hfree
    simpa [slotPolicy] using hfree
  have hblocked := Greedy.walk_blocked slotPolicy_shrinking hroom hleft
  rw [eligible, hspec.poolInuse, hspec.clientInuse]
  exact hblocked

theorem Conserved.quiet {s s' : Scheduler} (h : Conserved cfg s) (hq : s.Quiet s') :
    Conserved cfg s' := by
  intro hfree w hw hlive
  have hf : s'.futures w.seq = .pending := by simpa [live] using hlive
  have hwas : s.live w = true := by
    rcases hq.futures w.seq with hsame | ⟨hp, -⟩
    · simp [live, ← hsame, hf]
    · simp [live, hp]
  have := h (hq.free ▸ hfree) w (hq.waiting w hw) hwas
  rw [eligible] at this ⊢
  rw [hq.poolInuse, hq.clientInuse]
  exact this

/-! ## An eligible newcomer -/

/-- `acquire` grants the job a worker before it first suspends. -/
def GrantedAtOnce (cfg : SchedulerConfig) (s : Scheduler) (job : Job) (now : ℚ) : Prop :=
  ∃ s' waiter worker, s.acquire cfg job now = .ok (s', waiter) ∧
    s'.futures waiter.seq = .result worker

/-- The walk of the dispatch reaches an eligible waiter when all others are
blocked, and hands it the head of the free list. -/
theorem given_of_others_blocked {s : Scheduler} (h : s.WellFormed) {w : Waiter} {worker : String}
    {free : List String} (hfree : s.free = worker :: free) (hw : w ∈ s.line)
    (hok : eligible cfg s w.job = true)
    (hothers : ∀ v ∈ s.line, v.seq ≠ w.seq → eligible cfg s v.job = false) :
    (w, worker) ∈ (reference cfg s).1.given := by
  obtain ⟨pre, post, hsplit⟩ := List.append_of_mem hw
  have hpre : ∀ v ∈ pre, (slotPolicy cfg).ok (s.slots []) v = false := by
    intro v hv
    refine hothers v (by rw [hsplit]; exact List.mem_append_left _ hv) fun heq => ?_
    have hn := h.nodup_line
    rw [hsplit, List.map_append, List.nodup_append] at hn
    exact hn.2.2 _ (List.mem_map_of_mem hv) _
      (List.mem_map_of_mem (List.mem_cons_self ..)) heq
  have hroom : (slotPolicy cfg).room (s.slots []) = true := by
    simp [slotPolicy, slots, hfree]
  have htake : (w, worker) ∈ (Slots.hand (s.slots []) w).given := by
    simp [Slots.hand, slots, hfree]
  rw [reference, hsplit, Greedy.walk_of_first hroom hpre hok]
  -- a grant that was made stays in the list
  refine Greedy.walk_invariant (fun t : Slots => (w, worker) ∈ t.given) ?_ htake post
  intro t v ht _ _
  simp only [slotPolicy, Slots.hand]
  split
  · exact ht
  · exact List.mem_append_left _ ht

end Scheduler

namespace Loop

variable {cfg : SchedulerConfig} {l l' : Loop}

theorem conserved_part (h : l.Coherent) (hcons : l.sched.Conserved cfg)
    (hp : Part cfg l l') : l'.sched.Conserved cfg := by
  cases hp with
  | tick | pickUp | raise => exact hcons
  | enter job waitS => exact Scheduler.conserved_dispatch (h.enter job waitS).wellFormed
  | interrupt i c expired cancelled hw => exact hcons.quiet (cancel_quiet h hw.1)
  | abandon i c => exact hcons.quiet (Scheduler.forget_quiet h.wellFormed c.waiter)
  | forget i c => exact hcons.quiet (Scheduler.forget_quiet h.wellFormed c.waiter)
  | handBack i c worker state hcall hheld hstate =>
    exact Scheduler.conserved_dispatch (h.handBack hcall hheld hstate).wellFormed
  | drain => exact hcons.quiet (Scheduler.drain_quiet l.sched)

theorem reachable_conserved (hr : (machine cfg).Reachable l) : l.sched.Conserved cfg := by
  refine (reachable_by_parts (fun l => l.Coherent ∧ l.sched.Conserved cfg)
    ⟨coherent_init, fun _ _ hw => by cases hw⟩ ?_ hr).2
  exact fun _ _ h hp => ⟨h.1.part hp, conserved_part h.1 h.2 hp⟩

/-- With nothing outstanding the counters are zero, so any job of a positive
concurrency in a pool with a positive cap is eligible. -/
theorem eligible_of_none_outstanding (hbal : Balanced cfg l) (hout : l.grantOrder = [])
    {job : Job} (hcap : ∀ cap, cfg.poolCaps job.pool = some cap → 1 ≤ cap)
    (hconc : 1 ≤ job.concurrency) : Scheduler.eligible cfg l.sched job = true := by
  have hpool : l.sched.poolInuse job.pool = 0 := by
    rw [hbal.pool job.pool, hout]
    rfl
  have hclient : l.sched.clientInuse job.client = 0 := by
    rw [hbal.client job.client, hout]
    rfl
  refine (Scheduler.eligibleAt_iff cfg).2 ⟨fun cap h => ?_, ?_⟩
  · rw [hpool]
    exact hcap cap h
  · rw [hclient]
    exact hconc

theorem free_of_none_outstanding (hbal : Balanced cfg l) (hout : l.grantOrder = []) :
    l.sched.free ≠ [] := by
  intro hfree
  have := hbal.workers
  rw [hout, hfree] at this
  exact cfg.nonempty (List.nil_perm.1 this)

/-- In every reachable state no live waiter is eligible while a worker is
free, and with positive caps and concurrencies nobody waits while nothing
is outstanding. -/
theorem work_conserved (hr : (machine cfg).Reachable l) :
    (l.sched.free ≠ [] → ∀ w ∈ l.sched.waiting, l.sched.live w = true →
      Scheduler.eligible cfg l.sched w.job = false) ∧
    ((∀ p cap, cfg.poolCaps p = some cap → 1 ≤ cap) →
      (∀ w ∈ l.sched.waiting, 1 ≤ w.job.concurrency) → l.outstanding = [] →
      ∀ w ∈ l.sched.waiting, l.sched.live w = false) := by
  have hcons := reachable_conserved hr
  refine ⟨hcons, fun hcaps hconc hout w hw => ?_⟩
  have hbal := reachable_balanced hr
  have hempty : l.grantOrder = [] :=
    List.nil_perm.1 (hout ▸ outstanding_perm (reachable_coherent hr))
  rw [← Bool.not_eq_true]
  intro hlive
  have hblocked := hcons (free_of_none_outstanding hbal hempty) w hw hlive
  rw [eligible_of_none_outstanding hbal hempty (hcaps w.job.pool) (hconc w hw)] at hblocked
  cases hblocked

theorem work_conserved_guestsQueued :
    guestsQueued.sched.free ≠ [] ∧ ∀ w ∈ guestsQueued.sched.waiting,
      guestsQueued.sched.live w = true →
      Scheduler.eligible smallConfig guestsQueued.sched w.job = false :=
  ⟨by decide, (work_conserved guestsQueued_reachable).1 (by decide)⟩

/-- The dispatch of an eligible newcomer grants it a worker. -/
theorem grantedAtOnce_of_room (h : l.Coherent) (hcons : l.sched.Conserved cfg)
    (hdraining : l.sched.draining = false) (hfree : l.sched.free ≠ []) {job : Job}
    (hok : Scheduler.eligible cfg l.sched job = true)
    (hroom : (l.sched.waiting.length : Int) < cfg.maxQueue) :
    l.sched.GrantedAtOnce cfg job l.now := by
  have hwf : (l.sched.enqueue (l.newWaiter job)).WellFormed := (h.enter job 0).wellFormed
  have hfut : (l.sched.enqueue (l.newWaiter job)).futures = l.sched.futures :=
    enter_futures h job 0
  obtain ⟨worker, free, hsplit⟩ := List.exists_cons_of_ne_nil hfree
  have hlive : ∀ v, (l.sched.enqueue (l.newWaiter job)).live v = l.sched.live v := by
    intro v
    rw [Scheduler.live, hfut]
    rfl
  have hgiven : (l.newWaiter job, worker) ∈
      (Scheduler.reference cfg (l.sched.enqueue (l.newWaiter job))).1.given := by
    refine Scheduler.given_of_others_blocked hwf hsplit ?_ hok ?_
    · refine Scheduler.mem_line.2 ⟨Scheduler.mem_enqueue_waiting.2 (Or.inl rfl), ?_⟩
      have hfresh : l.sched.futures (l.newWaiter job).seq = .pending :=
        h.freshFuture _ (Nat.le_refl _)
      rw [hlive, Scheduler.live, hfresh]
      rfl
    · intro v hv hne
      obtain ⟨hmem, hl⟩ := Scheduler.mem_line.1 hv
      rcases Scheduler.mem_enqueue_waiting.1 hmem with rfl | hmem
      · exact absurd rfl hne
      · exact hcons hfree v hmem ((hlive v).symm.trans hl)
  refine ⟨_, l.newWaiter job, worker, ?_, Scheduler.dispatch_futures_given hwf hgiven⟩
  rw [Scheduler.acquire, if_neg (by simp [hdraining]), if_neg (by omega)]
  rfl

/-- While a worker is free, an eligible job is granted one before it
suspends if and only if the queue is shorter than `max_queue`. -/
theorem eligible_granted_iff (hr : (machine cfg).Reachable l)
    (hdraining : l.sched.draining = false) (hfree : l.sched.free ≠ []) {job : Job}
    (hok : Scheduler.eligible cfg l.sched job = true) :
    l.sched.GrantedAtOnce cfg job l.now ↔ (l.sched.waiting.length : Int) < cfg.maxQueue := by
  refine ⟨fun ⟨s', waiter, worker, hacq, _⟩ => ?_,
    grantedAtOnce_of_room (reachable_coherent hr) (reachable_conserved hr) hdraining hfree hok⟩
  by_contra hfull
  rw [Scheduler.acquire, if_neg (by simp [hdraining]), if_pos (by omega)] at hacq
  cases hacq

/-- `smallConfig` with room for a second waiter. -/
def roomyConfig : SchedulerConfig :=
  { smallConfig with maxQueue := 2 }

/-- A guest runs, and another one waits for the guest cap. -/
def guestBlocked : Loop :=
  ((machine roomyConfig).run (init roomyConfig) guestsQueuedRun).getD (init roomyConfig)

theorem eligible_granted_iff_guestBlocked :
    (∃ w ∈ guestBlocked.sched.waiting,
      Scheduler.eligible roomyConfig guestBlocked.sched w.job = false) ∧
      guestBlocked.sched.GrantedAtOnce roomyConfig memberJob guestBlocked.now := by
  have hrun : (machine roomyConfig).run (init roomyConfig) guestsQueuedRun = some guestBlocked :=
    Transition.eq_some_getD _ (by decide +kernel)
  refine ⟨⟨_, List.mem_cons_self, by decide⟩, ?_⟩
  refine (eligible_granted_iff (Transition.Machine.reachable_of_run hrun) rfl (by decide)
    (by decide)).2 ?_
  have hroom : (guestBlocked.sched.waiting.length : Int) = 1 := by decide
  rw [hroom]
  decide

/-- A guest that waits for the guest cap fills the queue, and a member is
refused although a worker is free for it. -/
theorem queue_of_guests_refuses_member :
    ¬ ∀ (cfg : SchedulerConfig) (l : Loop) (job : Job), 1 ≤ cfg.maxQueue →
      (machine cfg).Reachable l → l.sched.draining = false → l.sched.free ≠ [] →
      Scheduler.eligible cfg l.sched job = true → l.sched.GrantedAtOnce cfg job l.now := by
  intro hclaim
  obtain ⟨s', waiter, worker, hacq, -⟩ :=
    hclaim smallConfig guestsQueued memberJob (by decide) guestsQueued_reachable rfl (by decide)
      (by decide)
  have hfull : guestsQueued.sched.acquire smallConfig memberJob guestsQueued.now =
      .error .queueFull := rfl
  rw [hfull] at hacq
  cases hacq

end Loop

end OpendssGateway
