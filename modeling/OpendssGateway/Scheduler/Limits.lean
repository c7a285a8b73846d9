import OpendssGateway.Library.Ranked
import OpendssGateway.Scheduler.Accounting

/-!
# The limits hold in every run

`_eligible` checks a pool cap and a concurrency when a job is granted,
against counters that other jobs raise and lower.  `Limits` is what this
guarantees of the outstanding grants: a cap bounds the grants of its pool,
and the grants of one client are ranked by their own concurrency.  The
queue is bounded because a job enters it below `max_queue` only.
-/

namespace OpendssGateway

namespace Loop

variable {cfg : SchedulerConfig} {l l' : Loop}

/-- The caps and the concurrencies of the grants in `out`. -/
structure Limits (cfg : SchedulerConfig) (out : List Holding) : Prop where
  pool : ∀ p cap, cfg.poolCaps p = some cap → 0 ≤ cap →
    ((out.countP fun g => g.1.job.pool = p : Nat) : Int) ≤ cap
  client : ∀ k, Ranked (fun g : Holding => g.1.job.concurrency)
    (out.filter fun g => g.1.job.client = k)

theorem limits_nil : Limits cfg [] where
  pool := by
    intro p cap _ hcap
    simpa using hcap
  client := fun _ => Ranked.nil

/-- Grants may leave in any order. -/
theorem Limits.sublist {out out' : List Holding} (h : Limits cfg out) (hs : out'.Sublist out) :
    Limits cfg out' where
  pool := by
    intro p cap hcap hpos
    have := h.pool p cap hcap hpos
    have hle : out'.countP (fun g => g.1.job.pool = p) ≤ out.countP fun g => g.1.job.pool = p :=
      hs.countP_le
    omega
  client := fun k => (h.client k).sublist (hs.filter _)

/-- An eligible job may be granted. -/
theorem Limits.grant {out : List Holding} {free : List String}
    {poolInuse clientInuse : Counter String} (h : Limits cfg out)
    (hacc : Accounts cfg free poolInuse clientInuse out) {w : Waiter} (worker : String)
    (hok : Scheduler.eligibleAt cfg poolInuse clientInuse w.job = true) :
    Limits cfg (out ++ [(w, worker)]) := by
  obtain ⟨hpool, hclient⟩ := (Scheduler.eligibleAt_iff cfg).1 hok
  refine ⟨fun p cap hcap hpos => ?_, fun k => ?_⟩
  · rw [List.countP_append, List.countP_singleton]
    by_cases hp : w.job.pool = p
    · have hlt := hpool cap (hp ▸ hcap)
      have hcount : poolInuse p = (out.countP fun g => g.1.job.pool = p : Nat) := hacc.pool p
      rw [hp, hcount] at hlt
      simp only [hp, decide_true, if_pos]
      omega
    · simpa [hp] using h.pool p cap hcap hpos
  · rw [List.filter_append]
    by_cases hk : w.job.client = k
    · have hlt := hclient
      rw [hk, hacc.client k, List.countP_eq_length_filter] at hlt
      simpa [hk] using (h.client k).append (a := (w, worker)) hlt
    · simpa [hk] using h.client k

/-- The walk of a dispatch keeps the limits, together with the balance that
makes its checks mean what they say. -/
theorem Limits.reference {out : List Holding} {s : Scheduler} (h : Limits cfg out)
    (hacc : Accounts cfg s.free s.poolInuse s.clientInuse out) :
    Limits cfg (out ++ (Scheduler.reference cfg s).1.given) := by
  refine (Greedy.walk_invariant (fun t : Scheduler.Slots =>
    Accounts cfg t.free t.poolInuse t.clientInuse (out ++ t.given) ∧
      Limits cfg (out ++ t.given)) ?_ ?_ _).2
  · rintro t w ⟨hacc, hlim⟩ hroom hok
    cases hfree : t.free with
    | nil => simp [Scheduler.slotPolicy, hfree] at hroom
    | cons worker free =>
      simp only [Scheduler.slotPolicy, Scheduler.Slots.hand, hfree, ← List.append_assoc]
      exact ⟨Accounts.grant (hfree ▸ hacc), hlim.grant hacc worker hok⟩
  · rw [show (s.slots []).given = [] from rfl, List.append_nil]
    exact ⟨hacc, h⟩

theorem reachable_limits (hr : (machine cfg).Reachable l) : Limits cfg l.grantOrder := by
  refine (slots_rule (fun l => Balanced cfg l ∧ Limits cfg l.grantOrder)
    ⟨balanced_init, limits_nil⟩ ?_ ?_ ?_ hr).2
  · rintro l l' ⟨hbal, hlim⟩ hs
    exact ⟨hbal.sameSlots hs, by rw [hs.grantOrder]; exact hlim⟩
  · rintro l hc ⟨hbal, hlim⟩
    refine ⟨hbal.redispatch hc, ?_⟩
    rw [grantOrder_redispatch hc]
    exact hlim.reference hbal
  · rintro l i c worker state hc hcall hheld hstate ⟨hbal, hlim⟩
    refine ⟨hbal.handBack hc hcall hheld hstate, ?_⟩
    rw [grantOrder_handBack hstate]
    exact hlim.sublist List.filter_sublist

/-! ## The queue -/

theorem length_le_of_quiet {s s' : Scheduler} (h : s.Quiet s') :
    s'.waiting.length ≤ s.waiting.length :=
  (h.wellFormed.nodup.of_map.subperm h.waiting).length_le

theorem length_redispatch_le (h : l.Coherent) :
    (l.redispatch cfg).sched.waiting.length ≤ l.sched.waiting.length := by
  have hspec : Scheduler.FollowsReference cfg l.sched (l.redispatch cfg).sched :=
    (Scheduler.dispatch_spec h.wellFormed).1
  have := hspec.sub.length_le
  rw [List.length_append] at this
  omega

theorem reachable_queue_le (hqueue : 0 ≤ cfg.maxQueue) (hr : (machine cfg).Reachable l) :
    (l.sched.waiting.length : Int) ≤ cfg.maxQueue := by
  refine (reachable_by_parts
    (fun l => l.Coherent ∧ (l.sched.waiting.length : Int) ≤ cfg.maxQueue)
    ⟨coherent_init, hqueue⟩ ?_ hr).2
  rintro l l' ⟨h, hle⟩ hp
  refine ⟨h.part hp, ?_⟩
  have hquiet : ∀ {s : Scheduler}, l.sched.Quiet s → (s.waiting.length : Int) ≤ cfg.maxQueue :=
    fun hq => le_trans (Int.ofNat_le.2 (length_le_of_quiet hq)) hle
  cases hp with
  | tick | pickUp | raise => exact hle
  | enter job waitS hdraining hlt =>
    have hdisp : ((l.enter (l.newWaiter job) waitS).redispatch cfg).sched.waiting.length ≤ _ :=
      length_redispatch_le (h.enter job waitS)
    have hlen : (l.enter (l.newWaiter job) waitS).sched.waiting.length =
        l.sched.waiting.length + 1 :=
      (Scheduler.enqueue_waiting l.sched (l.newWaiter job)).length_eq
    exact le_trans (Int.ofNat_le.2 (hdisp.trans hlen.le)) (by exact_mod_cast hlt)
  | interrupt i c expired cancelled hw => exact hquiet (cancel_quiet h hw.1)
  | abandon i c e hw => exact hquiet (Scheduler.forget_quiet h.wellFormed c.waiter)
  | forget i c hw => exact hquiet (Scheduler.forget_quiet h.wellFormed c.waiter)
  | handBack i c worker state hcall hheld hstate =>
    exact le_trans (Int.ofNat_le.2 (length_redispatch_le (h.handBack hcall hheld hstate))) hle
  | drain => exact hquiet (Scheduler.drain_quiet l.sched)

/-- In every reachable state a capped pool has at most its cap of
outstanding grants, the `i`-th outstanding grant of a client went to a job
of concurrency at least `i`, and the queue is within `max_queue`. -/
theorem limits_kept (hcaps : ∀ p cap, cfg.poolCaps p = some cap → 0 ≤ cap)
    (hqueue : 0 ≤ cfg.maxQueue) (hr : (machine cfg).Reachable l) :
    (∀ p cap, cfg.poolCaps p = some cap →
      ((l.outstanding.countP fun g => g.1.job.pool = p : Nat) : Int) ≤ cap) ∧
    (∀ (k : String) (i : Nat) (g : Holding),
      (l.grantOrder.filter fun g => g.1.job.client = k)[i]? = some g →
      (i : Int) + 1 ≤ g.1.job.concurrency) ∧
    (∀ (k : String) (n : Nat),
      (∀ g ∈ l.outstanding, g.1.job.client = k → g.1.job.concurrency ≤ n) →
      (l.outstanding.countP fun g => g.1.job.client = k) ≤ n) ∧
    (l.sched.waiting.length : Int) ≤ cfg.maxQueue := by
  have hlim := reachable_limits hr
  have hperm := outstanding_perm (reachable_coherent hr)
  refine ⟨fun p cap hcap => ?_, fun k i g hg => hlim.client k i g hg, fun k n hn => ?_,
    reachable_queue_le hqueue hr⟩
  · rw [hperm.countP_eq]
    exact hlim.pool p cap hcap (hcaps p cap hcap)
  · rw [hperm.countP_eq, List.countP_eq_length_filter]
    refine (hlim.client k).length_le fun g hg => ?_
    obtain ⟨hmem, hk⟩ := List.mem_filter.1 hg
    exact hn g (hperm.mem_iff.2 hmem) (by simpa using hk)

theorem limits_kept_guestsQueued :
    ((guestsQueued.outstanding.countP fun g => g.1.job.pool = "guest" : Nat) : Int) ≤ 1 ∧
      (guestsQueued.sched.waiting.length : Int) ≤ 1 := by
  have hcaps : ∀ p cap, smallConfig.poolCaps p = some cap → 0 ≤ cap := by
    intro p cap hcap
    simp only [smallConfig, Option.ite_none_right_eq_some, Option.some.injEq] at hcap
    omega
  have hlimits := limits_kept hcaps (by decide) guestsQueued_reachable
  exact ⟨hlimits.1 "guest" 1 rfl, hlimits.2.2.2⟩

end Loop

end OpendssGateway
