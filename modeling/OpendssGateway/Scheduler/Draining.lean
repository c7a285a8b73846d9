import OpendssGateway.Scheduler.Accounting
import OpendssGateway.Scheduler.Evolution

/-!
# After a drain

`drain` refuses new work, fails the queue and then waits for the calls
that run.  The start of it is one step of the event loop; the rest are
rounds of a `while` loop, and `drainPoll` is one round.

`Shut` is what holds from then on: the scheduler drains and its queue is
empty.  So a dispatch does nothing, and all that still moves a worker is a
hand-back.  A future that the drain failed stays failed, and its call
raises `Draining` whatever interrupts it.  `drain_is_final` says all of this
of every continuation.
-/

namespace OpendssGateway

namespace Scheduler

variable (cfg : SchedulerConfig)

/-- One round of the `while` loop of `drain`: what `drain` returns, or `none`
when it sleeps again. -/
def drainPoll (s : Scheduler) (now deadline : ℚ) : Option Int :=
  if s.inflight cfg ≠ 0 ∧ now < deadline then none else some (s.inflight cfg)

variable {cfg}

theorem inflight_of_drainPoll {s : Scheduler} {now deadline : ℚ} {n : Int}
    (h : s.drainPoll cfg now deadline = some n) : s.inflight cfg = n := by
  unfold drainPoll at h
  split at h
  · cases h
  · exact Option.some.inj h

theorem dispatch_of_empty {s : Scheduler} (h : s.waiting = []) : dispatch cfg s = s := by
  unfold dispatch
  rw [h]
  simp

end Scheduler

namespace Loop

variable {cfg : SchedulerConfig} {l l' : Loop} {i : Nat}

/-! ## What no step takes back -/

/-- Time passes, a drain does not end, and a future that is done keeps what
it holds. -/
structure Later (l l' : Loop) : Prop where
  now : l.now ≤ l'.now
  draining : l.sched.draining = true → l'.sched.draining = true
  futures : ∀ i, l.sched.futures i ≠ .pending → l'.sched.futures i = l.sched.futures i

theorem Later.refl (l : Loop) : Later l l :=
  ⟨le_refl _, id, fun _ _ => rfl⟩

theorem Later.trans {l'' : Loop} (h : Later l l') (h' : Later l' l'') : Later l l'' where
  now := h.now.trans h'.now
  draining := fun hd => h'.draining (h.draining hd)
  futures := by
    intro i hdone
    have hsame := h.futures i hdone
    rw [h'.futures i (by rw [hsame]; exact hdone), hsame]

/-- A change of the scheduler that settles pending futures only. -/
theorem Later.sched {s : Scheduler} (hdraining : l.sched.draining = true → s.draining = true)
    (hfutures : ∀ i, l.sched.futures i ≠ .pending → s.futures i = l.sched.futures i) :
    Later l { l with sched := s } :=
  ⟨le_refl _, hdraining, hfutures⟩

theorem Later.of_quiet {s : Scheduler} (hq : l.sched.Quiet s)
    (hdraining : l.sched.draining = true → s.draining = true) : Later l { l with sched := s } := by
  refine Later.sched hdraining fun i hdone => ?_
  rcases hq.futures i with hf | ⟨hp, -⟩
  · exact hf
  · exact absurd hp hdone

theorem cancelFuture_draining (s : Scheduler) (i : Nat) :
    (s.cancelFuture i).draining = s.draining ∧ (s.cancelFuture i).waiting = s.waiting := by
  unfold Scheduler.cancelFuture
  split <;> exact ⟨rfl, rfl⟩

theorem forget_draining (s : Scheduler) (w : Waiter) :
    (s.forget w).draining = s.draining := by
  rw [Scheduler.forget_eq]

theorem later_redispatch (h : l.Coherent) : Later l (l.redispatch cfg) := by
  have hspec : Scheduler.FollowsReference cfg l.sched (l.redispatch cfg).sched :=
    (Scheduler.dispatch_spec h.wellFormed).1
  refine Later.sched (fun hd => hspec.draining.trans hd) fun i hdone => ?_
  exact Scheduler.dispatch_futures_done h.wellFormed hdone

theorem Part.later (h : l.Coherent) (hp : Part cfg l l') : Later l l' := by
  cases hp with
  | tick seconds hpos => exact ⟨by simpa using hpos, id, fun _ _ => rfl⟩
  | enter job waitS =>
    have henter : Later l (l.enter (l.newWaiter job) waitS) :=
      ⟨le_refl _, id, fun i _ => by rw [enter_futures h]⟩
    exact henter.trans (later_redispatch (h.enter job waitS))
  | interrupt i c expired cancelled hw =>
    have hd := (cancelFuture_draining l.sched i).1
    have hsched := Later.of_quiet (cancel_quiet h hw.1) (fun hdr => hd.trans hdr)
    exact ⟨hsched.now, hsched.draining, hsched.futures⟩
  | pickUp | raise => exact ⟨le_refl _, id, fun _ _ => rfl⟩
  | abandon i c =>
    have hsched := Later.of_quiet (Scheduler.forget_quiet h.wellFormed c.waiter)
      (fun hd => (forget_draining _ _).trans hd)
    exact ⟨hsched.now, hsched.draining, hsched.futures⟩
  | forget i c =>
    exact Later.of_quiet (Scheduler.forget_quiet h.wellFormed c.waiter)
      (fun hd => (forget_draining _ _).trans hd)
  | handBack i c worker state hcall hheld hstate =>
    have hback : Later l (l.handBack i c worker state) := ⟨le_refl _, id, fun _ _ => rfl⟩
    exact hback.trans (later_redispatch (h.handBack hcall hheld hstate))
  | drain =>
    refine Later.of_quiet (Scheduler.drain_quiet l.sched) fun _ => ?_
    rw [(Scheduler.drain_spec l.sched).1]

/-- What the parts of a step keep, the step keeps. -/
theorem next_keeps (I : Loop → Prop) (hpart : ∀ m m', m.Coherent → I m → Part cfg m m' → I m')
    (h : l.Coherent) (hI : I l) {a : Action} (hn : l.next cfg a = some l') :
    l'.Coherent ∧ I l' := by
  have hparts := next_parts h.filed hn
  clear hn
  induction hparts with
  | refl => exact ⟨h, hI⟩
  | tail _ hp ih => exact ⟨ih.1.part hp, hpart _ _ ih.1 ih.2 hp⟩

theorem Coherent.next (h : l.Coherent) {a : Action} (hn : l.next cfg a = some l') :
    l'.Coherent :=
  (next_keeps (fun _ => True) (fun _ _ _ _ _ => trivial) h trivial hn).1

theorem next_later (h : l.Coherent) {a : Action} (hn : l.next cfg a = some l') : Later l l' :=
  (next_keeps (Later l) (fun _ _ hc hl hp => hl.trans (hp.later hc)) h (Later.refl l) hn).2

/-- What the parts of a step keep, every continuation keeps. -/
theorem run_keeps (I : Loop → Prop) (hpart : ∀ m m', m.Coherent → I m → Part cfg m m' → I m')
    (h : l.Coherent) (hI : I l) {as : List Action} (hrun : (machine cfg).run l as = some l') :
    l'.Coherent ∧ I l' :=
  Transition.Machine.run_keeps (fun m => m.Coherent ∧ I m)
    (fun _ _ _ hm hn => next_keeps I hpart hm.1 hm.2 hn) ⟨h, hI⟩ hrun

/-! ## No worker moves but back -/

/-- The scheduler drains and its queue is empty. -/
structure Shut (l : Loop) : Prop where
  draining : l.sched.draining = true
  waiting : l.sched.waiting = []

theorem shut_drain (l : Loop) : Shut { l with sched := l.sched.drain } := by
  have heq := (Scheduler.drain_spec l.sched).1
  exact ⟨by rw [heq], by rw [heq]⟩

theorem redispatch_of_shut (h : Shut l) : l.redispatch cfg = l := by
  unfold Loop.redispatch
  rw [Scheduler.dispatch_of_empty h.waiting]

theorem Shut.part (h : l.Coherent) (hs : Shut l) (hp : Part cfg l l') : Shut l' := by
  have hdraining := (hp.later h).draining hs.draining
  refine ⟨hdraining, ?_⟩
  have hquiet : ∀ {s : Scheduler}, l.sched.Quiet s → s.waiting = [] := by
    intro s hq
    rw [List.eq_nil_iff_forall_not_mem]
    intro w hw
    have hmem := hq.waiting w hw
    rw [hs.waiting] at hmem
    cases hmem
  cases hp with
  | tick | pickUp | raise => exact hs.waiting
  | enter job waitS hopen =>
    rw [hs.draining] at hopen
    cases hopen
  | interrupt i c expired cancelled hw => exact hquiet (cancel_quiet h hw.1)
  | abandon i c | forget i c => exact hquiet (Scheduler.forget_quiet h.wellFormed c.waiter)
  | handBack i c worker state =>
    have hback : Shut (l.handBack i c worker state) := ⟨hs.draining, hs.waiting⟩
    rw [redispatch_of_shut hback]
    exact hs.waiting
  | drain => exact (shut_drain l).waiting

/-- Only a drain begins to drain. -/
theorem draining_or_shut (h : l.Coherent) (hp : Part cfg l l') :
    l'.sched.draining = l.sched.draining ∨ Shut l' := by
  have hdispatch : ∀ {m : Loop}, m.Coherent →
      (m.redispatch cfg).sched.draining = m.sched.draining :=
    fun hm => (Scheduler.dispatch_spec hm.wellFormed).1.draining
  cases hp with
  | tick | pickUp | raise => exact Or.inl rfl
  | enter job waitS => exact Or.inl (hdispatch (h.enter job waitS))
  | interrupt i => exact Or.inl (cancelFuture_draining l.sched i).1
  | abandon i c | forget i c => exact Or.inl (forget_draining l.sched c.waiter)
  | handBack i c worker state hcall hheld hstate =>
    exact Or.inl (hdispatch (h.handBack hcall hheld hstate))
  | drain => exact Or.inr (shut_drain l)

/-- While it drains the queue is empty. -/
theorem shut_next (h : l.Coherent) (hempty : l.sched.draining = true → l.sched.waiting = [])
    {a : Action} (hn : l.next cfg a = some l') :
    l'.sched.draining = true → l'.sched.waiting = [] := by
  refine (next_keeps (fun m => m.sched.draining = true → m.sched.waiting = []) ?_ h hempty hn).2
  intro m m' hm hI hp hdraining
  rcases draining_or_shut hm hp with hsame | hshut
  · have hwas : m.sched.draining = true := hsame.symm.trans hdraining
    exact (Shut.part hm ⟨hwas, hI hwas⟩ hp).waiting
  · exact hshut.waiting

/-- While it drains a part moves no worker, or it hands one back. -/
theorem Shut.slots (h : l.Coherent) (hs : Shut l) (hp : Part cfg l l') :
    l'.sched.granted = l.sched.granted ∧ l'.grantOrder.Sublist l.grantOrder := by
  rcases part_slots h hp with hsame | ⟨hopen, -⟩ |
    ⟨i, c, worker, state, hcall, hheld, hstate, rfl⟩
  · rw [hsame.grantOrder]
    exact ⟨hsame.granted, List.Sublist.refl _⟩
  · rw [hs.draining] at hopen
    cases hopen
  · have hback : Shut (l.handBack i c worker state) := ⟨hs.draining, hs.waiting⟩
    rw [redispatch_of_shut hback, grantOrder_handBack hstate]
    exact ⟨rfl, List.filter_sublist⟩

/-- Every continuation of a drain makes no grant, and outstanding grants only end. -/
theorem Shut.run (h : l.Coherent) (hs : Shut l) {as : List Action}
    (hrun : (machine cfg).run l as = some l') :
    l'.Coherent ∧ Shut l' ∧ l'.sched.granted = l.sched.granted ∧
      l'.grantOrder.Sublist l.grantOrder := by
  refine run_keeps (fun m => Shut m ∧ m.sched.granted = l.sched.granted ∧
    m.grantOrder.Sublist l.grantOrder) ?_ h ⟨hs, rfl, List.Sublist.refl _⟩ hrun
  rintro m m' hm ⟨hshut, hgranted, hsub⟩ hp
  obtain ⟨hgranted', hsub'⟩ := hshut.slots hm hp
  exact ⟨hshut.part hm hp, hgranted'.trans hgranted, hsub'.trans hsub⟩

/-! ## The waiters that the drain failed -/

/-- The call of `w` was failed by a drain, and has not ended otherwise. -/
def Failed (w : Waiter) (l : Loop) : Prop :=
  l.sched.futures w.seq = .exception .draining ∧ ∃ c, l.calls w.seq = some c ∧ c.waiter = w ∧
    (c.state = .raised .draining ∨ ∃ expired cancelled, c.state = .waiting expired cancelled)

theorem failed_of_drain (h : l.Coherent) {w : Waiter} (hw : w ∈ l.sched.waiting)
    (hlive : l.sched.live w = true) : Failed w { l with sched := l.sched.drain } := by
  obtain ⟨c, ⟨hcall, hstate⟩, hcw⟩ := h.queued w hw
  have hpending : l.sched.futures w.seq = .pending := by simpa [Scheduler.live] using hlive
  refine ⟨?_, c, hcall, hcw, Or.inr hstate⟩
  show l.sched.drain.futures w.seq = _
  rw [(Scheduler.drain_spec l.sched).2, if_pos ⟨hpending, List.mem_map_of_mem hw⟩]

/-- Nothing but `Draining` can come of a call that a drain failed. -/
theorem Failed.next (h : l.Coherent) {w : Waiter} (hw : Failed w l) {a : Action}
    (hn : l.next cfg a = some l') : Failed w l' := by
  obtain ⟨hf, c, hcall, hcw, hstate⟩ := hw
  refine ⟨((next_later h hn).futures w.seq (by simp [hf])).trans hf, ?_⟩
  obtain ⟨state, hcall', htakes⟩ := next_takes h hn hcall
  refine ⟨_, hcall', hcw, ?_⟩
  cases htakes with
  | same => exact hstate
  | expires | cancels => exact Or.inr ⟨_, _, rfl⟩
  | ends =>
    rw [hf]
    exact Or.inl rfl
  | releases hleased => simp [hleased] at hstate

/-- The call of `w` has raised `Draining`, or it can resume, and then raises it. -/
def RaisesDraining (cfg : SchedulerConfig) (l : Loop) (w : Waiter) : Prop :=
  ∃ c, l.calls w.seq = some c ∧ c.waiter = w ∧
    (c.state = .raised .draining ∨ ∃ l', l.next cfg (.resume w.seq) = some l' ∧
      l'.calls w.seq = some { c with state := .raised .draining })

theorem Failed.raises (h : l.Coherent) {w : Waiter} (hw : Failed w l) :
    l.RaisesDraining cfg w := by
  obtain ⟨hf, c, hcall, hcw, hstate⟩ := hw
  refine ⟨c, hcall, hcw, ?_⟩
  rcases hstate with hraised | ⟨expired, cancelled, hstate⟩
  · exact Or.inl hraised
  · have hresume : ∃ l', l.next cfg (.resume w.seq) = some l' := by
      simp only [Loop.next, hcall, hstate, Loop.resume, hf]
      cases expired || cancelled <;> exact ⟨_, rfl⟩
    obtain ⟨l', hn⟩ := hresume
    refine Or.inr ⟨l', hn, ?_⟩
    obtain ⟨state, hcall', htakes⟩ := next_takes h hn hcall
    cases htakes with
    | same _ hother => exact absurd rfl hother
    | ends =>
      rw [hf] at hcall'
      exact hcall'

theorem outstanding_length (h : l.Coherent) : l.outstanding.length = l.grantOrder.length :=
  (outstanding_perm h).length_eq

/-- With nothing outstanding all workers are free. -/
theorem free_of_inflight (hr : (machine cfg).Reachable l) (h : l.outstanding.length ≤ 0) :
    l.sched.free.Perm cfg.workers := by
  have hworkers := workers_outstanding hr
  rw [List.length_eq_zero_iff.1 (Nat.le_zero.1 h), List.map_nil, List.append_nil] at hworkers
  exact hworkers

/-- From the start of a drain on no waiter is granted a worker, the queue is empty,
`acquire` raises `Draining`, and so does every call that was live in the queue.
Outstanding grants only end, and when `drain` returns 0 all workers are free and
stay free. -/
theorem drain_is_final (hr : (machine cfg).Reachable l) {as : List Action}
    (hrun : (machine cfg).run { l with sched := l.sched.drain } as = some l') :
    l'.sched.granted = l.sched.granted ∧ l'.sched.waiting = [] ∧
    (∀ job now, l'.sched.acquire cfg job now = .error .draining) ∧
    (∀ w ∈ l.sched.waiting, l.sched.live w = true → l'.RaisesDraining cfg w) ∧
    l'.outstanding.length ≤ l.outstanding.length ∧
    ∀ bs l'', (machine cfg).run l' bs = some l'' →
      l''.outstanding.length ≤ l'.outstanding.length ∧
      ∀ timeout, l'.sched.drainPoll cfg l'.now (l.now + timeout) = some 0 →
        l''.sched.free.Perm cfg.workers := by
  have hc := reachable_coherent hr
  have hslots := sameSlots_of_quiet hc (Scheduler.drain_quiet l.sched)
  have hdrain : (machine cfg).Reachable { l with sched := l.sched.drain } :=
    reachable_next cfg hr (a := .drain) rfl
  have hr' : (machine cfg).Reachable l' := hdrain.of_run (fun _ _ _ => trivial) hrun
  obtain ⟨hc', hshut, hgranted, hsub⟩ := (shut_drain l).run hc.drain hrun
  refine ⟨hgranted.trans hslots.granted, hshut.waiting, fun job now => ?_, fun w hw hlive => ?_,
    ?_, fun bs l'' hrun' => ?_⟩
  · rw [Scheduler.acquire, if_pos hshut.draining]
  · have hfailed := Transition.Machine.run_keeps (fun m => m.Coherent ∧ Failed w m)
      (fun _ _ _ hm hn => ⟨hm.1.next hn, hm.2.next hm.1 hn⟩)
      ⟨hc.drain, failed_of_drain hc hw hlive⟩ hrun
    exact hfailed.2.raises hc'
  · rw [outstanding_length hc', outstanding_length hc, ← hslots.grantOrder]
    exact hsub.length_le
  · have hr'' : (machine cfg).Reachable l'' := hr'.of_run (fun _ _ _ => trivial) hrun'
    obtain ⟨hc'', -, -, hsub'⟩ := hshut.run hc' hrun'
    have hle : l''.outstanding.length ≤ l'.outstanding.length := by
      rw [outstanding_length hc'', outstanding_length hc']
      exact hsub'.length_le
    refine ⟨hle, fun timeout hpoll => free_of_inflight hr'' ?_⟩
    have hzero : (l'.outstanding.length : Int) = 0 := by
      rw [← inflight_eq_outstanding hr']
      exact Scheduler.inflight_of_drainPoll hpoll
    omega

/-- The second guest is cancelled in the tick of the drain, and the first one is done. -/
def cancelledInDrain : Loop :=
  ((machine smallConfig).run { guestsQueued with sched := guestsQueued.sched.drain }
    [.cancel 1, .release 0]).getD guestsQueued

theorem drain_is_final_guestsQueued :
    cancelledInDrain.RaisesDraining smallConfig ⟨10, 1, guestJob "ip:192.0.2.2", 0⟩ ∧
      cancelledInDrain.sched.free.Perm smallConfig.workers := by
  have hrun : (machine smallConfig).run { guestsQueued with sched := guestsQueued.sched.drain }
      [.cancel 1, .release 0] = some cancelledInDrain :=
    Transition.eq_some_getD guestsQueued (by decide +kernel)
  have hfinal := drain_is_final guestsQueued_reachable hrun
  refine ⟨hfinal.2.2.2.1 _ ?_ ?_, (hfinal.2.2.2.2.2 [] cancelledInDrain rfl).2 20 ?_⟩
  · decide +kernel
  · decide +kernel
  · decide +kernel

end Loop

end OpendssGateway
