import OpendssGateway.Scheduler.Loop

/-!
# The calls and the scheduler agree

`Coherent` ties the queue, the futures and the history of the scheduler
to the calls of `acquire`.  A queued waiter belongs to a call that waits,
a future with a result belongs to exactly one grant, and a call that
holds a worker holds the one of its future.

Every part of a step keeps it (`Coherent.part`), so it holds in every
reachable state (`reachable_coherent`).
-/

namespace OpendssGateway

namespace Loop

variable {cfg : SchedulerConfig}

/-- The invariant of the scheduler and its calls. -/
structure Coherent (l : Loop) : Prop where
  wellFormed : l.sched.WellFormed
  filed : l.Filed
  freshCall : ∀ i, l.sched.nextSeq ≤ i → l.calls i = none
  freshFuture : ∀ i, l.sched.nextSeq ≤ i → l.sched.futures i = .pending
  queued : ∀ w ∈ l.sched.waiting, ∃ c, l.Waits w.seq c ∧ c.waiter = w
  unsettled : ∀ w ∈ l.sched.waiting,
    l.sched.futures w.seq = .pending ∨ l.sched.futures w.seq = .cancelled
  pending : ∀ i c, l.calls i = some c → l.sched.futures i = .pending →
    c.waiter ∈ l.sched.waiting
  nodup : (l.sched.granted.map fun h => h.1.seq).Nodup
  granted : ∀ h ∈ l.sched.granted, l.sched.futures h.1.seq = .result h.2 ∧
    ∃ c, l.calls h.1.seq = some c ∧ c.waiter = h.1
  results : ∀ i worker, l.sched.futures i = .result worker →
    ∃ h ∈ l.sched.granted, h.1.seq = i
  leased : ∀ i c worker waited released, l.calls i = some c →
    c.state = .leased worker waited released → l.sched.futures i = .result worker
  valid : l.sched.invalidState = false

theorem coherent_init : (init cfg).Coherent where
  wellFormed := ⟨Heapq.isHeap_nil, List.nodup_nil⟩
  filed := init_filed
  freshCall := fun _ _ => rfl
  freshFuture := fun _ _ => rfl
  queued := fun _ h => by cases h
  unsettled := fun _ h => by cases h
  pending := fun _ _ h => by cases h
  nodup := List.nodup_nil
  granted := fun _ h => by cases h
  results := fun _ _ h => by cases h
  leased := fun _ _ _ _ _ h => by cases h
  valid := rfl

/-! ## What a call holds -/

theorem held_of_calls {l : Loop} {i : Nat} {c : Call} (h : l.calls i = some c) :
    l.held i = c.held (l.sched.futures i) := by
  rw [held, h]
  rfl

theorem held_of_no_call {l : Loop} {i : Nat} (h : l.calls i = none) : l.held i = none := by
  rw [held, h]
  rfl

theorem held_setCall (l : Loop) (i : Nat) (c : Call) (j : Nat) :
    (l.setCall i c).held j = if j = i then c.held (l.sched.futures i) else l.held j := by
  rw [held, setCall_calls]
  split
  · rename_i h
    rw [h]
    rfl
  · rfl

theorem Call.held_eq_none_of_returned {c : Call} {worker : String}
    (h : c.state.Returned worker) (f : Future) : c.held f = none := by
  rcases h with h | ⟨waited, h⟩ <;> cases f <;> simp [Call.held, h]

/-- A call that waits holds the result of its future. -/
theorem Waits.held {l : Loop} {i : Nat} {c : Call} (h : l.Waits i c) :
    l.held i = match l.sched.futures i with
      | .result worker => some (c.waiter, worker)
      | _ => none := by
  obtain ⟨hcall, expired, cancelled, hstate⟩ := h
  rw [held_of_calls hcall]
  cases l.sched.futures i <;> simp [Call.held, hstate]

section Coherent

variable {l : Loop} {i : Nat} {c : Call}

/-- What a call holds is its waiter and the result of its future. -/
theorem Coherent.of_held (h : l.Coherent) (hcall : l.calls i = some c) {g : Holding}
    (hheld : c.held (l.sched.futures i) = some g) :
    g.1 = c.waiter ∧ l.sched.futures i = .result g.2 := by
  cases hstate : c.state with
  | waiting expired cancelled =>
    cases hf : l.sched.futures i <;>
      simp only [Call.held, hstate, hf, reduceCtorEq, Option.some.injEq] at hheld
    subst hheld
    exact ⟨rfl, rfl⟩
  | leased worker waited released =>
    have hres := h.leased i c worker waited released hcall hstate
    cases released
    · simp only [Call.held, hstate, hres, Option.some.injEq] at hheld
      subst hheld
      exact ⟨rfl, hres⟩
    · simp [Call.held, hstate, hres] at hheld
  | raised e => simp [Call.held, hstate] at hheld

/-- A pending future belongs to a call that waits in the queue. -/
theorem Coherent.waits_of_pending (h : l.Coherent) (hcall : l.calls i = some c)
    (hf : l.sched.futures i = .pending) : l.Waits i c := by
  obtain ⟨d, hw, hd⟩ := h.queued c.waiter (h.pending i c hcall hf)
  rw [h.filed i c hcall] at hw
  have := hw.1
  rw [hcall] at this
  cases this
  exact hw

theorem Coherent.seq_lt (h : l.Coherent) (hcall : l.calls i = some c) : i < l.sched.nextSeq := by
  by_contra hlt
  rw [h.freshCall i (Nat.not_lt.1 hlt)] at hcall
  cases hcall

theorem Coherent.queued_lt (h : l.Coherent) {w : Waiter} (hw : w ∈ l.sched.waiting) :
    w.seq < l.sched.nextSeq := by
  obtain ⟨c, hc, -⟩ := h.queued w hw
  exact h.seq_lt hc.1

theorem Coherent.granted_lt (h : l.Coherent) {g : Holding} (hg : g ∈ l.sched.granted) :
    g.1.seq < l.sched.nextSeq := by
  obtain ⟨-, c, hc, -⟩ := h.granted g hg
  exact h.seq_lt hc

/-- The queue holds the waiter of a call under no other waiter's number. -/
theorem Coherent.eq_of_queued (h : l.Coherent) (hcall : l.calls i = some c) {w : Waiter}
    (hw : w ∈ l.sched.waiting) (hseq : w.seq = i) : c.waiter = w := by
  obtain ⟨d, hd, hdw⟩ := h.queued w hw
  rw [hseq] at hd
  have := hd.1
  rw [hcall] at this
  cases this
  exact hdw

end Coherent

/-! ## Each part keeps the invariant -/

theorem waits_setCall_of_ne {l : Loop} {i j : Nat} (hj : j ≠ i) (c : Call) {d : Call} :
    (l.setCall i c).Waits j d ↔ l.Waits j d := by
  rw [Waits, setCall_calls, if_neg hj]
  rfl

theorem waits_setCall_self {l : Loop} {i : Nat} {c : Call} {expired cancelled : Bool}
    (h : c.state = .waiting expired cancelled) : (l.setCall i c).Waits i c :=
  ⟨by rw [setCall_calls, if_pos rfl], expired, cancelled, h⟩

section Parts

variable {l : Loop} {i : Nat} {c : Call}

/-- A call whose future is settled moves on. -/
theorem Coherent.setCall (h : l.Coherent) (hcall : l.calls i = some c) {state : CallState}
    (hpending : l.sched.futures i ≠ .pending)
    (hqueued : (∃ expired cancelled, state = .waiting expired cancelled) ∨
      ∀ w ∈ l.sched.waiting, w.seq ≠ i)
    (hleased : ∀ worker waited released, state = .leased worker waited released →
      l.sched.futures i = .result worker) :
    (l.setCall i { c with state := state }).Coherent where
  wellFormed := h.wellFormed
  filed := h.filed.setCall (h.filed i c hcall)
  freshCall := by
    intro j hj
    rw [setCall_calls, if_neg (Nat.ne_of_gt (lt_of_lt_of_le (h.seq_lt hcall) hj))]
    exact h.freshCall j hj
  freshFuture := h.freshFuture
  queued := by
    intro w hw
    obtain ⟨d, hd, hdw⟩ := h.queued w hw
    by_cases hseq : w.seq = i
    · rcases hqueued with ⟨expired, cancelled, rfl⟩ | hne
      · rw [hseq]
        exact ⟨_, waits_setCall_self rfl, h.eq_of_queued hcall hw hseq⟩
      · exact absurd hseq (hne w hw)
    · exact ⟨d, (waits_setCall_of_ne hseq _).2 hd, hdw⟩
  unsettled := h.unsettled
  pending := by
    intro j d hd hf
    rw [setCall_calls] at hd
    split at hd
    · rename_i hj
      exact absurd (hj ▸ hf) hpending
    · exact h.pending j d hd hf
  nodup := h.nodup
  granted := by
    intro g hg
    obtain ⟨hf, d, hd, hdg⟩ := h.granted g hg
    refine ⟨hf, ?_⟩
    rw [setCall_calls]
    split
    · rename_i hj
      rw [hj, hcall] at hd
      cases hd
      exact ⟨_, rfl, hdg⟩
    · exact ⟨d, hd, hdg⟩
  results := h.results
  leased := by
    intro j d worker waited released hd hstate
    rw [setCall_calls] at hd
    split at hd
    · rename_i hj
      cases hd
      rw [hj]
      exact hleased worker waited released hstate
    · exact h.leased j d worker waited released hd hstate
  valid := h.valid

/-- A settled future that is not cancelled is not queued. -/
theorem Coherent.not_queued (h : l.Coherent) (hpending : l.sched.futures i ≠ .pending)
    (hcancelled : l.sched.futures i ≠ .cancelled) : ∀ w ∈ l.sched.waiting, w.seq ≠ i := by
  intro w hw hseq
  rcases h.unsettled w hw with hf | hf
  · exact hpending (hseq ▸ hf)
  · exact hcancelled (hseq ▸ hf)

theorem Coherent.pickUp (h : l.Coherent) (hw : l.Waits i c) {worker : String}
    (hf : l.sched.futures i = .result worker) : (l.pickUp i c worker).Coherent := by
  refine h.setCall hw.1 (by simp [hf]) 
    (Or.inr (h.not_queued (by simp [hf]) (by simp [hf]))) ?_
  intro _ _ _ hstate
  cases hstate
  exact hf

theorem Coherent.raise (h : l.Coherent) (hw : l.Waits i c) {e : AcquireError}
    (hpending : l.sched.futures i ≠ .pending) (hqueued : ∀ w ∈ l.sched.waiting, w.seq ≠ i) :
    (l.raise i c e).Coherent :=
  h.setCall hw.1 hpending (Or.inr hqueued) fun _ _ _ hstate => by cases hstate

/-- A quiet change of the scheduler leaves what the calls hold. -/
theorem held_of_quiet (h : l.Coherent) {s : Scheduler} (hq : l.sched.Quiet s) :
    Loop.held { l with sched := s } = l.held := by
  funext j
  cases hcall : l.calls j with
  | none =>
    rw [held_of_no_call hcall]
    exact held_of_no_call hcall
  | some d =>
    rw [held_of_calls hcall]
    refine (held_of_calls (l := { l with sched := s }) hcall).trans ?_
    rcases hq.futures j with hf | ⟨hp, -, hf⟩
    · rw [hf]
    · obtain ⟨-, expired, cancelled, hstate⟩ := h.waits_of_pending hcall hp
      rcases hf with hf | ⟨e, hf⟩ <;> simp [Call.held, hstate, hp, hf]

/-- A quiet change keeps the invariant when the waiters that stay queued are
the ones that are pending or were cancelled. -/
theorem Coherent.quiet (h : l.Coherent) {s : Scheduler} (hq : l.sched.Quiet s)
    (hunsettled : ∀ w ∈ s.waiting, s.futures w.seq = .pending ∨ s.futures w.seq = .cancelled)
    (hpending : ∀ w ∈ l.sched.waiting, s.futures w.seq = .pending → w ∈ s.waiting) :
    Coherent { l with sched := s } where
  wellFormed := hq.wellFormed
  filed := h.filed
  freshCall := fun j hj => h.freshCall j (by rw [← hq.nextSeq]; exact hj)
  freshFuture := by
    intro j hj
    have hj : l.sched.nextSeq ≤ j := by rw [← hq.nextSeq]; exact hj
    rcases hq.futures j with hf | ⟨-, hmem, -⟩
    · exact hf.trans (h.freshFuture j hj)
    · obtain ⟨w, hw, hseq⟩ := List.mem_map.1 hmem
      have := h.queued_lt hw
      omega
  queued := fun w hw => h.queued w (hq.waiting w hw)
  unsettled := hunsettled
  pending := by
    intro j d hd hf
    have hf : s.futures j = .pending := hf
    have hwas : l.sched.futures j = .pending := by
      rcases hq.futures j with hf' | ⟨hp, -⟩
      · rw [← hf']
        exact hf
      · exact hp
    refine hpending d.waiter (h.pending j d hd hwas) ?_
    rw [h.filed j d hd]
    exact hf
  nodup := by
    change (List.map _ s.granted).Nodup
    rw [Scheduler.granted, hq.grants]
    exact h.nodup
  granted := by
    intro g hg
    have hg : g ∈ l.sched.granted := by
      rw [Scheduler.granted, ← hq.grants]
      exact hg
    exact ⟨(hq.result_iff _ _).2 (h.granted g hg).1, (h.granted g hg).2⟩
  results := by
    intro j worker hf
    change ∃ g ∈ s.granted, _
    rw [Scheduler.granted, hq.grants]
    exact h.results j worker ((hq.result_iff j worker).1 hf)
  leased := fun j d worker waited released hd hstate =>
    (hq.result_iff j worker).2 (h.leased j d worker waited released hd hstate)
  valid := hq.invalidState.trans h.valid

theorem Coherent.forget (h : l.Coherent) (hpending : l.sched.futures i ≠ .pending)
    (hcall : l.calls i = some c) : (l.forget c).Coherent := by
  have hq := Scheduler.forget_quiet h.wellFormed c.waiter
  refine h.quiet hq (fun w hw => ?_) fun w hw hf => ?_
  · rw [Scheduler.forget_futures]
    exact h.unsettled w (hq.waiting w hw)
  · rw [Scheduler.forget_futures] at hf
    refine ((Scheduler.forget_spec h.wellFormed c.waiter).2 w).2 ⟨hw, fun hkey => hpending ?_⟩
    rw [← h.filed i c hcall, ← Waiter.seq_eq_of_key_eq hkey]
    exact hf

theorem forget_not_queued (h : l.Coherent) (hcall : l.calls i = some c) :
    ∀ w ∈ (l.forget c).sched.waiting, w.seq ≠ i := by
  intro w hw hseq
  have hmem := ((Scheduler.forget_spec h.wellFormed c.waiter).2 w).1 hw
  exact hmem.2 (congrArg Waiter.key (h.eq_of_queued hcall hmem.1 hseq).symm)

theorem Coherent.drain (h : l.Coherent) : Coherent { l with sched := l.sched.drain } := by
  obtain ⟨heq, hfut⟩ := Scheduler.drain_spec l.sched
  refine h.quiet (Scheduler.drain_quiet l.sched) (fun w hw => ?_) fun w hw hf => ?_
  · rw [heq] at hw
    cases hw
  · rw [hfut w.seq] at hf
    split at hf
    · cases hf
    · rename_i hnot
      exact absurd ⟨hf, List.mem_map_of_mem hw⟩ hnot

theorem cancel_quiet (h : l.Coherent) (hcall : l.calls i = some c) :
    l.sched.Quiet (l.sched.cancelFuture i) := by
  refine Scheduler.cancelFuture_quiet h.wellFormed fun hp => ?_
  have hw := h.pending i c hcall hp
  exact h.filed i c hcall ▸ List.mem_map_of_mem hw

theorem Coherent.interrupt (h : l.Coherent) (hw : l.Waits i c) (expired cancelled : Bool) :
    (l.interrupt i c expired cancelled).Coherent := by
  have hfut := Scheduler.cancelFuture_futures l.sched i
  have hcancel : Coherent { l with sched := l.sched.cancelFuture i } := by
    refine h.quiet (cancel_quiet h hw.1) (fun w hq => ?_) fun w hq hf => ?_
    · rw [hfut]
      split
      · exact Or.inr rfl
      · exact h.unsettled w ((cancel_quiet h hw.1).waiting w hq)
    · unfold Scheduler.cancelFuture
      split <;> exact hq
  have hnot : (l.sched.cancelFuture i).futures i ≠ .pending := by
    rw [hfut]
    split
    · simp
    · rename_i hp
      exact fun hf => hp ⟨rfl, hf⟩
  exact hcancel.setCall hw.1 hnot (Or.inl ⟨expired, cancelled, rfl⟩)
    fun _ _ _ hstate => by cases hstate

/-! ### Entering the queue -/

/-- The waiter of a new call. -/
def newWaiter (l : Loop) (job : Job) : Waiter :=
  ⟨job.priority, l.sched.nextSeq, job, l.now⟩

theorem enter_futures (h : l.Coherent) (job : Job) (waitS : ℚ) :
    (l.enter (l.newWaiter job) waitS).sched.futures = l.sched.futures := by
  funext j
  change Function.update l.sched.futures l.sched.nextSeq .pending j = _
  rw [Function.update_apply]
  split
  · rename_i hj
    rw [hj, h.freshFuture _ (Nat.le_refl _)]
  · rfl

/-- A new call holds nothing, and the others hold what they held. -/
theorem held_enter (h : l.Coherent) (job : Job) (waitS : ℚ) :
    (l.enter (l.newWaiter job) waitS).held = l.held := by
  funext j
  unfold Loop.enter
  rw [held_setCall]
  split
  · rename_i hj
    have hnone := h.freshCall _ (Nat.le_refl _)
    have hf : (l.sched.enqueue (l.newWaiter job)).futures l.sched.nextSeq = .pending :=
      Function.update_self ..
    rw [hj, show (l.newWaiter job).seq = l.sched.nextSeq from rfl, held_of_no_call hnone]
    simp [Call.held, hf]
  · rename_i hj
    unfold Loop.held
    have hf : (l.sched.enqueue (l.newWaiter job)).futures j = l.sched.futures j :=
      Function.update_of_ne hj ..
    simp only [hf]

theorem Coherent.enter (h : l.Coherent) (job : Job) (waitS : ℚ) :
    (l.enter (l.newWaiter job) waitS).Coherent := by
  have hfut := enter_futures h job waitS
  have hwaiting : ∀ v, v ∈ (l.enter (l.newWaiter job) waitS).sched.waiting ↔
      v = l.newWaiter job ∨ v ∈ l.sched.waiting := fun v => Scheduler.mem_enqueue_waiting
  have hcalls : ∀ j, (l.enter (l.newWaiter job) waitS).calls j =
      if j = l.sched.nextSeq then some ⟨l.newWaiter job, waitS, .waiting false false⟩
      else l.calls j := fun j => setCall_calls _ _ _ _
  have hne : ∀ {j d}, l.calls j = some d → j ≠ l.sched.nextSeq := fun hd =>
    Nat.ne_of_lt (h.seq_lt hd)
  refine
    { wellFormed := ?wellFormed
      filed := Filed.setCall (l := { l with sched := _ }) h.filed rfl
      freshCall := ?freshCall
      freshFuture := ?freshFuture
      queued := ?queued
      unsettled := ?unsettled
      pending := ?pending
      nodup := h.nodup
      granted := ?granted
      results := by rw [hfut]; exact h.results
      leased := ?leased
      valid := h.valid }
  case wellFormed =>
    exact Scheduler.enqueue_wellFormed h.wellFormed fun v hv => Nat.ne_of_lt (h.queued_lt hv)
  case freshCall =>
    intro j hj
    have hj : l.sched.nextSeq + 1 ≤ j := hj
    rw [hcalls, if_neg (by omega)]
    exact h.freshCall j (by omega)
  case freshFuture =>
    intro j hj
    have hj : l.sched.nextSeq + 1 ≤ j := hj
    rw [hfut]
    exact h.freshFuture j (by omega)
  case queued =>
    intro v hv
    rcases (hwaiting v).1 hv with rfl | hv
    · exact ⟨_, ⟨(hcalls _).trans (if_pos rfl), false, false, rfl⟩, rfl⟩
    · obtain ⟨d, ⟨hd, hstate⟩, hdv⟩ := h.queued v hv
      exact ⟨d, ⟨(hcalls _).trans ((if_neg (hne hd)).trans hd), hstate⟩, hdv⟩
  case unsettled =>
    intro v hv
    rw [hfut]
    rcases (hwaiting v).1 hv with rfl | hv
    · exact Or.inl (h.freshFuture _ (Nat.le_refl _))
    · exact h.unsettled v hv
  case pending =>
    intro j d hd hf
    rw [hcalls] at hd
    rw [hfut] at hf
    refine (hwaiting _).2 ?_
    split at hd
    · cases hd
      exact Or.inl rfl
    · exact Or.inr (h.pending j d hd hf)
  case granted =>
    intro g hg
    obtain ⟨hf, d, hd, hdg⟩ := h.granted g hg
    rw [hfut]
    exact ⟨hf, d, (hcalls _).trans ((if_neg (hne hd)).trans hd), hdg⟩
  case leased =>
    intro j d worker waited released hd hstate
    rw [hcalls] at hd
    rw [hfut]
    split at hd
    · cases hd
      cases hstate
    · exact h.leased j d worker waited released hd hstate

/-! ### A dispatch -/

/-- A grant of a dispatch goes to a call that waits. -/
theorem waits_of_given (h : l.Coherent) {g : Holding}
    (hg : g ∈ (Scheduler.reference cfg l.sched).1.given) :
    ∃ c, l.Waits g.1.seq c ∧ c.waiter = g.1 ∧ l.sched.futures g.1.seq = .pending := by
  obtain ⟨hw, hlive⟩ := Scheduler.mem_waiting_of_given hg
  obtain ⟨c, hc, hcg⟩ := h.queued g.1 hw
  exact ⟨c, hc, hcg, by simpa [Scheduler.live] using hlive⟩

/-- After a dispatch a call holds its grant. -/
theorem held_redispatch_of_given (h : l.Coherent) {g : Holding}
    (hg : g ∈ (Scheduler.reference cfg l.sched).1.given) :
    (l.redispatch cfg).held g.1.seq = some g := by
  obtain ⟨c, hc, hcg, -⟩ := waits_of_given h hg
  have hc' : (l.redispatch cfg).Waits g.1.seq c := hc
  rw [hc'.held, show (l.redispatch cfg).sched.futures g.1.seq = _ from
    Scheduler.dispatch_futures_given h.wellFormed hg]
  simp only [hcg]

/-- The other calls hold what they held. -/
theorem held_redispatch_of_notMem (h : l.Coherent) {j : Nat}
    (hj : ∀ g ∈ (Scheduler.reference cfg l.sched).1.given, g.1.seq ≠ j) :
    (l.redispatch cfg).held j = l.held j := by
  unfold Loop.held
  rw [show (l.redispatch cfg).sched.futures j = l.sched.futures j from
    Scheduler.dispatch_futures_other h.wellFormed hj]
  rfl

/-- A waiter that stays in the queue was there before and got no grant. -/
theorem stays_of_redispatch (h : l.Coherent) {w : Waiter}
    (hw : w ∈ (l.redispatch cfg).sched.waiting) : w ∈ l.sched.waiting ∧
      ∀ g ∈ (Scheduler.reference cfg l.sched).1.given, g.1.seq ≠ w.seq := by
  have hspec : Scheduler.FollowsReference cfg l.sched (l.redispatch cfg).sched :=
    (Scheduler.dispatch_spec h.wellFormed).1
  refine ⟨hspec.sub.subset (List.mem_append_right _ hw), fun g hg heq => ?_⟩
  obtain ⟨sub, hperm, hsub⟩ := hspec.sub
  have hn := (hperm.map Waiter.seq).nodup_iff.1 (h.wellFormed.nodup.sublist (hsub.map _))
  rw [List.map_append, List.map_map, List.nodup_append] at hn
  exact hn.2.2 _ (List.mem_map_of_mem hg) _ (List.mem_map_of_mem hw) heq

/-- A call whose future is pending after a dispatch stays in the queue. -/
theorem queued_of_redispatch (h : l.Coherent) {j : Nat} {d : Call} (hd : l.calls j = some d)
    (hf : (l.redispatch cfg).sched.futures j = .pending) :
    d.waiter ∈ (l.redispatch cfg).sched.waiting := by
  have hspec : Scheduler.FollowsReference cfg l.sched (l.redispatch cfg).sched :=
    (Scheduler.dispatch_spec h.wellFormed).1
  have hnot : ∀ g ∈ (Scheduler.reference cfg l.sched).1.given, g.1.seq ≠ j := by
    intro g hg heq
    have hres : (l.redispatch cfg).sched.futures g.1.seq = .result g.2 :=
      Scheduler.dispatch_futures_given h.wellFormed hg
    rw [← heq, hres] at hf
    cases hf
  have hf : l.sched.futures j = .pending :=
    (Scheduler.dispatch_futures_other h.wellFormed hnot).symm.trans hf
  have hline : d.waiter ∈ l.sched.line := by
    refine Scheduler.mem_line.2 ⟨h.pending j d hd hf, ?_⟩
    simp [Scheduler.live, h.filed j d hd, hf]
  rcases List.mem_append.1 ((Scheduler.reference_perm cfg l.sched).mem_iff.2 hline)
    with hg | hrest
  · obtain ⟨g, hg, hgd⟩ := List.mem_map.1 hg
    exact absurd (by rw [hgd]; exact h.filed j d hd) (hnot g hg)
  · rw [← hspec.line] at hrest
    exact (Scheduler.mem_line.1 hrest).1

theorem Coherent.redispatch (h : l.Coherent) : (l.redispatch cfg).Coherent := by
  obtain ⟨hspec, hwf⟩ : Scheduler.FollowsReference cfg l.sched (l.redispatch cfg).sched ∧
      (l.redispatch cfg).sched.WellFormed := Scheduler.dispatch_spec h.wellFormed
  set given := (Scheduler.reference cfg l.sched).1.given with hgiven
  have hwaits : ∀ g ∈ given, ∃ c, l.Waits g.1.seq c ∧ c.waiter = g.1 ∧
      l.sched.futures g.1.seq = .pending := fun g hg => waits_of_given h hg
  have hother : ∀ j, (∀ g ∈ given, g.1.seq ≠ j) →
      (l.redispatch cfg).sched.futures j = l.sched.futures j :=
    fun j hj => Scheduler.dispatch_futures_other h.wellFormed hj
  have hmine : ∀ g ∈ given, (l.redispatch cfg).sched.futures g.1.seq = .result g.2 :=
    fun g hg => Scheduler.dispatch_futures_given h.wellFormed hg
  have hdone : ∀ j, l.sched.futures j ≠ .pending →
      (l.redispatch cfg).sched.futures j = l.sched.futures j :=
    fun j hj => Scheduler.dispatch_futures_done h.wellFormed hj
  refine
    { wellFormed := hwf
      filed := h.filed
      freshCall := fun j hj => h.freshCall j (hspec.nextSeq ▸ hj)
      freshFuture := ?freshFuture
      queued := fun w hw => h.queued w (stays_of_redispatch h hw).1
      unsettled := ?unsettled
      pending := ?pending
      nodup := ?nodup
      granted := ?granted
      results := ?results
      leased := ?leased
      valid := hspec.invalidState.trans h.valid }
  case freshFuture =>
    intro j hj
    have hj : l.sched.nextSeq ≤ j := hspec.nextSeq ▸ hj
    rw [hother j fun g hg heq => ?_]
    · exact h.freshFuture j hj
    · obtain ⟨c, hc, -⟩ := hwaits g hg
      have := h.seq_lt hc.1
      omega
  case unsettled =>
    intro w hw
    obtain ⟨hmem, hnot⟩ := stays_of_redispatch h hw
    rw [hother w.seq hnot]
    exact h.unsettled w hmem
  case pending =>
    intro j d hd hf
    exact queued_of_redispatch h hd hf
  case nodup =>
    rw [hspec.granted, List.map_append, List.nodup_append]
    refine ⟨h.nodup, h.wellFormed.nodup_given, fun a ha b hb heq => ?_⟩
    obtain ⟨g, hg, rfl⟩ := List.mem_map.1 ha
    obtain ⟨g', hg', rfl⟩ := List.mem_map.1 hb
    obtain ⟨-, -, -, hp⟩ := hwaits g' hg'
    rw [← heq, (h.granted g hg).1] at hp
    cases hp
  case granted =>
    intro g hg
    rw [hspec.granted] at hg
    rcases List.mem_append.1 hg with hg | hg
    · obtain ⟨hf, hd⟩ := h.granted g hg
      rw [hdone _ (by simp [hf])]
      exact ⟨hf, hd⟩
    · obtain ⟨c, hc, hcg, -⟩ := hwaits g hg
      exact ⟨hmine g hg, c, hc.1, hcg⟩
  case results =>
    intro j worker hf
    rw [hspec.granted]
    by_cases hj : ∃ g ∈ given, g.1.seq = j
    · obtain ⟨g, hg, hgj⟩ := hj
      exact ⟨g, List.mem_append_right _ hg, hgj⟩
    · rw [hother j fun g hg heq => hj ⟨g, hg, heq⟩] at hf
      obtain ⟨g, hg, hgj⟩ := h.results j worker hf
      exact ⟨g, List.mem_append_left _ hg, hgj⟩
  case leased =>
    intro j d worker waited released hd hstate
    have hf := h.leased j d worker waited released hd hstate
    rw [hdone j (by simp [hf])]
    exact hf

/-! ### Handing a worker back -/

/-- The call that hands its worker back holds nothing, and the others hold
what they held. -/
theorem held_handBack (i : Nat) (c : Call) {worker : String} {state : CallState}
    (hstate : state.Returned worker) (j : Nat) :
    (l.handBack i c worker state).held j = if j = i then none else l.held j := by
  unfold Loop.handBack
  rw [held_setCall]
  split
  · exact Call.held_eq_none_of_returned (by exact hstate) _
  · rfl

theorem Coherent.handBack (h : l.Coherent) (hcall : l.calls i = some c) {worker : String}
    (hheld : c.held (l.sched.futures i) = some (c.waiter, worker)) {state : CallState}
    (hstate : state.Returned worker) : (l.handBack i c worker state).Coherent := by
  have hf : l.sched.futures i = .result worker := (h.of_held hcall hheld).2
  have hnot := h.not_queued (i := i) (by simp [hf]) (by simp [hf])
  -- the counters and the free list are not part of the invariant
  have hreclaim : Coherent
      { l with
        sched := l.sched.reclaim worker c.waiter.job
        returned := l.returned ++ [i] } :=
    { h with wellFormed := ⟨h.wellFormed.heap, h.wellFormed.nodup⟩ }
  refine hreclaim.setCall hcall (by simp [Scheduler.reclaim, hf]) (Or.inr hnot) ?_
  intro worker' waited released heq
  rcases hstate with hstate | ⟨waited', hstate⟩
  · rw [hstate] at heq
    cases heq
  · rw [hstate] at heq
    cases heq
    exact hf

/-! ### Runs -/

theorem Coherent.part {l l' : Loop} (h : l.Coherent) (hp : Part cfg l l') : l'.Coherent := by
  cases hp with
  | tick => exact { h with }
  | enter job waitS => exact (h.enter job waitS).redispatch
  | interrupt i c expired cancelled hw => exact h.interrupt hw expired cancelled
  | pickUp i c worker hw hf => exact h.pickUp hw hf
  | raise i c e hw hf =>
    exact h.raise hw (by simp [hf]) (h.not_queued (by simp [hf]) (by simp [hf]))
  | abandon i c e hw hresult hpending =>
    have hf : (l.forget c).sched.futures = l.sched.futures := Scheduler.forget_futures _ _
    refine (h.forget hpending hw.1).raise (by exact hw) ?_ (forget_not_queued h hw.1)
    rw [hf]
    exact hpending
  | forget i c hw hpending => exact h.forget hpending hw.1
  | handBack i c worker state hcall hheld hstate =>
    exact (h.handBack hcall hheld hstate).redispatch
  | drain => exact h.drain

end Parts

theorem reachable_coherent {l : Loop} (h : (machine cfg).Reachable l) : l.Coherent :=
  reachable_by_parts Coherent coherent_init (fun _ _ hl hp => hl.part hp) h

end Loop

end OpendssGateway
