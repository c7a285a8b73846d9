import OpendssGateway.Scheduler.Coherence

/-!
# Every worker is accounted for

The workers are the free ones and the ones of the outstanding grants, and
the two counters count the outstanding grants.

* `slots_rule` is the induction for statements about the free list, the
  counters and the outstanding grants.  Of all the parts of a step only
  two move a worker: a dispatch and a hand-back.
* `Accounts` is the balance, and `reachable_balanced` proves it for every
  run.
* `outstanding_perm` says that the history in grant order and the calls
  agree about what is outstanding.
-/

namespace OpendssGateway

namespace Loop

variable {cfg : SchedulerConfig} {l l' : Loop} {i : Nat} {c : Call}

/-! ## Outstanding grants -/

/-- What a call holds is a grant of the history. -/
theorem mem_granted_of_held (h : l.Coherent) {g : Holding} (hheld : l.held i = some g) :
    g ∈ l.sched.granted ∧ g.1.seq = i := by
  cases hcall : l.calls i with
  | none =>
    rw [held_of_no_call hcall] at hheld
    cases hheld
  | some c =>
    rw [held_of_calls hcall] at hheld
    obtain ⟨hg, hf⟩ := h.of_held hcall hheld
    obtain ⟨g', hg', hseq⟩ := h.results i g.2 hf
    obtain ⟨hf', d, hd, hdg⟩ := h.granted g' hg'
    rw [hseq, hcall] at hd
    rw [hseq, hf] at hf'
    cases hd
    have hsame : g' = g := Prod.ext (hdg.symm.trans hg.symm) (Future.result.inj hf').symm
    exact ⟨hsame ▸ hg', by rw [hg]; exact h.filed i c hcall⟩

theorem mem_grantOrder (h : l.Coherent) {g : Holding} :
    g ∈ l.grantOrder ↔ l.held g.1.seq = some g := by
  rw [grantOrder, List.mem_filter]
  constructor
  · rintro ⟨hg, hsome⟩
    obtain ⟨g', hg'⟩ := Option.isSome_iff_exists.1 hsome
    obtain ⟨hmem, hseq⟩ := mem_granted_of_held h hg'
    rw [hg', List.inj_on_of_nodup_map h.nodup hmem hg hseq]
  · intro hheld
    exact ⟨(mem_granted_of_held h hheld).1, by rw [hheld]; rfl⟩

theorem nodup_grantOrder (h : l.Coherent) : (l.grantOrder.map fun g => g.1.seq).Nodup :=
  h.nodup.sublist (List.filter_sublist.map _)

theorem mem_outstanding (h : l.Coherent) {g : Holding} :
    g ∈ l.outstanding ↔ l.held g.1.seq = some g := by
  rw [outstanding, List.mem_filterMap]
  constructor
  · rintro ⟨i, -, hheld⟩
    rw [(mem_granted_of_held h hheld).2]
    exact hheld
  · intro hheld
    exact ⟨g.1.seq, List.mem_range.2 (h.granted_lt (mem_granted_of_held h hheld).1), hheld⟩

/-- The history in grant order and the calls agree about what is
outstanding. -/
theorem outstanding_perm (h : l.Coherent) : l.outstanding.Perm l.grantOrder := by
  refine (List.perm_ext_iff_of_nodup ?_ (nodup_grantOrder h).of_map).2 fun g => ?_
  · refine List.Nodup.filterMap (fun i j g hi hj => ?_) List.nodup_range
    rw [← (mem_granted_of_held h hi).2, (mem_granted_of_held h hj).2]
  · rw [mem_outstanding h, mem_grantOrder h]

/-! ## What the parts do to the slots -/

/-- A part that moves no worker. -/
structure SameSlots (l l' : Loop) : Prop where
  free : l'.sched.free = l.sched.free
  poolInuse : l'.sched.poolInuse = l.sched.poolInuse
  clientInuse : l'.sched.clientInuse = l.sched.clientInuse
  granted : l'.sched.granted = l.sched.granted
  held : l'.held = l.held
  result : ∀ i worker, l'.sched.futures i = .result worker ↔ l.sched.futures i = .result worker
  returned : l'.returned = l.returned

theorem SameSlots.trans {l'' : Loop} (h : SameSlots l l') (h' : SameSlots l' l'') :
    SameSlots l l'' where
  free := h'.free.trans h.free
  poolInuse := h'.poolInuse.trans h.poolInuse
  clientInuse := h'.clientInuse.trans h.clientInuse
  granted := h'.granted.trans h.granted
  held := h'.held.trans h.held
  result := fun i worker => (h'.result i worker).trans (h.result i worker)
  returned := h'.returned.trans h.returned

theorem SameSlots.grantOrder (h : SameSlots l l') : l'.grantOrder = l.grantOrder := by
  rw [Loop.grantOrder, h.granted, h.held]
  rfl

theorem sameSlots_of_quiet (h : l.Coherent) {s : Scheduler} (hq : l.sched.Quiet s) :
    SameSlots l { l with sched := s } where
  free := hq.free
  poolInuse := hq.poolInuse
  clientInuse := hq.clientInuse
  granted := congrArg (List.map Grant.holding) hq.grants
  held := held_of_quiet h hq
  result := hq.result_iff
  returned := rfl

/-- A call that moves to a state in which it holds what it held. -/
theorem sameSlots_setCall {d : Call} (hheld : d.held (l.sched.futures i) = l.held i) :
    SameSlots l (l.setCall i d) where
  free := rfl
  poolInuse := rfl
  clientInuse := rfl
  granted := rfl
  held := by
    funext j
    rw [held_setCall]
    split
    · rename_i hj
      rw [hheld, hj]
    · rfl
  result := fun _ _ => Iff.rfl
  returned := rfl

theorem sameSlots_interrupt (h : l.Coherent) (hw : l.Waits i c) (expired cancelled : Bool) :
    SameSlots l (l.interrupt i c expired cancelled) := by
  refine (sameSlots_of_quiet h (cancel_quiet h hw.1)).trans (sameSlots_setCall ?_)
  rw [Waits.held (l := { l with sched := l.sched.cancelFuture i }) hw]
  dsimp only
  cases (l.sched.cancelFuture i).futures i <;> rfl

theorem sameSlots_pickUp (hw : l.Waits i c) {worker : String}
    (hf : l.sched.futures i = .result worker) : SameSlots l (l.pickUp i c worker) := by
  refine sameSlots_setCall ?_
  rw [hw.held, hf]
  rfl

theorem sameSlots_raise (hw : l.Waits i c)
    (hf : ∀ worker, l.sched.futures i ≠ .result worker) (e : AcquireError) :
    SameSlots l (l.raise i c e) := by
  refine sameSlots_setCall ?_
  rw [hw.held]
  cases hfi : l.sched.futures i with
  | result worker => exact absurd hfi (hf worker)
  | pending | exception | cancelled => rfl

theorem sameSlots_enter (h : l.Coherent) (job : Job) (waitS : ℚ) :
    SameSlots l (l.enter (l.newWaiter job) waitS) where
  free := rfl
  poolInuse := rfl
  clientInuse := rfl
  granted := rfl
  held := held_enter h job waitS
  result := fun i worker => by rw [enter_futures h]
  returned := rfl

/-- A dispatch appends its grants to the outstanding ones. -/
theorem grantOrder_redispatch (h : l.Coherent) :
    (l.redispatch cfg).grantOrder =
      l.grantOrder ++ (Scheduler.reference cfg l.sched).1.given := by
  have hspec : Scheduler.FollowsReference cfg l.sched (l.redispatch cfg).sched :=
    (Scheduler.dispatch_spec h.wellFormed).1
  rw [grantOrder, hspec.granted, List.filter_append]
  congr 1
  · refine List.filter_congr fun g hg => ?_
    rw [held_redispatch_of_notMem h fun g' hg' heq => ?_]
    obtain ⟨-, -, -, hp⟩ := waits_of_given h hg'
    rw [heq, (h.granted g hg).1] at hp
    cases hp
  · refine List.filter_eq_self.2 fun g hg => ?_
    rw [held_redispatch_of_given h hg]
    rfl

/-- A hand-back removes one outstanding grant. -/
theorem grantOrder_handBack {worker : String} {state : CallState}
    (hstate : state.Returned worker) :
    (l.handBack i c worker state).grantOrder = l.grantOrder.filter fun g => g.1.seq ≠ i := by
  rw [grantOrder, grantOrder, List.filter_filter]
  refine List.filter_congr fun g _ => ?_
  rw [held_handBack i c hstate]
  by_cases hg : g.1.seq = i <;> simp [hg]

/-- The grant that is handed back, and the others. -/
theorem grantOrder_perm_of_held (h : l.Coherent) {g : Holding} (hheld : l.held i = some g) :
    l.grantOrder.Perm (g :: l.grantOrder.filter fun g => g.1.seq ≠ i) := by
  obtain ⟨-, hseq⟩ := mem_granted_of_held h hheld
  have hmem : g ∈ l.grantOrder := (mem_grantOrder h).2 (by rw [hseq]; exact hheld)
  refine (List.perm_cons_erase hmem).trans (List.Perm.cons g ?_)
  rw [(nodup_grantOrder h).of_map.erase_eq_filter]
  refine List.Perm.of_eq (List.filter_congr fun g' hg' => ?_)
  have : g' = g ↔ g'.1.seq = i := by
    rw [← hseq]
    exact ⟨fun heq => by rw [heq],
      fun heq => List.inj_on_of_nodup_map (nodup_grantOrder h) hg' hmem heq⟩
  by_cases hg : g' = g
  · simp [hg, hseq]
  · simp [hg, mt this.2 hg]

/-- A part moves no worker, or it is a new call with its dispatch, or a hand-back with
its dispatch. -/
theorem part_slots (h : l.Coherent) (hp : Part cfg l l') :
    SameSlots l l' ∨
    (l.sched.draining = false ∧
      ∃ job waitS, l' = (l.enter (l.newWaiter job) waitS).redispatch cfg) ∨
    ∃ i c worker state, l.calls i = some c ∧
      c.held (l.sched.futures i) = some (c.waiter, worker) ∧
      CallState.Returned worker state ∧ l' = (l.handBack i c worker state).redispatch cfg := by
  cases hp with
  | tick => exact Or.inl ⟨rfl, rfl, rfl, rfl, rfl, fun _ _ => Iff.rfl, rfl⟩
  | enter job waitS hdraining => exact Or.inr (Or.inl ⟨hdraining, job, waitS, rfl⟩)
  | interrupt i c expired cancelled hw => exact Or.inl (sameSlots_interrupt h hw _ _)
  | pickUp i c worker hw hf => exact Or.inl (sameSlots_pickUp hw hf)
  | raise i c e hw hf => exact Or.inl (sameSlots_raise hw (by simp [hf]) e)
  | abandon i c e hw hresult hpending =>
    have hq := sameSlots_of_quiet h (Scheduler.forget_quiet h.wellFormed c.waiter)
    refine Or.inl (hq.trans (sameSlots_raise (by exact hw) (fun worker => ?_) e))
    rw [Scheduler.forget_futures]
    exact hresult worker
  | forget i c hw hpending =>
    exact Or.inl (sameSlots_of_quiet h (Scheduler.forget_quiet h.wellFormed c.waiter))
  | handBack i c worker state hcall hheld hstate =>
    exact Or.inr (Or.inr ⟨i, c, worker, state, hcall, hheld, hstate, rfl⟩)
  | drain => exact Or.inl (sameSlots_of_quiet h (Scheduler.drain_quiet _))

/-- The induction over runs for statements about the slots: what holds at
the start, and is kept by parts that move no worker, by dispatches and by
hand-backs, holds in every reachable state. -/
theorem slots_rule (I : Loop → Prop) (hinit : I (init cfg))
    (hsame : ∀ l l', I l → SameSlots l l' → I l')
    (hdispatch : ∀ l, l.Coherent → I l → I (l.redispatch cfg))
    (hback : ∀ l i c worker state, l.Coherent → l.calls i = some c →
      c.held (l.sched.futures i) = some (c.waiter, worker) →
      CallState.Returned worker state → I l → I (l.handBack i c worker state))
    (hr : (machine cfg).Reachable l) : I l := by
  refine (reachable_by_parts (fun l => l.Coherent ∧ I l) ⟨coherent_init, hinit⟩ ?_ hr).2
  rintro l l' ⟨h, hI⟩ hp
  refine ⟨h.part hp, ?_⟩
  rcases part_slots h hp with hs | ⟨-, job, waitS, rfl⟩ |
    ⟨i, c, worker, state, hcall, hheld, hstate, rfl⟩
  · exact hsame _ _ hI hs
  · exact hdispatch _ (h.enter job waitS) (hsame _ _ hI (sameSlots_enter h job waitS))
  · exact hdispatch _ (h.handBack hcall hheld hstate) (hback _ _ _ _ _ h hcall hheld hstate hI)

/-! ## The balance -/

/-- The free workers and the workers in `out` are the configured ones, and
the counters tally `out`. -/
structure Accounts (cfg : SchedulerConfig) (free : List String)
    (poolInuse clientInuse : Counter String) (out : List Holding) : Prop where
  workers : (free ++ out.map Prod.snd).Perm cfg.workers
  pool : poolInuse.Tallies (fun g => g.1.job.pool) out
  client : clientInuse.Tallies (fun g => g.1.job.client) out

/-- The balance of the outstanding grants, in grant order. -/
def Balanced (cfg : SchedulerConfig) (l : Loop) : Prop :=
  Accounts cfg l.sched.free l.sched.poolInuse l.sched.clientInuse l.grantOrder

section Accounts

variable {free : List String} {poolInuse clientInuse : Counter String} {out out' : List Holding}

theorem Accounts.perm (h : Accounts cfg free poolInuse clientInuse out) (hp : out.Perm out') :
    Accounts cfg free poolInuse clientInuse out' where
  workers := ((hp.symm.map Prod.snd).append_left free).trans h.workers
  pool := h.pool.perm hp
  client := h.client.perm hp

/-- The head of the free list moves to the grants. -/
theorem Accounts.grant {worker : String} {w : Waiter}
    (h : Accounts cfg (worker :: free) poolInuse clientInuse out) :
    Accounts cfg free (poolInuse.add w.job.pool 1) (clientInuse.add w.job.client 1)
      (out ++ [(w, worker)]) where
  workers := by
    refine List.Perm.trans ?_ h.workers
    rw [List.map_append, ← List.append_assoc]
    exact List.perm_append_singleton worker _
  pool := h.pool.append (a := (w, worker))
  client := h.client.append (a := (w, worker))

/-- The worker of a grant moves to the end of the free list. -/
theorem Accounts.reclaim {worker : String} {w : Waiter}
    (h : Accounts cfg free poolInuse clientInuse out) (hp : out.Perm ((w, worker) :: out')) :
    Accounts cfg (free ++ [worker]) (poolInuse.add w.job.pool (-1))
      (clientInuse.add w.job.client (-1)) out' where
  workers := by
    refine List.Perm.trans ?_ (h.perm hp).workers
    rw [List.append_assoc]
    exact List.Perm.refl _
  pool := h.pool.remove hp
  client := h.client.remove hp

/-- The walk of a dispatch keeps the balance. -/
theorem Accounts.reference {s : Scheduler}
    (h : Accounts cfg s.free s.poolInuse s.clientInuse out) :
    Accounts cfg (Scheduler.reference cfg s).1.free (Scheduler.reference cfg s).1.poolInuse
      (Scheduler.reference cfg s).1.clientInuse (out ++ (Scheduler.reference cfg s).1.given) := by
  refine Greedy.walk_invariant (fun t : Scheduler.Slots =>
    Accounts cfg t.free t.poolInuse t.clientInuse (out ++ t.given)) ?_ ?_ _
  · intro t w ht hroom _
    cases hfree : t.free with
    | nil => simp [Scheduler.slotPolicy, hfree] at hroom
    | cons worker free =>
      simp only [Scheduler.slotPolicy, Scheduler.Slots.hand, hfree, ← List.append_assoc]
      exact Accounts.grant (hfree ▸ ht)
  · rw [show (s.slots []).given = [] from rfl, List.append_nil]
    exact h

end Accounts

theorem balanced_init : Balanced cfg (init cfg) where
  workers := by
    change (cfg.workers ++ []).Perm cfg.workers
    rw [List.append_nil]
  pool := fun _ => rfl
  client := fun _ => rfl

theorem Balanced.sameSlots (h : Balanced cfg l) (hs : SameSlots l l') : Balanced cfg l' := by
  unfold Balanced
  rw [hs.free, hs.poolInuse, hs.clientInuse, hs.grantOrder]
  exact h

theorem Balanced.redispatch (hc : l.Coherent) (h : Balanced cfg l) :
    Balanced cfg (l.redispatch cfg) := by
  have hspec : Scheduler.FollowsReference cfg l.sched (l.redispatch cfg).sched :=
    (Scheduler.dispatch_spec hc.wellFormed).1
  unfold Balanced
  rw [grantOrder_redispatch hc, hspec.free, hspec.poolInuse, hspec.clientInuse]
  exact h.reference

theorem Balanced.handBack (hc : l.Coherent) (hcall : l.calls i = some c) {worker : String}
    (hheld : c.held (l.sched.futures i) = some (c.waiter, worker)) {state : CallState}
    (hstate : state.Returned worker) (h : Balanced cfg l) :
    Balanced cfg (l.handBack i c worker state) := by
  unfold Balanced
  rw [grantOrder_handBack hstate]
  exact Accounts.reclaim h (grantOrder_perm_of_held hc ((held_of_calls hcall).trans hheld))

theorem reachable_balanced (h : (machine cfg).Reachable l) : Balanced cfg l :=
  slots_rule (Balanced cfg) balanced_init (fun _ _ h hs => h.sameSlots hs)
    (fun _ hc h => h.redispatch hc)
    (fun _ _ _ _ _ hc hcall hheld hstate h => h.handBack hc hcall hheld hstate) h

/-- A worker is free, or out with a grant that is not back. -/
theorem workers_outstanding (hr : (machine cfg).Reachable l) :
    (l.sched.free ++ l.outstanding.map Prod.snd).Perm cfg.workers :=
  (Accounts.perm (reachable_balanced hr) (outstanding_perm (reachable_coherent hr)).symm).workers

/-- In every reachable state the free workers and the workers of the
outstanding grants are the configured workers, the counters count the
outstanding grants, and no future was ever settled twice. -/
theorem workers_accounted (hr : (machine cfg).Reachable l) :
    (l.sched.free ++ l.outstanding.map Prod.snd).Perm cfg.workers ∧
      (∀ p, l.sched.poolInuse p = l.outstanding.countP fun g => g.1.job.pool = p) ∧
      (∀ k, l.sched.clientInuse k = l.outstanding.countP fun g => g.1.job.client = k) ∧
      l.sched.invalidState = false := by
  have hc := reachable_coherent hr
  have hacc := Accounts.perm (reachable_balanced hr) (outstanding_perm hc).symm
  exact ⟨hacc.workers, hacc.pool, hacc.client, hc.valid⟩

theorem workers_accounted_guestsQueued :
    (guestsQueued.sched.free ++ guestsQueued.outstanding.map Prod.snd).Perm
        smallConfig.workers ∧ guestsQueued.sched.invalidState = false :=
  ⟨(workers_accounted guestsQueued_reachable).1,
    (workers_accounted guestsQueued_reachable).2.2.2⟩

/-- `inflight` counts the outstanding grants. -/
theorem inflight_eq_outstanding (hr : (machine cfg).Reachable l) :
    l.sched.inflight cfg = l.outstanding.length := by
  have hbal : Accounts cfg l.sched.free _ _ l.outstanding :=
    Accounts.perm (reachable_balanced hr) (outstanding_perm (reachable_coherent hr)).symm
  have hlength := hbal.workers.length_eq
  rw [List.length_append, List.length_map] at hlength
  unfold Scheduler.inflight
  omega

/-! ## Every worker goes back once -/

/-- The numbers in `returned` are distinct, and they are the ones of the
calls that were granted a worker and hold it no more. -/
def ReturnedOnce (l : Loop) : Prop :=
  l.returned.Nodup ∧ ∀ i, i ∈ l.returned ↔
    (∃ worker, l.sched.futures i = .result worker) ∧ l.held i = none

theorem ReturnedOnce.redispatch (hc : l.Coherent) (h : ReturnedOnce l) :
    ReturnedOnce (l.redispatch cfg) := by
  refine ⟨h.1, fun i => ?_⟩
  have hi : i ∈ (l.redispatch cfg).returned ↔ _ := h.2 i
  rw [hi]
  by_cases hg : ∃ g ∈ (Scheduler.reference cfg l.sched).1.given, g.1.seq = i
  · obtain ⟨g, hg, rfl⟩ := hg
    obtain ⟨-, -, -, hp⟩ := waits_of_given hc hg
    rw [held_redispatch_of_given hc hg, hp]
    simp
  · have hg : ∀ g ∈ (Scheduler.reference cfg l.sched).1.given, g.1.seq ≠ i :=
      fun g hmem heq => hg ⟨g, hmem, heq⟩
    rw [held_redispatch_of_notMem hc hg, show (l.redispatch cfg).sched.futures i = _ from
      Scheduler.dispatch_futures_other hc.wellFormed hg]

theorem ReturnedOnce.handBack (hc : l.Coherent) (hcall : l.calls i = some c) {worker : String}
    (hheld : c.held (l.sched.futures i) = some (c.waiter, worker)) {state : CallState}
    (hstate : state.Returned worker) (h : ReturnedOnce l) :
    ReturnedOnce (l.handBack i c worker state) := by
  have hf := (hc.of_held hcall hheld).2
  have hi : l.held i = some (c.waiter, worker) := (held_of_calls hcall).trans hheld
  refine ⟨?_, fun j => ?_⟩
  · change (l.returned ++ [i]).Nodup
    refine List.Nodup.append h.1 (List.nodup_singleton i) ?_
    simp [h.2 i, hi]
  · change j ∈ l.returned ++ [i] ↔ (∃ worker, l.sched.futures j = .result worker) ∧ _
    rw [held_handBack i c hstate, List.mem_append, List.mem_singleton, h.2 j]
    by_cases hj : j = i
    · simp [hj, hf]
    · simp [hj]

theorem reachable_returnedOnce (h : (machine cfg).Reachable l) : ReturnedOnce l := by
  refine slots_rule ReturnedOnce ⟨List.nodup_nil, fun i => ?_⟩ ?_
    (fun _ hc h => h.redispatch hc)
    (fun _ _ _ _ _ hc hcall hheld hstate h => h.handBack hc hcall hheld hstate) h
  · simp [init, Scheduler.init]
  · intro l l' h hs
    unfold ReturnedOnce
    rw [hs.returned, hs.held]
    simp only [hs.result]
    exact h

end Loop

end OpendssGateway
