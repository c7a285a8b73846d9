import OpendssGateway.Scheduler.Draining

/-!
# How `acquire` ends

A waiting call has one `except` clause for its timer and its cancellation,
and the future that it waits for may be settled in the same tick by a
grant or by a drain.  `next_future` says who can settle a future and how,
and `next_takes` what the call makes of it.

`Audit` is the event loop with a record of what the outcomes are judged
by: the queue that a refused call met, and the calls that were cancelled
before their timer fired, while nothing drained.  `Justified` is what the
outcomes should mean.  `acquire` raises `QueueTimeout` for a cancellation
too, so `outcomes_justified` is about the runs without such a
cancellation, and `cancelled_is_timeout` about the others.
-/

namespace OpendssGateway

/-- How a call of `acquire` ends for its caller. -/
inductive AcquireOutcome
  | lease (worker : String)
  | error (e : AcquireError)
  | cancelledError
  deriving DecidableEq

/-- The outcome of a call that has ended.  `acquire` catches every
`CancelledError` of its `await` and raises something else. -/
def CallState.outcome : CallState → Option AcquireOutcome
  | .waiting _ _ => none
  | .leased worker _ _ => some (.lease worker)
  | .raised e => some (.error e)

/-- The wait time of the call is over. -/
def Call.Overdue (c : Call) (now : ℚ) : Prop :=
  c.waiter.enqueued + c.waitS ≤ now

theorem Call.Overdue.later {c : Call} {now now' : ℚ} (h : c.Overdue now) (hle : now ≤ now') :
    c.Overdue now' :=
  le_trans h hle

/-- A call whose timer fired, or that raised `QueueTimeout`, has waited its time, and
one that raised `Draining` was drained. -/
def Call.Explained (l : Loop) (i : Nat) (c : Call) : Prop :=
  match c.state with
  | .waiting expired _ =>
    (expired = true → c.Overdue l.now) ∧ (l.sched.futures i = .cancelled → expired = true)
  | .leased _ _ _ => True
  | .raised e => e = .draining ∧ l.sched.draining = true ∨ e = .queueTimeout ∧ c.Overdue l.now

/-- The call waits, and its timer has not fired. -/
def Call.InTime (c : Call) : Prop :=
  ∃ cancelled, c.state = .waiting false cancelled

namespace Loop

variable {cfg : SchedulerConfig} {l l' : Loop} {i : Nat} {c : Call}

/-! ## Who settles a future -/

/-- How a step can settle the future of call `i`. -/
inductive SettledBy (l : Loop) (i : Nat) : Action → Future → Prop
  | granted (a : Action) (worker : String) : SettledBy l i a (.result worker)
  | expired : SettledBy l i (.timeout i) .cancelled
  | cancelled : SettledBy l i (.cancel i) .cancelled
  | entered (job : Job) (waitS : Option ℚ) : i = l.sched.nextSeq →
      SettledBy l i (.acquire job waitS) .cancelled
  | drained : SettledBy l i .drain (.exception .draining)

/-- The future of call `i` is as before, or the step `a` settled it. -/
def FutureStep (l l' : Loop) (i : Nat) (a : Action) : Prop :=
  l'.sched.futures i = l.sched.futures i ∨
    l.sched.futures i = .pending ∧ SettledBy l i a (l'.sched.futures i)

/-- A dispatch after a change that leaves the futures alone. -/
theorem futureStep_dispatch {s : Scheduler} (hs : s.WellFormed)
    (hfut : s.futures = l.sched.futures) {a : Action}
    (hl' : l'.sched.futures i = (Scheduler.dispatch cfg s).futures i) : FutureStep l l' i a := by
  rcases @Scheduler.dispatch_futures_cases cfg s hs i with hsame | ⟨hpending, worker, hresult⟩
  · refine Or.inl ?_
    rw [hl', hsame, hfut]
  · refine Or.inr ⟨by rw [← hfut]; exact hpending, ?_⟩
    rw [hl', hresult]
    exact SettledBy.granted a worker

theorem futureStep_entered (h : l.Coherent) (job : Job) (waitS : ℚ) (a : Action) :
    FutureStep l (l.entered cfg job waitS) i a :=
  futureStep_dispatch (h.enter job waitS).wellFormed (enter_futures h job waitS) rfl

/-- An interruption cancels the future of its own call. -/
theorem interrupt_futures (l : Loop) (j : Nat) (d : Call) (expired cancelled : Bool) (i : Nat) :
    (l.interrupt j d expired cancelled).sched.futures i = l.sched.futures i ∨
      i = j ∧ l.sched.futures i = .pending ∧
        (l.interrupt j d expired cancelled).sched.futures i = .cancelled := by
  have hfut : (l.interrupt j d expired cancelled).sched.futures i = _ :=
    Scheduler.cancelFuture_futures l.sched j i
  rw [hfut]
  by_cases hij : i = j ∧ l.sched.futures j = .pending
  · rw [if_pos hij]
    exact Or.inr ⟨hij.1, by rw [hij.1]; exact hij.2, rfl⟩
  · rw [if_neg hij]
    exact Or.inl rfl

theorem futureStep_interrupt {j : Nat} {d : Call} {expired cancelled : Bool} {a : Action}
    (ha : i = j → SettledBy l i a .cancelled) :
    FutureStep l (l.interrupt j d expired cancelled) i a := by
  rcases interrupt_futures l j d expired cancelled i with hsame | ⟨hij, hpending, hcancelled⟩
  · exact Or.inl hsame
  · refine Or.inr ⟨hpending, ?_⟩
    rw [hcancelled]
    exact ha hij

theorem futureStep_acquire (h : l.Coherent) (job : Job) (waitS : Option ℚ) :
    FutureStep l (l.acquire cfg job waitS) i (.acquire job waitS) := by
  have hacquires := @acquires cfg l job waitS
  generalize l.acquire cfg job waitS = l' at hacquires
  cases hacquires with
  | refused => exact Or.inl rfl
  | granted => exact futureStep_entered h job _ _
  | waits => exact futureStep_entered h job _ _
  | interrupted =>
    have hentered : FutureStep l (l.entered cfg job (waitS.getD cfg.waitS)) i
      (.acquire job waitS) := futureStep_entered h job _ _
    rcases interrupt_futures (l.entered cfg job (waitS.getD cfg.waitS)) l.sched.nextSeq
      (l.newCall job (waitS.getD cfg.waitS)) true false i with hsame | ⟨hi, -, hcancelled⟩
    · unfold FutureStep
      rw [hsame]
      exact hentered
    · refine Or.inr ⟨?_, ?_⟩
      · rw [hi]
        exact h.freshFuture _ (Nat.le_refl _)
      · rw [hcancelled]
        exact SettledBy.entered job waitS hi

/-- Giving up settles no future but by its dispatch. -/
theorem futureStep_giveUp (h : l.Coherent) {j : Nat} {d : Call} (hd : l.calls j = some d)
    (hdone : l.sched.futures j ≠ .pending) (a : Action) :
    FutureStep l (l.giveUp cfg j d) i a := by
  have hfut : (l.sched.forget d.waiter).futures = l.sched.futures :=
    Scheduler.forget_futures _ _
  have hsched : (l.giveUp cfg j d).sched = (l.sched.giveUp cfg d.waiter).1 := rfl
  unfold Scheduler.giveUp at hsched
  simp only [hfut, h.filed j d hd] at hsched
  cases hf : l.sched.futures j with
  | pending => exact absurd hf hdone
  | result worker =>
    rw [hf] at hsched
    have hforget := (h.forget hdone hd).wellFormed
    exact futureStep_dispatch (s := (l.sched.forget d.waiter).reclaim worker d.waiter.job)
      ⟨hforget.heap, hforget.nodup⟩ hfut (by rw [hsched]; rfl)
  | exception e =>
    rw [hf] at hsched
    exact Or.inl (by rw [hsched]; exact congrFun hfut i)
  | cancelled =>
    rw [hf] at hsched
    exact Or.inl (by rw [hsched]; exact congrFun hfut i)

theorem futureStep_resume (h : l.Coherent) {j : Nat} {d : Call} (hd : l.calls j = some d)
    {interrupted : Bool} (hn : l.resume cfg j d interrupted = some l') (a : Action) :
    FutureStep l l' i a := by
  unfold Loop.resume at hn
  split at hn
  · cases hn
  · cases hn
    exact Or.inl rfl
  · cases hn
    exact Or.inl rfl
  · rename_i hpending _ _
    cases hn
    exact futureStep_giveUp h hd hpending a

/-- What one step of the event loop does to a future. -/
theorem next_future (h : l.Coherent) {a : Action} (hn : l.next cfg a = some l') (i : Nat) :
    FutureStep l l' i a := by
  cases a with
  | tick seconds =>
    simp only [next, Option.ite_none_right_eq_some, Option.some.injEq] at hn
    obtain ⟨-, rfl⟩ := hn
    exact Or.inl rfl
  | acquire job waitS =>
    cases hn
    exact futureStep_acquire h job waitS
  | timeout j =>
    simp only [next] at hn
    split at hn <;> try cases hn
    split at hn <;> try cases hn
    split at hn <;> cases hn
    refine futureStep_interrupt fun hij => ?_
    rw [hij]
    exact SettledBy.expired
  | cancel j =>
    simp only [next] at hn
    split at hn <;> try cases hn
    split at hn <;> cases hn
    refine futureStep_interrupt fun hij => ?_
    rw [hij]
    exact SettledBy.cancelled
  | resume j =>
    simp only [next] at hn
    split at hn <;> try cases hn
    rename_i d hd
    split at hn <;> try cases hn
    exact futureStep_resume h hd hn _
  | release j =>
    simp only [next] at hn
    split at hn <;> try cases hn
    rename_i d hd
    split at hn <;> cases hn
    · rename_i worker waited hstate
      exact futureStep_dispatch (s := l.sched.reclaim worker d.waiter.job)
        ⟨h.wellFormed.heap, h.wellFormed.nodup⟩ rfl rfl
    · exact Or.inl rfl
  | drain =>
    cases hn
    show l.sched.drain.futures i = _ ∨ _
    rw [(Scheduler.drain_spec l.sched).2 i]
    split
    · rename_i hi
      exact Or.inr ⟨hi.1, SettledBy.drained⟩
    · exact Or.inl rfl

/-! ## What the state of a call says -/

/-- Only a drain fails a future. -/
def FailedByDrain (l : Loop) : Prop :=
  ∀ i e, l.sched.futures i = .exception e → e = .draining ∧ l.sched.draining = true

theorem FailedByDrain.next (h : l.Coherent) (hfailed : FailedByDrain l) {a : Action}
    (hn : l.next cfg a = some l') : FailedByDrain l' := by
  intro i e hf
  rcases next_future h hn i with hsame | ⟨-, hsettled⟩
  · obtain ⟨he, hdraining⟩ := hfailed i e (hsame.symm.trans hf)
    exact ⟨he, (next_later h hn).draining hdraining⟩
  · rw [hf] at hsettled
    cases hsettled
    cases hn
    exact ⟨rfl, (shut_drain l).draining⟩

/-- Every call is explained, and so are the futures that failed. -/
structure Explained (l : Loop) : Prop where
  drained : FailedByDrain l
  empty : l.sched.draining = true → l.sched.waiting = []
  calls : ∀ i c, l.calls i = some c → c.Explained l i

/-- Nothing drains, and the step cancels a call that waits and whose timer has not
fired. -/
def CancelsEarly (l : Loop) (i : Nat) : Action → Prop
  | .cancel j => j = i ∧ l.sched.draining = false ∧ ∃ c, l.calls i = some c ∧ c.InTime
  | _ => False

/-- The step resumes a call that has a grant, was cancelled, and has time left. -/
def ResumesEarly (l : Loop) (i : Nat) : Action → Prop
  | .resume j => j = i ∧ ∃ c worker, l.calls i = some c ∧ c.state = .waiting false true ∧
      l.sched.futures i = .result worker ∧ ¬ c.Overdue l.now
  | _ => False

/-- The steps after which no call raises `QueueTimeout` before its time. -/
def Unhurried (l : Loop) (a : Action) : Prop :=
  ∀ i, ¬ l.CancelsEarly i a ∧ ¬ l.ResumesEarly i a

/-- Only `acquire` files a call. -/
theorem next_newCall (h : l.calls i = none) {a : Action} (hn : l.next cfg a = some l')
    (hc : l'.calls i = some c) :
    ∃ job waitS, a = .acquire job waitS ∧ i = l.sched.nextSeq := by
  have hset : ∀ {m : Loop} {j : Nat} {d d' : Call}, l.calls j = some d → m.calls = l.calls →
      (m.setCall j d').calls i = none := by
    intro m j d d' hd hm
    have hij : i ≠ j := by
      rintro rfl
      rw [h] at hd
      cases hd
    rw [setCall_calls, if_neg hij, hm, h]
  have hnone : l'.calls i = none → ∃ job waitS, a = .acquire job waitS ∧
      i = l.sched.nextSeq := by
    intro hnone
    rw [hnone] at hc
    cases hc
  cases a with
  | tick seconds =>
    simp only [next, Option.ite_none_right_eq_some, Option.some.injEq] at hn
    obtain ⟨-, rfl⟩ := hn
    exact hnone h
  | acquire job waitS =>
    cases hn
    by_cases hi : i = l.sched.nextSeq
    · exact ⟨job, waitS, rfl, hi⟩
    · exact hnone ((acquire_calls hi job waitS).trans h)
  | timeout j =>
    simp only [next] at hn
    split at hn <;> try cases hn
    rename_i d hd
    split at hn <;> try cases hn
    split at hn <;> cases hn
    exact hnone (hset (m := { l with sched := _ }) hd rfl)
  | cancel j =>
    simp only [next] at hn
    split at hn <;> try cases hn
    rename_i d hd
    split at hn <;> cases hn
    exact hnone (hset (m := { l with sched := _ }) hd rfl)
  | resume j =>
    simp only [next] at hn
    split at hn <;> try cases hn
    rename_i d hd
    split at hn <;> try cases hn
    unfold Loop.resume at hn
    split at hn <;> cases hn
    · exact hnone (hset hd rfl)
    · exact hnone (hset hd rfl)
    · exact hnone (hset (m := { l with sched := _, returned := _ }) hd rfl)
  | release j =>
    simp only [next] at hn
    split at hn <;> try cases hn
    rename_i d hd
    split at hn <;> cases hn
    · exact hnone (hset (m := { l with sched := _, returned := _ }) hd rfl)
    · exact hnone h
  | drain =>
    cases hn
    exact hnone h

theorem explained_newCall (h : l.Coherent) {job : Job} {waitS : Option ℚ}
    (hc : (l.acquire cfg job waitS).calls l.sched.nextSeq = some c) :
    c.Explained (l.acquire cfg job waitS) l.sched.nextSeq := by
  have hacquires := @acquires cfg l job waitS
  generalize l.acquire cfg job waitS = l' at hacquires hc
  cases hacquires with
  | refused =>
    rw [h.freshCall _ (Nat.le_refl _)] at hc
    cases hc
  | granted =>
    cases ((setCall_calls ..).trans (if_pos rfl)).symm.trans hc
    exact True.intro
  | interrupted hopen hroom hwait =>
    cases ((setCall_calls ..).trans (if_pos rfl)).symm.trans hc
    refine ⟨fun _ => ?_, fun _ => rfl⟩
    show l.now + waitS.getD cfg.waitS ≤ l.now
    linarith
  | waits =>
    cases (waits_entered l job _).1.symm.trans hc
    refine ⟨fun hexpired => absurd hexpired Bool.false_ne_true, fun hcancelled => ?_⟩
    -- a dispatch cancels no future
    rcases @futureStep_entered cfg l l.sched.nextSeq h job (waitS.getD cfg.waitS) (.tick 0)
      with hsame | ⟨-, hsettled⟩
    · rw [hsame, h.freshFuture _ (Nat.le_refl _)] at hcancelled
      cases hcancelled
    · rw [hcancelled] at hsettled
      cases hsettled

/-- A future that no step on its call cancels. -/
theorem cancelled_of_other (h : l.Coherent) {a : Action} (hn : l.next cfg a = some l')
    (hc : l.calls i = some c) (hother : ¬ a.Touches i)
    (hcancelled : l'.sched.futures i = .cancelled) : l.sched.futures i = .cancelled := by
  rcases next_future h hn i with hsame | ⟨-, hsettled⟩
  · rw [← hsame]
    exact hcancelled
  · rw [hcancelled] at hsettled
    cases hsettled with
    | expired | cancelled => exact absurd rfl hother
    | entered job waitS hi => exact absurd hi (Nat.ne_of_lt (h.seq_lt hc))

/-- What `acquire` makes of a call that resumes. -/
theorem explained_ending (he : Explained l) (hlater : Later l l')
    (ha : Unhurried l (.resume i)) {expired cancelled : Bool} (hc : l.calls i = some c)
    (hstate : c.state = .waiting expired cancelled) (hdone : l.sched.futures i ≠ .pending) :
    Call.Explained l' i
      { c with
        state := CallState.ending (l.now - c.waiter.enqueued) (expired || cancelled)
          (l.sched.futures i) } := by
  have hwas := he.calls i c hc
  unfold Call.Explained at hwas
  rw [hstate] at hwas
  have htimeout : c.Overdue l.now → Call.Explained l' i { c with state := .raised .queueTimeout } :=
    fun hlate => Or.inr ⟨rfl, hlate.later hlater.now⟩
  cases hf : l.sched.futures i with
  | pending => exact absurd hf hdone
  | exception e =>
    obtain ⟨rfl, hdraining⟩ := he.drained i e hf
    exact Or.inl ⟨rfl, hlater.draining hdraining⟩
  | cancelled => exact htimeout (hwas.1 (hwas.2 hf))
  | result worker =>
    cases expired with
    | true => exact htimeout (hwas.1 rfl)
    | false =>
      cases cancelled with
      | false => exact True.intro
      | true =>
        refine htimeout (by_contra fun hintime => (ha i).2 ?_)
        exact ⟨rfl, c, worker, hc, hstate, hf, hintime⟩

/-- An unhurried step keeps what the call says. -/
theorem Explained.call_next (h : l.Coherent) (he : Explained l) {a : Action}
    (ha : Unhurried l a) (hn : l.next cfg a = some l') (hc : l.calls i = some c) :
    ∃ c', l'.calls i = some c' ∧ c'.Explained l' i := by
  have hlater := next_later h hn
  obtain ⟨state, hcall, htakes⟩ := next_takes h hn hc
  have hwas := he.calls i c hc
  refine ⟨_, hcall, ?_⟩
  cases htakes with
  | same _ hother =>
    unfold Call.Explained at hwas ⊢
    dsimp only
    split at hwas
    · exact ⟨fun hexpired => (hwas.1 hexpired).later hlater.now,
        fun hcancelled => hwas.2 (cancelled_of_other h hn hc hother hcancelled)⟩
    · exact True.intro
    · rcases hwas with ⟨rfl, hdraining⟩ | ⟨rfl, hlate⟩
      · exact Or.inl ⟨rfl, hlater.draining hdraining⟩
      · exact Or.inr ⟨rfl, hlate.later hlater.now⟩
  | expires hstate hlate =>
    have hlate : c.Overdue l.now := hlate
    exact ⟨fun _ => hlate.later hlater.now, fun _ => rfl⟩
  | @cancels expired cancelled hstate =>
    unfold Call.Explained at hwas
    rw [hstate] at hwas
    refine ⟨fun hexpired => (hwas.1 hexpired).later hlater.now, fun hcancelled => ?_⟩
    by_cases hf : l.sched.futures i = .pending
    · -- the queue is not empty, so nothing drains
      have hmem := h.pending i c hc hf
      have hopen : l.sched.draining = false := by
        by_contra hdraining
        rw [Bool.not_eq_false] at hdraining
        rw [he.empty hdraining] at hmem
        cases hmem
      cases expired with
      | true => rfl
      | false => exact absurd ⟨rfl, hopen, c, hc, cancelled, hstate⟩ (ha i).1
    · exact hwas.2 ((hlater.futures i hf).symm.trans hcancelled)
  | ends hstate hdone => exact explained_ending he hlater ha hc hstate hdone
  | releases => exact True.intro

/-- An unhurried step keeps the explanations. -/
theorem Explained.next (h : l.Coherent) (he : Explained l) {a : Action} (ha : Unhurried l a)
    (hn : l.next cfg a = some l') : Explained l' where
  drained := he.drained.next h hn
  empty := shut_next h he.empty hn
  calls := by
    intro i c hc
    cases hcall : l.calls i with
    | none =>
      obtain ⟨job, waitS, rfl, rfl⟩ := next_newCall hcall hn hc
      cases hn
      exact explained_newCall h hc
    | some d =>
      obtain ⟨c', hc', hexplained⟩ := he.call_next h ha hn hcall
      rw [hc] at hc'
      cases hc'
      exact hexplained

theorem explained_init : Explained (init cfg) where
  drained := fun i e h => by cases h
  empty := fun _ => rfl
  calls := fun i c h => by cases h

end Loop

/-! ## The audit -/

/-- A call of `acquire` that was refused, with the queue and the drain that it met. -/
structure Refusal where
  error : AcquireError
  queued : Nat
  draining : Bool

structure Audit where
  loop : Loop
  refusals : List Refusal
  /-- the calls that were cancelled before their timer fired, while nothing drained -/
  early : List Nat

namespace Audit

variable (cfg : SchedulerConfig)

def init : Audit where
  loop := Loop.init cfg
  refusals := []
  early := []

/-- The refusal that a step is. -/
def refusalOf (l : Loop) : Action → List Refusal
  | .acquire job _ =>
    match l.sched.acquire cfg job l.now with
    | .error e => [⟨e, l.sched.waiting.length, l.sched.draining⟩]
    | .ok _ => []
  | _ => []

/-- The early cancellation that a step is. -/
def earlyOf (l : Loop) : Action → List Nat
  | .cancel i =>
    match (l.calls i).map Call.state with
    | some (.waiting false _) => if l.sched.draining then [] else [i]
    | _ => []
  | _ => []

/-- One step of the event loop, on record. -/
def next (o : Audit) (a : Action) : Option Audit :=
  (o.loop.next cfg a).map fun l =>
    { loop := l
      refusals := o.refusals ++ refusalOf cfg o.loop a
      early := o.early ++ earlyOf o.loop a }

def machine : Transition.Machine Audit Action where
  init := init cfg
  next := next cfg

variable {cfg} {o o' : Audit}

/-- What the outcomes of `acquire` should mean. -/
structure Justified (cfg : SchedulerConfig) (o : Audit) : Prop where
  /-- a refusal is for a drain or for a full queue, and it leaves nothing behind -/
  refused : ∀ r ∈ o.refusals, r.error = .draining ∧ r.draining = true ∨
    r.error = .queueFull ∧ cfg.maxQueue ≤ r.queued
  nothing : ∀ job waitS e, o.loop.sched.acquire cfg job o.loop.now = .error e →
    o.loop.acquire cfg job waitS = o.loop
  /-- a lease is for a worker that is held until it is released -/
  lease : ∀ i c worker waited, o.loop.calls i = some c → c.state = .leased worker waited false →
    (c.waiter, worker) ∈ o.loop.outstanding
  workers : (o.loop.sched.free ++ o.loop.outstanding.map Prod.snd).Perm cfg.workers
  draining : ∀ i c, o.loop.calls i = some c → c.state.outcome = some (.error .draining) →
    o.loop.sched.draining = true
  full : ∀ i c, o.loop.calls i = some c → c.state.outcome ≠ some (.error .queueFull)
  timeout : ∀ i c, o.loop.calls i = some c → c.state.outcome = some (.error .queueTimeout) →
    c.Overdue o.loop.now
  cancelled : ∀ i ∈ o.early, ∀ c outcome, o.loop.calls i = some c →
    c.state.outcome = some outcome → outcome = .cancelledError
  /-- without a lease the job holds no worker and is not queued -/
  others : ∀ i c outcome, o.loop.calls i = some c → c.state.outcome = some outcome →
    (∀ worker, outcome ≠ .lease worker) →
    (∀ g ∈ o.loop.outstanding, g.1.seq ≠ i) ∧ ∀ w ∈ o.loop.sched.waiting, w.seq ≠ i

theorem next_eq_some {a : Action} (h : o.next cfg a = some o') :
    o.loop.next cfg a = some o'.loop ∧ o'.refusals = o.refusals ++ refusalOf cfg o.loop a ∧
      o'.early = o.early ++ earlyOf o.loop a := by
  obtain ⟨l, hl, rfl⟩ := Option.map_eq_some_iff.1 h
  exact ⟨hl, rfl, rfl⟩

/-- The loop under the audit takes the steps it takes alone. -/
theorem loop_reachable (h : (machine cfg).Reachable o) : (Loop.machine cfg).Reachable o.loop :=
  h.invariant (fun o => (Loop.machine cfg).Reachable o.loop)
    Transition.Machine.ReachableBy.init
    fun _ _ _ hl _ hn => Loop.reachable_next cfg hl (next_eq_some hn).1

theorem mem_earlyOf {l : Loop} {a : Action} {i : Nat} (h : i ∈ earlyOf l a) :
    l.CancelsEarly i a := by
  cases a with
  | cancel j =>
    simp only [earlyOf] at h
    split at h
    · rename_i cancelled hcall
      split at h
      · cases h
      · rename_i hopen
        obtain ⟨c, hc, hstate⟩ := Option.map_eq_some_iff.1 hcall
        have hij := List.mem_singleton.1 h
        subst hij
        exact ⟨rfl, by simpa using hopen, c, hc, cancelled, hstate⟩
    · cases h
  | tick | acquire | timeout | resume | release | drain => cases h

/-- A refusal of `acquire` means what it says. -/
theorem refusal_justified {l : Loop} {a : Action} {r : Refusal} (h : r ∈ refusalOf cfg l a) :
    r.error = .draining ∧ r.draining = true ∨
      r.error = .queueFull ∧ cfg.maxQueue ≤ r.queued := by
  cases a with
  | acquire job waitS =>
    simp only [refusalOf] at h
    split at h
    · rename_i e hacq
      obtain rfl := List.mem_singleton.1 h
      unfold Scheduler.acquire at hacq
      split_ifs at hacq with hdraining hfull
      · cases hacq
        exact Or.inl ⟨rfl, hdraining⟩
      · cases hacq
        exact Or.inr ⟨rfl, hfull⟩
    · cases h
  | tick | timeout | cancel | resume | release | drain => cases h

theorem reachable_refused (h : (machine cfg).Reachable o) :
    ∀ r ∈ o.refusals, r.error = .draining ∧ r.draining = true ∨
      r.error = .queueFull ∧ cfg.maxQueue ≤ r.queued := by
  refine h.invariant (fun o => ∀ r ∈ o.refusals, r.error = .draining ∧ r.draining = true ∨
    r.error = .queueFull ∧ cfg.maxQueue ≤ r.queued) (fun r hr => by cases hr) ?_
  intro o a o' hI _ hn r hr
  rw [(next_eq_some hn).2.1, List.mem_append] at hr
  rcases hr with hr | hr
  · exact hI r hr
  · exact refusal_justified hr

/-- A run without a condition. -/
theorem reachable_of_unhurried
    (h : (machine cfg).ReachableBy (fun o a => o.loop.Unhurried a) o) :
    (machine cfg).Reachable o := by
  induction h with
  | init => exact Transition.Machine.ReachableBy.init
  | step _ _ hn ih => exact ih.next hn

/-- In an unhurried run every call is explained, and none was cancelled early. -/
theorem unhurried_explained (h : (machine cfg).ReachableBy (fun o a => o.loop.Unhurried a) o) :
    o.loop.Explained ∧ o.early = [] := by
  refine (h.invariant (fun o => o.loop.Coherent ∧ o.loop.Explained ∧ o.early = [])
    ⟨Loop.coherent_init, Loop.explained_init, rfl⟩ ?_).2
  rintro o a o' ⟨hc, he, hearly⟩ ha hn
  obtain ⟨hloop, -, hearly'⟩ := next_eq_some hn
  refine ⟨hc.next hloop, he.next hc ha hloop, ?_⟩
  rw [hearly', hearly, List.nil_append, List.eq_nil_iff_forall_not_mem]
  exact fun i hi => (ha i).1 (mem_earlyOf hi)

/-- In every run in which no caller is cancelled early outside a drain, and no cancelled
caller with a grant resumes before its time, every outcome is justified. -/
theorem outcomes_justified (h : (machine cfg).ReachableBy (fun o a => o.loop.Unhurried a) o) :
    Justified cfg o := by
  have hr := reachable_of_unhurried h
  have hloop := loop_reachable hr
  have hc := Loop.reachable_coherent hloop
  obtain ⟨he, hearly⟩ := unhurried_explained h
  have hraised : ∀ {i c e}, o.loop.calls i = some c → c.state.outcome = some (.error e) →
      c.state = .raised e := by
    intro i c e _ houtcome
    cases hstate : c.state <;> simp [hstate, CallState.outcome] at houtcome
    rw [houtcome]
  have hexplained : ∀ {i c e}, o.loop.calls i = some c → c.state.outcome = some (.error e) →
      e = .draining ∧ o.loop.sched.draining = true ∨
        e = .queueTimeout ∧ c.Overdue o.loop.now := by
    intro i c e hcall houtcome
    have hwas := he.calls i c hcall
    unfold Call.Explained at hwas
    rw [hraised hcall houtcome] at hwas
    exact hwas
  refine
    { refused := reachable_refused hr
      nothing := ?_
      lease := ?_
      workers := Loop.workers_outstanding hloop
      draining := ?_
      full := ?_
      timeout := ?_
      cancelled := ?_
      others := ?_ }
  · intro job waitS e hacq
    unfold Loop.acquire
    rw [hacq]
  · intro i c worker waited hcall hstate
    refine (Loop.mem_outstanding hc).2 ?_
    show o.loop.held c.waiter.seq = some (c.waiter, worker)
    rw [hc.filed i c hcall, Loop.held_of_calls hcall]
    simp [Call.held, hstate]
  · intro i c hcall houtcome
    rcases hexplained hcall houtcome with ⟨-, hdraining⟩ | ⟨heq, -⟩
    · exact hdraining
    · cases heq
  · intro i c hcall houtcome
    rcases hexplained hcall houtcome with ⟨heq, -⟩ | ⟨heq, -⟩ <;> cases heq
  · intro i c hcall houtcome
    rcases hexplained hcall houtcome with ⟨heq, -⟩ | ⟨-, hlate⟩
    · cases heq
    · exact hlate
  · intro i hi
    rw [hearly] at hi
    cases hi
  · intro i c outcome hcall houtcome hlease
    have hnotWaiting : ∀ expired cancelled, c.state ≠ .waiting expired cancelled := by
      intro expired cancelled hstate
      rw [hstate] at houtcome
      cases houtcome
    have hnotLeased : ∀ worker waited released, c.state ≠ .leased worker waited released := by
      intro worker waited released hstate
      rw [hstate] at houtcome
      cases houtcome
      exact hlease worker rfl
    refine ⟨fun g hg hseq => ?_, fun w hw hseq => ?_⟩
    · have hheld := (Loop.mem_outstanding hc).1 hg
      rw [hseq, Loop.held_of_calls hcall] at hheld
      cases hstate : c.state with
      | waiting => exact hnotWaiting _ _ hstate
      | leased => exact hnotLeased _ _ _ hstate
      | raised => simp [Call.held, hstate] at hheld
    · obtain ⟨d, ⟨hd, expired, cancelled, hstate⟩, -⟩ := hc.queued w hw
      rw [hseq, hcall] at hd
      cases hd
      exact hnotWaiting _ _ hstate

/-- The second guest waits its time in vain. -/
def timedOutRun : List Action :=
  guestsQueuedRun ++ [.tick 45, .timeout 1]

def timedOut : Audit :=
  ((machine smallConfig).run (init smallConfig) timedOutRun).getD (init smallConfig)

theorem timedOut_unhurried :
    (machine smallConfig).ReachableBy (fun o a => o.loop.Unhurried a) timedOut := by
  have hrun : (machine smallConfig).run (init smallConfig) timedOutRun = some timedOut :=
    Transition.eq_some_getD _ (by decide +kernel)
  refine Transition.Machine.ReachableBy.of_run Transition.Machine.ReachableBy.init ?_ hrun
  intro a ha o i
  simp only [timedOutRun, guestsQueuedRun, List.cons_append, List.nil_append, List.mem_cons,
    List.not_mem_nil, or_false] at ha
  rcases ha with rfl | rfl | rfl | rfl <;> exact ⟨id, id⟩

/-- It resumes, and its caller gets `QueueTimeout`. -/
def toldTimeout : Audit :=
  ((machine smallConfig).next timedOut (.resume 1)).getD timedOut

theorem toldTimeout_unhurried :
    (machine smallConfig).ReachableBy (fun o a => o.loop.Unhurried a) toldTimeout := by
  refine timedOut_unhurried.step (fun i => ⟨id, ?_⟩)
    (Transition.eq_some_getD _ (by decide +kernel))
  rintro ⟨rfl, c, worker, hcall, hstate, -⟩
  have hexpired : timedOut.loop.calls 1 =
      some ⟨⟨10, 1, guestJob "ip:192.0.2.2", 0⟩, 45, .waiting true false⟩ := by decide +kernel
  rw [hexpired] at hcall
  cases hcall
  cases hstate

theorem outcomes_justified_timedOut :
    ((toldTimeout.loop.calls 1).bind fun c => c.state.outcome) = some (.error .queueTimeout) ∧
      Justified smallConfig toldTimeout :=
  ⟨by decide +kernel, outcomes_justified toldTimeout_unhurried⟩

/-- The second guest is cancelled while it waits, and resumes. -/
def cancelledGuest : Audit :=
  ((machine smallConfig).run (init smallConfig)
    (guestsQueuedRun ++ [.cancel 1, .resume 1])).getD (init smallConfig)

/-- A caller that is cancelled at once is told that it waited its time. -/
theorem cancelled_guest_times_out :
    ¬ ∀ (cfg : SchedulerConfig) (o : Audit), (machine cfg).Reachable o → Justified cfg o := by
  intro hclaim
  have hreach : (machine smallConfig).Reachable cancelledGuest :=
    Transition.Machine.reachable_of_run (Transition.eq_some_getD _ (by decide +kernel))
  have hlate := (hclaim smallConfig cancelledGuest hreach).timeout 1
    ⟨⟨10, 1, guestJob "ip:192.0.2.2", 0⟩, 45, .raised .queueTimeout⟩ (by decide +kernel) rfl
  exact absurd hlate (by unfold Call.Overdue; decide +kernel)

/-! ## What a cancellation becomes -/

/-- A call that was cancelled without a timer or a drain. -/
def Doomed (l : Loop) (i : Nat) : Prop :=
  (l.sched.futures i = .cancelled ∨ ∃ worker, l.sched.futures i = .result worker) ∧
  ∃ c, l.calls i = some c ∧
    ((∃ expired, c.state = .waiting expired true) ∨ c.state = .raised .queueTimeout)

theorem Doomed.next {l l' : Loop} {i : Nat} (h : l.Coherent) (hd : Doomed l i) {a : Action}
    (hn : l.next cfg a = some l') : Doomed l' i := by
  obtain ⟨hf, c, hcall, hstate⟩ := hd
  have hdone : l.sched.futures i ≠ .pending := by
    rcases hf with hf | ⟨worker, hf⟩ <;> simp [hf]
  refine ⟨by rwa [(Loop.next_later h hn).futures i hdone], ?_⟩
  obtain ⟨state, hcall', htakes⟩ := Loop.next_takes h hn hcall
  refine ⟨_, hcall', ?_⟩
  cases htakes with
  | same => exact hstate
  | expires hwas =>
    rcases hstate with ⟨expired, hstate⟩ | hstate
    · rw [hstate] at hwas
      cases hwas
      exact Or.inl ⟨true, rfl⟩
    · rw [hstate] at hwas
      cases hwas
  | cancels => exact Or.inl ⟨_, rfl⟩
  | @ends expired cancelled hwas =>
    rcases hstate with ⟨expired', hstate⟩ | hstate
    · rw [hstate] at hwas
      cases hwas
      rw [Bool.or_true]
      refine Or.inr ?_
      rcases hf with hf | ⟨worker, hf⟩ <;> rw [hf] <;> rfl
    · rw [hstate] at hwas
      cases hwas
  | releases hwas => simp [hwas] at hstate

theorem doomed_of_cancelsEarly {l l' : Loop} {i : Nat}
    (hfailed : l.FailedByDrain) {a : Action} (ha : l.CancelsEarly i a)
    (hn : l.next cfg a = some l') : Doomed l' i := by
  cases a with
  | cancel j =>
    obtain ⟨rfl, hopen, c, hcall, cancelled, hstate⟩ := ha
    simp only [Loop.next, hcall, hstate, Option.some.injEq] at hn
    have hfut : l'.sched.futures j =
        if j = j ∧ l.sched.futures j = .pending then .cancelled else l.sched.futures j := by
      rw [← hn]
      exact Scheduler.cancelFuture_futures l.sched j j
    refine ⟨?_, { c with state := .waiting false true }, ?_, Or.inl ⟨false, rfl⟩⟩
    · cases hf : l.sched.futures j with
      | pending => exact Or.inl (hfut.trans (if_pos ⟨rfl, hf⟩))
      | result worker => exact Or.inr ⟨worker, (hfut.trans (if_neg (by simp [hf]))).trans hf⟩
      | exception e =>
        rw [(hfailed j e hf).2] at hopen
        cases hopen
      | cancelled => exact Or.inl ((hfut.trans (if_neg (by simp [hf]))).trans hf)
    · rw [← hn]
      exact (Loop.setCall_calls ..).trans (if_pos rfl)
  | tick | acquire | timeout | resume | release | drain => exact ha.elim

/-- A caller that was cancelled early outside a drain ends with `QueueTimeout`, in every
run. -/
theorem cancelled_is_timeout (h : (machine cfg).Reachable o) {i : Nat} (hi : i ∈ o.early)
    {c : Call} (hcall : o.loop.calls i = some c) {outcome : AcquireOutcome}
    (houtcome : c.state.outcome = some outcome) : outcome = .error .queueTimeout := by
  have hdoomed := (h.invariant (fun o => o.loop.Coherent ∧ o.loop.FailedByDrain ∧
    ∀ i ∈ o.early, Doomed o.loop i) ⟨Loop.coherent_init, Loop.explained_init.drained,
      fun i hi => by cases hi⟩ ?_).2.2 i hi
  · obtain ⟨-, d, hd, hstate⟩ := hdoomed
    rw [hcall] at hd
    cases hd
    rcases hstate with ⟨expired, hstate⟩ | hstate
    · rw [hstate] at houtcome
      cases houtcome
    · rw [hstate] at houtcome
      cases houtcome
      rfl
  · rintro o a o' ⟨hc, hfailed, hI⟩ - hn
    obtain ⟨hloop, -, hearly⟩ := next_eq_some hn
    refine ⟨hc.next hloop, hfailed.next hc hloop, fun i hi => ?_⟩
    rw [hearly, List.mem_append] at hi
    rcases hi with hi | hi
    · exact (hI i hi).next hc hloop
    · exact doomed_of_cancelsEarly hfailed (mem_earlyOf hi) hloop

end Audit

end OpendssGateway
