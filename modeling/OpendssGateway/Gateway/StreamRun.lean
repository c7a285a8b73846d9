import OpendssGateway.Gateway.Stream
import OpendssGateway.Scheduler.Accounting
import OpendssGateway.Scheduler.Evolution

/-!
# What a stream leaves behind

A generator that ended has given its worker back once and recorded its
run once, provided that no step of the run is one of the four that
`Orderly` excludes.  Each of the four ends the generator without its
`finally` block, or in the middle of it:

* the consumer closes it at the `queued` comment, where nobody cancels the
  acquire task;
* it is cancelled in `asyncio.wait` after the task has finished with a
  lease;
* `aclose` raises or is cancelled, before the release;
* the last engine seconds are no number, after the release and before the
  record.

`Phase` is the invariant: what the generator owes at each point.
-/

namespace OpendssGateway

namespace Stream

variable {cfg : SchedulerConfig} {call : StreamCall} {s s' : Stream}

/-! ## What the acquire task may still do -/

/-- The task holds no worker and will not return a lease. -/
def Harmless (l : Loop) : AcquireTask → Prop
  | .notCreated | .failed _ | .cancelled => True
  | .created cancelRequested => cancelRequested = true
  | .entered i => ∃ c, l.calls i = some c ∧
      ((∃ expired cancelled, c.state = .waiting expired cancelled ∧
          (expired = true ∨ cancelled = true)) ∨
        (∃ e, c.state = .raised e) ∨ ∃ worker waited, c.state = .leased worker waited true)

/-- Whatever happens to the scheduler, a harmless task stays harmless. -/
theorem Harmless.next {l l' : Loop} (hc : l.Coherent) {a : Action} (hn : l.next cfg a = some l')
    {t : AcquireTask} (h : Harmless l t) : Harmless l' t := by
  cases t with
  | notCreated | failed | cancelled | created => exact h
  | entered i =>
    obtain ⟨c, hcall, hstate⟩ := h
    obtain ⟨state, hcall', hev⟩ := Loop.next_evolves hc hn hcall
    refine ⟨_, hcall', ?_⟩
    rcases hstate with ⟨expired, cancelled, hs, hflag⟩ | ⟨e, hs⟩ | ⟨worker, waited, hs⟩
    · rw [hs] at hev
      cases hev with
      | same => exact Or.inl ⟨expired, cancelled, rfl, hflag⟩
      | interrupted he hx => exact Or.inl ⟨_, _, rfl, hflag.imp he hx⟩
      | leased => simp at hflag
      | raised _ _ e => exact Or.inr (Or.inl ⟨e, rfl⟩)
    · rw [hs] at hev
      cases hev
      exact Or.inr (Or.inl ⟨e, rfl⟩)
    · rw [hs] at hev
      cases hev
      exact Or.inr (Or.inr ⟨worker, waited, rfl⟩)

/-! ## The invariant -/

/-- Call `i` has a lease that is not released, or none. -/
def Unreleased (l : Loop) (i : Nat) : Prop :=
  ∃ c, l.calls i = some c ∧ ∀ worker waited, c.state ≠ .leased worker waited true

/-- Before the lease: nothing was sent and nothing is owed. -/
structure Idle (g : Gen) : Prop where
  lease : g.lease = none
  sent : g.sent = false
  records : g.records = []

/-- With the lease: the worker is held, and the record is owed. -/
structure Working (s : Stream) (lease : LeaseVar) : Prop where
  has : s.gen.lease = some lease
  task : s.gen.task = .entered lease.i
  held : ∃ c, s.loop.calls lease.i = some c ∧
    c.state = .leased lease.worker lease.waited false
  sent : s.gen.sent = true
  records : s.gen.records = []
  tail : s.gen.upstream = none → s.gen.tail = []

/-- After the end: the worker is back, and the record was attempted. -/
structure Done (s : Stream) : Prop where
  task : Harmless s.loop s.gen.task
  records : s.gen.records.length = if s.gen.sent then 1 else 0

/-- What holds where the generator is suspended. -/
def Phase (s : Stream) : Point → Prop
  | .unstarted | .opened => Idle s.gen ∧ s.gen.task = .notCreated
  | .waiting | .queued =>
    Idle s.gen ∧ ∀ i, s.gen.task = .entered i → Unreleased s.loop i
  | .refused => Idle s.gen ∧ Harmless s.loop s.gen.task
  | .sending | .reading | .relaying | .dropped | .closing _ => ∃ lease, Working s lease
  | .streaming | .chunk => (∃ lease, Working s lease) ∧ s.gen.upstream ≠ none
  | .ended _ => Done s

/-- The invariant of a stream. -/
structure Inv (cfg : SchedulerConfig) (s : Stream) : Prop where
  reachable : (Loop.machine cfg).Reachable s.loop
  phase : Phase s s.gen.point

/-- The last engine seconds, if there are any, are a number. -/
def Metered (tail : Bytes) : Prop :=
  ∀ text, Metering.lastText tail = some text → (Metering.float text).isSome = true

/-- The steps that do not cut the generator short. -/
def Orderly (s : Stream) : StreamAction → Prop
  | .gen .close => s.gen.point = .queued → Harmless s.loop s.gen.task
  | .gen .cancel =>
    (s.gen.point = .waiting → ∀ lease, s.gen.task.result s.loop ≠ some (.lease lease)) ∧
      ∀ outcome, s.gen.point ≠ .closing outcome
  | .gen .closed => Metered s.gen.tail
  | .gen .closeFailed => False
  | _ => True

theorem Idle.done {g : Gen} (h : Idle g) {l : Loop} (hharmless : Harmless l g.task)
    {outcome : Outcome} : Done { loop := l, gen := { g with point := .ended outcome } } where
  task := hharmless
  records := by
    show g.records.length = if g.sent then 1 else 0
    rw [h.sent, h.records]
    rfl

/-! ## The `finally` block -/

/-- `lease.release()` hands the worker back. -/
theorem releaseLease_spec (hr : (Loop.machine cfg).Reachable s.loop) {lease : LeaseVar}
    (h : Working s lease) :
    ∃ l, s.releaseLease cfg = { s with loop := l } ∧ (Loop.machine cfg).Reachable l ∧
      Harmless l s.gen.task := by
  obtain ⟨c, hcall, hstate⟩ := h.held
  have hnext : s.loop.next cfg (.release lease.i) =
      some (s.loop.release cfg lease.i c lease.worker lease.waited) := by
    simp [Loop.next, hcall, hstate]
  have hreach : (Loop.machine cfg).Reachable
      (s.loop.release cfg lease.i c lease.worker lease.waited) := Loop.reachable_next cfg hr hnext
  refine ⟨_, ?_, hreach, ?_⟩
  · unfold releaseLease
    rw [h.has]
    simp only [hnext, Option.getD_some]
  · rw [h.task]
    refine ⟨{ c with state := .leased lease.worker lease.waited true }, ?_,
      Or.inr (Or.inr ⟨_, _, rfl⟩)⟩
    exact (Loop.setCall_calls ..).trans (if_pos rfl)

/-- The rest of the `finally` block after `aclose`. -/
theorem settle_inv (hr : (Loop.machine cfg).Reachable s.loop) {lease : LeaseVar}
    (h : Working s lease) (hmetered : Metered s.gen.tail) (outcome : Outcome) :
    Inv cfg (s.settle cfg call outcome) := by
  obtain ⟨l, hrelease, hl, hharmless⟩ := releaseLease_spec hr h
  have hdone : ∀ seconds,
      Inv cfg ((({ s with loop := l } : Stream).record call seconds).moveTo (.ended outcome)) := by
    intro seconds
    refine ⟨hl, hharmless, ?_⟩
    show (s.gen.records ++ [_]).length = if s.gen.sent then 1 else 0
    rw [h.records, h.sent]
    rfl
  unfold settle
  rw [hrelease]
  dsimp only
  split
  · rename_i text htext
    obtain ⟨seconds, hseconds⟩ := Option.isSome_iff_exists.1 (hmetered text htext)
    rw [hseconds]
    exact hdone seconds
  · exact hdone _

/-- Entering the `finally` block. -/
theorem finish_inv (hr : (Loop.machine cfg).Reachable s.loop) {lease : LeaseVar}
    (h : Working s lease) (outcome : Outcome) : Inv cfg (s.finish cfg call outcome) := by
  unfold finish
  split
  · refine ⟨hr, lease, ?_⟩
    exact { h with }
  · rename_i hnone
    have htail : s.gen.tail = [] := h.tail (by simpa using hnone)
    apply settle_inv hr h
    intro text htext
    rw [htail] at htext
    cases htext

/-! ## Steps of the generator -/

theorem inv_init : Inv cfg (init cfg) :=
  ⟨Transition.Machine.ReachableBy.init, ⟨rfl, rfl, rfl⟩, rfl⟩

theorem inv_next (h : Inv cfg s) (hs : s.step cfg call .next = some s') : Inv cfg s' := by
  obtain ⟨hr, hphase⟩ := h
  simp only [step] at hs
  cases hpoint : s.gen.point with
  | unstarted =>
    rw [hpoint] at hs hphase
    cases hs
    exact ⟨hr, ⟨hphase.1.lease, hphase.1.sent, hphase.1.records⟩, hphase.2⟩
  | opened =>
    rw [hpoint] at hs hphase
    cases hs
    refine ⟨hr, ⟨hphase.1.lease, hphase.1.sent, hphase.1.records⟩, fun i hi => ?_⟩
    cases hi
  | queued =>
    rw [hpoint] at hs hphase
    cases hs
    exact ⟨hr, ⟨hphase.1.lease, hphase.1.sent, hphase.1.records⟩, hphase.2⟩
  | refused =>
    rw [hpoint] at hs hphase
    cases hs
    exact ⟨hr, hphase.1.done hphase.2⟩
  | chunk =>
    rw [hpoint] at hs hphase
    obtain ⟨⟨lease, hw⟩, hup⟩ := hphase
    cases hs
    exact ⟨hr, ⟨lease, { hw with }⟩, hup⟩
  | relaying | dropped =>
    rw [hpoint] at hs hphase
    obtain ⟨lease, hw⟩ := hphase
    cases hs
    exact finish_inv hr hw _
  | waiting | sending | reading | streaming | closing | ended =>
    rw [hpoint] at hs
    cases hs

theorem inv_close (h : Inv cfg s) (ho : Orderly s (.gen .close))
    (hs : s.step cfg call .close = some s') : Inv cfg s' := by
  obtain ⟨hr, hphase⟩ := h
  simp only [step] at hs
  cases hpoint : s.gen.point with
  | unstarted | opened =>
    rw [hpoint] at hs hphase
    cases hs
    exact ⟨hr, hphase.1.done (by rw [hphase.2]; trivial)⟩
  | queued =>
    rw [hpoint] at hs hphase
    cases hs
    exact ⟨hr, hphase.1.done (ho hpoint)⟩
  | refused =>
    rw [hpoint] at hs hphase
    cases hs
    exact ⟨hr, hphase.1.done hphase.2⟩
  | relaying | dropped =>
    rw [hpoint] at hs hphase
    obtain ⟨lease, hw⟩ := hphase
    cases hs
    exact finish_inv hr hw _
  | chunk =>
    rw [hpoint] at hs hphase
    obtain ⟨⟨lease, hw⟩, -⟩ := hphase
    cases hs
    exact finish_inv hr hw _
  | waiting | sending | reading | streaming | closing | ended =>
    rw [hpoint] at hs
    cases hs

/-- Cancelling a task that has not finished with a lease makes it harmless. -/
theorem cancelTask_spec (hr : (Loop.machine cfg).Reachable s.loop)
    (hentered : ∀ i, s.gen.task = .entered i → Unreleased s.loop i)
    (hlease : ∀ lease, s.gen.task.result s.loop ≠ some (.lease lease)) :
    (Loop.machine cfg).Reachable (s.cancelTask cfg).loop ∧
      Harmless (s.cancelTask cfg).loop (s.cancelTask cfg).gen.task := by
  unfold cancelTask
  cases htask : s.gen.task with
  | notCreated | failed | cancelled => exact ⟨hr, by dsimp only; rw [htask]; trivial⟩
  | created => exact ⟨hr, rfl⟩
  | entered i =>
    obtain ⟨c, hcall, -⟩ := hentered i htask
    dsimp only
    rw [htask]
    cases hstate : c.state with
    | waiting expired cancelled =>
      have hnext : s.loop.next cfg (.cancel i) = some (s.loop.interrupt i c expired true) := by
        simp [Loop.next, hcall, hstate]
      rw [hnext]
      refine ⟨Loop.reachable_next cfg hr hnext, _, (Loop.setCall_calls ..).trans (if_pos rfl),
        Or.inl ⟨expired, true, rfl, Or.inr rfl⟩⟩
    | leased worker waited released =>
      exact absurd (by simp [AcquireTask.result, htask, hcall, hstate])
        (hlease ⟨i, worker, waited⟩)
    | raised e =>
      have hnext : s.loop.next cfg (.cancel i) = none := by
        simp [Loop.next, hcall, hstate]
      rw [hnext]
      exact ⟨hr, c, hcall, Or.inr (Or.inl ⟨e, hstate⟩)⟩

/-- Cancelling the task changes nothing else in the generator. -/
theorem cancelTask_gen (s : Stream) :
    (s.cancelTask cfg).gen = { s.gen with task := (s.cancelTask cfg).gen.task } := by
  unfold cancelTask
  split <;> rfl

/-- The generator ends while nothing was sent, with its task cancelled. -/
theorem cancelTask_done (hidle : Idle s.gen)
    (hspec : (Loop.machine cfg).Reachable (s.cancelTask cfg).loop ∧
      Harmless (s.cancelTask cfg).loop (s.cancelTask cfg).gen.task) (outcome : Outcome) :
    Inv cfg ((s.cancelTask cfg).moveTo (.ended outcome)) := by
  have hidle' : Idle (s.cancelTask cfg).gen := by
    rw [cancelTask_gen]
    exact { hidle with }
  exact ⟨hspec.1, hidle'.done hspec.2⟩

/-- While the generator awaits the worker it has its lease. -/
theorem working_of_onWorker (h : Phase s s.gen.point) (hpoint : s.gen.point.onWorker = true) :
    ∃ lease, Working s lease := by
  cases hp : s.gen.point with
  | sending | reading =>
    rw [hp] at h
    exact h
  | streaming =>
    rw [hp] at h
    exact h.1
  | unstarted | opened | waiting | queued | refused | relaying | chunk | dropped | closing
  | ended =>
    rw [hp] at hpoint
    cases hpoint

theorem inv_cancel (h : Inv cfg s) (ho : Orderly s (.gen .cancel))
    (hs : s.step cfg call .cancel = some s') : Inv cfg s' := by
  obtain ⟨hr, hphase⟩ := h
  simp only [step] at hs
  cases hpoint : s.gen.point with
  | waiting =>
    rw [hpoint] at hs hphase
    cases hs
    exact cancelTask_done hphase.1 (cancelTask_spec hr hphase.2 (ho.1 hpoint)) _
  | sending | reading | streaming =>
    obtain ⟨lease, hw⟩ := working_of_onWorker hphase (by rw [hpoint]; rfl)
    rw [hpoint] at hs
    cases hs
    exact finish_inv (s := s.setStatus "cancelled") hr { hw with } _
  | closing outcome => exact absurd hpoint (ho.2 outcome)
  | unstarted | opened | queued | refused | relaying | chunk | dropped | ended =>
    rw [hpoint] at hs
    cases hs

theorem inv_wake (h : Inv cfg s) (hs : s.step cfg call .wake = some s') : Inv cfg s' := by
  obtain ⟨hr, hphase⟩ := h
  simp only [step, Option.ite_none_right_eq_some] at hs
  obtain ⟨hpoint, hs⟩ := hs
  rw [hpoint] at hphase
  obtain ⟨hidle, hentered⟩ := hphase
  cases htask : s.gen.task with
  | notCreated | created =>
    rw [htask] at hs
    cases hs
    exact ⟨hr, { hidle with }, hentered⟩
  | failed e =>
    rw [htask] at hs
    cases hs
    exact ⟨hr, { hidle with }, by show Harmless s.loop s.gen.task; rw [htask]; trivial⟩
  | cancelled =>
    rw [htask] at hs
    cases hs
    refine cancelTask_done hidle (cancelTask_spec hr hentered fun lease => ?_) _
    rw [htask]
    simp [AcquireTask.result]
  | entered i =>
    obtain ⟨c, hcall, hunreleased⟩ := hentered i htask
    cases hstate : c.state with
    | waiting expired cancelled =>
      have hresult : s.gen.task.result s.loop = none := by
        simp [htask, AcquireTask.result, hcall, hstate]
      rw [hresult] at hs
      cases hs
      exact ⟨hr, { hidle with }, hentered⟩
    | raised e =>
      have hresult : s.gen.task.result s.loop = some (.raised e) := by
        simp [htask, AcquireTask.result, hcall, hstate]
      rw [hresult] at hs
      cases hs
      refine ⟨hr, { hidle with }, ?_⟩
      show Harmless s.loop s.gen.task
      rw [htask]
      exact ⟨c, hcall, Or.inr (Or.inl ⟨e, hstate⟩)⟩
    | leased worker waited released =>
      have hresult : s.gen.task.result s.loop = some (.lease ⟨i, worker, waited⟩) := by
        simp [htask, AcquireTask.result, hcall, hstate]
      rw [hresult] at hs
      cases hs
      have hheld : released = false := by
        cases released
        · rfl
        · exact absurd hstate (hunreleased worker waited)
      refine ⟨hr, ⟨i, worker, waited⟩, rfl, htask, ⟨c, hcall, ?_⟩, rfl, hidle.records, fun _ => rfl⟩
      rw [hstate, hheld]

/-- A chunk only changes the tail and what was yielded. -/
theorem inv_chunk (hr : (Loop.machine cfg).Reachable s.loop) {lease : LeaseVar}
    (hw : Working s lease) (hup : s.gen.upstream ≠ none) (tail : Bytes) (item : Item) :
    Inv cfg (({ s with gen := { s.gen with tail := tail } } : Stream).yield item .chunk) :=
  ⟨hr, ⟨lease, { hw with tail := fun hnone => absurd hnone hup }⟩, hup⟩

/-- The steps on the worker's answer keep the lease. -/
theorem inv_worker (h : Inv cfg s) {e : Event}
    (he : e ≠ .next ∧ e ≠ .close ∧ e ≠ .cancel ∧ e ≠ .wake)
    (ho : Orderly s (.gen e)) (hs : s.step cfg call e = some s') : Inv cfg s' := by
  obtain ⟨hr, hphase⟩ := h
  cases worker_step he hs with
  | response hpoint hnew =>
    rw [hpoint] at hphase
    obtain ⟨lease, hw⟩ := hphase
    have hw' : ∀ status, Working ({ s with gen := { s.gen with upstream := some status } }) lease :=
      fun status => { hw with tail := fun hnone => by cases hnone }
    refine ⟨hr, ?_⟩
    rcases hnew with rfl | rfl
    · exact ⟨lease, { hw' _ with }⟩
    · exact ⟨⟨lease, { hw' _ with }⟩, fun hnone => by cases hnone⟩
  | httpError hpoint =>
    obtain ⟨lease, hw⟩ := working_of_onWorker hphase hpoint
    exact ⟨hr, lease, { hw with }⟩
  | relay hpoint =>
    rw [hpoint] at hphase
    obtain ⟨lease, hw⟩ := hphase
    exact ⟨hr, lease, { hw with }⟩
  | chunk hpoint =>
    rw [hpoint] at hphase
    obtain ⟨⟨lease, hw⟩, hup⟩ := hphase
    exact inv_chunk hr hw hup _ _
  | finish _ hpoint _ =>
    obtain ⟨lease, hw⟩ := working_of_onWorker hphase hpoint
    exact finish_inv hr hw _
  | settle hpoint =>
    rw [hpoint] at hphase
    obtain ⟨lease, hw⟩ := hphase
    exact settle_inv hr hw ho _
  | lost => exact absurd ho not_false

theorem inv_gen (h : Inv cfg s) {e : Event} (ho : Orderly s (.gen e))
    (hs : s.step cfg call e = some s') : Inv cfg s' := by
  cases e with
  | next => exact inv_next h hs
  | close => exact inv_close h ho hs
  | cancel => exact inv_cancel h ho hs
  | wake => exact inv_wake h hs
  | response | httpError | otherError | body | chunk | eof | closed | closeFailed =>
    exact inv_worker h (by simp) ho hs

/-! ## Steps beside the generator -/

theorem Unreleased.next {l l' : Loop} (hc : l.Coherent) {a : Action} {i : Nat}
    (ha : a ≠ .release i) (hn : l.next cfg a = some l') (h : Unreleased l i) :
    Unreleased l' i := by
  obtain ⟨c, hcall, hstate⟩ := h
  obtain ⟨state, hcall', hev⟩ := Loop.next_evolves hc hn hcall
  refine ⟨_, hcall', fun worker waited heq => ?_⟩
  generalize hold : c.state = old at hev hstate
  cases hev with
  | same => exact hstate worker waited heq
  | interrupted | leased | raised => cases heq
  | released _ _ hrel => exact ha hrel

/-- A step of the scheduler that does not release the lease of the stream
keeps what the generator relies on. -/
theorem inv_loop (h : Inv cfg s) {a : Action} {l : Loop}
    (ha : ∀ i, s.gen.task = .entered i → a ≠ .release i) (hn : s.loop.next cfg a = some l) :
    Inv cfg { s with loop := l } := by
  obtain ⟨hr, hphase⟩ := h
  have hc := Loop.reachable_coherent hr
  refine ⟨Loop.reachable_next cfg hr hn, ?_⟩
  have hworking : (∃ lease, Working s lease) → ∃ lease, Working { s with loop := l } lease := by
    rintro ⟨lease, hw⟩
    refine ⟨lease, { hw with held := ?_ }⟩
    obtain ⟨c, hcall, hstate⟩ := hw.held
    obtain ⟨state, hcall', hev⟩ := Loop.next_evolves hc hn hcall
    refine ⟨_, hcall', ?_⟩
    rw [hstate] at hev
    cases hev with
    | same => rfl
    | released _ _ hrel => exact absurd hrel (ha lease.i hw.task)
  show Phase _ s.gen.point
  cases hpoint : s.gen.point with
  | unstarted | opened =>
    rw [hpoint] at hphase
    exact hphase
  | waiting | queued =>
    rw [hpoint] at hphase
    exact ⟨hphase.1, fun i hi => (hphase.2 i hi).next hc (ha i hi) hn⟩
  | refused =>
    rw [hpoint] at hphase
    exact ⟨hphase.1, hphase.2.next hc hn⟩
  | sending | reading | relaying | dropped | closing =>
    rw [hpoint] at hphase
    exact hworking hphase
  | streaming | chunk =>
    rw [hpoint] at hphase
    exact ⟨hworking hphase.1, hphase.2⟩
  | ended =>
    rw [hpoint] at hphase
    exact ⟨hphase.task.next hc hn, hphase.records⟩

/-- A task that has not started may end without entering the queue. -/
theorem inv_task (h : Inv cfg s) {cancelRequested : Bool}
    (htask : s.gen.task = .created cancelRequested) {task : AcquireTask}
    (hharmless : Harmless s.loop task) (hne : ∀ i, task ≠ .entered i) :
    Inv cfg { s with gen := { s.gen with task := task } } := by
  obtain ⟨hr, hphase⟩ := h
  refine ⟨hr, ?_⟩
  show Phase _ s.gen.point
  have hworking : ¬ ∃ lease, Working s lease := by
    rintro ⟨lease, hw⟩
    rw [hw.task] at htask
    cases htask
  cases hpoint : s.gen.point with
  | unstarted | opened =>
    rw [hpoint] at hphase
    rw [hphase.2] at htask
    cases htask
  | waiting | queued =>
    rw [hpoint] at hphase
    exact ⟨{ hphase.1 with }, fun i hi => absurd hi (hne i)⟩
  | refused =>
    rw [hpoint] at hphase
    exact ⟨{ hphase.1 with }, hharmless⟩
  | sending | reading | relaying | dropped | closing =>
    rw [hpoint] at hphase
    exact absurd hphase hworking
  | streaming | chunk =>
    rw [hpoint] at hphase
    exact absurd hphase.1 hworking
  | ended =>
    rw [hpoint] at hphase
    exact ⟨hharmless, hphase.records⟩

/-- A task enters the queue only while the generator waits for it. -/
theorem inv_enter (h : Inv cfg s) (htask : s.gen.task = .created false) {p : Scheduler × Waiter}
    (hacq : s.loop.sched.acquire cfg call.job s.loop.now = .ok p) :
    Inv cfg
      { loop := s.loop.acquire cfg call.job (some call.waitS)
        gen := { s.gen with task := .entered s.loop.sched.nextSeq } } := by
  obtain ⟨hr, hphase⟩ := h
  have hreach : (Loop.machine cfg).Reachable (s.loop.acquire cfg call.job (some call.waitS)) :=
    Loop.reachable_next cfg hr (a := .acquire call.job (some call.waitS)) rfl
  have hnew : ∀ i, AcquireTask.entered s.loop.sched.nextSeq = .entered i →
      Unreleased (s.loop.acquire cfg call.job (some call.waitS)) i := by
    intro i hi
    cases hi
    exact Loop.acquire_newCall hacq
  refine ⟨hreach, ?_⟩
  show Phase _ s.gen.point
  cases hpoint : s.gen.point with
  | waiting | queued =>
    rw [hpoint] at hphase
    exact ⟨{ hphase.1 with }, hnew⟩
  | unstarted | opened =>
    rw [hpoint] at hphase
    rw [hphase.2] at htask
    cases htask
  | refused =>
    rw [hpoint] at hphase
    have := hphase.2
    rw [htask] at this
    cases this
  | sending | reading | relaying | dropped | closing =>
    rw [hpoint] at hphase
    obtain ⟨lease, hw⟩ := hphase
    rw [hw.task] at htask
    cases htask
  | streaming | chunk =>
    rw [hpoint] at hphase
    obtain ⟨⟨lease, hw⟩, -⟩ := hphase
    rw [hw.task] at htask
    cases htask
  | ended =>
    rw [hpoint] at hphase
    have := hphase.task
    rw [htask] at this
    cases this

theorem inv_start (h : Inv cfg s) (hs : s.startTask cfg call = some s') : Inv cfg s' := by
  unfold startTask at hs
  split at hs
  · rename_i htask
    cases hs
    exact inv_task h htask trivial fun _ hi => by cases hi
  · rename_i htask
    split at hs <;> cases hs
    · exact inv_task h htask trivial fun _ hi => by cases hi
    · rename_i p hacq
      exact inv_enter h htask hacq
  · cases hs

theorem inv_cancelTask (h : Inv cfg s) : Inv cfg (s.cancelTask cfg) := by
  unfold cancelTask
  split
  · rename_i htask
    exact inv_task h htask rfl fun _ hi => by cases hi
  · rename_i i htask
    cases hnext : s.loop.next cfg (.cancel i) with
    | none => exact h
    | some l => exact inv_loop h (fun _ _ hi => by cases hi) hnext
  · exact h

theorem inv_env (h : Inv cfg s) {a : Action} (hs : s.next cfg call (.env a) = some s') :
    Inv cfg s' := by
  simp only [next] at hs
  split at hs
  · rename_i i j htask
    split at hs
    · cases hs
    · rename_i hij
      obtain ⟨l, hl, rfl⟩ := Option.map_eq_some_iff.1 hs
      refine inv_loop h (fun k hk hrel => ?_) hl
      rw [htask] at hk
      cases hk
      cases hrel
      exact hij rfl
  · rename_i hother
    obtain ⟨l, hl, rfl⟩ := Option.map_eq_some_iff.1 hs
    exact inv_loop h (fun k hk hrel => hother k k hk hrel) hl

/-- Every orderly step keeps the invariant. -/
theorem inv_step (h : Inv cfg s) {a : StreamAction} (ho : Orderly s a)
    (hs : s.next cfg call a = some s') : Inv cfg s' := by
  cases a with
  | env a => exact inv_env h hs
  | start => exact inv_start h hs
  | cancelTask =>
    cases hs
    exact inv_cancelTask h
  | gen e => exact inv_gen h ho hs

theorem inv_reachable (h : (machine cfg call).ReachableBy Orderly s) : Inv cfg s :=
  h.invariant (Inv cfg) inv_init fun _ _ _ hI ho hs => inv_step hI ho hs

/-- `acquire.done()`, or there is no task. -/
def TaskOver (s : Stream) : Prop :=
  s.gen.task = .notCreated ∨ (s.gen.task.result s.loop).isSome = true

/-- The worker that was granted to the task is back in the scheduler, and it
went back once; a request that was sent was recorded once. -/
def PaidUp (s : Stream) : Prop :=
  (∀ i worker, s.gen.task = .entered i → s.loop.sched.futures i = .result worker →
    s.loop.returned.count i = 1) ∧
  (s.gen.sent = true → s.gen.records.length = 1)

/-- After an orderly run of a stream that has ended, with its acquire task
finished, a granted worker went back exactly once, and a request that was
sent was recorded exactly once. -/
theorem ended_paidUp (h : (machine cfg call).ReachableBy Orderly s) {outcome : Outcome}
    (hended : s.gen.point = .ended outcome) (hover : TaskOver s) : PaidUp s := by
  obtain ⟨hr, hphase⟩ := inv_reachable h
  rw [hended] at hphase
  refine ⟨fun i worker htask hf => ?_, fun hsent => ?_⟩
  · have hharmless := hphase.task
    rw [htask] at hharmless
    obtain ⟨c, hcall, hstate⟩ := hharmless
    obtain ⟨hnodup, hreturned⟩ := Loop.reachable_returnedOnce hr
    refine List.count_eq_one_of_mem hnodup ((hreturned i).2 ⟨⟨worker, hf⟩, ?_⟩)
    rw [Loop.held_of_calls hcall]
    rcases hstate with ⟨expired, cancelled, hs, -⟩ | ⟨e, hs⟩ | ⟨worker', waited, hs⟩
    · -- the task would still be running
      rcases hover with hnone | hsome
      · rw [htask] at hnone
        cases hnone
      · simp [AcquireTask.result, htask, hcall, hs] at hsome
    · simp [Call.held, hs]
    · simp [Call.held, hs, hf]
  · rw [hphase.records, if_pos hsent]

/-- A guest's stream. -/
def guestStream : StreamCall where
  job := guestJob "ip:192.0.2.2"
  waitS := 600
  period := "2026-01-01"
  path := "/api/timeseries"
  requestId := "r1"

/-- The worker is free at once, and its connection fails. -/
def failedRun : List StreamAction :=
  [.gen .next, .gen .next, .start, .gen .wake, .gen .httpError, .gen .next]

def failedStream : Stream :=
  ((machine smallConfig guestStream).run (init smallConfig) failedRun).getD (init smallConfig)

theorem ended_paidUp_failedStream :
    failedStream.gen.sent = true ∧ failedStream.loop.returned.count 0 = 1 ∧
      failedStream.gen.records.length = 1 := by
  have hrun : (machine smallConfig guestStream).run (init smallConfig) failedRun =
      some failedStream := rfl
  have hreach : (machine smallConfig guestStream).ReachableBy Orderly failedStream :=
    Transition.Machine.ReachableBy.of_run Transition.Machine.ReachableBy.init
      (by simp [failedRun, Orderly]) hrun
  have hended : failedStream.gen.point = .ended .returned := rfl
  have hpaid := ended_paidUp hreach hended (Or.inr rfl)
  exact ⟨rfl, hpaid.1 0 "http://w1" rfl rfl, hpaid.2 rfl⟩

/-- Another guest holds the one worker that guests may have.  The caller goes away at
the `queued` comment, the other guest is done, and the acquire task gets the
worker after the generator has ended. -/
def abandonedRun : List StreamAction :=
  [.env (.acquire (guestJob "ip:192.0.2.1") none), .gen .next, .gen .next, .start, .gen .wake,
    .gen .close, .env (.release 0), .env (.resume 1)]

def abandonedStream : Stream :=
  ((machine smallConfig guestStream).run (init smallConfig) abandonedRun).getD (init smallConfig)

/-- The worker of a stream that was closed while it was queued is never
returned. -/
theorem closed_while_queued_loses_worker :
    ¬ ∀ (cfg : SchedulerConfig) (call : StreamCall) (s : Stream),
      (machine cfg call).Reachable s → (∃ outcome, s.gen.point = .ended outcome) →
      TaskOver s → PaidUp s := by
  intro hclaim
  have hrun : (machine smallConfig guestStream).run (init smallConfig) abandonedRun =
      some abandonedStream := rfl
  have hpaid := hclaim smallConfig guestStream abandonedStream
    (Transition.Machine.reachable_of_run hrun) ⟨.raised .generatorExit, rfl⟩ (Or.inr rfl)
  have hcount := hpaid.1 1 "http://w2" rfl rfl
  have hzero : abandonedStream.loop.returned.count 1 = 0 := rfl
  omega

end Stream

end OpendssGateway
