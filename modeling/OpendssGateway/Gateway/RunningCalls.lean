import OpendssGateway.Gateway.EngineCalls
import OpendssGateway.Scheduler.Conservation
import OpendssGateway.Scheduler.Limits

/-!
# The calls that are at a worker

An engine call is at its worker while it awaits the answer, and a stream call
from the lease of its generator to the end of it.  The scheduler bounds what
it has granted.  What the gateway runs is bounded by it only if no call goes
on with a lease that is back, or that was granted for another job.

* `Backed` is the invariant, and `backed_next` says that every step keeps it:
  also the ones that cut a generator short.
* `running_subperm`: the calls at a worker have different grants of the
  scheduler.
* `runs_within_limits`: a worker has no more calls than slots, a pool no
  more than its cap, and a client no more than its plan allows.
* `waits_for_other_pools`: a cap is not what keeps the calls of other pools
  waiting.
-/

namespace OpendssGateway

variable {l l' : Loop} {job : Job} {i : Nat} {lease : LeaseVar}

/-- Call `i` of `acquire` is for `job`, and its lease is not back. -/
def Asked (l : Loop) (job : Job) (i : Nat) : Prop :=
  ∃ c, l.calls i = some c ∧ c.waiter.job = job ∧
    ∀ worker waited, c.state ≠ .leased worker waited true

/-- The lease was granted for `job`, and is held. -/
def HeldFor (l : Loop) (job : Job) (lease : LeaseVar) : Prop :=
  ∃ c, l.calls lease.i = some c ∧ c.waiter.job = job ∧
    c.state = .leased lease.worker lease.waited false

theorem Asked.evolves (h : Asked l job i)
    (hev : ∀ c, l.calls i = some c → Loop.CallEvolves False l' i c) : Asked l' job i := by
  obtain ⟨c, hcall, hjob, hstate⟩ := h
  obtain ⟨state, hcall', hstep⟩ := hev c hcall
  refine ⟨_, hcall', hjob, fun worker waited heq => ?_⟩
  generalize c.state = old at hstep hstate
  cases hstep with
  | same => exact hstate worker waited heq
  | interrupted | leased | raised => cases heq
  | released _ _ hfalse => exact hfalse.elim

theorem HeldFor.evolves (h : HeldFor l job lease)
    (hev : ∀ c, l.calls lease.i = some c → Loop.CallEvolves False l' lease.i c) :
    HeldFor l' job lease := by
  obtain ⟨c, hcall, hjob, hstate⟩ := h
  obtain ⟨state, hcall', hstep⟩ := hev c hcall
  refine ⟨_, hcall', hjob, ?_⟩
  rw [hstate] at hstep
  cases hstep with
  | same => rfl
  | released _ _ hfalse => exact hfalse.elim

/-- A task with a lease holds it. -/
theorem Asked.heldFor {t : AcquireTask} (h : ∀ i, t = .entered i → Asked l job i)
    (hresult : AcquireTask.result l t = some (.lease lease)) :
    t = .entered lease.i ∧ HeldFor l job lease := by
  obtain ⟨htask, d, released, hd, hleased⟩ := task_of_lease hresult
  obtain ⟨c, hcall, hjob, hstate⟩ := h lease.i htask
  rw [hd] at hcall
  cases hcall
  cases released with
  | true => exact absurd hleased (hstate _ _)
  | false => exact ⟨htask, d, hd, hjob, hleased⟩

/-- A new call asks for its job. -/
theorem asked_acquire {cfg : SchedulerConfig} {waitS : Option ℚ} {p : Scheduler × Waiter}
    (hacq : l.sched.acquire cfg job l.now = .ok p) :
    Asked (l.acquire cfg job waitS) job l.sched.nextSeq := by
  have hacquires := @Loop.acquires cfg l job waitS
  generalize l.acquire cfg job waitS = l' at hacquires
  cases hacquires with
  | refused e herror =>
    rw [herror] at hacq
    cases hacq
  | granted | interrupted =>
    refine ⟨_, (Loop.setCall_calls ..).trans (if_pos rfl), rfl, fun _ _ h => ?_⟩
    cases h
  | waits =>
    refine ⟨_, (Loop.waits_entered l job _).1, rfl, fun _ _ h => ?_⟩
    cases h

/-! ## The generator -/

/-- What a suspended generator has asked the scheduler for. -/
def GenBacked (l : Loop) (job : Job) (g : Gen) : Prop :=
  match g.point with
  | .unstarted | .opened => g.task = .notCreated
  | .waiting | .queued => ∀ i, g.task = .entered i → Asked l job i
  | .sending | .reading | .relaying | .streaming | .chunk | .dropped | .closing _ =>
    ∃ lease, g.lease = some lease ∧ g.task = .entered lease.i ∧ HeldFor l job lease
  | .refused | .ended _ => True

/-- The lease of a generator that has not ended. -/
def Gen.running (g : Gen) : Option LeaseVar :=
  if g.point.hasLease then g.lease else none

theorem GenBacked.running {g : Gen} (h : GenBacked l job g) (hrunning : g.running = some lease) :
    g.task = .entered lease.i ∧ HeldFor l job lease := by
  have hhas : g.point.hasLease = true := by
    by_contra hno
    rw [Gen.running, if_neg hno] at hrunning
    cases hrunning
  rw [Gen.running, if_pos hhas] at hrunning
  unfold GenBacked at h
  cases hpoint : g.point with
  | unstarted | opened | waiting | queued | refused | ended =>
    rw [hpoint] at hhas
    cases hhas
  | sending | reading | relaying | streaming | chunk | dropped | closing =>
    rw [hpoint] at h
    obtain ⟨lease', hlease, htask, hheld⟩ := h
    rw [hrunning] at hlease
    cases hlease
    exact ⟨htask, hheld⟩

/-- What happens beside the generator. -/
theorem GenBacked.evolves {g : Gen} (h : GenBacked l job g)
    (hev : ∀ i c, g.task = .entered i → l.calls i = some c → Loop.CallEvolves False l' i c) :
    GenBacked l' job g := by
  unfold GenBacked at h ⊢
  cases hpoint : g.point with
  | unstarted | opened | refused | ended =>
    rw [hpoint] at h
    exact h
  | waiting | queued =>
    rw [hpoint] at h
    exact fun i hi => (h i hi).evolves fun c hcall => hev i c hi hcall
  | sending | reading | relaying | streaming | chunk | dropped | closing =>
    rw [hpoint] at h
    obtain ⟨lease, hlease, htask, hheld⟩ := h
    exact ⟨lease, hlease, htask, hheld.evolves fun c hcall => hev lease.i c htask hcall⟩

theorem genBacked_of_isEnded {g : Gen} (h : g.point.isEnded = true) : GenBacked l job g := by
  unfold GenBacked
  cases hpoint : g.point with
  | ended => exact trivial
  | _ =>
    rw [hpoint] at h
    cases h

namespace Stream

variable {cfg : SchedulerConfig} {call : StreamCall} {s s' : Stream}

/-- The generator goes on with its lease. -/
theorem genBacked_of_lease {g : Gen} (h : GenBacked l job g) (hlease : g.running = some lease)
    {g' : Gen} (hhas : g'.point.hasLease = true) (hsame : g'.lease = g.lease)
    (htask : g'.task = g.task) : GenBacked l job g' := by
  obtain ⟨hentered, hheld⟩ := h.running hlease
  have hleased : g.lease = some lease := by
    unfold Gen.running at hlease
    split at hlease
    · exact hlease
    · cases hlease
  unfold GenBacked
  cases hpoint : g'.point with
  | unstarted | opened | waiting | queued | refused | ended =>
    rw [hpoint] at hhas
    cases hhas
  | sending | reading | relaying | streaming | chunk | dropped | closing =>
    exact ⟨lease, hsame.trans hleased, htask.trans hentered, hheld⟩

/-- A generator at its worker has a lease. -/
theorem running_of_genBacked {g : Gen} (h : GenBacked l job g) (hhas : g.point.hasLease = true) :
    ∃ lease, g.running = some lease := by
  unfold GenBacked at h
  unfold Gen.running
  rw [if_pos hhas]
  cases hpoint : g.point with
  | unstarted | opened | waiting | queued | refused | ended =>
    rw [hpoint] at hhas
    cases hhas
  | sending | reading | relaying | streaming | chunk | dropped | closing =>
    rw [hpoint] at h
    obtain ⟨lease, hlease, -⟩ := h
    exact ⟨lease, hlease⟩

/-- A step that keeps the lease and the scheduler. -/
theorem genBacked_keeps (h : GenBacked s.loop job s.gen) (hhas : s.gen.point.hasLease = true)
    {g' : Gen} (hhas' : g'.point.hasLease = true) (hsame : g'.lease = s.gen.lease)
    (htask : g'.task = s.gen.task) : GenBacked s.loop job g' := by
  obtain ⟨lease, hlease⟩ := running_of_genBacked h hhas
  exact genBacked_of_lease h hlease hhas' hsame htask

theorem genBacked_finish (h : GenBacked s.loop job s.gen) (hhas : s.gen.point.hasLease = true)
    (outcome : Outcome) :
    GenBacked (s.finish cfg call outcome).loop job (s.finish cfg call outcome).gen := by
  unfold finish
  split
  · have hclosing : GenBacked s.loop job (s.moveTo (.closing outcome)).gen :=
      genBacked_keeps h hhas rfl rfl rfl
    exact hclosing
  · exact genBacked_of_isEnded settle_ended.1

/-- A cancellation of the acquire task. -/
theorem genBacked_cancelTask (hc : s.loop.Coherent) (h : GenBacked s.loop job s.gen) :
    GenBacked (s.cancelTask cfg).loop job (s.cancelTask cfg).gen := by
  unfold cancelTask
  split
  · rename_i cancelRequested htask
    -- no generator with a lease has a task that is still to start
    unfold GenBacked at h ⊢
    dsimp only
    cases hpoint : s.gen.point with
    | refused | ended => exact trivial
    | waiting | queued => exact fun i hi => by cases hi
    | unstarted | opened =>
      rw [hpoint, htask] at h
      cases h
    | sending | reading | relaying | streaming | chunk | dropped | closing =>
      rw [hpoint, htask] at h
      obtain ⟨lease, -, hentered, -⟩ := h
      cases hentered
  · rename_i j htask
    refine h.evolves fun i c hi hcall => ?_
    have hstep : LoopStep cfg s.loop ((s.loop.next cfg (.cancel j)).getD s.loop) none :=
      LoopStep.of_getD fun i hi => by cases hi
    obtain ⟨state, hcall', hev⟩ := hstep.evolves hc hcall
    have hnone : (none = some i) = False := eq_false fun hi => by cases hi
    rw [hnone] at hev
    exact ⟨state, hcall', hev⟩
  · exact h

theorem hasLease_of_onWorker {point : Point} (h : point.onWorker = true) :
    point.hasLease = true := by
  cases point <;> first | rfl | cases h

theorem genBacked_chunk (h : GenBacked s.loop job s.gen) (hpoint : s.gen.point = .streaming)
    (tail : Bytes) (item : Item) :
    GenBacked s.loop job (({ s with gen := { s.gen with tail } } : Stream).yield item .chunk).gen :=
  genBacked_keeps h (by rw [hpoint]; rfl) rfl rfl rfl

theorem genBacked_worker (h : GenBacked s.loop job s.gen) {e : Event}
    (hw : WorkerStep cfg call s e s') : GenBacked s'.loop job s'.gen := by
  cases hw with
  | response hpoint hnew =>
    refine genBacked_keeps h (by rw [hpoint]; rfl) ?_ rfl rfl
    rcases hnew with rfl | rfl <;> rfl
  | httpError hpoint => exact genBacked_keeps h (hasLease_of_onWorker hpoint) rfl rfl rfl
  | relay hpoint => exact genBacked_keeps h (by rw [hpoint]; rfl) rfl rfl rfl
  | chunk hpoint => exact genBacked_chunk h hpoint _ _
  | finish _ hpoint => exact genBacked_finish h (hasLease_of_onWorker hpoint) _
  | settle => exact genBacked_of_isEnded settle_ended.1
  | lost => exact trivial

theorem genBacked_item (h : GenBacked s.loop job s.gen) (hs : s.step cfg call .next = some s') :
    GenBacked s'.loop job s'.gen := by
  simp only [step] at hs
  unfold GenBacked at h
  cases hpoint : s.gen.point with
  | unstarted =>
    rw [hpoint] at hs h
    cases hs
    exact h
  | opened =>
    rw [hpoint] at hs
    cases hs
    exact fun i hi => by cases hi
  | queued =>
    rw [hpoint] at hs h
    cases hs
    exact h
  | refused =>
    rw [hpoint] at hs
    cases hs
    exact trivial
  | relaying | dropped =>
    rw [hpoint] at hs
    cases hs
    exact genBacked_finish (by rw [GenBacked, hpoint]; rw [hpoint] at h; exact h)
      (by rw [hpoint]; rfl) _
  | chunk =>
    rw [hpoint] at hs h
    cases hs
    exact h
  | waiting | sending | reading | streaming | closing | ended =>
    rw [hpoint] at hs
    cases hs

theorem genBacked_close (h : GenBacked s.loop job s.gen) (hs : s.step cfg call .close = some s') :
    GenBacked s'.loop job s'.gen := by
  simp only [step] at hs
  cases hpoint : s.gen.point with
  | unstarted | opened | queued | refused =>
    rw [hpoint] at hs
    cases hs
    exact trivial
  | relaying | chunk | dropped =>
    rw [hpoint] at hs
    cases hs
    exact genBacked_finish h (by rw [hpoint]; rfl) _
  | waiting | sending | reading | streaming | closing | ended =>
    rw [hpoint] at hs
    cases hs

theorem genBacked_cancel (h : GenBacked s.loop job s.gen)
    (hs : s.step cfg call .cancel = some s') : GenBacked s'.loop job s'.gen := by
  simp only [step] at hs
  cases hpoint : s.gen.point with
  | waiting | closing =>
    rw [hpoint] at hs
    cases hs
    exact trivial
  | sending | reading | streaming =>
    rw [hpoint] at hs
    cases hs
    have hhas : (s.setStatus "cancelled").gen.point.hasLease = true := by
      show s.gen.point.hasLease = true
      rw [hpoint]
      rfl
    exact genBacked_finish (s := s.setStatus "cancelled")
      (genBacked_keeps h (by rw [hpoint]; rfl) hhas rfl rfl) hhas _
  | unstarted | opened | queued | refused | relaying | chunk | dropped | ended =>
    rw [hpoint] at hs
    cases hs

/-- The task ends while the generator waits for it. -/
theorem genBacked_wake (h : GenBacked s.loop job s.gen) (hs : s.step cfg call .wake = some s') :
    GenBacked s'.loop job s'.gen := by
  simp only [step, Option.ite_none_right_eq_some] at hs
  obtain ⟨hpoint, hs⟩ := hs
  have hasked : ∀ i, s.gen.task = .entered i → Asked s.loop job i := by
    unfold GenBacked at h
    rw [hpoint] at h
    exact h
  split at hs <;> cases hs
  · exact hasked
  · rename_i lease hresult
    obtain ⟨htask, hheld⟩ := Asked.heldFor hasked hresult
    exact ⟨lease, rfl, htask, hheld⟩
  · exact trivial
  · exact trivial

/-- Every step of the generator, the ones that end it included. -/
theorem genBacked_step (h : GenBacked s.loop job s.gen) {e : Event}
    (hs : s.step cfg call e = some s') : GenBacked s'.loop job s'.gen := by
  cases e with
  | next => exact genBacked_item h hs
  | close => exact genBacked_close h hs
  | cancel => exact genBacked_cancel h hs
  | wake => exact genBacked_wake h hs
  | response | httpError | otherError | body | chunk | eof | closed | closeFailed =>
    exact genBacked_worker h (worker_step (by simp) hs)

/-- The first step of the acquire task. -/
theorem genBacked_start (h : GenBacked s.loop call.job s.gen)
    (hs : s.startTask cfg call = some s') : GenBacked s'.loop call.job s'.gen := by
  have hplaced : ∀ {l : Loop} {task : AcquireTask} {b}, s.gen.task = .created b →
      (∀ i, task = .entered i → Asked l call.job i) →
      GenBacked l call.job { s.gen with task := task } := by
    intro l task b htask hasked
    unfold GenBacked at h ⊢
    dsimp only
    cases hpoint : s.gen.point with
    | refused | ended => exact trivial
    | waiting | queued => exact hasked
    | unstarted | opened =>
      rw [hpoint, htask] at h
      cases h
    | sending | reading | relaying | streaming | chunk | dropped | closing =>
      rw [hpoint, htask] at h
      obtain ⟨lease, -, hentered, -⟩ := h
      cases hentered
  unfold startTask at hs
  split at hs
  · rename_i htask
    cases hs
    exact hplaced htask fun i hi => by cases hi
  · rename_i htask
    split at hs <;> cases hs
    · exact hplaced htask fun i hi => by cases hi
    · rename_i p hacq
      refine hplaced htask fun i hi => ?_
      cases hi
      exact asked_acquire hacq
  · cases hs

theorem genBacked_next (hc : s.loop.Coherent) (h : GenBacked s.loop call.job s.gen)
    {a : StreamAction} (ha : ∀ b, a ≠ .env b) (hs : s.next cfg call a = some s') :
    GenBacked s'.loop call.job s'.gen := by
  cases a with
  | env b => exact absurd rfl (ha b)
  | start => exact genBacked_start h hs
  | cancelTask =>
    cases hs
    exact genBacked_cancelTask hc h
  | gen e => exact genBacked_step h hs

end Stream

/-! ## The calls of the gateway -/

/-- The lease with which a call is at its worker. -/
def Progress.running : Progress → Option LeaseVar
  | .forwarding lease => some lease
  | .streaming gen => gen.running
  | _ => none

/-- The number with which a call waits for a worker. -/
def Progress.waiting : Progress → Option Nat
  | .acquiring i => some i
  | .streaming gen => if gen.point = .waiting ∨ gen.point = .queued then gen.task.number else none
  | _ => none

/-- What a call has asked the scheduler for. -/
def Backed (l : Loop) (r : Request) : Prop :=
  match r.progress with
  | .acquiring i => Asked l r.caller.job i
  | .forwarding lease => HeldFor l r.caller.job lease
  | .streaming gen => GenBacked l r.caller.job gen
  | .reading _ | .answered _ | .raised => True

theorem Backed.running {r : Request} (h : Backed l r) (hrunning : r.progress.running = some lease) :
    r.progress.number = some lease.i ∧ HeldFor l r.caller.job lease := by
  unfold Backed at h
  cases hprogress : r.progress with
  | reading | acquiring | answered | raised =>
    rw [hprogress] at hrunning
    cases hrunning
  | forwarding lease' =>
    rw [hprogress] at hrunning h
    cases hrunning
    exact ⟨rfl, h⟩
  | streaming gen =>
    rw [hprogress] at hrunning h
    obtain ⟨htask, hheld⟩ := GenBacked.running h hrunning
    exact ⟨by rw [Progress.number, htask]; rfl, hheld⟩

theorem Backed.waiting {r : Request} (h : Backed l r) (hwaiting : r.progress.waiting = some i) :
    Asked l r.caller.job i := by
  unfold Backed at h
  cases hprogress : r.progress with
  | reading | forwarding | answered | raised =>
    rw [hprogress] at hwaiting
    cases hwaiting
  | acquiring j =>
    rw [hprogress] at hwaiting h
    cases hwaiting
    exact h
  | streaming gen =>
    rw [hprogress] at hwaiting h
    simp only [Progress.waiting, Option.ite_none_right_eq_some] at hwaiting
    obtain ⟨hpoint, hnumber⟩ := hwaiting
    have htask : gen.task = .entered i := by
      cases htask : gen.task with
      | entered j =>
        rw [htask] at hnumber
        cases hnumber
        rfl
      | notCreated | created | failed | cancelled =>
        rw [htask] at hnumber
        cases hnumber
    replace h : GenBacked l r.caller.job gen := h
    unfold GenBacked at h
    rcases hpoint with hpoint | hpoint
    · rw [hpoint] at h
      exact h i htask
    · rw [hpoint] at h
      exact h i htask

namespace Gateway

variable {cfg : GatewayConfig} {g g' : Gateway} {a : GatewayAction} {n : Nat} {today : Date}

/-- The calls that are at a worker, with their leases. -/
def running (g : Gateway) : List (Request × LeaseVar) :=
  g.requests.filterMap fun r => r.progress.running.map fun lease => (r, lease)

/-- The steps of the other calls. -/
theorem backed_others {r : Request} (h : Backed g.loop r) (hnum : Numbered cfg g)
    (hm : Move cfg g a g') (ha : a.target ≠ some n) (hr : g.requests[n]? = some r) :
    Backed g'.loop r := by
  have hnumber := numberOf_of_get hr
  have hev : ∀ {i}, r.progress.number = some i → ∀ c, g.loop.calls i = some c →
      Loop.CallEvolves False g'.loop i c :=
    fun hi c hcall => hnum.others hm ha (hnumber.trans hi) hcall
  unfold Backed at h ⊢
  cases hprogress : r.progress with
  | reading | answered | raised => exact trivial
  | acquiring i =>
    rw [hprogress] at h
    exact Asked.evolves h (hev (by rw [hprogress]; rfl))
  | forwarding lease =>
    rw [hprogress] at h
    exact HeldFor.evolves h (hev (by rw [hprogress]; rfl))
  | streaming gen =>
    rw [hprogress] at h
    refine GenBacked.evolves h fun i c hi hcall => hev ?_ c hcall
    rw [hprogress, Progress.number, hi]
    rfl

/-- The steps of the call. -/
theorem backed_body {r : Request} (hr : g.requests[n]? = some r) {body : BodyRead}
    (hn : g.next cfg (.body n body) = some g') :
    ∃ r', g'.requests[n]? = some r' ∧ Backed g'.loop r' := by
  simp only [Gateway.next, hr] at hn
  split at hn <;> cases hn
  · rename_i stream _
    unfold bodyRead
    cases stream with
    | true => exact ⟨_, setProgress_get hr, rfl⟩
    | false =>
      rw [if_neg Bool.false_ne_true]
      cases hacq : g.loop.sched.acquire cfg.scheduler r.caller.job g.loop.now with
      | error e => exact ⟨_, setProgress_get hr, trivial⟩
      | ok p =>
        exact ⟨_, setProgress_get (g := { g with loop := _ }) hr, asked_acquire hacq⟩
  · exact ⟨_, setProgress_get hr, trivial⟩
  · exact ⟨_, setProgress_get hr, trivial⟩

theorem backed_acquired {r : Request} (hr : g.requests[n]? = some r) (h : Backed g.loop r)
    (hn : g.next cfg (.acquired n) = some g') :
    ∃ r', g'.requests[n]? = some r' ∧ Backed g'.loop r' := by
  simp only [Gateway.next, hr] at hn
  unfold Backed at h
  split at hn
  · rename_i i hprogress
    rw [hprogress] at h
    split at hn <;> cases hn
    · rename_i lease hresult
      have hasked : ∀ j, AcquireTask.entered i = .entered j → Asked g.loop r.caller.job j := by
        intro j hj
        cases hj
        exact h
      exact ⟨_, setProgress_get (g := g.noteForward r) hr, (Asked.heldFor hasked hresult).2⟩
    · exact ⟨_, setProgress_get hr, trivial⟩
  · cases hn

theorem backed_answer {r : Request} (hr : g.requests[n]? = some r) {answer : EngineAnswer}
    {fault : Option Statement} (hn : g.next cfg (.answer n answer fault) = some g') :
    ∃ r', g'.requests[n]? = some r' ∧ Backed g'.loop r' := by
  simp only [Gateway.next, hr] at hn
  split at hn <;> cases hn
  rw [answered_eq]
  refine ⟨_, setProgress_get (g := Gateway.record _ _ _) hr, ?_⟩
  cases answer with
  | response statusCode seconds => cases seconds <;> exact trivial
  | httpError | otherError => exact trivial

theorem backed_stream {r : Request} (hr : g.requests[n]? = some r) (h : Backed g.loop r)
    (hc : g.loop.Coherent) {b : StreamAction} {fault : Option Statement}
    (hn : g.next cfg (.stream n b fault) = some g') :
    ∃ r', g'.requests[n]? = some r' ∧ Backed g'.loop r' := by
  have hb : ∀ c, b ≠ .env c := by
    rintro c rfl
    simp [Gateway.next] at hn
  obtain ⟨r', gen, s, hr', hprogress, hs, rfl⟩ := next_stream hn
  rw [hr] at hr'
  cases hr'
  unfold Backed at h
  rw [hprogress] at h
  obtain ⟨hrequests, hloop, -⟩ := @streamStep_spec g n r gen fault s
  refine ⟨{ r with progress := .streaming s.gen }, ?_, ?_⟩
  · rw [hrequests]
    exact setProgress_get hr
  · have hgen : GenBacked s.loop (streamCall r cfg.upstreamTimeoutS).job s.gen :=
      Stream.genBacked_next (s := ⟨g.loop, gen⟩) hc h hb hs
    rw [hloop]
    exact hgen

theorem backed_own {r : Request} (hr : g.requests[n]? = some r) (h : Backed g.loop r)
    (hc : g.loop.Coherent) (ha : a.target = some n) (hn : g.next cfg a = some g') :
    ∃ r', g'.requests[n]? = some r' ∧ Backed g'.loop r' := by
  cases a with
  | newDay | env | arrive => cases ha
  | body k body =>
    cases ha
    exact backed_body hr hn
  | acquired k =>
    cases ha
    exact backed_acquired hr h hn
  | answer k answer fault =>
    cases ha
    exact backed_answer hr hn
  | stream k b fault =>
    cases ha
    exact backed_stream hr h hc hn

/-- A call after a step of another call, or a new one. -/
theorem requests_of_move (hm : Move cfg g a g') (ha : a.target ≠ some n) {r : Request}
    (hr : g'.requests[n]? = some r) :
    g.requests[n]? = some r ∨ ∃ stream, r.progress = .reading stream := by
  cases hm with
  | still _ hrequests =>
    rw [hrequests] at hr
    exact Or.inl hr
  | arrives r' stream _ hprogress hrequests =>
    rw [hrequests] at hr
    by_cases hlt : n < g.requests.length
    · rw [List.getElem?_append_left hlt] at hr
      exact Or.inl hr
    · rw [List.getElem?_append_right (Nat.le_of_not_lt hlt)] at hr
      have hmem := List.mem_of_getElem? hr
      rw [List.mem_singleton] at hmem
      exact Or.inr ⟨stream, by rw [hmem, hprogress]⟩
  | moves k r' progress htarget hr' hrequests =>
    rw [requests_set hr' hrequests, if_neg] at hr
    · exact Or.inl hr
    · rintro rfl
      exact ha htarget

theorem backed_next (hnum : Numbered cfg g)
    (h : ∀ (k : Nat) (r : Request), g.requests[k]? = some r → Backed g.loop r)
    (hn : g.next cfg a = some g') :
    ∀ (k : Nat) (r : Request), g'.requests[k]? = some r → Backed g'.loop r := by
  intro k r hr
  have hm := next_move hnum hn
  have hc := Loop.reachable_coherent hnum.reachable
  by_cases ha : a.target = some k
  · cases hm with
    | still htarget | arrives _ _ htarget => simp [htarget] at ha
    | moves j r' progress htarget hr' =>
      rw [htarget, Option.some.injEq] at ha
      subst ha
      obtain ⟨r'', hr'', hbacked⟩ := backed_own hr' (h _ _ hr') hc htarget hn
      rw [hr] at hr''
      cases hr''
      exact hbacked
  · rcases requests_of_move hm ha hr with hwas | ⟨stream, hreading⟩
    · exact backed_others (h k r hwas) hnum hm ha hwas
    · rw [Backed, hreading]
      exact trivial

theorem reachable_backed (hg : (machine cfg today).Reachable g) {k : Nat} {r : Request}
    (hr : g.requests[k]? = some r) : Backed g.loop r := by
  have hinv : Numbered cfg g ∧
      ∀ (k : Nat) (r : Request), g.requests[k]? = some r → Backed g.loop r := by
    refine hg.invariant (fun g => Numbered cfg g ∧
      ∀ (k : Nat) (r : Request), g.requests[k]? = some r → Backed g.loop r)
      ⟨numbered_init today, fun k r hr => ?_⟩ fun g a g' hI _ hn => ?_
    · cases hr
    · exact ⟨hI.1.move (next_move hI.1 hn), backed_next hI.1 hI.2 hn⟩
  exact hinv.2 k r hr

/-! ## The grants of the calls -/

/-- The grants with which the calls are at their workers. -/
def runningGrants (g : Gateway) : List Holding :=
  g.running.filterMap fun run => g.loop.held run.2.i

theorem mem_running {run : Request × LeaseVar} (h : run ∈ g.running) :
    ∃ k : Nat, g.requests[k]? = some run.1 ∧ run.1.progress.running = some run.2 := by
  obtain ⟨r, hr, hrun⟩ := List.mem_filterMap.1 h
  obtain ⟨lease, hlease, rfl⟩ := Option.map_eq_some_iff.1 hrun
  obtain ⟨k, hk⟩ := List.mem_iff_getElem?.1 hr
  exact ⟨k, hk, hlease⟩

/-- A call at a worker has a grant of the worker, for its own job. -/
theorem held_of_running (hg : (machine cfg today).Reachable g) {r : Request} {lease : LeaseVar}
    {k : Nat} (hr : g.requests[k]? = some r) (hrunning : r.progress.running = some lease) :
    g.numberOf k = some lease.i ∧ ∃ grant : Holding, g.loop.held lease.i = some grant ∧
      grant.1.job = r.caller.job ∧ grant.2 = lease.worker ∧ grant.1.seq = lease.i := by
  have hc := Loop.reachable_coherent (reachable_numbered hg).reachable
  obtain ⟨hnumber, c, hcall, hjob, hstate⟩ := (reachable_backed hg hr).running hrunning
  refine ⟨(numberOf_of_get hr).trans hnumber, (c.waiter, lease.worker), ?_, hjob, rfl,
    hc.filed _ _ hcall⟩
  rw [Loop.held_of_calls hcall]
  simp [Call.held, hstate]

theorem nodup_runningGrants (hg : (machine cfg today).Reachable g) : g.runningGrants.Nodup := by
  unfold runningGrants running
  rw [List.filterMap_filterMap]
  refine List.pairwise_filterMap.2 (List.pairwise_iff_getElem.2 fun i j hi hj hlt => ?_)
  intro grant hgrant grant' hgrant' heq
  subst heq
  obtain ⟨run, hrun, hheld⟩ := Option.bind_eq_some_iff.1 hgrant
  obtain ⟨lease, hlease, rfl⟩ := Option.map_eq_some_iff.1 hrun
  obtain ⟨run', hrun', hheld'⟩ := Option.bind_eq_some_iff.1 hgrant'
  obtain ⟨lease', hlease', rfl⟩ := Option.map_eq_some_iff.1 hrun'
  obtain ⟨hnumber, given, hgiven, -, -, hseq⟩ :=
    held_of_running hg (List.getElem?_eq_getElem hi) hlease
  obtain ⟨hnumber', given', hgiven', -, -, hseq'⟩ :=
    held_of_running hg (List.getElem?_eq_getElem hj) hlease'
  -- one grant has one number, and two calls have different numbers
  rw [hheld] at hgiven
  rw [hheld'] at hgiven'
  cases hgiven
  cases hgiven'
  rw [← hseq] at hnumber
  rw [← hseq'] at hnumber'
  have hij := (reachable_numbered hg).unique i j _ hnumber hnumber'
  omega

/-- The calls at a worker have different grants of the scheduler. -/
theorem running_subperm (hg : (machine cfg today).Reachable g) :
    g.runningGrants.Subperm g.loop.outstanding := by
  have hc := Loop.reachable_coherent (reachable_numbered hg).reachable
  refine List.subperm_of_subset (nodup_runningGrants hg) fun grant hgrant => ?_
  obtain ⟨run, -, hheld⟩ := List.mem_filterMap.1 hgrant
  have hseq := (Loop.mem_granted_of_held hc hheld).2
  rw [Loop.mem_outstanding hc, hseq, hheld]

/-- Every call at a worker has a grant. -/
theorem held_running (hg : (machine cfg today).Reachable g) :
    g.running.map (fun run => g.loop.held run.2.i) = g.runningGrants.map some := by
  unfold runningGrants
  rw [List.map_filterMap_some_eq_filter_map_isSome, List.filter_eq_self.2]
  intro holding hholding
  obtain ⟨run, hrun, rfl⟩ := List.mem_map.1 hholding
  obtain ⟨k, hr, hrunning⟩ := mem_running hrun
  obtain ⟨-, grant, hheld, -⟩ := held_of_running hg hr hrunning
  rw [hheld]
  rfl

/-- What is counted of the calls is counted of the grants. -/
theorem countP_running_le (hg : (machine cfg today).Reachable g) {p : Request × LeaseVar → Bool}
    {q : Holding → Bool} (hpq : ∀ run ∈ g.running, ∀ grant : Holding,
      grant.1.job = run.1.caller.job → grant.2 = run.2.worker → p run = true → q grant = true) :
    g.running.countP p ≤ g.runningGrants.countP q := by
  unfold runningGrants
  rw [List.countP_filterMap]
  refine List.countP_mono_left fun run hrun hp => ?_
  obtain ⟨k, hr, hrunning⟩ := mem_running hrun
  obtain ⟨-, grant, hheld, hjob, hworker, -⟩ := held_of_running hg hr hrunning
  rw [hheld]
  exact hpq run hrun grant hjob hworker hp

/-! ## The limits -/

/-- A worker has no more calls than slots. -/
theorem running_worker_le (hg : (machine cfg today).Reachable g) (worker : String) :
    g.running.countP (fun run => run.2.worker = worker) ≤ cfg.scheduler.workers.count worker := by
  have hworkers := Loop.workers_outstanding (reachable_numbered hg).reachable
  calc g.running.countP (fun run => run.2.worker = worker)
      ≤ g.runningGrants.countP (fun grant => grant.2 = worker) :=
        countP_running_le hg fun run _ grant _ hworker hp => by simpa [hworker] using hp
    _ ≤ g.loop.outstanding.countP (fun grant => grant.2 = worker) :=
        (running_subperm hg).countP_le _
    _ = (g.loop.outstanding.map Prod.snd).count worker := by
        rw [List.count, List.countP_map]
        exact List.countP_congr fun grant _ => by simp
    _ ≤ cfg.scheduler.workers.count worker := by
        rw [← hworkers.count_eq, List.count_append]
        exact Nat.le_add_left ..

/-- A capped pool has no more calls than its cap. -/
theorem running_pool_le (hg : (machine cfg today).Reachable g) {pool : String} {cap : Int}
    (hcap : cfg.scheduler.poolCaps pool = some cap) (hpos : 0 ≤ cap) :
    ((g.running.countP fun run => run.1.caller.plan.pool = pool : Nat) : Int) ≤ cap := by
  have hloop := (reachable_numbered hg).reachable
  have hgrants : g.running.countP (fun run => run.1.caller.plan.pool = pool) ≤
      g.loop.grantOrder.countP fun grant => grant.1.job.pool = pool := by
    rw [← (Loop.outstanding_perm (Loop.reachable_coherent hloop)).countP_eq]
    refine le_trans (countP_running_le hg fun run _ grant hjob _ hp => ?_)
      ((running_subperm hg).countP_le _)
    rw [hjob]
    exact hp
  exact le_trans (Int.ofNat_le.2 hgrants) ((Loop.reachable_limits hloop).pool pool cap hcap hpos)

/-- A client has no more calls than the largest concurrency among its calls. -/
theorem running_client_le (hg : (machine cfg today).Reachable g) {client : String} {n : Nat}
    (hn : ∀ run ∈ g.running, run.1.caller.client = client →
      run.1.caller.plan.concurrency ≤ n) :
    g.running.countP (fun run => run.1.caller.client = client) ≤ n := by
  have hloop := (reachable_numbered hg).reachable
  have hperm := Loop.outstanding_perm (Loop.reachable_coherent hloop)
  -- The running calls are ranked in the order of their grants, as a part of the outstanding ones.
  obtain ⟨mine, hmine, hsublist⟩ := (running_subperm hg).trans hperm.subperm
  have hranked := ((Loop.reachable_limits hloop).client client).sublist
    (hsublist.filter fun grant => decide (grant.1.job.client = client))
  have hbound : ∀ grant ∈ mine.filter (fun grant => decide (grant.1.job.client = client)),
      grant.1.job.concurrency ≤ n := by
    intro grant hgrant
    obtain ⟨hmem, hclient⟩ := List.mem_filter.1 hgrant
    obtain ⟨run, hrun, hheld⟩ := List.mem_filterMap.1 (hmine.mem_iff.1 hmem)
    obtain ⟨k, hr, hrunning⟩ := mem_running hrun
    obtain ⟨-, given, hgiven, hjob, -⟩ := held_of_running hg hr hrunning
    rw [hheld] at hgiven
    cases hgiven
    rw [hjob] at hclient ⊢
    exact hn run hrun (of_decide_eq_true hclient)
  calc g.running.countP (fun run => run.1.caller.client = client)
      ≤ g.runningGrants.countP (fun grant => grant.1.job.client = client) :=
        countP_running_le hg fun run _ grant hjob _ hp => by
          rw [hjob]
          exact hp
    _ = mine.countP (fun grant => grant.1.job.client = client) := (hmine.countP_eq _).symm
    _ ≤ n := by
        rw [List.countP_eq_length_filter]
        exact hranked.length_le hbound

/-- However the calls are interleaved, and however they end: every call at a worker has a
grant of the scheduler, no two have the same, a worker has no more calls than it has slots, a
capped pool no more than its cap, and a client no more than the largest concurrency among its
calls. -/
theorem runs_within_limits (hg : (machine cfg today).Reachable g) :
    (g.running.map (fun run => g.loop.held run.2.i) = g.runningGrants.map some ∧
      g.runningGrants.Nodup ∧ g.runningGrants.Subperm g.loop.outstanding) ∧
    (∀ worker, g.running.countP (fun run => run.2.worker = worker) ≤
      cfg.scheduler.workers.count worker) ∧
    (∀ pool cap, cfg.scheduler.poolCaps pool = some cap → 0 ≤ cap →
      ((g.running.countP fun run => run.1.caller.plan.pool = pool : Nat) : Int) ≤ cap) ∧
    ∀ client (n : Nat), (∀ run ∈ g.running, run.1.caller.client = client →
      run.1.caller.plan.concurrency ≤ n) →
      g.running.countP (fun run => run.1.caller.client = client) ≤ n :=
  ⟨⟨held_running hg, nodup_runningGrants hg, running_subperm hg⟩,
    fun worker => running_worker_le hg worker,
    fun _ _ hcap hpos => running_pool_le hg hcap hpos,
    fun _ _ hn => running_client_le hg hn⟩

/-- A call of a pool without a cap waits, with fewer grants than its plan allows, only while
all workers are out, and all but the cap of a capped pool are out to others. -/
theorem waits_for_other_pools (hg : (machine cfg today).Reachable g) {k i : Nat} {r : Request}
    (hr : g.requests[k]? = some r) (hwaiting : r.progress.waiting = some i)
    (hpending : g.loop.sched.futures i = .pending)
    (hopen : cfg.scheduler.poolCaps r.caller.plan.pool = none)
    (hclient : ((g.loop.outstanding.countP fun grant =>
      grant.1.job.client = r.caller.client : Nat) : Int) < r.caller.plan.concurrency) :
    g.loop.sched.free = [] ∧ ∀ pool cap, cfg.scheduler.poolCaps pool = some cap → 0 ≤ cap →
      (cfg.scheduler.workers.length : Int) - cap ≤
        (g.loop.outstanding.countP fun grant => grant.1.job.pool ≠ pool : Nat) := by
  have hloop := (reachable_numbered hg).reachable
  have hc := Loop.reachable_coherent hloop
  have hperm := Loop.outstanding_perm hc
  have hbal := (Loop.reachable_balanced hloop).perm hperm.symm
  obtain ⟨c, hcall, hjob, -⟩ := (reachable_backed hg hr).waiting hwaiting
  have hlive : g.loop.sched.live c.waiter = true := by
    rw [Scheduler.live, hc.filed i c hcall, hpending]
    rfl
  have hok : Scheduler.eligible cfg.scheduler g.loop.sched c.waiter.job = true := by
    rw [hjob]
    refine (Scheduler.eligibleAt_iff cfg.scheduler).2 ⟨fun cap hcap => ?_, ?_⟩
    · rw [show cfg.scheduler.poolCaps r.caller.job.pool = none from hopen] at hcap
      cases hcap
    · rw [hbal.client]
      exact hclient
  have hfree : g.loop.sched.free = [] := by
    by_contra hfree
    have hblocked := Loop.reachable_conserved hloop hfree c.waiter
      (hc.pending i c hcall hpending) hlive
    rw [hok] at hblocked
    cases hblocked
  refine ⟨hfree, fun pool cap hcap hpos => ?_⟩
  have hworkers := hbal.workers.length_eq
  rw [hfree, List.nil_append, List.length_map] at hworkers
  have hmine := (Loop.reachable_limits hloop).pool pool cap hcap hpos
  rw [← hperm.countP_eq] at hmine
  have hsplit := List.length_eq_countP_add_countP (fun grant : Holding =>
    decide (grant.1.job.pool = pool)) (l := g.loop.outstanding)
  have hothers : g.loop.outstanding.countP (fun grant => decide (grant.1.job.pool ≠ pool)) =
      g.loop.outstanding.countP fun grant => decide (¬ (decide (grant.1.job.pool = pool)) = true) :=
    List.countP_congr fun grant _ => by simp
  rw [hothers]
  omega

/-! ## Two calls at the workers -/

def memberCaller : Caller where
  client := "user:1"
  plan := { id := "free", priority := 5, budgetSeconds := some 30, pool := "member" }

def bothRunningRun : List GatewayAction :=
  [.arrive guestCaller false "/api/solve" "r1", .arrive memberCaller true "/api/timeseries" "r2",
    .body 0 .read, .acquired 0, .body 1 .read, .stream 1 (.gen .next) none,
    .stream 1 (.gen .next) none, .stream 1 .start none, .stream 1 (.gen .wake) none]

def bothRunning : Gateway :=
  ((machine smallGateway newYear).run (init smallGateway newYear) bothRunningRun).getD
    (init smallGateway newYear)

theorem bothRunning_reachable : (machine smallGateway newYear).Reachable bothRunning :=
  Transition.Machine.reachable_of_run
    (show (machine smallGateway newYear).run _ bothRunningRun = _ from rfl)

theorem runs_within_limits_both :
    bothRunning.runningGrants.length = 2 ∧ bothRunning.runningGrants.Nodup ∧
      bothRunning.running.countP (fun run => run.2.worker = "http://w1") ≤ 1 ∧
      ((bothRunning.running.countP fun run => run.1.caller.plan.pool = "guest" : Nat) : Int) ≤ 1 := by
  obtain ⟨⟨-, hnodup, -⟩, hworkers, hpools, -⟩ := runs_within_limits bothRunning_reachable
  exact ⟨by decide +kernel, hnodup, hworkers "http://w1", hpools "guest" 1 rfl (by decide)⟩

end Gateway

end OpendssGateway
