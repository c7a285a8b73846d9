import Mathlib.Algebra.Order.Ring.Rat
import OpendssGateway.Library.Transition
import OpendssGateway.Scheduler.Methods

/-!
# Runs of the scheduler on an event loop

A call of `acquire` runs until its `await`, and from then on it is a
coroutine that the event loop resumes.  `Loop` is the scheduler, the
clock and the calls that entered the queue, by the number of their
waiter.  `next` is one step of the event loop.  Its actions are the
entries of the code (`acquire`, `Lease.release`, `drain`), what the event
loop does to a suspended call (its wait timer fires, its task is
cancelled, it resumes), and the passing of time.

What `asyncio` does is in `interrupt` and `resume`.  A timer or a
cancellation cancels the future at once, if it is pending, and the call
sees the interruption when it resumes.  When the future is already done,
the future stays as it is, and the call still sees the interruption: this
is the grant in the tick in which the caller gives up.  A future that is
done at the `await` does not suspend the call, and a timeout that is not
positive interrupts it before it suspends.

`returned` is history: the numbers of the calls whose worker went back to
the scheduler, once for every time it did.
-/

namespace OpendssGateway

/-- Where a call of `acquire` is.  While it waits, `expired` says whether
its timer fired and `cancelled` whether its task was cancelled. -/
inductive CallState
  | waiting (expired cancelled : Bool)
  | leased (worker : String) (waited : ℚ) (released : Bool)
  | raised (e : AcquireError)
  deriving DecidableEq

/-- The states in which a call has handed back `worker`. -/
def CallState.Returned (worker : String) (state : CallState) : Prop :=
  state = .raised .queueTimeout ∨ ∃ waited, state = .leased worker waited true

/-- A call of `acquire` that entered the queue. -/
structure Call where
  waiter : Waiter
  waitS : ℚ
  state : CallState
  deriving DecidableEq

/-- The scheduler under an event loop. -/
structure Loop where
  now : ℚ
  sched : Scheduler
  calls : Nat → Option Call
  returned : List Nat

/-- What can happen next. -/
inductive Action
  | tick (seconds : ℚ)
  | acquire (job : Job) (waitS : Option ℚ)
  | timeout (i : Nat)
  | cancel (i : Nat)
  | resume (i : Nat)
  | release (i : Nat)
  | drain

/-- The worker that a call holds while its future is `f`: a grant that it
has not picked up, or a lease that it has not released. -/
def Call.held (c : Call) (f : Future) : Option Holding :=
  match c.state, f with
  | .waiting _ _, .result worker => some (c.waiter, worker)
  | .leased worker _ false, _ => some (c.waiter, worker)
  | _, _ => none

namespace Loop

variable (cfg : SchedulerConfig)

def init : Loop where
  now := 0
  sched := Scheduler.init cfg
  calls := fun _ => none
  returned := []

def setCall (l : Loop) (i : Nat) (c : Call) : Loop :=
  { l with calls := Function.update l.calls i (some c) }

/-- The worker that call `i` holds. -/
def held (l : Loop) (i : Nat) : Option Holding :=
  (l.calls i).bind fun c => c.held (l.sched.futures i)

/-- The outstanding grants, by the number of their call. -/
def outstanding (l : Loop) : List Holding :=
  (List.range l.sched.nextSeq).filterMap l.held

/-- The outstanding grants in the order in which they were made. -/
def grantOrder (l : Loop) : List Holding :=
  l.sched.granted.filter fun h => (l.held h.1.seq).isSome

/-! ## The parts of a step -/

/-- `Task.cancel()` on a call that waits. -/
def interrupt (l : Loop) (i : Nat) (c : Call) (expired cancelled : Bool) : Loop :=
  { l with sched := l.sched.cancelFuture i }.setCall i
    { c with state := .waiting expired cancelled }

/-- The call returns its lease. -/
def pickUp (l : Loop) (i : Nat) (c : Call) (worker : String) : Loop :=
  l.setCall i { c with state := .leased worker (l.now - c.waiter.enqueued) false }

/-- The call ends in the `except` branch. -/
def giveUp (l : Loop) (i : Nat) (c : Call) : Loop :=
  { l with
    sched := (l.sched.giveUp cfg c.waiter).1
    returned := match l.sched.futures i with
      | .result _ => l.returned ++ [i]
      | _ => l.returned }.setCall i
    { c with state := .raised (l.sched.giveUp cfg c.waiter).2 }

/-- `acquire` up to its `await`, the `await` of a future that is done, and
the timeout that is not positive. -/
def acquire (l : Loop) (job : Job) (waitS : Option ℚ) : Loop :=
  match l.sched.acquire cfg job l.now with
  | .error _ => l
  | .ok (s, waiter) =>
    let c : Call := ⟨waiter, waitS.getD cfg.waitS, .waiting false false⟩
    let l := { l with sched := s }.setCall waiter.seq c
    match s.futures waiter.seq with
    | .result worker => l.pickUp waiter.seq c worker
    | _ => if c.waitS ≤ 0 then l.interrupt waiter.seq c true false else l

/-- The call resumes with its future done.  An interruption is raised at the
`await`, whatever the future holds. -/
def resume (l : Loop) (i : Nat) (c : Call) (interrupted : Bool) : Option Loop :=
  match interrupted, l.sched.futures i with
  | _, .pending => none
  | false, .result worker => some (l.pickUp i c worker)
  | false, .exception e => some (l.setCall i { c with state := .raised e })
  | _, _ => some (l.giveUp cfg i c)

/-- `Lease.release` of a lease that is held. -/
def release (l : Loop) (i : Nat) (c : Call) (worker : String) (waited : ℚ) : Loop :=
  { l with
    sched := l.sched.release cfg worker c.waiter.job
    returned := l.returned ++ [i] }.setCall i { c with state := .leased worker waited true }

/-- One step of the event loop.  A timer fires from its deadline on. -/
def next (l : Loop) : Action → Option Loop
  | .tick seconds => if 0 ≤ seconds then some { l with now := l.now + seconds } else none
  | .acquire job waitS => some (l.acquire cfg job waitS)
  | .timeout i =>
    match l.calls i with
    | some c =>
      match c.state with
      | .waiting false cancelled =>
        if c.waiter.enqueued + c.waitS ≤ l.now then some (l.interrupt i c true cancelled)
        else none
      | _ => none
    | none => none
  | .cancel i =>
    match l.calls i with
    | some c =>
      match c.state with
      | .waiting expired _ => some (l.interrupt i c expired true)
      | _ => none
    | none => none
  | .resume i =>
    match l.calls i with
    | some c =>
      match c.state with
      | .waiting expired cancelled => l.resume cfg i c (expired || cancelled)
      | _ => none
    | none => none
  | .release i =>
    match l.calls i with
    | some c =>
      match c.state with
      | .leased worker waited false => some (l.release cfg i c worker waited)
      | .leased _ _ true => some l
      | _ => none
    | none => none
  | .drain => some { l with sched := l.sched.drain }

/-- The runs of a scheduler that was made with `cfg`. -/
def machine : Transition.Machine Loop Action where
  init := init cfg
  next := next cfg

theorem reachable_next {l l' : Loop} (h : (machine cfg).Reachable l) {a : Action}
    (hn : l.next cfg a = some l') : (machine cfg).Reachable l' :=
  h.next (a := a) hn

/-! ## The parts of a step as a relation

Every step is a sequence of parts, so an invariant that each part keeps
holds in every reachable state, and the case analysis of `next` is made
once. -/

/-- A new call and its waiter, before the dispatch. -/
def enter (l : Loop) (waiter : Waiter) (waitS : ℚ) : Loop :=
  { l with sched := l.sched.enqueue waiter }.setCall waiter.seq
    ⟨waiter, waitS, .waiting false false⟩

def redispatch (l : Loop) : Loop :=
  { l with sched := Scheduler.dispatch cfg l.sched }

def forget (l : Loop) (c : Call) : Loop :=
  { l with sched := l.sched.forget c.waiter }

def raise (l : Loop) (i : Nat) (c : Call) (e : AcquireError) : Loop :=
  l.setCall i { c with state := .raised e }

/-- The worker of call `i` goes back, before the dispatch. -/
def handBack (l : Loop) (i : Nat) (c : Call) (worker : String) (state : CallState) : Loop :=
  { l with
    sched := l.sched.reclaim worker c.waiter.job
    returned := l.returned ++ [i] }.setCall i { c with state := state }

/-- Call `i` waits. -/
def Waits (l : Loop) (i : Nat) (c : Call) : Prop :=
  l.calls i = some c ∧ ∃ expired cancelled, c.state = .waiting expired cancelled

inductive Part : Loop → Loop → Prop
  | tick (l : Loop) (seconds : ℚ) : 0 ≤ seconds → Part l { l with now := l.now + seconds }
  | enter (l : Loop) (job : Job) (waitS : ℚ) :
      l.sched.draining = false → l.sched.waiting.length < cfg.maxQueue →
      Part l ((l.enter ⟨job.priority, l.sched.nextSeq, job, l.now⟩ waitS).redispatch cfg)
  | interrupt (l : Loop) (i : Nat) (c : Call) (expired cancelled : Bool) :
      l.Waits i c → Part l (l.interrupt i c expired cancelled)
  | pickUp (l : Loop) (i : Nat) (c : Call) (worker : String) :
      l.Waits i c → l.sched.futures i = .result worker → Part l (l.pickUp i c worker)
  | raise (l : Loop) (i : Nat) (c : Call) (e : AcquireError) :
      l.Waits i c → l.sched.futures i = .exception e → Part l (l.raise i c e)
  | abandon (l : Loop) (i : Nat) (c : Call) (e : AcquireError) :
      l.Waits i c → (∀ worker, l.sched.futures i ≠ .result worker) →
      l.sched.futures i ≠ .pending → Part l ((l.forget c).raise i c e)
  | forget (l : Loop) (i : Nat) (c : Call) :
      l.Waits i c → l.sched.futures i ≠ .pending → Part l (l.forget c)
  | handBack (l : Loop) (i : Nat) (c : Call) (worker : String) (state : CallState) :
      l.calls i = some c → c.held (l.sched.futures i) = some (c.waiter, worker) →
      state.Returned worker → Part l ((l.handBack i c worker state).redispatch cfg)
  | drain (l : Loop) : Part l { l with sched := l.sched.drain }

variable {cfg}

/-- The calls are filed under the numbers of their waiters. -/
def Filed (l : Loop) : Prop :=
  ∀ i c, l.calls i = some c → c.waiter.seq = i

theorem setCall_calls (l : Loop) (i : Nat) (c : Call) (j : Nat) :
    (l.setCall i c).calls j = if j = i then some c else l.calls j := by
  unfold setCall
  split
  · rename_i h
    rw [h]
    exact Function.update_self ..
  · rename_i h
    exact Function.update_of_ne h ..

theorem Filed.setCall {l : Loop} (h : l.Filed) {i : Nat} {c : Call} (hc : c.waiter.seq = i) :
    (l.setCall i c).Filed := by
  intro j d hd
  rw [setCall_calls] at hd
  split at hd
  · rename_i hj
    cases hd
    rw [hj, hc]
  · exact h j d hd

theorem Part.filed {l l' : Loop} (hp : Part cfg l l') (h : l.Filed) : l'.Filed := by
  cases hp with
  | tick | forget | drain => exact h
  | enter => exact Filed.setCall (l := { l with sched := _ }) h rfl
  | interrupt i c _ _ hw => exact Filed.setCall (l := { l with sched := _ }) h (h i c hw.1)
  | pickUp i c _ hw => exact Filed.setCall h (h i c hw.1)
  | raise i c _ hw => exact Filed.setCall h (h i c hw.1)
  | abandon i c _ hw => exact Filed.setCall (l := { l with sched := _ }) h (h i c hw.1)
  | handBack i c _ _ hc =>
    exact Filed.setCall (l := { l with sched := _, returned := _ }) h (h i c hc)

open Relation

/-- The call that `acquire` files under its new waiter. -/
def newCall (l : Loop) (job : Job) (waitS : ℚ) : Call :=
  ⟨⟨job.priority, l.sched.nextSeq, job, l.now⟩, waitS, .waiting false false⟩

/-- The new call is in the queue and the dispatch is done. -/
def entered (cfg : SchedulerConfig) (l : Loop) (job : Job) (waitS : ℚ) : Loop :=
  (l.enter (l.newCall job waitS).waiter waitS).redispatch cfg

/-- The ways through `acquire`: refused, or with a new call, which is granted a
worker, is interrupted, or waits. -/
inductive Acquires (cfg : SchedulerConfig) (l : Loop) (job : Job) (waitS : ℚ) : Loop → Prop
  | refused (e : AcquireError) : l.sched.acquire cfg job l.now = .error e →
      Acquires cfg l job waitS l
  | granted (worker : String) : l.sched.draining = false →
      l.sched.waiting.length < cfg.maxQueue →
      (l.entered cfg job waitS).sched.futures l.sched.nextSeq = .result worker →
      Acquires cfg l job waitS
        ((l.entered cfg job waitS).pickUp l.sched.nextSeq (l.newCall job waitS) worker)
  | interrupted : l.sched.draining = false → l.sched.waiting.length < cfg.maxQueue →
      waitS ≤ 0 → Acquires cfg l job waitS
        ((l.entered cfg job waitS).interrupt l.sched.nextSeq (l.newCall job waitS) true false)
  | waits : l.sched.draining = false → l.sched.waiting.length < cfg.maxQueue →
      Acquires cfg l job waitS (l.entered cfg job waitS)

theorem acquires (l : Loop) (job : Job) (waitS : Option ℚ) :
    Acquires cfg l job (waitS.getD cfg.waitS) (l.acquire cfg job waitS) := by
  unfold Loop.acquire
  cases hacq : l.sched.acquire cfg job l.now with
  | error e => exact Acquires.refused e hacq
  | ok p =>
    unfold Scheduler.acquire at hacq
    split_ifs at hacq with hdraining hfull
    have hopen : l.sched.draining = false := by simpa using hdraining
    have hroom : (l.sched.waiting.length : Int) < cfg.maxQueue := by simpa using hfull
    cases hacq
    dsimp only
    split
    · rename_i worker hresult
      exact Acquires.granted worker hopen hroom hresult
    · split_ifs with hwait
      · exact Acquires.interrupted hopen hroom hwait
      · exact Acquires.waits hopen hroom

/-- A call that `acquire` files waits. -/
theorem waits_entered (l : Loop) (job : Job) (waitS : ℚ) :
    (l.entered cfg job waitS).Waits l.sched.nextSeq (l.newCall job waitS) :=
  ⟨Function.update_self .., false, false, rfl⟩

/-- Entering the queue with its dispatch, and what follows at once. -/
theorem acquire_parts (l : Loop) (job : Job) (waitS : Option ℚ) :
    ReflTransGen (Part cfg) l (l.acquire cfg job waitS) := by
  have hwaits := @waits_entered cfg l job (waitS.getD cfg.waitS)
  have hentered : ∀ {w : ℚ}, l.sched.draining = false →
      (l.sched.waiting.length : Int) < cfg.maxQueue →
      ReflTransGen (Part cfg) l (l.entered cfg job w) :=
    fun hopen hroom => ReflTransGen.single (Part.enter l job _ hopen hroom)
  have hacquires := @acquires cfg l job waitS
  generalize l.acquire cfg job waitS = l' at hacquires
  cases hacquires with
  | refused => exact ReflTransGen.refl
  | granted worker hopen hroom hresult =>
    exact (hentered hopen hroom).tail (Part.pickUp _ _ _ worker hwaits hresult)
  | interrupted hopen hroom =>
    exact (hentered hopen hroom).tail (Part.interrupt _ _ _ true false hwaits)
  | waits hopen hroom => exact hentered hopen hroom

/-- Giving up forgets the waiter, and hands back the worker of a grant. -/
theorem giveUp_parts {l : Loop} (hfiled : l.Filed) {i : Nat} {c : Call} (hw : l.Waits i c)
    (hdone : l.sched.futures i ≠ .pending) :
    ReflTransGen (Part cfg) l (l.giveUp cfg i c) := by
  have hforget : ReflTransGen (Part cfg) l (l.forget c) :=
    ReflTransGen.single (Part.forget l i c hw hdone)
  have hfut : (l.sched.forget c.waiter).futures = l.sched.futures := Scheduler.forget_futures _ _
  unfold Loop.giveUp Scheduler.giveUp
  simp only [hfiled i c hw.1, hfut]
  cases hf : l.sched.futures i with
  | pending => exact absurd hf hdone
  | result worker =>
    obtain ⟨hcall, expired, cancelled, hstate⟩ := hw
    have hheld : c.held ((l.forget c).sched.futures i) = some (c.waiter, worker) := by
      rw [show (l.forget c).sched.futures i = _ from congrFun hfut i, hf]
      simp [Call.held, hstate]
    exact hforget.tail
      (Part.handBack _ i c worker (.raised .queueTimeout) hcall hheld (Or.inl rfl))
  | exception e =>
    exact ReflTransGen.single (Part.abandon l i c e hw (by simp [hf]) (by simp [hf]))
  | cancelled =>
    exact ReflTransGen.single
      (Part.abandon l i c .queueTimeout hw (by simp [hf]) (by simp [hf]))

theorem resume_parts {l l' : Loop} (hfiled : l.Filed) {i : Nat} {c : Call} (hw : l.Waits i c)
    {interrupted : Bool} (h : l.resume cfg i c interrupted = some l') :
    ReflTransGen (Part cfg) l l' := by
  unfold Loop.resume at h
  split at h
  · cases h
  · rename_i worker hf
    cases h
    exact ReflTransGen.single (Part.pickUp l i c worker hw hf)
  · rename_i e hf
    cases h
    exact ReflTransGen.single (Part.raise l i c e hw hf)
  · rename_i hpending _ _
    cases h
    exact giveUp_parts hfiled hw hpending

/-- Every step is a sequence of parts. -/
theorem next_parts {l l' : Loop} (hfiled : l.Filed) {a : Action}
    (h : l.next cfg a = some l') : ReflTransGen (Part cfg) l l' := by
  cases a with
  | tick seconds =>
    simp only [next, Option.ite_none_right_eq_some, Option.some.injEq] at h
    obtain ⟨hpos, rfl⟩ := h
    exact ReflTransGen.single (Part.tick l seconds hpos)
  | acquire job waitS =>
    cases h
    exact acquire_parts l job waitS
  | timeout i =>
    simp only [next] at h
    split at h <;> try cases h
    rename_i c hc
    split at h <;> try cases h
    rename_i cancelled hstate
    split at h <;> cases h
    exact ReflTransGen.single (Part.interrupt l i c true cancelled ⟨hc, false, cancelled, hstate⟩)
  | cancel i =>
    simp only [next] at h
    split at h <;> try cases h
    rename_i c hc
    split at h <;> cases h
    rename_i expired cancelled hstate
    exact ReflTransGen.single (Part.interrupt l i c expired true ⟨hc, expired, cancelled, hstate⟩)
  | resume i =>
    simp only [next] at h
    split at h <;> try cases h
    rename_i c hc
    split at h <;> try cases h
    rename_i expired cancelled hstate
    exact resume_parts hfiled ⟨hc, expired, cancelled, hstate⟩ h
  | release i =>
    simp only [next] at h
    split at h <;> try cases h
    rename_i c hc
    split at h <;> cases h
    · rename_i worker waited hstate
      have hheld : c.held (l.sched.futures i) = some (c.waiter, worker) := by
        simp [Call.held, hstate]
      exact ReflTransGen.single (Part.handBack l i c worker (.leased worker waited true) hc hheld
        (Or.inr ⟨waited, rfl⟩))
    · exact ReflTransGen.refl
  | drain =>
    cases h
    exact ReflTransGen.single (Part.drain l)

theorem init_filed : (init cfg).Filed := by
  intro i c hc
  cases hc

/-- The induction over runs, by parts: what holds at the start and is kept by
every part holds in every reachable state. -/
theorem reachable_by_parts (I : Loop → Prop) (hinit : I (init cfg))
    (hpart : ∀ l l', I l → Part cfg l l' → I l') {l : Loop}
    (h : (machine cfg).Reachable l) : I l := by
  refine (h.invariant (fun l => l.Filed ∧ I l) ⟨init_filed, hinit⟩ ?_).2
  intro l a l' hl _ hnext
  have hparts : ReflTransGen (Part cfg) l l' := next_parts hl.1 hnext
  clear hnext
  induction hparts with
  | refl => exact hl
  | tail _ hp ih => exact ⟨hp.filed ih.1, hpart _ _ ih.2 hp⟩

end Loop

/-! ## A small run

Two workers, at most one of them for guests, and a queue of one.  The first
guest runs, and the second one waits although a worker is free. -/

def smallConfig : SchedulerConfig where
  workers := ["http://w1", "http://w2"]
  poolCaps p := if p = "guest" then some 1 else none
  maxQueue := 1
  nonempty := by decide

def guestJob (client : String) : Job :=
  { client := client, planId := "guest", priority := 10 }

def memberJob : Job :=
  { client := "user:1", planId := "free", priority := 5, pool := "member" }

def guestsQueuedRun : List Action :=
  [.acquire (guestJob "ip:192.0.2.1") none, .acquire (guestJob "ip:192.0.2.2") none]

def guestsQueued : Loop :=
  ((Loop.machine smallConfig).run (Loop.init smallConfig) guestsQueuedRun).getD
    (Loop.init smallConfig)

theorem guestsQueued_reachable : (Loop.machine smallConfig).Reachable guestsQueued :=
  Transition.Machine.reachable_of_run (show (Loop.machine smallConfig).run _ guestsQueuedRun = _ from rfl)

end OpendssGateway
