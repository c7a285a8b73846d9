import Mathlib.Data.Prod.Lex
import Mathlib.Data.Rat.Defs
import OpendssGateway.Library.Counter
import OpendssGateway.Library.Heapq

/-!
# The scheduler

The classes of `scheduler.py`: one dispatch slot per worker, handed out in
priority order, with a cap per pool and a limit per client on top.

`Scheduler` is the object: the free workers, the waiting heap and the two
counters.  A waiter owns a future; the model keeps the futures in one
table, by the sequence number of the waiter, because `acquire` draws a
fresh number and creates a fresh future together.  The constructor's
arguments are a `SchedulerConfig`, which no method changes, so the methods
take it as an argument.

Two fields are history and nothing reads them.  `grants` is the list of
all grants, the oldest first, each with what the scheduler looked like
when it was made.  `invalidState` says whether `set_result` or
`set_exception` was ever called on a future that was done, which raises
`InvalidStateError`.

Times are rational seconds of the event loop's clock.
-/

namespace OpendssGateway

open Heapq

/-! ## Jobs, futures and waiters -/

/-- The exceptions of `acquire`. -/
inductive AcquireError
  | queueFull
  | queueTimeout
  | draining
  deriving DecidableEq

/-- `Job`. -/
structure Job where
  client : String
  planId : String
  priority : Int
  pool : String := "guest"
  concurrency : Int := 1
  deriving DecidableEq

/-- The state of an `asyncio.Future`. -/
inductive Future
  | pending
  | result (worker : String)
  | exception (e : AcquireError)
  | cancelled
  deriving DecidableEq

/-- `Future.done()`. -/
def Future.done : Future → Bool
  | pending => false
  | _ => true

@[simp] theorem Future.done_eq_false {f : Future} : f.done = false ↔ f = .pending := by
  cases f <;> simp [Future.done]

/-- `_Waiter`.  Its future is the one of number `seq`. -/
structure Waiter where
  priority : Int
  seq : Nat
  job : Job
  enqueued : ℚ
  deriving DecidableEq

/-- The fields that a `_Waiter` compares: priority, then arrival. -/
def Waiter.key (w : Waiter) : Int ×ₗ Nat :=
  toLex (w.priority, w.seq)

/-- A waiter comes first when its priority number is lower, or on a tie
when it arrived earlier. -/
theorem Waiter.key_lt_iff {v w : Waiter} :
    v.key < w.key ↔ v.priority < w.priority ∨ v.priority = w.priority ∧ v.seq < w.seq :=
  Prod.Lex.toLex_lt_toLex

theorem Waiter.seq_eq_of_key_eq {v w : Waiter} (h : v.key = w.key) : v.seq = w.seq :=
  congrArg (fun k => (ofLex k).2) h

/-! ## The object -/

/-- The arguments of `Scheduler(...)`.  The constructor refuses an empty
list of workers. -/
structure SchedulerConfig where
  workers : List String
  poolCaps : String → Option Int := fun _ => none
  maxQueue : Int := 16
  waitS : ℚ := 45
  nonempty : workers ≠ []

/-- One grant, with the live queue and the counters of the moment. -/
structure Grant where
  waiter : Waiter
  worker : String
  queue : List Waiter
  poolInuse : Counter String
  clientInuse : Counter String

/-- A worker in the hands of a job. -/
abbrev Holding := Waiter × String

def Grant.holding (g : Grant) : Holding :=
  (g.waiter, g.worker)

/-- `Scheduler`. -/
structure Scheduler where
  free : List String
  waiting : List Waiter
  poolInuse : Counter String
  clientInuse : Counter String
  nextSeq : Nat
  draining : Bool
  futures : Nat → Future
  grants : List Grant
  invalidState : Bool

namespace Scheduler

/-- All grants as holdings, the oldest first. -/
def granted (s : Scheduler) : List Holding :=
  s.grants.map Grant.holding

variable (cfg : SchedulerConfig)

/-- `Scheduler.__init__`. -/
def init : Scheduler where
  free := cfg.workers
  waiting := []
  poolInuse := fun _ => 0
  clientInuse := fun _ => 0
  nextSeq := 0
  draining := false
  futures := fun _ => .pending
  grants := []
  invalidState := false

/-- `Scheduler.inflight`. -/
def inflight (s : Scheduler) : Int :=
  cfg.workers.length - s.free.length

/-- A waiter is live while its future is not done. -/
def live (s : Scheduler) (w : Waiter) : Bool :=
  !(s.futures w.seq).done

/-- `_eligible` on given counters. -/
def eligibleAt (poolInuse clientInuse : Counter String) (job : Job) : Bool :=
  match cfg.poolCaps job.pool with
  | some cap =>
    if poolInuse job.pool ≥ cap then false
    else decide (clientInuse job.client < job.concurrency)
  | none => decide (clientInuse job.client < job.concurrency)

/-- A job is eligible when its pool is below its cap and its client below
the concurrency of the job. -/
theorem eligibleAt_iff {poolInuse clientInuse : Counter String} {job : Job} :
    eligibleAt cfg poolInuse clientInuse job = true ↔
      (∀ cap, cfg.poolCaps job.pool = some cap → poolInuse job.pool < cap) ∧
        clientInuse job.client < job.concurrency := by
  unfold eligibleAt
  split
  · rename_i cap hcap
    split <;> simp [hcap] <;> omega
  · rename_i hcap
    simp [hcap]

/-- Higher counters make no job eligible. -/
theorem eligibleAt_mono {poolInuse clientInuse poolInuse' clientInuse' : Counter String} {job : Job}
    (hpool : poolInuse job.pool ≤ poolInuse' job.pool)
    (hclient : clientInuse job.client ≤ clientInuse' job.client)
    (h : eligibleAt cfg poolInuse' clientInuse' job = true) :
    eligibleAt cfg poolInuse clientInuse job = true := by
  rw [eligibleAt_iff] at h ⊢
  exact ⟨fun cap hcap => lt_of_le_of_lt hpool (h.1 cap hcap), lt_of_le_of_lt hclient h.2⟩

/-- `_eligible`. -/
def eligible (s : Scheduler) (job : Job) : Bool :=
  eligibleAt cfg s.poolInuse s.clientInuse job

/-! ## Futures -/

/-- `future.set_result(worker)`. -/
def setResult (s : Scheduler) (seq : Nat) (worker : String) : Scheduler :=
  if (s.futures seq).done then { s with invalidState := true }
  else { s with futures := Function.update s.futures seq (.result worker) }

/-- `future.set_exception(e)`. -/
def setException (s : Scheduler) (seq : Nat) (e : AcquireError) : Scheduler :=
  if (s.futures seq).done then { s with invalidState := true }
  else { s with futures := Function.update s.futures seq (.exception e) }

/-- `future.cancel()`, which does nothing to a future that is done. -/
def cancelFuture (s : Scheduler) (seq : Nat) : Scheduler :=
  if (s.futures seq).done then s
  else { s with futures := Function.update s.futures seq .cancelled }

theorem setResult_of_pending {s : Scheduler} {seq : Nat} (h : (s.futures seq).done = false)
    (worker : String) :
    s.setResult seq worker =
      { s with futures := Function.update s.futures seq (.result worker) } := by
  rw [setResult, if_neg (by rw [h]; exact Bool.false_ne_true)]

theorem setException_of_pending {s : Scheduler} {seq : Nat} (h : (s.futures seq).done = false)
    (e : AcquireError) :
    s.setException seq e =
      { s with futures := Function.update s.futures seq (.exception e) } := by
  rw [setException, if_neg (by rw [h]; exact Bool.false_ne_true)]

/-! ## Dispatch -/

/-- Push waiters back on the heap, one by one. -/
def pushAll (s : Scheduler) (skipped : List Waiter) : Scheduler :=
  { s with waiting := skipped.foldl (fun heap w => heappush Waiter.key heap w) s.waiting }

/-- The body of the grant: count the job and hand it the worker.  `rest` and
`skipped` are the waiters that are still queued. -/
def grant (s : Scheduler) (waiter : Waiter) (worker : String) (rest skipped : List Waiter) :
    Scheduler :=
  setResult
    { s with
      poolInuse := s.poolInuse.add waiter.job.pool 1
      clientInuse := s.clientInuse.add waiter.job.client 1
      grants := s.grants ++
        [⟨waiter, worker, (rest ++ skipped).filter s.live, s.poolInuse, s.clientInuse⟩] }
    waiter.seq worker

/-- A grant to a waiter whose future is pending. -/
theorem grant_of_pending {s : Scheduler} {waiter : Waiter}
    (h : (s.futures waiter.seq).done = false) (worker : String) (rest skipped : List Waiter) :
    s.grant waiter worker rest skipped =
      { s with
        poolInuse := s.poolInuse.add waiter.job.pool 1
        clientInuse := s.clientInuse.add waiter.job.client 1
        grants := s.grants ++
          [⟨waiter, worker, (rest ++ skipped).filter s.live, s.poolInuse, s.clientInuse⟩]
        futures := Function.update s.futures waiter.seq (.result worker) } := by
  rw [grant]
  refine setResult_of_pending ?_ worker
  exact h

/-- The `while` loop of `_dispatch`.  Every round pops one waiter, so the
length of the heap is enough fuel. -/
def dispatchLoop : Nat → Scheduler → List Waiter → Scheduler
  | 0, s, skipped => s.pushAll skipped
  | fuel + 1, s, skipped =>
    match heappop Waiter.key s.waiting, s.free with
    | some (waiter, rest), worker :: free =>
      if (s.futures waiter.seq).done then
        -- abandoned (timed out) while queued
        dispatchLoop fuel { s with waiting := rest } skipped
      else if !eligible cfg s waiter.job then
        dispatchLoop fuel { s with waiting := rest } (skipped ++ [waiter])
      else
        dispatchLoop fuel
          (grant { s with waiting := rest, free := free } waiter worker rest skipped) skipped
    | _, _ => s.pushAll skipped

/-- `_dispatch`. -/
def dispatch (s : Scheduler) : Scheduler :=
  if s.free.isEmpty || s.waiting.isEmpty then s
  else dispatchLoop cfg s.waiting.length s []

/-! ## Acquire and release -/

/-- The first three lines of `_release`. -/
def reclaim (s : Scheduler) (worker : String) (job : Job) : Scheduler :=
  { s with
    free := s.free ++ [worker]
    poolInuse := s.poolInuse.add job.pool (-1)
    clientInuse := s.clientInuse.add job.client (-1) }

/-- `_release`. -/
def release (s : Scheduler) (worker : String) (job : Job) : Scheduler :=
  dispatch cfg (s.reclaim worker job)

/-- `_forget`.  The waiters compare by their keys, and a waiter that is not
queued leaves the heap as it is. -/
def forget (s : Scheduler) (waiter : Waiter) : Scheduler :=
  if s.waiting.any (fun w => w.key = waiter.key) then
    { s with
      waiting := heapify Waiter.key (s.waiting.eraseP fun w => w.key = waiter.key) }
  else s

/-- The waiter and its future, pushed on the heap. -/
def enqueue (s : Scheduler) (waiter : Waiter) : Scheduler :=
  { s with
    waiting := heappush Waiter.key s.waiting waiter
    nextSeq := s.nextSeq + 1
    futures := Function.update s.futures waiter.seq .pending }

/-- `acquire` up to its `await`. -/
def acquire (s : Scheduler) (job : Job) (now : ℚ) :
    Except AcquireError (Scheduler × Waiter) :=
  if s.draining then .error .draining
  else if s.waiting.length ≥ cfg.maxQueue then .error .queueFull
  else
    let waiter : Waiter := ⟨job.priority, s.nextSeq, job, now⟩
    .ok (dispatch cfg (s.enqueue waiter), waiter)

/-- The `except (TimeoutError, CancelledError)` branch of `acquire`: what it
does to the scheduler, and the exception it raises.  On a future with an
exception `result()` raises that exception again. -/
def giveUp (s : Scheduler) (waiter : Waiter) : Scheduler × AcquireError :=
  let s := s.forget waiter
  match s.futures waiter.seq with
  | .result worker => (release cfg s worker waiter.job, .queueTimeout)
  | .exception e => (s, e)
  | _ => (s, .queueTimeout)

/-- The start of `drain`: refuse new work and fail the queue. -/
def drain (s : Scheduler) : Scheduler :=
  let s := { s with draining := true }
  let failed := s.waiting.foldl (fun acc w =>
    if (acc.futures w.seq).done then acc else acc.setException w.seq .draining) s
  { failed with waiting := [] }

end Scheduler

end OpendssGateway
