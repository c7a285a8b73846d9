import OpendssGateway.Gateway.Ledger
import OpendssGateway.Gateway.Metering
import OpendssGateway.Scheduler.Loop

/-!
# The time-series stream

The generator `gen()` of `_stream_call`, as a state machine.  A `Point` is
a place where it is suspended: a `yield`, or an `await` of the acquire
task, of the worker's response or of `aclose`.  An `Event` is what can
happen there.  The consumer asks for the next item or closes the
generator, the task that runs it is cancelled, or the thing it awaits
answers or fails.

The lease comes from a separate task, which runs `Scheduler.acquire`
beside the generator.  `start` is the first step of that task; its later
steps are steps of the event loop, so they are in `env` with everything
else that happens to the scheduler.

A consumer that is cancelled while the generator is suspended at a
`yield` closes it there, which raises `GeneratorExit`.

`sent` and `records` are history: whether `client.send` was called, and
the arguments of the calls of `ledger.record`.
-/

namespace OpendssGateway

/-- What `_stream_call` has computed when it makes the generator. -/
structure StreamCall where
  job : Job
  waitS : ℚ
  period : String
  path : String
  requestId : String

/-- The exceptions that can leave the generator. -/
inductive GenException
  | cancelled
  | generatorExit
  | valueError
  | other
  deriving DecidableEq

inductive Outcome
  | returned
  | raised (e : GenException)
  deriving DecidableEq

/-- Where the generator is suspended. -/
inductive Point
  | unstarted
  /-- `yield b": open\n\n"` -/
  | opened
  /-- `await asyncio.wait({acquire}, timeout=10.0)` -/
  | waiting
  /-- `yield b": queued\n\n"` -/
  | queued
  /-- the `yield` of a handler of `QueueFull`, `QueueTimeout` or `Draining` -/
  | refused
  /-- `await gw.client.send(...)` -/
  | sending
  /-- `await upstream.aread()` -/
  | reading
  /-- the `yield` of the worker's refusal -/
  | relaying
  /-- the `await` of the next raw chunk -/
  | streaming
  /-- `yield chunk` -/
  | chunk
  /-- the `yield` of the handler of `httpx.HTTPError` -/
  | dropped
  /-- `await upstream.aclose()` in the `finally` block that `outcome` entered -/
  | closing (outcome : Outcome)
  | ended (outcome : Outcome)
  deriving DecidableEq

/-- The generator awaits the worker. -/
def Point.onWorker : Point → Bool
  | .sending | .reading | .streaming => true
  | _ => false

/-- The acquire task.  Once it has entered the queue, the rest of its state
is the call of that number. -/
inductive AcquireTask
  | notCreated
  | created (cancelRequested : Bool)
  | entered (i : Nat)
  | failed (e : AcquireError)
  | cancelled
  deriving DecidableEq

/-- The variable `lease`. -/
structure LeaseVar where
  i : Nat
  worker : String
  waited : ℚ
  deriving DecidableEq

/-- What the generator yields. -/
inductive Item
  | comment (text : String)
  | error (message : String)
  | raw (chunk : Bytes)
  deriving DecidableEq

structure Gen where
  point : Point
  task : AcquireTask
  lease : Option LeaseVar
  status : String
  tail : Bytes
  started : ℚ
  upstream : Option Nat
  output : List Item
  sent : Bool
  records : List Run
  deriving DecidableEq

/-- The generator beside the scheduler. -/
structure Stream where
  loop : Loop
  gen : Gen

/-- What can happen to the generator. -/
inductive Event
  /-- the consumer asks for the next item -/
  | next
  /-- the consumer closes the generator -/
  | close
  /-- the task that runs the generator is cancelled at an `await` -/
  | cancel
  /-- `asyncio.wait` returns -/
  | wake
  /-- the worker's response begins -/
  | response (statusCode : Nat)
  /-- `httpx.HTTPError` -/
  | httpError
  /-- any other exception -/
  | otherError
  /-- the body of a refusal, and the `detail` read from it, or an exception
  that is not a `ValueError` -/
  | body (detail : Option String)
  | chunk (bytes : Bytes)
  | eof
  /-- `aclose` returns -/
  | closed
  /-- `aclose` raises -/
  | closeFailed

inductive StreamAction
  /-- a step of the event loop that is not the generator's -/
  | env (a : Action)
  /-- the first step of the acquire task -/
  | start
  /-- the acquire task is cancelled from outside -/
  | cancelTask
  | gen (e : Event)

/-- The result of the acquire task, when it has finished. -/
inductive TaskResult
  | lease (lease : LeaseVar)
  | raised (e : AcquireError)
  | cancelled
  deriving DecidableEq

/-- `acquire.done()` and what `acquire.result()` then gives. -/
def AcquireTask.result (l : Loop) : AcquireTask → Option TaskResult
  | .notCreated | .created _ => none
  | .failed e => some (.raised e)
  | .cancelled => some .cancelled
  | .entered i =>
    match (l.calls i).map Call.state with
    | some (.leased worker waited _) => some (.lease ⟨i, worker, waited⟩)
    | some (.raised e) => some (.raised e)
    | _ => none

/-- The texts of the handlers of `QueueFull`, `QueueTimeout` and
`Draining`. -/
def refusalText : AcquireError → String
  | .queueFull => "The solver is busy with other visitors right now. Try again in a moment."
  | .queueTimeout => "Waited for a solver for too long. Try again in a moment."
  | .draining => "The service is restarting. Try again in a few seconds."

def droppedText : String :=
  "The solver connection dropped. Try again in a moment."

/-- `(tail + chunk)[-65536:]`. -/
def appendTail (tail chunk : Bytes) : Bytes :=
  (tail ++ chunk).drop ((tail ++ chunk).length - 65536)

namespace Stream

variable (cfg : SchedulerConfig) (call : StreamCall)

def initGen : Gen where
  point := .unstarted
  task := .notCreated
  lease := none
  status := "ok"
  tail := []
  started := 0
  upstream := none
  output := []
  sent := false
  records := []

def init : Stream where
  loop := Loop.init cfg
  gen := initGen

/-- Suspend at a `yield`. -/
def yield (s : Stream) (item : Item) (point : Point) : Stream :=
  { s with gen := { s.gen with output := s.gen.output ++ [item], point := point } }

def moveTo (s : Stream) (point : Point) : Stream :=
  { s with gen := { s.gen with point := point } }

/-- `lease.release()`. -/
def releaseLease (s : Stream) : Stream :=
  match s.gen.lease with
  | some lease => { s with loop := (s.loop.next cfg (.release lease.i)).getD s.loop }
  | none => s

/-- `acquire.cancel()`, which does nothing to a task that has finished. -/
def cancelTask (s : Stream) : Stream :=
  match s.gen.task with
  | .created _ => { s with gen := { s.gen with task := .created true } }
  | .entered i => { s with loop := (s.loop.next cfg (.cancel i)).getD s.loop }
  | _ => s

/-- `_record`. -/
def record (s : Stream) (seconds : ℚ) : Stream :=
  { s with
    gen := { s.gen with
      records := s.gen.records ++ [{
        client := call.job.client
        plan := call.job.planId
        period := call.period
        path := call.path
        engineSeconds := seconds
        status := s.gen.status
        worker := s.gen.lease.map LeaseVar.worker
        requestId := some call.requestId
        queueSeconds := (s.gen.lease.map LeaseVar.waited).getD 0 }] } }

/-- The seconds of a run without a final event: wall time when it was
abandoned, else the initial `0.0`. -/
def wallSeconds (s : Stream) : ℚ :=
  if s.gen.status = "cancelled" ∨ s.gen.status = "upstream-error" then
    s.loop.now - s.gen.started
  else 0

/-- The `finally` block after `aclose`. -/
def settle (s : Stream) (outcome : Outcome) : Stream :=
  let s := s.releaseLease cfg
  match Metering.lastText s.gen.tail with
  | some text =>
    match Metering.float text with
    | some seconds => (s.record call seconds).moveTo (.ended outcome)
    | none => s.moveTo (.ended (.raised .valueError))
  | none => (s.record call s.wallSeconds).moveTo (.ended outcome)

/-- Enter the `finally` block. -/
def finish (s : Stream) (outcome : Outcome) : Stream :=
  if s.gen.upstream.isSome then s.moveTo (.closing outcome) else s.settle cfg call outcome

def setStatus (s : Stream) (status : String) : Stream :=
  { s with gen := { s.gen with status := status } }

/-- The lease is there: forward the request. -/
def forward (s : Stream) (lease : LeaseVar) : Stream :=
  { s with
    gen := { s.gen with
      lease := some lease
      status := "ok"
      tail := []
      started := s.loop.now
      upstream := none
      sent := true
      point := .sending } }

/-- One step of the generator. -/
def step (s : Stream) : Event → Option Stream
  | .next =>
    match s.gen.point with
    | .unstarted => some (s.yield (.comment "open") .opened)
    | .opened => some ({ s with gen := { s.gen with task := .created false } }.moveTo .waiting)
    | .queued => some (s.moveTo .waiting)
    | .refused => some (s.moveTo (.ended .returned))
    | .relaying => some (s.finish cfg call .returned)
    | .chunk => some (s.moveTo .streaming)
    | .dropped => some (s.finish cfg call .returned)
    | _ => none
  | .close =>
    match s.gen.point with
    | .unstarted | .opened | .queued | .refused =>
      some (s.moveTo (.ended (.raised .generatorExit)))
    | .relaying | .chunk | .dropped => some (s.finish cfg call (.raised .generatorExit))
    | _ => none
  | .cancel =>
    match s.gen.point with
    | .waiting => some ((s.cancelTask cfg).moveTo (.ended (.raised .cancelled)))
    | .sending | .reading | .streaming =>
      some ((s.setStatus "cancelled").finish cfg call (.raised .cancelled))
    | .closing _ => some (s.moveTo (.ended (.raised .cancelled)))
    | _ => none
  | .wake =>
    if s.gen.point = .waiting then
      match s.gen.task.result s.loop with
      | none => some (s.yield (.comment "queued") .queued)
      | some (.lease lease) => some (s.forward lease)
      | some (.raised e) => some (s.yield (.error (refusalText e)) .refused)
      | some .cancelled => some ((s.cancelTask cfg).moveTo (.ended (.raised .cancelled)))
    else none
  | .response statusCode =>
    if s.gen.point = .sending then
      some ({ s with gen := { s.gen with upstream := some statusCode } }.moveTo
        (if statusCode ≠ 200 then .reading else .streaming))
    else none
  | .httpError =>
    if s.gen.point.onWorker then
      some ((s.setStatus "upstream-error").yield (.error droppedText) .dropped)
    else none
  | .otherError =>
    if s.gen.point.onWorker then some (s.finish cfg call (.raised .other)) else none
  | .body detail =>
    match s.gen.point, detail with
    | .reading, some text =>
      some ((s.setStatus ("http-" ++ toString (s.gen.upstream.getD 0))).yield
        (.error (String.ofList (text.toList.take 500))) .relaying)
    | .reading, none => some (s.finish cfg call (.raised .other))
    | _, _ => none
  | .chunk bytes =>
    if s.gen.point = .streaming then
      some ({ s with gen := { s.gen with tail := appendTail s.gen.tail bytes } }.yield
        (.raw bytes) .chunk)
    else none
  | .eof => if s.gen.point = .streaming then some (s.finish cfg call .returned) else none
  | .closed =>
    match s.gen.point with
    | .closing outcome => some (s.settle cfg call outcome)
    | _ => none
  | .closeFailed =>
    match s.gen.point with
    | .closing _ => some (s.moveTo (.ended (.raised .other)))
    | _ => none

/-- The events that are no step of the consumer or the scheduler: what the worker does. -/
inductive WorkerStep (s : Stream) : Event → Stream → Prop
  | response {statusCode : Nat} {point : Point} (hpoint : s.gen.point = .sending)
      (hnew : point = .reading ∨ point = .streaming) :
      WorkerStep s (.response statusCode)
        ({ s with gen := { s.gen with upstream := some statusCode } }.moveTo point)
  | httpError (hpoint : s.gen.point.onWorker = true) :
      WorkerStep s .httpError ((s.setStatus "upstream-error").yield (.error droppedText) .dropped)
  | relay {text : String} (hpoint : s.gen.point = .reading) :
      WorkerStep s (.body (some text))
        ((s.setStatus ("http-" ++ toString (s.gen.upstream.getD 0))).yield
          (.error (String.ofList (text.toList.take 500))) .relaying)
  | chunk {bytes : Bytes} (hpoint : s.gen.point = .streaming) :
      WorkerStep s (.chunk bytes)
        ({ s with gen := { s.gen with tail := appendTail s.gen.tail bytes } }.yield
          (.raw bytes) .chunk)
  /-- the answer has ended, or raises an exception that is not handled -/
  | finish {e : Event} {outcome : Outcome} (he : e = .otherError ∨ e = .body none ∨ e = .eof)
      (hpoint : s.gen.point.onWorker = true) (hout : outcome ≠ .raised .valueError) :
      WorkerStep s e (s.finish cfg call outcome)
  | settle {outcome : Outcome} (hpoint : s.gen.point = .closing outcome) :
      WorkerStep s .closed (s.settle cfg call outcome)
  | lost {outcome : Outcome} (hpoint : s.gen.point = .closing outcome) :
      WorkerStep s .closeFailed (s.moveTo (.ended (.raised .other)))

theorem worker_step {cfg : SchedulerConfig} {call : StreamCall} {s s' : Stream} {e : Event}
    (he : e ≠ .next ∧ e ≠ .close ∧ e ≠ .cancel ∧ e ≠ .wake) (hs : s.step cfg call e = some s') :
    WorkerStep cfg call s e s' := by
  cases e with
  | next | close | cancel | wake => simp at he
  | response statusCode =>
    simp only [step, Option.ite_none_right_eq_some, Option.some.injEq] at hs
    obtain ⟨hpoint, rfl⟩ := hs
    refine .response hpoint ?_
    split
    · exact Or.inl rfl
    · exact Or.inr rfl
  | httpError =>
    simp only [step, Option.ite_none_right_eq_some, Option.some.injEq] at hs
    obtain ⟨hpoint, rfl⟩ := hs
    exact .httpError hpoint
  | otherError =>
    simp only [step, Option.ite_none_right_eq_some, Option.some.injEq] at hs
    obtain ⟨hpoint, rfl⟩ := hs
    exact .finish (Or.inl rfl) hpoint (by simp)
  | body detail =>
    simp only [step] at hs
    split at hs <;> cases hs <;> rename_i hpoint
    · exact .relay hpoint
    · exact .finish (Or.inr (Or.inl rfl)) (by rw [hpoint]; rfl) (by simp)
  | chunk bytes =>
    simp only [step, Option.ite_none_right_eq_some] at hs
    obtain ⟨hpoint, hs⟩ := hs
    rw [Option.some.injEq] at hs
    rw [← hs]
    exact .chunk hpoint
  | eof =>
    simp only [step, Option.ite_none_right_eq_some, Option.some.injEq] at hs
    obtain ⟨hpoint, rfl⟩ := hs
    exact .finish (Or.inr (Or.inr rfl)) (by rw [hpoint]; rfl) (by simp)
  | closed =>
    simp only [step] at hs
    split at hs <;> cases hs
    rename_i outcome hpoint
    exact .settle hpoint
  | closeFailed =>
    simp only [step] at hs
    split at hs <;> cases hs
    rename_i outcome hpoint
    exact .lost hpoint

/-- The first step of the acquire task. -/
def startTask (s : Stream) : Option Stream :=
  match s.gen.task with
  | .created true => some { s with gen := { s.gen with task := .cancelled } }
  | .created false =>
    match s.loop.sched.acquire cfg call.job s.loop.now with
    | .error e => some { s with gen := { s.gen with task := .failed e } }
    | .ok _ =>
      some
        { loop := s.loop.acquire cfg call.job (some call.waitS)
          gen := { s.gen with task := .entered s.loop.sched.nextSeq } }
  | _ => none

/-- One step of the generator, its task or the rest of the program.  Only
the generator has the lease of its task. -/
def next (s : Stream) : StreamAction → Option Stream
  | .env a =>
    match s.gen.task, a with
    | .entered i, .release j =>
      if i = j then none else (s.loop.next cfg a).map fun l => { s with loop := l }
    | _, _ => (s.loop.next cfg a).map fun l => { s with loop := l }
  | .start => s.startTask cfg call
  | .cancelTask => some (s.cancelTask cfg)
  | .gen e => s.step cfg call e

def machine : Transition.Machine Stream StreamAction where
  init := init cfg
  next := next cfg call

end Stream

end OpendssGateway
