import OpendssGateway.Gateway.Stream

/-!
# Admission

`_engine_call` and `_stream_call` of any number of callers over one
scheduler and one ledger.  A call reads the usage of its client in the
current period and refuses when the budget is spent.  It then reads the
body, waits for a worker, forwards, and debits the ledger in the period of
the check.  All of these are separate steps, so other calls run in
between.

`debits` and `forwards` are history: the runs that the ledger recorded,
and what the usage was when each call was forwarded.  A position in
`debits` is a moment of the run.
-/

namespace OpendssGateway

/-- A day in UTC. -/
structure Date where
  year : Nat
  month : Nat
  day : Nat
  deriving DecidableEq

/-- `Plan`, as far as admission reads it. -/
structure Plan where
  id : String
  priority : Int
  budgetSeconds : Option ℚ
  budgetPeriod : String := "day"
  concurrency : Int := 1
  pool : String := "guest"
  deriving DecidableEq

/-- Two decimal digits. -/
def twoDigits (n : Nat) : String :=
  if n < 10 then "0" ++ toString n else toString n

/-- `Plan.period_key`. -/
def Plan.periodKey (plan : Plan) (today : Date) : String :=
  if plan.budgetPeriod = "month" then toString today.year ++ "-" ++ twoDigits today.month
  else toString today.year ++ "-" ++ twoDigits today.month ++ "-" ++ twoDigits today.day

/-- `Caller`. -/
structure Caller where
  client : String
  plan : Plan
  deriving DecidableEq

/-- `Job(client=caller.client, plan_id=plan.id, ...)`. -/
def Caller.job (caller : Caller) : Job where
  client := caller.client
  planId := caller.plan.id
  priority := caller.plan.priority
  pool := caller.plan.pool
  concurrency := caller.plan.concurrency

/-- Where a call is suspended. -/
inductive Progress
  /-- `await _read_body(request)` -/
  | reading (stream : Bool)
  /-- `await gw.scheduler.acquire(job)` of an engine call -/
  | acquiring (i : Nat)
  /-- `await gw.client.request(...)` of an engine call -/
  | forwarding (lease : LeaseVar)
  /-- the generator of a stream call -/
  | streaming (gen : Gen)
  | answered (statusCode : Nat)
  | raised

/-- A call that passed its budget check. -/
structure Request where
  caller : Caller
  path : String
  requestId : String
  period : String
  used : ℚ
  checkedAt : Nat
  progress : Progress

/-- A call that was forwarded. -/
structure Forward where
  client : String
  plan : Plan
  period : String
  checkedAt : Nat
  forwardedAt : Nat
  usage : ℚ

/-- The settings that the calls read. -/
structure GatewayConfig where
  scheduler : SchedulerConfig
  upstreamTimeoutS : ℚ

structure Gateway where
  today : Date
  loop : Loop
  ledger : Ledger
  requests : List Request
  debits : List Run
  forwards : List Forward

/-- What `await gw.client.request(...)` and the reading of
`X-Engine-Seconds` give.  `seconds` is `none` when `float` refuses the
text. -/
inductive EngineAnswer
  | response (statusCode : Nat) (seconds : Option ℚ)
  | httpError
  /-- any other exception, a cancellation among them -/
  | otherError

/-- How `_read_body` ends. -/
inductive BodyRead
  | read
  | tooLarge
  | failed

inductive GatewayAction
  | newDay (today : Date)
  /-- a step of the event loop -/
  | env (a : Action)
  | arrive (caller : Caller) (stream : Bool) (path requestId : String)
  | body (n : Nat) (body : BodyRead)
  /-- `acquire` of engine call `n` ends -/
  | acquired (n : Nat)
  | answer (n : Nat) (answer : EngineAnswer) (fault : Option Statement)
  | stream (n : Nat) (a : StreamAction) (fault : Option Statement)

namespace Gateway

variable (cfg : GatewayConfig)

def init (today : Date) : Gateway where
  today := today
  loop := Loop.init cfg.scheduler
  ledger := Ledger.empty
  requests := []
  debits := []
  forwards := []

def setProgress (g : Gateway) (n : Nat) (r : Request) (progress : Progress) : Gateway :=
  { g with requests := g.requests.set n { r with progress := progress } }

/-- `_record`: a failure of the ledger is only logged. -/
def record (g : Gateway) (run : Run) (fault : Option Statement) : Gateway :=
  { g with
    ledger := g.ledger.afterRecord g.loop.now run fault
    debits := if fault.isNone then g.debits ++ [run] else g.debits }

/-- Note that a call is forwarded now. -/
def noteForward (g : Gateway) (r : Request) : Gateway :=
  { g with
    forwards := g.forwards ++ [{
      client := r.caller.client
      plan := r.caller.plan
      period := r.period
      checkedAt := r.checkedAt
      forwardedAt := g.debits.length
      usage := g.ledger.used r.caller.client r.period }] }

/-- A call that passed the check goes on to read its body. -/
def passCheck (g : Gateway) (caller : Caller) (stream : Bool) (path requestId period : String)
    (used : ℚ) : Gateway :=
  { g with
    requests := g.requests ++ [{
      caller := caller
      path := path
      requestId := requestId
      period := period
      used := used
      checkedAt := g.debits.length
      progress := .reading stream }] }

/-- The budget check of `_engine_call` and `_stream_call`, which answers 429
to a client that has used up its budget. -/
def arrive (g : Gateway) (caller : Caller) (stream : Bool) (path requestId : String) : Gateway :=
  let period := caller.plan.periodKey g.today
  let used := g.ledger.used caller.client period
  match caller.plan.budgetSeconds with
  | some budget => if used ≥ budget then g else g.passCheck caller stream path requestId period used
  | none => g.passCheck caller stream path requestId period used

/-- What `_stream_call` passes to its generator. -/
def streamCall (r : Request) (waitS : ℚ) : StreamCall where
  job := r.caller.job
  waitS := waitS
  period := r.period
  path := r.path
  requestId := r.requestId

/-- The body is there: ask for a worker, or hand over to the generator. -/
def bodyRead (g : Gateway) (n : Nat) (r : Request) (stream : Bool) : Gateway :=
  if stream then g.setProgress n r (.streaming Stream.initGen)
  else
    match g.loop.sched.acquire cfg.scheduler r.caller.job g.loop.now with
    | .error _ => g.setProgress n r (.answered 503)
    | .ok _ =>
      { g with loop := g.loop.acquire cfg.scheduler r.caller.job none }.setProgress n r
        (.acquiring g.loop.sched.nextSeq)

/-- The arguments of `_record` in an engine call. -/
def engineRun (r : Request) (lease : LeaseVar) (seconds : ℚ) (status : String) : Run where
  client := r.caller.client
  plan := r.caller.plan.id
  period := r.period
  path := r.path
  engineSeconds := seconds
  status := status
  worker := some lease.worker
  requestId := some r.requestId
  queueSeconds := lease.waited

/-- The `finally` block of `_engine_call`. -/
def settle (g : Gateway) (n : Nat) (r : Request) (lease : LeaseVar) (seconds : ℚ)
    (status : String) (fault : Option Statement) (progress : Progress) : Gateway :=
  ({ g with loop := (g.loop.next cfg.scheduler (.release lease.i)).getD g.loop }.record
    (engineRun r lease seconds status) fault).setProgress n r progress

/-- The answer of the worker, from `client.request` to the response. -/
def answered (g : Gateway) (n : Nat) (r : Request) (lease : LeaseVar) (fault : Option Statement) :
    EngineAnswer → Gateway
  | .response statusCode (some seconds) =>
    g.settle cfg n r lease seconds
      (if statusCode < 400 then "ok" else "http-" ++ toString statusCode) fault
      (.answered statusCode)
  | .response _ none => g.settle cfg n r lease 0 "ok" fault .raised
  | .httpError => g.settle cfg n r lease 0 "upstream-error" fault (.answered 503)
  | .otherError => g.settle cfg n r lease 0 "ok" fault .raised

/-- A step of the generator of call `n`, with the forwarding and the record
it may make. -/
def streamStep (g : Gateway) (n : Nat) (r : Request) (gen : Gen) (fault : Option Statement)
    (s : Stream) : Gateway :=
  let g := { g with loop := s.loop }.setProgress n r (.streaming s.gen)
  let g := if !gen.sent && s.gen.sent then g.noteForward r else g
  (s.gen.records.drop gen.records.length).foldl (fun g run => g.record run fault) g

/-- One step of the gateway.  Calls of `acquire` and releases are steps of
the requests. -/
def next (g : Gateway) : GatewayAction → Option Gateway
  | .newDay today => some { g with today := today }
  | .env a =>
    match a with
    | .acquire _ _ | .release _ => none
    | _ => (g.loop.next cfg.scheduler a).map fun l => { g with loop := l }
  | .arrive caller stream path requestId => some (g.arrive caller stream path requestId)
  | .body n body =>
    match g.requests[n]? with
    | some r =>
      match r.progress, body with
      | .reading stream, .read => some (g.bodyRead cfg n r stream)
      | .reading _, .tooLarge => some (g.setProgress n r (.answered 413))
      | .reading _, .failed => some (g.setProgress n r .raised)
      | _, _ => none
    | none => none
  | .acquired n =>
    match g.requests[n]? with
    | some r =>
      match r.progress with
      | .acquiring i =>
        match (AcquireTask.entered i).result g.loop with
        | some (.lease lease) => some ((g.noteForward r).setProgress n r (.forwarding lease))
        | some _ => some (g.setProgress n r (.answered 503))
        | none => none
      | _ => none
    | none => none
  | .answer n answer fault =>
    match g.requests[n]? with
    | some r =>
      match r.progress with
      | .forwarding lease => some (g.answered cfg n r lease fault answer)
      | _ => none
    | none => none
  | .stream n a fault =>
    match g.requests[n]?, a with
    | _, .env _ => none
    | some r, a =>
      match r.progress with
      | .streaming gen =>
        (Stream.next cfg.scheduler (streamCall r cfg.upstreamTimeoutS) ⟨g.loop, gen⟩ a).map
          (g.streamStep n r gen fault)
      | _ => none
    | none, _ => none

def machine (today : Date) : Transition.Machine Gateway GatewayAction where
  init := init cfg today
  next := next cfg

end Gateway

end OpendssGateway
