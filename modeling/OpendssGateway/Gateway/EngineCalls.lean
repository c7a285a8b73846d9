import OpendssGateway.Gateway.Ownership

/-!
# What an engine call leaves behind

`_engine_call` of one caller beside everything else that the gateway does.
A `Trail` is what is seen of the call from outside: the client and the
period of its budget check, its number in the queue, why it was refused,
which leases it forwarded with, and the arguments of its calls of
`_record`, whether or not the ledger then took them.

`Tidy` says what the trail is at each `await`.  Every answer of the worker
and every exception goes through the same `finally` block (`answered_eq`),
so a call that was forwarded has one release and one record when it ends,
and any other call has neither.
-/

namespace OpendssGateway

/-! ## The `finally` block -/

/-- `seconds` in the `finally` block of `_engine_call`. -/
def EngineAnswer.seconds : EngineAnswer → ℚ
  | .response _ (some seconds) => seconds
  | _ => 0

/-- `status` in the `finally` block of `_engine_call`. -/
def EngineAnswer.status : EngineAnswer → String
  | .response statusCode (some _) =>
    if statusCode < 400 then "ok" else "http-" ++ toString statusCode
  | .httpError => "upstream-error"
  | _ => "ok"

/-- How the call ends after its `finally` block. -/
def EngineAnswer.ending : EngineAnswer → Progress
  | .response statusCode (some _) => .answered statusCode
  | .httpError => .answered 503
  | _ => .raised

/-- Why a call was refused after its budget check. -/
inductive EngineRefusal
  | bodyTooLarge
  | busy (e : AcquireError)
  deriving DecidableEq

/-- What is seen of an engine call. -/
structure Trail where
  /-- the client and the period of the budget check -/
  checked : Option (String × String)
  /-- the number of the call of `acquire` -/
  entered : Option Nat
  refused : Option EngineRefusal
  /-- the leases of the calls of `client.request` -/
  sent : List LeaseVar
  /-- the arguments of the calls of `_record` -/
  records : List Run

def Trail.empty : Trail where
  checked := none
  entered := none
  refused := none
  sent := []
  records := []

namespace Gateway

variable {cfg : GatewayConfig} {g g' : Gateway} {n i : Nat}

/-- All ways out of the `try` go through the `finally` block. -/
theorem answered_eq (g : Gateway) (n : Nat) (r : Request) (lease : LeaseVar)
    (fault : Option Statement) (answer : EngineAnswer) :
    g.answered cfg n r lease fault answer =
      g.settle cfg n r lease answer.seconds answer.status fault answer.ending := by
  cases answer with
  | response statusCode seconds => cases seconds <;> rfl
  | httpError | otherError => rfl

/-- The budget check lets the caller through. -/
def admits (g : Gateway) (caller : Caller) : Bool :=
  match caller.plan.budgetSeconds with
  | some budget => !decide (g.ledger.used caller.client (caller.plan.periodKey g.today) ≥ budget)
  | none => true

/-- A caller who has used up the budget is answered at once. -/
theorem arrive_eq (g : Gateway) (caller : Caller) (stream : Bool) (path requestId : String) :
    g.arrive caller stream path requestId =
      if g.admits caller then
        g.passCheck caller stream path requestId (caller.plan.periodKey g.today)
          (g.ledger.used caller.client (caller.plan.periodKey g.today))
      else g := by
  unfold arrive admits
  dsimp only
  cases caller.plan.budgetSeconds with
  | none => rfl
  | some budget =>
    by_cases hspent : g.ledger.used caller.client (caller.plan.periodKey g.today) ≥ budget
    · simp [hspent]
    · simp [hspent]

/-- What a step of call `n` adds to its trail. -/
def trace (cfg : GatewayConfig) (n : Nat) (g : Gateway) (t : Trail) : GatewayAction → Trail
  | .arrive caller _ _ _ =>
    if g.requests.length = n ∧ g.admits caller then
      { t with checked := some (caller.client, caller.plan.periodKey g.today) }
    else t
  | .body k body =>
    match (if k = n then g.requests[n]? else none) with
    | some r =>
      match r.progress, body with
      | .reading false, .read =>
        match g.loop.sched.acquire cfg.scheduler r.caller.job g.loop.now with
        | .error e => { t with refused := some (.busy e) }
        | .ok _ => { t with entered := some g.loop.sched.nextSeq }
      | .reading _, .tooLarge => { t with refused := some .bodyTooLarge }
      | _, _ => t
    | none => t
  | .acquired k =>
    match (if k = n then g.requests[n]? else none) with
    | some r =>
      match r.progress with
      | .acquiring i =>
        match (AcquireTask.entered i).result g.loop with
        | some (.lease lease) => { t with sent := t.sent ++ [lease] }
        | some (.raised e) => { t with refused := some (.busy e) }
        | _ => t
      | _ => t
    | none => t
  | .answer k answer _ =>
    match (if k = n then g.requests[n]? else none) with
    | some r =>
      match r.progress with
      | .forwarding lease =>
        { t with records := t.records ++ [engineRun r lease answer.seconds answer.status] }
      | _ => t
    | none => t
  | _ => t

/-! ## What the trail is at each `await` -/

/-- The call has done nothing but its budget check. -/
structure Unsent (r : Request) (t : Trail) : Prop where
  checked : t.checked = some (r.caller.client, r.period)
  sent : t.sent = []
  records : t.records = []

/-- The call was forwarded with a lease. -/
structure Sent (r : Request) (t : Trail) (lease : LeaseVar) : Prop where
  checked : t.checked = some (r.caller.client, r.period)
  entered : t.entered = some lease.i
  refused : t.refused = none
  sent : t.sent = [lease]

/-- The lease of number `i` was handed back, or there never was one. -/
def Closed (l : Loop) (i : Nat) : Prop :=
  ∃ c, l.calls i = some c ∧
    ((∃ e, c.state = .raised e) ∨ ∃ worker waited, c.state = .leased worker waited true)

/-- The lease is held. -/
def Holds (l : Loop) (lease : LeaseVar) (released : Bool) : Prop :=
  ∃ c, l.calls lease.i = some c ∧ c.state = .leased lease.worker lease.waited released

/-- What the call leaves when it has ended. -/
def Left (l : Loop) (r : Request) (t : Trail) : Prop :=
  (Unsent r t ∧ ∀ i, t.entered = some i → Closed l i) ∨
    ∃ lease run, Sent r t lease ∧ t.records = [run] ∧
      (run.client, run.period) = (r.caller.client, r.period) ∧ Holds l lease true

/-- The trail of a call, by where it is suspended. -/
def Tidy (l : Loop) (r : Request) (t : Trail) : Prop :=
  match r.progress with
  | .reading _ => Unsent r t ∧ t.entered = none ∧ t.refused = none
  | .acquiring i =>
    Unsent r t ∧ t.entered = some i ∧ t.refused = none ∧
      ∃ c, l.calls i = some c ∧ ∀ worker waited, c.state ≠ .leased worker waited true
  | .forwarding lease => Sent r t lease ∧ t.records = [] ∧ Holds l lease false
  | .streaming _ => True
  | .answered _ | .raised => Left l r t

/-! ## Steps of other calls -/

theorem Closed.evolves {l l' : Loop} {released : Prop} (h : Closed l i)
    (hev : ∀ c, l.calls i = some c → Loop.CallEvolves released l' i c) : Closed l' i := by
  obtain ⟨c, hcall, hstate⟩ := h
  obtain ⟨state, hcall', hstep⟩ := hev c hcall
  refine ⟨_, hcall', ?_⟩
  rcases hstate with ⟨e, hs⟩ | ⟨worker, waited, hs⟩
  · rw [hs] at hstep
    cases hstep
    exact Or.inl ⟨e, rfl⟩
  · rw [hs] at hstep
    cases hstep
    exact Or.inr ⟨worker, waited, rfl⟩

/-- A lease that was released stays released, and one that is held stays held as long as
nobody releases it. -/
theorem Holds.evolves {l l' : Loop} {lease : LeaseVar} {released : Bool}
    (h : Holds l lease released)
    (hev : ∀ c, l.calls lease.i = some c → Loop.CallEvolves False l' lease.i c) :
    Holds l' lease released := by
  obtain ⟨c, hcall, hstate⟩ := h
  obtain ⟨state, hcall', hstep⟩ := hev c hcall
  refine ⟨_, hcall', ?_⟩
  rw [hstate] at hstep
  cases hstep with
  | same => rfl
  | released _ _ hfalse => exact hfalse.elim

/-- A released lease stays released whatever happens. -/
theorem Holds.stays_released {l l' : Loop} {lease : LeaseVar} {released : Prop}
    (h : Holds l lease true)
    (hev : ∀ c, l.calls lease.i = some c → Loop.CallEvolves released l' lease.i c) :
    Holds l' lease true := by
  obtain ⟨c, hcall, hstate⟩ := h
  obtain ⟨state, hcall', hstep⟩ := hev c hcall
  refine ⟨_, hcall', ?_⟩
  rw [hstate] at hstep
  cases hstep
  rfl

/-- A step of the event loop that no other call may use to release a lease. -/
theorem loopStep_of_move {a : GatewayAction} (hm : Move cfg g a g') :
    ∃ mine, LoopStep cfg.scheduler g.loop g'.loop mine := by
  cases hm with
  | still _ _ hloop => exact ⟨none, hloop⟩
  | arrives _ _ _ _ _ hloop => exact ⟨none, Or.inl hloop⟩
  | moves k r progress _ _ _ hloop => exact ⟨_, hloop⟩

theorem Left.move {r : Request} {t : Trail} {a : GatewayAction} (h : Left g.loop r t)
    (hnum : Numbered cfg g) (hm : Move cfg g a g') : Left g'.loop r t := by
  have hc := Loop.reachable_coherent hnum.reachable
  obtain ⟨mine, hloop⟩ := loopStep_of_move hm
  rcases h with ⟨hunsent, hclosed⟩ | ⟨lease, run, hsent, hrecords, hrun, hholds⟩
  · exact Or.inl ⟨hunsent, fun i hi => (hclosed i hi).evolves fun c hcall => hloop.evolves hc hcall⟩
  · exact Or.inr ⟨lease, run, hsent, hrecords, hrun,
      hholds.stays_released fun c hcall => hloop.evolves hc hcall⟩

/-- The steps of the other calls leave the trail tidy. -/
theorem Tidy.others {r : Request} {t : Trail} {a : GatewayAction} (h : Tidy g.loop r t)
    (hnum : Numbered cfg g) (hm : Move cfg g a g') (ha : a.target ≠ some n)
    (hr : g.requests[n]? = some r) : Tidy g'.loop r t := by
  have hnumber := numberOf_of_get hr
  have hev : ∀ {i}, r.progress.number = some i → ∀ c, g.loop.calls i = some c →
      Loop.CallEvolves False g'.loop i c :=
    fun hi c hcall => hnum.others hm ha (hnumber.trans hi) hcall
  unfold Tidy at h ⊢
  cases hprogress : r.progress with
  | reading | streaming =>
    rw [hprogress] at h
    exact h
  | answered | raised =>
    rw [hprogress] at h
    exact Left.move h hnum hm
  | acquiring i =>
    rw [hprogress] at h
    obtain ⟨hunsent, hentered, hrefused, c, hcall, hstate⟩ := h
    refine ⟨hunsent, hentered, hrefused, ?_⟩
    obtain ⟨state, hcall', hstep⟩ := hev (by rw [hprogress]; rfl) c hcall
    refine ⟨_, hcall', fun worker waited heq => ?_⟩
    generalize c.state = old at hstep hstate
    cases hstep with
    | same => exact hstate worker waited heq
    | interrupted | leased | raised => cases heq
    | released _ _ hfalse => exact hfalse.elim
  | forwarding lease =>
    rw [hprogress] at h
    obtain ⟨hsent, hrecords, hholds⟩ := h
    exact ⟨hsent, hrecords, hholds.evolves (hev (by rw [hprogress]; rfl))⟩

/-- Only the budget check and the steps of the call itself are on its trail. -/
theorem trace_other {t : Trail} {a : GatewayAction} (ha : a.target ≠ some n) {r : Request}
    (hr : g.requests[n]? = some r) : g.trace cfg n t a = t := by
  have hne : ∀ {k : Nat}, some k ≠ some n → (if k = n then g.requests[n]? else none) = none :=
    fun hk => if_neg fun hkn => hk (by rw [hkn])
  cases a with
  | newDay | env | stream => rfl
  | arrive caller =>
    have hlt : n < g.requests.length := (List.getElem?_eq_some_iff.1 hr).1
    exact if_neg fun h => by omega
  | body k body =>
    show (match (if k = n then g.requests[n]? else none) with | some r => _ | none => t) = t
    rw [hne ha]
  | acquired k =>
    show (match (if k = n then g.requests[n]? else none) with | some r => _ | none => t) = t
    rw [hne ha]
  | answer k answer fault =>
    show (match (if k = n then g.requests[n]? else none) with | some r => _ | none => t) = t
    rw [hne ha]

theorem move_requests {a : GatewayAction} (hm : Move cfg g a g') (ha : a.target ≠ some n)
    {r : Request} (hr : g.requests[n]? = some r) : g'.requests[n]? = some r := by
  cases hm with
  | still _ hrequests => rw [hrequests, hr]
  | arrives r' stream _ _ hrequests =>
    rw [hrequests, List.getElem?_append_left (List.getElem?_eq_some_iff.1 hr).1, hr]
  | moves k r' progress htarget hr' hrequests =>
    rw [requests_set hr' hrequests, if_neg, hr]
    rintro rfl
    exact ha htarget

/-! ## Steps of the call -/

theorem setProgress_get {r : Request} {progress : Progress} (hr : g.requests[n]? = some r) :
    (g.setProgress n r progress).requests[n]? = some { r with progress := progress } :=
  List.getElem?_set_self (List.getElem?_eq_some_iff.1 hr).1

/-- A call that ends before it was forwarded. -/
theorem Unsent.left {r : Request} {t : Trail} {l : Loop} (h : Unsent r t)
    (hclosed : ∀ i, t.entered = some i → Closed l i) {progress : Progress} :
    Left l { r with progress := progress } t :=
  Or.inl ⟨⟨h.checked, h.sent, h.records⟩, hclosed⟩

theorem tidy_body {r : Request} {t : Trail} (hr : g.requests[n]? = some r)
    (h : Tidy g.loop r t) {body : BodyRead} (hn : g.next cfg (.body n body) = some g') :
    ∃ r', g'.requests[n]? = some r' ∧ Tidy g'.loop r' (g.trace cfg n t (.body n body)) := by
  simp only [Gateway.next, hr] at hn
  simp only [trace, if_pos, hr]
  unfold Tidy at h
  cases hprogress : r.progress with
  | acquiring | forwarding | streaming | answered | raised =>
    rw [hprogress] at hn
    cases body <;> cases hn
  | reading stream =>
    rw [hprogress] at hn h
    obtain ⟨hunsent, hentered, hrefused⟩ := h
    have hclosed : ∀ {l : Loop} i, t.entered = some i → Closed l i := by
      intro l i hi
      rw [hentered] at hi
      cases hi
    cases body with
    | tooLarge =>
      cases hn
      refine ⟨_, setProgress_get hr, ?_⟩
      cases stream <;>
        exact Or.inl ⟨⟨hunsent.checked, hunsent.sent, hunsent.records⟩, hclosed⟩
    | failed =>
      cases hn
      refine ⟨_, setProgress_get hr, ?_⟩
      cases stream <;> exact hunsent.left hclosed
    | read =>
      cases stream with
      | true =>
        cases hn
        exact ⟨_, setProgress_get hr, True.intro⟩
      | false =>
        simp only [Option.some.injEq] at hn
        rw [← hn]
        unfold bodyRead
        rw [if_neg Bool.false_ne_true]
        cases hacq : g.loop.sched.acquire cfg.scheduler r.caller.job g.loop.now with
        | error e =>
          exact ⟨_, setProgress_get hr,
            Or.inl ⟨⟨hunsent.checked, hunsent.sent, hunsent.records⟩, hclosed⟩⟩
        | ok p =>
          refine ⟨_, setProgress_get (g := { g with loop := _ }) hr, ?_⟩
          exact ⟨⟨hunsent.checked, hunsent.sent, hunsent.records⟩, rfl, hrefused,
            Loop.acquire_newCall hacq⟩

theorem tidy_acquired {r : Request} {t : Trail} (hr : g.requests[n]? = some r)
    (h : Tidy g.loop r t) (hn : g.next cfg (.acquired n) = some g') :
    ∃ r', g'.requests[n]? = some r' ∧ Tidy g'.loop r' (g.trace cfg n t (.acquired n)) := by
  simp only [Gateway.next, hr] at hn
  simp only [trace, if_pos, hr]
  unfold Tidy at h
  cases hprogress : r.progress with
  | reading | forwarding | streaming | answered | raised =>
    rw [hprogress] at hn
    cases hn
  | acquiring i =>
    rw [hprogress] at hn h
    obtain ⟨hunsent, hentered, hrefused, c, hcall, hstate⟩ := h
    dsimp only at hn ⊢
    cases hresult : (AcquireTask.entered i).result g.loop with
    | none =>
      rw [hresult] at hn
      cases hn
    | some result =>
      rw [hresult] at hn
      cases result with
      | lease lease =>
        cases hn
        obtain ⟨hi, d, released, hd, hleased⟩ := task_of_lease hresult
        cases hi
        rw [hcall] at hd
        cases hd
        have hheld : Holds g.loop lease false := by
          cases released with
          | false => exact ⟨c, hcall, hleased⟩
          | true => exact absurd hleased (hstate _ _)
        refine ⟨_, setProgress_get (g := g.noteForward r) hr, ?_, hunsent.records, hheld⟩
        exact ⟨hunsent.checked, hentered, hrefused, by rw [hunsent.sent]; rfl⟩
      | raised e =>
        cases hn
        refine ⟨_, setProgress_get hr,
          Or.inl ⟨⟨hunsent.checked, hunsent.sent, hunsent.records⟩, fun j hj => ?_⟩⟩
        have hj : t.entered = some j := hj
        rw [hentered] at hj
        cases hj
        exact ⟨c, hcall, Or.inl ⟨e, raised_of_result hcall hresult⟩⟩
      | cancelled =>
        unfold AcquireTask.result at hresult
        dsimp only at hresult
        split at hresult <;> cases hresult

theorem tidy_answer {r : Request} {t : Trail} (hr : g.requests[n]? = some r)
    (h : Tidy g.loop r t) {answer : EngineAnswer} {fault : Option Statement}
    (hn : g.next cfg (.answer n answer fault) = some g') :
    ∃ r', g'.requests[n]? = some r' ∧
      Tidy g'.loop r' (g.trace cfg n t (.answer n answer fault)) := by
  simp only [Gateway.next, hr] at hn
  simp only [trace, if_pos, hr]
  unfold Tidy at h
  cases hprogress : r.progress with
  | reading | acquiring | streaming | answered | raised =>
    rw [hprogress] at hn
    cases hn
  | forwarding lease =>
    rw [hprogress] at hn h
    obtain ⟨hsent, hrecords, c, hcall, hstate⟩ := h
    simp only [Option.some.injEq, answered_eq] at hn
    have hrelease : g.loop.next cfg.scheduler (.release lease.i) =
        some (g.loop.release cfg.scheduler lease.i c lease.worker lease.waited) := by
      simp only [Loop.next, hcall, hstate]
    have hloop : g'.loop = g.loop.release cfg.scheduler lease.i c lease.worker lease.waited := by
      rw [← hn]
      show (g.loop.next cfg.scheduler (.release lease.i)).getD g.loop = _
      rw [hrelease]
      rfl
    have hleft : ∀ progress, Left g'.loop { r with progress := progress }
        { t with records := t.records ++ [engineRun r lease answer.seconds answer.status] } := by
      intro progress
      refine Or.inr ⟨lease, _, ⟨hsent.checked, hsent.entered, hsent.refused, hsent.sent⟩,
        by rw [hrecords]; rfl, rfl, ?_⟩
      refine ⟨{ c with state := .leased lease.worker lease.waited true }, ?_, rfl⟩
      rw [hloop]
      exact (Loop.setCall_calls ..).trans (if_pos rfl)
    refine ⟨{ r with progress := answer.ending }, ?_, ?_⟩
    · rw [← hn]
      exact setProgress_get (g := Gateway.record _ _ _) hr
    · unfold Tidy
      cases answer with
      | response statusCode seconds => cases seconds <;> exact hleft _
      | httpError | otherError => exact hleft _

end Gateway

/-! ## The gateway with a trail of one call -/

/-- The gateway, and the trail of one of its calls. -/
structure Traced where
  gateway : Gateway
  trail : Trail

namespace Traced

variable (cfg : GatewayConfig) (n : Nat)

def next (w : Traced) (a : GatewayAction) : Option Traced :=
  (w.gateway.next cfg a).map fun g =>
    { gateway := g, trail := w.gateway.trace cfg n w.trail a }

def machine (today : Date) : Transition.Machine Traced GatewayAction where
  init := { gateway := Gateway.init cfg today, trail := Trail.empty }
  next := next cfg n

/-- The trail is right. -/
structure Right (w : Traced) : Prop where
  numbered : Gateway.Numbered cfg w.gateway
  before : w.gateway.requests[n]? = none → w.trail = Trail.empty
  tidy : ∀ r, w.gateway.requests[n]? = some r → Gateway.Tidy w.gateway.loop r w.trail

variable {cfg} {n} {w w' : Traced}

/-- A step before the call comes, or the one with which it comes. -/
theorem right_before (h : Right cfg n w) (hnone : w.gateway.requests[n]? = none)
    {a : GatewayAction} {g : Gateway} (hg : w.gateway.next cfg a = some g) :
    Right cfg n { gateway := g, trail := w.gateway.trace cfg n w.trail a } := by
  have hm := Gateway.next_move h.numbered hg
  have hnum := h.numbered.move hm
  have hempty := h.before hnone
  have hlen : w.gateway.requests.length ≤ n := List.getElem?_eq_none_iff.1 hnone
  have hstays : g.requests[n]? = none → w.gateway.trace cfg n w.trail a = w.trail →
      Right cfg n { gateway := g, trail := w.gateway.trace cfg n w.trail a } := by
    intro hg' htrail
    refine ⟨hnum, fun _ => htrail.trans hempty, fun r hr => ?_⟩
    have hr : g.requests[n]? = some r := hr
    rw [hg'] at hr
    cases hr
  have hmoves : ∀ {k}, a.target = some k → w.gateway.trace cfg n w.trail a = w.trail →
      Right cfg n { gateway := g, trail := w.gateway.trace cfg n w.trail a } := by
    intro k hk htrail
    refine hstays ?_ htrail
    cases hm with
    | still htarget => simp [hk] at htarget
    | arrives _ _ htarget => simp [hk] at htarget
    | moves k r progress htarget hr hrequests =>
      rw [Gateway.requests_set hr hrequests, if_neg, hnone]
      rintro rfl
      rw [hnone] at hr
      cases hr
  cases a with
  | newDay today =>
    cases hg
    exact hstays hnone rfl
  | env b =>
    simp only [Gateway.next] at hg
    split at hg
    · cases hg
    · cases hg
    · obtain ⟨l, -, rfl⟩ := Option.map_eq_some_iff.1 hg
      exact hstays hnone rfl
  | body k body => exact hmoves rfl (by simp [Gateway.trace, hnone])
  | acquired k => exact hmoves rfl (by simp [Gateway.trace, hnone])
  | answer k answer fault => exact hmoves rfl (by simp [Gateway.trace, hnone])
  | stream k b fault => exact hmoves rfl rfl
  | arrive caller stream path requestId =>
    simp only [Gateway.next, Gateway.arrive_eq, Option.some.injEq] at hg
    by_cases hadmits : w.gateway.admits caller = true
    · rw [if_pos hadmits] at hg
      by_cases hn : w.gateway.requests.length = n
      · have hcomes : g.requests[n]? = some
            { caller := caller, path := path, requestId := requestId
              period := caller.plan.periodKey w.gateway.today
              used := w.gateway.ledger.used caller.client (caller.plan.periodKey w.gateway.today)
              checkedAt := w.gateway.debits.length
              progress := .reading stream } := by
          rw [← hg, ← hn]
          exact List.getElem?_concat_length ..
        refine ⟨hnum, fun hnone' => ?_, fun r hr => ?_⟩
        · have hnone' : g.requests[n]? = none := hnone'
          rw [hcomes] at hnone'
          cases hnone'
        · have hr : g.requests[n]? = some r := hr
          rw [hcomes] at hr
          cases hr
          simp only [Gateway.trace, if_pos (And.intro hn hadmits), hempty]
          exact ⟨⟨rfl, rfl, rfl⟩, rfl, rfl⟩
      · refine hstays ?_ (if_neg fun hcond => hn hcond.1)
        rw [← hg]
        refine List.getElem?_eq_none_iff.2 ?_
        show (w.gateway.requests ++ [_]).length ≤ n
        rw [List.length_append, List.length_singleton]
        omega
    · rw [if_neg hadmits] at hg
      subst hg
      exact hstays hnone (if_neg fun hcond => hadmits hcond.2)

theorem right_next (h : Right cfg n w) {a : GatewayAction} (hn : w.next cfg n a = some w') :
    Right cfg n w' := by
  obtain ⟨g, hg, rfl⟩ := Option.map_eq_some_iff.1 hn
  cases hr : w.gateway.requests[n]? with
  | none => exact right_before h hr hg
  | some r =>
    have hm := Gateway.next_move h.numbered hg
    have hnum := h.numbered.move hm
    have htidy := h.tidy r hr
    have hmine : ∀ {r'}, g.requests[n]? = some r' →
        Gateway.Tidy g.loop r' (w.gateway.trace cfg n w.trail a) →
        Right cfg n { gateway := g, trail := w.gateway.trace cfg n w.trail a } := by
      intro r' hr' htidy'
      refine ⟨hnum, fun hnone => ?_, fun r'' hr'' => ?_⟩
      · have hnone : g.requests[n]? = none := hnone
        rw [hr'] at hnone
        cases hnone
      · have hr'' : g.requests[n]? = some r'' := hr''
        rw [hr'] at hr''
        cases hr''
        exact htidy'
    by_cases ha : a.target = some n
    · cases a with
      | newDay | env | arrive => cases ha
      | body k body =>
        cases ha
        obtain ⟨r', hr', htidy'⟩ := Gateway.tidy_body hr htidy hg
        exact hmine hr' htidy'
      | acquired k =>
        cases ha
        obtain ⟨r', hr', htidy'⟩ := Gateway.tidy_acquired hr htidy hg
        exact hmine hr' htidy'
      | answer k answer fault =>
        cases ha
        obtain ⟨r', hr', htidy'⟩ := Gateway.tidy_answer hr htidy hg
        exact hmine hr' htidy'
      | stream k b fault =>
        cases ha
        obtain ⟨r', gen, s, hr', -, -, rfl⟩ := Gateway.next_stream hg
        rw [hr] at hr'
        cases hr'
        have hstreaming : (w.gateway.streamStep n r gen fault s).requests[n]? =
            some { r with progress := .streaming s.gen } := by
          rw [(Gateway.streamStep_spec).1]
          exact Gateway.setProgress_get hr
        exact hmine hstreaming True.intro
    · have htrace := @Gateway.trace_other cfg _ n w.trail a ha r hr
      exact hmine (Gateway.move_requests hm ha hr) (by
        rw [htrace]
        exact htidy.others h.numbered hm ha hr)

def failedRun : List GatewayAction :=
  [.arrive Gateway.guestCaller false "/api/solve" "r1", .body 0 .read, .acquired 0,
    .newDay ⟨2026, 1, 2⟩, .answer 0 .httpError none]

/-- The gateway with a trail of its first call. -/
def solving : Transition.Machine Traced GatewayAction :=
  machine Gateway.smallGateway 0 Gateway.newYear

def failed : Traced :=
  (solving.run solving.init failedRun).getD solving.init

end Traced

end OpendssGateway
