import OpendssGateway.Gateway.Periods
import OpendssGateway.Gateway.StreamCharge

/-!
# The budget of a period

Runs of the gateway with a clock, which is in UTC and is never set back.
`checks` and `charged` are history: when each call was checked, and the
check that each debit belongs to.

* `next_books` is what a step does to the calls and to the debits.
* `admitted_iff_below_since_reset`: a call is admitted if and only if the
  runs of its client that were admitted since the last reset of its plan
  have used less than the budget.
-/

namespace OpendssGateway

/-! ## The records of a stream -/

namespace Stream

variable {cfg : SchedulerConfig} {call : StreamCall} {s s' : Stream}

/-- The step records runs of the call, if it records any. -/
def Adds (call : StreamCall) (s s' : Stream) : Prop :=
  ∃ runs, s'.gen.records = s.gen.records ++ runs ∧
    ∀ run ∈ runs, run.client = call.job.client ∧ run.period = call.period

theorem adds_of_eq (h : s'.gen.records = s.gen.records) : Adds call s s' :=
  ⟨[], by rw [h, List.append_nil], nofun⟩

theorem adds_settle (s : Stream) (outcome : Outcome) :
    Adds call s (s.settle cfg call outcome) := by
  obtain ⟨l, hrelease⟩ := @releaseLease_eq cfg s
  have hrecord : ∀ seconds, Adds call s
      ((({ s with loop := l } : Stream).record call seconds).moveTo (.ended outcome)) :=
    fun seconds => ⟨_, rfl, List.forall_mem_singleton.2 ⟨rfl, rfl⟩⟩
  unfold settle
  rw [hrelease]
  dsimp only
  split
  · split
    · exact hrecord _
    · exact adds_of_eq rfl
  · exact hrecord _

theorem adds_finish (s : Stream) (outcome : Outcome) :
    Adds call s (s.finish cfg call outcome) := by
  unfold finish
  split
  · exact adds_of_eq rfl
  · exact adds_settle s outcome

theorem cancelTask_records (s : Stream) : (s.cancelTask cfg).gen.records = s.gen.records := by
  unfold cancelTask
  split <;> rfl

theorem adds_chunk (s : Stream) (tail bytes : Bytes) :
    Adds call s (({ s with gen := { s.gen with tail := tail } } : Stream).yield (.raw bytes)
      .chunk) :=
  adds_of_eq rfl

theorem adds_step {e : Event} (h : s.step cfg call e = some s') : Adds call s s' := by
  by_cases he : e ≠ .next ∧ e ≠ .close ∧ e ≠ .cancel ∧ e ≠ .wake
  · cases worker_step he h with
    | response | httpError | relay | lost => exact adds_of_eq rfl
    | chunk => exact adds_chunk s _ _
    | finish => exact adds_finish s _
    | settle => exact adds_settle s _
  cases e with
  | next =>
    simp only [step] at h
    split at h <;> cases h
    all_goals first
      | exact adds_of_eq rfl
      | exact adds_finish s _
  | close =>
    simp only [step] at h
    split at h <;> cases h
    all_goals first
      | exact adds_of_eq rfl
      | exact adds_finish s _
  | cancel =>
    simp only [step] at h
    split at h <;> cases h
    · exact adds_of_eq (cancelTask_records s)
    · exact adds_finish (s.setStatus "cancelled") _
    · exact adds_finish (s.setStatus "cancelled") _
    · exact adds_finish (s.setStatus "cancelled") _
    · exact adds_of_eq rfl
  | wake =>
    simp only [step, Option.ite_none_right_eq_some] at h
    obtain ⟨-, h⟩ := h
    split at h <;> cases h
    · exact adds_of_eq rfl
    · exact adds_of_eq rfl
    · exact adds_of_eq rfl
    · exact adds_of_eq (cancelTask_records s)
  | _ => simp at he

theorem adds_next {a : StreamAction} (h : s.next cfg call a = some s') : Adds call s s' := by
  cases a with
  | env a =>
    simp only [next] at h
    split at h
    · split at h
      · cases h
      · obtain ⟨l, -, rfl⟩ := Option.map_eq_some_iff.1 h
        exact adds_of_eq rfl
    · obtain ⟨l, -, rfl⟩ := Option.map_eq_some_iff.1 h
      exact adds_of_eq rfl
  | start =>
    simp only [next, startTask] at h
    split at h
    · cases h
      exact adds_of_eq rfl
    · split at h <;> cases h <;> exact adds_of_eq rfl
    · cases h
  | cancelTask =>
    cases h
    exact adds_of_eq (cancelTask_records s)
  | gen e => exact adds_step h

end Stream

namespace Gateway

variable {cfg : GatewayConfig} {g g' : Gateway}

/-! ## Calls and debits -/

/-- What a call keeps. -/
def tag (r : Request) : Caller × String :=
  (r.caller, r.period)

theorem tags_setProgress {n : Nat} {r : Request} (hr : g.requests[n]? = some r)
    (progress : Progress) : (g.setProgress n r progress).requests.map tag = g.requests.map tag := by
  show (g.requests.set n { r with progress := progress }).map tag = g.requests.map tag
  have htag : tag { r with progress := progress } = tag r := rfl
  rw [List.map_set, htag]
  refine List.ext_getElem? fun i => ?_
  rw [List.getElem?_set]
  split
  · rename_i hi
    subst hi
    split
    · rw [List.getElem?_map, hr]
      rfl
    · rename_i hlength
      exact (List.getElem?_eq_none (Nat.le_of_not_lt hlength)).symm
  · rfl

/-- The call that an action continues. -/
def continued : GatewayAction → Option Nat
  | .answer n _ _ | .stream n _ _ => some n
  | _ => none

/-- The action starts a call. -/
def starts : GatewayAction → Bool
  | .arrive .. => true
  | _ => false

/-- What a step does to the calls and to the debits. -/
inductive Books (g g' : Gateway) : GatewayAction → Prop
  /-- a call passes its check -/
  | admitted {caller : Caller} {stream : Bool} {path requestId : String}
      (hbelow : ∀ budget, caller.plan.budgetSeconds = some budget →
        g.ledger.used caller.client (caller.plan.periodKey g.today) < budget)
      (htags : g'.requests.map tag =
        g.requests.map tag ++ [(caller, caller.plan.periodKey g.today)])
      (hdebits : g'.debits = g.debits) : Books g g' (.arrive caller stream path requestId)
  /-- a call that has not passed its check is answered -/
  | refuse {caller : Caller} {stream : Bool} {path requestId : String} {budget : ℚ}
      (hbudget : caller.plan.budgetSeconds = some budget)
      (habove : budget ≤ g.ledger.used caller.client (caller.plan.periodKey g.today))
      (htags : g'.requests.map tag = g.requests.map tag)
      (hdebits : g'.debits = g.debits) : Books g g' (.arrive caller stream path requestId)
  /-- runs of a call are debited -/
  | charge {a : GatewayAction} {n : Nat} {r : Request} {runs : List Run}
      (ha : continued a = some n) (hr : g.requests[n]? = some r)
      (htags : g'.requests.map tag = g.requests.map tag) (hdebits : g'.debits = g.debits ++ runs)
      (hruns : ∀ run ∈ runs, run.client = r.caller.client ∧ run.period = r.period) : Books g g' a
  | quiet {a : GatewayAction} (ha : starts a = false)
      (htags : g'.requests.map tag = g.requests.map tag) (hdebits : g'.debits = g.debits) :
      Books g g' a

theorem books_arrive (caller : Caller) (stream : Bool) (path requestId : String) :
    Books g (g.arrive caller stream path requestId) (.arrive caller stream path requestId) := by
  unfold Gateway.arrive
  dsimp only
  split
  · rename_i budget hbudget
    split
    · rename_i habove
      exact .refuse hbudget habove rfl rfl
    · rename_i hbelow
      refine .admitted (fun budget' hbudget' => ?_) (by simp [passCheck, tag]) rfl
      rw [hbudget] at hbudget'
      cases hbudget'
      exact lt_of_not_ge hbelow
  · rename_i hnone
    refine .admitted (fun budget hbudget => ?_) (by simp [passCheck, tag]) rfl
    rw [hnone] at hbudget
    cases hbudget

theorem record_debits (g : Gateway) (run : Run) (fault : Option Statement) :
    ∃ runs, (g.record run fault).debits = g.debits ++ runs ∧ ∀ other ∈ runs, other = run := by
  cases fault with
  | none => exact ⟨[run], rfl, fun _ => List.mem_singleton.1⟩
  | some statement => exact ⟨[], (List.append_nil _).symm, nofun⟩

theorem books_settle {a : GatewayAction} {n : Nat} {r : Request} {lease : LeaseVar} {seconds : ℚ}
    {status : String} {fault : Option Statement} {progress : Progress}
    (ha : continued a = some n) (hr : g.requests[n]? = some r) :
    Books g (g.settle cfg n r lease seconds status fault progress) a := by
  obtain ⟨runs, hdebits, hruns⟩ := record_debits
    { g with loop := (g.loop.next cfg.scheduler (.release lease.i)).getD g.loop }
    (engineRun r lease seconds status) fault
  refine .charge ha hr ?_ hdebits fun run hrun => ?_
  · exact tags_setProgress (g := { g with loop := _ }.record _ fault) hr progress
  · rw [hruns run hrun]
    exact ⟨rfl, rfl⟩

theorem records_debits (g : Gateway) (runs : List Run) (fault : Option Statement) :
    ∃ debited, (runs.foldl (fun g run => g.record run fault) g).debits = g.debits ++ debited ∧
      ∀ run ∈ debited, run ∈ runs := by
  induction runs generalizing g with
  | nil => exact ⟨[], (List.append_nil _).symm, nofun⟩
  | cons run rest ih =>
    obtain ⟨first, hfirst, hrun⟩ := record_debits g run fault
    obtain ⟨debited, hdebited, hrest⟩ := ih (g.record run fault)
    refine ⟨first ++ debited, by rw [List.foldl_cons, hdebited, hfirst, List.append_assoc], ?_⟩
    intro other hother
    rcases List.mem_append.1 hother with hother | hother
    · rw [hrun other hother]
      exact List.mem_cons_self
    · exact List.mem_cons_of_mem run (hrest other hother)

theorem books_stream {n : Nat} {a : StreamAction} {fault : Option Statement}
    (h : g.next cfg (.stream n a fault) = some g') : Books g g' (.stream n a fault) := by
  obtain ⟨r, gen, s, hr, -, hs, rfl⟩ := next_stream h
  obtain ⟨runs, hrecords, hruns⟩ := Stream.adds_next hs
  obtain ⟨hrequests, -, -⟩ := @streamStep_spec g n r gen fault s
  have hdrop : s.gen.records.drop gen.records.length = runs := by
    rw [hrecords]
    exact List.drop_left
  have hdebits : ∃ debited, (g.streamStep n r gen fault s).debits = g.debits ++ debited ∧
      ∀ run ∈ debited, run ∈ runs := by
    unfold streamStep
    dsimp only
    rw [hdrop]
    split
    · exact records_debits _ runs fault
    · exact records_debits _ runs fault
  obtain ⟨debited, hdebited, hmem⟩ := hdebits
  refine .charge rfl hr ?_ hdebited fun run hrun => hruns run (hmem run hrun)
  rw [hrequests]
  exact tags_setProgress hr _

/-- Each step but a change of the day. -/
theorem next_books {a : GatewayAction} (h : g.next cfg a = some g') : Books g g' a := by
  cases a with
  | newDay today =>
    cases h
    exact .quiet rfl rfl rfl
  | env a =>
    simp only [Gateway.next] at h
    split at h
    · cases h
    · cases h
    · obtain ⟨l, -, rfl⟩ := Option.map_eq_some_iff.1 h
      exact .quiet rfl rfl rfl
  | arrive caller stream path requestId =>
    cases h
    exact books_arrive caller stream path requestId
  | body n body =>
    simp only [Gateway.next] at h
    split at h
    · rename_i r hr
      split at h <;> cases h
      · unfold Gateway.bodyRead
        split
        · exact .quiet rfl (tags_setProgress hr _) rfl
        · split
          · exact .quiet rfl (tags_setProgress hr _) rfl
          · exact .quiet rfl (tags_setProgress (g := { g with loop := _ }) hr _) rfl
      · exact .quiet rfl (tags_setProgress hr _) rfl
      · exact .quiet rfl (tags_setProgress hr _) rfl
    · cases h
  | acquired n =>
    simp only [Gateway.next] at h
    split at h
    · rename_i r hr
      split at h
      · split at h <;> cases h
        · exact .quiet rfl (tags_setProgress (g := g.noteForward r) hr _) rfl
        · exact .quiet rfl (tags_setProgress hr _) rfl
      · cases h
    · cases h
  | answer n answer fault =>
    simp only [Gateway.next] at h
    split at h
    · rename_i r hr
      split at h <;> cases h
      cases answer with
      | response statusCode seconds =>
        cases seconds with
        | some seconds => exact books_settle rfl hr
        | none => exact books_settle rfl hr
      | httpError => exact books_settle rfl hr
      | otherError => exact books_settle rfl hr
    · cases h
  | stream n a fault => exact books_stream h

theorem record_today (g : Gateway) (runs : List Run) (fault : Option Statement) :
    (runs.foldl (fun g run => g.record run fault) g).today = g.today := by
  induction runs generalizing g with
  | nil => rfl
  | cons run rest ih => exact ih (g.record run fault)

/-- Only a change of the day changes the day. -/
theorem next_today {a : GatewayAction} (ha : ∀ today, a ≠ .newDay today)
    (h : g.next cfg a = some g') : g'.today = g.today := by
  cases a with
  | newDay today => exact absurd rfl (ha today)
  | env a =>
    simp only [Gateway.next] at h
    split at h
    · cases h
    · cases h
    · obtain ⟨l, -, rfl⟩ := Option.map_eq_some_iff.1 h
      rfl
  | arrive caller stream path requestId =>
    cases h
    unfold Gateway.arrive
    dsimp only
    split
    · split <;> rfl
    · rfl
  | body n body =>
    simp only [Gateway.next] at h
    split at h
    · split at h <;> cases h
      · unfold Gateway.bodyRead
        split
        · rfl
        · split <;> rfl
      · rfl
      · rfl
    · cases h
  | acquired n =>
    simp only [Gateway.next] at h
    split at h
    · split at h
      · split at h <;> cases h <;> rfl
      · cases h
    · cases h
  | answer n answer fault =>
    simp only [Gateway.next] at h
    split at h
    · split at h <;> cases h
      cases answer with
      | response statusCode seconds => cases seconds <;> rfl
      | httpError => rfl
      | otherError => rfl
    · cases h
  | stream n a fault =>
    obtain ⟨r, gen, s, -, -, -, rfl⟩ := next_stream h
    unfold streamStep
    dsimp only
    rw [record_today]
    split <;> rfl

end Gateway

/-! ## Runs with a clock -/

/-- A run that was debited, and the check that its call passed. -/
structure Charge where
  checkedAt : Nat
  plan : Plan
  run : Run

structure Clocked where
  gateway : Gateway
  /-- in microseconds since the epoch -/
  clock : Nat
  /-- when each of the calls was checked -/
  checks : List Nat
  charged : List Charge

inductive ClockAction
  | tick (clock : Nat)
  | act (a : GatewayAction)

namespace Clocked

variable (cfg : GatewayConfig)

def init (clock : Nat) : Clocked where
  gateway := Gateway.init cfg (dateAt clock)
  clock := clock
  checks := []
  charged := []

/-- The check of the call that an action continues. -/
def checkOf (c : Clocked) (a : GatewayAction) (run : Run) : Option Charge := do
  let n ← Gateway.continued a
  let r ← c.gateway.requests[n]?
  let t ← c.checks[n]?
  some { checkedAt := t, plan := r.caller.plan, run := run }

/-- A step of the gateway, with what it adds to the history. -/
def note (c : Clocked) (a : GatewayAction) (g : Gateway) : Clocked where
  gateway := g
  clock := c.clock
  checks := if c.gateway.requests.length < g.requests.length then c.checks ++ [c.clock] else c.checks
  charged := c.charged ++ (g.debits.drop c.gateway.debits.length).filterMap (c.checkOf a)

def next (c : Clocked) : ClockAction → Option Clocked
  | .tick clock =>
    if c.clock ≤ clock then
      some { c with gateway := { c.gateway with today := dateAt clock }, clock := clock }
    else none
  | .act a =>
    match a with
    | .newDay _ => none
    | a => (c.gateway.next cfg a).map (c.note a)

def machine (clock : Nat) : Transition.Machine Clocked ClockAction where
  init := init cfg clock
  next := next cfg

/-- What the runs of a client have used since the last reset of a plan.  A run counts by its
check, and only if it was made under a plan with the same kind of period. -/
def usedSinceReset (c : Clocked) (client : String) (plan : Plan) : ℚ :=
  (c.charged.map fun x =>
    if x.run.client = client ∧ (plan.budgetPeriod = "month" ↔ x.plan.budgetPeriod = "month") ∧
        plan.lastReset c.clock ≤ x.checkedAt then x.run.engineSeconds else 0).sum

variable {cfg} {c c' : Clocked} {clock : Nat}

/-- The call was checked at the instant, in its period. -/
def Dated (clock : Nat) (call : Caller × String) (t : Nat) : Prop :=
  t ≤ clock ∧ call.2 = call.1.plan.periodKey (dateAt t)

structure Inv (c : Clocked) : Prop where
  today : c.gateway.today = dateAt c.clock
  checks : List.Forall₂ (Dated c.clock) (c.gateway.requests.map Gateway.tag) c.checks
  debits : c.charged.map Charge.run = c.gateway.debits
  charged : ∀ x ∈ c.charged, x.checkedAt ≤ c.clock ∧ x.run.period = x.plan.periodKey (dateAt x.checkedAt)
  books : Gateway.Inv c.gateway

theorem inv_init : Inv (init cfg clock) where
  today := rfl
  checks := List.Forall₂.nil
  debits := rfl
  charged := nofun
  books := Gateway.inv_init (dateAt clock)

theorem Inv.tick (h : Inv c) (hle : c.clock ≤ clock) :
    Inv { c with gateway := { c.gateway with today := dateAt clock }, clock := clock } where
  today := rfl
  checks := h.checks.imp fun _ _ hdated => ⟨hdated.1.trans hle, hdated.2⟩
  debits := h.debits
  charged := fun x hx => ⟨(h.charged x hx).1.trans hle, (h.charged x hx).2⟩
  books := { h.books with }

/-- The check of a call that is under way. -/
theorem Inv.exists_check (h : Inv c) {n : Nat} {r : Request}
    (hr : c.gateway.requests[n]? = some r) :
    ∃ t, c.checks[n]? = some t ∧ Dated c.clock (Gateway.tag r) t := by
  obtain ⟨hlength, hdated⟩ := List.forall₂_iff_get.1 h.checks
  obtain ⟨hn, rfl⟩ := List.getElem?_eq_some_iff.1 hr
  rw [List.length_map] at hlength
  have hn' : n < c.checks.length := hlength ▸ hn
  refine ⟨c.checks[n], List.getElem?_eq_getElem hn', ?_⟩
  have hget := hdated n (by rw [List.length_map]; exact hn) hn'
  simpa using hget

/-- The history after a step that debits nothing. -/
theorem charged_note {a : GatewayAction} {g : Gateway} (hdebits : g.debits = c.gateway.debits) :
    (c.note a g).charged = c.charged := by
  unfold note
  rw [hdebits, List.drop_length]
  exact List.append_nil _

/-- The history after a step that starts no call. -/
theorem checks_note {a : GatewayAction} {g : Gateway}
    (htags : g.requests.map Gateway.tag = c.gateway.requests.map Gateway.tag) :
    (c.note a g).checks = c.checks := by
  have hlength := congrArg List.length htags
  rw [List.length_map, List.length_map] at hlength
  exact if_neg (by omega)

/-- A step that starts no call and debits nothing. -/
theorem Inv.quiet (h : Inv c) {a : GatewayAction} {g : Gateway}
    (htoday : g.today = c.gateway.today) (hbooks : Gateway.Inv g)
    (htags : g.requests.map Gateway.tag = c.gateway.requests.map Gateway.tag)
    (hdebits : g.debits = c.gateway.debits) : Inv (c.note a g) where
  today := htoday.trans h.today
  checks := by
    rw [checks_note htags]
    show List.Forall₂ _ (g.requests.map Gateway.tag) _
    rw [htags]
    exact h.checks
  debits := by
    rw [charged_note hdebits]
    exact h.debits.trans hdebits.symm
  charged := by
    rw [charged_note hdebits]
    exact h.charged
  books := hbooks

/-- A call passes its check. -/
theorem Inv.admitted (h : Inv c) {a : GatewayAction} {g : Gateway} {caller : Caller}
    (htoday : g.today = c.gateway.today) (hbooks : Gateway.Inv g)
    (htags : g.requests.map Gateway.tag = c.gateway.requests.map Gateway.tag ++
      [(caller, caller.plan.periodKey c.gateway.today)])
    (hdebits : g.debits = c.gateway.debits) : Inv (c.note a g) where
  today := htoday.trans h.today
  checks := by
    have hlength := congrArg List.length htags
    simp only [List.length_map, List.length_append, List.length_singleton] at hlength
    have hchecks : (c.note a g).checks = c.checks ++ [c.clock] := if_pos (by omega)
    rw [hchecks]
    show List.Forall₂ _ (g.requests.map Gateway.tag) _
    rw [htags]
    refine List.rel_append h.checks (List.Forall₂.cons ⟨le_rfl, ?_⟩ List.Forall₂.nil)
    rw [h.today]
  debits := by
    rw [charged_note hdebits]
    exact h.debits.trans hdebits.symm
  charged := by
    rw [charged_note hdebits]
    exact h.charged
  books := hbooks

/-- Runs of a call are debited. -/
theorem Inv.charge (h : Inv c) {a : GatewayAction} {g : Gateway} {n : Nat} {r : Request}
    {runs : List Run} (htoday : g.today = c.gateway.today) (hbooks : Gateway.Inv g)
    (hcontinued : Gateway.continued a = some n) (hr : c.gateway.requests[n]? = some r)
    (htags : g.requests.map Gateway.tag = c.gateway.requests.map Gateway.tag)
    (hdebits : g.debits = c.gateway.debits ++ runs)
    (hruns : ∀ run ∈ runs, run.client = r.caller.client ∧ run.period = r.period) :
    Inv (c.note a g) := by
  obtain ⟨t, ht, hle, hperiod⟩ := h.exists_check hr
  have hcheck : ∀ run, c.checkOf a run = some ⟨t, r.caller.plan, run⟩ := by
    intro run
    simp [checkOf, hcontinued, hr, ht]
  have hcharged : (c.note a g).charged =
      c.charged ++ runs.map fun run => ⟨t, r.caller.plan, run⟩ := by
    show c.charged ++ (g.debits.drop c.gateway.debits.length).filterMap (c.checkOf a) = _
    rw [hdebits, List.drop_left, ← List.filterMap_eq_map]
    congr 1
    exact List.filterMap_congr fun run _ => hcheck run
  refine ⟨htoday.trans h.today, ?_, ?_, ?_, hbooks⟩
  · rw [checks_note htags]
    show List.Forall₂ _ (g.requests.map Gateway.tag) _
    rw [htags]
    exact h.checks
  · rw [hcharged, List.map_append, h.debits, List.map_map]
    show c.gateway.debits ++ runs.map id = g.debits
    rw [List.map_id, hdebits]
  · rw [hcharged]
    intro x hx
    rcases List.mem_append.1 hx with hx | hx
    · exact h.charged x hx
    · obtain ⟨run, hrun, rfl⟩ := List.mem_map.1 hx
      exact ⟨hle, (hruns run hrun).2.trans hperiod⟩

theorem Inv.act (h : Inv c) {a : GatewayAction} {g : Gateway} (ha : ∀ today, a ≠ .newDay today)
    (hn : c.gateway.next cfg a = some g) : Inv (c.note a g) := by
  have htoday := Gateway.next_today ha hn
  have hbooks : Gateway.Inv g := h.books.next hn
  cases Gateway.next_books hn with
  | admitted hbelow htags hdebits => exact h.admitted htoday hbooks htags hdebits
  | refuse hbudget habove htags hdebits => exact h.quiet htoday hbooks htags hdebits
  | charge hcontinued hr htags hdebits hruns =>
    exact h.charge htoday hbooks hcontinued hr htags hdebits hruns
  | quiet hquiet htags hdebits => exact h.quiet htoday hbooks htags hdebits

theorem next_act {a : GatewayAction} (ha : ∀ today, a ≠ .newDay today) :
    next cfg c (.act a) = (c.gateway.next cfg a).map (c.note a) := by
  cases a with
  | newDay today => exact absurd rfl (ha today)
  | _ => rfl

theorem inv_reachable (h : (machine cfg clock).Reachable c) : Inv c := by
  refine h.invariant Inv inv_init fun c a c' hc _ hn => ?_
  have hn : next cfg c a = some c' := hn
  cases a with
  | tick t =>
    simp only [next, Option.ite_none_right_eq_some, Option.some.injEq] at hn
    obtain ⟨hle, rfl⟩ := hn
    exact hc.tick hle
  | act a =>
    by_cases ha : ∀ today, a ≠ .newDay today
    · rw [next_act ha] at hn
      obtain ⟨g, hg, rfl⟩ := Option.map_eq_some_iff.1 hn
      exact hc.act ha hg
    · simp only [not_forall, not_not] at ha
      obtain ⟨today, rfl⟩ := ha
      cases hn

/-- What admission reads is what was used since the last reset. -/
theorem Inv.used_eq (h : Inv c) (client : String) (plan : Plan) :
    c.gateway.ledger.used client (plan.periodKey (dateAt c.clock)) =
      c.usedSinceReset client plan := by
  rw [h.books.usage, ← h.debits, Gateway.total, List.map_map]
  unfold usedSinceReset
  congr 1
  refine List.map_congr_left fun x hx => ?_
  obtain ⟨hle, hperiod⟩ := h.charged x hx
  have hkey : x.run.period = plan.periodKey (dateAt c.clock) ↔
      SameKind plan x.plan ∧ plan.lastReset c.clock ≤ x.checkedAt := by
    rw [hperiod]
    exact periodKey_eq_iff_lastReset hle
  exact if_congr (and_congr_right fun _ => hkey) rfl rfl

/-- A call is admitted if and only if its client has used less than the budget of its plan
since the last reset. -/
theorem admitted_iff_below_since_reset (h : (machine cfg clock).Reachable c) (caller : Caller)
    (stream : Bool) (path requestId : String) :
    (∃ c', next cfg c (.act (.arrive caller stream path requestId)) = some c' ∧
        c'.gateway.requests.length = c.gateway.requests.length + 1) ↔
      ∀ budget, caller.plan.budgetSeconds = some budget →
        c.usedSinceReset caller.client caller.plan < budget := by
  have hinv := inv_reachable h
  have hused := hinv.used_eq caller.client caller.plan
  have hnext : next cfg c (.act (.arrive caller stream path requestId)) =
      some (c.note (.arrive caller stream path requestId)
        (c.gateway.arrive caller stream path requestId)) := rfl
  rw [hnext]
  constructor
  · rintro ⟨c', hc', hlength⟩ budget hbudget
    cases hc'
    have hlength : (c.gateway.arrive caller stream path requestId).requests.length =
        c.gateway.requests.length + 1 := hlength
    cases Gateway.books_arrive (g := c.gateway) caller stream path requestId with
    | admitted hbelow htags hdebits =>
      rw [← hused, ← hinv.today]
      exact hbelow budget hbudget
    | refuse hbudget' habove htags hdebits =>
      have hsame := congrArg List.length htags
      rw [List.length_map, List.length_map] at hsame
      omega
    | charge hcontinued => cases hcontinued
    | quiet hquiet => cases hquiet
  · intro hbelow
    refine ⟨_, rfl, ?_⟩
    show (c.gateway.arrive caller stream path requestId).requests.length = _
    cases Gateway.books_arrive (g := c.gateway) caller stream path requestId with
    | admitted hbelow' htags hdebits =>
      have hmore := congrArg List.length htags
      simpa using hmore
    | refuse hbudget habove htags hdebits =>
      rw [hinv.today, hused] at habove
      exact absurd (hbelow _ hbudget) (not_lt.2 habove)
    | charge hcontinued => cases hcontinued
    | quiet hquiet => cases hquiet

/-! ## A guest who has spent a day's budget

One solve of twelve seconds, and a second call in the same day. -/

def spentRun : List ClockAction :=
  [.act (.arrive Gateway.guestCaller false "/api/solve" "r1"), .act (.body 0 .read),
    .act (.acquired 0), .tick 12000000, .act (.answer 0 (.response 200 (some 12)) none)]

def spent : Clocked :=
  ((machine Gateway.smallGateway 0).run (init Gateway.smallGateway 0) spentRun).getD
    (init Gateway.smallGateway 0)

theorem spent_reachable : (machine Gateway.smallGateway 0).Reachable spent :=
  Transition.Machine.reachable_of_run
    (show (machine Gateway.smallGateway 0).run _ spentRun = _ from
      Transition.eq_some_getD _ (by decide +kernel))

/-- The second call of the day is refused. -/
theorem admitted_iff_below_since_reset_spent :
    ¬ ∃ c', next Gateway.smallGateway spent
        (.act (.arrive Gateway.guestCaller false "/api/solve" "r2")) = some c' ∧
      c'.gateway.requests.length = spent.gateway.requests.length + 1 := by
  intro hadmitted
  have hbelow := (admitted_iff_below_since_reset spent_reachable Gateway.guestCaller false
    "/api/solve" "r2").1 hadmitted 10 rfl
  exact absurd hbelow (by decide +kernel)

end Clocked

end OpendssGateway
