import OpendssGateway.Gateway.Admission

/-!
# What the budget check promises

The usage that admission reads is the sum of the debits so far
(`Inv.usage`).  So a forwarded call had usage below its budget at its
check, and its usage at the forwarding is that plus what was debited in
between.  It need not be below the budget any more: other runs of the same
client finish while the call waits for a worker.
-/

namespace OpendssGateway

namespace Gateway

variable {cfg : GatewayConfig} {g g' : Gateway}

/-- What some runs add to the usage of a client in a period. -/
def total (client period : String) (runs : List Run) : ℚ :=
  (runs.map (Ledger.charge client period)).sum

theorem total_append (client period : String) (runs runs' : List Run) :
    total client period (runs ++ runs') = total client period runs + total client period runs' := by
  simp [total]

/-- A call that passed its check, at a moment of the run. -/
structure Checked (debits : List Run) (r : Request) : Prop where
  past : r.checkedAt ≤ debits.length
  used : r.used = total r.caller.client r.period (debits.take r.checkedAt)
  below : ∀ budget, r.caller.plan.budgetSeconds = some budget → r.used < budget

/-- A call that was forwarded after its check. -/
structure Forwarded (debits : List Run) (f : Forward) : Prop where
  order : f.checkedAt ≤ f.forwardedAt
  past : f.forwardedAt ≤ debits.length
  usage : f.usage = total f.client f.period (debits.take f.forwardedAt)
  below : ∀ budget, f.plan.budgetSeconds = some budget →
    total f.client f.period (debits.take f.checkedAt) < budget

structure Inv (g : Gateway) : Prop where
  usage : ∀ client period, g.ledger.used client period = total client period g.debits
  requests : ∀ r ∈ g.requests, Checked g.debits r
  forwards : ∀ f ∈ g.forwards, Forwarded g.debits f

theorem inv_init (today : Date) : Inv (init cfg today) where
  usage := fun _ _ => rfl
  requests := fun _ hr => by cases hr
  forwards := fun _ hf => by cases hf

/-! ## Later debits change no past moment -/

theorem Checked.append {debits : List Run} {r : Request} (h : Checked debits r) (run : Run) :
    Checked (debits ++ [run]) r where
  past := by
    rw [List.length_append]
    exact Nat.le_add_right_of_le h.past
  used := by
    rw [List.take_append_of_le_length h.past]
    exact h.used
  below := h.below

theorem Forwarded.append {debits : List Run} {f : Forward} (h : Forwarded debits f) (run : Run) :
    Forwarded (debits ++ [run]) f where
  order := h.order
  past := by
    rw [List.length_append]
    exact Nat.le_add_right_of_le h.past
  usage := by
    rw [List.take_append_of_le_length h.past]
    exact h.usage
  below := by
    rw [List.take_append_of_le_length (h.order.trans h.past)]
    exact h.below

/-! ## The steps -/

theorem Inv.setProgress (h : Inv g) {n : Nat} {r : Request} (hr : Checked g.debits r)
    (progress : Progress) : Inv (g.setProgress n r progress) where
  usage := h.usage
  requests := by
    intro r' hr'
    rcases List.mem_or_eq_of_mem_set hr' with hmem | rfl
    · exact h.requests r' hmem
    · exact { hr with }
  forwards := h.forwards

theorem Inv.record (h : Inv g) (run : Run) (fault : Option Statement) :
    Inv (g.record run fault) := by
  cases fault with
  | some statement => exact { h with }
  | none =>
    refine ⟨fun client period => ?_, fun r hr => (h.requests r hr).append run,
      fun f hf => (h.forwards f hf).append run⟩
    show (g.ledger.afterRecord g.loop.now run none).used client period =
      total client period (g.debits ++ [run])
    rw [Ledger.used_record, h.usage, total_append]
    simp [total]

theorem Inv.noteForward (h : Inv g) {r : Request} (hr : Checked g.debits r) :
    Inv (g.noteForward r) where
  usage := h.usage
  requests := h.requests
  forwards := by
    intro f hf
    rcases List.mem_append.1 hf with hf | hf
    · exact h.forwards f hf
    · rw [List.mem_singleton.1 hf]
      refine ⟨hr.past, Nat.le_refl _, ?_, fun budget hbudget => ?_⟩
      · show g.ledger.used r.caller.client r.period = total _ _ (g.debits.take g.debits.length)
        rw [List.take_length]
        exact h.usage _ _
      · show total r.caller.client r.period (g.debits.take r.checkedAt) < budget
        rw [← hr.used]
        exact hr.below budget hbudget

theorem Inv.loop (h : Inv g) (l : Loop) : Inv { g with loop := l } := { h with }

theorem Inv.passCheck (h : Inv g) (caller : Caller) (stream : Bool) (path requestId : String)
    {period : String} {used : ℚ} (hused : used = g.ledger.used caller.client period)
    (hbelow : ∀ budget, caller.plan.budgetSeconds = some budget → used < budget) :
    Inv (g.passCheck caller stream path requestId period used) where
  usage := h.usage
  requests := by
    intro r hr
    rcases List.mem_append.1 hr with hr | hr
    · exact h.requests r hr
    · rw [List.mem_singleton.1 hr]
      refine ⟨Nat.le_refl _, ?_, hbelow⟩
      show used = total caller.client period (g.debits.take g.debits.length)
      rw [List.take_length, hused]
      exact h.usage _ _
  forwards := h.forwards

/-- Only a call below its budget passes the check. -/
theorem Inv.arrive (h : Inv g) (caller : Caller) (stream : Bool) (path requestId : String) :
    Inv (g.arrive caller stream path requestId) := by
  unfold Gateway.arrive
  dsimp only
  split
  · rename_i budget hbudget
    split
    · exact h
    · rename_i hlt
      apply h.passCheck caller stream path requestId rfl
      intro budget' hbudget'
      rw [hbudget] at hbudget'
      cases hbudget'
      exact lt_of_not_ge hlt
  · rename_i hnone
    apply h.passCheck caller stream path requestId rfl
    intro budget hbudget
    rw [hnone] at hbudget
    cases hbudget

theorem Inv.bodyRead (h : Inv g) {n : Nat} {r : Request} (hr : Checked g.debits r)
    (stream : Bool) : Inv (g.bodyRead cfg n r stream) := by
  unfold Gateway.bodyRead
  split
  · exact h.setProgress hr _
  · split
    · exact h.setProgress hr _
    · exact (h.loop (g.loop.acquire cfg.scheduler r.caller.job none)).setProgress hr _

theorem Inv.settle (h : Inv g) {n : Nat} {r : Request} (hr : Checked g.debits r)
    (lease : LeaseVar) (seconds : ℚ) (status : String) (fault : Option Statement)
    (progress : Progress) : Inv (g.settle cfg n r lease seconds status fault progress) := by
  have hloop := h.loop ((g.loop.next cfg.scheduler (.release lease.i)).getD g.loop)
  apply (hloop.record (engineRun r lease seconds status) fault).setProgress
  cases fault with
  | some statement => exact hr
  | none => exact hr.append _

theorem Inv.answered (h : Inv g) {n : Nat} {r : Request} (hr : Checked g.debits r)
    (lease : LeaseVar) (fault : Option Statement) (answer : EngineAnswer) :
    Inv (g.answered cfg n r lease fault answer) := by
  cases answer with
  | response statusCode seconds =>
    cases seconds with
    | some seconds => exact h.settle hr ..
    | none => exact h.settle hr ..
  | httpError => exact h.settle hr ..
  | otherError => exact h.settle hr ..

theorem Inv.streamStep (h : Inv g) {n : Nat} {r : Request} (hr : Checked g.debits r) (gen : Gen)
    (fault : Option Statement) (s : Stream) : Inv (g.streamStep n r gen fault s) := by
  have hset : Inv ({ g with loop := s.loop }.setProgress n r (.streaming s.gen)) :=
    (h.loop s.loop).setProgress hr _
  unfold Gateway.streamStep
  dsimp only
  generalize s.gen.records.drop gen.records.length = runs
  -- the records come after the forwarding
  have hfold : ∀ g₀ : Gateway, Inv g₀ → Inv (runs.foldl (fun g run => g.record run fault) g₀) := by
    induction runs with
    | nil => exact fun _ h₀ => h₀
    | cons run rest ih => exact fun g₀ h₀ => ih _ (h₀.record run fault)
  apply hfold
  split
  · exact hset.noteForward hr
  · exact hset

theorem Inv.next (h : Inv g) {a : GatewayAction} (hn : g.next cfg a = some g') : Inv g' := by
  have hchecked : ∀ {n : Nat} {r : Request}, g.requests[n]? = some r → Checked g.debits r :=
    fun hr => h.requests _ (List.mem_of_getElem? hr)
  cases a with
  | newDay today =>
    cases hn
    exact { h with }
  | env a =>
    simp only [Gateway.next] at hn
    split at hn
    · cases hn
    · cases hn
    · obtain ⟨l, -, rfl⟩ := Option.map_eq_some_iff.1 hn
      exact h.loop l
  | arrive caller stream path requestId =>
    cases hn
    exact h.arrive caller stream path requestId
  | body n body =>
    simp only [Gateway.next] at hn
    split at hn
    · rename_i r hr
      split at hn <;> cases hn
      · exact h.bodyRead (hchecked hr) _
      · exact h.setProgress (hchecked hr) _
      · exact h.setProgress (hchecked hr) _
    · cases hn
  | acquired n =>
    simp only [Gateway.next] at hn
    split at hn
    · rename_i r hr
      split at hn
      · split at hn <;> cases hn
        · exact (h.noteForward (hchecked hr)).setProgress (hchecked hr) _
        · exact h.setProgress (hchecked hr) _
      · cases hn
    · cases hn
  | answer n answer fault =>
    simp only [Gateway.next] at hn
    split at hn
    · rename_i r hr
      split at hn <;> cases hn
      exact h.answered (hchecked hr) _ fault answer
    · cases hn
  | stream n a fault =>
    simp only [Gateway.next] at hn
    split at hn
    · cases hn
    · rename_i r a' hr
      split at hn
      · obtain ⟨s, -, rfl⟩ := Option.map_eq_some_iff.1 hn
        exact h.streamStep (hchecked ‹_›) _ fault s
      · cases hn
    · cases hn

theorem inv_reachable {today : Date} (h : (machine cfg today).Reachable g) : Inv g :=
  h.invariant Inv (inv_init today) fun _ _ _ hI _ hn => hI.next hn

/-- In every run the usage that the ledger reports is the sum of the debits.
A forwarded call had usage below its budget at the moment of its check, and
when it is forwarded the usage has grown by what was debited to its client
and period in between. -/
theorem forwarded_below_at_check {today : Date} (h : (machine cfg today).Reachable g) :
    (∀ client period, g.ledger.used client period = total client period g.debits) ∧
    ∀ f ∈ g.forwards, ∀ budget, f.plan.budgetSeconds = some budget →
      f.checkedAt ≤ f.forwardedAt ∧
      total f.client f.period (g.debits.take f.checkedAt) < budget ∧
      f.usage = total f.client f.period (g.debits.take f.checkedAt) +
        total f.client f.period ((g.debits.take f.forwardedAt).drop f.checkedAt) := by
  refine ⟨(inv_reachable h).usage, fun f hf budget hbudget => ?_⟩
  have hforward := (inv_reachable h).forwards f hf
  have hsplit : g.debits.take f.forwardedAt =
      g.debits.take f.checkedAt ++ (g.debits.take f.forwardedAt).drop f.checkedAt := by
    conv_lhs => rw [← List.take_append_drop f.checkedAt (g.debits.take f.forwardedAt)]
    rw [List.take_take, Nat.min_eq_left hforward.order]
  refine ⟨hforward.order, hforward.below budget hbudget, ?_⟩
  calc f.usage = total f.client f.period (g.debits.take f.forwardedAt) := hforward.usage
    _ = total f.client f.period
          (g.debits.take f.checkedAt ++ (g.debits.take f.forwardedAt).drop f.checkedAt) :=
        congrArg _ hsplit
    _ = _ := total_append ..

/-! ## A call that waits past its budget

Two solves of one guest, who has ten seconds.  Both are checked while
nothing is debited.  The first one takes twelve seconds while the second
one waits for it. -/

def guestCaller : Caller where
  client := "ip:192.0.2.1"
  plan := { id := "guest", priority := 10, budgetSeconds := some 10 }

def smallGateway : GatewayConfig where
  scheduler := { smallConfig with maxQueue := 16 }
  upstreamTimeoutS := 900

def newYear : Date := ⟨2026, 1, 1⟩

def overtakenRun : List GatewayAction :=
  [.arrive guestCaller false "/api/solve" "r1", .arrive guestCaller false "/api/solve" "r2",
    .body 0 .read, .acquired 0, .body 1 .read, .answer 0 (.response 200 (some 12)) none,
    .env (.resume 1), .acquired 1]

def overtaken : Gateway :=
  ((machine smallGateway newYear).run (init smallGateway newYear) overtakenRun).getD
    (init smallGateway newYear)

theorem overtaken_reachable : (machine smallGateway newYear).Reachable overtaken :=
  Transition.Machine.reachable_of_run
    (show (machine smallGateway newYear).run _ overtakenRun = _ from rfl)

/-- The second forwarding of that run. -/
def overtakenForward : Forward where
  client := "ip:192.0.2.1"
  plan := guestCaller.plan
  period := "2026-01-01"
  checkedAt := 0
  forwardedAt := 1
  usage := 12

theorem overtakenForward_mem : overtakenForward ∈ overtaken.forwards := by
  have : overtaken.forwards[1]? = some overtakenForward := by rfl
  exact List.mem_of_getElem? this

theorem forwarded_below_at_check_overtaken :
    total "ip:192.0.2.1" "2026-01-01" (overtaken.debits.take 0) < 10 :=
  ((forwarded_below_at_check overtaken_reachable).2 overtakenForward overtakenForward_mem 10
    rfl).2.1

/-- A call may be forwarded when its client has no budget left. -/
theorem forwarded_over_budget :
    ¬ ∀ (cfg : GatewayConfig) (today : Date) (g : Gateway), (machine cfg today).Reachable g →
      ∀ f ∈ g.forwards, ∀ budget, f.plan.budgetSeconds = some budget → f.usage < budget := by
  intro hclaim
  have hlt := hclaim smallGateway newYear overtaken overtaken_reachable overtakenForward
    overtakenForward_mem 10 rfl
  exact absurd hlt (by decide +kernel)

end Gateway

end OpendssGateway
