import OpendssGateway.Scheduler.Coherence

/-!
# How a call of `acquire` evolves

What one step of the event loop can do to one call.  A call that was
interrupted never returns a lease, a lease is only ever released by its
holder, and a call that ended stays as it is.  This is all that the code
around the scheduler has to know about the other callers.
-/

namespace OpendssGateway

/-- The steps of the state of a call.  `released` is the condition under
which a lease is released. -/
inductive CallState.Evolves (released : Prop) : CallState → CallState → Prop
  | same (state : CallState) : Evolves released state state
  | interrupted {expired cancelled expired' cancelled' : Bool} :
      (expired = true → expired' = true) → (cancelled = true → cancelled' = true) →
      Evolves released (.waiting expired cancelled) (.waiting expired' cancelled')
  | leased (worker : String) (waited : ℚ) :
      Evolves released (.waiting false false) (.leased worker waited false)
  | raised (expired cancelled : Bool) (e : AcquireError) :
      Evolves released (.waiting expired cancelled) (.raised e)
  | released (worker : String) (waited : ℚ) : released →
      Evolves released (.leased worker waited false) (.leased worker waited true)

/-- How a call ends that resumes with its future done. -/
def CallState.ending (waited : ℚ) (interrupted : Bool) : Future → CallState
  | .result worker => if interrupted then .raised .queueTimeout else .leased worker waited false
  | .exception e => .raised e
  | _ => .raised .queueTimeout

/-- The step is one of the event loop on call `i`. -/
def Action.Touches (i : Nat) : Action → Prop
  | .timeout j | .cancel j | .resume j => j = i
  | _ => False

/-- What one step can make of call `i`. -/
inductive Call.Takes (l : Loop) (i : Nat) (c : Call) : Action → CallState → Prop
  | same (a : Action) : ¬ a.Touches i → Takes l i c a c.state
  | expires {cancelled : Bool} : c.state = .waiting false cancelled →
      c.waiter.enqueued + c.waitS ≤ l.now → Takes l i c (.timeout i) (.waiting true cancelled)
  | cancels {expired cancelled : Bool} : c.state = .waiting expired cancelled →
      Takes l i c (.cancel i) (.waiting expired true)
  | ends {expired cancelled : Bool} : c.state = .waiting expired cancelled →
      l.sched.futures i ≠ .pending →
      Takes l i c (.resume i) (CallState.ending (l.now - c.waiter.enqueued)
        (expired || cancelled) (l.sched.futures i))
  | releases {worker : String} {waited : ℚ} : c.state = .leased worker waited false →
      Takes l i c (.release i) (.leased worker waited true)

theorem Call.Takes.evolves {l : Loop} {i : Nat} {c : Call} {a : Action} {state : CallState}
    (h : c.Takes l i a state) :
    CallState.Evolves (a = .release i) c.state state := by
  cases h with
  | same => exact CallState.Evolves.same _
  | expires hstate =>
    rw [hstate]
    exact CallState.Evolves.interrupted (fun _ => rfl) id
  | cancels hstate =>
    rw [hstate]
    exact CallState.Evolves.interrupted id fun _ => rfl
  | @ends expired cancelled hstate hdone =>
    rw [hstate]
    unfold CallState.ending
    split
    · cases hint : expired || cancelled with
      | true => exact CallState.Evolves.raised ..
      | false =>
        rw [Bool.or_eq_false_iff] at hint
        rw [hint.1, hint.2]
        exact CallState.Evolves.leased ..
    · exact CallState.Evolves.raised ..
    · exact CallState.Evolves.raised ..
  | releases hstate =>
    rw [hstate]
    exact CallState.Evolves.released _ _ rfl

namespace Loop

variable {cfg : SchedulerConfig} {l l' : Loop} {i j : Nat} {c d : Call}

/-- Call `i` is the same call, in a state that its old state evolves to. -/
def CallEvolves (released : Prop) (l' : Loop) (i : Nat) (c : Call) : Prop :=
  ∃ state, l'.calls i = some { c with state := state } ∧
    CallState.Evolves released c.state state

/-- A new call changes no other. -/
theorem acquire_calls (hi : i ≠ l.sched.nextSeq) (job : Job) (waitS : Option ℚ) :
    (l.acquire cfg job waitS).calls i = l.calls i := by
  have hentered : ∀ w, (l.entered cfg job w).calls i = l.calls i := fun w =>
    (setCall_calls ..).trans (if_neg hi)
  have hacquires := @acquires cfg l job waitS
  generalize l.acquire cfg job waitS = l' at hacquires
  cases hacquires with
  | refused => rfl
  | granted | interrupted => exact (setCall_calls ..).trans ((if_neg hi).trans (hentered _))
  | waits => exact hentered _

/-- A new call waits, or it has a lease that nobody released. -/
theorem acquire_newCall {job : Job} {waitS : Option ℚ} {p : Scheduler × Waiter}
    (hacq : l.sched.acquire cfg job l.now = .ok p) :
    ∃ c, (l.acquire cfg job waitS).calls l.sched.nextSeq = some c ∧
      ∀ worker waited, c.state ≠ .leased worker waited true := by
  have hacquires := @acquires cfg l job waitS
  generalize l.acquire cfg job waitS = l' at hacquires
  cases hacquires with
  | refused e herror =>
    rw [herror] at hacq
    cases hacq
  | granted | interrupted =>
    refine ⟨_, (setCall_calls ..).trans (if_pos rfl), fun _ _ h => ?_⟩
    cases h
  | waits =>
    refine ⟨_, (waits_entered l job _).1, fun _ _ h => ?_⟩
    cases h

/-- Call `i` is the same call, in a state that the step `a` makes of its old state. -/
def CallTakes (l l' : Loop) (i : Nat) (c : Call) (a : Action) : Prop :=
  ∃ state, l'.calls i = some { c with state := state } ∧ c.Takes l i a state

theorem CallTakes.unchanged {a : Action} (ha : ¬ a.Touches i) (hc : l'.calls i = some c) :
    CallTakes l l' i c a :=
  ⟨c.state, hc, Call.Takes.same a ha⟩

/-- A step that sets call `j` is a step of call `i` when it is one of `j`. -/
theorem CallTakes.setCall {a : Action} {m : Loop} (hd : l.calls j = some d)
    (hc : l.calls i = some c) (hcalls : m.calls = l.calls) {state : CallState}
    (ha : a.Touches i → i = j) (hstate : d.Takes l j a state) :
    CallTakes l (m.setCall j { d with state := state }) i c a := by
  by_cases hij : i = j
  · subst hij
    rw [hd] at hc
    cases hc
    exact ⟨state, by rw [setCall_calls, if_pos rfl], hstate⟩
  · refine CallTakes.unchanged (mt ha hij) ?_
    rw [setCall_calls, if_neg hij, hcalls]
    exact hc

/-- The `except` branch raises what is left of the future. -/
theorem giveUp_state (hfiled : l.Filed) (hd : l.calls i = some d) (waited : ℚ) :
    CallState.raised (l.sched.giveUp cfg d.waiter).2 =
      CallState.ending waited true (l.sched.futures i) := by
  unfold Scheduler.giveUp
  simp only [Scheduler.forget_futures, hfiled i d hd]
  cases l.sched.futures i <;> rfl

/-- A call resumes with what its future and its interruption make of it. -/
theorem resume_takes (hfiled : l.Filed) {expired cancelled : Bool} (hd : l.calls j = some d)
    (hstate : d.state = .waiting expired cancelled)
    (h : l.resume cfg j d (expired || cancelled) = some l') (hc : l.calls i = some c) :
    CallTakes l l' i c (.resume j) := by
  have htakes : l.sched.futures j ≠ .pending → d.Takes l j (.resume j)
      (CallState.ending (l.now - d.waiter.enqueued) (expired || cancelled)
        (l.sched.futures j)) := Call.Takes.ends hstate
  generalize (expired || cancelled) = interrupted at h htakes
  have hmine : (Action.resume j).Touches i → i = j := Eq.symm
  have hgiveUp : l.giveUp cfg j d = l' →
      CallState.ending (l.now - d.waiter.enqueued) interrupted (l.sched.futures j) =
        CallState.ending (l.now - d.waiter.enqueued) true (l.sched.futures j) →
      l.sched.futures j ≠ .pending → CallTakes l l' i c (.resume j) := by
    intro hl' hending hdone
    have htakes := htakes hdone
    rw [hending, ← @giveUp_state cfg _ _ _ hfiled hd] at htakes
    rw [← hl']
    exact CallTakes.setCall (m := { l with sched := _, returned := _ }) hd hc rfl hmine htakes
  cases hf : l.sched.futures j with
  | pending => cases interrupted <;> simp [Loop.resume, hf] at h
  | result worker =>
    cases interrupted with
    | true =>
      simp only [Loop.resume, hf, Option.some.injEq] at h
      exact hgiveUp h rfl (by simp [hf])
    | false =>
      simp only [Loop.resume, hf, Option.some.injEq] at h
      rw [hf] at htakes
      rw [← h]
      exact CallTakes.setCall hd hc rfl hmine (htakes (by simp))
  | exception e =>
    cases interrupted with
    | true =>
      simp only [Loop.resume, hf, Option.some.injEq] at h
      exact hgiveUp h rfl (by simp [hf])
    | false =>
      simp only [Loop.resume, hf, Option.some.injEq] at h
      rw [hf] at htakes
      rw [← h]
      exact CallTakes.setCall hd hc rfl hmine (htakes (by simp))
  | cancelled =>
    have hresume : l.giveUp cfg j d = l' := by
      cases interrupted <;> simpa only [Loop.resume, hf, Option.some.injEq] using h
    exact hgiveUp hresume (by rw [hf]; rfl) (by simp [hf])

/-- What one step of the event loop makes of every call. -/
theorem next_takes (h : l.Coherent) {a : Action} (hn : l.next cfg a = some l')
    (hc : l.calls i = some c) : CallTakes l l' i c a := by
  cases a with
  | tick seconds =>
    simp only [next, Option.ite_none_right_eq_some, Option.some.injEq] at hn
    obtain ⟨-, rfl⟩ := hn
    exact CallTakes.unchanged id hc
  | acquire job waitS =>
    cases hn
    refine CallTakes.unchanged id ?_
    rw [acquire_calls (Nat.ne_of_lt (h.seq_lt hc))]
    exact hc
  | timeout j =>
    simp only [next] at hn
    split at hn <;> try cases hn
    rename_i d hd
    split at hn <;> try cases hn
    rename_i cancelled hstate
    split at hn <;> cases hn
    rename_i hlate
    exact CallTakes.setCall (m := { l with sched := _ }) hd hc rfl
      Eq.symm (Call.Takes.expires hstate hlate)
  | cancel j =>
    simp only [next] at hn
    split at hn <;> try cases hn
    rename_i d hd
    split at hn <;> cases hn
    rename_i expired cancelled hstate
    exact CallTakes.setCall (m := { l with sched := _ }) hd hc rfl
      Eq.symm (Call.Takes.cancels hstate)
  | resume j =>
    simp only [next] at hn
    split at hn <;> try cases hn
    rename_i d hd
    split at hn <;> try cases hn
    rename_i expired cancelled hstate
    exact resume_takes h.filed hd hstate hn hc
  | release j =>
    simp only [next] at hn
    split at hn <;> try cases hn
    rename_i d hd
    split at hn <;> cases hn
    · rename_i worker waited hstate
      exact CallTakes.setCall (m := { l with sched := _, returned := _ }) hd hc rfl
        False.elim (Call.Takes.releases hstate)
    · exact CallTakes.unchanged id hc
  | drain =>
    cases hn
    exact CallTakes.unchanged id hc

/-- One step of the event loop evolves every call, and it releases no lease
but the one it names. -/
theorem next_evolves (h : l.Coherent) {a : Action} (hn : l.next cfg a = some l')
    (hc : l.calls i = some c) : CallEvolves (a = .release i) l' i c := by
  obtain ⟨state, hcall, htakes⟩ := next_takes h hn hc
  exact ⟨state, hcall, htakes.evolves⟩

end Loop

end OpendssGateway
