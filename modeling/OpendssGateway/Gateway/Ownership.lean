import OpendssGateway.Gateway.StreamCharge

/-!
# Whose call of `acquire` it is

Every call of the gateway that entered the queue has the number of its
waiter, and no other call has it.  A call releases the lease of its own
number only, so what another call does to a number is at most what the
event loop does to it.

`Move` is one step of the gateway as the requests see it: at most one of
them moves, and the event loop takes at most one step.  `Numbered` is the
invariant, and `next_move` connects the two.
-/

namespace OpendssGateway

/-- At most one step of the event loop, which releases at most the lease `mine`. -/
def LoopStep (cfg : SchedulerConfig) (l l' : Loop) (mine : Option Nat) : Prop :=
  l' = l ∨ ∃ a, l.next cfg a = some l' ∧ ∀ i, a = .release i → mine = some i

namespace LoopStep

variable {cfg : SchedulerConfig} {l l' : Loop} {mine : Option Nat} {i : Nat} {c : Call}

theorem refl : LoopStep cfg l l mine :=
  Or.inl rfl

theorem reachable (h : LoopStep cfg l l' mine) (hr : (Loop.machine cfg).Reachable l) :
    (Loop.machine cfg).Reachable l' := by
  rcases h with rfl | ⟨a, hn, -⟩
  · exact hr
  · exact Loop.reachable_next cfg hr hn

/-- A call evolves, and its lease is released only by the call that has its number. -/
theorem evolves (h : LoopStep cfg l l' mine) (hc : l.Coherent) (hcall : l.calls i = some c) :
    Loop.CallEvolves (mine = some i) l' i c := by
  rcases h with rfl | ⟨a, hn, hmine⟩
  · exact ⟨c.state, hcall, CallState.Evolves.same _⟩
  · obtain ⟨state, hcall', hev⟩ := Loop.next_evolves hc hn hcall
    refine ⟨state, hcall', ?_⟩
    generalize c.state = old at hev
    cases hev with
    | same => exact CallState.Evolves.same _
    | interrupted he hx => exact CallState.Evolves.interrupted he hx
    | leased => exact CallState.Evolves.leased ..
    | raised => exact CallState.Evolves.raised ..
    | released _ _ hrel => exact CallState.Evolves.released _ _ (hmine i hrel)

/-- The calls stay filed. -/
theorem filed (h : LoopStep cfg l l' mine) (hc : l.Coherent) (hfiled : ∃ c, l.calls i = some c) :
    ∃ c, l'.calls i = some c := by
  obtain ⟨c, hcall⟩ := hfiled
  obtain ⟨state, hcall', -⟩ := h.evolves hc hcall
  exact ⟨_, hcall'⟩

/-- The step `a`, when the state allows it. -/
theorem of_getD {a : Action} (hmine : ∀ i, a = .release i → mine = some i) :
    LoopStep cfg l ((l.next cfg a).getD l) mine := by
  cases hn : l.next cfg a with
  | none => exact Or.inl rfl
  | some m => exact Or.inr ⟨a, hn, hmine⟩

theorem acquire (job : Job) (waitS : Option ℚ) :
    LoopStep cfg l (l.acquire cfg job waitS) mine :=
  Or.inr ⟨.acquire job waitS, rfl, by simp⟩

end LoopStep

/-! ## The steps of a stream call -/

/-- The number of the call of `acquire` that the task runs. -/
def AcquireTask.number : AcquireTask → Option Nat
  | .entered i => some i
  | _ => none

/-- A task that has a lease ran the call of its number. -/
theorem task_of_lease {t : AcquireTask} {l : Loop} {lease : LeaseVar}
    (h : t.result l = some (.lease lease)) : t = .entered lease.i ∧
      ∃ c released, l.calls lease.i = some c ∧
        c.state = .leased lease.worker lease.waited released := by
  unfold AcquireTask.result at h
  split at h
  · cases h
  · cases h
  · cases h
  · cases h
  · rename_i i
    split at h <;> cases h
    rename_i worker waited released hstate
    obtain ⟨c, hc, hs⟩ := Option.map_eq_some_iff.1 hstate
    exact ⟨rfl, c, released, hc, hs⟩

/-- A task raises what its call raised. -/
theorem raised_of_result {l : Loop} {i : Nat} {c : Call} {e : AcquireError}
    (hcall : l.calls i = some c) (h : (AcquireTask.entered i).result l = some (.raised e)) :
    c.state = .raised e := by
  unfold AcquireTask.result at h
  dsimp only at h
  rw [hcall, Option.map_some] at h
  split at h <;> cases h
  rename_i hstate
  exact Option.some.inj hstate

/-- The lease of the generator is the one of its task. -/
def LeaseOfTask (g : Gen) : Prop :=
  ∀ lease, g.lease = some lease →
    g.task = .entered lease.i ∧ g.point ≠ .unstarted ∧ g.point ≠ .opened

/-- A number after a step: the same, none, or a fresh one. -/
def NextNumber (l l' : Loop) (number number' : Option Nat) : Prop :=
  number' = number ∨ number' = none ∨
    number' = some l.sched.nextSeq ∧ ∃ c, l'.calls l.sched.nextSeq = some c

namespace Stream

variable {cfg : SchedulerConfig} {call : StreamCall} {s s' : Stream}

/-- What a step of a stream call does to the event loop and to its number. -/
structure Turn (cfg : SchedulerConfig) (s s' : Stream) : Prop where
  loop : LoopStep cfg s.loop s'.loop (s.gen.lease.map LeaseVar.i)
  number : NextNumber s.loop s'.loop s.gen.task.number s'.gen.task.number
  leased : LeaseOfTask s.gen → LeaseOfTask s'.gen

/-- A step that changes neither the task nor the lease. -/
theorem Turn.of_same (hloop : LoopStep cfg s.loop s'.loop (s.gen.lease.map LeaseVar.i))
    (htask : s'.gen.task = s.gen.task) (hlease : s'.gen.lease = s.gen.lease)
    (hpoint : s'.gen.point ≠ .unstarted ∧ s'.gen.point ≠ .opened) : Turn cfg s s' where
  loop := hloop
  number := Or.inl (by rw [htask])
  leased := by
    intro h lease hl
    rw [hlease] at hl
    rw [htask]
    exact ⟨(h lease hl).1, hpoint⟩

theorem turn_moveTo {point : Point} (hpoint : point ≠ .unstarted ∧ point ≠ .opened) :
    Turn cfg s (s.moveTo point) :=
  Turn.of_same LoopStep.refl rfl rfl hpoint

theorem turn_yield {item : Item} {point : Point}
    (hpoint : point ≠ .unstarted ∧ point ≠ .opened) : Turn cfg s (s.yield item point) :=
  Turn.of_same LoopStep.refl rfl rfl hpoint

theorem releaseLease_loopStep (s : Stream) :
    LoopStep cfg s.loop (s.releaseLease cfg).loop (s.gen.lease.map LeaseVar.i) := by
  unfold releaseLease
  cases s.gen.lease with
  | none => exact LoopStep.refl
  | some lease =>
    refine LoopStep.of_getD fun i hi => ?_
    cases hi
    rfl

theorem turn_settle (outcome : Outcome) : Turn cfg s (s.settle cfg call outcome) := by
  have hloop := @releaseLease_loopStep cfg s
  obtain ⟨l, hrelease⟩ := @releaseLease_eq cfg s
  rw [hrelease] at hloop
  unfold settle
  rw [hrelease]
  dsimp only
  split
  · split
    · exact Turn.of_same hloop rfl rfl (by simp [moveTo])
    · exact Turn.of_same hloop rfl rfl (by simp [moveTo])
  · exact Turn.of_same hloop rfl rfl (by simp [moveTo])

theorem turn_finish (outcome : Outcome) : Turn cfg s (s.finish cfg call outcome) := by
  unfold finish
  split
  · exact turn_moveTo (by simp)
  · exact turn_settle outcome

theorem turn_setStatus {status : String} (h : Turn cfg (s.setStatus status) s') : Turn cfg s s' :=
  ⟨h.loop, h.number, h.leased⟩

theorem turn_cancelTask : Turn cfg s (s.cancelTask cfg) := by
  unfold cancelTask
  split
  · rename_i cancelRequested htask
    refine ⟨LoopStep.refl, Or.inl (by rw [htask]; rfl), fun h lease hl => ?_⟩
    have hentered := (h lease hl).1
    rw [htask] at hentered
    cases hentered
  · exact ⟨LoopStep.of_getD (by simp), Or.inl rfl, id⟩
  · exact ⟨LoopStep.refl, Or.inl rfl, id⟩

/-- Leaving after `acquire.cancel()`. -/
theorem turn_cancelTask_moveTo {point : Point}
    (hpoint : point ≠ .unstarted ∧ point ≠ .opened) :
    Turn cfg s ((s.cancelTask cfg).moveTo point) where
  loop := turn_cancelTask.loop
  number := turn_cancelTask.number
  leased := fun h => (@turn_moveTo cfg _ _ hpoint).leased (turn_cancelTask.leased h)

theorem turn_keepTail {tail : Bytes} {item : Item} :
    Turn cfg s (({ s with gen := { s.gen with tail := tail } } : Stream).yield item .chunk) :=
  Turn.of_same LoopStep.refl rfl rfl
    (show Point.chunk ≠ .unstarted ∧ Point.chunk ≠ .opened by simp)

theorem turn_worker {e : Event} (h : WorkerStep cfg call s e s') : Turn cfg s s' := by
  cases h with
  | response _ hnew =>
    refine Turn.of_same LoopStep.refl rfl rfl ?_
    rcases hnew with rfl | rfl <;> exact ⟨by simp [moveTo], by simp [moveTo]⟩
  | httpError => exact turn_setStatus (turn_yield (by simp))
  | relay => exact turn_setStatus (turn_yield (by simp))
  | chunk => exact turn_keepTail
  | finish => exact turn_finish _
  | settle => exact turn_settle _
  | lost => exact turn_moveTo (by simp)

theorem turn_step {e : Event} (hs : s.step cfg call e = some s') : Turn cfg s s' := by
  cases e with
  | next =>
    simp only [step] at hs
    split at hs <;> cases hs
    · rename_i hpoint
      refine ⟨LoopStep.refl, Or.inl rfl, fun h lease hl => ?_⟩
      exact absurd hpoint (h lease hl).2.1
    · rename_i hpoint
      refine ⟨LoopStep.refl, Or.inr (Or.inl rfl), fun h lease hl => ?_⟩
      exact absurd hpoint (h lease hl).2.2
    · exact turn_moveTo (by simp)
    · exact turn_moveTo (by simp)
    · exact turn_finish _
    · exact turn_moveTo (by simp)
    · exact turn_finish _
  | close =>
    simp only [step] at hs
    split at hs <;> cases hs
    all_goals first
      | exact turn_moveTo (by simp)
      | exact turn_finish _
  | cancel =>
    simp only [step] at hs
    split at hs <;> cases hs
    · exact turn_cancelTask_moveTo (by simp)
    · exact turn_setStatus (turn_finish _)
    · exact turn_setStatus (turn_finish _)
    · exact turn_setStatus (turn_finish _)
    · exact turn_moveTo (by simp)
  | wake =>
    simp only [step, Option.ite_none_right_eq_some] at hs
    obtain ⟨-, hs⟩ := hs
    split at hs <;> cases hs
    · exact turn_yield (by simp)
    · rename_i lease hresult
      refine ⟨LoopStep.refl, Or.inl rfl, fun _ lease' hl => ?_⟩
      cases hl
      exact ⟨(task_of_lease hresult).1,
        show Point.sending ≠ .unstarted ∧ Point.sending ≠ .opened by simp⟩
    · exact turn_yield (by simp)
    · exact turn_cancelTask_moveTo (by simp)
  | response | httpError | otherError | body | chunk | eof | closed | closeFailed =>
    exact turn_worker (worker_step (by simp) hs)

theorem turn_startTask (hs : s.startTask cfg call = some s') :
    Turn cfg s s' := by
  -- a task that is still to start has no lease
  have hnone : ∀ {b}, s.gen.task = .created b → LeaseOfTask s.gen → s.gen.lease = none := by
    intro b htask h
    cases hlease : s.gen.lease with
    | none => rfl
    | some lease =>
      have hentered := (h lease hlease).1
      rw [htask] at hentered
      cases hentered
  have hleased : ∀ {b} {t : AcquireTask}, s.gen.task = .created b → LeaseOfTask s.gen →
      LeaseOfTask { s.gen with task := t } := by
    intro b t htask h lease hl
    have hl : s.gen.lease = some lease := hl
    rw [hnone htask h] at hl
    cases hl
  unfold startTask at hs
  split at hs
  · rename_i htask
    cases hs
    exact ⟨LoopStep.refl, Or.inr (Or.inl rfl), hleased htask⟩
  · rename_i htask
    split at hs <;> cases hs
    · exact ⟨LoopStep.refl, Or.inr (Or.inl rfl), hleased htask⟩
    · rename_i p hacq
      obtain ⟨c, hcall, -⟩ := @Loop.acquire_newCall _ _ _ (some call.waitS) _ hacq
      exact ⟨LoopStep.acquire _ _, Or.inr (Or.inr ⟨rfl, c, hcall⟩), hleased htask⟩
  · cases hs

/-- A step of a stream call that is no step of the rest of the program. -/
theorem turn_next {a : StreamAction} (ha : ∀ b, a ≠ .env b)
    (hs : s.next cfg call a = some s') : Turn cfg s s' := by
  cases a with
  | env b => exact absurd rfl (ha b)
  | start => exact turn_startTask hs
  | cancelTask =>
    cases hs
    exact turn_cancelTask
  | gen e => exact turn_step hs

end Stream

/-! ## The steps of the gateway -/

/-- The number of the call of `acquire` that a call of the gateway waits for or holds. -/
def Progress.number : Progress → Option Nat
  | .acquiring i => some i
  | .forwarding lease => some lease.i
  | .streaming gen => gen.task.number
  | _ => none

def Progress.Leased : Progress → Prop
  | .streaming gen => LeaseOfTask gen
  | _ => True

/-- The call that a step is one of. -/
def GatewayAction.target : GatewayAction → Option Nat
  | .body n _ | .acquired n | .answer n _ _ | .stream n _ _ => some n
  | _ => none

namespace Gateway

variable {cfg : GatewayConfig} {g g' : Gateway} {a : GatewayAction} {k n i : Nat}

def numberOf (g : Gateway) (k : Nat) : Option Nat :=
  g.requests[k]?.bind fun r => r.progress.number

/-- One step of the gateway, as the requests see it. -/
inductive Move (cfg : GatewayConfig) (g : Gateway) (a : GatewayAction) (g' : Gateway) : Prop
  | still : a.target = none → g'.requests = g.requests →
      LoopStep cfg.scheduler g.loop g'.loop none → Move cfg g a g'
  | arrives (r : Request) (stream : Bool) : a.target = none → r.progress = .reading stream →
      g'.requests = g.requests ++ [r] → g'.loop = g.loop → Move cfg g a g'
  | moves (k : Nat) (r : Request) (progress : Progress) : a.target = some k →
      g.requests[k]? = some r →
      g'.requests = g.requests.set k { r with progress := progress } →
      LoopStep cfg.scheduler g.loop g'.loop r.progress.number →
      NextNumber g.loop g'.loop r.progress.number progress.number → progress.Leased →
      Move cfg g a g'

/-- No two calls have the same number, and a stream has the lease of its number. -/
structure Numbered (cfg : GatewayConfig) (g : Gateway) : Prop where
  reachable : (Loop.machine cfg.scheduler).Reachable g.loop
  leased : ∀ (k : Nat) (r : Request), g.requests[k]? = some r → r.progress.Leased
  filed : ∀ k i, g.numberOf k = some i → ∃ c, g.loop.calls i = some c
  unique : ∀ k k' i, g.numberOf k = some i → g.numberOf k' = some i → k = k'

theorem arrive_move (caller : Caller) (stream : Bool) (path requestId : String) :
    Move cfg g (.arrive caller stream path requestId)
      (g.arrive caller stream path requestId) := by
  unfold arrive
  dsimp only
  split
  · split
    · exact Move.still rfl rfl LoopStep.refl
    · exact Move.arrives _ stream rfl rfl rfl rfl
  · exact Move.arrives _ stream rfl rfl rfl rfl

theorem bodyRead_move {r : Request} {stream : Bool} (hr : g.requests[k]? = some r)
    (body : BodyRead) :
    Move cfg g (.body k body) (g.bodyRead cfg k r stream) := by
  unfold bodyRead
  split
  · refine Move.moves k r (.streaming Stream.initGen) rfl hr rfl LoopStep.refl ?_ ?_
    · exact Or.inr (Or.inl rfl)
    · intro lease hl
      cases hl
  · split
    · exact Move.moves k r (.answered 503) rfl hr rfl LoopStep.refl (Or.inr (Or.inl rfl)) trivial
    · rename_i p hacq
      obtain ⟨c, hcall, -⟩ := @Loop.acquire_newCall _ _ _ none _ hacq
      exact Move.moves k r (.acquiring g.loop.sched.nextSeq) rfl hr rfl (LoopStep.acquire _ _)
        (Or.inr (Or.inr ⟨rfl, c, hcall⟩)) trivial

theorem stream_move (h : Numbered cfg g) {b : StreamAction} {fault : Option Statement}
    (hn : g.next cfg (.stream k b fault) = some g') : Move cfg g (.stream k b fault) g' := by
  obtain ⟨r, gen, s, hr, hprogress, hs, rfl⟩ := next_stream hn
  obtain ⟨hrequests, hloop, -⟩ := @streamStep_spec g k r gen fault s
  have hb : ∀ a, b ≠ .env a := by
    rintro a rfl
    simp [Gateway.next] at hn
  have hturn := Stream.turn_next hb hs
  have hleased := h.leased k r hr
  rw [hprogress] at hleased
  refine Move.moves k r (.streaming s.gen) rfl hr hrequests ?_ ?_ (hturn.leased hleased)
  · rw [hloop, hprogress]
    have hstep := hturn.loop
    cases hlease : gen.lease with
    | none =>
      simp only [hlease, Option.map_none] at hstep
      rcases hstep with hsame | ⟨a, ha, hmine⟩
      · exact Or.inl hsame
      · exact Or.inr ⟨a, ha, fun i hi => by cases hmine i hi⟩
    | some lease =>
      simp only [hlease, Option.map_some] at hstep
      show LoopStep _ _ _ gen.task.number
      rw [(hleased lease hlease).1]
      exact hstep
  · rw [hloop, hprogress]
    exact hturn.number

theorem answered_move {r : Request} {lease : LeaseVar} {fault : Option Statement}
    (hr : g.requests[k]? = some r) (hprogress : r.progress = .forwarding lease)
    (answer : EngineAnswer) :
    Move cfg g (.answer k answer fault) (g.answered cfg k r lease fault answer) := by
  have hsettle : ∀ seconds status progress, Progress.number progress = none →
      progress.Leased →
      Move cfg g (.answer k answer fault)
        (g.settle cfg k r lease seconds status fault progress) := by
    intro seconds status progress hnone hleased
    refine Move.moves k r progress rfl hr rfl ?_ (Or.inr (Or.inl hnone)) hleased
    refine LoopStep.of_getD fun i hi => ?_
    cases hi
    rw [hprogress]
    rfl
  cases answer with
  | response statusCode seconds =>
    cases seconds with
    | some seconds => exact hsettle _ _ _ rfl trivial
    | none => exact hsettle _ _ _ rfl trivial
  | httpError => exact hsettle _ _ _ rfl trivial
  | otherError => exact hsettle _ _ _ rfl trivial

/-- Every step of the gateway is a move. -/
theorem next_move (h : Numbered cfg g) (hn : g.next cfg a = some g') : Move cfg g a g' := by
  cases a with
  | newDay today =>
    cases hn
    exact Move.still rfl rfl LoopStep.refl
  | env b =>
    simp only [Gateway.next] at hn
    split at hn
    · cases hn
    · cases hn
    · rename_i hrelease
      obtain ⟨l, hl, rfl⟩ := Option.map_eq_some_iff.1 hn
      exact Move.still rfl rfl (Or.inr ⟨b, hl, fun i hi => absurd hi (hrelease i)⟩)
  | arrive caller stream path requestId =>
    cases hn
    exact arrive_move caller stream path requestId
  | body k body =>
    simp only [Gateway.next] at hn
    split at hn
    · rename_i r hr
      split at hn <;> cases hn
      · exact bodyRead_move hr _
      · exact Move.moves k r (.answered 413) rfl hr rfl LoopStep.refl (Or.inr (Or.inl rfl)) trivial
      · exact Move.moves k r .raised rfl hr rfl LoopStep.refl (Or.inr (Or.inl rfl)) trivial
    · cases hn
  | acquired k =>
    simp only [Gateway.next] at hn
    split at hn
    · rename_i r hr
      split at hn
      · rename_i i hprogress
        split at hn <;> cases hn
        · rename_i lease hresult
          have hi := (task_of_lease hresult).1
          cases hi
          refine Move.moves k r (.forwarding lease) rfl hr rfl LoopStep.refl ?_ trivial
          rw [hprogress]
          exact Or.inl rfl
        · exact Move.moves k r (.answered 503) rfl hr rfl LoopStep.refl (Or.inr (Or.inl rfl))
            trivial
      · cases hn
    · cases hn
  | answer k answer fault =>
    simp only [Gateway.next] at hn
    split at hn
    · rename_i r hr
      split at hn <;> cases hn
      rename_i lease hprogress
      exact answered_move hr hprogress answer
    · cases hn
  | stream k b fault => exact stream_move h hn

theorem numberOf_congr (h : g'.requests = g.requests) : g'.numberOf k = g.numberOf k := by
  unfold numberOf
  rw [h]

theorem numberOf_append {r : Request} (hr : r.progress.number = none)
    (h : g'.requests = g.requests ++ [r]) : g'.numberOf k = g.numberOf k := by
  unfold numberOf
  rw [h]
  by_cases hk : k < g.requests.length
  · rw [List.getElem?_append_left hk]
  · rw [List.getElem?_eq_none (Nat.le_of_not_lt hk)]
    by_cases hlast : k = g.requests.length
    · subst hlast
      rw [List.getElem?_concat_length]
      exact hr
    · rw [List.getElem?_eq_none (by simp only [List.length_append, List.length_singleton]; omega)]

theorem requests_set {r r' : Request} (hr : g.requests[n]? = some r)
    (h : g'.requests = g.requests.set n r') :
    g'.requests[k]? = if k = n then some r' else g.requests[k]? := by
  have hn : n < g.requests.length := (List.getElem?_eq_some_iff.1 hr).1
  rw [h]
  split
  · rename_i hkn
    subst hkn
    exact List.getElem?_set_self hn
  · rename_i hkn
    exact List.getElem?_set_ne (Ne.symm hkn)

theorem numberOf_set {r : Request} {progress : Progress} (hr : g.requests[n]? = some r)
    (h : g'.requests = g.requests.set n { r with progress := progress }) :
    g'.numberOf k = if k = n then progress.number else g.numberOf k := by
  unfold numberOf
  rw [requests_set hr h]
  split <;> rfl

theorem numberOf_of_get {r : Request} (hr : g.requests[k]? = some r) :
    g.numberOf k = r.progress.number := by
  unfold numberOf
  rw [hr]
  rfl

theorem numbered_init (today : Date) : Numbered cfg (init cfg today) where
  reachable := Transition.Machine.ReachableBy.init
  leased := fun k r hr => by cases hr
  filed := fun k i hi => by cases hi
  unique := fun k k' i hi => by cases hi

/-- A fresh number is nobody's. -/
theorem Numbered.fresh (h : Numbered cfg g) (k : Nat) :
    g.numberOf k ≠ some g.loop.sched.nextSeq := by
  intro hk
  obtain ⟨c, hcall⟩ := h.filed k _ hk
  rw [(Loop.reachable_coherent h.reachable).freshCall _ (Nat.le_refl _)] at hcall
  cases hcall

/-- A step that gives nobody a number. -/
theorem Numbered.same (h : Numbered cfg g) {mine : Option Nat}
    (hloop : LoopStep cfg.scheduler g.loop g'.loop mine)
    (hnumbers : ∀ k, g'.numberOf k = g.numberOf k)
    (hleased : ∀ (k : Nat) (r : Request), g'.requests[k]? = some r → r.progress.Leased) :
    Numbered cfg g' where
  reachable := hloop.reachable h.reachable
  leased := hleased
  filed := by
    intro k i hi
    rw [hnumbers] at hi
    exact hloop.filed (Loop.reachable_coherent h.reachable) (h.filed k i hi)
  unique := by
    intro k k' i hi hi'
    rw [hnumbers] at hi hi'
    exact h.unique k k' i hi hi'

theorem Numbered.arrives (h : Numbered cfg g) {r : Request} {stream : Bool}
    (hprogress : r.progress = .reading stream) (hrequests : g'.requests = g.requests ++ [r])
    (hloop : g'.loop = g.loop) : Numbered cfg g' := by
  have hstep : LoopStep cfg.scheduler g.loop g'.loop none := Or.inl hloop
  refine h.same hstep (fun k => numberOf_append ?_ hrequests) ?_
  · rw [hprogress]
    rfl
  · intro k r' hr'
    rw [hrequests] at hr'
    by_cases hk : k < g.requests.length
    · rw [List.getElem?_append_left hk] at hr'
      exact h.leased k r' hr'
    · rw [List.getElem?_append_right (Nat.le_of_not_lt hk)] at hr'
      have hmem := List.mem_of_getElem? hr'
      rw [List.mem_singleton] at hmem
      rw [hmem, hprogress]
      exact True.intro

/-- The number of the call that moves, and the numbers of the others. -/
theorem Numbered.moves (h : Numbered cfg g) {r : Request} {progress : Progress}
    (hr : g.requests[n]? = some r)
    (hrequests : g'.requests = g.requests.set n { r with progress := progress })
    (hloop : LoopStep cfg.scheduler g.loop g'.loop r.progress.number)
    (hnumber : NextNumber g.loop g'.loop r.progress.number progress.number)
    (hleased : progress.Leased) : Numbered cfg g' := by
  have hc := Loop.reachable_coherent h.reachable
  have hwas : g.numberOf n = r.progress.number := numberOf_of_get hr
  have hmine : ∀ {i}, g'.numberOf n = some i → g.numberOf n = some i ∨
      i = g.loop.sched.nextSeq ∧ ∃ c, g'.loop.calls i = some c := by
    intro i hi
    rw [numberOf_set hr hrequests, if_pos rfl] at hi
    rcases hnumber with hsame | hnone | ⟨hfresh, hcall⟩
    · rw [hwas, ← hsame]
      exact Or.inl hi
    · rw [hnone] at hi
      cases hi
    · rw [hfresh] at hi
      cases hi
      exact Or.inr ⟨rfl, hcall⟩
  have hother : ∀ {k}, k ≠ n → g'.numberOf k = g.numberOf k := by
    intro k hk
    rw [numberOf_set hr hrequests, if_neg hk]
  refine ⟨hloop.reachable h.reachable, fun k r' hr' => ?_, fun k i hi => ?_,
    fun k k' i hi hi' => ?_⟩
  · rw [requests_set hr hrequests] at hr'
    split at hr'
    · cases hr'
      exact hleased
    · exact h.leased k r' hr'
  · by_cases hk : k = n
    · subst hk
      rcases hmine hi with hold | ⟨-, hcall⟩
      · exact hloop.filed hc (h.filed k i hold)
      · exact hcall
    · rw [hother hk] at hi
      exact hloop.filed hc (h.filed k i hi)
  · by_cases hk : k = n
    · by_cases hk' : k' = n
      · rw [hk, hk']
      · subst hk
        rw [hother hk'] at hi'
        rcases hmine hi with hold | ⟨rfl, -⟩
        · exact h.unique _ _ i hold hi'
        · exact absurd hi' (h.fresh k')
    · rw [hother hk] at hi
      by_cases hk' : k' = n
      · subst hk'
        rcases hmine hi' with hold | ⟨rfl, -⟩
        · exact h.unique _ _ i hi hold
        · exact absurd hi (h.fresh k)
      · rw [hother hk'] at hi'
        exact h.unique _ _ i hi hi'

theorem Numbered.move (h : Numbered cfg g) (hm : Move cfg g a g') : Numbered cfg g' := by
  cases hm with
  | still _ hrequests hloop =>
    exact h.same hloop (fun k => numberOf_congr hrequests) (by rw [hrequests]; exact h.leased)
  | arrives r stream _ hprogress hrequests hloop => exact h.arrives hprogress hrequests hloop
  | moves n r progress _ hr hrequests hloop hnumber hleased =>
    exact h.moves hr hrequests hloop hnumber hleased

/-- In every run no two calls of the gateway have the same number. -/
theorem reachable_numbered {today : Date} (h : (machine cfg today).Reachable g) :
    Numbered cfg g :=
  h.invariant (Numbered cfg) (numbered_init today) fun _ _ _ hI _ hn => hI.move (next_move hI hn)

/-- What a step of another call does to a call that has number `i`. -/
theorem Numbered.others (h : Numbered cfg g) (hm : Move cfg g a g') (ha : a.target ≠ some n)
    (hi : g.numberOf n = some i) {c : Call} (hcall : g.loop.calls i = some c) :
    Loop.CallEvolves False g'.loop i c := by
  have hc := Loop.reachable_coherent h.reachable
  have hnever : ∀ {mine}, LoopStep cfg.scheduler g.loop g'.loop mine → mine ≠ some i →
      Loop.CallEvolves False g'.loop i c := by
    intro mine hloop hmine
    obtain ⟨state, hcall', hev⟩ := hloop.evolves hc hcall
    refine ⟨state, hcall', ?_⟩
    rw [eq_false hmine] at hev
    exact hev
  cases hm with
  | still _ _ hloop => exact hnever hloop (by simp)
  | arrives _ _ _ _ _ hloop => exact ⟨c.state, by rw [hloop]; exact hcall, CallState.Evolves.same _⟩
  | moves k r progress htarget hr _ hloop =>
    refine hnever hloop fun hmine => ha ?_
    have hk : g.numberOf k = some i := (numberOf_of_get hr).trans hmine
    rw [htarget, h.unique k n i hk hi]

end Gateway

end OpendssGateway
