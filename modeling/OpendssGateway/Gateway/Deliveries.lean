import Mathlib.Data.List.Perm.Basic
import OpendssGateway.Gateway.Handlers

/-!
# What an acknowledged delivery stands for

`Booked` holds in every run: an event id in `stripe_events` is awaited by
exactly one handler, or was applied once, or `apply_event` raised on it.
Only the first delivery of an id gets that far, so an id whose handler
raised is never applied.

`Kept` is what the answers promise.  `kept_of_orderly` proves it for the
runs in which no fetch of a webhook fails at Stripe and no id is delivered
again while its handler awaits Stripe, or after its handler has raised.
`not_kept_of_redelivered` and `not_kept_of_stripeError` say that the other
steps do not keep it.
-/

namespace OpendssGateway

namespace Billing

/-- The events whose handlers await Stripe. -/
def State.pending (s : State) : List PyStr :=
  s.tasks.filterMap Task.eventId?

/-! ## Every recorded event -/

/-- A recorded event is awaited, applied or raised on, once. -/
structure Booked (s : State) : Prop where
  events : (s.pending ++ (s.applied ++ s.raised)).Perm s.consumed
  received : ∀ d ∈ s.answered, ∀ outcome, d.answer = .received outcome → d.event_id ∈ s.applied

theorem Booked.nodup {s : State} (h : Booked s) : (s.pending ++ (s.applied ++ s.raised)).Nodup :=
  h.events.nodup_iff.2 s.store.stripe_events.nodup

theorem Booked.applied_nodup {s : State} (h : Booked s) : s.applied.Nodup :=
  (List.nodup_append.1 (List.nodup_append.1 h.nodup).2.1).1

theorem Booked.not_applied_of_pending {s : State} (h : Booked s) {event_id : PyStr}
    (hpending : event_id ∈ s.pending) : event_id ∉ s.applied := by
  intro happlied
  have hdisjoint := (List.nodup_append.1 h.nodup).2.2
  exact hdisjoint event_id hpending event_id (List.mem_append_left _ happlied) rfl

theorem Booked.not_applied_of_raised {s : State} (h : Booked s) {event_id : PyStr}
    (hraised : event_id ∈ s.raised) : event_id ∉ s.applied := by
  intro happlied
  have hdisjoint := (List.nodup_append.1 (List.nodup_append.1 h.nodup).2.1).2.2
  exact hdisjoint event_id happlied event_id hraised rfl

theorem Booked.applied_of_consumed {s : State} (h : Booked s) {event_id : PyStr}
    (hconsumed : event_id ∈ s.consumed) (hpending : event_id ∉ s.pending)
    (hraised : event_id ∉ s.raised) : event_id ∈ s.applied := by
  have hmem := h.events.mem_iff.2 hconsumed
  simp only [List.mem_append] at hmem
  rcases hmem with hmem | hmem | hmem
  · exact absurd hmem hpending
  · exact hmem
  · exact absurd hmem hraised

/-- What holds of all answers holds of the earlier ones and of the new one. -/
theorem State.forall_answered {s : State} {event_id : PyStr} {answer : Answer}
    {P : Delivery → Prop} : (∀ d ∈ (s.answer event_id answer).answered, P d) ↔
      (∀ d ∈ s.answered, P d) ∧ P ⟨event_id, answer, s.consumed.contains event_id⟩ := by
  rw [State.answer, List.forall_mem_append, List.forall_mem_singleton]

theorem Booked.answer {s : State} (h : Booked s) (event_id : PyStr) {answer : Answer}
    (hnot : ∀ outcome, answer ≠ .received outcome) : Booked (s.answer event_id answer) where
  events := h.events
  received := State.forall_answered.2 ⟨h.received, fun outcome heq => absurd heq (hnot outcome)⟩

/-- A handler that holds an event applies it or raises on it. -/
theorem Booked.conclude {s : State} {event_id : PyStr} (result : Except FetchError PyStr)
    (hevents : (event_id :: (s.pending ++ (s.applied ++ s.raised))).Perm s.consumed)
    (hreceived : ∀ d ∈ s.answered, ∀ outcome, d.answer = .received outcome →
      d.event_id ∈ s.applied) : Booked (s.conclude event_id result) := by
  have hraise : (s.pending ++ (s.applied ++ (s.raised ++ [event_id]))).Perm s.consumed := by
    refine List.Perm.trans ?_ hevents
    rw [← List.append_assoc, ← List.append_assoc, List.append_assoc s.pending]
    exact List.perm_append_singleton ..
  have hraised : Booked { s with raised := s.raised ++ [event_id] } := ⟨hraise, hreceived⟩
  match result with
  | .error .stripeError => exact hraised.answer event_id nofun
  | .error (.other e) => exact hraised.answer event_id nofun
  | .ok outcome =>
    constructor
    · refine List.Perm.trans ?_ hraise
      show (s.pending ++ ((s.applied ++ [event_id]) ++ s.raised)).Perm _
      rw [List.append_assoc s.applied]
      exact ((List.perm_append_comm).append_left s.applied).append_left s.pending
    · rw [State.conclude]
      refine State.forall_answered.2 ⟨?_, ?_⟩
      · intro d hd outcome' hanswer
        exact List.mem_append_left _ (hreceived d hd outcome' hanswer)
      · intro _ _
        exact List.mem_append_right _ (List.mem_singleton.2 rfl)

/-- Steps that touch neither events nor webhook handlers. -/
theorem Booked.congr {s s' : State} (h : Booked s)
    (hevents : s'.store.stripe_events = s.store.stripe_events) (hpending : s'.pending = s.pending)
    (happlied : s'.applied = s.applied) (hraised : s'.raised = s.raised)
    (hanswered : s'.answered = s.answered) : Booked s' := by
  constructor
  · rw [State.consumed, hevents, hpending, happlied, hraised]
    exact h.events
  · rw [hanswered, happlied]
    exact h.received

/-! ## One delivery -/

/-- What a delivery of an event id does. -/
inductive Handled (s : State) (event_id : PyStr) : State → Prop
  | failed : Handled s event_id (s.answer event_id .failed)
  | anonymous : event_id = [] → Handled s event_id (s.answer event_id .duplicate)
  | duplicate : event_id ∈ s.consumed → Handled s event_id (s.answer event_id .duplicate)
  | suspended {store : Store} {checkout : Checkout} :
      store.stripe_events.rows.map StripeEvent.id = s.consumed ++ [event_id] →
      Handled s event_id { s with store, tasks := s.tasks ++ [.webhook event_id checkout] }
  | concluded {store : Store} (result : Except PyError PyStr) :
      store.stripe_events.rows.map StripeEvent.id = s.consumed ++ [event_id] →
      Handled s event_id ({ s with store }.conclude event_id (result.mapError .other))

theorem billing_webhook_handled {rt : Runtime} {event : Json} {event_id : PyStr}
    (hid : eventId rt event = .ok event_id) (s : State) (now : ℚ) :
    Handled s event_id (billing_webhook rt s now event) := by
  unfold billing_webhook
  rw [hid]
  dsimp only
  split
  · rename_i hempty
    exact Handled.anonymous hempty
  · split
    · exact Handled.failed
    · rename_i hrecord
      obtain ⟨kind, hrecord⟩ := recordEvent_eq_ok hrecord
      exact Handled.duplicate (Subscriptions.record_event_eq_false hrecord)
    · rename_i store hrecord
      obtain ⟨kind, hrecord⟩ := recordEvent_eq_ok hrecord
      have hevents := (Subscriptions.record_event_eq_true hrecord).2.2
      have happly := (apply_event_linked rt store now event).stripe_events
      split
      · rename_i applied checkout heq
        rw [heq] at happly
        exact Handled.suspended (by rw [happly]; exact hevents)
      · rename_i applied result heq
        rw [heq] at happly
        exact Handled.concluded result (by rw [happly]; exact hevents)

theorem Handled.booked {s s' : State} {event_id : PyStr} (h : Handled s event_id s')
    (hs : Booked s) : Booked s' := by
  cases h with
  | failed => exact hs.answer event_id nofun
  | anonymous _ => exact hs.answer event_id nofun
  | duplicate _ => exact hs.answer event_id nofun
  | @suspended store checkout hevents =>
    refine ⟨?_, hs.received⟩
    have hpending : ({ s with store, tasks := s.tasks ++ [.webhook event_id checkout] } :
        State).pending = s.pending ++ [event_id] := List.filterMap_append
    rw [State.consumed, hevents, hpending, List.append_assoc]
    refine List.Perm.trans ?_ (hs.events.append_right [event_id])
    rw [List.append_assoc]
    exact List.perm_append_comm.append_left s.pending
  | @concluded store result hevents =>
    apply Booked.conclude (s := { s with store })
    · rw [State.consumed, hevents]
      exact (List.Perm.cons event_id hs.events).trans (List.perm_append_singleton ..).symm
    · exact hs.received

/-! ## Every step -/

theorem pending_eraseIdx {s : State} {i : Nat} {task : Task} (h : s.tasks[i]? = some task) :
    (task.eventId?.toList ++ ({ s with tasks := s.tasks.eraseIdx i } : State).pending).Perm
      s.pending := by
  obtain ⟨hi, rfl⟩ := List.getElem?_eq_some_iff.1 h
  have hperm := (List.getElem_cons_eraseIdx_perm hi).filterMap Task.eventId?
  rw [List.filterMap_cons] at hperm
  cases hid : s.tasks[i].eventId? with
  | none => simpa [hid, State.pending] using hperm
  | some event_id => simpa [hid, State.pending] using hperm

theorem resumeTask_booked {rt : Runtime} {s : State} {now : ℚ}
    {fetched : Except FetchError Json} {task : Task}
    (hevents : (task.eventId?.toList ++ (s.pending ++ (s.applied ++ s.raised))).Perm s.consumed)
    (hreceived : ∀ d ∈ s.answered, ∀ outcome, d.answer = .received outcome →
      d.event_id ∈ s.applied) : Booked (resumeTask rt s now fetched task) := by
  cases task with
  | webhook event_id checkout =>
    have hstore := (finish_checkout_linked rt s.store now checkout fetched).stripe_events
    apply Booked.conclude
    · refine hevents.trans (List.Perm.of_eq ?_)
      exact congrArg (fun events => events.rows.map StripeEvent.id) hstore.symm
    · exact hreceived
  | session user_id =>
    obtain ⟨store, tasks, heq, hlinked, htasks⟩ := sessionFetched_eq rt s now user_id fetched
    have hs : Booked s := ⟨hevents, hreceived⟩
    rw [resumeTask, heq]
    refine hs.congr hlinked.stripe_events ?_ rfl rfl rfl
    rw [State.pending, List.filterMap_append, htasks, List.append_nil]
    rfl
  | success checkout =>
    have hs : Booked s := ⟨hevents, hreceived⟩
    exact hs.congr (finish_checkout_linked ..).stripe_events rfl rfl rfl rfl

theorem next_booked {rt : Runtime} {s s' : State} {a : Action} (hs : Booked s)
    (h : next rt s a = some s') : Booked s' := by
  cases a with
  | signIn now provider subject email name =>
    cases h
    exact hs.congr (Users.sign_in_keepsPlans ..).stripe_events rfl rfl rfl rfl
  | webhook now event =>
    cases h
    cases hid : eventId rt event with
    | error e =>
      rw [billing_webhook, hid]
      exact hs.answer [] nofun
    | ok event_id => exact (billing_webhook_handled hid s now).booked hs
  | successPage user_id =>
    obtain ⟨user, -, rfl⟩ := Option.map_eq_some_iff.1 h
    refine hs.congr rfl ?_ rfl rfl rfl
    simp [State.pending, Task.eventId?]
  | resume now i fetched =>
    obtain ⟨task, htask, rfl⟩ := Option.map_eq_some_iff.1 h
    apply resumeTask_booked
    · rw [← List.append_assoc]
      exact ((pending_eraseIdx htask).append_right _).trans hs.events
    · exact hs.received

theorem init_booked : Booked init where
  events := List.Perm.nil
  received _ hd := absurd hd List.not_mem_nil

/-! ## The promise of an answer -/

/-- An acknowledged event is applied, a deferred one can be delivered again, and none
is applied twice. -/
structure Kept (s : State) : Prop where
  acknowledged : ∀ d ∈ s.answered, d.event_id ≠ [] → d.answer.acknowledges = true →
    d.event_id ∈ s.applied
  deferred : ∀ d ∈ s.answered, d.answer = .deferred → d.consumed = false
  once : s.applied.Nodup

/-- Stripe does not fail a webhook's fetch.  It delivers an id again only when no
handler of it is suspended or has raised. -/
def Orderly (rt : Runtime) (s : State) : Action → Prop
  | .webhook _ event => ∀ event_id, eventId rt event = .ok event_id → event_id ≠ [] →
    event_id ∈ s.consumed → event_id ∉ s.pending ∧ event_id ∉ s.raised
  | .resume _ i fetched => ∀ task, s.tasks[i]? = some task → task.eventId? ≠ none →
    fetched ≠ .error .stripeError
  | _ => True

theorem Kept.congr {s s' : State} (h : Kept s) (hanswered : s'.answered = s.answered)
    (happlied : s'.applied = s.applied) : Kept s' := by
  constructor
  · rw [hanswered, happlied]
    exact h.acknowledged
  · rw [hanswered]
    exact h.deferred
  · rw [happlied]
    exact h.once

theorem Kept.answer {s : State} (h : Kept s) {event_id : PyStr} {answer : Answer}
    (hacknowledged : event_id ≠ [] → answer.acknowledges = true → event_id ∈ s.applied)
    (hdeferred : answer ≠ .deferred) : Kept (s.answer event_id answer) where
  acknowledged := State.forall_answered.2 ⟨h.acknowledged, hacknowledged⟩
  deferred := State.forall_answered.2 ⟨h.deferred, fun heq => absurd heq hdeferred⟩
  once := h.once

theorem Kept.conclude {s : State} (h : Kept s) {event_id : PyStr}
    {result : Except FetchError PyStr} (hresult : result ≠ .error .stripeError)
    (honce : (s.conclude event_id result).applied.Nodup) : Kept (s.conclude event_id result) := by
  match result with
  | .error .stripeError => exact absurd rfl hresult
  | .error (.other e) =>
    have hs : Kept { s with raised := s.raised ++ [event_id] } := h.congr rfl rfl
    exact hs.answer nofun nofun
  | .ok outcome =>
    have hs : Kept { s with applied := s.applied ++ [event_id] } :=
      ⟨fun d hd hne hack => List.mem_append_left _ (h.acknowledged d hd hne hack), h.deferred, honce⟩
    exact hs.answer (fun _ _ => List.mem_append_right _ (List.mem_singleton.2 rfl)) nofun

/-- Only the fetch raises `StripeError`. -/
theorem finish_checkout_stripeError {rt : Runtime} {db : Store} {now : ℚ} {checkout : Checkout}
    {fetched : Except FetchError Json} :
    checkoutOutcome <$> (finish_checkout rt db now checkout fetched).2 = .error .stripeError ↔
      fetched = .error .stripeError := by
  cases fetched with
  | error e => simp [finish_checkout, Functor.map, Except.map]
  | ok sub =>
    have hplan : ∀ plan : Except PyError PyStr,
        checkoutOutcome <$> plan.mapError FetchError.other ≠ .error .stripeError := by
      intro plan
      cases plan <;> simp [Functor.map, Except.map, Except.mapError]
    exact ⟨fun h => absurd h (hplan _), nofun⟩

theorem Handled.kept {s s' : State} {event_id : PyStr} (h : Handled s event_id s')
    (hbooked : Booked s) (hs : Kept s) (honce : s'.applied.Nodup)
    (hredelivered : event_id ≠ [] → event_id ∈ s.consumed →
      event_id ∉ s.pending ∧ event_id ∉ s.raised) : Kept s' := by
  cases h with
  | failed => exact hs.answer nofun nofun
  | anonymous hempty => exact hs.answer (fun hne => absurd hempty hne) nofun
  | duplicate hconsumed =>
    refine hs.answer (fun hne _ => ?_) nofun
    obtain ⟨hpending, hraised⟩ := hredelivered hne hconsumed
    exact hbooked.applied_of_consumed hconsumed hpending hraised
  | suspended _ => exact hs.congr rfl rfl
  | @concluded store result _ =>
    have hkept : Kept { s with store } := hs.congr rfl rfl
    refine hkept.conclude ?_ honce
    cases result <;> simp [Except.mapError]

/-- One step keeps the promise. -/
theorem next_kept {rt : Runtime} {s s' : State} {a : Action} (hbooked : Booked s) (hs : Kept s)
    (ha : Orderly rt s a) (h : next rt s a = some s') : Kept s' := by
  have honce := (next_booked hbooked h).applied_nodup
  cases a with
  | signIn now provider subject email name =>
    cases h
    exact hs.congr rfl rfl
  | webhook now event =>
    cases h
    cases hid : eventId rt event with
    | error e =>
      rw [billing_webhook, hid]
      exact hs.answer nofun nofun
    | ok event_id =>
      exact (billing_webhook_handled hid s now).kept hbooked hs honce (ha event_id hid)
  | successPage user_id =>
    obtain ⟨user, -, rfl⟩ := Option.map_eq_some_iff.1 h
    exact hs.congr rfl rfl
  | resume now i fetched =>
    obtain ⟨task, htask, rfl⟩ := Option.map_eq_some_iff.1 h
    cases task with
    | webhook event_id checkout =>
      have hfetched := ha _ htask (by simp [Task.eventId?])
      have hkept : Kept { s with
          tasks := s.tasks.eraseIdx i
          store := (finish_checkout rt s.store now checkout fetched).1 } := hs.congr rfl rfl
      exact hkept.conclude (fun h => hfetched (finish_checkout_stripeError.1 h)) honce
    | session user_id =>
      rw [resumeTask]
      obtain ⟨store, tasks, heq, -, -⟩ :=
        sessionFetched_eq rt { s with tasks := s.tasks.eraseIdx i } now user_id fetched
      rw [heq]
      exact hs.congr rfl rfl
    | success checkout => exact hs.congr rfl rfl

/-- In a run of orderly steps every answer keeps its promise. -/
theorem kept_of_orderly {rt : Runtime} {s : State}
    (h : (machine rt).ReachableBy (Orderly rt) s) : Kept s := by
  have hinit : Kept init :=
    ⟨fun _ hd => absurd hd List.not_mem_nil, fun _ hd => absurd hd List.not_mem_nil,
      List.nodup_nil⟩
  have hboth : Booked s ∧ Kept s := by
    refine h.invariant (fun s => Booked s ∧ Kept s) ⟨init_booked, hinit⟩ ?_
    rintro s a s' ⟨hbooked, hs⟩ ha hnext
    exact ⟨next_booked hbooked hnext, next_kept hbooked hs ha hnext⟩
  exact hboth.2

/-- The user pays, and Stripe delivers the event once more. -/
theorem kept_of_orderly_redelivered :
    (after (paidRun ++ [.webhook 3 (paidCheckout "evt_1")])).applied = [py "evt_1"] ∧
      Kept (after (paidRun ++ [.webhook 3 (paidCheckout "evt_1")])) := by
  have hsigned : (machine plainRuntime).ReachableBy (Orderly plainRuntime) (after [signInPayer]) :=
    Transition.Machine.ReachableBy.init.step (a := signInPayer) trivial rfl
  have hdelivered : (machine plainRuntime).ReachableBy (Orderly plainRuntime)
      (after [signInPayer, .webhook 1 (paidCheckout "evt_1")]) := by
    refine hsigned.step (a := .webhook 1 (paidCheckout "evt_1")) ?_ rfl
    intro _ _ _ hconsumed
    exact absurd hconsumed List.not_mem_nil
  have hpaid : (machine plainRuntime).ReachableBy (Orderly plainRuntime) (after paidRun) := by
    refine hdelivered.step (a := .resume 2 0 (.ok activeSubscription)) ?_ rfl
    intro _ _ _
    exact nofun
  have hredelivered : (machine plainRuntime).ReachableBy (Orderly plainRuntime)
      (after (paidRun ++ [.webhook 3 (paidCheckout "evt_1")])) := by
    refine hpaid.step (a := .webhook 3 (paidCheckout "evt_1")) ?_ rfl
    intro _ _ _ _
    exact ⟨List.not_mem_nil, List.not_mem_nil⟩
  exact ⟨rfl, kept_of_orderly hredelivered⟩

/-! ## The other steps -/

/-- A redelivery is acknowledged although its event is not applied. -/
theorem not_kept_of_redelivered {rt : Runtime} {s : State} {now : ℚ} {event : Json}
    {event_id : PyStr} {store : Store} (hs : Booked s) (hid : eventId rt event = .ok event_id)
    (hne : event_id ≠ []) (hrecord : recordEvent rt s.store now event event_id = .ok (store, false))
    (hopen : event_id ∈ s.pending ∨ event_id ∈ s.raised) :
    ¬ Kept (billing_webhook rt s now event) := by
  intro hkept
  have hstep : billing_webhook rt s now event = s.answer event_id .duplicate := by
    rw [billing_webhook, hid]
    simp only [hne, if_false, hrecord]
  rw [hstep] at hkept
  have happlied : event_id ∈ s.applied :=
    (State.forall_answered.1 hkept.acknowledged).2 hne rfl
  rcases hopen with hpending | hraised
  · exact hs.not_applied_of_pending hpending happlied
  · exact hs.not_applied_of_raised hraised happlied

/-- A delivery that Stripe fails is answered 503 with its id consumed. -/
theorem not_kept_of_stripeError {rt : Runtime} {s s' : State} {now : ℚ} {i : Nat}
    {event_id : PyStr} {checkout : Checkout} (hs : Booked s)
    (htask : s.tasks[i]? = some (.webhook event_id checkout))
    (h : next rt s (.resume now i (.error .stripeError)) = some s') : ¬ Kept s' := by
  intro hkept
  rw [next, htask] at h
  cases h
  have hfree : s.consumed.contains event_id = false :=
    (State.forall_answered.1 hkept.deferred).2 rfl
  have hpending : event_id ∈ s.pending :=
    List.mem_filterMap.2 ⟨_, List.mem_of_getElem? htask, rfl⟩
  have hconsumed : event_id ∈ s.consumed :=
    hs.events.mem_iff.1 (List.mem_append_left _ hpending)
  rw [List.contains_iff_mem.2 hconsumed] at hfree
  cases hfree

/-- Stripe fails the fetch and delivers the event again.  The second delivery is
acknowledged, and the payment is never applied. -/
theorem deferred_event_lost :
    ¬ ∀ (rt : Runtime) (s : State), (machine rt).Reachable s → Kept s := by
  intro hclaim
  let run : List Action := [signInPayer, .webhook 1 (paidCheckout "evt_1"),
    .resume 2 0 (.error .stripeError), .webhook 3 (paidCheckout "evt_1")]
  have hrun : (machine plainRuntime).run init run = some (after run) := rfl
  have hkept := hclaim plainRuntime (after run) (Transition.Machine.reachable_of_run hrun)
  have hanswered : (after run).answered =
      [⟨py "evt_1", .deferred, true⟩, ⟨py "evt_1", .duplicate, true⟩] := rfl
  have happlied : py "evt_1" ∈ (after run).applied :=
    hkept.acknowledged ⟨py "evt_1", .duplicate, true⟩ (by simp [hanswered]) (by decide) rfl
  exact absurd happlied List.not_mem_nil

end Billing

end OpendssGateway
