import OpendssGateway.Gateway.Billing
import OpendssGateway.Gateway.Email
import OpendssGateway.Library.Transition

/-!
# Sign-ins, webhooks and the success page

The handlers that change accounts, as a machine.  A handler runs up to its
next `await` of Stripe in one step, so a state is what other handlers see
between awaits.  `tasks` are the handlers that are suspended, and `resume`
hands one of them what Stripe answers, or the exception that the request
raised.  Billing is enabled.

`answered`, `applied` and `raised` are history: the answers of the webhook,
the events whose `apply_event` ran to its end, and those it raised on.

`plans_follow_subscriptions` holds in every state of every run.
-/

namespace OpendssGateway

namespace Billing

/-- The answer to a webhook delivery. -/
inductive Answer
  /-- 200, with the outcome of `apply_event`. -/
  | received (outcome : PyStr)
  /-- 200, `"duplicate": true`. -/
  | duplicate
  /-- 503. -/
  | deferred
  /-- 500, an exception that the handler does not catch. -/
  | failed

/-- The status code is 2xx. -/
def Answer.acknowledges : Answer → Bool
  | received _ => true
  | duplicate => true
  | deferred => false
  | failed => false

structure Delivery where
  event_id : PyStr
  answer : Answer
  /-- The id was in `stripe_events` when the answer was given. -/
  consumed : Bool

/-- A handler that awaits Stripe. -/
inductive Task
  | webhook (event_id : PyStr) (checkout : Checkout)
  /-- The success page of a user, at the checkout session. -/
  | session (user_id : Int)
  /-- The success page, at the subscription. -/
  | success (checkout : Checkout)

/-- The event that a webhook handler has taken on. -/
def Task.eventId? : Task → Option PyStr
  | webhook event_id _ => some event_id
  | session _ => none
  | success _ => none

structure State where
  store : Store
  tasks : List Task
  answered : List Delivery
  applied : List PyStr
  raised : List PyStr

inductive Action
  | signIn (now : ℚ) (provider subject email : PyStr) (name : Option PyStr)
  | webhook (now : ℚ) (event : Json)
  | successPage (user_id : Int)
  | resume (now : ℚ) (task : Nat) (fetched : Except FetchError Json)

namespace State

/-- The event ids in `stripe_events`. -/
def consumed (s : State) : List PyStr :=
  s.store.stripe_events.rows.map StripeEvent.id

def answer (s : State) (event_id : PyStr) (answer : Answer) : State :=
  { s with answered := s.answered ++
      [{ event_id, answer, consumed := s.consumed.contains event_id }] }

/-- `apply_event` has returned or raised. -/
def conclude (s : State) (event_id : PyStr) : Except FetchError PyStr → State
  | .ok outcome => { s with applied := s.applied ++ [event_id] }.answer event_id (.received outcome)
  | .error .stripeError => { s with raised := s.raised ++ [event_id] }.answer event_id .deferred
  | .error _ => { s with raised := s.raised ++ [event_id] }.answer event_id .failed

end State

section Handlers

variable (rt : Runtime)

/-- `str(event.get("id") or "")`. -/
def eventId (event : Json) : Except PyError PyStr := do
  pure (((← event.get "id").or (.str [])).toStr rt)

/-- `record_event(event_id, str(event.get("type")))`. -/
def recordEvent (db : Store) (now : ℚ) (event : Json) (event_id : PyStr) :
    Except PyError (Store × Bool) := do
  Subscriptions.record_event db now event_id ((← event.get "type").toStr rt)

/-- A delivery whose signature is right, up to the fetch. -/
def billing_webhook (s : State) (now : ℚ) (event : Json) : State :=
  match eventId rt event with
  | .error _ => s.answer [] .failed
  | .ok event_id =>
    if event_id = [] then s.answer event_id .duplicate
    else
      match recordEvent rt s.store now event event_id with
      | .error _ => s.answer event_id .failed
      | .ok (_, false) => s.answer event_id .duplicate
      | .ok (store, true) =>
        match apply_event rt store now event with
        | (store, .fetch checkout) =>
          { s with store, tasks := s.tasks ++ [.webhook event_id checkout] }
        | (store, .done result) =>
          { s with store }.conclude event_id (result.mapError .other)

/-- The session is paid and is the user's own. -/
def confirmed (user_id : Int) (session : Json) : Except PyError Bool := do
  let payment_status ← session.get "payment_status"
  if payment_status.isStr (py "paid") || payment_status.isStr (py "no_payment_required") then
    pure ((← session.get "client_reference_id").toStr rt == (Json.int user_id).toStr rt)
  else pure false

/-- The success page, once the session is there.  Its answer is a page. -/
def sessionFetched (s : State) (now : ℚ) (user_id : Int) (fetched : Except FetchError Json) : State :=
  match fetched with
  | .error _ => s
  | .ok session =>
    match confirmed rt user_id session with
    | .ok true =>
      match apply_checkout_session rt s.store now session with
      | (store, .fetch checkout) => { s with store, tasks := s.tasks ++ [.success checkout] }
      | (store, .done _) => { s with store }
    | _ => s

def resumeTask (s : State) (now : ℚ) (fetched : Except FetchError Json) : Task → State
  | .webhook event_id checkout =>
    let (store, plan) := finish_checkout rt s.store now checkout fetched
    { s with store }.conclude event_id (checkoutOutcome <$> plan)
  | .session user_id => sessionFetched rt s now user_id fetched
  | .success checkout => { s with store := (finish_checkout rt s.store now checkout fetched).1 }

def next (s : State) : Action → Option State
  | .signIn now provider subject email name =>
    some { s with store := (Users.sign_in rt s.store now provider subject email name).1 }
  | .webhook now event => some (billing_webhook rt s now event)
  | .successPage user_id =>
    (s.store.users.find? user_id).map fun _ => { s with tasks := s.tasks ++ [.session user_id] }
  | .resume now i fetched =>
    s.tasks[i]?.map fun task =>
      resumeTask rt { s with tasks := s.tasks.eraseIdx i } now fetched task

def init : State where
  store := Store.empty
  tasks := []
  answered := []
  applied := []
  raised := []

/-- The handlers, from an empty store. -/
def machine : Transition.Machine State Action where
  init := init
  next := next rt

end Handlers

/-! ## What a step does to the store -/

@[simp] theorem State.conclude_store (s : State) (event_id : PyStr)
    (result : Except FetchError PyStr) : (s.conclude event_id result).store = s.store := by
  unfold conclude
  split <;> rfl

theorem recordEvent_eq_ok {rt : Runtime} {db : Store} {now : ℚ} {event : Json}
    {event_id : PyStr} {result : Store × Bool}
    (h : recordEvent rt db now event event_id = .ok result) :
    ∃ kind, Subscriptions.record_event db now event_id kind = .ok result := by
  obtain ⟨kind, -, h⟩ := bind_eq_ok.1 h
  exact ⟨_, h⟩

/-- The success page writes what a checkout writes, and may await the
subscription. -/
theorem sessionFetched_eq (rt : Runtime) (s : State) (now : ℚ) (user_id : Int)
    (fetched : Except FetchError Json) :
    ∃ store tasks, sessionFetched rt s now user_id fetched =
        { s with store, tasks := s.tasks ++ tasks } ∧
      Linked s.store store ∧ tasks.filterMap Task.eventId? = [] := by
  have hsame : ∃ store tasks, s = { s with store, tasks := s.tasks ++ tasks } ∧
      Linked s.store store ∧ tasks.filterMap Task.eventId? = [] :=
    ⟨s.store, [], by rw [List.append_nil], Or.inl rfl, rfl⟩
  unfold sessionFetched
  split
  · exact hsame
  · rename_i session
    split
    · have hlinked := apply_checkout_session_linked rt s.store now session
      split
      · rename_i store checkout happly
        rw [happly] at hlinked
        exact ⟨store, [.success checkout], rfl, hlinked, rfl⟩
      · rename_i store result happly
        rw [happly] at hlinked
        exact ⟨store, [], by rw [List.append_nil], hlinked, rfl⟩
    · exact hsame

theorem resumeTask_linked (rt : Runtime) (s : State) (now : ℚ) (fetched : Except FetchError Json)
    (task : Task) : Linked s.store (resumeTask rt s now fetched task).store := by
  cases task with
  | webhook event_id checkout =>
    rw [resumeTask, State.conclude_store]
    exact finish_checkout_linked rt s.store now checkout fetched
  | session user_id =>
    obtain ⟨store, tasks, heq, hlinked, -⟩ := sessionFetched_eq rt s now user_id fetched
    rw [resumeTask, heq]
    exact hlinked
  | success checkout => exact finish_checkout_linked rt s.store now checkout fetched

theorem billing_webhook_consistent {rt : Runtime} {s : State} (now : ℚ) (event : Json)
    (hs : Consistent s.store) : Consistent (billing_webhook rt s now event).store := by
  unfold billing_webhook
  split
  · exact hs
  · split
    · exact hs
    · split
      · exact hs
      · exact hs
      · rename_i store hrecord
        obtain ⟨kind, hrecord⟩ := recordEvent_eq_ok hrecord
        obtain ⟨husers, hsubs, -⟩ := Subscriptions.record_event_eq_true hrecord
        have hstore : Consistent store := hs.congr husers hsubs
        have happly : Consistent (apply_event rt store now event).1 :=
          (apply_event_linked rt store now event).consistent hstore
        split <;> simpa [*] using happly

theorem next_consistent {rt : Runtime} {s s' : State} {a : Action} (hs : Consistent s.store)
    (h : next rt s a = some s') : Consistent s'.store := by
  cases a with
  | signIn now provider subject email name =>
    cases h
    exact hs.keepsPlans (Users.sign_in_keepsPlans ..)
  | webhook now event =>
    cases h
    exact billing_webhook_consistent now event hs
  | successPage user_id =>
    obtain ⟨user, -, rfl⟩ := Option.map_eq_some_iff.1 h
    exact hs
  | resume now i fetched =>
    obtain ⟨task, -, rfl⟩ := Option.map_eq_some_iff.1 h
    exact (resumeTask_linked ..).consistent hs

theorem reachable_consistent {rt : Runtime} {s : State} (h : (machine rt).Reachable s) :
    Consistent s.store :=
  h.invariant (fun s => Consistent s.store) consistent_empty fun _ _ _ hs _ hnext =>
    next_consistent hs hnext

/-- Between awaits, a user's plan is the plan of the user's subscription, and free
without one, every subscription is a user's, and no customer is linked to two users. -/
theorem plans_follow_subscriptions {rt : Runtime} {s : State} (h : (machine rt).Reachable s) :
    (∀ user ∈ s.store.users, ∀ row ∈ s.store.subscriptions, row.user_id = user.id →
      user.plan = plan_for row.status) ∧
    (∀ user ∈ s.store.users, (∀ row ∈ s.store.subscriptions, row.user_id ≠ user.id) →
      user.plan = py "free") ∧
    (∀ row ∈ s.store.subscriptions, ∃ user ∈ s.store.users, user.id = row.user_id) ∧
    (∀ a ∈ s.store.subscriptions, ∀ b ∈ s.store.subscriptions,
      a.customer_id = b.customer_id → a.user_id = b.user_id) := by
  have hs := reachable_consistent h
  exact ⟨hs.plan_of_row, hs.free_without, s.store.references_users,
    s.store.subscriptions_customer⟩

/-! ## A run -/

def text (text : String) : Json :=
  .str (py text)

def dict (members : List (String × Json)) : Json :=
  .obj (members.map fun member => (py member.1, member.2))

/-- A completed checkout of user 1. -/
def paidCheckout (event_id : String) : Json :=
  dict [("id", text event_id), ("type", text "checkout.session.completed"),
    ("data", dict [("object", dict [("mode", text "subscription"),
      ("payment_status", text "paid"), ("customer", text "cus_1"),
      ("subscription", text "sub_1"), ("client_reference_id", text "1")])])]

def signInPayer : Action :=
  .signIn 0 (py "email") (py "payer@example.com") (py "payer@example.com") none

def activeSubscription : Json :=
  dict [("id", text "sub_1"), ("status", text "active")]

/-- A user signs in and pays.  Stripe delivers the event and answers the fetch. -/
def paidRun : List Action :=
  [signInPayer, .webhook 1 (paidCheckout "evt_1"),
    .resume 2 0 (.ok activeSubscription)]

/-- The state after a run from the start. -/
def after (run : List Action) : State :=
  ((machine plainRuntime).run init run).getD init

theorem plans_follow_subscriptions_paid :
    ((after paidRun).store.users.rows.map fun user => (user.id, user.plan)) = [(1, py "pro")] ∧
      ∀ user ∈ (after paidRun).store.users, ∀ row ∈ (after paidRun).store.subscriptions,
        row.user_id = user.id → user.plan = plan_for row.status := by
  have hrun : (machine plainRuntime).run init paidRun = some (after paidRun) := rfl
  exact ⟨rfl, (plans_follow_subscriptions (Transition.Machine.reachable_of_run hrun)).1⟩

end Billing

end OpendssGateway
