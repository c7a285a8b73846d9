import OpendssGateway.Gateway.Handlers

/-!
# Deliveries that are applied to their end

What `apply_subscription` writes, as one row, and the deliveries and success
pages that nothing else runs in between.

* `rowOf` is the row that a subscription is stored as, and `Applied` is the
  write of it together with its plan.
* `webhook` and `successPage` are a handler from start to end, with what
  Stripe answers.  `webhook_run` is the same in steps of the machine.
* `checkout_settled`, `checkout_pending` and `subscription_event_cases` say
  what a successful delivery has written.
-/

namespace OpendssGateway

namespace Subscriptions

/-- The row that `upsert` stores. -/
def upsertRow (rt : Runtime) (now : ℚ) (user_id : Int) (customer_id : PyStr)
    (subscription_id status : Json) (current_period_end : Option Float)
    (cancel_at_period_end : Bool) : Except PyError Subscription := do
  let _ ← bindInt user_id
  let _ ← bindText customer_id
  let subscription_id ← bindValue subscription_id
  let status ← bindValue status
  match textColumn rt status with
  | none => .error .integrityError
  | some status =>
    .ok {
      user_id, customer_id, status, cancel_at_period_end
      subscription_id := textColumn rt subscription_id
      current_period_end := current_period_end.filter fun x => !x.isNaN
      updated := now }

theorem upsert_eq (rt : Runtime) (db : Store) (now : ℚ) (user_id : Int) (customer_id : PyStr)
    (subscription_id status : Json) (fin : Option Float) (cancel : Bool) :
    upsert rt db now user_id customer_id subscription_id status fin cancel =
      upsertRow rt now user_id customer_id subscription_id status fin cancel >>= link db := by
  unfold upsert upsertRow
  cases bindInt user_id with
  | error e => rfl
  | ok _ =>
    cases bindText customer_id with
    | error e => rfl
    | ok _ =>
      cases bindValue subscription_id with
      | error e => rfl
      | ok id =>
        cases bindValue status with
        | error e => rfl
        | ok v =>
          show (match textColumn rt v with | none => _ | some status => _) =
            (match textColumn rt v with | none => _ | some status => _) >>= link db
          cases textColumn rt v <;> rfl

/-- `by_customer` finds the one row of a customer. -/
theorem find_customer_iff {db : Store} {customer_id : PyStr} {row : Subscription} :
    (db.subscriptions.rows.find? fun row => row.customer_id = customer_id) = some row ↔
      row ∈ db.subscriptions ∧ row.customer_id = customer_id := by
  constructor
  · intro h
    have hcustomer := List.find?_some h
    exact ⟨List.mem_of_find?_eq_some h, by simpa using hcustomer⟩
  · rintro ⟨hrow, hcustomer⟩
    cases hfind : db.subscriptions.rows.find? fun row => row.customer_id = customer_id with
    | none =>
      have hnone := List.find?_eq_none.1 hfind row hrow
      simp [hcustomer] at hnone
    | some other =>
      have hother := List.find?_some hfind
      have hmem : other ∈ db.subscriptions := List.mem_of_find?_eq_some hfind
      have huser := db.subscriptions_customer other hmem row hrow (by
        rw [hcustomer]
        simpa using hother)
      rw [Table.eq_of_key hmem hrow huser]

end Subscriptions

namespace Billing

/-! ## One row and its plan -/

/-- `sub.get("status") or "none"` of `sub or {}`. -/
def subStatus (sub : Json) : Except PyError Json := do
  pure ((← (sub.or (.obj [])).get "status").or (.str (py "none")))

/-- The row that a subscription is stored as. -/
def rowOf (rt : Runtime) (now : ℚ) (user_id : Int) (customer_id : PyStr) (sub : Json) :
    Except PyError Subscription := do
  let fields ← subscriptionFields rt sub
  Subscriptions.upsertRow rt now user_id customer_id fields.subscription_id fields.status
    fields.current_period_end fields.cancel_at_period_end

/-- A row was written, and the plan that follows from it. -/
def Applied (db : Store) (row : Subscription) (db' : Store) : Prop :=
  ∃ mid, Subscriptions.link db row = .ok mid ∧
    db' = Users.set_plan mid row.user_id (plan_for row.status)

section Row

variable {rt : Runtime} {now : ℚ} {user_id : Int} {customer_id : PyStr} {sub : Json}
  {row : Subscription}

theorem subscriptionFields_status {fields : SubscriptionFields}
    (h : subscriptionFields rt sub = .ok fields) : subStatus sub = .ok fields.status := by
  unfold subscriptionFields at h
  obtain ⟨status, hstatus, h⟩ := bind_eq_ok.1 h
  obtain ⟨fin, -, h⟩ := bind_eq_ok.1 h
  obtain ⟨cancel_at, -, h⟩ := bind_eq_ok.1 h
  have hfields : fields.status = status.or (.str (py "none")) := by
    dsimp only at h
    split at h
    all_goals
      obtain ⟨_, -, h⟩ := bind_eq_ok.1 h
      obtain ⟨_, -, h⟩ := bind_eq_ok.1 h
      obtain ⟨_, -, h⟩ := bind_eq_ok.1 h
      cases h
      rfl
  unfold subStatus
  rw [hstatus, hfields]
  rfl

/-- The row is the user's and the customer's, and its plan is the plan of the status. -/
theorem rowOf_eq_ok (h : rowOf rt now user_id customer_id sub = .ok row) :
    row.user_id = user_id ∧ row.customer_id = customer_id ∧ row.updated = now ∧
      ∃ status, subStatus sub = .ok status ∧ planForValue status = .ok (plan_for row.status) := by
  obtain ⟨fields, hfields, h⟩ := bind_eq_ok.1 h
  unfold Subscriptions.upsertRow at h
  obtain ⟨_, -, h⟩ := bind_eq_ok.1 h
  obtain ⟨_, -, h⟩ := bind_eq_ok.1 h
  obtain ⟨_, -, h⟩ := bind_eq_ok.1 h
  obtain ⟨v, hbind, h⟩ := bind_eq_ok.1 h
  split at h
  · cases h
  · rename_i text hcolumn
    cases h
    exact ⟨rfl, rfl, rfl, fields.status, subscriptionFields_status hfields,
      planForValue_stored hbind hcolumn⟩

/-- The time of the delivery is `updated`, and nothing else depends on it. -/
theorem rowOf_now (h : rowOf rt now user_id customer_id sub = .ok row) (later : ℚ) :
    rowOf rt later user_id customer_id sub = .ok { row with updated := later } := by
  obtain ⟨fields, hfields, h⟩ := bind_eq_ok.1 h
  unfold rowOf
  rw [hfields]
  show Subscriptions.upsertRow rt later user_id customer_id fields.subscription_id fields.status
    fields.current_period_end fields.cancel_at_period_end = _
  unfold Subscriptions.upsertRow at h ⊢
  obtain ⟨a, ha, h⟩ := bind_eq_ok.1 h
  obtain ⟨b, hb, h⟩ := bind_eq_ok.1 h
  obtain ⟨c, hc, h⟩ := bind_eq_ok.1 h
  obtain ⟨v, hv, h⟩ := bind_eq_ok.1 h
  rw [ha, hb, hc, hv]
  show (match textColumn rt v with | none => _ | some status => _) = _
  split at h
  · cases h
  · cases h
    rfl

theorem apply_subscription_eq_ok {db db' : Store} {plan : PyStr}
    (h : apply_subscription rt db now user_id customer_id sub = (db', .ok plan)) :
    ∃ row, rowOf rt now user_id customer_id sub = .ok row ∧ Applied db row db' ∧
      plan = plan_for row.status := by
  unfold apply_subscription at h
  split at h
  · cases h
  · rename_i fields hfields
    rw [Subscriptions.upsert_eq] at h
    split at h
    · cases h
    · rename_i mid hupsert
      obtain ⟨row, hrow, hlink⟩ := bind_eq_ok.1 hupsert
      have hrowOf : rowOf rt now user_id customer_id sub = .ok row := by
        unfold rowOf
        rw [hfields]
        exact hrow
      obtain ⟨huser, -, -, status, hstatus, hplan⟩ := rowOf_eq_ok hrowOf
      rw [subscriptionFields_status hfields] at hstatus
      cases hstatus
      rw [hplan] at h
      cases h
      exact ⟨row, hrowOf, ⟨mid, hlink, by rw [huser]⟩, rfl⟩

end Row

namespace Applied

variable {db db' : Store} {row : Subscription}

theorem users (h : Applied db row db') {user : User} :
    user ∈ db'.users ↔ user ∈ db.users ∧ user.id ≠ row.user_id ∨
      ∃ old ∈ db.users, old.id = row.user_id ∧
        user = { old with plan := plan_for row.status } := by
  obtain ⟨mid, hlink, rfl⟩ := h
  rw [← (Subscriptions.link_eq_ok hlink).1]
  exact Users.mem_update

theorem subscriptions (h : Applied db row db') {other : Subscription} :
    other ∈ db'.subscriptions ↔
      other = row ∨ other ∈ db.subscriptions ∧ other.user_id ≠ row.user_id := by
  obtain ⟨mid, hlink, rfl⟩ := h
  show other ∈ mid.subscriptions ↔ _
  rw [(Subscriptions.link_eq_ok hlink).2.1]
  exact Table.mem_put

end Applied

/-! ## A handler to its end -/

/-- A delivery of an event: when it is handled, what the fetch answers and when. -/
structure Webhook where
  now : ℚ
  event : Json
  fetchedAt : ℚ
  fetched : Json

section Deliveries

variable (rt : Runtime)

/-- `apply_event` to its end. -/
def applyToEnd (db : Store) (w : Webhook) : Store × Except FetchError PyStr :=
  match apply_event rt db w.now w.event with
  | (db, .done result) => (db, result.mapError .other)
  | (db, .fetch checkout) =>
    let (db, plan) := finish_checkout rt db w.fetchedAt checkout (.ok w.fetched)
    (db, checkoutOutcome <$> plan)

/-- A delivery that is answered with an outcome. -/
def webhook (db : Store) (w : Webhook) : Option Store :=
  match eventId rt w.event with
  | .error _ => none
  | .ok event_id =>
    if event_id = [] then none
    else
      match recordEvent rt db w.now w.event event_id with
      | .ok (db, true) =>
        match applyToEnd rt db w with
        | (db, .ok _) => some db
        | (_, .error _) => none
      | _ => none

/-- `apply_checkout_session` to its end. -/
def checkoutToEnd (db : Store) (now fetchedAt : ℚ) (session fetched : Json) : Option Store :=
  match apply_checkout_session rt db now session with
  | (db, .done (.ok _)) => some db
  | (_, .done (.error _)) => none
  | (db, .fetch checkout) =>
    match finish_checkout rt db fetchedAt checkout (.ok fetched) with
    | (db, .ok _) => some db
    | (_, .error _) => none

/-- The success page of a user, with what Stripe answers. -/
def successPage (db : Store) (now fetchedAt : ℚ) (user_id : Int) (session fetched : Json) :
    Option Store :=
  match confirmed rt user_id session with
  | .error _ => none
  | .ok false => some db
  | .ok true => checkoutToEnd rt db now fetchedAt session fetched

end Deliveries

/-- The payment of a checkout is settled. -/
def settled (session : Json) : Bool :=
  match session.get "payment_status" with
  | .error _ => false
  | .ok status =>
    status.isNull || status.isStr (py "paid") || status.isStr (py "no_payment_required")

/-- The subscription that a checkout is applied with. -/
def checkoutSub (session fetched : Json) : Json :=
  match session.get "subscription" with
  | .ok (.str _) => fetched
  | .ok (.obj members) => .obj members
  | _ => .null

/-- The subscription that an event is applied with. -/
def eventSub (kind : PyStr) (obj : Json) : Json :=
  if kind = py "customer.subscription.deleted" then obj.set "status" (.str (py "canceled"))
  else obj

section Specs

variable {rt : Runtime} {db db' : Store} {now fetchedAt : ℚ} {session fetched : Json}
  {user_id : Int} {customer_id : PyStr}

theorem State.conclude_tasks (s : State) (event_id : PyStr) (result : Except FetchError PyStr) :
    (s.conclude event_id result).tasks = s.tasks := by
  unfold conclude
  split <;> rfl

/-- A delivery that is answered with an outcome records its event first. -/
theorem webhook_recorded {w : Webhook} (h : webhook rt db w = some db') :
    ∃ event_id mid outcome, eventId rt w.event = .ok event_id ∧ event_id ≠ [] ∧
      recordEvent rt db w.now w.event event_id = .ok (mid, true) ∧
      applyToEnd rt mid w = (db', .ok outcome) := by
  unfold webhook at h
  split at h
  · cases h
  · rename_i event_id hid
    split_ifs at h with hempty
    split at h
    · rename_i mid hrecord
      split at h
      · rename_i outcome happly
        cases h
        exact ⟨event_id, mid, outcome, hid, hempty, hrecord, happly⟩
      · cases h
    · cases h

theorem webhook_eq_some {w : Webhook} (h : webhook rt db w = some db') :
    ∃ mid outcome, mid.users = db.users ∧ mid.subscriptions = db.subscriptions ∧
      applyToEnd rt mid w = (db', .ok outcome) := by
  obtain ⟨event_id, mid, outcome, -, -, hrecord, happly⟩ := webhook_recorded h
  obtain ⟨kind, hrecord⟩ := recordEvent_eq_ok hrecord
  obtain ⟨husers, hsubscriptions, -⟩ := Subscriptions.record_event_eq_true hrecord
  exact ⟨mid, outcome, husers, hsubscriptions, happly⟩

/-- A delivery whose event is new goes on as `apply_event` does. -/
theorem billing_webhook_of_new {s : State} {event : Json} {event_id : PyStr} {mid store : Store}
    {progress : Progress PyStr} (hid : eventId rt event = .ok event_id) (hempty : event_id ≠ [])
    (hrecord : recordEvent rt s.store now event event_id = .ok (mid, true))
    (happly : apply_event rt mid now event = (store, progress)) :
    (∀ result, progress = .done result → billing_webhook rt s now event =
      { s with store }.conclude event_id (result.mapError .other)) ∧
    ∀ checkout, progress = .fetch checkout → billing_webhook rt s now event =
      { s with store, tasks := s.tasks ++ [.webhook event_id checkout] } := by
  unfold billing_webhook
  rw [hid]
  dsimp only
  rw [if_neg hempty, hrecord]
  dsimp only
  rw [happly]
  constructor
  · rintro result rfl
    rfl
  · rintro checkout rfl
    rfl

/-- A delivery to its end is a run of the machine. -/
theorem webhook_run {s : State} {w : Webhook} (h : webhook rt s.store w = some db') :
    ∃ run s', (machine rt).run s run = some s' ∧ s'.store = db' ∧ s'.tasks = s.tasks := by
  obtain ⟨event_id, mid, outcome, hid, hempty, hrecord, happlied⟩ := webhook_recorded h
  have hstore : (applyToEnd rt mid w).1 = db' := by rw [happlied]
  unfold applyToEnd at hstore
  cases happly : apply_event rt mid w.now w.event with
  | mk store progress =>
    rw [happly] at hstore
    obtain ⟨hdone, hfetch⟩ := billing_webhook_of_new hid hempty hrecord happly
    cases progress with
    | done result =>
      have hwebhook := hdone result rfl
      refine ⟨[.webhook w.now w.event], billing_webhook rt s w.now w.event, rfl, ?_, ?_⟩
      · rw [hwebhook, State.conclude_store]
        exact hstore
      · rw [hwebhook, State.conclude_tasks]
    | fetch checkout =>
      have hwebhook := hfetch checkout rfl
      -- the task that the delivery adds is resumed with what Stripe answers
      have hresume : (machine rt).next (billing_webhook rt s w.now w.event)
          (.resume w.fetchedAt s.tasks.length (.ok w.fetched)) =
            some (resumeTask rt { s with store := store } w.fetchedAt (.ok w.fetched)
              (.webhook event_id checkout)) := by
        rw [hwebhook]
        show Option.map _ (s.tasks ++ [Task.webhook event_id checkout])[s.tasks.length]? = _
        simp [List.eraseIdx_append]
      refine ⟨[.webhook w.now w.event, .resume w.fetchedAt s.tasks.length (.ok w.fetched)],
        resumeTask rt { s with store := store } w.fetchedAt (.ok w.fetched)
          (.webhook event_id checkout), ?_, ?_, ?_⟩
      · show ((machine rt).next (billing_webhook rt s w.now w.event) _).bind some = _
        rw [hresume]
        rfl
      · show State.store (State.conclude _ _ _) = db'
        rw [State.conclude_store]
        exact hstore
      · show State.tasks (State.conclude _ _ _) = s.tasks
        rw [State.conclude_tasks]

theorem finish_checkout_eq_ok {checkout : Checkout} {plan : PyStr}
    (h : finish_checkout rt db now checkout (.ok fetched) = (db', .ok plan)) :
    apply_subscription rt db now checkout.user_id checkout.customer_id fetched =
      (db', .ok plan) := by
  unfold finish_checkout at h
  dsimp only at h
  cases happly : apply_subscription rt db now checkout.user_id checkout.customer_id fetched with
  | mk store result =>
    rw [happly] at h
    cases result with
    | error e => cases h
    | ok plan' =>
      cases h
      rfl

/-- Whose checkout it is depends on the users only. -/
theorem checkoutOwner_congr (husers : db'.users = db.users) :
    checkoutOwner rt db' session = checkoutOwner rt db session := by
  unfold checkoutOwner Users.get
  rw [husers]

/-- Where a checkout of a user's goes on: it is fetched, or applied as it is. -/
theorem apply_checkout_session_eq
    (howner : checkoutOwner rt db session = .ok (some (user_id, customer_id))) :
    (∃ e, apply_checkout_session rt db now session = (db, .done (.error e))) ∨
      (∃ id, apply_checkout_session rt db now session =
          (db, .fetch { user_id, customer_id, subscription_id := id }) ∧
        checkoutSub session fetched = fetched) ∨
      ∃ store plan, apply_subscription rt db now user_id customer_id
          (checkoutSub session fetched) = (store, plan) ∧
        apply_checkout_session rt db now session = (store, .done (some <$> plan)) := by
  unfold apply_checkout_session checkoutSub
  rw [howner]
  cases hsub : session.get "subscription" with
  | error e => exact Or.inl ⟨e, rfl⟩
  | ok sub =>
    right
    cases sub with
    | str id => exact Or.inl ⟨id, rfl, rfl⟩
    | obj members => exact Or.inr ⟨_, _, rfl, rfl⟩
    | null => exact Or.inr ⟨_, _, rfl, rfl⟩
    | bool b => exact Or.inr ⟨_, _, rfl, rfl⟩
    | int n => exact Or.inr ⟨_, _, rfl, rfl⟩
    | float x => exact Or.inr ⟨_, _, rfl, rfl⟩
    | arr items => exact Or.inr ⟨_, _, rfl, rfl⟩

/-- A checkout of a user's that is applied to its end. -/
theorem checkoutToEnd_eq_some
    (howner : checkoutOwner rt db session = .ok (some (user_id, customer_id)))
    (h : checkoutToEnd rt db now fetchedAt session fetched = some db') :
    ∃ time row, rowOf rt time user_id customer_id (checkoutSub session fetched) = .ok row ∧
      Applied db row db' := by
  unfold checkoutToEnd at h
  rcases @apply_checkout_session_eq rt db now session fetched user_id customer_id howner with
    ⟨e, heq⟩ | ⟨id, heq, hsub⟩ | ⟨store, plan, happly, heq⟩
  · rw [heq] at h
    cases h
  · rw [heq] at h
    dsimp only at h
    split at h
    · rename_i store plan hfinish
      cases h
      obtain ⟨row, hrow, happlied, -⟩ := apply_subscription_eq_ok (finish_checkout_eq_ok hfinish)
      rw [hsub]
      exact ⟨fetchedAt, row, hrow, happlied⟩
    · cases h
  · rw [heq] at h
    cases plan with
    | error e => cases h
    | ok plan =>
      cases h
      obtain ⟨row, hrow, happlied, -⟩ := apply_subscription_eq_ok happly
      exact ⟨now, row, hrow, happlied⟩

theorem apply_event_checkout {event : Json}
    (hevent : eventFields event = .ok (.str (py "checkout.session.completed"), session)) :
    apply_event rt db now event = checkoutCompleted rt db now session := by
  unfold apply_event
  rw [hevent]
  exact if_pos rfl

/-- A completed checkout that is settled is applied. -/
theorem checkout_settled {w : Webhook} {outcome : PyStr}
    (hevent : eventFields w.event = .ok (.str (py "checkout.session.completed"), session))
    (howner : checkoutOwner rt db session = .ok (some (user_id, customer_id)))
    (hsettled : settled session = true) (h : applyToEnd rt db w = (db', .ok outcome)) :
    ∃ time row, rowOf rt time user_id customer_id (checkoutSub session w.fetched) = .ok row ∧
      Applied db row db' := by
  have hend : checkoutToEnd rt db w.now w.fetchedAt session w.fetched = some db' := by
    unfold applyToEnd at h
    rw [apply_event_checkout hevent] at h
    unfold checkoutCompleted at h
    unfold settled at hsettled
    cases hstatus : session.get "payment_status" with
    | error e =>
      rw [hstatus] at hsettled
      cases hsettled
    | ok status =>
      rw [hstatus] at h hsettled
      dsimp only at h hsettled
      rw [hsettled, if_pos rfl] at h
      unfold checkoutToEnd
      cases happly : apply_checkout_session rt db w.now session with
      | mk store progress =>
        rw [happly] at h
        cases progress with
        | done result =>
          cases result with
          | error e => cases h
          | ok plan => cases plan <;> cases h <;> rfl
        | fetch checkout =>
          dsimp only at h ⊢
          cases hfinish : finish_checkout rt store w.fetchedAt checkout (.ok w.fetched) with
          | mk last result =>
            rw [hfinish] at h
            cases result with
            | error e => cases h
            | ok plan =>
              cases h
              rfl
  exact checkoutToEnd_eq_some howner hend

/-- A completed checkout that is not settled changes nothing. -/
theorem checkout_pending {w : Webhook} {outcome : PyStr}
    (hevent : eventFields w.event = .ok (.str (py "checkout.session.completed"), session))
    (hpending : settled session = false) (h : applyToEnd rt db w = (db', .ok outcome)) :
    db' = db := by
  unfold applyToEnd at h
  rw [apply_event_checkout hevent] at h
  unfold checkoutCompleted at h
  unfold settled at hpending
  cases hstatus : session.get "payment_status" with
  | error e =>
    rw [hstatus] at h
    cases h
  | ok status =>
    rw [hstatus] at h hpending
    dsimp only at h hpending
    rw [hpending, if_neg (by simp)] at h
    cases h
    rfl

/-- The status that an event carries. -/
theorem eventSub_status {kind : PyStr} {obj v : Json} (hobj : obj.get "customer" = .ok v) :
    subStatus (eventSub kind obj) =
      if kind = py "customer.subscription.deleted" then .ok (.str (py "canceled"))
      else subStatus obj := by
  unfold eventSub
  split_ifs
  · cases obj with
    | obj members =>
      show subStatus (.obj ((py "status", _) :: _)) = _
      rfl
    | null => cases hobj
    | bool b => cases hobj
    | int n => cases hobj
    | float x => cases hobj
    | str s => cases hobj
    | arr items => cases hobj
  · rfl

theorem apply_event_subscription {event obj : Json} {kind : PyStr}
    (hevent : eventFields event = .ok (.str kind, obj))
    (hkind : (py "customer.subscription.").isPrefixOf kind = true) :
    apply_event rt db now event =
      ((subscriptionChanged rt db now kind obj).1,
        .done (subscriptionChanged rt db now kind obj).2) := by
  have hne : kind ≠ py "checkout.session.completed" := by
    rintro rfl
    exact absurd hkind (by decide)
  unfold apply_event
  rw [hevent]
  dsimp only
  rw [if_neg hne, if_pos hkind]

theorem subscriptionOwner_eq {obj v : Json} (hcustomer : obj.get "customer" = .ok v)
    (hv : v.truthy = true) :
    subscriptionOwner rt db obj =
      match bindText (v.toStr rt) with
      | .error e => .error e
      | .ok _ => .ok ((db.subscriptions.rows.find? fun row =>
          row.customer_id = v.toStr rt).map fun row => (row, v.toStr rt)) := by
  unfold subscriptionOwner
  rw [hcustomer]
  show (if v.truthy = true then _ else _) = _
  rw [if_pos hv]
  unfold Subscriptions.by_customer
  cases bindText (v.toStr rt) <;> rfl

/-- An event of a customer who is linked is applied for the user.  Another one changes
nothing. -/
theorem subscription_event_cases {w : Webhook} {outcome kind : PyStr} {obj v : Json}
    (hevent : eventFields w.event = .ok (.str kind, obj))
    (hkind : (py "customer.subscription.").isPrefixOf kind = true)
    (hcustomer : obj.get "customer" = .ok v) (hv : v.truthy = true)
    (h : applyToEnd rt db w = (db', .ok outcome)) :
    (db' = db ∧ ∀ row ∈ db.subscriptions, row.customer_id ≠ v.toStr rt) ∨
      ∃ old ∈ db.subscriptions, old.customer_id = v.toStr rt ∧
        ∃ row, rowOf rt w.now old.user_id (v.toStr rt) (eventSub kind obj) = .ok row ∧
          Applied db row db' := by
  have hchanged : ∃ result, subscriptionChanged rt db w.now kind obj = (db', .ok result) := by
    unfold applyToEnd at h
    rw [apply_event_subscription hevent hkind] at h
    cases hresult : subscriptionChanged rt db w.now kind obj with
    | mk store result =>
      rw [hresult] at h
      cases result with
      | error e => cases h
      | ok result =>
        cases h
        exact ⟨outcome, rfl⟩
  obtain ⟨result, hchanged⟩ := hchanged
  unfold subscriptionChanged at hchanged
  rw [subscriptionOwner_eq hcustomer hv] at hchanged
  cases hbind : bindText (v.toStr rt) with
  | error e =>
    rw [hbind] at hchanged
    cases hchanged
  | ok text =>
    rw [hbind] at hchanged
    dsimp only at hchanged
    cases hfind : db.subscriptions.rows.find? fun row => row.customer_id = v.toStr rt with
    | none =>
      left
      rw [hfind] at hchanged
      cases hchanged
      exact ⟨rfl, by simpa [Table.mem_def] using hfind⟩
    | some old =>
      right
      obtain ⟨hold, hold_customer⟩ := Subscriptions.find_customer_iff.1 hfind
      refine ⟨old, hold, hold_customer, ?_⟩
      rw [hfind] at hchanged
      dsimp only [Option.map_some] at hchanged
      cases happly : apply_subscription rt db w.now old.user_id (v.toStr rt)
          (eventSub kind obj) with
      | mk store plan =>
        unfold eventSub at happly
        rw [happly] at hchanged
        cases plan with
        | error e => cases hchanged
        | ok plan =>
          cases hchanged
          obtain ⟨row, hrow, happlied, -⟩ := apply_subscription_eq_ok happly
          exact ⟨row, hrow, happlied⟩

end Specs

end Billing

end OpendssGateway
