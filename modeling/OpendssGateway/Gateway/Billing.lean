import OpendssGateway.Gateway.Store

/-!
# Applying what Stripe tells

`apply_subscription`, `apply_checkout_session` and `apply_event` of
`billing.py`.  A coroutine that awaits the subscription at Stripe is cut
there.  `Progress` says whether it has ended or waits, and
`finish_checkout` is the rest of it.

* `apply_checkout_session_writes`, `apply_event_writes`: all that any of them
  writes is one row of `subscriptions` and, with it, the plan that follows from
  its status, for the user of the checkout or of the customer.
* `Linked.consistent`: such a write keeps plans and rows in step, so that
  `users.plan` is the plan that the subscriptions give (`consistent_iff_derived`).

The row and the plan are two statements.  They do not come apart, because a
status on which `plan_for` raises is one that SQLite does not store.
-/

namespace OpendssGateway

namespace Billing

def PRO_STATUSES : List PyStr :=
  [py "active", py "trialing", py "past_due"]

/-- `plan_for` of a string. -/
def plan_for (status : PyStr) : PyStr :=
  if status ∈ PRO_STATUSES then py "pro" else py "free"

/-- `plan_for` of a value.  Lists and dicts cannot be hashed. -/
def planForValue : Json → Except PyError PyStr
  | .str s => .ok (plan_for s)
  | .arr _ => .error .typeError
  | .obj _ => .error .typeError
  | _ => .ok (py "free")

/-- The status keeps a user on Pro. -/
def isPro : Json → Bool
  | .str s => s ∈ PRO_STATUSES
  | _ => false

/-! ## The subscription -/

section Subscription

variable (rt : Runtime)

def period_end (sub : Json) : Except PyError (Option Float) := do
  let direct ← sub.get "current_period_end"
  let fin ←
    if direct.isNull then do
      let items ← ((← sub.get "items").or (.obj [])).get "data"
      let items := items.or (.arr [])
      if items.truthy then (← items.first).get "current_period_end" else pure .null
    else pure direct
  if fin.isNull then pure none else some <$> fin.toFloat rt

def cancel_scheduled (sub : Json) : Except PyError Bool := do
  if (← sub.get "cancel_at_period_end").truthy then pure true
  else pure !(← sub.get "cancel_at").isNull

/-- What `apply_subscription` reads off a subscription. -/
structure SubscriptionFields where
  subscription_id : Json
  status : Json
  current_period_end : Option Float
  cancel_at_period_end : Bool

def subscriptionFields (sub : Json) : Except PyError SubscriptionFields := do
  let sub := sub.or (.obj [])
  let status := (← sub.get "status").or (.str (py "none"))
  let fin ← period_end rt sub
  let cancel_at ← sub.get "cancel_at"
  let fin ← if cancel_at.isNull then pure fin else some <$> cancel_at.toFloat rt
  pure {
    subscription_id := ← sub.get "id"
    status
    current_period_end := fin
    cancel_at_period_end := ← cancel_scheduled sub }

/-- Record the subscription and set the user's plan from it. -/
def apply_subscription (db : Store) (now : ℚ) (user_id : Int) (customer_id : PyStr) (sub : Json) :
    Store × Except PyError PyStr :=
  match subscriptionFields rt sub with
  | .error e => (db, .error e)
  | .ok fields =>
    match Subscriptions.upsert rt db now user_id customer_id fields.subscription_id fields.status
        fields.current_period_end fields.cancel_at_period_end with
    | .error e => (db, .error e)
    | .ok db =>
      match planForValue fields.status with
      | .error e => (db, .error e)
      | .ok plan => (Users.set_plan db user_id plan, .ok plan)

end Subscription

/-! ## Checkout and events -/

/-- A checkout whose subscription is being fetched. -/
structure Checkout where
  user_id : Int
  customer_id : PyStr
  subscription_id : PyStr

/-- What a request to Stripe raises.  Only such requests raise `StripeError`. -/
inductive FetchError
  | stripeError
  | other (e : PyError)

/-- A coroutine has ended, or waits for a subscription from Stripe. -/
inductive Progress (α : Type)
  | done (result : Except PyError α)
  | fetch (checkout : Checkout)

section Events

variable (rt : Runtime)

/-- The user and the customer of a session, unless it is not ours. -/
def checkoutOwner (db : Store) (session : Json) : Except PyError (Option (Int × PyStr)) := do
  let reference ← session.get "client_reference_id"
  let reference ←
    if reference.truthy then pure reference
    else ((← session.get "metadata").or (.obj [])).get "user_id"
  let customer ← session.get "customer"
  let mode ← session.get "mode"
  if !reference.truthy || !customer.truthy || !(mode.isNull || mode.isStr (py "subscription")) then
    pure none
  else
    match reference.toInt rt with
    | .error .valueError => pure none
    | .error e => throw e
    | .ok user_id =>
      match ← Users.get db user_id with
      | none => pure none
      | some _ => pure (some (user_id, customer.toStr rt))

/-- `apply_checkout_session`, up to the fetch. -/
def apply_checkout_session (db : Store) (now : ℚ) (session : Json) :
    Store × Progress (Option PyStr) :=
  match checkoutOwner rt db session, session.get "subscription" with
  | .error e, _ => (db, .done (.error e))
  | .ok none, _ => (db, .done (.ok none))
  | .ok (some _), .error e => (db, .done (.error e))
  | .ok (some (user_id, customer_id)), .ok (.str subscription_id) =>
    (db, .fetch { user_id, customer_id, subscription_id })
  | .ok (some (user_id, customer_id)), .ok sub_id =>
    let sub := match sub_id with
      | .obj members => .obj members
      | _ => .null
    let (db, plan) := apply_subscription rt db now user_id customer_id sub
    (db, .done (some <$> plan))

/-- `apply_checkout_session`, once the fetch has answered or failed. -/
def finish_checkout (db : Store) (now : ℚ) (checkout : Checkout)
    (fetched : Except FetchError Json) : Store × Except FetchError PyStr :=
  match fetched with
  | .error e => (db, .error e)
  | .ok sub =>
    let (db, plan) := apply_subscription rt db now checkout.user_id checkout.customer_id sub
    (db, plan.mapError .other)

/-- The outcome of a checkout that gave a plan. -/
def checkoutOutcome (plan : PyStr) : PyStr :=
  py "checkout -> " ++ plan

/-- An event of kind `checkout.session.completed`. -/
def checkoutCompleted (db : Store) (now : ℚ) (obj : Json) : Store × Progress PyStr :=
  match obj.get "payment_status" with
  | .error e => (db, .done (.error e))
  | .ok payment_status =>
    if payment_status.isNull || payment_status.isStr (py "paid") ||
        payment_status.isStr (py "no_payment_required") then
      match apply_checkout_session rt db now obj with
      | (db, .fetch checkout) => (db, .fetch checkout)
      | (db, .done (.error e)) => (db, .done (.error e))
      | (db, .done (.ok none)) => (db, .done (.ok (py "checkout-ignored")))
      | (db, .done (.ok (some plan))) => (db, .done (.ok (checkoutOutcome plan)))
    else (db, .done (.ok (py "checkout-unpaid")))

/-- The subscription of the customer that an event is about. -/
def subscriptionOwner (db : Store) (obj : Json) :
    Except PyError (Option (Subscription × PyStr)) := do
  let customer ← obj.get "customer"
  if customer.truthy then
    let row ← Subscriptions.by_customer db (customer.toStr rt)
    pure (row.map fun row => (row, customer.toStr rt))
  else pure none

/-- An event whose kind starts with `customer.subscription.`. -/
def subscriptionChanged (db : Store) (now : ℚ) (kind : PyStr) (obj : Json) :
    Store × Except PyError PyStr :=
  match subscriptionOwner rt db obj with
  | .error e => (db, .error e)
  | .ok none => (db, .ok (py "subscription-unknown-customer"))
  | .ok (some (row, customer_id)) =>
    let sub := if kind = py "customer.subscription.deleted" then
      obj.set "status" (.str (py "canceled")) else obj
    let (db, plan) := apply_subscription rt db now row.user_id customer_id sub
    (db, (fun plan => kind ++ py " -> " ++ plan) <$> plan)

/-- The kind of an event and the object it is about. -/
def eventFields (event : Json) : Except PyError (Json × Json) := do
  let kind ← event.getD "type" (.str [])
  let data := (← event.get "data").or (.obj [])
  pure (kind, (← data.get "object").or (.obj []))

/-- `apply_event`, up to the fetch. -/
def apply_event (db : Store) (now : ℚ) (event : Json) : Store × Progress PyStr :=
  match eventFields event with
  | .error e => (db, .done (.error e))
  | .ok (.str kind, obj) =>
    if kind = py "checkout.session.completed" then checkoutCompleted rt db now obj
    else if (py "customer.subscription.").isPrefixOf kind then
      let (db, outcome) := subscriptionChanged rt db now kind obj
      (db, .done outcome)
    else (db, .done (.ok (py "ignored")))
  -- what is no string has no `startswith`
  | .ok _ => (db, .done (.error .attributeError))

end Events

/-! ## What is written -/

/-- Nothing is written, or a row of `subscriptions` and the plan that follows from
its status. -/
def Linked (db db' : Store) : Prop :=
  db' = db ∨ ∃ row mid, Subscriptions.link db row = .ok mid ∧
    db' = Users.set_plan mid row.user_id (plan_for row.status)

/-- The text of a number is no status of a plan. -/
theorem plan_for_columnText (rt : Runtime) (v : SqlValue) :
    plan_for (rt.columnText v) = py "free" := by
  have hstart : ∀ status ∈ PRO_STATUSES, ∃ c rest, status = c :: rest ∧ 97 ≤ c := by
    intro status hstatus
    simp only [PRO_STATUSES, List.mem_cons, List.not_mem_nil, or_false] at hstatus
    rcases hstatus with rfl | rfl | rfl
    · exact ⟨97, _, rfl, by omega⟩
    · exact ⟨116, _, rfl, by omega⟩
    · exact ⟨112, _, rfl, by omega⟩
  apply if_neg
  intro hmem
  obtain ⟨c, rest, htext, hc⟩ := hstart _ hmem
  have := rt.columnText_start v c rest htext
  omega

/-- The plan of a status is the plan of the text that the row keeps of it. -/
theorem planForValue_stored {rt : Runtime} {status : Json} {v : SqlValue} {text : PyStr}
    (hbind : bindValue status = .ok v) (hcolumn : textColumn rt v = some text) :
    planForValue status = .ok (plan_for text) := by
  by_cases hstr : ∃ s, status = .str s
  · obtain ⟨s, rfl⟩ := hstr
    rw [textColumn_str hbind hcolumn]
    rfl
  · rw [textColumn_number (not_exists.1 hstr) hbind hcolumn, plan_for_columnText]
    cases status with
    | str s => exact absurd ⟨s, rfl⟩ hstr
    | arr items => cases hbind
    | obj members => cases hbind
    | null => rfl
    | bool b => rfl
    | int n => rfl
    | float x => rfl

/-- Nothing is written, or a row of an owner and the plan that follows from its status. -/
def LinkedFor (owner : Int → Prop) (db db' : Store) : Prop :=
  db' = db ∨ ∃ row mid, owner row.user_id ∧ Subscriptions.link db row = .ok mid ∧
    db' = Users.set_plan mid row.user_id (plan_for row.status)

theorem LinkedFor.linked {owner : Int → Prop} {db db' : Store} (h : LinkedFor owner db db') :
    Linked db db' := by
  rcases h with h | ⟨row, mid, -, hlink, h⟩
  · exact Or.inl h
  · exact Or.inr ⟨row, mid, hlink, h⟩

/-- A coroutine writes a row of an owner only, and fetches for one. -/
structure WritesFor {α : Type} (owner : Int → Prop) (db : Store) (result : Store × Progress α) :
    Prop where
  store : LinkedFor owner db result.1
  fetch : ∀ checkout, result.2 = .fetch checkout → owner checkout.user_id

section Writes

variable {rt : Runtime} {db : Store} {now : ℚ} {session event : Json} {user_id : Int}
  {owner : Int → Prop}

theorem WritesFor.same {α : Type} (result : Except PyError α) :
    WritesFor owner db (db, .done result) where
  store := Or.inl rfl
  fetch checkout h := by cases h

theorem apply_subscription_writes (howner : owner user_id) (customer_id : PyStr) (sub : Json) :
    LinkedFor owner db (apply_subscription rt db now user_id customer_id sub).1 := by
  unfold apply_subscription
  split
  · exact Or.inl rfl
  · split
    · exact Or.inl rfl
    · rename_i mid hupsert
      obtain ⟨row, v, hlink, huser, hbind, hcolumn⟩ := Subscriptions.upsert_eq_ok hupsert
      rw [planForValue_stored hbind hcolumn]
      exact Or.inr ⟨row, mid, huser ▸ howner, hlink, by rw [huser]⟩

theorem finish_checkout_writes {checkout : Checkout} (howner : owner checkout.user_id)
    (fetched : Except FetchError Json) :
    LinkedFor owner db (finish_checkout rt db now checkout fetched).1 := by
  cases fetched with
  | error e => exact Or.inl rfl
  | ok sub => exact apply_subscription_writes howner checkout.customer_id sub

/-- A checkout is written for the user whom it refers to. -/
theorem apply_checkout_session_writes
    (howner : ∀ id customer_id, checkoutOwner rt db session = .ok (some (id, customer_id)) →
      owner id) :
    WritesFor owner db (apply_checkout_session rt db now session) := by
  unfold apply_checkout_session
  split
  · exact WritesFor.same _
  · exact WritesFor.same _
  · exact WritesFor.same _
  · rename_i hsession _
    refine ⟨Or.inl rfl, fun checkout h => ?_⟩
    cases h
    exact howner _ _ hsession
  · rename_i hsession _
    refine ⟨apply_subscription_writes (howner _ _ hsession) .., fun checkout h => ?_⟩
    cases h

theorem checkoutCompleted_writes
    (howner : ∀ id customer_id, checkoutOwner rt db session = .ok (some (id, customer_id)) →
      owner id) :
    WritesFor owner db (checkoutCompleted rt db now session) := by
  have happly : WritesFor owner db (apply_checkout_session rt db now session) :=
    apply_checkout_session_writes howner
  unfold checkoutCompleted
  split
  · exact WritesFor.same _
  · split
    · split
      · rename_i store checkout heq
        rw [heq] at happly
        exact ⟨happly.store, fun other h => happly.fetch other (by cases h; rfl)⟩
      all_goals
        rename_i heq
        rw [heq] at happly
        exact ⟨happly.store, fun other h => by cases h⟩
    · exact WritesFor.same _

theorem subscriptionChanged_writes {kind : PyStr} {obj : Json}
    (howner : ∀ row customer_id, subscriptionOwner rt db obj = .ok (some (row, customer_id)) →
      owner row.user_id) :
    LinkedFor owner db (subscriptionChanged rt db now kind obj).1 := by
  unfold subscriptionChanged
  split
  · exact Or.inl rfl
  · exact Or.inl rfl
  · rename_i row customer_id hrow
    exact apply_subscription_writes (howner row customer_id hrow) ..

/-- An event is written for the user of its checkout or of its customer. -/
theorem apply_event_writes
    (hcheckout : ∀ obj id customer_id,
      eventFields event = .ok (.str (py "checkout.session.completed"), obj) →
      checkoutOwner rt db obj = .ok (some (id, customer_id)) → owner id)
    (hcustomer : ∀ kind obj row customer_id, eventFields event = .ok (.str kind, obj) →
      (py "customer.subscription.").isPrefixOf kind = true →
      subscriptionOwner rt db obj = .ok (some (row, customer_id)) → owner row.user_id) :
    WritesFor owner db (apply_event rt db now event) := by
  unfold apply_event
  split
  · exact WritesFor.same _
  · rename_i kind obj hfields
    split_ifs with hkind hprefix
    · subst hkind
      exact checkoutCompleted_writes fun id customer_id => hcheckout obj id customer_id hfields
    · refine ⟨subscriptionChanged_writes fun row customer_id =>
        hcustomer kind obj row customer_id hfields hprefix, fun checkout h => ?_⟩
      cases h
    · exact WritesFor.same _
  · exact WritesFor.same _

/-- Without an owner in view, all that is written is a row and its plan. -/
theorem finish_checkout_linked (rt : Runtime) (db : Store) (now : ℚ) (checkout : Checkout)
    (fetched : Except FetchError Json) :
    Linked db (finish_checkout rt db now checkout fetched).1 := by
  have hwrites : LinkedFor (fun _ => True) db (finish_checkout rt db now checkout fetched).1 :=
    finish_checkout_writes trivial fetched
  exact hwrites.linked

theorem apply_checkout_session_linked (rt : Runtime) (db : Store) (now : ℚ) (session : Json) :
    Linked db (apply_checkout_session rt db now session).1 := by
  have hwrites : WritesFor (fun _ => True) db (apply_checkout_session rt db now session) :=
    apply_checkout_session_writes fun _ _ _ => trivial
  exact hwrites.store.linked

theorem apply_event_linked (rt : Runtime) (db : Store) (now : ℚ) (event : Json) :
    Linked db (apply_event rt db now event).1 := by
  have hwrites : WritesFor (fun _ => True) db (apply_event rt db now event) :=
    apply_event_writes (fun _ _ _ _ _ => trivial) fun _ _ _ _ _ _ _ => trivial
  exact hwrites.store.linked

end Writes

/-- Events are recorded elsewhere. -/
theorem Linked.stripe_events {db db' : Store} (h : Linked db db') :
    db'.stripe_events = db.stripe_events := by
  rcases h with rfl | ⟨row, mid, hlink, rfl⟩
  · rfl
  · exact (Subscriptions.link_eq_ok hlink).2.2

/-! ## Plans and rows -/

/-- A user's plan follows from the row of the user, and is free without one. -/
structure Consistent (db : Store) : Prop where
  plan_of_row : ∀ user ∈ db.users, ∀ row ∈ db.subscriptions, row.user_id = user.id →
    user.plan = plan_for row.status
  free_without : ∀ user ∈ db.users, (∀ row ∈ db.subscriptions, row.user_id ≠ user.id) →
    user.plan = py "free"

/-- The plan that the subscriptions give a user. -/
def derivedPlan (db : Store) (user_id : Int) : PyStr :=
  match db.subscriptions.find? user_id with
  | some row => plan_for row.status
  | none => py "free"

/-- The column `users.plan` is a copy of what the subscriptions say. -/
theorem consistent_iff_derived {db : Store} :
    Consistent db ↔ ∀ user ∈ db.users, user.plan = derivedPlan db user.id := by
  constructor
  · intro h user huser
    unfold derivedPlan
    cases hrow : db.subscriptions.find? user.id with
    | none => exact h.free_without user huser (Table.find?_eq_none_iff.1 hrow)
    | some row =>
      obtain ⟨hmem, hid⟩ := Table.find?_eq_some hrow
      exact h.plan_of_row user huser row hmem hid
  · intro h
    constructor
    · intro user huser row hrow hid
      rw [h user huser, derivedPlan, Table.find?_eq_some_iff.2 ⟨hrow, hid⟩]
    · intro user huser hnone
      rw [h user huser, derivedPlan, Table.find?_eq_none_iff.2 hnone]

theorem consistent_empty : Consistent Store.empty where
  plan_of_row _ h := absurd h (Table.not_mem_empty _)
  free_without _ h := absurd h (Table.not_mem_empty _)

/-- Nothing but users and subscriptions matters. -/
theorem Consistent.congr {db db' : Store} (h : Consistent db) (husers : db'.users = db.users)
    (hsubs : db'.subscriptions = db.subscriptions) : Consistent db' := by
  constructor
  · rw [husers, hsubs]
    exact h.plan_of_row
  · rw [husers, hsubs]
    exact h.free_without

/-- A user who is new has no row, because a row belongs to a user. -/
theorem Consistent.keepsPlans {db db' : Store} (h : Consistent db)
    (hkeeps : Users.KeepsPlans db db') : Consistent db' := by
  constructor
  · intro user huser row hrow hid
    rw [hkeeps.subscriptions] at hrow
    rcases hkeeps.plans user huser with ⟨old, hold, hold_id, hplan⟩ | ⟨hfresh, -⟩
    · rw [← hplan]
      exact h.plan_of_row old hold row hrow (hid.trans hold_id.symm)
    · obtain ⟨owner, howner, howner_id⟩ := db.references_users row hrow
      exact absurd (howner_id.trans hid) (hfresh owner howner)
  · intro user huser hnone
    rw [hkeeps.subscriptions] at hnone
    rcases hkeeps.plans user huser with ⟨old, hold, hold_id, hplan⟩ | ⟨-, hfree⟩
    · rw [← hplan]
      apply h.free_without old hold
      intro row hrow hid
      exact hnone row hrow (hid.trans hold_id)
    · exact hfree

theorem Linked.consistent {db db' : Store} (h : Linked db db') (hdb : Consistent db) :
    Consistent db' := by
  rcases h with rfl | ⟨row, mid, hlink, rfl⟩
  · exact hdb
  · obtain ⟨husers, hsubs, -⟩ := Subscriptions.link_eq_ok hlink
    constructor
    · intro user huser other hother hid
      have hother' : other ∈ db.subscriptions.put row := hsubs ▸ hother
      rcases Users.mem_update.1 huser with ⟨huser, hne⟩ | ⟨old, hold, hkey, rfl⟩
      · rcases Table.mem_put.1 hother' with rfl | ⟨hother, -⟩
        · exact absurd hid.symm hne
        · exact hdb.plan_of_row user (husers ▸ huser) other hother hid
      · rcases Table.mem_put.1 hother' with rfl | ⟨-, hne⟩
        · rfl
        · exact absurd (hid.trans hkey) hne
    · intro user huser hnone
      have hrow : row ∈ mid.subscriptions := hsubs ▸ Table.mem_put.2 (Or.inl rfl)
      rcases Users.mem_update.1 huser with ⟨huser, hne⟩ | ⟨old, hold, hkey, rfl⟩
      · apply hdb.free_without user (husers ▸ huser)
        intro other hother hid
        have hkept : other ∈ mid.subscriptions :=
          hsubs ▸ Table.mem_put.2 (Or.inr ⟨hother, fun h => hne (hid.symm.trans h)⟩)
        exact hnone other hkept hid
      · exact absurd hkey.symm (hnone row hrow)

end Billing

end OpendssGateway
