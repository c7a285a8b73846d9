import OpendssGateway.Gateway.Applied

/-!
# Purchases and what follows from them

Checkouts, success pages and events of subscriptions, each applied to its
end before the next.  A user has one row, which the step applied last
decides.

* `Written` is what a step that is applied leaves.
* `deliverAll_linked` and `deliverAll_unlinked` are the two runs over the
  events of a customer: every event decides, or none does anything.
* `plan_follows_events_iff`: when the plan follows the events of a checkout.
* `last_delivery_decides`: what an order of delivery leaves.
* `plan_of_purchases`: a user with any number of subscriptions.
-/

namespace OpendssGateway

namespace Billing

/-! ## One step -/

/-- The row is there, with its plan, and all else is as before. -/
structure Written (db : Store) (row : Subscription) (db' : Store) : Prop where
  users : ∀ user, user ∈ db'.users ↔ user ∈ db.users ∧ user.id ≠ row.user_id ∨
    ∃ old ∈ db.users, old.id = row.user_id ∧ user = { old with plan := plan_for row.status }
  subscriptions : ∀ other, other ∈ db'.subscriptions ↔
    other = row ∨ other ∈ db.subscriptions ∧ other.user_id ≠ row.user_id

namespace Written

variable {db db' : Store} {row : Subscription}

theorem of_applied {mid : Store} (h : Applied mid row db') (husers : mid.users = db.users)
    (hsubscriptions : mid.subscriptions = db.subscriptions) : Written db row db' := by
  constructor
  · intro user
    rw [← husers]
    exact h.users
  · intro other
    rw [← hsubscriptions]
    exact h.subscriptions

theorem mem (h : Written db row db') : row ∈ db'.subscriptions :=
  (h.subscriptions row).2 (Or.inl rfl)

theorem plan (h : Written db row db') {user : User} (huser : user ∈ db'.users)
    (hid : user.id = row.user_id) : user.plan = plan_for row.status := by
  rcases (h.users user).1 huser with ⟨-, hne⟩ | ⟨old, -, -, rfl⟩
  · exact absurd hid hne
  · rfl

end Written

/-- A delivery of an event of a subscription of a customer. -/
structure SubscriptionEvent (rt : Runtime) (customer_id : PyStr) where
  webhook : Webhook
  kind : PyStr
  obj : Json
  customer : Json
  fields : eventFields webhook.event = .ok (.str kind, obj)
  ofSubscription : (py "customer.subscription.").isPrefixOf kind = true
  hasCustomer : obj.get "customer" = .ok customer
  truthy : customer.truthy = true
  ofCustomer : customer.toStr rt = customer_id

namespace SubscriptionEvent

variable {rt : Runtime} {customer_id : PyStr}

/-- The subscription that the event is applied with. -/
def sub (e : SubscriptionEvent rt customer_id) : Json :=
  eventSub e.kind e.obj

/-- The status that the event carries. -/
def status (e : SubscriptionEvent rt customer_id) : Except PyError Json :=
  if e.kind = py "customer.subscription.deleted" then .ok (.str (py "canceled"))
  else subStatus e.obj

/-- The plan of that status. -/
def plan (e : SubscriptionEvent rt customer_id) : Except PyError PyStr :=
  e.status >>= planForValue

theorem status_sub (e : SubscriptionEvent rt customer_id) : subStatus e.sub = e.status :=
  eventSub_status e.hasCustomer

/-- The row of an event has the plan of the event. -/
theorem plan_eq {e : SubscriptionEvent rt customer_id} {now : ℚ} {user_id : Int}
    {row : Subscription} (h : rowOf rt now user_id customer_id e.sub = .ok row) :
    e.plan = .ok (plan_for row.status) := by
  obtain ⟨-, -, -, status, hstatus, hplan⟩ := rowOf_eq_ok h
  rw [e.status_sub] at hstatus
  unfold plan
  rw [hstatus]
  exact hplan

/-- Deliver the event. -/
def deliver (rt : Runtime) {customer_id : PyStr} (db : Store)
    (e : SubscriptionEvent rt customer_id) : Option Store :=
  Billing.webhook rt db e.webhook

theorem deliver_linked {db db' : Store} {e : SubscriptionEvent rt customer_id}
    {old : Subscription} (hold : old ∈ db.subscriptions) (hcustomer : old.customer_id = customer_id)
    (h : e.deliver rt db = some db') :
    ∃ row, rowOf rt e.webhook.now old.user_id customer_id e.sub = .ok row ∧
      Written db row db' := by
  obtain ⟨mid, outcome, husers, hsubscriptions, happly⟩ := webhook_eq_some h
  rcases subscription_event_cases e.fields e.ofSubscription e.hasCustomer e.truthy happly with
    ⟨-, hnone⟩ | ⟨other, hother, hother_customer, row, hrow, happlied⟩
  · rw [hsubscriptions, e.ofCustomer] at hnone
    exact absurd hcustomer (hnone old hold)
  · rw [hsubscriptions] at hother
    rw [e.ofCustomer] at hother_customer hrow
    have huser := db.subscriptions_customer other hother old hold
      (hother_customer.trans hcustomer.symm)
    rw [huser] at hrow
    exact ⟨row, hrow, Written.of_applied happlied husers hsubscriptions⟩

theorem deliver_unlinked {db db' : Store} {e : SubscriptionEvent rt customer_id}
    (hnone : ∀ row ∈ db.subscriptions, row.customer_id ≠ customer_id)
    (h : e.deliver rt db = some db') :
    db'.users = db.users ∧ db'.subscriptions = db.subscriptions := by
  obtain ⟨mid, outcome, husers, hsubscriptions, happly⟩ := webhook_eq_some h
  rcases subscription_event_cases e.fields e.ofSubscription e.hasCustomer e.truthy happly with
    ⟨rfl, -⟩ | ⟨other, hother, hother_customer, -⟩
  · exact ⟨husers, hsubscriptions⟩
  · rw [hsubscriptions] at hother
    rw [e.ofCustomer] at hother_customer
    exact absurd hother_customer (hnone other hother)

end SubscriptionEvent

/-! ## The events of a customer -/

section Events

variable {rt : Runtime} {customer_id : PyStr}

/-- Deliver events one after the other. -/
def deliverAll (rt : Runtime) {customer_id : PyStr} (db : Store) :
    List (SubscriptionEvent rt customer_id) → Option Store
  | [] => some db
  | e :: rest => (e.deliver rt db).bind fun db => deliverAll rt db rest

/-- The events of a customer who is linked: the last one decides. -/
theorem deliverAll_linked {db db' : Store} {events : List (SubscriptionEvent rt customer_id)}
    {old : Subscription} (hold : old ∈ db.subscriptions) (hcustomer : old.customer_id = customer_id)
    (hne : events ≠ []) (h : deliverAll rt db events = some db') :
    ∃ row, rowOf rt (events.getLast hne).webhook.now old.user_id customer_id
        (events.getLast hne).sub = .ok row ∧
      row ∈ db'.subscriptions ∧
      (∀ user ∈ db'.users, user.id = old.user_id → user.plan = plan_for row.status) := by
  induction events generalizing db old with
  | nil => exact absurd rfl hne
  | cons e rest ih =>
    obtain ⟨mid, hmid, hrest⟩ := Option.bind_eq_some_iff.1 h
    obtain ⟨row, hrow, hwritten⟩ := SubscriptionEvent.deliver_linked hold hcustomer hmid
    obtain ⟨huser, hrow_customer, -⟩ := rowOf_eq_ok hrow
    by_cases hlast : rest = []
    · subst hlast
      cases hrest
      refine ⟨row, hrow, hwritten.mem, fun user hmem hid => ?_⟩
      exact hwritten.plan hmem (hid.trans huser.symm)
    · have hnext := ih hwritten.mem hrow_customer hlast hrest
      rw [List.getLast_cons hlast]
      rw [huser] at hnext
      exact hnext

/-- The events of a customer who is not: they change nothing. -/
theorem deliverAll_unlinked {db db' : Store} {events : List (SubscriptionEvent rt customer_id)}
    (hnone : ∀ row ∈ db.subscriptions, row.customer_id ≠ customer_id)
    (h : deliverAll rt db events = some db') :
    db'.users = db.users ∧ db'.subscriptions = db.subscriptions := by
  induction events generalizing db with
  | nil =>
    cases h
    exact ⟨rfl, rfl⟩
  | cons e rest ih =>
    obtain ⟨mid, hmid, hrest⟩ := Option.bind_eq_some_iff.1 h
    obtain ⟨husers, hsubscriptions⟩ := SubscriptionEvent.deliver_unlinked hnone hmid
    rw [← hsubscriptions] at hnone
    rw [← husers, ← hsubscriptions]
    exact ih hnone hrest

/-- Any order of delivery leaves the row and the plan of the event delivered last.  The
row depends on the time of that delivery only in `updated`. -/
theorem last_delivery_decides {db db' : Store} {order : List (SubscriptionEvent rt customer_id)}
    {old : Subscription} (hold : old ∈ db.subscriptions) (hcustomer : old.customer_id = customer_id)
    (hne : order ≠ []) (h : deliverAll rt db order = some db') :
    ∃ row, rowOf rt 0 old.user_id customer_id (order.getLast hne).sub = .ok row ∧
      db'.subscriptions.find? old.user_id =
        some { row with updated := (order.getLast hne).webhook.now } ∧
      (∀ user ∈ db'.users, user.id = old.user_id →
        user.plan = plan_for row.status ∧ (order.getLast hne).plan = .ok user.plan) := by
  obtain ⟨row, hrow, hmem, hplan⟩ := deliverAll_linked hold hcustomer hne h
  obtain ⟨huser, -, hupdated, -⟩ := rowOf_eq_ok hrow
  refine ⟨_, rowOf_now hrow 0, ?_, fun user hmem_user hid => ?_⟩
  · rw [Table.find?_eq_some_iff]
    rw [← hupdated]
    exact ⟨hmem, huser⟩
  · rw [hplan user hmem_user hid]
    exact ⟨rfl, SubscriptionEvent.plan_eq hrow⟩

/-- The plan of a user follows the events of a checkout of the user exactly when the
payment was settled, or the customer was linked before, or the plan was the right one
before. -/
theorem plan_follows_events_iff {db db₁ db₂ : Store} {w : Webhook} {session : Json}
    {user_id : Int} {events : List (SubscriptionEvent rt customer_id)} {user user' : User}
    (hevent : eventFields w.event = .ok (.str (py "checkout.session.completed"), session))
    (howner : checkoutOwner rt db session = .ok (some (user_id, customer_id)))
    (hfree : ∀ row ∈ db.subscriptions, row.customer_id = customer_id → row.user_id = user_id)
    (hcheckout : webhook rt db w = some db₁) (hne : events ≠ [])
    (hdelivered : deliverAll rt db₁ events = some db₂)
    (huser : user ∈ db.users) (hid : user.id = user_id)
    (huser' : user' ∈ db₂.users) (hid' : user'.id = user_id) :
    (events.getLast hne).plan = .ok user'.plan ↔
      settled session = true ∨ (∃ row ∈ db.subscriptions, row.customer_id = customer_id) ∨
        (events.getLast hne).plan = .ok user.plan := by
  -- once the customer is linked, the events decide
  have hlinked : ∀ {db : Store} {old : Subscription}, old ∈ db.subscriptions →
      old.customer_id = customer_id → old.user_id = user_id →
      deliverAll rt db events = some db₂ → (events.getLast hne).plan = .ok user'.plan := by
    intro db old hold hcustomer hold_user hall
    obtain ⟨row, hrow, -, hplan⟩ := deliverAll_linked hold hcustomer hne hall
    rw [SubscriptionEvent.plan_eq hrow, hplan user' huser' (hid'.trans hold_user.symm)]
  obtain ⟨mid, outcome, husers, hsubscriptions, happly⟩ := webhook_eq_some hcheckout
  cases hsettled : settled session with
  | true =>
    rw [← checkoutOwner_congr husers] at howner
    obtain ⟨time, row, hrow, happlied⟩ := checkout_settled hevent howner hsettled happly
    obtain ⟨hrow_user, hrow_customer, -⟩ := rowOf_eq_ok hrow
    have hwritten : Written mid row db₁ := Written.of_applied happlied rfl rfl
    exact ⟨fun _ => Or.inl rfl,
      fun _ => hlinked hwritten.mem hrow_customer hrow_user hdelivered⟩
  | false =>
    have hsame := checkout_pending hevent hsettled happly
    subst hsame
    by_cases hexists : ∃ row ∈ db.subscriptions, row.customer_id = customer_id
    · obtain ⟨row, hrow, hrow_customer⟩ := hexists
      have hrow_user := hfree row hrow hrow_customer
      refine ⟨fun _ => Or.inr (Or.inl ⟨row, hrow, hrow_customer⟩), fun _ => ?_⟩
      rw [← hsubscriptions] at hrow
      exact hlinked hrow hrow_customer hrow_user hdelivered
    · have hnone : ∀ row ∈ db₁.subscriptions, row.customer_id ≠ customer_id := by
        intro row hrow hrow_customer
        rw [hsubscriptions] at hrow
        exact hexists ⟨row, hrow, hrow_customer⟩
      obtain ⟨husers', -⟩ := deliverAll_unlinked hnone hdelivered
      have hsame : user' = user := by
        rw [husers', husers] at huser'
        exact Table.eq_of_key huser' huser (hid'.trans hid.symm)
      subst hsame
      constructor
      · intro hplan
        exact Or.inr (Or.inr hplan)
      · rintro (hfalse | hlink | hplan)
        · cases hfalse
        · exact absurd hlink hexists
        · exact hplan

end Events

/-! ## Any number of subscriptions of one user -/

theorem plan_pro_iff {status : Json} {plan : PyStr} (h : planForValue status = .ok plan) :
    plan = py "pro" ↔ isPro status = true := by
  have hfree : (py "free" = py "pro") = False := by decide
  cases status with
  | str s =>
    cases h
    unfold plan_for isPro
    split_ifs with hs
    · simp [hs]
    · simp [hs, hfree]
  | arr items => cases h
  | obj members => cases h
  | null => cases h; simp [isPro, hfree]
  | bool b => cases h; simp [isPro, hfree]
  | int n => cases h; simp [isPro, hfree]
  | float x => cases h; simp [isPro, hfree]

/-- A step about a user: a completed checkout, the success page, or an event. -/
inductive Purchase (rt : Runtime)
  | checkout (w : Webhook) (session : Json)
      (fields : eventFields w.event = .ok (.str (py "checkout.session.completed"), session))
  | success (now fetchedAt : ℚ) (session fetched : Json)
  | event (customer_id : PyStr) (e : SubscriptionEvent rt customer_id)

/-- The store.  `reports` and `applied` are history: the id and the status of every
subscription that a step told of, and the status that was applied last. -/
structure Purchases where
  store : Store
  reports : List (PyStr × Json)
  applied : Option Json

namespace Purchases

variable (rt : Runtime) (user_id : Int)

/-- The session references the user. -/
def references (db : Store) (session : Json) : Bool :=
  match checkoutOwner rt db session with
  | .ok (some (owner, _)) => owner = user_id
  | _ => false

/-- The customer of an event has a row. -/
def linked (db : Store) (customer_id : PyStr) : Bool :=
  (db.subscriptions.rows.find? fun row => row.customer_id = customer_id).isSome

/-- A customer of another user's is not bought through the user's checkouts. -/
def ownCustomer (db : Store) (customer_id : PyStr) : Bool :=
  match db.subscriptions.rows.find? fun row => row.customer_id = customer_id with
  | some row => row.user_id = user_id
  | none => true

/-- The subscription that a step tells of, and whether the step is applied. -/
def told (db : Store) : Purchase rt → Option (Json × Bool)
  | .checkout w session _ =>
    if settled session then some (checkoutSub session w.fetched, true) else none
  | .success _ _ session fetched =>
    match confirmed rt user_id session with
    | .ok true => some (checkoutSub session fetched, true)
    | _ => none
  | .event customer_id e => some (e.sub, linked db customer_id)

def report (sub : Json) : PyStr × Json :=
  (match (sub.or (.obj [])).get "id" with
    | .ok id => id.toStr rt
    | .error _ => [],
   match subStatus sub with
    | .ok status => status
    | .error _ => .null)

/-- Apply a step to its end. -/
def perform (db : Store) : Purchase rt → Option Store
  | .checkout w session _ =>
    if references rt user_id db session then webhook rt db w else none
  | .success now fetchedAt session fetched =>
    if references rt user_id db session then
      successPage rt db now fetchedAt user_id session fetched
    else none
  | .event customer_id e =>
    if ownCustomer user_id db customer_id then e.deliver rt db else none

def next (p : Purchases) (a : Purchase rt) : Option Purchases :=
  (perform rt user_id p.store a).map fun store =>
    match told rt user_id p.store a with
    | none => { p with store }
    | some (sub, applies) =>
      { store
        reports := p.reports ++ [report rt sub]
        applied := if applies then some (report rt sub).2 else p.applied }

def init (db : Store) : Purchases where
  store := db
  reports := []
  applied := none

def machine (db : Store) : Transition.Machine Purchases (Purchase rt) where
  init := init db
  next := next rt user_id

/-- The most recent status of a subscription. -/
def latest (reports : List (PyStr × Json)) (id : PyStr) : Option Json :=
  (reports.reverse.find? fun report => report.1 = id).map Prod.snd

/-- A subscription has a status of Pro. -/
def SomePro (reports : List (PyStr × Json)) : Prop :=
  ∃ id status, latest reports id = some status ∧ isPro status = true

/-- Another subscription has. -/
def OtherPro (reports : List (PyStr × Json)) (id : PyStr) : Prop :=
  ∃ other status, other ≠ id ∧ latest reports other = some status ∧ isPro status = true

/-- A step that is applied takes no Pro away that another subscription gives, and one
that is not applied does not change whether there is any. -/
def Undisturbed (p : Purchases) (a : Purchase rt) : Prop :=
  match told rt user_id p.store a with
  | none => True
  | some (sub, true) =>
    isPro (report rt sub).2 = true ∨ ¬ OtherPro p.reports (report rt sub).1
  | some (sub, false) =>
    SomePro p.reports ↔ isPro (report rt sub).2 = true ∨ OtherPro p.reports (report rt sub).1

end Purchases

section Plans

open Purchases

variable {rt : Runtime} {user_id : Int}

theorem latest_append (reports : List (PyStr × Json)) (report : PyStr × Json) (id : PyStr) :
    latest (reports ++ [report]) id =
      if report.1 = id then some report.2 else latest reports id := by
  unfold latest
  rw [List.reverse_append]
  by_cases hid : report.1 = id
  · simp [hid]
  · simp [hid]

theorem somePro_append (reports : List (PyStr × Json)) (report : PyStr × Json) :
    SomePro (reports ++ [report]) ↔ isPro report.2 = true ∨ OtherPro reports report.1 := by
  constructor
  · rintro ⟨id, status, hlatest, hpro⟩
    rw [latest_append] at hlatest
    split_ifs at hlatest with hid
    · cases hlatest
      exact Or.inl hpro
    · exact Or.inr ⟨id, status, fun h => hid h.symm, hlatest, hpro⟩
  · rintro (hpro | ⟨id, status, hne, hlatest, hpro⟩)
    · exact ⟨report.1, report.2, by rw [latest_append, if_pos rfl], hpro⟩
    · refine ⟨id, status, ?_, hpro⟩
      rw [latest_append, if_neg fun h => hne h.symm]
      exact hlatest

/-- The user has the plan of the status that was applied last. -/
def FollowsApplied (user_id : Int) (p : Purchases) : Prop :=
  ∀ user ∈ p.store.users, user.id = user_id →
    (user.plan = py "pro" ↔ ∃ status, p.applied = some status ∧ isPro status = true)

theorem report_status {sub status : Json} (h : subStatus sub = .ok status) :
    (report rt sub).2 = status := by
  unfold report
  rw [h]

theorem references_eq_true {db : Store} {session : Json}
    (h : references rt user_id db session = true) :
    ∃ customer_id, checkoutOwner rt db session = .ok (some (user_id, customer_id)) := by
  unfold references at h
  split at h
  · rename_i owner customer_id howner
    have hid : owner = user_id := by simpa using h
    exact ⟨customer_id, by rw [howner, hid]⟩
  · cases h

/-- The row of a subscription carries the plan of the status that the step told of. -/
theorem rowOf_told {now : ℚ} {customer_id : PyStr} {sub : Json} {row : Subscription}
    (h : rowOf rt now user_id customer_id sub = .ok row) :
    row.user_id = user_id ∧ planForValue (report rt sub).2 = .ok (plan_for row.status) := by
  obtain ⟨huser, -, -, status, hstatus, hplan⟩ := rowOf_eq_ok h
  rw [report_status hstatus]
  exact ⟨huser, hplan⟩

/-- A step applies the status it tells of, or leaves the users alone. -/
theorem perform_cases {db db' : Store} {a : Purchase rt}
    (h : perform rt user_id db a = some db') :
    (∃ sub row, told rt user_id db a = some (sub, true) ∧ Written db row db' ∧
      row.user_id = user_id ∧ planForValue (report rt sub).2 = .ok (plan_for row.status)) ∨
    (∀ sub, told rt user_id db a ≠ some (sub, true)) ∧ db'.users = db.users := by
  cases a with
  | checkout w session fields =>
    simp only [perform] at h
    split_ifs at h with howned
    obtain ⟨customer_id, howner⟩ := references_eq_true howned
    obtain ⟨mid, outcome, husers, hsubscriptions, happly⟩ := webhook_eq_some h
    cases hsettled : settled session with
    | true =>
      rw [← checkoutOwner_congr husers] at howner
      obtain ⟨time, row, hrow, happlied⟩ := checkout_settled fields howner hsettled happly
      obtain ⟨huser, hplan⟩ := rowOf_told hrow
      exact Or.inl ⟨_, row, if_pos hsettled,
        Written.of_applied happlied husers hsubscriptions, huser, hplan⟩
    | false =>
      rw [checkout_pending fields hsettled happly]
      refine Or.inr ⟨fun sub => ?_, husers⟩
      simp [told, hsettled]
  | success now fetchedAt session fetched =>
    simp only [perform] at h
    split_ifs at h with howned
    obtain ⟨customer_id, howner⟩ := references_eq_true howned
    unfold successPage at h
    cases hconfirmed : confirmed rt user_id session with
    | error e =>
      rw [hconfirmed] at h
      cases h
    | ok paid =>
      rw [hconfirmed] at h
      cases paid with
      | false =>
        cases h
        refine Or.inr ⟨fun sub => ?_, rfl⟩
        simp [told, hconfirmed]
      | true =>
        obtain ⟨time, row, hrow, happlied⟩ := checkoutToEnd_eq_some howner h
        obtain ⟨huser, hplan⟩ := rowOf_told hrow
        refine Or.inl ⟨checkoutSub session fetched, row, ?_,
          Written.of_applied happlied rfl rfl, huser, hplan⟩
        simp [told, hconfirmed]
  | event customer_id e =>
    simp only [perform] at h
    split_ifs at h with hown
    cases hfind : db.subscriptions.rows.find? fun row => row.customer_id = customer_id with
    | some old =>
      obtain ⟨hold, hcustomer⟩ := Subscriptions.find_customer_iff.1 hfind
      have hold_user : old.user_id = user_id := by
        unfold ownCustomer at hown
        rw [hfind] at hown
        simpa using hown
      obtain ⟨row, hrow, hwritten⟩ := SubscriptionEvent.deliver_linked hold hcustomer h
      rw [hold_user] at hrow
      obtain ⟨huser, hplan⟩ := rowOf_told hrow
      refine Or.inl ⟨e.sub, row, ?_, hwritten, huser, hplan⟩
      simp [told, linked, hfind]
    | none =>
      have hnone : ∀ row ∈ db.subscriptions, row.customer_id ≠ customer_id := by
        simpa [Table.mem_def] using hfind
      refine Or.inr ⟨fun sub => ?_, (SubscriptionEvent.deliver_unlinked hnone h).1⟩
      simp [told, linked, hfind]

theorem next_followsApplied {p p' : Purchases} {a : Purchase rt} (hp : FollowsApplied user_id p)
    (hnext : Purchases.next rt user_id p a = some p') : FollowsApplied user_id p' := by
  obtain ⟨store, hperform, rfl⟩ := Option.map_eq_some_iff.1 hnext
  rcases perform_cases hperform with ⟨sub, row, htold, hwritten, huser, hplan⟩ | ⟨htold, husers⟩
  · intro user hmem hid
    rw [htold] at hmem ⊢
    rw [hwritten.plan hmem (hid.trans huser.symm), plan_pro_iff hplan]
    simp
  · intro user hmem hid
    cases hcase : told rt user_id p.store a with
    | none =>
      rw [hcase] at hmem
      exact hp user (husers ▸ hmem) hid
    | some result =>
      obtain ⟨sub, applies⟩ := result
      rw [hcase] at hmem
      cases applies with
      | true => exact absurd hcase (htold sub)
      | false => exact hp user (husers ▸ hmem) hid

/-- The user is on Pro exactly when some subscription has a status of Pro. -/
def FollowsReports (user_id : Int) (p : Purchases) : Prop :=
  ∀ user ∈ p.store.users, user.id = user_id → (user.plan = py "pro" ↔ SomePro p.reports)

/-- An undisturbed step keeps the plan in step with the subscriptions. -/
theorem next_followsReports {p p' : Purchases} {a : Purchase rt} (hp : FollowsReports user_id p)
    (hundisturbed : Undisturbed rt user_id p a) (hnext : Purchases.next rt user_id p a = some p') :
    FollowsReports user_id p' := by
  obtain ⟨store, hperform, rfl⟩ := Option.map_eq_some_iff.1 hnext
  unfold Undisturbed at hundisturbed
  rcases perform_cases hperform with ⟨sub, row, htold, hwritten, huser, hplan⟩ | ⟨htold, husers⟩
  · intro user hmem hid
    rw [htold] at hmem hundisturbed ⊢
    rw [hwritten.plan hmem (hid.trans huser.symm), plan_pro_iff hplan, somePro_append]
    constructor
    · exact Or.inl
    · intro hany
      rcases hundisturbed with hpro | hother
      · exact hpro
      · exact hany.resolve_right hother
  · intro user hmem hid
    cases hcase : told rt user_id p.store a with
    | none =>
      rw [hcase] at hmem
      exact hp user (husers ▸ hmem) hid
    | some result =>
      obtain ⟨sub, applies⟩ := result
      rw [hcase] at hmem hundisturbed
      cases applies with
      | true => exact absurd hcase (htold sub)
      | false =>
        show user.plan = py "pro" ↔ SomePro (p.reports ++ [report rt sub])
        rw [somePro_append, hp user (husers ▸ hmem) hid]
        exact hundisturbed

/-- From a user on the free plan without a subscription: the user is on Pro exactly when
the status applied last is one of Pro.  While the steps are undisturbed, this is so
exactly when some subscription of the user's has a status of Pro. -/
theorem plan_of_purchases {db : Store} {p : Purchases}
    (hfree : ∀ user ∈ db.users, user.id = user_id → user.plan = py "free") :
    ((Purchases.machine rt user_id db).Reachable p →
      ∀ user ∈ p.store.users, user.id = user_id →
        (user.plan = py "pro" ↔ ∃ status, p.applied = some status ∧ isPro status = true)) ∧
    ((Purchases.machine rt user_id db).ReachableBy (Undisturbed rt user_id) p →
      ∀ user ∈ p.store.users, user.id = user_id →
        (user.plan = py "pro" ↔ SomePro p.reports)) := by
  have hinit : ∀ user ∈ db.users, user.id = user_id → user.plan ≠ py "pro" := by
    intro user huser hid
    rw [hfree user huser hid]
    decide
  constructor
  · intro h
    refine h.invariant (FollowsApplied user_id) ?_ fun _ _ _ hp _ hnext =>
      next_followsApplied hp hnext
    intro user huser hid
    simpa [Purchases.machine, Purchases.init] using hinit user huser hid
  · intro h
    refine h.invariant (FollowsReports user_id) ?_ fun _ _ _ hp hstep hnext =>
      next_followsReports hp hstep hnext
    intro user huser hid
    simpa [Purchases.machine, Purchases.init, SomePro, latest] using hinit user huser hid

end Plans

/-! ## Runs -/

/-- A store with one user. -/
def payerStore : Store :=
  (Users.sign_in plainRuntime Store.empty 0 (py "email") (py "payer@example.com")
    (py "payer@example.com") none).1

def payer : User where
  id := 1
  email := py "payer@example.com"
  name := none
  plan := py "free"
  created := 0
  last_seen := 0
  session_epoch := 0
  disabled := false

theorem payerStore_users : payerStore.users.rows = [payer] := rfl

def checkoutSession (payment_status customer subscription : String) : Json :=
  dict [("mode", text "subscription"), ("payment_status", text payment_status),
    ("customer", text customer), ("subscription", text subscription),
    ("client_reference_id", text "1")]

/-- A completed checkout of user 1, and the subscription that Stripe has for it. -/
def checkoutOf (event_id payment_status customer subscription : String) : Webhook where
  now := 1
  event := dict [("id", text event_id), ("type", text "checkout.session.completed"),
    ("data", dict [("object", checkoutSession payment_status customer subscription)])]
  fetchedAt := 2
  fetched := dict [("id", text subscription), ("status", text "active")]

def subscriptionOf (customer subscription status : String) : Json :=
  dict [("id", text subscription), ("customer", text customer), ("status", text status)]

/-- An event of a subscription, and when it was created. -/
def eventOf (event_id kind : String) (created : Int) (customer subscription status : String) :
    Webhook where
  now := 3
  event := dict [("id", text event_id), ("type", text kind), ("created", .int created),
    ("data", dict [("object", subscriptionOf customer subscription status)])]
  fetchedAt := 3
  fetched := .null

/-- `sub_1` is active. -/
def updated : SubscriptionEvent plainRuntime (py "cus_1") where
  webhook := eventOf "evt_2" "customer.subscription.updated" 2 "cus_1" "sub_1" "active"
  kind := py "customer.subscription.updated"
  obj := subscriptionOf "cus_1" "sub_1" "active"
  customer := text "cus_1"
  fields := rfl
  ofSubscription := rfl
  hasCustomer := rfl
  truthy := rfl
  ofCustomer := rfl

/-- `sub_1` has ended, after `updated`. -/
def deleted : SubscriptionEvent plainRuntime (py "cus_1") where
  webhook := eventOf "evt_3" "customer.subscription.deleted" 3 "cus_1" "sub_1" "canceled"
  kind := py "customer.subscription.deleted"
  obj := subscriptionOf "cus_1" "sub_1" "canceled"
  customer := text "cus_1"
  fields := rfl
  ofSubscription := rfl
  hasCustomer := rfl
  truthy := rfl
  ofCustomer := rfl

/-- The plans of the users. -/
def plans (db : Store) : List PyStr :=
  db.users.rows.map User.plan

/-- The store after the paid checkout of `sub_1`. -/
def paidStore : Store :=
  (webhook plainRuntime payerStore (checkoutOf "evt_1" "paid" "cus_1" "sub_1")).getD payerStore

/-- The store after `sub_1` has ended as well. -/
def endedStore : Store :=
  (deliverAll plainRuntime paidStore [deleted]).getD paidStore

theorem plan_follows_events_iff_paid :
    plans endedStore = [py "free"] ∧
      ∀ user' ∈ endedStore.users, user'.id = 1 →
        (deleted.plan = .ok user'.plan ↔
          settled (checkoutSession "paid" "cus_1" "sub_1") = true ∨
            (∃ row ∈ payerStore.subscriptions, row.customer_id = py "cus_1") ∨
            deleted.plan = .ok payer.plan) := by
  have hpayer : payer ∈ payerStore.users := by
    rw [Table.mem_def, payerStore_users]
    exact List.mem_singleton_self payer
  have hcheckout : webhook plainRuntime payerStore (checkoutOf "evt_1" "paid" "cus_1" "sub_1") =
      some paidStore := Transition.eq_some_getD payerStore (by decide +kernel)
  have hdelivered : deliverAll plainRuntime paidStore [deleted] = some endedStore :=
    Transition.eq_some_getD paidStore (by decide +kernel)
  refine ⟨by decide +kernel, fun user' huser' hid' => ?_⟩
  have hne : [deleted] ≠ [] := List.cons_ne_nil _ _
  have hiff := @plan_follows_events_iff plainRuntime (py "cus_1") payerStore paidStore endedStore
    (checkoutOf "evt_1" "paid" "cus_1" "sub_1") (checkoutSession "paid" "cus_1" "sub_1") 1
    [deleted] payer user' rfl (by decide +kernel) (fun row hrow => absurd hrow List.not_mem_nil)
    hcheckout hne
    hdelivered hpayer rfl huser' hid'
  exact hiff

/-- The checkout is pending when it is completed, so its customer is never linked. -/
theorem pending_checkout_is_lost :
    checkoutOwner plainRuntime payerStore (checkoutSession "unpaid" "cus_1" "sub_1") =
        .ok (some (1, py "cus_1")) ∧
      payerStore.subscriptions.rows.length = 0 ∧
      ((webhook plainRuntime payerStore (checkoutOf "evt_1" "unpaid" "cus_1" "sub_1")).bind
          fun db => deliverAll plainRuntime db [updated]).map plans = some [py "free"] ∧
      updated.plan = .ok (py "pro") :=
  ⟨by decide +kernel, by decide +kernel, by decide +kernel, rfl⟩

/-- The store after the two events, in the order in which they were not created. -/
def staleStore : Store :=
  (deliverAll plainRuntime paidStore [deleted, updated]).getD paidStore

theorem last_delivery_decides_stale :
    ∃ old ∈ paidStore.subscriptions, ∃ row,
      rowOf plainRuntime 0 old.user_id (py "cus_1") updated.sub = .ok row ∧
      staleStore.subscriptions.find? old.user_id = some { row with updated := 3 } ∧
      ∀ user ∈ staleStore.users, user.id = old.user_id →
        user.plan = plan_for row.status ∧ updated.plan = .ok user.plan := by
  have hcustomers : paidStore.subscriptions.rows.map Subscription.customer_id = [py "cus_1"] := by
    decide +kernel
  have hcustomer : py "cus_1" ∈ paidStore.subscriptions.rows.map Subscription.customer_id := by
    rw [hcustomers]
    exact List.mem_singleton_self _
  obtain ⟨old, hold, hold_customer⟩ := List.mem_map.1 hcustomer
  have hdelivered : deliverAll plainRuntime paidStore [deleted, updated] = some staleStore :=
    Transition.eq_some_getD paidStore (by decide +kernel)
  exact ⟨old, hold,
    last_delivery_decides hold hold_customer (List.cons_ne_nil deleted [updated]) hdelivered⟩

/-- The event created before the end of the subscription is delivered after it, and the
user stays on Pro. -/
theorem stale_update_wins :
    (deliverAll plainRuntime paidStore [updated, deleted]).map plans = some [py "free"] ∧
      (deliverAll plainRuntime paidStore [deleted, updated]).map plans = some [py "pro"] := by
  constructor <;> decide +kernel

/-- The end of `sub_2`, of another customer. -/
def otherDeleted : SubscriptionEvent plainRuntime (py "cus_2") where
  webhook := eventOf "evt_5" "customer.subscription.deleted" 5 "cus_2" "sub_2" "canceled"
  kind := py "customer.subscription.deleted"
  obj := subscriptionOf "cus_2" "sub_2" "canceled"
  customer := text "cus_2"
  fields := rfl
  ofSubscription := rfl
  hasCustomer := rfl
  truthy := rfl
  ofCustomer := rfl

/-- Two checkouts in two tabs. -/
def twoCheckouts : List (Purchase plainRuntime) :=
  [.checkout (checkoutOf "evt_1" "paid" "cus_1" "sub_1")
      (checkoutSession "paid" "cus_1" "sub_1") rfl,
    .checkout (checkoutOf "evt_4" "paid" "cus_2" "sub_2")
      (checkoutSession "paid" "cus_2" "sub_2") rfl]

/-- The state after the two checkouts. -/
def afterTwo : Purchases :=
  ((Purchases.machine plainRuntime 1 payerStore).run (Purchases.init payerStore)
    twoCheckouts).getD (Purchases.init payerStore)

theorem payer_free : ∀ user ∈ payerStore.users, user.id = 1 → user.plan = py "free" := by
  intro user huser _
  rw [Table.mem_def, payerStore_users] at huser
  rw [List.mem_singleton.1 huser]
  rfl

/-- The state after the first checkout alone. -/
def afterOne : Purchases :=
  (Purchases.next plainRuntime 1 (Purchases.init payerStore)
    (.checkout (checkoutOf "evt_1" "paid" "cus_1" "sub_1")
      (checkoutSession "paid" "cus_1" "sub_1") rfl)).getD (Purchases.init payerStore)

/-- The state after its subscription has ended. -/
def endedOne : Purchases :=
  (Purchases.next plainRuntime 1 afterOne (.event (py "cus_1") deleted)).getD afterOne

/-- The only subscription of a user may end: no other one gives Pro. -/
theorem endedOne_undisturbed :
    (Purchases.machine plainRuntime 1 payerStore).ReachableBy
      (Purchases.Undisturbed plainRuntime 1) endedOne := by
  have hpaid : Purchases.next plainRuntime 1 (Purchases.init payerStore)
      (.checkout (checkoutOf "evt_1" "paid" "cus_1" "sub_1")
        (checkoutSession "paid" "cus_1" "sub_1") rfl) = some afterOne :=
    Transition.eq_some_getD _ (by decide +kernel)
  have hended : (Purchases.machine plainRuntime 1 payerStore).next afterOne
      (.event (py "cus_1") deleted) = some endedOne := Transition.eq_some_getD _ (by decide +kernel)
  have hids : afterOne.reports.map Prod.fst = [py "sub_1"] := by decide +kernel
  have hlinked : Purchases.linked afterOne.store (py "cus_1") = true := by decide +kernel
  have hpro : Purchases.Undisturbed plainRuntime 1 (Purchases.init payerStore)
      (.checkout (checkoutOf "evt_1" "paid" "cus_1" "sub_1")
        (checkoutSession "paid" "cus_1" "sub_1") rfl) :=
    Or.inl (by decide +kernel)
  have hone : (Purchases.machine plainRuntime 1 payerStore).ReachableBy
      (Purchases.Undisturbed plainRuntime 1) afterOne :=
    Transition.Machine.ReachableBy.init.step hpro hpaid
  refine hone.step ?_ hended
  unfold Purchases.Undisturbed Purchases.told
  dsimp only
  rw [hlinked]
  refine Or.inr ?_
  rintro ⟨other, status, hne, hlatest, -⟩
  obtain ⟨report, hreport, -⟩ := Option.map_eq_some_iff.1 hlatest
  have hmem : report.1 ∈ afterOne.reports.map Prod.fst :=
    List.mem_map_of_mem (List.mem_reverse.1 (List.mem_of_find?_eq_some hreport))
  have hother : report.1 = other := by simpa using List.find?_some hreport
  rw [hids, hother] at hmem
  exact hne (List.mem_singleton.1 hmem)

theorem plan_of_purchases_two :
    (plans afterTwo.store = [py "pro"] ∧
      ∀ user ∈ afterTwo.store.users, user.id = 1 →
        (user.plan = py "pro" ↔
          ∃ status, afterTwo.applied = some status ∧ isPro status = true)) ∧
    plans endedOne.store = [py "free"] ∧
      ∀ user ∈ endedOne.store.users, user.id = 1 →
        (user.plan = py "pro" ↔ Purchases.SomePro endedOne.reports) := by
  have hrun : (Purchases.machine plainRuntime 1 payerStore).run (Purchases.init payerStore)
      twoCheckouts = some afterTwo := Transition.eq_some_getD _ (by decide +kernel)
  exact ⟨⟨by decide +kernel,
      (plan_of_purchases payer_free).1 (Transition.Machine.reachable_of_run hrun)⟩,
    by decide +kernel, (plan_of_purchases payer_free).2 endedOne_undisturbed⟩

/-- The state after the second subscription has ended. -/
def afterEnd : Purchases :=
  ((Purchases.machine plainRuntime 1 payerStore).run afterTwo
    [.event (py "cus_2") otherDeleted]).getD afterTwo

/-- The first subscription is active, and the user is on the free plan. -/
theorem paying_user_loses_pro :
    ¬ ∀ p, (Purchases.machine plainRuntime 1 payerStore).Reachable p →
      ∀ user ∈ p.store.users, user.id = 1 →
        (user.plan = py "pro" ↔ Purchases.SomePro p.reports) := by
  intro h
  have hrun : (Purchases.machine plainRuntime 1 payerStore).run (Purchases.init payerStore)
      twoCheckouts = some afterTwo := Transition.eq_some_getD _ (by decide +kernel)
  have hend : (Purchases.machine plainRuntime 1 payerStore).run afterTwo
      [.event (py "cus_2") otherDeleted] = some afterEnd :=
    Transition.eq_some_getD _ (by decide +kernel)
  have hreachable := Transition.Machine.ReachableBy.of_run
    (Transition.Machine.reachable_of_run hrun) (fun _ _ _ => trivial) hend
  have hplans : (afterEnd.store.users.rows.map fun user => (user.id, user.plan)) =
      [(1, py "free")] := by decide +kernel
  have hlatest : ((Purchases.latest afterEnd.reports (py "sub_1")).map isPro) = some true := by
    decide +kernel
  obtain ⟨status, hstatus, hpro⟩ := Option.map_eq_some_iff.1 hlatest
  have hmem : ((1 : Int), py "free") ∈
      afterEnd.store.users.rows.map fun user => (user.id, user.plan) := by
    rw [hplans]
    exact List.mem_singleton_self _
  obtain ⟨user, huser, hpair⟩ := List.mem_map.1 hmem
  obtain ⟨hid, hplan⟩ := Prod.mk.inj hpair
  have hcontra := (h afterEnd hreachable user huser hid).2 ⟨_, status, hstatus, hpro⟩
  rw [hplan] at hcontra
  exact absurd hcontra (by decide)

end Billing

end OpendssGateway
