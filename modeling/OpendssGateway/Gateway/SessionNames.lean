import OpendssGateway.Gateway.OAuthUrls
import OpendssGateway.Gateway.Payments
import OpendssGateway.Gateway.Purchases

/-!
# The session that a visitor names

`billing_success` puts the `session_id` of a visitor into the URL of the
request to Stripe as it is.  A name with a question mark brings its own query
(`splitUrl_session_id`), and with it a visitor can ask that the customer of the
session is expanded.

`expanded_customer_is_lost` is what follows: the row has the text of an object
for its customer, which no event of the customer finds again.
-/

namespace OpendssGateway

namespace Billing

/-! ## The URL -/

/-- The URL that `checkout_session` requests. -/
def checkoutSessionUrl (session_id : PyStr) : PyStr :=
  py "/v1/checkout/sessions/" ++ session_id

/-- The path and the query of a URL. -/
def splitUrl (url : PyStr) : PyStr × PyStr :=
  (url.takeWhile fun c => c ≠ 35 ∧ c ≠ 63, queryOf url)

/-- The session that Stripe answers with for the `session_id` of a visitor.  `answers` takes
the path and the query of a request. -/
def namedSession (answers : PyStr × PyStr → Json) (session_id : PyStr) : Json :=
  answers (splitUrl (checkoutSessionUrl session_id))

/-- A name with a question mark brings its own query. -/
theorem splitUrl_session_id {id query : PyStr} (hid : ∀ c ∈ id, c ≠ 35 ∧ c ≠ 63)
    (hquery : ∀ c ∈ query, c ≠ 35) :
    splitUrl (checkoutSessionUrl (id ++ 63 :: query)) = (checkoutSessionUrl id, query) := by
  have hpath : ∀ c ∈ py "/v1/checkout/sessions/", c ≠ 35 ∧ c ≠ 63 := by decide
  have haddress : ∀ c ∈ checkoutSessionUrl id, c ≠ 35 ∧ c ≠ 63 := fun c hc =>
    (List.mem_append.1 hc).elim (hpath c) (hid c)
  have hsplit : checkoutSessionUrl (id ++ 63 :: query) = checkoutSessionUrl id ++ 63 :: query :=
    (List.append_assoc ..).symm
  unfold splitUrl
  rw [hsplit, queryOf_append haddress hquery,
    List.takeWhile_append_of_pos fun c hc => decide_eq_true (haddress c hc)]
  simp

/-! ## An expanded customer -/

section Expanded

variable {rt : Runtime} {db db₁ db₂ : Store} {now fetchedAt : ℚ} {session fetched : Json}
  {user_id : Int} {customer_id linked : PyStr} {members : List (PyStr × Json)}

/-- The success page of a session whose customer is shown expanded stores the text of an object
for the customer and gives its user the plan of the subscription. -/
theorem successPage_expanded (hconfirmed : confirmed rt user_id session = .ok true)
    (howner : checkoutOwner rt db session = .ok (some (user_id, linked)))
    (hexpanded : session.get "customer" = .ok (.obj members))
    (hpage : successPage rt db now fetchedAt user_id session fetched = some db₁) :
    ∃ row, Applied db row db₁ ∧ row.user_id = user_id ∧
      row.customer_id = rt.repr (.obj members) ∧
      subStatus (checkoutSub session fetched) >>= planForValue = .ok (plan_for row.status) := by
  unfold successPage at hpage
  rw [hconfirmed] at hpage
  obtain ⟨time, row, hrow, happlied⟩ := checkoutToEnd_eq_some howner hpage
  obtain ⟨hrow_user, hrow_customer, -, status, hstatus, hplan⟩ := rowOf_eq_ok hrow
  obtain ⟨customer, hcustomer, -, hlinked⟩ := Payments.checkoutOwner_customer howner
  rw [hexpanded] at hcustomer
  cases hcustomer
  refine ⟨row, happlied, hrow_user, hrow_customer.trans hlinked, ?_⟩
  rw [hstatus]
  exact hplan

/-- A visitor who brings a query that expands the customer of a paid session gets the plan of
the subscription and a row with the text of an object for its customer.  No event of the
customer changes anything after it. -/
theorem expanded_customer_is_lost {answers : PyStr × PyStr → Json} {id query : PyStr}
    {events : List (SubscriptionEvent rt customer_id)}
    (hid : ∀ c ∈ id, c ≠ 35 ∧ c ≠ 63) (hquery : ∀ c ∈ query, c ≠ 35)
    (hconfirmed : confirmed rt user_id (answers (checkoutSessionUrl id, query)) = .ok true)
    (howner : checkoutOwner rt db (answers (checkoutSessionUrl id, query)) =
      .ok (some (user_id, linked)))
    (hexpanded : (answers (checkoutSessionUrl id, query)).get "customer" = .ok (.obj members))
    (hne : rt.repr (.obj members) ≠ customer_id)
    (hothers : ∀ row ∈ db.subscriptions, row.customer_id = customer_id → row.user_id = user_id)
    (hpage : successPage rt db now fetchedAt user_id (namedSession answers (id ++ 63 :: query))
      fetched = some db₁)
    (hevents : deliverAll rt db₁ events = some db₂) :
    db₂.users = db₁.users ∧ db₂.subscriptions = db₁.subscriptions ∧
      (∃ row ∈ db₁.subscriptions, row.user_id = user_id ∧
        row.customer_id = rt.repr (.obj members)) ∧
      ∀ user ∈ db₁.users, user.id = user_id →
        subStatus (checkoutSub (answers (checkoutSessionUrl id, query)) fetched) >>=
          planForValue = .ok user.plan := by
  rw [namedSession, splitUrl_session_id hid hquery] at hpage
  obtain ⟨row, happlied, hrow_user, hrow_customer, hplan⟩ :=
    successPage_expanded hconfirmed howner hexpanded hpage
  have hrow : row ∈ db₁.subscriptions := happlied.subscriptions.2 (Or.inl rfl)
  -- the row of the user is the new one, and no other row is of the customer
  have hnone : ∀ other ∈ db₁.subscriptions, other.customer_id ≠ customer_id := by
    intro other hother hcustomer
    rcases happlied.subscriptions.1 hother with rfl | ⟨hmem, hother_id⟩
    · rw [hrow_customer] at hcustomer
      exact hne hcustomer
    · exact hother_id ((hothers other hmem hcustomer).trans hrow_user.symm)
  obtain ⟨husers, hsubscriptions⟩ := deliverAll_unlinked hnone hevents
  refine ⟨husers, hsubscriptions, ⟨row, hrow, hrow_user, hrow_customer⟩,
    fun user huser huser_id => ?_⟩
  have hwritten : Written db row db₁ := Written.of_applied happlied rfl rfl
  rw [hwritten.plan huser (huser_id.trans hrow_user.symm)]
  exact hplan

end Expanded

/-! ## A user who stays on Pro -/

/-- The text of the dict that the run is about. -/
def expandingRuntime : Runtime :=
  { plainRuntime with
    repr := fun v =>
      if (v.member "id").isSome then py "\x7b'id': 'cus_1'\x7d" else plainRuntime.repr v }

/-- The session of user 1, asked for with `?expand[]=customer`. -/
def expandedSession : Json :=
  dict [("mode", text "subscription"), ("payment_status", text "paid"),
    ("customer", dict [("id", text "cus_1")]), ("subscription", text "sub_1"),
    ("client_reference_id", text "1")]

/-- `sub_1` has ended. -/
def ended : SubscriptionEvent expandingRuntime (py "cus_1") where
  webhook := deleted.webhook
  kind := deleted.kind
  obj := deleted.obj
  customer := deleted.customer
  fields := deleted.fields
  ofSubscription := deleted.ofSubscription
  hasCustomer := deleted.hasCustomer
  truthy := deleted.truthy
  ofCustomer := rfl

/-- Stripe, as far as it is asked. -/
def expandingAnswers (request : PyStr × PyStr) : Json :=
  if request = (py "/v1/checkout/sessions/cs_1", py "expand[]=customer") then expandedSession
  else .null

/-- The store after the success page. -/
def expandedStore : Store :=
  (successPage expandingRuntime payerStore 1 2 1
    (namedSession expandingAnswers (py "cs_1?expand[]=customer"))
    (subscriptionOf "cus_1" "sub_1" "active")).getD payerStore

/-- The store after the end of the subscription. -/
def lostStore : Store :=
  (deliverAll expandingRuntime expandedStore [ended]).getD payerStore

theorem expanded_customer_is_lost_ended :
    ended.plan = .ok (py "free") ∧ plans lostStore = [py "pro"] ∧
      lostStore.users = expandedStore.users ∧
      ∃ row ∈ expandedStore.subscriptions, row.user_id = 1 ∧
        row.customer_id = py "\x7b'id': 'cus_1'\x7d" := by
  have hpage : successPage expandingRuntime payerStore 1 2 1
      (namedSession expandingAnswers (py "cs_1" ++ 63 :: py "expand[]=customer"))
      (subscriptionOf "cus_1" "sub_1" "active") = some expandedStore :=
    Transition.eq_some_getD payerStore (by decide +kernel)
  have hevents : deliverAll expandingRuntime expandedStore [ended] = some lostStore :=
    Transition.eq_some_getD payerStore (by decide +kernel)
  have howner : checkoutOwner expandingRuntime payerStore
      (expandingAnswers (checkoutSessionUrl (py "cs_1"), py "expand[]=customer")) =
        .ok (some (1, py "\x7b'id': 'cus_1'\x7d")) := by decide +kernel
  have hlost := expanded_customer_is_lost (by decide) (by decide) (by decide +kernel) howner
    (show _ = Except.ok (Json.obj [(py "id", text "cus_1")]) by rfl) (by decide +kernel)
    (fun row hrow => absurd hrow List.not_mem_nil) hpage hevents
  exact ⟨rfl, by decide +kernel, hlost.1, hlost.2.2.1⟩

end Billing

end OpendssGateway
