import OpendssGateway.Gateway.StripeAccount
import OpendssGateway.Gateway.StripeRequests

/-!
# Payments

The billing routes together with Stripe.  `Honest` is all that is asked of
Stripe: what it tells is about its sessions and its subscriptions.  Visitors
and the order of steps are arbitrary, and a visitor of the success page may
name any session, as long as Stripe shows its customer unexpanded
(`SessionNames` is about the other names).

* `apply_event_tells`, `apply_checkout_session_tells`: a handler stores what it was
  told, and fetches what was owed.
* `Payments.Inv`: each row, each task and each request is backed by what Stripe
  keeps.
* `billing_stays_with_the_payer` is the result.
-/

namespace OpendssGateway

namespace Billing

/-! ## What is applied -/

/-- Nothing is written, or the row of a subscription that was told about. -/
def AppliesOf (rt : Runtime) (told : Int → PyStr → Json → Prop) (db db' : Store) : Prop :=
  db' = db ∨ ∃ now user_id customer_id sub row, told user_id customer_id sub ∧
    rowOf rt now user_id customer_id sub = .ok row ∧ Applied db row db'

/-- A coroutine applies only what was told, and fetches only what is owed. -/
structure TellsOf {α : Type} (rt : Runtime) (told : Int → PyStr → Json → Prop)
    (owed : Checkout → Prop) (db : Store) (result : Store × Progress α) : Prop where
  store : AppliesOf rt told db result.1
  fetch : ∀ checkout, result.2 = .fetch checkout → owed checkout

section Tells

variable {rt : Runtime} {db : Store} {now : ℚ} {user_id : Int} {customer_id : PyStr} {sub : Json}
  {told : Int → PyStr → Json → Prop} {owed : Checkout → Prop}

/-- An error comes before the row is written: what is stored has a plan. -/
theorem apply_subscription_eq_error {db' : Store} {e : PyError}
    (h : apply_subscription rt db now user_id customer_id sub = (db', .error e)) : db' = db := by
  unfold apply_subscription at h
  split at h
  · exact (Prod.mk.inj h).1.symm
  · split at h
    · exact (Prod.mk.inj h).1.symm
    · rename_i hupsert
      obtain ⟨row, v, -, -, hbind, hcolumn⟩ := Subscriptions.upsert_eq_ok hupsert
      rw [planForValue_stored hbind hcolumn] at h
      cases h

theorem apply_subscription_applies (h : told user_id customer_id sub) :
    AppliesOf rt told db (apply_subscription rt db now user_id customer_id sub).1 := by
  cases happly : apply_subscription rt db now user_id customer_id sub with
  | mk db' result =>
    cases result with
    | ok plan =>
      obtain ⟨row, hrow, happlied, -⟩ := apply_subscription_eq_ok happly
      exact Or.inr ⟨now, user_id, customer_id, sub, row, h, hrow, happlied⟩
    | error e => exact Or.inl (apply_subscription_eq_error happly)

theorem finish_checkout_applies {checkout : Checkout} {fetched : Except FetchError Json}
    (h : ∀ sub, fetched = .ok sub → told checkout.user_id checkout.customer_id sub) :
    AppliesOf rt told db (finish_checkout rt db now checkout fetched).1 := by
  cases fetched with
  | error e => exact Or.inl rfl
  | ok sub => exact apply_subscription_applies (h sub rfl)

/-- What a session tells: a subscription to fetch, or one that it carries. -/
structure SessionTells (rt : Runtime) (told : Int → PyStr → Json → Prop) (owed : Checkout → Prop)
    (db : Store) (session : Json) : Prop where
  fetch : ∀ user_id customer_id subscription_id,
    checkoutOwner rt db session = .ok (some (user_id, customer_id)) →
    session.get "subscription" = .ok (.str subscription_id) →
    owed { user_id, customer_id, subscription_id }
  carried : ∀ user_id customer_id,
    checkoutOwner rt db session = .ok (some (user_id, customer_id)) →
    (∀ id, session.get "subscription" ≠ .ok (.str id)) →
    told user_id customer_id (checkoutSub session .null)

theorem apply_checkout_session_tells {session : Json} (h : SessionTells rt told owed db session) :
    TellsOf rt told owed db (apply_checkout_session rt db now session) := by
  unfold apply_checkout_session
  split
  · exact ⟨Or.inl rfl, fun _ hfetch => by cases hfetch⟩
  · exact ⟨Or.inl rfl, fun _ hfetch => by cases hfetch⟩
  · exact ⟨Or.inl rfl, fun _ hfetch => by cases hfetch⟩
  · rename_i howner hsub
    refine ⟨Or.inl rfl, fun _ hfetch => ?_⟩
    cases hfetch
    exact h.fetch _ _ _ howner hsub
  · rename_i sub hstr howner hsub
    have htold := h.carried _ _ howner (by
      intro id hid
      rw [hsub] at hid
      cases hid
      exact hstr id rfl)
    unfold checkoutSub at htold
    rw [hsub] at htold
    refine ⟨?_, fun _ hfetch => by cases hfetch⟩
    cases sub with
    | str id => exact absurd rfl (hstr id)
    | obj | null | bool | int | float | arr => exact apply_subscription_applies htold

theorem checkoutCompleted_tells {session : Json} (h : SessionTells rt told owed db session) :
    TellsOf rt told owed db (checkoutCompleted rt db now session) := by
  have htells : TellsOf rt told owed db (apply_checkout_session rt db now session) :=
    apply_checkout_session_tells h
  unfold checkoutCompleted
  split
  · exact ⟨Or.inl rfl, fun _ hfetch => by cases hfetch⟩
  · split
    · split
      · rename_i heq
        rw [heq] at htells
        exact ⟨htells.store, fun other hfetch => htells.fetch other (by cases hfetch; rfl)⟩
      all_goals
        rename_i heq
        rw [heq] at htells
        exact ⟨htells.store, fun other hfetch => by cases hfetch⟩
    · exact ⟨Or.inl rfl, fun _ hfetch => by cases hfetch⟩

theorem subscriptionChanged_applies {kind : PyStr} {obj : Json}
    (h : ∀ row customer_id, subscriptionOwner rt db obj = .ok (some (row, customer_id)) →
      told row.user_id customer_id (eventSub kind obj)) :
    AppliesOf rt told db (subscriptionChanged rt db now kind obj).1 := by
  unfold subscriptionChanged
  split
  · exact Or.inl rfl
  · exact Or.inl rfl
  · rename_i row customer_id howner
    exact apply_subscription_applies (h row customer_id howner)

/-- What an event tells, by its kind. -/
structure EventTells (rt : Runtime) (told : Int → PyStr → Json → Prop) (owed : Checkout → Prop)
    (db : Store) (event : Json) : Prop where
  checkout : ∀ session, eventFields event = .ok (.str (py "checkout.session.completed"), session) →
    SessionTells rt told owed db session
  changed : ∀ kind obj row customer_id, eventFields event = .ok (.str kind, obj) →
    (py "customer.subscription.").isPrefixOf kind = true →
    subscriptionOwner rt db obj = .ok (some (row, customer_id)) →
    told row.user_id customer_id (eventSub kind obj)

theorem apply_event_tells {event : Json} (h : EventTells rt told owed db event) :
    TellsOf rt told owed db (apply_event rt db now event) := by
  unfold apply_event
  split
  · exact ⟨Or.inl rfl, fun _ hfetch => by cases hfetch⟩
  · rename_i kind obj hfields
    split_ifs with hkind hprefix
    · subst hkind
      exact checkoutCompleted_tells (h.checkout obj hfields)
    · exact ⟨subscriptionChanged_applies fun row customer_id =>
        h.changed kind obj row customer_id hfields hprefix, fun _ hfetch => by cases hfetch⟩
    · exact ⟨Or.inl rfl, fun _ hfetch => by cases hfetch⟩
  · exact ⟨Or.inl rfl, fun _ hfetch => by cases hfetch⟩

end Tells

/-! ## A handler's step -/

/-- The row is the one that a subscription is stored as that was told about. -/
def ToldRow (rt : Runtime) (told : Int → PyStr → Json → Prop) (row : Subscription) : Prop :=
  ∃ now sub, told row.user_id row.customer_id sub ∧
    rowOf rt now row.user_id row.customer_id sub = .ok row

/-- A task that goes on with what is owed, or that has been told nothing yet. -/
def OwedTask (owed : Checkout → Prop) : Task → Prop
  | .webhook _ checkout => owed checkout
  | .session _ => True
  | .success checkout => owed checkout

/-- A step writes rows that were told about, and goes on with what is owed. -/
structure StepTells (rt : Runtime) (told : Int → PyStr → Json → Prop) (owed : Checkout → Prop)
    (db : Store) (tasks : List Task) (s : State) : Prop where
  rows : ∀ row ∈ s.store.subscriptions, row ∈ db.subscriptions ∨ ToldRow rt told row
  tasks : ∀ task ∈ s.tasks, task ∈ tasks ∨ OwedTask owed task

section Handlers

variable {rt : Runtime} {db db' : Store} {s : State} {now : ℚ}
  {told : Int → PyStr → Json → Prop} {owed : Checkout → Prop}

theorem AppliesOf.rows (h : AppliesOf rt told db db') :
    ∀ row ∈ db'.subscriptions, row ∈ db.subscriptions ∨ ToldRow rt told row := by
  intro row hrow
  rcases h with rfl | ⟨now, user_id, customer_id, sub, new, htold, hnew, happlied⟩
  · exact Or.inl hrow
  · rcases happlied.subscriptions.1 hrow with rfl | ⟨hrow, -⟩
    · obtain ⟨rfl, rfl, -⟩ := rowOf_eq_ok hnew
      exact Or.inr ⟨now, sub, htold, hnew⟩
    · exact Or.inl hrow

/-- A handler that has written and is over. -/
theorem StepTells.over {tasks : List Task} (hstore : AppliesOf rt told db s.store)
    (htasks : s.tasks = tasks) : StepTells rt told owed db tasks s where
  rows := hstore.rows
  tasks _ htask := Or.inl (htasks ▸ htask)

/-- A handler that has written and waits. -/
theorem StepTells.waits {tasks : List Task} {task : Task} (hstore : AppliesOf rt told db s.store)
    (htasks : s.tasks = tasks ++ [task]) (howed : OwedTask owed task) :
    StepTells rt told owed db tasks s where
  rows := hstore.rows
  tasks other hother := by
    rw [htasks] at hother
    rcases List.mem_append.1 hother with hother | hother
    · exact Or.inl hother
    · exact Or.inr (List.mem_singleton.1 hother ▸ howed)

theorem billing_webhook_tells {event : Json}
    (h : ∀ db : Store, db.subscriptions = s.store.subscriptions → EventTells rt told owed db event) :
    StepTells rt told owed s.store s.tasks (billing_webhook rt s now event) := by
  unfold billing_webhook
  split
  · exact StepTells.over (Or.inl rfl) rfl
  · split
    · exact StepTells.over (Or.inl rfl) rfl
    · split
      · exact StepTells.over (Or.inl rfl) rfl
      · exact StepTells.over (Or.inl rfl) rfl
      · rename_i mid hrecord
        obtain ⟨kind, hrecord⟩ := recordEvent_eq_ok hrecord
        obtain ⟨-, hrows, -⟩ := Subscriptions.record_event_eq_true hrecord
        have htells : TellsOf rt told owed mid (apply_event rt mid now event) :=
          apply_event_tells (h mid hrows)
        -- the rows are those of before the event was recorded
        suffices hmid : StepTells rt told owed mid s.tasks _ from
          ⟨fun row hrow => hrows ▸ hmid.rows row hrow, hmid.tasks⟩
        split
        · rename_i store checkout heq
          rw [heq] at htells
          exact StepTells.waits htells.store rfl (htells.fetch checkout rfl)
        · rename_i store result heq
          rw [heq] at htells
          apply StepTells.over
          · rw [State.conclude_store]
            exact htells.store
          · rw [State.conclude_tasks]

theorem sessionFetched_tells {user_id : Int} {fetched : Except FetchError Json}
    (h : ∀ session, fetched = .ok session → confirmed rt user_id session = .ok true →
      SessionTells rt told owed s.store session) :
    StepTells rt told owed s.store s.tasks (sessionFetched rt s now user_id fetched) := by
  unfold sessionFetched
  split
  · exact StepTells.over (Or.inl rfl) rfl
  · rename_i session
    split
    · rename_i hconfirmed
      have htells : TellsOf rt told owed s.store (apply_checkout_session rt s.store now session) :=
        apply_checkout_session_tells (h session rfl hconfirmed)
      split
      · rename_i store checkout heq
        rw [heq] at htells
        exact StepTells.waits htells.store rfl (htells.fetch checkout rfl)
      · rename_i store result heq
        rw [heq] at htells
        exact StepTells.over htells.store rfl
    · exact StepTells.over (Or.inl rfl) rfl

end Handlers

/-! ## The gateway and Stripe -/

/-- The billing routes, and what Stripe keeps. -/
structure Payments where
  site : Traced
  stripe : Stripe.Account

inductive Payment
  | visit (v : Visit)
  /-- Stripe opens a session for the request of a page. -/
  | opened (page : Nat)
  | paid (session : Nat) (customer subscription status : PyStr)
  | changed (session : Nat) (status : PyStr)

namespace Payments

section Machine

variable (rt : Runtime) (stripe : StripeConfig) (public_url : PyStr)

/-- The fields that a page sends for a checkout. -/
def checkoutRequest (page : Page) : Option (List (PyStr × PyStr)) :=
  (page.request rt stripe public_url).bind fun request =>
    if request.1 = "/v1/checkout/sessions" then some request.2 else none

def next (p : Payments) : Payment → Option Payments
  | .visit v => (Traced.next rt p.site v).map fun site => { p with site }
  | .opened n =>
    (p.site.pages[n]?.bind (checkoutRequest rt stripe public_url)).map fun data =>
      { p with stripe := p.stripe.opened data }
  | .paid i customer subscription status =>
    (p.stripe.paid i customer subscription status).map fun stripe => { p with stripe }
  | .changed i status => (p.stripe.changed i status).map fun stripe => { p with stripe }

def init : Payments where
  site := Traced.init
  stripe := Stripe.Account.empty

def machine : Transition.Machine Payments Payment where
  init := init
  next := next rt stripe public_url

end Machine

/-- Events and answers are Stripe's. -/
def Honest (p : Payments) : Payment → Prop
  | .visit (.handler (.webhook _ event)) => p.stripe.Delivers event
  | .visit (.handler (.resume _ i (.ok json))) =>
    ∀ task, p.site.state.tasks[i]? = some task → p.stripe.Answers json task
  | _ => True

/-! ### What is told and owed -/

/-- The customer pays for the user, and a status that gives Pro is one that a subscription of
the customer has had. -/
def Told (rt : Runtime) (a : Stripe.Account) (user_id : Int) (customer_id : PyStr) (sub : Json) :
    Prop :=
  a.PaysFor rt customer_id user_id ∧ ∀ status, subStatus sub = .ok status →
    planForValue status = .ok (py "pro") → a.HadPro customer_id

/-- The customer pays for the user, and has bought the subscription. -/
def Owed (rt : Runtime) (a : Stripe.Account) (checkout : Checkout) : Prop :=
  a.PaysFor rt checkout.customer_id checkout.user_id ∧
    a.Bought checkout.customer_id checkout.subscription_id

/-- A row is of a customer who pays for its user, and a plan is paid for. -/
def Backed (rt : Runtime) (a : Stripe.Account) (row : Subscription) : Prop :=
  a.PaysFor rt row.customer_id row.user_id ∧
    (plan_for row.status = py "pro" → a.HadPro row.customer_id)

section Told

variable {rt : Runtime} {a a' : Stripe.Account} {report : Stripe.Report} {sub session : Json}
  {user_id : Int} {customer_id : PyStr} {row : Subscription}

theorem backed_of_toldRow (h : ToldRow rt (Told rt a) row) : Backed rt a row := by
  obtain ⟨now, sub, ⟨hpays, hpro⟩, hrow⟩ := h
  obtain ⟨-, -, -, status, hstatus, hplan⟩ := rowOf_eq_ok hrow
  refine ⟨hpays, fun hrowpro => hpro status hstatus ?_⟩
  rw [hplan, hrowpro]

theorem Backed.grows (h : Backed rt a row) (hgrows : Stripe.Account.Grows rt a a') :
    Backed rt a' row :=
  ⟨hgrows.paysFor _ _ h.1, fun hpro => hgrows.hadPro (h.2 hpro)⟩

theorem owedTask_grows {task : Task} (h : OwedTask (Owed rt a) task)
    (hgrows : Stripe.Account.Grows rt a a') : OwedTask (Owed rt a') task := by
  cases task with
  | session user_id => trivial
  | webhook event_id checkout =>
    exact ⟨hgrows.paysFor _ _ h.1, hgrows.bought _ _ h.2⟩
  | success checkout => exact ⟨hgrows.paysFor _ _ h.1, hgrows.bought _ _ h.2⟩

/-- What has a member is a dict that counts as true. -/
theorem or_of_get {key : String} {s : PyStr} (h : sub.get key = .ok (.str s)) (other : Json) :
    sub.or other = sub := by
  cases sub with
  | obj members =>
    cases members with
    | nil => cases h
    | cons member members => rfl
  | null | bool | int | float | str | arr => cases h

theorem subStatus_of_get {status : PyStr} (h : sub.get "status" = .ok (.str status)) :
    subStatus sub = .ok ((Json.str status).or (.str (py "none"))) := by
  unfold subStatus
  rw [or_of_get h, h]
  rfl

/-- The object of a subscription tells what it has had. -/
theorem told_of_shown (hreport : report ∈ a.reports) (hshown : report.Shown sub)
    (hpays : a.PaysFor rt report.customer user_id) : Told rt a user_id report.customer sub := by
  refine ⟨hpays, fun status hstatus hpro => ⟨report, hreport, rfl, ?_⟩⟩
  rw [subStatus_of_get hshown.status] at hstatus
  cases hstatus
  cases hcode : report.status with
  | nil =>
    rw [hcode] at hpro
    exact absurd hpro (by decide)
  | cons c rest =>
    rw [hcode] at hpro
    exact Except.ok.inj hpro

theorem told_canceled (hpays : a.PaysFor rt customer_id user_id)
    (hstatus : subStatus sub = .ok (.str (py "canceled"))) : Told rt a user_id customer_id sub := by
  refine ⟨hpays, fun status hstatus' hpro => ?_⟩
  rw [hstatus] at hstatus'
  cases hstatus'
  exact absurd hpro (by decide)

end Told

/-! ### What Stripe shows is told -/

section Shown

variable {rt : Runtime} {db : Store} {a : Stripe.Account} {json : Json} {user_id : Int}
  {customer_id : PyStr}

/-- The customer of a checkout is in its session. -/
theorem checkoutOwner_customer (h : checkoutOwner rt db json = .ok (some (user_id, customer_id))) :
    ∃ v, json.get "customer" = .ok v ∧ v.truthy = true ∧ customer_id = v.toStr rt := by
  rw [checkoutOwner_eq] at h
  obtain ⟨ref, -, h⟩ := bind_eq_ok.1 h
  unfold ownerOf at h
  obtain ⟨customer, hcustomer, h⟩ := bind_eq_ok.1 h
  obtain ⟨mode, -, h⟩ := bind_eq_ok.1 h
  split_ifs at h with hguard
  · cases h
  · refine ⟨customer, hcustomer, ?_, ?_⟩
    · simp only [Bool.or_eq_true, Bool.not_eq_true', not_or, Bool.not_eq_false] at hguard
      exact hguard.1.2
    · cases hint : ref.toInt rt with
      | error e =>
        rw [hint] at h
        cases e <;> cases h
      | ok id =>
        rw [hint] at h
        obtain ⟨user, -, h⟩ := bind_eq_ok.1 h
        cases user <;> cases h
        rfl

theorem subscriptionOwner_customer {row : Subscription}
    (h : subscriptionOwner rt db json = .ok (some (row, customer_id))) :
    ∃ v, json.get "customer" = .ok v ∧ customer_id = v.toStr rt := by
  unfold subscriptionOwner at h
  obtain ⟨customer, hcustomer, h⟩ := bind_eq_ok.1 h
  split_ifs at h
  · obtain ⟨found, -, h⟩ := bind_eq_ok.1 h
    obtain ⟨row', -, heq⟩ := Option.map_eq_some_iff.1 (Except.ok.inj h)
    cases heq
    exact ⟨customer, hcustomer, rfl⟩
  · cases h

/-- What refers to a user by the text of the id is applied for the user. -/
theorem user_of_reference (hrt : IntTexts rt) {id : Int}
    (hreference : json.get "client_reference_id" = .ok (.str ((Json.int id).toStr rt)))
    (h : checkoutOwner rt db json = .ok (some (user_id, customer_id))) : user_id = id := by
  obtain ⟨ref, href, hint⟩ := checkoutOwner_reference h
  have htruthy : (Json.str ((Json.int id).toStr rt)).truthy = true := by
    simpa [Json.truthy, Json.toStr] using hrt.repr_ne_nil id
  unfold reference at href
  rw [hreference] at href
  change (if (Json.str ((Json.int id).toStr rt)).truthy then pure _ else _) = _ at href
  rw [if_pos htruthy] at href
  cases href
  exact hrt.toInt_of_text rfl hint

/-- A session that is shown is applied for the user whom it was opened for. -/
theorem paysFor_of_shown (hrt : IntTexts rt) (ha : a.Inv rt) {session : Stripe.Session}
    (hsession : session ∈ a.sessions) (hshown : session.Shown a.reports json)
    (h : checkoutOwner rt db json = .ok (some (user_id, customer_id))) :
    session.customer = some customer_id ∧ a.PaysFor rt customer_id user_id := by
  obtain ⟨id, hid⟩ := ha.refers session hsession
  have hreference := hshown.client_reference_id
  rw [hid] at hreference
  have huser := user_of_reference hrt hreference h
  obtain ⟨v, hv, htruthy, htext⟩ := checkoutOwner_customer h
  rcases hshown.customer with hnull | ⟨text, hcustomer, htold⟩
  · rw [hv] at hnull
    cases hnull
    cases htruthy
  · rw [hv] at htold
    cases htold
    change customer_id = text at htext
    rw [← htext] at hcustomer
    exact ⟨hcustomer, session, hsession, hcustomer, huser ▸ hid⟩

/-- What has an id is no string. -/
theorem ne_str_of_shown {report : Stripe.Report} {sub : Json} (h : report.Shown sub)
    (s : PyStr) : sub ≠ .str s := by
  rintro rfl
  cases h.id

theorem checkoutSub_of_shown {report : Stripe.Report} {sub fetched : Json} (h : report.Shown sub)
    (hsub : json.get "subscription" = .ok sub) : checkoutSub json fetched = sub := by
  unfold checkoutSub
  rw [hsub]
  cases sub with
  | obj members => rfl
  | null | bool | int | float | str | arr => cases h.id

theorem sessionTells_of_shown (hrt : IntTexts rt) (ha : a.Inv rt) {session : Stripe.Session}
    (hsession : session ∈ a.sessions) (hshown : session.Shown a.reports json) :
    SessionTells rt (Told rt a) (Owed rt a) db json where
  fetch user_id customer_id subscription_id howner hsub := by
    obtain ⟨hcustomer, hpays⟩ := paysFor_of_shown hrt ha hsession hshown howner
    refine ⟨hpays, session, hsession, hcustomer, ?_⟩
    rcases hshown.subscription with hnull | ⟨id, hid, hstr | ⟨report, -, -, sub, hexpanded, hreport⟩⟩
    · rw [hsub] at hnull
      cases hnull
    · rw [hsub] at hstr
      cases hstr
      exact hid
    · rw [hsub] at hexpanded
      cases hexpanded
      exact absurd rfl (ne_str_of_shown hreport _)
  carried user_id customer_id howner hnostr := by
    obtain ⟨hcustomer, hpays⟩ := paysFor_of_shown hrt ha hsession hshown howner
    rcases hshown.subscription with hnull | ⟨id, hid, hstr | ⟨report, hmem, hof, sub, hsub, hreport⟩⟩
    · -- without a subscription the status is `none`
      unfold checkoutSub
      rw [hnull]
      refine ⟨hpays, fun status hstatus hpro => ?_⟩
      cases hstatus
      exact absurd hpro (by decide)
    · exact absurd hstr (hnostr id)
    · rw [checkoutSub_of_shown hreport hsub]
      -- the subscription is the one of the customer of the session
      obtain ⟨t, ht, htcustomer, htsubscription⟩ := ha.reported report hmem
      have hsame := ha.one_customer session hsession t ht id hid (hof ▸ htsubscription)
      rw [hcustomer, htcustomer] at hsame
      rw [Option.some.inj hsame] at hpays ⊢
      exact told_of_shown hmem hreport hpays

theorem eventTells_of_delivers (hrt : IntTexts rt) (ha : a.Inv rt) {event : Json}
    (hevent : a.Delivers event)
    (hrows : ∀ row ∈ db.subscriptions, a.PaysFor rt row.customer_id row.user_id) :
    EventTells rt (Told rt a) (Owed rt a) db event where
  checkout json hfields := by
    obtain ⟨session, hsession, hshown⟩ := (hevent _ _ hfields).1 rfl
    exact sessionTells_of_shown hrt ha hsession hshown
  changed kind obj row customer_id hfields hprefix howner := by
    obtain ⟨report, hreport, hshown⟩ := (hevent kind obj hfields).2 hprefix
    obtain ⟨v, hv, hrow, hlinked⟩ := subscriptionOwner_linked howner
    obtain ⟨v', hv', htext⟩ := subscriptionOwner_customer howner
    rw [hshown.customer] at hv hv'
    cases hv
    cases hv'
    change customer_id = report.customer at htext
    have hpays : a.PaysFor rt report.customer row.user_id := by
      have := hrows row hrow
      rwa [hlinked] at this
    rw [htext]
    by_cases hdeleted : kind = py "customer.subscription.deleted"
    · apply told_canceled hpays
      rw [eventSub_status hshown.customer, if_pos hdeleted]
    · have hsub : eventSub kind obj = obj := if_neg hdeleted
      rw [hsub]
      exact told_of_shown hreport hshown hpays

/-- What a visitor's id brings is a session, or is not confirmed. -/
theorem sessionTells_of_confirmed (hrt : IntTexts rt) (ha : a.Inv rt)
    (hanswers : a.Answers json (.session user_id)) (hconfirmed : confirmed rt user_id json = .ok true) :
    SessionTells rt (Told rt a) (Owed rt a) db json := by
  rcases hanswers with ⟨session, hsession, hshown⟩ | hnone
  · exact sessionTells_of_shown hrt ha hsession hshown
  · unfold confirmed at hconfirmed
    obtain ⟨status, -, hconfirmed⟩ := bind_eq_ok.1 hconfirmed
    split_ifs at hconfirmed
    · obtain ⟨client, hclient, hconfirmed⟩ := bind_eq_ok.1 hconfirmed
      have htext : client.toStr rt = rt.repr (.int user_id) :=
        eq_of_beq (Except.ok.inj hconfirmed)
      rw [hnone client hclient] at htext
      cases hrt.repr_inj .null user_id (fun s hs => by cases hs) htext
    · cases hconfirmed

end Shown

/-! ### Runs -/

/-- The rows, the tasks and the requests of the gateway are backed by what Stripe keeps. -/
structure Inv (rt : Runtime) (p : Payments) : Prop where
  stripe : p.stripe.Inv rt
  rows : ∀ row ∈ p.site.state.store.subscriptions, Backed rt p.stripe row
  tasks : ∀ task ∈ p.site.state.tasks, OwedTask (Owed rt p.stripe) task
  pages : ∀ user_id email customer_id,
    Page.create_checkout user_id email (some customer_id) ∈ p.site.pages →
    p.stripe.PaysFor rt customer_id user_id

section Runs

variable {rt : Runtime} {stripe : StripeConfig} {public_url : PyStr} {p p' : Payments}

theorem inv_init : Inv rt init where
  stripe := Stripe.Account.Inv.empty
  rows _ h := absurd h (Table.not_mem_empty _)
  tasks _ h := absurd h List.not_mem_nil
  pages _ _ _ h := absurd h List.not_mem_nil

/-- Stripe goes on by itself. -/
theorem Inv.grows (h : Inv rt p) {a : Stripe.Account} (ha : a.Inv rt)
    (hgrows : Stripe.Account.Grows rt p.stripe a) : Inv rt { p with stripe := a } where
  stripe := ha
  rows row hrow := (h.rows row hrow).grows hgrows
  tasks task htask := owedTask_grows (h.tasks task htask) hgrows
  pages user_id email customer_id hpage := hgrows.paysFor _ _ (h.pages user_id email customer_id hpage)

/-- A handler that tells what Stripe told. -/
theorem Inv.handler (h : Inv rt p) {state : State} {origins : List Origin}
    (hstep : StepTells rt (Told rt p.stripe) (Owed rt p.stripe) p.site.state.store
      p.site.state.tasks state) :
    Inv rt { p with site := { p.site with state, origins } } where
  stripe := h.stripe
  rows row hrow := (hstep.rows row hrow).elim (h.rows row) backed_of_toldRow
  tasks task htask := (hstep.tasks task htask).elim (h.tasks task) id
  pages := h.pages

/-- Each step of a handler tells what Stripe told. -/
theorem next_tells (hrt : IntTexts rt) (h : Inv rt p) {a : Action} {s : State}
    (hnext : Billing.next rt p.site.state a = some s) (hhonest : p.Honest (.visit (.handler a))) :
    StepTells rt (Told rt p.stripe) (Owed rt p.stripe) p.site.state.store p.site.state.tasks s := by
  cases a with
  | signIn now provider subject email name =>
    cases hnext
    have hkeeps := Users.sign_in_keepsPlans rt p.site.state.store now provider subject email name
    exact ⟨fun row hrow => Or.inl (hkeeps.subscriptions ▸ hrow), fun _ htask => Or.inl htask⟩
  | webhook now event =>
    cases hnext
    refine billing_webhook_tells fun db hdb => eventTells_of_delivers hrt h.stripe hhonest ?_
    rw [hdb]
    exact fun row hrow => (h.rows row hrow).1
  | successPage user_id =>
    obtain ⟨user, -, rfl⟩ := Option.map_eq_some_iff.1 hnext
    have howed : OwedTask (Owed rt p.stripe) (.session user_id) := trivial
    exact StepTells.waits (Or.inl rfl) rfl howed
  | resume now i fetched =>
    obtain ⟨task, htask, rfl⟩ := Option.map_eq_some_iff.1 hnext
    have howed := h.tasks task (List.mem_of_getElem? htask)
    have hanswers : ∀ json, fetched = .ok json → p.stripe.Answers json task := by
      rintro json rfl
      exact hhonest task htask
    -- the task is taken from the list, and what is left was there
    suffices hstep : StepTells rt (Told rt p.stripe) (Owed rt p.stripe) p.site.state.store
        (p.site.state.tasks.eraseIdx i) (resumeTask rt _ now fetched task) from
      ⟨hstep.rows, fun other hother => (hstep.tasks other hother).imp_left List.mem_of_mem_eraseIdx⟩
    have hfinish : ∀ checkout, Owed rt p.stripe checkout →
        (∀ json, fetched = .ok json → ∃ report ∈ p.stripe.reports,
          report.subscription = checkout.subscription_id ∧ report.Shown json) →
        AppliesOf rt (Told rt p.stripe) p.site.state.store
          (finish_checkout rt p.site.state.store now checkout fetched).1 := by
      intro checkout hcheckout hfetched
      apply finish_checkout_applies
      intro sub hsub
      obtain ⟨report, hreport, hof, hshown⟩ := hfetched sub hsub
      obtain ⟨s, hs, hscustomer, hssubscription⟩ := hcheckout.2
      obtain ⟨t, ht, htcustomer, htsubscription⟩ := h.stripe.reported report hreport
      have hsame := h.stripe.one_customer s hs t ht _ hssubscription (hof ▸ htsubscription)
      rw [hscustomer, htcustomer] at hsame
      have hpays := hcheckout.1
      rw [Option.some.inj hsame] at hpays ⊢
      exact told_of_shown hreport hshown hpays
    cases task with
    | webhook event_id checkout =>
      apply StepTells.over
      · show AppliesOf _ _ _ (State.store (State.conclude _ _ _))
        rw [State.conclude_store]
        exact hfinish checkout howed hanswers
      · show (State.conclude _ _ _).tasks = _
        rw [State.conclude_tasks]
    | session user_id =>
      refine sessionFetched_tells
        (s := { p.site.state with tasks := p.site.state.tasks.eraseIdx i }) fun json hjson hconfirmed => ?_
      exact sessionTells_of_confirmed hrt h.stripe (hanswers json hjson) hconfirmed
    | success checkout => exact StepTells.over (hfinish checkout howed hanswers) rfl

/-- A page is a request for the customer of the visitor. -/
theorem create_checkout_row {db : Store} {user : User} {plan : PyStr} {csrf : Bool} {user_id : Int}
    {email customer_id : PyStr}
    (h : billing_checkout db user plan csrf = .create_checkout user_id email (some customer_id)) :
    user_id = user.id ∧ ∃ row ∈ db.subscriptions, row.user_id = user.id ∧
      row.customer_id = customer_id := by
  unfold billing_checkout at h
  split_ifs at h
  simp only [Page.create_checkout.injEq] at h
  obtain ⟨rfl, -, hcustomer⟩ := h
  obtain ⟨row, hrow, rfl⟩ := Option.map_eq_some_iff.1 hcustomer
  obtain ⟨hmem, hid⟩ := Table.find?_eq_some hrow
  exact ⟨rfl, row, hmem, hid, rfl⟩

theorem create_portal_row {db : Store} {user : User} {csrf : Bool} {customer_id : PyStr}
    (h : billing_portal db user csrf = .create_portal customer_id) :
    ∃ row ∈ db.subscriptions, row.user_id = user.id ∧ row.customer_id = customer_id := by
  unfold billing_portal at h
  split_ifs at h
  split at h
  · cases h
  · rename_i row hrow
    cases h
    obtain ⟨hmem, hid⟩ := Table.find?_eq_some hrow
    exact ⟨row, hmem, hid, rfl⟩

theorem Inv.visit (hrt : IntTexts rt) (h : Inv rt p) {v : Visit}
    {site : Traced} (hnext : Traced.next rt p.site v = some site)
    (hhonest : p.Honest (.visit v)) : Inv rt { p with site } := by
  cases v with
  | handler a =>
    obtain ⟨s, hs, rfl⟩ := Option.map_eq_some_iff.1 hnext
    exact h.handler (next_tells hrt h hs hhonest)
  | checkout user_id plan csrf =>
    obtain ⟨user, -, rfl⟩ := Option.map_eq_some_iff.1 hnext
    refine ⟨h.stripe, h.rows, h.tasks, fun id email customer_id hpage => ?_⟩
    rcases List.mem_append.1 hpage with hpage | hpage
    · exact h.pages id email customer_id hpage
    · obtain ⟨rfl, row, hrow, hid, rfl⟩ := create_checkout_row (List.mem_singleton.1 hpage).symm
      exact hid ▸ (h.rows row hrow).1
  | portal user_id csrf =>
    obtain ⟨user, -, rfl⟩ := Option.map_eq_some_iff.1 hnext
    refine ⟨h.stripe, h.rows, h.tasks, fun id email customer_id hpage => ?_⟩
    rcases List.mem_append.1 hpage with hpage | hpage
    · exact h.pages id email customer_id hpage
    · have hportal := (List.mem_singleton.1 hpage).symm
      unfold billing_portal at hportal
      split_ifs at hportal
      split at hportal <;> cases hportal

/-- A session is opened for the user who asked, and with the user's own customer. -/
theorem Inv.opened (h : Inv rt p) {n : Nat} {data : List (PyStr × PyStr)}
    (hdata : p.site.pages[n]?.bind (checkoutRequest rt stripe public_url) = some data) :
    Inv rt { p with stripe := p.stripe.opened data } := by
  obtain ⟨page, hpage, hdata⟩ := Option.bind_eq_some_iff.1 hdata
  have hmem := List.mem_of_getElem? hpage
  cases page with
  | create_checkout user_id email customer_id =>
    cases hdata
    have hcustomer : ∀ id, (checkoutData rt stripe user_id email customer_id
        (successUrl public_url) (accountUrl public_url)).lookup (py "customer") = some id →
        p.stripe.PaysFor rt id user_id := by
      intro id hid
      rw [field_customer] at hid
      obtain ⟨hcustomer, -⟩ := Option.filter_eq_some_iff.1 hid
      rw [hcustomer] at hmem
      exact h.pages user_id email id hmem
    exact h.grows (h.stripe.opened field_client_reference_id hcustomer)
      (Stripe.Account.opened_grows p.stripe _)
  | redirect | message => cases hdata
  | create_portal customer_id => cases hdata

theorem Inv.next (hrt : IntTexts rt) (h : Inv rt p) {a : Payment}
    (hnext : Payments.next rt stripe public_url p a = some p') (hhonest : p.Honest a) :
    Inv rt p' := by
  cases a with
  | visit v =>
    obtain ⟨site, hsite, rfl⟩ := Option.map_eq_some_iff.1 hnext
    exact h.visit hrt hsite hhonest
  | opened n =>
    obtain ⟨data, hdata, rfl⟩ := Option.map_eq_some_iff.1 hnext
    exact h.opened hdata
  | paid i customer subscription status =>
    obtain ⟨a, ha, rfl⟩ := Option.map_eq_some_iff.1 hnext
    exact h.grows (h.stripe.paid ha) (Stripe.Account.paid_grows ha)
  | changed i status =>
    obtain ⟨a, ha, rfl⟩ := Option.map_eq_some_iff.1 hnext
    exact h.grows (h.stripe.changed ha) (Stripe.Account.changed_grows ha)

theorem inv_reachable (hrt : IntTexts rt)
    (h : (machine rt stripe public_url).ReachableBy Honest p) : Inv rt p :=
  h.invariant (Inv rt) inv_init fun _ _ _ hp hhonest hnext => hp.next hrt hnext hhonest

/-- The visits of a run are a run of the handlers. -/
theorem site_reachable (h : (machine rt stripe public_url).ReachableBy Honest p) :
    (Traced.machine rt).Reachable p.site := by
  refine h.invariant (fun p => (Traced.machine rt).Reachable p.site)
    Transition.Machine.ReachableBy.init fun p a p' hp _ hnext => ?_
  have hnext : Payments.next rt stripe public_url p a = some p' := hnext
  cases a with
  | visit v =>
    obtain ⟨site, hsite, rfl⟩ := Option.map_eq_some_iff.1 hnext
    exact hp.next hsite
  | opened n =>
    obtain ⟨data, -, rfl⟩ := Option.map_eq_some_iff.1 hnext
    exact hp
  | paid i customer subscription status =>
    obtain ⟨a, -, rfl⟩ := Option.map_eq_some_iff.1 hnext
    exact hp
  | changed i status =>
    obtain ⟨a, -, rfl⟩ := Option.map_eq_some_iff.1 hnext
    exact hp

/-- In every run with an honest Stripe, in whatever order visits, payments, events and answers
come and whatever session a visitor names: the customer of each row pays for the user of the
row, and for nobody else; the portal and a new checkout are asked for with the visitor's own
customer; and a user on Pro has a customer of whom a subscription has had a status for it. -/
theorem billing_stays_with_the_payer (hrt : IntTexts rt)
    (h : (machine rt stripe public_url).ReachableBy Honest p) :
    (∀ row ∈ p.site.state.store.subscriptions,
      p.stripe.PaysFor rt row.customer_id row.user_id ∧
        ∀ other, p.stripe.PaysFor rt row.customer_id other → other = row.user_id) ∧
    (∀ user csrf customer_id,
      billing_portal p.site.state.store user csrf = .create_portal customer_id →
      p.stripe.PaysFor rt customer_id user.id) ∧
    (∀ user plan csrf user_id email customer_id,
      billing_checkout p.site.state.store user plan csrf =
        .create_checkout user_id email (some customer_id) →
      user_id = user.id ∧ p.stripe.PaysFor rt customer_id user.id) ∧
    ∀ user ∈ p.site.state.store.users, user.plan = py "pro" →
      ∃ customer_id, p.stripe.PaysFor rt customer_id user.id ∧ p.stripe.HadPro customer_id := by
  have hinv := inv_reachable hrt h
  have hconsistent := reachable_consistent (traced_state_reachable (site_reachable h))
  refine ⟨fun row hrow => ⟨(hinv.rows row hrow).1, fun other hother => ?_⟩, ?_, ?_, ?_⟩
  · exact hinv.stripe.paysFor_unique hrt hother (hinv.rows row hrow).1
  · intro user csrf customer_id hportal
    obtain ⟨row, hrow, hid, rfl⟩ := create_portal_row hportal
    exact hid ▸ (hinv.rows row hrow).1
  · intro user plan csrf user_id email customer_id hcheckout
    obtain ⟨rfl, row, hrow, hid, rfl⟩ := create_checkout_row hcheckout
    exact ⟨rfl, hid ▸ (hinv.rows row hrow).1⟩
  · intro user huser hpro
    by_cases hrow : ∃ row ∈ p.site.state.store.subscriptions, row.user_id = user.id
    · obtain ⟨row, hrow, hid⟩ := hrow
      obtain ⟨hpays, hhad⟩ := hinv.rows row hrow
      have hplan := hconsistent.plan_of_row user huser row hrow hid
      exact ⟨row.customer_id, hid ▸ hpays, hhad (hplan.symm.trans hpro)⟩
    · have hfree := hconsistent.free_without user huser fun row hmem hid => hrow ⟨row, hmem, hid⟩
      rw [hfree] at hpro
      exact absurd hpro (by decide)

end Runs

/-! ### A run -/

def billed : Transition.Machine Payments Payment :=
  machine plainRuntime { secret_key := py "sk", price_id := py "price", automatic_tax := true }
    (py "https://example.com")

/-- A user signs in, asks for a checkout and pays. -/
def paying : Payments :=
  (billed.run init [.visit (.handler signInPayer), .visit (.checkout 1 (py "free") true),
    .opened 0, .paid 0 (py "cus_1") (py "sub_1") (py "active")]).getD init

/-- The event is delivered. -/
def told : Payments :=
  (billed.next paying (.visit (.handler (.webhook 1 (paidCheckout "evt_1"))))).getD init

def soldSubscription : Json :=
  dict [("id", text "sub_1"), ("customer", text "cus_1"), ("status", text "active")]

/-- The subscription is fetched. -/
def upgraded : Payments :=
  (billed.next told (.visit (.handler (.resume 2 0 (.ok soldSubscription))))).getD init

def soldSession : Stripe.Session where
  client_reference_id := py "1"
  customer := some (py "cus_1")
  subscription := some (py "sub_1")

def soldReport : Stripe.Report where
  subscription := py "sub_1"
  customer := py "cus_1"
  status := py "active"

theorem upgraded_reachable : billed.ReachableBy Honest upgraded := by
  have hpaying : billed.run init [.visit (.handler signInPayer),
      .visit (.checkout 1 (py "free") true), .opened 0,
      .paid 0 (py "cus_1") (py "sub_1") (py "active")] = some paying :=
    Transition.eq_some_getD _ (by decide +kernel)
  have htold : billed.next paying (.visit (.handler (.webhook 1 (paidCheckout "evt_1")))) =
      some told := Transition.eq_some_getD _ (by decide +kernel)
  have hupgraded : billed.next told (.visit (.handler (.resume 2 0 (.ok soldSubscription)))) =
      some upgraded := Transition.eq_some_getD _ (by decide +kernel)
  have hstripe : paying.stripe = ⟨[soldSession], [soldReport]⟩ := by decide +kernel
  have hstripe' : told.stripe = ⟨[soldSession], [soldReport]⟩ := by decide +kernel
  have hreachable : billed.ReachableBy Honest paying := by
    apply Transition.Machine.ReachableBy.of_run Transition.Machine.ReachableBy.init _ hpaying
    intro a ha p
    simp only [List.mem_cons, List.not_mem_nil, or_false] at ha
    rcases ha with rfl | rfl | rfl | rfl <;> exact trivial
  have hdelivers : Honest paying (.visit (.handler (.webhook 1 (paidCheckout "evt_1")))) := by
    show paying.stripe.Delivers _
    rw [hstripe]
    intro kind obj hfields
    cases hfields
    refine ⟨fun _ => ⟨soldSession, List.mem_singleton_self _, rfl, Or.inr ⟨_, rfl, rfl⟩,
      Or.inr ⟨_, rfl, Or.inl rfl⟩⟩, fun hprefix => absurd hprefix (by decide)⟩
  have hanswers : Honest told (.visit (.handler (.resume 2 0 (.ok soldSubscription)))) := by
    intro task htask
    have htasks : told.site.state.tasks = [.webhook (py "evt_1") ⟨1, py "cus_1", py "sub_1"⟩] := by
      rfl
    rw [htasks] at htask
    cases htask
    show ∃ report ∈ told.stripe.reports, _
    rw [hstripe']
    exact ⟨soldReport, List.mem_singleton_self _, rfl, rfl, rfl, rfl⟩
  exact (hreachable.step hdelivers htold).step hanswers hupgraded

theorem billing_stays_with_the_payer_upgraded :
    (upgraded.site.state.store.users.rows.map fun user => (user.id, user.plan)) =
        [(1, py "pro")] ∧
      ∀ user ∈ upgraded.site.state.store.users, user.plan = py "pro" →
        ∃ customer_id, upgraded.stripe.PaysFor plainRuntime customer_id user.id ∧
          upgraded.stripe.HadPro customer_id :=
  ⟨by decide +kernel,
    (billing_stays_with_the_payer plainRuntime_intTexts upgraded_reachable).2.2.2⟩

end Payments

end Billing

end OpendssGateway
