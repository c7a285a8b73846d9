import OpendssGateway.Gateway.Origins

/-!
# Stripe's side of the payments

Stripe opens a session for each request of `billing_checkout` that it answers,
makes a customer when a payer of a new session pays, and remembers every
status that a subscription has had.

* `Report.Shown` and `Session.Shown` are what the JSON objects say of them.
  A customer is told by its id and is not expanded.
* `Account.Delivers` and `Account.Answers` are the events and the answers of
  an honest Stripe.  They tell what was true at some time, in any order and
  any number of times.
* `Account.Inv`: a customer pays for one user, and a subscription is bought by
  one customer (`opened`, `paid` and `changed` keep it).
-/

namespace OpendssGateway

namespace Billing

namespace Stripe

/-- A checkout session: whom it was opened for, and what was paid in it. -/
structure Session where
  client_reference_id : PyStr
  customer : Option PyStr
  subscription : Option PyStr
deriving DecidableEq

/-- A status that a subscription of a customer has had. -/
structure Report where
  subscription : PyStr
  customer : PyStr
  status : PyStr
deriving DecidableEq

structure Account where
  sessions : List Session
  reports : List Report
deriving DecidableEq

namespace Account

def empty : Account where
  sessions := []
  reports := []

/-- A request for a checkout page is answered. -/
def opened (a : Account) (data : List (PyStr × PyStr)) : Account :=
  { a with sessions := a.sessions ++
      [{ client_reference_id := (data.lookup (py "client_reference_id")).getD []
         customer := data.lookup (py "customer")
         subscription := none }] }

/-- A session is paid.  It has a customer, or gets a new one, and a new subscription. -/
def paid (a : Account) (i : Nat) (customer subscription status : PyStr) : Option Account :=
  a.sessions[i]?.bind fun session =>
    if session.subscription = none ∧
        (session.customer = some customer ∨
          session.customer = none ∧ ∀ other ∈ a.sessions, other.customer ≠ some customer) ∧
        ∀ other ∈ a.sessions, other.subscription ≠ some subscription then
      some {
        sessions := a.sessions.set i
          { session with customer := some customer, subscription := some subscription }
        reports := a.reports ++ [{ subscription, customer, status }] }
    else none

/-- The subscription of a session that was paid gets another status. -/
def changed (a : Account) (i : Nat) (status : PyStr) : Option Account :=
  a.sessions[i]?.bind fun session =>
    session.customer.bind fun customer =>
      session.subscription.map fun subscription =>
        { a with reports := a.reports ++ [{ subscription, customer, status }] }

end Account

/-! ### What it tells -/

/-- The object of a subscription at some time. -/
structure Report.Shown (report : Report) (sub : Json) : Prop where
  id : sub.get "id" = .ok (.str report.subscription)
  customer : sub.get "customer" = .ok (.str report.customer)
  status : sub.get "status" = .ok (.str report.status)

/-- The object of a session at some time.  The subscription is told by its id, or expanded. -/
structure Session.Shown (reports : List Report) (session : Session) (json : Json) : Prop where
  client_reference_id : json.get "client_reference_id" = .ok (.str session.client_reference_id)
  customer : json.get "customer" = .ok .null ∨
    ∃ id, session.customer = some id ∧ json.get "customer" = .ok (.str id)
  subscription : json.get "subscription" = .ok .null ∨
    ∃ id, session.subscription = some id ∧
      (json.get "subscription" = .ok (.str id) ∨
        ∃ report ∈ reports, report.subscription = id ∧
          ∃ sub, json.get "subscription" = .ok sub ∧ report.Shown sub)

/-- An event about a session or a subscription shows one. -/
def Account.Delivers (a : Account) (event : Json) : Prop :=
  ∀ kind obj, eventFields event = .ok (.str kind, obj) →
    (kind = py "checkout.session.completed" →
      ∃ session ∈ a.sessions, session.Shown a.reports obj) ∧
    ((py "customer.subscription.").isPrefixOf kind = true →
      ∃ report ∈ a.reports, report.Shown obj)

/-- What a handler gets that fetches: for the id of a visitor any session, or what is none; for
a subscription that subscription. -/
def Account.Answers (a : Account) (json : Json) : Task → Prop
  | .session _ => (∃ session ∈ a.sessions, session.Shown a.reports json) ∨
      ∀ v, json.get "client_reference_id" = .ok v → v = .null
  | .webhook _ checkout | .success checkout =>
    ∃ report ∈ a.reports, report.subscription = checkout.subscription_id ∧ report.Shown json

/-! ### Customers -/

namespace Account

variable (rt : Runtime)

/-- The customer pays for a user: a session of the customer was opened for the user. -/
def PaysFor (a : Account) (customer_id : PyStr) (user_id : Int) : Prop :=
  ∃ session ∈ a.sessions, session.customer = some customer_id ∧
    session.client_reference_id = (Json.int user_id).toStr rt

/-- A session of the customer was paid with the subscription. -/
def Bought (a : Account) (customer_id subscription_id : PyStr) : Prop :=
  ∃ session ∈ a.sessions, session.customer = some customer_id ∧
    session.subscription = some subscription_id

/-- A subscription of the customer has had a status that keeps a user on Pro. -/
def HadPro (a : Account) (customer_id : PyStr) : Prop :=
  ∃ report ∈ a.reports, report.customer = customer_id ∧ plan_for report.status = py "pro"

structure Inv (a : Account) : Prop where
  refers : ∀ session ∈ a.sessions, ∃ user_id : Int,
    session.client_reference_id = (Json.int user_id).toStr rt
  one_user : ∀ s ∈ a.sessions, ∀ t ∈ a.sessions, ∀ customer_id, s.customer = some customer_id →
    t.customer = some customer_id → s.client_reference_id = t.client_reference_id
  one_customer : ∀ s ∈ a.sessions, ∀ t ∈ a.sessions, ∀ id, s.subscription = some id →
    t.subscription = some id → s.customer = t.customer
  reported : ∀ report ∈ a.reports, a.Bought report.customer report.subscription

/-- What was paid stays paid. -/
structure Grows (a a' : Account) : Prop where
  paysFor : ∀ customer_id user_id, a.PaysFor rt customer_id user_id →
    a'.PaysFor rt customer_id user_id
  bought : ∀ customer_id subscription_id, a.Bought customer_id subscription_id →
    a'.Bought customer_id subscription_id
  reports : ∀ report ∈ a.reports, report ∈ a'.reports

variable {rt} {a a' : Account}

theorem Inv.empty : Inv rt empty where
  refers _ h := absurd h List.not_mem_nil
  one_user _ h := absurd h List.not_mem_nil
  one_customer _ h := absurd h List.not_mem_nil
  reported _ h := absurd h List.not_mem_nil

theorem Grows.hadPro (h : Grows rt a a') {customer_id : PyStr} (hpro : a.HadPro customer_id) :
    a'.HadPro customer_id := by
  obtain ⟨report, hreport, hcustomer, hplan⟩ := hpro
  exact ⟨report, h.reports report hreport, hcustomer, hplan⟩

theorem Grows.refl (a : Account) : Grows rt a a :=
  ⟨fun _ _ h => h, fun _ _ h => h, fun _ h => h⟩

/-- A customer pays for one user only. -/
theorem Inv.paysFor_unique (hrt : IntTexts rt) (h : Inv rt a) {customer_id : PyStr}
    {user_id other : Int} (hpays : a.PaysFor rt customer_id user_id)
    (hother : a.PaysFor rt customer_id other) : user_id = other := by
  obtain ⟨s, hs, hcustomer, hreference⟩ := hpays
  obtain ⟨t, ht, hcustomer', hreference'⟩ := hother
  have hsame := h.one_user s hs t ht customer_id hcustomer hcustomer'
  rw [hreference, hreference'] at hsame
  have hint := hrt.repr_inj (.int user_id) other (fun s hs => by cases hs) hsame
  exact Json.int.inj hint

/-! ### What Stripe does -/

theorem mem_set_or_eq {α : Type} {l : List α} {i : Nat} {x y z : α} (hi : l[i]? = some x)
    (hz : z ∈ l) : z = x ∨ z ∈ l.set i y := by
  obtain ⟨j, hj⟩ := List.getElem?_of_mem hz
  by_cases hij : i = j
  · subst hij
    rw [hi] at hj
    exact Or.inl (Option.some.inj hj).symm
  · right
    apply List.mem_of_getElem? (i := j)
    rw [List.getElem?_set_ne hij]
    exact hj

theorem opened_grows (a : Account) (data : List (PyStr × PyStr)) : Grows rt a (a.opened data) where
  paysFor := fun _ _ ⟨session, hsession, hpays⟩ =>
    ⟨session, List.mem_append_left _ hsession, hpays⟩
  bought := fun _ _ ⟨session, hsession, hbought⟩ =>
    ⟨session, List.mem_append_left _ hsession, hbought⟩
  reports := fun _ hreport => hreport

theorem Inv.opened (h : Inv rt a) {data : List (PyStr × PyStr)} {user_id : Int}
    (hreference : data.lookup (py "client_reference_id") = some ((Json.int user_id).toStr rt))
    (hcustomer : ∀ id, data.lookup (py "customer") = some id → a.PaysFor rt id user_id) :
    Inv rt (a.opened data) := by
  have hnew : ∀ s ∈ a.sessions, ∀ id, s.customer = some id →
      data.lookup (py "customer") = some id →
      s.client_reference_id = (data.lookup (py "client_reference_id")).getD [] := by
    intro s hs id hid hlookup
    obtain ⟨t, ht, htcustomer, htreference⟩ := hcustomer id hlookup
    rw [hreference, Option.getD_some, ← htreference]
    exact h.one_user s hs t ht id hid htcustomer
  have hmem : ∀ s ∈ (a.opened data).sessions, s ∈ a.sessions ∨ s = ⟨_, _, none⟩ :=
    fun s hs => (List.mem_append.1 hs).imp id List.mem_singleton.1
  constructor
  · intro s hs
    rcases hmem s hs with hs | rfl
    · exact h.refers s hs
    · exact ⟨user_id, by rw [hreference]; rfl⟩
  · intro s hs t ht id hid htid
    rcases hmem s hs with hs | rfl <;> rcases hmem t ht with ht | rfl
    · exact h.one_user s hs t ht id hid htid
    · exact hnew s hs id hid htid
    · exact (hnew t ht id htid hid).symm
    · rfl
  · intro s hs t ht id hid htid
    rcases hmem s hs with hs | rfl <;> rcases hmem t ht with ht | rfl
    · exact h.one_customer s hs t ht id hid htid
    · cases htid
    · cases hid
    · rfl
  · intro report hreport
    have hgrows : Grows rt a (a.opened data) := opened_grows a data
    exact hgrows.bought _ _ (h.reported report hreport)

theorem paid_eq_some {i : Nat} {customer subscription status : PyStr}
    (h : a.paid i customer subscription status = some a') :
    ∃ session, a.sessions[i]? = some session ∧ session.subscription = none ∧
      (session.customer = some customer ∨
        session.customer = none ∧ ∀ other ∈ a.sessions, other.customer ≠ some customer) ∧
      (∀ other ∈ a.sessions, other.subscription ≠ some subscription) ∧
      a' = {
        sessions := a.sessions.set i
          { session with customer := some customer, subscription := some subscription }
        reports := a.reports ++ [{ subscription, customer, status }] } := by
  obtain ⟨session, hsession, h⟩ := Option.bind_eq_some_iff.1 h
  split_ifs at h with hguard
  exact ⟨session, hsession, hguard.1, hguard.2.1, hguard.2.2, (Option.some.inj h).symm⟩

theorem paid_grows {i : Nat} {customer subscription status : PyStr}
    (h : a.paid i customer subscription status = some a') : Grows rt a a' := by
  obtain ⟨session, hsession, hnone, hcustomer, -, rfl⟩ := paid_eq_some h
  have hi := (List.getElem?_eq_some_iff.1 hsession).1
  constructor
  · rintro id user_id ⟨t, ht, htid, hreference⟩
    rcases mem_set_or_eq hsession ht with rfl | ht
    · rcases hcustomer with hcustomer | ⟨hcustomer, -⟩
      · rw [htid] at hcustomer
        exact ⟨_, List.mem_set hi _, hcustomer.symm, hreference⟩
      · rw [htid] at hcustomer
        cases hcustomer
    · exact ⟨t, ht, htid, hreference⟩
  · rintro id subscription_id ⟨t, ht, htid, hbought⟩
    rcases mem_set_or_eq hsession ht with rfl | ht
    · rw [hnone] at hbought
      cases hbought
    · exact ⟨t, ht, htid, hbought⟩
  · exact fun report hreport => List.mem_append_left _ hreport

theorem Inv.paid (h : Inv rt a) {i : Nat} {customer subscription status : PyStr}
    (hpaid : a.paid i customer subscription status = some a') : Inv rt a' := by
  have hgrows : Grows rt a a' := paid_grows hpaid
  obtain ⟨session, hsession, hnone, hcustomer, hfresh, rfl⟩ := paid_eq_some hpaid
  have hi := (List.getElem?_eq_some_iff.1 hsession).1
  have hmem := List.mem_of_getElem? hsession
  -- a session of the customer was opened for the same user
  have hnew : ∀ t ∈ a.sessions, t.customer = some customer →
      session.client_reference_id = t.client_reference_id := by
    intro t ht htcustomer
    rcases hcustomer with hcustomer | ⟨-, hunused⟩
    · exact h.one_user session hmem t ht customer hcustomer htcustomer
    · exact absurd htcustomer (hunused t ht)
  constructor
  · intro s hs
    rcases List.mem_or_eq_of_mem_set hs with hs | rfl
    · exact h.refers s hs
    · exact h.refers session hmem
  · intro s hs t ht id hid htid
    rcases List.mem_or_eq_of_mem_set hs with hs | rfl <;>
      rcases List.mem_or_eq_of_mem_set ht with ht | rfl
    · exact h.one_user s hs t ht id hid htid
    · cases htid
      exact (hnew s hs hid).symm
    · cases hid
      exact hnew t ht htid
    · rfl
  · intro s hs t ht id hid htid
    rcases List.mem_or_eq_of_mem_set hs with hs | rfl <;>
      rcases List.mem_or_eq_of_mem_set ht with ht | rfl
    · exact h.one_customer s hs t ht id hid htid
    · cases htid
      exact absurd hid (hfresh s hs)
    · cases hid
      exact absurd htid (hfresh t ht)
    · rfl
  · intro report hreport
    rcases List.mem_append.1 hreport with hreport | hreport
    · exact hgrows.bought _ _ (h.reported report hreport)
    · rw [List.mem_singleton.1 hreport]
      exact ⟨_, List.mem_set hi _, rfl, rfl⟩

theorem changed_eq_some {i : Nat} {status : PyStr} (h : a.changed i status = some a') :
    ∃ customer subscription, a.Bought customer subscription ∧
      a' = { a with reports := a.reports ++ [{ subscription, customer, status }] } := by
  obtain ⟨session, hsession, h⟩ := Option.bind_eq_some_iff.1 h
  obtain ⟨customer, hcustomer, h⟩ := Option.bind_eq_some_iff.1 h
  obtain ⟨subscription, hsubscription, rfl⟩ := Option.map_eq_some_iff.1 h
  exact ⟨customer, subscription,
    ⟨session, List.mem_of_getElem? hsession, hcustomer, hsubscription⟩, rfl⟩

theorem changed_grows {i : Nat} {status : PyStr} (h : a.changed i status = some a') :
    Grows rt a a' := by
  obtain ⟨customer, subscription, -, rfl⟩ := changed_eq_some h
  exact ⟨fun _ _ h => h, fun _ _ h => h, fun _ hreport => List.mem_append_left _ hreport⟩

theorem Inv.changed (h : Inv rt a) {i : Nat} {status : PyStr}
    (hchanged : a.changed i status = some a') : Inv rt a' := by
  obtain ⟨customer, subscription, hbought, rfl⟩ := changed_eq_some hchanged
  refine ⟨h.refers, h.one_user, h.one_customer, fun report hreport => ?_⟩
  rcases List.mem_append.1 hreport with hreport | hreport
  · exact h.reported report hreport
  · rw [List.mem_singleton.1 hreport]
    exact hbought

end Account

end Stripe

end Billing

end OpendssGateway
