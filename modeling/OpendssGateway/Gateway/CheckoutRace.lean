import OpendssGateway.Gateway.Purchases

/-!
# Checkouts against webhooks

Checkout handlers of one customer beside the webhooks of the subscription
that they fetch.  Stripe changes the subscription and emits an event, a
handler starts, its fetch is answered with what Stripe has then, the
handler writes what it was answered, and the oldest event is delivered.
All of these are separate steps, in any order.

`history` are the statuses that Stripe has had, and `delivered` counts the
events that have been delivered, so the event with the status at position
`k` is the one that is delivered when `delivered + 1 = k`.  The answer to
a fetch carries the position of its status.

A handler overwrites the row with what it was answered.  So the end is
right when no event that is newer than an answer is delivered while the
answer is waiting to be written, which is `InOrder`.
`final_status_is_stored` is the result.
-/

namespace OpendssGateway

namespace Billing

/-- A change at Stripe: the subscription from now on, and the event it emits. -/
structure Change (rt : Runtime) (customer_id : PyStr) where
  sub : Json
  event : SubscriptionEvent rt customer_id
  status : PyStr
  ofSub : subStatus sub = .ok (.str status)
  ofEvent : event.status = .ok (.str status)

/-- What a fetch was answered, and the position of its status. -/
structure Reply where
  sub : Json
  position : Nat

/-- A checkout handler, from its fetch to its write. -/
structure Handler where
  checkout : Checkout
  reply : Option Reply

structure Race (rt : Runtime) (customer_id : PyStr) where
  store : Store
  sub : Json
  history : List PyStr
  outbox : List (SubscriptionEvent rt customer_id)
  delivered : Nat
  handlers : List Handler
  finished : Nat

inductive RaceAction (rt : Runtime) (customer_id : PyStr)
  | change (c : Change rt customer_id)
  /-- a `checkout.session.completed`, up to its fetch -/
  | checkout (now : ℚ) (event : Json)
  /-- the success page of a user, up to the fetch of the subscription -/
  | success (now : ℚ) (user_id : Int) (session : Json)
  /-- Stripe answers the fetch of a handler -/
  | fetch (i : Nat)
  /-- the handler writes -/
  | write (now : ℚ) (i : Nat)
  | deliver

namespace Race

variable (rt : Runtime) (user_id : Int) {customer_id : PyStr}

/-- A webhook handler of a checkout that awaits the subscription. -/
def webhookFetch (db : Store) (now : ℚ) (event : Json) : Option (Store × Checkout) :=
  match eventId rt event with
  | .error _ => none
  | .ok event_id =>
    if event_id = [] then none
    else
      match recordEvent rt db now event event_id with
      | .ok (db, true) =>
        match apply_event rt db now event with
        | (db, .fetch checkout) => some (db, checkout)
        | _ => none
      | _ => none

/-- A success page that awaits the subscription. -/
def successFetch (db : Store) (now : ℚ) (user_id : Int) (session : Json) :
    Option (Store × Checkout) :=
  match confirmed rt user_id session with
  | .ok true =>
    match apply_checkout_session rt db now session with
    | (db, .fetch checkout) => some (db, checkout)
    | _ => none
  | _ => none

/-- The handler of a checkout of the user and the customer starts. -/
def start (s : Race rt customer_id) : Option (Store × Checkout) → Option (Race rt customer_id)
  | none => none
  | some (store, checkout) =>
    if checkout.user_id = user_id ∧ checkout.customer_id = customer_id then
      some { s with store, handlers := s.handlers ++ [{ checkout, reply := none }] }
    else none

/-- The write of a handler that does not fail. -/
def write (s : Race rt customer_id) (now : ℚ) (i : Nat) (checkout : Checkout) (reply : Reply) :
    Option (Race rt customer_id) :=
  match finish_checkout rt s.store now checkout (.ok reply.sub) with
  | (store, .ok _) =>
    some { s with store, handlers := s.handlers.eraseIdx i, finished := s.finished + 1 }
  | (_, .error _) => none

def next (s : Race rt customer_id) : RaceAction rt customer_id → Option (Race rt customer_id)
  | .change c =>
    some { s with sub := c.sub, history := s.history ++ [c.status], outbox := s.outbox ++ [c.event] }
  | .checkout now event => s.start rt user_id (webhookFetch rt s.store now event)
  | .success now owner session => s.start rt user_id (successFetch rt s.store now owner session)
  | .fetch i =>
    match s.handlers[i]? with
    | some { checkout, reply := none } =>
      some { s with
        handlers := s.handlers.set i
          { checkout, reply := some { sub := s.sub, position := s.history.length - 1 } } }
    | _ => none
  | .write now i =>
    match s.handlers[i]? with
    | some { checkout, reply := some reply } => s.write rt now i checkout reply
    | _ => none
  | .deliver =>
    match s.outbox with
    | [] => none
    | e :: rest =>
      (e.deliver rt s.store).map fun store =>
        { s with store, outbox := rest, delivered := s.delivered + 1 }

/-- Stripe has the subscription, and nothing has been told. -/
def init (db : Store) (sub : Json) (status : PyStr) : Race rt customer_id where
  store := db
  sub := sub
  history := [status]
  outbox := []
  delivered := 0
  handlers := []
  finished := 0

def machine (db : Store) (sub : Json) (status : PyStr) :
    Transition.Machine (Race rt customer_id) (RaceAction rt customer_id) where
  init := init rt db sub status
  next := next rt user_id

/-- No event is delivered that is newer than an answer that waits to be written. -/
def InOrder (s : Race rt customer_id) : RaceAction rt customer_id → Prop
  | .deliver => ∀ handler ∈ s.handlers, ∀ reply, handler.reply = some reply →
      s.delivered < reply.position
  | _ => True

end Race

/-! ## What the steps keep -/

section Invariant

variable {rt : Runtime} {user_id : Int} {customer_id : PyStr}

/-- The store has a status from a position on, and the plan that follows from it. -/
def StoredFrom (user_id : Int) (customer_id : PyStr) (db : Store) (history : List PyStr)
    (position : Nat) : Prop :=
  ∃ row ∈ db.subscriptions, row.user_id = user_id ∧ row.customer_id = customer_id ∧
    (∃ k, position ≤ k ∧ history[k]? = some row.status) ∧
    ∀ user ∈ db.users, user.id = user_id → user.plan = plan_for row.status

structure Tracked (user_id : Int) (synced : Prop) (s : Race rt customer_id) : Prop where
  /-- A fetch is answered with the last status. -/
  current : ∃ status, s.history.getLast? = some status ∧ subStatus s.sub = .ok (.str status)
  /-- The events that are not delivered carry the statuses behind. -/
  count : s.delivered + s.outbox.length + 1 = s.history.length
  events : ∀ (j : ℕ) (e : SubscriptionEvent rt customer_id), s.outbox[j]? = some e →
    ∃ status, s.history[s.delivered + 1 + j]? = some status ∧ e.status = .ok (.str status)
  handlers : ∀ handler ∈ s.handlers, handler.checkout.user_id = user_id ∧
    handler.checkout.customer_id = customer_id
  /-- An answer is at least as new as the events that were delivered. -/
  replies : ∀ handler ∈ s.handlers, ∀ reply, handler.reply = some reply →
    s.delivered ≤ reply.position ∧
      ∃ status, s.history[reply.position]? = some status ∧ subStatus reply.sub = .ok (.str status)
  /-- From the first write on, or from the start, the row is no older than the events. -/
  stored : 0 < s.finished ∨ synced → StoredFrom user_id customer_id s.store s.history s.delivered

/-- The row of a subscription has its status. -/
theorem rowOf_status {now : ℚ} {sub : Json} {row : Subscription} {status : PyStr}
    (h : rowOf rt now user_id customer_id sub = .ok row)
    (hstatus : subStatus sub = .ok (.str status)) : row.status = status := by
  obtain ⟨fields, hfields, h⟩ := bind_eq_ok.1 h
  have hsame := subscriptionFields_status hfields
  rw [hstatus] at hsame
  unfold Subscriptions.upsertRow at h
  obtain ⟨_, -, h⟩ := bind_eq_ok.1 h
  obtain ⟨_, -, h⟩ := bind_eq_ok.1 h
  obtain ⟨_, -, h⟩ := bind_eq_ok.1 h
  obtain ⟨v, hbind, h⟩ := bind_eq_ok.1 h
  rw [← Except.ok.inj hsame] at hbind
  split at h
  · cases h
  · rename_i text hcolumn
    cases h
    exact textColumn_str hbind hcolumn

/-- What is written with a status of the history is stored from its position on. -/
theorem StoredFrom.of_written {db db' : Store} {row : Subscription} {history : List PyStr}
    {position from_ : ℕ} (h : Written db row db') (huser : row.user_id = user_id)
    (hcustomer : row.customer_id = customer_id) (hfrom : from_ ≤ position)
    (hstatus : history[position]? = some row.status) :
    StoredFrom user_id customer_id db' history from_ := by
  refine ⟨row, h.mem, huser, hcustomer, ⟨position, hfrom, hstatus⟩, fun user hmem hid => ?_⟩
  exact h.plan hmem (hid.trans huser.symm)

namespace Tracked

variable {synced : Prop} {s s' : Race rt customer_id}

theorem init {db : Store} {sub : Json} {status : PyStr} (hsub : subStatus sub = .ok (.str status))
    (hsynced : synced → StoredFrom user_id customer_id db [status] 0) :
    Tracked user_id synced (Race.init rt db sub status : Race rt customer_id) where
  current := ⟨status, rfl, hsub⟩
  count := rfl
  events := fun j e h => by simp [Race.init] at h
  handlers := fun handler h => absurd h List.not_mem_nil
  replies := fun handler h => absurd h List.not_mem_nil
  stored := fun h => hsynced (h.resolve_left (Nat.lt_irrefl 0))

/-- A status of the history stays at its position. -/
theorem position_kept {history : List PyStr} {k : ℕ} {status new : PyStr}
    (h : history[k]? = some status) : (history ++ [new])[k]? = some status := by
  have hk : k < history.length := (List.getElem?_eq_some_iff.1 h).1
  rw [List.getElem?_append_left hk]
  exact h

theorem change (h : Tracked user_id synced s) (c : Change rt customer_id) :
    Tracked user_id synced { s with
      sub := c.sub, history := s.history ++ [c.status], outbox := s.outbox ++ [c.event] } where
  current := ⟨c.status, List.getLast?_concat, c.ofSub⟩
  count := by
    have hcount := h.count
    simp only [List.length_append, List.length_singleton]
    omega
  events := by
    intro j e hj
    have hcount := h.count
    by_cases hold : j < s.outbox.length
    · rw [List.getElem?_append_left hold] at hj
      obtain ⟨status, hstatus, he⟩ := h.events j e hj
      exact ⟨status, position_kept hstatus, he⟩
    · -- the new event has the new status
      have hlast : j = s.outbox.length := by
        have hlt := (List.getElem?_eq_some_iff.1 hj).1
        simp only [List.length_append, List.length_singleton] at hlt
        omega
      subst hlast
      rw [List.getElem?_concat_length] at hj
      cases hj
      refine ⟨c.status, ?_, c.ofEvent⟩
      have hposition : s.delivered + 1 + s.outbox.length = s.history.length := by omega
      show (s.history ++ [c.status])[s.delivered + 1 + s.outbox.length]? = some c.status
      rw [hposition]
      exact List.getElem?_concat_length
  handlers := h.handlers
  replies := by
    intro handler hmem reply hreply
    obtain ⟨hposition, status, hstatus, hsub⟩ := h.replies handler hmem reply hreply
    exact ⟨hposition, status, position_kept hstatus, hsub⟩
  stored := by
    intro hstored
    obtain ⟨row, hrow, huser, hcustomer, ⟨k, hk, hstatus⟩, hplan⟩ := h.stored hstored
    exact ⟨row, hrow, huser, hcustomer, ⟨k, hk, position_kept hstatus⟩, hplan⟩

/-- A handler only starts: it changes neither users nor rows. -/
theorem start {t : Store × Checkout} (h : Tracked user_id synced s)
    (husers : t.1.users = s.store.users) (hrows : t.1.subscriptions = s.store.subscriptions)
    (hs : s.start rt user_id (some t) = some s') : Tracked user_id synced s' := by
  obtain ⟨store, checkout⟩ := t
  unfold Race.start at hs
  dsimp only at hs
  split_ifs at hs with howner
  cases hs
  constructor
  · exact h.current
  · exact h.count
  · exact h.events
  · intro handler hmem
    rcases List.mem_append.1 hmem with hmem | hmem
    · exact h.handlers handler hmem
    · rw [List.mem_singleton.1 hmem]
      exact howner
  · intro handler hmem reply hreply
    rcases List.mem_append.1 hmem with hmem | hmem
    · exact h.replies handler hmem reply hreply
    · rw [List.mem_singleton.1 hmem] at hreply
      cases hreply
  · intro hstored
    have hold := h.stored hstored
    unfold StoredFrom at hold ⊢
    dsimp only at husers hrows ⊢
    rw [husers, hrows]
    exact hold

/-- A fetch is answered with the status that is behind no event. -/
theorem fetch {i : ℕ} {checkout : Checkout} (h : Tracked user_id synced s)
    (hi : s.handlers[i]? = some { checkout, reply := none }) :
    Tracked user_id synced { s with
      handlers := s.handlers.set i
        { checkout, reply := some { sub := s.sub, position := s.history.length - 1 } } } where
  current := h.current
  count := h.count
  events := h.events
  handlers := by
    intro handler hmem
    rcases List.mem_or_eq_of_mem_set hmem with hmem | rfl
    · exact h.handlers handler hmem
    · have howner := h.handlers _ (List.mem_of_getElem? hi)
      exact howner
  replies := by
    intro handler hmem reply hreply
    rcases List.mem_or_eq_of_mem_set hmem with hmem | rfl
    · exact h.replies handler hmem reply hreply
    · cases hreply
      have hcount := h.count
      obtain ⟨status, hlast, hsub⟩ := h.current
      refine ⟨by show s.delivered ≤ s.history.length - 1; omega, status, ?_, hsub⟩
      rw [← List.getLast?_eq_getElem?]
      exact hlast
  stored := h.stored

/-- A handler writes its answer, which is as new as the events. -/
theorem write {now : ℚ} {i : ℕ} {checkout : Checkout} {reply : Reply}
    (h : Tracked user_id synced s)
    (hi : s.handlers[i]? = some { checkout, reply := some reply })
    (hs : s.write rt now i checkout reply = some s') : Tracked user_id synced s' := by
  have hmem := List.mem_of_getElem? hi
  obtain ⟨huser, hcustomer⟩ := h.handlers _ hmem
  obtain ⟨hposition, status, hstatus, hsub⟩ := h.replies _ hmem reply rfl
  unfold Race.write at hs
  split at hs
  · rename_i store plan hfinish
    cases hs
    obtain ⟨row, hrow, happlied, -⟩ := apply_subscription_eq_ok (finish_checkout_eq_ok hfinish)
    obtain ⟨hrow_user, hrow_customer, -⟩ := rowOf_eq_ok hrow
    have hwritten : Written s.store row store := Written.of_applied happlied rfl rfl
    constructor
    · exact h.current
    · exact h.count
    · exact h.events
    · exact fun handler hmem => h.handlers handler (List.mem_of_mem_eraseIdx hmem)
    · exact fun handler hmem => h.replies handler (List.mem_of_mem_eraseIdx hmem)
    · intro _
      apply StoredFrom.of_written hwritten (hrow_user.trans huser)
        (hrow_customer.trans hcustomer) hposition
      rw [rowOf_status hrow hsub]
      exact hstatus
  · cases hs

/-- The oldest event is delivered, and no older answer waits. -/
theorem deliver {store : Store} {e : SubscriptionEvent rt customer_id}
    {rest : List (SubscriptionEvent rt customer_id)} (h : Tracked user_id synced s)
    (hinOrder : s.InOrder rt .deliver) (houtbox : s.outbox = e :: rest)
    (he : e.deliver rt s.store = some store) :
    Tracked user_id synced
      { s with store, outbox := rest, delivered := s.delivered + 1 } where
  current := h.current
  count := by
    have hcount := h.count
    rw [houtbox, List.length_cons] at hcount
    show s.delivered + 1 + rest.length + 1 = s.history.length
    omega
  events := by
    intro j e' hj
    have hj' : s.outbox[j + 1]? = some e' := by
      rw [houtbox]
      exact hj
    obtain ⟨status, hstatus, he'⟩ := h.events (j + 1) e' hj'
    refine ⟨status, ?_, he'⟩
    show s.history[s.delivered + 1 + 1 + j]? = some status
    rw [show s.delivered + 1 + 1 + j = s.delivered + 1 + (j + 1) by omega]
    exact hstatus
  handlers := h.handlers
  replies := by
    intro handler hmem reply hreply
    exact ⟨hinOrder handler hmem reply hreply, (h.replies handler hmem reply hreply).2⟩
  stored := by
    intro hstored
    obtain ⟨old, hold, huser, hcustomer, -, -⟩ := h.stored hstored
    obtain ⟨row, hrow, hwritten⟩ := SubscriptionEvent.deliver_linked hold hcustomer he
    obtain ⟨hrow_user, hrow_customer, -⟩ := rowOf_eq_ok hrow
    have hfirst : s.outbox[0]? = some e := by
      rw [houtbox]
      rfl
    obtain ⟨status, hstatus, he_status⟩ := h.events 0 e hfirst
    apply StoredFrom.of_written hwritten (hrow_user.trans huser) hrow_customer (Nat.le_refl _)
    rw [rowOf_status hrow (e.status_sub.trans he_status)]
    exact hstatus

end Tracked

/-! ## Handlers that start -/

/-- Up to the fetch, a checkout changes nothing. -/
theorem checkout_fetch {db db' : Store} {now : ℚ} {session : Json} {checkout : Checkout}
    (h : apply_checkout_session rt db now session = (db', .fetch checkout)) : db' = db := by
  unfold apply_checkout_session at h
  split at h
  all_goals cases h
  rfl

theorem event_fetch {db db' : Store} {now : ℚ} {event : Json} {checkout : Checkout}
    (h : apply_event rt db now event = (db', .fetch checkout)) : db' = db := by
  unfold apply_event at h
  split at h
  · cases h
  · split_ifs at h
    · unfold checkoutCompleted at h
      split at h
      · cases h
      · split_ifs at h
        · split at h
          · rename_i store checkout' happly
            cases h
            exact checkout_fetch happly
          all_goals cases h
        · cases h
    · cases h
    · cases h
  · cases h

theorem webhookFetch_eq_some {db : Store} {now : ℚ} {event : Json} {t : Store × Checkout}
    (h : Race.webhookFetch rt db now event = some t) :
    t.1.users = db.users ∧ t.1.subscriptions = db.subscriptions := by
  unfold Race.webhookFetch at h
  split at h
  · cases h
  · split_ifs at h
    split at h
    · rename_i mid hrecord
      obtain ⟨kind, hrecord⟩ := recordEvent_eq_ok hrecord
      obtain ⟨husers, hrows, -⟩ := Subscriptions.record_event_eq_true hrecord
      split at h
      · rename_i store checkout hevent
        cases h
        rw [event_fetch hevent]
        exact ⟨husers, hrows⟩
      · cases h
    · cases h

theorem successFetch_eq_some {db : Store} {now : ℚ} {owner : Int} {session : Json}
    {t : Store × Checkout} (h : Race.successFetch rt db now owner session = some t) :
    t.1 = db := by
  unfold Race.successFetch at h
  split at h
  · split at h
    · rename_i store checkout hfetch
      cases h
      exact checkout_fetch hfetch
    · cases h
  · cases h

/-! ## Runs -/

/-- What one step keeps. -/
theorem tracked_next {synced : Prop} {s s' : Race rt customer_id} {a : RaceAction rt customer_id}
    (h : Tracked user_id synced s) (hinOrder : s.InOrder rt a)
    (hs : s.next rt user_id a = some s') : Tracked user_id synced s' := by
  cases a with
  | change c =>
    cases hs
    exact h.change c
  | checkout now event =>
    cases hfetch : Race.webhookFetch rt s.store now event with
    | none => simp [Race.next, Race.start, hfetch] at hs
    | some t =>
      obtain ⟨husers, hrows⟩ := webhookFetch_eq_some hfetch
      unfold Race.next at hs
      dsimp only at hs
      rw [hfetch] at hs
      exact h.start husers hrows hs
  | success now owner session =>
    cases hfetch : Race.successFetch rt s.store now owner session with
    | none => simp [Race.next, Race.start, hfetch] at hs
    | some t =>
      have hstore := successFetch_eq_some hfetch
      unfold Race.next at hs
      dsimp only at hs
      rw [hfetch] at hs
      exact h.start (by rw [hstore]) (by rw [hstore]) hs
  | fetch i =>
    unfold Race.next at hs
    dsimp only at hs
    split at hs
    · rename_i checkout hi
      cases hs
      exact h.fetch hi
    · cases hs
  | write now i =>
    unfold Race.next at hs
    dsimp only at hs
    split at hs
    · rename_i checkout reply hi
      exact h.write hi hs
    · cases hs
  | deliver =>
    unfold Race.next at hs
    dsimp only at hs
    split at hs
    · cases hs
    · rename_i e rest houtbox
      obtain ⟨store, he, hmap⟩ := Option.map_eq_some_iff.1 hs
      cases hmap
      exact h.deliver hinOrder houtbox he

/-- Once all events are delivered, the row has the status that Stripe has, and the plan
follows from it.  A handler that is still to write has been answered the same. -/
theorem final_status_is_stored {db : Store} {sub : Json} {status : PyStr}
    {s : Race rt customer_id} (hsub : subStatus sub = .ok (.str status))
    (hs : (Race.machine rt user_id db sub status).ReachableBy (Race.InOrder rt) s)
    (houtbox : s.outbox = [])
    (hlinked : 0 < s.finished ∨ StoredFrom user_id customer_id db [status] 0) :
    ∃ row, s.store.subscriptions.find? user_id = some row ∧ row.customer_id = customer_id ∧
      s.history.getLast? = some row.status ∧ subStatus s.sub = .ok (.str row.status) ∧
      ∀ user ∈ s.store.users, user.id = user_id → user.plan = plan_for row.status := by
  have h : Tracked user_id (StoredFrom user_id customer_id db [status] 0) s := by
    apply hs.invariant (Tracked user_id (StoredFrom user_id customer_id db [status] 0))
    · exact Tracked.init hsub id
    · intro t a t' ht hinOrder hnext
      exact tracked_next ht hinOrder hnext
  obtain ⟨row, hrow, huser, hcustomer, ⟨k, hk, hstatus⟩, hplan⟩ := h.stored hlinked
  -- every event is delivered, so only the last status is as new
  have hcount := h.count
  rw [houtbox, List.length_nil] at hcount
  have hlength := (List.getElem?_eq_some_iff.1 hstatus).1
  have hlast : s.history.getLast? = some row.status := by
    rw [List.getLast?_eq_getElem?, show s.history.length - 1 = k by omega]
    exact hstatus
  obtain ⟨current, hcurrent, hcurrent_sub⟩ := h.current
  rw [hlast] at hcurrent
  cases hcurrent
  exact ⟨row, Table.find?_eq_some_iff.2 ⟨hrow, huser⟩, hcustomer, hlast, hcurrent_sub, hplan⟩

end Invariant

/-! ## An answer that is overtaken -/

namespace Race

/-- `sub_1` is canceled, and `deleted` tells of it. -/
def canceled : Change plainRuntime (py "cus_1") where
  sub := subscriptionOf "cus_1" "sub_1" "canceled"
  event := deleted
  status := py "canceled"
  ofSub := rfl
  ofEvent := rfl

/-- The race of user 1, with `sub_1` active. -/
def race : Transition.Machine (Race plainRuntime (py "cus_1"))
    (RaceAction plainRuntime (py "cus_1")) :=
  machine plainRuntime 1 payerStore (subscriptionOf "cus_1" "sub_1" "active") (py "active")

def checkoutAction : RaceAction plainRuntime (py "cus_1") :=
  .checkout 1 (checkoutOf "evt_1" "paid" "cus_1" "sub_1").event

/-- The checkout is written, and the subscription ends. -/
def toldRace : Race plainRuntime (py "cus_1") :=
  (race.run race.init [checkoutAction, .fetch 0, .write 2 0, .change canceled]).getD race.init

/-- The end is delivered after the write. -/
def wonRace : Race plainRuntime (py "cus_1") :=
  (race.next toldRace .deliver).getD race.init

/-- The end is delivered while the answer waits to be written. -/
def lostRace : Race plainRuntime (py "cus_1") :=
  (race.run race.init [checkoutAction, .fetch 0, .change canceled, .deliver, .write 2 0]).getD
    race.init

end Race

theorem final_status_is_stored_canceled :
    plans Race.wonRace.store = [py "free"] ∧
      ∃ row, Race.wonRace.store.subscriptions.find? 1 = some row ∧ row.customer_id = py "cus_1" ∧
        Race.wonRace.history.getLast? = some row.status ∧
        subStatus Race.wonRace.sub = .ok (.str row.status) ∧
        ∀ user ∈ Race.wonRace.store.users, user.id = 1 → user.plan = plan_for row.status := by
  have htold : Race.race.run Race.race.init
      [Race.checkoutAction, .fetch 0, .write 2 0, .change Race.canceled] =
        some Race.toldRace := Transition.eq_some_getD _ (by decide +kernel)
  have hwon : Race.race.next Race.toldRace .deliver = some Race.wonRace :=
    Transition.eq_some_getD _ (by decide +kernel)
  have hnone : Race.toldRace.handlers = [] :=
    List.length_eq_zero_iff.1 (by decide +kernel)
  have hreachable : Race.race.ReachableBy (Race.InOrder plainRuntime) Race.toldRace := by
    apply Transition.Machine.ReachableBy.of_run Transition.Machine.ReachableBy.init _ htold
    intro a ha t
    simp only [List.mem_cons, List.not_mem_nil, or_false] at ha
    rcases ha with rfl | rfl | rfl | rfl <;> trivial
  have hinOrder : Race.toldRace.InOrder plainRuntime .deliver := by
    intro handler hhandler
    rw [hnone] at hhandler
    exact absurd hhandler List.not_mem_nil
  refine ⟨by decide +kernel, ?_⟩
  exact final_status_is_stored rfl (hreachable.step hinOrder hwon)
    (List.length_eq_zero_iff.1 (by decide +kernel)) (Or.inl (by decide +kernel))

/-- Every handler has finished and every event is delivered, and a canceled subscription
keeps its user on Pro. -/
theorem late_write_is_kept :
    Race.race.Reachable Race.lostRace ∧ Race.lostRace.handlers.length = 0 ∧
      Race.lostRace.outbox.length = 0 ∧ Race.lostRace.finished = 1 ∧
      Race.lostRace.history.getLast? = some (py "canceled") ∧
      Race.lostRace.store.subscriptions.rows.map Subscription.status = [py "active"] ∧
      plans Race.lostRace.store = [py "pro"] := by
  have hrun : Race.race.run Race.race.init
      [Race.checkoutAction, .fetch 0, .change Race.canceled, .deliver, .write 2 0] =
        some Race.lostRace := Transition.eq_some_getD _ (by decide +kernel)
  refine ⟨Transition.Machine.reachable_of_run hrun, ?_⟩
  decide +kernel

end Billing

end OpendssGateway
