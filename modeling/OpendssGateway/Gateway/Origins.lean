import OpendssGateway.Gateway.AccountFrame

/-!
# Whom the handlers work for

The handlers of the billing routes beside the pages that only read, with
the origin of every handler: the request of a user, or a delivery.  The
machine is the one of the handlers, and `origins` says whom each of its
tasks works for.

* `confirmed_owner` is where the check of the success page and the reference
  that is applied meet.
* `accounts_are_written_by_their_owner` is the result.
-/

namespace OpendssGateway

namespace Billing

/-! ## The check of the success page -/

/-- `str` and `int` on integers: the text of an integer is not empty, no other value but
a string has it, and `int` reads no other integer from it. -/
structure IntTexts (rt : Runtime) : Prop where
  repr_ne_nil : ∀ n, rt.repr (.int n) ≠ []
  repr_inj : ∀ v n, (∀ s, v ≠ .str s) → rt.repr v = rt.repr (.int n) → v = .int n
  parseInt_repr : ∀ n m, rt.parseInt (rt.repr (.int n)) = some m → m = n

namespace IntTexts

variable {rt : Runtime} {v : Json} {n id : Int}

/-- What has the text of an integer is the text or the integer. -/
theorem text_or_int (hrt : IntTexts rt) (h : v.toStr rt = rt.repr (.int n)) :
    v = .str (rt.repr (.int n)) ∨ v = .int n := by
  cases v with
  | str s => exact Or.inl (congrArg Json.str h)
  | null | bool | int | float | arr | obj =>
    exact Or.inr (hrt.repr_inj _ n (fun s hs => by cases hs) h)

theorem truthy_of_text (hrt : IntTexts rt) (hn : 0 < n) (h : v.toStr rt = rt.repr (.int n)) :
    v.truthy = true := by
  rcases hrt.text_or_int h with rfl | rfl
  · simpa [Json.truthy] using hrt.repr_ne_nil n
  · simp only [Json.truthy, bne_iff_ne]
    omega

theorem toInt_of_text (hrt : IntTexts rt) (h : v.toStr rt = rt.repr (.int n))
    (hid : v.toInt rt = .ok id) : id = n := by
  rcases hrt.text_or_int h with rfl | rfl
  · unfold Json.toInt at hid
    dsimp only at hid
    split at hid
    · rename_i m hparse
      cases hid
      exact hrt.parseInt_repr n id hparse
    · cases hid
  · exact (Except.ok.inj hid).symm

end IntTexts

/-- A session that is confirmed for a user refers to the user: the string that was
compared is the integer that is applied. -/
theorem confirmed_owner {rt : Runtime} (hrt : IntTexts rt) {user_id id : Int} {session ref : Json}
    (hpositive : 0 < user_id) (hconfirmed : confirmed rt user_id session = .ok true)
    (href : reference session = .ok ref) (hid : ref.toInt rt = .ok id) : id = user_id := by
  unfold confirmed at hconfirmed
  obtain ⟨status, -, hconfirmed⟩ := bind_eq_ok.1 hconfirmed
  split_ifs at hconfirmed
  · obtain ⟨client, hclient, hconfirmed⟩ := bind_eq_ok.1 hconfirmed
    have htext : client.toStr rt = rt.repr (.int user_id) :=
      eq_of_beq (Except.ok.inj hconfirmed)
    -- it is not empty, so it is what the checkout refers to
    have htruthy := hrt.truthy_of_text hpositive htext
    unfold reference at href
    rw [hclient] at href
    change (if client.truthy then pure client else _) = _ at href
    rw [if_pos htruthy] at href
    cases href
    exact hrt.toInt_of_text htext hid
  · cases hconfirmed

/-- The success page writes the account of its user. -/
theorem apply_confirmed_writes {rt : Runtime} (hrt : IntTexts rt) {db : Store} {now : ℚ}
    {user_id : Int} {session : Json} (hpositive : 0 < user_id)
    (hconfirmed : confirmed rt user_id session = .ok true) :
    WritesFor (fun id => id = user_id) db (apply_checkout_session rt db now session) := by
  apply apply_checkout_session_writes
  intro id customer_id howner
  obtain ⟨ref, href, hid⟩ := checkoutOwner_reference howner
  exact confirmed_owner hrt hpositive hconfirmed href hid

/-! ## The handlers and whom they work for -/

/-- What a page does that reads the store only: it is answered, or it asks Stripe for a
page to go to. -/
inductive Page
  | redirect (location : String)
  | message (status : Nat)
  | create_checkout (user_id : Int) (email : PyStr) (customer_id : Option PyStr)
  | create_portal (customer_id : PyStr)

/-- `billing_checkout` of a user on a plan, with a form that is valid or not. -/
def billing_checkout (db : Store) (user : User) (plan : PyStr) (csrf : Bool) : Page :=
  if !csrf then .message 400
  else if plan = py "pro" then .redirect "/account"
  else
    .create_checkout user.id user.email
      ((db.subscriptions.find? user.id).map Subscription.customer_id)

/-- `billing_portal`. -/
def billing_portal (db : Store) (user : User) (csrf : Bool) : Page :=
  if !csrf then .message 400
  else
    match db.subscriptions.find? user.id with
    | none => .message 404
    | some sub => .create_portal sub.customer_id

/-- Whom a handler works for. -/
inductive Origin
  /-- The request of a user who is signed in. -/
  | user (user_id : Int)
  /-- A delivery, and the store that it found. -/
  | webhook (found : Store) (event : Json)

/-- A request to the billing routes, a sign-in, or an answer of Stripe. -/
inductive Visit
  | handler (a : Action)
  | checkout (user_id : Int) (plan : PyStr) (csrf : Bool)
  | portal (user_id : Int) (csrf : Bool)

/-- The handlers, the origins of their tasks and the pages that were given. -/
structure Traced where
  state : State
  origins : List Origin
  pages : List Page

/-- What is left of a list beside the tasks when an action has begun. -/
def Action.kept {α : Type} (list : List α) : Action → List α
  | .resume _ i _ => list.eraseIdx i
  | _ => list

namespace Traced

/-- Whom a step works for.  A task works for whom the handler was started by. -/
def origin (t : Traced) : Visit → Option Origin
  | .handler (.signIn ..) => none
  | .handler (.webhook _ event) => some (.webhook t.state.store event)
  | .handler (.successPage user_id) => some (.user user_id)
  | .handler (.resume _ i _) => t.origins[i]?
  | .checkout user_id _ _ => some (.user user_id)
  | .portal user_id _ => some (.user user_id)

section Machine

variable (rt : Runtime)

def next (t : Traced) : Visit → Option Traced
  | .handler a =>
    (Billing.next rt t.state a).map fun state =>
      let kept := a.kept t.origins
      -- a step adds one task at most
      let added := if kept.length < state.tasks.length then t.origin (.handler a) else none
      { t with state, origins := kept ++ added.toList }
  | .checkout user_id plan csrf =>
    (t.state.store.users.find? user_id).map fun user =>
      { t with pages := t.pages ++ [billing_checkout t.state.store user plan csrf] }
  | .portal user_id csrf =>
    (t.state.store.users.find? user_id).map fun user =>
      { t with pages := t.pages ++ [billing_portal t.state.store user csrf] }

def init : Traced where
  state := Billing.init
  origins := []
  pages := []

def machine : Transition.Machine Traced Visit where
  init := init
  next := next rt

end Machine

end Traced

/-! ## What a step does -/

/-- The accounts that a handler may write. -/
def Origin.Owner (rt : Runtime) : Origin → Int → Prop
  | .user user_id, id => id = user_id
  | .webhook found event, id => Concerns rt found event id

/-- A task is what a handler with an origin goes on with. -/
def Origin.Owns (rt : Runtime) : Origin → Task → Prop
  | .user user_id, .session id => id = user_id ∧ 0 < user_id
  | .user user_id, .success checkout => checkout.user_id = user_id
  | .webhook found event, .webhook _ checkout => Concerns rt found event checkout.user_id
  | _, _ => False

/-- A handler has written accounts of its owner only, and goes on with one task at
most. -/
structure Works (rt : Runtime) (origin : Origin) (db : Store) (tasks : List Task) (s : State) :
    Prop where
  store : OnlyOf (origin.Owner rt) db s.store
  tasks : s.tasks = tasks ∨ ∃ task, s.tasks = tasks ++ [task] ∧ origin.Owns rt task

section Steps

variable {rt : Runtime} {s : State} {origin : Origin}

/-- A handler that is over: it has answered, and nothing is left to do. -/
theorem Works.over {db : Store} {s' : State} (hstore : OnlyOf (origin.Owner rt) db s'.store)
    (htasks : s'.tasks = s.tasks) : Works rt origin db s.tasks s' :=
  ⟨hstore, Or.inl htasks⟩

theorem billing_webhook_works (now : ℚ) (event : Json) :
    Works rt (.webhook s.store event) s.store s.tasks (billing_webhook rt s now event) := by
  have hsame : OnlyOf (Origin.Owner rt (.webhook s.store event)) s.store s.store :=
    OnlyOf.refl _ _
  unfold billing_webhook
  split
  · exact Works.over hsame rfl
  · split
    · exact Works.over hsame rfl
    · split
      · exact Works.over hsame rfl
      · exact Works.over hsame rfl
      · rename_i mid hrecord
        obtain ⟨kind, hrecord⟩ := recordEvent_eq_ok hrecord
        obtain ⟨husers, hrows, -⟩ := Subscriptions.record_event_eq_true hrecord
        have hwrites := apply_event_concerns rt mid now event
        -- whom the event is about has not changed since it was delivered
        have hfound : ∀ id, Concerns rt mid event id → Concerns rt s.store event id :=
          fun id h => h.congr hrows.symm
        have hstore : OnlyOf (Concerns rt s.store event) s.store
            (apply_event rt mid now event).1 :=
          (OnlyOf.of_tables husers hrows).trans ((OnlyOf.of_linked hwrites.store).mono hfound)
        split
        · rename_i store checkout heq
          rw [heq] at hstore hwrites
          exact ⟨hstore, Or.inr ⟨_, rfl, hfound _ (hwrites.fetch checkout rfl)⟩⟩
        · rename_i store result heq
          rw [heq] at hstore
          apply Works.over
          · rw [State.conclude_store]
            exact hstore
          · rw [State.conclude_tasks]

theorem sessionFetched_works (hrt : IntTexts rt) (now : ℚ) {user_id : Int}
    (hpositive : 0 < user_id) (fetched : Except FetchError Json) :
    Works rt (.user user_id) s.store s.tasks (sessionFetched rt s now user_id fetched) := by
  have hsame : Works rt (.user user_id) s.store s.tasks s :=
    Works.over (OnlyOf.refl _ _) rfl
  unfold sessionFetched
  split
  · exact hsame
  · rename_i session
    split
    · rename_i hconfirmed
      have hwrites : WritesFor (fun id => id = user_id) s.store
          (apply_checkout_session rt s.store now session) :=
        apply_confirmed_writes hrt hpositive hconfirmed
      split
      · rename_i store checkout heq
        rw [heq] at hwrites
        exact ⟨OnlyOf.of_linked hwrites.store, Or.inr ⟨_, rfl, hwrites.fetch checkout rfl⟩⟩
      · rename_i store result heq
        rw [heq] at hwrites
        exact Works.over (OnlyOf.of_linked hwrites.store) rfl
    · exact hsame

/-- A task that is resumed works for whom the handler was started by. -/
theorem resumeTask_works (hrt : IntTexts rt) (now : ℚ) (fetched : Except FetchError Json)
    {task : Task} (htask : origin.Owns rt task) :
    Works rt origin s.store s.tasks (resumeTask rt s now fetched task) := by
  cases origin with
  | user user_id =>
    cases task with
    | webhook event_id checkout => exact absurd htask id
    | session id =>
      obtain ⟨rfl, hpositive⟩ := htask
      exact sessionFetched_works hrt now hpositive fetched
    | success checkout =>
      exact Works.over (OnlyOf.of_linked (finish_checkout_writes htask fetched)) rfl
  | webhook found event =>
    cases task with
    | webhook event_id checkout =>
      apply Works.over
      · show OnlyOf _ s.store (State.conclude _ _ _).store
        rw [State.conclude_store]
        exact OnlyOf.of_linked (finish_checkout_writes htask fetched)
      · show (State.conclude _ _ _).tasks = s.tasks
        rw [State.conclude_tasks]
    | session user_id => exact absurd htask id
    | success checkout => exact absurd htask id

end Steps

/-! ## Runs -/

/-- Every task is what a handler with its origin goes on with. -/
structure Owned (rt : Runtime) (t : Traced) : Prop where
  positive : Users.PositiveIds t.state.store
  tasks : List.Forall₂ (Origin.Owns rt) t.origins t.state.tasks

section Runs

variable {rt : Runtime} {t t' : Traced} {v : Visit}

private theorem forall₂_eraseIdx {α β : Type} {R : α → β → Prop} {l : List α} {l' : List β}
    (h : List.Forall₂ R l l') (i : Nat) : List.Forall₂ R (l.eraseIdx i) (l'.eraseIdx i) := by
  induction h generalizing i with
  | nil => exact List.Forall₂.nil
  | cons hhead htail ih =>
    cases i with
    | zero => exact htail
    | succ i => exact List.Forall₂.cons hhead (ih i)

private theorem forall₂_getElem? {α β : Type} {R : α → β → Prop} {l : List α} {l' : List β}
    (h : List.Forall₂ R l l') {i : Nat} {b : β} (hi : l'[i]? = some b) :
    ∃ a, l[i]? = some a ∧ R a b := by
  induction h generalizing i with
  | nil => cases hi
  | cons hhead htail ih =>
    cases i with
    | zero =>
      cases hi
      exact ⟨_, rfl, hhead⟩
    | succ i => exact ih hi

/-- The step of a handler, in terms of whom it works for. -/
theorem next_works (hrt : IntTexts rt) {a : Action} {s' : State} (h : Owned rt t)
    (hnext : Billing.next rt t.state a = some s') :
    (∃ now provider subject email name, a = .signIn now provider subject email name) ∨
      ∃ origin, t.origin (.handler a) = some origin ∧
        Works rt origin t.state.store (a.kept t.state.tasks) s' := by
  cases a with
  | signIn now provider subject email name => exact Or.inl ⟨_, _, _, _, _, rfl⟩
  | webhook now event =>
    cases hnext
    exact Or.inr ⟨_, rfl, billing_webhook_works now event⟩
  | successPage user_id =>
    obtain ⟨user, hfind, rfl⟩ := Option.map_eq_some_iff.1 hnext
    obtain ⟨huser, hid⟩ := Table.find?_eq_some hfind
    have hpositive : 0 < user_id := hid ▸ h.positive user huser
    exact Or.inr ⟨_, rfl, OnlyOf.refl _ _, Or.inr ⟨_, rfl, rfl, hpositive⟩⟩
  | resume now i fetched =>
    obtain ⟨task, htask, rfl⟩ := Option.map_eq_some_iff.1 hnext
    obtain ⟨origin, horigin, howns⟩ := forall₂_getElem? h.tasks htask
    have hworks := resumeTask_works (s := { t.state with tasks := t.state.tasks.eraseIdx i })
      hrt now fetched howns
    exact Or.inr ⟨origin, horigin, hworks⟩

/-- A sign-in starts no task. -/
theorem signIn_tasks {s s' : State} {now : ℚ} {provider subject email : PyStr}
    {name : Option PyStr}
    (h : Billing.next rt s (.signIn now provider subject email name) = some s') :
    s'.tasks = s.tasks ∧
      s'.store = (Users.sign_in rt s.store now provider subject email name).1 := by
  cases h
  exact ⟨rfl, rfl⟩

theorem Owned.kept (h : Owned rt t) (a : Action) :
    List.Forall₂ (Origin.Owns rt) (a.kept t.origins) (a.kept t.state.tasks) := by
  cases a with
  | resume now i fetched => exact forall₂_eraseIdx h.tasks i
  | signIn => exact h.tasks
  | webhook => exact h.tasks
  | successPage => exact h.tasks

theorem next_owned (hrt : IntTexts rt) (h : Owned rt t) (hnext : Traced.next rt t v = some t') :
    Owned rt t' := by
  cases v with
  | checkout user_id plan csrf =>
    obtain ⟨user, -, rfl⟩ := Option.map_eq_some_iff.1 hnext
    exact ⟨h.positive, h.tasks⟩
  | portal user_id csrf =>
    obtain ⟨user, -, rfl⟩ := Option.map_eq_some_iff.1 hnext
    exact ⟨h.positive, h.tasks⟩
  | handler a =>
    obtain ⟨s', hs', rfl⟩ := Option.map_eq_some_iff.1 hnext
    have hkept := h.kept a
    have hlength := hkept.length_eq
    rcases next_works hrt h hs' with ⟨now, provider, subject, email, name, rfl⟩ |
      ⟨origin, horigin, hworks⟩
    · obtain ⟨htasks, hstore⟩ := signIn_tasks hs'
      constructor
      · show Users.PositiveIds s'.store
        rw [hstore]
        exact Users.sign_in_positive h.positive rt now provider subject email name
      · show List.Forall₂ _ (_ ++ Option.toList (if _ then none else none)) s'.tasks
        rw [htasks, ite_self]
        simpa [Action.kept] using h.tasks
    · constructor
      · exact h.positive.of_ids hworks.store.ids
      · show List.Forall₂ _ (_ ++ Option.toList (if _ then _ else none)) s'.tasks
        rw [horigin]
        rcases hworks.tasks with htasks | ⟨task, htasks, howns⟩
        · rw [htasks, if_neg (by omega)]
          simpa using hkept
        · rw [htasks, if_pos (by simp; omega)]
          exact List.rel_append hkept (List.Forall₂.cons howns List.Forall₂.nil)

theorem reachable_owned (hrt : IntTexts rt) (h : (Traced.machine rt).Reachable t) : Owned rt t :=
  h.invariant (Owned rt) ⟨fun _ huser => absurd huser (Table.not_mem_empty _), .nil⟩
    fun _ _ _ ht _ hnext => next_owned hrt ht hnext

/-- In every run, a step that is made for the request of a user changes the plan and the
row of that user only, and one that is made for a delivery those of the one user whom
the event is about.  Every other step is a sign-in. -/
theorem accounts_are_written_by_their_owner (hrt : IntTexts rt)
    (h : (Traced.machine rt).Reachable t) (hnext : Traced.next rt t v = some t') :
    (∀ user_id, t.origin v = some (.user user_id) → ∀ other, other ≠ user_id →
      SameAccount t.state.store t'.state.store other) ∧
    (∀ found event, t.origin v = some (.webhook found event) →
      (∀ other, ¬ Concerns rt found event other →
        SameAccount t.state.store t'.state.store other) ∧
      ∀ one other, Concerns rt found event one → Concerns rt found event other → one = other) ∧
    (t.origin v = none → ∃ now provider subject email name,
      v = .handler (.signIn now provider subject email name)) := by
  have howned := reachable_owned hrt h
  -- the origin of the step, and what is written for it
  have hstep : (∃ now provider subject email name,
        v = .handler (.signIn now provider subject email name)) ∨
      ∃ origin, t.origin v = some origin ∧
        OnlyOf (origin.Owner rt) t.state.store t'.state.store := by
    cases v with
    | checkout user_id plan csrf =>
      obtain ⟨user, -, rfl⟩ := Option.map_eq_some_iff.1 hnext
      exact Or.inr ⟨_, rfl, OnlyOf.refl _ _⟩
    | portal user_id csrf =>
      obtain ⟨user, -, rfl⟩ := Option.map_eq_some_iff.1 hnext
      exact Or.inr ⟨_, rfl, OnlyOf.refl _ _⟩
    | handler a =>
      obtain ⟨s', hs', rfl⟩ := Option.map_eq_some_iff.1 hnext
      rcases next_works hrt howned hs' with ⟨now, provider, subject, email, name, rfl⟩ |
        ⟨origin, horigin, hworks⟩
      · exact Or.inl ⟨_, _, _, _, _, rfl⟩
      · exact Or.inr ⟨origin, horigin, hworks.store⟩
  rcases hstep with ⟨now, provider, subject, email, name, rfl⟩ | ⟨origin, horigin, honly⟩
  · exact ⟨fun _ h => (nomatch h), fun _ _ h => (nomatch h), fun _ => ⟨_, _, _, _, _, rfl⟩⟩
  · rw [horigin]
    refine ⟨fun user_id heq other hne => ?_, fun found event heq => ⟨fun other hother => ?_,
      fun one other hone hother => hone.unique hother⟩, fun heq => ?_⟩
    · cases heq
      exact honly.others other hne
    · cases heq
      exact honly.others other hother
    · cases heq

/-- The observer only watches: without the pages, its runs are those of the handlers. -/
theorem traced_state_reachable (h : (Traced.machine rt).Reachable t) :
    (machine rt).Reachable t.state := by
  apply h.invariant (fun t => (machine rt).Reachable t.state) Transition.Machine.ReachableBy.init
  intro s v s' hs _ hnext
  cases v with
  | handler a =>
    obtain ⟨state, hstate, rfl⟩ := Option.map_eq_some_iff.1 hnext
    exact Transition.Machine.ReachableBy.next hs hstate
  | checkout user_id plan csrf =>
    obtain ⟨user, -, rfl⟩ := Option.map_eq_some_iff.1 hnext
    exact hs
  | portal user_id csrf =>
    obtain ⟨user, -, rfl⟩ := Option.map_eq_some_iff.1 hnext
    exact hs

theorem exists_traced {s : State} (h : (machine rt).Reachable s) :
    ∃ t, (Traced.machine rt).Reachable t ∧ t.state = s := by
  apply h.invariant (fun s => ∃ t, (Traced.machine rt).Reachable t ∧ t.state = s)
  · exact ⟨Traced.init, Transition.Machine.ReachableBy.init, rfl⟩
  · rintro s a s' ⟨t, ht, rfl⟩ _ hnext
    have hvisit : (Traced.machine rt).next t (.handler a) = some _ :=
      congrArg (Option.map _) hnext
    exact ⟨_, ht.next hvisit, rfl⟩

end Runs

/-! ## A run -/

theorem repr_negSucc (n : Nat) :
    plainRuntime.repr (.int (Int.negSucc n)) = 45 :: py (n + 1).repr := by
  show py ("-" ++ Nat.repr (n + 1)) = _
  unfold py
  rw [String.toList_append]
  rfl

theorem plainRuntime_repr_ne_nil (n : Int) : plainRuntime.repr (.int n) ≠ [] := by
  cases n with
  | ofNat n =>
    show py n.repr ≠ []
    rw [py_repr]
    simp
  | negSucc n =>
    rw [repr_negSucc]
    simp

theorem plainRuntime_repr_inj {m n : Int}
    (h : plainRuntime.repr (.int m) = plainRuntime.repr (.int n)) : m = n := by
  -- a text that starts with a minus sign is of a negative number
  have hsign : ∀ a b : Nat, py a.repr ≠ 45 :: py (b + 1).repr := by
    intro a b heq
    have hmem : 45 ∈ py a.repr := by
      rw [heq]
      exact List.mem_cons_self
    have hdigit := py_repr_digit hmem
    omega
  cases m with
  | ofNat m =>
    cases n with
    | ofNat n => rw [py_repr_inj h]
    | negSucc n => exact absurd (h.trans (repr_negSucc n)) (hsign m n)
  | negSucc m =>
    cases n with
    | ofNat n => exact absurd (h.symm.trans (repr_negSucc m)) (hsign n m)
    | negSucc n =>
      rw [repr_negSucc, repr_negSucc] at h
      have hsucc := py_repr_inj (List.cons.inj h).2
      rw [Nat.succ.inj hsucc]

/-- Only digits are read. -/
theorem plainRuntime_parseInt {s : PyStr} {m : Int} (h : plainRuntime.parseInt s = some m) :
    (∀ c ∈ s, 48 ≤ c ∧ c ≤ 57) ∧
      m = ((s.foldl (fun n c => 10 * n + (c - 48)) 0 : Nat) : Int) := by
  simp only [plainRuntime] at h
  split_ifs at h with hdigits
  refine ⟨fun c hc => ?_, (Option.some.inj h).symm⟩
  simpa using List.all_eq_true.1 hdigits.2 c hc

theorem plainRuntime_intTexts : IntTexts plainRuntime where
  repr_ne_nil := plainRuntime_repr_ne_nil
  repr_inj v n hstr h := by
    cases v with
    | str s => exact absurd rfl (hstr s)
    | int m => rw [plainRuntime_repr_inj h]
    | null | bool | float | arr | obj => exact absurd h.symm (plainRuntime_repr_ne_nil n)
  parseInt_repr n m h := by
    obtain ⟨hdigits, hvalue⟩ := plainRuntime_parseInt h
    cases n with
    | ofNat n =>
      rw [hvalue]
      exact congrArg Int.ofNat (foldl_py_repr n)
    | negSucc n =>
      have hminus := hdigits 45 (by rw [repr_negSucc]; exact List.mem_cons_self)
      omega

/-- A checkout session of a user, as the success page retrieves it. -/
def sessionOf (user_id : Nat) : Json :=
  dict [("mode", text "subscription"), ("payment_status", text "paid"),
    ("customer", text "cus_1"), ("subscription", text "sub_1"),
    ("client_reference_id", .str (py user_id.repr))]

/-- Two users sign in.  The first one asks for a checkout, and comes back from it. -/
def visits : List Visit :=
  [.handler signInPayer,
    .handler (.signIn 1 (py "email") (py "other@example.com") (py "other@example.com") none),
    .checkout 1 (py "free") true, .handler (.successPage 1),
    .handler (.resume 2 0 (.ok (sessionOf 1)))]

/-- The page of the first user awaits the subscription. -/
def visited : Traced :=
  ((Traced.machine plainRuntime).run Traced.init visits).getD Traced.init

def lastVisit : Visit :=
  .handler (.resume 3 0 (.ok activeSubscription))

def afterVisit : Traced :=
  (Traced.next plainRuntime visited lastVisit).getD Traced.init

theorem accounts_are_written_by_their_owner_success :
    (visited.state.store.users.rows.map fun user => (user.id, user.plan)) =
        [(1, py "free"), (2, py "free")] ∧
      (afterVisit.state.store.users.rows.map fun user => (user.id, user.plan)) =
        [(1, py "pro"), (2, py "free")] ∧
      ∀ other, other ≠ 1 → SameAccount visited.state.store afterVisit.state.store other := by
  have hrun : (Traced.machine plainRuntime).run Traced.init visits = some visited :=
    Transition.eq_some_getD _ (by decide +kernel)
  have hnext : Traced.next plainRuntime visited lastVisit = some afterVisit :=
    Transition.eq_some_getD _ (by decide +kernel)
  refine ⟨by decide +kernel, by decide +kernel, ?_⟩
  exact (accounts_are_written_by_their_owner plainRuntime_intTexts
    (Transition.Machine.reachable_of_run hrun) hnext).1 1 rfl

end Billing

end OpendssGateway
