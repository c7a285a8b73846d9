import Mathlib.Algebra.Order.Ring.Rat
import OpendssGateway.Gateway.Json
import OpendssGateway.Library.Table

/-!
# Accounts and subscriptions in the store

The tables `users`, `identities`, `subscriptions` and `stripe_events` of
`store.py`, and the statements on them.  A `Store` carries the constraints
of the schema: primary keys, the unique index on `customer_id`, and the
reference from a subscription to its user.

A statement that raises leaves the store as it was.  Statements on `email`
rely on `sign_in` looking an email up before it adds a user, so the
constraint `UNIQUE` on it never fires.
-/

namespace OpendssGateway

/-- A row of `users`. -/
structure User where
  id : Int
  email : PyStr
  name : Option PyStr
  plan : PyStr
  created : ℚ
  last_seen : ℚ
  session_epoch : Int
  disabled : Bool

structure Identity where
  provider : PyStr
  subject : PyStr
  user_id : Int
  email : PyStr
  created : ℚ

def Identity.key (identity : Identity) : PyStr × PyStr :=
  (identity.provider, identity.subject)

structure Subscription where
  user_id : Int
  customer_id : PyStr
  subscription_id : Option PyStr
  status : PyStr
  current_period_end : Option Float
  cancel_at_period_end : Bool
  updated : ℚ

structure StripeEvent where
  id : PyStr
  type : PyStr
  received : ℚ

/-- The tables, with the constraints of the schema. -/
structure Store where
  users : Table User.id
  identities : Table Identity.key
  subscriptions : Table Subscription.user_id
  stripe_events : Table StripeEvent.id
  subscriptions_customer : ∀ a ∈ subscriptions, ∀ b ∈ subscriptions,
    a.customer_id = b.customer_id → a.user_id = b.user_id
  references_users : ∀ row ∈ subscriptions, ∃ user ∈ users, user.id = row.user_id

def Store.empty : Store where
  users := Table.empty
  identities := Table.empty
  subscriptions := Table.empty
  stripe_events := Table.empty
  subscriptions_customer _ h := absurd h (Table.not_mem_empty _)
  references_users _ h := absurd h (Table.not_mem_empty _)

/-! ## Users -/

namespace Users

def get (db : Store) (user_id : Int) : Except PyError (Option User) := do
  let _ ← bindInt user_id
  pure (db.users.find? user_id)

/-- `UPDATE users SET .. WHERE id=?` of columns other than the id. -/
def update (db : Store) (user_id : Int) (f : User → User) (hf : ∀ user, (f user).id = user.id) :
    Store :=
  { db with
    users := db.users.modify user_id f fun user hid => (hf user).trans hid
    references_users := by
      intro row hrow
      obtain ⟨user, huser, hid⟩ := db.references_users row hrow
      by_cases h : user.id = user_id
      · exact ⟨f user, Table.mem_modify.2 (Or.inr ⟨user, huser, h, rfl⟩), (hf user).trans hid⟩
      · exact ⟨user, Table.mem_modify.2 (Or.inl ⟨huser, h⟩), hid⟩ }

theorem mem_update {db : Store} {user_id : Int} {f : User → User}
    {hf : ∀ user, (f user).id = user.id} {user : User} :
    user ∈ (update db user_id f hf).users ↔
      user ∈ db.users ∧ user.id ≠ user_id ∨ ∃ old ∈ db.users, old.id = user_id ∧ user = f old := by
  simp only [update, Table.mem_modify]

def set_plan (db : Store) (user_id : Int) (plan : PyStr) : Store :=
  update db user_id (fun user => { user with plan }) fun _ => rfl

/-- The id of the next row: one more than the greatest. -/
def nextId (db : Store) : Int :=
  db.users.rows.foldl (fun id user => max id user.id) 0 + 1

theorem le_foldl_max (rows : List User) (start : Int) :
    start ≤ rows.foldl (fun id user => max id user.id) start ∧
      ∀ user ∈ rows, user.id ≤ rows.foldl (fun id user => max id user.id) start := by
  induction rows generalizing start with
  | nil => simp
  | cons first rest ih =>
    rw [List.foldl_cons]
    obtain ⟨hstart, hrest⟩ := ih (max start first.id)
    refine ⟨by omega, fun user huser => ?_⟩
    rcases List.mem_cons.1 huser with rfl | huser
    · omega
    · exact hrest user huser

theorem nextId_fresh (db : Store) : db.users.find? (nextId db) = none := by
  apply Table.find?_eq_none_iff.2
  intro user huser hid
  have hle := (le_foldl_max db.users.rows 0).2 user huser
  unfold nextId at hid
  omega

/-- `INSERT INTO users`, with the defaults of the schema. -/
def insert (db : Store) (now : ℚ) (email : PyStr) (name : Option PyStr) : Store :=
  { db with
    users := db.users.insert
      { id := nextId db, email, name, plan := py "free", created := now, last_seen := now,
        session_epoch := 0, disabled := false }
      (nextId_fresh db)
    references_users := by
      intro row hrow
      obtain ⟨user, huser, hid⟩ := db.references_users row hrow
      exact ⟨user, Table.mem_insert.2 (Or.inl huser), hid⟩ }

/-- The user whom an identity belongs to. -/
def byIdentity (db : Store) (provider subject : PyStr) : Option User :=
  (db.identities.find? (provider, subject)).bind fun identity => db.users.find? identity.user_id

/-- `INSERT OR IGNORE INTO identities`. -/
def addIdentity (db : Store) (identity : Identity) : Store :=
  if h : db.identities.find? identity.key = none then
    { db with identities := db.identities.insert identity h }
  else db

def bindName : Option PyStr → Except PyError SqlValue
  | none => .ok .null
  | some name => bindText name

/-- The user with an email, else a fresh account. -/
def byEmailOrNew (db : Store) (now : ℚ) (email : PyStr) (name : Option PyStr) :
    Except PyError (Store × Int) := do
  let _ ← bindText email
  match db.users.rows.find? fun user => user.email = email with
  | some user => pure (db, user.id)
  | none =>
    let _ ← bindName name
    pure (insert db now email name, nextId db)

/-- The user of an identity.  A new identity is added to the account of its email. -/
def account (db : Store) (now : ℚ) (provider subject email : PyStr) (name : Option PyStr) :
    Except PyError (Store × Int) := do
  let _ ← bindText provider
  let _ ← bindText subject
  match byIdentity db provider subject with
  | some user => pure (db, user.id)
  | none =>
    let (db, user_id) ← byEmailOrNew db now email name
    pure (addIdentity db { provider, subject, user_id, email, created := now }, user_id)

/-- The transaction of `sign_in`, up to `COMMIT`. -/
def sign_in_transaction (db : Store) (now : ℚ) (provider subject email : PyStr)
    (name : Option PyStr) : Except PyError (Store × Int) := do
  let (db, id) ← account db now provider subject email name
  let _ ← bindName name
  let seen (user : User) : User :=
    { user with last_seen := now, name := user.name.or name }
  pure (update db id seen fun _ => rfl, id)

/-- An exception rolls the transaction back. -/
def sign_in (rt : Runtime) (db : Store) (now : ℚ) (provider subject email : PyStr)
    (name : Option PyStr) : Store × Except PyError (Option User) :=
  match sign_in_transaction db now provider subject (rt.normalized email) name with
  | .error e => (db, .error e)
  | .ok (db, id) => (db, get db id)

/-- Subscriptions and events are as before, every plan is one that the user had, and
a new user is on the free plan. -/
structure KeepsPlans (db db' : Store) : Prop where
  subscriptions : db'.subscriptions = db.subscriptions
  stripe_events : db'.stripe_events = db.stripe_events
  plans : ∀ user ∈ db'.users, (∃ old ∈ db.users, old.id = user.id ∧ old.plan = user.plan) ∨
    (∀ old ∈ db.users, old.id ≠ user.id) ∧ user.plan = py "free"

theorem KeepsPlans.refl (db : Store) : KeepsPlans db db :=
  ⟨rfl, rfl, fun user huser => Or.inl ⟨user, huser, rfl, rfl⟩⟩

theorem keepsPlans_insert (db : Store) (now : ℚ) (email : PyStr) (name : Option PyStr) :
    KeepsPlans db (insert db now email name) := by
  refine ⟨rfl, rfl, fun user huser => ?_⟩
  simp only [insert, Table.mem_insert] at huser
  rcases huser with huser | rfl
  · exact Or.inl ⟨user, huser, rfl, rfl⟩
  · exact Or.inr ⟨Table.find?_eq_none_iff.1 (nextId_fresh db), rfl⟩

theorem KeepsPlans.addIdentity {db mid : Store} (h : KeepsPlans db mid) (identity : Identity) :
    KeepsPlans db (addIdentity mid identity) := by
  unfold Users.addIdentity
  split
  · exact ⟨h.subscriptions, h.stripe_events, h.plans⟩
  · exact h

theorem KeepsPlans.update {db mid : Store} (h : KeepsPlans db mid) (user_id : Int)
    {f : User → User} {hf : ∀ user, (f user).id = user.id}
    (hplan : ∀ user, (f user).plan = user.plan) : KeepsPlans db (update mid user_id f hf) := by
  refine ⟨h.subscriptions, h.stripe_events, fun user huser => ?_⟩
  rcases mem_update.1 huser with ⟨huser, -⟩ | ⟨old, hold, -, rfl⟩
  · exact h.plans user huser
  · rw [hf, hplan]
    exact h.plans old hold

theorem byEmailOrNew_keepsPlans {db db' : Store} {now : ℚ} {email : PyStr}
    {name : Option PyStr} {id : Int} (h : byEmailOrNew db now email name = .ok (db', id)) :
    KeepsPlans db db' := by
  unfold byEmailOrNew at h
  obtain ⟨_, -, h⟩ := bind_eq_ok.1 h
  split at h
  · cases h
    exact KeepsPlans.refl db
  · obtain ⟨_, -, h⟩ := bind_eq_ok.1 h
    cases h
    exact keepsPlans_insert ..

theorem account_keepsPlans {db db' : Store} {now : ℚ} {provider subject email : PyStr}
    {name : Option PyStr} {id : Int}
    (h : account db now provider subject email name = .ok (db', id)) : KeepsPlans db db' := by
  unfold account at h
  obtain ⟨_, -, h⟩ := bind_eq_ok.1 h
  obtain ⟨_, -, h⟩ := bind_eq_ok.1 h
  split at h
  · cases h
    exact KeepsPlans.refl db
  · obtain ⟨⟨mid, user_id⟩, hmid, h⟩ := bind_eq_ok.1 h
    cases h
    exact (byEmailOrNew_keepsPlans hmid).addIdentity _

theorem sign_in_transaction_keepsPlans {db db' : Store} {now : ℚ}
    {provider subject email : PyStr} {name : Option PyStr} {id : Int}
    (h : sign_in_transaction db now provider subject email name = .ok (db', id)) :
    KeepsPlans db db' := by
  unfold sign_in_transaction at h
  obtain ⟨⟨mid, user_id⟩, hmid, h⟩ := bind_eq_ok.1 h
  obtain ⟨_, -, h⟩ := bind_eq_ok.1 h
  cases h
  exact (account_keepsPlans hmid).update id fun _ => rfl

theorem sign_in_keepsPlans (rt : Runtime) (db : Store) (now : ℚ)
    (provider subject email : PyStr) (name : Option PyStr) :
    KeepsPlans db (sign_in rt db now provider subject email name).1 := by
  unfold sign_in
  split
  · exact KeepsPlans.refl db
  · rename_i htransaction
    exact sign_in_transaction_keepsPlans htransaction

end Users

/-! ## Subscriptions -/

namespace Subscriptions

def by_customer (db : Store) (customer_id : PyStr) : Except PyError (Option Subscription) := do
  let _ ← bindText customer_id
  pure (db.subscriptions.rows.find? fun row => row.customer_id = customer_id)

/-- `INSERT .. ON CONFLICT(user_id) DO UPDATE` of a row that fits its columns. -/
def link (db : Store) (row : Subscription) : Except PyError Store :=
  if hcustomer : ∀ other ∈ db.subscriptions.rows,
      other.customer_id = row.customer_id → other.user_id = row.user_id then
    if huser : ∃ user ∈ db.users.rows, user.id = row.user_id then
      .ok { db with
        subscriptions := db.subscriptions.put row
        subscriptions_customer := by
          intro a ha b hb hab
          rcases Table.mem_put.1 ha with rfl | ⟨hamem, -⟩ <;>
            rcases Table.mem_put.1 hb with rfl | ⟨hbmem, -⟩
          · rfl
          · exact (hcustomer b hbmem hab.symm).symm
          · exact hcustomer a hamem hab
          · exact db.subscriptions_customer a hamem b hbmem hab
        references_users := by
          intro other hother
          rcases Table.mem_put.1 hother with rfl | ⟨hother, -⟩
          · exact huser
          · exact db.references_users other hother }
    else .error .integrityError
  else .error .integrityError

/-- `status` is `NOT NULL`. -/
def upsert (rt : Runtime) (db : Store) (now : ℚ) (user_id : Int) (customer_id : PyStr)
    (subscription_id status : Json) (current_period_end : Option Float)
    (cancel_at_period_end : Bool) : Except PyError Store := do
  let _ ← bindInt user_id
  let _ ← bindText customer_id
  let subscription_id ← bindValue subscription_id
  let status ← bindValue status
  match textColumn rt status with
  | none => .error .integrityError
  | some status =>
    link db {
      user_id, customer_id, status, cancel_at_period_end
      subscription_id := textColumn rt subscription_id
      current_period_end := current_period_end.filter fun x => !x.isNaN
      updated := now }

/-- True the first time an event id is seen; false on a redelivery. -/
def record_event (db : Store) (now : ℚ) (event_id kind : PyStr) :
    Except PyError (Store × Bool) := do
  let _ ← bindText event_id
  let _ ← bindText kind
  if h : db.stripe_events.find? event_id = none then
    pure ({ db with
      stripe_events := db.stripe_events.insert { id := event_id, type := kind, received := now } h },
      true)
  else pure (db, false)

/-- An upsert that returns has linked a row with the text of the status. -/
theorem upsert_eq_ok {rt : Runtime} {db db' : Store} {now : ℚ} {user_id : Int}
    {customer_id : PyStr} {subscription_id status : Json} {fin : Option Float} {cancel : Bool}
    (h : upsert rt db now user_id customer_id subscription_id status fin cancel = .ok db') :
    ∃ row v, link db row = .ok db' ∧ row.user_id = user_id ∧
      bindValue status = .ok v ∧ textColumn rt v = some row.status := by
  unfold upsert at h
  obtain ⟨_, -, h⟩ := bind_eq_ok.1 h
  obtain ⟨_, -, h⟩ := bind_eq_ok.1 h
  obtain ⟨_, -, h⟩ := bind_eq_ok.1 h
  obtain ⟨v, hbind, h⟩ := bind_eq_ok.1 h
  split at h
  · cases h
  · rename_i text htext
    exact ⟨_, v, h, rfl, hbind, htext⟩

theorem link_eq_ok {db db' : Store} {row : Subscription} (h : link db row = .ok db') :
    db'.users = db.users ∧ db'.subscriptions = db.subscriptions.put row ∧
      db'.stripe_events = db.stripe_events := by
  unfold link at h
  split at h
  · split at h
    · cases h
      exact ⟨rfl, rfl, rfl⟩
    · cases h
  · cases h

theorem record_event_eq_true {db db' : Store} {now : ℚ} {event_id kind : PyStr}
    (h : record_event db now event_id kind = .ok (db', true)) :
    db'.users = db.users ∧ db'.subscriptions = db.subscriptions ∧
      db'.stripe_events.rows.map StripeEvent.id =
        db.stripe_events.rows.map StripeEvent.id ++ [event_id] := by
  unfold record_event at h
  obtain ⟨_, -, h⟩ := bind_eq_ok.1 h
  obtain ⟨_, -, h⟩ := bind_eq_ok.1 h
  split at h
  · cases h
    exact ⟨rfl, rfl, List.map_append ..⟩
  · cases h

theorem record_event_eq_false {db db' : Store} {now : ℚ} {event_id kind : PyStr}
    (h : record_event db now event_id kind = .ok (db', false)) :
    event_id ∈ db.stripe_events.rows.map StripeEvent.id := by
  unfold record_event at h
  obtain ⟨_, -, h⟩ := bind_eq_ok.1 h
  obtain ⟨_, -, h⟩ := bind_eq_ok.1 h
  split at h
  · cases h
  · rename_i hfind
    obtain ⟨row, hrow⟩ := Option.ne_none_iff_exists'.1 hfind
    obtain ⟨hmem, hid⟩ := Table.find?_eq_some hrow
    exact List.mem_map.2 ⟨row, hmem, hid⟩

end Subscriptions

end OpendssGateway
