import OpendssGateway.Gateway.Applied

/-!
# Whose account is written

A row of `subscriptions` and the plan that follows from it are the account
of one user.

* `OnlyOf` is a change of the accounts of some users at most.
* `Concerns` says whom an event is about: whom its checkout refers to, or whom
  its customer is linked to.  `Concerns.unique`: that is one user at most.
* `apply_event_concerns`: an event writes the account of that user.
-/

namespace OpendssGateway

/-! ## Users have positive ids -/

namespace Users

def PositiveIds (db : Store) : Prop :=
  ∀ user ∈ db.users, 0 < user.id

section Statements

variable {db db' : Store}

theorem nextId_pos (db : Store) : 0 < nextId db := by
  have hle := (le_foldl_max db.users.rows 0).1
  unfold nextId
  omega

theorem PositiveIds.insert (h : PositiveIds db) (now : ℚ) (email : PyStr)
    (name : Option PyStr) : PositiveIds (Users.insert db now email name) := by
  intro user huser
  simp only [Users.insert, Table.mem_insert] at huser
  rcases huser with huser | rfl
  · exact h user huser
  · exact nextId_pos db

theorem PositiveIds.of_ids (h : PositiveIds db)
    (hids : ∀ user ∈ db'.users, ∃ old ∈ db.users, old.id = user.id) : PositiveIds db' := by
  intro user huser
  obtain ⟨old, hold, hid⟩ := hids user huser
  rw [← hid]
  exact h old hold

theorem PositiveIds.update (h : PositiveIds db) (user_id : Int) {f : User → User}
    (hf : ∀ user, (f user).id = user.id) : PositiveIds (Users.update db user_id f hf) := by
  apply h.of_ids
  intro user huser
  rcases mem_update.1 huser with ⟨huser, -⟩ | ⟨old, hold, -, rfl⟩
  · exact ⟨user, huser, rfl⟩
  · exact ⟨old, hold, (hf old).symm⟩

theorem PositiveIds.addIdentity (h : PositiveIds db) (identity : Identity) :
    PositiveIds (Users.addIdentity db identity) := by
  unfold Users.addIdentity
  split
  · exact h
  · exact h

theorem account_positive (h : PositiveIds db) {now : ℚ} {provider subject email : PyStr}
    {name : Option PyStr} {id : Int}
    (haccount : account db now provider subject email name = .ok (db', id)) :
    PositiveIds db' := by
  unfold account at haccount
  obtain ⟨_, -, haccount⟩ := bind_eq_ok.1 haccount
  obtain ⟨_, -, haccount⟩ := bind_eq_ok.1 haccount
  split at haccount
  · cases haccount
    exact h
  · obtain ⟨⟨mid, user_id⟩, hmid, haccount⟩ := bind_eq_ok.1 haccount
    cases haccount
    apply PositiveIds.addIdentity
    unfold byEmailOrNew at hmid
    obtain ⟨_, -, hmid⟩ := bind_eq_ok.1 hmid
    split at hmid
    · cases hmid
      exact h
    · obtain ⟨_, -, hmid⟩ := bind_eq_ok.1 hmid
      cases hmid
      exact h.insert now email name

theorem sign_in_transaction_positive (h : PositiveIds db) {now : ℚ}
    {provider subject email : PyStr} {name : Option PyStr} {id : Int}
    (htransaction : sign_in_transaction db now provider subject email name = .ok (db', id)) :
    PositiveIds db' := by
  unfold sign_in_transaction at htransaction
  obtain ⟨⟨mid, user_id⟩, hmid, htransaction⟩ := bind_eq_ok.1 htransaction
  obtain ⟨_, -, htransaction⟩ := bind_eq_ok.1 htransaction
  cases htransaction
  apply (account_positive h hmid).update

theorem sign_in_positive (h : PositiveIds db) (rt : Runtime) (now : ℚ)
    (provider subject email : PyStr) (name : Option PyStr) :
    PositiveIds (sign_in rt db now provider subject email name).1 := by
  unfold sign_in
  split
  · exact h
  · rename_i htransaction
    exact sign_in_transaction_positive h htransaction

end Statements

end Users

namespace Billing

/-! ## Accounts -/

/-- The plan and the subscription of a user are as they were. -/
def SameAccount (db db' : Store) (user_id : Int) : Prop :=
  (db'.users.find? user_id).map User.plan = (db.users.find? user_id).map User.plan ∧
    db'.subscriptions.find? user_id = db.subscriptions.find? user_id

/-- No account changes but those of some users, and nobody is new. -/
structure OnlyOf (owner : Int → Prop) (db db' : Store) : Prop where
  others : ∀ user_id, ¬ owner user_id → SameAccount db db' user_id
  ids : ∀ user ∈ db'.users, ∃ old ∈ db.users, old.id = user.id

namespace OnlyOf

variable {owner : Int → Prop} {db mid db' : Store} {row : Subscription}

/-- Nothing but users and subscriptions matters. -/
theorem of_tables (husers : db'.users = db.users) (hrows : db'.subscriptions = db.subscriptions) :
    OnlyOf owner db db' where
  others user_id _ := by
    unfold SameAccount
    rw [husers, hrows]
    exact ⟨rfl, rfl⟩
  ids user huser := ⟨user, husers ▸ huser, rfl⟩

theorem refl (owner : Int → Prop) (db : Store) : OnlyOf owner db db :=
  of_tables rfl rfl

theorem trans (h : OnlyOf owner db mid) (h' : OnlyOf owner mid db') : OnlyOf owner db db' where
  others user_id hother := by
    obtain ⟨hplan, hrow⟩ := h.others user_id hother
    obtain ⟨hplan', hrow'⟩ := h'.others user_id hother
    exact ⟨hplan'.trans hplan, hrow'.trans hrow⟩
  ids user huser := by
    obtain ⟨old, hold, hid⟩ := h'.ids user huser
    obtain ⟨first, hfirst, hid'⟩ := h.ids old hold
    exact ⟨first, hfirst, hid'.trans hid⟩

theorem mono {wider : Int → Prop} (h : OnlyOf owner db db') (hwider : ∀ id, owner id → wider id) :
    OnlyOf wider db db' where
  others user_id hother := h.others user_id fun howner => hother (hwider user_id howner)
  ids := h.ids

/-- A row and its plan are the account of one user. -/
theorem of_applied (h : Applied db row db') (howner : owner row.user_id) :
    OnlyOf owner db db' where
  others user_id hother := by
    have hne : user_id ≠ row.user_id := by
      rintro rfl
      exact hother howner
    constructor
    · -- a user with another id is in both tables or in neither
      congr 1
      apply Option.ext
      intro user
      rw [Table.find?_eq_some_iff, Table.find?_eq_some_iff, h.users]
      constructor
      · rintro ⟨⟨huser, -⟩ | ⟨old, -, hid, rfl⟩, rfl⟩
        · exact ⟨huser, rfl⟩
        · exact absurd hid hne
      · rintro ⟨huser, rfl⟩
        exact ⟨Or.inl ⟨huser, hne⟩, rfl⟩
    · apply Option.ext
      intro other
      rw [Table.find?_eq_some_iff, Table.find?_eq_some_iff, h.subscriptions]
      constructor
      · rintro ⟨rfl | ⟨hmem, -⟩, rfl⟩
        · exact absurd rfl hne
        · exact ⟨hmem, rfl⟩
      · rintro ⟨hmem, rfl⟩
        exact ⟨Or.inr ⟨hmem, hne⟩, rfl⟩
  ids user huser := by
    rcases h.users.1 huser with ⟨huser, -⟩ | ⟨old, hold, -, rfl⟩
    · exact ⟨user, huser, rfl⟩
    · exact ⟨old, hold, rfl⟩

theorem of_linked (h : LinkedFor owner db db') : OnlyOf owner db db' := by
  rcases h with rfl | ⟨row, mid, howner, hlink, hplan⟩
  · exact refl owner db'
  · exact of_applied ⟨mid, hlink, hplan⟩ howner

end OnlyOf

/-! ## Whom a session and an event are about -/

/-- The reference of a checkout: `metadata.user_id` where `client_reference_id` is
missing or empty. -/
def reference (session : Json) : Except PyError Json := do
  let reference ← session.get "client_reference_id"
  if reference.truthy then pure reference
  else ((← session.get "metadata").or (.obj [])).get "user_id"

/-- The user whom a completed checkout refers to, or whom the customer of an event is
linked to. -/
inductive Concerns (rt : Runtime) (db : Store) (event : Json) : Int → Prop
  | checkout {session ref : Json} {user_id : Int} :
      eventFields event = .ok (.str (py "checkout.session.completed"), session) →
      reference session = .ok ref → ref.toInt rt = .ok user_id → Concerns rt db event user_id
  | customer {kind : PyStr} {obj customer : Json} {row : Subscription} :
      eventFields event = .ok (.str kind, obj) →
      (py "customer.subscription.").isPrefixOf kind = true →
      obj.get "customer" = .ok customer → row ∈ db.subscriptions →
      row.customer_id = customer.toStr rt → Concerns rt db event row.user_id

section Owners

variable {rt : Runtime} {db db' : Store} {now : ℚ} {event session : Json} {user_id : Int}

/-- An event is about one user at most. -/
theorem Concerns.unique {other : Int} (h : Concerns rt db event user_id)
    (h' : Concerns rt db event other) : user_id = other := by
  have hkinds : (py "customer.subscription.").isPrefixOf (py "checkout.session.completed") ≠
      true := by decide
  cases h with
  | checkout hfields href hid =>
    cases h' with
    | checkout hfields' href' hid' =>
      rw [hfields] at hfields'
      cases hfields'
      rw [href] at href'
      cases href'
      rw [hid] at hid'
      exact Except.ok.inj hid'
    | customer hfields' hkind =>
      rw [hfields] at hfields'
      cases hfields'
      exact absurd hkind hkinds
  | customer hfields hkind hcustomer hrow hlinked =>
    cases h' with
    | checkout hfields' =>
      rw [hfields] at hfields'
      cases hfields'
      exact absurd hkind hkinds
    | customer hfields' _ hcustomer' hrow' hlinked' =>
      rw [hfields] at hfields'
      cases hfields'
      rw [hcustomer] at hcustomer'
      cases hcustomer'
      exact db.subscriptions_customer _ hrow _ hrow' (hlinked.trans hlinked'.symm)

/-- What an event is about depends on the subscriptions only. -/
theorem Concerns.congr (h : Concerns rt db event user_id)
    (hrows : db'.subscriptions = db.subscriptions) : Concerns rt db' event user_id := by
  cases h with
  | checkout hfields href hid => exact .checkout hfields href hid
  | customer hfields hkind hcustomer hrow hlinked =>
    exact .customer hfields hkind hcustomer (hrows ▸ hrow) hlinked

/-- The owner of a checkout, given its reference. -/
def ownerOf (rt : Runtime) (db : Store) (session reference : Json) :
    Except PyError (Option (Int × PyStr)) := do
  let customer ← session.get "customer"
  let mode ← session.get "mode"
  if !reference.truthy || !customer.truthy || !(mode.isNull || mode.isStr (py "subscription")) then
    pure none
  else
    match reference.toInt rt with
    | .error .valueError => pure none
    | .error e => throw e
    | .ok user_id =>
      match ← Users.get db user_id with
      | none => pure none
      | some _ => pure (some (user_id, customer.toStr rt))

theorem checkoutOwner_eq (rt : Runtime) (db : Store) (session : Json) :
    checkoutOwner rt db session = reference session >>= ownerOf rt db session := by
  unfold checkoutOwner reference
  cases session.get "client_reference_id" with
  | error e => rfl
  | ok client =>
    show (if client.truthy then _ else _) = (if client.truthy then _ else _) >>= _
    split_ifs
    · rfl
    · cases session.get "metadata" <;> rfl

/-- The owner of a checkout is the user of its reference. -/
theorem checkoutOwner_reference {customer_id : PyStr}
    (h : checkoutOwner rt db session = .ok (some (user_id, customer_id))) :
    ∃ ref, reference session = .ok ref ∧ ref.toInt rt = .ok user_id := by
  rw [checkoutOwner_eq] at h
  obtain ⟨ref, href, h⟩ := bind_eq_ok.1 h
  refine ⟨ref, href, ?_⟩
  unfold ownerOf at h
  obtain ⟨customer, -, h⟩ := bind_eq_ok.1 h
  obtain ⟨mode, -, h⟩ := bind_eq_ok.1 h
  split_ifs at h
  · cases h
  · cases hint : ref.toInt rt with
    | error e =>
      rw [hint] at h
      cases e <;> cases h
    | ok id =>
      rw [hint] at h
      obtain ⟨user, -, h⟩ := bind_eq_ok.1 h
      cases user <;> cases h
      rfl

/-! ## Whose account is written -/

/-- The row that an event is applied to is the one of its customer. -/
theorem subscriptionOwner_linked {obj : Json} {row : Subscription} {customer_id : PyStr}
    (h : subscriptionOwner rt db obj = .ok (some (row, customer_id))) :
    ∃ customer, obj.get "customer" = .ok customer ∧ row ∈ db.subscriptions ∧
      row.customer_id = customer.toStr rt := by
  unfold subscriptionOwner at h
  obtain ⟨customer, hcustomer, h⟩ := bind_eq_ok.1 h
  split_ifs at h
  · obtain ⟨found, hfound, h⟩ := bind_eq_ok.1 h
    unfold Subscriptions.by_customer at hfound
    obtain ⟨_, -, hfound⟩ := bind_eq_ok.1 hfound
    cases hfound
    obtain ⟨row', hrow, heq⟩ := Option.map_eq_some_iff.1 (Except.ok.inj h)
    cases heq
    obtain ⟨hmem, hlinked⟩ := Subscriptions.find_customer_iff.1 hrow
    exact ⟨customer, hcustomer, hmem, hlinked⟩
  · cases h

/-- An event writes the account of the user whom it is about. -/
theorem apply_event_concerns (rt : Runtime) (db : Store) (now : ℚ) (event : Json) :
    WritesFor (Concerns rt db event) db (apply_event rt db now event) := by
  apply apply_event_writes
  · intro session id customer_id hfields howner
    obtain ⟨ref, href, hid⟩ := checkoutOwner_reference howner
    exact .checkout hfields href hid
  · intro kind obj row customer_id hfields hkind howner
    obtain ⟨customer, hcustomer, hmem, hlinked⟩ := subscriptionOwner_linked howner
    exact .customer hfields hkind hcustomer hmem hlinked

end Owners

end Billing

end OpendssGateway
