import OpendssGateway.Gateway.SignIn

/-!
# Accounts over sequences of sign-ins

What a call of `sign_in` keeps, and what holds after any sequence of calls
with any of their statements failing.

* `Accounts` is the invariant of the tables.
* `Extends` is what a call does to users and identities that are there.
* `SignedInto` is what a call that commits has done.
* `accounts_are_stable` and `same_account_iff` are the results.
-/

namespace OpendssGateway

namespace Users

open Transaction

/-! ## The tables -/

/-- Emails are unique and in normal form, and an identity belongs to the user with the
email it was made with. -/
structure Accounts (rt : Runtime) (db : Store) : Prop where
  emails : ∀ a ∈ db.users, ∀ b ∈ db.users, a.email = b.email → a = b
  normal : ∀ user ∈ db.users, rt.normalized user.email = user.email
  owners : ∀ identity ∈ db.identities,
    ∃ user ∈ db.users, user.id = identity.user_id ∧ user.email = identity.email

/-- Nothing is lost: users keep id, email, name and session, identities their row. -/
structure Extends (db db' : Store) : Prop where
  users : ∀ user ∈ db.users, ∃ user' ∈ db'.users, user'.id = user.id ∧
    user'.email = user.email ∧ (user.name ≠ none → user'.name = user.name) ∧
    user'.session_epoch = user.session_epoch ∧ user'.disabled = user.disabled
  identities : ∀ identity ∈ db.identities, identity ∈ db'.identities

theorem accounts_empty (rt : Runtime) : Accounts rt Store.empty where
  emails _ h := absurd h (Table.not_mem_empty _)
  normal _ h := absurd h (Table.not_mem_empty _)
  owners _ h := absurd h (Table.not_mem_empty _)

theorem Extends.refl (db : Store) : Extends db db where
  users user huser := ⟨user, huser, rfl, rfl, fun _ => rfl, rfl, rfl⟩
  identities _ h := h

theorem Extends.trans {a b c : Store} (hab : Extends a b) (hbc : Extends b c) : Extends a c where
  users user huser := by
    obtain ⟨mid, hmid, hid, hemail, hname, hepoch, hdisabled⟩ := hab.users user huser
    obtain ⟨last, hlast, hid', hemail', hname', hepoch', hdisabled'⟩ := hbc.users mid hmid
    refine ⟨last, hlast, hid'.trans hid, hemail'.trans hemail, fun hsome => ?_,
      hepoch'.trans hepoch, hdisabled'.trans hdisabled⟩
    have hmid_name := hname hsome
    exact (hname' (hmid_name ▸ hsome)).trans hmid_name
  identities identity h := hbc.identities identity (hab.identities identity h)

/-- The user of an identity is a row of the table. -/
theorem byIdentity_eq_some {db : Store} {provider subject : PyStr} {user : User}
    (h : byIdentity db provider subject = some user) :
    user ∈ db.users ∧ ∃ identity ∈ db.identities,
      identity.key = (provider, subject) ∧ identity.user_id = user.id := by
  obtain ⟨identity, hidentity, huser⟩ := Option.bind_eq_some_iff.1 h
  obtain ⟨hmem, hkey⟩ := Table.find?_eq_some hidentity
  obtain ⟨huser, hid⟩ := Table.find?_eq_some huser
  exact ⟨huser, identity, hmem, hkey, hid.symm⟩

/-- No dangling identity: one without a user is not there. -/
theorem Accounts.byIdentity_eq_none {rt : Runtime} {db : Store} (h : Accounts rt db)
    {provider subject : PyStr} (hnone : byIdentity db provider subject = none) :
    db.identities.find? (provider, subject) = none := by
  cases hfind : db.identities.find? (provider, subject) with
  | none => rfl
  | some identity =>
    obtain ⟨hmem, -⟩ := Table.find?_eq_some hfind
    obtain ⟨user, huser, hid, -⟩ := h.owners identity hmem
    unfold byIdentity at hnone
    rw [hfind] at hnone
    exact absurd hid (Table.find?_eq_none_iff.1 hnone user huser)

/-! ## The statements -/

section Statements

variable {rt : Runtime} {db : Store}

theorem extends_insert (db : Store) (now : ℚ) (email : PyStr) (name : Option PyStr) :
    Extends db (insert db now email name) where
  users user huser := by
    have hmem : user ∈ (insert db now email name).users := by
      simp only [insert, Table.mem_insert]
      exact Or.inl huser
    exact ⟨user, hmem, rfl, rfl, fun _ => rfl, rfl, rfl⟩
  identities _ h := h

theorem mem_insert (db : Store) (now : ℚ) (email : PyStr) (name : Option PyStr) :
    ∃ user ∈ (insert db now email name).users, user.id = nextId db ∧ user.email = email := by
  refine ⟨{ id := nextId db, email, name, plan := py "free", created := now, last_seen := now,
            session_epoch := 0, disabled := false }, ?_, rfl, rfl⟩
  simp only [insert, Table.mem_insert, or_true]

theorem Accounts.insert (h : Accounts rt db) (now : ℚ) {email : PyStr} (name : Option PyStr)
    (hnormal : rt.normalized email = email) (hnew : ∀ user ∈ db.users, user.email ≠ email) :
    Accounts rt (Users.insert db now email name) := by
  constructor
  · intro a ha b hb hemail
    simp only [Users.insert, Table.mem_insert] at ha hb
    rcases ha with ha | rfl
    · rcases hb with hb | rfl
      · exact h.emails a ha b hb hemail
      · exact absurd hemail (hnew a ha)
    · rcases hb with hb | rfl
      · exact absurd hemail.symm (hnew b hb)
      · rfl
  · intro user huser
    simp only [Users.insert, Table.mem_insert] at huser
    rcases huser with huser | rfl
    · exact h.normal user huser
    · exact hnormal
  · intro identity hidentity
    obtain ⟨user, huser, howner⟩ := h.owners identity hidentity
    refine ⟨user, ?_, howner⟩
    simp only [Users.insert, Table.mem_insert]
    exact Or.inl huser

/-- A row is inserted unless its key is taken. -/
theorem mem_addIdentity {identity other : Identity} :
    other ∈ (addIdentity db identity).identities ↔
      other ∈ db.identities ∨ db.identities.find? identity.key = none ∧ other = identity := by
  unfold addIdentity
  split
  · rename_i hnone
    simp only [Table.mem_insert]
    exact or_congr_right ⟨fun heq => ⟨hnone, heq⟩, fun h => h.2⟩
  · rename_i hsome
    exact ⟨Or.inl, fun h => h.resolve_right fun h => hsome h.1⟩

theorem addIdentity_users (db : Store) (identity : Identity) :
    (addIdentity db identity).users = db.users := by
  unfold addIdentity
  split <;> rfl

theorem extends_addIdentity (db : Store) (identity : Identity) :
    Extends db (addIdentity db identity) := by
  constructor
  · rw [addIdentity_users]
    exact (Extends.refl db).users
  · exact fun other hother => mem_addIdentity.2 (Or.inl hother)

theorem Accounts.addIdentity (h : Accounts rt db) {identity : Identity}
    (howner : ∃ user ∈ db.users, user.id = identity.user_id ∧ user.email = identity.email) :
    Accounts rt (Users.addIdentity db identity) := by
  constructor
  · rw [addIdentity_users]
    exact h.emails
  · rw [addIdentity_users]
    exact h.normal
  · rw [addIdentity_users]
    intro other hother
    rcases mem_addIdentity.1 hother with hother | ⟨-, rfl⟩
    · exact h.owners other hother
    · exact howner

theorem extends_seen (db : Store) (now : ℚ) (name : Option PyStr) (user_id : Int) :
    Extends db (update db user_id (seen now name) fun _ => rfl) where
  users user huser := by
    by_cases hid : user.id = user_id
    · refine ⟨seen now name user, mem_update.2 (Or.inr ⟨user, huser, hid, rfl⟩), rfl, rfl,
        fun hsome => ?_, rfl, rfl⟩
      obtain ⟨old, hold⟩ := Option.ne_none_iff_exists'.1 hsome
      show user.name.or name = user.name
      rw [hold]
      rfl
    · exact ⟨user, mem_update.2 (Or.inl ⟨huser, hid⟩), rfl, rfl, fun _ => rfl, rfl, rfl⟩
  identities _ h := h

/-- An update of columns other than the id and the email. -/
theorem Accounts.update (h : Accounts rt db) (user_id : Int) {f : User → User}
    {hf : ∀ user, (f user).id = user.id} (hemail : ∀ user, (f user).email = user.email) :
    Accounts rt (Users.update db user_id f hf) := by
  -- every user comes from one with the same id and email, and goes on to one
  have hold : ∀ user ∈ (Users.update db user_id f hf).users,
      ∃ old ∈ db.users, old.id = user.id ∧ old.email = user.email := by
    intro user huser
    rcases mem_update.1 huser with ⟨huser, -⟩ | ⟨old, hmem, -, rfl⟩
    · exact ⟨user, huser, rfl, rfl⟩
    · exact ⟨old, hmem, (hf old).symm, (hemail old).symm⟩
  have hnew : ∀ old ∈ db.users, ∃ user ∈ (Users.update db user_id f hf).users,
      user.id = old.id ∧ user.email = old.email := by
    intro old hmem
    by_cases hid : old.id = user_id
    · exact ⟨f old, mem_update.2 (Or.inr ⟨old, hmem, hid, rfl⟩), hf old, hemail old⟩
    · exact ⟨old, mem_update.2 (Or.inl ⟨hmem, hid⟩), rfl, rfl⟩
  constructor
  · intro a ha b hb hab
    obtain ⟨olda, holda, hida, hemaila⟩ := hold a ha
    obtain ⟨oldb, holdb, hidb, hemailb⟩ := hold b hb
    have hsame := h.emails olda holda oldb holdb (hemaila.trans (hab.trans hemailb.symm))
    subst hsame
    exact Table.eq_of_key ha hb (hida.symm.trans hidb)
  · intro user huser
    obtain ⟨old, hmem, -, hsame⟩ := hold user huser
    rw [← hsame]
    exact h.normal old hmem
  · intro identity hidentity
    obtain ⟨owner, howner, hid, hsame⟩ := h.owners identity hidentity
    obtain ⟨user, huser, huser_id, huser_email⟩ := hnew owner howner
    exact ⟨user, huser, huser_id.trans hid, huser_email.trans hsame⟩

theorem Accounts.seen (h : Accounts rt db) (now : ℚ) (name : Option PyStr) (user_id : Int) :
    Accounts rt (Users.update db user_id (Users.seen now name) fun _ => rfl) :=
  h.update user_id fun _ => rfl

end Statements

/-! ## A call that commits -/

/-- What a sign-in has done. -/
structure SignedInto (rt : Runtime) (key : PyStr × PyStr) (email : PyStr) (db db' : Store)
    (user_id : Int) : Prop where
  extends_ : Extends db db'
  accounts : Accounts rt db'
  /-- The identity is there, with the email of the call if it is new. -/
  identity : ∃ identity ∈ db'.identities, identity.key = key ∧ identity.user_id = user_id ∧
    (db.identities.find? key = none → identity.email = email)
  only : ∀ identity ∈ db'.identities, identity ∈ db.identities ∨ identity.key = key
  /-- SQLite takes the texts of the key. -/
  bound : (∃ v, bindText key.1 = .ok v) ∧ ∃ v, bindText key.2 = .ok v

section Transaction

variable {rt : Runtime} {db db' : Store} {now : ℚ} {provider subject email : PyStr}
  {name : Option PyStr} {user_id : Int}

/-- The user with an email is found or created, and identities are left alone. -/
theorem byEmailOrNew_spec (hdb : Accounts rt db) (hnormal : rt.normalized email = email)
    (h : byEmailOrNew db now email name = .ok (db', user_id)) :
    Extends db db' ∧ Accounts rt db' ∧ db'.identities = db.identities ∧
      ∃ user ∈ db'.users, user.id = user_id ∧ user.email = email := by
  unfold byEmailOrNew at h
  obtain ⟨_, -, h⟩ := bind_eq_ok.1 h
  split at h
  · rename_i user hfind
    cases h
    have hemail := List.find?_some hfind
    exact ⟨Extends.refl db, hdb, rfl, user, List.mem_of_find?_eq_some hfind, rfl,
      by simpa using hemail⟩
  · rename_i hfind
    obtain ⟨_, -, h⟩ := bind_eq_ok.1 h
    cases h
    have hnew : ∀ user ∈ db.users, user.email ≠ email := by
      simpa [Table.mem_def] using hfind
    exact ⟨extends_insert .., hdb.insert now name hnormal hnew, rfl, mem_insert ..⟩

theorem account_spec (hdb : Accounts rt db) (hnormal : rt.normalized email = email)
    (h : account db now provider subject email name = .ok (db', user_id)) :
    SignedInto rt (provider, subject) email db db' user_id := by
  unfold account at h
  obtain ⟨v, hprovider, h⟩ := bind_eq_ok.1 h
  obtain ⟨w, hsubject, h⟩ := bind_eq_ok.1 h
  have hbound : (∃ v, bindText provider = .ok v) ∧ ∃ v, bindText subject = .ok v :=
    ⟨⟨v, hprovider⟩, w, hsubject⟩
  split at h
  · rename_i user hknown
    cases h
    obtain ⟨-, identity, hmem, hkey, hid⟩ := byIdentity_eq_some hknown
    refine ⟨Extends.refl db, hdb, ⟨identity, hmem, hkey, hid, fun hnone => ?_⟩,
      fun _ h => Or.inl h, hbound⟩
    exact absurd hkey (Table.find?_eq_none_iff.1 hnone identity hmem)
  · rename_i hunknown
    obtain ⟨⟨mid, id⟩, hmid, h⟩ := bind_eq_ok.1 h
    cases h
    obtain ⟨hextends, haccounts, hidentities, howner⟩ := byEmailOrNew_spec hdb hnormal hmid
    have hfree : mid.identities.find? (provider, subject) = none := by
      rw [hidentities]
      exact hdb.byIdentity_eq_none hunknown
    refine ⟨hextends.trans (extends_addIdentity ..), haccounts.addIdentity howner,
      ⟨_, mem_addIdentity.2 (Or.inr ⟨hfree, rfl⟩), rfl, rfl, fun _ => rfl⟩, ?_, hbound⟩
    intro identity hidentity
    rcases mem_addIdentity.1 hidentity with hold | ⟨-, rfl⟩
    · exact Or.inl (hidentities ▸ hold)
    · exact Or.inr rfl

theorem sign_in_transaction_spec (hdb : Accounts rt db) (hnormal : rt.normalized email = email)
    (h : sign_in_transaction db now provider subject email name = .ok (db', user_id)) :
    SignedInto rt (provider, subject) email db db' user_id := by
  unfold sign_in_transaction at h
  obtain ⟨⟨mid, id⟩, hmid, h⟩ := bind_eq_ok.1 h
  obtain ⟨_, -, h⟩ := bind_eq_ok.1 h
  cases h
  have hinto := account_spec hdb hnormal hmid
  exact ⟨hinto.extends_.trans (extends_seen ..), hinto.accounts.seen now name user_id,
    hinto.identity, hinto.only, hinto.bound⟩

end Transaction

/-! ## Sequences of calls -/

/-- The connection.  `returned` and `made` are history: the calls that returned a user,
and the calls that made an identity. -/
structure SignIns where
  connection : Connection Store
  returned : List (SignInCall × User)
  made : List SignInCall

namespace SignIns

variable (rt : Runtime)

def init : SignIns where
  connection := Connection.closed Store.empty
  returned := []
  made := []

/-- The identity of the call is there. -/
def knows (c : Connection Store) (call : SignInCall) : Bool :=
  (c.committed.identities.find? call.key).isSome

def next (s : SignIns) (call : SignInCall) : Option SignIns :=
  let outcome := (call.signIn rt).on s.connection
  let made :=
    if !knows s.connection call && knows outcome.2 call then s.made ++ [call] else s.made
  let returned :=
    match outcome.1 with
    | .ok (some user) => s.returned ++ [(call, user)]
    | _ => s.returned
  some { connection := outcome.2, made, returned }

def machine : Transition.Machine SignIns SignInCall where
  init := init
  next := next rt

end SignIns

/-- Between calls no transaction is open, an identity that was made belongs to the user
with the address of the call that made it, and one that signed a user in belongs to
that user. -/
structure Settled (rt : Runtime) (s : SignIns) : Prop where
  closed : s.connection = Connection.closed s.connection.committed
  accounts : Accounts rt s.connection.committed
  made : ∀ call ∈ s.made, ∃ identity ∈ s.connection.committed.identities,
    identity.key = call.key ∧ identity.email = call.address rt
  returned : ∀ entry ∈ s.returned, ∃ identity ∈ s.connection.committed.identities,
    identity.key = entry.1.key ∧ identity.user_id = entry.2.id ∧ identity.email = entry.2.email
  bound : ∀ entry ∈ s.returned, (∃ v, bindText entry.1.provider = .ok v) ∧
    (∃ v, bindText entry.1.subject = .ok v) ∧ ∃ v, bindInt entry.2.id = .ok v

theorem settled_init (rt : Runtime) : Settled rt SignIns.init where
  closed := rfl
  accounts := accounts_empty rt
  made _ h := absurd h List.not_mem_nil
  returned _ h := absurd h List.not_mem_nil
  bound _ h := absurd h List.not_mem_nil

/-- A call on a settled connection, in the terms of the tables. -/
theorem signIn_spec {rt : Runtime} {db : Store} (hdb : Accounts rt db) (call : SignInCall) :
    (∃ e, (call.signIn rt).on (Connection.closed db) = (.error e, Connection.closed db)) ∨
      ∃ db' user_id, SignedInto rt call.key (call.address rt) db db' user_id ∧
        (call.signIn rt).on (Connection.closed db) =
          (call.answer db' user_id, Connection.closed db') := by
  have hcases := @SignInCall.signIn_cases rt call db
  rcases hcases with h | ⟨db', user_id, hstep, hon⟩
  · exact Or.inl h
  · have hnormal : rt.normalized (call.address rt) = call.address rt :=
      normalized_normalized rt call.email
    exact Or.inr ⟨db', user_id, sign_in_transaction_spec hdb hnormal hstep, hon⟩

/-- The user that the read-back finds is the owner of the identity. -/
theorem SignedInto.owner {rt : Runtime} {key : PyStr × PyStr} {email : PyStr} {db db' : Store}
    {user_id : Int} (h : SignedInto rt key email db db' user_id) {user : User}
    (hget : get db' user_id = .ok (some user)) :
    user ∈ db'.users ∧ user.id = user_id ∧ (∃ v, bindInt user.id = .ok v) ∧
      ∃ identity ∈ db'.identities, identity.key = key ∧ identity.user_id = user.id ∧
        identity.email = user.email := by
  obtain ⟨v, hbind, hfind⟩ := bind_eq_ok.1 hget
  obtain ⟨huser, hid⟩ := Table.find?_eq_some (Except.ok.inj hfind)
  obtain ⟨identity, hidentity, hkey, hidentity_id, -⟩ := h.identity
  obtain ⟨owner, howner, howner_id, howner_email⟩ := h.accounts.owners identity hidentity
  have hsame : owner = user := Table.eq_of_key howner huser (by
    show owner.id = user.id
    rw [howner_id, hidentity_id, hid])
  subst hsame
  exact ⟨huser, hid, ⟨v, hid ▸ hbind⟩, identity, hidentity, hkey,
    hidentity_id.trans hid.symm, howner_email.symm⟩

theorem next_settled {rt : Runtime} {s s' : SignIns} {call : SignInCall} (hs : Settled rt s)
    (hnext : SignIns.next rt s call = some s') : Settled rt s' := by
  unfold SignIns.next at hnext
  rcases signIn_spec hs.accounts call with ⟨e, hon⟩ | ⟨db', user_id, hinto, hon⟩
  · rw [← hs.closed] at hon
    simp only [hon, Bool.not_and_self, Bool.false_eq_true, if_false] at hnext
    cases hnext
    exact hs
  · rw [← hs.closed] at hon
    simp only [hon] at hnext
    cases hnext
    obtain ⟨identity, hidentity, hkey, hid, hemail⟩ := hinto.identity
    refine ⟨rfl, hinto.accounts, ?_, ?_, ?_⟩
    · intro other hother
      have hold : ∀ other ∈ s.made, ∃ identity ∈ db'.identities,
          identity.key = other.key ∧ identity.email = other.address rt := by
        intro other hother
        obtain ⟨kept, hkept, hkeys⟩ := hs.made other hother
        exact ⟨kept, hinto.extends_.identities kept hkept, hkeys⟩
      split_ifs at hother with hmade
      · rcases List.mem_append.1 hother with hother | hother
        · exact hold other hother
        · rw [List.mem_singleton.1 hother]
          refine ⟨identity, hidentity, hkey, hemail ?_⟩
          simpa [SignIns.knows] using (Bool.and_eq_true_iff.1 hmade).1
      · exact hold other hother
    · intro entry hentry
      have hold : ∀ entry ∈ s.returned, ∃ identity ∈ db'.identities,
          identity.key = entry.1.key ∧ identity.user_id = entry.2.id ∧
            identity.email = entry.2.email := by
        intro entry hentry
        obtain ⟨kept, hkept, hkeys⟩ := hs.returned entry hentry
        exact ⟨kept, hinto.extends_.identities kept hkept, hkeys⟩
      split at hentry
      · rename_i user hresult
        rcases List.mem_append.1 hentry with hentry | hentry
        · exact hold entry hentry
        · rw [List.mem_singleton.1 hentry]
          have hget := SignInCall.answer_eq_ok hresult
          obtain ⟨-, -, -, kept, hkept⟩ := hinto.owner hget
          exact ⟨kept, hkept⟩
      · exact hold entry hentry
    · intro entry hentry
      split at hentry
      · rename_i user hresult
        rcases List.mem_append.1 hentry with hentry | hentry
        · exact hs.bound entry hentry
        · rw [List.mem_singleton.1 hentry]
          obtain ⟨-, -, hbind, -⟩ := hinto.owner (SignInCall.answer_eq_ok hresult)
          exact ⟨hinto.bound.1, hinto.bound.2, hbind⟩
      · exact hs.bound entry hentry

/-! ## Stability -/

/-- Who presents an identity that signed a user in, signs in that user. -/
theorem Settled.same_user {rt : Runtime} {s : SignIns} (hs : Settled rt s)
    {entry : SignInCall × User} (hentry : entry ∈ s.returned) {call : SignInCall}
    (hkey : call.key = entry.1.key) {result : Option User} {c : Connection Store}
    (hon : (call.signIn rt).on s.connection = (.ok result, c)) :
    ∃ user, result = some user ∧ user.id = entry.2.id ∧ user.email = entry.2.email := by
  obtain ⟨identity, hidentity, hidentity_key, hid, hemail⟩ := hs.returned entry hentry
  rw [hs.closed] at hon
  rcases signIn_spec hs.accounts call with ⟨e, herror⟩ | ⟨db', user_id, hinto, hcommit⟩
  · rw [herror] at hon
    cases hon
  · rw [hcommit] at hon
    obtain ⟨hresult, -⟩ := Prod.mk.inj hon
    have hget := SignInCall.answer_eq_ok hresult
    obtain ⟨found, hfound, hfound_key, hfound_id, -⟩ := hinto.identity
    -- the identity is the row it was before the call
    have hsame : found = identity := by
      apply Table.eq_of_key hfound (hinto.extends_.identities identity hidentity)
      rw [hfound_key, hkey, hidentity_key]
    subst hsame
    obtain ⟨owner, howner, howner_id, howner_email⟩ := hinto.accounts.owners found hfound
    have hfind : db'.users.find? user_id = some owner :=
      Table.find?_eq_some_iff.2 ⟨howner, howner_id.trans hfound_id⟩
    obtain ⟨_, -, hget⟩ := bind_eq_ok.1 hget
    rw [hfind] at hget
    cases hget
    exact ⟨owner, rfl, howner_id.trans hid, howner_email.trans hemail⟩

/-- The transaction on an identity that is known. -/
theorem sign_in_transaction_known {db : Store} {provider subject : PyStr} {owner : User}
    (hprovider : ∃ v, bindText provider = .ok v) (hsubject : ∃ v, bindText subject = .ok v)
    (hknown : byIdentity db provider subject = some owner) (now : ℚ) (email : PyStr)
    {name : Option PyStr} (hname : ∃ v, bindName name = .ok v) :
    sign_in_transaction db now provider subject email name =
      .ok (update db owner.id (seen now name) fun _ => rfl, owner.id) := by
  obtain ⟨v, hprovider⟩ := hprovider
  obtain ⟨w, hsubject⟩ := hsubject
  obtain ⟨x, hname⟩ := hname
  have haccount : account db now provider subject email name = .ok (db, owner.id) := by
    unfold account
    rw [hprovider, hsubject, hknown]
    rfl
  unfold sign_in_transaction
  rw [haccount, hname]
  rfl

/-- The user whose row was touched is read back. -/
theorem get_seen {db : Store} {owner : User} (howner : owner ∈ db.users) {v : SqlValue}
    (hbind : bindInt owner.id = .ok v) (now : ℚ) (name : Option PyStr) :
    get (update db owner.id (seen now name) fun _ => rfl) owner.id =
      .ok (some (seen now name owner)) := by
  unfold get
  rw [hbind]
  exact congrArg Except.ok (Table.find?_eq_some_iff.2
    ⟨mem_update.2 (Or.inr ⟨owner, howner, rfl, rfl⟩), rfl⟩)

/-- A call that presents such an identity returns, unless a statement fails or SQLite
does not take the name. -/
theorem Settled.returns {rt : Runtime} {s : SignIns} (hs : Settled rt s)
    {entry : SignInCall × User} (hentry : entry ∈ s.returned) {call : SignInCall}
    (hkey : call.key = entry.1.key) (hfault : call.fault = none)
    (hname : ∃ v, bindName call.name = .ok v) :
    ∃ user c, (call.signIn rt).on s.connection = (.ok (some user), c) := by
  obtain ⟨identity, hidentity, hidentity_key, hid, -⟩ := hs.returned entry hentry
  obtain ⟨hprovider, hsubject, x, hbind⟩ := hs.bound entry hentry
  obtain ⟨owner, howner, howner_id, -⟩ := hs.accounts.owners identity hidentity
  rw [← hid, ← howner_id] at hbind
  have hprovider_eq : call.provider = entry.1.provider := congrArg Prod.fst hkey
  have hsubject_eq : call.subject = entry.1.subject := congrArg Prod.snd hkey
  have hknown : byIdentity s.connection.committed call.provider call.subject = some owner := by
    unfold byIdentity
    have hfind : s.connection.committed.identities.find? (call.provider, call.subject) =
        some identity :=
      Table.find?_eq_some_iff.2 ⟨hidentity, hidentity_key.trans hkey.symm⟩
    rw [hfind]
    exact Table.find?_eq_some_iff.2 ⟨howner, howner_id⟩
  have hstep := sign_in_transaction_known (hprovider_eq ▸ hprovider) (hsubject_eq ▸ hsubject)
    hknown call.now (rt.normalized call.email) hname
  have hclean : call.clean = call := by
    cases call
    cases hfault
    rfl
  have hresult : sign_in rt s.connection.committed call.now call.provider call.subject
      call.email call.name =
        (update s.connection.committed owner.id (seen call.now call.name) fun _ => rfl,
          .ok (some (seen call.now call.name owner))) := by
    unfold sign_in
    rw [hstep]
    exact congrArg (Prod.mk _) (get_seen howner hbind call.now call.name)
  have hon : (call.clean.signIn rt).on (Connection.closed s.connection.committed) = _ :=
    SignInCall.signIn_clean s.connection.committed
  rw [hclean, ← hs.closed, hresult] at hon
  exact ⟨_, _, hon⟩

/-- The call fails before it has committed.  Only the read-back comes later, and an id
that does not fit is found there. -/
def SignInError.rollsBack : SignInError → Prop
  | .statement s => s ≠ .readBack
  | .python e => e ≠ .overflowError

theorem Settled.rolled_back {rt : Runtime} {s : SignIns} (hs : Settled rt s) {call : SignInCall}
    {e : SignInError} {c : Connection Store}
    (hon : (call.signIn rt).on s.connection = (.error e, c)) (he : e.rollsBack) :
    c = s.connection := by
  rw [hs.closed] at hon
  rcases signIn_spec hs.accounts call with ⟨e', herror⟩ | ⟨db', user_id, -, hcommit⟩
  · rw [herror] at hon
    rw [hs.closed]
    exact (Prod.mk.inj hon).2.symm
  · rw [hcommit] at hon
    have hanswer := (Prod.mk.inj hon).1
    unfold SignInCall.answer at hanswer
    unfold SignInCall.failure failureOf at hanswer
    split at hanswer
    · rename_i hfailure
      split_ifs at hfailure
      cases hfailure
      cases hanswer
      exact absurd rfl he
    · unfold get bindInt at hanswer
      split_ifs at hanswer with hfits
      · cases hanswer
      · cases hanswer
        exact absurd rfl he

theorem reachable_settled {rt : Runtime} {s : SignIns} (h : (SignIns.machine rt).Reachable s) :
    Settled rt s :=
  h.invariant (Settled rt) (settled_init rt) fun _ _ _ hs _ hnext => next_settled hs hnext

theorem next_extends {rt : Runtime} {s s' : SignIns} {call : SignInCall} (hs : Settled rt s)
    (hnext : SignIns.next rt s call = some s') :
    Extends s.connection.committed s'.connection.committed := by
  have hconnection : s'.connection = ((call.signIn rt).on s.connection).2 := by
    unfold SignIns.next at hnext
    cases hnext
    rfl
  rw [hconnection, hs.closed]
  rcases signIn_spec hs.accounts call with ⟨e, hon⟩ | ⟨db', user_id, hinto, hon⟩
  · rw [hon]
    exact Extends.refl _
  · rw [hon]
    exact hinto.extends_

/-- Nothing is lost over any sequence of calls. -/
theorem run_extends {rt : Runtime} {s s' : SignIns} {calls : List SignInCall}
    (hs : Settled rt s) (hrun : (SignIns.machine rt).run s calls = some s') :
    Extends s.connection.committed s'.connection.committed := by
  induction calls generalizing s with
  | nil =>
    cases hrun
    exact Extends.refl _
  | cons call rest ih =>
    obtain ⟨mid, hmid, hrest⟩ := Option.bind_eq_some_iff.1 hrun
    exact (next_extends hs hmid).trans (ih (next_settled hs hmid) hrest)

/-- A call whose read-back fails has signed in all the same. -/
theorem readBack_fault_commits {rt : Runtime} {call : SignInCall} (db : Store)
    (h : call.fault = some .readBack) :
    ((call.signIn rt).on (Connection.closed db)).2 =
      ((call.clean.signIn rt).on (Connection.closed db)).2 := by
  have hbody : call.body rt = call.clean.body rt := by
    cases call
    cases h
    rfl
  have hbegin : call.failure .begin = none := by
    simp [SignInCall.failure, failureOf, h]
  have hcommit : call.failure .commit = none := by
    simp [SignInCall.failure, failureOf, h]
  unfold SignInCall.signIn
  rw [Txn.on_bind, Txn.on_bind, hbody, hbegin, hcommit,
    Runs.transaction SignInCall.local_body, Runs.transaction SignInCall.local_body]
  cases (call.clean.body rt).step db with
  | error e => rfl
  | ok result =>
    show Prod.snd (Txn.on _ (Connection.closed result.1)) =
      Prod.snd (Txn.on _ (Connection.closed result.1))
    rw [SignInCall.readBack_on, SignInCall.readBack_on]

/-- After any sequence of calls, with any statement failing in each: an identity that
signed a user in goes on to sign in that user, emails are unique and in normal form, an
identity has a user, a magic link's the user with its address, names stay, and a call
that fails before it has committed changes nothing.  A call that fails at the read-back
has signed in. -/
theorem accounts_are_stable {rt : Runtime} {s : SignIns}
    (h : (SignIns.machine rt).Reachable s) :
    (∀ entry ∈ s.returned, ∀ call : SignInCall, call.key = entry.1.key →
      (∀ result c, (call.signIn rt).on s.connection = (.ok result, c) →
        ∃ user, result = some user ∧ user.id = entry.2.id ∧ user.email = entry.2.email) ∧
      (call.fault = none → (∃ v, bindName call.name = .ok v) →
        ∃ user c, (call.signIn rt).on s.connection = (.ok (some user), c))) ∧
    (∀ a ∈ s.connection.committed.users, ∀ b ∈ s.connection.committed.users,
      a.email = b.email → a = b) ∧
    (∀ user ∈ s.connection.committed.users, rt.normalized user.email = user.email) ∧
    (∀ identity ∈ s.connection.committed.identities,
      ∃ user ∈ s.connection.committed.users, user.id = identity.user_id) ∧
    (∀ call ∈ s.made, call.provider = py "email" → call.email = call.subject →
      rt.normalized call.subject = call.subject →
      ∃ identity ∈ s.connection.committed.identities,
        identity.key = (py "email", call.subject) ∧
        ∃ user ∈ s.connection.committed.users,
          user.id = identity.user_id ∧ user.email = call.subject) ∧
    (∀ calls s', (SignIns.machine rt).run s calls = some s' →
      ∀ user ∈ s.connection.committed.users, user.name ≠ none →
        ∃ user' ∈ s'.connection.committed.users,
          user'.id = user.id ∧ user'.name = user.name) ∧
    ∀ call : SignInCall,
      (∀ e c, (call.signIn rt).on s.connection = (.error e, c) → e.rollsBack →
        c = s.connection) ∧
      (call.fault = some .readBack → ((call.signIn rt).on s.connection).2 =
        ((call.clean.signIn rt).on s.connection).2) := by
  have hs := reachable_settled h
  refine ⟨fun entry hentry call hkey => ⟨fun result c => hs.same_user hentry hkey,
    hs.returns hentry hkey⟩, hs.accounts.emails, hs.accounts.normal, ?_, ?_, ?_, ?_⟩
  · intro identity hidentity
    obtain ⟨user, huser, hid, -⟩ := hs.accounts.owners identity hidentity
    exact ⟨user, huser, hid⟩
  · intro call hcall hprovider hemail hnormal
    obtain ⟨identity, hidentity, hkey, haddress⟩ := hs.made call hcall
    obtain ⟨user, huser, hid, hemail'⟩ := hs.accounts.owners identity hidentity
    refine ⟨identity, hidentity, ?_, user, huser, hid, ?_⟩
    · rw [hkey, SignInCall.key, hprovider]
    · rw [hemail', haddress, SignInCall.address, hemail, hnormal]
  · intro calls s' hrun user huser hname
    obtain ⟨user', huser', hid, -, hkept, -⟩ := (run_extends hs hrun).users user huser
    exact ⟨user', huser', hid, hkept hname⟩
  · intro call
    refine ⟨fun e c => hs.rolled_back, fun hfault => ?_⟩
    rw [hs.closed]
    exact readBack_fault_commits s.connection.committed hfault

/-! ## Which sign-ins share an account -/

/-- The call returns a user. -/
def Succeeds (rt : Runtime) (s : SignIns) (call : SignInCall) : Prop :=
  ∃ user, ((call.signIn rt).on s.connection).1 = .ok (some user)

/-- The address that an identity was first presented with. -/
def firstAddress (rt : Runtime) (returned : List (SignInCall × User)) (key : PyStr × PyStr) :
    Option PyStr :=
  (returned.find? fun entry => entry.1.key = key).map fun entry => entry.1.address rt

/-- In a history of sign-ins that succeed, an identity keeps the address it was first
presented with. -/
structure Presented (rt : Runtime) (s : SignIns) : Prop where
  settled : Settled rt s
  first : ∀ key, (s.connection.committed.identities.find? key).map Identity.email =
    firstAddress rt s.returned key

theorem presented_init (rt : Runtime) : Presented rt SignIns.init where
  settled := settled_init rt
  first _ := rfl

theorem firstAddress_append (rt : Runtime) (returned : List (SignInCall × User))
    (entry : SignInCall × User) (key : PyStr × PyStr) :
    firstAddress rt (returned ++ [entry]) key =
      (firstAddress rt returned key).or
        (if entry.1.key = key then some (entry.1.address rt) else none) := by
  unfold firstAddress
  rw [List.find?_append]
  cases returned.find? fun entry => entry.1.key = key with
  | some found => rfl
  | none =>
    by_cases hkey : entry.1.key = key
    · simp [hkey]
    · simp [hkey]

/-- The identities after a sign-in: the one of the call is new or as it was. -/
theorem SignedInto.find_identity {rt : Runtime} {key : PyStr × PyStr} {email : PyStr}
    {db db' : Store} {user_id : Int} (h : SignedInto rt key email db db' user_id)
    (other : PyStr × PyStr) :
    (db'.identities.find? other).map Identity.email =
      ((db.identities.find? other).map Identity.email).or
        (if key = other then some email else none) := by
  cases hold : db.identities.find? other with
  | some identity =>
    obtain ⟨hmem, hkey⟩ := Table.find?_eq_some hold
    rw [Table.find?_eq_some_iff.2 ⟨h.extends_.identities identity hmem, hkey⟩]
    rfl
  | none =>
    by_cases hkey : key = other
    · subst hkey
      obtain ⟨identity, hidentity, hidentity_key, -, hemail⟩ := h.identity
      rw [Table.find?_eq_some_iff.2 ⟨hidentity, hidentity_key⟩]
      simp [hemail hold]
    · have hnone : db'.identities.find? other = none := by
        apply Table.find?_eq_none_iff.2
        intro identity hidentity hother
        rcases h.only identity hidentity with hidentity | hsame
        · exact Table.find?_eq_none_iff.1 hold identity hidentity hother
        · exact hkey (hsame.symm.trans hother)
      rw [hnone]
      simp [hkey]

theorem next_presented {rt : Runtime} {s s' : SignIns} {call : SignInCall}
    (hs : Presented rt s) (hsucceeds : Succeeds rt s call)
    (hnext : SignIns.next rt s call = some s') : Presented rt s' := by
  refine ⟨next_settled hs.settled hnext, fun key => ?_⟩
  obtain ⟨user, huser⟩ := hsucceeds
  unfold SignIns.next at hnext
  cases hnext
  simp only [huser]
  rw [firstAddress_append, ← hs.first key]
  rw [hs.settled.closed] at huser ⊢
  rcases signIn_spec hs.settled.accounts call with ⟨e, hon⟩ | ⟨db', user_id, hinto, hon⟩
  · rw [hon] at huser
    cases huser
  · rw [hon]
    exact hinto.find_identity key

theorem reachable_presented {rt : Runtime} {s : SignIns}
    (h : (SignIns.machine rt).ReachableBy (Succeeds rt) s) : Presented rt s :=
  h.invariant (Presented rt) (presented_init rt) fun _ _ _ hs hsucceeds hnext =>
    next_presented hs hsucceeds hnext

/-- The account of a sign-in is the one of the address its identity was first presented
with. -/
theorem Presented.email {rt : Runtime} {s : SignIns} (hs : Presented rt s)
    {entry : SignInCall × User} (hentry : entry ∈ s.returned) :
    firstAddress rt s.returned entry.1.key = some entry.2.email := by
  obtain ⟨identity, hidentity, hkey, -, hemail⟩ := hs.settled.returned entry hentry
  rw [← hs.first, Table.find?_eq_some_iff.2 ⟨hidentity, hkey⟩]
  exact congrArg some hemail

/-- In a history of sign-ins that succeed, two of them return one account exactly when
their identities were first presented with one address. -/
theorem same_account_iff {rt : Runtime} {s : SignIns}
    (h : (SignIns.machine rt).ReachableBy (Succeeds rt) s) {a b : SignInCall × User}
    (ha : a ∈ s.returned) (hb : b ∈ s.returned) :
    a.2.id = b.2.id ↔
      firstAddress rt s.returned a.1.key = firstAddress rt s.returned b.1.key := by
  have hs := reachable_presented h
  obtain ⟨ia, hia, -, hia_id, hia_email⟩ := hs.settled.returned a ha
  obtain ⟨ib, hib, -, hib_id, hib_email⟩ := hs.settled.returned b hb
  obtain ⟨ua, hua, hua_id, hua_email⟩ := hs.settled.accounts.owners ia hia
  obtain ⟨ub, hub, hub_id, hub_email⟩ := hs.settled.accounts.owners ib hib
  rw [hs.email ha, hs.email hb, ← hia_id, ← hib_id, ← hua_id, ← hub_id, ← hia_email, ← hib_email,
    ← hua_email, ← hub_email, Option.some.injEq]
  constructor
  · intro hid
    rw [Table.eq_of_key hua hub hid]
  · intro hemail
    rw [hs.settled.accounts.emails ua hua ub hub hemail]

/-! ## Runs -/

/-- Sign in with a GitHub account or a magic link. -/
def present (provider subject email : String) (fault : Option SignInStatement) : SignInCall where
  now := 0
  provider := py provider
  subject := py subject
  email := py email
  name := none
  fault := fault

/-- The state after a sequence of calls. -/
def afterSignIns (calls : List SignInCall) : SignIns :=
  ((SignIns.machine plainRuntime).run SignIns.init calls).getD SignIns.init

/-- The identity stays with its account when its address changes. -/
theorem accounts_are_stable_changed :
    let s := afterSignIns [present "github" "7" "old@example.com" none]
    (s.returned.map fun entry => entry.2.id) = [1] ∧
      ∀ entry ∈ s.returned, entry.1.key = (py "github", py "7") →
        ∀ result c, ((present "github" "7" "new@example.com" none).signIn plainRuntime).on
            s.connection = (.ok result, c) →
          ∃ user, result = some user ∧ user.id = entry.2.id ∧ user.email = entry.2.email := by
  have hrun : (SignIns.machine plainRuntime).run SignIns.init
      [present "github" "7" "old@example.com" none] =
        some (afterSignIns [present "github" "7" "old@example.com" none]) := rfl
  refine ⟨rfl, fun entry hentry hkey => ?_⟩
  have hstable := accounts_are_stable (Transition.Machine.reachable_of_run hrun)
  exact (hstable.1 entry hentry (present "github" "7" "new@example.com" none) hkey.symm).1

/-- A call that is aborted at the read-back has added a user and an identity. -/
theorem readBack_fault_keeps_user :
    let failed := present "github" "7" "new@example.com" (some .readBack)
    let outcome := (failed.signIn plainRuntime).on SignIns.init.connection
    outcome.1 = .error (.statement .readBack) ∧
      SignIns.init.connection.committed.users.rows.length = 0 ∧
      outcome.2.committed.users.rows.length = 1 ∧
      outcome.2.committed.identities.rows.length = 1 :=
  ⟨rfl, rfl, rfl, rfl⟩

/-- A GitHub account, and a magic link for the same address. -/
def sharedAddress : List SignInCall :=
  [present "github" "7" "Old@Example.com " none,
    present "email" "old@example.com" "old@example.com" none]

theorem same_account_iff_shared :
    ((afterSignIns sharedAddress).returned.map fun entry => entry.2.id) = [1, 1] ∧
      ∀ a ∈ (afterSignIns sharedAddress).returned, ∀ b ∈ (afterSignIns sharedAddress).returned,
        a.2.id = b.2.id ↔
          firstAddress plainRuntime (afterSignIns sharedAddress).returned a.1.key =
            firstAddress plainRuntime (afterSignIns sharedAddress).returned b.1.key := by
  have hreachable : (SignIns.machine plainRuntime).ReachableBy (Succeeds plainRuntime)
      (afterSignIns sharedAddress) := by
    have hfirst : (SignIns.machine plainRuntime).ReachableBy (Succeeds plainRuntime)
        (afterSignIns [present "github" "7" "Old@Example.com " none]) :=
      Transition.Machine.ReachableBy.init.step (a := present "github" "7" "Old@Example.com " none)
        ⟨_, rfl⟩ rfl
    exact hfirst.step (a := present "email" "old@example.com" "old@example.com" none) ⟨_, rfl⟩ rfl
  exact ⟨rfl, fun a ha b hb => same_account_iff hreachable ha hb⟩

/-- The address of a GitHub account changes.  The magic link for the new one opens a
second account, although both sign-ins presented it. -/
def changedAddress : List SignInCall :=
  [present "github" "7" "old@example.com" none, present "github" "7" "new@example.com" none,
    present "email" "new@example.com" "new@example.com" none]

theorem changed_address_reachable :
    (SignIns.machine plainRuntime).ReachableBy (Succeeds plainRuntime)
      (afterSignIns changedAddress) := by
  have hfirst : (SignIns.machine plainRuntime).ReachableBy (Succeeds plainRuntime)
      (afterSignIns (changedAddress.take 1)) :=
    Transition.Machine.ReachableBy.init.step (a := present "github" "7" "old@example.com" none)
      ⟨_, rfl⟩ rfl
  have hsecond : (SignIns.machine plainRuntime).ReachableBy (Succeeds plainRuntime)
      (afterSignIns (changedAddress.take 2)) :=
    hfirst.step (a := present "github" "7" "new@example.com" none) ⟨_, rfl⟩ rfl
  exact hsecond.step (a := present "email" "new@example.com" "new@example.com" none) ⟨_, rfl⟩ rfl

theorem changed_address_splits :
    ¬ ∀ s, (SignIns.machine plainRuntime).ReachableBy (Succeeds plainRuntime) s →
      ∀ a ∈ s.returned, ∀ b ∈ s.returned,
        a.1.address plainRuntime = b.1.address plainRuntime → a.2.id = b.2.id := by
  intro h
  have hreturned : ((afterSignIns changedAddress).returned.map fun entry =>
      (entry.1.address plainRuntime, entry.2.id)) =
        [(py "old@example.com", 1), (py "new@example.com", 1), (py "new@example.com", 2)] := rfl
  have hone : (py "new@example.com", (1 : Int)) ∈ (afterSignIns changedAddress).returned.map
      fun entry => (entry.1.address plainRuntime, entry.2.id) := by
    rw [hreturned]
    simp
  have htwo : (py "new@example.com", (2 : Int)) ∈ (afterSignIns changedAddress).returned.map
      fun entry => (entry.1.address plainRuntime, entry.2.id) := by
    rw [hreturned]
    simp
  obtain ⟨a, ha, haddress⟩ := List.mem_map.1 hone
  obtain ⟨b, hb, hbddress⟩ := List.mem_map.1 htwo
  obtain ⟨ha_address, ha_id⟩ := Prod.mk.inj haddress
  obtain ⟨hb_address, hb_id⟩ := Prod.mk.inj hbddress
  have hsame := h _ changed_address_reachable a ha b hb (ha_address.trans hb_address.symm)
  omega

end Users

end OpendssGateway
