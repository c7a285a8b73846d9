import OpendssGateway.Gateway.Email
import OpendssGateway.Gateway.Store
import OpendssGateway.Library.Transaction
import OpendssGateway.Library.Transition

/-!
# Sign-ins, statement by statement

`Users.sign_in` on a connection, with any of its statements failing.

* `body_step` says what the statements between `BEGIN` and `COMMIT` compute:
  it is what `sign_in_transaction` computes on the tables.
* `under_body` says that a failing statement only ends the call earlier.
* `signIn_cases` says what a call does.  It commits what
  `sign_in_transaction` computes, or it changes nothing.  The read-back
  comes after `COMMIT`, so a call can fail there and have signed in.
-/

namespace OpendssGateway

namespace Users

open Transaction

/-! ## The statements -/

inductive SignInStatement
  | begin
  | selectIdentity
  | selectEmail
  | insertUser
  | selectInserted
  | insertIdentity
  | update
  | commit
  /-- `self.get(row["id"])` -/
  | readBack
  deriving DecidableEq

/-- A statement fails, or Python raises before it is sent. -/
inductive SignInError
  | statement (statement : SignInStatement)
  | python (e : PyError)
  deriving DecidableEq

def raising {α : Type} : Except PyError α → Except SignInError α
  | .ok a => .ok a
  | .error e => .error (.python e)

/-- The statement fails if it is the one at fault. -/
def failureOf (fault : Option SignInStatement) (statement : SignInStatement) :
    Option SignInError :=
  if fault = some statement then some (.statement statement) else none

/-- The id of the user of an identity. -/
def selectIdentity (provider subject : PyStr) (db : Store) :
    Except SignInError (Store × Option Int) := do
  let _ ← raising (bindText provider)
  let _ ← raising (bindText subject)
  pure (db, (byIdentity db provider subject).map User.id)

/-- The id of the user with an email. -/
def selectEmail (email : PyStr) (db : Store) : Except SignInError (Store × Option Int) := do
  let _ ← raising (bindText email)
  pure (db, (db.users.rows.find? fun user => user.email = email).map User.id)

def insertUser (now : ℚ) (email : PyStr) (name : Option PyStr) (db : Store) :
    Except SignInError (Store × Unit) := do
  let _ ← raising (bindName name)
  pure (insert db now email name, ())

/-- The parameters have been bound before. -/
def insertIdentity (identity : Identity) (db : Store) : Except SignInError (Store × Unit) :=
  .ok (addIdentity db identity, ())

/-- `UPDATE users SET last_seen=?, name=COALESCE(name, ?)`. -/
def seen (now : ℚ) (name : Option PyStr) (user : User) : User :=
  { user with last_seen := now, name := user.name.or name }

def updateSeen (now : ℚ) (name : Option PyStr) (user_id : Int) (db : Store) :
    Except SignInError (Store × Unit) := do
  let _ ← raising (bindName name)
  pure (update db user_id (seen now name) fun _ => rfl, ())

def readBack (user_id : Int) (db : Store) : Except SignInError (Store × Option User) := do
  let user ← raising (get db user_id)
  pure (db, user)

/-! ## The call -/

/-- The arguments of `sign_in`, and the statement that fails. -/
structure SignInCall where
  now : ℚ
  provider : PyStr
  subject : PyStr
  email : PyStr
  name : Option PyStr
  fault : Option SignInStatement

namespace SignInCall

variable (rt : Runtime) (call : SignInCall)

/-- The stripped lower-case form of the address. -/
def address : PyStr :=
  rt.normalized call.email

/-- The identity that the call presents. -/
def key : PyStr × PyStr :=
  (call.provider, call.subject)

def failure (statement : SignInStatement) : Option SignInError :=
  failureOf call.fault statement

/-- `row["id"]`. -/
def rowId : Option Int → Txn Store SignInError Int
  | some user_id => pure user_id
  | none => throw (.python .typeError)

def create : Txn Store SignInError Int := do
  execute (call.failure .insertUser) (insertUser call.now (call.address rt) call.name)
  let row ← execute (call.failure .selectInserted) (selectEmail (call.address rt))
  rowId row

/-- A row is there, or an account is created. -/
def orCreate : Option Int → Txn Store SignInError Int
  | some user_id => pure user_id
  | none => call.create rt

/-- Add the identity to a user. -/
def linkTo (user_id : Int) : Txn Store SignInError Int := do
  execute (call.failure .insertIdentity) (insertIdentity {
    provider := call.provider
    subject := call.subject
    user_id := user_id
    email := call.address rt
    created := call.now })
  pure user_id

def linkEmail : Txn Store SignInError Int := do
  let row ← execute (call.failure .selectEmail) (selectEmail (call.address rt))
  let user_id ← call.orCreate rt row
  call.linkTo rt user_id

/-- The identity is known, or it is linked by email. -/
def orLink : Option Int → Txn Store SignInError Int
  | some user_id => pure user_id
  | none => call.linkEmail rt

def touch (user_id : Int) : Txn Store SignInError Int := do
  execute (call.failure .update) (updateSeen call.now call.name user_id)
  pure user_id

/-- What stands between `BEGIN` and `COMMIT`. -/
def body : Txn Store SignInError Int := do
  let row ← execute (call.failure .selectIdentity) (selectIdentity call.provider call.subject)
  let user_id ← call.orLink rt row
  call.touch user_id

/-- `Users.sign_in`. -/
def signIn : Txn Store SignInError (Option User) := do
  let user_id ← transaction (call.failure .begin) (call.failure .commit) (call.body rt)
  execute (call.failure .readBack) (readBack user_id)

/-- What the call returns once it has committed. -/
def answer (db : Store) (user_id : Int) : Except SignInError (Option User) :=
  match call.failure .readBack with
  | some e => .error e
  | none => raising (get db user_id)

/-! ## What a call does -/

section Steps

variable {rt : Runtime} {call : SignInCall}

theorem local_rowId (row : Option Int) : Local (rowId row) := by
  cases row with
  | none => exact local_throw _
  | some user_id => exact local_pure user_id

theorem local_create : Local (call.create rt) :=
  (local_execute _ _).bind fun _ => (local_execute _ _).bind local_rowId

theorem local_orCreate (row : Option Int) : Local (call.orCreate rt row) := by
  cases row with
  | none => exact local_create
  | some user_id => exact local_pure user_id

theorem local_linkTo (user_id : Int) : Local (call.linkTo rt user_id) :=
  (local_execute _ _).bind fun _ => local_pure user_id

theorem local_linkEmail : Local (call.linkEmail rt) :=
  (local_execute _ _).bind fun row => (local_orCreate row).bind local_linkTo

theorem local_orLink (row : Option Int) : Local (call.orLink rt row) := by
  cases row with
  | none => exact local_linkEmail
  | some user_id => exact local_pure user_id

theorem local_touch (user_id : Int) : Local (call.touch user_id) :=
  (local_execute _ _).bind fun _ => local_pure user_id

theorem local_body : Local (call.body rt) :=
  (local_execute _ _).bind fun row => (local_orLink row).bind local_touch

theorem raising_eq_ok {α : Type} {x : Except PyError α} {a : α} (h : raising x = .ok a) :
    x = .ok a := by
  cases x with
  | error e => cases h
  | ok b =>
    cases h
    rfl

/-- The user who has just been inserted is the one with the email. -/
theorem find_inserted {db : Store} {email : PyStr} (now : ℚ) (name : Option PyStr)
    (h : (db.users.rows.find? fun user => user.email = email) = none) :
    ((insert db now email name).users.rows.find? fun user => user.email = email).map User.id =
      some (nextId db) := by
  show ((db.users.rows ++ [_]).find? _).map User.id = _
  rw [List.find?_append, h]
  simp

/-- The call without its failure. -/
def clean (call : SignInCall) : SignInCall :=
  { call with fault := none }

theorem under_orCreate (row : Option Int) :
    (call.orCreate rt row).Under (call.clean.orCreate rt row) := by
  cases row with
  | none => exact (under_execute _ _).bind fun _ => (under_execute _ _).bind fun _ => .refl _
  | some user_id => exact .refl _

theorem under_orLink (row : Option Int) :
    (call.orLink rt row).Under (call.clean.orLink rt row) := by
  cases row with
  | none =>
    exact (under_execute _ _).bind fun row => (under_orCreate row).bind fun _ =>
      (under_execute _ _).bind fun _ => .refl _
  | some user_id => exact .refl _

/-- A body that gets to its end does what it does without a failure. -/
theorem under_body : (call.body rt).Under (call.clean.body rt) :=
  (under_execute _ _).bind fun row => (under_orLink row).bind fun _ =>
    (under_execute _ _).bind fun _ => .refl _

theorem raising_bind {α β : Type} (x : Except PyError α) (f : α → Except PyError β) :
    raising (x >>= f) = raising x >>= fun a => raising (f a) := by
  cases x <;> rfl

/-- `byEmailOrNew`, statement by statement. -/
theorem orCreate_step {db : Store} :
    (raising (bindText (call.address rt)) >>= fun _ =>
      (call.clean.orCreate rt ((db.users.rows.find? fun user =>
        user.email = call.address rt).map User.id)).step db) =
      raising (byEmailOrNew db call.now (call.address rt) call.name) := by
  unfold byEmailOrNew
  cases hbind : bindText (call.address rt) with
  | error e => rfl
  | ok v =>
    cases hfind : db.users.rows.find? fun user => user.email = call.address rt with
    | some user => rfl
    | none =>
      show (call.clean.create rt).step db = _
      rw [create, step_bind (local_execute _ _) fun _ => (local_execute _ _).bind local_rowId,
        step_execute]
      have hinsert : failingStep (call.clean.failure .insertUser)
          (insertUser call.now (call.address rt) call.name) db =
          raising (bindName call.name) >>= fun _ =>
            .ok (insert db call.now (call.address rt) call.name, ()) := rfl
      show failingStep (call.clean.failure .insertUser)
          (insertUser call.now (call.address rt) call.name) db >>= _ = _
      rw [hinsert]
      cases hname : bindName call.name with
      | error e => rfl
      | ok w =>
        show Txn.step _ (insert db call.now (call.address rt) call.name) = _
        rw [step_bind (local_execute _ _) local_rowId, step_execute]
        have hselect : failingStep (call.clean.failure .selectInserted)
            (selectEmail (call.address rt)) (insert db call.now (call.address rt) call.name) =
            .ok (insert db call.now (call.address rt) call.name, some (nextId db)) := by
          show (raising (bindText (call.address rt)) >>= fun _ => _) = _
          rw [hbind, find_inserted call.now call.name hfind]
          rfl
        show failingStep (call.clean.failure .selectInserted)
            (selectEmail (call.address rt)) (insert db call.now (call.address rt) call.name) >>= _ = _
        rw [hselect]
        rfl

/-- A new identity, statement by statement. -/
theorem linkEmail_step {db : Store} :
    (call.clean.linkEmail rt).step db =
      raising (do
        let (db, user_id) ← byEmailOrNew db call.now (call.address rt) call.name
        pure (addIdentity db {
          provider := call.provider
          subject := call.subject
          user_id
          email := call.address rt
          created := call.now }, user_id)) := by
  rw [linkEmail, step_bind (local_execute _ _) fun row => (local_orCreate row).bind local_linkTo,
    step_execute, raising_bind, ← orCreate_step]
  show (raising (bindText (call.address rt)) >>= fun _ => _) >>= _ = _
  cases bindText (call.address rt) with
  | error e => rfl
  | ok v =>
    show Txn.step _ db = Txn.step _ db >>= _
    rw [step_bind (local_orCreate _) local_linkTo]
    rfl

theorem touch_step {db : Store} (user_id : Int) :
    (call.clean.touch user_id).step db =
      raising (do
        let _ ← bindName call.name
        pure (update db user_id (seen call.now call.name) fun _ => rfl, user_id)) := by
  rw [touch, step_bind (local_execute _ _) fun _ => local_pure user_id, step_execute]
  show (raising (bindName call.name) >>= fun _ => _) >>= _ = _
  cases bindName call.name <;> rfl

/-- `account`, statement by statement. -/
theorem orLink_step {db : Store} :
    (raising (bindText call.provider) >>= fun _ => raising (bindText call.subject) >>= fun _ =>
      (call.clean.orLink rt ((byIdentity db call.provider call.subject).map User.id)).step db) =
      raising (account db call.now call.provider call.subject (call.address rt) call.name) := by
  unfold account
  rw [raising_bind]
  cases bindText call.provider with
  | error e => rfl
  | ok v =>
    show (raising (bindText call.subject) >>= fun _ => _) = raising (_ >>= _)
    rw [raising_bind]
    cases bindText call.subject with
    | error e => rfl
    | ok w =>
      cases byIdentity db call.provider call.subject with
      | some user => rfl
      | none => exact linkEmail_step

/-- What stands between `BEGIN` and `COMMIT`, statement by statement. -/
theorem body_step {db : Store} :
    (call.clean.body rt).step db =
      raising (sign_in_transaction db call.now call.provider call.subject (call.address rt)
        call.name) := by
  rw [body, step_bind (local_execute _ _) fun row => (local_orLink row).bind local_touch,
    step_execute]
  unfold sign_in_transaction
  rw [raising_bind, ← orLink_step]
  show (raising (bindText call.provider) >>= fun _ => raising (bindText call.subject) >>=
    fun _ => _) >>= _ = _
  cases bindText call.provider with
  | error e => rfl
  | ok v =>
    cases bindText call.subject with
    | error e => rfl
    | ok w =>
      show Txn.step _ db = Txn.step _ db >>= _
      rw [step_bind (local_orLink _) local_touch]
      congr 1
      funext result
      exact touch_step result.2

theorem readBack_on (user_id : Int) (db : Store) :
    (execute (call.failure .readBack) (readBack user_id)).on (Connection.closed db) =
      (call.answer db user_id, Connection.closed db) := by
  unfold answer
  rw [execute_on_closed]
  cases call.failure .readBack with
  | some e => rfl
  | none =>
    unfold failingStep readBack
    cases get db user_id <;> rfl

theorem answer_eq_ok {db : Store} {user_id : Int} {user : Option User}
    (h : call.answer db user_id = .ok user) : get db user_id = .ok user := by
  unfold answer at h
  cases hfailure : call.failure .readBack with
  | some e =>
    rw [hfailure] at h
    cases h
  | none =>
    rw [hfailure] at h
    exact raising_eq_ok h

/-- A call without a failing statement is `Users.sign_in`. -/
theorem signIn_clean (db : Store) :
    (call.clean.signIn rt).on (Connection.closed db) =
      (raising (sign_in rt db call.now call.provider call.subject call.email call.name).2,
        Connection.closed
          (sign_in rt db call.now call.provider call.subject call.email call.name).1) := by
  have hbody := @body_step rt call db
  have hcall : (call.clean.signIn rt).on (Connection.closed db) =
      match (call.clean.body rt).step db with
      | .error e => (.error e, Connection.closed db)
      | .ok (db', user_id) =>
        (execute none (readBack user_id)).on (Connection.closed db') := by
    rw [signIn, Txn.on_bind, Runs.transaction local_body]
    cases (call.clean.body rt).step db <;> rfl
  rw [hcall, hbody]
  unfold sign_in
  rw [show rt.normalized call.email = call.address rt from rfl]
  cases sign_in_transaction db call.now call.provider call.subject (call.address rt)
      call.name with
  | error e => rfl
  | ok result => exact @readBack_on call.clean result.2 result.1

/-- A call changes nothing, or it commits what the transaction computes. -/
theorem signIn_cases (db : Store) :
    (∃ e, (call.signIn rt).on (Connection.closed db) = (.error e, Connection.closed db)) ∨
      ∃ db' user_id,
        sign_in_transaction db call.now call.provider call.subject (call.address rt) call.name =
          .ok (db', user_id) ∧
        (call.signIn rt).on (Connection.closed db) =
          (call.answer db' user_id, Connection.closed db') := by
  rw [signIn, Txn.on_bind, Runs.transaction local_body]
  cases call.failure .begin with
  | some e => exact Or.inl ⟨e, rfl⟩
  | none =>
    cases hstep : (call.body rt).step db with
    | error e => exact Or.inl ⟨e, rfl⟩
    | ok result =>
      cases call.failure .commit with
      | some e => exact Or.inl ⟨e, rfl⟩
      | none =>
        right
        have hclean := under_body.step hstep
        rw [body_step] at hclean
        exact ⟨result.1, result.2, raising_eq_ok hclean, readBack_on result.2 result.1⟩

end Steps

end SignInCall

end Users

end OpendssGateway
