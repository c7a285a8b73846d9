import Mathlib.Init

/-!
# Transactions on a connection

A connection to a database in autocommit mode, and programs of statements
on it that raise.  A `Txn` keeps the connection when it raises, so that a
handler can still roll back.

Each statement takes the exception that it fails with, if it fails, and
then changes nothing.  `transaction` is the hand-written pattern: `BEGIN`,
then the body and `COMMIT` under a handler that rolls back and raises
again.

`Runs x step` says that inside an open transaction `x` does to the pending
database what the pure function `step` does.  `Runs.bind` composes such
facts, and `Runs.transaction` is the result: the transaction commits what
`step` gives, or leaves the database as it was.  `Txn.step` reads the
function off the program, so that a body need not be written twice.
-/

namespace Transaction

/-- The committed database, and the database of the open transaction. -/
structure Connection (σ : Type) where
  committed : σ
  pending : Option σ

namespace Connection

variable {σ : Type}

/-- No transaction is open. -/
def closed (db : σ) : Connection σ where
  committed := db
  pending := none

/-- What a statement sees. -/
def current (c : Connection σ) : σ :=
  c.pending.getD c.committed

/-- A statement outside a transaction commits at once. -/
def write (c : Connection σ) (db : σ) : Connection σ :=
  match c.pending with
  | some _ => { c with pending := some db }
  | none => { c with committed := db }

end Connection

/-- A program of statements. -/
abbrev Txn (σ ε : Type) := ExceptT ε (StateM (Connection σ))

section Programs

variable {σ ε α β : Type}

/-- The result of a program and the connection after it. -/
def Txn.on (x : Txn σ ε α) (c : Connection σ) : Except ε α × Connection σ :=
  StateT.run (ExceptT.run x) c

/-- A statement that fails if `failure` says so. -/
def failing (failure : Option ε) (statement : Txn σ ε α) : Txn σ ε α :=
  match failure with
  | some e => throw e
  | none => statement

/-- `BEGIN`. -/
def begin (failure : Option ε) : Txn σ ε Unit :=
  failing failure (modify fun c => { c with pending := some c.current })

/-- `COMMIT`. -/
def commit (failure : Option ε) : Txn σ ε Unit :=
  failing failure (modify fun c => Connection.closed c.current)

/-- `ROLLBACK`. -/
def rollback : Txn σ ε Unit :=
  modify fun c => Connection.closed c.committed

/-- Read and write the database.  A statement that raises writes nothing. -/
def execute (failure : Option ε) (f : σ → Except ε (σ × α)) : Txn σ ε α :=
  failing failure fun c =>
    match f c.current with
    | .ok (db, a) => (.ok a, c.write db)
    | .error e => (.error e, c)

/-- A transaction by hand. -/
def transaction (beginFailure commitFailure : Option ε) (body : Txn σ ε α) : Txn σ ε α := do
  begin beginFailure
  try
    let a ← body
    commit commitFailure
    pure a
  catch e =>
    rollback
    throw e

end Programs

/-! ## What a body does -/

section Rules

variable {σ ε α β : Type}

/-- A program inside a transaction has ended with the result of a step.  Where that
raises, the pending database may be anything. -/
def Ends (committed : σ) (result : Except ε (σ × α)) (final : Except ε α × Connection σ) :
    Prop :=
  match result with
  | .ok (db, a) => final = (.ok a, ⟨committed, some db⟩)
  | .error e => ∃ db, final = (.error e, ⟨committed, some db⟩)

/-- Inside a transaction the program does what `step` does. -/
def Runs (x : Txn σ ε α) (step : σ → Except ε (σ × α)) : Prop :=
  ∀ committed db, Ends committed (step db) (x.on ⟨committed, some db⟩)

theorem Txn.on_bind (x : Txn σ ε α) (k : α → Txn σ ε β) (c : Connection σ) :
    (x >>= k).on c =
      match x.on c with
      | (.ok a, c') => (k a).on c'
      | (.error e, c') => (.error e, c') := by
  show StateT.run (ExceptT.run (x >>= k)) c = _
  rw [ExceptT.run_bind]
  simp only [Txn.on, StateT.run_bind]
  show StateT.run _ _ = _
  cases StateT.run (ExceptT.run x) c with
  | mk result c' => cases result <;> rfl

theorem Txn.on_tryCatch (x : Txn σ ε α) (handler : ε → Txn σ ε α) (c : Connection σ) :
    (tryCatch x handler).on c =
      match x.on c with
      | (.ok a, c') => (.ok a, c')
      | (.error e, c') => (handler e).on c' := by
  show StateT.run (ExceptT.run (tryCatch x handler)) c = _
  rw [ExceptT.run_tryCatch, StateT.run_bind]
  show StateT.run _ _ = _
  simp only [Txn.on]
  cases StateT.run (ExceptT.run x) c with
  | mk result c' => cases result <;> rfl

/-- The step of a statement that may fail. -/
def failingStep (failure : Option ε) (f : σ → Except ε (σ × α)) (db : σ) : Except ε (σ × α) :=
  match failure with
  | some e => .error e
  | none => f db

theorem runs_pure (a : α) : Runs (pure a : Txn σ ε α) fun db => .ok (db, a) :=
  fun _ _ => rfl

theorem runs_execute (failure : Option ε) (f : σ → Except ε (σ × α)) :
    Runs (execute failure f) (failingStep failure f) := by
  intro committed db
  cases failure with
  | some e => exact ⟨db, rfl⟩
  | none =>
    have hon : Txn.on (execute none f) ⟨committed, some db⟩ =
        match f db with
        | .ok (db', a) => (.ok a, ⟨committed, some db'⟩)
        | .error e => (.error e, ⟨committed, some db⟩) := rfl
    show Ends committed (f db) _
    rw [hon]
    cases f db with
    | error e => exact ⟨db, rfl⟩
    | ok result => rfl

/-- One program after another does one step after the other. -/
theorem Runs.bind {x : Txn σ ε α} {k : α → Txn σ ε β} {f : σ → Except ε (σ × α)}
    {g : α → σ → Except ε (σ × β)} (hx : Runs x f) (hk : ∀ a, Runs (k a) (g a)) :
    Runs (x >>= k) fun db => f db >>= fun result => g result.2 result.1 := by
  intro committed db
  have hfirst := hx committed db
  show Ends committed (f db >>= fun result => g result.2 result.1) _
  rw [Txn.on_bind]
  cases hf : f db with
  | error e =>
    rw [hf] at hfirst
    obtain ⟨db', hon⟩ := hfirst
    rw [hon]
    exact ⟨db', rfl⟩
  | ok result =>
    rw [hf] at hfirst
    change x.on ⟨committed, some db⟩ = _ at hfirst
    rw [hfirst]
    exact hk result.2 committed result.1

/-! ### The step of a program -/

/-- What a program does to the pending database. -/
def Txn.step (x : Txn σ ε α) (db : σ) : Except ε (σ × α) :=
  match x.on ⟨db, some db⟩ with
  | (.ok a, c) => .ok (c.current, a)
  | (.error e, _) => .error e

/-- The program neither ends the transaction nor looks behind it. -/
def Local (x : Txn σ ε α) : Prop :=
  Runs x x.step

/-- A program that runs a step has that step. -/
theorem Runs.step_eq {x : Txn σ ε α} {f : σ → Except ε (σ × α)} (h : Runs x f) : x.step = f := by
  funext db
  have hends := h db db
  unfold Txn.step
  cases hf : f db with
  | error e =>
    rw [hf] at hends
    obtain ⟨db', hon⟩ := hends
    rw [hon]
  | ok result =>
    rw [hf] at hends
    change x.on ⟨db, some db⟩ = _ at hends
    rw [hends]
    rfl

theorem Runs.isLocal {x : Txn σ ε α} {f : σ → Except ε (σ × α)} (h : Runs x f) : Local x := by
  unfold Local
  rw [h.step_eq]
  exact h

theorem local_pure (a : α) : Local (pure a : Txn σ ε α) :=
  (runs_pure a).isLocal

theorem local_throw (e : ε) : Local (throw e : Txn σ ε α) :=
  fun _ db => ⟨db, rfl⟩

theorem local_execute (failure : Option ε) (f : σ → Except ε (σ × α)) :
    Local (execute failure f) :=
  (runs_execute failure f).isLocal

theorem Local.bind {x : Txn σ ε α} {k : α → Txn σ ε β} (hx : Local x) (hk : ∀ a, Local (k a)) :
    Local (x >>= k) :=
  (Runs.bind hx hk).isLocal

@[simp] theorem step_execute (failure : Option ε) (f : σ → Except ε (σ × α)) (db : σ) :
    (execute failure f).step db = failingStep failure f db :=
  congrFun (runs_execute failure f).step_eq db

theorem step_bind {x : Txn σ ε α} {k : α → Txn σ ε β} (hx : Local x) (hk : ∀ a, Local (k a))
    (db : σ) : (x >>= k).step db = x.step db >>= fun result => (k result.2).step result.1 :=
  congrFun (Runs.bind hx hk).step_eq db

/-- Outside a transaction a statement commits at once. -/
theorem execute_on_closed (failure : Option ε) (f : σ → Except ε (σ × α)) (db : σ) :
    (execute failure f).on (Connection.closed db) =
      match failingStep failure f db with
      | .ok (db', a) => (.ok a, Connection.closed db')
      | .error e => (.error e, Connection.closed db) := by
  cases failure with
  | some e => rfl
  | none =>
    have hon : (execute none f).on (Connection.closed db) =
        match f db with
        | .ok (db', a) => (.ok a, Connection.closed db')
        | .error e => (.error e, Connection.closed db) := rfl
    rw [hon]
    rfl

/-! ### Failures -/

/-- Where `x` returns, `y` does the same.  So `x` may fail where `y` does not. -/
def Txn.Under (x y : Txn σ ε α) : Prop :=
  ∀ c a c', x.on c = (.ok a, c') → y.on c = (.ok a, c')

theorem Txn.Under.refl (x : Txn σ ε α) : x.Under x :=
  fun _ _ _ h => h

theorem under_execute (failure : Option ε) (f : σ → Except ε (σ × α)) :
    (execute failure f).Under (execute none f) := by
  intro c a c' h
  cases failure with
  | none => exact h
  | some e => cases h

theorem Txn.Under.bind {x y : Txn σ ε α} {k k' : α → Txn σ ε β} (hx : x.Under y)
    (hk : ∀ a, (k a).Under (k' a)) : (x >>= k).Under (y >>= k') := by
  intro c b c' h
  rw [Txn.on_bind] at h ⊢
  cases hon : x.on c with
  | mk result mid =>
    rw [hon] at h
    cases result with
    | error e => cases h
    | ok a =>
      rw [hx c a mid hon]
      exact hk a mid b c' h

theorem Txn.Under.step {x y : Txn σ ε α} (h : x.Under y) {db : σ} {result : σ × α}
    (hstep : x.step db = .ok result) : y.step db = .ok result := by
  unfold Txn.step at hstep ⊢
  cases hon : x.on ⟨db, some db⟩ with
  | mk returned c =>
    rw [hon] at hstep
    cases returned with
    | error e => cases hstep
    | ok a =>
      rw [h _ _ _ hon]
      exact hstep

/-! ### A whole transaction -/

/-- A transaction on a closed connection commits what its body does, or changes
nothing. -/
theorem Runs.transaction {x : Txn σ ε α} {step : σ → Except ε (σ × α)} (hx : Runs x step)
    (beginFailure commitFailure : Option ε) (db : σ) :
    (Transaction.transaction beginFailure commitFailure x).on (Connection.closed db) =
      match beginFailure, step db, commitFailure with
      | some e, _, _ => (.error e, Connection.closed db)
      | none, .error e, _ => (.error e, Connection.closed db)
      | none, .ok _, some e => (.error e, Connection.closed db)
      | none, .ok (db', a), none => (.ok a, Connection.closed db') := by
  cases beginFailure with
  | some e => rfl
  | none =>
    have hbody := hx db db
    have hon : (Transaction.transaction none commitFailure x).on (Connection.closed db) =
        match (x >>= fun a => commit commitFailure >>= fun _ => pure a).on ⟨db, some db⟩ with
        | (.ok a, c) => (.ok a, c)
        | (.error e, c) => (.error e, Connection.closed c.committed) := by
      have hbegin : (begin none : Txn σ ε Unit).on (Connection.closed db) =
        (.ok (), ⟨db, some db⟩) := rfl
      rw [Transaction.transaction, Txn.on_bind, hbegin]
      show Txn.on (tryCatch _ _) _ = _
      rw [Txn.on_tryCatch]
      cases Txn.on _ ⟨db, some db⟩ with
      | mk result c => cases result <;> rfl
    rw [hon, Txn.on_bind]
    cases hstep : step db with
    | error e =>
      rw [hstep] at hbody
      obtain ⟨db', hx⟩ := hbody
      rw [hx]
    | ok result =>
      rw [hstep] at hbody
      change x.on ⟨db, some db⟩ = _ at hbody
      rw [hbody]
      cases commitFailure <;> rfl

end Rules

end Transaction
