import Mathlib.Algebra.Order.Ring.Rat

/-!
# The ledger

`Ledger` of `ledger.py`: one row of `runs` for every engine call, and the
running total of a client and a period in `usage`.

`record` writes both in one transaction.  A statement that fails rolls
the transaction back, so the ledger is either as before or has both
writes.  Seconds are exact rationals.
-/

namespace OpendssGateway

/-- The arguments of `Ledger.record`. -/
structure Run where
  client : String
  plan : String
  period : String
  path : String
  engineSeconds : ℚ
  status : String
  worker : Option String
  requestId : Option String
  queueSeconds : ℚ
  deriving DecidableEq

/-- A row of `runs`. -/
structure RunRow where
  id : Nat
  ts : ℚ
  client : String
  plan : String
  path : String
  engineSeconds : ℚ
  queueSeconds : ℚ
  status : String
  worker : Option String
  requestId : Option String
  deriving DecidableEq

/-- A row of `usage`, with the primary key `(client, period)`. -/
structure UsageRow where
  client : String
  period : String
  engineSeconds : ℚ
  calls : Nat
  deriving DecidableEq

structure Ledger where
  runs : List RunRow
  usage : List UsageRow
  deriving DecidableEq

/-- The statements of `record`. -/
inductive Statement
  | begin
  | insertRun
  | upsertUsage
  | commit
  deriving DecidableEq

namespace Ledger

def empty : Ledger where
  runs := []
  usage := []

/-- `SELECT engine_seconds FROM usage WHERE client=? AND period=?`. -/
def select (client period : String) : List UsageRow → Option ℚ
  | [] => none
  | row :: rest =>
    if row.client = client ∧ row.period = period then some row.engineSeconds
    else select client period rest

/-- `Ledger.used`. -/
def used (l : Ledger) (client period : String) : ℚ :=
  (select client period l.usage).getD 0

/-- `INSERT INTO usage ... ON CONFLICT(client, period) DO UPDATE`. -/
def upsert (client period : String) (seconds : ℚ) : List UsageRow → List UsageRow
  | [] => [⟨client, period, seconds, 1⟩]
  | row :: rest =>
    if row.client = client ∧ row.period = period then
      { row with engineSeconds := row.engineSeconds + seconds, calls := row.calls + 1 } :: rest
    else row :: upsert client period seconds rest

/-- `INSERT INTO runs`. -/
def insertRun (l : Ledger) (ts : ℚ) (r : Run) : Ledger :=
  { l with
    runs := l.runs ++ [⟨l.runs.length + 1, ts, r.client, r.plan, r.path, r.engineSeconds,
      r.queueSeconds, r.status, r.worker, r.requestId⟩] }

/-- `Ledger.record`.  `fault` is the statement that fails, if one does, and
an error leaves the ledger as it was. -/
def record (l : Ledger) (ts : ℚ) (r : Run) (fault : Option Statement) :
    Except Statement Ledger :=
  match fault with
  | some statement => .error statement
  | none =>
    let l := l.insertRun ts r
    .ok { l with usage := upsert r.client r.period r.engineSeconds l.usage }

/-- The ledger after a call of `record`. -/
def afterRecord (l : Ledger) (ts : ℚ) (r : Run) (fault : Option Statement) : Ledger :=
  match l.record ts r fault with
  | .ok l' => l'
  | .error _ => l

/-- What a run adds to the usage of a client in a period. -/
def charge (client period : String) (r : Run) : ℚ :=
  if r.client = client ∧ r.period = period then r.engineSeconds else 0

theorem select_upsert (client period : String) (r : Run) (rows : List UsageRow) :
    (select client period (upsert r.client r.period r.engineSeconds rows)).getD 0 =
      (select client period rows).getD 0 + charge client period r := by
  unfold charge
  induction rows with
  | nil =>
    rw [upsert, select]
    split_ifs with h <;> simp [select, h]
  | cons row rest ih =>
    rw [upsert]
    by_cases hrun : row.client = r.client ∧ row.period = r.period
    · rw [if_pos hrun, select, select]
      by_cases hrow : row.client = client ∧ row.period = period
      · have hr : r.client = client ∧ r.period = period :=
          ⟨hrun.1.symm.trans hrow.1, hrun.2.symm.trans hrow.2⟩
        rw [if_pos hr, if_pos hrow, if_pos hrow]
        simp
      · have hr : ¬ (r.client = client ∧ r.period = period) := fun hr =>
          hrow ⟨hrun.1.trans hr.1, hrun.2.trans hr.2⟩
        rw [if_neg hr, if_neg hrow, if_neg hrow]
        simp
    · rw [if_neg hrun, select, select]
      by_cases hrow : row.client = client ∧ row.period = period
      · have hr : ¬ (r.client = client ∧ r.period = period) := fun hr =>
          hrun ⟨hrow.1.trans hr.1.symm, hrow.2.trans hr.2.symm⟩
        rw [if_neg hr, if_pos hrow, if_pos hrow]
        simp
      · rw [if_neg hrow, if_neg hrow]
        exact ih

/-- A successful record debits the client in the period, and nobody else. -/
theorem used_record (l : Ledger) (ts : ℚ) (r : Run) (client period : String) :
    (l.afterRecord ts r none).used client period =
      l.used client period + charge client period r :=
  select_upsert client period r l.usage

end Ledger

end OpendssGateway
