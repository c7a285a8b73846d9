import Mathlib.Algebra.BigOperators.Group.List.Basic
import Mathlib.Algebra.GroupWithZero.Nat
import OpendssGateway.Gateway.Ledger
import OpendssGateway.Library.Transaction
import OpendssGateway.Library.Transition

/-!
# The two tables of the ledger

`Ledger.record` statement by statement, on a connection, and sequences of
such calls with any statement failing.

* `recordCall_eq`: the transaction is atomic, so a call is what
  `Ledger.record` says it is.
* `Agrees` is the invariant: over any set of clients and periods, `usage`
  sums up what was recorded, and `runs` lists it.
* `runs_and_usage_agree` is the result.  Admission reads a total that the
  audit trail backs.
-/

namespace OpendssGateway

namespace Ledger

open Transaction

/-! ## A call, statement by statement -/

/-- The statement fails if it is the one at fault. -/
def failureOf (fault : Option Statement) (statement : Statement) : Option Statement :=
  if fault = some statement then some statement else none

/-- The upsert on the table of the ledger. -/
def upsertUsage (l : Ledger) (r : Run) : Ledger :=
  { l with usage := upsert r.client r.period r.engineSeconds l.usage }

/-- `Ledger.record`. -/
def recordCall (ts : ℚ) (r : Run) (fault : Option Statement) : Txn Ledger Statement Unit :=
  transaction (failureOf fault .begin) (failureOf fault .commit) do
    execute (failureOf fault .insertRun) fun l => .ok (l.insertRun ts r, ())
    execute (failureOf fault .upsertUsage) fun l => .ok (l.upsertUsage r, ())

/-- The transaction has both writes or none. -/
theorem recordCall_eq (l : Ledger) (ts : ℚ) (r : Run) (fault : Option Statement) :
    (recordCall ts r fault).on (Connection.closed l) =
      match l.record ts r fault with
      | .ok l' => (.ok (), Connection.closed l')
      | .error e => (.error e, Connection.closed l) := by
  have hbody := (runs_execute (failureOf fault .insertRun) fun l : Ledger =>
    .ok (l.insertRun ts r, ())).bind fun _ : Unit =>
      runs_execute (failureOf fault .upsertUsage) fun l : Ledger => .ok (l.upsertUsage r, ())
  rw [recordCall, hbody.transaction]
  cases fault with
  | none => rfl
  | some statement => cases statement <;> rfl

/-! ## Sequences of calls -/

/-- The connection, and the runs that were recorded. -/
structure Books where
  connection : Connection Ledger
  recorded : List Run

/-- A call of `record`. -/
structure RecordCall where
  ts : ℚ
  run : Run
  fault : Option Statement

namespace Books

def init : Books where
  connection := Connection.closed Ledger.empty
  recorded := []

def next (b : Books) (call : RecordCall) : Option Books :=
  match (recordCall call.ts call.run call.fault).on b.connection with
  | (.ok (), connection) => some { connection, recorded := b.recorded ++ [call.run] }
  | (.error _, connection) => some { b with connection }

def machine : Transition.Machine Books RecordCall where
  init := init
  next := next

end Books

/-! ## Sums over the rows -/

section Sums

/-- The rows of some clients and periods. -/
def rowsOf (p : String × String → Bool) (rows : List UsageRow) : List UsageRow :=
  rows.filter fun row => p (row.client, row.period)

/-- The runs of some clients and periods. -/
def runsOf (p : String × String → Bool) (runs : List Run) : List Run :=
  runs.filter fun r => p (r.client, r.period)

/-- A sum over the rows grows by what the upsert adds to a row. -/
theorem sum_rowsOf_upsert {M : Type*} [AddCommMonoid M] (p : String × String → Bool)
    (f : UsageRow → M) (amount : M) (r : Run) (rows : List UsageRow)
    (hnew : f ⟨r.client, r.period, r.engineSeconds, 1⟩ = amount)
    (hold : ∀ row, f { row with
      engineSeconds := row.engineSeconds + r.engineSeconds, calls := row.calls + 1 } =
        f row + amount) :
    ((rowsOf p (upsert r.client r.period r.engineSeconds rows)).map f).sum =
      ((rowsOf p rows).map f).sum + if p (r.client, r.period) then amount else 0 := by
  induction rows with
  | nil =>
    by_cases hp : p (r.client, r.period) = true
    · simp [upsert, rowsOf, hp, hnew]
    · simp [upsert, rowsOf, hp]
  | cons row rest ih =>
    rw [upsert]
    by_cases hrow : row.client = r.client ∧ row.period = r.period
    · rw [if_pos hrow]
      have hkey : (row.client, row.period) = (r.client, r.period) := by
        rw [hrow.1, hrow.2]
      by_cases hp : p (r.client, r.period) = true
      · simp only [rowsOf, List.filter_cons, hkey, hp, if_true, List.map_cons, List.sum_cons,
          hold row]
        rw [add_assoc, add_assoc, add_comm amount]
      · simp [rowsOf, hkey, hp]
    · rw [if_neg hrow]
      by_cases hp : p (row.client, row.period) = true
      · simp only [rowsOf, List.filter_cons, hp, if_true, List.map_cons, List.sum_cons]
        rw [add_assoc]
        exact congrArg (f row + ·) ih
      · simpa [rowsOf, hp] using ih

/-- An upsert adds the key of the run, if it is new. -/
theorem mem_keys_upsert {r : Run} {rows : List UsageRow} {key : String × String}
    (h : key ∈ (upsert r.client r.period r.engineSeconds rows).map
      fun row => (row.client, row.period)) :
    key ∈ rows.map (fun row => (row.client, row.period)) ∨ key = (r.client, r.period) := by
  induction rows with
  | nil => simpa [upsert] using h
  | cons row rest ih =>
    rw [upsert] at h
    split_ifs at h with hrow
    · exact Or.inl h
    · rcases List.mem_cons.1 h with rfl | h
      · exact Or.inl (List.mem_cons_self ..)
      · exact (ih h).imp_left fun h => List.mem_cons_of_mem _ h

/-- An upsert keeps the primary key. -/
theorem nodup_keys_upsert (r : Run) {rows : List UsageRow}
    (h : (rows.map fun row => (row.client, row.period)).Nodup) :
    ((upsert r.client r.period r.engineSeconds rows).map
      fun row => (row.client, row.period)).Nodup := by
  induction rows with
  | nil => simp [upsert]
  | cons row rest ih =>
    rw [List.map_cons, List.nodup_cons] at h
    rw [upsert]
    split_ifs with hrow
    · exact List.nodup_cons.2 h
    · rw [List.map_cons, List.nodup_cons]
      refine ⟨fun hmem => ?_, ih h.2⟩
      rcases mem_keys_upsert hmem with hmem | heq
      · exact h.1 hmem
      · exact hrow ⟨congrArg Prod.fst heq, congrArg Prod.snd heq⟩

/-- The primary key picks out one row. -/
theorem rowsOf_key {rows : List UsageRow}
    (h : (rows.map fun row => (row.client, row.period)).Nodup) {row : UsageRow}
    (hrow : row ∈ rows) : rowsOf (· == (row.client, row.period)) rows = [row] := by
  induction rows with
  | nil => simp at hrow
  | cons first rest ih =>
    rw [List.map_cons, List.nodup_cons] at h
    rcases List.mem_cons.1 hrow with rfl | hrow
    · rw [rowsOf, List.filter_cons_of_pos (by simp)]
      congr 1
      apply List.filter_eq_nil_iff.2
      intro other hother heq
      exact h.1 (List.mem_map.2 ⟨other, hother, eq_of_beq heq⟩)
    · have hne : ¬ ((first.client, first.period) == (row.client, row.period)) = true :=
        fun heq => h.1 (List.mem_map.2 ⟨row, hrow, (eq_of_beq heq).symm⟩)
      calc rowsOf (· == (row.client, row.period)) (first :: rest)
          = rowsOf (· == (row.client, row.period)) rest := List.filter_cons_of_neg hne
        _ = [row] := ih h.2 hrow

/-- With the primary key, the total of a client and a period is what its row holds. -/
theorem used_eq_sum {l : Ledger}
    (h : (l.usage.map fun row => (row.client, row.period)).Nodup) (client period : String) :
    l.used client period =
      ((rowsOf (· == (client, period)) l.usage).map UsageRow.engineSeconds).sum := by
  unfold used
  revert h
  induction l.usage with
  | nil =>
    intro
    rfl
  | cons row rest ih =>
    intro h
    rw [select]
    by_cases hrow : row.client = client ∧ row.period = period
    · obtain ⟨rfl, rfl⟩ := hrow
      have hrows := rowsOf_key h (List.mem_cons_self ..)
      simp [hrows]
    · have hrows : rowsOf (· == (client, period)) (row :: rest) =
          rowsOf (· == (client, period)) rest := by
        apply List.filter_cons_of_neg
        simpa using hrow
      rw [if_neg hrow, hrows]
      exact ih (List.nodup_cons.1 h).2

end Sums

/-! ## Both tables agree with what was recorded -/

structure Agrees (l : Ledger) (recorded : List Run) : Prop where
  keys : (l.usage.map fun row => (row.client, row.period)).Nodup
  seconds : ∀ p, ((rowsOf p l.usage).map UsageRow.engineSeconds).sum =
    ((runsOf p recorded).map Run.engineSeconds).sum
  calls : ∀ p, ((rowsOf p l.usage).map UsageRow.calls).sum = (runsOf p recorded).length
  runs : l.runs.map (fun row => (row.client, row.engineSeconds)) =
    recorded.map fun r => (r.client, r.engineSeconds)

theorem agrees_empty : Agrees Ledger.empty [] where
  keys := List.nodup_nil
  seconds _ := rfl
  calls _ := rfl
  runs := rfl

/-- A successful call adds the run to both tables. -/
theorem Agrees.record {l : Ledger} {recorded : List Run} (h : Agrees l recorded) (ts : ℚ)
    (r : Run) : Agrees ((l.insertRun ts r).upsertUsage r) (recorded ++ [r]) := by
  constructor
  · exact nodup_keys_upsert r h.keys
  · intro p
    show ((rowsOf p (upsert r.client r.period r.engineSeconds l.usage)).map _).sum = _
    rw [sum_rowsOf_upsert p _ r.engineSeconds r l.usage rfl fun _ => rfl, h.seconds p]
    by_cases hp : p (r.client, r.period) = true <;> simp [runsOf, hp]
  · intro p
    show ((rowsOf p (upsert r.client r.period r.engineSeconds l.usage)).map _).sum = _
    rw [sum_rowsOf_upsert p _ 1 r l.usage rfl fun _ => rfl, h.calls p]
    by_cases hp : p (r.client, r.period) = true <;> simp [runsOf, hp]
  · show (l.runs ++ [_]).map _ = _
    rw [List.map_append, List.map_append, h.runs]
    rfl

/-- Between calls no transaction is open. -/
structure Balanced (b : Books) : Prop where
  closed : b.connection = Connection.closed b.connection.committed
  agrees : Agrees b.connection.committed b.recorded

theorem next_balanced {b b' : Books} {call : RecordCall} (h : Balanced b)
    (hnext : b.next call = some b') : Balanced b' := by
  unfold Books.next at hnext
  rw [h.closed, recordCall_eq] at hnext
  cases hfault : call.fault with
  | none =>
    rw [hfault] at hnext
    cases hnext
    exact ⟨rfl, h.agrees.record call.ts call.run⟩
  | some statement =>
    rw [hfault] at hnext
    cases hnext
    exact ⟨rfl, h.agrees⟩

theorem reachable_balanced {b : Books} (h : Books.machine.Reachable b) : Balanced b :=
  h.invariant Balanced ⟨rfl, agrees_empty⟩ fun _ _ _ hb _ hnext => next_balanced hb hnext

/-- The rows of a client are what was recorded for the client. -/
theorem Agrees.runs_of {l : Ledger} {recorded : List Run} (h : Agrees l recorded)
    (client : String) :
    ((l.runs.filter fun row => row.client = client).map RunRow.engineSeconds) =
      (recorded.filter fun r => r.client = client).map Run.engineSeconds := by
  have hfilter := congrArg
    (fun pairs => (pairs.filter fun pair : String × ℚ => pair.1 = client).map Prod.snd) h.runs
  simpa [List.filter_map, Function.comp_def] using hfilter

/-- In every reachable state `usage` sums up to the rows of `runs`, `Ledger.used` is
the total of the successful calls, and a call that fails changes nothing. -/
theorem runs_and_usage_agree {b : Books} (h : Books.machine.Reachable b) (client : String) :
    let l := b.connection.committed
    ((l.usage.filter fun row => row.client = client).map UsageRow.engineSeconds).sum =
        ((l.runs.filter fun row => row.client = client).map RunRow.engineSeconds).sum ∧
      ((l.usage.filter fun row => row.client = client).map UsageRow.calls).sum =
        (l.runs.filter fun row => row.client = client).length ∧
      (∀ period, l.used client period =
        ((b.recorded.filter fun r => (r.client, r.period) == (client, period)).map
          Run.engineSeconds).sum) ∧
      (∀ row ∈ l.usage, row.client = client →
        row.engineSeconds = l.used client row.period ∧
        row.calls =
          (b.recorded.filter fun r => (r.client, r.period) == (client, row.period)).length) ∧
      ∀ ts r fault e c, (recordCall ts r fault).on b.connection = (.error e, c) →
        c = b.connection := by
  obtain ⟨hclosed, hagrees⟩ := reachable_balanced h
  have hruns := hagrees.runs_of client
  refine ⟨?_, ?_, fun period => ?_, ?_, ?_⟩
  · rw [hruns]
    exact hagrees.seconds fun key => key.1 = client
  · have hlength := congrArg List.length hruns
    rw [List.length_map, List.length_map] at hlength
    rw [hlength]
    exact hagrees.calls fun key => key.1 = client
  · rw [used_eq_sum hagrees.keys]
    exact hagrees.seconds _
  · rintro row hrow rfl
    have hkey := rowsOf_key hagrees.keys hrow
    have hcalls := hagrees.calls (· == (row.client, row.period))
    constructor
    · rw [used_eq_sum hagrees.keys, hkey]
      simp
    · rw [hkey] at hcalls
      simpa [runsOf] using hcalls
  · intro ts r fault e c hcall
    rw [hclosed, recordCall_eq] at hcall
    rw [hclosed]
    cases fault with
    | none => cases hcall
    | some statement =>
      cases hcall
      rfl

/-! ## A sequence with a failure -/

def solve (seconds : ℚ) (period : String) : Run where
  client := "user:1"
  plan := "free"
  period := period
  path := "/api/solve"
  engineSeconds := seconds
  status := "ok"
  worker := none
  requestId := none
  queueSeconds := 0

/-- Three calls.  The upsert of the second one fails. -/
def threeCalls : List RecordCall :=
  [⟨1, solve 2 "2026-01", none⟩, ⟨2, solve 5 "2026-01", some .upsertUsage⟩,
    ⟨3, solve 1 "2026-02", none⟩]

def afterCalls (calls : List RecordCall) : Books :=
  (Books.machine.run Books.init calls).getD Books.init

theorem runs_and_usage_agree_three :
    (afterCalls threeCalls).connection.committed.used "user:1" "2026-01" = 2 ∧
      (((afterCalls threeCalls).connection.committed.usage.filter
          fun row => row.client = "user:1").map UsageRow.engineSeconds).sum =
        (((afterCalls threeCalls).connection.committed.runs.filter
          fun row => row.client = "user:1").map RunRow.engineSeconds).sum := by
  have hrun : Books.machine.run Books.init threeCalls = some (afterCalls threeCalls) := rfl
  exact ⟨by decide +kernel, (runs_and_usage_agree
    (Transition.Machine.reachable_of_run hrun) "user:1").1⟩

end Ledger

end OpendssGateway
