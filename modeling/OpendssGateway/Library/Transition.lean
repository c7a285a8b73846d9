import Mathlib.Init

/-!
# Machines and their reachable states

A `Machine` is a start state and a partial step function.  The action of
a step carries everything that is not decided by the state: which party
moves, what the environment answers, what time it is.  A step that the
state does not allow is `none`.

`ReachableBy C` is the set of states that a run reaches by steps that
all meet `C`, a condition on the state before the step and the action.
`Reachable` is the case of no condition.  `ReachableBy.invariant` is the
induction over runs, `run_keeps` the same from any state, and
`reachable_of_run` evaluates a run that is given as a list of actions.
-/

namespace Transition

/-- A start state and a partial step function. -/
structure Machine (σ α : Type*) where
  init : σ
  next : σ → α → Option σ

namespace Machine

variable {σ α : Type*} (M : Machine σ α)

/-- The states that steps meeting `C` reach from the start. -/
inductive ReachableBy (C : σ → α → Prop) : σ → Prop
  | init : ReachableBy C M.init
  | step {s s' : σ} {a : α} :
      ReachableBy C s → C s a → M.next s a = some s' → ReachableBy C s'

/-- The states that a run reaches. -/
abbrev Reachable (s : σ) : Prop :=
  M.ReachableBy (fun _ _ => True) s

variable {M}

/-- The induction over runs: what holds at the start and is kept by every
step that meets `C` holds in every state that such steps reach. -/
theorem ReachableBy.invariant {C : σ → α → Prop} (I : σ → Prop) (hinit : I M.init)
    (hstep : ∀ s a s', I s → C s a → M.next s a = some s' → I s') {s : σ}
    (h : M.ReachableBy C s) : I s := by
  induction h with
  | init => exact hinit
  | step _ hc hs ih => exact hstep _ _ _ ih hc hs

/-- One more step of a run. -/
theorem ReachableBy.next {s s' : σ} (h : M.Reachable s) {a : α} (hs : M.next s a = some s') :
    M.Reachable s' :=
  ReachableBy.step h trivial hs

variable (M)

/-- Take the steps of a list in order. -/
def run : σ → List α → Option σ
  | s, [] => some s
  | s, a :: rest => (M.next s a).bind fun s' => run s' rest

variable {M}

/-- What every step keeps, a run from any state keeps. -/
theorem run_keeps (I : σ → Prop) (hstep : ∀ s a s', I s → M.next s a = some s' → I s')
    {s s' : σ} {as : List α} (hs : I s) (h : M.run s as = some s') : I s' := by
  induction as generalizing s with
  | nil =>
    simp only [run, Option.some.injEq] at h
    exact h ▸ hs
  | cons a rest ih =>
    obtain ⟨t, ht, hrest⟩ := Option.bind_eq_some_iff.1 h
    exact ih (hstep s a t hs ht) hrest

/-- Steps that meet the condition in any state extend a run under it. -/
theorem ReachableBy.of_run {C : σ → α → Prop} {s s' : σ} {as : List α}
    (hs : M.ReachableBy C s) (hC : ∀ a ∈ as, ∀ t, C t a) (h : M.run s as = some s') :
    M.ReachableBy C s' := by
  induction as generalizing s with
  | nil =>
    simp only [run, Option.some.injEq] at h
    exact h ▸ hs
  | cons a rest ih =>
    obtain ⟨t, ht, hrest⟩ := Option.bind_eq_some_iff.1 h
    have hnext : M.ReachableBy C t := hs.step (hC a (List.mem_cons_self ..) s) ht
    exact ih hnext (fun b hb => hC b (List.mem_cons_of_mem a hb)) hrest

/-- The last state of a run from the start is reachable. -/
theorem reachable_of_run {s : σ} {as : List α} (h : M.run M.init as = some s) :
    M.Reachable s :=
  ReachableBy.of_run ReachableBy.init (fun _ _ _ => trivial) h

end Machine

/-- A computation that gives a state, with a default for it: what a run that is given as
a list of actions leaves. -/
theorem eq_some_getD {α : Type*} {o : Option α} (d : α) (h : o.isSome = true) :
    o = some (o.getD d) := by
  cases o with
  | none => cases h
  | some a => rfl

end Transition
