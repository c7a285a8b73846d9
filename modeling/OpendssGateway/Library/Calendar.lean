import Mathlib.Order.Monotone.Basic
import Mathlib.Tactic.SplitIfs

/-!
# The Gregorian calendar

A `Day` is a day that the calendar has.  Days are counted from one of them
with `after`, one day at a time.

* `after_injective`: no day comes twice.
* `sameMonth_iff`: two days are of the same month if and only if no month
  begins after the first one and up to the second one.
-/

namespace Calendar

def isLeap (year : Nat) : Bool :=
  year % 4 == 0 && (year % 100 != 0 || year % 400 == 0)

def daysInMonth (year month : Nat) : Nat :=
  if month = 2 then if isLeap year then 29 else 28
  else if month = 4 ∨ month = 6 ∨ month = 9 ∨ month = 11 then 30
  else 31

theorem daysInMonth_bounds (year month : Nat) :
    28 ≤ daysInMonth year month ∧ daysInMonth year month ≤ 31 := by
  unfold daysInMonth
  split_ifs <;> omega

/-- A day of the calendar. -/
structure Day where
  year : Nat
  month : Nat
  day : Nat
  month_ok : 1 ≤ month ∧ month ≤ 12
  day_ok : 1 ≤ day ∧ day ≤ daysInMonth year month
  deriving DecidableEq

namespace Day

/-- The first day of a month. -/
def first (year month : Nat) (h : 1 ≤ month ∧ month ≤ 12) : Day where
  year := year
  month := month
  day := 1
  month_ok := h
  day_ok := ⟨Nat.le_refl 1, (Nat.le_add_left 1 27).trans (daysInMonth_bounds year month).1⟩

/-- The next day. -/
def next (d : Day) : Day :=
  if h : d.day < daysInMonth d.year d.month then
    { d with day := d.day + 1, day_ok := ⟨Nat.le_add_left 1 d.day, h⟩ }
  else if h : d.month < 12 then first d.year (d.month + 1) ⟨Nat.le_add_left 1 d.month, h⟩
  else first (d.year + 1) 1 ⟨Nat.le_refl 1, by decide⟩

/-- The day that comes `n` days later. -/
def after (d : Day) : Nat → Day
  | 0 => d
  | n + 1 => (d.after n).next

/-- The months since the year 0. -/
def monthIndex (d : Day) : Nat :=
  12 * d.year + (d.month - 1)

/-- The place of a day, if every month had 31 days. -/
def rank (d : Day) : Nat :=
  31 * d.monthIndex + (d.day - 1)

theorem day_le (d : Day) : d.day ≤ 31 :=
  d.day_ok.2.trans (daysInMonth_bounds d.year d.month).2

theorem monthIndex_eq_iff {d e : Day} :
    d.monthIndex = e.monthIndex ↔ d.year = e.year ∧ d.month = e.month := by
  have hd := d.month_ok
  have he := e.month_ok
  unfold monthIndex
  omega

theorem rank_injective {d e : Day} (h : d.rank = e.rank) : d = e := by
  have hd := d.day_le
  have he := e.day_le
  have hd' := d.day_ok.1
  have he' := e.day_ok.1
  unfold rank at h
  have hmonth : d.monthIndex = e.monthIndex := by omega
  obtain ⟨hyear, hmonth'⟩ := monthIndex_eq_iff.1 hmonth
  have hday : d.day = e.day := by omega
  cases d
  cases e
  cases hyear
  cases hmonth'
  cases hday
  rfl

/-- The next day is in the same month, or is the first day of the next month. -/
theorem next_cases (d : Day) :
    (d.next.monthIndex = d.monthIndex ∧ d.next.day = d.day + 1) ∨
      (d.next.monthIndex = d.monthIndex + 1 ∧ d.next.day = 1) := by
  have hmonth := d.month_ok
  unfold next
  split_ifs with hday hyear
  · exact Or.inl ⟨rfl, rfl⟩
  · right
    refine ⟨?_, rfl⟩
    show 12 * d.year + (d.month + 1 - 1) = 12 * d.year + (d.month - 1) + 1
    omega
  · right
    refine ⟨?_, rfl⟩
    show 12 * (d.year + 1) + (1 - 1) = 12 * d.year + (d.month - 1) + 1
    omega

theorem rank_lt_next (d : Day) : d.rank < d.next.rank := by
  have hday := d.day_le
  have hpos := d.day_ok.1
  unfold rank
  rcases d.next_cases with ⟨hmonth, hnext⟩ | ⟨hmonth, hnext⟩ <;> omega

/-- A month begins with its first day. -/
theorem monthIndex_next_eq_iff (d : Day) : d.next.monthIndex = d.monthIndex ↔ d.next.day ≠ 1 := by
  have hpos := d.day_ok.1
  rcases d.next_cases with ⟨hmonth, hnext⟩ | ⟨hmonth, hnext⟩ <;> omega

theorem strictMono_rank_after (d : Day) : StrictMono fun n => (d.after n).rank :=
  strictMono_nat_of_lt_succ fun n => (d.after n).rank_lt_next

/-- No day comes twice. -/
theorem after_injective (d : Day) : Function.Injective d.after := by
  intro m n h
  exact d.strictMono_rank_after.injective (congrArg rank h)

theorem monotone_monthIndex_after (d : Day) : Monotone fun n => (d.after n).monthIndex := by
  refine monotone_nat_of_le_succ fun n => ?_
  show (d.after n).monthIndex ≤ (d.after n).next.monthIndex
  rcases (d.after n).next_cases with ⟨hmonth, -⟩ | ⟨hmonth, -⟩ <;> omega

/-- The first of the month lies as many days back as the day says. -/
theorem day_after_sub (d : Day) (hd : d.day = 1) (n : Nat) :
    (d.after n).day ≤ n + 1 ∧ (d.after (n - ((d.after n).day - 1))).day = 1 ∧
      ∀ k, n - ((d.after n).day - 1) < k → k ≤ n → (d.after k).day ≠ 1 := by
  induction n with
  | zero =>
    have hzero : (d.after 0).day = 1 := hd
    rw [hzero]
    exact ⟨Nat.le_refl 1, hd, fun k hk hk' => by omega⟩
  | succ n ih =>
    obtain ⟨hle, hfirst, hnone⟩ := ih
    have hpos := (d.after n).day_ok.1
    have hnext : d.after (n + 1) = (d.after n).next := rfl
    rcases (d.after n).next_cases with ⟨-, hday⟩ | ⟨-, hday⟩
    · rw [← hnext] at hday
      have hsame : n + 1 - ((d.after (n + 1)).day - 1) = n - ((d.after n).day - 1) := by omega
      rw [hsame]
      refine ⟨by omega, hfirst, fun k hk hk' => ?_⟩
      rcases Nat.lt_or_eq_of_le hk' with hlt | rfl
      · exact hnone k hk (by omega)
      · omega
    · rw [← hnext] at hday
      rw [hday]
      exact ⟨by omega, hday, fun k hk hk' => by omega⟩

/-- Two days are of the same month if and only if no month begins after the first one and up
to the second one. -/
theorem sameMonth_iff (d : Day) {m n : Nat} (h : m ≤ n) :
    (d.after m).monthIndex = (d.after n).monthIndex ↔
      ∀ k, m < k → k ≤ n → (d.after k).day ≠ 1 := by
  induction n, h using Nat.le_induction with
  | base => exact ⟨fun _ k hk hk' => absurd (hk.trans_le hk') (lt_irrefl m), fun _ => rfl⟩
  | succ n hmn ih =>
    have hstep : (d.after (n + 1)).monthIndex = (d.after n).monthIndex ↔
        (d.after (n + 1)).day ≠ 1 := (d.after n).monthIndex_next_eq_iff
    have hle : (d.after n).monthIndex ≤ (d.after (n + 1)).monthIndex :=
      d.monotone_monthIndex_after (Nat.le_succ n)
    have hle' : (d.after m).monthIndex ≤ (d.after n).monthIndex :=
      d.monotone_monthIndex_after hmn
    constructor
    · intro heq k hk hkn
      rcases Nat.lt_or_eq_of_le hkn with hlt | rfl
      · exact ih.1 (by omega) k hk (by omega)
      · exact hstep.1 (by omega)
    · intro hnone
      have hsame := ih.2 fun k hk hkn => hnone k hk (by omega)
      have hlast := hstep.2 (hnone (n + 1) (by omega) (Nat.le_refl _))
      omega

end Day

end Calendar
