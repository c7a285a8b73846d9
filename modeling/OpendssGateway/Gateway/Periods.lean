import OpendssGateway.Gateway.Admission
import OpendssGateway.Library.Calendar

/-!
# Budget periods

The keys under which the ledger sums up, at instants in UTC.

* `periodKey_eq_iff`: the key of a day and the key of a month are never the
  same, and two keys of days, or of months, are the same for the same day,
  or month.
* `same_period_iff_no_reset`: the key stays the same until a midnight, which
  must be one on the 1st when the plan counts by months.
-/

namespace OpendssGateway

/-! ## Instants -/

/-- The microseconds of a day. -/
def dayLength : Nat :=
  86400000000

theorem january_ok : 1 ≤ 1 ∧ 1 ≤ 12 :=
  ⟨Nat.le_refl 1, Nat.le_add_left 1 11⟩

/-- The day of the epoch. -/
def epochDay : Calendar.Day :=
  Calendar.Day.first 1970 1 january_ok

/-- The day of an instant, which is given in microseconds since the epoch. -/
def dayAt (t : Nat) : Calendar.Day :=
  epochDay.after (t / dayLength)

/-- `datetime.now(UTC)`, as far as `period_key` formats it. -/
def dateAt (t : Nat) : Date where
  year := (dayAt t).year
  month := (dayAt t).month
  day := (dayAt t).day

theorem dateAt_day (t : Nat) : (dateAt t).day = (dayAt t).day :=
  rfl

theorem dateAt_eq_iff {s t : Nat} : dateAt s = dateAt t ↔ s / dayLength = t / dayLength := by
  constructor
  · intro h
    apply epochDay.after_injective
    apply Calendar.Day.rank_injective
    have hyear : (dayAt s).year = (dayAt t).year := congrArg Date.year h
    have hmonth : (dayAt s).month = (dayAt t).month := congrArg Date.month h
    have hday : (dayAt s).day = (dayAt t).day := congrArg Date.day h
    show (dayAt s).rank = (dayAt t).rank
    unfold Calendar.Day.rank Calendar.Day.monthIndex
    rw [hyear, hmonth, hday]
  · intro h
    unfold dateAt dayAt
    rw [h]

/-! ## Keys -/

theorem twoDigits_toList (n : Nat) :
    (twoDigits n).toList = if n < 10 then '0' :: Nat.toDigits 10 n else Nat.toDigits 10 n := by
  unfold twoDigits
  split
  · rw [String.toList_append]
    show '0' :: n.repr.toList = _
    rw [Nat.toList_repr]
  · exact Nat.toList_repr

theorem year_toList (n : Nat) : (toString n).toList = Nat.toDigits 10 n :=
  Nat.toList_repr

theorem twoDigits_inj {m n : Nat} (h : twoDigits m = twoDigits n) : m = n := by
  have hvalue : ∀ n, Nat.ofDigitChars 10 (twoDigits n).toList 0 = n := by
    intro n
    rw [twoDigits_toList]
    split
    · exact Nat.ofDigitChars_ten_toDigits
    · exact Nat.ofDigitChars_ten_toDigits
  rw [← hvalue m, h, hvalue]

theorem year_inj {m n : Nat} (h : toString m = toString n) : m = n := by
  have hvalue : ∀ n : Nat, Nat.ofDigitChars 10 (toString n).toList 0 = n := by
    intro n
    rw [year_toList]
    exact Nat.ofDigitChars_ten_toDigits
  rw [← hvalue m, h, hvalue]

theorem dash_not_mem_toDigits (n : Nat) : '-' ∉ Nat.toDigits 10 n := by
  intro h
  have hdigit := Nat.isDigit_of_mem_toDigits (by decide) (by decide) h
  exact absurd hdigit (by decide)

theorem dash_not_mem_twoDigits (n : Nat) : '-' ∉ (twoDigits n).toList := by
  rw [twoDigits_toList]
  split
  · rw [List.mem_cons, not_or]
    exact ⟨by decide, dash_not_mem_toDigits n⟩
  · exact dash_not_mem_toDigits n

/-- What stands before the first dash, and behind it. -/
theorem split_dash {a a' b b' : List Char} (ha : '-' ∉ a) (ha' : '-' ∉ a')
    (h : a ++ '-' :: b = a' ++ '-' :: b') : a = a' ∧ b = b' := by
  have htake : ∀ {a b : List Char}, '-' ∉ a → (a ++ '-' :: b).takeWhile (· != '-') = a := by
    intro a b ha
    have hall : ∀ c ∈ a, (c != '-') = true := fun c hc => by
      rw [bne_iff_ne]
      rintro rfl
      exact ha hc
    rw [List.takeWhile_append_of_pos hall, List.takeWhile_cons_of_neg (by decide), List.append_nil]
  have hsame : a = a' := by rw [← htake (b := b) ha, h, htake ha']
  rw [hsame] at h
  exact ⟨hsame, (List.cons.inj (List.append_cancel_left h)).2⟩

/-- The text of a key. -/
theorem periodKey_toList (plan : Plan) (d : Date) :
    (plan.periodKey d).toList = Nat.toDigits 10 d.year ++ '-' ::
      if plan.budgetPeriod = "month" then (twoDigits d.month).toList
      else (twoDigits d.month).toList ++ '-' :: (twoDigits d.day).toList := by
  unfold Plan.periodKey
  split
  · simp only [String.toList_append, year_toList, List.append_assoc]
    rfl
  · simp only [String.toList_append, year_toList, List.append_assoc]
    rfl

/-- Two plans count by the same kind of period. -/
def SameKind (plan plan' : Plan) : Prop :=
  plan.budgetPeriod = "month" ↔ plan'.budgetPeriod = "month"

/-- Keys are the same for plans of one kind and the same month, and the same day when the
plans count by days. -/
theorem periodKey_eq_iff {plan plan' : Plan} {d d' : Date} :
    plan.periodKey d = plan'.periodKey d' ↔
      SameKind plan plan' ∧ d.year = d'.year ∧ d.month = d'.month ∧
        (plan.budgetPeriod ≠ "month" → d.day = d'.day) := by
  constructor
  · intro h
    have htext := congrArg String.toList h
    rw [periodKey_toList, periodKey_toList] at htext
    obtain ⟨hyear, hrest⟩ :=
      split_dash (dash_not_mem_toDigits d.year) (dash_not_mem_toDigits d'.year) htext
    have hyear' : d.year = d'.year := year_inj (String.toList_inj.1 (by
      rw [year_toList, year_toList]
      exact hyear))
    -- a month has no dash behind it
    have hmixed : ∀ {m m' n : Nat},
        (twoDigits m).toList ≠ (twoDigits m').toList ++ '-' :: (twoDigits n).toList := by
      intro m m' n heq
      apply dash_not_mem_twoDigits m
      rw [heq]
      simp
    split_ifs at hrest with hmonth hmonth' hmonth'
    · exact ⟨iff_of_true hmonth hmonth', hyear', twoDigits_inj (String.toList_inj.1 hrest),
        fun hday => absurd hmonth hday⟩
    · exact absurd hrest hmixed
    · exact absurd hrest.symm hmixed
    · obtain ⟨hmonths, hdays⟩ :=
        split_dash (dash_not_mem_twoDigits d.month) (dash_not_mem_twoDigits d'.month) hrest
      exact ⟨iff_of_false hmonth hmonth', hyear', twoDigits_inj (String.toList_inj.1 hmonths),
        fun _ => twoDigits_inj (String.toList_inj.1 hdays)⟩
  · rintro ⟨hkind, hyear, hmonth, hday⟩
    unfold Plan.periodKey
    by_cases hm : plan.budgetPeriod = "month"
    · rw [if_pos hm, if_pos (hkind.1 hm), hyear, hmonth]
    · rw [if_neg hm, if_neg (fun hm' => hm (hkind.2 hm')), hyear, hmonth, hday hm]

/-! ## Resets -/

/-- The budget of the plan starts anew: at midnight UTC, and on the 1st when the plan counts
by months. -/
def Plan.ResetsAt (plan : Plan) (t : Nat) : Prop :=
  t % dayLength = 0 ∧ (plan.budgetPeriod = "month" → (dateAt t).day = 1)

instance (plan : Plan) (t : Nat) : Decidable (plan.ResetsAt t) :=
  inferInstanceAs (Decidable (_ ∧ _))

theorem dayAt_mul (k : Nat) : dayAt (k * dayLength) = epochDay.after k := by
  unfold dayAt
  rw [Nat.mul_div_cancel k (by decide)]

/-- The midnights after an instant and up to another one. -/
theorem forall_midnight_iff {s t : Nat} {P : Nat → Prop} :
    (∀ k, s / dayLength < k → k ≤ t / dayLength → P (k * dayLength)) ↔
      ∀ m, s < m → m ≤ t → m % dayLength = 0 → P m := by
  have hpos : 0 < dayLength := by decide
  constructor
  · intro h m hs ht hm
    have hmul : m / dayLength * dayLength = m := Nat.div_mul_cancel (Nat.dvd_of_mod_eq_zero hm)
    rw [← hmul]
    refine h (m / dayLength) ?_ (Nat.div_le_div_right ht)
    rw [Nat.div_lt_iff_lt_mul hpos, hmul]
    exact hs
  · intro h k hs ht
    refine h (k * dayLength) ?_ ?_ (Nat.mul_mod_left k dayLength)
    · exact (Nat.div_lt_iff_lt_mul hpos).1 hs
    · exact (Nat.le_div_iff_mul_le hpos).1 ht

/-- The key of a plan stays the same until its budget starts anew. -/
theorem same_period_iff_no_reset (plan : Plan) {s t : Nat} (h : s ≤ t) :
    plan.periodKey (dateAt s) = plan.periodKey (dateAt t) ↔
      ∀ m, s < m → m ≤ t → ¬ plan.ResetsAt m := by
  have hdays : s / dayLength ≤ t / dayLength := Nat.div_le_div_right h
  have hresets : (∀ m, s < m → m ≤ t → ¬ plan.ResetsAt m) ↔
      ∀ m, s < m → m ≤ t → m % dayLength = 0 →
        ¬ (plan.budgetPeriod = "month" → (dateAt m).day = 1) := by
    refine forall_congr' fun m => forall_congr' fun _ => forall_congr' fun _ => ?_
    rw [Plan.ResetsAt, not_and]
  rw [hresets, ← forall_midnight_iff, periodKey_eq_iff]
  by_cases hmonth : plan.budgetPeriod = "month"
  · have hindex : (dateAt s).year = (dateAt t).year ∧ (dateAt s).month = (dateAt t).month ↔
        (dayAt s).monthIndex = (dayAt t).monthIndex := Calendar.Day.monthIndex_eq_iff.symm
    have hfirst : ∀ k, (dateAt (k * dayLength)).day = (epochDay.after k).day := fun k => by
      rw [dateAt_day, dayAt_mul]
    simp only [SameKind, hmonth, forall_const, not_true_eq_false, ne_eq, false_implies,
      and_true, true_and, hindex, hfirst]
    exact epochDay.sameMonth_iff hdays
  · have hsame : (dateAt s).year = (dateAt t).year ∧ (dateAt s).month = (dateAt t).month ∧
        (dateAt s).day = (dateAt t).day ↔ s / dayLength = t / dayLength := by
      rw [← dateAt_eq_iff, Date.mk.injEq]
    simp only [SameKind, hmonth, false_implies, not_true_eq_false, not_false_eq_true, ne_eq,
      forall_const, iff_self, true_and, hsame]
    constructor
    · intro heq k hk hk'
      omega
    · intro hnone
      by_contra hne
      exact hnone (t / dayLength) (by omega) (Nat.le_refl _)

/-- When the budget of the plan started anew for the last time. -/
def Plan.lastReset (plan : Plan) (t : Nat) : Nat :=
  (t / dayLength - if plan.budgetPeriod = "month" then (dateAt t).day - 1 else 0) * dayLength

theorem Plan.lastReset_le (plan : Plan) (t : Nat) : plan.lastReset t ≤ t :=
  (Nat.mul_le_mul_right dayLength (Nat.sub_le _ _)).trans (Nat.div_mul_le_self t dayLength)

/-- It is a reset, and there is none after it. -/
theorem Plan.lastReset_spec (plan : Plan) (t : Nat) :
    plan.ResetsAt (plan.lastReset t) ∧ ∀ m, plan.lastReset t < m → m ≤ t → ¬ plan.ResetsAt m := by
  have hpos : 0 < dayLength := by decide
  obtain ⟨-, hfirst, hnone⟩ := epochDay.day_after_sub rfl (t / dayLength)
  have hlater : ∀ m, m ≤ t → m % dayLength = 0 →
      m = m / dayLength * dayLength ∧ m / dayLength ≤ t / dayLength := fun m hm hmod =>
    ⟨(Nat.div_mul_cancel (Nat.dvd_of_mod_eq_zero hmod)).symm, Nat.div_le_div_right hm⟩
  unfold lastReset
  split_ifs with hmonth
  · refine ⟨⟨Nat.mul_mod_left _ _, fun _ => ?_⟩, fun m hm hmt hreset => ?_⟩
    · rw [dateAt_day, dayAt_mul]
      exact hfirst
    · obtain ⟨hmul, hle⟩ := hlater m hmt hreset.1
      have hday := hreset.2 hmonth
      rw [hmul, dateAt_day, dayAt_mul] at hday
      refine hnone (m / dayLength) ?_ hle hday
      rw [hmul] at hm
      exact Nat.lt_of_mul_lt_mul_right hm
  · rw [Nat.sub_zero]
    refine ⟨⟨Nat.mul_mod_left _ _, fun h => absurd h hmonth⟩, fun m hm hmt hreset => ?_⟩
    obtain ⟨hmul, hle⟩ := hlater m hmt hreset.1
    rw [hmul] at hm
    exact absurd (Nat.lt_of_mul_lt_mul_right hm) (Nat.not_lt.2 hle)

/-- The keys of two plans of one kind are the same since the last reset. -/
theorem periodKey_eq_iff_lastReset {plan plan' : Plan} {s t : Nat} (h : s ≤ t) :
    plan'.periodKey (dateAt s) = plan.periodKey (dateAt t) ↔
      SameKind plan plan' ∧ plan.lastReset t ≤ s := by
  obtain ⟨hreset, hnone⟩ := plan.lastReset_spec t
  have hkind : plan'.periodKey (dateAt s) = plan.periodKey (dateAt t) ↔
      SameKind plan plan' ∧ plan.periodKey (dateAt s) = plan.periodKey (dateAt t) := by
    rw [periodKey_eq_iff, periodKey_eq_iff]
    unfold SameKind
    by_cases hm : plan.budgetPeriod = "month" <;> by_cases hm' : plan'.budgetPeriod = "month" <;>
      simp [hm, hm']
  rw [hkind, same_period_iff_no_reset plan h]
  refine and_congr_right fun _ => ⟨fun hall => ?_, fun hle m hm hmt => ?_⟩
  · by_contra hlt
    exact hall _ (Nat.lt_of_not_le hlt) (plan.lastReset_le t) hreset
  · exact hnone m (hle.trans_lt hm) hmt

end OpendssGateway
