import Mathlib.Algebra.Group.Nat.Defs
import OpendssGateway.Gateway.Dumps
import OpendssGateway.Gateway.Email
import OpendssGateway.Gateway.Loads

/-!
# JSON that is written and read again

`json.loads` of what `json.dumps` writes.

* `loads_dumps`: a value is read back in its normal form, in which a high
  and a low surrogate side by side are one character, and the last value of
  a key is the one that counts.
* `fits_of_loads`: no integer that is read has too many digits, and no value
  is nested too deep.
* `loads_dumps_iff`: so a value is read back as it is if and only if it keeps
  to these limits, no text of it has two such surrogates and no object of it
  has a key twice.

The texts hold code points, and the scanner reads the text of a float back.
-/

namespace OpendssGateway

namespace JsonText

/-! ## Strings -/

/-- A text with its surrogate pairs joined, from the left. -/
def joined : PyStr → PyStr
  | [] => []
  | [c] => [c]
  | high :: low :: s =>
    if isHigh high && isLow low then combine high low :: joined s else high :: joined (low :: s)

/-- A character that is written as it is, or with a backslash and a letter. -/
def isPlain (c : Nat) : Bool :=
  (32 ≤ c && c < 127) || c == 10 || c == 13 || c == 9 || c == 12 || c == 8

/-- The units that `escape` writes. -/
def unitsOf (c : Nat) : List CodeUnit :=
  if isPlain c then [.raw c]
  else if c < 0x10000 then [.escaped c]
  else [.escaped (0xD800 + (c - 0x10000) / 1024 % 1024), .escaped (0xDC00 + (c - 0x10000) % 1024)]

/-- A code point of Unicode, which may be a surrogate. -/
def CodePoint (c : Nat) : Prop :=
  c < 0x110000

theorem hexValue_hexDigit {d : Nat} (h : d < 16) : hexValue (hexDigit d) = some d := by
  unfold hexDigit hexValue
  split
  · rw [if_pos (by omega)]
    congr 1
    omega
  · rw [if_neg (by omega), if_pos (by omega)]
    congr 1
    omega

theorem scanUnits_escapeUnit {unit : Nat} (h : unit < 0x10000) (rest : PyStr) :
    scanUnits (escapeUnit unit ++ rest) =
      (scanUnits rest).map fun scanned => (.escaped unit :: scanned.1, scanned.2) := by
  have hdigit : ∀ n, hexValue (hexDigit (n % 16)) = some (n % 16) := fun n =>
    hexValue_hexDigit (Nat.mod_lt n (by omega))
  have hdecode : decode_uXXXX (hexDigit (unit / 4096 % 16)) (hexDigit (unit / 256 % 16))
      (hexDigit (unit / 16 % 16)) (hexDigit (unit % 16)) = some unit := by
    simp only [decode_uXXXX, hdigit, Option.bind_eq_bind, Option.bind_some]
    congr 1
    omega
  simp only [escapeUnit, List.cons_append, List.nil_append, scanUnits, hdecode,
    Option.bind_eq_bind, Option.bind_some]
  cases scanUnits rest <;> rfl

/-- `escape` is undone unit by unit. -/
theorem scanUnits_escape {c : Nat} (h : CodePoint c) (rest : PyStr) :
    scanUnits (escape c ++ rest) =
      (scanUnits rest).map fun scanned => (unitsOf c ++ scanned.1, scanned.2) := by
  have hletter : ∀ letter, BACKSLASH letter = some c → letter ≠ 117 → unitsOf c = [.raw c] →
      scanUnits (92 :: letter :: rest) =
        (scanUnits rest).map fun scanned => (unitsOf c ++ scanned.1, scanned.2) := by
    intro letter hback hu hunits
    rw [scanUnits, hback, hunits]
    · cases scanUnits rest <;> rfl
    · intro a b d e r hletter
      exact absurd hletter hu
  have hplain : isPlain c = true → unitsOf c = [.raw c] := fun hc => by
    rw [unitsOf, if_pos hc]
  unfold escape
  split
  · rename_i hc
    refine hletter c ?_ (by omega) (hplain ?_)
    · unfold BACKSLASH
      rw [if_pos (by omega)]
    · rcases hc with rfl | rfl <;> rfl
  split
  · rename_i hquote hc
    rw [hplain (by simp [isPlain, hc])]
    rw [List.cons_append, List.nil_append, scanUnits]
    · rw [if_neg (by omega)]
      cases scanUnits rest <;> rfl
    all_goals grind
  split
  · rename_i hc
    subst hc
    exact hletter 110 rfl (by decide) rfl
  split
  · rename_i hc
    subst hc
    exact hletter 114 rfl (by decide) rfl
  split
  · rename_i hc
    subst hc
    exact hletter 116 rfl (by decide) rfl
  split
  · rename_i hc
    subst hc
    exact hletter 102 rfl (by decide) rfl
  split
  · rename_i hc
    subst hc
    exact hletter 98 rfl (by decide) rfl
  have hnot : isPlain c = false := by
    simp only [isPlain]
    grind
  split
  · rename_i hsmall
    rw [scanUnits_escapeUnit hsmall, unitsOf, hnot, if_neg Bool.false_ne_true, if_pos hsmall]
    cases scanUnits rest <;> rfl
  · rename_i hlarge
    rw [List.append_assoc, scanUnits_escapeUnit (by omega), scanUnits_escapeUnit (by omega),
      unitsOf, hnot, if_neg Bool.false_ne_true, if_neg hlarge]
    cases scanUnits rest <;> rfl

theorem scanUnits_flatMap_escape {s : PyStr} (h : ∀ c ∈ s, CodePoint c) (rest : PyStr) :
    scanUnits (s.flatMap escape ++ 34 :: rest) = some (s.flatMap unitsOf, rest) := by
  induction s with
  | nil => rfl
  | cons c s ih =>
    rw [List.flatMap_cons, List.append_assoc, scanUnits_escape (h c List.mem_cons_self),
      ih fun d hd => h d (List.mem_cons_of_mem c hd)]
    rfl

/-- The units start with the escape of a low surrogate. -/
def StartsLow (units : List CodeUnit) : Prop :=
  ∃ low rest, units = .escaped low :: rest ∧ isLow low = true

theorem join_escaped {unit : Nat} {units : List CodeUnit}
    (h : isHigh unit = true → ¬ StartsLow units) :
    join (.escaped unit :: units) = unit :: join units := by
  cases units with
  | nil => rfl
  | cons first units =>
    cases first with
    | raw c => rfl
    | escaped low =>
      rw [join, if_neg]
      rw [Bool.and_eq_true]
      rintro ⟨hhigh, hlow⟩
      exact h hhigh ⟨low, units, rfl, hlow⟩

/-- A character that starts no surrogate pair is read back. -/
theorem join_unitsOf_append {c : Nat} {units : List CodeUnit} (hc : CodePoint c)
    (h : isHigh c = true → ¬ StartsLow units) : join (unitsOf c ++ units) = c :: join units := by
  unfold unitsOf CodePoint at *
  split
  · rfl
  split
  · exact join_escaped h
  · have hpair : (isHigh (0xD800 + (c - 0x10000) / 1024 % 1024) &&
        isLow (0xDC00 + (c - 0x10000) % 1024)) = true := by
      have hhigh := Nat.mod_lt ((c - 0x10000) / 1024) (show 0 < 1024 by omega)
      have hlow := Nat.mod_lt (c - 0x10000) (show 0 < 1024 by omega)
      simp only [isHigh, isLow, Bool.and_eq_true, decide_eq_true_eq]
      generalize (c - 0x10000) / 1024 % 1024 = high at *
      generalize (c - 0x10000) % 1024 = low at *
      omega
    have hcombine : combine (0xD800 + (c - 0x10000) / 1024 % 1024)
        (0xDC00 + (c - 0x10000) % 1024) = c := by
      unfold combine
      omega
    rw [List.cons_append, List.cons_append, List.nil_append, join, if_pos hpair, hcombine]

/-- Only a low surrogate is written as one. -/
theorem isLow_of_startsLow {c : Nat} {units : List CodeUnit}
    (h : StartsLow (unitsOf c ++ units)) : isLow c = true := by
  obtain ⟨low, rest, heq, hlow⟩ := h
  unfold unitsOf at heq
  split at heq
  · cases heq
  split at heq
  · cases heq
    exact hlow
  · cases heq
    simp only [isLow] at hlow
    grind

theorem join_flatMap_unitsOf {s : PyStr} (h : ∀ c ∈ s, CodePoint c) :
    join (s.flatMap unitsOf) = joined s := by
  have hsurrogate : ∀ c, isHigh c = true ∨ isLow c = true → unitsOf c = [.escaped c] := by
    intro c hc
    have hplain : isPlain c = false := by
      simp only [isHigh, isLow, isPlain] at *
      grind
    have hsmall : c < 0x10000 := by
      simp only [isHigh, isLow] at hc
      grind
    rw [unitsOf, hplain, if_neg Bool.false_ne_true, if_pos hsmall]
  induction s using joined.induct with
  | case1 => rfl
  | case2 c =>
    rw [List.flatMap_cons, join_unitsOf_append (h c List.mem_cons_self)]
    · rfl
    · rintro - ⟨low, rest, hnil, -⟩
      cases hnil
  | case3 high low s hpair ih =>
    have hboth := (Bool.and_eq_true_iff).1 hpair
    rw [joined, if_pos hpair, List.flatMap_cons, List.flatMap_cons, hsurrogate high (Or.inl hboth.1),
      hsurrogate low (Or.inr hboth.2), List.cons_append, List.nil_append, List.cons_append, join,
      if_pos hpair, List.nil_append, ih fun c hc => h c (by simp [hc])]
  | case4 high low s hpair ih =>
    rw [joined, if_neg hpair, List.flatMap_cons, join_unitsOf_append (h high List.mem_cons_self),
      ih fun c hc => h c (List.mem_cons_of_mem high hc)]
    intro hhigh hstarts
    exact hpair (Bool.and_eq_true_iff.2 ⟨hhigh, isLow_of_startsLow hstarts⟩)

/-- A string is read back with its surrogate pairs joined. -/
theorem scanstring_escape {s : PyStr} (h : ∀ c ∈ s, CodePoint c) (rest : PyStr) :
    scanstring (s.flatMap escape ++ 34 :: rest) = some (joined s, rest) := by
  rw [scanstring, scanUnits_flatMap_escape h, ← join_flatMap_unitsOf h]
  rfl

/-! ## Numbers -/

/-- What stands behind a value continues no number. -/
def Ends (rest : PyStr) : Prop :=
  ∀ c, rest.head? = some c →
    isDigit c = false ∧ c ≠ 46 ∧ c ≠ 101 ∧ c ≠ 69 ∧ c ≠ 43 ∧ c ≠ 45

theorem takeWhile_isDigit_append {rest : PyStr} (h : Ends rest) (s : PyStr) :
    (s ++ rest).takeWhile isDigit = s.takeWhile isDigit ∧
      (s ++ rest).dropWhile isDigit = s.dropWhile isDigit ++ rest := by
  induction s with
  | nil =>
    cases rest with
    | nil => exact ⟨rfl, rfl⟩
    | cons c rest =>
      have hc := (h c rfl).1
      exact ⟨List.takeWhile_cons_of_neg (by simp [hc]), List.dropWhile_cons_of_neg (by simp [hc])⟩
  | cons c s ih =>
    rw [List.cons_append, List.takeWhile_cons, List.takeWhile_cons, List.dropWhile_cons,
      List.dropWhile_cons]
    split
    · exact ⟨congrArg _ ih.1, ih.2⟩
    · exact ⟨rfl, rfl⟩

theorem scanDigits_append {s digits r rest : PyStr} (hrest : Ends rest)
    (h : scanDigits s = some (digits, r)) : scanDigits (s ++ rest) = some (digits, r ++ rest) := by
  cases s with
  | nil => cases h
  | cons c s =>
    obtain ⟨htake, hdrop⟩ := takeWhile_isDigit_append hrest s
    simp only [scanDigits, List.cons_append] at h ⊢
    rw [htake, hdrop]
    split
    · rename_i hc
      rw [if_pos hc] at h
      cases h
      rfl
    · rename_i hc
      rw [if_neg hc] at h
      split
      · rename_i hdigit
        rw [if_pos hdigit] at h
        cases h
        rfl
      · rename_i hdigit
        rw [if_neg hdigit] at h
        cases h

/-- What stands behind a text does not change its start. -/
theorem start_append {s : PyStr} (h : s ≠ []) (rest : PyStr) :
    (s ++ rest).head? = s.head? ∧ (s ++ rest).tail = s.tail ++ rest ∧
      (s ++ rest).take 1 = s.take 1 := by
  cases s with
  | nil => exact absurd rfl h
  | cons c s => exact ⟨rfl, rfl, rfl⟩

theorem scanInteger_append {s integer r rest : PyStr} (hrest : Ends rest)
    (h : scanInteger s = some (integer, r)) :
    scanInteger (s ++ rest) = some (integer, r ++ rest) := by
  have hne : s ≠ [] := by
    rintro rfl
    cases h
  obtain ⟨hhead, htail, -⟩ := start_append hne rest
  unfold scanInteger at h ⊢
  rw [hhead, htail]
  by_cases hsign : s.head? = some 45
  · rw [if_pos hsign] at h ⊢
    obtain ⟨⟨digits, r'⟩, hdigits, hpair⟩ := Option.bind_eq_some_iff.1 h
    cases hpair
    exact Option.bind_eq_some_iff.2
      ⟨⟨digits, r ++ rest⟩, scanDigits_append hrest hdigits, rfl⟩
  · rw [if_neg hsign] at h ⊢
    exact scanDigits_append hrest h

theorem scanFraction_append {rest : PyStr} (hrest : Ends rest) (s : PyStr) :
    scanFraction (s ++ rest) = ((scanFraction s).1, (scanFraction s).2 ++ rest) := by
  by_cases hne : s = []
  · have hhead : rest.head? ≠ some 46 := fun h => (hrest 46 h).2.1 rfl
    simp [hne, scanFraction, hhead]
  obtain ⟨hhead, htail, -⟩ := start_append hne rest
  obtain ⟨htake, hdrop⟩ := takeWhile_isDigit_append hrest s.tail
  unfold scanFraction
  rw [hhead, htail, htake, hdrop]
  split <;> rfl

theorem scanSign_append {rest : PyStr} (hrest : Ends rest) (s : PyStr) :
    scanSign (s ++ rest) = ((scanSign s).1, (scanSign s).2 ++ rest) := by
  by_cases hne : s = []
  · have hplus : rest.head? ≠ some 43 := fun h => (hrest 43 h).2.2.2.2.1 rfl
    have hminus : rest.head? ≠ some 45 := fun h => (hrest 45 h).2.2.2.2.2 rfl
    simp [hne, scanSign, hplus, hminus]
  obtain ⟨hhead, htail, htake⟩ := start_append hne rest
  unfold scanSign
  rw [hhead, htail, htake]
  split <;> rfl

theorem scanExponent_append {rest : PyStr} (hrest : Ends rest) (s : PyStr) :
    scanExponent (s ++ rest) = ((scanExponent s).1, (scanExponent s).2 ++ rest) := by
  by_cases hne : s = []
  · have hlower : rest.head? ≠ some 101 := fun h => (hrest 101 h).2.2.1 rfl
    have hupper : rest.head? ≠ some 69 := fun h => (hrest 69 h).2.2.2.1 rfl
    simp [hne, scanExponent, hlower, hupper]
  obtain ⟨hhead, htail, htake⟩ := start_append hne rest
  obtain ⟨hdigits, hdrop⟩ := takeWhile_isDigit_append hrest (scanSign s.tail).2
  simp only [scanExponent]
  rw [hhead, htail, htake, scanSign_append hrest, hdigits, hdrop]
  split <;> rfl

/-- A number is read the same way before anything that does not continue it. -/
theorem scanNumber_append {rt : Runtime} {s r rest : PyStr} {v : Json} (hrest : Ends rest)
    (h : scanNumber rt s = some (v, r)) : scanNumber rt (s ++ rest) = some (v, r ++ rest) := by
  simp only [scanNumber, Option.bind_eq_bind, Option.bind_eq_some_iff] at h ⊢
  obtain ⟨⟨integer, r'⟩, hinteger, h⟩ := h
  refine ⟨⟨integer, r' ++ rest⟩, scanInteger_append hrest hinteger, ?_⟩
  simp only [scanFraction_append hrest, scanExponent_append hrest]
  by_cases hint : (scanFraction r').1 = [] ∧ (scanExponent (scanFraction r').2).1 = []
  · rw [if_pos hint] at h ⊢
    obtain ⟨n, hn, hpair⟩ := Option.bind_eq_some_iff.1 h
    cases hpair
    rw [hn]
    rfl
  · rw [if_neg hint] at h ⊢
    obtain ⟨x, hx, hpair⟩ := Option.bind_eq_some_iff.1 h
    cases hpair
    rw [hx]
    rfl

/-- A number other than zero starts with no zero. -/
theorem toDigits_head {n : Nat} (h : 0 < n) :
    ∃ c rest, Nat.toDigits 10 n = c :: rest ∧ c.toNat ≠ 48 := by
  induction n using Nat.strongRecOn with
  | ind n ih =>
    by_cases hsmall : n < 10
    · rw [Nat.toDigits_of_lt_base hsmall]
      have hdigit : ∀ m < 10, 0 < m → (Nat.digitChar m).toNat ≠ 48 := by decide
      exact ⟨n.digitChar, [], rfl, hdigit n hsmall h⟩
    · obtain ⟨c, rest, hdigits, hc⟩ := ih (n / 10) (by omega) (by omega)
      rw [Nat.toDigits_of_base_le (by decide) (by omega), hdigits]
      exact ⟨c, rest ++ [(n % 10).digitChar], rfl, hc⟩

theorem scanDigits_py_repr (n : Nat) : scanDigits (py n.repr) = some (py n.repr, []) := by
  rcases Nat.eq_zero_or_pos n with rfl | hpos
  · rfl
  have hdigits : ∀ c ∈ py n.repr, isDigit c = true := fun c hc => by
    simpa [isDigit] using py_repr_digit hc
  obtain ⟨c, rest, hcons, hc⟩ := toDigits_head hpos
  rw [py_repr, hcons, List.map_cons] at hdigits ⊢
  have hall : ∀ d ∈ rest.map Char.toNat, isDigit d = true := fun d hd =>
    hdigits d (List.mem_cons_of_mem c.toNat hd)
  rw [scanDigits, if_neg hc, if_pos (hdigits c.toNat List.mem_cons_self),
    List.takeWhile_eq_self_iff.2 hall, List.dropWhile_eq_nil_iff.2 hall]

theorem head_py_repr (n : Nat) : (py n.repr).head? ≠ some 45 := by
  intro h
  have hdigit := py_repr_digit (List.mem_of_head? h)
  omega

/-- The text of an integer is one integer. -/
theorem scanInteger_toString (n : Int) :
    scanInteger (py (toString n)) = some (py (toString n), []) := by
  cases n with
  | ofNat n =>
    show scanInteger (py n.repr) = some (py n.repr, [])
    rw [scanInteger, if_neg (head_py_repr n), scanDigits_py_repr]
  | negSucc n =>
    have hsign : (45 :: py (n + 1).repr).head? = some 45 := rfl
    rw [py_toString_negSucc, scanInteger, if_pos hsign, List.tail_cons, scanDigits_py_repr]
    rfl

theorem length_py (text : String) : (py text).length = text.length := by
  rw [py, List.length_map, String.length_toList]

/-- It is read as the integer if it has not too many digits. -/
theorem intOf_toString {n : Int} (h : IntFits n) : intOf (py (toString n)) = some n := by
  unfold IntFits at h
  rw [← length_py] at h
  cases n with
  | ofNat n =>
    have hlength : ¬ maxStrDigits < (py n.repr).length := Nat.not_lt.2 h
    show intOf (py n.repr) = some (n : Int)
    simp only [intOf, if_neg (head_py_repr n)]
    rw [if_neg hlength, magnitude, foldl_py_repr]
  | negSucc n =>
    have hlength : ¬ maxStrDigits < (py (n + 1).repr).length := Nat.not_lt.2 h
    have hsign : (45 :: py (n + 1).repr).head? = some 45 := rfl
    rw [py_toString_negSucc]
    simp only [intOf, if_pos hsign, List.tail_cons]
    rw [if_neg hlength, magnitude, foldl_py_repr]
    rfl

theorem scanNumber_toString (rt : Runtime) {n : Int} (h : IntFits n) :
    scanNumber rt (py (toString n)) = some (.int n, []) := by
  rw [scanNumber, scanInteger_toString, Option.bind_eq_bind, Option.bind_some]
  show ((intOf (py (toString n))).bind fun m => some (Json.int m, [])) = _
  rw [intOf_toString h]
  rfl

theorem digits_of_scanDigits {s digits r : PyStr} (h : scanDigits s = some (digits, r)) :
    ∀ c ∈ digits, isDigit c = true := by
  cases s with
  | nil => cases h
  | cons c s =>
    simp only [scanDigits] at h
    split at h
    · cases h
      decide
    · split at h
      · rename_i hdigit
        cases h
        exact List.forall_mem_cons.2 ⟨hdigit, fun d hd => List.mem_takeWhile_imp hd⟩
      · cases h

/-- The value of digits is less than the power of ten that has one digit more. -/
theorem magnitude_lt {digits : PyStr} (h : ∀ c ∈ digits, isDigit c = true) :
    magnitude digits < 10 ^ digits.length := by
  have hfold : ∀ n, digits.foldl (fun n c => 10 * n + (c - 48)) n <
      (n + 1) * 10 ^ digits.length := by
    induction digits with
    | nil => simp
    | cons c digits ih =>
      intro n
      obtain ⟨hc, hrest⟩ := List.forall_mem_cons.1 h
      simp only [isDigit, Bool.and_eq_true, decide_eq_true_eq] at hc
      calc digits.foldl (fun n c => 10 * n + (c - 48)) (10 * n + (c - 48))
          < (10 * n + (c - 48) + 1) * 10 ^ digits.length := ih hrest _
        _ ≤ (10 * (n + 1)) * 10 ^ digits.length := Nat.mul_le_mul_right _ (by omega)
        _ = (n + 1) * 10 ^ (c :: digits).length := by
          rw [List.length_cons, Nat.pow_succ, Nat.mul_comm 10, Nat.mul_assoc, Nat.mul_comm 10]
  have hzero := hfold 0
  rwa [Nat.zero_add, Nat.one_mul] at hzero

/-- An integer that is read has not too many digits. -/
theorem intFits_of_intOf {s integer r : PyStr} {n : Int}
    (hscan : scanInteger s = some (integer, r)) (h : intOf integer = some n) : IntFits n := by
  have hfits : ∀ {digits : PyStr}, (∀ c ∈ digits, isDigit c = true) →
      digits.length ≤ maxStrDigits → (magnitude digits).repr.length ≤ maxStrDigits := by
    intro digits hdigits hlength
    refine (Nat.length_repr_le_iff (by decide)).2 ((magnitude_lt hdigits).trans_le ?_)
    exact Nat.pow_le_pow_right (by decide) hlength
  unfold scanInteger at hscan
  split at hscan
  · obtain ⟨⟨digits, r'⟩, hdigits, hpair⟩ := Option.bind_eq_some_iff.1 hscan
    cases hpair
    have hsign : (45 :: digits).head? = some 45 := rfl
    simp only [intOf, if_pos hsign, List.tail_cons] at h
    split at h
    · cases h
    · cases h
      unfold IntFits
      rw [Int.natAbs_neg, Int.natAbs_natCast]
      exact hfits (digits_of_scanDigits hdigits) (by omega)
  · have hdigits := digits_of_scanDigits hscan
    have hsign : integer.head? ≠ some 45 := by
      intro hhead
      have hdigit := hdigits 45 (List.mem_of_head? hhead)
      cases hdigit
    simp only [intOf, if_neg hsign] at h
    split at h
    · cases h
    · cases h
      unfold IntFits
      rw [Int.natAbs_natCast]
      exact hfits hdigits (by omega)

/-- An integer starts with a sign or a digit. -/
theorem head_of_scanInteger {s integer r : PyStr} (hinteger : scanInteger s = some (integer, r)) :
    ∃ c t, s = c :: t ∧ (c = 45 ∨ isDigit c = true) := by
  cases s with
  | nil => cases hinteger
  | cons c t =>
    refine ⟨c, t, rfl, ?_⟩
    by_cases hsign : c = 45
    · exact Or.inl hsign
    · have hhead : ¬ (c :: t).head? = some 45 := fun h => hsign (Option.some.inj h)
      rw [scanInteger, if_neg hhead, scanDigits] at hinteger
      right
      split at hinteger
      · rename_i hzero
        rw [hzero]
        rfl
      · split at hinteger
        · assumption
        · cases hinteger

theorem head_of_scanNumber {rt : Runtime} {s r : PyStr} {v : Json}
    (h : scanNumber rt s = some (v, r)) :
    ∃ c t, s = c :: t ∧ (c = 45 ∨ isDigit c = true) := by
  simp only [scanNumber, Option.bind_eq_bind, Option.bind_eq_some_iff] at h
  obtain ⟨⟨integer, r'⟩, hinteger, -⟩ := h
  exact head_of_scanInteger hinteger

/-! ## Constants -/

theorem scanLiteral_append (text : PyStr) (v : Json) (rest : PyStr) :
    scanLiteral text v (text ++ rest) = some (v, rest) := by
  rw [scanLiteral, if_pos (List.isPrefixOf_iff_prefix.2 (List.prefix_append text rest)),
    List.drop_left]

theorem scanLiteral_eq_none {text s : PyStr} {v : Json} (hne : text ≠ [])
    (h : s.head? ≠ text.head?) : scanLiteral text v s = none := by
  rw [scanLiteral, if_neg]
  intro hprefix
  obtain ⟨t, rfl⟩ := List.isPrefixOf_iff_prefix.1 hprefix
  exact h (start_append hne t).1

theorem scanAtom_null (rt : Runtime) (rest : PyStr) :
    scanAtom rt (py "null" ++ rest) = some (.null, rest) := by
  rw [scanAtom, scanLiteral_append]
  rfl

theorem scanAtom_bool (rt : Runtime) (b : Bool) (rest : PyStr) :
    scanAtom rt ((if b then py "true" else py "false") ++ rest) = some (.bool b, rest) := by
  unfold scanAtom
  cases b with
  | true =>
    rw [if_pos rfl, scanLiteral_eq_none (by decide) (by simp [py]), scanLiteral_append]
    rfl
  | false =>
    rw [if_neg Bool.false_ne_true, scanLiteral_eq_none (by decide) (by simp [py]),
      scanLiteral_eq_none (by decide) (by simp [py]), scanLiteral_append]
    rfl

theorem scanAtom_number {rt : Runtime} {s r : PyStr} {v : Json}
    (h : scanNumber rt s = some (v, r)) : scanAtom rt s = some (v, r) := by
  obtain ⟨c, t, rfl, hc⟩ := head_of_scanNumber h
  have hother : ∀ (text : PyStr) (w : Json), (∃ first, text.head? = some first ∧ 58 ≤ first) →
      scanLiteral text w (c :: t) = none := by
    rintro text w ⟨first, hfirst, hlarge⟩
    apply scanLiteral_eq_none
    · rintro rfl
      cases hfirst
    · rw [hfirst]
      intro heq
      cases heq
      rcases hc with rfl | hdigit
      · omega
      · simp only [isDigit, Bool.and_eq_true, decide_eq_true_eq] at hdigit
        omega
  rw [scanAtom, hother _ _ ⟨110, rfl, by decide⟩, hother _ _ ⟨116, rfl, by decide⟩,
    hother _ _ ⟨102, rfl, by decide⟩, h]
  rfl

theorem scanAtom_nan (rt : Runtime) (rest : PyStr) :
    scanAtom rt (py "NaN" ++ rest) = some (.float (0 / 0), rest) := by
  have hnumber : scanNumber rt (py "NaN" ++ rest) = none := rfl
  rw [scanAtom, scanLiteral_eq_none (by decide) (by simp [py]),
    scanLiteral_eq_none (by decide) (by simp [py]), scanLiteral_eq_none (by decide) (by simp [py]),
    hnumber, scanLiteral_append]
  rfl

theorem scanAtom_infinity (rt : Runtime) (rest : PyStr) :
    scanAtom rt (py "Infinity" ++ rest) = some (.float (1 / 0), rest) := by
  have hnumber : scanNumber rt (py "Infinity" ++ rest) = none := rfl
  rw [scanAtom, scanLiteral_eq_none (by decide) (by simp [py]),
    scanLiteral_eq_none (by decide) (by simp [py]), scanLiteral_eq_none (by decide) (by simp [py]),
    hnumber, scanLiteral_eq_none (by decide) (by simp [py]), scanLiteral_append]
  rfl

theorem scanAtom_negInfinity (rt : Runtime) (rest : PyStr) :
    scanAtom rt (py "-Infinity" ++ rest) = some (.float (-1 / 0), rest) := by
  have hnumber : scanNumber rt (py "-Infinity" ++ rest) = none := rfl
  rw [scanAtom, scanLiteral_eq_none (by decide) (by simp [py]),
    scanLiteral_eq_none (by decide) (by simp [py]), scanLiteral_eq_none (by decide) (by simp [py]),
    hnumber, scanLiteral_eq_none (by decide) (by simp [py]),
    scanLiteral_eq_none (by decide) (by simp [py]), scanLiteral_append]
  rfl

/-- What is read of a whole text is read before anything that continues no number. -/
theorem scanAtom_append {rt : Runtime} {s rest : PyStr} {v : Json} (hrest : Ends rest)
    (h : scanAtom rt s = some (v, [])) : scanAtom rt (s ++ rest) = some (v, rest) := by
  rcases scanAtom_cases h with ⟨text, htext, rfl⟩ | h
  · rw [List.append_nil]
    simp only [constants, List.mem_cons, Prod.mk.injEq, List.not_mem_nil, or_false] at htext
    rcases htext with ⟨rfl, rfl⟩ | ⟨rfl, rfl⟩ | ⟨rfl, rfl⟩ | ⟨rfl, rfl⟩ | ⟨rfl, rfl⟩ | ⟨rfl, rfl⟩
    · exact scanAtom_null rt rest
    · exact scanAtom_bool rt true rest
    · exact scanAtom_bool rt false rest
    · exact scanAtom_nan rt rest
    · exact scanAtom_infinity rt rest
    · exact scanAtom_negInfinity rt rest
  · exact scanAtom_number (scanNumber_append hrest h)

/-! ## Values -/

mutual

/-- Every text of a value, every float of it and the keys of every object in it meet a
condition. -/
def Holds (text : PyStr → Prop) (real : Float → Prop) (keys : List PyStr → Prop) : Json → Prop
  | .null | .bool _ | .int _ => True
  | .float x => real x
  | .str s => text s
  | .arr items => ItemsHold text real keys items
  | .obj members => keys (members.map Prod.fst) ∧ MembersHold text real keys members

def ItemsHold (text : PyStr → Prop) (real : Float → Prop) (keys : List PyStr → Prop) :
    List Json → Prop
  | [] => True
  | item :: rest => Holds text real keys item ∧ ItemsHold text real keys rest

def MembersHold (text : PyStr → Prop) (real : Float → Prop) (keys : List PyStr → Prop) :
    List (PyStr × Json) → Prop
  | [] => True
  | (key, v) :: rest => text key ∧ Holds text real keys v ∧ MembersHold text real keys rest

end

mutual

/-- What is read back of a value. -/
def normal : Json → Json
  | .str s => .str (joined s)
  | .arr items => .arr (normalItems items)
  | .obj members => .obj (dict (normalMembers members))
  | v => v

def normalItems : List Json → List Json
  | [] => []
  | item :: rest => normal item :: normalItems rest

def normalMembers : List (PyStr × Json) → List (PyStr × Json)
  | [] => []
  | (key, v) :: rest => (joined key, normal v) :: normalMembers rest

end

/-- The text that `json.dumps` writes for a float is read as the float.  It may be an infinity,
but no NaN. -/
def Reads (rt : Runtime) (x : Float) : Prop :=
  x.isNaN = false ∧ scanAtom rt (dumpsFloat rt x) = some (.float x, [])

/-- The texts of the value are texts, and its floats are read back. -/
def Writable (rt : Runtime) (v : Json) : Prop :=
  Holds (fun s => ∀ c ∈ s, CodePoint c) (Reads rt) (fun _ => True) v

/-- A comma and a colon, each before blanks. -/
structure Blank (separators : Separators) : Prop where
  item : ∃ blanks, separators.item = 44 :: blanks ∧ ∀ c ∈ blanks, isBlank c = true
  key : ∃ blanks, separators.key = 58 :: blanks ∧ ∀ c ∈ blanks, isBlank c = true

theorem blank_spaced : Blank spaced :=
  ⟨⟨[32], rfl, by decide⟩, ⟨[32], rfl, by decide⟩⟩

theorem blank_compact : Blank compact :=
  ⟨⟨[], rfl, by decide⟩, ⟨[], rfl, by decide⟩⟩

/-- No blank and no closing bracket starts the text. -/
def Starts (s : PyStr) : Prop :=
  ∃ c t, s = c :: t ∧ isBlank c = false ∧ c ≠ 93 ∧ c ≠ 125 ∧ c < 128

/-- No quote and no opening bracket starts it either. -/
def StartsAtom (s : PyStr) : Prop :=
  ∃ c t, s = c :: t ∧ (isBlank c = false ∧ c ≠ 93 ∧ c ≠ 125 ∧ c < 128) ∧ c ≠ 34 ∧ c ≠ 123 ∧ c ≠ 91

theorem StartsAtom.starts {s : PyStr} (h : StartsAtom s) : Starts s := by
  obtain ⟨c, t, rfl, hc, -⟩ := h
  exact ⟨c, t, rfl, hc⟩

theorem Starts.append {s : PyStr} (h : Starts s) (t : PyStr) : Starts (s ++ t) := by
  obtain ⟨c, s, rfl, hc⟩ := h
  exact ⟨c, s ++ t, rfl, hc⟩

theorem skipBlanks_append {blanks : PyStr} (h : ∀ c ∈ blanks, isBlank c = true) (s : PyStr) :
    skipBlanks (blanks ++ s) = skipBlanks s :=
  List.dropWhile_append_of_pos h

theorem Starts.skipBlanks_eq {s : PyStr} (h : Starts s) : skipBlanks s = s := by
  obtain ⟨c, t, rfl, hc, -⟩ := h
  exact List.dropWhile_cons_of_neg (by simp [hc])

/-- A sign or a digit starts an integer. -/
theorem startsAtom_of_digit {c : Nat} (t : PyStr) (h : c = 45 ∨ isDigit c = true) :
    StartsAtom (c :: t) := by
  refine ⟨c, t, rfl, ?_⟩
  rcases h with rfl | hdigit
  · decide
  · simp only [isDigit, isBlank] at *
    grind

theorem startsAtom_of_scanAtom {rt : Runtime} {s r : PyStr} {v : Json}
    (h : scanAtom rt s = some (v, r)) : StartsAtom s := by
  rcases scanAtom_cases h with ⟨text, htext, rfl⟩ | h
  · simp only [constants, List.mem_cons, Prod.mk.injEq, List.not_mem_nil, or_false] at htext
    rcases htext with ⟨rfl, -⟩ | ⟨rfl, -⟩ | ⟨rfl, -⟩ | ⟨rfl, -⟩ | ⟨rfl, -⟩ | ⟨rfl, -⟩
    all_goals exact ⟨_, _, rfl, by decide⟩
  · obtain ⟨c, t, rfl, hc⟩ := head_of_scanNumber h
    exact startsAtom_of_digit t hc

/-- A value is written with a first character that is no blank. -/
theorem starts_dumps {rt : Runtime} {v : Json} (separators : Separators) (h : Writable rt v) :
    Starts (v.dumps rt separators) := by
  cases v with
  | null => exact ⟨110, py "ull", rfl, by decide⟩
  | bool b =>
    cases b with
    | true => exact ⟨116, py "rue", rfl, by decide⟩
    | false => exact ⟨102, py "alse", rfl, by decide⟩
  | int n =>
    obtain ⟨c, t, ht, hc⟩ := head_of_scanInteger (scanInteger_toString n)
    rw [Json.dumps, ht]
    exact (startsAtom_of_digit t hc).starts
  | float x => exact (startsAtom_of_scanAtom h.2).starts
  | str s => exact ⟨34, s.flatMap escape ++ [34], rfl, by decide⟩
  | arr items => exact ⟨91, _, rfl, by decide⟩
  | obj members => exact ⟨123, _, rfl, by decide⟩

/-! ## The round trip -/

theorem intercalate_cons {separator text : PyStr} {texts : List PyStr} (h : texts ≠ []) :
    separator.intercalate (text :: texts) = text ++ (separator ++ separator.intercalate texts) := by
  cases texts with
  | nil => exact absurd rfl h
  | cons next texts => simp [List.intercalate]

/-- What follows a value in a list of values, or in an object. -/
theorem ends_of_head {c : Nat} {rest : PyStr} (h : c = 44 ∨ c = 93 ∨ c = 125) :
    Ends (c :: rest) := by
  intro d hd
  cases hd
  rcases h with rfl | rfl | rfl <;> decide

theorem skipBlanks_cons {c : Nat} {rest : PyStr} (h : isBlank c = false) :
    skipBlanks (c :: rest) = c :: rest :=
  List.dropWhile_cons_of_neg (by simp [h])

section RoundTrip

variable {rt : Runtime} {separators : Separators}

/-- A value that is no string, no array and no object. -/
theorem value_of_scanAtom {depth fuel : Nat} {s rest : PyStr} {v : Json} (hfuel : 0 < fuel)
    (hrest : Ends rest) (h : scanAtom rt s = some (v, [])) :
    value rt depth fuel (s ++ rest) = some (v, rest) := by
  have happend := scanAtom_append hrest h
  obtain ⟨c, t, hct, -, hc⟩ := startsAtom_of_scanAtom happend
  obtain ⟨n, rfl⟩ : ∃ n, fuel = n + 1 := ⟨fuel - 1, by omega⟩
  rw [hct] at happend ⊢
  exact value_eq_some.2 (Or.inr (Or.inr (Or.inr ⟨hc, happend⟩)))

/-- Behind the last value of an array is its bracket, and behind any other one a comma. -/
theorem items_of_value {depth fuel : Nat} {s r rest : PyStr} {v : Json} {values : List Json}
    (hv : value rt depth fuel s = some (v, r))
    (hr : r = 93 :: rest ∧ values = [] ∨
      ∃ t, Starts t ∧ (∃ blanks, r = 44 :: (blanks ++ t) ∧ ∀ c ∈ blanks, isBlank c = true) ∧
        items rt depth fuel t = some (values, rest)) :
    items rt depth (fuel + 1) s = some (v :: values, rest) := by
  refine items_eq_some.2 ⟨v, r, hv, ?_⟩
  rcases hr with ⟨rfl, rfl⟩ | ⟨t, ht, ⟨blanks, rfl, hblanks⟩, hmore⟩
  · rw [skipBlanks_cons rfl]
    exact Or.inl ⟨rfl, rfl, rfl⟩
  · rw [skipBlanks_cons rfl]
    refine Or.inr ⟨rfl, values, ?_, rfl⟩
    rw [List.tail_cons, skipBlanks_append hblanks, ht.skipBlanks_eq]
    exact hmore

/-- The same of the members of an object. -/
theorem members_of_value {depth fuel : Nat} {key s r rest blanks t : PyStr} {v : Json}
    {pairs : List (PyStr × Json)}
    (hkey : scanstring s = some (key, 58 :: (blanks ++ t))) (ht : Starts t)
    (hblanks : ∀ c ∈ blanks, isBlank c = true) (hv : value rt depth fuel t = some (v, r))
    (hr : r = 125 :: rest ∧ pairs = [] ∨
      ∃ t, Starts t ∧ (∃ blanks, r = 44 :: (blanks ++ t) ∧ ∀ c ∈ blanks, isBlank c = true) ∧
        members rt depth fuel t = some (pairs, rest)) :
    members rt depth (fuel + 1) (34 :: s) = some ((key, v) :: pairs, rest) := by
  refine members_eq_some.2 ⟨rfl, key, _, hkey, ?_, v, r, ?_, ?_⟩
  · rw [skipBlanks_cons rfl]
    rfl
  · rw [skipBlanks_cons rfl, List.tail_cons, skipBlanks_append hblanks, ht.skipBlanks_eq]
    exact hv
  rcases hr with ⟨rfl, rfl⟩ | ⟨t, ht, ⟨blanks, rfl, hblanks⟩, hmore⟩
  · rw [skipBlanks_cons rfl]
    exact Or.inl ⟨rfl, rfl, rfl⟩
  · rw [skipBlanks_cons rfl]
    refine Or.inr ⟨rfl, pairs, ?_, rfl⟩
    rw [List.tail_cons, skipBlanks_append hblanks, ht.skipBlanks_eq]
    exact hmore

theorem dumpsItems_ne_nil (item : Json) (rest : List Json) :
    dumpsItems rt separators (item :: rest) ≠ [] := by
  simp [dumpsItems]

theorem starts_items (separators : Separators) {item : Json} (rest : List Json)
    (h : Writable rt item) : Starts (separators.item.intercalate
      (dumpsItems rt separators (item :: rest))) := by
  cases rest with
  | nil => simpa [dumpsItems, List.intercalate] using starts_dumps separators h
  | cons next rest =>
    rw [dumpsItems, intercalate_cons (dumpsItems_ne_nil next rest)]
    exact (starts_dumps separators h).append _

theorem starts_members (rt : Runtime) (separators : Separators) (member : PyStr × Json)
    (rest : List (PyStr × Json)) :
    ∃ t, separators.item.intercalate (dumpsMembers rt separators (member :: rest)) =
      34 :: t := by
  cases rest with
  | nil => simp [dumpsMembers, List.intercalate, dumpsStr]
  | cons next rest =>
    rw [dumpsMembers, intercalate_cons (by simp [dumpsMembers])]
    exact ⟨_, rfl⟩

mutual

/-- A value is read back in its normal form, whatever stands behind it. -/
theorem value_dumps (hsep : Blank separators) (v : Json) (h : Writable rt v) (depth : Nat)
    (hfits : v.Fits depth) (fuel : Nat) (rest : PyStr) (hrest : Ends rest)
    (hfuel : (v.dumps rt separators).length ≤ fuel) :
    value rt depth fuel (v.dumps rt separators ++ rest) = some (normal v, rest) := by
  have hpos : 0 < fuel := by
    obtain ⟨c, t, hct, -⟩ := starts_dumps separators h
    rw [hct] at hfuel
    exact lt_of_lt_of_le (Nat.succ_pos _) hfuel
  cases v with
  | null => exact value_of_scanAtom hpos hrest (scanAtom_null rt [])
  | bool b =>
    refine value_of_scanAtom hpos hrest ?_
    have hread := scanAtom_bool rt b []
    rw [List.append_nil] at hread
    exact hread
  | int n => exact value_of_scanAtom hpos hrest (scanAtom_number (scanNumber_toString rt hfits))
  | float x => exact value_of_scanAtom hpos hrest h.2
  | str s =>
    obtain ⟨n, rfl⟩ : ∃ n, fuel = n + 1 := ⟨fuel - 1, by omega⟩
    refine value_eq_some.2 (Or.inl ⟨rfl, joined s, ?_, rfl⟩)
    show scanstring (s.flatMap escape ++ [34] ++ rest) = _
    rw [List.append_assoc]
    exact scanstring_escape h rest
  | arr items =>
    obtain ⟨n, rfl⟩ : ∃ n, fuel = n + 1 := ⟨fuel - 1, by omega⟩
    have htext : (Json.arr items).dumps rt separators ++ rest =
        91 :: (separators.item.intercalate (dumpsItems rt separators items) ++ 93 :: rest) := by
      rw [Json.dumps]
      simp [py]
    have hlength : (separators.item.intercalate (dumpsItems rt separators items)).length + 1 ≤
        n := by
      rw [Json.dumps] at hfuel
      simp only [List.length_append, py] at hfuel
      simp at hfuel
      omega
    rw [htext]
    refine value_eq_some.2 (Or.inr (Or.inr (Or.inl ⟨⟨rfl, hfits.1⟩, ?_⟩)))
    cases items with
    | nil => exact Or.inl ⟨rfl, rfl, rfl⟩
    | cons item more =>
      have hstarts := (starts_items separators more h.1).append (93 :: rest)
      rw [hstarts.skipBlanks_eq]
      obtain ⟨c, t, hct, -, hc, -⟩ := hstarts
      have hopen : (c :: t).head? ≠ some 93 := fun heq => hc (Option.some.inj heq)
      refine Or.inr ⟨by rw [hct]; exact hopen, _, ?_, rfl⟩
      exact items_dumps hsep (item :: more) (by simp) h _ hfits.2 n rest hlength
  | obj members =>
    obtain ⟨n, rfl⟩ : ∃ n, fuel = n + 1 := ⟨fuel - 1, by omega⟩
    have htext : (Json.obj members).dumps rt separators ++ rest =
        123 :: (separators.item.intercalate (dumpsMembers rt separators members) ++
          125 :: rest) := by
      rw [Json.dumps]
      simp [py]
    have hlength :
        (separators.item.intercalate (dumpsMembers rt separators members)).length + 1 ≤ n := by
      rw [Json.dumps] at hfuel
      simp only [List.length_append, py] at hfuel
      simp at hfuel
      omega
    rw [htext]
    refine value_eq_some.2 (Or.inr (Or.inl ⟨⟨rfl, hfits.1⟩, ?_⟩))
    cases members with
    | nil => exact Or.inl ⟨rfl, rfl, rfl⟩
    | cons member more =>
      obtain ⟨t, ht⟩ := starts_members rt separators member more
      have hmembers := members_dumps hsep (member :: more) (by simp) h.2 _ hfits.2 n rest
        hlength
      rw [ht, List.cons_append] at hmembers ⊢
      rw [skipBlanks_cons rfl]
      exact Or.inr ⟨by simp, _, hmembers, rfl⟩

theorem items_dumps (hsep : Blank separators) (items' : List Json) (hne : items' ≠ [])
    (h : ItemsHold (fun s => ∀ c ∈ s, CodePoint c) (Reads rt) (fun _ => True) items')
    (depth : Nat) (hfits : ItemsFit depth items') (fuel : Nat) (rest : PyStr)
    (hfuel : (separators.item.intercalate (dumpsItems rt separators items')).length + 1 ≤ fuel) :
    items rt depth fuel
        (separators.item.intercalate (dumpsItems rt separators items') ++ 93 :: rest) =
      some (normalItems items', rest) := by
  obtain ⟨n, rfl⟩ : ∃ n, fuel = n + 1 := ⟨fuel - 1, by omega⟩
  obtain ⟨blanks, hcomma, hblanks⟩ := hsep.item
  cases items' with
  | nil => exact absurd rfl hne
  | cons item more =>
    cases more with
    | nil =>
      have htext : separators.item.intercalate (dumpsItems rt separators [item]) =
          item.dumps rt separators := by
        simp [dumpsItems, List.intercalate]
      rw [htext] at hfuel ⊢
      exact items_of_value (value_dumps hsep item h.1 _ hfits.1 n (93 :: rest)
        (ends_of_head (by simp)) (by omega)) (Or.inl ⟨rfl, rfl⟩)
    | cons next more =>
      rw [dumpsItems, intercalate_cons (dumpsItems_ne_nil next more), hcomma] at hfuel ⊢
      simp only [List.length_append, List.length_cons] at hfuel
      rw [← hcomma] at hfuel
      rw [List.append_assoc]
      refine items_of_value
        (value_dumps hsep item h.1 _ hfits.1 n _ (ends_of_head (by simp)) (by omega))
        (Or.inr ⟨_, (starts_items separators more h.2.1).append (93 :: rest), ⟨blanks, ?_, hblanks⟩,
          items_dumps hsep (next :: more) (by simp) h.2 _ hfits.2 n rest (by omega)⟩)
      rw [hcomma]
      simp only [List.cons_append, List.append_assoc]

theorem members_dumps (hsep : Blank separators) (pairs : List (PyStr × Json)) (hne : pairs ≠ [])
    (h : MembersHold (fun s => ∀ c ∈ s, CodePoint c) (Reads rt) (fun _ => True) pairs)
    (depth : Nat) (hfits : MembersFit depth pairs) (fuel : Nat) (rest : PyStr)
    (hfuel : (separators.item.intercalate (dumpsMembers rt separators pairs)).length + 1 ≤ fuel) :
    members rt depth fuel (separators.item.intercalate (dumpsMembers rt separators pairs) ++
      125 :: rest) = some (normalMembers pairs, rest) := by
  obtain ⟨n, rfl⟩ : ∃ n, fuel = n + 1 := ⟨fuel - 1, by omega⟩
  obtain ⟨blanks, hcomma, hblanks⟩ := hsep.item
  obtain ⟨blanks', hcolon, hblanks'⟩ := hsep.key
  cases pairs with
  | nil => exact absurd rfl hne
  | cons pair more =>
    obtain ⟨key, v⟩ := pair
    obtain ⟨hkey, hv, hmore⟩ := h
    -- the key, up to the value
    have hscan : ∀ s, scanstring (key.flatMap escape ++ 34 :: 58 :: (blanks' ++ s)) =
        some (joined key, 58 :: (blanks' ++ s)) := fun s => scanstring_escape hkey _
    cases more with
    | nil =>
      have htext : separators.item.intercalate (dumpsMembers rt separators [(key, v)]) =
          34 :: (key.flatMap escape ++ 34 :: 58 :: (blanks' ++ v.dumps rt separators)) := by
        simp [dumpsMembers, List.intercalate, dumpsStr, hcolon]
      rw [htext] at hfuel ⊢
      simp only [List.length_append, List.length_cons] at hfuel
      simp only [List.cons_append, List.append_assoc]
      exact members_of_value (hscan _) ((starts_dumps separators hv).append _) hblanks'
        (value_dumps hsep v hv _ hfits.1 n (125 :: rest) (ends_of_head (by simp)) (by omega))
        (Or.inl ⟨rfl, rfl⟩)
    | cons next more =>
      obtain ⟨t, ht⟩ := starts_members rt separators next more
      have htext : separators.item.intercalate
          (dumpsMembers rt separators ((key, v) :: next :: more)) =
          34 :: (key.flatMap escape ++ 34 :: 58 :: (blanks' ++ (v.dumps rt separators ++
            44 :: (blanks ++ separators.item.intercalate
              (dumpsMembers rt separators (next :: more)))))) := by
        rw [dumpsMembers, intercalate_cons (by simp [dumpsMembers])]
        simp [dumpsStr, hcolon, hcomma]
      rw [htext] at hfuel ⊢
      simp only [List.length_append, List.length_cons] at hfuel
      simp only [List.cons_append, List.append_assoc]
      have hnext := members_dumps hsep (next :: more) (by simp) hmore _ hfits.2 n rest (by omega)
      refine members_of_value (hscan _) ((starts_dumps separators hv).append _) hblanks'
        (value_dumps hsep v hv _ hfits.1 n _ (ends_of_head (by simp)) (by omega))
        (Or.inr ⟨_, ?_, ⟨blanks, rfl, hblanks⟩, hnext⟩)
      rw [ht]
      exact ⟨34, _, rfl, by decide⟩

end

/-- What is written is read back in its normal form. -/
theorem loads_dumps (hsep : Blank separators) {v : Json} (h : Writable rt v)
    (hfits : v.Fits rt.readDepth) :
    loads rt (v.dumps rt separators) = some (normal v) := by
  obtain ⟨c, t, hct, hblank, -, -, hascii⟩ := starts_dumps separators h
  have hbom : (v.dumps rt separators).head? ≠ some 0xFEFF := by
    rw [hct]
    intro heq
    cases heq
    omega
  have hread := value_dumps hsep v h _ hfits _ [] nofun le_rfl
  rw [List.append_nil] at hread
  unfold loads document
  rw [(starts_dumps separators h).skipBlanks_eq, hread]
  simp [hbom, skipBlanks]

end RoundTrip

/-! ## What is read back unchanged -/

/-- A high surrogate stands right before a low one. -/
def HasPair (s : PyStr) : Prop :=
  ∃ before high low behind, s = before ++ high :: low :: behind ∧
    isHigh high = true ∧ isLow low = true

theorem hasPair_cons {c : Nat} {s : PyStr} :
    HasPair (c :: s) ↔
      (isHigh c = true ∧ ∃ low behind, s = low :: behind ∧ isLow low = true) ∨ HasPair s := by
  constructor
  · rintro ⟨before, high, low, behind, heq, hhigh, hlow⟩
    cases before with
    | nil =>
      cases heq
      exact Or.inl ⟨hhigh, low, behind, rfl, hlow⟩
    | cons d before =>
      cases heq
      exact Or.inr ⟨before, high, low, behind, rfl, hhigh, hlow⟩
  · rintro (⟨hhigh, low, behind, rfl, hlow⟩ | ⟨before, high, low, behind, rfl, hhigh, hlow⟩)
    · exact ⟨[], c, low, behind, rfl, hhigh, hlow⟩
    · exact ⟨c :: before, high, low, behind, rfl, hhigh, hlow⟩

theorem not_hasPair_nil : ¬ HasPair [] := by
  rintro ⟨before, high, low, behind, heq, -⟩
  simp at heq

theorem length_joined_le (s : PyStr) : (joined s).length ≤ s.length := by
  induction s using joined.induct with
  | case1 => exact le_rfl
  | case2 c => exact le_rfl
  | case3 high low s hpair ih =>
    rw [joined, if_pos hpair]
    simp only [List.length_cons]
    omega
  | case4 high low s hpair ih =>
    rw [joined, if_neg hpair]
    exact Nat.succ_le_succ ih

theorem joined_eq_iff {s : PyStr} : joined s = s ↔ ¬ HasPair s := by
  induction s using joined.induct with
  | case1 => exact ⟨fun _ => not_hasPair_nil, fun _ => rfl⟩
  | case2 c =>
    refine ⟨fun _ => ?_, fun _ => rfl⟩
    rw [hasPair_cons]
    rintro (⟨-, low, behind, hnil, -⟩ | h)
    · cases hnil
    · exact not_hasPair_nil h
  | case3 high low s hpair ih =>
    rw [joined, if_pos hpair]
    constructor
    · intro heq
      have hlength := congrArg List.length heq
      have hle := length_joined_le s
      simp only [List.length_cons] at hlength
      omega
    · intro hnot
      obtain ⟨hhigh, hlow⟩ := Bool.and_eq_true_iff.1 hpair
      exact absurd ⟨[], high, low, s, rfl, hhigh, hlow⟩ hnot
  | case4 high low s hpair ih =>
    have hnone : ¬ (isHigh high = true ∧
        ∃ low' behind, low :: s = low' :: behind ∧ isLow low' = true) := by
      rintro ⟨hhigh, low', behind, heq, hlow⟩
      cases heq
      exact hpair (Bool.and_eq_true_iff.2 ⟨hhigh, hlow⟩)
    rw [joined, if_neg hpair, List.cons.injEq, ih, hasPair_cons (c := high), or_iff_right hnone]
    exact and_iff_right rfl

/-- No text of the value has a surrogate pair, and no object of it has a key twice. -/
def Canonical (v : Json) : Prop :=
  Holds (fun s => ¬ HasPair s) (fun _ => True) List.Nodup v

theorem length_normalMembers (members : List (PyStr × Json)) :
    (normalMembers members).length = members.length := by
  induction members with
  | nil => rfl
  | cons member members ih => exact congrArg Nat.succ ih

theorem dict_eq_iff {pairs : List (PyStr × Json)} :
    dict pairs = pairs ↔ (pairs.map Prod.fst).Nodup :=
  Table.rows_ofRows_eq_iff

theorem nodup_dict (pairs : List (PyStr × Json)) : ((dict pairs).map Prod.fst).Nodup :=
  (Table.ofRows pairs : Table (Prod.fst : PyStr × Json → PyStr)).nodup

mutual

theorem normal_eq_iff (v : Json) : normal v = v ↔ Canonical v := by
  cases v with
  | null | bool _ | int _ | float _ => simp [normal, Canonical, Holds]
  | str s =>
    rw [normal, Json.str.injEq]
    exact joined_eq_iff
  | arr items =>
    rw [normal, Json.arr.injEq]
    exact normalItems_eq_iff items
  | obj members =>
    rw [normal, Json.obj.injEq]
    constructor
    · intro heq
      have hlength := congrArg List.length heq
      rw [← length_normalMembers members] at hlength
      have hsame := dict_eq_iff.2 ((Table.length_ofRows _).2 hlength)
      have hkeys := nodup_dict (normalMembers members)
      rw [heq] at hkeys
      rw [hsame] at heq
      exact ⟨hkeys, (normalMembers_eq_iff members).1 heq⟩
    · rintro ⟨hkeys, hmembers⟩
      rw [(normalMembers_eq_iff members).2 hmembers]
      exact dict_eq_iff.2 hkeys

theorem normalItems_eq_iff (items : List Json) :
    normalItems items = items ↔
      ItemsHold (fun s => ¬ HasPair s) (fun _ => True) List.Nodup items := by
  cases items with
  | nil => simp [normalItems, ItemsHold]
  | cons item rest =>
    rw [normalItems, List.cons.injEq, normal_eq_iff item, normalItems_eq_iff rest]
    rfl

theorem normalMembers_eq_iff (members : List (PyStr × Json)) :
    normalMembers members = members ↔
      MembersHold (fun s => ¬ HasPair s) (fun _ => True) List.Nodup members := by
  cases members with
  | nil => simp [normalMembers, MembersHold]
  | cons member rest =>
    obtain ⟨key, v⟩ := member
    rw [normalMembers, List.cons.injEq, Prod.mk.injEq, joined_eq_iff, normal_eq_iff v,
      normalMembers_eq_iff rest, and_assoc]
    rfl

end

theorem itemsFit_iff {depth : Nat} {items : List Json} :
    ItemsFit depth items ↔ ∀ item ∈ items, item.Fits depth := by
  induction items with
  | nil => simp [ItemsFit]
  | cons item items ih => simp [ItemsFit, ih]

theorem membersFit_iff {depth : Nat} {members : List (PyStr × Json)} :
    MembersFit depth members ↔ ∀ member ∈ members, member.2.Fits depth := by
  induction members with
  | nil => simp [MembersFit]
  | cons member members ih => simp [MembersFit, ih]

theorem fits_of_scanAtom {rt : Runtime} {depth : Nat} {s rest : PyStr} {v : Json}
    (h : scanAtom rt s = some (v, rest)) : v.Fits depth := by
  rcases atom_cases h with rfl | ⟨b, rfl⟩ | ⟨x, rfl⟩ | ⟨n, integer, r, rfl, hscan, hn⟩
  · exact trivial
  · exact trivial
  · exact trivial
  · exact intFits_of_intOf hscan hn

theorem reading_fits (rt : Runtime) :
    Reading rt (fun _ => True) (fun _ => True) fun depth v => v.Fits depth where
  text _ _ _ _ _ := trivial
  str _ _ _ := trivial
  obj _ _ hdepth hpairs :=
    ⟨hdepth, membersFit_iff.2 fun pair hpair => (hpairs pair (Table.mem_of_mem_ofRows hpair)).2⟩
  arr _ _ hdepth hvalues := ⟨hdepth, itemsFit_iff.2 hvalues⟩
  atom _ _ _ _ h := fits_of_scanAtom h

/-- What is read keeps to the limits of `json.loads`. -/
theorem fits_of_loads {rt : Runtime} {s : PyStr} {v : Json} (h : loads rt s = some v) :
    v.Fits rt.readDepth :=
  (reading_fits rt).of_loads (fun _ _ => trivial) h

/-- A value is written and read back as it is if and only if both calls can go through it, no
text of it has a surrogate pair and no object of it has a key twice. -/
theorem loads_dumps_iff {rt : Runtime} {separators : Separators} (hsep : Blank separators)
    {v : Json} (h : Writable rt v) :
    (∃ text, json_dumps rt separators v = .ok text ∧ loads rt text = some v) ↔
      v.Fits rt.writeDepth ∧ v.Fits rt.readDepth ∧ Canonical v := by
  simp only [json_dumps_eq_ok, ← normal_eq_iff]
  constructor
  · rintro ⟨text, ⟨hwrite, rfl⟩, hloads⟩
    have hread := fits_of_loads hloads
    rw [loads_dumps hsep h hread] at hloads
    exact ⟨hwrite, hread, Option.some.inj hloads⟩
  · rintro ⟨hwrite, hread, hnormal⟩
    exact ⟨_, ⟨hwrite, rfl⟩, by rw [loads_dumps hsep h hread, hnormal]⟩

/-- A text outside ASCII is read back, and two surrogates that make a pair are not. -/
theorem loads_dumps_iff_texts :
    (∃ text, json_dumps plainRuntime spaced (.arr [.int (-3), .str [0xE9, 0x1F600]]) = .ok text ∧
        loads plainRuntime text = some (.arr [.int (-3), .str [0xE9, 0x1F600]])) ∧
      ¬ ∃ text, json_dumps plainRuntime spaced (.str [0xD83D, 0xDE00]) = .ok text ∧
        loads plainRuntime text = some (.str [0xD83D, 0xDE00]) := by
  have hplain : Writable plainRuntime (.arr [.int (-3), .str [0xE9, 0x1F600]]) := by
    simp [Writable, Holds, ItemsHold, CodePoint]
  have hpair : Writable plainRuntime (.str [0xD83D, 0xDE00]) := by
    simp [Writable, Holds, CodePoint]
  have hdigits : IntFits (-3) := (Nat.length_repr_le_iff (by decide)).2
    (lt_of_lt_of_le (by decide : 3 < 10 ^ 1) (Nat.pow_le_pow_right (by decide) (by decide)))
  constructor
  · refine (loads_dumps_iff blank_spaced hplain).2
      ⟨⟨by decide, hdigits, trivial, trivial⟩, ⟨by decide, hdigits, trivial, trivial⟩,
        trivial, ?_, trivial⟩
    exact joined_eq_iff.1 (by decide)
  · intro h
    exact ((loads_dumps_iff blank_spaced hpair).1 h).2.2 ⟨[], 0xD83D, 0xDE00, [], rfl, rfl, rfl⟩

end JsonText

end OpendssGateway
