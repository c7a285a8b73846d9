import OpendssGateway.Gateway.Json
import OpendssGateway.Library.Table

/-!
# Reading JSON

`json.loads` of a text: the scanner of `json.decoder`, with the rest of the
text as its position.  `none` is an exception: `JSONDecodeError`, the
`ValueError` of an integer with too many digits, or `RecursionError`.

The escapes of a string are read first and surrogates are joined after
that, which the decoder does in one pass.  The depth of `value` is what the
interpreter may still nest.  The fuel bounds the steps, and
`loads_eq_some_iff` says that it never decides what is read.
-/

namespace OpendssGateway

namespace JsonText

/-! ## Strings -/

def hexValue (c : Nat) : Option Nat :=
  if 48 ≤ c ∧ c ≤ 57 then some (c - 48)
  else if 97 ≤ c ∧ c ≤ 102 then some (c - 87)
  else if 65 ≤ c ∧ c ≤ 70 then some (c - 55)
  else none

/-- `_decode_uXXXX` -/
def decode_uXXXX (a b c d : Nat) : Option Nat := do
  let a ← hexValue a
  let b ← hexValue b
  let c ← hexValue c
  let d ← hexValue d
  some (4096 * a + 256 * b + 16 * c + d)

/-- `BACKSLASH` -/
def BACKSLASH (c : Nat) : Option Nat :=
  if c = 34 ∨ c = 92 ∨ c = 47 then some c
  else if c = 98 then some 8
  else if c = 102 then some 12
  else if c = 110 then some 10
  else if c = 114 then some 13
  else if c = 116 then some 9
  else none

/-- What stands inside a string: a character, or a `\u` escape. -/
inductive CodeUnit
  | raw (c : Nat)
  | escaped (unit : Nat)

/-- A string up to its closing quote, and what is behind it. -/
def scanUnits : PyStr → Option (List CodeUnit × PyStr)
  | [] => none
  | 34 :: rest => some ([], rest)
  | 92 :: 117 :: a :: b :: c :: d :: rest => do
    let unit ← decode_uXXXX a b c d
    let (units, rest) ← scanUnits rest
    some (.escaped unit :: units, rest)
  | 92 :: c :: rest => do
    let c ← BACKSLASH c
    let (units, rest) ← scanUnits rest
    some (.raw c :: units, rest)
  | c :: rest =>
    if c < 32 ∨ c = 92 then none
    else do
      let (units, rest) ← scanUnits rest
      some (.raw c :: units, rest)

def isHigh (unit : Nat) : Bool :=
  0xD800 ≤ unit && unit ≤ 0xDBFF

def isLow (unit : Nat) : Bool :=
  0xDC00 ≤ unit && unit ≤ 0xDFFF

def combine (high low : Nat) : Nat :=
  0x10000 + (high - 0xD800) * 1024 + (low - 0xDC00)

/-- A high surrogate is joined with a low one that is escaped right behind it. -/
def join : List CodeUnit → PyStr
  | [] => []
  | .raw c :: units => c :: join units
  | .escaped high :: .escaped low :: units =>
    if isHigh high && isLow low then combine high low :: join units
    else high :: join (.escaped low :: units)
  | .escaped unit :: units => unit :: join units

/-- `scanstring`, behind the opening quote. -/
def scanstring (s : PyStr) : Option (PyStr × PyStr) := do
  let (units, rest) ← scanUnits s
  some (join units, rest)

/-! ## Numbers and constants -/

def isDigit (c : Nat) : Bool :=
  48 ≤ c && c ≤ 57

/-- `0|[1-9]\d*` -/
def scanDigits : PyStr → Option (PyStr × PyStr)
  | [] => none
  | c :: rest =>
    if c = 48 then some ([48], rest)
    else if isDigit c then some (c :: rest.takeWhile isDigit, rest.dropWhile isDigit)
    else none

/-- `-?(?:0|[1-9]\d*)` -/
def scanInteger (s : PyStr) : Option (PyStr × PyStr) :=
  if s.head? = some 45 then do
    let (digits, rest) ← scanDigits s.tail
    some (45 :: digits, rest)
  else scanDigits s

/-- `(\.\d+)?` -/
def scanFraction (s : PyStr) : PyStr × PyStr :=
  if s.head? = some 46 ∧ s.tail.takeWhile isDigit ≠ [] then
    (46 :: s.tail.takeWhile isDigit, s.tail.dropWhile isDigit)
  else ([], s)

/-- `[-+]?` -/
def scanSign (s : PyStr) : PyStr × PyStr :=
  if s.head? = some 43 ∨ s.head? = some 45 then (s.take 1, s.tail) else ([], s)

/-- `([eE][-+]?\d+)?` -/
def scanExponent (s : PyStr) : PyStr × PyStr :=
  let (sign, digits) := scanSign s.tail
  if (s.head? = some 101 ∨ s.head? = some 69) ∧ digits.takeWhile isDigit ≠ [] then
    (s.take 1 ++ sign ++ digits.takeWhile isDigit, digits.dropWhile isDigit)
  else ([], s)

/-- `int` of digits. -/
def magnitude (digits : PyStr) : Nat :=
  digits.foldl (fun n c => 10 * n + (c - 48)) 0

/-- `int` of an integer that has been scanned.  `none` is the `ValueError` for its length. -/
def intOf (text : PyStr) : Option Int :=
  let digits := if text.head? = some 45 then text.tail else text
  if maxStrDigits < digits.length then none
  else some (if text.head? = some 45 then -(magnitude digits) else magnitude digits)

/-- `match_number`, and what it becomes. -/
def scanNumber (rt : Runtime) (s : PyStr) : Option (Json × PyStr) := do
  let (integer, rest) ← scanInteger s
  let (fraction, rest) := scanFraction rest
  let (exponent, rest) := scanExponent rest
  if fraction = [] ∧ exponent = [] then
    let n ← intOf integer
    some (.int n, rest)
  else
    let x ← rt.parseFloat (integer ++ fraction ++ exponent)
    some (.float x, rest)

def scanLiteral (text : PyStr) (v : Json) (s : PyStr) : Option (Json × PyStr) :=
  if text.isPrefixOf s then some (v, s.drop text.length) else none

/-- A value that is no string, no array and no object. -/
def scanAtom (rt : Runtime) (s : PyStr) : Option (Json × PyStr) :=
  (scanLiteral (py "null") .null s).or <|
  (scanLiteral (py "true") (.bool true) s).or <|
  (scanLiteral (py "false") (.bool false) s).or <|
  (scanNumber rt s).or <|
  (scanLiteral (py "NaN") (.float (0 / 0)) s).or <|
  (scanLiteral (py "Infinity") (.float (1 / 0)) s).or <|
  scanLiteral (py "-Infinity") (.float (-1 / 0)) s

/-! ## Values -/

/-- `[ \t\n\r]` -/
def isBlank (c : Nat) : Bool :=
  c == 32 || c == 9 || c == 10 || c == 13

def skipBlanks (s : PyStr) : PyStr :=
  s.dropWhile isBlank

/-- `dict(pairs)` -/
def dict (pairs : List (PyStr × Json)) : List (PyStr × Json) :=
  (Table.ofRows pairs : Table (Prod.fst : PyStr × Json → PyStr)).rows

mutual

/-- `scan_once` -/
def value (rt : Runtime) : Nat → Nat → PyStr → Option (Json × PyStr)
  | _, 0, _ => none
  | _, _ + 1, [] => none
  | depth, fuel + 1, c :: rest =>
    if c = 34 then do
      let (s, rest) ← scanstring rest
      some (.str s, rest)
    else if c = 123 then
      if depth = 0 then none
      else if (skipBlanks rest).head? = some 125 then some (.obj [], (skipBlanks rest).tail)
      else do
        let (pairs, rest) ← members rt (depth - 1) fuel (skipBlanks rest)
        some (.obj (dict pairs), rest)
    else if c = 91 then
      if depth = 0 then none
      else if (skipBlanks rest).head? = some 93 then some (.arr [], (skipBlanks rest).tail)
      else do
        let (values, rest) ← items rt (depth - 1) fuel (skipBlanks rest)
        some (.arr values, rest)
    else scanAtom rt (c :: rest)

/-- The loop of `JSONArray`. -/
def items (rt : Runtime) : Nat → Nat → PyStr → Option (List Json × PyStr)
  | _, 0, _ => none
  | depth, fuel + 1, s => do
    let (v, rest) ← value rt depth fuel s
    if (skipBlanks rest).head? = some 93 then some ([v], (skipBlanks rest).tail)
    else if (skipBlanks rest).head? = some 44 then
      let (values, rest) ← items rt depth fuel (skipBlanks (skipBlanks rest).tail)
      some (v :: values, rest)
    else none

/-- The loop of `JSONObject`. -/
def members (rt : Runtime) : Nat → Nat → PyStr → Option (List (PyStr × Json) × PyStr)
  | _, 0, _ => none
  | depth, fuel + 1, s => do
    if s.head? ≠ some 34 then none
    let (key, rest) ← scanstring s.tail
    if (skipBlanks rest).head? ≠ some 58 then none
    let (v, rest) ← value rt depth fuel (skipBlanks (skipBlanks rest).tail)
    if (skipBlanks rest).head? = some 125 then some ([(key, v)], (skipBlanks rest).tail)
    else if (skipBlanks rest).head? = some 44 then
      let (pairs, rest) ← members rt depth fuel (skipBlanks (skipBlanks rest).tail)
      some ((key, v) :: pairs, rest)
    else none

end

/-- A whole text, with a bound on the steps of a value. -/
def document (rt : Runtime) (fuel : Nat) (s : PyStr) : Option Json := do
  if s.head? = some 0xFEFF then none
  let (v, rest) ← value rt rt.readDepth fuel (skipBlanks s)
  if skipBlanks rest = [] then some v else none

/-- `json.loads` -/
def loads (rt : Runtime) (s : PyStr) : Option Json :=
  document rt s.length s

/-! ## What is left -/

/-- The text is what is left, behind at least one character. -/
def Consumes (s rest : PyStr) : Prop :=
  ∃ c t, s = c :: t ∧ rest <:+ t

theorem Consumes.length_lt {s rest : PyStr} (h : Consumes s rest) : rest.length < s.length := by
  obtain ⟨c, t, rfl, ht⟩ := h
  exact Nat.lt_succ_of_le ht.length_le

theorem Consumes.suffix {s rest : PyStr} (h : Consumes s rest) : rest <:+ s := by
  obtain ⟨c, t, rfl, ht⟩ := h
  exact ht.trans (List.suffix_cons c t)

theorem Consumes.trans {s r rest : PyStr} (h : Consumes s r) (hrest : rest <:+ r) :
    Consumes s rest := by
  obtain ⟨c, t, rfl, ht⟩ := h
  exact ⟨c, t, rfl, hrest.trans ht⟩

theorem Consumes.of_suffix {s s' rest : PyStr} (h : Consumes s rest) (hs : s <:+ s') :
    Consumes s' rest := by
  obtain ⟨before, rfl⟩ := hs
  cases before with
  | nil => exact h
  | cons c before => exact ⟨c, before ++ s, rfl, h.suffix.trans (List.suffix_append before s)⟩

theorem consumes_cons {c : Nat} {t rest : PyStr} (h : rest <:+ t) : Consumes (c :: t) rest :=
  ⟨c, t, rfl, h⟩

theorem consumes_tail {s : PyStr} {c : Nat} (h : s.head? = some c) : Consumes s s.tail := by
  cases s with
  | nil => cases h
  | cons c s => exact consumes_cons List.suffix_rfl

theorem skipBlanks_suffix (s : PyStr) : skipBlanks s <:+ s :=
  List.dropWhile_suffix isBlank

theorem consumes_scanUnits {s rest : PyStr} {units : List CodeUnit}
    (h : scanUnits s = some (units, rest)) : Consumes s rest := by
  induction s using scanUnits.induct generalizing units with
  | case1 => cases h
  | case2 r =>
    cases h
    exact consumes_cons List.suffix_rfl
  | case3 a b c d r ih =>
    simp only [scanUnits, Option.bind_eq_bind, Option.bind_eq_some_iff] at h
    obtain ⟨unit, -, ⟨units', r'⟩, hunits, hpair⟩ := h
    cases hpair
    exact (ih hunits).of_suffix ⟨[92, 117, a, b, c, d], rfl⟩
  | case4 c r _ ih =>
    simp only [scanUnits, Option.bind_eq_bind, Option.bind_eq_some_iff] at h
    obtain ⟨d, -, ⟨units', r'⟩, hunits, hpair⟩ := h
    cases hpair
    exact (ih hunits).of_suffix ⟨[92, c], rfl⟩
  | case5 c r hquote hu hback hbad =>
    simp [scanUnits, hbad] at h
  | case6 c r hquote hu hback hgood ih =>
    simp only [scanUnits, if_neg hgood, Option.bind_eq_bind, Option.bind_eq_some_iff] at h
    obtain ⟨⟨units', r'⟩, hunits, hpair⟩ := h
    cases hpair
    exact (ih hunits).of_suffix (List.suffix_cons c r)

theorem consumes_scanstring {s text rest : PyStr} (h : scanstring s = some (text, rest)) :
    Consumes s rest := by
  simp only [scanstring, Option.bind_eq_bind, Option.bind_eq_some_iff] at h
  obtain ⟨⟨units, r⟩, hunits, hpair⟩ := h
  cases hpair
  exact consumes_scanUnits hunits

theorem consumes_scanDigits {s digits rest : PyStr} (h : scanDigits s = some (digits, rest)) :
    Consumes s rest := by
  cases s with
  | nil => cases h
  | cons c s =>
    simp only [scanDigits] at h
    split at h
    · cases h
      exact consumes_cons List.suffix_rfl
    · split at h
      · cases h
        exact consumes_cons (List.dropWhile_suffix isDigit)
      · cases h

theorem consumes_scanInteger {s integer rest : PyStr}
    (h : scanInteger s = some (integer, rest)) : Consumes s rest := by
  unfold scanInteger at h
  split at h
  · simp only [Option.bind_eq_bind, Option.bind_eq_some_iff] at h
    obtain ⟨⟨digits, r⟩, hscan, hpair⟩ := h
    cases hpair
    exact (consumes_scanDigits hscan).of_suffix (List.tail_suffix s)
  · exact consumes_scanDigits h

theorem scanFraction_suffix (s : PyStr) : (scanFraction s).2 <:+ s := by
  unfold scanFraction
  split
  · exact (List.dropWhile_suffix isDigit).trans (List.tail_suffix s)
  · exact List.suffix_rfl

theorem scanExponent_suffix (s : PyStr) : (scanExponent s).2 <:+ s := by
  have hsign : (scanSign s.tail).2 <:+ s := by
    unfold scanSign
    split
    · exact (List.tail_suffix s.tail).trans (List.tail_suffix s)
    · exact List.tail_suffix s
  simp only [scanExponent]
  split
  · exact (List.dropWhile_suffix isDigit).trans hsign
  · exact List.suffix_rfl

theorem consumes_scanNumber {rt : Runtime} {s rest : PyStr} {v : Json}
    (h : scanNumber rt s = some (v, rest)) : Consumes s rest := by
  simp only [scanNumber, Option.bind_eq_bind, Option.bind_eq_some_iff] at h
  obtain ⟨⟨integer, r⟩, hinteger, h⟩ := h
  have hrest : rest = (scanExponent (scanFraction r).2).2 := by
    split at h
    · obtain ⟨n, -, hn⟩ := Option.bind_eq_some_iff.1 h
      cases hn
      rfl
    · obtain ⟨x, -, hx⟩ := Option.bind_eq_some_iff.1 h
      cases hx
      rfl
  rw [hrest]
  exact (consumes_scanInteger hinteger).trans
    ((scanExponent_suffix _).trans (scanFraction_suffix r))

theorem scanLiteral_eq_some {text s rest : PyStr} {v w : Json}
    (h : scanLiteral text v s = some (w, rest)) : s = text ++ rest ∧ w = v := by
  unfold scanLiteral at h
  split at h
  · rename_i hstart
    obtain ⟨t, rfl⟩ := List.isPrefixOf_iff_prefix.1 hstart
    cases h
    exact ⟨by rw [List.drop_left], rfl⟩
  · cases h

/-- The constants and their values. -/
def constants : List (PyStr × Json) :=
  [(py "null", .null), (py "true", .bool true), (py "false", .bool false),
    (py "NaN", .float (0 / 0)), (py "Infinity", .float (1 / 0)), (py "-Infinity", .float (-1 / 0))]

/-- A constant is read, or a number. -/
theorem scanAtom_cases {rt : Runtime} {s rest : PyStr} {v : Json}
    (h : scanAtom rt s = some (v, rest)) :
    (∃ text, (text, v) ∈ constants ∧ s = text ++ rest) ∨ scanNumber rt s = some (v, rest) := by
  have hconstant : ∀ {text : PyStr} {w : Json}, (text, w) ∈ constants →
      scanLiteral text w s = some (v, rest) → ∃ text, (text, v) ∈ constants ∧ s = text ++ rest := by
    intro text w hmem h
    obtain ⟨hs, rfl⟩ := scanLiteral_eq_some h
    exact ⟨text, hmem, hs⟩
  simp only [scanAtom, Option.or_eq_some_iff] at h
  rcases h with h | ⟨-, h | ⟨-, h | ⟨-, h | ⟨-, h | ⟨-, h | ⟨-, h⟩⟩⟩⟩⟩⟩
  · exact Or.inl (hconstant (by simp [constants]) h)
  · exact Or.inl (hconstant (by simp [constants]) h)
  · exact Or.inl (hconstant (by simp [constants]) h)
  · exact Or.inr h
  · exact Or.inl (hconstant (by simp [constants]) h)
  · exact Or.inl (hconstant (by simp [constants]) h)
  · exact Or.inl (hconstant (by simp [constants]) h)

theorem consumes_scanAtom {rt : Runtime} {s rest : PyStr} {v : Json}
    (h : scanAtom rt s = some (v, rest)) : Consumes s rest := by
  rcases scanAtom_cases h with ⟨text, htext, rfl⟩ | h
  · have hne : ∀ text ∈ constants.map Prod.fst, text ≠ [] := by decide
    obtain ⟨c, t, rfl⟩ := List.exists_cons_of_ne_nil (hne text (List.mem_map_of_mem htext))
    exact consumes_cons (List.suffix_append t rest)
  · exact consumes_scanNumber h

/-! ## What is read -/

/-- What is no string, no array and no object. -/
theorem atom_cases {rt : Runtime} {s rest : PyStr} {v : Json}
    (h : scanAtom rt s = some (v, rest)) :
    v = .null ∨ (∃ b, v = .bool b) ∨ (∃ x, v = .float x) ∨
      ∃ n integer r, v = .int n ∧ scanInteger s = some (integer, r) ∧ intOf integer = some n := by
  rcases scanAtom_cases h with ⟨text, htext, -⟩ | h
  · simp only [constants, List.mem_cons, Prod.mk.injEq, List.not_mem_nil, or_false] at htext
    rcases htext with ⟨-, rfl⟩ | ⟨-, rfl⟩ | ⟨-, rfl⟩ | ⟨-, rfl⟩ | ⟨-, rfl⟩ | ⟨-, rfl⟩
    all_goals simp
  · simp only [scanNumber, Option.bind_eq_bind, Option.bind_eq_some_iff] at h
    obtain ⟨⟨integer, r⟩, hscan, h⟩ := h
    split at h
    · obtain ⟨n, hn, hpair⟩ := Option.bind_eq_some_iff.1 h
      cases hpair
      exact Or.inr (Or.inr (Or.inr ⟨n, integer, r, rfl, hscan, hn⟩))
    · obtain ⟨x, -, hx⟩ := Option.bind_eq_some_iff.1 h
      cases hx
      exact Or.inr (Or.inr (Or.inl ⟨x, rfl⟩))

/-- What is read and then wrapped. -/
theorem bind_pair_eq_some {α β : Type} {x : Option (α × PyStr)} {f : α → β} {b : β} {rest : PyStr} :
    (x.bind fun scanned => some (f scanned.1, scanned.2)) = some (b, rest) ↔
      ∃ a, x = some (a, rest) ∧ b = f a := by
  cases x with
  | none => simp
  | some scanned =>
    obtain ⟨a, r⟩ := scanned
    simp only [Option.bind_some, Option.some.injEq, Prod.mk.injEq]
    constructor
    · rintro ⟨rfl, rfl⟩
      exact ⟨a, ⟨rfl, rfl⟩, rfl⟩
    · rintro ⟨a', ⟨rfl, rfl⟩, rfl⟩
      exact ⟨rfl, rfl⟩

section Cases

variable {rt : Runtime} {depth n : Nat} {s rest : PyStr}

/-- What `value` reads: a string, an object, an array, or something that holds no other
value. -/
theorem value_eq_some {c : Nat} {v : Json} :
    value rt depth (n + 1) (c :: s) = some (v, rest) ↔
      c = 34 ∧ (∃ text, scanstring s = some (text, rest) ∧ v = .str text) ∨
      (c = 123 ∧ depth ≠ 0) ∧
        ((skipBlanks s).head? = some 125 ∧ v = .obj [] ∧ rest = (skipBlanks s).tail ∨
          (skipBlanks s).head? ≠ some 125 ∧ ∃ pairs,
            members rt (depth - 1) n (skipBlanks s) = some (pairs, rest) ∧
              v = .obj (dict pairs)) ∨
      (c = 91 ∧ depth ≠ 0) ∧
        ((skipBlanks s).head? = some 93 ∧ v = .arr [] ∧ rest = (skipBlanks s).tail ∨
          (skipBlanks s).head? ≠ some 93 ∧ ∃ values,
            items rt (depth - 1) n (skipBlanks s) = some (values, rest) ∧ v = .arr values) ∨
      (c ≠ 34 ∧ c ≠ 123 ∧ c ≠ 91) ∧ scanAtom rt (c :: s) = some (v, rest) := by
  rw [value]
  by_cases hquote : c = 34
  · subst hquote
    simp [bind_pair_eq_some]
  by_cases hobj : c = 123
  · subst hobj
    by_cases hdepth : depth = 0
    · simp [hdepth]
    by_cases hclose : (skipBlanks s).head? = some 125
    · simp [hdepth, hclose, @eq_comm _ v, @eq_comm _ rest]
    · simpa [hdepth, hclose] using bind_pair_eq_some (f := fun pairs => Json.obj (dict pairs))
  by_cases harr : c = 91
  · subst harr
    by_cases hdepth : depth = 0
    · simp [hdepth]
    by_cases hclose : (skipBlanks s).head? = some 93
    · simp [hdepth, hclose, @eq_comm _ v, @eq_comm _ rest]
    · simp [hdepth, hclose, bind_pair_eq_some]
  simp [hquote, hobj, harr]

/-- What the loop of an array reads. -/
theorem items_eq_some {values : List Json} :
    items rt depth (n + 1) s = some (values, rest) ↔
      ∃ v r, value rt depth n s = some (v, r) ∧
        ((skipBlanks r).head? = some 93 ∧ values = [v] ∧ rest = (skipBlanks r).tail ∨
          (skipBlanks r).head? = some 44 ∧ ∃ values',
            items rt depth n (skipBlanks (skipBlanks r).tail) = some (values', rest) ∧
              values = v :: values') := by
  rw [items]
  simp only [Option.bind_eq_bind, Option.bind_eq_some_iff, Prod.exists]
  refine exists_congr fun v => exists_congr fun r => and_congr_right fun _ => ?_
  by_cases hclose : (skipBlanks r).head? = some 93
  · simp [hclose, @eq_comm _ values, @eq_comm _ rest]
  by_cases hcomma : (skipBlanks r).head? = some 44
  · simp [hcomma, bind_pair_eq_some]
  · simp [hclose, hcomma]

/-- What the loop of an object reads. -/
theorem members_eq_some {pairs : List (PyStr × Json)} :
    members rt depth (n + 1) s = some (pairs, rest) ↔
      s.head? = some 34 ∧ ∃ key r, scanstring s.tail = some (key, r) ∧
        (skipBlanks r).head? = some 58 ∧
        ∃ v r', value rt depth n (skipBlanks (skipBlanks r).tail) = some (v, r') ∧
        ((skipBlanks r').head? = some 125 ∧ pairs = [(key, v)] ∧ rest = (skipBlanks r').tail ∨
          (skipBlanks r').head? = some 44 ∧ ∃ pairs',
            members rt depth n (skipBlanks (skipBlanks r').tail) = some (pairs', rest) ∧
              pairs = (key, v) :: pairs') := by
  rw [members]
  by_cases hquote : s.head? = some 34
  swap
  · simp [hquote]
  simp only [hquote, ne_eq, not_true_eq_false, if_false, true_and,
    Option.bind_eq_bind, Option.bind_eq_some_iff, Prod.exists]
  refine exists_congr fun key => exists_congr fun r => and_congr_right fun _ => ?_
  by_cases hcolon : (skipBlanks r).head? = some 58
  swap
  · simp [hcolon]
  simp only [hcolon, not_true_eq_false, if_false, true_and, Option.bind_eq_some_iff,
    Prod.exists]
  refine exists_congr fun v => exists_congr fun r' => and_congr_right fun _ => ?_
  by_cases hclose : (skipBlanks r').head? = some 125
  · simp [hclose, @eq_comm _ pairs, @eq_comm _ rest]
  by_cases hcomma : (skipBlanks r').head? = some 44
  · simp [hcomma, bind_pair_eq_some]
  · simp [hclose, hcomma]

end Cases

/-! ## The fuel -/

/-- What is read with some fuel is consumed, and is read with any fuel that is at least the
length of what is read. -/
def Steady {α : Type} (scan : Nat → PyStr → Option (α × PyStr)) (n : Nat) : Prop :=
  ∀ s a rest, scan n s = some (a, rest) →
    Consumes s rest ∧ ∀ m, s.length ≤ rest.length + m → scan m s = some (a, rest)

/-- It is enough to look at fuel that is positive. -/
theorem steady_of_succ {α : Type} {scan : Nat → PyStr → Option (α × PyStr)} {s rest : PyStr}
    {a : α} (hconsumes : Consumes s rest)
    (h : ∀ m, s.length ≤ rest.length + (m + 1) → scan (m + 1) s = some (a, rest)) :
    Consumes s rest ∧ ∀ m, s.length ≤ rest.length + m → scan m s = some (a, rest) := by
  have hlt := hconsumes.length_lt
  refine ⟨hconsumes, fun m hm => ?_⟩
  obtain ⟨m, rfl⟩ : ∃ k, m = k + 1 := ⟨m - 1, by omega⟩
  exact h m hm

theorem value_steady {rt : Runtime} {depth n : Nat} (hitems : Steady (items rt (depth - 1)) n)
    (hmembers : Steady (members rt (depth - 1)) n) : Steady (value rt depth) (n + 1) := by
  intro s v rest h
  cases s with
  | nil => cases h
  | cons c s =>
    have hblanks := (skipBlanks_suffix s).length_le
    have htail := (List.tail_suffix (skipBlanks s)).trans (skipBlanks_suffix s)
    rcases value_eq_some.1 h with ⟨hc, text, htext, hv⟩ |
      ⟨hc, ⟨hclose, hv, hrest⟩ | ⟨hclose, pairs, hpairs, hv⟩⟩ |
      ⟨hc, ⟨hclose, hv, hrest⟩ | ⟨hclose, values, hvalues, hv⟩⟩ | ⟨hc, hatom⟩
    · refine steady_of_succ (consumes_cons (consumes_scanstring htext).suffix) fun m _ => ?_
      exact value_eq_some.2 (Or.inl ⟨hc, text, htext, hv⟩)
    · rw [hrest]
      refine steady_of_succ (consumes_cons htail) fun m _ => ?_
      exact value_eq_some.2 (Or.inr (Or.inl ⟨hc, Or.inl ⟨hclose, hv, rfl⟩⟩))
    · obtain ⟨hconsumes, hmore⟩ := hmembers _ _ _ hpairs
      refine steady_of_succ (consumes_cons (hconsumes.suffix.trans (skipBlanks_suffix s)))
        fun m hm => ?_
      rw [List.length_cons] at hm
      exact value_eq_some.2
        (Or.inr (Or.inl ⟨hc, Or.inr ⟨hclose, pairs, hmore m (by omega), hv⟩⟩))
    · rw [hrest]
      refine steady_of_succ (consumes_cons htail) fun m _ => ?_
      exact value_eq_some.2 (Or.inr (Or.inr (Or.inl ⟨hc, Or.inl ⟨hclose, hv, rfl⟩⟩)))
    · obtain ⟨hconsumes, hmore⟩ := hitems _ _ _ hvalues
      refine steady_of_succ (consumes_cons (hconsumes.suffix.trans (skipBlanks_suffix s)))
        fun m hm => ?_
      rw [List.length_cons] at hm
      exact value_eq_some.2
        (Or.inr (Or.inr (Or.inl ⟨hc, Or.inr ⟨hclose, values, hmore m (by omega), hv⟩⟩)))
    · refine steady_of_succ (consumes_scanAtom hatom) fun m _ => ?_
      exact value_eq_some.2 (Or.inr (Or.inr (Or.inr ⟨hc, hatom⟩)))

/-- What is left of a text behind a character that stands behind blanks. -/
theorem consumes_skipBlanks_tail {r : PyStr} {c : Nat} (h : (skipBlanks r).head? = some c) :
    Consumes r (skipBlanks r).tail :=
  (consumes_tail h).of_suffix (skipBlanks_suffix r)

theorem items_steady {rt : Runtime} {depth n : Nat} (hvalue : Steady (value rt depth) n)
    (hitems : Steady (items rt depth) n) : Steady (items rt depth) (n + 1) := by
  intro s values rest h
  obtain ⟨v, r, hv, h⟩ := items_eq_some.1 h
  obtain ⟨hconsumes, hmore⟩ := hvalue _ _ _ hv
  rcases h with ⟨hclose, hvalues, rfl⟩ | ⟨hcomma, values', hvalues', hvalues⟩
  · have htail := consumes_skipBlanks_tail hclose
    have hlt := htail.length_lt
    exact steady_of_succ (hconsumes.trans htail.suffix) fun m hm =>
      items_eq_some.2 ⟨v, r, hmore m (by omega), Or.inl ⟨hclose, hvalues, rfl⟩⟩
  · have htail := consumes_skipBlanks_tail hcomma
    obtain ⟨hconsumes', hmore'⟩ := hitems _ _ _ hvalues'
    have hrest : Consumes r rest :=
      htail.trans (hconsumes'.suffix.trans (skipBlanks_suffix _))
    have hlt := hrest.length_lt
    have hlt' := htail.length_lt
    have hlt'' := hconsumes.length_lt
    have hblanks := (skipBlanks_suffix (skipBlanks r).tail).length_le
    exact steady_of_succ (hconsumes.trans hrest.suffix) fun m hm =>
      items_eq_some.2 ⟨v, r, hmore m (by omega),
        Or.inr ⟨hcomma, values', hmore' m (by omega), hvalues⟩⟩

theorem members_steady {rt : Runtime} {depth n : Nat} (hvalue : Steady (value rt depth) n)
    (hmembers : Steady (members rt depth) n) : Steady (members rt depth) (n + 1) := by
  intro s pairs rest h
  obtain ⟨hquote, key, r, hkey, hcolon, v, r', hv, h⟩ := members_eq_some.1 h
  obtain ⟨hconsumes, hmore⟩ := hvalue _ _ _ hv
  -- the key and the colon
  have hstart : Consumes s (skipBlanks (skipBlanks r).tail) :=
    (consumes_tail hquote).trans ((skipBlanks_suffix _).trans <|
      (consumes_skipBlanks_tail hcolon).suffix.trans (consumes_scanstring hkey).suffix)
  have hlt := hstart.length_lt
  rcases h with ⟨hclose, hpairs, rfl⟩ | ⟨hcomma, pairs', hpairs', hpairs⟩
  · have htail := consumes_skipBlanks_tail hclose
    have hlt' := htail.length_lt
    exact steady_of_succ (hstart.trans (htail.suffix.trans hconsumes.suffix)) fun m hm =>
      members_eq_some.2 ⟨hquote, key, r, hkey, hcolon, v, r', hmore m (by omega),
        Or.inl ⟨hclose, hpairs, rfl⟩⟩
  · have htail := consumes_skipBlanks_tail hcomma
    obtain ⟨hconsumes', hmore'⟩ := hmembers _ _ _ hpairs'
    have hrest : Consumes r' rest :=
      htail.trans (hconsumes'.suffix.trans (skipBlanks_suffix _))
    have hlt' := hrest.length_lt
    have hlt'' := htail.length_lt
    have hlt3 := hconsumes.length_lt
    have hblanks := (skipBlanks_suffix (skipBlanks r').tail).length_le
    exact steady_of_succ (hstart.trans (hrest.suffix.trans hconsumes.suffix)) fun m hm =>
      members_eq_some.2 ⟨hquote, key, r, hkey, hcolon, v, r', hmore m (by omega),
        Or.inr ⟨hcomma, pairs', hmore' m (by omega), hpairs⟩⟩

theorem steady (rt : Runtime) (depth n : Nat) :
    Steady (value rt depth) n ∧ Steady (items rt depth) n ∧ Steady (members rt depth) n := by
  induction n generalizing depth with
  | zero => exact ⟨nofun, nofun, nofun⟩
  | succ n ih =>
    obtain ⟨hvalue, hitems, hmembers⟩ := ih depth
    exact ⟨value_steady (ih (depth - 1)).2.1 (ih (depth - 1)).2.2, items_steady hvalue hitems,
      members_steady hvalue hmembers⟩

/-- What is read with some fuel is read with the fuel of `loads`. -/
theorem loads_eq_some_iff {rt : Runtime} {s : PyStr} {v : Json} :
    loads rt s = some v ↔ ∃ fuel, document rt fuel s = some v := by
  refine ⟨fun h => ⟨_, h⟩, fun ⟨fuel, h⟩ => ?_⟩
  unfold loads document at *
  by_cases hbom : s.head? = some 0xFEFF
  · simp [hbom] at h
  simp only [hbom, if_false, Option.bind_eq_bind, Option.bind_eq_some_iff] at h ⊢
  obtain ⟨⟨v', rest⟩, hv, h⟩ := h
  have hblanks := (skipBlanks_suffix s).length_le
  exact ⟨⟨v', rest⟩, ((steady rt _ fuel).1 _ _ _ hv).2 _ (by omega), h⟩

/-! ## What every value that is read meets -/

/-- A condition on the values that are read at a depth from such characters.  The texts in
them meet a condition of their own. -/
structure Reading (rt : Runtime) (char : Nat → Prop) (Text : PyStr → Prop)
    (P : Nat → Json → Prop) : Prop where
  text : ∀ s text rest, (∀ c ∈ s, char c) → scanstring s = some (text, rest) → Text text
  str : ∀ depth text, Text text → P depth (.str text)
  obj : ∀ depth pairs, depth ≠ 0 →
    (∀ pair ∈ pairs, Text pair.1 ∧ P (depth - 1) pair.2) → P depth (.obj (dict pairs))
  arr : ∀ depth values, depth ≠ 0 → (∀ v ∈ values, P (depth - 1) v) → P depth (.arr values)
  atom : ∀ depth s v rest, scanAtom rt s = some (v, rest) → P depth v

/-- What is read from such characters, with some fuel, meets a condition. -/
def Yields {α : Type} (scan : Nat → PyStr → Option (α × PyStr)) (char : Nat → Prop)
    (P : α → Prop) (n : Nat) : Prop :=
  ∀ s a rest, (∀ c ∈ s, char c) → scan n s = some (a, rest) → P a

section Reading

variable {rt : Runtime} {char : Nat → Prop} {Text : PyStr → Prop} {P : Nat → Json → Prop}

theorem Reading.yields_value (h : Reading rt char Text P) {depth n : Nat}
    (hitems : Yields (items rt (depth - 1)) char (fun values => ∀ v ∈ values, P (depth - 1) v) n)
    (hmembers : Yields (members rt (depth - 1)) char
      (fun pairs => ∀ pair ∈ pairs, Text pair.1 ∧ P (depth - 1) pair.2) n) :
    Yields (value rt depth) char (P depth) (n + 1) := by
  intro s v rest hs hv
  cases s with
  | nil => cases hv
  | cons c s =>
    have hbehind : ∀ d ∈ skipBlanks s, char d := fun d hd =>
      hs d (List.mem_cons_of_mem c ((skipBlanks_suffix s).subset hd))
    rcases value_eq_some.1 hv with ⟨-, text, htext, rfl⟩ |
      ⟨⟨-, hdepth⟩, ⟨-, rfl, -⟩ | ⟨-, pairs, hpairs, rfl⟩⟩ |
      ⟨⟨-, hdepth⟩, ⟨-, rfl, -⟩ | ⟨-, values, hvalues, rfl⟩⟩ | ⟨-, hatom⟩
    · exact h.str depth text (h.text _ _ _ (fun d hd => hs d (List.mem_cons_of_mem c hd)) htext)
    · exact h.obj depth [] hdepth nofun
    · exact h.obj depth pairs hdepth (hmembers _ _ _ hbehind hpairs)
    · exact h.arr depth [] hdepth nofun
    · exact h.arr depth values hdepth (hitems _ _ _ hbehind hvalues)
    · exact h.atom depth _ _ _ hatom

theorem yields_items {depth n : Nat} (hvalue : Yields (value rt depth) char (P depth) n)
    (hitems : Yields (items rt depth) char (fun values => ∀ v ∈ values, P depth v) n) :
    Yields (items rt depth) char (fun values => ∀ v ∈ values, P depth v) (n + 1) := by
  intro s values rest hs h
  obtain ⟨v, r, hv, h⟩ := items_eq_some.1 h
  have hfirst := hvalue _ _ _ hs hv
  have hleft := (((steady rt depth n).1 _ _ _ hv).1).suffix
  rcases h with ⟨-, rfl, -⟩ | ⟨hcomma, values', hvalues', rfl⟩
  · exact List.forall_mem_singleton.2 hfirst
  · refine List.forall_mem_cons.2 ⟨hfirst, hitems _ _ _ (fun c hc => hs c ?_) hvalues'⟩
    exact hleft.subset ((consumes_skipBlanks_tail hcomma).suffix.subset
      ((skipBlanks_suffix _).subset hc))

theorem Reading.yields_members (h : Reading rt char Text P) {depth n : Nat}
    (hvalue : Yields (value rt depth) char (P depth) n)
    (hmembers : Yields (members rt depth) char
      (fun pairs => ∀ pair ∈ pairs, Text pair.1 ∧ P depth pair.2) n) :
    Yields (members rt depth) char
      (fun pairs => ∀ pair ∈ pairs, Text pair.1 ∧ P depth pair.2) (n + 1) := by
  intro s pairs rest hs hpairs
  obtain ⟨-, text, r, htext, hcolon, v, r', hv, hmore⟩ := members_eq_some.1 hpairs
  have hkey := h.text _ _ _ (fun c hc => hs c ((List.tail_suffix s).subset hc)) htext
  have hstart : skipBlanks (skipBlanks r).tail <:+ s :=
    (skipBlanks_suffix _).trans <| (consumes_skipBlanks_tail hcolon).suffix.trans <|
      (consumes_scanstring htext).suffix.trans (List.tail_suffix s)
  have hfirst := hvalue _ _ _ (fun c hc => hs c (hstart.subset hc)) hv
  have hleft := (((steady rt depth n).1 _ _ _ hv).1).suffix.trans hstart
  rcases hmore with ⟨-, rfl, -⟩ | ⟨hcomma, pairs', hpairs', rfl⟩
  · exact List.forall_mem_singleton.2 ⟨hkey, hfirst⟩
  · refine List.forall_mem_cons.2 ⟨⟨hkey, hfirst⟩, hmembers _ _ _ (fun c hc => hs c ?_) hpairs'⟩
    exact hleft.subset ((consumes_skipBlanks_tail hcomma).suffix.subset
      ((skipBlanks_suffix _).subset hc))

theorem Reading.yields (h : Reading rt char Text P) (depth n : Nat) :
    Yields (value rt depth) char (P depth) n ∧
      Yields (items rt depth) char (fun values => ∀ v ∈ values, P depth v) n ∧
      Yields (members rt depth) char
        (fun pairs => ∀ pair ∈ pairs, Text pair.1 ∧ P depth pair.2) n := by
  induction n generalizing depth with
  | zero => exact ⟨nofun, nofun, nofun⟩
  | succ n ih =>
    obtain ⟨hvalue, hitems, hmembers⟩ := ih depth
    exact ⟨h.yields_value (ih (depth - 1)).2.1 (ih (depth - 1)).2.2, yields_items hvalue hitems,
      h.yields_members hvalue hmembers⟩

/-- What is read from a text of such characters. -/
theorem Reading.of_loads (h : Reading rt char Text P) {s : PyStr} {v : Json}
    (hs : ∀ c ∈ s, char c) (hv : loads rt s = some v) : P rt.readDepth v := by
  unfold loads document at hv
  by_cases hbom : s.head? = some 0xFEFF
  · simp [hbom] at hv
  simp only [hbom, if_false, Option.bind_eq_bind, Option.bind_eq_some_iff] at hv
  obtain ⟨⟨v', rest⟩, hscan, hv⟩ := hv
  split at hv
  · cases hv
    exact (h.yields _ _).1 _ _ _ (fun c hc => hs c ((skipBlanks_suffix s).subset hc)) hscan
  · cases hv

end Reading

end JsonText

end OpendssGateway
