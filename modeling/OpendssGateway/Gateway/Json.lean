import Mathlib.Algebra.Group.Int.Defs
import Mathlib.Data.List.DropRight

/-!
# Values of a payload

What `json.loads` returns, and the operations that the gateway applies to
it.  An operation that a value does not support raises.

`Runtime` holds what Python and SQLite do with numbers, with the text of a
number and with the case of letters, and how deep the interpreter may still
go.  What is proved of it are its laws: the text of a number starts with no
small letter, and lower case is kept by `lower` and has its white space where
the text has it.
-/

namespace OpendssGateway

/-- A Python string, as its code points.  Some may be lone surrogates. -/
abbrev PyStr := List Nat

def py (text : String) : PyStr :=
  text.toList.map Char.toNat

/-- The code of a decimal digit. -/
theorem digit_toNat {n : Nat} : ∀ c ∈ Nat.toDigits 10 n, 48 ≤ c.toNat ∧ c.toNat ≤ 57 := by
  intro c hc
  have hdigit := Nat.isDigit_of_mem_toDigits (by decide) (by decide) hc
  simpa [Char.isDigit, UInt32.le_iff_toNat_le] using hdigit

theorem py_repr (n : Nat) : py n.repr = (Nat.toDigits 10 n).map Char.toNat := by
  unfold py
  rw [Nat.toList_repr]

/-- The digits of a number have its value. -/
theorem foldl_py_repr (n : Nat) : (py n.repr).foldl (fun n c => 10 * n + (c - 48)) 0 = n := by
  rw [py_repr, List.foldl_map]
  calc _ = Nat.ofDigitChars 10 (Nat.toDigits 10 n) 0 := by
        rw [Nat.ofDigitChars_eq_foldl]
        rfl
    _ = n := Nat.ofDigitChars_ten_toDigits

theorem py_repr_digit {n c : Nat} (hc : c ∈ py n.repr) : 48 ≤ c ∧ c ≤ 57 := by
  rw [py_repr] at hc
  obtain ⟨d, hd, rfl⟩ := List.mem_map.1 hc
  exact digit_toNat d hd

theorem py_repr_inj {n m : Nat} (h : py n.repr = py m.repr) : n = m := by
  rw [← foldl_py_repr n, h, foldl_py_repr]

theorem py_toString_negSucc (n : Nat) : py (toString (Int.negSucc n)) = 45 :: py (n + 1).repr := by
  show py ("-" ++ Nat.repr (n + 1)) = _
  unfold py
  rw [String.toList_append]
  rfl

/-- `str.isspace` of one character. -/
def isSpace (c : Nat) : Bool :=
  (9 ≤ c && c ≤ 13) || (28 ≤ c && c ≤ 32) || c == 0x85 || c == 0xA0 || c == 0x1680 ||
    (0x2000 ≤ c && c ≤ 0x200A) || c == 0x2028 || c == 0x2029 || c == 0x202F || c == 0x205F ||
    c == 0x3000

/-- `str.strip`. -/
def strip (s : PyStr) : PyStr :=
  (s.dropWhile isSpace).rdropWhile isSpace

/-- The exceptions that reading a payload and writing to the store raise. -/
inductive PyError
  | attributeError
  | typeError
  | keyError
  | indexError
  | valueError
  | recursionError
  | overflowError
  | unicodeEncodeError
  | programmingError
  | integrityError
deriving DecidableEq

/-- What a sequence of two computations returns, the second one returns. -/
theorem bind_eq_ok {ε α β : Type} {x : Except ε α} {f : α → Except ε β} {b : β} :
    (x >>= f) = .ok b ↔ ∃ a, x = .ok a ∧ f a = .ok b := by
  cases x <;> simp [bind, Except.bind]

/-- What a loop collects, the body returned. -/
theorem of_mem_mapM {ε α β : Type} {f : α → Except ε β} {l : List α} {ys : List β}
    (h : l.mapM f = .ok ys) {y : β} (hy : y ∈ ys) : ∃ a ∈ l, f a = .ok y := by
  induction l generalizing ys with
  | nil =>
    cases h
    cases hy
  | cons a l ih =>
    rw [List.mapM_cons] at h
    obtain ⟨z, hz, h⟩ := bind_eq_ok.1 h
    obtain ⟨zs, hzs, h⟩ := bind_eq_ok.1 h
    cases h
    rcases List.mem_cons.1 hy with rfl | hy
    · exact ⟨a, List.mem_cons_self, hz⟩
    · obtain ⟨b, hb, hfb⟩ := ih hzs hy
      exact ⟨b, List.mem_cons_of_mem a hb, hfb⟩

/-- A value of `json.loads`.  The members of an object have distinct keys. -/
inductive Json
  | null
  | bool (b : Bool)
  | int (n : Int)
  | float (x : Float)
  | str (s : PyStr)
  | arr (items : List Json)
  | obj (members : List (PyStr × Json))

/-- A value SQLite stores. -/
inductive SqlValue
  | null
  | integer (n : Int)
  | real (x : Float)
  | text (s : PyStr)

/-- The most decimal digits that an integer is read from or written in. -/
def maxStrDigits : Nat := 4300

structure Runtime where
  /-- The lists and objects that `json.loads` may read inside one another. -/
  readDepth : Nat
  /-- The lists and objects that `json.dumps` may write inside one another. -/
  writeDepth : Nat
  /-- `str` of a value that is no string. -/
  repr : Json → PyStr
  /-- `int` of a string.  `none` is `ValueError`. -/
  parseInt : PyStr → Option Int
  /-- `int` of a float. -/
  truncate : Float → Except PyError Int
  /-- `float` of a string.  `none` is `ValueError`. -/
  parseFloat : PyStr → Option Float
  /-- `float` of an int. -/
  intToFloat : Int → Except PyError Float
  /-- `str.lower`. -/
  lower : PyStr → PyStr
  lower_lower : ∀ s, lower (lower s) = lower s
  strip_lower : ∀ s, strip (lower s) = lower (strip s)
  /-- The text of an integer or a real in a column of type `TEXT`. -/
  columnText : SqlValue → PyStr
  columnText_start : ∀ v c rest, columnText v = c :: rest → c < 97

/-- `email.strip().lower()`. -/
def Runtime.normalized (rt : Runtime) (email : PyStr) : PyStr :=
  rt.lower (strip email)

namespace Json

def isNull : Json → Bool
  | null => true
  | _ => false

/-- The value counts as true. -/
def truthy : Json → Bool
  | null => false
  | bool b => b
  | int n => n != 0
  | float x => x != 0
  | str s => !s.isEmpty
  | arr items => !items.isEmpty
  | obj members => !members.isEmpty

/-- `v or other`. -/
def or (v other : Json) : Json :=
  if v.truthy then v else other

/-- `v == text`. -/
def isStr (v : Json) (text : PyStr) : Bool :=
  match v with
  | str s => s == text
  | _ => false

/-- `v.get(key, default)`. -/
def getD (v : Json) (key : String) (default : Json) : Except PyError Json :=
  match v with
  | obj members => .ok ((members.lookup (py key)).getD default)
  | _ => .error .attributeError

/-- `v.get(key)`. -/
def get (v : Json) (key : String) : Except PyError Json :=
  v.getD key null

/-- `v[key]` of a dict that has the key. -/
def member (v : Json) (key : String) : Option Json :=
  match v with
  | obj members => members.lookup (py key)
  | _ => none

/-- `v[0]` of a value that counts as true. -/
def first : Json → Except PyError Json
  | arr (item :: _) => .ok item
  | arr [] => .error .indexError
  | str (c :: _) => .ok (str [c])
  | str [] => .error .indexError
  | obj _ => .error .keyError
  | _ => .error .typeError

/-- `dict(v)` with one member set, of a dict. -/
def set (v : Json) (key : String) (value : Json) : Json :=
  match v with
  | obj members => obj ((py key, value) :: members.filter fun member => member.1 != py key)
  | v => v

section Conversions

variable (rt : Runtime)

def toStr : Json → PyStr
  | str s => s
  | v => rt.repr v

def toInt : Json → Except PyError Int
  | bool b => .ok (if b then 1 else 0)
  | int n => .ok n
  | float x => rt.truncate x
  | str s =>
    match rt.parseInt s with
    | some n => .ok n
    | none => .error .valueError
  | _ => .error .typeError

def toFloat : Json → Except PyError Float
  | bool b => .ok (if b then 1 else 0)
  | int n => rt.intToFloat n
  | float x => .ok x
  | str s =>
    match rt.parseFloat s with
    | some x => .ok x
    | none => .error .valueError
  | _ => .error .typeError

end Conversions

end Json

/-! ## Parameters of a statement -/

/-- An integer that SQLite can hold. -/
def bindInt (n : Int) : Except PyError SqlValue :=
  if -2 ^ 63 ≤ n ∧ n < 2 ^ 63 then .ok (.integer n) else .error .overflowError

/-- A string without lone surrogates. -/
def bindText (s : PyStr) : Except PyError SqlValue :=
  if s.any fun c => 0xD800 ≤ c && c ≤ 0xDFFF then .error .unicodeEncodeError else .ok (.text s)

/-- A parameter of a statement.  A NaN is stored as `NULL`. -/
def bindValue : Json → Except PyError SqlValue
  | .null => .ok .null
  | .bool b => .ok (.integer (if b then 1 else 0))
  | .int n => bindInt n
  | .float x => .ok (if x.isNaN then .null else .real x)
  | .str s => bindText s
  | .arr _ => .error .programmingError
  | .obj _ => .error .programmingError

/-- The value in a column of type `TEXT`, unless it is `NULL`. -/
def textColumn (rt : Runtime) : SqlValue → Option PyStr
  | .null => none
  | .text s => some s
  | v => some (rt.columnText v)

theorem bindText_eq_ok {s : PyStr} {v : SqlValue} (h : bindText s = .ok v) : v = .text s := by
  unfold bindText at h
  split at h
  · cases h
  · cases h
    rfl

theorem bindInt_eq_ok {n : Int} {v : SqlValue} (h : bindInt n = .ok v) : v = .integer n := by
  unfold bindInt at h
  split at h
  · cases h
    rfl
  · cases h

/-- A column holds the text of a string that is stored in it. -/
theorem textColumn_str {rt : Runtime} {s text : PyStr} {v : SqlValue}
    (hbind : bindValue (.str s) = .ok v) (hcolumn : textColumn rt v = some text) : text = s := by
  rw [bindText_eq_ok hbind] at hcolumn
  exact (Option.some.inj hcolumn).symm

/-- Anything else that a column holds is the text of a number. -/
theorem textColumn_number {rt : Runtime} {value : Json} {text : PyStr} {v : SqlValue}
    (hstr : ∀ s, value ≠ .str s) (hbind : bindValue value = .ok v)
    (hcolumn : textColumn rt v = some text) : text = rt.columnText v := by
  cases v with
  | null => cases hcolumn
  | integer n => exact (Option.some.inj hcolumn).symm
  | real x => exact (Option.some.inj hcolumn).symm
  | text s =>
    cases value with
    | null => cases hbind
    | bool b => cases hbind
    | int n => cases bindInt_eq_ok hbind
    | float x =>
      simp only [bindValue] at hbind
      split at hbind <;> cases hbind
    | str s => exact absurd rfl (hstr s)
    | arr items => cases hbind
    | obj members => cases hbind

end OpendssGateway
