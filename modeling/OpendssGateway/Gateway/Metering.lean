import Mathlib.Algebra.Order.Ring.Rat

/-!
# Reading engine seconds off a stream

`_ENGINE_SECONDS.findall(tail)` and `float(found[-1])` of `app.py`.  The
pattern is the bytes `"engineSeconds":`, white space, and a run of digits
and dots.  The two classes are disjoint, so the greedy match never
backtracks.
-/

namespace OpendssGateway

abbrev Bytes := List UInt8

/-- The bytes of an ASCII text. -/
def ascii (text : String) : Bytes :=
  text.toList.map fun c => c.toNat.toUInt8

namespace Metering

/-- `\s` in a pattern over bytes. -/
def isSpace (b : UInt8) : Bool :=
  b == 32 || (9 ≤ b && b ≤ 13)

def isDigit (b : UInt8) : Bool :=
  48 ≤ b && b ≤ 57

/-- `[0-9.]`. -/
def isNumeric (b : UInt8) : Bool :=
  isDigit b || b == 46

def key : Bytes :=
  ascii "\"engineSeconds\":"

/-- The rest after a prefix. -/
def stripPrefix : Bytes → Bytes → Option Bytes
  | [], rest => some rest
  | _ :: _, [] => none
  | p :: ps, b :: rest => if p = b then stripPrefix ps rest else none

/-- A match at the start: the group and the bytes behind the match. -/
def matchHere (bytes : Bytes) : Option (Bytes × Bytes) :=
  (stripPrefix key bytes).bind fun rest =>
    let rest := rest.dropWhile isSpace
    let group := rest.takeWhile isNumeric
    if group.isEmpty then none else some (group, rest.dropWhile isNumeric)

/-- The groups of all matches, left to right.  The fuel is the number of
bytes. -/
def findallAux : Nat → Bytes → List Bytes
  | 0, _ => []
  | _ + 1, [] => []
  | fuel + 1, b :: rest =>
    match matchHere (b :: rest) with
    | some (group, behind) => group :: findallAux fuel behind
    | none => findallAux fuel rest

/-- `_ENGINE_SECONDS.findall`. -/
def findall (bytes : Bytes) : List Bytes :=
  findallAux bytes.length bytes

/-- The value of a run of digits. -/
def digits (text : Bytes) : Nat :=
  text.foldl (fun n b => 10 * n + (b.toNat - 48)) 0

/-- `float` of a run of digits and dots.  `none` is `ValueError`. -/
def float (text : Bytes) : Option ℚ :=
  let whole := text.takeWhile isDigit
  match text.dropWhile isDigit with
  | [] => if whole.isEmpty then none else some (digits whole)
  | point :: fraction =>
    if point == 46 && fraction.all isDigit && !(whole.isEmpty && fraction.isEmpty) then
      some (digits whole + digits fraction / 10 ^ fraction.length)
    else none

/-- The text that the last match holds, if there is one. -/
def lastText (tail : Bytes) : Option Bytes :=
  (findall tail).getLast?

theorem lastText_eq_none {bytes : Bytes} : lastText bytes = none ↔ findall bytes = [] :=
  List.getLast?_eq_none_iff

/-- Where the whole has no match, no rest of it has one. -/
theorem findall_append {bytes rest : Bytes} (h : findall (bytes ++ rest) = []) :
    findall rest = [] := by
  induction bytes with
  | nil => exact h
  | cons b bytes ih =>
    apply ih
    -- a search that found nothing has gone on one byte further
    have hstep : findall (b :: (bytes ++ rest)) =
        match matchHere (b :: (bytes ++ rest)) with
        | some (group, behind) => group :: findallAux (bytes ++ rest).length behind
        | none => findall (bytes ++ rest) := rfl
    rw [List.cons_append, hstep] at h
    split at h
    · cases h
    · exact h

example : lastText (ascii "data: \x7b\"engineSeconds\":  2.5, \"engineSeconds\": 3.25\x7d") =
    some (ascii "3.25") := by decide

example : float (ascii "3.25") = some (13 / 4) := by decide +kernel

end Metering

end OpendssGateway
