import OpendssGateway.Gateway.Json

/-!
# Addresses

`valid_email` of `auth.py`, and the form in which an address is stored.

* `normalized_normalized`: an address in stripped lower case is its own
  normal form.
* `valid_email_normalized`: every address that `valid_email` returns is.
* `plainRuntime` is Python on ASCII text, for the runs.
-/

namespace OpendssGateway

/-! ## White space at the ends -/

/-- What is left of a stripped text starts with no space. -/
theorem strip_strip (s : PyStr) : strip (strip s) = strip s := by
  have hhead : (strip s).dropWhile isSpace = strip s := by
    apply List.dropWhile_eq_self_iff.2
    intro hl
    have hpre : strip s <+: s.dropWhile isSpace := List.rdropWhile_prefix ..
    rw [hpre.getElem hl]
    apply List.dropWhile_get_zero_not
  calc strip (strip s)
      = (strip s).rdropWhile isSpace := by rw [strip, hhead]
    _ = strip s := List.rdropWhile_idempotent ..

private theorem dropWhile_map {f : Nat → Nat} (hf : ∀ c, isSpace (f c) = isSpace c) (s : PyStr) :
    (s.map f).dropWhile isSpace = (s.dropWhile isSpace).map f := by
  rw [List.dropWhile_map]
  congr 2
  funext c
  exact hf c

/-- Changing letters does not change where a text is stripped. -/
theorem strip_map {f : Nat → Nat} (hf : ∀ c, isSpace (f c) = isSpace c) (s : PyStr) :
    strip (s.map f) = (strip s).map f := by
  unfold strip List.rdropWhile
  rw [dropWhile_map hf, ← List.map_reverse, dropWhile_map hf, List.map_reverse]

theorem normalized_normalized (rt : Runtime) (email : PyStr) :
    rt.normalized (rt.normalized email) = rt.normalized email := by
  unfold Runtime.normalized
  rw [rt.strip_lower, rt.lower_lower, strip_strip]

/-! ## `valid_email` -/

/-- `[^@\s]`. -/
def plainChar (c : Nat) : Bool :=
  c != 64 && !isSpace c

/-- `[^@\s]{1,255}\.[^@\s]{2,}` as a whole. -/
def matchesDomain (s : PyStr) : Bool :=
  s.all plainChar &&
    (List.range s.length).any fun i => s[i]? == some 46 && 1 ≤ i && i ≤ 255 && i + 3 ≤ s.length

/-- `_EMAIL.match`.  The local part ends at the first `@`, and `$` matches before a
newline at the end as well. -/
def matchesEmail (s : PyStr) : Bool :=
  let localPart := s.takeWhile plainChar
  match s.dropWhile plainChar with
  | 64 :: rest =>
    1 ≤ localPart.length && localPart.length ≤ 64 &&
      (matchesDomain rest || (rest.getLast? == some 10 && matchesDomain rest.dropLast))
  | _ => false

def valid_email (rt : Runtime) (value : PyStr) : Option PyStr :=
  let value := strip value
  if matchesEmail value && value.length ≤ 254 then some (rt.lower value) else none

theorem valid_email_normalized {rt : Runtime} {value email : PyStr}
    (h : valid_email rt value = some email) :
    email = rt.normalized value ∧ rt.normalized email = email := by
  have hemail : email = rt.normalized value := by
    simp only [valid_email] at h
    split_ifs at h
    exact (Option.some.inj h).symm
  refine ⟨hemail, ?_⟩
  rw [hemail]
  exact normalized_normalized rt value

/-! ## ASCII -/

def asciiLower (c : Nat) : Nat :=
  if 65 ≤ c ∧ c ≤ 90 then c + 32 else c

theorem asciiLower_asciiLower (c : Nat) : asciiLower (asciiLower c) = asciiLower c := by
  unfold asciiLower
  split_ifs <;> omega

theorem isSpace_asciiLower (c : Nat) : isSpace (asciiLower c) = isSpace c := by
  unfold asciiLower
  split_ifs with h
  · have hupper : isSpace c = false := by
      simp only [isSpace]
      grind
    have hlower : isSpace (c + 32) = false := by
      simp only [isSpace]
      grind
    rw [hupper, hlower]
  · rfl

/-- Python on ASCII text.  The runs that are evaluated hold no other. -/
def plainRuntime : Runtime where
  readDepth := 900
  writeDepth := 900
  repr
    | .int n => py (toString n)
    | _ => []
  parseInt s :=
    if s ≠ [] ∧ s.all fun c => 48 ≤ c && c ≤ 57 then
      some (s.foldl (fun n c => 10 * n + (c - 48)) 0 : Nat)
    else none
  truncate _ := .error .overflowError
  parseFloat _ := none
  intToFloat n := .ok (Float.ofInt n)
  lower s := s.map asciiLower
  lower_lower s := by
    rw [List.map_map]
    exact List.map_congr_left fun c _ => asciiLower_asciiLower c
  strip_lower s := strip_map isSpace_asciiLower s
  columnText _ := [48]
  columnText_start _ c rest h := by
    cases h
    omega

end OpendssGateway
