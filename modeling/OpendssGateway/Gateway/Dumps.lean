import OpendssGateway.Gateway.Json

/-!
# Writing JSON

`json.dumps`, which escapes everything but the printable characters of
ASCII.  The text of a number comes from the runtime.

`Json.dumps` is the text that is written, and `json_dumps` the call, which
raises for an integer with too many digits and for a value that is nested
too deep.
-/

namespace OpendssGateway

/-- `separators`. -/
structure Separators where
  item : PyStr
  key : PyStr

/-- The default. -/
def spaced : Separators where
  item := py ", "
  key := py ": "

def compact : Separators where
  item := py ","
  key := py ":"

/-- A hexadecimal digit. -/
def hexDigit (d : Nat) : Nat :=
  if d < 10 then 48 + d else 87 + d

/-- The escape of one UTF-16 unit. -/
def escapeUnit (unit : Nat) : PyStr :=
  [92, 117, hexDigit (unit / 4096 % 16), hexDigit (unit / 256 % 16), hexDigit (unit / 16 % 16),
    hexDigit (unit % 16)]

/-- A character inside a string. -/
def escape (c : Nat) : PyStr :=
  if c = 34 ∨ c = 92 then [92, c]
  else if 32 ≤ c ∧ c < 127 then [c]
  else if c = 10 then py "\\n"
  else if c = 13 then py "\\r"
  else if c = 9 then py "\\t"
  else if c = 12 then py "\\f"
  else if c = 8 then py "\\b"
  else if c < 0x10000 then escapeUnit c
  else
    escapeUnit (0xD800 + (c - 0x10000) / 1024 % 1024) ++
      escapeUnit (0xDC00 + (c - 0x10000) % 1024)

def dumpsStr (s : PyStr) : PyStr :=
  [34] ++ s.flatMap escape ++ [34]

def dumpsFloat (rt : Runtime) (x : Float) : PyStr :=
  if x.isNaN then py "NaN"
  else if x.isInf then (if x > 0 then py "Infinity" else py "-Infinity")
  else rt.repr (.float x)

mutual

/-- The text that `json.dumps` writes. -/
def Json.dumps (rt : Runtime) (separators : Separators) : Json → PyStr
  | .null => py "null"
  | .bool b => if b then py "true" else py "false"
  | .int n => py (toString n)
  | .float x => dumpsFloat rt x
  | .str s => dumpsStr s
  | .arr items => py "[" ++ separators.item.intercalate (dumpsItems rt separators items) ++ py "]"
  | .obj members =>
    py "\x7b" ++ separators.item.intercalate (dumpsMembers rt separators members) ++ py "\x7d"

def dumpsItems (rt : Runtime) (separators : Separators) : List Json → List PyStr
  | [] => []
  | item :: rest => item.dumps rt separators :: dumpsItems rt separators rest

def dumpsMembers (rt : Runtime) (separators : Separators) : List (PyStr × Json) → List PyStr
  | [] => []
  | (key, value) :: rest =>
    (dumpsStr key ++ separators.key ++ value.dumps rt separators) ::
      dumpsMembers rt separators rest

end

/-! ## What is not written -/

/-- `str` of an integer.  It raises for one that has too many digits. -/
def checkInt (n : Int) : Except PyError Unit :=
  if maxStrDigits < n.natAbs.repr.length then .error .valueError else .ok ()

mutual

/-- What stops the encoder on its way through a value. -/
def Json.checkDumps : Nat → Json → Except PyError Unit
  | _, .int n => checkInt n
  | depth, .arr items =>
    if depth = 0 then .error .recursionError else checkItems (depth - 1) items
  | depth, .obj members =>
    if depth = 0 then .error .recursionError else checkMembers (depth - 1) members
  | _, _ => .ok ()

def checkItems : Nat → List Json → Except PyError Unit
  | _, [] => .ok ()
  | depth, item :: rest => do
    item.checkDumps depth
    checkItems depth rest

def checkMembers : Nat → List (PyStr × Json) → Except PyError Unit
  | _, [] => .ok ()
  | depth, (_, value) :: rest => do
    value.checkDumps depth
    checkMembers depth rest

end

/-- `json.dumps`. -/
def json_dumps (rt : Runtime) (separators : Separators) (v : Json) : Except PyError PyStr := do
  v.checkDumps rt.writeDepth
  .ok (v.dumps rt separators)

/-- An integer whose digits are not too many. -/
def IntFits (n : Int) : Prop :=
  n.natAbs.repr.length ≤ maxStrDigits

mutual

/-- No integer of the value has too many digits, and it is nested at most so deep. -/
def Json.Fits : Nat → Json → Prop
  | _, .int n => IntFits n
  | depth, .arr items => depth ≠ 0 ∧ ItemsFit (depth - 1) items
  | depth, .obj members => depth ≠ 0 ∧ MembersFit (depth - 1) members
  | _, _ => True

def ItemsFit : Nat → List Json → Prop
  | _, [] => True
  | depth, item :: rest => item.Fits depth ∧ ItemsFit depth rest

def MembersFit : Nat → List (PyStr × Json) → Prop
  | _, [] => True
  | depth, (_, value) :: rest => value.Fits depth ∧ MembersFit depth rest

end

theorem checkInt_eq_ok {n : Int} : checkInt n = .ok () ↔ IntFits n := by
  unfold checkInt IntFits
  split
  · simp
    omega
  · simp
    omega

/-- A check of a container, which goes one level down. -/
theorem checkDepth_eq_ok {depth : Nat} {inner : Except PyError Unit} :
    (if depth = 0 then .error .recursionError else inner) = .ok () ↔
      depth ≠ 0 ∧ inner = .ok () := by
  by_cases h : depth = 0 <;> simp [h]

mutual

theorem checkDumps_eq_ok (depth : Nat) (v : Json) :
    v.checkDumps depth = .ok () ↔ v.Fits depth := by
  cases v with
  | null | bool _ | float _ | str _ => simp [Json.checkDumps, Json.Fits]
  | int n => exact checkInt_eq_ok
  | arr items =>
    rw [Json.checkDumps, checkDepth_eq_ok, checkItems_eq_ok (depth - 1) items, Json.Fits]
  | obj members =>
    rw [Json.checkDumps, checkDepth_eq_ok, checkMembers_eq_ok (depth - 1) members, Json.Fits]

theorem checkItems_eq_ok (depth : Nat) (items : List Json) :
    checkItems depth items = .ok () ↔ ItemsFit depth items := by
  cases items with
  | nil => simp [checkItems, ItemsFit]
  | cons item rest =>
    rw [checkItems, bind_eq_ok, ItemsFit, ← checkDumps_eq_ok depth item,
      ← checkItems_eq_ok depth rest]
    exact ⟨fun ⟨_, hitem, hrest⟩ => ⟨hitem, hrest⟩, fun ⟨hitem, hrest⟩ => ⟨(), hitem, hrest⟩⟩

theorem checkMembers_eq_ok (depth : Nat) (members : List (PyStr × Json)) :
    checkMembers depth members = .ok () ↔ MembersFit depth members := by
  cases members with
  | nil => simp [checkMembers, MembersFit]
  | cons member rest =>
    obtain ⟨key, value⟩ := member
    rw [checkMembers, bind_eq_ok, MembersFit, ← checkDumps_eq_ok depth value,
      ← checkMembers_eq_ok depth rest]
    exact ⟨fun ⟨_, hvalue, hrest⟩ => ⟨hvalue, hrest⟩, fun ⟨hvalue, hrest⟩ => ⟨(), hvalue, hrest⟩⟩

end

/-- `json.dumps` writes what fits, and raises for anything else. -/
theorem json_dumps_eq_ok {rt : Runtime} {separators : Separators} {v : Json} {text : PyStr} :
    json_dumps rt separators v = .ok text ↔
      v.Fits rt.writeDepth ∧ v.dumps rt separators = text := by
  rw [json_dumps, bind_eq_ok, ← checkDumps_eq_ok]
  constructor
  · rintro ⟨_, hcheck, htext⟩
    cases htext
    exact ⟨hcheck, rfl⟩
  · rintro ⟨hcheck, rfl⟩
    exact ⟨(), hcheck, rfl⟩

/-! ## What is written -/

/-- A printable character of ASCII. -/
def Printable (c : Nat) : Prop :=
  32 ≤ c ∧ c < 127

theorem printable_hexDigit {d : Nat} (h : d < 16) : Printable (hexDigit d) := by
  unfold hexDigit Printable
  split <;> omega

theorem printable_escapeUnit (unit : Nat) : ∀ c ∈ escapeUnit unit, Printable c := by
  intro c hc
  have hdigit : ∀ n, Printable (hexDigit (n % 16)) := fun n =>
    printable_hexDigit (Nat.mod_lt n (by omega))
  simp only [escapeUnit, List.mem_cons, List.not_mem_nil, or_false] at hc
  rcases hc with rfl | rfl | rfl | rfl | rfl | rfl
  · exact ⟨by omega, by omega⟩
  · exact ⟨by omega, by omega⟩
  all_goals exact hdigit _

theorem printable_escape (c : Nat) : ∀ d ∈ escape c, Printable d := by
  have hletter : ∀ letter : Nat, Printable letter → ∀ d ∈ [92, letter], Printable d := by
    intro letter hl d hd
    rcases List.mem_cons.1 hd with rfl | hd
    · exact ⟨by omega, by omega⟩
    · rw [List.mem_singleton.1 hd]
      exact hl
  intro d hd
  unfold escape at hd
  split at hd
  · rename_i hquote
    refine hletter c ?_ d hd
    rcases hquote with rfl | rfl <;> exact ⟨by omega, by omega⟩
  split at hd
  · rename_i hprintable
    rw [List.mem_singleton.1 hd]
    exact hprintable
  split at hd
  · exact hletter 110 ⟨by omega, by omega⟩ d hd
  split at hd
  · exact hletter 114 ⟨by omega, by omega⟩ d hd
  split at hd
  · exact hletter 116 ⟨by omega, by omega⟩ d hd
  split at hd
  · exact hletter 102 ⟨by omega, by omega⟩ d hd
  split at hd
  · exact hletter 98 ⟨by omega, by omega⟩ d hd
  split at hd
  · exact printable_escapeUnit _ d hd
  · rcases List.mem_append.1 hd with hd | hd
    · exact printable_escapeUnit _ d hd
    · exact printable_escapeUnit _ d hd

/-- A string is written in printable characters. -/
theorem printable_dumpsStr (s : PyStr) : ∀ c ∈ dumpsStr s, Printable c := by
  intro c hc
  simp only [dumpsStr, List.mem_append, List.mem_singleton, List.mem_flatMap] at hc
  rcases hc with (rfl | ⟨d, -, hd⟩) | rfl
  · exact ⟨by omega, by omega⟩
  · exact printable_escape d c hd
  · exact ⟨by omega, by omega⟩

end OpendssGateway
