import OpendssGateway.Library.Uri

/-!
# Fields of a form

`application/x-www-form-urlencoded` over lists of bytes: the names and the
values of fields, with `+` for a blank and escapes for what is not safe.

* `serialize` and `parse` write and read the fields.  Which bytes a writer
  holds for safe is a parameter.
* `parse_serialize`: what is written is read back, whatever the names and
  the values are, when none of `%`, `&`, `+` and `=` is safe.
-/

namespace Form

abbrev Bytes := List UInt8

/-! ## Names and values -/

section Quote

variable (safe : UInt8 → Bool)

def quoteByte (b : UInt8) : Bytes :=
  if b = 32 then [43] else Uri.encodeByte safe b

def quote (s : Bytes) : Bytes :=
  s.flatMap (quoteByte safe)

def unquote (s : Bytes) : Bytes :=
  Uri.decode (s.map fun b => if b = 43 then 32 else b)

/-- The bytes that a form is read by are not safe. -/
structure Reserves : Prop where
  percent : safe 37 = false
  ampersand : safe 38 = false
  plus : safe 43 = false
  equals : safe 61 = false

end Quote

section QuoteLemmas

variable {safe : UInt8 → Bool}

/-- A hexadecimal digit is none of the bytes that a URL or a form is read by. -/
theorem hexDigit_ne (b : UInt8) {d : UInt8}
    (h : d = Uri.hexDigit (b / 16) ∨ d = Uri.hexDigit (b % 16)) :
    d ≠ 35 ∧ d ≠ 38 ∧ d ≠ 43 ∧ d ≠ 61 := by
  have hall : ∀ n : Fin 256, [Uri.hexDigit (UInt8.ofNat n / 16),
      Uri.hexDigit (UInt8.ofNat n % 16)].all fun d => d ≠ 35 ∧ d ≠ 38 ∧ d ≠ 43 ∧ d ≠ 61 := by
    decide +kernel
  have hb := List.all_eq_true.1 (hall ⟨b.toNat, b.toNat_lt⟩) d
  rw [UInt8.ofNat_toNat] at hb
  exact of_decide_eq_true (hb (by simpa using h))

theorem ne_of_safe {b c : UInt8} (hb : safe b = true) (hc : safe c = false) : b ≠ c := by
  rintro rfl
  rw [hb] at hc
  cases hc

theorem unquote_quoteByte (h : Reserves safe) (b : UInt8) (rest : Bytes) :
    unquote (quoteByte safe b ++ rest) = b :: unquote rest := by
  unfold unquote quoteByte Uri.encodeByte
  rw [List.map_append]
  split_ifs with hblank hsafe
  · subst hblank
    exact Uri.decode_cons_of_ne (by decide) _
  · rw [List.map_singleton, if_neg (ne_of_safe hsafe h.plus)]
    exact Uri.decode_cons_of_ne (ne_of_safe hsafe h.percent) _
  · have hfirst := (hexDigit_ne b (Or.inl rfl)).2.2.1
    have hsecond := (hexDigit_ne b (Or.inr rfl)).2.2.1
    simp only [List.map_cons, List.map_nil, if_neg hfirst, if_neg hsecond]
    exact Uri.decode_escape (Uri.escape_hexDigit b) _

theorem unquote_quote (h : Reserves safe) (s : Bytes) : unquote (quote safe s) = s := by
  induction s with
  | nil => rfl
  | cons b s ih =>
    show unquote (quoteByte safe b ++ quote safe s) = _
    rw [unquote_quoteByte h, ih]

theorem quote_of_safe {s : Bytes} (h : ∀ b ∈ s, b ≠ 32 ∧ safe b = true) : quote safe s = s := by
  unfold quote
  refine Eq.trans (List.flatMap_congr fun b hb => ?_) (List.flatMap_singleton' s)
  unfold quoteByte Uri.encodeByte
  rw [if_neg (h b hb).1, if_pos (h b hb).2]

/-- What separates fields, and a name from its value, stands in neither. -/
theorem ne_of_mem_quote (h : Reserves safe) {s : Bytes} {c : UInt8} (hc : c ∈ quote safe s) :
    c ≠ 38 ∧ c ≠ 61 := by
  obtain ⟨b, -, hc⟩ := List.mem_flatMap.1 hc
  unfold quoteByte Uri.encodeByte at hc
  split_ifs at hc with hblank hsafe
  · rw [List.mem_singleton.1 hc]
    decide
  · rw [List.mem_singleton.1 hc]
    exact ⟨ne_of_safe hsafe h.ampersand, ne_of_safe hsafe h.equals⟩
  · rcases List.mem_cons.1 hc with rfl | hdigit
    · decide
    · have hne := hexDigit_ne b (by simpa using hdigit)
      exact ⟨hne.2.1, hne.2.2.2⟩

end QuoteLemmas

/-! ## Fields -/

section Fields

abbrev Fields := List (Bytes × Bytes)

def serializeField (safe : UInt8 → Bool) (field : Bytes × Bytes) : Bytes :=
  quote safe field.1 ++ 61 :: quote safe field.2

def serialize (safe : UInt8 → Bool) (fields : Fields) : Bytes :=
  [38].intercalate (fields.map (serializeField safe))

/-- A field without `=` is a name. -/
def parseField (s : Bytes) : Bytes × Bytes :=
  (unquote (s.takeWhile (· ≠ 61)), unquote ((s.dropWhile (· ≠ 61)).drop 1))

def parse (s : Bytes) : Fields :=
  ((s.splitOn 38).filter (· ≠ [])).map parseField

variable {safe : UInt8 → Bool}

theorem parseField_serializeField (h : Reserves safe) (field : Bytes × Bytes) :
    parseField (serializeField safe field) = field := by
  have hname : ∀ c ∈ quote safe field.1, decide (c ≠ 61) = true := fun c hc =>
    decide_eq_true (ne_of_mem_quote h hc).2
  unfold parseField serializeField
  rw [List.takeWhile_append_of_pos hname, List.dropWhile_append_of_pos hname]
  simp [unquote_quote h]

/-- What holds of the bytes that have a meaning, of digits and of safe bytes holds of a form. -/
theorem of_mem_serialize {P : UInt8 → Prop} (hsafe : ∀ b, safe b = true → P b)
    (hreserved : P 37 ∧ P 38 ∧ P 43 ∧ P 61)
    (hdigit : ∀ b, P (Uri.hexDigit (b / 16)) ∧ P (Uri.hexDigit (b % 16))) {fields : Fields} :
    ∀ c ∈ serialize safe fields, P c := by
  obtain ⟨hpercent, hampersand, hplus, hequals⟩ := hreserved
  have hquote : ∀ s, ∀ c ∈ quote safe s, P c := by
    intro s c hc
    obtain ⟨b, -, hc⟩ := List.mem_flatMap.1 hc
    unfold quoteByte Uri.encodeByte at hc
    split_ifs at hc with hblank hb
    · rw [List.mem_singleton.1 hc]
      exact hplus
    · rw [List.mem_singleton.1 hc]
      exact hsafe b hb
    · simp only [List.mem_cons, List.not_mem_nil, or_false] at hc
      rcases hc with rfl | rfl | rfl
      · exact hpercent
      · exact (hdigit b).1
      · exact (hdigit b).2
  intro c hc
  unfold serialize at hc
  induction fields with
  | nil => cases hc
  | cons field rest ih =>
    have hfield : ∀ c ∈ serializeField safe field, P c := by
      intro d hd
      rcases List.mem_append.1 hd with hd | hd
      · exact hquote _ d hd
      · rcases List.mem_cons.1 hd with rfl | hd
        · exact hequals
        · exact hquote _ d hd
    cases rest with
    | nil => exact hfield c (by simpa using hc)
    | cons other rest =>
      rw [List.map_cons, List.intercalate_cons_of_ne_nil (by simp)] at hc
      rcases List.mem_append.1 hc with hc | hc
      · rcases List.mem_append.1 hc with hc | hc
        · exact hfield c hc
        · rw [List.mem_singleton.1 hc]
          exact hampersand
      · exact ih hc

/-- The fields that are written are read back. -/
theorem parse_serialize (h : Reserves safe) (fields : Fields) :
    parse (serialize safe fields) = fields := by
  cases fields with
  | nil => rfl
  | cons field rest =>
    have hapart : ∀ l ∈ (field :: rest).map (serializeField safe), (38 : UInt8) ∉ l := by
      intro l hl hmem
      obtain ⟨other, -, rfl⟩ := List.mem_map.1 hl
      rcases List.mem_append.1 hmem with hname | hvalue
      · exact (ne_of_mem_quote h hname).1 rfl
      · rcases List.mem_cons.1 hvalue with heq | hvalue
        · exact absurd heq (by decide)
        · exact (ne_of_mem_quote h hvalue).1 rfl
    have hfilter : ((field :: rest).map (serializeField safe)).filter (· ≠ []) =
        (field :: rest).map (serializeField safe) := by
      refine List.filter_eq_self.2 fun l hl => ?_
      obtain ⟨other, -, rfl⟩ := List.mem_map.1 hl
      simp [serializeField]
    unfold parse serialize
    rw [List.splitOn_intercalate 38 hapart (by simp), hfilter, List.map_map]
    refine (List.map_congr_left fun other _ => ?_).trans (List.map_id _)
    exact parseField_serializeField h other

end Fields

end Form
