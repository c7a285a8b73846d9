import OpendssGateway.Gateway.Signature

/-!
# Reading a body

`_read_body` of `app.py`.  A `Content-Length` that is too large is refused
before anything is read, and the chunks are counted as they come.

`str.isdigit` says yes to every digit of Unicode.  `int` reads the decimal
ones only, and no more than 4300 of them.

* `readInt_of_isdigit`: when `int` reads a text of digits.
* `foldlM_readChunk`: what a loop over chunks keeps.
* `read_body_iff` is the result.
-/

namespace OpendssGateway

open FloatText

/-- The digits of Unicode beyond ASCII.  Every decimal digit is one, and none is white
space. -/
structure UnicodeDigits extends Unicode where
  isDigit : Nat → Bool
  isDigit_of_digit : ∀ c, (digit c).isSome = true → isDigit c = true
  space_of_isDigit : ∀ c, isDigit c = true → space c = false

namespace UnicodeDigits

variable (u : UnicodeDigits)

/-- `str.isdigit` of one character. -/
def isdigitChar (c : Nat) : Bool :=
  if c < 128 then 48 ≤ c && c ≤ 57 else u.isDigit c

/-- `str.isdigit`. -/
def isdigit (text : PyStr) : Bool :=
  !text.isEmpty && text.all u.isdigitChar

/-- A decimal digit. -/
def isDecimal (c : Nat) : Bool :=
  if c < 128 then 48 ≤ c && c ≤ 57 else (u.digit c).isSome

/-- The number that decimal digits show. -/
def size (text : PyStr) : Nat :=
  Metering.digits (text.map u.ascii)

end UnicodeDigits

def MAX_BODY_BYTES : Nat := 12 * 1024 * 1024

inductive BodyError
  /-- `_BodyTooLarge` -/
  | tooLarge
  | python (e : PyError)
  deriving DecidableEq

/-- `declared and declared.isdigit() and int(declared) > MAX_BODY_BYTES`. -/
def declaredTooLarge (u : UnicodeDigits) (declared : Option PyStr) : Except PyError Bool :=
  let text := declared.getD []
  if u.isdigit text then
    match readInt u.toUnicode text with
    | some n => .ok (n > MAX_BODY_BYTES)
    | none => .error .valueError
  else .ok false

/-- One turn of the loop: the bytes that were seen, and the chunks that are kept. -/
def readChunk (state : Nat × List Bytes) (chunk : Bytes) : Except BodyError (Nat × List Bytes) :=
  let seen := state.1 + chunk.length
  if seen > MAX_BODY_BYTES then .error .tooLarge else .ok (seen, state.2 ++ [chunk])

/-- `_read_body`. -/
def read_body (u : UnicodeDigits) (declared : Option PyStr) (chunks : List Bytes) :
    Except BodyError Bytes :=
  match declaredTooLarge u declared with
  | .error e => .error (.python e)
  | .ok true => .error .tooLarge
  | .ok false => do
    let (_, kept) ← chunks.foldlM readChunk (0, [])
    pure kept.flatten

/-! ## The header -/

section Header

variable {u : UnicodeDigits} {text : PyStr}

theorem isdigit_iff : u.isdigit text = true ↔ text ≠ [] ∧ ∀ c ∈ text, u.isdigitChar c = true := by
  unfold UnicodeDigits.isdigit
  cases text <;> simp

theorem isDecimal_isdigit {c : Nat} (h : u.isDecimal c = true) : u.isdigitChar c = true := by
  unfold UnicodeDigits.isDecimal at h
  unfold UnicodeDigits.isdigitChar
  split at h
  · rw [if_pos ‹_›]
    exact h
  · rw [if_neg ‹_›]
    exact u.isDigit_of_digit c h

/-- A digit becomes an ASCII digit if it is decimal, and a question mark if not. -/
theorem ascii_of_isdigit {c : Nat} (h : u.isdigitChar c = true) :
    (u.isDecimal c = true ∧ Metering.isDigit (u.ascii c) = true) ∨
      (u.isDecimal c = false ∧ u.ascii c = 63) := by
  unfold UnicodeDigits.isdigitChar at h
  unfold UnicodeDigits.isDecimal Unicode.ascii
  by_cases hascii : c < 128
  · rw [if_pos hascii] at h ⊢
    rw [if_pos hascii]
    left
    refine ⟨h, ?_⟩
    simp only [Bool.and_eq_true, decide_eq_true_eq] at h
    have hnat := toUInt8_toNat (c := c) (by omega)
    simp only [Metering.isDigit, Bool.and_eq_true, decide_eq_true_eq, UInt8.le_iff_toNat_le, hnat]
    exact h
  · rw [if_neg hascii] at h ⊢
    rw [if_neg hascii, u.space_of_isDigit c h, if_neg Bool.false_ne_true]
    cases u.digit c with
    | none => exact Or.inr ⟨rfl, rfl⟩
    | some d =>
      left
      refine ⟨rfl, ?_⟩
      revert d
      decide

theorem plain_ascii {c : Nat} (h : u.isdigitChar c = true) : Plain (u.ascii c) := by
  rcases ascii_of_isdigit h with ⟨-, hdigit⟩ | ⟨-, hmark⟩
  · exact plain_of_digit hdigit
  · rw [hmark]
    unfold Plain
    decide

theorem isDigit_ascii {c : Nat} (h : u.isdigitChar c = true) :
    Metering.isDigit (u.ascii c) = u.isDecimal c := by
  rcases ascii_of_isdigit h with ⟨hdecimal, hdigit⟩ | ⟨hdecimal, hmark⟩
  · rw [hdecimal, hdigit]
  · rw [hdecimal, hmark]
    decide

/-- `int` reads a text of digits if they are decimal and not too many. -/
theorem readInt_of_isdigit (h : u.isdigit text = true) :
    readInt u.toUnicode text =
      if (∀ c ∈ text, u.isDecimal c = true) ∧ text.length ≤ maxStrDigits then
        some (u.size text : Int)
      else none := by
  obtain ⟨hne, hall⟩ := isdigit_iff.1 h
  have hplain : ∀ b ∈ text.map u.ascii, Plain b := by
    intro b hb
    obtain ⟨c, hc, rfl⟩ := List.mem_map.1 hb
    exact plain_ascii (hall c hc)
  have hsign : readSign (text.map u.ascii) = ([], text.map u.ascii) := by
    refine @readSign_of_sign [] _ (Or.inl rfl) fun b hb => ?_
    obtain ⟨c, hc, rfl⟩ := List.mem_map.1 (List.mem_of_mem_head? hb)
    rcases ascii_of_isdigit (hall c hc) with ⟨-, hdigit⟩ | ⟨-, hmark⟩
    · exact not_sign_of_digit hdigit
    · rw [hmark]
      decide
  have hdigits : (text.map u.ascii).all Metering.isDigit = true ↔
      ∀ c ∈ text, u.isDecimal c = true := by
    rw [List.all_map, List.all_eq_true]
    exact forall₂_congr fun c hc => by rw [Function.comp_apply, isDigit_ascii (hall c hc)]
  unfold readInt clean
  rw [strip_of_plain hplain, dropUnderscores_of_plain hplain, Option.bind_some, hsign]
  dsimp only
  rw [List.length_map]
  by_cases hread : (∀ c ∈ text, u.isDecimal c = true) ∧ text.length ≤ maxStrDigits
  · rw [if_pos hread, if_pos ⟨by simpa using hne, hdigits.2 hread.1, hread.2⟩]
    rfl
  · rw [if_neg hread, if_neg fun hcontra => hread ⟨hdigits.1 hcontra.2.1, hcontra.2.2⟩]

/-- The header declares, in decimal, a larger size. -/
def DeclaresLarger (u : UnicodeDigits) (declared : Option PyStr) : Prop :=
  ∃ text, declared = some text ∧ text ≠ [] ∧ (∀ c ∈ text, u.isDecimal c = true) ∧
    MAX_BODY_BYTES < u.size text

/-- `int` does not read a text of digits: one is not decimal, or there are too many. -/
def Unreadable (u : UnicodeDigits) (declared : Option PyStr) : Prop :=
  ∃ text, declared = some text ∧ u.isdigit text = true ∧
    ((∃ c ∈ text, u.isDecimal c = false) ∨ maxStrDigits < text.length)

theorem declaredTooLarge_of_unreadable {declared : Option PyStr} (h : Unreadable u declared) :
    declaredTooLarge u declared = .error .valueError := by
  obtain ⟨text, rfl, hdigit, hbad⟩ := h
  have hnone : readInt u.toUnicode text = none := by
    rw [readInt_of_isdigit hdigit, if_neg]
    rintro ⟨hdecimal, hlength⟩
    rcases hbad with ⟨c, hc, hnot⟩ | hlong
    · rw [hdecimal c hc] at hnot
      cases hnot
    · omega
  unfold declaredTooLarge
  dsimp only [Option.getD_some]
  rw [if_pos hdigit, hnone]

theorem declaredTooLarge_of_readable {declared : Option PyStr} (h : ¬ Unreadable u declared) :
    ∃ larger, declaredTooLarge u declared = .ok larger ∧
      (larger = true ↔ DeclaresLarger u declared) := by
  unfold declaredTooLarge
  dsimp only
  cases declared with
  | none =>
    refine ⟨false, rfl, iff_of_false Bool.false_ne_true ?_⟩
    rintro ⟨text, h, -⟩
    cases h
  | some text =>
    rw [Option.getD_some]
    by_cases hdigit : u.isdigit text = true
    · rw [if_pos hdigit, readInt_of_isdigit hdigit]
      have hread : (∀ c ∈ text, u.isDecimal c = true) ∧ text.length ≤ maxStrDigits := by
        constructor
        · intro c hc
          by_contra hnot
          exact h ⟨text, rfl, hdigit, Or.inl ⟨c, hc, by simpa using hnot⟩⟩
        · by_contra hlong
          exact h ⟨text, rfl, hdigit, Or.inr (not_le.1 hlong)⟩
      rw [if_pos hread]
      refine ⟨_, rfl, ?_⟩
      rw [decide_eq_true_eq]
      constructor
      · intro hlarge
        exact ⟨text, rfl, (isdigit_iff.1 hdigit).1, hread.1, by exact_mod_cast hlarge⟩
      · rintro ⟨text', htext, -, -, hlarge⟩
        cases htext
        exact_mod_cast hlarge
    · rw [if_neg hdigit]
      refine ⟨false, rfl, iff_of_false Bool.false_ne_true ?_⟩
      rintro ⟨text', htext, hne, hdecimal, -⟩
      cases htext
      exact hdigit (isdigit_iff.2 ⟨hne, fun c hc => isDecimal_isdigit (hdecimal c hc)⟩)

end Header

/-! ## The chunks -/

/-- The loop keeps all chunks while they are within the limit, and raises at the first one
that is not. -/
theorem foldlM_readChunk (chunks : List Bytes) (seen : Nat) (kept : List Bytes)
    (hseen : seen ≤ MAX_BODY_BYTES) :
    chunks.foldlM readChunk (seen, kept) =
      if seen + chunks.flatten.length ≤ MAX_BODY_BYTES then
        .ok (seen + chunks.flatten.length, kept ++ chunks)
      else .error .tooLarge := by
  induction chunks generalizing seen kept with
  | nil =>
    rw [List.flatten_nil, List.length_nil, Nat.add_zero, if_pos hseen, List.append_nil]
    rfl
  | cons chunk rest ih =>
    rw [List.foldlM_cons, List.flatten_cons, List.length_append, ← Nat.add_assoc]
    unfold readChunk
    dsimp only
    by_cases hover : seen + chunk.length > MAX_BODY_BYTES
    · rw [if_pos hover, if_neg (by omega)]
      rfl
    · rw [if_neg hover]
      show rest.foldlM readChunk (seen + chunk.length, kept ++ [chunk]) = _
      rw [ih _ _ (not_lt.1 hover), List.append_assoc, List.singleton_append]

/-- A body that is read is what came. -/
theorem read_body_eq_ok {u : UnicodeDigits} {declared : Option PyStr} {chunks : List Bytes}
    {body : Bytes} (h : read_body u declared chunks = .ok body) : body = chunks.flatten := by
  unfold read_body at h
  split at h
  · cases h
  · cases h
  · rw [foldlM_readChunk chunks 0 [] (Nat.zero_le _)] at h
    split at h
    · cases h
      rfl
    · cases h

/-- The total is within the limit, and so is what the header declares. -/
def Fits (u : UnicodeDigits) (declared : Option PyStr) (chunks : List Bytes) : Prop :=
  chunks.flatten.length ≤ MAX_BODY_BYTES ∧ ¬ DeclaresLarger u declared

/-- A body is read as it came if it fits, and refused if not, exactly for the headers that
`int` reads when `isdigit` says that they are digits.  At no point are more bytes kept than
the limit. -/
theorem read_body_iff (u : UnicodeDigits) (declared : Option PyStr) (chunks : List Bytes) :
    (((Fits u declared chunks → read_body u declared chunks = .ok chunks.flatten) ∧
          (¬ Fits u declared chunks → read_body u declared chunks = .error .tooLarge)) ↔
        ¬ Unreadable u declared) ∧
      ∀ before after state, chunks = before ++ after →
        before.foldlM readChunk (0, []) = .ok state →
        state.2 = before ∧ state.2.flatten.length ≤ MAX_BODY_BYTES := by
  refine ⟨⟨fun h hbad => ?_, fun hreadable => ?_⟩, fun before after state _ hstate => ?_⟩
  · have hraise : read_body u declared chunks = .error (.python .valueError) := by
      unfold read_body
      rw [declaredTooLarge_of_unreadable hbad]
    by_cases hfits : Fits u declared chunks
    · cases hraise.symm.trans (h.1 hfits)
    · cases hraise.symm.trans (h.2 hfits)
  · obtain ⟨larger, hdeclared, hlarger⟩ := declaredTooLarge_of_readable hreadable
    unfold read_body Fits
    rw [hdeclared]
    cases larger with
    | true => exact ⟨fun hfits => absurd (hlarger.1 rfl) hfits.2, fun _ => rfl⟩
    | false =>
      have hsmall : ¬ DeclaresLarger u declared := fun h => Bool.false_ne_true (hlarger.2 h)
      dsimp only
      rw [foldlM_readChunk chunks 0 [] (Nat.zero_le _), Nat.zero_add, List.nil_append]
      constructor
      · intro hfits
        rw [if_pos hfits.1]
        rfl
      · intro hnot
        rw [if_neg fun htotal => hnot ⟨htotal, hsmall⟩]
        rfl
  · rw [foldlM_readChunk before 0 [] (Nat.zero_le _), Nat.zero_add, List.nil_append] at hstate
    split at hstate
    · cases hstate
      exact ⟨rfl, ‹_›⟩
    · cases hstate

/-- The digits of Latin-1: the superscripts are digits, and not decimal. -/
def latin1 : UnicodeDigits where
  space c := c = 0x85 || c = 0xA0
  digit _ := none
  isDigit c := c = 0xB2 || c = 0xB3 || c = 0xB9
  isDigit_of_digit _ h := by cases h
  space_of_isDigit c h := by
    simp only [Bool.or_eq_true, decide_eq_true_eq] at h
    rcases h with (rfl | rfl) | rfl <;> decide

/-- A `Content-Length` of a superscript two. -/
theorem read_body_raises :
    ¬ ∀ (u : UnicodeDigits) (declared : Option PyStr) (chunks : List Bytes),
      (Fits u declared chunks → read_body u declared chunks = .ok chunks.flatten) ∧
        (¬ Fits u declared chunks → read_body u declared chunks = .error .tooLarge) := by
  intro h
  have hraise : read_body latin1 (some [0xB2]) [] = .error (.python .valueError) := by
    decide +kernel
  obtain ⟨hfits, hnot⟩ := h latin1 (some [0xB2]) []
  by_cases hcase : Fits latin1 (some [0xB2]) []
  · cases hraise.symm.trans (hfits hcase)
  · cases hraise.symm.trans (hnot hcase)

end OpendssGateway
